import RoboBand.Util.Toml

namespace RoboBand.Util

open RoboBand.Data Toml

variable {α : Type*}

/-! The call on two inner tables is given the default's first, the call below
that the user's first again, and so on. -/

/-- What becomes of a table of the default; `swapped` says that the call on it
has it in the place of `userConfig`. -/
def defaultAfter (swapped : Bool) (user default : Entries α) : Entries α :=
  if swapped then
    (mergeRaw (default, user)).1
  else
    (mergeRaw (user, default)).2

def defaultNodeAfter (swapped : Bool) :
    Option (Toml.Node α) → Option (Toml.Node α) → Option (Toml.Node α)
  | some (.table user), some (.table default) =>
      some (.table (defaultAfter (!swapped) user default))
  | some value, below => if swapped then below else some value
  | none, below => below

theorem lookup_defaultAfter (swapped : Bool) {user default : Entries α}
    (userValid : (RoboBand.Data.Node.table user).Valid)
    (defaultValid : (RoboBand.Data.Node.table default).Valid) (key : String) :
    (defaultAfter swapped user default).lookup key =
      defaultNodeAfter swapped (user.lookup key) (default.lookup key) := by
  cases swapped with
  | false =>
      have seen := viewAt_foldl mergeRaw userValid.ordered default key
      rw [← mergeRaw_eq ⟨userValid, defaultValid⟩] at seen
      refine (congrArg Prod.snd seen).trans ?_
      match user.lookup key, default.lookup key with
      | none, _ | some (.leaf _), _ | some (.table _), none
      | some (.table _), some (.leaf _)
      | some (.table _), some (.table _) => rfl
  | true =>
      have seen := viewAt_foldl mergeRaw defaultValid.ordered user key
      rw [← mergeRaw_eq ⟨defaultValid, userValid⟩] at seen
      refine (congrArg Prod.fst seen).trans ?_
      match user.lookup key, default.lookup key with
      | none, none | some (.leaf _), none | some (.table _), none
      | none, some (.leaf _) | some (.leaf _), some (.leaf _)
      | some (.table _), some (.leaf _) | none, some (.table _)
      | some (.leaf _), some (.table _)
      | some (.table _), some (.table _) => rfl

def Replaces (value : Toml.Node α) (below : Option (Toml.Node α)) : Prop :=
  ∀ user default, value = .table user → below ≠ some (.table default)

theorem defaultNodeAfter_of_replaces {swapped : Bool} {value : Toml.Node α}
    {below : Option (Toml.Node α)} (replaces : Replaces value below) :
    defaultNodeAfter swapped (some value) below =
      if swapped then below else some value := by
  match value, below, replaces with
  | .table _, some (.table _), replaces => exact absurd rfl (replaces _ _ rfl)
  | .leaf _, _, _ | .table _, none, _ | .table _, some (.leaf _), _ => rfl

/-- Where the call on two tables is swapped, the user sets no key to anything
the default does not hold there already. -/
inductive SwapHarmless : Bool → Entries α → Entries α → Prop
  | intro {swapped : Bool} {user default : Entries α}
      (tables : ∀ key userTable defaultTable,
        user.lookup key = some (.table userTable) →
        default.lookup key = some (.table defaultTable) →
        SwapHarmless (!swapped) userTable defaultTable)
      (replaced : swapped = true → ∀ key value,
        user.lookup key = some value → Replaces value (default.lookup key) →
        default.lookup key = some value) :
      SwapHarmless swapped user default

theorem defaultAfter_ordered {swapped : Bool} {user default : Entries α}
    (userValid : (RoboBand.Data.Node.table user).Valid)
    (defaultValid : (RoboBand.Data.Node.table default).Valid) :
    Ordered (defaultAfter swapped user default) := by
  cases swapped with
  | false =>
      exact (BothValid.mergeRaw ⟨userValid, defaultValid⟩).default.ordered
  | true =>
      exact (BothValid.mergeRaw ⟨defaultValid, userValid⟩).user.ordered

theorem defaultAfter_eq_mergeEntries_iff {user : Entries α}
    (userValid : (RoboBand.Data.Node.table user).Valid)
    (swapped : Bool) {default : Entries α}
    (defaultValid : (RoboBand.Data.Node.table default).Valid) :
    defaultAfter swapped user default = mergeEntries user default ↔
      SwapHarmless swapped user default := by
  induction user, userValid using Node.Valid.nesting_induction
    generalizing swapped default with
  | step user userValid ih =>
      have after := lookup_defaultAfter swapped userValid defaultValid
      constructor
      · intro same
        refine .intro ?_ ?_
        · intro key userTable defaultTable userFound defaultFound
          have here := after key
          rw [same, lookup_mergeEntries_of_some userFound, userFound,
            defaultFound, override_table] at here
          apply (ih key userTable userFound (!swapped)
            (defaultValid.of_lookup defaultFound)).mp
          exact (Node.table.inj (Option.some.inj here)).symm
        · rintro rfl key value found replaces
          have here := after key
          rw [same, lookup_mergeEntries_of_some found, found,
            defaultNodeAfter_of_replaces replaces] at here
          exact here.symm.trans
            (congrArg some (override_of_not_tables replaces))
      · rintro ⟨tables, replaced⟩
        apply (defaultAfter_ordered userValid defaultValid).ext
          (deepMerge ⟨user, userValid⟩ ⟨default, defaultValid⟩).valid.ordered
        intro key
        refine (after key).trans (Eq.symm ?_)
        cases found : user.lookup key with
        | none => exact lookup_mergeEntries_of_none found default
        | some value =>
            refine (lookup_mergeEntries_of_some found default).trans ?_
            by_cases replaces : Replaces value (default.lookup key)
            · rw [defaultNodeAfter_of_replaces replaces,
                override_of_not_tables replaces]
              split
              · rename_i swap
                exact (replaced swap key value found replaces).symm
              · rfl
            · simp only [Replaces, not_forall, not_not] at replaces
              obtain ⟨userTable, defaultTable, rfl, defaultFound⟩ := replaces
              have inner := (ih key userTable found (!swapped)
                (defaultValid.of_lookup defaultFound)).mpr
                  (tables key userTable defaultTable found defaultFound)
              rw [defaultFound, override_table, ← inner]
              rfl

theorem mergeConfig_snd (userConfig defaultConfig : Toml.Table α) :
    (mergeConfig userConfig defaultConfig).2.entries =
      defaultAfter false userConfig.entries defaultConfig.entries := rfl

theorem mergeConfig_of_swapHarmless {userConfig defaultConfig : Toml.Table α}
    (harmless : SwapHarmless false userConfig.entries defaultConfig.entries) :
    (mergeConfig userConfig defaultConfig).2 =
      deepMerge userConfig defaultConfig := by
  apply Table.ext
  rw [mergeConfig_snd]
  exact (defaultAfter_eq_mergeEntries_iff userConfig.valid false
    defaultConfig.valid).mpr harmless

theorem mergeConfig_eq_deepMerge_iff (userConfig defaultConfig : Toml.Table α) :
    (mergeConfig userConfig defaultConfig).2 =
        deepMerge userConfig defaultConfig ↔
      SwapHarmless false userConfig.entries defaultConfig.entries := by
  refine ⟨fun same => ?_, mergeConfig_of_swapHarmless⟩
  apply (defaultAfter_eq_mergeEntries_iff userConfig.valid false
    defaultConfig.valid).mp
  rw [← mergeConfig_snd, same]
  rfl

theorem mergeConfig_keeps_default_leaf :
    let userConfig : Toml.Table String :=
      (Table.empty.set "robot" "Aokee").setTable "io"
        (Table.empty.set "rs485" "/dev/ttyUSB0")
    let defaultConfig : Toml.Table String :=
      (Table.empty.set "robot" "Aokee").setTable "io"
        (Table.empty.set "rs485"
          "/dev/serial/by-id/usb-Corecloud_Corecloud_Device-if00")
    (mergeConfig userConfig defaultConfig).2.leafAt? ["io", "rs485"] =
        some "/dev/serial/by-id/usb-Corecloud_Corecloud_Device-if00" ∧
      (mergeConfig userConfig defaultConfig).2 ≠
        deepMerge userConfig defaultConfig := by
  intro userConfig defaultConfig
  have kept :
      (mergeConfig userConfig defaultConfig).2.leafAt? ["io", "rs485"] =
        some "/dev/serial/by-id/usb-Corecloud_Corecloud_Device-if00" := by
    decide
  refine ⟨kept, fun same => ?_⟩
  rw [same, leafAt?_deepMerge (by decide : userConfig.leafAt? ["io", "rs485"] =
    some "/dev/ttyUSB0")] at kept
  exact absurd kept (by decide)

end RoboBand.Util
