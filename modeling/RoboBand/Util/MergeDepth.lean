import RoboBand.Util.MergeConfig

namespace RoboBand.Util

open RoboBand.Data Toml

variable {α : Type*}

/-! What a single value of the configuration becomes depends on how deep it
lies. -/

/-- On the way to a value of the default, and there, the user has nothing or
what is of the same kind. -/
def Fits : List String → Entries α → Entries α → Prop
  | [], _, _ => True
  | [key], user, _ => ∀ inner, user.lookup key ≠ some (.table inner)
  | key :: next :: path, user, default =>
      ∀ value, user.lookup key = some value →
        ∃ inner, value = .table inner ∧ ∀ below,
          default.lookup key = some (.table below) →
            Fits (next :: path) inner below

/-- Whether the call on the table that a path leads to is swapped. -/
def swappedAt : Bool → List String → Bool
  | swapped, [] => !swapped
  | swapped, _ :: path => swappedAt (!swapped) path

theorem swappedAt_eq (swapped : Bool) (path : List String) :
    swappedAt swapped path = xor swapped (decide (path.length % 2 = 0)) := by
  induction path generalizing swapped with
  | nil => cases swapped <;> rfl
  | cons key path ih =>
      rw [swappedAt, ih, List.length_cons]
      rcases Nat.mod_two_eq_zero_or_one path.length with even | odd
      · have next : (path.length + 1) % 2 = 1 := by omega
        rw [even, next]
        cases swapped <;> rfl
      · have next : (path.length + 1) % 2 = 0 := by omega
        rw [odd, next]
        cases swapped <;> rfl

theorem leafAt?_defaultAfter {path : List String} {value : α}
    (swapped : Bool) {user default : Entries α}
    (userValid : (RoboBand.Data.Node.table user).Valid)
    (defaultValid : (RoboBand.Data.Node.table default).Valid)
    (fits : Fits path user default)
    (found : (RoboBand.Data.Node.table default).leafAt? path = some value) :
    (RoboBand.Data.Node.table (defaultAfter swapped user default)).leafAt?
        path =
      some (if swappedAt swapped path then value
        else ((RoboBand.Data.Node.table user).leafAt? path).getD value) := by
  induction path generalizing swapped user default with
  | nil => cases found
  | cons key path ih =>
      obtain ⟨below, defaultFound, reached⟩ := Option.bind_eq_some_iff.mp found
      have after := lookup_defaultAfter swapped userValid defaultValid key
      rw [defaultFound] at after
      rw [Node.leafAt?, after, Node.leafAt?]
      cases path with
      | nil =>
          cases below with
          | table inner => cases reached
          | leaf other =>
              obtain rfl := Option.some.inj reached
              cases userFound : user.lookup key with
              | none => cases swapped <;> rfl
              | some node =>
                  cases node with
                  | table inner => exact absurd userFound (fits inner)
                  | leaf given => cases swapped <;> rfl
      | cons next path =>
          cases below with
          | leaf other => cases reached
          | table inner =>
              cases userFound : user.lookup key with
              | none =>
                  refine reached.trans ?_
                  cases swappedAt swapped (key :: next :: path) <;> rfl
              | some node =>
                  obtain ⟨deeper, rfl, fits⟩ := fits node userFound
                  exact ih (!swapped) (userValid.of_lookup userFound)
                    (defaultValid.of_lookup defaultFound)
                    (fits inner defaultFound) reached

theorem leafAt?_merged {path : List String} {value : α}
    {user default : Entries α}
    (userValid : (RoboBand.Data.Node.table user).Valid)
    (defaultValid : (RoboBand.Data.Node.table default).Valid)
    (fits : Fits path user default)
    (found : (RoboBand.Data.Node.table default).leafAt? path = some value) :
    (RoboBand.Data.Node.table (mergeRaw (user, default)).2).leafAt? path =
      some (if path.length % 2 = 0 then value
        else ((RoboBand.Data.Node.table user).leafAt? path).getD value) := by
  have after := leafAt?_defaultAfter false userValid defaultValid fits found
  rw [swappedAt_eq, Bool.false_xor] at after
  simp only [decide_eq_true_iff] at after
  exact after

/-- The merged configuration has the user's value at every odd depth, and the
default's at every even one, whatever the user has there. -/
theorem leafAt?_mergeConfig (user default : Toml.Table α)
    {path : List String} {value : α}
    (found : default.leafAt? path = some value)
    (fits : Fits path user.entries default.entries) :
    (mergeConfig user default).2.leafAt? path =
      some (if path.length % 2 = 0 then value
        else (user.leafAt? path).getD value) :=
  leafAt?_merged user.valid default.valid fits found

/-- A setting at an odd depth stands, one at an even depth does not. -/
theorem leafAt?_mergeConfig_of_two_depths :
    let config (gravity port : ℤ) : Toml.Table ℤ :=
      (Table.empty.setTable "io" (Table.empty.set "rs485" port)).setTable
        "ctrl" (Table.empty.setTable "chassis"
          (Table.empty.set "F_gravity" gravity))
    let user := config 40 1
    let default := config (-10) 0
    (mergeConfig user default).2.leafAt? ["ctrl", "chassis", "F_gravity"] =
        some 40 ∧
      (mergeConfig user default).2.leafAt? ["io", "rs485"] = some 0 := by
  intro config user default
  have gravity : Fits ["ctrl", "chassis", "F_gravity"] user.entries
      default.entries := by
    rintro ctrl ⟨⟩
    refine ⟨_, rfl, fun _ _ => ?_⟩
    rintro chassis ⟨⟩
    refine ⟨_, rfl, fun _ _ => ?_⟩
    rintro inner ⟨⟩
  have port : Fits ["io", "rs485"] user.entries default.entries := by
    rintro io ⟨⟩
    refine ⟨_, rfl, fun _ _ => ?_⟩
    rintro inner ⟨⟩
  exact ⟨leafAt?_mergeConfig user default rfl gravity,
    leafAt?_mergeConfig user default rfl port⟩

end RoboBand.Util
