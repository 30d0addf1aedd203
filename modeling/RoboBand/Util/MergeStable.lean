import RoboBand.Util.Toml

namespace RoboBand.Util

open RoboBand.Data Toml

variable {α : Type*}

/-! A second merge of what a first one left finds nothing to do. -/

/-- What `mergeConfig` makes of the two nodes under one key. -/
def mergePair (recurse : Entries α × Entries α → Entries α × Entries α) :
    Option (Toml.Node α) × Option (Toml.Node α) →
      Option (Toml.Node α) × Option (Toml.Node α)
  | (some value, below) => mergeNode recurse value (some value, below)
  | (none, below) => (none, below)

theorem viewAt_mergeRaw {tables : Entries α × Entries α}
    (valid : BothValid tables) (key : String) :
    viewAt key (mergeRaw tables) = mergePair mergeRaw (viewAt key tables) := by
  rw [mergeRaw_eq valid]
  refine (viewAt_foldl mergeRaw valid.user.ordered tables.2 key).trans ?_
  unfold viewAt
  cases tables.1.lookup key with
  | none => rfl
  | some value => rfl

theorem mergeRaw_self {entries : Entries α}
    (valid : (RoboBand.Data.Node.table entries).Valid) :
    mergeRaw (entries, entries) = (entries, entries) := by
  induction entries, valid using Node.Valid.nesting_induction with
  | step entries valid ih =>
      have both : BothValid (entries, entries) := ⟨valid, valid⟩
      apply both.mergeRaw.ext both
      intro key
      rw [viewAt_mergeRaw both]
      unfold viewAt
      cases found : entries.lookup key with
      | none => rfl
      | some value =>
          cases value with
          | leaf value => rfl
          | table inner =>
              simp only [mergePair, mergeNode]
              rw [ih key inner found]

/-- Under a key the second merge has only two tables to look into. -/
theorem mergePair_mergePair
    {pair : Option (Toml.Node α) × Option (Toml.Node α)}
    (valid : ∀ userTable, pair.1 = some (.table userTable) →
      (RoboBand.Data.Node.table userTable).Valid)
    (inner : ∀ userTable defaultTable,
      pair = (some (.table userTable), some (.table defaultTable)) →
        mergeRaw (mergeRaw (defaultTable, userTable)) =
          mergeRaw (defaultTable, userTable)) :
    mergePair mergeRaw (mergePair mergeRaw pair) = mergePair mergeRaw pair := by
  obtain ⟨_ | value, below⟩ := pair
  · rfl
  cases value with
  | leaf value => rfl
  | table userTable =>
      obtain _ | other | defaultTable := below
      · simp only [mergePair, mergeNode]
        rw [mergeRaw_self (valid userTable rfl)]
      · simp only [mergePair, mergeNode]
        rw [mergeRaw_self (valid userTable rfl)]
      · simp only [mergePair, mergeNode, Prod.mk.eta]
        rw [inner userTable defaultTable rfl]

/-- The inner call swaps the tables, so the induction is on both depths. -/
theorem mergeRaw_mergeRaw {tables : Entries α × Entries α}
    (valid : BothValid tables) :
    mergeRaw (mergeRaw tables) = mergeRaw tables := by
  induction size : entriesDepth tables.1 + entriesDepth tables.2
    using Nat.strong_induction_on generalizing tables with
  | _ count ih =>
      have merged := valid.mergeRaw
      apply merged.mergeRaw.ext merged
      intro key
      rw [viewAt_mergeRaw merged, viewAt_mergeRaw valid]
      refine mergePair_mergePair (fun userTable found => ?_)
        fun userTable defaultTable found => ?_
      · exact valid.user.of_lookup found
      · obtain ⟨userFound, defaultFound⟩ := Prod.mk.inj found
        have shallower := Nat.add_lt_add
          (entriesDepth_lt_of_lookup defaultFound)
          (entriesDepth_lt_of_lookup userFound)
        rw [Nat.add_comm (entriesDepth tables.2), size] at shallower
        exact ih _ shallower ⟨valid.default.of_lookup defaultFound,
          valid.user.of_lookup userFound⟩ rfl

theorem mergeConfig_stable (userConfig defaultConfig : Toml.Table α) :
    mergeConfig (mergeConfig userConfig defaultConfig).1
        (mergeConfig userConfig defaultConfig).2 =
      mergeConfig userConfig defaultConfig := by
  have same : mergeRaw (mergeRaw (userConfig.entries, defaultConfig.entries)) =
      mergeRaw (userConfig.entries, defaultConfig.entries) :=
    mergeRaw_mergeRaw ⟨userConfig.valid, defaultConfig.valid⟩
  apply Prod.ext
  · exact Table.ext (congrArg Prod.fst same)
  · exact Table.ext (congrArg Prod.snd same)

end RoboBand.Util
