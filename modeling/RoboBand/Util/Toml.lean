import RoboBand.Data.NestedMap
import Mathlib.Data.String.Basic

namespace RoboBand.Util

open RoboBand.Data

variable {α : Type*}

namespace Toml

abbrev Node (α : Type*) := RoboBand.Data.Node String α
abbrev Entries (α : Type*) := RoboBand.Data.Entries String α
abbrev Table (α : Type*) := RoboBand.Data.Table String α

end Toml

open Toml

/-! `mergeConfig` works on both of its tables in place, so it is a function of
the pair `(userConfig, defaultConfig)`. -/

/-- One turn of the loop over `userConfig`; `recurse` stands for the call of
`mergeConfig` in it, which is given the default's table first. -/
def mergeEntry (recurse : Entries α × Entries α → Entries α × Entries α)
    (tables : Entries α × Entries α) (entry : String × Toml.Node α) :
    Entries α × Entries α :=
  match entry.2 with
  | .table userTable =>
      match tables.2.lookup entry.1 with
      | some (.table defaultTable) =>
          let merged := recurse (defaultTable, userTable)
          (insertOrAssign entry.1 (.table merged.2) tables.1,
            insertOrAssign entry.1 (.table merged.1) tables.2)
      | _ => (tables.1, insertOrAssign entry.1 entry.2 tables.2)
  | .leaf _ => (tables.1, insertOrAssign entry.1 entry.2 tables.2)

def mergeWithin : ℕ → Entries α × Entries α → Entries α × Entries α
  | 0, tables => tables
  | fuel + 1, tables => tables.1.foldl (mergeEntry (mergeWithin fuel)) tables

/-- Each call goes down one level in both tables, so their depth is enough. -/
def mergeRaw (tables : Entries α × Entries α) : Entries α × Entries α :=
  mergeWithin (max (entriesDepth tables.1) (entriesDepth tables.2) + 1) tables

section Keywise

/-! What one turn makes of the two nodes under its key; nothing else changes. -/

def viewAt (key : String) (tables : Entries α × Entries α) :
    Option (Toml.Node α) × Option (Toml.Node α) :=
  (tables.1.lookup key, tables.2.lookup key)

def mergeNode (recurse : Entries α × Entries α → Entries α × Entries α)
    (value : Toml.Node α) (seen : Option (Toml.Node α) × Option (Toml.Node α)) :
    Option (Toml.Node α) × Option (Toml.Node α) :=
  match value with
  | .table userTable =>
      match seen.2 with
      | some (.table defaultTable) =>
          let merged := recurse (defaultTable, userTable)
          (some (.table merged.2), some (.table merged.1))
      | _ => (seen.1, some value)
  | .leaf _ => (seen.1, some value)

variable (recurse : Entries α × Entries α → Entries α × Entries α)

theorem viewAt_mergeEntry (tables : Entries α × Entries α)
    (entry : String × Toml.Node α) :
    viewAt entry.1 (mergeEntry recurse tables entry) =
      mergeNode recurse entry.2 (viewAt entry.1 tables) := by
  obtain ⟨key, value⟩ := entry
  cases value with
  | leaf value => simp [mergeEntry, mergeNode, viewAt]
  | table userTable =>
      simp only [mergeEntry, mergeNode, viewAt]
      match tables.2.lookup key with
      | none | some (.leaf _) | some (.table _) => simp

theorem viewAt_mergeEntry_of_ne (tables : Entries α × Entries α)
    (entry : String × Toml.Node α) {key : String} (different : key ≠ entry.1) :
    viewAt key (mergeEntry recurse tables entry) = viewAt key tables := by
  obtain ⟨other, value⟩ := entry
  have other_ne := fun (node : Toml.Node α) =>
    lookup_insertOrAssign_of_ne node different
  cases value with
  | leaf value => simp only [mergeEntry, viewAt, other_ne]
  | table userTable =>
      simp only [mergeEntry, viewAt]
      match tables.2.lookup other with
      | none | some (.leaf _) | some (.table _) => simp only [other_ne]

theorem viewAt_foldl {user : Entries α} (ordered : Ordered user)
    (default : Entries α) (key : String) :
    viewAt key (user.foldl (mergeEntry recurse) (user, default)) =
      match user.lookup key with
      | some value => mergeNode recurse value (some value, default.lookup key)
      | none => (none, default.lookup key) := by
  rw [ordered.foldl_view (mergeEntry recurse) viewAt
    (fun _ => mergeNode recurse) (viewAt_mergeEntry recurse)
    (fun tables entry _ => viewAt_mergeEntry_of_ne recurse tables entry)]
  cases found : user.lookup key with
  | none => simp only [viewAt, found]
  | some value => simp only [viewAt, found]

end Keywise

section Validity

structure BothValid (tables : Entries α × Entries α) : Prop where
  user : (RoboBand.Data.Node.table tables.1).Valid
  default : (RoboBand.Data.Node.table tables.2).Valid

variable {recurse : Entries α × Entries α → Entries α × Entries α}

theorem BothValid.ext {first second : Entries α × Entries α}
    (firstValid : BothValid first) (secondValid : BothValid second)
    (same : ∀ key, viewAt key first = viewAt key second) : first = second := by
  apply Prod.ext
  · exact firstValid.user.ordered.ext secondValid.user.ordered
      fun key => congrArg Prod.fst (same key)
  · exact firstValid.default.ordered.ext secondValid.default.ordered
      fun key => congrArg Prod.snd (same key)

theorem BothValid.mergeEntry
    (recurseValid : ∀ tables, BothValid tables → BothValid (recurse tables))
    {tables : Entries α × Entries α} (valid : BothValid tables)
    {entry : String × Toml.Node α} (entryValid : entry.2.Valid) :
    BothValid (mergeEntry recurse tables entry) := by
  obtain ⟨key, value⟩ := entry
  have assigned : BothValid
      (tables.1, insertOrAssign key value tables.2) :=
    ⟨valid.user, valid.default.insertOrAssign key entryValid⟩
  cases value with
  | leaf value => exact assigned
  | table userTable =>
      simp only [Util.mergeEntry]
      split
      · rename_i defaultTable found
        have merged := recurseValid (defaultTable, userTable)
          ⟨valid.default.of_lookup found, entryValid⟩
        exact ⟨valid.user.insertOrAssign key merged.default,
          valid.default.insertOrAssign key merged.user⟩
      · exact assigned

theorem BothValid.foldl
    (recurseValid : ∀ tables, BothValid tables → BothValid (recurse tables))
    {tables : Entries α × Entries α} (valid : BothValid tables) :
    BothValid (tables.1.foldl (Util.mergeEntry recurse) tables) :=
  List.foldlRecOn tables.1 _ valid fun _ reached _ member =>
    reached.mergeEntry recurseValid (valid.user.of_mem member)

theorem BothValid.mergeWithin {tables : Entries α × Entries α}
    (valid : BothValid tables) (fuel : ℕ) :
    BothValid (mergeWithin fuel tables) := by
  induction fuel generalizing tables with
  | zero => exact valid
  | succ fuel ih => exact valid.foldl fun _ inner => ih inner

theorem BothValid.mergeRaw {tables : Entries α × Entries α}
    (valid : BothValid tables) : BothValid (mergeRaw tables) :=
  valid.mergeWithin _

end Validity

section Fuel

structure DepthBelow (fuel : ℕ) (tables : Entries α × Entries α) : Prop where
  user : entriesDepth tables.1 < fuel
  default : entriesDepth tables.2 < fuel

private theorem mergeNode_congr {fuel : ℕ}
    {first second : Entries α × Entries α → Entries α × Entries α}
    (same : ∀ tables, DepthBelow fuel tables → BothValid tables →
      first tables = second tables)
    {tables : Entries α × Entries α} (valid : BothValid tables)
    (below : DepthBelow (fuel + 1) tables) {key : String} {value : Toml.Node α}
    (found : tables.1.lookup key = some value) :
    mergeNode first value (some value, tables.2.lookup key) =
      mergeNode second value (some value, tables.2.lookup key) := by
  cases value with
  | leaf value => rfl
  | table userTable =>
      simp only [mergeNode]
      split
      · rename_i defaultTable defaultFound
        rw [same (defaultTable, userTable)
          { user := (entriesDepth_lt_of_lookup defaultFound).trans_le
              (Nat.le_of_lt_succ below.default)
            default := (entriesDepth_lt_of_lookup found).trans_le
              (Nat.le_of_lt_succ below.user) }
          ⟨valid.default.of_lookup defaultFound, valid.user.of_lookup found⟩]
      · rfl

private theorem foldl_congr {fuel : ℕ}
    {first second : Entries α × Entries α → Entries α × Entries α}
    (firstValid : ∀ tables, BothValid tables → BothValid (first tables))
    (secondValid : ∀ tables, BothValid tables → BothValid (second tables))
    (same : ∀ tables, DepthBelow fuel tables → BothValid tables →
      first tables = second tables)
    {tables : Entries α × Entries α} (valid : BothValid tables)
    (below : DepthBelow (fuel + 1) tables) :
    tables.1.foldl (mergeEntry first) tables =
      tables.1.foldl (mergeEntry second) tables := by
  refine (valid.foldl firstValid).ext (valid.foldl secondValid) fun key => ?_
  rw [viewAt_foldl first valid.user.ordered,
    viewAt_foldl second valid.user.ordered]
  cases found : tables.1.lookup key with
  | none => rfl
  | some value => exact mergeNode_congr same valid below found

theorem mergeWithin_add {fuel : ℕ} {tables : Entries α × Entries α}
    (valid : BothValid tables) (below : DepthBelow fuel tables) (more : ℕ) :
    mergeWithin (fuel + more) tables = mergeWithin fuel tables := by
  induction fuel generalizing tables with
  | zero => exact absurd below.user (Nat.not_lt_zero _)
  | succ fuel ih =>
      rw [Nat.succ_add]
      exact foldl_congr (fun _ inner => inner.mergeWithin _)
        (fun _ inner => inner.mergeWithin _)
        (fun _ innerBelow innerValid => ih innerValid innerBelow) valid below

/-- The equation of the source, with no fuel in it. -/
theorem mergeRaw_eq {tables : Entries α × Entries α}
    (valid : BothValid tables) :
    mergeRaw tables = tables.1.foldl (mergeEntry mergeRaw) tables := by
  refine foldl_congr (fun _ inner => inner.mergeWithin _)
    (fun _ inner => inner.mergeRaw) ?_ valid
    ⟨Nat.lt_succ_of_le (le_max_left _ _), Nat.lt_succ_of_le (le_max_right _ _)⟩
  intro inner innerBelow innerValid
  have enough := max_lt innerBelow.user innerBelow.default
  rw [mergeRaw, ← Nat.add_sub_of_le (Nat.succ_le_of_lt enough)]
  exact mergeWithin_add innerValid
    ⟨Nat.lt_succ_of_le (le_max_left _ _), Nat.lt_succ_of_le (le_max_right _ _)⟩
    _

end Fuel

def mergeConfig (userConfig defaultConfig : Toml.Table α) :
    Toml.Table α × Toml.Table α :=
  let merged := mergeRaw (userConfig.entries, defaultConfig.entries)
  have valid : BothValid merged :=
    BothValid.mergeRaw ⟨userConfig.valid, defaultConfig.valid⟩
  (⟨merged.1, valid.user⟩, ⟨merged.2, valid.default⟩)

end RoboBand.Util
