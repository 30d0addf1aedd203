import Mathlib.Data.List.Basic
import Mathlib.Order.Lattice

namespace RoboBand.Data

variable {Key Value State View : Type*}

/-! Maps kept as entry lists with strictly increasing keys. -/

section Entries

variable [LinearOrder Key]

def Ordered (entries : List (Key × Value)) : Prop :=
  (entries.map Prod.fst).Pairwise (· < ·)

def insertOrAssign (key : Key) (value : Value) :
    List (Key × Value) → List (Key × Value)
  | [] => [(key, value)]
  | entry :: rest =>
      if key < entry.1 then
        (key, value) :: entry :: rest
      else if key = entry.1 then
        (key, value) :: rest
      else
        entry :: insertOrAssign key value rest

theorem ordered_nil : Ordered ([] : List (Key × Value)) := List.Pairwise.nil

theorem ordered_cons {entry : Key × Value} {rest : List (Key × Value)} :
    Ordered (entry :: rest) ↔
      (∀ other ∈ rest, entry.1 < other.1) ∧ Ordered rest := by
  simp [Ordered]

theorem mem_of_mem_insertOrAssign {key : Key} {value : Value}
    {entries : List (Key × Value)} {entry : Key × Value}
    (member : entry ∈ insertOrAssign key value entries) :
    entry = (key, value) ∨ entry ∈ entries := by
  induction entries with
  | nil => simpa [insertOrAssign] using member
  | cons head rest ih =>
      simp only [insertOrAssign] at member
      split at member
      · simpa using member
      · split at member
        · rcases List.mem_cons.mp member with equal | later
          · exact Or.inl equal
          · exact Or.inr (List.mem_cons_of_mem head later)
        · rcases List.mem_cons.mp member with equal | later
          · exact Or.inr (by simp [equal])
          · exact (ih later).imp_right (List.mem_cons_of_mem head)

theorem Ordered.insertOrAssign {entries : List (Key × Value)}
    (ordered : Ordered entries) (key : Key) (value : Value) :
    Ordered (insertOrAssign key value entries) := by
  induction entries with
  | nil => simp [Data.insertOrAssign, Ordered]
  | cons head rest ih =>
      obtain ⟨least, restOrdered⟩ := ordered_cons.mp ordered
      simp only [Data.insertOrAssign]
      split
      · rename_i before
        refine ordered_cons.mpr ⟨?_, ordered⟩
        intro other member
        rcases List.mem_cons.mp member with rfl | later
        · exact before
        · exact before.trans (least other later)
      · rename_i notBefore
        split
        · rename_i equal
          exact ordered_cons.mpr ⟨by simpa [equal] using least, restOrdered⟩
        · rename_i different
          refine ordered_cons.mpr ⟨?_, ih restOrdered⟩
          intro other member
          rcases mem_of_mem_insertOrAssign member with rfl | later
          · exact lt_of_le_of_ne (not_lt.mp notBefore) (Ne.symm different)
          · exact least other later

theorem lookup_cons_of_ne {key : Key} {entry : Key × Value}
    (different : key ≠ entry.1) (rest : List (Key × Value)) :
    (entry :: rest).lookup key = rest.lookup key := by
  have unequal : (key == entry.1) = false := beq_eq_false_iff_ne.mpr different
  exact List.lookup_cons.trans (by rw [unequal])

@[simp] theorem lookup_insertOrAssign_self (key : Key) (value : Value)
    (entries : List (Key × Value)) :
    (insertOrAssign key value entries).lookup key = some value := by
  induction entries with
  | nil => exact List.lookup_cons_self
  | cons head rest ih =>
      simp only [insertOrAssign]
      split
      · exact List.lookup_cons_self
      · split
        · exact List.lookup_cons_self
        · rename_i different
          rw [lookup_cons_of_ne different, ih]

theorem lookup_insertOrAssign_of_ne {key other : Key} (value : Value)
    (different : other ≠ key) (entries : List (Key × Value)) :
    (insertOrAssign key value entries).lookup other = entries.lookup other := by
  induction entries with
  | nil => exact lookup_cons_of_ne different []
  | cons head rest ih =>
      simp only [insertOrAssign]
      split
      · exact lookup_cons_of_ne different _
      · split
        · rename_i equal
          exact (lookup_cons_of_ne different rest).trans
            (lookup_cons_of_ne (equal ▸ different) rest).symm
        · by_cases here : other = head.1
          · rw [here, List.lookup_cons_self, List.lookup_cons_self]
          · rw [lookup_cons_of_ne here, lookup_cons_of_ne here, ih]

theorem mem_of_lookup {key : Key} {value : Value}
    {entries : List (Key × Value)} (found : entries.lookup key = some value) :
    (key, value) ∈ entries := by
  obtain ⟨before, after, rfl, _⟩ := List.lookup_eq_some_iff.mp found
  simp

theorem Ordered.lookup_tail_of_le {head : Key × Value}
    {rest : List (Key × Value)} (ordered : Ordered (head :: rest))
    {key : Key} (before : key ≤ head.1) : rest.lookup key = none := by
  rw [List.lookup_eq_none_iff]
  intro other member
  have after := before.trans_lt ((ordered_cons.mp ordered).1 other member)
  exact bne_iff_ne.mpr after.ne

theorem Ordered.lookup_of_lt {head : Key × Value}
    {rest : List (Key × Value)} (ordered : Ordered (head :: rest))
    {key : Key} (before : key < head.1) :
    (head :: rest).lookup key = none := by
  rw [lookup_cons_of_ne before.ne, ordered.lookup_tail_of_le before.le]

private theorem Ordered.head_key_eq {first second : Key × Value}
    {firstRest secondRest : List (Key × Value)}
    (firstOrdered : Ordered (first :: firstRest))
    (secondOrdered : Ordered (second :: secondRest))
    (same : ∀ key, (first :: firstRest).lookup key =
      (second :: secondRest).lookup key) :
    first.1 = second.1 := by
  rcases lt_trichotomy first.1 second.1 with less | equal | greater
  · have missing := secondOrdered.lookup_of_lt less
    rw [← same, List.lookup_cons_self] at missing
    cases missing
  · exact equal
  · have missing := firstOrdered.lookup_of_lt greater
    rw [same, List.lookup_cons_self] at missing
    cases missing

theorem Ordered.ext {first second : List (Key × Value)}
    (firstOrdered : Ordered first) (secondOrdered : Ordered second)
    (same : ∀ key, first.lookup key = second.lookup key) :
    first = second := by
  induction first generalizing second with
  | nil =>
      cases second with
      | nil => rfl
      | cons head rest =>
          have present := same head.1
          rw [List.lookup_cons_self] at present
          cases present
  | cons firstHead firstRest ih =>
      cases second with
      | nil =>
          have present := same firstHead.1
          rw [List.lookup_cons_self] at present
          cases present
      | cons secondHead secondRest =>
          have keys := firstOrdered.head_key_eq secondOrdered same
          have values : firstHead.2 = secondHead.2 := by
            have here := same firstHead.1
            rw [List.lookup_cons_self, keys, List.lookup_cons_self] at here
            exact Option.some.inj here
          have rests : firstRest = secondRest := by
            refine ih (ordered_cons.mp firstOrdered).2
              (ordered_cons.mp secondOrdered).2 fun key => ?_
            by_cases equal : key = firstHead.1
            · rw [firstOrdered.lookup_tail_of_le equal.le,
                secondOrdered.lookup_tail_of_le (equal.trans keys).le]
            · have here := same key
              rwa [lookup_cons_of_ne equal,
                lookup_cons_of_ne (keys ▸ equal)] at here
          rw [Prod.ext keys values, rests]

/-- Folding over an ordered map when each entry only touches what is seen at
its own key: the final view at a key is the view after that one entry. -/
theorem Ordered.foldl_view {entries : List (Key × Value)}
    (ordered : Ordered entries) (step : State → Key × Value → State)
    (view : Key → State → View) (own : Key → Value → View → View)
    (touched : ∀ state entry,
      view entry.1 (step state entry) =
        own entry.1 entry.2 (view entry.1 state))
    (untouched : ∀ state entry key, key ≠ entry.1 →
      view key (step state entry) = view key state)
    (state : State) (key : Key) :
    view key (entries.foldl step state) =
      match entries.lookup key with
      | some value => own key value (view key state)
      | none => view key state := by
  induction entries generalizing state with
  | nil => rfl
  | cons head rest ih =>
      rw [List.foldl_cons, ih (ordered_cons.mp ordered).2]
      by_cases equal : key = head.1
      · subst equal
        rw [ordered.lookup_tail_of_le le_rfl, touched, List.lookup_cons_self]
      · rw [untouched state head key equal, lookup_cons_of_ne equal]

end Entries

structure OrderedMap (Key Value : Type*) [LinearOrder Key] where
  entries : List (Key × Value)
  ordered : Ordered entries

namespace OrderedMap

variable [LinearOrder Key]

def empty : OrderedMap Key Value := ⟨[], ordered_nil⟩

def insertOrAssign (map : OrderedMap Key Value) (key : Key) (value : Value) :
    OrderedMap Key Value :=
  ⟨Data.insertOrAssign key value map.entries,
    map.ordered.insertOrAssign key value⟩

end OrderedMap

end RoboBand.Data
