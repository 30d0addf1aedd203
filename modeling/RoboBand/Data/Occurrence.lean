import Mathlib.Data.List.Basic
import Mathlib.Data.List.Infix
import Mathlib.Data.Nat.Find

namespace RoboBand.Data

variable {α : Type*}

/-! The first place at which a pattern occurs inside a text. -/

def Occurs (pattern text : List α) (position : Nat) : Prop :=
  pattern <+: text.drop position

structure FirstOccurrence (pattern text : List α) (position : Nat) : Prop where
  occurs : Occurs pattern text position
  earliest : ∀ earlier < position, ¬ Occurs pattern text earlier

def find? [DecidableEq α] (pattern : List α) : List α → Option Nat
  | [] => if pattern = [] then some 0 else none
  | head :: rest =>
      if pattern <+: head :: rest then
        some 0
      else
        (find? pattern rest).map (· + 1)

theorem Occurs.position_add_le {pattern text : List α} {position : Nat}
    (occurs : Occurs pattern text position) (nonempty : pattern ≠ []) :
    position + pattern.length ≤ text.length := by
  have bound := occurs.length_le
  have positive := List.length_pos_iff.mpr nonempty
  rw [List.length_drop] at bound
  omega

theorem Occurs.append {pattern text : List α} {position : Nat}
    (occurs : Occurs pattern text position) (more : List α) :
    Occurs pattern (text ++ more) position := by
  unfold Occurs
  rw [List.drop_append]
  exact occurs.trans (List.prefix_append _ _)

theorem Occurs.of_append {pattern text more : List α} {position : Nat}
    (occurs : Occurs pattern (text ++ more) position)
    (inside : position + pattern.length ≤ text.length) :
    Occurs pattern text position := by
  unfold Occurs at occurs ⊢
  rw [List.drop_append_of_le_length (by omega)] at occurs
  exact List.prefix_of_prefix_length_le occurs (List.prefix_append _ _)
    (by rw [List.length_drop]; omega)

theorem occurs_drop {pattern text : List α} {offset position : Nat} :
    Occurs pattern (text.drop offset) position ↔
      Occurs pattern text (offset + position) := by
  unfold Occurs
  rw [List.drop_drop]

theorem occurs_of_isInfix {pattern text : List α} (inside : pattern <:+: text) :
    ∃ place, Occurs pattern text place := by
  obtain ⟨before, after, rfl⟩ := inside
  refine ⟨before.length, ?_⟩
  rw [Occurs, List.append_assoc, List.drop_left]
  exact List.prefix_append pattern after

theorem Occurs.isInfix {pattern text : List α} {place : ℕ}
    (occurs : Occurs pattern text place) : pattern <:+: text :=
  (List.IsPrefix.isInfix occurs).trans (List.drop_suffix place text).isInfix

theorem eq_drop_append {first second third fourth : List α}
    (same : first ++ second = third ++ fourth)
    (within : first.length ≤ third.length) :
    second = third.drop first.length ++ fourth := by
  have dropped := congrArg (List.drop first.length) same
  rwa [List.drop_left, List.drop_append_of_le_length within] at dropped

namespace FirstOccurrence

theorem unique {pattern text : List α} {first second : Nat}
    (left : FirstOccurrence pattern text first)
    (right : FirstOccurrence pattern text second) : first = second := by
  rcases lt_trichotomy first second with less | equal | greater
  · exact absurd left.occurs (right.earliest first less)
  · exact equal
  · exact absurd right.occurs (left.earliest second greater)

theorem position_le {pattern text : List α} {position : Nat}
    (first : FirstOccurrence pattern text position) :
    position ≤ text.length := by
  by_contra beyond
  -- only the empty pattern occurs past the end, and it occurs at 0 already
  have empty : pattern = [] := by
    have occurs := first.occurs
    rw [Occurs, List.drop_of_length_le (by omega)] at occurs
    exact List.prefix_nil.mp occurs
  exact first.earliest 0 (by omega) (empty ▸ List.nil_prefix)

theorem of_append {pattern text more : List α} {position : Nat}
    (first : FirstOccurrence pattern (text ++ more) position)
    (inside : position + pattern.length ≤ text.length) :
    FirstOccurrence pattern text position where
  occurs := first.occurs.of_append inside
  earliest := fun earlier less occurs =>
    first.earliest earlier less (occurs.append more)

theorem drop {pattern text : List α} {offset position : Nat}
    (first : FirstOccurrence pattern text (offset + position)) :
    FirstOccurrence pattern (text.drop offset) position where
  occurs := occurs_drop.mpr first.occurs
  earliest := fun earlier less occurs =>
    first.earliest (offset + earlier) (by omega) (occurs_drop.mp occurs)

theorem atStart {pattern text : List α} (isPrefix : pattern <+: text) :
    FirstOccurrence pattern text 0 where
  occurs := isPrefix
  earliest := fun _ less => absurd less (Nat.not_lt_zero _)

/-- A piece of what lies before the occurrence can be dropped. -/
theorem drop_before {before after : List α} {count : Nat}
    (first : FirstOccurrence pattern (before ++ after) before.length)
    (within : count ≤ before.length) :
    FirstOccurrence pattern (before.drop count ++ after)
      (before.drop count).length := by
  rw [List.length_drop, ← List.drop_append_of_le_length within]
  apply FirstOccurrence.drop
  rwa [Nat.add_sub_cancel' within]

end FirstOccurrence

theorem exists_firstOccurrence {pattern text : List α} {position : Nat}
    (occurs : Occurs pattern text position) :
    ∃ first ≤ position, FirstOccurrence pattern text first := by
  classical
  have found : ∃ place, Occurs pattern text place := ⟨position, occurs⟩
  exact ⟨Nat.find found, Nat.find_min' found occurs, Nat.find_spec found,
    fun _ less => Nat.find_min found less⟩

section Find

variable [DecidableEq α]

theorem find?_eq_some_iff {pattern text : List α} {position : Nat} :
    find? pattern text = some position ↔
      FirstOccurrence pattern text position := by
  induction text generalizing position with
  | nil =>
      constructor
      · intro found
        simp only [find?] at found
        split at found
        · rename_i empty
          cases found
          exact .atStart (by simp [empty])
        · cases found
      · intro first
        have empty : pattern = [] := by simpa [Occurs] using first.occurs
        have zero := first.unique (.atStart (by simp [empty]))
        simp [find?, empty, zero]
  | cons head rest ih =>
      by_cases here : pattern <+: head :: rest
      · simp only [find?, here, if_true, Option.some.injEq]
        exact ⟨fun equal => equal ▸ .atStart here,
          fun first => (FirstOccurrence.atStart here).unique first⟩
      · simp only [find?, here, if_false, Option.map_eq_some_iff]
        constructor
        · rintro ⟨inner, found, rfl⟩
          have first := ih.mp found
          refine ⟨first.occurs, fun earlier less => ?_⟩
          cases earlier with
          | zero => exact here
          | succ earlier => exact first.earliest earlier (by omega)
        · intro first
          cases position with
          | zero => exact absurd first.occurs here
          | succ inner =>
              rw [Nat.add_comm] at first
              exact ⟨inner, ih.mpr first.drop, rfl⟩

theorem find?_eq_none_iff {pattern text : List α} :
    find? pattern text = none ↔ ∀ position, ¬ Occurs pattern text position := by
  constructor
  · intro missing position occurs
    obtain ⟨first, _, isFirst⟩ := exists_firstOccurrence occurs
    rw [find?_eq_some_iff.mpr isFirst] at missing
    cases missing
  · intro absent
    cases found : find? pattern text with
    | none => rfl
    | some position =>
        exact absurd (find?_eq_some_iff.mp found).occurs (absent position)

/-- A text that stops before the first occurrence is complete contains no
occurrence at all. -/
theorem find?_eq_none_of_cut {pattern text more : List α} {position : Nat}
    (nonempty : pattern ≠ [])
    (first : FirstOccurrence pattern (text ++ more) position)
    (cut : text.length < position + pattern.length) :
    find? pattern text = none := by
  refine find?_eq_none_iff.mpr fun place occurs => ?_
  have bound := occurs.position_add_le nonempty
  exact first.earliest place (by omega) (occurs.append more)

end Find

end RoboBand.Data
