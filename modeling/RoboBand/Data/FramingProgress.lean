import RoboBand.Data.Framing
import Mathlib.Data.Stream.Init

namespace RoboBand.Data

variable {α : Type*}

/-! When a framer that is fed without end hands out its first frame. -/

/-- The pieces in which a framer that has not met the head searches the stream:
the chunks put together until there is a head's length of them, and so on from
there. -/
def pieces (headLength : ℕ) : List α → List (List α) → List (List α)
  | _, [] => []
  | held, chunk :: rest =>
      if (held ++ chunk).length < headLength then
        pieces headLength (held ++ chunk) rest
      else
        (held ++ chunk) :: pieces headLength [] rest

variable [DecidableEq α] {head : List α} {capacity : ℕ} {window : List α}

/-- The stream goes on for ever, in chunks that the window has room for. -/
def Feeds (head : List α) (capacity : ℕ) (window : List α)
    (stream : Stream' (List α)) : Prop :=
  ∀ count, (framer head capacity).Admits (ChunkFits capacity) window
    (stream.take count)

def HandsOut (head : List α) (capacity : ℕ) (window : List α)
    (stream : Stream' (List α)) : Prop :=
  ∃ count, (framer head capacity).outputs window (stream.take count) ≠ []

section Stream

variable {stream : Stream' (List α)}

theorem Feeds.chunkFits (feeds : Feeds head capacity window stream) :
    ChunkFits capacity window stream.head :=
  (feeds 1).1

theorem Feeds.tail (feeds : Feeds head capacity window stream) :
    Feeds head capacity
      ((framer head capacity).step window stream.head).1 stream.tail :=
  fun count => (feeds (count + 1)).2

theorem handsOut_of_now
    (now : ((framer head capacity).step window stream.head).2 ≠ []) :
    HandsOut head capacity window stream := by
  refine ⟨1, fun none => now ?_⟩
  exact (List.append_eq_nil_iff.mp none).1

theorem handsOut_of_later
    (later : HandsOut head capacity
      ((framer head capacity).step window stream.head).1 stream.tail) :
    HandsOut head capacity window stream := by
  obtain ⟨count, answers⟩ := later
  refine ⟨count + 1, fun none => answers ?_⟩
  exact (List.append_eq_nil_iff.mp none).2

/-- A window that nothing more is dropped from fills up. -/
theorem handsOut_of_kept (feeds : Feeds head capacity window stream)
    (kept : ∀ more, (window ++ more).length ≤ capacity →
      resync head (window ++ more) = window ++ more) :
    HandsOut head capacity window stream := by
  induction room : capacity - window.length using Nat.strong_induction_on
    generalizing window stream with
  | _ free ih =>
      have fits := feeds.chunkFits
      have fitting : (window ++ stream.head).length ≤ capacity := by
        rw [List.length_append]
        exact fits.room
      have stepped : (framer head capacity).step window stream.head =
          settle capacity (window ++ stream.head) := by
        rw [framer_step, kept _ fitting]
      by_cases partly : (window ++ stream.head).length < capacity
      · have settled : settle capacity (window ++ stream.head) =
            (window ++ stream.head, []) := if_pos partly
        have later := feeds.tail
        apply handsOut_of_later
        rw [stepped, settled] at later ⊢
        have grown := List.length_pos_iff.mpr fits.nonempty
        have shorter :
            capacity - (window ++ stream.head).length < free := by
          rw [List.length_append] at partly ⊢
          omega
        refine ih _ shorter later ?_ rfl
        intro more fitsMore
        rw [List.append_assoc] at fitsMore ⊢
        exact kept _ fitsMore
      · apply handsOut_of_now
        rw [stepped, settle, if_neg partly]
        exact List.cons_ne_nil _ _

theorem handsOut_of_headed (feeds : Feeds head capacity window stream)
    (headed : head <+: window) : HandsOut head capacity window stream :=
  handsOut_of_kept feeds fun more _ =>
    resync_of_prefix (headed.trans (List.prefix_append window more))
      (List.prefix_refl _)

theorem handsOut_of_found (feeds : Feeds head capacity window stream)
    {place : ℕ} (long : head.length ≤ (window ++ stream.head).length)
    (first : FirstOccurrence head (window ++ stream.head) place) :
    HandsOut head capacity window stream := by
  have stepped : (framer head capacity).step window stream.head =
      settle capacity ((window ++ stream.head).drop place) := by
    rw [framer_step, resync_of_first long first]
  by_cases partly : ((window ++ stream.head).drop place).length < capacity
  · have settled : settle capacity ((window ++ stream.head).drop place) =
        ((window ++ stream.head).drop place, []) := if_pos partly
    have later := feeds.tail
    apply handsOut_of_later
    rw [stepped, settled] at later ⊢
    exact handsOut_of_headed later first.occurs
  · apply handsOut_of_now
    rw [stepped, settle, if_neg partly]
    exact List.cons_ne_nil _ _

theorem handsOut_of_met (headFits : head.length ≤ capacity)
    (short : window.length < head.length)
    (feeds : Feeds head capacity window stream) {count : ℕ} {piece : List α}
    (member : piece ∈ pieces head.length window (stream.take count))
    (met : head <:+: piece) : HandsOut head capacity window stream := by
  induction count generalizing window stream with
  | zero => exact nomatch member
  | succ count ih =>
      rw [Stream'.take_succ, pieces] at member
      split at member
      · rename_i few
        apply handsOut_of_later
        have later := feeds.tail
        rw [framer_step_of_short headFits few] at later ⊢
        exact ih few later member
      · rename_i many
        have long := Nat.not_lt.mp many
        cases found : find? head (window ++ stream.head) with
        | some place =>
            exact handsOut_of_found feeds long (find?_eq_some_iff.mp found)
        | none =>
            obtain rfl | next := List.mem_cons.mp member
            · obtain ⟨place, occurs⟩ := occurs_of_isInfix met
              exact absurd occurs (find?_eq_none_iff.mp found place)
            · apply handsOut_of_later
              have later := feeds.tail
              have positive : 0 < capacity := by omega
              rw [framer_step_of_absent positive long found] at later ⊢
              exact ih ((Nat.zero_le _).trans_lt short) later next

theorem outputs_of_unmet (headFits : head.length ≤ capacity)
    (short : window.length < head.length) {chunks : List (List α)}
    (unmet : ∀ piece ∈ pieces head.length window chunks, ¬ head <:+: piece) :
    (framer head capacity).outputs window chunks = [] := by
  induction chunks generalizing window with
  | nil => rfl
  | cons chunk rest ih =>
      rw [Machine.outputs_cons]
      simp only [pieces] at unmet
      split at unmet
      · rename_i few
        rw [framer_step_of_short headFits few]
        exact ih few unmet
      · rename_i many
        obtain ⟨here, later⟩ := List.forall_mem_cons.mp unmet
        have absent : find? head (window ++ chunk) = none :=
          find?_eq_none_iff.mpr fun _ occurs => here occurs.isInfix
        have positive : 0 < capacity := by omega
        rw [framer_step_of_absent positive (Nat.not_lt.mp many) absent]
        exact ih ((Nat.zero_le _).trans_lt short) later

theorem handsOut_iff (feeds : Feeds head capacity [] stream) :
    HandsOut head capacity [] stream ↔
      capacity < head.length ∨ ∃ count,
        ∃ piece ∈ pieces head.length [] (stream.take count),
          head <:+: piece := by
  by_cases empty : head = []
  · subst empty
    refine iff_of_true (handsOut_of_headed feeds List.nil_prefix) (.inr ?_)
    exact ⟨1, stream.head, List.mem_cons_self, List.nil_infix⟩
  have short : ([] : List α).length < head.length :=
    List.length_pos_iff.mpr empty
  constructor
  · rintro ⟨count, answers⟩
    by_contra fails
    obtain ⟨fits, unmet⟩ := not_or.mp fails
    refine answers (outputs_of_unmet (Nat.not_lt.mp fits) short ?_)
    exact fun piece member met => unmet ⟨count, piece, member, met⟩
  · rintro (long | ⟨count, piece, member, met⟩)
    · refine handsOut_of_kept feeds fun more fits => resync_of_short ?_
      exact fits.trans_lt long
    · by_cases fits : head.length ≤ capacity
      · exact handsOut_of_met fits short feeds member met
      · refine handsOut_of_kept feeds fun more room => resync_of_short ?_
        exact room.trans_lt (Nat.not_le.mp fits)

end Stream

end RoboBand.Data
