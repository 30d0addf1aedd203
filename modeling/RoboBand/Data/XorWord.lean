import Mathlib

namespace RoboBand.Data

/-! Words of bits as a group under exclusive or.  The bits and the parity are
additive maps to the integers modulo 2. -/

@[ext] structure XorWord (width : ℕ) where
  word : BitVec width

namespace XorWord

variable {width : ℕ}

instance : Add (XorWord width) :=
  ⟨fun left right => ⟨left.word ^^^ right.word⟩⟩

instance : Zero (XorWord width) := ⟨⟨0⟩⟩

instance : Neg (XorWord width) := ⟨fun value => value⟩

@[simp] theorem word_add (left right : XorWord width) :
    (left + right).word = left.word ^^^ right.word := rfl

@[simp] theorem word_zero : (0 : XorWord width).word = 0 := rfl

@[simp] theorem add_self (value : XorWord width) : value + value = 0 :=
  XorWord.ext BitVec.xor_self

instance : AddCommGroup (XorWord width) where
  add_assoc := fun _ _ _ => XorWord.ext (BitVec.xor_assoc _ _ _)
  zero_add := fun _ => XorWord.ext BitVec.zero_xor
  add_zero := fun _ => XorWord.ext BitVec.xor_zero
  add_comm := fun _ _ => XorWord.ext (BitVec.xor_comm _ _)
  neg_add_cancel := add_self
  nsmul := nsmulRec
  zsmul := zsmulRec

theorem xorBits_add (left right : Bool) :
    (if left ^^ right then 1 else 0 : ZMod 2) =
      (if left then 1 else 0) + if right then 1 else 0 := by
  cases left <;> cases right <;> rfl

def bit (index : ℕ) : XorWord width →+ ZMod 2 where
  toFun value := if value.word.getLsbD index then 1 else 0
  map_zero' := by simp
  map_add' := fun left right => by
    rw [word_add, BitVec.getLsbD_xor]
    exact xorBits_add _ _

theorem bit_apply (index : ℕ) (value : XorWord width) :
    bit index value = if value.word.getLsbD index then 1 else 0 := rfl

theorem bit_of_le {index : ℕ} (outside : width ≤ index)
    (value : XorWord width) : bit index value = 0 := by
  simp [bit_apply, BitVec.getLsbD_of_ge value.word index outside]

theorem ext_bit {left right : XorWord width}
    (same : ∀ index < width, bit index left = bit index right) :
    left = right := by
  refine XorWord.ext (BitVec.eq_of_getLsbD_eq fun index inside => ?_)
  have bits := same index inside
  rw [bit_apply, bit_apply] at bits
  cases first : left.word.getLsbD index <;>
    cases second : right.word.getLsbD index <;> simp_all

def single (index : ℕ) : XorWord width := ⟨BitVec.twoPow width index⟩

theorem bit_single {index : ℕ} (inside : index < width) (position : ℕ) :
    bit index (single position : XorWord width) =
      if position = index then 1 else 0 := by
  by_cases same : position = index
  · subst same
    simp [bit_apply, single, inside]
  · simp [bit_apply, single, BitVec.getLsbD_twoPow, same]

theorem bit_sum_single {index : ℕ} (inside : index < width)
    (positions : Finset ℕ) :
    bit index (∑ position ∈ positions, (single position : XorWord width)) =
      if index ∈ positions then 1 else 0 := by
  rw [map_sum, Finset.sum_congr rfl fun position _ =>
    bit_single inside position]
  exact Finset.sum_ite_eq' positions index fun _ => 1

theorem sum_single_ne_zero {positions : Finset ℕ}
    (inside : positions ⊆ Finset.range width) (some : positions.Nonempty) :
    ∑ position ∈ positions, (single position : XorWord width) ≠ 0 := by
  obtain ⟨index, member⟩ := some
  intro zero
  have set : bit index (∑ position ∈ positions,
      (single position : XorWord width)) = 1 := by
    rw [bit_sum_single (Finset.mem_range.mp (inside member)), if_pos member]
  rw [zero, map_zero] at set
  exact zero_ne_one set

theorem sum_bits (value : XorWord width) :
    ∑ index ∈ Finset.range width with value.word.getLsbD index,
      (single index : XorWord width) = value := by
  refine ext_bit fun index inside => ?_
  rw [bit_sum_single inside, bit_apply]
  simp [inside]

def parity : XorWord width →+ ZMod 2 :=
  ∑ index ∈ Finset.range width, bit index

theorem parity_apply (value : XorWord width) :
    parity value = ∑ index ∈ Finset.range width, bit index value := by
  rw [parity, AddMonoidHom.finsetSum_apply]

end XorWord

end RoboBand.Data
