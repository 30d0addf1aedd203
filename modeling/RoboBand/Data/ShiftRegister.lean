import RoboBand.Data.XorWord

namespace RoboBand.Data

/-! A register that is shifted once for each bit of a message.  An error that
flips some of the bits changes what the register holds in the end by the sum of
what each of them changes, and the first bit is shifted most often. -/

section Syndrome

variable {M : Type*} [AddCommGroup M]

def syndrome (shift : AddMonoid.End M) (start : M) (length : ℕ)
    (flips : Finset ℕ) : M :=
  ∑ index ∈ flips, (shift ^ (length - index)) start

variable {shift : AddMonoid.End M} {start : M} {length : ℕ}
  {flips : Finset ℕ}

theorem shift_pow_injective (injective : Function.Injective shift)
    (count : ℕ) : Function.Injective (shift ^ count) := by
  rw [AddMonoid.End.coe_pow]
  exact injective.iterate count

theorem shift_pow_ne_zero (injective : Function.Injective shift) (count : ℕ)
    {value : M} (nonzero : value ≠ 0) : (shift ^ count) value ≠ 0 :=
  fun zero => nonzero
    (shift_pow_injective injective count (zero.trans (map_zero _).symm))

theorem shift_pow_add (first second : ℕ) (value : M) :
    (shift ^ (first + second)) value =
      (shift ^ first) ((shift ^ second) value) := by
  rw [pow_add]
  rfl

theorem parity_shift_pow {parity : M →+ ZMod 2}
    (kept : ∀ value, parity (shift value) = parity value) (count : ℕ)
    (value : M) : parity ((shift ^ count) value) = parity value := by
  induction count with
  | zero => rfl
  | succ count previous =>
      rw [Nat.add_comm, shift_pow_add, pow_one, kept, previous]

theorem syndrome_of_odd {parity : M →+ ZMod 2}
    (kept : ∀ value, parity (shift value) = parity value)
    (one : parity start = 1) (odd : Odd flips.card) :
    syndrome shift start length flips ≠ 0 := by
  intro zero
  have sum : parity (syndrome shift start length flips) = flips.card := by
    rw [syndrome, map_sum, Finset.sum_congr rfl fun index _ =>
      (parity_shift_pow kept _ start).trans one]
    simp
  rw [zero, map_zero] at sum
  have even : Even flips.card := ZMod.natCast_eq_zero_iff_even.mp sum.symm
  exact Nat.not_even_iff_odd.mpr odd even

theorem shift_pow_ne (injective : Function.Injective shift)
    (order : ∀ count, 0 < count → count < length →
      (shift ^ count) start ≠ start)
    {first second : ℕ} (before : first < second) (inside : second < length) :
    (shift ^ (length - first)) start ≠ (shift ^ (length - second)) start := by
  have split : length - first = (length - second) + (second - first) := by
    omega
  rw [split, shift_pow_add]
  intro same
  exact order (second - first) (by omega) (by omega)
    (shift_pow_injective injective _ same)

theorem syndrome_of_two (injective : Function.Injective shift)
    (twice : ∀ value : M, value + value = 0)
    (order : ∀ count, 0 < count → count < length →
      (shift ^ count) start ≠ start)
    (inside : ∀ index ∈ flips, index < length) (two : flips.card = 2) :
    syndrome shift start length flips ≠ 0 := by
  obtain ⟨first, second, distinct, rfl⟩ := Finset.card_eq_two.mp two
  intro zero
  rw [syndrome, Finset.sum_pair distinct] at zero
  have same : (shift ^ (length - first)) start =
      (shift ^ (length - second)) start :=
    (eq_neg_of_add_eq_zero_left zero).trans
      (neg_eq_of_add_eq_zero_left (twice _))
  obtain before | after := Nat.lt_or_gt_of_ne distinct
  · exact shift_pow_ne injective order before (inside second (by simp)) same
  · exact shift_pow_ne injective order after (inside first (by simp)) same.symm

/-- What is flipped in a window changes the register as in a message that is
the window, and is then shifted on. -/
theorem syndrome_of_window {first width : ℕ} {window : Finset ℕ}
    (short : ∀ index ∈ window, index < width)
    (fits : first + width ≤ length) :
    syndrome shift start length (window.image (first + ·)) =
      (shift ^ (length - (first + width)))
        (syndrome shift start width window) := by
  have apart : Set.InjOn (first + ·) window :=
    (add_right_injective first).injOn
  rw [syndrome, syndrome, Finset.sum_image apart, map_sum]
  refine Finset.sum_congr rfl fun index member => ?_
  have below := short index member
  rw [← shift_pow_add]
  congr 2
  omega

theorem exists_window {first width : ℕ} (fits : width ≤ length)
    (inside : ∀ index ∈ flips, index < length)
    (near : ∀ index ∈ flips, first ≤ index ∧ index < first + width) :
    ∃ (offset : ℕ) (window : Finset ℕ), offset + width ≤ length ∧
      (∀ index ∈ window, index < width) ∧
      window.image (offset + ·) = flips := by
  -- A window that sticks out at the end is moved back.
  refine ⟨min first (length - width),
    flips.image (· - min first (length - width)), by omega, ?_, ?_⟩
  · intro index member
    obtain ⟨position, flipped, rfl⟩ := Finset.mem_image.mp member
    have below := inside position flipped
    have close := near position flipped
    omega
  · rw [Finset.image_image]
    refine (Finset.image_congr fun index member => ?_).trans Finset.image_id
    have close := near index member
    simp only [Function.comp_apply, id]
    omega

theorem syndrome_of_burst (injective : Function.Injective shift)
    {first width : ℕ} (fits : width ≤ length)
    (independent : ∀ window : Finset ℕ, (∀ index ∈ window, index < width) →
      window.Nonempty → syndrome shift start width window ≠ 0)
    (inside : ∀ index ∈ flips, index < length)
    (near : ∀ index ∈ flips, first ≤ index ∧ index < first + width)
    (some : flips.Nonempty) :
    syndrome shift start length flips ≠ 0 := by
  obtain ⟨offset, window, within, short, rfl⟩ := exists_window fits inside near
  rw [syndrome_of_window short within]
  exact shift_pow_ne_zero injective _
    (independent window short (Finset.image_nonempty.mp some))

end Syndrome

namespace XorWord

/-! The register of a reflected polynomial: a bit that leaves at the low end
brings the polynomial in. -/

variable {width : ℕ} {polynomial : BitVec width}

def shiftOut (polynomial value : BitVec width) : BitVec width :=
  if value.getLsbD 0 then (value >>> 1) ^^^ polynomial else value >>> 1

/-- What a bit of the register comes from. -/
theorem bit_shiftOut (polynomial value : BitVec width) (index : ℕ) :
    bit index ⟨shiftOut polynomial value⟩ =
      bit (index + 1) (⟨value⟩ : XorWord width) +
        bit 0 (⟨value⟩ : XorWord width) * bit index ⟨polynomial⟩ := by
  simp only [bit_apply, shiftOut]
  split
  · rw [BitVec.getLsbD_xor, xorBits_add, one_mul, BitVec.getLsbD_ushiftRight,
      Nat.add_comm]
  · rw [zero_mul, add_zero, BitVec.getLsbD_ushiftRight, Nat.add_comm]

def register (polynomial : BitVec width) : AddMonoid.End (XorWord width) where
  toFun value := ⟨shiftOut polynomial value.word⟩
  map_zero' := by
    refine ext_bit fun index inside => ?_
    rw [bit_shiftOut]
    change bit (index + 1) 0 + bit 0 0 * _ = bit index 0
    simp only [map_zero, zero_mul, add_zero]
  map_add' left right := by
    refine ext_bit fun index inside => ?_
    rw [map_add, bit_shiftOut, bit_shiftOut, bit_shiftOut]
    change bit (index + 1) (left + right) + bit 0 (left + right) * _ =
      bit (index + 1) left + bit 0 left * _ +
        (bit (index + 1) right + bit 0 right * _)
    rw [map_add, map_add]
    ring

@[simp] theorem word_register (value : XorWord width) :
    (register polynomial value).word = shiftOut polynomial value.word := rfl

theorem bit_register (value : XorWord width) (index : ℕ) :
    bit index (register polynomial value) =
      bit (index + 1) value + bit 0 value * bit index ⟨polynomial⟩ :=
  bit_shiftOut polynomial value.word index

/-- The highest bit tells whether the polynomial came in, so no bit is lost. -/
theorem register_injective (top : polynomial.msb = true) :
    Function.Injective (register polynomial) := by
  refine (injective_iff_map_eq_zero _).mpr fun value zero => ?_
  have bits : ∀ index,
      bit (index + 1) value + bit 0 value * bit index ⟨polynomial⟩ = 0 := by
    intro index
    rw [← bit_register, zero, map_zero]
  have low : bit 0 value = 0 := by
    have last := bits (width - 1)
    rwa [bit_of_le (by omega), zero_add, bit_apply (width - 1),
      ← BitVec.msb_eq_getLsbD_last, if_pos top, mul_one] at last
  refine ext_bit fun index inside => ?_
  rw [map_zero]
  cases index with
  | zero => exact low
  | succ index =>
      have next := bits index
      rwa [low, zero_mul, add_zero] at next

theorem parity_register (odd : parity ⟨polynomial⟩ = 1)
    (value : XorWord width) :
    parity (register polynomial value) = parity value := by
  rw [parity_apply] at odd
  rw [parity_apply, parity_apply,
    Finset.sum_congr rfl fun index _ => bit_register value index,
    Finset.sum_add_distrib, ← Finset.mul_sum, odd, mul_one,
    ← Finset.sum_range_succ' (bit · value), Finset.sum_range_succ,
    bit_of_le le_rfl, add_zero]

theorem register_single_succ {index : ℕ} (inside : index + 1 < width) :
    register polynomial (single (index + 1)) = single index := by
  refine ext_bit fun position below => ?_
  have low : bit 0 (single (index + 1) : XorWord width) = 0 :=
    (bit_single (by omega) _).trans (if_neg index.succ_ne_zero)
  rw [bit_register, low, zero_mul, add_zero, bit_single below]
  obtain within | outside := Nat.lt_or_ge (position + 1) width
  · rw [bit_single within]
    simp only [Nat.add_right_cancel_iff]
  · rw [bit_of_le outside, if_neg (by omega)]

theorem register_pow_single {index : ℕ} (inside : index < width) :
    (register polynomial ^ index) (single index) = single 0 := by
  induction index with
  | zero => rfl
  | succ index previous =>
      rw [shift_pow_add, pow_one, register_single_succ inside]
      exact previous (by omega)

theorem syndrome_of_word_ne_zero (top : polynomial.msb = true)
    {window : Finset ℕ} (short : ∀ index ∈ window, index < width)
    (some : window.Nonempty) :
    syndrome (register polynomial) (single 0) width window ≠ 0 := by
  have each : ∀ index ∈ window,
      (register polynomial ^ (width - index)) (single 0) =
        (register polynomial ^ width) (single index) := by
    intro index member
    have below := short index member
    rw [← register_pow_single below, ← shift_pow_add,
      Nat.sub_add_cancel below.le]
  rw [syndrome, Finset.sum_congr rfl each, ← map_sum]
  refine shift_pow_ne_zero (register_injective top) width ?_
  refine sum_single_ne_zero (fun index member => ?_) some
  exact Finset.mem_range.mpr (short index member)

end XorWord

end RoboBand.Data
