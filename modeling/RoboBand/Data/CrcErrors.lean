import RoboBand.Data.Crc
import RoboBand.Data.ShiftRegister

namespace RoboBand.Data

open Packed XorWord

/-! CRC-16/KERMIT as a register, and the errors that it detects in a short
message. -/

def kermitRegister : AddMonoid.End (XorWord 16) := register 0x8408#16

theorem kermitShifts_eq (count : ℕ) (crc : BitVec 16) :
    ⟨kermitShifts count crc⟩ = (kermitRegister ^ count) ⟨crc⟩ := by
  induction count generalizing crc with
  | zero => rfl
  | succ count previous =>
      rw [shift_pow_add, pow_one]
      exact previous (kermitShift crc)

theorem kermit_succ (bytes : ℕ → Byte) (count : ℕ) :
    ⟨kermit ((List.range (count + 1)).map bytes)⟩ =
      (kermitRegister ^ 8) (⟨kermit ((List.range count).map bytes)⟩ +
        ⟨(bytes count).setWidth 16⟩) := by
  rw [List.range_succ, List.map_append, kermit, List.foldl_append]
  exact kermitShifts_eq 8 _

theorem kermit_xor (bytes error : ℕ → Byte) (count : ℕ) :
    kermit ((List.range count).map fun index => bytes index ^^^ error index) =
      kermit ((List.range count).map bytes) ^^^
        kermit ((List.range count).map error) := by
  suffices sum : (⟨kermit ((List.range count).map fun index =>
      bytes index ^^^ error index)⟩ : XorWord 16) =
      ⟨kermit ((List.range count).map bytes)⟩ +
        ⟨kermit ((List.range count).map error)⟩ from congrArg word sum
  induction count with
  | zero => exact (add_zero (0 : XorWord 16)).symm
  | succ count previous =>
      have byte : (⟨(bytes count ^^^ error count).setWidth 16⟩ : XorWord 16) =
          ⟨(bytes count).setWidth 16⟩ + ⟨(error count).setWidth 16⟩ :=
        congrArg XorWord.mk BitVec.setWidth_xor
      rw [kermit_succ, kermit_succ, kermit_succ, previous, byte, ← map_add,
        add_add_add_comm]

/-- The numbers of the bits that are set, byte after byte from the low end. -/
def bitsOf (bytes : ℕ → Byte) (count : ℕ) : Finset ℕ :=
  {index ∈ Finset.range (8 * count) | (bytes (index / 8)).getLsbD (index % 8)}

theorem kermitRegister_byte (byte : Byte) :
    (kermitRegister ^ 8) ⟨byte.setWidth 16⟩ =
      ∑ index ∈ Finset.range 8,
        if byte.getLsbD index then (kermitRegister ^ (8 - index)) (single 0)
        else 0 := by
  have bits : {index ∈ Finset.range 16 |
      (byte.setWidth 16).getLsbD index} =
      {index ∈ Finset.range 8 | byte.getLsbD index} := by
    ext index
    simp only [Finset.mem_filter, Finset.mem_range, BitVec.getLsbD_setWidth]
    have narrow : byte.getLsbD index = true → index < 8 :=
      BitVec.lt_of_getLsbD
    grind
  have each : ∀ index ∈ Finset.range 8,
      (kermitRegister ^ 8) (single index) =
        (kermitRegister ^ (8 - index)) (single 0) := by
    intro index member
    have below := Finset.mem_range.mp member
    rw [← register_pow_single (below.trans (by decide : 8 < 16))]
    rw [kermitRegister, ← shift_pow_add, Nat.sub_add_cancel below.le]
  rw [← sum_bits (⟨byte.setWidth 16⟩ : XorWord 16), bits, map_sum,
    Finset.sum_filter, Finset.sum_congr rfl]
  intro index member
  rw [each index member]

theorem kermit_eq_syndrome (bytes : ℕ → Byte) (count : ℕ) :
    ⟨kermit ((List.range count).map bytes)⟩ =
      syndrome kermitRegister (single 0) (8 * count) (bitsOf bytes count) := by
  induction count with
  | zero => rfl
  | succ count previous =>
      rw [kermit_succ, map_add, previous, kermitRegister_byte]
      simp only [syndrome, bitsOf, Finset.sum_filter, Nat.mul_succ,
        Finset.sum_range_add, map_sum]
      congr 1
      · refine Finset.sum_congr rfl fun index member => ?_
        have below := Finset.mem_range.mp member
        have longer : 8 * count + 8 - index = 8 + (8 * count - index) := by
          omega
        rw [longer, shift_pow_add]
        split
        · rfl
        · exact map_zero _
      · refine Finset.sum_congr rfl fun index member => ?_
        have below := Finset.mem_range.mp member
        have byte : (8 * count + index) / 8 = count := by omega
        have place : (8 * count + index) % 8 = index := by omega
        have shorter : 8 * count + 8 - (8 * count + index) = 8 - index := by
          omega
        rw [byte, place, shorter]

/-- The CRC stored behind its bytes, low byte first, brings the register back
to zero. -/
theorem kermit_closed {bytes : ℕ → Byte} {count : ℕ}
    (stored : word16 bytes count = kermit ((List.range count).map bytes)) :
    kermit ((List.range (count + 2)).map bytes) = 0 := by
  have high : ∀ byte : Byte,
      kermitShifts 8 (byte ++ 0#8) = byte.setWidth 16 := by decide +kernel
  have low : word16 bytes count ^^^ (bytes count).setWidth 16 =
      bytes (count + 1) ++ 0#8 := by
    have wide : (bytes count).setWidth 16 = 0#8 ++ bytes count :=
      BitVec.setWidth_eq_append (by decide)
    rw [wide, word16, BitVec.xor_append, BitVec.xor_zero, BitVec.xor_self]
  have rest : (kermitRegister ^ 8)
      (⟨word16 bytes count⟩ + ⟨(bytes count).setWidth 16⟩) =
      ⟨(bytes (count + 1)).setWidth 16⟩ := by
    rw [← high (bytes (count + 1)), ← low]
    exact (kermitShifts_eq 8 _).symm
  suffices zero : (⟨kermit ((List.range (count + 2)).map bytes)⟩ :
      XorWord 16) = 0 from congrArg word zero
  rw [kermit_succ, kermit_succ, ← stored, rest, add_self, map_zero]

theorem kermitRegister_order : ∀ count < 128, 0 < count →
    (kermitRegister ^ count) (single 0) ≠ single 0 := by
  have order : ∀ count < 128, 0 < count → kermitShifts count 1#16 ≠ 1#16 := by
    decide +kernel
  intro count below positive same
  refine order count below positive ?_
  exact congrArg word ((kermitShifts_eq count 1#16).trans same)

theorem parity_polynomial : parity (⟨0x8408#16⟩ : XorWord 16) = 1 := by
  rw [parity_apply]
  decide +kernel

theorem kermitRegister_injective : Function.Injective kermitRegister :=
  register_injective (by decide)

theorem parity_kermitRegister (value : XorWord 16) :
    parity (kermitRegister value) = parity value :=
  parity_register parity_polynomial value

theorem lt_of_mem_bitsOf {bytes : ℕ → Byte} {count index : ℕ}
    (member : index ∈ bitsOf bytes count) : index < 8 * count :=
  Finset.mem_range.mp (Finset.mem_filter.mp member).1

/-- The errors for which the check was chosen. -/
inductive Detectable (flips : Finset ℕ) : Prop where
  | odd (odd : Odd flips.card)
  | two (two : flips.card = 2)
  | burst (first : ℕ) (some : flips.Nonempty)
      (near : ∀ index ∈ flips, first ≤ index ∧ index < first + 16)

theorem kermit_detects {bytes : ℕ → Byte}
    (error : Detectable (bitsOf bytes 16)) :
    kermit ((List.range 16).map bytes) ≠ 0 := by
  suffices syndrome kermitRegister (single 0) 128 (bitsOf bytes 16) ≠ 0 from
    fun zero => this ((kermit_eq_syndrome bytes 16).symm.trans
      (congrArg XorWord.mk zero))
  have inside : ∀ index ∈ bitsOf bytes 16, index < 128 :=
    fun _ member => lt_of_mem_bitsOf member
  cases error with
  | odd odd =>
      exact syndrome_of_odd parity_kermitRegister (by decide +kernel) odd
  | two two =>
      exact syndrome_of_two kermitRegister_injective add_self
        (fun count positive below =>
          kermitRegister_order count below positive) inside two
  | burst first some near =>
      exact syndrome_of_burst kermitRegister_injective (by decide)
        (fun _ => syndrome_of_word_ne_zero (by decide)) inside near some

end RoboBand.Data
