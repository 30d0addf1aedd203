import Mathlib.Data.List.Lex
import Mathlib.Order.Lattice
import Mathlib.Order.Defs.LinearOrder

namespace RoboBand.Data

/-! Bytes, and words laid out in memory with the low byte first. -/

abbrev Byte := BitVec 8

/-- Bytes are ordered as unsigned numbers. -/
instance : LinearOrder Byte where
  le_refl := fun _ => BitVec.le_refl _
  le_trans := fun _ _ _ => BitVec.le_trans
  le_antisymm := fun _ _ => BitVec.le_antisymm
  le_total := BitVec.le_total
  lt_iff_le_not_ge := fun left right => by
    rw [BitVec.lt_def, BitVec.le_def, BitVec.le_def]
    omega
  toDecidableLE := inferInstance

namespace Packed

def byteAt (index : Nat) (word : BitVec width) : Byte :=
  word.extractLsb' (8 * index) 8

def word16 (bytes : Nat → Byte) (offset : Nat) : BitVec 16 :=
  bytes (offset + 1) ++ bytes offset

def word32 (bytes : Nat → Byte) (offset : Nat) : BitVec 32 :=
  bytes (offset + 3) ++ bytes (offset + 2) ++ bytes (offset + 1) ++
    bytes offset

theorem byteAt_append (word : BitVec 16) :
    byteAt 1 word ++ byteAt 0 word = word :=
  BitVec.extractLsb'_append_extractLsb'

theorem byteAt_append_four (word : BitVec 32) :
    byteAt 3 word ++ byteAt 2 word ++ byteAt 1 word ++ byteAt 0 word =
      word := by
  have upper : byteAt 3 word ++ byteAt 2 word = word.extractLsb' 16 16 :=
    BitVec.extractLsb'_append_extractLsb'_eq_extractLsb' rfl
  have middle : word.extractLsb' 16 16 ++ byteAt 1 word =
      word.extractLsb' 8 24 :=
    BitVec.extractLsb'_append_extractLsb'_eq_extractLsb' rfl
  rw [upper, middle]
  exact BitVec.extractLsb'_append_extractLsb'

end Packed

end RoboBand.Data
