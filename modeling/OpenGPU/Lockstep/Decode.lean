import OpenGPU.Foundation.LaneSet
import OpenGPU.Platform.Bytes
import OpenGPU.Verilog.Core

/-!
# Decoding in the models and in hardware

The C++ models shift and mask a 32-bit word; the hardware descriptions slice it.
Every field and immediate is the same value on both sides.
-/

namespace OpenGPU

/-! ## Fields -/

/-- Bits of a field that a mask of low bits cuts out of a shifted word. -/
theorem getLsbD_field
    (inst : Word)
    (start width : Nat)
    {mask : Word}
    (low : ∀ bit, mask.getLsbD bit = decide (bit < width))
    (bit : Nat) :
    ((inst >>> start) &&& mask).getLsbD bit = (inst.extractLsb' start width).getLsbD bit := by
  rw [BitVec.getLsbD_and, low, BitVec.getLsbD_ushiftRight, BitVec.getLsbD_extractLsb',
    Bool.and_comm]

/-- A mask of low bits, decided on its 32 bits. -/
theorem getLsbD_lowMask
    {mask : Word}
    {width : Nat}
    (fits : width ≤ 32)
    (low : ∀ bit, bit < 32 → mask.getLsbD bit = decide (bit < width))
    (bit : Nat) :
    mask.getLsbD bit = decide (bit < width) := by
  rcases Nat.lt_or_ge bit 32 with inWord | beyond
  · exact low bit inWord
  · rw [BitVec.getLsbD_of_ge mask bit beyond, eq_comm, decide_eq_false_iff_not]
    omega

/-- A field cut out by shift and mask is the slice of the word. -/
theorem field_eq_setWidth
    (inst : Word)
    (start width : Nat)
    (mask : Word)
    (fits : width ≤ 32)
    (low : ∀ bit, bit < 32 → mask.getLsbD bit = decide (bit < width)) :
    (inst >>> start) &&& mask = (inst.extractLsb' start width).setWidth 32 := by
  apply BitVec.eq_of_getLsbD_eq
  intro bit inWord
  rw [getLsbD_field inst start width (getLsbD_lowMask fits low), BitVec.getLsbD_setWidth,
    decide_eq_true inWord, Bool.true_and]

/-- Widening keeps fields apart. -/
theorem setWidth_inj
    {width : Nat}
    (fits : width ≤ 32)
    (left right : BitVec width) :
    left.setWidth 32 = right.setWidth 32 ↔ left = right := by
  constructor
  · intro same
    have narrowed := congrArg (BitVec.setWidth width) same
    rwa [BitVec.setWidth_setWidth_of_le left fits, BitVec.setWidth_setWidth_of_le right fits,
      BitVec.setWidth_eq, BitVec.setWidth_eq] at narrowed
  · rintro rfl
    rfl

namespace Instruction

open Verilog

variable (inst : Word)

theorem opcode_eq : opcode inst = (Decode.opcode inst).setWidth 32 := by
  have field := field_eq_setWidth inst 0 7 0x7f (by decide) (by decide)
  rwa [BitVec.ushiftRight_zero] at field

theorem rd_eq : rd inst = (Decode.rd inst).setWidth 32 :=
  field_eq_setWidth inst 7 5 0x1f (by decide) (by decide)

theorem funct3_eq : funct3 inst = (Decode.funct3 inst).setWidth 32 :=
  field_eq_setWidth inst 12 3 7 (by decide) (by decide)

theorem rs1_eq : rs1 inst = (Decode.rs1 inst).setWidth 32 :=
  field_eq_setWidth inst 15 5 0x1f (by decide) (by decide)

theorem rs2_eq : rs2 inst = (Decode.rs2 inst).setWidth 32 :=
  field_eq_setWidth inst 20 5 0x1f (by decide) (by decide)

/-- The shift amount of an immediate shift is the second source field. -/
theorem shamt_eq : shamt inst = (Decode.rs2 inst).setWidth 32 := rs2_eq inst

/-- A shift down to the top of the word leaves the slice at the top. -/
theorem topField_eq
    (start width : Nat)
    (top : start + width = 32) :
    inst >>> start = (inst.extractLsb' start width).setWidth 32 := by
  apply BitVec.eq_of_getLsbD_eq
  intro bit inWord
  rw [BitVec.getLsbD_ushiftRight, BitVec.getLsbD_setWidth, BitVec.getLsbD_extractLsb',
    decide_eq_true inWord, Bool.true_and]
  rcases Nat.lt_or_ge bit width with inField | beyond
  · rw [decide_eq_true inField, Bool.true_and]
  · rw [BitVec.getLsbD_of_ge inst _ (by omega), Bool.and_false]

theorem funct7_eq : funct7 inst = (Decode.funct7 inst).setWidth 32 :=
  topField_eq inst 25 7 rfl

theorem csr_eq : inst >>> 20 = (Decode.csrAddr inst).setWidth 32 :=
  topField_eq inst 20 12 rfl

theorem opcode_eq_iff
    (number : BitVec 7) :
    opcode inst = number.setWidth 32 ↔ Decode.opcode inst = number := by
  rw [opcode_eq, setWidth_inj (by decide)]

theorem rd_eq_iff
    (number : BitVec 5) :
    rd inst = number.setWidth 32 ↔ Decode.rd inst = number := by
  rw [rd_eq, setWidth_inj (by decide)]

theorem rs1_eq_iff
    (number : BitVec 5) :
    rs1 inst = number.setWidth 32 ↔ Decode.rs1 inst = number := by
  rw [rs1_eq, setWidth_inj (by decide)]

theorem funct3_eq_iff
    (number : BitVec 3) :
    funct3 inst = number.setWidth 32 ↔ Decode.funct3 inst = number := by
  rw [funct3_eq, setWidth_inj (by decide)]

theorem funct7_eq_iff
    (number : BitVec 7) :
    funct7 inst = number.setWidth 32 ↔ Decode.funct7 inst = number := by
  rw [funct7_eq, setWidth_inj (by decide)]

theorem csr_eq_iff
    (number : BitVec 12) :
    inst >>> 20 = number.setWidth 32 ↔ Decode.csrAddr inst = number := by
  rw [csr_eq, setWidth_inj (by decide)]

/-- A widened field below a power of two. -/
theorem toNat_field
    {width : Nat}
    (field : BitVec width)
    (fits : width ≤ 32) :
    (field.setWidth 32).toNat = field.toNat := by
  rw [BitVec.toNat_setWidth, Nat.mod_eq_of_lt]
  exact Nat.lt_of_lt_of_le field.isLt (Nat.pow_le_pow_right (by decide) fits)

/-- The register number in the low four bits of a field. -/
theorem register_eq
    (field : BitVec 5) :
    (field.setWidth 32 &&& 15).toNat = Decode.register field := by
  unfold Decode.register
  rw [BitVec.toNat_and, toNat_field field (by decide), BitVec.extractLsb'_toNat,
    Nat.shiftRight_zero]
  exact Nat.and_two_pow_sub_one_eq_mod field.toNat 4

/-- A register number beyond the sixteen has the top bit of its field set. -/
theorem sixteen_le_iff
    (field : BitVec 5) :
    (16 : Word) ≤ field.setWidth 32 ↔ field.getLsbD 4 = true := by
  rw [BitVec.le_def, toNat_field field (by decide), BitVec.getLsbD,
    Nat.testBit_eq_decide_div_mod_eq,
    decide_eq_true_eq]
  have bound := field.isLt
  show 16 ≤ field.toNat ↔ field.toNat / 16 % 2 = 1
  omega

/-- A register field that is legal is its own register number. -/
theorem toNat_eq_register
    (field : BitVec 5)
    (legal : field.getLsbD 4 = false) :
    field.toNat = Decode.register field := by
  have small := mt (sixteen_le_iff field).mp (by rw [legal]; exact Bool.false_ne_true)
  rw [BitVec.le_def, toNat_field field (by decide)] at small
  unfold Decode.register
  rw [BitVec.extractLsb'_toNat, Nat.shiftRight_zero, Nat.mod_eq_of_lt]
  exact Nat.not_le.mp small

theorem register_lt
    (field : BitVec 5) :
    Decode.register field < 16 :=
  (field.extractLsb' 0 4).isLt

/-- Equality tests of opcodes. -/
theorem beq_opcode
    (number : BitVec 7) :
    (opcode inst == number.setWidth 32) = (Decode.opcode inst == number) := by
  rw [Bool.eq_iff_iff, beq_iff_eq, beq_iff_eq]
  exact opcode_eq_iff inst number

theorem usesRd_eq : usesRd (opcode inst) = Decode.usesRd (Decode.opcode inst) := by
  unfold usesRd Decode.usesRd
  simp only [← beq_opcode]
  rfl

theorem usesRs1_eq : usesRs1 (opcode inst) = Decode.usesRs1 (Decode.opcode inst) := by
  unfold usesRs1 Decode.usesRs1
  simp only [← beq_opcode]
  rfl

theorem usesRs2_eq : usesRs2 (opcode inst) = Decode.usesRs2 (Decode.opcode inst) := by
  unfold usesRs2 Decode.usesRs2
  simp only [← beq_opcode]
  rfl

/-- Both sides reject the same words for their register fields. -/
theorem badRegister_eq : badRegister inst = Decode.badRegister inst := by
  have high : ∀ field : BitVec 5, decide ((16 : Word) ≤ field.setWidth 32) = field.getLsbD 4 := by
    intro field
    rw [Bool.eq_iff_iff, decide_eq_true_iff]
    exact sixteen_le_iff field
  unfold badRegister Decode.badRegister
  rw [usesRd_eq, usesRs1_eq, usesRs2_eq, rd_eq, rs1_eq, rs2_eq, high, high, high]

/-! ## Immediates -/

/-- Sign extension of a widened field. -/
theorem signExtend_setWidth
    {width : Nat}
    (field : BitVec width)
    (positive : 0 < width)
    (fits : width ≤ 32) :
    signExtend (field.setWidth 32) width = field.signExtend 32 := by
  apply BitVec.eq_of_getLsbD_eq
  intro bit inWord
  rw [getLsbD_signExtend _ positive fits inWord, BitVec.getLsbD_signExtend, BitVec.getLsbD_setWidth,
    BitVec.msb_eq_getLsbD_last, decide_eq_true inWord, Bool.true_and]
  split_ifs with inField
  · rw [decide_eq_true inWord, Bool.true_and]
  · rw [decide_eq_true (by omega), Bool.true_and]

theorem immI_eq : immI inst = Decode.immI inst := by
  unfold immI Decode.immI
  rw [csr_eq, Decode.csrAddr]
  exact signExtend_setWidth _ (by decide) (by decide)

/-- Sign extension of the bits of a slice. -/
theorem signExtend_eq_of_bits
    {width : Nat}
    (value : Word)
    (field : BitVec width)
    (positive : 0 < width)
    (fits : width ≤ 32)
    (same : ∀ bit, bit < width → value.getLsbD bit = field.getLsbD bit) :
    signExtend value width = field.signExtend 32 := by
  rw [← signExtend_setWidth field positive fits]
  apply signExtend_congr positive fits
  intro bit inField
  rw [same bit inField, BitVec.getLsbD_setWidth, decide_eq_true (by omega), Bool.true_and]

theorem immS_eq : immS inst = Decode.immS inst := by
  apply signExtend_eq_of_bits _ _ (by decide) (by decide)
  intro bit inField
  rw [BitVec.getLsbD_append, BitVec.getLsbD_or, BitVec.getLsbD_shiftLeft,
    getLsbD_field inst 7 5 (getLsbD_lowMask (by decide) (by decide)), BitVec.getLsbD_ushiftRight,
    BitVec.getLsbD_extractLsb', BitVec.getLsbD_extractLsb']
  rcases Nat.lt_or_ge bit 5 with low | high
  · simp [low, show bit < 32 by omega]
  · simp [Nat.not_lt.mpr high, show bit < 32 by omega, show bit - 5 < 7 by omega]

theorem immB_eq : immB inst = Decode.immB inst := by
  apply signExtend_eq_of_bits _ _ (by decide) (by decide)
  intro bit inField
  simp only [BitVec.getLsbD_or, BitVec.getLsbD_and, BitVec.getLsbD_ushiftRight,
    BitVec.getLsbD_shiftLeft, BitVec.getLsbD_append, BitVec.getLsbD_extractLsb']
  interval_cases bit <;> simp

theorem immJ_eq : immJ inst = Decode.immJ inst := by
  apply signExtend_eq_of_bits _ _ (by decide) (by decide)
  intro bit inField
  simp only [BitVec.getLsbD_or, BitVec.getLsbD_and, BitVec.getLsbD_ushiftRight,
    BitVec.getLsbD_append, BitVec.getLsbD_extractLsb']
  interval_cases bit <;> simp

/-- The upper immediate. -/
theorem immU_eq : inst &&& 0xfffff000 = Decode.immU inst := by
  apply BitVec.eq_of_getLsbD_eq
  intro bit inWord
  unfold Decode.immU
  rw [BitVec.getLsbD_append, BitVec.getLsbD_and, BitVec.getLsbD_extractLsb']
  interval_cases bit <;> simp

end Instruction

end OpenGPU
