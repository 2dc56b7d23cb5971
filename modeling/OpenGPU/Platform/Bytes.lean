import Mathlib.Tactic.IntervalCases
import OpenGPU.Platform.Instruction
import OpenGPU.Platform.Memory

/-!
# Bytes of a word

How the bytes of a machine word move under shifts and sign extension, and how
the address of an access splits into the address of the word around it and an
offset in that word.
-/

namespace OpenGPU

/-! ## Bytes and shifts -/

/-- The bits of a byte of a word. -/
theorem getLsbD_wordByte
    (value : Word)
    (index : Nat)
    {bit : Nat}
    (inByte : bit < 8) :
    (wordByte value index).getLsbD bit = value.getLsbD (8 * index + bit) := by
  unfold wordByte
  rw [BitVec.getLsbD_setWidth, BitVec.getLsbD_ushiftRight, decide_eq_true inByte, Bool.true_and]

/-- Four bytes determine a word. -/
theorem eq_of_wordByte_eq
    {left right : Word}
    (same : ∀ index, index < 4 → wordByte left index = wordByte right index) :
    left = right := by
  apply BitVec.eq_of_getLsbD_eq
  intro bit inWord
  have sameByte := congrArg (fun byte => byte.getLsbD (bit % 8)) (same (bit / 8) (by omega))
  simp only [getLsbD_wordByte _ _ (Nat.mod_lt bit (by decide : 8 > 0)), Nat.div_add_mod] at sameByte
  exact sameByte

/-- A left shift by whole bytes moves the bytes up and fills with zero. -/
theorem wordByte_shiftLeft
    (value : Word)
    (places : Nat)
    {index : Nat}
    (inWord : index < 4) :
    wordByte (value <<< (8 * places)) index =
      if index < places then 0 else wordByte value (index - places) := by
  apply BitVec.eq_of_getLsbD_eq
  intro bit inByte
  rw [getLsbD_wordByte _ _ inByte, BitVec.getLsbD_shiftLeft]
  split_ifs with below
  · have filled : 8 * index + bit < 8 * places := by omega
    simp [filled]
  · have moved : 8 * index + bit - 8 * places = 8 * (index - places) + bit := by omega
    have kept : ¬8 * index + bit < 8 * places := by omega
    rw [getLsbD_wordByte _ _ inByte, moved]
    simp [kept, show 8 * index + bit < 32 by omega]

/-- A right shift by whole bytes moves the bytes down. -/
theorem wordByte_shiftRight
    (value : Word)
    (places index : Nat) :
    wordByte (value >>> (8 * places)) index = wordByte value (index + places) := by
  apply BitVec.eq_of_getLsbD_eq
  intro bit inByte
  rw [getLsbD_wordByte _ _ inByte, getLsbD_wordByte _ _ inByte, BitVec.getLsbD_ushiftRight]
  congr 1
  omega

/-- The bytes of a little-endian value. -/
theorem wordByte_littleEndian
    (bytes : Nat → Byte)
    {length : Nat}
    (fits : length ≤ 4)
    (index : Nat) :
    wordByte (littleEndian bytes length) index = if index < length then bytes index else 0 := by
  induction length with
  | zero =>
      rw [if_neg (Nat.not_lt_zero index)]
      apply BitVec.eq_of_getLsbD_eq
      intro bit inByte
      rw [getLsbD_wordByte _ _ inByte]
      exact BitVec.getLsbD_zero.trans BitVec.getLsbD_zero.symm
  | succ length inductionHypothesis =>
      have below := inductionHypothesis (by omega)
      apply BitVec.eq_of_getLsbD_eq
      intro bit inByte
      rw [getLsbD_wordByte _ _ inByte, littleEndian, BitVec.getLsbD_or,
        ← getLsbD_wordByte _ _ inByte, below, BitVec.getLsbD_shiftLeft, BitVec.getLsbD_setWidth]
      -- the byte that is added lies above the bytes before it
      rcases Nat.lt_trichotomy index length with before | here | after
      · have added : 8 * index + bit < 8 * length := by omega
        simp [before, added, Nat.lt_succ_of_lt before]
      · subst here
        have inside : 8 * index + bit < 32 := by omega
        have start : ¬8 * index + bit < 8 * index := by omega
        simp [inside, inByte, start, show bit < 32 by omega]
      · have outside : ¬8 * index + bit - 8 * length < 8 := by omega
        have beyond := BitVec.getLsbD_of_ge (bytes length) (8 * index + bit - 8 * length) (by omega)
        rw [if_neg (by omega), if_neg (by omega), beyond]
        simp

/-- Bytes of a conjunction. -/
theorem wordByte_and
    (left right : Word)
    (index : Nat) :
    wordByte (left &&& right) index = wordByte left index &&& wordByte right index := by
  unfold wordByte
  rw [BitVec.ushiftRight_and_distrib, BitVec.setWidth_and]

/-- The lowest byte of a word, by a mask. -/
theorem littleEndian_wordByte_one
    (value : Word) :
    littleEndian (wordByte value) 1 = value &&& 255 := by
  apply eq_of_wordByte_eq
  intro index inWord
  rw [wordByte_littleEndian _ (by decide), wordByte_and]
  interval_cases index
  · exact (BitVec.and_allOnes).symm
  · exact (BitVec.and_zero).symm
  · exact (BitVec.and_zero).symm
  · exact (BitVec.and_zero).symm

/-- The two lowest bytes of a word, by a mask. -/
theorem littleEndian_wordByte_two
    (value : Word) :
    littleEndian (wordByte value) 2 = value &&& 65535 := by
  apply eq_of_wordByte_eq
  intro index inWord
  rw [wordByte_littleEndian _ (by decide), wordByte_and]
  interval_cases index
  · exact (BitVec.and_allOnes).symm
  · exact (BitVec.and_allOnes).symm
  · exact (BitVec.and_zero).symm
  · exact (BitVec.and_zero).symm

/-- Little-endian values look at their bytes only. -/
theorem littleEndian_congr
    {left right : Nat → Byte}
    {length : Nat}
    (same : ∀ index, index < length → left index = right index) :
    littleEndian left length = littleEndian right length := by
  induction length with
  | zero => rfl
  | succ length inductionHypothesis =>
      rw [littleEndian, littleEndian, same length (Nat.lt_succ_self length),
        inductionHypothesis fun index inside => same index (Nat.lt_succ_of_lt inside)]

/-! ## Sign extension -/

/-- Sign extension repeats the top bit of the field. -/
theorem getLsbD_signExtend
    (value : Word)
    {bits : Nat}
    (positive : 0 < bits)
    (fits : bits ≤ 32)
    {bit : Nat}
    (inWord : bit < 32) :
    (signExtend value bits).getLsbD bit = value.getLsbD (if bit < bits then bit else bits - 1) := by
  unfold signExtend
  rw [BitVec.getLsbD_sshiftRight, BitVec.msb_eq_getLsbD_last, BitVec.getLsbD_shiftLeft,
    BitVec.getLsbD_shiftLeft]
  split_ifs with shifted field field
  · have source : 32 - bits + bit - (32 - bits) = bit := by omega
    have high : ¬32 - bits + bit < 32 - bits := by omega
    simp [source, high, shifted, show ¬32 ≤ bit by omega]
  · exact absurd shifted (by omega)
  · exact absurd field (by omega)
  · have source : 31 - (32 - bits) = bits - 1 := by omega
    have high : ¬31 < 32 - bits := by omega
    simp [source, high, show ¬32 ≤ bit by omega]

/-- Sign extension looks at the field only. -/
theorem signExtend_congr
    {left right : Word}
    {bits : Nat}
    (positive : 0 < bits)
    (fits : bits ≤ 32)
    (same : ∀ bit, bit < bits → left.getLsbD bit = right.getLsbD bit) :
    signExtend left bits = signExtend right bits := by
  apply BitVec.eq_of_getLsbD_eq
  intro bit inWord
  rw [getLsbD_signExtend left positive fits inWord, getLsbD_signExtend right positive fits inWord]
  split_ifs with field
  · exact same bit field
  · exact same (bits - 1) (by omega)

/-- Sign extension of a field of whole bytes. -/
theorem signExtend_littleEndian
    (value : Word)
    (width : Nat)
    (positive : 0 < width)
    (fits : width ≤ 4) :
    signExtend (littleEndian (wordByte value) width) (8 * width) =
      signExtend value (8 * width) := by
  apply signExtend_congr (by omega) (by omega)
  intro bit inField
  have sameByte := wordByte_littleEndian (wordByte value) fits (bit / 8)
  rw [if_pos (by omega)] at sameByte
  have inByte := Nat.mod_lt bit (by decide : 8 > 0)
  have sameBit := congrArg (fun byte => byte.getLsbD (bit % 8)) sameByte
  simp only [getLsbD_wordByte _ _ inByte, Nat.div_add_mod] at sameBit
  exact sameBit

/-- Sign extension keeps the bytes of the field. -/
theorem wordByte_signExtend
    (value : Word)
    (width : Nat)
    {index : Nat}
    (fits : width ≤ 4)
    (inField : index < width) :
    wordByte (signExtend value (8 * width)) index = wordByte value index := by
  apply BitVec.eq_of_getLsbD_eq
  intro bit inByte
  rw [getLsbD_wordByte _ _ inByte, getLsbD_wordByte _ _ inByte,
    getLsbD_signExtend value (by omega) (by omega) (by omega), if_pos (by omega)]

/-! ## Addresses -/

/-- The address of the word around an address. -/
def wordAddress (addr : Word) : Word := addr &&& ~~~3

/-- The offset of an address in its word. -/
def wordOffset (addr : Word) : Nat := (addr &&& 3).toNat

theorem wordOffset_lt (addr : Word) : wordOffset addr < 4 := by
  unfold wordOffset
  rw [BitVec.toNat_and]
  exact Nat.lt_of_le_of_lt Nat.and_le_right (by decide)

/-- The offset is the remainder of the address. -/
theorem wordOffset_eq_mod
    (addr : Word) :
    wordOffset addr = addr.toNat % 4 := by
  unfold wordOffset
  rw [BitVec.toNat_and]
  exact Nat.and_two_pow_sub_one_eq_mod addr.toNat 2

/-- Word and offset make up the address. -/
theorem wordAddress_add_wordOffset
    (addr : Word) :
    wordAddress addr + BitVec.ofNat 32 (wordOffset addr) = addr := by
  unfold wordAddress wordOffset
  rw [BitVec.ofNat_toNat, BitVec.setWidth_eq]
  have disjoint : addr &&& ~~~3 &&& (addr &&& 3) = 0#32 := by
    ext bit
    simp only [BitVec.getElem_and, BitVec.getElem_not, BitVec.getElem_zero]
    cases addr[bit] <;> cases (3 : Word)[bit] <;> rfl
  rw [BitVec.add_eq_or_of_and_eq_zero _ _ disjoint]
  ext bit
  simp only [BitVec.getElem_or, BitVec.getElem_and, BitVec.getElem_not]
  cases addr[bit] <;> cases (3 : Word)[bit] <;> rfl

/-- The word around an address starts at the address less the offset. -/
theorem toNat_wordAddress
    (addr : Word) :
    (wordAddress addr).toNat = addr.toNat - wordOffset addr := by
  have whole := congrArg BitVec.toNat (wordAddress_add_wordOffset addr)
  have offset := wordOffset_lt addr
  have aligned : (wordAddress addr).toNat ≤ addr.toNat := by
    unfold wordAddress
    rw [BitVec.toNat_and]
    exact Nat.and_le_left
  rw [BitVec.toNat_add, BitVec.toNat_ofNat,
    Nat.mod_eq_of_lt (by omega : wordOffset addr < 2 ^ 32)] at whole
  have bound := addr.isLt
  have aligned' := (wordAddress addr).isLt
  omega

/-! ## Addresses in physical memory -/

/-- The window of physical memory, without wrapping. -/
theorem inPmem_iff
    (cfg : Config)
    (addr : Word) :
    inPmem cfg addr = true ↔
      cfg.mbase.toNat ≤ addr.toNat ∧ addr.toNat < cfg.mbase.toNat + cfg.msize.toNat := by
  have fits := cfg.pmem_fits
  have base := cfg.mbase.isLt
  have bound := addr.isLt
  unfold inPmem
  rw [decide_eq_true_iff, BitVec.lt_def, BitVec.toNat_sub]
  omega

/-- The word around an address in physical memory lies in physical memory. -/
theorem wordAddress_inPmem
    {cfg : Config}
    {addr : Word}
    (inside : inPmem cfg addr = true) :
    cfg.mbase.toNat ≤ (wordAddress addr).toNat ∧
      (wordAddress addr).toNat + 4 ≤ cfg.mbase.toNat + cfg.msize.toNat := by
  have window := (inPmem_iff cfg addr).mp inside
  have base := cfg.mbase_aligned
  have size := cfg.msize_aligned
  rw [toNat_wordAddress, wordOffset_eq_mod]
  omega

/-- All bytes of an access lie in physical memory. -/
def BytesInPmem (cfg : Config) (addr : Word) (width : Nat) : Prop :=
  ∀ index, index < width → inPmem cfg (addr + BitVec.ofNat 32 index) = true

theorem BytesInPmem.access
    {cfg : Config}
    {addr : Word}
    {width : Nat}
    (inside : BytesInPmem cfg addr width)
    (positive : 0 < width) :
    accessInPmem cfg addr width = true := by
  have first := inside 0 positive
  have last := inside (width - 1) (by omega)
  have same : addr + BitVec.ofNat 32 width - 1 = addr + BitVec.ofNat 32 (width - 1) := by
    obtain ⟨count, rfl⟩ := Nat.exists_eq_succ_of_ne_zero positive.ne'
    rw [Nat.succ_sub_one, Nat.succ_eq_add_one, BitVec.ofNat_add, ← BitVec.add_assoc]
    exact BitVec.add_sub_cancel _ _
  rw [accessInPmem, same, last, Bool.and_true]
  simpa using first

end OpenGPU
