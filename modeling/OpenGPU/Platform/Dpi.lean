import OpenGPU.Platform.Bytes

/-!
# Physical memory behind the RTL

The functions that the simulated memories of all backends call, outside DiffTest.
Every store goes through `paddr_write` byte by byte, which asserts that the byte
is in physical memory; a load elsewhere reads zero.
-/

namespace OpenGPU

/-- `dpi_paddr_read`. -/
def dpiPaddrRead (cfg : Config) (pmem : Pmem) (addr : Word) : Option Word :=
  if inPmem cfg addr then paddrRead cfg pmem addr 4 else some 0

/-- One byte of `dpi_paddr_write`. -/
def dpiWriteByte (cfg : Config) (addr : Word) (mask : BitVec 8) (data : Word) (pmem : Pmem)
    (byte : Nat) : Option Pmem :=
  if mask.getLsbD byte then
    paddrWrite cfg pmem (addr + BitVec.ofNat 32 byte) 1 ((data >>> (8 * byte)) &&& 0xff)
  else some pmem

/-- `dpi_paddr_write`. -/
def dpiPaddrWrite (cfg : Config) (pmem : Pmem) (addr : Word) (mask : BitVec 8) (data : Word) :
    Option Pmem :=
  (List.range 4).foldlM (dpiWriteByte cfg addr mask data) pmem

/-! ## Aligned words -/

/-- The word that an aligned load reads. -/
def pmemWord (cfg : Config) (pmem : Pmem) (addr : Word) : Word :=
  if inPmem cfg addr then littleEndian (fun index => pmem (addr + BitVec.ofNat 32 index)) 4 else 0

/-- The memory after the bytes of a word under a mask. -/
def maskedWrite (pmem : Pmem) (addr : Word) (mask : BitVec 8) (data : Word) : Pmem :=
  fun place =>
    if (place - addr).toNat < 4 ∧ mask.getLsbD (place - addr).toNat = true then
      wordByte data (place - addr).toNat
    else pmem place

/-- The bytes of a word are all in physical memory or all outside. -/
theorem inPmem_add
    (cfg : Config)
    (addr : Word)
    {byte : Nat}
    (inWord : byte < 4) :
    inPmem cfg (wordAddress addr + BitVec.ofNat 32 byte) = inPmem cfg (wordAddress addr) := by
  have base := cfg.mbase_aligned
  have size := cfg.msize_aligned
  have aligned : (wordAddress addr).toNat % 4 = 0 := by
    rw [toNat_wordAddress, wordOffset_eq_mod]
    omega
  have bound := (wordAddress addr).isLt
  have fits := cfg.pmem_fits
  rw [Bool.eq_iff_iff, inPmem_iff, inPmem_iff, BitVec.toNat_add, BitVec.toNat_ofNat,
    Nat.mod_eq_of_lt (show byte < 2 ^ 32 by omega), Nat.mod_eq_of_lt (by omega)]
  omega

/-- The four places of a word are those with its address. -/
theorem sub_wordAddress_lt_iff
    (place addr : Word) :
    (place - wordAddress addr).toNat < 4 ↔ wordAddress place = wordAddress addr := by
  have aligned : (wordAddress addr).toNat % 4 = 0 := by
    rw [toNat_wordAddress, wordOffset_eq_mod]
    omega
  have bound := (wordAddress addr).isLt
  have inRange := place.isLt
  constructor
  · intro near
    apply BitVec.eq_of_toNat_eq
    rw [BitVec.toNat_sub] at near
    rw [toNat_wordAddress place, wordOffset_eq_mod]
    omega
  · intro same
    have whole := wordAddress_add_wordOffset place
    have small := wordOffset_lt place
    rw [same] at whole
    have offset : place - wordAddress addr = BitVec.ofNat 32 (wordOffset place) := by
      rw [BitVec.sub_eq_iff_eq_add, BitVec.add_comm]
      exact whole.symm
    rw [offset, BitVec.toNat_ofNat]
    omega

/-- A load of an aligned word does not assert. -/
theorem dpiPaddrRead_word
    (cfg : Config)
    (pmem : Pmem)
    (addr : Word) :
    dpiPaddrRead cfg pmem (wordAddress addr) = some (pmemWord cfg pmem (wordAddress addr)) := by
  unfold dpiPaddrRead pmemWord
  cases inside : inPmem cfg (wordAddress addr) with
  | false => rfl
  | true =>
      have bytes : BytesInPmem cfg (wordAddress addr) 4 := fun index inWord =>
        (inPmem_add cfg addr inWord).trans inside
      rw [if_pos rfl, if_pos rfl, paddrRead, if_pos (bytes.access (by decide))]

/-- A place is byte `byte` of a word. -/
theorem sub_eq_iff
    (place addr : Word)
    {byte : Nat}
    (inWord : byte < 4) :
    (place - (addr + BitVec.ofNat 32 byte)).toNat < 1 ↔ (place - addr).toNat = byte := by
  have small : (BitVec.ofNat 32 byte).toNat = byte := by
    rw [BitVec.toNat_ofNat, Nat.mod_eq_of_lt (by omega)]
  have zero : ∀ distance : Word, distance.toNat = 0 ↔ distance = 0#32 := fun distance =>
    ⟨fun nothing => BitVec.eq_of_toNat_eq nothing, fun nothing => by rw [nothing]; rfl⟩
  rw [Nat.lt_one_iff, zero]
  constructor
  · intro here
    rw [← BitVec.sub_sub, BitVec.sub_eq_iff_eq_add] at here
    rw [here, BitVec.zero_add, small]
  · intro here
    have offset : place - addr = BitVec.ofNat 32 byte := by
      apply BitVec.eq_of_toNat_eq
      rw [here, small]
    rw [← BitVec.sub_sub, offset, BitVec.sub_self]

/-- The memory after the first bytes of a masked write. -/
def writtenUpTo (pmem : Pmem) (addr : Word) (mask : BitVec 8) (data : Word) (count : Nat) :
    Pmem :=
  fun place =>
    if (place - addr).toNat < count ∧ mask.getLsbD (place - addr).toNat = true then
      wordByte data (place - addr).toNat
    else pmem place

/-- A byte that is not enabled is not written. -/
theorem writtenUpTo_succ
    {mask : BitVec 8}
    {byte : Nat}
    (disabled : mask.getLsbD byte = false)
    (pmem : Pmem)
    (addr data : Word) :
    writtenUpTo pmem addr mask data (byte + 1) = writtenUpTo pmem addr mask data byte := by
  funext place
  refine if_congr ?_ rfl rfl
  constructor
  · rintro ⟨below, masked⟩
    refine ⟨Nat.lt_of_le_of_ne (Nat.le_of_lt_succ below) fun here => ?_, masked⟩
    rw [here, disabled] at masked
    exact Bool.false_ne_true masked
  · exact fun both => ⟨Nat.lt_succ_of_lt both.1, both.2⟩

/-- Byte `byte` of a write is not enabled, or in physical memory. -/
def byteFits (cfg : Config) (addr : Word) (mask : BitVec 8) (byte : Nat) : Bool :=
  !mask.getLsbD byte || inPmem cfg (addr + BitVec.ofNat 32 byte)

/-- One byte of a write. -/
theorem dpiWriteByte_writtenUpTo
    {cfg : Config}
    {addr : Word}
    (pmem : Pmem)
    (mask : BitVec 8)
    (data : Word)
    {byte : Nat}
    (inWord : byte < 4) :
    dpiWriteByte cfg addr mask data (writtenUpTo pmem addr mask data byte) byte =
      if byteFits cfg addr mask byte then some (writtenUpTo pmem addr mask data (byte + 1))
      else none := by
  have access : accessInPmem cfg (addr + BitVec.ofNat 32 byte) 1 =
      inPmem cfg (addr + BitVec.ofNat 32 byte) := by
    rw [accessInPmem, show BitVec.ofNat 32 1 = (1 : Word) from rfl, BitVec.add_sub_cancel,
      Bool.and_self]
  have value : wordByte ((data >>> (8 * byte)) &&& 0xff) 0 = wordByte data byte := by
    rw [wordByte_and, wordByte_shiftRight, Nat.zero_add,
      show wordByte 0xff 0 = BitVec.allOnes 8 from rfl, BitVec.and_allOnes]
  unfold dpiWriteByte byteFits
  cases enabled : mask.getLsbD byte with
  | false =>
      rw [writtenUpTo_succ enabled]
      rfl
  | true =>
      rw [if_pos rfl, paddrWrite, access, Bool.not_true, Bool.false_or]
      refine ite_congr rfl (fun _ => congrArg some (funext fun place => ?_)) fun _ => rfl
      unfold writeBytes writtenUpTo
      rcases eq_or_ne (place - addr).toNat byte with here | elsewhere
      · have first := (sub_eq_iff place addr inWord).mpr here
        rw [if_pos first, Nat.lt_one_iff.mp first, value,
          if_pos ⟨by omega, by rw [here, enabled]⟩, here]
      · rw [if_neg (mt (sub_eq_iff place addr inWord).mp elsewhere)]
        exact if_congr (and_congr_left fun _ => by omega) rfl rfl

/-- The first bytes of a write. -/
theorem foldlM_dpiWriteByte
    {cfg : Config}
    {addr : Word}
    (pmem : Pmem)
    (mask : BitVec 8)
    (data : Word)
    {count : Nat}
    (inWord : count ≤ 4) :
    (List.range count).foldlM (dpiWriteByte cfg addr mask data) pmem =
      if (List.range count).all (byteFits cfg addr mask) then
        some (writtenUpTo pmem addr mask data count)
      else none := by
  induction count with
  | zero =>
      refine congrArg some (funext fun place => (if_neg ?_).symm)
      exact fun both => Nat.not_lt_zero _ both.1
  | succ count inductionHypothesis =>
      rw [List.range_succ, List.foldlM_append, inductionHypothesis (Nat.le_of_succ_le inWord),
        List.all_append, List.all_cons, List.all_nil, Bool.and_true]
      cases (List.range count).all (byteFits cfg addr mask) with
      | false => rfl
      | true =>
          rw [if_pos rfl, Option.bind_eq_bind, Option.bind_some, List.foldlM_cons,
            dpiWriteByte_writtenUpTo pmem mask data inWord, Bool.true_and]
          cases byteFits cfg addr mask count <;> rfl

/-- A store asserts unless every enabled byte is in physical memory, and writes the
bytes under the mask. -/
theorem dpiPaddrWrite_eq
    (cfg : Config)
    (pmem : Pmem)
    (addr : Word)
    (mask : BitVec 8)
    (data : Word) :
    dpiPaddrWrite cfg pmem addr mask data =
      if (List.range 4).all (byteFits cfg addr mask) then some (maskedWrite pmem addr mask data)
      else none :=
  foldlM_dpiWriteByte pmem mask data (Nat.le_refl 4)

/-- A store to a word in physical memory writes the bytes under the mask. -/
theorem dpiPaddrWrite_inside
    {cfg : Config}
    {addr : Word}
    (pmem : Pmem)
    (mask : BitVec 8)
    (data : Word)
    (inside : inPmem cfg (wordAddress addr) = true) :
    dpiPaddrWrite cfg pmem (wordAddress addr) mask data =
      some (maskedWrite pmem (wordAddress addr) mask data) := by
  rw [dpiPaddrWrite_eq, if_pos]
  rw [List.all_eq_true]
  intro byte inWord
  rw [byteFits, inPmem_add cfg addr (List.mem_range.mp inWord), inside, Bool.or_true]

/-- A store to a word outside physical memory asserts unless no byte is enabled. -/
theorem dpiPaddrWrite_outside
    {cfg : Config}
    {addr : Word}
    (pmem : Pmem)
    (mask : BitVec 8)
    (data : Word)
    (outside : inPmem cfg (wordAddress addr) = false) :
    dpiPaddrWrite cfg pmem (wordAddress addr) mask data =
      if (List.range 4).any (fun byte => mask.getLsbD byte) then none else some pmem := by
  have fits : (List.range 4).all (byteFits cfg (wordAddress addr) mask) =
      !(List.range 4).any fun byte => mask.getLsbD byte := by
    rw [List.not_any_eq_all_not, Bool.eq_iff_iff, List.all_eq_true, List.all_eq_true]
    refine forall₂_congr fun byte inWord => ?_
    rw [byteFits, inPmem_add cfg addr (List.mem_range.mp inWord), outside, Bool.or_false]
  rw [dpiPaddrWrite_eq, fits]
  cases enabled : (List.range 4).any fun byte => mask.getLsbD byte with
  | true => rfl
  | false =>
      -- no byte is written
      refine congrArg some (funext fun place => if_neg fun both => ?_)
      have quiet := List.any_eq_false.mp enabled _ (List.mem_range.mpr both.1)
      exact quiet both.2

/-- A store leaves everything outside physical memory alone. -/
theorem dpiPaddrWrite_frame
    {cfg : Config}
    {pmem after : Pmem}
    {addr data : Word}
    {mask : BitVec 8}
    (wrote : dpiPaddrWrite cfg pmem addr mask data = some after)
    {place : Word}
    (outside : inPmem cfg place = false) :
    after place = pmem place := by
  rw [dpiPaddrWrite_eq] at wrote
  split_ifs at wrote with fits
  cases wrote
  refine if_neg ?_
  rintro ⟨inWord, enabled⟩
  have inside := List.all_eq_true.mp fits _ (List.mem_range.mpr inWord)
  rw [byteFits, enabled, BitVec.ofNat_toNat, BitVec.setWidth_eq, BitVec.add_comm,
    BitVec.sub_add_cancel, outside] at inside
  exact Bool.noConfusion inside

end OpenGPU
