import OpenGPU.Cycle.Model
import OpenGPU.Iss.Step
import OpenGPU.Platform.Bytes

/-!
# One memory access in both models

The simulator reads and writes the bytes at the address itself. The cycle model
works on the word around the address: a load shifts the word down, a store
shifts the value up and hands a byte mask to `store_ref`. Neither looks at a
second word.
-/

namespace OpenGPU

/-! ## Words of the copy -/

/-- The memory of the cycle model as `cycle_diff_begin` copies it. -/
def ShadowMemory.of (cfg : Config) (pmem : Pmem) : ShadowMemory := ⟨pmem, cfg.msize.toNat⟩

/-- A word of the copy. -/
theorem load32_of
    {cfg : Config}
    {addr : Word}
    (pmem : Pmem)
    (inside : inPmem cfg addr = true) :
    load32 cfg (ShadowMemory.of cfg pmem) (wordAddress addr) =
      littleEndian (fun index => pmem (wordAddress addr + BitVec.ofNat 32 index)) 4 := by
  obtain ⟨above, below⟩ := wordAddress_inPmem inside
  unfold load32
  rw [if_neg]
  · rfl
  · rintro (outside | outside)
    · exact absurd (BitVec.lt_def.mp outside) (by omega)
    · exact absurd outside (Nat.not_lt.mpr below)

/-- Bytes past the offset of an address are bytes of its word. -/
theorem add_ofNat_eq_wordAddress
    (addr : Word)
    (index : Nat) :
    addr + BitVec.ofNat 32 index = wordAddress addr + BitVec.ofNat 32 (wordOffset addr + index) := by
  rw [BitVec.ofNat_add, ← BitVec.add_assoc, wordAddress_add_wordOffset]

/-! ## Loads -/

/-- Widths of the legal loads. -/
theorem loadWidth_cases
    {f3 : Word}
    {width : Nat}
    (legal : Iss.loadWidth f3 = some width) :
    (f3 = 0 ∧ width = 1) ∨ (f3 = 4 ∧ width = 1) ∨ (f3 = 1 ∧ width = 2) ∨
      (f3 = 5 ∧ width = 2) ∨ (f3 = 2 ∧ width = 4) := by
  unfold Iss.loadWidth at legal
  split_ifs at legal with one two four
  · rcases one with rfl | rfl
    · exact Or.inl ⟨rfl, (Option.some.inj legal).symm⟩
    · exact Or.inr (Or.inl ⟨rfl, (Option.some.inj legal).symm⟩)
  · rcases two with rfl | rfl
    · exact Or.inr (Or.inr (Or.inl ⟨rfl, (Option.some.inj legal).symm⟩))
    · exact Or.inr (Or.inr (Or.inr (Or.inl ⟨rfl, (Option.some.inj legal).symm⟩)))
  · exact Or.inr (Or.inr (Or.inr (Or.inr ⟨four, (Option.some.inj legal).symm⟩)))

/-- Exactly the word load takes four bytes. -/
theorem loadWidth_word_iff
    {f3 : Word}
    {width : Nat}
    (legal : Iss.loadWidth f3 = some width) :
    f3 = 2 ↔ width = 4 := by
  rcases loadWidth_cases legal with ⟨rfl, rfl⟩ | ⟨rfl, rfl⟩ | ⟨rfl, rfl⟩ | ⟨rfl, rfl⟩ | ⟨rfl, rfl⟩ <;>
    decide

/-- `LB`. -/
theorem extendLoad_byte (raw : Word) : Iss.extendLoad 0 raw = signExtend raw 8 :=
  if_pos rfl

/-- `LH`. -/
theorem extendLoad_half (raw : Word) : Iss.extendLoad 1 raw = signExtend raw 16 := by
  unfold Iss.extendLoad
  rw [if_neg (by decide), if_pos rfl]

/-- The other loads do not extend. -/
theorem extendLoad_of_ne
    {f3 : Word}
    (raw : Word)
    (noByte : f3 ≠ 0)
    (noHalf : f3 ≠ 1) :
    Iss.extendLoad f3 raw = raw := by
  unfold Iss.extendLoad
  rw [if_neg noByte, if_neg noHalf]

/-- The low bytes of a load are those of the raw value. -/
theorem wordByte_extendLoad
    {f3 : Word}
    {width index : Nat}
    (legal : Iss.loadWidth f3 = some width)
    (raw : Word)
    (inside : index < width) :
    wordByte (Iss.extendLoad f3 raw) index = wordByte raw index := by
  rcases loadWidth_cases legal with ⟨rfl, rfl⟩ | ⟨rfl, rfl⟩ | ⟨rfl, rfl⟩ | ⟨rfl, rfl⟩ | ⟨rfl, rfl⟩
  · rw [extendLoad_byte]
    exact wordByte_signExtend raw 1 (by decide) inside
  · rw [extendLoad_of_ne raw (by decide) (by decide)]
  · rw [extendLoad_half]
    exact wordByte_signExtend raw 2 (by decide) inside
  · rw [extendLoad_of_ne raw (by decide) (by decide)]
  · rw [extendLoad_of_ne raw (by decide) (by decide)]

/-- Loads return the same value when all their bytes are the same. -/
theorem extendLoad_littleEndian_iff
    {f3 : Word}
    {width : Nat}
    (legal : Iss.loadWidth f3 = some width)
    (left right : Nat → Byte) :
    Iss.extendLoad f3 (littleEndian left width) =
        Iss.extendLoad f3 (littleEndian right width) ↔
      ∀ index, index < width → left index = right index := by
  have fits : width ≤ 4 := by
    rcases loadWidth_cases legal with h | h | h | h | h <;> omega
  constructor
  · intro same index inside
    have sameByte := congrArg (fun value => wordByte value index) same
    simp only [wordByte_extendLoad legal _ inside, wordByte_littleEndian _ fits,
      if_pos inside] at sameByte
    exact sameByte
  · intro same
    rw [littleEndian_congr same]

/-- The byte that the cycle model takes for byte `index` of a load. -/
def wordLoadByte (pmem : Pmem) (addr f3 : Word) (index : Nat) : Byte :=
  if f3 = 2 then pmem (wordAddress addr + BitVec.ofNat 32 index)
  else if wordOffset addr + index < 4 then pmem (addr + BitVec.ofNat 32 index)
  else 0

/-- The value that the cycle model loads, byte by byte. -/
theorem loadValue_of
    {cfg : Config}
    {addr f3 : Word}
    {width : Nat}
    (pmem : Pmem)
    (inside : inPmem cfg addr = true)
    (legal : Iss.loadWidth f3 = some width) :
    Core.loadValue cfg (ShadowMemory.of cfg pmem) addr f3 =
      Iss.extendLoad f3 (littleEndian (wordLoadByte pmem addr f3) width) := by
  have cases := loadWidth_cases legal
  have raw := load32_of pmem inside
  have amount : Core.byteShift addr = 8 * wordOffset addr := Nat.mul_comm _ _
  have shiftedByte : f3 ≠ 2 → ∀ index, index < 4 →
      wordByte (littleEndian (fun index => pmem (wordAddress addr + BitVec.ofNat 32 index)) 4 >>>
        (8 * wordOffset addr)) index = wordLoadByte pmem addr f3 index := by
    intro narrow index _
    rw [wordByte_shiftRight, wordByte_littleEndian _ (le_refl 4), wordLoadByte, if_neg narrow,
      Nat.add_comm index]
    split_ifs
    · exact congrArg pmem (add_ofNat_eq_wordAddress addr index).symm
    · rfl
  have bytes : f3 ≠ 2 → littleEndian (wordLoadByte pmem addr f3) width =
      littleEndian (wordByte (littleEndian
        (fun index => pmem (wordAddress addr + BitVec.ofNat 32 index)) 4 >>>
          (8 * wordOffset addr))) width := fun narrow =>
    littleEndian_congr fun index small => (shiftedByte narrow index (by omega)).symm
  unfold Core.loadValue
  rw [show addr &&& ~~~3 = wordAddress addr from rfl, raw, amount]
  rcases cases with ⟨rfl, rfl⟩ | ⟨rfl, rfl⟩ | ⟨rfl, rfl⟩ | ⟨rfl, rfl⟩ | ⟨rfl, rfl⟩
  · rw [bytes (by decide), extendLoad_byte, if_pos rfl]
    exact (signExtend_littleEndian _ 1 (by decide) (by decide)).symm
  · rw [bytes (by decide), extendLoad_of_ne _ (by decide) (by decide), if_neg (by decide),
      if_neg (by decide), if_neg (by decide), if_pos rfl]
    exact (littleEndian_wordByte_one _).symm
  · rw [bytes (by decide), extendLoad_half, if_neg (by decide), if_pos rfl]
    exact (signExtend_littleEndian _ 2 (by decide) (by decide)).symm
  · rw [bytes (by decide), extendLoad_of_ne _ (by decide) (by decide), if_neg (by decide),
      if_neg (by decide), if_neg (by decide), if_neg (by decide), if_pos rfl]
    exact (littleEndian_wordByte_two _).symm
  · rw [extendLoad_of_ne _ (by decide) (by decide), if_neg (by decide), if_neg (by decide),
      if_pos rfl]
    exact littleEndian_congr fun index _ => (if_pos rfl).symm

/-- A load gives the same value in both models. -/
def LoadAgrees (cfg : Config) (pmem : Pmem) (addr f3 : Word) : Prop :=
  Iss.loadMem cfg pmem addr f3 =
    some (Core.loadValue cfg (ShadowMemory.of cfg pmem) addr f3, false)

/-- A load that the simulator cannot tell from the one of the cycle model: it
stays in one word, or it is a halfword at the end of a word with a zero byte
behind it, or it is an unaligned word with the bytes of the aligned one. -/
def LoadCondition (pmem : Pmem) (addr : Word) (width : Nat) : Prop :=
  wordOffset addr + width ≤ 4 ∨ (width = 2 ∧ pmem (addr + 1) = 0) ∨
    (width = 4 ∧ ∀ index, index < 4 →
      pmem (addr + BitVec.ofNat 32 index) = pmem (wordAddress addr + BitVec.ofNat 32 index))

theorem loadAgrees_iff
    {cfg : Config}
    {addr f3 : Word}
    {width : Nat}
    (pmem : Pmem)
    (legal : Iss.loadWidth f3 = some width)
    (inside : BytesInPmem cfg addr width) :
    LoadAgrees cfg pmem addr f3 ↔ LoadCondition pmem addr width := by
  have cases := loadWidth_cases legal
  have positive : 0 < width := by omega
  have first : inPmem cfg addr = true := by simpa using inside 0 positive
  have simulator : Iss.loadMem cfg pmem addr f3 =
      some (Iss.extendLoad f3
        (littleEndian (fun index => pmem (addr + BitVec.ofNat 32 index)) width), false) := by
    rw [Iss.loadMem, legal]
    show (paddrRead cfg pmem addr width).map _ = _
    rw [paddrRead, if_pos (inside.access positive)]
    rfl
  rw [LoadAgrees, simulator, loadValue_of pmem first legal, Option.some_inj, Prod.mk.injEq,
    extendLoad_littleEndian_iff legal, and_iff_left rfl]
  constructor
  · intro same
    rw [LoadCondition, or_iff_not_imp_left]
    intro crosses
    have offset := wordOffset_lt addr
    rcases cases with ⟨_, rfl⟩ | ⟨_, rfl⟩ | ⟨rfl, rfl⟩ | ⟨rfl, rfl⟩ | ⟨rfl, rfl⟩
    · exact absurd crosses (by omega)
    · exact absurd crosses (by omega)
    · have last := same 1 (by decide)
      rw [wordLoadByte, if_neg (by decide), if_neg (by omega)] at last
      exact Or.inl ⟨rfl, last⟩
    · have last := same 1 (by decide)
      rw [wordLoadByte, if_neg (by decide), if_neg (by omega)] at last
      exact Or.inl ⟨rfl, last⟩
    · refine Or.inr ⟨rfl, fun index small => ?_⟩
      have sameByte := same index small
      rw [wordLoadByte, if_pos rfl] at sameByte
      exact sameByte
  · intro condition index small
    have word := loadWidth_word_iff legal
    rw [wordLoadByte]
    split_ifs with wide aligned
    · rcases condition with straight | ⟨half, _⟩ | ⟨_, bytes⟩
      · have full := word.mp wide
        have zero : wordOffset addr = 0 := by omega
        rw [add_ofNat_eq_wordAddress, zero, Nat.zero_add]
      · exact absurd (half.symm.trans (word.mp wide)) (by decide)
      · exact bytes index (word.mp wide ▸ small)
    · rfl
    · rcases condition with straight | ⟨half, zero⟩ | ⟨full, _⟩
      · exact absurd aligned (by omega)
      · have offset := wordOffset_lt addr
        have second : index = 1 := by omega
        rw [second]
        exact zero
      · exact absurd (word.mpr full) wide

/-! ## Stores -/

/-- The transaction of one lane's store, as `cycle_diff_step` builds it. -/
def storeTransaction (addr value f3 : Word) : Store where
  addr := wordAddress addr
  data := value <<< Core.byteShift addr
  mask := (Model.byteMask f3 addr).setWidth 8

/-- What a core with a store in `MEM_REQ` presents is such a transaction. -/
theorem captureStore_of_active
    {cfg : Config}
    {c : Core}
    (presents : c.ctaActive ∧ c.state = .memReq ∧ hasLane c.im c.mt ∧
      Instruction.opcode c.inst = 0x23) :
    Model.captureStore cfg c =
      some (storeTransaction (c.memoryAddress cfg)
        (c.laneRegister cfg c.mt (Instruction.rs2 c.inst)) (Instruction.funct3 c.inst)) :=
  if_pos presents

/-- One byte of a transaction inside the copy of physical memory. -/
theorem storeByte_of
    {cfg : Config}
    {s : Store}
    {index : Nat}
    (pmem : Pmem)
    (above : cfg.mbase.toNat ≤ s.addr.toNat)
    (below : s.addr.toNat + index < cfg.mbase.toNat + cfg.msize.toNat) :
    Model.storeByte cfg s (ShadowMemory.of cfg pmem) index =
      ShadowMemory.of cfg
        (if hasLane s.mask index then
          Function.update pmem (s.addr + BitVec.ofNat 32 index) (wordByte s.data index)
        else pmem) := by
  have target : BitVec.ofNat 32 (s.addr.toNat + index) = s.addr + BitVec.ofNat 32 index := by
    rw [BitVec.ofNat_add, BitVec.ofNat_toNat, BitVec.setWidth_eq]
  have window : ¬(s.addr.toNat + index < cfg.mbase.toNat ∨
      cfg.mbase.toNat + (ShadowMemory.of cfg pmem).size ≤ s.addr.toNat + index) := by
    show ¬(_ ∨ cfg.mbase.toNat + cfg.msize.toNat ≤ _)
    omega
  unfold Model.storeByte
  cases hasLane s.mask index with
  | false => rfl
  | true =>
      rw [if_pos rfl, if_pos rfl, if_neg window, target]
      rfl

/-- The bytes after the first `count` bytes of a transaction. -/
def storedBytes (s : Store) (pmem : Pmem) (count : Nat) : Pmem := fun target =>
  if (target - s.addr).toNat < count ∧ hasLane s.mask (target - s.addr).toNat then
    wordByte s.data (target - s.addr).toNat
  else pmem target

/-- A byte further extends the bytes that are stored. -/
theorem storedBytes_succ
    (s : Store)
    (pmem : Pmem)
    {count : Nat}
    (small : count < 4) :
    storedBytes s pmem (count + 1) =
      if hasLane s.mask count then
        Function.update (storedBytes s pmem count) (s.addr + BitVec.ofNat 32 count)
          (wordByte s.data count)
      else storedBytes s pmem count := by
  funext target
  have here : target = s.addr + BitVec.ofNat 32 count ↔ (target - s.addr).toNat = count := by
    rw [BitVec.add_comm, ← BitVec.sub_eq_iff_eq_add, ← BitVec.toNat_inj, BitVec.toNat_ofNat,
      Nat.mod_eq_of_lt (by omega)]
  unfold storedBytes
  split_ifs <;> grind

/-- `store_ref` of a transaction whose word lies in physical memory. -/
theorem storeRef_of
    {cfg : Config}
    {s : Store}
    (pmem : Pmem)
    (above : cfg.mbase.toNat ≤ s.addr.toNat)
    (below : s.addr.toNat + 4 ≤ cfg.mbase.toNat + cfg.msize.toNat) :
    Model.storeRef cfg (ShadowMemory.of cfg pmem) s =
      ShadowMemory.of cfg (storedBytes s pmem 4) := by
  have prefixes : ∀ count, count ≤ 4 →
      (List.range count).foldl (Model.storeByte cfg s) (ShadowMemory.of cfg pmem) =
        ShadowMemory.of cfg (storedBytes s pmem count) := by
    intro count
    induction count with
    | zero =>
        intro _
        have none : storedBytes s pmem 0 = pmem := by
          funext target
          exact if_neg fun stored => absurd stored.1 (Nat.not_lt_zero _)
        rw [none]
        rfl
    | succ count inductionHypothesis =>
        intro small
        rw [List.range_succ, List.foldl_append, inductionHypothesis (by omega), List.foldl_cons,
          List.foldl_nil, storeByte_of _ above (by omega), storedBytes_succ s pmem (by omega)]
  exact prefixes 4 (le_refl 4)

/-- Widths of the legal stores. -/
theorem storeWidth_cases
    {f3 : Word}
    {width : Nat}
    (legal : Iss.storeWidth f3 = some width) :
    (f3 = 0 ∧ width = 1) ∨ (f3 = 1 ∧ width = 2) ∨ (f3 = 2 ∧ width = 4) := by
  unfold Iss.storeWidth at legal
  split_ifs at legal with one two four
  · exact Or.inl ⟨one, (Option.some.inj legal).symm⟩
  · exact Or.inr (Or.inl ⟨two, (Option.some.inj legal).symm⟩)
  · exact Or.inr (Or.inr ⟨four, (Option.some.inj legal).symm⟩)

/-- The bytes of its word that a transaction stores. -/
theorem hasLane_storeTransaction
    {addr f3 : Word}
    {width index : Nat}
    (legal : Iss.storeWidth f3 = some width)
    (value : Word)
    (inWord : index < 4) :
    hasLane (storeTransaction addr value f3).mask index = true ↔
      width = 4 ∨ (wordOffset addr ≤ index ∧ index < wordOffset addr + width) := by
  have offset := wordOffset_lt addr
  rw [storeTransaction, hasLane_eq_getLsbD, BitVec.getLsbD_setWidth,
    decide_eq_true (show index < 8 by omega), Bool.true_and, Model.byteMask,
    show (addr &&& 3).toNat = wordOffset addr from rfl]
  rcases storeWidth_cases legal with ⟨rfl, rfl⟩ | ⟨rfl, rfl⟩ | ⟨rfl, rfl⟩
  · rw [if_pos rfl]
    generalize wordOffset addr = start at offset
    interval_cases start <;> interval_cases index <;> decide
  · rw [if_neg (by decide), if_pos rfl]
    generalize wordOffset addr = start at offset
    interval_cases start <;> interval_cases index <;> decide
  · rw [if_neg (by decide), if_neg (by decide)]
    refine iff_of_true ?_ (Or.inl rfl)
    interval_cases index <;> rfl

/-- Distances from an address, counted from its word. -/
theorem toNat_sub_of_wordAddress
    (addr : Word)
    {place : Nat}
    (small : place < 2 ^ 32) :
    (wordAddress addr + BitVec.ofNat 32 place - addr).toNat =
      if wordOffset addr ≤ place then place - wordOffset addr
      else 2 ^ 32 + place - wordOffset addr := by
  have split := wordAddress_add_wordOffset addr
  have offset := wordOffset_lt addr
  have cancel : ∀ start ahead behind : Word,
      start + ahead - (start + behind) = ahead - behind := by
    intro start ahead behind
    rw [BitVec.sub_eq_iff_eq_add, BitVec.add_comm start behind, ← BitVec.add_assoc,
      BitVec.sub_add_cancel, BitVec.add_comm]
  have distance := cancel (wordAddress addr) (BitVec.ofNat 32 place)
    (BitVec.ofNat 32 (wordOffset addr))
  rw [split] at distance
  rw [distance, BitVec.toNat_sub, BitVec.toNat_ofNat, BitVec.toNat_ofNat]
  split_ifs <;> omega

/-- What the simulator leaves at a place counted from the word of the address. -/
theorem writeBytes_at
    (pmem : Pmem)
    (addr value : Word)
    {width place : Nat}
    (fits : width ≤ 4)
    (small : place < 2 ^ 32) :
    writeBytes pmem addr width value (wordAddress addr + BitVec.ofNat 32 place) =
      if wordOffset addr ≤ place ∧ place < wordOffset addr + width then
        wordByte value (place - wordOffset addr)
      else pmem (wordAddress addr + BitVec.ofNat 32 place) := by
  have offset := wordOffset_lt addr
  unfold writeBytes
  rw [toNat_sub_of_wordAddress addr small]
  rcases Nat.lt_or_ge place (wordOffset addr) with behind | ahead
  · rw [if_neg (Nat.not_le.mpr behind),
      if_neg (show ¬2 ^ 32 + place - wordOffset addr < width by omega),
      if_neg fun written => absurd written.1 (Nat.not_le.mpr behind)]
  · rw [if_pos ahead]
    exact if_congr (by omega) rfl rfl

/-- What the transaction leaves there. -/
theorem storedBytes_at
    {addr f3 : Word}
    {width place : Nat}
    (pmem : Pmem)
    (legal : Iss.storeWidth f3 = some width)
    (value : Word)
    (small : place < 2 ^ 32) :
    storedBytes (storeTransaction addr value f3) pmem 4
        (wordAddress addr + BitVec.ofNat 32 place) =
      if place < 4 ∧ (width = 4 ∨
          (wordOffset addr ≤ place ∧ place < wordOffset addr + width)) then
        if place < wordOffset addr then 0 else wordByte value (place - wordOffset addr)
      else pmem (wordAddress addr + BitVec.ofNat 32 place) := by
  have distance : (wordAddress addr + BitVec.ofNat 32 place -
      (storeTransaction addr value f3).addr).toNat = place := by
    show (wordAddress addr + BitVec.ofNat 32 place - wordAddress addr).toNat = place
    rw [BitVec.add_comm, BitVec.add_sub_cancel, BitVec.toNat_ofNat, Nat.mod_eq_of_lt small]
  unfold storedBytes
  rw [distance]
  rcases Nat.lt_or_ge place 4 with inWord | beyond
  · have moved : wordByte (storeTransaction addr value f3).data place =
        if place < wordOffset addr then 0 else wordByte value (place - wordOffset addr) := by
      rw [← wordByte_shiftLeft value (wordOffset addr) inWord, Nat.mul_comm]
      rfl
    rw [moved]
    exact if_congr (and_congr_right' (hasLane_storeTransaction legal value inWord)) rfl rfl
  · rw [if_neg fun stored => absurd stored.1 (Nat.not_lt.mpr beyond),
      if_neg fun stored => absurd stored.1 (Nat.not_lt.mpr beyond)]

/-- Every address is some place counted from a given word. -/
theorem exists_place
    (addr target : Word) :
    ∃ place, place < 2 ^ 32 ∧ target = wordAddress addr + BitVec.ofNat 32 place := by
  refine ⟨(target - wordAddress addr).toNat, BitVec.isLt _, ?_⟩
  rw [BitVec.ofNat_toNat, BitVec.setWidth_eq, BitVec.add_comm, BitVec.sub_add_cancel]

/-- A store leaves the same memory in both models. -/
def StoreAgrees (cfg : Config) (pmem : Pmem) (addr value f3 : Word) : Prop :=
  Iss.storeMem cfg pmem addr value f3 =
    some ((Model.storeRef cfg (ShadowMemory.of cfg pmem) (storeTransaction addr value f3)).bytes,
      false)

/-- A store that both models carry out alike: it stays in one word, or it is a
halfword at the end of a word with its upper byte stored already, or it is an
unaligned word with zeros before it in its first word and its upper bytes stored
already. -/
def StoreCondition (pmem : Pmem) (addr value : Word) (width : Nat) : Prop :=
  wordOffset addr + width ≤ 4 ∨ (width = 2 ∧ pmem (addr + 1) = wordByte value 1) ∨
    (width = 4 ∧
      (∀ index, index < wordOffset addr → pmem (wordAddress addr + BitVec.ofNat 32 index) = 0) ∧
      ∀ index, index < 4 → 4 ≤ wordOffset addr + index →
        pmem (addr + BitVec.ofNat 32 index) = wordByte value index)

theorem storeAgrees_iff
    {cfg : Config}
    {addr f3 : Word}
    {width : Nat}
    (pmem : Pmem)
    (value : Word)
    (legal : Iss.storeWidth f3 = some width)
    (inside : BytesInPmem cfg addr width) :
    StoreAgrees cfg pmem addr value f3 ↔ StoreCondition pmem addr value width := by
  have cases := storeWidth_cases legal
  have offset := wordOffset_lt addr
  have positive : 0 < width := by omega
  have first : inPmem cfg addr = true := by simpa using inside 0 positive
  have simulator : Iss.storeMem cfg pmem addr value f3 =
      some (writeBytes pmem addr width value, false) := by
    rw [Iss.storeMem, legal]
    show (paddrWrite cfg pmem addr width value).map _ = _
    rw [paddrWrite, if_pos (inside.access positive)]
    rfl
  obtain ⟨above, below⟩ := wordAddress_inPmem first
  have reference : (Model.storeRef cfg (ShadowMemory.of cfg pmem)
      (storeTransaction addr value f3)).bytes =
        storedBytes (storeTransaction addr value f3) pmem 4 := by
    rw [storeRef_of pmem above below]
    rfl
  rw [StoreAgrees, simulator, reference, Option.some_inj, Prod.mk.injEq, and_iff_left rfl]
  constructor
  · intro same
    have samePlace : ∀ place, place < 2 ^ 32 → _ := fun place small =>
      (writeBytes_at pmem addr value (by omega) small).symm.trans
        ((congrFun same _).trans (storedBytes_at pmem legal value small))
    rw [StoreCondition, or_iff_not_imp_left]
    intro crosses
    rcases cases with ⟨_, rfl⟩ | ⟨_, rfl⟩ | ⟨_, rfl⟩
    · exact absurd crosses (by omega)
    · have last := samePlace 4 (by decide)
      rw [if_pos (by omega), if_neg (by omega)] at last
      have second : 4 = wordOffset addr + 1 := by omega
      refine Or.inl ⟨rfl, ?_⟩
      rw [show (1 : Word) = BitVec.ofNat 32 1 from rfl, add_ofNat_eq_wordAddress, ← second, ← last,
        second, Nat.add_sub_cancel_left]
    · refine Or.inr ⟨rfl, fun index before => ?_, fun index small beyond => ?_⟩
      · have skipped := samePlace index (by omega)
        rw [if_neg (by omega), if_pos (by omega), if_pos before] at skipped
        exact skipped
      · have dropped := samePlace (wordOffset addr + index) (by omega)
        rw [if_pos (by omega), if_neg (by omega), Nat.add_sub_cancel_left] at dropped
        rw [add_ofNat_eq_wordAddress, ← dropped]
  · intro condition
    funext target
    obtain ⟨place, small, rfl⟩ := exists_place addr target
    rw [writeBytes_at pmem addr value (by omega) small, storedBytes_at pmem legal value small]
    split_ifs with written stored before stored before
    · exact absurd written.1 (Nat.not_le.mpr before)
    · rfl
    -- the simulator alone writes a byte past the word
    · have distance : addr + BitVec.ofNat 32 (place - wordOffset addr) =
          wordAddress addr + BitVec.ofNat 32 place := by
        rw [add_ofNat_eq_wordAddress, Nat.add_sub_cancel' written.1]
      rcases condition with straight | ⟨half, last⟩ | ⟨full, _, dropped⟩
      · exact absurd stored (by omega)
      · have second : place - wordOffset addr = 1 := by omega
        rw [← distance, second]
        exact last.symm
      · rw [← distance]
        exact (dropped _ (by omega) (by omega)).symm
    -- the cycle model alone writes a byte before the address
    · rcases condition with straight | ⟨half, _⟩ | ⟨_, skipped, _⟩
      · exact absurd before (by omega)
      · exact absurd stored (by omega)
      · exact skipped place before
    · exact absurd written (by omega)
    · rfl

/-! ## Both kinds of access -/

/-- A load, or a store of a value. -/
inductive Access
  | load (f3 : Word)
  | store (f3 value : Word)

namespace Access

/-- Width of a legal access. -/
def width : Access → Option Nat
  | load f3 => Iss.loadWidth f3
  | store f3 _ => Iss.storeWidth f3

/-- The simulator and the cycle model carry the access out alike. -/
def Agrees (cfg : Config) (pmem : Pmem) (addr : Word) : Access → Prop
  | load f3 => LoadAgrees cfg pmem addr f3
  | store f3 value => StoreAgrees cfg pmem addr value f3

/-- The access stays in one word, or the bytes hide that it does not. -/
def WordLocal (pmem : Pmem) (addr : Word) (width : Nat) : Access → Prop
  | load _ => LoadCondition pmem addr width
  | store _ value => StoreCondition pmem addr value width

end Access

/-- For every memory, every legal access and every address whose bytes lie in
physical memory: the simulator and the cycle model agree if and only if the
access does not cross a word boundary, the few memories apart in which the
crossing has no effect. -/
theorem access_agrees_iff
    {cfg : Config}
    {addr : Word}
    {access : Access}
    {width : Nat}
    (pmem : Pmem)
    (legal : access.width = some width)
    (inside : BytesInPmem cfg addr width) :
    access.Agrees cfg pmem addr ↔ access.WordLocal pmem addr width := by
  cases access with
  | load f3 => exact loadAgrees_iff pmem legal inside
  | store f3 value => exact storeAgrees_iff pmem value legal inside

/-- An aligned `SW` at the start of physical memory. -/
theorem access_agrees_aligned :
    (Access.store 2 0x12345678).Agrees Config.onePair (fun _ => 0) 0x80000000 := by
  have inside : BytesInPmem Config.onePair 0x80000000 4 := by
    unfold BytesInPmem
    decide
  exact (access_agrees_iff (fun _ => 0) rfl inside).mpr (Or.inl (by decide))

/-- An `LW` one byte into physical memory: the simulator reads bytes 1 to 4, the
cycle model bytes 0 to 3. -/
theorem not_access_agrees_unaligned :
    ¬(Access.load 2).Agrees Config.onePair (fun addr => addr.setWidth 8) 0x80000001 := by
  have inside : BytesInPmem Config.onePair 0x80000001 4 := by
    unfold BytesInPmem
    decide
  intro agrees
  rcases (loadAgrees_iff _ rfl inside).mp agrees with straight | ⟨half, _⟩ | ⟨_, bytes⟩
  · exact absurd straight (by decide)
  · exact absurd half (by decide)
  · exact absurd (bytes 0 (by decide)) (by decide)

end OpenGPU
