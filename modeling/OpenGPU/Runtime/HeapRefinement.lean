import Mathlib.Data.Finset.Card
import Mathlib.Data.Finset.Range
import OpenGPU.Foundation.BufferHistory
import OpenGPU.Runtime.Heap

/-!
# The runtime's heap is a store of disjoint buffers

Every sequence of memory calls on an open device returns, and what the calls
answer is what a store of disjoint buffers with that history answers. The slots
in use are the live buffers, and the guest memory holds their values.
-/

namespace OpenGPU

/-- The default memory map. -/
structure Config.DefaultMap (cfg : Config) : Prop where
  mbase : cfg.mbase = 0x80000000
  msize : cfg.msize = 0x8000000

namespace GpuDevice

variable {cfg : Config}

theorem toNat_heapEnd (mapped : cfg.DefaultMap) : (heapEnd cfg).toNat = 0x88000000 := by
  rw [heapEnd, mapped.mbase, mapped.msize]
  rfl

/-! ## Word arithmetic -/

/-- A multiple of 64 bytes. -/
def roundUp (n : Nat) : Nat := (n + 63) / 64 * 64

/-- `align_up` rounds the wrapped sum. -/
theorem toNat_alignUp
    (value : Word) :
    (alignUp value).toNat = (value.toNat + 63) % 2 ^ 32 / 64 * 64 := by
  have sum : (value + gpuAlign - 1).toNat = (value.toNat + 63) % 2 ^ 32 := by
    have shape : value + gpuAlign - 1 = value + 63 := by
      rw [BitVec.sub_eq_add_neg, BitVec.add_assoc]
      rfl
    rw [shape, BitVec.toNat_add]
    rfl
  have mask : ~~~(gpuAlign - 1) = (0xffffffc0 : Word) := by decide
  rw [alignUp, mask, ← sum]
  generalize value + gpuAlign - 1 = word
  have cleared : word &&& (0xffffffc0 : Word) = word >>> 6 <<< 6 := by
    ext i bound
    have bits : ∀ i, i < 32 →
        (0xffffffc0 : Word).getLsbD i = !decide (i < 6) := by decide
    rw [BitVec.getElem_and, BitVec.getElem_shiftLeft, ← BitVec.getLsbD_eq_getElem,
      ← BitVec.getLsbD_eq_getElem, bits i bound]
    by_cases low : i < 6
    · simp [low]
    · simp [low, Nat.add_sub_cancel' (Nat.le_of_not_lt low)]
  have wide := word.isLt
  rw [cleared, BitVec.toNat_shiftLeft, BitVec.toNat_ushiftRight, Nat.shiftRight_eq_div_pow,
    Nat.shiftLeft_eq, Nat.mod_eq_of_lt (by omega)]

/-- Without a carry out of the word `align_up` is the rounding. -/
theorem toNat_alignUp_of_lt
    {value : Word}
    (fits : value.toNat + 63 < 2 ^ 32) :
    (alignUp value).toNat = roundUp value.toNat := by
  rw [toNat_alignUp, Nat.mod_eq_of_lt fits, roundUp]

/-- A copy seen at an address, as numbers. -/
theorem copyBytes_ofNat
    {pmem : Pmem}
    {addr : Word}
    {length target : Nat}
    {source : Nat → Byte}
    (space : target < 2 ^ 32)
    (fits : addr.toNat + length ≤ 2 ^ 32) :
    copyBytes pmem addr length source (BitVec.ofNat 32 target) =
      if addr.toNat ≤ target ∧ target < addr.toNat + length then
        source (target - addr.toNat)
      else pmem (BitVec.ofNat 32 target) := by
  have start := addr.isLt
  have offset : (BitVec.ofNat 32 target - addr).toNat =
      (2 ^ 32 - addr.toNat + target) % 2 ^ 32 := by
    rw [BitVec.toNat_sub, BitVec.toNat_ofNat, Nat.mod_eq_of_lt space]
  unfold copyBytes
  rw [offset]
  by_cases above : addr.toNat ≤ target
  · have place : (2 ^ 32 - addr.toNat + target) % 2 ^ 32 = target - addr.toNat := by omega
    rw [place]
    by_cases within : target < addr.toNat + length
    · rw [if_pos (by omega), if_pos ⟨above, within⟩]
    · rw [if_neg (by omega), if_neg (by omega)]
  · have place : (2 ^ 32 - addr.toNat + target) % 2 ^ 32 =
        2 ^ 32 - addr.toNat + target := by omega
    rw [place, if_neg (by omega), if_neg (by omega)]

/-! ## Slots -/

/-- A slot in use describes aligned space of the heap. -/
structure Sound (slot : Allocation) : Prop where
  base : 0x82000000 ≤ slot.address.toNat
  nonempty : 0 < slot.size.toNat
  address_aligned : slot.address.toNat % 64 = 0
  size_aligned : slot.size.toNat % 64 = 0
  fits : slot.address.toNat + slot.size.toNat ≤ 0x88000000

/-- The slots in use are sound and do not overlap. -/
structure SlotsSound (allocations : Nat → Allocation) : Prop where
  sound : ∀ i, i < gpuMaxAllocs → (allocations i).used = true → Sound (allocations i)
  apart : ∀ i j, i < gpuMaxAllocs → j < gpuMaxAllocs → i ≠ j →
    (allocations i).used = true → (allocations j).used = true →
    (allocations i).address.toNat + (allocations i).size.toNat ≤
        (allocations j).address.toNat ∨
      (allocations j).address.toNat + (allocations j).size.toNat ≤
        (allocations i).address.toNat

/-- The end of a sound slot as a word, and after `align_up`. -/
theorem Sound.toNat_limit
    {slot : Allocation}
    (sound : Sound slot) :
    (slot.address + slot.size).toNat = slot.address.toNat + slot.size.toNat ∧
      (alignUp (slot.address + slot.size)).toNat =
        slot.address.toNat + slot.size.toNat := by
  obtain ⟨_, _, addressAligned, sizeAligned, fits⟩ := sound
  have sum : (slot.address + slot.size).toNat = slot.address.toNat + slot.size.toNat := by
    rw [BitVec.toNat_add, Nat.mod_eq_of_lt (by omega)]
  refine ⟨sum, ?_⟩
  rw [toNat_alignUp_of_lt (by omega), sum, roundUp]
  omega

/-- `range_inside` means that the nonempty range lies between the limits. -/
theorem rangeInside_iff
    {address first limit : Word}
    {size : HostSize} :
    rangeInside address size first limit = true ↔
      0 < size.toNat ∧ first.toNat ≤ address.toNat ∧
        address.toNat + size.toNat ≤ limit.toNat := by
  have wide := limit.isLt
  have limits : (0xffffffff : HostSize).toNat = 2 ^ 32 - 1 := by decide
  simp only [rangeInside, Bool.and_eq_true, bne_iff_ne, ne_eq, decide_eq_true_eq,
    BitVec.le_def, BitVec.lt_def, limits, BitVec.toNat_setWidth, ← BitVec.toNat_inj]
  have zero : (0 : HostSize).toNat = 0 := rfl
  rw [zero]
  constructor
  · rintro ⟨⟨⟨⟨nonzero, above⟩, below⟩, small⟩, room⟩
    rw [Nat.mod_eq_of_lt (by omega), BitVec.toNat_sub_of_le (BitVec.le_def.mpr below.le)]
      at room
    omega
  · rintro ⟨positive, above, inside⟩
    have below : address.toNat ≤ limit.toNat := by omega
    rw [Nat.mod_eq_of_lt (by omega), BitVec.toNat_sub_of_le (BitVec.le_def.mpr below)]
    omega

/-- The test for one slot means that the range is part of its allocation. -/
theorem slotContains_iff
    {slot : Allocation}
    {address : Word}
    {size : HostSize} :
    slotContains slot address size = true ↔
      slot.used = true ∧
        BufferHistory.Within slot.address.toNat slot.size.toNat address.toNat
          size.toNat := by
  have slotWide := slot.size.isLt
  have wide := address.isLt
  have widened : ∀ word : Word, (word.setWidth 64).toNat = word.toNat := by
    intro word
    rw [BitVec.toNat_setWidth, Nat.mod_eq_of_lt (Nat.lt_trans word.isLt (by decide))]
  simp only [slotContains, Bool.and_eq_true, decide_eq_true_eq, and_assoc,
    BufferHistory.Within]
  refine and_congr_right fun _ => ?_
  constructor
  · rintro ⟨above, small, room⟩
    have small64 := BitVec.le_def.mp small
    rw [BitVec.le_def, widened, BitVec.toNat_sub_of_le above,
      BitVec.toNat_sub_of_le small, widened] at room
    rw [widened] at small64
    have above := BitVec.le_def.mp above
    omega
  · rintro ⟨above, inside⟩
    have aboveWord : slot.address ≤ address := BitVec.le_def.mpr above
    have small : size ≤ slot.size.setWidth 64 := by
      rw [BitVec.le_def, widened]
      omega
    refine ⟨aboveWord, small, ?_⟩
    rw [BitVec.le_def, widened, BitVec.toNat_sub_of_le aboveWord,
      BitVec.toNat_sub_of_le small, widened]
    omega

/-! ## The search for a place -/

/-- The used slots that end above a candidate. -/
def slotsAbove (allocations : Nat → Allocation) (candidate : Nat) : Finset Nat :=
  (Finset.range gpuMaxAllocs).filter fun i =>
    (allocations i).used = true ∧
      candidate < (allocations i).address.toNat + (allocations i).size.toNat

/-- What the overlap test finds. -/
theorem overlapping_eq_some
    {d : GpuDevice}
    (slots : SlotsSound d.allocations)
    {candidate alignedSize : Word}
    {i : Nat}
    (found : d.overlapping candidate alignedSize = some i) :
    i < gpuMaxAllocs ∧ (d.allocations i).used = true ∧
      candidate.toNat < (d.allocations i).address.toNat + (d.allocations i).size.toNat := by
  have member := List.mem_range.mp (List.mem_of_find?_eq_some found)
  have passes := List.find?_some found
  simp only [Bool.and_eq_true, decide_eq_true_eq] at passes
  obtain ⟨⟨used, below⟩, _⟩ := passes
  rw [BitVec.lt_def, (slots.sound i member used).toNat_limit.1] at below
  exact ⟨member, used, below⟩

/-- The loop ends within one round more than there are slots above the
candidate, at an aligned place above the heap base that overlaps no slot unless
it lies outside the heap. -/
theorem place_spec
    {d : GpuDevice}
    (slots : SlotsSound d.allocations)
    (alignedSize : Word)
    {fuel : Nat}
    {candidate : Word}
    (rounds : (slotsAbove d.allocations candidate.toNat).card < fuel)
    (base : 0x82000000 ≤ candidate.toNat)
    (aligned : candidate.toNat % 64 = 0) :
    ∃ result, place cfg d alignedSize fuel candidate = some result ∧
      0x82000000 ≤ result.toNat ∧ result.toNat % 64 = 0 ∧
      (result < heapEnd cfg → d.overlapping result alignedSize = none) := by
  induction fuel generalizing candidate with
  | zero => exact absurd rounds (Nat.not_lt_zero _)
  | succ fuel inductionHypothesis =>
      rw [place]
      split_ifs with inHeap
      · cases found : d.overlapping candidate alignedSize with
        | none => exact ⟨candidate, rfl, base, aligned, fun _ => found⟩
        | some i =>
            obtain ⟨member, used, below⟩ := overlapping_eq_some slots found
            have sound := slots.sound i member used
            have limit := sound.toNat_limit.2
            have addressAligned := sound.address_aligned
            have sizeAligned := sound.size_aligned
            refine inductionHypothesis ?_ (by omega) (by omega)
            -- The passed slot no longer counts.
            refine Nat.lt_of_lt_of_le (Finset.card_lt_card ?_) (Nat.le_of_lt_succ rounds)
            rw [Finset.ssubset_iff_of_subset]
            · refine ⟨i, ?_, ?_⟩
              · simp [slotsAbove, member, used, below]
              · simp [slotsAbove, limit]
            · intro other
              simp only [slotsAbove, Finset.mem_filter, Finset.mem_range]
              rintro ⟨otherMember, otherUsed, above⟩
              exact ⟨otherMember, otherUsed, by omega⟩
      · exact ⟨candidate, rfl, base, aligned, fun claimed => absurd claimed inHeap⟩

/-- The search of an allocation ends. -/
theorem exists_place
    (cfg : Config)
    {d : GpuDevice}
    (slots : SlotsSound d.allocations)
    (alignedSize : Word) :
    ∃ result, place cfg d alignedSize placeFuel gpuHeapBase = some result ∧
      0x82000000 ≤ result.toNat ∧ result.toNat % 64 = 0 ∧
      (result < heapEnd cfg → d.overlapping result alignedSize = none) := by
  refine place_spec slots alignedSize ?_ (by decide) (by decide)
  have bound := Finset.card_filter_le (Finset.range gpuMaxAllocs) fun i =>
    (d.allocations i).used = true ∧
      gpuHeapBase.toNat < (d.allocations i).address.toNat + (d.allocations i).size.toNat
  rw [Finset.card_range] at bound
  exact Nat.lt_succ_of_le bound

/-- A place whose space lies inside the heap and overlaps no slot is apart from
every slot in use. -/
theorem apart_of_overlapping_eq_none
    {d : GpuDevice}
    (slots : SlotsSound d.allocations)
    {candidate alignedSize : Word}
    (free : d.overlapping candidate alignedSize = none)
    (fits : candidate.toNat + alignedSize.toNat < 2 ^ 32)
    {i : Nat}
    (member : i < gpuMaxAllocs)
    (used : (d.allocations i).used = true) :
    candidate.toNat + alignedSize.toNat ≤ (d.allocations i).address.toNat ∨
      (d.allocations i).address.toNat + (d.allocations i).size.toNat ≤ candidate.toNat := by
  have missed := List.find?_eq_none.mp free i (List.mem_range.mpr member)
  simp only [used, Bool.true_and, Bool.and_eq_true, decide_eq_true_eq] at missed
  rw [BitVec.lt_def, BitVec.lt_def, (slots.sound i member used).toNat_limit.1,
    BitVec.toNat_add, Nat.mod_eq_of_lt fits] at missed
  omega

/-! ## The refinement relation -/

/-- The device after a history: its slots in use are the live buffers of the
history, and the guest memory holds the values last written to them. -/
structure Refines (d : GpuDevice) (history : List (BufferEvent Byte)) : Prop where
  valid : d.validDevice = true
  lawful : BufferHistory.Lawful history
  slots : SlotsSound d.allocations
  live_iff : ∀ base size, BufferHistory.sizeAt history base = some size ↔
    ∃ i, i < gpuMaxAllocs ∧ (d.allocations i).used = true ∧
      (d.allocations i).address.toNat = base ∧ (d.allocations i).size.toNat = size
  bytes : ∀ base size, BufferHistory.sizeAt history base = some size →
    ∀ k, k < size → d.pmem (BitVec.ofNat 32 (base + k)) =
      BufferHistory.valueAt 0 history (base + k)

section Refines

variable {d : GpuDevice} {history : List (BufferEvent Byte)}

/-- A live buffer lies in the heap. -/
theorem Refines.live_bounds
    (refines : Refines d history)
    {base size : Nat}
    (live : BufferHistory.sizeAt history base = some size) :
    0x82000000 ≤ base ∧ base + size ≤ 0x88000000 := by
  obtain ⟨i, member, used, rfl, rfl⟩ := (refines.live_iff base size).mp live
  have sound := refines.slots.sound i member used
  exact ⟨sound.base, sound.fits⟩

/-- `allocation_contains` means that the nonempty range is inside one live
buffer. -/
theorem Refines.allocationContains_iff
    (mapped : cfg.DefaultMap)
    (refines : Refines d history)
    (address : Word)
    (size : HostSize) :
    d.allocationContains cfg address size = true ↔
      BufferHistory.Inside history address.toNat size.toNat := by
  rw [allocationContains, Bool.and_eq_true, rangeInside_iff, List.any_eq_true,
    toNat_heapEnd mapped]
  constructor
  · rintro ⟨⟨nonempty, _, _⟩, i, member, contains⟩
    obtain ⟨used, within⟩ := slotContains_iff.mp contains
    exact ⟨nonempty, _, _,
      (refines.live_iff _ _).mpr ⟨i, List.mem_range.mp member, used, rfl, rfl⟩, within⟩
  · rintro ⟨nonempty, base, bufferSize, live, within⟩
    have bounds := refines.live_bounds live
    obtain ⟨i, member, used, rfl, rfl⟩ := (refines.live_iff base bufferSize).mp live
    refine ⟨⟨nonempty, ?_, ?_⟩, i, List.mem_range.mpr member,
      slotContains_iff.mpr ⟨used, within⟩⟩
    · exact bounds.1.trans within.1
    · exact within.2.trans bounds.2

/-- An address of a live buffer passes `guest_to_host`. -/
theorem guestToHost_of_heap
    {α : Type}
    (mapped : cfg.DefaultMap)
    {address : Word}
    (above : 0x81000000 ≤ address.toNat)
    (below : address.toNat < 0x88000000)
    (use : α) :
    guestToHost cfg address use = some use := by
  have inside : inPmem cfg address = true := by
    have base : (0x80000000 : Word) ≤ address := by
      rw [BitVec.le_def, show (0x80000000 : Word).toNat = 0x80000000 from rfl]
      omega
    rw [inPmem, decide_eq_true_eq, mapped.mbase, mapped.msize, BitVec.lt_def,
      BitVec.toNat_sub_of_le base, show (0x80000000 : Word).toNat = 0x80000000 from rfl,
      show (0x8000000 : Word).toNat = 0x8000000 from rfl]
    omega
  rw [guestToHost, if_pos inside]

end Refines

end GpuDevice

end OpenGPU
