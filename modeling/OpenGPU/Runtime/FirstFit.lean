import OpenGPU.Backend.VerilogNetlist
import OpenGPU.Foundation.FirstFit
import OpenGPU.Runtime.LaunchStates

/-!
# The runtime's heap is an exact first fit

`gpu_mem_alloc` on any memory map with room for a heap. The table is in no order, since
slots that were freed are used again, and the sums of the overlap test can wrap around.
Still the call fails only when no slot or no place is left, and otherwise takes the
lowest place.
-/

namespace OpenGPU

/-- A memory map whose upper part is a heap. -/
structure Config.HeapMap (cfg : Config) : Prop where
  below : cfg.mbase.toNat ≤ GpuDevice.gpuHeapBase.toNat
  above : GpuDevice.gpuHeapBase.toNat ≤ cfg.mbase.toNat + cfg.msize.toNat
  noWrap : cfg.mbase.toNat + cfg.msize.toNat < 2 ^ 32

/-- The bytes of an allocation. -/
def Allocation.segment (slot : Allocation) : Segment := ⟨slot.address.toNat, slot.size.toNat⟩

namespace GpuDevice

open Segment

variable {cfg : Config}

/-- The bytes that are in use. -/
def liveSegments (allocations : Nat → Allocation) : Finset Segment :=
  ((Finset.range gpuMaxAllocs).filter fun i => (allocations i).used = true).image
    fun i => (allocations i).segment

/-- A place in the heap for a request of `size` bytes, rounded up, that overlaps no live
allocation. -/
structure Room (cfg : Config) (d : GpuDevice) (size base : Nat) : Prop where
  heap : gpuHeapBase.toNat ≤ base
  aligned : 64 ∣ base
  fits : base + roundUp size ≤ cfg.mbase.toNat + cfg.msize.toNat
  free : Free (liveSegments d.allocations) (roundUp size) base

/-- A slot that is not in use. -/
def HasSlot (d : GpuDevice) : Prop := ∃ i, i < gpuMaxAllocs ∧ (d.allocations i).used = false

/-- Live entries are aligned segments of the heap. -/
structure EntrySound (cfg : Config) (slot : Allocation) : Prop where
  base : gpuHeapBase.toNat ≤ slot.address.toNat
  nonempty : 0 < slot.size.toNat
  address_aligned : 64 ∣ slot.address.toNat
  size_aligned : 64 ∣ slot.size.toNat
  fits : slot.segment.limit ≤ cfg.mbase.toNat + cfg.msize.toNat

/-- Live entries are sound and pairwise disjoint. -/
structure TableSound (cfg : Config) (allocations : Nat → Allocation) : Prop where
  sound : ∀ i, i < gpuMaxAllocs → (allocations i).used = true → EntrySound cfg (allocations i)
  apart : ∀ i j, i < gpuMaxAllocs → j < gpuMaxAllocs → i ≠ j →
    (allocations i).used = true → (allocations j).used = true →
    Segment.Apart (allocations i).segment (allocations j).segment

/-- The tables that any sequence of calls can leave: opening and closing the device
empties the table, and the other calls allocate and free. -/
inductive ReachableTable (cfg : Config) : (Nat → Allocation) → Prop
  | empty : ReachableTable cfg fun _ => ⟨0, 0, false⟩
  | alloc {d after : GpuDevice} {size : HostSize} {address : Bool} {answer : Except GpuError Word}
      (reachable : ReachableTable cfg d.allocations)
      (called : gpuMemAlloc cfg size address d = some (answer, after)) :
      ReachableTable cfg after.allocations
  | free {d : GpuDevice} (address : Word) (reachable : ReachableTable cfg d.allocations) :
      ReachableTable cfg (gpuMemFree address d).2.allocations

/-- What a call with a proper request of `size` bytes does: it returns; it succeeds
exactly when a slot and a place are left; it takes the lowest place, for the rounded
request, and clears it; and a failure changes nothing. -/
structure AllocatesFirstFit (cfg : Config) (d : GpuDevice) (size : HostSize) : Prop where
  returns : (gpuMemAlloc cfg size true d).isSome = true
  succeeds_iff : (∃ base after, gpuMemAlloc cfg size true d = some (.ok base, after)) ↔
    d.HasSlot ∧ ∃ base, Room cfg d size.toNat base
  lowest : ∀ base after, gpuMemAlloc cfg size true d = some (.ok base, after) →
    IsLeast {base | Room cfg d size.toNat base} base.toNat ∧
      ∃ slot, slot < gpuMaxAllocs ∧ (d.allocations slot).used = false ∧ after =
        { d with
          allocations := Function.update d.allocations slot
            ⟨base, BitVec.ofNat 32 (roundUp size.toNat), true⟩
          pmem := copyBytes d.pmem base (roundUp size.toNat) fun _ => 0 }
  unchanged : ∀ error after, gpuMemAlloc cfg size true d = some (.error error, after) →
    error = .outOfMemory ∧ after = d

/-- The live entries are aligned disjoint parts of the heap, and every proper request is
served by an exact first fit. -/
structure ExactFirstFit (cfg : Config) (d : GpuDevice) : Prop where
  table : TableSound cfg d.allocations
  allocates : ∀ size : HostSize, d.validDevice = true → 0 < size.toNat → size.toNat < 2 ^ 32 →
    AllocatesFirstFit cfg d size

/-! ## The search -/

theorem toNat_heapEnd_of_heapMap
    (mapped : cfg.HeapMap) :
    (heapEnd cfg).toNat = cfg.mbase.toNat + cfg.msize.toNat := by
  rw [heapEnd, BitVec.toNat_add]
  exact Nat.mod_eq_of_lt mapped.noWrap

theorem mem_liveSegments
    {allocations : Nat → Allocation}
    {block : Segment} :
    block ∈ liveSegments allocations ↔
      ∃ i, i < gpuMaxAllocs ∧ (allocations i).used = true ∧ (allocations i).segment = block := by
  simp only [liveSegments, Finset.mem_image, Finset.mem_filter, Finset.mem_range, and_assoc]

/-- The end of a live entry as a word, and after `align_up`. -/
theorem EntrySound.toNat_limit
    {slot : Allocation}
    (mapped : cfg.HeapMap)
    (sound : EntrySound cfg slot) :
    (slot.address + slot.size).toNat = slot.segment.limit ∧
      (alignUp (slot.address + slot.size)).toNat = slot.segment.limit := by
  have noWrap := mapped.noWrap
  have fits : slot.address.toNat + slot.size.toNat ≤ cfg.mbase.toNat + cfg.msize.toNat := sound.fits
  have addressAligned := sound.address_aligned
  have sizeAligned := sound.size_aligned
  have sum : (slot.address + slot.size).toNat = slot.segment.limit := by
    rw [BitVec.toNat_add, Nat.mod_eq_of_lt (by omega)]
    rfl
  refine ⟨sum, ?_⟩
  have limit : slot.segment.limit = slot.address.toNat + slot.size.toNat := rfl
  rw [toNat_alignUp_of_lt (by omega), sum, roundUp]
  omega

section Search

variable {d : GpuDevice} (mapped : cfg.HeapMap) (table : TableSound cfg d.allocations)
include mapped table

/-- The overlap test finds a segment that is in the way. -/
theorem TableSound.inTheWay
    {candidate alignedSize : Word}
    {i : Nat}
    (found : d.overlapping candidate alignedSize = some i) :
    (d.allocations i).segment ∈ liveSegments d.allocations ∧
      ¬Segment.Apart ⟨candidate.toNat, alignedSize.toNat⟩ (d.allocations i).segment ∧
      (alignUp ((d.allocations i).address + (d.allocations i).size)).toNat =
        (d.allocations i).segment.limit := by
  have member := List.mem_range.mp (List.mem_of_find?_eq_some found)
  have passes := List.find?_some found
  simp only [Bool.and_eq_true, decide_eq_true_eq] at passes
  obtain ⟨⟨used, below⟩, above⟩ := passes
  obtain ⟨limit, aligned⟩ := (table.sound i member used).toNat_limit mapped
  rw [BitVec.lt_def, limit] at below
  rw [BitVec.lt_def, BitVec.toNat_add] at above
  have wraps := Nat.mod_le (candidate.toNat + alignedSize.toNat) (2 ^ 32)
  refine ⟨mem_liveSegments.mpr ⟨i, member, used, rfl⟩, ?_, aligned⟩
  rintro (before | behind)
  · exact Nat.not_lt_of_le before (above.trans_le wraps)
  · exact Nat.not_lt_of_le behind below

/-- If it finds none, a candidate whose end does not wrap around is free. -/
theorem TableSound.free_of_overlapping
    {candidate alignedSize : Word}
    (missed : d.overlapping candidate alignedSize = none)
    (fits : candidate.toNat + alignedSize.toNat < 2 ^ 32) :
    Free (liveSegments d.allocations) alignedSize.toNat candidate.toNat := by
  intro block member
  obtain ⟨i, inRange, used, rfl⟩ := mem_liveSegments.mp member
  have limit := ((table.sound i inRange used).toNat_limit mapped).1
  have missed := List.find?_eq_none.mp missed i (List.mem_range.mpr inRange)
  simp only [used, Bool.true_and, Bool.and_eq_true, decide_eq_true_eq, not_and] at missed
  rw [BitVec.lt_def, BitVec.lt_def, limit, BitVec.toNat_add, Nat.mod_eq_of_lt fits] at missed
  by_cases below : candidate.toNat < (d.allocations i).segment.limit
  · exact Or.inl (Nat.le_of_not_lt (missed below))
  · exact Or.inr (Nat.le_of_not_lt below)

/-- The loop is a search among the live segments, and it ends. -/
theorem TableSound.place_search
    (alignedSize : Word)
    {fuel : Nat}
    {candidate : Word}
    (rounds : (remaining (liveSegments d.allocations) candidate.toNat).card < fuel) :
    ∃ result, place cfg d alignedSize fuel candidate = some result ∧
      Search (liveSegments d.allocations) alignedSize.toNat candidate.toNat result.toNat ∧
      (result < heapEnd cfg → d.overlapping result alignedSize = none) := by
  induction fuel generalizing candidate with
  | zero => exact absurd rounds (Nat.not_lt_zero _)
  | succ fuel inductionHypothesis =>
      rw [place]
      split_ifs with inHeap
      · cases found : d.overlapping candidate alignedSize with
        | none => exact ⟨candidate, rfl, .stop _, fun _ => found⟩
        | some i =>
            obtain ⟨member, inTheWay, next⟩ := table.inTheWay mapped found
            have fewer := card_remaining_lt member inTheWay
            obtain ⟨result, placed, search, free⟩ := inductionHypothesis (by
              rw [next]
              omega)
            rw [next] at search
            exact ⟨result, placed, .skip member inTheWay search, free⟩
      · exact ⟨candidate, rfl, .stop _, fun claimed => absurd claimed inHeap⟩

/-- The search from the base of the heap on ends within `placeFuel` rounds. -/
theorem TableSound.exists_search
    (alignedSize : Word) :
    ∃ result, place cfg d alignedSize placeFuel gpuHeapBase = some result ∧
      Search (liveSegments d.allocations) alignedSize.toNat gpuHeapBase.toNat result.toNat ∧
      (result < heapEnd cfg → d.overlapping result alignedSize = none) := by
  apply table.place_search mapped
  have slots : (liveSegments d.allocations).card ≤ gpuMaxAllocs := by
    calc
      (liveSegments d.allocations).card
        ≤ ((Finset.range gpuMaxAllocs).filter fun i => (d.allocations i).used = true).card :=
          Finset.card_image_le
      _ ≤ (Finset.range gpuMaxAllocs).card := Finset.card_filter_le _ _
      _ = gpuMaxAllocs := Finset.card_range _
  exact Nat.lt_succ_of_le ((Finset.card_filter_le _ _).trans slots)

end Search

/-! ## The call -/

section Call

variable {d after : GpuDevice} {size : HostSize}

/-- A place of the heap passes `guest_to_host`. -/
theorem guestToHost_of_heapMap
    {α : Type}
    (mapped : cfg.HeapMap)
    {address : Word}
    (above : gpuHeapBase.toNat ≤ address.toNat)
    (below : address.toNat < cfg.mbase.toNat + cfg.msize.toNat)
    (use : α) :
    guestToHost cfg address use = some use := by
  have base : cfg.mbase ≤ address := BitVec.le_def.mpr (mapped.below.trans above)
  have inside : inPmem cfg address = true := by
    rw [inPmem, decide_eq_true_eq, BitVec.lt_def, BitVec.toNat_sub_of_le base]
    have start := BitVec.le_def.mp base
    omega
  rw [guestToHost, if_pos inside]

/-- The two comparisons with the end of the heap ask whether the space ends behind it. -/
theorem behind_heapEnd_iff
    (mapped : cfg.HeapMap)
    {base alignedSize : Word}
    (positive : 0 < alignedSize.toNat) :
    (heapEnd cfg ≤ base ∨ heapEnd cfg - base < alignedSize) ↔
      cfg.mbase.toNat + cfg.msize.toNat < base.toNat + alignedSize.toNat := by
  have heap := toNat_heapEnd_of_heapMap mapped
  by_cases outside : heapEnd cfg ≤ base
  · have above := BitVec.le_def.mp outside
    exact iff_of_true (Or.inl outside) (by omega)
  · have below := BitVec.lt_def.mp (BitVec.not_le.mp outside)
    rw [or_iff_right outside, BitVec.lt_def,
      BitVec.toNat_sub_of_le (BitVec.le_def.mpr below.le), heap]
    omega

/-- Where the search ends inside the heap, it is at the lowest place that there is. -/
theorem TableSound.isLeast_room
    (table : TableSound cfg d.allocations)
    {base : Nat}
    (search : Search (liveSegments d.allocations) (roundUp size.toNat) gpuHeapBase.toNat base)
    (free : Free (liveSegments d.allocations) (roundUp size.toNat) base)
    (fits : base + roundUp size.toNat ≤ cfg.mbase.toNat + cfg.msize.toNat) :
    IsLeast {base | Room cfg d size.toNat base} base := by
  have lowest := search.isLeast free
  have aligned : 64 ∣ base := by
    refine search.dvd (by decide) fun block member => ?_
    obtain ⟨i, inRange, used, rfl⟩ := mem_liveSegments.mp member
    have sound := table.sound i inRange used
    exact Nat.dvd_add sound.address_aligned sound.size_aligned
  exact ⟨⟨search.le, aligned, fits, free⟩, fun _ room => lowest.2 ⟨room.heap, room.free⟩⟩

/-- A call that finds the lowest place takes it; a call that fails has no slot or no
place, or the request is not proper. -/
theorem TableSound.gpuMemAlloc_cases
    (mapped : cfg.HeapMap)
    (table : TableSound cfg d.allocations)
    (size : HostSize)
    (address : Bool) :
    (∃ slot base,
        gpuMemAlloc cfg size address d = some (.ok base,
          { d with
            allocations := Function.update d.allocations slot
              ⟨base, BitVec.ofNat 32 (roundUp size.toNat), true⟩
            pmem := copyBytes d.pmem base (roundUp size.toNat) fun _ => 0 }) ∧
        slot < gpuMaxAllocs ∧ (d.allocations slot).used = false ∧ 0 < roundUp size.toNat ∧
        IsLeast {base | Room cfg d size.toNat base} base.toNat) ∨
      (gpuMemAlloc cfg size address d = some (.error .invalidArgument, d) ∧
        ¬(d.validDevice = true ∧ address = true ∧ 0 < size.toNat ∧ size.toNat < 2 ^ 32)) ∨
      (gpuMemAlloc cfg size address d = some (.error .outOfMemory, d) ∧
        ¬(d.HasSlot ∧ ∃ base, Room cfg d size.toNat base)) := by
  have limit : (0xffffffff : HostSize).toNat = 2 ^ 32 - 1 := by decide
  have heap := toNat_heapEnd_of_heapMap mapped
  have noWrap := mapped.noWrap
  unfold gpuMemAlloc
  split_ifs with rejected
  · refine Or.inr (Or.inl ⟨rfl, ?_⟩)
    rintro ⟨valid, named, positive, small⟩
    simp only [valid, named, Bool.not_true, Bool.or_false, Bool.false_or, Bool.or_eq_true,
      beq_iff_eq, decide_eq_true_eq, BitVec.lt_def, limit] at rejected
    rcases rejected with zero | large
    · rw [zero] at positive
      exact Nat.lt_irrefl 0 positive
    · omega
  simp only [Bool.or_eq_true, beq_iff_eq, decide_eq_true_eq, not_or] at rejected
  obtain ⟨⟨⟨_, _⟩, nonzero⟩, small⟩ := rejected
  extract_lets alignedSize
  have narrowed : (size.setWidth 32).toNat = size.toNat := by
    rw [BitVec.lt_def, limit] at small
    rw [BitVec.toNat_setWidth, Nat.mod_eq_of_lt (by omega)]
  split_ifs with wrapped
  · -- the rounded request does not fit into a word, let alone the heap
    refine Or.inr (Or.inr ⟨rfl, ?_⟩)
    rintro ⟨_, base, room⟩
    have fits := room.fits
    have rounded : alignedSize.toNat = (size.toNat + 63) % 2 ^ 32 / 64 * 64 := by
      rw [← narrowed]
      exact toNat_alignUp _
    rw [BitVec.lt_def, BitVec.toNat_setWidth,
      Nat.mod_eq_of_lt (Nat.lt_trans alignedSize.isLt (by decide)), rounded] at wrapped
    rw [roundUp] at fits
    omega
  obtain ⟨exactSize, positive⟩ := toNat_alignedSize nonzero small wrapped
  cases found : (List.range gpuMaxAllocs).find? fun i => !(d.allocations i).used with
  | none =>
      refine Or.inr (Or.inr ⟨rfl, ?_⟩)
      rintro ⟨⟨i, inRange, unused⟩, _⟩
      have used := List.find?_eq_none.mp found i (List.mem_range.mpr inRange)
      rw [unused] at used
      exact used rfl
  | some slot =>
      obtain ⟨base, placed, search, free⟩ := table.exists_search mapped alignedSize
      have sized : alignedSize.toNat = roundUp size.toNat := exactSize
      have atEnd := @behind_heapEnd_iff _ mapped base _ (sized ▸ positive)
      rw [sized] at search atEnd
      simp only [placed, Option.bind_some]
      split_ifs with noRoom
      · -- a place that fits would not lie below the one where the search stopped
        refine Or.inr (Or.inr ⟨rfl, ?_⟩)
        rintro ⟨_, other, room⟩
        have fits := room.fits
        have lowest := search.le_of_free room.heap room.free
        have behind := atEnd.mp noRoom
        omega
      · have fits := Nat.le_of_not_lt (mt atEnd.mpr noRoom)
        have below : base.toNat < cfg.mbase.toNat + cfg.msize.toNat := by omega
        have rounded : alignedSize = BitVec.ofNat 32 (roundUp size.toNat) := by
          rw [← sized, BitVec.ofNat_toNat, BitVec.setWidth_eq]
        have isFree := table.free_of_overlapping mapped
          (free (BitVec.not_le.mp (not_or.mp noRoom).1)) (by omega)
        rw [sized] at isFree
        refine Or.inl ⟨slot, base, ?_, List.mem_range.mp (List.mem_of_find?_eq_some found),
          by simpa using List.find?_some found, positive, table.isLeast_room search isFree fits⟩
        rw [guestToHost_of_heapMap mapped search.le below, ← rounded, ← sized]

/-- A place that was found is a sound entry apart from the live ones. -/
theorem TableSound.allocated
    (mapped : cfg.HeapMap)
    (table : TableSound cfg d.allocations)
    {slot : Nat}
    {base : Word}
    (positive : 0 < roundUp size.toNat)
    (room : Room cfg d size.toNat base.toNat) :
    TableSound cfg (Function.update d.allocations slot
      ⟨base, BitVec.ofNat 32 (roundUp size.toNat), true⟩) := by
  have fits := room.fits
  have noWrap := mapped.noWrap
  have exactSize : (BitVec.ofNat 32 (roundUp size.toNat)).toNat = roundUp size.toNat := by
    rw [BitVec.toNat_ofNat]
    exact Nat.mod_eq_of_lt (by omega)
  have free : ∀ i, i < gpuMaxAllocs → (d.allocations i).used = true →
      Segment.Apart ⟨base.toNat, (BitVec.ofNat 32 (roundUp size.toNat)).toNat⟩
        (d.allocations i).segment := by
    intro i inRange used
    rw [exactSize]
    exact room.free _ (mem_liveSegments.mpr ⟨i, inRange, used, rfl⟩)
  constructor
  · intro i inRange used
    rcases eq_or_ne i slot with rfl | other
    · rw [Function.update_self]
      refine ⟨room.heap, ?_, room.aligned, ?_, ?_⟩
      · show 0 < (BitVec.ofNat 32 (roundUp size.toNat)).toNat
        rw [exactSize]
        exact positive
      · show 64 ∣ (BitVec.ofNat 32 (roundUp size.toNat)).toNat
        rw [exactSize, roundUp]
        exact Nat.dvd_mul_left _ _
      · show base.toNat + (BitVec.ofNat 32 (roundUp size.toNat)).toNat ≤ _
        rw [exactSize]
        exact fits
    · rw [Function.update_of_ne other] at used ⊢
      exact table.sound i inRange used
  · intro i j first second different usedFirst usedSecond
    rcases eq_or_ne i slot with rfl | otherFirst
    · rw [Function.update_of_ne different.symm] at usedSecond ⊢
      rw [Function.update_self]
      exact free j second usedSecond
    · rw [Function.update_of_ne otherFirst] at usedFirst ⊢
      rcases eq_or_ne j slot with rfl | otherSecond
      · rw [Function.update_self]
        exact (free i first usedFirst).symm
      · rw [Function.update_of_ne otherSecond] at usedSecond ⊢
        exact table.apart i j first second different usedFirst usedSecond

/-- Slots that stay as they are stay sound, whichever others are given up. -/
theorem TableSound.of_kept
    {before left : Nat → Allocation}
    (table : TableSound cfg before)
    (kept : ∀ i, (left i).used = true → left i = before i) :
    TableSound cfg left := by
  constructor
  · intro i inRange used
    have same := kept i used
    rw [same] at used ⊢
    exact table.sound i inRange used
  · intro i j first second different usedFirst usedSecond
    have sameFirst := kept i usedFirst
    have sameSecond := kept j usedSecond
    rw [sameFirst] at usedFirst ⊢
    rw [sameSecond] at usedSecond ⊢
    exact table.apart i j first second different usedFirst usedSecond

/-- `gpu_mem_free` only gives up slots. -/
theorem TableSound.freed
    (table : TableSound cfg d.allocations)
    (address : Word) :
    TableSound cfg (gpuMemFree address d).2.allocations := by
  unfold gpuMemFree
  split_ifs
  · exact table
  · cases (List.range gpuMaxAllocs).find? fun i =>
        (d.allocations i).used && (d.allocations i).address == address with
    | none => exact table
    | some slot =>
        refine table.of_kept fun i used => ?_
        dsimp only at used ⊢
        rcases eq_or_ne i slot with rfl | other
        · rw [Function.update_self] at used
          exact Bool.noConfusion used
        · exact Function.update_of_ne other _ _

/-- Every table that calls can leave is sound. -/
theorem ReachableTable.sound
    (mapped : cfg.HeapMap)
    {allocations : Nat → Allocation}
    (reachable : ReachableTable cfg allocations) :
    TableSound cfg allocations := by
  induction reachable with
  | empty =>
      exact ⟨fun _ _ used => Bool.noConfusion used, fun _ _ _ _ _ used => Bool.noConfusion used⟩
  | @alloc d after size address answer _ called table =>
      rcases table.gpuMemAlloc_cases mapped size address with
        ⟨slot, base, allocated, _, _, positive, lowest⟩ | ⟨failed, _⟩ | ⟨failed, _⟩
      · rw [allocated] at called
        cases called
        exact table.allocated mapped positive lowest.1
      · rw [failed] at called
        cases called
        exact table
      · rw [failed] at called
        cases called
        exact table
  | free address _ table => exact table.freed address

/-- So does `gpu_mem_alloc` on every table that calls can leave. -/
theorem ReachableTable.exactFirstFit
    (mapped : cfg.HeapMap)
    (reachable : ReachableTable cfg d.allocations) :
    ExactFirstFit cfg d := by
  have table := reachable.sound mapped
  refine ⟨table, fun size valid positive small => ?_⟩
  rcases table.gpuMemAlloc_cases mapped size true with
    ⟨slot, base, allocated, inRange, unused, _, lowest⟩ | ⟨_, improper⟩ | ⟨failed, full⟩
  · have called : ∀ {answer after}, gpuMemAlloc cfg size true d = some (answer, after) →
        answer = .ok base ∧ after =
          { d with
            allocations := Function.update d.allocations slot
              ⟨base, BitVec.ofNat 32 (roundUp size.toNat), true⟩
            pmem := copyBytes d.pmem base (roundUp size.toNat) fun _ => 0 } := by
      intro answer after called
      rw [allocated] at called
      cases called
      exact ⟨rfl, rfl⟩
    constructor
    · rw [allocated]
      rfl
    · exact ⟨fun _ => ⟨⟨slot, inRange, unused⟩, _, lowest.1⟩, fun _ => ⟨base, _, allocated⟩⟩
    · intro other after returned
      obtain ⟨same, state⟩ := called returned
      cases same
      exact ⟨lowest, slot, inRange, unused, state⟩
    · intro error after returned
      cases (called returned).1
  · exact absurd ⟨valid, rfl, positive, small⟩ improper
  · constructor
    · rw [failed]
      rfl
    · refine ⟨?_, fun possible => absurd possible full⟩
      rintro ⟨base, after, returned⟩
      rw [failed] at returned
      cases returned
    · intro base after returned
      rw [failed] at returned
      cases returned
    · intro error after returned
      rw [failed] at returned
      cases returned
      exact ⟨rfl, rfl⟩

end Call

end GpuDevice

namespace Runtime

open GpuDevice

variable {V : VGPUTop} {cfg : Config} {build : Build} {r after : Runtime V}

/-- Memory calls lead to tables that calls can leave. -/
theorem reachableTable_heapCall
    {d after : GpuDevice}
    (reachable : ReachableTable cfg d.allocations)
    {call : HeapCall}
    {reply : HeapReply}
    (returned : heapCall cfg d call = some (reply, after)) :
    ReachableTable cfg after.allocations := by
  cases call with
  | alloc size address =>
      obtain ⟨result, ran, same⟩ := Option.map_eq_some_iff.mp returned
      cases same
      exact reachable.alloc ran
  | free address =>
      cases returned
      exact reachable.free address
  | write address source size =>
      obtain ⟨result, ran, same⟩ := Option.map_eq_some_iff.mp returned
      cases same
      unfold gpuMemWrite at ran
      cases source with
      | none =>
          cases ran
          exact reachable
      | some bytes =>
          dsimp only at ran
          unfold guestToHost at ran
          split_ifs at ran <;> cases ran <;> exact reachable
  | read destination address size =>
      obtain ⟨result, ran, same⟩ := Option.map_eq_some_iff.mp returned
      cases same
      unfold gpuMemRead guestToHost at ran
      split_ifs at ran <;> cases ran <;> exact reachable
  | load image size kernel calloc =>
      obtain ⟨result, ran, same⟩ := Option.map_eq_some_iff.mp returned
      cases same
      unfold gpuKernelLoadMemory at ran
      cases image with
      | none =>
          cases ran
          exact reachable
      | some bytes =>
          dsimp only at ran
          unfold guestToHost at ran
          split_ifs at ran <;> cases ran <;> exact reachable

/-- The models do not touch the table. -/
theorem allocations_runModels
    {ρ : Type}
    {act : Models V → PmemAction (ρ × Models V)}
    {answer : ρ}
    (ran : r.runModels act = some (answer, after)) :
    after.device.allocations = r.device.allocations := by
  obtain ⟨_, _, _, rfl⟩ := runModels_eq_some ran
  rfl

theorem reachableTable_releaseLaunchArgs
    (reachable : ReachableTable cfg r.device.allocations) :
    ReachableTable cfg r.releaseLaunchArgs.device.allocations := by
  unfold releaseLaunchArgs
  split_ifs
  · exact reachable.free _
  · exact reachable

theorem reachableTable_placeArgs
    (reachable : ReachableTable cfg r.device.allocations)
    {info : GpuLaunchInfo}
    {result : Except GpuError Unit}
    (ran : r.placeArgs cfg info = some (result, after)) :
    ReachableTable cfg after.device.allocations := by
  unfold placeArgs at ran
  dsimp only at ran
  split_ifs at ran
  · cases ran
    exact reachable
  · obtain ⟨⟨answer, allocated⟩, called, rest⟩ := Option.bind_eq_some_iff.mp ran
    have left := reachable.alloc called
    cases answer with
    | error code =>
        cases rest
        exact left
    | ok address =>
        dsimp only at rest
        unfold guestToHost at rest
        split_ifs at rest
        cases rest
        exact left

theorem reachableTable_startExecution
    (reachable : ReachableTable cfg r.device.allocations)
    {host : HostMemory}
    {result : GpuResult}
    (ran : r.startExecution cfg build host = some (result, after)) :
    ReachableTable cfg after.device.allocations := by
  obtain ⟨⟨started, launched⟩, ran, same⟩ := Option.map_eq_some_iff.mp ran
  rw [← allocations_runModels ran] at reachable
  dsimp only at same
  split_ifs at same <;> cases same
  · exact reachableTable_releaseLaunchArgs reachable
  · exact reachable

theorem reachableTable_runReference
    (reachable : ReachableTable cfg r.device.allocations)
    {host : HostMemory}
    {failure : Option GpuResult}
    (ran : r.runReference cfg build host = some (failure, after)) :
    ReachableTable cfg after.device.allocations := by
  unfold runReference at ran
  split_ifs at ran
  · cases ran
    exact reachableTable_releaseLaunchArgs reachable
  · obtain ⟨⟨done, referenced⟩, ran, same⟩ := Option.map_eq_some_iff.mp ran
    rw [← allocations_runModels ran] at reachable
    dsimp only at same
    split_ifs at same <;> cases same
    · exact reachableTable_releaseLaunchArgs reachable
    · exact reachable

theorem reachableTable_gpuLaunch
    (reachable : ReachableTable cfg r.device.allocations)
    {host : HostMemory}
    {kernel : Option GpuKernel}
    {info : Option GpuLaunchInfo}
    {result : GpuResult}
    (ran : r.gpuLaunch cfg build host kernel info = some (result, after)) :
    ReachableTable cfg after.device.allocations := by
  unfold gpuLaunch at ran
  split at ran
  next kernel info =>
    cases checked : r.launchChecks cfg kernel info with
    | none =>
        rw [checked] at ran
        cases ran
        exact reachable
    | some blockSize =>
        rw [checked] at ran
        obtain ⟨⟨result, prepared⟩, prepares, rest⟩ := Option.bind_eq_some_iff.mp ran
        have left : ReachableTable cfg prepared.device.allocations := by
          obtain ⟨placing, placed, argsPlaced, outcome⟩ := prepare_cases prepares
          have reached := reachableTable_placeArgs reachable argsPlaced
          rcases outcome with ⟨_, _, _, rfl⟩ | ⟨_, _, configures⟩
          · exact reached
          · rwa [allocations_runModels configures]
        cases result with
        | error code =>
            cases rest
            exact left
        | ok _ =>
            dsimp only at rest
            split_ifs at rest
            · obtain ⟨⟨failure, referenced⟩, refers, rest⟩ := Option.bind_eq_some_iff.mp rest
              have referencedLeft := reachableTable_runReference left refers
              cases failure with
              | some code =>
                  cases rest
                  exact referencedLeft
              | none => exact reachableTable_startExecution referencedLeft rest
            · exact reachableTable_startExecution left rest
  next =>
    cases ran
    exact reachable

/-- The table of the runtime is one that calls can leave, launches and waits
included. -/
theorem Reachable.reachableTable
    (reachable : Reachable cfg build r) :
    ReachableTable cfg r.device.allocations := by
  induction reachable with
  | init initialized =>
      obtain ⟨⟨_, started⟩, starts, same⟩ := Option.map_eq_some_iff.mp initialized
      cases same
      show ReachableTable cfg started.device.allocations
      rw [allocations_runModels starts]
      exact .empty
  | opened _ table =>
      unfold gpuDeviceOpen
      split_ifs
      · exact table
      · exact table
      · exact .empty
  | closed _ table =>
      unfold gpuDeviceClose
      split_ifs
      · exact table
      · exact table
      · exact .empty
  | memory _ called table => exact reachableTable_heapCall table called
  | launched _ ran table => exact reachableTable_gpuLaunch table ran
  | waited _ ran table =>
      unfold gpuWait at ran
      split_ifs at ran
      · cases ran
        exact table
      · obtain ⟨⟨completed, waited⟩, waits, concludes⟩ := Option.bind_eq_some_iff.mp ran
        rw [← allocations_runModels waits] at table
        have released : ReachableTable cfg
            { waited with running := false }.releaseLaunchArgs.device.allocations :=
          reachableTable_releaseLaunchArgs table
        rcases conclude_keeps concludes with rfl | rfl
        · exact released
        · exact released

end Runtime

namespace GpuDevice

/-- On every table that calls can leave, of a device and of the whole runtime with its
launches and waits, `gpu_mem_alloc` is an exact first fit, and the live entries are aligned
disjoint parts of the heap. -/
theorem gpuMemAlloc_exactFirstFit
    {cfg : Config}
    (mapped : cfg.HeapMap) :
    (∀ d : GpuDevice, ReachableTable cfg d.allocations → ExactFirstFit cfg d) ∧
      ∀ {V : VGPUTop} {build : Build} {r : Runtime V}, Runtime.Reachable cfg build r →
        ExactFirstFit cfg r.device :=
  ⟨fun _ reachable => reachable.exactFirstFit mapped,
    fun reachable => reachable.reachableTable.exactFirstFit mapped⟩

/-- Three allocations of which the middle one is freed leave a hole of 64 bytes between live
entries, and the next request that fits there is served from it. -/
theorem gpuMemAlloc_exactFirstFit_hole :
    ∃ r : Runtime (Verilog.vgpuTop Config.onePair),
      Runtime.Reachable Config.onePair .softwareModel r ∧
        r.device.allocations 0 = ⟨0x82000000, 128, true⟩ ∧
        (r.device.allocations 1).used = false ∧
        r.device.allocations 2 = ⟨0x820000c0, 64, true⟩ ∧
        ExactFirstFit Config.onePair r.device ∧
        IsLeast {base | Room Config.onePair r.device 64 base} 0x82000080 := by
  have observed : (do
      let started ← Runtime.memuRuntimeInit Config.onePair .softwareModel
      let opened := (started : Runtime (Verilog.vgpuTop Config.onePair)).gpuDeviceOpen.2
      let first ← gpuMemAlloc Config.onePair 100 true opened.device
      let second ← gpuMemAlloc Config.onePair 64 true first.2
      let third ← gpuMemAlloc Config.onePair 64 true second.2
      let device := (gpuMemFree 0x82000080 third.2).2
      let fourth ← gpuMemAlloc Config.onePair 64 true device
      some (decide (device.allocations 0 = ⟨0x82000000, 128, true⟩ ∧
        (device.allocations 1).used = false ∧ device.allocations 2 = ⟨0x820000c0, 64, true⟩ ∧
        device.validDevice = true ∧ fourth.1.toOption = some 0x82000080))) = some true := by
    decide +kernel
  obtain ⟨started, starts, observed⟩ := Option.bind_eq_some_iff.mp observed
  obtain ⟨⟨_, one⟩, first, observed⟩ := Option.bind_eq_some_iff.mp observed
  obtain ⟨⟨_, two⟩, second, observed⟩ := Option.bind_eq_some_iff.mp observed
  obtain ⟨⟨_, three⟩, third, observed⟩ := Option.bind_eq_some_iff.mp observed
  obtain ⟨⟨answer, four⟩, fourth, observed⟩ := Option.bind_eq_some_iff.mp observed
  obtain ⟨lower, hole, upper, valid, place⟩ := of_decide_eq_true (Option.some.inj observed)
  have reachable := ((((Runtime.Reachable.opened (.init starts)).allocated first).allocated
    second).allocated third).freed 0x82000080
  have exact := (gpuMemAlloc_exactFirstFit ⟨by decide, by decide, by decide⟩).2 reachable
  refine ⟨_, reachable, lower, hole, upper, exact, ?_⟩
  cases answer with
  | error code => cases place
  | ok base =>
      obtain rfl : base = 0x82000080 := Option.some.inj place
      exact ((exact.allocates 64 valid (by decide) (by decide)).lowest _ _ fourth).1

end GpuDevice

end OpenGPU
