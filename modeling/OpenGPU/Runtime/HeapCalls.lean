import OpenGPU.Runtime.HeapRefinement

/-!
# The memory functions keep the refinement

From a device that holds the state of a history, each memory function returns,
and either it fails and changes nothing or the device holds the state of the
history with the function's event.
-/

namespace OpenGPU

namespace GpuDevice

open BufferHistory

variable {cfg : Config} {d : GpuDevice} {history : List (BufferEvent Byte)}

/-- Slots that are a part of sound slots are sound. -/
theorem SlotsSound.of_kept
    {old new : Nat → Allocation}
    (slots : SlotsSound old)
    (kept : ∀ j, (new j).used = true → new j = old j) :
    SlotsSound new where
  sound j member used := by
    have same := kept j used
    rw [same] at used ⊢
    exact slots.sound j member used
  apart i j iMember jMember distinct iUsed jUsed := by
    have iSame := kept i iUsed
    have jSame := kept j jUsed
    rw [iSame] at iUsed ⊢
    rw [jSame] at jUsed ⊢
    exact slots.apart i j iMember jMember distinct iUsed jUsed

/-- Slots with one of them overwritten are sound if the new slot is and lies apart from
the others. -/
theorem SlotsSound.update
    {old : Nat → Allocation}
    (slots : SlotsSound old)
    {slot : Nat}
    {new : Allocation}
    (sound : Sound new)
    (apart : ∀ i, i < gpuMaxAllocs → i ≠ slot → (old i).used = true →
      new.address.toNat + new.size.toNat ≤ (old i).address.toNat ∨
        (old i).address.toNat + (old i).size.toNat ≤ new.address.toNat) :
    SlotsSound (Function.update old slot new) where
  sound j member used := by
    rcases eq_or_ne j slot with rfl | other
    · rw [Function.update_self]
      exact sound
    · rw [Function.update_of_ne other] at used ⊢
      exact slots.sound j member used
  apart i j iMember jMember distinct iUsed jUsed := by
    rcases eq_or_ne i slot with rfl | iOther
    · rw [Function.update_of_ne distinct.symm] at jUsed ⊢
      rw [Function.update_self]
      exact apart j jMember distinct.symm jUsed
    rw [Function.update_of_ne iOther] at iUsed ⊢
    rcases eq_or_ne j slot with rfl | jOther
    · rw [Function.update_self]
      exact (apart i iMember iOther iUsed).symm
    · rw [Function.update_of_ne jOther] at jUsed ⊢
      exact slots.apart i j iMember jMember distinct iUsed jUsed

/-- Giving up a slot frees its buffer. -/
theorem Refines.freed
    (refines : Refines d history)
    {i : Nat}
    (member : i < gpuMaxAllocs)
    (used : (d.allocations i).used = true) :
    Refines
      { d with
        allocations :=
          Function.update d.allocations i { d.allocations i with used := false } }
      (.freed (d.allocations i).address.toNat :: history) := by
  have live : sizeAt history (d.allocations i).address.toNat =
      some (d.allocations i).size.toNat :=
    (refines.live_iff _ _).mpr ⟨i, member, used, rfl, rfl⟩
  obtain ⟨new, given⟩ : ∃ new, new =
      Function.update d.allocations i { d.allocations i with used := false } := ⟨_, rfl⟩
  have released : (new i).used = false := by rw [given, Function.update_self]
  have kept : ∀ j, j ≠ i → new j = d.allocations j := by
    intro j other
    rw [given, Function.update_of_ne other]
  have other : ∀ j, (new j).used = true → j ≠ i := by
    rintro j stillUsed rfl
    rw [released] at stillUsed
    exact Bool.noConfusion stillUsed
  rw [← given]
  exact
    { valid := refines.valid
      lawful := refines.lawful.cons (by rw [Permitted, live]; rfl)
      slots := refines.slots.of_kept fun j stillUsed => kept j (other j stillUsed)
      live_iff := fun base size => by
        constructor
        · intro remains
          obtain ⟨notFreed, was⟩ := sizeAt_freed_eq_some remains
          obtain ⟨j, jMember, jUsed, jBase, jSize⟩ := (refines.live_iff base size).mp was
          have same : new j = d.allocations j := by
            apply kept
            rintro rfl
            exact notFreed jBase.symm
          refine ⟨j, jMember, ?_, ?_, ?_⟩
          · show (new j).used = true
            rw [same, jUsed]
          · show (new j).address.toNat = base
            rw [same, jBase]
          · show (new j).size.toNat = size
            rw [same, jSize]
        · rintro ⟨j, jMember, jUsed, jBase, jSize⟩
          have distinct := other j jUsed
          have same := kept j distinct
          simp only [same] at jUsed jBase jSize
          have apart := refines.slots.apart j i jMember member distinct jUsed used
          have jNonempty := (refines.slots.sound j jMember jUsed).nonempty
          have nonempty := (refines.slots.sound i member used).nonempty
          rw [sizeAt, if_neg (by omega)]
          exact (refines.live_iff base size).mpr ⟨j, jMember, jUsed, jBase, jSize⟩
      bytes := fun base size remains k inside =>
        refines.bytes base size (sizeAt_freed_eq_some remains).2 k inside }

/-- `gpu_mem_free` frees the live buffer at its argument or fails. -/
theorem Refines.gpuMemFree_spec
    (refines : Refines d history)
    (address : Word) :
    ((sizeAt history address.toNat).isSome = true ∧
        ∃ after, gpuMemFree address d = (.ok (), after) ∧
          Refines after (.freed address.toNat :: history) ∧ after.pmem = d.pmem) ∨
      ((sizeAt history address.toNat).isSome = false ∧
        gpuMemFree address d = (.error .invalidArgument, d)) := by
  unfold gpuMemFree
  rw [refines.valid]
  simp only [Bool.not_true, Bool.false_eq_true, if_false]
  cases found : (List.range gpuMaxAllocs).find? fun i =>
      (d.allocations i).used && (d.allocations i).address == address with
  | none =>
      refine Or.inr ⟨?_, rfl⟩
      rw [Option.isSome_eq_false_iff, Option.isNone_iff_eq_none, Option.eq_none_iff_forall_ne_some]
      intro size live
      obtain ⟨i, member, used, base, _⟩ := (refines.live_iff _ _).mp live
      refine List.find?_eq_none.mp found i (List.mem_range.mpr member) ?_
      rw [used, Bool.true_and, beq_iff_eq]
      exact BitVec.eq_of_toNat_eq base
  | some i =>
      have member := List.mem_range.mp (List.mem_of_find?_eq_some found)
      have passes := List.find?_some found
      simp only [Bool.and_eq_true, beq_iff_eq] at passes
      obtain ⟨used, rfl⟩ := passes
      have live : sizeAt history (d.allocations i).address.toNat =
          some (d.allocations i).size.toNat :=
        (refines.live_iff _ _).mpr ⟨i, member, used, rfl, rfl⟩
      exact Or.inl ⟨by rw [live]; rfl, _, rfl, refines.freed member used, rfl⟩

/-- `gpu_mem_write` with a source writes inside a live buffer or fails. -/
theorem Refines.gpuMemWrite_spec
    (mapped : cfg.DefaultMap)
    (refines : Refines d history)
    (address : Word)
    (source : Nat → Byte)
    (size : HostSize) :
    (Inside history address.toNat size.toNat ∧
        gpuMemWrite cfg address (some source) size d =
          some (.ok (), { d with pmem := copyBytes d.pmem address size.toNat source }) ∧
        Refines { d with pmem := copyBytes d.pmem address size.toNat source }
          (.wrote address.toNat ((List.range size.toNat).map source) :: history)) ∨
      (¬Inside history address.toNat size.toNat ∧
        gpuMemWrite cfg address (some source) size d =
          some (.error .invalidArgument, d)) := by
  have contains := refines.allocationContains_iff mapped address size
  unfold gpuMemWrite
  rw [refines.valid]
  by_cases inside : Inside history address.toNat size.toNat
  · refine Or.inl ⟨inside, ?_, ?_⟩
    · obtain ⟨nonempty, base, bufferSize, live, within⟩ := inside
      have bounds := refines.live_bounds live
      unfold Within at within
      rw [contains.mpr ⟨nonempty, base, bufferSize, live, within⟩]
      exact guestToHost_of_heap mapped (by omega) (by omega) _
    · have length : ((List.range size.toNat).map source).length = size.toNat := by
        rw [List.length_map, List.length_range]
      refine
        { valid := refines.valid
          lawful := refines.lawful.cons (by rw [Permitted, length]; exact inside)
          slots := refines.slots
          live_iff := refines.live_iff
          bytes := fun base bufferSize live k inBuffer => ?_ }
      have bounds := refines.live_bounds live
      obtain ⟨nonempty, owner, ownerSize, ownerLive, within⟩ := inside
      have ownerBounds := refines.live_bounds ownerLive
      unfold Within at within
      show copyBytes d.pmem address size.toNat source (BitVec.ofNat 32 (base + k)) = _
      rw [copyBytes_ofNat (by omega) (by omega), valueAt, length]
      split_ifs with written
      · rw [List.getD_eq_getElem?_getD, List.getElem?_map, List.getElem?_range (by omega)]
        rfl
      · exact refines.bytes base bufferSize live k inBuffer
  · refine Or.inr ⟨inside, ?_⟩
    rw [Bool.eq_false_iff.mpr (fun passes => inside (contains.mp passes))]
    rfl

/-- `gpu_mem_read` with a destination answers the last values written inside a
live buffer or fails. -/
theorem Refines.gpuMemRead_spec
    (mapped : cfg.DefaultMap)
    (refines : Refines d history)
    (address : Word)
    (size : HostSize) :
    (Inside history address.toNat size.toNat ∧
        gpuMemRead cfg true address size d =
          some (.ok ((List.range size.toNat).map fun k =>
            valueAt 0 history (address.toNat + k)), d)) ∨
      (¬Inside history address.toNat size.toNat ∧
        gpuMemRead cfg true address size d = some (.error .invalidArgument, d)) := by
  have contains := refines.allocationContains_iff mapped address size
  unfold gpuMemRead
  rw [refines.valid]
  by_cases inside : Inside history address.toNat size.toNat
  · refine Or.inl ⟨inside, ?_⟩
    rw [contains.mpr inside]
    obtain ⟨nonempty, base, bufferSize, live, within⟩ := inside
    have bounds := refines.live_bounds live
    unfold Within at within
    have values : ((List.range size.toNat).map fun k =>
          d.pmem (address + BitVec.ofNat 32 k)) =
        (List.range size.toNat).map fun k => valueAt 0 history (address.toNat + k) := by
      apply List.map_congr_left
      intro k inRange
      rw [List.mem_range] at inRange
      have place : address + BitVec.ofNat 32 k =
          BitVec.ofNat 32 (base + (address.toNat - base + k)) := by
        rw [← Nat.add_assoc, Nat.add_sub_cancel' within.1, BitVec.ofNat_add,
          BitVec.ofNat_toNat, BitVec.setWidth_eq]
      rw [place, refines.bytes base bufferSize live _ (by omega), ← Nat.add_assoc,
        Nat.add_sub_cancel' within.1]
    rw [values]
    exact guestToHost_of_heap mapped (by omega) (by omega) _
  · refine Or.inr ⟨inside, ?_⟩
    rw [Bool.eq_false_iff.mpr (fun passes => inside (contains.mp passes))]
    rfl

/-- Taking an unused slot for free heap space allocates a buffer of zeros. -/
theorem Refines.allocated
    (refines : Refines d history)
    {slot : Nat}
    (member : slot < gpuMaxAllocs)
    (unused : (d.allocations slot).used = false)
    {candidate alignedSize : Word}
    (sound : Sound ⟨candidate, alignedSize, true⟩)
    (apart : ∀ i, i < gpuMaxAllocs → (d.allocations i).used = true →
      candidate.toNat + alignedSize.toNat ≤ (d.allocations i).address.toNat ∨
        (d.allocations i).address.toNat + (d.allocations i).size.toNat ≤
          candidate.toNat) :
    Refines
      { d with
        allocations := Function.update d.allocations slot ⟨candidate, alignedSize, true⟩
        pmem := copyBytes d.pmem candidate alignedSize.toNat fun _ => 0 }
      (.allocated candidate.toNat alignedSize.toNat :: history) := by
  obtain ⟨new, given⟩ : ∃ new, new =
      Function.update d.allocations slot ⟨candidate, alignedSize, true⟩ := ⟨_, rfl⟩
  have taken : new slot = ⟨candidate, alignedSize, true⟩ := by
    rw [given, Function.update_self]
  have kept : ∀ j, j ≠ slot → new j = d.allocations j := by
    intro j other
    rw [given, Function.update_of_ne other]
  have ends : candidate.toNat + alignedSize.toNat ≤ 0x88000000 := sound.fits
  have nonempty : 0 < alignedSize.toNat := sound.nonempty
  have vacant : Vacant history candidate.toNat alignedSize.toNat := by
    intro base size live
    obtain ⟨i, iMember, iUsed, rfl, rfl⟩ := (refines.live_iff base size).mp live
    exact apart i iMember iUsed
  rw [← given]
  exact
    { valid := refines.valid
      lawful := refines.lawful.cons ⟨nonempty, vacant⟩
      slots := by
        rw [given]
        exact refines.slots.update sound fun i iMember _ iUsed => apart i iMember iUsed
      live_iff := fun base size => by
        show _ ↔ ∃ i, i < gpuMaxAllocs ∧ (new i).used = true ∧
          (new i).address.toNat = base ∧ (new i).size.toNat = size
        rw [sizeAt]
        constructor
        · intro live
          split_ifs at live with isNew
          · cases live
            exact ⟨slot, member, by rw [taken], by rw [taken, isNew], by rw [taken]⟩
          · obtain ⟨i, iMember, iUsed, iBase, iSize⟩ := (refines.live_iff base size).mp live
            have other : i ≠ slot := by
              rintro rfl
              rw [unused] at iUsed
              exact Bool.noConfusion iUsed
            exact ⟨i, iMember, by rw [kept i other, iUsed], by rw [kept i other, iBase],
              by rw [kept i other, iSize]⟩
        · rintro ⟨i, iMember, iUsed, iBase, iSize⟩
          by_cases same : i = slot
          · rw [same, taken] at iBase iSize
            rw [if_pos iBase.symm, ← iSize]
          · rw [kept i same] at iUsed iBase iSize
            have away := apart i iMember iUsed
            have iNonempty := (refines.slots.sound i iMember iUsed).nonempty
            rw [if_neg (by omega)]
            exact (refines.live_iff base size).mpr ⟨i, iMember, iUsed, iBase, iSize⟩
      bytes := fun base size live k inside => by
        show copyBytes d.pmem candidate alignedSize.toNat (fun _ => 0)
          (BitVec.ofNat 32 (base + k)) = _
        rw [sizeAt] at live
        split_ifs at live with isNew
        · cases live
          rw [copyBytes_ofNat (by omega) (by omega), valueAt, if_pos (by omega),
            if_pos (by omega)]
        · have away := vacant base size live
          have bounds := refines.live_bounds live
          rw [copyBytes_ofNat (by omega) (by omega), valueAt, if_neg (by omega),
            if_neg (by omega)]
          exact refines.bytes base size live k inside }

/-- Unless the rounding wraps below the request, it is exact. -/
theorem toNat_alignedSize
    {size : HostSize}
    (nonzero : size ≠ 0)
    (small : ¬0xffffffff < size)
    (noWrap : ¬(alignUp (size.setWidth 32)).setWidth 64 < size) :
    (alignUp (size.setWidth 32)).toNat = roundUp size.toNat ∧ 0 < roundUp size.toNat := by
  have limit : (0xffffffff : HostSize).toNat = 2 ^ 32 - 1 := by decide
  have positive : 0 < size.toNat :=
    Nat.pos_of_ne_zero fun zero => nonzero (BitVec.eq_of_toNat_eq zero)
  rw [BitVec.lt_def, limit] at small
  have narrowed : (size.setWidth 32).toNat = size.toNat := by
    rw [BitVec.toNat_setWidth, Nat.mod_eq_of_lt (by omega)]
  have rounded := toNat_alignUp (size.setWidth 32)
  rw [narrowed] at rounded
  rw [BitVec.lt_def, BitVec.toNat_setWidth,
    Nat.mod_eq_of_lt (Nat.lt_trans (alignUp (size.setWidth 32)).isLt (by decide))] at noWrap
  rw [rounded, roundUp]
  omega

/-- Free heap space and an unused slot for it. -/
structure Vacancy (d : GpuDevice) (slot : Nat) (candidate alignedSize : Word) : Prop where
  member : slot < gpuMaxAllocs
  unused : (d.allocations slot).used = false
  sound : Sound ⟨candidate, alignedSize, true⟩
  apart : ∀ i, i < gpuMaxAllocs → (d.allocations i).used = true →
    candidate.toNat + alignedSize.toNat ≤ (d.allocations i).address.toNat ∨
      (d.allocations i).address.toNat + (d.allocations i).size.toNat ≤ candidate.toNat

/-- `gpu_mem_alloc` on sound slots takes a vacancy of the rounded size and clears it,
or fails. -/
theorem gpuMemAlloc_cases
    (mapped : cfg.DefaultMap)
    (slots : SlotsSound d.allocations)
    (size : HostSize)
    (address : Bool) :
    (∃ slot candidate alignedSize,
        gpuMemAlloc cfg size address d =
          some (.ok candidate,
            { d with
              allocations :=
                Function.update d.allocations slot ⟨candidate, alignedSize, true⟩
              pmem := copyBytes d.pmem candidate alignedSize.toNat fun _ => 0 }) ∧
          Vacancy d slot candidate alignedSize ∧ alignedSize.toNat = roundUp size.toNat) ∨
      ∃ error, gpuMemAlloc cfg size address d = some (.error error, d) := by
  unfold gpuMemAlloc
  split_ifs with rejected
  · exact Or.inr ⟨_, rfl⟩
  simp only [Bool.or_eq_true, beq_iff_eq, decide_eq_true_eq, not_or] at rejected
  obtain ⟨⟨⟨_, _⟩, nonzero⟩, small⟩ := rejected
  extract_lets alignedSize
  split_ifs with wrapped
  · exact Or.inr ⟨_, rfl⟩
  cases found : (List.range gpuMaxAllocs).find? fun i => !(d.allocations i).used with
  | none => exact Or.inr ⟨_, rfl⟩
  | some slot =>
      obtain ⟨candidate, placed, base, aligned, free⟩ := exists_place cfg slots alignedSize
      simp only [placed, Option.bind_some]
      split_ifs with noRoom
      · exact Or.inr ⟨_, rfl⟩
      rw [not_or, BitVec.not_le, BitVec.not_lt] at noRoom
      obtain ⟨inHeap, room⟩ := noRoom
      obtain ⟨exactSize, positive⟩ := toNat_alignedSize nonzero small wrapped
      have limit := toNat_heapEnd mapped
      have below := BitVec.lt_def.mp inHeap
      rw [BitVec.le_def, BitVec.toNat_sub_of_le (BitVec.le_def.mpr below.le), limit] at room
      rw [limit] at below
      refine Or.inl ⟨slot, candidate, alignedSize,
        guestToHost_of_heap mapped (by omega) below _, ?_, exactSize⟩
      exact
        { member := List.mem_range.mp (List.mem_of_find?_eq_some found)
          unused := by simpa using List.find?_some found
          sound :=
            { base := base
              nonempty := exactSize ▸ positive
              address_aligned := aligned
              size_aligned := by
                show alignedSize.toNat % 64 = 0
                rw [exactSize]
                exact Nat.mul_mod_left _ _
              fits := by
                show candidate.toNat + alignedSize.toNat ≤ 0x88000000
                omega }
          apart := fun i member used =>
            apart_of_overlapping_eq_none slots (free inHeap) (by omega) member used }

/-- `gpu_mem_alloc` allocates a rounded buffer of zeros or fails. -/
theorem Refines.gpuMemAlloc_spec
    (mapped : cfg.DefaultMap)
    (refines : Refines d history)
    (size : HostSize)
    (address : Bool) :
    (∃ candidate after,
        gpuMemAlloc cfg size address d = some (.ok candidate, after) ∧
          Refines after (.allocated candidate.toNat (roundUp size.toNat) :: history) ∧
          after.pmem = copyBytes d.pmem candidate (roundUp size.toNat) fun _ => 0) ∨
      ∃ error, gpuMemAlloc cfg size address d = some (.error error, d) := by
  rcases gpuMemAlloc_cases mapped refines.slots size address with
    ⟨slot, candidate, alignedSize, returned, vacancy, exactSize⟩ | failed
  · refine Or.inl ⟨candidate, _, returned, ?_, ?_⟩
    · rw [← exactSize]
      exact refines.allocated vacancy.member vacancy.unused vacancy.sound vacancy.apart
    · rw [← exactSize]
  · exact Or.inr failed

/-- `gpu_kernel_load_memory` touches no buffer. -/
theorem Refines.gpuKernelLoadMemory_spec
    (mapped : cfg.DefaultMap)
    (refines : Refines d history)
    (image : Option (Nat → Byte))
    (size : HostSize)
    (kernel calloc : Bool) :
    ∃ answer after, gpuKernelLoadMemory cfg image size kernel calloc d = some (answer, after) ∧
      Refines after history ∧
      ∀ target, 0x82000000 ≤ target → target < 2 ^ 32 →
        after.pmem (BitVec.ofNat 32 target) = d.pmem (BitVec.ofNat 32 target) := by
  unfold gpuKernelLoadMemory
  cases image with
  | none => exact ⟨_, d, rfl, refines, fun _ _ _ => rfl⟩
  | some bytes =>
      dsimp only
      split_ifs with rejected noMemory
      · exact ⟨_, d, rfl, refines, fun _ _ _ => rfl⟩
      · exact ⟨_, d, rfl, refines, fun _ _ _ => rfl⟩
      simp only [Bool.or_eq_true, decide_eq_true_eq, not_or] at rejected
      have room : size.toNat ≤ 0x10000 := by
        have limit := rejected.2
        rw [BitVec.lt_def] at limit
        have window : ((gpuKernelEnd - gpuKernelBase).setWidth 64 : HostSize).toNat =
            0x10000 := by decide
        omega
      have base : gpuKernelBase.toNat = 0x81000000 := rfl
      have untouched : ∀ target, 0x82000000 ≤ target → target < 2 ^ 32 →
          copyBytes
              (copyBytes d.pmem gpuKernelBase (gpuKernelEnd - gpuKernelBase).toNat
                fun _ => 0)
              gpuKernelBase size.toNat bytes (BitVec.ofNat 32 target) =
            d.pmem (BitVec.ofNat 32 target) := by
        intro target above space
        have window : (gpuKernelEnd - gpuKernelBase).toNat = 0x10000 := rfl
        rw [copyBytes_ofNat space (by omega), if_neg (by omega),
          copyBytes_ofNat space (by omega), if_neg (by omega)]
      refine ⟨_, _, guestToHost_of_heap mapped (by omega) (by omega) _, ?_, untouched⟩
      exact
        { valid := refines.valid
          lawful := refines.lawful
          slots := refines.slots
          live_iff := refines.live_iff
          bytes := fun bufferBase bufferSize live k inside => by
            have bounds := refines.live_bounds live
            exact (untouched _ (by omega) (by omega)).trans
              (refines.bytes bufferBase bufferSize live k inside) }

end GpuDevice

end OpenGPU
