import OpenGPU.Runtime.LaunchFailure

/-!
# What the calls of the runtime leave

`gpu_launch` and `gpu_wait` have many exits. One statement for each says what an exit
leaves in the records of the host: the argument buffer is placed before the models work
and given back after they have, and nothing else of the records changes.
-/

namespace OpenGPU

namespace GpuDevice

variable {cfg : Config} {d after : GpuDevice}

/-! ## Memory calls -/

/-- The bytes that a call writes. -/
def written : HeapCall → HeapReply → Set Word
  | .alloc size _, .alloc (.ok base) => accessBytes base (alignUp (size.setWidth 32)).toNat
  | .write address _ size, .write (.ok _) => accessBytes address size.toNat
  | .load _ _ _ _, .load (.ok _) =>
      accessBytes gpuKernelBase (gpuKernelEnd - gpuKernelBase).toNat
  | _, _ => ∅

/-- A call writes only the bytes that it names and leaves the device open. -/
theorem heapCall_frame
    {call : HeapCall}
    {reply : HeapReply}
    (returned : heapCall cfg d call = some (reply, after)) :
    Set.EqOn after.pmem d.pmem (written call reply)ᶜ ∧ after.validDevice = d.validDevice := by
  cases call with
  | alloc size address =>
      obtain ⟨result, ran, same⟩ := Option.map_eq_some_iff.mp returned
      cases same
      unfold gpuMemAlloc at ran
      split_ifs at ran
      · cases ran
        exact ⟨fun _ _ => rfl, rfl⟩
      dsimp only at ran
      split_ifs at ran
      · cases ran
        exact ⟨fun _ _ => rfl, rfl⟩
      cases search : (List.range gpuMaxAllocs).find? fun i => !(d.allocations i).used with
      | none =>
          rw [search] at ran
          cases ran
          exact ⟨fun _ _ => rfl, rfl⟩
      | some slot =>
          rw [search] at ran
          obtain ⟨candidate, _, placed⟩ := Option.bind_eq_some_iff.mp ran
          unfold guestToHost at placed
          split_ifs at placed <;> cases placed
          · exact ⟨fun _ _ => rfl, rfl⟩
          · exact ⟨fun _ outside => if_neg outside, rfl⟩
  | free address =>
      cases returned
      unfold gpuMemFree
      split_ifs
      · exact ⟨fun _ _ => rfl, rfl⟩
      · cases (List.range gpuMaxAllocs).find? fun i =>
          (d.allocations i).used && (d.allocations i).address == address with
        | none => exact ⟨fun _ _ => rfl, rfl⟩
        | some i => exact ⟨fun _ _ => rfl, rfl⟩
  | write address source size =>
      obtain ⟨result, ran, same⟩ := Option.map_eq_some_iff.mp returned
      cases same
      unfold gpuMemWrite at ran
      cases source with
      | none =>
          cases ran
          exact ⟨fun _ _ => rfl, rfl⟩
      | some bytes =>
          dsimp only at ran
          unfold guestToHost at ran
          split_ifs at ran <;> cases ran
          · exact ⟨fun _ _ => rfl, rfl⟩
          · exact ⟨fun _ outside => if_neg outside, rfl⟩
  | read destination address size =>
      obtain ⟨result, ran, same⟩ := Option.map_eq_some_iff.mp returned
      cases same
      unfold gpuMemRead guestToHost at ran
      split_ifs at ran <;> cases ran <;> exact ⟨fun _ _ => rfl, rfl⟩
  | load image size kernel calloc =>
      obtain ⟨result, ran, same⟩ := Option.map_eq_some_iff.mp returned
      cases same
      unfold gpuKernelLoadMemory at ran
      cases image with
      | none =>
          cases ran
          exact ⟨fun _ _ => rfl, rfl⟩
      | some bytes =>
          dsimp only at ran
          unfold guestToHost at ran
          split_ifs at ran with rejected noMemory inside <;> cases ran
          · exact ⟨fun _ _ => rfl, rfl⟩
          · exact ⟨fun _ _ => rfl, rfl⟩
          · refine ⟨fun a outside => ?_, rfl⟩
            have fits : size.toNat ≤ (gpuKernelEnd - gpuKernelBase).toNat := by
              simp only [Bool.or_eq_true, not_or, decide_eq_true_eq, BitVec.not_lt] at rejected
              exact rejected.2
            have small : a ∉ accessBytes gpuKernelBase size.toNat :=
              fun member => outside (Nat.lt_of_lt_of_le member fits)
            exact (if_neg small).trans (if_neg outside)

/-- The bytes of the kernel image. -/
def kernelWindow : Set Word := accessBytes gpuKernelBase (gpuKernelEnd - gpuKernelBase).toNat

theorem mem_kernelWindow_iff
    {a : Word} :
    a ∈ kernelWindow ↔ 0x81000000 ≤ a.toNat ∧ a.toNat < 0x81010000 := by
  unfold kernelWindow
  exact mem_accessBytes_iff (by decide)

/-- The memory after a kernel has been loaded. -/
def imageLoaded (image : Nat → Byte) (size : HostSize) (pmem : Pmem) : Pmem :=
  copyBytes (copyBytes pmem gpuKernelBase (gpuKernelEnd - gpuKernelBase).toNat fun _ => 0)
    gpuKernelBase size.toNat image

/-- The effects of the memory calls. -/
inductive HeapEffect (d : GpuDevice) : HeapCall → HeapReply → GpuDevice → Prop
  /-- A call that fails, or a read. -/
  | kept {call : HeapCall} {reply : HeapReply} :
      (∀ base, reply ≠ .alloc (.ok base)) →
      reply ≠ .free (.ok ()) →
      (∀ kernel, reply ≠ .load (.ok kernel)) →
      HeapEffect d call reply d
  /-- `gpu_mem_alloc` takes a vacancy. -/
  | allocated {size : HostSize} {address : Bool} {slot : Nat} {base aligned : Word} :
      d.validDevice = true →
      Vacancy d slot base aligned →
      aligned.toNat = roundUp size.toNat →
      HeapEffect d (.alloc size address) (.alloc (.ok base))
        { d with
          allocations := Function.update d.allocations slot ⟨base, aligned, true⟩
          pmem := copyBytes d.pmem base aligned.toNat fun _ => 0 }
  /-- `gpu_mem_free` gives up the first slot in use with the address. -/
  | freed {address : Word} {slot : Nat} :
      slot < gpuMaxAllocs →
      (d.allocations slot).used = true →
      (d.allocations slot).address = address →
      HeapEffect d (.free address) (.free (.ok ()))
        { d with
          allocations :=
            Function.update d.allocations slot { d.allocations slot with used := false } }
  /-- `gpu_mem_write` stores in the heap. -/
  | wrote {address : Word} {source : Nat → Byte} {size : HostSize} :
      0x82000000 ≤ address.toNat →
      address.toNat + size.toNat ≤ 0x88000000 →
      HeapEffect d (.write address (some source) size) (.write (.ok ()))
        { d with pmem := copyBytes d.pmem address size.toNat source }
  /-- `gpu_kernel_load_memory` replaces the image. -/
  | loaded {image : Nat → Byte} {size : HostSize} :
      d.validDevice = true →
      size.toNat ≤ 0x10000 →
      HeapEffect d (.load (some image) size true true)
        (.load (.ok ⟨gpuKernelBase, d.kernelGeneration + 1⟩))
        { d with
          pmem := imageLoaded image size d.pmem
          kernelGeneration := d.kernelGeneration + 1
          kernels := ⟨gpuKernelBase, d.kernelGeneration + 1⟩ :: d.kernels }

/-- The effect of `gpu_mem_free`. -/
theorem gpuMemFree_effect
    (address : Word) :
    HeapEffect d (.free address) (.free (gpuMemFree address d).1) (gpuMemFree address d).2 := by
  unfold gpuMemFree
  split_ifs
  · exact .kept (by simp) (by simp) (by simp)
  · cases found : (List.range gpuMaxAllocs).find? fun i =>
        (d.allocations i).used && (d.allocations i).address == address with
    | none => exact .kept (by simp) (by simp) (by simp)
    | some slot =>
        have passes := List.find?_some found
        rw [Bool.and_eq_true, beq_iff_eq] at passes
        exact .freed (List.mem_range.mp (List.mem_of_find?_eq_some found)) passes.1 passes.2

/-- Every memory call on sound slots has one of the effects. -/
theorem heapCall_effect
    (mapped : cfg.DefaultMap)
    (slots : SlotsSound d.allocations)
    {call : HeapCall}
    {reply : HeapReply}
    (returned : heapCall cfg d call = some (reply, after)) :
    HeapEffect d call reply after := by
  cases call with
  | alloc size address =>
      obtain ⟨result, ran, same⟩ := Option.map_eq_some_iff.mp returned
      cases same
      rcases gpuMemAlloc_cases mapped slots size address with
        ⟨slot, base, aligned, allocated, vacancy, rounded⟩ | ⟨error, failed⟩
      · have valid : d.validDevice = true := by
          by_contra invalid
          rw [gpuMemAlloc, Bool.eq_false_of_not_eq_true invalid] at allocated
          cases allocated
        rw [allocated] at ran
        cases ran
        exact .allocated valid vacancy rounded
      · rw [failed] at ran
        cases ran
        exact .kept (by simp) (by simp) (by simp)
  | free address =>
      cases returned
      exact gpuMemFree_effect address
  | write address source size =>
      obtain ⟨result, ran, same⟩ := Option.map_eq_some_iff.mp returned
      cases same
      unfold gpuMemWrite at ran
      cases source with
      | none =>
          cases ran
          exact .kept (by simp) (by simp) (by simp)
      | some bytes =>
          dsimp only at ran
          unfold guestToHost at ran
          split_ifs at ran with rejected inside <;> cases ran
          · exact .kept (by simp) (by simp) (by simp)
          · simp only [Bool.or_eq_true, Bool.not_eq_true', not_or, Bool.not_eq_false] at rejected
            have contained := rejected.2
            unfold allocationContains at contained
            obtain ⟨_, base, limit⟩ :=
              rangeInside_iff.mp (Bool.and_eq_true _ _ ▸ contained).1
            rw [toNat_heapEnd mapped] at limit
            exact .wrote base limit
  | read destination address size =>
      obtain ⟨result, ran, same⟩ := Option.map_eq_some_iff.mp returned
      cases same
      unfold gpuMemRead guestToHost at ran
      split_ifs at ran <;> cases ran <;> exact .kept (by simp) (by simp) (by simp)
  | load image size kernel calloc =>
      obtain ⟨result, ran, same⟩ := Option.map_eq_some_iff.mp returned
      cases same
      unfold gpuKernelLoadMemory at ran
      cases image with
      | none =>
          cases ran
          exact .kept (by simp) (by simp) (by simp)
      | some bytes =>
          dsimp only at ran
          unfold guestToHost at ran
          split_ifs at ran with rejected noMemory inside <;> cases ran
          · exact .kept (by simp) (by simp) (by simp)
          · exact .kept (by simp) (by simp) (by simp)
          · simp only [Bool.or_eq_true, not_or, decide_eq_true_eq, BitVec.not_lt,
              Bool.not_eq_true', Bool.not_eq_false] at rejected noMemory
            obtain ⟨⟨⟨valid, named⟩, _⟩, room⟩ := rejected
            obtain rfl : kernel = true := named
            obtain rfl : calloc = true := noMemory
            exact .loaded valid (BitVec.le_def.mp room)

end GpuDevice

namespace Runtime

open GpuDevice

variable {V : VGPUTop} {cfg : Config} {build : Build} {r after : Runtime V}

/-- The models may have worked; the records of the host are the same. -/
structure SameRecords (before after : Runtime V) : Prop where
  device : after.device = { before.device with pmem := after.device.pmem }
  launchArgs : after.launchArgs = before.launchArgs
  launchArgsUsed : after.launchArgsUsed = before.launchArgsUsed
  running : after.running = before.running

theorem SameRecords.trans
    {first second third : Runtime V}
    (early : SameRecords first second)
    (late : SameRecords second third) :
    SameRecords first third where
  device := by rw [late.device, early.device]
  launchArgs := late.launchArgs.trans early.launchArgs
  launchArgsUsed := late.launchArgsUsed.trans early.launchArgsUsed
  running := late.running.trans early.running

theorem sameRecords_runModels
    {ρ : Type}
    {act : Models V → PmemAction (ρ × Models V)}
    {answer : ρ}
    (ran : r.runModels act = some (answer, after)) :
    SameRecords r after := by
  obtain ⟨models, pmem, _, rfl⟩ := runModels_eq_some ran
  exact ⟨rfl, rfl, rfl, rfl⟩

/-- Releasing the argument buffer concerns the device only. -/
theorem releaseLaunchArgs_keeps (r : Runtime V) :
    r.releaseLaunchArgs.models = r.models ∧ r.releaseLaunchArgs.reference = r.reference ∧
      r.releaseLaunchArgs.referenceFault = r.referenceFault := by
  unfold releaseLaunchArgs
  split_ifs <;> exact ⟨rfl, rfl, rfl⟩

/-! ## `gpu_launch` -/

/-- The memory that `gpu_launch` hands to the models. -/
def lentMemory (cfg : Config) (info : Option GpuLaunchInfo) (r : Runtime V) : Pmem :=
  match info with
  | some info => ((r.placeArgs cfg info).map fun placed => placed.2.device.pmem).getD r.device.pmem
  | none => r.device.pmem

/-- The exits of `gpu_launch`. -/
inductive LaunchEffect (cfg : Config) (build : Build) (host : HostMemory) (kernel : GpuKernel)
    (info : GpuLaunchInfo) (r : Runtime V) : GpuResult → Runtime V → Prop
  /-- There is no room for the arguments. -/
  | noRoom {result : GpuResult} :
      result ≠ .success →
      LaunchEffect cfg build host kernel info r result
        { r with launchArgs := 0, launchArgsUsed := false }
  /-- The models have worked and the buffer is given back. -/
  | failed {placed stopped : Runtime V} {result : GpuResult} :
      result ≠ .success →
      r.placeArgs cfg info = some (.ok (), placed) →
      ArgsPlaced r placed →
      SameRecords placed stopped →
      LaunchEffect cfg build host kernel info r result stopped.releaseLaunchArgs
  /-- The execution model runs. -/
  | started {placed ready : Runtime V} {models : Models V} {pmem : Pmem} :
      r.placeArgs cfg info = some (.ok (), placed) →
      ArgsPlaced r placed →
      SameRecords placed ready →
      (ready.models.gpuModelLaunch cfg build build.executionKind host.calloc).run
          ready.device.pmem = some ((true, models), pmem) →
      LaunchEffect cfg build host kernel info r .success
        { ready with
          models := models
          device := { ready.device with pmem := pmem }
          running := true }

/-- The reference run keeps the records, and gives the buffer back when the launch ends
with it. -/
theorem runReference_effect
    {host : HostMemory}
    {answer : Option GpuResult}
    (ran : r.runReference cfg build host = some (answer, after)) :
    (answer = none ∧ SameRecords r after) ∨
      ∃ code stopped, answer = some code ∧ code ≠ .success ∧ SameRecords r stopped ∧
        after = stopped.releaseLaunchArgs := by
  unfold runReference at ran
  split_ifs at ran
  · cases ran
    exact Or.inr ⟨_, r.freeReference, rfl, GpuResult.noConfusion, ⟨rfl, rfl, rfl, rfl⟩, rfl⟩
  · obtain ⟨⟨done, stopped⟩, runs, same⟩ := Option.map_eq_some_iff.mp ran
    obtain ⟨models, pmem, _, rfl⟩ := runModels_eq_some runs
    cases done with
    | false =>
        cases same
        exact Or.inr ⟨_, freeReference
          { r with
            models := models
            device := { r.device with pmem := pmem }
            referenceFault := models.gpuModelFault .sm },
          rfl, GpuResult.noConfusion, ⟨rfl, rfl, rfl, rfl⟩, rfl⟩
    | true =>
        cases same
        exact Or.inl ⟨rfl, ⟨rfl, rfl, rfl, rfl⟩⟩

/-- The execution model starts, or the launch ends with the buffer given back. -/
theorem startExecution_effect
    {host : HostMemory}
    {result : GpuResult}
    (ran : r.startExecution cfg build host = some (result, after)) :
    (result ≠ .success ∧ ∃ stopped, SameRecords r stopped ∧ after = stopped.releaseLaunchArgs) ∨
      result = .success ∧ ∃ models pmem,
        (r.models.gpuModelLaunch cfg build build.executionKind host.calloc).run r.device.pmem =
          some ((true, models), pmem) ∧
        after =
          { r with
            models := models
            device := { r.device with pmem := pmem }
            running := true } := by
  obtain ⟨⟨started, launched⟩, runs, same⟩ := Option.map_eq_some_iff.mp ran
  obtain ⟨models, pmem, acted, rfl⟩ := runModels_eq_some runs
  cases started with
  | false =>
      cases same
      exact Or.inl ⟨GpuResult.noConfusion, freeReference
        { r with models := models, device := { r.device with pmem := pmem } },
        ⟨rfl, rfl, rfl, rfl⟩, rfl⟩
  | true =>
      cases same
      exact Or.inr ⟨rfl, models, pmem, acted, rfl⟩

/-- A launch that passes its checks has one of the exits. -/
theorem launchAccepted_effect
    (mapped : cfg.DefaultMap)
    (slots : SlotsSound r.device.allocations)
    {host : HostMemory}
    {kernel : GpuKernel}
    {info : GpuLaunchInfo}
    {blockSize : Word}
    {result : GpuResult}
    (ran : r.launchAccepted cfg build host kernel info blockSize = some (result, after)) :
    LaunchEffect cfg build host kernel info r result after := by
  obtain ⟨⟨outcome, prepared⟩, prepares, rest⟩ := Option.bind_eq_some_iff.mp ran
  obtain ⟨placing, placed, argsPlaced, exit⟩ := prepare_cases prepares
  rcases exit with ⟨code, rfl, rfl, rfl⟩ | ⟨rfl, rfl, configures⟩
  · cases rest
    rcases placeArgs_cases mapped slots argsPlaced with ⟨failed, _⟩ | ⟨_, _, rfl⟩
    · cases failed
    · exact .noRoom (by cases code <;> exact GpuResult.noConfusion)
  rcases placeArgs_cases mapped slots argsPlaced with ⟨_, inPlace⟩ | ⟨_, failed, _⟩
  swap
  · cases failed
  have configured := sameRecords_runModels configures
  have starts : ∀ {ready : Runtime V}, SameRecords placed ready →
      ready.startExecution cfg build host = some (result, after) →
      LaunchEffect cfg build host kernel info r result after := by
    intro ready same starting
    rcases startExecution_effect starting with
      ⟨failed, stopped, kept, rfl⟩ | ⟨rfl, models, pmem, acted, rfl⟩
    · exact .failed failed argsPlaced inPlace (same.trans kept)
    · exact .started argsPlaced inPlace same acted
  dsimp only at rest
  split_ifs at rest
  · obtain ⟨⟨answer, referenced⟩, refers, starting⟩ := Option.bind_eq_some_iff.mp rest
    rcases runReference_effect refers with
      ⟨rfl, kept⟩ | ⟨code, stopped, rfl, failed, kept, rfl⟩
    · exact starts (configured.trans kept) starting
    · cases starting
      exact .failed failed argsPlaced inPlace (configured.trans kept)
  · exact starts configured rest

/-- What the checks of `gpu_launch` let through. -/
structure Accepted (kernel : GpuKernel) (r : Runtime V) : Prop where
  valid : r.device.validDevice = true
  current : kernel.generation = r.device.kernelGeneration
  idle : r.running = false

theorem accepted_of_launchChecks
    {kernel : GpuKernel}
    {info : GpuLaunchInfo}
    {blockSize : Word}
    (checked : r.launchChecks cfg kernel info = some blockSize) :
    Accepted kernel r := by
  unfold launchChecks at checked
  split_ifs at checked with rejected
  simp only [Bool.or_eq_true, not_or, Bool.not_eq_true, Bool.not_eq_false', bne_eq_false_iff_eq]
    at rejected
  exact ⟨rejected.1.1.1.1, rejected.1.1.1.2, rejected.1.1.2⟩

/-- A `gpu_launch` is rejected without effect, or accepted and has one of the exits. -/
theorem gpuLaunch_effect
    (mapped : cfg.DefaultMap)
    (slots : SlotsSound r.device.allocations)
    {host : HostMemory}
    {kernel : Option GpuKernel}
    {info : Option GpuLaunchInfo}
    {result : GpuResult}
    (ran : r.gpuLaunch cfg build host kernel info = some (result, after)) :
    (result ≠ .success ∧ after = r) ∨
      ∃ k i, kernel = some k ∧ info = some i ∧ Accepted k r ∧
        LaunchEffect cfg build host k i r result after := by
  unfold gpuLaunch at ran
  split at ran
  next k i =>
    cases checked : r.launchChecks cfg k i with
    | none =>
        rw [checked] at ran
        cases ran
        exact Or.inl ⟨GpuResult.noConfusion, rfl⟩
    | some blockSize =>
        rw [checked] at ran
        exact Or.inr ⟨k, i, rfl, rfl, accepted_of_launchChecks checked,
          launchAccepted_effect mapped slots ran⟩
  next =>
    cases ran
    exact Or.inl ⟨GpuResult.noConfusion, rfl⟩

/-! ## `gpu_wait` -/

/-- The exits of `gpu_wait`. -/
inductive WaitEffect (r : Runtime V) : GpuResult → Runtime V → Prop
  /-- No device, or no launch to wait for. -/
  | refused :
      r.device.validDevice = false ∨ r.running = false →
      WaitEffect r .badState r
  /-- The models have worked and the buffer is given back. -/
  | ended {stopped after : Runtime V} {result : GpuResult} :
      r.device.validDevice = true →
      r.running = true →
      SameRecords r stopped →
      result ≠ .badState →
      after = { stopped with running := false }.releaseLaunchArgs ∨
        after = { stopped with running := false }.releaseLaunchArgs.freeReference →
      WaitEffect r result after

/-- `gpu_wait` ends with no `GPU_ERROR_BAD_STATE` of its own after the models ran. -/
theorem conclude_result
    {completed : Bool}
    {result : GpuResult}
    (ran : conclude cfg build completed r = some (result, after)) :
    result ≠ .badState := by
  unfold conclude at ran
  split_ifs at ran
  · cases ran
    exact GpuResult.noConfusion
  · cases ran
    exact GpuResult.noConfusion
  · cases ran
    exact GpuResult.noConfusion
  · cases ran
    exact GpuResult.noConfusion
  · obtain ⟨reference, _, same⟩ := Option.map_eq_some_iff.mp ran
    cases same
    split <;> exact GpuResult.noConfusion
  · cases ran
    exact GpuResult.noConfusion

/-- Every `gpu_wait` has one of the exits. -/
theorem gpuWait_effect
    {result : GpuResult}
    (ran : r.gpuWait cfg build = some (result, after)) :
    WaitEffect r result after := by
  unfold gpuWait at ran
  split_ifs at ran with refused
  · cases ran
    refine .refused ?_
    simpa only [Bool.or_eq_true, Bool.not_eq_true'] using refused
  · simp only [Bool.or_eq_true, Bool.not_eq_true', not_or, Bool.not_eq_false] at refused
    obtain ⟨⟨completed, waited⟩, waits, concludes⟩ := Option.bind_eq_some_iff.mp ran
    exact .ended refused.1 refused.2 (sameRecords_runModels waits) (conclude_result concludes)
      (conclude_keeps concludes)

end Runtime

end OpenGPU
