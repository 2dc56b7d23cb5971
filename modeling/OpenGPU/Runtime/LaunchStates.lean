import OpenGPU.Runtime.Launch

/-!
# Reachable states of the runtime

What every sequence of calls keeps, kernels that write anywhere included: the slots
in use describe disjoint buffers of the heap, and the RTL driver keeps what its own calls
keep; so it stays out of reset.
-/

namespace OpenGPU

namespace GpuDevice

variable {cfg : Config} {d after : GpuDevice}

/-- `gpu_mem_free` only gives up slots. -/
theorem gpuMemFree_slots
    (slots : SlotsSound d.allocations)
    (address : Word) :
    SlotsSound (gpuMemFree address d).2.allocations := by
  unfold gpuMemFree
  split_ifs
  · exact slots
  · cases (List.range gpuMaxAllocs).find? fun i =>
        (d.allocations i).used && (d.allocations i).address == address with
    | none => exact slots
    | some i =>
        refine slots.of_kept fun j used => ?_
        dsimp only at used ⊢
        rcases eq_or_ne j i with rfl | other
        · rw [Function.update_self] at used
          exact Bool.noConfusion used
        · exact Function.update_of_ne other _ _

/-- Memory calls keep the slots sound. -/
theorem heapCall_slots
    (mapped : cfg.DefaultMap)
    (slots : SlotsSound d.allocations)
    {call : HeapCall}
    {reply : HeapReply}
    (returned : heapCall cfg d call = some (reply, after)) :
    SlotsSound after.allocations := by
  cases call with
  | alloc size address =>
      obtain ⟨result, ran, same⟩ := Option.map_eq_some_iff.mp returned
      cases same
      rcases gpuMemAlloc_cases mapped slots size address with
        ⟨slot, candidate, alignedSize, allocated, vacancy, _⟩ | ⟨error, failed⟩
      · rw [allocated] at ran
        cases ran
        exact slots.update vacancy.sound fun i member _ used => vacancy.apart i member used
      · rw [failed] at ran
        cases ran
        exact slots
  | free address =>
      cases returned
      exact gpuMemFree_slots slots address
  | write address source size =>
      obtain ⟨result, ran, same⟩ := Option.map_eq_some_iff.mp returned
      cases same
      unfold gpuMemWrite at ran
      cases source with
      | none =>
          cases ran
          exact slots
      | some bytes =>
          dsimp only at ran
          unfold guestToHost at ran
          split_ifs at ran <;> cases ran <;> exact slots
  | read destination address size =>
      obtain ⟨result, ran, same⟩ := Option.map_eq_some_iff.mp returned
      cases same
      unfold gpuMemRead guestToHost at ran
      split_ifs at ran <;> cases ran <;> exact slots
  | load image size kernel calloc =>
      obtain ⟨result, ran, same⟩ := Option.map_eq_some_iff.mp returned
      cases same
      unfold gpuKernelLoadMemory at ran
      cases image with
      | none =>
          cases ran
          exact slots
      | some bytes =>
          dsimp only at ran
          unfold guestToHost at ran
          split_ifs at ran <;> cases ran <;> exact slots

end GpuDevice

namespace Runtime

open GpuDevice

variable {V : VGPUTop} {cfg : Config} {build : Build} {r after : Runtime V}

/-- What every call keeps. -/
structure WellKept (r : Runtime V) : Prop where
  slots : SlotsSound r.device.allocations
  running : r.models.rtl.pins.reset = false

/-- Sound slots, and a property of the RTL driver. -/
structure Keeps (holds : RtlSim V → Prop) (r : Runtime V) : Prop where
  slots : SlotsSound r.device.allocations
  rtl : holds r.models.rtl

/-- Running the models changes memory and the models, and keeps the slots. -/
theorem runModels_eq_some
    {ρ : Type}
    {act : Models V → PmemAction (ρ × Models V)}
    {answer : ρ}
    (ran : r.runModels act = some (answer, after)) :
    ∃ models pmem, (act r.models).run r.device.pmem = some ((answer, models), pmem) ∧
      after = { r with models := models, device := { r.device with pmem := pmem } } := by
  obtain ⟨result, acted, same⟩ := Option.map_eq_some_iff.mp ran
  cases same
  exact ⟨_, _, acted, rfl⟩

section Kept

variable {holds : RtlSim V → Prop}

theorem Keeps.runModels
    (keeps : Keeps holds r)
    {ρ : Type}
    {act : Models V → PmemAction (ρ × Models V)}
    {answer : ρ}
    (kept : ∀ models pmem, (act r.models).run r.device.pmem = some ((answer, models), pmem) →
      holds r.models.rtl → holds models.rtl)
    (ran : r.runModels act = some (answer, after)) :
    Keeps holds after := by
  obtain ⟨models, pmem, acted, rfl⟩ := runModels_eq_some ran
  exact ⟨keeps.slots, kept models pmem acted keeps.rtl⟩

theorem Keeps.releaseLaunchArgs
    (keeps : Keeps holds r) :
    Keeps holds r.releaseLaunchArgs := by
  unfold Runtime.releaseLaunchArgs
  split_ifs
  · exact ⟨gpuMemFree_slots keeps.slots _, keeps.rtl⟩
  · exact keeps

end Kept

/-- What `gpu_launch` leaves after it has allocated and filled the argument buffer, or
has found that there are no arguments. -/
inductive ArgsPlaced (before : Runtime V) : Runtime V → Prop
  | none : ArgsPlaced before { before with launchArgs := 0, launchArgsUsed := false }
  | placed {slot : Nat} {address size : Word} {pmem : Pmem} :
      Vacancy before.device slot address size →
      (∀ a, a ∉ accessBytes address size.toNat → pmem a = before.device.pmem a) →
      ArgsPlaced before
        { before with
          device :=
            { before.device with
              allocations := Function.update before.device.allocations slot ⟨address, size, true⟩
              pmem := pmem }
          launchArgs := address
          launchArgsUsed := true }

/-- The argument buffer is in place or the call fails and has changed nothing that is
visible. -/
theorem placeArgs_cases
    (mapped : cfg.DefaultMap)
    (slots : SlotsSound r.device.allocations)
    {info : GpuLaunchInfo}
    {result : Except GpuError Unit}
    (ran : r.placeArgs cfg info = some (result, after)) :
    (result = .ok () ∧ ArgsPlaced r after) ∨
      ∃ code, result = .error code ∧
        after = { r with launchArgs := 0, launchArgsUsed := false } := by
  unfold placeArgs at ran
  dsimp only at ran
  split_ifs at ran with noArgs
  · cases ran
    exact Or.inl ⟨rfl, .none⟩
  rcases gpuMemAlloc_cases mapped slots info.argsSize true with
    ⟨slot, address, size, allocated, vacancy, rounded⟩ | ⟨error, failed⟩
  · rw [allocated, Option.bind_some] at ran
    unfold guestToHost at ran
    dsimp only at ran
    split_ifs at ran
    cases ran
    refine Or.inl ⟨rfl, .placed vacancy ?_⟩
    intro a outside
    have beyond : ¬(a - address).toNat < size.toNat := outside
    have small : info.argsSize.toNat ≤ size.toNat := by
      rw [rounded, roundUp]
      omega
    unfold copyBytes
    rw [if_neg (by omega), if_neg beyond]
  · rw [failed] at ran
    cases ran
    exact Or.inr ⟨error, rfl, rfl⟩

/-- Placing the arguments leaves the models alone. -/
theorem ArgsPlaced.slots
    (slots : SlotsSound r.device.allocations)
    (placed : ArgsPlaced r after) :
    SlotsSound after.device.allocations ∧ after.models = r.models := by
  cases placed with
  | none => exact ⟨slots, rfl⟩
  | placed vacancy _ =>
      exact ⟨slots.update vacancy.sound fun i member _ used => vacancy.apart i member used, rfl⟩

/-- The state after the configuration, or the failed allocation. -/
theorem prepare_cases
    {kernel : GpuKernel}
    {info : GpuLaunchInfo}
    {blockSize : Word}
    {result : Except GpuError Unit}
    (ran : r.prepare cfg build kernel info blockSize = some (result, after)) :
    ∃ placing placed, r.placeArgs cfg info = some (placing, placed) ∧
      ((∃ code, placing = .error code ∧ result = .error code ∧ after = placed) ∨
        placing = .ok () ∧ result = .ok () ∧
          placed.runModels (configureModels cfg build (info.request kernel placed.launchArgs)
            blockSize) = some ((), after)) := by
  obtain ⟨⟨placing, placed⟩, argsPlaced, rest⟩ := Option.bind_eq_some_iff.mp ran
  refine ⟨placing, placed, argsPlaced, ?_⟩
  cases placing with
  | error code =>
      cases rest
      exact Or.inl ⟨code, rfl, rfl, rfl⟩
  | ok _ =>
      obtain ⟨⟨_, configured⟩, configures, same⟩ := Option.map_eq_some_iff.mp rest
      cases same
      exact Or.inr ⟨rfl, rfl, configures⟩

section Calls

variable {holds : RtlSim V → Prop}

theorem configureModels_keeps
    (calls : RtlSim.KeptByCalls cfg build holds)
    {request : LaunchInfo}
    {blockSize : Word}
    {models next : Models V}
    {pmem afterPmem : Pmem}
    (ran : (configureModels cfg build request blockSize models).run pmem =
      some (((), next), afterPmem))
    (start : holds models.rtl) :
    holds next.rtl := by
  obtain ⟨first, middle, configured, fromFirst⟩ := LocalAction.run_bind_eq_some ran
  obtain ⟨second, last, referenced, rest⟩ := LocalAction.run_bind_eq_some fromFirst
  have executes := Models.configureModel_keeps calls configured start
  cases rest
  split_ifs at referenced
  · exact Models.configureModel_keeps calls referenced executes
  · cases referenced
    exact executes

theorem referenceRun_keeps
    (calls : RtlSim.KeptByCalls cfg build holds)
    {calloc done : Bool}
    {models next : Models V}
    {pmem afterPmem : Pmem}
    (ran : (referenceRun cfg build calloc models).run pmem = some ((done, next), afterPmem))
    (start : holds models.rtl) :
    holds next.rtl := by
  obtain ⟨⟨started, launched⟩, middle, launch, rest⟩ := LocalAction.run_bind_eq_some ran
  have kept := Models.gpuModelLaunch_keeps calls launch start
  dsimp only at rest
  split_ifs at rest
  · exact Models.gpuModelWait_keeps calls rest kept
  · cases rest
    exact kept

theorem Keeps.prepare
    (mapped : cfg.DefaultMap)
    (calls : RtlSim.KeptByCalls cfg build holds)
    (keeps : Keeps holds r)
    {kernel : GpuKernel}
    {info : GpuLaunchInfo}
    {blockSize : Word}
    {result : Except GpuError Unit}
    (ran : r.prepare cfg build kernel info blockSize = some (result, after)) :
    Keeps holds after := by
  obtain ⟨placing, placed, argsPlaced, outcome⟩ := prepare_cases ran
  rcases outcome with ⟨code, rfl, rfl, rfl⟩ | ⟨rfl, rfl, configures⟩
  · rcases placeArgs_cases mapped keeps.slots argsPlaced with ⟨failed, _⟩ | ⟨_, _, rfl⟩
    · cases failed
    · exact ⟨keeps.slots, keeps.rtl⟩
  · rcases placeArgs_cases mapped keeps.slots argsPlaced with ⟨_, inPlace⟩ | ⟨_, failed, _⟩
    · obtain ⟨slots, models⟩ := inPlace.slots keeps.slots
      have start : Keeps holds placed := ⟨slots, models ▸ keeps.rtl⟩
      exact start.runModels (fun _ _ => configureModels_keeps calls) configures
    · cases failed

theorem Keeps.runReference
    (calls : RtlSim.KeptByCalls cfg build holds)
    (keeps : Keeps holds r)
    {host : HostMemory}
    {failure : Option GpuResult}
    (ran : r.runReference cfg build host = some (failure, after)) :
    Keeps holds after := by
  unfold Runtime.runReference at ran
  split_ifs at ran
  · cases ran
    exact Keeps.releaseLaunchArgs ⟨keeps.slots, keeps.rtl⟩
  · obtain ⟨⟨done, referenced⟩, ran, same⟩ := Option.map_eq_some_iff.mp ran
    have reached := keeps.runModels (fun _ _ => referenceRun_keeps calls) ran
    dsimp only at same
    split_ifs at same <;> cases same
    · exact Keeps.releaseLaunchArgs ⟨reached.slots, reached.rtl⟩
    · exact ⟨reached.slots, reached.rtl⟩

theorem Keeps.startExecution
    (calls : RtlSim.KeptByCalls cfg build holds)
    (keeps : Keeps holds r)
    {host : HostMemory}
    {result : GpuResult}
    (ran : r.startExecution cfg build host = some (result, after)) :
    Keeps holds after := by
  obtain ⟨⟨started, launched⟩, ran, same⟩ := Option.map_eq_some_iff.mp ran
  have reached := keeps.runModels (fun _ _ => Models.gpuModelLaunch_keeps calls) ran
  dsimp only at same
  split_ifs at same <;> cases same
  · exact Keeps.releaseLaunchArgs ⟨reached.slots, reached.rtl⟩
  · exact ⟨reached.slots, reached.rtl⟩

theorem Keeps.gpuLaunch
    (mapped : cfg.DefaultMap)
    (calls : RtlSim.KeptByCalls cfg build holds)
    (keeps : Keeps holds r)
    {host : HostMemory}
    {kernel : Option GpuKernel}
    {info : Option GpuLaunchInfo}
    {result : GpuResult}
    (ran : r.gpuLaunch cfg build host kernel info = some (result, after)) :
    Keeps holds after := by
  unfold Runtime.gpuLaunch at ran
  split at ran
  next kernel info =>
    cases checked : r.launchChecks cfg kernel info with
    | none =>
        rw [checked] at ran
        cases ran
        exact keeps
    | some blockSize =>
        rw [checked] at ran
        obtain ⟨⟨result, prepared⟩, prepares, rest⟩ := Option.bind_eq_some_iff.mp ran
        have reached := keeps.prepare mapped calls prepares
        cases result with
        | error code =>
            cases rest
            exact reached
        | ok _ =>
            dsimp only at rest
            split_ifs at rest
            · obtain ⟨⟨failure, referenced⟩, refers, rest⟩ := Option.bind_eq_some_iff.mp rest
              have referencedKept := reached.runReference calls refers
              cases failure with
              | some code =>
                  cases rest
                  exact referencedKept
              | none => exact referencedKept.startExecution calls rest
            · exact reached.startExecution calls rest
  next =>
    cases ran
    exact keeps

/-- The verdict of `gpu_wait` changes at most the reference image. -/
theorem conclude_keeps
    {completed : Bool}
    {result : GpuResult}
    (ran : conclude cfg build completed r = some (result, after)) :
    after = r ∨ after = r.freeReference := by
  unfold conclude at ran
  split_ifs at ran
  · cases ran
    exact Or.inr rfl
  · cases ran
    exact Or.inr rfl
  · cases ran
    exact Or.inl rfl
  · cases ran
    exact Or.inr rfl
  · obtain ⟨reference, _, same⟩ := Option.map_eq_some_iff.mp ran
    cases same
    exact Or.inr rfl
  · cases ran
    exact Or.inl rfl

theorem Keeps.gpuWait
    (calls : RtlSim.KeptByCalls cfg build holds)
    (keeps : Keeps holds r)
    {result : GpuResult}
    (ran : r.gpuWait cfg build = some (result, after)) :
    Keeps holds after := by
  unfold Runtime.gpuWait at ran
  split_ifs at ran
  · cases ran
    exact keeps
  · obtain ⟨⟨completed, waited⟩, waits, concludes⟩ := Option.bind_eq_some_iff.mp ran
    have reached := keeps.runModels (fun _ _ => Models.gpuModelWait_keeps calls) waits
    have released : Keeps holds ({ waited with running := false }.releaseLaunchArgs) :=
      Keeps.releaseLaunchArgs ⟨reached.slots, reached.rtl⟩
    rcases conclude_keeps concludes with rfl | rfl
    · exact released
    · exact ⟨released.slots, released.rtl⟩

end Calls

/-- The slots of a device that has just been opened or closed. -/
theorem slotsSound_empty :
    SlotsSound (fun _ => ⟨0, 0, false⟩) where
  sound _ _ used := Bool.noConfusion used
  apart _ _ _ _ _ used := Bool.noConfusion used

/-- The RTL driver when the process starts, in a build that may not have one. -/
theorem rtl_of_memuRuntimeInit
    (initialized : memuRuntimeInit cfg build = some r) :
    r.device.allocations = (fun _ => ⟨0, 0, false⟩) ∧
      ((build.executionKind = .hm ∧ ∃ pmem after,
          (RtlSim.gpuRtlInit cfg build).run pmem = some (r.models.rtl, after)) ∨
        build.executionKind = .sm ∧ r.models.rtl = RtlSim.created) := by
  obtain ⟨⟨_, started⟩, starts, same⟩ := Option.map_eq_some_iff.mp initialized
  cases same
  obtain ⟨models, pmem, inits, rfl⟩ := runModels_eq_some starts
  refine ⟨rfl, ?_⟩
  obtain ⟨rtl, middle, started, rest⟩ := LocalAction.run_bind_eq_some inits
  cases rest
  cases kind : build.executionKind with
  | hm =>
      rw [kind, if_pos (by decide)] at started
      exact Or.inl ⟨rfl, _, _, started⟩
  | sm =>
      rw [kind, if_neg (by decide)] at started
      cases started
      exact Or.inr ⟨rfl, rfl⟩

/-- What holds of the RTL driver at the start and across its calls holds in every reachable
state. -/
theorem Reachable.keeps
    (mapped : cfg.DefaultMap)
    {holds : RtlSim V → Prop}
    (calls : RtlSim.KeptByCalls cfg build holds)
    (start : ∀ r : Runtime V, memuRuntimeInit cfg build = some r → holds r.models.rtl)
    (reachable : Reachable cfg build r) :
    Keeps holds r := by
  induction reachable with
  | @init r initialized =>
      refine ⟨?_, start r initialized⟩
      rw [(rtl_of_memuRuntimeInit initialized).1]
      exact slotsSound_empty
  | opened _ keeps =>
      unfold gpuDeviceOpen
      split_ifs
      · exact keeps
      · exact keeps
      · exact ⟨slotsSound_empty, keeps.rtl⟩
  | closed _ keeps =>
      unfold gpuDeviceClose
      split_ifs
      · exact keeps
      · exact keeps
      · exact ⟨slotsSound_empty, keeps.rtl⟩
  | memory _ called keeps => exact ⟨heapCall_slots mapped keeps.slots called, keeps.rtl⟩
  | launched _ ran keeps => exact keeps.gpuLaunch mapped calls ran
  | waited _ ran keeps => exact keeps.gpuWait calls ran

/-- Between the calls the reset pin and the launch pin are low. -/
theorem Reachable.lowPins
    (mapped : cfg.DefaultMap)
    (reachable : Reachable cfg build r) :
    Keeps (fun sim : RtlSim V => sim.pins.reset = false ∧ sim.pins.launch = false) r := by
  refine reachable.keeps mapped
    (RtlSim.keptByCalls_pins (fun pins => pins.reset = false ∧ pins.launch = false)
      (fun _ _ low => low) (fun low => ⟨low.1, rfl⟩)) fun r initialized => ?_
  rcases (rtl_of_memuRuntimeInit initialized).2 with ⟨_, _, _, ran⟩ | ⟨_, created⟩
  · rw [RtlSim.gpuRtlInit_pins ran]
    exact ⟨rfl, rfl⟩
  · rw [created]
    exact ⟨rfl, rfl⟩

/-- Every reachable state is well kept. -/
theorem Reachable.wellKept
    (mapped : cfg.DefaultMap)
    (reachable : Reachable cfg build r) :
    WellKept r :=
  ⟨(reachable.lowPins mapped).slots, (reachable.lowPins mapped).rtl.1⟩

/-! ## A device with a kernel -/

/-- Start the process, open the device and load a kernel. -/
def withKernel (V : VGPUTop) (cfg : Config) (build : Build) (words : List Word) :
    Option (GpuKernel × Runtime V) :=
  (memuRuntimeInit cfg build).bind fun r =>
    (gpuKernelLoadMemory cfg (some (imageOf words)) (BitVec.ofNat 64 (4 * words.length)) true true
        r.gpuDeviceOpen.2.device).bind fun result =>
      match result.1 with
      | .ok kernel => some (kernel, { r.gpuDeviceOpen.2 with device := result.2 })
      | .error _ => none

/-- The calls that `withKernel` makes. -/
theorem withKernel_eq_some
    {words : List Word}
    {kernel : GpuKernel}
    (loaded : withKernel V cfg build words = some (kernel, r)) :
    ∃ start device, memuRuntimeInit cfg build = some start ∧
      heapCall cfg start.gpuDeviceOpen.2.device
          (.load (some (imageOf words)) (BitVec.ofNat 64 (4 * words.length)) true true) =
        some (.load (.ok kernel), device) ∧
      r = { start.gpuDeviceOpen.2 with device := device } := by
  obtain ⟨start, started, rest⟩ := Option.bind_eq_some_iff.mp loaded
  obtain ⟨⟨result, device⟩, loads, finish⟩ := Option.bind_eq_some_iff.mp rest
  cases result with
  | error code => cases finish
  | ok address =>
      cases finish
      exact ⟨start, device, started, heapCall_load loads, rfl⟩

/-- A device with a kernel is reachable. -/
theorem reachable_withKernel
    {words : List Word}
    {kernel : GpuKernel}
    (loaded : withKernel V cfg build words = some (kernel, r)) :
    Reachable cfg build r := by
  obtain ⟨start, device, started, called, rfl⟩ := withKernel_eq_some loaded
  exact .memory (.opened (.init started)) called

/-- An allocation leads to a reachable state. -/
theorem Reachable.allocated
    (reachable : Reachable cfg build r)
    {size : HostSize}
    {answer : Except GpuError Word}
    {device : GpuDevice}
    (called : gpuMemAlloc cfg size true r.device = some (answer, device)) :
    Reachable cfg build { r with device := device } :=
  .memory reachable (heapCall_alloc called)

theorem Reachable.freed
    (reachable : Reachable cfg build r)
    (address : Word) :
    Reachable cfg build { r with device := (gpuMemFree address r.device).2 } :=
  .memory reachable (heapCall_free address)

end Runtime

end OpenGPU
