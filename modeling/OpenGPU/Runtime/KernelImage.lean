import OpenGPU.Backend.WaitLoop
import OpenGPU.Runtime.History

/-!
# The image of a launched kernel

A kernel handle carries the generation of its load, and `gpu_launch` compares it with the
generation of the device. Loading replaces the one image window without a look at
`running`, which opening, closing and launching do check; a load while a launch runs
replaces the image under it. In all other histories the window holds the image of the
launched handle until the wait has returned.
-/

namespace OpenGPU

namespace GpuDevice

/-- Two memories with the same image window. -/
def SameWindow (before after : Pmem) : Prop :=
  ∀ a ∈ kernelWindow, after a = before a

/-- The window holds an image of `size` bytes, and zeros behind it. -/
def HoldsImage (pmem : Pmem) (image : Nat → Byte) (size : HostSize) : Prop :=
  ∀ i, i < 0x10000 →
    pmem (gpuKernelBase + BitVec.ofNat 32 i) = if i < size.toNat then image i else 0

section Window

variable {before after pmem : Pmem} {image other : Nat → Byte} {size otherSize : HostSize}

theorem SameWindow.trans
    {third : Pmem}
    (early : SameWindow before after)
    (late : SameWindow after third) :
    SameWindow before third := fun a inside => (late a inside).trans (early a inside)

/-- The bytes of the window by their offsets. -/
theorem window_place
    {i : Nat}
    (inside : i < 0x10000) :
    gpuKernelBase + BitVec.ofNat 32 i ∈ kernelWindow ∧
      (gpuKernelBase + BitVec.ofNat 32 i - gpuKernelBase).toNat = i := by
  have offset : (gpuKernelBase + BitVec.ofNat 32 i - gpuKernelBase).toNat = i := by
    rw [BitVec.add_comm, BitVec.add_sub_cancel, BitVec.toNat_ofNat]
    exact Nat.mod_eq_of_lt (by omega)
  refine ⟨?_, offset⟩
  show (gpuKernelBase + BitVec.ofNat 32 i - gpuKernelBase).toNat < 0x10000
  rw [offset]
  exact inside

theorem HoldsImage.of_same
    (holds : HoldsImage before image size)
    (same : SameWindow before after) :
    HoldsImage after image size := by
  intro i inside
  rw [same _ (window_place inside).1]
  exact holds i inside

/-- A load puts its image into the window. -/
theorem holdsImage_imageLoaded
    (image : Nat → Byte)
    (size : HostSize)
    (pmem : Pmem) :
    HoldsImage (imageLoaded image size pmem) image size := by
  intro i inside
  unfold imageLoaded copyBytes
  rw [(window_place inside).2]
  exact if_congr Iff.rfl rfl (if_pos inside)

/-- Loading what is there changes nothing. -/
theorem HoldsImage.reloaded
    (holds : HoldsImage pmem image size)
    (again : HoldsImage pmem other otherSize) :
    HoldsImage (imageLoaded other otherSize pmem) image size := by
  intro i inside
  rw [holdsImage_imageLoaded other otherSize pmem i inside, ← again i inside]
  exact holds i inside

/-- An access of the heap leaves the window alone. -/
theorem sameWindow_copyBytes
    {address : Word}
    {length : Nat}
    {source : Nat → Byte}
    (base : 0x82000000 ≤ address.toNat)
    (fits : address.toNat + length ≤ 0x88000000) :
    SameWindow pmem (copyBytes pmem address length source) := by
  intro a inside
  rw [mem_kernelWindow_iff] at inside
  apply if_neg
  show a ∉ accessBytes address length
  rw [mem_accessBytes_iff (by omega)]
  omega

end Window

end GpuDevice

namespace Runtime

open GpuDevice

variable {V : VGPUTop} {cfg : Config} {build : Build} {r : Runtime V} {step : Step V}

/-! ## Kinds of calls -/

namespace Step

/-- `gpu_kernel_load_memory` returns a handle for an image. -/
def Loads (step : Step V) (image : Nat → Byte) (size : HostSize) (kernel : GpuKernel) : Prop :=
  step.call = .memory (.load (some image) size true true) (.load (.ok kernel))

/-- `gpu_launch` starts a kernel. -/
def Launches (step : Step V) (kernel : GpuKernel) : Prop :=
  ∃ info, step.call = .launched (some kernel) info .success

/-- `gpu_device_open` starts a session. -/
def Opens (step : Step V) : Prop := step.call = .opened .success

/-- `gpu_wait` ends a launch. -/
def Waits (step : Step V) : Prop := ∃ result, step.call = .waited result ∧ result ≠ .badState

/-- The models leave the image window as they found it. -/
def GuestSpares (cfg : Config) (step : Step V) : Prop :=
  match step.call with
  | .launched _ info _ => SameWindow (lentMemory cfg info step.before) step.after.device.pmem
  | .waited _ => SameWindow step.before.device.pmem step.after.device.pmem
  | _ => True

/-- A load that does not replace the image of a running launch by another one, in a
session with fewer than 2^32 loads. -/
def LoadAllowed (step : Step V) : Prop :=
  ∀ image size kernel, step.Loads image size kernel →
    step.before.device.kernelGeneration ≠ 0xffffffff ∧
      (step.before.running = true → HoldsImage step.before.device.pmem image size)

end Step

/-! ## One call -/

/-- The memory that `gpu_launch` hands to the models has the window of before. -/
theorem sameWindow_lentMemory
    (mapped : cfg.DefaultMap)
    (slots : SlotsSound r.device.allocations)
    (info : Option GpuLaunchInfo) :
    SameWindow r.device.pmem (lentMemory cfg info r) := by
  unfold lentMemory
  cases info with
  | none => exact fun _ _ => rfl
  | some info =>
      dsimp only
      cases ran : r.placeArgs cfg info with
      | none => exact fun _ _ => rfl
      | some placed =>
          rcases placeArgs_cases mapped slots ran with ⟨_, inPlace⟩ | ⟨_, _, same⟩
          · intro a inside
            show placed.2.device.pmem a = r.device.pmem a
            generalize placed.2 = after at inPlace
            cases inPlace with
            | none => rfl
            | placed vacancy bytes =>
                exact bytes a (vacancy.not_visible slots (Or.inl inside))
          · intro a _
            show placed.2.device.pmem a = r.device.pmem a
            rw [same]

/-- A call other than a load keeps the window, as far as the models spare it. -/
theorem sameWindow_step
    (mapped : cfg.DefaultMap)
    (slots : SlotsSound step.before.device.allocations)
    (returns : Returns cfg build step)
    (spares : step.GuestSpares cfg)
    (noLoad : ∀ image size kernel, ¬step.Loads image size kernel) :
    SameWindow step.before.device.pmem step.after.device.pmem := by
  cases returns with
  | opened r =>
      intro a _
      show r.gpuDeviceOpen.2.device.pmem a = r.device.pmem a
      rcases r.gpuDeviceOpen_effect with ⟨_, same⟩ | ⟨_, _, same⟩ <;> rw [same]
      rfl
  | closed r =>
      intro a _
      show r.gpuDeviceClose.2.device.pmem a = r.device.pmem a
      rcases r.gpuDeviceClose_effect with ⟨_, same⟩ | ⟨_, _, same⟩ <;> rw [same]
  | memory called =>
      dsimp only at slots
      cases heapCall_effect mapped slots called with
      | kept => exact fun _ _ => rfl
      | @allocated size address slot base aligned _ vacancy _ =>
          have lower : 0x82000000 ≤ base.toNat := vacancy.sound.base
          have fits : base.toNat + aligned.toNat ≤ 0x88000000 := vacancy.sound.fits
          exact @sameWindow_copyBytes _ base aligned.toNat (fun _ => 0) lower fits
      | freed => exact fun _ _ => rfl
      | wrote base fits => exact sameWindow_copyBytes base fits
      | loaded => exact absurd rfl (noLoad _ _ _)
  | launched ran => exact (sameWindow_lentMemory mapped slots _).trans spares
  | waited ran => exact spares

/-- A load counts the generation up and replaces the image. -/
theorem Step.Loads.effect
    (mapped : cfg.DefaultMap)
    (slots : SlotsSound step.before.device.allocations)
    (returns : Returns cfg build step)
    {image : Nat → Byte}
    {size : HostSize}
    {kernel : GpuKernel}
    (loads : step.Loads image size kernel) :
    kernel.generation = step.before.device.kernelGeneration + 1 ∧
      step.after.device.kernelGeneration = step.before.device.kernelGeneration + 1 ∧
      step.after.device.pmem = imageLoaded image size step.before.device.pmem ∧
      step.after.running = step.before.running := by
  cases returns with
  | memory called =>
      cases loads
      dsimp only at slots
      cases heapCall_effect mapped slots called with
      | kept _ _ noLoad => exact absurd rfl (noLoad _)
      | loaded => exact ⟨rfl, rfl, rfl, rfl⟩
  | opened => cases loads
  | closed => cases loads
  | launched => cases loads
  | waited => cases loads

/-- Only a load and a new session change the generation. -/
theorem kernelGeneration_step
    (mapped : cfg.DefaultMap)
    (slots : SlotsSound step.before.device.allocations)
    (returns : Returns cfg build step)
    (noLoad : ∀ image size kernel, ¬step.Loads image size kernel)
    (noOpen : ¬step.Opens) :
    step.after.device.kernelGeneration = step.before.device.kernelGeneration := by
  cases returns with
  | opened r =>
      rcases r.gpuDeviceOpen_effect with ⟨_, same⟩ | ⟨opens, _, _⟩
      · rw [same]
      · exact absurd (congrArg HostCall.opened opens) noOpen
  | closed r =>
      rcases r.gpuDeviceClose_effect with ⟨_, same⟩ | ⟨_, _, same⟩ <;> rw [same]
  | memory called =>
      dsimp only at slots
      cases heapCall_effect mapped slots called with
      | kept => rfl
      | allocated => rfl
      | freed => rfl
      | wrote => rfl
      | loaded => exact absurd rfl (noLoad _ _ _)
  | launched ran =>
      dsimp only at slots
      rcases gpuLaunch_effect mapped slots ran with ⟨_, same⟩ | ⟨_, _, _, _, _, effect⟩
      · rw [same]
      · cases effect with
        | noRoom => rfl
        | failed _ _ placed same =>
            rw [releaseLaunchArgs_device]
            exact same.kernelGeneration.trans placed.records.2.2
        | started _ placed same _ => exact same.kernelGeneration.trans placed.records.2.2
  | waited ran =>
      cases gpuWait_effect ran with
      | refused => rfl
      | ended _ _ same _ exit =>
          rcases exit with rfl | rfl
          · rw [releaseLaunchArgs_device]
            exact same.kernelGeneration
          · rw [freeReference, releaseLaunchArgs_device]
            exact same.kernelGeneration

/-- What runs goes on running until a wait ends it. -/
theorem running_step
    (mapped : cfg.DefaultMap)
    (reachable : Reachable cfg build step.before)
    (returns : Returns cfg build step)
    (running : step.before.running = true)
    (noWait : ¬step.Waits) :
    step.after.running = true := by
  have sound := reachable.runningSound mapped running
  cases returns with
  | opened r =>
      rcases r.gpuDeviceOpen_effect with ⟨_, same⟩ | ⟨_, closed, _⟩
      · rw [same]
        exact running
      · exact absurd (sound.valid.symm.trans closed) (by decide)
  | closed r =>
      rcases r.gpuDeviceClose_effect with ⟨_, same⟩ | ⟨_, idle, _⟩
      · rw [same]
        exact running
      · exact absurd (running.symm.trans idle) (by decide)
  | memory called => exact running
  | launched ran =>
      rcases gpuLaunch_effect mapped (reachable.wellKept mapped).slots ran with
        ⟨_, same⟩ | ⟨_, _, _, _, accepted, _⟩
      · rw [same]
        exact running
      · exact absurd (running.symm.trans accepted.idle) (by decide)
  | waited ran =>
      cases gpuWait_effect ran with
      | refused => exact running
      | ended _ _ _ proper _ => exact absurd ⟨_, rfl, proper⟩ noWait

/-- A launch takes the handle of the newest generation. -/
theorem Step.Launches.effect
    (mapped : cfg.DefaultMap)
    (slots : SlotsSound step.before.device.allocations)
    (returns : Returns cfg build step)
    {kernel : GpuKernel}
    (launches : step.Launches kernel) :
    kernel.generation = step.before.device.kernelGeneration ∧ step.after.running = true := by
  obtain ⟨info, call⟩ := launches
  cases returns with
  | launched ran =>
      cases call
      dsimp only at slots
      rcases gpuLaunch_effect mapped slots ran with
        ⟨failed, _⟩ | ⟨k, _, named, _, accepted, effect⟩
      · exact absurd rfl failed
      · cases named
        cases effect with
        | noRoom failed => exact absurd rfl failed
        | failed failed => exact absurd rfl failed
        | started => exact ⟨accepted.current, rfl⟩
  | opened => cases call
  | closed => cases call
  | memory => cases call
  | waited => cases call

/-! ## Histories -/

/-- The kernel that a launch was given is the one that runs: from a successful
`gpu_launch` until the matching `gpu_wait` has returned, the window holds the image of the
load that returned the handle, unless the models have stored into the window. -/
def RunsGivenKernel (cfg : Config) (history : List (Step V)) (r : Runtime V) : Prop :=
  ∀ late launch middle load early kernel image size,
    history = late ++ launch :: (middle ++ load :: early) →
    Step.Loads load image size kernel →
    Step.Launches launch kernel →
    (∀ step ∈ middle, ¬Step.Opens step) →
    (∀ step ∈ late.tail, ¬Step.Waits step) →
    (∀ step ∈ late ++ launch :: middle, Step.GuestSpares cfg step) →
    HoldsImage r.device.pmem image size

/-- The last step of a history, with the history before it. -/
theorem History.cons
    {allowed : Step V → Prop}
    {history : List (Step V)}
    (run : History cfg build allowed (step :: history) r) :
    History cfg build allowed history step.before ∧ Returns cfg build step ∧ allowed step ∧
      r = step.after := by
  cases run with
  | step before returns permitted => exact ⟨before, returns, permitted, rfl⟩

/-- A part of a history is a history. -/
theorem History.suffix
    {allowed : Step V → Prop}
    {late early : List (Step V)}
    (run : History cfg build allowed (late ++ early) r) :
    ∃ middle, History cfg build allowed early middle := by
  induction late generalizing r with
  | nil => exact ⟨r, run⟩
  | cons step late inductionHypothesis => exact inductionHypothesis run.cons.1

/-- Without conditions every history counts. -/
theorem History.relaxed
    {allowed : Step V → Prop}
    {history : List (Step V)}
    (run : History cfg build allowed history r) :
    History cfg build (fun _ => True) history r := by
  induction run with
  | init initialized => exact .init initialized
  | step _ returns _ inductionHypothesis => exact .step inductionHypothesis returns trivial

/-- The generation of a load is not above that of the device; while they are equal, the
window holds the image. -/
theorem History.loaded
    (mapped : cfg.DefaultMap)
    {middle early : List (Step V)}
    {load : Step V}
    {image : Nat → Byte}
    {size : HostSize}
    {kernel : GpuKernel}
    (run : History cfg build Step.LoadAllowed (middle ++ load :: early) r)
    (loads : load.Loads image size kernel)
    (noOpen : ∀ step ∈ middle, ¬Step.Opens step) :
    kernel.generation.toNat ≤ r.device.kernelGeneration.toNat ∧
      (kernel.generation = r.device.kernelGeneration →
        (∀ step ∈ middle, Step.GuestSpares cfg step) → HoldsImage r.device.pmem image size) := by
  induction middle generalizing r with
  | nil =>
      obtain ⟨before, returns, _, rfl⟩ := run.cons
      obtain ⟨generation, counted, loaded, _⟩ :=
        loads.effect mapped (before.reachable.wellKept mapped).slots returns
      rw [generation, counted, loaded]
      exact ⟨Nat.le_refl _, fun _ _ => holdsImage_imageLoaded image size _⟩
  | cons step middle inductionHypothesis =>
      obtain ⟨before, returns, allowed, rfl⟩ := run.cons
      have slots := (before.reachable.wellKept mapped).slots
      obtain ⟨below, holds⟩ := inductionHypothesis before fun other member =>
        noOpen other (List.mem_cons_of_mem _ member)
      by_cases again : ∃ image size kernel, step.Loads image size kernel
      · obtain ⟨other, otherSize, newer, reloads⟩ := again
        obtain ⟨_, counted, _, _⟩ := reloads.effect mapped slots returns
        obtain ⟨room, _⟩ := allowed _ _ _ reloads
        -- The generation goes up without wrapping, so the older handle is stale.
        have next : step.after.device.kernelGeneration.toNat =
            step.before.device.kernelGeneration.toNat + 1 := by
          rw [counted, BitVec.toNat_add]
          have bound := step.before.device.kernelGeneration.isLt
          have small : step.before.device.kernelGeneration.toNat ≠ 2 ^ 32 - 1 := fun full =>
            room (BitVec.eq_of_toNat_eq full)
          exact Nat.mod_eq_of_lt (show _ + 1 < 2 ^ 32 by omega)
        refine ⟨by omega, fun equal => ?_⟩
        have equal := congrArg BitVec.toNat equal
        omega
      · have noLoad : ∀ image size kernel, ¬step.Loads image size kernel :=
          fun image size kernel reloads => again ⟨image, size, kernel, reloads⟩
        rw [kernelGeneration_step mapped slots returns noLoad
          (noOpen step List.mem_cons_self)]
        refine ⟨below, fun current spares => ?_⟩
        have same := sameWindow_step mapped slots returns (spares step List.mem_cons_self) noLoad
        exact (holds current fun other member =>
          spares other (List.mem_cons_of_mem _ member)).of_same same

/-- While a launch runs, its image stays. -/
theorem History.keepsImage
    (mapped : cfg.DefaultMap)
    {late early : List (Step V)}
    {launch : Step V}
    {image : Nat → Byte}
    {size : HostSize}
    (run : History cfg build Step.LoadAllowed (late ++ launch :: early) r)
    (running : launch.after.running = true)
    (holds : HoldsImage launch.after.device.pmem image size)
    (noWait : ∀ step ∈ late.tail, ¬Step.Waits step)
    (spares : ∀ step ∈ late, Step.GuestSpares cfg step) :
    HoldsImage r.device.pmem image size ∧
      ((∀ step ∈ late, ¬Step.Waits step) → r.running = true) := by
  induction late generalizing r with
  | nil =>
      obtain ⟨_, _, _, rfl⟩ := run.cons
      exact ⟨holds, fun _ => running⟩
  | cons step late inductionHypothesis =>
      obtain ⟨before, returns, allowed, rfl⟩ := run.cons
      obtain ⟨held, stillRuns⟩ := inductionHypothesis before
        (fun other member => noWait other (List.mem_of_mem_tail member))
        fun other member => spares other (List.mem_cons_of_mem _ member)
      have runs := stillRuns noWait
      have slots := (before.reachable.wellKept mapped).slots
      constructor
      · by_cases again : ∃ image size kernel, step.Loads image size kernel
        · obtain ⟨other, otherSize, kernel, reloads⟩ := again
          obtain ⟨_, _, loaded, _⟩ := reloads.effect mapped slots returns
          rw [loaded]
          exact held.reloaded ((allowed _ _ _ reloads).2 runs)
        · refine held.of_same (sameWindow_step mapped slots returns
            (spares step List.mem_cons_self) fun image size kernel reloads => ?_)
          exact again ⟨image, size, kernel, reloads⟩
      · intro none
        exact running_step mapped before.reachable returns runs (none step List.mem_cons_self)

/-- In every history whose loads do not replace the image of a running launch, every
launch runs the kernel that it was given. -/
theorem launch_runsGivenKernel
    (mapped : cfg.DefaultMap)
    {history : List (Step V)}
    (run : History cfg build Step.LoadAllowed history r) :
    RunsGivenKernel cfg history r := by
  rintro late launch middle load early kernel image size rfl loads launches noOpen noWait spares
  obtain ⟨_, launched⟩ := run.suffix
  obtain ⟨before, returns, _, rfl⟩ := launched.cons
  have slots := (before.reachable.wellKept mapped).slots
  obtain ⟨current, running⟩ := launches.effect mapped slots returns
  have held := (before.loaded mapped loads noOpen).2 current fun step member =>
    spares step (List.mem_append_right _ (List.mem_cons_of_mem _ member))
  have same := sameWindow_step mapped slots returns
    (spares launch (List.mem_append_right _ List.mem_cons_self)) fun image size kernel reloads => by
      obtain ⟨info, call⟩ := launches
      rw [Step.Loads, call] at reloads
      cases reloads
  exact (run.keepsImage mapped running (held.of_same same) noWait fun step member =>
    spares step (List.mem_append_left _ member)).1

/-! ## The software model -/

/-- The software model launches without a store. -/
theorem gpuLaunch_software_pmem
    {after : Runtime V}
    {host : HostMemory}
    {kernel : GpuKernel}
    {info : GpuLaunchInfo}
    (ran : r.gpuLaunch cfg .softwareModel host (some kernel) (some info) = some (.success, after)) :
    after.device.pmem = lentMemory cfg (some info) r := by
  unfold gpuLaunch at ran
  dsimp only at ran
  cases checked : r.launchChecks cfg kernel info with
  | none =>
      rw [checked] at ran
      cases ran
  | some blockSize =>
      rw [checked] at ran
      obtain ⟨⟨outcome, prepared⟩, prepares, rest⟩ := Option.bind_eq_some_iff.mp ran
      obtain ⟨placing, placed, argsPlaced, exit⟩ := prepare_cases prepares
      rcases exit with ⟨code, rfl, rfl, rfl⟩ | ⟨rfl, rfl, configures⟩
      · cases code <;> cases rest
      · obtain ⟨models, pmem, configured, rfl⟩ := runModels_eq_some configures
        rw [run_configureModels_sm] at configured
        cases configured
        rcases startExecution_effect rest with ⟨failed, _⟩ | ⟨_, launched, after, acted, rfl⟩
        · exact absurd rfl failed
        · have kept : after = placed.device.pmem :=
            (congrArg Prod.snd (Option.some.inj acted)).symm
          show after = lentMemory cfg (some info) r
          rw [kept, lentMemory, argsPlaced]
          rfl

/-- A wait for the software model keeps the bytes that its run spares. -/
theorem gpuWait_software_eqOn
    {after : Runtime V}
    {result : GpuResult}
    {bytes : Set Word}
    (sound : RunningSound cfg .softwareModel r)
    (spares : Iss.Spares cfg { r.models.iss with pmem := r.device.pmem } gpuWaitLimit bytes)
    (ran : r.gpuWait cfg .softwareModel = some (result, after)) :
    Set.EqOn after.device.pmem r.device.pmem bytes := by
  unfold gpuWait at ran
  split_ifs at ran
  · cases ran
    exact Set.eqOn_refl _ _
  · obtain ⟨⟨completed, waited⟩, waits, concludes⟩ := Option.bind_eq_some_iff.mp ran
    obtain ⟨models, pmem, acted, rfl⟩ := runModels_eq_some waits
    have memory : after.device.pmem = pmem := by
      rcases conclude_keeps concludes with rfl | rfl
      · rw [releaseLaunchArgs_pmem]
      · rw [freeReference, releaseLaunchArgs_pmem]
    obtain ⟨⟨answer, last⟩, middle, steps, finished⟩ := LocalAction.run_bind_eq_some acted
    cases finished
    have start : Iss.ReachableIn cfg { r.models.iss with pmem := r.device.pmem } 0
        { r.models.iss with pmem := r.device.pmem } := .refl
    obtain ⟨more, within, reached, _⟩ := start.run_waitSteps_reaches sound.rr_lt steps
    rw [memory]
    exact spares.eqOn sound.rr_lt reached (by omega)

/-- The first load of a process replaces nothing that runs. -/
theorem loadAllowed_first
    {start after : Runtime V}
    {call : HostCall}
    (started : memuRuntimeInit cfg build = some start) :
    Step.LoadAllowed ⟨start.gpuDeviceOpen.2, call, after⟩ := by
  have unused : start.device.kernelGeneration = 0 ∧ start.running = false := by
    obtain ⟨⟨_, initial⟩, starts, rfl⟩ := Option.map_eq_some_iff.mp started
    have same := sameRecords_runModels starts
    exact ⟨same.kernelGeneration, same.running⟩
  have opened : start.gpuDeviceOpen.2.device.kernelGeneration = 0 ∧
      start.gpuDeviceOpen.2.running = false := by
    rcases start.gpuDeviceOpen_effect with ⟨_, same⟩ | ⟨_, _, same⟩ <;> rw [same]
    · exact unused
    · exact ⟨rfl, rfl⟩
  intro image size kernel loads
  dsimp only
  rw [opened.1, opened.2]
  exact ⟨by decide, fun running => Bool.noConfusion running⟩

/-- The launch of the first kernel of a process on the software model, as a history of
three calls. -/
theorem history_launched
    {words : List Word}
    {kernel : GpuKernel}
    {info : GpuLaunchInfo}
    {host : HostMemory}
    {running : Runtime V}
    (loaded : withKernel V cfg .softwareModel words = some (kernel, r))
    (ran : r.gpuLaunch cfg .softwareModel host (some kernel) (some info) =
      some (.success, running)) :
    ∃ opened load : Step V,
      History cfg .softwareModel Step.LoadAllowed
          [⟨r, .launched (some kernel) (some info) .success, running⟩, load, opened] running ∧
        load.Loads (imageOf words) (BitVec.ofNat 64 (4 * words.length)) kernel ∧
        Step.GuestSpares cfg ⟨r, .launched (some kernel) (some info) .success, running⟩ := by
  obtain ⟨start, device, started, called, rfl⟩ := withKernel_eq_some loaded
  refine ⟨_, _, .step (.step (.step (.init started) (.opened start) ?_) (.memory called)
    (loadAllowed_first started)) (.launched ran) ?_, rfl, ?_⟩
  · intro _ _ _ reloads
    cases reloads
  · intro _ _ _ reloads
    cases reloads
  · intro a _
    exact congrFun (gpuLaunch_software_pmem ran) a

/-- While two threads of a launch part, the host allocates a buffer and loads the same image
again; one thread stores into the buffer, the wait returns, and the window still holds
the image. -/
theorem launch_runsGivenKernel_reloaded :
    ∃ (wait reload alloc launch load opened : Step (Verilog.vgpuTop Config.onePair))
      (kernel again : GpuKernel),
      History Config.onePair .softwareModel Step.LoadAllowed
          [wait, reload, alloc, launch, load, opened] wait.after ∧
        load.Loads (imageOf partingKernel) 20 kernel ∧ launch.Launches kernel ∧
        reload.before.running = true ∧ reload.Loads (imageOf partingKernel) 20 again ∧
        wait.Waits ∧ wait.after.device.pmem 0x82000000 = 1 ∧
        HoldsImage wait.after.device.pmem (imageOf partingKernel) 20 := by
  have observed : (do
      let loaded ← withKernel (Verilog.vgpuTop Config.onePair) Config.onePair .softwareModel
        partingKernel
      let launched ← loaded.2.gpuLaunch Config.onePair .softwareModel ⟨true, true⟩ (some loaded.1)
        (some onePairOfThreads)
      let buffer ← gpuMemAlloc Config.onePair 4 true launched.2.device
      let again ← gpuKernelLoadMemory Config.onePair (some (imageOf partingKernel)) 20 true true
        buffer.2
      let waited ← { launched.2 with device := again.2 }.gpuWait Config.onePair .softwareModel
      let start : Iss := { launched.2.models.iss with pmem := again.2.pmem }
      some (decide (launched.1 = .success ∧ launched.2.running = true ∧
        buffer.2.kernelGeneration = 1 ∧ again.1.isOk = true ∧
        Iss.EndsAfter Config.onePair start 9 ∧
        (∀ touched ∈ Iss.touchedBy Config.onePair start 9, ∀ stored ∈ touched.stores,
          Iss.NoCommonByte stored (gpuKernelBase, 0x10000)) ∧
        waited.1 = .success ∧ waited.2.device.pmem 0x82000000 = 1))) = some true := by
    decide +kernel
  obtain ⟨⟨kernel, loaded⟩, loads, observed⟩ := Option.bind_eq_some_iff.mp observed
  obtain ⟨⟨result, running⟩, launches, observed⟩ := Option.bind_eq_some_iff.mp observed
  obtain ⟨⟨buffer, buffered⟩, allocates, observed⟩ := Option.bind_eq_some_iff.mp observed
  obtain ⟨⟨answer, device⟩, reloads, observed⟩ := Option.bind_eq_some_iff.mp observed
  obtain ⟨⟨verdict, last⟩, waits, observed⟩ := Option.bind_eq_some_iff.mp observed
  obtain ⟨rfl, runs, generation, answered, ends, apart, rfl, byte⟩ :=
    of_decide_eq_true (Option.some.inj observed)
  dsimp only at loads launches allocates reloads runs generation answered ends apart byte
  cases answer with
  | error code => cases answered
  | ok again =>
      obtain ⟨opened, load, launched, loaded, spared⟩ := history_launched loads launches
      have buffers := History.step launched (.memory (heapCall_alloc allocates))
        fun _ _ _ loads => by cases loads
      have held := launch_runsGivenKernel ⟨rfl, rfl⟩ buffers [_] _ [] load [opened] kernel
        (imageOf partingKernel) 20 rfl loaded ⟨_, rfl⟩ (by simp) (by simp)
        (by simpa [Step.GuestSpares] using spared)
      have again := History.step buffers (.memory (heapCall_load reloads))
        fun image size kernel loads => by
          cases loads
          exact ⟨by rw [generation]; decide, fun _ => held⟩
      have run := History.step again (.waited waits) fun _ _ _ loads => by cases loads
      have sound := again.reachable.runningSound ⟨rfl, rfl⟩ runs
      have kept := gpuWait_software_eqOn sound (ends.spares apart gpuWaitLimit) waits
      refine ⟨_, _, _, _, load, opened, kernel, _, run, loaded, ⟨_, rfl⟩, runs, rfl,
        ⟨_, rfl, by decide⟩, byte, ?_⟩
      refine launch_runsGivenKernel ⟨rfl, rfl⟩ run [_, _, _] _ [] load [opened] kernel
        (imageOf partingKernel) 20 rfl loaded ⟨_, rfl⟩ (by simp) ?_ ?_
      · simp [Step.Waits]
      · simp only [List.cons_append, List.nil_append, List.forall_mem_cons]
        exact ⟨kept, trivial, trivial, spared, by simp⟩

/-- A second load while a launch runs replaces its image. -/
theorem launch_otherKernel :
    ∃ (history : List (Step (Verilog.vgpuTop Config.oneLane))) (r : Runtime _),
      History Config.oneLane .softwareModel (fun _ => True) history r ∧
        ¬RunsGivenKernel Config.oneLane history r := by
  have observed : (do
      let loaded ← withKernel (Verilog.vgpuTop Config.oneLane) Config.oneLane .softwareModel
        [Instruction.ebreak]
      let launched ← loaded.2.gpuLaunch Config.oneLane .softwareModel ⟨true, true⟩ (some loaded.1)
        (some oneThread)
      let replaced ← gpuKernelLoadMemory Config.oneLane (some (imageOf [0x0000006f])) 4 true true
        launched.2.device
      some (decide (launched.1 = .success ∧ replaced.2.pmem 0x81000000 = 0x6f))) = some true := by
    decide +kernel
  obtain ⟨⟨kernel, loaded⟩, loads, observed⟩ := Option.bind_eq_some_iff.mp observed
  obtain ⟨⟨result, running⟩, launches, observed⟩ := Option.bind_eq_some_iff.mp observed
  obtain ⟨⟨answer, device⟩, reloads, observed⟩ := Option.bind_eq_some_iff.mp observed
  obtain ⟨rfl, byte⟩ := of_decide_eq_true (Option.some.inj observed)
  dsimp only at loads launches reloads byte
  obtain ⟨opened, load, launched, loaded, spared⟩ := history_launched loads launches
  have longer := History.step launched.relaxed (.memory (heapCall_load reloads)) trivial
  refine ⟨_, _, longer, fun runs => ?_⟩
  have held := runs [_] _ [] load [opened] kernel (imageOf [Instruction.ebreak]) 4 rfl loaded
    ⟨_, rfl⟩ (by simp) (by simp) (by simpa [Step.GuestSpares] using spared)
  have first := held 0 (by decide)
  rw [show gpuKernelBase + BitVec.ofNat 32 0 = 0x81000000 from rfl] at first
  exact absurd (byte.symm.trans first) (by decide)

end Runtime

end OpenGPU
