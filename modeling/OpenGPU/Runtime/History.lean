import OpenGPU.Runtime.CallEffects

/-!
# Sequences of runtime calls

A history lists the calls of a host program, the newest one first, each with the states
before and after it. Conditions on the calls of a history are stated on single steps.
-/

namespace OpenGPU

namespace Runtime

open GpuDevice

variable {V : VGPUTop} {cfg : Config} {build : Build} {r after : Runtime V}

/-- A call of the host with what it answered. -/
inductive HostCall
  | opened (result : GpuResult)
  | closed (result : GpuResult)
  | memory (call : HeapCall) (reply : HeapReply)
  | launched (kernel : Option GpuKernel) (info : Option GpuLaunchInfo) (result : GpuResult)
  | waited (result : GpuResult)

/-- A call between two states. -/
structure Step (V : VGPUTop) where
  before : Runtime V
  call : HostCall
  after : Runtime V

/-- The calls that return. -/
inductive Returns (cfg : Config) (build : Build) : Step V → Prop
  | opened (r : Runtime V) : Returns cfg build ⟨r, .opened r.gpuDeviceOpen.1, r.gpuDeviceOpen.2⟩
  | closed (r : Runtime V) : Returns cfg build ⟨r, .closed r.gpuDeviceClose.1, r.gpuDeviceClose.2⟩
  | memory {r : Runtime V} {call : HeapCall} {reply : HeapReply} {device : GpuDevice} :
      heapCall cfg r.device call = some (reply, device) →
      Returns cfg build ⟨r, .memory call reply, { r with device := device }⟩
  | launched {r after : Runtime V} {host : HostMemory} {kernel : Option GpuKernel}
      {info : Option GpuLaunchInfo} {result : GpuResult} :
      r.gpuLaunch cfg build host kernel info = some (result, after) →
      Returns cfg build ⟨r, .launched kernel info result, after⟩
  | waited {r after : Runtime V} {result : GpuResult} :
      r.gpuWait cfg build = some (result, after) →
      Returns cfg build ⟨r, .waited result, after⟩

/-- The histories whose steps are all allowed, with the state that they lead to. -/
inductive History (cfg : Config) (build : Build) (allowed : Step V → Prop) :
    List (Step V) → Runtime V → Prop
  | init {r : Runtime V} :
      memuRuntimeInit cfg build = some r →
      History cfg build allowed [] r
  | step {history : List (Step V)} {step : Step V} :
      History cfg build allowed history step.before →
      Returns cfg build step →
      allowed step →
      History cfg build allowed (step :: history) step.after

/-- A history leads to a reachable state. -/
theorem History.reachable
    {allowed : Step V → Prop}
    {history : List (Step V)}
    (run : History cfg build allowed history r) :
    Reachable cfg build r := by
  induction run with
  | init initialized => exact .init initialized
  | step _ returns _ inductionHypothesis =>
      cases returns with
      | opened => exact .opened inductionHypothesis
      | closed => exact .closed inductionHypothesis
      | memory called => exact .memory inductionHypothesis called
      | launched ran => exact .launched inductionHypothesis ran
      | waited ran => exact .waited inductionHypothesis ran

/-- Every reachable state has a history. -/
theorem Reachable.history
    (reachable : Reachable cfg build r) :
    ∃ history, History cfg build (fun _ => True) history r := by
  induction reachable with
  | init initialized => exact ⟨[], .init initialized⟩
  | opened _ inductionHypothesis =>
      obtain ⟨_, run⟩ := inductionHypothesis
      exact ⟨_, .step run (.opened _) trivial⟩
  | closed _ inductionHypothesis =>
      obtain ⟨_, run⟩ := inductionHypothesis
      exact ⟨_, .step run (.closed _) trivial⟩
  | memory _ called inductionHypothesis =>
      obtain ⟨_, run⟩ := inductionHypothesis
      exact ⟨_, .step run (.memory called) trivial⟩
  | launched _ ran inductionHypothesis =>
      obtain ⟨_, run⟩ := inductionHypothesis
      exact ⟨_, .step run (.launched ran) trivial⟩
  | waited _ ran inductionHypothesis =>
      obtain ⟨_, run⟩ := inductionHypothesis
      exact ⟨_, .step run (.waited ran) trivial⟩

/-- A device with a kernel, as a history of two calls. -/
theorem history_withKernel
    {allowed : Step V → Prop}
    {words : List Word}
    {kernel : GpuKernel}
    (loaded : withKernel V cfg build words = some (kernel, r))
    (opens : ∀ before result after, allowed ⟨before, .opened result, after⟩)
    (loads : ∀ before image size kernel after,
      allowed ⟨before, .memory (.load image size true true) (.load kernel), after⟩) :
    ∃ history, History cfg build allowed history r := by
  obtain ⟨start, device, started, called, rfl⟩ := withKernel_eq_some loaded
  exact ⟨_, .step (.step (.init started) (.opened start) (opens _ _ _)) (.memory called)
    (loads _ _ _ _ _)⟩

/-! ## Effects on the records -/

@[simp] theorem releaseLaunchArgs_running (r : Runtime V) :
    r.releaseLaunchArgs.running = r.running := by
  unfold releaseLaunchArgs
  split_ifs <;> rfl

/-- Giving the argument buffer back changes the allocations of the device only. -/
theorem releaseLaunchArgs_device (r : Runtime V) :
    r.releaseLaunchArgs.device =
      { r.device with allocations := r.releaseLaunchArgs.device.allocations } := by
  unfold releaseLaunchArgs
  split_ifs
  · show (gpuMemFree r.launchArgs r.device).2 = _
    unfold gpuMemFree
    split_ifs
    · rfl
    · cases (List.range gpuMaxAllocs).find? fun i =>
        (r.device.allocations i).used && (r.device.allocations i).address == r.launchArgs <;> rfl
  · rfl

/-- Opening succeeds on a closed device. -/
theorem gpuDeviceOpen_effect (r : Runtime V) :
    (r.gpuDeviceOpen.1 ≠ .success ∧ r.gpuDeviceOpen.2 = r) ∨
      r.gpuDeviceOpen.1 = .success ∧ r.device.validDevice = false ∧
        r.gpuDeviceOpen.2 =
          { r with
            device := r.device.gpuDeviceOpen
            running := false
            launchArgs := 0
            launchArgsUsed := false } := by
  unfold Runtime.gpuDeviceOpen
  split_ifs with uninitialized opened
  · exact Or.inl ⟨GpuResult.noConfusion, rfl⟩
  · exact Or.inl ⟨GpuResult.noConfusion, rfl⟩
  · refine Or.inr ⟨rfl, ?_, rfl⟩
    rw [validDevice, Bool.not_eq_true _ |>.mp opened, Bool.and_false]

/-- Closing succeeds on an open device that runs nothing. -/
theorem gpuDeviceClose_effect (r : Runtime V) :
    (r.gpuDeviceClose.1 ≠ .success ∧ r.gpuDeviceClose.2 = r) ∨
      r.gpuDeviceClose.1 = .success ∧ r.running = false ∧
        r.gpuDeviceClose.2 =
          { r with
            device :=
              { r.device with
                allocations := fun _ => ⟨0, 0, false⟩
                kernels := []
                opened := false }
            reference := none } := by
  unfold Runtime.gpuDeviceClose
  split_ifs with invalid running
  · exact Or.inl ⟨GpuResult.noConfusion, rfl⟩
  · exact Or.inl ⟨GpuResult.noConfusion, rfl⟩
  · exact Or.inr ⟨rfl, Bool.not_eq_true _ |>.mp running, rfl⟩

/-- Placing the arguments leaves the rest of the device alone. -/
theorem ArgsPlaced.records
    (placed : ArgsPlaced r after) :
    after.running = r.running ∧ after.device.validDevice = r.device.validDevice ∧
      after.device.kernelGeneration = r.device.kernelGeneration := by
  cases placed <;> exact ⟨rfl, rfl, rfl⟩

theorem SameRecords.validDevice
    (same : SameRecords r after) :
    after.device.validDevice = r.device.validDevice := by
  rw [same.device]
  rfl

theorem SameRecords.kernelGeneration
    (same : SameRecords r after) :
    after.device.kernelGeneration = r.device.kernelGeneration := by
  rw [same.device]

theorem SameRecords.allocations
    (same : SameRecords r after) :
    after.device.allocations = r.device.allocations := by
  rw [same.device]

/-! ## A running launch -/

/-- Something runs on an open device only, and what runs has been started by
`gpu_model_launch`. -/
structure RunningSound (cfg : Config) (build : Build) (r : Runtime V) : Prop where
  valid : r.device.validDevice = true
  started : ∃ (host : HostMemory) (models : Models V) (before after : Pmem),
    (models.gpuModelLaunch cfg build build.executionKind host.calloc).run before =
      some ((true, r.models), after)

/-- A launch of the software model has a context to schedule. -/
theorem RunningSound.rr_lt
    (sound : RunningSound cfg .softwareModel r) :
    r.models.iss.rr < r.models.iss.ncores := by
  obtain ⟨host, models, before, after, launches⟩ := sound.started
  have answer := congrArg Prod.fst (Option.some.inj launches)
  obtain ⟨started, same⟩ := Prod.mk.inj answer
  rw [← same]
  dsimp only
  unfold Iss.tryLaunch at started ⊢
  split at started
  next launched accepted =>
    split_ifs at accepted
    obtain ⟨positive, _, _, rfl⟩ := Iss.gpuIssLaunch_eq_some accepted
    exact positive
  next => cases started

/-- In every reachable state that runs something, the run is sound. -/
theorem Reachable.runningSound
    (mapped : cfg.DefaultMap)
    (reachable : Reachable cfg build r)
    (running : r.running = true) :
    RunningSound cfg build r := by
  induction reachable with
  | init initialized =>
      obtain ⟨⟨_, started⟩, starts, same⟩ := Option.map_eq_some_iff.mp initialized
      cases same
      rw [(sameRecords_runModels starts).running] at running
      cases running
  | @opened r _ inductionHypothesis =>
      rcases r.gpuDeviceOpen_effect with ⟨_, same⟩ | ⟨_, _, same⟩ <;> rw [same] at running ⊢
      · exact inductionHypothesis running
      · cases running
  | @closed r _ inductionHypothesis =>
      rcases r.gpuDeviceClose_effect with ⟨_, same⟩ | ⟨_, idle, same⟩ <;> rw [same] at running ⊢
      · exact inductionHypothesis running
      · rw [idle] at running
        cases running
  | memory _ called inductionHypothesis =>
      have sound := inductionHypothesis running
      exact ⟨(heapCall_frame called).2.trans sound.valid, sound.started⟩
  | @launched r after host kernel info result reached ran inductionHypothesis =>
      rcases gpuLaunch_effect mapped (reached.wellKept mapped).slots ran with
        ⟨_, rfl⟩ | ⟨k, i, _, _, accepted, effect⟩
      · exact inductionHypothesis running
      · cases effect with
        | noRoom =>
            rw [show _ = r.running from rfl, accepted.idle] at running
            cases running
        | failed _ _ placed same =>
            rw [releaseLaunchArgs_running, same.running, placed.records.1, accepted.idle] at running
            cases running
        | started _ placed same acted =>
            refine ⟨?_, host, _, _, _, acted⟩
            exact (same.validDevice.trans placed.records.2.1).trans accepted.valid
  | @waited r after result reached ran inductionHypothesis =>
      cases gpuWait_effect ran with
      | refused => exact inductionHypothesis running
      | ended _ _ _ _ exit =>
          rcases exit with rfl | rfl
          · rw [releaseLaunchArgs_running] at running
            cases running
          · rw [freeReference, releaseLaunchArgs_running] at running
            cases running

end Runtime

end OpenGPU
