import OpenGPU.Runtime.KernelImage

/-!
# Who owns an allocation

The argument buffer of a launch lives in the allocation table of the host, and
`release_launch_args` gives it back by its address. As long as the host does not free
that address itself while the launch runs, the live allocations are those that the host
has been given and has not freed, and the argument buffer of the running launch.
-/

namespace OpenGPU

namespace Runtime

open GpuDevice

variable {V : VGPUTop} {cfg : Config} {build : Build} {r after : Runtime V} {step : Step V}
  {history : List (Step V)}

/-! ## The allocations of the host -/

namespace Step

/-- `gpu_mem_alloc` returns an address. -/
def Allocates (step : Step V) (size : HostSize) (base : Word) : Prop :=
  ∃ named, step.call = .memory (.alloc size named) (.alloc (.ok base))

/-- The host calls `gpu_mem_free`. -/
def Frees (step : Step V) (address : Word) : Prop :=
  ∃ reply, step.call = .memory (.free address) reply

/-- The host closes the device. -/
def Closes (step : Step V) : Prop := step.call = .closed .success

/-- The host does not free the argument buffer of the running launch. -/
def FreeAllowed (step : Step V) : Prop :=
  ∀ address, step.Frees address → step.before.launchArgsUsed = true →
    address ≠ step.before.launchArgs

end Step

/-- What the host has been given and has not given back. -/
def owned : List (Step V) → Set (Word × Word)
  | [] => ∅
  | step :: history =>
      match step.call with
      | .closed .success => ∅
      | .memory (.alloc size _) (.alloc (.ok base)) =>
          insert (base, BitVec.ofNat 32 (roundUp size.toNat)) (owned history)
      | .memory (.free address) (.free (.ok _)) =>
          { buffer | buffer ∈ owned history ∧ buffer.1 ≠ address }
      | _ => owned history

/-- The live allocations without the argument buffer. -/
def hostBuffers (r : Runtime V) : Set (Word × Word) :=
  { buffer | buffer ∈ r.device.liveAllocations ∧
    (r.launchArgsUsed = true → buffer.1 ≠ r.launchArgs) }

theorem hostBuffers_idle
    (idle : r.launchArgsUsed = false) :
    hostBuffers r = r.device.liveAllocations := by
  ext buffer
  refine ⟨fun host => host.1, fun live => ⟨live, fun used => ?_⟩⟩
  rw [idle] at used
  exact Bool.noConfusion used

/-- The buffers of the host are a matter of the slots and of the argument buffer. -/
theorem SameRecords.hostBuffers
    (same : SameRecords r after) :
    hostBuffers after = hostBuffers r := by
  unfold Runtime.hostBuffers
  rw [liveAllocations_congr same.allocations, same.launchArgs, same.launchArgsUsed]

/-- Placing the arguments keeps the allocations of before. -/
theorem ArgsPlaced.hostBuffers
    (slots : SlotsSound r.device.allocations)
    (placed : ArgsPlaced r after) :
    hostBuffers after = r.device.liveAllocations ∧
      (after.launchArgsUsed = true →
        ∃ size, (after.launchArgs, size) ∈ after.device.liveAllocations) := by
  cases placed with
  | none => exact ⟨hostBuffers_idle rfl, fun used => Bool.noConfusion used⟩
  | @placed slot address size pmem vacancy _ =>
      have live : GpuDevice.liveAllocations
          { r.device with
            allocations := Function.update r.device.allocations slot ⟨address, size, true⟩
            pmem := pmem } =
          insert (address, size) r.device.liveAllocations := vacancy.liveAllocations rfl
      unfold Runtime.hostBuffers
      dsimp only
      rw [live]
      refine ⟨?_, fun _ => ⟨size, Set.mem_insert _ _⟩⟩
      ext buffer
      constructor
      · rintro ⟨rfl | held, other⟩
        · exact absurd rfl (other rfl)
        · exact held
      · exact fun held => ⟨Or.inr held, fun _ => vacancy.ne_address slots buffer held⟩

/-- Giving the argument buffer back leaves the buffers of the host. -/
theorem releaseLaunchArgs_hostBuffers
    (slots : SlotsSound r.device.allocations)
    (valid : r.device.validDevice = true) :
    r.releaseLaunchArgs.device.liveAllocations = hostBuffers r ∧
      r.releaseLaunchArgs.launchArgsUsed = false := by
  unfold releaseLaunchArgs
  split_ifs with used
  · refine ⟨(liveAllocations_gpuMemFree slots valid _).trans ?_, rfl⟩
    ext buffer
    exact ⟨fun host => ⟨host.1, fun _ => host.2⟩, fun host => ⟨host.1, host.2 used⟩⟩
  · have idle := Bool.eq_false_of_not_eq_true used
    exact ⟨(hostBuffers_idle idle).symm, idle⟩

/-- The live allocations are those of the host and, while a launch with arguments runs,
its buffer. -/
structure Owns (history : List (Step V)) (r : Runtime V) : Prop where
  host : hostBuffers r = owned history
  buffer : r.launchArgsUsed = true →
    r.running = true ∧ ∃ size, (r.launchArgs, size) ∈ r.device.liveAllocations
  closed : r.device.validDevice = false → r.device.liveAllocations = ∅

/-! ## One call -/

/-- A session starts with nothing. -/
theorem Owns.opened
    (owns : Owns history r) :
    Owns (⟨r, .opened r.gpuDeviceOpen.1, r.gpuDeviceOpen.2⟩ :: history) r.gpuDeviceOpen.2 := by
  rcases r.gpuDeviceOpen_effect with ⟨_, same⟩ | ⟨_, closed, same⟩ <;> rw [same]
  · exact ⟨owns.host, owns.buffer, owns.closed⟩
  · have cleared : GpuDevice.liveAllocations r.device.gpuDeviceOpen = ∅ := liveAllocations_empty rfl
    have nothing : owned history = ∅ := by
      rw [← owns.host]
      exact Set.subset_empty_iff.mp fun buffer host => owns.closed closed ▸ host.1
    refine ⟨?_, fun used => Bool.noConfusion used, fun _ => cleared⟩
    rw [hostBuffers_idle rfl]
    exact cleared.trans nothing.symm

/-- A session ends with nothing. -/
theorem Owns.closeDevice
    (owns : Owns history r) :
    Owns (⟨r, .closed r.gpuDeviceClose.1, r.gpuDeviceClose.2⟩ :: history) r.gpuDeviceClose.2 := by
  have kept : ∀ result, result ≠ .success →
      owned (⟨r, .closed result, r.gpuDeviceClose.2⟩ :: history) = owned history := by
    intro result failed
    cases result <;> first | rfl | exact absurd rfl failed
  rcases r.gpuDeviceClose_effect with ⟨failed, same⟩ | ⟨closes, idle, same⟩
  · have unchanged := kept _ failed
    rw [same] at unchanged ⊢
    exact ⟨owns.host.trans unchanged.symm, owns.buffer, owns.closed⟩
  · have unused : r.launchArgsUsed = false := by
      cases used : r.launchArgsUsed with
      | false => rfl
      | true => exact absurd (idle.symm.trans (owns.buffer used).1) (by decide)
    rw [closes, same]
    have cleared : GpuDevice.liveAllocations
        { r.device with allocations := fun _ => ⟨0, 0, false⟩, kernels := [], opened := false } =
        ∅ := liveAllocations_empty rfl
    refine ⟨Eq.trans ?_ cleared, fun used => Bool.noConfusion (unused.symm.trans used),
      fun _ => cleared⟩
    apply hostBuffers_idle
    exact unused

/-- The memory calls that the host makes. -/
theorem Owns.memory
    (mapped : cfg.DefaultMap)
    (slots : SlotsSound r.device.allocations)
    {call : HeapCall}
    {reply : HeapReply}
    {device : GpuDevice}
    (owns : Owns history r)
    (called : heapCall cfg r.device call = some (reply, device))
    (allowed : Step.FreeAllowed ⟨r, .memory call reply, { r with device := device }⟩) :
    Owns (⟨r, .memory call reply, { r with device := device }⟩ :: history)
      { r with device := device } := by
  cases heapCall_effect mapped slots called with
  | kept noAlloc noFree _ =>
      refine ⟨owns.host.trans ?_, owns.buffer, owns.closed⟩
      cases call <;> cases reply <;> try rfl
      next answer _ =>
        cases answer with
        | error => rfl
        | ok base => exact absurd rfl (noAlloc base)
      next answer _ =>
        cases answer with
        | error => rfl
        | ok => exact absurd rfl noFree
  | @allocated size named slot base aligned valid vacancy rounded =>
      have live : GpuDevice.liveAllocations
          { r.device with
            allocations := Function.update r.device.allocations slot ⟨base, aligned, true⟩
            pmem := copyBytes r.device.pmem base aligned.toNat fun _ => 0 } =
          insert (base, aligned) r.device.liveAllocations := vacancy.liveAllocations rfl
      refine ⟨?_, fun used => ?_, fun closed => Bool.noConfusion (valid.symm.trans closed)⟩
      · have exactSize : BitVec.ofNat 32 (roundUp size.toNat) = aligned := by
          rw [← rounded, BitVec.ofNat_toNat, BitVec.setWidth_eq]
        have own : r.launchArgsUsed = true → base ≠ r.launchArgs := by
          intro used same
          obtain ⟨_, other, held⟩ := owns.buffer used
          exact vacancy.ne_address slots _ held same.symm
        show _ = insert (base, BitVec.ofNat 32 (roundUp size.toNat)) (owned history)
        rw [exactSize, ← owns.host]
        unfold hostBuffers
        dsimp only
        rw [live]
        ext buffer
        constructor
        · rintro ⟨rfl | held, apart⟩
          · exact Or.inl rfl
          · exact Or.inr ⟨held, apart⟩
        · rintro (rfl | ⟨held, apart⟩)
          · exact ⟨Or.inl rfl, own⟩
          · exact ⟨Or.inr held, apart⟩
      · obtain ⟨running, other, held⟩ := owns.buffer used
        refine ⟨running, other, ?_⟩
        dsimp only
        rw [live]
        exact Or.inr held
  | @freed address slot member used same =>
      have live : GpuDevice.liveAllocations
          { r.device with
            allocations :=
              Function.update r.device.allocations slot
                { r.device.allocations slot with used := false } } =
          { buffer | buffer ∈ r.device.liveAllocations ∧ buffer.1 ≠ address } := by
        rw [← same]
        exact liveAllocations_giveUp slots member used rfl
      refine ⟨?_, fun buffered => ?_, fun closed => ?_⟩
      · show _ = { buffer | buffer ∈ owned history ∧ buffer.1 ≠ address }
        rw [← owns.host]
        unfold hostBuffers
        dsimp only
        rw [live]
        ext buffer
        exact ⟨fun host => ⟨⟨host.1.1, host.2⟩, host.1.2⟩,
          fun host => ⟨⟨host.1.1, host.2⟩, host.1.2⟩⟩
      · obtain ⟨running, other, held⟩ := owns.buffer buffered
        refine ⟨running, other, ?_⟩
        dsimp only
        rw [live]
        exact ⟨held, fun freed => allowed address ⟨_, rfl⟩ buffered freed.symm⟩
      · dsimp only
        rw [live]
        refine Set.eq_empty_of_forall_notMem fun buffer held => ?_
        have nothing := owns.closed closed
        exact (nothing ▸ held.1 : buffer ∈ (∅ : Set (Word × Word)))
  | wrote => exact ⟨owns.host, owns.buffer, owns.closed⟩
  | loaded => exact ⟨owns.host, owns.buffer, owns.closed⟩

/-- A launch takes nothing from the host. -/
theorem Owns.launched
    (mapped : cfg.DefaultMap)
    (kept : WellKept r)
    {host : HostMemory}
    {kernel : Option GpuKernel}
    {info : Option GpuLaunchInfo}
    {result : GpuResult}
    (owns : Owns history r)
    (ran : r.gpuLaunch cfg build host kernel info = some (result, after)) :
    hostBuffers after = hostBuffers r ∧
      Owns (⟨r, .launched kernel info result, after⟩ :: history) after := by
  -- Both halves follow once the buffers of the host are known to be the same.
  have assemble : hostBuffers after = hostBuffers r →
      (after.launchArgsUsed = true →
        after.running = true ∧ ∃ size, (after.launchArgs, size) ∈ after.device.liveAllocations) →
      (after.device.validDevice = false → after.device.liveAllocations = ∅) →
      hostBuffers after = hostBuffers r ∧
        Owns (⟨r, .launched kernel info result, after⟩ :: history) after :=
    fun same buffer closed => ⟨same, same.trans owns.host, buffer, closed⟩
  rcases gpuLaunch_effect mapped kept.slots ran with ⟨_, rfl⟩ | ⟨_, _, _, _, accepted, effect⟩
  · exact assemble rfl owns.buffer owns.closed
  have unused : r.launchArgsUsed = false := by
    cases used : r.launchArgsUsed with
    | false => rfl
    | true => exact absurd (accepted.idle.symm.trans (owns.buffer used).1) (by decide)
  have before := hostBuffers_idle unused
  cases effect with
  | noRoom =>
      exact assemble ((hostBuffers_idle rfl).trans before.symm) (fun used => Bool.noConfusion used)
        owns.closed
  | @failed placed stopped _ _ _ inPlace same =>
      obtain ⟨host, _⟩ := inPlace.hostBuffers kept.slots
      have valid : stopped.device.validDevice = true :=
        (same.validDevice.trans inPlace.records.2.1).trans accepted.valid
      have slots : SlotsSound stopped.device.allocations := by
        rw [same.allocations]
        exact (inPlace.slots kept.slots).1
      obtain ⟨live, released⟩ := releaseLaunchArgs_hostBuffers slots valid
      refine assemble ?_ (fun used => Bool.noConfusion (released.symm.trans used)) fun closed => ?_
      · rw [hostBuffers_idle released, live, same.hostBuffers, host, before]
      · rw [releaseLaunchArgs_device] at closed
        exact Bool.noConfusion (valid.symm.trans closed)
  | @started placed ready models pmem _ inPlace same _ =>
      obtain ⟨host, buffer⟩ := inPlace.hostBuffers kept.slots
      refine assemble ((same.hostBuffers.trans host).trans before.symm) (fun used => ⟨rfl, ?_⟩)
        fun closed => ?_
      · obtain ⟨size, held⟩ := buffer (same.launchArgsUsed ▸ used)
        refine ⟨size, ?_⟩
        show (ready.launchArgs, size) ∈ ready.device.liveAllocations
        rw [same.launchArgs, liveAllocations_congr same.allocations]
        exact held
      · have valid : ready.device.validDevice = true :=
          (same.validDevice.trans inPlace.records.2.1).trans accepted.valid
        exact Bool.noConfusion (valid.symm.trans closed)

/-- A wait takes the argument buffer only. -/
theorem Owns.waited
    (slots : SlotsSound r.device.allocations)
    {result : GpuResult}
    (owns : Owns history r)
    (ran : r.gpuWait cfg build = some (result, after)) :
    (result ≠ .badState → after.launchArgsUsed = false ∧
        after.device.liveAllocations = hostBuffers r) ∧
      Owns (⟨r, .waited result, after⟩ :: history) after := by
  cases gpuWait_effect ran with
  | refused => exact ⟨fun proper => absurd rfl proper, owns.host, owns.buffer, owns.closed⟩
  | @ended stopped _ _ valid running same proper exit =>
      have stoppedSlots : SlotsSound stopped.device.allocations := by
        rw [same.allocations]
        exact slots
      have stoppedValid : stopped.device.validDevice = true := same.validDevice.trans valid
      obtain ⟨live, released⟩ := @releaseLaunchArgs_hostBuffers V { stopped with running := false }
        stoppedSlots stoppedValid
      have host : after.launchArgsUsed = false ∧ after.device.liveAllocations = hostBuffers r := by
        have stoppedHost : hostBuffers { stopped with running := false } = hostBuffers r :=
          same.hostBuffers
        rcases exit with rfl | rfl
        · exact ⟨released, live.trans stoppedHost⟩
        · exact ⟨released, live.trans stoppedHost⟩
      refine ⟨fun _ => host, ⟨((hostBuffers_idle host.1).trans host.2).trans owns.host,
        fun used => Bool.noConfusion (host.1.symm.trans used), fun closed => ?_⟩⟩
      have open' : after.device.validDevice = true := by
        rcases exit with rfl | rfl
        · rw [releaseLaunchArgs_device]
          exact stoppedValid
        · rw [freeReference, releaseLaunchArgs_device]
          exact stoppedValid
      exact Bool.noConfusion (open'.symm.trans closed)

/-! ## Histories -/

/-- The process starts with nothing. -/
theorem owns_init
    (initialized : memuRuntimeInit cfg build = some r) :
    Owns [] r := by
  obtain ⟨⟨_, started⟩, starts, same⟩ := Option.map_eq_some_iff.mp initialized
  cases same
  have records := sameRecords_runModels starts
  have nothing : started.device.liveAllocations = ∅ :=
    liveAllocations_empty records.allocations
  have unused : started.launchArgsUsed = false := records.launchArgsUsed
  refine ⟨Eq.trans ?_ nothing, fun used => Bool.noConfusion (unused.symm.trans used),
    fun _ => nothing⟩
  apply hostBuffers_idle
  exact unused

/-- In every history that keeps to the condition, the live allocations are accounted for. -/
theorem History.owns
    (mapped : cfg.DefaultMap)
    (run : History cfg build Step.FreeAllowed history r) :
    Owns history r := by
  induction run with
  | init initialized => exact owns_init initialized
  | step before returns allowed owns =>
      have kept := before.reachable.wellKept mapped
      cases returns with
      | opened r => exact owns.opened
      | closed r => exact owns.closeDevice
      | memory called => exact owns.memory mapped kept.slots called allowed
      | launched ran => exact (owns.launched mapped kept ran).2
      | waited ran => exact (owns.waited kept.slots ran).2

/-- What the host owns it keeps, until it frees the address or closes the device. -/
theorem mem_owned_cons
    {buffer : Word × Word}
    (held : buffer ∈ owned history)
    (noFree : ¬step.Frees buffer.1)
    (noClose : ¬step.Closes) :
    buffer ∈ owned (step :: history) := by
  unfold owned
  split
  next closes => exact absurd closes noClose
  next => exact Or.inr held
  next address _ frees =>
    refine ⟨held, fun same => noFree ?_⟩
    rw [same]
    exact ⟨_, frees⟩
  next => exact held

/-- What `gpu_mem_alloc` returned is owned as long as it is neither freed nor lost with
the device. -/
theorem mem_owned_of_allocates
    {late early : List (Step V)}
    {alloc : Step V}
    {size : HostSize}
    {base : Word}
    (allocates : alloc.Allocates size base)
    (kept : ∀ step ∈ late, ¬Step.Frees step base ∧ ¬Step.Closes step) :
    (base, BitVec.ofNat 32 (roundUp size.toNat)) ∈ owned (late ++ alloc :: early) := by
  induction late with
  | nil =>
      obtain ⟨named, call⟩ := allocates
      rw [List.nil_append, owned, call]
      exact Set.mem_insert _ _
  | cons step late inductionHypothesis =>
      obtain ⟨noFree, noClose⟩ := kept step List.mem_cons_self
      exact mem_owned_cons
        (inductionHypothesis fun other member => kept other (List.mem_cons_of_mem _ member))
        noFree noClose

/-- Allocations live until the host frees them. -/
structure AllocationsKept (history : List (Step V)) (r : Runtime V) : Prop where
  /-- An allocation is live, with its size, until the host frees its address or closes. -/
  allocated : ∀ late alloc early size base,
    history = late ++ alloc :: early →
    Step.Allocates alloc size base →
    (∀ step ∈ late, ¬Step.Frees step base ∧ ¬Step.Closes step) →
    (base, BitVec.ofNat 32 (roundUp size.toNat)) ∈ r.device.liveAllocations
  /-- The argument buffer is live while the launch runs, and only then is there one. -/
  buffer : r.launchArgsUsed = true →
    r.running = true ∧ ∃ size, (r.launchArgs, size) ∈ r.device.liveAllocations
  /-- A launch, failed or not, adds at most its argument buffer. -/
  launched : ∀ late launch early kernel info result,
    history = late ++ launch :: early →
    Step.call launch = .launched kernel info result →
    hostBuffers launch.after = hostBuffers launch.before
  /-- A wait that ends a launch takes the argument buffer and nothing else. -/
  waited : ∀ late wait early,
    history = late ++ wait :: early →
    Step.Waits wait →
    wait.after.launchArgsUsed = false ∧
      wait.after.device.liveAllocations = hostBuffers wait.before

/-- In every history in which the host does not free the argument buffer of a running
launch, its allocations are kept. -/
theorem allocations_kept
    (mapped : cfg.DefaultMap)
    (run : History cfg build Step.FreeAllowed history r) :
    AllocationsKept history r where
  allocated := by
    rintro late alloc early size base rfl allocates kept
    have held := @mem_owned_of_allocates V late early alloc size base allocates kept
    rw [← (run.owns mapped).host] at held
    exact held.1
  buffer := (run.owns mapped).buffer
  launched := by
    rintro late launch early kernel info result rfl call
    obtain ⟨_, sub⟩ := run.suffix
    obtain ⟨before, returns, _, rfl⟩ := sub.cons
    cases returns with
    | launched ran =>
        exact ((before.owns mapped).launched mapped (before.reachable.wellKept mapped) ran).1
    | opened => cases call
    | closed => cases call
    | memory => cases call
    | waited => cases call
  waited := by
    rintro late wait early rfl ⟨result, call, proper⟩
    obtain ⟨_, sub⟩ := run.suffix
    obtain ⟨before, returns, _, rfl⟩ := sub.cons
    cases returns with
    | waited ran =>
        cases call
        exact ((before.owns mapped).waited (before.reachable.wellKept mapped).slots ran).1 proper
    | opened => cases call
    | closed => cases call
    | memory => cases call
    | launched => cases call

/-- The host allocates a buffer, launches with arguments, allocates and frees another one
while the launch runs, and waits: the first buffer is still live, and the wait has taken
the argument buffer only. -/
theorem allocations_kept_argumentLaunch :
    ∃ (wait free alloc launch first : Step (Verilog.vgpuTop Config.oneLane)) (early : List _),
      History Config.oneLane .softwareModel Step.FreeAllowed
          (wait :: free :: alloc :: launch :: first :: early) wait.after ∧
        first.Allocates 4 0x82000000 ∧
        launch.after.launchArgsUsed = true ∧ launch.after.launchArgs = 0x82000040 ∧
        free.Frees 0x82000080 ∧ free.before.launchArgsUsed = true ∧
        wait.Waits ∧
        (0x82000000, 64) ∈ wait.after.device.liveAllocations ∧
        wait.after.launchArgsUsed = false ∧
        wait.after.device.liveAllocations = hostBuffers wait.before := by
  have observed : (do
      let loaded ← withKernel (Verilog.vgpuTop Config.oneLane) Config.oneLane .softwareModel
        [Instruction.ebreak]
      let first ← gpuMemAlloc Config.oneLane 4 true loaded.2.device
      let launched ← { loaded.2 with device := first.2 }.gpuLaunch Config.oneLane .softwareModel
        ⟨true, true⟩ (some loaded.1) (some fourBytes)
      let second ← gpuMemAlloc Config.oneLane 4 true launched.2.device
      let waited ← { launched.2 with device := (gpuMemFree 0x82000080 second.2).2 }.gpuWait
        Config.oneLane .softwareModel
      some (decide (first.1.toOption = some 0x82000000 ∧ launched.2.launchArgsUsed = true ∧
        launched.2.launchArgs = 0x82000040 ∧ waited.1 = .success))) = some true := by
    decide +kernel
  obtain ⟨⟨kernel, loaded⟩, loads, observed⟩ := Option.bind_eq_some_iff.mp observed
  obtain ⟨⟨answer, buffered⟩, allocates, observed⟩ := Option.bind_eq_some_iff.mp observed
  obtain ⟨⟨result, running⟩, launches, observed⟩ := Option.bind_eq_some_iff.mp observed
  obtain ⟨⟨second, device⟩, again, observed⟩ := Option.bind_eq_some_iff.mp observed
  obtain ⟨⟨verdict, last⟩, waits, observed⟩ := Option.bind_eq_some_iff.mp observed
  obtain ⟨placed, used, place, succeeded⟩ := of_decide_eq_true (Option.some.inj observed)
  dsimp only at placed used place succeeded
  cases answer with
  | error code => cases placed
  | ok base =>
      obtain rfl : base = 0x82000000 := Option.some.inj placed
      obtain ⟨early, run⟩ : ∃ early,
          History Config.oneLane .softwareModel Step.FreeAllowed early loaded := by
        refine history_withKernel loads ?_ ?_ <;> simp [Step.FreeAllowed, Step.Frees]
      have buffers := History.step run (.memory (heapCall_alloc allocates))
        (by simp [Step.FreeAllowed, Step.Frees])
      have launched := History.step buffers (.launched launches)
        (by simp [Step.FreeAllowed, Step.Frees])
      have allocated := History.step launched (.memory (heapCall_alloc again))
        (by simp [Step.FreeAllowed, Step.Frees])
      -- The one call that needs the condition: it frees another address.
      have freed := History.step allocated (.memory (heapCall_free 0x82000080))
        (by simp [Step.FreeAllowed, Step.Frees, place])
      have run := History.step freed (.waited waits)
        (by simp [Step.FreeAllowed, Step.Frees])
      have kept := allocations_kept ⟨rfl, rfl⟩ run
      obtain ⟨unused, live⟩ := kept.waited [] _ _ rfl ⟨verdict, rfl, by simp [succeeded]⟩
      refine ⟨_, _, _, _, _, early, run, ⟨true, rfl⟩, used, place, ⟨_, rfl⟩, used,
        ⟨verdict, rfl, by simp [succeeded]⟩, ?_, unused, live⟩
      exact kept.allocated [_, _, _, _] _ early 4 0x82000000 rfl ⟨true, rfl⟩
        (by simp [Step.Frees, Step.Closes])

/-- The host frees the argument buffer of a running launch and is given the same address
for a buffer of its own; the wait takes that buffer away. -/
theorem allocation_lost :
    ∃ (history : List (Step (Verilog.vgpuTop Config.oneLane))) (r : Runtime _),
      History Config.oneLane .softwareModel (fun _ => True) history r ∧
        ¬AllocationsKept history r := by
  have observed : (do
      let loaded ← withKernel (Verilog.vgpuTop Config.oneLane) Config.oneLane .softwareModel
        [Instruction.ebreak]
      let launched ← loaded.2.gpuLaunch Config.oneLane .softwareModel ⟨true, true⟩ (some loaded.1)
        (some fourBytes)
      let allocated ← gpuMemAlloc Config.oneLane 4 true
        (gpuMemFree 0x82000000 launched.2.device).2
      let waited ← { launched.2 with device := allocated.2 }.gpuWait Config.oneLane .softwareModel
      some (decide (launched.1 = .success ∧ allocated.1.toOption = some 0x82000000 ∧
        ∀ i ∈ List.range 64, (waited.2.device.allocations i).used = false))) = some true := by
    decide +kernel
  obtain ⟨⟨kernel, loaded⟩, loads, observed⟩ := Option.bind_eq_some_iff.mp observed
  obtain ⟨⟨result, running⟩, launches, observed⟩ := Option.bind_eq_some_iff.mp observed
  obtain ⟨⟨answer, device⟩, allocates, observed⟩ := Option.bind_eq_some_iff.mp observed
  obtain ⟨⟨verdict, last⟩, waits, observed⟩ := Option.bind_eq_some_iff.mp observed
  obtain ⟨_, placed, unused⟩ := of_decide_eq_true (Option.some.inj observed)
  cases answer with
  | error code => cases placed
  | ok base =>
      obtain rfl : base = 0x82000000 := Option.some.inj placed
      obtain ⟨early, run⟩ : ∃ early, History Config.oneLane .softwareModel (fun _ => True) early
          loaded := history_withKernel loads (by simp) (by simp)
      have freed := History.step (.step run (.launched launches) trivial)
        (.memory (heapCall_free 0x82000000)) trivial
      have allocated := History.step freed (.memory (heapCall_alloc allocates)) trivial
      refine ⟨_, _, .step allocated (.waited waits) trivial, fun kept => ?_⟩
      obtain ⟨i, member, used, _⟩ := kept.allocated [_] _ _ 4 0x82000000 rfl ⟨true, rfl⟩ (by
        intro step inside
        obtain rfl := List.mem_singleton.mp inside
        constructor
        · rintro ⟨reply, call⟩
          cases call
        · intro call
          cases call)
      exact Bool.noConfusion (used.symm.trans (unused i (List.mem_range.mpr member)))

end Runtime

end OpenGPU
