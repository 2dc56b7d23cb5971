import OpenGPU.Backend.WaitLoop
import OpenGPU.Lockstep.DiffTestTick
import OpenGPU.Runtime.LaunchFailure

/-!
# Failed launches without a trace

The late exits of a DiffTest launch leave no trace when the GPU is idle before the call and
the reference run ends in time, or at least keeps its stores away from what the host can see.
An interrupted reference run leaves its memory otherwise.
-/

namespace OpenGPU

open Verilog

/-! ## Configuration writes on an idle GPU -/

namespace RtlSim

/-- Configuration writes alone, whichever they are, change no memory. -/
def Quiet {V : VGPUTop} (cfg : Config) (build : Build) (sim : RtlSim V) : Prop :=
  ∀ (writes : List (Word × Word)) (pmem : Pmem) (next : RtlSim V) (after : Pmem),
    (writes.foldlM (fun (sim : RtlSim V) write => sim.gpuRtlDcrWrite cfg build write.1 write.2)
        sim).run pmem = some (next, after) →
      after = pmem

variable {cfg : Config} {sim next : RtlSim (vgpuTop cfg)} {pmem after : Pmem}

/-- The registers of the netlist are sound and the snapshot holds their words. -/
structure Reported (cfg : Config) (netlist : Netlist cfg) (dpi : DpiState) : Prop where
  sound : netlist.top.Sound
  words : NetlistAt dpi.diffState netlist.top netlist.rdata

/-- A tick moves the registers and sends their words. -/
theorem reported_tick
    (sound : sim.netlist.top.Sound)
    (ran : (sim.tick cfg .hardwareDiffTest).run pmem = some (next, after)) :
    Reported cfg next.netlist next.dpi := by
  obtain ⟨stepped, ticked⟩ := tick_ticked rfl ran
  refine ⟨?_, ticked.risen.words⟩
  rw [ticked.risen.top]
  exact sound.posedge _

theorem keptByCalls_reported :
    KeptByCalls cfg .hardwareDiffTest fun sim : RtlSim (vgpuTop cfg) =>
      Reported cfg sim.netlist sim.dpi :=
  @keptByCalls_netlist (vgpuTop cfg) cfg .hardwareDiffTest (fun top dpi => Reported cfg top dpi)
    fun ran start => reported_tick start.sound ran

/-- `gpu_rtl_init` resets the registers. -/
theorem reported_gpuRtlInit
    (ran : (gpuRtlInit cfg .hardwareDiffTest).run pmem = some (next, after)) :
    Reported cfg next.netlist next.dpi := by
  obtain ⟨model, cleared, asserted, _, _, up, top, _, _, ticks⟩ := gpuRtlInit_tick ran
  refine reported_tick ?_ ticks
  obtain ⟨stepped, ticked⟩ := tick_ticked rfl up
  show (Netlist.top cleared.top).Sound
  rw [top, ← netlist, ticked.risen.top]
  exact GPUTop.sound_reset _ rfl

/-- An idle GPU reports no store. -/
theorem Reported.no_stores
    (reported : Reported cfg sim.netlist sim.dpi)
    (idle : sim.netlist.top.gpuBusy = false) :
    sim.reportedStores cfg = [] := by
  rw [reportedStores, List.filterMap_eq_nil_iff]
  intro i member
  have inRange := List.mem_range.mp member
  have memory := (GPUCore.wordsAt_diffState.mp (reported.words.cores i inRange)).2.1
  rw [GPUCore.memoryWords_eq_zero _ (reported.sound.not_waiting idle inRange),
    wordsAt_map_range] at memory
  have zero := memory 1 (by decide)
  rw [Nat.add_assoc] at zero
  exact if_neg (not_not.mpr zero)

/-- Between two calls on an idle GPU. -/
structure Idle (cfg : Config) (sim : RtlSim (vgpuTop cfg)) : Prop where
  reported : Reported cfg sim.netlist sim.dpi
  idle : sim.netlist.top.gpuBusy = false
  released : sim.pins.reset = false
  low : sim.pins.launch = false

/-- A tick of an idle GPU changes no memory and leaves it idle. -/
theorem Idle.tick
    (idle : Idle cfg sim)
    (ran : (sim.tick cfg .hardwareDiffTest).run pmem = some (next, after)) :
    Idle cfg next ∧ after = pmem := by
  obtain ⟨stepped, ticked⟩ := tick_ticked rfl ran
  have pins := tick_pins ran
  have none : sim.lowered.reportedStores cfg = [] := idle.reported.no_stores idle.idle
  have inputs : sim.lowered.netlist.inputs sim.pins =
      ⟨false, sim.dcrPins, false, sim.netlist.rdata⟩ := by
    unfold Netlist.inputs
    rw [idle.released, idle.low]
    rfl
  refine ⟨⟨reported_tick idle.reported.sound ran, ?_, ?_, ?_⟩,
    (beforeEdge_of_no_store none ticked.before).1⟩
  · rw [ticked.risen.top, inputs]
    exact GPUTop.not_busy_posedge idle.idle _ _
  · rw [pins, idle.released]
  · rw [pins, idle.low]

/-- So does a configuration write. -/
theorem Idle.gpuRtlDcrWrite
    (idle : Idle cfg sim)
    {addr data : Word}
    (ran : (sim.gpuRtlDcrWrite cfg .hardwareDiffTest addr data).run pmem = some (next, after)) :
    Idle cfg next ∧ after = pmem := by
  obtain ⟨ticked, memory, ticks, rest⟩ := LocalAction.run_bind_eq_some ran
  cases rest
  have set : Idle cfg { sim with
      pins := { sim.pins with dcrAddr := addr, dcrData := data, dcrValid := true } } :=
    ⟨idle.reported, idle.idle, idle.released, idle.low⟩
  obtain ⟨kept, same⟩ := set.tick ticks
  exact ⟨⟨kept.reported, kept.idle, kept.released, kept.low⟩, same⟩

/-- An idle GPU is quiet. -/
theorem Idle.quiet
    (idle : Idle cfg sim) :
    sim.Quiet cfg .hardwareDiffTest := by
  intro writes pmem next after ran
  refine (LocalAction.foldlM_induct (fun (reached : RtlSim (vgpuTop cfg)) mem =>
    Idle cfg reached ∧ mem = pmem) ?_ ⟨idle, rfl⟩ ran).2
  rintro reached write mem later middle ⟨idle, rfl⟩ wrote
  exact idle.gpuRtlDcrWrite wrote

end RtlSim

/-! ## Late exits -/

namespace Runtime

open GpuDevice

/-- Between two calls of the runtime the netlist is reported, and idle unless it is busy. -/
theorem Reachable.quiet
    {cfg : Config}
    {r : Runtime (vgpuTop cfg)}
    (mapped : cfg.DefaultMap)
    (reachable : Reachable cfg .hardwareDiffTest r)
    (idle : r.models.rtl.netlist.top.gpuBusy = false) :
    r.models.rtl.Quiet cfg .hardwareDiffTest := by
  have reported := reachable.keeps mapped RtlSim.keptByCalls_reported fun r initialized => by
    rcases (rtl_of_memuRuntimeInit initialized).2 with ⟨_, _, _, ran⟩ | ⟨software, _⟩
    · exact RtlSim.reported_gpuRtlInit ran
    · cases software
  have low := (reachable.lowPins mapped).rtl
  exact RtlSim.Idle.quiet ⟨reported.rtl, idle, low.1, low.2⟩

section Exits

variable {V : VGPUTop} {cfg : Config} {build : Build} {r placed prepared after : Runtime V}

/-- The reference run of an accepted launch, from its first instruction, once the arguments
are in place. -/
def referenceStart (cfg : Config) (kernel : GpuKernel) (info : GpuLaunchInfo) (blockSize : Word)
    (placed : Runtime V) : Option Iss :=
  { placed.models.iss with pmem := placed.device.pmem }.modelLaunch cfg
    (info.request kernel placed.launchArgs) blockSize

/-- A DiffTest launch with its arguments in place can fail without a trace: the GPU is quiet
before the call, and the reference run, if it is started, ends in time or stores into nothing
that the host can see. -/
structure Traceless (cfg : Config) (host : HostMemory) (kernel : GpuKernel)
    (info : GpuLaunchInfo) (blockSize : Word) (r placed : Runtime V) : Prop where
  quiet : r.models.rtl.Quiet cfg .hardwareDiffTest
  reference : host.mallocs = true → host.calloc = true →
    ∀ start ∈ referenceStart cfg kernel info blockSize placed,
      Iss.EndsWithin cfg start gpuWaitLimit ∨
        Iss.Spares cfg start gpuWaitLimit { a | r.device.Visible a }

/-- On a quiet GPU the models find the memory with the arguments in place, and the reference
model is configured. -/
theorem placed_of_prepare
    (mapped : cfg.DefaultMap)
    (slots : SlotsSound r.device.allocations)
    (quiet : r.models.rtl.Quiet cfg .hardwareDiffTest)
    {kernel : GpuKernel}
    {info : GpuLaunchInfo}
    {blockSize : Word}
    (ran : r.prepare cfg .hardwareDiffTest kernel info blockSize = some (.ok (), prepared)) :
    ∃ placed, r.placeArgs cfg info = some (.ok (), placed) ∧ ArgsPlaced r placed ∧
      prepared.device.pmem = placed.device.pmem ∧
      prepared.models.iss =
        placed.models.iss.configure (info.request kernel placed.launchArgs) blockSize := by
  obtain ⟨placing, placed, argsPlaced, outcome⟩ := prepare_cases ran
  rcases outcome with ⟨code, _, failed, _⟩ | ⟨rfl, _, configures⟩
  · cases failed
  rcases placeArgs_cases mapped slots argsPlaced with ⟨_, inPlace⟩ | ⟨_, failed, _⟩
  swap
  · cases failed
  refine ⟨placed, argsPlaced, inPlace, ?_⟩
  have models := (inPlace.slots slots).2
  obtain ⟨next, pmem, configured, rfl⟩ := runModels_eq_some configures
  obtain ⟨first, middle, executes, rest⟩ := LocalAction.run_bind_eq_some configured
  obtain ⟨second, last, refers, finished⟩ := LocalAction.run_bind_eq_some rest
  rw [show Build.hardwareDiffTest.executionKind = .hm from rfl, Models.run_configureModel_hm,
    Option.map_eq_some_iff] at executes
  obtain ⟨⟨rtl, written⟩, wrote, shape⟩ := executes
  cases shape
  cases finished
  rw [if_pos (show Build.hardwareDiffTest.diffTest = true from rfl),
    Models.run_configureModel_sm] at refers
  cases refers
  rw [models] at wrote
  exact ⟨quiet _ _ _ _ wrote, rfl⟩

/-- The reference model does not start and leaves memory alone, or it runs up to the limit. -/
theorem referenceRun_cases
    {calloc done : Bool}
    {models next : Models V}
    {pmem memory : Pmem}
    (ran : (referenceRun cfg build calloc models).run pmem = some ((done, next), memory)) :
    (done = false ∧ memory = pmem ∧ (calloc = true →
        (models.iss.gpuIssInit (BitVec.ofNat 32 cfg.numHarts)).gpuIssLaunch cfg = none)) ∨
      ∃ launched last,
        calloc = true ∧
        (models.iss.gpuIssInit (BitVec.ofNat 32 cfg.numHarts)).gpuIssLaunch cfg = some launched ∧
        (launched.waitSteps cfg gpuWaitLimit).run pmem = some ((done, last), memory) := by
  obtain ⟨⟨started, reference⟩, middle, launches, rest⟩ := LocalAction.run_bind_eq_some ran
  cases launches
  dsimp only at rest
  split_ifs at rest with started
  · obtain ⟨⟨answer, last⟩, _, waits, finished⟩ := LocalAction.run_bind_eq_some rest
    cases finished
    right
    unfold Iss.tryLaunch at started waits
    split at started
    next launched accepted =>
      split_ifs at accepted with memory
      rw [if_pos memory, accepted] at waits
      exact ⟨launched, last, memory, accepted, waits⟩
    next => cases started
  · cases rest
    refine Or.inl ⟨rfl, rfl, fun allocated => ?_⟩
    unfold Iss.tryLaunch at started
    rw [if_pos allocated] at started
    split at started
    next => exact absurd rfl started
    next refused => exact refused

/-- A reference run on a quiet GPU. -/
theorem reference_cases
    (mapped : cfg.DefaultMap)
    (slots : SlotsSound r.device.allocations)
    (quiet : r.models.rtl.Quiet cfg .hardwareDiffTest)
    {kernel : GpuKernel}
    {info : GpuLaunchInfo}
    {blockSize : Word}
    {calloc done : Bool}
    {stopped : Runtime V}
    (prepares : r.prepare cfg .hardwareDiffTest kernel info blockSize = some (.ok (), prepared))
    (runs : prepared.runModels (referenceRun cfg .hardwareDiffTest calloc) =
      some (done, stopped)) :
    ∃ placed, r.placeArgs cfg info = some (.ok (), placed) ∧ ArgsPlaced r placed ∧
      prepared.device.pmem = placed.device.pmem ∧
      ((done = false ∧ stopped.device.pmem = placed.device.pmem ∧ (calloc = true →
          referenceStart cfg kernel info blockSize placed = none)) ∨
        ∃ start own last, calloc = true ∧
          referenceStart cfg kernel info blockSize placed = some start ∧
          start.pmem = placed.device.pmem ∧ start.rr < start.ncores ∧
          (Iss.waitSteps cfg gpuWaitLimit { start with pmem := own }).run start.pmem =
            some ((done, last), stopped.device.pmem)) := by
  obtain ⟨placed, argsPlaced, inPlace, memory, configured⟩ :=
    placed_of_prepare mapped slots quiet prepares
  refine ⟨placed, argsPlaced, inPlace, memory, ?_⟩
  obtain ⟨models, pmem, acted, rfl⟩ := runModels_eq_some runs
  rw [memory] at acted
  rcases referenceRun_cases acted with
    ⟨failed, same, refused⟩ | ⟨launched, last, allocated, accepted, waits⟩
  · refine Or.inl ⟨failed, same, fun allocated => ?_⟩
    rw [referenceStart, Iss.modelLaunch_lent, Iss.modelLaunch, ← configured, refused allocated]
    rfl
  · have own : placed.models.iss.modelLaunch cfg (info.request kernel placed.launchArgs)
        blockSize = some launched := by
      rw [Iss.modelLaunch, ← configured, accepted]
    refine Or.inr ⟨{ launched with pmem := placed.device.pmem }, launched.pmem, last, allocated,
      ?_, rfl, ?_, waits⟩
    · rw [referenceStart, Iss.modelLaunch_lent, own]
      rfl
    · obtain ⟨positive, _, _, rfl⟩ := Iss.gpuIssLaunch_eq_some accepted
      exact positive

/-- A late exit leaves no trace under the condition. -/
theorem LateExit.visible
    (mapped : cfg.DefaultMap)
    (slots : SlotsSound r.device.allocations)
    {host : HostMemory}
    {kernel : GpuKernel}
    {info : GpuLaunchInfo}
    {blockSize : Word}
    {result : GpuResult}
    {memory : Pmem}
    (checked : r.launchChecks cfg kernel info = some blockSize)
    (traceless : ∀ placed, r.placeArgs cfg info = some (.ok (), placed) →
      Traceless cfg host kernel info blockSize r placed)
    (prepares : r.prepare cfg .hardwareDiffTest kernel info blockSize = some (.ok (), prepared))
    (exit : LateExit cfg .hardwareDiffTest host prepared result memory) :
    ∀ a, r.device.Visible a → memory a = r.device.pmem a := by
  obtain ⟨placing, placed, argsPlaced, outcome⟩ := prepare_cases prepares
  obtain rfl : placing = .ok () := by
    rcases outcome with ⟨code, _, failed, _⟩ | ⟨done, _⟩
    · cases failed
    · exact done
  obtain ⟨quiet, reference⟩ := traceless placed argsPlaced
  have hidden : ArgsPlaced r placed →
      ∀ a, r.device.Visible a → placed.device.pmem a = r.device.pmem a := fun inPlace =>
    (inPlace.underWay slots (valid_of_launchChecks checked)).2
  cases exit with
  | noSnapshot =>
      obtain ⟨again, placedAgain, inPlace, same, _⟩ := placed_of_prepare mapped slots quiet prepares
      cases argsPlaced.symm.trans placedAgain
      rw [same]
      exact hidden inPlace
  | interrupted mallocs runs =>
      obtain ⟨again, placedAgain, inPlace, same, outcome⟩ :=
        reference_cases mapped slots quiet prepares runs
      cases argsPlaced.symm.trans placedAgain
      rcases outcome with ⟨_, memory, _⟩ | ⟨start, own, last, calloc, starts, memory, inRange, waits⟩
      · rw [memory]
        exact hidden inPlace
      rcases reference mallocs calloc start starts with
        ⟨count, enough, final, reached, done⟩ | spares
      · -- A run that ends in time is not interrupted.
        rw [reached.run_waitSteps_done inRange done own enough] at waits
        cases waits
      · obtain ⟨more, within, reached, _⟩ :=
          Iss.ReachableIn.refl.run_waitSteps_reaches inRange waits
        intro a visible
        have kept := spares.eqOn inRange reached (by rwa [Nat.zero_add]) visible
        exact kept.trans ((congrFun memory a).trans (hidden inPlace a visible))

end Exits

/-- The only slot in use holds the 64 bytes behind the start of the heap. -/
def SecondBufferOnly (d : GpuDevice) : Prop :=
  ∀ i ∈ List.range gpuMaxAllocs, (d.allocations i).used = true →
    ((d.allocations i).address, (d.allocations i).size) = (0x82000040, 64)

instance (d : GpuDevice) : Decidable (SecondBufferOnly d) :=
  inferInstanceAs (Decidable (∀ i ∈ List.range gpuMaxAllocs, _ → _))

/-- The host does not see the first word of the heap then. -/
theorem SecondBufferOnly.hidden
    {d : GpuDevice}
    (only : SecondBufferOnly d) :
    Disjoint (accessBytes 0x82000000 4) { a | d.Visible a } := by
  rw [Set.disjoint_left]
  rintro a stored (image | ⟨buffer, ⟨i, member, used, rfl⟩, inside⟩)
  · have window : (gpuKernelEnd - gpuKernelBase).toNat = 0x10000 := rfl
    rw [mem_accessBytes_iff (by decide)] at stored
    rw [mem_accessBytes_iff (by decide), window] at image
    have start : gpuKernelBase.toNat = 0x81000000 := rfl
    have first : (0x82000000 : Word).toNat = 0x82000000 := rfl
    omega
  · rw [only i (List.mem_range.mpr member) used, mem_accessBytes_iff (by decide)] at inside
    rw [mem_accessBytes_iff (by decide)] at stored
    have first : (0x82000000 : Word).toNat = 0x82000000 := rfl
    have second : (0x82000040 : Word).toNat = 0x82000040 := rfl
    dsimp only at inside
    omega

end Runtime

end OpenGPU
