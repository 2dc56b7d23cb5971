import OpenGPU.Dispatch.PhysicalId
import OpenGPU.Iss.CheckedRuns
import OpenGPU.Refinement.Start

/-!
# Warps refine threads

A launch that the simulator finishes, with threads that do not interfere, ends on the cycle
model with the same memory, exactly on the topologies and blocks whose sets of cores and
of warps fit in a word.
-/

namespace OpenGPU

open Instruction

section Start

variable {cfg : Config} {info : LaunchInfo} {blockSize : Word} {m next : Model}

/-- The pulse leaves the cores and the memory alone and starts the walk. -/
theorem Model.AtRest.pulse
    {largest : Nat}
    (rest : Model.AtRest cfg largest m)
    (defined : m.tick cfg .launchPulse = some next) :
    next.cores = m.cores ∧ next.mem = m.mem ∧ next.dcr = m.dcr ∧
      next.walk = m.walk.launch cfg.numCores m.dcr := by
  obtain ⟨walk, dcr⟩ := Model.pulse_tick defined
  have clocked := @Model.AtRest.clock _ _ _ .launchPulse rest
  rcases Model.tick_eq_some defined with ⟨reset, _⟩ | ⟨_, result, _⟩
  · exact Bool.noConfusion reset
  · refine ⟨?_, ?_, dcr, walk⟩ <;> rw [result]
    · exact clocked.1
    · exact clocked.2

/-- After it no thread has moved and no block is dispatched. -/
theorem running_of_pulse
    (runs : LaunchRuns cfg info blockSize)
    (checked : info.gpuLaunchBlockSize cfg = some blockSize)
    (small : blockSize.toNat ≤ 32 * cfg.numThreads)
    (rest : Model.AtRest cfg (32 * cfg.numThreads) m)
    (dcr : m.dcr = info.registers blockSize)
    (mem : m.mem = ShadowMemory.of cfg runs.pmem)
    (defined : m.tick cfg .launchPulse = some next) :
    Running runs next 0 (fun _ => 0) (fun _ => 0) := by
  obtain ⟨cores, sameMem, sameDcr, walk⟩ := rest.pulse defined
  have allowed : Model.Allowed cfg (32 * cfg.numThreads) .launchPulse m :=
    ⟨fun writes => Bool.noConfusion writes, fun _ => ⟨info, blockSize, checked, small, dcr⟩⟩
  have resting : ∀ i, i < cfg.numCores → (next.cores i).Resting := by
    rw [cores]
    exact rest.cores
  refine
    { host := rest.reached.tick .launchPulse allowed defined
      dcr := sameDcr.trans dcr
      size := by
        rw [sameMem, mem]
        rfl
      follows := ?_
      bounded := fun i => Nat.zero_le _
      walked := ⟨[], rfl, ?_⟩
      noFault := fun i inRange => (resting i inRange).noFault
      idle := fun i inRange _ => (resting i inRange).state
      active := fun i inRange active =>
        Bool.noConfusion ((resting i inRange).inactive.symm.trans active)
      apart := fun i j inRange _ active =>
        Bool.noConfusion ((resting i inRange).inactive.symm.trans active)
      untouched := fun _ _ => rfl
      finished := fun b early => absurd early (Nat.not_lt_zero b) }
  · have same : next.mem.bytes = runs.start.world.mem := by
      rw [sameMem, mem]
      exact runs.launched.pmem.symm
    rw [same]
    exact Threads.follows_start
  · rw [walk, dcr, Walk.launch_eq cfg.numCores runs.accepted.grid]
    exact Dim3.Walked.launch runs.accepted.grid _

/-- A launch that has ended leaves the model at rest. -/
theorem Running.atRest
    {runs : LaunchRuns cfg info blockSize}
    {n : Nat}
    {blockOf Q : Nat → Nat}
    (running : Running runs m n blockOf Q)
    (cores : cfg.numCores ≤ 32)
    (idle : m.topBusy cfg = false) :
    Model.AtRest cfg (32 * cfg.numThreads) m := by
  obtain ⟨stopped, inactive⟩ := Model.not_topBusy cores idle
  exact ⟨running.host, stopped, fun i inRange => ⟨inactive i inRange,
    running.idle i inRange (inactive i inRange), running.noFault i inRange⟩⟩

end Start

/-- A bound on the cycles of a launch: every instruction may make all cores wait, and every
block takes some steps to be begun and left. -/
def cycleLimit (cfg : Config) (instructions blocks : Nat) : Nat :=
  instructions * (cfg.numCores * rankLimit cfg + 1) + blocks * (2 * cfg.numThreads + 7)

theorem le_cycleLimit
    (cfg : Config)
    (instructions blocks : Nat) :
    instructions ≤ cycleLimit cfg instructions blocks := by
  have one : instructions * 1 ≤ instructions * (cfg.numCores * rankLimit cfg + 1) :=
    Nat.mul_le_mul_left _ (Nat.succ_pos _)
  unfold cycleLimit
  omega

/-- The instructions of a launch. -/
def LaunchRuns.instructions {cfg : Config} {info : LaunchInfo} {blockSize : Word}
    (runs : LaunchRuns cfg info blockSize) : Nat :=
  ∑ i ∈ Finset.range runs.start.ncores, runs.ends i

/-- A launch that the simulator has finished, as what its contexts do on their own. -/
theorem exists_launchRuns
    {cfg : Config}
    {info : LaunchInfo}
    {blockSize : Word}
    {s start final : Iss}
    {count : Nat}
    (accepted : info.Accepted cfg blockSize)
    (launched : s.modelLaunch cfg info blockSize = some start)
    (tame : Iss.Tame cfg start)
    (reached : Iss.ReachableIn cfg start count final)
    (finished : final.Finished) :
    ∃ runs : LaunchRuns cfg info blockSize, runs.start = start ∧ runs.pmem = s.pmem ∧
      runs.final = final.pmem ∧ runs.instructions = count := by
  have inRange : start.rr < start.ncores := by
    obtain ⟨positive, _, _, rfl⟩ := Iss.gpuIssLaunch_eq_some launched
    exact positive
  obtain ⟨history, recorded, sum⟩ := reached.recorded inRange
  exact ⟨⟨start, s.pmem, _, final.pmem, accepted, Iss.launched_of_modelLaunch accepted launched,
    recorded.ownRuns launched tame finished⟩, rfl, rfl, rfl, sum⟩

/-- A launch of one thread of an `EBREAK`. -/
theorem Iss.Launched.atEbreak
    {cfg : Config}
    {info : LaunchInfo}
    {pmem : Pmem}
    {start : Iss}
    (facts : Launched cfg info 1 pmem start)
    (lone : info.gridDim.count = 1)
    (read : paddrRead cfg pmem info.entry 4 = some ebreak) :
    AtEbreak cfg start := by
  have core : start.cores 0 = Iss.thread cfg info 1 0 0 :=
    facts.thread 0 0 (by omega) (by decide)
  refine ⟨?_, facts.rr, facts.faulted, by rw [core]; rfl, ?_⟩
  · rw [facts.ncores, lone]
    rfl
  · rw [core, facts.pmem]
    exact read

namespace Model

/-- A launch of the cycle model that is busy up to its end and never shows a fault. -/
structure CleanLaunch (cfg : Config) (m : Model) (bound : Nat) (run : Nat → Model) : Prop
    extends RunsToEnd cfg bound run where
  pulse : m.tick cfg .launchPulse = some (run 0)

section Reaches

variable {cfg : Config} {info : LaunchInfo} {blockSize : Word} {m : Model} {pmem final : Pmem}
  {run : Nat → Model} {bound largest : Nat}

theorem CleanLaunch.launch
    (clean : CleanLaunch cfg m bound run) :
    LaunchRun cfg m bound run :=
  ⟨clean.pulse, clean.tick⟩

/-- A model at rest with sets that fit in a word ends a launch where the threads end, and is
at rest again. -/
theorem AtRest.exists_cleanLaunch
    (runs : LaunchRuns cfg info blockSize)
    (checked : info.gpuLaunchBlockSize cfg = some blockSize)
    (threads : cfg.numThreads ≤ 8)
    (cores : cfg.numCores ≤ 32)
    (small : blockSize.toNat ≤ 32 * cfg.numThreads)
    (rest : AtRest cfg (32 * cfg.numThreads) m)
    (dcr : m.dcr = info.registers blockSize)
    (mem : m.mem = ShadowMemory.of cfg runs.pmem) :
    ∃ run bound, CleanLaunch cfg m bound run ∧
      bound ≤ cycleLimit cfg runs.instructions info.gridDim.count ∧
      Running runs (run 0) 0 (fun _ => 0) (fun _ => 0) ∧
      AtRest cfg (32 * cfg.numThreads) (run bound) ∧ (run bound).mem.bytes = runs.final := by
  have faithful := faithfulSets_of_le cores (threads.trans (by decide)) (le_refl (32 * _))
  have allowed : Allowed cfg (32 * cfg.numThreads) .launchPulse m :=
    ⟨fun writes => Bool.noConfusion writes, fun _ => ⟨info, blockSize, checked, small, dcr⟩⟩
  obtain ⟨next, defined⟩ := rest.exists_tick faithful rfl allowed
  have running := running_of_pulse runs checked small rest dcr mem defined
  obtain ⟨run, bound, rfl, runsToEnd, early, _, _, _, last⟩ := running.finishes cores threads
  refine ⟨run, bound, ⟨runsToEnd, defined⟩, early.trans (le_of_eq ?_), running,
    last.atRest cores runsToEnd.ends, last.mem_eq cores runsToEnd.ends⟩
  -- nobody waits yet
  have ranks : ∑ core ∈ Finset.range cfg.numCores, ((run 0).cores core).rank cfg = 0 :=
    Finset.sum_eq_zero fun core member => Core.rank_of_inactive <| by
      rw [(rest.pulse defined).1]
      exact (rest.cores core (Finset.mem_range.mp member)).inactive
  rw [LaunchRuns.cyclesLeft, waiting, ranks]
  simp [cycleLimit, LaunchRuns.instructions, LaunchRuns.remaining]

/-- With sets that fit in a word the cycle model ends where the threads end. -/
theorem reaches_of_le
    (runs : LaunchRuns cfg info blockSize)
    (checked : info.gpuLaunchBlockSize cfg = some blockSize)
    (threads : cfg.numThreads ≤ 8)
    (cores : cfg.numCores ≤ 32)
    (small : blockSize.toNat ≤ 32 * cfg.numThreads) :
    Reaches cfg info blockSize runs.pmem runs.final := by
  have faithful := faithfulSets_of_le cores (threads.trans (by decide)) small
  obtain ⟨m, prepared⟩ := faithful.exists_beforeLaunch info blockSize runs.pmem
  obtain ⟨rest, dcr, mem⟩ := atRest_of_beforeLaunch prepared
  obtain ⟨run, bound, clean, _, _, _, last⟩ :=
    rest.exists_cleanLaunch runs checked threads cores small dcr mem
  exact ⟨m, run, bound, prepared, clean.launch, clean.busy, clean.clean, clean.ends, last⟩

/-- After the pulse the first block is on its way to some core. -/
theorem exists_firing_of_pulse
    (accepted : info.Accepted cfg blockSize)
    (rest : AtRest cfg largest m)
    (dcr : m.dcr = info.registers blockSize)
    (launch : LaunchRun cfg m bound run) :
    (run 0).walk.running = true ∧ ∃ core, (run 0).firing cfg = some core := by
  obtain ⟨same, _, _, walk⟩ := rest.pulse launch.pulse
  have positive : m.dcr.grid.Positive := by
    rw [dcr]
    exact accepted.grid
  rw [Walk.launch_eq cfg.numCores positive] at walk
  have walks : (run 0).walk.running = true := by
    rw [walk, dcr]
    show (blockSize != 0) = true
    rw [bne_iff_ne]
    rintro rfl
    exact absurd accepted.size_pos (lt_irrefl 0)
  refine ⟨walks, Option.ne_none_iff_exists'.mp fun nobody => ?_⟩
  -- all cores are ready
  rw [firing_eq (numCores_le_of_tick launch.pulse), Walk.fire, if_pos walks,
    circularFirst_eq_none_iff] at nobody
  have first := nobody 0 cfg.numCores_pos
  have resting := rest.cores 0 cfg.numCores_pos
  rw [coreReady, same, resting.inactive, resting.state] at first
  exact Bool.noConfusion first

/-- Some core takes the first block. -/
theorem exists_accepted_of_pulse
    (accepted : info.Accepted cfg blockSize)
    (rest : AtRest cfg largest m)
    (dcr : m.dcr = info.registers blockSize)
    (launch : LaunchRun cfg m bound run)
    (early : 0 < bound) :
    ∃ core, core < cfg.numCores ∧ (run 1).cores core =
      Core.acceptCta cfg (LaunchRun.blockRegisters (info.registers blockSize) 0)
        ((run 0).cores core) := by
  have positive : m.dcr.grid.Positive := by
    rw [dcr]
    exact accepted.grid
  obtain ⟨_, core, fires⟩ := exists_firing_of_pulse accepted rest dcr launch
  have block := (launch.block_eq positive (Nat.zero_le bound) fires).2
  have registers : (run 0).launchRegisters =
      LaunchRun.blockRegisters (info.registers blockSize) 0 := by
    rw [launchRegisters, launch.dcr_eq (Nat.zero_le bound), block, dcr]
    rfl
  refine ⟨core, firing_lt fires, ?_⟩
  rw [tick_cores (launch.idle 0 early) rfl (firing_lt fires), fires, registers, Core.stepCore]
  exact if_pos (beq_self_eq_true _)

/-- A GPU that works on its first block is busy. -/
theorem two_le_of_idle
    (accepted : info.Accepted cfg blockSize)
    (rest : AtRest cfg largest m)
    (dcr : m.dcr = info.registers blockSize)
    (launch : LaunchRun cfg m bound run)
    (idle : (run bound).topBusy cfg = false) :
    2 ≤ bound := by
  have cores := numCores_le_of_tick launch.pulse
  obtain ⟨stopped, inactive⟩ := not_topBusy cores idle
  have first : bound ≠ 0 := by
    rintro rfl
    rw [(exists_firing_of_pulse accepted rest dcr launch).1] at stopped
    exact Bool.noConfusion stopped
  have second : bound ≠ 1 := by
    rintro rfl
    obtain ⟨core, inRange, taken⟩ :=
      exists_accepted_of_pulse accepted rest dcr launch Nat.one_pos
    have free := inactive core inRange
    rw [taken] at free
    exact Bool.noConfusion free
  omega

/-- `pack` shifts by the number of every warp with a lane in the block. -/
theorem blockSize_le_of_reaches
    (checked : info.gpuLaunchBlockSize cfg = some blockSize)
    (reaches : Reaches cfg info blockSize pmem final) :
    blockSize.toNat ≤ 32 * cfg.numThreads := by
  have accepted := LaunchInfo.accepted_of_gpuLaunchBlockSize checked
  obtain ⟨m, run, bound, prepared, launch, _, _, idle, _⟩ := reaches
  obtain ⟨rest, dcr, _⟩ := @atRest_of_beforeLaunch _ 0 _ _ _ _ prepared
  have early : 0 < bound :=
    Nat.lt_of_lt_of_le Nat.two_pos (two_le_of_idle accepted rest dcr launch idle)
  have packed := packDefined_of_tick (launch.idle 0 early)
  obtain ⟨core, inRange, taken⟩ := exists_accepted_of_pulse accepted rest dcr launch early
  by_contra large
  have contexts := cfg.contexts_lt
  have fits := accepted.fits
  have warp : 32 < cfg.numWarps :=
    Nat.lt_of_mul_lt_mul_right ((by omega : 32 * cfg.numThreads < _).trans_le fits)
  have valid : ((run 1).cores core).valid 32 = true := by
    rw [taken]
    have inside : BitVec.ofNat 32 (32 * cfg.numThreads) < blockSize := by
      rw [BitVec.lt_def, BitVec.toNat_ofNat, Nat.mod_eq_of_lt (by omega)]
      omega
    exact decide_eq_true inside
  exact absurd (((packDefined_iff.mp packed).2 core inRange).warps 32 warp valid)
    (Nat.lt_irrefl 32)

end Reaches

/-- A launch of threads that do not interfere, on at most 8 lanes a warp, that the simulator
finishes without a fault: the cycle model ends it without a fault and with the same memory
exactly when there are at most 32 cores and at most 32 warps with a lane in a block. -/
theorem warpsRefineThreads_iff
    {cfg : Config}
    {info : LaunchInfo}
    {blockSize : Word}
    {s start final : Iss}
    (threads : cfg.numThreads ≤ 8)
    (checked : info.gpuLaunchBlockSize cfg = some blockSize)
    (launched : s.modelLaunch cfg info blockSize = some start)
    (tame : Iss.Tame cfg start)
    (reached : Iss.Reachable cfg start final)
    (finished : final.Finished) :
    Reaches cfg info blockSize s.pmem final.pmem ↔
      cfg.numCores ≤ 32 ∧ blockSize.toNat ≤ 32 * cfg.numThreads := by
  have accepted := LaunchInfo.accepted_of_gpuLaunchBlockSize checked
  constructor
  · intro reaches
    refine ⟨?_, blockSize_le_of_reaches checked reaches⟩
    obtain ⟨_, _, _, _, launch, _⟩ := reaches
    exact numCores_le_of_tick launch.pulse
  · rintro ⟨cores, small⟩
    obtain ⟨ends, own⟩ := Iss.exists_ownRuns launched tame reached finished
    exact reaches_of_le ⟨start, s.pmem, ends, final.pmem, accepted,
      Iss.launched_of_modelLaunch accepted launched, own⟩ checked threads cores small

/-- The simulator at the launch of two threads that part. -/
def pairStart (cfg : Config) : Iss :=
  ((Iss.fresh partingImage).modelLaunch cfg pairLaunch 2).getD (Iss.fresh partingImage)

theorem modelLaunch_pairStart :
    (Iss.fresh partingImage).modelLaunch Config.twoPairs pairLaunch 2 =
      some (pairStart Config.twoPairs) := rfl

/-- What the simulator does with it: nine instructions, and no fault. -/
theorem pairStart_endsAfter : Iss.EndsAfter Config.twoPairs (pairStart Config.twoPairs) 9 := by
  decide +kernel

theorem pairStart_finished :
    (Iss.stateAfter Config.twoPairs (pairStart Config.twoPairs) 9).Finished :=
  pairStart_endsAfter.finished (by decide +kernel)

theorem pairStart_tame : Iss.Tame Config.twoPairs (pairStart Config.twoPairs) :=
  pairStart_endsAfter.tame (by decide +kernel)

/-- Two lanes of a warp part at a branch, one of them stores, and both halt. -/
theorem warpsRefineThreads_parting :
    ∃ final : Iss, final.Finished ∧ final.pmem 0x82000000 = 1 ∧
      Reaches Config.twoPairs pairLaunch 2 partingImage final.pmem := by
  refine ⟨_, pairStart_finished, by decide +kernel, ?_⟩
  apply (warpsRefineThreads_iff (by decide) (by decide) modelLaunch_pairStart pairStart_tame
    pairStart_endsAfter.reachableIn.reachable pairStart_finished).mpr
  exact ⟨by decide, by decide⟩

/-- More cores than a word has bits. -/
def crowded : Config :=
  { Config.twoPairs with
    numCores := 33
    numCores_pos := by decide
    harts_fit := by decide }

/-- On 33 cores the simulator ends the same launch in the same way, but `pack` shifts by 32. -/
theorem not_reaches_crowded :
    ∃ start final : Iss, crowded.numThreads ≤ 8 ∧
      pairLaunch.gpuLaunchBlockSize crowded = some 2 ∧
      (Iss.fresh partingImage).modelLaunch crowded pairLaunch 2 = some start ∧
      Iss.Tame crowded start ∧ Iss.Reachable crowded start final ∧ final.Finished ∧
      ¬Reaches crowded pairLaunch 2 partingImage final.pmem := by
  have ends : Iss.EndsAfter crowded (pairStart crowded) 9 := by decide +kernel
  refine ⟨_, _, by decide, by decide, rfl, ends.tame (by decide +kernel),
    ends.reachableIn.reachable, ends.finished (by decide +kernel), ?_⟩
  rintro ⟨_, _, _, _, launch, _⟩
  exact absurd (numCores_le_of_tick launch.pulse) (by decide)

/-- A model at rest, as after a reset and after every such launch, ends a launch of threads that
do not interfere where the simulator ends it, in a number of cycles that is linear in the
instructions, and is at rest again. -/
theorem launch_inTime
    {cfg : Config}
    {info : LaunchInfo}
    {blockSize : Word}
    {s start final : Iss}
    {count : Nat}
    {m : Model}
    (threads : cfg.numThreads ≤ 8)
    (cores : cfg.numCores ≤ 32)
    (small : blockSize.toNat ≤ 32 * cfg.numThreads)
    (checked : info.gpuLaunchBlockSize cfg = some blockSize)
    (launched : s.modelLaunch cfg info blockSize = some start)
    (tame : Iss.Tame cfg start)
    (reached : Iss.ReachableIn cfg start count final)
    (finished : final.Finished)
    (rest : AtRest cfg (32 * cfg.numThreads) m)
    (dcr : m.dcr = info.registers blockSize)
    (mem : m.mem = ShadowMemory.of cfg s.pmem) :
    ∃ run bound, bound ≤ cycleLimit cfg count info.gridDim.count ∧
      CleanLaunch cfg m bound run ∧ AtRest cfg (32 * cfg.numThreads) (run bound) ∧
      (run bound).mem.bytes = final.pmem := by
  obtain ⟨runs, rfl, same, last, rfl⟩ := exists_launchRuns
    (LaunchInfo.accepted_of_gpuLaunchBlockSize checked) launched tame reached finished
  rw [← same] at mem
  rw [← last]
  obtain ⟨run, bound, clean, inTime, _, ends⟩ :=
    rest.exists_cleanLaunch runs checked threads cores small dcr mem
  exact ⟨run, bound, inTime, clean, ends⟩

/-- Two lanes that part, on two cores. -/
theorem launch_inTime_parting :
    ∃ (m : Model) (final : Iss) (run : Nat → Model) (bound : Nat), final.Finished ∧
      bound ≤ cycleLimit Config.twoPairs 9 1 ∧ CleanLaunch Config.twoPairs m bound run ∧
      AtRest Config.twoPairs 64 (run bound) ∧ (run bound).mem.bytes = final.pmem ∧
      (run bound).mem.bytes 0x82000000 = 1 := by
  have faithful : FaithfulSets Config.twoPairs 64 := faithfulSets_of_le (by decide) (by decide)
    (by decide)
  obtain ⟨m, prepared⟩ := faithful.exists_beforeLaunch pairLaunch 2 partingImage
  obtain ⟨rest, dcr, mem⟩ := atRest_of_beforeLaunch prepared
  obtain ⟨run, bound, inTime, clean, atRest, last⟩ := launch_inTime (by decide) (by decide)
    (by decide) (by decide) modelLaunch_pairStart pairStart_tame pairStart_endsAfter.reachableIn
    pairStart_finished rest dcr mem
  refine ⟨m, _, run, bound, pairStart_finished, inTime, clean, atRest, last, ?_⟩
  rw [last]
  decide +kernel

end Model

end OpenGPU
