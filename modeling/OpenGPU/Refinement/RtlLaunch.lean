import OpenGPU.Refinement.RtlTick
import OpenGPU.Refinement.WarpsRefineThreads

/-!
# A launch on the SystemVerilog GPU

The calls of one launch in DiffTest, from an idle GPU to an idle GPU. The netlist follows the
cycle model, and the cycle model follows the threads, up to the first arithmetic shift of a
negative value.
-/

namespace OpenGPU

open Verilog

/-- No thread of the launch shifts a negative value arithmetically. -/
def LaunchRuns.Plain {cfg : Config} {info : LaunchInfo} {blockSize : Word}
    (runs : LaunchRuns cfg info blockSize) : Prop :=
  ∀ i k, k < runs.ends i → ¬runs.ShiftsNegative i k

/-- The simulator says so when it executes the launch. -/
theorem LaunchRuns.plain_iff
    {cfg : Config}
    {info : LaunchInfo}
    {blockSize : Word}
    {s final : Iss}
    (runs : LaunchRuns cfg info blockSize)
    (launched : s.modelLaunch cfg info blockSize = some runs.start)
    (tame : Iss.Tame cfg runs.start)
    (reached : Iss.Reachable cfg runs.start final)
    (finished : final.Finished) :
    runs.Plain ↔ Iss.NeverShiftsNegative cfg runs.start :=
  (runs.own.forall_turn_iff launched tame reached finished fun core inst =>
    ¬core.ShiftsNegative inst).symm

/-- Being at rest is no matter of the sampled inputs. -/
theorem Model.SameButInputs.atRest
    {cfg : Config}
    {largest : Nat}
    {m other : Model}
    (same : m.SameButInputs other)
    (host : HostRun cfg largest other)
    (rest : AtRest cfg largest m) :
    AtRest cfg largest other := by
  refine ⟨host, ?_, ?_⟩ <;> rw [same]
  · exact rest.walk
  · exact rest.cores

namespace RtlSim

variable {cfg : Config} {info : LaunchInfo} {blockSize : Word}
  {runs : LaunchRuns cfg info blockSize} {m : Model} {bound time : Nat} {run : Nat → Model}
  {sim : RtlSim (vgpuTop cfg)} {pmem : Pmem}

/-! ## Before the launch -/

/-- An idle GPU: both sides are in step, the pins are at rest, and no core works. -/
structure Ready (cfg : Config) (sim : RtlSim (vgpuTop cfg)) (pmem : Pmem) : Prop where
  inStep : InStep cfg false sim pmem
  pins : sim.PinsAtRest
  rest : Model.AtRest cfg (32 * cfg.numThreads) sim.model

/-- The host may write memory. -/
theorem Ready.write
    (ready : Ready cfg sim pmem)
    (written : Pmem) :
    Ready cfg sim written :=
  ⟨ready.inStep.write ready.inStep.quiet written, ready.pins, ready.rest⟩

/-- `gpu_model_init` leaves an idle GPU. -/
theorem exists_ready
    (threads : cfg.numThreads ≤ 32)
    (inited : Model.gpuModelInit cfg = some m)
    (pmem : Pmem) :
    ∃ sim, (gpuRtlInit cfg .hardwareDiffTest : PmemAction (RtlSim (vgpuTop cfg))).run pmem =
        some (sim, pmem) ∧ Ready cfg sim pmem ∧ sim.model = m := by
  obtain ⟨sim, ran, inStep, pins, same⟩ := exists_gpuRtlInit threads inited pmem
  exact ⟨sim, ran, ⟨inStep, pins, same ▸ Model.atRest_of_gpuModelInit inited⟩, same⟩

/-- So does `configure_model`. -/
theorem Ready.exists_configure
    (ready : Ready cfg sim pmem)
    (threads : cfg.numThreads ≤ 32)
    (configured : sim.model.configureModel cfg (info.configurationWrites blockSize) = some m) :
    ∃ next, ((info.configurationWrites blockSize).foldlM
        (fun (sim : RtlSim (vgpuTop cfg)) write =>
          sim.gpuRtlDcrWrite cfg .hardwareDiffTest write.1 write.2) sim).run pmem =
          some (next, pmem) ∧
      Ready cfg next pmem ∧ next.model = m := by
  obtain ⟨next, ran, inStep, pins, same⟩ := ready.inStep.exists_configure threads
    (configurationWrites_narrow info blockSize) ready.pins configured
  exact ⟨next, ran, ⟨inStep, pins, same ▸ (ready.rest.configureModel configured).1⟩, same⟩

/-! ## Ticks -/

/-- The netlist has followed the launch up to some time, over no arithmetic shift of a
negative value. -/
structure Progress (runs : LaunchRuns cfg info blockSize) (run : Nat → Model) (time : Nat)
    (sim : RtlSim (vgpuTop cfg)) (pmem : Pmem) : Prop where
  following : Following cfg (run time) sim pmem
  running : ∃ n blockOf Q, Running runs (run time) n blockOf Q ∧
    ∀ i k, k < Q i → ¬runs.ShiftsNegative i k

/-- A tick either makes progress or finds the mismatch of such a shift. -/
theorem Progress.tick
    (progress : Progress runs run time sim pmem)
    (threads : cfg.numThreads ≤ 8)
    (launch : Model.CleanLaunch cfg m bound run)
    (early : time < bound) :
    ∃ next after, (sim.tick cfg .hardwareDiffTest).run pmem = some (next, after) ∧
      ((next.diffFailed = false ∧ Progress runs run (time + 1) next after) ∨
        (next.diffFailed = true ∧ ¬runs.Plain)) := by
  obtain ⟨following, n, blockOf, Q, running, before⟩ := progress
  have cores := Model.numCores_le_of_tick launch.pulse
  have defined := launch.tick time early
  obtain ⟨next, after, ran, passed, follows⟩ :=
    following.exists_tick running cores threads defined
  refine ⟨next, after, ran, ?_⟩
  cases verdict : next.diffFailed with
  | false =>
      refine Or.inl ⟨rfl, follows verdict, _, _, _, running.tick cores threads defined, ?_⟩
      intro i k executed
      rcases running.advanced_cases i with kept | ⟨moved, _⟩
      · rw [kept] at executed
        exact before i k executed
      · rw [moved] at executed
        rcases Nat.lt_succ_iff_lt_or_eq.mp executed with past | rfl
        · exact before i k past
        · exact passed.mp verdict i moved
  | true =>
      refine Or.inr ⟨rfl, fun plain => ?_⟩
      have clean : next.diffFailed = false := passed.mpr fun i moved => by
        rcases running.advanced_cases i with kept | ⟨_, here, _⟩
        · omega
        · exact plain i (Q i) here
      exact Bool.noConfusion (verdict.symm.trans clean)

/-- The first tick after the pulse moves nobody. -/
theorem Following.first_tick
    (following : Following cfg (run 0) sim pmem)
    (running : Running runs (run 0) 0 (fun _ => 0) (fun _ => 0))
    (threads : cfg.numThreads ≤ 8)
    (launch : Model.CleanLaunch cfg m bound run)
    (early : 0 < bound) :
    ∃ next after, (sim.tick cfg .hardwareDiffTest).run pmem = some (next, after) ∧
      Progress runs run 1 next after := by
  have cores := Model.numCores_le_of_tick launch.pulse
  have defined := launch.tick 0 early
  have still : ∀ i, advanced cfg blockSize (run 0) (fun _ => 0) (fun _ => 0) i = 0 := fun i =>
    running.untouched_tick (by omega)
  obtain ⟨next, after, ran, passed, follows⟩ :=
    following.exists_tick running cores threads defined
  refine ⟨next, after, ran, follows (passed.mpr fun i moved => ?_), _, _, _,
    running.tick cores threads defined, fun i k executed => ?_⟩
  · rw [still i] at moved
    omega
  · rw [still i] at executed
    exact absurd executed (Nat.not_lt_zero k)

/-- `gpu_rtl_launch` begins a launch and leaves memory alone. -/
theorem Ready.exists_launched
    (ready : Ready cfg sim runs.pmem)
    (checked : info.gpuLaunchBlockSize cfg = some blockSize)
    (threads : cfg.numThreads ≤ 8)
    (small : blockSize.toNat ≤ 32 * cfg.numThreads)
    (dcr : sim.model.dcr = info.registers blockSize)
    (launch : Model.CleanLaunch cfg (Model.cycleDiffBegin cfg runs.pmem sim.model) bound run)
    (early : 0 < bound) :
    ∃ next, (sim.gpuRtlLaunch cfg .hardwareDiffTest).run runs.pmem = some (next, runs.pmem) ∧
      Progress runs run 1 next runs.pmem := by
  have rest : Model.AtRest cfg (32 * cfg.numThreads)
      (Model.cycleDiffBegin cfg runs.pmem sim.model) :=
    ⟨.load runs.pmem ready.rest.reached, ready.rest.walk, ready.rest.cores⟩
  have running := running_of_pulse runs checked small rest dcr rfl launch.pulse
  obtain ⟨sameCores, mem, _⟩ := rest.pulse launch.pulse
  -- the pins still carry the last configuration write
  obtain ⟨other, steps, alike⟩ := (Model.SameButInputs.refl _).exists_tick launch.pulse
    sim.pins.dcrAddr sim.pins.dcrData
  have allowed : Model.Allowed cfg (32 * cfg.numThreads)
      ⟨false, false, sim.pins.dcrAddr, sim.pins.dcrData, true⟩
      (Model.cycleDiffBegin cfg runs.pmem sim.model) :=
    ⟨fun writes => Bool.noConfusion writes, fun _ => ⟨info, blockSize, checked, small, dcr⟩⟩
  have host := rest.reached.tick _ allowed steps
  obtain ⟨pulsed, launches, inStep, pins, same⟩ :=
    ready.inStep.exists_pulse (threads.trans (by decide)) ready.pins steps
  have following : Following cfg (run 0) pulsed runs.pmem := by
    refine ⟨inStep, pins, same ▸ host, same ▸ alike, ?_⟩
    rw [mem]
    rfl
  obtain ⟨next, after, ticks, progress⟩ := following.first_tick running threads launch early
  obtain rfl : after = runs.pmem := by
    -- no core has a block yet
    have kept : (run 1).mem = (run 0).mem :=
      Model.tick_mem_of_inactive (fun core inRange => by
        rw [sameCores]
        exact (rest.cores core inRange).inactive) rfl (launch.tick 0 early)
    rw [progress.following.memory, kept, mem]
    rfl
  exact ⟨next, launches.trans ticks, progress⟩

/-! ## The loop -/

/-- How the loop of `gpu_rtl_wait` leaves a launch: by a mismatch, at its end, or before it. -/
inductive WaitOutcome (runs : LaunchRuns cfg info blockSize) (run : Nat → Model)
    (bound time : Nat) : Stop → RtlSim (vgpuTop cfg) → Pmem → Prop
  | mismatch {next : RtlSim (vgpuTop cfg)} {after : Pmem}
      (shifts : ¬runs.Plain) :
      WaitOutcome runs run bound time .fault next after
  | done {next : RtlSim (vgpuTop cfg)} {after : Pmem}
      (progress : Progress runs run bound next after)
      (reached : bound ≤ time) :
      WaitOutcome runs run bound time .rest next after
  | busy {next : RtlSim (vgpuTop cfg)} {after : Pmem}
      (progress : Progress runs run time next after)
      (early : time < bound) :
      WaitOutcome runs run bound time .limit next after

/-- The loop of `gpu_rtl_wait` ends. -/
theorem Progress.exists_waitCycles
    (progress : Progress runs run time sim pmem)
    (threads : cfg.numThreads ≤ 8)
    (launch : Model.CleanLaunch cfg m bound run)
    (early : time < bound)
    (maxCycles : Nat) :
    ∃ stop next after,
      (sim.waitCycles cfg .hardwareDiffTest maxCycles).run pmem = some ((stop, next), after) ∧
        WaitOutcome runs run bound (time + maxCycles) stop next after := by
  have cores := Model.numCores_le_of_tick launch.pulse
  induction maxCycles generalizing time sim pmem with
  | zero => exact ⟨.limit, sim, pmem, rfl, .busy progress early⟩
  | succ maxCycles inductionHypothesis =>
      obtain ⟨ticked, middle, ran, outcome⟩ := progress.tick threads launch early
      have cycle : (sim.waitCycle cfg .hardwareDiffTest).run pmem =
          (if ticked.gpuRtlFault then pure (.inl (.fault, ticked))
            else if !(vgpuTop cfg).gpuBusy ticked.top then pure (.inl (.rest, ticked))
            else pure (.inr ticked) :
              PmemAction ((Stop × RtlSim (vgpuTop cfg)) ⊕ RtlSim (vgpuTop cfg))).run middle := by
        unfold waitCycle
        rw [LocalAction.run_bind, ran]
        rfl
      rcases outcome with ⟨passed, later⟩ | ⟨failed, shifts⟩
      · obtain ⟨busy, fault⟩ := later.following.outputs cores
        have clean : ticked.gpuRtlFault = false := by
          rw [gpuRtlFault, fault, launch.clean (time + 1) early, passed]
          rfl
        rw [clean, if_neg Bool.false_ne_true, busy] at cycle
        rcases Nat.lt_or_eq_of_le early with goesOn | rfl
        · obtain ⟨stop, next, after, rest, outcome⟩ := inductionHypothesis later goesOn
          rw [launch.busy (time + 1) goesOn] at cycle
          rw [Nat.succ_add_eq_add_succ] at outcome
          exact ⟨stop, next, after, (LocalAction.run_loop_succ _ cycle maxCycles).trans rest,
            outcome⟩
        · rw [launch.ends] at cycle
          exact ⟨.rest, ticked, middle, LocalAction.run_loop_answer _ cycle maxCycles,
            .done later (by omega)⟩
      · have found : ticked.gpuRtlFault = true := by
          rw [gpuRtlFault, failed, Bool.or_true]
        rw [found, if_pos rfl] at cycle
        exact ⟨.fault, ticked, middle, LocalAction.run_loop_answer _ cycle maxCycles,
          .mismatch shifts⟩

/-- At the end of the launch all threads are at their ends. -/
theorem Progress.plain
    (progress : Progress runs run bound sim pmem)
    (cores : cfg.numCores ≤ 32)
    (idle : (run bound).topBusy cfg = false) :
    runs.Plain := by
  obtain ⟨_, n, blockOf, Q, running, before⟩ := progress
  rwa [running.ends_of_idle cores idle] at before

/-- The GPU is idle then, and memory is that of the threads. -/
theorem Progress.ready
    (progress : Progress runs run bound sim pmem)
    (cores : cfg.numCores ≤ 32)
    (idle : (run bound).topBusy cfg = false) :
    Ready cfg sim pmem ∧ pmem = runs.final := by
  obtain ⟨following, n, blockOf, Q, running, _⟩ := progress
  have quiet := (following.outputs cores).1.trans idle
  exact ⟨⟨following.inStep.write quiet pmem, following.pins,
    following.model.atRest following.host (running.atRest cores idle)⟩,
    following.memory.trans (running.mem_eq cores idle)⟩

/-- `gpu_rtl_wait` completes a launch exactly when no thread shifts a negative value and the
limit leaves it enough cycles, and then the GPU is idle again. -/
theorem Progress.exists_gpuRtlWait
    (progress : Progress runs run time sim pmem)
    (threads : cfg.numThreads ≤ 8)
    (launch : Model.CleanLaunch cfg m bound run)
    (early : time < bound)
    (maxCycles : Nat) :
    ∃ completed next after,
      (sim.gpuRtlWait cfg .hardwareDiffTest maxCycles).run pmem =
          some ((completed, next), after) ∧
        (completed = true ↔ runs.Plain ∧ bound ≤ time + maxCycles) ∧
        (completed = true → next.gpuRtlFault = false ∧ Ready cfg next after ∧
          after = runs.final) := by
  have cores := Model.numCores_le_of_tick launch.pulse
  obtain ⟨stop, next, after, ran, outcome⟩ :=
    progress.exists_waitCycles threads launch early maxCycles
  unfold gpuRtlWait
  rw [LocalAction.run_bind, ran, Option.bind_some]
  cases outcome with
  | mismatch shifts => exact ⟨false, next, after, rfl, by simp [shifts], by simp⟩
  | busy still before =>
      obtain ⟨busy, fault⟩ := still.following.outputs cores
      rw [launch.busy _ before] at busy
      refine ⟨false, next, after, ?_, by simp [before], by simp⟩
      dsimp only
      rw [busy]
      rfl
  | done finished reached =>
      have inStep := finished.following.inStep
      obtain ⟨_, fault⟩ := finished.following.outputs cores
      rw [launch.clean bound le_rfl] at fault
      obtain ⟨ready, memory⟩ := finished.ready cores launch.ends
      have same : ({ next with diffFailed := next.diffFailed || !true } :
          RtlSim (vgpuTop cfg)) = next := by
        simp
      refine ⟨true, next, after, ?_, by simp [reached, finished.plain cores launch.ends],
        fun _ => ⟨?_, ready, memory⟩⟩
      · dsimp only
        rw [if_pos (show Build.hardwareDiffTest.diffTest = true from rfl), LocalAction.run_bind,
          inStep.check]
        exact congrArg (fun sim => some ((true, sim), after)) same
      · simp [gpuRtlFault, fault, inStep.passed]

end RtlSim

end OpenGPU
