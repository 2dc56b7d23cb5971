import OpenGPU.Dispatch.PhysicalId
import OpenGPU.Lockstep.DiffTestRun
import OpenGPU.Refinement.Start

/-!
# The calls of the runtime as runs of the driver

`gpu_model_init`, `configure_model`, `gpu_rtl_launch` and `gpu_rtl_wait` only make ticks, with
pins that the driver may assert. Next to the run that a call is, the cycle model makes the
steps of that call.
-/

namespace OpenGPU

open Verilog

namespace RtlSim

/-! ## The cycle model -/

section Models

variable {V : VGPUTop} {cfg : Config} {build : Build} {sim next : RtlSim V} {pmem after : Pmem}

/-- In a tick the model steps once. -/
theorem tick_model
    (diffTest : build.diffTest = true)
    (ran : (sim.tick cfg build).run pmem = some (next, after)) :
    sim.model.tick cfg ⟨sim.pins.reset, sim.pins.dcrValid, sim.pins.dcrAddr, sim.pins.dcrData,
      sim.pins.launch⟩ = some next.model := by
  obtain ⟨first, second, third, fourth, fell, before, rose, settled, compared⟩ :=
    tick_diffTest diffTest ran
  have stepped := beforeEdge_model before
  obtain ⟨⟨_, _, rfl⟩, _⟩ := evalTop_spec fell
  obtain ⟨⟨_, _, rfl⟩, _⟩ := evalTop_spec rose
  obtain ⟨⟨_, _, rfl⟩, _⟩ := evalTop_spec settled
  obtain ⟨_, _, rfl⟩ := afterEdge_frame compared
  exact stepped

end Models

/-! ## Calls -/

variable {cfg : Config} {sim next : RtlSim (vgpuTop cfg)} {pmem after : Pmem} {current : Bool}
  {ticks : List (RtlSim (vgpuTop cfg) × RtlSim (vgpuTop cfg))}

/-- The pins between two calls. -/
structure PinsAtRest (sim : RtlSim (vgpuTop cfg)) : Prop where
  running : sim.pins.reset = false
  noWrite : sim.pins.dcrValid = false
  noLaunch : sim.pins.launch = false
  narrow : (sim.pins.dcrAddr.setWidth 12).setWidth 32 = sim.pins.dcrAddr

/-- A run goes on, up to a call that returns. -/
structure DriverRun.Extends (cfg : Config)
    (ticks : List (RtlSim (vgpuTop cfg) × RtlSim (vgpuTop cfg))) (current : Bool)
    (next : RtlSim (vgpuTop cfg)) (after : Pmem) : Prop where
  run : ∃ more, DriverRun cfg (ticks ++ more) current next after
  pins : next.PinsAtRest

/-- A tick with other pins. -/
theorem DriverRun.tickWith
    {pins : TopPins}
    (ran : (sim.tickWith cfg .hardwareDiffTest pins).run pmem = some (next, after))
    (run : ∃ more, DriverRun cfg (ticks ++ more) current sim pmem)
    (running : pins.reset = false)
    (narrow : (pins.dcrAddr.setWidth 12).setWidth 32 = pins.dcrAddr)
    (begun : pins.launch = true → current = true) :
    ∃ more, DriverRun cfg (ticks ++ more) current next after := by
  obtain ⟨more, run⟩ := run
  refine ⟨more ++ [({ sim with pins := pins }, next)], ?_⟩
  rw [← List.append_assoc]
  exact (run.drive pins running narrow).tick begun ran

/-- `gpu_model_init`. -/
theorem driverRun_gpuRtlInit
    (ran : (gpuRtlInit cfg .hardwareDiffTest : PmemAction (RtlSim (vgpuTop cfg))).run pmem =
      some (sim, after)) :
    DriverRun.Extends cfg [] false sim after ∧ Model.gpuModelInit cfg = some sim.model := by
  obtain ⟨model, _, inits, ran⟩ := LocalAction.run_bind_eq_some ran
  rw [if_pos (show Build.hardwareDiffTest.diffTest = true from rfl), LocalAction.run_ofOption]
    at inits
  obtain ⟨_, started, same⟩ := Option.map_eq_some_iff.mp inits
  cases same
  obtain ⟨cleared, middle, resets, ticks⟩ := LocalAction.run_bind_eq_some ran
  have run := DriverRun.rtlInit started resets
  obtain ⟨ticked, _, whole, finished⟩ := LocalAction.run_bind_eq_some resets
  cases finished
  have pins : ticked.pins = ⟨true, false, 0, 0, false⟩ := tickWith_pins whole
  have kept : sim.pins = ⟨false, false, 0, 0, false⟩ := by
    rw [tick_pins ticks]
    dsimp only
    rw [pins]
  have first : model.tick cfg .resetPulse = some ticked.model := tick_model rfl whole
  have second := tick_model rfl ticks
  dsimp only at second
  rw [pins] at second
  refine ⟨⟨⟨_, run.tick ?_ ticks⟩, ?_⟩, ?_⟩
  · dsimp only
    rw [pins]
    exact fun never => Bool.noConfusion never
  · constructor <;> rw [kept]
    rfl
  · unfold Model.gpuModelInit
    rw [started, Option.bind_some, first]
    exact second

/-- `gpu_rtl_dcr_write`, for an address that the pins can carry. -/
theorem DriverRun.Extends.gpuRtlDcrWrite
    (run : DriverRun.Extends cfg ticks current sim pmem)
    {addr data : Word}
    (narrow : (addr.setWidth 12).setWidth 32 = addr)
    (ran : (sim.gpuRtlDcrWrite cfg .hardwareDiffTest addr data).run pmem = some (next, after)) :
    DriverRun.Extends cfg ticks current next after ∧
      sim.model.tick cfg (.dcrWrite addr data) = some next.model := by
  obtain ⟨run, rest⟩ := run
  obtain ⟨ticked, middle, whole, finished⟩ := LocalAction.run_bind_eq_some ran
  cases finished
  have pins := tickWith_pins whole
  have stepped := tick_model rfl whole
  dsimp only at stepped
  rw [rest.running, rest.noLaunch] at stepped
  obtain ⟨more, run⟩ := DriverRun.tickWith whole run rest.running narrow fun launch =>
    Bool.noConfusion (rest.noLaunch.symm.trans launch)
  have running : ticked.pins.reset = false := (congrArg TopPins.reset pins).trans rest.running
  have inWidth : (ticked.pins.dcrAddr.setWidth 12).setWidth 32 = ticked.pins.dcrAddr := by
    rw [pins]
    exact narrow
  exact ⟨⟨⟨more, run.drive _ running inWidth⟩,
    ⟨running, rfl, (congrArg TopPins.launch pins).trans rest.noLaunch, inWidth⟩⟩, stepped⟩

/-- `configure_model`. -/
theorem DriverRun.Extends.configure
    {writes : List (Word × Word)}
    (narrow : ∀ write ∈ writes, (write.1.setWidth 12).setWidth 32 = write.1)
    (run : DriverRun.Extends cfg ticks current sim pmem)
    (ran : (writes.foldlM (fun (sim : RtlSim (vgpuTop cfg)) write =>
      sim.gpuRtlDcrWrite cfg .hardwareDiffTest write.1 write.2) sim).run pmem = some (next, after)) :
    DriverRun.Extends cfg ticks current next after ∧
      sim.model.configureModel cfg writes = some next.model := by
  induction writes generalizing sim pmem with
  | nil =>
      cases ran
      exact ⟨run, rfl⟩
  | cons write writes inductionHypothesis =>
      rw [List.foldlM_cons] at ran
      obtain ⟨written, middle, wrote, rest⟩ := LocalAction.run_bind_eq_some ran
      obtain ⟨run, stepped⟩ := run.gpuRtlDcrWrite (narrow write List.mem_cons_self) wrote
      obtain ⟨run, configured⟩ := inductionHypothesis
        (fun other member => narrow other (List.mem_cons_of_mem _ member)) run rest
      refine ⟨run, ?_⟩
      rw [Model.configureModel, List.foldlM_cons, stepped]
      exact configured

/-- `gpu_rtl_launch` brings the copy up to date, pulses the launch pin and ticks once more. -/
theorem DriverRun.Extends.gpuRtlLaunch
    (run : DriverRun.Extends cfg ticks current sim pmem)
    (ran : (sim.gpuRtlLaunch cfg .hardwareDiffTest).run pmem = some (next, after)) :
    DriverRun.Extends cfg ticks true next after ∧ ∃ pulsed,
      (Model.cycleDiffBegin cfg pmem sim.model).tick cfg
          ⟨false, false, sim.pins.dcrAddr, sim.pins.dcrData, true⟩ = some pulsed ∧
        pulsed.tick cfg ⟨false, false, sim.pins.dcrAddr, sim.pins.dcrData, false⟩ =
          some next.model := by
  obtain ⟨⟨more, run⟩, rest⟩ := run
  obtain ⟨begun, _, begins, ran⟩ := LocalAction.run_bind_eq_some ran
  rw [if_pos (show Build.hardwareDiffTest.diffTest = true from rfl)] at begins
  have run := run.begin begins
  cases begins
  obtain ⟨pulsed, middle, pulse, idle⟩ := LocalAction.run_bind_eq_some ran
  have pins := tickWith_pins pulse
  have kept := tickWith_pins idle
  have first := tick_model rfl pulse
  have second := tick_model rfl idle
  dsimp only at pins kept first second
  rw [rest.running, rest.noWrite] at first
  rw [pins] at kept second
  dsimp only at kept second
  rw [rest.running, rest.noWrite] at kept second
  obtain run := DriverRun.tickWith pulse ⟨more, run⟩ rest.running rest.narrow fun _ => rfl
  refine ⟨⟨DriverRun.tickWith idle run ?_ ?_ fun _ => rfl, ?_⟩, pulsed.model, first, second⟩
  · exact (congrArg TopPins.reset pins).trans rest.running
  · rw [pins]
    exact rest.narrow
  · constructor <;> rw [kept]
    exact rest.narrow

/-- A tick with the pins at rest. -/
theorem DriverRun.Extends.tick
    (run : DriverRun.Extends cfg ticks true sim pmem)
    (ran : (sim.tick cfg .hardwareDiffTest).run pmem = some (next, after)) :
    DriverRun.Extends cfg ticks true next after := by
  obtain ⟨⟨more, run⟩, rest⟩ := run
  have pins := tick_pins ran
  refine ⟨⟨more ++ [(sim, next)], ?_⟩, ?_⟩
  · rw [← List.append_assoc]
    exact run.tick (fun _ => rfl) ran
  · constructor <;> rw [pins]
    · exact rest.running
    · exact rest.noWrite
    · exact rest.noLaunch
    · exact rest.narrow

/-- One cycle of `gpu_rtl_wait`. -/
theorem DriverRun.Extends.waitCycle
    (run : DriverRun.Extends cfg ticks true sim pmem)
    {result : (Stop × RtlSim (vgpuTop cfg)) ⊕ RtlSim (vgpuTop cfg)}
    (ran : (sim.waitCycle cfg .hardwareDiffTest).run pmem = some (result, after)) :
    DriverRun.Extends cfg ticks true (Sum.elim Prod.snd id result) after := by
  obtain ⟨ticked, middle, whole, finished⟩ := LocalAction.run_bind_eq_some ran
  have run := run.tick whole
  split_ifs at finished <;> cases finished <;> exact run

/-- `gpu_rtl_wait`. -/
theorem DriverRun.Extends.gpuRtlWait
    (run : DriverRun.Extends cfg ticks true sim pmem)
    {maxCycles : Nat}
    {completed : Bool}
    (ran : (sim.gpuRtlWait cfg .hardwareDiffTest maxCycles).run pmem =
      some ((completed, next), after)) :
    DriverRun.Extends cfg ticks true next after := by
  obtain ⟨⟨stop, waited⟩, middle, cycles, rest⟩ := LocalAction.run_bind_eq_some ran
  have run := LocalAction.loop_induct (DriverRun.Extends cfg ticks true)
    (fun result => DriverRun.Extends cfg ticks true result.2)
    (fun sim pmem answer after run ran => run.waitCycle ran)
    (fun sim pmem next after run ran => run.waitCycle ran) (fun _ _ run => run) run cycles
  dsimp only at run rest
  cases stop with
  | fault =>
      cases rest
      exact run
  | limit =>
      cases rest
      exact run
  | rest =>
      dsimp only at rest
      rw [if_pos (show Build.hardwareDiffTest.diffTest = true from rfl)] at rest
      obtain ⟨same, last, checked, finished⟩ := LocalAction.run_bind_eq_some rest
      cases finished
      obtain ⟨⟨more, run⟩, pins⟩ := run
      exact ⟨⟨more, run.check checked⟩, ⟨pins.running, pins.noWrite, pins.noLaunch, pins.narrow⟩⟩

/-- `configure_model`, `gpu_model_launch` and `gpu_model_wait` of the hardware model. -/
def launchAndWait (cfg : Config) (info : LaunchInfo) (blockSize : Word) (maxCycles : Nat)
    (sim : RtlSim (vgpuTop cfg)) : PmemAction (Bool × RtlSim (vgpuTop cfg)) := do
  let sim ← (info.configurationWrites blockSize).foldlM (fun (sim : RtlSim (vgpuTop cfg)) write =>
    sim.gpuRtlDcrWrite cfg .hardwareDiffTest write.1 write.2) sim
  let sim ← sim.gpuRtlLaunch cfg .hardwareDiffTest
  sim.gpuRtlWait cfg .hardwareDiffTest maxCycles

/-- The addresses of the configuration registers are narrow enough for the pins. -/
theorem configurationWrites_narrow
    (info : LaunchInfo)
    (blockSize : Word) :
    ∀ write ∈ info.configurationWrites blockSize, (write.1.setWidth 12).setWidth 32 = write.1 := by
  simp [LaunchInfo.configurationWrites]

/-- A whole launch. -/
theorem DriverRun.Extends.launchAndWait
    (run : DriverRun.Extends cfg ticks current sim pmem)
    {info : LaunchInfo}
    {blockSize : Word}
    {maxCycles : Nat}
    {completed : Bool}
    (ran : (sim.launchAndWait cfg info blockSize maxCycles).run pmem =
      some ((completed, next), after)) :
    DriverRun.Extends cfg ticks true next after := by
  obtain ⟨configured, middle, writes, rest⟩ := LocalAction.run_bind_eq_some ran
  obtain ⟨launched, last, launches, waits⟩ := LocalAction.run_bind_eq_some rest
  have run := (run.configure (configurationWrites_narrow info blockSize) writes).1
  exact (run.gpuRtlLaunch launches).1.gpuRtlWait waits

/-! ## The verdict -/

/-- Over any run of the driver DiffTest reports a mismatch exactly when one of the known
differences has shown in some tick. If it reports none, every register of the netlist is
the one of the cycle model, and memory that has not been written since the last
`cycle_diff_begin` is the image of the copy. -/
theorem DriverRun.verdict
    (threads : cfg.numThreads ≤ 32)
    {ticks : List (RtlSim (vgpuTop cfg) × RtlSim (vgpuTop cfg))}
    (run : DriverRun cfg ticks current sim pmem) :
    (sim.diffFailed = false ↔ ∀ step ∈ ticks, PlainTick cfg step.1 step.2) ∧
      (sim.diffFailed = false → SameTop cfg sim.model sim.netlist.top ∧
        (current = true → sim.SameImages cfg pmem)) := by
  refine ⟨?_, fun passed => ?_⟩
  · induction run with
    | rtlInit started ran =>
        exact iff_of_true (inStep_rtlInit threads started ran).passed fun _ member =>
          absurd member List.not_mem_nil
    | drive run pins running narrow inductionHypothesis => exact inductionHypothesis
    | @tick ticks current sim next pmem after run begun ran inductionHypothesis =>
        obtain ⟨stepped, ticked⟩ := tick_ticked rfl ran
        rw [List.forall_mem_append, ← inductionHypothesis, List.forall_mem_singleton]
        constructor
        · intro passed
          have before : sim.diffFailed = false := Bool.eq_false_iff.mpr fun failed =>
            Bool.noConfusion (passed.symm.trans (tick_failed failed ran))
          exact ⟨before, (((run.inStep threads before).tick_iff threads begun ticked).mp passed)⟩
        · rintro ⟨before, plain⟩
          exact ((run.inStep threads before).tick_iff threads begun ticked).mpr plain
    | begin run ran inductionHypothesis =>
        cases ran
        exact inductionHypothesis
    | @check ticks sim same pmem after run ran inductionHypothesis =>
        rw [← inductionHypothesis, Bool.or_eq_false_iff]
        refine and_iff_left_of_imp fun passed => ?_
        cases (run.inStep threads passed).check.symm.trans ran
        rfl
    | write run idle written inductionHypothesis => exact inductionHypothesis
  · have inStep := run.inStep threads passed
    exact ⟨inStep.same, inStep.images⟩

/-- The first cycles of one thread at an `EBREAK`. -/
theorem verdict_oneThread :
    ∃ ticks sim after, DriverRun Config.oneLane ticks true sim after ∧ sim.diffFailed = false ∧
      (∀ step ∈ ticks, PlainTick Config.oneLane step.1 step.2) ∧
      SameTop Config.oneLane sim.model sim.netlist.top := by
  obtain ⟨⟨⟨completed, sim⟩, after⟩, ran, passed⟩ : ∃ result,
      ((gpuRtlInit Config.oneLane .hardwareDiffTest >>=
          launchAndWait Config.oneLane Model.singleThread 1 2).run Model.ebreakImage =
        some result) ∧ result.1.2.diffFailed = false := by
    apply Option.map_eq_some_iff.mp
    show _ = some false
    decide +kernel
  obtain ⟨started, middle, starts, launches⟩ := LocalAction.run_bind_eq_some ran
  obtain ⟨⟨more, run⟩, _⟩ := (driverRun_gpuRtlInit starts).1.launchAndWait launches
  obtain ⟨verdict, same⟩ := run.verdict (by decide)
  exact ⟨_, sim, after, run, passed, verdict.mp passed, (same passed).1⟩

end RtlSim

end OpenGPU
