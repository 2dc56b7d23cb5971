import OpenGPU.Lockstep.DiffTestCalls
import OpenGPU.Lockstep.DiffTestReturns

/-!
# DiffTest on an idle GPU

Up to the launch pulse the calls of the runtime only make ticks of an idle GPU. They return,
find no mismatch and leave memory alone.
-/

namespace OpenGPU

open Verilog

namespace RtlSim

variable {cfg : Config} {sim : RtlSim (vgpuTop cfg)} {pmem : Pmem} {current : Bool}
  {model : Model}

/-- Without a store nothing is stored outside physical memory. -/
theorem inside_of_no_stores
    (none : sim.reportedStores cfg = [])
    {i : Nat}
    (inRange : i < cfg.numCores) :
    ∀ s ∈ sim.takenStore cfg i, s.Inside cfg := by
  intro s taken
  have nothing := List.filterMap_eq_nil_iff.mp none i (List.mem_range.mpr inRange)
  cases taken.symm.trans nothing

/-- A tick of an idle GPU, which may carry a configuration write or a launch pulse. -/
theorem InStep.idle_tick
    (threads : cfg.numThreads ≤ 32)
    (inStep : InStep cfg current sim pmem)
    (quiet : sim.netlist.top.gpuBusy = false)
    (begun : sim.pins.launch = true → current = true)
    (apart : sim.pins.launch = true → sim.pins.dcrValid = false)
    (steps : sim.model.tick cfg ⟨sim.pins.reset, sim.pins.dcrValid, sim.pins.dcrAddr,
      sim.pins.dcrData, sim.pins.launch⟩ = some model) :
    ∃ next, (sim.tick cfg .hardwareDiffTest).run pmem = some (next, pmem) ∧
      InStep cfg current next pmem ∧ next.model = model ∧ next.pins = sim.pins := by
  have none := inStep.no_stores quiet
  have nothing : sim.lowered.reportedStores cfg = [] := none
  have core : ∀ {i}, i < cfg.numCores → (sim.netlist.top.posedge
      (sim.netlist.inputs sim.pins)).cores i = sim.netlist.top.cores i := by
    intro i inRange
    unfold Netlist.inputs
    rw [inStep.running]
    exact GPUTop.posedge_core_of_idle quiet _ _ _ inRange
  obtain ⟨next, after, ran⟩ : (sim.tick cfg .hardwareDiffTest).Returns pmem := by
    refine returns_tick rfl (fun i inRange => inside_of_no_stores none inRange)
      (by rw [steps]; rfl) (fun i inRange fetches => ?_) pmem
    · rw [core inRange, inStep.sound.state_of_idle quiet inRange] at fetches
      exact Fsm.noConfusion fetches
  obtain ⟨stepped, ticked⟩ := tick_ticked rfl ran
  obtain rfl : after = pmem := (beforeEdge_of_no_store nothing ticked.before).1
  have plain : PlainTick cfg sim next := by
    refine ⟨?_, fun i inRange exec => ?_, ?_, fun i inRange waiting => ?_⟩
    · unfold Model.WriteUnobserved
      split_ifs with launch
      · simp [dcrPins, apart launch, DcrRegisters.after]
      · intro fires
        have stopped := (GPUTop.gpuBusy_eq_false_iff.mp quiet).1
        rw [Model.firing_eq_none (inStep.same.kmu.running.trans stopped)] at fires
        exact Bool.noConfusion fires
    · rw [inStep.sound.state_of_idle quiet inRange] at exec
      exact Fsm.noConfusion exec
    · rw [none]
      simp [Store.LastIsGreatest]
    · rw [ticked.risen.top] at waiting
      have idle := core inRange
      change (sim.lowered.netlist.top.posedge (sim.lowered.netlist.inputs sim.pins)).cores i = _
        at idle
      rw [idle] at waiting
      exact absurd waiting (inStep.sound.not_waiting quiet inRange)
  have passed := (inStep.tick_iff threads begun ticked).mpr plain
  exact ⟨next, ran, inStep.tick threads begun ticked passed,
    Option.some.inj ((tick_model rfl ran).symm.trans steps), tick_pins ran⟩

/-- `gpu_model_init`. -/
theorem exists_gpuRtlInit
    (threads : cfg.numThreads ≤ 32)
    (inited : Model.gpuModelInit cfg = some model)
    (pmem : Pmem) :
    ∃ sim, (gpuRtlInit cfg .hardwareDiffTest : PmemAction (RtlSim (vgpuTop cfg))).run pmem =
        some (sim, pmem) ∧
      InStep cfg false sim pmem ∧ sim.PinsAtRest ∧ sim.model = model := by
  obtain ⟨powered, started, ticks⟩ := Option.bind_eq_some_iff.mp inited
  obtain ⟨cleared, resets, steps⟩ := Option.bind_eq_some_iff.mp ticks
  -- the reset
  have nothing : ({ created with
      model := powered
      pins := ⟨true, false, 0, 0, false⟩ } : RtlSim (vgpuTop cfg)).reportedStores cfg = [] :=
    reportedStores_of_cleared rfl
  obtain ⟨ticked, after, whole⟩ : (({ created with model := powered } :
      RtlSim (vgpuTop cfg)).tickWith cfg .hardwareDiffTest ⟨true, false, 0, 0, false⟩).Returns
        pmem := by
    apply returns_tick rfl
    · exact fun i inRange => inside_of_no_stores nothing inRange
    · exact congrArg Option.isSome resets
    · intro i inRange fetches
      rw [GPUTop.posedge_core _ _ inRange] at fetches
      exact Fsm.noConfusion fetches
  obtain ⟨stepped, parts⟩ := tick_ticked rfl whole
  obtain rfl : after = pmem := (beforeEdge_of_no_store nothing parts.before).1
  have pins := tickWith_pins whole
  have first : ticked.model = cleared := Option.some.inj ((tick_model rfl whole).symm.trans resets)
  have reset : (({ created with model := powered } : RtlSim (vgpuTop cfg)).reset cfg
      .hardwareDiffTest).run after =
        some ({ ticked with pins := { ticked.pins with reset := false } }, after) := by
    unfold RtlSim.reset
    rw [LocalAction.run_bind]
    exact congrArg (Option.bind · _) whole
  -- the tick of `gpu_rtl_init`
  have inStep := inStep_rtlInit threads started reset
  have quiet := inStep.quiet
  obtain ⟨next, ran, inStep, model, kept⟩ := inStep.idle_tick threads quiet
    (fun launch => by
      dsimp only at launch
      rw [pins] at launch
      exact Bool.noConfusion launch)
    (fun _ => by
      dsimp only
      rw [pins])
    (by
      dsimp only
      rw [pins, first]
      exact steps)
  refine ⟨next, ?_, inStep, ?_, model⟩
  · unfold gpuRtlInit
    rw [if_pos (show Build.hardwareDiffTest.diffTest = true from rfl), LocalAction.run_bind,
      LocalAction.run_ofOption, started, Option.map_some, Option.bind_some, LocalAction.run_bind,
      reset, Option.bind_some]
    exact ran
  · dsimp only at kept
    rw [pins] at kept
    constructor <;> rw [kept]
    rfl

/-- `gpu_rtl_dcr_write`, for an address that the pins can carry. -/
theorem InStep.exists_gpuRtlDcrWrite
    (threads : cfg.numThreads ≤ 32)
    (inStep : InStep cfg false sim pmem)
    (pins : sim.PinsAtRest)
    {addr data : Word}
    (narrow : (addr.setWidth 12).setWidth 32 = addr)
    (steps : sim.model.tick cfg (.dcrWrite addr data) = some model) :
    ∃ next, (sim.gpuRtlDcrWrite cfg .hardwareDiffTest addr data).run pmem = some (next, pmem) ∧
      InStep cfg false next pmem ∧ next.PinsAtRest ∧ next.model = model := by
  have driven : InStep cfg false
      { sim with pins := { sim.pins with dcrAddr := addr, dcrData := data, dcrValid := true } }
      pmem := inStep.drive pins.running narrow
  have noLaunch : sim.pins.launch ≠ true := by
    rw [pins.noLaunch]
    exact Bool.false_ne_true
  obtain ⟨next, ran, inStep, model, kept⟩ := driven.idle_tick threads inStep.quiet
    (fun launch => absurd launch noLaunch) (fun launch => absurd launch noLaunch)
    (by
      dsimp only
      rw [pins.running, pins.noLaunch]
      exact steps)
  have running : next.pins.reset = false := (congrArg TopPins.reset kept).trans pins.running
  have inWidth : (next.pins.dcrAddr.setWidth 12).setWidth 32 = next.pins.dcrAddr := by
    rw [kept]
    exact narrow
  refine ⟨{ next with pins := { next.pins with dcrValid := false } }, ?_,
    inStep.drive running inWidth, ⟨running, rfl, ?_, inWidth⟩, model⟩
  · unfold RtlSim.gpuRtlDcrWrite
    rw [LocalAction.run_bind]
    exact congrArg (Option.bind · _) ran
  · exact (congrArg TopPins.launch kept).trans pins.noLaunch

/-- `configure_model`. -/
theorem InStep.exists_configure
    (threads : cfg.numThreads ≤ 32)
    {writes : List (Word × Word)}
    (narrow : ∀ write ∈ writes, (write.1.setWidth 12).setWidth 32 = write.1)
    (inStep : InStep cfg false sim pmem)
    (pins : sim.PinsAtRest)
    (configured : sim.model.configureModel cfg writes = some model) :
    ∃ next, (writes.foldlM (fun (sim : RtlSim (vgpuTop cfg)) write =>
        sim.gpuRtlDcrWrite cfg .hardwareDiffTest write.1 write.2) sim).run pmem =
          some (next, pmem) ∧
      InStep cfg false next pmem ∧ next.PinsAtRest ∧ next.model = model := by
  induction writes generalizing sim with
  | nil => exact ⟨sim, rfl, inStep, pins, Option.some.inj configured⟩
  | cons write writes inductionHypothesis =>
      obtain ⟨between, steps, rest⟩ := Option.bind_eq_some_iff.mp configured
      obtain ⟨written, wrote, inStep, pins, model⟩ := inStep.exists_gpuRtlDcrWrite threads pins
        (narrow write List.mem_cons_self) steps
      obtain ⟨next, ran, last⟩ := inductionHypothesis
        (fun other member => narrow other (List.mem_cons_of_mem _ member)) inStep pins
        (by rw [model]; exact rest)
      refine ⟨next, ?_, last⟩
      rw [List.foldlM_cons, LocalAction.run_bind, wrote]
      exact ran

/-- `gpu_rtl_launch` brings the copy up to date and pulses the launch pin; what is left is a
tick with the pins at rest. -/
theorem InStep.exists_pulse
    (threads : cfg.numThreads ≤ 32)
    (inStep : InStep cfg false sim pmem)
    (pins : sim.PinsAtRest)
    (steps : (Model.cycleDiffBegin cfg pmem sim.model).tick cfg
      ⟨false, false, sim.pins.dcrAddr, sim.pins.dcrData, true⟩ = some model) :
    ∃ next, (sim.gpuRtlLaunch cfg .hardwareDiffTest).run pmem =
        (next.tick cfg .hardwareDiffTest).run pmem ∧
      InStep cfg true next pmem ∧ next.PinsAtRest ∧ next.model = model := by
  have begun : InStep cfg true
      { sim with model := Model.cycleDiffBegin cfg pmem sim.model } pmem := inStep.begin rfl
  have driven : InStep cfg true
      { sim with
        model := Model.cycleDiffBegin cfg pmem sim.model
        pins := { sim.pins with launch := true } } pmem := begun.drive pins.running pins.narrow
  obtain ⟨pulsed, ran, inStep, model, kept⟩ := driven.idle_tick threads inStep.quiet
    (fun _ => rfl) (fun _ => pins.noWrite)
    (by
      dsimp only
      rw [pins.running, pins.noWrite]
      exact steps)
  have running : pulsed.pins.reset = false := (congrArg TopPins.reset kept).trans pins.running
  have inWidth : (pulsed.pins.dcrAddr.setWidth 12).setWidth 32 = pulsed.pins.dcrAddr := by
    rw [kept]
    exact pins.narrow
  refine ⟨{ pulsed with pins := { pulsed.pins with launch := false } }, ?_,
    inStep.drive running inWidth, ⟨running, ?_, rfl, inWidth⟩, model⟩
  · unfold RtlSim.gpuRtlLaunch
    rw [if_pos (show Build.hardwareDiffTest.diffTest = true from rfl), LocalAction.run_bind]
    show ((RtlSim.tickWith cfg .hardwareDiffTest { sim.pins with launch := true }
      { sim with model := Model.cycleDiffBegin cfg pmem sim.model }) >>= _).run pmem = _
    rw [LocalAction.run_bind]
    exact congrArg (Option.bind · _) ran
  · exact (congrArg TopPins.dcrValid kept).trans pins.noWrite

end RtlSim

end OpenGPU
