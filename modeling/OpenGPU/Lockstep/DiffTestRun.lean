import OpenGPU.Lockstep.DiffTestTick

/-!
# Runs of DiffTest on the SystemVerilog GPU

After `rtl_init` the runtime writes configuration registers, launches kernels, waits for
them and writes memory while the GPU is idle. Over any such run DiffTest reports a mismatch
exactly when one of the known differences has shown in some tick. As long as it reports
none, every register of the netlist is the one of the cycle model.
-/

namespace OpenGPU

open Verilog

/-! ## Reset -/

/-- A core after reset. -/
theorem SameCore.reset
    {cfg : Config} :
    SameCore cfg Core.fresh (GPUCore.fresh : GPUCore cfg).reset where
  state := rfl
  ctaActive := rfl
  fault := rfl
  rr := rfl
  iw := rfl
  im _ := by simp [Core.fresh, GPUCore.reset, GPUCore.fresh]
  ip := rfl
  inst := rfl
  mt := rfl
  block := rfl
  dim := rfl
  grid := rfl
  args := rfl
  pc _ _ := rfl
  mask _ _ _ := by simp [Core.fresh, GPUCore.reset, GPUCore.fresh]
  valid _ _ := rfl
  sp _ _ := rfl
  stackPc _ _ _ _ := rfl
  stackMask _ _ _ _ _ := by simp [Core.fresh, GPUCore.reset, GPUCore.fresh]
  gpr _ _ _ _ := rfl
  tx _ _ := rfl
  ty _ _ := rfl
  tz _ _ := rfl
  gid _ _ := rfl

/-- The dispatcher after reset. -/
theorem SameKmu.reset
    {numCores : Nat} :
    SameKmu DcrRegisters.fresh Walk.fresh (GPUKmu.fresh : GPUKmu numCores) :=
  ⟨rfl, rfl, rfl, rfl, rfl, rfl, rfl, rfl, rfl⟩

namespace RtlSim

variable {cfg : Config} {sim next : RtlSim (vgpuTop cfg)} {pmem after : Pmem} {current : Bool}

/-- Before the first snapshot no store is reported. -/
theorem reportedStores_of_cleared
    (cleared : sim.dpi.diffState = fun _ => 0) :
    sim.reportedStores cfg = [] := by
  rw [reportedStores, List.filterMap_eq_nil_iff]
  intro core _
  unfold takenStore
  rw [cleared]
  exact if_neg (not_not.mpr rfl)

/-- A reset edge. -/
theorem posedge_reset
    (dcr : DcrIf)
    (launch : Bool)
    (rdata : ReadData)
    {model : Model}
    (kmu : model.dcr = DcrRegisters.fresh ∧ model.walk = Walk.fresh)
    (cores : model.cores = fun _ => Core.fresh) :
    SameTop cfg model
      ((⟨GPUKmu.fresh, fun _ => GPUCore.fresh⟩ : GPUTop cfg).posedge ⟨true, dcr, launch, rdata⟩) := by
  refine ⟨?_, fun i inRange => ?_⟩
  · rw [kmu.1, kmu.2]
    exact SameKmu.reset
  · rw [cores, GPUTop.posedge_core _ _ inRange]
    exact SameCore.reset

/-- `rtl_init` leaves both sides in step. -/
theorem inStep_rtlInit
    (threads : cfg.numThreads ≤ 32)
    {model : Model}
    (started : Model.cycleDiffInit cfg = some model)
    (ran : (({ created with model := model } : RtlSim (vgpuTop cfg)).reset cfg
      .hardwareDiffTest).run pmem = some (sim, after)) :
    InStep cfg false { sim with diffFailed := sim.diffFailed || !sim.dpi.diffStateSeen } after := by
  obtain ⟨ticked, middle, whole, finished⟩ := LocalAction.run_bind_eq_some ran
  cases finished
  obtain ⟨stepped, parts⟩ := tick_ticked rfl whole
  have ticks := beforeEdge_model parts.before
  change model.tick cfg ⟨true, false, 0, 0, false⟩ = some stepped.model at ticks
  have fresh := (Model.pack_eq_some started).1
  have reachable := (Model.Reachable.init started).tick _ ticks
  obtain ⟨_, here⟩ | ⟨running, _⟩ := Model.tick_eq_some ticks
  · have top : ticked.netlist.top =
        (⟨GPUKmu.fresh, fun _ => GPUCore.fresh⟩ : GPUTop cfg).posedge
          ⟨true, ⟨false, 0, 0⟩, false, ⟨fun _ => 0, fun _ => 0⟩⟩ := parts.risen.top
    have same : SameTop cfg stepped.model ticked.netlist.top := by
      rw [top]
      exact posedge_reset _ _ _ (by rw [here]; exact ⟨rfl, rfl⟩) (by rw [here]; rfl)
    have sound : ticked.netlist.top.Sound := by
      rw [top]
      exact GPUTop.sound_reset _ rfl
    have quiet : ticked.netlist.top.gpuBusy = false := by
      rw [GPUTop.gpuBusy_eq_false_iff, ← same.kmu.running]
      refine ⟨by rw [here]; rfl, fun i inRange => ?_⟩
      rw [← (same.cores i inRange).ctaActive, here]
      rfl
    have inactive : stepped.model.active = false := by
      rw [here, fresh]
      rfl
    have recorded : stepped.actual = [] :=
      (beforeEdge_of_no_store (reportedStores_of_cleared rfl) parts.before).2
    have expected : stepped.model.expected = [] := by
      rw [here]
      rfl
    have words : ∀ word, word < Model.words cfg →
        stepped.model.packed word = ticked.dpi.diffState word := by
      apply (packed_iff threads ticks reachable.fits sound.inRange parts.risen.words).mpr
      exact ⟨same, fun i inRange waiting => absurd waiting (sound.not_waiting quiet inRange)⟩
    have passed : ticked.diffFailed = false := by
      obtain ⟨_, _, frame⟩ := beforeEdge_frame parts.before
      apply (afterEdge_iff parts.compared).mpr
      refine ⟨⟨?_, parts.risen.failed, ?_, ?_⟩, fun active => ?_⟩
      · rw [frame]
        rfl
      · show (stepped.actual.mergeSort _ == stepped.model.expected) = true
        rw [recorded, expected, List.mergeSort_nil]
        rfl
      · simpa [sameWords] using words
      · exact Bool.noConfusion (inactive.symm.trans active)
    obtain ⟨_, _, finished⟩ := afterEdge_frame parts.compared
    have model' : ticked.model = stepped.model := by rw [finished]
    exact
      { running := rfl
        narrow := by
          show (ticked.pins.dcrAddr.setWidth 12).setWidth 32 = ticked.pins.dcrAddr
          rw [tickWith_pins whole]
          rfl
        passed := by
          show (ticked.diffFailed || !ticked.dpi.diffStateSeen) = false
          rw [passed, parts.risen.seen]
          rfl
        dpiPassed := parts.risen.failed
        none := by
          show ticked.actual = []
          rw [finished]
        reachable := ⟨_, model' ▸ reachable⟩
        same := model' ▸ same
        sound
        words := model' ▸ words
        size := fun active => Bool.noConfusion (inactive.symm.trans (model' ▸ active))
        busy := fun busy => Bool.noConfusion (quiet.symm.trans busy)
        active := fun never => Bool.noConfusion never
        images := fun never => Bool.noConfusion never
        reads := fun never => Bool.noConfusion never }
  · exact Bool.noConfusion running

/-! ## Runs -/

/-- What the driver does in DiffTest, with every tick that it makes: `rtl_init`, other pins,
ticks, `cycle_diff_begin`, the comparison of all memory, and writes of the host. `current`
says that memory has not been written since `cycle_diff_begin`; only then may the driver
assert the launch pin or compare all memory. -/
inductive DriverRun (cfg : Config) :
    List (RtlSim (vgpuTop cfg) × RtlSim (vgpuTop cfg)) → Bool → RtlSim (vgpuTop cfg) → Pmem → Prop
  | rtlInit {model : Model} {sim : RtlSim (vgpuTop cfg)} {pmem after : Pmem}
      (started : Model.cycleDiffInit cfg = some model)
      (ran : (({ created with model := model } : RtlSim (vgpuTop cfg)).reset cfg
        .hardwareDiffTest).run pmem = some (sim, after)) :
      DriverRun cfg [] false
        { sim with diffFailed := sim.diffFailed || !sim.dpi.diffStateSeen } after
  | drive {ticks : List (RtlSim (vgpuTop cfg) × RtlSim (vgpuTop cfg))} {current : Bool}
      {sim : RtlSim (vgpuTop cfg)} {pmem : Pmem}
      (run : DriverRun cfg ticks current sim pmem)
      (pins : TopPins)
      (running : pins.reset = false)
      (narrow : (pins.dcrAddr.setWidth 12).setWidth 32 = pins.dcrAddr) :
      DriverRun cfg ticks current { sim with pins := pins } pmem
  | tick {ticks : List (RtlSim (vgpuTop cfg) × RtlSim (vgpuTop cfg))} {current : Bool}
      {sim next : RtlSim (vgpuTop cfg)} {pmem after : Pmem}
      (run : DriverRun cfg ticks current sim pmem)
      (begun : sim.pins.launch = true → current = true)
      (ran : (sim.tick cfg .hardwareDiffTest).run pmem = some (next, after)) :
      DriverRun cfg (ticks ++ [(sim, next)]) current next after
  | begin {ticks : List (RtlSim (vgpuTop cfg) × RtlSim (vgpuTop cfg))} {current : Bool}
      {sim next : RtlSim (vgpuTop cfg)} {pmem after : Pmem}
      (run : DriverRun cfg ticks current sim pmem)
      (ran : (sim.cycleDiffBegin cfg).run pmem = some (next, after)) :
      DriverRun cfg ticks true next after
  | check {ticks : List (RtlSim (vgpuTop cfg) × RtlSim (vgpuTop cfg))}
      {sim : RtlSim (vgpuTop cfg)} {same : Bool} {pmem after : Pmem}
      (run : DriverRun cfg ticks true sim pmem)
      (ran : (sim.cycleDiffCheckMemory cfg true).run pmem = some (same, after)) :
      DriverRun cfg ticks true { sim with diffFailed := sim.diffFailed || !same } after
  | write {ticks : List (RtlSim (vgpuTop cfg) × RtlSim (vgpuTop cfg))} {current : Bool}
      {sim : RtlSim (vgpuTop cfg)} {pmem : Pmem}
      (run : DriverRun cfg ticks current sim pmem)
      (idle : sim.netlist.top.gpuBusy = false)
      (written : Pmem) :
      DriverRun cfg ticks false sim written

namespace InStep

/-- Other pins. -/
theorem drive
    (inStep : InStep cfg current sim pmem)
    {pins : TopPins}
    (running : pins.reset = false)
    (narrow : (pins.dcrAddr.setWidth 12).setWidth 32 = pins.dcrAddr) :
    InStep cfg current { sim with pins := pins } pmem :=
  { inStep with running, narrow }

/-- `cycle_diff_begin` brings the copy up to date. -/
theorem begin
    (inStep : InStep cfg current sim pmem)
    (ran : (sim.cycleDiffBegin cfg).run pmem = some (next, after)) :
    InStep cfg true next after := by
  cases ran
  obtain ⟨ledgers, reachable⟩ := inStep.reachable
  exact
    { inStep with
      reachable := ⟨_, reachable.load pmem⟩
      same := ⟨inStep.same.kmu, inStep.same.cores⟩
      size := fun _ => rfl
      busy := fun _ => rfl
      active := fun _ => rfl
      images := fun _ _ _ => rfl
      reads := fun _ => by
        cases current with
        | true => exact inStep.reads rfl
        | false => exact inStep.sound.readsFrom_of_idle inStep.quiet _ _ }

/-- All of memory agrees with an up-to-date copy. -/
theorem check
    (inStep : InStep cfg true sim pmem) :
    (sim.cycleDiffCheckMemory cfg true).run pmem = some (true, pmem) := by
  have active := inStep.active rfl
  have whole : (window cfg).all (fun a => pmem a == sim.model.mem.bytes a) = true := by
    rw [List.all_eq_true]
    intro a member
    exact beq_iff_eq.mpr (inStep.images rfl a (mem_window.mp member))
  unfold cycleDiffCheckMemory
  rw [active, inStep.size active]
  simp only [Bool.not_true, Bool.false_eq_true, if_false, ne_eq, not_true_eq_false, if_true]
  rw [← whole]
  rfl

/-- Writes of the host put an idle GPU out of date. -/
theorem write
    (inStep : InStep cfg current sim pmem)
    (idle : sim.netlist.top.gpuBusy = false)
    (written : Pmem) :
    InStep cfg false sim written :=
  { inStep with
    busy := fun busy => Bool.noConfusion (idle.symm.trans busy)
    active := fun never => Bool.noConfusion never
    images := fun never => Bool.noConfusion never
    reads := fun never => Bool.noConfusion never }

end InStep

/-- A mismatch that has been found is never forgotten. -/
theorem tick_failed
    (failed : sim.diffFailed = true)
    (ran : (sim.tick cfg .hardwareDiffTest).run pmem = some (next, after)) :
    next.diffFailed = true := by
  obtain ⟨stepped, ticked⟩ := tick_ticked rfl ran
  obtain ⟨_, _, frame⟩ := beforeEdge_frame ticked.before
  rw [← Bool.not_eq_false, afterEdge_iff ticked.compared]
  rintro ⟨⟨passed, _⟩, _⟩
  rw [frame] at passed
  exact Bool.noConfusion (passed.symm.trans failed)

/-- As long as no mismatch has been found, both sides are in step. -/
theorem DriverRun.inStep
    (threads : cfg.numThreads ≤ 32)
    {ticks : List (RtlSim (vgpuTop cfg) × RtlSim (vgpuTop cfg))}
    (run : DriverRun cfg ticks current sim pmem)
    (passed : sim.diffFailed = false) :
    InStep cfg current sim pmem := by
  induction run with
  | rtlInit started ran => exact inStep_rtlInit threads started ran
  | drive run pins running narrow inductionHypothesis =>
      exact (inductionHypothesis passed).drive running narrow
  | @tick ticks current sim next pmem after run begun ran inductionHypothesis =>
      have before : sim.diffFailed = false := Bool.eq_false_iff.mpr fun failed =>
        Bool.noConfusion (passed.symm.trans (tick_failed failed ran))
      obtain ⟨stepped, ticked⟩ := tick_ticked rfl ran
      exact (inductionHypothesis before).tick threads begun ticked passed
  | begin run ran inductionHypothesis =>
      refine (inductionHypothesis ?_).begin ran
      cases ran
      exact passed
  | @check ticks sim same pmem after run ran inductionHypothesis =>
      have before := (Bool.or_eq_false_iff.mp passed).1
      have inStep := inductionHypothesis before
      cases inStep.check.symm.trans ran
      exact { inStep with passed }
  | write run idle written inductionHypothesis =>
      exact (inductionHypothesis passed).write idle written

end RtlSim

end OpenGPU
