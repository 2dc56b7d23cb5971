import OpenGPU.Dispatch.Completion
import OpenGPU.Verilog.Driver

/-!
# Which launch a fault is reported to

The fault register of a core is cleared only when the core takes a block. After
a faulted launch the registers of cores that the next launch reaches late, or
not at all, are still set when `gpu_rtl_wait` first looks, and the launch is
reported as faulted. The exact condition under which this does not happen is
about the registers that are set, the round-robin register and the number of
blocks.
-/

namespace OpenGPU

namespace Verilog

namespace GPUTop

open GPUKmu

variable {cfg : Config}

/-- Some core is about to execute a faulting instruction. -/
def executesFault (top : GPUTop cfg) : Bool :=
  (List.range cfg.numCores).any fun core => (top.cores core).executesFault core

/-- The number of blocks that a launch in this configuration dispatches. -/
def launchCtas (top : GPUTop cfg) : Nat :=
  if top.kmu.blockSize = 0 then 0 else top.kmu.gridDim.count

theorem gpuFault_eq_false_iff
    {top : GPUTop cfg} :
    top.gpuFault = false ↔
      ∀ core, core < cfg.numCores → (top.cores core).faultR = false := by
  simp [gpuFault]

theorem executesFault_eq_false_iff
    {top : GPUTop cfg} :
    top.executesFault = false ↔
      ∀ core, core < cfg.numCores → (top.cores core).executesFault core = false := by
  simp [executesFault]

/-- A fault register is set by a faulting instruction and cleared by taking a
block. -/
theorem faultR_edge
    (top : GPUTop cfg)
    (rdata : ReadData)
    {core : Nat}
    (inRange : core < cfg.numCores) :
    ((top.edge rdata).cores core).faultR =
      ((top.cores core).executesFault core ||
        ((top.cores core).faultR && !top.accepts core)) := by
  have after := congrArg GPUCore.Outside.faultR (outside_edge top rdata inRange)
  rw [show ((top.edge rdata).cores core).faultR = _ from after]
  by_cases taken : top.accepts core = true
  · have idle := (accepting_edge rdata taken).1
    simp [taken, GPUCore.executesFault, idle]
  · by_cases faults : (top.cores core).executesFault core = true
    · simp [taken, faults]
    · by_cases retires : (top.cores core).retiresBlock = true <;>
        simp [taken, faults, retires, GPUCore.outside]

/-- With no fault register set, the fault output shows exactly the faulting
instructions of the edge. -/
theorem gpuFault_edge
    {top : GPUTop cfg}
    (rdata : ReadData)
    (clear : top.gpuFault = false) :
    (top.edge rdata).gpuFault = top.executesFault := by
  rw [Bool.eq_iff_iff]
  simp only [gpuFault, executesFault, List.any_eq_true, List.mem_range]
  have registers := gpuFault_eq_false_iff.mp clear
  constructor
  · rintro ⟨core, inRange, raised⟩
    rw [faultR_edge top rdata inRange, registers core inRange, Bool.false_and,
      Bool.or_false] at raised
    exact ⟨core, inRange, raised⟩
  · rintro ⟨core, inRange, faults⟩
    exact ⟨core, inRange, by rw [faultR_edge top rdata inRange, faults, Bool.true_or]⟩

/-- A core without a block executes nothing. -/
theorem executesFault_of_inactive
    {top : GPUTop cfg}
    (inactive : ∀ core, core < cfg.numCores → (top.cores core).ctaActive = false) :
    top.executesFault = false := by
  rw [executesFault_eq_false_iff]
  intro core inRange
  simp [GPUCore.executesFault, inactive core inRange]

/-! ## The first edges of a launch -/

/-- A launch with blocks to dispatch has a positive grid and block size. -/
theorem positive_of_launchCtas
    {top : GPUTop cfg}
    (some : 0 < top.launchCtas) :
    top.kmu.gridDim.Positive ∧ top.kmu.enabled = true ∧
      top.launchCtas = top.kmu.gridDim.count := by
  unfold launchCtas at some ⊢
  split_ifs at some ⊢ with noThreads
  · exact absurd some (Nat.lt_irrefl 0)
  · exact ⟨Dim3.positive_of_count_pos some, bne_iff_ne.mpr noThreads, rfl⟩

/-- The pulse starts the dispatcher exactly when there is a block to
dispatch. -/
theorem launch_running
    (top : GPUTop cfg)
    (rdata : ReadData) :
    (top.launch rdata).kmu.running = decide (0 < top.launchCtas) := by
  show (top.kmu.launch top.coreReady).running = _
  by_cases some : 0 < top.launchCtas
  · obtain ⟨positive, enabled, _⟩ := positive_of_launchCtas some
    rw [launch_eq positive, decide_eq_true some]
    exact enabled
  · rw [decide_eq_false some, Bool.eq_false_iff]
    intro runs
    have conditions : ((top.kmu.blockSize ≠ 0 ∧ top.kmu.gridDim.x ≠ 0) ∧
        top.kmu.gridDim.y ≠ 0) ∧ top.kmu.gridDim.z ≠ 0 := by
      have runs : (top.kmu.blockSize != 0 && top.kmu.gridDim.x != 0 &&
          top.kmu.gridDim.y != 0 && top.kmu.gridDim.z != 0) = true := runs
      rwa [Bool.and_eq_true, Bool.and_eq_true, Bool.and_eq_true, bne_iff_ne, bne_iff_ne,
        bne_iff_ne, bne_iff_ne] at runs
    obtain ⟨⟨⟨blockSize, x⟩, y⟩, z⟩ := conditions
    have positive : top.kmu.gridDim.Positive := ⟨x, y, z⟩
    rw [launchCtas, if_neg blockSize] at some
    exact some positive.count_pos

/-- An idle, settled GPU right after the launch pulse: every core is ready. -/
structure Pulsed (top pulsed : GPUTop cfg) : Prop where
  settled : pulsed.Settled
  kmu : pulsed.kmu = top.kmu.launch top.coreReady
  cores : ∀ core, core < cfg.numCores → (pulsed.cores core).outside = (top.cores core).outside
  ready : ∀ core, core < cfg.numCores → pulsed.coreReady core = true
  running : pulsed.kmu.running = decide (0 < top.launchCtas)
  rrCore : pulsed.kmu.rrCore = top.kmu.rrCore
  inRange : top.kmu.rrCore.toNat < cfg.numCores

theorem pulsed_launch
    {top : GPUTop cfg}
    (settled : top.Settled)
    (idle : top.gpuBusy = false)
    (rdata : ReadData) :
    Pulsed top (top.launch rdata) where
  settled := settled.posedge _
  kmu := rfl
  cores core inRange := launch_idle rdata idle inRange
  ready core inRange := by
    have after : (top.launch rdata).Settled := settled.posedge _
    rw [coreReady, (after.cores core inRange).ctaReady]
    have kept := congrArg GPUCore.Outside.ctaActive (launch_idle rdata idle inRange)
    rw [show ((top.launch rdata).cores core).ctaActive = _ from kept]
    simp [GPUCore.outside, (gpuBusy_eq_false_iff.mp idle).2 core inRange]
  running := launch_running top rdata
  rrCore := rfl
  inRange := settled.rrCore

/-- A ready core holds no block. -/
theorem Pulsed.inactive
    {top pulsed : GPUTop cfg}
    (shape : Pulsed top pulsed)
    {core : Nat}
    (inRange : core < cfg.numCores) :
    (pulsed.cores core).ctaActive = false := by
  have ready := shape.ready core inRange
  rw [coreReady, GPUCore.ctaReady, Bool.and_eq_true, Bool.not_eq_true'] at ready
  exact ready.1

/-- The core that the round-robin register names takes the first block. -/
theorem Pulsed.accepts_iff
    {top pulsed : GPUTop cfg}
    (shape : Pulsed top pulsed)
    {core : Nat} :
    pulsed.accepts core = true ↔ 0 < top.launchCtas ∧ core = top.kmu.rrCore.toNat := by
  have first : pulsed.kmu.firstReady pulsed.coreReady = some top.kmu.rrCore.toNat := by
    rw [firstReady, shape.rrCore]
    exact circularFirst_start shape.inRange (shape.ready _ shape.inRange)
  rw [GPUTop.accepts_iff, first, shape.running, decide_eq_true_eq, Option.some_inj,
    eq_comm (a := core)]

/-- Taking a block leaves the core in `SCHED`. -/
theorem state_of_accepts
    {top : GPUTop cfg}
    (rdata : ReadData)
    {core : Nat}
    (taken : top.accepts core = true) :
    ((top.edge rdata).cores core).state = .sched := by
  unfold accepts at taken
  rw [edge, posedge_core top _ (lt_of_accepts taken)]
  unfold GPUCore.posedge
  rw [if_neg (show ¬(TopInputs.idle rdata).reset = true from Bool.false_ne_true),
    if_pos taken]
  rfl

/-- The dispatcher after the first tick: running while a second block is
left. -/
theorem Pulsed.running_edge
    {top pulsed : GPUTop cfg}
    (shape : Pulsed top pulsed)
    (rdata : ReadData) :
    (pulsed.edge rdata).kmu.running = decide (1 < top.launchCtas) := by
  show (pulsed.kmu.dispatch pulsed.coreReady).running = _
  by_cases some : 0 < top.launchCtas
  · obtain ⟨positive, enabled, count⟩ := positive_of_launchCtas some
    have walking : Walking top.kmu.gridDim true [] pulsed.kmu := by
      rw [shape.kmu, launch_eq positive, enabled]
      exact ⟨rfl, Dim3.Walked.launch positive true⟩
    have walked := (walking.dispatch pulsed.coreReady).walked
    have fires : pulsed.kmu.ctaFire pulsed.coreReady = true :=
      ctaFire_iff.mpr ⟨_, shape.accepts_iff.mpr ⟨some, rfl⟩⟩
    rw [Bool.eq_iff_iff, walked.running_iff, decide_eq_true_eq, count, firedBlock,
      if_pos fires]
    simp
  · have stopped : pulsed.kmu.running = false := by
      rw [shape.running, decide_eq_false some]
    rw [decide_eq_false (by omega)]
    rcases dispatch_cases pulsed.kmu pulsed.coreReady with ⟨running, _⟩ | ⟨_, kept⟩
    · rw [running] at stopped
      exact Bool.noConfusion stopped
    · rw [kept, stopped]

/-- After the first tick a core holds a block exactly when it took the first
one. -/
theorem Pulsed.active_edge
    {top pulsed : GPUTop cfg}
    (shape : Pulsed top pulsed)
    (rdata : ReadData)
    {core : Nat}
    (inRange : core < cfg.numCores) :
    ((pulsed.edge rdata).cores core).ctaActive = pulsed.accepts core := by
  cases taken : pulsed.accepts core with
  | true => exact (accepting_edge rdata taken).2.1
  | false =>
      have kept := inactive_edge rdata inRange (shape.inactive inRange) taken
      exact (congrArg GPUCore.Outside.ctaActive kept).trans (shape.inactive inRange)

/-- No instruction executes in the first three edges. -/
theorem Pulsed.executesFault_edge
    {top pulsed : GPUTop cfg}
    (shape : Pulsed top pulsed)
    (rdata : ReadData) :
    (pulsed.edge rdata).executesFault = false := by
  rw [executesFault_eq_false_iff]
  intro core inRange
  cases taken : pulsed.accepts core with
  | true => simp [GPUCore.executesFault, state_of_accepts rdata taken]
  | false => simp [GPUCore.executesFault, shape.active_edge rdata inRange, taken]

/-- The second block goes to the next core, if that is another one. -/
theorem Pulsed.accepts_edge_iff
    {top pulsed : GPUTop cfg}
    (shape : Pulsed top pulsed)
    (rdata : ReadData)
    {core : Nat} :
    (pulsed.edge rdata).accepts core = true ↔
      1 < top.launchCtas ∧ core = (top.kmu.rrCore.toNat + 1) % cfg.numCores ∧
        core ≠ top.kmu.rrCore.toNat := by
  rw [GPUTop.accepts_iff, shape.running_edge rdata, decide_eq_true_eq]
  have rrInRange := shape.inRange
  by_cases many : 1 < top.launchCtas
  · have firstFires := shape.accepts_iff.mpr ⟨by omega, rfl⟩
    have moved : (pulsed.edge rdata).kmu.rrCore.toNat =
        (top.kmu.rrCore.toNat + 1) % cfg.numCores := by
      have fires := ctaFire_iff.mpr ⟨_, firstFires⟩
      rcases dispatch_cases pulsed.kmu pulsed.coreReady with ⟨_, _, result⟩ | ⟨quiet, _⟩
      · show (pulsed.kmu.dispatch pulsed.coreReady).rrCore.toNat = _
        rw [result]
        exact toNat_rrCoreNext (GPUTop.accepts_iff.mp firstFires).2
      · rw [fires] at quiet
        exact Bool.noConfusion quiet
    have ready : ∀ other, other < cfg.numCores →
        ((pulsed.edge rdata).coreReady other = true ↔ other ≠ top.kmu.rrCore.toNat) := by
      intro other inRange
      have after : (pulsed.edge rdata).Settled := shape.settled.posedge _
      rw [coreReady, (after.cores other inRange).ctaReady, shape.active_edge rdata inRange,
        Bool.not_eq_true', ← Bool.not_eq_true, shape.accepts_iff]
      exact not_congr ⟨And.right, fun same => ⟨by omega, same⟩⟩
    have nextInRange : (top.kmu.rrCore.toNat + 1) % cfg.numCores < cfg.numCores :=
      Nat.mod_lt _ (by omega)
    rw [firstReady, moved]
    by_cases alone : (top.kmu.rrCore.toNat + 1) % cfg.numCores = top.kmu.rrCore.toNat
    · -- A single core: nobody is ready for the second block.
      have single : cfg.numCores = 1 := by
        by_contra several
        by_cases wraps : top.kmu.rrCore.toNat + 1 = cfg.numCores
        · rw [wraps, Nat.mod_self] at alone
          omega
        · rw [Nat.mod_eq_of_lt (by omega)] at alone
          omega
      have nobody : circularFirst cfg.numCores
          ((top.kmu.rrCore.toNat + 1) % cfg.numCores) (pulsed.edge rdata).coreReady = none := by
        rw [circularFirst_eq_none_iff]
        intro other inRange
        rw [← Bool.not_eq_true, ready other inRange]
        omega
      rw [nobody]
      simp only [reduceCtorEq, and_false, false_iff, not_and, not_not]
      intro _ same
      rw [same, alone]
    · rw [circularFirst_start nextInRange ((ready _ nextInRange).mpr alone), Option.some_inj]
      constructor
      · rintro ⟨_, same⟩
        exact ⟨many, same.symm, same ▸ alone⟩
      · rintro ⟨_, same, _⟩
        exact ⟨many, same.symm⟩
  · constructor
    · exact fun runs => absurd runs.1 many
    · exact fun runs => absurd runs.1 many

end GPUTop

namespace Rtl

open GPUTop

variable {cfg : Config}

/-- `gpu_rtl_wait` reads a raised fault output after some tick of a launch. -/
def faultRaised (env : Nat → ReadData) (maxCycles : Nat) (rtl : Rtl cfg) : Bool :=
  ((rtl.gpuRtlLaunch env).waitTicks env maxCycles).any fun before =>
    (before.idleTick env).top.gpuFault

/-- A block executes a faulting instruction on some tick of a launch or of the
wait for it. -/
def ctaFaulted (env : Nat → ReadData) (maxCycles : Nat) (rtl : Rtl cfg) : Bool :=
  (rtl.launchTicks env ++ (rtl.gpuRtlLaunch env).waitTicks env maxCycles).any fun before =>
    before.top.executesFault

/-- The fault output is raised during a launch exactly when one of its blocks
executes a faulting instruction. -/
def FaultAttributed (env : Nat → ReadData) (maxCycles : Nat) (rtl : Rtl cfg) : Prop :=
  rtl.faultRaised env maxCycles = true ↔ rtl.ctaFaulted env maxCycles = true

/-- Nothing is read, or every fault register that is still set belongs to a core
that takes one of the first two blocks: the one the round-robin register names,
or the one after it. -/
def StaleFaultsReplaced (maxCycles : Nat) (top : GPUTop cfg) : Prop :=
  maxCycles = 0 ∨
    ∀ core, core < cfg.numCores → (top.cores core).faultR = true →
      (core = top.kmu.rrCore.toNat ∧ 0 < top.launchCtas) ∨
        (core = (top.kmu.rrCore.toNat + 1) % cfg.numCores ∧ 1 < top.launchCtas)

/-- Once no fault register is set, what `gpu_rtl_wait` reads is what the blocks
do. -/
theorem waitTicks_fault
    (env : Nat → ReadData)
    (maxCycles : Nat)
    {rtl : Rtl cfg}
    (clear : rtl.top.gpuFault = false) :
    ((rtl.waitTicks env maxCycles).any fun before => (before.idleTick env).top.gpuFault) =
      (rtl.waitTicks env maxCycles).any fun before => before.top.executesFault := by
  induction maxCycles generalizing rtl with
  | zero => rfl
  | succ maxCycles inductionHypothesis =>
      have read : (rtl.idleTick env).top.gpuFault = rtl.top.executesFault :=
        gpuFault_edge _ clear
      simp only [waitTicks, List.any_cons, read]
      cases faults : rtl.top.executesFault with
      | true => rfl
      | false =>
          cases busy : (rtl.idleTick env).top.gpuBusy with
          | false => rfl
          | true =>
              simp only [Bool.false_or, Bool.not_true, Bool.false_eq_true, if_false]
              exact inductionHypothesis (read.trans faults)

/-- What the first tick of `gpu_rtl_wait` reads: the registers that neither of
the first two blocks has cleared. -/
theorem first_read_clear_iff
    {env : Nat → ReadData}
    {rtl : Rtl cfg}
    (settled : rtl.top.Settled)
    (idle : rtl.top.gpuBusy = false)
    (maxCycles : Nat) :
    ((rtl.gpuRtlLaunch env).idleTick env).top.gpuFault = false ↔
      StaleFaultsReplaced (maxCycles + 1) rtl.top := by
  have shape : Pulsed rtl.top (rtl.pulseTick env).top := pulsed_launch settled idle _
  rw [gpuFault_eq_false_iff, StaleFaultsReplaced]
  simp only [Nat.add_one_ne_zero, false_or]
  refine forall_congr' fun core => forall_congr' fun inRange => ?_
  have quiet : ((rtl.gpuRtlLaunch env).top.cores core).executesFault core = false :=
    executesFault_eq_false_iff.mp (shape.executesFault_edge _) core inRange
  have stale : ((rtl.gpuRtlLaunch env).top.cores core).faultR =
      ((rtl.top.cores core).faultR && !(rtl.pulseTick env).top.accepts core) := by
    have kept : ((rtl.pulseTick env).top.cores core).faultR = (rtl.top.cores core).faultR :=
      congrArg GPUCore.Outside.faultR (shape.cores core inRange)
    have still : ((rtl.pulseTick env).top.cores core).executesFault core = false := by
      simp [GPUCore.executesFault, shape.inactive inRange]
    exact (faultR_edge _ _ inRange).trans (by rw [still, kept, Bool.false_or])
  have read : (((rtl.gpuRtlLaunch env).idleTick env).top.cores core).faultR =
      ((rtl.top.cores core).faultR && !(rtl.pulseTick env).top.accepts core &&
        !(rtl.gpuRtlLaunch env).top.accepts core) :=
    (faultR_edge _ _ inRange).trans (by rw [stale, quiet, Bool.false_or])
  have second : (rtl.gpuRtlLaunch env).top.accepts core = true ↔ _ :=
    shape.accepts_edge_iff (env (rtl.pulseTick env).cycles)
  rw [read]
  cases faulted : (rtl.top.cores core).faultR with
  | false => simp
  | true =>
      simp only [Bool.true_and, Bool.and_eq_false_iff, Bool.not_eq_false', true_implies,
        shape.accepts_iff, second]
      constructor
      · rintro (⟨some, first⟩ | ⟨many, next, _⟩)
        · exact Or.inl ⟨first, some⟩
        · exact Or.inr ⟨next, many⟩
      · rintro (⟨first, some⟩ | ⟨next, many⟩)
        · exact Or.inl ⟨some, first⟩
        · by_cases first : core = rtl.top.kmu.rrCore.toNat
          · exact Or.inl ⟨by omega, first⟩
          · exact Or.inr ⟨many, next, first⟩

/-- For a launch on a GPU that no earlier launch keeps busy, the fault output is
raised exactly when one of its own blocks faults if and only if every stale fault
register is one that its first two blocks clear. -/
theorem faultAttributed_iff
    {env : Nat → ReadData}
    {rtl : Rtl cfg}
    (used : Used env rtl)
    (idle : rtl.top.gpuBusy = false)
    (maxCycles : Nat) :
    FaultAttributed env maxCycles rtl ↔ StaleFaultsReplaced maxCycles rtl.top := by
  have settled := used.settled
  have shape : Pulsed rtl.top (rtl.pulseTick env).top := pulsed_launch settled idle _
  have before : rtl.top.executesFault = false :=
    executesFault_of_inactive (gpuBusy_eq_false_iff.mp idle).2
  have atPulse : (rtl.pulseTick env).top.executesFault = false :=
    executesFault_of_inactive fun _ inRange => shape.inactive inRange
  have atFirst : (rtl.gpuRtlLaunch env).top.executesFault = false :=
    shape.executesFault_edge _
  cases maxCycles with
  | zero =>
      simp [FaultAttributed, faultRaised, ctaFaulted, StaleFaultsReplaced, launchTicks,
        waitTicks, before, atPulse]
  | succ maxCycles =>
      rw [← first_read_clear_iff settled idle maxCycles]
      simp only [FaultAttributed, faultRaised, ctaFaulted, launchTicks, waitTicks,
        List.any_append, List.any_cons, List.any_nil, before, atPulse, atFirst,
        Bool.false_or]
      cases read : ((rtl.gpuRtlLaunch env).idleTick env).top.gpuFault with
      | true => simp
      | false =>
          cases busy : ((rtl.gpuRtlLaunch env).idleTick env).top.gpuBusy with
          | false => simp
          | true =>
              simp only [Bool.false_or, Bool.not_true, Bool.false_eq_true, if_false]
              rw [waitTicks_fault env maxCycles read]
              simp

/-- The instruction memory holds an illegal word for the first launch and
`EBREAK` from cycle seven on. -/
def illegalThenEbreak (cycle : Nat) : ReadData :=
  ⟨fun _ => if cycle < 7 then 0xffffffff else Decode.ebreak, fun _ => 0⟩

/-- The first launch after reset is attributed correctly: its only block
faults. -/
theorem faultAttributed_twoCores :
    FaultAttributed illegalThenEbreak 10
      ((powerOn Config.twoCores).gpuRtlInit illegalThenEbreak) := by
  apply (faultAttributed_iff (Used.init _) (by decide +kernel) 10).mpr
  exact Or.inr (by decide +kernel)

/-- Two cores after that launch. -/
def afterIllegalLaunch : Rtl Config.twoCores :=
  ((((powerOn Config.twoCores).gpuRtlInit illegalThenEbreak).gpuRtlLaunch
    illegalThenEbreak).gpuRtlWait illegalThenEbreak 10).2

/-- A second launch of one block goes to the other core. The fault register of
the first core is still set, and the launch is reported as faulted although its
block only runs `EBREAK`. -/
theorem not_faultAttributed_afterIllegalLaunch :
    Used illegalThenEbreak afterIllegalLaunch ∧
      afterIllegalLaunch.top.gpuBusy = false ∧
      afterIllegalLaunch.faultRaised illegalThenEbreak 10 = true ∧
      afterIllegalLaunch.ctaFaulted illegalThenEbreak 10 = false ∧
      ¬FaultAttributed illegalThenEbreak 10 afterIllegalLaunch := by
  have raised : afterIllegalLaunch.faultRaised illegalThenEbreak 10 = true := by
    decide +kernel
  have clean : afterIllegalLaunch.ctaFaulted illegalThenEbreak 10 = false := by
    decide +kernel
  refine ⟨Used.wait 10 (Used.launch (Used.init _)), by decide +kernel, raised, clean, ?_⟩
  intro attributed
  have faulted := attributed.mp raised
  rw [clean] at faulted
  exact Bool.noConfusion faulted

end Rtl

end Verilog

end OpenGPU
