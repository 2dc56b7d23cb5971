import OpenGPU.Dispatch.Walk
import OpenGPU.Verilog.Top

/-!
# Dispatch and completion of a launch

A launch pulse on an idle GPU, followed by edges that assert nothing. Whatever
the memories answer, every edge hands at most one block to one idle core, the
busy output stays high until the walk has ended and every core has let go of its
block, and each block is latched by exactly one core.
-/

namespace OpenGPU

namespace Verilog

namespace GPUTop

open GPUKmu

variable {cfg : Config}

/-- The launch edge. -/
def launch (top : GPUTop cfg) (rdata : ReadData) : GPUTop cfg :=
  top.posedge (TopInputs.launchPulse rdata)

/-- The blocks that cores hold after an edge that they took on it. -/
def latchedBlocks (top : GPUTop cfg) (rdata : ReadData) : List Dim3 :=
  ((List.range cfg.numCores).filter top.accepts).map fun core =>
    ((top.edge rdata).cores core).block

/-- A core takes a block exactly when the dispatcher runs and finds it first. -/
theorem accepts_iff
    {top : GPUTop cfg}
    {core : Nat} :
    top.accepts core = true ↔
      top.kmu.running = true ∧ top.kmu.firstReady top.coreReady = some core := by
  rw [accepts, Bool.and_eq_true, ctaValid_iff]
  constructor
  · exact And.left
  · intro chosen
    exact ⟨chosen, circularFirst_ready chosen.2⟩

/-- The dispatcher fires exactly when some core takes a block. -/
theorem ctaFire_iff
    {top : GPUTop cfg} :
    top.kmu.ctaFire top.coreReady = true ↔ ∃ core, top.accepts core = true := by
  simp only [accepts_iff, ctaFire_eq, Bool.and_eq_true, Option.isSome_iff_exists,
    exists_and_left]

/-- A core that takes a block is one of the cores. -/
theorem lt_of_accepts
    {top : GPUTop cfg}
    {core : Nat}
    (taken : top.accepts core = true) :
    core < cfg.numCores :=
  circularFirst_lt (accepts_iff.mp taken).2

/-- No two cores take a block on the same edge. -/
theorem accepts_unique
    {top : GPUTop cfg}
    {left right : Nat}
    (leftTaken : top.accepts left = true)
    (rightTaken : top.accepts right = true) :
    left = right := by
  have same := (accepts_iff.mp leftTaken).2.symm.trans (accepts_iff.mp rightTaken).2
  exact Option.some.inj same

/-- The outside view of a core after an edge. -/
theorem outside_edge
    (top : GPUTop cfg)
    (rdata : ReadData)
    {core : Nat}
    (inRange : core < cfg.numCores) :
    ((top.edge rdata).cores core).outside =
      if top.accepts core then
        ⟨true, false,
          ⟨top.kmu.blockIdx, top.kmu.blockDim, top.kmu.gridDim, top.kmu.argsAddr⟩⟩
      else if (top.cores core).executesFault core then
        ⟨false, true, (top.cores core).latched⟩
      else if (top.cores core).retiresBlock then
        ⟨false, (top.cores core).faultR, (top.cores core).latched⟩
      else (top.cores core).outside := by
  rw [edge, posedge_core top _ inRange]
  exact GPUCore.outside_posedge core _ top.kmu _ _ (top.cores core)

/-- A core without a block that takes none stays as it is. -/
theorem inactive_edge
    {top : GPUTop cfg}
    (rdata : ReadData)
    {core : Nat}
    (inRange : core < cfg.numCores)
    (inactive : (top.cores core).ctaActive = false)
    (passed : top.accepts core = false) :
    ((top.edge rdata).cores core).outside = (top.cores core).outside := by
  rw [outside_edge top rdata inRange]
  simp [passed, GPUCore.executesFault, GPUCore.retiresBlock, inactive]

/-- A core that takes a block was idle, and latches the block of the
dispatcher. -/
theorem accepting_edge
    {top : GPUTop cfg}
    (rdata : ReadData)
    {core : Nat}
    (taken : top.accepts core = true) :
    (top.cores core).ctaActive = false ∧
      ((top.edge rdata).cores core).ctaActive = true ∧
      ((top.edge rdata).cores core).block = top.kmu.blockIdx := by
  have ready := (Bool.and_eq_true _ _ ▸ taken :
    _ ∧ (top.cores core).ctaReady = true).2
  have after := outside_edge top rdata (lt_of_accepts taken)
  rw [if_pos taken] at after
  refine ⟨?_, congrArg GPUCore.Outside.ctaActive after,
    congrArg (fun view => view.latched.block) after⟩
  unfold GPUCore.ctaReady at ready
  rw [Bool.and_eq_true, Bool.not_eq_true'] at ready
  exact ready.1

/-- The blocks latched on an edge are the blocks fired on it. -/
theorem latchedBlocks_eq
    (top : GPUTop cfg)
    (rdata : ReadData) :
    top.latchedBlocks rdata = top.kmu.firedBlock top.coreReady := by
  unfold latchedBlocks firedBlock
  by_cases fires : top.kmu.ctaFire top.coreReady = true
  · obtain ⟨core, taken⟩ := ctaFire_iff.mp fires
    have only : top.accepts = fun other => other == core := by
      funext other
      rw [Bool.eq_iff_iff, beq_iff_eq]
      exact ⟨fun otherTaken => accepts_unique otherTaken taken, fun same => same ▸ taken⟩
    rw [if_pos fires, only, List.filter_beq, List.count_eq_one_of_mem List.nodup_range
      (List.mem_range.mpr (lt_of_accepts taken))]
    simp [(accepting_edge rdata taken).2.2]
  · rw [if_neg fires]
    have none : (List.range cfg.numCores).filter top.accepts = [] := by
      rw [List.filter_eq_nil_iff]
      intro core _ taken
      exact fires (ctaFire_iff.mpr ⟨core, taken⟩)
    rw [none, List.map_nil]

/-- Not busy means that the walk has ended and no core holds a block. -/
theorem gpuBusy_eq_false_iff
    {top : GPUTop cfg} :
    top.gpuBusy = false ↔
      top.kmu.running = false ∧
        ∀ core, core < cfg.numCores → (top.cores core).ctaActive = false := by
  simp [gpuBusy, busy, coreBusy]

/-- A GPU that is not busy stays so. -/
theorem edge_not_busy
    {top : GPUTop cfg}
    (rdata : ReadData)
    (quiet : top.gpuBusy = false) :
    (top.edge rdata).gpuBusy = false := by
  obtain ⟨stopped, inactive⟩ := gpuBusy_eq_false_iff.mp quiet
  have passed : ∀ core, top.accepts core = false := by
    intro core
    rw [Bool.eq_false_iff]
    intro taken
    rw [(accepts_iff.mp taken).1] at stopped
    exact Bool.noConfusion stopped
  rw [gpuBusy_eq_false_iff]
  constructor
  · have noFire : top.kmu.ctaFire top.coreReady = false := by simp [ctaFire, stopped]
    rcases dispatch_cases top.kmu top.coreReady with ⟨running, _⟩ | ⟨_, kept⟩
    · rw [running] at stopped
      exact Bool.noConfusion stopped
    · exact (congrArg running kept).trans stopped
  · intro core inRange
    have kept := inactive_edge rdata inRange (inactive core inRange) (passed core)
    exact (congrArg GPUCore.Outside.ctaActive kept).trans (inactive core inRange)

/-- A launch edge on an idle GPU changes no core. -/
theorem launch_idle
    {top : GPUTop cfg}
    (rdata : ReadData)
    (quiet : top.gpuBusy = false)
    {core : Nat}
    (inRange : core < cfg.numCores) :
    ((top.launch rdata).cores core).outside = (top.cores core).outside := by
  obtain ⟨stopped, inactive⟩ := gpuBusy_eq_false_iff.mp quiet
  have offered : top.kmu.ctaValid top.coreReady core = false := by simp [ctaValid, stopped]
  rw [launch, posedge_core top _ inRange]
  exact (GPUCore.outside_posedge core _ top.kmu _ _ (top.cores core)).trans
    (by simp [offered, GPUCore.executesFault, GPUCore.retiresBlock, inactive core inRange])

/-- A core lets go of its block only because an instruction faults or because no
warp is left. -/
theorem released_edge
    {top : GPUTop cfg}
    (rdata : ReadData)
    {core : Nat}
    (inRange : core < cfg.numCores)
    (active : (top.cores core).ctaActive = true)
    (released : ((top.edge rdata).cores core).ctaActive = false) :
    ((top.edge rdata).cores core).faultR = true ∨
      ((top.cores core).state = .sched ∧
        ∀ w, w < cfg.numWarps → (top.cores core).warpValid w = false) := by
  have after := outside_edge top rdata inRange
  have released : ((top.edge rdata).cores core).outside.ctaActive = false := released
  by_cases taken : top.accepts core = true
  · rw [after, if_pos taken] at released
    exact Bool.noConfusion released
  rw [if_neg taken] at after
  by_cases faults : (top.cores core).executesFault core = true
  · rw [if_pos faults] at after
    exact Or.inl (congrArg GPUCore.Outside.faultR after)
  rw [if_neg faults] at after
  by_cases retires : (top.cores core).retiresBlock = true
  · rw [GPUCore.retiresBlock, Bool.and_eq_true, Bool.and_eq_true, beq_iff_eq, beq_iff_eq]
      at retires
    exact Or.inr ⟨retires.1.2, (GPUCore.nextWarp_eq_none_iff _).mp retires.2⟩
  · rw [if_neg retires] at after
    rw [after, show (GPUCore.outside _).ctaActive = true from active] at released
    exact Bool.noConfusion released

/-- The dispatcher advances exactly on the edges on which one core takes a
block. -/
theorem advances_edge
    (top : GPUTop cfg)
    (rdata : ReadData) :
    ((top.edge rdata).kmu.blockIdx ≠ top.kmu.blockIdx ∨
        (top.edge rdata).kmu.running ≠ top.kmu.running) ↔
      ∃! core, core < cfg.numCores ∧ top.accepts core = true := by
  have stepped : (top.edge rdata).kmu = top.kmu.dispatch top.coreReady := rfl
  rw [stepped]
  rcases dispatch_cases top.kmu top.coreReady with ⟨running, fires, result⟩ | ⟨quiet, result⟩
  · obtain ⟨core, taken⟩ := ctaFire_iff.mp fires
    rw [result]
    constructor
    · intro _
      exact ⟨core, ⟨lt_of_accepts taken, taken⟩,
        fun other chosen => accepts_unique chosen.2 taken⟩
    · intro _
      cases ends : (Dim3.next top.kmu.gridDim top.kmu.blockIdx).2 with
      | true => exact Or.inr (by simp [running])
      | false => exact Or.inl (Dim3.next_ne ends)
  · rw [result]
    constructor
    · rintro (moved | moved) <;> exact absurd rfl moved
    · rintro ⟨core, ⟨_, taken⟩, _⟩
      rw [ctaFire_iff.mpr ⟨core, taken⟩] at quiet
      exact Bool.noConfusion quiet

/-- What a launch on an idle GPU does over time, where `run` gives the state
before each edge and `latched` the blocks that cores have latched by then. -/
structure DispatchesAndCompletes (grid : Dim3) (run : Nat → GPUTop cfg)
    (latched : Nat → List Dim3) : Prop where
  starts_idle : ∀ core, core < cfg.numCores → ((run 0).cores core).ctaActive = false
  advances_iff : ∀ time,
    ((run (time + 1)).kmu.blockIdx ≠ (run time).kmu.blockIdx ∨
        (run (time + 1)).kmu.running ≠ (run time).kmu.running) ↔
      ∃! core, core < cfg.numCores ∧ (run time).accepts core = true
  at_most_one : ∀ time left right,
    (run time).accepts left = true → (run time).accepts right = true → left = right
  idle_before : ∀ time core, (run time).accepts core = true →
    ((run time).cores core).ctaActive = false
  latches : ∀ time core, (run time).accepts core = true →
    ((run (time + 1)).cores core).ctaActive = true ∧
      ((run (time + 1)).cores core).block = (run time).kmu.blockIdx
  busy_at_once : (run 0).gpuBusy = true
  no_gap : ∀ time, (run (time + 1)).gpuBusy = true → (run time).gpuBusy = true
  each_once : ∀ time, (run time).gpuBusy = false → latched time = grid.blocks
  completes : ∀ late, (run late).gpuBusy = false →
    ∀ early core, early < late → (run early).accepts core = true →
      ∃ ends, early < ends ∧ ends < late ∧
        (∀ time, early < time → time ≤ ends → ((run time).cores core).ctaActive = true) ∧
        ((run (ends + 1)).cores core).ctaActive = false ∧
        (((run (ends + 1)).cores core).faultR = true ∨
          (((run ends).cores core).state = .sched ∧
            ∀ w, w < cfg.numWarps → ((run ends).cores core).warpValid w = false))

/-- From any state that an idle GPU can be in, a launch pulse dispatches every
block of the grid to exactly one idle core, in order, and the busy output falls
only after each of them has faulted or retired all of its warps. -/
theorem dispatches_and_completes
    {top : GPUTop cfg}
    (idle : top.gpuBusy = false)
    (blockSize : top.kmu.blockSize ≠ 0)
    (x : top.kmu.gridDim.x ≠ 0)
    (y : top.kmu.gridDim.y ≠ 0)
    (z : top.kmu.gridDim.z ≠ 0)
    (atLaunch : ReadData)
    (rdata : Nat → ReadData) :
    DispatchesAndCompletes top.kmu.gridDim
      (stateAt edge (top.launch atLaunch) rdata)
      (logAt edge latchedBlocks (top.launch atLaunch) rdata) := by
  have positive : top.kmu.gridDim.Positive := ⟨x, y, z⟩
  have enabled : top.kmu.enabled = true := bne_iff_ne.mpr blockSize
  have walking : ∀ time, Walking top.kmu.gridDim true
      (logAt edge latchedBlocks (top.launch atLaunch) rdata time)
      (stateAt edge (top.launch atLaunch) rdata time).kmu :=
    logAt_invariant (fun fired (top : GPUTop cfg) => Walking _ true fired top.kmu)
      (by
        show Walking _ true [] (top.kmu.launch top.coreReady)
        rw [launch_eq positive, enabled]
        exact ⟨rfl, Dim3.Walked.launch positive true⟩)
      fun time fired state walking => by
        rw [latchedBlocks_eq]
        exact walking.dispatch state.coreReady
  exact
    { starts_idle := fun core inRange =>
        (congrArg GPUCore.Outside.ctaActive (launch_idle atLaunch idle inRange)).trans
          ((gpuBusy_eq_false_iff.mp idle).2 core inRange)
      advances_iff := fun time => by
        rw [stateAt_succ]
        exact advances_edge _ _
      at_most_one := fun time _ _ => accepts_unique
      idle_before := fun time core taken => (accepting_edge (rdata time) taken).1
      latches := fun time core taken => (accepting_edge (rdata time) taken).2
      busy_at_once := by
        rw [← Bool.not_eq_false, gpuBusy_eq_false_iff]
        rintro ⟨stopped, _⟩
        have runs := (walking 0).walked.running_iff.mpr ⟨rfl, positive.count_pos⟩
        rw [runs] at stopped
        exact Bool.noConfusion stopped
      no_gap := fun time stillBusy => by
        by_contra quiet
        rw [Bool.not_eq_true] at quiet
        rw [stateAt_succ, edge_not_busy (rdata time) quiet] at stillBusy
        exact Bool.noConfusion stillBusy
      each_once := fun time quiet => by
        have walked := (walking time).walked
        rw [(gpuBusy_eq_false_iff.mp quiet).1] at walked
        exact walked.all_fired
      completes := fun late quiet early core before taken => by
        have inRange := lt_of_accepts taken
        have accepted := (accepting_edge (rdata early) taken).2.1
        have released := (gpuBusy_eq_false_iff.mp quiet).2 core inRange
        obtain ⟨ends, afterEarly, beforeLate, holding, falls⟩ :=
          exists_first_fall (fun time =>
            ((stateAt edge (top.launch atLaunch) rdata time).cores core).ctaActive = true)
            before accepted (by simp [released])
        rw [Bool.not_eq_true] at falls
        exact ⟨ends, afterEarly, beforeLate, holding, falls,
          released_edge (rdata ends) inRange (holding ends afterEarly (Nat.le_refl ends)) falls⟩ }

/-- The GPU of `Config.twoPairs` after reset, configured for three blocks of two threads. -/
def threeBlocks : GPUTop Config.twoPairs where
  kmu :=
    { (GPUKmu.fresh : GPUKmu Config.twoPairs.numCores) with
      gridDim := ⟨3, 1, 1⟩
      blockDim := ⟨2, 1, 1⟩
      blockSize := 2 }
  cores _ := GPUCore.fresh

/-- Its run after the launch pulse, with `EBREAK` in every word. -/
def threeBlocksRun : Nat → GPUTop Config.twoPairs :=
  stateAt edge (threeBlocks.launch ⟨fun _ => 0, fun _ => 0⟩)
    fun _ => ⟨fun _ => Decode.ebreak, fun _ => 0⟩

/-- Both cores take a block at once, the first of them to be idle takes the third, and each
is released. -/
theorem dispatches_and_completes_threeBlocks :
    (threeBlocksRun 0).accepts 0 = true ∧ (threeBlocksRun 1).accepts 1 = true ∧
      (threeBlocksRun 5).accepts 0 = true ∧ (threeBlocksRun 10).gpuBusy = false ∧
      logAt edge latchedBlocks (threeBlocks.launch ⟨fun _ => 0, fun _ => 0⟩)
        (fun _ => ⟨fun _ => Decode.ebreak, fun _ => 0⟩) 10 = Dim3.blocks ⟨3, 1, 1⟩ ∧
      ∃ ends, 5 < ends ∧ ends < 10 ∧
        ((threeBlocksRun (ends + 1)).cores 0).ctaActive = false := by
  have falls : (threeBlocksRun 10).gpuBusy = false := by decide +kernel
  have again : (threeBlocksRun 5).accepts 0 = true := by decide +kernel
  have completes := dispatches_and_completes (show threeBlocks.gpuBusy = false by decide)
    (by decide) (by decide) (by decide) (by decide) ⟨fun _ => 0, fun _ => 0⟩
    fun _ => ⟨fun _ => Decode.ebreak, fun _ => 0⟩
  obtain ⟨ends, later, before, _, released, _⟩ :=
    completes.completes 10 falls 5 0 (by decide) again
  exact ⟨by decide +kernel, by decide +kernel, again, falls, completes.each_once 10 falls,
    ends, later, before, released⟩

end GPUTop

end Verilog

end OpenGPU
