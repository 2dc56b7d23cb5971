import OpenGPU.Cycle.Model
import OpenGPU.Foundation.Clocked
import OpenGPU.Verilog.Kmu

/-!
# The walk over the blocks of a launch

The dispatcher of the RTL and that of the cycle model, each run alone on
arbitrary core-ready patterns after a launch. Both fire the blocks of the grid
in the same order, and stop right after the last one.
-/

namespace OpenGPU

namespace Verilog

namespace GPUKmu

variable {numCores : Nat}

/-- One edge without reset, configuration write or launch. -/
def dispatch (kmu : GPUKmu numCores) (coreReady : Nat → Bool) : GPUKmu numCores :=
  kmu.posedge false DcrIf.idle false coreReady

/-- The launch edge. -/
def launch (kmu : GPUKmu numCores) (coreReady : Nat → Bool) : GPUKmu numCores :=
  kmu.posedge false DcrIf.idle true coreReady

/-- The block that an edge fires, if any. -/
def firedBlock (kmu : GPUKmu numCores) (coreReady : Nat → Bool) : List Dim3 :=
  if kmu.ctaFire coreReady then [kmu.blockIdx] else []

/-- A launch with this configuration starts a walk. -/
def enabled (kmu : GPUKmu numCores) : Bool := kmu.blockSize != 0

/-- An edge of the dispatcher fires the current block, or changes nothing. -/
theorem dispatch_cases
    (kmu : GPUKmu numCores)
    (coreReady : Nat → Bool) :
    (kmu.running = true ∧ kmu.ctaFire coreReady = true ∧
      kmu.dispatch coreReady =
        { kmu with
          rrCore := kmu.rrCoreNext coreReady
          blockIdx := (Dim3.next kmu.gridDim kmu.blockIdx).1
          running := !(Dim3.next kmu.gridDim kmu.blockIdx).2 }) ∨
    (kmu.ctaFire coreReady = false ∧ kmu.dispatch coreReady = kmu) := by
  cases fires : kmu.ctaFire coreReady with
  | false => exact Or.inr ⟨rfl, by simp [dispatch, posedge, fires]⟩
  | true =>
      have running : kmu.running = true := by
        rw [ctaFire_eq, Bool.and_eq_true] at fires
        exact fires.1
      refine Or.inl ⟨running, rfl, ?_⟩
      simp [dispatch, posedge, fires, blockIdxNext_eq, runningNext_eq, running]

/-- The launch edge puts the walk at its start. -/
theorem launch_eq
    {kmu : GPUKmu numCores}
    (positive : kmu.gridDim.Positive)
    (coreReady : Nat → Bool) :
    kmu.launch coreReady =
      { kmu with blockIdx := Dim3.zero, running := kmu.enabled } := by
  have extents : (kmu.blockSize != 0 && kmu.gridDim.x != 0 && kmu.gridDim.y != 0 &&
      kmu.gridDim.z != 0) = kmu.enabled := by
    rw [bne_iff_ne.mpr positive.x, bne_iff_ne.mpr positive.y, bne_iff_ne.mpr positive.z,
      Bool.and_true, Bool.and_true, Bool.and_true, enabled]
  rw [← extents]
  rfl

/-- The configuration and the walk it is in. -/
structure Walking (grid : Dim3) (enabled : Bool) (fired : List Dim3)
    (kmu : GPUKmu numCores) : Prop where
  configured : kmu.gridDim = grid
  walked : Dim3.Walked grid enabled fired kmu.blockIdx kmu.running

/-- An edge keeps the walk and the log of fired blocks in step. -/
theorem Walking.dispatch
    {grid : Dim3}
    {enabled : Bool}
    {fired : List Dim3}
    {kmu : GPUKmu numCores}
    (walking : Walking grid enabled fired kmu)
    (coreReady : Nat → Bool) :
    Walking grid enabled (fired ++ kmu.firedBlock coreReady) (kmu.dispatch coreReady) := by
  rcases dispatch_cases kmu coreReady with ⟨running, fires, result⟩ | ⟨quiet, result⟩
  · have walked := walking.walked
    rw [running] at walked
    rw [result, firedBlock, if_pos fires]
    refine ⟨walking.configured, ?_⟩
    rw [walking.configured]
    exact walked.fire
  · rw [result, firedBlock, if_neg (by simp [quiet]), List.append_nil]
    exact walking

end GPUKmu

end Verilog

namespace Walk

/-- The core that takes a block when the cores in `ready` can. -/
def fire (numCores : Nat) (walk : Walk) (ready : Nat → Bool) : Option Nat :=
  if walk.running then circularFirst numCores walk.rr ready else none

/-- One edge without launch, at a fixed configuration. -/
def dispatch (numCores : Nat) (dcr : DcrRegisters) (walk : Walk) (ready : Nat → Bool) :
    Walk :=
  walk.step numCores false dcr (walk.fire numCores ready)

/-- The launch edge. -/
def launch (numCores : Nat) (dcr : DcrRegisters) (walk : Walk) : Walk :=
  walk.step numCores true dcr none

/-- The block that an edge fires, if any. -/
def firedBlock (numCores : Nat) (walk : Walk) (ready : Nat → Bool) : List Dim3 :=
  if (walk.fire numCores ready).isSome then [walk.block] else []

/-- An edge of the walk keeps the log of fired blocks in step. -/
theorem walked_dispatch
    {numCores : Nat}
    {dcr : DcrRegisters}
    {enabled : Bool}
    {fired : List Dim3}
    {walk : Walk}
    (walked : Dim3.Walked dcr.grid enabled fired walk.block walk.running)
    (ready : Nat → Bool) :
    Dim3.Walked dcr.grid enabled (fired ++ walk.firedBlock numCores ready)
      (walk.dispatch numCores dcr ready).block
      (walk.dispatch numCores dcr ready).running := by
  cases fires : walk.fire numCores ready with
  | none =>
      rw [firedBlock, fires]
      simpa [dispatch, step, fires] using walked
  | some sel =>
      have running : walk.running = true := by
        unfold fire at fires
        split_ifs at fires with running
        exact running
      rw [running] at walked
      rw [firedBlock, fires]
      simpa [dispatch, step, fires, running, nextBlock, Dim3.next, Dim3.zero]
        using walked.fire

/-- The launch edge puts the walk at its start. -/
theorem launch_eq
    (numCores : Nat)
    {dcr : DcrRegisters}
    (positive : dcr.grid.Positive)
    (walk : Walk) :
    walk.launch numCores dcr =
      { walk with block := Dim3.zero, running := dcr.blockSize != 0 } := by
  have extents : (dcr.blockSize != 0 && dcr.grid.x != 0 && dcr.grid.y != 0 &&
      dcr.grid.z != 0) = (dcr.blockSize != 0) := by
    rw [bne_iff_ne.mpr positive.x, bne_iff_ne.mpr positive.y, bne_iff_ne.mpr positive.z,
      Bool.and_true, Bool.and_true, Bool.and_true]
  rw [← extents]
  rfl

end Walk

namespace Dim3

/-- Firing is what ends a walk, and it does so at the far corner. -/
theorem Walked.last_iff
    {grid block : Dim3}
    {enabled running : Bool}
    {fired : List Dim3}
    (walked : Walked grid enabled fired block running)
    (active : running = true) :
    block = grid.last ↔ fired.length + 1 = grid.count := by
  obtain ⟨_, inRange⟩ := walked.running_iff.mp active
  rw [← next_ends_iff, walked.current inRange, next_blockAt inRange]
  by_cases last : fired.length + 1 = grid.count <;> simp [last]

end Dim3

/-- A walk seen over time: at every edge the blocks fired so far are, in order,
a prefix of the X, Y, Z enumeration of the grid. The dispatcher runs until it has
fired as many blocks as the grid has, with the index at the next block; it stops
exactly on firing the far corner, with the index back at the origin. -/
structure WalksInOrder (grid : Dim3) (enabled : Bool) (fired : Nat → List Dim3)
    (block : Nat → Dim3) (running : Nat → Bool) : Prop where
  in_order : ∀ time, fired time <+: grid.blocks
  running_iff : ∀ time,
    running time = true ↔
      enabled = true ∧ (fired time).length < grid.x.toNat * grid.y.toNat * grid.z.toNat
  current : ∀ time, running time = true →
    grid.blocks[(fired time).length]? = some (block time)
  falls_iff : ∀ time, running time = true →
    (running (time + 1) = false ↔
      fired (time + 1) = fired time ++ [⟨grid.x - 1, grid.y - 1, grid.z - 1⟩])
  wraps : ∀ time,
    (fired time).length = grid.x.toNat * grid.y.toNat * grid.z.toNat →
      block time = ⟨0, 0, 0⟩

/-- Edges that each fire the current block or change nothing walk in order. -/
theorem WalksInOrder.of_walked
    {grid : Dim3}
    {enabled : Bool}
    {fired : Nat → List Dim3}
    {block : Nat → Dim3}
    {running : Nat → Bool}
    (walked : ∀ time, Dim3.Walked grid enabled (fired time) (block time) (running time))
    (edges : ∀ time,
      (running time = true ∧ fired (time + 1) = fired time ++ [block time]) ∨
      (fired (time + 1) = fired time ∧ running (time + 1) = running time)) :
    WalksInOrder grid enabled fired block running where
  in_order time := by
    rw [(walked time).inOrder]
    exact List.take_prefix _ _
  running_iff time := (walked time).running_iff
  current time active := by
    obtain ⟨_, inRange⟩ := (walked time).running_iff.mp active
    rw [Dim3.getElem?_blocks inRange, (walked time).current inRange]
  falls_iff time active := by
    rcases edges time with ⟨_, fires⟩ | ⟨quiet, kept⟩
    · obtain ⟨enabledTrue, inRange⟩ := (walked time).running_iff.mp active
      have afterwards := (walked (time + 1)).running_iff
      rw [fires, List.length_append, List.length_singleton] at afterwards
      have corner := (walked time).last_iff active
      have stops : running (time + 1) = false ↔ (fired time).length + 1 = grid.count := by
        rw [← Bool.not_eq_true, afterwards]
        constructor
        · intro stopped
          by_contra early
          exact stopped ⟨enabledTrue, by omega⟩
        · intro last runs
          omega
      rw [stops, ← corner, fires, List.append_cancel_left_eq, List.singleton_inj]
      rfl
    · rw [kept, active, quiet]
      simp
  wraps time := (walked time).finished

namespace Verilog.GPUKmu

/-- Alone and on any ready patterns, the RTL dispatcher walks in order. -/
theorem walksInOrder
    {numCores : Nat}
    {kmu : GPUKmu numCores}
    (positive : kmu.gridDim.Positive)
    (atLaunch : Nat → Bool)
    (ready : Nat → Nat → Bool) :
    WalksInOrder kmu.gridDim kmu.enabled
      (logAt dispatch firedBlock (kmu.launch atLaunch) ready)
      (fun time => (stateAt dispatch (kmu.launch atLaunch) ready time).blockIdx)
      (fun time => (stateAt dispatch (kmu.launch atLaunch) ready time).running) := by
  have walking : ∀ time, Walking kmu.gridDim kmu.enabled
      (logAt dispatch firedBlock (kmu.launch atLaunch) ready time)
      (stateAt dispatch (kmu.launch atLaunch) ready time) :=
    logAt_invariant (Walking kmu.gridDim kmu.enabled)
      (by
        rw [launch_eq positive]
        exact ⟨rfl, Dim3.Walked.launch positive _⟩)
      fun time log state walking => walking.dispatch (ready time)
  apply WalksInOrder.of_walked fun time => (walking time).walked
  intro time
  rw [logAt_succ, stateAt_succ]
  rcases dispatch_cases (stateAt dispatch (kmu.launch atLaunch) ready time) (ready time) with
    ⟨running, fires, _⟩ | ⟨quiet, result⟩
  · exact Or.inl ⟨running, by rw [firedBlock, if_pos fires]⟩
  · exact Or.inr ⟨by simp [firedBlock, quiet], by rw [result]⟩

end Verilog.GPUKmu

namespace Walk

/-- The dispatch registers of the cycle model do the same. -/
theorem walksInOrder
    (numCores : Nat)
    {dcr : DcrRegisters}
    (positive : dcr.grid.Positive)
    (walk : Walk)
    (ready : Nat → Nat → Bool) :
    WalksInOrder dcr.grid (dcr.blockSize != 0)
      (logAt (dispatch numCores dcr) (firedBlock numCores) (walk.launch numCores dcr) ready)
      (fun time =>
        (stateAt (dispatch numCores dcr) (walk.launch numCores dcr) ready time).block)
      (fun time =>
        (stateAt (dispatch numCores dcr) (walk.launch numCores dcr) ready time).running) := by
  have walked : ∀ time, Dim3.Walked dcr.grid (dcr.blockSize != 0)
      (logAt (dispatch numCores dcr) (firedBlock numCores)
        (walk.launch numCores dcr) ready time)
      (stateAt (dispatch numCores dcr) (walk.launch numCores dcr) ready time).block
      (stateAt (dispatch numCores dcr) (walk.launch numCores dcr) ready time).running :=
    logAt_invariant
      (fun fired (walk : Walk) =>
        Dim3.Walked dcr.grid (dcr.blockSize != 0) fired walk.block walk.running)
      (by
        rw [launch_eq numCores positive]
        exact Dim3.Walked.launch positive _)
      fun time log state walked => walked_dispatch walked (ready time)
  apply WalksInOrder.of_walked walked
  intro time
  rw [logAt_succ, stateAt_succ]
  generalize stateAt (dispatch numCores dcr) (walk.launch numCores dcr) ready time = state
  cases fires : state.fire numCores (ready time) with
  | none => exact Or.inr ⟨by simp [firedBlock, fires], by simp [dispatch, step, fires]⟩
  | some sel =>
      have running : state.running = true := by
        unfold fire at fires
        split_ifs at fires with running
        exact running
      exact Or.inl ⟨running, by simp [firedBlock, fires]⟩

end Walk

/-- An idle tick of the cycle model moves the dispatch registers as one edge of
the walk on that tick's ready mask. -/
theorem Model.clock_walk
    {cfg : Config}
    {m : Model}
    (idle : m.inputs = Inputs.idle) :
    (m.clock cfg).walk =
        m.walk.dispatch cfg.numCores m.dcr (fun core => hasLane (m.readyMask cfg) core) ∧
      (m.clock cfg).dcr = m.dcr := by
  have kept : m.dcrNext = m.dcr := by simp [dcrNext, idle, Inputs.idle]
  refine ⟨?_, kept⟩
  show m.walk.step cfg.numCores m.inputs.launch m.dcrNext (m.firing cfg) = _
  rw [kept, idle]
  rfl

/-- After a launch on a grid without a zero extent, whatever the cores' ready
patterns, the RTL dispatcher and the dispatcher of the cycle model both fire the
blocks X fastest, then Y, then Z, each once, and stop after the last. -/
theorem dispatchers_walk_in_order
    (numCores : Nat)
    {grid : Dim3}
    (x : grid.x ≠ 0)
    (y : grid.y ≠ 0)
    (z : grid.z ≠ 0)
    (ready : Nat → Nat → Bool) :
    (∀ (kmu : Verilog.GPUKmu numCores) (atLaunch : Nat → Bool), kmu.gridDim = grid →
      WalksInOrder grid (kmu.blockSize != 0)
        (logAt Verilog.GPUKmu.dispatch Verilog.GPUKmu.firedBlock
          (kmu.launch atLaunch) ready)
        (fun time =>
          (stateAt Verilog.GPUKmu.dispatch (kmu.launch atLaunch) ready time).blockIdx)
        (fun time =>
          (stateAt Verilog.GPUKmu.dispatch (kmu.launch atLaunch) ready time).running)) ∧
    ∀ (dcr : DcrRegisters) (walk : Walk), dcr.grid = grid →
      WalksInOrder grid (dcr.blockSize != 0)
        (logAt (Walk.dispatch numCores dcr) (Walk.firedBlock numCores)
          (walk.launch numCores dcr) ready)
        (fun time =>
          (stateAt (Walk.dispatch numCores dcr) (walk.launch numCores dcr) ready time).block)
        (fun time =>
          (stateAt (Walk.dispatch numCores dcr) (walk.launch numCores dcr)
            ready time).running) := by
  constructor
  · rintro kmu atLaunch rfl
    exact Verilog.GPUKmu.walksInOrder ⟨x, y, z⟩ atLaunch ready
  · rintro dcr walk rfl
    exact Walk.walksInOrder numCores ⟨x, y, z⟩ walk ready

/-- The walk over two blocks by two cores that are always ready. -/
theorem dispatchers_walk_in_order_pair :
    (stateAt Verilog.GPUKmu.dispatch
      (({ Verilog.GPUKmu.fresh with gridDim := ⟨2, 1, 1⟩ } :
        Verilog.GPUKmu 2).launch fun _ => true) (fun _ _ => true) 2).running = false ∧
    logAt Verilog.GPUKmu.dispatch Verilog.GPUKmu.firedBlock
      (({ Verilog.GPUKmu.fresh with gridDim := ⟨2, 1, 1⟩ } :
        Verilog.GPUKmu 2).launch fun _ => true) (fun _ _ => true) 2 <+:
      Dim3.blocks ⟨2, 1, 1⟩ :=
  ⟨by decide,
    ((dispatchers_walk_in_order 2 (show (2 : Word) ≠ 0 by decide) (show (1 : Word) ≠ 0 by decide)
      (show (1 : Word) ≠ 0 by decide) fun _ _ => true).1 _ _ rfl).in_order 2⟩

end OpenGPU
