import OpenGPU.Cycle.Conservation
import OpenGPU.Dispatch.Walk
import OpenGPU.Foundation.RoundRobin
import OpenGPU.Platform.Launch

/-!
# The cycle model: runs of a launch

A launch pulse from any state that a history can reach, then ticks that assert
nothing. The dispatch registers walk over the grid, and a core that has taken a
block keeps the registers that identify the block and its threads until it takes
another one.
-/

namespace OpenGPU

/-- The configuration registers after `configure_model`. -/
def LaunchInfo.registers (info : LaunchInfo) (blockSize : Word) : DcrRegisters where
  startup := info.entry
  args := info.argsAddr
  argsSize := info.argsSize
  dim := info.blockDim
  grid := info.gridDim
  blockSize := blockSize

/-- The ten configuration writes fill in every register. -/
theorem LaunchInfo.registers_eq
    (info : LaunchInfo)
    (blockSize : Word)
    (dcr : DcrRegisters) :
    (info.configurationWrites blockSize).foldl
        (fun dcr write => dcr.write write.1 write.2) dcr =
      info.registers blockSize := rfl

/-- The registers of a core that identify its block and the threads in it. -/
structure CtaRegisters where
  block : Dim3
  dim : Dim3
  grid : Dim3
  args : Word
  tx : Nat → Word
  ty : Nat → Word
  tz : Nat → Word
  gid : Nat → Word

namespace Core

/-- The identity of the block that a core holds. -/
def cta (c : Core) : CtaRegisters :=
  ⟨c.block, c.dim, c.grid, c.args, c.tx, c.ty, c.tz, c.gid⟩

@[simp] theorem cta_nextWarp (cfg : Config) (c : Core) :
    (nextWarp cfg c).cta = c.cta := rfl

@[simp] theorem cta_raise (c : Core) : c.raise.cta = c.cta := rfl

@[simp] theorem cta_setPath (c : Core) (pc mask : Word) :
    (c.setPath pc mask).cta = c.cta := rfl

@[simp] theorem cta_pushPath (c : Core) (pc mask : Word) :
    (c.pushPath pc mask).cta = c.cta := rfl

@[simp] theorem cta_popPath (c : Core) : c.popPath.cta = c.cta := rfl

theorem cta_schedule (cfg : Config) (c : Core) : (schedule cfg c).cta = c.cta := by
  unfold schedule
  cases circularFirst cfg.numWarps c.rr c.valid <;> rfl

theorem cta_execEbreak (cfg : Config) (c : Core) : (execEbreak cfg c).cta = c.cta := by
  unfold execEbreak
  rw [cta_nextWarp]
  split_ifs <;> rfl

theorem cta_execBranch (cfg : Config) (c : Core) : (execBranch cfg c).cta = c.cta := by
  unfold execBranch
  extract_lets tk fl
  rw [cta_nextWarp]
  split_ifs <;> rfl

theorem cta_execLanes (cfg : Config) (cid : Nat) (c : Core) :
    (execLanes cfg cid c).cta = c.cta := by
  unfold execLanes
  extract_lets acc written
  rw [cta_nextWarp]
  split_ifs <;> rfl

theorem cta_execute (cfg : Config) (cid : Nat) (c : Core) :
    (execute cfg cid c).cta = c.cta := by
  unfold execute
  split_ifs
  · rfl
  · rfl
  · exact cta_execEbreak cfg c
  · exact cta_execBranch cfg c
  · exact cta_execLanes cfg cid c

theorem cta_memoryRequest (cfg : Config) (c : Core) :
    (memoryRequest cfg c).cta = c.cta := by
  unfold memoryRequest
  split_ifs <;> rfl

theorem cta_memoryResponse (cfg : Config) (mem : ShadowMemory) (c : Core) :
    (memoryResponse cfg mem c).cta = c.cta := by
  unfold memoryResponse
  extract_lets x row written
  split_ifs <;> rfl

/-- Only taking a block changes the identity of the block. -/
theorem cta_stepCore
    (cfg : Config)
    (mem : ShadowMemory)
    (launch : LaunchRegisters)
    (cid : Nat)
    (c : Core) :
    (stepCore cfg mem launch cid false c).cta = c.cta := by
  unfold stepCore
  rw [if_neg Bool.false_ne_true]
  split_ifs
  · rfl
  · cases c.state with
    | sched => exact cta_schedule cfg c
    | fetch => rfl
    | exec => exact cta_execute cfg cid c
    | memReq => exact cta_memoryRequest cfg c
    | memResp => exact cta_memoryResponse cfg mem c

end Core

/-- The identity that an accepting core latches. -/
def LaunchRegisters.cta (launch : LaunchRegisters) : CtaRegisters where
  block := launch.block
  dim := launch.dim
  grid := launch.grid
  args := launch.args
  tx i := BitVec.ofNat 32 i % launch.dim.x
  ty i := BitVec.ofNat 32 i / launch.dim.x % launch.dim.y
  tz i := BitVec.ofNat 32 i / (launch.dim.x * launch.dim.y)
  gid i := Core.blockLinear launch * launch.blockSize + BitVec.ofNat 32 i

namespace Model

section Tick

variable {cfg : Config} {m next : Model}

/-- A tick that is defined has at most 32 cores to step. -/
theorem numCores_le_of_tick
    {inputs : Inputs}
    (defined : m.tick cfg inputs = some next) :
    cfg.numCores ≤ 32 := by
  have packed : ∀ m' : Model, (pack cfg m').isSome = true → cfg.numCores ≤ 32 := by
    intro m' isSome
    unfold pack at isSome
    split_ifs at isSome with shifts
    · unfold packDefined at shifts
      rw [Bool.and_eq_true, decide_eq_true_eq] at shifts
      exact shifts.1
    · exact absurd isSome (by simp)
  unfold tick cycleDiffStep at defined
  split_ifs at defined
  · exact packed _ (by rw [defined]; rfl)
  · exact packed _ (by rw [defined]; rfl)

/-- The ready mask has a bit for every core that can take a block. -/
theorem hasLane_readyMask
    (cores : cfg.numCores ≤ 32)
    {core : Nat}
    (inRange : core < cfg.numCores) :
    hasLane (m.readyMask cfg) core = m.coreReady core := by
  rw [readyMask, hasLane_collectLanes, decide_eq_true (by omega), decide_eq_true inRange,
    Bool.true_and, Bool.true_and]

/-- The core that takes a block is one of the cores. -/
theorem firing_lt
    {core : Nat}
    (found : m.firing cfg = some core) :
    core < cfg.numCores := by
  unfold firing at found
  split_ifs at found
  exact circularFirst_lt found

/-- Without blocks no core takes one. -/
theorem firing_eq_none
    (noBlocks : m.walk.running = false) :
    m.firing cfg = none := by
  rw [firing, noBlocks]
  rfl

/-- The firing core is the first one that is ready. -/
theorem firing_eq
    (cores : cfg.numCores ≤ 32) :
    m.firing cfg = m.walk.fire cfg.numCores m.coreReady := by
  unfold firing selected
  rw [circularFirst_congr fun core inRange => hasLane_readyMask cores inRange]
  rfl

/-- A tick that asserts nothing moves the dispatch registers one edge on and
keeps the configuration. -/
theorem idle_tick
    (defined : m.tick cfg .idle = some next) :
    next.walk = m.walk.dispatch cfg.numCores m.dcr m.coreReady ∧
      next.dcr = m.dcr := by
  have cores := numCores_le_of_tick defined
  rcases tick_eq_some defined with ⟨reset, _⟩ | ⟨_, result, _⟩
  · exact absurd reset Bool.false_ne_true
  · have moved := @clock_walk cfg (cycleDiffSetInputs .idle m) rfl
    rw [result]
    refine ⟨moved.1.trans ?_, moved.2⟩
    rw [Walk.dispatch, Walk.dispatch, Walk.fire, Walk.fire,
      circularFirst_congr fun core inRange => hasLane_readyMask cores inRange]
    rfl

/-- The pulse starts the walk. -/
theorem pulse_tick
    (defined : m.tick cfg .launchPulse = some next) :
    next.walk = m.walk.launch cfg.numCores m.dcr ∧ next.dcr = m.dcr := by
  rcases tick_eq_some defined with ⟨reset, _⟩ | ⟨_, result, _⟩
  · exact absurd reset Bool.false_ne_true
  · rw [result]
    exact ⟨rfl, rfl⟩

/-- The pointer stays within the cores. -/
theorem rr_step
    {numCores : Nat}
    {walk : Walk}
    (inRange : walk.rr < numCores)
    (launch : Bool)
    (dcr : DcrRegisters)
    {fire : Option Nat}
    (fired : ∀ core, fire = some core → core < numCores) :
    (walk.step numCores launch dcr fire).rr < numCores := by
  unfold Walk.step
  split_ifs
  · exact inRange
  · cases fire with
    | none => exact inRange
    | some core =>
        have bound := fired core rfl
        show (if core = numCores - 1 then 0 else core + 1) < numCores
        split_ifs <;> omega

/-- The pointer names a core in every state that a history can reach. -/
theorem Reachable.rr_lt
    {ledgers : Nat → LaneLedger}
    (reachable : Reachable cfg m ledgers) :
    m.walk.rr < cfg.numCores := by
  induction reachable with
  | init started =>
      rw [(pack_eq_some started).1]
      exact cfg.numCores_pos
  | load pmem _ inductionHypothesis => exact inductionHypothesis
  | @tick m next ledgers inputs _ defined inductionHypothesis =>
      rcases tick_eq_some defined with ⟨_, result⟩ | ⟨_, result, _⟩
      · rw [result]
        exact cfg.numCores_pos
      · rw [result]
        refine rr_step inductionHypothesis _ _ fun core fired => ?_
        have fired : (if m.walk.running then m.selected cfg else none) = some core := fired
        split_ifs at fired
        exact circularFirst_lt fired

end Tick

/-- The first `bound` ticks after the pulse of a launch. -/
structure LaunchRun (cfg : Config) (m : Model) (bound : Nat) (run : Nat → Model) :
    Prop where
  pulse : m.tick cfg .launchPulse = some (run 0)
  idle : ∀ time, time < bound → (run time).tick cfg .idle = some (run (time + 1))

namespace LaunchRun

variable {cfg : Config} {m : Model} {bound : Nat} {run : Nat → Model}

/-- As long as the ticks are defined they are a run. -/
theorem of_launchTicks
    (defined : (m.launchTicks cfg bound).isSome = true) :
    LaunchRun cfg m bound fun time => (m.launchTicks cfg time).getD m := by
  have earlier : ∀ time, time ≤ bound → (m.launchTicks cfg time).isSome = true := by
    intro time before
    induction before using Nat.decreasingInduction with
    | of_succ time _ inductionHypothesis =>
        obtain ⟨next, ticked⟩ := Option.isSome_iff_exists.mp inductionHypothesis
        obtain ⟨pulsed, pulse, ticked⟩ := Option.bind_eq_some_iff.mp ticked
        obtain ⟨previous, before, _⟩ := Option.bind_eq_some_iff.mp ticked
        rw [launchTicks, pulse]
        exact Option.isSome_iff_exists.mpr ⟨previous, before⟩
    | self => exact defined
  have steps : ∀ time, time < bound →
      m.launchTicks cfg (time + 1) = (m.launchTicks cfg time).bind (tick cfg .idle) := by
    intro time _
    rw [launchTicks, launchTicks, Option.bind_assoc]
    rfl
  constructor
  · obtain ⟨pulsed, ticked⟩ := Option.isSome_iff_exists.mp (earlier 0 (Nat.zero_le bound))
    obtain ⟨first, pulse, rest⟩ := Option.bind_eq_some_iff.mp ticked
    cases rest
    show m.tick cfg .launchPulse = some ((m.launchTicks cfg 0).getD m)
    rw [ticked, pulse]
    rfl
  · intro time before
    obtain ⟨current, here⟩ := Option.isSome_iff_exists.mp (earlier time before.le)
    obtain ⟨next, there⟩ := Option.isSome_iff_exists.mp (earlier (time + 1) before)
    have stepped := steps time before
    rw [here, there] at stepped
    show ((m.launchTicks cfg time).getD m).tick cfg .idle =
      some ((m.launchTicks cfg (time + 1)).getD m)
    rw [here, there]
    exact stepped.symm

/-- The configuration does not change during a launch. -/
theorem dcr_eq
    (launch : LaunchRun cfg m bound run)
    {time : Nat}
    (before : time ≤ bound) :
    (run time).dcr = m.dcr := by
  induction time with
  | zero => exact (pulse_tick launch.pulse).2
  | succ time inductionHypothesis =>
      rw [(idle_tick (launch.idle time before)).2]
      exact inductionHypothesis (by omega)

/-- The cores that take blocks, edge by edge. -/
def fired (cfg : Config) (run : Nat → Model) (time : Nat) : Option Nat :=
  (run time).firing cfg

/-- The configuration with which a core takes the `b`-th block. -/
def blockRegisters (dcr : DcrRegisters) (b : Nat) : LaunchRegisters :=
  { dcr with block := dcr.grid.blockAt b }

/-- The ticks of a launch dispatch in rotation. -/
theorem rotatingDispatch
    (launch : LaunchRun cfg m bound run)
    (pointer : m.walk.rr < cfg.numCores) :
    RotatingDispatch cfg.numCores bound (fired cfg run)
      (fun time => (run time).walk.rr) (fun time => (run time).coreReady) := by
  have cores := numCores_le_of_tick launch.pulse
  have chooses : ∀ time core, fired cfg run time = some core →
      (run time).walk.running = true ∧
        circularFirst cfg.numCores (run time).walk.rr (run time).coreReady = some core := by
    intro time core found
    rw [fired, firing_eq cores, Walk.fire] at found
    split_ifs at found with running
    exact ⟨running, found⟩
  have next : ∀ time, time < bound →
      (run (time + 1)).walk.rr =
        (fired cfg run time).elim (run time).walk.rr
          fun core => if core = cfg.numCores - 1 then 0 else core + 1 := by
    intro time before
    rw [(idle_tick (launch.idle time before)).1, Walk.dispatch, fired, firing_eq cores]
    cases (run time).walk.fire cfg.numCores (run time).coreReady <;> rfl
  have advances : ∀ time, time < bound → ∀ core, fired cfg run time = some core →
      (run (time + 1)).walk.rr = (core + 1) % cfg.numCores := by
    intro time before core found
    have inRange := circularFirst_lt (chooses time core found).2
    rw [next time before, found]
    show (if core = cfg.numCores - 1 then 0 else core + 1) = _
    split_ifs with last
    · rw [last, Nat.sub_add_cancel cfg.numCores_pos, Nat.mod_self]
    · rw [Nat.mod_eq_of_lt (by omega)]
  have waits : ∀ time, time < bound → fired cfg run time = none →
      (run (time + 1)).walk.rr = (run time).walk.rr := by
    intro time before quiet
    rw [next time before, quiet]
    rfl
  refine ⟨fun time before => ?_, fun time _ core found => (chooses time core found).2,
    advances, waits⟩
  induction time with
  | zero =>
      rw [(pulse_tick launch.pulse).1]
      exact pointer
  | succ time inductionHypothesis =>
      have previous := inductionHypothesis (by omega)
      cases found : fired cfg run time with
      | none => rwa [waits time (by omega) found]
      | some core =>
          rw [advances time (by omega) core found]
          exact Nat.mod_lt _ cfg.numCores_pos

/-- The walk so far has fired as many blocks as cores have taken one. -/
theorem walked
    (launch : LaunchRun cfg m bound run)
    (positive : m.dcr.grid.Positive)
    {time : Nat}
    (before : time ≤ bound) :
    ∃ blocks : List Dim3, blocks.length = dispatched (fired cfg run) time ∧
      Dim3.Walked m.dcr.grid (m.dcr.blockSize != 0) blocks (run time).walk.block
        (run time).walk.running := by
  have cores := numCores_le_of_tick launch.pulse
  induction time with
  | zero =>
      refine ⟨[], rfl, ?_⟩
      rw [(pulse_tick launch.pulse).1, Walk.launch_eq cfg.numCores positive]
      exact Dim3.Walked.launch positive _
  | succ time inductionHypothesis =>
      obtain ⟨blocks, length, walked⟩ := inductionHypothesis (by omega)
      refine ⟨blocks ++ (run time).walk.firedBlock cfg.numCores (run time).coreReady,
        ?_, ?_⟩
      · rw [List.length_append, length, dispatched, fired, firing_eq cores, Walk.firedBlock]
        cases (run time).walk.fire cfg.numCores (run time).coreReady <;> rfl
      · have sameGrid : m.dcr.grid = (run time).dcr.grid := by
          rw [launch.dcr_eq (by omega)]
        rw [(idle_tick (launch.idle time before)).1]
        rw [sameGrid] at walked ⊢
        exact Walk.walked_dispatch walked _

/-- The block that a core takes is the next one of the enumeration. -/
theorem block_eq
    (launch : LaunchRun cfg m bound run)
    (positive : m.dcr.grid.Positive)
    {time core : Nat}
    (before : time ≤ bound)
    (found : fired cfg run time = some core) :
    dispatched (fired cfg run) time < m.dcr.grid.count ∧
      (run time).walk.block =
        m.dcr.grid.blockAt (dispatched (fired cfg run) time) := by
  obtain ⟨blocks, length, walked⟩ := launch.walked positive before
  have running : (run time).walk.running = true := by
    rw [fired, firing] at found
    split_ifs at found with running
    exact running
  have inRange := (walked.running_iff.mp running).2
  exact length ▸ ⟨inRange, walked.current inRange⟩

/-- A core that takes a block latches its identity. -/
theorem cta_of_fired
    (launch : LaunchRun cfg m bound run)
    (positive : m.dcr.grid.Positive)
    {time core : Nat}
    (before : time < bound)
    (inRange : core < cfg.numCores)
    (found : fired cfg run time = some core) :
    ((run (time + 1)).cores core).cta =
        (blockRegisters m.dcr (dispatched (fired cfg run) time)).cta ∧
      ((run (time + 1)).cores core).ctaActive = true := by
  have fires : ((run time).firing cfg == some core) = true := beq_iff_eq.mpr found
  have registers : (run time).launchRegisters =
      blockRegisters m.dcr (dispatched (fired cfg run) time) := by
    rw [launchRegisters, launch.dcr_eq before.le,
      (launch.block_eq positive before.le found).2]
    rfl
  rw [tick_cores (launch.idle time before) rfl inRange, fires, registers]
  exact ⟨rfl, rfl⟩

/-- A core that has taken a block during the launch keeps the identity of the
last one. -/
theorem exists_cta
    (launch : LaunchRun cfg m bound run)
    (positive : m.dcr.grid.Positive)
    {time core : Nat}
    (before : time ≤ bound)
    (inRange : core < cfg.numCores)
    (took : ∃ edge, edge < time ∧ fired cfg run edge = some core) :
    ∃ edge, edge < time ∧ fired cfg run edge = some core ∧
      ((run time).cores core).cta =
        (blockRegisters m.dcr (dispatched (fired cfg run) edge)).cta := by
  induction time with
  | zero =>
      obtain ⟨edge, early, _⟩ := took
      exact absurd early (Nat.not_lt_zero edge)
  | succ time inductionHypothesis =>
      by_cases now : fired cfg run time = some core
      · exact ⟨time, Nat.lt_succ_self time, now,
          (launch.cta_of_fired positive before inRange now).1⟩
      · have earlier : ∃ edge, edge < time ∧ fired cfg run edge = some core := by
          obtain ⟨edge, early, found⟩ := took
          refine ⟨edge, Nat.lt_of_le_of_ne (Nat.le_of_lt_succ early) ?_, found⟩
          rintro rfl
          exact now found
        obtain ⟨edge, early, found, kept⟩ := inductionHypothesis (by omega) earlier
        refine ⟨edge, by omega, found, ?_⟩
        have noFire : ((run time).firing cfg == some core) = false := beq_eq_false_iff_ne.mpr now
        rw [tick_cores (launch.idle time before) rfl inRange, noFire, Core.cta_stepCore]
        exact kept

end LaunchRun

end Model

end OpenGPU
