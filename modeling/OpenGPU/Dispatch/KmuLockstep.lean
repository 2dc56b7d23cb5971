import OpenGPU.Cycle.Launch
import OpenGPU.Cycle.Packing

/-!
# Lockstep of the dispatcher registers

One edge of the SystemVerilog dispatcher against one `cycle_diff_step`. The RTL
reads every register before the edge. The cycle model applies the configuration
write first, so a launch or a dispatch on the same edge already sees the written
register.
-/

namespace OpenGPU

open Verilog

/-- The registers of the cycle model and those of the dispatcher hold the same
values. -/
structure SameKmu {numCores : Nat} (dcr : DcrRegisters) (walk : Walk)
    (kmu : GPUKmu numCores) : Prop where
  startup : dcr.startup = kmu.startupPc
  args : dcr.args = kmu.argsAddr
  argsSize : dcr.argsSize = kmu.argsSize
  dim : dcr.dim = kmu.blockDim
  grid : dcr.grid = kmu.gridDim
  blockSize : dcr.blockSize = kmu.blockSize
  block : walk.block = kmu.blockIdx
  running : walk.running = kmu.running
  rr : walk.rr = kmu.rrCore.toNat

/-- The pins of one edge as the cycle model samples them. -/
def Inputs.ofPins (dcr : DcrIf) (launch : Bool) : Inputs where
  reset := false
  dcrValid := dcr.valid
  dcrAddr := dcr.addr.setWidth 32
  dcrData := dcr.data
  launch := launch

/-- The configuration registers after the write of an edge. -/
def DcrRegisters.after (dcr : DcrIf) (r : DcrRegisters) : DcrRegisters :=
  if dcr.valid then r.write (dcr.addr.setWidth 32) dcr.data else r

/-- A launch with these registers starts a walk. -/
def DcrRegisters.launchable (r : DcrRegisters) : Bool :=
  r.blockSize != 0 && r.grid.x != 0 && r.grid.y != 0 && r.grid.z != 0

/-- The twelve address pins select the same register in both. -/
theorem setWidth_eq_iff
    (addr number : BitVec 12) :
    addr.setWidth 32 = number.setWidth 32 ↔ addr = number := by
  constructor
  · intro same
    have narrowed := congrArg (BitVec.setWidth 12) same
    simpa using narrowed
  · rintro rfl
    rfl

/-- The configuration registers of the dispatcher as the cycle model keeps them. -/
def DcrRegisters.ofConfig (c : KmuConfig) : DcrRegisters where
  startup := c.startupPc
  args := c.argsAddr
  argsSize := c.argsSize
  dim := c.blockDim
  grid := c.gridDim
  blockSize := c.blockSize

/-- The two switches over the configuration address write the same register. -/
theorem DcrRegisters.write_ofConfig
    (addr : BitVec 12)
    (data : Word)
    (c : KmuConfig) :
    (DcrRegisters.ofConfig c).write (addr.setWidth 32) data =
      DcrRegisters.ofConfig (c.write addr data) := by
  have sel010 : addr.setWidth 32 = 0x10 ↔ addr = 0x010 :=
    setWidth_eq_iff addr 0x010
  have sel011 : addr.setWidth 32 = 0x11 ↔ addr = 0x011 :=
    setWidth_eq_iff addr 0x011
  have sel012 : addr.setWidth 32 = 0x12 ↔ addr = 0x012 :=
    setWidth_eq_iff addr 0x012
  have sel013 : addr.setWidth 32 = 0x13 ↔ addr = 0x013 :=
    setWidth_eq_iff addr 0x013
  have sel014 : addr.setWidth 32 = 0x14 ↔ addr = 0x014 :=
    setWidth_eq_iff addr 0x014
  have sel015 : addr.setWidth 32 = 0x15 ↔ addr = 0x015 :=
    setWidth_eq_iff addr 0x015
  have sel016 : addr.setWidth 32 = 0x16 ↔ addr = 0x016 :=
    setWidth_eq_iff addr 0x016
  have sel017 : addr.setWidth 32 = 0x17 ↔ addr = 0x017 :=
    setWidth_eq_iff addr 0x017
  have sel018 : addr.setWidth 32 = 0x18 ↔ addr = 0x018 :=
    setWidth_eq_iff addr 0x018
  have sel019 : addr.setWidth 32 = 0x19 ↔ addr = 0x019 :=
    setWidth_eq_iff addr 0x019
  unfold DcrRegisters.write KmuConfig.write
  simp only [sel010, sel011, sel012, sel013, sel014, sel015, sel016, sel017, sel018, sel019,
    apply_ite DcrRegisters.ofConfig]
  rfl

section SameKmu

variable {numCores : Nat} {dcr : DcrRegisters} {walk : Walk} {kmu : GPUKmu numCores}

/-- The configuration registers agree as a whole. -/
theorem SameKmu.dcr_eq
    (same : SameKmu dcr walk kmu) :
    dcr = DcrRegisters.ofConfig kmu.toKmuConfig := by
  cases dcr
  exact (DcrRegisters.mk.injEq ..).mpr
    ⟨same.startup, same.args, same.argsSize, same.dim, same.grid, same.blockSize⟩

/-- A configuration write changes both sides alike. -/
theorem SameKmu.dcrWrite
    (same : SameKmu dcr walk kmu)
    (pins : DcrIf) :
    SameKmu (dcr.after pins) walk (kmu.dcrWrite pins) := by
  unfold DcrRegisters.after GPUKmu.dcrWrite
  cases pins.valid with
  | false => exact { same with }
  | true =>
      rw [if_pos rfl, if_pos rfl, same.dcr_eq, DcrRegisters.write_ofConfig]
      exact ⟨rfl, rfl, rfl, rfl, rfl, rfl, same.block, same.running, same.rr⟩

/-- On a launch edge both start at block zero, and both are running if and only
if the write of that edge does not change whether the registers admit a
launch. -/
theorem SameKmu.launch_iff
    (same : SameKmu dcr walk kmu)
    (pins : DcrIf)
    (coreReady : Nat → Bool)
    (fire : Option Nat) :
    SameKmu (dcr.after pins) (walk.step numCores true (dcr.after pins) fire)
        (kmu.posedge false pins true coreReady) ↔
      (dcr.after pins).launchable = dcr.launchable := by
  have written := same.dcrWrite pins
  have rtl : dcr.launchable =
      (kmu.blockSize != 0 && kmu.gridDim.x != 0 && kmu.gridDim.y != 0 &&
        kmu.gridDim.z != 0) := by
    rw [DcrRegisters.launchable, same.blockSize, same.grid]
  constructor
  · intro after
    rw [rtl]
    exact after.running
  · intro unchanged
    exact
      { written with
        block := rfl
        running := by
          rw [rtl] at unchanged
          exact unchanged
        rr := same.rr }

/-- On an edge without launch that dispatches nothing both sides agree. -/
theorem SameKmu.wait
    (same : SameKmu dcr walk kmu)
    (pins : DcrIf)
    {coreReady : Nat → Bool}
    (quiet : kmu.ctaFire coreReady = false) :
    SameKmu (dcr.after pins) (walk.step numCores false (dcr.after pins) none)
      (kmu.posedge false pins false coreReady) := by
  have waits : kmu.posedge false pins false coreReady = kmu.dcrWrite pins := by
    unfold GPUKmu.posedge
    rw [if_neg Bool.false_ne_true, if_neg Bool.false_ne_true, quiet, if_neg Bool.false_ne_true]
  rw [waits]
  exact same.dcrWrite pins

/-- On an edge without launch that dispatches a block, both sides agree if and
only if the written grid leads to the same next block as the grid before. -/
theorem SameKmu.dispatch_iff
    (same : SameKmu dcr walk kmu)
    (pins : DcrIf)
    {coreReady : Nat → Bool}
    {core : Nat}
    (running : kmu.running = true)
    (found : kmu.firstReady coreReady = some core) :
    SameKmu (dcr.after pins) (walk.step numCores false (dcr.after pins) (some core))
        (kmu.posedge false pins false coreReady) ↔
      Dim3.next (dcr.after pins).grid walk.block = Dim3.next dcr.grid walk.block := by
  have fires : kmu.ctaFire coreReady = true := by
    rw [GPUKmu.ctaFire_eq, running, found]
    rfl
  have edge : kmu.posedge false pins false coreReady =
      { kmu.dcrWrite pins with
        rrCore := kmu.rrCoreNext coreReady
        blockIdx := (Dim3.next dcr.grid walk.block).1
        running := !(Dim3.next dcr.grid walk.block).2 } := by
    unfold GPUKmu.posedge
    rw [if_neg Bool.false_ne_true, if_neg Bool.false_ne_true, if_pos fires,
      GPUKmu.blockIdxNext_eq, GPUKmu.runningNext_eq, running, same.grid, same.block,
      Bool.true_and]
  have written := same.dcrWrite pins
  have pointer : (if core = numCores - 1 then 0 else core + 1) =
      (kmu.rrCoreNext coreReady).toNat := by
    have inRange := circularFirst_lt found
    rw [GPUKmu.toNat_rrCoreNext found]
    split_ifs with last
    · rw [last, Nat.sub_add_cancel (by omega), Nat.mod_self]
    · rw [Nat.mod_eq_of_lt (by omega)]
  rw [edge]
  constructor
  · intro after
    apply Prod.ext
    · exact after.block
    · have stops := after.running
      have runs : (walk.running && !(Dim3.next (dcr.after pins).grid walk.block).2) =
          !(Dim3.next dcr.grid walk.block).2 := stops
      rw [same.running, running, Bool.true_and] at runs
      exact Bool.not_inj runs
  · intro sameNext
    exact
      { written with
        block := congrArg Prod.fst sameNext
        running := by
          show (walk.running && !(Dim3.next (dcr.after pins).grid walk.block).2) = _
          rw [sameNext, same.running, running, Bool.true_and]
        rr := pointer }

end SameKmu

namespace Model

variable {cfg : Config} {m : Model} {kmu : GPUKmu cfg.numCores}

/-- The edge carries no write that the rest of the same edge looks at: it does
not change whether a launch on this edge is admitted, nor where a dispatch on
this edge carries to. -/
def WriteUnobserved (cfg : Config) (m : Model) (pins : DcrIf) (launch : Bool) : Prop :=
  if launch then (m.dcr.after pins).launchable = m.dcr.launchable
  else (m.firing cfg).isSome = true →
    Dim3.next (m.dcr.after pins).grid m.walk.block = Dim3.next m.dcr.grid m.walk.block

/-- Every shift and every division of the step, that of packing included, is one
that C++ defines. -/
structure EdgeDefined (cfg : Config) (m : Model) : Prop where
  step : m.clockDefined cfg = true
  warps : ∀ i, i < cfg.numCores → ∀ w, w < cfg.numWarps →
    (m.cores i).validNext cfg m.launchRegisters (m.firing cfg == some i) w = true → w < 32
  lanes : ∀ i, i < cfg.numCores → ∀ t ∈ (m.cores i).laneNext cfg (m.firing cfg == some i), t < 32

/-- A step that is defined is on at most 32 cores. -/
theorem numCores_le_of_clockDefined
    (defined : m.clockDefined cfg = true) :
    cfg.numCores ≤ 32 := by
  rw [clockDefined, List.all_eq_true] at defined
  have last := defined (cfg.numCores - 1)
    (List.mem_range.mpr (Nat.sub_lt cfg.numCores_pos Nat.one_pos))
  rw [Bool.and_eq_true, decide_eq_true_eq] at last
  omega

/-- Outside reset a tick has a result when its shifts and divisions are
defined. -/
theorem isSome_tick_iff
    {inputs : Inputs}
    (noReset : inputs.reset = false) :
    (m.tick cfg inputs).isSome = true ↔ m.EdgeDefined cfg := by
  have outside : ¬(cycleDiffSetInputs inputs m).inputs.reset = true := by
    rw [cycleDiffSetInputs, noReset]
    exact Bool.false_ne_true
  have stepped : ∀ i, i < cfg.numCores → ((cycleDiffSetInputs inputs m).clock cfg).cores i =
      (m.cores i).stepCore cfg m.mem m.launchRegisters i (m.firing cfg == some i) :=
    fun i inRange => if_pos inRange
  have packs : ((cycleDiffSetInputs inputs m).clock cfg).packDefined cfg = true ↔
      cfg.numCores ≤ 32 ∧ ∀ i, i < cfg.numCores →
        (∀ w, w < cfg.numWarps →
          (m.cores i).validNext cfg m.launchRegisters (m.firing cfg == some i) w = true →
            w < 32) ∧
        ∀ t ∈ (m.cores i).laneNext cfg (m.firing cfg == some i), t < 32 := by
    rw [packDefined_iff]
    refine and_congr_right fun _ => forall_congr' fun i => imp_congr_right fun inRange => ?_
    rw [stepped i inRange, packs_stepCore_iff]
  unfold tick cycleDiffStep
  rw [if_neg outside, show (cycleDiffSetInputs inputs m).clockDefined cfg = m.clockDefined cfg
    from rfl]
  constructor
  · intro made
    split_ifs at made with defined
    · rw [pack] at made
      split_ifs at made with packed
      · obtain ⟨_, fits⟩ := packs.mp packed
        exact ⟨defined, fun i inRange => (fits i inRange).1, fun i inRange => (fits i inRange).2⟩
      · exact absurd made Bool.false_ne_true
    · exact absurd made Bool.false_ne_true
  · rintro ⟨defined, warps, lanes⟩
    rw [if_pos defined, pack, if_pos (packs.mpr ⟨numCores_le_of_clockDefined defined,
      fun i inRange => ⟨warps i inRange, lanes i inRange⟩⟩)]
    rfl

/-- A defined tick moves the dispatcher registers in sequence: the write, then
the walk on the written registers. -/
theorem dispatcher_tick
    {pins : DcrIf}
    {launch : Bool}
    {next : Model}
    (defined : m.tick cfg (Inputs.ofPins pins launch) = some next) :
    next.dcr = m.dcr.after pins ∧
      next.walk = m.walk.step cfg.numCores launch (m.dcr.after pins) (m.firing cfg) := by
  rcases tick_eq_some defined with ⟨reset, _⟩ | ⟨_, result, _⟩
  · exact absurd reset Bool.false_ne_true
  · rw [result]
    exact ⟨rfl, rfl⟩

/-- The cycle model fires when the dispatcher does, for the same core. -/
theorem firing_eq_firstReady
    (cores : cfg.numCores ≤ 32)
    (same : SameKmu m.dcr m.walk kmu) :
    m.firing cfg = if kmu.running then kmu.firstReady m.coreReady else none := by
  rw [firing_eq cores, Walk.fire, same.running, same.rr]
  rfl

/-- A defined tick and an edge leave the same register values when the rest of the edge does
not look at what the edge writes. -/
theorem sameKmu_tick_iff
    (same : SameKmu m.dcr m.walk kmu)
    {pins : DcrIf}
    {launch : Bool}
    {next : Model}
    (defined : m.tick cfg (Inputs.ofPins pins launch) = some next) :
    SameKmu next.dcr next.walk (kmu.posedge false pins launch m.coreReady) ↔
      m.WriteUnobserved cfg pins launch := by
  obtain ⟨dcr, walk⟩ := dispatcher_tick defined
  have firing := firing_eq_firstReady (numCores_le_of_tick defined) same
  rw [dcr, walk, WriteUnobserved]
  cases launch with
  | true =>
      rw [if_pos rfl]
      exact same.launch_iff pins m.coreReady _
  | false =>
      rw [if_neg Bool.false_ne_true]
      have fires := GPUKmu.ctaFire_eq m.coreReady kmu
      cases found : m.firing cfg with
      | none =>
          have quiet : kmu.ctaFire m.coreReady = false := by
            rw [fires]
            rw [found] at firing
            cases running : kmu.running with
            | false => rfl
            | true =>
                rw [running, if_pos rfl] at firing
                rw [← firing]
                rfl
          exact iff_of_true (same.wait pins quiet) fun fired => absurd fired Bool.false_ne_true
      | some core =>
          rw [found] at firing
          cases running : kmu.running with
          | false =>
              rw [running, if_neg Bool.false_ne_true] at firing
              exact absurd firing (Option.some_ne_none core)
          | true =>
              rw [running, if_pos rfl] at firing
              rw [same.dispatch_iff pins running firing.symm]
              exact ⟨fun unobserved _ => unobserved, fun unobserved => unobserved rfl⟩

/-- For every state of the dispatcher registers, every set of ready cores and
every combination of a configuration write with a launch or a dispatch: one edge
of the SystemVerilog dispatcher and one step of the cycle model leave the same
register values if and only if C++ defines the step and the rest of the edge does
not look at what the edge writes. -/
theorem kmu_lockstep_iff
    (same : SameKmu m.dcr m.walk kmu)
    (pins : DcrIf)
    (launch : Bool) :
    (∃ next, m.tick cfg (Inputs.ofPins pins launch) = some next ∧
        SameKmu next.dcr next.walk (kmu.posedge false pins launch m.coreReady)) ↔
      m.EdgeDefined cfg ∧ m.WriteUnobserved cfg pins launch := by
  rw [← @isSome_tick_iff _ _ (Inputs.ofPins pins launch) rfl]
  rw [Option.isSome_iff_exists, ← exists_and_right]
  apply exists_congr
  exact fun next => and_congr_right fun defined => sameKmu_tick_iff same defined

/-- A model in the middle of a walk over two blocks. -/
def midWalk : Model :=
  { fresh with
    dcr := { DcrRegisters.fresh with grid := ⟨2, 1, 1⟩ }
    walk := ⟨Dim3.zero, true, 0⟩ }

/-- The dispatcher in the middle of the same walk. -/
def midWalkKmu : GPUKmu Config.twoCores.numCores :=
  { (GPUKmu.fresh : GPUKmu Config.twoCores.numCores) with
    gridDim := ⟨2, 1, 1⟩
    running := true }

theorem sameKmu_midWalk : SameKmu midWalk.dcr midWalk.walk midWalkKmu :=
  ⟨rfl, rfl, rfl, rfl, rfl, rfl, rfl, rfl, by decide⟩

theorem edgeDefined_midWalk : midWalk.EdgeDefined Config.twoCores :=
  ⟨by decide, by decide, by decide⟩

/-- A write of the entry address on a dispatch edge. -/
theorem kmu_lockstep_midWalk :
    ∃ next, midWalk.tick Config.twoCores (Inputs.ofPins ⟨true, 0x010, 0x80000000⟩ false) =
        some next ∧
      SameKmu next.dcr next.walk
        (midWalkKmu.posedge false ⟨true, 0x010, 0x80000000⟩ false midWalk.coreReady) :=
  (kmu_lockstep_iff sameKmu_midWalk _ _).mpr ⟨edgeDefined_midWalk, fun _ => by decide⟩

/-- A write of the grid on a dispatch edge, as the configuration of the next
launch makes it after a launch that ended early: the dispatcher goes on to
block 1 of the old grid, the cycle model has no block left. -/
theorem not_kmu_lockstep_midWalk :
    midWalk.EdgeDefined Config.twoCores ∧
      (midWalkKmu.posedge false ⟨true, 0x016, 1⟩ false midWalk.coreReady).running = true ∧
      ∀ next, midWalk.tick Config.twoCores (Inputs.ofPins ⟨true, 0x016, 1⟩ false) = some next →
        next.walk.running = false := by
  refine ⟨edgeDefined_midWalk, by decide, fun next defined => ?_⟩
  rw [(dispatcher_tick defined).2]
  decide

end Model

end OpenGPU
