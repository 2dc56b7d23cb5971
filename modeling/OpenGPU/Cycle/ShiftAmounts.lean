import OpenGPU.Cycle.Fairness
import OpenGPU.Cycle.PathStack

/-!
# Sets of lanes, warps and cores in one word

The cycle model keeps sets of lanes, warps and cores as `uint32_t` and reaches a member
with `1u << i`. `Kconfig` admits 64 of each. The lists here hold the amounts of these
shifts in the order of the sources, repetitions of a whole loop left out.
-/

namespace OpenGPU

namespace Core

open Instruction

/-- The lanes by which `step_core` shifts. -/
def stepShifts (cfg : Config) (launch : LaunchRegisters) (fire : Bool) (c : Core) : List Nat :=
  if fire then
    (List.range cfg.numWarps).flatMap fun w =>
      (List.range cfg.numThreads).filter fun t =>
        BitVec.ofNat 32 (w * cfg.numThreads + t) < launch.blockSize
  else if !c.ctaActive then []
  else
    match c.state with
    | .exec =>
        if badRegister c.inst || opcode c.inst == 0x03 || opcode c.inst == 0x23 ||
          c.inst == ebreak then []
        else List.range cfg.numThreads
    | .memReq => [c.mt]
    | _ => []

/-- The lane that the capture of stores tests. -/
def captureShifts (c : Core) : List Nat :=
  if c.ctaActive ∧ c.state = .memReq then [c.mt] else []

/-- The warps and the lane by which `pack` shifts for one core. -/
def packShifts (cfg : Config) (c : Core) : List Nat :=
  (List.range cfg.numWarps).filter c.valid ++
    if c.state = .memReq ∨ c.state = .memResp then [c.mt] else []

end Core

namespace Model

/-- The cores that enter `ready` and `busy`. -/
def readyShifts (cfg : Config) (m : Model) : List Nat :=
  (List.range cfg.numCores).filter m.coreReady ++
    (List.range cfg.numCores).filter fun i => (m.cores i).ctaActive

/-- The cores that the arbiter tests, up to the one that it selects. -/
def arbiterShifts (cfg : Config) (m : Model) : List Nat :=
  (circularOrder cfg.numCores m.walk.rr).takeWhile (fun x => !hasLane (m.readyMask cfg) x) ++
    (m.selected cfg).toList

/-- The shifts of a step outside reset, without those of `pack`. -/
def clockShifts (cfg : Config) (m : Model) : List Nat :=
  m.readyShifts cfg ++ m.arbiterShifts cfg ++
    ((List.range cfg.numCores).flatMap fun i => (m.cores i).captureShifts) ++
    (List.range cfg.numCores).flatMap fun i =>
      (m.cores i).stepShifts cfg m.launchRegisters (m.firing cfg == some i)

/-- The shifts of `pack`. -/
def packShifts (cfg : Config) (m : Model) : List Nat :=
  m.readyShifts cfg ++ ((List.range cfg.numCores).filter fun i => !(m.cores i).ctaActive) ++
    m.arbiterShifts cfg ++ (m.firing cfg).toList ++
    (List.range cfg.numCores).flatMap fun i => (m.cores i).packShifts cfg

/-- The shifts of `cycle_diff_step`. -/
def stepShifts (cfg : Config) (m : Model) : List Nat :=
  if m.inputs.reset then packShifts cfg { fresh with mem := m.mem, active := m.active }
  else m.clockShifts cfg ++ packShifts cfg (m.clock cfg)

/-- No shift leaves the word, so that different members have different bits. -/
structure Faithful (shifts : List Nat) : Prop where
  defined : ∀ i ∈ shifts, i < 32
  distinct : ∀ i ∈ shifts, ∀ j ∈ shifts, i ≠ j → laneBit 32 i ≠ laneBit 32 j

/-- What the host does: every launch that it starts has passed `gpu_launch`, with a block
of at most `largest` threads. It may write the registers of the next launch while blocks
of the last one are left, as it does after a `gpu_wait` that returns early, and the block
size among them is within the same limit. -/
structure Allowed (cfg : Config) (largest : Nat) (inputs : Inputs) (m : Model) : Prop where
  configures : inputs.dcrValid = true → m.walk.running = true →
    (cycleDiffSetInputs inputs m).dcrNext.blockSize.toNat ≤ largest
  launches : inputs.launch = true → ∃ info : LaunchInfo, ∃ blockSize,
    info.gpuLaunchBlockSize cfg = some blockSize ∧ blockSize.toNat ≤ largest ∧
      (cycleDiffSetInputs inputs m).dcrNext = info.registers blockSize

/-- The states that the model reaches under such a host. -/
inductive HostRun (cfg : Config) (largest : Nat) : Model → Prop
  | init {m : Model} (started : cycleDiffInit cfg = some m) : HostRun cfg largest m
  | load {m : Model} (pmem : Pmem) (reached : HostRun cfg largest m) :
      HostRun cfg largest (cycleDiffBegin cfg pmem m)
  | tick {m next : Model} (inputs : Inputs) (reached : HostRun cfg largest m)
      (allowed : Allowed cfg largest inputs m) (defined : m.tick cfg inputs = some next) :
      HostRun cfg largest next

/-- Every shift of every run is faithful, and a core that takes a block has exactly the
lanes inside the block in the masks of its warps. -/
structure FaithfulSets (cfg : Config) (largest : Nat) : Prop where
  init : Faithful (packShifts cfg fresh)
  step : ∀ m, HostRun cfg largest m → ∀ inputs, Allowed cfg largest inputs m →
    Faithful ((cycleDiffSetInputs inputs m).stepShifts cfg)
  accept : ∀ m, HostRun cfg largest m → ∀ inputs, Allowed cfg largest inputs m →
    inputs.reset = false → ∀ core, m.firing cfg = some core → ∀ next,
    m.tick cfg inputs = some next → ∀ w t, w < cfg.numWarps → t < cfg.numThreads →
    (hasLane ((next.cores core).mask w) t = true ↔
      w * cfg.numThreads + t < m.dcr.blockSize.toNat)

/-- Shifts below the width of the word are faithful. -/
theorem faithful_of_lt
    {shifts : List Nat}
    (defined : ∀ i ∈ shifts, i < 32) :
    Faithful shifts := by
  refine ⟨defined, fun i member j _ different same => different ?_⟩
  have own : hasLane (laneBit 32 i) i = true := by
    rw [hasLane_laneBit, decide_eq_true (defined i member), decide_eq_true rfl]
    rfl
  rw [same, hasLane_laneBit, Bool.and_eq_true, decide_eq_true_eq, decide_eq_true_eq] at own
  exact own.2.symm

/-! ## Topologies whose sets fit in a word -/

section Fits

variable {cfg : Config} {largest : Nat} {m next : Model}

/-- The lists of core numbers name cores. -/
theorem lt_of_mem_readyShifts
    {i : Nat}
    (member : i ∈ m.readyShifts cfg) :
    i < cfg.numCores := by
  rcases List.mem_append.mp member with ready | busy
  · exact List.mem_range.mp (List.mem_filter.mp ready).1
  · exact List.mem_range.mp (List.mem_filter.mp busy).1

theorem lt_of_mem_arbiterShifts
    {i : Nat}
    (member : i ∈ m.arbiterShifts cfg) :
    i < cfg.numCores := by
  rcases List.mem_append.mp member with tested | selected
  · exact lt_of_mem_circularOrder ((List.takeWhile_sublist _).subset tested)
  · exact circularFirst_lt (Option.mem_toList.mp selected)

/-- A core shifts by lanes of a warp. -/
theorem lt_of_mem_stepShifts
    {c : Core}
    (bounds : c.InBounds cfg)
    {launch : LaunchRegisters}
    {fire : Bool}
    {i : Nat}
    (member : i ∈ c.stepShifts cfg launch fire) :
    i < cfg.numThreads := by
  unfold Core.stepShifts at member
  split_ifs at member with fires inactive
  · obtain ⟨w, _, lanes⟩ := List.mem_flatMap.mp member
    exact List.mem_range.mp (List.mem_filter.mp lanes).1
  · exact absurd member List.not_mem_nil
  all_goals
    cases state : c.state <;> rw [state] at member <;> first
      | exact absurd member List.not_mem_nil
      | exact List.mem_range.mp member
      | exact (List.mem_singleton.mp member).symm ▸ bounds.mt

theorem lt_of_mem_captureShifts
    {c : Core}
    (bounds : c.InBounds cfg)
    {i : Nat}
    (member : i ∈ c.captureShifts) :
    i < cfg.numThreads := by
  unfold Core.captureShifts at member
  split_ifs at member
  · rw [List.mem_singleton.mp member]
    exact bounds.mt
  · exact absurd member List.not_mem_nil

/-- A warp that is valid holds lanes of a block with at most `largest` threads. -/
def WarpsFit (cfg : Config) (largest : Nat) (c : Core) : Prop :=
  ∀ w, w < cfg.numWarps → c.valid w = true → w * cfg.numThreads < largest

/-- `pack` shifts by valid warps and by a lane. -/
theorem lt_of_mem_packShifts
    {c : Core}
    (bounds : c.InBounds cfg)
    (warps : WarpsFit cfg largest c)
    (threads : cfg.numThreads ≤ 32)
    (small : largest ≤ 32 * cfg.numThreads)
    {i : Nat}
    (member : i ∈ c.packShifts cfg) :
    i < 32 := by
  rcases List.mem_append.mp member with warp | lane
  · obtain ⟨inRange, valid⟩ := List.mem_filter.mp warp
    have inside := warps i (List.mem_range.mp inRange) valid
    exact Nat.lt_of_mul_lt_mul_right (inside.trans_le small)
  · split_ifs at lane
    · rw [List.mem_singleton.mp lane]
      exact bounds.mt.trans_le threads
    · exact absurd lane List.not_mem_nil

/-- The shifts of a whole `pack`. -/
theorem lt_of_mem_modelPackShifts
    (bounds : ∀ core, core < cfg.numCores → (m.cores core).InBounds cfg)
    (warps : ∀ core, core < cfg.numCores → WarpsFit cfg largest (m.cores core))
    (cores : cfg.numCores ≤ 32)
    (threads : cfg.numThreads ≤ 32)
    (small : largest ≤ 32 * cfg.numThreads)
    {i : Nat}
    (member : i ∈ m.packShifts cfg) :
    i < 32 := by
  simp only [packShifts, List.mem_append, List.mem_flatMap, List.mem_range] at member
  obtain (((ready | done) | tested) | fires) | ⟨core, inRange, own⟩ := member
  · exact (lt_of_mem_readyShifts ready).trans_le cores
  · exact (List.mem_range.mp (List.mem_filter.mp done).1).trans_le cores
  · exact (lt_of_mem_arbiterShifts tested).trans_le cores
  · exact (firing_lt (Option.mem_toList.mp fires)).trans_le cores
  · exact lt_of_mem_packShifts (bounds core inRange) (warps core inRange) threads small own

/-- The shifts of a whole step. -/
theorem lt_of_mem_clockShifts
    (bounds : ∀ core, core < cfg.numCores → (m.cores core).InBounds cfg)
    (cores : cfg.numCores ≤ 32)
    (threads : cfg.numThreads ≤ 32)
    {i : Nat}
    (member : i ∈ m.clockShifts cfg) :
    i < 32 := by
  simp only [clockShifts, List.mem_append, List.mem_flatMap, List.mem_range] at member
  obtain ((ready | tested) | ⟨core, inRange, captured⟩) | ⟨core, inRange, own⟩ := member
  · exact (lt_of_mem_readyShifts ready).trans_le cores
  · exact (lt_of_mem_arbiterShifts tested).trans_le cores
  · exact (lt_of_mem_captureShifts (bounds core inRange) captured).trans_le threads
  · exact (lt_of_mem_stepShifts (bounds core inRange) own).trans_le threads

/-- While blocks are left they have at most `largest` threads, and the valid warps fit
the blocks of their cores. -/
structure BlocksFit (cfg : Config) (largest : Nat) (m : Model) : Prop where
  next : m.walk.running = true → m.dcr.blockSize.toNat ≤ largest
  warps : ∀ core, core < cfg.numCores → WarpsFit cfg largest (m.cores core)

theorem HostRun.reachable
    (reached : HostRun cfg largest m) :
    ∃ ledgers, Reachable cfg m ledgers := by
  induction reached with
  | init started => exact ⟨_, Reachable.init started⟩
  | load pmem _ inductionHypothesis =>
      obtain ⟨ledgers, reachable⟩ := inductionHypothesis
      exact ⟨ledgers, reachable.load pmem⟩
  | tick inputs _ _ defined inductionHypothesis =>
      obtain ⟨ledgers, reachable⟩ := inductionHypothesis
      exact ⟨_, reachable.tick inputs defined⟩

theorem HostRun.inBounds
    (reached : HostRun cfg largest m)
    (core : Nat)
    (inRange : core < cfg.numCores) :
    (m.cores core).InBounds cfg := by
  obtain ⟨ledgers, reachable⟩ := reached.reachable
  exact reachable.inBounds inRange

/-- A fresh core has no valid warp. -/
theorem warpsFit_fresh : WarpsFit cfg largest Core.fresh :=
  fun _ _ valid => Bool.noConfusion valid

/-- A core that steps keeps its warps within the block, and one that takes a block has
warps within the new block. -/
theorem warpsFit_stepCore
    {c : Core}
    (bounds : c.InBounds cfg)
    (warps : WarpsFit cfg largest c)
    (mem : ShadowMemory)
    (launch : LaunchRegisters)
    (cid : Nat)
    {fire : Bool}
    (taken : fire = true → launch.blockSize.toNat ≤ largest) :
    WarpsFit cfg largest (Core.stepCore cfg mem launch cid fire c) := by
  intro w inRange valid
  cases fire with
  | false => exact warps w inRange (Core.valid_of_valid_stepCore (fun _ _ => bounds.iw) valid)
  | true =>
      have inside := of_decide_eq_true (show decide
        (BitVec.ofNat 32 (w * cfg.numThreads) < launch.blockSize) = true from valid)
      have fits := cfg.contexts_lt
      have bound := cfg.context_lt inRange cfg.numThreads_pos
      rw [BitVec.lt_def, BitVec.toNat_ofNat, Nat.mod_eq_of_lt (by omega)] at inside
      exact inside.trans_le (taken rfl)

/-- One step outside reset keeps the blocks within the limit. -/
theorem BlocksFit.clock
    (fit : BlocksFit cfg largest m)
    (bounds : ∀ core, core < cfg.numCores → (m.cores core).InBounds cfg)
    {inputs : Inputs}
    (allowed : Allowed cfg largest inputs m) :
    BlocksFit cfg largest ((cycleDiffSetInputs inputs m).clock cfg) where
  next running := by
    have running : (m.walk.step cfg.numCores inputs.launch (cycleDiffSetInputs inputs m).dcrNext
        (m.firing cfg)).running = true := running
    show (cycleDiffSetInputs inputs m).dcrNext.blockSize.toNat ≤ largest
    cases launch : inputs.launch with
    | true =>
        obtain ⟨info, blockSize, _, small, registers⟩ := allowed.launches launch
        rw [registers]
        exact small
    | false =>
        rw [launch] at running
        unfold Walk.step at running
        rw [if_neg Bool.false_ne_true] at running
        have before : m.walk.running = true := by
          cases fires : m.firing cfg <;> rw [fires] at running
          · exact running
          · exact ((Bool.and_eq_true _ _).mp running).1
        by_cases writes : inputs.dcrValid = true
        · exact allowed.configures writes before
        · have same : (cycleDiffSetInputs inputs m).dcrNext = m.dcr := if_neg writes
          rw [same]
          exact fit.next before
  warps core inRange := by
    have step : ((cycleDiffSetInputs inputs m).clock cfg).cores core =
        (m.cores core).stepCore cfg m.mem m.launchRegisters core (m.firing cfg == some core) :=
      if_pos inRange
    rw [step]
    refine warpsFit_stepCore (bounds core inRange) (fit.warps core inRange) _ _ _ fun fires => ?_
    have running : m.walk.running = true := by
      rw [beq_iff_eq, firing] at fires
      split_ifs at fires with running
      exact running
    exact fit.next running

/-- In every run of an allowed host they stay within it. -/
theorem HostRun.blocksFit
    (reached : HostRun cfg largest m) :
    BlocksFit cfg largest m := by
  induction reached with
  | init started =>
      rw [(pack_eq_some started).1]
      exact ⟨fun running => Bool.noConfusion running, fun _ _ => warpsFit_fresh⟩
  | load pmem _ inductionHypothesis => exact ⟨inductionHypothesis.next, inductionHypothesis.warps⟩
  | tick inputs reached allowed defined inductionHypothesis =>
      rcases tick_eq_some defined with ⟨_, result⟩ | ⟨_, result, _⟩
      · rw [result]
        exact ⟨fun running => Bool.noConfusion running, fun _ _ => warpsFit_fresh⟩
      · have fit := inductionHypothesis.clock reached.inBounds allowed
        rw [result]
        exact ⟨fit.next, fit.warps⟩

/-- With at most 32 cores, 32 lanes a warp and 32 warps' worth of threads in a block
every set is faithful. -/
theorem faithfulSets_of_le
    (cores : cfg.numCores ≤ 32)
    (threads : cfg.numThreads ≤ 32)
    (small : largest ≤ 32 * cfg.numThreads) :
    FaithfulSets cfg largest where
  init := faithful_of_lt fun _ member => lt_of_mem_modelPackShifts
    (fun _ _ => Core.inBounds_fresh cfg) (fun _ _ => warpsFit_fresh) cores threads small member
  step m reached inputs allowed := by
    apply faithful_of_lt
    intro i member
    unfold stepShifts at member
    split_ifs at member
    · exact lt_of_mem_modelPackShifts (fun _ _ => Core.inBounds_fresh cfg)
        (fun _ _ => warpsFit_fresh) cores threads small member
    · rcases List.mem_append.mp member with clocked | packed
      · exact lt_of_mem_clockShifts reached.inBounds cores threads clocked
      · have fit := reached.blocksFit.clock reached.inBounds allowed
        refine lt_of_mem_modelPackShifts (fun core inRange => ?_) fit.warps cores threads small
          packed
        have step : ((cycleDiffSetInputs inputs m).clock cfg).cores core =
            (m.cores core).stepCore cfg m.mem m.launchRegisters core
              (m.firing cfg == some core) := if_pos inRange
        rw [step]
        exact (reached.inBounds core inRange).stepCore _ _ _ _
  accept m _ inputs _ running core fires next defined w t warp lane := by
    rw [tick_cores defined running (firing_lt fires), fires, Core.stepCore,
      if_pos (beq_self_eq_true _)]
    show hasLane (Core.initialMask cfg m.dcr.blockSize w) t = true ↔ _
    rw [hasLane_initialMask_iff threads _ warp, inBlock]
    exact and_iff_right lane

end Fits

/-! ## Topologies whose sets do not fit -/

section Overflow

open Instruction

variable {cfg : Config} {largest : Nat} {m : Model}

/-- `pack` is defined when its shifts are. -/
theorem packDefined_of_lt
    (cores : cfg.numCores ≤ 32)
    (defined : ∀ i ∈ m.packShifts cfg, i < 32) :
    m.packDefined cfg = true := by
  rw [packDefined, Bool.and_eq_true, decide_eq_true_eq, List.all_eq_true]
  refine ⟨cores, fun core member => ?_⟩
  have own : ∀ i ∈ (m.cores core).packShifts cfg, i < 32 := fun i inCore =>
    defined i (List.mem_append_right _ (List.mem_flatMap.mpr ⟨core, member, inCore⟩))
  rw [Bool.and_eq_true, List.all_eq_true]
  constructor
  · intro w warp
    cases valid : (m.cores core).valid w with
    | false => rfl
    | true =>
        exact decide_eq_true (own w (List.mem_append_left _ (List.mem_filter.mpr ⟨warp, valid⟩)))
  · by_cases memory : (m.cores core).state = .memReq ∨ (m.cores core).state = .memResp
    · have lane : (m.cores core).mt < 32 := by
        apply own
        rw [Core.packShifts, if_pos memory]
        exact List.mem_append_right _ List.mem_cons_self
      rw [decide_eq_true lane]
      exact Bool.or_true _
    · obtain ⟨request, response⟩ := not_or.mp memory
      rw [beq_eq_false_iff_ne.mpr request, beq_eq_false_iff_ne.mpr response]
      rfl

/-- A block whose extents can divide. -/
structure Divides (launch : LaunchRegisters) : Prop where
  x : launch.dim.x ≠ 0
  y : launch.dim.y ≠ 0
  plane : launch.dim.x * launch.dim.y ≠ 0

/-- `step_core` is defined when its shifts and divisions are. -/
theorem stepDefined_of_lt
    {c : Core}
    {launch : LaunchRegisters}
    {fire : Bool}
    (defined : ∀ i ∈ c.stepShifts cfg launch fire, i < 32)
    (divides : fire = true → Divides launch) :
    c.stepDefined cfg launch fire = true := by
  unfold Core.stepShifts at defined
  unfold Core.stepDefined
  cases fire with
  | true =>
      rw [if_pos rfl] at defined ⊢
      obtain ⟨x, y, plane⟩ := divides rfl
      rw [bne_iff_ne.mpr x, bne_iff_ne.mpr y, bne_iff_ne.mpr plane, Bool.and_true, Bool.and_true,
        Bool.and_true, List.all_eq_true]
      intro w warp
      rw [List.all_eq_true]
      intro t lane
      by_cases inside : BitVec.ofNat 32 (w * cfg.numThreads + t) < launch.blockSize
      · have small := defined t (List.mem_flatMap.mpr
          ⟨w, warp, List.mem_filter.mpr ⟨lane, decide_eq_true inside⟩⟩)
        rw [decide_eq_true small, Bool.or_true]
      · rw [decide_eq_false inside]
        rfl
  | false =>
      rw [if_neg Bool.false_ne_true] at defined ⊢
      cases active : c.ctaActive with
      | false => rfl
      | true =>
          rw [if_neg (by simp [active])] at defined
          cases state : c.state <;> rw [state] at defined
          case exec =>
            by_cases noLanes : (badRegister c.inst || opcode c.inst == 0x03 ||
                opcode c.inst == 0x23 || c.inst == ebreak) = true
            · exact (Bool.or_eq_true _ _).mpr (Or.inl noLanes)
            · have last := defined (cfg.numThreads - 1) (by
                rw [if_neg noLanes, List.mem_range]
                exact Nat.sub_lt cfg.numThreads_pos Nat.one_pos)
              exact (Bool.or_eq_true _ _).mpr (Or.inr (decide_eq_true (by omega)))
          case memReq => exact decide_eq_true (defined c.mt List.mem_cons_self)
          all_goals rfl

/-- A tick outside reset is defined when its shifts and divisions are. -/
theorem exists_tick
    {inputs : Inputs}
    (running : inputs.reset = false)
    (cores : cfg.numCores ≤ 32)
    (defined : ∀ i ∈ (cycleDiffSetInputs inputs m).stepShifts cfg, i < 32)
    (divides : (m.firing cfg).isSome = true → Divides m.launchRegisters) :
    ∃ next, m.tick cfg inputs = some next := by
  have noReset : ¬(cycleDiffSetInputs inputs m).inputs.reset = true := by
    rw [show (cycleDiffSetInputs inputs m).inputs.reset = false from running]
    exact Bool.false_ne_true
  rw [stepShifts, if_neg noReset] at defined
  have clocked : (cycleDiffSetInputs inputs m).clockDefined cfg = true := by
    rw [clockDefined, List.all_eq_true]
    intro core member
    have inRange := List.mem_range.mp member
    rw [decide_eq_true (inRange.trans_le cores), Bool.true_and]
    apply stepDefined_of_lt
    · intro i own
      apply defined
      refine List.mem_append_left _ (List.mem_append_right _ ?_)
      exact List.mem_flatMap.mpr ⟨core, member, own⟩
    · intro fires
      apply divides
      exact Option.isSome_iff_exists.mpr ⟨core, beq_iff_eq.mp fires⟩
  have packed : ((cycleDiffSetInputs inputs m).clock cfg).packDefined cfg = true :=
    packDefined_of_lt cores fun i member => defined i (List.mem_append_right _ member)
  rw [tick, cycleDiffStep, if_neg noReset, if_pos clocked, pack, if_pos packed]
  exact ⟨_, rfl⟩

/-- Stores do not change the size of the memory. -/
theorem size_clock :
    (m.clock cfg).mem.size = m.mem.size := by
  have byte : ∀ (s : Store) (mem : ShadowMemory) (b : Nat),
      (storeByte cfg s mem b).size = mem.size := by
    intro s mem b
    unfold storeByte
    extract_lets a
    split_ifs <;> rfl
  have kept : ∀ (s : Store) (bytes : List Nat) (mem : ShadowMemory),
      (bytes.foldl (storeByte cfg s) mem).size = mem.size := by
    intro s bytes
    induction bytes with
    | nil => exact fun _ => rfl
    | cons b bytes inductionHypothesis =>
        intro mem
        exact (inductionHypothesis _).trans (byte s mem b)
  have all : ∀ (stores : List Store) (mem : ShadowMemory),
      (stores.foldl (storeRef cfg) mem).size = mem.size := by
    intro stores
    induction stores with
    | nil => exact fun _ => rfl
    | cons s stores inductionHypothesis =>
        intro mem
        exact (inductionHypothesis _).trans (kept s _ mem)
  exact all _ _

/-- `pack` names every core. -/
theorem FaithfulSets.numCores_le
    (faithful : FaithfulSets cfg largest) :
    cfg.numCores ≤ 32 := by
  have last : cfg.numCores - 1 ∈ List.range cfg.numCores :=
    List.mem_range.mpr (Nat.sub_lt cfg.numCores_pos Nat.one_pos)
  have ready : cfg.numCores - 1 ∈ readyShifts cfg fresh :=
    List.mem_append_left _ (List.mem_filter.mpr ⟨last, rfl⟩)
  have bit : cfg.numCores - 1 < 32 := by
    apply faithful.init.defined
    exact List.mem_append_left _ (List.mem_append_left _ (List.mem_append_left _
      (List.mem_append_left _ ready)))
  omega

/-- While no block is left, a tick is defined and dispatches nothing. -/
theorem exists_quiet_tick
    (faithful : FaithfulSets cfg largest)
    (reached : HostRun cfg largest m)
    (quiet : m.walk.running = false)
    {inputs : Inputs}
    (running : inputs.reset = false)
    (noLaunch : inputs.launch = false) :
    ∃ next, HostRun cfg largest next ∧
      next.cores 0 = Core.stepCore cfg m.mem m.launchRegisters 0 false (m.cores 0) ∧
      next.walk = m.walk ∧ next.dcr = (cycleDiffSetInputs inputs m).dcrNext ∧
      next.mem.size = m.mem.size := by
  have noFire : m.firing cfg = none := firing_eq_none quiet
  have allowed : Allowed cfg largest inputs m := by
    refine ⟨fun _ left => Bool.noConfusion (quiet.symm.trans left), fun launch => ?_⟩
    rw [noLaunch] at launch
    exact Bool.noConfusion launch
  obtain ⟨next, defined⟩ := exists_tick running faithful.numCores_le
    (faithful.step m reached inputs allowed).defined (by
      rw [noFire]
      exact fun fires => Bool.noConfusion fires)
  refine ⟨next, reached.tick inputs allowed defined, ?_, ?_⟩
  · rw [tick_cores defined running cfg.numCores_pos, noFire]
    rfl
  · rcases tick_eq_some defined with ⟨reset, _⟩ | ⟨_, result, _⟩
    · rw [running] at reset
      exact Bool.noConfusion reset
    · rw [result]
      refine ⟨?_, rfl, size_clock⟩
      show m.walk.step cfg.numCores inputs.launch _ (m.firing cfg) = m.walk
      rw [noLaunch, noFire]
      rfl

/-- One block of threads in a line. -/
def lineLaunch (size : Nat) : LaunchInfo where
  entry := 0x81000000
  argsAddr := 0
  argsSize := 0
  gridDim := Dim3.one
  blockDim := ⟨BitVec.ofNat 32 size, 1, 1⟩

theorem mulU32_one
    (a : Word) :
    mulU32 a 1 = some a := by
  have fits : a.toNat * (1 : Word).toNat < 2 ^ 32 := (Nat.mul_one _).trans_lt a.isLt
  rw [mulU32, if_pos fits]
  exact congrArg some (BitVec.mul_one a)

/-- A number of lanes that a core has fits in a word. -/
theorem toNat_ofNat_of_le_contexts
    {size : Nat}
    (fits : size ≤ cfg.contexts) :
    (BitVec.ofNat 32 size).toNat = size := by
  rw [BitVec.toNat_ofNat]
  exact Nat.mod_eq_of_lt (fits.trans_lt cfg.contexts_lt)

/-- `gpu_launch` accepts it when a core has that many lanes. -/
theorem gpuLaunchBlockSize_lineLaunch
    {size : Nat}
    (positive : 0 < size)
    (fits : size ≤ cfg.contexts) :
    (lineLaunch size).gpuLaunchBlockSize cfg = some (BitVec.ofNat 32 size) := by
  have exact := toNat_ofNat_of_le_contexts fits
  have nonzero : (lineLaunch size).blockDim.x ≠ 0 := by
    intro zero
    rw [show (lineLaunch size).blockDim.x = BitVec.ofNat 32 size from rfl] at zero
    rw [zero] at exact
    exact positive.ne exact
  have onCore : ¬BitVec.ofNat 32 cfg.contexts < BitVec.ofNat 32 size := by
    rw [BitVec.lt_def, exact, BitVec.toNat_ofNat, Nat.mod_eq_of_lt cfg.contexts_lt]
    omega
  have total : mulU32 1 (BitVec.ofNat 32 size) = some (BitVec.ofNat 32 size) := by
    have small : (1 : Word).toNat * (BitVec.ofNat 32 size).toNat < 2 ^ 32 :=
      (Nat.one_mul _).trans_lt (BitVec.isLt _)
    rw [mulU32, if_pos small]
    exact congrArg some (BitVec.one_mul _)
  unfold LaunchInfo.gpuLaunchBlockSize
  rw [if_neg (by
    rintro (empty | empty | empty | empty | empty | empty)
    · exact absurd (show (1 : Word) = 0 from empty) (by decide)
    · exact nonzero empty
    all_goals exact absurd (show (1 : Word) = 0 from empty) (by decide))]
  show (mulU32 (BitVec.ofNat 32 size) 1).bind _ = _
  rw [mulU32_one, Option.bind_some]
  show (mulU32 (BitVec.ofNat 32 size) 1).bind _ = _
  rw [mulU32_one, Option.bind_some, if_neg onCore]
  show (mulU32 1 1).bind _ = _
  rw [mulU32_one, Option.bind_some]
  show (mulU32 1 1).bind _ = _
  rw [mulU32_one, Option.bind_some, total]
  rfl

/-- A launch of one block, before the first core has taken it. -/
structure Launched (cfg : Config) (largest : Nat) (m : Model) : Prop where
  reached : HostRun cfg largest m
  core : m.cores 0 = Core.fresh
  walk : m.walk = ⟨Dim3.zero, true, 0⟩
  dcr : m.dcr = (lineLaunch largest).registers (BitVec.ofNat 32 largest)
  size : m.mem.size = 0

/-- The first core has taken the block. -/
structure Taken (cfg : Config) (largest : Nat) (m : Model) : Prop where
  reached : HostRun cfg largest m
  quiet : m.walk.running = false
  size : m.mem.size = 0
  active : (m.cores 0).ctaActive = true
  sched : (m.cores 0).state = .sched
  first : (m.cores 0).rr = 0
  valid : (m.cores 0).valid 0 = true

/-- It has issued a warp. -/
structure Issued (cfg : Config) (largest : Nat) (m : Model) : Prop where
  reached : HostRun cfg largest m
  quiet : m.walk.running = false
  size : m.mem.size = 0
  active : (m.cores 0).ctaActive = true
  fetch : (m.cores 0).state = .fetch

/-- If every set is faithful, a block of `largest` threads can be launched. -/
theorem FaithfulSets.exists_launched
    (faithful : FaithfulSets cfg largest)
    (positive : 0 < largest)
    (fits : largest ≤ cfg.contexts) :
    ∃ m, Launched cfg largest m := by
  have idle : ∀ (mem : ShadowMemory) (launch : LaunchRegisters),
      Core.stepCore cfg mem launch 0 false Core.fresh = Core.fresh := fun _ _ => rfl
  obtain ⟨m0, started⟩ : ∃ m, cycleDiffInit cfg = some m := by
    rw [cycleDiffInit, pack, if_pos (packDefined_of_lt faithful.numCores_le faithful.init.defined)]
    exact ⟨_, rfl⟩
  have fresh0 := (pack_eq_some started).1
  -- two writes leave the registers of the launch
  obtain ⟨m1, reached1, core1, walk1, dcr1, size1⟩ := exists_quiet_tick faithful
    (HostRun.init started) (by rw [fresh0]; rfl)
    (show (Inputs.dcrWrite 0x13 (BitVec.ofNat 32 largest)).reset = false from rfl) rfl
  obtain ⟨m2, reached2, core2, walk2, dcr2, size2⟩ := exists_quiet_tick faithful
    reached1 (by rw [walk1, fresh0]; rfl)
    (show (Inputs.dcrWrite 0x19 (BitVec.ofNat 32 largest)).reset = false from rfl) rfl
  have core : m2.cores 0 = Core.fresh := by
    rw [core2, core1, fresh0]
    rfl
  have walk : m2.walk = Walk.fresh := by
    rw [walk2, walk1, fresh0]
    rfl
  have dcr : m2.dcr = (lineLaunch largest).registers (BitVec.ofNat 32 largest) := by
    rw [dcr2]
    show m1.dcr.write 0x19 _ = _
    rw [dcr1]
    show (m0.dcr.write 0x13 _).write 0x19 _ = _
    rw [fresh0]
    rfl
  have size : m2.mem.size = 0 := by
    rw [size2, size1, fresh0]
    rfl
  -- and the pulse starts it
  have noFire : m2.firing cfg = none := by
    rw [firing, walk]
    rfl
  have exact := toNat_ofNat_of_le_contexts fits
  have allowed : Allowed cfg largest .launchPulse m2 := by
    refine ⟨fun writes => Bool.noConfusion writes, fun _ => ?_⟩
    exact ⟨_, _, gpuLaunchBlockSize_lineLaunch positive fits, exact.le, dcr⟩
  obtain ⟨m3, defined⟩ := exists_tick (show Inputs.launchPulse.reset = false from rfl)
    faithful.numCores_le (faithful.step m2 reached2 _ allowed).defined (by
      rw [noFire]
      exact fun fires => Bool.noConfusion fires)
  obtain ⟨pulsed, same⟩ := pulse_tick defined
  refine ⟨m3, reached2.tick _ allowed defined, ?_, ?_, same.trans dcr, ?_⟩
  · rw [tick_cores defined rfl cfg.numCores_pos, noFire, core]
    exact idle _ _
  · rw [pulsed, walk, dcr]
    have nonzero : (BitVec.ofNat 32 largest != 0) = true := by
      rw [bne_iff_ne]
      intro zero
      rw [zero] at exact
      exact positive.ne exact
    show (⟨⟨0, 0, 0⟩, BitVec.ofNat 32 largest != 0 && _ && _ && _, 0⟩ : Walk) = _
    rw [nonzero]
    rfl
  · rcases tick_eq_some defined with ⟨reset, _⟩ | ⟨_, result, _⟩
    · exact Bool.noConfusion reset
    · rw [result]
      exact size_clock.trans size

namespace Launched

variable (launched : Launched cfg largest m)
include launched

/-- The first core takes the block. -/
theorem firing_eq_zero
    (cores : cfg.numCores ≤ 32) :
    m.firing cfg = some 0 := by
  have ready : m.coreReady 0 = true := by
    rw [coreReady, launched.core]
    rfl
  rw [firing_eq cores, launched.walk]
  exact circularFirst_start cfg.numCores_pos ready

/-- What the first core is after that. -/
theorem clock_core
    (cores : cfg.numCores ≤ 32) :
    ((cycleDiffSetInputs .idle m).clock cfg).cores 0 =
      Core.acceptCta cfg m.launchRegisters Core.fresh := by
  have step : ((cycleDiffSetInputs .idle m).clock cfg).cores 0 =
      Core.stepCore cfg m.mem m.launchRegisters 0 (m.firing cfg == some 0) (m.cores 0) :=
    if_pos cfg.numCores_pos
  rw [step, launched.firing_eq_zero cores, launched.core]
  rfl

/-- Its last warp with a lane inside the block is one by which `pack` shifts. -/
theorem largest_le
    (faithful : FaithfulSets cfg largest)
    (fits : largest ≤ cfg.contexts) :
    largest ≤ 32 * cfg.numThreads := by
  have cores := faithful.numCores_le
  by_contra large
  have exact := toNat_ofNat_of_le_contexts fits
  have warp : 32 < cfg.numWarps := Nat.lt_of_mul_lt_mul_right ((by omega :
    32 * cfg.numThreads < largest).trans_le fits)
  have valid : (Core.acceptCta cfg m.launchRegisters Core.fresh).valid 32 = true := by
    have inside : BitVec.ofNat 32 (32 * cfg.numThreads) < m.dcr.blockSize := by
      rw [launched.dcr]
      show BitVec.ofNat 32 (32 * cfg.numThreads) < BitVec.ofNat 32 largest
      rw [BitVec.lt_def, exact, BitVec.toNat_ofNat,
        Nat.mod_eq_of_lt ((by omega : 32 * cfg.numThreads ≤ largest).trans_lt
          (fits.trans_lt cfg.contexts_lt))]
      omega
    exact decide_eq_true inside
  have shift : 32 ∈ (cycleDiffSetInputs .idle m).stepShifts cfg := by
    rw [stepShifts, if_neg (show ¬(cycleDiffSetInputs .idle m).inputs.reset = true from
      Bool.false_ne_true)]
    refine List.mem_append_right _ (List.mem_append_right _ (List.mem_flatMap.mpr
      ⟨0, List.mem_range.mpr cfg.numCores_pos, ?_⟩))
    rw [launched.clock_core cores]
    exact List.mem_append_left _ (List.mem_filter.mpr ⟨List.mem_range.mpr warp, valid⟩)
  have idle : Allowed cfg largest .idle m :=
    ⟨fun writes => Bool.noConfusion writes, fun launch => Bool.noConfusion launch⟩
  exact absurd ((faithful.step m launched.reached _ idle).defined 32 shift) (Nat.lt_irrefl 32)

/-- The first core takes the block. -/
theorem exists_taken
    (faithful : FaithfulSets cfg largest)
    (positive : 0 < largest)
    (fits : largest ≤ cfg.contexts) :
    ∃ next, Taken cfg largest next := by
  have cores := faithful.numCores_le
  have exact := toNat_ofNat_of_le_contexts fits
  have nonzero : BitVec.ofNat 32 largest ≠ 0 := by
    intro zero
    rw [zero] at exact
    exact positive.ne exact
  have idle : Allowed cfg largest .idle m :=
    ⟨fun writes => Bool.noConfusion writes, fun launch => Bool.noConfusion launch⟩
  obtain ⟨next, defined⟩ := exists_tick (show Inputs.idle.reset = false from rfl) cores
    (faithful.step m launched.reached _ idle).defined (by
      intro _
      have dim : m.launchRegisters.dim = ⟨BitVec.ofNat 32 largest, 1, 1⟩ :=
        congrArg DcrRegisters.dim launched.dcr
      refine ⟨?_, ?_, ?_⟩ <;> rw [dim]
      · exact nonzero
      · exact (by decide : (1 : Word) ≠ 0)
      · exact (BitVec.mul_one (BitVec.ofNat 32 largest)).symm ▸ nonzero)
  have core : next.cores 0 = Core.acceptCta cfg m.launchRegisters Core.fresh := by
    rw [tick_cores defined rfl cfg.numCores_pos, launched.firing_eq_zero cores, launched.core]
    rfl
  refine ⟨next, launched.reached.tick _ idle defined, ?_, ?_, ?_, ?_, ?_, ?_⟩
  · rw [(idle_tick defined).1, Walk.dispatch, ← firing_eq cores, launched.firing_eq_zero cores,
      launched.walk, launched.dcr]
    rfl
  · rcases tick_eq_some defined with ⟨reset, _⟩ | ⟨_, result, _⟩
    · exact Bool.noConfusion reset
    · rw [result]
      exact size_clock.trans launched.size
  · rw [core]
    rfl
  · rw [core]
    rfl
  · rw [core]
    rfl
  · rw [core]
    have inside : BitVec.ofNat 32 (0 * cfg.numThreads) < m.dcr.blockSize := by
      rw [launched.dcr, Nat.zero_mul]
      show (0 : Word) < BitVec.ofNat 32 largest
      rw [BitVec.lt_def, exact]
      exact positive
    exact decide_eq_true inside

end Launched

/-- A warp is issued. -/
theorem Taken.exists_issued
    (taken : Taken cfg largest m)
    (faithful : FaithfulSets cfg largest) :
    ∃ next, Issued cfg largest next := by
  obtain ⟨next, reached, core, walk, _, size⟩ := exists_quiet_tick faithful taken.reached
    taken.quiet (show Inputs.idle.reset = false from rfl) rfl
  have issued : (next.cores 0).ctaActive = true ∧ (next.cores 0).state = .fetch := by
    rw [core, Core.stepCore_sched _ _ _ taken.active taken.sched, Core.schedule, taken.first,
      circularFirst_start cfg.numWarps_pos taken.valid]
    exact ⟨taken.active, rfl⟩
  exact ⟨next, reached, walk ▸ taken.quiet, size.trans taken.size, issued.1, issued.2⟩

/-- It fetches zero, since the memory is empty. -/
theorem Issued.exists_fetched
    (issued : Issued cfg largest m)
    (faithful : FaithfulSets cfg largest) :
    ∃ next, HostRun cfg largest next ∧ next.walk.running = false ∧
      (next.cores 0).ctaActive = true ∧ (next.cores 0).state = .exec ∧
      (next.cores 0).inst = 0 := by
  obtain ⟨next, reached, core, walk, _⟩ := exists_quiet_tick faithful issued.reached
    issued.quiet (show Inputs.idle.reset = false from rfl) rfl
  have word : load32 cfg m.mem (m.cores 0).ip = 0 := by
    rw [load32, issued.size]
    apply if_pos
    rcases Nat.lt_or_ge (m.cores 0).ip.toNat cfg.mbase.toNat with below | above
    · exact Or.inl below
    · exact Or.inr (by omega)
  refine ⟨next, reached, walk ▸ issued.quiet, ?_⟩
  rw [core, Core.stepCore, if_neg Bool.false_ne_true, if_neg (by rw [issued.active]; decide),
    issued.fetch]
  exact ⟨issued.active, rfl, word⟩

/-- `step_core` tests every lane of a warp for the word zero. -/
theorem Launched.numThreads_le
    (launched : Launched cfg largest m)
    (faithful : FaithfulSets cfg largest)
    (positive : 0 < largest)
    (fits : largest ≤ cfg.contexts) :
    cfg.numThreads ≤ 32 := by
  obtain ⟨m1, taken⟩ := launched.exists_taken faithful positive fits
  obtain ⟨m2, issued⟩ := taken.exists_issued faithful
  obtain ⟨m3, reached, quiet, active, exec, inst⟩ := issued.exists_fetched faithful
  have noFire : (m3.firing cfg == some 0) = false := by
    rw [firing, quiet]
    rfl
  have lanes : (m3.cores 0).stepShifts cfg m3.launchRegisters false =
      List.range cfg.numThreads := by
    rw [Core.stepShifts, if_neg Bool.false_ne_true, if_neg (by rw [active]; decide), exec, inst]
    exact if_neg (by decide)
  have shift : cfg.numThreads - 1 ∈ (cycleDiffSetInputs .idle m3).stepShifts cfg := by
    rw [stepShifts, if_neg (show ¬(cycleDiffSetInputs .idle m3).inputs.reset = true from
      Bool.false_ne_true)]
    refine List.mem_append_left _ (List.mem_append_right _ (List.mem_flatMap.mpr
      ⟨0, List.mem_range.mpr cfg.numCores_pos, ?_⟩))
    show cfg.numThreads - 1 ∈
      (m3.cores 0).stepShifts cfg m3.launchRegisters (m3.firing cfg == some 0)
    rw [noFire, lanes, List.mem_range]
    exact Nat.sub_lt cfg.numThreads_pos Nat.one_pos
  have idle : Allowed cfg largest .idle m3 :=
    ⟨fun writes => Bool.noConfusion writes, fun launch => Bool.noConfusion launch⟩
  have last := (faithful.step m3 reached _ idle).defined _ shift
  omega

end Overflow

/-- For blocks of up to `largest` threads the sets of the cycle model are faithful exactly
when there are at most 32 cores, at most 32 lanes a warp, and no block needs a warp from
number 32 on. -/
theorem faithfulSets_iff
    {cfg : Config}
    {largest : Nat}
    (positive : 0 < largest)
    (fits : largest ≤ cfg.contexts) :
    FaithfulSets cfg largest ↔
      cfg.numCores ≤ 32 ∧ cfg.numThreads ≤ 32 ∧ largest ≤ 32 * cfg.numThreads := by
  constructor
  · intro faithful
    obtain ⟨m, launched⟩ := faithful.exists_launched positive fits
    exact ⟨faithful.numCores_le, launched.numThreads_le faithful positive fits,
      launched.largest_le faithful fits⟩
  · rintro ⟨cores, threads, small⟩
    exact faithfulSets_of_le cores threads small

/-- One pair of lanes fits in a word. -/
theorem faithfulSets_iff_onePair : FaithfulSets Config.onePair 2 :=
  (faithfulSets_iff (by decide) (by decide)).mpr ⟨by decide, by decide, by decide⟩

/-- A warp of 64 lanes does not, even for a block of one thread. -/
theorem not_faithfulSets_wideWarp : ¬FaithfulSets Config.wideWarp 1 := by
  intro faithful
  obtain ⟨m, launched⟩ := faithful.exists_launched Nat.one_pos (by decide)
  exact absurd (launched.numThreads_le faithful Nat.one_pos (by decide)) (by decide)

end Model

end OpenGPU
