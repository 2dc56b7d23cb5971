import OpenGPU.Cycle.IssueState
import OpenGPU.Cycle.Packing

/-!
# A core that works alone

Once the other cores are idle and take no block, because none is left or because there are
no other cores, a tick of the model is a step of one core at work together with the store
that it issues.
-/

namespace OpenGPU

namespace Model

/-- The state after the first `time` ticks. -/
def after (cfg : Config) (inputs : Nat → Inputs) (m : Model) : Nat → Option Model
  | 0 => some m
  | time + 1 => (after cfg inputs m time).bind (tick cfg (inputs time))

/-- Nobody resets the GPU or launches on it. -/
structure Undisturbed (inputs : Nat → Inputs) : Prop where
  reset : ∀ time, (inputs time).reset = false
  launch : ∀ time, (inputs time).launch = false

/-- The other cores are idle and take no block. -/
structure Alone (cfg : Config) (core : Nat) (m : Model) : Prop where
  inRange : core < cfg.numCores
  noBlocks : m.walk.running = false ∨ cfg.numCores = 1
  idle : ∀ other, other < cfg.numCores → other ≠ core → (m.cores other).ctaActive = false
  packed : m.packDefined cfg = true

/-! ## One tick of a core alone -/

/-- A list in which one element counts. -/
theorem filterMap_of_unique
    {α β : Type*}
    {f : α → Option β}
    {element : α}
    {list : List α}
    (nodup : list.Nodup)
    (member : element ∈ list)
    (others : ∀ other ∈ list, other ≠ element → f other = none) :
    list.filterMap f = (f element).toList := by
  induction list with
  | nil => exact absurd member List.not_mem_nil
  | cons head tail inductionHypothesis =>
      obtain ⟨fresh, nodup⟩ := List.nodup_cons.mp nodup
      rcases List.mem_cons.mp member with rfl | later
      · have rest : tail.filterMap f = [] := by
          rw [List.filterMap_eq_nil_iff]
          intro other inTail
          exact others other (List.mem_cons_of_mem _ inTail)
            fun same => fresh (same ▸ inTail)
        cases found : f element with
        | none => rw [List.filterMap_cons_none found, rest, Option.toList_none]
        | some value => rw [List.filterMap_cons_some found, rest, Option.toList_some]
      · have different : head ≠ element := fun same => fresh (same ▸ later)
        rw [List.filterMap_cons_none (others head List.mem_cons_self different)]
        exact inductionHypothesis nodup later fun other inTail =>
          others other (List.mem_cons_of_mem _ inTail)

section Alone

variable {cfg : Config} {core : Nat} {m next : Model} {inputs : Inputs}

/-- The core takes no block either while it is at work. -/
theorem Alone.noFire
    (alone : Alone cfg core m)
    (atWork : m.coreReady core = false) :
    m.firing cfg = none := by
  rcases alone.noBlocks with stopped | single
  · exact firing_eq_none stopped
  · have inRange := alone.inRange
    rw [firing_eq (packDefined_iff.mp alone.packed).1, Walk.fire, circularFirst_eq_none_iff.mpr,
      ite_self]
    intro candidate only
    rwa [show candidate = core by omega]

/-- The only store is that of the core. -/
theorem Alone.expectedStores
    (alone : Alone cfg core m) :
    m.expectedStores cfg = (captureStore cfg (m.cores core)).toList := by
  have captured : ((List.range cfg.numCores).filterMap fun i =>
      captureStore cfg (m.cores i)) = (captureStore cfg (m.cores core)).toList := by
    apply filterMap_of_unique List.nodup_range (List.mem_range.mpr alone.inRange)
    intro other member different
    refine if_neg fun stores => ?_
    rw [alone.idle other (List.mem_range.mp member) different] at stores
    exact Bool.noConfusion stores.1
  rw [Model.expectedStores, captured]
  cases captureStore cfg (m.cores core) with
  | none => exact List.mergeSort_nil
  | some store => exact List.mergeSort_singleton store

/-- No block is left where there are other cores. -/
theorem Alone.stopped
    (alone : Alone cfg core m)
    {other : Nat}
    (inRange : other < cfg.numCores)
    (different : other ≠ core) :
    m.walk.running = false := by
  rcases alone.noBlocks with stopped | single
  · exact stopped
  · have own := alone.inRange
    omega

/-- The clock edge steps the core. -/
theorem Alone.clock_core
    (alone : Alone cfg core m)
    (atWork : m.coreReady core = false) :
    ((cycleDiffSetInputs inputs m).clock cfg).cores core =
      (m.cores core).stepCore cfg m.mem m.launchRegisters core false := by
  have clocked : ((cycleDiffSetInputs inputs m).clock cfg).cores core =
      (m.cores core).stepCore cfg m.mem m.launchRegisters core (m.firing cfg == some core) :=
    if_pos alone.inRange
  rw [clocked, alone.noFire atWork]
  rfl

/-- And it leaves the other cores as they are. -/
theorem Alone.clock_other
    (alone : Alone cfg core m)
    {other : Nat}
    (inRange : other < cfg.numCores)
    (different : other ≠ core) :
    ((cycleDiffSetInputs inputs m).clock cfg).cores other = m.cores other := by
  have stopped := alone.stopped inRange different
  have clocked : ((cycleDiffSetInputs inputs m).clock cfg).cores other =
      (m.cores other).stepCore cfg m.mem m.launchRegisters other (m.firing cfg == some other) :=
    if_pos inRange
  have inactive : (!(m.cores other).ctaActive) = true := by
    rw [alone.idle other inRange different]
    rfl
  rw [clocked, firing_eq_none stopped]
  exact (if_neg Bool.false_ne_true).trans (if_pos inactive)

/-- Without a launch a core stays alone. -/
theorem Alone.of_tick
    (alone : Alone cfg core m)
    (running : inputs.reset = false)
    (noLaunch : inputs.launch = false)
    (ticked : m.tick cfg inputs = some next) :
    Alone cfg core next := by
  have packed := packDefined_of_tick ticked
  rcases tick_eq_some ticked with ⟨reset, _⟩ | ⟨_, result, _⟩
  · rw [running] at reset
    exact Bool.noConfusion reset
  refine ⟨alone.inRange, ?_, fun other inRange different => ?_, packed⟩ <;> rw [result]
  · refine alone.noBlocks.imp_left fun stopped => ?_
    show (m.walk.step cfg.numCores inputs.launch _ (m.firing cfg)).running = false
    rw [noLaunch, firing_eq_none stopped]
    exact stopped
  · show (((cycleDiffSetInputs inputs m).clock cfg).cores other).ctaActive = false
    rw [alone.clock_other inRange different]
    exact alone.idle other inRange different

/-- A clock edge is defined when the step of the core is. -/
theorem Alone.clockDefined
    (alone : Alone cfg core m)
    (atWork : m.coreReady core = false)
    (defined : (m.cores core).stepDefined cfg m.launchRegisters false = true) :
    (cycleDiffSetInputs inputs m).clockDefined cfg = true := by
  rw [Model.clockDefined, List.all_eq_true]
  intro other member
  have inRange := List.mem_range.mp member
  have small := inRange.trans_le (packDefined_iff.mp alone.packed).1
  rw [decide_eq_true small, Bool.true_and]
  show (m.cores other).stepDefined cfg m.launchRegisters (m.firing cfg == some other) = true
  rw [alone.noFire atWork]
  show (m.cores other).stepDefined cfg m.launchRegisters false = true
  rcases eq_or_ne other core with rfl | different
  · exact defined
  · have inactive : (!(m.cores other).ctaActive) = true := by
      rw [alone.idle other inRange different]
      rfl
    exact (if_neg Bool.false_ne_true).trans (if_pos inactive)

/-- A tick is a step of the core, with its store, as long as the step is defined and
leaves something that `pack` can pack. -/
theorem Alone.exists_tick
    (alone : Alone cfg core m)
    (atWork : m.coreReady core = false)
    (running : inputs.reset = false)
    (noLaunch : inputs.launch = false)
    {stepped : Core}
    (step : (m.cores core).stepCore cfg m.mem m.launchRegisters core false = stepped)
    (defined : (m.cores core).stepDefined cfg m.launchRegisters false = true)
    (packs : Packs cfg stepped) :
    ∃ next, m.tick cfg inputs = some next ∧ Alone cfg core next ∧ next.cores core = stepped ∧
      next.mem = (captureStore cfg (m.cores core)).toList.foldl (storeRef cfg) m.mem := by
  obtain ⟨cores, allPack⟩ := packDefined_iff.mp alone.packed
  have own : ((cycleDiffSetInputs inputs m).clock cfg).cores core = stepped :=
    (alone.clock_core atWork).trans step
  have noReset : ¬(cycleDiffSetInputs inputs m).inputs.reset = true := by
    rw [show (cycleDiffSetInputs inputs m).inputs.reset = false from running]
    exact Bool.false_ne_true
  have packed : ((cycleDiffSetInputs inputs m).clock cfg).packDefined cfg = true := by
    refine packDefined_iff.mpr ⟨cores, fun other inRange => ?_⟩
    rcases eq_or_ne other core with rfl | different
    · rw [own]
      exact packs
    · rw [alone.clock_other inRange different]
      exact allPack other inRange
  obtain ⟨next, ticked⟩ : ∃ next, m.tick cfg inputs = some next := by
    rw [tick, cycleDiffStep, if_neg noReset, if_pos (alone.clockDefined atWork defined), pack,
      if_pos packed]
    exact ⟨_, rfl⟩
  refine ⟨next, ticked, alone.of_tick running noLaunch ticked, ?_⟩
  rcases tick_eq_some ticked with ⟨reset, _⟩ | ⟨_, result, _⟩
  · rw [running] at reset
    exact Bool.noConfusion reset
  rw [result]
  refine ⟨own, ?_⟩
  show ((cycleDiffSetInputs inputs m).expectedStores cfg).foldl (storeRef cfg) m.mem = _
  exact congrArg (fun stores => List.foldl (storeRef cfg) m.mem stores) alone.expectedStores

end Alone

end Model

end OpenGPU
