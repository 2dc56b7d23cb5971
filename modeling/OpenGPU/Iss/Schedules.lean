import OpenGPU.Foundation.Interleaving
import OpenGPU.Iss.Accesses
import OpenGPU.Iss.LocalStep
import OpenGPU.Iss.Run

/-!
# The instruction-set simulator: schedules

A schedule picks some context that is not halted, again and again, and runs
`step_core` on it; `gpu_iss_step` is the schedule that goes round robin. As long as
no byte that one context stores is fetched, loaded or stored by another, all
schedules that bring every context to a halt without a fault end alike.

The one look of `step_core` at other contexts, the target comparison of `JALR`, can
only fault.
-/

namespace OpenGPU

namespace Iss

open Instruction

/-! ## What an instruction touches -/

/-- The bytes that an instruction word loads. -/
def loadedBytes (core : IssCore) (inst : Word) : Set Word :=
  { a | ∃ access ∈ loadAccess core inst, a ∈ accessBytes access.1 access.2 }

/-- The bytes that an instruction word stores. -/
def storedBytes (core : IssCore) (inst : Word) : Set Word :=
  { a | ∃ access ∈ storeAccess core inst, a ∈ accessBytes access.1 access.2 }

/-- The bytes that the next instruction of a context fetches, loads and stores. -/
def footprint (core : IssCore) (pmem : Pmem) : Footprint Word where
  reads := accessBytes core.pc 4 ∪ loadedBytes core (wordAt pmem core.pc)
  stores := storedBytes core (wordAt pmem core.pc)

section Footprint

variable {cfg : Config} {core : IssCore} {pmem other : Pmem}
  {laneDiverges : Word → Word → Bool} {inst : Word} {result : StepResult}

/-- A step that fetches the same bytes fetches the same word. -/
theorem wordAt_congr
    {addr : Word}
    (same : Set.EqOn other pmem (accessBytes addr 4)) :
    wordAt other addr = wordAt pmem addr := by
  unfold wordAt
  apply littleEndian_congr
  intro index inRange
  apply same
  show (addr + BitVec.ofNat 32 index - addr).toNat < 4
  rw [BitVec.add_comm, BitVec.add_sub_cancel, BitVec.toNat_ofNat]
  exact Nat.lt_of_le_of_lt (Nat.mod_le _ _) inRange

/-- A load looks only at the bytes that it loads. -/
theorem loadMem_congr
    {addr minor : Word}
    (same : ∀ width ∈ loadWidth minor, Set.EqOn other pmem (accessBytes addr width)) :
    loadMem cfg other addr minor = loadMem cfg pmem addr minor := by
  unfold loadMem
  cases found : loadWidth minor with
  | none => rfl
  | some width =>
      dsimp only
      rw [paddrRead_congr cfg (same width found)]

/-- A store changes only the bytes that it stores, and puts the same there whatever
the memory held. -/
theorem storeMem_within
    {addr value minor : Word}
    {stored : Pmem × Bool}
    (ran : storeMem cfg pmem addr value minor = some stored)
    (other : Pmem) :
    ∃ otherStored, storeMem cfg other addr value minor = some (otherStored, stored.2) ∧
      (∀ a, (∀ width ∈ storeWidth minor, a ∉ accessBytes addr width) → stored.1 a = pmem a) ∧
      ∀ a, (∃ width ∈ storeWidth minor, a ∈ accessBytes addr width) →
        otherStored a = stored.1 a := by
  unfold storeMem at ran ⊢
  cases found : storeWidth minor with
  | none =>
      rw [found] at ran
      cases ran
      exact ⟨other, rfl, fun _ _ => rfl, fun _ inside => absurd inside (by simp)⟩
  | some width =>
      rw [found] at ran
      unfold paddrWrite at ran ⊢
      dsimp only at ran ⊢
      split_ifs at ran ⊢ with access
      · cases ran
        refine ⟨_, rfl, fun a outside => ?_, ?_⟩
        · exact if_neg (outside width rfl)
        · rintro a ⟨_, here, inside⟩
          rw [← Option.mem_some_iff.mp here] at inside
          exact (if_pos inside).trans (if_pos inside).symm
      · cases ran

/-- A word that stores nothing. -/
theorem storedBytes_eq_empty
    (noStore : storeAccess core inst = none) :
    storedBytes core inst = ∅ := by
  ext a
  simp [storedBytes, noStore]

/-- Only words of one opcode store. -/
theorem storeAccess_of_ne
    (noStore : opcode inst ≠ 0x23) :
    storeAccess core inst = none := by
  rw [storeAccess, beq_false_of_ne noStore, Bool.and_false, if_neg Bool.false_ne_true]

/-- What an instruction does on two memories that agree where it loads. -/
theorem dispatch_within
    (legal : badRegister inst = false)
    (ran : dispatch cfg core pmem laneDiverges inst = some result)
    (same : Set.EqOn other pmem (loadedBytes core inst)) :
    Set.EqOn result.pmem pmem (storedBytes core inst)ᶜ ∧
      ∃ otherPmem, dispatch cfg core other laneDiverges inst =
          some ⟨result.core, otherPmem, result.faulted⟩ ∧
        Set.EqOn otherPmem result.pmem (storedBytes core inst) := by
  rcases eq_or_ne (opcode inst) 0x03 with load | noLoad
  · have noStore : storedBytes core inst = ∅ :=
      storedBytes_eq_empty (storeAccess_of_ne (by rw [load]; decide))
    have agree : loadMem cfg other (core.gpr (rs1 inst).toNat + immI inst) (funct3 inst) =
        loadMem cfg pmem (core.gpr (rs1 inst).toNat + immI inst) (funct3 inst) := by
      apply loadMem_congr
      intro width found a inside
      refine same ⟨(_, width), ?_, inside⟩
      simpa [loadAccess, legal, load] using found
    rw [dispatch_load load, Option.map_eq_some_iff] at ran
    obtain ⟨loaded, found, rfl⟩ := ran
    rw [noStore]
    refine ⟨fun _ _ => rfl, other, ?_, Set.eqOn_empty _ _⟩
    rw [dispatch_load load, agree, found]
    rfl
  rcases eq_or_ne (opcode inst) 0x23 with store | noStore
  · have places (a : Word) : a ∈ storedBytes core inst ↔ ∃ width ∈ storeWidth (funct3 inst),
        a ∈ accessBytes (core.gpr (rs1 inst).toNat + immS inst) width := by
      simp [storedBytes, storeAccess, store, legal]
    rw [dispatch_store store, Option.map_eq_some_iff] at ran
    obtain ⟨stored, found, rfl⟩ := ran
    obtain ⟨otherStored, otherFound, kept, agree⟩ := storeMem_within found other
    refine ⟨fun a outside => ?_, otherStored, ?_, fun a inside => agree a ((places a).mp inside)⟩
    · apply kept a
      intro width here inside
      exact outside ((places a).mpr ⟨width, here, inside⟩)
    · rw [dispatch_store store, otherFound]
      rfl
  · have noPlace : storedBytes core inst = ∅ := storedBytes_eq_empty (storeAccess_of_ne noStore)
    rw [dispatch_pmem cfg core pmem other _ noLoad noStore, Option.map_eq_some_iff] at ran
    obtain ⟨otherResult, found, rfl⟩ := ran
    rw [noPlace]
    refine ⟨fun _ _ => rfl, otherResult.pmem, ?_, Set.eqOn_empty _ _⟩
    rw [found]

/-- What a context does on two memories that agree where it fetches and loads. -/
theorem execute_within
    (ran : execute cfg core pmem laneDiverges = some result)
    (same : Set.EqOn other pmem (footprint core pmem).reads) :
    Set.EqOn result.pmem pmem (footprint core pmem).storesᶜ ∧
      footprint core other = footprint core pmem ∧
      ∃ otherPmem, execute cfg core other laneDiverges =
          some ⟨result.core, otherPmem, result.faulted⟩ ∧
        Set.EqOn otherPmem result.pmem (footprint core pmem).stores := by
  have fetched : wordAt other core.pc = wordAt pmem core.pc :=
    wordAt_congr (same.mono Set.subset_union_left)
  have places : footprint core other = footprint core pmem := by
    unfold footprint
    rw [fetched]
  rw [execute_eq] at ran ⊢
  rw [fetched]
  split_ifs at ran ⊢ with access bad
  · cases ran
    have noStore : (footprint core pmem).stores = ∅ := by
      apply storedBytes_eq_empty
      rw [storeAccess, bad]
      rfl
    rw [noStore]
    exact ⟨fun _ _ => rfl, places, other, rfl, Set.eqOn_empty _ _⟩
  · obtain ⟨kept, agree⟩ := dispatch_within (Bool.eq_false_of_not_eq_true bad) ran
      (same.mono Set.subset_union_right)
    exact ⟨kept, places, agree⟩

/-- Without a fault the target comparison of `JALR` has no effect. -/
theorem execute_of_clean
    (ran : execute cfg core pmem laneDiverges = some result)
    (clean : result.faulted = false) :
    execute cfg core pmem alone = some result := by
  rw [execute_eq] at ran ⊢
  split_ifs at ran ⊢ with access bad
  · exact ran
  · rcases eq_or_ne (opcode (wordAt pmem core.pc)) 0x67 with jump | noJump
    · rw [dispatch_jalr jump] at ran ⊢
      split_ifs at ran with diverges
      · cases ran
        cases clean
      · exact ran
    · rw [← ran]
      simp only [dispatch, if_neg noJump]

end Footprint

/-! ## Accesses that can be compared -/

/-- Two accesses that have no byte in common. -/
def NoCommonByte (left right : Word × Nat) : Prop :=
  left.2 ≤ (right.1 - left.1).toNat ∧ right.2 ≤ (left.1 - right.1).toNat

instance (left right : Word × Nat) : Decidable (NoCommonByte left right) :=
  inferInstanceAs (Decidable (_ ∧ _))

theorem NoCommonByte.notMem
    {left right : Word × Nat}
    (apart : NoCommonByte left right)
    {a : Word}
    (inLeft : a ∈ accessBytes left.1 left.2) :
    a ∉ accessBytes right.1 right.2 := by
  obtain ⟨forward, backward⟩ := apart
  intro inRight
  have inLeft : (a - left.1).toNat < left.2 := inLeft
  have inRight : (a - right.1).toNat < right.2 := inRight
  bv_omega

/-- The accesses of the next instruction of a context that another one could notice. -/
def nextStores (s : Iss) (i : Nat) : List (Word × Nat) :=
  (storeAccess (s.cores i) (wordAt s.pmem (s.cores i).pc)).toList

/-- All its accesses, the fetch included. -/
def nextAccesses (s : Iss) (i : Nat) : List (Word × Nat) :=
  ((s.cores i).pc, 4) ::
    ((loadAccess (s.cores i) (wordAt s.pmem (s.cores i).pc)).toList ++ s.nextStores i)

section Touched

variable {s : Iss} {i : Nat}

/-- The bytes of a footprint are those of the accesses. -/
theorem exists_of_mem_stores
    {a : Word}
    (stored : a ∈ (footprint (s.cores i) s.pmem).stores) :
    ∃ access ∈ s.nextStores i, a ∈ accessBytes access.1 access.2 := by
  obtain ⟨access, found, inside⟩ := stored
  exact ⟨access, Option.mem_toList.mpr found, inside⟩

theorem exists_of_mem_reads
    {a : Word}
    (touched : a ∈ (footprint (s.cores i) s.pmem).reads) :
    ∃ access ∈ s.nextAccesses i, a ∈ accessBytes access.1 access.2 := by
  rcases touched with fetched | ⟨access, found, inside⟩
  · exact ⟨_, List.mem_cons_self, fetched⟩
  · exact ⟨access, List.mem_cons_of_mem _ (List.mem_append_left _ (Option.mem_toList.mpr found)),
      inside⟩

end Touched

/-! ## Contexts as threads -/

/-- One instruction that does not fault, by a context on its own. -/
def cleanStep (cfg : Config) (core : IssCore) (pmem : Pmem) : Option (IssCore × Pmem) :=
  (execute cfg core pmem alone).bind fun result =>
    if result.faulted then none else some (result.core, result.pmem)

theorem cleanStep_eq_some_iff
    {cfg : Config}
    {core next : IssCore}
    {pmem after : Pmem} :
    cleanStep cfg core pmem = some (next, after) ↔
      execute cfg core pmem alone = some ⟨next, after, false⟩ := by
  unfold cleanStep
  cases execute cfg core pmem alone with
  | none => simp
  | some result =>
      obtain ⟨core', pmem', faulted⟩ := result
      cases faulted <;> simp

/-- The contexts of a launch as threads over physical memory. -/
def contexts (cfg : Config) (ncores : Nat) : Threads Nat IssCore Word Byte where
  resting index core := index < ncores → core.halted = true
  step := cleanStep cfg
  footprint := footprint
  kept := by
    intro core pmem next after ran
    exact (execute_within (cleanStep_eq_some_iff.mp ran) fun _ _ => rfl).1
  within := by
    intro core pmem other next after ran same
    obtain ⟨_, places, otherAfter, otherRan, agree⟩ :=
      execute_within (cleanStep_eq_some_iff.mp ran) same
    exact ⟨places, otherAfter, cleanStep_eq_some_iff.mpr otherRan, agree⟩

/-! ## Schedules -/

/-- A schedule that the simulator can follow, with what each of its steps touches. -/
inductive Scheduled (cfg : Config) : Iss → List (ThreadAccess Nat Word) → Iss → Prop
  | nil (s : Iss) : Scheduled cfg s [] s
  | cons {s next final : Iss} {later : List (ThreadAccess Nat Word)} {index : Nat}
      (inRange : index < s.ncores) (awake : (s.cores index).halted = false)
      (stepped : stepCore cfg s index = some next) (rest : Scheduled cfg next later final) :
      Scheduled cfg s (⟨footprint (s.cores index) s.pmem, index⟩ :: later) final

/-- Every context has halted and none has faulted. -/
structure Finished (s : Iss) : Prop where
  halted : ∀ index, index < s.ncores → (s.cores index).halted = true
  clean : s.faulted = false

section Schedules

variable {cfg : Config} {s final : Iss} {steps later : List (ThreadAccess Nat Word)}

theorem Scheduled.append
    {middle : Iss}
    (early : Scheduled cfg s steps middle)
    (late : Scheduled cfg middle later final) :
    Scheduled cfg s (steps ++ later) final := by
  induction early with
  | nil => exact late
  | cons inRange awake stepped _ inductionHypothesis =>
      exact .cons inRange awake stepped (inductionHypothesis late)

theorem Scheduled.ncores_eq
    (run : Scheduled cfg s steps final) :
    final.ncores = s.ncores := by
  induction run with
  | nil => rfl
  | cons _ _ stepped _ inductionHypothesis =>
      rw [stepCore, Option.map_eq_some_iff] at stepped
      obtain ⟨result, _, rfl⟩ := stepped
      exact inductionHypothesis

/-- A fault is never forgotten. -/
theorem Scheduled.clean
    (run : Scheduled cfg s steps final)
    (clean : final.faulted = false) :
    s.faulted = false := by
  induction run with
  | nil => exact clean
  | cons _ _ stepped _ inductionHypothesis =>
      rw [stepCore, Option.map_eq_some_iff] at stepped
      obtain ⟨result, _, rfl⟩ := stepped
      exact (Bool.or_eq_false_iff.mp (inductionHypothesis clean)).1

/-- A schedule without a fault is a run of the contexts on their own. -/
theorem Scheduled.runs
    (run : Scheduled cfg s steps final)
    (clean : final.faulted = false) :
    (contexts cfg s.ncores).Runs ⟨s.cores, s.pmem⟩ steps ⟨final.cores, final.pmem⟩ := by
  induction run with
  | nil s => exact .nil _
  | @cons s next final later index inRange awake stepped rest inductionHypothesis =>
      have cleanNext := rest.clean clean
      rw [stepCore, Option.map_eq_some_iff] at stepped
      obtain ⟨⟨core, pmem, faulted⟩, ran, rfl⟩ := stepped
      have cleanStep := (Bool.or_eq_false_iff.mp cleanNext).2
      cases cleanStep
      refine .cons index (fun rests => ?_) ?_ (inductionHypothesis clean)
      · exact absurd (awake.symm.trans (rests inRange)) (by decide)
      · exact cleanStep_eq_some_iff.mpr (execute_of_clean ran rfl)

/-- A finished simulator has every context at rest. -/
theorem Finished.rests
    (finished : final.Finished)
    (cfg : Config) :
    (contexts cfg final.ncores).Rests ⟨final.cores, final.pmem⟩ :=
  finished.halted

/-! ## Round robin -/

/-- `step_core` does not look at the round-robin pointer. -/
theorem stepCore_rr
    (cfg : Config)
    (s : Iss)
    (index rr : Nat) :
    stepCore cfg { s with rr := rr } index =
      (stepCore cfg s index).map fun next => { next with rr := rr } := by
  unfold stepCore
  rw [Option.map_map]
  rfl

/-- Calls of `gpu_iss_step` follow a schedule. -/
theorem Reachable.scheduled
    {start : Iss}
    (reached : Reachable cfg start s)
    (inRange : start.rr < start.ncores) :
    ∃ steps, Scheduled cfg start steps { s with rr := start.rr } := by
  induction reached with
  | refl => exact ⟨[], .nil _⟩
  | @step s next moved reached stepped inductionHypothesis =>
      obtain ⟨steps, run⟩ := inductionHypothesis
      rw [gpuIssStep_eq cfg s (reached.sameLaunch inRange).rr_lt] at stepped
      split_ifs at stepped
      · cases stepped
        exact ⟨steps, run⟩
      cases found : circularFirst s.ncores s.rr s.live with
      | none =>
          rw [found] at stepped
          cases stepped
          exact ⟨steps, run⟩
      | some index =>
          rw [found, Option.map_eq_some_iff] at stepped
          obtain ⟨after, ran, shape⟩ := stepped
          cases shape
          rw [stepCore_rr, Option.map_eq_some_iff] at ran
          obtain ⟨plain, ran, rfl⟩ := ran
          have awake : (s.cores index).halted = false := by
            have ready := circularFirst_ready found
            rwa [live, Bool.not_eq_true'] at ready
          have last : stepCore cfg { s with rr := start.rr } index =
              some { plain with rr := start.rr } := by
            rw [stepCore_rr, ran]
            rfl
          exact ⟨_, run.append (.cons (circularFirst_lt found) awake last (.nil _))⟩

end Schedules

/-- The same memory, and the same state of every context. -/
structure SameOutcome (left right : Iss) : Prop where
  pmem : left.pmem = right.pmem
  cores : ∀ index, index < right.ncores → left.cores index = right.cores index

/-- Two schedules that finish end alike, as soon as one of them is isolated. -/
theorem Scheduled.sameOutcome
    {cfg : Config}
    {start left right : Iss}
    {leftSteps rightSteps : List (ThreadAccess Nat Word)}
    (leftRun : Scheduled cfg start leftSteps left)
    (rightRun : Scheduled cfg start rightSteps right)
    (isolated : Isolated rightSteps)
    (leftFinished : left.Finished)
    (rightFinished : right.Finished) :
    SameOutcome left right := by
  have leftRests := leftFinished.rests cfg
  have rightRests := rightFinished.rests cfg
  rw [leftRun.ncores_eq] at leftRests
  rw [rightRun.ncores_eq] at rightRests
  have same := (leftRun.runs leftFinished.clean).confluent
    (rightRun.runs rightFinished.clean) isolated leftRests rightRests
  exact ⟨congrArg World.mem same, fun index _ => congrFun (congrArg World.threads same) index⟩

/-- A launch that some schedule finishes, with no byte stored by one context and
fetched, loaded or stored by another, ends in the same way under every schedule
that finishes, that of `gpu_iss_step` included. -/
theorem scheduleIndependence
    {cfg : Config}
    {s start final : Iss}
    {steps : List (ThreadAccess Nat Word)}
    (launched : s.gpuIssLaunch cfg = some start)
    (run : Scheduled cfg start steps final)
    (isolated : Isolated steps)
    (finished : final.Finished) :
    (∀ otherSteps other, Scheduled cfg start otherSteps other → other.Finished →
        SameOutcome other final) ∧
      ∀ other, Reachable cfg start other → other.Finished → SameOutcome other final := by
  have every : ∀ otherSteps other, Scheduled cfg start otherSteps other → other.Finished →
      SameOutcome other final :=
    fun _ _ otherRun otherFinished => otherRun.sameOutcome run isolated otherFinished finished
  refine ⟨every, fun other reached otherFinished => ?_⟩
  have inRange : start.rr < start.ncores := by
    obtain ⟨positive, _, _, rfl⟩ := gpuIssLaunch_eq_some launched
    exact positive
  obtain ⟨otherSteps, otherRun⟩ := reached.scheduled inRange
  have same := every otherSteps _ otherRun ⟨otherFinished.halted, otherFinished.clean⟩
  exact ⟨same.pmem, same.cores⟩

/-! ## Schedules that can be run -/

/-- What a step of a schedule touches, as accesses. -/
structure Touched where
  thread : Nat
  stores : List (Word × Nat)
  accesses : List (Word × Nat)

/-- Run the contexts of a list one after the other. -/
def follow (cfg : Config) : List Nat → Iss → Option (List Touched × Iss)
  | [], s => some ([], s)
  | index :: later, s =>
      if index < s.ncores ∧ (s.cores index).halted = false then
        (stepCore cfg s index).bind fun next =>
          (follow cfg later next).map fun result =>
            (⟨index, s.nextStores index, s.nextAccesses index⟩ :: result.1, result.2)
      else none

/-- No byte that one context stores is touched by another. -/
def NoneShared (touched : List Touched) : Prop :=
  ∀ left ∈ touched, ∀ right ∈ touched, left.thread ≠ right.thread →
    ∀ stored ∈ left.stores, ∀ access ∈ right.accesses, NoCommonByte stored access

instance (touched : List Touched) : Decidable (NoneShared touched) :=
  inferInstanceAs (Decidable (∀ left ∈ touched, ∀ right ∈ touched, left.thread ≠ right.thread →
    ∀ stored ∈ left.stores, ∀ access ∈ right.accesses, NoCommonByte stored access))

/-- The accesses of a step cover what it touches. -/
structure Covers (touched : Touched) (step : ThreadAccess Nat Word) : Prop where
  thread : touched.thread = step.thread
  stores : ∀ a ∈ step.stores, ∃ access ∈ touched.stores, a ∈ accessBytes access.1 access.2
  reads : ∀ a ∈ step.reads, ∃ access ∈ touched.accesses, a ∈ accessBytes access.1 access.2
  among : ∀ access ∈ touched.stores, access ∈ touched.accesses

theorem covers_next
    (s : Iss)
    (index : Nat) :
    Covers ⟨index, s.nextStores index, s.nextAccesses index⟩
      ⟨footprint (s.cores index) s.pmem, index⟩ where
  thread := rfl
  stores _ := exists_of_mem_stores
  reads _ := exists_of_mem_reads
  among _ stored := List.mem_cons_of_mem _ (List.mem_append_right _ stored)

/-- A list that can be run is a schedule, and the accesses say what its steps touch. -/
theorem scheduled_of_follow
    {cfg : Config}
    {order : List Nat}
    {s final : Iss}
    {touched : List Touched}
    (ran : follow cfg order s = some (touched, final)) :
    ∃ steps, Scheduled cfg s steps final ∧ steps.map ThreadAccess.thread = order ∧
      ∀ step ∈ steps, ∃ entry ∈ touched, Covers entry step := by
  induction order generalizing s touched with
  | nil =>
      cases ran
      exact ⟨[], .nil _, rfl, fun _ member => absurd member List.not_mem_nil⟩
  | cons index later inductionHypothesis =>
      rw [follow] at ran
      split_ifs at ran with ready
      obtain ⟨next, stepped, rest⟩ := Option.bind_eq_some_iff.mp ran
      obtain ⟨⟨more, last⟩, followed, same⟩ := Option.map_eq_some_iff.mp rest
      cases same
      obtain ⟨steps, run, order, covered⟩ := inductionHypothesis followed
      refine ⟨_, .cons ready.1 ready.2 stepped run, congrArg (index :: ·) order, ?_⟩
      intro step member
      rcases List.mem_cons.mp member with rfl | late
      · exact ⟨_, List.mem_cons_self, covers_next s index⟩
      · obtain ⟨entry, listed, covers⟩ := covered step late
        exact ⟨entry, List.mem_cons_of_mem _ listed, covers⟩

/-- Accesses that share no byte isolate the steps that they cover. -/
theorem NoneShared.isolated
    {touched : List Touched}
    (none : NoneShared touched)
    {steps : List (ThreadAccess Nat Word)}
    (covered : ∀ step ∈ steps, ∃ entry ∈ touched, Covers entry step) :
    Isolated steps := by
  intro left leftIn right rightIn different a stored
  obtain ⟨first, firstIn, first_covers⟩ := covered left leftIn
  obtain ⟨second, secondIn, second_covers⟩ := covered right rightIn
  rw [← first_covers.thread, ← second_covers.thread] at different
  obtain ⟨access, member, inside⟩ := first_covers.stores a stored
  have apart := none first firstIn second secondIn different access member
  constructor
  · intro read
    obtain ⟨other, listed, within⟩ := second_covers.reads a read
    exact (apart other listed).notMem inside within
  · intro written
    obtain ⟨other, listed, within⟩ := second_covers.stores a written
    exact (apart other (second_covers.among other listed)).notMem inside within

/-- The simulator before the launch of one block of two threads that part. -/
def twoThreads : Iss :=
  gpuIssDcrWrite 0x019 2 (gpuIssDcrWrite 0x013 2 (gpuIssInit 1 (fresh partingImage)))

/-- The second thread may make its store and halt before the first one starts. -/
theorem scheduleIndependence_twoThreads :
    ∃ start final, twoThreads.gpuIssLaunch Config.onePair = some start ∧
      (∃ steps, steps.map ThreadAccess.thread = [1, 1, 1, 1, 1, 0, 0, 0, 0] ∧
        Scheduled Config.onePair start steps final) ∧
      final.pmem 0x82000000 = 1 ∧
      ∀ other, Reachable Config.onePair start other → other.Finished →
        SameOutcome other final := by
  have observed : (do
      let start ← twoThreads.gpuIssLaunch Config.onePair
      let followed ← follow Config.onePair [1, 1, 1, 1, 1, 0, 0, 0, 0] start
      some (decide (NoneShared followed.1 ∧ followed.2.pmem 0x82000000 = 1 ∧
        (∀ index, index < followed.2.ncores → (followed.2.cores index).halted = true) ∧
          followed.2.faulted = false))) = some true := by
    decide +kernel
  obtain ⟨start, launched, observed⟩ := Option.bind_eq_some_iff.mp observed
  obtain ⟨⟨touched, final⟩, followed, observed⟩ := Option.bind_eq_some_iff.mp observed
  obtain ⟨none, byte, halted, clean⟩ := of_decide_eq_true (Option.some.inj observed)
  obtain ⟨steps, run, order, covered⟩ := scheduled_of_follow followed
  exact ⟨start, final, launched, ⟨steps, order, run⟩, byte,
    (scheduleIndependence launched run (none.isolated covered) ⟨halted, clean⟩).2⟩

end Iss

end OpenGPU
