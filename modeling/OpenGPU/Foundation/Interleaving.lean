import Mathlib.Data.Set.Function
import Mathlib.Logic.Function.Basic
import Mathlib.Tactic.Common

/-!
# Threads over one memory

Threads with private state take turns on a shared memory. A step names the places
that it reads and the places that it stores: nothing else matters to it, and
nothing else is changed by it. A run picks some thread that is not at rest, again
and again.

Two steps of different threads can be exchanged when neither stores what the other
reads or stores. So a run in which no two threads meet like this ends, once every
thread is at rest, as every other run does.
-/

namespace OpenGPU

/-- The places that a step reads and those that it stores. -/
structure Footprint (α : Type*) where
  reads : Set α
  stores : Set α

/-- Neither step stores what the other one reads or stores. -/
structure Apart {α : Type*} (left right : Footprint α) : Prop where
  leftReads : ∀ a ∈ left.stores, a ∉ right.reads
  rightReads : ∀ a ∈ right.stores, a ∉ left.reads
  stores : ∀ a ∈ left.stores, a ∉ right.stores

/-- A step of a thread, as the places that it touches. -/
structure ThreadAccess (ι α : Type*) extends Footprint α where
  thread : ι

/-- No place that one thread stores is read or stored by another. -/
def Isolated {ι α : Type*} (accesses : List (ThreadAccess ι α)) : Prop :=
  ∀ left ∈ accesses, ∀ right ∈ accesses, left.thread ≠ right.thread →
    ∀ a ∈ left.stores, a ∉ right.reads ∧ a ∉ right.stores

theorem Isolated.subset
    {ι α : Type*}
    {some all : List (ThreadAccess ι α)}
    (isolated : Isolated all)
    (part : some ⊆ all) :
    Isolated some :=
  fun left leftIn right rightIn => isolated left (part leftIn) right (part rightIn)

/-- How threads step: when they are at rest, what a step does and what it touches. -/
structure Threads (ι C α β : Type*) where
  resting : ι → C → Prop
  step : C → (α → β) → Option (C × (α → β))
  footprint : C → (α → β) → Footprint α
  kept : ∀ c mem c' mem', step c mem = some (c', mem') →
    Set.EqOn mem' mem (footprint c mem).storesᶜ
  within : ∀ c mem other c' mem', step c mem = some (c', mem') →
    Set.EqOn other mem (footprint c mem).reads →
    footprint c other = footprint c mem ∧
      ∃ other', step c other = some (c', other') ∧ Set.EqOn other' mem' (footprint c mem).stores

/-- The states of all threads and the memory. -/
structure World (ι C α β : Type*) where
  threads : ι → C
  mem : α → β

namespace Threads

variable {ι C α β : Type*} {threads : Threads ι C α β}

/-- Two steps on places that do not meet can be exchanged. -/
theorem exchange
    {first second first' second' : C}
    {mem between after : α → β}
    (early : threads.step first mem = some (first', between))
    (late : threads.step second between = some (second', after))
    (apart : Apart (threads.footprint first mem) (threads.footprint second between)) :
    threads.footprint second mem = threads.footprint second between ∧
      ∃ middle, threads.step second mem = some (second', middle) ∧
        threads.footprint first middle = threads.footprint first mem ∧
        threads.step first middle = some (first', after) := by
  have firstKept := threads.kept _ _ _ _ early
  have secondKept := threads.kept _ _ _ _ late
  -- the second step reads nothing that the first one stores
  have sameReads : Set.EqOn mem between (threads.footprint second between).reads :=
    fun a read => (firstKept fun stored => apart.leftReads a stored read).symm
  obtain ⟨samePlaces, middle, moved, middleStored⟩ := threads.within _ _ _ _ _ late sameReads
  have middleKept := threads.kept _ _ _ _ moved
  rw [samePlaces] at middleKept
  -- and stores nothing that the first one reads
  have sameReads' : Set.EqOn middle mem (threads.footprint first mem).reads :=
    fun a read => middleKept fun stored => apart.rightReads a stored read
  obtain ⟨samePlaces', final, ended, finalStored⟩ := threads.within _ _ _ _ _ early sameReads'
  have finalKept := threads.kept _ _ _ _ ended
  rw [samePlaces'] at finalKept
  refine ⟨samePlaces, middle, moved, samePlaces', ?_⟩
  rw [ended]
  congr 2
  funext a
  by_cases firstStores : a ∈ (threads.footprint first mem).stores
  · rw [finalStored firstStores]
    exact (secondKept (apart.stores a firstStores)).symm
  · rw [finalKept firstStores]
    by_cases secondStores : a ∈ (threads.footprint second between).stores
    · exact middleStored secondStores
    · rw [middleKept secondStores, secondKept secondStores, firstKept firstStores]

variable (threads) [DecidableEq ι]

/-- A run, with what each of its steps touches. -/
inductive Runs : World ι C α β → List (ThreadAccess ι α) → World ι C α β → Prop
  | nil (world : World ι C α β) : Runs world [] world
  | cons {world final : World ι C α β} {c : C} {mem : α → β} {later : List (ThreadAccess ι α)}
      (i : ι) (awake : ¬threads.resting i (world.threads i))
      (stepped : threads.step (world.threads i) world.mem = some (c, mem))
      (rest : Runs ⟨Function.update world.threads i c, mem⟩ later final) :
      Runs world (⟨threads.footprint (world.threads i) world.mem, i⟩ :: later) final

/-- Every thread is at rest. -/
def Rests (world : World ι C α β) : Prop := ∀ i, threads.resting i (world.threads i)

variable {threads}

/-- The first two steps of a run can be exchanged. -/
theorem Runs.swap
    {world final : World ι C α β}
    {first second : ThreadAccess ι α}
    {later : List (ThreadAccess ι α)}
    (run : threads.Runs world (first :: second :: later) final)
    (different : first.thread ≠ second.thread)
    (apart : Apart first.toFootprint second.toFootprint) :
    threads.Runs world (second :: first :: later) final := by
  cases run with
  | @cons _ _ c mem _ i awake stepped rest =>
      cases rest with
      | @cons _ _ c' mem' _ j awake' stepped' rest' =>
          dsimp only at different apart awake' stepped' rest'
          rw [Function.update_of_ne different.symm] at apart awake' stepped'
          obtain ⟨samePlaces, middle, moved, samePlaces', ended⟩ := exchange stepped stepped' apart
          have still : Function.update world.threads j c' i = world.threads i :=
            Function.update_of_ne different _ _
          rw [Function.update_comm different] at rest'
          rw [← still] at awake ended samePlaces'
          have afterwards := @Runs.cons ι C α β threads _
            ⟨Function.update world.threads j c', middle⟩ final c mem' later i awake ended rest'
          dsimp only at afterwards
          rw [samePlaces', still] at afterwards
          have exchanged := Runs.cons j awake' moved afterwards
          rw [samePlaces] at exchanged
          dsimp only
          rw [Function.update_of_ne different.symm]
          exact exchanged

/-- The first step of a thread can be made first of all. -/
theorem Runs.bring_forward
    {world final : World ι C α β}
    {early late : List (ThreadAccess ι α)}
    {access : ThreadAccess ι α}
    (run : threads.Runs world (early ++ access :: late) final)
    (others : ∀ before ∈ early, before.thread ≠ access.thread)
    (isolated : Isolated (early ++ access :: late)) :
    threads.Runs world (access :: (early ++ late)) final := by
  induction early generalizing world with
  | nil => exact run
  | cons before early inductionHypothesis =>
      have different := others before List.mem_cons_self
      have accessIn : access ∈ before :: early ++ access :: late :=
        List.mem_append_right (before :: early) List.mem_cons_self
      have left := isolated before List.mem_cons_self access accessIn different
      have right := isolated access accessIn before List.mem_cons_self different.symm
      have swapped : threads.Runs world (before :: access :: (early ++ late)) final := by
        cases run with
        | cons i awake stepped rest =>
            apply Runs.cons i awake stepped
            apply inductionHypothesis rest
            · exact fun earlier member => others earlier (List.mem_cons_of_mem _ member)
            · exact isolated.subset (List.subset_cons_self _ _)
      apply swapped.swap different
      exact ⟨fun a stored => (left a stored).1, fun a stored => (right a stored).1,
        fun a stored => (left a stored).2⟩

/-- A thread that is not at rest and is so in the end has made a step. -/
theorem Runs.exists_first
    {world final : World ι C α β}
    {accesses : List (ThreadAccess ι α)}
    (run : threads.Runs world accesses final)
    {i : ι}
    (awake : ¬threads.resting i (world.threads i))
    (asleep : threads.resting i (final.threads i)) :
    ∃ early access late, accesses = early ++ access :: late ∧ access.thread = i ∧
      ∀ before ∈ early, before.thread ≠ i := by
  induction run with
  | nil world => exact absurd asleep awake
  | @cons world final c mem later j _ _ _ inductionHypothesis =>
      by_cases mine : j = i
      · exact ⟨[], _, later, rfl, mine, fun _ absent => absurd absent List.not_mem_nil⟩
      · rw [show (World.threads _ i) = world.threads i from
          Function.update_of_ne (Ne.symm mine) _ _] at inductionHypothesis
        obtain ⟨early, access, late, shape, here, others⟩ := inductionHypothesis awake asleep
        refine ⟨_ :: early, access, late, by rw [shape, List.cons_append], here, ?_⟩
        intro before member
        rcases List.mem_cons.mp member with rfl | later
        · exact mine
        · exact others before later

/-- All runs to rest end alike, as soon as one of them is isolated. -/
theorem Runs.confluent
    {world left right : World ι C α β}
    {leftSteps rightSteps : List (ThreadAccess ι α)}
    (leftRun : threads.Runs world leftSteps left)
    (rightRun : threads.Runs world rightSteps right)
    (isolated : Isolated rightSteps)
    (leftRests : threads.Rests left)
    (rightRests : threads.Rests right) :
    left = right := by
  induction leftRun generalizing rightSteps with
  | nil world =>
      cases rightRun with
      | nil => rfl
      | cons i awake _ _ => exact absurd (leftRests i) awake
  | @cons world left c mem later i awake stepped _ inductionHypothesis =>
      -- the thread of the first step on the left steps on the right, too
      obtain ⟨early, access, late, rfl, mine, others⟩ := rightRun.exists_first awake (rightRests i)
      subst mine
      have forward := rightRun.bring_forward others isolated
      cases forward with
      | cons _ _ stepped' rest =>
          rw [stepped] at stepped'
          cases stepped'
          apply inductionHypothesis rest ?_ leftRests
          apply isolated.subset
          intro step member
          rcases List.mem_append.mp member with before | after
          · exact List.mem_append_left _ before
          · exact List.mem_append_right _ (List.mem_cons_of_mem _ after)

end Threads

end OpenGPU
