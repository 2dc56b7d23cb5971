import OpenGPU.Foundation.Interleaving

/-!
# Threads on their own

Started on the same memory, a thread can also run on its own: nobody else ever stores
anything. A machine that runs many threads, in whatever order and however many of them at
a time, follows these runs as long as no thread reads what another one has stored: its
memory shows to every thread, wherever no other one has stored, what the thread sees on
its own.
-/

namespace OpenGPU

namespace Threads

variable {ι C α β : Type*}

/-- A thread and its memory after some number of steps on its own. -/
def own (threads : Threads ι C α β) (world : World ι C α β) (i : ι) : Nat → C × (α → β)
  | 0 => (world.threads i, world.mem)
  | k + 1 =>
      (threads.step (own threads world i k).1 (own threads world i k).2).getD
        (own threads world i k)

/-- What a thread touches in its next step on its own. -/
def touches (threads : Threads ι C α β) (world : World ι C α β) (i : ι) (k : Nat) :
    Footprint α :=
  threads.footprint (threads.own world i k).1 (threads.own world i k).2

/-- A thread makes `count` steps on its own and does not rest before the last one. -/
structure Makes (threads : Threads ι C α β) (world : World ι C α β) (i : ι) (count : Nat) :
    Prop where
  awake : ∀ k, k < count → ¬threads.resting i (threads.own world i k).1
  step : ∀ k, k < count →
    threads.step (threads.own world i k).1 (threads.own world i k).2 =
      some (threads.own world i (k + 1))

/-- Every thread has made some steps, and the memory shows it what it sees on its own
wherever no other thread has stored. -/
structure Follows (threads : Threads ι C α β) (world : World ι C α β) (progress : ι → Nat)
    (mem : α → β) : Prop where
  makes : ∀ i, threads.Makes world i (progress i)
  shows : ∀ i a, (∀ j, j ≠ i → ∀ k, k < progress j → a ∉ (threads.touches world j k).stores) →
    mem a = (threads.own world i (progress i)).2 a

section Own

variable {threads : Threads ι C α β} {world : World ι C α β} {progress progress' : ι → Nat}
  {mem mem' : α → β} {i : ι} {count k : Nat}

/-- Nothing has happened yet. -/
theorem follows_start : threads.Follows world (fun _ => 0) world.mem where
  makes _ := ⟨fun _ early => absurd early (Nat.not_lt_zero _),
    fun _ early => absurd early (Nat.not_lt_zero _)⟩
  shows _ _ _ := rfl

theorem Makes.of_le
    (makes : threads.Makes world i count)
    (fewer : k ≤ count) :
    threads.Makes world i k :=
  ⟨fun _ early => makes.awake _ (early.trans_le fewer),
    fun _ early => makes.step _ (early.trans_le fewer)⟩

/-- One step more. -/
theorem Makes.succ
    (makes : threads.Makes world i count)
    (awake : ¬threads.resting i (threads.own world i count).1)
    {next : C × (α → β)}
    (moved : threads.step (threads.own world i count).1 (threads.own world i count).2 =
      some next) :
    threads.Makes world i (count + 1) ∧ threads.own world i (count + 1) = next := by
  have reached : threads.own world i (count + 1) = next := by
    rw [own, moved, Option.getD_some]
  refine ⟨⟨fun k early => ?_, fun k early => ?_⟩, reached⟩
  · rcases Nat.lt_succ_iff_lt_or_eq.mp early with before | rfl
    · exact makes.awake k before
    · exact awake
  · rcases Nat.lt_succ_iff_lt_or_eq.mp early with before | rfl
    · exact makes.step k before
    · rw [moved, reached]

/-- A step on its own stores only where it says. -/
theorem Makes.kept
    (makes : threads.Makes world i count)
    (early : k < count) :
    Set.EqOn (threads.own world i (k + 1)).2 (threads.own world i k).2
      (threads.touches world i k).storesᶜ :=
  threads.kept _ _ _ _ (makes.step k early)

/-- Any threads go on by one step each, as long as the memory gets what they store and
nothing else changes. -/
theorem Follows.advance
    (follows : threads.Follows world progress mem)
    (moved : ∀ i, progress' i = progress i ∨ progress' i = progress i + 1)
    (makes : ∀ i, threads.Makes world i (progress' i))
    (stored : ∀ i, progress' i = progress i + 1 →
      Set.EqOn mem' (threads.own world i (progress i + 1)).2
        (threads.touches world i (progress i)).stores)
    (kept : ∀ a, (∀ i, progress' i = progress i + 1 →
      a ∉ (threads.touches world i (progress i)).stores) → mem' a = mem a) :
    threads.Follows world progress' mem' := by
  refine ⟨makes, fun i a others => ?_⟩
  have earlier : ∀ j, j ≠ i → ∀ k, k < progress j → a ∉ (threads.touches world j k).stores :=
    fun j other k early => others j other k (by rcases moved j with same | next <;> omega)
  by_cases now : progress' i = progress i + 1 ∧ a ∈ (threads.touches world i (progress i)).stores
  · rw [now.1]
    exact stored i now.1 now.2
  have unchanged : mem' a = mem a := by
    apply kept
    intro j next
    rcases eq_or_ne j i with rfl | other
    · exact fun inside => now ⟨next, inside⟩
    · exact others j other _ (by omega)
  rw [unchanged, follows.shows i a earlier]
  rcases moved i with same | next
  · rw [same]
  · rw [next]
    refine ((makes i).kept (by omega) fun inside => now ⟨next, inside⟩).symm

/-- A thread reads what it reads on its own. -/
theorem Follows.reads
    (follows : threads.Follows world progress mem)
    {within : Set α}
    (apart : ∀ j, j ≠ i → ∀ k, k < progress j →
      ∀ a ∈ (threads.touches world j k).stores, a ∉ within) :
    Set.EqOn mem (threads.own world i (progress i)).2 within :=
  fun a inside => follows.shows i a fun j other k early stored =>
    apart j other k early a stored inside

/-- So it does on the shared memory what it does on its own. -/
theorem Follows.step
    (follows : threads.Follows world progress mem)
    (apart : ∀ j, j ≠ i → ∀ k, k < progress j →
      ∀ a ∈ (threads.touches world j k).stores,
        a ∉ (threads.footprint (threads.own world i (progress i)).1 mem).reads)
    {c : C}
    (moved : threads.step (threads.own world i (progress i)).1 mem = some (c, mem')) :
    threads.footprint (threads.own world i (progress i)).1 mem =
        threads.touches world i (progress i) ∧
      ∃ ownMem, threads.step (threads.own world i (progress i)).1
          (threads.own world i (progress i)).2 = some (c, ownMem) ∧
        Set.EqOn mem' ownMem (threads.touches world i (progress i)).stores := by
  have same := follows.reads apart
  obtain ⟨places, ownMem, moved', agree⟩ := threads.within _ _ _ _ _ moved same.symm
  refine ⟨places.symm, ownMem, moved', ?_⟩
  rw [touches, places]
  exact agree.symm

/-- Two machines that have followed every thread equally far have the same memory, if no
two threads store at one place. -/
theorem Follows.mem_eq
    [Nonempty ι]
    (follows : threads.Follows world progress mem)
    (follows' : threads.Follows world progress mem')
    (apart : ∀ i j, i ≠ j → ∀ k, k < progress i → ∀ l, l < progress j →
      ∀ a ∈ (threads.touches world i k).stores, a ∉ (threads.touches world j l).stores) :
    mem = mem' := by
  funext a
  -- some thread sees the place as it is
  obtain ⟨i, others⟩ : ∃ i, ∀ j, j ≠ i → ∀ k, k < progress j →
      a ∉ (threads.touches world j k).stores := by
    by_cases some : ∃ i k, k < progress i ∧ a ∈ (threads.touches world i k).stores
    · obtain ⟨i, k, early, stored⟩ := some
      exact ⟨i, fun j other l before => apart i j (Ne.symm other) k early l before a stored⟩
    · push Not at some
      obtain ⟨i⟩ := ‹Nonempty ι›
      exact ⟨i, fun j _ k early => some j k early⟩
  rw [follows.shows i a others, follows'.shows i a others]

end Own

end Threads

end OpenGPU
