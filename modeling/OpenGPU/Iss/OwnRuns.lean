import Mathlib.Algebra.BigOperators.Group.Finset.Piecewise
import OpenGPU.Foundation.OwnRun
import OpenGPU.Iss.RoundRobin
import OpenGPU.Iss.Schedules

/-!
# The instruction-set simulator: contexts on their own

The contexts of a launch whose stored bytes nobody else touches do in the round robin of
`gpu_iss_step` what each of them does on its own. So a finished run says how many
instructions every context takes, and what it does with each of them, before any other
machine runs the same threads.
-/

namespace OpenGPU

namespace Iss

open Instruction

/-! ## What is asked of a run -/

/-- An access at a multiple of its width. -/
def NaturallyAligned (access : Word × Nat) : Prop := access.1.toNat % access.2 = 0

/-- An instruction that both models read in one way: its access is naturally aligned, it is
no right shift with other bits in its top seven than `SRLI` and `SRAI` have, and it does
not read the physical id. -/
@[mk_iff]
structure Plain (core : IssCore) (inst : Word) : Prop where
  load : ∀ access ∈ loadAccess core inst, NaturallyAligned access
  store : ∀ access ∈ storeAccess core inst, NaturallyAligned access
  shift : opcode inst = 0x13 → funct3 inst = 5 → funct7 inst = 0 ∨ funct7 inst = 0x20
  csr : opcode inst = 0x73 → funct3 inst = 2 → rs1 inst = 0 → csr inst ≠ 0xccd

/-- Every instruction that `gpu_iss_step` executes is plain, and no byte that one context
stores is fetched, loaded or stored by another. -/
structure Tame (cfg : Config) (start : Iss) : Prop where
  plain : ∀ s, Reachable cfg start s → ∀ i, s.turn = some i →
    Plain (s.cores i) (wordAt s.pmem (s.cores i).pc)
  isolated : ∀ s, Reachable cfg start s → ∀ i, s.turn = some i →
    ∀ s', Reachable cfg start s' → ∀ j, s'.turn = some j → i ≠ j →
    ∀ a ∈ (footprint (s.cores i) s.pmem).stores,
      a ∉ (footprint (s'.cores j) s'.pmem).reads ∧ a ∉ (footprint (s'.cores j) s'.pmem).stores

/-! ## The round robin follows the contexts -/

/-- The contexts and the memory. -/
def world (s : Iss) : World Nat IssCore Word Byte := ⟨s.cores, s.pmem⟩

/-- Context `i` of a launch and its memory after `k` instructions on its own. -/
def own (cfg : Config) (start : Iss) (i k : Nat) : IssCore × Pmem :=
  (contexts cfg start.ncores).own start.world i k

/-- The next word that it executes then. -/
def ownWord (cfg : Config) (start : Iss) (i k : Nat) : Word :=
  wordAt (own cfg start i k).2 (own cfg start i k).1.pc

/-- The bytes that it touches then. -/
def ownFootprint (cfg : Config) (start : Iss) (i k : Nat) : Footprint Word :=
  footprint (own cfg start i k).1 (own cfg start i k).2

/-- A turn of context `i` at which it has executed `k` instructions, all of them as on its
own. -/
structure TurnOf (cfg : Config) (start s : Iss) (history : Nat → List Executed) (i k : Nat) :
    Prop where
  recorded : Recorded cfg start s history
  clean : s.faulted = false
  turn : s.turn = some i
  count : (history i).length = k
  core : s.cores i = (own cfg start i k).1
  word : wordAt s.pmem (s.cores i).pc = ownWord cfg start i k
  footprint : Iss.footprint (s.cores i) s.pmem = ownFootprint cfg start i k

/-- The contexts stand where they stand on their own. -/
structure Tracks (cfg : Config) (start s : Iss) (history : Nat → List Executed) : Prop where
  follows : (contexts cfg start.ncores).Follows start.world (fun i => (history i).length) s.pmem
  cores : ∀ i, s.cores i = (own cfg start i (history i).length).1
  newest : ∀ i k, (history i).length = k + 1 →
    (⟨(own cfg start i k).1.pc, ownWord cfg start i k⟩ : Executed) ∈ (history i).head?
  past : ∀ i k, k < (history i).length → ∃ before earlier, TurnOf cfg start before earlier i k

section Tracks

variable {cfg : Config} {start s next : Iss} {history : Nat → List Executed} {i j k : Nat}

theorem tracks_start : Tracks cfg start start fun _ => [] where
  follows := Threads.follows_start
  cores _ := rfl
  newest _ _ one := absurd one (Nat.succ_ne_zero _).symm
  past _ _ early := absurd early (Nat.not_lt_zero _)

/-- What a context is about to fetch has not been stored by another one. -/
theorem Tracks.reads
    (tracks : Tracks cfg start s history)
    (tame : Tame cfg start)
    (reached : Reachable cfg start s)
    (chosen : s.turn = some i) :
    Set.EqOn s.pmem (own cfg start i (history i).length).2
      (footprint (s.cores i) s.pmem).reads := by
  refine tracks.follows.reads fun j other l early a stored => ?_
  obtain ⟨before, earlier, turn⟩ := tracks.past j l early
  refine (tame.isolated before turn.recorded.reachable j turn.turn s reached i chosen other a ?_).1
  rw [turn.footprint]
  exact stored

/-- A context that has its turn does what it does on its own. -/
theorem Tracks.turnOf
    (tracks : Tracks cfg start s history)
    (tame : Tame cfg start)
    (recorded : Recorded cfg start s history)
    (clean : s.faulted = false)
    (chosen : s.turn = some i) :
    TurnOf cfg start s history i (history i).length := by
  have word : wordAt s.pmem (s.cores i).pc = ownWord cfg start i (history i).length := by
    rw [ownWord, ← tracks.cores i]
    apply wordAt_congr
    exact (tracks.reads tame recorded.reachable chosen).mono Set.subset_union_left
  refine ⟨recorded, clean, chosen, rfl, tracks.cores i, word, ?_⟩
  rw [ownWord, ← tracks.cores i] at word
  rw [ownFootprint, ← tracks.cores i, footprint, footprint, word]

/-- After its turn every context still stands where it stands on its own. -/
theorem Tracks.turn
    (tracks : Tracks cfg start s history)
    (tame : Tame cfg start)
    (recorded : Recorded cfg start s history)
    (sameLaunch : s.ncores = start.ncores)
    (chosen : s.turn = some k)
    (ran : stepCore cfg { s with rr := (k + 1) % s.ncores } k = some next)
    (clean : next.faulted = false) :
    Tracks cfg start next (s.record history) := by
  have turned := turned_of_clean chosen ran clean
  have before : s.faulted = false := (stepCore_of_clean ran clean).1
  have turnOf := tracks.turnOf tame recorded before chosen
  rw [stepCore, Option.map_eq_some_iff] at ran
  obtain ⟨⟨core, pmem, faulted⟩, executed, rfl⟩ := ran
  obtain rfl : faulted = false := (Bool.or_eq_false_iff.mp clean).2
  -- the instruction, on the memory that all contexts share
  have moved : (contexts cfg start.ncores).step (own cfg start k (history k).length).1 s.pmem =
      some (core, pmem) := by
    rw [← tracks.cores k]
    exact cleanStep_eq_some_iff.mpr (execute_of_clean executed rfl)
  have apart : ∀ j, j ≠ k → ∀ l, l < (history j).length →
      ∀ a ∈ ((contexts cfg start.ncores).touches start.world j l).stores,
        a ∉ (footprint (own cfg start k (history k).length).1 s.pmem).reads := by
    intro j other l early a stored
    obtain ⟨earlier, _, turn⟩ := tracks.past j l early
    rw [← tracks.cores k]
    refine (tame.isolated earlier turn.recorded.reachable j turn.turn s recorded.reachable k chosen
      other a ?_).1
    rw [turn.footprint]
    exact stored
  obtain ⟨places, ownMem, movedOwn, agree⟩ := tracks.follows.step apart moved
  have awake : ¬(contexts cfg start.ncores).resting k (own cfg start k (history k).length).1 := by
    intro rests
    have running := turned.running
    rw [live, Bool.not_eq_true', tracks.cores k] at running
    have halted := rests (sameLaunch ▸ circularFirst_lt (turn_eq_some chosen))
    exact Bool.noConfusion (running.symm.trans halted)
  obtain ⟨makes, reached⟩ := (tracks.follows.makes k).succ awake movedOwn
  have lengths : ∀ i, (s.record history i).length =
      if i = k then (history i).length + 1 else (history i).length := by
    intro i
    split_ifs with same
    · rw [same, turned.record_self, List.length_cons]
    · rw [turned.record_of_ne same]
  have self : (s.record history k).length = (history k).length + 1 := by
    rw [lengths, if_pos rfl]
  refine ⟨?_, fun i => ?_, fun i l length => ?_, fun i l early => ?_⟩
  · refine tracks.follows.advance (fun i => ?_) (fun i => ?_) (fun i next => ?_) fun a outside => ?_
    · rw [lengths]
      split_ifs
      · exact Or.inr rfl
      · exact Or.inl rfl
    · rw [lengths]
      split_ifs with same
      · rw [same]
        exact makes
      · exact tracks.follows.makes i
    · rw [lengths] at next
      split_ifs at next with same
      · rw [same, show (contexts cfg start.ncores).own start.world k _ = _ from reached]
        exact agree
      · omega
    · refine (contexts cfg start.ncores).kept _ _ _ _ moved fun inside => outside k self ?_
      rw [← places]
      exact inside
  · rcases eq_or_ne i k with rfl | other
    · rw [self, show own cfg start i _ = _ from reached]
      exact Function.update_self ..
    · rw [turned.record_of_ne other, ← tracks.cores i]
      exact Function.update_of_ne other _ _
  · rcases eq_or_ne i k with rfl | other
    · rw [self, Nat.succ_inj] at length
      rw [turned.record_self, ← length, ← turnOf.core, ← turnOf.word]
      rfl
    · rw [turned.record_of_ne other] at length ⊢
      exact tracks.newest i l length
  · rcases eq_or_ne i k with rfl | other
    · rw [self] at early
      rcases Nat.lt_succ_iff_lt_or_eq.mp early with earlier | rfl
      · exact tracks.past i l earlier
      · exact ⟨s, history, turnOf⟩
    · rw [turned.record_of_ne other] at early
      exact tracks.past i l early

/-- In every run without a fault the contexts stand where they stand on their own. -/
theorem Recorded.tracks
    (tame : Tame cfg start)
    (inRange : start.rr < start.ncores)
    (recorded : Recorded cfg start s history)
    (clean : s.faulted = false) :
    Tracks cfg start s history := by
  induction recorded with
  | start => exact tracks_start
  | @step s next history moved recorded stepped inductionHypothesis =>
      have same := recorded.reachable.sameLaunch inRange
      rcases gpuIssStep_cases same.rr_lt stepped with ⟨_, k, chosen, ran⟩ | ⟨_, nobody, rfl⟩
      · have before := (stepCore_of_clean ran clean).1
        exact (inductionHypothesis before).turn tame recorded same.ncores_eq chosen ran clean
      · unfold record
        rw [nobody]
        exact inductionHypothesis clean

theorem Reachable.recorded
    (reached : Reachable cfg start s) :
    ∃ history, Recorded cfg start s history := by
  induction reached with
  | refl => exact ⟨_, .start⟩
  | step _ stepped inductionHypothesis =>
      obtain ⟨_, recorded⟩ := inductionHypothesis
      exact ⟨_, recorded.step stepped⟩

/-! ## The targets of a `JALR` -/

/-- Nobody is two instructions ahead of a context that still runs, not even a context that
has stopped. -/
theorem Recorded.length_le
    {origin : Iss}
    (launched : origin.gpuIssLaunch cfg = some start)
    (recorded : Recorded cfg start s history)
    (clean : s.faulted = false)
    (first : i < s.ncores)
    (second : j < s.ncores)
    (running : s.live j = true) :
    (history i).length ≤ (history j).length + 1 := by
  have inRange : start.rr < start.ncores := by
    obtain ⟨positive, _, _, rfl⟩ := gpuIssLaunch_eq_some launched
    exact positive
  induction recorded generalizing i j with
  | start => exact Nat.zero_le _
  | @step s next history moved recorded stepped inductionHypothesis =>
      have pointer := (recorded.reachable.sameLaunch inRange).rr_lt
      rcases gpuIssStep_cases pointer stepped with ⟨_, k, chosen, ran⟩ | ⟨_, nobody, rfl⟩
      · have before := (stepCore_of_clean ran clean).1
        have turned := turned_of_clean chosen ran clean
        have wasRunning := turned.live_of_live running
        rw [turned.ncores] at first second
        rcases eq_or_ne i k with rfl | iOther
        · obtain ⟨round, inRound⟩ := (recorded.inStep launched before).round
          have level := inRound.chosen_le pointer (turn_eq_some chosen) second wasRunning
          rw [turned.record_self, List.length_cons]
          rcases eq_or_ne j i with rfl | jOther
          · rw [turned.record_self, List.length_cons]
            exact Nat.le_succ _
          · rw [turned.record_of_ne jOther]
            exact Nat.succ_le_succ level
        · have spread := inductionHypothesis before first second wasRunning
          rw [turned.record_of_ne iOther]
          rcases eq_or_ne j k with rfl | jOther
          · rw [turned.record_self, List.length_cons]
            exact spread.trans (Nat.le_succ _)
          · rw [turned.record_of_ne jOther]
            exact spread
      · unfold record
        rw [nobody]
        exact inductionHypothesis clean first second running

/-- A `JALR` leads to its target. -/
theorem cleanStep_jalr
    {core next : IssCore}
    {pmem after : Pmem}
    (moved : cleanStep cfg core pmem = some (next, after))
    (jump : opcode (wordAt pmem core.pc) = 0x67) :
    next.pc = core.jalrTarget (wordAt pmem core.pc) :=
  (dispatch_jalr_target jump (dispatch_of_clean (cleanStep_eq_some_iff.mp moved) rfl) rfl).1

/-- Contexts of a warp that reach a `JALR` after equally many instructions go to one
target: the later one is at the instruction when the earlier one compares. -/
theorem TurnOf.sameTarget
    {origin : Iss}
    (launched : origin.gpuIssLaunch cfg = some start)
    (tame : Tame cfg start)
    (turn : TurnOf cfg start s history j k)
    (order : i < j)
    (sameWarp : (start.cores i).sameWarp (start.cores j) = true)
    {ends : Nat}
    (makes : (contexts cfg start.ncores).Makes start.world i ends)
    (early : k < ends)
    (address : (own cfg start i k).1.pc = (own cfg start j k).1.pc)
    (word : ownWord cfg start i k = ownWord cfg start j k)
    (jump : opcode (ownWord cfg start j k) = 0x67) :
    (own cfg start i k).1.jalrTarget (ownWord cfg start i k) =
      (own cfg start j k).1.jalrTarget (ownWord cfg start j k) := by
  have inRange : start.rr < start.ncores := by
    obtain ⟨positive, _, _, rfl⟩ := gpuIssLaunch_eq_some launched
    exact positive
  have same := turn.recorded.reachable.sameLaunch inRange
  have tracks := turn.recorded.tracks tame inRange turn.clean
  have inStep := turn.recorded.inStep launched turn.clean
  have found := turn_eq_some turn.turn
  have second := circularFirst_lt found
  have running := circularFirst_ready found
  have first := order.trans second
  have spread := turn.recorded.length_le launched turn.clean first second running
  rw [turn.count] at spread
  have moved := makes.step k early
  -- the earlier context has executed its `JALR` and still runs
  have ahead : s.live i = true ∧ (history i).length = k + 1 := by
    cases asleep : s.live i with
    | true =>
        obtain ⟨round, inRound⟩ := inStep.round
        have lengths := inRound.eq_chosen_succ same.rr_lt found order asleep
        exact ⟨rfl, lengths.trans (congrArg (· + 1) turn.count)⟩
    | false =>
        have stopped : ends ≤ (history i).length := by
          by_contra short
          refine makes.awake (history i).length (by omega) fun _ => ?_
          rw [live, tracks.cores i, Bool.not_eq_false'] at asleep
          exact asleep
        have length : (history i).length = k + 1 := by omega
        obtain ⟨last, newest, stop⟩ := inStep.ended i first asleep
        rw [Option.mem_unique newest (tracks.newest i k length)] at stop
        have code : opcode (ownWord cfg start i k) = opcode ebreak := congrArg opcode stop
        rw [word, jump] at code
        exact absurd code (by decide)
  have together : s.Together i j := by
    refine ⟨order, second, ?_, ahead.1, running⟩
    rw [sameWarp_of_sameThread (same.sameThread i) (same.sameThread j)]
    exact sameWarp
  have reached := inStep.ahead i j together (ahead.2.trans (congrArg (· + 1) turn.count.symm)) _
    (tracks.newest i k ahead.2) (by rw [turn.core]; exact address) (by rw [← word] at jump; exact jump)
  rw [tracks.cores i, ahead.2, turn.core] at reached
  have target := cleanStep_jalr moved (by rw [← word] at jump; exact jump)
  rw [show (own cfg start i k).1.jalrTarget (ownWord cfg start i k) =
    (own cfg start i (k + 1)).1.pc from target.symm, reached]
  exact congrArg (own cfg start j k).1.jalrTarget word

end Tracks

/-! ## A finished launch -/

/-- What the contexts of a launch do on their own until they halt, and the memory that they
leave. -/
structure OwnRuns (cfg : Config) (start : Iss) (ends : Nat → Nat) (pmem : Pmem) : Prop where
  follows : (contexts cfg start.ncores).Follows start.world ends pmem
  halted : ∀ i, i < start.ncores → (own cfg start i (ends i)).1.halted = true
  plain : ∀ i k, k < ends i → Plain (own cfg start i k).1 (ownWord cfg start i k)
  isolated : ∀ i j, i ≠ j → ∀ k, k < ends i → ∀ l, l < ends j →
    ∀ a ∈ (ownFootprint cfg start i k).stores,
      a ∉ (ownFootprint cfg start j l).reads ∧ a ∉ (ownFootprint cfg start j l).stores
  sameTarget : ∀ i j, (start.cores i).sameWarp (start.cores j) = true →
    ∀ k, k < ends i → k < ends j →
      (own cfg start i k).1.pc = (own cfg start j k).1.pc →
      ownWord cfg start i k = ownWord cfg start j k → opcode (ownWord cfg start j k) = 0x67 →
      (own cfg start i k).1.jalrTarget (ownWord cfg start i k) =
        (own cfg start j k).1.jalrTarget (ownWord cfg start j k)

/-- A tame run that finishes runs every context as it runs on its own. -/
theorem Recorded.ownRuns
    {cfg : Config}
    {origin start final : Iss}
    {history : Nat → List Executed}
    (recorded : Recorded cfg start final history)
    (launched : origin.gpuIssLaunch cfg = some start)
    (tame : Tame cfg start)
    (finished : final.Finished) :
    OwnRuns cfg start (fun i => (history i).length) final.pmem := by
  have inRange : start.rr < start.ncores := by
    obtain ⟨positive, _, _, rfl⟩ := gpuIssLaunch_eq_some launched
    exact positive
  have tracks := recorded.tracks tame inRange finished.clean
  refine ⟨tracks.follows, fun i bound => ?_, fun i k early => ?_,
    fun i j other k early l before a stored => ?_, ?_⟩
  · rw [← tracks.cores i]
    exact finished.halted i (by rwa [(recorded.reachable.sameLaunch inRange).ncores_eq])
  · obtain ⟨before, _, turn⟩ := tracks.past i k early
    have plain := tame.plain before turn.recorded.reachable i turn.turn
    rwa [turn.word, turn.core] at plain
  · obtain ⟨left, _, leftTurn⟩ := tracks.past i k early
    obtain ⟨right, _, rightTurn⟩ := tracks.past j l before
    have apart := tame.isolated left leftTurn.recorded.reachable i leftTurn.turn right
      rightTurn.recorded.reachable j rightTurn.turn other a
    rw [leftTurn.footprint, rightTurn.footprint] at apart
    exact apart stored
  · intro i j sameWarp k early before address word jump
    rcases Nat.lt_trichotomy i j with order | rfl | order
    · obtain ⟨_, _, turn⟩ := tracks.past j k before
      exact turn.sameTarget launched tame order sameWarp (tracks.follows.makes i) early address
        word jump
    · rfl
    · obtain ⟨_, _, turn⟩ := tracks.past i k early
      refine (turn.sameTarget launched tame order ?_ (tracks.follows.makes j) before address.symm
        word.symm (by rwa [word])).symm
      rw [← sameWarp]
      simp only [IssCore.sameWarp, Bool.beq_comm]

theorem exists_ownRuns
    {cfg : Config}
    {origin start final : Iss}
    (launched : origin.gpuIssLaunch cfg = some start)
    (tame : Tame cfg start)
    (reached : Reachable cfg start final)
    (finished : final.Finished) :
    ∃ ends, OwnRuns cfg start ends final.pmem := by
  obtain ⟨history, recorded⟩ := reached.recorded
  exact ⟨_, recorded.ownRuns launched tame finished⟩

/-- The states that `gpu_iss_step` reaches after a number of instructions. -/
inductive ReachableIn (cfg : Config) (start : Iss) : Nat → Iss → Prop
  | refl : ReachableIn cfg start 0 start
  | step {count : Nat} {s next : Iss} {moved : Bool} :
      ReachableIn cfg start count s →
      gpuIssStep cfg s = some (moved, next) →
      ReachableIn cfg start (count + moved.toNat) next

theorem ReachableIn.reachable
    {cfg : Config}
    {start s : Iss}
    {count : Nat}
    (reached : ReachableIn cfg start count s) :
    Reachable cfg start s := by
  induction reached with
  | refl => exact .refl
  | step _ stepped inductionHypothesis => exact .step inductionHypothesis stepped

/-- A turn adds one instruction to one history. -/
theorem sum_length_record
    {s : Iss}
    {ncores : Nat}
    (same : s.ncores = ncores)
    (history : Nat → List Executed) :
    ∑ i ∈ Finset.range ncores, (s.record history i).length =
      ∑ i ∈ Finset.range ncores, (history i).length + s.turn.isSome.toNat := by
  unfold record
  cases chosen : s.turn with
  | none => rfl
  | some k =>
      have inRange : k ∈ Finset.range ncores := by
        rw [Finset.mem_range, ← same]
        exact circularFirst_lt (turn_eq_some chosen)
      have lengths : ∀ i, (Function.update history k (s.nextInstruction k :: history k) i).length =
          (history i).length + if i = k then 1 else 0 := by
        intro i
        by_cases here : i = k
        · subst here
          simp
        · simp [here]
      simp only [lengths]
      rw [Finset.sum_add_distrib, Finset.sum_ite_eq' _ k, if_pos inRange]
      rfl

/-- So the histories of all contexts together are as long as the run. -/
theorem ReachableIn.recorded
    {cfg : Config}
    {start s : Iss}
    {count : Nat}
    (inRange : start.rr < start.ncores)
    (reached : ReachableIn cfg start count s) :
    ∃ history, Recorded cfg start s history ∧
      ∑ i ∈ Finset.range start.ncores, (history i).length = count := by
  induction reached with
  | refl => exact ⟨_, .start, by simp⟩
  | @step count s next moved earlier stepped inductionHypothesis =>
      obtain ⟨history, recorded, sum⟩ := inductionHypothesis
      have same := recorded.reachable.sameLaunch inRange
      refine ⟨_, recorded.step stepped, ?_⟩
      rw [sum_length_record same.ncores_eq, sum]
      rcases gpuIssStep_cases same.rr_lt stepped with ⟨rfl, k, chosen, _⟩ | ⟨rfl, nobody, _⟩
      · rw [chosen]
        rfl
      · rw [nobody]
        rfl

/-- The instructions that `gpu_iss_step` executes in a tame run that finishes are those that
the contexts execute on their own. -/
theorem OwnRuns.forall_turn_iff
    {cfg : Config}
    {origin start final : Iss}
    {ends : Nat → Nat}
    {pmem : Pmem}
    (runs : OwnRuns cfg start ends pmem)
    (launched : origin.gpuIssLaunch cfg = some start)
    (tame : Tame cfg start)
    (reached : Reachable cfg start final)
    (finished : final.Finished)
    (holds : IssCore → Word → Prop) :
    (∀ s, Reachable cfg start s → ∀ i, s.turn = some i →
        holds (s.cores i) (wordAt s.pmem (s.cores i).pc)) ↔
      ∀ i k, k < ends i → holds (own cfg start i k).1 (ownWord cfg start i k) := by
  have inRange : start.rr < start.ncores := by
    obtain ⟨positive, _, _, rfl⟩ := gpuIssLaunch_eq_some launched
    exact positive
  constructor
  · intro all i k early
    obtain ⟨history, recorded⟩ := reached.recorded
    have tracks := recorded.tracks tame inRange finished.clean
    have within : k < (history i).length := by
      by_contra late
      -- a context that has halted executes nothing more
      refine (runs.follows.makes i).awake (history i).length (by omega) fun bound => ?_
      rw [show ((contexts cfg start.ncores).own start.world i (history i).length).1 =
        final.cores i from (tracks.cores i).symm]
      exact finished.halted i (by rwa [(reached.sameLaunch inRange).ncores_eq])
    obtain ⟨before, _, turn⟩ := tracks.past i k within
    have held := all before turn.recorded.reachable i turn.turn
    rwa [turn.word, turn.core] at held
  · intro all s visited i chosen
    obtain ⟨history, recorded⟩ := visited.recorded
    have clean : s.faulted = false := by
      unfold Iss.turn Iss.done at chosen
      by_contra faulted
      rw [Bool.eq_true_of_not_eq_false faulted] at chosen
      simp at chosen
    have tracks := recorded.tracks tame inRange clean
    have turn := tracks.turnOf tame recorded clean chosen
    have found := turn_eq_some chosen
    have bound : i < start.ncores := by
      rw [← (visited.sameLaunch inRange).ncores_eq]
      exact circularFirst_lt found
    have awake : ∀ l, l ≤ (history i).length → (own cfg start i l).1.halted = false := by
      intro l within
      rcases Nat.lt_or_eq_of_le within with early | rfl
      · by_contra halted
        exact (tracks.follows.makes i).awake l early fun _ => Bool.eq_true_of_not_eq_false halted
      · rw [← tracks.cores i]
        simpa [live] using circularFirst_ready found
    have early : (history i).length < ends i := by
      by_contra late
      have halted := runs.halted i bound
      rw [awake (ends i) (by omega)] at halted
      exact Bool.noConfusion halted
    have held := all i _ early
    rwa [← turn.word, ← turn.core] at held

/-! ## A launch of one instruction -/

/-- A launch of one context whose first word is `EBREAK`. -/
structure AtEbreak (cfg : Config) (s : Iss) : Prop where
  lone : s.ncores = 1
  first : s.rr = 0
  clean : s.faulted = false
  live : (s.cores 0).halted = false
  read : paddrRead cfg s.pmem (s.cores 0).pc 4 = some ebreak

section AtEbreak

variable {cfg : Config} {start s : Iss}

theorem AtEbreak.inRange
    (atEbreak : AtEbreak cfg start) :
    start.rr < start.ncores := by
  rw [atEbreak.lone, atEbreak.first]
  exact Nat.one_pos

theorem AtEbreak.executes
    (atEbreak : AtEbreak cfg start)
    (laneDiverges : Word → Word → Bool) :
    execute cfg (start.cores 0) start.pmem laneDiverges =
      some ⟨{ start.cores 0 with halted := true }, start.pmem, false⟩ := by
  rw [execute, atEbreak.read, Option.bind_some, if_neg (by decide),
    dispatch_system (by decide), if_pos rfl]

theorem AtEbreak.turn
    (atEbreak : AtEbreak cfg start) :
    start.turn = some 0 := by
  have running : start.done = false := by
    simp [done, atEbreak.lone, atEbreak.clean, atEbreak.live]
  rw [Iss.turn, running, atEbreak.lone, atEbreak.first]
  refine circularFirst_start Nat.one_pos ?_
  rw [Iss.live, atEbreak.live]
  rfl

/-- Its first step ends it. -/
theorem AtEbreak.finished_of_step
    {moved : Bool}
    (atEbreak : AtEbreak cfg start)
    (stepped : gpuIssStep cfg start = some (moved, s)) :
    s.Finished ∧ s.turn = none := by
  rcases gpuIssStep_cases atEbreak.inRange stepped with ⟨_, i, turn, ran⟩ | ⟨_, nobody, _⟩
  · obtain rfl := Option.some.inj (atEbreak.turn.symm.trans turn)
    rw [stepCore, Option.map_eq_some_iff] at ran
    obtain ⟨result, executed, rfl⟩ := ran
    obtain rfl := Option.some.inj (executed.symm.trans (atEbreak.executes _))
    have clean : (start.faulted || false) = false := by
      rw [atEbreak.clean]
      rfl
    have halted : ∀ i, i < start.ncores → (Function.update start.cores 0
        { start.cores 0 with halted := true } i).halted = true := by
      intro i bound
      rw [atEbreak.lone] at bound
      obtain rfl : i = 0 := by omega
      rw [Function.update_self]
    refine ⟨⟨halted, clean⟩, ?_⟩
    have ended : circularFirst start.ncores ((0 + 1) % start.ncores) (fun i =>
        !(Function.update start.cores 0 { start.cores 0 with halted := true } i).halted) =
          none := by
      rw [circularFirst_eq_none_iff]
      intro i bound
      rw [halted i bound]
      rfl
    unfold Iss.turn
    split_ifs
    · rfl
    · exact ended
  · exact absurd (nobody.symm.trans atEbreak.turn) (Option.some_ne_none 0).symm

/-- It has a first step. -/
theorem AtEbreak.exists_step
    (atEbreak : AtEbreak cfg start) :
    ∃ final, ReachableIn cfg start 1 final ∧ final.Finished := by
  obtain ⟨⟨moved, final⟩, stepped⟩ : ∃ next, gpuIssStep cfg start = some next := by
    have turn := atEbreak.turn
    unfold Iss.turn at turn
    rw [gpuIssStep_eq cfg start atEbreak.inRange]
    split_ifs at turn ⊢
    rw [turn]
    exact ⟨_, Option.map_eq_some_iff.mpr ⟨_, Option.map_eq_some_iff.mpr
      ⟨_, atEbreak.executes _, rfl⟩, rfl⟩⟩
  have first : ReachableIn cfg start (0 + moved.toNat) final := .step .refl stepped
  refine ⟨final, ?_, (atEbreak.finished_of_step stepped).1⟩
  rcases gpuIssStep_cases atEbreak.inRange stepped with ⟨rfl, _⟩ | ⟨_, nobody, _⟩
  · exact first
  · exact absurd (nobody.symm.trans atEbreak.turn) (Option.some_ne_none 0).symm

/-- In all other states nobody has a turn. -/
theorem AtEbreak.reachable_cases
    (atEbreak : AtEbreak cfg start)
    (reached : Reachable cfg start s) :
    s = start ∨ s.turn = none := by
  induction reached with
  | refl => exact Or.inl rfl
  | @step s next moved earlier stepped inductionHypothesis =>
      right
      rcases inductionHypothesis with rfl | nobody
      · exact (atEbreak.finished_of_step stepped).2
      · have inRange := (earlier.sameLaunch atEbreak.inRange).rr_lt
        rcases gpuIssStep_cases inRange stepped with ⟨_, i, turn, _⟩ | ⟨_, _, rfl⟩
        · exact absurd (nobody.symm.trans turn) (Option.some_ne_none i).symm
        · exact nobody

/-- So the only instruction is the first. -/
theorem AtEbreak.only_turn
    (atEbreak : AtEbreak cfg start)
    (reached : Reachable cfg start s)
    {i : Nat}
    (turn : s.turn = some i) :
    s = start ∧ i = 0 := by
  rcases atEbreak.reachable_cases reached with rfl | nobody
  · exact ⟨rfl, Option.some.inj (turn.symm.trans atEbreak.turn)⟩
  · exact absurd (nobody.symm.trans turn) (Option.some_ne_none i).symm

theorem AtEbreak.word
    (atEbreak : AtEbreak cfg start) :
    wordAt start.pmem (start.cores 0).pc = ebreak := by
  have read := atEbreak.read
  unfold paddrRead at read
  split_ifs at read
  exact Option.some.inj read

/-- Its only instruction is plain and disturbs nobody. -/
theorem AtEbreak.tame
    (atEbreak : AtEbreak cfg start) :
    Tame cfg start := by
  refine ⟨fun s reached i turn => ?_, fun s reached i turn s' reached' j turn' other => ?_⟩
  · obtain ⟨rfl, rfl⟩ := atEbreak.only_turn reached turn
    rw [atEbreak.word]
    refine ⟨fun _ access => ?_, fun _ access => ?_, fun code => absurd code (by decide),
      fun _ form => absurd form (by decide)⟩
    · rw [show loadAccess (s.cores 0) ebreak = none from if_neg (by decide)] at access
      exact absurd access (Option.not_mem_none _)
    · rw [show storeAccess (s.cores 0) ebreak = none from if_neg (by decide)] at access
      exact absurd access (Option.not_mem_none _)
  · exact absurd ((atEbreak.only_turn reached turn).2.trans
      (atEbreak.only_turn reached' turn').2.symm) other

end AtEbreak

end Iss

end OpenGPU
