import OpenGPU.Backend.Models
import OpenGPU.Iss.CheckedRuns

/-!
# The wait loop on the instruction-set simulator

The loop of `gpu_model_wait` calls `gpu_iss_step` on memory that is lent to the simulator.
Within its limit it makes the steps of a run, and ends early when the run does.
-/

namespace OpenGPU

namespace Iss

variable {cfg : Config} {info : LaunchInfo} {blockSize : Word} {start s final : Iss} {count : Nat}

/-- The loop of `gpu_model_wait` executes the instructions of a run, on memory that is lent to
the simulator. -/
theorem ReachableIn.run_waitSteps
    (reached : ReachableIn cfg start count s)
    (inRange : start.rr < start.ncores)
    (own : Pmem)
    (rest : Nat) :
    (waitSteps cfg (count + rest) { start with pmem := own }).run start.pmem =
      (waitSteps cfg rest { s with pmem := own }).run s.pmem := by
  induction reached generalizing rest with
  | refl => rw [Nat.zero_add]
  | @step count s next moved earlier stepped inductionHypothesis =>
      rcases gpuIssStep_cases (earlier.reachable.sameLaunch inRange).rr_lt stepped with
        ⟨rfl, k, chosen, _⟩ | ⟨rfl, _, rfl⟩
      · have running : s.done = false := by
          unfold turn at chosen
          split_ifs at chosen with finished
          exact Bool.eq_false_of_not_eq_true finished
        have round : (waitStep cfg { s with pmem := own }).run s.pmem =
            some (.inr { next with pmem := own }, next.pmem) := by
          have same : ({ s with pmem := own } : Iss).done = s.done := rfl
          rw [waitStep, same, running, if_neg Bool.false_ne_true, LocalAction.run_bind,
            run_stepAction]
          have whole : gpuIssStep cfg { ({ s with pmem := own } : Iss) with pmem := s.pmem } =
              some (true, next) := stepped
          rw [whole]
          rfl
        rw [Nat.add_assoc, inductionHypothesis]
        show (waitSteps cfg (1 + rest) _).run _ = _
        rw [Nat.add_comm, waitSteps, LocalAction.run_loop_succ _ round]
        rfl
      · exact inductionHypothesis rest

theorem Finished.done
    (finished : final.Finished)
    (nonempty : 0 < final.ncores) :
    final.done = true := by
  have all : (List.range final.ncores).all (fun index => (final.cores index).halted) = true := by
    rw [List.all_eq_true]
    exact fun index member => finished.halted index (List.mem_range.mp member)
  rw [Iss.done, all, Bool.true_and, bne_iff_ne.mpr nonempty.ne', Bool.or_true]

/-- When it is nobody's turn the run has ended. -/
theorem done_of_turn_eq_none
    (nonempty : 0 < s.ncores)
    (nobody : s.turn = none) :
    s.done = true := by
  cases clean : s.faulted with
  | true =>
      rw [Iss.done, clean]
      rfl
  | false => exact Finished.done ⟨halted_of_turn_eq_none clean nobody, clean⟩ nonempty

/-- A limit that is no smaller than the number of instructions is enough. -/
theorem ReachableIn.run_waitSteps_done
    (reached : ReachableIn cfg start count final)
    (inRange : start.rr < start.ncores)
    (done : final.done = true)
    (own : Pmem)
    {limit : Nat}
    (enough : count ≤ limit) :
    (waitSteps cfg limit { start with pmem := own }).run start.pmem =
      some ((true, { final with pmem := own }), final.pmem) := by
  have ended : ({ final with pmem := own } : Iss).done = true := done
  obtain ⟨rest, rfl⟩ := Nat.exists_eq_add_of_le enough
  rw [reached.run_waitSteps inRange own rest]
  cases rest with
  | zero =>
      show some ((({ final with pmem := own } : Iss).done, _), _) = _
      rw [ended]
  | succ rest =>
      have answer : (waitStep cfg { final with pmem := own }).run final.pmem =
          some (.inl (true, { final with pmem := own }), final.pmem) := by
        rw [waitStep, ended]
        rfl
      exact LocalAction.run_loop_answer _ answer rest

theorem ReachableIn.run_waitSteps_finished
    (reached : ReachableIn cfg start count final)
    (inRange : start.rr < start.ncores)
    (finished : final.Finished)
    (own : Pmem)
    {limit : Nat}
    (enough : count ≤ limit) :
    (waitSteps cfg limit { start with pmem := own }).run start.pmem =
      some ((true, { final with pmem := own }), final.pmem) :=
  reached.run_waitSteps_done inRange
    (finished.done (Nat.zero_lt_of_lt (reached.reachable.sameLaunch inRange).rr_lt)) own enough

/-- Whatever the loop leaves is a state of the run, and it gives up only at the limit. -/
theorem ReachableIn.run_waitSteps_reaches
    (reached : ReachableIn cfg start count s)
    (inRange : start.rr < start.ncores)
    {own after : Pmem}
    {rest : Nat}
    {answer : Bool}
    {last : Iss}
    (ran : (waitSteps cfg rest { s with pmem := own }).run s.pmem = some ((answer, last), after)) :
    ∃ more ≤ rest, ReachableIn cfg start (count + more) { last with pmem := after } ∧
      answer = last.done ∧ (answer = false → more = rest) := by
  induction rest generalizing count s with
  | zero =>
      cases ran
      exact ⟨0, le_rfl, reached, rfl, fun _ => rfl⟩
  | succ rest inductionHypothesis =>
      obtain ⟨result, middle, round, continues⟩ := LocalAction.run_bind_eq_some ran
      have same : ({ s with pmem := own } : Iss).done = s.done := rfl
      unfold waitStep at round
      rw [same] at round
      split_ifs at round with done
      · cases round
        cases continues
        exact ⟨0, Nat.zero_le _, reached, done.symm, fun failed => Bool.noConfusion failed⟩
      · obtain ⟨next, memory, stepped, goesOn⟩ := LocalAction.run_bind_eq_some round
        cases goesOn
        rw [run_stepAction, Option.map_eq_some_iff] at stepped
        obtain ⟨⟨moved, next⟩, stepped, shape⟩ := stepped
        cases shape
        have step : gpuIssStep cfg s = some (moved, next) := stepped
        rcases gpuIssStep_cases (reached.reachable.sameLaunch inRange).rr_lt step with
          ⟨rfl, _⟩ | ⟨_, nobody, _⟩
        · obtain ⟨more, within, later, verdict, limit⟩ :=
            inductionHypothesis (.step reached step) continues
          rw [Nat.add_assoc] at later
          exact ⟨1 + more, by omega, later, verdict, fun failed => by rw [limit failed, Nat.add_comm]⟩
        · exact absurd (done_of_turn_eq_none (Nat.zero_lt_of_lt
            (reached.reachable.sameLaunch inRange).rr_lt) nobody) done

/-- A state that steps to itself is reached after any number of further instructions. -/
theorem ReachableIn.stays
    (reached : ReachableIn cfg start count s)
    (fixed : gpuIssStep cfg s = some (true, s))
    (more : Nat) :
    ReachableIn cfg start (count + more) s := by
  induction more with
  | zero => exact reached
  | succ more inductionHypothesis => exact .step inductionHypothesis fixed

/-! ## Runs that end, and runs that spare some bytes -/

/-- The run ends within a number of instructions. -/
def EndsWithin (cfg : Config) (start : Iss) (limit : Nat) : Prop :=
  ∃ count ≤ limit, ∃ final, ReachableIn cfg start count final ∧ final.done = true

/-- None of the first instructions of a run stores into a set of bytes. -/
def Spares (cfg : Config) (start : Iss) (limit : Nat) (bytes : Set Word) : Prop :=
  ∀ count < limit, ∀ s, ReachableIn cfg start count s → ∀ index ∈ s.turn,
    Disjoint (footprint (s.cores index) s.pmem).stores bytes

/-- Bytes that are spared keep their values. -/
theorem Spares.eqOn
    {limit : Nat}
    {bytes : Set Word}
    (spares : Spares cfg start limit bytes)
    (inRange : start.rr < start.ncores)
    (reached : ReachableIn cfg start count s)
    (within : count ≤ limit) :
    Set.EqOn s.pmem start.pmem bytes := by
  induction reached with
  | refl => exact Set.eqOn_refl _ _
  | @step count s next moved earlier stepped inductionHypothesis =>
      have before := inductionHypothesis (by omega)
      rcases gpuIssStep_cases (earlier.reachable.sameLaunch inRange).rr_lt stepped with
        ⟨rfl, index, chosen, ran⟩ | ⟨rfl, _, rfl⟩
      · rw [stepCore, Option.map_eq_some_iff] at ran
        obtain ⟨result, executed, rfl⟩ := ran
        have kept := (execute_within executed (Set.eqOn_refl _ _)).1
        intro a member
        refine Eq.trans (kept ?_) (before member)
        exact fun stored => Set.disjoint_left.mp
          (spares count (Nat.lt_of_succ_le within) s earlier index chosen) stored member
      · exact before

/-- A run that has been checked to its end spares the bytes that none of its stores
touches. -/
theorem EndsAfter.spares
    (ends : EndsAfter cfg start count)
    {place : Word × Nat}
    (apart : ∀ touched ∈ touchedBy cfg start count, ∀ stored ∈ touched.stores,
      NoCommonByte stored place)
    (limit : Nat) :
    Spares cfg start limit (accessBytes place.1 place.2) := by
  intro _ _ s reached index turn
  rw [Set.disjoint_left]
  intro a stored
  obtain ⟨access, listed, inside⟩ := exists_of_mem_stores stored
  exact (apart _ (ends.mem_touchedBy reached.reachable turn) access listed).notMem inside

end Iss

end OpenGPU
