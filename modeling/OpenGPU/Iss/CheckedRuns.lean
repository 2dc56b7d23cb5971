import OpenGPU.Iss.OwnRuns

/-!
# Runs of the simulator that can be checked

`gpu_iss_step` is a function of the state, so a run that ends after some number of
instructions goes through known states, and what is asked of all of them can be computed.
-/

namespace OpenGPU

namespace Iss

open Instruction

/-- The state after some calls of `gpu_iss_step`, as long as they return. -/
def stateAfter (cfg : Config) (start : Iss) : Nat → Iss
  | 0 => start
  | count + 1 =>
      ((gpuIssStep cfg (stateAfter cfg start count)).map Prod.snd).getD (stateAfter cfg start count)

/-- A run of `count` instructions after which nobody has a turn. -/
@[mk_iff]
structure EndsAfter (cfg : Config) (start : Iss) (count : Nat) : Prop where
  inRange : start.rr < start.ncores
  moves : ∀ k, k < count →
    (gpuIssStep cfg (stateAfter cfg start k)).map Prod.fst = some true
  stops : (stateAfter cfg start count).turn = none

instance (cfg : Config) (start : Iss) (count : Nat) : Decidable (EndsAfter cfg start count) :=
  decidable_of_iff' _ (endsAfter_iff cfg start count)

section EndsAfter

variable {cfg : Config} {start s : Iss} {count i : Nat}

/-- A call goes on to the next of these states. -/
theorem stateAfter_succ
    {moved : Bool}
    {next : Iss}
    {k : Nat}
    (stepped : gpuIssStep cfg (stateAfter cfg start k) = some (moved, next)) :
    stateAfter cfg start (k + 1) = next := by
  rw [stateAfter, stepped]
  rfl

/-- Up to the end every call executes an instruction. -/
theorem EndsAfter.reachableIn_of_le
    (ends : EndsAfter cfg start count)
    {k : Nat}
    (within : k ≤ count) :
    ReachableIn cfg start k (stateAfter cfg start k) := by
  induction k with
  | zero => exact .refl
  | succ k inductionHypothesis =>
      obtain ⟨⟨moved, next⟩, stepped, rfl⟩ := Option.map_eq_some_iff.mp (ends.moves k within)
      rw [stateAfter_succ stepped]
      exact (inductionHypothesis (Nat.le_of_succ_le within)).step stepped

theorem EndsAfter.reachableIn
    (ends : EndsAfter cfg start count) :
    ReachableIn cfg start count (stateAfter cfg start count) :=
  ends.reachableIn_of_le (le_refl count)

/-- There are no other states. -/
theorem EndsAfter.exists_stateAfter
    (ends : EndsAfter cfg start count)
    (reached : Reachable cfg start s) :
    ∃ k, k ≤ count ∧ s = stateAfter cfg start k := by
  induction reached with
  | refl => exact ⟨0, Nat.zero_le _, rfl⟩
  | @step s next moved reached stepped inductionHypothesis =>
      obtain ⟨k, within, rfl⟩ := inductionHypothesis
      rcases Nat.lt_or_eq_of_le within with early | rfl
      · exact ⟨k + 1, early, (stateAfter_succ stepped).symm⟩
      · have pointer := (reached.sameLaunch ends.inRange).rr_lt
        rcases gpuIssStep_cases pointer stepped with ⟨_, i, turn, _⟩ | ⟨_, _, same⟩
        · exact absurd (ends.stops.symm.trans turn) (Option.some_ne_none i).symm
        · exact ⟨k, within, same⟩

/-- Somebody has a turn in a state before the end. -/
theorem EndsAfter.exists_of_turn
    (ends : EndsAfter cfg start count)
    (reached : Reachable cfg start s)
    (turn : s.turn = some i) :
    ∃ k, k < count ∧ s = stateAfter cfg start k := by
  obtain ⟨k, within, rfl⟩ := ends.exists_stateAfter reached
  rcases Nat.lt_or_eq_of_le within with early | rfl
  · exact ⟨k, early, rfl⟩
  · exact absurd (ends.stops.symm.trans turn) (Option.some_ne_none i).symm

/-- If nobody has faulted by then, all contexts have halted. -/
theorem finished_of_turn_eq_none
    (stops : s.turn = none)
    (clean : s.faulted = false) :
    s.Finished := by
  refine ⟨fun index inRange => ?_, clean⟩
  unfold turn at stops
  split_ifs at stops with done
  · rw [Iss.done, clean, Bool.false_or, Bool.and_eq_true, List.all_eq_true] at done
    exact done.1 index (List.mem_range.mpr inRange)
  · have asleep := circularFirst_eq_none_iff.mp stops index inRange
    rwa [live, Bool.not_eq_false'] at asleep

theorem EndsAfter.finished
    (ends : EndsAfter cfg start count)
    (clean : (stateAfter cfg start count).faulted = false) :
    (stateAfter cfg start count).Finished :=
  finished_of_turn_eq_none ends.stops clean

end EndsAfter

/-! ## Tame runs -/

instance (access : Word × Nat) : Decidable (NaturallyAligned access) :=
  inferInstanceAs (Decidable (_ = _))

instance (core : IssCore) (inst : Word) : Decidable (Plain core inst) :=
  decidable_of_iff' _ (plain_iff core inst)

/-- What the instructions of a run touch. -/
def touchedBy (cfg : Config) (start : Iss) (count : Nat) : List Touched :=
  (List.range count).filterMap fun k =>
    (stateAfter cfg start k).turn.map fun i =>
      ⟨i, (stateAfter cfg start k).nextStores i, (stateAfter cfg start k).nextAccesses i⟩

/-- What is asked of a run, of each of its instructions and of all pairs of them. -/
@[mk_iff]
structure CheckedTame (cfg : Config) (start : Iss) (count : Nat) : Prop where
  plain : ∀ k, k < count → ∀ i ∈ (stateAfter cfg start k).turn,
    Plain ((stateAfter cfg start k).cores i)
      (wordAt (stateAfter cfg start k).pmem ((stateAfter cfg start k).cores i).pc)
  noneShared : NoneShared (touchedBy cfg start count)

instance (cfg : Config) (start : Iss) (count : Nat) : Decidable (CheckedTame cfg start count) :=
  decidable_of_iff' _ (checkedTame_iff cfg start count)

section CheckedTame

variable {cfg : Config} {start s : Iss} {count i : Nat}

/-- What an instruction of the run touches is in the list. -/
theorem EndsAfter.mem_touchedBy
    (ends : EndsAfter cfg start count)
    (reached : Reachable cfg start s)
    (turn : s.turn = some i) :
    ⟨i, s.nextStores i, s.nextAccesses i⟩ ∈ touchedBy cfg start count := by
  obtain ⟨k, early, rfl⟩ := ends.exists_of_turn reached turn
  apply List.mem_filterMap.mpr
  exact ⟨k, List.mem_range.mpr early, by rw [turn, Option.map_some]⟩

/-- A run that passes the check is tame. -/
theorem EndsAfter.tame
    (ends : EndsAfter cfg start count)
    (checked : CheckedTame cfg start count) :
    Tame cfg start := by
  refine ⟨fun s reached i turn => ?_, fun s reached i turn s' reached' j turn' other => ?_⟩
  · obtain ⟨k, early, rfl⟩ := ends.exists_of_turn reached turn
    exact checked.plain k early i turn
  · have pair : Isolated [⟨footprint (s.cores i) s.pmem, i⟩,
        ⟨footprint (s'.cores j) s'.pmem, j⟩] := by
      apply checked.noneShared.isolated
      simp only [List.mem_cons, List.not_mem_nil, or_false, forall_eq_or_imp, forall_eq]
      exact ⟨⟨_, ends.mem_touchedBy reached turn, covers_next s i⟩,
        ⟨_, ends.mem_touchedBy reached' turn', covers_next s' j⟩⟩
    exact pair _ List.mem_cons_self _ (List.mem_cons_of_mem _ List.mem_cons_self) other

end CheckedTame

end Iss

end OpenGPU
