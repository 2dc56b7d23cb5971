import OpenGPU.Foundation.CircularScan
import OpenGPU.Iss.Machine

/-!
# The instruction-set simulator: runs

What one `gpu_iss_step` can do, and what follows for all steps after a launch.
A step runs one instruction of the first live context in circular order. Every
context keeps its identity: only registers, program counter and the halted flag
of the chosen context change.
-/

namespace OpenGPU

namespace IssCore

/-- The same thread of a launch, perhaps at another point of its run. -/
def SameThread (before after : IssCore) : Prop :=
  after =
    { before with gpr := after.gpr, pc := after.pc, halted := after.halted }

theorem SameThread.refl (core : IssCore) : SameThread core core := rfl

theorem SameThread.trans
    {first second third : IssCore}
    (early : SameThread first second)
    (late : SameThread second third) :
    SameThread first third := by
  unfold SameThread at early late ⊢
  rw [late, early]

theorem SameThread.physicalId
    {before after : IssCore}
    (same : SameThread before after) :
    after.physicalId = before.physicalId := by
  rw [same]

end IssCore

namespace Iss

/-- An instruction retires, faults before its write-back, or is `EBREAK`. -/
theorem dispatch_cases
    {cfg : Config}
    {core : IssCore}
    {pmem : Pmem}
    {laneDiverges : Word → Word → Bool}
    {inst : Word}
    {result : StepResult}
    (ran : dispatch cfg core pmem laneDiverges inst = some result) :
    (∃ written value next faulted,
        result = retire core written inst value next faulted) ∨
      result = fault core pmem ∨
      result = ⟨{ core with halted := true }, pmem, false⟩ := by
  unfold dispatch at ran
  extract_lets a b next at ran
  rcases ite_eq_iff.mp ran with ⟨_, ran⟩ | ⟨_, ran⟩
  · cases ran
    exact Or.inl ⟨_, _, _, _, rfl⟩
  rcases ite_eq_iff.mp ran with ⟨_, ran⟩ | ⟨_, ran⟩
  · cases ran
    exact Or.inl ⟨_, _, _, _, rfl⟩
  rcases ite_eq_iff.mp ran with ⟨_, ran⟩ | ⟨_, ran⟩
  · cases computed : opImm inst a <;> rw [computed] at ran <;> cases ran
    · exact Or.inr (Or.inl rfl)
    · exact Or.inl ⟨_, _, _, _, rfl⟩
  rcases ite_eq_iff.mp ran with ⟨_, ran⟩ | ⟨_, ran⟩
  · cases computed : op inst a b <;> rw [computed] at ran <;> cases ran
    · exact Or.inr (Or.inl rfl)
    · exact Or.inl ⟨_, _, _, _, rfl⟩
  rcases ite_eq_iff.mp ran with ⟨_, ran⟩ | ⟨_, ran⟩
  · obtain ⟨loaded, _, rfl⟩ := Option.map_eq_some_iff.mp ran
    exact Or.inl ⟨_, _, _, _, rfl⟩
  rcases ite_eq_iff.mp ran with ⟨_, ran⟩ | ⟨_, ran⟩
  · obtain ⟨stored, _, rfl⟩ := Option.map_eq_some_iff.mp ran
    exact Or.inl ⟨_, _, _, _, rfl⟩
  rcases ite_eq_iff.mp ran with ⟨_, ran⟩ | ⟨_, ran⟩
  · cases computed : branchTake inst a b <;> rw [computed] at ran <;> cases ran
    · exact Or.inr (Or.inl rfl)
    · exact Or.inl ⟨_, _, _, _, rfl⟩
  rcases ite_eq_iff.mp ran with ⟨_, ran⟩ | ⟨_, ran⟩
  · cases ran
    exact Or.inl ⟨_, _, _, _, rfl⟩
  rcases ite_eq_iff.mp ran with ⟨_, ran⟩ | ⟨_, ran⟩
  · rcases ite_eq_iff.mp ran with ⟨_, ran⟩ | ⟨_, ran⟩ <;> cases ran
    · exact Or.inr (Or.inl rfl)
    · exact Or.inl ⟨_, _, _, _, rfl⟩
  rcases ite_eq_iff.mp ran with ⟨_, ran⟩ | ⟨_, ran⟩
  · rcases ite_eq_iff.mp ran with ⟨_, ran⟩ | ⟨_, ran⟩
    · cases ran
      exact Or.inr (Or.inr rfl)
    rcases ite_eq_iff.mp ran with ⟨_, ran⟩ | ⟨_, ran⟩
    · cases read : core.csrValue (Instruction.csr inst) <;> rw [read] at ran <;>
        cases ran
      · exact Or.inr (Or.inl rfl)
      · exact Or.inl ⟨_, _, _, _, rfl⟩
    · cases ran
      exact Or.inr (Or.inl rfl)
  · cases ran
    exact Or.inr (Or.inl rfl)

/-- One instruction leaves the identity of its thread alone. -/
theorem execute_sameThread
    {cfg : Config}
    {core : IssCore}
    {pmem : Pmem}
    {laneDiverges : Word → Word → Bool}
    {result : StepResult}
    (ran : execute cfg core pmem laneDiverges = some result) :
    core.SameThread result.core := by
  rw [execute, Option.bind_eq_some_iff] at ran
  obtain ⟨inst, _, ran⟩ := ran
  split_ifs at ran
  · cases ran
    rfl
  · rcases dispatch_cases ran with ⟨_, _, _, _, rfl⟩ | rfl | rfl <;> rfl

/-- A context that still runs. -/
def live (s : Iss) (index : Nat) : Bool := !(s.cores index).halted

/-- The scan runs the first live context of the part of the circle that it
still has to look at. -/
theorem scan_eq
    (cfg : Config)
    (remaining : Nat)
    (s : Iss)
    (inRange : s.rr < s.ncores) :
    scan cfg remaining s =
      match ((List.range remaining).map fun offset =>
          (s.rr + offset) % s.ncores).find? s.live with
      | some index =>
          (stepCore cfg { s with rr := (index + 1) % s.ncores } index).map
            fun stepped => (true, stepped)
      | none => some (false, { s with rr := (s.rr + remaining) % s.ncores }) := by
  induction remaining generalizing s with
  | zero => simp [scan, Nat.mod_eq_of_lt inRange]
  | succ remaining inductionHypothesis =>
      have positive : 0 < s.ncores := by omega
      have tail :
          ((List.range remaining).map fun offset =>
              ((s.rr + 1) % s.ncores + offset) % s.ncores) =
            ((List.range remaining).map Nat.succ).map fun offset =>
              (s.rr + offset) % s.ncores := by
        rw [List.map_map]
        apply List.map_congr_left
        intro offset _
        simp only [Function.comp_apply, Nat.succ_eq_add_one, Nat.mod_add_mod]
        congr 1
        omega
      have head : (s.rr + 0) % s.ncores = s.rr := Nat.mod_eq_of_lt inRange
      rw [List.range_succ_eq_map, List.map_cons, head, scan]
      by_cases halted : (s.cores s.rr).halted
      · rw [List.find?_cons_of_neg (by simp [live, halted])]
        simp only [halted, if_true]
        rw [inductionHypothesis _ (Nat.mod_lt _ positive)]
        simp only [tail]
        have wraps : ((s.rr + 1) % s.ncores + remaining) % s.ncores =
            (s.rr + (remaining + 1)) % s.ncores := by
          rw [Nat.mod_add_mod]
          congr 1
          omega
        rw [wraps]
        rfl
      · rw [List.find?_cons_of_pos (by simp [live, halted])]
        simp only [halted]
        rfl

/-- `gpu_iss_step` as an arbiter: it runs the first live context in circular
order from `rr`. -/
theorem gpuIssStep_eq
    (cfg : Config)
    (s : Iss)
    (inRange : s.rr < s.ncores) :
    gpuIssStep cfg s =
      if s.done then some (false, s)
      else
        match circularFirst s.ncores s.rr s.live with
        | some index =>
            (stepCore cfg { s with rr := (index + 1) % s.ncores } index).map
              fun stepped => (true, stepped)
        | none => some (false, s) := by
  unfold gpuIssStep
  split_ifs
  · rfl
  · rw [scan_eq cfg s.ncores s inRange, Nat.add_mod_right,
      Nat.mod_eq_of_lt inRange]
    rfl

/-- States that some number of `gpu_iss_step` calls reaches. -/
inductive Reachable (cfg : Config) (start : Iss) : Iss → Prop
  | refl : Reachable cfg start start
  | step {s next : Iss} {moved : Bool} :
      Reachable cfg start s →
      gpuIssStep cfg s = some (moved, next) →
      Reachable cfg start next

/-- The contexts of one launch: the pointer stays in range and every context
remains the thread it was. -/
structure SameLaunch (start s : Iss) : Prop where
  ncores_eq : s.ncores = start.ncores
  rr_lt : s.rr < s.ncores
  sameThread : ∀ index, (start.cores index).SameThread (s.cores index)

/-- One instruction stays within the launch. -/
theorem SameLaunch.stepCore
    {cfg : Config}
    {start s next : Iss}
    {index : Nat}
    (same : SameLaunch start s)
    (ran : stepCore cfg s index = some next) :
    SameLaunch start next := by
  rw [Iss.stepCore, Option.map_eq_some_iff] at ran
  obtain ⟨result, executed, rfl⟩ := ran
  refine ⟨same.ncores_eq, same.rr_lt, fun other => ?_⟩
  by_cases chosen : other = index
  · subst chosen
    simpa using (same.sameThread other).trans (execute_sameThread executed)
  · simpa [Function.update_of_ne chosen] using same.sameThread other

/-- One `gpu_iss_step` stays within the launch. -/
theorem SameLaunch.gpuIssStep
    {cfg : Config}
    {start s next : Iss}
    {moved : Bool}
    (same : SameLaunch start s)
    (stepped : gpuIssStep cfg s = some (moved, next)) :
    SameLaunch start next := by
  rw [gpuIssStep_eq cfg s same.rr_lt] at stepped
  split_ifs at stepped
  · cases stepped
    exact same
  · cases found : circularFirst s.ncores s.rr s.live with
    | none =>
        rw [found] at stepped
        cases stepped
        exact same
    | some index =>
        rw [found, Option.map_eq_some_iff] at stepped
        obtain ⟨after, ran, shape⟩ := stepped
        cases shape
        have moved : SameLaunch start { s with rr := (index + 1) % s.ncores } :=
          ⟨same.ncores_eq,
            Nat.mod_lt _ (Nat.zero_lt_of_lt (circularFirst_lt found)),
            same.sameThread⟩
        exact moved.stepCore ran

/-- Every run stays within its launch. -/
theorem Reachable.sameLaunch
    {cfg : Config}
    {start s : Iss}
    (reached : Reachable cfg start s)
    (inRange : start.rr < start.ncores) :
    SameLaunch start s := by
  induction reached with
  | refl => exact ⟨rfl, inRange, fun index => IssCore.SameThread.refl _⟩
  | step _ stepped inductionHypothesis =>
      exact inductionHypothesis.gpuIssStep stepped

/-- What an accepted launch checked, and the state it leaves. -/
theorem gpuIssLaunch_eq_some
    {cfg : Config}
    {s launched : Iss}
    (accepted : s.gpuIssLaunch cfg = some launched) :
    0 < s.launchTotal.toNat ∧ s.launchTotal.toNat < 2 ^ 32 ∧
      (volume s.launchBlock).toNat = s.launchBlockSize.toNat ∧
      launched =
        { s with
          cores := fun index => s.launchContext cfg (BitVec.ofNat 32 index)
          ncores := s.launchTotal.toNat
          rr := 0 } := by
  unfold gpuIssLaunch at accepted
  split_ifs at accepted with admitted
  simp only [launchAccepted, Bool.and_eq_true, bne_iff_ne, ne_eq,
    decide_eq_true_eq, beq_iff_eq] at admitted
  obtain ⟨⟨nonzero, bound⟩, size⟩ := admitted
  cases accepted
  refine ⟨?_, ?_, ?_, rfl⟩
  · refine Nat.pos_of_ne_zero fun zero => nonzero ?_
    exact BitVec.eq_of_toNat_eq (by simpa using zero)
  · have bound := BitVec.le_def.mp bound
    have limit : (0xffffffff : BitVec 64).toNat = 2 ^ 32 - 1 := by decide
    omega
  · rw [size, BitVec.toNat_setWidth]
    exact Nat.mod_eq_of_lt (by have := s.launchBlockSize.isLt; omega)

end Iss

end OpenGPU
