import OpenGPU.Cycle.PathStack

/-!
# What an issued warp relies on

Register zero of every lane is zero, a core with a block has not faulted, and the issued
address is the program counter of the issued warp, in every state that a run reaches.
-/

namespace OpenGPU

namespace Core

variable {cfg : Config} {c : Core}

/-! ## Register zero -/

theorem laneLoop_zero
    (cid : Nat)
    (zero : ∀ x, c.gpr x 0 = 0) :
    ∀ x, (laneLoop cfg cid c).gpr x 0 = 0 := by
  have body : ∀ (acc : LaneLoop) (t : Nat), (∀ x, acc.gpr x 0 = 0) →
      ∀ x, (laneBody cfg cid c acc t).gpr x 0 = 0 := by
    intro acc t kept x
    unfold laneBody
    split_ifs
    · dsimp only
      rcases eq_or_ne x (c.context cfg t) with rfl | other
      · rw [Function.update_self]
        exact Function.update_self 0 0 _
      · rw [Function.update_of_ne other]
        exact kept x
    · exact kept x
  have lanes : ∀ (list : List Nat) (acc : LaneLoop), (∀ x, acc.gpr x 0 = 0) →
      ∀ x, (list.foldl (laneBody cfg cid c) acc).gpr x 0 = 0 := by
    intro list
    induction list with
    | nil => exact fun _ kept => kept
    | cons t list inductionHypothesis =>
        intro acc kept
        exact inductionHypothesis _ (body acc t kept)
  exact lanes _ _ zero

/-- Register zero of every lane stays zero. -/
theorem zero_stepCore
    (zero : ∀ x, c.gpr x 0 = 0)
    (mem : ShadowMemory)
    (launch : LaunchRegisters)
    (cid : Nat)
    (fire : Bool) :
    ∀ x, (stepCore cfg mem launch cid fire c).gpr x 0 = 0 := by
  intro x
  unfold stepCore
  split_ifs with fires inactive
  · rfl
  · exact zero x
  · cases state : c.state with
    | sched =>
        show (schedule cfg c).gpr x 0 = 0
        unfold schedule
        cases circularFirst cfg.numWarps c.rr c.valid <;> exact zero x
    | fetch => exact zero x
    | exec =>
        show (execute cfg cid c).gpr x 0 = 0
        unfold execute
        split_ifs
        · exact zero x
        · exact zero x
        · unfold execEbreak
          split_ifs <;> exact zero x
        · rcases execBranch_cases cfg c with
            ⟨result, _⟩ | ⟨result, _⟩ | ⟨result, _⟩ | ⟨result, _⟩ <;> rw [result] <;> exact zero x
        · rcases execLanes_cases cfg cid c with ⟨result, _⟩ | ⟨result, _⟩ <;> rw [result] <;>
            exact laneLoop_zero cid zero x
    | memReq =>
        show (memoryRequest cfg c).gpr x 0 = 0
        unfold memoryRequest
        split_ifs <;> exact zero x
    | memResp =>
        show (memoryResponse cfg mem c).gpr x 0 = 0
        unfold memoryResponse
        extract_lets context row written
        have cleared : written.gpr x 0 = 0 := by
          show Function.update c.gpr context (Function.update row 0 0) x 0 = 0
          rcases eq_or_ne x context with rfl | other
          · rw [Function.update_self, Function.update_self]
          · rw [Function.update_of_ne other]
            exact zero x
        split_ifs <;> exact cleared

/-! ## The issued address -/

/-- A core with a block has not faulted, and the issued address is the program counter of
the issued warp. -/
structure IssueKept (c : Core) : Prop where
  noFault : c.ctaActive = true → c.fault = false
  pc : c.state ≠ .sched → c.pc c.iw = c.ip

/-- In `SCHED` nothing is issued. -/
theorem IssueKept.of_sched
    (sched : c.state = .sched)
    (noFault : c.ctaActive = true → c.fault = false) :
    c.IssueKept :=
  ⟨noFault, fun issued => absurd sched issued⟩

theorem IssueKept.execute
    (kept : c.IssueKept)
    (issued : c.state ≠ .sched)
    (cid : Nat) :
    (c.execute cfg cid).IssueKept := by
  unfold Core.execute
  split_ifs
  · exact of_sched rfl fun active => absurd active Bool.false_ne_true
  · exact ⟨kept.noFault, fun _ => kept.pc issued⟩
  · unfold execEbreak
    split_ifs <;> exact of_sched rfl kept.noFault
  · rcases execBranch_cases cfg c with ⟨result, _⟩ | ⟨result, _⟩ | ⟨result, _⟩ | ⟨result, _⟩ <;>
      rw [result]
    · exact of_sched rfl fun active => absurd active Bool.false_ne_true
    · exact of_sched rfl kept.noFault
    · exact of_sched rfl kept.noFault
    · exact of_sched rfl kept.noFault
  · rcases execLanes_cases cfg cid c with ⟨result, _⟩ | ⟨result, _⟩ <;> rw [result]
    · exact of_sched rfl fun active => absurd active Bool.false_ne_true
    · exact of_sched rfl kept.noFault

/-- One step keeps it. -/
theorem IssueKept.stepCore
    (kept : c.IssueKept)
    (mem : ShadowMemory)
    (launch : LaunchRegisters)
    (cid : Nat)
    (fire : Bool) :
    (c.stepCore cfg mem launch cid fire).IssueKept := by
  unfold Core.stepCore
  split_ifs
  · exact of_sched rfl fun _ => rfl
  · exact kept
  · cases state : c.state with
    | sched =>
        show (schedule cfg c).IssueKept
        unfold schedule
        cases circularFirst cfg.numWarps c.rr c.valid with
        | some sel => exact ⟨kept.noFault, fun _ => rfl⟩
        | none => exact of_sched state fun active => absurd active Bool.false_ne_true
    | fetch =>
        refine ⟨kept.noFault, fun _ => kept.pc ?_⟩
        rw [state]
        exact CoreState.noConfusion
    | exec =>
        apply kept.execute
        rw [state]
        exact CoreState.noConfusion
    | memReq =>
        have issued := kept.pc (by rw [state]; exact CoreState.noConfusion)
        show (memoryRequest cfg c).IssueKept
        unfold memoryRequest
        split_ifs
        · exact ⟨kept.noFault, fun _ => issued⟩
        · exact of_sched rfl kept.noFault
        · exact ⟨kept.noFault, fun _ => issued⟩
    | memResp =>
        have issued := kept.pc (by rw [state]; exact CoreState.noConfusion)
        show (memoryResponse cfg mem c).IssueKept
        unfold memoryResponse
        extract_lets context row written
        split_ifs
        · exact of_sched rfl kept.noFault
        · exact ⟨kept.noFault, fun _ => issued⟩

/-- A core is about to execute a word of the block that it holds. -/
structure Executing (c : Core) : Prop where
  active : c.ctaActive = true
  exec : c.state = .exec
  noFault : c.fault = false
  pc : c.pc c.iw = c.ip
  zero : ∀ x, c.gpr x 0 = 0

end Core

namespace Model

variable {cfg : Config} {core : Nat} {m : Model} {ledgers : Nat → LaneLedger}

/-- Along every run register zero of every lane stays zero. -/
theorem Reachable.zero
    (reachable : Reachable cfg m ledgers)
    (inRange : core < cfg.numCores) :
    ∀ x, (m.cores core).gpr x 0 = 0 :=
  reachable.core_induction (fun c => ∀ x, c.gpr x 0 = 0) (fun _ => rfl)
    (fun _ zero mem launch cid fire => Core.zero_stepCore zero mem launch cid fire) inRange

/-- A core that is in `EXEC` with a block, in any state that a run reaches. -/
theorem Reachable.executing
    (reachable : Reachable cfg m ledgers)
    (inRange : core < cfg.numCores)
    (active : (m.cores core).ctaActive = true)
    (exec : (m.cores core).state = .exec) :
    (m.cores core).Executing := by
  have kept : (m.cores core).IssueKept :=
    reachable.core_induction Core.IssueKept (Core.IssueKept.of_sched rfl fun _ => rfl)
      (fun _ kept mem launch cid fire => kept.stepCore mem launch cid fire) inRange
  refine ⟨active, exec, kept.noFault active, kept.pc ?_, reachable.zero inRange⟩
  rw [exec]
  exact CoreState.noConfusion

end Model

end OpenGPU
