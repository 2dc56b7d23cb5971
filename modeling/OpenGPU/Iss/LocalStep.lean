import OpenGPU.Iss.Launch
import OpenGPU.Platform.PmemAction

/-!
# The instruction-set simulator: what a step touches

One `gpu_iss_step` as a local action on physical memory: it fetches one word and,
for a load or a store, accesses the bytes of the operand. The simulator's own copy
of the memory is lent to it for the step.
-/

namespace OpenGPU

namespace Iss

open Instruction

/-- The switch of `step_core` as an action. Only loads and stores look at the
memory. -/
def dispatchAction (cfg : Config) (core : IssCore) (laneDiverges : Word → Word → Bool)
    (inst : Word) : PmemAction (IssCore × Bool) :=
  let a := operand core (usesRs1 (opcode inst)) (rs1 inst)
  let b := operand core (usesRs2 (opcode inst)) (rs2 inst)
  let finish (result : Word) (faulted : Bool) :=
    let retired := retire core (fun _ => 0) inst result (core.pc + 4) faulted
    (retired.core, retired.faulted)
  if opcode inst = 0x03 then
    match loadWidth (funct3 inst) with
    | some width => do
        let raw ← PmemAction.paddrRead cfg (a + immI inst) width
        pure (finish (extendLoad (funct3 inst) raw) false)
    | none => pure (finish 0 true)
  else if opcode inst = 0x23 then
    match storeWidth (funct3 inst) with
    | some width => do
        PmemAction.paddrWrite cfg (a + immS inst) width b
        pure (finish 0 false)
    | none => pure (finish 0 true)
  else
    .ofOption ((dispatch cfg core (fun _ => 0) laneDiverges inst).map fun result =>
      (result.core, result.faulted))

/-- `step_core` up to the other contexts, as an action. -/
def executeAction (cfg : Config) (core : IssCore) (laneDiverges : Word → Word → Bool) :
    PmemAction (IssCore × Bool) := do
  let inst ← PmemAction.paddrRead cfg core.pc 4
  if badRegister inst then pure ({ core with halted := true }, true)
  else dispatchAction cfg core laneDiverges inst

/-- `step_core` on context `index` as an action. -/
def stepCoreAction (cfg : Config) (s : Iss) (index : Nat) : PmemAction Iss := do
  let result ← executeAction cfg (s.cores index) (s.laneDiverges index)
  pure
    { s with
      cores := Function.update s.cores index result.1
      faulted := s.faulted || result.2 }

/-- The scan of `gpu_iss_step` as an action. -/
def scanAction (cfg : Config) : Nat → Iss → PmemAction Iss
  | 0, s => pure s
  | remaining + 1, s =>
      let index := s.rr
      let s := { s with rr := (s.rr + 1) % s.ncores }
      if (s.cores index).halted then scanAction cfg remaining s
      else stepCoreAction cfg s index

/-- `gpu_iss_step` as an action. -/
def stepAction (cfg : Config) (s : Iss) : PmemAction Iss :=
  if s.done then pure s else scanAction cfg s.ncores s

/-! ## The actions are the functions of the simulator -/

section Run

variable {cfg : Config}

/-- What the answer of a function on the simulator says of the simulator and of
the memory that was lent to it. -/
def returnLent (s after : Iss) : Iss × Pmem := ({ after with pmem := s.pmem }, after.pmem)

/-- An instruction that is neither a load nor a store passes the memory on. -/
theorem dispatch_pmem
    (cfg : Config)
    (core : IssCore)
    (pmem other : Pmem)
    (laneDiverges : Word → Word → Bool)
    {inst : Word}
    (noLoad : opcode inst ≠ 0x03)
    (noStore : opcode inst ≠ 0x23) :
    dispatch cfg core pmem laneDiverges inst =
      (dispatch cfg core other laneDiverges inst).map fun result =>
        { result with pmem := pmem } := by
  unfold dispatch
  dsimp only
  generalize operand core (usesRs1 (opcode inst)) (rs1 inst) = a
  generalize operand core (usesRs2 (opcode inst)) (rs2 inst) = b
  rcases eq_or_ne (opcode inst) 0x37 with upper | upper
  · rw [if_pos upper, if_pos upper]
    rfl
  rw [if_neg upper, if_neg upper]
  rcases eq_or_ne (opcode inst) 0x17 with auipc | auipc
  · rw [if_pos auipc, if_pos auipc]
    rfl
  rw [if_neg auipc, if_neg auipc]
  rcases eq_or_ne (opcode inst) 0x13 with immediate | immediate
  · rw [if_pos immediate, if_pos immediate]
    cases opImm inst a <;> rfl
  rw [if_neg immediate, if_neg immediate]
  rcases eq_or_ne (opcode inst) 0x33 with register | register
  · rw [if_pos register, if_pos register]
    cases op inst a b <;> rfl
  rw [if_neg register, if_neg register, if_neg noLoad, if_neg noLoad, if_neg noStore,
    if_neg noStore]
  rcases eq_or_ne (opcode inst) 0x63 with branch | branch
  · rw [if_pos branch, if_pos branch]
    cases branchTake inst a b <;> rfl
  rw [if_neg branch, if_neg branch]
  rcases eq_or_ne (opcode inst) 0x6f with jump | jump
  · rw [if_pos jump, if_pos jump]
    rfl
  rw [if_neg jump, if_neg jump]
  rcases eq_or_ne (opcode inst) 0x67 with indirect | indirect
  · rw [if_pos indirect, if_pos indirect]
    cases laneDiverges inst (core.jalrTarget inst) <;> rfl
  rw [if_neg indirect, if_neg indirect]
  rcases eq_or_ne (opcode inst) 0x73 with system | system
  · rw [if_pos system, if_pos system]
    rcases eq_or_ne inst ebreak with stop | stop
    · rw [if_pos stop, if_pos stop]
      rfl
    rw [if_neg stop, if_neg stop]
    by_cases readsCsr : funct3 inst = 2 ∧ rs1 inst = 0
    · rw [if_pos readsCsr, if_pos readsCsr]
      cases core.csrValue (csr inst) <;> rfl
    · rw [if_neg readsCsr, if_neg readsCsr]
      rfl
  · rw [if_neg system, if_neg system]
    rfl

theorem run_dispatchAction
    (core : IssCore)
    (laneDiverges : Word → Word → Bool)
    (inst : Word)
    (pmem : Pmem) :
    (dispatchAction cfg core laneDiverges inst).run pmem =
      (dispatch cfg core pmem laneDiverges inst).map fun result =>
        ((result.core, result.faulted), result.pmem) := by
  unfold dispatchAction
  dsimp only
  split_ifs with load store
  · unfold dispatch loadMem
    dsimp only
    rw [if_neg (by rw [load]; decide), if_neg (by rw [load]; decide),
      if_neg (by rw [load]; decide), if_neg (by rw [load]; decide), if_pos load]
    cases loadWidth (funct3 inst) with
    | none => rfl
    | some width =>
        dsimp only
        rw [LocalAction.run_bind, PmemAction.run_paddrRead]
        cases paddrRead cfg pmem _ width <;> rfl
  · unfold dispatch storeMem
    dsimp only
    rw [if_neg (by rw [store]; decide), if_neg (by rw [store]; decide),
      if_neg (by rw [store]; decide), if_neg (by rw [store]; decide), if_neg load, if_pos store]
    cases storeWidth (funct3 inst) with
    | none => rfl
    | some width =>
        dsimp only
        rw [LocalAction.run_bind, PmemAction.run_paddrWrite]
        cases paddrWrite cfg pmem _ width _ <;> rfl
  · rw [LocalAction.run_ofOption, dispatch_pmem cfg core pmem (fun _ => 0) _ load store]
    cases dispatch cfg core (fun _ => 0) laneDiverges inst <;> rfl

theorem run_executeAction
    (core : IssCore)
    (laneDiverges : Word → Word → Bool)
    (pmem : Pmem) :
    (executeAction cfg core laneDiverges).run pmem =
      (execute cfg core pmem laneDiverges).map fun result =>
        ((result.core, result.faulted), result.pmem) := by
  unfold executeAction execute
  rw [LocalAction.run_bind, PmemAction.run_paddrRead]
  cases paddrRead cfg pmem core.pc 4 with
  | none => rfl
  | some inst =>
      rw [Option.map_some, Option.bind_some, Option.bind_some]
      split_ifs
      · rfl
      · exact run_dispatchAction core laneDiverges inst pmem

theorem run_stepCoreAction
    (s : Iss)
    (index : Nat)
    (pmem : Pmem) :
    (stepCoreAction cfg s index).run pmem =
      (stepCore cfg { s with pmem := pmem } index).map (returnLent s) := by
  unfold stepCoreAction
  rw [LocalAction.run_bind, run_executeAction]
  show _ = ((execute cfg (s.cores index) pmem (s.laneDiverges index)).map _).map (returnLent s)
  cases execute cfg (s.cores index) pmem (s.laneDiverges index) <;> rfl

theorem run_scanAction
    (remaining : Nat)
    (s : Iss)
    (pmem : Pmem) :
    (scanAction cfg remaining s).run pmem =
      (scan cfg remaining { s with pmem := pmem }).map fun result => returnLent s result.2 := by
  induction remaining generalizing s with
  | zero => rfl
  | succ remaining inductionHypothesis =>
      rw [scanAction, scan]
      dsimp only
      split_ifs
      · exact inductionHypothesis _
      · rw [run_stepCoreAction, Option.map_map]
        rfl

/-- The action is `gpu_iss_step` on a simulator that holds the memory. -/
theorem run_stepAction
    (s : Iss)
    (pmem : Pmem) :
    (stepAction cfg s).run pmem =
      (gpuIssStep cfg { s with pmem := pmem }).map fun result => returnLent s result.2 := by
  unfold stepAction gpuIssStep
  have same : ({ s with pmem := pmem } : Iss).done = s.done := rfl
  rw [same]
  split_ifs
  · rfl
  · exact run_scanAction s.ncores s pmem

end Run

end Iss

end OpenGPU
