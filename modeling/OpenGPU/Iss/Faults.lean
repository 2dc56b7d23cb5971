import OpenGPU.Iss.Opcodes

/-!
# The instruction-set simulator: what a fault leaves behind

`fault_core` halts the context and raises the fault flag, and nearly every arm of
`step_core` that calls it returns at once. Loads and stores with a minor opcode that
does not exist call it too, but go on to the common tail.
-/

namespace OpenGPU

namespace Iss

open Instruction

/-- `fault_core` on a context. -/
def faultCore (s : Iss) (index : Nat) : Iss :=
  { s with
    cores := Function.update s.cores index { s.cores index with halted := true }
    faulted := true }

/-- The next `step_core` of a context raises a fault. -/
def Raises (cfg : Config) (s : Iss) (index : Nat) : Prop :=
  ∃ result, execute cfg (s.cores index) s.pmem (s.laneDiverges index) = some result ∧
    result.faulted = true

/-- If the next `step_core` of a context raises a fault, it halts the context and
changes nothing else: no register, no program counter, no other context and no
byte of memory. -/
def FaultsIntact (cfg : Config) (s : Iss) (index : Nat) : Prop :=
  Raises cfg s index → stepCore cfg s index = some (s.faultCore index)

/-- A load or a store that passes the register check and whose minor opcode does
not exist. -/
def ReservedAccess (inst : Word) : Prop :=
  badRegister inst = false ∧
    (opcode inst = 0x03 ∧ loadWidth (funct3 inst) = none ∨
      opcode inst = 0x23 ∧ storeWidth (funct3 inst) = none)

section Faults

variable {cfg : Config} {core : IssCore} {pmem : Pmem} {laneDiverges : Word → Word → Bool}
  {inst : Word} {result : StepResult}

/-- A load with a minor opcode that does not exist reaches the common tail. -/
theorem dispatch_reserved_load
    (load : opcode inst = 0x03)
    (reserved : loadWidth (funct3 inst) = none) :
    dispatch cfg core pmem laneDiverges inst =
      some (retire core pmem inst 0 (core.pc + 4) true) := by
  rw [dispatch_load load, loadMem, reserved]
  rfl

/-- So does such a store. -/
theorem dispatch_reserved_store
    (store : opcode inst = 0x23)
    (reserved : storeWidth (funct3 inst) = none) :
    dispatch cfg core pmem laneDiverges inst =
      some (retire core pmem inst 0 (core.pc + 4) true) := by
  rw [dispatch_store store, storeMem, reserved]
  rfl

/-- A load that faults has such a minor opcode. -/
theorem loadWidth_of_faulted
    {addr minor : Word}
    {loaded : Word × Bool}
    (ran : loadMem cfg pmem addr minor = some loaded)
    (faulted : loaded.2 = true) :
    loadWidth minor = none := by
  unfold loadMem at ran
  cases found : loadWidth minor with
  | none => rfl
  | some width =>
      rw [found] at ran
      obtain ⟨raw, _, rfl⟩ := Option.map_eq_some_iff.mp ran
      exact absurd faulted Bool.false_ne_true

theorem storeWidth_of_faulted
    {addr value minor : Word}
    {stored : Pmem × Bool}
    (ran : storeMem cfg pmem addr value minor = some stored)
    (faulted : stored.2 = true) :
    storeWidth minor = none := by
  unfold storeMem at ran
  cases found : storeWidth minor with
  | none => rfl
  | some width =>
      rw [found] at ran
      obtain ⟨written, _, rfl⟩ := Option.map_eq_some_iff.mp ran
      exact absurd faulted Bool.false_ne_true

/-- An arm that faults returns at once, loads and stores apart. -/
theorem dispatch_of_faulted
    (ran : dispatch cfg core pmem laneDiverges inst = some result)
    (faulted : result.faulted = true) :
    result = fault core pmem ∨
      opcode inst = 0x03 ∧ loadWidth (funct3 inst) = none ∨
      opcode inst = 0x23 ∧ storeWidth (funct3 inst) = none := by
  by_cases known : Known (opcode inst)
  · rcases known with code | code | code | code | code | code | code | code | code | code
    · rw [dispatch_lui code] at ran
      cases ran
      cases faulted
    · rw [dispatch_auipc code] at ran
      cases ran
      cases faulted
    · rw [dispatch_opImm code] at ran
      cases computed : opImm inst (core.gpr (rs1 inst).toNat) <;> rw [computed] at ran <;>
        cases ran
      · exact Or.inl rfl
      · cases faulted
    · rw [dispatch_op code] at ran
      cases computed : op inst (core.gpr (rs1 inst).toNat) (core.gpr (rs2 inst).toNat) <;>
        rw [computed] at ran <;> cases ran
      · exact Or.inl rfl
      · cases faulted
    · rw [dispatch_load code, Option.map_eq_some_iff] at ran
      obtain ⟨loaded, found, rfl⟩ := ran
      exact Or.inr (Or.inl ⟨code, loadWidth_of_faulted found faulted⟩)
    · rw [dispatch_store code, Option.map_eq_some_iff] at ran
      obtain ⟨stored, found, rfl⟩ := ran
      exact Or.inr (Or.inr ⟨code, storeWidth_of_faulted found faulted⟩)
    · rw [dispatch_branch code] at ran
      cases taken : branchTake inst (core.gpr (rs1 inst).toNat) (core.gpr (rs2 inst).toNat) <;>
        rw [taken] at ran <;> cases ran
      · exact Or.inl rfl
      · cases faulted
    · rw [dispatch_jal code] at ran
      cases ran
      cases faulted
    · rw [dispatch_jalr code] at ran
      split_ifs at ran <;> cases ran
      · exact Or.inl rfl
      · cases faulted
    · rw [dispatch_system code] at ran
      split_ifs at ran
      · cases ran
        cases faulted
      · cases read : core.csrValue (csr inst) <;> rw [read] at ran <;> cases ran
        · exact Or.inl rfl
        · cases faulted
      · cases ran
        exact Or.inl rfl
  · rw [dispatch_reserved known] at ran
    cases ran
    exact Or.inl rfl

/-- A word other than a reserved access that faults leaves its context alone. -/
theorem execute_of_faulted
    (fetch : paddrRead cfg pmem core.pc 4 = some inst)
    (strict : ¬ReservedAccess inst)
    (ran : execute cfg core pmem laneDiverges = some result)
    (faulted : result.faulted = true) :
    result = fault core pmem := by
  rw [execute, fetch, Option.bind_some] at ran
  split_ifs at ran with bad
  · exact (Option.some.inj ran).symm
  · exact (dispatch_of_faulted ran faulted).resolve_right
      fun reserved => strict ⟨Bool.eq_false_iff.mpr bad, reserved⟩

/-- A reserved access raises a fault and advances all the same. -/
theorem execute_of_reserved
    (fetch : paddrRead cfg pmem core.pc 4 = some inst)
    (reserved : ReservedAccess inst) :
    execute cfg core pmem laneDiverges =
      some (retire core pmem inst 0 (core.pc + 4) true) := by
  obtain ⟨legal, access⟩ := reserved
  rw [execute, fetch, Option.bind_some, if_neg (Bool.eq_false_iff.mp legal)]
  rcases access with ⟨load, width⟩ | ⟨store, width⟩
  · exact dispatch_reserved_load load width
  · exact dispatch_reserved_store store width

end Faults

/-- A reserved access does not leave its context alone: the common tail moves the
program counter. -/
theorem not_faultsIntact_of_reserved
    {cfg : Config}
    {s : Iss}
    {index : Nat}
    {inst : Word}
    (fetch : paddrRead cfg s.pmem (s.cores index).pc 4 = some inst)
    (reserved : ReservedAccess inst) :
    ¬FaultsIntact cfg s index := by
  intro intact
  have executed : execute cfg (s.cores index) s.pmem (s.laneDiverges index) =
      some (retire (s.cores index) s.pmem inst 0 ((s.cores index).pc + 4) true) :=
    execute_of_reserved fetch reserved
  have stepped := intact ⟨_, executed, rfl⟩
  rw [stepCore, executed] at stepped
  have moved := congrArg (fun next : Option Iss => next.map fun s => (s.cores index).pc) stepped
  simp only [Option.map_some, faultCore, Function.update_self, retire, Option.some.injEq] at moved
  exact absurd moved (by simp)

/-- A fault leaves its context alone exactly when the word that raises it is not a
load or a store with a minor opcode that does not exist. -/
theorem faultsIntact_iff
    (cfg : Config)
    (s : Iss)
    (index : Nat) :
    FaultsIntact cfg s index ↔
      ∀ inst, paddrRead cfg s.pmem (s.cores index).pc 4 = some inst → ¬ReservedAccess inst := by
  constructor
  · intro intact inst fetch reserved
    exact not_faultsIntact_of_reserved fetch reserved intact
  · rintro strict ⟨result, executed, faulted⟩
    have fetched : ∃ inst, paddrRead cfg s.pmem (s.cores index).pc 4 = some inst := by
      rw [execute, Option.bind_eq_some_iff] at executed
      obtain ⟨inst, fetch, _⟩ := executed
      exact ⟨inst, fetch⟩
    obtain ⟨inst, fetch⟩ := fetched
    rw [stepCore, executed, execute_of_faulted fetch (strict inst fetch) executed faulted]
    simp [faultCore, fault]

/-- A simulator whose one context is about to run `0x00003083`, a load into `x1` with
minor opcode three. -/
def loadingDouble : Iss :=
  { fresh (fun place => wordByte 0x00003083 (place.toNat % 4)) with
    cores := fun _ => { zeroedCore with pc := Config.oneLane.mbase }
    ncores := 1 }

/-- It halts one word further on. -/
theorem not_faultsIntact_load : ¬FaultsIntact Config.oneLane loadingDouble 0 :=
  not_faultsIntact_of_reserved
    (show paddrRead Config.oneLane loadingDouble.pmem (loadingDouble.cores 0).pc 4 =
      some 0x00003083 by decide)
    ⟨by decide, Or.inl ⟨by decide, by decide⟩⟩

end Iss

end OpenGPU
