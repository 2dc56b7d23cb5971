import OpenGPU.Iss.Opcodes
import OpenGPU.Platform.Bytes

/-!
# The instruction-set simulator: the accesses of an instruction

`step_core` fetches a word and, for a load or a store with a minor opcode that it knows,
accesses the bytes at its effective address. An instruction runs exactly when all these
bytes are in physical memory; otherwise an assertion of `paddr_read` or `paddr_write`
fails.
-/

namespace OpenGPU

/-- Both ends of a short access are in physical memory exactly when all its bytes are. -/
theorem accessInPmem_iff
    {cfg : Config}
    {addr : Word}
    {width : Nat}
    (positive : 0 < width)
    (short : width ≤ 4) :
    accessInPmem cfg addr width = true ↔ BytesInPmem cfg addr width := by
  refine ⟨fun ends index inside => ?_, fun bytes => bytes.access positive⟩
  rw [accessInPmem, Bool.and_eq_true, inPmem_iff, inPmem_iff] at ends
  have place : (addr + BitVec.ofNat 32 width - 1).toNat =
      (addr.toNat + (width - 1)) % 2 ^ 32 := by
    have bound := addr.isLt
    rw [BitVec.toNat_sub, BitVec.toNat_add, BitVec.toNat_ofNat]
    show (2 ^ 32 - 1 + _) % 2 ^ 32 = _
    omega
  have base := cfg.mbase_aligned
  have size := cfg.msize_aligned
  have sizeBound := cfg.msize.isLt
  have fits := cfg.pmem_fits
  rw [place] at ends
  rw [inPmem_iff, BitVec.toNat_add, BitVec.toNat_ofNat]
  omega

namespace Iss

open Instruction

/-- The word at an address. -/
def wordAt (pmem : Pmem) (addr : Word) : Word :=
  littleEndian (fun index => pmem (addr + BitVec.ofNat 32 index)) 4

/-- `step_core` after the fetch. -/
theorem execute_eq
    (cfg : Config)
    (core : IssCore)
    (pmem : Pmem)
    (laneDiverges : Word → Word → Bool) :
    execute cfg core pmem laneDiverges =
      if accessInPmem cfg core.pc 4 then
        if badRegister (wordAt pmem core.pc) then some (fault core pmem)
        else dispatch cfg core pmem laneDiverges (wordAt pmem core.pc)
      else none := by
  unfold execute paddrRead
  cases accessInPmem cfg core.pc 4 <;> rfl

/-- The address and the width of the load that a word asks for. -/
def loadAccess (core : IssCore) (inst : Word) : Option (Word × Nat) :=
  if !badRegister inst && opcode inst == 0x03 then
    (loadWidth (funct3 inst)).map fun width => (core.gpr (rs1 inst).toNat + immI inst, width)
  else none

/-- The address and the width of the store that a word asks for. -/
def storeAccess (core : IssCore) (inst : Word) : Option (Word × Nat) :=
  if !badRegister inst && opcode inst == 0x23 then
    (storeWidth (funct3 inst)).map fun width => (core.gpr (rs1 inst).toNat + immS inst, width)
  else none

/-- All bytes that the next instruction of a context accesses are in physical memory. -/
structure StaysInside (cfg : Config) (core : IssCore) (pmem : Pmem) : Prop where
  fetch : BytesInPmem cfg core.pc 4
  load : ∀ access ∈ loadAccess core (wordAt pmem core.pc), BytesInPmem cfg access.1 access.2
  store : ∀ access ∈ storeAccess core (wordAt pmem core.pc), BytesInPmem cfg access.1 access.2

section Accesses

variable {cfg : Config} {core : IssCore} {pmem : Pmem} {laneDiverges : Word → Word → Bool}
  {inst : Word}

theorem loadWidth_bounds
    {minor : Word}
    {width : Nat}
    (found : loadWidth minor = some width) :
    0 < width ∧ width ≤ 4 := by
  unfold loadWidth at found
  split_ifs at found <;> cases found <;> decide

theorem storeWidth_bounds
    {minor : Word}
    {width : Nat}
    (found : storeWidth minor = some width) :
    0 < width ∧ width ≤ 4 := by
  unfold storeWidth at found
  split_ifs at found <;> cases found <;> decide

/-- A load is defined exactly when the bytes are in physical memory. -/
theorem loadMem_isSome_iff
    (pmem : Pmem)
    (addr minor : Word) :
    (loadMem cfg pmem addr minor).isSome = true ↔
      ∀ width ∈ loadWidth minor, BytesInPmem cfg addr width := by
  unfold loadMem
  cases found : loadWidth minor with
  | none => simp
  | some width =>
      obtain ⟨positive, short⟩ := loadWidth_bounds found
      rw [Option.isSome_map, paddrRead]
      simp only [Option.mem_def, Option.some.injEq, forall_eq']
      rw [← accessInPmem_iff positive short]
      split_ifs with access <;> simp [access]

/-- A store is defined exactly when the bytes are in physical memory. -/
theorem storeMem_isSome_iff
    (pmem : Pmem)
    (addr value minor : Word) :
    (storeMem cfg pmem addr value minor).isSome = true ↔
      ∀ width ∈ storeWidth minor, BytesInPmem cfg addr width := by
  unfold storeMem
  cases found : storeWidth minor with
  | none => simp
  | some width =>
      obtain ⟨positive, short⟩ := storeWidth_bounds found
      rw [Option.isSome_map, paddrWrite]
      simp only [Option.mem_def, Option.some.injEq, forall_eq']
      rw [← accessInPmem_iff positive short]
      split_ifs with access <;> simp [access]

/-- Opcodes other than loads and stores are always defined. -/
theorem dispatch_isSome
    (noLoad : opcode inst ≠ 0x03)
    (noStore : opcode inst ≠ 0x23) :
    (dispatch cfg core pmem laneDiverges inst).isSome = true := by
  by_cases known : Known (opcode inst)
  · rcases known with code | code | code | code | code | code | code | code | code | code
    · rw [dispatch_lui code, Option.isSome_some]
    · rw [dispatch_auipc code, Option.isSome_some]
    · rw [dispatch_opImm code]
      cases opImm inst (core.gpr (rs1 inst).toNat) <;> rfl
    · rw [dispatch_op code]
      cases op inst (core.gpr (rs1 inst).toNat) (core.gpr (rs2 inst).toNat) <;> rfl
    · exact absurd code noLoad
    · exact absurd code noStore
    · rw [dispatch_branch code]
      cases branchTake inst (core.gpr (rs1 inst).toNat) (core.gpr (rs2 inst).toNat) <;> rfl
    · rw [dispatch_jal code, Option.isSome_some]
    · rw [dispatch_jalr code]
      split_ifs <;> rfl
    · rw [dispatch_system code]
      split_ifs
      · rfl
      · cases core.csrValue (csr inst) <;> rfl
      · rfl
  · rw [dispatch_reserved known, Option.isSome_some]

/-- The switch is defined exactly when the data access stays in physical memory. -/
theorem dispatch_isSome_iff
    (legal : badRegister inst = false) :
    (dispatch cfg core pmem laneDiverges inst).isSome = true ↔
      (∀ access ∈ loadAccess core inst, BytesInPmem cfg access.1 access.2) ∧
        ∀ access ∈ storeAccess core inst, BytesInPmem cfg access.1 access.2 := by
  unfold loadAccess storeAccess
  rw [legal, Bool.not_false, Bool.true_and, Bool.true_and]
  rcases eq_or_ne (opcode inst) 0x03 with load | noLoad
  · rw [dispatch_load load, Option.isSome_map, loadMem_isSome_iff, load]
    simp
  · rcases eq_or_ne (opcode inst) 0x23 with store | noStore
    · rw [dispatch_store store, Option.isSome_map, storeMem_isSome_iff, store]
      simp
    · rw [beq_false_of_ne noLoad, beq_false_of_ne noStore]
      simp [dispatch_isSome noLoad noStore]

/-- An instruction runs exactly when its accesses stay in physical memory. -/
theorem execute_isSome_iff :
    (execute cfg core pmem laneDiverges).isSome = true ↔ StaysInside cfg core pmem := by
  rw [execute, paddrRead]
  by_cases fetch : accessInPmem cfg core.pc 4 = true
  · rw [if_pos fetch, Option.bind_some]
    have fetched := (accessInPmem_iff (by decide) (by decide)).mp fetch
    show (if badRegister (wordAt pmem core.pc) then some (fault core pmem)
      else dispatch cfg core pmem laneDiverges (wordAt pmem core.pc)).isSome = true ↔ _
    cases legal : badRegister (wordAt pmem core.pc) with
    | true =>
        rw [if_pos rfl, Option.isSome_some]
        refine iff_of_true rfl ⟨fetched, ?_, ?_⟩
        · rw [loadAccess, legal]
          exact fun _ absent => absurd absent (Option.not_mem_none _)
        · rw [storeAccess, legal]
          exact fun _ absent => absurd absent (Option.not_mem_none _)
    | false =>
        rw [if_neg (by decide), dispatch_isSome_iff legal]
        exact ⟨fun data => ⟨fetched, data.1, data.2⟩, fun inside => ⟨inside.load, inside.store⟩⟩
  · rw [if_neg fetch, Option.bind_none]
    refine iff_of_false (by decide) fun inside => fetch ?_
    exact inside.fetch.access (by decide)

end Accesses

end Iss

end OpenGPU
