import OpenGPU.Iss.Opcodes
import OpenGPU.Lockstep.LaneResult

/-!
# What a lane and its thread compute

The cycle model and the instruction-set simulator decode the same words apart. Register
arithmetic, jumps and CSR reads of a lane and of its thread agree, but for one slip: the
kind of an immediate right shift is read from bit 30 on one side and from the top seven
bits on the other.
-/

namespace OpenGPU

open Instruction

/-! ## The simulator -/

namespace Iss

section Thread

variable {cfg : Config} {core : IssCore} {pmem : Pmem} {laneDiverges : Word → Word → Bool}
  {inst : Word}

/-- What a thread computes for a word that is no load, store or branch; `none` is a
fault. -/
def threadResult (core : IssCore) (inst : Word) : Option Word :=
  if opcode inst = 0x37 then some (inst &&& 0xfffff000)
  else if opcode inst = 0x17 then some (core.pc + (inst &&& 0xfffff000))
  else if opcode inst = 0x13 then opImm inst (core.gpr (rs1 inst).toNat)
  else if opcode inst = 0x33 then
    op inst (core.gpr (rs1 inst).toNat) (core.gpr (rs2 inst).toNat)
  else if opcode inst = 0x6f then some (core.pc + 4)
  else if opcode inst = 0x67 then some (core.pc + 4)
  else if opcode inst = 0x73 then
    if funct3 inst = 2 ∧ rs1 inst = 0 then core.csrValue (csr inst) else none
  else none

/-- Where a thread goes on after such a word. -/
def threadNext (core : IssCore) (inst : Word) : Word :=
  if opcode inst = 0x6f then core.pc + immJ inst
  else if opcode inst = 0x67 then core.jalrTarget inst
  else core.pc + 4

/-- The arm of `step_core` for such a word, unless a `JALR` diverges. -/
theorem dispatch_thread
    (noLoad : opcode inst ≠ 0x03)
    (noStore : opcode inst ≠ 0x23)
    (noBranch : opcode inst ≠ 0x63)
    (noEbreak : inst ≠ ebreak)
    (uniform : opcode inst = 0x67 → laneDiverges inst (core.jalrTarget inst) = false) :
    dispatch cfg core pmem laneDiverges inst =
      some (match threadResult core inst with
        | some value => retire core pmem inst value (threadNext core inst) false
        | none => fault core pmem) := by
  unfold threadResult threadNext
  by_cases known : Known (opcode inst)
  · rcases known with code | code | code | code | code | code | code | code | code | code
    · rw [dispatch_lui code, code]
      rfl
    · rw [dispatch_auipc code, code]
      rfl
    · rw [dispatch_opImm code, code]
      show _ = some (match opImm inst (core.gpr (rs1 inst).toNat) with
        | some value => retire core pmem inst value (core.pc + 4) false
        | none => fault core pmem)
      cases opImm inst (core.gpr (rs1 inst).toNat) <;> rfl
    · rw [dispatch_op code, code]
      show _ = some (match op inst (core.gpr (rs1 inst).toNat) (core.gpr (rs2 inst).toNat) with
        | some value => retire core pmem inst value (core.pc + 4) false
        | none => fault core pmem)
      cases op inst (core.gpr (rs1 inst).toNat) (core.gpr (rs2 inst).toNat) <;> rfl
    · exact absurd code noLoad
    · exact absurd code noStore
    · exact absurd code noBranch
    · rw [dispatch_jal code, code]
      rfl
    · rw [dispatch_jalr code, uniform code, code]
      rfl
    · rw [dispatch_system code, if_neg noEbreak, code]
      show _ = some (match ite (funct3 inst = 2 ∧ rs1 inst = 0) (core.csrValue (csr inst)) none with
        | some value => retire core pmem inst value (core.pc + 4) false
        | none => fault core pmem)
      split_ifs
      · cases core.csrValue (csr inst) <;> rfl
      · rfl
  · rw [dispatch_reserved known]
    unfold Known at known
    push Not at known
    obtain ⟨h0, h1, h2, h3, h4, h5, h6, h7, h8, h9⟩ := known
    rw [if_neg h0, if_neg h1, if_neg h2, if_neg h3, if_neg h7, if_neg h8, if_neg h9]

end Thread

end Iss

/-! ## Immediate shifts -/

/-- An immediate right shift with bit 30 set whose top seven bits are not those of
`SRAI`. -/
def MixedShift (inst : Word) : Prop :=
  opcode inst = 0x13 ∧ funct3 inst = 5 ∧ (inst >>> 30) &&& 1 ≠ 0 ∧ funct7 inst ≠ 0x20

instance (inst : Word) : Decidable (MixedShift inst) :=
  inferInstanceAs (Decidable (_ ∧ _ ∧ _ ∧ _))

/-- The top seven bits of `SRAI` include bit 30. -/
theorem bit30_of_funct7
    {inst : Word}
    (top : funct7 inst = 0x20) :
    (inst >>> 30) &&& 1 ≠ 0 := by
  rw [show inst >>> 30 = funct7 inst >>> 5 from BitVec.shiftRight_add inst 25 5, top]
  decide

theorem shamt_lt
    (inst : Word) :
    (shamt inst).toNat < 32 := by
  rw [toNat_shamt]
  exact (Verilog.Decode.rs2 inst).isLt

/-- Both decoders take the same register-immediate value, unless they look at different
bits of a right shift that shifts in copies of a set sign. -/
theorem opImm_eq_iff
    {inst : Word}
    (code : opcode inst = 0x13)
    (a : Word) :
    Iss.opImm inst a = Core.opImm inst a ↔
      ¬(MixedShift inst ∧ shamt inst ≠ 0 ∧ a.msb = true) := by
  by_cases minor : funct3 inst = 5
  · have thread : Iss.opImm inst a =
        some (if funct7 inst = 0x20 then a.sshiftRight' (shamt inst) else a >>> shamt inst) := by
      unfold Iss.opImm
      rw [minor]
      rfl
    have lane : Core.opImm inst a =
        some (if (inst >>> 30) &&& 1 ≠ 0 then a.sshiftRight' (shamt inst)
          else a >>> shamt inst) := by
      unfold Core.opImm
      rw [minor]
      rfl
    rw [thread, lane, Option.some_inj]
    by_cases top : funct7 inst = 0x20
    · rw [if_pos top, if_pos (bit30_of_funct7 top)]
      exact iff_of_true rfl fun mixed => mixed.1.2.2.2 top
    · rw [if_neg top]
      by_cases bit : (inst >>> 30) &&& 1 ≠ 0
      · rw [if_pos bit, eq_comm, BitVec.sshiftRight', BitVec.ushiftRight_eq',
          sshiftRight_eq_iff a (shamt_lt inst)]
        have mixed : MixedShift inst := ⟨code, minor, bit, top⟩
        rw [and_iff_right mixed, not_and_or, not_not, or_comm, Bool.not_eq_true]
        refine or_congr ?_ Iff.rfl
        exact ⟨fun zero => BitVec.eq_of_toNat_eq zero, fun zero => congrArg BitVec.toNat zero⟩
      · rw [if_neg bit]
        exact iff_of_true rfl fun mixed => bit mixed.1.2.2.1
  · have same : Iss.opImm inst a = Core.opImm inst a := by
      unfold Iss.opImm Core.opImm
      rw [if_neg minor, if_neg minor]
    exact iff_of_true same fun mixed => minor mixed.1.2.1

/-! ## A lane and its thread -/

/-- The context of the simulator that lane `t` of the issued warp is. -/
def Core.thread (cfg : Config) (cid : Nat) (c : Core) (t : Nat) : IssCore where
  gpr := c.gpr (c.context cfg t)
  pc := c.ip
  hartid := c.gid (c.context cfg t)
  physicalId := BitVec.ofNat 32 (cid * cfg.contexts + c.iw * cfg.numThreads + t)
  argsAddr := c.args
  threadIdx := ⟨c.tx (c.context cfg t), c.ty (c.context cfg t), c.tz (c.context cfg t)⟩
  blockIdx := c.block
  blockDim := c.dim
  gridDim := c.grid
  warpId := BitVec.ofNat 32 c.iw
  laneId := BitVec.ofNat 32 t
  halted := false

/-- A context has the sixteen registers, the program counter and the CSR values of lane
`t`, and is not halted. -/
structure IsThread (cfg : Config) (cid : Nat) (c : Core) (t : Nat) (core : IssCore) :
    Prop where
  gpr : ∀ r, r < 16 → core.gpr r = c.gpr (c.context cfg t) r
  rest : core = { c.thread cfg cid t with gpr := core.gpr }

/-- The CSR number of a word is its top twelve bits. -/
theorem csr_eq_top
    (inst : Word) :
    csr inst = inst >>> 20 := by
  apply BitVec.eq_of_toNat_eq
  rw [csr, BitVec.toNat_and, BitVec.toNat_ushiftRight, Nat.shiftRight_eq_div_pow,
    show (0xfff : Word).toNat = 2 ^ 12 - 1 from rfl, Nat.and_two_pow_sub_one_eq_mod]
  have := inst.isLt
  omega

namespace IsThread

variable {cfg : Config} {cid : Nat} {c : Core} {t : Nat} {core : IssCore}

theorem pc
    (same : IsThread cfg cid c t core) :
    core.pc = c.ip := by
  rw [same.rest]
  rfl

/-- A register that the word names. -/
theorem laneRegister
    (same : IsThread cfg cid c t core)
    {register : Word}
    (legal : register < 16) :
    core.gpr register.toNat = c.laneRegister cfg t register := by
  have small : register.toNat < 16 := BitVec.lt_def.mp legal
  have whole : (register &&& 15).toNat = register.toNat := by
    rw [BitVec.toNat_and, show (15 : Word).toNat = 2 ^ 4 - 1 from rfl,
      Nat.and_two_pow_sub_one_eq_mod]
    exact Nat.mod_eq_of_lt small
  rw [Core.laneRegister, whole]
  exact same.gpr _ small

/-- A CSR read, number by number. -/
theorem csrValue
    (same : IsThread cfg cid c t core)
    (number : Word) :
    core.csrValue number = Core.csrValue cfg cid c t number := by
  rw [same.rest]
  rfl

/-- The source registers of a word that passes the register check. -/
theorem rs1
    (same : IsThread cfg cid c t core)
    (legal : badRegister c.inst = false)
    (reads : usesRs1 (opcode c.inst) = true) :
    core.gpr (Instruction.rs1 c.inst).toNat = c.laneRegister cfg t (Instruction.rs1 c.inst) := by
  apply same.laneRegister
  unfold badRegister at legal
  rw [Bool.or_eq_false_iff, Bool.or_eq_false_iff, reads, Bool.true_and] at legal
  exact BitVec.not_le.mp (decide_eq_false_iff_not.mp legal.1.2)

theorem rs2
    (same : IsThread cfg cid c t core)
    (legal : badRegister c.inst = false)
    (reads : usesRs2 (opcode c.inst) = true) :
    core.gpr (Instruction.rs2 c.inst).toNat = c.laneRegister cfg t (Instruction.rs2 c.inst) := by
  apply same.laneRegister
  unfold badRegister at legal
  rw [Bool.or_eq_false_iff, reads, Bool.true_and] at legal
  exact BitVec.not_le.mp (decide_eq_false_iff_not.mp legal.2)

/-- The target of `JALR`. -/
theorem jalrTarget
    (same : IsThread cfg cid c t core)
    (legal : badRegister c.inst = false)
    (code : opcode c.inst = 0x67) :
    core.jalrTarget c.inst = c.laneTarget cfg t := by
  rw [IssCore.jalrTarget, Core.laneTarget, same.rs1 legal (by rw [code]; rfl)]

/-- Both compute the same for a word that is no load, store or branch, but for the kind
of an immediate right shift. -/
theorem threadResult_eq_iff
    (same : IsThread cfg cid c t core)
    (legal : badRegister c.inst = false) :
    Iss.threadResult core c.inst = c.issuedResult cfg cid t ↔
      ¬(MixedShift c.inst ∧ shamt c.inst ≠ 0 ∧
        (c.laneRegister cfg t (Instruction.rs1 c.inst)).msb = true) := by
  by_cases immediate : opcode c.inst = 0x13
  · have thread : Iss.threadResult core c.inst =
        Iss.opImm c.inst (core.gpr (Instruction.rs1 c.inst).toNat) := by
      unfold Iss.threadResult
      rw [immediate]
      rfl
    have lane : c.issuedResult cfg cid t =
        Core.opImm c.inst (c.laneRegister cfg t (Instruction.rs1 c.inst)) := by
      unfold Core.issuedResult Core.laneResult
      rw [immediate]
      rfl
    rw [thread, lane, same.rs1 legal (by rw [immediate]; rfl)]
    exact opImm_eq_iff immediate _
  · refine iff_of_true ?_ fun mixed => immediate mixed.1.1
    unfold Iss.threadResult Core.issuedResult Core.laneResult
    rw [if_neg immediate, if_neg immediate, same.pc]
    refine if_congr Iff.rfl rfl (if_congr Iff.rfl rfl ?_)
    by_cases register : opcode c.inst = 0x33
    · rw [if_pos register, if_pos register, same.rs1 legal (by rw [register]; rfl),
        same.rs2 legal (by rw [register]; rfl)]
      rfl
    · rw [if_neg register, if_neg register]
      refine if_congr Iff.rfl rfl (if_congr Iff.rfl rfl (if_congr Iff.rfl ?_ rfl))
      rw [csr_eq_top, same.csrValue]
      by_cases reads : funct3 c.inst = 2 ∧ Instruction.rs1 c.inst = 0
      · rw [if_pos reads, if_neg fun other => other.elim (· reads.1) (· reads.2)]
      · rw [if_neg reads, if_pos (Decidable.not_and_iff_not_or_not.mp reads)]

/-- A thread has a result for the same words as a lane. -/
theorem threadResult_isSome
    (same : IsThread cfg cid c t core) :
    (Iss.threadResult core c.inst).isSome = Core.supported c.inst := by
  have csrs : (core.csrValue (csr c.inst)).isSome = Core.csrListed (c.inst >>> 20) := by
    rw [same.csrValue, Core.csrValue_isSome, csr_eq_top]
  have immediate : ∀ a, (Iss.opImm c.inst a).isSome = true := by
    intro a
    unfold Iss.opImm
    rcases Core.funct3_cases c.inst with f3 | f3 | f3 | f3 | f3 | f3 | f3 | f3 <;> rw [f3] <;> rfl
  unfold Iss.threadResult Core.supported
  simp only [apply_ite Option.isSome, Option.isSome_some, Option.isSome_none, immediate, csrs,
    show ∀ a b, (Iss.op c.inst a b).isSome = true from Core.op_isSome c.inst,
    Bool.if_true_left, Bool.if_false_right, beq_eq_decide, Bool.or_assoc, Bool.decide_and,
    Bool.and_comm]

end IsThread

/-! ## Registers -/

section Rows

variable {writes : Bool} {register : Nat} {row row' : Nat → Word}

/-- Two write-backs give the same sixteen registers when the results agree, if there is
a write at all. -/
theorem writtenRow_eq_iff
    (named : writes = true → register < 16 ∧ register ≠ 0)
    (same : ∀ r, r < 16 → row r = row' r)
    (value value' : Word) :
    (∀ r, r < 16 → writtenRow writes register value row r =
        writtenRow writes register value' row' r) ↔
      (writes = true → value = value') := by
  constructor
  · intro rows write
    obtain ⟨small, positive⟩ := named write
    have here := rows register small
    rwa [writtenRow_of_ne_zero _ _ _ _ positive, writtenRow_of_ne_zero _ _ _ _ positive,
      if_pos ⟨write, rfl⟩, if_pos ⟨write, rfl⟩] at here
  · intro values r small
    rcases eq_or_ne r 0 with rfl | positive
    · rw [writtenRow_zero, writtenRow_zero]
    · rw [writtenRow_of_ne_zero _ _ _ _ positive, writtenRow_of_ne_zero _ _ _ _ positive]
      split_ifs with written
      · exact values written.1
      · exact same r small

/-- No write-back and a write-back of zero give the same registers when the destination
is zero. -/
theorem eq_writtenRow_iff
    (named : writes = true → register < 16 ∧ register ≠ 0)
    (same : ∀ r, r < 16 → row r = row' r)
    (zero : row' 0 = 0) :
    (∀ r, r < 16 → row r = writtenRow writes register 0 row' r) ↔
      (writes = true → row' register = 0) := by
  constructor
  · intro rows write
    obtain ⟨small, positive⟩ := named write
    have here := rows register small
    rwa [writtenRow_of_ne_zero _ _ _ _ positive, if_pos ⟨write, rfl⟩, same register small] at here
  · intro cleared r small
    rcases eq_or_ne r 0 with rfl | positive
    · rw [writtenRow_zero, same 0 small, zero]
    · rw [writtenRow_of_ne_zero _ _ _ _ positive, same r small]
      split_ifs with written
      · rw [written.2]
        exact cleared written.1
      · rfl

end Rows

/-- A destination that a word writes is one of the registers 1 to 15. -/
theorem rd_of_writes
    {inst : Word}
    (legal : badRegister inst = false)
    (write : Core.writes inst = true) :
    (rd inst).toNat < 16 ∧ (rd inst).toNat ≠ 0 := by
  rw [Core.writes, Bool.and_eq_true, bne_iff_ne] at write
  unfold badRegister at legal
  rw [Bool.or_eq_false_iff, Bool.or_eq_false_iff, write.1, Bool.true_and] at legal
  refine ⟨BitVec.lt_def.mp (BitVec.not_le.mp (decide_eq_false_iff_not.mp legal.1.1)), ?_⟩
  exact fun zero => write.2 (BitVec.eq_of_toNat_eq zero)

end OpenGPU
