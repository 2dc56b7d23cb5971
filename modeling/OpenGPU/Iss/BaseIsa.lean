import OpenGPU.Foundation.Rv32e
import OpenGPU.Iss.Opcodes
import OpenGPU.Lockstep.Decode

/-!
# The instruction-set simulator and the base instruction set

A context of the simulator is a thread of the base instruction set: on every word
that encodes an instruction, `step_core` does what the instruction does, divergent
targets of `JALR` apart. Of the words that encode none, it runs a few: `JALR` with
another minor opcode, and arithmetic whose top bits no instruction has.
-/

namespace OpenGPU

namespace Iss

open Instruction

/-! ## Threads -/

/-- The control registers that a kernel can read. -/
def readableCsr (number : BitVec 12) : Bool :=
  number == 0xf14 || (decide (0xcc0 ≤ number) && decide (number ≤ 0xccf))

/-- The control registers of a context. -/
def csrsOf (core : IssCore) (number : BitVec 12) : Word :=
  (core.csrValue (number.setWidth 32)).getD 0

/-- A context as a thread of the base instruction set. -/
def hartOf (core : IssCore) (pmem : Pmem) : Rv32e.Hart where
  x :=
    { value := fun register => if register = 0 then 0 else core.gpr register
      zero := if_pos rfl }
  pc := core.pc
  mem := pmem

/-- A step had the effect of an instruction. -/
def Realises (core : IssCore) (pmem : Pmem) (instr : Rv32e.Instr) (result : StepResult) : Prop :=
  match instr.run (csrsOf core) (hartOf core pmem) with
  | some next => hartOf result.core result.pmem = next ∧ result.core.halted = core.halted
  | none => hartOf result.core result.pmem = hartOf core pmem ∧ result.core.halted = true

/-- The accesses of a word stay in physical memory. A word that fails the register check
makes none. -/
structure AccessesInPmem (cfg : Config) (core : IssCore) (inst : Word) : Prop where
  load : badRegister inst = false → opcode inst = 0x03 →
    ∀ width, loadWidth (funct3 inst) = some width →
      accessInPmem cfg (core.gpr (rs1 inst).toNat + immI inst) width = true
  store : badRegister inst = false → opcode inst = 0x23 →
    ∀ width, storeWidth (funct3 inst) = some width →
      accessInPmem cfg (core.gpr (rs1 inst).toNat + immS inst) width = true

/-- What a step does with a word: fault if it encodes nothing, else the effect of the
instruction. -/
structure Obeys (core : IssCore) (pmem : Pmem) (inst : Word) (result : StepResult) : Prop where
  illegal : Rv32e.decode readableCsr inst = none → result.faulted = true
  legal : ∀ instr, Rv32e.decode readableCsr inst = some instr →
    result.faulted = false ∧ Realises core pmem instr result

section Obeys

variable {core : IssCore} {pmem : Pmem} {inst : Word}

/-- A fault on a word that encodes nothing. -/
theorem Obeys.of_fault
    (nothing : Rv32e.decode readableCsr inst = none) :
    Obeys core pmem inst (fault core pmem) where
  illegal _ := rfl
  legal instr found := by
    rw [nothing] at found
    exact absurd found (Option.some_ne_none instr).symm

/-- A step on a word that encodes an instruction. -/
theorem Obeys.of_run
    {instr : Rv32e.Instr}
    {next : Rv32e.Hart}
    {result : StepResult}
    (found : Rv32e.decode readableCsr inst = some instr)
    (fine : result.faulted = false)
    (runs : instr.run (csrsOf core) (hartOf core pmem) = some next)
    (halted : result.core.halted = core.halted)
    (reaches : hartOf result.core result.pmem = next) :
    Obeys core pmem inst result where
  illegal nothing := by
    rw [nothing] at found
    exact absurd found (Option.some_ne_none instr).symm
  legal other same := by
    obtain rfl := Option.some.inj (found.symm.trans same)
    refine ⟨fine, ?_⟩
    unfold Realises
    rw [runs]
    exact ⟨reaches, halted⟩

end Obeys

/-! ## Registers -/

/-- `step_core` answers the opcodes with an instruction. -/
theorem known_iff
    (inst : Word) :
    Known (opcode inst) ↔ Rv32e.known (Rv32e.opcode inst) = true := by
  have slice : ∀ number : BitVec 7,
      (opcode inst = number.setWidth 32) = (Rv32e.opcode inst = number) :=
    fun number => propext (opcode_eq_iff inst number)
  have codes : Known (opcode inst) =
      (opcode inst = (0x37 : BitVec 7).setWidth 32 ∨ opcode inst = (0x17 : BitVec 7).setWidth 32 ∨
        opcode inst = (0x13 : BitVec 7).setWidth 32 ∨ opcode inst = (0x33 : BitVec 7).setWidth 32 ∨
        opcode inst = (0x03 : BitVec 7).setWidth 32 ∨ opcode inst = (0x23 : BitVec 7).setWidth 32 ∨
        opcode inst = (0x63 : BitVec 7).setWidth 32 ∨ opcode inst = (0x6f : BitVec 7).setWidth 32 ∨
        opcode inst = (0x67 : BitVec 7).setWidth 32 ∨
        opcode inst = (0x73 : BitVec 7).setWidth 32) := rfl
  rw [codes]
  simp only [slice, Rv32e.known, Bool.or_eq_true, beq_iff_eq, or_assoc]

/-- A register field with a clear top bit names a register. -/
theorem register_of_legal
    {field : BitVec 5}
    (legal : field.getLsbD 4 = false) :
    ∃ register : Rv32e.Register, Rv32e.register field = some register ∧
      register.val = field.toNat := by
  have inFile : field.toNat < 16 := by
    rw [toNat_eq_register field legal]
    exact register_lt field
  exact ⟨⟨field.toNat, inFile⟩, dif_pos inFile, rfl⟩

/-- A register field with its top bit set names none. -/
theorem register_of_illegal
    {field : BitVec 5}
    (illegal : field.getLsbD 4 = true) :
    Rv32e.register field = none := by
  refine dif_neg fun inFile => ?_
  have beyond := (sixteen_le_iff field).mpr illegal
  rw [BitVec.le_def, toNat_field field (by decide)] at beyond
  exact absurd inFile (Nat.not_lt.mpr beyond)

/-- What a source register holds. -/
theorem value_of_register
    {core : IssCore}
    (zero : core.gpr 0 = 0)
    (pmem : Pmem)
    (register : Rv32e.Register) :
    (hartOf core pmem).x.value register = core.gpr register := by
  show (if register = 0 then 0 else core.gpr register) = core.gpr register
  split_ifs with first
  · rw [first]
    exact zero.symm
  · rfl

section Legal

variable {inst : Word}

/-- A field below sixteen names the register of its number. -/
theorem register_of_field
    {field : BitVec 5}
    {code : Word}
    (same : code = field.setWidth 32)
    (low : ¬16 ≤ code) :
    ∃ register, Rv32e.register field = some register ∧ code.toNat = register.val := by
  rw [same, sixteen_le_iff, Bool.not_eq_true] at low
  obtain ⟨register, found, number⟩ := register_of_legal low
  exact ⟨register, found, by rw [same, toNat_field _ (by decide), number]⟩

/-- No field that a word uses is above the register file. -/
theorem fields_of_legal
    (legal : badRegister inst = false) :
    (usesRd (opcode inst) = true → ¬16 ≤ rd inst) ∧
      (usesRs1 (opcode inst) = true → ¬16 ≤ rs1 inst) ∧
      (usesRs2 (opcode inst) = true → ¬16 ≤ rs2 inst) := by
  simpa [badRegister, and_assoc] using legal

/-- The destination of a word that passes the register check. -/
theorem rd_of_legal
    (legal : badRegister inst = false)
    (used : usesRd (opcode inst) = true) :
    ∃ register, Rv32e.rd inst = some register ∧ (rd inst).toNat = register.val :=
  register_of_field (rd_eq inst) ((fields_of_legal legal).1 used)

/-- The first source of a word that passes the register check. -/
theorem rs1_of_legal
    (legal : badRegister inst = false)
    (used : usesRs1 (opcode inst) = true) :
    ∃ register, Rv32e.rs1 inst = some register ∧ (rs1 inst).toNat = register.val :=
  register_of_field (rs1_eq inst) ((fields_of_legal legal).2.1 used)

/-- The second source of a word that passes the register check. -/
theorem rs2_of_legal
    (legal : badRegister inst = false)
    (used : usesRs2 (opcode inst) = true) :
    ∃ register, Rv32e.rs2 inst = some register ∧ (rs2 inst).toNat = register.val :=
  register_of_field (rs2_eq inst) ((fields_of_legal legal).2.2 used)

/-- A word that fails the register check encodes nothing. -/
theorem decode_of_badRegister
    (bad : badRegister inst = true) :
    Rv32e.decode readableCsr inst = none := by
  have fields : (usesRd (opcode inst) = true ∧ Rv32e.rd inst = none) ∨
      (usesRs1 (opcode inst) = true ∧ Rv32e.rs1 inst = none) ∨
      (usesRs2 (opcode inst) = true ∧ Rv32e.rs2 inst = none) := by
    unfold badRegister at bad
    simp only [Bool.or_eq_true, Bool.and_eq_true, decide_eq_true_eq] at bad
    rw [rd_eq, rs1_eq, rs2_eq, sixteen_le_iff, sixteen_le_iff, sixteen_le_iff] at bad
    rcases bad with (⟨used, high⟩ | ⟨used, high⟩) | ⟨used, high⟩
    · exact Or.inl ⟨used, register_of_illegal high⟩
    · exact Or.inr (Or.inl ⟨used, register_of_illegal high⟩)
    · exact Or.inr (Or.inr ⟨used, register_of_illegal high⟩)
  have slice : ∀ number : BitVec 7, opcode inst = number.setWidth 32 → Rv32e.opcode inst = number :=
    fun number => (opcode_eq_iff inst number).mp
  by_cases code : Known (opcode inst)
  · rcases code with code | code | code | code | code | code | code | code | code | code <;>
      rw [code] at fields <;>
      simp [usesRd, usesRs1, usesRs2] at fields
    · rw [Rv32e.decode_lui (slice _ code), fields]
      rfl
    · rw [Rv32e.decode_auipc (slice _ code), fields]
      rfl
    · rw [Rv32e.decode_opImm (slice _ code)]
      rcases fields with none | none <;> simp [none]
    · rw [Rv32e.decode_op (slice _ code)]
      rcases fields with none | none | none <;> simp [none]
    · rw [Rv32e.decode_load (slice _ code)]
      rcases fields with none | none <;> simp [none]
    · rw [Rv32e.decode_store (slice _ code)]
      rcases fields with none | none <;> simp [none]
    · rw [Rv32e.decode_branch (slice _ code)]
      rcases fields with none | none <;> simp [none]
    · rw [Rv32e.decode_jal (slice _ code), fields]
      rfl
    · rw [Rv32e.decode_jalr (slice _ code)]
      rcases fields with none | none <;> simp [none]
    · have running : inst ≠ Rv32e.ebreakWord := by
        rintro rfl
        exact absurd fields (by decide)
      rw [Rv32e.decode_system (slice _ code), if_neg running, fields]
      exact ite_self _
  · exact Rv32e.decode_unknown (Bool.eq_false_iff.mpr (mt (known_iff inst).mpr code))

/-! ### The tail of a step -/

variable {core : IssCore}

/-- A step that writes a register. -/
theorem hartOf_retire
    (used : usesRd (opcode inst) = true)
    {register : Rv32e.Register}
    (number : (rd inst).toNat = register.val)
    (pmem written : Pmem)
    (result next : Word)
    (faulted : Bool) :
    hartOf (retire core written inst result next faulted).core written =
      { x := (hartOf core pmem).x.write register result, pc := next, mem := written } := by
  refine congrArg (Rv32e.Hart.mk · next written) (Rv32e.Registers.ext (funext fun other => ?_))
  have nonzero : rd inst = 0 ↔ register = 0 := by
    rw [← BitVec.toNat_inj, number]
    exact (@Fin.ext_iff 16 register 0).symm
  show (if other = 0 then 0 else
      Function.update (if usesRd (opcode inst) && rd inst != 0 then
        Function.update core.gpr (rd inst).toNat result else core.gpr) 0 0 other.val) =
    Function.update (Function.update (fun other : Rv32e.Register =>
      if other = 0 then 0 else core.gpr other) register result) 0 0 other
  rcases eq_or_ne other 0 with rfl | positive
  · rw [if_pos rfl, Function.update_self]
  · have place : other.val ≠ 0 := fun zero => positive (Fin.ext zero)
    rw [if_neg positive, Function.update_of_ne place, Function.update_of_ne positive, used,
      Bool.true_and, number]
    rcases eq_or_ne other register with rfl | elsewhere
    · have writing : (rd inst != 0) = true := bne_iff_ne.mpr (mt nonzero.mp positive)
      rw [if_pos writing, Function.update_self, Function.update_self]
    · rw [Function.update_of_ne elsewhere, if_neg positive]
      split_ifs
      · exact Function.update_of_ne (fun same => elsewhere (Fin.ext same)) _ _
      · rfl

/-- A step that writes no register. -/
theorem hartOf_retire_unused
    (unused : usesRd (opcode inst) = false)
    (pmem written : Pmem)
    (result next : Word)
    (faulted : Bool) :
    hartOf (retire core written inst result next faulted).core written =
      { hartOf core pmem with pc := next, mem := written } := by
  refine congrArg (Rv32e.Hart.mk · next written) (Rv32e.Registers.ext (funext fun other => ?_))
  show (if other = 0 then 0 else
      Function.update (if usesRd (opcode inst) && rd inst != 0 then
        Function.update core.gpr (rd inst).toNat result else core.gpr) 0 0 other.val) =
    if other = 0 then 0 else core.gpr other
  refine ite_congr rfl (fun _ => rfl) fun positive => ?_
  have place : other.val ≠ 0 := fun zero => positive (Fin.ext zero)
  rw [unused, Bool.false_and, if_neg Bool.false_ne_true, Function.update_of_ne place]

end Legal

/-! ## Tables -/

section Tables

variable {inst : Word}

/-- The minor opcode is one of eight. -/
theorem minor_cases :
    ∀ minor : BitVec 3, minor = 0 ∨ minor = 1 ∨ minor = 2 ∨ minor = 3 ∨ minor = 4 ∨ minor = 5 ∨
      minor = 6 ∨ minor = 7 := by
  decide

/-- The amount of a shift. -/
theorem shift_amount
    (b : Word) :
    (b &&& 31).toNat = (b.extractLsb' 0 5).toNat := by
  rw [BitVec.toNat_and, BitVec.extractLsb'_toNat, Nat.shiftRight_zero]
  exact Nat.and_two_pow_sub_one_eq_mod b.toNat 5

/-- The shift amount of an immediate shift is the low end of the immediate. -/
theorem shamt_eq_immI
    (inst : Word) :
    (shamt inst).toNat = ((immI inst).extractLsb' 0 5).toNat := by
  have low : (immI inst).extractLsb' 0 5 = Verilog.Decode.rs2 inst := by
    rw [immI_eq]
    apply BitVec.eq_of_getLsbD_eq
    intro bit inField
    unfold Verilog.Decode.immI Verilog.Decode.rs2
    rw [BitVec.getLsbD_extractLsb', BitVec.getLsbD_signExtend, BitVec.getLsbD_extractLsb',
      BitVec.getLsbD_extractLsb', if_pos (show 0 + bit < 12 by omega), Nat.zero_add]
    simp [inField, show bit < 32 by omega, show bit < 12 by omega]
  rw [low, shamt_eq, toNat_field _ (by decide)]

/-- The table of register-register operations. -/
theorem op_eq
    {kind : Rv32e.AluOp}
    (found : Rv32e.aluOp (Rv32e.funct3 inst) (Rv32e.funct7 inst) = some kind)
    (a b : Word) :
    op inst a b = some (kind.eval a b) := by
  have minor : funct3 inst = (Rv32e.funct3 inst).setWidth 32 := funct3_eq inst
  have arithmetic : funct7 inst = 0x20 ↔ Rv32e.funct7 inst = 0x20 := funct7_eq_iff inst 0x20
  unfold op
  rw [minor]
  simp only [arithmetic, BitVec.sshiftRight', BitVec.shiftLeft_eq', BitVec.ushiftRight_eq',
    shift_amount]
  unfold Rv32e.aluOp at found
  rcases minor_cases (Rv32e.funct3 inst) with f3 | f3 | f3 | f3 | f3 | f3 | f3 | f3 <;>
    rw [f3] at found ⊢ <;>
    split_ifs at found with plain other <;>
    simp at found <;>
    subst found <;>
    simp [Rv32e.AluOp.eval, boolWord, *]

/-- `step_core` has a result for every register-register word. -/
theorem op_total
    (inst a b : Word) :
    ∃ result, op inst a b = some result := by
  have minor : funct3 inst = (Rv32e.funct3 inst).setWidth 32 := funct3_eq inst
  unfold op
  rw [minor]
  rcases minor_cases (Rv32e.funct3 inst) with f3 | f3 | f3 | f3 | f3 | f3 | f3 | f3 <;>
    rw [f3] <;>
    exact ⟨_, rfl⟩

/-- The table of register-immediate operations. -/
theorem opImm_eq
    {kind : Rv32e.AluOp}
    (found : Rv32e.aluImmOp (Rv32e.funct3 inst) (Rv32e.funct7 inst) = some kind)
    (a : Word) :
    opImm inst a = some (kind.eval a (immI inst)) := by
  have minor : funct3 inst = (Rv32e.funct3 inst).setWidth 32 := funct3_eq inst
  have arithmetic : funct7 inst = 0x20 ↔ Rv32e.funct7 inst = 0x20 := funct7_eq_iff inst 0x20
  unfold opImm
  rw [minor]
  simp only [arithmetic, BitVec.sshiftRight', BitVec.shiftLeft_eq', BitVec.ushiftRight_eq',
    shamt_eq_immI]
  unfold Rv32e.aluImmOp at found
  by_cases shift : Rv32e.funct3 inst = 1 ∨ Rv32e.funct3 inst = 5
  · rw [if_pos shift] at found
    unfold Rv32e.aluOp at found
    rcases shift with f3 | f3 <;>
      rw [f3] at found ⊢ <;>
      split_ifs at found with plain other <;>
      simp at found <;>
      subst found <;>
      simp [Rv32e.AluOp.eval, *]
  · rw [if_neg shift] at found
    rcases minor_cases (Rv32e.funct3 inst) with f3 | f3 | f3 | f3 | f3 | f3 | f3 | f3 <;>
      rw [f3] at found shift ⊢ <;>
      simp [Rv32e.aluOp] at found shift <;>
      subst found <;>
      simp [Rv32e.AluOp.eval, boolWord]

/-- `step_core` has a result for every register-immediate word. -/
theorem opImm_total
    (inst a : Word) :
    ∃ result, opImm inst a = some result := by
  have minor : funct3 inst = (Rv32e.funct3 inst).setWidth 32 := funct3_eq inst
  unfold opImm
  rw [minor]
  rcases minor_cases (Rv32e.funct3 inst) with f3 | f3 | f3 | f3 | f3 | f3 | f3 | f3 <;>
    rw [f3] <;>
    exact ⟨_, rfl⟩

/-- The table of branches. -/
theorem branchTake_eq
    (inst a b : Word) :
    branchTake inst a b = (Rv32e.branchOp (Rv32e.funct3 inst)).map (·.taken a b) := by
  have minor : funct3 inst = (Rv32e.funct3 inst).setWidth 32 := funct3_eq inst
  unfold branchTake
  rw [minor]
  rcases minor_cases (Rv32e.funct3 inst) with f3 | f3 | f3 | f3 | f3 | f3 | f3 | f3 <;>
    rw [f3] <;>
    simp [Rv32e.branchOp, Rv32e.BranchOp.taken, BitVec.sle_eq_not_slt, BitVec.ule_eq_not_ult]

/-- Little-endian bytes. -/
theorem littleEndian_one
    (bytes : Nat → Byte) :
    littleEndian bytes 1 = (bytes 0).setWidth 32 := by
  show (0#32) ||| (bytes 0).setWidth 32 <<< (8 * 0) = (bytes 0).setWidth 32
  rw [BitVec.zero_or, Nat.mul_zero, BitVec.shiftLeft_zero]

/-- Little-endian halfwords. -/
theorem littleEndian_two
    (bytes : Nat → Byte) :
    littleEndian bytes 2 = (bytes 1 ++ bytes 0).setWidth 32 := by
  apply BitVec.eq_of_getLsbD_eq
  intro bit inWord
  simp only [littleEndian, BitVec.getLsbD_or, BitVec.getLsbD_shiftLeft, BitVec.getLsbD_setWidth,
    BitVec.getLsbD_append]
  interval_cases bit <;> simp

/-- Little-endian words. -/
theorem littleEndian_four
    (bytes : Nat → Byte) :
    littleEndian bytes 4 = bytes 3 ++ bytes 2 ++ bytes 1 ++ bytes 0 := by
  apply BitVec.eq_of_getLsbD_eq
  intro bit inWord
  simp only [littleEndian, BitVec.getLsbD_or, BitVec.getLsbD_shiftLeft, BitVec.getLsbD_setWidth,
    BitVec.getLsbD_append]
  interval_cases bit <;> simp

variable {cfg : Config} {addr : Word}

/-- The value of a load by its width. -/
theorem loadMem_of_width
    {minor : Word}
    {width : Nat}
    (found : loadWidth minor = some width)
    (access : accessInPmem cfg addr width = true)
    (pmem : Pmem) :
    loadMem cfg pmem addr minor =
      some (extendLoad minor
        (littleEndian (fun index => pmem (addr + BitVec.ofNat 32 index)) width), false) := by
  rw [loadMem, found]
  dsimp only
  rw [paddrRead, if_pos access, Option.map_some]

/-- The table of loads. -/
theorem loadMem_eq
    {kind : Rv32e.LoadOp}
    (found : Rv32e.loadOp (Rv32e.funct3 inst) = some kind)
    (access : ∀ width, loadWidth (funct3 inst) = some width → accessInPmem cfg addr width = true)
    (pmem : Pmem) :
    loadMem cfg pmem addr (funct3 inst) = some (kind.read pmem addr, false) := by
  have minor : funct3 inst = (Rv32e.funct3 inst).setWidth 32 := funct3_eq inst
  rw [minor] at access ⊢
  rcases minor_cases (Rv32e.funct3 inst) with f3 | f3 | f3 | f3 | f3 | f3 | f3 | f3 <;>
    rw [f3] at found access ⊢ <;>
    cases found
  · rw [loadMem_of_width rfl (access 1 rfl), littleEndian_one, BitVec.ofNat_eq_ofNat,
      BitVec.add_zero]
    exact congrArg (fun value => some (value, false)) (signExtend_setWidth _ (by decide) (by decide))
  · rw [loadMem_of_width rfl (access 2 rfl), littleEndian_two, BitVec.ofNat_eq_ofNat,
      BitVec.add_zero]
    exact congrArg (fun value => some (value, false)) (signExtend_setWidth _ (by decide) (by decide))
  · rw [loadMem_of_width rfl (access 4 rfl), littleEndian_four, BitVec.ofNat_eq_ofNat,
      BitVec.add_zero]
    rfl
  · rw [loadMem_of_width rfl (access 1 rfl), littleEndian_one, BitVec.ofNat_eq_ofNat,
      BitVec.add_zero]
    rfl
  · rw [loadMem_of_width rfl (access 2 rfl), littleEndian_two, BitVec.ofNat_eq_ofNat,
      BitVec.add_zero]
    rfl

/-- A reserved load faults. -/
theorem loadMem_reserved
    (reserved : Rv32e.loadOp (Rv32e.funct3 inst) = none)
    (pmem : Pmem) :
    loadMem cfg pmem addr (funct3 inst) = some (0, true) := by
  have minor : funct3 inst = (Rv32e.funct3 inst).setWidth 32 := funct3_eq inst
  rw [minor]
  rcases minor_cases (Rv32e.funct3 inst) with f3 | f3 | f3 | f3 | f3 | f3 | f3 | f3 <;>
    rw [f3] at reserved ⊢ <;>
    cases reserved <;>
    rfl

/-- A store writes its bytes. -/
theorem writeBytes_eq
    (pmem : Pmem)
    (addr value : Word)
    (kind : Rv32e.StoreOp) :
    writeBytes pmem addr kind.width value = kind.write pmem addr value := by
  have byte : ∀ index, wordByte value index = value.extractLsb' (8 * index) 8 := by
    intro index
    apply BitVec.eq_of_getLsbD_eq
    intro bit inByte
    rw [getLsbD_wordByte _ _ inByte, BitVec.getLsbD_extractLsb', decide_eq_true inByte,
      Bool.true_and]
  funext place
  unfold writeBytes Rv32e.StoreOp.write
  rw [byte]

/-- The table of stores. -/
theorem storeMem_eq
    {kind : Rv32e.StoreOp}
    (found : Rv32e.storeOp (Rv32e.funct3 inst) = some kind)
    (access : ∀ width, storeWidth (funct3 inst) = some width → accessInPmem cfg addr width = true)
    (pmem : Pmem)
    (value : Word) :
    storeMem cfg pmem addr value (funct3 inst) = some (kind.write pmem addr value, false) := by
  have minor : funct3 inst = (Rv32e.funct3 inst).setWidth 32 := funct3_eq inst
  have width : storeWidth (funct3 inst) = some kind.width := by
    rw [minor]
    rcases minor_cases (Rv32e.funct3 inst) with f3 | f3 | f3 | f3 | f3 | f3 | f3 | f3 <;>
      rw [f3] at found ⊢ <;>
      cases found <;>
      rfl
  rw [storeMem, width]
  dsimp only
  rw [paddrWrite, if_pos (access kind.width width), Option.map_some, writeBytes_eq]

/-- A reserved store faults. -/
theorem storeMem_reserved
    (reserved : Rv32e.storeOp (Rv32e.funct3 inst) = none)
    (pmem : Pmem)
    (value : Word) :
    storeMem cfg pmem addr value (funct3 inst) = some (pmem, true) := by
  have minor : funct3 inst = (Rv32e.funct3 inst).setWidth 32 := funct3_eq inst
  rw [minor]
  rcases minor_cases (Rv32e.funct3 inst) with f3 | f3 | f3 | f3 | f3 | f3 | f3 | f3 <;>
    rw [f3] at reserved ⊢ <;>
    cases reserved <;>
    rfl

/-- The control registers that `step_core` answers. -/
theorem csrValue_isSome
    (core : IssCore)
    (number : BitVec 12) :
    (core.csrValue (number.setWidth 32)).isSome = readableCsr number := by
  rw [Bool.eq_iff_iff]
  simp only [IssCore.csrValue, readableCsr, apply_ite Option.isSome, Option.isSome_some,
    Option.isSome_none, Bool.if_true_left, Bool.if_false_right, Bool.or_eq_true, Bool.and_eq_true,
    decide_eq_true_eq, beq_iff_eq, ← BitVec.toNat_inj, BitVec.le_def, BitVec.toNat_setWidth]
  have small := number.isLt
  simp only [BitVec.toNat_ofNat, BitVec.ofNat_eq_ofNat, and_true]
  omega

end Tables

end Iss

end OpenGPU
