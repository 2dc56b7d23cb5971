import OpenGPU.Iss.Run

/-!
# The instruction-set simulator: one lemma per opcode

The switch of `step_core`, arm by arm, with the operands that the arm reads
filled in.
-/

namespace OpenGPU

namespace Iss

open Instruction

/-- A `JALR` that finds no other lane to disagree with. -/
def alone : Word → Word → Bool := fun _ _ => false

section Dispatch

variable {cfg : Config} {core : IssCore} {pmem : Pmem}
  {laneDiverges : Word → Word → Bool} {inst : Word}

theorem dispatch_lui
    (code : opcode inst = 0x37) :
    dispatch cfg core pmem laneDiverges inst =
      some (retire core pmem inst (inst &&& 0xfffff000) (core.pc + 4) false) := by
  simp [dispatch, code]

theorem dispatch_auipc
    (code : opcode inst = 0x17) :
    dispatch cfg core pmem laneDiverges inst =
      some (retire core pmem inst (core.pc + (inst &&& 0xfffff000)) (core.pc + 4)
        false) := by
  simp [dispatch, code]

theorem dispatch_opImm
    (code : opcode inst = 0x13) :
    dispatch cfg core pmem laneDiverges inst =
      match opImm inst (core.gpr (rs1 inst).toNat) with
      | some result => some (retire core pmem inst result (core.pc + 4) false)
      | none => some (fault core pmem) := by
  rw [dispatch, code]
  rfl

theorem dispatch_op
    (code : opcode inst = 0x33) :
    dispatch cfg core pmem laneDiverges inst =
      match op inst (core.gpr (rs1 inst).toNat) (core.gpr (rs2 inst).toNat) with
      | some result => some (retire core pmem inst result (core.pc + 4) false)
      | none => some (fault core pmem) := by
  rw [dispatch, code]
  rfl

theorem dispatch_load
    (code : opcode inst = 0x03) :
    dispatch cfg core pmem laneDiverges inst =
      (loadMem cfg pmem (core.gpr (rs1 inst).toNat + immI inst) (funct3 inst)).map
        fun loaded => retire core pmem inst loaded.1 (core.pc + 4) loaded.2 := by
  simp [dispatch, code, operand, usesRs1]

theorem dispatch_store
    (code : opcode inst = 0x23) :
    dispatch cfg core pmem laneDiverges inst =
      (storeMem cfg pmem (core.gpr (rs1 inst).toNat + immS inst)
          (core.gpr (rs2 inst).toNat) (funct3 inst)).map
        fun stored => retire core stored.1 inst 0 (core.pc + 4) stored.2 := by
  simp [dispatch, code, operand, usesRs1, usesRs2]

theorem dispatch_branch
    (code : opcode inst = 0x63) :
    dispatch cfg core pmem laneDiverges inst =
      match branchTake inst (core.gpr (rs1 inst).toNat) (core.gpr (rs2 inst).toNat) with
      | some take =>
          some (retire core pmem inst 0
            (if take then core.pc + immB inst else core.pc + 4) false)
      | none => some (fault core pmem) := by
  rw [dispatch, code]
  rfl

theorem dispatch_jal
    (code : opcode inst = 0x6f) :
    dispatch cfg core pmem laneDiverges inst =
      some (retire core pmem inst (core.pc + 4) (core.pc + immJ inst) false) := by
  simp [dispatch, code]

theorem dispatch_jalr
    (code : opcode inst = 0x67) :
    dispatch cfg core pmem laneDiverges inst =
      if laneDiverges inst (core.jalrTarget inst) then some (fault core pmem)
      else
        some (retire core pmem inst (core.pc + 4) (core.jalrTarget inst) false) := by
  simp [dispatch, code]

theorem dispatch_system
    (code : opcode inst = 0x73) :
    dispatch cfg core pmem laneDiverges inst =
      if inst = ebreak then some ⟨{ core with halted := true }, pmem, false⟩
      else if funct3 inst = 2 ∧ rs1 inst = 0 then
        match core.csrValue (csr inst) with
        | some result => some (retire core pmem inst result (core.pc + 4) false)
        | none => some (fault core pmem)
      else some (fault core pmem) := by
  rw [dispatch, code]
  rfl

/-- The opcodes that `step_core` answers. -/
def Known (code : Word) : Prop :=
  code = 0x37 ∨ code = 0x17 ∨ code = 0x13 ∨ code = 0x33 ∨ code = 0x03 ∨ code = 0x23 ∨
    code = 0x63 ∨ code = 0x6f ∨ code = 0x67 ∨ code = 0x73

theorem dispatch_reserved
    (code : ¬Known (opcode inst)) :
    dispatch cfg core pmem laneDiverges inst = some (fault core pmem) := by
  unfold Known at code
  push Not at code
  obtain ⟨h0, h1, h2, h3, h4, h5, h6, h7, h8, h9⟩ := code
  simp only [dispatch, h0, h1, h2, h3, h4, h5, h6, h7, h8, h9, if_false]

end Dispatch

end Iss

end OpenGPU
