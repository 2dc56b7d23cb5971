import OpenGPU.Platform.Config

/-!
# Instruction fields

Bit fields and immediates of a 32-bit instruction word. The instruction-set
simulator and the cycle model write the same expressions for these; everything
they compute from the fields is defined with each model.
-/

namespace OpenGPU

/-- `sext` of the simulator, `sign_extend` of the cycle model: shift the field
to the top of the word and back arithmetically. -/
def signExtend (value : Word) (bits : Nat) : Word :=
  (value <<< (32 - bits)).sshiftRight (32 - bits)

namespace Instruction

/-- The major opcode. -/
def opcode (inst : Word) : Word := inst &&& 0x7f

/-- The destination register field. -/
def rd (inst : Word) : Word := (inst >>> 7) &&& 0x1f

/-- The minor opcode. -/
def funct3 (inst : Word) : Word := (inst >>> 12) &&& 7

/-- The first source register field. -/
def rs1 (inst : Word) : Word := (inst >>> 15) &&& 0x1f

/-- The second source register field. -/
def rs2 (inst : Word) : Word := (inst >>> 20) &&& 0x1f

/-- The top seven bits. -/
def funct7 (inst : Word) : Word := inst >>> 25

/-- The shift amount of an immediate shift. -/
def shamt (inst : Word) : Word := (inst >>> 20) &&& 31

/-- The register number of a CSR instruction. -/
def csr (inst : Word) : Word := (inst >>> 20) &&& 0xfff

/-- The immediate of loads, `JALR` and register-immediate operations. -/
def immI (inst : Word) : Word := signExtend (inst >>> 20) 12

/-- The immediate of stores. -/
def immS (inst : Word) : Word :=
  signExtend (((inst >>> 7) &&& 0x1f) ||| ((inst >>> 25) <<< 5)) 12

/-- The immediate of conditional branches. -/
def immB (inst : Word) : Word :=
  signExtend
    (((inst >>> 7) &&& 0x1e) ||| ((inst >>> 20) &&& 0x7e0) |||
      ((inst <<< 4) &&& 0x800) ||| ((inst >>> 19) &&& 0x1000)) 13

/-- The immediate of `JAL`. -/
def immJ (inst : Word) : Word :=
  signExtend
    (((inst >>> 20) &&& 0x7fe) ||| ((inst >>> 9) &&& 0x800) |||
      (inst &&& 0xff000) ||| ((inst >>> 11) &&& 0x100000)) 21

/-- The opcode has a destination register. -/
def usesRd (opcode : Word) : Bool :=
  opcode == 0x37 || opcode == 0x17 || opcode == 0x13 || opcode == 0x33 ||
    opcode == 0x03 || opcode == 0x6f || opcode == 0x67 || opcode == 0x73

/-- The opcode reads the first source register. -/
def usesRs1 (opcode : Word) : Bool :=
  opcode == 0x13 || opcode == 0x33 || opcode == 0x03 || opcode == 0x23 ||
    opcode == 0x63 || opcode == 0x67

/-- The opcode reads the second source register. -/
def usesRs2 (opcode : Word) : Bool :=
  opcode == 0x33 || opcode == 0x23 || opcode == 0x63

/-- A register field that the opcode uses names none of the sixteen RV32E
registers. -/
def badRegister (inst : Word) : Bool :=
  (usesRd (opcode inst) && decide (16 ≤ rd inst)) ||
    (usesRs1 (opcode inst) && decide (16 ≤ rs1 inst)) ||
    (usesRs2 (opcode inst) && decide (16 ≤ rs2 inst))

/-- The word of `EBREAK`. -/
def ebreak : Word := 0x00100073

end Instruction

end OpenGPU
