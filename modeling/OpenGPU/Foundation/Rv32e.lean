import Mathlib.Algebra.Order.Ring.Nat
import Mathlib.Data.Fin.Basic
import Mathlib.Logic.Function.Basic

/-!
# The RV32E integer instructions

The base instruction set over sixteen registers, as far as one thread can run it
alone: the integer, control and memory instructions, `EBREAK` as the end of the
thread, and reads of a set of control registers. An instruction is syntax; `decode`
finds it in a word, and `run` is its effect.
-/

namespace OpenGPU

namespace Rv32e

/-! ## Syntax -/

/-- The sixteen registers. -/
abbrev Register := Fin 16

instance registers : NeZero 16 := ⟨by decide⟩

/-- The arithmetic operations. -/
inductive AluOp
  | add
  | sub
  | sll
  | slt
  | sltu
  | xor
  | srl
  | sra
  | or
  | and
  deriving DecidableEq

/-- The branch conditions. -/
inductive BranchOp
  | eq
  | ne
  | lt
  | ge
  | ltu
  | geu
  deriving DecidableEq

/-- The loads. -/
inductive LoadOp
  | byte
  | half
  | word
  | byteU
  | halfU
  deriving DecidableEq

/-- The stores. -/
inductive StoreOp
  | byte
  | half
  | word
  deriving DecidableEq

/-- The instructions. -/
inductive Instr
  | lui (rd : Register) (imm : BitVec 32)
  | auipc (rd : Register) (imm : BitVec 32)
  | jal (rd : Register) (imm : BitVec 32)
  | jalr (rd rs1 : Register) (imm : BitVec 32)
  | branch (kind : BranchOp) (rs1 rs2 : Register) (imm : BitVec 32)
  | load (kind : LoadOp) (rd rs1 : Register) (imm : BitVec 32)
  | store (kind : StoreOp) (rs1 rs2 : Register) (imm : BitVec 32)
  | opImm (kind : AluOp) (rd rs1 : Register) (imm : BitVec 32)
  | op (kind : AluOp) (rd rs1 rs2 : Register)
  | ebreak
  | csrRead (rd : Register) (csr : BitVec 12)
  deriving DecidableEq

/-! ## Encoding -/

section Encoding

variable (word : BitVec 32)

/-- Bits 6 to 0. -/
def opcode : BitVec 7 := word.extractLsb' 0 7

/-- Bits 14 to 12. -/
def funct3 : BitVec 3 := word.extractLsb' 12 3

/-- Bits 31 to 25. -/
def funct7 : BitVec 7 := word.extractLsb' 25 7

/-- A register field; the upper sixteen numbers name nothing. -/
def register (field : BitVec 5) : Option Register :=
  if inFile : field.toNat < 16 then some ⟨field.toNat, inFile⟩ else none

/-- Bits 11 to 7. -/
def rd : Option Register := register (word.extractLsb' 7 5)

/-- Bits 19 to 15. -/
def rs1 : Option Register := register (word.extractLsb' 15 5)

/-- Bits 24 to 20. -/
def rs2 : Option Register := register (word.extractLsb' 20 5)

/-- Bits 31 to 20. -/
def csr : BitVec 12 := word.extractLsb' 20 12

/-- The I-immediate. -/
def immI : BitVec 32 := (word.extractLsb' 20 12).signExtend 32

/-- The S-immediate. -/
def immS : BitVec 32 := (word.extractLsb' 25 7 ++ word.extractLsb' 7 5).signExtend 32

/-- The B-immediate. -/
def immB : BitVec 32 :=
  (word.extractLsb' 31 1 ++ word.extractLsb' 7 1 ++ word.extractLsb' 25 6 ++
    word.extractLsb' 8 4 ++ 0#1).signExtend 32

/-- The U-immediate. -/
def immU : BitVec 32 := word.extractLsb' 12 20 ++ 0#12

/-- The J-immediate. -/
def immJ : BitVec 32 :=
  (word.extractLsb' 31 1 ++ word.extractLsb' 12 8 ++ word.extractLsb' 20 1 ++
    word.extractLsb' 21 10 ++ 0#1).signExtend 32

end Encoding

/-- The operation of a register-register instruction. -/
def aluOp (funct3 : BitVec 3) (funct7 : BitVec 7) : Option AluOp :=
  if funct7 = 0 then
    match funct3 with
    | 0 => some .add
    | 1 => some .sll
    | 2 => some .slt
    | 3 => some .sltu
    | 4 => some .xor
    | 5 => some .srl
    | 6 => some .or
    | 7 => some .and
  else if funct7 = 0x20 then
    match funct3 with
    | 0 => some .sub
    | 5 => some .sra
    | _ => none
  else none

/-- The operation of a register-immediate instruction: only shifts have a `funct7`,
and there is no subtraction. -/
def aluImmOp (funct3 : BitVec 3) (funct7 : BitVec 7) : Option AluOp :=
  if funct3 = 1 ∨ funct3 = 5 then aluOp funct3 funct7 else aluOp funct3 0

/-- The condition of a branch. -/
def branchOp : BitVec 3 → Option BranchOp
  | 0 => some .eq
  | 1 => some .ne
  | 4 => some .lt
  | 5 => some .ge
  | 6 => some .ltu
  | 7 => some .geu
  | _ => none

/-- The kind of a load. -/
def loadOp : BitVec 3 → Option LoadOp
  | 0 => some .byte
  | 1 => some .half
  | 2 => some .word
  | 4 => some .byteU
  | 5 => some .halfU
  | _ => none

/-- The kind of a store. -/
def storeOp : BitVec 3 → Option StoreOp
  | 0 => some .byte
  | 1 => some .half
  | 2 => some .word
  | _ => none

/-- The word of `EBREAK`. -/
def ebreakWord : BitVec 32 := 0x00100073

/-- The instruction of a word, given the control registers that can be read. -/
def decode (readable : BitVec 12 → Bool) (word : BitVec 32) : Option Instr := do
  if opcode word = 0b0110111 then
    return .lui (← rd word) (immU word)
  else if opcode word = 0b0010111 then
    return .auipc (← rd word) (immU word)
  else if opcode word = 0b1101111 then
    return .jal (← rd word) (immJ word)
  else if opcode word = 0b1100111 then
    if funct3 word = 0 then
      return .jalr (← rd word) (← rs1 word) (immI word)
    else none
  else if opcode word = 0b1100011 then
    return .branch (← branchOp (funct3 word)) (← rs1 word) (← rs2 word) (immB word)
  else if opcode word = 0b0000011 then
    return .load (← loadOp (funct3 word)) (← rd word) (← rs1 word) (immI word)
  else if opcode word = 0b0100011 then
    return .store (← storeOp (funct3 word)) (← rs1 word) (← rs2 word) (immS word)
  else if opcode word = 0b0010011 then
    return .opImm (← aluImmOp (funct3 word) (funct7 word)) (← rd word) (← rs1 word) (immI word)
  else if opcode word = 0b0110011 then
    return .op (← aluOp (funct3 word) (funct7 word)) (← rd word) (← rs1 word) (← rs2 word)
  else if word = ebreakWord then
    return .ebreak
  else if opcode word = 0b1110011 then
    -- `CSRRS` with `x0` as its source only reads
    if funct3 word = 2 ∧ word.extractLsb' 15 5 = 0 ∧ readable (csr word) = true then
      return .csrRead (← rd word) (csr word)
    else none
  else none

section Decode

variable {readable : BitVec 12 → Bool} {word : BitVec 32}

theorem decode_lui
    (code : opcode word = 0b0110111) :
    decode readable word = (rd word).map fun rd => .lui rd (immU word) := by
  unfold decode
  rw [code]
  cases rd word <;> rfl

theorem decode_auipc
    (code : opcode word = 0b0010111) :
    decode readable word = (rd word).map fun rd => .auipc rd (immU word) := by
  unfold decode
  rw [code]
  cases rd word <;> rfl

theorem decode_jal
    (code : opcode word = 0b1101111) :
    decode readable word = (rd word).map fun rd => .jal rd (immJ word) := by
  unfold decode
  rw [code]
  cases rd word <;> rfl

theorem decode_jalr
    (code : opcode word = 0b1100111) :
    decode readable word =
      if funct3 word = 0 then
        (rd word).bind fun rd => (rs1 word).map fun rs1 => .jalr rd rs1 (immI word)
      else none := by
  unfold decode
  rw [code]
  cases rd word <;> cases rs1 word <;> rfl

theorem decode_branch
    (code : opcode word = 0b1100011) :
    decode readable word =
      (branchOp (funct3 word)).bind fun kind => (rs1 word).bind fun rs1 =>
        (rs2 word).map fun rs2 => .branch kind rs1 rs2 (immB word) := by
  unfold decode
  rw [code]
  cases branchOp (funct3 word) <;> cases rs1 word <;> cases rs2 word <;> rfl

theorem decode_load
    (code : opcode word = 0b0000011) :
    decode readable word =
      (loadOp (funct3 word)).bind fun kind => (rd word).bind fun rd =>
        (rs1 word).map fun rs1 => .load kind rd rs1 (immI word) := by
  unfold decode
  rw [code]
  cases loadOp (funct3 word) <;> cases rd word <;> cases rs1 word <;> rfl

theorem decode_store
    (code : opcode word = 0b0100011) :
    decode readable word =
      (storeOp (funct3 word)).bind fun kind => (rs1 word).bind fun rs1 =>
        (rs2 word).map fun rs2 => .store kind rs1 rs2 (immS word) := by
  unfold decode
  rw [code]
  cases storeOp (funct3 word) <;> cases rs1 word <;> cases rs2 word <;> rfl

theorem decode_opImm
    (code : opcode word = 0b0010011) :
    decode readable word =
      (aluImmOp (funct3 word) (funct7 word)).bind fun kind => (rd word).bind fun rd =>
        (rs1 word).map fun rs1 => .opImm kind rd rs1 (immI word) := by
  unfold decode
  rw [code]
  cases aluImmOp (funct3 word) (funct7 word) <;> cases rd word <;> cases rs1 word <;> rfl

theorem decode_op
    (code : opcode word = 0b0110011) :
    decode readable word =
      (aluOp (funct3 word) (funct7 word)).bind fun kind => (rd word).bind fun rd =>
        (rs1 word).bind fun rs1 => (rs2 word).map fun rs2 => .op kind rd rs1 rs2 := by
  unfold decode
  rw [code]
  cases aluOp (funct3 word) (funct7 word) <;> cases rd word <;> cases rs1 word <;>
    cases rs2 word <;> rfl

theorem decode_system
    (code : opcode word = 0b1110011) :
    decode readable word =
      if word = ebreakWord then some .ebreak
      else if funct3 word = 2 ∧ word.extractLsb' 15 5 = 0 ∧ readable (csr word) = true then
        (rd word).map fun rd => .csrRead rd (csr word)
      else none := by
  unfold decode
  rw [code]
  cases rd word <;> rfl

/-- The opcodes with an instruction. -/
def known (code : BitVec 7) : Bool :=
  code == 0b0110111 || code == 0b0010111 || code == 0b0010011 || code == 0b0110011 ||
    code == 0b0000011 || code == 0b0100011 || code == 0b1100011 || code == 0b1101111 ||
    code == 0b1100111 || code == 0b1110011

theorem decode_unknown
    (unknown : known (opcode word) = false) :
    decode readable word = none := by
  simp only [known, Bool.or_eq_false_iff, beq_eq_false_iff_ne, ne_eq, and_assoc] at unknown
  obtain ⟨lui, auipc, opImm, op, load, store, branch, jal, jalr, system⟩ := unknown
  have running : word ≠ ebreakWord := by
    rintro rfl
    exact system rfl
  unfold decode
  rw [if_neg lui, if_neg auipc, if_neg jal, if_neg jalr, if_neg branch, if_neg load, if_neg store,
    if_neg opImm, if_neg op, if_neg running, if_neg system]

end Decode

/-! ## Effect -/

/-- A register file: `x0` holds zero. -/
@[ext]
structure Registers where
  value : Register → BitVec 32
  zero : value 0 = 0

/-- A write; `x0` stays zero. -/
def Registers.write (x : Registers) (rd : Register) (result : BitVec 32) : Registers where
  value := Function.update (Function.update x.value rd result) 0 0
  zero := Function.update_self ..

/-- A thread and its memory. -/
structure Hart where
  x : Registers
  pc : BitVec 32
  mem : BitVec 32 → BitVec 8

/-- The value of an operation. Shifts use the low five bits of the right operand. -/
def AluOp.eval (a b : BitVec 32) : AluOp → BitVec 32
  | .add => a + b
  | .sub => a - b
  | .sll => a <<< (b.extractLsb' 0 5).toNat
  | .slt => if a.slt b then 1 else 0
  | .sltu => if a.ult b then 1 else 0
  | .xor => a ^^^ b
  | .srl => a >>> (b.extractLsb' 0 5).toNat
  | .sra => a.sshiftRight (b.extractLsb' 0 5).toNat
  | .or => a ||| b
  | .and => a &&& b

/-- A branch is taken. -/
def BranchOp.taken (a b : BitVec 32) : BranchOp → Bool
  | .eq => a == b
  | .ne => a != b
  | .lt => a.slt b
  | .ge => !a.slt b
  | .ltu => a.ult b
  | .geu => !a.ult b

/-- The value of a load from little-endian memory. -/
def LoadOp.read (mem : BitVec 32 → BitVec 8) (addr : BitVec 32) : LoadOp → BitVec 32
  | .byte => (mem addr).signExtend 32
  | .half => (mem (addr + 1) ++ mem addr).signExtend 32
  | .word => mem (addr + 3) ++ mem (addr + 2) ++ mem (addr + 1) ++ mem addr
  | .byteU => (mem addr).setWidth 32
  | .halfU => (mem (addr + 1) ++ mem addr).setWidth 32

/-- The bytes of a store. -/
def StoreOp.width : StoreOp → Nat
  | .byte => 1
  | .half => 2
  | .word => 4

/-- Little-endian memory after a store. -/
def StoreOp.write (mem : BitVec 32 → BitVec 8) (addr value : BitVec 32) (op : StoreOp) :
    BitVec 32 → BitVec 8 :=
  fun place =>
    if (place - addr).toNat < op.width then value.extractLsb' (8 * (place - addr).toNat) 8
    else mem place

/-- Write a register and go on with the next instruction. -/
def Hart.writeBack (hart : Hart) (rd : Register) (result : BitVec 32) : Hart :=
  { hart with x := hart.x.write rd result, pc := hart.pc + 4 }

/-- The effect of an instruction on a thread with the given control registers. `none`
is the end of the thread. -/
def Instr.run (csrs : BitVec 12 → BitVec 32) (hart : Hart) : Instr → Option Hart
  | .lui rd imm => some (hart.writeBack rd imm)
  | .auipc rd imm => some (hart.writeBack rd (hart.pc + imm))
  | .jal rd imm => some { hart.writeBack rd (hart.pc + 4) with pc := hart.pc + imm }
  | .jalr rd rs1 imm =>
      some { hart.writeBack rd (hart.pc + 4) with pc := (hart.x.value rs1 + imm) &&& ~~~1 }
  | .branch kind rs1 rs2 imm =>
      some { hart with
        pc := if kind.taken (hart.x.value rs1) (hart.x.value rs2) then hart.pc + imm
          else hart.pc + 4 }
  | .load kind rd rs1 imm => some (hart.writeBack rd (kind.read hart.mem (hart.x.value rs1 + imm)))
  | .store kind rs1 rs2 imm =>
      some { hart with
        pc := hart.pc + 4
        mem := kind.write hart.mem (hart.x.value rs1 + imm) (hart.x.value rs2) }
  | .opImm kind rd rs1 imm => some (hart.writeBack rd (kind.eval (hart.x.value rs1) imm))
  | .op kind rd rs1 rs2 =>
      some (hart.writeBack rd (kind.eval (hart.x.value rs1) (hart.x.value rs2)))
  | .ebreak => none
  | .csrRead rd csr => some (hart.writeBack rd (csrs csr))

end Rv32e

end OpenGPU
