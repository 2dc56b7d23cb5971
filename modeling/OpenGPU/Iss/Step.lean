import Mathlib.Logic.Function.Basic
import OpenGPU.Platform.Instruction
import OpenGPU.Platform.Memory

/-!
# The instruction-set simulator: one instruction

`sw/sim/sm/iss.cpp`. A context is one thread of the launch with its own program
counter. `stepCore` runs one instruction of one context; the only place where
it looks at another context is the target comparison of `JALR`, so the rest of
the body is `execute`, which takes that comparison as an argument.

The trace hooks only print and are left out.
-/

namespace OpenGPU

/-- `gpu_iss_core_t`. -/
structure IssCore where
  gpr : Nat → Word
  pc : Word
  hartid : Word
  physicalId : Word
  argsAddr : Word
  threadIdx : Dim3
  blockIdx : Dim3
  blockDim : Dim3
  gridDim : Dim3
  warpId : Word
  laneId : Word
  halted : Bool

namespace IssCore

/-- `same_warp`. -/
def sameWarp (left right : IssCore) : Bool :=
  left.warpId == right.warpId && left.blockIdx.x == right.blockIdx.x &&
    left.blockIdx.y == right.blockIdx.y && left.blockIdx.z == right.blockIdx.z

/-- The CSR numbers that `step_core` answers; any other number faults. -/
def csrValue (core : IssCore) (csr : Word) : Option Word :=
  if csr = 0xf14 then some core.hartid
  else if csr = 0xcc0 then some core.threadIdx.x
  else if csr = 0xcc1 then some core.threadIdx.y
  else if csr = 0xcc2 then some core.threadIdx.z
  else if csr = 0xcc3 then some core.blockIdx.x
  else if csr = 0xcc4 then some core.blockIdx.y
  else if csr = 0xcc5 then some core.blockIdx.z
  else if csr = 0xcc6 then some core.blockDim.x
  else if csr = 0xcc7 then some core.blockDim.y
  else if csr = 0xcc8 then some core.blockDim.z
  else if csr = 0xcc9 then some core.gridDim.x
  else if csr = 0xcca then some core.gridDim.y
  else if csr = 0xccb then some core.gridDim.z
  else if csr = 0xccc then some core.argsAddr
  else if csr = 0xccd then some core.physicalId
  else if csr = 0xcce then some core.warpId
  else if csr = 0xccf then some core.laneId
  else none

/-- The target of `JALR` for the registers of one context. -/
def jalrTarget (core : IssCore) (inst : Word) : Word :=
  (core.gpr (Instruction.rs1 inst).toNat + Instruction.immI inst) &&& ~~~1

end IssCore

namespace Iss

open Instruction

/-- Register-immediate arithmetic; `none` is the faulting default case. -/
def opImm (inst a : Word) : Option Word :=
  let imm := immI inst
  if funct3 inst = 0 then some (a + imm)
  else if funct3 inst = 2 then some (boolWord (a.slt imm))
  else if funct3 inst = 3 then some (boolWord (a.ult imm))
  else if funct3 inst = 4 then some (a ^^^ imm)
  else if funct3 inst = 6 then some (a ||| imm)
  else if funct3 inst = 7 then some (a &&& imm)
  else if funct3 inst = 1 then some (a <<< shamt inst)
  else if funct3 inst = 5 then
    some (if funct7 inst = 0x20 then a.sshiftRight' (shamt inst)
      else a >>> shamt inst)
  else none

/-- Register-register arithmetic; `none` is the faulting default case. -/
def op (inst a b : Word) : Option Word :=
  if funct3 inst = 0 then some (if funct7 inst = 0x20 then a - b else a + b)
  else if funct3 inst = 1 then some (a <<< (b &&& 31))
  else if funct3 inst = 2 then some (boolWord (a.slt b))
  else if funct3 inst = 3 then some (boolWord (a.ult b))
  else if funct3 inst = 4 then some (a ^^^ b)
  else if funct3 inst = 5 then
    some (if funct7 inst = 0x20 then a.sshiftRight' (b &&& 31)
      else a >>> (b &&& 31))
  else if funct3 inst = 6 then some (a ||| b)
  else if funct3 inst = 7 then some (a &&& b)
  else none

/-- The branch condition; `none` is the faulting default case. -/
def branchTake (inst a b : Word) : Option Bool :=
  if funct3 inst = 0 then some (a == b)
  else if funct3 inst = 1 then some (a != b)
  else if funct3 inst = 4 then some (a.slt b)
  else if funct3 inst = 5 then some (b.sle a)
  else if funct3 inst = 6 then some (a.ult b)
  else if funct3 inst = 7 then some (b.ule a)
  else none

/-- Width in bytes of a load, by minor opcode. -/
def loadWidth (funct3 : Word) : Option Nat :=
  if funct3 = 0 ∨ funct3 = 4 then some 1
  else if funct3 = 1 ∨ funct3 = 5 then some 2
  else if funct3 = 2 then some 4
  else none

/-- What `load_mem` makes of the raw value that `paddr_read` returned. -/
def extendLoad (funct3 raw : Word) : Word :=
  if funct3 = 0 then signExtend raw 8
  else if funct3 = 1 then signExtend raw 16
  else raw

/-- `load_mem`: the value and whether the minor opcode faulted. Its outer
`none` is the failed assertion of `paddr_read`. -/
def loadMem (cfg : Config) (pmem : Pmem) (addr funct3 : Word) :
    Option (Word × Bool) :=
  match loadWidth funct3 with
  | some width =>
      (paddrRead cfg pmem addr width).map fun raw =>
        (extendLoad funct3 raw, false)
  | none => some (0, true)

/-- Width in bytes of a store, by minor opcode. -/
def storeWidth (funct3 : Word) : Option Nat :=
  if funct3 = 0 then some 1
  else if funct3 = 1 then some 2
  else if funct3 = 2 then some 4
  else none

/-- `store_mem`: the memory and whether the minor opcode faulted. -/
def storeMem (cfg : Config) (pmem : Pmem) (addr value funct3 : Word) :
    Option (Pmem × Bool) :=
  match storeWidth funct3 with
  | some width =>
      (paddrWrite cfg pmem addr width value).map fun written =>
        (written, false)
  | none => some (pmem, true)

/-- What one instruction of one context leaves behind: the context, the memory
and whether `fault_core` was called. -/
structure StepResult where
  core : IssCore
  pmem : Pmem
  faulted : Bool

/-- `fault_core` followed by a return. -/
def fault (core : IssCore) (pmem : Pmem) : StepResult :=
  ⟨{ core with halted := true }, pmem, true⟩

/-- The common tail of `step_core`: write the destination register, clear `x0`
and advance. A load or store with a reserved minor opcode has called
`fault_core` by then and still reaches this tail. -/
def retire (core : IssCore) (pmem : Pmem) (inst result next : Word)
    (faulted : Bool) : StepResult :=
  let gpr :=
    if usesRd (opcode inst) && rd inst != 0 then
      Function.update core.gpr (rd inst).toNat result
    else core.gpr
  ⟨{ core with
      gpr := Function.update gpr 0 0
      pc := next
      halted := core.halted || faulted },
    pmem, faulted⟩

/-- The operand read from a source register that the opcode uses. -/
def operand (core : IssCore) (used : Bool) (register : Word) : Word :=
  if used then core.gpr register.toNat else 0

/-- The switch of `step_core`, after the register check. -/
def dispatch (cfg : Config) (core : IssCore) (pmem : Pmem)
    (laneDiverges : Word → Word → Bool) (inst : Word) : Option StepResult :=
  let a := operand core (usesRs1 (opcode inst)) (rs1 inst)
  let b := operand core (usesRs2 (opcode inst)) (rs2 inst)
  let next := core.pc + 4
  if opcode inst = 0x37 then
    some (retire core pmem inst (inst &&& 0xfffff000) next false)
  else if opcode inst = 0x17 then
    some (retire core pmem inst (core.pc + (inst &&& 0xfffff000)) next false)
  else if opcode inst = 0x13 then
    match opImm inst a with
    | some result => some (retire core pmem inst result next false)
    | none => some (fault core pmem)
  else if opcode inst = 0x33 then
    match op inst a b with
    | some result => some (retire core pmem inst result next false)
    | none => some (fault core pmem)
  else if opcode inst = 0x03 then
    (loadMem cfg pmem (a + immI inst) (funct3 inst)).map fun loaded =>
      retire core pmem inst loaded.1 next loaded.2
  else if opcode inst = 0x23 then
    (storeMem cfg pmem (a + immS inst) b (funct3 inst)).map fun stored =>
      retire core stored.1 inst 0 next stored.2
  else if opcode inst = 0x63 then
    match branchTake inst a b with
    | some take =>
        some (retire core pmem inst 0
          (if take then core.pc + immB inst else next) false)
    | none => some (fault core pmem)
  else if opcode inst = 0x6f then
    some (retire core pmem inst (core.pc + 4) (core.pc + immJ inst) false)
  else if opcode inst = 0x67 then
    if laneDiverges inst (core.jalrTarget inst) then some (fault core pmem)
    else
      some (retire core pmem inst (core.pc + 4) (core.jalrTarget inst) false)
  else if opcode inst = 0x73 then
    if inst = ebreak then some ⟨{ core with halted := true }, pmem, false⟩
    else if funct3 inst = 2 ∧ rs1 inst = 0 then
      match core.csrValue (csr inst) with
      | some result => some (retire core pmem inst result next false)
      | none => some (fault core pmem)
    else some (fault core pmem)
  else some (fault core pmem)

/-- `step_core` up to the other contexts: fetch, check the register fields and
dispatch. The last argument answers whether the given `JALR` word and target
disagree with another lane. -/
def execute (cfg : Config) (core : IssCore) (pmem : Pmem)
    (laneDiverges : Word → Word → Bool) : Option StepResult :=
  (paddrRead cfg pmem core.pc 4).bind fun inst =>
    if badRegister inst then some (fault core pmem)
    else dispatch cfg core pmem laneDiverges inst

end Iss

end OpenGPU
