import Mathlib.Logic.Function.Basic
import OpenGPU.Foundation.LaneSet
import OpenGPU.Verilog.Kmu

/-!
# The SystemVerilog core

`GPUCore` of `Riscv/Core.sv`. Registers have their declared widths; memories and
register files are functions of their flat index. Expressions follow the width
and signedness rules of the language, so a conditional with one unsigned arm is
unsigned and `>>>` shifts zeros in there. A division by zero yields zero, as the
two-state simulator resolves it.

The decoded fields are variables that `EXEC` assigns and the memory states read
again. Nothing changes `issue_inst` in between, so they are functions of it.
`next_pc` is the one variable that can survive a clock edge without being
assigned, and is a register here.
-/

namespace OpenGPU

namespace Verilog

/-- The states of the core. -/
inductive Fsm
  | sched
  | fetch
  | exec
  | memReq
  | memResp
  deriving DecidableEq

/-- `STACK_DEPTH`. -/
def stackDepth : Nat := 8

/-- Division as the two-state simulator computes it. -/
def divide (dividend divisor : Word) : Word :=
  if divisor = 0 then 0 else dividend / divisor

/-- Remainder as the two-state simulator computes it. -/
def modulo (dividend divisor : Word) : Word :=
  if divisor = 0 then 0 else dividend % divisor

/-- The registers of `GPUCore`. -/
structure GPUCore (cfg : Config) where
  state : Fsm
  ctaActive : Bool
  faultR : Bool
  rrWarp : BitVec (indexBits cfg.numWarps)
  issueWarp : BitVec (indexBits cfg.numWarps)
  issueMask : BitVec cfg.numThreads
  issuePc : Word
  issueInst : Word
  memThread : BitVec (indexBits cfg.numThreads)
  block : Dim3
  dim : Dim3
  grid : Dim3
  argsAddr : Word
  warpPc : Nat → Word
  warpMask : Nat → BitVec cfg.numThreads
  warpValid : Nat → Bool
  stackSp : Nat → BitVec 4
  stackPc : Nat → Word
  stackMask : Nat → BitVec cfg.numThreads
  gprs : Nat → Word
  threadX : Nat → Word
  threadY : Nat → Word
  threadZ : Nat → Word
  globalId : Nat → Word
  nextPc : Word

/-! ## Decoding -/

namespace Decode

/-- `opcode`. -/
def opcode (inst : Word) : BitVec 7 := inst.extractLsb' 0 7

/-- `rd`. -/
def rd (inst : Word) : BitVec 5 := inst.extractLsb' 7 5

/-- `funct3`. -/
def funct3 (inst : Word) : BitVec 3 := inst.extractLsb' 12 3

/-- `rs1`. -/
def rs1 (inst : Word) : BitVec 5 := inst.extractLsb' 15 5

/-- `rs2`. -/
def rs2 (inst : Word) : BitVec 5 := inst.extractLsb' 20 5

/-- `funct7`. -/
def funct7 (inst : Word) : BitVec 7 := inst.extractLsb' 25 7

/-- `csr_addr`. -/
def csrAddr (inst : Word) : BitVec 12 := inst.extractLsb' 20 12

/-- `imm_i`. -/
def immI (inst : Word) : Word := (inst.extractLsb' 20 12).signExtend 32

/-- `imm_s`. -/
def immS (inst : Word) : Word :=
  (inst.extractLsb' 25 7 ++ inst.extractLsb' 7 5).signExtend 32

/-- `imm_b`. -/
def immB (inst : Word) : Word :=
  (inst.extractLsb' 31 1 ++ inst.extractLsb' 7 1 ++ inst.extractLsb' 25 6 ++
    inst.extractLsb' 8 4 ++ 0#1).signExtend 32

/-- `imm_u`. -/
def immU (inst : Word) : Word := inst.extractLsb' 12 20 ++ 0#12

/-- `imm_j`. -/
def immJ (inst : Word) : Word :=
  (inst.extractLsb' 31 1 ++ inst.extractLsb' 12 8 ++ inst.extractLsb' 20 1 ++
    inst.extractLsb' 21 10 ++ 0#1).signExtend 32

/-- `uses_rd`. -/
def usesRd (opcode : BitVec 7) : Bool :=
  opcode == 0b0110111 || opcode == 0b0010111 || opcode == 0b0010011 ||
    opcode == 0b0110011 || opcode == 0b0000011 || opcode == 0b1101111 ||
    opcode == 0b1100111 || opcode == 0b1110011

/-- `uses_rs1`. -/
def usesRs1 (opcode : BitVec 7) : Bool :=
  opcode == 0b0010011 || opcode == 0b0110011 || opcode == 0b0000011 ||
    opcode == 0b0100011 || opcode == 0b1100011 || opcode == 0b1100111

/-- `uses_rs2`. -/
def usesRs2 (opcode : BitVec 7) : Bool :=
  opcode == 0b0110011 || opcode == 0b0100011 || opcode == 0b1100011

/-- A register field that is used has its top bit set. -/
def badRegister (inst : Word) : Bool :=
  (usesRd (opcode inst) && (rd inst).getLsbD 4) ||
    (usesRs1 (opcode inst) && (rs1 inst).getLsbD 4) ||
    (usesRs2 (opcode inst) && (rs2 inst).getLsbD 4)

/-- The word that retires the issued lanes. -/
def ebreak : Word := 0x00100073

/-- The opcode of loads. -/
def load : BitVec 7 := 0b0000011

/-- The opcode of stores. -/
def store : BitVec 7 := 0b0100011

/-- The opcode of conditional branches. -/
def branch : BitVec 7 := 0b1100011

/-- The register number in the low four bits of a field. -/
def register (field : BitVec 5) : Nat := (field.extractLsb' 0 4).toNat

end Decode

namespace GPUCore

open Decode

variable {cfg : Config}

/-- The registers after a reset edge, with the variables at zero. -/
def fresh : GPUCore cfg where
  state := .sched
  ctaActive := false
  faultR := false
  rrWarp := 0
  issueWarp := 0
  issueMask := 0
  issuePc := 0
  issueInst := 0
  memThread := 0
  block := Dim3.zero
  dim := Dim3.one
  grid := Dim3.one
  argsAddr := 0
  warpPc := fun _ => 0
  warpMask := fun _ => 0
  warpValid := fun _ => false
  stackSp := fun _ => 0
  stackPc := fun _ => 0
  stackMask := fun _ => 0
  gprs := fun _ => 0
  threadX := fun _ => 0
  threadY := fun _ => 0
  threadZ := fun _ => 0
  globalId := fun _ => 0
  nextPc := 0

/-- A reset edge leaves the variables alone. -/
def reset (core : GPUCore cfg) : GPUCore cfg := { fresh with nextPc := core.nextPc }

/-- `cta_ready`. -/
def ctaReady (core : GPUCore cfg) : Bool := !core.ctaActive && core.state == .sched

/-- The lanes of warp `w` below the block size. -/
def initialMask (cfg : Config) (blockSize : Word) (w : Nat) : BitVec cfg.numThreads :=
  collectLanes cfg.numThreads cfg.numThreads fun t =>
    BitVec.ofNat 32 (w * cfg.numThreads + t) < blockSize

/-- `block_linear`. -/
def blockLinear {numCores : Nat} (kmu : GPUKmu numCores) : Word :=
  (kmu.blockIdx.z * kmu.gridDim.y + kmu.blockIdx.y) * kmu.gridDim.x + kmu.blockIdx.x

/-- Latch a block from the dispatcher. -/
def acceptCta {numCores : Nat} (kmu : GPUKmu numCores) (core : GPUCore cfg) :
    GPUCore cfg :=
  { core with
    ctaActive := true
    faultR := false
    state := .sched
    rrWarp := 0
    block := kmu.blockIdx
    dim := kmu.blockDim
    grid := kmu.gridDim
    argsAddr := kmu.argsAddr
    warpPc := fun _ => kmu.startupPc
    stackSp := fun _ => 0
    warpMask := initialMask cfg kmu.blockSize
    warpValid := fun w => BitVec.ofNat 32 (w * cfg.numThreads) < kmu.blockSize
    threadX := fun i => modulo (BitVec.ofNat 32 i) kmu.blockDim.x
    threadY := fun i => modulo (divide (BitVec.ofNat 32 i) kmu.blockDim.x) kmu.blockDim.y
    threadZ := fun i => divide (BitVec.ofNat 32 i) (kmu.blockDim.x * kmu.blockDim.y)
    globalId := fun i => blockLinear kmu * kmu.blockSize + BitVec.ofNat 32 i
    gprs := fun _ => 0 }

/-- The context of a lane of the issued warp. -/
def context (core : GPUCore cfg) (t : Nat) : Nat :=
  core.issueWarp.toNat * cfg.numThreads + t

/-- A register of a lane of the issued warp. -/
def laneRegister (core : GPUCore cfg) (t : Nat) (field : BitVec 5) : Word :=
  core.gprs (core.context t * 16 + register field)

/-- `advance_warp`. -/
def advanceWarp (core : GPUCore cfg) : GPUCore cfg :=
  { core with
    rrWarp :=
      if core.issueWarp = BitVec.ofNat _ (cfg.numWarps - 1) then 0
      else core.issueWarp + 1
    state := .sched }

/-- Raise the fault register and drop the block. -/
def raise (core : GPUCore cfg) : GPUCore cfg :=
  { core with faultR := true, ctaActive := false }

/-- The `SCHED` state. -/
def schedule (core : GPUCore cfg) : GPUCore cfg :=
  match circularFirst cfg.numWarps core.rrWarp.toNat core.warpValid with
  | some selected =>
      { core with
        issueWarp := BitVec.ofNat _ selected
        issueMask := core.warpMask selected
        issuePc := core.warpPc selected
        state := .fetch }
  | none => { core with ctaActive := false }

/-- The index of the issued warp. -/
def warp (core : GPUCore cfg) : Nat := core.issueWarp.toNat

/-- The stack slot of the issued warp at depth `sp`. -/
def slot (core : GPUCore cfg) (sp : Nat) : Nat := core.warp * stackDepth + sp

/-- Resume the newest deferred path of the issued warp. -/
def popPath (core : GPUCore cfg) : GPUCore cfg :=
  let sp := core.stackSp core.warp
  { core with
    stackSp := Function.update core.stackSp core.warp (sp - 1)
    warpPc := Function.update core.warpPc core.warp
      (core.stackPc (core.slot sp.toNat - 1))
    warpMask := Function.update core.warpMask core.warp
      (core.stackMask (core.slot sp.toNat - 1)) }

/-- `EBREAK`. -/
def execEbreak (core : GPUCore cfg) : GPUCore cfg :=
  advanceWarp <|
    if core.stackSp core.warp ≠ 0 then core.popPath
    else { core with warpValid := Function.update core.warpValid core.warp false }

/-- The branch condition; `none` clears `supported`. -/
def branchTake (funct3 : BitVec 3) (a b : Word) : Option Bool :=
  if funct3 = 0 then some (a == b)
  else if funct3 = 1 then some (a != b)
  else if funct3 = 4 then some (a.slt b)
  else if funct3 = 5 then some (b.sle a)
  else if funct3 = 6 then some (a.ult b)
  else if funct3 = 7 then some (b.ule a)
  else none

/-- The branch condition of a lane. -/
def laneTake (core : GPUCore cfg) (t : Nat) : Option Bool :=
  branchTake (funct3 core.issueInst)
    (core.laneRegister t (rs1 core.issueInst)) (core.laneRegister t (rs2 core.issueInst))

/-- `supported` of the branch arm: no issued lane has a reserved minor
opcode. -/
def branchSupported (core : GPUCore cfg) : Bool :=
  (List.range cfg.numThreads).all fun t =>
    !core.issueMask.getLsbD t || (core.laneTake t).isSome

/-- `taken_mask`. -/
def takenMask (core : GPUCore cfg) : BitVec cfg.numThreads :=
  collectLanes cfg.numThreads cfg.numThreads fun t =>
    core.issueMask.getLsbD t && (core.laneTake t).getD false

/-- `fall_mask`. -/
def fallMask (core : GPUCore cfg) : BitVec cfg.numThreads :=
  collectLanes cfg.numThreads cfg.numThreads fun t =>
    core.issueMask.getLsbD t && !(core.laneTake t).getD false

/-- Replace the current path of the issued warp. -/
def setPath (core : GPUCore cfg) (pc : Word) (mask : BitVec cfg.numThreads) :
    GPUCore cfg :=
  { core with
    warpPc := Function.update core.warpPc core.warp pc
    warpMask := Function.update core.warpMask core.warp mask }

/-- Defer a path of the issued warp. -/
def pushPath (core : GPUCore cfg) (pc : Word) (mask : BitVec cfg.numThreads) :
    GPUCore cfg :=
  let sp := core.stackSp core.warp
  { core with
    stackPc := Function.update core.stackPc (core.slot sp.toNat) pc
    stackMask := Function.update core.stackMask (core.slot sp.toNat) mask
    stackSp := Function.update core.stackSp core.warp (sp + 1) }

/-- The path stack of the issued warp is full. -/
def stackFull (core : GPUCore cfg) : Bool := stackDepth ≤ (core.stackSp core.warp).toNat

/-- The conditional branches. -/
def execBranch (core : GPUCore cfg) : GPUCore cfg :=
  let target := core.issuePc + immB core.issueInst
  let follow := core.issuePc + 4
  advanceWarp <|
    if !core.branchSupported then core.raise
    else if core.takenMask ≠ 0 ∧ core.fallMask ≠ 0 then
      if core.stackFull then core.raise
      else (core.pushPath target core.takenMask).setPath follow core.fallMask
    else if core.takenMask ≠ 0 then core.setPath target core.takenMask
    else core.setPath follow core.fallMask

/-- Register-immediate arithmetic. The right shift has an unsigned arm, which
makes both arms logical. -/
def opImm (inst a : Word) : Word :=
  let sh := (inst.extractLsb' 20 5).toNat
  if funct3 inst = 0 then a + immI inst
  else if funct3 inst = 1 then a <<< sh
  else if funct3 inst = 2 then boolWord (a.slt (immI inst))
  else if funct3 inst = 3 then boolWord (a.ult (immI inst))
  else if funct3 inst = 4 then a ^^^ immI inst
  else if funct3 inst = 5 then if inst.getLsbD 30 then a >>> sh else a >>> sh
  else if funct3 inst = 6 then a ||| immI inst
  else a &&& immI inst

/-- Register-register arithmetic, with the same right shift. -/
def op (inst a b : Word) : Word :=
  let sh := (b.extractLsb' 0 5).toNat
  if funct3 inst = 0 then if funct7 inst = 0b0100000 then a - b else a + b
  else if funct3 inst = 1 then a <<< sh
  else if funct3 inst = 2 then boolWord (a.slt b)
  else if funct3 inst = 3 then boolWord (a.ult b)
  else if funct3 inst = 4 then a ^^^ b
  else if funct3 inst = 5 then if funct7 inst = 0b0100000 then a >>> sh else a >>> sh
  else if funct3 inst = 6 then a ||| b
  else a &&& b

/-- The CSR numbers that lane `t` answers. -/
def csrValue (coreId : Nat) (core : GPUCore cfg) (t : Nat) (number : BitVec 12) :
    Option Word :=
  let c := core.context t
  if number = 0xf14 then some (core.globalId c)
  else if number = 0xcc0 then some (core.threadX c)
  else if number = 0xcc1 then some (core.threadY c)
  else if number = 0xcc2 then some (core.threadZ c)
  else if number = 0xcc3 then some core.block.x
  else if number = 0xcc4 then some core.block.y
  else if number = 0xcc5 then some core.block.z
  else if number = 0xcc6 then some core.dim.x
  else if number = 0xcc7 then some core.dim.y
  else if number = 0xcc8 then some core.dim.z
  else if number = 0xcc9 then some core.grid.x
  else if number = 0xcca then some core.grid.y
  else if number = 0xccb then some core.grid.z
  else if number = 0xccc then some core.argsAddr
  else if number = 0xccd then
    some (BitVec.ofNat 32
      (coreId * cfg.numWarps * cfg.numThreads + core.warp * cfg.numThreads + t))
  else if number = 0xcce then some (BitVec.ofNat 32 core.warp)
  else if number = 0xccf then some (BitVec.ofNat 32 t)
  else none

/-- `result` of a lane; `none` clears `supported` and leaves `result` zero. -/
def laneResult (coreId : Nat) (core : GPUCore cfg) (t : Nat) (a b : Word) :
    Option Word :=
  let inst := core.issueInst
  if opcode inst = 0b0110111 then some (immU inst)
  else if opcode inst = 0b0010111 then some (core.issuePc + immU inst)
  else if opcode inst = 0b0010011 then some (opImm inst a)
  else if opcode inst = 0b0110011 then some (op inst a b)
  else if opcode inst = 0b1101111 then some (core.issuePc + 4)
  else if opcode inst = 0b1100111 then some (core.issuePc + 4)
  else if opcode inst = 0b1110011 then
    if funct3 inst ≠ 0b010 ∨ rs1 inst ≠ 0 then none
    else csrValue coreId core t (csrAddr inst)
  else none

/-- The variables of the lane loop. -/
structure LaneLoop where
  gprs : Nat → Word
  supported : Bool
  targetSet : Bool
  divergentTarget : Bool
  firstTarget : Word
  nextPc : Word

/-- The effect of a lane on the jump variables. -/
def laneJump (core : GPUCore cfg) (a : Word) (acc : LaneLoop) : LaneLoop :=
  let inst := core.issueInst
  if opcode inst = 0b1101111 then { acc with nextPc := core.issuePc + immJ inst }
  else if opcode inst = 0b1100111 then
    let target := (a + immI inst) &&& 0xfffffffe
    if !acc.targetSet then
      { acc with nextPc := target, firstTarget := target, targetSet := true }
    else if acc.firstTarget ≠ target then
      { acc with nextPc := target, divergentTarget := true }
    else { acc with nextPc := target }
  else { acc with nextPc := core.issuePc + 4 }

/-- The body of the lane loop. Registers are read before the edge and written
after it. -/
def laneBody (coreId : Nat) (core : GPUCore cfg) (acc : LaneLoop) (t : Nat) :
    LaneLoop :=
  if core.issueMask.getLsbD t then
    let inst := core.issueInst
    let base := core.context t * 16
    let a := core.laneRegister t (rs1 inst)
    let b := core.laneRegister t (rs2 inst)
    let result := laneResult coreId core t a b
    let jumped := laneJump core a acc
    { jumped with
      supported := acc.supported && result.isSome
      gprs := Function.update
        (if usesRd (opcode inst) && rd inst != 0 then
          Function.update acc.gprs (base + register (rd inst)) (result.getD 0)
        else acc.gprs) base 0 }
  else acc

/-- The lane loop of the remaining opcodes. -/
def laneLoop (coreId : Nat) (core : GPUCore cfg) : LaneLoop :=
  (List.range cfg.numThreads).foldl (laneBody coreId core)
    { gprs := core.gprs
      supported := true
      targetSet := false
      divergentTarget := false
      firstTarget := 0
      nextPc := core.nextPc }

/-- The remaining opcodes. -/
def execLanes (coreId : Nat) (core : GPUCore cfg) : GPUCore cfg :=
  let acc := laneLoop coreId core
  let written := { core with gprs := acc.gprs, nextPc := acc.nextPc }
  advanceWarp <|
    if !acc.supported || acc.divergentTarget then written.raise
    else { written with warpPc := Function.update core.warpPc core.warp acc.nextPc }

/-- The `EXEC` state. -/
def execute (coreId : Nat) (core : GPUCore cfg) : GPUCore cfg :=
  if badRegister core.issueInst then { core.raise with state := .sched }
  else if opcode core.issueInst = load ∨ opcode core.issueInst = store then
    { core with memThread := 0, state := .memReq }
  else if core.issueInst = ebreak then execEbreak core
  else if opcode core.issueInst = branch then execBranch core
  else execLanes coreId core

/-- Leave the memory states after the last lane. -/
def finishMemory (core : GPUCore cfg) : GPUCore cfg :=
  advanceWarp
    { core with warpPc := Function.update core.warpPc core.warp (core.issuePc + 4) }

/-- The last lane of the memory loop. -/
def lastThread (core : GPUCore cfg) : Bool :=
  core.memThread == BitVec.ofNat _ (cfg.numThreads - 1)

/-- The `MEM_REQ` state. -/
def memoryRequest (core : GPUCore cfg) : GPUCore cfg :=
  if !core.issueMask.getLsbD core.memThread.toNat then
    if core.lastThread then core.finishMemory
    else { core with memThread := core.memThread + 1 }
  else { core with state := .memResp }

/-- `addr` of the memory states. -/
def memoryAddress (core : GPUCore cfg) : Word :=
  let inst := core.issueInst
  core.laneRegister core.memThread.toNat (rs1 inst) +
    (if opcode inst = load then immI inst else immS inst)

/-- `load_data`. -/
def loadData (funct3 : BitVec 3) (addr rdata : Word) : Word :=
  let shifted := rdata >>> ((addr.extractLsb' 0 2).toNat * 8)
  if funct3 = 0 then (shifted.extractLsb' 0 8).signExtend 32
  else if funct3 = 1 then (shifted.extractLsb' 0 16).signExtend 32
  else if funct3 = 2 then rdata
  else if funct3 = 4 then (shifted.extractLsb' 0 8).setWidth 32
  else if funct3 = 5 then (shifted.extractLsb' 0 16).setWidth 32
  else 0

/-- The `MEM_RESP` state. -/
def memoryResponse (rdata : Word) (core : GPUCore cfg) : GPUCore cfg :=
  let inst := core.issueInst
  let base := core.context core.memThread.toNat * 16
  let gprs :=
    if opcode inst = load ∧ rd inst ≠ 0 then
      Function.update core.gprs (base + register (rd inst))
        (loadData (funct3 inst) core.memoryAddress rdata)
    else core.gprs
  let written := { core with gprs := Function.update gprs base 0 }
  if core.lastThread then written.finishMemory
  else { written with memThread := core.memThread + 1, state := .memReq }

/-- The clocked block. `imemRdata` and `dmemRdata` are what the memories drive
before the edge. -/
def posedge {numCores : Nat} (coreId : Nat) (resetN : Bool) (ctaValid : Bool)
    (kmu : GPUKmu numCores) (imemRdata dmemRdata : Word) (core : GPUCore cfg) :
    GPUCore cfg :=
  if resetN then core.reset
  else if ctaValid && core.ctaReady then acceptCta kmu core
  else if core.ctaActive then
    match core.state with
    | .sched => schedule core
    | .fetch => { core with issueInst := imemRdata, state := .exec }
    | .exec => execute coreId core
    | .memReq => memoryRequest core
    | .memResp => memoryResponse dmemRdata core
  else core

/-! ## Data-memory port -/

/-- `dmem_ren`. -/
def dmemRen (core : GPUCore cfg) : Bool :=
  (core.state == .memReq || core.state == .memResp) &&
    opcode core.issueInst == load && core.issueMask.getLsbD core.memThread.toNat

/-- `dmem_wen`. -/
def dmemWen (core : GPUCore cfg) : Bool :=
  core.state == .memReq && opcode core.issueInst == store &&
    core.issueMask.getLsbD core.memThread.toNat

/-- `dmem_addr` in the memory states. -/
def dmemAddr (core : GPUCore cfg) : Word :=
  core.memoryAddress.extractLsb' 2 30 ++ 0#2

/-- `dmem_mask` in the memory states; the shifts are four bits wide. -/
def dmemMask (core : GPUCore cfg) : BitVec 4 :=
  let offset := (core.memoryAddress.extractLsb' 0 2).toNat
  if funct3 core.issueInst = 0 then 0b0001 <<< offset
  else if funct3 core.issueInst = 1 then 0b0011 <<< offset
  else 0b1111

/-- `dmem_wdata` in the memory states. -/
def dmemWdata (core : GPUCore cfg) : Word :=
  core.laneRegister core.memThread.toNat (rs2 core.issueInst) <<<
    ((core.memoryAddress.extractLsb' 0 2).toNat * 8)

end GPUCore

end Verilog

end OpenGPU
