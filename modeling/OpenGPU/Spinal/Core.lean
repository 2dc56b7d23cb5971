import OpenGPU.Spinal.Kmu
import OpenGPU.Verilog.Core

/-!
# The SpinalHDL core

`GPUCore` of the SpinalHDL sources. It has the registers of the SystemVerilog
core and `memReadData` beside them; the variable `nextPc` of the SystemVerilog
text has no counterpart here and keeps its value. Resized sums wrap at the width
they are resized to.
-/

namespace OpenGPU

namespace Spinal

open Verilog Verilog.Decode

/-- The registers of `GPUCore` that the states up to `EXEC` use. -/
abbrev Core (cfg : Config) := GPUCore cfg

/-- All registers of `GPUCore`. -/
structure MemCore (cfg : Config) where
  core : Core cfg
  memReadData : Word

namespace Core

variable {cfg : Config}

/-! ## Indices -/

/-- `cb`. -/
def contextBits (cfg : Config) : Nat := indexBits cfg.contexts

/-- `rb`. -/
def regBits (cfg : Config) : Nat := indexBits (cfg.contexts * 16)

/-- `sb`. -/
def stackIndexBits (cfg : Config) : Nat := indexBits (cfg.numWarps * Verilog.stackDepth)

/-- `ctx`. -/
def ctx (core : Core cfg) (t : Nat) : BitVec (contextBits cfg) :=
  core.issueWarp.setWidth _ * BitVec.ofNat _ cfg.numThreads + BitVec.ofNat _ t

/-- `base`. -/
def base (c : BitVec (contextBits cfg)) : BitVec (regBits cfg) := c.setWidth _ <<< 4

/-- The index of a register beside its base. -/
def registerIndex (b0 : BitVec (regBits cfg)) (field : BitVec 5) : BitVec (regBits cfg) :=
  b0 + (field.extractLsb' 0 4).setWidth _

/-- A register of a lane of the issued warp. -/
def laneRegister (core : Core cfg) (t : Nat) (field : BitVec 5) : Word :=
  core.gprs (registerIndex (base (core.ctx t)) field).toNat

/-- The start of the issued warp's stack, plus the resized stack pointer. -/
def stackIndex (core : Core cfg) : BitVec (stackIndexBits cfg) :=
  core.issueWarp.setWidth _ * BitVec.ofNat _ Verilog.stackDepth +
    (core.stackSp core.issueWarp.toNat).setWidth _

/-! ## Blocks and warps -/

/-- The initial mask of warp `w`. -/
def initialMask (cfg : Config) (blockSize : Word) (w : Nat) : BitVec cfg.numThreads :=
  collectLanes cfg.numThreads cfg.numThreads fun t =>
    BitVec.ofNat 32 (w * cfg.numThreads + t) < blockSize

/-- `globalId` of a lane, the low bits of a wide sum. -/
def globalIdOf {numCores : Nat} (kmu : Kmu numCores) (i : Nat) : Word :=
  ((kmu.blockIdx.z * kmu.gridDim.y + kmu.blockIdx.y) * kmu.gridDim.x + kmu.blockIdx.x) *
    kmu.blockSize + BitVec.ofNat 32 i

/-- `io.ctaReady`. -/
def ctaReady (core : Core cfg) : Bool := !core.ctaActive && core.state == .sched

/-- Latch a block from the dispatcher. -/
def acceptCta {numCores : Nat} (kmu : Kmu numCores) (core : Core cfg) : Core cfg :=
  { core with
    ctaActive := true
    faultR := false
    state := .sched
    rrWarp := 0
    block := kmu.blockIdx
    dim := kmu.blockDim
    grid := kmu.gridDim
    argsAddr := kmu.argsAddr
    warpPc := fun _ => kmu.startupPc
    stackSp := fun _ => 0
    warpMask := initialMask cfg kmu.blockSize
    warpValid := fun w => BitVec.ofNat 32 (w * cfg.numThreads) < kmu.blockSize
    threadX := fun i => modulo (BitVec.ofNat 32 i) kmu.blockDim.x
    threadY := fun i => modulo (divide (BitVec.ofNat 32 i) kmu.blockDim.x) kmu.blockDim.y
    threadZ := fun i => divide (BitVec.ofNat 32 i) (kmu.blockDim.x * kmu.blockDim.y)
    globalId := globalIdOf kmu
    gprs := fun _ => 0 }

/-- `(rr + o).resized`. -/
def candidate (core : Core cfg) (o : Nat) : BitVec (indexBits cfg.numWarps) :=
  core.rrWarp + BitVec.ofNat _ o

/-- `selected`: the last assignment that applies wins. A bit beyond the warps
reads as zero. -/
def selected (core : Core cfg) : BitVec (indexBits cfg.numWarps) :=
  if cfg.numWarps = 1 then 0
  else
    (List.range cfg.numWarps).reverse.foldl
      (fun selected o =>
        if decide ((core.candidate o).toNat < cfg.numWarps) &&
            core.warpValid (core.candidate o).toNat then core.candidate o
        else selected)
      core.rrWarp

/-- State 0. -/
def schedule (core : Core cfg) : Core cfg :=
  if core.ctaActive then
    if (List.range cfg.numWarps).any core.warpValid then
      { core with
        issueWarp := core.selected
        issueMask := core.warpMask core.selected.toNat
        issuePc := core.warpPc core.selected.toNat
        state := .fetch }
    else { core with ctaActive := false }
  else core

/-- `advanceWarp`. -/
def advanceWarp (core : Core cfg) : Core cfg :=
  { core with
    rrWarp :=
      if core.issueWarp = BitVec.ofNat _ (cfg.numWarps - 1) then 0
      else core.issueWarp + 1
    state := .sched }

/-- Raise the fault register and drop the block. -/
def raise (core : Core cfg) : Core cfg :=
  { core with faultR := true, ctaActive := false }

/-! ## Branches -/

/-- `taken` of one lane. -/
def branchTaken (f3 : BitVec 3) (a b : Word) : Bool :=
  if f3 = 0 then a == b
  else if f3 = 1 then a != b
  else if f3 = 4 then a.slt b
  else if f3 = 5 then b.sle a
  else if f3 = 6 then a.ult b
  else if f3 = 7 then b.ule a
  else false

/-- The branch condition of a lane, issued or not. -/
def laneTaken (core : Core cfg) (t : Nat) : Bool :=
  branchTaken (funct3 core.issueInst)
    (core.laneRegister t (rs1 core.issueInst)) (core.laneRegister t (rs2 core.issueInst))

/-- `taken`. -/
def taken (core : Core cfg) : BitVec cfg.numThreads :=
  collectLanes cfg.numThreads cfg.numThreads core.laneTaken

/-- `takenMask`. -/
def takenMask (core : Core cfg) : BitVec cfg.numThreads := core.taken &&& core.issueMask

/-- `fallMask`. -/
def fallMask (core : Core cfg) : BitVec cfg.numThreads := ~~~core.taken &&& core.issueMask

/-- `branchGood`. -/
def branchGood (f3 : BitVec 3) : Bool :=
  f3 == 0 || f3 == 1 || f3 == 4 || f3 == 5 || f3 == 6 || f3 == 7

/-- Replace the current path of the issued warp. -/
def setPath (core : Core cfg) (pc : Word) (mask : BitVec cfg.numThreads) : Core cfg :=
  { core with
    warpPc := Function.update core.warpPc core.issueWarp.toNat pc
    warpMask := Function.update core.warpMask core.issueWarp.toNat mask }

/-- Defer a path of the issued warp. -/
def pushPath (core : Core cfg) (pc : Word) (mask : BitVec cfg.numThreads) : Core cfg :=
  let sp := core.stackSp core.issueWarp.toNat
  { core with
    stackPc := Function.update core.stackPc core.stackIndex.toNat pc
    stackMask := Function.update core.stackMask core.stackIndex.toNat mask
    stackSp := Function.update core.stackSp core.issueWarp.toNat (sp + 1) }

/-- Resume the newest deferred path of the issued warp. -/
def popPath (core : Core cfg) : Core cfg :=
  let sp := core.stackSp core.issueWarp.toNat
  let index := core.stackIndex - 1
  { core with
    stackSp := Function.update core.stackSp core.issueWarp.toNat (sp - 1)
    warpPc := Function.update core.warpPc core.issueWarp.toNat (core.stackPc index.toNat)
    warpMask := Function.update core.warpMask core.issueWarp.toNat
      (core.stackMask index.toNat) }

/-- The word that retires the issued lanes. -/
def execEbreak (core : Core cfg) : Core cfg :=
  advanceWarp <|
    if core.stackSp core.issueWarp.toNat ≠ 0 then core.popPath
    else
      { core with
        warpValid := Function.update core.warpValid core.issueWarp.toNat false }

/-- The conditional branches. The stack is full at exactly eight entries. -/
def execBranch (core : Core cfg) : Core cfg :=
  let target := core.issuePc + immB core.issueInst
  let follow := core.issuePc + 4
  advanceWarp <|
    if !branchGood (funct3 core.issueInst) then core.raise
    else if core.takenMask ≠ 0 ∧ core.fallMask ≠ 0 then
      if (core.stackSp core.issueWarp.toNat).toNat = Verilog.stackDepth then core.raise
      else (core.pushPath target core.takenMask).setPath follow core.fallMask
    else if core.takenMask ≠ 0 then core.setPath target core.takenMask
    else core.setPath follow core.fallMask

/-! ## Remaining opcodes -/

/-- `firstLane`: the number of the lowest set bit, zero without one. -/
def firstLane (core : Core cfg) : Nat :=
  ((List.range cfg.numThreads).find? fun t => core.issueMask.getLsbD t).getD 0

/-- The target of `JALR` for the registers of one lane. -/
def laneTarget (core : Core cfg) (t : Nat) : Word :=
  (core.laneRegister t (rs1 core.issueInst) + immI core.issueInst) &&& 0xfffffffe

/-- `firstTarget`. -/
def firstTarget (core : Core cfg) : Word := core.laneTarget core.firstLane

/-- `jalrDivergent`. -/
def jalrDivergent (core : Core cfg) : Bool :=
  (List.range cfg.numThreads).any fun t =>
    core.issueMask.getLsbD t && core.laneTarget t != core.firstTarget

/-- Register-immediate arithmetic. -/
def opImm (inst a : Word) : Word :=
  if funct3 inst = 0 then a + immI inst
  else if funct3 inst = 1 then a <<< (rs2 inst).toNat
  else if funct3 inst = 2 then boolWord (a.slt (immI inst))
  else if funct3 inst = 3 then boolWord (a.ult (immI inst))
  else if funct3 inst = 4 then a ^^^ immI inst
  else if funct3 inst = 5 then
    if inst.getLsbD 30 then a.sshiftRight (rs2 inst).toNat else a >>> (rs2 inst).toNat
  else if funct3 inst = 6 then a ||| immI inst
  else if funct3 inst = 7 then a &&& immI inst
  else 0

/-- Register-register arithmetic. -/
def op (inst a bv : Word) : Word :=
  let shamt : BitVec 5 := bv.extractLsb' 0 5
  if funct3 inst = 0 then if funct7 inst = 0b0100000 then a - bv else a + bv
  else if funct3 inst = 1 then a <<< shamt.toNat
  else if funct3 inst = 2 then boolWord (a.slt bv)
  else if funct3 inst = 3 then boolWord (a.ult bv)
  else if funct3 inst = 4 then a ^^^ bv
  else if funct3 inst = 5 then
    if funct7 inst = 0b0100000 then a.sshiftRight shamt.toNat else a >>> shamt.toNat
  else if funct3 inst = 6 then a ||| bv
  else if funct3 inst = 7 then a &&& bv
  else 0

/-- The physical lane number. -/
def physicalId (coreId : Nat) (core : Core cfg) (t : Nat) : Word :=
  BitVec.ofNat 32 (coreId * cfg.numWarps * cfg.numThreads) +
    core.issueWarp.setWidth 32 * BitVec.ofNat 32 cfg.numThreads + BitVec.ofNat 32 t

/-- The CSR numbers that lane `t` answers. -/
def csrValue (coreId : Nat) (core : Core cfg) (t : Nat) (csr : BitVec 12) : Option Word :=
  let c := (core.ctx t).toNat
  if csr = 0xf14 then some (core.globalId c)
  else if csr = 0xcc0 then some (core.threadX c)
  else if csr = 0xcc1 then some (core.threadY c)
  else if csr = 0xcc2 then some (core.threadZ c)
  else if csr = 0xcc3 then some core.block.x
  else if csr = 0xcc4 then some core.block.y
  else if csr = 0xcc5 then some core.block.z
  else if csr = 0xcc6 then some core.dim.x
  else if csr = 0xcc7 then some core.dim.y
  else if csr = 0xcc8 then some core.dim.z
  else if csr = 0xcc9 then some core.grid.x
  else if csr = 0xcca then some core.grid.y
  else if csr = 0xccb then some core.grid.z
  else if csr = 0xccc then some core.argsAddr
  else if csr = 0xccd then some (core.physicalId coreId t)
  else if csr = 0xcce then some (core.issueWarp.setWidth 32)
  else if csr = 0xccf then some (BitVec.ofNat 32 t)
  else none

/-- `result` of a lane and whether the lane leaves `good` set. A CSR word of the
wrong form clears `good` and still reads the CSR. -/
def laneResult (coreId : Nat) (core : Core cfg) (t : Nat) (a bv : Word) : Word × Bool :=
  let inst := core.issueInst
  if opcode inst = 0b0110111 then (immU inst, true)
  else if opcode inst = 0b0010111 then (core.issuePc + immU inst, true)
  else if opcode inst = 0b0010011 then (opImm inst a, true)
  else if opcode inst = 0b0110011 then (op inst a bv, true)
  else if opcode inst = 0b1101111 then (core.issuePc + 4, true)
  else if opcode inst = 0b1100111 then (core.issuePc + 4, true)
  else if opcode inst = 0b1110011 then
    match csrValue coreId core t (csrAddr inst) with
    | some value => (value, !(funct3 inst != 2 || rs1 inst != 0))
    | none => (0, false)
  else (0, false)

/-- The result of an issued lane, on the registers before the edge. -/
def issuedResult (coreId : Nat) (core : Core cfg) (t : Nat) : Word × Bool :=
  laneResult coreId core t (core.laneRegister t (rs1 core.issueInst))
    (core.laneRegister t (rs2 core.issueInst))

/-- The register writes of one lane. -/
def laneWrite (coreId : Nat) (core : Core cfg) (gprs : Nat → Word) (t : Nat) : Nat → Word :=
  if core.issueMask.getLsbD t then
    let b0 := base (core.ctx t)
    Function.update
      (if usesRd (opcode core.issueInst) && rd core.issueInst != 0 then
        Function.update gprs (registerIndex b0 (rd core.issueInst)).toNat
          (core.issuedResult coreId t).1
      else gprs) b0.toNat 0
  else gprs

/-- `good`. -/
def good (coreId : Nat) (core : Core cfg) : Bool :=
  !(opcode core.issueInst == 0b1100111 && core.jalrDivergent) &&
    (List.range cfg.numThreads).all fun t =>
      !core.issueMask.getLsbD t || (core.issuedResult coreId t).2

/-- The next program counter of a warp that does not fault. -/
def nextPcOf (core : Core cfg) : Word :=
  if opcode core.issueInst = 0b1101111 then core.issuePc + immJ core.issueInst
  else if opcode core.issueInst = 0b1100111 then core.firstTarget
  else core.issuePc + 4

/-- The remaining opcodes. -/
def execLanes (coreId : Nat) (core : Core cfg) : Core cfg :=
  let written :=
    { core with gprs := (List.range cfg.numThreads).foldl (laneWrite coreId core) core.gprs }
  advanceWarp <|
    if !core.good coreId then written.raise
    else
      { written with
        warpPc := Function.update core.warpPc core.issueWarp.toNat core.nextPcOf }

/-- State 2. Nothing here asks whether the core holds a block. -/
def execute (coreId : Nat) (core : Core cfg) : Core cfg :=
  if badRegister core.issueInst then { core.raise with state := .sched }
  else if opcode core.issueInst = load ∨ opcode core.issueInst = store then
    { core with memThread := 0, state := .memReq }
  else if core.issueInst = ebreak then execEbreak core
  else if opcode core.issueInst = branch then execBranch core
  else execLanes coreId core

/-! ## Memory instructions -/

/-- `addr`. -/
def memAddr (core : Core cfg) : Word :=
  core.laneRegister core.memThread.toNat (rs1 core.issueInst) +
    (if opcode core.issueInst = load then immI core.issueInst else immS core.issueInst)

/-- `addr(1 downto 0) << 3`. -/
def memShift (core : Core cfg) : Nat := ((core.memAddr.extractLsb' 0 2).setWidth 5 <<< 3).toNat

/-- `laneActive(mt)`. -/
def memLaneActive (core : Core cfg) : Bool := core.issueMask.getLsbD core.memThread.toNat

/-- `io.dmemRen`. -/
def dmemRen (core : Core cfg) : Bool :=
  core.state == .memReq && core.memLaneActive && opcode core.issueInst == load

/-- `io.dmemWen`. -/
def dmemWen (core : Core cfg) : Bool :=
  core.state == .memReq && core.memLaneActive && opcode core.issueInst == store

/-- `io.dmemMask` of an active lane in state 3, eight bits wide. -/
def dmemMask (core : Core cfg) : BitVec 8 :=
  let offset := (core.memAddr.extractLsb' 0 2).toNat
  if funct3 core.issueInst = 0 then (1 : BitVec 8) <<< offset
  else if funct3 core.issueInst = 1 then (3 : BitVec 8) <<< offset
  else 15

/-- `io.dmemAddr` of an active lane in state 3. -/
def dmemAddr (core : Core cfg) : Word := core.memAddr &&& 0xfffffffc

/-- `io.dmemWdata` of an active lane in state 3. -/
def dmemWdata (core : Core cfg) : Word :=
  core.laneRegister core.memThread.toNat (rs2 core.issueInst) <<< core.memShift

/-- The data-memory mask word of the comparison, 32 bits wide. -/
def diffMask (core : Core cfg) : Word :=
  let offset := (core.memAddr.extractLsb' 0 2).toNat
  if funct3 core.issueInst = 0 then (1 : Word) <<< offset
  else if funct3 core.issueInst = 1 then (3 : Word) <<< offset
  else 15

/-- Leave the memory states after the last lane. -/
def finishMemory (core : Core cfg) : Core cfg :=
  advanceWarp
    { core with
      warpPc := Function.update core.warpPc core.issueWarp.toNat (core.issuePc + 4) }

/-- The last lane of the memory loop. -/
def lastThread (core : Core cfg) : Bool :=
  core.memThread == BitVec.ofNat _ (cfg.numThreads - 1)

/-- `loaded`: a reserved minor opcode keeps the whole word. -/
def loaded (core : Core cfg) (memReadData : Word) : Word :=
  let shifted := memReadData >>> core.memShift
  if funct3 core.issueInst = 0 then (shifted.extractLsb' 0 8).signExtend 32
  else if funct3 core.issueInst = 1 then (shifted.extractLsb' 0 16).signExtend 32
  else if funct3 core.issueInst = 4 then (shifted.extractLsb' 0 8).setWidth 32
  else if funct3 core.issueInst = 5 then (shifted.extractLsb' 0 16).setWidth 32
  else memReadData

end Core

namespace MemCore

variable {cfg : Config}

/-- State 3. A load captures what the memory drives before the edge. -/
def memoryRequest (dmemRdata : Word) (m : MemCore cfg) : MemCore cfg :=
  if !m.core.memLaneActive then
    if m.core.lastThread then { m with core := m.core.finishMemory }
    else { m with core := { m.core with memThread := m.core.memThread + 1 } }
  else
    { core := { m.core with state := .memResp }
      memReadData := if opcode m.core.issueInst = load then dmemRdata else m.memReadData }

/-- State 4. -/
def memoryResponse (m : MemCore cfg) : MemCore cfg :=
  let core := m.core
  let b0 := Core.base (core.ctx core.memThread.toNat)
  let gprs :=
    if opcode core.issueInst = load ∧ rd core.issueInst ≠ 0 then
      Function.update core.gprs (Core.registerIndex b0 (rd core.issueInst)).toNat
        (core.loaded m.memReadData)
    else core.gprs
  let written : Core cfg := { core with gprs := Function.update gprs b0.toNat 0 }
  { m with
    core :=
      if core.lastThread then written.finishMemory
      else { written with memThread := core.memThread + 1, state := .memReq } }

/-- One clock edge. -/
def posedge {numCores : Nat} (coreId : Nat) (reset : Bool) (ctaValid : Bool)
    (kmu : Kmu numCores) (imemRdata dmemRdata : Word) (m : MemCore cfg) : MemCore cfg :=
  if reset then { core := GPUCore.reset m.core, memReadData := 0 }
  else if ctaValid && m.core.ctaReady then { m with core := Core.acceptCta kmu m.core }
  else
    match m.core.state with
    | .sched => { m with core := Core.schedule m.core }
    | .fetch => { m with core := { m.core with issueInst := imemRdata, state := .exec } }
    | .exec => { m with core := Core.execute coreId m.core }
    | .memReq => memoryRequest dmemRdata m
    | .memResp => memoryResponse m

end MemCore

end Spinal

end OpenGPU
