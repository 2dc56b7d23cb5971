import OpenGPU.Chisel.Kmu
import OpenGPU.Verilog.Core

/-!
# The Chisel core

`GPUCore` of the Chisel sources. It has the registers of the SystemVerilog core;
the variable `nextPc` of that text has no counterpart here and keeps its value.
The decoded slices are those of SystemVerilog as well.

A dynamic left shift and a product grow in Chisel, a sum keeps the width of its
wider operand, and an index is cut to the bits that its vector needs. A table
lookup yields its default where no key matches, whether or not the word is
legal.
-/

namespace OpenGPU

namespace Chisel

open Verilog Verilog.Decode

/-- The registers of `GPUCore`. -/
abbrev Core (cfg : Config) := GPUCore cfg

namespace Core

variable {cfg : Config}

/-! ## Indices -/

/-- `ContextBits`. -/
def contextBits (cfg : Config) : Nat := indexBits cfg.contexts

/-- `RegBits`. -/
def regBits (cfg : Config) : Nat := indexBits (cfg.contexts * 16)

/-- `StackIndexBits`. -/
def stackIndexBits (cfg : Config) : Nat := indexBits (cfg.numWarps * Verilog.stackDepth)

/-- Width of an unsigned literal. -/
def literalBits (value : Nat) : Nat := Nat.log2 value + 1

/-- `context`: the product and the sum have room, the slice cuts them. -/
def context (core : Core cfg) (t : Nat) : BitVec (contextBits cfg) :=
  BitVec.ofNat _ (core.issueWarp.toNat * cfg.numThreads + t)

/-- `regBase`. -/
def regBase (c : BitVec (contextBits cfg)) : BitVec (regBits cfg) :=
  BitVec.ofNat _ (c.toNat * 16)

/-- The index of a register beside its base. -/
def registerIndex (base : BitVec (regBits cfg)) (field : BitVec 5) : BitVec (regBits cfg) :=
  base + (field.extractLsb' 0 4).setWidth _

/-- A register of a lane of the issued warp. -/
def laneRegister (core : Core cfg) (t : Nat) (field : BitVec 5) : Word :=
  core.gprs (registerIndex (regBase (core.context t)) field).toNat

/-- The stack entry of the issued warp at depth `sp`. -/
def stackIndex (core : Core cfg) (sp : Nat) : BitVec (stackIndexBits cfg) :=
  BitVec.ofNat _ (core.issueWarp.toNat * Verilog.stackDepth + sp)

/-! ## Blocks and warps -/

/-- The initial mask of warp `w`. -/
def initialMask (cfg : Config) (blockSize : Word) (w : Nat) : BitVec cfg.numThreads :=
  collectLanes cfg.numThreads cfg.numThreads fun t =>
    BitVec.ofNat 32 (w * cfg.numThreads + t) < blockSize

/-- `threadZ` of a lane: the product of the extents keeps all its bits. -/
def threadZOf (dim : Dim3) (i : Nat) : Word :=
  let plane : BitVec 64 := dim.x.setWidth 64 * dim.y.setWidth 64
  if plane = 0 then 0 else (BitVec.ofNat 64 i / plane).setWidth 32

/-- `globalId` of a lane; the register keeps the low bits of a wide sum. -/
def globalIdOf {numCores : Nat} (kmu : Kmu numCores) (i : Nat) : Word :=
  ((kmu.blockIdx.z * kmu.gridDim.y + kmu.blockIdx.y) * kmu.gridDim.x + kmu.blockIdx.x) *
    kmu.blockSize + BitVec.ofNat 32 i

/-- `io.cta.fire`. -/
def acceptCta {numCores : Nat} (kmu : Kmu numCores) (core : Core cfg) : Core cfg :=
  { core with
    ctaActive := true
    faultR := false
    state := .sched
    rrWarp := 0
    block := kmu.blockIdx
    dim := kmu.blockDim
    grid := kmu.gridDim
    argsAddr := kmu.argsAddr
    warpPc := fun _ => kmu.startupPc
    stackSp := fun _ => 0
    warpMask := initialMask cfg kmu.blockSize
    warpValid := fun w => BitVec.ofNat 32 (w * cfg.numThreads) < kmu.blockSize
    threadX := fun i => modulo (BitVec.ofNat 32 i) kmu.blockDim.x
    threadY := fun i => modulo (divide (BitVec.ofNat 32 i) kmu.blockDim.x) kmu.blockDim.y
    threadZ := threadZOf kmu.blockDim
    globalId := globalIdOf kmu
    gprs := fun _ => 0 }

/-- `activeBits`. -/
def activeBits (core : Core cfg) : BitVec cfg.numWarps :=
  collectLanes cfg.numWarps cfg.numWarps core.warpValid

/-- `rotated`. -/
def rotated (core : Core cfg) : BitVec cfg.numWarps :=
  ((core.activeBits ++ core.activeBits) >>> core.rrWarp.toNat).extractLsb' 0 cfg.numWarps

/-- `selectedWarp`. -/
def selectedWarp (core : Core cfg) : BitVec (indexBits cfg.numWarps) :=
  core.rrWarp + BitVec.ofNat _ (priorityEncoder cfg.numWarps fun w => core.rotated.getLsbD w)

/-- `nextWarp`. -/
def nextWarp (core : Core cfg) : Core cfg :=
  { core with
    rrWarp :=
      if core.issueWarp = BitVec.ofNat _ (cfg.numWarps - 1) then 0
      else core.issueWarp + 1
    state := .sched }

/-- Raise the fault register and drop the block. -/
def raise (core : Core cfg) : Core cfg :=
  { core with faultR := true, ctaActive := false }

/-! ## Branches -/

/-- `branchTaken` of one lane. -/
def branchTaken (funct3 : BitVec 3) (a b : Word) : Bool :=
  if funct3 = 0 then a == b
  else if funct3 = 1 then a != b
  else if funct3 = 4 then a.slt b
  else if funct3 = 5 then b.sle a
  else if funct3 = 6 then a.ult b
  else if funct3 = 7 then b.ule a
  else false

/-- The branch condition of a lane, issued or not. -/
def laneTaken (core : Core cfg) (t : Nat) : Bool :=
  branchTaken (funct3 core.issueInst)
    (core.laneRegister t (rs1 core.issueInst)) (core.laneRegister t (rs2 core.issueInst))

/-- `branchTaken.asUInt`. -/
def takenBits (core : Core cfg) : BitVec cfg.numThreads :=
  collectLanes cfg.numThreads cfg.numThreads core.laneTaken

/-- `takenMask`. -/
def takenMask (core : Core cfg) : BitVec cfg.numThreads := core.takenBits &&& core.issueMask

/-- `fallMask`. -/
def fallMask (core : Core cfg) : BitVec cfg.numThreads := ~~~core.takenBits &&& core.issueMask

/-- `branchSupported`. -/
def branchSupported (funct3 : BitVec 3) : Bool :=
  funct3 == 0 || funct3 == 1 || funct3 == 4 || funct3 == 5 || funct3 == 6 || funct3 == 7

/-- Replace the current path of the issued warp. -/
def setPath (core : Core cfg) (pc : Word) (mask : BitVec cfg.numThreads) : Core cfg :=
  { core with
    warpPc := Function.update core.warpPc core.issueWarp.toNat pc
    warpMask := Function.update core.warpMask core.issueWarp.toNat mask }

/-- Defer a path of the issued warp. -/
def pushPath (core : Core cfg) (pc : Word) (mask : BitVec cfg.numThreads) : Core cfg :=
  let sp := core.stackSp core.issueWarp.toNat
  let index := core.stackIndex sp.toNat
  { core with
    stackPc := Function.update core.stackPc index.toNat pc
    stackMask := Function.update core.stackMask index.toNat mask
    stackSp := Function.update core.stackSp core.issueWarp.toNat (sp + 1) }

/-- Resume the newest deferred path of the issued warp. -/
def popPath (core : Core cfg) : Core cfg :=
  let sp := core.stackSp core.issueWarp.toNat
  let index := core.stackIndex (sp.toNat - 1)
  { core with
    stackSp := Function.update core.stackSp core.issueWarp.toNat (sp - 1)
    warpPc := Function.update core.warpPc core.issueWarp.toNat (core.stackPc index.toNat)
    warpMask := Function.update core.warpMask core.issueWarp.toNat
      (core.stackMask index.toNat) }

/-- `isEbreak`. -/
def execEbreak (core : Core cfg) : Core cfg :=
  nextWarp <|
    if core.stackSp core.issueWarp.toNat ≠ 0 then core.popPath
    else
      { core with
        warpValid := Function.update core.warpValid core.issueWarp.toNat false }

/-- `isBranch`. The stack is full at exactly eight entries. -/
def execBranch (core : Core cfg) : Core cfg :=
  let target := core.issuePc + immB core.issueInst
  let follow := core.issuePc + 4
  nextWarp <|
    if !branchSupported (funct3 core.issueInst) then core.raise
    else if core.takenMask ≠ 0 ∧ core.fallMask ≠ 0 then
      if (core.stackSp core.issueWarp.toNat).toNat = Verilog.stackDepth then core.raise
      else (core.pushPath target core.takenMask).setPath follow core.fallMask
    else if core.takenMask ≠ 0 then core.setPath target core.takenMask
    else core.setPath follow core.fallMask

/-! ## Remaining opcodes -/

/-- `firstLane`. -/
def firstLane (core : Core cfg) : Nat :=
  priorityEncoder cfg.numThreads fun t => core.issueMask.getLsbD t

/-- The target of `JALR` for the registers of one lane. -/
def laneTarget (core : Core cfg) (t : Nat) : Word :=
  (core.laneRegister t (rs1 core.issueInst) + immI core.issueInst) &&& 0xfffffffe

/-- `firstTarget`. -/
def firstTarget (core : Core cfg) : Word := core.laneTarget core.firstLane

/-- `jalrDivergent`. -/
def jalrDivergent (core : Core cfg) : Bool :=
  (List.range cfg.numThreads).any fun t =>
    core.issueMask.getLsbD t && core.laneTarget t != core.firstTarget

/-- A dynamic left shift, whose result the 32-bit register cuts. -/
def shiftLeft (a : Word) (shamt : BitVec 5) : Word :=
  (a.setWidth 63 <<< shamt.toNat).setWidth 32

/-- `aluImm`. -/
def aluImm (inst a : Word) : Word :=
  if funct3 inst = 0 then a + immI inst
  else if funct3 inst = 2 then boolWord (a.slt (immI inst))
  else if funct3 inst = 3 then boolWord (a.ult (immI inst))
  else if funct3 inst = 4 then a ^^^ immI inst
  else if funct3 inst = 6 then a ||| immI inst
  else if funct3 inst = 7 then a &&& immI inst
  else if funct3 inst = 1 then shiftLeft a (rs2 inst)
  else if funct3 inst = 5 then
    if inst.getLsbD 30 then a.sshiftRight (rs2 inst).toNat else a >>> (rs2 inst).toNat
  else 0

/-- `aluReg`. -/
def aluReg (inst a b : Word) : Word :=
  let shamt : BitVec 5 := b.extractLsb' 0 5
  if funct3 inst = 0 then if funct7 inst = 0b0100000 then a - b else a + b
  else if funct3 inst = 1 then shiftLeft a shamt
  else if funct3 inst = 2 then boolWord (a.slt b)
  else if funct3 inst = 3 then boolWord (a.ult b)
  else if funct3 inst = 4 then a ^^^ b
  else if funct3 inst = 5 then
    if funct7 inst = 0b0100000 then a.sshiftRight shamt.toNat else a >>> shamt.toNat
  else if funct3 inst = 6 then a ||| b
  else if funct3 inst = 7 then a &&& b
  else 0

/-- The physical lane number: neither sum is wider than its wider operand. -/
def physicalId (coreId : Nat) (core : Core cfg) (t : Nat) : Word :=
  let first := coreId * cfg.numWarps * cfg.numThreads
  let productBits := indexBits cfg.numWarps + literalBits cfg.numThreads
  let sumBits := max (literalBits first) productBits
  let sum : BitVec sumBits :=
    BitVec.ofNat _ (first + core.issueWarp.toNat * cfg.numThreads)
  let lane : BitVec (max sumBits (literalBits t)) := BitVec.ofNat _ (sum.toNat + t)
  lane.setWidth 32

/-- `csrValue`. -/
def csrValue (coreId : Nat) (core : Core cfg) (t : Nat) (csr : BitVec 12) : Word :=
  let c := (core.context t).toNat
  if csr = 0xf14 then core.globalId c
  else if csr = 0xcc0 then core.threadX c
  else if csr = 0xcc1 then core.threadY c
  else if csr = 0xcc2 then core.threadZ c
  else if csr = 0xcc3 then core.block.x
  else if csr = 0xcc4 then core.block.y
  else if csr = 0xcc5 then core.block.z
  else if csr = 0xcc6 then core.dim.x
  else if csr = 0xcc7 then core.dim.y
  else if csr = 0xcc8 then core.dim.z
  else if csr = 0xcc9 then core.grid.x
  else if csr = 0xcca then core.grid.y
  else if csr = 0xccb then core.grid.z
  else if csr = 0xccc then core.argsAddr
  else if csr = 0xccd then core.physicalId coreId t
  else if csr = 0xcce then core.issueWarp.setWidth 32
  else if csr = 0xccf then BitVec.ofNat 32 t
  else 0

/-- `csrSupported`. -/
def csrSupported (csr : BitVec 12) : Bool :=
  csr == 0xf14 || csr == 0xcc0 || csr == 0xcc1 || csr == 0xcc2 || csr == 0xcc3 ||
    csr == 0xcc4 || csr == 0xcc5 || csr == 0xcc6 || csr == 0xcc7 || csr == 0xcc8 ||
    csr == 0xcc9 || csr == 0xcca || csr == 0xccb || csr == 0xccc || csr == 0xccd ||
    csr == 0xcce || csr == 0xccf

/-- `opcodeSupported`. -/
def opcodeSupported (inst : Word) : Bool :=
  opcode inst == 0x37 || opcode inst == 0x17 || opcode inst == 0x13 ||
    opcode inst == 0x33 || opcode inst == 0x6f || opcode inst == 0x67 ||
    (opcode inst == 0x73 && funct3 inst == 2 && rs1 inst == 0 &&
      csrSupported (csrAddr inst))

/-- `result` of a lane. -/
def laneResult (coreId : Nat) (core : Core cfg) (t : Nat) (a b : Word) : Word :=
  let inst := core.issueInst
  if opcode inst = 0b0110111 then immU inst
  else if opcode inst = 0b0010111 then core.issuePc + immU inst
  else if opcode inst = 0b0010011 then aluImm inst a
  else if opcode inst = 0b0110011 then aluReg inst a b
  else if opcode inst = 0b1101111 then core.issuePc + 4
  else if opcode inst = 0b1100111 then core.issuePc + 4
  else if opcode inst = 0b1110011 then csrValue coreId core t (csrAddr inst)
  else 0

/-- The register writes of one lane. All lanes read before the edge; where two
writes meet, the later one stays. -/
def laneWrite (coreId : Nat) (core : Core cfg) (gprs : Nat → Word) (t : Nat) : Nat → Word :=
  if core.issueMask.getLsbD t then
    let inst := core.issueInst
    let base := regBase (core.context t)
    let a := core.laneRegister t (rs1 inst)
    let b := core.laneRegister t (rs2 inst)
    Function.update
      (if usesRd (opcode inst) && rd inst != 0 then
        Function.update gprs (registerIndex base (rd inst)).toNat
          (laneResult coreId core t a b)
      else gprs) base.toNat 0
  else gprs

/-- The next program counter of a warp that does not fault. -/
def nextPcOf (core : Core cfg) : Word :=
  if opcode core.issueInst = 0b1101111 then core.issuePc + immJ core.issueInst
  else if opcode core.issueInst = 0b1100111 then core.firstTarget
  else core.issuePc + 4

/-- The remaining opcodes. -/
def execLanes (coreId : Nat) (core : Core cfg) : Core cfg :=
  let written :=
    { core with gprs := (List.range cfg.numThreads).foldl (laneWrite coreId core) core.gprs }
  nextWarp <|
    if !opcodeSupported core.issueInst ||
        (opcode core.issueInst == 0b1100111 && core.jalrDivergent) then written.raise
    else
      { written with
        warpPc := Function.update core.warpPc core.issueWarp.toNat core.nextPcOf }

/-- `sExecute`. Nothing here asks whether the core holds a block. -/
def execute (coreId : Nat) (core : Core cfg) : Core cfg :=
  if badRegister core.issueInst then { core.raise with state := .sched }
  else if opcode core.issueInst = load ∨ opcode core.issueInst = store then
    { core with memThread := 0, state := .memReq }
  else if core.issueInst = ebreak then execEbreak core
  else if opcode core.issueInst = branch then execBranch core
  else execLanes coreId core

/-! ## Memory instructions -/

/-- `memAddr`. -/
def memAddr (core : Core cfg) : Word :=
  core.laneRegister core.memThread.toNat (rs1 core.issueInst) +
    (if opcode core.issueInst = load then immI core.issueInst else immS core.issueInst)

/-- `memOffset`. -/
def memOffset (core : Core cfg) : BitVec 2 := core.memAddr.extractLsb' 0 2

/-- `memOffset << 3`. -/
def memShift (core : Core cfg) : Nat := (core.memOffset.setWidth 5 <<< 3).toNat

/-- `io.dbus.req.bits.mask`: the shifts grow, the port has four bits. Only the
minor opcodes 0, 1 and 2 are in the table. -/
def reqMask (core : Core cfg) : BitVec 4 :=
  let shifted : BitVec 7 :=
    if funct3 core.issueInst = 0 then (1 : BitVec 7) <<< core.memOffset.toNat
    else if funct3 core.issueInst = 1 then (3 : BitVec 7) <<< core.memOffset.toNat
    else if funct3 core.issueInst = 2 then 0b1111
    else 0
  shifted.setWidth 4

/-- `io.dbus.req.bits.addr`. -/
def reqAddr (core : Core cfg) : Word := core.memAddr.extractLsb' 2 30 ++ 0#2

/-- `io.dbus.req.bits.wdata`: the port keeps the low 32 bits of the shift. -/
def reqWdata (core : Core cfg) : Word :=
  ((core.laneRegister core.memThread.toNat (rs2 core.issueInst)).setWidth 63 <<<
    core.memShift).setWidth 32

/-- `advanceMem`. -/
def advanceMem (core : Core cfg) : Core cfg :=
  if core.memThread = BitVec.ofNat _ (cfg.numThreads - 1) then
    nextWarp
      { core with
        warpPc := Function.update core.warpPc core.issueWarp.toNat (core.issuePc + 4) }
  else { core with memThread := core.memThread + 1, state := .memReq }

/-- `issueMask(memThread)`. -/
def memLaneActive (core : Core cfg) : Bool := core.issueMask.getLsbD core.memThread.toNat

/-- `io.dbus.req.valid`. -/
def reqValid (core : Core cfg) : Bool := core.state == .memReq && core.memLaneActive

/-- `sMemReq`. -/
def memoryRequest (reqReady : Bool) (core : Core cfg) : Core cfg :=
  if !core.memLaneActive then core.advanceMem
  else if reqReady then { core with state := .memResp }
  else core

/-- `loaded`. -/
def loaded (core : Core cfg) (rdata : Word) : Word :=
  let shifted := rdata >>> core.memShift
  if funct3 core.issueInst = 0 then (shifted.extractLsb' 0 8).signExtend 32
  else if funct3 core.issueInst = 1 then (shifted.extractLsb' 0 16).signExtend 32
  else if funct3 core.issueInst = 2 then rdata
  else if funct3 core.issueInst = 4 then (shifted.extractLsb' 0 8).setWidth 32
  else if funct3 core.issueInst = 5 then (shifted.extractLsb' 0 16).setWidth 32
  else 0

/-- `sMemResp` with a response. -/
def memoryResponse (rdata : Word) (core : Core cfg) : Core cfg :=
  let base := regBase (core.context core.memThread.toNat)
  let gprs :=
    if opcode core.issueInst = load ∧ rd core.issueInst ≠ 0 then
      Function.update core.gprs (registerIndex base (rd core.issueInst)).toNat
        (core.loaded rdata)
    else core.gprs
  advanceMem { core with gprs := Function.update gprs base.toNat 0 }

/-! ## One clock edge -/

/-- What the two memories drive before the edge. -/
structure Buses where
  instReqReady : Bool
  instResp : Option Word
  dataReqReady : Bool
  dataResp : Option Word

/-- `sSchedule` of a core that holds a block. -/
def schedule (reqReady : Bool) (core : Core cfg) : Core cfg :=
  if core.activeBits ≠ 0 then
    if reqReady then
      { core with
        issueWarp := core.selectedWarp
        issueMask := core.warpMask core.selectedWarp.toNat
        issuePc := core.warpPc core.selectedWarp.toNat
        state := .fetch }
    else core
  else { core with ctaActive := false }

/-- One clock edge. A core that takes a block holds none, and a core without a
block is in `sSchedule`, so the block of `io.cta.fire` meets no other. -/
def posedge {numCores : Nat} (coreId : Nat) (reset : Bool) (ctaValid : Bool)
    (kmu : Kmu numCores) (buses : Buses) (core : Core cfg) : Core cfg :=
  if reset then GPUCore.reset core
  else if ctaValid && !core.ctaActive then acceptCta kmu core
  else
    match core.state with
    | .sched => if core.ctaActive then schedule buses.instReqReady core else core
    | .fetch =>
        match buses.instResp with
        | some data => { core with issueInst := data, state := .exec }
        | none => core
    | .exec => execute coreId core
    | .memReq => memoryRequest buses.dataReqReady core
    | .memResp =>
        match buses.dataResp with
        | some rdata => memoryResponse rdata core
        | none => core

end Core

end Chisel

end OpenGPU
