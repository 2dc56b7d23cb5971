import Mathlib.Logic.Function.Basic
import OpenGPU.Foundation.CircularScan
import OpenGPU.Foundation.LaneSet
import OpenGPU.Platform.Instruction
import OpenGPU.Platform.Memory

/-!
# The cycle model: one core

`accept_cta` and `step_core` of `sw/sim/hm/difftest.cpp`. A core owns, per warp,
one program counter, one active mask and a stack of deferred paths, and, per
lane, sixteen registers. C arrays are functions of their index.

Shifts and divisions here are total. Where C++ leaves one undefined, because a
shift amount is not below 32 or a divisor is zero, `Core.stepDefined` says so
and the step of the whole model has no result.
-/

namespace OpenGPU

/-- A memory that may be shorter than the window it shadows: `m.mem`. -/
structure ShadowMemory where
  bytes : Pmem
  size : Nat

/-- `load32`: zero outside the shadow memory. -/
def load32 (cfg : Config) (mem : ShadowMemory) (addr : Word) : Word :=
  if addr < cfg.mbase ∨ cfg.mbase.toNat + mem.size < addr.toNat + 4 then 0
  else littleEndian (fun index => mem.bytes (addr + BitVec.ofNat 32 index)) 4

/-- `State`. -/
inductive CoreState
  | sched
  | fetch
  | exec
  | memReq
  | memResp
  deriving DecidableEq

/-- `StackDepth`. -/
def stackDepth : Nat := 8

/-- `Core`. -/
structure Core where
  state : CoreState
  ctaActive : Bool
  fault : Bool
  rr : Nat
  iw : Nat
  im : Word
  ip : Word
  inst : Word
  mt : Nat
  block : Dim3
  dim : Dim3
  grid : Dim3
  args : Word
  pc : Nat → Word
  mask : Nat → Word
  valid : Nat → Bool
  sp : Nat → Nat
  stackPc : Nat → Nat → Word
  stackMask : Nat → Nat → Word
  gpr : Nat → Nat → Word
  tx : Nat → Word
  ty : Nat → Word
  tz : Nat → Word
  gid : Nat → Word

/-- The device configuration registers of the model. -/
structure DcrRegisters where
  startup : Word
  args : Word
  argsSize : Word
  dim : Dim3
  grid : Dim3
  blockSize : Word
  deriving DecidableEq

/-- What a core reads when it accepts a block: the configuration registers and
the current block index. -/
structure LaunchRegisters extends DcrRegisters where
  block : Dim3

namespace Core

open Instruction

/-- A core after reset. -/
def fresh : Core where
  state := .sched
  ctaActive := false
  fault := false
  rr := 0
  iw := 0
  im := 0
  ip := 0
  inst := 0
  mt := 0
  block := Dim3.zero
  dim := Dim3.one
  grid := Dim3.one
  args := 0
  pc := fun _ => 0
  mask := fun _ => 0
  valid := fun _ => false
  sp := fun _ => 0
  stackPc := fun _ _ => 0
  stackMask := fun _ _ => 0
  gpr := fun _ _ => 0
  tx := fun _ => 0
  ty := fun _ => 0
  tz := fun _ => 0
  gid := fun _ => 0

/-- The lanes of warp `w` that a block of the given size occupies. -/
def initialMask (cfg : Config) (blockSize : Word) (w : Nat) : Word :=
  collectLanes 32 cfg.numThreads fun t =>
    BitVec.ofNat 32 (w * cfg.numThreads + t) < blockSize

/-- The linear block index that `accept_cta` computes. -/
def blockLinear (launch : LaunchRegisters) : Word :=
  (launch.block.z * launch.grid.y + launch.block.y) * launch.grid.x + launch.block.x

/-- `accept_cta`. Issue registers and stack contents keep their old values. -/
def acceptCta (cfg : Config) (launch : LaunchRegisters) (c : Core) : Core :=
  { c with
    ctaActive := true
    fault := false
    state := .sched
    rr := 0
    args := launch.args
    block := launch.block
    dim := launch.dim
    grid := launch.grid
    pc := fun _ => launch.startup
    sp := fun _ => 0
    mask := initialMask cfg launch.blockSize
    valid := fun w => BitVec.ofNat 32 (w * cfg.numThreads) < launch.blockSize
    tx := fun i => BitVec.ofNat 32 i % launch.dim.x
    ty := fun i => BitVec.ofNat 32 i / launch.dim.x % launch.dim.y
    tz := fun i => BitVec.ofNat 32 i / (launch.dim.x * launch.dim.y)
    gid := fun i => blockLinear launch * launch.blockSize + BitVec.ofNat 32 i
    gpr := fun _ _ => 0 }

/-- Index of a lane of the issued warp in the per-lane arrays. -/
def context (cfg : Config) (c : Core) (lane : Nat) : Nat :=
  c.iw * cfg.numThreads + lane

/-- `lane_register`. -/
def laneRegister (cfg : Config) (c : Core) (lane : Nat) (register : Word) : Word :=
  c.gpr (c.context cfg lane) (register &&& 15).toNat

/-- `memory_address`. -/
def memoryAddress (cfg : Config) (c : Core) : Word :=
  c.laneRegister cfg c.mt (rs1 c.inst) +
    (if opcode c.inst = 0x03 then immI c.inst else immS c.inst)

/-- Bit offset of an address in its word. -/
def byteShift (addr : Word) : Nat := (addr &&& 3).toNat * 8

/-- `load_value`. -/
def loadValue (cfg : Config) (mem : ShadowMemory) (addr f3 : Word) : Word :=
  let raw := load32 cfg mem (addr &&& ~~~3)
  let shifted := raw >>> byteShift addr
  if f3 = 0 then signExtend shifted 8
  else if f3 = 1 then signExtend shifted 16
  else if f3 = 2 then raw
  else if f3 = 4 then shifted &&& 255
  else if f3 = 5 then shifted &&& 65535
  else 0

/-- `next_warp`. -/
def nextWarp (cfg : Config) (c : Core) : Core :=
  { c with
    rr := if c.iw = cfg.numWarps - 1 then 0 else c.iw + 1
    state := .sched }

/-- Raise the fault register and drop the block. -/
def raise (c : Core) : Core := { c with fault := true, ctaActive := false }

/-- The `SCHED` state: issue the first valid warp in circular order. -/
def schedule (cfg : Config) (c : Core) : Core :=
  match circularFirst cfg.numWarps c.rr c.valid with
  | some sel =>
      { c with iw := sel, im := c.mask sel, ip := c.pc sel, state := .fetch }
  | none => { c with ctaActive := false }

/-- Replace the current path of the issued warp. -/
def setPath (c : Core) (pc mask : Word) : Core :=
  { c with
    pc := Function.update c.pc c.iw pc
    mask := Function.update c.mask c.iw mask }

/-- Defer a path of the issued warp. -/
def pushPath (c : Core) (pc mask : Word) : Core :=
  let s := c.sp c.iw
  { c with
    sp := Function.update c.sp c.iw (s + 1)
    stackPc := Function.update c.stackPc c.iw
      (Function.update (c.stackPc c.iw) s pc)
    stackMask := Function.update c.stackMask c.iw
      (Function.update (c.stackMask c.iw) s mask) }

/-- Resume the newest deferred path of the issued warp. -/
def popPath (c : Core) : Core :=
  let s := c.sp c.iw - 1
  { c.setPath (c.stackPc c.iw s) (c.stackMask c.iw s) with
    sp := Function.update c.sp c.iw s }

/-- `EBREAK`: resume the newest deferred path, or finish the warp. -/
def execEbreak (cfg : Config) (c : Core) : Core :=
  nextWarp cfg <|
    if c.sp c.iw ≠ 0 then c.popPath
    else { c with valid := Function.update c.valid c.iw false }

/-- The branch condition of one lane; a reserved minor opcode takes none. -/
def takeBranch (f3 a b : Word) : Bool :=
  if f3 = 0 then a == b
  else if f3 = 1 then a != b
  else if f3 = 4 then a.slt b
  else if f3 = 5 then b.sle a
  else if f3 = 6 then a.ult b
  else if f3 = 7 then b.ule a
  else false

/-- `good` of the branch arm. -/
def branchGood (f3 : Word) : Bool :=
  f3 == 0 || f3 == 1 || f3 == 4 || f3 == 5 || f3 == 6 || f3 == 7

/-- Whether an issued lane takes the branch. -/
def laneTakes (cfg : Config) (c : Core) (t : Nat) : Bool :=
  takeBranch (funct3 c.inst)
    (c.laneRegister cfg t (rs1 c.inst)) (c.laneRegister cfg t (rs2 c.inst))

/-- `tk`: the issued lanes that take the branch. -/
def takenMask (cfg : Config) (c : Core) : Word :=
  collectLanes 32 cfg.numThreads fun t => hasLane c.im t && c.laneTakes cfg t

/-- `fl`: the issued lanes that fall through. -/
def fallMask (cfg : Config) (c : Core) : Word :=
  collectLanes 32 cfg.numThreads fun t => hasLane c.im t && !c.laneTakes cfg t

/-- The conditional branches. -/
def execBranch (cfg : Config) (c : Core) : Core :=
  let tk := c.takenMask cfg
  let fl := c.fallMask cfg
  nextWarp cfg <|
    if !branchGood (funct3 c.inst) then c.raise
    else if tk ≠ 0 ∧ fl ≠ 0 then
      if stackDepth ≤ c.sp c.iw then c.raise
      else (c.pushPath (c.ip + immB c.inst) tk).setPath (c.ip + 4) fl
    else if tk ≠ 0 then c.setPath (c.ip + immB c.inst) tk
    else c.setPath (c.ip + 4) fl

/-- Register-immediate arithmetic; `none` clears `good`. -/
def opImm (inst a : Word) : Option Word :=
  let ii := immI inst
  if funct3 inst = 0 then some (a + ii)
  else if funct3 inst = 2 then some (boolWord (a.slt ii))
  else if funct3 inst = 3 then some (boolWord (a.ult ii))
  else if funct3 inst = 4 then some (a ^^^ ii)
  else if funct3 inst = 6 then some (a ||| ii)
  else if funct3 inst = 7 then some (a &&& ii)
  else if funct3 inst = 1 then some (a <<< shamt inst)
  else if funct3 inst = 5 then
    some (if (inst >>> 30) &&& 1 ≠ 0 then a.sshiftRight' (shamt inst)
      else a >>> shamt inst)
  else none

/-- Register-register arithmetic; `none` clears `good`. -/
def op (inst a b : Word) : Option Word :=
  if funct3 inst = 0 then some (if funct7 inst = 0x20 then a - b else a + b)
  else if funct3 inst = 1 then some (a <<< (b &&& 31))
  else if funct3 inst = 2 then some (boolWord (a.slt b))
  else if funct3 inst = 3 then some (boolWord (a.ult b))
  else if funct3 inst = 4 then some (a ^^^ b)
  else if funct3 inst = 5 then
    some (if funct7 inst = 0x20 then a.sshiftRight' (b &&& 31)
      else a >>> (b &&& 31))
  else if funct3 inst = 6 then some (a ||| b)
  else if funct3 inst = 7 then some (a &&& b)
  else none

/-- The CSR numbers that `step_core` answers for lane `t` of core `cid`. -/
def csrValue (cfg : Config) (cid : Nat) (c : Core) (t : Nat) (number : Word) :
    Option Word :=
  let x := c.context cfg t
  if number = 0xf14 then some (c.gid x)
  else if number = 0xcc0 then some (c.tx x)
  else if number = 0xcc1 then some (c.ty x)
  else if number = 0xcc2 then some (c.tz x)
  else if number = 0xcc3 then some c.block.x
  else if number = 0xcc4 then some c.block.y
  else if number = 0xcc5 then some c.block.z
  else if number = 0xcc6 then some c.dim.x
  else if number = 0xcc7 then some c.dim.y
  else if number = 0xcc8 then some c.dim.z
  else if number = 0xcc9 then some c.grid.x
  else if number = 0xcca then some c.grid.y
  else if number = 0xccb then some c.grid.z
  else if number = 0xccc then some c.args
  else if number = 0xccd then
    some (BitVec.ofNat 32 (cid * cfg.contexts + c.iw * cfg.numThreads + t))
  else if number = 0xcce then some (BitVec.ofNat 32 c.iw)
  else if number = 0xccf then some (BitVec.ofNat 32 t)
  else none

/-- The accumulators of the lane loop. -/
structure LaneLoop where
  gpr : Nat → Nat → Word
  good : Bool
  div : Bool
  targetSet : Bool
  first : Word
  next : Word

/-- `res` of one lane; `none` clears `good` and leaves `res` zero. -/
def laneResult (cfg : Config) (cid : Nat) (c : Core) (t : Nat) (a b : Word) :
    Option Word :=
  if opcode c.inst = 0x37 then some (c.inst &&& 0xfffff000)
  else if opcode c.inst = 0x17 then some (c.ip + (c.inst &&& 0xfffff000))
  else if opcode c.inst = 0x13 then opImm c.inst a
  else if opcode c.inst = 0x33 then op c.inst a b
  else if opcode c.inst = 0x6f then some (c.ip + 4)
  else if opcode c.inst = 0x67 then some (c.ip + 4)
  else if opcode c.inst = 0x73 then
    if funct3 c.inst ≠ 2 ∨ rs1 c.inst ≠ 0 then none
    else csrValue cfg cid c t (c.inst >>> 20)
  else none

/-- The `JAL` and `JALR` arms' effect on the shared jump accumulators. -/
def laneJump (c : Core) (a : Word) (acc : LaneLoop) : LaneLoop :=
  if opcode c.inst = 0x6f then { acc with next := c.ip + immJ c.inst }
  else if opcode c.inst = 0x67 then
    let target := (a + immI c.inst) &&& ~~~1
    if !acc.targetSet then
      { acc with next := target, first := target, targetSet := true }
    else if acc.first ≠ target then { acc with next := target, div := true }
    else { acc with next := target }
  else acc

/-- The register row of a lane after its write-back. -/
def laneWrite (inst res : Word) (row : Nat → Word) : Nat → Word :=
  Function.update
    (if usesRd (opcode inst) && rd inst != 0 then
      Function.update row (rd inst).toNat res
    else row) 0 0

/-- The body of the lane loop. -/
def laneBody (cfg : Config) (cid : Nat) (c : Core) (acc : LaneLoop) (t : Nat) :
    LaneLoop :=
  if hasLane c.im t then
    let x := c.context cfg t
    let a := acc.gpr x (rs1 c.inst &&& 15).toNat
    let b := acc.gpr x (rs2 c.inst &&& 15).toNat
    let result := laneResult cfg cid c t a b
    let jumped := laneJump c a acc
    { jumped with
      good := acc.good && result.isSome
      gpr := Function.update acc.gpr x
        (laneWrite c.inst (result.getD 0) (acc.gpr x)) }
  else acc

/-- The lane loop of all remaining opcodes. -/
def laneLoop (cfg : Config) (cid : Nat) (c : Core) : LaneLoop :=
  (List.range cfg.numThreads).foldl (laneBody cfg cid c)
    { gpr := c.gpr
      good := true
      div := false
      targetSet := false
      first := 0
      next := c.ip + 4 }

/-- The remaining opcodes, lane by lane. -/
def execLanes (cfg : Config) (cid : Nat) (c : Core) : Core :=
  let acc := laneLoop cfg cid c
  let c := { c with gpr := acc.gpr }
  nextWarp cfg <|
    if !acc.good || acc.div then c.raise
    else { c with pc := Function.update c.pc c.iw acc.next }

/-- The `EXEC` state. -/
def execute (cfg : Config) (cid : Nat) (c : Core) : Core :=
  if badRegister c.inst then { c.raise with state := .sched }
  else if opcode c.inst = 0x03 ∨ opcode c.inst = 0x23 then
    { c with mt := 0, state := .memReq }
  else if c.inst = ebreak then execEbreak cfg c
  else if opcode c.inst = 0x63 then execBranch cfg c
  else execLanes cfg cid c

/-- Leave the memory states after the last lane. -/
def finishMemory (cfg : Config) (c : Core) : Core :=
  nextWarp cfg { c with pc := Function.update c.pc c.iw (c.ip + 4) }

/-- The `MEM_REQ` state. -/
def memoryRequest (cfg : Config) (c : Core) : Core :=
  if hasLane c.im c.mt then { c with state := .memResp }
  else if c.mt = cfg.numThreads - 1 then finishMemory cfg c
  else { c with mt := c.mt + 1 }

/-- The `MEM_RESP` state. -/
def memoryResponse (cfg : Config) (mem : ShadowMemory) (c : Core) : Core :=
  let x := c.context cfg c.mt
  let row :=
    if opcode c.inst = 0x03 ∧ rd c.inst ≠ 0 then
      Function.update (c.gpr x) (rd c.inst).toNat
        (loadValue cfg mem (c.memoryAddress cfg) (funct3 c.inst))
    else c.gpr x
  let c := { c with gpr := Function.update c.gpr x (Function.update row 0 0) }
  if c.mt = cfg.numThreads - 1 then finishMemory cfg c
  else { c with mt := c.mt + 1, state := .memReq }

/-- `step_core`. -/
def stepCore (cfg : Config) (mem : ShadowMemory) (launch : LaunchRegisters)
    (cid : Nat) (fire : Bool) (c : Core) : Core :=
  if fire then acceptCta cfg launch c
  else if !c.ctaActive then c
  else
    match c.state with
    | .sched => schedule cfg c
    | .fetch => { c with inst := load32 cfg mem c.ip, state := .exec }
    | .exec => execute cfg cid c
    | .memReq => memoryRequest cfg c
    | .memResp => memoryResponse cfg mem c

/-- Every shift amount of the lane loops is below the width of a mask. -/
def laneShiftsDefined (count : Nat) : Bool := count ≤ 32

/-- `step_core` performs only shifts and divisions that C++ defines. -/
def stepDefined (cfg : Config) (launch : LaunchRegisters) (fire : Bool)
    (c : Core) : Bool :=
  if fire then
    ((List.range cfg.numWarps).all fun w =>
      (List.range cfg.numThreads).all fun t =>
        !(BitVec.ofNat 32 (w * cfg.numThreads + t) < launch.blockSize) ||
          decide (t < 32)) &&
      launch.dim.x != 0 && launch.dim.y != 0 && launch.dim.x * launch.dim.y != 0
  else if !c.ctaActive then true
  else
    match c.state with
    | .exec =>
        badRegister c.inst || opcode c.inst == 0x03 || opcode c.inst == 0x23 ||
          c.inst == ebreak || laneShiftsDefined cfg.numThreads
    | .memReq => decide (c.mt < 32)
    | _ => true

end Core

end OpenGPU
