import Mathlib.Data.List.Sort
import OpenGPU.Cycle.Core

/-!
# The cycle model: the whole GPU

`pack` and `cycle_diff_step` of `sw/sim/hm/difftest.cpp`. Core sets are 32-bit
masks in the sources, so a topology with more than 32 cores, or a block with
more than 32 valid warps, makes the model shift by 32 or more: such a step is
`none`. The bookkeeping of the comparison itself (`failed`, `dirty`, `actual`)
is left out.
-/

namespace OpenGPU

/-- `Store`. -/
structure Store where
  addr : Word
  data : Word
  mask : Byte
  deriving DecidableEq

namespace Store

/-- `operator<`. -/
def lt (a b : Store) : Bool :=
  if a.addr ≠ b.addr then a.addr < b.addr
  else if a.mask ≠ b.mask then a.mask < b.mask
  else a.data < b.data

end Store

/-- The inputs of one tick, as `cycle_diff_set_inputs` samples them. -/
structure Inputs where
  reset : Bool
  dcrValid : Bool
  dcrAddr : Word
  dcrData : Word
  launch : Bool

namespace Inputs

/-- Nothing asserted. -/
def idle : Inputs := ⟨false, false, 0, 0, false⟩

/-- One configuration write. -/
def dcrWrite (addr data : Word) : Inputs := ⟨false, true, addr, data, false⟩

/-- The launch pulse. -/
def launchPulse : Inputs := ⟨false, false, 0, 0, true⟩

end Inputs

namespace DcrRegisters

/-- The values of `Model{}`. -/
def fresh : DcrRegisters where
  startup := 0x81000000
  args := 0
  argsSize := 0
  dim := Dim3.one
  grid := Dim3.one
  blockSize := 1

/-- The switch over the configuration address. -/
def write (addr data : Word) (r : DcrRegisters) : DcrRegisters :=
  if addr = 0x10 then { r with startup := data }
  else if addr = 0x11 then { r with args := data }
  else if addr = 0x12 then { r with argsSize := data }
  else if addr = 0x13 then { r with dim := { r.dim with x := data } }
  else if addr = 0x14 then { r with dim := { r.dim with y := data } }
  else if addr = 0x15 then { r with dim := { r.dim with z := data } }
  else if addr = 0x16 then { r with grid := { r.grid with x := data } }
  else if addr = 0x17 then { r with grid := { r.grid with y := data } }
  else if addr = 0x18 then { r with grid := { r.grid with z := data } }
  else if addr = 0x19 then { r with blockSize := data }
  else r

end DcrRegisters

/-- The dispatch registers: the block index, whether blocks are left, and the
round-robin pointer over the cores. -/
structure Walk where
  block : Dim3
  running : Bool
  rr : Nat

namespace Walk

/-- The values of `Model{}`. -/
def fresh : Walk := ⟨Dim3.zero, false, 0⟩

/-- The block after `block` in the walk over `grid`, and whether the walk
ended. -/
def nextBlock (grid block : Dim3) : Dim3 × Bool :=
  if block.x + 1 = grid.x then
    if block.y + 1 = grid.y then
      if block.z + 1 = grid.z then (⟨0, 0, 0⟩, true)
      else (⟨0, 0, block.z + 1⟩, false)
    else (⟨0, block.y + 1, block.z⟩, false)
  else (⟨block.x + 1, block.y, block.z⟩, false)

/-- The launch pulse, or else the dispatch of a block to core `fire`. The
registers `dcr` have seen this edge's configuration write already. -/
def step (numCores : Nat) (launch : Bool) (dcr : DcrRegisters)
    (fire : Option Nat) (walk : Walk) : Walk :=
  if launch then
    { walk with
      block := ⟨0, 0, 0⟩
      running :=
        dcr.blockSize != 0 && dcr.grid.x != 0 && dcr.grid.y != 0 && dcr.grid.z != 0 }
  else
    match fire with
    | some sel =>
        let next := nextBlock dcr.grid walk.block
        { block := next.1
          running := walk.running && !next.2
          rr := if sel = numCores - 1 then 0 else sel + 1 }
    | none => walk

end Walk

/-- `Model`. -/
structure Model where
  dcr : DcrRegisters
  walk : Walk
  inputs : Inputs
  active : Bool
  cycle : Nat
  cores : Nat → Core
  mem : ShadowMemory
  packed : Nat → Word
  expected : List Store

namespace Model

open Instruction

/-- `Model{}`. -/
def fresh : Model where
  dcr := DcrRegisters.fresh
  walk := Walk.fresh
  inputs := Inputs.idle
  active := false
  cycle := 0
  cores := fun _ => Core.fresh
  mem := ⟨fun _ => 0, 0⟩
  packed := fun _ => 0
  expected := []

/-- The registers that an accepting core latches. -/
def launchRegisters (m : Model) : LaunchRegisters :=
  { m.dcr with block := m.walk.block }

/-- A core that can accept a block. -/
def coreReady (m : Model) (i : Nat) : Bool :=
  !(m.cores i).ctaActive && (m.cores i).state == .sched

/-- The `ready` mask. -/
def readyMask (cfg : Config) (m : Model) : Word :=
  collectLanes 32 cfg.numCores m.coreReady

/-- The `busy` mask. -/
def busyMask (cfg : Config) (m : Model) : Word :=
  collectLanes 32 cfg.numCores fun i => (m.cores i).ctaActive

/-- The `done` mask. -/
def doneMask (cfg : Config) (m : Model) : Word :=
  collectLanes 32 cfg.numCores fun i => !(m.cores i).ctaActive

/-- `sel` when `any` holds. -/
def selected (cfg : Config) (m : Model) : Option Nat :=
  circularFirst cfg.numCores m.walk.rr fun x => hasLane (m.readyMask cfg) x

/-- The core that accepts a block on this edge. -/
def firing (cfg : Config) (m : Model) : Option Nat :=
  if m.walk.running then m.selected cfg else none

/-- `topbusy` of `pack`. -/
def topBusy (cfg : Config) (m : Model) : Bool :=
  m.walk.running || m.busyMask cfg != 0

/-- The fault output of `pack`. -/
def topFault (cfg : Config) (m : Model) : Bool :=
  (List.range cfg.numCores).any fun i => (m.cores i).fault

/-! ## Packed state -/

/-- `CoreWords`. -/
def coreWords (cfg : Config) : Nat := 28 + 20 * cfg.numWarps + 20 * cfg.contexts

/-- `Words`. -/
def words (cfg : Config) : Nat := 23 + cfg.numCores * coreWords cfg

/-- The byte mask of a store or load transaction. -/
def byteMask (f3 addr : Word) : Word :=
  if f3 = 0 then 1 <<< (addr &&& 3).toNat
  else if f3 = 1 then 3 <<< (addr &&& 3).toNat
  else 15

/-- Coordinates as the three consecutive words from `base` on. -/
def packDim (base : Nat) (dim : Dim3) : List (Nat × Word) :=
  [(base, dim.x), (base + 1, dim.y), (base + 2, dim.z)]

/-- The writes of the top and KMU section. -/
def packKmu (cfg : Config) (m : Model) : List (Nat × Word) :=
  let busy := m.busyMask cfg
  let topBusy := boolWord (m.topBusy cfg)
  let sel := BitVec.ofNat 32 ((m.selected cfg).getD 0)
  [(0, topBusy), (1, boolWord (m.topFault cfg)), (2, m.doneMask cfg),
    (3, m.dcr.startup), (4, m.dcr.args), (5, m.dcr.argsSize)] ++
    packDim 6 m.dcr.dim ++ packDim 9 m.dcr.grid ++ packDim 13 m.walk.block ++
    [(12, m.dcr.blockSize), (16, boolWord m.walk.running),
      (17, BitVec.ofNat 32 m.walk.rr),
      (18, match m.firing cfg with
        | some core => laneBit 32 core
        | none => 0),
      (19, m.readyMask cfg), (20, busy), (21, topBusy),
      (22, sel ||| (boolWord (m.selected cfg).isSome <<< 31))]

/-- `State` as its enumerator value. -/
def stateWord : CoreState → Word
  | .sched => 0
  | .fetch => 1
  | .exec => 2
  | .memReq => 3
  | .memResp => 4

/-- The active-warp word. -/
def activeWarps (cfg : Config) (c : Core) : Word :=
  collectLanes 32 cfg.numWarps c.valid

/-- The writes of the data-memory words of a core. -/
def packDmem (cfg : Config) (mem : ShadowMemory) (c : Core) : List (Nat × Word) :=
  if (c.state = .memReq ∨ c.state = .memResp) ∧ hasLane c.im c.mt then
    let a := c.memoryAddress cfg
    [(22, boolWord (opcode c.inst == 0x03 && c.state == .memReq)),
      (23, boolWord (opcode c.inst == 0x23 && c.state == .memReq)),
      (24, byteMask (funct3 c.inst) a),
      (25, a &&& ~~~3),
      (26, c.laneRegister cfg c.mt (rs2 c.inst) <<< Core.byteShift a)] ++
      if opcode c.inst = 0x03 ∧ c.state = .memResp then
        [(27, load32 cfg mem (a &&& ~~~3))]
      else []
  else []

/-- The writes of one warp. -/
def packWarp (c : Core) (w : Nat) : List (Nat × Word) :=
  let b := 28 + w * 20
  [(b, boolWord (c.valid w)), (b + 1, c.pc w), (b + 2, c.mask w),
    (b + 3, BitVec.ofNat 32 (c.sp w))] ++
    (List.range 8).flatMap fun s =>
      [(b + 4 + s * 2, c.stackPc w s), (b + 5 + s * 2, c.stackMask w s)]

/-- The writes of one lane. -/
def packLane (cfg : Config) (c : Core) (x : Nat) : List (Nat × Word) :=
  let b := 28 + 20 * cfg.numWarps + x * 20
  [(b, c.tx x), (b + 1, c.ty x), (b + 2, c.tz x), (b + 3, c.gid x)] ++
    (List.range 16).map fun r => (b + 4 + r, c.gpr x r)

/-- The writes of one core, relative to its first word. -/
def packCore (cfg : Config) (mem : ShadowMemory) (c : Core) : List (Nat × Word) :=
  [(0, stateWord c.state), (1, boolWord c.ctaActive), (2, boolWord c.fault),
    (3, BitVec.ofNat 32 c.rr), (4, BitVec.ofNat 32 c.iw), (5, c.im), (6, c.ip),
    (7, c.inst), (8, BitVec.ofNat 32 c.mt)] ++
    packDim 9 c.block ++ packDim 12 c.dim ++ packDim 15 c.grid ++
    [(18, c.args), (19, activeWarps cfg c), (20, boolWord (c.state == .fetch)),
      (21, c.ip)] ++
    packDmem cfg mem c ++
    (List.range cfg.numWarps).flatMap (packWarp c) ++
    (List.range cfg.contexts).flatMap (packLane cfg c)

/-- All writes of `pack`, in order. -/
def packWrites (cfg : Config) (m : Model) : List (Nat × Word) :=
  packKmu cfg m ++
    (List.range cfg.numCores).flatMap fun ci =>
      (packCore cfg m.mem (m.cores ci)).map fun write =>
        (23 + ci * coreWords cfg + write.1, write.2)

/-- Every shift amount of `pack` is below 32. -/
def packDefined (cfg : Config) (m : Model) : Bool :=
  decide (cfg.numCores ≤ 32) &&
    (List.range cfg.numCores).all fun i =>
      let c := m.cores i
      (List.range cfg.numWarps).all (fun w => !c.valid w || decide (w < 32)) &&
        (!(c.state == .memReq || c.state == .memResp) || decide (c.mt < 32))

/-- `pack`. -/
def pack (cfg : Config) (m : Model) : Option Model :=
  if m.packDefined cfg then
    some { m with
      packed := (packWrites cfg m).foldl
        (fun packed write => Function.update packed write.1 write.2) fun _ => 0 }
  else none

/-! ## One clock edge -/

/-- The store that a core presents to memory before the edge. -/
def captureStore (cfg : Config) (c : Core) : Option Store :=
  if c.ctaActive ∧ c.state = .memReq ∧ hasLane c.im c.mt ∧
      opcode c.inst = 0x23 then
    let a := c.memoryAddress cfg
    some
      { addr := a &&& ~~~3
        data := c.laneRegister cfg c.mt (rs2 c.inst) <<< Core.byteShift a
        mask := (byteMask (funct3 c.inst) a).setWidth 8 }
  else none

/-- One byte of `store_ref`. -/
def storeByte (cfg : Config) (s : Store) (mem : ShadowMemory) (b : Nat) :
    ShadowMemory :=
  if hasLane s.mask b then
    let a := s.addr.toNat + b
    if a < cfg.mbase.toNat ∨ cfg.mbase.toNat + mem.size ≤ a then mem
    else
      { mem with
        bytes := Function.update mem.bytes (BitVec.ofNat 32 a) (wordByte s.data b) }
  else mem

/-- `store_ref`. -/
def storeRef (cfg : Config) (mem : ShadowMemory) (s : Store) : ShadowMemory :=
  (List.range 4).foldl (storeByte cfg s) mem

/-- Stores of all cores before the edge, in the order of `std::sort`. -/
def expectedStores (cfg : Config) (m : Model) : List Store :=
  ((List.range cfg.numCores).filterMap fun i => captureStore cfg (m.cores i)).mergeSort
    fun a b => !b.lt a

/-- Every core takes its step; all of them read the memory before the edge. -/
def stepCores (cfg : Config) (m : Model) : Nat → Core := fun i =>
  if i < cfg.numCores then
    (m.cores i).stepCore cfg m.mem m.launchRegisters i (m.firing cfg == some i)
  else m.cores i

/-- The configuration registers after this edge's write. -/
def dcrNext (m : Model) : DcrRegisters :=
  if m.inputs.dcrValid then m.dcr.write m.inputs.dcrAddr m.inputs.dcrData else m.dcr

/-- One step outside reset, before `pack`. -/
def clock (cfg : Config) (m : Model) : Model :=
  { m with
    expected := m.expectedStores cfg
    cores := m.stepCores cfg
    dcr := m.dcrNext
    walk := m.walk.step cfg.numCores m.inputs.launch m.dcrNext (m.firing cfg)
    mem := (m.expectedStores cfg).foldl (storeRef cfg) m.mem
    cycle := m.cycle + 1 }

/-- All shifts and divisions of a step are defined. -/
def clockDefined (cfg : Config) (m : Model) : Bool :=
  (List.range cfg.numCores).all fun i =>
    decide (i < 32) &&
      (m.cores i).stepDefined cfg m.launchRegisters (m.firing cfg == some i)

/-- `cycle_diff_step`. -/
def cycleDiffStep (cfg : Config) (m : Model) : Option Model :=
  if m.inputs.reset then pack cfg { fresh with mem := m.mem, active := m.active }
  else if m.clockDefined cfg then pack cfg (m.clock cfg)
  else none

/-- `cycle_diff_init` and `cycle_diff_reset`. -/
def cycleDiffInit (cfg : Config) : Option Model := pack cfg fresh

/-- `cycle_diff_begin`. -/
def cycleDiffBegin (cfg : Config) (pmem : Pmem) (m : Model) : Model :=
  { m with mem := ⟨pmem, cfg.msize.toNat⟩, active := true, cycle := 0 }

/-- `cycle_diff_set_inputs`. -/
def cycleDiffSetInputs (inputs : Inputs) (m : Model) : Model :=
  { m with inputs := inputs }

/-- Sample the inputs and step, as `tick` does. -/
def tick (cfg : Config) (inputs : Inputs) (m : Model) : Option Model :=
  cycleDiffStep cfg (cycleDiffSetInputs inputs m)

end Model

end OpenGPU
