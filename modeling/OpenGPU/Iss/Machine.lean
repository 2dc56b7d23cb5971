import OpenGPU.Iss.Step

/-!
# The instruction-set simulator: launches and round-robin stepping

The static variables of `sw/sim/sm/iss.cpp` are one record. A step that aborts
the process is `none`; a launch that `gpu_iss_launch` rejects is `none`. The
allocation of the contexts is taken to succeed.
-/

namespace OpenGPU

/-- The static variables of the simulator, with the memory it runs on. -/
structure Iss where
  cores : Nat → IssCore
  ncores : Nat
  physicalCount : Word
  rr : Nat
  startupPc : Word
  launchArgsAddr : Word
  launchArgsSize : Word
  launchGrid : Dim3
  launchBlock : Dim3
  launchBlockSize : Word
  faulted : Bool
  pmem : Pmem

namespace Iss

/-- The loop of `JALR` over the other live contexts of the warp that stand at
the same instruction. -/
def laneDiverges (s : Iss) (index : Nat) (inst target : Word) : Bool :=
  (List.range s.ncores).any fun other =>
    let core := s.cores index
    let lane := s.cores other
    other != index && !lane.halted && lane.pc == core.pc &&
      core.sameWarp lane && lane.jalrTarget inst != target

/-- `step_core` on context `index`. -/
def stepCore (cfg : Config) (s : Iss) (index : Nat) : Option Iss :=
  (execute cfg (s.cores index) s.pmem (s.laneDiverges index)).map fun result =>
    { s with
      cores := Function.update s.cores index result.core
      pmem := result.pmem
      faulted := s.faulted || result.faulted }

/-- `gpu_iss_done`. -/
def done (s : Iss) : Bool :=
  s.faulted ||
    ((List.range s.ncores).all (fun index => (s.cores index).halted) &&
      s.ncores != 0)

/-- The scan of `gpu_iss_step`, with the number of contexts still to look at. -/
def scan (cfg : Config) : Nat → Iss → Option (Bool × Iss)
  | 0, s => some (false, s)
  | remaining + 1, s =>
      let index := s.rr
      let s := { s with rr := (s.rr + 1) % s.ncores }
      if (s.cores index).halted then scan cfg remaining s
      else (stepCore cfg s index).map fun stepped => (true, stepped)

/-- `gpu_iss_step`. -/
def gpuIssStep (cfg : Config) (s : Iss) : Option (Bool × Iss) :=
  if s.done then some (false, s) else scan cfg s.ncores s

/-- A context as `calloc` leaves it. -/
def zeroedCore : IssCore where
  gpr := fun _ => 0
  pc := 0
  hartid := 0
  physicalId := 0
  argsAddr := 0
  threadIdx := Dim3.zero
  blockIdx := Dim3.zero
  blockDim := Dim3.zero
  gridDim := Dim3.zero
  warpId := 0
  laneId := 0
  halted := false

/-- The initial values of the static variables. -/
def fresh (pmem : Pmem) : Iss where
  cores := fun _ => zeroedCore
  ncores := 0
  physicalCount := 0
  rr := 0
  startupPc := 0x81000000
  launchArgsAddr := 0
  launchArgsSize := 0
  launchGrid := Dim3.one
  launchBlock := Dim3.one
  launchBlockSize := 1
  faulted := false
  pmem := pmem

/-- `gpu_iss_init`; the launch parameters survive it. -/
def gpuIssInit (numCores : Word) (s : Iss) : Iss :=
  { s with ncores := 0, physicalCount := numCores, rr := 0, faulted := false }

/-- `gpu_iss_dcr_write`. -/
def gpuIssDcrWrite (addr data : Word) (s : Iss) : Iss :=
  if addr = 0x010 then { s with startupPc := data }
  else if addr = 0x011 then { s with launchArgsAddr := data }
  else if addr = 0x012 then { s with launchArgsSize := data }
  else if addr = 0x013 then
    { s with launchBlock := { s.launchBlock with x := data } }
  else if addr = 0x014 then
    { s with launchBlock := { s.launchBlock with y := data } }
  else if addr = 0x015 then
    { s with launchBlock := { s.launchBlock with z := data } }
  else if addr = 0x016 then
    { s with launchGrid := { s.launchGrid with x := data } }
  else if addr = 0x017 then
    { s with launchGrid := { s.launchGrid with y := data } }
  else if addr = 0x018 then
    { s with launchGrid := { s.launchGrid with z := data } }
  else if addr = 0x019 then { s with launchBlockSize := data }
  else s

/-- The product of three extents in `uint64_t`. -/
def volume (dim : Dim3) : BitVec 64 :=
  dim.x.setWidth 64 * dim.y.setWidth 64 * dim.z.setWidth 64

/-- `total` of `gpu_iss_launch`. -/
def launchTotal (s : Iss) : BitVec 64 :=
  volume s.launchGrid * volume s.launchBlock

/-- The admission check of `gpu_iss_launch`. -/
def launchAccepted (s : Iss) : Bool :=
  s.launchTotal != 0 && s.launchTotal ≤ 0xffffffff &&
    volume s.launchBlock == s.launchBlockSize.setWidth 64

/-- `hardware_cores` of `gpu_iss_launch`. -/
def hardwareCores (cfg : Config) (s : Iss) : Word :=
  s.physicalCount / BitVec.ofNat 32 cfg.contexts

/-- Context `i` as `gpu_iss_launch` fills it in after `calloc`. -/
def launchContext (cfg : Config) (s : Iss) (i : Word) : IssCore :=
  let blockSize := (volume s.launchBlock).setWidth 32
  let lanes := BitVec.ofNat 32 cfg.contexts
  let loc := i % blockSize
  let block := i / blockSize
  { gpr := fun _ => 0
    pc := s.startupPc
    hartid := i
    physicalId := block % s.hardwareCores cfg * lanes + loc
    argsAddr := s.launchArgsAddr
    laneId := loc % BitVec.ofNat 32 cfg.numThreads
    warpId := loc / BitVec.ofNat 32 cfg.numThreads
    threadIdx :=
      ⟨loc % s.launchBlock.x,
        loc / s.launchBlock.x % s.launchBlock.y,
        loc / (s.launchBlock.x * s.launchBlock.y)⟩
    blockIdx :=
      ⟨block % s.launchGrid.x,
        block / s.launchGrid.x % s.launchGrid.y,
        block / (s.launchGrid.x * s.launchGrid.y)⟩
    blockDim := s.launchBlock
    gridDim := s.launchGrid
    halted := false }

/-- `gpu_iss_launch`; `none` is the rejected launch. -/
def gpuIssLaunch (cfg : Config) (s : Iss) : Option Iss :=
  if s.launchAccepted then
    some
      { s with
        cores := fun index => s.launchContext cfg (BitVec.ofNat 32 index)
        ncores := s.launchTotal.toNat
        rr := 0 }
  else none

end Iss

end OpenGPU
