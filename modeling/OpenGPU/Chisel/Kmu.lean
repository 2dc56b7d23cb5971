import OpenGPU.Verilog.Kmu

/-!
# The Chisel dispatcher

`Kmu` of the Chisel sources. It has the registers of the SystemVerilog
dispatcher and the same walk over the blocks; what differs is how it finds the
core that takes the next block. The ready vector is doubled and shifted by the
round-robin register, and the index of its lowest bit is added to the register
in an adder as wide as the register.
-/

namespace OpenGPU

/-- `PriorityEncoder`: the lowest set index, or else the last one. -/
def priorityEncoder (count : Nat) (test : Nat → Bool) : Nat :=
  ((List.range count).find? test).getD (count - 1)

namespace Chisel

open Verilog

/-- The registers of `Kmu`. -/
abbrev Kmu := GPUKmu

namespace Kmu

variable {numCores : Nat}

/-- `rotated`. -/
def rotated (coreReady : BitVec numCores) (kmu : Kmu numCores) : BitVec numCores :=
  ((coreReady ++ coreReady) >>> kmu.rrCore.toNat).extractLsb' 0 numCores

/-- `anyReady`. -/
def anyReady (coreReady : BitVec numCores) (kmu : Kmu numCores) : Bool :=
  rotated coreReady kmu != 0

/-- `selected`: the sum keeps the width of the round-robin register. -/
def selected (coreReady : BitVec numCores) (kmu : Kmu numCores) :
    BitVec (indexBits numCores) :=
  kmu.rrCore +
    BitVec.ofNat _ (priorityEncoder numCores fun i => (rotated coreReady kmu).getLsbD i)

/-- `io.ctaValid(core)`. -/
def ctaValid (coreReady : BitVec numCores) (kmu : Kmu numCores) (core : Nat) : Bool :=
  kmu.running && anyReady coreReady kmu && (selected coreReady kmu).toNat == core

/-- `fire`; a bit beyond the ready vector reads as zero. -/
def fire (coreReady : BitVec numCores) (kmu : Kmu numCores) : Bool :=
  kmu.running && anyReady coreReady kmu &&
    coreReady.getLsbD (selected coreReady kmu).toNat

/-- The next round-robin value when a block fires. -/
def rrCoreNext (coreReady : BitVec numCores) (kmu : Kmu numCores) :
    BitVec (indexBits numCores) :=
  if selected coreReady kmu = BitVec.ofNat _ (numCores - 1) then 0
  else selected coreReady kmu + 1

/-- One clock edge. -/
def posedge (reset : Bool) (dcr : DcrIf) (launch : Bool) (coreReady : BitVec numCores)
    (kmu : Kmu numCores) : Kmu numCores :=
  if reset then GPUKmu.fresh
  else if launch then
    { kmu.dcrWrite dcr with
      blockIdx := ⟨0, 0, 0⟩
      running :=
        kmu.blockSize != 0 && kmu.gridDim.x != 0 && kmu.gridDim.y != 0 &&
          kmu.gridDim.z != 0 }
  else if fire coreReady kmu then
    { kmu.dcrWrite dcr with
      rrCore := rrCoreNext coreReady kmu
      blockIdx := kmu.blockIdxNext
      running := kmu.runningNext }
  else kmu.dcrWrite dcr

end Kmu

end Chisel

end OpenGPU
