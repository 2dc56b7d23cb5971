import OpenGPU.Verilog.Kmu

/-!
# The SpinalHDL dispatcher

`Kmu` of the SpinalHDL sources. It has the registers of the SystemVerilog
dispatcher and the same walk over the blocks. The scan for a ready core counts
from the round-robin register in the width of that register, so it wraps at a
power of two.
-/

namespace OpenGPU

namespace Spinal

open Verilog

/-- The registers of `Kmu`. -/
abbrev Kmu := GPUKmu

namespace Kmu

variable {numCores : Nat}

/-- `(rrCore + o).resized`. -/
def candidate (kmu : Kmu numCores) (o : Nat) : BitVec (indexBits numCores) :=
  kmu.rrCore + BitVec.ofNat _ o

/-- `selected`: the assignments run from the last offset to the first, and the
last one that applies wins. A bit beyond the ready vector reads as zero. -/
def selected (coreReady : BitVec numCores) (kmu : Kmu numCores) :
    BitVec (indexBits numCores) :=
  (List.range numCores).reverse.foldl
    (fun selected o =>
      if coreReady.getLsbD (candidate kmu o).toNat then candidate kmu o else selected)
    kmu.rrCore

/-- `anyReady`. -/
def anyReady (coreReady : BitVec numCores) : Bool := coreReady != 0

/-- `io.ctaValid(core)`. -/
def ctaValid (coreReady : BitVec numCores) (kmu : Kmu numCores) (core : Nat) : Bool :=
  kmu.running && anyReady coreReady && (selected coreReady kmu).toNat == core

/-- `selectedReady`. -/
def selectedReady (coreReady : BitVec numCores) (kmu : Kmu numCores) : Bool :=
  if numCores = 1 then coreReady.getLsbD 0
  else coreReady.getLsbD (selected coreReady kmu).toNat

/-- `fire`. -/
def fire (coreReady : BitVec numCores) (kmu : Kmu numCores) : Bool :=
  kmu.running && anyReady coreReady && selectedReady coreReady kmu

/-- The next round-robin value when a block fires. -/
def rrCoreNext (coreReady : BitVec numCores) (kmu : Kmu numCores) :
    BitVec (indexBits numCores) :=
  if selected coreReady kmu = BitVec.ofNat _ (numCores - 1) then 0
  else selected coreReady kmu + 1

/-- One clock edge. -/
def posedge (reset : Bool) (dcr : DcrIf) (launch : Bool) (coreReady : BitVec numCores)
    (kmu : Kmu numCores) : Kmu numCores :=
  if reset then GPUKmu.fresh
  else if launch then
    { kmu.dcrWrite dcr with
      blockIdx := ⟨0, 0, 0⟩
      running :=
        kmu.blockSize != 0 && kmu.gridDim.x != 0 && kmu.gridDim.y != 0 &&
          kmu.gridDim.z != 0 }
  else if fire coreReady kmu then
    { kmu.dcrWrite dcr with
      rrCore := rrCoreNext coreReady kmu
      blockIdx := kmu.blockIdxNext
      running := kmu.runningNext }
  else kmu.dcrWrite dcr

end Kmu

end Spinal

end OpenGPU
