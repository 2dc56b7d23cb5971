import OpenGPU.Verilog.Occupancy

/-!
# The SystemVerilog GPU

`GPUTop` of `GPU.sv`: one dispatcher and its cores. The instruction and data
memories answer through a foreign interface, so what they drive before an edge
is an input here, one word of each kind for every core.
-/

namespace OpenGPU

namespace Verilog

/-- `GPUTop`. -/
structure GPUTop (cfg : Config) where
  kmu : GPUKmu cfg.numCores
  cores : Nat → GPUCore cfg

/-- What the memories drive before an edge, by core. -/
structure ReadData where
  imem : Nat → Word
  dmem : Nat → Word

/-- The pins of `GPUTop` before an edge, and the memories. -/
structure TopInputs where
  reset : Bool
  dcr : DcrIf
  launch : Bool
  rdata : ReadData

namespace TopInputs

/-- Nothing asserted. -/
def idle (rdata : ReadData) : TopInputs := ⟨false, DcrIf.idle, false, rdata⟩

/-- The launch pulse. -/
def launchPulse (rdata : ReadData) : TopInputs := ⟨false, DcrIf.idle, true, rdata⟩

/-- One configuration write. -/
def dcrWrite (addr : BitVec 12) (data : Word) (rdata : ReadData) : TopInputs :=
  ⟨false, ⟨true, addr, data⟩, false, rdata⟩

end TopInputs

namespace GPUTop

variable {cfg : Config}

/-- `core_ready`. -/
def coreReady (top : GPUTop cfg) (core : Nat) : Bool := (top.cores core).ctaReady

/-- `core_busy`. -/
def coreBusy (top : GPUTop cfg) (core : Nat) : Bool := (top.cores core).ctaActive

/-- One clock edge. -/
def posedge (top : GPUTop cfg) (inputs : TopInputs) : GPUTop cfg where
  kmu := top.kmu.posedge inputs.reset inputs.dcr inputs.launch top.coreReady
  cores core :=
    if core < cfg.numCores then
      (top.cores core).posedge core inputs.reset (top.kmu.ctaValid top.coreReady core)
        top.kmu (inputs.rdata.imem core) (inputs.rdata.dmem core)
    else top.cores core

/-- `io_gpu_busy`. -/
def gpuBusy (top : GPUTop cfg) : Bool := top.kmu.busy top.coreBusy

/-- `io_gpu_fault`. -/
def gpuFault (top : GPUTop cfg) : Bool :=
  (List.range cfg.numCores).any fun core => (top.cores core).faultR

/-- Core `core` takes a block on the next edge. -/
def accepts (top : GPUTop cfg) (core : Nat) : Bool :=
  top.kmu.ctaValid top.coreReady core && (top.cores core).ctaReady

/-- An edge with nothing asserted. -/
def edge (top : GPUTop cfg) (rdata : ReadData) : GPUTop cfg :=
  top.posedge (TopInputs.idle rdata)

/-- The states that a history of resets and other edges can reach. -/
inductive Reachable : GPUTop cfg → Prop
  | reset (top : GPUTop cfg) (inputs : TopInputs) (asserted : inputs.reset = true) :
      Reachable (top.posedge inputs)
  | edge {top : GPUTop cfg} (inputs : TopInputs) (reachable : Reachable top) :
      Reachable (top.posedge inputs)

/-- No core is without a block outside `SCHED`, and the round-robin register
names a core. -/
structure Settled (top : GPUTop cfg) : Prop where
  cores : ∀ core, core < cfg.numCores → (top.cores core).Settled
  rrCore : top.kmu.rrCore.toNat < cfg.numCores

theorem posedge_core
    (top : GPUTop cfg)
    (inputs : TopInputs)
    {core : Nat}
    (inRange : core < cfg.numCores) :
    (top.posedge inputs).cores core =
      (top.cores core).posedge core inputs.reset (top.kmu.ctaValid top.coreReady core)
        top.kmu (inputs.rdata.imem core) (inputs.rdata.dmem core) :=
  if_pos inRange

/-- Every edge keeps the GPU settled. -/
theorem Settled.posedge
    {top : GPUTop cfg}
    (settled : top.Settled)
    (inputs : TopInputs) :
    (top.posedge inputs).Settled where
  cores core inRange := by
    rw [posedge_core top inputs inRange]
    exact (settled.cores core inRange).posedge core inputs.reset _ top.kmu _ _
  rrCore := GPUKmu.rrCore_posedge settled.rrCore _ _ _ _

end GPUTop

end Verilog

end OpenGPU
