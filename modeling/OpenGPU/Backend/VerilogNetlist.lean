import OpenGPU.Backend.Netlist
import OpenGPU.Lockstep.RequestWords
import OpenGPU.Verilog.Top

/-!
# The netlist of the SystemVerilog backend

`GPUTop` of `GPU.sv` with the memories of `Peripheral/Mem.sv` and the state bridges
of `Util/DPI.v`. A rising clock edge moves the registers; then the memories answer
the new addresses and every bridge passes its words on. Nothing else that the
driver does changes an input of these blocks.
-/

namespace OpenGPU

namespace Verilog

variable {cfg : Config}

/-! ## State words -/

/-- One bit for every core, as a word. -/
def coreMask (cfg : Config) (bit : Nat → Bool) : Word :=
  (collectLanes cfg.numCores cfg.numCores bit).setWidth 32

/-- The coordinates as words. -/
def dimWords (dim : Dim3) : List Word := [dim.x, dim.y, dim.z]

/-- `diff_state` of `GPUTop`. -/
def GPUTop.diffState (top : GPUTop cfg) : List Word :=
  [boolWord top.gpuBusy, boolWord top.gpuFault, coreMask cfg fun core => !top.coreBusy core]

/-- `diff_state` of `GPUKmu`. -/
def GPUTop.kmuDiffState (top : GPUTop cfg) : List Word :=
  let kmu := top.kmu
  [kmu.startupPc, kmu.argsAddr, kmu.argsSize] ++ dimWords kmu.blockDim ++
    dimWords kmu.gridDim ++ [kmu.blockSize] ++ dimWords kmu.blockIdx ++
    [boolWord kmu.running, kmu.rrCore.setWidth 32, coreMask cfg (kmu.ctaValid top.coreReady),
      coreMask cfg top.coreReady, coreMask cfg top.coreBusy, boolWord top.gpuBusy,
      (kmu.selectedCore top.coreReady).setWidth 32 |||
        boolWord (kmu.selectedValid top.coreReady) <<< 31]

namespace GPUCore

/-- `32'(state)`. -/
def stateWord : Fsm → Word
  | .sched => 0
  | .fetch => 1
  | .exec => 2
  | .memReq => 3
  | .memResp => 4

/-- The words of one warp. -/
def warpWords (core : GPUCore cfg) (w : Nat) : List Word :=
  [boolWord (core.warpValid w), core.warpPc w, (core.warpMask w).setWidth 32,
    (core.stackSp w).setWidth 32] ++
    (List.range stackDepth).flatMap fun level =>
      [core.stackPc (w * stackDepth + level), (core.stackMask (w * stackDepth + level)).setWidth 32]

/-- The words of one lane. -/
def laneWords (core : GPUCore cfg) (c : Nat) : List Word :=
  [core.threadX c, core.threadY c, core.threadZ c, core.globalId c] ++
    (List.range 16).map fun register => core.gprs (c * 16 + register)

/-- `diff_state` of `GPUCore`. -/
def diffState (dmemRdata : Word) (core : GPUCore cfg) : List Word :=
  let request := core.requestWords
  [stateWord core.state, boolWord core.ctaActive, boolWord core.faultR,
    core.rrWarp.setWidth 32, core.issueWarp.setWidth 32, core.issueMask.setWidth 32,
    core.issuePc, core.issueInst, core.memThread.setWidth 32] ++
    dimWords core.block ++ dimWords core.dim ++ dimWords core.grid ++
    [core.argsAddr, (collectLanes cfg.numWarps cfg.numWarps core.warpValid).setWidth 32,
      boolWord (core.state == .fetch), core.issuePc, request.ren, request.wen, request.mask,
      request.addr, request.wdata,
      if core.state = .memResp ∧ core.dmemRen then dmemRdata else 0] ++
    (List.range cfg.numWarps).flatMap core.warpWords ++
    (List.range cfg.contexts).flatMap core.laneWords

end GPUCore

/-! ## Evaluation -/

/-- The registers, what the memories drive, and the clock of the last evaluation. -/
structure Netlist (cfg : Config) where
  clock : Bool
  top : GPUTop cfg
  rdata : ReadData

namespace Netlist

/-- A simulation before its first evaluation. -/
def create : Netlist cfg where
  clock := false
  top := ⟨GPUKmu.fresh, fun _ => GPUCore.fresh⟩
  rdata := ⟨fun _ => 0, fun _ => 0⟩

/-- A `SimDpiMem`, which drives zero unless it reads. -/
def readMem {State : Type} (ren : Bool) (addr : Word) (next : Word → DpiCalls State) :
    DpiCalls State :=
  if ren then .paddrRead addr next else next 0

/-- The memories of the cores of a list. -/
def driveMem {State : Type} (top : GPUTop cfg) (next : ReadData → DpiCalls State) :
    List Nat → ReadData → DpiCalls State
  | [], rdata => next rdata
  | i :: rest, rdata =>
      let core := top.cores i
      readMem (core.state == .fetch) core.issuePc fun imem =>
      readMem core.dmemRen core.dmemAddr fun dmem =>
        let rdata :=
          { imem := Function.update rdata.imem i imem
            dmem := Function.update rdata.dmem i dmem }
        if core.dmemWen then
          .paddrWrite core.dmemAddr (core.dmemMask.setWidth 8) core.dmemWdata
            (driveMem top next rest rdata)
        else driveMem top next rest rdata

/-- The state bridges of the cores of a list. -/
def reportCores {State : Type} (top : GPUTop cfg) (rdata : ReadData) (next : DpiCalls State) :
    List Nat → DpiCalls State
  | [] => next
  | i :: rest =>
      .diffState (23 + i * diffCoreWords cfg) ((top.cores i).diffState (rdata.dmem i))
        (reportCores top rdata next rest)

/-- `eval`. -/
def eval (pins : TopPins) (clock : Bool) (netlist : Netlist cfg) : DpiCalls (Netlist cfg) :=
  if clock && !netlist.clock then
    let top := netlist.top.posedge
      { reset := pins.reset
        dcr := ⟨pins.dcrValid, pins.dcrAddr.setWidth 12, pins.dcrData⟩
        launch := pins.launch
        rdata := netlist.rdata }
    driveMem top
      (fun rdata =>
        .diffState 0 top.diffState
          (.diffState 3 top.kmuDiffState
            (reportCores top rdata (.done ⟨clock, top, rdata⟩) (List.range cfg.numCores))))
      (List.range cfg.numCores) netlist.rdata
  else .done { netlist with clock := clock }

end Netlist

/-- `VGPUTop` of the SystemVerilog sources. -/
def vgpuTop (cfg : Config) : VGPUTop where
  State := Netlist cfg
  create := Netlist.create
  eval := Netlist.eval
  gpuBusy netlist := netlist.top.gpuBusy
  gpuFault netlist := netlist.top.gpuFault

end Verilog

end OpenGPU
