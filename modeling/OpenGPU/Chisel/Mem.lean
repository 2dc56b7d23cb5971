import OpenGPU.Chisel.Connections

/-!
# The Chisel core and its memories

`SimInstMem` and `SimDataMem` of `Peripheral/Mem.scala` answer a request from a
register, one cycle later, and take no further request before the answer is
taken. `TOP` wires one of each to a core. What the foreign memory behind a port
drives in a cycle is an input here, and so are the blocks that the dispatcher
offers.
-/

namespace OpenGPU

namespace Chisel

open Verilog

/-- The registers of `SimDataMem` in Chisel. -/
structure SimDataMem where
  pending : Bool
  response : Word

/-- The registers of `SimInstMem`. -/
abbrev SimInstMem := SimDataMem

namespace SimDataMem

/-- `io.req.ready`. -/
def reqReady (mem : SimDataMem) : Bool := !mem.pending

/-- `io.resp`, while it is valid. -/
def resp (mem : SimDataMem) : Option Word := if mem.pending then some mem.response else none

/-- One clock edge. `response` has no reset value. -/
def posedge (reset reqFire respFire : Bool) (rdata : Word) (mem : SimDataMem) : SimDataMem where
  pending := if reset then false else if respFire then false else if reqFire then true
    else mem.pending
  response := if reqFire then rdata else mem.response

end SimDataMem

namespace Core

variable {cfg : Config}

/-- `io.cta.ready`. -/
def ctaReady (core : Core cfg) : Bool := !core.ctaActive

/-- `io.ibus.req.valid`. -/
def instReqValid (core : Core cfg) : Bool :=
  core.ctaActive && core.state == .sched && core.activeBits != 0

/-- `io.ibus.resp.ready`. -/
def instRespReady (core : Core cfg) : Bool := core.state == .fetch

/-- `io.dbus.resp.ready`. -/
def dataRespReady (core : Core cfg) : Bool := core.state == .memResp

end Core

/-- A core with the two memories that `TOP` wires to it. -/
structure CoreTile (cfg : Config) where
  core : Core cfg
  imem : SimInstMem
  dmem : SimDataMem

/-- What a core and its memories receive before an edge: the offer of the
dispatcher and the words behind the two ports. -/
structure TileInputs (numCores : Nat) where
  reset : Bool
  ctaValid : Bool
  kmu : Kmu numCores
  imemRdata : Word
  dmemRdata : Word

namespace CoreTile

variable {cfg : Config}

/-- `io.ibus.req.fire`. -/
def instReqFire (tile : CoreTile cfg) : Bool := tile.core.instReqValid && tile.imem.reqReady

/-- `io.ibus.resp.fire`. -/
def instRespFire (tile : CoreTile cfg) : Bool := tile.imem.pending && tile.core.instRespReady

/-- `io.dbus.req.fire`. -/
def dataReqFire (tile : CoreTile cfg) : Bool := tile.core.reqValid && tile.dmem.reqReady

/-- `io.dbus.resp.fire`. -/
def dataRespFire (tile : CoreTile cfg) : Bool := tile.dmem.pending && tile.core.dataRespReady

/-- `mem.io.ren` of the instruction port. Its `wen` is constantly low. -/
def imemRen (tile : CoreTile cfg) : Bool := tile.instReqFire

/-- `mem.io.ren` of the data port. -/
def dmemRen (tile : CoreTile cfg) : Bool :=
  tile.dataReqFire && Decode.opcode tile.core.issueInst == Decode.load

/-- `mem.io.wen` of the data port. -/
def dmemWen (tile : CoreTile cfg) : Bool :=
  tile.dataReqFire && Decode.opcode tile.core.issueInst == Decode.store

/-- What the memories drive. -/
def buses (tile : CoreTile cfg) : Core.Buses where
  instReqReady := tile.imem.reqReady
  instResp := tile.imem.resp
  dataReqReady := tile.dmem.reqReady
  dataResp := tile.dmem.resp

/-- One clock edge of the core and its memories. -/
def posedge {numCores : Nat} (coreId : Nat) (tile : CoreTile cfg)
    (inputs : TileInputs numCores) : CoreTile cfg where
  core := tile.core.connected coreId inputs.reset inputs.ctaValid inputs.kmu tile.buses
  imem := tile.imem.posedge inputs.reset tile.instReqFire tile.instRespFire inputs.imemRdata
  dmem := tile.dmem.posedge inputs.reset tile.dataReqFire tile.dataRespFire inputs.dmemRdata

/-- The states that a history of resets and other edges can reach. -/
inductive Reachable (numCores coreId : Nat) : CoreTile cfg → Prop
  | reset (tile : CoreTile cfg) (inputs : TileInputs numCores) (asserted : inputs.reset = true) :
      Reachable numCores coreId (tile.posedge coreId inputs)
  | edge {tile : CoreTile cfg} (inputs : TileInputs numCores)
      (reachable : Reachable numCores coreId tile) :
      Reachable numCores coreId (tile.posedge coreId inputs)

end CoreTile

end Chisel

end OpenGPU
