import OpenGPU.Chisel.Core
import OpenGPU.Verilog.Occupancy

/-!
# The connections of the Chisel core in their order

Chisel keeps the last connection to a register. The block of `io.cta.fire` comes
first in `GPUCore`, the states come after it, so a state that would connect a
register in the same cycle overrides the accepted block. Every value that is
connected is read before the edge.

Here the registers before the edge and the connections so far are two records.
For a core that is in `sSchedule` whenever it holds no block the two are never
both needed, and one edge is `Core.posedge`.
-/

namespace OpenGPU

namespace Chisel

open Verilog Verilog.Decode

namespace Core

variable {cfg : Config}

/-! ## States over earlier connections

An accepted block connects neither an issue register, nor `memThread`, nor the
path memory. What reads no other register needs no second record. -/

section Over

variable (core next : Core cfg)

/-- Defer a path of the issued warp. -/
def pushPathOver (pc : Word) (mask : BitVec cfg.numThreads) : Core cfg :=
  let sp := core.stackSp core.issueWarp.toNat
  let index := core.stackIndex sp.toNat
  { next with
    stackPc := Function.update next.stackPc index.toNat pc
    stackMask := Function.update next.stackMask index.toNat mask
    stackSp := Function.update next.stackSp core.issueWarp.toNat (sp + 1) }

/-- Resume the newest deferred path of the issued warp. -/
def popPathOver : Core cfg :=
  let sp := core.stackSp core.issueWarp.toNat
  let index := core.stackIndex (sp.toNat - 1)
  { next with
    stackSp := Function.update next.stackSp core.issueWarp.toNat (sp - 1)
    warpPc := Function.update next.warpPc core.issueWarp.toNat (core.stackPc index.toNat)
    warpMask := Function.update next.warpMask core.issueWarp.toNat
      (core.stackMask index.toNat) }

/-- `isEbreak`. -/
def execEbreakOver : Core cfg :=
  nextWarp <|
    if core.stackSp core.issueWarp.toNat ≠ 0 then core.popPathOver next
    else
      { next with
        warpValid := Function.update next.warpValid core.issueWarp.toNat false }

/-- `isBranch`. -/
def execBranchOver : Core cfg :=
  let target := core.issuePc + immB core.issueInst
  let follow := core.issuePc + 4
  nextWarp <|
    if !branchSupported (funct3 core.issueInst) then next.raise
    else if core.takenMask ≠ 0 ∧ core.fallMask ≠ 0 then
      if (core.stackSp core.issueWarp.toNat).toNat = Verilog.stackDepth then next.raise
      else (core.pushPathOver next target core.takenMask).setPath follow core.fallMask
    else if core.takenMask ≠ 0 then next.setPath target core.takenMask
    else next.setPath follow core.fallMask

/-- The remaining opcodes. -/
def execLanesOver (coreId : Nat) : Core cfg :=
  let written :=
    { next with gprs := (List.range cfg.numThreads).foldl (laneWrite coreId core) next.gprs }
  nextWarp <|
    if !opcodeSupported core.issueInst ||
        (opcode core.issueInst == 0b1100111 && core.jalrDivergent) then written.raise
    else
      { written with
        warpPc := Function.update next.warpPc core.issueWarp.toNat core.nextPcOf }

/-- `sExecute`. -/
def executeOver (coreId : Nat) : Core cfg :=
  if badRegister core.issueInst then { next.raise with state := .sched }
  else if opcode core.issueInst = load ∨ opcode core.issueInst = store then
    { next with memThread := 0, state := .memReq }
  else if core.issueInst = ebreak then core.execEbreakOver next
  else if opcode core.issueInst = branch then core.execBranchOver next
  else core.execLanesOver next coreId

/-- `sMemResp` with a response. -/
def memoryResponseOver (rdata : Word) : Core cfg :=
  let base := regBase (core.context core.memThread.toNat)
  let gprs :=
    if opcode core.issueInst = load ∧ rd core.issueInst ≠ 0 then
      Function.update next.gprs (registerIndex base (rd core.issueInst)).toNat
        (core.loaded rdata)
    else next.gprs
  advanceMem { next with gprs := Function.update gprs base.toNat 0 }

end Over

/-- One clock edge, the connections in the order of the source. -/
def connected {numCores : Nat} (coreId : Nat) (reset : Bool) (ctaValid : Bool)
    (kmu : Kmu numCores) (buses : Buses) (core : Core cfg) : Core cfg :=
  if reset then GPUCore.reset core
  else
    let next := if ctaValid && !core.ctaActive then acceptCta kmu core else core
    match core.state with
    | .sched => if core.ctaActive then schedule buses.instReqReady core else next
    | .fetch =>
        match buses.instResp with
        | some data => { next with issueInst := data, state := .exec }
        | none => next
    | .exec => core.executeOver next coreId
    | .memReq => memoryRequest buses.dataReqReady next
    | .memResp =>
        match buses.dataResp with
        | some rdata => core.memoryResponseOver next rdata
        | none => next

/-- In a core that is in `sSchedule` whenever it holds no block, no state meets
an accepted block. -/
theorem connected_eq_posedge
    {numCores : Nat}
    {core : Core cfg}
    (settled : GPUCore.Settled core)
    (coreId : Nat)
    (reset ctaValid : Bool)
    (kmu : Kmu numCores)
    (buses : Buses) :
    connected coreId reset ctaValid kmu buses core =
      posedge coreId reset ctaValid kmu buses core := by
  unfold connected posedge
  refine ite_congr rfl (fun _ => rfl) fun _ => ?_
  cases fires : ctaValid && !core.ctaActive with
  | false => rfl
  | true =>
      -- an accepted block finds the core released, hence in `sSchedule`
      rw [Bool.and_eq_true, Bool.not_eq_true'] at fires
      rw [settled fires.2, fires.2]
      rfl

end Core

end Chisel

end OpenGPU
