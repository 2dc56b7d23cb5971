import OpenGPU.Foundation.Clocked
import OpenGPU.Lockstep.SameCore

/-!
# Index registers stay in the topology

The warp and lane registers of the SystemVerilog core name elements of the
topology and no path stack overflows, from reset on and across every edge.
-/

namespace OpenGPU

open Verilog

namespace Verilog.GPUCore

variable {cfg : Config} {h : GPUCore cfg}

/-- After reset every index register is zero. -/
theorem inRange_reset
    (h : GPUCore cfg) :
    h.reset.InRange where
  warp := by
    show (0#(indexBits cfg.numWarps)).toNat < cfg.numWarps
    rw [BitVec.toNat_zero]
    exact cfg.numWarps_pos
  thread := by
    show (0#(indexBits cfg.numThreads)).toNat < cfg.numThreads
    rw [BitVec.toNat_zero]
    exact cfg.numThreads_pos
  sp _ _ := Nat.zero_le _

namespace InRange

/-- A stack pointer of the issued warp may be replaced by one in range. -/
theorem setSp
    (inRange : h.InRange)
    {sp : BitVec 4}
    (bounded : sp.toNat ≤ stackDepth)
    (w : Nat)
    (warp : w < cfg.numWarps) :
    (Function.update h.stackSp h.warp sp w).toNat ≤ stackDepth := by
  rw [Function.update_apply]
  split_ifs
  · exact bounded
  · exact inRange.sp w warp

/-- The next lane of the memory loop. -/
theorem nextThread
    (inRange : h.InRange)
    (more : h.lastThread = false) :
    (h.memThread + 1).toNat < cfg.numThreads := by
  have room := le_two_pow_indexBits cfg.numThreads
  have positive := cfg.numThreads_pos
  have thread := inRange.thread
  have before : h.memThread.toNat ≠ cfg.numThreads - 1 := by
    intro last
    rw [lastThread, beq_eq_false_iff_ne] at more
    apply more
    apply BitVec.eq_of_toNat_eq
    rw [last, BitVec.toNat_ofNat, Nat.mod_eq_of_lt (by omega)]
  have one : (1 : BitVec (indexBits cfg.numThreads)).toNat ≤ 1 := by
    show (BitVec.ofNat _ 1).toNat ≤ 1
    rw [BitVec.toNat_ofNat]
    exact Nat.mod_le _ _
  rw [BitVec.toNat_add]
  exact Nat.lt_of_le_of_lt (Nat.mod_le _ _) (by omega)

theorem schedule
    (inRange : h.InRange) :
    h.schedule.InRange := by
  unfold GPUCore.schedule
  cases found : circularFirst cfg.numWarps h.rrWarp.toNat h.warpValid with
  | none => exact { inRange with }
  | some selected =>
      have room := le_two_pow_indexBits cfg.numWarps
      have winner := circularFirst_lt found
      refine { inRange with warp := ?_ }
      show (BitVec.ofNat (indexBits cfg.numWarps) selected).toNat < cfg.numWarps
      rw [BitVec.toNat_ofNat]
      exact Nat.lt_of_le_of_lt (Nat.mod_le _ _) winner

theorem execEbreak
    (inRange : h.InRange) :
    h.execEbreak.InRange := by
  unfold GPUCore.execEbreak
  split_ifs with deferred
  · refine { inRange with sp := inRange.setSp ?_ }
    have bounded := inRange.sp _ inRange.warp
    have positive : (h.stackSp h.warp).toNat ≠ 0 := fun zero =>
      deferred (BitVec.eq_of_toNat_eq zero)
    have small := (h.stackSp h.warp).isLt
    have top : (h.stackSp h.warp).toNat ≤ 8 := bounded
    rw [BitVec.toNat_sub, show (1 : BitVec 4).toNat = 1 from rfl, show stackDepth = 8 from rfl]
    omega
  · exact { inRange with }

theorem execBranch
    (inRange : h.InRange) :
    h.execBranch.InRange := by
  unfold GPUCore.execBranch
  dsimp only
  split_ifs with reserved both full some
  · exact { inRange with }
  · exact { inRange with }
  · refine { inRange with sp := inRange.setSp ?_ }
    have room : (h.stackSp h.warp).toNat < 8 :=
      Nat.not_le.mp (decide_eq_false_iff_not.mp (Bool.not_eq_true _ ▸ full))
    rw [BitVec.toNat_add, show (1 : BitVec 4).toNat = 1 from rfl, show stackDepth = 8 from rfl]
    omega
  · exact { inRange with }
  · exact { inRange with }

theorem execLanes
    (inRange : h.InRange)
    (coreId : Nat) :
    (h.execLanes coreId).InRange := by
  unfold GPUCore.execLanes
  dsimp only
  split_ifs
  · exact { inRange with }
  · exact { inRange with }

theorem execute
    (inRange : h.InRange)
    (coreId : Nat) :
    (h.execute coreId).InRange := by
  unfold GPUCore.execute
  split_ifs with illegal memory retire jump
  · exact { inRange with }
  · refine { inRange with thread := ?_ }
    show (0#(indexBits cfg.numThreads)).toNat < cfg.numThreads
    rw [BitVec.toNat_zero]
    exact cfg.numThreads_pos
  · exact inRange.execEbreak
  · exact inRange.execBranch
  · exact inRange.execLanes coreId

theorem memoryRequest
    (inRange : h.InRange) :
    h.memoryRequest.InRange := by
  unfold GPUCore.memoryRequest
  split_ifs with idle last
  · exact { inRange with }
  · exact { inRange with thread := inRange.nextThread (Bool.not_eq_true _ ▸ last) }
  · exact { inRange with }

theorem memoryResponse
    (inRange : h.InRange)
    (rdata : Word) :
    (h.memoryResponse rdata).InRange := by
  unfold GPUCore.memoryResponse
  dsimp only
  cases last : h.lastThread with
  | true => exact { inRange with }
  | false => exact { inRange with thread := inRange.nextThread last }

/-- Every edge keeps the index registers in range. -/
theorem posedge
    (inRange : h.InRange)
    {numCores : Nat}
    (coreId : Nat)
    (reset ctaValid : Bool)
    (kmu : GPUKmu numCores)
    (imemRdata dmemRdata : Word) :
    (h.posedge coreId reset ctaValid kmu imemRdata dmemRdata).InRange := by
  unfold GPUCore.posedge
  split_ifs
  · exact inRange_reset h
  · exact { inRange with sp := fun _ _ => Nat.zero_le _ }
  · cases h.state with
    | sched => exact inRange.schedule
    | fetch => exact { inRange with }
    | exec => exact inRange.execute coreId
    | memReq => exact inRange.memoryRequest
    | memResp => exact inRange.memoryResponse dmemRdata
  · exact inRange

end InRange

/-- The index registers are in range in every state after reset, whatever the
dispatcher and the memories drive. -/
theorem inRange_stateAt
    {numCores : Nat}
    (coreId : Nat)
    (h : GPUCore cfg)
    (inputs : Nat → Bool × Bool × GPUKmu numCores × Word × Word)
    (time : Nat) :
    (stateAt (fun core input =>
      posedge coreId input.1 input.2.1 input.2.2.1 input.2.2.2.1 input.2.2.2.2 core)
      h.reset inputs time).InRange :=
  stateAt_invariant InRange (inRange_reset h)
    (fun edge _ inRange => inRange.posedge coreId (inputs edge).1 (inputs edge).2.1
      (inputs edge).2.2.1 (inputs edge).2.2.2.1 (inputs edge).2.2.2.2) time

end Verilog.GPUCore

end OpenGPU
