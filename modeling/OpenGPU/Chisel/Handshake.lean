import OpenGPU.Chisel.Mem

/-!
# The bus handshake of the Chisel core

The core and its two memories are three machines with their own update
conditions. Together they keep one invariant: a memory has an answer pending
exactly in the state that waits for it, and a core without a block is in
`sSchedule`. So no request waits.
-/

namespace OpenGPU

namespace Chisel

open Verilog Verilog.Decode

namespace Core

variable {cfg : Config}

/-! ## States of the core -/

/-- A word that leaves `sExecute` for the memory states. -/
def accesses (inst : Word) : Bool :=
  !badRegister inst && (opcode inst == load || opcode inst == store)

theorem state_execute
    (coreId : Nat)
    (core : Core cfg) :
    (execute coreId core).state = if accesses core.issueInst then .memReq else .sched := by
  unfold execute accesses
  split_ifs with bad memory <;> simp_all <;> rfl

/-- A load or store with good registers leaves for the memory states. -/
theorem execute_of_accesses
    {core : Core cfg}
    (memory : accesses core.issueInst = true)
    (coreId : Nat) :
    execute coreId core = { core with memThread := 0, state := .memReq } := by
  rw [accesses, Bool.and_eq_true, Bool.not_eq_true', Bool.or_eq_true, beq_iff_eq,
    beq_iff_eq] at memory
  unfold execute
  rw [memory.1, if_neg Bool.false_ne_true, if_pos memory.2]

/-- Only a core that goes back to `sSchedule` lets go of its block. -/
theorem settled_execute
    {core : Core cfg}
    (active : core.ctaActive = true)
    (coreId : Nat) :
    GPUCore.Settled (execute coreId core) := by
  intro released
  rw [state_execute]
  cases memory : accesses core.issueInst with
  | false => rfl
  | true =>
      rw [execute_of_accesses memory] at released
      exact absurd (active.symm.trans released) (by decide)

/-- The state in which a core leaves a lane. -/
def stateAfterLane (core : Core cfg) : Fsm :=
  if core.memThread = BitVec.ofNat _ (cfg.numThreads - 1) then .sched else .memReq

theorem state_advanceMem
    (core : Core cfg) :
    (advanceMem core).state = core.stateAfterLane := by
  unfold advanceMem stateAfterLane
  split_ifs <;> rfl

theorem ctaActive_advanceMem
    (core : Core cfg) :
    (advanceMem core).ctaActive = core.ctaActive := by
  unfold advanceMem
  split_ifs <;> rfl

/-- A core that holds a block takes no other. -/
theorem posedge_of_active
    {numCores : Nat}
    {core : Core cfg}
    (active : core.ctaActive = true)
    (coreId : Nat)
    (ctaValid : Bool)
    (kmu : Kmu numCores)
    (buses : Buses) :
    posedge coreId false ctaValid kmu buses core =
      match core.state with
      | .sched => schedule buses.instReqReady core
      | .fetch =>
          match buses.instResp with
          | some data => { core with issueInst := data, state := .exec }
          | none => core
      | .exec => execute coreId core
      | .memReq => memoryRequest buses.dataReqReady core
      | .memResp =>
          match buses.dataResp with
          | some rdata => memoryResponse rdata core
          | none => core := by
  unfold posedge
  rw [active, Bool.not_true, Bool.and_false, if_neg Bool.false_ne_true, if_neg Bool.false_ne_true]
  rfl

end Core

namespace CoreTile

variable {cfg : Config} {numCores : Nat} {tile : CoreTile cfg}

/-! ## The joint invariant -/

/-- Each memory has an answer pending exactly in the state that waits for it. -/
structure Handshaking (tile : CoreTile cfg) : Prop where
  inst : tile.imem.pending = true ↔ tile.core.state = .fetch
  data : tile.dmem.pending = true ↔ tile.core.state = .memResp
  settled : GPUCore.Settled tile.core

namespace Handshaking

variable (shake : tile.Handshaking)

include shake

/-- A core outside `sSchedule` holds a block. -/
theorem active
    (away : tile.core.state ≠ .sched) :
    tile.core.ctaActive = true := by
  by_contra released
  exact away (shake.settled (Bool.eq_false_of_not_eq_true released))

/-- A request for an instruction is accepted at once. -/
theorem instReqFire_eq :
    tile.instReqFire = tile.core.instReqValid := by
  unfold instReqFire SimDataMem.reqReady
  cases valid : tile.core.instReqValid with
  | false => rfl
  | true =>
      have scheduling : tile.core.state = .sched := by
        unfold Core.instReqValid at valid
        simp_all
      have free : tile.imem.pending = false := by
        by_contra waits
        have fetching := shake.inst.mp (Bool.eq_true_of_not_eq_false waits)
        rw [scheduling] at fetching
        exact absurd fetching (by decide)
      rw [free]
      rfl

/-- A request for data is accepted at once. -/
theorem dataReqFire_eq :
    tile.dataReqFire = tile.core.reqValid := by
  unfold dataReqFire SimDataMem.reqReady
  cases valid : tile.core.reqValid with
  | false => rfl
  | true =>
      have asking : tile.core.state = .memReq := by
        unfold Core.reqValid at valid
        simp_all
      have free : tile.dmem.pending = false := by
        by_contra waits
        have answering := shake.data.mp (Bool.eq_true_of_not_eq_false waits)
        rw [asking] at answering
        exact absurd answering (by decide)
      rw [free]
      rfl

/-- An answer for an instruction is taken at once. -/
theorem instRespFire_eq :
    tile.instRespFire = tile.imem.pending := by
  unfold instRespFire Core.instRespReady
  cases pending : tile.imem.pending with
  | false => rfl
  | true =>
      rw [shake.inst.mp pending]
      rfl

/-- An answer for data is taken at once. -/
theorem dataRespFire_eq :
    tile.dataRespFire = tile.dmem.pending := by
  unfold dataRespFire Core.dataRespReady
  cases pending : tile.dmem.pending with
  | false => rfl
  | true =>
      rw [shake.data.mp pending]
      rfl

/-- The edge of the core, with what the memories drive in each state. -/
theorem core_posedge
    (active : tile.core.ctaActive = true)
    (coreId : Nat)
    {inputs : TileInputs numCores}
    (running : inputs.reset = false) :
    (tile.posedge coreId inputs).core =
      match tile.core.state with
      | .sched => Core.schedule true tile.core
      | .fetch => { tile.core with issueInst := tile.imem.response, state := .exec }
      | .exec => Core.execute coreId tile.core
      | .memReq => Core.memoryRequest true tile.core
      | .memResp => Core.memoryResponse tile.dmem.response tile.core := by
  show tile.core.connected coreId inputs.reset inputs.ctaValid inputs.kmu tile.buses = _
  have inst := shake.inst
  have data := shake.data
  rw [running, Core.connected_eq_posedge shake.settled, Core.posedge_of_active active]
  unfold buses SimDataMem.reqReady SimDataMem.resp
  cases state : tile.core.state <;> rw [state] at inst data <;> simp_all

/-- The edge of a core without a block. -/
theorem core_posedge_idle
    (idle : tile.core.ctaActive = false)
    (coreId : Nat)
    {inputs : TileInputs numCores}
    (running : inputs.reset = false) :
    (tile.posedge coreId inputs).core =
      if inputs.ctaValid then Core.acceptCta inputs.kmu tile.core else tile.core := by
  show tile.core.connected coreId inputs.reset inputs.ctaValid inputs.kmu tile.buses = _
  rw [running, Core.connected_eq_posedge shake.settled]
  unfold Core.posedge
  rw [shake.settled idle, idle, Bool.not_false, Bool.and_true, if_neg Bool.false_ne_true]
  rfl

/-- The states of a core that never waits. -/
theorem state_posedge
    (coreId : Nat)
    {inputs : TileInputs numCores}
    (running : inputs.reset = false) :
    (tile.posedge coreId inputs).core.state =
      match tile.core.state with
      | .sched => if tile.core.instReqValid then .fetch else .sched
      | .fetch => .exec
      | .exec => if Core.accesses tile.core.issueInst then .memReq else .sched
      | .memReq => if tile.core.memLaneActive then .memResp else tile.core.stateAfterLane
      | .memResp => tile.core.stateAfterLane := by
  cases active : tile.core.ctaActive with
  | false =>
      have resting := shake.settled active
      rw [shake.core_posedge_idle active coreId running, resting]
      unfold Core.instReqValid
      split_ifs <;> simp_all [Core.acceptCta]
  | true =>
      rw [shake.core_posedge active coreId running]
      cases state : tile.core.state with
      | sched =>
          unfold Core.schedule Core.instReqValid
          split_ifs <;> simp_all
      | fetch => rfl
      | exec => exact Core.state_execute coreId tile.core
      | memReq =>
          unfold Core.memoryRequest
          cases tile.core.memLaneActive with
          | false => exact Core.state_advanceMem tile.core
          | true => rfl
      | memResp => exact Core.state_advanceMem _

/-- The core enters `sFetch` exactly when it asks for an instruction. -/
theorem fetch_iff
    (coreId : Nat)
    {inputs : TileInputs numCores}
    (running : inputs.reset = false) :
    (tile.posedge coreId inputs).core.state = .fetch ↔ tile.core.instReqValid = true := by
  rw [shake.state_posedge coreId running]
  unfold Core.instReqValid Core.stateAfterLane
  cases tile.core.state <;> split_ifs <;> simp_all

/-- The core enters `sMemResp` exactly when it asks for data. -/
theorem memResp_iff
    (coreId : Nat)
    {inputs : TileInputs numCores}
    (running : inputs.reset = false) :
    (tile.posedge coreId inputs).core.state = .memResp ↔ tile.core.reqValid = true := by
  rw [shake.state_posedge coreId running]
  unfold Core.reqValid Core.stateAfterLane
  cases tile.core.state <;> split_ifs <;> simp_all

/-- The instruction memory has an answer pending after an edge with a request. -/
theorem imem_pending_posedge
    (coreId : Nat)
    {inputs : TileInputs numCores}
    (running : inputs.reset = false) :
    (tile.posedge coreId inputs).imem.pending = tile.core.instReqValid := by
  show (SimDataMem.posedge inputs.reset tile.instReqFire tile.instRespFire _ _).pending = _
  rw [running, shake.instRespFire_eq, shake.instReqFire_eq, SimDataMem.posedge]
  cases pending : tile.imem.pending with
  | false => cases tile.core.instReqValid <;> rfl
  | true =>
      have fetching := shake.inst.mp pending
      unfold Core.instReqValid
      rw [fetching]
      simp

/-- The data memory has an answer pending after an edge with a request. -/
theorem dmem_pending_posedge
    (coreId : Nat)
    {inputs : TileInputs numCores}
    (running : inputs.reset = false) :
    (tile.posedge coreId inputs).dmem.pending = tile.core.reqValid := by
  show (SimDataMem.posedge inputs.reset tile.dataReqFire tile.dataRespFire _ _).pending = _
  rw [running, shake.dataRespFire_eq, shake.dataReqFire_eq, SimDataMem.posedge]
  cases pending : tile.dmem.pending with
  | false => cases tile.core.reqValid <;> rfl
  | true =>
      have answering := shake.data.mp pending
      unfold Core.reqValid
      rw [answering]
      simp

/-- A core that lets go of its block is in `sSchedule`. -/
theorem settled_posedge
    (coreId : Nat)
    {inputs : TileInputs numCores}
    (running : inputs.reset = false) :
    GPUCore.Settled (tile.posedge coreId inputs).core := by
  cases active : tile.core.ctaActive with
  | false =>
      rw [shake.core_posedge_idle active coreId running]
      intro _
      split_ifs
      · rfl
      · exact shake.settled active
  | true =>
      have stays : ∀ next : Core cfg, next.ctaActive = tile.core.ctaActive →
          GPUCore.Settled next := by
        intro next same released
        rw [same, active] at released
        exact absurd released (by decide)
      rw [shake.core_posedge active coreId running]
      cases state : tile.core.state with
      | sched =>
          unfold Core.schedule
          dsimp only
          rw [if_pos rfl]
          split_ifs
          · exact stays _ rfl
          · exact fun _ => state
      | fetch => exact stays _ rfl
      | exec => exact Core.settled_execute active coreId
      | memReq =>
          unfold Core.memoryRequest
          dsimp only
          rw [if_pos rfl]
          split_ifs
          · exact stays _ (Core.ctaActive_advanceMem tile.core)
          · exact stays _ rfl
      | memResp => exact stays _ (Core.ctaActive_advanceMem _)

end Handshaking

/-- A reset edge sets up the invariant. -/
theorem handshaking_reset
    (tile : CoreTile cfg)
    (coreId : Nat)
    {inputs : TileInputs numCores}
    (asserted : inputs.reset = true) :
    (tile.posedge coreId inputs).Handshaking := by
  have core : (tile.posedge coreId inputs).core = GPUCore.reset tile.core := if_pos asserted
  have inst : (tile.posedge coreId inputs).imem.pending = false := if_pos asserted
  have data : (tile.posedge coreId inputs).dmem.pending = false := if_pos asserted
  refine ⟨?_, ?_, ?_⟩
  · rw [inst, core]
    exact iff_of_false Bool.false_ne_true Fsm.noConfusion
  · rw [data, core]
    exact iff_of_false Bool.false_ne_true Fsm.noConfusion
  · rw [core]
    exact fun _ => rfl

/-- Every edge keeps the invariant. -/
theorem Handshaking.posedge
    (shake : tile.Handshaking)
    (coreId : Nat)
    (inputs : TileInputs numCores) :
    (tile.posedge coreId inputs).Handshaking := by
  cases running : inputs.reset with
  | true => exact tile.handshaking_reset coreId running
  | false =>
      refine ⟨?_, ?_, shake.settled_posedge coreId running⟩
      · rw [shake.imem_pending_posedge coreId running, shake.fetch_iff coreId running]
      · rw [shake.dmem_pending_posedge coreId running, shake.memResp_iff coreId running]

/-- The invariant holds in every state that resets and other edges can reach. -/
theorem Reachable.handshaking
    {coreId : Nat}
    (reachable : Reachable numCores coreId tile) :
    tile.Handshaking := by
  induction reachable with
  | reset tile inputs asserted => exact tile.handshaking_reset coreId asserted
  | edge inputs _ inductionHypothesis => exact inductionHypothesis.posedge coreId inputs

end CoreTile

end Chisel

end OpenGPU
