import OpenGPU.Verilog.Core

/-!
# How a core holds and releases a block

One edge of `GPUCore` seen from outside: a core takes a block only when it is
ready, keeps what it latched until it lets go, and lets go only because an
instruction faulted or because no warp is left.
-/

namespace OpenGPU

namespace Verilog

namespace GPUCore

open Decode

variable {cfg : Config}

/-- The conditional branch in `EXEC` faults. -/
def branchFaults (core : GPUCore cfg) : Bool :=
  !core.branchSupported ||
    decide (core.takenMask ≠ 0 ∧ core.fallMask ≠ 0) && core.stackFull

/-- The lane loop in `EXEC` faults. -/
def lanesFault (coreId : Nat) (core : GPUCore cfg) : Bool :=
  !(laneLoop coreId core).supported || (laneLoop coreId core).divergentTarget

/-- The instruction in `EXEC` faults. -/
def instructionFaults (coreId : Nat) (core : GPUCore cfg) : Bool :=
  if badRegister core.issueInst then true
  else if opcode core.issueInst = load ∨ opcode core.issueInst = store then false
  else if core.issueInst = ebreak then false
  else if opcode core.issueInst = branch then core.branchFaults
  else core.lanesFault coreId

/-- An active core is about to execute a faulting instruction. -/
def executesFault (coreId : Nat) (core : GPUCore cfg) : Bool :=
  core.ctaActive && core.state == .exec && core.instructionFaults coreId

/-- What a core keeps of the block it latched. -/
structure Latched where
  block : Dim3
  dim : Dim3
  grid : Dim3
  argsAddr : Word

/-- The latched registers. -/
def latched (core : GPUCore cfg) : Latched :=
  ⟨core.block, core.dim, core.grid, core.argsAddr⟩

/-- What the core shows to the dispatcher and the host. -/
structure Outside where
  ctaActive : Bool
  faultR : Bool
  latched : Latched

/-- The outside view of a core. -/
def outside (core : GPUCore cfg) : Outside :=
  ⟨core.ctaActive, core.faultR, core.latched⟩

@[simp] theorem outside_advanceWarp
    (core : GPUCore cfg) :
    core.advanceWarp.outside = core.outside := rfl

@[simp] theorem outside_raise
    (core : GPUCore cfg) :
    core.raise.outside = ⟨false, true, core.latched⟩ := rfl

@[simp] theorem outside_setPath
    (core : GPUCore cfg)
    (pc : Word)
    (mask : BitVec cfg.numThreads) :
    (core.setPath pc mask).outside = core.outside := rfl

@[simp] theorem outside_pushPath
    (core : GPUCore cfg)
    (pc : Word)
    (mask : BitVec cfg.numThreads) :
    (core.pushPath pc mask).outside = core.outside := rfl

theorem outside_execEbreak
    (core : GPUCore cfg) :
    core.execEbreak.outside = core.outside := by
  unfold execEbreak
  split_ifs <;> rfl

theorem outside_execBranch
    (core : GPUCore cfg) :
    core.execBranch.outside =
      if core.branchFaults then ⟨false, true, core.latched⟩ else core.outside := by
  unfold execBranch branchFaults
  cases core.branchSupported with
  | false => rfl
  | true =>
      by_cases taken : core.takenMask = BitVec.ofNat cfg.numThreads 0
      · simp [taken]
      · by_cases fall : core.fallMask = BitVec.ofNat cfg.numThreads 0
        · simp [taken, fall]
        · cases core.stackFull <;> simp [taken, fall]

theorem outside_execLanes
    (coreId : Nat)
    (core : GPUCore cfg) :
    (execLanes coreId core).outside =
      if core.lanesFault coreId then ⟨false, true, core.latched⟩ else core.outside := by
  cases faults : core.lanesFault coreId with
  | true =>
      unfold lanesFault at faults
      simp only [execLanes, faults, if_true]
      rfl
  | false =>
      unfold lanesFault at faults
      simp only [execLanes, faults, Bool.false_eq_true, if_false]
      rfl

/-- `EXEC` lets go of the block exactly when the instruction faults. -/
theorem outside_execute
    (coreId : Nat)
    (core : GPUCore cfg) :
    (execute coreId core).outside =
      if core.instructionFaults coreId then ⟨false, true, core.latched⟩
      else core.outside := by
  unfold execute instructionFaults
  by_cases registers : badRegister core.issueInst = true
  · simp only [registers, if_true]
    rfl
  by_cases memory : opcode core.issueInst = load ∨ opcode core.issueInst = store
  · simp only [registers, memory, if_true, if_false, Bool.false_eq_true]
    rfl
  by_cases word : core.issueInst = ebreak
  · simp only [if_neg registers, if_neg memory, if_pos word, if_false, Bool.false_eq_true]
    exact outside_execEbreak core
  by_cases branches : opcode core.issueInst = branch
  · simp only [if_neg registers, if_neg memory, if_neg word, if_pos branches]
    exact outside_execBranch core
  · simp only [if_neg registers, if_neg memory, if_neg word, if_neg branches]
    exact outside_execLanes coreId core

theorem outside_memoryRequest
    (core : GPUCore cfg) :
    core.memoryRequest.outside = core.outside := by
  unfold memoryRequest
  split_ifs <;> rfl

theorem outside_memoryResponse
    (rdata : Word)
    (core : GPUCore cfg) :
    (memoryResponse rdata core).outside = core.outside := by
  unfold memoryResponse
  by_cases last : core.lastThread = true
  · simp only [last, if_true]
    rfl
  · simp only [last]
    rfl

/-- The warp that `SCHED` would issue. -/
def nextWarp (core : GPUCore cfg) : Option Nat :=
  circularFirst cfg.numWarps core.rrWarp.toNat core.warpValid

/-- `SCHED` lets go of the block exactly when no warp is left. -/
theorem outside_schedule
    (core : GPUCore cfg) :
    core.schedule.outside =
      if core.nextWarp = none then ⟨false, core.faultR, core.latched⟩
      else core.outside := by
  unfold schedule nextWarp
  cases circularFirst cfg.numWarps core.rrWarp.toNat core.warpValid <;> rfl

/-- An active core in `SCHED` has no warp left. -/
def retiresBlock (core : GPUCore cfg) : Bool :=
  core.ctaActive && core.state == .sched && core.nextWarp == none

/-- `SCHED` finds no warp exactly when every warp is invalid. -/
theorem nextWarp_eq_none_iff
    (core : GPUCore cfg) :
    core.nextWarp = none ↔ ∀ w, w < cfg.numWarps → core.warpValid w = false :=
  circularFirst_eq_none_iff

/-- One edge outside reset, as the dispatcher and the host see it: the core takes
the offered block, faults, retires its block, or keeps everything. -/
theorem outside_posedge
    {numCores : Nat}
    (coreId : Nat)
    (ctaValid : Bool)
    (kmu : GPUKmu numCores)
    (imemRdata dmemRdata : Word)
    (core : GPUCore cfg) :
    (core.posedge coreId false ctaValid kmu imemRdata dmemRdata).outside =
      if ctaValid && core.ctaReady then
        ⟨true, false, ⟨kmu.blockIdx, kmu.blockDim, kmu.gridDim, kmu.argsAddr⟩⟩
      else if core.executesFault coreId then ⟨false, true, core.latched⟩
      else if core.retiresBlock then ⟨false, core.faultR, core.latched⟩
      else core.outside := by
  unfold posedge executesFault retiresBlock
  cases accepts : ctaValid && core.ctaReady with
  | true => simp; rfl
  | false =>
      cases active : core.ctaActive with
      | false => simp
      | true =>
          cases state : core.state with
          | sched => simp [outside_schedule]
          | fetch => simp [outside, latched, active]
          | exec => simp [outside_execute]
          | memReq => simp [outside_memoryRequest]
          | memResp => simp [outside_memoryResponse]

/-- A core without a block is in `SCHED`. -/
def Settled (core : GPUCore cfg) : Prop := core.ctaActive = false → core.state = .sched

/-- A settled core is ready exactly when it holds no block. -/
theorem Settled.ctaReady
    {core : GPUCore cfg}
    (settled : core.Settled) :
    core.ctaReady = !core.ctaActive := by
  unfold GPUCore.ctaReady
  cases active : core.ctaActive with
  | false => simp [settled active]
  | true => rfl

/-- A faulting instruction leaves the core in `SCHED`. -/
theorem execute_state
    {coreId : Nat}
    {core : GPUCore cfg}
    (faults : core.instructionFaults coreId = true) :
    (execute coreId core).state = .sched := by
  unfold instructionFaults at faults
  unfold execute
  split_ifs at faults ⊢ <;> rfl

/-- Every edge keeps the core settled. -/
theorem Settled.posedge
    {numCores : Nat}
    {core : GPUCore cfg}
    (settled : core.Settled)
    (coreId : Nat)
    (reset ctaValid : Bool)
    (kmu : GPUKmu numCores)
    (imemRdata dmemRdata : Word) :
    (core.posedge coreId reset ctaValid kmu imemRdata dmemRdata).Settled := by
  intro released
  cases reset with
  | true => rfl
  | false =>
      have seen := congrArg Outside.ctaActive
        (outside_posedge coreId ctaValid kmu imemRdata dmemRdata core)
      rw [show (GPUCore.outside _).ctaActive = _ from released] at seen
      unfold GPUCore.posedge at released ⊢
      cases accepts : ctaValid && core.ctaReady with
      | true => rfl
      | false =>
          cases active : core.ctaActive with
          | false => simpa [accepts, active] using settled active
          | true =>
              simp only [accepts, Bool.false_eq_true, if_false, if_true] at seen ⊢
              cases state : core.state with
              | sched =>
                  unfold schedule
                  cases found : circularFirst cfg.numWarps core.rrWarp.toNat core.warpValid with
                  | none => exact state
                  | some selected =>
                      simp [executesFault, retiresBlock, nextWarp, state, found, outside,
                        active] at seen
              | fetch => simp [executesFault, retiresBlock, state, outside, active] at seen
              | exec =>
                  apply execute_state
                  by_contra clean
                  simp [executesFault, retiresBlock, state, outside, active, clean] at seen
              | memReq => simp [executesFault, retiresBlock, state, outside, active] at seen
              | memResp => simp [executesFault, retiresBlock, state, outside, active] at seen

end GPUCore

end Verilog

end OpenGPU
