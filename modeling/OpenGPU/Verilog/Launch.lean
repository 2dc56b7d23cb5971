import OpenGPU.Dispatch.Completion
import OpenGPU.Foundation.RoundRobin
import OpenGPU.Platform.Launch

/-!
# The SystemVerilog GPU: runs of a launch

A launch edge from any state that a history can reach, then edges that assert
nothing, whatever the memories answer. The dispatcher rotates over the cores, and
a core that has taken a block keeps the global IDs of its threads until it takes
another one.
-/

namespace OpenGPU

namespace Verilog

/-- The configuration registers after `configure_model`. -/
def kmuConfig (info : LaunchInfo) (blockSize : Word) : KmuConfig where
  startupPc := info.entry
  argsAddr := info.argsAddr
  argsSize := info.argsSize
  blockDim := info.blockDim
  gridDim := info.gridDim
  blockSize := blockSize

namespace GPUCore

variable {cfg : Config}

theorem globalId_execEbreak (core : GPUCore cfg) :
    core.execEbreak.globalId = core.globalId := by
  unfold execEbreak
  split_ifs <;> rfl

theorem globalId_execBranch (core : GPUCore cfg) :
    core.execBranch.globalId = core.globalId := by
  unfold execBranch
  extract_lets target follow
  split_ifs <;> rfl

theorem globalId_execLanes (coreId : Nat) (core : GPUCore cfg) :
    (execLanes coreId core).globalId = core.globalId := by
  unfold execLanes
  extract_lets acc written
  split_ifs <;> rfl

theorem globalId_execute (coreId : Nat) (core : GPUCore cfg) :
    (execute coreId core).globalId = core.globalId := by
  unfold execute
  split_ifs
  · rfl
  · rfl
  · exact globalId_execEbreak core
  · exact globalId_execBranch core
  · exact globalId_execLanes coreId core

/-- Outside reset only taking a block changes the global IDs. -/
theorem globalId_posedge
    {numCores : Nat}
    (coreId : Nat)
    {ctaValid : Bool}
    (kmu : GPUKmu numCores)
    (imemRdata dmemRdata : Word)
    {core : GPUCore cfg}
    (passed : (ctaValid && core.ctaReady) = false) :
    (core.posedge coreId false ctaValid kmu imemRdata dmemRdata).globalId =
      core.globalId := by
  unfold posedge
  rw [if_neg Bool.false_ne_true, passed, if_neg Bool.false_ne_true]
  split_ifs
  · cases core.state with
    | sched =>
        show (schedule core).globalId = core.globalId
        unfold schedule
        cases circularFirst cfg.numWarps core.rrWarp.toNat core.warpValid <;> rfl
    | fetch => rfl
    | exec => exact globalId_execute coreId core
    | memReq =>
        show (memoryRequest core).globalId = core.globalId
        unfold memoryRequest
        split_ifs <;> rfl
    | memResp =>
        show (memoryResponse dmemRdata core).globalId = core.globalId
        unfold memoryResponse
        extract_lets inst base gprs written
        split_ifs <;> rfl
  · rfl

end GPUCore

namespace GPUTop

open GPUKmu

variable {cfg : Config}

/-- Every state after a reset is settled. -/
theorem Reachable.settled
    {top : GPUTop cfg}
    (reachable : Reachable top) :
    top.Settled := by
  induction reachable with
  | reset top inputs asserted =>
      constructor
      · intro core inRange
        rw [posedge_core top inputs inRange, asserted]
        exact fun _ => rfl
      · show (top.kmu.posedge inputs.reset inputs.dcr inputs.launch top.coreReady).rrCore.toNat < _
        rw [asserted]
        exact cfg.numCores_pos
  | edge inputs _ inductionHypothesis => exact inductionHypothesis.posedge inputs

section Launch

variable (top : GPUTop cfg) (atLaunch : ReadData) (rdata : Nat → ReadData)

/-- The state `time` edges after the launch edge. -/
def launchedAt (time : Nat) : GPUTop cfg :=
  stateAt GPUTop.edge (top.launch atLaunch) rdata time

/-- The cores that take blocks, edge by edge. -/
def taking (time : Nat) : Option Nat :=
  if (launchedAt top atLaunch rdata time).kmu.running then
    (launchedAt top atLaunch rdata time).kmu.firstReady
      (launchedAt top atLaunch rdata time).coreReady
  else none

theorem taking_eq_some_iff
    (time core : Nat) :
    taking top atLaunch rdata time = some core ↔
      (launchedAt top atLaunch rdata time).accepts core = true := by
  rw [accepts_iff, taking]
  split_ifs with running <;> simp [running]

theorem ctaFire_eq_taking
    (time : Nat) :
    (launchedAt top atLaunch rdata time).kmu.ctaFire
        (launchedAt top atLaunch rdata time).coreReady =
      (taking top atLaunch rdata time).isSome := by
  rw [ctaFire_eq, taking]
  cases (launchedAt top atLaunch rdata time).kmu.running <;> simp

/-- One edge moves the round-robin register past the core that takes a block. -/
theorem rrCore_launchedAt
    (time : Nat) :
    (launchedAt top atLaunch rdata (time + 1)).kmu.rrCore.toNat =
      match taking top atLaunch rdata time with
      | some core => (core + 1) % cfg.numCores
      | none => (launchedAt top atLaunch rdata time).kmu.rrCore.toNat := by
  have stepped : (launchedAt top atLaunch rdata (time + 1)).kmu =
      (launchedAt top atLaunch rdata time).kmu.dispatch
        (launchedAt top atLaunch rdata time).coreReady := rfl
  have fires := ctaFire_eq_taking top atLaunch rdata time
  rw [stepped]
  rcases dispatch_cases (launchedAt top atLaunch rdata time).kmu
      (launchedAt top atLaunch rdata time).coreReady with
    ⟨running, fired, result⟩ | ⟨quiet, result⟩
  · rw [fired] at fires
    obtain ⟨core, found⟩ := Option.isSome_iff_exists.mp fires.symm
    rw [result, found]
    rw [taking, if_pos running] at found
    exact toNat_rrCoreNext found
  · have nobody : taking top atLaunch rdata time = none := by
      rw [← Option.not_isSome_iff_eq_none, ← fires, quiet]
      exact Bool.false_ne_true
    rw [result, nobody]

variable {top}

/-- The edges of a launch dispatch in rotation. -/
theorem rotatingDispatch
    (settled : top.Settled)
    (bound : Nat) :
    RotatingDispatch cfg.numCores bound (taking top atLaunch rdata)
      (fun time => (launchedAt top atLaunch rdata time).kmu.rrCore.toNat)
      (fun time => (launchedAt top atLaunch rdata time).coreReady) where
  pointer_lt time _ := by
    have kept : (launchedAt top atLaunch rdata time).Settled := by
      unfold launchedAt
      refine stateAt_invariant Settled ?_ (fun edge state held => ?_) time
      · exact settled.posedge (TopInputs.launchPulse atLaunch)
      · exact held.posedge (TopInputs.idle (rdata edge))
    exact kept.rrCore
  chooses time _ core found := by
    rw [taking_eq_some_iff, accepts_iff] at found
    exact found.2
  advances time _ core found := by
    rw [rrCore_launchedAt, found]
  waits time _ quiet := by
    rw [rrCore_launchedAt, quiet]

/-- The configuration and the walk of a launch, with the number of blocks taken
so far. -/
theorem walking
    (positive : top.kmu.gridDim.Positive)
    (time : Nat) :
    ∃ blocks : List Dim3, blocks.length = dispatched (taking top atLaunch rdata) time ∧
      (launchedAt top atLaunch rdata time).kmu.toKmuConfig = top.kmu.toKmuConfig ∧
      Walking top.kmu.gridDim top.kmu.enabled blocks
        (launchedAt top atLaunch rdata time).kmu := by
  induction time with
  | zero =>
      refine ⟨[], rfl, ?_⟩
      show (top.kmu.launch top.coreReady).toKmuConfig = top.kmu.toKmuConfig ∧
        Walking _ _ [] (top.kmu.launch top.coreReady)
      rw [launch_eq positive]
      exact ⟨rfl, rfl, Dim3.Walked.launch positive _⟩
  | succ time inductionHypothesis =>
      obtain ⟨blocks, length, configured, walking⟩ := inductionHypothesis
      have stepped : (launchedAt top atLaunch rdata (time + 1)).kmu =
          (launchedAt top atLaunch rdata time).kmu.dispatch
            (launchedAt top atLaunch rdata time).coreReady := rfl
      refine ⟨blocks ++ (launchedAt top atLaunch rdata time).kmu.firedBlock
        (launchedAt top atLaunch rdata time).coreReady, ?_, ?_, ?_⟩
      · rw [List.length_append, length, dispatched, ← ctaFire_eq_taking, firedBlock]
        cases (launchedAt top atLaunch rdata time).kmu.ctaFire
          (launchedAt top atLaunch rdata time).coreReady <;> rfl
      · rw [stepped, GPUKmu.dispatch, posedge_toKmuConfig, dcrWrite_idle, configured]
      · rw [stepped]
        exact walking.dispatch _

/-- The block that a core takes is the next one of the enumeration. -/
theorem block_eq
    (positive : top.kmu.gridDim.Positive)
    {time core : Nat}
    (found : taking top atLaunch rdata time = some core) :
    dispatched (taking top atLaunch rdata) time < top.kmu.gridDim.count ∧
      (launchedAt top atLaunch rdata time).kmu =
        { (launchedAt top atLaunch rdata time).kmu with
          toKmuConfig := top.kmu.toKmuConfig
          blockIdx :=
            top.kmu.gridDim.blockAt (dispatched (taking top atLaunch rdata) time) } := by
  obtain ⟨blocks, length, configured, walking⟩ := walking atLaunch rdata positive time
  have running : (launchedAt top atLaunch rdata time).kmu.running = true :=
    (accepts_iff.mp ((taking_eq_some_iff top atLaunch rdata time core).mp found)).1
  have inRange := (walking.walked.running_iff.mp running).2
  rw [← length]
  refine ⟨inRange, ?_⟩
  rw [← walking.walked.current inRange, ← configured]

/-- The global IDs of the `b`-th block of a launch. -/
def blockIds (kmu : GPUKmu cfg.numCores) (b : Nat) (x : Nat) : Word :=
  GPUCore.blockLinear { kmu with blockIdx := kmu.gridDim.blockAt b } * kmu.blockSize +
    BitVec.ofNat 32 x

/-- A core that takes a block latches the global IDs of its threads. -/
theorem globalId_of_taking
    (positive : top.kmu.gridDim.Positive)
    {time core : Nat}
    (found : taking top atLaunch rdata time = some core) :
    ((launchedAt top atLaunch rdata (time + 1)).cores core).globalId =
        blockIds top.kmu (dispatched (taking top atLaunch rdata) time) ∧
      ((launchedAt top atLaunch rdata (time + 1)).cores core).ctaActive = true := by
  have taken := (taking_eq_some_iff top atLaunch rdata time core).mp found
  have inRange := lt_of_accepts taken
  have kmu := (block_eq atLaunch rdata positive found).2
  have latched : (launchedAt top atLaunch rdata (time + 1)).cores core =
      GPUCore.acceptCta (launchedAt top atLaunch rdata time).kmu
        ((launchedAt top atLaunch rdata time).cores core) := by
    show ((launchedAt top atLaunch rdata time).edge (rdata time)).cores core = _
    rw [edge, posedge_core _ _ inRange]
    unfold GPUCore.posedge
    rw [show (TopInputs.idle (rdata time)).reset = false from rfl, if_neg Bool.false_ne_true]
    exact if_pos taken
  rw [latched]
  refine ⟨?_, rfl⟩
  rw [kmu]
  rfl

/-- A core that has taken a block during the launch keeps the global IDs of the
last one. -/
theorem exists_globalId
    (positive : top.kmu.gridDim.Positive)
    {time core : Nat}
    (inRange : core < cfg.numCores)
    (took : ∃ edge, edge < time ∧ taking top atLaunch rdata edge = some core) :
    ∃ edge, edge < time ∧ taking top atLaunch rdata edge = some core ∧
      ((launchedAt top atLaunch rdata time).cores core).globalId =
        blockIds top.kmu (dispatched (taking top atLaunch rdata) edge) := by
  induction time with
  | zero =>
      obtain ⟨edge, early, _⟩ := took
      exact absurd early (Nat.not_lt_zero edge)
  | succ time inductionHypothesis =>
      by_cases now : taking top atLaunch rdata time = some core
      · exact ⟨time, Nat.lt_succ_self time, now,
          (globalId_of_taking atLaunch rdata positive now).1⟩
      · have earlier : ∃ edge, edge < time ∧ taking top atLaunch rdata edge = some core := by
          obtain ⟨edge, early, found⟩ := took
          refine ⟨edge, Nat.lt_of_le_of_ne (Nat.le_of_lt_succ early) ?_, found⟩
          rintro rfl
          exact now found
        obtain ⟨edge, early, found, kept⟩ := inductionHypothesis earlier
        refine ⟨edge, by omega, found, ?_⟩
        have passed : (launchedAt top atLaunch rdata time).accepts core = false := by
          rw [← Bool.not_eq_true, ← taking_eq_some_iff]
          exact now
        show (((launchedAt top atLaunch rdata time).edge (rdata time)).cores core).globalId = _
        rw [GPUTop.edge, posedge_core _ _ inRange]
        exact (GPUCore.globalId_posedge core _ _ _ passed).trans kept

end Launch

end GPUTop

end Verilog

end OpenGPU
