import OpenGPU.Backend.Shadow
import OpenGPU.Iss.LocalStep
import OpenGPU.Iss.Opcodes

/-!
# The models behind the runtime

`sw/sim/model.cpp`. A model is the instruction-set simulator or the RTL driver,
both of which keep their state in static variables; they work on the one physical
memory of the process. The answer of the host's allocator is an argument.
-/

namespace OpenGPU

/-- `gpu_model_kind_t`. -/
inductive ModelKind
  | sm
  | hm
  deriving DecidableEq

/-- The static variables of `iss.cpp` and of the RTL driver. The memory that the
simulator's record holds is not used; it works on the memory that is lent to it. -/
structure Models (V : VGPUTop) where
  iss : Iss
  rtl : RtlSim V

namespace Iss

/-- `gpu_iss_launch` when the allocation of the contexts may fail. `ncores` is still
zero then. -/
def tryLaunch (cfg : Config) (calloc : Bool) (s : Iss) : Bool × Iss :=
  match if calloc then s.gpuIssLaunch cfg else none with
  | some launched => (true, launched)
  | none => (false, s)

/-- The body of the loop of `gpu_model_wait` on the simulator. -/
def waitStep (cfg : Config) (s : Iss) : PmemAction ((Bool × Iss) ⊕ Iss) :=
  if s.done then pure (.inl (true, s))
  else do
    let next ← s.stepAction cfg
    pure (.inr next)

/-- The loop of `gpu_model_wait` on the simulator. -/
def waitSteps (cfg : Config) (maxSteps : Nat) (s : Iss) : PmemAction (Bool × Iss) :=
  .loop (waitStep cfg) (fun s => (s.done, s)) maxSteps s

/-- A round of a lone context is one of its instructions. -/
theorem run_waitStep_lone
    {cfg : Config}
    {s : Iss}
    {pmem : Pmem}
    {result : StepResult}
    (lone : s.ncores = 1)
    (first : s.rr = 0)
    (running : s.done = false)
    (live : (s.cores 0).halted = false)
    (executes : execute cfg (s.cores 0) pmem (s.laneDiverges 0) = some result) :
    (waitStep cfg s).run pmem =
      some (.inr
        { s with
          cores := Function.update s.cores 0 result.core
          faulted := s.faulted || result.faulted }, result.pmem) := by
  have scans : scanAction cfg s.ncores s = stepCoreAction cfg s 0 := by
    have turn : (s.rr + 1) % s.ncores = s.rr := by rw [lone, first]
    rw [lone, scanAction]
    dsimp only
    rw [if_neg (by rw [first, live]; decide), turn]
    show stepCoreAction cfg s s.rr = stepCoreAction cfg s 0
    rw [first]
  rw [waitStep, running]
  simp only [Bool.false_eq_true, if_false]
  rw [LocalAction.run_bind, stepAction, running]
  simp only [Bool.false_eq_true, if_false]
  rw [scans, stepCoreAction, LocalAction.run_bind, run_executeAction, executes]
  rfl

/-- `jal x0, 0` comes back to where it started, so a lone context at this word waits
for ever. -/
theorem run_waitStep_selfJump
    {cfg : Config}
    {s : Iss}
    {pmem : Pmem}
    (lone : s.ncores = 1)
    (first : s.rr = 0)
    (running : s.done = false)
    (live : (s.cores 0).halted = false)
    (zero : (s.cores 0).gpr 0 = 0)
    (fetched : paddrRead cfg pmem (s.cores 0).pc 4 = some 0x6f) :
    (waitStep cfg s).run pmem = some (.inr s, pmem) := by
  have gprs : Function.update (s.cores 0).gpr 0 0 = (s.cores 0).gpr :=
    Function.update_eq_self_iff.mpr zero.symm
  have returns : retire (s.cores 0) pmem 0x6f ((s.cores 0).pc + 4)
      ((s.cores 0).pc + Instruction.immJ 0x6f) false = ⟨s.cores 0, pmem, false⟩ := by
    show StepResult.mk { s.cores 0 with
      gpr := Function.update (s.cores 0).gpr 0 0
      pc := (s.cores 0).pc + 0#32
      halted := (s.cores 0).halted || false } pmem false = _
    rw [gprs, BitVec.add_zero, Bool.or_false]
  have executes : execute cfg (s.cores 0) pmem (s.laneDiverges 0) =
      some ⟨s.cores 0, pmem, false⟩ := by
    rw [execute, fetched, Option.bind_some, if_neg (by decide), dispatch_jal (by decide), returns]
  rw [run_waitStep_lone lone first running live executes]
  dsimp only
  rw [Function.update_eq_self, Bool.or_false]

/-- A lone context at `EBREAK` has one step to go, and leaves memory alone. -/
theorem run_waitSteps_ebreak
    {cfg : Config}
    {s : Iss}
    {pmem : Pmem}
    (lone : s.ncores = 1)
    (first : s.rr = 0)
    (running : s.done = false)
    (live : (s.cores 0).halted = false)
    (fetched : paddrRead cfg pmem (s.cores 0).pc 4 = some Instruction.ebreak)
    (limit : Nat) :
    ∃ last : Iss, last.faulted = s.faulted ∧
      (s.waitSteps cfg (limit + 2)).run pmem = some ((true, last), pmem) := by
  have executes : execute cfg (s.cores 0) pmem (s.laneDiverges 0) =
      some ⟨{ s.cores 0 with halted := true }, pmem, false⟩ := by
    rw [execute, fetched, Option.bind_some, if_neg (by decide), dispatch_system (by decide),
      if_pos rfl]
  have round := run_waitStep_lone lone first running live executes
  refine ⟨{ s with
    cores := Function.update s.cores 0 { s.cores 0 with halted := true }
    faulted := s.faulted || false }, Bool.or_false _, ?_⟩
  rw [waitSteps, LocalAction.run_loop_succ _ round, LocalAction.loop, LocalAction.run_bind,
    waitStep,
    if_pos]
  · rfl
  · unfold done
    rw [lone]
    simp

end Iss

namespace Models

variable {V : VGPUTop} (cfg : Config) (build : Build)

/-- `gpu_model_dcr_write`. -/
def gpuModelDcrWrite (kind : ModelKind) (addr data : Word) (models : Models V) :
    PmemAction (Models V) :=
  match kind with
  | .sm => pure { models with iss := models.iss.gpuIssDcrWrite addr data }
  | .hm => do
      let rtl ← models.rtl.gpuRtlDcrWrite cfg build addr data
      pure { models with rtl := rtl }

/-- `gpu_model_launch`, for models of `GPU_NUM_HARTS` hardware threads. -/
def gpuModelLaunch (kind : ModelKind) (calloc : Bool) (models : Models V) :
    PmemAction (Bool × Models V) :=
  match kind with
  | .sm =>
      let result :=
        (models.iss.gpuIssInit (BitVec.ofNat 32 cfg.numHarts)).tryLaunch cfg calloc
      pure (result.1, { models with iss := result.2 })
  | .hm => do
      let rtl ← models.rtl.gpuRtlLaunch cfg build
      pure (true, { models with rtl := rtl })

/-- `gpu_model_wait`. -/
def gpuModelWait (kind : ModelKind) (maxSteps : Nat) (models : Models V) :
    PmemAction (Bool × Models V) :=
  match kind with
  | .sm => do
      let result ← models.iss.waitSteps cfg maxSteps
      pure (result.1, { models with iss := result.2 })
  | .hm => do
      let result ← models.rtl.gpuRtlWait cfg build maxSteps
      pure (result.1, { models with rtl := result.2 })

/-- `gpu_model_fault`. -/
def gpuModelFault (kind : ModelKind) (models : Models V) : Bool :=
  match kind with
  | .sm => models.iss.faulted
  | .hm => models.rtl.gpuRtlFault

/-- `configure_model`. -/
def configureModel (kind : ModelKind) (info : LaunchInfo) (blockSize : Word)
    (models : Models V) : PmemAction (Models V) :=
  (info.configurationWrites blockSize).foldlM
    (fun models write => models.gpuModelDcrWrite cfg build kind write.1 write.2) models

variable {cfg build}

/-- `configure_model` on the simulator touches no memory. -/
theorem run_configureModel_sm
    (info : LaunchInfo)
    (blockSize : Word)
    (models : Models V)
    (pmem : Pmem) :
    (models.configureModel cfg build .sm info blockSize).run pmem =
      some ({ models with iss := models.iss.configure info blockSize }, pmem) := rfl

/-- `configure_model` on the netlist. -/
theorem run_configureModel_hm
    (info : LaunchInfo)
    (blockSize : Word)
    (models : Models V)
    (pmem : Pmem) :
    (models.configureModel cfg build .hm info blockSize).run pmem =
      (((info.configurationWrites blockSize).foldlM (fun (sim : RtlSim V) write =>
          sim.gpuRtlDcrWrite cfg build write.1 write.2) models.rtl).run pmem).map fun result =>
        ({ models with rtl := result.1 }, result.2) := by
  unfold configureModel
  induction info.configurationWrites blockSize generalizing models pmem with
  | nil => rfl
  | cons write writes inductionHypothesis =>
      rw [List.foldlM_cons, List.foldlM_cons, LocalAction.run_bind, LocalAction.run_bind,
        gpuModelDcrWrite, LocalAction.run_bind]
      cases (models.rtl.gpuRtlDcrWrite cfg build write.1 write.2).run pmem with
      | none => rfl
      | some written => exact inductionHypothesis { models with rtl := written.1 } written.2

/-! ## What the calls keep of the RTL driver -/

section Kept

variable {holds : RtlSim V → Prop} {kind : ModelKind} {models next : Models V} {pmem after : Pmem}

theorem gpuModelDcrWrite_keeps
    (kept : RtlSim.KeptByCalls cfg build holds)
    {addr data : Word}
    (ran : (models.gpuModelDcrWrite cfg build kind addr data).run pmem = some (next, after))
    (start : holds models.rtl) :
    holds next.rtl := by
  cases kind with
  | sm =>
      cases ran
      exact start
  | hm =>
      obtain ⟨rtl, middle, wrote, rest⟩ := LocalAction.run_bind_eq_some ran
      cases rest
      exact kept.dcrWrite wrote start

theorem configureModel_keeps
    (kept : RtlSim.KeptByCalls cfg build holds)
    {info : LaunchInfo}
    {blockSize : Word}
    (ran : (models.configureModel cfg build kind info blockSize).run pmem = some (next, after))
    (start : holds models.rtl) :
    holds next.rtl :=
  LocalAction.foldlM_induct (fun (reached : Models V) _ => holds reached.rtl)
    (fun _ _ _ _ _ so wrote => gpuModelDcrWrite_keeps kept wrote so) start ran

theorem gpuModelLaunch_keeps
    (kept : RtlSim.KeptByCalls cfg build holds)
    {calloc started : Bool}
    (ran : (models.gpuModelLaunch cfg build kind calloc).run pmem = some ((started, next), after))
    (start : holds models.rtl) :
    holds next.rtl := by
  cases kind with
  | sm =>
      cases ran
      exact start
  | hm =>
      obtain ⟨rtl, middle, launched, rest⟩ := LocalAction.run_bind_eq_some ran
      cases rest
      exact kept.launch launched start

theorem gpuModelWait_keeps
    (kept : RtlSim.KeptByCalls cfg build holds)
    {maxSteps : Nat}
    {completed : Bool}
    (ran : (models.gpuModelWait cfg build kind maxSteps).run pmem =
      some ((completed, next), after))
    (start : holds models.rtl) :
    holds next.rtl := by
  cases kind with
  | sm =>
      obtain ⟨result, middle, waited, rest⟩ := LocalAction.run_bind_eq_some ran
      cases rest
      exact start
  | hm =>
      obtain ⟨result, middle, waited, rest⟩ := LocalAction.run_bind_eq_some ran
      cases rest
      exact kept.wait waited start

end Kept

end Models

end OpenGPU
