import OpenGPU.Iss.CheckedRuns
import OpenGPU.Runtime.History

/-!
# Guest code and the host process

The software model hands guest addresses to `paddr_read` and `paddr_write` without a look
at the window of physical memory, and both abort the process outside it. A run survives
exactly when every instruction that is scheduled keeps its accesses inside the window;
`gpu_wait` then returns and reports every fault.
-/

namespace OpenGPU

namespace Iss

variable {cfg : Config} {s launched : Iss}

/-! ## One step -/

/-- The context whose instruction `gpu_iss_step` runs. -/
def scheduled (s : Iss) : Option Nat :=
  if s.done then none else circularFirst s.ncores s.rr s.live

/-- The scheduled instruction stays inside physical memory. -/
def NextInside (cfg : Config) (s : Iss) : Prop :=
  ∀ index ∈ s.scheduled, StaysInside cfg (s.cores index) s.pmem

/-- A step does not bring down the process, and an instruction that would leave physical
memory ends its thread with a fault. -/
structure Contained (cfg : Config) (s : Iss) : Prop where
  survives : (gpuIssStep cfg s).isSome = true
  faults : ∀ index ∈ s.scheduled, ¬StaysInside cfg (s.cores index) s.pmem →
    ∀ moved next, gpuIssStep cfg s = some (moved, next) →
      next.faulted = true ∧ (next.cores index).halted = true

/-- A step is the instruction of the scheduled context. -/
theorem gpuIssStep_isSome_iff
    (inRange : s.rr < s.ncores) :
    (gpuIssStep cfg s).isSome = true ↔ NextInside cfg s := by
  rw [gpuIssStep_eq cfg s inRange]
  unfold NextInside scheduled
  split_ifs
  · exact iff_of_true rfl fun index member => absurd member (Option.not_mem_none index)
  · cases circularFirst s.ncores s.rr s.live with
    | none => exact iff_of_true rfl fun index member => absurd member (Option.not_mem_none index)
    | some index =>
        simp only [Option.isSome_map, Option.mem_def, Option.some.injEq, forall_eq']
        rw [stepCore, Option.isSome_map]
        exact execute_isSome_iff

/-- A step is contained exactly when its instruction stays inside physical memory. -/
theorem contained_iff
    (inRange : s.rr < s.ncores) :
    Contained cfg s ↔ NextInside cfg s := by
  constructor
  · exact fun contained => (gpuIssStep_isSome_iff inRange).mp contained.survives
  · intro inside
    exact ⟨(gpuIssStep_isSome_iff inRange).mpr inside, fun index scheduled outside =>
      absurd (inside index scheduled) outside⟩

/-! ## Runs -/

/-- The pointer of a run stays in range. -/
theorem Reachable.rr_lt
    {reached : Iss}
    (run : Reachable cfg s reached)
    (inRange : s.rr < s.ncores) :
    reached.rr < reached.ncores := (run.sameLaunch inRange).rr_lt

/-- A run that has been checked to its end stays inside. -/
theorem EndsAfter.nextInside
    {reached : Iss}
    {count : Nat}
    (ends : EndsAfter cfg s count)
    (run : Reachable cfg s reached) :
    NextInside cfg reached := by
  obtain ⟨k, within, rfl⟩ := ends.exists_stateAfter run
  rcases Nat.lt_or_eq_of_le within with early | rfl
  · rw [← gpuIssStep_isSome_iff (run.rr_lt ends.inRange)]
    simpa using congrArg Option.isSome (ends.moves k early)
  · intro index chosen
    exact absurd (ends.stops.symm.trans chosen) (Option.some_ne_none index).symm

/-- The loop of `gpu_model_wait` returns when every step stays inside. -/
theorem waitSteps_isSome
    {pmem : Pmem}
    (inRange : s.rr < s.ncores)
    (inside : ∀ reached, Reachable cfg { s with pmem := pmem } reached → NextInside cfg reached)
    (limit : Nat) :
    ((s.waitSteps cfg limit).run pmem).isSome = true := by
  refine LocalAction.loop_isSome
    (fun state mem => Reachable cfg { s with pmem := pmem } { state with pmem := mem })
    _ (fun state mem run => ?_) (fun state mem next after run rounded => ?_) limit .refl
  · unfold waitStep
    split_ifs
    · rfl
    · have steps := (gpuIssStep_isSome_iff (run.rr_lt inRange)).mpr (inside _ run)
      obtain ⟨⟨moved, reached⟩, stepped⟩ := Option.isSome_iff_exists.mp steps
      rw [LocalAction.run_bind, run_stepAction, stepped]
      rfl
  · unfold waitStep at rounded
    split_ifs at rounded
    · cases rounded
    · obtain ⟨state', middle, stepped, rest⟩ := LocalAction.run_bind_eq_some rounded
      cases rest
      rw [run_stepAction, Option.map_eq_some_iff] at stepped
      obtain ⟨⟨moved, reached⟩, stepped, same⟩ := stepped
      cases same
      exact .step run stepped

end Iss

namespace Runtime

open GpuDevice

variable {V : VGPUTop} {cfg : Config} {r : Runtime V}

/-- The verdict on a run of the software model reports a fault. -/
theorem conclude_reports
    (completed : Bool)
    (r : Runtime V) :
    ∃ result after, conclude cfg .softwareModel completed r = some (result, after) ∧
      (after.models.iss.faulted = true → result = .backend) := by
  have fault : r.models.gpuModelFault Build.softwareModel.executionKind =
      r.models.iss.faulted := rfl
  unfold conclude
  rw [fault]
  cases completed with
  | false =>
      refine ⟨_, _, rfl, fun faulted => ?_⟩
      rw [freeReference] at faulted
      exact if_pos faulted
  | true =>
      cases faulted : r.models.iss.faulted with
      | true => exact ⟨_, _, rfl, fun _ => rfl⟩
      | false =>
          refine ⟨_, _, rfl, fun reported => ?_⟩
          rw [faulted] at reported
          cases reported

/-- `gpu_wait` returns when every step of the run stays inside, and reports a fault. -/
theorem gpuWait_returns
    (sound : RunningSound cfg .softwareModel r)
    (running : r.running = true)
    (inside : ∀ reached,
      Iss.Reachable cfg { r.models.iss with pmem := r.device.pmem } reached →
        Iss.NextInside cfg reached) :
    ∃ result after, r.gpuWait cfg .softwareModel = some (result, after) ∧
      (after.models.iss.faulted = true → result = .backend) := by
  have defined := Iss.waitSteps_isSome sound.rr_lt inside gpuWaitLimit
  obtain ⟨⟨⟨completed, iss⟩, pmem⟩, waits⟩ := Option.isSome_iff_exists.mp defined
  have acts : (r.models.gpuModelWait cfg .softwareModel Build.softwareModel.executionKind
      gpuWaitLimit).run r.device.pmem = some ((completed, { r.models with iss := iss }), pmem) := by
    show (LocalAction.run (_ >>= _) _) = _
    rw [LocalAction.run_bind, waits]
    rfl
  unfold gpuWait
  rw [sound.valid, running]
  simp only [Bool.not_true, Bool.or_self, Bool.false_eq_true, if_false]
  rw [runModels, acts, Option.map_some, Option.bind_some]
  exact conclude_reports completed _

/-- In every run of the software model, a step is contained exactly when the scheduled
instruction keeps its accesses inside physical memory; when all steps of a launched
kernel do, `gpu_wait` returns and reports every fault. -/
theorem guestContained_iff
    (mapped : cfg.DefaultMap) :
    (∀ s launched reached : Iss, s.gpuIssLaunch cfg = some launched →
      Iss.Reachable cfg launched reached →
      (Iss.Contained cfg reached ↔ Iss.NextInside cfg reached)) ∧
    ∀ (V : VGPUTop) (r : Runtime V), Reachable cfg .softwareModel r → r.running = true →
      (∀ reached,
        Iss.Reachable cfg { r.models.iss with pmem := r.device.pmem } reached →
          Iss.NextInside cfg reached) →
      ∃ result after, r.gpuWait cfg .softwareModel = some (result, after) ∧
        (after.models.iss.faulted = true → result = .backend) := by
  constructor
  · intro s launched reached accepted run
    obtain ⟨positive, _, _, rfl⟩ := Iss.gpuIssLaunch_eq_some accepted
    exact Iss.contained_iff (run.rr_lt positive)
  · intro V r reachable running inside
    exact gpuWait_returns (reachable.runningSound mapped running) running inside

/-- Two threads part, one of them stores, both halt, and `gpu_wait` reports success. -/
theorem guestContained_parting :
    (∃ start, (Iss.fresh partingImage).modelLaunch Config.onePair pairLaunch 2 = some start ∧
      ∀ reached, Iss.Reachable Config.onePair start reached →
        Iss.Contained Config.onePair reached) ∧
    ∃ (kernel : GpuKernel) (before r after : Runtime (Verilog.vgpuTop Config.onePair)),
      Reachable Config.onePair .softwareModel before ∧
        before.gpuLaunch Config.onePair .softwareModel ⟨true, true⟩ (some kernel)
          (some onePairOfThreads) = some (.success, r) ∧
        r.gpuWait Config.onePair .softwareModel = some (.success, after) ∧
        after.models.iss.faulted = false ∧ after.device.pmem 0x82000000 = 1 := by
  obtain ⟨each, waits⟩ := @guestContained_iff Config.onePair ⟨rfl, rfl⟩
  constructor
  · have ends : (((Iss.fresh partingImage).modelLaunch Config.onePair pairLaunch 2).map fun start =>
        decide (Iss.EndsAfter Config.onePair start 9)) = some true := by decide +kernel
    obtain ⟨start, launched, ends⟩ := Option.map_eq_some_iff.mp ends
    exact ⟨start, launched, fun reached run =>
      (each _ _ _ launched run).mpr ((of_decide_eq_true ends).nextInside run)⟩
  · have observed : (do
        let loaded ← withKernel (Verilog.vgpuTop Config.onePair) Config.onePair .softwareModel
          partingKernel
        let launched ← loaded.2.gpuLaunch Config.onePair .softwareModel ⟨true, true⟩ (some loaded.1)
          (some onePairOfThreads)
        some (decide (launched.1 = .success ∧ launched.2.running = true ∧
          Iss.EndsAfter Config.onePair
            { launched.2.models.iss with pmem := launched.2.device.pmem } 9 ∧
          (launched.2.gpuWait Config.onePair .softwareModel).map (fun waited =>
            (waited.1, waited.2.models.iss.faulted, waited.2.device.pmem 0x82000000)) =
              some (.success, false, 1)))) = some true := by
      decide +kernel
    obtain ⟨⟨kernel, before⟩, loaded, observed⟩ := Option.bind_eq_some_iff.mp observed
    obtain ⟨⟨result, r⟩, launched, observed⟩ := Option.bind_eq_some_iff.mp observed
    obtain ⟨rfl, running, ends, verdict⟩ := of_decide_eq_true (Option.some.inj observed)
    have reachable := Reachable.launched (reachable_withKernel loaded) launched
    obtain ⟨answer, after, waited, _⟩ :=
      waits _ r reachable running fun reached run => ends.nextInside run
    rw [waited, Option.map_some, Option.some.injEq, Prod.mk.injEq, Prod.mk.injEq] at verdict
    obtain ⟨rfl, clean, byte⟩ := verdict
    exact ⟨kernel, before, r, after, reachable_withKernel loaded, launched, waited, clean, byte⟩

/-- `LW x1, 0(x0)` aborts the process in `gpu_wait`. -/
theorem guest_aborts :
    ∃ (kernel : GpuKernel) (before r : Runtime (Verilog.vgpuTop Config.oneLane)),
      Reachable Config.oneLane .softwareModel before ∧
        before.gpuLaunch Config.oneLane .softwareModel ⟨true, true⟩ (some kernel)
          (some oneThread) = some (.success, r) ∧
        r.gpuWait Config.oneLane .softwareModel = none := by
  have observed : ((withKernel (Verilog.vgpuTop Config.oneLane) Config.oneLane .softwareModel
      [0x00002083]).any fun loaded =>
        (loaded.2.gpuLaunch Config.oneLane .softwareModel ⟨true, true⟩ (some loaded.1)
          (some oneThread)).any fun launched =>
            launched.1 == .success &&
              (launched.2.gpuWait Config.oneLane .softwareModel).isNone) = true := by
    decide +kernel
  obtain ⟨⟨kernel, before⟩, loaded, launches⟩ := (Option.any_eq_true _ _).mp observed
  obtain ⟨⟨result, r⟩, launched, aborts⟩ := (Option.any_eq_true _ _).mp launches
  rw [Bool.and_eq_true, beq_iff_eq] at aborts
  obtain ⟨rfl, aborted⟩ := aborts
  exact ⟨kernel, before, r, reachable_withKernel loaded, launched,
    Option.isNone_iff_eq_none.mp aborted⟩

end Runtime

end OpenGPU
