import OpenGPU.Backend.QuietRun
import OpenGPU.Runtime.CallEffects

/-!
# Host work between a launch and the wait

The memory calls are allowed while a kernel runs. A kernel does not notice a call that
writes elsewhere: its execution is a local action on physical memory. DiffTest does
notice, because the last comparison of `gpu_rtl_wait` and the reference image cover all
of physical memory as it was at the launch.
-/

namespace OpenGPU

namespace GpuDevice

variable {cfg : Config} {d after : GpuDevice}

/-- A sequence of calls with their replies. -/
def hostWork (cfg : Config) : List HeapCall → GpuDevice → Option (List HeapReply × GpuDevice)
  | [], d => some ([], d)
  | call :: calls, d =>
      (heapCall cfg d call).bind fun first =>
        (hostWork cfg calls first.2).map fun rest => (first.1 :: rest.1, rest.2)

/-- The bytes that a sequence of calls writes. -/
def hostBytes : List HeapCall → List HeapReply → Set Word
  | call :: calls, reply :: replies => written call reply ∪ hostBytes calls replies
  | _, _ => ∅

/-- A sequence of calls writes only the bytes that the calls name. -/
theorem hostWork_frame
    {calls : List HeapCall}
    {replies : List HeapReply}
    (worked : hostWork cfg calls d = some (replies, after)) :
    Set.EqOn after.pmem d.pmem (hostBytes calls replies)ᶜ ∧
      after.validDevice = d.validDevice := by
  induction calls generalizing d replies with
  | nil =>
      cases worked
      exact ⟨fun _ _ => rfl, rfl⟩
  | cons call calls inductionHypothesis =>
      obtain ⟨⟨reply, middle⟩, called, rest⟩ := Option.bind_eq_some_iff.mp worked
      obtain ⟨⟨later, last⟩, works, same⟩ := Option.map_eq_some_iff.mp rest
      cases same
      obtain ⟨bytes, valid⟩ := heapCall_frame called
      obtain ⟨restBytes, restValid⟩ := inductionHypothesis works
      refine ⟨fun a outside => ?_, restValid.trans valid⟩
      rw [restBytes fun member => outside (Or.inr member)]
      exact bytes fun member => outside (Or.inl member)

end GpuDevice

namespace Runtime

open GpuDevice

variable {V : VGPUTop} {cfg : Config} {build : Build} {r before after : Runtime V}

/-! ## A launched kernel -/

/-- What a successful `gpu_launch` leaves behind. -/
structure Launched (cfg : Config) (build : Build) (r : Runtime V) : Prop where
  valid : r.device.validDevice = true
  running : r.running = true
  shadowed : build.diffTest = true → r.models.rtl.Shadowed cfg r.device.pmem
  reference : build.diffTest = true → r.reference.isSome = true

/-- A reference run that ends leaves an image and the old memory. -/
theorem runReference_done
    {host : HostMemory}
    (ran : r.runReference cfg build host = some (none, after)) :
    after.reference.isSome = true ∧ after.device = r.device := by
  unfold runReference at ran
  split_ifs at ran
  · cases ran
  obtain ⟨⟨done, stopped⟩, runs, same⟩ := Option.map_eq_some_iff.mp ran
  obtain ⟨models, pmem, _, rfl⟩ := runModels_eq_some runs
  cases done with
  | false => cases same
  | true =>
      cases same
      exact ⟨rfl, rfl⟩

/-- In DiffTest a started execution is compared with a shadow memory. -/
theorem shadowed_startExecution
    (mapped : cfg.DefaultMap)
    (diffTest : build.diffTest = true)
    (released : r.models.rtl.pins.reset = false)
    {host : HostMemory}
    (ran : r.startExecution cfg build host = some (.success, after)) :
    after.models.rtl.Shadowed cfg after.device.pmem := by
  obtain ⟨failed, _⟩ | ⟨_, models, pmem, acted, rfl⟩ := startExecution_effect ran
  · exact absurd rfl failed
  have kind : build.executionKind = .hm := by
    cases build <;> first | rfl | cases diffTest
  rw [kind] at acted
  obtain ⟨rtl, middle, launches, rest⟩ := LocalAction.run_bind_eq_some acted
  cases rest
  exact RtlSim.shadowed_gpuRtlLaunch mapped diffTest released launches

/-- Every successful `gpu_launch` from a well-kept state. -/
theorem launched_of_gpuLaunch
    (mapped : cfg.DefaultMap)
    (kept : WellKept before)
    {host : HostMemory}
    {kernel : Option GpuKernel}
    {info : Option GpuLaunchInfo}
    (ran : before.gpuLaunch cfg build host kernel info = some (.success, r)) :
    Launched cfg build r := by
  unfold gpuLaunch at ran
  split at ran
  next k i =>
    cases checked : before.launchChecks cfg k i with
    | none =>
        rw [checked] at ran
        cases ran
    | some blockSize =>
        rw [checked] at ran
        obtain ⟨⟨outcome, prepared⟩, prepares, rest⟩ := Option.bind_eq_some_iff.mp ran
        have keeps : Keeps (fun sim => sim.pins.reset = false) before := ⟨kept.slots, kept.running⟩
        have preparedKeeps := keeps.prepare mapped RtlSim.keptByCalls_released prepares
        rcases underWay_of_prepare mapped kept.slots (valid_of_launchChecks checked) prepares with
          ⟨code, rfl, _⟩ | ⟨rfl, underWay, _⟩
        · cases code <;> cases rest
        dsimp only at rest
        split_ifs at rest with diffTest
        · obtain ⟨⟨failure, referenced⟩, refers, starts⟩ := Option.bind_eq_some_iff.mp rest
          cases failure with
          | some code =>
              cases starts
              obtain ⟨done, _⟩ | ⟨_, _, same, failed, _⟩ := runReference_effect refers
              · cases done
              · cases same
                exact absurd rfl failed
          | none =>
              obtain ⟨image, device⟩ := runReference_done refers
              have shadowed := shadowed_startExecution mapped diffTest
                (preparedKeeps.runReference RtlSim.keptByCalls_released refers).rtl starts
              obtain ⟨failed, _⟩ | ⟨_, models, pmem, _, rfl⟩ := startExecution_effect starts
              · exact absurd rfl failed
              refine ⟨?_, rfl, fun _ => shadowed, fun _ => image⟩
              show referenced.device.validDevice = true
              rw [device]
              exact underWay.valid
        · obtain ⟨failed, _⟩ | ⟨_, models, pmem, _, rfl⟩ := startExecution_effect rest
          · exact absurd rfl failed
          exact ⟨underWay.valid, rfl, fun plain => absurd plain diffTest,
            fun plain => absurd plain diffTest⟩
  next => cases ran

/-! ## The two waits -/

/-- The bytes that the execution of a launched kernel looks at or changes. -/
def kernelBytes (cfg : Config) (build : Build) (r : Runtime V) : Set Word :=
  match build.executionKind with
  | .sm => (r.models.iss.waitSteps cfg gpuWaitLimit).places r.device.pmem
  | .hm => (r.models.rtl.waitCycles cfg build gpuWaitLimit).places r.device.pmem

/-- Two waits that return the same result and leave the same values at some bytes, or
that both do not return. -/
inductive SameWait (bytes : Set Word) :
    Option (GpuResult × Runtime V) → Option (GpuResult × Runtime V) → Prop
  | lost : SameWait bytes none none
  | returned {result : GpuResult} {quiet busy : Runtime V} :
      Set.EqOn busy.device.pmem quiet.device.pmem bytes →
      SameWait bytes (some (result, quiet)) (some (result, busy))

/-- The state in which `gpu_wait` gives its verdict. -/
def waited (models : Models V) (pmem : Pmem) (r : Runtime V) : Runtime V :=
  { r with
    models := models
    device := { r.device with pmem := pmem }
    running := false }.releaseLaunchArgs

@[simp] theorem waited_pmem
    (models : Models V)
    (pmem : Pmem)
    (r : Runtime V) :
    (r.waited models pmem).device.pmem = pmem := by
  unfold waited
  rw [releaseLaunchArgs_pmem]

@[simp] theorem waited_models
    (models : Models V)
    (pmem : Pmem)
    (r : Runtime V) :
    (r.waited models pmem).models = models := (releaseLaunchArgs_keeps _).1

@[simp] theorem waited_reference
    (models : Models V)
    (pmem : Pmem)
    (r : Runtime V) :
    (r.waited models pmem).reference = r.reference := (releaseLaunchArgs_keeps _).2.1

@[simp] theorem waited_referenceFault
    (models : Models V)
    (pmem : Pmem)
    (r : Runtime V) :
    (r.waited models pmem).referenceFault = r.referenceFault := (releaseLaunchArgs_keeps _).2.2

/-- `gpu_wait` for a running kernel. -/
theorem gpuWait_eq
    (valid : r.device.validDevice = true)
    (running : r.running = true) :
    r.gpuWait cfg build =
      ((r.models.gpuModelWait cfg build build.executionKind gpuWaitLimit).run
          r.device.pmem).bind fun result =>
        conclude cfg build result.1.1 (r.waited result.1.2 result.2) := by
  unfold gpuWait
  rw [valid, running]
  simp only [Bool.not_true, Bool.or_self, Bool.false_eq_true, if_false]
  unfold runModels
  rw [Option.bind_map]
  rfl

/-- The comparison with the reference image. -/
theorem samePmem_iff
    {reference pmem : Pmem} :
    samePmem cfg reference pmem = true ↔ ∀ a, inPmem cfg a = true → reference a = pmem a := by
  unfold samePmem
  rw [List.all_eq_true]
  refine forall_congr' fun a => ?_
  rw [RtlSim.mem_window, beq_iff_eq]

/-- Two verdicts on the same models with the same reference are the same, if a
completed run has left the same memory or nothing compares it. -/
theorem sameWait_conclude
    {bytes : Set Word}
    {busy : Runtime V}
    {models : Models V}
    {completed : Bool}
    {pmem other : Pmem}
    (reference : busy.reference = r.reference)
    (referenceFault : busy.referenceFault = r.referenceFault)
    (image : completed = true → build.diffTest = true →
      ∀ a, inPmem cfg a = true → other a = pmem a)
    (same : Set.EqOn other pmem bytes) :
    SameWait bytes (conclude cfg build completed (r.waited models pmem))
      (conclude cfg build completed (busy.waited models other)) := by
  have agree : ∀ result (quietEnd busyEnd : Runtime V),
      quietEnd.device.pmem = pmem → busyEnd.device.pmem = other →
      SameWait bytes (some (result, quietEnd)) (some (result, busyEnd)) := by
    rintro result quietEnd busyEnd rfl rfl
    exact .returned same
  unfold conclude
  simp only [waited_models, waited_reference, waited_referenceFault, waited_pmem, reference,
    referenceFault]
  split_ifs with stopped fault fault diffTest referenceFaulted
  · exact agree _ _ _ (waited_pmem _ _ _) (waited_pmem _ _ _)
  · exact agree _ _ _ (waited_pmem _ _ _) (waited_pmem _ _ _)
  · exact agree _ _ _ (waited_pmem _ _ _) (waited_pmem _ _ _)
  · exact agree _ _ _ (waited_pmem _ _ _) (waited_pmem _ _ _)
  · cases r.reference with
    | none => exact .lost
    | some saved =>
        have verdict : samePmem cfg saved other = samePmem cfg saved pmem := by
          have ended : completed = true := by simpa using stopped
          rw [Bool.eq_iff_iff, samePmem_iff, samePmem_iff]
          refine forall₂_congr fun a inside => ?_
          rw [image ended diffTest a inside]
        simp only [Option.map_some, verdict]
        exact agree _ _ _ (waited_pmem _ _ _) (waited_pmem _ _ _)
  · exact agree _ _ _ (waited_pmem _ _ _) (waited_pmem _ _ _)

/-- Without DiffTest the wait keeps to the bytes of the kernel. -/
theorem places_gpuModelWait_subset
    (plain : build.diffTest = false)
    (r : Runtime V) :
    (r.models.gpuModelWait cfg build build.executionKind gpuWaitLimit).places r.device.pmem ⊆
      kernelBytes cfg build r := by
  unfold kernelBytes
  cases build.executionKind with
  | sm => exact LocalAction.places_bind_subset (fun _ _ => rfl) _
  | hm =>
      refine (LocalAction.places_bind_subset (fun _ _ => rfl) _).trans
        (LocalAction.places_bind_subset (fun result mem => ?_) _)
      rcases result with ⟨_ | _ | _, sim⟩
      · rfl
      · dsimp only
        rw [if_neg (by rw [plain]; decide)]
        rfl
      · rfl

/-- The run of a launched kernel ends in lockstep with the cycle model, and physical
memory ends up like the image of the reference run. -/
def EndsLikeReference (cfg : Config) (build : Build) (r : Runtime V) : Prop :=
  r.referenceFault = false ∧ ∃ reference sim pmem, r.reference = some reference ∧
    (r.models.rtl.waitCycles cfg build gpuWaitLimit).run r.device.pmem =
        some ((.rest, sim), pmem) ∧
      ∀ a, inPmem cfg a = true → reference a = pmem a

/-- Host work after a launch. -/
structure WorkedOn (cfg : Config) (build : Build) (r busy : Runtime V) (bytes : Set Word) :
    Prop where
  valid : busy.device.validDevice = r.device.validDevice
  running : busy.running = r.running
  models : busy.models = r.models
  reference : busy.reference = r.reference
  referenceFault : busy.referenceFault = r.referenceFault
  elsewhere : Set.EqOn busy.device.pmem r.device.pmem bytesᶜ
  apart : Disjoint bytes (kernelBytes cfg build r)

/-- Without DiffTest, work elsewhere is not noticed. -/
theorem sameWait_plain
    {busy : Runtime V}
    {bytes : Set Word}
    (plain : build.diffTest = false)
    (launched : Launched cfg build r)
    (worked : WorkedOn cfg build r busy bytes) :
    SameWait (kernelBytes cfg build r) (r.gpuWait cfg build) (busy.gpuWait cfg build) := by
  rw [gpuWait_eq launched.valid launched.running,
    gpuWait_eq (worked.valid.trans launched.valid) (worked.running.trans launched.running),
    worked.models]
  have framed := LocalAction.framed
    (r.models.gpuModelWait cfg build build.executionKind gpuWaitLimit)
    (worked.apart.mono_right (places_gpuModelWait_subset plain r)) worked.elsewhere
  generalize (r.models.gpuModelWait cfg build build.executionKind gpuWaitLimit).run
    r.device.pmem = quiet at framed ⊢
  generalize (r.models.gpuModelWait cfg build build.executionKind gpuWaitLimit).run
    busy.device.pmem = disturbed at framed ⊢
  cases framed with
  | lost => exact .lost
  | returned agree _ _ =>
      refine sameWait_conclude worked.reference worked.referenceFault ?_ ?_
      · intro _ diffTest
        exact absurd (plain.symm.trans diffTest) Bool.noConfusion
      · exact fun a member => agree fun here => Set.disjoint_left.mp worked.apart here member

/-- The wait for a run of the RTL that a fault or the limit has ended is over. -/
theorem gpuModelWait_stopped
    {models : Models V}
    {stop : RtlSim.Stop}
    {sim : RtlSim V}
    {pmem last : Pmem}
    (ran : (models.rtl.waitCycles cfg build gpuWaitLimit).run pmem = some ((stop, sim), last))
    (early : stop ≠ .rest) :
    (models.gpuModelWait cfg build .hm gpuWaitLimit).run pmem =
      some ((false, { models with rtl := sim }), last) := by
  unfold Models.gpuModelWait
  dsimp only
  rw [LocalAction.run_bind,
    show gpuWaitLimit = 99999999 + 1 from rfl, RtlSim.run_gpuRtlWait_stopped ran early]
  rfl

/-- A run of the RTL that does not return takes the wait with it. -/
theorem gpuModelWait_lost
    {models : Models V}
    {pmem : Pmem}
    (ran : (models.rtl.waitCycles cfg build gpuWaitLimit).run pmem = none) :
    (models.gpuModelWait cfg build .hm gpuWaitLimit).run pmem = none := by
  unfold Models.gpuModelWait RtlSim.gpuRtlWait
  dsimp only
  rw [LocalAction.run_bind, LocalAction.run_bind, ran]
  rfl

/-- A mismatch in the last comparison is a failure of the backend. -/
theorem conclude_mismatch
    {busy : Runtime V}
    {models : Models V}
    {pmem : Pmem}
    (kind : build.executionKind = .hm)
    (mismatch : models.rtl.diffFailed = true) :
    conclude cfg build false (busy.waited models pmem) =
      some (.backend, (busy.waited models pmem).freeReference) := by
  have fault : (busy.waited models pmem).models.gpuModelFault build.executionKind = true := by
    rw [waited_models, kind]
    show (V.gpuFault models.rtl.top || models.rtl.diffFailed) = true
    rw [mismatch, Bool.or_true]
  unfold conclude
  rw [fault]
  rfl

/-- In DiffTest, a run that comes to rest passes if and only if it ends like its
reference run; otherwise it is a failure of the backend. -/
theorem conclude_rest
    {reference : Pmem}
    (models : Models V)
    (pmem : Pmem)
    (diffTest : build.diffTest = true)
    (kind : build.executionKind = .hm)
    (sound : models.rtl.gpuRtlFault = false)
    (saved : r.reference = some reference) :
    ∃ last, conclude cfg build true (r.waited models pmem) =
        some (if r.referenceFault = false ∧ ∀ a, inPmem cfg a = true → reference a = pmem a
          then .success else .backend, last) ∧ last.device.pmem = pmem := by
  refine ⟨(r.waited models pmem).freeReference, ?_, waited_pmem _ _ _⟩
  have noFault : (r.waited models pmem).models.gpuModelFault build.executionKind = false := by
    rw [waited_models, kind]
    exact sound
  unfold conclude
  rw [noFault, diffTest, waited_referenceFault, waited_reference, waited_pmem, saved]
  cases r.referenceFault with
  | true => rfl
  | false =>
      simp only [Bool.not_true, Bool.false_eq_true, if_false, if_true, Option.map_some, true_and,
        samePmem_iff]

/-- The two runs of the RTL come to rest in the same state. Whether the wait after the
host work passes depends on the bytes of physical memory that the work has changed. -/
theorem sameWait_rest_iff
    {busy : Runtime V}
    {bytes : Set Word}
    {sim : RtlSim V}
    {last otherLast : Pmem}
    (diffTest : build.diffTest = true)
    (kind : build.executionKind = .hm)
    (launched : Launched cfg build r)
    (worked : WorkedOn cfg build r busy bytes)
    (shadowed : sim.Shadowed cfg last)
    (quiet : (r.models.rtl.waitCycles cfg build gpuWaitLimit).run r.device.pmem =
      some ((.rest, sim), last))
    (disturbed : (r.models.rtl.waitCycles cfg build gpuWaitLimit).run busy.device.pmem =
      some ((.rest, sim), otherLast))
    (agree : Set.EqOn otherLast last bytesᶜ)
    (kept : Set.EqOn last r.device.pmem bytes)
    (otherKept : Set.EqOn otherLast busy.device.pmem bytes) :
    SameWait (kernelBytes cfg build r) (r.gpuWait cfg build) (busy.gpuWait cfg build) ↔
      (EndsLikeReference cfg build r →
        ∀ a, inPmem cfg a = true → busy.device.pmem a = r.device.pmem a) := by
  obtain ⟨image, saved⟩ := Option.isSome_iff_exists.mp (launched.reference diffTest)
  have sound : sim.gpuRtlFault = false :=
    (RtlSim.waitCycles_stop (show (r.models.rtl.waitCycles cfg build (99999999 + 1)).run _ = _
      from quiet)).1 rfl
  have noFailure : sim.diffFailed = false := (Bool.or_eq_false_iff.mp sound).2
  have shadow := shadowed.same noFailure
  have changed : (∀ a, inPmem cfg a = true → otherLast a = last a) ↔
      ∀ a, inPmem cfg a = true → busy.device.pmem a = r.device.pmem a := by
    refine forall₂_congr fun a _ => ?_
    by_cases here : a ∈ bytes
    · rw [otherKept here, kept here]
    · rw [agree here, worked.elsewhere here]
      exact iff_of_true rfl rfl
  have matches' : ∀ mem : Pmem,
      ((RtlSim.window cfg).all fun a => mem a == sim.model.mem.bytes a) = true ↔
        ∀ a, inPmem cfg a = true → mem a = last a := by
    intro mem
    rw [List.all_eq_true]
    refine forall_congr' fun a => ?_
    rw [RtlSim.mem_window, beq_iff_eq]
    exact forall_congr' fun inside => by rw [shadow a inside]
  have quietWait : r.gpuWait cfg build =
      conclude cfg build true (r.waited { r.models with rtl := sim } last) := by
    rw [gpuWait_eq launched.valid launched.running, kind]
    unfold Models.gpuModelWait
    dsimp only
    rw [LocalAction.run_bind, RtlSim.run_gpuRtlWait_rest diffTest quiet shadowed,
      (matches' last).mpr fun _ _ => rfl]
    show conclude cfg build true (r.waited
      { r.models with rtl := { sim with diffFailed := sim.diffFailed || false } } last) = _
    rw [Bool.or_false]
  have busyWait : ∀ same,
      ((RtlSim.window cfg).all fun a => otherLast a == sim.model.mem.bytes a) = same →
      busy.gpuWait cfg build = conclude cfg build same (busy.waited
        { r.models with rtl := { sim with diffFailed := sim.diffFailed || !same } } otherLast) := by
    rintro same rfl
    rw [gpuWait_eq (worked.valid.trans launched.valid) (worked.running.trans launched.running),
      worked.models, kind]
    unfold Models.gpuModelWait
    dsimp only
    rw [LocalAction.run_bind, RtlSim.run_gpuRtlWait_rest diffTest disturbed shadowed]
    rfl
  by_cases unchanged : ∀ a, inPmem cfg a = true → otherLast a = last a
  · refine iff_of_true ?_ fun _ => changed.mp unchanged
    rw [quietWait, busyWait true ((matches' otherLast).mpr unchanged), Bool.not_true, Bool.or_false]
    exact sameWait_conclude worked.reference worked.referenceFault (fun _ _ => unchanged)
      fun a member => agree fun here => Set.disjoint_left.mp worked.apart here member
  · have mismatch := Bool.eq_false_iff.mpr fun same => unchanged ((matches' otherLast).mp same)
    obtain ⟨ended, verdict, lastPmem⟩ :=
      conclude_rest { r.models with rtl := sim } last diffTest kind sound saved
    have reached : EndsLikeReference cfg build r ↔
        r.referenceFault = false ∧ ∀ a, inPmem cfg a = true → image a = last a := by
      constructor
      · rintro ⟨noFault, reference, reachedSim, reachedPmem, stored, ran, same⟩
        cases saved.symm.trans stored
        cases quiet.symm.trans ran
        exact ⟨noFault, same⟩
      · rintro ⟨noFault, same⟩
        exact ⟨noFault, image, sim, last, saved, quiet, same⟩
    rw [quietWait, busyWait false mismatch, verdict, conclude_mismatch kind (Bool.or_true _),
      reached]
    split_ifs with passes
    · refine iff_of_false ?_ fun must => unchanged (changed.mpr (must passes))
      intro same
      cases same
    · refine iff_of_true (.returned ?_) fun must => absurd must passes
      intro a member
      rw [lastPmem]
      show (busy.waited _ otherLast).device.pmem a = last a
      rw [waited_pmem]
      exact agree fun here => Set.disjoint_left.mp worked.apart here member

/-- In DiffTest, work elsewhere goes unnoticed if and only if it leaves physical memory
as it was, or the run would not have passed. -/
theorem sameWait_diffTest_iff
    {busy : Runtime V}
    {bytes : Set Word}
    (mapped : cfg.DefaultMap)
    (diffTest : build.diffTest = true)
    (launched : Launched cfg build r)
    (worked : WorkedOn cfg build r busy bytes) :
    SameWait (kernelBytes cfg build r) (r.gpuWait cfg build) (busy.gpuWait cfg build) ↔
      (EndsLikeReference cfg build r →
        ∀ a, inPmem cfg a = true → busy.device.pmem a = r.device.pmem a) := by
  have kind : build.executionKind = .hm := by
    cases build <;> first | rfl | cases diffTest
  have apart : Disjoint bytes
      ((r.models.rtl.waitCycles cfg build gpuWaitLimit).places r.device.pmem) := by
    have apart := worked.apart
    rw [kernelBytes, kind] at apart
    exact apart
  have framed := LocalAction.framed (r.models.rtl.waitCycles cfg build gpuWaitLimit) apart
    worked.elsewhere
  cases quiet : (r.models.rtl.waitCycles cfg build gpuWaitLimit).run r.device.pmem with
  | none =>
      rw [quiet] at framed
      generalize disturbed :
        (r.models.rtl.waitCycles cfg build gpuWaitLimit).run busy.device.pmem = other at framed
      cases framed with
      | lost =>
          refine iff_of_true ?_ ?_
          · rw [gpuWait_eq launched.valid launched.running,
              gpuWait_eq (worked.valid.trans launched.valid)
                (worked.running.trans launched.running),
              worked.models, kind, gpuModelWait_lost quiet, gpuModelWait_lost disturbed]
            exact .lost
          · rintro ⟨_, reference, reachedSim, reachedPmem, _, ran, _⟩
            cases quiet.symm.trans ran
  | some result =>
      obtain ⟨⟨stop, sim⟩, last⟩ := result
      rw [quiet] at framed
      generalize disturbed :
        (r.models.rtl.waitCycles cfg build gpuWaitLimit).run busy.device.pmem = other at framed
      cases framed with
      | @returned _ _ otherLast agree kept otherKept =>
          by_cases rests : stop = .rest
          · subst rests
            exact sameWait_rest_iff diffTest kind launched worked
              ((launched.shadowed diffTest).waitCycles mapped diffTest quiet) quiet disturbed
              agree kept otherKept
          · refine iff_of_true ?_ ?_
            · rw [gpuWait_eq launched.valid launched.running,
                gpuWait_eq (worked.valid.trans launched.valid)
                  (worked.running.trans launched.running),
                worked.models, kind, gpuModelWait_stopped quiet rests,
                gpuModelWait_stopped disturbed rests]
              exact sameWait_conclude worked.reference worked.referenceFault
                (fun completed => Bool.noConfusion completed)
                fun a member => agree fun here => Set.disjoint_left.mp worked.apart here member
            · rintro ⟨_, reference, reachedSim, reachedPmem, _, ran, _⟩
              cases quiet.symm.trans ran
              exact absurd rfl rests

/-- For every launch and every memory calls between it and the wait that write no byte
of the kernel: the wait is the same as without the calls, if and only if the build is
not DiffTest, or the launch would not have passed, or the calls leave physical memory
as it was. -/
theorem hostWork_unnoticed_iff
    (mapped : cfg.DefaultMap)
    (reachable : Reachable cfg build before)
    {host : HostMemory}
    {kernel : Option GpuKernel}
    {info : Option GpuLaunchInfo}
    (launch : before.gpuLaunch cfg build host kernel info = some (.success, r))
    {calls : List HeapCall}
    {replies : List HeapReply}
    {device : GpuDevice}
    (worked : hostWork cfg calls r.device = some (replies, device))
    (apart : Disjoint (hostBytes calls replies) (kernelBytes cfg build r)) :
    SameWait (kernelBytes cfg build r) (r.gpuWait cfg build)
        ({ r with device := device }.gpuWait cfg build) ↔
      (build.diffTest = true → EndsLikeReference cfg build r →
        ∀ a, inPmem cfg a = true → device.pmem a = r.device.pmem a) := by
  have launched := launched_of_gpuLaunch mapped (reachable.wellKept mapped) launch
  obtain ⟨elsewhere, valid⟩ := hostWork_frame worked
  have work : WorkedOn cfg build r { r with device := device } (hostBytes calls replies) :=
    ⟨valid, rfl, rfl, rfl, rfl, elsewhere, apart⟩
  cases diffTest : build.diffTest with
  | false =>
      exact iff_of_true (sameWait_plain diffTest launched work) fun plain =>
        Bool.noConfusion plain
  | true =>
      rw [sameWait_diffTest_iff mapped diffTest launched work]
      exact ⟨fun must _ => must, fun must => must rfl⟩

/-! ## One empty kernel -/

/-- A launched kernel that passes DiffTest and touches nothing but its one word. -/
structure Passing (r : Runtime (Verilog.vgpuTop Config.oneLane)) : Prop where
  ends : EndsLikeReference Config.oneLane .hardwareDiffTest r
  fetches : kernelBytes Config.oneLane .hardwareDiffTest r ⊆ accessBytes 0x81000000 4

/-- The kernel `ebreak` passes DiffTest. -/
theorem exists_passing :
    ∃ (kernel : GpuKernel) (before r : Runtime (Verilog.vgpuTop Config.oneLane))
      (allocated worked : GpuDevice),
      Reachable Config.oneLane .hardwareDiffTest before ∧
        before.gpuLaunch Config.oneLane .hardwareDiffTest ⟨true, true⟩ (some kernel)
          (some oneThread) = some (.success, r) ∧
        Passing r ∧
        gpuMemAlloc Config.oneLane 4 true r.device = some (.ok 0x82000000, allocated) ∧
        gpuMemWrite Config.oneLane 0x82000000 (some fun _ => 1) 1 allocated =
          some (.ok (), worked) ∧
        (∀ i ∈ List.range 64, r.device.pmem (0x82000000 + BitVec.ofNat 32 i) = 0 ∧
          allocated.pmem (0x82000000 + BitVec.ofNat 32 i) = 0) ∧
        worked.pmem 0x82000000 = 1 := by
  have observed : (do
      let loaded ← withKernel (Verilog.vgpuTop Config.oneLane) Config.oneLane .hardwareDiffTest
        [Instruction.ebreak]
      let blockSize ← loaded.2.launchChecks Config.oneLane loaded.1 oneThread
      let prepared ← loaded.2.prepare Config.oneLane .hardwareDiffTest loaded.1 oneThread blockSize
      let pmem := prepared.2.device.pmem
      let started := (prepared.2.models.iss.gpuIssInit
        (BitVec.ofNat 32 Config.oneLane.numHarts)).tryLaunch Config.oneLane true
      let launched ← (prepared.2.models.rtl.gpuRtlLaunch Config.oneLane .hardwareDiffTest).run pmem
      let ended ← (launched.1.waitCycles Config.oneLane .hardwareDiffTest gpuWaitLimit).run launched.2
      let buffer ← gpuMemAlloc Config.oneLane 4 true prepared.2.device
      let wrote ← gpuMemWrite Config.oneLane 0x82000000 (some fun _ => 1) 1 buffer.2
      some (decide (prepared.1.isOk = true ∧ started.1 = true ∧ started.2.ncores = 1 ∧
        started.2.rr = 0 ∧ started.2.done = false ∧ started.2.faulted = false ∧
        (started.2.cores 0).halted = false ∧
        OpenGPU.paddrRead Config.oneLane pmem (started.2.cores 0).pc 4 = some Instruction.ebreak ∧
        prepared.2.models.rtl.quietLaunch Config.oneLane .hardwareDiffTest 0x81000000 pmem = true ∧
        launched.1.quietRounds Config.oneLane .hardwareDiffTest 0x81000000 pmem 10 = true ∧
        ended.1.1 = RtlSim.Stop.rest ∧ buffer.1.toOption = some 0x82000000 ∧
        wrote.1.isOk = true ∧
        (∀ i ∈ List.range 64, pmem (0x82000000 + BitVec.ofNat 32 i) = 0 ∧
          buffer.2.pmem (0x82000000 + BitVec.ofNat 32 i) = 0) ∧
        wrote.2.pmem 0x82000000 = 1))) =
      some true := by
    decide +kernel
  obtain ⟨⟨kernel, before⟩, loads, observed⟩ := Option.bind_eq_some_iff.mp observed
  obtain ⟨blockSize, checked, observed⟩ := Option.bind_eq_some_iff.mp observed
  obtain ⟨⟨outcome, prepared⟩, prepares, observed⟩ := Option.bind_eq_some_iff.mp observed
  obtain ⟨⟨rtl, rtlMem⟩, launches, observed⟩ := Option.bind_eq_some_iff.mp observed
  obtain ⟨⟨⟨stop, sim⟩, last⟩, ended, observed⟩ := Option.bind_eq_some_iff.mp observed
  obtain ⟨⟨answer, allocated⟩, allocates, observed⟩ := Option.bind_eq_some_iff.mp observed
  obtain ⟨⟨written, worked⟩, writes, observed⟩ := Option.bind_eq_some_iff.mp observed
  obtain ⟨isOk, starts, lone, first, running, noFault, live, fetched, quietLaunch, quietRounds,
    rests, placed, wrote, zero, one⟩ := of_decide_eq_true (Option.some.inj observed)
  obtain rfl := (RtlSim.looks_gpuRtlLaunch rfl quietLaunch).kept _ _ launches
  have looks := RtlSim.looks_waitCycles rfl quietRounds gpuWaitLimit
  obtain rfl := looks.kept _ _ ended
  obtain rfl : stop = .rest := rests
  obtain ⟨reference, sound, refRuns⟩ :=
    Iss.run_waitSteps_ebreak lone first running live fetched 99999998
  cases outcome with
  | error code => cases isOk
  | ok _ =>
      cases answer with
      | error code => cases placed
      | ok base =>
          obtain rfl : base = 0x82000000 := Option.some.inj placed
          cases written with
          | error code => cases wrote
          | ok _ =>
              have refers : prepared.runModels
                  (referenceRun Config.oneLane .hardwareDiffTest true) =
                  some (true,
                    { prepared with models := { prepared.models with iss := reference } }) := by
                rw [runModels, run_referenceRun (Prod.ext starts rfl),
                  show gpuWaitLimit = 99999998 + 2 from rfl, refRuns]
                rfl
              refine ⟨kernel, before,
                { prepared with
                  models := ⟨reference, rtl⟩
                  running := true
                  reference := some prepared.device.pmem
                  referenceFault := reference.faulted },
                allocated, worked, reachable_withKernel loads, ?_, ⟨?_, looks.places⟩, allocates,
                writes, zero, one⟩
              · rw [gpuLaunch, checked]
                dsimp only
                rw [launchAccepted, prepares, Option.bind_some]
                dsimp only
                rw [if_pos (show Build.hardwareDiffTest.diffTest = true from rfl), runReference]
                simp only [Bool.not_true, Bool.false_eq_true, if_false]
                rw [refers]
                show startExecution Config.oneLane .hardwareDiffTest ⟨true, true⟩
                  { prepared with
                    models := { prepared.models with iss := reference }
                    reference := some prepared.device.pmem
                    referenceFault := reference.faulted } = _
                have acts : (Models.gpuModelLaunch Config.oneLane .hardwareDiffTest .hm true
                    { prepared.models with iss := reference }).run prepared.device.pmem =
                    some ((true, ⟨reference, rtl⟩), prepared.device.pmem) := by
                  unfold Models.gpuModelLaunch
                  dsimp only
                  rw [LocalAction.run_bind, launches]
                  rfl
                rw [startExecution, runModels,
                  show Build.hardwareDiffTest.executionKind = .hm from rfl, acts]
                rfl
              · exact ⟨sound.trans noFault, _, sim, prepared.device.pmem, rfl, ended,
                  fun _ _ => rfl⟩

/-- The first buffer of the heap is no part of a passing kernel. -/
theorem Passing.apart
    {r : Runtime (Verilog.vgpuTop Config.oneLane)}
    (passing : Passing r)
    {bytes : Set Word}
    (inBuffer : bytes ⊆ accessBytes 0x82000000 64) :
    Disjoint bytes (kernelBytes Config.oneLane .hardwareDiffTest r) := by
  refine Disjoint.mono inBuffer passing.fetches (Set.disjoint_left.mpr fun a buffer fetched => ?_)
  rw [mem_accessBytes_iff (by decide)] at buffer fetched
  rw [show (0x82000000 : Word).toNat = 0x82000000 from rfl] at buffer
  rw [show (0x81000000 : Word).toNat = 0x81000000 from rfl] at fetched
  omega

/-- An allocation in zero memory goes unnoticed. -/
theorem hostWork_unnoticed_alloc :
    ∃ (r : Runtime (Verilog.vgpuTop Config.oneLane)) (device : GpuDevice),
      hostWork Config.oneLane [.alloc 4 true] r.device = some ([.alloc (.ok 0x82000000)], device) ∧
        SameWait (kernelBytes Config.oneLane .hardwareDiffTest r)
          (r.gpuWait Config.oneLane .hardwareDiffTest)
          ({ r with device := device }.gpuWait Config.oneLane .hardwareDiffTest) := by
  obtain ⟨kernel, before, r, allocated, worked, reachable, launch, passing, allocates, _, zero,
    _⟩ :=
    exists_passing
  have work : hostWork Config.oneLane [.alloc 4 true] r.device =
      some ([.alloc (.ok 0x82000000)], allocated) := by
    rw [hostWork, heapCall_alloc allocates]
    rfl
  have written : hostBytes [.alloc 4 true] [.alloc (.ok 0x82000000)] ⊆
      accessBytes 0x82000000 64 := by
    rintro a (inside | inside)
    · exact inside
    · exact inside.elim
  refine ⟨r, allocated, work, (hostWork_unnoticed_iff ⟨rfl, rfl⟩ reachable launch work
    (passing.apart written)).mpr fun _ _ a _ => ?_⟩
  by_cases inside : a ∈ accessBytes 0x82000000 64
  · have place : a = 0x82000000 + BitVec.ofNat 32 (a - 0x82000000).toNat := by
      rw [BitVec.ofNat_toNat, BitVec.setWidth_eq, BitVec.add_comm, BitVec.sub_add_cancel]
    obtain ⟨old, new⟩ := zero (a - 0x82000000).toNat (List.mem_range.mpr inside)
    rw [place, old, new]
  · exact (heapCall_frame (heapCall_alloc allocates)).1 inside

/-- An allocation and a write to it make a passing kernel a failure of the backend. -/
theorem hostWork_noticed :
    ∃ (kernel : GpuKernel) (before r : Runtime (Verilog.vgpuTop Config.oneLane))
      (device : GpuDevice),
      Reachable Config.oneLane .hardwareDiffTest before ∧
        before.gpuLaunch Config.oneLane .hardwareDiffTest ⟨true, true⟩ (some kernel)
          (some oneThread) = some (.success, r) ∧
        hostWork Config.oneLane [.alloc 4 true, .write 0x82000000 (some fun _ => 1) 1] r.device =
          some ([.alloc (.ok 0x82000000), .write (.ok ())], device) ∧
        Disjoint (accessBytes 0x82000000 64)
          (kernelBytes Config.oneLane .hardwareDiffTest r) ∧
        ¬SameWait (kernelBytes Config.oneLane .hardwareDiffTest r)
          (r.gpuWait Config.oneLane .hardwareDiffTest)
          ({ r with device := device }.gpuWait Config.oneLane .hardwareDiffTest) := by
  obtain ⟨kernel, before, r, allocated, worked, reachable, launch, passing, allocates, writes, zero,
    one⟩ := exists_passing
  have work : hostWork Config.oneLane [.alloc 4 true, .write 0x82000000 (some fun _ => 1) 1]
      r.device = some ([.alloc (.ok 0x82000000), .write (.ok ())], worked) := by
    rw [hostWork, heapCall, allocates, Option.map_some, Option.bind_some, hostWork, heapCall,
      writes]
    rfl
  have written : hostBytes [.alloc 4 true, .write 0x82000000 (some fun _ => 1) 1]
      [.alloc (.ok 0x82000000), .write (.ok ())] ⊆ accessBytes 0x82000000 64 := by
    rintro a (inside | inside | inside)
    · exact inside
    · exact Nat.lt_trans inside (by decide)
    · exact inside.elim
  have launched := launched_of_gpuLaunch ⟨rfl, rfl⟩ (reachable.wellKept ⟨rfl, rfl⟩) launch
  obtain ⟨elsewhere, valid⟩ := hostWork_frame work
  refine ⟨kernel, before, r, worked, reachable, launch, work,
    passing.apart (Set.Subset.refl _), fun same => ?_⟩
  have worked : WorkedOn Config.oneLane .hardwareDiffTest r { r with device := worked } _ :=
    ⟨valid, rfl, rfl, rfl, rfl, elsewhere, passing.apart written⟩
  have unchanged := (sameWait_diffTest_iff ⟨rfl, rfl⟩ rfl launched worked).mp same passing.ends
    0x82000000 (by decide)
  have before : r.device.pmem 0x82000000 = 0 := (zero 0 (by decide)).1
  rw [before] at unchanged
  exact absurd (one.symm.trans unchanged) (by decide)

end Runtime

end OpenGPU
