import OpenGPU.Backend.WaitLoop
import OpenGPU.Refinement.RtlRefinesThreads
import OpenGPU.Runtime.HostProgram
import OpenGPU.Runtime.HostWork

/-!
# Host programs on the software model and on the SystemVerilog GPU

Two builds of the runtime: one on the instruction-set simulator, one on the netlist with
DiffTest. A host program whose launches the simulator finishes, with threads that do not
interfere and shift no negative value, cannot tell them apart.
-/

namespace OpenGPU

open Verilog

/-! ## The simulator behind the runtime -/

namespace Iss

variable {cfg : Config} {info : LaunchInfo} {blockSize : Word} {start s final : Iss} {count : Nat}

/-- `gpu_model_launch` after `configure_model`, on memory that is lent to the simulator. -/
theorem exists_tryLaunch
    (accepted : info.Accepted cfg blockSize)
    (s : Iss)
    (pmem : Pmem) :
    ∃ start, ({ s with pmem := pmem } : Iss).modelLaunch cfg info blockSize = some start ∧
      start.pmem = pmem ∧ start.rr < start.ncores ∧
      ((s.configure info blockSize).gpuIssInit (BitVec.ofNat 32 cfg.numHarts)).tryLaunch cfg true =
        (true, { start with pmem := s.pmem }) := by
  obtain ⟨start, launched, facts⟩ := exists_launched accepted { s with pmem := pmem }
  refine ⟨start, launched, facts.pmem, ?_, ?_⟩
  · obtain ⟨positive, _, _, rfl⟩ := gpuIssLaunch_eq_some launched
    exact positive
  · have lent := modelLaunch_eq accepted { s with pmem := pmem }
    have own := modelLaunch_eq accepted s
    rw [launched, configure_eq] at lent
    unfold modelLaunch at own
    rw [tryLaunch, if_pos rfl, own, Option.some.inj lent, configure_eq]
    rfl

/-- A launch that the simulator finishes in time, with threads that do not interfere and shift
no negative value. -/
structure GentleLaunch (cfg : Config) (info : LaunchInfo) (blockSize : Word) (s : Iss) :
    Prop where
  small : blockSize.toNat ≤ 32 * cfg.numThreads
  finishes : ∀ start, s.modelLaunch cfg info blockSize = some start →
    Tame cfg start ∧ NeverShiftsNegative cfg start ∧ ∃ count final,
      ReachableIn cfg start count final ∧ final.Finished ∧
        cycleLimit cfg count info.gridDim.count ≤ gpuWaitLimit

end Iss

namespace Runtime

open GpuDevice

/-- A call that disturbs no running launch and starts gentle launches only. -/
def HostRequest.Gentle {V : VGPUTop} (cfg : Config) (r : Runtime V) : HostRequest → Prop
  | .memory _ => r.running = false
  | .launch kernel info => ∀ k ∈ kernel, ∀ i ∈ info, ∀ blockSize ∈ r.launchChecks cfg k i,
      ∀ placed, r.placeArgs cfg i = some (.ok (), placed) →
        Iss.GentleLaunch cfg (i.request k placed.launchArgs) blockSize
          { placed.models.iss with pmem := placed.device.pmem }
  | _ => True

/-! ## Two runtimes -/

/-- Two runtimes that differ in their models and in the reference run at most. -/
structure SameHost {V : VGPUTop} (soft hard : Runtime V) : Prop where
  device : hard.device = soft.device
  running : hard.running = soft.running
  launchArgs : hard.launchArgs = soft.launchArgs
  launchArgsUsed : hard.launchArgsUsed = soft.launchArgsUsed

namespace SameHost

variable {V : VGPUTop} {cfg : Config} {soft hard : Runtime V}

theorem releaseLaunchArgs
    (same : SameHost soft hard) :
    SameHost soft.releaseLaunchArgs hard.releaseLaunchArgs := by
  obtain ⟨device, running, launchArgs, launchArgsUsed⟩ := same
  unfold Runtime.releaseLaunchArgs
  rw [launchArgsUsed]
  split_ifs
  · exact ⟨by rw [device, launchArgs], running, rfl, rfl⟩
  · exact ⟨device, running, launchArgs, launchArgsUsed⟩

/-- The state in which `gpu_wait` gives its verdict. -/
theorem waited
    (same : SameHost soft hard)
    (models others : Models V)
    (pmem : Pmem) :
    SameHost (soft.waited models pmem) (hard.waited others pmem) := by
  obtain ⟨device, running, launchArgs, launchArgsUsed⟩ := same
  apply releaseLaunchArgs
  exact ⟨by rw [device], rfl, launchArgs, launchArgsUsed⟩

theorem launchChecks
    (same : SameHost soft hard)
    (kernel : GpuKernel)
    (info : GpuLaunchInfo) :
    hard.launchChecks cfg kernel info = soft.launchChecks cfg kernel info := by
  unfold Runtime.launchChecks
  rw [same.device, same.running]

/-- Both allocate the same argument buffer and fill it alike. -/
theorem placeArgs
    (same : SameHost soft hard)
    (info : GpuLaunchInfo) :
    Option.Rel (fun placed other => placed.1 = other.1 ∧ SameHost placed.2 other.2 ∧
        placed.2.running = soft.running ∧
        placed.2.device.validDevice = soft.device.validDevice ∧
        placed.2.models = soft.models ∧ other.2.models = hard.models)
      (soft.placeArgs cfg info) (hard.placeArgs cfg info) := by
  unfold Runtime.placeArgs guestToHost
  dsimp only
  rw [same.device]
  split_ifs
  · exact .some ⟨rfl, ⟨rfl, same.running, rfl, rfl⟩, rfl, rfl, rfl, rfl⟩
  cases allocates : gpuMemAlloc cfg info.argsSize true soft.device with
  | none => exact .none
  | some result =>
      obtain ⟨answer, device⟩ := result
      have valid := (heapCall_frame (heapCall_alloc allocates)).2
      cases answer with
      | error code => exact .some ⟨rfl, ⟨rfl, same.running, rfl, rfl⟩, rfl, valid, rfl, rfl⟩
      | ok address =>
          dsimp only [Option.bind_some]
          split_ifs
          · exact .some ⟨rfl, ⟨rfl, same.running, rfl, rfl⟩, rfl, valid, rfl, rfl⟩
          · exact .none

end SameHost

/-- The instruction-set simulator next to the netlist: both idle, or both about to finish one
launch with the same memory. -/
inductive Paired (cfg : Config) : Runtime (vgpuTop cfg) → Runtime (vgpuTop cfg) → Prop
  | idle {soft hard : Runtime (vgpuTop cfg)}
      (same : SameHost soft hard)
      (idle : soft.running = false)
      (iss : hard.models.iss = soft.models.iss)
      (ready : hard.models.rtl.Ready cfg hard.device.pmem) :
      Paired cfg soft hard
  | running {soft hard : Runtime (vgpuTop cfg)} {info : LaunchInfo} {blockSize : Word}
      {runs : LaunchRuns cfg info blockSize} {m : Model} {bound : Nat} {run : Nat → Model}
      (same : SameHost soft hard)
      (running : soft.running = true)
      (valid : soft.device.validDevice = true)
      (launch : Model.CleanLaunch cfg m bound run)
      (early : 1 < bound)
      (inTime : bound ≤ gpuWaitLimit)
      (plain : runs.Plain)
      (progress : RtlSim.Progress runs run 1 hard.models.rtl hard.device.pmem)
      (waits : (soft.models.iss.waitSteps cfg gpuWaitLimit).run soft.device.pmem =
        some ((true, hard.models.iss), runs.final))
      (clean : hard.models.iss.faulted = false)
      (reference : hard.reference = some runs.final)
      (noFault : hard.referenceFault = false) :
      Paired cfg soft hard

/-- Calls on both that return alike, or that both do not return. -/
def Agree (cfg : Config) {ρ : Type} (soft hard : Option (ρ × Runtime (vgpuTop cfg))) : Prop :=
  Option.Rel (fun left right => left.1 = right.1 ∧ Paired cfg left.2 right.2) soft hard

/-- Answers made from the same results agree. -/
theorem Agree.answered
    {cfg : Config}
    {ρ σ : Type}
    {soft hard : Option (ρ × Runtime (vgpuTop cfg))}
    (agree : Agree cfg soft hard)
    (answer : ρ → σ) :
    Agree cfg (soft.map fun result => (answer result.1, result.2))
      (hard.map fun result => (answer result.1, result.2)) := by
  cases agree with
  | none => exact .none
  | some related => exact .some ⟨congrArg answer related.1, related.2⟩

section Paired

variable {cfg : Config} {soft hard placed other : Runtime (vgpuTop cfg)}

theorem Paired.sameHost
    (paired : Paired cfg soft hard) :
    SameHost soft hard := by
  cases paired with
  | idle same => exact same
  | running same => exact same

/-! ## The calls -/

/-- `gpu_wait`: the simulator finishes the launch, and so does the netlist. -/
theorem Paired.gpuWait
    (paired : Paired cfg soft hard)
    (threads : cfg.numThreads ≤ 8) :
    Agree cfg (soft.gpuWait cfg .softwareModel) (hard.gpuWait cfg .hardwareDiffTest) := by
  cases paired with
  | idle same idle iss ready =>
      have refused : ∀ {r : Runtime (vgpuTop cfg)} {build : Build}, r.running = false →
          r.gpuWait cfg build = some (.badState, r) := fun idle => by
        unfold Runtime.gpuWait
        rw [idle, Bool.not_false, Bool.or_true, if_pos rfl]
      rw [refused idle, refused (same.running.trans idle)]
      exact .some ⟨rfl, .idle same idle iss ready⟩
  | running same running valid launch early inTime plain progress waits clean reference noFault =>
      obtain ⟨completed, next, after, rtlWaits, verdict, ends⟩ :=
        progress.exists_gpuRtlWait threads launch early gpuWaitLimit
      obtain rfl := verdict.mpr ⟨plain, by omega⟩
      obtain ⟨rtlClean, ready, memory⟩ := ends rfl
      rw [← memory] at waits reference
      have softWait : soft.gpuWait cfg .softwareModel =
          some (.success, soft.waited { soft.models with iss := hard.models.iss } after) := by
        rw [gpuWait_eq valid running, show Build.softwareModel.executionKind = .sm from rfl,
          Models.gpuModelWait, LocalAction.run_bind, waits]
        show conclude cfg .softwareModel true _ = _
        rw [conclude, waited_models, show Build.softwareModel.executionKind = .sm from rfl,
          Models.gpuModelFault, clean]
        rfl
      have hardWait : hard.gpuWait cfg .hardwareDiffTest =
          some (.success, (hard.waited { hard.models with rtl := next } after).freeReference) := by
        rw [gpuWait_eq (by rw [same.device]; exact valid) (same.running.trans running),
          show Build.hardwareDiffTest.executionKind = .hm from rfl, Models.gpuModelWait,
          LocalAction.run_bind, rtlWaits]
        show conclude cfg .hardwareDiffTest true _ = _
        rw [conclude, waited_models, show Build.hardwareDiffTest.executionKind = .hm from rfl,
          Models.gpuModelFault, rtlClean, waited_referenceFault, noFault, waited_reference,
          reference, waited_pmem]
        have same : samePmem cfg after after = true := samePmem_iff.mpr fun _ _ => rfl
        simp [same, Build.diffTest]
      have kept := same.waited { soft.models with iss := hard.models.iss }
        { hard.models with rtl := next } after
      rw [softWait, hardWait]
      refine .some ⟨rfl, .idle ⟨kept.device, kept.running, kept.launchArgs,
        kept.launchArgsUsed⟩ ?_ ?_ ?_⟩
      · exact releaseLaunchArgs_running _
      · rw [freeReference, waited_models, waited_models]
      · rw [freeReference, waited_models, waited_pmem]
        exact ready

/-- `gpu_launch` on the simulator, from the placed arguments on. -/
theorem launchAccepted_softwareModel
    {kernel : GpuKernel}
    {info : GpuLaunchInfo}
    {blockSize : Word}
    {started : Iss}
    (places : soft.placeArgs cfg info = some (.ok (), placed))
    (launches : ((placed.models.iss.configure (info.request kernel placed.launchArgs)
      blockSize).gpuIssInit (BitVec.ofNat 32 cfg.numHarts)).tryLaunch cfg true = (true, started)) :
    soft.launchAccepted cfg .softwareModel ⟨true, true⟩ kernel info blockSize =
      some (.success,
        { placed with models := { placed.models with iss := started }, running := true }) := by
  rw [launchAccepted, prepare, places, Option.bind_some]
  dsimp only
  rw [runModels, run_configureModels_sm, Option.map_some, Option.map_some, Option.bind_some]
  dsimp only
  rw [if_neg (show ¬Build.softwareModel.diffTest = true by decide), startExecution, runModels,
    show Build.softwareModel.executionKind = .sm from rfl, Models.gpuModelLaunch, launches]
  rfl

/-- `gpu_launch` on the netlist, which finishes the reference run on the way. -/
theorem launchAccepted_hardwareDiffTest
    {kernel : GpuKernel}
    {info : GpuLaunchInfo}
    {request : LaunchInfo}
    {blockSize : Word}
    {iss started last : Iss}
    {written pulsed : RtlSim (vgpuTop cfg)}
    {pmem final : Pmem}
    (places : hard.placeArgs cfg info = some (.ok (), placed))
    (requested : info.request kernel placed.launchArgs = request)
    (simulator : placed.models.iss = iss)
    (memory : placed.device.pmem = pmem)
    (writes : ((request.configurationWrites blockSize).foldlM
      (fun (sim : RtlSim (vgpuTop cfg)) write =>
        sim.gpuRtlDcrWrite cfg .hardwareDiffTest write.1 write.2) placed.models.rtl).run pmem =
      some (written, pmem))
    (launches : ((iss.configure request blockSize).gpuIssInit
      (BitVec.ofNat 32 cfg.numHarts)).tryLaunch cfg true = (true, started))
    (waits : (started.waitSteps cfg gpuWaitLimit).run pmem = some ((true, last), final))
    (begins : (written.gpuRtlLaunch cfg .hardwareDiffTest).run pmem = some (pulsed, pmem)) :
    hard.launchAccepted cfg .hardwareDiffTest ⟨true, true⟩ kernel info blockSize =
      some (.success,
        { placed with
          models := ⟨last, pulsed⟩
          reference := some final
          referenceFault := last.faulted
          running := true }) := by
  subst requested simulator memory
  have configures : placed.runModels (configureModels cfg .hardwareDiffTest
      (info.request kernel placed.launchArgs) blockSize) =
      some ((), { placed with
        models := ⟨placed.models.iss.configure (info.request kernel placed.launchArgs) blockSize,
          written⟩ }) := by
    rw [runModels, configureModels, LocalAction.run_bind,
      show Build.hardwareDiffTest.executionKind = .hm from rfl, Models.run_configureModel_hm,
      writes]
    rfl
  have refers := @run_referenceRun _ cfg .hardwareDiffTest true
    ⟨placed.models.iss.configure (info.request kernel placed.launchArgs) blockSize, written⟩ _
    launches placed.device.pmem
  rw [waits] at refers
  have execution : (Models.gpuModelLaunch cfg .hardwareDiffTest .hm true
      (⟨last, written⟩ : Models (vgpuTop cfg))).run placed.device.pmem =
      some ((true, ⟨last, pulsed⟩), placed.device.pmem) := by
    rw [Models.gpuModelLaunch, LocalAction.run_bind, begins]
    rfl
  rw [launchAccepted, prepare, places, Option.bind_some]
  dsimp only
  rw [configures, Option.map_some, Option.bind_some]
  dsimp only
  rw [if_pos (show Build.hardwareDiffTest.diffTest = true from rfl), runReference,
    if_neg (by decide), runModels, refers]
  dsimp only [Option.map_some, Option.bind_some]
  rw [if_neg (by decide)]
  dsimp only
  rw [startExecution, runModels, show Build.hardwareDiffTest.executionKind = .hm from rfl,
    execution]
  rfl

theorem blockSize_of_launchChecks
    {V : VGPUTop}
    {r : Runtime V}
    {kernel : GpuKernel}
    {info : GpuLaunchInfo}
    {blockSize : Word}
    (checked : r.launchChecks cfg kernel info = some blockSize)
    (argsAddr : Word) :
    (info.request kernel argsAddr).gpuLaunchBlockSize cfg = some blockSize := by
  unfold Runtime.launchChecks at checked
  split_ifs at checked
  exact checked

/-- With the arguments in place a gentle launch starts on both. -/
theorem SameHost.exists_started
    (same : SameHost placed other)
    (threads : cfg.numThreads ≤ 8)
    (cores : cfg.numCores ≤ 32)
    (valid : placed.device.validDevice = true)
    (iss : other.models.iss = placed.models.iss)
    (ready : other.models.rtl.Ready cfg placed.device.pmem)
    {kernel : GpuKernel}
    {info : GpuLaunchInfo}
    {blockSize : Word}
    (places : soft.placeArgs cfg info = some (.ok (), placed))
    (otherPlaces : hard.placeArgs cfg info = some (.ok (), other))
    (checked : (info.request kernel placed.launchArgs).gpuLaunchBlockSize cfg = some blockSize)
    (gentle : Iss.GentleLaunch cfg (info.request kernel placed.launchArgs) blockSize
      { placed.models.iss with pmem := placed.device.pmem }) :
    Agree cfg (soft.launchAccepted cfg .softwareModel ⟨true, true⟩ kernel info blockSize)
      (hard.launchAccepted cfg .hardwareDiffTest ⟨true, true⟩ kernel info blockSize) := by
  have narrow := threads.trans (show 8 ≤ 32 by decide)
  have accepted := LaunchInfo.accepted_of_gpuLaunchBlockSize checked
  have faithful := Model.faithfulSets_of_le cores narrow (le_refl (32 * cfg.numThreads))
  -- the simulator
  obtain ⟨start, launched, lent, inRange, launches⟩ :=
    Iss.exists_tryLaunch accepted placed.models.iss placed.device.pmem
  obtain ⟨tame, never, count, final, reached, finished, inTime⟩ := gentle.finishes start launched
  have waits := reached.run_waitSteps_finished inRange finished placed.models.iss.pmem
    ((le_cycleLimit cfg count _).trans inTime)
  rw [lent] at waits
  -- the netlist
  obtain ⟨runs, rfl, samePmem, last, rfl⟩ :=
    exists_launchRuns accepted launched tame reached finished
  have plain := (runs.plain_iff launched tame reached.reachable finished).mpr never
  obtain ⟨configured, configures⟩ := ready.rest.exists_configureModel faithful
    ((info.request kernel placed.launchArgs).configurationWrites blockSize)
  obtain ⟨written, writes, readyWritten, sameModel⟩ := ready.exists_configure narrow configures
  obtain ⟨rest, dcr, mem⟩ := ready.rest.configured configures runs.pmem
  obtain ⟨run, bound, clean, early, _⟩ :=
    rest.exists_cleanLaunch runs checked threads cores gentle.small dcr mem
  have enough := Model.two_le_of_idle accepted rest dcr clean.launch clean.ends
  rw [← sameModel] at clean dcr
  have readyLaunch : written.Ready cfg runs.pmem := readyWritten.write _
  obtain ⟨pulsed, begins, progress⟩ :=
    readyLaunch.exists_launched checked threads gentle.small dcr clean (by omega)
  rw [show runs.pmem = placed.device.pmem from samePmem] at begins progress
  have otherStarts := launchAccepted_hardwareDiffTest otherPlaces
    (congrArg (info.request kernel) same.launchArgs) iss (congrArg GpuDevice.pmem same.device)
    writes launches waits begins
  rw [launchAccepted_softwareModel places launches, otherStarts]
  refine .some ⟨rfl, .running ⟨same.device, rfl, same.launchArgs, same.launchArgsUsed⟩ rfl valid
    clean (by omega) (by omega) plain ?_ ?_ finished.clean ?_ finished.clean⟩
  · show RtlSim.Progress runs run 1 pulsed other.device.pmem
    rw [same.device]
    exact progress
  · rw [last]
    exact waits
  · rw [last]

/-- A launch that has passed the checks starts on both, or ends on both without a place for its
arguments. -/
theorem SameHost.launchAccepted
    (same : SameHost soft hard)
    (threads : cfg.numThreads ≤ 8)
    (cores : cfg.numCores ≤ 32)
    (idle : soft.running = false)
    (iss : hard.models.iss = soft.models.iss)
    (ready : hard.models.rtl.Ready cfg hard.device.pmem)
    {kernel : GpuKernel}
    {info : GpuLaunchInfo}
    {blockSize : Word}
    (checked : soft.launchChecks cfg kernel info = some blockSize)
    (gentle : (HostRequest.launch (some kernel) (some info)).Gentle cfg soft) :
    Agree cfg (soft.launchAccepted cfg .softwareModel ⟨true, true⟩ kernel info blockSize)
      (hard.launchAccepted cfg .hardwareDiffTest ⟨true, true⟩ kernel info blockSize) := by
  have placing := @SameHost.placeArgs _ cfg _ _ same info
  cases places : soft.placeArgs cfg info with
  | none =>
      cases otherPlaces : hard.placeArgs cfg info with
      | none =>
          rw [Runtime.launchAccepted, prepare, places, Runtime.launchAccepted, prepare, otherPlaces]
          exact .none
      | some _ =>
          rw [places, otherPlaces] at placing
          cases placing
  | some result =>
      obtain ⟨answer, placed⟩ := result
      cases otherPlaces : hard.placeArgs cfg info with
      | none =>
          rw [places, otherPlaces] at placing
          cases placing
      | some result =>
          obtain ⟨otherAnswer, other⟩ := result
          rw [places, otherPlaces] at placing
          cases placing with
          | some related =>
          obtain ⟨sameAnswer, sameAfter, stillIdle, stillValid, sameIss, sameRtl⟩ := related
          obtain rfl : answer = otherAnswer := sameAnswer
          have readyAfter : other.models.rtl.Ready cfg placed.device.pmem := by
            rw [show other.models = hard.models from sameRtl]
            exact ready.write _
          have issAfter : other.models.iss = placed.models.iss := by
            rw [show other.models = hard.models from sameRtl,
              show placed.models = soft.models from sameIss, iss]
          cases answer with
          | error code =>
              rw [Runtime.launchAccepted, prepare, places, Runtime.launchAccepted, prepare,
                otherPlaces]
              refine .some ⟨rfl, .idle sameAfter (stillIdle.trans idle) issAfter ?_⟩
              rw [show other.device = placed.device from sameAfter.device]
              exact readyAfter
          | ok _ =>
              exact sameAfter.exists_started threads cores
                (stillValid.trans (accepted_of_launchChecks checked).valid) issAfter readyAfter
                places otherPlaces (blockSize_of_launchChecks checked _)
                (gentle kernel rfl info rfl blockSize checked placed places)

/-- `gpu_launch`. -/
theorem Paired.gpuLaunch
    (paired : Paired cfg soft hard)
    (threads : cfg.numThreads ≤ 8)
    (cores : cfg.numCores ≤ 32)
    {kernel : Option GpuKernel}
    {info : Option GpuLaunchInfo}
    (gentle : (HostRequest.launch kernel info).Gentle cfg soft) :
    Agree cfg (soft.gpuLaunch cfg .softwareModel ⟨true, true⟩ kernel info)
      (hard.gpuLaunch cfg .hardwareDiffTest ⟨true, true⟩ kernel info) := by
  have refused : Agree cfg (some (GpuResult.invalidArgument, soft))
      (some (GpuResult.invalidArgument, hard)) := .some ⟨rfl, paired⟩
  unfold Runtime.gpuLaunch
  cases kernel with
  | none => exact refused
  | some kernel =>
      cases info with
      | none => exact refused
      | some info =>
          dsimp only
          rw [paired.sameHost.launchChecks]
          cases checked : soft.launchChecks cfg kernel info with
          | none => exact refused
          | some blockSize =>
              have free := (accepted_of_launchChecks checked).idle
              cases paired with
              | idle same idle iss ready =>
                  exact same.launchAccepted threads cores idle iss ready checked gentle
              | running _ running => exact Bool.noConfusion (free.symm.trans running)

/-- `gpu_device_open`, which an open device refuses. -/
theorem Paired.gpuDeviceOpen
    (paired : Paired cfg soft hard) :
    soft.gpuDeviceOpen.1 = hard.gpuDeviceOpen.1 ∧
      Paired cfg soft.gpuDeviceOpen.2 hard.gpuDeviceOpen.2 := by
  unfold Runtime.gpuDeviceOpen
  rw [paired.sameHost.device]
  split_ifs with uninitialized opened
  · exact ⟨rfl, paired⟩
  · exact ⟨rfl, paired⟩
  · cases paired with
    | idle same idle iss ready =>
        exact ⟨rfl, .idle ⟨rfl, rfl, rfl, rfl⟩ rfl iss (ready.write _)⟩
    | running _ _ valid =>
        unfold validDevice at valid
        exact absurd (Bool.and_eq_true_iff.mp valid).2 opened

/-- `gpu_device_close`, which a running launch refuses. -/
theorem Paired.gpuDeviceClose
    (paired : Paired cfg soft hard) :
    soft.gpuDeviceClose.1 = hard.gpuDeviceClose.1 ∧
      Paired cfg soft.gpuDeviceClose.2 hard.gpuDeviceClose.2 := by
  unfold Runtime.gpuDeviceClose
  rw [paired.sameHost.device, paired.sameHost.running]
  split_ifs with invalid busy
  · exact ⟨rfl, paired⟩
  · exact ⟨rfl, paired⟩
  · cases paired with
    | idle same idle iss ready =>
        exact ⟨rfl, .idle ⟨rfl, rfl, same.launchArgs, same.launchArgsUsed⟩ idle iss
          (ready.write _)⟩
    | running _ running => exact absurd running busy

/-- Every call. -/
theorem Paired.perform
    (paired : Paired cfg soft hard)
    (threads : cfg.numThreads ≤ 8)
    (cores : cfg.numCores ≤ 32)
    {request : HostRequest}
    (gentle : request.Gentle cfg soft) :
    Agree cfg (request.perform cfg .softwareModel soft)
      (request.perform cfg .hardwareDiffTest hard) := by
  cases request with
  | openDevice =>
      obtain ⟨answer, after⟩ := paired.gpuDeviceOpen
      exact .some ⟨congrArg HostCall.opened answer, after⟩
  | closeDevice =>
      obtain ⟨answer, after⟩ := paired.gpuDeviceClose
      exact .some ⟨congrArg HostCall.closed answer, after⟩
  | memory call =>
      unfold HostRequest.perform
      dsimp only
      rw [paired.sameHost.device]
      cases heapCall cfg soft.device call with
      | none => exact .none
      | some result =>
          cases paired with
          | idle same idle iss ready =>
              exact .some ⟨rfl, .idle ⟨rfl, same.running, same.launchArgs, same.launchArgsUsed⟩
                idle iss (ready.write _)⟩
          | running _ running => exact Bool.noConfusion (gentle.symm.trans running)
  | launch kernel info => exact (paired.gpuLaunch threads cores gentle).answered _
  | wait => exact (paired.gpuWait threads).answered _

/-! ## Programs -/

/-- Both builds start idle. -/
theorem exists_initialized
    (threads : cfg.numThreads ≤ 8)
    (cores : cfg.numCores ≤ 32) :
    ∃ soft hard : Runtime (vgpuTop cfg), memuRuntimeInit cfg .softwareModel = some soft ∧
      memuRuntimeInit cfg .hardwareDiffTest = some hard ∧ Paired cfg soft hard := by
  have narrow := threads.trans (show 8 ≤ 32 by decide)
  obtain ⟨m, inited⟩ := (Model.faithfulSets_of_le cores narrow
    (le_refl (32 * cfg.numThreads))).exists_gpuModelInit
  obtain ⟨sim, starts, ready, _⟩ := RtlSim.exists_ready narrow inited fun _ => 0
  have inits : (initModels cfg .hardwareDiffTest (created : Runtime (vgpuTop cfg)).models).run
      (fun _ => 0) = some (((), ⟨(Iss.fresh fun _ => 0).gpuIssInit (BitVec.ofNat 32 cfg.numHarts),
        sim⟩), fun _ => 0) := by
    unfold initModels
    rw [if_pos (show (Build.hardwareDiffTest.executionKind == .hm) = true from rfl),
      LocalAction.run_bind, starts]
    rfl
  have hardInit : memuRuntimeInit cfg .hardwareDiffTest = some
      { (created : Runtime (vgpuTop cfg)) with
        device :=
          { (created : Runtime (vgpuTop cfg)).device with runtimeInitialized := true }
        models := ⟨(Iss.fresh fun _ => 0).gpuIssInit (BitVec.ofNat 32 cfg.numHarts), sim⟩ } := by
    rw [memuRuntimeInit, runModels, show (created : Runtime (vgpuTop cfg)).device.pmem =
      fun _ => 0 from rfl, inits]
    rfl
  exact ⟨_, _, rfl, hardInit, .idle ⟨rfl, rfl, rfl, rfl⟩ rfl rfl ready⟩

/-- In every state of a program of gentle calls the two builds are paired. -/
theorem HostProgram.agree
    (threads : cfg.numThreads ≤ 8)
    (cores : cfg.numCores ≤ 32)
    {program : HostProgram}
    (gentle : ∀ count answers r,
      program.run (vgpuTop cfg) cfg .softwareModel count = some (answers, r) →
        (program answers).Gentle cfg r)
    (count : Nat) :
    Agree cfg (program.run (vgpuTop cfg) cfg .softwareModel count)
      (program.run (vgpuTop cfg) cfg .hardwareDiffTest count) := by
  induction count with
  | zero =>
      obtain ⟨soft, hard, softInit, hardInit, paired⟩ := exists_initialized threads cores
      rw [run_zero, run_zero, softInit, hardInit]
      exact .some ⟨rfl, paired⟩
  | succ count inductionHypothesis =>
      rw [run_succ, run_succ]
      cases ran : program.run (vgpuTop cfg) cfg .softwareModel count with
      | none =>
          rw [ran] at inductionHypothesis
          generalize program.run (vgpuTop cfg) cfg .hardwareDiffTest count = other at *
          cases inductionHypothesis
          exact .none
      | some result =>
          obtain ⟨answers, soft⟩ := result
          rw [ran] at inductionHypothesis
          generalize program.run (vgpuTop cfg) cfg .hardwareDiffTest count = other at *
          cases inductionHypothesis with
          | @some _ result related =>
              obtain ⟨otherAnswers, hard⟩ := result
              obtain ⟨sameAnswers, paired⟩ := related
              obtain rfl : answers = otherAnswers := sameAnswers
              exact (paired.perform threads cores (gentle count answers soft ran)).answered
                fun answer => answer :: answers

/-- A host program whose calls are gentle on the software model gets the same answers, and
leaves the same device with the same memory, on the netlist of at most 32 cores with at most
8 lanes a warp: DiffTest finds no mismatch, and no launch takes too long. -/
theorem HostProgram.indistinguishable
    {cfg : Config}
    (threads : cfg.numThreads ≤ 8)
    (cores : cfg.numCores ≤ 32)
    {program : HostProgram}
    (gentle : ∀ count answers r,
      program.run (vgpuTop cfg) cfg .softwareModel count = some (answers, r) →
        (program answers).Gentle cfg r)
    (count : Nat) :
    (program.run (vgpuTop cfg) cfg .hardwareDiffTest count).map
        (fun result => (result.1, result.2.device)) =
      (program.run (vgpuTop cfg) cfg .softwareModel count).map
        fun result => (result.1, result.2.device) := by
  have agree := HostProgram.agree threads cores gentle count
  generalize program.run (vgpuTop cfg) cfg .softwareModel count = soft at agree
  generalize program.run (vgpuTop cfg) cfg .hardwareDiffTest count = hard at agree
  cases agree with
  | none => rfl
  | some related =>
      rw [Option.map_some, Option.map_some, related.1, related.2.sameHost.device]

end Paired

/-! ## One kernel -/

/-- The code that a call of `gpu.h` other than a memory call returns. -/
def HostCall.code : HostCall → Option GpuResult
  | .opened result => some result
  | .closed result => some result
  | .memory _ _ => none
  | .launched _ _ result => some result
  | .waited result => some result

/-- Open the device, load the kernel `ebreak`, launch one thread of it, and wait. -/
def HostProgram.oneKernel : HostProgram
  | [] => .openDevice
  | [_] => .memory (.load (some (imageOf [Instruction.ebreak])) 4 true true)
  | [_, _] => .launch (some ⟨0x81000000, 1⟩) (some oneThread)
  | _ => .wait

/-- Its calls are gentle. -/
theorem HostProgram.oneKernel_gentle
    {count : Nat}
    {answers : List HostCall}
    {r : Runtime (vgpuTop Config.oneLane)}
    (ran : oneKernel.run (vgpuTop Config.oneLane) Config.oneLane .softwareModel count =
      some (answers, r)) :
    (oneKernel answers).Gentle Config.oneLane r := by
  have length := length_of_run ran
  match answers with
  | [] => trivial
  | [_] =>
      subst length
      have idle : (oneKernel.run (vgpuTop Config.oneLane) Config.oneLane .softwareModel 1).map
          (fun result => result.2.running) = some false := by
        decide +kernel
      rw [show ([_] : List HostCall).length = 1 from rfl] at ran
      rw [ran] at idle
      exact Option.some.inj idle
  | [_, _] =>
      subst length
      have word : (oneKernel.run (vgpuTop Config.oneLane) Config.oneLane .softwareModel 2).bind
          (fun result => paddrRead Config.oneLane result.2.device.pmem 0x81000000 4) =
            some Instruction.ebreak := by
        decide +kernel
      rw [show ([_, _] : List HostCall).length = 2 from rfl] at ran
      rw [ran] at word
      intro kernel isKernel info isInfo blockSize checked placed places
      cases isKernel
      cases isInfo
      obtain rfl : blockSize = 1 :=
        (Option.some.inj (blockSize_of_launchChecks checked 0)).symm
      cases places
      refine ⟨by decide, fun start launched => ?_⟩
      have atEbreak := (Iss.launched_of_modelLaunch
        (LaunchInfo.accepted_of_gpuLaunchBlockSize (blockSize_of_launchChecks checked 0))
        launched).atEbreak (by decide) word
      obtain ⟨final, reached, finished⟩ := atEbreak.exists_step
      have inTime : cycleLimit Config.oneLane 1 1 ≤ gpuWaitLimit := by decide
      exact ⟨atEbreak.tame, atEbreak.neverShiftsNegative, 1, final, reached, finished, inTime⟩
  | _ :: _ :: _ :: _ => trivial

/-- On both builds it succeeds. -/
theorem HostProgram.indistinguishable_oneKernel :
    (oneKernel.run (vgpuTop Config.oneLane) Config.oneLane .hardwareDiffTest 4).map
        (fun result => result.1.map HostCall.code) =
      some [some .success, some .success, none, some .success] := by
  have soft : (oneKernel.run (vgpuTop Config.oneLane) Config.oneLane .softwareModel 4).map
      (fun result => result.1.map HostCall.code) =
        some [some .success, some .success, none, some .success] := by
    decide +kernel
  have same := congrArg (Option.map fun result => result.1.map HostCall.code)
    (@HostProgram.indistinguishable Config.oneLane (by decide) (by decide)
      oneKernel (fun _ _ _ ran => oneKernel_gentle ran) 4)
  rw [Option.map_map, Option.map_map] at same
  exact same.trans soft

end Runtime

end OpenGPU
