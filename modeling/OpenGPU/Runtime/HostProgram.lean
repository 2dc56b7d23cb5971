import OpenGPU.Runtime.History

/-!
# Host programs

A program of the host that calls the runtime, in any build. It chooses every call from the
answers to the calls before, so that two builds that answer alike are called alike. The
allocations of the host itself succeed.
-/

namespace OpenGPU

namespace Runtime

open GpuDevice

/-- A call before it is answered. -/
inductive HostRequest
  | openDevice
  | closeDevice
  | memory (call : HeapCall)
  | launch (kernel : Option GpuKernel) (info : Option GpuLaunchInfo)
  | wait

/-- Make a call. -/
def HostRequest.perform {V : VGPUTop} (cfg : Config) (build : Build) (request : HostRequest)
    (r : Runtime V) : Option (HostCall × Runtime V) :=
  match request with
  | .openDevice => some (.opened r.gpuDeviceOpen.1, r.gpuDeviceOpen.2)
  | .closeDevice => some (.closed r.gpuDeviceClose.1, r.gpuDeviceClose.2)
  | .memory call =>
      (heapCall cfg r.device call).map fun result =>
        (.memory call result.1, { r with device := result.2 })
  | .launch kernel info =>
      (r.gpuLaunch cfg build ⟨true, true⟩ kernel info).map fun result =>
        (.launched kernel info result.1, result.2)
  | .wait => (r.gpuWait cfg build).map fun result => (.waited result.1, result.2)

/-- The next call after some answered calls, the newest one first. -/
abbrev HostProgram := List HostCall → HostRequest

/-- The first calls of a program, in a new process. -/
def HostProgram.run (V : VGPUTop) (cfg : Config) (build : Build) (program : HostProgram) :
    Nat → Option (List HostCall × Runtime V)
  | 0 => (memuRuntimeInit cfg build).map fun r => ([], r)
  | count + 1 =>
      (program.run V cfg build count).bind fun result =>
        ((program result.1).perform cfg build result.2).map fun answered =>
          (answered.1 :: result.1, answered.2)

variable {V : VGPUTop} {cfg : Config} {build : Build} {program : HostProgram}

@[simp] theorem HostProgram.run_zero :
    program.run V cfg build 0 =
      (memuRuntimeInit cfg build).map fun r => ([], r) := rfl

@[simp] theorem HostProgram.run_succ
    (count : Nat) :
    program.run V cfg build (count + 1) =
      (program.run V cfg build count).bind fun result =>
        ((program result.1).perform cfg build result.2).map fun answered =>
          (answered.1 :: result.1, answered.2) := rfl

/-- Every call is answered. -/
theorem HostProgram.length_of_run
    {count : Nat}
    {answers : List HostCall}
    {r : Runtime V}
    (ran : program.run V cfg build count = some (answers, r)) :
    answers.length = count := by
  induction count generalizing answers r with
  | zero =>
      obtain ⟨_, _, same⟩ := Option.map_eq_some_iff.mp ran
      cases same
      rfl
  | succ count inductionHypothesis =>
      obtain ⟨⟨earlier, before⟩, early, rest⟩ := Option.bind_eq_some_iff.mp ran
      obtain ⟨⟨answer, after⟩, _, same⟩ := Option.map_eq_some_iff.mp rest
      cases same
      exact congrArg Nat.succ (inductionHypothesis early)

/-- What a call leaves is a step of the runtime. -/
theorem HostRequest.returns
    {request : HostRequest}
    {r after : Runtime V}
    {answer : HostCall}
    (performed : request.perform cfg build r = some (answer, after)) :
    Returns cfg build ⟨r, answer, after⟩ := by
  cases request with
  | openDevice =>
      cases performed
      exact .opened r
  | closeDevice =>
      cases performed
      exact .closed r
  | memory call =>
      obtain ⟨⟨reply, device⟩, called, same⟩ := Option.map_eq_some_iff.mp performed
      cases same
      exact .memory called
  | launch kernel info =>
      obtain ⟨⟨result, launched⟩, ran, same⟩ := Option.map_eq_some_iff.mp performed
      cases same
      exact .launched ran
  | wait =>
      obtain ⟨⟨result, waited⟩, ran, same⟩ := Option.map_eq_some_iff.mp performed
      cases same
      exact .waited ran

/-- A program makes a history of calls, which are the answers that it has seen. -/
theorem HostProgram.exists_history
    {count : Nat}
    {answers : List HostCall}
    {r : Runtime V}
    (ran : program.run V cfg build count = some (answers, r)) :
    ∃ history, History cfg build (fun _ => True) history r ∧
      history.map Step.call = answers := by
  induction count generalizing answers r with
  | zero =>
      obtain ⟨_, initialized, same⟩ := Option.map_eq_some_iff.mp ran
      cases same
      exact ⟨[], .init initialized, rfl⟩
  | succ count inductionHypothesis =>
      obtain ⟨⟨earlier, before⟩, early, rest⟩ := Option.bind_eq_some_iff.mp ran
      obtain ⟨⟨answer, after⟩, performed, same⟩ := Option.map_eq_some_iff.mp rest
      cases same
      obtain ⟨history, run, calls⟩ := inductionHypothesis early
      refine ⟨⟨before, answer, after⟩ :: history,
        .step run (HostRequest.returns performed) trivial,
        ?_⟩
      rw [List.map_cons, calls]

end Runtime

end OpenGPU
