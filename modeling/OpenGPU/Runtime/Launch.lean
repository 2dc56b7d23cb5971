import OpenGPU.Backend.Models
import OpenGPU.Runtime.HeapHistory

/-!
# The runtime: launching and waiting

The rest of `sw/runtime/gpu/gpu.c` in all builds: the device's life cycle,
`gpu_launch` and `gpu_wait`. The device handle is always the one device. A call
returns its result and the state afterwards; `none` is a call that does not
return, because an assertion fails or the behaviour is undefined. Trace counters
only gate printing and are left out.
-/

namespace OpenGPU

/-- `gpu_result_t`. -/
inductive GpuResult
  | success
  | invalidArgument
  | outOfMemory
  | io
  | badState
  | timeout
  | backend
  deriving DecidableEq

/-- The code of a failed memory function. -/
def GpuError.result : GpuError → GpuResult
  | .invalidArgument => .invalidArgument
  | .outOfMemory => .outOfMemory

/-- `gpu_launch_info_t`. -/
structure GpuLaunchInfo where
  gridDim : Dim3
  blockDim : Dim3
  argsHost : Option (Nat → Byte)
  argsSize : HostSize

/-- What `configure_model` receives. -/
def GpuLaunchInfo.request (info : GpuLaunchInfo) (kernel : GpuKernel) (argsAddr : Word) :
    LaunchInfo where
  entry := kernel.entry
  argsAddr := argsAddr
  argsSize := info.argsSize.setWidth 32
  gridDim := info.gridDim
  blockDim := info.blockDim

/-- The kind of `execution_model`. -/
def Build.executionKind : Build → ModelKind
  | .softwareModel => .sm
  | _ => .hm

/-- `GPU_WAIT_LIMIT`. -/
def gpuWaitLimit : Nat := 100000000

/-- What `malloc` in `gpu_launch` and `calloc` in `gpu_iss_launch` answer. -/
structure HostMemory where
  mallocs : Bool
  calloc : Bool

/-- The static variables of `gpu.c` and of the models. -/
structure Runtime (V : VGPUTop) where
  device : GpuDevice
  running : Bool
  launchArgs : Word
  launchArgsUsed : Bool
  models : Models V
  reference : Option Pmem
  referenceFault : Bool

namespace Runtime

open GpuDevice

variable {V : VGPUTop} (cfg : Config) (build : Build)

/-- Let the models work on physical memory. -/
def runModels {ρ : Type} (act : Models V → PmemAction (ρ × Models V)) (r : Runtime V) :
    Option (ρ × Runtime V) :=
  ((act r.models).run r.device.pmem).map fun result =>
    (result.1.1,
      { r with models := result.1.2, device := { r.device with pmem := result.2 } })

/-- `release_launch_args`. -/
def releaseLaunchArgs (r : Runtime V) : Runtime V :=
  if r.launchArgsUsed then
    { r with
      device := (gpuMemFree r.launchArgs r.device).2
      launchArgs := 0
      launchArgsUsed := false }
  else r

/-- Forget the reference image. -/
def freeReference (r : Runtime V) : Runtime V := { r with reference := none }

/-! ## `gpu_launch` -/

/-- The checks of `gpu_launch`. The result is the block size that it passes on. -/
def launchChecks (kernel : GpuKernel) (info : GpuLaunchInfo) (r : Runtime V) : Option Word :=
  if !r.device.validDevice || kernel.generation != r.device.kernelGeneration || r.running ||
      (info.argsSize != 0 && info.argsHost.isNone) ||
      decide (0xffffffff < info.argsSize) then none
  else (info.request kernel 0).gpuLaunchBlockSize cfg

/-- Allocate the argument buffer and fill it in. -/
def placeArgs (info : GpuLaunchInfo) (r : Runtime V) :
    Option (Except GpuError Unit × Runtime V) :=
  let r := { r with launchArgs := 0, launchArgsUsed := false }
  if info.argsSize = 0 then some (.ok (), r)
  else
    (gpuMemAlloc cfg info.argsSize true r.device).bind fun result =>
      match result.1 with
      | .error code => some (.error code, { r with device := result.2 })
      | .ok address =>
          guestToHost cfg address
            (.ok (),
              { r with
                device :=
                  { result.2 with
                    pmem := copyBytes result.2.pmem address info.argsSize.toNat
                      (info.argsHost.getD fun _ => 0) }
                launchArgs := address
                launchArgsUsed := true })

/-- Configure the execution model and, in DiffTest, the reference model. -/
def configureModels (request : LaunchInfo) (blockSize : Word) (models : Models V) :
    PmemAction (Unit × Models V) := do
  let models ← models.configureModel cfg build build.executionKind request blockSize
  let models ← (if build.diffTest then models.configureModel cfg build .sm request blockSize
    else pure models)
  pure ((), models)

/-- `gpu_launch` up to the configuration of the models. -/
def prepare (kernel : GpuKernel) (info : GpuLaunchInfo) (blockSize : Word) (r : Runtime V) :
    Option (Except GpuError Unit × Runtime V) :=
  (r.placeArgs cfg info).bind fun placed =>
    match placed.1 with
    | .error code => some (.error code, placed.2)
    | .ok () =>
        (placed.2.runModels
          (configureModels cfg build (info.request kernel placed.2.launchArgs) blockSize)).map
          fun configured => (.ok (), configured.2)

/-- The launch of the reference model and the wait for it. -/
def referenceRun (calloc : Bool) (models : Models V) : PmemAction (Bool × Models V) := do
  let started ← models.gpuModelLaunch cfg build .sm calloc
  if started.1 then started.2.gpuModelWait cfg build .sm gpuWaitLimit
  else pure (false, started.2)

/-- The reference run of a DiffTest launch, with the snapshots around it. The
answer is the result of a launch that ends here. -/
def runReference (host : HostMemory) (r : Runtime V) :
    Option (Option GpuResult × Runtime V) :=
  if !host.mallocs then some (some .outOfMemory, r.freeReference.releaseLaunchArgs)
  else
    (r.runModels (referenceRun cfg build host.calloc)).map fun result =>
      let done := result.1
      let after := { result.2 with referenceFault := result.2.models.gpuModelFault .sm }
      if !done then (some .timeout, after.freeReference.releaseLaunchArgs)
      else
        (none,
          { after with
            reference := some after.device.pmem
            device := { after.device with pmem := r.device.pmem } })

/-- Launch the execution model. -/
def startExecution (host : HostMemory) (r : Runtime V) : Option (GpuResult × Runtime V) :=
  (r.runModels fun models =>
    models.gpuModelLaunch cfg build build.executionKind host.calloc).map fun result =>
      if !result.1 then (.backend, result.2.freeReference.releaseLaunchArgs)
      else (.success, { result.2 with running := true })

/-- `gpu_launch` after its checks. -/
def launchAccepted (host : HostMemory) (kernel : GpuKernel) (info : GpuLaunchInfo)
    (blockSize : Word) (r : Runtime V) : Option (GpuResult × Runtime V) :=
  (r.prepare cfg build kernel info blockSize).bind fun prepared =>
    match prepared.1 with
    | .error code => some (code.result, prepared.2)
    | .ok () =>
        if build.diffTest then
          (prepared.2.runReference cfg build host).bind fun referenced =>
            match referenced.1 with
            | some failure => some (failure, referenced.2)
            | none => referenced.2.startExecution cfg build host
        else prepared.2.startExecution cfg build host

/-- `gpu_launch`; `none` for the kernel or the request is a null pointer. -/
def gpuLaunch (host : HostMemory) (kernel : Option GpuKernel) (info : Option GpuLaunchInfo)
    (r : Runtime V) : Option (GpuResult × Runtime V) :=
  match kernel, info with
  | some kernel, some info =>
      match r.launchChecks cfg kernel info with
      | some blockSize => r.launchAccepted cfg build host kernel info blockSize
      | none => some (.invalidArgument, r)
  | _, _ => some (.invalidArgument, r)

/-! ## `gpu_wait` -/

/-- The comparison of physical memory with the image of the reference run. -/
def samePmem (reference pmem : Pmem) : Bool :=
  (RtlSim.window cfg).all fun a => reference a == pmem a

/-- What `gpu_wait` makes of a finished or interrupted run. -/
def conclude (completed : Bool) (r : Runtime V) : Option (GpuResult × Runtime V) :=
  if !completed then
    some (if r.models.gpuModelFault build.executionKind then .backend else .timeout,
      r.freeReference)
  else if r.models.gpuModelFault build.executionKind then some (.backend, r)
  else if build.diffTest then
    if r.referenceFault then some (.backend, r.freeReference)
    else
      r.reference.map fun reference =>
        (if samePmem cfg reference r.device.pmem then .success else .backend, r.freeReference)
  else some (.success, r)

/-- `gpu_wait`. -/
def gpuWait (r : Runtime V) : Option (GpuResult × Runtime V) :=
  if !r.device.validDevice || !r.running then some (.badState, r)
  else
    (r.runModels fun models =>
      models.gpuModelWait cfg build build.executionKind gpuWaitLimit).bind fun waited =>
        conclude cfg build waited.1 { waited.2 with running := false }.releaseLaunchArgs

/-! ## The life of a device -/

/-- The static variables when the process starts. -/
def created : Runtime V where
  device :=
    { runtimeInitialized := false
      opened := false
      kernelGeneration := 0
      allocations := fun _ => ⟨0, 0, false⟩
      kernels := []
      pmem := fun _ => 0 }
  running := false
  launchArgs := 0
  launchArgsUsed := false
  models := { iss := Iss.fresh fun _ => 0, rtl := RtlSim.created }
  reference := none
  referenceFault := false

/-- Initialise the models that the build has. -/
def initModels (models : Models V) : PmemAction (Unit × Models V) := do
  let iss := if build.diffTest || build.executionKind == .sm then
    models.iss.gpuIssInit (BitVec.ofNat 32 cfg.numHarts) else models.iss
  let rtl ← (if build.executionKind == .hm then RtlSim.gpuRtlInit cfg build else pure models.rtl)
  pure ((), { iss := iss, rtl := rtl })

/-- `memu_runtime_init`, once in the process and without arguments of its own. -/
def memuRuntimeInit : Option (Runtime V) :=
  (created.runModels (initModels cfg build)).map fun result =>
    { result.2 with device := { result.2.device with runtimeInitialized := true } }

/-- `gpu_device_open`. -/
def gpuDeviceOpen (r : Runtime V) : GpuResult × Runtime V :=
  if !r.device.runtimeInitialized then (.invalidArgument, r)
  else if r.device.opened then (.badState, r)
  else
    (.success,
      { r with
        device := r.device.gpuDeviceOpen
        running := false
        launchArgs := 0
        launchArgsUsed := false })

/-- `gpu_device_close`. -/
def gpuDeviceClose (r : Runtime V) : GpuResult × Runtime V :=
  if !r.device.validDevice then (.invalidArgument, r)
  else if r.running then (.badState, r)
  else
    (.success,
      { r with
        device :=
          { r.device with
            allocations := fun _ => ⟨0, 0, false⟩
            kernels := []
            opened := false }
        reference := none })

/-- The states that any sequence of calls can reach. -/
inductive Reachable : Runtime V → Prop
  | init {r : Runtime V} : memuRuntimeInit cfg build = some r → Reachable r
  | opened {r : Runtime V} : Reachable r → Reachable r.gpuDeviceOpen.2
  | closed {r : Runtime V} : Reachable r → Reachable r.gpuDeviceClose.2
  | memory {r : Runtime V} {call : HeapCall} {reply : HeapReply} {device : GpuDevice} :
      Reachable r → heapCall cfg r.device call = some (reply, device) →
      Reachable { r with device := device }
  | launched {r after : Runtime V} {host : HostMemory} {kernel : Option GpuKernel}
      {info : Option GpuLaunchInfo} {result : GpuResult} :
      Reachable r → r.gpuLaunch cfg build host kernel info = some (result, after) →
      Reachable after
  | waited {r after : Runtime V} {result : GpuResult} :
      Reachable r → r.gpuWait cfg build = some (result, after) → Reachable after

end Runtime

end OpenGPU
