import Mathlib.Data.List.Range
import OpenGPU.Platform.Memory

/-!
# The runtime's heap

The memory functions of `sw/runtime/gpu/gpu.c`. A call returns its error code or
what it stores through its result pointers, and the device afterwards; `none` is
a call that does not return, because an assertion of `guest_to_host` fails or the
search for a place goes on. Host pointers that the functions only compare with
null are a `Bool`; a pointer to host data is the data, or `none` for null. The
answer of the host's own allocator is an argument.
-/

namespace OpenGPU

/-- A `size_t` of the sources. -/
abbrev HostSize := BitVec 64

/-- The failing values of `gpu_result_t` that the memory functions return. -/
inductive GpuError
  | invalidArgument
  | outOfMemory
  deriving DecidableEq

/-- `allocation_t`. -/
structure Allocation where
  address : Word
  size : Word
  used : Bool
  deriving DecidableEq

/-- `struct gpu_kernel`; its device is the only one there is. -/
structure GpuKernel where
  entry : Word
  generation : Word
  deriving DecidableEq

/-- `struct gpu_device`, as far as the memory functions use it, with the
initialisation flag of the runtime and the memory of the guest. -/
structure GpuDevice where
  runtimeInitialized : Bool
  opened : Bool
  kernelGeneration : Word
  allocations : Nat → Allocation
  kernels : List GpuKernel
  pmem : Pmem

/-- `memcpy` or `memset` into the guest memory, from host bytes. -/
def copyBytes (pmem : Pmem) (addr : Word) (length : Nat) (source : Nat → Byte) : Pmem :=
  fun target =>
    if (target - addr).toNat < length then source (target - addr).toNat
    else pmem target

namespace GpuDevice

/-- `GPU_ALIGN`. -/
def gpuAlign : Word := 64

/-- `GPU_MAX_ALLOCS`. -/
def gpuMaxAllocs : Nat := 64

/-- `GPU_HEAP_BASE`. -/
def gpuHeapBase : Word := 0x82000000

/-- `GPU_KERNEL_BASE`. -/
def gpuKernelBase : Word := 0x81000000

/-- `GPU_KERNEL_END`. -/
def gpuKernelEnd : Word := 0x81010000

/-- `CONFIG_MBASE + CONFIG_MSIZE`. -/
def heapEnd (cfg : Config) : Word := cfg.mbase + cfg.msize

/-- `align_up`. -/
def alignUp (value : Word) : Word := (value + gpuAlign - 1) &&& ~~~(gpuAlign - 1)

/-- `range_inside`. -/
def rangeInside (address : Word) (size : HostSize) (first limit : Word) : Bool :=
  size != 0 && decide (first ≤ address) && decide (address < limit) &&
    decide (size ≤ 0xffffffff) && decide (size.setWidth 32 ≤ limit - address)

/-- `valid_device`, for the handle of the device. -/
def validDevice (d : GpuDevice) : Bool := d.runtimeInitialized && d.opened

/-- The test of `allocation_contains` for one slot. -/
def slotContains (slot : Allocation) (address : Word) (size : HostSize) : Bool :=
  slot.used && decide (slot.address ≤ address) &&
    decide (size ≤ slot.size.setWidth 64) &&
    decide ((address - slot.address).setWidth 64 ≤ slot.size.setWidth 64 - size)

/-- `allocation_contains`. -/
def allocationContains (cfg : Config) (d : GpuDevice) (address : Word)
    (size : HostSize) : Bool :=
  rangeInside address size gpuHeapBase (heapEnd cfg) &&
    (List.range gpuMaxAllocs).any fun i => slotContains (d.allocations i) address size

/-- `guest_to_host` of an address, before a use of the result. -/
def guestToHost {α : Type} (cfg : Config) (addr : Word) (use : α) : Option α :=
  if inPmem cfg addr then some use else none

/-- The first slot whose allocation overlaps the candidate. -/
def overlapping (d : GpuDevice) (candidate alignedSize : Word) : Option Nat :=
  (List.range gpuMaxAllocs).find? fun i =>
    let current := d.allocations i
    current.used && decide (candidate < current.address + current.size) &&
      decide (current.address < candidate + alignedSize)

/-- The `while` loop of `gpu_mem_alloc`, for at most `fuel` rounds. -/
def place (cfg : Config) (d : GpuDevice) (alignedSize : Word) : Nat → Word → Option Word
  | 0, _ => none
  | fuel + 1, candidate =>
      if candidate < heapEnd cfg then
        match d.overlapping candidate alignedSize with
        | some i =>
            place cfg d alignedSize fuel
              (alignUp ((d.allocations i).address + (d.allocations i).size))
        | none => some candidate
      else some candidate

/-- More rounds than the loop can take: every round but the last passes another
slot. -/
def placeFuel : Nat := gpuMaxAllocs + 1

/-- `gpu_mem_alloc`. -/
def gpuMemAlloc (cfg : Config) (size : HostSize) (address : Bool) (d : GpuDevice) :
    Option (Except GpuError Word × GpuDevice) :=
  if !d.validDevice || !address || size == 0 || decide (0xffffffff < size) then
    some (.error .invalidArgument, d)
  else
    let alignedSize := alignUp (size.setWidth 32)
    if alignedSize.setWidth 64 < size then some (.error .outOfMemory, d)
    else
      match (List.range gpuMaxAllocs).find? fun i => !(d.allocations i).used with
      | none => some (.error .outOfMemory, d)
      | some slot =>
          (place cfg d alignedSize placeFuel gpuHeapBase).bind fun candidate =>
            if heapEnd cfg ≤ candidate ∨ heapEnd cfg - candidate < alignedSize then
              some (.error .outOfMemory, d)
            else
              guestToHost cfg candidate
                (.ok candidate,
                  { d with
                    allocations :=
                      Function.update d.allocations slot ⟨candidate, alignedSize, true⟩
                    pmem := copyBytes d.pmem candidate alignedSize.toNat fun _ => 0 })

/-- `gpu_mem_free`. -/
def gpuMemFree (address : Word) (d : GpuDevice) : Except GpuError Unit × GpuDevice :=
  if !d.validDevice then (.error .invalidArgument, d)
  else
    match (List.range gpuMaxAllocs).find? fun i =>
        (d.allocations i).used && (d.allocations i).address == address with
    | some i =>
        (.ok (),
          { d with
            allocations :=
              Function.update d.allocations i { d.allocations i with used := false } })
    | none => (.error .invalidArgument, d)

/-- `gpu_mem_write`. -/
def gpuMemWrite (cfg : Config) (address : Word) (source : Option (Nat → Byte))
    (size : HostSize) (d : GpuDevice) : Option (Except GpuError Unit × GpuDevice) :=
  match source with
  | some bytes =>
      if !d.validDevice || !d.allocationContains cfg address size then
        some (.error .invalidArgument, d)
      else
        guestToHost cfg address
          (.ok (), { d with pmem := copyBytes d.pmem address size.toNat bytes })
  | none => some (.error .invalidArgument, d)

/-- `gpu_mem_read`. -/
def gpuMemRead (cfg : Config) (destination : Bool) (address : Word) (size : HostSize)
    (d : GpuDevice) : Option (Except GpuError (List Byte) × GpuDevice) :=
  if !d.validDevice || !destination || !d.allocationContains cfg address size then
    some (.error .invalidArgument, d)
  else
    guestToHost cfg address
      (.ok ((List.range size.toNat).map fun k => d.pmem (address + BitVec.ofNat 32 k)), d)

/-- `gpu_kernel_load_memory`. -/
def gpuKernelLoadMemory (cfg : Config) (image : Option (Nat → Byte)) (size : HostSize)
    (kernel calloc : Bool) (d : GpuDevice) :
    Option (Except GpuError GpuKernel × GpuDevice) :=
  match image with
  | some bytes =>
      if !d.validDevice || !kernel || size == 0 ||
          decide ((gpuKernelEnd - gpuKernelBase).setWidth 64 < size) then
        some (.error .invalidArgument, d)
      else if !calloc then some (.error .outOfMemory, d)
      else
        let loaded : GpuKernel := ⟨gpuKernelBase, d.kernelGeneration + 1⟩
        let cleared :=
          copyBytes d.pmem gpuKernelBase (gpuKernelEnd - gpuKernelBase).toNat fun _ => 0
        guestToHost cfg gpuKernelBase
          (.ok loaded,
            { d with
              pmem := copyBytes cleared gpuKernelBase size.toNat bytes
              kernelGeneration := d.kernelGeneration + 1
              kernels := loaded :: d.kernels })
  | none => some (.error .invalidArgument, d)

/-- `gpu_device_open`, on an initialised runtime whose device is closed. -/
def gpuDeviceOpen (d : GpuDevice) : GpuDevice :=
  { d with
    allocations := fun _ => ⟨0, 0, false⟩
    opened := true
    kernelGeneration := 0
    kernels := [] }

end GpuDevice

end OpenGPU
