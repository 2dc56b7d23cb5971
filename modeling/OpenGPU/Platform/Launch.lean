import OpenGPU.Platform.Blocks
import OpenGPU.Platform.Memory

/-!
# Launch requests

What `gpu_launch` of `sw/runtime/gpu/gpu.c` checks about the geometry of a
request, and the configuration writes that `configure_model` makes of it. The
simulator and the hardware models receive the same ten writes.
-/

namespace OpenGPU

/-- The part of a launch request that reaches the models: the entry point of the
kernel, the argument buffer, and the two extents. -/
structure LaunchInfo where
  entry : Word
  argsAddr : Word
  argsSize : Word
  gridDim : Dim3
  blockDim : Dim3

/-- `mul_u32`; `none` is the overflow. -/
def mulU32 (a b : Word) : Option Word :=
  if a.toNat * b.toNat < 2 ^ 32 then some (a * b) else none

theorem mulU32_eq_some
    {a b product : Word}
    (multiplied : mulU32 a b = some product) :
    product.toNat = a.toNat * b.toNat := by
  unfold mulU32 at multiplied
  split_ifs at multiplied with fits
  cases multiplied
  rw [BitVec.toNat_mul, Nat.mod_eq_of_lt fits]

namespace LaunchInfo

/-- The geometry checks of `gpu_launch`. The result is the block size that it
passes on; `none` is a rejected request. -/
def gpuLaunchBlockSize (cfg : Config) (info : LaunchInfo) : Option Word :=
  if info.gridDim.x = 0 ∨ info.blockDim.x = 0 ∨ info.gridDim.y = 0 ∨
      info.blockDim.y = 0 ∨ info.gridDim.z = 0 ∨ info.blockDim.z = 0 then none
  else
    (mulU32 info.blockDim.x info.blockDim.y).bind fun blockXy =>
    (mulU32 blockXy info.blockDim.z).bind fun blockSize =>
      if BitVec.ofNat 32 cfg.contexts < blockSize then none
      else
        (mulU32 info.gridDim.x info.gridDim.y).bind fun gridXy =>
        (mulU32 gridXy info.gridDim.z).bind fun gridSize =>
        (mulU32 gridSize blockSize).map fun _ => blockSize

/-- The writes of `configure_model`, in order. -/
def configurationWrites (info : LaunchInfo) (blockSize : Word) : List (Word × Word) :=
  [(0x010, info.entry), (0x011, info.argsAddr), (0x012, info.argsSize),
    (0x013, info.blockDim.x), (0x014, info.blockDim.y), (0x015, info.blockDim.z),
    (0x016, info.gridDim.x), (0x017, info.gridDim.y), (0x018, info.gridDim.z),
    (0x019, blockSize)]

/-- What acceptance by `gpu_launch` says about a request: nothing is empty, a
block fits on a core, and the threads of the launch can be counted in a word. -/
structure Accepted (cfg : Config) (info : LaunchInfo) (blockSize : Word) : Prop where
  grid : info.gridDim.Positive
  block : info.blockDim.Positive
  size : blockSize.toNat = info.blockDim.count
  fits : blockSize.toNat ≤ cfg.contexts
  total : info.gridDim.count * blockSize.toNat < 2 ^ 32

theorem accepted_of_gpuLaunchBlockSize
    {cfg : Config}
    {info : LaunchInfo}
    {blockSize : Word}
    (checked : info.gpuLaunchBlockSize cfg = some blockSize) :
    info.Accepted cfg blockSize := by
  unfold gpuLaunchBlockSize at checked
  split_ifs at checked with empty
  push Not at empty
  obtain ⟨gridX, blockX, gridY, blockY, gridZ, blockZ⟩ := empty
  obtain ⟨blockXy, blockPlane, checked⟩ := Option.bind_eq_some_iff.mp checked
  obtain ⟨size, blockVolume, checked⟩ := Option.bind_eq_some_iff.mp checked
  split_ifs at checked with tooLarge
  obtain ⟨gridXy, gridPlane, checked⟩ := Option.bind_eq_some_iff.mp checked
  obtain ⟨gridSize, gridVolume, checked⟩ := Option.bind_eq_some_iff.mp checked
  obtain ⟨total, product, rfl⟩ := Option.map_eq_some_iff.mp checked
  have blockCount : size.toNat = info.blockDim.count := by
    rw [mulU32_eq_some blockVolume, mulU32_eq_some blockPlane]
    rfl
  have gridCount : gridSize.toNat = info.gridDim.count := by
    rw [mulU32_eq_some gridVolume, mulU32_eq_some gridPlane]
    rfl
  refine ⟨⟨gridX, gridY, gridZ⟩, ⟨blockX, blockY, blockZ⟩, blockCount, ?_, ?_⟩
  · rw [BitVec.lt_def, BitVec.toNat_ofNat, Nat.mod_eq_of_lt cfg.contexts_lt] at tooLarge
    omega
  · rw [← gridCount, ← mulU32_eq_some product]
    exact total.isLt

namespace Accepted

variable {cfg : Config} {info : LaunchInfo} {blockSize : Word}

theorem size_pos
    (accepted : info.Accepted cfg blockSize) :
    0 < blockSize.toNat :=
  accepted.size ▸ accepted.block.count_pos

theorem count_lt
    (accepted : info.Accepted cfg blockSize) :
    info.gridDim.count < 2 ^ 32 := by
  calc
    info.gridDim.count ≤ info.gridDim.count * blockSize.toNat :=
      Nat.le_mul_of_pos_right _ accepted.size_pos
    _ < 2 ^ 32 := accepted.total

end Accepted

end LaunchInfo

/-! ## A kernel whose lanes part -/

/-- Thread 1 of a block stores its number at the start of the heap, and thread 0 branches
around the store: `csrr x1, 0xcc0; lui x2, 0x82000; beq x1, x0, 8; sw x1, 0(x2); ebreak`. -/
def partingKernel : List Word := [0xcc0020f3, 0x82000137, 0x00008463, 0x00112023, 0x00100073]

/-- A memory that holds it at the entry of a reset. -/
def partingImage : Pmem := fun addr => imageOf partingKernel (addr - 0x81000000).toNat

/-- One block of two threads of that kernel. -/
def pairLaunch : LaunchInfo where
  entry := 0x81000000
  argsAddr := 0
  argsSize := 0
  gridDim := Dim3.one
  blockDim := ⟨2, 1, 1⟩

namespace Dim3

/-- The linear number of a block of the grid, as a word computation. -/
theorem linear_blockAt
    {grid : Dim3}
    {b : Nat}
    (block : b < grid.count) :
    ((grid.blockAt b).z * grid.y + (grid.blockAt b).y) * grid.x + (grid.blockAt b).x =
      BitVec.ofNat 32 b := by
  have rank : GridPoint.rank grid.toPoint (grid.blockAt b).toPoint = b := by
    rw [toPoint_blockAt block, GridPoint.rank_pointAt]
  conv_rhs => rw [← rank]
  simp only [GridPoint.rank, toPoint, BitVec.ofNat_add, BitVec.ofNat_mul,
    BitVec.ofNat_toNat, BitVec.setWidth_eq]

end Dim3

end OpenGPU
