import Mathlib.Algebra.Order.Ring.Nat

/-!
# Build configuration

Machine words, three-dimensional extents, and the values that the generated
configuration header supplies: the topology of the simulated GPU and the place
of its physical memory in the guest address space.
-/

namespace OpenGPU

/-- A `uint32_t` of the sources. -/
abbrev Word := BitVec 32

/-- A `uint8_t` of the sources. -/
abbrev Byte := BitVec 8

/-- The three-element arrays that hold coordinates and dimensions. -/
structure Dim3 where
  x : Word
  y : Word
  z : Word
  deriving DecidableEq

namespace Dim3

/-- The zero coordinate. -/
def zero : Dim3 := ⟨0, 0, 0⟩

/-- Dimensions of a single element, the reset value of every extent. -/
def one : Dim3 := ⟨1, 1, 1⟩

end Dim3

/-- Encode a C comparison result. -/
def boolWord (value : Bool) : Word := if value then 1 else 0

/-- Topology and memory map of one build. Only what the sources rely on is
required: no dimension of the topology is zero, the number of hardware threads
is a `uint32_t`, and physical memory is a word-aligned window that does not
wrap around the guest address space. -/
structure Config where
  numCores : Nat
  numWarps : Nat
  numThreads : Nat
  mbase : Word
  msize : Word
  numCores_pos : 0 < numCores
  numWarps_pos : 0 < numWarps
  numThreads_pos : 0 < numThreads
  harts_fit : numCores * (numWarps * numThreads) < 2 ^ 32
  mbase_aligned : mbase.toNat % 4 = 0
  msize_aligned : msize.toNat % 4 = 0
  pmem_fits : mbase.toNat + msize.toNat ≤ 2 ^ 32

namespace Config

/-- Lanes of one core (`Contexts` in the cycle model, `lanes_per_core` in the
instruction-set simulator). -/
def contexts (cfg : Config) : Nat := cfg.numWarps * cfg.numThreads

/-- `GPU_NUM_HARTS`. -/
def numHarts (cfg : Config) : Nat := cfg.numCores * cfg.contexts

theorem contexts_pos (cfg : Config) : 0 < cfg.contexts :=
  Nat.mul_pos cfg.numWarps_pos cfg.numThreads_pos

theorem numHarts_lt (cfg : Config) : cfg.numHarts < 2 ^ 32 := cfg.harts_fit

theorem contexts_lt (cfg : Config) : cfg.contexts < 2 ^ 32 := by
  calc
    cfg.contexts ≤ cfg.numCores * cfg.contexts :=
      Nat.le_mul_of_pos_left _ cfg.numCores_pos
    _ < 2 ^ 32 := cfg.numHarts_lt

/-- Lane `t` of warp `w` is one of the contexts of a core. -/
theorem context_lt
    (cfg : Config)
    {w t : Nat}
    (warp : w < cfg.numWarps)
    (lane : t < cfg.numThreads) :
    w * cfg.numThreads + t < cfg.contexts := by
  calc
    w * cfg.numThreads + t < (w + 1) * cfg.numThreads := by
      rw [Nat.succ_mul]
      omega
    _ ≤ cfg.numWarps * cfg.numThreads := Nat.mul_le_mul_right _ warp

/-- One core with one warp of two lanes, and the default memory map. -/
def onePair : Config where
  numCores := 1
  numWarps := 1
  numThreads := 2
  mbase := 0x80000000
  msize := 0x8000000
  numCores_pos := by decide
  numWarps_pos := by decide
  numThreads_pos := by decide
  harts_fit := by decide
  mbase_aligned := by decide
  msize_aligned := by decide
  pmem_fits := by decide

/-- One core with one warp of one lane. -/
def oneLane : Config where
  numCores := 1
  numWarps := 1
  numThreads := 1
  mbase := 0x80000000
  msize := 0x8000000
  numCores_pos := by decide
  numWarps_pos := by decide
  numThreads_pos := by decide
  harts_fit := by decide
  mbase_aligned := by decide
  msize_aligned := by decide
  pmem_fits := by decide

/-- Two cores with one warp of one lane each. -/
def twoCores : Config where
  numCores := 2
  numWarps := 1
  numThreads := 1
  mbase := 0x80000000
  msize := 0x8000000
  numCores_pos := by decide
  numWarps_pos := by decide
  numThreads_pos := by decide
  harts_fit := by decide
  mbase_aligned := by decide
  msize_aligned := by decide
  pmem_fits := by decide

/-- Two cores with one warp of two lanes each. -/
def twoPairs : Config where
  numCores := 2
  numWarps := 1
  numThreads := 2
  mbase := 0x80000000
  msize := 0x8000000
  numCores_pos := by decide
  numWarps_pos := by decide
  numThreads_pos := by decide
  harts_fit := by decide
  mbase_aligned := by decide
  msize_aligned := by decide
  pmem_fits := by decide

/-- One core with two warps of one lane each. -/
def twoWarps : Config where
  numCores := 1
  numWarps := 2
  numThreads := 1
  mbase := 0x80000000
  msize := 0x8000000
  numCores_pos := by decide
  numWarps_pos := by decide
  numThreads_pos := by decide
  harts_fit := by decide
  mbase_aligned := by decide
  msize_aligned := by decide
  pmem_fits := by decide

/-- One core with one warp of 64 lanes. -/
def wideWarp : Config where
  numCores := 1
  numWarps := 1
  numThreads := 64
  mbase := 0x80000000
  msize := 0x8000000
  numCores_pos := by decide
  numWarps_pos := by decide
  numThreads_pos := by decide
  harts_fit := by decide
  mbase_aligned := by decide
  msize_aligned := by decide
  pmem_fits := by decide

end Config

end OpenGPU
