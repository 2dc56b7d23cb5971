import OpenGPU.Iss.Run
import OpenGPU.Platform.Launch

/-!
# The instruction-set simulator: what a launch sets up

`configure_model` followed by `gpu_model_launch` on the simulator. Every request
that `gpu_launch` accepts is accepted here, and context `b * block_size + x`
becomes lane `x` of block `b`.
-/

namespace OpenGPU

namespace Iss

/-- `configure_model` on the simulator. -/
def configure (info : LaunchInfo) (blockSize : Word) (s : Iss) : Iss :=
  (info.configurationWrites blockSize).foldl
    (fun s write => gpuIssDcrWrite write.1 write.2 s) s

/-- A configuration write leaves the memory alone. -/
theorem gpuIssDcrWrite_pmem
    (addr data : Word)
    (s : Iss) :
    (gpuIssDcrWrite addr data s).pmem = s.pmem := by
  unfold gpuIssDcrWrite
  split_ifs <;> rfl

theorem configure_pmem
    (info : LaunchInfo)
    (blockSize : Word)
    (s : Iss) :
    (s.configure info blockSize).pmem = s.pmem := by
  unfold configure
  generalize info.configurationWrites blockSize = writes
  induction writes generalizing s with
  | nil => rfl
  | cons write writes inductionHypothesis =>
      rw [List.foldl_cons, inductionHypothesis, gpuIssDcrWrite_pmem]

/-- `gpu_model_launch` on the simulator, after `configure_model`. -/
def modelLaunch (cfg : Config) (info : LaunchInfo) (blockSize : Word) (s : Iss) :
    Option Iss :=
  (gpuIssInit (BitVec.ofNat 32 cfg.numHarts) (s.configure info blockSize)).gpuIssLaunch
    cfg

/-- What `configure_model` leaves. -/
theorem configure_eq
    (info : LaunchInfo)
    (blockSize : Word)
    (s : Iss) :
    s.configure info blockSize =
      { s with
        startupPc := info.entry
        launchArgsAddr := info.argsAddr
        launchArgsSize := info.argsSize
        launchGrid := info.gridDim
        launchBlock := info.blockDim
        launchBlockSize := blockSize } := by
  unfold configure LaunchInfo.configurationWrites
  simp [gpuIssDcrWrite]

/-- A launch does not look at the memory. -/
theorem gpuIssLaunch_lent
    (cfg : Config)
    (s : Iss)
    (pmem : Pmem) :
    ({ s with pmem := pmem } : Iss).gpuIssLaunch cfg =
      (s.gpuIssLaunch cfg).map fun launched => { launched with pmem := pmem } := by
  have same : ({ s with pmem := pmem } : Iss).launchAccepted = s.launchAccepted := rfl
  unfold gpuIssLaunch
  rw [same]
  split_ifs <;> rfl

theorem modelLaunch_lent
    (cfg : Config)
    (info : LaunchInfo)
    (blockSize : Word)
    (s : Iss)
    (pmem : Pmem) :
    ({ s with pmem := pmem } : Iss).modelLaunch cfg info blockSize =
      (s.modelLaunch cfg info blockSize).map fun launched => { launched with pmem := pmem } := by
  unfold modelLaunch
  rw [configure_eq, ← gpuIssLaunch_lent, configure_eq]
  rfl

/-- The context of lane `x` of block `b` before its first instruction. -/
def thread (cfg : Config) (info : LaunchInfo) (blockSize : Word) (b x : Nat) :
    IssCore where
  gpr := fun _ => 0
  pc := info.entry
  hartid := BitVec.ofNat 32 (b * blockSize.toNat + x)
  physicalId := BitVec.ofNat 32 (b % cfg.numCores * cfg.contexts + x)
  argsAddr := info.argsAddr
  threadIdx :=
    ⟨BitVec.ofNat 32 x % info.blockDim.x,
      BitVec.ofNat 32 x / info.blockDim.x % info.blockDim.y,
      BitVec.ofNat 32 x / (info.blockDim.x * info.blockDim.y)⟩
  blockIdx := info.gridDim.blockAt b
  blockDim := info.blockDim
  gridDim := info.gridDim
  warpId := BitVec.ofNat 32 (x / cfg.numThreads)
  laneId := BitVec.ofNat 32 (x % cfg.numThreads)
  halted := false

/-- The 64-bit product of extents wraps around. -/
theorem toNat_volume_eq_mod
    (dim : Dim3) :
    (volume dim).toNat = dim.count % 2 ^ 64 := by
  simp only [volume, BitVec.toNat_mul, BitVec.toNat_setWidth, Nat.mod_mul_mod,
    Nat.mul_mod_mod, Dim3.count, GridPoint.volume, Dim3.toPoint]

/-- It is exact when it is small. -/
theorem toNat_volume
    {dim : Dim3}
    (fits : dim.count < 2 ^ 32) :
    (volume dim).toNat = dim.count := by
  rw [toNat_volume_eq_mod, Nat.mod_eq_of_lt (by omega)]

section Accepted

variable {cfg : Config} {info : LaunchInfo} {blockSize : Word}

/-- The words of a quotient and a remainder of a linear number. -/
theorem ofNat_div_mod
    {i : Nat}
    (bound : i < 2 ^ 32)
    (divisor : Word) :
    BitVec.ofNat 32 i / divisor = BitVec.ofNat 32 (i / divisor.toNat) ∧
      BitVec.ofNat 32 i % divisor = BitVec.ofNat 32 (i % divisor.toNat) := by
  constructor
  · apply BitVec.eq_of_toNat_eq
    rw [BitVec.toNat_udiv, BitVec.toNat_ofNat, BitVec.toNat_ofNat, Nat.mod_eq_of_lt bound,
      Nat.mod_eq_of_lt (Nat.lt_of_le_of_lt (Nat.div_le_self _ _) bound)]
  · apply BitVec.eq_of_toNat_eq
    rw [BitVec.toNat_umod, BitVec.toNat_ofNat, BitVec.toNat_ofNat, Nat.mod_eq_of_lt bound,
      Nat.mod_eq_of_lt (Nat.lt_of_le_of_lt (Nat.mod_le _ _) bound)]

/-- Splitting a linear thread number. -/
theorem thread_div_mod
    (b : Nat)
    {x : Nat}
    (inBlock : x < blockSize.toNat) :
    (b * blockSize.toNat + x) / blockSize.toNat = b ∧
      (b * blockSize.toNat + x) % blockSize.toNat = x := by
  constructor
  · rw [Nat.add_comm, Nat.add_mul_div_right _ _ (by omega), Nat.div_eq_of_lt inBlock,
      Nat.zero_add]
  · rw [Nat.add_comm, Nat.add_mul_mod_self_right, Nat.mod_eq_of_lt inBlock]

/-- Threads of the grid have numbers below the total. -/
theorem thread_lt
    {b x : Nat}
    (block : b < info.gridDim.count)
    (inBlock : x < blockSize.toNat) :
    b * blockSize.toNat + x < info.gridDim.count * blockSize.toNat := by
  calc
    b * blockSize.toNat + x < (b + 1) * blockSize.toNat := by
      rw [Nat.succ_mul]
      omega
    _ ≤ info.gridDim.count * blockSize.toNat := Nat.mul_le_mul_right _ block

/-- An accepted request is admitted by the simulator. -/
theorem modelLaunch_eq
    (accepted : info.Accepted cfg blockSize)
    (s : Iss) :
    s.modelLaunch cfg info blockSize =
      some
        { gpuIssInit (BitVec.ofNat 32 cfg.numHarts) (s.configure info blockSize) with
          cores := fun index =>
            launchContext cfg
              (gpuIssInit (BitVec.ofNat 32 cfg.numHarts) (s.configure info blockSize))
              (BitVec.ofNat 32 index)
          ncores := info.gridDim.count * blockSize.toNat
          rr := 0 } := by
  have block : (volume info.blockDim).toNat = blockSize.toNat := by
    rw [toNat_volume (accepted.size ▸ blockSize.isLt), accepted.size]
  have total :
      (launchTotal (gpuIssInit (BitVec.ofNat 32 cfg.numHarts)
        (s.configure info blockSize))).toNat = info.gridDim.count * blockSize.toNat := by
    show (volume info.gridDim * volume info.blockDim).toNat = _
    rw [BitVec.toNat_mul, toNat_volume accepted.count_lt, block]
    exact Nat.mod_eq_of_lt (Nat.lt_trans accepted.total (by omega))
  have admitted :
      (gpuIssInit (BitVec.ofNat 32 cfg.numHarts)
        (s.configure info blockSize)).launchAccepted = true := by
    have positive := Nat.mul_pos accepted.grid.count_pos accepted.size_pos
    have bound := accepted.total
    simp only [launchAccepted, Bool.and_eq_true, bne_iff_ne, ne_eq, decide_eq_true_eq,
      beq_iff_eq]
    refine ⟨⟨fun zero => ?_, ?_⟩, ?_⟩
    · have nothing : info.gridDim.count * blockSize.toNat = 0 := by
        rw [← total, zero]
        rfl
      omega
    · rw [BitVec.le_def, total, show (0xffffffff : BitVec 64).toNat = 2 ^ 32 - 1 by decide]
      omega
    · show volume info.blockDim = blockSize.setWidth 64
      apply BitVec.eq_of_toNat_eq
      rw [block, BitVec.toNat_setWidth,
        Nat.mod_eq_of_lt (Nat.lt_trans blockSize.isLt (by omega))]
  rw [modelLaunch, gpuIssLaunch, if_pos admitted, total]

/-- The static variables hold the launch parameters of a request. -/
structure Configured (cfg : Config) (info : LaunchInfo) (s : Iss) : Prop where
  startupPc : s.startupPc = info.entry
  argsAddr : s.launchArgsAddr = info.argsAddr
  grid : s.launchGrid = info.gridDim
  block : s.launchBlock = info.blockDim
  physicalCount : s.physicalCount = BitVec.ofNat 32 cfg.numHarts

theorem configured_init (s : Iss) :
    (gpuIssInit (BitVec.ofNat 32 cfg.numHarts)
      (s.configure info blockSize)).Configured cfg info :=
  ⟨rfl, rfl, rfl, rfl, rfl⟩

/-- A topology of `GPU_NUM_HARTS` contexts has its own number of cores. -/
theorem Configured.hardwareCores
    {s : Iss}
    (configured : s.Configured cfg info) :
    s.hardwareCores cfg = BitVec.ofNat 32 cfg.numCores := by
  rw [Iss.hardwareCores, configured.physicalCount, (ofNat_div_mod cfg.numHarts_lt _).1,
    BitVec.toNat_ofNat, Nat.mod_eq_of_lt cfg.contexts_lt, Config.numHarts,
    Nat.mul_div_cancel _ cfg.contexts_pos]

/-- The coordinates that the simulator computes are those of the enumeration. -/
theorem coordinates_eq_blockAt
    {dim : Dim3}
    (positive : dim.Positive)
    (small : dim.count < 2 ^ 32)
    {index : Nat}
    (inside : index < dim.count) :
    (⟨BitVec.ofNat 32 index % dim.x, BitVec.ofNat 32 index / dim.x % dim.y,
        BitVec.ofNat 32 index / (dim.x * dim.y)⟩ : Dim3) =
      dim.blockAt index := by
  have bound := Nat.lt_trans inside small
  have plane : (dim.x * dim.y).toNat = dim.x.toNat * dim.y.toNat := by
    rw [BitVec.toNat_mul, Nat.mod_eq_of_lt]
    calc
      _ ≤ dim.count := Nat.le_mul_of_pos_right _ (Dim3.toNat_pos positive.z)
      _ < 2 ^ 32 := small
  have column : index / dim.x.toNat < 2 ^ 32 :=
    Nat.lt_of_le_of_lt (Nat.div_le_self _ _) bound
  rw [(ofNat_div_mod bound _).2, (ofNat_div_mod bound _).1, (ofNat_div_mod column _).2,
    (ofNat_div_mod bound _).1, plane]
  rfl

/-- The block index of the simulator is the block of the enumeration. -/
theorem blockIdx_eq
    (accepted : info.Accepted cfg blockSize)
    {b : Nat}
    (block : b < info.gridDim.count) :
    (⟨BitVec.ofNat 32 b % info.gridDim.x,
        BitVec.ofNat 32 b / info.gridDim.x % info.gridDim.y,
        BitVec.ofNat 32 b / (info.gridDim.x * info.gridDim.y)⟩ : Dim3) =
      info.gridDim.blockAt b :=
  coordinates_eq_blockAt accepted.grid accepted.count_lt block

/-- Context `b * block_size + x` is lane `x` of block `b`. -/
theorem launchContext_eq_thread
    (accepted : info.Accepted cfg blockSize)
    {s : Iss}
    (configured : s.Configured cfg info)
    {b x : Nat}
    (block : b < info.gridDim.count)
    (inBlock : x < blockSize.toNat) :
    s.launchContext cfg (BitVec.ofNat 32 (b * blockSize.toNat + x)) =
      thread cfg info blockSize b x := by
  have bound := Nat.lt_trans (thread_lt block inBlock) accepted.total
  have size : (volume info.blockDim).setWidth 32 = blockSize := by
    apply BitVec.eq_of_toNat_eq
    rw [BitVec.toNat_setWidth, toNat_volume (accepted.size ▸ blockSize.isLt),
      ← accepted.size, Nat.mod_eq_of_lt blockSize.isLt]
  have numCores : (BitVec.ofNat 32 cfg.numCores).toNat = cfg.numCores := by
    rw [BitVec.toNat_ofNat, Nat.mod_eq_of_lt]
    exact Nat.lt_of_le_of_lt (Nat.le_mul_of_pos_right _ cfg.contexts_pos) cfg.numHarts_lt
  have threads : (BitVec.ofNat 32 cfg.numThreads).toNat = cfg.numThreads := by
    rw [BitVec.toNat_ofNat, Nat.mod_eq_of_lt]
    exact Nat.lt_of_le_of_lt (Nat.le_mul_of_pos_left _ cfg.numWarps_pos) cfg.contexts_lt
  have place := ofNat_div_mod bound blockSize
  have inPlace := thread_div_mod b inBlock
  rw [inPlace.1, inPlace.2] at place
  have core := (ofNat_div_mod (Nat.lt_trans block accepted.count_lt)
    (BitVec.ofNat 32 cfg.numCores)).2
  have lane := ofNat_div_mod (Nat.lt_trans inBlock blockSize.isLt)
    (BitVec.ofNat 32 cfg.numThreads)
  rw [numCores] at core
  rw [threads] at lane
  have physicalId : BitVec.ofNat 32 (b % cfg.numCores * cfg.contexts + x) =
      BitVec.ofNat 32 (b % cfg.numCores) * BitVec.ofNat 32 cfg.contexts +
        BitVec.ofNat 32 x := by
    rw [BitVec.ofNat_add, BitVec.ofNat_mul]
  simp only [launchContext, thread, configured.startupPc, configured.argsAddr,
    configured.grid, configured.block, configured.hardwareCores, size, place.1, place.2,
    core, lane.1, lane.2, ← blockIdx_eq accepted block, physicalId]

/-- The state that an accepted request leaves. -/
structure Launched (cfg : Config) (info : LaunchInfo) (blockSize : Word)
    (pmem : Pmem) (launched : Iss) : Prop where
  ncores : launched.ncores = info.gridDim.count * blockSize.toNat
  rr : launched.rr = 0
  faulted : launched.faulted = false
  pmem : launched.pmem = pmem
  thread : ∀ b x, b < info.gridDim.count → x < blockSize.toNat →
    launched.cores (b * blockSize.toNat + x) = Iss.thread cfg info blockSize b x

/-- Every request that `gpu_launch` accepts starts the simulator. -/
theorem exists_launched
    (accepted : info.Accepted cfg blockSize)
    (s : Iss) :
    ∃ launched, s.modelLaunch cfg info blockSize = some launched ∧
      Launched cfg info blockSize s.pmem launched := by
  refine ⟨_, modelLaunch_eq accepted s, ?_⟩
  exact
    { ncores := rfl
      rr := rfl
      faulted := rfl
      pmem := configure_pmem info blockSize s
      thread := fun b x block inBlock =>
        launchContext_eq_thread accepted (configured_init s) block inBlock }

theorem launched_of_modelLaunch
    (accepted : info.Accepted cfg blockSize)
    {s launched : Iss}
    (started : s.modelLaunch cfg info blockSize = some launched) :
    Launched cfg info blockSize s.pmem launched := by
  obtain ⟨other, same, facts⟩ := exists_launched accepted s
  rw [started] at same
  cases same
  exact facts

end Accepted

end Iss

end OpenGPU
