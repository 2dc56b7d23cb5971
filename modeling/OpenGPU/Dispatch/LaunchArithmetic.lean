import OpenGPU.Cycle.Launch
import OpenGPU.Foundation.WordExpr
import OpenGPU.Iss.Launch

/-!
# The arithmetic of a launch

The geometry checks of `gpu_launch` multiply step by step and compare. A request
passes exactly when its exact products are small enough, and then none of the 32-bit
operations that the simulator, the dispatch registers and the cores perform on the
geometry wraps or divides by zero.
-/

namespace OpenGPU

open WordExpr

/-! ## The checks -/

/-- Multiplication fails exactly on overflow. -/
theorem mulU32_isSome
    (a b : Word) :
    (mulU32 a b).isSome = true ↔ a.toNat * b.toNat < 2 ^ 32 := by
  unfold mulU32
  split_ifs with fits
  · exact ⟨fun _ => fits, fun _ => rfl⟩
  · exact ⟨fun overflow => absurd overflow Bool.false_ne_true, fun small => absurd small fits⟩

namespace LaunchInfo

/-- A request that the models can run: nothing is empty, a block fits on a core, and
the number of threads is a word. -/
structure Admissible (cfg : Config) (info : LaunchInfo) : Prop where
  grid : info.gridDim.Positive
  block : info.blockDim.Positive
  fits : info.blockDim.count ≤ cfg.contexts
  total : info.gridDim.count * info.blockDim.count ≤ 2 ^ 32 - 1

/-- The partial products of positive factors stay below the whole product. -/
theorem plane_le_count
    {dim : Dim3}
    (positive : dim.Positive) :
    dim.x.toNat * dim.y.toNat ≤ dim.count :=
  Nat.le_mul_of_pos_right _ (Dim3.toNat_pos positive.z)

/-- The chain of checks accepts exactly the admissible requests. -/
theorem gpuLaunchBlockSize_isSome
    (cfg : Config)
    (info : LaunchInfo) :
    (info.gpuLaunchBlockSize cfg).isSome = true ↔ info.Admissible cfg := by
  constructor
  · intro passed
    obtain ⟨blockSize, checked⟩ := Option.isSome_iff_exists.mp passed
    have accepted := accepted_of_gpuLaunchBlockSize checked
    have total := accepted.total
    have fits := accepted.fits
    rw [accepted.size] at total fits
    exact ⟨accepted.grid, accepted.block, fits, Nat.le_sub_one_of_lt total⟩
  · intro admissible
    obtain ⟨grid, block, fits, total⟩ := admissible
    have blockPositive := block.count_pos
    have blockBound : info.blockDim.count < 2 ^ 32 := Nat.lt_of_le_of_lt fits cfg.contexts_lt
    have gridBound : info.gridDim.count < 2 ^ 32 := by
      have smaller := Nat.le_mul_of_pos_right info.gridDim.count blockPositive
      omega
    -- every intermediate product is bounded by the product that it is part of
    obtain ⟨blockXy, blockXyEq⟩ := Option.isSome_iff_exists.mp
      ((mulU32_isSome info.blockDim.x info.blockDim.y).mpr
        (Nat.lt_of_le_of_lt (plane_le_count block) blockBound))
    have blockPlane := mulU32_eq_some blockXyEq
    obtain ⟨blockSize, blockSizeEq⟩ := Option.isSome_iff_exists.mp
      ((mulU32_isSome blockXy info.blockDim.z).mpr (by rw [blockPlane]; exact blockBound))
    have blockCount : blockSize.toNat = info.blockDim.count := by
      rw [mulU32_eq_some blockSizeEq, blockPlane]
      rfl
    obtain ⟨gridXy, gridXyEq⟩ := Option.isSome_iff_exists.mp
      ((mulU32_isSome info.gridDim.x info.gridDim.y).mpr
        (Nat.lt_of_le_of_lt (plane_le_count grid) gridBound))
    have gridPlane := mulU32_eq_some gridXyEq
    obtain ⟨gridSize, gridSizeEq⟩ := Option.isSome_iff_exists.mp
      ((mulU32_isSome gridXy info.gridDim.z).mpr (by rw [gridPlane]; exact gridBound))
    have gridCount : gridSize.toNat = info.gridDim.count := by
      rw [mulU32_eq_some gridSizeEq, gridPlane]
      rfl
    have nonempty : ¬(info.gridDim.x = 0 ∨ info.blockDim.x = 0 ∨ info.gridDim.y = 0 ∨
        info.blockDim.y = 0 ∨ info.gridDim.z = 0 ∨ info.blockDim.z = 0) := by
      push Not
      exact ⟨grid.x, block.x, grid.y, block.y, grid.z, block.z⟩
    have small : ¬BitVec.ofNat 32 cfg.contexts < blockSize := by
      rw [BitVec.lt_def, BitVec.toNat_ofNat, Nat.mod_eq_of_lt cfg.contexts_lt, blockCount]
      omega
    rw [gpuLaunchBlockSize, if_neg nonempty, blockXyEq, Option.bind_some, blockSizeEq,
      Option.bind_some, if_neg small, gridXyEq, Option.bind_some, gridSizeEq, Option.bind_some,
      Option.isSome_map, mulU32_isSome, gridCount, blockCount]
    omega

end LaunchInfo

/-! ## The computations -/

/-- A constant or a loop counter of the sources. -/
def natWord (number : Nat) : WordExpr 32 := .word (BitVec.ofNat 32 number)

theorem value_natWord
    {number : Nat}
    (fits : number < 2 ^ 32) :
    (natWord number).value = number := by
  show (BitVec.ofNat 32 number).toNat = number
  rw [BitVec.toNat_ofNat, Nat.mod_eq_of_lt fits]

theorem exact_natWord (number : Nat) : (natWord number).Exact := exact_word _

/-- Stepping a counter below a word is exact. -/
theorem exact_succ
    {number : Nat}
    (fits : number + 1 < 2 ^ 32) :
    (natWord number + natWord 1).Exact := by
  refine (exact_natWord number).add (exact_natWord 1) ?_
  rw [value_natWord (Nat.lt_of_succ_lt fits), value_natWord (by decide)]
  exact fits

/-- The coordinates of a linear index in a box. -/
def coordinateExprs (linear : WordExpr 32) (dim : Dim3) : List (WordExpr 32) :=
  [linear % .word dim.x, linear / .word dim.x % .word dim.y,
    linear / (.word dim.x * .word dim.y)]

/-- Splitting an exact index over an admissible box is exact. -/
theorem exact_coordinateExprs
    {linear : WordExpr 32}
    {dim : Dim3}
    (exact : linear.Exact)
    (positive : dim.Positive)
    (small : dim.count < 2 ^ 32) :
    ∀ expr ∈ coordinateExprs linear dim, expr.Exact := by
  have plane := Nat.lt_of_le_of_lt (LaunchInfo.plane_le_count positive) small
  have column := Dim3.toNat_pos positive.x
  have row := Dim3.toNat_pos positive.y
  intro expr member
  simp only [coordinateExprs, List.mem_cons, List.not_mem_nil, or_false] at member
  rcases member with rfl | rfl | rfl
  · exact exact.mod (exact_word _) column.ne'
  · exact (exact.div (exact_word _) column.ne').mod (exact_word _) row.ne'
  · exact exact.div ((exact_word _).mul (exact_word _) plane) (Nat.mul_pos column row).ne'

namespace Iss

/-- The 32-bit operations of `gpu_iss_launch` on context `i`: the physical id, lane and
warp, the coordinates of the thread and of its block, and the next context. -/
def launchExprs (cfg : Config) (s : Iss) (i : Nat) : List (WordExpr 32) :=
  let blockSize := .word ((volume s.launchBlock).setWidth 32)
  let lanes := natWord cfg.numWarps * natWord cfg.numThreads
  let cores := .word s.physicalCount / lanes
  let loc := natWord i % blockSize
  let block := natWord i / blockSize
  [block % cores * lanes + loc, loc % natWord cfg.numThreads, loc / natWord cfg.numThreads] ++
    coordinateExprs loc s.launchBlock ++ coordinateExprs block s.launchGrid ++
    [natWord i + natWord 1]

/-- What they compute. -/
def launchWords (i : Nat) (core : IssCore) : List Word :=
  [core.physicalId, core.laneId, core.warpId, core.threadIdx.x, core.threadIdx.y,
    core.threadIdx.z, core.blockIdx.x, core.blockIdx.y, core.blockIdx.z, BitVec.ofNat 32 (i + 1)]

theorem eval_launchExprs
    (cfg : Config)
    (s : Iss)
    (i : Nat) :
    (launchExprs cfg s i).map eval = launchWords i (s.launchContext cfg (BitVec.ofNat 32 i)) := by
  have lanes : BitVec.ofNat 32 cfg.numWarps * BitVec.ofNat 32 cfg.numThreads =
      BitVec.ofNat 32 cfg.contexts := (BitVec.ofNat_mul _ _).symm
  simp only [launchExprs, launchWords, coordinateExprs, natWord, List.map_append, List.map_cons,
    List.map_nil, eval_add, eval_mul, eval_div, eval_mod, eval_word, lanes, BitVec.ofNat_add]
  rfl

end Iss

namespace Walk

/-- The 32-bit operation of the scan for a core. -/
def scanExpr (numCores : Nat) (walk : Walk) (i : Nat) : WordExpr 32 :=
  (natWord walk.rr + natWord i) % natWord numCores

/-- The increments when core `sel` takes a block. -/
def stepExprs (walk : Walk) (sel : Nat) : List (WordExpr 32) :=
  [.word walk.block.x + natWord 1, .word walk.block.y + natWord 1, .word walk.block.z + natWord 1,
    natWord sel + natWord 1]

end Walk

namespace Core

/-- The 32-bit operations of `accept_cta` on the lane in context `i`: the global id, the
coordinates, and the next context. -/
def acceptExprs (launch : LaunchRegisters) (i : Nat) : List (WordExpr 32) :=
  let linear := (.word launch.block.z * .word launch.grid.y + .word launch.block.y) *
    .word launch.grid.x + .word launch.block.x
  [linear * .word launch.blockSize + natWord i] ++ coordinateExprs (natWord i) launch.dim ++
    [natWord i + natWord 1]

/-- What they compute. -/
def acceptWords (i : Nat) (c : Core) : List Word :=
  [c.gid i, c.tx i, c.ty i, c.tz i, BitVec.ofNat 32 (i + 1)]

theorem eval_acceptExprs
    (cfg : Config)
    (launch : LaunchRegisters)
    (c : Core)
    (i : Nat) :
    (acceptExprs launch i).map eval = acceptWords i (acceptCta cfg launch c) := by
  simp only [acceptExprs, acceptWords, coordinateExprs, natWord, List.map_append, List.map_cons,
    List.map_nil, eval_add, eval_mul, eval_div, eval_mod, eval_word, BitVec.ofNat_add]
  rfl

/-- The number of lane `t` of warp `w`, which `accept_cta` compares with the block size. -/
def laneExpr (cfg : Config) (w t : Nat) : WordExpr 32 :=
  natWord w * natWord cfg.numThreads + natWord t

end Core

/-! ## No operation wraps -/

section Accepted

variable {cfg : Config} {info : LaunchInfo} {blockSize : Word}

/-- The operations of `gpu_iss_launch` on a context of an accepted launch are exact. -/
theorem Iss.computes_launchExprs
    (accepted : info.Accepted cfg blockSize)
    {s : Iss}
    (configured : s.Configured cfg info)
    {i : Nat}
    (inRange : i < info.gridDim.count * blockSize.toNat) :
    Computes (s.launchExprs cfg i) (launchWords i (s.launchContext cfg (BitVec.ofNat 32 i))) := by
  refine ⟨eval_launchExprs cfg s i, ?_⟩
  have total := accepted.total
  have positive := accepted.size_pos
  have harts := cfg.numHarts_lt
  have size : ((volume s.launchBlock).setWidth 32).toNat = blockSize.toNat := by
    rw [configured.block, BitVec.toNat_setWidth, toNat_volume (accepted.size ▸ blockSize.isLt),
      ← accepted.size, Nat.mod_eq_of_lt blockSize.isLt]
  have index := value_natWord (Nat.lt_trans inRange total)
  have warps := value_natWord (Nat.lt_of_le_of_lt
    (Nat.le_mul_of_pos_right cfg.numWarps cfg.numThreads_pos) cfg.contexts_lt)
  have threads := value_natWord (Nat.lt_of_le_of_lt
    (Nat.le_mul_of_pos_left cfg.numThreads cfg.numWarps_pos) cfg.contexts_lt)
  have lanes : (natWord cfg.numWarps * natWord cfg.numThreads).value = cfg.contexts := by
    rw [value_mul, warps, threads]
    rfl
  have lanesExact : (natWord cfg.numWarps * natWord cfg.numThreads).Exact :=
    (exact_natWord _).mul (exact_natWord _) (by rw [← value_mul, lanes]; exact cfg.contexts_lt)
  have coresExact :
      (.word s.physicalCount / (natWord cfg.numWarps * natWord cfg.numThreads)).Exact :=
    (exact_word _).div lanesExact (by rw [lanes]; exact cfg.contexts_pos.ne')
  have cores : (.word s.physicalCount / (natWord cfg.numWarps * natWord cfg.numThreads)).value =
      cfg.numCores := by
    rw [value_div, lanes, value_word, configured.physicalCount, BitVec.toNat_ofNat,
      Nat.mod_eq_of_lt harts, Config.numHarts, Nat.mul_div_cancel _ cfg.contexts_pos]
  have divisor : (word ((volume s.launchBlock).setWidth 32)).value ≠ 0 := by
    rw [value_word, size]
    exact positive.ne'
  have locExact := (exact_natWord i).mod (exact_word _) divisor
  have blockExact := (exact_natWord i).div (exact_word _) divisor
  have coreExact := blockExact.mod coresExact (by rw [cores]; exact cfg.numCores_pos.ne')
  -- the lanes of the cores below, and the lane in its core, lie within the topology
  have place : i / blockSize.toNat % cfg.numCores * cfg.contexts + i % blockSize.toNat <
      cfg.numHarts := by
    have loc := Nat.lt_of_lt_of_le (Nat.mod_lt i positive) accepted.fits
    have core := Nat.mod_lt (i / blockSize.toNat) cfg.numCores_pos
    calc
      _ < (i / blockSize.toNat % cfg.numCores + 1) * cfg.contexts := by
        rw [Nat.succ_mul]
        omega
      _ ≤ cfg.numHarts := Nat.mul_le_mul_right _ core
  have gridSmall : s.launchGrid.count < 2 ^ 32 := by
    rw [configured.grid]
    exact accepted.count_lt
  have blockSmall : s.launchBlock.count < 2 ^ 32 := by
    rw [configured.block, ← accepted.size]
    exact blockSize.isLt
  intro expr member
  simp only [launchExprs, List.mem_append, List.mem_cons, List.not_mem_nil, or_false] at member
  rcases member with (((rfl | rfl | rfl) | thread) | blockIdx) | rfl
  · refine (coreExact.mul lanesExact ?_).add locExact ?_
    · rw [value_mod, value_div, cores, lanes, index, value_word, size]
      omega
    · rw [value_mul, value_mod, value_div, cores, lanes, value_mod, index, value_word, size]
      omega
  · exact locExact.mod (exact_natWord _) (by rw [threads]; exact cfg.numThreads_pos.ne')
  · exact locExact.div (exact_natWord _) (by rw [threads]; exact cfg.numThreads_pos.ne')
  · exact exact_coordinateExprs locExact (configured.block ▸ accepted.block) blockSmall expr thread
  · exact exact_coordinateExprs blockExact (configured.grid ▸ accepted.grid) gridSmall expr blockIdx
  · exact exact_succ (by omega)

/-- The operations of `accept_cta` on the active lanes of a block are exact. -/
theorem Core.computes_acceptExprs
    (accepted : info.Accepted cfg blockSize)
    {launch : LaunchRegisters}
    (grid : launch.grid = info.gridDim)
    (dim : launch.dim = info.blockDim)
    (size : launch.blockSize = blockSize)
    {b : Nat}
    (inGrid : b < info.gridDim.count)
    (block : launch.block = info.gridDim.blockAt b)
    (c : Core)
    {i : Nat}
    (active : i < blockSize.toNat) :
    Computes (acceptExprs launch i) (acceptWords i (acceptCta cfg launch c)) := by
  refine ⟨eval_acceptExprs cfg launch c i, ?_⟩
  have total := Nat.lt_trans (Iss.thread_lt inGrid active) accepted.total
  have bound := Nat.lt_trans inGrid accepted.count_lt
  have index := value_natWord (Nat.lt_trans active blockSize.isLt)
  have rank : (launch.block.z.toNat * launch.grid.y.toNat + launch.block.y.toNat) *
      launch.grid.x.toNat + launch.block.x.toNat = b := by
    have ranked := GridPoint.rank_pointAt info.gridDim.toPoint b
    rw [← Dim3.toPoint_blockAt inGrid] at ranked
    rw [grid, block]
    exact ranked
  have column : 0 < launch.grid.x.toNat := by
    rw [grid]
    exact Dim3.toNat_pos accepted.grid.x
  have row := Nat.le_mul_of_pos_right
    (launch.block.z.toNat * launch.grid.y.toNat + launch.block.y.toNat) column
  -- every partial sum is at most the linear index
  have planesExact : (.word launch.block.z * .word launch.grid.y +
      .word launch.block.y : WordExpr 32).Exact := by
    refine ((exact_word _).mul (exact_word _) ?_).add (exact_word _) ?_
    · show launch.block.z.toNat * launch.grid.y.toNat < 2 ^ 32
      omega
    · show launch.block.z.toNat * launch.grid.y.toNat + launch.block.y.toNat < 2 ^ 32
      omega
  have linearExact : ((.word launch.block.z * .word launch.grid.y + .word launch.block.y) *
      .word launch.grid.x + .word launch.block.x : WordExpr 32).Exact := by
    refine (planesExact.mul (exact_word _) ?_).add (exact_word _) ?_
    · show (launch.block.z.toNat * launch.grid.y.toNat + launch.block.y.toNat) *
        launch.grid.x.toNat < 2 ^ 32
      omega
    · show (launch.block.z.toNat * launch.grid.y.toNat + launch.block.y.toNat) *
        launch.grid.x.toNat + launch.block.x.toNat < 2 ^ 32
      omega
  have linear : ((.word launch.block.z * .word launch.grid.y + .word launch.block.y) *
      .word launch.grid.x + .word launch.block.x : WordExpr 32).value = b := rank
  intro expr member
  simp only [acceptExprs, List.mem_append, List.mem_cons, List.not_mem_nil, or_false] at member
  rcases member with (rfl | thread) | rfl
  · refine (linearExact.mul (exact_word _) ?_).add (exact_natWord i) ?_
    · rw [linear, value_word, size]
      omega
    · rw [value_mul, linear, value_word, size, index]
      exact total
  · refine exact_coordinateExprs (exact_natWord i) (dim ▸ accepted.block) ?_ expr thread
    rw [dim, ← accepted.size]
    exact blockSize.isLt
  · have last := blockSize.isLt
    exact exact_succ (by omega)

/-- The lane numbers of `accept_cta` are exact. -/
theorem Core.computes_laneExpr
    (cfg : Config)
    {w t : Nat}
    (warp : w < cfg.numWarps)
    (lane : t < cfg.numThreads) :
    Computes [laneExpr cfg w t] [BitVec.ofNat 32 (w * cfg.numThreads + t)] := by
  have inCore := cfg.context_lt warp lane
  have small := cfg.contexts_lt
  have warps := value_natWord (Nat.lt_trans warp (Nat.lt_of_le_of_lt
    (Nat.le_mul_of_pos_right cfg.numWarps cfg.numThreads_pos) small))
  have threads := value_natWord (Nat.lt_of_le_of_lt
    (Nat.le_mul_of_pos_left cfg.numThreads cfg.numWarps_pos) small)
  have lanes := value_natWord (Nat.lt_trans lane (Nat.lt_of_le_of_lt
    (Nat.le_mul_of_pos_left cfg.numThreads cfg.numWarps_pos) small))
  constructor
  · rw [BitVec.ofNat_add, BitVec.ofNat_mul]
    rfl
  · intro expr member
    rw [List.mem_singleton.mp member]
    refine ((exact_natWord w).mul (exact_natWord _) ?_).add (exact_natWord t) ?_
    · rw [warps, threads]
      omega
    · rw [value_mul, warps, threads, lanes]
      omega

/-- The scan over the cores is exact. -/
theorem Walk.computes_scanExpr
    {numCores : Nat}
    (cores : numCores ≤ 32)
    {walk : Walk}
    (pointer : walk.rr < numCores)
    {i : Nat}
    (inRange : i < numCores) :
    Computes [walk.scanExpr numCores i] [BitVec.ofNat 32 ((walk.rr + i) % numCores)] := by
  have pointerValue := @value_natWord walk.rr (by omega)
  have indexValue := @value_natWord i (by omega)
  have coresValue := @value_natWord numCores (by omega)
  have exact : (walk.scanExpr numCores i).Exact := by
    refine ((exact_natWord _).add (exact_natWord _) ?_).mod (exact_natWord _) ?_
    · rw [pointerValue, indexValue]
      omega
    · rw [coresValue]
      omega
  constructor
  · have computed := exact.toNat_eval
    rw [scanExpr, value_mod, value_add, pointerValue, indexValue, coresValue] at computed
    rw [List.map_singleton, ← computed, scanExpr, BitVec.ofNat_toNat, BitVec.setWidth_eq]
  · intro expr member
    rw [List.mem_singleton.mp member]
    exact exact

/-- The increments of the dispatch registers are exact at a block of the grid. -/
theorem Walk.computes_stepExprs
    {grid : Dim3}
    {walk : Walk}
    {b sel : Nat}
    (inGrid : b < grid.count)
    (block : walk.block = grid.blockAt b)
    (small : sel < 32) :
    Computes (walk.stepExprs sel)
      [walk.block.x + 1, walk.block.y + 1, walk.block.z + 1, BitVec.ofNat 32 (sel + 1)] := by
  have inside := GridPoint.pointAt_inside inGrid
  rw [← Dim3.toPoint_blockAt inGrid, ← block] at inside
  have exact : ∀ index extent : Word, index.toNat < extent.toNat →
      (.word index + natWord 1 : WordExpr 32).Exact := by
    intro index extent below
    refine (exact_word _).add (exact_natWord 1) ?_
    rw [value_word, value_natWord (by decide)]
    have bound := extent.isLt
    omega
  constructor
  · rw [BitVec.ofNat_add]
    rfl
  · intro expr member
    simp only [stepExprs, List.mem_cons, List.not_mem_nil, or_false] at member
    rcases member with rfl | rfl | rfl | rfl
    · exact exact _ _ inside.x
    · exact exact _ _ inside.y
    · exact exact _ _ inside.z
    · exact exact_succ (by omega)

end Accepted

/-- Every 32-bit operation on the geometry of a launch computes its exact value: in
`gpu_iss_launch`, and in every run of the dispatch registers and the cores. -/
structure ExactLaunch (cfg : Config) (info : LaunchInfo) (blockSize : Word) : Prop where
  size : blockSize.toNat = info.blockDim.count
  iss : ∀ s : Iss, ∃ launched, s.modelLaunch cfg info blockSize = some launched ∧
    launched.ncores = info.gridDim.count * info.blockDim.count ∧
    ∀ i, i < launched.ncores →
      Computes ((Iss.gpuIssInit (BitVec.ofNat 32 cfg.numHarts)
        (s.configure info blockSize)).launchExprs cfg i) (Iss.launchWords i (launched.cores i))
  scan : ∀ m ledgers bound run, Model.Reachable cfg m ledgers → Model.LaunchRun cfg m bound run →
    ∀ time, time < bound → ∀ i, i < cfg.numCores →
      Computes [(run time).walk.scanExpr cfg.numCores i]
        [BitVec.ofNat 32 (((run time).walk.rr + i) % cfg.numCores)]
  walk : ∀ m bound run, m.dcr = info.registers blockSize → Model.LaunchRun cfg m bound run →
    ∀ time, time < bound → ∀ core, (run time).firing cfg = some core →
      let walk := (run time).walk
      Computes (walk.stepExprs core)
        [walk.block.x + 1, walk.block.y + 1, walk.block.z + 1, BitVec.ofNat 32 (core + 1)]
  accept : ∀ m bound run, m.dcr = info.registers blockSize → Model.LaunchRun cfg m bound run →
    ∀ time, time < bound → ∀ core, (run time).firing cfg = some core →
      ∀ i, i < blockSize.toNat →
        Computes (Core.acceptExprs (run time).launchRegisters i)
          (Core.acceptWords i ((run (time + 1)).cores core))
  lanes : ∀ w, w < cfg.numWarps → ∀ t, t < cfg.numThreads →
    Computes [Core.laneExpr cfg w t] [BitVec.ofNat 32 (w * cfg.numThreads + t)]

/-- The geometry checks of `gpu_launch` pass exactly for the admissible requests, and
protect all arithmetic after them. -/
theorem launchGeometry_exact
    (cfg : Config)
    (info : LaunchInfo) :
    ((info.gpuLaunchBlockSize cfg).isSome = true ↔ info.Admissible cfg) ∧
      ∀ blockSize, info.gpuLaunchBlockSize cfg = some blockSize →
        ExactLaunch cfg info blockSize := by
  refine ⟨info.gpuLaunchBlockSize_isSome cfg, fun blockSize checked => ?_⟩
  have accepted := LaunchInfo.accepted_of_gpuLaunchBlockSize checked
  have positive : ∀ {m : Model}, m.dcr = info.registers blockSize → m.dcr.grid.Positive := by
    intro m registers
    rw [registers]
    exact accepted.grid
  exact
    { size := accepted.size
      iss := fun s => by
        refine ⟨_, Iss.modelLaunch_eq accepted s, ?_, fun i inRange => ?_⟩
        · show info.gridDim.count * blockSize.toNat = _
          rw [accepted.size]
        · exact Iss.computes_launchExprs accepted (Iss.configured_init s) inRange
      scan := fun m ledgers bound run reachable launch time before i inRange => by
        have cores := Model.numCores_le_of_tick launch.pulse
        have pointer := (launch.rotatingDispatch reachable.rr_lt).pointer_lt time before
        exact Walk.computes_scanExpr cores pointer inRange
      walk := fun m bound run registers launch time before core found => by
        have cores := Model.numCores_le_of_tick launch.pulse
        obtain ⟨inGrid, block⟩ := launch.block_eq (positive registers) before.le found
        have inRange := Model.firing_lt found
        exact Walk.computes_stepExprs inGrid block (by omega)
      accept := fun m bound run registers launch time before core found i active => by
        obtain ⟨inGrid, block⟩ := launch.block_eq (positive registers) before.le found
        have inRange := Model.firing_lt found
        have fires : ((run time).firing cfg == some core) = true := beq_iff_eq.mpr found
        have same := launch.dcr_eq before.le
        rw [registers] at same block inGrid
        rw [Model.tick_cores (launch.idle time before) rfl inRange, fires]
        refine Core.computes_acceptExprs accepted ?_ ?_ ?_ inGrid block _ active
        · exact congrArg DcrRegisters.grid same
        · exact congrArg DcrRegisters.dim same
        · exact congrArg DcrRegisters.blockSize same
      lanes := fun w warp t lane => Core.computes_laneExpr cfg warp lane }

/-- The largest grid of pairs. -/
theorem launchGeometry_onePair :
    ExactLaunch Config.onePair ⟨0x81000000, 0, 0, ⟨0x7fffffff, 1, 1⟩, ⟨2, 1, 1⟩⟩ 2 :=
  (launchGeometry_exact Config.onePair
    ⟨0x81000000, 0, 0, ⟨0x7fffffff, 1, 1⟩, ⟨2, 1, 1⟩⟩).2 2 (by decide)

end OpenGPU
