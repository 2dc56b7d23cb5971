import OpenGPU.Cycle.Launch
import OpenGPU.Iss.Launch

/-!
# Thread coordinates

The simulator splits one linear number into the coordinates of a block and of a
thread in it; a core of the cycle model receives the coordinates of its block from an
odometer and recomputes the linear numbers. Both enumerate the same threads, as long
as the lanes of a warp fit into a mask of 32 bits.
-/

namespace OpenGPU

/-- What identifies a thread to its kernel. -/
structure ThreadCoordinates where
  globalId : Word
  blockIdx : Dim3
  threadIdx : Dim3
  warpId : Word
  laneId : Word
  deriving DecidableEq

/-- The coordinates that the simulator gives to a context. -/
def IssCore.coordinates (core : IssCore) : ThreadCoordinates :=
  ⟨core.hartid, core.blockIdx, core.threadIdx, core.warpId, core.laneId⟩

/-- The coordinates that the CSRs of lane `t` of warp `w` hold. -/
def Core.coordinates (cfg : Config) (c : Core) (w t : Nat) : ThreadCoordinates :=
  let x := w * cfg.numThreads + t
  ⟨c.gid x, c.block, ⟨c.tx x, c.ty x, c.tz x⟩, BitVec.ofNat 32 w, BitVec.ofNat 32 t⟩

/-- A lane that runs. -/
def Core.Active (cfg : Config) (c : Core) (w t : Nat) : Prop :=
  w < cfg.numWarps ∧ t < cfg.numThreads ∧ hasLane (c.mask w) t = true

/-- A point below extents in every coordinate. -/
def Dim3.Below (index dim : Dim3) : Prop :=
  index.x < dim.x ∧ index.y < dim.y ∧ index.z < dim.z

/-- The linear number of a point of a box. -/
def Dim3.rank (dim index : Dim3) : Nat := GridPoint.rank dim.toPoint index.toPoint

namespace Dim3

variable {dim index : Dim3} {i j : Nat}

/-- The points of the enumeration lie in the box and have their own number. -/
theorem below_blockAt
    (inRange : i < dim.count) :
    (dim.blockAt i).Below dim ∧ dim.rank (dim.blockAt i) = i := by
  have inside := GridPoint.pointAt_inside inRange
  rw [← toPoint_blockAt inRange] at inside
  refine ⟨⟨inside.x, inside.y, inside.z⟩, ?_⟩
  rw [rank, toPoint_blockAt inRange, GridPoint.rank_pointAt]

/-- Every point of the box is in the enumeration, at its number. -/
theorem blockAt_rank
    (below : index.Below dim) :
    dim.rank index < dim.count ∧ dim.blockAt (dim.rank index) = index := by
  have inside : index.toPoint.Inside dim.toPoint := ⟨below.1, below.2.1, below.2.2⟩
  refine ⟨GridPoint.rank_lt inside, ?_⟩
  rw [blockAt, rank, GridPoint.pointAt_rank inside, ofPoint_toPoint]

theorem blockAt_inj
    (left : i < dim.count)
    (right : j < dim.count)
    (same : dim.blockAt i = dim.blockAt j) :
    i = j := by
  rw [← (below_blockAt left).2, ← (below_blockAt right).2, same]

end Dim3

/-- The contexts of a launch take every thread of every block once, and the global id
counts the threads block by block. -/
structure EveryThreadOnce (info : LaunchInfo) (launched : Iss) : Prop where
  inside : ∀ i, i < launched.ncores →
    (launched.cores i).blockIdx.Below info.gridDim ∧
      (launched.cores i).threadIdx.Below info.blockDim
  once : ∀ block thread, block.Below info.gridDim → thread.Below info.blockDim →
    ∃! i, i < launched.ncores ∧ (launched.cores i).blockIdx = block ∧
      (launched.cores i).threadIdx = thread
  globalId : ∀ i, i < launched.ncores →
    (launched.cores i).hartid.toNat =
      info.gridDim.rank (launched.cores i).blockIdx * info.blockDim.count +
        info.blockDim.rank (launched.cores i).threadIdx

/-- The active lanes of a core are the contexts of its block, one by one. -/
structure SameThreads (cfg : Config) (launched : Iss) (c : Core) : Prop where
  lane : ∀ w t, c.Active cfg w t →
    ∃! i, i < launched.ncores ∧ (launched.cores i).blockIdx = c.block ∧
      (launched.cores i).coordinates = c.coordinates cfg w t
  context : ∀ i, i < launched.ncores → (launched.cores i).blockIdx = c.block →
    ∃! place : Nat × Nat, c.Active cfg place.1 place.2 ∧
      c.coordinates cfg place.1 place.2 = (launched.cores i).coordinates

section Accepted

variable {cfg : Config} {info : LaunchInfo} {blockSize : Word}

/-- The thread of a lane has the coordinates of its block and of its own number. -/
theorem Iss.thread_coordinates
    (accepted : info.Accepted cfg blockSize)
    {b x : Nat}
    (inBlock : x < blockSize.toNat) :
    (thread cfg info blockSize b x).coordinates =
      ⟨BitVec.ofNat 32 (b * blockSize.toNat + x), info.gridDim.blockAt b,
        info.blockDim.blockAt x, BitVec.ofNat 32 (x / cfg.numThreads),
        BitVec.ofNat 32 (x % cfg.numThreads)⟩ := by
  have small : info.blockDim.count < 2 ^ 32 := accepted.size ▸ blockSize.isLt
  rw [← coordinates_eq_blockAt accepted.block small (accepted.size ▸ inBlock)]
  rfl

/-- A context is a lane of a block. -/
theorem Iss.Launched.context
    {pmem : Pmem}
    {launched : Iss}
    (started : Launched cfg info blockSize pmem launched)
    (accepted : info.Accepted cfg blockSize)
    {i : Nat}
    (inRange : i < launched.ncores) :
    i / blockSize.toNat < info.gridDim.count ∧ i % blockSize.toNat < blockSize.toNat ∧
      launched.cores i =
        Iss.thread cfg info blockSize (i / blockSize.toNat) (i % blockSize.toNat) := by
  rw [started.ncores] at inRange
  have block := Nat.div_lt_of_lt_mul (Nat.mul_comm info.gridDim.count _ ▸ inRange)
  have lane := Nat.mod_lt i accepted.size_pos
  refine ⟨block, lane, ?_⟩
  rw [← started.thread _ _ block lane, Nat.div_add_mod']

/-- The contexts of an accepted launch take every thread once. -/
theorem Iss.Launched.everyThreadOnce
    {pmem : Pmem}
    {launched : Iss}
    (started : Launched cfg info blockSize pmem launched)
    (accepted : info.Accepted cfg blockSize) :
    EveryThreadOnce info launched := by
  have places : ∀ i, i < launched.ncores →
      (launched.cores i).blockIdx = info.gridDim.blockAt (i / blockSize.toNat) ∧
        (launched.cores i).threadIdx = info.blockDim.blockAt (i % blockSize.toNat) ∧
        (launched.cores i).hartid = BitVec.ofNat 32 i := by
    intro i inRange
    obtain ⟨_, lane, same⟩ := started.context accepted inRange
    have coordinates := @Iss.thread_coordinates _ _ _ accepted (i / blockSize.toNat) _ lane
    rw [← same] at coordinates
    refine ⟨congrArg ThreadCoordinates.blockIdx coordinates,
      congrArg ThreadCoordinates.threadIdx coordinates, ?_⟩
    rw [show (launched.cores i).hartid = _ from congrArg ThreadCoordinates.globalId coordinates,
      Nat.div_add_mod']
  constructor
  · intro i inRange
    obtain ⟨block, lane, _⟩ := started.context accepted inRange
    obtain ⟨blockIdx, threadIdx, _⟩ := places i inRange
    rw [blockIdx, threadIdx]
    exact ⟨(Dim3.below_blockAt block).1, (Dim3.below_blockAt (accepted.size ▸ lane)).1⟩
  · intro block thread inGrid inBlock
    obtain ⟨blockBound, blockEq⟩ := Dim3.blockAt_rank inGrid
    obtain ⟨threadBound, threadEq⟩ := Dim3.blockAt_rank inBlock
    have lane : info.blockDim.rank thread < blockSize.toNat := by
      rw [accepted.size]
      exact threadBound
    obtain ⟨quotient, remainder⟩ := Iss.thread_div_mod (info.gridDim.rank block) lane
    have inRange : info.gridDim.rank block * blockSize.toNat + info.blockDim.rank thread <
        launched.ncores := by
      rw [started.ncores]
      exact Iss.thread_lt blockBound lane
    refine ⟨_, ⟨inRange, ?_, ?_⟩, ?_⟩
    · rw [(places _ inRange).1, quotient, blockEq]
    · rw [(places _ inRange).2.1, remainder, threadEq]
    · rintro i ⟨bound, blockIdx, threadIdx⟩
      obtain ⟨block', lane', _⟩ := started.context accepted bound
      rw [(places i bound).1, ← blockEq] at blockIdx
      rw [(places i bound).2.1, ← threadEq] at threadIdx
      have sameBlock := Dim3.blockAt_inj block' blockBound blockIdx
      have sameLane := Dim3.blockAt_inj (accepted.size ▸ lane') threadBound threadIdx
      rw [← sameBlock, ← sameLane, Nat.div_add_mod']
  · intro i inRange
    obtain ⟨block, lane, _⟩ := started.context accepted inRange
    obtain ⟨blockIdx, threadIdx, hartid⟩ := places i inRange
    have total := accepted.total
    rw [started.ncores] at inRange
    rw [blockIdx, threadIdx, hartid, (Dim3.below_blockAt block).2,
      (Dim3.below_blockAt (accepted.size ▸ lane)).2, ← accepted.size, Nat.div_add_mod',
      BitVec.toNat_ofNat, Nat.mod_eq_of_lt (Nat.lt_trans inRange total)]

/-- A lane of a core that has taken block `b` has the coordinates of the context with
its number. -/
theorem Core.coordinates_acceptCta
    {b : Nat}
    (inGrid : b < info.gridDim.count)
    (c : Core)
    (w : Nat)
    {t : Nat}
    (inWarp : t < cfg.numThreads) :
    (acceptCta cfg (Model.LaunchRun.blockRegisters (info.registers blockSize) b) c).coordinates
        cfg w t =
      (Iss.thread cfg info blockSize b (w * cfg.numThreads + t)).coordinates := by
  have warp : (w * cfg.numThreads + t) / cfg.numThreads = w := by
    rw [Nat.add_comm, Nat.add_mul_div_right _ _ cfg.numThreads_pos, Nat.div_eq_of_lt inWarp,
      Nat.zero_add]
  have lane : (w * cfg.numThreads + t) % cfg.numThreads = t := by
    rw [Nat.add_comm, Nat.add_mul_mod_self_right, Nat.mod_eq_of_lt inWarp]
  have globalId : blockLinear (Model.LaunchRun.blockRegisters (info.registers blockSize) b) *
      blockSize + BitVec.ofNat 32 (w * cfg.numThreads + t) =
      BitVec.ofNat 32 (b * blockSize.toNat + (w * cfg.numThreads + t)) := by
    rw [BitVec.ofNat_add (b * blockSize.toNat), BitVec.ofNat_mul b, BitVec.ofNat_toNat,
      BitVec.setWidth_eq, ← Dim3.linear_blockAt inGrid]
    rfl
  rw [Core.coordinates, IssCore.coordinates, ThreadCoordinates.mk.injEq]
  refine ⟨globalId, rfl, rfl, ?_, ?_⟩
  · show _ = BitVec.ofNat 32 ((w * cfg.numThreads + t) / cfg.numThreads)
    rw [warp]
  · show _ = BitVec.ofNat 32 ((w * cfg.numThreads + t) % cfg.numThreads)
    rw [lane]

/-- With at most 32 lanes in a warp or in the block, the active lanes of a core that has
taken block `b` are the contexts of that block. -/
theorem Core.sameThreads_acceptCta
    (accepted : info.Accepted cfg blockSize)
    (lanes : cfg.numThreads ≤ 32 ∨ blockSize.toNat ≤ 32)
    {pmem : Pmem}
    {launched : Iss}
    (started : Iss.Launched cfg info blockSize pmem launched)
    {b : Nat}
    (inGrid : b < info.gridDim.count)
    (c : Core) :
    SameThreads cfg launched
      (acceptCta cfg (Model.LaunchRun.blockRegisters (info.registers blockSize) b) c) := by
  have contexts := cfg.contexts_lt
  have active : ∀ w t, (acceptCta cfg
      (Model.LaunchRun.blockRegisters (info.registers blockSize) b) c).Active cfg w t ↔
        t < cfg.numThreads ∧ w * cfg.numThreads + t < blockSize.toNat := by
    intro w t
    show w < cfg.numWarps ∧ t < cfg.numThreads ∧ hasLane (initialMask cfg blockSize w) t = true ↔ _
    rw [hasLane_initialMask, BitVec.lt_def, BitVec.toNat_ofNat]
    constructor
    · rintro ⟨warp, inWarp, _, _, inBlock⟩
      have bound := cfg.context_lt warp inWarp
      rw [Nat.mod_eq_of_lt (Nat.lt_trans bound contexts)] at inBlock
      exact ⟨inWarp, inBlock⟩
    · rintro ⟨inWarp, inBlock⟩
      have fits := accepted.fits
      have warp : w < cfg.numWarps := by
        by_contra beyond
        have rows := Nat.mul_le_mul_right cfg.numThreads (Nat.le_of_not_lt beyond)
        have count : cfg.contexts = cfg.numWarps * cfg.numThreads := rfl
        omega
      refine ⟨warp, inWarp, by omega, inWarp, ?_⟩
      rw [Nat.mod_eq_of_lt (by omega)]
      exact inBlock
  -- context `b * block_size + x` is the lane with number `x`
  have number : ∀ {w t}, t < cfg.numThreads → w * cfg.numThreads + t < blockSize.toNat →
      b * blockSize.toNat + (w * cfg.numThreads + t) < launched.ncores ∧
        (launched.cores (b * blockSize.toNat + (w * cfg.numThreads + t))).coordinates =
          (acceptCta cfg (Model.LaunchRun.blockRegisters (info.registers blockSize) b)
            c).coordinates cfg w t := by
    intro w t inWarp inBlock
    refine ⟨?_, ?_⟩
    · rw [started.ncores]
      exact Iss.thread_lt inGrid inBlock
    · rw [started.thread b _ inGrid inBlock, coordinates_acceptCta inGrid c w inWarp]
  have once := started.everyThreadOnce accepted
  constructor
  · intro w t running
    obtain ⟨inWarp, inBlock⟩ := (active w t).mp running
    obtain ⟨inRange, same⟩ := number inWarp inBlock
    have blockIdx := congrArg ThreadCoordinates.blockIdx same
    refine ⟨_, ⟨inRange, blockIdx, same⟩, ?_⟩
    rintro i ⟨bound, sameBlock, sameCoordinates⟩
    obtain ⟨inside, insideThread⟩ := once.inside i bound
    refine (once.once _ _ inside insideThread).unique ⟨bound, rfl, rfl⟩ ⟨inRange, ?_, ?_⟩
    · exact blockIdx.trans sameBlock.symm
    · exact congrArg ThreadCoordinates.threadIdx (same.trans sameCoordinates.symm)
  · intro i bound sameBlock
    obtain ⟨block, lane, thread⟩ := started.context accepted bound
    have own : i / blockSize.toNat = b := by
      rw [thread] at sameBlock
      exact Dim3.blockAt_inj block inGrid sameBlock
    have split := Nat.div_add_mod' (i % blockSize.toNat) cfg.numThreads
    have inWarp := Nat.mod_lt (i % blockSize.toNat) cfg.numThreads_pos
    obtain ⟨_, same⟩ := @number (i % blockSize.toNat / cfg.numThreads)
      (i % blockSize.toNat % cfg.numThreads) inWarp (by rw [split]; exact lane)
    rw [split, ← own, Nat.div_add_mod', own] at same
    refine ⟨(_, _), ⟨(active _ _).mpr ⟨inWarp, by rw [split]; exact lane⟩, same.symm⟩, ?_⟩
    rintro ⟨w, t⟩ ⟨running, sameCoordinates⟩
    obtain ⟨warp, inWarp', _⟩ := running
    have warpId := congrArg ThreadCoordinates.warpId (sameCoordinates.trans same)
    have laneId := congrArg ThreadCoordinates.laneId (sameCoordinates.trans same)
    have small : ∀ {m n : Nat}, m < 2 ^ 32 → n < 2 ^ 32 →
        BitVec.ofNat 32 m = BitVec.ofNat 32 n → m = n := by
      intro m n left right equal
      have numbers := congrArg BitVec.toNat equal
      rwa [BitVec.toNat_ofNat, BitVec.toNat_ofNat, Nat.mod_eq_of_lt left,
        Nat.mod_eq_of_lt right] at numbers
    have threads : cfg.numThreads < 2 ^ 32 :=
      Nat.lt_of_le_of_lt (Nat.le_mul_of_pos_left _ cfg.numWarps_pos) contexts
    have warps : cfg.numWarps < 2 ^ 32 :=
      Nat.lt_of_le_of_lt (Nat.le_mul_of_pos_right _ cfg.numThreads_pos) contexts
    have quotient : i % blockSize.toNat / cfg.numThreads < 2 ^ 32 :=
      Nat.lt_of_le_of_lt (Nat.div_le_self _ _) (Nat.lt_trans lane blockSize.isLt)
    exact Prod.ext (small (by omega) quotient warpId) (small (by omega) (by omega) laneId)

end Accepted

/-- The coordinates of the threads of a launch agree in both models: the simulator takes
every thread once, and for every block of the walk the step of the core that takes it is
defined and sets up the lanes of that block's contexts. -/
structure CoordinatesAgree (cfg : Config) (info : LaunchInfo) (blockSize : Word) : Prop where
  iss : ∀ s : Iss, ∃ launched, s.modelLaunch cfg info blockSize = some launched ∧
    EveryThreadOnce info launched
  walk : ∀ m bound run, m.dcr = info.registers blockSize → Model.LaunchRun cfg m bound run →
    ∀ time, time ≤ bound → ∀ core, (run time).firing cfg = some core →
      ∃ b, b < info.gridDim.count ∧ (run time).launchRegisters =
        Model.LaunchRun.blockRegisters (info.registers blockSize) b
  lanes : ∀ b, b < info.gridDim.count → ∀ c : Core,
    let launch := Model.LaunchRun.blockRegisters (info.registers blockSize) b
    c.stepDefined cfg launch true = true ∧
      ∀ s launched, Iss.modelLaunch cfg info blockSize s = some launched →
        SameThreads cfg launched (c.acceptCta cfg launch)

/-- Taking a block is defined when no lane beyond the 32nd is active. -/
theorem Core.stepDefined_accept
    {cfg : Config}
    {info : LaunchInfo}
    {blockSize : Word}
    (accepted : info.Accepted cfg blockSize)
    (b : Nat)
    (c : Core) :
    c.stepDefined cfg (Model.LaunchRun.blockRegisters (info.registers blockSize) b) true = true ↔
      cfg.numThreads ≤ 32 ∨ blockSize.toNat ≤ 32 := by
  have contexts := cfg.contexts_lt
  have fits := accepted.fits
  have plane : info.blockDim.x * info.blockDim.y ≠ 0 := by
    intro zero
    have product := congrArg BitVec.toNat zero
    have column := Dim3.toNat_pos accepted.block.x
    have row := Dim3.toNat_pos accepted.block.y
    have positive := Nat.mul_pos column row
    have bound : info.blockDim.x.toNat * info.blockDim.y.toNat ≤ info.blockDim.count :=
      Nat.le_mul_of_pos_right _ (Dim3.toNat_pos accepted.block.z)
    rw [BitVec.toNat_mul, Nat.mod_eq_of_lt (by rw [← accepted.size] at bound; omega)] at product
    exact positive.ne' product
  rw [stepDefined, if_pos rfl]
  simp only [Bool.and_eq_true, List.all_eq_true, List.mem_range, Bool.or_eq_true,
    Bool.not_eq_true', decide_eq_false_iff_not, decide_eq_true_eq, bne_iff_ne]
  constructor
  · rintro ⟨⟨⟨shifts, _⟩, _⟩, _⟩
    by_contra wide
    push Not at wide
    -- lane 32 of the first warp is active
    rcases shifts 0 cfg.numWarps_pos 32 wide.1 with outside | small
    · rw [Nat.zero_mul, Nat.zero_add, BitVec.lt_def, BitVec.toNat_ofNat] at outside
      exact outside wide.2
    · exact Nat.lt_irrefl 32 small
  · intro narrow
    refine ⟨⟨⟨fun w warp t inWarp => ?_, accepted.block.x⟩, accepted.block.y⟩, plane⟩
    have bound := cfg.context_lt warp inWarp
    rw [BitVec.lt_def, BitVec.toNat_ofNat, Nat.mod_eq_of_lt (Nat.lt_trans bound contexts)]
    show ¬w * cfg.numThreads + t < blockSize.toNat ∨ t < 32
    omega

/-- The coordinates of an accepted launch agree exactly when a warp or the block has at
most 32 lanes. -/
theorem coordinatesAgree_iff
    {cfg : Config}
    {info : LaunchInfo}
    {blockSize : Word}
    (checked : info.gpuLaunchBlockSize cfg = some blockSize) :
    CoordinatesAgree cfg info blockSize ↔ cfg.numThreads ≤ 32 ∨ blockSize.toNat ≤ 32 := by
  have accepted := LaunchInfo.accepted_of_gpuLaunchBlockSize checked
  constructor
  · intro agree
    exact (Core.stepDefined_accept accepted 0 Core.fresh).mp
      (agree.lanes 0 accepted.grid.count_pos Core.fresh).1
  · intro narrow
    exact
      { iss := fun s => by
          obtain ⟨launched, started, facts⟩ := Iss.exists_launched accepted s
          exact ⟨launched, started, facts.everyThreadOnce accepted⟩
        walk := fun m bound run registers launch time before core found => by
          have positive : m.dcr.grid.Positive := by
            rw [registers]
            exact accepted.grid
          obtain ⟨inGrid, block⟩ := launch.block_eq positive before found
          have same := launch.dcr_eq before
          rw [registers] at same inGrid block
          refine ⟨_, inGrid, ?_⟩
          rw [Model.launchRegisters, same, block]
          rfl
        lanes := fun b inGrid c =>
          ⟨(Core.stepDefined_accept accepted b c).mpr narrow, fun s launched started =>
            Core.sameThreads_acceptCta accepted narrow (Iss.launched_of_modelLaunch accepted started)
              inGrid c⟩ }

/-- Three by two blocks of two by two threads. -/
def twoByTwo : LaunchInfo := ⟨0x81000000, 0, 0, ⟨3, 2, 1⟩, ⟨2, 2, 1⟩⟩

/-- On a warp of 64 lanes they agree: one context of the simulator is thread (1, 1) of block
(1, 1), and it has the coordinates of lane 3 of a core that takes that block. -/
theorem coordinatesAgree_twoByTwo :
    CoordinatesAgree Config.wideWarp twoByTwo 4 ∧
      ∃ launched, (Iss.fresh fun _ => 0).modelLaunch Config.wideWarp twoByTwo 4 = some launched ∧
        ∃! i, i < launched.ncores ∧ (launched.cores i).blockIdx = ⟨1, 1, 0⟩ ∧
          (launched.cores i).coordinates = ⟨19, ⟨1, 1, 0⟩, ⟨1, 1, 0⟩, 0, 3⟩ := by
  have agree : CoordinatesAgree Config.wideWarp twoByTwo 4 :=
    (coordinatesAgree_iff (by decide)).mpr (Or.inr (by decide))
  refine ⟨agree, ?_⟩
  obtain ⟨launched, started, _⟩ := agree.iss (Iss.fresh fun _ => 0)
  refine ⟨launched, started, ?_⟩
  have same := (agree.lanes 4 (by decide) Core.fresh).2 _ launched started
  have block : (Core.fresh.acceptCta Config.wideWarp
      (Model.LaunchRun.blockRegisters (twoByTwo.registers 4) 4)).block = ⟨1, 1, 0⟩ := by decide
  have lane : (Core.fresh.acceptCta Config.wideWarp
      (Model.LaunchRun.blockRegisters (twoByTwo.registers 4) 4)).coordinates Config.wideWarp 0 3 =
      ⟨19, ⟨1, 1, 0⟩, ⟨1, 1, 0⟩, 0, 3⟩ := by decide +kernel
  have found := same.lane 0 3 ⟨by decide, by decide, by decide +kernel⟩
  rwa [block, lane] at found

/-- A block of 33 threads on a warp of 64 lanes is accepted, but the mask of its 33rd
lane is not defined. -/
theorem coordinatesDiffer_wideWarp :
    LaunchInfo.gpuLaunchBlockSize Config.wideWarp
        ⟨0x81000000, 0, 0, ⟨1, 1, 1⟩, ⟨33, 1, 1⟩⟩ = some 33 ∧
      ¬CoordinatesAgree Config.wideWarp ⟨0x81000000, 0, 0, ⟨1, 1, 1⟩, ⟨33, 1, 1⟩⟩ 33 := by
  have checked : LaunchInfo.gpuLaunchBlockSize Config.wideWarp
      ⟨0x81000000, 0, 0, ⟨1, 1, 1⟩, ⟨33, 1, 1⟩⟩ = some 33 := by decide
  refine ⟨checked, fun agree => ?_⟩
  have accepted := LaunchInfo.accepted_of_gpuLaunchBlockSize checked
  have narrow := (Core.stepDefined_accept accepted 0 Core.fresh).mp
    (agree.lanes 0 accepted.grid.count_pos Core.fresh).1
  exact absurd narrow (by decide)

end OpenGPU
