import OpenGPU.Iss.Run

/-!
# The instruction-set simulator: private stacks

`start.S` derives the stack of a thread from its physical-ID CSR alone. The
simulator runs all threads of a launch at once and takes the physical ID of a
thread from its block number modulo the number of cores, so stacks are private
exactly for the launches that fit the hardware in one round.
-/

namespace OpenGPU

/-- The stack pointer that `_start` computes:
`0x81800000 - physical_id * 4096`. -/
def IssCore.stackTop (core : IssCore) : Word :=
  0x81800000 - core.physicalId <<< 12

namespace Iss

/-- Two different contexts that both still run. -/
structure BothLive (s : Iss) (i j : Nat) : Prop where
  left_lt : i < s.ncores
  right_lt : j < s.ncores
  distinct : i ≠ j
  left_live : s.live i
  right_live : s.live j

/-- Threads that run at the same time have different physical IDs. -/
def PrivateIds (cfg : Config) (launched : Iss) : Prop :=
  ∀ s, Reachable cfg launched s → ∀ i j, s.BothLive i j →
    (s.cores i).physicalId ≠ (s.cores j).physicalId

/-- Threads that run at the same time have different stack windows. -/
def PrivateStacks (cfg : Config) (launched : Iss) : Prop :=
  ∀ s, Reachable cfg launched s → ∀ i j, s.BothLive i j →
    (s.cores i).stackTop ≠ (s.cores j).stackTop

/-- The launch occupies no hardware lane twice: it has no more blocks than there
are cores, and a block that is larger than a core is the only one. -/
def FitsHardware (cfg : Config) (s : Iss) : Prop :=
  s.launchTotal.toNat ≤ (s.hardwareCores cfg).toNat * s.launchBlockSize.toNat ∧
    (s.launchTotal.toNat ≤ s.launchBlockSize.toNat ∨
      s.launchBlockSize.toNat ≤ cfg.contexts)

/-! ## Physical IDs as numbers -/

/-- The physical ID of linear thread `i` before it is cut to a word. -/
def physicalPlace (cores lanes blockSize i : Nat) : Nat :=
  i / blockSize % cores * lanes + i % blockSize

/-- Inside the first block the place is the linear thread number. -/
theorem physicalPlace_firstBlock
    {cores lanes blockSize i : Nat}
    (first : i < blockSize) :
    physicalPlace cores lanes blockSize i = i := by
  rw [physicalPlace, Nat.div_eq_of_lt first, Nat.mod_eq_of_lt first, Nat.zero_mod,
    Nat.zero_mul, Nat.zero_add]

/-- A block that fits on a core stays inside its lanes. -/
theorem physicalPlace_lt
    {cores lanes blockSize i : Nat}
    (block : blockSize ≤ lanes)
    (bound : i < cores * blockSize) :
    physicalPlace cores lanes blockSize i < cores * lanes := by
  have positive : 0 < blockSize := Nat.pos_of_ne_zero (by rintro rfl; omega)
  have core : i / blockSize < cores := (Nat.div_lt_iff_lt_mul positive).mpr bound
  have lane : i % blockSize < blockSize := Nat.mod_lt _ positive
  rw [physicalPlace, Nat.mod_eq_of_lt core]
  calc
    i / blockSize * lanes + i % blockSize < (i / blockSize + 1) * lanes := by
      rw [Nat.succ_mul]
      omega
    _ ≤ cores * lanes := Nat.mul_le_mul_right _ core

/-- Places repeat neither across the lanes of a core nor across cores. -/
theorem physicalPlace_injective
    {cores lanes blockSize i j : Nat}
    (block : blockSize ≤ lanes)
    (leftBound : i < cores * blockSize)
    (rightBound : j < cores * blockSize)
    (same : physicalPlace cores lanes blockSize i =
      physicalPlace cores lanes blockSize j) :
    i = j := by
  have positive : 0 < blockSize := Nat.pos_of_ne_zero (by rintro rfl; omega)
  have leftLane : i % blockSize < lanes :=
    lt_of_lt_of_le (Nat.mod_lt _ positive) block
  have rightLane : j % blockSize < lanes :=
    lt_of_lt_of_le (Nat.mod_lt _ positive) block
  rw [physicalPlace, physicalPlace,
    Nat.mod_eq_of_lt ((Nat.div_lt_iff_lt_mul positive).mpr leftBound),
    Nat.mod_eq_of_lt ((Nat.div_lt_iff_lt_mul positive).mpr rightBound)] at same
  have sameCore : i / blockSize = j / blockSize := by
    have quotient := congrArg (· / lanes) same
    simpa [Nat.add_comm, Nat.add_mul_div_right, Nat.zero_lt_of_lt leftLane,
      Nat.div_eq_of_lt leftLane, Nat.div_eq_of_lt rightLane] using quotient
  have sameLane : i % blockSize = j % blockSize := by
    rw [sameCore] at same
    exact Nat.add_left_cancel same
  rw [← Nat.div_add_mod i blockSize, ← Nat.div_add_mod j blockSize, sameCore,
    sameLane]

/-- The launch gives context `i` the place of thread `i`. -/
theorem launchContext_physicalId
    {cfg : Config}
    {s : Iss}
    {i : Nat}
    (size : (volume s.launchBlock).toNat = s.launchBlockSize.toNat)
    (bound : i < 2 ^ 32) :
    (s.launchContext cfg (BitVec.ofNat 32 i)).physicalId =
      BitVec.ofNat 32
        (physicalPlace (s.hardwareCores cfg).toNat cfg.contexts
          s.launchBlockSize.toNat i) := by
  have blockSize :
      ((volume s.launchBlock).setWidth 32).toNat = s.launchBlockSize.toNat := by
    rw [BitVec.toNat_setWidth, size, Nat.mod_eq_of_lt s.launchBlockSize.isLt]
  apply BitVec.eq_of_toNat_eq
  simp only [launchContext, physicalPlace, BitVec.toNat_add, BitVec.toNat_mul,
    BitVec.toNat_umod, BitVec.toNat_udiv, BitVec.toNat_ofNat, blockSize,
    Nat.mod_eq_of_lt bound, Nat.mod_eq_of_lt cfg.contexts_lt, Nat.mod_add_mod]

section Launched

variable {cfg : Config} {s launched : Iss}

/-- The physical ID of a live context is the place of its thread. -/
theorem Reachable.physicalId
    (accepted : s.gpuIssLaunch cfg = some launched)
    {reached : Iss}
    (run : Reachable cfg launched reached)
    {i : Nat}
    (inRange : i < reached.ncores) :
    i < s.launchTotal.toNat ∧
      (reached.cores i).physicalId =
        BitVec.ofNat 32
          (physicalPlace (s.hardwareCores cfg).toNat cfg.contexts
            s.launchBlockSize.toNat i) := by
  obtain ⟨positive, bound, size, rfl⟩ := gpuIssLaunch_eq_some accepted
  have same := run.sameLaunch positive
  have inTotal : i < s.launchTotal.toNat := by
    rw [same.ncores_eq] at inRange
    exact inRange
  refine ⟨inTotal, ?_⟩
  rw [(same.sameThread i).physicalId]
  exact launchContext_physicalId size (inTotal.trans bound)

/-- Right after the launch every two threads run at the same time. -/
theorem bothLive_launched
    (accepted : s.gpuIssLaunch cfg = some launched)
    {i j : Nat}
    (left : i < s.launchTotal.toNat)
    (right : j < s.launchTotal.toNat)
    (distinct : i ≠ j) :
    launched.BothLive i j := by
  obtain ⟨_, _, _, rfl⟩ := gpuIssLaunch_eq_some accepted
  exact ⟨left, right, distinct, rfl, rfl⟩

/-- The number of hardware cores times their lanes is a machine word. -/
theorem hardwareCores_mul_le (cfg : Config) (s : Iss) :
    (s.hardwareCores cfg).toNat * cfg.contexts ≤ s.physicalCount.toNat := by
  rw [hardwareCores, BitVec.toNat_udiv, BitVec.toNat_ofNat,
    Nat.mod_eq_of_lt cfg.contexts_lt]
  exact Nat.div_mul_le_self _ _

/-- There is a hardware core as soon as one block of lanes exists. -/
theorem hardwareCores_pos
    (hardware : cfg.contexts ≤ s.physicalCount.toNat) :
    0 < (s.hardwareCores cfg).toNat := by
  rw [hardwareCores, BitVec.toNat_udiv, BitVec.toNat_ofNat,
    Nat.mod_eq_of_lt cfg.contexts_lt]
  exact Nat.div_pos hardware cfg.contexts_pos

/-- In a launch that fits, no two threads share a place. -/
theorem FitsHardware.place
    (fits : s.FitsHardware cfg)
    {i j : Nat}
    (left : i < s.launchTotal.toNat)
    (right : j < s.launchTotal.toNat)
    (same : physicalPlace (s.hardwareCores cfg).toNat cfg.contexts
        s.launchBlockSize.toNat i =
      physicalPlace (s.hardwareCores cfg).toNat cfg.contexts
        s.launchBlockSize.toNat j) :
    i = j := by
  obtain ⟨rounds, oneBlock | smallBlocks⟩ := fits
  · rwa [physicalPlace_firstBlock (by omega), physicalPlace_firstBlock (by omega)]
      at same
  · exact physicalPlace_injective smallBlocks (by omega) (by omega) same

/-- In a launch that fits, a place is a machine word. -/
theorem FitsHardware.place_lt
    (fits : s.FitsHardware cfg)
    (bound : s.launchTotal.toNat < 2 ^ 32)
    {i : Nat}
    (inTotal : i < s.launchTotal.toNat) :
    physicalPlace (s.hardwareCores cfg).toNat cfg.contexts
      s.launchBlockSize.toNat i < 2 ^ 32 := by
  obtain ⟨rounds, oneBlock | smallBlocks⟩ := fits
  · rw [physicalPlace_firstBlock (by omega)]
    omega
  · calc
      _ < (s.hardwareCores cfg).toNat * cfg.contexts :=
        physicalPlace_lt smallBlocks (by omega)
      _ ≤ s.physicalCount.toNat := hardwareCores_mul_le cfg s
      _ < 2 ^ 32 := s.physicalCount.isLt

/-- A launch that does not fit has two threads at one place. -/
theorem exists_shared_place
    (accepted : s.gpuIssLaunch cfg = some launched)
    (hardware : cfg.contexts ≤ s.physicalCount.toNat)
    (tooLarge : ¬s.FitsHardware cfg) :
    ∃ i j, i < s.launchTotal.toNat ∧ j < s.launchTotal.toNat ∧ i ≠ j ∧
      physicalPlace (s.hardwareCores cfg).toNat cfg.contexts
          s.launchBlockSize.toNat i =
        physicalPlace (s.hardwareCores cfg).toNat cfg.contexts
          s.launchBlockSize.toNat j := by
  have cores := hardwareCores_pos hardware
  have positive : 0 < s.launchBlockSize.toNat := by
    obtain ⟨nonempty, _, size, _⟩ := gpuIssLaunch_eq_some accepted
    refine Nat.pos_of_ne_zero fun zero => ?_
    have noVolume : volume s.launchBlock = 0 :=
      BitVec.eq_of_toNat_eq (by rw [size, zero]; rfl)
    rw [launchTotal, noVolume] at nonempty
    simp at nonempty
  by_cases rounds : s.launchTotal.toNat ≤
      (s.hardwareCores cfg).toNat * s.launchBlockSize.toNat
  · -- Two blocks, each larger than a core: the tail of the first one runs into
    -- the lanes of the second core.
    have several : s.launchBlockSize.toNat < s.launchTotal.toNat ∧
        cfg.contexts < s.launchBlockSize.toNat := by
      unfold FitsHardware at tooLarge
      omega
    have twoCores : 1 < (s.hardwareCores cfg).toNat := by
      by_contra single
      have one : (s.hardwareCores cfg).toNat = 1 := by omega
      rw [one] at rounds
      omega
    refine ⟨cfg.contexts, s.launchBlockSize.toNat, by omega, several.1, by omega, ?_⟩
    rw [physicalPlace_firstBlock several.2, physicalPlace, Nat.div_self positive,
      Nat.mod_self, Nat.mod_eq_of_lt twoCores]
    omega
  · -- More blocks than cores: the first core gets a second block.
    refine ⟨0, (s.hardwareCores cfg).toNat * s.launchBlockSize.toNat, by omega,
      by omega, ?_, ?_⟩
    · exact (Nat.mul_pos cores positive).ne
    · rw [physicalPlace_firstBlock positive, physicalPlace,
        Nat.mul_div_cancel _ positive, Nat.mod_self, Nat.mul_mod_left]
      omega

/-! ## Stack windows -/

/-- The stack pointer drops the top twelve bits of the physical ID. -/
theorem stackTop_eq_iff (left right : IssCore) :
    left.stackTop = right.stackTop ↔
      left.physicalId.toNat % 2 ^ 20 = right.physicalId.toNat % 2 ^ 20 := by
  rw [IssCore.stackTop, IssCore.stackTop, BitVec.sub_right_inj,
    ← BitVec.toNat_inj, BitVec.toNat_shiftLeft, BitVec.toNat_shiftLeft,
    Nat.shiftLeft_eq, Nat.shiftLeft_eq, show 2 ^ 32 = 2 ^ 20 * 2 ^ 12 by rfl,
    Nat.mul_mod_mul_right, Nat.mul_mod_mul_right]
  omega

/-- A launch has private physical IDs exactly when it fits the hardware. -/
theorem privateIds_iff_fitsHardware
    (accepted : s.gpuIssLaunch cfg = some launched)
    (hardware : cfg.contexts ≤ s.physicalCount.toNat) :
    launched.PrivateIds cfg ↔ s.FitsHardware cfg := by
  obtain ⟨_, bound, _, _⟩ := gpuIssLaunch_eq_some accepted
  constructor
  · intro privateIds
    by_contra tooLarge
    obtain ⟨i, j, left, right, distinct, shared⟩ :=
      exists_shared_place accepted hardware tooLarge
    have live := bothLive_launched accepted left right distinct
    refine privateIds launched Reachable.refl i j live ?_
    rw [(Reachable.refl.physicalId accepted live.left_lt).2,
      (Reachable.refl.physicalId accepted live.right_lt).2, shared]
  · intro fits reached run i j live same
    obtain ⟨left, leftId⟩ := run.physicalId accepted live.left_lt
    obtain ⟨right, rightId⟩ := run.physicalId accepted live.right_lt
    rw [leftId, rightId, ← BitVec.toNat_inj, BitVec.toNat_ofNat, BitVec.toNat_ofNat,
      Nat.mod_eq_of_lt (fits.place_lt bound left),
      Nat.mod_eq_of_lt (fits.place_lt bound right)] at same
    exact live.distinct (fits.place left right same)

/-- In a launch that fits, and is small or has several blocks, all places lie
below the hardware limit `2 ^ 20`. -/
theorem FitsHardware.place_lt_stacks
    (fits : s.FitsHardware cfg)
    (hardware : s.physicalCount.toNat ≤ 2 ^ 20)
    (room : s.launchTotal.toNat ≤ 2 ^ 20 ∨
      s.launchBlockSize.toNat ≤ cfg.contexts)
    {i : Nat}
    (inTotal : i < s.launchTotal.toNat) :
    physicalPlace (s.hardwareCores cfg).toNat cfg.contexts
      s.launchBlockSize.toNat i < 2 ^ 20 := by
  obtain ⟨rounds, blocks⟩ := fits
  by_cases small : s.launchBlockSize.toNat ≤ cfg.contexts
  · calc
      _ < (s.hardwareCores cfg).toNat * cfg.contexts :=
        physicalPlace_lt small (by omega)
      _ ≤ s.physicalCount.toNat := hardwareCores_mul_le cfg s
      _ ≤ 2 ^ 20 := hardware
  · rw [physicalPlace_firstBlock (by omega)]
    omega

/-- A launch has private stacks exactly when it fits the hardware and does not
put more than `2 ^ 20` threads into one oversized block. -/
theorem privateStacks_iff_fitsHardware
    (accepted : s.gpuIssLaunch cfg = some launched)
    (hardware : cfg.contexts ≤ s.physicalCount.toNat)
    (stackSpace : s.physicalCount.toNat ≤ 2 ^ 20) :
    launched.PrivateStacks cfg ↔
      s.FitsHardware cfg ∧
        (s.launchTotal.toNat ≤ 2 ^ 20 ∨
          s.launchBlockSize.toNat ≤ cfg.contexts) := by
  obtain ⟨_, bound, _, _⟩ := gpuIssLaunch_eq_some accepted
  constructor
  · intro privateStacks
    have fits : s.FitsHardware cfg := by
      refine (privateIds_iff_fitsHardware accepted hardware).mp ?_
      intro reached run i j live same
      refine privateStacks reached run i j live ?_
      rw [IssCore.stackTop, IssCore.stackTop, same]
    refine ⟨fits, ?_⟩
    by_contra oversized
    push Not at oversized
    obtain ⟨_, oneBlock | smallBlocks⟩ := fits
    · have live : launched.BothLive 0 (2 ^ 20) :=
        bothLive_launched accepted (by omega) (by omega) (by omega)
      refine privateStacks launched Reachable.refl _ _ live ?_
      rw [stackTop_eq_iff, (Reachable.refl.physicalId accepted live.left_lt).2,
        (Reachable.refl.physicalId accepted live.right_lt).2,
        physicalPlace_firstBlock (by omega), physicalPlace_firstBlock (by omega)]
      rfl
    · omega
  · rintro ⟨fits, room⟩ reached run i j live same
    obtain ⟨left, leftId⟩ := run.physicalId accepted live.left_lt
    obtain ⟨right, rightId⟩ := run.physicalId accepted live.right_lt
    have leftPlace := fits.place_lt_stacks stackSpace room left
    have rightPlace := fits.place_lt_stacks stackSpace room right
    rw [stackTop_eq_iff, leftId, rightId, BitVec.toNat_ofNat, BitVec.toNat_ofNat,
      Nat.mod_eq_of_lt (fits.place_lt bound left),
      Nat.mod_eq_of_lt (fits.place_lt bound right), Nat.mod_eq_of_lt leftPlace,
      Nat.mod_eq_of_lt rightPlace] at same
    exact live.distinct (fits.place left right same)

/-- Which launches have private stacks: physical IDs are private if and only if
the launch fits the hardware, and so are, where all hardware stacks find room
below `0x81800000`, the stack windows of a launch that does not put more than
`2 ^ 20` threads into one oversized block. -/
theorem privateStacks_iff
    (accepted : s.gpuIssLaunch cfg = some launched)
    (hardware : cfg.contexts ≤ s.physicalCount.toNat) :
    (launched.PrivateIds cfg ↔ s.FitsHardware cfg) ∧
      (s.physicalCount.toNat ≤ 2 ^ 20 →
        (launched.PrivateStacks cfg ↔
          s.FitsHardware cfg ∧
            (s.launchTotal.toNat ≤ 2 ^ 20 ∨
              s.launchBlockSize.toNat ≤ cfg.contexts))) :=
  ⟨privateIds_iff_fitsHardware accepted hardware,
    privateStacks_iff_fitsHardware accepted hardware⟩

end Launched

/-! ## Two blocks -/

/-- The simulator of two cores with two lanes each, initialised and configured
for two blocks of two threads. -/
def twoPairsOfThreads (pmem : Pmem) : Iss :=
  gpuIssDcrWrite 0x019 2
    (gpuIssDcrWrite 0x016 2 (gpuIssDcrWrite 0x013 2 (gpuIssInit 4 (fresh pmem))))

/-- All four threads of the two blocks run at the same time there, and each one
has its own physical ID and its own stack. -/
theorem privateStacks_twoPairs :
    ∃ launched,
      (twoPairsOfThreads fun _ => 0).gpuIssLaunch Config.twoPairs = some launched ∧
        (∀ i < 4, ∀ j < 4, i ≠ j → launched.BothLive i j) ∧
        launched.PrivateIds Config.twoPairs ∧
        launched.PrivateStacks Config.twoPairs := by
  have fits : (twoPairsOfThreads fun _ => 0).FitsHardware Config.twoPairs := by
    unfold FitsHardware
    decide
  have accepted :
      (twoPairsOfThreads fun _ => 0).gpuIssLaunch Config.twoPairs = some _ := rfl
  have characterised := privateStacks_iff accepted (by decide)
  refine ⟨_, accepted, fun i left j right distinct => ?_,
    characterised.1.mpr fits,
    (characterised.2 (by decide)).mpr ⟨fits, Or.inl (by decide)⟩⟩
  exact bothLive_launched accepted left right distinct

/-- The simulator of a one-lane GPU, initialised and configured for two blocks
of one thread. -/
def twoBlocks (pmem : Pmem) : Iss :=
  gpuIssDcrWrite 0x016 2 (gpuIssInit 1 (fresh pmem))

/-- The two threads run at the same time with one physical ID and one stack. -/
theorem not_privateIds_twoBlocks :
    ∃ launched, (twoBlocks fun _ => 0).gpuIssLaunch Config.oneLane = some launched ∧
      ¬launched.PrivateIds Config.oneLane ∧ ¬launched.PrivateStacks Config.oneLane := by
  refine ⟨_, rfl, fun privateIds => ?_, fun privateStacks => ?_⟩
  · exact privateIds _ Reachable.refl 0 1
      ⟨by decide, by decide, by decide, rfl, rfl⟩ (by decide)
  · exact privateStacks _ Reachable.refl 0 1
      ⟨by decide, by decide, by decide, rfl, rfl⟩ (by decide)

end Iss

end OpenGPU
