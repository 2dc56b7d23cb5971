import OpenGPU.Iss.Launch

/-!
# The instruction-set simulator: what a launch admits

`gpu_iss_launch` multiplies the six extents in 64 bits before it compares the product
with the largest number of contexts. The registers hold whatever
`gpu_iss_dcr_write` put there, so the product can wrap around and come back into
range.
-/

namespace OpenGPU

namespace Iss

/-- Calls of `gpu_iss_dcr_write`, the first one first. -/
def dcrWrites (writes : List (Word × Word)) (s : Iss) : Iss :=
  writes.foldl (fun s write => gpuIssDcrWrite write.1 write.2 s) s

/-- The threads that the launch registers ask for. -/
def requestedThreads (s : Iss) : Nat := s.launchGrid.count * s.launchBlock.count

/-- There are threads to run, a word can count them, and the block size register
holds the size of a block. -/
structure Admissible (s : Iss) : Prop where
  nonempty : 1 ≤ s.requestedThreads
  countable : s.requestedThreads ≤ 2 ^ 32 - 1
  blockSize : s.launchBlock.count = s.launchBlockSize.toNat

/-- The request is too large for 64 bits, and what is left of it there passes for
an admissible one. -/
structure WrapsIntoRange (s : Iss) : Prop where
  large : 2 ^ 64 ≤ s.requestedThreads
  nonempty : 1 ≤ s.requestedThreads % 2 ^ 64
  countable : s.requestedThreads % 2 ^ 64 ≤ 2 ^ 32 - 1
  blockSize : s.launchBlock.count % 2 ^ 64 = s.launchBlockSize.toNat

/-- Every context works on a block of the grid. -/
def BlocksInGrid (launched : Iss) : Prop :=
  ∀ index, index < launched.ncores →
    (launched.cores index).blockIdx.x < launched.launchGrid.x ∧
      (launched.cores index).blockIdx.y < launched.launchGrid.y ∧
      (launched.cores index).blockIdx.z < launched.launchGrid.z

/-- A launch passes its checks exactly when the request is admissible, and then the
blocks of its contexts are blocks of the grid. -/
structure ExactAdmission (cfg : Config) (s : Iss) : Prop where
  passes_iff : (s.gpuIssLaunch cfg).isSome = true ↔ s.Admissible
  blocks : ∀ launched, s.gpuIssLaunch cfg = some launched → launched.BlocksInGrid

section Admission

variable {cfg : Config} {s : Iss}

/-- The check of `gpu_iss_launch` on what is left of the products in 64 bits. -/
theorem launchAccepted_iff :
    s.launchAccepted = true ↔
      1 ≤ s.requestedThreads % 2 ^ 64 ∧ s.requestedThreads % 2 ^ 64 ≤ 2 ^ 32 - 1 ∧
        s.launchBlock.count % 2 ^ 64 = s.launchBlockSize.toNat := by
  have total : s.launchTotal.toNat = s.requestedThreads % 2 ^ 64 := by
    rw [launchTotal, BitVec.toNat_mul, toNat_volume_eq_mod, toNat_volume_eq_mod, ← Nat.mul_mod]
    rfl
  have limit : (0xffffffff : BitVec 64).toNat = 2 ^ 32 - 1 := by decide
  have zero : (0 : BitVec 64).toNat = 0 := rfl
  have wide : (s.launchBlockSize.setWidth 64).toNat = s.launchBlockSize.toNat := by
    rw [BitVec.toNat_setWidth]
    exact Nat.mod_eq_of_lt (Nat.lt_trans s.launchBlockSize.isLt (by decide))
  simp only [launchAccepted, Bool.and_eq_true, bne_iff_ne, ne_eq, decide_eq_true_eq, beq_iff_eq,
    BitVec.le_def, ← BitVec.toNat_inj, total, limit, zero, wide, toNat_volume_eq_mod, and_assoc]
  rw [Nat.one_le_iff_ne_zero]

theorem gpuIssLaunch_isSome
    (cfg : Config)
    (s : Iss) :
    (s.gpuIssLaunch cfg).isSome = s.launchAccepted := by
  unfold gpuIssLaunch
  cases s.launchAccepted <;> rfl

/-- A nonempty request has a grid and a block that are not empty, and neither is
larger than the request. -/
theorem Admissible.counts
    (admissible : s.Admissible) :
    0 < s.launchGrid.count ∧ 0 < s.launchBlock.count ∧
      s.launchGrid.count < 2 ^ 32 ∧ s.launchBlock.count < 2 ^ 32 := by
  obtain ⟨nonempty, countable, _⟩ := admissible
  unfold requestedThreads at nonempty countable
  have grid : 0 < s.launchGrid.count := Nat.pos_of_mul_pos_right nonempty
  have block : 0 < s.launchBlock.count := Nat.pos_of_mul_pos_left nonempty
  have gridSmall := Nat.le_mul_of_pos_right s.launchGrid.count block
  have blockSmall := Nat.le_mul_of_pos_left s.launchBlock.count grid
  exact ⟨grid, block, by omega, by omega⟩

/-- An admissible request is small enough for all products to be exact. -/
theorem Admissible.accepted
    (admissible : s.Admissible) :
    s.launchAccepted = true := by
  obtain ⟨_, _, _, blockSmall⟩ := admissible.counts
  obtain ⟨nonempty, countable, blockSize⟩ := admissible
  rw [launchAccepted_iff, Nat.mod_eq_of_lt (by omega), Nat.mod_eq_of_lt (by omega)]
  exact ⟨nonempty, countable, blockSize⟩

/-- What passes the checks is admissible, or too large. -/
theorem admissible_or_wraps
    (passes : s.launchAccepted = true) :
    s.Admissible ∨ s.WrapsIntoRange := by
  obtain ⟨nonempty, countable, blockSize⟩ := launchAccepted_iff.mp passes
  rcases Nat.lt_or_ge s.requestedThreads (2 ^ 64) with small | large
  · rw [Nat.mod_eq_of_lt small] at nonempty countable
    have grid : 0 < s.launchGrid.count := Nat.pos_of_mul_pos_right nonempty
    have blockSmall : s.launchBlock.count ≤ s.requestedThreads :=
      Nat.le_mul_of_pos_left s.launchBlock.count grid
    rw [Nat.mod_eq_of_lt (by omega)] at blockSize
    exact Or.inl ⟨nonempty, countable, blockSize⟩
  · exact Or.inr ⟨large, nonempty, countable, blockSize⟩

/-- The contexts of an admissible request work on the blocks of the grid. -/
theorem Admissible.blocksInGrid
    {launched : Iss}
    (admissible : s.Admissible)
    (started : s.gpuIssLaunch cfg = some launched) :
    launched.BlocksInGrid := by
  obtain ⟨gridPositive, blockPositive, gridSmall, blockSmall⟩ := admissible.counts
  obtain ⟨_, _, _, rfl⟩ := gpuIssLaunch_eq_some started
  intro index inRange
  have total : s.launchTotal.toNat = s.launchGrid.count * s.launchBlock.count := by
    rw [launchTotal, BitVec.toNat_mul, toNat_volume gridSmall, toNat_volume blockSmall,
      Nat.mod_eq_of_lt]
    have countable := admissible.countable
    unfold requestedThreads at countable
    omega
  have inRange : index < s.launchGrid.count * s.launchBlock.count := by
    rw [← total]
    exact inRange
  have size : ((volume s.launchBlock).setWidth 32).toNat = s.launchBlock.count := by
    rw [BitVec.toNat_setWidth, toNat_volume blockSmall, Nat.mod_eq_of_lt blockSmall]
  have bound : index < 2 ^ 32 := by
    have countable := admissible.countable
    unfold requestedThreads at countable
    omega
  have inGrid : index / s.launchBlock.count < s.launchGrid.count :=
    Nat.div_lt_of_lt_mul (by rwa [Nat.mul_comm])
  have block := coordinates_eq_blockAt (Dim3.positive_of_count_pos gridPositive) gridSmall inGrid
  rw [← size, ← (ofNat_div_mod bound _).1] at block
  have listed : s.launchGrid.blockAt (index / s.launchBlock.count) ∈ s.launchGrid.blocks :=
    List.mem_of_getElem? (Dim3.getElem?_blocks inGrid)
  rw [← size, ← block] at listed
  exact Dim3.mem_blocks_iff.mp listed

/-- A launch admits exactly what it should unless its request wraps around into the
range. -/
theorem exactAdmission_of_not_wraps
    (cfg : Config)
    (exact : ¬s.WrapsIntoRange) :
    ExactAdmission cfg s where
  passes_iff := by
    rw [gpuIssLaunch_isSome]
    exact ⟨fun passes => (admissible_or_wraps passes).resolve_right exact, Admissible.accepted⟩
  blocks launched started := by
    have passes : s.launchAccepted = true := by
      rw [← gpuIssLaunch_isSome cfg, started, Option.isSome_some]
    exact ((admissible_or_wraps passes).resolve_right exact).blocksInGrid started

/-- A request that wraps around into the range is admitted. -/
theorem WrapsIntoRange.not_exact
    (wraps : s.WrapsIntoRange) :
    ¬ExactAdmission cfg s := by
  intro exact
  have passes := launchAccepted_iff.mpr ⟨wraps.nonempty, wraps.countable, wraps.blockSize⟩
  rw [← gpuIssLaunch_isSome cfg] at passes
  have countable := (exact.passes_iff.mp passes).countable
  have large := wraps.large
  omega

end Admission

/-- After any configuration writes a launch admits exactly what it should if and only
if the request does not wrap around into the range. -/
theorem exactAdmission_iff
    (cfg : Config)
    (s : Iss)
    (writes : List (Word × Word)) :
    ExactAdmission cfg (s.dcrWrites writes) ↔ ¬(s.dcrWrites writes).WrapsIntoRange :=
  ⟨fun exact wraps => wraps.not_exact exact, exactAdmission_of_not_wraps cfg⟩

/-- A grid of `(2 ^ 32 - 1) * (2 ^ 32 - 1) * 2 ^ 31` blocks of one thread passes for
`2 ^ 31` threads. -/
theorem not_exactAdmission_largeGrid :
    ¬ExactAdmission Config.oneLane ((gpuIssInit 1 (fresh fun _ => 0)).dcrWrites
      [(0x016, 0xffffffff), (0x017, 0xffffffff), (0x018, 0x80000000)]) :=
  WrapsIntoRange.not_exact ⟨by decide, by decide, by decide, by decide⟩

end Iss

end OpenGPU
