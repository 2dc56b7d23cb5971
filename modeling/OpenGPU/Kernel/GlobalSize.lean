import Mathlib.Algebra.BigOperators.Group.List.Basic
import OpenGPU.Cycle.Launch
import OpenGPU.Iss.Launch

/-!
# The kernel library: the number of threads

`sw/kernel/include/gpu.h`. The instruction set has no multiplication, so the library
that kernels are compiled with multiplies by shifting and adding. `gpu_global_size`
forms the product of the six extents of a launch with it.
-/

namespace OpenGPU

namespace Kernel

/-! ## Multiplication -/

/-- `product` after one round of the loop of `gpu_mul_u32`. -/
def roundProduct (left right product : Word) : Word :=
  if right &&& 1 ≠ 0 then product + left else product

/-- The loop of `gpu_mul_u32`, for at most `fuel` rounds. -/
def gpuMulLoop : Nat → Word → Word → Word → Option Word
  | 0, _, _, _ => none
  | fuel + 1, left, right, product =>
      if right = 0 then some product
      else gpuMulLoop fuel (left <<< 1) (right >>> 1) (roundProduct left right product)

/-- More rounds than the loop can take: every round but the last drops a bit of
`right`. -/
def gpuMulFuel : Nat := 33

/-- `gpu_mul_u32`. -/
def gpuMulU32 (left right : Word) : Option Word := gpuMulLoop gpuMulFuel left right 0

/-- A word is twice its upper bits and the lowest one. -/
theorem eq_double_add
    (word : Word) :
    word = (word >>> 1) * 2#32 + (word &&& 1#32) := by
  apply BitVec.eq_of_toNat_eq
  have bound := word.isLt
  have low : (word &&& 1#32).toNat = word.toNat % 2 := by
    rw [BitVec.toNat_and]
    exact Nat.and_one_is_mod _
  have high : ((word >>> 1) * 2#32).toNat = word.toNat / 2 * 2 := by
    rw [BitVec.toNat_mul, BitVec.toNat_ushiftRight, Nat.shiftRight_eq_div_pow]
    exact Nat.mod_eq_of_lt (show word.toNat / 2 ^ 1 * 2 < 2 ^ 32 by omega)
  rw [BitVec.toNat_add, low, high]
  omega

/-- The lowest bit of a word. -/
theorem lowest_cases
    (word : Word) :
    word &&& 1#32 = 0#32 ∨ word &&& 1#32 = 1#32 := by
  have low : (word &&& 1#32).toNat = word.toNat % 2 := by
    rw [BitVec.toNat_and]
    exact Nat.and_one_is_mod _
  rcases Nat.mod_two_eq_zero_or_one word.toNat with even | odd
  · exact Or.inl (BitVec.eq_of_toNat_eq (low.trans even))
  · exact Or.inr (BitVec.eq_of_toNat_eq (low.trans odd))

/-- One round moves the lowest bit of `right` into the product. -/
theorem roundProduct_add
    (left right product : Word) :
    roundProduct left right product + (left <<< 1) * (right >>> 1) = product + left * right := by
  have double : left <<< 1 = left * 2#32 := by
    rw [BitVec.shiftLeft_eq_mul_twoPow]
    rfl
  have split : left * right = left * (right &&& 1#32) + (left <<< 1) * (right >>> 1) := by
    conv_lhs => rw [eq_double_add right]
    rw [BitVec.mul_add, double, BitVec.mul_comm (right >>> 1), ← BitVec.mul_assoc,
      BitVec.add_comm]
  have moved : roundProduct left right product = product + left * (right &&& 1#32) := by
    unfold roundProduct
    split_ifs with odd
    · rw [(lowest_cases right).resolve_left odd, BitVec.mul_one]
    · rw [show right &&& 1#32 = 0#32 from not_not.mp odd, BitVec.mul_zero, BitVec.add_zero]
  rw [moved, split, BitVec.add_assoc]

/-- The loop ends within one round more than `right` has bits, and the sum of its
product and what is left to multiply does not change. -/
theorem gpuMulLoop_eq
    {bits fuel : Nat}
    {right : Word}
    (small : right.toNat < 2 ^ bits)
    (rounds : bits < fuel)
    (left product : Word) :
    gpuMulLoop fuel left right product = some (product + left * right) := by
  have ended : ∀ left product : Word, product = product + left * 0#32 := fun left product => by
    rw [BitVec.mul_zero, BitVec.add_zero]
  induction bits generalizing fuel right left product with
  | zero =>
      obtain ⟨fuel, rfl⟩ : ∃ rest, fuel = rest + 1 := ⟨fuel - 1, by omega⟩
      have none : right = 0#32 := BitVec.eq_of_toNat_eq (by simpa using small)
      rw [gpuMulLoop, none, ← ended]
      exact if_pos rfl
  | succ bits inductionHypothesis =>
      obtain ⟨fuel, rfl⟩ : ∃ rest, fuel = rest + 1 := ⟨fuel - 1, by omega⟩
      rw [gpuMulLoop]
      split_ifs with none
      · rw [show right = 0#32 from none, ← ended]
      · have half : (right >>> 1).toNat < 2 ^ bits := by
          rw [BitVec.toNat_ushiftRight, Nat.shiftRight_eq_div_pow]
          rw [Nat.pow_succ] at small
          omega
        rw [inductionHypothesis half (by omega), roundProduct_add]

/-- `gpu_mul_u32` multiplies modulo `2 ^ 32`. -/
theorem gpuMulU32_eq
    (left right : Word) :
    gpuMulU32 left right = some (left * right) := by
  rw [gpuMulU32, gpuMulLoop_eq right.isLt (by decide)]
  exact congrArg some (BitVec.zero_add _)

/-! ## The number of threads -/

/-- `gpu_global_size`, over the answers of `csrr`. -/
def gpuGlobalSize (csrr : Word → Option Word) : Option Word :=
  (csrr 0xcc9).bind fun gridX =>
  (csrr 0xcca).bind fun gridY =>
  (gpuMulU32 gridX gridY).bind fun plane =>
  (csrr 0xccb).bind fun gridZ =>
  (gpuMulU32 plane gridZ).bind fun blocks =>
  (csrr 0xcc6).bind fun blockX =>
  (gpuMulU32 blocks blockX).bind fun columns =>
  (csrr 0xcc7).bind fun blockY =>
  (gpuMulU32 columns blockY).bind fun rows =>
  (csrr 0xcc8).bind fun blockZ => gpuMulU32 rows blockZ

/-- A way to form a product, factor by factor. -/
inductive Product
  | factor (value : Word)
  | times (left right : Product)

namespace Product

/-- The factors, from left to right. -/
def factors : Product → List Word
  | factor value => [value]
  | times left right => left.factors ++ right.factors

/-- The product, with `gpu_mul_u32` for every multiplication. -/
def eval : Product → Option Word
  | factor value => some value
  | times left right =>
      left.eval.bind fun leftValue => right.eval.bind fun rightValue =>
        gpuMulU32 leftValue rightValue

/-- Every way to form a product ends in the exact one modulo `2 ^ 32`. -/
theorem eval_eq
    (product : Product) :
    product.eval = some (BitVec.ofNat 32 (product.factors.map BitVec.toNat).prod) := by
  induction product with
  | factor value => simp [eval, factors]
  | times left right leftValue rightValue =>
      rw [eval, leftValue, rightValue, Option.bind_some, Option.bind_some, gpuMulU32_eq, factors,
        List.map_append, List.prod_append, BitVec.ofNat_mul]

end Product

/-- The six extents of a launch, in the order in which `gpu_global_size` reads
them. -/
def extents (info : LaunchInfo) : List Word :=
  [info.gridDim.x, info.gridDim.y, info.gridDim.z, info.blockDim.x, info.blockDim.y,
    info.blockDim.z]

/-- `csrr` answers the extents of a launch. -/
structure ReadsExtents (csrr : Word → Option Word) (info : LaunchInfo) : Prop where
  gridX : csrr 0xcc9 = some info.gridDim.x
  gridY : csrr 0xcca = some info.gridDim.y
  gridZ : csrr 0xccb = some info.gridDim.z
  blockX : csrr 0xcc6 = some info.blockDim.x
  blockY : csrr 0xcc7 = some info.blockDim.y
  blockZ : csrr 0xcc8 = some info.blockDim.z

/-- `gpu_global_size` forms one of these products. -/
theorem gpuGlobalSize_eq_eval
    {csrr : Word → Option Word}
    {info : LaunchInfo}
    (reads : ReadsExtents csrr info) :
    gpuGlobalSize csrr =
      (Product.times (.times (.times (.times (.times (.factor info.gridDim.x)
        (.factor info.gridDim.y)) (.factor info.gridDim.z)) (.factor info.blockDim.x))
        (.factor info.blockDim.y)) (.factor info.blockDim.z)).eval := by
  simp only [gpuGlobalSize, reads.gridX, reads.gridY, reads.gridZ, reads.blockX, reads.blockY,
    reads.blockZ, Product.eval, gpuMulU32_eq, Option.bind_some]

/-- A thread of the simulator reads the extents of its launch, wherever it is. -/
theorem readsExtents_thread
    (cfg : Config)
    (info : LaunchInfo)
    (blockSize : Word)
    (b x : Nat)
    {core : IssCore}
    (same : (Iss.thread cfg info blockSize b x).SameThread core) :
    ReadsExtents core.csrValue info := by
  unfold IssCore.SameThread at same
  rw [same]
  exact ⟨rfl, rfl, rfl, rfl, rfl, rfl⟩

/-- So does a lane of the cycle model on a core that has taken a block of it. -/
theorem readsExtents_core
    (cfg : Config)
    {info : LaunchInfo}
    {blockSize : Word}
    {b : Nat}
    {c : Core}
    (cta : c.cta = (Model.LaunchRun.blockRegisters (info.registers blockSize) b).cta)
    (cid t : Nat) :
    ReadsExtents (c.csrValue cfg cid t) info := by
  have grid : c.grid = info.gridDim := congrArg CtaRegisters.grid cta
  have dim : c.dim = info.blockDim := congrArg CtaRegisters.dim cta
  have answers : ReadsExtents (c.csrValue cfg cid t)
      { info with gridDim := c.grid, blockDim := c.dim } := ⟨rfl, rfl, rfl, rfl, rfl, rfl⟩
  rwa [grid, dim] at answers

/-- The product of the extents of an accepted request is its number of threads. -/
theorem prod_extents
    {cfg : Config}
    {info : LaunchInfo}
    {blockSize : Word}
    (accepted : info.Accepted cfg blockSize) :
    ((extents info).map BitVec.toNat).prod = info.gridDim.count * info.blockDim.count ∧
      info.gridDim.count * info.blockDim.count < 2 ^ 32 := by
  refine ⟨?_, accepted.size ▸ accepted.total⟩
  simp only [extents, List.map_cons, List.map_nil, List.prod_cons, List.prod_nil, Nat.mul_one,
    Dim3.count, GridPoint.volume, Dim3.toPoint, Nat.mul_assoc]

/-- The loop of `gpu_mul_u32` ends with the product modulo `2 ^ 32`. In every launch that
`gpu_launch` accepts, `gpu_global_size` is the exact number of threads, in the simulator
and in the cycle model, and so is the product of the extents in any other order. -/
theorem gpuGlobalSize_exact :
    (∀ (left right : Word) (fuel : Nat), 32 < fuel →
      gpuMulLoop fuel left right 0 = some (left * right)) ∧
    ∀ (cfg : Config) (info : LaunchInfo) (blockSize : Word),
      info.gpuLaunchBlockSize cfg = some blockSize →
      ∃ size : Word, size.toNat = info.gridDim.count * info.blockDim.count ∧
        (∀ b x core, (Iss.thread cfg info blockSize b x).SameThread core →
          gpuGlobalSize core.csrValue = some size) ∧
        (∀ b (c : Core), c.cta = (Model.LaunchRun.blockRegisters (info.registers blockSize) b).cta →
          ∀ cid t, gpuGlobalSize (c.csrValue cfg cid t) = some size) ∧
        ∀ product : Product, product.factors.Perm (extents info) → product.eval = some size := by
  refine ⟨fun left right fuel rounds => ?_, fun cfg info blockSize checked => ?_⟩
  · rw [gpuMulLoop_eq right.isLt rounds]
    exact congrArg some (BitVec.zero_add _)
  · obtain ⟨exact, small⟩ := prod_extents (LaunchInfo.accepted_of_gpuLaunchBlockSize checked)
    have anyOrder : ∀ product : Product, product.factors.Perm (extents info) →
        product.eval = some (BitVec.ofNat 32 (info.gridDim.count * info.blockDim.count)) := by
      intro product permuted
      rw [product.eval_eq, (permuted.map BitVec.toNat).prod_eq, exact]
    have reads : ∀ csrr, ReadsExtents csrr info →
        gpuGlobalSize csrr =
          some (BitVec.ofNat 32 (info.gridDim.count * info.blockDim.count)) := by
      intro csrr answers
      rw [gpuGlobalSize_eq_eval answers]
      exact anyOrder _ (List.Perm.refl _)
    refine ⟨_, ?_, fun b x core same => reads _ (readsExtents_thread cfg info blockSize b x same),
      fun b c cta cid t => reads _ (readsExtents_core cfg cta cid t), anyOrder⟩
    rw [BitVec.toNat_ofNat, Nat.mod_eq_of_lt small]

/-- Three blocks of two threads, with the extents multiplied from the last one on. -/
theorem gpuGlobalSize_exact_threeBlocks :
    ∃ size : Word, size.toNat = 6 ∧
      (Product.times (.times (.factor 1) (.factor 1)) (.times (.factor 2) (.times (.factor 1)
        (.times (.factor 1) (.factor 3))))).eval = some size := by
  obtain ⟨size, six, _, _, anyOrder⟩ := gpuGlobalSize_exact.2 Config.onePair
    ⟨0x81000000, 0, 0, ⟨3, 1, 1⟩, ⟨2, 1, 1⟩⟩ 2 (by decide)
  exact ⟨size, six, anyOrder _ (by decide)⟩

end Kernel

end OpenGPU
