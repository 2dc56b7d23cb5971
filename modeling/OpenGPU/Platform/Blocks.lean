import OpenGPU.Foundation.GridOrder
import OpenGPU.Platform.Config

/-!
# Blocks of a grid

A grid of blocks is a box whose extents are three words. The blocks are listed
X fastest, then Y, then Z; comparing an incremented 32-bit counter with its
extent is exact because a block index lies below the extent.
-/

namespace OpenGPU

namespace Dim3

/-- The coordinates as natural numbers. -/
def toPoint (dim : Dim3) : GridPoint := ⟨dim.x.toNat, dim.y.toNat, dim.z.toNat⟩

/-- The words of a point. -/
def ofPoint (point : GridPoint) : Dim3 :=
  ⟨BitVec.ofNat 32 point.x, BitVec.ofNat 32 point.y, BitVec.ofNat 32 point.z⟩

/-- The number of blocks of a grid. -/
def count (grid : Dim3) : Nat := grid.toPoint.volume

/-- The blocks of a grid, X fastest, then Y, then Z. -/
def blocks (grid : Dim3) : List Dim3 := (GridPoint.gridOrder grid.toPoint).map ofPoint

/-- The `index`-th block of a grid. -/
def blockAt (grid : Dim3) (index : Nat) : Dim3 :=
  ofPoint (GridPoint.pointAt grid.toPoint index)

@[simp] theorem ofPoint_toPoint
    (dim : Dim3) :
    ofPoint dim.toPoint = dim := by
  simp [ofPoint, toPoint]

/-- A point inside a grid is recovered from its words. -/
theorem toPoint_ofPoint
    {grid : Dim3}
    {point : GridPoint}
    (inside : point.Inside grid.toPoint) :
    (ofPoint point).toPoint = point := by
  have xBound : point.x < 2 ^ 32 := Nat.lt_trans inside.x grid.x.isLt
  have yBound : point.y < 2 ^ 32 := Nat.lt_trans inside.y grid.y.isLt
  have zBound : point.z < 2 ^ 32 := Nat.lt_trans inside.z grid.z.isLt
  ext <;> simp only [ofPoint, toPoint, BitVec.toNat_ofNat] <;> exact Nat.mod_eq_of_lt ‹_›

@[simp] theorem length_blocks
    (grid : Dim3) :
    grid.blocks.length = grid.count := by
  simp [blocks, count]

theorem getElem?_blocks
    {grid : Dim3}
    {index : Nat}
    (inRange : index < grid.count) :
    grid.blocks[index]? = some (grid.blockAt index) := by
  rw [blocks, List.getElem?_map, GridPoint.getElem?_gridOrder inRange]
  rfl

theorem toPoint_blockAt
    {grid : Dim3}
    {index : Nat}
    (inRange : index < grid.count) :
    (grid.blockAt index).toPoint = GridPoint.pointAt grid.toPoint index :=
  toPoint_ofPoint (GridPoint.pointAt_inside inRange)

@[simp] theorem blockAt_zero
    (grid : Dim3) :
    grid.blockAt 0 = Dim3.zero := by
  rw [blockAt, GridPoint.pointAt_zero]
  rfl

/-- No block is listed twice. -/
theorem nodup_blocks
    (grid : Dim3) :
    grid.blocks.Nodup := by
  refine (GridPoint.nodup_gridOrder grid.toPoint).map_on ?_
  intro left leftListed right rightListed same
  rw [← toPoint_ofPoint (GridPoint.mem_gridOrder_iff.mp leftListed),
    ← toPoint_ofPoint (GridPoint.mem_gridOrder_iff.mp rightListed), same]

/-- The listed blocks are those below the extents in every coordinate. -/
theorem mem_blocks_iff
    {grid block : Dim3} :
    block ∈ grid.blocks ↔ block.x < grid.x ∧ block.y < grid.y ∧ block.z < grid.z := by
  rw [blocks, List.mem_map]
  constructor
  · rintro ⟨point, listed, rfl⟩
    have inside := GridPoint.mem_gridOrder_iff.mp listed
    rw [← toPoint_ofPoint inside] at inside
    exact ⟨inside.x, inside.y, inside.z⟩
  · rintro ⟨xBound, yBound, zBound⟩
    exact ⟨block.toPoint, GridPoint.mem_gridOrder_iff.mpr ⟨xBound, yBound, zBound⟩,
      ofPoint_toPoint block⟩

/-- No extent is zero. -/
structure Positive (grid : Dim3) : Prop where
  x : grid.x ≠ 0
  y : grid.y ≠ 0
  z : grid.z ≠ 0

/-- A word is positive as a number when it is not zero. -/
theorem toNat_pos
    {word : Word}
    (nonzero : word ≠ 0) :
    0 < word.toNat := by
  apply Nat.pos_of_ne_zero
  intro zero
  exact nonzero (BitVec.eq_of_toNat_eq zero)

/-- A grid without a zero extent has a block. -/
theorem Positive.count_pos
    {grid : Dim3}
    (positive : grid.Positive) :
    0 < grid.count := by
  have xPositive : 0 < grid.x.toNat := toNat_pos positive.x
  have yPositive : 0 < grid.y.toNat := toNat_pos positive.y
  have zPositive : 0 < grid.z.toNat := toNat_pos positive.z
  exact Nat.mul_pos (Nat.mul_pos xPositive yPositive) zPositive

/-- Only a grid without a zero extent has a block. -/
theorem positive_of_count_pos
    {grid : Dim3}
    (some : 0 < grid.count) :
    grid.Positive := by
  have nonzero : ∀ word : Word, 0 < word.toNat → word ≠ 0 := by
    rintro word present rfl
    exact Nat.lt_irrefl 0 present
  have plane : 0 < grid.x.toNat * grid.y.toNat := Nat.pos_of_mul_pos_right some
  exact
    { x := nonzero _ (Nat.pos_of_mul_pos_right plane)
      y := nonzero _ (Nat.pos_of_mul_pos_left plane)
      z := nonzero _ (Nat.pos_of_mul_pos_left some) }

/-- The comparison `index + 1 == extent` does not wrap below the extent. -/
theorem succ_eq_iff
    {index extent : Word}
    (below : index.toNat < extent.toNat) :
    index + 1 = extent ↔ index.toNat + 1 = extent.toNat := by
  have extentBound := extent.isLt
  have successor : (index + 1).toNat = index.toNat + 1 := by
    rw [BitVec.toNat_add]
    exact Nat.mod_eq_of_lt (by simp; omega)
  rw [← BitVec.toNat_inj, successor]

/-- The counters of a dispatcher: the block after `block`, and whether the walk
over `grid` has ended. -/
def next (grid block : Dim3) : Dim3 × Bool :=
  if block.x + 1 = grid.x then
    if block.y + 1 = grid.y then
      if block.z + 1 = grid.z then (zero, true)
      else (⟨0, 0, block.z + 1⟩, false)
    else (⟨0, block.y + 1, block.z⟩, false)
  else (⟨block.x + 1, block.y, block.z⟩, false)

/-- Inside the grid the counters of words are the odometer. -/
theorem next_eq
    {grid block : Dim3}
    (inside : block.toPoint.Inside grid.toPoint) :
    next grid block =
      match GridPoint.advance grid.toPoint block.toPoint with
      | some point => (ofPoint point, false)
      | none => (zero, true) := by
  have successor : ∀ word : Word, BitVec.ofNat 32 (word.toNat + 1) = word + 1 := by
    intro word
    rw [BitVec.ofNat_add, BitVec.ofNat_toNat, BitVec.setWidth_eq]
    rfl
  by_cases xLast : block.x + 1 = grid.x
  · have xCarry : block.toPoint.x + 1 = grid.toPoint.x := (succ_eq_iff inside.x).mp xLast
    by_cases yLast : block.y + 1 = grid.y
    · have yCarry : block.toPoint.y + 1 = grid.toPoint.y := (succ_eq_iff inside.y).mp yLast
      by_cases zLast : block.z + 1 = grid.z
      · have zCarry : block.toPoint.z + 1 = grid.toPoint.z := (succ_eq_iff inside.z).mp zLast
        simp only [next, GridPoint.advance, xLast, yLast, zLast, xCarry, yCarry, zCarry,
          if_true]
      · have zStays : ¬block.toPoint.z + 1 = grid.toPoint.z :=
          fun carry => zLast ((succ_eq_iff inside.z).mpr carry)
        simp only [next, GridPoint.advance, xLast, yLast, zLast, xCarry, yCarry, zStays,
          if_true, if_false]
        simp [ofPoint, toPoint, successor]
    · have yStays : ¬block.toPoint.y + 1 = grid.toPoint.y :=
        fun carry => yLast ((succ_eq_iff inside.y).mpr carry)
      simp only [next, GridPoint.advance, xLast, yLast, xCarry, yStays, if_true, if_false]
      simp [ofPoint, toPoint, successor]
  · have xStays : ¬block.toPoint.x + 1 = grid.toPoint.x :=
      fun carry => xLast ((succ_eq_iff inside.x).mpr carry)
    simp only [next, GridPoint.advance, xLast, xStays, if_false]
    simp [ofPoint, toPoint, successor]

/-- The counters step from each block to the next and end after the last. -/
theorem next_blockAt
    {grid : Dim3}
    {index : Nat}
    (inRange : index < grid.count) :
    next grid (grid.blockAt index) =
      if index + 1 = grid.count then (zero, true) else (grid.blockAt (index + 1), false) := by
  have inside := GridPoint.pointAt_inside inRange
  rw [next_eq (by rwa [toPoint_blockAt inRange]), toPoint_blockAt inRange,
    GridPoint.advance_pointAt inRange]
  by_cases last : index + 1 = grid.toPoint.volume <;> simp [last, count, blockAt]

/-- The block in the far corner of a grid. -/
def last (grid : Dim3) : Dim3 := ⟨grid.x - 1, grid.y - 1, grid.z - 1⟩

/-- The walk ends exactly after the far corner. -/
theorem next_ends_iff
    (grid block : Dim3) :
    (next grid block).2 = true ↔ block = grid.last := by
  have corner : ∀ index extent : Word, index = extent - 1 ↔ index + 1 = extent :=
    fun _ _ => BitVec.eq_sub_iff_add_eq
  constructor
  · intro ends
    unfold next at ends
    split_ifs at ends with xLast yLast zLast
    · cases block
      simp only [last, mk.injEq, corner]
      exact ⟨xLast, yLast, zLast⟩
  · rintro rfl
    have carry : ∀ extent : Word, extent - 1 + 1 = extent := fun extent =>
      (corner _ extent).mp rfl
    simp only [next, last, carry, if_true]

/-- Unless the walk ends, the counters move. -/
theorem next_ne
    {grid block : Dim3}
    (goesOn : (next grid block).2 = false) :
    (next grid block).1 ≠ block := by
  have moves : ∀ word : Word, word + 1 ≠ word := by
    intro word same
    have wrapped := congrArg BitVec.toNat same
    rw [BitVec.toNat_add] at wrapped
    have bound := word.isLt
    have one : (1 : Word).toNat = 1 := rfl
    omega
  intro same
  unfold next at goesOn same
  split_ifs at goesOn same with xLast yLast zLast
  · exact moves _ (congrArg Dim3.z same)
  · exact moves _ (congrArg Dim3.y same)
  · exact moves _ (congrArg Dim3.x same)

/-- What a dispatcher has done since its launch: the blocks it fired, the
current block index, and whether it is still running. A dispatcher that was not
enabled at its launch fires nothing. -/
structure Walked (grid : Dim3) (enabled : Bool) (fired : List Dim3) (block : Dim3)
    (running : Bool) : Prop where
  inOrder : fired = grid.blocks.take fired.length
  running_iff : running = true ↔ enabled = true ∧ fired.length < grid.count
  current : fired.length < grid.count → block = grid.blockAt fired.length
  finished : fired.length = grid.count → block = zero

/-- A launch puts the index at the first block. -/
theorem Walked.launch
    {grid : Dim3}
    (positive : grid.Positive)
    (enabled : Bool) :
    Walked grid enabled [] zero enabled where
  inOrder := rfl
  running_iff := by simp [positive.count_pos]
  current _ := (blockAt_zero grid).symm
  finished _ := rfl

/-- A walk that was enabled and has stopped has fired every block. -/
theorem Walked.all_fired
    {grid block : Dim3}
    {fired : List Dim3}
    (walked : Walked grid true fired block false) :
    fired = grid.blocks := by
  have atEnd : ¬fired.length < grid.count := by
    intro inRange
    exact Bool.noConfusion (walked.running_iff.mpr ⟨rfl, inRange⟩)
  rw [walked.inOrder, List.take_of_length_le]
  rw [length_blocks]
  omega

/-- Firing the current block extends the walk by one. -/
theorem Walked.fire
    {grid block : Dim3}
    {enabled : Bool}
    {fired : List Dim3}
    (walked : Walked grid enabled fired block true) :
    Walked grid enabled (fired ++ [block]) (next grid block).1 (!(next grid block).2) := by
  obtain ⟨enabledTrue, inRange⟩ := walked.running_iff.mp rfl
  have current := walked.current inRange
  have stepped := next_blockAt inRange
  rw [← current] at stepped
  have inOrder : fired ++ [block] = grid.blocks.take (fired ++ [block]).length := by
    rw [List.length_append, List.length_singleton, List.take_add_one, ← walked.inOrder,
      getElem?_blocks inRange, current]
    rfl
  by_cases last : fired.length + 1 = grid.count
  · rw [if_pos last] at stepped
    rw [stepped]
    exact
      { inOrder := inOrder
        running_iff := by simp [last]
        current := by simp [last]
        finished := fun _ => rfl }
  · rw [if_neg last] at stepped
    rw [stepped]
    exact
      { inOrder := inOrder
        running_iff := by
          simp only [Bool.not_false, true_iff, List.length_append, List.length_singleton]
          exact ⟨enabledTrue, by omega⟩
        current := by simp
        finished := by simp [last] }

end Dim3

end OpenGPU
