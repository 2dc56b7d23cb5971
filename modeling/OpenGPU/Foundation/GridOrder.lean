import Mathlib.Data.List.Nodup
import Mathlib.Data.List.Range

/-!
# Walking a three-dimensional grid

The points of a box in the order in which X varies fastest, then Y, then Z, and
the odometer that steps from each point to the next. Dispatchers keep the point
in three counters with carries; the order itself is a nested loop.
-/

namespace OpenGPU

/-- A point of a grid, or the extents of one. -/
@[ext] structure GridPoint where
  x : Nat
  y : Nat
  z : Nat
  deriving DecidableEq

namespace GridPoint

/-- The number of points of a box. -/
def volume (size : GridPoint) : Nat := size.x * size.y * size.z

/-- Every coordinate is below the extent. -/
structure Inside (point size : GridPoint) : Prop where
  x : point.x < size.x
  y : point.y < size.y
  z : point.z < size.z

/-- The points of a box, X fastest, then Y, then Z. -/
def gridOrder (size : GridPoint) : List GridPoint :=
  (List.range size.z).flatMap fun z =>
    (List.range size.y).flatMap fun y =>
      (List.range size.x).map fun x => ⟨x, y, z⟩

/-- The `index`-th point of a box. -/
def pointAt (size : GridPoint) (index : Nat) : GridPoint :=
  ⟨index % size.x, index / size.x % size.y, index / (size.x * size.y)⟩

/-- The position of a point in the order. -/
def rank (size point : GridPoint) : Nat :=
  (point.z * size.y + point.y) * size.x + point.x

/-- The odometer: the point after `point`, if there is one. -/
def advance (size point : GridPoint) : Option GridPoint :=
  if point.x + 1 = size.x then
    if point.y + 1 = size.y then
      if point.z + 1 = size.z then none
      else some ⟨0, 0, point.z + 1⟩
    else some ⟨0, point.y + 1, point.z⟩
  else some ⟨point.x + 1, point.y, point.z⟩

/-- A nested loop over two ranges runs through quotients and remainders. -/
theorem flatMap_range_map
    {α : Type}
    (outer inner : Nat)
    (body : Nat → Nat → α) :
    ((List.range outer).flatMap fun j => (List.range inner).map (body j)) =
      (List.range (inner * outer)).map fun n => body (n / inner) (n % inner) := by
  induction outer with
  | zero => simp
  | succ outer inductionHypothesis =>
      rw [List.range_succ, List.flatMap_append, inductionHypothesis, Nat.mul_succ,
        List.range_add, List.map_append, List.map_map]
      congr 1
      simp only [List.flatMap_cons, List.flatMap_nil, List.append_nil]
      apply List.map_congr_left
      intro offset inRange
      have offsetBound := List.mem_range.mp inRange
      simp only [Function.comp_apply]
      rw [Nat.mul_add_div (by omega), Nat.div_eq_of_lt offsetBound,
        Nat.mul_add_mod, Nat.mod_eq_of_lt offsetBound, Nat.add_zero]

/-- The order lists the points by their index. -/
theorem gridOrder_eq_map
    (size : GridPoint) :
    gridOrder size = (List.range size.volume).map (pointAt size) := by
  unfold gridOrder
  simp only [flatMap_range_map]
  apply List.map_congr_left
  intro index _
  ext
  · exact Nat.mod_mul_right_mod index size.x size.y
  · exact Nat.mod_mul_right_div_self index size.x size.y
  · rfl

@[simp] theorem length_gridOrder
    (size : GridPoint) :
    (gridOrder size).length = size.volume := by
  rw [gridOrder_eq_map, List.length_map, List.length_range]

theorem getElem?_gridOrder
    {size : GridPoint}
    {index : Nat}
    (inRange : index < size.volume) :
    (gridOrder size)[index]? = some (pointAt size index) := by
  rw [gridOrder_eq_map, List.getElem?_map, List.getElem?_range inRange]
  rfl

/-- Every listed point lies inside the box. -/
theorem pointAt_inside
    {size : GridPoint}
    {index : Nat}
    (inRange : index < size.volume) :
    (pointAt size index).Inside size := by
  unfold volume at inRange
  have volumePositive : 0 < size.x * size.y * size.z := by omega
  have planePositive : 0 < size.x * size.y := Nat.pos_of_mul_pos_right volumePositive
  exact
    { x := Nat.mod_lt _ (Nat.pos_of_mul_pos_right planePositive)
      y := Nat.mod_lt _ (Nat.pos_of_mul_pos_left planePositive)
      z := Nat.div_lt_of_lt_mul inRange }

/-- The order is by rank: a point inside the box stands at its rank. -/
theorem pointAt_rank
    {size point : GridPoint}
    (inside : point.Inside size) :
    pointAt size (rank size point) = point := by
  have xBound := inside.x
  have yBound := inside.y
  have quotient : rank size point / size.x = point.z * size.y + point.y := by
    rw [rank, Nat.mul_comm, Nat.mul_add_div (by omega), Nat.div_eq_of_lt xBound,
      Nat.add_zero]
  ext
  · show rank size point % size.x = point.x
    rw [rank, Nat.mul_comm, Nat.mul_add_mod, Nat.mod_eq_of_lt xBound]
  · show rank size point / size.x % size.y = point.y
    rw [quotient, Nat.mul_comm, Nat.mul_add_mod, Nat.mod_eq_of_lt yBound]
  · show rank size point / (size.x * size.y) = point.z
    rw [← Nat.div_div_eq_div_mul, quotient, Nat.mul_comm, Nat.mul_add_div (by omega),
      Nat.div_eq_of_lt yBound, Nat.add_zero]

theorem rank_lt
    {size point : GridPoint}
    (inside : point.Inside size) :
    rank size point < size.volume := by
  have plane : point.z * size.y + point.y + 1 ≤ size.z * size.y := by
    calc
      point.z * size.y + point.y + 1 ≤ (point.z + 1) * size.y := by
        rw [Nat.succ_mul]
        have yBound := inside.y
        omega
      _ ≤ size.z * size.y := Nat.mul_le_mul_right _ inside.z
  calc
    rank size point < (point.z * size.y + point.y + 1) * size.x := by
      rw [Nat.succ_mul, rank]
      exact Nat.add_lt_add_left inside.x _
    _ ≤ size.z * size.y * size.x := Nat.mul_le_mul_right _ plane
    _ = size.volume := by
      rw [volume, Nat.mul_comm (size.z * size.y), Nat.mul_comm size.z, Nat.mul_assoc]

/-- Every point inside the box is listed. -/
theorem mem_gridOrder_iff
    {size point : GridPoint} :
    point ∈ gridOrder size ↔ point.Inside size := by
  rw [gridOrder_eq_map, List.mem_map]
  constructor
  · rintro ⟨index, inRange, rfl⟩
    exact pointAt_inside (List.mem_range.mp inRange)
  · intro inside
    exact ⟨rank size point, List.mem_range.mpr (rank_lt inside), pointAt_rank inside⟩

/-- The rank of the `index`-th point is `index`. -/
theorem rank_pointAt
    (size : GridPoint)
    (index : Nat) :
    rank size (pointAt size index) = index := by
  simp only [rank, pointAt]
  rw [← Nat.div_div_eq_div_mul, Nat.mul_comm (index / size.x / size.y),
    Nat.div_add_mod, Nat.mul_comm, Nat.div_add_mod]

/-- No point is listed twice. -/
theorem nodup_gridOrder
    (size : GridPoint) :
    (gridOrder size).Nodup := by
  rw [gridOrder_eq_map]
  refine List.nodup_range.map ?_
  intro left right same
  rw [← rank_pointAt size left, ← rank_pointAt size right, same]

/-- The odometer moves inside the box, to the next rank. -/
theorem advance_eq_some
    {size point next : GridPoint}
    (inside : point.Inside size)
    (advanced : advance size point = some next) :
    next.Inside size ∧ rank size next = rank size point + 1 := by
  have xBound := inside.x
  have yBound := inside.y
  have zBound := inside.z
  unfold advance at advanced
  split_ifs at advanced with xLast yLast zLast
  · obtain rfl := Option.some.inj advanced
    refine ⟨⟨by simp; omega, by simp; omega, by simp; omega⟩, ?_⟩
    simp only [rank]
    rw [Nat.add_assoc _ point.x, xLast, ← Nat.succ_mul, Nat.succ_eq_add_one,
      Nat.add_assoc _ point.y, yLast, ← Nat.succ_mul]
    rfl
  · obtain rfl := Option.some.inj advanced
    refine ⟨⟨by simp; omega, by simp; omega, zBound⟩, ?_⟩
    simp only [rank]
    rw [Nat.add_assoc _ point.x, xLast, ← Nat.succ_mul]
    rfl
  · obtain rfl := Option.some.inj advanced
    exact ⟨⟨by simp; omega, yBound, zBound⟩, rfl⟩

/-- The odometer stops at the last point only. -/
theorem advance_eq_none
    {size point : GridPoint}
    (stopped : advance size point = none) :
    rank size point + 1 = size.volume := by
  unfold advance at stopped
  split_ifs at stopped with xLast yLast zLast
  simp only [rank, volume]
  rw [Nat.add_assoc _ point.x, xLast, ← Nat.succ_mul, Nat.succ_eq_add_one,
    Nat.add_assoc _ point.y, yLast, ← Nat.succ_mul, Nat.succ_eq_add_one, zLast,
    Nat.mul_comm, Nat.mul_comm size.z, Nat.mul_assoc]

/-- One step of the odometer is one step in the order. -/
theorem advance_pointAt
    {size : GridPoint}
    {index : Nat}
    (inRange : index < size.volume) :
    advance size (pointAt size index) =
      if index + 1 = size.volume then none else some (pointAt size (index + 1)) := by
  have inside := pointAt_inside inRange
  cases advanced : advance size (pointAt size index) with
  | none =>
      have last := advance_eq_none advanced
      rw [rank_pointAt] at last
      rw [if_pos last]
  | some next =>
      obtain ⟨nextInside, nextRank⟩ := advance_eq_some inside advanced
      rw [rank_pointAt] at nextRank
      have bound := rank_lt nextInside
      rw [if_neg (by omega), ← nextRank, pointAt_rank nextInside]

/-- The walk starts at the origin. -/
theorem pointAt_zero
    (size : GridPoint) :
    pointAt size 0 = ⟨0, 0, 0⟩ := by
  simp [pointAt]

end GridPoint

end OpenGPU
