import Mathlib.Data.List.Range

/-!
# First match in circular order

Arbiters scan `count` candidates from a rotating start and take the first one
that is ready. The loops of that shape are one `find?`, with the facts that
every arbiter proof needs: the winner is in range and ready, and there is one
as soon as some candidate is ready.
-/

namespace OpenGPU

/-- The candidates `start, start + 1, …` modulo `count`, once around. -/
def circularOrder (count start : Nat) : List Nat :=
  (List.range count).map fun offset => (start + offset) % count

/-- The first ready candidate in circular order. -/
def circularFirst (count start : Nat) (ready : Nat → Bool) : Option Nat :=
  (circularOrder count start).find? ready

/-- Circular order visits every candidate. -/
theorem mem_circularOrder
    {count start candidate : Nat}
    (inRange : candidate < count) :
    candidate ∈ circularOrder count start := by
  simp only [circularOrder, List.mem_map, List.mem_range]
  have startBound : start % count < count := Nat.mod_lt _ (by omega)
  by_cases wraps : start % count ≤ candidate
  · refine ⟨candidate - start % count, by omega, ?_⟩
    rw [Nat.add_mod, Nat.mod_eq_of_lt (show candidate - start % count < count by omega)]
    rw [Nat.add_sub_cancel' wraps, Nat.mod_eq_of_lt inRange]
  · refine ⟨candidate + count - start % count, by omega, ?_⟩
    rw [Nat.add_mod,
      Nat.mod_eq_of_lt (show candidate + count - start % count < count by omega)]
    rw [Nat.add_sub_cancel' (by omega), Nat.add_mod_right, Nat.mod_eq_of_lt inRange]

/-- Every visited candidate is in range. -/
theorem lt_of_mem_circularOrder
    {count start candidate : Nat}
    (visited : candidate ∈ circularOrder count start) :
    candidate < count := by
  simp only [circularOrder, List.mem_map, List.mem_range] at visited
  obtain ⟨offset, bound, rfl⟩ := visited
  exact Nat.mod_lt _ (by omega)

/-- The winner of a scan is a candidate in range. -/
theorem circularFirst_lt
    {count start winner : Nat}
    {ready : Nat → Bool}
    (found : circularFirst count start ready = some winner) :
    winner < count :=
  lt_of_mem_circularOrder (List.mem_of_find?_eq_some found)

/-- The winner of a scan is ready. -/
theorem circularFirst_ready
    {count start winner : Nat}
    {ready : Nat → Bool}
    (found : circularFirst count start ready = some winner) :
    ready winner = true :=
  List.find?_some found

/-- A scan fails exactly when nothing in range is ready. -/
theorem circularFirst_eq_none_iff
    {count start : Nat}
    {ready : Nat → Bool} :
    circularFirst count start ready = none ↔
      ∀ candidate, candidate < count → ready candidate = false := by
  rw [circularFirst, List.find?_eq_none]
  constructor
  · intro noneReady candidate inRange
    simpa using noneReady candidate (mem_circularOrder inRange)
  · intro noneReady candidate visited
    simpa using noneReady candidate (lt_of_mem_circularOrder visited)

/-- The winner lies at the first offset whose candidate is ready. -/
theorem circularFirst_eq_some_iff
    {count start winner : Nat}
    {ready : Nat → Bool} :
    circularFirst count start ready = some winner ↔
      ∃ offset, offset < count ∧ (start + offset) % count = winner ∧
        ready winner = true ∧
        ∀ earlier, earlier < offset → ready ((start + earlier) % count) = false := by
  rw [circularFirst, circularOrder, List.find?_map, Option.map_eq_some_iff]
  apply exists_congr
  intro offset
  rw [List.find?_range_eq_some]
  simp only [Function.comp_apply, List.mem_range, Bool.not_eq_true']
  constructor
  · rintro ⟨⟨isReady, inRange, earlier⟩, rfl⟩
    exact ⟨inRange, rfl, isReady, earlier⟩
  · rintro ⟨inRange, rfl, isReady, earlier⟩
    exact ⟨⟨isReady, inRange, earlier⟩, rfl⟩

/-- The start itself wins when it is ready. -/
theorem circularFirst_start
    {count start : Nat}
    {ready : Nat → Bool}
    (inRange : start < count)
    (startReady : ready start = true) :
    circularFirst count start ready = some start := by
  obtain ⟨rest, shape⟩ : ∃ rest, circularOrder count start = start :: rest := by
    obtain ⟨previous, rfl⟩ : ∃ previous, count = previous + 1 := ⟨count - 1, by omega⟩
    refine ⟨((List.range previous).map Nat.succ).map
      fun offset => (start + offset) % (previous + 1), ?_⟩
    rw [circularOrder, List.range_succ_eq_map, List.map_cons]
    simp [Nat.mod_eq_of_lt inRange]
  rw [circularFirst, shape, List.find?_cons_of_pos startReady]

/-- A scan depends only on readiness in range. -/
theorem circularFirst_congr
    {count start : Nat}
    {left right : Nat → Bool}
    (agree : ∀ candidate, candidate < count → left candidate = right candidate) :
    circularFirst count start left = circularFirst count start right := by
  unfold circularFirst
  have visitedAgree : ∀ candidate ∈ circularOrder count start,
      left candidate = right candidate := fun candidate visited =>
    agree candidate (lt_of_mem_circularOrder visited)
  generalize circularOrder count start = order at visitedAgree
  induction order with
  | nil => rfl
  | cons head tail inductionHypothesis =>
      rw [List.find?_cons, List.find?_cons, visitedAgree head (by simp),
        inductionHypothesis fun candidate inTail =>
          visitedAgree candidate (List.mem_cons_of_mem _ inTail)]

end OpenGPU
