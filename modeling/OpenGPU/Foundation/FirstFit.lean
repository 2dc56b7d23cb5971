import Mathlib.Data.Finset.Card
import Mathlib.Data.Finset.Filter
import Mathlib.Order.Bounds.Defs

/-!
# First fit

An allocator that keeps no free list looks for a place among the segments in use. It
tries a place and, when some segment is in the way, goes on right behind that segment,
whichever one it came across. The order of the segments does not matter: no place that
fits is skipped, so the place at which the search can stop is the lowest one.
-/

namespace OpenGPU

/-- The numbers from `base` up to the limit. -/
structure Segment where
  base : Nat
  size : Nat
  deriving DecidableEq

namespace Segment

/-- The first number behind the segment. -/
def limit (segment : Segment) : Nat := segment.base + segment.size

/-- Two segments of which one ends before the other begins. -/
def Apart (left right : Segment) : Prop := left.limit ≤ right.base ∨ right.limit ≤ left.base

/-- Space of the given size from `base` on meets nothing that is taken. -/
def Free (taken : Finset Segment) (size base : Nat) : Prop :=
  ∀ block ∈ taken, Apart ⟨base, size⟩ block

/-- A search that goes on behind a segment that is in the way. -/
inductive Search (taken : Finset Segment) (size : Nat) : Nat → Nat → Prop
  | stop (candidate : Nat) : Search taken size candidate candidate
  | skip {candidate result : Nat} {block : Segment}
      (member : block ∈ taken)
      (inTheWay : ¬Apart ⟨candidate, size⟩ block)
      (rest : Search taken size block.limit result) :
      Search taken size candidate result

section Search

variable {taken : Finset Segment} {size candidate result base : Nat} {block : Segment}

/-- A segment in the way ends behind the candidate. -/
theorem lt_limit_of_not_apart
    (inTheWay : ¬Apart ⟨candidate, size⟩ block) :
    candidate < block.limit :=
  Nat.lt_of_not_le (not_or.mp inTheWay).2

/-- No place from the candidate on fits before the end of a segment that is in the
way. -/
theorem Free.limit_le
    (free : Free taken size base)
    (above : candidate ≤ base)
    (member : block ∈ taken)
    (inTheWay : ¬Apart ⟨candidate, size⟩ block) :
    block.limit ≤ base := by
  refine (free block member).resolve_left fun before => inTheWay (Or.inl ?_)
  exact (Nat.add_le_add_right above size).trans before

/-- The search goes upwards. -/
theorem Search.le
    (search : Search taken size candidate result) :
    candidate ≤ result := by
  induction search with
  | stop => exact le_refl _
  | skip _ inTheWay _ inductionHypothesis =>
      exact (lt_limit_of_not_apart inTheWay).le.trans inductionHypothesis

/-- It skips no place that fits. -/
theorem Search.le_of_free
    (search : Search taken size candidate result)
    (above : candidate ≤ base)
    (free : Free taken size base) :
    result ≤ base := by
  induction search with
  | stop => exact above
  | skip member inTheWay _ inductionHypothesis =>
      exact inductionHypothesis (free.limit_le above member inTheWay)

/-- So it ends at the lowest place that fits, if it ends at one. -/
theorem Search.isLeast
    (search : Search taken size candidate result)
    (free : Free taken size result) :
    IsLeast {base | candidate ≤ base ∧ Free taken size base} result :=
  ⟨⟨search.le, free⟩, fun _ fits => search.le_of_free fits.1 fits.2⟩

/-- Where all segments end on multiples, the search stays on multiples. -/
theorem Search.dvd
    {unit : Nat}
    (search : Search taken size candidate result)
    (aligned : unit ∣ candidate)
    (limits : ∀ block ∈ taken, unit ∣ block.limit) :
    unit ∣ result := by
  induction search with
  | stop => exact aligned
  | skip member _ _ inductionHypothesis => exact inductionHypothesis (limits _ member)

/-- The segments that end behind a candidate. -/
def remaining (taken : Finset Segment) (candidate : Nat) : Finset Segment :=
  taken.filter fun block => candidate < block.limit

/-- Every segment that is skipped remains no longer. -/
theorem card_remaining_lt
    (member : block ∈ taken)
    (inTheWay : ¬Apart ⟨candidate, size⟩ block) :
    (remaining taken block.limit).card < (remaining taken candidate).card := by
  have behind := lt_limit_of_not_apart inTheWay
  apply Finset.card_lt_card
  rw [Finset.ssubset_iff_of_subset]
  · refine ⟨block, Finset.mem_filter.mpr ⟨member, behind⟩, fun still => ?_⟩
    exact Nat.lt_irrefl _ (Finset.mem_filter.mp still).2
  · intro other stays
    obtain ⟨isTaken, after⟩ := Finset.mem_filter.mp stays
    exact Finset.mem_filter.mpr ⟨isTaken, behind.trans after⟩

end Search

end Segment

end OpenGPU
