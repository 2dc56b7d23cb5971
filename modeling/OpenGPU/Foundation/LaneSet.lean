import Mathlib.Data.List.Range
import Mathlib.Data.Finset.Card
import Mathlib.Data.Finset.Range
import Mathlib.Data.List.Pairwise

/-!
# Sets of lanes as bit masks

A mask of width `w` stands for a set of lane numbers. The C idiom
`mask & (1u << lane)` is membership, and a loop that ORs single bits into a mask
collects the lanes that pass a test. On top of it, a partition of a mask into
parts: the shape kept by a machine that splits its active lanes, parks one half
and later retires or resumes a part.
-/

namespace OpenGPU

/-- `1u << lane` at width `w`. -/
def laneBit (w lane : Nat) : BitVec w := 1#w <<< lane

/-- `mask & (1u << lane)` as a truth value. -/
def hasLane (mask : BitVec w) (lane : Nat) : Bool :=
  (mask &&& laneBit w lane) != 0

@[simp] theorem getLsbD_laneBit
    (w lane index : Nat) :
    (laneBit w lane).getLsbD index = (decide (lane < w) && decide (lane = index)) := by
  rw [laneBit, ← BitVec.twoPow_eq, BitVec.getLsbD_twoPow]

/-- The C membership test reads one bit. -/
theorem hasLane_eq_getLsbD
    (mask : BitVec w)
    (lane : Nat) :
    hasLane mask lane = mask.getLsbD lane := by
  rw [hasLane, Bool.eq_iff_iff, bne_iff_ne]
  constructor
  · intro nonzero
    by_contra absent
    apply nonzero
    apply BitVec.eq_of_getLsbD_eq
    intro index inRange
    rw [BitVec.getLsbD_and, getLsbD_laneBit]
    by_cases same : lane = index
    · subst same
      simp [Bool.eq_false_iff.mpr absent]
    · simp [same]
  · intro present zero
    have bitZero := congrArg (fun value : BitVec w => value.getLsbD lane) zero
    have inRange : lane < w := BitVec.lt_of_getLsbD present
    rw [BitVec.getLsbD_and, getLsbD_laneBit, present] at bitZero
    simp [inRange] at bitZero

@[simp] theorem hasLane_zero
    (w lane : Nat) :
    hasLane (0#w) lane = false := by
  rw [hasLane_eq_getLsbD]
  simp

@[simp] theorem hasLane_or
    (left right : BitVec w)
    (lane : Nat) :
    hasLane (left ||| right) lane = (hasLane left lane || hasLane right lane) := by
  simp [hasLane_eq_getLsbD]

@[simp] theorem hasLane_and
    (left right : BitVec w)
    (lane : Nat) :
    hasLane (left &&& right) lane = (hasLane left lane && hasLane right lane) := by
  simp [hasLane_eq_getLsbD]

@[simp] theorem hasLane_laneBit
    (w lane index : Nat) :
    hasLane (laneBit w lane) index = (decide (lane < w) && decide (lane = index)) := by
  simp [hasLane_eq_getLsbD]

/-- Lanes beyond the width are in no mask. -/
theorem lt_of_hasLane
    {mask : BitVec w}
    {lane : Nat}
    (present : hasLane mask lane = true) :
    lane < w := by
  rw [hasLane_eq_getLsbD] at present
  exact BitVec.lt_of_getLsbD present

/-- Masks with the same lanes are equal. -/
theorem eq_of_hasLane
    {left right : BitVec w}
    (agree : ∀ lane, hasLane left lane = hasLane right lane) :
    left = right := by
  apply BitVec.eq_of_getLsbD_eq
  intro lane _
  simpa [hasLane_eq_getLsbD] using agree lane

/-- A mask is empty exactly when it has no lane. -/
theorem eq_zero_iff_hasLane
    {mask : BitVec w} :
    mask = 0 ↔ ∀ lane, hasLane mask lane = false := by
  constructor
  · rintro rfl lane
    exact hasLane_zero w lane
  · intro empty
    apply eq_of_hasLane
    intro lane
    rw [empty]
    exact (hasLane_zero w lane).symm

/-- A mask is nonempty exactly when it has some lane. -/
theorem ne_zero_iff_hasLane
    {mask : BitVec w} :
    mask ≠ 0 ↔ ∃ lane, hasLane mask lane = true := by
  rw [ne_eq, eq_zero_iff_hasLane]
  simp

/-- Masks are disjoint exactly when no lane is in both. -/
theorem and_eq_zero_iff
    {left right : BitVec w} :
    left &&& right = 0 ↔
      ∀ lane, hasLane left lane = true → hasLane right lane = false := by
  rw [eq_zero_iff_hasLane]
  apply forall_congr'
  intro lane
  rw [hasLane_and]
  cases hasLane left lane <;> simp

/-- A loop that ORs in the bit of every lane that passes a test. -/
def collectLanes (w count : Nat) (test : Nat → Bool) : BitVec w :=
  (List.range count).foldl
    (fun mask lane => if test lane then mask ||| laneBit w lane else mask) 0

theorem collectLanes_succ
    (w count : Nat)
    (test : Nat → Bool) :
    collectLanes w (count + 1) test =
      if test count then collectLanes w count test ||| laneBit w count
      else collectLanes w count test := by
  simp [collectLanes, List.range_succ]

/-- The loop collects exactly the lanes that pass, within the width. -/
@[simp] theorem hasLane_collectLanes
    (w count : Nat)
    (test : Nat → Bool)
    (lane : Nat) :
    hasLane (collectLanes w count test) lane =
      (decide (lane < w) && decide (lane < count) && test lane) := by
  induction count with
  | zero => simp [collectLanes]
  | succ count inductionHypothesis =>
      rw [collectLanes_succ]
      by_cases same : count = lane
      · subst same
        cases passes : test count <;>
          simp [inductionHypothesis, passes]
      · have bounds : decide (lane < count + 1) = decide (lane < count) := by
          simp only [decide_eq_decide]
          omega
        rw [bounds]
        cases test count <;>
          simp [inductionHypothesis, same]

/-- The lanes of a mask as a finite set. -/
def laneFinset (mask : BitVec w) : Finset Nat :=
  (Finset.range w).filter fun lane => hasLane mask lane = true

@[simp] theorem mem_laneFinset
    {mask : BitVec w}
    {lane : Nat} :
    lane ∈ laneFinset mask ↔ hasLane mask lane = true := by
  simp only [laneFinset, Finset.mem_filter, Finset.mem_range, and_iff_right_iff_imp]
  exact lt_of_hasLane

/-- `parts` are nonempty, disjoint from each other and from the retired lanes,
and together with them make up the initial mask. -/
structure LanePartition
    (initial retired : BitVec w) (parts : List (BitVec w)) : Prop where
  nonempty : ∀ part ∈ parts, part ≠ 0
  disjoint : parts.Pairwise fun left right => left &&& right = 0
  retired_disjoint : ∀ part ∈ parts, part &&& retired = 0
  union : parts.foldr (· ||| ·) retired = initial

theorem hasLane_foldr_or
    (parts : List (BitVec w))
    (retired : BitVec w)
    (lane : Nat) :
    hasLane (parts.foldr (· ||| ·) retired) lane = true ↔
      hasLane retired lane = true ∨ ∃ part ∈ parts, hasLane part lane = true := by
  induction parts with
  | nil => simp
  | cons head tail inductionHypothesis =>
      rw [List.foldr_cons, hasLane_or, Bool.or_eq_true, inductionHypothesis]
      simp only [List.mem_cons, exists_eq_or_imp]
      tauto

namespace LanePartition

variable {initial retired : BitVec w} {parts : List (BitVec w)}

/-- A nonempty mask starts out as its own only part. -/
theorem start
    (nonempty : initial ≠ 0) :
    LanePartition initial 0 [initial] where
  nonempty := by simpa using nonempty
  disjoint := List.pairwise_singleton _ _
  retired_disjoint := by simp
  union := by simp

/-- An empty mask starts out with no part. -/
theorem start_empty : LanePartition (0 : BitVec w) 0 [] where
  nonempty := by simp
  disjoint := List.Pairwise.nil
  retired_disjoint := by simp
  union := rfl

/-- Nothing is left once every part is retired. -/
theorem retired_eq
    (partition : LanePartition initial retired []) :
    retired = initial := partition.union

/-- A lane of the initial mask is retired or in a part. -/
theorem mem_iff
    (partition : LanePartition initial retired parts)
    (lane : Nat) :
    hasLane initial lane = true ↔
      hasLane retired lane = true ∨ ∃ part ∈ parts, hasLane part lane = true := by
  rw [← partition.union]
  exact hasLane_foldr_or parts retired lane

/-- Split the first part in two; either half may come first. -/
theorem split
    {head first second : BitVec w}
    (partition : LanePartition initial retired (head :: parts))
    (union : first ||| second = head)
    (disjoint : first &&& second = 0)
    (firstNonempty : first ≠ 0)
    (secondNonempty : second ≠ 0) :
    LanePartition initial retired (first :: second :: parts) := by
  subst union
  obtain ⟨headDisjoint, tailDisjoint⟩ := List.pairwise_cons.mp partition.disjoint
  have headRetired := partition.retired_disjoint _ List.mem_cons_self
  have halves : ∀ other, (first ||| second) &&& other = 0 →
      first &&& other = 0 ∧ second &&& other = 0 := by
    intro other joined
    rw [and_eq_zero_iff] at joined
    constructor <;> rw [and_eq_zero_iff] <;> intro lane present <;>
      exact joined lane (by simp [present])
  refine ⟨?_, ?_, ?_, ?_⟩
  · intro part member
    rcases List.mem_cons.mp member with rfl | member
    · exact firstNonempty
    rcases List.mem_cons.mp member with rfl | member
    · exact secondNonempty
    exact partition.nonempty part (List.mem_cons_of_mem _ member)
  · refine List.pairwise_cons.mpr ⟨?_, List.pairwise_cons.mpr ⟨?_, tailDisjoint⟩⟩
    · intro other member
      rcases List.mem_cons.mp member with rfl | member
      · exact disjoint
      exact (halves other (headDisjoint other member)).1
    · intro other member
      exact (halves other (headDisjoint other member)).2
  · intro part member
    rcases List.mem_cons.mp member with rfl | member
    · exact (halves retired headRetired).1
    rcases List.mem_cons.mp member with rfl | member
    · exact (halves retired headRetired).2
    exact partition.retired_disjoint part (List.mem_cons_of_mem _ member)
  · rw [← partition.union, List.foldr_cons, List.foldr_cons, List.foldr_cons,
      BitVec.or_assoc]

/-- Retire the first part. -/
theorem retire
    {head : BitVec w}
    (partition : LanePartition initial retired (head :: parts)) :
    LanePartition initial (retired ||| head) parts := by
  obtain ⟨headDisjoint, tailDisjoint⟩ := List.pairwise_cons.mp partition.disjoint
  refine ⟨fun part member => partition.nonempty part (List.mem_cons_of_mem _ member),
    tailDisjoint, ?_, ?_⟩
  · intro part member
    have retiredDisjoint :=
      partition.retired_disjoint part (List.mem_cons_of_mem _ member)
    rw [and_eq_zero_iff] at retiredDisjoint ⊢
    intro lane present
    rw [hasLane_or, retiredDisjoint lane present, Bool.false_or]
    by_contra inHead
    have := and_eq_zero_iff.mp (headDisjoint part member) lane
      (Bool.not_eq_false _ ▸ inHead)
    simp [this] at present
  · rw [← partition.union]
    apply eq_of_hasLane
    intro lane
    rw [Bool.eq_iff_iff, hasLane_foldr_or, hasLane_foldr_or, hasLane_or, Bool.or_eq_true]
    simp only [List.mem_cons, exists_eq_or_imp]
    tauto

/-- There are at most as many parts as lanes that have not retired. -/
theorem length_le_card
    (partition : LanePartition initial retired parts) :
    parts.length + (laneFinset retired).card ≤ (laneFinset initial).card := by
  induction parts generalizing retired with
  | nil => rw [partition.retired_eq]; simp
  | cons head tail inductionHypothesis =>
      have rest := inductionHypothesis partition.retire
      obtain ⟨lane, present⟩ :=
        ne_zero_iff_hasLane.mp (partition.nonempty head List.mem_cons_self)
      have fresh : hasLane retired lane = false :=
        and_eq_zero_iff.mp (partition.retired_disjoint head List.mem_cons_self) lane present
      have grows : (laneFinset retired).card < (laneFinset (retired ||| head)).card := by
        apply Finset.card_lt_card
        rw [Finset.ssubset_iff_of_subset]
        · exact ⟨lane, by simp [present], by simp [fresh]⟩
        · intro other member
          simp only [mem_laneFinset] at member ⊢
          simp [member]
      simp only [List.length_cons]
      omega

end LanePartition

end OpenGPU
