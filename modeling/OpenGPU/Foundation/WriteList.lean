import Mathlib.Data.List.Induction
import Mathlib.Data.List.Nodup
import Mathlib.Logic.Function.Basic

/-!
# Writes in order

A record laid out in an array is a list of indexed writes to a cleared array. An
element holds the last value written to it, and the writes of other parts of the
layout do not matter for it. Writes to whole regions, one after another, change
nothing exactly when the last write to each element writes what is there, and two
orders of the same writes differ only where their last writes do.
-/

namespace OpenGPU

section WriteList

variable {index place value : Type*} [DecidableEq index] [DecidableEq place]

/-- Apply indexed writes in order. -/
def applyWrites (writes : List (index × value)) (f : index → value) : index → value :=
  writes.foldl (fun f write => Function.update f write.1 write.2) f

theorem applyWrites_append
    (first second : List (index × value))
    (f : index → value) :
    applyWrites (first ++ second) f = applyWrites second (applyWrites first f) :=
  List.foldl_append

theorem applyWrites_cons
    (write : index × value)
    (writes : List (index × value))
    (f : index → value) :
    applyWrites (write :: writes) f = applyWrites writes (Function.update f write.1 write.2) := rfl

/-- An element that is not written keeps its value. -/
theorem applyWrites_of_unwritten
    {writes : List (index × value)}
    {i : index}
    (f : index → value)
    (unwritten : ∀ write, write ∈ writes → write.1 ≠ i) :
    applyWrites writes f i = f i := by
  induction writes generalizing f with
  | nil => rfl
  | cons write writes inductionHypothesis =>
      rw [applyWrites_cons, inductionHypothesis _ fun later member =>
        unwritten later (List.mem_cons_of_mem _ member)]
      exact Function.update_of_ne (unwritten write List.mem_cons_self).symm _ _

/-- The writes look at no other element. -/
theorem applyWrites_congr
    (writes : List (index × value))
    {f g : index → value}
    {i : index}
    (same : f i = g i) :
    applyWrites writes f i = applyWrites writes g i := by
  induction writes generalizing f g with
  | nil => exact same
  | cons write writes inductionHypothesis =>
      rw [applyWrites_cons, applyWrites_cons]
      apply inductionHypothesis
      rw [Function.update_apply, Function.update_apply, same]

/-- A layout that is moved as a whole. -/
theorem applyWrites_map
    {move : index → place}
    (injective : Function.Injective move)
    (writes : List (index × value))
    (f : place → value)
    (i : index) :
    applyWrites (writes.map fun write => (move write.1, write.2)) f (move i) =
      applyWrites writes (fun i => f (move i)) i := by
  induction writes generalizing f with
  | nil => rfl
  | cons write writes inductionHypothesis =>
      rw [List.map_cons, applyWrites_cons, applyWrites_cons, inductionHypothesis]
      refine congrArg (fun g => applyWrites writes g i) ?_
      funext j
      rw [Function.update_apply, Function.update_apply]
      exact if_congr injective.eq_iff rfl rfl

/-- In a sequence of blocks only the block of the element matters. -/
theorem applyWrites_flatMap_range
    {blocks : Nat → List (index × value)}
    {count own : Nat}
    {i : index}
    (f : index → value)
    (inSequence : own < count)
    (others : ∀ block, block < count → block ≠ own → ∀ write, write ∈ blocks block → write.1 ≠ i) :
    applyWrites ((List.range count).flatMap blocks) f i = applyWrites (blocks own) f i := by
  have prefixes : ∀ n, n ≤ count →
      applyWrites ((List.range n).flatMap blocks) f i =
        if own < n then applyWrites (blocks own) f i else f i := by
    intro n
    induction n with
    | zero => exact fun _ => rfl
    | succ n inductionHypothesis =>
        intro within
        rw [List.range_succ, List.flatMap_append, List.flatMap_singleton, applyWrites_append]
        have before := inductionHypothesis (Nat.le_of_succ_le within)
        rcases eq_or_ne n own with rfl | other
        · rw [if_neg (Nat.lt_irrefl n)] at before
          rw [if_pos (Nat.lt_succ_self n)]
          exact applyWrites_congr _ before
        · rw [applyWrites_of_unwritten _ (others n within other), before]
          exact if_congr (by omega) rfl rfl
  rw [prefixes count (Nat.le_refl count), if_pos inSequence]

/-- In a layout without overlap every write is found in its place. -/
theorem applyWrites_of_mem
    {writes : List (index × value)}
    (distinct : (writes.map Prod.fst).Nodup)
    (f : index → value)
    {i : index}
    {v : value}
    (member : (i, v) ∈ writes) :
    applyWrites writes f i = v := by
  induction writes generalizing f with
  | nil => exact absurd member List.not_mem_nil
  | cons write writes inductionHypothesis =>
      rw [List.map_cons, List.nodup_cons] at distinct
      rw [applyWrites_cons]
      rcases List.mem_cons.mp member with rfl | later
      · have unwritten : ∀ other ∈ writes, other.1 ≠ i := fun other otherMember same =>
          distinct.1 (List.mem_map.mpr ⟨other, otherMember, same⟩)
        rw [applyWrites_of_unwritten _ unwritten]
        exact Function.update_self _ _ _
      · exact inductionHypothesis distinct.2 _ later

/-- The writes of blocks of equal size lie between the first block and the last. -/
theorem place_flatMap_range
    {blocks : Nat → List (Nat × value)}
    {count base size : Nat}
    (inBlock : ∀ k, k < count → ∀ write ∈ blocks k,
      base + k * size ≤ write.1 ∧ write.1 < base + (k + 1) * size)
    {write : Nat × value}
    (member : write ∈ (List.range count).flatMap blocks) :
    base ≤ write.1 ∧ write.1 < base + count * size := by
  obtain ⟨k, inRange, listed⟩ := List.mem_flatMap.mp member
  have inRange := List.mem_range.mp inRange
  obtain ⟨least, below⟩ := inBlock k inRange write listed
  have within : (k + 1) * size ≤ count * size := Nat.mul_le_mul_right _ inRange
  exact ⟨by omega, by omega⟩

/-- Two layouts on either side of a place do not overlap. -/
theorem nodup_append_of_lt
    {early late : List (Nat × value)}
    (place : Nat)
    (earlyDistinct : (early.map Prod.fst).Nodup)
    (lateDistinct : (late.map Prod.fst).Nodup)
    (below : ∀ write ∈ early, write.1 < place)
    (above : ∀ write ∈ late, place ≤ write.1) :
    ((early ++ late).map Prod.fst).Nodup := by
  rw [List.map_append]
  refine earlyDistinct.append lateDistinct fun here earlyPlace latePlace => ?_
  obtain ⟨first, firstMember, rfl⟩ := List.mem_map.mp earlyPlace
  obtain ⟨second, secondMember, same⟩ := List.mem_map.mp latePlace
  have before := below first firstMember
  have after := above second secondMember
  omega

/-- Blocks of equal size, one after another, do not overlap. -/
theorem nodup_flatMap_range
    {blocks : Nat → List (Nat × value)}
    {count base size : Nat}
    (inBlock : ∀ k, k < count → ∀ write ∈ blocks k,
      base + k * size ≤ write.1 ∧ write.1 < base + (k + 1) * size)
    (distinct : ∀ k, k < count → ((blocks k).map Prod.fst).Nodup) :
    (((List.range count).flatMap blocks).map Prod.fst).Nodup := by
  rw [List.map_flatMap, List.nodup_flatMap]
  refine ⟨fun k member => distinct k (List.mem_range.mp member), ?_⟩
  refine List.pairwise_lt_range.imp_of_mem fun {early late} earlyMember lateMember before => ?_
  intro place earlyPlace latePlace
  obtain ⟨first, firstMember, rfl⟩ := List.mem_map.mp earlyPlace
  obtain ⟨second, secondMember, same⟩ := List.mem_map.mp latePlace
  have below := (inBlock early (List.mem_range.mp earlyMember) first firstMember).2
  have above := (inBlock late (List.mem_range.mp lateMember) second secondMember).1
  have apart : (early + 1) * size ≤ late * size := Nat.mul_le_mul_right _ before
  omega

end WriteList

/-! ## Regions -/

section Overwrite

variable {index value : Type*}

/-- Step `t` writes its values to the elements that it covers. -/
def overwrite (covers : Nat → index → Bool) (values : Nat → index → value)
    (f : index → value) (t : Nat) : index → value :=
  fun i => if covers t i then values t i else f i

/-- An element has a last step that covers it, or none does. -/
theorem exists_lastCover
    (covers : Nat → index → Bool)
    (count : Nat)
    (i : index) :
    (∃ t, t < count ∧ covers t i = true ∧
        ∀ later, t < later → later < count → covers later i = false) ∨
      ∀ t, t < count → covers t i = false := by
  induction count with
  | zero => exact Or.inr fun t beyond => absurd beyond (Nat.not_lt_zero t)
  | succ count inductionHypothesis =>
      cases here : covers count i with
      | true =>
          refine Or.inl ⟨count, Nat.lt_succ_self count, here, fun later after before => ?_⟩
          omega
      | false =>
          have step : ∀ t, t < count + 1 → t = count ∨ t < count := fun t before => by omega
          rcases inductionHypothesis with ⟨t, before, covered, last⟩ | none
          · refine Or.inl ⟨t, Nat.lt_succ_of_lt before, covered, fun later after within => ?_⟩
            rcases step later within with rfl | within
            · exact here
            · exact last later after within
          · refine Or.inr fun t within => ?_
            rcases step t within with rfl | within
            · exact here
            · exact none t within

variable {covers : Nat → index → Bool} {values : Nat → index → value} {count : Nat}

/-- An element that no step covers keeps its value. -/
theorem foldl_overwrite_of_uncovered
    (f : index → value)
    {i : index}
    (uncovered : ∀ t, t < count → covers t i = false) :
    (List.range count).foldl (overwrite covers values) f i = f i := by
  induction count with
  | zero => rfl
  | succ count inductionHypothesis =>
      rw [List.range_succ, List.foldl_append, List.foldl_cons, List.foldl_nil, overwrite,
        uncovered count (Nat.lt_succ_self count), if_neg Bool.false_ne_true]
      exact inductionHypothesis fun t before => uncovered t (Nat.lt_succ_of_lt before)

/-- An element holds what the last step wrote. -/
theorem foldl_overwrite_of_last
    (f : index → value)
    {i : index}
    {t : Nat}
    (before : t < count)
    (covered : covers t i = true)
    (last : ∀ later, t < later → later < count → covers later i = false) :
    (List.range count).foldl (overwrite covers values) f i = values t i := by
  induction count with
  | zero => exact absurd before (Nat.not_lt_zero t)
  | succ count inductionHypothesis =>
      rw [List.range_succ, List.foldl_append, List.foldl_cons, List.foldl_nil, overwrite]
      rcases Nat.lt_or_eq_of_le (Nat.le_of_lt_succ before) with earlier | rfl
      · rw [last count earlier (Nat.lt_succ_self count), if_neg Bool.false_ne_true]
        exact inductionHypothesis earlier fun later after within =>
          last later after (Nat.lt_succ_of_lt within)
      · rw [covered, if_pos rfl]

/-- The steps change nothing exactly when every last step writes what was there. -/
theorem foldl_overwrite_eq_self_iff
    (f : index → value) :
    (List.range count).foldl (overwrite covers values) f = f ↔
      ∀ t, t < count → ∀ i, covers t i = true →
        (∀ later, t < later → later < count → covers later i = false) → values t i = f i := by
  constructor
  · intro unchanged t before i covered last
    exact (foldl_overwrite_of_last f before covered last).symm.trans (congrFun unchanged i)
  · intro same
    funext i
    rcases exists_lastCover covers count i with ⟨t, before, covered, last⟩ | uncovered
    · rw [foldl_overwrite_of_last f before covered last]
      exact same t before i covered last
    · exact foldl_overwrite_of_uncovered f uncovered

end Overwrite

/-! ## Regions in a list -/

section Replay

variable {step index value : Type*} (covers : step → index → Bool) (values : step → index → value)

/-- The steps write their values to the elements that they cover, one after another. -/
def replay (steps : List step) (f : index → value) : index → value :=
  steps.foldl (fun f s i => if covers s i then values s i else f i) f

/-- An element holds what the last step that covers it wrote. -/
theorem replay_apply
    (steps : List step)
    (f : index → value)
    (i : index) :
    replay covers values steps f i =
      (steps.filter fun s => covers s i).getLast?.elim (f i) fun s => values s i := by
  induction steps using List.reverseRecOn with
  | nil => rfl
  | append_singleton steps s inductionHypothesis =>
      rw [replay, List.foldl_append, List.foldl_cons, List.foldl_nil, List.filter_append]
      cases covered : covers s i with
      | true => simp [covered]
      | false =>
          rw [if_neg Bool.false_ne_true, List.filter_cons, covered, List.filter_nil,
            if_neg Bool.false_ne_true, List.append_nil]
          exact inductionHypothesis

/-- An element that no step covers keeps its value. -/
theorem replay_of_uncovered
    {steps : List step}
    {i : index}
    (uncovered : ∀ s ∈ steps, ¬covers s i = true)
    (f : index → value) :
    replay covers values steps f i = f i := by
  rw [replay_apply, List.filter_eq_nil_iff.mpr uncovered]
  rfl

/-- The steps look at no other element. -/
theorem replay_congr
    (steps : List step)
    {f g : index → value}
    {i : index}
    (same : f i = g i) :
    replay covers values steps f i = replay covers values steps g i := by
  rw [replay_apply, replay_apply, same]

/-- Two orders of the same steps agree on an element exactly when the last steps that
cover it do. -/
theorem replay_apply_eq_iff
    {first second : List step}
    (sameSteps : first.Perm second)
    {f g : index → value}
    {i : index}
    (same : f i = g i) :
    replay covers values first f i = replay covers values second g i ↔
      ∀ last ∈ (first.filter fun s => covers s i).getLast?,
        ∀ other ∈ (second.filter fun s => covers s i).getLast?, values last i = values other i := by
  have covering := sameSteps.filter fun s => covers s i
  rw [replay_apply, replay_apply, same]
  rcases List.eq_nil_or_concat (first.filter fun s => covers s i) with none | ⟨early, last, whole⟩
  · rw [none] at covering
    rw [none, covering.symm.eq_nil]
    simp
  · rcases List.eq_nil_or_concat (second.filter fun s => covers s i) with
      none | ⟨others, other, otherWhole⟩
    · rw [none, whole] at covering
      exact absurd covering.eq_nil (by simp)
    · rw [whole, otherWhole]
      simp

/-- In a sorted list the last step that covers an element is a greatest one. -/
theorem le_getLast_of_pairwise
    {le : step → step → Prop}
    (reflexive : ∀ s, le s s)
    {steps : List step}
    (sorted : steps.Pairwise le)
    {last s : step}
    (isLast : last ∈ steps.getLast?)
    (member : s ∈ steps) :
    le s last := by
  rcases List.eq_nil_or_concat steps with none | ⟨early, final, whole⟩
  · rw [none] at member
    exact absurd member List.not_mem_nil
  · rw [whole] at sorted member isLast
    simp only [List.concat_eq_append, List.getLast?_append, List.getLast?_singleton,
      Option.some_or, Option.mem_some_iff] at isLast
    subst isLast
    rw [List.concat_eq_append, List.mem_append, List.mem_singleton] at member
    rw [List.concat_eq_append, List.pairwise_append] at sorted
    rcases member with before | rfl
    · exact sorted.2.2 s before final List.mem_cons_self
    · exact reflexive s

end Replay

end OpenGPU
