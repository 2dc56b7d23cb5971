import Mathlib.Data.List.Range
import Mathlib.Logic.Function.Basic

/-!
# Loops over lanes

A loop over lane numbers whose step for one lane writes only that lane's part of
a file of registers, and reads nothing else of it, gives each part to its own
step. A loop that compares a value of every active lane with the value of the
first active one finds out whether they all agree.
-/

namespace OpenGPU

variable {index value : Type*}

/-! ## Steps on disjoint parts -/

/-- The step for lane `t` writes only what `owner` gives to `t`, and what it
writes there depends on that part only. -/
structure ActsOnParts (owner : index → Option Nat) (lanes : Nat)
    (step : (index → value) → Nat → index → value) : Prop where
  frame : ∀ file t i, t < lanes → owner i ≠ some t → step file t i = file i
  reads : ∀ file file' t i, t < lanes → owner i = some t →
    (∀ j, owner j = some t → file j = file' j) → step file t i = step file' t i

namespace ActsOnParts

variable {owner : index → Option Nat} {lanes : Nat}
  {step : (index → value) → Nat → index → value}

/-- What no lane so far owns stays. -/
theorem foldl_of_unowned
    (acts : ActsOnParts owner lanes step)
    (file : index → value)
    {count : Nat}
    {i : index}
    (inLoop : count ≤ lanes)
    (unowned : ∀ t, t < count → owner i ≠ some t) :
    (List.range count).foldl step file i = file i := by
  induction count with
  | zero => rfl
  | succ count inductionHypothesis =>
      rw [List.range_succ, List.foldl_append, List.foldl_cons, List.foldl_nil,
        acts.frame _ count i inLoop (unowned count (Nat.lt_succ_self count))]
      exact inductionHypothesis (Nat.le_of_succ_le inLoop)
        fun t before => unowned t (Nat.lt_succ_of_lt before)

/-- What a lane so far owns is the work of its step on the file before the
loop. -/
theorem foldl_of_owner
    (acts : ActsOnParts owner lanes step)
    (file : index → value)
    {count t : Nat}
    {i : index}
    (inLoop : count ≤ lanes)
    (owned : owner i = some t)
    (done : t < count) :
    (List.range count).foldl step file i = step file t i := by
  induction count with
  | zero => exact absurd done (Nat.not_lt_zero t)
  | succ count inductionHypothesis =>
      rw [List.range_succ, List.foldl_append, List.foldl_cons, List.foldl_nil]
      rcases Nat.lt_or_eq_of_le (Nat.le_of_lt_succ done) with before | rfl
      · have other : owner i ≠ some count := by
          rw [owned]
          exact fun same => absurd (Option.some.inj same) (Nat.ne_of_lt before)
        rw [acts.frame _ count i inLoop other]
        exact inductionHypothesis (Nat.le_of_succ_le inLoop) before
      · apply acts.reads _ _ t i inLoop owned
        intro j mine
        apply acts.foldl_of_unowned file (Nat.le_of_succ_le inLoop)
        intro earlier before same
        rw [mine] at same
        exact absurd (Option.some.inj same).symm (Nat.ne_of_lt before)

end ActsOnParts

/-! ## Comparing with the first lane -/

/-- What such a loop carries along. -/
structure Agreement (value : Type*) where
  seen : Bool
  first : value
  last : value
  differs : Bool

namespace Agreement

variable [DecidableEq value]

/-- The step for lane `t`. -/
def step (active : Nat → Bool) (values : Nat → value) (s : Agreement value) (t : Nat) :
    Agreement value :=
  if active t then
    if !s.seen then { s with seen := true, first := values t, last := values t }
    else if s.first ≠ values t then { s with last := values t, differs := true }
    else { s with last := values t }
  else s

/-- The loop over the first `count` lanes. -/
def scan (active : Nat → Bool) (values : Nat → value) (count : Nat) (s : Agreement value) :
    Agreement value :=
  (List.range count).foldl (step active values) s

/-- The state after the active lanes of which `lane` is the first. -/
structure Compared (active : Nat → Bool) (values : Nat → value) (count lane : Nat)
    (s : Agreement value) : Prop where
  seen : s.seen = true
  first : s.first = values lane
  differs : s.differs = true ↔ ∃ t, t < count ∧ active t = true ∧ values t ≠ values lane
  last : s.differs = false → s.last = values lane

section Step

variable {active : Nat → Bool} {values : Nat → value} {count : Nat} {s : Agreement value}

theorem scan_succ :
    scan active values (count + 1) s = step active values (scan active values count s) count := by
  rw [scan, List.range_succ, List.foldl_append]
  rfl

theorem step_of_inactive
    (idle : active count = false) :
    step active values s count = s := by
  rw [step, idle, if_neg Bool.false_ne_true]

/-- The first active lane sets the value to compare with. -/
theorem compared_step_first
    (now : active count = true)
    (unseen : s.seen = false)
    (agree : s.differs = false)
    (none : ∀ t, t < count → active t = false) :
    Compared active values (count + 1) count (step active values s count) := by
  rw [step, if_pos now, unseen, if_pos Bool.not_false]
  refine ⟨rfl, rfl, ?_, fun _ => rfl⟩
  rw [agree]
  refine iff_of_false Bool.false_ne_true ?_
  rintro ⟨t, inLoop, issued, other⟩
  rcases Nat.lt_or_eq_of_le (Nat.le_of_lt_succ inLoop) with before | rfl
  · exact absurd issued (by rw [none t before]; exact Bool.false_ne_true)
  · exact other rfl

/-- A later lane is compared. -/
theorem Compared.step
    {lane : Nat}
    (compared : Compared active values count lane s) :
    Compared active values (count + 1) lane (step active values s count) := by
  have widen : (∃ t, t < count + 1 ∧ active t = true ∧ values t ≠ values lane) ↔
      (∃ t, t < count ∧ active t = true ∧ values t ≠ values lane) ∨
        (active count = true ∧ values count ≠ values lane) := by
    simp only [Nat.lt_succ_iff_lt_or_eq, or_and_right, exists_or, exists_eq_left]
  cases now : active count with
  | false =>
      rw [step_of_inactive now]
      refine ⟨compared.seen, compared.first, ?_, compared.last⟩
      rw [widen, compared.differs, now]
      simp
  | true =>
      rw [Agreement.step, if_pos now, compared.seen, if_neg (by decide), compared.first]
      split_ifs with differ
      · refine ⟨rfl, rfl, ?_, fun agree => absurd agree (by simp)⟩
        rw [widen]
        exact iff_of_true rfl (Or.inr ⟨now, fun same => differ same.symm⟩)
      · rw [not_not] at differ
        refine ⟨rfl, rfl, ?_, fun _ => differ.symm⟩
        rw [widen, ← compared.differs]
        simp [differ]

end Step

/-- A loop without active lanes compares nothing; otherwise it compares with the
first active lane. -/
theorem scan_spec
    (active : Nat → Bool)
    (values : Nat → value)
    (count : Nat)
    (s : Agreement value)
    (unseen : s.seen = false)
    (agree : s.differs = false) :
    ((∀ t, t < count → active t = false) ∧ scan active values count s = s) ∨
      ∃ lane, (List.range count).find? active = some lane ∧
        Compared active values count lane (scan active values count s) := by
  induction count with
  | zero => exact Or.inl ⟨fun t absurdity => absurd absurdity (Nat.not_lt_zero t), rfl⟩
  | succ count inductionHypothesis =>
      rw [scan_succ, List.range_succ, List.find?_append]
      rcases inductionHypothesis with ⟨quiet, unchanged⟩ | ⟨lane, found, compared⟩
      · have nobody : (List.range count).find? active = none := by
          rw [List.find?_eq_none]
          intro t inLoop
          rw [quiet t (List.mem_range.mp inLoop)]
          exact Bool.false_ne_true
        rw [unchanged, nobody, Option.none_or, List.find?_singleton]
        cases now : active count with
        | false =>
            refine Or.inl ⟨fun t inLoop => ?_, step_of_inactive now⟩
            rcases Nat.lt_or_eq_of_le (Nat.le_of_lt_succ inLoop) with before | rfl
            · exact quiet t before
            · exact now
        | true => exact Or.inr ⟨count, rfl, compared_step_first now unseen agree quiet⟩
      · rw [found, Option.some_or]
        exact Or.inr ⟨lane, rfl, compared.step⟩

end Agreement

end OpenGPU
