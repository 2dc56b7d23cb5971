import Mathlib.Algebra.Order.Ring.Nat

/-!
# Exact word arithmetic

Arithmetic expressions over machine words, with the value that the machine computes
and the value over the natural numbers. An expression is exact when no operation in
it wraps and no divisor in it is zero; then the two values agree.
-/

namespace OpenGPU

/-- An arithmetic expression over words. -/
inductive WordExpr (width : Nat)
  | word (value : BitVec width)
  | add (left right : WordExpr width)
  | mul (left right : WordExpr width)
  | div (left right : WordExpr width)
  | mod (left right : WordExpr width)

namespace WordExpr

variable {width : Nat}

instance : Add (WordExpr width) := ⟨add⟩

instance : Mul (WordExpr width) := ⟨mul⟩

instance : Div (WordExpr width) := ⟨div⟩

instance : Mod (WordExpr width) := ⟨mod⟩

/-- The value that the machine computes. -/
def eval : WordExpr width → BitVec width
  | word value => value
  | add left right => left.eval + right.eval
  | mul left right => left.eval * right.eval
  | div left right => left.eval / right.eval
  | mod left right => left.eval % right.eval

/-- The value over the natural numbers. -/
def value : WordExpr width → Nat
  | word value => value.toNat
  | add left right => left.value + right.value
  | mul left right => left.value * right.value
  | div left right => left.value / right.value
  | mod left right => left.value % right.value

/-- No operation wraps, and no divisor is zero. -/
def Exact : WordExpr width → Prop
  | word _ => True
  | add left right => left.Exact ∧ right.Exact ∧ left.value + right.value < 2 ^ width
  | mul left right => left.Exact ∧ right.Exact ∧ left.value * right.value < 2 ^ width
  | div left right => left.Exact ∧ right.Exact ∧ right.value ≠ 0
  | mod left right => left.Exact ∧ right.Exact ∧ right.value ≠ 0

section Operations

variable {left right : WordExpr width}

@[simp] theorem eval_word (value : BitVec width) : (word value).eval = value := rfl

@[simp] theorem eval_add : (left + right).eval = left.eval + right.eval := rfl

@[simp] theorem eval_mul : (left * right).eval = left.eval * right.eval := rfl

@[simp] theorem eval_div : (left / right).eval = left.eval / right.eval := rfl

@[simp] theorem eval_mod : (left % right).eval = left.eval % right.eval := rfl

@[simp] theorem value_word (value : BitVec width) : (word value).value = value.toNat := rfl

@[simp] theorem value_add : (left + right).value = left.value + right.value := rfl

@[simp] theorem value_mul : (left * right).value = left.value * right.value := rfl

@[simp] theorem value_div : (left / right).value = left.value / right.value := rfl

@[simp] theorem value_mod : (left % right).value = left.value % right.value := rfl

@[simp] theorem exact_word (value : BitVec width) : (word value).Exact := trivial

theorem Exact.add
    (first : left.Exact)
    (second : right.Exact)
    (fits : left.value + right.value < 2 ^ width) :
    (left + right).Exact := ⟨first, second, fits⟩

theorem Exact.mul
    (first : left.Exact)
    (second : right.Exact)
    (fits : left.value * right.value < 2 ^ width) :
    (left * right).Exact := ⟨first, second, fits⟩

theorem Exact.div
    (first : left.Exact)
    (second : right.Exact)
    (nonzero : right.value ≠ 0) :
    (left / right).Exact := ⟨first, second, nonzero⟩

theorem Exact.mod
    (first : left.Exact)
    (second : right.Exact)
    (nonzero : right.value ≠ 0) :
    (left % right).Exact := ⟨first, second, nonzero⟩

end Operations

/-- The machine computes the value of an exact expression. -/
theorem Exact.toNat_eval
    {expr : WordExpr width}
    (exact : expr.Exact) :
    expr.eval.toNat = expr.value := by
  induction expr with
  | word value => rfl
  | add left right leftHypothesis rightHypothesis =>
      obtain ⟨first, second, fits⟩ := exact
      rw [eval, value, BitVec.toNat_add, leftHypothesis first, rightHypothesis second,
        Nat.mod_eq_of_lt fits]
  | mul left right leftHypothesis rightHypothesis =>
      obtain ⟨first, second, fits⟩ := exact
      rw [eval, value, BitVec.toNat_mul, leftHypothesis first, rightHypothesis second,
        Nat.mod_eq_of_lt fits]
  | div left right leftHypothesis rightHypothesis =>
      rw [eval, value, BitVec.toNat_udiv, leftHypothesis exact.1, rightHypothesis exact.2.1]
  | mod left right leftHypothesis rightHypothesis =>
      rw [eval, value, BitVec.toNat_umod, leftHypothesis exact.1, rightHypothesis exact.2.1]

/-- Exact expressions compute the words of a list. -/
def Computes (exprs : List (WordExpr width)) (words : List (BitVec width)) : Prop :=
  exprs.map eval = words ∧ ∀ expr ∈ exprs, expr.Exact

/-- The words are the values over the natural numbers. -/
theorem Computes.toNat
    {exprs : List (WordExpr width)}
    {words : List (BitVec width)}
    (computes : Computes exprs words) :
    words.map BitVec.toNat = exprs.map value := by
  rw [← computes.1, List.map_map]
  apply List.map_congr_left
  intro expr member
  exact (computes.2 expr member).toNat_eval

end WordExpr

end OpenGPU
