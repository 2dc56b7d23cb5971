import Mathlib.Data.List.GetD
import Mathlib.Tactic.Common

/-!
# Lists laid out in an array

A record that is sent piece by piece is a list of words at a place of an array. A list
in pieces is laid out when its pieces are, one behind another, and sending a piece
changes only its own places.
-/

namespace OpenGPU

section WordLayout

variable {value : Type*} {words other : Nat → value} {base : Nat}

/-- The words from `base` on are those of a list. -/
def WordsAt (words : Nat → value) : Nat → List value → Prop
  | _, [] => True
  | base, v :: rest => words base = v ∧ WordsAt words (base + 1) rest

@[simp] theorem wordsAt_nil : WordsAt words base [] := trivial

@[simp] theorem wordsAt_cons
    {v : value}
    {rest : List value} :
    WordsAt words base (v :: rest) ↔ words base = v ∧ WordsAt words (base + 1) rest :=
  Iff.rfl

@[simp] theorem wordsAt_append
    {first second : List value} :
    WordsAt words base (first ++ second) ↔
      WordsAt words base first ∧ WordsAt words (base + first.length) second := by
  induction first generalizing base with
  | nil => simp
  | cons v first inductionHypothesis =>
      simp [inductionHypothesis, and_assoc, Nat.add_assoc, Nat.add_comm 1]

/-- A list is laid out when every element is in its place. -/
theorem wordsAt_iff
    {list : List value} :
    WordsAt words base list ↔ ∀ k (inList : k < list.length), words (base + k) = list[k] := by
  induction list generalizing base with
  | nil => simp
  | cons v rest inductionHypothesis =>
      rw [wordsAt_cons, inductionHypothesis]
      constructor
      · rintro ⟨here, later⟩ (_ | k) inList
        · exact here
        · have place := later k (Nat.lt_of_succ_lt_succ inList)
          rwa [Nat.add_assoc, Nat.add_comm 1] at place
      · intro all
        refine ⟨all 0 (Nat.succ_pos _), fun k inList => ?_⟩
        rw [Nat.add_assoc, Nat.add_comm 1]
        exact all (k + 1) (Nat.succ_lt_succ inList)

/-- The values of a function. -/
@[simp] theorem wordsAt_map_range
    {count : Nat}
    {f : Nat → value} :
    WordsAt words base ((List.range count).map f) ↔
      ∀ k, k < count → words (base + k) = f k := by
  simp [wordsAt_iff]

/-- Records of one size, one behind another. -/
theorem wordsAt_flatMap_range
    {record : Nat → List value}
    {size : Nat}
    (sized : ∀ k, (record k).length = size)
    {count : Nat} :
    WordsAt words base ((List.range count).flatMap record) ↔
      ∀ k, k < count → WordsAt words (base + k * size) (record k) := by
  induction count with
  | zero => simp
  | succ count inductionHypothesis =>
      have whole : ((List.range count).flatMap record).length = count * size := by
        simp [List.length_flatMap, sized, List.map_const']
      rw [List.range_succ, List.flatMap_append, List.flatMap_singleton, wordsAt_append,
        inductionHypothesis, whole, Nat.forall_lt_succ_right]

/-- A layout depends on its own places only. -/
theorem WordsAt.congr
    {list : List value}
    (laid : WordsAt words base list)
    (same : ∀ k, base ≤ k → k < base + list.length → other k = words k) :
    WordsAt other base list := by
  rw [wordsAt_iff] at laid ⊢
  intro k inList
  rw [same _ (Nat.le_add_right base k) (Nat.add_lt_add_left inList base)]
  exact laid k inList

/-- Arrays in which the same list is laid out agree on its places. -/
theorem WordsAt.unique
    {list : List value}
    (first : WordsAt words base list)
    (second : WordsAt other base list)
    {k : Nat}
    (least : base ≤ k)
    (below : k < base + list.length) :
    words k = other k := by
  obtain ⟨place, rfl⟩ := Nat.exists_eq_add_of_le least
  have inList := Nat.lt_of_add_lt_add_left below
  exact (wordsAt_iff.mp first place inList).trans (wordsAt_iff.mp second place inList).symm

/-- The array after a list has been sent to `base`. -/
def sendWords (words : Nat → value) (base : Nat) (list : List value) : Nat → value :=
  fun k => if base ≤ k then list.getD (k - base) (words k) else words k

/-- What has been sent is there. -/
theorem wordsAt_sendWords
    (words : Nat → value)
    (base : Nat)
    (list : List value) :
    WordsAt (sendWords words base list) base list := by
  rw [wordsAt_iff]
  intro k inList
  rw [sendWords, if_pos (Nat.le_add_right base k), Nat.add_sub_cancel_left,
    List.getD_eq_getElem _ _ inList]

/-- Everything else stays. -/
theorem sendWords_of_outside
    {list : List value}
    {k : Nat}
    (outside : k < base ∨ base + list.length ≤ k) :
    sendWords words base list k = words k := by
  unfold sendWords
  split_ifs with behind
  · exact List.getD_eq_default _ _ (by omega)
  · rfl

/-- A list that was sent elsewhere stays. -/
theorem WordsAt.sendWords
    {list : List value}
    (laid : WordsAt words base list)
    {place : Nat}
    {sent : List value}
    (apart : base + list.length ≤ place ∨ place + sent.length ≤ base) :
    WordsAt (sendWords words place sent) base list := by
  apply laid.congr
  intro k least below
  apply sendWords_of_outside
  omega

end WordLayout

end OpenGPU
