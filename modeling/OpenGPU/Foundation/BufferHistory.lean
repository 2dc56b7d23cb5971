import Mathlib.Data.List.Basic
import Mathlib.Tactic.Common

/-!
# Stores of disjoint buffers

What a store of buffers is for, told by its history alone: which buffers are
live, and which value was last written at an address since the buffer there was
allocated. Histories list the newest event first. Addresses are natural numbers
and values arbitrary; a buffer is named by its base.
-/

namespace OpenGPU

/-- A successful operation on a store of buffers. -/
inductive BufferEvent (β : Type)
  | allocated (base size : Nat)
  | freed (base : Nat)
  | wrote (base : Nat) (data : List β)

namespace BufferHistory

variable {β : Type}

/-- The size of the live buffer at a base, if there is one. -/
def sizeAt : List (BufferEvent β) → Nat → Option Nat
  | [], _ => none
  | .allocated base size :: earlier, b => if b = base then some size else sizeAt earlier b
  | .freed base :: earlier, b => if b = base then none else sizeAt earlier b
  | .wrote _ _ :: earlier, b => sizeAt earlier b

/-- The last value written at an address since it was last allocated, or the
given value if there is none. -/
def valueAt (zero : β) : List (BufferEvent β) → Nat → β
  | [], _ => zero
  | .allocated base size :: earlier, a =>
      if base ≤ a ∧ a < base + size then zero else valueAt zero earlier a
  | .freed _ :: earlier, a => valueAt zero earlier a
  | .wrote base data :: earlier, a =>
      if base ≤ a ∧ a < base + data.length then data.getD (a - base) zero
      else valueAt zero earlier a

/-- The range of `length` addresses from `a` on is part of the buffer of `size`
addresses at `base`. -/
def Within (base size a length : Nat) : Prop := base ≤ a ∧ a + length ≤ base + size

/-- A nonempty range inside one live buffer. -/
def Inside (history : List (BufferEvent β)) (a length : Nat) : Prop :=
  0 < length ∧ ∃ base size, sizeAt history base = some size ∧ Within base size a length

/-- A range that touches no live buffer. -/
def Vacant (history : List (BufferEvent β)) (base size : Nat) : Prop :=
  ∀ other otherSize, sizeAt history other = some otherSize →
    base + size ≤ other ∨ other + otherSize ≤ base

/-- What a store may do next: allocate vacant space, free a live buffer, write
inside one. -/
def Permitted (history : List (BufferEvent β)) : BufferEvent β → Prop
  | .allocated base size => 0 < size ∧ Vacant history base size
  | .freed base => (sizeAt history base).isSome = true
  | .wrote base data => Inside history base data.length

/-- Histories of a store of disjoint buffers. -/
inductive Lawful : List (BufferEvent β) → Prop
  | nil : Lawful []
  | cons {event : BufferEvent β} {earlier : List (BufferEvent β)} :
      Lawful earlier → Permitted earlier event → Lawful (event :: earlier)

/-- A freed buffer is gone and no other. -/
theorem sizeAt_freed_eq_some
    {earlier : List (BufferEvent β)}
    {base b size : Nat}
    (live : sizeAt (.freed base :: earlier) b = some size) :
    b ≠ base ∧ sizeAt earlier b = some size := by
  rw [sizeAt] at live
  split_ifs at live with same
  exact ⟨same, live⟩

/-- Live buffers are not empty, and no two of them overlap. -/
structure Disjoint (history : List (BufferEvent β)) : Prop where
  positive : ∀ base size, sizeAt history base = some size → 0 < size
  apart : ∀ left leftSize right rightSize,
    sizeAt history left = some leftSize → sizeAt history right = some rightSize →
    left ≠ right → left + leftSize ≤ right ∨ right + rightSize ≤ left

theorem Lawful.disjoint
    {history : List (BufferEvent β)}
    (lawful : Lawful history) :
    Disjoint history := by
  induction lawful with
  | nil =>
      constructor
      · intro base size live
        cases live
      · intro left leftSize right rightSize live
        cases live
  | @cons event earlier _ permitted inductionHypothesis =>
      cases event with
      | allocated newBase newSize =>
          obtain ⟨nonempty, vacant⟩ := permitted
          constructor
          · intro base size live
            rw [sizeAt] at live
            split_ifs at live with isNew
            · cases live
              exact nonempty
            · exact inductionHypothesis.positive base size live
          · intro left leftSize right rightSize leftLive rightLive distinct
            rw [sizeAt] at leftLive rightLive
            split_ifs at leftLive rightLive with leftNew rightNew rightNew
            · exact absurd (leftNew.trans rightNew.symm) distinct
            · cases leftLive
              subst leftNew
              exact vacant right rightSize rightLive
            · cases rightLive
              subst rightNew
              exact (vacant left leftSize leftLive).symm
            · exact inductionHypothesis.apart left leftSize right rightSize leftLive
                rightLive distinct
      | freed gone =>
          constructor
          · intro base size live
            exact inductionHypothesis.positive base size (sizeAt_freed_eq_some live).2
          · intro left leftSize right rightSize leftLive rightLive distinct
            exact inductionHypothesis.apart left leftSize right rightSize
              (sizeAt_freed_eq_some leftLive).2 (sizeAt_freed_eq_some rightLive).2 distinct
      | wrote a data => exact ⟨inductionHypothesis.positive, inductionHypothesis.apart⟩

/-- A live buffer that does not contain a range inside a live buffer is disjoint
from it. -/
theorem Disjoint.outside
    {history : List (BufferEvent β)}
    (disjoint : Disjoint history)
    {base size a length : Nat}
    (live : sizeAt history base = some size)
    (inside : Inside history a length)
    (notHere : ¬Within base size a length) :
    base + size ≤ a ∨ a + length ≤ base := by
  obtain ⟨nonempty, owner, ownerSize, ownerLive, within⟩ := inside
  have distinct : base ≠ owner := by
    rintro rfl
    rw [live] at ownerLive
    cases ownerLive
    exact notHere within
  unfold Within at within
  rcases disjoint.apart base size owner ownerSize live ownerLive distinct with
    before | after <;> omega

end BufferHistory

end OpenGPU
