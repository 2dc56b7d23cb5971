import Mathlib.Data.Set.Lattice
import Mathlib.Order.CompletePartialOrder
import Mathlib.Tactic.Common

/-!
# Actions on a memory that keep to a set of places

An action reads and writes a memory and answers; `none` does not return. A local
action names the places that it looks at or changes on a given memory, and proves
that nothing else matters to it: on a memory that agrees there it does the same.
Local actions are closed under sequence and repetition.

What somebody else writes elsewhere neither changes the answer of a local action
nor is changed by it.
-/

namespace OpenGPU

/-- The results of one action on two memories: the same answer and the same
values at `places`, and the old values everywhere else. -/
inductive Alike {α β ρ : Type} (places : Set α) (mem other : α → β) :
    Option (ρ × (α → β)) → Option (ρ × (α → β)) → Prop
  | lost : Alike places mem other none none
  | returned {answer : ρ} {after otherAfter : α → β} :
      Set.EqOn otherAfter after places →
      Set.EqOn after mem placesᶜ →
      Set.EqOn otherAfter other placesᶜ →
      Alike places mem other (some (answer, after)) (some (answer, otherAfter))

/-- A partial action on a memory with the places that it keeps to. -/
structure LocalAction (α β ρ : Type) where
  run : (α → β) → Option (ρ × (α → β))
  places : (α → β) → Set α
  within : ∀ mem other, Set.EqOn other mem (places mem) →
    Alike (places mem) mem other (run mem) (run other)

namespace LocalAction

variable {α β ρ σ τ : Type}

/-- An action that looks at nothing. -/
def ofOption (answer : Option ρ) : LocalAction α β ρ where
  run mem := answer.map fun value => (value, mem)
  places _ := ∅
  within mem other _ := by
    cases answer with
    | none => exact .lost
    | some value => exact .returned (Set.eqOn_empty _ _) (fun _ _ => rfl) fun _ _ => rfl

/-- An action that looks at some places and changes nothing. -/
def look (places : Set α) (answer : (α → β) → Option ρ)
    (local' : ∀ mem other, Set.EqOn other mem places → answer other = answer mem) :
    LocalAction α β ρ where
  run mem := (answer mem).map fun value => (value, mem)
  places _ := places
  within mem other same := by
    rw [local' mem other same]
    cases answer mem with
    | none => exact .lost
    | some value => exact .returned same (fun _ _ => rfl) fun _ _ => rfl

/-- An action that changes some places and looks at nothing. -/
def assign (inside : α → Prop) [DecidablePred inside] (value : α → β) :
    LocalAction α β Unit where
  run mem := some ((), fun a => if inside a then value a else mem a)
  places _ := { a | inside a }
  within mem other _ := by
    refine .returned ?_ ?_ ?_
    · intro a member
      exact (if_pos member).trans (if_pos member).symm
    · exact fun a outside => if_neg outside
    · exact fun a outside => if_neg outside

/-- Two actions in sequence. The second keeps to its places on the memory that
the first leaves. -/
def andThen (first : LocalAction α β ρ) (next : ρ → LocalAction α β τ) :
    LocalAction α β τ where
  run mem := (first.run mem).bind fun result => (next result.1).run result.2
  places mem := first.places mem ∪
    match first.run mem with
    | some result => (next result.1).places result.2
    | none => ∅
  within mem other same := by
    have early := first.within mem other fun a inside => same (Or.inl inside)
    generalize first.run mem = result at early same ⊢
    generalize first.run other = otherResult at early ⊢
    cases early with
    | lost => exact .lost
    | @returned answer after otherAfter agree kept otherKept =>
        simp only at same
        simp only [Option.bind_some]
        have meet : Set.EqOn otherAfter after ((next answer).places after) := by
          intro a inside
          by_cases known : a ∈ first.places mem
          · exact agree known
          · rw [otherKept known, kept known]
            exact same (Or.inr inside)
        have late := (next answer).within after otherAfter meet
        generalize (next answer).run after = final at late ⊢
        generalize (next answer).run otherAfter = otherFinal at late ⊢
        cases late with
        | lost => exact .lost
        | returned lateAgree lateKept lateOtherKept =>
            refine .returned ?_ ?_ ?_
            · intro a inside
              by_cases known : a ∈ (next answer).places after
              · exact lateAgree known
              · rw [lateOtherKept known, lateKept known]
                exact agree (inside.resolve_right known)
            · intro a outside
              rw [lateKept fun inside => outside (Or.inr inside)]
              exact kept fun inside => outside (Or.inl inside)
            · intro a outside
              rw [lateOtherKept fun inside => outside (Or.inr inside)]
              exact otherKept fun inside => outside (Or.inl inside)

instance : Monad (LocalAction α β) where
  pure value := ofOption (some value)
  bind := andThen

@[simp] theorem run_pure
    (value : ρ)
    (mem : α → β) :
    (pure value : LocalAction α β ρ).run mem = some (value, mem) := rfl

@[simp] theorem run_ofOption
    (answer : Option ρ)
    (mem : α → β) :
    (ofOption answer : LocalAction α β ρ).run mem = answer.map fun value => (value, mem) := rfl

@[simp] theorem run_look
    (places : Set α)
    (answer : (α → β) → Option ρ)
    (local' : ∀ mem other, Set.EqOn other mem places → answer other = answer mem)
    (mem : α → β) :
    (look places answer local').run mem = (answer mem).map fun value => (value, mem) := rfl

@[simp] theorem run_assign
    (inside : α → Prop)
    [DecidablePred inside]
    (value : α → β)
    (mem : α → β) :
    (assign inside value).run mem = some ((), fun a => if inside a then value a else mem a) := rfl

@[simp] theorem run_bind
    (first : LocalAction α β ρ)
    (next : ρ → LocalAction α β τ)
    (mem : α → β) :
    (first >>= next).run mem =
      (first.run mem).bind fun result => (next result.1).run result.2 := rfl

/-- What two actions in sequence have done. -/
theorem run_bind_eq_some
    {first : LocalAction α β ρ}
    {next : ρ → LocalAction α β τ}
    {mem : α → β}
    {result : τ × (α → β)}
    (returned : (first >>= next).run mem = some result) :
    ∃ answer after, first.run mem = some (answer, after) ∧
      (next answer).run after = some result := by
  obtain ⟨⟨answer, after⟩, early, late⟩ := Option.bind_eq_some_iff.mp returned
  exact ⟨answer, after, early, late⟩

/-- What follows an action without a look at the memory adds no place. -/
theorem places_bind_subset
    {first : LocalAction α β ρ}
    {next : ρ → LocalAction α β τ}
    (blind : ∀ answer mem, (next answer).places mem = ∅)
    (mem : α → β) :
    (first >>= next).places mem ⊆ first.places mem := by
  rintro a (inside | inside)
  · exact inside
  · split at inside
    · rw [blind] at inside
      exact inside.elim
    · exact inside.elim

/-! ## Repetition -/

/-- Repeat a round until it leaves the loop with an answer, at most `limit`
times. -/
def loop (round : σ → LocalAction α β (ρ ⊕ σ)) (last : σ → ρ) :
    Nat → σ → LocalAction α β ρ
  | 0, state => pure (last state)
  | limit + 1, state => do
      match ← round state with
      | .inl answer => pure answer
      | .inr state => loop round last limit state

/-- A property of states and memories that every round keeps holds of the last
state when the loop leaves with an answer that shows it. -/
theorem loop_induct
    (goes : σ → (α → β) → Prop)
    (ends : ρ → (α → β) → Prop)
    {round : σ → LocalAction α β (ρ ⊕ σ)}
    {last : σ → ρ}
    (leaves : ∀ state mem answer after, goes state mem →
      (round state).run mem = some (.inl answer, after) → ends answer after)
    (continues : ∀ state mem next after, goes state mem →
      (round state).run mem = some (.inr next, after) → goes next after)
    (stops : ∀ state mem, goes state mem → ends (last state) mem)
    {limit : Nat}
    {state : σ}
    {mem : α → β}
    {answer : ρ}
    {after : α → β}
    (start : goes state mem)
    (returned : (loop round last limit state).run mem = some (answer, after)) :
    ends answer after := by
  induction limit generalizing state mem with
  | zero =>
      cases returned
      exact stops state _ start
  | succ limit inductionHypothesis =>
      obtain ⟨result, middle, rounded, rest⟩ := run_bind_eq_some returned
      cases result with
      | inl early =>
          cases rest
          exact leaves state mem _ _ start rounded
      | inr next =>
          exact inductionHypothesis (continues state mem next middle start rounded) rest

/-- A loop whose rounds are all defined is defined. -/
theorem loop_isSome
    (goes : σ → (α → β) → Prop)
    {round : σ → LocalAction α β (ρ ⊕ σ)}
    (last : σ → ρ)
    (defined : ∀ state mem, goes state mem → ((round state).run mem).isSome = true)
    (continues : ∀ state mem next after, goes state mem →
      (round state).run mem = some (.inr next, after) → goes next after)
    (limit : Nat)
    {state : σ}
    {mem : α → β}
    (start : goes state mem) :
    ((loop round last limit state).run mem).isSome = true := by
  induction limit generalizing state mem with
  | zero => rfl
  | succ limit inductionHypothesis =>
      obtain ⟨⟨result, after⟩, rounded⟩ := Option.isSome_iff_exists.mp (defined state mem start)
      rw [loop, run_bind, rounded]
      cases result with
      | inl answer => rfl
      | inr next => exact inductionHypothesis (continues state mem next after start rounded)

/-- A loop that runs at least once ends with the answer of a round or with the last
answer for a state that a round has gone on with. -/
theorem loop_ends
    (ends : ρ → (α → β) → Prop)
    {round : σ → LocalAction α β (ρ ⊕ σ)}
    {last : σ → ρ}
    (leaves : ∀ state mem answer after,
      (round state).run mem = some (.inl answer, after) → ends answer after)
    (continues : ∀ state mem next after,
      (round state).run mem = some (.inr next, after) → ends (last next) after)
    {limit : Nat}
    {state : σ}
    {mem : α → β}
    {answer : ρ}
    {after : α → β}
    (returned : (loop round last (limit + 1) state).run mem = some (answer, after)) :
    ends answer after := by
  obtain ⟨result, middle, rounded, rest⟩ := run_bind_eq_some returned
  cases result with
  | inl early =>
      cases rest
      exact leaves state mem _ _ rounded
  | inr next =>
      exact loop_induct (fun state mem => ends (last state) mem) ends
        (fun state mem answer after _ ran => leaves state mem answer after ran)
        (fun state mem next after _ ran => continues state mem next after ran)
        (fun _ _ so => so) (continues state mem next middle rounded) rest

/-- A property that every part of a fold keeps holds after the fold. -/
theorem foldlM_induct
    {ι : Type}
    (goes : σ → (α → β) → Prop)
    {part : σ → ι → LocalAction α β σ}
    (keeps : ∀ state item mem next after, goes state mem →
      (part state item).run mem = some (next, after) → goes next after)
    {items : List ι}
    {state last : σ}
    {mem after : α → β}
    (start : goes state mem)
    (returned : (items.foldlM part state).run mem = some (last, after)) :
    goes last after := by
  induction items generalizing state mem with
  | nil =>
      cases returned
      exact start
  | cons item items inductionHypothesis =>
      rw [List.foldlM_cons] at returned
      obtain ⟨next, middle, ran, rest⟩ := run_bind_eq_some returned
      exact inductionHypothesis (keeps state item mem next middle start ran) rest

/-! ## Actions that return -/

/-- An action returns on a memory. -/
def Returns (act : LocalAction α β ρ) (mem : α → β) : Prop :=
  ∃ answer after, act.run mem = some (answer, after)

theorem returns_pure (value : ρ) (mem : α → β) : (pure value : LocalAction α β ρ).Returns mem :=
  ⟨value, mem, rfl⟩

/-- A sequence returns if its second part does on what the first part leaves. -/
theorem Returns.bind
    {first : LocalAction α β ρ}
    {next : ρ → LocalAction α β τ}
    {mem : α → β}
    (early : first.Returns mem)
    (late : ∀ answer after, first.run mem = some (answer, after) → (next answer).Returns after) :
    (first >>= next).Returns mem := by
  obtain ⟨answer, after, ran⟩ := early
  obtain ⟨last, final, returned⟩ := late answer after ran
  refine ⟨last, final, ?_⟩
  rw [run_bind, ran]
  exact returned

/-- A fold returns if all its parts do from where they start. -/
theorem returns_foldlM
    {ι : Type}
    (goes : σ → Prop)
    {part : σ → ι → LocalAction α β σ}
    {items : List ι}
    (returns : ∀ item ∈ items, ∀ state mem, goes state → (part state item).Returns mem)
    (keeps : ∀ state item mem next after, goes state →
      (part state item).run mem = some (next, after) → goes next)
    {state : σ}
    (start : goes state)
    (mem : α → β) :
    (items.foldlM part state).Returns mem := by
  induction items generalizing state mem with
  | nil => exact returns_pure state mem
  | cons item items inductionHypothesis =>
      rw [List.foldlM_cons]
      refine (returns item List.mem_cons_self state mem start).bind fun next after ran => ?_
      exact inductionHypothesis (fun other member => returns other (List.mem_cons_of_mem _ member))
        (keeps state item mem next after start ran) after

/-- A round that goes on leaves the rest of the loop. -/
theorem run_loop_succ
    {round : σ → LocalAction α β (ρ ⊕ σ)}
    (last : σ → ρ)
    {state next : σ}
    {mem after : α → β}
    (rounded : (round state).run mem = some (.inr next, after))
    (limit : Nat) :
    (loop round last (limit + 1) state).run mem = (loop round last limit next).run after := by
  rw [loop, run_bind, rounded]
  rfl

/-- A round with an answer ends the loop. -/
theorem run_loop_answer
    {round : σ → LocalAction α β (ρ ⊕ σ)}
    (last : σ → ρ)
    {state : σ}
    {answer : ρ}
    {mem after : α → β}
    (rounded : (round state).run mem = some (.inl answer, after))
    (limit : Nat) :
    (loop round last (limit + 1) state).run mem = some (answer, after) := by
  rw [loop, run_bind, rounded]
  rfl

/-- A loop whose rounds come back to one state never leaves it. -/
theorem loop_of_fixed
    {round : σ → LocalAction α β (ρ ⊕ σ)}
    (last : σ → ρ)
    {state : σ}
    {mem : α → β}
    (fixed : (round state).run mem = some (.inr state, mem))
    (limit : Nat) :
    (loop round last limit state).run mem = some (last state, mem) := by
  induction limit with
  | zero => rfl
  | succ limit inductionHypothesis =>
      rw [run_loop_succ last fixed]
      exact inductionHypothesis

/-! ## Looking only -/

/-- On a given memory an action changes nothing and looks only at some places. -/
structure Looks (within : Set α) (act : LocalAction α β ρ) (mem : α → β) : Prop where
  places : act.places mem ⊆ within
  kept : ∀ answer after, act.run mem = some (answer, after) → after = mem

section Looks

variable {within : Set α} {mem : α → β}

theorem Looks.mono
    {wider : Set α}
    {act : LocalAction α β ρ}
    (looks : Looks within act mem)
    (subset : within ⊆ wider) :
    Looks wider act mem := ⟨looks.places.trans subset, looks.kept⟩

theorem looks_ofOption (answer : Option ρ) : Looks within (ofOption answer) mem where
  places := Set.empty_subset _
  kept value after returned := by
    rw [run_ofOption] at returned
    obtain ⟨_, _, same⟩ := Option.map_eq_some_iff.mp returned
    cases same
    rfl

theorem looks_look
    {places : Set α}
    {answer : (α → β) → Option ρ}
    {local' : ∀ mem other, Set.EqOn other mem places → answer other = answer mem}
    (inside : places ⊆ within) :
    Looks within (look places answer local') mem where
  places := inside
  kept value after returned := by
    rw [run_look] at returned
    obtain ⟨_, _, same⟩ := Option.map_eq_some_iff.mp returned
    cases same
    rfl

theorem Looks.bind
    {first : LocalAction α β ρ}
    {next : ρ → LocalAction α β τ}
    (early : Looks within first mem)
    (late : ∀ answer, first.run mem = some (answer, mem) → Looks within (next answer) mem) :
    Looks within (first >>= next) mem where
  places := by
    rintro a (inside | inside)
    · exact early.places inside
    · split at inside
      next result ran =>
        obtain ⟨answer, after⟩ := result
        obtain rfl := early.kept answer after ran
        exact (late answer ran).places inside
      next => exact inside.elim
  kept answer after returned := by
    obtain ⟨value, middle, ran, rest⟩ := run_bind_eq_some returned
    obtain rfl := early.kept value middle ran
    exact (late value ran).kept answer after rest

/-- A loop only looks if every state that it passes through does. -/
theorem looks_loop
    (goes : σ → Prop)
    {round : σ → LocalAction α β (ρ ⊕ σ)}
    {last : σ → ρ}
    (looks : ∀ state, goes state → Looks within (round state) mem)
    (continues : ∀ state next, goes state →
      (round state).run mem = some (.inr next, mem) → goes next)
    {state : σ}
    (start : goes state)
    (limit : Nat) :
    Looks within (loop round last limit state) mem := by
  induction limit generalizing state with
  | zero => exact looks_ofOption _
  | succ limit inductionHypothesis =>
      refine (looks state start).bind fun result ran => ?_
      cases result with
      | inl answer => exact looks_ofOption _
      | inr next => exact inductionHypothesis (continues state next start ran)

/-- A fold whose parts have nothing to do. -/
theorem looks_foldlM
    {ι : Type}
    {part : σ → ι → LocalAction α β σ}
    {state : σ}
    {items : List ι}
    (idle : ∀ item ∈ items, part state item = pure state) :
    Looks within (items.foldlM part state) mem ∧
      (items.foldlM part state).run mem = some (state, mem) := by
  induction items with
  | nil => exact ⟨looks_ofOption _, rfl⟩
  | cons item items inductionHypothesis =>
      obtain ⟨looks, ran⟩ := inductionHypothesis fun other member =>
        idle other (List.mem_cons_of_mem _ member)
      rw [List.foldlM_cons, idle item List.mem_cons_self]
      refine ⟨(looks_ofOption _).bind fun answer returned => ?_, ran⟩
      cases returned
      exact looks

end Looks

/-! ## The frame -/

/-- The two results of an action on memories that differ only at `touched`: the
same answer, the memories still differ only there, and nothing has changed
there. -/
inductive Framed (touched : Set α) (mem other : α → β) :
    Option (ρ × (α → β)) → Option (ρ × (α → β)) → Prop
  | lost : Framed touched mem other none none
  | returned {answer : ρ} {after otherAfter : α → β} :
      Set.EqOn otherAfter after touchedᶜ →
      Set.EqOn after mem touched →
      Set.EqOn otherAfter other touched →
      Framed touched mem other (some (answer, after)) (some (answer, otherAfter))

/-- An action does the same on a memory that differs only where it does not
look. -/
theorem framed
    (act : LocalAction α β ρ)
    {touched : Set α}
    {mem other : α → β}
    (elsewhere : Disjoint touched (act.places mem))
    (same : Set.EqOn other mem touchedᶜ) :
    Framed touched mem other (act.run mem) (act.run other) := by
  have alike := act.within mem other fun a inside =>
    same fun here => Set.disjoint_left.mp elsewhere here inside
  generalize act.run mem = result at alike ⊢
  generalize act.run other = otherResult at alike ⊢
  cases alike with
  | lost => exact .lost
  | returned agree kept otherKept =>
      refine .returned ?_ ?_ ?_
      · intro a outside
        by_cases inside : a ∈ act.places mem
        · exact agree inside
        · rw [otherKept inside, kept inside]
          exact same outside
      · exact fun a here => kept (Set.disjoint_left.mp elsewhere here)
      · exact fun a here => otherKept (Set.disjoint_left.mp elsewhere here)

end LocalAction

end OpenGPU
