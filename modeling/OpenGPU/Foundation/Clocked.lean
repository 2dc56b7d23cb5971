import Mathlib.Data.List.Basic
import Mathlib.Data.Nat.Find

/-!
# Clocked runs

A synchronous machine takes one step per clock edge from a stream of inputs.
`stateAt` is its state before each edge and `logAt` what the edges so far have
emitted. Facts about a whole run come from facts about one edge.
-/

namespace OpenGPU

section Clocked

variable {State Input Event : Type}

/-- The state before edge `time`. -/
def stateAt (step : State → Input → State) (start : State) (inputs : Nat → Input) :
    Nat → State
  | 0 => start
  | time + 1 => step (stateAt step start inputs time) (inputs time)

/-- The events of the edges before `time`, in order. -/
def logAt (step : State → Input → State) (emit : State → Input → List Event)
    (start : State) (inputs : Nat → Input) : Nat → List Event
  | 0 => []
  | time + 1 =>
      logAt step emit start inputs time ++
        emit (stateAt step start inputs time) (inputs time)

@[simp] theorem stateAt_zero
    (step : State → Input → State)
    (start : State)
    (inputs : Nat → Input) :
    stateAt step start inputs 0 = start := rfl

theorem stateAt_succ
    (step : State → Input → State)
    (start : State)
    (inputs : Nat → Input)
    (time : Nat) :
    stateAt step start inputs (time + 1) =
      step (stateAt step start inputs time) (inputs time) := rfl

theorem logAt_succ
    (step : State → Input → State)
    (emit : State → Input → List Event)
    (start : State)
    (inputs : Nat → Input)
    (time : Nat) :
    logAt step emit start inputs (time + 1) =
      logAt step emit start inputs time ++
        emit (stateAt step start inputs time) (inputs time) := rfl

/-- What holds at the start and across every edge holds at all times. -/
theorem stateAt_invariant
    {step : State → Input → State}
    {start : State}
    {inputs : Nat → Input}
    (invariant : State → Prop)
    (initial : invariant start)
    (preserved : ∀ time state, invariant state → invariant (step state (inputs time)))
    (time : Nat) :
    invariant (stateAt step start inputs time) := by
  induction time with
  | zero => exact initial
  | succ time inductionHypothesis => exact preserved time _ inductionHypothesis

/-- The same for an invariant that also speaks about the log. -/
theorem logAt_invariant
    {step : State → Input → State}
    {emit : State → Input → List Event}
    {start : State}
    {inputs : Nat → Input}
    (invariant : List Event → State → Prop)
    (initial : invariant [] start)
    (preserved : ∀ time log state, invariant log state →
      invariant (log ++ emit state (inputs time)) (step state (inputs time)))
    (time : Nat) :
    invariant (logAt step emit start inputs time) (stateAt step start inputs time) := by
  induction time with
  | zero => exact initial
  | succ time inductionHypothesis => exact preserved time _ _ inductionHypothesis

/-- A run split at `early` continues from the state reached there. -/
theorem stateAt_add
    (step : State → Input → State)
    (start : State)
    (inputs : Nat → Input)
    (early late : Nat) :
    stateAt step start inputs (early + late) =
      stateAt step (stateAt step start inputs early)
        (fun time => inputs (early + time)) late := by
  induction late with
  | zero => rfl
  | succ late inductionHypothesis =>
      rw [← Nat.add_assoc, stateAt_succ, inductionHypothesis]
      rfl

/-- The log of a run split at `early`. -/
theorem logAt_add
    (step : State → Input → State)
    (emit : State → Input → List Event)
    (start : State)
    (inputs : Nat → Input)
    (early late : Nat) :
    logAt step emit start inputs (early + late) =
      logAt step emit start inputs early ++
        logAt step emit (stateAt step start inputs early)
          (fun time => inputs (early + time)) late := by
  induction late with
  | zero => exact (List.append_nil _).symm
  | succ late inductionHypothesis =>
      rw [← Nat.add_assoc, logAt_succ, inductionHypothesis, List.append_assoc, stateAt_add]
      rfl

/-- From `state` the machine shows `shown`, one observation before each edge, and
ends where `after` holds, whatever the admissible inputs are. -/
def Shows (step : State → Input → State) (observe : State → Event) (admissible : Input → Prop)
    (after : State → Prop) : List Event → State → Prop
  | [], state => after state
  | event :: shown, state =>
      observe state = event ∧
        ∀ input, admissible input → Shows step observe admissible after shown (step state input)

variable {step : State → Input → State} {observe : State → Event} {admissible : Input → Prop}
  {between after : State → Prop}

/-- What is shown up to a state where `between` holds, and from there on. -/
theorem Shows.append
    {first second : List Event}
    {state : State}
    (shows : Shows step observe admissible between first state)
    (continues : ∀ next, between next → Shows step observe admissible after second next) :
    Shows step observe admissible after (first ++ second) state := by
  induction first generalizing state with
  | nil => exact continues state shows
  | cons event first inductionHypothesis =>
      exact ⟨shows.1, fun input admitted => inductionHypothesis (shows.2 input admitted)⟩

/-- The log of the edge at the start and of those after it. -/
theorem logAt_observe_succ
    {shown : List Event}
    {state : State}
    {inputs : Nat → Input}
    {edges : Nat}
    (rest : logAt step (fun state _ => [observe state]) (step state (inputs 0))
        (fun time => inputs (1 + time)) edges = shown ∧
      after (stateAt step (step state (inputs 0)) (fun time => inputs (1 + time)) edges)) :
    logAt step (fun state _ => [observe state]) state inputs (edges + 1) =
        observe state :: shown ∧
      after (stateAt step state inputs (edges + 1)) := by
  rw [Nat.add_comm, logAt_add, stateAt_add]
  exact ⟨congrArg (observe state :: ·) rest.1, rest.2⟩

/-- The log of a run that shows `shown`. -/
theorem Shows.log
    {shown : List Event}
    {state : State}
    (shows : Shows step observe admissible after shown state)
    {inputs : Nat → Input}
    (admitted : ∀ edge, edge < shown.length → admissible (inputs edge)) :
    logAt step (fun state _ => [observe state]) state inputs shown.length = shown ∧
      after (stateAt step state inputs shown.length) := by
  induction shown generalizing state inputs with
  | nil => exact ⟨rfl, shows⟩
  | cons event shown inductionHypothesis =>
      have next := shows.2 (inputs 0) (admitted 0 (Nat.succ_pos _))
      rw [← shows.1]
      apply logAt_observe_succ
      apply inductionHypothesis next
      intro edge before
      exact admitted (1 + edge) (by rw [List.length_cons]; omega)

end Clocked

/-- What holds at `early` and no longer at `late` stops holding across one edge
in between. -/
theorem exists_first_fall
    (holds : Nat → Prop)
    {early late : Nat}
    (before : early ≤ late)
    (atEarly : holds early)
    (atLate : ¬holds late) :
    ∃ edge, early ≤ edge ∧ edge < late ∧
      (∀ time, early ≤ time → time ≤ edge → holds time) ∧ ¬holds (edge + 1) := by
  classical
  have fails : ∃ delay, ¬holds (early + delay) :=
    ⟨late - early, by rwa [Nat.add_sub_cancel' before]⟩
  have notAtOnce : Nat.find fails ≠ 0 := by
    intro atOnce
    exact Nat.find_spec fails (atOnce ▸ atEarly)
  obtain ⟨delay, found⟩ := Nat.exists_eq_succ_of_ne_zero notAtOnce
  have inTime : Nat.find fails ≤ late - early :=
    Nat.find_min' fails (by rwa [Nat.add_sub_cancel' before])
  refine ⟨early + delay, by omega, by omega, ?_, ?_⟩
  · intro time afterEarly beforeEdge
    have held := Nat.find_min fails (show time - early < Nat.find fails by omega)
    rwa [Nat.add_sub_cancel' afterEarly, not_not] at held
  · have least := Nat.find_spec fails
    rwa [found] at least

end OpenGPU
