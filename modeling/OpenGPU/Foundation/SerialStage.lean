import Mathlib.Data.List.Basic

/-!
# A stage that serves lanes one after another

A machine asks for every active lane in turn, waits one step for the answer and
moves on; an inactive lane takes one step. A request may abort. What the stage
does to the data is the effects of the active lanes in order, and it is done
within two steps per lane.
-/

namespace OpenGPU

section SerialStage

variable {State Data : Type*}

/-- Steps while the machine is busy: `none` when the fuel runs out, `some none`
when a step aborts. -/
def complete (step : State → Option State) (busy : State → Bool) :
    Nat → State → Option (Option State)
  | 0, s => if busy s then none else some (some s)
  | fuel + 1, s =>
      if busy s then
        match step s with
        | some next => complete step busy fuel next
        | none => some none
      else some (some s)

theorem complete_of_idle
    {step : State → Option State}
    {busy : State → Bool}
    {s : State}
    (fuel : Nat)
    (idle : busy s = false) :
    complete step busy fuel s = some (some s) := by
  cases fuel with
  | zero => rw [complete, idle, if_neg Bool.false_ne_true]
  | succ fuel => rw [complete, idle, if_neg Bool.false_ne_true]

theorem complete_of_step
    {step : State → Option State}
    {busy : State → Bool}
    {s next : State}
    (fuel : Nat)
    (working : busy s = true)
    (steps : step s = some next) :
    complete step busy (fuel + 1) s = complete step busy fuel next := by
  rw [complete, if_pos working, steps]

theorem complete_of_abort
    {step : State → Option State}
    {busy : State → Bool}
    {s : State}
    (fuel : Nat)
    (working : busy s = true)
    (aborts : step s = none) :
    complete step busy (fuel + 1) s = some none := by
  rw [complete, if_pos working, aborts]

/-- The next lane, or the end of the stage. -/
def NextLane (count : Nat) (asking : Nat → Data → State → Prop) (finished : Data → State → Prop)
    (t : Nat) (d : Data) (s : State) : Prop :=
  if t + 1 = count then finished d s else asking (t + 1) d s

/-- What one lane does to the data. -/
def laneEffect (active : Nat → Bool) (request : Nat → Data → Option Data)
    (respond : Nat → Data → Data) (d : Data) (t : Nat) : Option Data :=
  if active t then (request t d).map (respond t) else some d

theorem foldlM_congr_mem
    {Element : Type*}
    {step step' : Data → Element → Option Data}
    {elements : List Element}
    (d : Data)
    (same : ∀ d element, element ∈ elements → step d element = step' d element) :
    elements.foldlM step d = elements.foldlM step' d := by
  induction elements generalizing d with
  | nil => rfl
  | cons element elements inductionHypothesis =>
      rw [List.foldlM_cons, List.foldlM_cons, same d element List.mem_cons_self]
      refine congrArg _ (funext fun next => ?_)
      exact inductionHypothesis next fun d later member =>
        same d later (List.mem_cons_of_mem element member)

/-- A loop whose steps fail on some elements and cannot fail on the others. -/
theorem foldlM_guarded
    {Element : Type*}
    {step : Data → Element → Option Data}
    {fails : Element → Bool}
    {advance : Data → Element → Data}
    (elements : List Element)
    (d : Data)
    (guarded : ∀ d element, step d element =
      if fails element then none else some (advance d element)) :
    elements.foldlM step d =
      if elements.any fails then none else some (elements.foldl advance d) := by
  induction elements generalizing d with
  | nil => rfl
  | cons element elements inductionHypothesis =>
      rw [List.foldlM_cons, guarded, List.any_cons]
      cases fails element with
      | true => rfl
      | false => exact inductionHypothesis (advance d element)

/-- The steps of the stage. A predicate says which states ask for a lane, wait
for its answer or have finished, with the data they hold. -/
structure SerialStage (count : Nat) (active : Nat → Bool) (step : State → Option State)
    (busy : State → Bool) (asking answering : Nat → Data → State → Prop)
    (finished : Data → State → Prop) (request : Nat → Data → Option Data)
    (respond : Nat → Data → Data) : Prop where
  asking_busy : ∀ t d s, asking t d s → busy s = true
  answering_busy : ∀ t d s, answering t d s → busy s = true
  finished_idle : ∀ d s, finished d s → busy s = false
  skip : ∀ t d s, t < count → active t = false → asking t d s →
    ∃ next, step s = some next ∧ NextLane count asking finished t d next
  abort : ∀ t d s, t < count → active t = true → asking t d s → request t d = none →
    step s = none
  ask : ∀ t d s d', t < count → active t = true → asking t d s → request t d = some d' →
    ∃ next, step s = some next ∧ answering t d' next
  answer : ∀ t d s, t < count → active t = true → answering t d s →
    ∃ next, step s = some next ∧ NextLane count asking finished t (respond t d) next

variable {count : Nat} {active : Nat → Bool} {step : State → Option State} {busy : State → Bool}
  {asking answering : Nat → Data → State → Prop} {finished : Data → State → Prop}
  {request : Nat → Data → Option Data} {respond : Nat → Data → Data}

/-- A run ends as the data say. -/
def EndsWith (step : State → Option State) (busy : State → Bool) (finished : Data → State → Prop)
    (fuel : Nat) (s : State) : Option Data → Prop
  | none => complete step busy fuel s = some none
  | some d => ∃ final, complete step busy fuel s = some (some final) ∧ finished d final

/-- What can be seen of the last state. -/
theorem EndsWith.observe
    {View : Type*}
    {view : State → View}
    {shown : Data → View}
    {fuel : Nat}
    {s : State}
    {ending : Option Data}
    (ends : EndsWith step busy finished fuel s ending)
    (shows : ∀ d final, finished d final → view final = shown d) :
    (complete step busy fuel s).map (Option.map view) = some (ending.map shown) := by
  cases ending with
  | none => exact congrArg (Option.map (Option.map view)) ends
  | some d =>
      obtain ⟨final, completed, done⟩ := ends
      rw [completed, Option.map_some, Option.map_some, Option.map_some, shows d final done]

/-- One lane takes at most two steps, after which the run goes on from the next
lane. -/
theorem SerialStage.lane
    (stage : SerialStage count active step busy asking answering finished request respond)
    {t fuel : Nat}
    {d : Data}
    {s : State}
    (inStage : t < count)
    (asks : asking t d s)
    (rest : Data → Option Data)
    (continues : ∀ d next more, fuel ≤ more → NextLane count asking finished t d next →
      EndsWith step busy finished more next (rest d)) :
    EndsWith step busy finished (fuel + 2) s
      ((laneEffect active request respond d t).bind rest) := by
  have first : ∀ {next : State} {ending : Option Data}, step s = some next →
      EndsWith step busy finished (fuel + 1) next ending →
      EndsWith step busy finished (fuel + 2) s ending := by
    intro next ending steps
    cases ending <;>
      simp only [EndsWith, complete_of_step _ (stage.asking_busy t d s asks) steps, imp_self]
  unfold laneEffect
  cases now : active t with
  | false =>
      obtain ⟨next, steps, onward⟩ := stage.skip t d s inStage now asks
      exact first steps (continues d next (fuel + 1) (Nat.le_succ fuel) onward)
  | true =>
      cases asked : request t d with
      | none =>
          exact complete_of_abort _ (stage.asking_busy t d s asks)
            (stage.abort t d s inStage now asks asked)
      | some d' =>
          obtain ⟨waiting, steps, answering⟩ := stage.ask t d s d' inStage now asks asked
          obtain ⟨next, answers, onward⟩ := stage.answer t d' waiting inStage now answering
          refine first steps ?_
          have ending := continues (respond t d') next fuel (Nat.le_refl fuel) onward
          show EndsWith step busy finished (fuel + 1) waiting (rest (respond t d'))
          cases ended : rest (respond t d') <;> rw [ended] at ending <;>
            simpa only [EndsWith, complete_of_step _
              (stage.answering_busy t d' waiting answering) answers] using ending

/-- The lanes from `t` on end with their effects in order. -/
theorem SerialStage.endsWith_from
    (stage : SerialStage count active step busy asking answering finished request respond)
    {t lanes fuel : Nat}
    {d : Data}
    {s : State}
    (rest : t + (lanes + 1) = count)
    (enough : 2 * (lanes + 1) ≤ fuel)
    (asks : asking t d s) :
    EndsWith step busy finished fuel s
      ((List.range' t (lanes + 1)).foldlM (laneEffect active request respond) d) := by
  induction lanes generalizing t d s fuel with
  | zero =>
      obtain ⟨fuel, rfl⟩ := Nat.exists_eq_add_of_le enough
      rw [show List.range' t 1 = [t] from rfl, List.foldlM_cons,
        show 2 * (0 + 1) + fuel = fuel + 2 by omega]
      refine stage.lane (by omega) asks _ fun d next more _ onward => ?_
      have done : finished d next := (if_pos (by omega)).mp onward
      exact ⟨next, complete_of_idle _ (stage.finished_idle d next done), done⟩
  | succ lanes inductionHypothesis =>
      obtain ⟨fuel, rfl⟩ := Nat.exists_eq_add_of_le enough
      rw [List.range'_succ, List.foldlM_cons,
        show 2 * (lanes + 1 + 1) + fuel = 2 * (lanes + 1) + fuel + 2 by omega]
      refine stage.lane (by omega) asks _ fun d next more atLeast onward => ?_
      exact inductionHypothesis (by omega) (by omega) ((if_neg (by omega)).mp onward)

/-- The whole stage ends with the effects of the lanes in order. -/
theorem SerialStage.endsWith
    (stage : SerialStage count active step busy asking answering finished request respond)
    (positive : 0 < count)
    (d : Data)
    {fuel : Nat}
    {s : State}
    (enough : 2 * count ≤ fuel)
    (asks : asking 0 d s) :
    EndsWith step busy finished fuel s
      ((List.range count).foldlM (laneEffect active request respond) d) := by
  obtain ⟨lanes, rfl⟩ := Nat.exists_eq_succ_of_ne_zero (Nat.ne_of_gt positive)
  rw [List.range_eq_range']
  exact stage.endsWith_from (Nat.zero_add _) enough asks

end SerialStage

end OpenGPU
