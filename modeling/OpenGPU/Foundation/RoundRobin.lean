import OpenGPU.Foundation.CircularScan
import Mathlib.Tactic.Common

/-!
# Rotating dispatch

A dispatcher hands jobs to workers. It scans the workers from a pointer, gives
the job to the first one that is ready, and leaves the pointer behind it. Job
`n` goes to worker `n` modulo their number as long as every job is dispatched
while the worker whose turn it is can take it, and only then. Nobody who is ready
is passed over by the same worker twice.
-/

namespace OpenGPU

/-- The first `bound` edges of a dispatcher over `count` workers: the worker
chosen on each edge, the pointer before it, and who is ready then. -/
structure RotatingDispatch (count bound : Nat) (chosen : Nat → Option Nat)
    (pointer : Nat → Nat) (ready : Nat → Nat → Bool) : Prop where
  pointer_lt : ∀ time, time < bound → pointer time < count
  chooses : ∀ time, time < bound → ∀ worker, chosen time = some worker →
    circularFirst count (pointer time) (ready time) = some worker
  advances : ∀ time, time < bound → ∀ worker, chosen time = some worker →
    pointer (time + 1) = (worker + 1) % count
  waits : ∀ time, time < bound → chosen time = none → pointer (time + 1) = pointer time

/-- The jobs dispatched before `time`. -/
def dispatched (chosen : Nat → Option Nat) : Nat → Nat
  | 0 => 0
  | time + 1 => dispatched chosen time + (chosen time).isSome.toNat

/-- The worker whose turn it is can take the job of this edge. For the first
job that is worker zero, with no ready worker between the pointer and it; later
it is the worker that the pointer names. -/
def OnTurn (count jobs pointer : Nat) (ready : Nat → Bool) : Prop :=
  if jobs = 0 then
    ready 0 = true ∧
      (pointer = 0 ∨ ∀ worker, pointer ≤ worker → worker < count → ready worker = false)
  else ready pointer = true

/-- The scan finds worker zero exactly when it is ready and nobody from the
start on is. -/
theorem circularFirst_eq_zero_iff
    {count start : Nat}
    {ready : Nat → Bool}
    (inRange : start < count) :
    circularFirst count start ready = some 0 ↔
      ready 0 = true ∧
        (start = 0 ∨ ∀ worker, start ≤ worker → worker < count → ready worker = false) := by
  have split : circularOrder count start =
      ((List.range (count - start)).map fun offset => start + offset) ++ List.range start := by
    obtain ⟨rest, rfl⟩ : ∃ rest, count = rest + start := ⟨count - start, by omega⟩
    rw [circularOrder, Nat.add_sub_cancel, List.range_add, List.map_append, List.map_map]
    congr 1
    · apply List.map_congr_left
      intro offset bound
      rw [List.mem_range] at bound
      exact Nat.mod_eq_of_lt (by omega)
    · conv_rhs => rw [← List.map_id (List.range start)]
      apply List.map_congr_left
      intro worker bound
      rw [List.mem_range] at bound
      have wraps : start + (rest + worker) = worker + (rest + start) := by omega
      simp only [Function.comp_apply, id_eq]
      rw [wraps, Nat.add_mod_right, Nat.mod_eq_of_lt (by omega)]
  constructor
  · intro found
    refine ⟨circularFirst_ready found, ?_⟩
    by_contra others
    push Not at others
    obtain ⟨nonzero, worker, above, below, isReady⟩ := others
    rw [circularFirst, split, List.find?_append, Option.or_eq_some_iff] at found
    rcases found with early | ⟨nobody, _⟩
    · have member := List.mem_of_find?_eq_some early
      simp only [List.mem_map, List.mem_range] at member
      omega
    · rw [List.find?_eq_none] at nobody
      refine nobody worker ?_ (by simpa using isReady)
      simp only [List.mem_map, List.mem_range]
      exact ⟨worker - start, by omega, by omega⟩
  · rintro ⟨isReady, atStart | nobody⟩
    · subst atStart
      exact circularFirst_start inRange isReady
    · have positive : 0 < start := by
        refine Nat.pos_of_ne_zero fun zero => ?_
        rw [nobody 0 (by omega) (by omega)] at isReady
        exact Bool.noConfusion isReady
      rw [circularFirst, split, List.find?_append, Option.or_eq_some_iff]
      refine Or.inr ⟨?_, ?_⟩
      · rw [List.find?_eq_none]
        intro worker member
        simp only [List.mem_map, List.mem_range] at member
        rw [nobody worker (by omega) (by omega)]
        exact Bool.false_ne_true
      · obtain ⟨previous, rfl⟩ : ∃ previous, start = previous + 1 :=
          ⟨start - 1, by omega⟩
        rw [List.range_succ_eq_map, List.find?_cons_of_pos isReady]

/-- The scan finds its start exactly when the start is ready. -/
theorem circularFirst_eq_start_iff
    {count start : Nat}
    {ready : Nat → Bool}
    (inRange : start < count) :
    circularFirst count start ready = some start ↔ ready start = true :=
  ⟨circularFirst_ready, circularFirst_start inRange⟩

section RotatingDispatch

variable {count bound : Nat} {chosen : Nat → Option Nat} {pointer : Nat → Nat}
  {ready : Nat → Nat → Bool}

/-- Once every job so far went to the worker whose turn it was, the pointer
names the worker whose turn is next. -/
theorem RotatingDispatch.pointer_eq
    (dispatch : RotatingDispatch count bound chosen pointer ready)
    {time : Nat}
    (before : time ≤ bound)
    (inTurn : ∀ early, early < time → ∀ worker, chosen early = some worker →
      worker = dispatched chosen early % count) :
    dispatched chosen time = 0 ∨ pointer time = dispatched chosen time % count := by
  induction time with
  | zero => exact Or.inl rfl
  | succ time inductionHypothesis =>
      have soFar := inductionHypothesis (by omega) fun early beforeTime =>
        inTurn early (by omega)
      cases served : chosen time with
      | none =>
          rw [dispatched, served, dispatch.waits time before served]
          exact soFar
      | some worker =>
          refine Or.inr ?_
          rw [dispatched, served, dispatch.advances time before worker served,
            inTurn time (by omega) worker served, Nat.mod_add_mod]
          rfl

/-- An edge whose predecessors all kept the turns keeps it too exactly when the
worker in turn can take its job. -/
theorem RotatingDispatch.inTurn_iff
    (dispatch : RotatingDispatch count bound chosen pointer ready)
    {time worker : Nat}
    (before : time < bound)
    (inTurn : ∀ early, early < time → ∀ worker, chosen early = some worker →
      worker = dispatched chosen early % count)
    (served : chosen time = some worker) :
    worker = dispatched chosen time % count ↔
      OnTurn count (dispatched chosen time) (pointer time) (ready time) := by
  have found := dispatch.chooses time before worker served
  have inRange := dispatch.pointer_lt time before
  have finds : ∀ target, worker = target ↔
      circularFirst count (pointer time) (ready time) = some target := by
    intro target
    rw [found, Option.some.injEq]
  unfold OnTurn
  split_ifs with first
  · rw [first, Nat.zero_mod, finds, circularFirst_eq_zero_iff inRange]
  · have position := (dispatch.pointer_eq before.le inTurn).resolve_left first
    rw [← position, finds, circularFirst_eq_start_iff inRange]

/-- Every job goes to the worker whose turn it is exactly when each one is
dispatched on that worker's turn. -/
theorem RotatingDispatch.all_inTurn_iff
    (dispatch : RotatingDispatch count bound chosen pointer ready) :
    (∀ time, time < bound → ∀ worker, chosen time = some worker →
        worker = dispatched chosen time % count) ↔
      ∀ time, time < bound → (chosen time).isSome = true →
        OnTurn count (dispatched chosen time) (pointer time) (ready time) := by
  constructor
  · intro inTurn time before serves
    obtain ⟨worker, served⟩ := Option.isSome_iff_exists.mp serves
    exact (dispatch.inTurn_iff before (fun early beforeTime =>
      inTurn early (by omega)) served).mp (inTurn time before worker served)
  · intro onTurn time
    induction time using Nat.strong_induction_on with
    | _ time inductionHypothesis =>
        intro before worker served
        refine (dispatch.inTurn_iff before (fun early beforeTime =>
          inductionHypothesis early beforeTime (by omega)) served).mpr ?_
        exact onTurn time before (Option.isSome_iff_exists.mpr ⟨worker, served⟩)

end RotatingDispatch

/-! ## Rounds -/

/-- Every worker that still works has had its turn in each of `round` rounds, and
once more if the pointer has passed it. -/
def InRound (count pointer round : Nat) (live : Nat → Bool) (turns : Nat → Nat) : Prop :=
  ∀ worker, worker < count → live worker = true →
    turns worker = round + (decide (worker < pointer)).toNat

section InRound

variable {count pointer round chosen : Nat} {live live' : Nat → Bool} {turns : Nat → Nat}

/-- The workers that the scan has skipped do not work any more. -/
theorem skipped_of_circularFirst
    (inRange : pointer < count)
    (found : circularFirst count pointer live = some chosen) :
    (pointer ≤ chosen ∧ ∀ worker, pointer ≤ worker → worker < chosen → live worker = false) ∨
      chosen < pointer ∧
        (∀ worker, pointer ≤ worker → worker < count → live worker = false) ∧
        ∀ worker, worker < chosen → live worker = false := by
  obtain ⟨offset, bound, rfl, _, earlier⟩ := circularFirst_eq_some_iff.mp found
  have skipped : ∀ worker, worker < count → ∀ before, before < offset →
      (pointer + before) % count = worker → live worker = false := by
    rintro worker _ before early rfl
    exact earlier before early
  rcases Nat.lt_or_ge (pointer + offset) count with inside | wraps
  · rw [Nat.mod_eq_of_lt inside]
    refine Or.inl ⟨Nat.le_add_right _ _, fun worker above below => ?_⟩
    apply skipped worker (by omega) (worker - pointer) (by omega)
    rw [Nat.add_sub_cancel' above, Nat.mod_eq_of_lt (by omega)]
  · have place : (pointer + offset) % count = pointer + offset - count := by
      rw [Nat.mod_eq_sub_mod wraps, Nat.mod_eq_of_lt (by omega)]
    rw [place]
    refine Or.inr ⟨by omega, fun worker above below => ?_, fun worker below => ?_⟩
    · apply skipped worker below (worker - pointer) (by omega)
      rw [Nat.add_sub_cancel' above, Nat.mod_eq_of_lt below]
    · apply skipped worker (by omega) (worker + count - pointer) (by omega)
      rw [Nat.add_sub_cancel' (by omega), Nat.add_mod_right, Nat.mod_eq_of_lt (by omega)]

/-- A turn of the worker that the scan finds goes on with the round, or begins the
next one. Workers may stop. -/
theorem InRound.turn
    (inRound : InRound count pointer round live turns)
    (inRange : pointer < count)
    (found : circularFirst count pointer live = some chosen)
    (fewer : ∀ worker, live' worker = true → live worker = true) :
    ∃ round', InRound count ((chosen + 1) % count) round' live'
      (Function.update turns chosen (turns chosen + 1)) := by
  have chosenLive := circularFirst_ready found
  have chosenRange := circularFirst_lt found
  have chosenTurns := inRound chosen chosenRange chosenLive
  have idle : ∀ worker, live worker = false → ¬live' worker = true := by
    intro worker stopped working
    rw [fewer worker working] at stopped
    exact Bool.noConfusion stopped
  -- the round in which the worker has its turn
  rcases skipped_of_circularFirst inRange found with ⟨above, skipped⟩ | ⟨below, upper, lower⟩
  · rw [decide_eq_false (by omega)] at chosenTurns
    rcases Nat.lt_or_ge (chosen + 1) count with inside | last
    · refine ⟨round, fun worker bound working => ?_⟩
      rw [Nat.mod_eq_of_lt inside]
      rcases eq_or_ne worker chosen with rfl | other
      · rw [Function.update_self, chosenTurns, decide_eq_true (by omega)]
        rfl
      · rw [Function.update_of_ne other, inRound worker bound (fewer worker working)]
        have passed : pointer ≤ worker → chosen ≤ worker := by
          intro behind
          by_contra before
          exact idle worker (skipped worker behind (by omega)) working
        congr 2
        exact decide_eq_decide.mpr ⟨fun _ => by omega, fun _ => by omega⟩
    · refine ⟨round + 1, fun worker bound working => ?_⟩
      have start : (chosen + 1) % count = 0 := by
        rw [show chosen + 1 = count by omega, Nat.mod_self]
      rw [start, decide_eq_false (Nat.not_lt_zero worker)]
      rcases eq_or_ne worker chosen with rfl | other
      · rw [Function.update_self, chosenTurns]
        rfl
      · rw [Function.update_of_ne other, inRound worker bound (fewer worker working)]
        have passed : worker < pointer := by
          by_contra behind
          exact idle worker (skipped worker (by omega) (by omega)) working
        rw [decide_eq_true passed]
        rfl
  · rw [decide_eq_true below] at chosenTurns
    refine ⟨round + 1, fun worker bound working => ?_⟩
    rw [Nat.mod_eq_of_lt (by omega)]
    have live := fewer worker working
    have behind : ¬worker < chosen := fun early => idle worker (lower worker early) working
    have passed : worker < pointer := by
      by_contra ahead
      exact idle worker (upper worker (by omega) bound) working
    rcases eq_or_ne worker chosen with rfl | other
    · rw [Function.update_self, chosenTurns, decide_eq_true (by omega)]
      rfl
    · rw [Function.update_of_ne other, inRound worker bound live, decide_eq_true passed,
        decide_eq_false (by omega)]
      rfl

/-- Within a round an earlier worker is not behind a later one, and at most one turn
ahead. -/
theorem InRound.turns_le
    (inRound : InRound count pointer round live turns)
    {early late : Nat}
    (order : early < late)
    (inRange : late < count)
    (earlyLive : live early = true)
    (lateLive : live late = true) :
    turns late ≤ turns early ∧ turns early ≤ turns late + 1 := by
  rw [inRound early (by omega) earlyLive, inRound late inRange lateLive]
  by_cases passed : late < pointer
  · rw [decide_eq_true passed, decide_eq_true (by omega)]
    exact ⟨le_refl _, Nat.le_succ _⟩
  · rw [decide_eq_false passed]
    cases decide (early < pointer) <;> simp

/-- When a worker has its turn, the others that still work have had at least as many. -/
theorem InRound.chosen_le
    (inRound : InRound count pointer round live turns)
    (inRange : pointer < count)
    (found : circularFirst count pointer live = some chosen)
    {worker : Nat}
    (bound : worker < count)
    (working : live worker = true) :
    turns chosen ≤ turns worker := by
  rw [inRound chosen (circularFirst_lt found) (circularFirst_ready found),
    inRound worker bound working]
  rcases skipped_of_circularFirst inRange found with ⟨above, _⟩ | ⟨below, upper, _⟩
  · rw [decide_eq_false (by omega)]
    exact Nat.le_add_right _ _
  · have passed : worker < pointer := by
      by_contra ahead
      rw [upper worker (by omega) bound] at working
      exact Bool.noConfusion working
    rw [decide_eq_true below, decide_eq_true passed]

/-- An earlier one that still works has had its turn of the round already. -/
theorem InRound.eq_chosen_succ
    (inRound : InRound count pointer round live turns)
    (inRange : pointer < count)
    (found : circularFirst count pointer live = some chosen)
    {worker : Nat}
    (early : worker < chosen)
    (working : live worker = true) :
    turns worker = turns chosen + 1 := by
  have bound := circularFirst_lt found
  rw [inRound chosen bound (circularFirst_ready found),
    inRound worker (early.trans bound) working]
  rcases skipped_of_circularFirst inRange found with ⟨above, skipped⟩ | ⟨_, _, lower⟩
  · have passed : worker < pointer := by
      by_contra ahead
      rw [skipped worker (by omega) early] at working
      exact Bool.noConfusion working
    rw [decide_eq_true passed, decide_eq_false (Nat.not_lt.mpr above)]
    rfl
  · rw [lower worker early] at working
    exact Bool.noConfusion working

end InRound

/-! ## Waiting -/

/-- The steps that a pointer makes until it names a worker. -/
def circularDistance (count pointer worker : Nat) : Nat :=
  if pointer ≤ worker then worker - pointer else worker + count - pointer

section CircularDistance

variable {count pointer chosen worker : Nat} {ready : Nat → Bool}

/-- Every worker is less than a round away. -/
theorem circularDistance_lt
    (inRange : worker < count) :
    circularDistance count pointer worker < count := by
  unfold circularDistance
  split_ifs <;> omega

/-- The scan finds the nearest ready worker. -/
theorem circularDistance_le_of_circularFirst
    (pointerRange : pointer < count)
    (found : circularFirst count pointer ready = some chosen)
    (isReady : ready worker = true)
    (inRange : worker < count) :
    circularDistance count pointer chosen ≤ circularDistance count pointer worker := by
  have passedBy : ready worker = false → False := by
    intro stopped
    rw [stopped] at isReady
    exact Bool.noConfusion isReady
  have chosenRange := circularFirst_lt found
  unfold circularDistance
  rcases skipped_of_circularFirst pointerRange found with ⟨above, skipped⟩ | ⟨below, upper, lower⟩
  · have behind : pointer ≤ worker → chosen ≤ worker := by
      intro after
      by_contra before
      exact passedBy (skipped worker after (by omega))
    split_ifs <;> omega
  · have passed : worker < pointer := by
      by_contra ahead
      exact passedBy (upper worker (by omega) inRange)
    have behind : chosen ≤ worker := by
      by_contra before
      exact passedBy (lower worker (by omega))
    split_ifs <;> omega

/-- Serving a nearer worker brings the pointer closer to this one. -/
theorem circularDistance_served
    (pointerRange : pointer < count)
    (chosenRange : chosen < count)
    (inRange : worker < count)
    (nearer : circularDistance count pointer chosen < circularDistance count pointer worker) :
    circularDistance count ((chosen + 1) % count) worker + circularDistance count pointer chosen +
      1 = circularDistance count pointer worker := by
  unfold circularDistance at nearer ⊢
  rcases Nat.lt_or_ge (chosen + 1) count with inside | last
  · rw [Nat.mod_eq_of_lt inside]
    split_ifs at nearer ⊢ <;> omega
  · rw [show chosen + 1 = count by omega, Nat.mod_self]
    split_ifs at nearer ⊢ <;> omega

/-- The worker that was served last is the one that the pointer reaches last. -/
theorem circularDistance_lt_served
    (chosenRange : chosen < count)
    (inRange : worker < count)
    (other : worker ≠ chosen) :
    circularDistance count ((chosen + 1) % count) worker <
      circularDistance count ((chosen + 1) % count) chosen := by
  unfold circularDistance
  rcases Nat.lt_or_ge (chosen + 1) count with inside | last
  · rw [Nat.mod_eq_of_lt inside]
    split_ifs <;> omega
  · rw [show chosen + 1 = count by omega, Nat.mod_self]
    split_ifs <;> omega

/-- Two workers are never equally far away. -/
theorem eq_of_circularDistance_eq
    (pointerRange : pointer < count)
    (chosenRange : chosen < count)
    (inRange : worker < count)
    (same : circularDistance count pointer chosen = circularDistance count pointer worker) :
    chosen = worker := by
  unfold circularDistance at same
  split_ifs at same <;> omega

end CircularDistance

section Waiting

variable {count bound : Nat} {chosen : Nat → Option Nat} {pointer : Nat → Nat}
  {ready : Nat → Nat → Bool} {time worker waiting : Nat}

/-- Whoever is served instead of a ready worker is nearer to the pointer. -/
theorem RotatingDispatch.nearer
    (dispatch : RotatingDispatch count bound chosen pointer ready)
    (before : time < bound)
    (inRange : waiting < count)
    (isReady : ready time waiting = true)
    (served : chosen time = some worker)
    (other : worker ≠ waiting) :
    circularDistance count (pointer time) worker <
      circularDistance count (pointer time) waiting := by
  have found := dispatch.chooses time before worker served
  have pointerRange := dispatch.pointer_lt time before
  refine lt_of_le_of_ne (circularDistance_le_of_circularFirst pointerRange found isReady inRange)
    fun same => other ?_
  exact eq_of_circularDistance_eq pointerRange (circularFirst_lt found) inRange same

/-- Every job that goes to somebody else brings a ready worker closer to its own. -/
theorem RotatingDispatch.waits_step
    (dispatch : RotatingDispatch count bound chosen pointer ready)
    (before : time < bound)
    (inRange : waiting < count)
    (isReady : ready time waiting = true)
    (passedOver : chosen time ≠ some waiting) :
    (chosen time).isSome.toNat + circularDistance count (pointer (time + 1)) waiting ≤
      circularDistance count (pointer time) waiting := by
  cases served : chosen time with
  | none =>
      rw [dispatch.waits time before served]
      exact (Nat.zero_add _).le
  | some worker =>
      have other : worker ≠ waiting := by
        rintro rfl
        exact passedOver served
      have closer := circularDistance_served (dispatch.pointer_lt time before)
        (circularFirst_lt (dispatch.chooses time before worker served)) inRange
        (dispatch.nearer before inRange isReady served other)
      rw [dispatch.advances time before worker served]
      show 1 + _ ≤ _
      omega

/-- A ready worker waits for fewer jobs than there are workers. -/
theorem RotatingDispatch.dispatched_le
    (dispatch : RotatingDispatch count bound chosen pointer ready)
    {start stop : Nat}
    (order : start ≤ stop)
    (before : stop ≤ bound)
    (inRange : waiting < count)
    (isReady : ∀ time, start ≤ time → time < stop → ready time waiting = true)
    (passedOver : ∀ time, start ≤ time → time < stop → chosen time ≠ some waiting) :
    dispatched chosen stop ≤ dispatched chosen start + (count - 1) := by
  have closer : dispatched chosen stop + circularDistance count (pointer stop) waiting ≤
      dispatched chosen start + circularDistance count (pointer start) waiting := by
    induction stop, order using Nat.le_induction with
    | base => exact le_refl _
    | succ stop order inductionHypothesis =>
        have soFar := inductionHypothesis (by omega)
          (fun time after early => isReady time after (by omega))
          fun time after early => passedOver time after (by omega)
        have step := dispatch.waits_step (by omega) inRange (isReady stop order (by omega))
          (passedOver stop order (by omega))
        rw [dispatched]
        omega
  have near : circularDistance count (pointer start) waiting < count :=
    circularDistance_lt inRange
  omega

/-- Between two jobs of one worker every other worker that is ready all the time gets
one. -/
theorem RotatingDispatch.exists_served
    (dispatch : RotatingDispatch count bound chosen pointer ready)
    {first second : Nat}
    (order : first < second)
    (before : second < bound)
    (servedFirst : chosen first = some worker)
    (servedSecond : chosen second = some worker)
    (inRange : waiting < count)
    (other : worker ≠ waiting)
    (isReady : ∀ time, first < time → time ≤ second → ready time waiting = true) :
    ∃ time, first < time ∧ time < second ∧ chosen time = some waiting := by
  by_contra nobody
  push Not at nobody
  have workerRange := circularFirst_lt (dispatch.chooses first (by omega) worker servedFirst)
  -- the worker that was served stays behind the one that waits
  have ahead : ∀ time, first + 1 ≤ time → time ≤ second →
      circularDistance count (pointer time) waiting <
        circularDistance count (pointer time) worker := by
    intro time after
    induction time, after using Nat.le_induction with
    | base =>
        intro _
        rw [dispatch.advances first (by omega) worker servedFirst]
        exact circularDistance_lt_served workerRange inRange other.symm
    | succ time after inductionHypothesis =>
        intro early
        have soFar := inductionHypothesis (by omega)
        cases served : chosen time with
        | none =>
            rw [dispatch.waits time (by omega) served]
            exact soFar
        | some next =>
            have passedOver : next ≠ waiting := by
              rintro rfl
              exact nobody time after (by omega) served
            have near := dispatch.nearer (by omega) inRange
              (isReady time after (by omega)) served passedOver
            have pointerRange := dispatch.pointer_lt time (by omega)
            have nextRange := circularFirst_lt (dispatch.chooses time (by omega) next served)
            have closer := circularDistance_served pointerRange nextRange inRange near
            have behind := circularDistance_served pointerRange nextRange workerRange
              (near.trans soFar)
            rw [dispatch.advances time (by omega) next served]
            omega
  have near := dispatch.nearer before inRange (isReady second order (le_refl _))
    servedSecond other
  exact absurd near (Nat.lt_asymm (ahead second order (le_refl _)))

end Waiting

end OpenGPU
