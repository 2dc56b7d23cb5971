import OpenGPU.Cycle.Conservation
import OpenGPU.Foundation.RoundRobin

/-!
# Fair issue of warps

`SCHED` issues the first valid warp from a pointer on, and the end of an instruction
leaves the pointer behind the warp that was issued. Warps become invalid on the way,
but none becomes valid before the next block. A warp that waits for its issue is
therefore never passed over by the same warp twice.
-/

namespace OpenGPU

namespace Core

/-- The warp that a step issues: the core leaves `SCHED` for `FETCH`. -/
def issuedWarp (c stepped : Core) : Option Nat :=
  if c.ctaActive ∧ c.state = .sched ∧ stepped.state = .fetch then some stepped.iw else none

/-- Where the next scan begins. While an instruction runs, `rr` is out of date. -/
def scanStart (cfg : Config) (c : Core) : Nat :=
  if c.ctaActive ∧ c.state = .sched then c.rr else (c.iw + 1) % cfg.numWarps

/-- A core takes one block and works on it for `bound` cycles. Memory and inputs may
change on the way. -/
structure CtaRun (cfg : Config) (cid bound : Nat) (run : Nat → Core) : Prop where
  accept : ∃ launch c, run 0 = acceptCta cfg launch c
  steps : ∀ time, time < bound →
    ∃ mem launch, run (time + 1) = stepCore cfg mem launch cid false (run time)

/-- The warps that a run issues, cycle by cycle. -/
def issues (run : Nat → Core) (time : Nat) : Option Nat :=
  (run time).issuedWarp (run (time + 1))

/-- In the cycles from `start` to `stop` no warp but this one is issued twice. -/
def OnceBetween (run : Nat → Core) (start stop w : Nat) : Prop :=
  ∀ v, v ≠ w → ∀ early late, start ≤ early → early < late → late < stop →
    issues run early = some v → issues run late ≠ some v

/-- Nobody starves: between two issues of a warp, and before its first one, no other
warp has two; `SCHED` issues a valid warp as it stands; and a valid warp waits for
fewer instructions than there are warps. -/
structure FairlyIssued (cfg : Config) (bound : Nat) (run : Nat → Core) : Prop where
  between : ∀ w first second, second < bound →
    issues run first = some w → issues run second = some w →
    (∀ time, first < time → time < second → issues run time ≠ some w) →
    OnceBetween run (first + 1) second w
  beforeFirst : ∀ w first, first < bound → issues run first = some w →
    (∀ time, time < first → issues run time ≠ some w) →
    OnceBetween run 0 first w
  current : ∀ time, time < bound → (run time).ctaActive = true → (run time).state = .sched →
    (∃ w, w < cfg.numWarps ∧ (run time).valid w = true) →
    ∃ w, issues run time = some w ∧ w < cfg.numWarps ∧ (run time).valid w = true ∧
      (run (time + 1)).im = (run time).mask w ∧ (run (time + 1)).ip = (run time).pc w
  waits : ∀ w start stop, start ≤ stop → stop ≤ bound → w < cfg.numWarps →
    (run stop).valid w = true →
    (∀ time, start ≤ time → time < stop → issues run time ≠ some w) →
    dispatched (issues run) stop ≤ dispatched (issues run) start + (cfg.numWarps - 1)

/-! ## One cycle -/

/-- What a cycle outside `SCHED` does to the schedule. -/
structure KeepsTurn (cfg : Config) (c stepped : Core) : Prop where
  iw : stepped.iw = c.iw
  scanStart : stepped.scanStart cfg = (c.iw + 1) % cfg.numWarps
  valid : ∀ w, stepped.valid w = true → c.valid w = true

section KeepsTurn

variable {cfg : Config} {c stepped : Core}

/-- A cycle in the middle of an instruction. -/
theorem KeepsTurn.midway
    (iw : stepped.iw = c.iw)
    (state : stepped.ctaActive = true → stepped.state ≠ .sched)
    (valid : ∀ w, stepped.valid w = true → c.valid w = true) :
    KeepsTurn cfg c stepped := by
  refine ⟨iw, ?_, valid⟩
  rw [Core.scanStart, if_neg fun here => state here.1 here.2, iw]

/-- The end of an instruction moves the pointer behind the issued warp. -/
theorem KeepsTurn.last
    (inRange : c.iw < cfg.numWarps)
    (iw : stepped.iw = c.iw)
    (valid : ∀ w, stepped.valid w = true → c.valid w = true) :
    KeepsTurn cfg c (nextWarp cfg stepped) := by
  refine ⟨iw, ?_, valid⟩
  have wraps : (nextWarp cfg stepped).rr = (c.iw + 1) % cfg.numWarps := by
    show (if stepped.iw = cfg.numWarps - 1 then 0 else stepped.iw + 1) = _
    rw [iw]
    split_ifs with last
    · rw [last, Nat.sub_add_cancel cfg.numWarps_pos, Nat.mod_self]
    · rw [Nat.mod_eq_of_lt (by omega)]
  have same : (nextWarp cfg stepped).iw = c.iw := iw
  rw [Core.scanStart, wraps, same]
  exact ite_self _

theorem keepsTurn_execEbreak
    (inRange : c.iw < cfg.numWarps) :
    KeepsTurn cfg c (execEbreak cfg c) := by
  unfold execEbreak
  split_ifs with deferred
  · exact KeepsTurn.last inRange rfl fun _ valid => valid
  · refine KeepsTurn.last inRange rfl
      fun w (valid : Function.update c.valid c.iw false w = true) => ?_
    rcases eq_or_ne w c.iw with rfl | other
    · rw [Function.update_self] at valid
      exact Bool.noConfusion valid
    · rwa [Function.update_of_ne other] at valid

theorem keepsTurn_execute
    (cid : Nat)
    (inRange : c.iw < cfg.numWarps) :
    KeepsTurn cfg c (execute cfg cid c) := by
  unfold execute
  split_ifs with registers memory word branch
  · exact KeepsTurn.midway rfl (fun active => Bool.noConfusion active) fun _ valid => valid
  · exact KeepsTurn.midway rfl (fun _ moved => CoreState.noConfusion moved)
      fun _ valid => valid
  · exact keepsTurn_execEbreak inRange
  · rcases execBranch_cases cfg c with ⟨result, _⟩ | ⟨result, _⟩ | ⟨result, _⟩ | ⟨result, _⟩ <;>
      rw [result] <;>
      exact KeepsTurn.last inRange rfl fun _ valid => valid
  · rcases execLanes_cases cfg cid c with ⟨result, _⟩ | ⟨result, _⟩ <;>
      rw [result] <;>
      exact KeepsTurn.last inRange rfl fun _ valid => valid

theorem keepsTurn_memoryRequest
    (request : c.state = .memReq)
    (inRange : c.iw < cfg.numWarps) :
    KeepsTurn cfg c (memoryRequest cfg c) := by
  unfold memoryRequest
  split_ifs
  · exact KeepsTurn.midway rfl (fun _ moved => CoreState.noConfusion moved)
      fun _ valid => valid
  · exact KeepsTurn.last inRange rfl fun _ valid => valid
  · refine KeepsTurn.midway rfl (fun _ moved => ?_) fun _ valid => valid
    exact CoreState.noConfusion (request.symm.trans moved)

theorem keepsTurn_memoryResponse
    (mem : ShadowMemory)
    (inRange : c.iw < cfg.numWarps) :
    KeepsTurn cfg c (memoryResponse cfg mem c) := by
  unfold memoryResponse
  extract_lets x row written
  split_ifs
  · exact KeepsTurn.last inRange rfl fun _ valid => valid
  · exact KeepsTurn.midway rfl (fun _ moved => CoreState.noConfusion moved)
      fun _ valid => valid

/-- An active core outside `SCHED` keeps the issued warp to the end of its
instruction. -/
theorem keepsTurn_stepCore
    (mem : ShadowMemory)
    (launch : LaunchRegisters)
    (cid : Nat)
    (active : c.ctaActive = true)
    (issued : c.state ≠ .sched)
    (inRange : c.iw < cfg.numWarps) :
    KeepsTurn cfg c (stepCore cfg mem launch cid false c) := by
  rw [stepCore, if_neg Bool.false_ne_true, if_neg (by simp [active])]
  cases state : c.state with
  | sched => exact absurd state issued
  | fetch =>
      exact KeepsTurn.midway rfl (fun _ moved => CoreState.noConfusion moved)
        fun _ valid => valid
  | exec => exact keepsTurn_execute cid inRange
  | memReq => exact keepsTurn_memoryRequest state inRange
  | memResp => exact keepsTurn_memoryResponse mem inRange

/-- An active core in `SCHED` scans the warps. -/
theorem stepCore_sched
    (mem : ShadowMemory)
    (launch : LaunchRegisters)
    (cid : Nat)
    (active : c.ctaActive = true)
    (sched : c.state = .sched) :
    stepCore cfg mem launch cid false c = schedule cfg c := by
  rw [stepCore, if_neg Bool.false_ne_true, if_neg (by simp [active]), sched]

/-- No warp becomes valid before the next block. -/
theorem valid_of_valid_stepCore
    {mem : ShadowMemory}
    {launch : LaunchRegisters}
    {cid w : Nat}
    (inRange : c.ctaActive = true → c.state ≠ .sched → c.iw < cfg.numWarps)
    (valid : (stepCore cfg mem launch cid false c).valid w = true) :
    c.valid w = true := by
  cases active : c.ctaActive with
  | false =>
      rw [stepCore, if_neg Bool.false_ne_true, if_pos (by simp [active])] at valid
      exact valid
  | true =>
      by_cases sched : c.state = .sched
      · rw [stepCore_sched mem launch cid active sched, schedule] at valid
        cases found : circularFirst cfg.numWarps c.rr c.valid <;> rw [found] at valid <;>
          exact valid
      · exact (keepsTurn_stepCore mem launch cid active sched (inRange active sched)).valid w valid

end KeepsTurn

/-! ## Runs -/

section Run

variable {cfg : Config} {cid bound : Nat} {run : Nat → Core}

/-- The registers of the schedule name warps. -/
structure TurnInRange (cfg : Config) (c : Core) : Prop where
  issued : c.ctaActive = true → c.state ≠ .sched → c.iw < cfg.numWarps
  next : c.ctaActive = true → c.state = .sched → c.rr < cfg.numWarps

theorem TurnInRange.scanStart_lt
    {c : Core}
    (inRange : TurnInRange cfg c) :
    c.scanStart cfg < cfg.numWarps := by
  unfold scanStart
  split_ifs with waiting
  · exact inRange.next waiting.1 waiting.2
  · exact Nat.mod_lt _ cfg.numWarps_pos

/-- The warp that a cycle issues is the first valid one. -/
theorem issuedWarp_stepCore
    (c : Core)
    (mem : ShadowMemory)
    (launch : LaunchRegisters) :
    c.issuedWarp (stepCore cfg mem launch cid false c) =
      if c.ctaActive ∧ c.state = .sched then
        circularFirst cfg.numWarps (c.scanStart cfg) c.valid
      else none := by
  unfold issuedWarp
  by_cases waiting : c.ctaActive = true ∧ c.state = .sched
  · rw [if_pos waiting, scanStart, if_pos waiting,
      stepCore_sched mem launch cid waiting.1 waiting.2, schedule]
    cases found : circularFirst cfg.numWarps c.rr c.valid with
    | none => exact if_neg fun issued => CoreState.noConfusion (waiting.2.symm.trans issued.2.2)
    | some sel => exact if_pos ⟨waiting.1, waiting.2, rfl⟩
  · rw [if_neg waiting, if_neg fun issued => waiting ⟨issued.1, issued.2.1⟩]

/-- One cycle keeps the registers of the schedule in range. -/
theorem TurnInRange.step
    {c : Core}
    (inRange : TurnInRange cfg c)
    (mem : ShadowMemory)
    (launch : LaunchRegisters) :
    TurnInRange cfg (stepCore cfg mem launch cid false c) := by
  cases active : c.ctaActive with
  | false =>
      rw [stepCore, if_neg Bool.false_ne_true, if_pos (by simp [active])]
      exact inRange
  | true =>
      by_cases sched : c.state = .sched
      · rw [stepCore_sched mem launch cid active sched, schedule]
        cases found : circularFirst cfg.numWarps c.rr c.valid with
        | none => exact ⟨fun moved => Bool.noConfusion moved, fun moved => Bool.noConfusion moved⟩
        | some sel =>
            exact ⟨fun _ _ => circularFirst_lt found, fun _ moved => CoreState.noConfusion moved⟩
      · have keeps := keepsTurn_stepCore mem launch cid active sched (inRange.issued active sched)
        refine ⟨fun _ _ => ?_, fun stays waiting => ?_⟩
        · rw [keeps.iw]
          exact inRange.issued active sched
        · have start := keeps.scanStart
          rw [scanStart, if_pos ⟨stays, waiting⟩] at start
          rw [start]
          exact Nat.mod_lt _ cfg.numWarps_pos

/-- So they are in range all the time. -/
theorem CtaRun.inRange
    (ctaRun : CtaRun cfg cid bound run)
    {time : Nat}
    (before : time ≤ bound) :
    TurnInRange cfg (run time) := by
  induction time with
  | zero =>
      obtain ⟨launch, c, start⟩ := ctaRun.accept
      rw [start]
      exact ⟨fun _ moved => absurd rfl moved, fun _ _ => cfg.numWarps_pos⟩
  | succ time inductionHypothesis =>
      obtain ⟨mem, launch, step⟩ := ctaRun.steps time before
      rw [step]
      exact (inductionHypothesis (by omega)).step mem launch

/-- A warp that is valid has been valid since the block began. -/
theorem CtaRun.valid_of_le
    (ctaRun : CtaRun cfg cid bound run)
    {w early late : Nat}
    (order : early ≤ late)
    (before : late ≤ bound)
    (valid : (run late).valid w = true) :
    (run early).valid w = true := by
  induction late, order using Nat.le_induction with
  | base => exact valid
  | succ late order inductionHypothesis =>
      obtain ⟨mem, launch, step⟩ := ctaRun.steps late before
      rw [step] at valid
      exact inductionHypothesis (by omega)
        (valid_of_valid_stepCore (ctaRun.inRange (by omega)).issued valid)

/-- A cycle issues the first valid warp, if the core waits for one. -/
theorem CtaRun.issues_eq
    (ctaRun : CtaRun cfg cid bound run)
    {time : Nat}
    (before : time < bound) :
    issues run time =
      if (run time).ctaActive ∧ (run time).state = .sched then
        circularFirst cfg.numWarps ((run time).scanStart cfg) (run time).valid
      else none := by
  obtain ⟨mem, launch, step⟩ := ctaRun.steps time before
  rw [issues, step]
  exact issuedWarp_stepCore (run time) mem launch

/-- An issue finds the warp by a scan. -/
theorem CtaRun.found_of_issues
    (ctaRun : CtaRun cfg cid bound run)
    {time w : Nat}
    (before : time < bound)
    (issued : issues run time = some w) :
    circularFirst cfg.numWarps ((run time).scanStart cfg) (run time).valid = some w := by
  rw [ctaRun.issues_eq before] at issued
  split_ifs at issued with waiting
  exact issued

/-- While some warp is valid, the schedule is a dispatcher in rotation. -/
theorem CtaRun.rotatingDispatch
    (ctaRun : CtaRun cfg cid bound run)
    {stop w : Nat}
    (before : stop ≤ bound)
    (inRange : w < cfg.numWarps)
    (valid : (run stop).valid w = true) :
    RotatingDispatch cfg.numWarps stop (issues run) (fun time => (run time).scanStart cfg)
      (fun time => (run time).valid) where
  pointer_lt time early := (ctaRun.inRange (by omega)).scanStart_lt
  chooses time early v issued := ctaRun.found_of_issues (by omega) issued
  advances time early v issued := by
    unfold issues issuedWarp at issued
    split_ifs at issued with moved
    rw [scanStart, if_neg fun waiting =>
      CoreState.noConfusion (moved.2.2.symm.trans waiting.2), Option.some.inj issued]
  waits time early quiet := by
    obtain ⟨mem, launch, step⟩ := ctaRun.steps time (by omega)
    cases active : (run time).ctaActive with
    | false =>
        rw [step, stepCore, if_neg Bool.false_ne_true, if_pos (by simp [active])]
    | true =>
        by_cases sched : (run time).state = .sched
        · -- with a valid warp the scan does not fail
          rw [ctaRun.issues_eq (by omega), if_pos ⟨active, sched⟩,
            circularFirst_eq_none_iff] at quiet
          have stillValid := ctaRun.valid_of_le early.le before valid
          rw [quiet w inRange] at stillValid
          exact Bool.noConfusion stillValid
        · have turn := ctaRun.inRange (early.le.trans before)
          have issued := turn.issued active sched
          rw [step, (keepsTurn_stepCore mem launch cid active sched issued).scanStart, scanStart,
            if_neg fun waiting => sched waiting.2]

/-- A warp is valid when it is issued, and still is in the cycle after. -/
theorem CtaRun.valid_of_issues
    (ctaRun : CtaRun cfg cid bound run)
    {time w : Nat}
    (before : time < bound)
    (issued : issues run time = some w) :
    w < cfg.numWarps ∧ (run (time + 1)).valid w = true := by
  have found := ctaRun.found_of_issues before issued
  refine ⟨circularFirst_lt found, ?_⟩
  obtain ⟨mem, launch, step⟩ := ctaRun.steps time before
  unfold issues issuedWarp at issued
  split_ifs at issued with moved
  rw [step, stepCore_sched mem launch cid moved.1 moved.2.1, schedule]
  have isValid := circularFirst_ready found
  cases circularFirst cfg.numWarps (run time).rr (run time).valid <;> exact isValid

/-- A warp that is issued at `stop`, but not from `start` on, has seen no other warp
twice. -/
theorem CtaRun.onceBetween
    (ctaRun : CtaRun cfg cid bound run)
    {w start stop : Nat}
    (before : stop < bound)
    (issued : issues run stop = some w)
    (passedOver : ∀ time, start ≤ time → time < stop → issues run time ≠ some w) :
    OnceBetween run start stop w := by
  intro v other early late after order earlier first second
  obtain ⟨inRange, valid⟩ := ctaRun.valid_of_issues before issued
  have dispatch := ctaRun.rotatingDispatch before inRange valid
  have isValid : ∀ time, early < time → time ≤ late → (run time).valid w = true :=
    fun time _ soon => ctaRun.valid_of_le (by omega) before valid
  obtain ⟨time, afterEarly, beforeLate, served⟩ :=
    dispatch.exists_served order (by omega) first second inRange other isValid
  exact passedOver time (by omega) (by omega) served

/-- The core issues the warp that its scan finds, with its current path. -/
theorem CtaRun.issues_current
    (ctaRun : CtaRun cfg cid bound run)
    {time : Nat}
    (before : time < bound)
    (active : (run time).ctaActive = true)
    (sched : (run time).state = .sched)
    (someValid : ∃ w, w < cfg.numWarps ∧ (run time).valid w = true) :
    ∃ w, issues run time = some w ∧ w < cfg.numWarps ∧ (run time).valid w = true ∧
      (run (time + 1)).im = (run time).mask w ∧ (run (time + 1)).ip = (run time).pc w := by
  obtain ⟨mem, launch, step⟩ := ctaRun.steps time before
  cases found : circularFirst cfg.numWarps (run time).rr (run time).valid with
  | none =>
      obtain ⟨w, inRange, valid⟩ := someValid
      rw [circularFirst_eq_none_iff] at found
      rw [found w inRange] at valid
      exact Bool.noConfusion valid
  | some w =>
      have start : (run time).scanStart cfg = (run time).rr := if_pos ⟨active, sched⟩
      refine ⟨w, ?_, circularFirst_lt found, circularFirst_ready found, ?_⟩
      · rw [ctaRun.issues_eq before, if_pos ⟨active, sched⟩, start, found]
      · rw [step, stepCore_sched mem launch cid active sched, schedule, found]
        exact ⟨rfl, rfl⟩

/-- In every run of a core on one block the warps are issued fairly. -/
theorem warps_fairlyIssued
    (ctaRun : CtaRun cfg cid bound run) :
    FairlyIssued cfg bound run where
  between _ _ _ before _ issued passedOver := ctaRun.onceBetween before issued passedOver
  beforeFirst _ _ before issued passedOver :=
    ctaRun.onceBetween before issued fun time _ => passedOver time
  current _ before active sched someValid := ctaRun.issues_current before active sched someValid
  waits _ _ _ order before inRange valid passedOver :=
    (ctaRun.rotatingDispatch before inRange valid).dispatched_le order (le_refl _) inRange
      (fun _ _ early => ctaRun.valid_of_le early.le before valid) passedOver

/-- The cycles of a core on one block while memory and inputs do not change. -/
def ctaCycles (cfg : Config) (mem : ShadowMemory) (launch : LaunchRegisters) (cid : Nat) :
    Nat → Core
  | 0 => acceptCta cfg launch fresh
  | time + 1 => stepCore cfg mem launch cid false (ctaCycles cfg mem launch cid time)

theorem ctaRun_ctaCycles
    (mem : ShadowMemory)
    (launch : LaunchRegisters) :
    CtaRun cfg cid bound (ctaCycles cfg mem launch cid) where
  accept := ⟨launch, fresh, rfl⟩
  steps _ _ := ⟨mem, launch, rfl⟩

/-- A block of two warps that execute `EBREAK`. -/
def twoWarpCycles : Nat → Core :=
  ctaCycles Config.twoWarps
    ⟨fun addr => if addr &&& 3 = 0 then 0x73 else if addr &&& 3 = 2 then 0x10 else 0, 0x8000000⟩
    { startup := 0x80000000, args := 0, argsSize := 0, dim := ⟨2, 1, 1⟩, grid := Dim3.one,
      blockSize := 2, block := Dim3.zero } 0

/-- The second warp has its turn in cycle 3, after one turn of the first. -/
theorem warps_fairlyIssued_twoWarps :
    issues twoWarpCycles 3 = some 1 ∧ OnceBetween twoWarpCycles 0 3 1 := by
  have second : issues twoWarpCycles 3 = some 1 := by decide
  refine ⟨second, (warps_fairlyIssued (ctaRun_ctaCycles _ _)).beforeFirst 1 3
    (show 3 < 4 by decide) second ?_⟩
  show ∀ time, time < 3 → issues twoWarpCycles time ≠ some 1
  decide

end Run

end Core

namespace Model

/-- The ticks from the one in which a core takes a block to the one before it takes
the next are a run of that core. -/
theorem ctaRun_of_ticks
    {cfg : Config}
    {states : Nat → Model}
    {inputs : Nat → Inputs}
    {core bound : Nat}
    (inRange : core < cfg.numCores)
    (ticks : ∀ time, time ≤ bound →
      (states time).tick cfg (inputs time) = some (states (time + 1)))
    (running : ∀ time, time ≤ bound → (inputs time).reset = false)
    (takes : (states 0).firing cfg = some core)
    (works : ∀ time, 0 < time → time ≤ bound → (states time).firing cfg ≠ some core) :
    Core.CtaRun cfg core bound fun time => (states (time + 1)).cores core where
  accept := by
    refine ⟨(states 0).launchRegisters, (states 0).cores core, ?_⟩
    rw [tick_cores (ticks 0 (Nat.zero_le bound)) (running 0 (Nat.zero_le bound)) inRange, takes,
      Core.stepCore, if_pos (beq_self_eq_true _)]
  steps time before := by
    refine ⟨(states (time + 1)).mem, (states (time + 1)).launchRegisters, ?_⟩
    have others : ((states (time + 1)).firing cfg == some core) = false :=
      beq_eq_false_iff_ne.mpr (works (time + 1) (Nat.succ_pos time) before)
    rw [tick_cores (ticks (time + 1) before) (running (time + 1) before) inRange, others]

end Model

end OpenGPU
