import Mathlib.Algebra.BigOperators.Group.Finset.Piecewise
import Mathlib.Algebra.Order.BigOperators.Group.Finset
import OpenGPU.Refinement.Ticks

/-!
# The end of a launch

Every tick of a busy model moves a thread, or a core comes closer to moving one, or a
block is dispatched. So the model becomes idle within a number of ticks that the
instructions and the blocks of the launch bound, and then all threads are at their ends and
the memory is the one that the instruction-set simulator leaves.
-/

namespace OpenGPU

open Instruction

section Running

variable {cfg : Config} {info : LaunchInfo} {blockSize : Word}
  {runs : LaunchRuns cfg info blockSize} {m next : Model} {n core : Nat} {blockOf Q : Nat → Nat}

/-- The instructions that the threads still have to execute. -/
def LaunchRuns.remaining (runs : LaunchRuns cfg info blockSize) (Q : Nat → Nat) : Nat :=
  ∑ i ∈ Finset.range runs.start.ncores, (runs.ends i - Q i)

/-- A bound on the ticks until the next instruction is executed. -/
noncomputable def waiting (cfg : Config) (info : LaunchInfo) (m : Model) (n : Nat) : Nat :=
  ∑ core ∈ Finset.range cfg.numCores, (m.cores core).rank cfg +
    (info.gridDim.count - n) * (2 * cfg.numThreads + 7)

/-- The most steps that a core waits for an instruction. -/
def rankLimit (cfg : Config) : Nat := 4 * cfg.numThreads + 8

/-- A bound on the ticks until the launch ends. -/
noncomputable def LaunchRuns.cyclesLeft (runs : LaunchRuns cfg info blockSize) (m : Model)
    (n : Nat) (Q : Nat → Nat) : Nat :=
  runs.remaining Q * (cfg.numCores * rankLimit cfg + 1) + waiting cfg info m n

/-- A tick that moves a thread leaves fewer instructions. -/
theorem Running.remaining_lt
    (running : Running runs m n blockOf Q)
    {i : Nat}
    (moved : advanced cfg blockSize m blockOf Q i = Q i + 1) :
    runs.remaining (advanced cfg blockSize m blockOf Q) < runs.remaining Q := by
  have early : Q i < runs.ends i := by
    rcases running.advanced_cases i with kept | ⟨_, early, _⟩
    · omega
    · exact early
  have inRange : i < runs.start.ncores := by
    by_contra beyond
    rw [runs.ends_eq_zero (Nat.le_of_not_lt beyond)] at early
    exact Nat.not_lt_zero _ early
  refine Finset.sum_lt_sum (fun j _ => ?_) ⟨i, Finset.mem_range.mpr inRange, ?_⟩
  · rcases running.advanced_cases j with kept | ⟨next, _⟩ <;> omega
  · omega

/-- A core with a block moves a thread or comes closer to moving one. -/
theorem Running.rank_lt
    (running : Running runs m n blockOf Q)
    (cores : cfg.numCores ≤ 32)
    (defined : m.tick cfg .idle = some next)
    (still : ∀ i, advanced cfg blockSize m blockOf Q i ≠ Q i + 1)
    (inRange : core < cfg.numCores)
    (active : (m.cores core).ctaActive = true) :
    (next.cores core).rank cfg < (m.cores core).rank cfg := by
  have other : m.firing cfg ≠ some core := fun fires =>
    Bool.noConfusion (active.symm.trans (inactive_of_firing cores fires).2.2)
  obtain ⟨inGrid, ledger, work⟩ := running.atWork inRange active
  rw [cores_of_not_firing defined inRange other]
  refine (work.rank_lt _ _).resolve_left ?_
  rintro ⟨x, moved⟩
  rcases work.progress_cases x with kept | ⟨_, inBlock, _⟩
  · omega
  · exact still _ ((running.advanced_of_core inRange active inBlock).trans moved)

/-- Of a core that takes no block the rank does not grow. -/
theorem Running.rank_le
    (running : Running runs m n blockOf Q)
    (cores : cfg.numCores ≤ 32)
    (defined : m.tick cfg .idle = some next)
    (still : ∀ i, advanced cfg blockSize m blockOf Q i ≠ Q i + 1)
    (inRange : core < cfg.numCores)
    (other : m.firing cfg ≠ some core) :
    (next.cores core).rank cfg ≤ (m.cores core).rank cfg := by
  cases active : (m.cores core).ctaActive with
  | true => exact (running.rank_lt cores defined still inRange active).le
  | false => rw [cores_of_inactive defined inRange other active]

/-- A dispatch that moves no thread comes closer to moving one. -/
theorem Running.waiting_lt_of_firing
    (running : Running runs m n blockOf Q)
    (cores : cfg.numCores ≤ 32)
    (defined : m.tick cfg .idle = some next)
    (still : ∀ i, advanced cfg blockSize m blockOf Q i ≠ Q i + 1)
    (fires : m.firing cfg = some core) :
    waiting cfg info next (dispatchedNext cfg m n) < waiting cfg info m n := by
  obtain ⟨inGrid, accepted⟩ := running.accepts cores defined fires
  have inRange := Model.firing_lt fires
  have rank : (next.cores core).rank cfg = 2 * cfg.numThreads + 6 := by
    rw [accepted]
    exact Core.rank_of_active cfg _ rfl
  have bound : ∀ i ∈ Finset.range cfg.numCores, (next.cores i).rank cfg ≤
      (m.cores i).rank cfg + if i = core then 2 * cfg.numThreads + 6 else 0 := by
    intro i member
    split_ifs with same
    · rw [same, rank]
      exact Nat.le_add_left _ _
    · refine running.rank_le cores defined still (Finset.mem_range.mp member) fun other => ?_
      exact same (Option.some.inj (other.symm.trans fires))
  have total := Finset.sum_le_sum bound
  rw [Finset.sum_add_distrib, Finset.sum_ite_eq' (Finset.range cfg.numCores) core,
    if_pos (Finset.mem_range.mpr inRange)] at total
  have blocks : (info.gridDim.count - n) * (2 * cfg.numThreads + 7) =
      (info.gridDim.count - (n + 1)) * (2 * cfg.numThreads + 7) + (2 * cfg.numThreads + 7) := by
    rw [← Nat.succ_mul, Nat.succ_eq_add_one, Nat.sub_add_eq, Nat.sub_add_cancel (by omega)]
  have next : dispatchedNext cfg m n = n + 1 := by
    rw [dispatchedNext, fires]
    rfl
  rw [waiting, waiting, next, blocks]
  omega

/-- A busy model that dispatches nothing has a core with a block. -/
theorem Running.exists_active
    (running : Running runs m n blockOf Q)
    (cores : cfg.numCores ≤ 32)
    (busy : m.topBusy cfg = true)
    (quiet : m.firing cfg = none) :
    ∃ core, core < cfg.numCores ∧ (m.cores core).ctaActive = true := by
  rw [Model.topBusy, Bool.or_eq_true, bne_iff_ne] at busy
  rcases busy with walks | held
  · -- a core without a block could take the next one
    refine ⟨0, cfg.numCores_pos, ?_⟩
    by_contra inactive
    have inactive := Bool.eq_false_of_not_eq_true inactive
    rw [Model.firing, if_pos walks, Model.selected, circularFirst_eq_none_iff] at quiet
    have ready := quiet 0 cfg.numCores_pos
    rw [Model.hasLane_readyMask cores cfg.numCores_pos, Model.coreReady, inactive,
      running.idle 0 cfg.numCores_pos inactive] at ready
    exact Bool.noConfusion ready
  · obtain ⟨core, present⟩ := ne_zero_iff_hasLane.mp held
    rw [Model.busyMask, hasLane_collectLanes] at present
    simp only [Bool.and_eq_true, decide_eq_true_eq] at present
    exact ⟨core, present.1.2, present.2⟩

/-- A tick of a busy model that moves no thread comes closer to moving one. -/
theorem Running.waiting_lt
    (running : Running runs m n blockOf Q)
    (cores : cfg.numCores ≤ 32)
    (busy : m.topBusy cfg = true)
    (defined : m.tick cfg .idle = some next)
    (still : ∀ i, advanced cfg blockSize m blockOf Q i ≠ Q i + 1) :
    waiting cfg info next (dispatchedNext cfg m n) < waiting cfg info m n := by
  cases fires : m.firing cfg with
  | some core => exact running.waiting_lt_of_firing cores defined still fires
  | none =>
      obtain ⟨core, inRange, active⟩ := running.exists_active cores busy fires
      have other : ∀ i, m.firing cfg ≠ some i := by
        intro i
        rw [fires]
        exact (Option.some_ne_none i).symm
      have same : dispatchedNext cfg m n = n := by
        rw [dispatchedNext, fires]
        rfl
      rw [waiting, waiting, same]
      refine Nat.add_lt_add_right (Finset.sum_lt_sum (fun i member => ?_)
        ⟨core, Finset.mem_range.mpr inRange, ?_⟩) _
      · exact running.rank_le cores defined still (Finset.mem_range.mp member) (other i)
      · exact running.rank_lt cores defined still inRange active

/-- A model that is not busy has no blocks left, and its cores hold none. -/
theorem Model.not_topBusy
    (cores : cfg.numCores ≤ 32)
    (idle : m.topBusy cfg = false) :
    m.walk.running = false ∧ ∀ i, i < cfg.numCores → (m.cores i).ctaActive = false := by
  rw [topBusy, Bool.or_eq_false_iff, bne_eq_false_iff_eq, eq_zero_iff_hasLane] at idle
  refine ⟨idle.1, fun i inRange => ?_⟩
  have lane := idle.2 i
  rwa [busyMask, hasLane_collectLanes, decide_eq_true (by omega), decide_eq_true inRange,
    Bool.true_and, Bool.true_and] at lane

/-- In an idle model all threads are at their ends. -/
theorem Running.ends_of_idle
    (running : Running runs m n blockOf Q)
    (cores : cfg.numCores ≤ 32)
    (idle : m.topBusy cfg = false) :
    Q = runs.ends := by
  obtain ⟨stopped, inactive⟩ := Model.not_topBusy cores idle
  -- all blocks are dispatched, and no core holds one
  have all : n = info.gridDim.count := by
    obtain ⟨fired, length, walked⟩ := running.walked
    have few := running.le_count
    by_contra left
    have enabled : (blockSize != 0) = true := by
      rw [bne_iff_ne]
      rintro rfl
      exact absurd runs.accepted.size_pos (lt_irrefl 0)
    rw [walked.running_iff.mpr ⟨enabled, by omega⟩] at stopped
    exact Bool.noConfusion stopped
  funext i
  by_cases inGrid : i < info.gridDim.count * blockSize.toNat
  · have block : i / blockSize.toNat < n := by
      rw [all]
      exact (Nat.div_lt_iff_lt_mul runs.accepted.size_pos).mpr inGrid
    have done := running.finished _ block
      (fun core inRange active => Bool.noConfusion ((inactive core inRange).symm.trans active))
      (i % blockSize.toNat) (Nat.mod_lt i runs.accepted.size_pos)
    rwa [Nat.div_add_mod'] at done
  · rw [running.untouched i (by rw [all]; omega),
      runs.ends_eq_zero (by rw [runs.launched.ncores]; omega)]

/-- Its memory is the one that the instruction-set simulator leaves. -/
theorem Running.mem_eq
    (running : Running runs m n blockOf Q)
    (cores : cfg.numCores ≤ 32)
    (idle : m.topBusy cfg = false) :
    m.mem.bytes = runs.final := by
  have ends := running.ends_of_idle cores idle
  have follows := running.follows
  rw [ends] at follows
  refine follows.mem_eq runs.own.follows fun i j other k early l before a stored => ?_
  exact (runs.own.isolated i j other k early l before a stored).2

/-! ## The number of ticks -/

theorem Core.rank_le_limit
    (cfg : Config)
    (c : Core) :
    c.rank cfg ≤ rankLimit cfg := by
  have rest := c.rest_le cfg
  unfold rankLimit
  cases active : c.ctaActive with
  | false =>
      rw [Core.rank_of_inactive active]
      exact Nat.zero_le _
  | true =>
      rw [Core.rank_of_active cfg c active]
      cases c.state <;> simp only [Core.rankIn] <;> omega

/-- A tick may make every core wait again, but it gives no block back. -/
theorem waiting_le
    (cfg : Config)
    (info : LaunchInfo)
    (m next : Model)
    (n : Nat) :
    waiting cfg info next (dispatchedNext cfg m n) ≤
      cfg.numCores * rankLimit cfg + waiting cfg info m n := by
  have ranks : ∑ core ∈ Finset.range cfg.numCores, (next.cores core).rank cfg ≤
      cfg.numCores * rankLimit cfg := by
    have each := Finset.sum_le_card_nsmul (Finset.range cfg.numCores)
      (fun core => (next.cores core).rank cfg) (rankLimit cfg) fun core _ =>
        (next.cores core).rank_le_limit cfg
    simpa using each
  have blocks : (info.gridDim.count - dispatchedNext cfg m n) * (2 * cfg.numThreads + 7) ≤
      (info.gridDim.count - n) * (2 * cfg.numThreads + 7) := by
    apply Nat.mul_le_mul_right
    have grows : n ≤ dispatchedNext cfg m n := Nat.le_add_right _ _
    omega
  unfold waiting
  omega

/-- Every tick of a busy model comes closer to the end. -/
theorem Running.cyclesLeft_lt
    (running : Running runs m n blockOf Q)
    (cores : cfg.numCores ≤ 32)
    (busy : m.topBusy cfg = true)
    (defined : m.tick cfg .idle = some next) :
    runs.cyclesLeft next (dispatchedNext cfg m n) (advanced cfg blockSize m blockOf Q) <
      runs.cyclesLeft m n Q := by
  unfold LaunchRuns.cyclesLeft
  by_cases moved : ∃ i, advanced cfg blockSize m blockOf Q i = Q i + 1
  · obtain ⟨i, moved⟩ := moved
    have fewer := Nat.mul_le_mul_right (cfg.numCores * rankLimit cfg + 1)
      (running.remaining_lt moved)
    rw [Nat.succ_mul] at fewer
    have wait := waiting_le cfg info m next n
    omega
  · push Not at moved
    have same : advanced cfg blockSize m blockOf Q = Q := by
      funext i
      rcases running.advanced_cases i with kept | ⟨next, _⟩
      · exact kept
      · exact absurd next (moved i)
    rw [same]
    exact Nat.add_lt_add_left (running.waiting_lt cores busy defined moved) _

/-- Ticks of a model that is busy up to their end and never shows a fault. -/
structure Model.RunsToEnd (cfg : Config) (bound : Nat) (run : Nat → Model) : Prop where
  tick : ∀ time, time < bound → (run time).tick cfg .idle = some (run (time + 1))
  busy : ∀ time, time < bound → (run time).topBusy cfg = true
  clean : ∀ time, time ≤ bound → (run time).topFault cfg = false
  ends : (run bound).topBusy cfg = false

/-- One tick before the others. -/
theorem Model.RunsToEnd.cons
    {run : Nat → Model}
    {bound : Nat}
    (runsToEnd : RunsToEnd cfg bound run)
    (defined : m.tick cfg .idle = some (run 0))
    (busy : m.topBusy cfg = true)
    (clean : m.topFault cfg = false) :
    RunsToEnd cfg (bound + 1) fun time => time.casesOn m run where
  tick time early := by
    cases time with
    | zero => exact defined
    | succ time => exact runsToEnd.tick time (Nat.lt_of_succ_lt_succ early)
  busy time early := by
    cases time with
    | zero => exact busy
    | succ time => exact runsToEnd.busy time (Nat.lt_of_succ_lt_succ early)
  clean time early := by
    cases time with
    | zero => exact clean
    | succ time => exact runsToEnd.clean time (Nat.le_of_succ_le_succ early)
  ends := runsToEnd.ends

theorem Running.topFault
    (running : Running runs m n blockOf Q) :
    m.topFault cfg = false := by
  rw [Model.topFault, List.any_eq_false]
  intro core member
  rw [running.noFault core (List.mem_range.mp member)]
  exact Bool.false_ne_true

/-- The model becomes idle in time. -/
theorem Running.finishes
    (cores : cfg.numCores ≤ 32)
    (threads : cfg.numThreads ≤ 8)
    (running : Running runs m n blockOf Q) :
    ∃ run bound, run 0 = m ∧ Model.RunsToEnd cfg bound run ∧ bound ≤ runs.cyclesLeft m n Q ∧
      ∃ n blockOf Q, Running runs (run bound) n blockOf Q := by
  induction measure : runs.cyclesLeft m n Q using Nat.strong_induction_on generalizing
    m n blockOf Q with
  | h measure inductionHypothesis =>
      subst measure
      cases busy : m.topBusy cfg with
      | false =>
          refine ⟨fun _ => m, 0, rfl, ?_, Nat.zero_le _, n, blockOf, Q, running⟩
          exact ⟨fun _ early => absurd early (Nat.not_lt_zero _),
            fun _ early => absurd early (Nat.not_lt_zero _), fun _ _ => running.topFault, busy⟩
      | true =>
          obtain ⟨next, defined⟩ := running.exists_tick cores threads
          have closer := running.cyclesLeft_lt cores busy defined
          obtain ⟨run, bound, first, runsToEnd, early, last⟩ := inductionHypothesis _ closer
            (running.tick cores threads defined) rfl
          rw [← first] at defined
          exact ⟨_, bound + 1, rfl, runsToEnd.cons defined busy running.topFault, by omega, last⟩

end Running

end OpenGPU
