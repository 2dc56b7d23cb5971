import OpenGPU.Refinement.OneTick

/-!
# The ticks of a launch

A tick keeps the correspondence between the cores and the threads, and as long as some
core is busy or a block is left, it brings the launch closer to its end.
-/

namespace OpenGPU

open Instruction

section Running

variable {cfg : Config} {info : LaunchInfo} {blockSize : Word}
  {runs : LaunchRuns cfg info blockSize} {m next : Model} {n core : Nat} {blockOf Q : Nat → Nat}

/-- The blocks of the cores after a tick. -/
def blocksNext (cfg : Config) (m : Model) (n : Nat) (blockOf : Nat → Nat) (core : Nat) : Nat :=
  if m.firing cfg = some core then n else blockOf core

/-- How many blocks are dispatched after a tick. -/
def dispatchedNext (cfg : Config) (m : Model) (n : Nat) : Nat :=
  n + (m.firing cfg).isSome.toNat

/-- A core that takes a block has none before. -/
theorem inactive_of_firing
    (cores : cfg.numCores ≤ 32)
    (fires : m.firing cfg = some core) :
    m.walk.running = true ∧ core < cfg.numCores ∧ (m.cores core).ctaActive = false := by
  have inRange := Model.firing_lt fires
  unfold Model.firing at fires
  split_ifs at fires with running
  have ready := circularFirst_ready fires
  rw [Model.hasLane_readyMask cores inRange, Model.coreReady, Bool.and_eq_true,
    Bool.not_eq_true'] at ready
  exact ⟨running, inRange, ready.1⟩

/-- The block that a core takes. -/
theorem Running.accepts
    (running : Running runs m n blockOf Q)
    (cores : cfg.numCores ≤ 32)
    (defined : m.tick cfg .idle = some next)
    (fires : m.firing cfg = some core) :
    n < info.gridDim.count ∧
      next.cores core = Core.acceptCta cfg
        (Model.LaunchRun.blockRegisters (info.registers blockSize) n) (m.cores core) := by
  obtain ⟨walks, inRange, _⟩ := inactive_of_firing cores fires
  obtain ⟨fired, length, walked⟩ := running.walked
  have inGrid := (walked.running_iff.mp walks).2
  have registers : m.launchRegisters =
      Model.LaunchRun.blockRegisters (info.registers blockSize) n := by
    rw [Model.launchRegisters, running.dcr, walked.current inGrid, length]
    rfl
  refine ⟨length ▸ inGrid, ?_⟩
  rw [Model.tick_cores defined rfl inRange, fires, registers]
  exact if_pos (beq_self_eq_true _)

/-- A core that takes no block steps on. -/
theorem cores_of_not_firing
    (defined : m.tick cfg .idle = some next)
    (inRange : core < cfg.numCores)
    (other : m.firing cfg ≠ some core) :
    next.cores core =
      (m.cores core).stepCore cfg m.mem m.launchRegisters core false := by
  rw [Model.tick_cores defined rfl inRange, beq_false_of_ne other]

/-- A core without a block that takes none stays as it is. -/
theorem cores_of_inactive
    (defined : m.tick cfg .idle = some next)
    (inRange : core < cfg.numCores)
    (other : m.firing cfg ≠ some core)
    (inactive : (m.cores core).ctaActive = false) :
    next.cores core = m.cores core := by
  rw [cores_of_not_firing defined inRange other, Core.stepCore, if_neg Bool.false_ne_true, inactive]
  rfl

/-- A core with a block moves lanes of it. -/
theorem Running.advances
    (running : Running runs m n blockOf Q)
    (cores : cfg.numCores ≤ 32)
    (threads : cfg.numThreads ≤ 8)
    (defined : m.tick cfg .idle = some next)
    (inRange : core < cfg.numCores)
    (active : (m.cores core).ctaActive = true) :
    m.firing cfg ≠ some core ∧ ∃ inGrid : blockOf core < info.gridDim.count,
      Advanced (runs.block (blockOf core) inGrid)
        ((m.cores core).progress cfg fun x => Q (blockOf core * blockSize.toNat + x))
        (next.cores core) := by
  have other : m.firing cfg ≠ some core := fun fires =>
    Bool.noConfusion (active.symm.trans (inactive_of_firing cores fires).2.2)
  obtain ⟨inGrid, ledger, work⟩ := running.atWork inRange active
  refine ⟨other, inGrid, ?_⟩
  rw [cores_of_not_firing defined inRange other]
  exact work.stepCore threads runs.accepted.fits _ _

/-- A core that has a block after the tick has just taken it or goes on with its own. -/
theorem Running.active_cases
    (running : Running runs m n blockOf Q)
    (cores : cfg.numCores ≤ 32)
    (threads : cfg.numThreads ≤ 8)
    (defined : m.tick cfg .idle = some next)
    (inRange : core < cfg.numCores)
    (active : (next.cores core).ctaActive = true) :
    (m.firing cfg = some core ∧ blocksNext cfg m n blockOf core = n) ∨
      ((m.cores core).ctaActive = true ∧ blocksNext cfg m n blockOf core = blockOf core ∧
        blockOf core < n ∧ ∃ inGrid : blockOf core < info.gridDim.count,
          Positions (runs.block (blockOf core) inGrid)
            ((m.cores core).progress cfg fun x => Q (blockOf core * blockSize.toNat + x))
            (next.cores core)) := by
  by_cases fires : m.firing cfg = some core
  · exact Or.inl ⟨fires, if_pos fires⟩
  · right
    have before : (m.cores core).ctaActive = true := by
      by_contra inactive
      rw [cores_of_inactive defined inRange fires (Bool.eq_false_of_not_eq_true inactive)] at active
      exact inactive active
    obtain ⟨_, inGrid, advanced⟩ := running.advances cores threads defined inRange before
    refine ⟨before, if_neg fires, (running.active core inRange before).1, inGrid, ?_⟩
    rcases advanced.outcome with ⟨_, positions⟩ | ⟨inactive, _⟩
    · exact positions
    · exact Bool.noConfusion (active.symm.trans inactive)

/-- Threads of blocks that are not dispatched do not move. -/
theorem Running.untouched_tick
    (running : Running runs m n blockOf Q)
    {i : Nat}
    (beyond : n * blockSize.toNat ≤ i) :
    advanced cfg blockSize m blockOf Q i = 0 := by
  rw [advanced_of_not_held, running.untouched i beyond]
  intro core inRange active same
  have held := (running.active core inRange active).1
  rw [same, Nat.div_lt_iff_lt_mul runs.accepted.size_pos] at held
  omega

/-- A tick keeps the correspondence. -/
theorem Running.tick
    (running : Running runs m n blockOf Q)
    (cores : cfg.numCores ≤ 32)
    (threads : cfg.numThreads ≤ 8)
    (defined : m.tick cfg .idle = some next) :
    Running runs next (dispatchedNext cfg m n) (blocksNext cfg m n blockOf)
      (advanced cfg blockSize m blockOf Q) := by
  obtain ⟨walk, dcr⟩ := Model.idle_tick defined
  obtain ⟨size, follows⟩ := running.follows_tick defined
  have grows : n ≤ dispatchedNext cfg m n := Nat.le_add_right _ _
  refine
    { host := running.host.tick .idle allowed_idle defined
      dcr := dcr.trans running.dcr
      size := size
      follows := follows
      bounded := fun i => ?_
      walked := ?_
      noFault := fun i inRange => ?_
      idle := fun i inRange inactive => ?_
      active := fun i inRange active => ?_
      apart := fun i j left right leftActive rightActive same => ?_
      untouched := fun i beyond => running.untouched_tick
        ((Nat.mul_le_mul_right _ grows).trans beyond)
      finished := fun b dispatched free x inBlock => ?_ }
  · rcases running.advanced_cases i with kept | ⟨moved, early, _⟩
    · rw [kept]
      exact running.bounded i
    · rw [moved]
      exact early
  · obtain ⟨fired, length, walked⟩ := running.walked
    refine ⟨fired ++ m.walk.firedBlock cfg.numCores m.coreReady, ?_, ?_⟩
    · rw [List.length_append, length, dispatchedNext, Walk.firedBlock, ← Model.firing_eq cores]
      cases m.firing cfg <;> rfl
    · have grid : m.dcr.grid = info.gridDim := by
        rw [running.dcr]
        rfl
      rw [walk]
      rw [← grid] at walked ⊢
      exact Walk.walked_dispatch walked _
  · by_cases fires : m.firing cfg = some i
    · rw [(running.accepts cores defined fires).2]
      rfl
    · cases active : (m.cores i).ctaActive with
      | true =>
          obtain ⟨_, _, advanced⟩ := running.advances cores threads defined inRange active
          exact advanced.noFault
      | false =>
          rw [cores_of_inactive defined inRange fires active]
          exact running.noFault i inRange
  · have fires : m.firing cfg ≠ some i := by
      intro fires
      rw [(running.accepts cores defined fires).2] at inactive
      exact Bool.noConfusion inactive
    cases active : (m.cores i).ctaActive with
    | true =>
        obtain ⟨_, _, advanced⟩ := running.advances cores threads defined inRange active
        rcases advanced.outcome with ⟨still, _⟩ | ⟨_, sched, _⟩
        · exact Bool.noConfusion (still.symm.trans inactive)
        · exact sched
    | false =>
        rw [cores_of_inactive defined inRange fires active]
        exact running.idle i inRange active
  · rcases running.active_cases cores threads defined inRange active with
      ⟨fires, block⟩ | ⟨before, block, held, inGrid, positions⟩
    · rw [block]
      obtain ⟨inGrid, accepted⟩ := running.accepts cores defined fires
      refine ⟨?_, inGrid, ?_⟩
      · rw [dispatchedNext, fires]
        exact Nat.lt_succ_self n
      · rw [accepted]
        exact positions_acceptCta (by omega)
          (fun x _ => running.untouched_tick (Nat.le_add_right _ x)) _
    · rw [block]
      refine ⟨held.trans_le grows, inGrid, positions.congr fun x inBlock => ?_⟩
      exact running.advanced_of_core inRange before inBlock
  · rcases running.active_cases cores threads defined left leftActive with
      ⟨leftFires, leftBlock⟩ | ⟨leftBefore, leftBlock, leftHeld, _⟩
    · rcases running.active_cases cores threads defined right rightActive with
        ⟨rightFires, _⟩ | ⟨_, rightBlock, rightHeld, _⟩
      · exact Option.some.inj (leftFires.symm.trans rightFires)
      · omega
    · rcases running.active_cases cores threads defined right rightActive with
        ⟨_, rightBlock⟩ | ⟨rightBefore, rightBlock, _⟩
      · omega
      · exact running.apart i j left right leftBefore rightBefore (by omega)
  · by_cases held : ∃ i, i < cfg.numCores ∧ (m.cores i).ctaActive = true ∧ blockOf i = b
    · obtain ⟨i, inRange, active, rfl⟩ := held
      obtain ⟨other, inGrid, advanced⟩ := running.advances cores threads defined inRange active
      rw [running.advanced_of_core inRange active inBlock]
      rcases advanced.outcome with ⟨still, _⟩ | ⟨_, _, done⟩
      · exact absurd (if_neg other) (free i inRange still)
      · exact done x inBlock
    · have nobody : ∀ i, i < cfg.numCores → (m.cores i).ctaActive = true → blockOf i ≠ b :=
        fun i inRange active same => held ⟨i, inRange, active, same⟩
      have before : b < n := by
        by_contra late
        cases fires : m.firing cfg with
        | none =>
            rw [dispatchedNext, fires] at dispatched
            exact late dispatched
        | some core =>
            rw [dispatchedNext, fires] at dispatched
            have last : b = n := by
              have bound : b < n + 1 := dispatched
              omega
            refine free core (Model.firing_lt fires) ?_ ?_
            · rw [(running.accepts cores defined fires).2]
              rfl
            · rw [last]
              exact if_pos fires
      obtain ⟨quotient, _⟩ := Iss.thread_div_mod b inBlock
      rw [advanced_of_not_held (by rwa [quotient])]
      exact running.finished b before nobody x inBlock

end Running

end OpenGPU
