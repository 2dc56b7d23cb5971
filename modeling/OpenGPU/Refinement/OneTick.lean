import OpenGPU.Refinement.LaunchThreads

/-!
# One tick of a launch

A tick moves, on every core at once, some lanes of the block that the core holds. All of
them read the memory before the tick, and what they store does not meet.
-/

namespace OpenGPU

open Instruction

/-! ## The stores of a tick -/

/-- A store that puts `y` at `a`. -/
def Store.Puts (cfg : Config) (s : Store) (a : Word) (y : Byte) : Prop :=
  ∀ p, (Model.storeRef cfg (ShadowMemory.of cfg p) s).bytes a = y

/-- A store that leaves `a` alone. -/
def Store.Skips (cfg : Config) (s : Store) (a : Word) : Prop :=
  ∀ p, (Model.storeRef cfg (ShadowMemory.of cfg p) s).bytes a = p a

/-- Stores in a row put a byte in a place where some of them put it and no other puts
anything else. -/
theorem foldl_storeRef
    {cfg : Config}
    {stores : List Store}
    (whole : ∀ s ∈ stores, ∀ p, Model.storeRef cfg (ShadowMemory.of cfg p) s =
      ShadowMemory.of cfg (Model.storeRef cfg (ShadowMemory.of cfg p) s).bytes)
    (p : Pmem) :
    ∃ p', stores.foldl (Model.storeRef cfg) (ShadowMemory.of cfg p) = ShadowMemory.of cfg p' ∧
      ∀ a y, (∀ s ∈ stores, s.Puts cfg a y ∨ s.Skips cfg a) →
        p a = y ∨ (∃ s ∈ stores, s.Puts cfg a y) → p' a = y := by
  induction stores generalizing p with
  | nil =>
      refine ⟨p, rfl, fun a y _ here => here.resolve_right ?_⟩
      rintro ⟨_, member, _⟩
      exact List.not_mem_nil member
  | cons s stores inductionHypothesis =>
      obtain ⟨p', folded, kept⟩ := inductionHypothesis
        (fun s member => whole s (List.mem_cons_of_mem _ member))
        (Model.storeRef cfg (ShadowMemory.of cfg p) s).bytes
      refine ⟨p', ?_, fun a y only here => ?_⟩
      · rw [List.foldl_cons, whole s List.mem_cons_self, folded]
      · apply kept a y fun s member => only s (List.mem_cons_of_mem _ member)
        rcases only s List.mem_cons_self with puts | skips
        · exact Or.inl (puts p)
        · rcases here with before | ⟨other, member, puts⟩
          · exact Or.inl ((skips p).trans before)
          · rcases List.mem_cons.mp member with rfl | later
            · exact Or.inl (puts p)
            · exact Or.inr ⟨other, later, puts⟩

/-! ## A launch under way -/

section Running

variable {cfg : Config} {info : LaunchInfo} {blockSize : Word}

/-- The cycle model has dispatched `n` blocks, core `i` holds block `blockOf i`, and
thread `i` has executed `Q i` instructions. -/
structure Running (runs : LaunchRuns cfg info blockSize) (m : Model) (n : Nat)
    (blockOf Q : Nat → Nat) : Prop where
  host : Model.HostRun cfg (32 * cfg.numThreads) m
  dcr : m.dcr = info.registers blockSize
  size : m.mem.size = cfg.msize.toNat
  follows : (Iss.contexts cfg runs.start.ncores).Follows runs.start.world Q m.mem.bytes
  bounded : ∀ i, Q i ≤ runs.ends i
  walked : ∃ fired : List Dim3, fired.length = n ∧
    Dim3.Walked info.gridDim (blockSize != 0) fired m.walk.block m.walk.running
  noFault : ∀ i, i < cfg.numCores → (m.cores i).fault = false
  idle : ∀ i, i < cfg.numCores → (m.cores i).ctaActive = false → (m.cores i).state = .sched
  active : ∀ i, i < cfg.numCores → (m.cores i).ctaActive = true → blockOf i < n ∧
    ∃ inGrid : blockOf i < info.gridDim.count,
      Positions (runs.block (blockOf i) inGrid) (fun x => Q (blockOf i * blockSize.toNat + x))
        (m.cores i)
  apart : ∀ i j, i < cfg.numCores → j < cfg.numCores → (m.cores i).ctaActive = true →
    (m.cores j).ctaActive = true → blockOf i = blockOf j → i = j
  untouched : ∀ i, n * blockSize.toNat ≤ i → Q i = 0
  finished : ∀ b, b < n → (∀ i, i < cfg.numCores → (m.cores i).ctaActive = true → blockOf i ≠ b) →
    ∀ x, x < blockSize.toNat →
      Q (b * blockSize.toNat + x) = runs.ends (b * blockSize.toNat + x)

/-- What a thread of the launch touches in an instruction. -/
def LaunchRuns.touches (runs : LaunchRuns cfg info blockSize) (i k : Nat) : Footprint Word :=
  Iss.ownFootprint cfg runs.start i k

variable {runs : LaunchRuns cfg info blockSize} {m next : Model} {n core : Nat}
  {blockOf Q : Nat → Nat}

/-- The next instruction of a thread reads what it reads on its own. -/
theorem Running.reads
    (running : Running runs m n blockOf Q)
    {i : Nat}
    (early : Q i < runs.ends i) :
    Set.EqOn m.mem.bytes (Iss.own cfg runs.start i (Q i)).2 (runs.touches i (Q i)).reads := by
  refine running.follows.reads fun j other k before a stored => ?_
  exact (runs.own.isolated j i other k (before.trans_le (running.bounded j)) (Q i) early a
    stored).1

/-- A core with a block is at work on it. -/
theorem Running.atWork
    (running : Running runs m n blockOf Q)
    (inRange : core < cfg.numCores)
    (active : (m.cores core).ctaActive = true) :
    ∃ (inGrid : blockOf core < info.gridDim.count) (ledger : LaneLedger),
      AtWork (runs.block (blockOf core) inGrid)
        (fun x => Q (blockOf core * blockSize.toNat + x)) m.mem ledger (m.cores core) := by
  obtain ⟨_, inGrid, positions⟩ := running.active core inRange active
  obtain ⟨ledgers, reachable⟩ := running.host.reachable
  refine ⟨inGrid, ledgers core, ?_⟩
  exact
    { positions := positions
      conserved := reachable.conserved inRange active
      kept := reachable.core_induction Core.IssueKept (.of_sched rfl fun _ => rfl)
        (fun _ kept mem launch cid fire => kept.stepCore mem launch cid fire) inRange
      zero := reachable.zero inRange
      bounds := reachable.inBounds inRange
      active := active
      inGrid := inGrid
      size := running.size
      agrees := fun x _ early => running.reads early }

/-- The host asserts nothing. -/
theorem allowed_idle
    {largest : Nat} :
    Model.Allowed cfg largest .idle m :=
  ⟨fun writes => Bool.noConfusion writes, fun launch => Bool.noConfusion launch⟩

/-- An accepted block has extents to divide by. -/
theorem divides_of_accepted
    (accepted : info.Accepted cfg blockSize)
    {launch : LaunchRegisters}
    (dim : launch.dim = info.blockDim) :
    Model.Divides launch := by
  have x := accepted.block.x
  have y := accepted.block.y
  refine ⟨by rwa [dim], by rwa [dim], ?_⟩
  rw [dim]
  intro zero
  have small := blockSize.isLt
  rw [accepted.size] at small
  have plane : info.blockDim.x.toNat * info.blockDim.y.toNat ≤ info.blockDim.count :=
    Nat.le_mul_of_pos_right _ (Dim3.toNat_pos accepted.block.z)
  have product := congrArg BitVec.toNat zero
  rw [BitVec.toNat_mul, Nat.mod_eq_of_lt (by omega)] at product
  exact absurd product (Nat.mul_pos (Dim3.toNat_pos x) (Dim3.toNat_pos y)).ne'

/-- The next tick is defined. -/
theorem Running.exists_tick
    (running : Running runs m n blockOf Q)
    (cores : cfg.numCores ≤ 32)
    (threads : cfg.numThreads ≤ 8) :
    ∃ next, m.tick cfg .idle = some next := by
  refine Model.exists_tick rfl cores ?_ fun _ => ?_
  · exact ((Model.faithfulSets_of_le cores (by omega) le_rfl).step m running.host .idle
      allowed_idle).defined
  · refine divides_of_accepted runs.accepted ?_
    show m.dcr.dim = _
    rw [running.dcr]
    rfl

/-- The dispatcher has no more blocks than the grid. -/
theorem Running.le_count
    (running : Running runs m n blockOf Q) :
    n ≤ info.gridDim.count := by
  obtain ⟨fired, length, walked⟩ := running.walked
  have taken := congrArg List.length walked.inOrder
  rw [List.length_take, Dim3.length_blocks] at taken
  omega

/-! ## Progress of all threads -/

open Classical in
/-- How many instructions each thread has executed after the next tick. -/
noncomputable def advanced (cfg : Config) (blockSize : Word) (m : Model) (blockOf Q : Nat → Nat)
    (i : Nat) : Nat :=
  if held : ∃ core, core < cfg.numCores ∧ (m.cores core).ctaActive = true ∧
      blockOf core = i / blockSize.toNat then
    (m.cores held.choose).progress cfg
      (fun x => Q (blockOf held.choose * blockSize.toNat + x)) (i % blockSize.toNat)
  else Q i

/-- The threads of a block that a core holds do what the core does. -/
theorem Running.advanced_of_core
    (running : Running runs m n blockOf Q)
    (inRange : core < cfg.numCores)
    (active : (m.cores core).ctaActive = true)
    {x : Nat}
    (inBlock : x < blockSize.toNat) :
    advanced cfg blockSize m blockOf Q (blockOf core * blockSize.toNat + x) =
      (m.cores core).progress cfg (fun x => Q (blockOf core * blockSize.toNat + x)) x := by
  obtain ⟨quotient, remainder⟩ := Iss.thread_div_mod (blockOf core) inBlock
  have held : ∃ other, other < cfg.numCores ∧ (m.cores other).ctaActive = true ∧
      blockOf other = (blockOf core * blockSize.toNat + x) / blockSize.toNat :=
    ⟨core, inRange, active, quotient.symm⟩
  obtain ⟨bound, works, same⟩ := held.choose_spec
  have here : held.choose = core :=
    running.apart _ _ bound inRange works active (same.trans quotient)
  rw [advanced, dif_pos held, here, remainder]

/-- The threads of the other blocks wait. -/
theorem advanced_of_not_held
    {i : Nat}
    (nobody : ∀ core, core < cfg.numCores → (m.cores core).ctaActive = true →
      blockOf core ≠ i / blockSize.toNat) :
    advanced cfg blockSize m blockOf Q i = Q i := by
  refine dif_neg ?_
  rintro ⟨core, inRange, active, same⟩
  exact nobody core inRange active same

/-- A thread stays where it is, or its core moves it by one instruction. -/
theorem Running.advanced_cases
    (running : Running runs m n blockOf Q)
    (i : Nat) :
    advanced cfg blockSize m blockOf Q i = Q i ∨
      (advanced cfg blockSize m blockOf Q i = Q i + 1 ∧ Q i < runs.ends i ∧
        ∃ core x, core < cfg.numCores ∧ (m.cores core).ctaActive = true ∧ x < blockSize.toNat ∧
          i = blockOf core * blockSize.toNat + x ∧
          (m.cores core).progress cfg (fun x => Q (blockOf core * blockSize.toNat + x)) x =
            Q i + 1) := by
  by_cases held : ∃ core, core < cfg.numCores ∧ (m.cores core).ctaActive = true ∧
      blockOf core = i / blockSize.toNat
  · obtain ⟨core, inRange, active, same⟩ := held
    have place : blockOf core * blockSize.toNat + i % blockSize.toNat = i := by
      rw [same, Nat.div_add_mod']
    have inBlock := Nat.mod_lt i runs.accepted.size_pos
    have moves := running.advanced_of_core inRange active inBlock
    obtain ⟨inGrid, ledger, work⟩ := running.atWork inRange active
    rw [place] at moves
    rcases work.progress_cases (i % blockSize.toNat) with kept | ⟨next, _, early⟩
    · rw [moves, kept, place]
      exact Or.inl rfl
    · rw [place] at next
      have early : Q (blockOf core * blockSize.toNat + i % blockSize.toNat) <
          runs.ends (blockOf core * blockSize.toNat + i % blockSize.toNat) := early
      rw [place] at early
      exact Or.inr ⟨moves.trans next, early, core, _, inRange, active, inBlock, place.symm, next⟩
  · refine Or.inl (advanced_of_not_held fun core inRange active same => held ?_)
    exact ⟨core, inRange, active, same⟩

/-! ## The memory after a tick -/

/-- What a core presents to the memory is the store of a thread of its block that is moved. -/
theorem Running.captured
    (running : Running runs m n blockOf Q)
    (inRange : core < cfg.numCores)
    {s : Store}
    (captured : Model.captureStore cfg (m.cores core) = some s) :
    (m.cores core).ctaActive = true ∧ ∃ i, i / blockSize.toNat = blockOf core ∧
      advanced cfg blockSize m blockOf Q i = Q i + 1 ∧ Q i < runs.ends i ∧
      Stores cfg s (runs.touches i (Q i)).stores (Iss.own cfg runs.start i (Q i + 1)).2 := by
  have active : (m.cores core).ctaActive = true := by
    unfold Model.captureStore at captured
    split_ifs at captured with presents
    exact presents.1
  obtain ⟨inGrid, ledger, work⟩ := running.atWork inRange active
  obtain ⟨x, inBlock, next, stores⟩ := work.captured captured
  have moves := running.advanced_of_core inRange active inBlock
  have early : Q (blockOf core * blockSize.toNat + x) <
      runs.ends (blockOf core * blockSize.toNat + x) := by
    rcases work.progress_cases x with kept | ⟨_, _, early⟩
    · omega
    · exact early
  exact ⟨active, _, (Iss.thread_div_mod _ inBlock).1, moves.trans next, early, stores⟩

/-- A store of the tick is the store of a thread that is moved. -/
theorem Running.store_cases
    (running : Running runs m n blockOf Q)
    {s : Store}
    (member : s ∈ m.expectedStores cfg) :
    ∃ i, advanced cfg blockSize m blockOf Q i = Q i + 1 ∧ Q i < runs.ends i ∧
      Stores cfg s (runs.touches i (Q i)).stores (Iss.own cfg runs.start i (Q i + 1)).2 := by
  rw [Model.expectedStores, List.mem_mergeSort, List.mem_filterMap] at member
  obtain ⟨core, listed, captured⟩ := member
  obtain ⟨_, i, _, moved⟩ := running.captured (List.mem_range.mp listed) captured
  exact ⟨i, moved⟩

/-- A thread that is moved stores nothing, or its store is one of the tick. -/
theorem Running.moved_cases
    (running : Running runs m n blockOf Q)
    {i : Nat}
    (moved : advanced cfg blockSize m blockOf Q i = Q i + 1) :
    (runs.touches i (Q i)).stores = ∅ ∨
      ∃ s ∈ m.expectedStores cfg,
        Stores cfg s (runs.touches i (Q i)).stores (Iss.own cfg runs.start i (Q i + 1)).2 := by
  rcases running.advanced_cases i with kept | ⟨_, _, core, x, inRange, active, inBlock, rfl, next⟩
  · omega
  · obtain ⟨inGrid, ledger, work⟩ := running.atWork inRange active
    rcases work.silent_or_captured next with silent | ⟨s, captured, stores⟩
    · exact Or.inl silent
    · refine Or.inr ⟨s, ?_, stores⟩
      rw [Model.expectedStores, List.mem_mergeSort, List.mem_filterMap]
      exact ⟨core, List.mem_range.mpr inRange, captured⟩

/-- The memory after the tick shows every thread what it sees on its own. -/
theorem Running.follows_tick
    (running : Running runs m n blockOf Q)
    (defined : m.tick cfg .idle = some next) :
    next.mem.size = cfg.msize.toNat ∧
      (Iss.contexts cfg runs.start.ncores).Follows runs.start.world
        (advanced cfg blockSize m blockOf Q) next.mem.bytes := by
  have whole : m.mem = ShadowMemory.of cfg m.mem.bytes := by
    rw [ShadowMemory.of, ← running.size]
  obtain ⟨after, folded, puts⟩ := @foldl_storeRef cfg (m.expectedStores cfg)
    (fun s member => by
      obtain ⟨i, _, _, stores⟩ := running.store_cases member
      exact stores.size) m.mem.bytes
  have mem : next.mem = ShadowMemory.of cfg after := by
    rcases Model.tick_eq_some defined with ⟨reset, _⟩ | ⟨_, result, _⟩
    · exact Bool.noConfusion reset
    · rw [result, ← folded, ← whole]
      rfl
  rw [mem]
  refine ⟨rfl, running.follows.advance (fun i => ?_) (fun i => ?_) (fun i moved a stored => ?_)
    fun a free => ?_⟩
  · rcases running.advanced_cases i with kept | ⟨moved, _⟩
    · exact Or.inl kept
    · exact Or.inr moved
  · refine (runs.own.follows.makes i).of_le ?_
    rcases running.advanced_cases i with kept | ⟨moved, early, _⟩
    · rw [kept]
      exact running.bounded i
    · rw [moved]
      exact early
  · -- the store of this thread, and no other one at this place
    have early : Q i < runs.ends i := by
      rcases running.advanced_cases i with kept | ⟨_, early, _⟩
      · omega
      · exact early
    refine puts a _ (fun s member => ?_) (Or.inr ?_)
    · obtain ⟨j, _, before, stores⟩ := running.store_cases member
      by_cases here : a ∈ (runs.touches j (Q j)).stores
      · left
        obtain rfl : j = i := by
          by_contra other
          exact (runs.own.isolated j i other (Q j) before (Q i) early a here).2 stored
        exact fun p => stores.inside p a here
      · exact Or.inr fun p => stores.outside p a here
    · rcases running.moved_cases moved with silent | ⟨s, member, stores⟩
      · have stored : a ∈ (runs.touches i (Q i)).stores := stored
        rw [silent] at stored
        exact absurd stored (Set.notMem_empty a)
      · exact ⟨s, member, fun p => stores.inside p a stored⟩
  · refine puts a _ (fun s member => Or.inr fun p => ?_) (Or.inl rfl)
    obtain ⟨j, moved, _, stores⟩ := running.store_cases member
    exact stores.outside p a (free j moved)

end Running

end OpenGPU
