import OpenGPU.Lockstep.LanePositions

/-!
# A core follows its lanes

One step of a core that works on a block moves some of its issued lanes one instruction
further along their own runs and leaves the other lanes where they stand. A fault would
need a lane that faults on its own, or lanes of one path with different targets.
-/

namespace OpenGPU

open Instruction

namespace Core

/-- Lane `t` completes its instruction in the next step. -/
def completes (c : Core) (t : Nat) : Bool :=
  hasLane c.im t &&
    match c.state with
    | .exec => !(opcode c.inst == 0x03 || opcode c.inst == 0x23)
    | .memReq => t == c.mt && opcode c.inst == 0x23
    | .memResp => t == c.mt && opcode c.inst == 0x03
    | _ => false

/-- How many instructions each context has executed after the next step. -/
def progress (cfg : Config) (c : Core) (q : Nat → Nat) (x : Nat) : Nat :=
  match laneOf (c.iw * cfg.numThreads) cfg.numThreads x with
  | some t => q x + (c.completes t).toNat
  | none => q x

section Progress

variable {cfg : Config} {c : Core} {q : Nat → Nat} {t : Nat}

theorem progress_context
    (lane : t < cfg.numThreads) :
    c.progress cfg q (c.context cfg t) = q (c.context cfg t) + (c.completes t).toNat := by
  have own : laneOf (c.iw * cfg.numThreads) cfg.numThreads (c.context cfg t) = some t :=
    laneOf_eq_some_iff.mpr ⟨lane, rfl⟩
  rw [progress, own]

/-- A step in which no lane completes an instruction. -/
theorem progress_of_none
    (nobody : ∀ t, c.completes t = false) :
    c.progress cfg q = q := by
  funext x
  unfold progress
  cases laneOf (c.iw * cfg.numThreads) cfg.numThreads x with
  | none => rfl
  | some t =>
      show q x + (c.completes t).toNat = q x
      rw [nobody]
      rfl

/-- Only issued lanes make progress. -/
theorem progress_cases
    (x : Nat) :
    c.progress cfg q x = q x ∨
      ∃ t, t < cfg.numThreads ∧ x = c.context cfg t ∧ c.completes t = true ∧
        c.progress cfg q x = q x + 1 := by
  unfold progress
  cases owner : laneOf (c.iw * cfg.numThreads) cfg.numThreads x with
  | none => exact Or.inl rfl
  | some t =>
      obtain ⟨lane, here⟩ := laneOf_eq_some_iff.mp owner
      dsimp only
      cases completes : c.completes t with
      | false => exact Or.inl rfl
      | true => exact Or.inr ⟨t, lane, here, completes, rfl⟩

theorem hasLane_of_completes
    (completes : c.completes t = true) :
    hasLane c.im t = true :=
  (Bool.and_eq_true_iff.mp completes).1

/-- Progress leaves the lanes that are not issued alone. -/
theorem othersKept_progress
    {c' : Core}
    (registers : ∀ x, (∀ t ∈ c.activeLanes cfg, x ≠ c.context cfg t) → c'.gpr x = c.gpr x) :
    OthersKept cfg c c' q (c.progress cfg q) := by
  intro x idle
  refine ⟨registers x fun t issued => ?_, ?_⟩
  · obtain ⟨lane, present⟩ := Core.mem_activeLanes.mp issued
    exact idle t lane present
  · rcases @progress_cases cfg c q x with same | ⟨t, lane, here, completes, _⟩
    · exact same
    · exact absurd here (idle t lane (hasLane_of_completes completes))

end Progress

end Core

/-- A core at work on block `b`, on a memory that shows every lane what it sees on its
own. -/
structure AtWork {cfg : Config} {info : LaunchInfo} {blockSize : Word} {b : Nat}
    (runs : LaneRuns cfg info blockSize b) (q : Nat → Nat) (mem : ShadowMemory)
    (ledger : LaneLedger) (c : Core) : Prop where
  positions : Positions runs q c
  conserved : c.WarpsConserved cfg ledger
  kept : c.IssueKept
  zero : ∀ x, c.gpr x 0 = 0
  bounds : c.InBounds cfg
  active : c.ctaActive = true
  inGrid : b < info.gridDim.count
  size : mem.size = cfg.msize.toNat
  agrees : ∀ x, x < blockSize.toNat → q x < runs.ends x →
    Set.EqOn mem.bytes (runs.mem x (q x)) (runs.touches x (q x)).reads

/-- An issued lane that is not served yet, and the instruction before it. -/
structure Pending {cfg : Config} {info : LaunchInfo} {blockSize : Word} {b : Nat}
    (runs : LaneRuns cfg info blockSize b) (q : Nat → Nat) (c : Core) (t : Nat) : Prop where
  lane : t < cfg.numThreads
  stands : Stands runs q c (c.context cfg t) (q (c.context cfg t)) c.ip
  same : ∀ cid, LaneIs cfg cid c t (runs.core (c.context cfg t) (q (c.context cfg t)))
  moved : Iss.cleanStep cfg (runs.core (c.context cfg t) (q (c.context cfg t)))
    (runs.mem (c.context cfg t) (q (c.context cfg t))) =
      some (runs.core (c.context cfg t) (q (c.context cfg t) + 1),
        runs.mem (c.context cfg t) (q (c.context cfg t) + 1))
  word : c.state ≠ .fetch → runs.word (c.context cfg t) (q (c.context cfg t)) = c.inst

section AtWork

variable {cfg : Config} {info : LaunchInfo} {blockSize : Word} {b : Nat}
  {runs : LaneRuns cfg info blockSize b} {q : Nat → Nat} {mem : ShadowMemory}
  {ledger : LaneLedger} {c : Core} {t : Nat}

theorem AtWork.pending
    (work : AtWork runs q mem ledger c)
    (issued : c.state ≠ .sched)
    (present : hasLane c.im t = true)
    (unserved : ¬c.Served t) :
    Pending runs q c t := by
  obtain ⟨count, all⟩ := work.positions.issued issued
  obtain ⟨lane, -, before⟩ := all t present
  obtain ⟨stands, word⟩ := before unserved
  obtain rfl := stands.executed
  exact
    { lane := lane
      stands := stands
      same := fun cid => stands.laneIs work.inGrid cid work.positions.cta lane
      moved := runs.moves _ _ stands.inBlock stands.awake
      word := word }

/-- Outside the memory states no lane has been served. -/
theorem Core.not_served
    (outside : ¬c.InMemory) :
    ¬c.Served t :=
  fun served => outside served.1

/-- Some lane is issued. -/
theorem AtWork.exists_issued
    (work : AtWork runs q mem ledger c)
    (issued : c.state ≠ .sched) :
    ∃ t, hasLane c.im t = true :=
  ne_zero_iff_hasLane.mp (work.conserved.paths_issued work.kept issued).2.1

/-! ## Choosing and fetching -/

/-- Registers and counts decide where lanes stand. -/
theorem OnPath.congr
    {c' : Core}
    {w : Nat}
    {path : Word × Word}
    (onPath : OnPath runs q c w path)
    (registers : c'.gpr = c.gpr) :
    OnPath runs q c' w path := by
  obtain ⟨count, all⟩ := onPath
  refine ⟨count, fun t member => ?_⟩
  obtain ⟨lane, stands⟩ := all t member
  exact ⟨lane, stands.frame (congrFun registers _) rfl⟩

/-- The issue of a warp. -/
theorem AtWork.schedule
    (work : AtWork runs q mem ledger c)
    (sched : c.state = .sched)
    (survives : (Core.schedule cfg c).ctaActive = true) :
    Positions runs q (Core.schedule cfg c) := by
  have all : ∀ w, w < cfg.numWarps → ∀ path ∈ c.paths w, OnPath runs q c w path :=
    fun w inRange => work.positions.waiting w inRange fun moved => absurd sched moved
  unfold Core.schedule at survives ⊢
  cases found : circularFirst cfg.numWarps c.rr c.valid with
  | none =>
      rw [found] at survives
      exact absurd survives Bool.false_ne_true
  | some sel =>
      have inRange := circularFirst_lt found
      have valid := circularFirst_ready found
      have whole : c.paths sel = (c.pc sel, c.mask sel) :: c.deferred sel := if_pos valid
      refine ⟨work.positions.cta, fun w bound _ path member => (all w bound path member).congr rfl,
        fun _ path member => (all sel inRange path ?_).congr rfl, fun _ => ?_,
        fun moved => ?_, fun moved => CoreState.noConfusion moved, work.positions.ended⟩
      · rw [whole]
        exact List.mem_cons_of_mem _ member
      · obtain ⟨count, stand⟩ := all sel inRange (c.pc sel, c.mask sel) (by
          rw [whole]
          exact List.mem_cons_self)
        refine ⟨count, fun t member => ⟨(stand t member).1, fun served => ?_, fun _ =>
          ⟨(stand t member).2.frame rfl rfl, fun moved => absurd rfl moved⟩⟩⟩
        rcases served.1 with moved | moved <;> exact CoreState.noConfusion moved
      · rcases moved with moved | moved <;> exact CoreState.noConfusion moved

/-- A core without a valid warp has brought all its lanes to their ends. -/
theorem AtWork.finished
    (work : AtWork runs q mem ledger c)
    (fits : blockSize.toNat ≤ cfg.contexts)
    (invalid : ∀ w, w < cfg.numWarps → c.valid w = false)
    {x : Nat}
    (inBlock : x < blockSize.toNat) :
    q x = runs.ends x := by
  have split := Nat.div_add_mod' x cfg.numThreads
  have lane := Nat.mod_lt x cfg.numThreads_pos
  have warp : x / cfg.numThreads < cfg.numWarps := by
    apply Nat.div_lt_of_lt_mul
    have count : cfg.contexts = cfg.numWarps * cfg.numThreads := rfl
    rw [Nat.mul_comm]
    omega
  have here := work.positions.ended (x / cfg.numThreads) (x % cfg.numThreads) warp
    ⟨lane, by rwa [split]⟩ fun path member => by
      rw [Core.paths, invalid _ warp, if_neg Bool.false_ne_true] at member
      exact absurd member List.not_mem_nil
  rwa [split] at here

/-- A word inside the memory. -/
theorem load32_eq_wordAt
    {addr : Word}
    (inside : BytesInPmem cfg addr 4)
    (size : mem.size = cfg.msize.toNat) :
    load32 cfg mem addr = Iss.wordAt mem.bytes addr := by
  have first := (inPmem_iff cfg _).mp (inside 0 (by decide))
  have second := (inPmem_iff cfg _).mp (inside 1 (by decide))
  have third := (inPmem_iff cfg _).mp (inside 2 (by decide))
  have last := (inPmem_iff cfg _).mp (inside 3 (by decide))
  have window := cfg.msize.isLt
  simp only [BitVec.toNat_add, BitVec.toNat_ofNat] at first second third last
  rw [load32, if_neg]
  · rfl
  · rw [size, BitVec.lt_def]
    omega

/-- The fetch of a core gives every issued lane the word that it executes on its own. -/
theorem AtWork.fetched
    (work : AtWork runs q mem ledger c)
    (pending : Pending runs q c t) :
    runs.word (c.context cfg t) (q (c.context cfg t)) = load32 cfg mem c.ip := by
  have inside := (Iss.legal_of_cleanStep pending.moved).1
  have agree := work.agrees _ pending.stands.inBlock pending.stands.awake
  rw [pending.stands.address] at inside
  rw [load32_eq_wordAt inside work.size, LaneRuns.word, ← pending.stands.address]
  exact (Iss.wordAt_congr (agree.mono Set.subset_union_left)).symm

/-- The fetch. -/
theorem AtWork.fetch
    (work : AtWork runs q mem ledger c)
    (fetch : c.state = .fetch) :
    Positions runs q { c with inst := load32 cfg mem c.ip, state := .exec } := by
  have issued : c.state ≠ .sched := by
    rw [fetch]
    exact CoreState.noConfusion
  have outside : ¬c.InMemory := by
    rintro (moved | moved) <;> exact CoreState.noConfusion (fetch.symm.trans moved)
  refine work.positions.within work.conserved work.kept issued (fun _ _ => ⟨rfl, rfl⟩) rfl
    (fun moved => CoreState.noConfusion moved) rfl rfl rfl ?_ ?_
    fun moved => CoreState.noConfusion moved
  · obtain ⟨count, all⟩ := work.positions.issued issued
    refine ⟨count, fun t present => ?_⟩
    have pending := work.pending issued present (Core.not_served outside)
    obtain ⟨lane, -, before⟩ := all t present
    have stands := (before (Core.not_served outside)).1
    refine ⟨lane, fun served => ?_, fun _ => ⟨stands.frame rfl rfl, fun _ => ?_⟩⟩
    · rcases served.1 with moved | moved <;> exact CoreState.noConfusion moved
    · rw [← stands.executed]
      exact work.fetched pending
  · rintro (moved | moved) <;> exact CoreState.noConfusion moved

/-! ## Executing -/

/-- In `EXEC` no lane has been served. -/
theorem Core.not_inMemory_of_exec
    (exec : c.state = .exec) :
    ¬c.InMemory := by
  rintro (moved | moved) <;> exact CoreState.noConfusion (exec.symm.trans moved)

theorem Core.ne_sched_of_exec
    (exec : c.state = .exec) :
    c.state ≠ .sched := by
  rw [exec]
  exact CoreState.noConfusion

/-- The lanes that complete their instruction together stand together behind it. -/
theorem AtWork.onPath_next
    (work : AtWork runs q mem ledger c)
    (exec : c.state = .exec)
    {c' : Core}
    {next mask : Word}
    (issued : ∀ t, hasLane mask t = true → hasLane c.im t = true ∧ c.completes t = true)
    (after : ∀ t, hasLane mask t = true → Pending runs q c t →
      (runs.core (c.context cfg t) (q (c.context cfg t) + 1)).halted = false ∧
        (runs.core (c.context cfg t) (q (c.context cfg t) + 1)).pc = next ∧
        ∀ r, r < 16 → (runs.core (c.context cfg t) (q (c.context cfg t) + 1)).gpr r =
          c'.gpr (c.context cfg t) r) :
    OnPath runs (c.progress cfg q) c' c.iw (next, mask) := by
  have notSched := Core.ne_sched_of_exec exec
  have unserved : ∀ t, ¬c.Served t := fun t => Core.not_served (Core.not_inMemory_of_exec exec)
  obtain ⟨count, all⟩ := work.positions.issued notSched
  refine ⟨count + 1, fun t member => ?_⟩
  obtain ⟨present, completes⟩ := issued t member
  obtain ⟨lane, -, before⟩ := all t present
  have stands := (before (unserved t)).1
  obtain ⟨awake, address, registers⟩ := after t member (work.pending notSched present (unserved t))
  rw [stands.executed] at awake address registers
  refine ⟨lane, stands.step ?_ awake address registers⟩
  rw [Core.progress_context lane, completes]
  rfl

/-- The word in `EXEC` passes the register check. -/
theorem AtWork.legal
    (work : AtWork runs q mem ledger c)
    (exec : c.state = .exec) :
    badRegister c.inst = false := by
  have notSched := Core.ne_sched_of_exec exec
  obtain ⟨t, present⟩ := work.exists_issued notSched
  have pending := work.pending notSched present (Core.not_served (Core.not_inMemory_of_exec exec))
  have checked := (Iss.legal_of_cleanStep pending.moved).2
  rwa [← pending.word (by rw [exec]; exact CoreState.noConfusion)]

/-- A word that is no load or store is completed by all issued lanes. -/
theorem Core.completes_of_exec
    (exec : c.state = .exec)
    (noMemory : ¬(opcode c.inst = 0x03 ∨ opcode c.inst = 0x23))
    (present : hasLane c.im t = true) :
    c.completes t = true := by
  rw [not_or] at noMemory
  rw [Core.completes, present, exec, beq_false_of_ne noMemory.1, beq_false_of_ne noMemory.2]
  rfl

/-- A load or store goes on to the memory states. -/
theorem AtWork.toMemory
    (work : AtWork runs q mem ledger c)
    (exec : c.state = .exec)
    (memory : opcode c.inst = 0x03 ∨ opcode c.inst = 0x23) :
    Positions runs (c.progress cfg q) { c with mt := 0, state := .memReq } := by
  have issued := Core.ne_sched_of_exec exec
  have unserved : ∀ t, ¬c.Served t := fun t => Core.not_served (Core.not_inMemory_of_exec exec)
  have nobody : c.progress cfg q = q := by
    apply Core.progress_of_none
    intro t
    rw [Core.completes, exec]
    rcases memory with code | code <;> rw [code] <;> exact Bool.and_false _
  rw [nobody]
  refine work.positions.within work.conserved work.kept issued (fun _ _ => ⟨rfl, rfl⟩) rfl
    (fun moved => CoreState.noConfusion moved) rfl rfl rfl ?_ (fun _ => memory)
    fun moved => CoreState.noConfusion moved
  obtain ⟨count, all⟩ := work.positions.issued issued
  refine ⟨count, fun t present => ?_⟩
  obtain ⟨lane, -, before⟩ := all t present
  obtain ⟨stands, word⟩ := before (unserved t)
  refine ⟨lane, fun served => ?_, fun _ => ⟨stands.frame rfl rfl, fun _ => ?_⟩⟩
  · rcases served.2 with early | ⟨_, moved, _⟩
    · exact absurd early (Nat.not_lt_zero t)
    · exact CoreState.noConfusion moved
  · exact word (by rw [exec]; exact CoreState.noConfusion)

/-- What `EBREAK` leaves on the path stacks. -/
theorem Core.paths_execEbreak
    (cfg : Config)
    (valid : c.valid c.iw = true) :
    (Core.execEbreak cfg c).paths c.iw = c.deferred c.iw ∧
      ∀ w, w ≠ c.iw → (Core.execEbreak cfg c).paths w = c.paths w := by
  constructor
  · cases depth : c.sp c.iw with
    | zero => simp [execEbreak, nextWarp, paths, deferred, deferredPaths, depth]
    | succ s =>
        simp [execEbreak, nextWarp, popPath, setPath, paths, deferred, deferredPaths, depth, valid]
  · intro w other
    by_cases empty : c.sp c.iw = 0 <;>
      simp [execEbreak, nextWarp, popPath, setPath, paths, deferred, empty,
        Function.update_of_ne other]

/-- `EBREAK` brings the issued lanes to their ends. -/
theorem AtWork.execEbreak
    (work : AtWork runs q mem ledger c)
    (exec : c.state = .exec)
    (word : c.inst = ebreak) :
    Positions runs (c.progress cfg q) (Core.execEbreak cfg c) := by
  have issued := Core.ne_sched_of_exec exec
  have noMemory : ¬(opcode c.inst = 0x03 ∨ opcode c.inst = 0x23) := by
    rw [word]
    decide
  obtain ⟨own, others⟩ := Core.paths_execEbreak cfg (work.conserved.issued issued).2.1
  have registers : (Core.execEbreak cfg c).gpr = c.gpr := by
    unfold Core.execEbreak
    split_ifs <;> rfl
  refine work.positions.regroup work.conserved work.kept issued
    (Core.othersKept_progress fun x _ => congrFun registers x) (Core.cta_execEbreak cfg c) rfl others
    [] own (fun _ member => absurd member List.not_mem_nil) fun t lane present _ => ?_
  have pending := work.pending issued present (Core.not_served (Core.not_inMemory_of_exec exec))
  have here := pending.word (by rw [exec]; exact CoreState.noConfusion)
  rw [word] at here
  have stopped := (LaneIs.ebreak pending.moved here).2
  rw [Core.progress_context lane, Core.completes_of_exec exec noMemory present]
  exact runs.eq_ends pending.stands.inBlock pending.stands.awake stopped

/-- A current path that is rewritten. -/
theorem Core.paths_setPath
    (cfg : Config)
    (valid : c.valid c.iw = true)
    (pc mask : Word) :
    (Core.nextWarp cfg (c.setPath pc mask)).paths c.iw = [(pc, mask)] ++ c.deferred c.iw ∧
      ∀ w, w ≠ c.iw → (Core.nextWarp cfg (c.setPath pc mask)).paths w = c.paths w := by
  constructor
  · simp [nextWarp, setPath, paths, deferred, valid]
  · intro w other
    simp [nextWarp, setPath, paths, deferred, Function.update_of_ne other]

/-- A current path that is split in two. -/
theorem Core.paths_split
    (cfg : Config)
    (valid : c.valid c.iw = true)
    (pc mask pushed pushedMask : Word) :
    (Core.nextWarp cfg ((c.pushPath pushed pushedMask).setPath pc mask)).paths c.iw =
        [(pc, mask), (pushed, pushedMask)] ++ c.deferred c.iw ∧
      ∀ w, w ≠ c.iw →
        (Core.nextWarp cfg ((c.pushPath pushed pushedMask).setPath pc mask)).paths w =
          c.paths w := by
  constructor
  · simp [nextWarp, pushPath, setPath, paths, deferred, deferredPaths, deferredPaths_update, valid]
  · intro w other
    simp [nextWarp, pushPath, setPath, paths, deferred, Function.update_of_ne other]

/-- A lane that takes a branch, and one that does not. -/
theorem Core.hasLane_takenMask :
    hasLane (c.takenMask cfg) t = true →
      hasLane c.im t = true ∧ c.laneTakes cfg t = true := by
  intro taken
  rw [takenMask, hasLane_collectLanes] at taken
  simp only [Bool.and_eq_true] at taken
  exact taken.2

theorem Core.hasLane_fallMask :
    hasLane (c.fallMask cfg) t = true →
      hasLane c.im t = true ∧ c.laneTakes cfg t = false := by
  intro fall
  rw [fallMask, hasLane_collectLanes] at fall
  simp only [Bool.and_eq_true, Bool.not_eq_true'] at fall
  exact fall.2

/-- The lanes of a branch go on where they go on their own. -/
theorem AtWork.execBranch
    (work : AtWork runs q mem ledger c)
    (threads : cfg.numThreads ≤ 8)
    (exec : c.state = .exec)
    (code : opcode c.inst = 0x63) :
    Positions runs (c.progress cfg q) (Core.execBranch cfg c) ∧
      (Core.execBranch cfg c).ctaActive = true := by
  have issued := Core.ne_sched_of_exec exec
  have unserved : ∀ t, ¬c.Served t := fun t => Core.not_served (Core.not_inMemory_of_exec exec)
  have valid := (work.conserved.issued issued).2.1
  have noMemory : ¬(opcode c.inst = 0x03 ∨ opcode c.inst = 0x23) := by
    rw [code]
    decide
  have steps : ∀ t, hasLane c.im t = true → c.completes t = true := fun t present =>
    Core.completes_of_exec exec noMemory present
  have moved : ∀ t, Pending runs q c t → _ := fun t pending =>
    LaneIs.branch (pending.same 0) pending.moved
      (pending.word (by rw [exec]; exact CoreState.noConfusion)) (work.zero _) code
  have good : Core.branchGood (funct3 c.inst) = true := by
    obtain ⟨t, present⟩ := work.exists_issued issued
    exact (moved t (work.pending issued present (unserved t))).2.1
  -- the two halves of the path
  have taken : ∀ c' : Core, c'.gpr = c.gpr →
      OnPath runs (c.progress cfg q) c' c.iw (c.ip + immB c.inst, c.takenMask cfg) := by
    intro c' registers
    refine work.onPath_next exec (fun t member => ?_) fun t member pending => ?_
    · exact ⟨(Core.hasLane_takenMask member).1, steps t (Core.hasLane_takenMask member).1⟩
    · obtain ⟨-, -, awake, address, row⟩ := moved t pending
      rw [(Core.hasLane_takenMask member).2, if_pos rfl] at address
      refine ⟨awake, address, fun r small => ?_⟩
      rw [row r small, registers]
  have falls : ∀ c' : Core, c'.gpr = c.gpr →
      OnPath runs (c.progress cfg q) c' c.iw (c.ip + 4, c.fallMask cfg) := by
    intro c' registers
    refine work.onPath_next exec (fun t member => ?_) fun t member pending => ?_
    · exact ⟨(Core.hasLane_fallMask member).1, steps t (Core.hasLane_fallMask member).1⟩
    · obtain ⟨-, -, awake, address, row⟩ := moved t pending
      rw [(Core.hasLane_fallMask member).2, if_neg Bool.false_ne_true] at address
      refine ⟨awake, address, fun r small => ?_⟩
      rw [row r small, registers]
  have covered : ∀ t, hasLane c.im t = true →
      hasLane (c.fallMask cfg) t = true ∨ hasLane (c.takenMask cfg) t = true := by
    intro t present
    rwa [← Bool.or_eq_true, ← hasLane_or, work.conserved.fallMask_or_takenMask issued]
  rcases Core.execBranch_cases cfg c with
    ⟨-, fault | ⟨takes, fall, full⟩⟩ | ⟨result, _⟩ | ⟨result, _, noFall⟩ | ⟨result, _, noTaken⟩
  · rw [good] at fault
    exact Bool.noConfusion fault
  · refine absurd ⟨work.active, exec, work.legal exec, code, good, takes, fall, full⟩
      (work.conserved.not_overflows (by omega) ?_)
    exact (Core.card_warpLanes_le cfg _ _).trans (by omega)
  · rw [result]
    obtain ⟨own, others⟩ := Core.paths_split cfg valid (c.ip + 4) (c.fallMask cfg)
      (c.ip + immB c.inst) (c.takenMask cfg)
    refine ⟨work.positions.regroup work.conserved work.kept issued
      (Core.othersKept_progress fun _ _ => rfl) rfl rfl others _ own (fun path member => ?_)
      fun t lane present free => ?_, work.active⟩
    · rcases List.mem_cons.mp member with rfl | member
      · exact falls _ rfl
      · rw [List.mem_singleton.mp member]
        exact taken _ rfl
    · have noFall := free _ List.mem_cons_self
      have noTaken := free _ (List.mem_cons_of_mem _ List.mem_cons_self)
      rcases covered t present with here | here
      · exact Bool.noConfusion (noFall.symm.trans here)
      · exact Bool.noConfusion (noTaken.symm.trans here)
  · rw [result]
    obtain ⟨own, others⟩ := Core.paths_setPath cfg valid (c.ip + immB c.inst) (c.takenMask cfg)
    refine ⟨work.positions.goOn work.conserved work.kept issued
      (Core.othersKept_progress fun _ _ => rfl) rfl rfl others _ own (taken _ rfl)
      fun t present => (covered t present).resolve_left ?_, work.active⟩
    rw [noFall, eq_zero_iff_hasLane.mp rfl t]
    exact Bool.false_ne_true
  · rw [result]
    obtain ⟨own, others⟩ := Core.paths_setPath cfg valid (c.ip + 4) (c.fallMask cfg)
    refine ⟨work.positions.goOn work.conserved work.kept issued
      (Core.othersKept_progress fun _ _ => rfl) rfl rfl others _ own (falls _ rfl)
      fun t present => (covered t present).resolve_right ?_, work.active⟩
    rw [noTaken, eq_zero_iff_hasLane.mp rfl t]
    exact Bool.false_ne_true

/-! ### The remaining opcodes -/

/-- The issued lanes of a `JALR` have one target. -/
theorem AtWork.laneTarget_eq
    (work : AtWork runs q mem ledger c)
    (exec : c.state = .exec)
    (code : opcode c.inst = 0x67)
    {u : Nat}
    (first : hasLane c.im t = true)
    (second : hasLane c.im u = true) :
    c.laneTarget cfg t = c.laneTarget cfg u := by
  have issued := Core.ne_sched_of_exec exec
  have unserved : ∀ t, ¬c.Served t := fun t => Core.not_served (Core.not_inMemory_of_exec exec)
  have notFetch : c.state ≠ .fetch := by
    rw [exec]
    exact CoreState.noConfusion
  have legal := work.legal exec
  have left := work.pending issued first (unserved t)
  have right := work.pending issued second (unserved u)
  -- both have executed equally many instructions
  obtain ⟨count, all⟩ := work.positions.issued issued
  have leftCount := ((all t first).2.2 (unserved t)).1.executed
  have rightCount := ((all u second).2.2 (unserved u)).1.executed
  have sameWarp : c.context cfg t / cfg.numThreads = c.context cfg u / cfg.numThreads := by
    have warp : ∀ t, t < cfg.numThreads → c.context cfg t / cfg.numThreads = c.iw := by
      intro t lane
      rw [Core.context, Nat.mul_comm, Nat.mul_add_div cfg.numThreads_pos, Nat.div_eq_of_lt lane,
        Nat.add_zero]
    rw [warp t left.lane, warp u right.lane]
  have leftWord := left.word notFetch
  have rightWord := right.word notFetch
  have leftPc := left.stands.address
  have rightPc := right.stands.address
  have leftEnds := left.stands.awake
  have rightEnds := right.stands.awake
  rw [leftCount] at leftWord leftPc leftEnds
  rw [rightCount] at rightWord rightPc rightEnds
  have same := runs.sameTarget _ _ left.stands.inBlock right.stands.inBlock sameWarp count leftEnds
    rightEnds c.inst code (leftPc.trans rightPc.symm) leftWord rightWord
  have leftTarget := (left.same 0).jalrTarget legal code
  have rightTarget := (right.same 0).jalrTarget legal code
  rw [leftCount] at leftTarget
  rw [rightCount] at rightTarget
  rw [← leftTarget, ← rightTarget]
  exact same

/-- The first issued lane is issued. -/
theorem Core.hasLane_firstLane
    (lane : t < cfg.numThreads)
    (present : hasLane c.im t = true) :
    c.firstLane cfg < cfg.numThreads ∧ hasLane c.im (c.firstLane cfg) = true := by
  unfold Core.firstLane
  cases found : (List.range cfg.numThreads).find? (hasLane c.im) with
  | none => exact absurd present (List.find?_eq_none.mp found t (List.mem_range.mpr lane))
  | some first =>
      exact ⟨List.mem_range.mp (List.mem_of_find?_eq_some found), List.find?_some found⟩

/-- The warp goes on where each issued lane goes on its own. -/
theorem AtWork.follow_eq
    (work : AtWork runs q mem ledger c)
    (exec : c.state = .exec)
    (present : hasLane c.im t = true)
    (pending : Pending runs q c t) :
    Iss.threadNext (runs.core (c.context cfg t) (q (c.context cfg t))) c.inst = c.follow cfg := by
  have address := pending.stands.address
  unfold Iss.threadNext Core.follow
  rw [address]
  refine if_congr Iff.rfl rfl ?_
  by_cases code : opcode c.inst = 0x67
  · rw [if_pos code, if_pos code, (pending.same 0).jalrTarget (work.legal exec) code]
    exact work.laneTarget_eq exec code present (Core.hasLane_firstLane pending.lane present).2
  · rw [if_neg code, if_neg code]

/-- The issued lanes go on after a word that is no load, store, branch or `EBREAK`. -/
theorem AtWork.execLanes
    (work : AtWork runs q mem ledger c)
    (exec : c.state = .exec)
    (noMemory : ¬(opcode c.inst = 0x03 ∨ opcode c.inst = 0x23))
    (noEbreak : c.inst ≠ ebreak)
    (noBranch : opcode c.inst ≠ 0x63)
    (cid : Nat) :
    Positions runs (c.progress cfg q) (Core.execLanes cfg cid c) ∧
      (Core.execLanes cfg cid c).ctaActive = true := by
  have issued := Core.ne_sched_of_exec exec
  have unserved : ∀ t, ¬c.Served t := fun t => Core.not_served (Core.not_inMemory_of_exec exec)
  have valid := (work.conserved.issued issued).2.1
  obtain ⟨noLoad, noStore⟩ := not_or.mp noMemory
  have moved : ∀ t, Pending runs q c t → _ := fun t pending =>
    have word := pending.word (by rw [exec]; exact CoreState.noConfusion)
    have plain := runs.plain _ _ pending.stands.inBlock pending.stands.awake
    LaneIs.straight (pending.same cid) pending.moved word
      (by rw [LaneRuns.word] at word; rwa [word] at plain) noLoad noStore noBranch noEbreak
  obtain ⟨some, present⟩ := work.exists_issued issued
  have lane := (work.pending issued present (unserved some)).lane
  have fine : c.fine cfg = true := by
    have supported := (moved some (work.pending issued present (unserved some))).2.1
    rw [Core.fine, supported, Bool.true_and, Bool.not_eq_true', Bool.and_eq_false_iff]
    by_cases code : opcode c.inst = 0x67
    · right
      rw [Core.diverges, List.any_eq_false]
      intro t _
      rw [Bool.and_eq_true, bne_iff_ne]
      rintro ⟨also, differs⟩
      exact differs (work.laneTarget_eq exec code also (Core.hasLane_firstLane lane present).2)
    · exact Or.inl (beq_eq_false_iff_ne.mpr code)
  rw [Core.execLanes_eq cid ⟨some, lane, present⟩, fine, Core.lanesDone]
  rw [if_pos rfl]
  refine ⟨work.positions.goOn work.conserved work.kept issued
    (Core.othersKept_progress fun x idle => Core.lanesWritten_of_idle idle _) rfl rfl ?_
    (c.follow cfg, c.im) ?_ ?_ fun _ present => present, work.active⟩
  · intro w other
    simp [Core.nextWarp, Core.paths, Core.deferred, Function.update_of_ne other]
  · simp [Core.nextWarp, Core.paths, Core.deferred, valid, (work.conserved.issued issued).2.2]
  · refine work.onPath_next exec (fun t present => ⟨present,
      Core.completes_of_exec exec noMemory present⟩) fun t present pending => ?_
    obtain ⟨-, -, awake, address, row⟩ := moved t pending
    refine ⟨awake, address.trans (work.follow_eq exec present pending), fun r small => ?_⟩
    rw [row r small]
    have also : t ∈ c.activeLanes cfg := Core.mem_activeLanes.mpr ⟨pending.lane, present⟩
    have written := Core.lanesWritten_context also fun t => (c.issuedResult cfg cid t).getD 0
    exact (congrFun written r).symm

/-- `EXEC` does to the issued lanes what they do on their own. -/
theorem AtWork.execute
    (work : AtWork runs q mem ledger c)
    (threads : cfg.numThreads ≤ 8)
    (exec : c.state = .exec)
    (cid : Nat) :
    Positions runs (c.progress cfg q) (Core.execute cfg cid c) ∧
      (Core.execute cfg cid c).ctaActive = true := by
  unfold Core.execute
  rw [work.legal exec, if_neg Bool.false_ne_true]
  split_ifs with memory word code
  · exact ⟨work.toMemory exec memory, work.active⟩
  · refine ⟨work.execEbreak exec word, ?_⟩
    unfold Core.execEbreak
    split_ifs <;> exact work.active
  · exact work.execBranch threads exec code
  · exact work.execLanes exec memory word code cid

end AtWork

end OpenGPU
