import OpenGPU.Lockstep.LaneSteps

/-!
# Loads and stores, lane by lane

In the memory states the lanes of the issued warp go behind their load or store one after
the other: a store when its request leaves the core, a load when its response arrives.
After the last lane the warp goes on as one.
-/

namespace OpenGPU

open Instruction

namespace Core

variable {cfg : Config} {c : Core} {mem : ShadowMemory}

/-- A core with the registers that a response leaves. -/
def respond (cfg : Config) (mem : ShadowMemory) (c : Core) : Core :=
  { c with
    gpr := Function.update c.gpr (c.context cfg c.mt)
      (Function.update
        (if opcode c.inst = 0x03 ∧ rd c.inst ≠ 0 then
          Function.update (c.gpr (c.context cfg c.mt)) (rd c.inst).toNat
            (loadValue cfg mem (c.memoryAddress cfg) (funct3 c.inst))
        else c.gpr (c.context cfg c.mt)) 0 0) }

/-- After a response the warp goes on with the next lane or as one. -/
theorem memoryResponse_eq
    (cfg : Config)
    (mem : ShadowMemory)
    (c : Core) :
    c.memoryResponse cfg mem =
      if c.mt = cfg.numThreads - 1 then finishMemory cfg (c.respond cfg mem)
      else { c.respond cfg mem with mt := c.mt + 1, state := .memReq } := rfl

/-- Only the lane that is served gets new registers. -/
theorem respond_gpr_of_ne
    {x : Nat}
    (other : x ≠ c.context cfg c.mt) :
    (c.respond cfg mem).gpr x = c.gpr x :=
  Function.update_of_ne other _ _

/-- A store gets none. -/
theorem respond_gpr_of_store
    (zero : ∀ x, c.gpr x 0 = 0)
    (code : opcode c.inst = 0x23) :
    (c.respond cfg mem).gpr = c.gpr := by
  have noLoad : ¬(opcode c.inst = 0x03 ∧ rd c.inst ≠ 0) := by
    rw [code]
    exact fun load => absurd load.1 (by decide)
  have row : Function.update (c.gpr (c.context cfg c.mt)) 0 0 = c.gpr (c.context cfg c.mt) := by
    rw [← zero (c.context cfg c.mt), Function.update_eq_self]
  rw [respond, if_neg noLoad]
  show Function.update c.gpr _ _ = c.gpr
  rw [row, Function.update_eq_self]

/-- A load gets its value. -/
theorem respond_gpr_of_load
    (code : opcode c.inst = 0x03) :
    (c.respond cfg mem).gpr (c.context cfg c.mt) =
      writtenRow (writes c.inst) (rd c.inst).toNat
        (loadValue cfg mem (c.laneRegister cfg c.mt (rs1 c.inst) + immI c.inst) (funct3 c.inst))
        (c.gpr (c.context cfg c.mt)) := by
  have address : c.memoryAddress cfg = c.laneRegister cfg c.mt (rs1 c.inst) + immI c.inst := by
    rw [memoryAddress, if_pos code]
  have writing : writes c.inst = (rd c.inst != 0) := by
    rw [writes, code]
    rfl
  rw [respond, address, writing]
  refine (Function.update_self ..).trans ?_
  rw [writtenRow]
  rcases eq_or_ne (rd c.inst) 0 with none | some
  · rw [if_neg fun load => load.2 none, none]
    rfl
  · rw [if_pos ⟨code, some⟩, if_pos (bne_iff_ne.mpr some)]

end Core

section AtWork

variable {cfg : Config} {info : LaunchInfo} {blockSize : Word} {b : Nat}
  {runs : LaneRuns cfg info blockSize b} {q : Nat → Nat} {mem : ShadowMemory}
  {ledger : LaneLedger} {c c' : Core} {t : Nat}

/-- Lanes before `next` are behind the instruction, the others in front of it. -/
def ServedUpTo (runs : LaneRuns cfg info blockSize b) (q : Nat → Nat) (c : Core) (next : Nat) :
    Prop :=
  ∃ count, ∀ t, hasLane c.im t = true →
    t < cfg.numThreads ∧
      (t < next → Stands runs q c (c.context cfg t) (count + 1) (c.ip + 4)) ∧
      (next ≤ t → Stands runs q c (c.context cfg t) count c.ip ∧
        runs.word (c.context cfg t) count = c.inst)

/-- In `MEM_REQ` the lanes before the current one have been served. -/
theorem AtWork.servedUpTo
    (work : AtWork runs q mem ledger c)
    (state : c.state = .memReq) :
    ServedUpTo runs q c c.mt := by
  obtain ⟨count, all⟩ := work.positions.issued (by rw [state]; exact CoreState.noConfusion)
  refine ⟨count, fun t present => ?_⟩
  obtain ⟨lane, served, pending⟩ := all t present
  refine ⟨lane, fun early => served ⟨Or.inl state, Or.inl early⟩, fun late => ?_⟩
  obtain ⟨stands, word⟩ := pending fun before => by
    rcases before.2 with early | ⟨_, moved, _⟩
    · omega
    · exact CoreState.noConfusion (state.symm.trans moved)
  exact ⟨stands, word (by rw [state]; exact CoreState.noConfusion)⟩

/-- That is what `MEM_REQ` needs. -/
theorem ServedUpTo.onIssue
    (served : ServedUpTo runs q c c.mt)
    (state : c.state = .memReq) :
    OnIssue runs q c := by
  obtain ⟨count, all⟩ := served
  refine ⟨count, fun t present => ?_⟩
  obtain ⟨lane, before, after⟩ := all t present
  refine ⟨lane, fun early => before ?_, fun late => ?_⟩
  · rcases early.2 with early | ⟨_, moved, _⟩
    · exact early
    · exact CoreState.noConfusion (state.symm.trans moved)
  · obtain ⟨stands, word⟩ := after (Nat.le_of_not_lt fun early =>
      late ⟨Or.inl state, Or.inl early⟩)
    exact ⟨stands, fun _ => word⟩

/-- After the last lane the warp goes on. -/
theorem AtWork.finishMemory
    (work : AtWork runs q mem ledger c)
    (issued : c.state ≠ .sched)
    {q' : Nat → Nat}
    (kept : OthersKept cfg c c' q q')
    (same : { c' with gpr := c.gpr } = c)
    (served : ServedUpTo runs q' c' cfg.numThreads) :
    Positions runs q' (Core.finishMemory cfg c') ∧
      (Core.finishMemory cfg c').ctaActive = true := by
  obtain ⟨_, valid, copy⟩ := work.conserved.issued issued
  have same : c' = { c with gpr := c'.gpr } := by rw [← same]
  rw [same] at kept served ⊢
  refine ⟨work.positions.goOn work.conserved work.kept issued kept rfl rfl ?_ (c.ip + 4, c.im) ?_ ?_
    fun _ present => present, work.active⟩
  · intro w other
    simp [Core.finishMemory, Core.nextWarp, Core.paths, Core.deferred, Function.update_of_ne other]
  · simp [Core.finishMemory, Core.nextWarp, Core.paths, Core.deferred, valid, copy]
  · obtain ⟨count, all⟩ := served
    refine ⟨count + 1, fun t present => ?_⟩
    obtain ⟨lane, before, _⟩ := all t present
    exact ⟨lane, (before lane).frame rfl rfl⟩

/-- A lane other than the current one makes no progress in the memory states. -/
theorem Core.progress_of_ne
    (memory : c.InMemory)
    (lane : t < cfg.numThreads)
    (other : t ≠ c.mt) :
    c.progress cfg q (c.context cfg t) = q (c.context cfg t) := by
  rw [Core.progress_context lane, Core.completes, beq_false_of_ne other]
  rcases memory with state | state <;> rw [state] <;> simp

/-- The current lane completes a store in `MEM_REQ` and a load in `MEM_RESP`. -/
theorem Core.completes_mt
    (present : hasLane c.im c.mt = true) :
    (c.state = .memReq → c.completes c.mt = (opcode c.inst == 0x23)) ∧
      (c.state = .memResp → c.completes c.mt = (opcode c.inst == 0x03)) := by
  constructor
  · intro state
    rw [Core.completes, present, state]
    simp
  · intro state
    rw [Core.completes, present, state]
    simp

/-- A store leaves the core. -/
theorem AtWork.request
    (work : AtWork runs q mem ledger c)
    (state : c.state = .memReq)
    (present : hasLane c.im c.mt = true) :
    OnIssue runs (c.progress cfg q) { c with state := .memResp } := by
  have issued : c.state ≠ .sched := by
    rw [state]
    exact CoreState.noConfusion
  obtain ⟨count, all⟩ := work.servedUpTo state
  refine ⟨count, fun t also => ?_⟩
  obtain ⟨lane, before, after⟩ := all t also
  have kept : t ≠ c.mt → c.progress cfg q (c.context cfg t) = q (c.context cfg t) := fun other =>
    Core.progress_of_ne (Or.inl state) lane other
  refine ⟨lane, fun served => ?_, fun unserved => ?_⟩
  · rcases served.2 with early | ⟨rfl, _, code⟩
    · exact (before early).frame rfl (kept early.ne)
    · -- the store of the current lane
      obtain ⟨stands, word⟩ := after (le_refl _)
      have pending := work.pending issued present fun served => by
        rcases served.2 with early | ⟨_, moved, _⟩
        · exact absurd early (lt_irrefl _)
        · exact CoreState.noConfusion (state.symm.trans moved)
      have plain := runs.plain _ _ stands.inBlock stands.awake
      have same := pending.same 0
      have moved := pending.moved
      rw [stands.executed] at same moved
      have word' : Iss.wordAt _ _ = c.inst := word
      rw [word'] at plain
      obtain ⟨awake, address, row, -⟩ := same.store moved word plain (work.zero _) code
      refine stands.step ?_ awake address row
      rw [Core.progress_context lane, (Core.completes_mt present).1 state, code]
      rfl
  · have late : c.mt ≤ t := Nat.le_of_not_lt fun early => unserved ⟨Or.inr rfl, Or.inl early⟩
    obtain ⟨stands, word⟩ := after late
    refine ⟨stands.frame rfl ?_, fun _ => word⟩
    rcases eq_or_ne t c.mt with rfl | other
    · have noStore : opcode c.inst ≠ 0x23 := fun code => unserved ⟨Or.inr rfl, Or.inr ⟨rfl, rfl, code⟩⟩
      rw [Core.progress_context lane, (Core.completes_mt present).1 state, beq_false_of_ne noStore]
      rfl
    · exact kept other

/-- The lanes in `MEM_REQ` go on as they do on their own. -/
theorem AtWork.memoryRequest
    (work : AtWork runs q mem ledger c)
    (state : c.state = .memReq) :
    Positions runs (c.progress cfg q) (Core.memoryRequest cfg c) ∧
      (Core.memoryRequest cfg c).ctaActive = true := by
  have issued : c.state ≠ .sched := by
    rw [state]
    exact CoreState.noConfusion
  unfold Core.memoryRequest
  by_cases present : hasLane c.im c.mt = true
  · rw [if_pos present]
    refine ⟨?_, work.active⟩
    exact work.positions.within work.conserved work.kept issued
      (Core.othersKept_progress fun _ _ => rfl) rfl (fun moved => CoreState.noConfusion moved) rfl
      rfl rfl (work.request state present) (fun _ => work.positions.memory (Or.inl state))
      fun _ => present
  · rw [if_neg present]
    -- the current lane is not issued
    have nobody : c.progress cfg q = q := by
      apply Core.progress_of_none
      intro t
      rcases eq_or_ne t c.mt with rfl | other
      · rw [Core.completes, Bool.eq_false_of_not_eq_true present, Bool.false_and]
      · rw [Core.completes, state, beq_false_of_ne other]
        exact Bool.and_false _
    have next : ServedUpTo runs q c (c.mt + 1) := by
      obtain ⟨count, all⟩ := work.servedUpTo state
      refine ⟨count, fun t also => ?_⟩
      obtain ⟨lane, before, after⟩ := all t also
      have other : t ≠ c.mt := by
        rintro rfl
        exact present also
      exact ⟨lane, fun early => before (by omega), fun late => after (by omega)⟩
    rw [nobody]
    split_ifs with last
    · have whole : c.mt + 1 = cfg.numThreads := by
        have := cfg.numThreads_pos
        omega
      rw [whole] at next
      exact work.finishMemory issued (fun _ _ => ⟨rfl, rfl⟩) rfl next
    · refine ⟨?_, work.active⟩
      obtain ⟨count, all⟩ := next
      refine work.positions.within work.conserved work.kept issued (fun _ _ => ⟨rfl, rfl⟩) rfl
        (fun moved => issued moved) rfl rfl rfl ?_
        (fun _ => work.positions.memory (Or.inl state)) fun moved =>
          CoreState.noConfusion (state.symm.trans moved)
      refine ServedUpTo.onIssue ⟨count, fun t also => ?_⟩ state
      obtain ⟨lane, before, after⟩ := all t also
      exact ⟨lane, fun early => (before early).frame rfl rfl, fun late =>
        ⟨(after late).1.frame rfl rfl, (after late).2⟩⟩

/-- A response serves the current lane. -/
theorem AtWork.respond
    (work : AtWork runs q mem ledger c)
    (state : c.state = .memResp) :
    ServedUpTo runs (c.progress cfg q) (c.respond cfg mem) (c.mt + 1) := by
  have issued : c.state ≠ .sched := by
    rw [state]
    exact CoreState.noConfusion
  have present := work.positions.responding state
  obtain ⟨count, all⟩ := work.positions.issued issued
  refine ⟨count, fun t also => ?_⟩
  obtain ⟨lane, before, after⟩ := all t also
  have notFetch : c.state ≠ .fetch := by
    rw [state]
    exact CoreState.noConfusion
  have other : t ≠ c.mt → ∀ {place pc}, Stands runs q c (c.context cfg t) place pc →
      Stands runs (c.progress cfg q) (c.respond cfg mem) (c.context cfg t) place pc := by
    intro other place pc stands
    refine stands.frame (Core.respond_gpr_of_ne fun same => other ?_)
      (Core.progress_of_ne (Or.inr state) lane other)
    exact Nat.add_left_cancel same
  refine ⟨lane, fun early => ?_, fun late => ?_⟩
  · rcases Nat.lt_succ_iff_lt_or_eq.mp early with earlier | rfl
    · exact other earlier.ne (before ⟨Or.inr state, Or.inl earlier⟩)
    · rcases work.positions.memory (Or.inr state) with code | code
      · -- the load of the current lane
        have unserved : ¬c.Served c.mt := by
          rintro ⟨_, early | ⟨_, _, store⟩⟩
          · exact lt_irrefl _ early
          · rw [code] at store
            exact absurd store (by decide)
        obtain ⟨stands, word⟩ := after unserved
        have word := word notFetch
        have pending := work.pending issued present unserved
        have agree := work.agrees _ stands.inBlock (by rw [stands.executed]; exact stands.awake)
        have plain := runs.plain _ _ stands.inBlock stands.awake
        have same := pending.same 0
        have moved := pending.moved
        rw [stands.executed] at same moved agree
        have word' : Iss.wordAt _ _ = c.inst := word
        rw [word'] at plain
        have loads : Set.EqOn mem.bytes (runs.mem (c.context cfg c.mt) count)
            (Iss.loadedBytes (runs.core (c.context cfg c.mt) count) c.inst) := by
          refine agree.mono ?_
          rw [LaneRuns.touches, Iss.footprint, word']
          exact Set.subset_union_right
        obtain ⟨-, awake, address, row⟩ := same.load moved word plain code work.size loads
        refine stands.step ?_ awake address fun r small => ?_
        · rw [Core.progress_context lane, (Core.completes_mt present).2 state, code]
          rfl
        · rw [row r small, Core.respond_gpr_of_load code]
      · refine (before ⟨Or.inr state, Or.inr ⟨rfl, state, code⟩⟩).frame ?_ ?_
        · rw [Core.respond_gpr_of_store work.zero code]
        · rw [Core.progress_context lane, (Core.completes_mt present).2 state, code]
          rfl
  · have unserved : ¬c.Served t := by
      rintro ⟨_, early | ⟨here, _, _⟩⟩ <;> omega
    obtain ⟨stands, word⟩ := after unserved
    exact ⟨other (by omega) stands, word notFetch⟩

/-- The lanes in `MEM_RESP` go on as they do on their own. -/
theorem AtWork.memoryResponse
    (work : AtWork runs q mem ledger c)
    (state : c.state = .memResp) :
    Positions runs (c.progress cfg q) (Core.memoryResponse cfg mem c) ∧
      (Core.memoryResponse cfg mem c).ctaActive = true := by
  have issued : c.state ≠ .sched := by
    rw [state]
    exact CoreState.noConfusion
  have present := work.positions.responding state
  have kept : OthersKept cfg c (c.respond cfg mem) q (c.progress cfg q) := by
    refine Core.othersKept_progress fun x idle => Core.respond_gpr_of_ne ?_
    exact idle c.mt (Core.mem_activeLanes.mpr ⟨work.bounds.mt, present⟩)
  have served := work.respond state
  rw [Core.memoryResponse_eq]
  split_ifs with last
  · have whole : c.mt + 1 = cfg.numThreads := by
      have := cfg.numThreads_pos
      omega
    rw [whole] at served
    exact work.finishMemory issued kept rfl served
  · refine ⟨?_, work.active⟩
    obtain ⟨count, all⟩ := served
    refine work.positions.within work.conserved work.kept issued kept rfl
      (fun moved => CoreState.noConfusion moved) rfl rfl rfl ?_
      (fun _ => work.positions.memory (Or.inr state)) fun moved => CoreState.noConfusion moved
    refine ServedUpTo.onIssue ⟨count, fun t also => ?_⟩ rfl
    obtain ⟨lane, before, after⟩ := all t also
    exact ⟨lane, fun early => (before early).frame rfl rfl, fun late =>
      ⟨(after late).1.frame rfl rfl, (after late).2⟩⟩

end AtWork

end OpenGPU
