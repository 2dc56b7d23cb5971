import OpenGPU.Lockstep.LaneServing

/-!
# One step of a core at work

The step of a core that works on a block does not fault, stores what the lanes store that
it moves, and either moves a lane or comes closer to moving one.
-/

namespace OpenGPU

open Instruction

section AtWork

variable {cfg : Config} {info : LaunchInfo} {blockSize : Word} {b : Nat}
  {runs : LaneRuns cfg info blockSize b} {q : Nat → Nat} {mem : ShadowMemory}
  {ledger : LaneLedger} {c : Core} {t : Nat}

/-- Outside `EXEC` and the memory states nobody completes an instruction. -/
theorem Core.progress_of_waiting
    (waits : c.state = .sched ∨ c.state = .fetch) :
    c.progress cfg q = q := by
  apply Core.progress_of_none
  intro t
  rw [Core.completes]
  rcases waits with state | state <;> rw [state] <;> exact Bool.and_false _

/-- A core that has not faulted and either works on its block or has brought all lanes of
it to their ends. -/
structure Advanced (runs : LaneRuns cfg info blockSize b) (q : Nat → Nat) (c : Core) : Prop where
  noFault : c.fault = false
  outcome : (c.ctaActive = true ∧ Positions runs q c) ∨
    (c.ctaActive = false ∧ c.state = .sched ∧ ∀ x, x < blockSize.toNat → q x = runs.ends x)

theorem Advanced.of_active
    (kept : c.IssueKept)
    (active : Positions runs q c ∧ c.ctaActive = true) :
    Advanced runs q c :=
  ⟨kept.noFault active.2, Or.inl active.symm⟩

/-- One step of a core at work. -/
theorem AtWork.stepCore
    (work : AtWork runs q mem ledger c)
    (threads : cfg.numThreads ≤ 8)
    (fits : blockSize.toNat ≤ cfg.contexts)
    (launch : LaunchRegisters)
    (cid : Nat) :
    Advanced runs (c.progress cfg q) (c.stepCore cfg mem launch cid false) := by
  have kept := @Core.IssueKept.stepCore cfg c work.kept mem launch cid false
  have active : ¬(!c.ctaActive) = true := by
    rw [work.active]
    decide
  unfold Core.stepCore at kept ⊢
  rw [if_neg Bool.false_ne_true, if_neg active] at kept ⊢
  cases state : c.state with
  | sched =>
      rw [state] at kept
      dsimp only at kept ⊢
      rw [Core.progress_of_waiting (Or.inl state)]
      cases found : circularFirst cfg.numWarps c.rr c.valid with
      | some sel =>
          have survives : (Core.schedule cfg c).ctaActive = true := by
            unfold Core.schedule
            rw [found]
            exact work.active
          exact .of_active kept ⟨work.schedule state survives, survives⟩
      | none =>
          have result : Core.schedule cfg c = { c with ctaActive := false } := by
            unfold Core.schedule
            rw [found]
          rw [result]
          exact ⟨work.kept.noFault work.active, Or.inr ⟨rfl, state, fun x inBlock =>
            work.finished fits (circularFirst_eq_none_iff.mp found) inBlock⟩⟩
  | fetch =>
      rw [state] at kept
      dsimp only at kept ⊢
      rw [Core.progress_of_waiting (Or.inr state)]
      exact .of_active kept ⟨work.fetch state, work.active⟩
  | exec =>
      rw [state] at kept
      exact .of_active kept (work.execute threads state cid)
  | memReq =>
      rw [state] at kept
      exact .of_active kept (work.memoryRequest state)
  | memResp =>
      rw [state] at kept
      exact .of_active kept (work.memoryResponse state)

/-! ## What leaves the core -/

/-- A lane that completes an instruction is pending. -/
theorem AtWork.pending_of_completes
    (work : AtWork runs q mem ledger c)
    (completes : c.completes t = true) :
    c.state ≠ .sched ∧ c.state ≠ .fetch ∧ Pending runs q c t := by
  have present := Core.hasLane_of_completes completes
  have states : c.state ≠ .sched ∧ c.state ≠ .fetch ∧ ¬c.Served t := by
    rw [Core.completes, present, Bool.true_and] at completes
    cases state : c.state <;> rw [state] at completes <;> dsimp only at completes
    · exact Bool.noConfusion completes
    · exact Bool.noConfusion completes
    · refine ⟨CoreState.noConfusion, CoreState.noConfusion, ?_⟩
      exact Core.not_served (Core.not_inMemory_of_exec state)
    · rw [Bool.and_eq_true, beq_iff_eq] at completes
      refine ⟨CoreState.noConfusion, CoreState.noConfusion, ?_⟩
      rintro ⟨_, early | ⟨_, moved, _⟩⟩
      · exact absurd completes.1 early.ne
      · exact CoreState.noConfusion (state.symm.trans moved)
    · rw [Bool.and_eq_true, beq_iff_eq, beq_iff_eq] at completes
      refine ⟨CoreState.noConfusion, CoreState.noConfusion, ?_⟩
      rintro ⟨_, early | ⟨_, _, code⟩⟩
      · exact absurd completes.1 early.ne
      · rw [completes.2] at code
        exact absurd code (by decide)
  exact ⟨states.1, states.2.1, work.pending states.1 present states.2.2⟩

/-- Every thread stays where it is or executes one instruction. -/
theorem AtWork.progress_cases
    (work : AtWork runs q mem ledger c)
    (x : Nat) :
    c.progress cfg q x = q x ∨
      (c.progress cfg q x = q x + 1 ∧ x < blockSize.toNat ∧ q x < runs.ends x) := by
  rcases @Core.progress_cases cfg c q x with same | ⟨t, _, rfl, completes, next⟩
  · exact Or.inl same
  · have pending := (work.pending_of_completes completes).2.2
    exact Or.inr ⟨next, pending.stands.inBlock, pending.stands.awake⟩

/-- The store of the current lane, as it leaves the core. -/
theorem AtWork.stores
    (work : AtWork runs q mem ledger c)
    (state : c.state = .memReq)
    (present : hasLane c.im c.mt = true)
    (code : opcode c.inst = 0x23) :
    c.context cfg c.mt < blockSize.toNat ∧
      c.progress cfg q (c.context cfg c.mt) = q (c.context cfg c.mt) + 1 ∧
      ∃ s, Model.captureStore cfg c = some s ∧
        Stores cfg s (runs.touches (c.context cfg c.mt) (q (c.context cfg c.mt))).stores
          (runs.mem (c.context cfg c.mt) (q (c.context cfg c.mt) + 1)) := by
  have completes : c.completes c.mt = true := by
    rw [(Core.completes_mt present).1 state, code]
    rfl
  obtain ⟨_, notFetch, pending⟩ := work.pending_of_completes completes
  have word := pending.word notFetch
  have plain := runs.plain _ _ pending.stands.inBlock pending.stands.awake
  have word' : Iss.wordAt _ _ = c.inst := word
  rw [word'] at plain
  obtain ⟨-, -, -, stores⟩ := (pending.same 0).store pending.moved word plain (work.zero _) code
  have address : c.memoryAddress cfg = c.laneRegister cfg c.mt (rs1 c.inst) + immS c.inst := by
    rw [Core.memoryAddress, code]
    rfl
  rw [← address] at stores
  refine ⟨pending.stands.inBlock, ?_, _,
    captureStore_of_active ⟨work.active, state, present, code⟩, ?_⟩
  · rw [Core.progress_context pending.lane, completes]
    rfl
  · rw [LaneRuns.touches, Iss.footprint, word']
    exact stores

/-- What a core presents to the memory is the store of a lane that it moves. -/
theorem AtWork.captured
    (work : AtWork runs q mem ledger c)
    {s : Store}
    (captured : Model.captureStore cfg c = some s) :
    ∃ x, x < blockSize.toNat ∧ c.progress cfg q x = q x + 1 ∧
      Stores cfg s (runs.touches x (q x)).stores (runs.mem x (q x + 1)) := by
  have presents : c.ctaActive ∧ c.state = .memReq ∧ hasLane c.im c.mt ∧
      opcode c.inst = 0x23 := by
    unfold Model.captureStore at captured
    split_ifs at captured with presents
    exact presents
  obtain ⟨inBlock, next, s', captured', stores⟩ :=
    work.stores presents.2.1 presents.2.2.1 presents.2.2.2
  rw [captured, Option.some_inj] at captured'
  rw [← captured'] at stores
  exact ⟨_, inBlock, next, stores⟩

/-- A lane that is moved stores nothing, or its store is what the core presents. -/
theorem AtWork.silent_or_captured
    (work : AtWork runs q mem ledger c)
    {x : Nat}
    (next : c.progress cfg q x = q x + 1) :
    (runs.touches x (q x)).stores = ∅ ∨
      ∃ s, Model.captureStore cfg c = some s ∧
        Stores cfg s (runs.touches x (q x)).stores (runs.mem x (q x + 1)) := by
  rcases @Core.progress_cases cfg c q x with same | ⟨t, lane, rfl, completes, _⟩
  · omega
  · obtain ⟨_, notFetch, pending⟩ := work.pending_of_completes completes
    have word : Iss.wordAt _ _ = c.inst := pending.word notFetch
    by_cases code : opcode c.inst = 0x23
    · right
      have present := Core.hasLane_of_completes completes
      rw [Core.completes, present, Bool.true_and, code] at completes
      cases state : c.state <;> rw [state] at completes
      · exact absurd completes Bool.false_ne_true
      · exact absurd completes Bool.false_ne_true
      · have other : (!((0x23 : Word) == 0x03 || (0x23 : Word) == 0x23)) = true := completes
        exact absurd other (by decide)
      · obtain rfl : t = c.mt := by
          have both : (t == c.mt && ((0x23 : Word) == 0x23)) = true := completes
          rw [Bool.and_eq_true, beq_iff_eq] at both
          exact both.1
        exact (work.stores state present code).2.2
      · have both : (t == c.mt && ((0x23 : Word) == 0x03)) = true := completes
        rw [Bool.and_eq_true] at both
        exact absurd both.2 (by decide)
    · left
      rw [LaneRuns.touches, Iss.footprint, word]
      exact Iss.storedBytes_eq_empty (Iss.storeAccess_of_ne code)

/-! ## Coming closer -/

/-- Some issued lane has been through the load or store that is under way. -/
def Core.AnyServed (c : Core) : Prop := ∃ t, hasLane c.im t = true ∧ c.Served t

open Classical in
/-- A load or store that has moved lanes still has to be left. -/
noncomputable def Core.rest (cfg : Config) (c : Core) : Nat :=
  if c.AnyServed then 2 * cfg.numThreads + 7 else 0

/-- A bound on the steps until a lane of an active core is moved or the core is without
a block. -/
noncomputable def Core.rankIn (cfg : Config) (c : Core) : CoreState → Nat
  | .sched => 2 * cfg.numThreads + 6
  | .fetch => 2 * cfg.numThreads + 5
  | .exec => 2 * cfg.numThreads + 4
  | .memReq => 2 * (cfg.numThreads - c.mt) + 1 + c.rest cfg
  | .memResp => 2 * (cfg.numThreads - c.mt) + c.rest cfg

/-- The bound for any core. -/
noncomputable def Core.rank (cfg : Config) (c : Core) : Nat :=
  if c.ctaActive then c.rankIn cfg c.state else 0

theorem Core.rank_of_active
    (cfg : Config)
    (c : Core)
    (active : c.ctaActive = true) :
    c.rank cfg = c.rankIn cfg c.state :=
  if_pos active

theorem Core.rank_of_inactive
    (inactive : c.ctaActive = false) :
    c.rank cfg = 0 := by
  rw [Core.rank, inactive, if_neg Bool.false_ne_true]

theorem Core.rest_of_served
    (served : c.AnyServed) :
    c.rest cfg = 2 * cfg.numThreads + 7 :=
  if_pos served

theorem Core.rest_le
    (cfg : Config)
    (c : Core) :
    c.rest cfg ≤ 2 * cfg.numThreads + 7 := by
  unfold Core.rest
  split_ifs <;> omega

theorem Core.rest_congr
    {c' : Core}
    (same : c'.AnyServed ↔ c.AnyServed) :
    c'.rest cfg = c.rest cfg := by
  by_cases served : c.AnyServed
  · rw [Core.rest_of_served served, Core.rest_of_served (same.mpr served)]
  · rw [Core.rest, Core.rest, if_neg served, if_neg fun still => served (same.mp still)]

/-- In `MEM_REQ` the lanes that have been served come before the current one. -/
theorem Core.served_iff_of_request
    (state : c.state = .memReq) :
    c.Served t ↔ t < c.mt := by
  constructor
  · rintro ⟨_, early | ⟨_, moved, _⟩⟩
    · exact early
    · exact CoreState.noConfusion (state.symm.trans moved)
  · exact fun early => ⟨Or.inl state, Or.inl early⟩

/-- In `MEM_REQ` a lane is moved or the rank falls. -/
theorem AtWork.rank_request
    (work : AtWork runs q mem ledger c)
    (state : c.state = .memReq) :
    (∃ x, c.progress cfg q x = q x + 1) ∨
      (Core.memoryRequest cfg c).rank cfg < c.rank cfg := by
  have bound := work.bounds.mt
  have issued : c.state ≠ .sched := by
    rw [state]
    exact CoreState.noConfusion
  have rank : c.rank cfg = 2 * (cfg.numThreads - c.mt) + 1 + c.rest cfg :=
    (Core.rank_of_active cfg c work.active).trans (congrArg (c.rankIn cfg) state)
  unfold Core.memoryRequest
  by_cases present : hasLane c.im c.mt = true
  · by_cases code : opcode c.inst = 0x23
    · exact Or.inl ⟨_, (work.stores state present code).2.1⟩
    · right
      -- a load is still to be served
      rw [if_pos present]
      have same : Core.rest cfg { c with state := .memResp } = c.rest cfg := by
        refine Core.rest_congr (exists_congr fun t => and_congr_right fun _ => ?_)
        rw [Core.served_iff_of_request state]
        constructor
        · rintro ⟨_, early | ⟨_, _, store⟩⟩
          · exact early
          · exact absurd store code
        · exact fun early => ⟨Or.inr rfl, Or.inl early⟩
      have next : Core.rank cfg { c with state := .memResp } =
          2 * (cfg.numThreads - c.mt) + Core.rest cfg { c with state := .memResp } :=
        Core.rank_of_active cfg _ work.active
      omega
  · right
    rw [if_neg present]
    split_ifs with last
    · -- all issued lanes come before the last one
      obtain ⟨t, also⟩ := work.exists_issued issued
      obtain ⟨count, all⟩ := work.positions.issued issued
      have lane := (all t also).1
      have other : t ≠ c.mt := by
        rintro rfl
        exact present also
      have served := @Core.rest_of_served cfg c
        ⟨t, also, (Core.served_iff_of_request state).mpr (by omega)⟩
      have next : (Core.finishMemory cfg c).rank cfg = 2 * cfg.numThreads + 6 :=
        Core.rank_of_active cfg _ work.active
      omega
    · have same : Core.rest cfg { c with mt := c.mt + 1 } = c.rest cfg := by
        refine Core.rest_congr (exists_congr fun t => and_congr_right fun also => ?_)
        rw [Core.served_iff_of_request state, Core.served_iff_of_request (by exact state)]
        have other : t ≠ c.mt := by
          rintro rfl
          exact present also
        show t < c.mt + 1 ↔ _
        omega
      have next : Core.rank cfg { c with mt := c.mt + 1 } =
          2 * (cfg.numThreads - (c.mt + 1)) + 1 + Core.rest cfg { c with mt := c.mt + 1 } :=
        (Core.rank_of_active cfg { c with mt := c.mt + 1 } work.active).trans
          (congrArg (Core.rankIn cfg { c with mt := c.mt + 1 }) state)
      omega

/-- In `MEM_RESP` a lane is moved or the rank falls. -/
theorem AtWork.rank_response
    (work : AtWork runs q mem ledger c)
    (state : c.state = .memResp) :
    (∃ x, c.progress cfg q x = q x + 1) ∨
      (Core.memoryResponse cfg mem c).rank cfg < c.rank cfg := by
  have bound := work.bounds.mt
  have present := work.positions.responding state
  rcases work.positions.memory (Or.inr state) with code | code
  · left
    refine ⟨c.context cfg c.mt, ?_⟩
    rw [Core.progress_context bound, (Core.completes_mt present).2 state, code]
    rfl
  · right
    have served := @Core.rest_of_served cfg c
      ⟨c.mt, present, Or.inr state, Or.inr ⟨rfl, state, code⟩⟩
    have rank : c.rank cfg = 2 * (cfg.numThreads - c.mt) + c.rest cfg :=
      (Core.rank_of_active cfg c work.active).trans (congrArg (c.rankIn cfg) state)
    rw [Core.memoryResponse_eq]
    split_ifs with last
    · have next : (Core.finishMemory cfg (c.respond cfg mem)).rank cfg =
          2 * cfg.numThreads + 6 := Core.rank_of_active cfg _ work.active
      omega
    · have next : Core.rank cfg { c.respond cfg mem with mt := c.mt + 1, state := .memReq } =
          2 * (cfg.numThreads - (c.mt + 1)) + 1 +
            Core.rest cfg { c.respond cfg mem with mt := c.mt + 1, state := .memReq } :=
        Core.rank_of_active cfg _ work.active
      have bounded := Core.rest_le cfg { c.respond cfg mem with mt := c.mt + 1, state := .memReq }
      omega

/-- A step of a core at work moves a lane or comes closer to moving one. -/
theorem AtWork.rank_lt
    (work : AtWork runs q mem ledger c)
    (launch : LaunchRegisters)
    (cid : Nat) :
    (∃ x, c.progress cfg q x = q x + 1) ∨
      (c.stepCore cfg mem launch cid false).rank cfg < c.rank cfg := by
  have active : ¬(!c.ctaActive) = true := by
    rw [work.active]
    decide
  have rank := Core.rank_of_active cfg c work.active
  unfold Core.stepCore
  rw [if_neg Bool.false_ne_true, if_neg active]
  cases state : c.state with
  | sched =>
      right
      rw [state] at rank
      dsimp only
      rw [rank]
      unfold Core.schedule
      cases circularFirst cfg.numWarps c.rr c.valid with
      | some sel =>
          have next : Core.rank cfg
              { c with iw := sel, im := c.mask sel, ip := c.pc sel, state := .fetch } =
                2 * cfg.numThreads + 5 := Core.rank_of_active cfg _ work.active
          exact next.trans_lt (Nat.lt_succ_self _)
      | none =>
          rw [Core.rank_of_inactive rfl]
          exact Nat.succ_pos _
  | fetch =>
      right
      have next : Core.rank cfg { c with inst := load32 cfg mem c.ip, state := .exec } =
          2 * cfg.numThreads + 4 := Core.rank_of_active cfg _ work.active
      rw [rank, state]
      exact next.trans_lt (Nat.lt_succ_self _)
  | exec =>
      by_cases memory : opcode c.inst = 0x03 ∨ opcode c.inst = 0x23
      · right
        have result : Core.execute cfg cid c = { c with mt := 0, state := .memReq } := by
          unfold Core.execute
          rw [work.legal state, if_neg Bool.false_ne_true, if_pos memory]
        have rest : Core.rest cfg { c with mt := 0, state := .memReq } = 0 := by
          refine if_neg ?_
          rintro ⟨t, _, served⟩
          exact absurd ((Core.served_iff_of_request rfl).mp served) (Nat.not_lt_zero t)
        have next : Core.rank cfg { c with mt := 0, state := .memReq } =
            2 * (cfg.numThreads - 0) + 1 + Core.rest cfg { c with mt := 0, state := .memReq } :=
          Core.rank_of_active cfg _ work.active
        dsimp only
        rw [result, next, rest, rank, state]
        show 2 * (cfg.numThreads - 0) + 1 + 0 < 2 * cfg.numThreads + 4
        omega
      · left
        obtain ⟨t, present⟩ := work.exists_issued (Core.ne_sched_of_exec state)
        have completes := Core.completes_of_exec state memory present
        have lane := (work.pending_of_completes completes).2.2.lane
        refine ⟨c.context cfg t, ?_⟩
        rw [Core.progress_context lane, completes]
        rfl
  | memReq => exact work.rank_request state
  | memResp => exact work.rank_response state

end AtWork

end OpenGPU
