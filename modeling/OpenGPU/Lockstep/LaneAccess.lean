import OpenGPU.Lockstep.CoreAtWork

/-!
# The accesses of a core at work

Where the threads of a block stay inside physical memory, so does the core that works on
it, and its accesses are as aligned as theirs.
-/

namespace OpenGPU

open Instruction

/-! ## One lane -/

/-- A load or store of a thread that goes on stays inside physical memory and is naturally
aligned. -/
theorem LaneIs.access
    {cfg : Config}
    {cid : Nat}
    {c : Core}
    {t : Nat}
    {core next : IssCore}
    {pmem after : Pmem}
    (same : LaneIs cfg cid c t core)
    (moved : Iss.cleanStep cfg core pmem = some (next, after))
    (word : Iss.wordAt pmem core.pc = c.inst)
    (plain : Iss.Plain core c.inst)
    (memory : opcode c.inst = 0x03 ∨ opcode c.inst = 0x23) :
    let addr := c.laneRegister cfg t (rs1 c.inst) +
      (if opcode c.inst = 0x03 then immI c.inst else immS c.inst)
    inPmem cfg addr = true ∧ (funct3 c.inst = 1 → addr.toNat % 2 = 0) := by
  have legal := (Iss.legal_of_cleanStep moved).2
  have inside : Iss.StaysInside cfg core pmem := Iss.execute_isSome_iff.mp
    (Option.isSome_iff_exists.mpr ⟨_, Iss.cleanStep_eq_some_iff.mp moved⟩)
  rw [word] at legal
  have base : core.gpr (rs1 c.inst).toNat = c.laneRegister cfg t (rs1 c.inst) :=
    same.source1 legal (by rcases memory with code | code <;> (rw [code]; rfl))
  obtain ⟨width, bytes, aligned, positive, half⟩ : ∃ width,
      BytesInPmem cfg (core.gpr (rs1 c.inst).toNat +
        (if opcode c.inst = 0x03 then immI c.inst else immS c.inst)) width ∧
      (core.gpr (rs1 c.inst).toNat +
        (if opcode c.inst = 0x03 then immI c.inst else immS c.inst)).toNat % width = 0 ∧
      0 < width ∧ (funct3 c.inst = 1 → width = 2) := by
    rcases memory with code | code
    · obtain ⟨width, found, access⟩ := Iss.loadAccess_of_cleanStep moved (by rwa [word])
      have bytes := inside.load _ access
      rw [word] at found access bytes
      rw [if_pos code]
      have aligned := plain.load _ access
      unfold Iss.NaturallyAligned at aligned
      refine ⟨width, bytes, aligned, ?_⟩
      rcases loadWidth_cases found with
        ⟨f3, rfl⟩ | ⟨f3, rfl⟩ | ⟨f3, rfl⟩ | ⟨f3, rfl⟩ | ⟨f3, rfl⟩ <;> simp [f3]
    · obtain ⟨width, found, access⟩ := Iss.storeAccess_of_cleanStep moved (by rwa [word])
      have bytes := inside.store _ access
      rw [word] at found access bytes
      rw [if_neg (by rw [code]; decide)]
      have aligned := plain.store _ access
      unfold Iss.NaturallyAligned at aligned
      refine ⟨width, bytes, aligned, ?_⟩
      rcases storeWidth_cases found with ⟨f3, rfl⟩ | ⟨f3, rfl⟩ | ⟨f3, rfl⟩ <;> simp [f3]
  rw [base] at bytes aligned
  refine ⟨by simpa using bytes 0 positive, fun minor => ?_⟩
  rwa [half minor] at aligned

/-! ## From the request to the response -/

/-- A core comes to `MEM_RESP` only from `MEM_REQ`, with the same access. -/
theorem Core.request_of_response
    {cfg : Config}
    {c : Core}
    {mem : ShadowMemory}
    {launch : LaunchRegisters}
    {cid : Nat}
    (active : c.ctaActive = true)
    (response : (c.stepCore cfg mem launch cid false).state = .memResp) :
    c.state = .memReq ∧ hasLane c.im c.mt = true ∧
      c.stepCore cfg mem launch cid false = { c with state := .memResp } := by
  have atWork : ¬(!c.ctaActive) = true := by simp [active]
  unfold Core.stepCore at response ⊢
  rw [if_neg Bool.false_ne_true, if_neg atWork] at response ⊢
  cases state : c.state with
  | sched =>
      rw [state] at response
      dsimp only [schedule] at response
      cases found : circularFirst cfg.numWarps c.rr c.valid with
      | none =>
          rw [found] at response
          exact CoreState.noConfusion (state.symm.trans response)
      | some selected =>
          rw [found] at response
          exact CoreState.noConfusion response
  | fetch =>
      rw [state] at response
      exact CoreState.noConfusion response
  | exec =>
      rw [state] at response
      dsimp only [execute] at response
      split_ifs at response <;> exact CoreState.noConfusion response
  | memReq =>
      rw [state] at response
      dsimp only [memoryRequest] at response ⊢
      split_ifs at response ⊢ with present last
      · exact ⟨rfl, present, rfl⟩
      · exact CoreState.noConfusion response
      · exact CoreState.noConfusion (state.symm.trans response)
  | memResp =>
      rw [state] at response
      dsimp only [memoryResponse] at response
      split_ifs at response <;> exact CoreState.noConfusion response

/-! ## A core at work -/

section AtWork

variable {cfg : Config} {info : LaunchInfo} {blockSize : Word} {b : Nat}
  {runs : LaneRuns cfg info blockSize b} {q : Nat → Nat} {mem : ShadowMemory}
  {ledger : LaneLedger} {c : Core}

/-- A fetch stays inside physical memory. -/
theorem AtWork.fetch_inside
    (work : AtWork runs q mem ledger c)
    (state : c.state = .fetch) :
    BytesInPmem cfg c.ip 4 := by
  have notSched : c.state ≠ .sched := by
    rw [state]
    exact CoreState.noConfusion
  obtain ⟨t, present⟩ := work.exists_issued notSched
  have unserved : ¬c.Served t := Core.not_served fun memory => by
    rcases memory with moved | moved <;> exact CoreState.noConfusion (state.symm.trans moved)
  have pending := work.pending notSched present unserved
  rw [← pending.stands.address]
  exact (Iss.legal_of_cleanStep pending.moved).1

/-- So does a load or store, and a halfword of it is at an even address. -/
theorem AtWork.access
    (work : AtWork runs q mem ledger c)
    (state : c.state = .memReq)
    (present : hasLane c.im c.mt = true) :
    inPmem cfg (c.memoryAddress cfg) = true ∧
      (funct3 c.inst = 1 → (c.memoryAddress cfg).toNat % 2 = 0) := by
  have notSched : c.state ≠ .sched := by
    rw [state]
    exact CoreState.noConfusion
  have unserved : ¬c.Served c.mt := fun served =>
    absurd ((Core.served_iff_of_request state).mp served) (lt_irrefl _)
  have pending := work.pending notSched present unserved
  have word := pending.word (by rw [state]; exact CoreState.noConfusion)
  have plain := runs.plain _ _ pending.stands.inBlock pending.stands.awake
  change Iss.Plain _ (runs.word _ _) at plain
  rw [word] at plain
  exact (pending.same 0).access pending.moved word plain (work.positions.memory (Or.inl state))

/-- What a core presents to the memory is a store to a word of it. -/
theorem AtWork.captured_inside
    (work : AtWork runs q mem ledger c)
    {s : Store}
    (captured : Model.captureStore cfg c = some s) :
    ∃ addr, s.addr = wordAddress addr ∧ inPmem cfg (wordAddress addr) = true := by
  unfold Model.captureStore at captured
  split_ifs at captured with presents
  cases captured
  refine ⟨c.memoryAddress cfg, rfl, ?_⟩
  have window := wordAddress_inPmem (work.access presents.2.1 presents.2.2.1).1
  rw [inPmem_iff]
  omega

/-- No halfword crosses a word. -/
theorem AtWork.not_crossing
    (work : AtWork runs q mem ledger c)
    (state : c.state = .memReq)
    (present : hasLane c.im c.mt = true) :
    ¬(funct3 c.inst = 1 ∧ wordOffset (c.memoryAddress cfg) = 3) := by
  rintro ⟨minor, offset⟩
  have even := (work.access state present).2 minor
  rw [wordOffset_eq_mod] at offset
  omega

end AtWork

end OpenGPU
