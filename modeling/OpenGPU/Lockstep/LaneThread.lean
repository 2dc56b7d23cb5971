import OpenGPU.Iss.OwnRuns
import OpenGPU.Lockstep.MemoryAccess
import OpenGPU.Lockstep.ThreadStep

/-!
# A lane and its context, one instruction

What a context does in one instruction that does not fault is what the cycle model does to
its lane: in `EXEC` for most words, and in the memory states for loads and stores. The
instruction has to be plain, and the physical id may differ.
-/

namespace OpenGPU

open Instruction

/-- The context with another physical id. -/
def IssCore.placedAt (core : IssCore) (id : Word) : IssCore := { core with physicalId := id }

/-- `core` is the context of lane `t`, wherever the block runs. -/
def LaneIs (cfg : Config) (cid : Nat) (c : Core) (t : Nat) (core : IssCore) : Prop :=
  IsThread cfg cid c t
    (core.placedAt (BitVec.ofNat 32 (cid * cfg.contexts + c.iw * cfg.numThreads + t)))

/-- A word that does not read the physical id gives the same result everywhere. -/
theorem threadResult_placedAt
    {core : IssCore}
    {inst : Word}
    (noId : opcode inst = 0x73 → funct3 inst = 2 → rs1 inst = 0 → csr inst ≠ 0xccd)
    (id : Word) :
    Iss.threadResult (core.placedAt id) inst = Iss.threadResult core inst := by
  have others : ∀ number : Word, number ≠ 0xccd →
      (core.placedAt id).csrValue number = core.csrValue number := by
    intro number other
    unfold IssCore.csrValue
    rw [if_neg other, if_neg other]
    rfl
  unfold Iss.threadResult
  by_cases reads : opcode inst = 0x73 ∧ funct3 inst = 2 ∧ rs1 inst = 0
  · rw [others _ (noId reads.1 reads.2.1 reads.2.2)]
    rfl
  · rcases eq_or_ne (opcode inst) 0x73 with system | system
    · have noRead : ¬(funct3 inst = 2 ∧ rs1 inst = 0) := fun read => reads ⟨system, read⟩
      rw [if_neg noRead, if_neg noRead]
      rfl
    · rw [if_neg system, if_neg system]
      rfl

namespace Iss

variable {cfg : Config} {core next : IssCore} {pmem after : Pmem}

/-- What a step without a fault has checked. -/
theorem legal_of_cleanStep
    (moved : cleanStep cfg core pmem = some (next, after)) :
    BytesInPmem cfg core.pc 4 ∧ badRegister (wordAt pmem core.pc) = false := by
  rw [cleanStep_eq_some_iff] at moved
  have inside : StaysInside cfg core pmem :=
    execute_isSome_iff.mp (Option.isSome_iff_exists.mpr ⟨_, moved⟩)
  refine ⟨inside.fetch, ?_⟩
  rw [execute_eq] at moved
  split_ifs at moved with access bad
  · cases moved
  · exact Bool.eq_false_of_not_eq_true bad

/-- The switch of such a step. -/
theorem dispatch_of_cleanStep
    (moved : cleanStep cfg core pmem = some (next, after)) :
    dispatch cfg core pmem alone (wordAt pmem core.pc) = some ⟨next, after, false⟩ :=
  dispatch_of_clean (cleanStep_eq_some_iff.mp moved) rfl

/-- A load that goes on has a width. -/
theorem loadAccess_of_cleanStep
    (moved : cleanStep cfg core pmem = some (next, after))
    (code : opcode (wordAt pmem core.pc) = 0x03) :
    ∃ width, loadWidth (funct3 (wordAt pmem core.pc)) = some width ∧
      (core.gpr (rs1 (wordAt pmem core.pc)).toNat + immI (wordAt pmem core.pc), width) ∈
        loadAccess core (wordAt pmem core.pc) := by
  have legal := (legal_of_cleanStep moved).2
  have ran := dispatch_of_cleanStep moved
  rw [dispatch_load code, Option.map_eq_some_iff] at ran
  obtain ⟨⟨value, faulted⟩, loaded, ran⟩ := ran
  cases found : loadWidth (funct3 (wordAt pmem core.pc)) with
  | none =>
      rw [loadMem, found] at loaded
      cases loaded
      cases ran
  | some width =>
      refine ⟨width, rfl, ?_⟩
      rw [loadAccess, legal, code, found]
      rfl

/-- So has a store. -/
theorem storeAccess_of_cleanStep
    (moved : cleanStep cfg core pmem = some (next, after))
    (code : opcode (wordAt pmem core.pc) = 0x23) :
    ∃ width, storeWidth (funct3 (wordAt pmem core.pc)) = some width ∧
      (core.gpr (rs1 (wordAt pmem core.pc)).toNat + immS (wordAt pmem core.pc), width) ∈
        storeAccess core (wordAt pmem core.pc) := by
  have legal := (legal_of_cleanStep moved).2
  have ran := dispatch_of_cleanStep moved
  rw [dispatch_store code, Option.map_eq_some_iff] at ran
  obtain ⟨⟨written, faulted⟩, stored, ran⟩ := ran
  cases found : storeWidth (funct3 (wordAt pmem core.pc)) with
  | none =>
      rw [storeMem, found] at stored
      cases stored
      cases ran
  | some width =>
      refine ⟨width, rfl, ?_⟩
      rw [storeAccess, legal, code, found]
      rfl

/-- A plain right shift has one kind for both decoders. -/
theorem Plain.not_mixedShift
    {inst : Word}
    (plain : Plain core inst) :
    ¬MixedShift inst := by
  rintro ⟨code, minor, bit, top⟩
  refine bit ?_
  have zero := (plain.shift code minor).resolve_right top
  rw [show inst >>> 30 = funct7 inst >>> 5 from BitVec.shiftRight_add inst 25 5, zero]
  decide

end Iss

section Lane

variable {cfg : Config} {cid : Nat} {c : Core} {t : Nat} {core next : IssCore}
  {pmem after : Pmem}

theorem LaneIs.pc
    (same : LaneIs cfg cid c t core) :
    core.pc = c.ip := by
  have pc := IsThread.pc same
  exact pc

theorem LaneIs.gpr
    (same : LaneIs cfg cid c t core)
    {r : Nat}
    (small : r < 16) :
    core.gpr r = c.gpr (c.context cfg t) r := by
  have row := IsThread.gpr same r small
  exact row

theorem LaneIs.awake
    (same : LaneIs cfg cid c t core) :
    core.halted = false := by
  have halted := congrArg IssCore.halted (IsThread.rest same)
  exact halted

/-- The source registers of a word that passes the register check. -/
theorem LaneIs.source1
    (same : LaneIs cfg cid c t core)
    (legal : badRegister c.inst = false)
    (reads : usesRs1 (opcode c.inst) = true) :
    core.gpr (rs1 c.inst).toNat = c.laneRegister cfg t (rs1 c.inst) := by
  have register := IsThread.rs1 same legal reads
  exact register

theorem LaneIs.source2
    (same : LaneIs cfg cid c t core)
    (legal : badRegister c.inst = false)
    (reads : usesRs2 (opcode c.inst) = true) :
    core.gpr (rs2 c.inst).toNat = c.laneRegister cfg t (rs2 c.inst) := by
  have register := IsThread.rs2 same legal reads
  exact register

/-- The target of `JALR`. -/
theorem LaneIs.jalrTarget
    (same : LaneIs cfg cid c t core)
    (legal : badRegister c.inst = false)
    (code : opcode c.inst = 0x67) :
    core.jalrTarget c.inst = c.laneTarget cfg t := by
  have target := IsThread.jalrTarget same legal code
  exact target

/-- A word that is no load, store, branch or `EBREAK`. -/
theorem LaneIs.straight
    (same : LaneIs cfg cid c t core)
    (moved : Iss.cleanStep cfg core pmem = some (next, after))
    (word : Iss.wordAt pmem core.pc = c.inst)
    (plain : Iss.Plain core c.inst)
    (noLoad : opcode c.inst ≠ 0x03)
    (noStore : opcode c.inst ≠ 0x23)
    (noBranch : opcode c.inst ≠ 0x63)
    (noEbreak : c.inst ≠ ebreak) :
    after = pmem ∧ Core.supported c.inst = true ∧ next.halted = false ∧
      next.pc = Iss.threadNext core c.inst ∧
      ∀ r, r < 16 → next.gpr r =
        writtenRow (Core.writes c.inst) (rd c.inst).toNat ((c.issuedResult cfg cid t).getD 0)
          (c.gpr (c.context cfg t)) r := by
  have legal := (Iss.legal_of_cleanStep moved).2
  have ran := Iss.dispatch_of_cleanStep moved
  rw [word] at legal ran
  rw [Iss.dispatch_thread noLoad noStore noBranch noEbreak fun _ => rfl] at ran
  have results : Iss.threadResult core c.inst = c.issuedResult cfg cid t := by
    rw [← threadResult_placedAt plain.csr]
    exact (IsThread.threadResult_eq_iff same legal).mpr fun mixed => plain.not_mixedShift mixed.1
  have supported := IsThread.threadResult_isSome same
  rw [threadResult_placedAt plain.csr] at supported
  cases computed : Iss.threadResult core c.inst with
  | none =>
      rw [computed] at ran
      cases ran
  | some value =>
      rw [computed] at ran supported
      cases ran
      refine ⟨rfl, supported.symm, ?_, rfl, fun r small => ?_⟩
      · show (core.halted || false) = false
        rw [same.awake, Bool.or_false]
      · rw [← results, computed, Option.getD_some]
        exact writtenRow_congr _ _ _ (same.gpr small)

/-- A write of nothing keeps a row whose register zero is zero. -/
theorem writtenRow_false
    {row row' : Nat → Word}
    (register : Nat)
    (value : Word)
    (zero : row' 0 = 0)
    (same : ∀ r, r < 16 → row r = row' r) :
    ∀ r, r < 16 → writtenRow false register value row r = row' r := by
  intro r small
  rcases eq_or_ne r 0 with rfl | positive
  · rw [writtenRow_zero, zero]
  · rw [writtenRow_of_ne_zero _ _ _ _ positive, if_neg fun both => Bool.false_ne_true both.1]
    exact same r small

/-- A branch. -/
theorem LaneIs.branch
    (same : LaneIs cfg cid c t core)
    (moved : Iss.cleanStep cfg core pmem = some (next, after))
    (word : Iss.wordAt pmem core.pc = c.inst)
    (zero : c.gpr (c.context cfg t) 0 = 0)
    (code : opcode c.inst = 0x63) :
    after = pmem ∧ Core.branchGood (funct3 c.inst) = true ∧ next.halted = false ∧
      next.pc = (if c.laneTakes cfg t then c.ip + immB c.inst else c.ip + 4) ∧
      ∀ r, r < 16 → next.gpr r = c.gpr (c.context cfg t) r := by
  have legal := (Iss.legal_of_cleanStep moved).2
  have ran := Iss.dispatch_of_cleanStep moved
  rw [word] at legal ran
  have left := same.source1 legal (by rw [code]; rfl)
  have right := same.source2 legal (by rw [code]; rfl)
  rw [Iss.dispatch_branch code, branchTake_eq, left, right] at ran
  cases good : Core.branchGood (funct3 c.inst) with
  | false =>
      rw [good] at ran
      cases ran
  | true =>
      rw [good] at ran
      cases ran
      refine ⟨rfl, rfl, ?_, ?_, ?_⟩
      · show (core.halted || false) = false
        rw [same.awake, Bool.or_false]
      · rw [← same.pc]
        rfl
      · have noWrite : (usesRd (opcode c.inst) && rd c.inst != 0) = false := by
          rw [code]
          rfl
        intro r small
        show writtenRow (usesRd (opcode c.inst) && rd c.inst != 0) (rd c.inst).toNat 0 core.gpr r = _
        rw [noWrite]
        exact writtenRow_false _ _ zero (fun _ small => same.gpr small) r small

/-- `EBREAK`. -/
theorem LaneIs.ebreak
    (moved : Iss.cleanStep cfg core pmem = some (next, after))
    (word : Iss.wordAt pmem core.pc = Instruction.ebreak) :
    after = pmem ∧ next.halted = true := by
  have ran := Iss.dispatch_of_cleanStep moved
  rw [word, Iss.dispatch_system (by decide), if_pos rfl] at ran
  cases ran
  exact ⟨rfl, rfl⟩

/-- A naturally aligned access stays in one word. -/
theorem wordOffset_add_le
    {addr : Word}
    {width : Nat}
    (aligned : Iss.NaturallyAligned (addr, width))
    (sizes : width = 1 ∨ width = 2 ∨ width = 4) :
    wordOffset addr + width ≤ 4 := by
  unfold Iss.NaturallyAligned at aligned
  rw [wordOffset_eq_mod]
  rcases sizes with rfl | rfl | rfl <;> simp only at aligned <;> omega

/-- A load, from a memory that holds the same bytes where the context loads. -/
theorem LaneIs.load
    (same : LaneIs cfg cid c t core)
    (moved : Iss.cleanStep cfg core pmem = some (next, after))
    (word : Iss.wordAt pmem core.pc = c.inst)
    (plain : Iss.Plain core c.inst)
    (code : opcode c.inst = 0x03)
    {mem : ShadowMemory}
    (size : mem.size = cfg.msize.toNat)
    (agree : Set.EqOn mem.bytes pmem (Iss.loadedBytes core c.inst)) :
    after = pmem ∧ next.halted = false ∧ next.pc = c.ip + 4 ∧
      ∀ r, r < 16 → next.gpr r =
        writtenRow (Core.writes c.inst) (rd c.inst).toNat
          (Core.loadValue cfg mem (c.laneRegister cfg t (rs1 c.inst) + immI c.inst)
            (funct3 c.inst))
          (c.gpr (c.context cfg t)) r := by
  have legal := (Iss.legal_of_cleanStep moved).2
  have inside : Iss.StaysInside cfg core pmem := Iss.execute_isSome_iff.mp
    (Option.isSome_iff_exists.mpr ⟨_, Iss.cleanStep_eq_some_iff.mp moved⟩)
  have ran := Iss.dispatch_of_cleanStep moved
  rw [word] at legal ran
  have base : core.gpr (rs1 c.inst).toNat = c.laneRegister cfg t (rs1 c.inst) :=
    same.source1 legal (by rw [code]; rfl)
  obtain ⟨width, found, access⟩ := Iss.loadAccess_of_cleanStep moved (by rwa [word])
  rw [word] at found access
  rw [Iss.dispatch_load code, Option.map_eq_some_iff] at ran
  obtain ⟨⟨value, faulted⟩, loaded, ran⟩ := ran
  have bytes := inside.load _ (by rw [word]; exact access)
  have aligned := wordOffset_add_le (plain.load _ access) (by
    rcases loadWidth_cases found with ⟨_, w⟩ | ⟨_, w⟩ | ⟨_, w⟩ | ⟨_, w⟩ | ⟨_, w⟩ <;> omega)
  have agrees := (loadAgrees_iff mem.bytes found bytes).mpr (Or.inl aligned)
  have copied : ShadowMemory.of cfg mem.bytes = mem := by
    rw [ShadowMemory.of, ← size]
  have sameLoad : Iss.loadMem cfg mem.bytes (core.gpr (rs1 c.inst).toNat + immI c.inst)
      (funct3 c.inst) = Iss.loadMem cfg pmem (core.gpr (rs1 c.inst).toNat + immI c.inst)
        (funct3 c.inst) := by
    apply Iss.loadMem_congr
    intro other member a here
    obtain rfl : other = width := Option.mem_unique member found
    exact agree ⟨_, access, here⟩
  rw [LoadAgrees, copied, sameLoad, loaded, Option.some_inj, Prod.mk.injEq] at agrees
  obtain ⟨rfl, rfl⟩ := agrees
  cases ran
  refine ⟨rfl, ?_, ?_, fun r small => ?_⟩
  · show (core.halted || false) = false
    rw [same.awake, Bool.or_false]
  · rw [← same.pc]
  · rw [← base]
    exact writtenRow_congr _ _ _ (same.gpr small)

/-- What a store of the cycle model does to the memory, in the terms of the simulator. -/
structure Stores (cfg : Config) (s : Store) (places : Set Word) (value : Word → Byte) : Prop where
  inside : ∀ p a, a ∈ places →
    (Model.storeRef cfg (ShadowMemory.of cfg p) s).bytes a = value a
  outside : ∀ p a, a ∉ places → (Model.storeRef cfg (ShadowMemory.of cfg p) s).bytes a = p a
  size : ∀ p, Model.storeRef cfg (ShadowMemory.of cfg p) s =
    ShadowMemory.of cfg (Model.storeRef cfg (ShadowMemory.of cfg p) s).bytes

/-- A store. -/
theorem LaneIs.store
    (same : LaneIs cfg cid c t core)
    (moved : Iss.cleanStep cfg core pmem = some (next, after))
    (word : Iss.wordAt pmem core.pc = c.inst)
    (plain : Iss.Plain core c.inst)
    (zero : c.gpr (c.context cfg t) 0 = 0)
    (code : opcode c.inst = 0x23) :
    next.halted = false ∧ next.pc = c.ip + 4 ∧
      (∀ r, r < 16 → next.gpr r = c.gpr (c.context cfg t) r) ∧
      Stores cfg
        (storeTransaction (c.laneRegister cfg t (rs1 c.inst) + immS c.inst)
          (c.laneRegister cfg t (rs2 c.inst)) (funct3 c.inst))
        (Iss.storedBytes core c.inst) after := by
  have legal := (Iss.legal_of_cleanStep moved).2
  have inside : Iss.StaysInside cfg core pmem := Iss.execute_isSome_iff.mp
    (Option.isSome_iff_exists.mpr ⟨_, Iss.cleanStep_eq_some_iff.mp moved⟩)
  have ran := Iss.dispatch_of_cleanStep moved
  rw [word] at legal ran
  have base : core.gpr (rs1 c.inst).toNat = c.laneRegister cfg t (rs1 c.inst) :=
    same.source1 legal (by rw [code]; rfl)
  have data : core.gpr (rs2 c.inst).toNat = c.laneRegister cfg t (rs2 c.inst) :=
    same.source2 legal (by rw [code]; rfl)
  obtain ⟨width, found, access⟩ := Iss.storeAccess_of_cleanStep moved (by rwa [word])
  rw [word] at found access
  rw [← base, ← data]
  rw [Iss.dispatch_store code, Option.map_eq_some_iff] at ran
  obtain ⟨⟨written, faulted⟩, stored, ran⟩ := ran
  have places : Iss.storedBytes core c.inst =
      accessBytes (core.gpr (rs1 c.inst).toNat + immS c.inst) width := by
    ext a
    constructor
    · rintro ⟨other, member, here⟩
      rwa [Option.mem_unique member access] at here
    · exact fun here => ⟨_, access, here⟩
  have bytes := inside.store _ (by rw [word]; exact access)
  have sizes := storeWidth_cases found
  have positive : 0 < width := by omega
  have aligned := wordOffset_add_le (plain.store _ access) (by omega)
  have whole : ∀ p : Pmem, Iss.storeMem cfg p (core.gpr (rs1 c.inst).toNat + immS c.inst)
      (core.gpr (rs2 c.inst).toNat) (funct3 c.inst) =
        some (writeBytes p (core.gpr (rs1 c.inst).toNat + immS c.inst) width
          (core.gpr (rs2 c.inst).toNat), false) := by
    intro p
    rw [Iss.storeMem, found]
    show (paddrWrite cfg p _ width _).map _ = _
    rw [paddrWrite, if_pos (bytes.access positive)]
    rfl
  have reference : ∀ p : Pmem, (Model.storeRef cfg (ShadowMemory.of cfg p)
      (storeTransaction (core.gpr (rs1 c.inst).toNat + immS c.inst)
        (core.gpr (rs2 c.inst).toNat) (funct3 c.inst))).bytes =
      writeBytes p (core.gpr (rs1 c.inst).toNat + immS c.inst) width
        (core.gpr (rs2 c.inst).toNat) := by
    intro p
    have agrees := (storeAgrees_iff p (core.gpr (rs2 c.inst).toNat) found bytes).mpr
      (Or.inl aligned)
    rw [StoreAgrees, whole, Option.some_inj, Prod.mk.injEq] at agrees
    exact agrees.1.symm
  rw [whole] at stored
  cases stored
  cases ran
  refine ⟨?_, ?_, ?_, ?_⟩
  · show (core.halted || false) = false
    rw [same.awake, Bool.or_false]
  · rw [← same.pc]
  · have noWrite : (usesRd (opcode c.inst) && rd c.inst != 0) = false := by
      rw [code]
      rfl
    intro r small
    show writtenRow (usesRd (opcode c.inst) && rd c.inst != 0) (rd c.inst).toNat 0 core.gpr r = _
    rw [noWrite]
    exact writtenRow_false _ _ zero (fun _ small => same.gpr small) r small
  · refine ⟨fun p a here => ?_, fun p a here => ?_, fun p => ?_⟩
    · rw [places] at here
      rw [reference]
      exact (if_pos here).trans (if_pos here).symm
    · rw [places] at here
      rw [reference]
      exact if_neg here
    · obtain ⟨above, below⟩ := wordAddress_inPmem (show inPmem cfg _ = true by
        simpa using bytes 0 positive)
      rw [storeRef_of p above below]
      rfl

end Lane

end OpenGPU
