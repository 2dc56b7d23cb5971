import OpenGPU.Foundation.WriteList
import OpenGPU.Lockstep.MemoryEffect

/-!
# Minor opcodes of memory instructions

The backends agree on an instruction unless they treat its minor opcode
differently: SpinalHDL keeps the word of a reserved load where the others return
zero, and Chisel drops a reserved store where the others write a word.
-/

namespace OpenGPU

open Verilog Verilog.GPUCore

variable {cfg : Config}

/-! ## Masks and values -/

/-- A store looks at the four low mask bits. -/
theorem dpiPaddrWrite_congr
    (pmem : Pmem)
    (addr data : Word)
    {mask mask' : BitVec 8}
    (same : ∀ byte, byte < 4 → mask.getLsbD byte = mask'.getLsbD byte) :
    dpiPaddrWrite cfg pmem addr mask data = dpiPaddrWrite cfg pmem addr mask' data := by
  unfold dpiPaddrWrite
  apply foldlM_congr_mem
  intro pmem byte member
  unfold dpiWriteByte
  rw [same byte (List.mem_range.mp member)]

/-- A store without bytes does nothing. -/
theorem dpiPaddrWrite_none
    (pmem : Pmem)
    (addr data : Word) :
    dpiPaddrWrite cfg pmem addr 0 data = some pmem := by
  have quiet : ∀ pmem byte, dpiWriteByte cfg addr 0 data pmem byte = some pmem := by
    intro pmem byte
    rw [dpiWriteByte, show (0 : BitVec 8).getLsbD byte = false from BitVec.getLsbD_zero,
      if_neg Bool.false_ne_true]
  unfold dpiPaddrWrite
  rw [foldlM_congr_mem pmem fun pmem byte _ => quiet pmem byte]
  rfl

/-! ## Loads -/

namespace Verilog.GPUCore

variable {h : GPUCore cfg}

/-- The address of the word that lane `t` accesses. -/
def accessWord (h : GPUCore cfg) (gprs : Nat → Word) (t : Nat) : Word :=
  wordAddress (h.accessAddress gprs t)

/-- Lanes that write end with the same registers exactly when their results are the
same. -/
theorem foldl_writeLane_eq_iff
    (legal : Decode.badRegister h.issueInst = false)
    (result result' gprs : Nat → Word) :
    (List.range cfg.numThreads).foldl (h.writeLane result) gprs =
        (List.range cfg.numThreads).foldl (h.writeLane result') gprs ↔
      (writes h.issueInst = true → ∀ t, t < cfg.numThreads → h.issueMask.getLsbD t = true →
        result t = result' t) := by
  constructor
  · intro same writing t lane active
    have destination := register_rd_ne_zero ((Instruction.badRegister_eq _).trans legal) writing
    have small := Instruction.register_lt (Decode.rd h.issueInst)
    have owner : laneOf (h.warp * cfg.numThreads) cfg.numThreads
        ((h.context t * 16 + Decode.register (Decode.rd h.issueInst)) / 16) = some t := by
      rw [laneOf_eq_some_iff]
      refine ⟨lane, ?_⟩
      show _ = h.context t
      omega
    have here := congrFun same (h.context t * 16 + Decode.register (Decode.rd h.issueInst))
    rw [(h.writeLane_actsOnParts result).foldl_of_owner gprs (Nat.le_refl _) owner lane,
      (h.writeLane_actsOnParts result').foldl_of_owner gprs (Nat.le_refl _) owner lane,
      writeLane_self _ _ _ _ small, writeLane_self _ _ _ _ small, if_pos active, if_pos active,
      writtenRow_of_ne_zero _ _ _ _ destination, writtenRow_of_ne_zero _ _ _ _ destination,
      if_pos ⟨writing, rfl⟩, if_pos ⟨writing, rfl⟩] at here
    exact here
  · intro same
    apply List.foldl_ext
    intro gprs t member
    apply writeLane_congr
    intro active writing
    exact same writing t (List.mem_range.mp member) active

end Verilog.GPUCore

/-- A reserved load returns zero in the SystemVerilog and Chisel cores. -/
theorem Verilog.GPUCore.rules_value_reserved
    {f3 : BitVec 3}
    (reserved : f3 = 3 ∨ f3 = 6 ∨ f3 = 7)
    (offset : Nat)
    (rdata : Word) :
    GPUCore.rules.value f3 offset rdata = 0 ∧ Spinal.rules.value f3 offset rdata = rdata := by
  rcases reserved with rfl | rfl | rfl <;> exact ⟨rfl, rfl⟩

/-- The other minor opcodes of loads have one meaning. -/
theorem Spinal.rules_value_legal
    {f3 : BitVec 3}
    (legal : f3 = 0 ∨ f3 = 1 ∨ f3 = 2 ∨ f3 = 4 ∨ f3 = 5)
    (offset : Nat)
    (rdata : Word) :
    Spinal.rules.value f3 offset rdata = GPUCore.rules.value f3 offset rdata := by
  rcases legal with rfl | rfl | rfl | rfl | rfl <;> rfl

section Loads

variable {h : GPUCore cfg}

/-- A load that returns zero in every backend, or writes nothing. -/
def Verilog.GPUCore.ReadsZero (h : GPUCore cfg) (pmem : Pmem) : Prop :=
  Decode.opcode h.issueInst = Decode.load ∧
    (Decode.rd h.issueInst = 0 ∨ ∀ t, t < cfg.numThreads → h.issueMask.getLsbD t = true →
      pmemWord cfg pmem (h.accessWord h.gprs t) = 0)

/-- The Chisel core loads as the SystemVerilog core does. -/
theorem Chisel.Core.stageEffect_load
    (load : Decode.opcode h.issueInst = Decode.load)
    (d : StageData) :
    stageEffect Chisel.Core.rules h d = stageEffect GPUCore.rules h d := by
  rw [GPUCore.stageEffect_load _ load, GPUCore.stageEffect_load _ load]
  rfl

/-- The SpinalHDL core loads as the SystemVerilog core does, reserved minor opcodes
apart. -/
theorem Spinal.stageEffect_load_iff
    (load : Decode.opcode h.issueInst = Decode.load)
    (legal : Decode.badRegister h.issueInst = false)
    (pmem : Pmem) :
    stageEffect Spinal.rules h ⟨h.gprs, pmem⟩ = stageEffect GPUCore.rules h ⟨h.gprs, pmem⟩ ↔
      isLegalAccess h.issueInst = true ∨ h.ReadsZero pmem := by
  rw [GPUCore.stageEffect_load _ load, GPUCore.stageEffect_load _ load, Option.some_inj,
    StageData.mk.injEq, and_iff_left rfl, foldl_writeLane_eq_iff legal, writes_of_load load]
  have words : isLegalAccess h.issueInst = true ∨ (isLegalAccess h.issueInst = false ∧
      (Decode.funct3 h.issueInst = 3 ∨ Decode.funct3 h.issueInst = 6 ∨
        Decode.funct3 h.issueInst = 7)) := by
    unfold isLegalAccess
    rw [load]
    generalize Decode.funct3 h.issueInst = f3
    revert f3
    decide
  rcases words with word | ⟨word, reserved⟩
  · refine iff_of_true (fun _ t _ _ => ?_) (Or.inl word)
    have minor : Decode.funct3 h.issueInst = 0 ∨ Decode.funct3 h.issueInst = 1 ∨
        Decode.funct3 h.issueInst = 2 ∨ Decode.funct3 h.issueInst = 4 ∨
        Decode.funct3 h.issueInst = 5 := legal_funct3 word
    exact Spinal.rules_value_legal minor _ _
  · have lanes : ∀ t, laneLoaded Spinal.rules h ⟨h.gprs, pmem⟩ t =
        laneLoaded GPUCore.rules h ⟨h.gprs, pmem⟩ t ↔
          pmemWord cfg pmem (h.accessWord h.gprs t) = 0 := by
      intro t
      unfold laneLoaded
      rw [(rules_value_reserved reserved _ _).1, (rules_value_reserved reserved _ _).2]
      rfl
    rw [word, ReadsZero, eq_true load, true_and, bne_iff_ne]
    simp only [Bool.false_eq_true, false_or, lanes]
    rcases eq_or_ne (Decode.rd h.issueInst) 0 with zero | writing
    · exact iff_of_true (fun nonzero => absurd zero nonzero) (Or.inl zero)
    · rw [or_iff_right writing]
      exact ⟨fun all => all writing, fun all _ => all⟩

end Loads

/-! ## Stores -/

section Stores

variable {h : GPUCore cfg}

/-- A store whose every byte is in memory already. -/
def Verilog.GPUCore.RewritesMemory (h : GPUCore cfg) (pmem : Pmem) : Prop :=
  Decode.opcode h.issueInst = Decode.store ∧
    ∀ t, t < cfg.numThreads → h.issueMask.getLsbD t = true →
      inPmem cfg (h.accessWord h.gprs t) = true ∧
        ((∀ later, t < later → later < cfg.numThreads → h.issueMask.getLsbD later = true →
            h.accessWord h.gprs later ≠ h.accessWord h.gprs t) →
          pmemWord cfg pmem (h.accessWord h.gprs t) = h.accessData h.gprs t)

/-- The SpinalHDL core stores as the SystemVerilog core does: their masks differ
above the word at most. -/
theorem Spinal.stageEffect_store
    (store : Decode.opcode h.issueInst = Decode.store)
    (d : StageData) :
    stageEffect Spinal.rules h d = stageEffect GPUCore.rules h d := by
  have masks : ∀ f3 offset, offset < 4 → ∀ byte, byte < 4 →
      (Spinal.rules.mask f3 offset).getLsbD byte =
        (GPUCore.rules.mask f3 offset).getLsbD byte := by
    intro f3 offset inWord byte inMask
    unfold Spinal.rules GPUCore.rules
    dsimp only
    split_ifs
    · interval_cases offset <;> interval_cases byte <;> rfl
    · interval_cases offset <;> interval_cases byte <;> rfl
    · interval_cases byte <;> rfl
  rw [GPUCore.stageEffect_store _ store, GPUCore.stageEffect_store _ store]
  refine congrArg (Option.map _) (foldlM_congr_mem _ fun pmem t _ => ?_)
  unfold laneStored
  refine ite_congr rfl (fun _ => ?_) fun _ => rfl
  exact dpiPaddrWrite_congr _ _ _ (masks _ _ (wordOffset_lt _))

/-- The Chisel core stores under the same masks, where it has any. -/
theorem Chisel.Core.stageEffect_store
    (store : Decode.opcode h.issueInst = Decode.store)
    (legal : isLegalAccess h.issueInst = true)
    (d : StageData) :
    stageEffect Chisel.Core.rules h d = stageEffect GPUCore.rules h d := by
  have minor : Decode.funct3 h.issueInst = 0 ∨ Decode.funct3 h.issueInst = 1 ∨
      Decode.funct3 h.issueInst = 2 := by
    unfold isLegalAccess at legal
    rw [store] at legal
    revert legal
    generalize Decode.funct3 h.issueInst = f3
    revert f3
    decide
  have masks : ∀ offset, offset < 4 → Chisel.Core.rules.mask (Decode.funct3 h.issueInst) offset =
      GPUCore.rules.mask (Decode.funct3 h.issueInst) offset := by
    intro offset inWord
    rcases minor with f3 | f3 | f3 <;> rw [f3] <;> interval_cases offset <;> rfl
  rw [GPUCore.stageEffect_store _ store, GPUCore.stageEffect_store _ store]
  refine congrArg (Option.map _) (foldlM_congr_mem _ fun pmem t _ => ?_)
  unfold laneStored
  rw [masks _ (wordOffset_lt _)]

/-- A reserved store has no byte in Chisel and four in the other cores. -/
theorem Chisel.Core.rules_mask_reserved
    {f3 : BitVec 3}
    (reserved : f3 ≠ 0 ∧ f3 ≠ 1 ∧ f3 ≠ 2)
    (offset : Nat) :
    Chisel.Core.rules.mask f3 offset = 0 ∧ GPUCore.rules.mask f3 offset = 15 := by
  obtain ⟨byte, half, word⟩ := reserved
  unfold Chisel.Core.rules GPUCore.rules
  dsimp only
  rw [if_neg byte, if_neg half, if_neg word, if_neg byte, if_neg half]
  exact ⟨rfl, rfl⟩

/-- The places that lane `t` stores to. -/
def Verilog.GPUCore.storesTo (h : GPUCore cfg) (gprs : Nat → Word) (t : Nat) (place : Word) :
    Bool :=
  h.issueMask.getLsbD t && decide ((place - h.accessWord gprs t).toNat < 4)

/-- The byte that lane `t` stores to a place. -/
def Verilog.GPUCore.storedByte (h : GPUCore cfg) (gprs : Nat → Word) (t : Nat) (place : Word) :
    Byte :=
  wordByte (h.accessData gprs t) (place - h.accessWord gprs t).toNat

/-- A lane that stores a whole word. -/
theorem Verilog.GPUCore.laneStored_word
    {rules : AccessRules}
    (whole : ∀ offset, rules.mask (Decode.funct3 h.issueInst) offset = 15)
    (gprs : Nat → Word)
    (pmem : Pmem)
    (t : Nat) :
    laneStored rules h gprs pmem t =
      if h.issueMask.getLsbD t && !inPmem cfg (h.accessWord gprs t) then none
      else some (overwrite (h.storesTo gprs) (h.storedByte gprs) pmem t) := by
  have bits : ∀ byte, byte < 4 → (15 : BitVec 8).getLsbD byte = true := by decide
  unfold laneStored overwrite storesTo
  rw [whole]
  cases h.issueMask.getLsbD t with
  | false => rfl
  | true =>
      rw [if_pos rfl, Bool.true_and]
      cases inside : inPmem cfg (h.accessWord gprs t) with
      | false => exact dpiPaddrWrite_outside pmem _ _ inside
      | true =>
          refine (dpiPaddrWrite_inside pmem _ _ inside).trans (congrArg some (funext fun place => ?_))
          refine if_congr ?_ rfl rfl
          rw [Bool.true_and, decide_eq_true_iff]
          exact ⟨fun both => both.1, fun near => ⟨near, bits _ near⟩⟩

/-- Storing whole words leaves memory as it is exactly when every last store of a
word writes what is there. -/
theorem Verilog.GPUCore.foldl_overwrite_eq_iff
    {pmem : Pmem}
    {gprs : Nat → Word}
    (inside : ∀ t, t < cfg.numThreads → h.issueMask.getLsbD t = true →
      inPmem cfg (h.accessWord gprs t) = true) :
    (List.range cfg.numThreads).foldl (overwrite (h.storesTo gprs) (h.storedByte gprs)) pmem =
        pmem ↔
      ∀ t, t < cfg.numThreads → h.issueMask.getLsbD t = true →
        (∀ later, t < later → later < cfg.numThreads → h.issueMask.getLsbD later = true →
          h.accessWord gprs later ≠ h.accessWord gprs t) →
        pmemWord cfg pmem (h.accessWord gprs t) = h.accessData gprs t := by
  have covers : ∀ t place, h.storesTo gprs t place = true ↔
      h.issueMask.getLsbD t = true ∧ wordAddress place = h.accessWord gprs t := by
    intro t place
    rw [storesTo, Bool.and_eq_true, decide_eq_true_iff]
    exact and_congr_right' (sub_wordAddress_lt_iff place _)
  have bytes : ∀ t, t < cfg.numThreads → h.issueMask.getLsbD t = true → ∀ index, index < 4 →
      wordByte (pmemWord cfg pmem (h.accessWord gprs t)) index =
        pmem (h.accessWord gprs t + BitVec.ofNat 32 index) := by
    intro t lane active index inWord
    rw [pmemWord, if_pos (inside t lane active), wordByte_littleEndian _ (Nat.le_refl 4),
      if_pos inWord]
  rw [foldl_overwrite_eq_self_iff]
  constructor
  · intro unchanged t lane active last
    apply eq_of_wordByte_eq
    intro index inWord
    have distance : (h.accessWord gprs t + BitVec.ofNat 32 index - h.accessWord gprs t).toNat =
        index := (sub_eq_iff _ _ inWord).mp (by rw [BitVec.sub_self]; exact Nat.zero_lt_one)
    have covered : h.storesTo gprs t (h.accessWord gprs t + BitVec.ofNat 32 index) = true := by
      rw [storesTo, active, Bool.true_and, decide_eq_true_iff, distance]
      exact inWord
    have byte := unchanged t lane _ covered fun later after within => by
      rw [Bool.eq_false_iff]
      intro again
      have other := (covers later _).mp again
      exact last later after within other.1 (other.2.symm.trans ((covers t _).mp covered).2)
    rw [bytes t lane active index inWord, ← byte, storedByte, distance]
  · intro same t lane place covered last
    obtain ⟨active, word⟩ := (covers t place).mp covered
    have near : (place - h.accessWord gprs t).toNat < 4 :=
      (sub_wordAddress_lt_iff place _).mpr word
    have located : h.accessWord gprs t +
        BitVec.ofNat 32 (place - h.accessWord gprs t).toNat = place := by
      rw [BitVec.ofNat_toNat, BitVec.setWidth_eq, BitVec.add_comm, BitVec.sub_add_cancel]
    have data := same t lane active fun later after within again here => by
      have uncovered := last later after within
      rw [(covers later place).mpr ⟨again, word.trans here.symm⟩] at uncovered
      exact Bool.false_ne_true uncovered.symm
    rw [storedByte, ← data]
    exact (bytes t lane active _ near).trans (congrArg pmem located)

/-- The Chisel core stores as the SystemVerilog core does, unless it drops a reserved
store that changes memory. -/
theorem Chisel.Core.stageEffect_store_iff
    (store : Decode.opcode h.issueInst = Decode.store)
    (pmem : Pmem) :
    stageEffect Chisel.Core.rules h ⟨h.gprs, pmem⟩ = stageEffect GPUCore.rules h ⟨h.gprs, pmem⟩ ↔
      isLegalAccess h.issueInst = true ∨ h.RewritesMemory pmem := by
  cases word : isLegalAccess h.issueInst with
  | true =>
      exact iff_of_true (Chisel.Core.stageEffect_store store word _) (Or.inl rfl)
  | false =>
      have reserved : Decode.funct3 h.issueInst ≠ 0 ∧ Decode.funct3 h.issueInst ≠ 1 ∧
          Decode.funct3 h.issueInst ≠ 2 := by
        unfold isLegalAccess at word
        rw [store] at word
        revert word
        generalize Decode.funct3 h.issueInst = f3
        revert f3
        decide
      have dropped : ∀ pmem t, laneStored Chisel.Core.rules h h.gprs pmem t = some pmem := by
        intro pmem t
        unfold laneStored
        rw [(Chisel.Core.rules_mask_reserved reserved _).1, dpiPaddrWrite_none, ite_self]
      have chisel : (List.range cfg.numThreads).foldlM (laneStored Chisel.Core.rules h h.gprs) pmem =
          some pmem := by
        rw [foldlM_congr_mem pmem fun pmem t _ => dropped pmem t]
        exact List.foldlM_pure.trans (congrArg some (List.foldl_fixed _))
      rw [GPUCore.stageEffect_store _ store, GPUCore.stageEffect_store _ store, chisel,
        foldlM_guarded _ _ fun pmem t =>
          laneStored_word (fun offset => (Chisel.Core.rules_mask_reserved reserved offset).2) _ pmem t,
        RewritesMemory, eq_true store, true_and, or_iff_right Bool.false_ne_true, Option.map_some]
      cases outside : (List.range cfg.numThreads).any fun t =>
        h.issueMask.getLsbD t && !inPmem cfg (h.accessWord h.gprs t) with
      | true =>
          refine iff_of_false (fun same => Option.some_ne_none _ same) fun all => ?_
          obtain ⟨t, member, failing⟩ := List.any_eq_true.mp outside
          obtain ⟨active, beyond⟩ := Bool.and_eq_true_iff.mp failing
          rw [(all t (List.mem_range.mp member) active).1] at beyond
          exact Bool.false_ne_true beyond
      | false =>
          have inside : ∀ t, t < cfg.numThreads → h.issueMask.getLsbD t = true →
              inPmem cfg (h.accessWord h.gprs t) = true := by
            intro t lane active
            have fine := Bool.not_eq_true _ ▸ List.any_eq_false.mp outside t (List.mem_range.mpr lane)
            rw [active, Bool.true_and, Bool.not_eq_false'] at fine
            exact fine
          rw [if_neg Bool.false_ne_true, Option.map_some, Option.some_inj, StageData.mk.injEq,
            and_iff_right rfl, eq_comm, foldl_overwrite_eq_iff inside]
          exact forall_congr' fun t => forall_congr' fun lane => forall_congr' fun active =>
            (and_iff_right (inside t lane active)).symm

end Stores

/-! ## All backends -/

/-- The three backends run the instruction to one end. -/
def Verilog.GPUCore.SameMemoryOutcome {numCores : Nat} (h : GPUCore cfg)
    (inputs : CoreInputs numCores) (pmem : Pmem) (response held : Word) : Prop :=
  ∃ outcome, h.memoryOutcome inputs pmem = some outcome ∧
    Chisel.Core.memoryOutcome inputs pmem response h = some outcome ∧
    Spinal.MemCore.memoryOutcome inputs pmem ⟨h, held⟩ = some outcome

theorem Verilog.GPUCore.outcomeOf_eq_iff
    {h : GPUCore cfg}
    (legal : Decode.badRegister h.issueInst = false)
    (rules rules' : AccessRules)
    (pmem : Pmem) :
    outcomeOf rules h pmem = outcomeOf rules' h pmem ↔
      stageEffect rules h ⟨h.gprs, pmem⟩ = stageEffect rules' h ⟨h.gprs, pmem⟩ := by
  have view : Function.Injective fun d : StageData => MemoryOutcome.mk d.gprs d.pmem h.faultR := by
    intro d d' same
    exact congrArg₂ StageData.mk (congrArg MemoryOutcome.gprs same)
      (congrArg MemoryOutcome.pmem same)
  unfold outcomeOf
  rw [legal, if_neg Bool.false_ne_true, if_neg Bool.false_ne_true]
  exact (Option.map_injective view).eq_iff

/-- A memory instruction has one outcome in the three backends exactly when it
faults, its minor opcode is defined, or the reserved access reads zero or rewrites
memory. -/
theorem sameMemoryOutcome_iff
    {h : GPUCore cfg}
    (inRange : h.InRange)
    (exec : h.state = .exec)
    (active : h.ctaActive = true)
    (memory : Decode.opcode h.issueInst = Decode.load ∨ Decode.opcode h.issueInst = Decode.store)
    {numCores : Nat}
    (inputs : CoreInputs numCores)
    (pmem : Pmem)
    (response held : Word) :
    h.SameMemoryOutcome inputs pmem response held ↔
      Decode.badRegister h.issueInst = true ∨ isLegalAccess h.issueInst = true ∨
        h.ReadsZero pmem ∨ h.RewritesMemory pmem := by
  have outcomes : h.SameMemoryOutcome inputs pmem response held ↔
      outcomeOf Chisel.Core.rules h pmem = outcomeOf GPUCore.rules h pmem ∧
        outcomeOf Spinal.rules h pmem = outcomeOf GPUCore.rules h pmem := by
    rw [SameMemoryOutcome, GPUCore.memoryOutcome_eq inputs pmem exec active memory,
      Chisel.Core.memoryOutcome_eq inputs pmem inRange exec active memory,
      Spinal.MemCore.memoryOutcome_eq inputs pmem inRange exec active memory]
    simp only [Option.some_inj, exists_eq_left']
  rw [outcomes]
  cases legal : Decode.badRegister h.issueInst with
  | true =>
      unfold outcomeOf
      rw [legal, if_pos rfl, if_pos rfl, if_pos rfl]
      exact iff_of_true ⟨rfl, rfl⟩ (Or.inl rfl)
  | false =>
      rw [outcomeOf_eq_iff legal, outcomeOf_eq_iff legal, or_iff_right Bool.false_ne_true]
      rcases memory with load | store
      · have noStore : ¬h.RewritesMemory pmem := fun rewrites => by
          rw [RewritesMemory, load] at rewrites
          exact absurd rewrites.1 (by decide)
        rw [Spinal.stageEffect_load_iff load legal, or_iff_left noStore]
        exact and_iff_right (Chisel.Core.stageEffect_load load _)
      · have noLoad : ¬h.ReadsZero pmem := fun reads => by
          rw [ReadsZero, store] at reads
          exact absurd reads.1 (by decide)
        rw [Chisel.Core.stageEffect_store_iff store, or_iff_right noLoad]
        exact and_iff_left (Spinal.stageEffect_store store _)

/-- A core of `Config.oneLane` whose lane executes one word, with the start of
physical memory in `x2`. -/
def Verilog.GPUCore.accessing (word : Word) : GPUCore Config.oneLane :=
  { (GPUCore.fresh : GPUCore Config.oneLane) with
    state := .exec
    ctaActive := true
    issueMask := BitVec.allOnes _
    issueInst := word
    gprs := fun i => if i = 2 then Config.oneLane.mbase else 0 }

theorem Verilog.GPUCore.inRange_accessing
    (word : Word) :
    (GPUCore.accessing word).InRange where
  warp := Nat.zero_lt_one
  thread := Nat.zero_lt_one
  sp _ _ := Nat.zero_le _

/-- No block is offered. -/
def CoreInputs.quiet : CoreInputs 1 := ⟨0, false, GPUKmu.fresh, 0⟩

/-- `LW x1, 0(x2)`. -/
theorem sameMemoryOutcome_word :
    (GPUCore.accessing 0x00012083).SameMemoryOutcome CoreInputs.quiet (fun _ => 1) 0 0 :=
  (sameMemoryOutcome_iff (GPUCore.inRange_accessing _) rfl rfl (Or.inl (by decide))
    CoreInputs.quiet (fun _ => 1) 0 0).mpr (Or.inr (Or.inl (by decide)))

/-- The load with the reserved minor opcode 3 from `x2`, which returns the word in
SpinalHDL, and the store with it, which writes nothing in Chisel. -/
theorem not_sameMemoryOutcome :
    ¬(GPUCore.accessing 0x00013083).SameMemoryOutcome CoreInputs.quiet (fun _ => 1) 0 0 ∧
      ¬(GPUCore.accessing 0x00213023).SameMemoryOutcome CoreInputs.quiet (fun _ => 1) 0 0 := by
  constructor
  · rintro ⟨outcome, verilog, _, spinal⟩
    have loaded := congrArg (Option.map (Option.map fun outcome => outcome.gprs 1))
      (verilog.trans spinal.symm)
    exact absurd loaded (by decide)
  · rintro ⟨outcome, verilog, chisel, _⟩
    have stored := congrArg (Option.map (Option.map fun outcome => outcome.pmem 0x80000003))
      (verilog.trans chisel.symm)
    exact absurd stored (by decide)

end OpenGPU
