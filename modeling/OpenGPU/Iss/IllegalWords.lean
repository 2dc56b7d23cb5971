import OpenGPU.Iss.BaseIsa

/-!
# Which illegal words fault

Opcode by opcode, a step of the simulator obeys the base instruction set on every
word that passes the register check, except on the lax ones.
-/

namespace OpenGPU

namespace Iss

open Instruction

/-- The words that encode nothing and still run: `JALR` with another minor opcode, and
arithmetic whose top bits no instruction has. -/
def LaxWord (inst : Word) : Prop :=
  (opcode inst = 0x67 ∧ Rv32e.funct3 inst ≠ 0) ∨
    (opcode inst = 0x33 ∧ Rv32e.aluOp (Rv32e.funct3 inst) (Rv32e.funct7 inst) = none) ∨
    (opcode inst = 0x13 ∧ Rv32e.aluImmOp (Rv32e.funct3 inst) (Rv32e.funct7 inst) = none)

section Opcodes

variable {cfg : Config} {core : IssCore} {pmem : Pmem} {laneDiverges : Word → Word → Bool}
  {inst : Word}

/-- A step that writes a register and goes on has the effect of such an instruction. -/
theorem obeys_retire
    {register : Rv32e.Register}
    (used : usesRd (opcode inst) = true)
    (number : (rd inst).toNat = register.val)
    {instr : Rv32e.Instr}
    (found : Rv32e.decode readableCsr inst = some instr)
    {result next : Word}
    (runs : instr.run (csrsOf core) (hartOf core pmem) =
      some { x := (hartOf core pmem).x.write register result, pc := next, mem := pmem }) :
    Obeys core pmem inst (retire core pmem inst result next false) :=
  Obeys.of_run found rfl runs (Bool.or_false _) (hartOf_retire used number pmem pmem result next false)

theorem dispatch_lui_obeys
    (legal : badRegister inst = false)
    (code : opcode inst = 0x37) :
    ∃ result, dispatch cfg core pmem laneDiverges inst = some result ∧
      Obeys core pmem inst result := by
  have used : usesRd (opcode inst) = true := by
    rw [code]
    rfl
  obtain ⟨register, found, number⟩ := rd_of_legal legal used
  have decoded : Rv32e.decode readableCsr inst = some (.lui register (Rv32e.immU inst)) := by
    rw [Rv32e.decode_lui ((opcode_eq_iff inst _).mp code), found]
    rfl
  refine ⟨_, dispatch_lui code, obeys_retire used number decoded ?_⟩
  rw [immU_eq]
  rfl

theorem dispatch_auipc_obeys
    (legal : badRegister inst = false)
    (code : opcode inst = 0x17) :
    ∃ result, dispatch cfg core pmem laneDiverges inst = some result ∧
      Obeys core pmem inst result := by
  have used : usesRd (opcode inst) = true := by
    rw [code]
    rfl
  obtain ⟨register, found, number⟩ := rd_of_legal legal used
  have decoded : Rv32e.decode readableCsr inst = some (.auipc register (Rv32e.immU inst)) := by
    rw [Rv32e.decode_auipc ((opcode_eq_iff inst _).mp code), found]
    rfl
  refine ⟨_, dispatch_auipc code, obeys_retire used number decoded ?_⟩
  rw [immU_eq]
  rfl

theorem dispatch_jal_obeys
    (legal : badRegister inst = false)
    (code : opcode inst = 0x6f) :
    ∃ result, dispatch cfg core pmem laneDiverges inst = some result ∧
      Obeys core pmem inst result := by
  have used : usesRd (opcode inst) = true := by
    rw [code]
    rfl
  obtain ⟨register, found, number⟩ := rd_of_legal legal used
  have decoded : Rv32e.decode readableCsr inst = some (.jal register (Rv32e.immJ inst)) := by
    rw [Rv32e.decode_jal ((opcode_eq_iff inst _).mp code), found]
    rfl
  refine ⟨_, dispatch_jal code, obeys_retire used number decoded ?_⟩
  rw [immJ_eq]
  rfl

theorem dispatch_opImm_obeys
    (zero : core.gpr 0 = 0)
    (legal : badRegister inst = false)
    (code : opcode inst = 0x13)
    (strict : Rv32e.aluImmOp (Rv32e.funct3 inst) (Rv32e.funct7 inst) ≠ none) :
    ∃ result, dispatch cfg core pmem laneDiverges inst = some result ∧
      Obeys core pmem inst result := by
  have used : usesRd (opcode inst) = true := by
    rw [code]
    rfl
  obtain ⟨register, found, number⟩ := rd_of_legal legal used
  obtain ⟨source, foundSource, numberSource⟩ :=
    rs1_of_legal legal (show usesRs1 (opcode inst) = true by rw [code]; rfl)
  obtain ⟨kind, table⟩ := Option.ne_none_iff_exists'.mp strict
  have decoded : Rv32e.decode readableCsr inst =
      some (.opImm kind register source (Rv32e.immI inst)) := by
    rw [Rv32e.decode_opImm ((opcode_eq_iff inst _).mp code), table, found, foundSource]
    rfl
  rw [dispatch_opImm code, opImm_eq table]
  refine ⟨_, rfl, obeys_retire used number decoded ?_⟩
  rw [immI_eq, numberSource, ← value_of_register zero pmem source]
  rfl

theorem dispatch_op_obeys
    (zero : core.gpr 0 = 0)
    (legal : badRegister inst = false)
    (code : opcode inst = 0x33)
    (strict : Rv32e.aluOp (Rv32e.funct3 inst) (Rv32e.funct7 inst) ≠ none) :
    ∃ result, dispatch cfg core pmem laneDiverges inst = some result ∧
      Obeys core pmem inst result := by
  have used : usesRd (opcode inst) = true := by
    rw [code]
    rfl
  obtain ⟨register, found, number⟩ := rd_of_legal legal used
  obtain ⟨left, foundLeft, numberLeft⟩ :=
    rs1_of_legal legal (show usesRs1 (opcode inst) = true by rw [code]; rfl)
  obtain ⟨right, foundRight, numberRight⟩ :=
    rs2_of_legal legal (show usesRs2 (opcode inst) = true by rw [code]; rfl)
  obtain ⟨kind, table⟩ := Option.ne_none_iff_exists'.mp strict
  have decoded : Rv32e.decode readableCsr inst = some (.op kind register left right) := by
    rw [Rv32e.decode_op ((opcode_eq_iff inst _).mp code), table, found, foundLeft, foundRight]
    rfl
  rw [dispatch_op code, op_eq table]
  refine ⟨_, rfl, obeys_retire used number decoded ?_⟩
  rw [numberLeft, numberRight, ← value_of_register zero pmem left,
    ← value_of_register zero pmem right]
  rfl

theorem dispatch_load_obeys
    (zero : core.gpr 0 = 0)
    (legal : badRegister inst = false)
    (access : AccessesInPmem cfg core inst)
    (code : opcode inst = 0x03) :
    ∃ result, dispatch cfg core pmem laneDiverges inst = some result ∧
      Obeys core pmem inst result := by
  have used : usesRd (opcode inst) = true := by
    rw [code]
    rfl
  have slice := (opcode_eq_iff inst 0x03).mp code
  obtain ⟨register, found, number⟩ := rd_of_legal legal used
  obtain ⟨source, foundSource, numberSource⟩ :=
    rs1_of_legal legal (show usesRs1 (opcode inst) = true by rw [code]; rfl)
  rw [dispatch_load code]
  cases table : Rv32e.loadOp (Rv32e.funct3 inst) with
  | none =>
      have nothing : Rv32e.decode readableCsr inst = none := by
        rw [Rv32e.decode_load slice, table]
        rfl
      rw [loadMem_reserved table]
      -- the fault is recorded and the tail of the step still runs
      refine ⟨_, rfl, fun _ => rfl, fun instr other => ?_⟩
      rw [nothing] at other
      exact absurd other (Option.some_ne_none instr).symm
  | some kind =>
      have decoded : Rv32e.decode readableCsr inst =
          some (.load kind register source (Rv32e.immI inst)) := by
        rw [Rv32e.decode_load slice, table, found, foundSource]
        rfl
      rw [loadMem_eq table (access.load legal code)]
      refine ⟨_, rfl, obeys_retire used number decoded ?_⟩
      rw [immI_eq, numberSource, ← value_of_register zero pmem source]
      rfl

theorem dispatch_store_obeys
    (zero : core.gpr 0 = 0)
    (legal : badRegister inst = false)
    (access : AccessesInPmem cfg core inst)
    (code : opcode inst = 0x23) :
    ∃ result, dispatch cfg core pmem laneDiverges inst = some result ∧
      Obeys core pmem inst result := by
  have unused : usesRd (opcode inst) = false := by
    rw [code]
    rfl
  have slice := (opcode_eq_iff inst 0x23).mp code
  obtain ⟨left, foundLeft, numberLeft⟩ :=
    rs1_of_legal legal (show usesRs1 (opcode inst) = true by rw [code]; rfl)
  obtain ⟨right, foundRight, numberRight⟩ :=
    rs2_of_legal legal (show usesRs2 (opcode inst) = true by rw [code]; rfl)
  rw [dispatch_store code]
  cases table : Rv32e.storeOp (Rv32e.funct3 inst) with
  | none =>
      have nothing : Rv32e.decode readableCsr inst = none := by
        rw [Rv32e.decode_store slice, table]
        rfl
      rw [storeMem_reserved table]
      refine ⟨_, rfl, fun _ => rfl, fun instr other => ?_⟩
      rw [nothing] at other
      exact absurd other (Option.some_ne_none instr).symm
  | some kind =>
      have decoded : Rv32e.decode readableCsr inst =
          some (.store kind left right (Rv32e.immS inst)) := by
        rw [Rv32e.decode_store slice, table, foundLeft, foundRight]
        rfl
      rw [storeMem_eq table (access.store legal code)]
      refine ⟨_, rfl, Obeys.of_run decoded rfl ?_ (Bool.or_false _)
        (hartOf_retire_unused unused pmem _ _ _ _)⟩
      rw [immS_eq, numberLeft, numberRight, ← value_of_register zero pmem left,
        ← value_of_register zero pmem right]
      rfl

theorem dispatch_branch_obeys
    (zero : core.gpr 0 = 0)
    (legal : badRegister inst = false)
    (code : opcode inst = 0x63) :
    ∃ result, dispatch cfg core pmem laneDiverges inst = some result ∧
      Obeys core pmem inst result := by
  have unused : usesRd (opcode inst) = false := by
    rw [code]
    rfl
  have slice := (opcode_eq_iff inst 0x63).mp code
  obtain ⟨left, foundLeft, numberLeft⟩ :=
    rs1_of_legal legal (show usesRs1 (opcode inst) = true by rw [code]; rfl)
  obtain ⟨right, foundRight, numberRight⟩ :=
    rs2_of_legal legal (show usesRs2 (opcode inst) = true by rw [code]; rfl)
  rw [dispatch_branch code, branchTake_eq]
  cases table : Rv32e.branchOp (Rv32e.funct3 inst) with
  | none =>
      refine ⟨_, rfl, Obeys.of_fault ?_⟩
      rw [Rv32e.decode_branch slice, table]
      rfl
  | some kind =>
      have decoded : Rv32e.decode readableCsr inst =
          some (.branch kind left right (Rv32e.immB inst)) := by
        rw [Rv32e.decode_branch slice, table, foundLeft, foundRight]
        rfl
      refine ⟨_, rfl, Obeys.of_run decoded rfl ?_ (Bool.or_false _)
        (hartOf_retire_unused unused pmem _ _ _ _)⟩
      rw [immB_eq, numberLeft, numberRight, ← value_of_register zero pmem left,
        ← value_of_register zero pmem right]
      rfl

theorem dispatch_system_obeys
    (legal : badRegister inst = false)
    (code : opcode inst = 0x73) :
    ∃ result, dispatch cfg core pmem laneDiverges inst = some result ∧
      Obeys core pmem inst result := by
  have used : usesRd (opcode inst) = true := by
    rw [code]
    rfl
  have slice := (opcode_eq_iff inst 0x73).mp code
  have number : csr inst = (Rv32e.csr inst).setWidth 32 :=
    field_eq_setWidth inst 20 12 0xfff (by decide) (by decide)
  have reads : (funct3 inst = 2 ∧ rs1 inst = 0) ↔
      Rv32e.funct3 inst = 2 ∧ inst.extractLsb' 15 5 = 0 :=
    and_congr (funct3_eq_iff inst 2) (rs1_eq_iff inst 0)
  obtain ⟨register, found, place⟩ := rd_of_legal legal used
  rw [dispatch_system code, show ebreak = Rv32e.ebreakWord from rfl]
  by_cases halts : inst = Rv32e.ebreakWord
  · rw [if_pos halts]
    refine ⟨_, rfl, fun nothing => ?_, fun instr other => ?_⟩
    · rw [Rv32e.decode_system slice, if_pos halts] at nothing
      exact absurd nothing (Option.some_ne_none _)
    · rw [Rv32e.decode_system slice, if_pos halts] at other
      cases other
      exact ⟨rfl, rfl, rfl⟩
  · rw [if_neg halts]
    by_cases reading : funct3 inst = 2 ∧ rs1 inst = 0
    · rw [if_pos reading, number]
      obtain ⟨minor, source⟩ := reads.mp reading
      cases value : core.csrValue ((Rv32e.csr inst).setWidth 32) with
      | none =>
          have unlisted : readableCsr (Rv32e.csr inst) = false := by
            rw [← csrValue_isSome core, value]
            rfl
          refine ⟨_, rfl, Obeys.of_fault ?_⟩
          rw [Rv32e.decode_system slice, if_neg halts, if_neg]
          rw [unlisted]
          exact fun all => Bool.false_ne_true all.2.2
      | some result =>
          have listed : readableCsr (Rv32e.csr inst) = true := by
            rw [← csrValue_isSome core, value]
            rfl
          have decoded : Rv32e.decode readableCsr inst =
              some (.csrRead register (Rv32e.csr inst)) := by
            rw [Rv32e.decode_system slice, if_neg halts, if_pos ⟨minor, source, listed⟩, found]
            rfl
          have reads : csrsOf core (Rv32e.csr inst) = result := by
            rw [csrsOf, value, Option.getD_some]
          refine ⟨_, rfl, obeys_retire used place decoded ?_⟩
          rw [← reads]
          rfl
    · rw [if_neg reading]
      refine ⟨_, rfl, Obeys.of_fault ?_⟩
      rw [Rv32e.decode_system slice, if_neg halts, if_neg]
      exact fun all => reading (reads.mpr ⟨all.1, all.2.1⟩)

theorem dispatch_unknown_obeys
    (code : ¬Known (opcode inst)) :
    ∃ result, dispatch cfg core pmem laneDiverges inst = some result ∧
      Obeys core pmem inst result :=
  ⟨_, dispatch_reserved code, Obeys.of_fault
    (Rv32e.decode_unknown (Bool.eq_false_iff.mpr (mt (known_iff inst).mpr code)))⟩

/-- `JALR` with its minor opcode, when no other lane has another target. -/
theorem dispatch_jalr_obeys
    (zero : core.gpr 0 = 0)
    (legal : badRegister inst = false)
    (code : opcode inst = 0x67)
    (minor : Rv32e.funct3 inst = 0)
    (uniform : laneDiverges inst (core.jalrTarget inst) = false) :
    ∃ result, dispatch cfg core pmem laneDiverges inst = some result ∧
      Obeys core pmem inst result := by
  have used : usesRd (opcode inst) = true := by
    rw [code]
    rfl
  obtain ⟨register, found, number⟩ := rd_of_legal legal used
  obtain ⟨source, foundSource, numberSource⟩ :=
    rs1_of_legal legal (show usesRs1 (opcode inst) = true by rw [code]; rfl)
  have decoded : Rv32e.decode readableCsr inst =
      some (.jalr register source (Rv32e.immI inst)) := by
    rw [Rv32e.decode_jalr ((opcode_eq_iff inst _).mp code), if_pos minor, found, foundSource]
    rfl
  rw [dispatch_jalr code, uniform, if_neg Bool.false_ne_true]
  refine ⟨_, rfl, obeys_retire used number decoded ?_⟩
  rw [IssCore.jalrTarget, immI_eq, numberSource, ← value_of_register zero pmem source]
  rfl

/-- The words that are neither lax nor `JALR`. -/
theorem dispatch_obeys
    (zero : core.gpr 0 = 0)
    (legal : badRegister inst = false)
    (access : AccessesInPmem cfg core inst)
    (strict : ¬LaxWord inst)
    (direct : opcode inst ≠ 0x67) :
    ∃ result, dispatch cfg core pmem laneDiverges inst = some result ∧
      Obeys core pmem inst result := by
  by_cases known : Known (opcode inst)
  · rcases known with code | code | code | code | code | code | code | code | code | code
    · exact dispatch_lui_obeys legal code
    · exact dispatch_auipc_obeys legal code
    · exact dispatch_opImm_obeys zero legal code
        fun nothing => strict (Or.inr (Or.inr ⟨code, nothing⟩))
    · exact dispatch_op_obeys zero legal code
        fun nothing => strict (Or.inr (Or.inl ⟨code, nothing⟩))
    · exact dispatch_load_obeys zero legal access code
    · exact dispatch_store_obeys zero legal access code
    · exact dispatch_branch_obeys zero legal code
    · exact dispatch_jal_obeys legal code
    · exact absurd code direct
    · exact dispatch_system_obeys legal code
  · exact dispatch_unknown_obeys known

/-- A lax arithmetic word encodes nothing and runs. -/
theorem dispatch_lax
    (lax : LaxWord inst)
    (direct : opcode inst ≠ 0x67) :
    Rv32e.decode readableCsr inst = none ∧
      ∃ result, dispatch cfg core pmem laneDiverges inst = some result ∧
        result.faulted = false := by
  rcases lax with ⟨code, _⟩ | ⟨code, nothing⟩ | ⟨code, nothing⟩
  · exact absurd code direct
  · obtain ⟨value, computed⟩ := op_total inst (core.gpr (rs1 inst).toNat) (core.gpr (rs2 inst).toNat)
    rw [Rv32e.decode_op ((opcode_eq_iff inst 0x33).mp code), nothing, dispatch_op code, computed]
    exact ⟨rfl, _, rfl, rfl⟩
  · obtain ⟨value, computed⟩ := opImm_total inst (core.gpr (rs1 inst).toNat)
    rw [Rv32e.decode_opImm ((opcode_eq_iff inst 0x13).mp code), nothing, dispatch_opImm code,
      computed]
    exact ⟨rfl, _, rfl, rfl⟩

end Opcodes

/-! ## Steps of a context -/

variable {cfg : Config} {s : Iss} {index : Nat} {inst : Word}

/-- Another live lane of the warp stands at the same `JALR` and has another target. -/
def DivergentTargets (s : Iss) (index : Nat) (inst : Word) : Prop :=
  ∃ other, other < s.ncores ∧ other ≠ index ∧ (s.cores other).halted = false ∧
    (s.cores other).pc = (s.cores index).pc ∧
    (s.cores index).sameWarp (s.cores other) = true ∧
    (s.cores other).jalrTarget inst ≠ (s.cores index).jalrTarget inst

theorem laneDiverges_iff
    (s : Iss)
    (index : Nat)
    (inst : Word) :
    s.laneDiverges index inst ((s.cores index).jalrTarget inst) = true ↔
      s.DivergentTargets index inst := by
  unfold laneDiverges DivergentTargets
  rw [List.any_eq_true]
  refine exists_congr fun other => ?_
  rw [List.mem_range]
  simp only [Bool.and_eq_true, Bool.not_eq_true', bne_iff_ne, beq_iff_eq, and_assoc]

/-- A step on a word: it faults if the word encodes no instruction; on an instruction
it faults at most for divergent targets of `JALR`, and without a fault it has the
effect of the instruction. -/
def FaultsOnIllegal (cfg : Config) (s : Iss) (index : Nat) (inst : Word) : Prop :=
  ∃ result, execute cfg (s.cores index) s.pmem (s.laneDiverges index) = some result ∧
    (Rv32e.decode readableCsr inst = none → result.faulted = true) ∧
    ∀ instr, Rv32e.decode readableCsr inst = some instr →
      (result.faulted = true →
        (∃ rd rs1 imm, instr = .jalr rd rs1 imm) ∧ s.DivergentTargets index inst) ∧
      (result.faulted = false → Realises (s.cores index) s.pmem instr result)

theorem Obeys.faultsOnIllegal
    {result : StepResult}
    (executes : execute cfg (s.cores index) s.pmem (s.laneDiverges index) = some result)
    (obeys : Obeys (s.cores index) s.pmem inst result) :
    s.FaultsOnIllegal cfg index inst := by
  refine ⟨result, executes, obeys.illegal, fun instr found => ⟨fun faults => ?_, fun _ => ?_⟩⟩
  · rw [(obeys.legal instr found).1] at faults
    exact absurd faults Bool.false_ne_true
  · exact (obeys.legal instr found).2

/-- `JALR`, with any minor opcode. -/
theorem faultsOnIllegal_jalr
    (zero : (s.cores index).gpr 0 = 0)
    (executes : execute cfg (s.cores index) s.pmem (s.laneDiverges index) =
      dispatch cfg (s.cores index) s.pmem (s.laneDiverges index) inst)
    (legal : badRegister inst = false)
    (code : opcode inst = 0x67) :
    s.FaultsOnIllegal cfg index inst ↔
      Rv32e.funct3 inst = 0 ∨ s.DivergentTargets index inst := by
  have slice := (opcode_eq_iff inst 0x67).mp code
  have decoded : Rv32e.decode readableCsr inst =
      if Rv32e.funct3 inst = 0 then
        (Rv32e.rd inst).bind fun rd => (Rv32e.rs1 inst).map fun rs1 =>
          .jalr rd rs1 (Rv32e.immI inst)
      else none := Rv32e.decode_jalr slice
  by_cases divergent : s.DivergentTargets index inst
  · refine iff_of_true ⟨fault (s.cores index) s.pmem, ?_, fun _ => rfl, ?_⟩ (Or.inr divergent)
    · rw [executes, dispatch_jalr code, if_pos ((laneDiverges_iff s index inst).mpr divergent)]
    · intro instr found
      refine ⟨fun _ => ⟨?_, divergent⟩, fun fine => absurd fine (show ¬true = false by decide)⟩
      rw [decoded] at found
      split_ifs at found
      obtain ⟨rd, _, found⟩ := Option.bind_eq_some_iff.mp found
      obtain ⟨rs1, _, same⟩ := Option.map_eq_some_iff.mp found
      exact ⟨rd, rs1, _, same.symm⟩
  · have uniform : s.laneDiverges index inst ((s.cores index).jalrTarget inst) = false :=
      Bool.eq_false_iff.mpr (mt (laneDiverges_iff s index inst).mp divergent)
    rw [or_iff_left divergent]
    constructor
    · rintro ⟨result, ran, illegal, _⟩
      by_contra minor
      rw [executes, dispatch_jalr code, uniform, if_neg Bool.false_ne_true] at ran
      cases ran
      exact absurd (illegal (decoded.trans (if_neg minor))) Bool.false_ne_true
    · intro minor
      obtain ⟨result, ran, obeys⟩ := dispatch_jalr_obeys zero legal code minor uniform
      exact obeys.faultsOnIllegal (executes.trans ran)

/-- A step faults on the illegal words, and on no others than divergent `JALR`s,
exactly when the word fails the register check, is not lax, or is a `JALR` with
divergent targets. -/
theorem faultsOnIllegal_iff
    (zero : (s.cores index).gpr 0 = 0)
    (fetch : paddrRead cfg s.pmem (s.cores index).pc 4 = some inst)
    (access : AccessesInPmem cfg (s.cores index) inst) :
    s.FaultsOnIllegal cfg index inst ↔
      badRegister inst = true ∨ ¬LaxWord inst ∨
        (opcode inst = 0x67 ∧ s.DivergentTargets index inst) := by
  cases legal : badRegister inst with
  | true =>
      refine iff_of_true (Obeys.faultsOnIllegal ?_ (Obeys.of_fault (decode_of_badRegister legal)))
        (Or.inl rfl)
      rw [execute, fetch, Option.bind_some, if_pos legal]
  | false =>
      have executes : execute cfg (s.cores index) s.pmem (s.laneDiverges index) =
          dispatch cfg (s.cores index) s.pmem (s.laneDiverges index) inst := by
        rw [execute, fetch, Option.bind_some, if_neg (Bool.eq_false_iff.mp legal)]
      rw [or_iff_right Bool.false_ne_true]
      by_cases code : opcode inst = 0x67
      · have lax : LaxWord inst ↔ Rv32e.funct3 inst ≠ 0 := by
          unfold LaxWord
          rw [code]
          simp
        rw [faultsOnIllegal_jalr zero executes legal code, lax, not_not, and_iff_right code]
      · rw [or_iff_left fun both => code both.1]
        constructor
        · rintro ⟨result, ran, illegal, _⟩ lax
          obtain ⟨nothing, other, runs, fine⟩ :=
            @dispatch_lax cfg (s.cores index) s.pmem (s.laneDiverges index) inst lax code
          rw [executes, runs] at ran
          cases ran
          rw [illegal nothing] at fine
          exact absurd fine (by decide)
        · intro strict
          obtain ⟨result, ran, obeys⟩ := dispatch_obeys zero legal access strict code
          exact obeys.faultsOnIllegal (executes.trans ran)

/-- A simulator whose one context is about to run a word. -/
def running (word : Word) : Iss :=
  { Iss.fresh fun place => wordByte word (place - Config.oneLane.mbase).toNat with
    cores := fun _ => { zeroedCore with pc := Config.oneLane.mbase }
    ncores := 1 }

/-- `ADD x1, x1, x2`, and `LW x16, 0(x0)`, whose register is checked before the access. -/
theorem faultsOnIllegal_add :
    (running 0x002080b3).FaultsOnIllegal Config.oneLane 0 0x002080b3 ∧
      (running 0x00002803).FaultsOnIllegal Config.oneLane 0 0x00002803 := by
  have strict : ¬LaxWord 0x002080b3 := by
    unfold LaxWord
    decide
  constructor
  · apply (faultsOnIllegal_iff rfl (by decide) ⟨fun _ load => ?_, fun _ store => ?_⟩).mpr
    · exact Or.inr (Or.inl strict)
    · exact absurd load (by decide)
    · exact absurd store (by decide)
  · apply (faultsOnIllegal_iff rfl (by decide) ⟨fun legal => ?_, fun legal => ?_⟩).mpr
    · exact Or.inl (by decide)
    · exact absurd legal (by decide)
    · exact absurd legal (by decide)

/-- `MUL x1, x1, x2` is no base instruction and runs as an addition. -/
theorem not_faultsOnIllegal_mul :
    ¬(running 0x022080b3).FaultsOnIllegal Config.oneLane 0 0x022080b3 := by
  rintro ⟨result, ran, illegal, _⟩
  have faulted := illegal (by decide)
  have fine : ((execute Config.oneLane ((running 0x022080b3).cores 0) (running 0x022080b3).pmem
      ((running 0x022080b3).laneDiverges 0)).map StepResult.faulted) = some false := by
    decide
  rw [ran, Option.map_some, faulted] at fine
  exact absurd fine (by decide)

/-! ## Register zero -/

/-- No step writes register zero. -/
theorem execute_zero
    {core : IssCore}
    {pmem : Pmem}
    {laneDiverges : Word → Word → Bool}
    {result : StepResult}
    (zero : core.gpr 0 = 0)
    (ran : execute cfg core pmem laneDiverges = some result) :
    result.core.gpr 0 = 0 := by
  rw [execute, Option.bind_eq_some_iff] at ran
  obtain ⟨inst, _, ran⟩ := ran
  split_ifs at ran
  · cases ran
    exact zero
  · rcases dispatch_cases ran with ⟨_, _, _, _, rfl⟩ | rfl | rfl
    · unfold retire
      dsimp only
      rw [Function.update_self]
    · exact zero
    · exact zero

theorem stepCore_zero
    {next : Iss}
    (zero : ∀ i, (s.cores i).gpr 0 = 0)
    (ran : stepCore cfg s index = some next)
    (i : Nat) :
    (next.cores i).gpr 0 = 0 := by
  rw [stepCore, Option.map_eq_some_iff] at ran
  obtain ⟨result, executed, rfl⟩ := ran
  rcases eq_or_ne i index with rfl | other
  · show (Function.update s.cores i result.core i).gpr 0 = 0
    rw [Function.update_self]
    exact execute_zero (zero i) executed
  · show (Function.update s.cores index result.core i).gpr 0 = 0
    rw [Function.update_of_ne other]
    exact zero i

/-- In every state of a launch, register zero of every context holds zero. -/
theorem Reachable.zero
    {launched : Iss}
    (accepted : s.gpuIssLaunch cfg = some launched)
    {reached : Iss}
    (run : Reachable cfg launched reached)
    (i : Nat) :
    (reached.cores i).gpr 0 = 0 := by
  obtain ⟨positive, _, _, rfl⟩ := gpuIssLaunch_eq_some accepted
  induction run generalizing i with
  | refl => rfl
  | step before stepped inductionHypothesis =>
      have inRange := (before.sameLaunch positive).rr_lt
      rw [gpuIssStep_eq cfg _ inRange] at stepped
      split_ifs at stepped
      · cases stepped
        exact inductionHypothesis i
      · split at stepped
        · obtain ⟨after, ran, shape⟩ := Option.map_eq_some_iff.mp stepped
          cases shape
          refine stepCore_zero ?_ ran i
          exact inductionHypothesis
        · cases stepped
          exact inductionHypothesis i

end Iss

end OpenGPU
