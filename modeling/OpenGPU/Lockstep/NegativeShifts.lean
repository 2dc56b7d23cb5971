import OpenGPU.Lockstep.CoreAtWork
import OpenGPU.Lockstep.CoreEdge

/-!
# Arithmetic shifts of negative values

The SystemVerilog core and the instruction-set simulator differ in `SRA` and `SRAI` of a
negative value. A core that works on a block comes to such a shift exactly when one of its
threads does.
-/

namespace OpenGPU

open Instruction Verilog

/-- The amount of a right shift. -/
def IssCore.shiftAmount (core : IssCore) (inst : Word) : Word :=
  if opcode inst = 0x13 then shamt inst else core.gpr (rs2 inst).toNat &&& 31

/-- `SRA` or `SRAI` of a negative value, by some amount and with a result that is kept. -/
structure IssCore.ShiftsNegative (core : IssCore) (inst : Word) : Prop where
  code : opcode inst = 0x13 ∨ opcode inst = 0x33
  minor : funct3 inst = 5
  top : funct7 inst = 0x20
  kept : rd inst ≠ 0
  negative : (core.gpr (rs1 inst).toNat).msb = true
  amount : core.shiftAmount inst ≠ 0

/-- No instruction that `gpu_iss_step` executes is one. -/
def Iss.NeverShiftsNegative (cfg : Config) (start : Iss) : Prop :=
  ∀ s, Reachable cfg start s → ∀ i, s.turn = some i →
    ¬(s.cores i).ShiftsNegative (wordAt s.pmem (s.cores i).pc)

/-! ## The word -/

/-- The hardware decodes an arithmetic shift where the simulator does, unless bits other than
those of `SRLI` and `SRAI` are set. -/
theorem isArithmeticShift_iff
    {inst : Word}
    (plain : opcode inst = 0x13 → funct3 inst = 5 → funct7 inst = 0 ∨ funct7 inst = 0x20) :
    isArithmeticShift inst = true ↔
      (opcode inst = 0x13 ∨ opcode inst = 0x33) ∧ funct3 inst = 5 ∧ funct7 inst = 0x20 := by
  have immediate := opcode_eq_iff inst 0b0010011
  have register := opcode_eq_iff inst 0b0110011
  have minor := funct3_eq_iff inst 5
  have top := funct7_eq_iff inst 0b0100000
  change opcode inst = 0x13 ↔ _ at immediate
  change opcode inst = 0x33 ↔ _ at register
  change funct3 inst = 5 ↔ _ at minor
  change funct7 inst = 0x20 ↔ _ at top
  have bit : opcode inst = 0x13 → funct3 inst = 5 →
      (inst.getLsbD 30 = true ↔ funct7 inst = 0x20) := by
    intro code five
    rw [← bit30_iff]
    constructor
    · intro set
      refine (plain code five).resolve_left fun zero => set ?_
      rw [show inst >>> 30 = funct7 inst >>> 5 from BitVec.shiftRight_add inst 25 5, zero]
      decide
    · exact bit30_of_funct7
  unfold isArithmeticShift
  rw [Bool.and_eq_true, Bool.or_eq_true, Bool.and_eq_true, Bool.and_eq_true, beq_iff_eq, beq_iff_eq,
    beq_iff_eq, beq_iff_eq, ← minor, ← immediate, ← register, ← top]
  constructor
  · rintro ⟨five, ⟨code, set⟩ | ⟨code, seven⟩⟩
    · exact ⟨Or.inl code, five, (bit code five).mp set⟩
    · exact ⟨Or.inr code, five, seven⟩
  · rintro ⟨code | code, five, seven⟩
    · exact ⟨five, Or.inl ⟨code, (bit code five).mpr seven⟩⟩
    · exact ⟨five, Or.inr ⟨code, seven⟩⟩

/-- An arithmetic shift writes every register but the first. -/
theorem writes_of_shift
    {inst : Word}
    (code : opcode inst = 0x13 ∨ opcode inst = 0x33) :
    GPUCore.writes inst = true ↔ rd inst ≠ 0 := by
  have zero : rd inst = 0 ↔ Decode.rd inst = 0 := rd_eq_iff inst 0
  have uses : Decode.usesRd (Decode.opcode inst) = true := by
    rcases code with code | code
    · rw [(opcode_eq_iff inst 0b0010011).mp code]
      rfl
    · rw [(opcode_eq_iff inst 0b0110011).mp code]
      rfl
  rw [GPUCore.writes, uses, Bool.true_and, bne_iff_ne]
  exact not_congr zero.symm

/-- A lane shifts by nothing exactly when its thread does. -/
theorem arithmeticShiftAmount_eq_zero_iff
    {inst b : Word}
    {core : IssCore}
    (code : opcode inst = 0x13 ∨ opcode inst = 0x33)
    (source : opcode inst = 0x33 → core.gpr (rs2 inst).toNat = b) :
    arithmeticShiftAmount inst b = 0 ↔ core.shiftAmount inst = 0 := by
  have immediate : opcode inst = 0x13 ↔ Decode.opcode inst = 0b0010011 :=
    opcode_eq_iff inst 0b0010011
  have zero : ∀ word : Word, word = 0 ↔ word.toNat = 0 := fun word => BitVec.toNat_inj.symm
  unfold arithmeticShiftAmount IssCore.shiftAmount
  by_cases form : opcode inst = 0x13
  · rw [if_pos form, if_pos (immediate.mp form), zero, toNat_shamt]
  · rw [if_neg form, if_neg (mt immediate.mpr form), zero, source (code.resolve_left form),
      shiftAmount_eq]

/-! ## A core at work -/

section AtWork

variable {cfg : Config} {info : LaunchInfo} {blockSize : Word} {b : Nat}
  {runs : LaneRuns cfg info blockSize b} {q : Nat → Nat} {mem : ShadowMemory}
  {ledger : LaneLedger} {c : Core} {h : GPUCore cfg} {t : Nat}

/-- The next instruction of the thread of lane `t`. -/
def LaneRuns.ShiftsNegative (runs : LaneRuns cfg info blockSize b) (x k : Nat) : Prop :=
  (runs.core x k).ShiftsNegative (runs.word x k)

/-- An issued lane of a core in `EXEC` shifts a negative value exactly when its thread
does. -/
theorem AtWork.lane_shiftsNegative_iff
    (work : AtWork runs q mem ledger c)
    (same : SameCore cfg c h)
    (inRange : h.InRange)
    (exec : c.state = .exec)
    (present : hasLane c.im t = true) :
    (isArithmeticShift h.issueInst = true ∧ GPUCore.writes h.issueInst = true ∧
        (h.laneRegister t (Decode.rs1 h.issueInst)).msb = true ∧
        arithmeticShiftAmount h.issueInst (h.laneRegister t (Decode.rs2 h.issueInst)) ≠ 0) ↔
      runs.ShiftsNegative (c.context cfg t) (q (c.context cfg t)) := by
  have notSched := Core.ne_sched_of_exec exec
  have pending := work.pending notSched present (Core.not_served (Core.not_inMemory_of_exec exec))
  have word := pending.word (by rw [exec]; exact CoreState.noConfusion)
  have plain := runs.plain _ _ pending.stands.inBlock pending.stands.awake
  have legal := work.legal exec
  have lane := pending.lane
  change Iss.Plain _ (runs.word _ _) at plain
  rw [LaneRuns.ShiftsNegative, word]
  rw [word] at plain
  have first : usesRs1 (opcode c.inst) = true →
      (runs.core (c.context cfg t) (q (c.context cfg t))).gpr (rs1 c.inst).toNat =
        h.laneRegister t (Decode.rs1 h.issueInst) := by
    intro reads
    rw [(pending.same 0).source1 legal reads, rs1_eq, same.inst, same.laneRegister inRange lane]
  have second : usesRs2 (opcode c.inst) = true →
      (runs.core (c.context cfg t) (q (c.context cfg t))).gpr (rs2 c.inst).toNat =
        h.laneRegister t (Decode.rs2 h.issueInst) := by
    intro reads
    rw [(pending.same 0).source2 legal reads, rs2_eq, same.inst, same.laneRegister inRange lane]
  have shape := isArithmeticShift_iff plain.shift
  rw [← same.inst] at first second ⊢
  have reads : opcode c.inst = 0x13 ∨ opcode c.inst = 0x33 → usesRs1 (opcode c.inst) = true := by
    rintro (code | code)
    · rw [code]
      rfl
    · rw [code]
      rfl
  have amount : ∀ code : opcode c.inst = 0x13 ∨ opcode c.inst = 0x33,
      arithmeticShiftAmount c.inst (h.laneRegister t (Decode.rs2 c.inst)) = 0 ↔
        (runs.core (c.context cfg t) (q (c.context cfg t))).shiftAmount c.inst = 0 := fun code =>
    arithmeticShiftAmount_eq_zero_iff code fun register => second (by rw [register]; rfl)
  constructor
  · rintro ⟨shift, writes, negative, some⟩
    obtain ⟨code, minor, top⟩ := shape.mp shift
    exact
      { code
        minor
        top
        kept := (writes_of_shift code).mp writes
        negative := by rwa [first (reads code)]
        amount := mt (amount code).mpr some }
  · rintro ⟨code, minor, top, kept, negative, some⟩
    refine ⟨shape.mpr ⟨code, minor, top⟩, (writes_of_shift code).mpr kept, ?_,
      mt (amount code).mp some⟩
    rwa [← first (reads code)]

/-- A core in `EXEC` comes to a known difference exactly when one of the threads that it moves
does. -/
theorem AtWork.shiftsNegative_iff
    (work : AtWork runs q mem ledger c)
    (same : SameCore cfg c h)
    (inRange : h.InRange)
    (exec : c.state = .exec) :
    h.ShiftsNegative ↔
      ∃ t, hasLane c.im t = true ∧
        runs.ShiftsNegative (c.context cfg t) (q (c.context cfg t)) := by
  have active : h.ctaActive = true := same.ctaActive.symm.trans work.active
  have legal : Decode.badRegister h.issueInst = false := by
    rw [← badRegister_eq, ← same.inst]
    exact work.legal exec
  constructor
  · rintro ⟨_, _, shift, writes, t, present, negative, amount⟩
    have present : hasLane c.im t = true := (same.im t).trans present
    exact ⟨t, present, (work.lane_shiftsNegative_iff same inRange exec present).mp
      ⟨shift, writes, negative, amount⟩⟩
  · rintro ⟨t, present, shifts⟩
    obtain ⟨shift, writes, negative, amount⟩ :=
      (work.lane_shiftsNegative_iff same inRange exec present).mpr shifts
    exact ⟨active, legal, shift, writes, t, (same.im t).symm.trans present, negative, amount⟩

/-- Only `EXEC` completes what is no load or store. -/
theorem Core.exec_of_completes
    (completes : c.completes t = true)
    (noMemory : ¬(opcode c.inst = 0x03 ∨ opcode c.inst = 0x23)) :
    c.state = .exec := by
  rw [not_or] at noMemory
  unfold Core.completes at completes
  cases state : c.state <;> simp_all

/-- A core is about to come to a known difference exactly when it moves a thread over such a
shift. -/
theorem AtWork.moved_shiftsNegative_iff
    (work : AtWork runs q mem ledger c)
    (same : SameCore cfg c h)
    (inRange : h.InRange) :
    (h.state = .exec ∧ h.ShiftsNegative) ↔
      ∃ x, c.progress cfg q x = q x + 1 ∧ runs.ShiftsNegative x (q x) := by
  have exec : h.state = .exec ↔ c.state = .exec := by
    rw [same.state]
    cases h.state <;> simp [Fsm.state]
  have noMemory : ∀ {x}, runs.ShiftsNegative x (q x) → runs.word x (q x) = c.inst →
      ¬(opcode c.inst = 0x03 ∨ opcode c.inst = 0x23) := by
    intro x shifts word
    have code := shifts.code
    rw [word] at code
    rcases code with code | code <;> simp [code]
  rw [exec]
  constructor
  · rintro ⟨exec, shifts⟩
    obtain ⟨t, present, shifts⟩ := (work.shiftsNegative_iff same inRange exec).mp shifts
    have pending := work.pending (Core.ne_sched_of_exec exec) present
      (Core.not_served (Core.not_inMemory_of_exec exec))
    have word := pending.word (by rw [exec]; exact CoreState.noConfusion)
    have completes := Core.completes_of_exec exec (noMemory shifts word) present
    refine ⟨_, ?_, shifts⟩
    rw [Core.progress_context pending.lane, completes]
    rfl
  · rintro ⟨x, moved, shifts⟩
    rcases @Core.progress_cases cfg c q x with kept | ⟨t, lane, rfl, completes, _⟩
    · omega
    · obtain ⟨_, notFetch, pending⟩ := work.pending_of_completes completes
      have exec := Core.exec_of_completes completes (noMemory shifts (pending.word notFetch))
      exact ⟨exec, (work.shiftsNegative_iff same inRange exec).mpr
        ⟨t, Core.hasLane_of_completes completes, shifts⟩⟩

end AtWork

end OpenGPU
