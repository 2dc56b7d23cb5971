import OpenGPU.Lockstep.LaneResult

/-!
# `EXEC` of the SystemVerilog core and of the cycle model

The lane loop of the hardware text in the common form, and the comparison of one
edge with one step of the cycle model.
-/

namespace OpenGPU

open Verilog Instruction

namespace Verilog.GPUCore

variable {cfg : Config} {coreId : Nat} {h : GPUCore cfg}

/-! ## The lane loop -/

/-- The result of an issued lane, on the registers before the edge. -/
def issuedResult (coreId : Nat) (h : GPUCore cfg) (t : Nat) : Option Word :=
  laneResult coreId h t (h.laneRegister t (Decode.rs1 h.issueInst))
    (h.laneRegister t (Decode.rs2 h.issueInst))

/-- The lane loop up to lane `count`. -/
def loopUpTo (coreId : Nat) (h : GPUCore cfg) (count : Nat) : LaneLoop :=
  (List.range count).foldl (laneBody coreId h)
    { gprs := h.gprs
      supported := true
      targetSet := false
      divergentTarget := false
      firstTarget := 0
      nextPc := h.nextPc }

theorem loopUpTo_succ
    (count : Nat) :
    loopUpTo coreId h (count + 1) = laneBody coreId h (loopUpTo coreId h count) count := by
  rw [loopUpTo, List.range_succ, List.foldl_append]
  rfl

theorem laneBody_of_issued
    {t : Nat}
    (acc : LaneLoop)
    (issued : h.issueMask.getLsbD t = true) :
    laneBody coreId h acc t =
      { laneJump h (h.laneRegister t (Decode.rs1 h.issueInst)) acc with
        supported := acc.supported && (h.issuedResult coreId t).isSome
        gprs := h.writeLane (fun t => (h.issuedResult coreId t).getD 0) acc.gprs t } := by
  unfold laneBody writeLane
  rw [if_pos issued, if_pos issued]
  rfl

theorem laneBody_of_idle
    {t : Nat}
    (acc : LaneLoop)
    (idle : h.issueMask.getLsbD t = false) :
    laneBody coreId h acc t = acc := by
  unfold laneBody
  rw [idle, if_neg Bool.false_ne_true]

/-- The registers after the lane loop. -/
theorem laneLoop_holdsWritten :
    h.HoldsWritten (fun t => (h.issuedResult coreId t).getD 0) (laneLoop coreId h).gprs := by
  have gprs : (laneLoop coreId h).gprs = (List.range cfg.numThreads).foldl
      (h.writeLane fun t => (h.issuedResult coreId t).getD 0) h.gprs := by
    refine (List.foldl_hom LaneLoop.gprs fun acc t => ?_).symm
    cases issued : h.issueMask.getLsbD t with
    | true => rw [laneBody_of_issued acc issued]
    | false =>
        rw [laneBody_of_idle acc issued, writeLane, issued]
        rfl
  rw [gprs]
  exact h.holdsWritten_foldl _

theorem loopUpTo_supported
    (count : Nat) :
    (loopUpTo coreId h count).supported =
      (List.range count).all fun t =>
        !h.issueMask.getLsbD t || (h.issuedResult coreId t).isSome := by
  induction count with
  | zero => rfl
  | succ count inductionHypothesis =>
      rw [loopUpTo_succ, List.range_succ, List.all_append, ← inductionHypothesis, List.all_cons,
        List.all_nil, Bool.and_true]
      cases issued : h.issueMask.getLsbD count with
      | true => rw [laneBody_of_issued _ issued, Bool.not_true, Bool.false_or]
      | false => rw [laneBody_of_idle _ issued, Bool.not_false, Bool.true_or, Bool.and_true]

/-- The jump variables of `JALR` as a comparison with the first lane. -/
def LaneLoop.agreement (acc : LaneLoop) : Agreement Word :=
  ⟨acc.targetSet, acc.firstTarget, acc.nextPc, acc.divergentTarget⟩

/-- One lane of `JALR` compares its target. -/
theorem laneJump_agreement
    (jalr : Decode.opcode h.issueInst = 0b1100111)
    (a : Word)
    (acc : LaneLoop) :
    (laneJump h a acc).agreement =
      if !acc.targetSet then
        { acc.agreement with
          seen := true
          first := (a + Decode.immI h.issueInst) &&& 0xfffffffe
          last := (a + Decode.immI h.issueInst) &&& 0xfffffffe }
      else if acc.firstTarget ≠ (a + Decode.immI h.issueInst) &&& 0xfffffffe then
        { acc.agreement with
          last := (a + Decode.immI h.issueInst) &&& 0xfffffffe, differs := true }
      else { acc.agreement with last := (a + Decode.immI h.issueInst) &&& 0xfffffffe } := by
  unfold laneJump
  dsimp only
  rw [if_neg (by rw [jalr]; decide), if_pos jalr]
  split_ifs <;> rfl

theorem loopUpTo_agreement
    (coreId : Nat)
    (jalr : Decode.opcode h.issueInst = 0b1100111)
    (count : Nat) :
    (loopUpTo coreId h count).agreement =
      Agreement.scan h.issueMask.getLsbD h.laneTarget count ⟨false, 0, h.nextPc, false⟩ := by
  induction count with
  | zero => rfl
  | succ count inductionHypothesis =>
      rw [Agreement.scan_succ, ← inductionHypothesis, loopUpTo_succ]
      cases issued : h.issueMask.getLsbD count with
      | false => rw [laneBody_of_idle _ issued, Agreement.step_of_inactive issued]
      | true =>
          rw [laneBody_of_issued _ issued]
          show (laneJump h _ _).agreement = _
          rw [laneJump_agreement jalr]
          exact (if_pos issued).symm

/-- Without `JALR` no target is compared, and an issued lane sets the address. -/
theorem loopUpTo_straight
    (coreId : Nat)
    (noJalr : Decode.opcode h.issueInst ≠ 0b1100111)
    (count : Nat) :
    (loopUpTo coreId h count).divergentTarget = false ∧
      ((∃ t, t < count ∧ h.issueMask.getLsbD t = true) →
        (loopUpTo coreId h count).nextPc =
          if Decode.opcode h.issueInst = 0b1101111 then
            h.issuePc + Decode.immJ h.issueInst
          else h.issuePc + 4) := by
  induction count with
  | zero => exact ⟨rfl, fun ⟨t, before, _⟩ => absurd before (Nat.not_lt_zero t)⟩
  | succ count inductionHypothesis =>
      obtain ⟨agree, next⟩ := inductionHypothesis
      rw [loopUpTo_succ]
      cases issued : h.issueMask.getLsbD count with
      | false =>
          rw [laneBody_of_idle _ issued]
          refine ⟨agree, fun ⟨t, inLoop, lane⟩ => next ⟨t, ?_, lane⟩⟩
          refine Nat.lt_of_le_of_ne (Nat.le_of_lt_succ inLoop) ?_
          rintro rfl
          exact absurd lane (by rw [issued]; exact Bool.false_ne_true)
      | true =>
          rw [laneBody_of_issued _ issued]
          show (laneJump h _ _).divergentTarget = false ∧ (_ → (laneJump h _ _).nextPc = _)
          unfold laneJump
          dsimp only
          rw [if_neg noJalr]
          split_ifs with jal
          · exact ⟨agree, fun _ => rfl⟩
          · exact ⟨agree, fun _ => rfl⟩

/-- The remaining opcodes in their common form. -/
theorem execLanes_eq
    (coreId : Nat)
    (h : GPUCore cfg) :
    h.execLanes coreId =
      { h.lanesDone (laneLoop coreId h).gprs
          ((laneLoop coreId h).supported && !(laneLoop coreId h).divergentTarget)
          (laneLoop coreId h).nextPc with
        nextPc := (laneLoop coreId h).nextPc } := by
  unfold execLanes lanesDone
  dsimp only
  cases (laneLoop coreId h).supported <;> cases (laneLoop coreId h).divergentTarget <;> rfl

end Verilog.GPUCore

namespace SameCore

variable {cfg : Config} {c : Core} {h : GPUCore cfg}

/-! ## Fault and address -/

/-- Both sides have a result for the same words. -/
theorem issuedResult_isSome
    (same : SameCore cfg c h)
    (inRange : h.InRange)
    (cid : Nat)
    {t : Nat}
    (lane : t < cfg.numThreads) :
    (h.issuedResult cid t).isSome = Core.supported c.inst := by
  have listed : (c.issuedResult cfg cid t).isSome = Core.supported c.inst :=
    Core.laneResult_isSome t _ _
  rw [← listed, same.issuedResult inRange cid lane]
  cases shift : isArithmeticShift h.issueInst with
  | false => rfl
  | true =>
      rw [if_pos rfl, Option.isSome_some]
      unfold GPUCore.issuedResult GPUCore.laneResult
      simp only [isArithmeticShift, Bool.and_eq_true, Bool.or_eq_true, beq_iff_eq] at shift
      rcases shift with ⟨_, ⟨immediate, _⟩ | ⟨register, _⟩⟩
      · simp [immediate]
      · simp [register]

/-- Fault and address of the lane loop of the hardware text. -/
theorem laneLoop_outcome
    (same : SameCore cfg c h)
    (inRange : h.InRange)
    (issued : h.issueMask ≠ 0)
    (cid : Nat) :
    ((GPUCore.laneLoop cid h).supported && !(GPUCore.laneLoop cid h).divergentTarget) =
        c.fine cfg ∧
      (c.fine cfg = true → (GPUCore.laneLoop cid h).nextPc = c.follow cfg) := by
  obtain ⟨lane, inWarp, present⟩ := same.exists_issued issued
  have number := fun value => opcode_eq_iff h.issueInst value
  have supported : (GPUCore.loopUpTo cid h cfg.numThreads).supported = Core.supported c.inst := by
    rw [GPUCore.loopUpTo_supported, ← same.issuedLanes]
    cases listed : Core.supported c.inst with
    | true =>
        rw [List.all_eq_true]
        intro t inLoop
        rw [same.issuedResult_isSome inRange cid (List.mem_range.mp inLoop), listed, Bool.or_true]
    | false =>
        rw [List.all_eq_false]
        refine ⟨lane, List.mem_range.mpr inWarp, ?_⟩
        rw [same.issuedResult_isSome inRange cid inWarp, listed, present]
        exact Bool.false_ne_true
  rw [show GPUCore.laneLoop cid h = GPUCore.loopUpTo cid h cfg.numThreads from rfl, supported,
    Core.fine, Core.follow, same.inst, same.ip, immJ_eq]
  rcases eq_or_ne (Decode.opcode h.issueInst) 0b1100111 with jalr | noJalr
  · have jalr' : opcode h.issueInst = 0x67 := (number 0b1100111).mpr jalr
    rcases Agreement.scan_spec h.issueMask.getLsbD h.laneTarget cfg.numThreads
        ⟨false, 0, h.nextPc, false⟩ rfl rfl with ⟨quiet, _⟩ | ⟨leader, found, compared⟩
    · rw [same.im lane] at present
      exact absurd present (by rw [quiet lane inWarp]; exact Bool.false_ne_true)
    · have first : c.firstLane cfg = leader := by
        rw [Core.firstLane, same.issuedLanes, found, Option.getD_some]
      have leading : leader < cfg.numThreads := List.mem_range.mp (List.mem_of_find?_eq_some found)
      rw [← GPUCore.loopUpTo_agreement cid jalr cfg.numThreads] at compared
      have differs : (GPUCore.loopUpTo cid h cfg.numThreads).divergentTarget = c.diverges cfg := by
        rw [Bool.eq_iff_iff, Core.diverges, first, List.any_eq_true]
        refine compared.differs.trans (exists_congr fun t => ?_)
        rw [List.mem_range, Bool.and_eq_true, bne_iff_ne, same.im t]
        refine and_congr_right fun inLoop => and_congr_right fun _ => ?_
        rw [same.laneTarget inRange inLoop, same.laneTarget inRange leading]
      rw [differs, beq_iff_eq.mpr jalr', Bool.true_and]
      refine ⟨rfl, fun fine => ?_⟩
      have agree : (GPUCore.loopUpTo cid h cfg.numThreads).divergentTarget = false := by
        rw [differs]
        exact Bool.not_eq_true' _ |>.mp (Bool.and_eq_true_iff.mp fine).2
      rw [if_neg (by rw [jalr']; decide), if_pos jalr', first, same.laneTarget inRange leading]
      exact compared.last agree
  · have noJalr' : opcode h.issueInst ≠ 0x67 := fun jalr => noJalr ((number 0b1100111).mp jalr)
    obtain ⟨agree, next⟩ := GPUCore.loopUpTo_straight cid noJalr cfg.numThreads
    rw [agree, beq_eq_false_iff_ne.mpr noJalr', Bool.false_and, if_neg noJalr']
    refine ⟨rfl, fun _ => (next ⟨lane, inWarp, (same.im lane).symm.trans present⟩).trans ?_⟩
    exact (if_congr (number 0b1101111) rfl rfl).symm

/-- The lane loops leave the same core if and only if every result that is
written is the same. -/
theorem execLanes_iff
    (same : SameCore cfg c h)
    (inRange : h.InRange)
    (issued : h.issueMask ≠ 0)
    (active : c.ctaActive = true)
    (legal : badRegister c.inst = false)
    (cid : Nat) :
    SameCore cfg (c.execLanes cfg cid) (h.execLanes cid) ↔
      (Core.writes c.inst = true → ∀ t, t < cfg.numThreads → hasLane c.im t = true →
        (c.issuedResult cfg cid t).getD 0 = (h.issuedResult cid t).getD 0) := by
  obtain ⟨fine, next⟩ := same.laneLoop_outcome inRange issued cid
  rw [Core.execLanes_eq cid (same.exists_issued issued), GPUCore.execLanes_eq,
    same.lanesDone_iff inRange active legal GPUCore.laneLoop_holdsWritten, fine]
  exact and_iff_right rfl |>.trans (and_iff_right fun goesOn => (next goesOn).symm)

end SameCore

/-! ## One edge -/

/-- An arithmetic right shift of the hardware text differs: some issued lane
shifts a negative value by more than zero, and the result is written. -/
def Verilog.GPUCore.ShiftsNegative {cfg : Config} (h : GPUCore cfg) : Prop :=
  h.ctaActive = true ∧ Decode.badRegister h.issueInst = false ∧
    isArithmeticShift h.issueInst = true ∧ GPUCore.writes h.issueInst = true ∧
    ∃ t, h.issueMask.getLsbD t = true ∧
      (h.laneRegister t (Decode.rs1 h.issueInst)).msb = true ∧
      arithmeticShiftAmount h.issueInst (h.laneRegister t (Decode.rs2 h.issueInst)) ≠ 0

/-- The lane loops of the cycle model shift a 32-bit one by the lane number; the
word is not one that reaches them, or every lane has a bit. -/
def Core.LaneShiftsFit (cfg : Config) (c : Core) : Prop :=
  cfg.numThreads ≤ 32 ∨ c.ctaActive = false ∨ badRegister c.inst = true ∨ c.inst = ebreak

/-- When an `EXEC` step of the cycle model is defined by the language. -/
theorem Core.stepDefined_exec_iff
    {cfg : Config}
    {c : Core}
    (launch : LaunchRegisters)
    (exec : c.state = .exec)
    (noLoad : opcode c.inst ≠ 0x03)
    (noStore : opcode c.inst ≠ 0x23) :
    c.stepDefined cfg launch false = true ↔ c.LaneShiftsFit cfg := by
  unfold Core.stepDefined Core.LaneShiftsFit
  rw [if_neg Bool.false_ne_true, exec]
  cases c.ctaActive with
  | false => simp
  | true =>
      simp only [Core.laneShiftsDefined, noLoad, noStore, Bool.not_true, Bool.false_eq_true,
        if_false, Bool.or_eq_true, beq_iff_eq, decide_eq_true_eq, or_false, false_or,
        Bool.true_eq_false]
      constructor
      · rintro ((illegal | retire) | fits)
        · exact Or.inr (Or.inl illegal)
        · exact Or.inr (Or.inr retire)
        · exact Or.inl fits
      · rintro (fits | illegal | retire)
        · exact Or.inr fits
        · exact Or.inl (Or.inl illegal)
        · exact Or.inl (Or.inr retire)

namespace SameCore

variable {cfg : Config} {c : Core} {h : GPUCore cfg}

/-- The result of a lane is the same unless it shifts a negative value
arithmetically. -/
theorem issuedResult_iff
    (same : SameCore cfg c h)
    (inRange : h.InRange)
    (cid : Nat)
    {t : Nat}
    (lane : t < cfg.numThreads) :
    (c.issuedResult cfg cid t).getD 0 = (h.issuedResult cid t).getD 0 ↔
      ¬(isArithmeticShift h.issueInst = true ∧
        (h.laneRegister t (Decode.rs1 h.issueInst)).msb = true ∧
        arithmeticShiftAmount h.issueInst (h.laneRegister t (Decode.rs2 h.issueInst)) ≠ 0) := by
  rw [same.issuedResult inRange cid lane]
  cases shift : isArithmeticShift h.issueInst with
  | false =>
      rw [if_neg Bool.false_ne_true]
      exact iff_of_true rfl fun both => Bool.false_ne_true both.1
  | true =>
      rw [if_pos rfl, Option.getD_some, GPUCore.issuedResult,
        GPUCore.laneResult_of_shift cid t shift,
        Option.getD_some, sshiftRight_eq_iff _ (arithmeticShiftAmount_lt _ _)]
      simp only [true_and, not_and_or, Bool.not_eq_true, not_not]

/-- The lane loops leave the same core unless some lane shifts a negative value
arithmetically. -/
theorem execLanes_iff_shiftsNegative
    (same : SameCore cfg c h)
    (inRange : h.InRange)
    (issued : h.issueMask ≠ 0)
    (active : c.ctaActive = true)
    (legal : badRegister c.inst = false)
    (cid : Nat) :
    SameCore cfg (c.execLanes cfg cid) (h.execLanes cid) ↔ ¬h.ShiftsNegative := by
  have active' : h.ctaActive = true := same.ctaActive.symm.trans active
  have legal' : Decode.badRegister h.issueInst = false := by
    rw [← badRegister_eq, ← same.inst, legal]
  rw [same.execLanes_iff inRange issued active legal, writes_eq, same.inst]
  constructor
  · rintro results ⟨_, _, shift, writing, t, present, negative, shifts⟩
    have lane : t < cfg.numThreads := BitVec.lt_of_getLsbD present
    exact (same.issuedResult_iff inRange cid lane).mp
      (results writing t lane ((same.im t).trans present)) ⟨shift, negative, shifts⟩
  · intro never writing t lane present
    rw [same.issuedResult_iff inRange cid lane]
    rintro ⟨shift, negative, shifts⟩
    exact never ⟨active', legal', shift, writing, t, (same.im t).symm.trans present, negative,
      shifts⟩

/-- The `EXEC` state leaves the same core unless some lane shifts a negative
value arithmetically. -/
theorem execute_iff
    (same : SameCore cfg c h)
    (inRange : h.InRange)
    (issued : h.issueMask ≠ 0)
    (active : c.ctaActive = true)
    (noLoad : opcode c.inst ≠ 0x03)
    (noStore : opcode c.inst ≠ 0x23)
    (cid : Nat) :
    SameCore cfg (c.execute cfg cid) (h.execute cid) ↔ ¬h.ShiftsNegative := by
  have number := fun value => opcode_eq_iff h.issueInst value
  have memory : ¬(Decode.opcode h.issueInst = Decode.load ∨
      Decode.opcode h.issueInst = Decode.store) := by
    rintro (load | store)
    · exact noLoad (same.inst ▸ (number Decode.load).mpr load)
    · exact noStore (same.inst ▸ (number Decode.store).mpr store)
  have unshifted : isArithmeticShift h.issueInst = false → ¬h.ShiftsNegative :=
    fun other negative => Bool.false_ne_true (other.symm.trans negative.2.2.1)
  have branch : opcode c.inst = 0x63 ↔ Decode.opcode h.issueInst = Decode.branch := by
    rw [same.inst]
    exact number Decode.branch
  have legality : badRegister c.inst = Decode.badRegister h.issueInst := by
    rw [same.inst, badRegister_eq]
  unfold Core.execute GPUCore.execute
  cases legal : badRegister c.inst with
  | true =>
      rw [← legality, legal, if_pos rfl, if_pos rfl]
      refine iff_of_true { same.raise with state := rfl } ?_
      rintro ⟨_, legal', _⟩
      exact Bool.false_ne_true (legal'.symm.trans (legality.symm.trans legal))
  | false =>
      rw [← legality, legal, if_neg Bool.false_ne_true, if_neg Bool.false_ne_true,
        if_neg (not_or.mpr ⟨noLoad, noStore⟩), if_neg memory]
      rcases eq_or_ne c.inst ebreak with retire | goesOn
      · rw [if_pos retire, if_pos (show h.issueInst = Decode.ebreak from same.inst ▸ retire)]
        refine iff_of_true (same.execEbreak inRange) (unshifted ?_)
        rw [← same.inst, retire]
        decide
      rw [if_neg goesOn, if_neg (show h.issueInst ≠ Decode.ebreak from same.inst ▸ goesOn)]
      rcases eq_or_ne (opcode c.inst) 0x63 with jump | straight
      · rw [if_pos jump, if_pos (branch.mp jump)]
        refine iff_of_true (same.execBranch inRange issued) (unshifted ?_)
        unfold isArithmeticShift
        rw [branch.mp jump]
        exact Bool.and_false _
      · rw [if_neg straight, if_neg fun jump => straight (branch.mpr jump)]
        exact same.execLanes_iff_shiftsNegative inRange issued active legal cid

end SameCore

/-- One edge of the SystemVerilog core in `EXEC` and one step of the cycle model
leave the same core exactly when the step is defined and no lane shifts a
negative value arithmetically. -/
theorem exec_lockstep_iff
    {cfg : Config}
    {c : Core}
    {h : GPUCore cfg}
    (same : SameCore cfg c h)
    (inRange : h.InRange)
    (exec : h.state = .exec)
    (issued : h.issueMask ≠ 0)
    (noLoad : opcode c.inst ≠ 0x03)
    (noStore : opcode c.inst ≠ 0x23)
    {numCores : Nat}
    (cid : Nat)
    (mem : ShadowMemory)
    (launch : LaunchRegisters)
    (ctaValid : Bool)
    (kmu : GPUKmu numCores)
    (imemRdata dmemRdata : Word) :
    (c.stepDefined cfg launch false = true ∧
        SameCore cfg (c.stepCore cfg mem launch cid false)
          (h.posedge cid false ctaValid kmu imemRdata dmemRdata)) ↔
      c.LaneShiftsFit cfg ∧ ¬h.ShiftsNegative := by
  have exec' : c.state = .exec := by
    rw [same.state, exec]
    rfl
  have busy : h.ctaReady = false := by
    rw [GPUCore.ctaReady, exec]
    exact Bool.and_false _
  rw [Core.stepDefined_exec_iff launch exec' noLoad noStore]
  apply and_congr_right
  intro _
  unfold Core.stepCore GPUCore.posedge
  rw [busy, Bool.and_false, if_neg Bool.false_ne_true, if_neg Bool.false_ne_true,
    if_neg Bool.false_ne_true, ← same.ctaActive]
  cases active : c.ctaActive with
  | false =>
      rw [if_pos (Bool.not_false), if_neg Bool.false_ne_true]
      refine iff_of_true same ?_
      rintro ⟨active', _⟩
      rw [← same.ctaActive, active] at active'
      exact Bool.false_ne_true active'
  | true =>
      rw [if_neg (by decide), if_pos rfl, exec, exec']
      exact same.execute_iff inRange issued active noLoad noStore cid

/-- A core of `Config.oneLane` whose lane shifts `x1` right by one,
arithmetically, in place. -/
def Verilog.GPUCore.shifting (value : Word) : GPUCore Config.oneLane :=
  { (GPUCore.fresh : GPUCore Config.oneLane) with
    state := .exec
    ctaActive := true
    issueMask := BitVec.allOnes _
    issueInst := 0x4010d093
    gprs := Function.update (fun _ => 0) 1 value }

theorem Verilog.GPUCore.inRange_shifting
    (value : Word) :
    (GPUCore.shifting value).InRange where
  warp := Nat.zero_lt_one
  thread := Nat.zero_lt_one
  sp _ _ := Nat.zero_le _

/-- One block of one lane. -/
def LaunchRegisters.oneBlock : LaunchRegisters :=
  ⟨⟨0, 0, 0, Dim3.one, Dim3.one, 1⟩, Dim3.zero⟩

/-- `SRAI` of a positive value. -/
theorem exec_lockstep_positive :
    SameCore Config.oneLane
      ((GPUCore.shifting 0x40000000).toCore.stepCore Config.oneLane ⟨fun _ => 0, 0⟩
        LaunchRegisters.oneBlock 0 false)
      ((GPUCore.shifting 0x40000000).posedge 0 false false (GPUKmu.fresh : GPUKmu 1) 0 0) := by
  refine ((exec_lockstep_iff (SameCore.toCore (by decide) _) (GPUCore.inRange_shifting _) rfl
    (by decide) (by decide) (by decide) 0 _ _ false _ 0 0).mpr ⟨Or.inl (by decide), ?_⟩).2
  rintro ⟨_, _, _, _, t, present, negative, _⟩
  have lane : t < 1 := BitVec.lt_of_getLsbD present
  rw [Nat.lt_one_iff.mp lane] at negative
  exact absurd negative (by decide)

/-- `SRAI` of a negative value: the hardware text shifts in a zero. -/
theorem not_exec_lockstep_negative :
    SameCore Config.oneLane (GPUCore.shifting 0x80000000).toCore (GPUCore.shifting 0x80000000) ∧
      ¬SameCore Config.oneLane
        ((GPUCore.shifting 0x80000000).toCore.stepCore Config.oneLane ⟨fun _ => 0, 0⟩
          LaunchRegisters.oneBlock 0 false)
        ((GPUCore.shifting 0x80000000).posedge 0 false false (GPUKmu.fresh : GPUKmu 1) 0 0) := by
  refine ⟨SameCore.toCore (by decide) _, fun after => ?_⟩
  exact absurd (after.gpr 0 1 (by decide) (by decide)) (by decide)

end OpenGPU
