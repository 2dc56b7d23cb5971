import OpenGPU.Lockstep.LaneForm

/-!
# The result of one lane

Register arithmetic and CSR reads in the cycle model and in the SystemVerilog
core. They differ in one place: the arithmetic right shift of the hardware text
stands in a conditional with an unsigned arm, and shifts in zeros.
-/

namespace OpenGPU

open Verilog Instruction

/-! ## Shifts -/

/-- The shift amount of a register shift. -/
theorem shiftAmount_eq
    (b : Word) :
    (b &&& 31).toNat = (b.extractLsb' 0 5).toNat := by
  rw [BitVec.toNat_and, BitVec.extractLsb'_toNat, Nat.shiftRight_zero]
  exact Nat.and_two_pow_sub_one_eq_mod b.toNat 5

theorem toNat_shamt
    (inst : Word) :
    (shamt inst).toNat = (Decode.rs2 inst).toNat := by
  rw [shamt_eq, toNat_field _ (by decide)]

/-- An arithmetic right shift is a logical one if and only if the sign is clear
or nothing is shifted. -/
theorem sshiftRight_eq_iff
    (a : Word)
    {amount : Nat}
    (small : amount < 32) :
    a.sshiftRight amount = a >>> amount ↔ a.msb = false ∨ amount = 0 := by
  constructor
  · intro same
    rw [or_iff_not_imp_right]
    intro shifts
    have top := congrArg (fun value => value.getLsbD 31) same
    simp only [BitVec.getLsbD_sshiftRight, BitVec.getLsbD_ushiftRight] at top
    rw [BitVec.getLsbD_of_ge a (amount + 31) (by omega)] at top
    simpa [show ¬amount + 31 < 32 by omega] using top
  · rintro (positive | rfl)
    · exact BitVec.sshiftRight_eq_of_msb_false positive
    · simp

/-- The instruction is `SRA` or `SRAI`. -/
def isArithmeticShift (inst : Word) : Bool :=
  Decode.funct3 inst == 5 &&
    ((Decode.opcode inst == 0b0010011 && inst.getLsbD 30) ||
      (Decode.opcode inst == 0b0110011 && Decode.funct7 inst == 0b0100000))

/-- The amount that `SRA` or `SRAI` shifts by. -/
def arithmeticShiftAmount (inst b : Word) : Nat :=
  if Decode.opcode inst = 0b0010011 then (Decode.rs2 inst).toNat
  else (b.extractLsb' 0 5 : BitVec 5).toNat

theorem arithmeticShiftAmount_lt
    (inst b : Word) :
    arithmeticShiftAmount inst b < 32 := by
  unfold arithmeticShiftAmount
  split_ifs
  · exact (Decode.rs2 inst).isLt
  · exact BitVec.isLt (b.extractLsb' 0 5 : BitVec 5)

/-! ## Arithmetic -/

/-- Minor opcodes in both widths. -/
theorem funct3_split
    (inst : Word) :
    (funct3 inst = 0 ∧ Decode.funct3 inst = 0) ∨ (funct3 inst = 1 ∧ Decode.funct3 inst = 1) ∨
      (funct3 inst = 2 ∧ Decode.funct3 inst = 2) ∨ (funct3 inst = 3 ∧ Decode.funct3 inst = 3) ∨
      (funct3 inst = 4 ∧ Decode.funct3 inst = 4) ∨ (funct3 inst = 5 ∧ Decode.funct3 inst = 5) ∨
      (funct3 inst = 6 ∧ Decode.funct3 inst = 6) ∨ (funct3 inst = 7 ∧ Decode.funct3 inst = 7) := by
  have all : ∀ f3 : BitVec 3,
      (f3.setWidth 32 = (0 : Word) ∧ f3 = 0) ∨ (f3.setWidth 32 = (1 : Word) ∧ f3 = 1) ∨
        (f3.setWidth 32 = (2 : Word) ∧ f3 = 2) ∨ (f3.setWidth 32 = (3 : Word) ∧ f3 = 3) ∨
        (f3.setWidth 32 = (4 : Word) ∧ f3 = 4) ∨ (f3.setWidth 32 = (5 : Word) ∧ f3 = 5) ∨
        (f3.setWidth 32 = (6 : Word) ∧ f3 = 6) ∨ (f3.setWidth 32 = (7 : Word) ∧ f3 = 7) := by
    decide
  rw [funct3_eq]
  exact all _

/-- The bit that selects the arithmetic shift of an immediate. -/
theorem bit30_iff
    (inst : Word) :
    (inst >>> 30) &&& 1 ≠ 0 ↔ inst.getLsbD 30 = true := by
  rw [ne_zero_iff_hasLane]
  constructor
  · rintro ⟨bit, present⟩
    rw [hasLane_and, hasLane_eq_getLsbD, hasLane_eq_getLsbD, Bool.and_eq_true,
      BitVec.getLsbD_ushiftRight] at present
    obtain ⟨here, first⟩ := present
    have zero : bit = 0 := by
      have one : (1#32).getLsbD bit = true := first
      rw [BitVec.getLsbD_one] at one
      simpa using one
    rwa [zero] at here
  · intro here
    refine ⟨0, ?_⟩
    rw [hasLane_and, hasLane_eq_getLsbD, hasLane_eq_getLsbD, BitVec.getLsbD_ushiftRight, here]
    rfl

/-- Register-immediate arithmetic. -/
theorem opImm_eq
    (inst a : Word) :
    Core.opImm inst a =
      some (if Decode.funct3 inst = 5 ∧ inst.getLsbD 30 = true then
        a.sshiftRight (Decode.rs2 inst).toNat
      else GPUCore.opImm inst a) := by
  have amount := toNat_shamt inst
  unfold Core.opImm GPUCore.opImm
  rcases funct3_split inst with
    ⟨f3, s3⟩ | ⟨f3, s3⟩ | ⟨f3, s3⟩ | ⟨f3, s3⟩ | ⟨f3, s3⟩ | ⟨f3, s3⟩ | ⟨f3, s3⟩ | ⟨f3, s3⟩
  · simp [f3, s3, immI_eq]
  · simp [f3, s3, amount, Decode.rs2]
  · simp [f3, s3, immI_eq]
  · simp [f3, s3, immI_eq]
  · simp [f3, s3, immI_eq]
  · rw [f3, s3]
    show some (if (inst >>> 30) &&& 1 ≠ 0 then a.sshiftRight' (shamt inst)
        else a >>> shamt inst) =
      some (if (5 : BitVec 3) = 5 ∧ inst.getLsbD 30 = true then a.sshiftRight (Decode.rs2 inst).toNat
        else if inst.getLsbD 30 then a >>> (Decode.rs2 inst).toNat
        else a >>> (Decode.rs2 inst).toNat)
    rw [ite_self]
    exact congrArg some (if_congr ((bit30_iff inst).trans (and_iff_right rfl).symm)
      (congrArg a.sshiftRight amount) (congrArg (fun sh : Nat => a >>> sh) amount))
  · simp [f3, s3, immI_eq]
  · simp [f3, s3, immI_eq]

/-- Register-register arithmetic. -/
theorem op_eq
    (inst a b : Word) :
    Core.op inst a b =
      some (if Decode.funct3 inst = 5 ∧ Decode.funct7 inst = 0b0100000 then
        a.sshiftRight (b.extractLsb' 0 5 : BitVec 5).toNat
      else GPUCore.op inst a b) := by
  have amount := shiftAmount_eq b
  have alternate : funct7 inst = 0x20 ↔ Decode.funct7 inst = 0b0100000 :=
    funct7_eq_iff inst 0b0100000
  unfold Core.op GPUCore.op
  rcases funct3_split inst with
    ⟨f3, s3⟩ | ⟨f3, s3⟩ | ⟨f3, s3⟩ | ⟨f3, s3⟩ | ⟨f3, s3⟩ | ⟨f3, s3⟩ | ⟨f3, s3⟩ | ⟨f3, s3⟩
  · rw [f3, s3, if_neg fun both : (0 : BitVec 3) = 5 ∧ _ => absurd both.1 (by decide)]
    show some (if funct7 inst = 0x20 then a - b else a + b) =
      some (if Decode.funct7 inst = 0b0100000 then a - b else a + b)
    exact congrArg some (if_congr alternate rfl rfl)
  · rw [f3, s3, if_neg fun both : (1 : BitVec 3) = 5 ∧ _ => absurd both.1 (by decide)]
    exact congrArg some (congrArg (fun sh : Nat => a <<< sh) amount)
  · simp [f3, s3]
  · simp [f3, s3]
  · simp [f3, s3]
  · rw [f3, s3]
    show some (if funct7 inst = 0x20 then a.sshiftRight' (b &&& 31) else a >>> (b &&& 31)) =
      some (if (5 : BitVec 3) = 5 ∧ Decode.funct7 inst = 0b0100000 then
          a.sshiftRight (b.extractLsb' 0 5 : BitVec 5).toNat
        else if Decode.funct7 inst = 0b0100000 then a >>> (b.extractLsb' 0 5 : BitVec 5).toNat
        else a >>> (b.extractLsb' 0 5 : BitVec 5).toNat)
    rw [ite_self]
    exact congrArg some (if_congr (alternate.trans (and_iff_right rfl).symm)
      (congrArg a.sshiftRight amount) (congrArg (fun sh : Nat => a >>> sh) amount))
  · simp [f3, s3]
  · simp [f3, s3]

/-- An arithmetic right shift of the hardware text is a logical one. -/
theorem Verilog.GPUCore.laneResult_of_shift
    {cfg : Config}
    {h : GPUCore cfg}
    (cid t : Nat)
    (shift : isArithmeticShift h.issueInst = true)
    (a b : Word) :
    GPUCore.laneResult cid h t a b = some (a >>> arithmeticShiftAmount h.issueInst b) := by
  simp only [isArithmeticShift, Bool.and_eq_true, Bool.or_eq_true, beq_iff_eq] at shift
  unfold GPUCore.laneResult arithmeticShiftAmount
  dsimp only
  rcases shift with ⟨minor, ⟨immediate, _⟩ | ⟨register, _⟩⟩
  · rw [immediate, if_neg (by decide), if_neg (by decide), if_pos rfl, if_pos rfl]
    unfold GPUCore.opImm
    rw [minor]
    exact congrArg some (ite_self _)
  · rw [register, if_neg (by decide), if_neg (by decide), if_neg (by decide), if_pos rfl,
      if_neg (by decide)]
    unfold GPUCore.op
    rw [minor]
    exact congrArg some (ite_self _)

/-! ## CSR reads -/

namespace SameCore

variable {cfg : Config} {c : Core} {h : GPUCore cfg}

/-- A CSR read of an issued lane. -/
theorem csrValue
    (same : SameCore cfg c h)
    (inRange : h.InRange)
    (cid : Nat)
    {t : Nat}
    (lane : t < cfg.numThreads) :
    Core.csrValue cfg cid c t (c.inst >>> 20) =
      GPUCore.csrValue cid h t (Decode.csrAddr h.issueInst) := by
  have context := inRange.context_lt lane
  have physical : cid * cfg.contexts + c.iw * cfg.numThreads + t =
      cid * cfg.numWarps * cfg.numThreads + h.warp * cfg.numThreads + t := by
    rw [same.iw, Config.contexts, Nat.mul_assoc]
    rfl
  have number := csr_eq_iff h.issueInst
  unfold Core.csrValue GPUCore.csrValue
  dsimp only
  rw [same.context, same.inst, same.gid _ context, same.tx _ context, same.ty _ context,
    same.tz _ context, same.block, same.dim, same.grid, same.args, physical, same.iw]
  exact
    if_congr (number 0xf14) rfl <|
    if_congr (number 0xcc0) rfl <|
    if_congr (number 0xcc1) rfl <|
    if_congr (number 0xcc2) rfl <|
    if_congr (number 0xcc3) rfl <|
    if_congr (number 0xcc4) rfl <|
    if_congr (number 0xcc5) rfl <|
    if_congr (number 0xcc6) rfl <|
    if_congr (number 0xcc7) rfl <|
    if_congr (number 0xcc8) rfl <|
    if_congr (number 0xcc9) rfl <|
    if_congr (number 0xcca) rfl <|
    if_congr (number 0xccb) rfl <|
    if_congr (number 0xccc) rfl <|
    if_congr (number 0xccd) rfl <|
    if_congr (number 0xcce) rfl <|
    if_congr (number 0xccf) rfl rfl

/-! ## All opcodes -/

/-- The result of a lane on equal operands: the SystemVerilog core differs for
`SRA` and `SRAI` only. -/
theorem laneResult
    (same : SameCore cfg c h)
    (inRange : h.InRange)
    (cid : Nat)
    {t : Nat}
    (lane : t < cfg.numThreads)
    (a b : Word) :
    Core.laneResult cfg cid c t a b =
      if isArithmeticShift h.issueInst then
        some (a.sshiftRight (arithmeticShiftAmount h.issueInst b))
      else GPUCore.laneResult cid h t a b := by
  have number := opcode_eq_iff h.issueInst
  have minor : funct3 h.issueInst ≠ 2 ∨ rs1 h.issueInst ≠ 0 ↔
      Decode.funct3 h.issueInst ≠ 2 ∨ Decode.rs1 h.issueInst ≠ 0 :=
    or_congr (not_congr (funct3_eq_iff _ 2)) (not_congr (rs1_eq_iff _ 0))
  have csr := same.csrValue inRange cid lane
  rw [same.inst] at csr
  unfold Core.laneResult GPUCore.laneResult isArithmeticShift arithmeticShiftAmount
  dsimp only
  rw [same.inst, same.ip, csr, opImm_eq, op_eq]
  rcases eq_or_ne (Decode.opcode h.issueInst) 0b0010011 with immediate | noImmediate
  · have opcode13 : opcode h.issueInst = 0x13 := (number 0b0010011).mpr immediate
    simp [opcode13, immediate, apply_ite some]
  rcases eq_or_ne (Decode.opcode h.issueInst) 0b0110011 with register | noRegister
  · have opcode33 : opcode h.issueInst = 0x33 := (number 0b0110011).mpr register
    simp [opcode33, register, apply_ite some]
  · rw [beq_eq_false_iff_ne.mpr noImmediate, beq_eq_false_iff_ne.mpr noRegister, Bool.false_and,
      Bool.false_and, Bool.or_false, Bool.and_false, if_neg Bool.false_ne_true]
    exact
      if_congr (number 0b0110111) (congrArg some (immU_eq _)) <|
      if_congr (number 0b0010111) (congrArg (fun imm => some (h.issuePc + imm)) (immU_eq _)) <|
      ite_congr (propext (number 0b0010011)) (fun immediate => absurd immediate noImmediate) fun _ =>
      ite_congr (propext (number 0b0110011)) (fun register => absurd register noRegister) fun _ =>
      if_congr (number 0b1101111) rfl <|
      if_congr (number 0b1100111) rfl <|
      if_congr (number 0b1110011) (if_congr minor rfl rfl) rfl

/-- The result of an issued lane. -/
theorem issuedResult
    (same : SameCore cfg c h)
    (inRange : h.InRange)
    (cid : Nat)
    {t : Nat}
    (lane : t < cfg.numThreads) :
    c.issuedResult cfg cid t =
      if isArithmeticShift h.issueInst then
        some ((h.laneRegister t (Decode.rs1 h.issueInst)).sshiftRight
          (arithmeticShiftAmount h.issueInst (h.laneRegister t (Decode.rs2 h.issueInst))))
      else
        GPUCore.laneResult cid h t (h.laneRegister t (Decode.rs1 h.issueInst))
          (h.laneRegister t (Decode.rs2 h.issueInst)) := by
  rw [Core.issuedResult, rs1_eq, rs2_eq, same.inst, same.laneRegister inRange lane,
    same.laneRegister inRange lane]
  exact same.laneResult inRange cid lane _ _

end SameCore

end OpenGPU
