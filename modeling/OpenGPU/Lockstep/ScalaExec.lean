import OpenGPU.Lockstep.ScalaPaths
import OpenGPU.Lockstep.VerilogExec

/-!
# `EXEC` of the Scala cores and of the cycle model

Both Scala texts look a CSR up whether or not the word is legal, and write the
value before they fault. Otherwise every lane has the result of the cycle model.
-/

namespace OpenGPU

open Verilog Instruction

/-- A multiple of a power of two and a number below that power have no carry
between them, so their sum is as wide as the wider one. -/
theorem add_lt_two_pow_of_dvd
    {multiple rest shared left right : Nat}
    (aligned : 2 ^ shared ∣ multiple)
    (below : rest < 2 ^ shared)
    (leftFits : multiple < 2 ^ left)
    (rightFits : rest < 2 ^ right) :
    multiple + rest < 2 ^ max left right := by
  obtain ⟨q, rfl⟩ := aligned
  rcases Nat.lt_or_ge left shared with narrow | wide
  · have zero : q = 0 := by
      rcases Nat.eq_zero_or_pos q with zero | positive
      · exact zero
      · have least : 2 ^ shared ≤ 2 ^ shared * q := Nat.le_mul_of_pos_right _ positive
        have monotone : 2 ^ left < 2 ^ shared := Nat.pow_lt_pow_right (by decide) narrow
        omega
    rw [zero, Nat.mul_zero, Nat.zero_add]
    exact Nat.lt_of_lt_of_le rightFits (Nat.pow_le_pow_right (by decide) (Nat.le_max_right _ _))
  · obtain ⟨more, rfl⟩ := Nat.exists_eq_add_of_le wide
    rw [Nat.pow_add] at leftFits
    have quotient : q + 1 ≤ 2 ^ more := Nat.lt_of_mul_lt_mul_left leftFits
    calc
      2 ^ shared * q + rest < 2 ^ shared * (q + 1) := by
        rw [Nat.mul_succ]
        omega
      _ ≤ 2 ^ shared * 2 ^ more := Nat.mul_le_mul_left _ quotient
      _ = 2 ^ (shared + more) := (Nat.pow_add ..).symm
      _ ≤ 2 ^ max (shared + more) right :=
        Nat.pow_le_pow_right (by decide) (Nat.le_max_left _ _)

/-! ## Chisel -/

namespace Chisel.Core

variable {cfg : Config} {h : GPUCore cfg}

/-- The result of an issued lane, on the registers before the edge. -/
def issuedResult (coreId : Nat) (h : GPUCore cfg) (t : Nat) : Word :=
  laneResult coreId h t (laneRegister h t (Decode.rs1 h.issueInst))
    (laneRegister h t (Decode.rs2 h.issueInst))

/-- The lane loop writes what the lane loop of the SystemVerilog core would. -/
theorem laneWrite_eq
    (inRange : h.InRange)
    (coreId : Nat)
    {t : Nat}
    (lane : t < cfg.numThreads)
    (gprs : Nat → Word) :
    laneWrite coreId h gprs t = h.writeLane (issuedResult coreId h) gprs t := by
  unfold laneWrite GPUCore.writeLane
  dsimp only
  rw [toNat_registerIndex inRange lane, toNat_regBase_context inRange lane]
  rfl

/-- A fold over the lanes looks at lanes of the topology only. -/
theorem foldl_laneWrite
    (inRange : h.InRange)
    (coreId : Nat) :
    (List.range cfg.numThreads).foldl (laneWrite coreId h) h.gprs =
      (List.range cfg.numThreads).foldl (h.writeLane (issuedResult coreId h)) h.gprs :=
  List.foldl_ext _ _ _ fun gprs _ inLoop =>
    laneWrite_eq inRange coreId (List.mem_range.mp inLoop) gprs

/-- A left shift that grows loses its growth in the register. -/
theorem shiftLeft_eq
    (a : Word)
    (shamt : BitVec 5) :
    shiftLeft a shamt = a <<< shamt.toNat :=
  setWidth_shiftLeft a shamt.toNat

/-- Register-immediate arithmetic is that of the cycle model. -/
theorem aluImm_eq
    (inst a : Word) :
    some (aluImm inst a) = OpenGPU.Core.opImm inst a := by
  rw [opImm_eq]
  unfold aluImm GPUCore.opImm
  rcases funct3_split inst with
    ⟨_, f3⟩ | ⟨_, f3⟩ | ⟨_, f3⟩ | ⟨_, f3⟩ | ⟨_, f3⟩ | ⟨_, f3⟩ | ⟨_, f3⟩ | ⟨_, f3⟩
  · simp [f3]
  · simp [f3, shiftLeft_eq, Decode.rs2]
  · simp [f3]
  · simp [f3]
  · simp [f3]
  · simp [f3, Decode.rs2]
  · simp [f3]
  · simp [f3]

/-- Register-register arithmetic is that of the cycle model. -/
theorem aluReg_eq
    (inst a b : Word) :
    some (aluReg inst a b) = OpenGPU.Core.op inst a b := by
  rw [op_eq]
  unfold aluReg GPUCore.op
  rcases funct3_split inst with
    ⟨_, f3⟩ | ⟨_, f3⟩ | ⟨_, f3⟩ | ⟨_, f3⟩ | ⟨_, f3⟩ | ⟨_, f3⟩ | ⟨_, f3⟩ | ⟨_, f3⟩
  · simp [f3]
  · simp [f3, shiftLeft_eq]
  · simp [f3]
  · simp [f3]
  · simp [f3]
  · simp [f3]
  · simp [f3]
  · simp [f3]

/-! ### CSR reads -/

/-- A literal fits the width that Chisel gives it. -/
theorem lt_two_pow_literalBits
    (value : Nat) :
    value < 2 ^ literalBits value :=
  Nat.lt_log2_self

/-- The physical lane number loses no carry in a topology of powers of two. -/
theorem physicalId_eq
    (inRange : h.InRange)
    {warps threads : Nat}
    (numWarps : cfg.numWarps = 2 ^ warps)
    (numThreads : cfg.numThreads = 2 ^ threads)
    (coreId : Nat)
    {t : Nat}
    (lane : t < cfg.numThreads) :
    physicalId coreId h t =
      BitVec.ofNat 32 (coreId * cfg.numWarps * cfg.numThreads + h.warp * cfg.numThreads + t) := by
  have warp : h.warp < cfg.numWarps := inRange.warp
  have first : 2 ^ (warps + threads) ∣ coreId * cfg.numWarps * cfg.numThreads := by
    rw [Nat.mul_assoc, numWarps, numThreads, ← Nat.pow_add]
    exact Nat.dvd_mul_left _ _
  have offset : h.warp * cfg.numThreads < 2 ^ (warps + threads) := by
    rw [Nat.pow_add, ← numWarps, ← numThreads]
    exact Nat.mul_lt_mul_of_pos_right warp cfg.numThreads_pos
  have product : h.warp * cfg.numThreads <
      2 ^ (indexBits cfg.numWarps + literalBits cfg.numThreads) := by
    rw [Nat.pow_add]
    exact Nat.mul_lt_mul'' h.issueWarp.isLt (lt_two_pow_literalBits _)
  have sum := add_lt_two_pow_of_dvd first offset (lt_two_pow_literalBits _) product
  have aligned : 2 ^ threads ∣ coreId * cfg.numWarps * cfg.numThreads + h.warp * cfg.numThreads := by
    rw [← Nat.add_mul, numThreads]
    exact Nat.dvd_mul_left _ _
  have small : t < 2 ^ threads := numThreads ▸ lane
  have total := add_lt_two_pow_of_dvd aligned small sum (lt_two_pow_literalBits t)
  apply BitVec.eq_of_toNat_eq
  unfold physicalId
  dsimp only
  rw [BitVec.toNat_setWidth, BitVec.toNat_ofNat, BitVec.toNat_ofNat, BitVec.toNat_ofNat,
    show h.issueWarp.toNat = h.warp from rfl, Nat.mod_eq_of_lt sum, Nat.mod_eq_of_lt total]

/-- A CSR read; an unlisted number reads zero. -/
theorem csrValue_eq
    (inRange : h.InRange)
    {warps threads : Nat}
    (numWarps : cfg.numWarps = 2 ^ warps)
    (numThreads : cfg.numThreads = 2 ^ threads)
    (coreId : Nat)
    {t : Nat}
    (lane : t < cfg.numThreads)
    (csr : BitVec 12) :
    csrValue coreId h t csr = (GPUCore.csrValue coreId h t csr).getD 0 := by
  unfold csrValue GPUCore.csrValue
  dsimp only
  rw [toNat_context inRange lane, physicalId_eq inRange numWarps numThreads coreId lane]
  simp only [apply_ite (fun value : Option Word => value.getD 0), Option.getD_some,
    Option.getD_none]
  rw [show h.issueWarp.setWidth 32 = BitVec.ofNat 32 h.warp from (BitVec.ofNat_toNat ..).symm]

/-- The listed CSR numbers are those with a value. -/
theorem csrSupported_eq
    (coreId t : Nat)
    (csr : BitVec 12) :
    csrSupported csr = (GPUCore.csrValue coreId h t csr).isSome := by
  unfold csrSupported GPUCore.csrValue
  simp only [apply_ite Option.isSome, Option.isSome_some, Option.isSome_none, Bool.if_true_left,
    Bool.if_false_right, beq_eq_decide, Bool.or_assoc, Bool.and_true]

end Chisel.Core

/-- A system word that is no CSR read: it faults on all sides. -/
def isReservedSystem (inst : Word) : Bool :=
  Decode.opcode inst == 0b1110011 && (Decode.funct3 inst != 0b010 || Decode.rs1 inst != 0)

theorem isReservedSystem_iff
    (inst : Word) :
    isReservedSystem inst = true ↔
      Decode.opcode inst = 0b1110011 ∧ (Decode.funct3 inst ≠ 0b010 ∨ Decode.rs1 inst ≠ 0) := by
  simp only [isReservedSystem, Bool.and_eq_true, Bool.or_eq_true, beq_iff_eq, bne_iff_ne]

namespace SameCore

variable {cfg : Config} {c : Core} {h : GPUCore cfg}

/-- A system word in the cycle model. -/
theorem systemResult
    (same : SameCore cfg c h)
    (inRange : h.InRange)
    (cid : Nat)
    {t : Nat}
    (lane : t < cfg.numThreads)
    (a b : Word)
    (system : Decode.opcode h.issueInst = 0b1110011) :
    OpenGPU.Core.laneResult cfg cid c t a b =
      if Decode.funct3 h.issueInst ≠ 0b010 ∨ Decode.rs1 h.issueInst ≠ 0 then none
      else GPUCore.csrValue cid h t (Decode.csrAddr h.issueInst) := by
  rw [same.laneResult inRange cid lane]
  have noShift : isArithmeticShift h.issueInst = false := by
    unfold isArithmeticShift
    rw [system]
    exact Bool.and_false _
  rw [noShift, if_neg Bool.false_ne_true]
  unfold GPUCore.laneResult
  dsimp only
  rw [system]
  rfl

/-- The result of a lane in Chisel. -/
theorem chiselLaneResult
    (same : SameCore cfg c h)
    (inRange : h.InRange)
    {warps threads : Nat}
    (numWarps : cfg.numWarps = 2 ^ warps)
    (numThreads : cfg.numThreads = 2 ^ threads)
    (cid : Nat)
    {t : Nat}
    (lane : t < cfg.numThreads)
    (a b : Word) :
    Chisel.Core.laneResult cid h t a b =
      if isReservedSystem h.issueInst then
        (GPUCore.csrValue cid h t (Decode.csrAddr h.issueInst)).getD 0
      else (OpenGPU.Core.laneResult cfg cid c t a b).getD 0 := by
  have number := opcode_eq_iff h.issueInst
  have imm : (OpenGPU.Core.opImm h.issueInst a).getD 0 = Chisel.Core.aluImm h.issueInst a := by
    rw [← Chisel.Core.aluImm_eq, Option.getD_some]
  have reg : (OpenGPU.Core.op h.issueInst a b).getD 0 = Chisel.Core.aluReg h.issueInst a b := by
    rw [← Chisel.Core.aluReg_eq, Option.getD_some]
  rcases eq_or_ne (Decode.opcode h.issueInst) 0b1110011 with system | other
  · have read : Chisel.Core.laneResult cid h t a b =
        (GPUCore.csrValue cid h t (Decode.csrAddr h.issueInst)).getD 0 := by
      rw [← Chisel.Core.csrValue_eq inRange numWarps numThreads cid lane]
      unfold Chisel.Core.laneResult
      dsimp only
      rw [system]
      rfl
    rw [read, same.systemResult inRange cid lane a b system]
    cases reserved : isReservedSystem h.issueInst with
    | true => exact (if_pos rfl).symm
    | false =>
        rw [if_neg Bool.false_ne_true, if_neg fun wrong => ?_]
        exact Bool.false_ne_true (reserved.symm.trans ((isReservedSystem_iff _).mpr ⟨system, wrong⟩))
  · rw [if_neg fun reserved => other ((isReservedSystem_iff _).mp reserved).1]
    unfold Chisel.Core.laneResult OpenGPU.Core.laneResult
    dsimp only
    rw [same.inst, same.ip]
    simp only [apply_ite (fun value : Option Word => value.getD 0), Option.getD_some,
      Option.getD_none]
    rw [imm, reg]
    exact Eq.symm <|
      if_congr (number 0b0110111) (immU_eq _) <|
      if_congr (number 0b0010111) (congrArg (h.issuePc + ·) (immU_eq _)) <|
      if_congr (number 0b0010011) rfl <|
      if_congr (number 0b0110011) rfl <|
      if_congr (number 0b1101111) rfl <|
      if_congr (number 0b1100111) rfl <|
      ite_congr (propext (number 0b1110011)) (fun system => absurd system other) fun _ => rfl

/-- The result of an issued lane in Chisel is that of the cycle model unless a
faulting word reads a CSR that is not zero. -/
theorem chiselIssuedResult_iff
    (same : SameCore cfg c h)
    (inRange : h.InRange)
    {warps threads : Nat}
    (numWarps : cfg.numWarps = 2 ^ warps)
    (numThreads : cfg.numThreads = 2 ^ threads)
    (cid : Nat)
    {t : Nat}
    (lane : t < cfg.numThreads) :
    (c.issuedResult cfg cid t).getD 0 = Chisel.Core.issuedResult cid h t ↔
      ¬(isReservedSystem h.issueInst = true ∧
        (GPUCore.csrValue cid h t (Decode.csrAddr h.issueInst)).getD 0 ≠ 0) := by
  rw [Chisel.Core.issuedResult, Chisel.Core.laneRegister_eq inRange lane,
    Chisel.Core.laneRegister_eq inRange lane,
    same.chiselLaneResult inRange numWarps numThreads cid lane, Core.issuedResult, rs1_eq, rs2_eq,
    same.inst, same.laneRegister inRange lane, same.laneRegister inRange lane]
  cases reserved : isReservedSystem h.issueInst with
  | false =>
      rw [if_neg Bool.false_ne_true]
      exact iff_of_true rfl fun both => Bool.false_ne_true both.1
  | true =>
      obtain ⟨system, wrong⟩ := (isReservedSystem_iff _).mp reserved
      rw [if_pos rfl, same.systemResult inRange cid lane _ _ system, if_pos wrong, Option.getD_none,
        not_and_not_right]
      exact ⟨fun same _ => same.symm, fun same => (same rfl).symm⟩

/-- The first issued lane. -/
theorem chiselFirstLane
    (same : SameCore cfg c h)
    (issued : h.issueMask ≠ 0) :
    Chisel.Core.firstLane h = c.firstLane cfg ∧ c.firstLane cfg < cfg.numThreads := by
  obtain ⟨lane, inWarp, present⟩ := same.exists_issued issued
  obtain ⟨leader, found⟩ : ∃ leader, (List.range cfg.numThreads).find? (hasLane c.im) = some leader :=
    Option.isSome_iff_exists.mp
      (List.find?_isSome.mpr ⟨lane, List.mem_range.mpr inWarp, present⟩)
  have leading : leader < cfg.numThreads := List.mem_range.mp (List.mem_of_find?_eq_some found)
  unfold Chisel.Core.firstLane priorityEncoder Core.firstLane
  rw [show (fun t => h.issueMask.getLsbD t) = hasLane c.im from same.issuedLanes.symm, found]
  exact ⟨rfl, leading⟩

/-- The words that Chisel supports are those of the cycle model. -/
theorem opcodeSupported
    (same : SameCore cfg c h)
    (inRange : h.InRange)
    (cid : Nat)
    {t : Nat}
    (lane : t < cfg.numThreads) :
    Chisel.Core.opcodeSupported h.issueInst = Core.supported c.inst := by
  have listed : Core.csrListed (c.inst >>> 20) =
      Chisel.Core.csrSupported (Decode.csrAddr h.issueInst) := by
    have known : (Core.csrValue cfg cid c t (c.inst >>> 20)).isSome =
        Core.csrListed (c.inst >>> 20) := Core.csrValue_isSome t _
    rw [← known, same.csrValue inRange cid lane, ← Chisel.Core.csrSupported_eq]
  have number : ∀ value : BitVec 7,
      (opcode h.issueInst == value.setWidth 32) = (Decode.opcode h.issueInst == value) :=
    beq_opcode h.issueInst
  have minor : (funct3 h.issueInst == 2) = (Decode.funct3 h.issueInst == 2) := by
    rw [Bool.eq_iff_iff, beq_iff_eq, beq_iff_eq]
    exact funct3_eq_iff _ 2
  have source : (rs1 h.issueInst == 0) = (Decode.rs1 h.issueInst == 0) := by
    rw [Bool.eq_iff_iff, beq_iff_eq, beq_iff_eq]
    exact rs1_eq_iff _ 0
  unfold Chisel.Core.opcodeSupported Core.supported
  rw [listed, same.inst, minor, source, ← number 0x37, ← number 0x17, ← number 0x13,
    ← number 0x33, ← number 0x6f, ← number 0x67, ← number 0x73, ← Bool.and_assoc, ← Bool.and_assoc]
  rfl

/-- `JALR` diverges in Chisel as in the cycle model. -/
theorem jalrDivergent
    (same : SameCore cfg c h)
    (inRange : h.InRange)
    (issued : h.issueMask ≠ 0) :
    Chisel.Core.jalrDivergent h = c.diverges cfg ∧
      Chisel.Core.firstTarget h = c.laneTarget cfg (c.firstLane cfg) := by
  obtain ⟨first, leading⟩ := same.chiselFirstLane issued
  have target : ∀ {t}, t < cfg.numThreads → Chisel.Core.laneTarget h t = c.laneTarget cfg t := by
    intro t lane
    rw [same.laneTarget inRange lane, Chisel.Core.laneTarget,
      Chisel.Core.laneRegister_eq inRange lane]
    rfl
  have sameFirst : Chisel.Core.firstTarget h = c.laneTarget cfg (c.firstLane cfg) := by
    rw [Chisel.Core.firstTarget, first, target leading]
  refine ⟨?_, sameFirst⟩
  rw [Bool.eq_iff_iff, Chisel.Core.jalrDivergent, Core.diverges, List.any_eq_true,
    List.any_eq_true]
  refine exists_congr fun t => and_congr_right fun inLoop => ?_
  rw [sameFirst, target (List.mem_range.mp inLoop), same.im t]

/-- The lane loops leave the same core if and only if every result that is
written is the same. -/
theorem chiselExecLanes_iff
    (same : SameCore cfg c h)
    (inRange : h.InRange)
    (issued : h.issueMask ≠ 0)
    (active : c.ctaActive = true)
    (legal : badRegister c.inst = false)
    (cid : Nat) :
    SameCore cfg (c.execLanes cfg cid) (Chisel.Core.execLanes cid h) ↔
      (Core.writes c.inst = true → ∀ t, t < cfg.numThreads → hasLane c.im t = true →
        (c.issuedResult cfg cid t).getD 0 = Chisel.Core.issuedResult cid h t) := by
  obtain ⟨lane, inWarp, _⟩ := same.exists_issued issued
  obtain ⟨diverges, target⟩ := same.jalrDivergent inRange issued
  have number := opcode_eq_iff h.issueInst
  have jalr : (Decode.opcode h.issueInst == 0b1100111) = (opcode c.inst == 0x67) := by
    rw [same.inst]
    exact (beq_opcode h.issueInst 0b1100111).symm
  have fine : (Chisel.Core.opcodeSupported h.issueInst &&
      !(Decode.opcode h.issueInst == 0b1100111 && Chisel.Core.jalrDivergent h)) = c.fine cfg := by
    rw [same.opcodeSupported inRange cid inWarp, diverges, jalr]
    rfl
  have follow : Chisel.Core.nextPcOf h = c.follow cfg := by
    unfold Chisel.Core.nextPcOf Core.follow
    rw [target, same.inst, same.ip, immJ_eq]
    exact (if_congr (number 0b1101111) rfl (if_congr (number 0b1100111) rfl rfl)).symm
  have common : Chisel.Core.execLanes cid h =
      { h.lanesDone ((List.range cfg.numThreads).foldl
          (h.writeLane (Chisel.Core.issuedResult cid h)) h.gprs) (c.fine cfg) (c.follow cfg) with
        nextPc := h.nextPc } := by
    unfold Chisel.Core.execLanes GPUCore.lanesDone
    dsimp only
    rw [Chisel.Core.foldl_laneWrite inRange, follow, ← fine]
    cases Chisel.Core.opcodeSupported h.issueInst <;>
      cases Decode.opcode h.issueInst == 0b1100111 && Chisel.Core.jalrDivergent h <;> rfl
  rw [Core.execLanes_eq cid (same.exists_issued issued), common,
    same.lanesDone_iff inRange active legal (h.holdsWritten_foldl _)]
  exact and_iff_right rfl |>.trans (and_iff_right fun _ => rfl)

end SameCore

/-! ## SpinalHDL -/

namespace Spinal.Core

variable {cfg : Config} {h : GPUCore cfg}

/-- Register-immediate arithmetic, with its arms in another order. -/
theorem opImm_eq
    (inst a : Word) :
    opImm inst a = Chisel.Core.aluImm inst a := by
  unfold opImm Chisel.Core.aluImm
  rcases funct3_split inst with
    ⟨_, f3⟩ | ⟨_, f3⟩ | ⟨_, f3⟩ | ⟨_, f3⟩ | ⟨_, f3⟩ | ⟨_, f3⟩ | ⟨_, f3⟩ | ⟨_, f3⟩
  · simp [f3]
  · simp [f3, Chisel.Core.shiftLeft_eq]
  · simp [f3]
  · simp [f3]
  · simp [f3]
  · simp [f3]
  · simp [f3]
  · simp [f3]

/-- Register-register arithmetic. -/
theorem op_eq
    (inst a b : Word) :
    op inst a b = Chisel.Core.aluReg inst a b := by
  unfold op Chisel.Core.aluReg
  dsimp only
  rw [Chisel.Core.shiftLeft_eq]

/-- A CSR read. -/
theorem csrValue_eq
    (inRange : h.InRange)
    (coreId : Nat)
    {t : Nat}
    (lane : t < cfg.numThreads)
    (csr : BitVec 12) :
    csrValue coreId h t csr = GPUCore.csrValue coreId h t csr := by
  have physical : physicalId coreId h t =
      BitVec.ofNat 32 (coreId * cfg.numWarps * cfg.numThreads + h.warp * cfg.numThreads + t) := by
    rw [physicalId, ← BitVec.ofNat_toNat, ← BitVec.ofNat_mul, ← BitVec.ofNat_add,
      ← BitVec.ofNat_add]
    rfl
  have place : (ctx h t).toNat = h.context t := by
    rw [ctx_eq]
    exact Chisel.Core.toNat_context inRange lane
  unfold csrValue GPUCore.csrValue
  dsimp only
  rw [physical, place,
    show h.issueWarp.setWidth 32 = BitVec.ofNat 32 h.warp from (BitVec.ofNat_toNat ..).symm]

/-- The result of a lane and its legality, which Chisel decides once for all
lanes. -/
theorem issuedResult_eq
    (inRange : h.InRange)
    {warps threads : Nat}
    (numWarps : cfg.numWarps = 2 ^ warps)
    (numThreads : cfg.numThreads = 2 ^ threads)
    (coreId : Nat)
    {t : Nat}
    (lane : t < cfg.numThreads) :
    issuedResult coreId h t =
      (Chisel.Core.issuedResult coreId h t, Chisel.Core.opcodeSupported h.issueInst) := by
  unfold issuedResult Chisel.Core.issuedResult laneResult Chisel.Core.laneResult
    Chisel.Core.opcodeSupported
  dsimp only
  rw [laneRegister_eq, laneRegister_eq, opImm_eq, op_eq, csrValue_eq inRange coreId lane,
    Chisel.Core.csrValue_eq inRange numWarps numThreads coreId lane,
    Chisel.Core.csrSupported_eq coreId t]
  rcases eq_or_ne (Decode.opcode h.issueInst) 0b0110111 with upper | noUpper
  · simp [upper]
  rcases eq_or_ne (Decode.opcode h.issueInst) 0b0010111 with address | noAddress
  · simp [address]
  rcases eq_or_ne (Decode.opcode h.issueInst) 0b0010011 with immediate | noImmediate
  · simp [immediate]
  rcases eq_or_ne (Decode.opcode h.issueInst) 0b0110011 with register | noRegister
  · simp [register]
  rcases eq_or_ne (Decode.opcode h.issueInst) 0b1101111 with jal | noJal
  · simp [jal]
  rcases eq_or_ne (Decode.opcode h.issueInst) 0b1100111 with jalr | noJalr
  · simp [jalr]
  rcases eq_or_ne (Decode.opcode h.issueInst) 0b1110011 with system | other
  · cases GPUCore.csrValue coreId h t (Decode.csrAddr h.issueInst) with
    | none => simp [system]
    | some value => simp [system, bne]
  · rw [if_neg noUpper, if_neg noAddress, if_neg noImmediate, if_neg noRegister, if_neg noJal,
      if_neg noJalr, if_neg other, if_neg noUpper, if_neg noAddress, if_neg noImmediate,
      if_neg noRegister, if_neg noJal, if_neg noJalr, if_neg other,
      beq_eq_false_iff_ne.mpr noUpper, beq_eq_false_iff_ne.mpr noAddress,
      beq_eq_false_iff_ne.mpr noImmediate, beq_eq_false_iff_ne.mpr noRegister,
      beq_eq_false_iff_ne.mpr noJal, beq_eq_false_iff_ne.mpr noJalr,
      beq_eq_false_iff_ne.mpr other]
    rfl

/-- Both Scala cores write the same registers. -/
theorem laneWrite_eq
    (inRange : h.InRange)
    {warps threads : Nat}
    (numWarps : cfg.numWarps = 2 ^ warps)
    (numThreads : cfg.numThreads = 2 ^ threads)
    (coreId : Nat)
    {t : Nat}
    (lane : t < cfg.numThreads)
    (gprs : Nat → Word) :
    laneWrite coreId h gprs t = Chisel.Core.laneWrite coreId h gprs t := by
  unfold laneWrite Chisel.Core.laneWrite
  dsimp only
  rw [issuedResult_eq inRange numWarps numThreads coreId lane, base_eq, ctx_eq]
  rfl

/-- Both Scala cores compare the same targets. -/
theorem jalrDivergent_eq
    (issued : h.issueMask ≠ 0) :
    jalrDivergent h = Chisel.Core.jalrDivergent h ∧
      firstTarget h = Chisel.Core.firstTarget h := by
  have target : laneTarget h = Chisel.Core.laneTarget h := by
    funext t
    rw [laneTarget, Chisel.Core.laneTarget, laneRegister_eq]
  have first : firstLane h = Chisel.Core.firstLane h := by
    obtain ⟨lane, present⟩ := ne_zero_iff_hasLane.mp issued
    rw [hasLane_eq_getLsbD] at present
    obtain ⟨leader, found⟩ : ∃ leader,
        (List.range cfg.numThreads).find? (fun t => h.issueMask.getLsbD t) = some leader :=
      Option.isSome_iff_exists.mp (List.find?_isSome.mpr
        ⟨lane, List.mem_range.mpr (BitVec.lt_of_getLsbD present), present⟩)
    rw [firstLane, Chisel.Core.firstLane, priorityEncoder, found]
    rfl
  have sameFirst : firstTarget h = Chisel.Core.firstTarget h := by
    rw [firstTarget, Chisel.Core.firstTarget, target, first]
  refine ⟨?_, sameFirst⟩
  rw [jalrDivergent, Chisel.Core.jalrDivergent, target, sameFirst]

/-- The lanes of SpinalHDL clear `good` together. -/
theorem good_eq
    (inRange : h.InRange)
    (issued : h.issueMask ≠ 0)
    {warps threads : Nat}
    (numWarps : cfg.numWarps = 2 ^ warps)
    (numThreads : cfg.numThreads = 2 ^ threads)
    (coreId : Nat) :
    (!good coreId h) =
      (!Chisel.Core.opcodeSupported h.issueInst ||
        (Decode.opcode h.issueInst == 0b1100111 && Chisel.Core.jalrDivergent h)) := by
  obtain ⟨lane, present⟩ := ne_zero_iff_hasLane.mp issued
  rw [hasLane_eq_getLsbD] at present
  have inWarp : lane < cfg.numThreads := BitVec.lt_of_getLsbD present
  have supported : ((List.range cfg.numThreads).all fun t =>
      !h.issueMask.getLsbD t || (issuedResult coreId h t).2) =
        Chisel.Core.opcodeSupported h.issueInst := by
    cases listed : Chisel.Core.opcodeSupported h.issueInst with
    | true =>
        rw [List.all_eq_true]
        intro t inLoop
        rw [issuedResult_eq inRange numWarps numThreads coreId (List.mem_range.mp inLoop), listed,
          Bool.or_true]
    | false =>
        rw [List.all_eq_false]
        refine ⟨lane, List.mem_range.mpr inWarp, ?_⟩
        rw [issuedResult_eq inRange numWarps numThreads coreId inWarp, listed, present]
        exact Bool.false_ne_true
  rw [good, supported, (jalrDivergent_eq issued).1, Bool.not_and, Bool.not_not, Bool.or_comm]

theorem execLanes_eq
    (inRange : h.InRange)
    (issued : h.issueMask ≠ 0)
    {warps threads : Nat}
    (numWarps : cfg.numWarps = 2 ^ warps)
    (numThreads : cfg.numThreads = 2 ^ threads)
    (coreId : Nat) :
    execLanes coreId h = Chisel.Core.execLanes coreId h := by
  have written : (List.range cfg.numThreads).foldl (laneWrite coreId h) h.gprs =
      (List.range cfg.numThreads).foldl (Chisel.Core.laneWrite coreId h) h.gprs :=
    List.foldl_ext _ _ _ fun gprs _ inLoop =>
      laneWrite_eq inRange numWarps numThreads coreId (List.mem_range.mp inLoop) gprs
  have next : nextPcOf h = Chisel.Core.nextPcOf h := by
    rw [nextPcOf, Chisel.Core.nextPcOf, (jalrDivergent_eq issued).2]
  unfold execLanes Chisel.Core.execLanes
  dsimp only
  rw [written, next, good_eq inRange issued numWarps numThreads]
  rfl

/-- The `EXEC` states of both Scala cores are the same function. -/
theorem execute_eq
    (inRange : h.InRange)
    (issued : h.issueMask ≠ 0)
    {warps threads : Nat}
    (numWarps : cfg.numWarps = 2 ^ warps)
    (numThreads : cfg.numThreads = 2 ^ threads)
    (coreId : Nat) :
    execute coreId h = Chisel.Core.execute coreId h := by
  unfold execute Chisel.Core.execute
  rw [execEbreak_eq, execBranch_eq, execLanes_eq inRange issued numWarps numThreads]
  rfl

end Spinal.Core

/-! ## One edge -/

/-- A faulting system word leaves the CSR it names in a register of an issued
lane. -/
def Verilog.GPUCore.LeaksCsr {cfg : Config} (coreId : Nat) (h : GPUCore cfg) : Prop :=
  Decode.badRegister h.issueInst = false ∧ isReservedSystem h.issueInst = true ∧
    GPUCore.writes h.issueInst = true ∧
    ∃ t, h.issueMask.getLsbD t = true ∧
      (GPUCore.csrValue coreId h t (Decode.csrAddr h.issueInst)).getD 0 ≠ 0

namespace SameCore

variable {cfg : Config} {c : Core} {h : GPUCore cfg}

/-- The lane loops leave the same core unless a CSR leaks. -/
theorem chiselExecLanes_iff_leaks
    (same : SameCore cfg c h)
    (inRange : h.InRange)
    (issued : h.issueMask ≠ 0)
    (active : c.ctaActive = true)
    (legal : badRegister c.inst = false)
    {warps threads : Nat}
    (numWarps : cfg.numWarps = 2 ^ warps)
    (numThreads : cfg.numThreads = 2 ^ threads)
    (cid : Nat) :
    SameCore cfg (c.execLanes cfg cid) (Chisel.Core.execLanes cid h) ↔ ¬h.LeaksCsr cid := by
  have legal' : Decode.badRegister h.issueInst = false := by
    rw [← badRegister_eq, ← same.inst, legal]
  rw [same.chiselExecLanes_iff inRange issued active legal, writes_eq, same.inst]
  constructor
  · rintro results ⟨_, reserved, writing, t, present, value⟩
    have lane : t < cfg.numThreads := BitVec.lt_of_getLsbD present
    exact (same.chiselIssuedResult_iff inRange numWarps numThreads cid lane).mp
      (results writing t lane ((same.im t).trans present)) ⟨reserved, value⟩
  · intro never writing t lane present
    rw [same.chiselIssuedResult_iff inRange numWarps numThreads cid lane]
    rintro ⟨reserved, value⟩
    exact never ⟨legal', reserved, writing, t, (same.im t).symm.trans present, value⟩

/-- The `EXEC` state of a core that holds a block leaves the same core unless a
CSR leaks. -/
theorem chiselExecute_iff
    (same : SameCore cfg c h)
    (inRange : h.InRange)
    (issued : h.issueMask ≠ 0)
    (active : c.ctaActive = true)
    (noLoad : opcode c.inst ≠ 0x03)
    (noStore : opcode c.inst ≠ 0x23)
    {warps threads : Nat}
    (numWarps : cfg.numWarps = 2 ^ warps)
    (numThreads : cfg.numThreads = 2 ^ threads)
    (cid : Nat) :
    SameCore cfg (c.execute cfg cid) (Chisel.Core.execute cid h) ↔ ¬h.LeaksCsr cid := by
  have number := opcode_eq_iff h.issueInst
  have memory : ¬(Decode.opcode h.issueInst = Decode.load ∨
      Decode.opcode h.issueInst = Decode.store) := by
    rintro (load | store)
    · exact noLoad (same.inst ▸ (number Decode.load).mpr load)
    · exact noStore (same.inst ▸ (number Decode.store).mpr store)
  have branch : opcode c.inst = 0x63 ↔ Decode.opcode h.issueInst = Decode.branch := by
    rw [same.inst]
    exact number Decode.branch
  have legality : badRegister c.inst = Decode.badRegister h.issueInst := by
    rw [same.inst, badRegister_eq]
  unfold Core.execute Chisel.Core.execute
  cases legal : badRegister c.inst with
  | true =>
      rw [← legality, legal, if_pos rfl, if_pos rfl]
      refine iff_of_true { same.raise with state := rfl } ?_
      rintro ⟨legal', _⟩
      exact Bool.false_ne_true (legal'.symm.trans (legality.symm.trans legal))
  | false =>
      rw [← legality, legal, if_neg Bool.false_ne_true, if_neg Bool.false_ne_true,
        if_neg (not_or.mpr ⟨noLoad, noStore⟩), if_neg memory]
      rcases eq_or_ne c.inst ebreak with retire | goesOn
      · have retire' : h.issueInst = Decode.ebreak := same.inst ▸ retire
        rw [if_pos retire, if_pos retire', Chisel.Core.execEbreak_eq inRange]
        refine iff_of_true (same.execEbreak inRange) ?_
        rintro ⟨_, _, writing, _⟩
        rw [retire'] at writing
        exact absurd writing (by decide)
      rw [if_neg goesOn, if_neg (show h.issueInst ≠ Decode.ebreak from same.inst ▸ goesOn)]
      rcases eq_or_ne (opcode c.inst) 0x63 with jump | straight
      · rw [if_pos jump, if_pos (branch.mp jump), Chisel.Core.execBranch_eq inRange issued]
        refine iff_of_true (same.execBranch inRange issued) ?_
        rintro ⟨_, reserved, _⟩
        have system := ((isReservedSystem_iff _).mp reserved).1
        rw [branch.mp jump] at system
        exact absurd system (by decide)
      · rw [if_neg straight, if_neg fun jump => straight (branch.mpr jump)]
        exact same.chiselExecLanes_iff_leaks inRange issued active legal numWarps numThreads cid

end SameCore

/-- Every word that is no load or store leads back to `sSchedule`. -/
theorem Chisel.Core.execute_state
    {cfg : Config}
    {h : GPUCore cfg}
    (noMemory : ¬(Decode.opcode h.issueInst = Decode.load ∨
      Decode.opcode h.issueInst = Decode.store))
    (coreId : Nat) :
    (Chisel.Core.execute coreId h).state = .sched := by
  unfold Chisel.Core.execute
  split_ifs
  · rfl
  · rfl
  · rfl
  · rfl

/-- One edge of the Chisel core and of the SpinalHDL core in `EXEC` and one step
of the cycle model leave the same core exactly when the core holds a block and no
faulting word leaks a CSR. -/
theorem scala_exec_lockstep_iff
    {cfg : Config}
    {c : Core}
    {h : GPUCore cfg}
    {warps threads : Nat}
    (numWarps : cfg.numWarps = 2 ^ warps)
    (numThreads : cfg.numThreads = 2 ^ threads)
    (fits : cfg.numThreads ≤ 32)
    (same : SameCore cfg c h)
    (inRange : h.InRange)
    (exec : h.state = .exec)
    (issued : h.issueMask ≠ 0)
    (noLoad : opcode c.inst ≠ 0x03)
    (noStore : opcode c.inst ≠ 0x23)
    {numCores : Nat}
    (cid : Nat)
    (mem : ShadowMemory)
    (launch : LaunchRegisters)
    (ctaValid : Bool)
    (chiselKmu : Chisel.Kmu numCores)
    (spinalKmu : Spinal.Kmu numCores)
    (buses : Chisel.Core.Buses)
    (memReadData imemRdata dmemRdata : Word) :
    (c.stepDefined cfg launch false = true ∧
        SameCore cfg (c.stepCore cfg mem launch cid false)
          (Chisel.Core.posedge cid false ctaValid chiselKmu buses h) ∧
        SameCore cfg (c.stepCore cfg mem launch cid false)
          (Spinal.MemCore.posedge cid false ctaValid spinalKmu imemRdata dmemRdata
            ⟨h, memReadData⟩).core) ↔
      h.ctaActive = true ∧ ¬h.LeaksCsr cid := by
  have exec' : c.state = .exec := by
    rw [same.state, exec]
    rfl
  have number := opcode_eq_iff h.issueInst
  have memory : ¬(Decode.opcode h.issueInst = Decode.load ∨
      Decode.opcode h.issueInst = Decode.store) := by
    rintro (load | store)
    · exact noLoad (same.inst ▸ (number Decode.load).mpr load)
    · exact noStore (same.inst ▸ (number Decode.store).mpr store)
  have busy : Spinal.Core.ctaReady h = false := by
    rw [Spinal.Core.ctaReady, exec]
    exact Bool.and_false _
  have spinal : (Spinal.MemCore.posedge cid false ctaValid spinalKmu imemRdata dmemRdata
      ⟨h, memReadData⟩).core = Chisel.Core.execute cid h := by
    rw [← Spinal.Core.execute_eq inRange issued numWarps numThreads]
    unfold Spinal.MemCore.posedge
    rw [busy, Bool.and_false, if_neg Bool.false_ne_true, if_neg Bool.false_ne_true, exec]
  have defined : c.stepDefined cfg launch false = true :=
    (Core.stepDefined_exec_iff launch exec' noLoad noStore).mpr (Or.inl fits)
  rw [spinal, ← same.ctaActive]
  unfold Core.stepCore
  rw [if_neg Bool.false_ne_true]
  cases active : c.ctaActive with
  | false =>
      -- the cycle model stays in `EXEC`, the Scala text does not ask for a block
      rw [if_pos Bool.not_false]
      refine iff_of_false ?_ fun both => Bool.false_ne_true both.1
      rintro ⟨_, _, after⟩
      have moved := after.state
      rw [Chisel.Core.execute_state memory, exec'] at moved
      cases moved
  | true =>
      have occupied : h.ctaActive = true := same.ctaActive.symm.trans active
      have chisel : Chisel.Core.posedge cid false ctaValid chiselKmu buses h =
          Chisel.Core.execute cid h := by
        unfold Chisel.Core.posedge
        rw [occupied, Bool.not_true, Bool.and_false, if_neg Bool.false_ne_true,
          if_neg Bool.false_ne_true, exec]
      rw [if_neg (by decide), exec', chisel]
      have step := same.chiselExecute_iff inRange issued active noLoad noStore numWarps numThreads cid
      exact ⟨fun both => ⟨rfl, step.mp both.2.1⟩,
        fun both => ⟨defined, step.mpr both.2, step.mpr both.2⟩⟩

/-- A core of `Config.oneLane` whose lane executes one word, in a block of three
lanes per row. -/
def Verilog.GPUCore.executing (word : Word) : GPUCore Config.oneLane :=
  { (GPUCore.fresh : GPUCore Config.oneLane) with
    state := .exec
    ctaActive := true
    issueMask := BitVec.allOnes _
    issueInst := word
    dim := ⟨3, 1, 1⟩ }

theorem Verilog.GPUCore.inRange_executing
    (word : Word) :
    (GPUCore.executing word).InRange where
  warp := Nat.zero_lt_one
  thread := Nat.zero_lt_one
  sp _ _ := Nat.zero_le _

/-- `CSRRS x1, 0xcc6, x0` is a legal read. -/
theorem scala_exec_lockstep_read :
    SameCore Config.oneLane
      ((GPUCore.executing 0xcc6020f3).toCore.stepCore Config.oneLane ⟨fun _ => 0, 0⟩
        LaunchRegisters.oneBlock 0 false)
      (Chisel.Core.posedge 0 false false (GPUKmu.fresh : GPUKmu 1) ⟨true, none, true, none⟩
        (GPUCore.executing 0xcc6020f3)) ∧
    SameCore Config.oneLane
      ((GPUCore.executing 0xcc6020f3).toCore.stepCore Config.oneLane ⟨fun _ => 0, 0⟩
        LaunchRegisters.oneBlock 0 false)
      (Spinal.MemCore.posedge 0 false false (GPUKmu.fresh : GPUKmu 1) 0 0
        ⟨GPUCore.executing 0xcc6020f3, 0⟩).core := by
  refine ((scala_exec_lockstep_iff (show Config.oneLane.numWarps = 2 ^ 0 from rfl)
    (show Config.oneLane.numThreads = 2 ^ 0 from rfl) (by decide)
    (SameCore.toCore (by decide) _) (GPUCore.inRange_executing _) rfl
    (by decide) (by decide) (by decide) 0 _ _ false _ _ _ 0 0 0).mpr ⟨rfl, ?_⟩).2
  rintro ⟨_, reserved, _⟩
  exact absurd reserved (by decide)

/-- `CSRRW x1, 0xcc6, x0` faults on all sides. Chisel and SpinalHDL still write
the block's extent to `x1`. -/
theorem not_scala_exec_lockstep_write :
    SameCore Config.oneLane (GPUCore.executing 0xcc6010f3).toCore (GPUCore.executing 0xcc6010f3) ∧
      ¬SameCore Config.oneLane
        ((GPUCore.executing 0xcc6010f3).toCore.stepCore Config.oneLane ⟨fun _ => 0, 0⟩
          LaunchRegisters.oneBlock 0 false)
        (Chisel.Core.posedge 0 false false (GPUKmu.fresh : GPUKmu 1) ⟨true, none, true, none⟩
          (GPUCore.executing 0xcc6010f3)) ∧
      ¬SameCore Config.oneLane
        ((GPUCore.executing 0xcc6010f3).toCore.stepCore Config.oneLane ⟨fun _ => 0, 0⟩
          LaunchRegisters.oneBlock 0 false)
        (Spinal.MemCore.posedge 0 false false (GPUKmu.fresh : GPUKmu 1) 0 0
          ⟨GPUCore.executing 0xcc6010f3, 0⟩).core := by
  refine ⟨SameCore.toCore (by decide) _, fun after => ?_, fun after => ?_⟩
  · exact absurd (after.gpr 0 1 (by decide) (by decide)) (by decide)
  · exact absurd (after.gpr 0 1 (by decide) (by decide)) (by decide)

end OpenGPU
