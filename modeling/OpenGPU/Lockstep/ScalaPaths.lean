import OpenGPU.Chisel.Core
import OpenGPU.Lockstep.SameCore
import OpenGPU.Spinal.Core

/-!
# Indices, branches and path stacks of the Scala cores

The Chisel and SpinalHDL texts cut every index to the bits of the vector it
selects from. While the index registers are in range nothing is cut, and both
cores read the registers and move the paths that the SystemVerilog core does.
-/

namespace OpenGPU

open Verilog Verilog.Decode

/-! ## Chisel -/

namespace Chisel.Core

variable {cfg : Config} {h : GPUCore cfg}

/-- The context of a lane is not cut. -/
theorem toNat_context
    (inRange : h.InRange)
    {t : Nat}
    (lane : t < cfg.numThreads) :
    (context h t).toNat = h.context t := by
  have room := le_two_pow_indexBits cfg.contexts
  have inCore : h.issueWarp.toNat * cfg.numThreads + t < cfg.contexts := inRange.context_lt lane
  rw [context, BitVec.toNat_ofNat, contextBits, Nat.mod_eq_of_lt (by omega)]
  rfl

/-- The first register of a context is not cut. -/
theorem toNat_regBase
    {c : BitVec (contextBits cfg)}
    (inCore : c.toNat < cfg.contexts) :
    (regBase c).toNat = c.toNat * 16 := by
  have room := le_two_pow_indexBits (cfg.contexts * 16)
  rw [regBase, BitVec.toNat_ofNat, regBits, Nat.mod_eq_of_lt (by omega)]

/-- A register of a lane has the same place as in the SystemVerilog core. -/
theorem toNat_registerIndex
    (inRange : h.InRange)
    {t : Nat}
    (lane : t < cfg.numThreads)
    (field : BitVec 5) :
    (registerIndex (regBase (context h t)) field).toNat = h.context t * 16 + register field := by
  have room := le_two_pow_indexBits (cfg.contexts * 16)
  have inCore := inRange.context_lt lane
  have small := Instruction.register_lt field
  rw [registerIndex, BitVec.toNat_add,
    toNat_regBase (by rw [toNat_context inRange lane]; exact inCore),
    toNat_context inRange lane, BitVec.toNat_setWidth, regBits,
    show (BitVec.extractLsb' 0 4 field).toNat = register field from rfl,
    Nat.mod_eq_of_lt (show register field < 2 ^ indexBits (cfg.contexts * 16) by omega),
    Nat.mod_eq_of_lt (by omega)]

theorem toNat_regBase_context
    (inRange : h.InRange)
    {t : Nat}
    (lane : t < cfg.numThreads) :
    (regBase (context h t)).toNat = h.context t * 16 := by
  rw [toNat_regBase (by rw [toNat_context inRange lane]; exact inRange.context_lt lane),
    toNat_context inRange lane]

theorem laneRegister_eq
    (inRange : h.InRange)
    {t : Nat}
    (lane : t < cfg.numThreads)
    (field : BitVec 5) :
    laneRegister h t field = h.laneRegister t field := by
  rw [laneRegister, toNat_registerIndex inRange lane]
  rfl

/-- A left shift with room on the left, cut to a word. -/
theorem setWidth_shiftLeft
    (a : Word)
    (amount : Nat) :
    (a.setWidth 63 <<< amount).setWidth 32 = a <<< amount := by
  apply BitVec.eq_of_getLsbD_eq
  intro bit inWord
  simp only [BitVec.getLsbD_setWidth, BitVec.getLsbD_shiftLeft, inWord, decide_true,
    Bool.true_and]
  rw [decide_eq_true (show bit < 63 by omega), decide_eq_true (show bit - amount < 63 by omega),
    Bool.true_and, Bool.true_and]

/-- A stack entry of the issued warp is not cut. -/
theorem toNat_stackIndex
    (inRange : h.InRange)
    {sp : Nat}
    (small : sp < Verilog.stackDepth) :
    (stackIndex h sp).toNat = h.slot sp := by
  have room := le_two_pow_indexBits (cfg.numWarps * Verilog.stackDepth)
  have warp := inRange.warp
  have entries : (h.issueWarp.toNat + 1) * Verilog.stackDepth ≤ cfg.numWarps * Verilog.stackDepth :=
    Nat.mul_le_mul_right _ warp
  rw [Nat.succ_mul] at entries
  rw [stackIndex, BitVec.toNat_ofNat, stackIndexBits, Nat.mod_eq_of_lt (by omega)]
  rfl

/-- The address of a memory access. -/
theorem memAddr_eq
    (inRange : h.InRange) :
    memAddr h = h.memoryAddress := by
  rw [memAddr, laneRegister_eq inRange inRange.thread]
  rfl

/-! ### Branches -/

/-- The branch table has `false` where SystemVerilog clears `supported`. -/
theorem branchTaken_eq
    (funct3 : BitVec 3)
    (a b : Word) :
    branchTaken funct3 a b = (GPUCore.branchTake funct3 a b).getD false := by
  unfold branchTaken GPUCore.branchTake
  split_ifs <;> rfl

theorem laneTaken_eq
    (inRange : h.InRange)
    {t : Nat}
    (lane : t < cfg.numThreads) :
    laneTaken h t = (h.laneTake t).getD false := by
  rw [laneTaken, branchTaken_eq, laneRegister_eq inRange lane, laneRegister_eq inRange lane]
  rfl

/-- The bits of all lanes, masked, are those of the issued lanes. -/
theorem takenMask_eq
    (inRange : h.InRange) :
    takenMask h = h.takenMask := by
  apply eq_of_hasLane
  intro t
  rw [takenMask, takenBits, GPUCore.takenMask, hasLane_and, hasLane_collectLanes,
    hasLane_collectLanes, hasLane_eq_getLsbD]
  rcases Nat.lt_or_ge t cfg.numThreads with lane | beyond
  · rw [laneTaken_eq inRange lane, Bool.and_comm (h.issueMask.getLsbD t), ← Bool.and_assoc]
  · rw [decide_eq_false (Nat.not_lt.mpr beyond)]
    simp

theorem fallMask_eq
    (inRange : h.InRange) :
    fallMask h = h.fallMask := by
  apply eq_of_hasLane
  intro t
  rw [fallMask, takenBits, GPUCore.fallMask, hasLane_and, hasLane_collectLanes,
    hasLane_eq_getLsbD, hasLane_eq_getLsbD, BitVec.getLsbD_not,
    ← hasLane_eq_getLsbD (collectLanes ..),
    hasLane_collectLanes]
  rcases Nat.lt_or_ge t cfg.numThreads with lane | beyond
  · rw [laneTaken_eq inRange lane, decide_eq_true lane]
    simp only [Bool.true_and, Bool.and_true]
    exact Bool.and_comm _ _
  · rw [decide_eq_false (Nat.not_lt.mpr beyond)]
    simp

/-- Which minor opcodes are branches. -/
theorem branchSupported_eq
    (funct3 : BitVec 3)
    (a b : Word) :
    branchSupported funct3 = (GPUCore.branchTake funct3 a b).isSome := by
  unfold branchSupported GPUCore.branchTake
  simp only [apply_ite Option.isSome, Option.isSome_some, Option.isSome_none, Bool.if_true_left,
    Bool.if_false_right, beq_eq_decide, Bool.or_assoc, Bool.and_true]

/-- With an issued lane both texts see the same reserved minor opcodes. -/
theorem branchSupported_issued
    (issued : h.issueMask ≠ 0) :
    branchSupported (funct3 h.issueInst) = h.branchSupported := by
  obtain ⟨t, present⟩ := ne_zero_iff_hasLane.mp issued
  rw [hasLane_eq_getLsbD] at present
  have uniform : ∀ t, (h.laneTake t).isSome = branchSupported (funct3 h.issueInst) :=
    fun t => (branchSupported_eq _ _ _).symm
  unfold GPUCore.branchSupported
  simp only [uniform]
  cases branchSupported (funct3 h.issueInst) with
  | true => simp
  | false =>
      symm
      rw [List.all_eq_false]
      exact ⟨t, List.mem_range.mpr (BitVec.lt_of_getLsbD present), by simp [present]⟩

/-! ### Path stacks -/

theorem pushPath_eq
    (inRange : h.InRange)
    (room : (h.stackSp h.warp).toNat < Verilog.stackDepth)
    (pc : Word)
    (mask : BitVec cfg.numThreads) :
    pushPath h pc mask = h.pushPath pc mask := by
  have index : (stackIndex h (h.stackSp h.issueWarp.toNat).toNat).toNat =
      h.slot (h.stackSp h.warp).toNat := toNat_stackIndex inRange room
  unfold pushPath
  dsimp only
  rw [index]
  rfl

theorem popPath_eq
    (inRange : h.InRange)
    (deferred : h.stackSp h.warp ≠ 0) :
    popPath h = h.popPath := by
  have positive : (h.stackSp h.warp).toNat ≠ 0 := fun zero =>
    deferred (BitVec.eq_of_toNat_eq zero)
  have bounded := inRange.sp _ inRange.warp
  have top : (h.stackSp h.warp).toNat - 1 < Verilog.stackDepth :=
    Nat.lt_of_lt_of_le (Nat.sub_lt (Nat.pos_of_ne_zero positive) Nat.zero_lt_one) bounded
  have index : (stackIndex h ((h.stackSp h.issueWarp.toNat).toNat - 1)).toNat =
      h.slot (h.stackSp h.warp).toNat - 1 := by
    refine (toNat_stackIndex inRange top).trans ?_
    rw [GPUCore.slot, GPUCore.slot, Nat.add_sub_assoc (by omega)]
  unfold popPath
  dsimp only
  rw [index]
  rfl

theorem execEbreak_eq
    (inRange : h.InRange) :
    execEbreak h = h.execEbreak := by
  unfold execEbreak GPUCore.execEbreak
  rw [show h.issueWarp.toNat = h.warp from rfl]
  split_ifs with deferred
  · rw [popPath_eq inRange deferred]
    rfl
  · rfl

/-- The branches: eight entries are a full stack in both texts, as no stack
holds more. -/
theorem execBranch_eq
    (inRange : h.InRange)
    (issued : h.issueMask ≠ 0) :
    execBranch h = h.execBranch := by
  have bounded := inRange.sp _ inRange.warp
  unfold execBranch GPUCore.execBranch
  dsimp only
  rw [takenMask_eq inRange, fallMask_eq inRange, branchSupported_issued issued,
    show h.issueWarp.toNat = h.warp from rfl]
  have full : (h.stackSp h.warp).toNat = Verilog.stackDepth ↔ h.stackFull = true := by
    rw [GPUCore.stackFull, decide_eq_true_iff]
    exact ⟨fun exact => exact.ge, fun least => Nat.le_antisymm bounded least⟩
  rcases em (h.stackFull = true) with isFull | hasRoom
  · rw [if_pos isFull, if_pos (full.mpr isFull)]
    rfl
  · have room : (h.stackSp h.warp).toNat < Verilog.stackDepth :=
      Nat.lt_of_le_of_ne bounded fun eight => hasRoom (full.mp eight)
    rw [if_neg hasRoom, if_neg fun eight => hasRoom (full.mp eight), pushPath_eq inRange room]
    rfl

end Chisel.Core

/-! ## SpinalHDL

Resized sums and products wrap, so every index is the one that Chisel cuts. -/

namespace Spinal.Core

variable {cfg : Config} {h : GPUCore cfg}

theorem ctx_eq
    (h : GPUCore cfg)
    (t : Nat) :
    ctx h t = Chisel.Core.context h t := by
  apply BitVec.eq_of_toNat_eq
  rw [ctx, BitVec.toNat_add, BitVec.toNat_mul, BitVec.toNat_setWidth, BitVec.toNat_ofNat,
    BitVec.toNat_ofNat, ← Nat.mul_mod, ← Nat.add_mod]
  exact (BitVec.toNat_ofNat ..).symm

theorem base_eq
    (c : BitVec (contextBits cfg)) :
    base c = (Chisel.Core.regBase : BitVec (Chisel.Core.contextBits cfg) → _) c := by
  apply BitVec.eq_of_toNat_eq
  rw [base, BitVec.toNat_shiftLeft, BitVec.toNat_setWidth, Nat.shiftLeft_eq, Nat.mod_mul_mod]
  exact (BitVec.toNat_ofNat ..).symm

theorem laneRegister_eq
    (h : GPUCore cfg)
    (t : Nat)
    (field : BitVec 5) :
    laneRegister h t field = Chisel.Core.laneRegister h t field := by
  unfold laneRegister Chisel.Core.laneRegister
  rw [base_eq, ctx_eq]
  rfl

theorem stackIndex_eq
    (h : GPUCore cfg) :
    stackIndex h = Chisel.Core.stackIndex h (h.stackSp h.issueWarp.toNat).toNat := by
  apply BitVec.eq_of_toNat_eq
  rw [stackIndex, BitVec.toNat_add, BitVec.toNat_mul, BitVec.toNat_setWidth,
    BitVec.toNat_setWidth, BitVec.toNat_ofNat, ← Nat.mul_mod, ← Nat.add_mod]
  exact (BitVec.toNat_ofNat ..).symm

theorem memAddr_eq
    (h : GPUCore cfg) :
    memAddr h = Chisel.Core.memAddr h := by
  rw [memAddr, laneRegister_eq]
  rfl

theorem laneTaken_eq
    (h : GPUCore cfg)
    (t : Nat) :
    laneTaken h t = Chisel.Core.laneTaken h t := by
  unfold laneTaken Chisel.Core.laneTaken
  rw [laneRegister_eq, laneRegister_eq]
  rfl

theorem taken_eq
    (h : GPUCore cfg) :
    taken h = Chisel.Core.takenBits h := by
  unfold taken Chisel.Core.takenBits
  rw [funext (laneTaken_eq h)]

theorem pushPath_eq
    (h : GPUCore cfg)
    (pc : Word)
    (mask : BitVec cfg.numThreads) :
    pushPath h pc mask = Chisel.Core.pushPath h pc mask := by
  unfold pushPath Chisel.Core.pushPath
  rw [stackIndex_eq]
  rfl

theorem popPath_eq
    (h : GPUCore cfg)
    (deferred : h.stackSp h.issueWarp.toNat ≠ 0) :
    popPath h = Chisel.Core.popPath h := by
  have positive : (h.stackSp h.issueWarp.toNat).toNat ≠ 0 := fun zero =>
    deferred (BitVec.eq_of_toNat_eq zero)
  obtain ⟨below, sp⟩ := Nat.exists_eq_succ_of_ne_zero positive
  have index : stackIndex h - 1 =
      Chisel.Core.stackIndex h ((h.stackSp h.issueWarp.toNat).toNat - 1) := by
    rw [stackIndex_eq, sp, Nat.succ_sub_one, Chisel.Core.stackIndex, Chisel.Core.stackIndex,
      Nat.add_succ, ← Nat.add_one, BitVec.ofNat_add]
    exact BitVec.add_sub_cancel _ _
  unfold popPath Chisel.Core.popPath
  dsimp only
  rw [index]
  rfl

theorem execEbreak_eq
    (h : GPUCore cfg) :
    execEbreak h = Chisel.Core.execEbreak h := by
  unfold execEbreak Chisel.Core.execEbreak
  split_ifs with deferred
  · rw [popPath_eq h deferred]
    rfl
  · rfl

theorem execBranch_eq
    (h : GPUCore cfg) :
    execBranch h = Chisel.Core.execBranch h := by
  have taken : takenMask h = Chisel.Core.takenMask h := by
    rw [takenMask, Chisel.Core.takenMask, taken_eq]
  have fallen : fallMask h = Chisel.Core.fallMask h := by
    rw [fallMask, Chisel.Core.fallMask, taken_eq]
  unfold execBranch Chisel.Core.execBranch
  dsimp only
  rw [taken, fallen, pushPath_eq]
  rfl

end Spinal.Core

end OpenGPU
