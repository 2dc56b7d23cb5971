import OpenGPU.Foundation.LaneLoop
import OpenGPU.Lockstep.SameCore

/-!
# What a register instruction does to the issued lanes

The opcodes that are neither loads, stores, branches nor `EBREAK` all end in the
same way: every issued lane writes its result, register zero is cleared, and the
warp either faults or goes on at a common address. The cycle model and the
hardware differ at most in the results, the fault and the address, and these
three decide whether the cores stay the same.
-/

namespace OpenGPU

open Verilog Instruction

/-- The registers of a lane after its write-back. -/
def writtenRow (writes : Bool) (register : Nat) (result : Word) (row : Nat → Word) :
    Nat → Word :=
  Function.update (if writes then Function.update row register result else row) 0 0

@[simp] theorem writtenRow_zero
    (writes : Bool)
    (register : Nat)
    (result : Word)
    (row : Nat → Word) :
    writtenRow writes register result row 0 = 0 :=
  Function.update_self ..

theorem writtenRow_of_ne_zero
    (writes : Bool)
    (register : Nat)
    (result : Word)
    (row : Nat → Word)
    {r : Nat}
    (positive : r ≠ 0) :
    writtenRow writes register result row r =
      if writes = true ∧ r = register then result else row r := by
  rw [writtenRow, Function.update_of_ne positive]
  cases writes with
  | false => rw [if_neg Bool.false_ne_true, if_neg fun both => Bool.false_ne_true both.1]
  | true =>
      rw [if_pos rfl, Function.update_apply]
      exact if_congr (by simp) rfl rfl

/-- A written row looks at one register of the row before. -/
theorem writtenRow_congr
    (writes : Bool)
    (register : Nat)
    (result : Word)
    {row row' : Nat → Word}
    {r : Nat}
    (same : row r = row' r) :
    writtenRow writes register result row r = writtenRow writes register result row' r := by
  rcases eq_or_ne r 0 with rfl | positive
  · rw [writtenRow_zero, writtenRow_zero]
  · rw [writtenRow_of_ne_zero _ _ _ _ positive, writtenRow_of_ne_zero _ _ _ _ positive, same]

/-- The lane of the warp that starts at `first` to which a context belongs. -/
def laneOf (first count x : Nat) : Option Nat :=
  if first ≤ x ∧ x < first + count then some (x - first) else none

theorem laneOf_eq_some_iff
    {first count x t : Nat} :
    laneOf first count x = some t ↔ t < count ∧ x = first + t := by
  unfold laneOf
  split_ifs with inWarp
  · rw [Option.some_inj]
    omega
  · simp only [false_iff]
    omega

/-! ## The cycle model -/

namespace Core

variable (cfg : Config) (cid : Nat) (c : Core)

/-- The instruction writes a register. -/
def writes (inst : Word) : Bool := usesRd (opcode inst) && rd inst != 0

/-- The result of an issued lane, on the registers before the loop. -/
def issuedResult (t : Nat) : Option Word :=
  laneResult cfg cid c t (c.laneRegister cfg t (rs1 c.inst)) (c.laneRegister cfg t (rs2 c.inst))

/-- The target of `JALR` for the registers of one lane. -/
def laneTarget (t : Nat) : Word := (c.laneRegister cfg t (rs1 c.inst) + immI c.inst) &&& ~~~1

/-- The register rows after all issued lanes have written. -/
def lanesWritten (result : Nat → Word) (x : Nat) : Nat → Word :=
  match laneOf (c.iw * cfg.numThreads) cfg.numThreads x with
  | some t =>
      if hasLane c.im t then writtenRow (writes c.inst) (rd c.inst).toNat (result t) (c.gpr x)
      else c.gpr x
  | none => c.gpr x

/-- The core after the issued lanes have written their results. -/
def lanesDone (result : Nat → Word) (fine : Bool) (next : Word) : Core :=
  let written := { c with gpr := c.lanesWritten cfg result }
  nextWarp cfg <|
    if fine then { written with pc := Function.update c.pc c.iw next } else written.raise

/-- The register part of the loop body. -/
def rowStep (gpr : Nat → Nat → Word) (t : Nat) : Nat → Nat → Word :=
  if hasLane c.im t then
    Function.update gpr (c.context cfg t)
      (laneWrite c.inst
        ((laneResult cfg cid c t (gpr (c.context cfg t) (rs1 c.inst &&& 15).toNat)
          (gpr (c.context cfg t) (rs2 c.inst &&& 15).toNat)).getD 0)
        (gpr (c.context cfg t)))
  else gpr

variable {cfg cid c}

theorem laneBody_of_issued
    {t : Nat}
    (acc : LaneLoop)
    (issued : hasLane c.im t = true) :
    laneBody cfg cid c acc t =
      { laneJump c (acc.gpr (c.context cfg t) (rs1 c.inst &&& 15).toNat) acc with
        good := acc.good &&
          (laneResult cfg cid c t (acc.gpr (c.context cfg t) (rs1 c.inst &&& 15).toNat)
            (acc.gpr (c.context cfg t) (rs2 c.inst &&& 15).toNat)).isSome
        gpr := c.rowStep cfg cid acc.gpr t } := by
  unfold laneBody rowStep
  rw [if_pos issued, if_pos issued]

theorem laneBody_of_idle
    {t : Nat}
    (acc : LaneLoop)
    (idle : ¬hasLane c.im t = true) :
    laneBody cfg cid c acc t = acc :=
  if_neg idle

theorem laneBody_gpr
    (acc : LaneLoop)
    (t : Nat) :
    (laneBody cfg cid c acc t).gpr = c.rowStep cfg cid acc.gpr t := by
  unfold laneBody rowStep
  split_ifs <;> rfl

/-- Every lane of the loop works on its own row. -/
theorem rowStep_actsOnParts :
    ActsOnParts (laneOf (c.iw * cfg.numThreads) cfg.numThreads) cfg.numThreads
      (c.rowStep cfg cid) where
  frame gpr t x lane other := by
    unfold rowStep
    split_ifs with issued
    · exact Function.update_of_ne
        (fun here => other (laneOf_eq_some_iff.mpr ⟨lane, here⟩)) _ _
    · rfl
  reads gpr gpr' t x _ owned same := by
    have row : gpr (c.context cfg t) = gpr' (c.context cfg t) :=
      same _ (laneOf_eq_some_iff.mpr ⟨(laneOf_eq_some_iff.mp owned).1, rfl⟩)
    have here : x = c.context cfg t := (laneOf_eq_some_iff.mp owned).2
    unfold rowStep
    split_ifs with issued
    · rw [row, here, Function.update_self, Function.update_self]
    · exact same x owned

/-- The lane loop up to lane `count`. -/
def loopUpTo (cfg : Config) (cid : Nat) (c : Core) (count : Nat) : LaneLoop :=
  (List.range count).foldl (laneBody cfg cid c)
    { gpr := c.gpr
      good := true
      div := false
      targetSet := false
      first := 0
      next := c.ip + 4 }

theorem loopUpTo_succ
    (count : Nat) :
    loopUpTo cfg cid c (count + 1) = laneBody cfg cid c (loopUpTo cfg cid c count) count := by
  rw [loopUpTo, List.range_succ, List.foldl_append]
  rfl

theorem loopUpTo_gpr
    (count : Nat) :
    (loopUpTo cfg cid c count).gpr = (List.range count).foldl (c.rowStep cfg cid) c.gpr :=
  (List.foldl_hom LaneLoop.gpr fun acc t => (laneBody_gpr acc t).symm).symm

/-- A lane that the loop has not reached has its registers from before. -/
theorem loopUpTo_gpr_of_le
    {count t : Nat}
    (ahead : count ≤ t)
    (lane : t < cfg.numThreads) :
    (loopUpTo cfg cid c count).gpr (c.context cfg t) = c.gpr (c.context cfg t) := by
  rw [loopUpTo_gpr]
  apply rowStep_actsOnParts.foldl_of_unowned c.gpr (Nat.le_of_lt (Nat.lt_of_le_of_lt ahead lane))
  intro earlier before owned
  have here := (laneOf_eq_some_iff.mp owned).2
  unfold context at here
  omega

/-- The rows after the lane loop. -/
theorem laneLoop_gpr :
    (laneLoop cfg cid c).gpr =
      c.lanesWritten cfg fun t => (c.issuedResult cfg cid t).getD 0 := by
  rw [show laneLoop cfg cid c = loopUpTo cfg cid c cfg.numThreads from rfl, loopUpTo_gpr]
  funext x
  unfold lanesWritten
  cases owner : laneOf (c.iw * cfg.numThreads) cfg.numThreads x with
  | none =>
      apply rowStep_actsOnParts.foldl_of_unowned c.gpr (le_refl _)
      intro t _
      rw [owner]
      exact (Option.some_ne_none t).symm
  | some t =>
      obtain ⟨lane, here⟩ := laneOf_eq_some_iff.mp owner
      rw [rowStep_actsOnParts.foldl_of_owner c.gpr (le_refl _) owner lane]
      show c.rowStep cfg cid c.gpr t x = ite _ _ _
      unfold rowStep
      split_ifs with issued
      · rw [here]
        exact Function.update_self ..
      · rfl

/-! ### Which words have a result -/

/-- The CSR numbers with a value. -/
def csrListed (number : Word) : Bool :=
  number == 0xf14 || number == 0xcc0 || number == 0xcc1 || number == 0xcc2 ||
    number == 0xcc3 || number == 0xcc4 || number == 0xcc5 || number == 0xcc6 ||
    number == 0xcc7 || number == 0xcc8 || number == 0xcc9 || number == 0xcca ||
    number == 0xccb || number == 0xccc || number == 0xccd || number == 0xcce ||
    number == 0xccf

/-- The words of the lane loop that do not clear `good`. -/
def supported (inst : Word) : Bool :=
  opcode inst == 0x37 || opcode inst == 0x17 || opcode inst == 0x13 || opcode inst == 0x33 ||
    opcode inst == 0x6f || opcode inst == 0x67 ||
    (opcode inst == 0x73 && (funct3 inst == 2 && rs1 inst == 0 && csrListed (inst >>> 20)))

theorem csrValue_isSome
    (t : Nat)
    (number : Word) :
    (csrValue cfg cid c t number).isSome = csrListed number := by
  unfold csrValue csrListed
  simp only [apply_ite Option.isSome, Option.isSome_some, Option.isSome_none, Bool.if_true_left,
    Bool.if_false_right, beq_eq_decide, Bool.or_assoc, Bool.and_true]

/-- Every minor opcode of register arithmetic has a result. -/
theorem funct3_cases
    (inst : Word) :
    funct3 inst = 0 ∨ funct3 inst = 1 ∨ funct3 inst = 2 ∨ funct3 inst = 3 ∨
      funct3 inst = 4 ∨ funct3 inst = 5 ∨ funct3 inst = 6 ∨ funct3 inst = 7 := by
  have all : ∀ f3 : BitVec 3, f3.setWidth 32 = (0 : Word) ∨ f3.setWidth 32 = (1 : Word) ∨
      f3.setWidth 32 = (2 : Word) ∨ f3.setWidth 32 = (3 : Word) ∨ f3.setWidth 32 = (4 : Word) ∨
      f3.setWidth 32 = (5 : Word) ∨ f3.setWidth 32 = (6 : Word) ∨ f3.setWidth 32 = (7 : Word) := by
    decide
  rw [funct3_eq]
  exact all _

theorem opImm_isSome
    (inst a : Word) :
    (opImm inst a).isSome = true := by
  unfold opImm
  rcases funct3_cases inst with f3 | f3 | f3 | f3 | f3 | f3 | f3 | f3 <;> rw [f3] <;> rfl

theorem op_isSome
    (inst a b : Word) :
    (op inst a b).isSome = true := by
  unfold op
  rcases funct3_cases inst with f3 | f3 | f3 | f3 | f3 | f3 | f3 | f3 <;> rw [f3] <;> rfl

/-- Whether a lane has a result depends on the word alone. -/
theorem laneResult_isSome
    (t : Nat)
    (a b : Word) :
    (laneResult cfg cid c t a b).isSome = supported c.inst := by
  unfold laneResult supported
  simp only [apply_ite Option.isSome, Option.isSome_some, Option.isSome_none, opImm_isSome,
    op_isSome, csrValue_isSome, Bool.if_true_left, Bool.if_false_right, Bool.if_false_left,
    beq_eq_decide, Bool.or_assoc, ne_eq, Bool.decide_or, decide_not, Bool.not_or,
    Bool.not_not, Bool.and_assoc]

/-! ### Fault and address -/

theorem loopUpTo_good
    (count : Nat) :
    (loopUpTo cfg cid c count).good =
      (List.range count).all fun t => !hasLane c.im t || supported c.inst := by
  induction count with
  | zero => rfl
  | succ count inductionHypothesis =>
      rw [loopUpTo_succ, List.range_succ, List.all_append, ← inductionHypothesis, List.all_cons,
        List.all_nil, Bool.and_true]
      cases issued : hasLane c.im count with
      | true => rw [laneBody_of_issued _ issued, laneResult_isSome, Bool.not_true, Bool.false_or]
      | false =>
          rw [laneBody_of_idle _ (Bool.eq_false_iff.mp issued), Bool.not_false, Bool.true_or,
            Bool.and_true]

/-- The jump variables of `JALR` as a comparison with the first lane. -/
def LaneLoop.agreement (acc : LaneLoop) : Agreement Word :=
  ⟨acc.targetSet, acc.first, acc.next, acc.div⟩

/-- One lane of `JALR` compares its target. -/
theorem laneJump_agreement
    (jalr : opcode c.inst = 0x67)
    (a : Word)
    (acc : LaneLoop) :
    (laneJump c a acc).agreement =
      if !acc.targetSet then
        { acc.agreement with
          seen := true, first := (a + immI c.inst) &&& ~~~1, last := (a + immI c.inst) &&& ~~~1 }
      else if acc.first ≠ (a + immI c.inst) &&& ~~~1 then
        { acc.agreement with last := (a + immI c.inst) &&& ~~~1, differs := true }
      else { acc.agreement with last := (a + immI c.inst) &&& ~~~1 } := by
  unfold laneJump
  rw [if_neg (by rw [jalr]; decide), if_pos jalr]
  simp only []
  split_ifs <;> rfl

theorem loopUpTo_agreement
    (cid : Nat)
    (jalr : opcode c.inst = 0x67)
    {count : Nat}
    (inLoop : count ≤ cfg.numThreads) :
    (loopUpTo cfg cid c count).agreement =
      Agreement.scan (hasLane c.im) (c.laneTarget cfg) count ⟨false, 0, c.ip + 4, false⟩ := by
  induction count with
  | zero => rfl
  | succ count inductionHypothesis =>
      rw [Agreement.scan_succ, ← inductionHypothesis (Nat.le_of_succ_le inLoop), loopUpTo_succ]
      cases issued : hasLane c.im count with
      | false =>
          rw [laneBody_of_idle _ (Bool.eq_false_iff.mp issued), Agreement.step_of_inactive issued]
      | true =>
          rw [laneBody_of_issued _ issued]
          show (laneJump c _ _).agreement = _
          rw [loopUpTo_gpr_of_le (le_refl count) inLoop, laneJump_agreement jalr]
          exact (if_pos issued).symm

/-- Without `JALR` no target is compared, and an issued lane sets the address. -/
theorem loopUpTo_straight
    (cid : Nat)
    (noJalr : opcode c.inst ≠ 0x67)
    (count : Nat) :
    (loopUpTo cfg cid c count).div = false ∧
      (loopUpTo cfg cid c count).next =
        if (∃ t, t < count ∧ hasLane c.im t = true) ∧ opcode c.inst = 0x6f then
          c.ip + immJ c.inst
        else c.ip + 4 := by
  induction count with
  | zero => exact ⟨rfl, (if_neg fun both => by obtain ⟨⟨t, none, _⟩, _⟩ := both; omega).symm⟩
  | succ count inductionHypothesis =>
      obtain ⟨agree, next⟩ := inductionHypothesis
      rw [loopUpTo_succ]
      cases issued : hasLane c.im count with
      | false =>
          rw [laneBody_of_idle _ (Bool.eq_false_iff.mp issued)]
          refine ⟨agree, next.trans (if_congr (and_congr_left fun _ => ?_) rfl rfl)⟩
          constructor
          · rintro ⟨t, before, lane⟩
            exact ⟨t, Nat.lt_succ_of_lt before, lane⟩
          · rintro ⟨t, inLoop, lane⟩
            refine ⟨t, Nat.lt_of_le_of_ne (Nat.le_of_lt_succ inLoop) ?_, lane⟩
            rintro rfl
            exact absurd lane (by rw [issued]; exact Bool.false_ne_true)
      | true =>
          have some : ∃ t, t < count + 1 ∧ hasLane c.im t = true :=
            ⟨count, Nat.lt_succ_self count, issued⟩
          rw [laneBody_of_issued _ issued]
          show (laneJump c _ _).div = false ∧ (laneJump c _ _).next = _
          unfold laneJump
          rcases eq_or_ne (opcode c.inst) 0x6f with jal | noJal
          · rw [if_pos jal, if_pos ⟨some, jal⟩]
            exact ⟨agree, rfl⟩
          · rw [if_neg noJal, if_neg noJalr, if_neg fun both => noJal both.2]
            refine ⟨agree, next.trans (if_neg fun both => noJal both.2)⟩

/-- The first issued lane. -/
def firstLane (cfg : Config) (c : Core) : Nat :=
  ((List.range cfg.numThreads).find? (hasLane c.im)).getD 0

/-- Some issued lane jumps elsewhere than the first one. -/
def diverges (cfg : Config) (c : Core) : Bool :=
  (List.range cfg.numThreads).any fun t =>
    hasLane c.im t && c.laneTarget cfg t != c.laneTarget cfg (c.firstLane cfg)

/-- The warp goes on without a fault. -/
def fine (cfg : Config) (c : Core) : Bool :=
  supported c.inst && !(opcode c.inst == 0x67 && c.diverges cfg)

/-- Where the warp goes on. -/
def follow (cfg : Config) (c : Core) : Word :=
  if opcode c.inst = 0x6f then c.ip + immJ c.inst
  else if opcode c.inst = 0x67 then c.laneTarget cfg (c.firstLane cfg)
  else c.ip + 4

/-- Fault and address of the lane loop. -/
theorem laneLoop_outcome
    (cid : Nat)
    (issued : ∃ t, t < cfg.numThreads ∧ hasLane c.im t = true) :
    ((laneLoop cfg cid c).good && !(laneLoop cfg cid c).div) = c.fine cfg ∧
      (c.fine cfg = true → (laneLoop cfg cid c).next = c.follow cfg) := by
  rw [show laneLoop cfg cid c = loopUpTo cfg cid c cfg.numThreads from rfl]
  have good : (loopUpTo cfg cid c cfg.numThreads).good = supported c.inst := by
    obtain ⟨t, lane, present⟩ := issued
    rw [loopUpTo_good]
    cases supported c.inst with
    | true => simp
    | false =>
        rw [List.all_eq_false]
        exact ⟨t, List.mem_range.mpr lane, by simp [present]⟩
  rw [good, fine]
  rcases eq_or_ne (opcode c.inst) 0x67 with jalr | noJalr
  · rcases Agreement.scan_spec (hasLane c.im) (c.laneTarget cfg) cfg.numThreads
        ⟨false, 0, c.ip + 4, false⟩ rfl rfl with ⟨quiet, _⟩ | ⟨lane, found, compared⟩
    · obtain ⟨t, inRange, present⟩ := issued
      exact absurd present (by rw [quiet t inRange]; exact Bool.false_ne_true)
    · have first : c.firstLane cfg = lane := by rw [firstLane, found, Option.getD_some]
      rw [← loopUpTo_agreement cid jalr (le_refl cfg.numThreads)] at compared
      have differs : (loopUpTo cfg cid c cfg.numThreads).div = c.diverges cfg := by
        rw [Bool.eq_iff_iff, diverges, first, List.any_eq_true]
        refine compared.differs.trans (exists_congr fun t => ?_)
        rw [List.mem_range, Bool.and_eq_true, bne_iff_ne]
      rw [differs, beq_iff_eq.mpr jalr, Bool.true_and]
      refine ⟨rfl, fun fine => ?_⟩
      have agree : (loopUpTo cfg cid c cfg.numThreads).div = false := by
        rw [differs]
        exact Bool.not_eq_true' _ |>.mp (Bool.and_eq_true_iff.mp fine).2
      rw [follow, if_neg (by rw [jalr]; decide), if_pos jalr, first]
      exact compared.last agree
  · obtain ⟨agree, next⟩ := loopUpTo_straight cid noJalr cfg.numThreads
    rw [agree, beq_eq_false_iff_ne.mpr noJalr, Bool.false_and]
    refine ⟨rfl, fun _ => next.trans ?_⟩
    rw [follow, if_neg noJalr]
    exact if_congr (and_iff_right issued) rfl rfl

/-- The lane loop in its common form. -/
theorem execLanes_eq
    (cid : Nat)
    (issued : ∃ t, t < cfg.numThreads ∧ hasLane c.im t = true) :
    c.execLanes cfg cid =
      c.lanesDone cfg (fun t => (c.issuedResult cfg cid t).getD 0) (c.fine cfg)
        (c.follow cfg) := by
  obtain ⟨outcome, next⟩ := laneLoop_outcome cid issued
  have faults : (!(laneLoop cfg cid c).good || (laneLoop cfg cid c).div) = !c.fine cfg := by
    rw [← outcome, Bool.not_and, Bool.not_not]
  have unfolded : c.execLanes cfg cid =
      nextWarp cfg
        (if !(laneLoop cfg cid c).good || (laneLoop cfg cid c).div then
          raise { c with gpr := (laneLoop cfg cid c).gpr }
        else
          { c with
            gpr := (laneLoop cfg cid c).gpr
            pc := Function.update c.pc c.iw (laneLoop cfg cid c).next }) := rfl
  rw [unfolded, faults, laneLoop_gpr]
  cases fine : c.fine cfg with
  | false => rfl
  | true =>
      rw [next fine]
      rfl

end Core

/-! ## Hardware -/

namespace Verilog.GPUCore

variable {cfg : Config}

/-- The instruction writes a register. -/
def writes (inst : Word) : Bool := Decode.usesRd (Decode.opcode inst) && Decode.rd inst != 0

/-- The sixteen registers of a context. -/
def row (gprs : Nat → Word) (x : Nat) : Nat → Word := fun r => gprs (x * 16 + r)

/-- The target of `JALR` for the registers of one lane. -/
def laneTarget (h : GPUCore cfg) (t : Nat) : Word :=
  (h.laneRegister t (Decode.rs1 h.issueInst) + Decode.immI h.issueInst) &&& 0xfffffffe

/-- The registers of a context after all issued lanes have written. -/
def lanesWritten (h : GPUCore cfg) (result : Nat → Word) (x : Nat) : Nat → Word :=
  match laneOf (h.warp * cfg.numThreads) cfg.numThreads x with
  | some t =>
      if h.issueMask.getLsbD t then
        writtenRow (writes h.issueInst) (Decode.register (Decode.rd h.issueInst)) (result t)
          (row h.gprs x)
      else row h.gprs x
  | none => row h.gprs x

/-- A register file that holds what the issued lanes have written. -/
def HoldsWritten (h : GPUCore cfg) (result : Nat → Word) (gprs : Nat → Word) : Prop :=
  ∀ x r, x < cfg.contexts → r < 16 → gprs (x * 16 + r) = h.lanesWritten result x r

/-- The writes of one lane in a loop over all lanes. -/
def writeLane (h : GPUCore cfg) (result : Nat → Word) (gprs : Nat → Word) (t : Nat) :
    Nat → Word :=
  if h.issueMask.getLsbD t then
    Function.update
      (if writes h.issueInst then
        Function.update gprs (h.context t * 16 + Decode.register (Decode.rd h.issueInst))
          (result t)
      else gprs) (h.context t * 16) 0
  else gprs

/-- What one lane leaves in the registers of its own context. -/
theorem writeLane_self
    (h : GPUCore cfg)
    (result gprs : Nat → Word)
    (t : Nat)
    {r : Nat}
    (register : r < 16) :
    h.writeLane result gprs t (h.context t * 16 + r) =
      (if h.issueMask.getLsbD t then
        writtenRow (writes h.issueInst) (Decode.register (Decode.rd h.issueInst)) (result t)
          (row gprs (h.context t))
      else row gprs (h.context t)) r := by
  unfold writeLane
  cases h.issueMask.getLsbD t with
  | false => rfl
  | true =>
      rw [if_pos rfl, if_pos rfl]
      rcases Nat.eq_zero_or_pos r with rfl | positive
      · rw [writtenRow_zero]
        exact Function.update_self ..
      · rw [writtenRow_of_ne_zero _ _ _ _ positive.ne', Function.update_of_ne (by omega)]
        cases writes h.issueInst with
        | false => rw [if_neg Bool.false_ne_true, if_neg fun both => Bool.false_ne_true both.1]; rfl
        | true =>
            rw [if_pos rfl, Function.update_apply]
            exact if_congr (by simp) rfl rfl

/-- A lane leaves the registers of the other contexts alone. -/
theorem writeLane_of_ne
    (h : GPUCore cfg)
    (result gprs : Nat → Word)
    (t : Nat)
    {i : Nat}
    (other : i / 16 ≠ h.context t) :
    h.writeLane result gprs t i = gprs i := by
  have destination := register_lt (Decode.rd h.issueInst)
  unfold writeLane
  split_ifs with issued writing
  · rw [Function.update_of_ne (by omega), Function.update_of_ne (by omega)]
  · rw [Function.update_of_ne (by omega)]
  · rfl

/-- Every lane of the loop works on its own context. -/
theorem writeLane_actsOnParts
    (h : GPUCore cfg)
    (result : Nat → Word) :
    ActsOnParts (fun i => laneOf (h.warp * cfg.numThreads) cfg.numThreads (i / 16))
      cfg.numThreads (h.writeLane result) where
  frame gprs t i lane other :=
    h.writeLane_of_ne result gprs t fun here => other (laneOf_eq_some_iff.mpr ⟨lane, here⟩)
  reads gprs gprs' t i _ owned same := by
    obtain ⟨lane, here⟩ := laneOf_eq_some_iff.mp owned
    have place : i = h.context t * 16 + i % 16 := by
      have split := Nat.div_add_mod i 16
      rw [here] at split
      show i = (h.issueWarp.toNat * cfg.numThreads + t) * 16 + i % 16
      unfold GPUCore.warp at split
      omega
    have before : row gprs (h.context t) (i % 16) = row gprs' (h.context t) (i % 16) := by
      have sameHere := same i owned
      rw [place] at sameHere
      exact sameHere
    rw [place, writeLane_self _ _ _ _ (Nat.mod_lt i (by decide)),
      writeLane_self _ _ _ _ (Nat.mod_lt i (by decide))]
    cases h.issueMask.getLsbD t with
    | false => exact before
    | true => exact writtenRow_congr _ _ _ before

/-- The loop leaves what the issued lanes have written. -/
theorem holdsWritten_foldl
    (h : GPUCore cfg)
    (result : Nat → Word) :
    h.HoldsWritten result ((List.range cfg.numThreads).foldl (h.writeLane result) h.gprs) := by
  intro x r _ register
  have context : (x * 16 + r) / 16 = x := by omega
  unfold lanesWritten
  cases owner : laneOf (h.warp * cfg.numThreads) cfg.numThreads x with
  | none =>
      apply (h.writeLane_actsOnParts result).foldl_of_unowned h.gprs (le_refl _)
      intro t _
      rw [context, owner]
      exact (Option.some_ne_none t).symm
  | some t =>
      obtain ⟨lane, rfl⟩ := laneOf_eq_some_iff.mp owner
      rw [(h.writeLane_actsOnParts result).foldl_of_owner h.gprs (le_refl _)
        (by rw [context]; exact owner) lane]
      exact h.writeLane_self result h.gprs t register

/-- The core after the issued lanes have written. -/
def lanesDone (h : GPUCore cfg) (gprs : Nat → Word) (fine : Bool) (next : Word) : GPUCore cfg :=
  let written := { h with gprs := gprs }
  advanceWarp <|
    if fine then { written with warpPc := Function.update h.warpPc h.warp next } else written.raise

end Verilog.GPUCore

/-- Both sides agree on whether a register is written. -/
theorem writes_eq
    (inst : Word) :
    Core.writes inst = GPUCore.writes inst := by
  have positive : (rd inst != 0) = (Decode.rd inst != 0) := by
    rw [Bool.eq_iff_iff, bne_iff_ne, bne_iff_ne]
    exact not_congr (rd_eq_iff inst 0)
  unfold Core.writes GPUCore.writes
  rw [usesRd_eq, positive]

/-- The destination of a legal instruction that writes. -/
theorem toNat_rd
    {inst : Word}
    (legal : badRegister inst = false)
    (writing : GPUCore.writes inst = true) :
    (rd inst).toNat = Decode.register (Decode.rd inst) := by
  rw [badRegister_eq, Decode.badRegister, Bool.or_eq_false_iff, Bool.or_eq_false_iff] at legal
  have uses := (Bool.and_eq_true_iff.mp writing).1
  rw [uses, Bool.true_and] at legal
  rw [rd_eq, toNat_field _ (by decide)]
  exact toNat_eq_register _ legal.1.1

/-- A destination that is written is not register zero. -/
theorem register_rd_ne_zero
    {inst : Word}
    (legal : badRegister inst = false)
    (writing : GPUCore.writes inst = true) :
    Decode.register (Decode.rd inst) ≠ 0 := by
  intro zero
  have nonzero := bne_iff_ne.mp (Bool.and_eq_true_iff.mp writing).2
  rw [← toNat_rd legal writing, rd_eq, toNat_field _ (by decide)] at zero
  exact nonzero (BitVec.eq_of_toNat_eq zero)

namespace SameCore

variable {cfg : Config} {c : Core} {h : GPUCore cfg}

/-- A non-empty issue mask has an issued lane. -/
theorem exists_issued
    (same : SameCore cfg c h)
    (issued : h.issueMask ≠ 0) :
    ∃ t, t < cfg.numThreads ∧ hasLane c.im t = true := by
  obtain ⟨t, present⟩ := ne_zero_iff_hasLane.mp (same.im.ne_zero_iff.mpr issued)
  exact ⟨t, same.im.lt present, present⟩

/-- Both sides issue the same lanes. -/
theorem issuedLanes
    (same : SameCore cfg c h) :
    hasLane c.im = h.issueMask.getLsbD := by
  funext t
  exact same.im t

/-- Where `JALR` sends a lane. -/
theorem laneTarget
    (same : SameCore cfg c h)
    (inRange : h.InRange)
    {t : Nat}
    (lane : t < cfg.numThreads) :
    c.laneTarget cfg t = h.laneTarget t := by
  rw [Core.laneTarget, GPUCore.laneTarget, rs1_eq, same.inst, same.laneRegister inRange lane,
    immI_eq]
  rfl

/-- Rows stay the same if the results that are written do. -/
theorem lanesWritten
    (same : SameCore cfg c h)
    (legal : badRegister c.inst = false)
    {result result' : Nat → Word}
    (results : Core.writes c.inst = true → ∀ t, t < cfg.numThreads → hasLane c.im t = true →
      result t = result' t)
    {x r : Nat}
    (context : x < cfg.contexts)
    (register : r < 16) :
    c.lanesWritten cfg result x r = h.lanesWritten result' x r := by
  have before : c.gpr x r = GPUCore.row h.gprs x r := same.gpr x r context register
  unfold Core.lanesWritten GPUCore.lanesWritten
  rw [same.iw, show h.warp = h.issueWarp.toNat from rfl]
  cases owner : laneOf (h.issueWarp.toNat * cfg.numThreads) cfg.numThreads x with
  | none => exact before
  | some t =>
      have lane := (laneOf_eq_some_iff.mp owner).1
      show (if _ then _ else _ : Nat → Word) r = (if _ then _ else _ : Nat → Word) r
      rw [same.im t]
      cases issued : h.issueMask.getLsbD t with
      | false => exact before
      | true =>
          rw [if_pos rfl, if_pos rfl]
          rcases eq_or_ne r 0 with rfl | positive
          · rw [writtenRow_zero, writtenRow_zero]
          · rw [writtenRow_of_ne_zero _ _ _ _ positive, writtenRow_of_ne_zero _ _ _ _ positive,
              before, writes_eq, same.inst]
            rw [same.inst] at legal results
            cases writing : GPUCore.writes h.issueInst with
            | false =>
                rw [if_neg fun both => Bool.false_ne_true both.1,
                  if_neg fun both => Bool.false_ne_true both.1]
            | true =>
                rw [toNat_rd legal writing,
                  results (writes_eq _ ▸ writing) t lane ((same.im t).trans issued)]

/-- A result that is written can be read back. -/
theorem lanesWritten_self
    (same : SameCore cfg c h)
    (legal : badRegister c.inst = false)
    (writing : GPUCore.writes c.inst = true)
    {t : Nat}
    (lane : t < cfg.numThreads)
    (issued : hasLane c.im t = true)
    (result result' : Nat → Word) :
    c.lanesWritten cfg result (h.context t) (Decode.register (Decode.rd c.inst)) = result t ∧
      h.lanesWritten result' (h.context t) (Decode.register (Decode.rd c.inst)) = result' t := by
  have owner : laneOf (h.issueWarp.toNat * cfg.numThreads) cfg.numThreads (h.context t) = some t :=
    laneOf_eq_some_iff.mpr ⟨lane, rfl⟩
  have positive := register_rd_ne_zero legal writing
  unfold Core.lanesWritten GPUCore.lanesWritten
  rw [same.iw, show h.warp = h.issueWarp.toNat from rfl, owner]
  show (if _ then _ else _ : Nat → Word) _ = _ ∧ (if _ then _ else _ : Nat → Word) _ = _
  rw [if_pos issued, if_pos ((same.im t).symm.trans issued),
    writtenRow_of_ne_zero _ _ _ _ positive, writtenRow_of_ne_zero _ _ _ _ positive, ← same.inst,
    if_pos ⟨(writes_eq _).trans writing, (toNat_rd legal writing).symm⟩, if_pos ⟨writing, rfl⟩]
  exact ⟨rfl, rfl⟩

/-- After the lane loop the cores are the same if and only if both fault or both
go on at the same address, and every result that is written is the same. -/
theorem lanesDone_iff
    (same : SameCore cfg c h)
    (inRange : h.InRange)
    (active : c.ctaActive = true)
    (legal : badRegister c.inst = false)
    {result result' : Nat → Word}
    {fine fine' : Bool}
    {next next' : Word}
    {gprs : Nat → Word}
    (written : h.HoldsWritten result' gprs)
    (nextPc : Word) :
    SameCore cfg (c.lanesDone cfg result fine next)
        { h.lanesDone gprs fine' next' with nextPc := nextPc } ↔
      fine = fine' ∧ (fine = true → next = next') ∧
        (Core.writes c.inst = true → ∀ t, t < cfg.numThreads → hasLane c.im t = true →
          result t = result' t) := by
  constructor
  · intro after
    have fault : (c.lanesDone cfg result fine next).ctaActive = fine := by
      cases fine
      · rfl
      · exact active
    have fault' : (h.lanesDone gprs fine' next').ctaActive = fine' := by
      cases fine'
      · rfl
      · exact same.ctaActive.symm.trans active
    have sameFault : fine = fine' := fault.symm.trans (after.ctaActive.trans fault')
    subst sameFault
    refine ⟨rfl, ?_, ?_⟩
    · rintro rfl
      have pc := after.pc c.iw (same.iw ▸ inRange.warp)
      have here : (c.lanesDone cfg result true next).pc c.iw = next := Function.update_self ..
      have here' : (h.lanesDone gprs true next').warpPc c.iw = next' := by
        rw [same.iw]
        exact Function.update_self ..
      exact here.symm.trans (pc.trans here')
    · intro writing t lane issued
      rw [writes_eq] at writing
      have register := register_lt (Decode.rd c.inst)
      have context := inRange.context_lt lane
      obtain ⟨left, right⟩ := same.lanesWritten_self legal writing lane issued result result'
      have rows := after.gpr _ _ context register
      have cycleRow : (c.lanesDone cfg result fine next).gpr = c.lanesWritten cfg result := by
        cases fine <;> rfl
      have gpuRow : (h.lanesDone gprs fine next').gprs = gprs := by
        cases fine <;> rfl
      rw [cycleRow, left] at rows
      rw [← right, ← written _ _ context register, ← gpuRow]
      exact rows
  · rintro ⟨rfl, address, results⟩
    have rows : ∀ x r, x < cfg.contexts → r < 16 →
        c.lanesWritten cfg result x r = gprs (x * 16 + r) := fun x r context register =>
      (same.lanesWritten legal results context register).trans (written x r context register).symm
    have before : SameCore cfg { c with gpr := c.lanesWritten cfg result } { h with gprs := gprs } :=
      { same with gpr := rows }
    cases fine with
    | false =>
        have done := before.raise.nextWarp inRange.warp
        exact { done with }
    | true =>
        rw [address rfl]
        have moved : SameCore cfg
            { c with
              gpr := c.lanesWritten cfg result
              pc := Function.update c.pc c.iw next' }
            { h with gprs := gprs, warpPc := Function.update h.warpPc h.warp next' } :=
          { before with pc := update_congr Eq same.iw same.pc rfl }
        have done := moved.nextWarp inRange.warp
        exact { done with }

end SameCore

end OpenGPU
