import OpenGPU.Cycle.Core
import OpenGPU.Lockstep.Decode

/-!
# The same core in the cycle model and in hardware

The cycle model keeps one record per core with plain numbers and arrays of
arrays; hardware keeps registers of their declared widths and flat memories. A
core state is the same on both sides when every element that exists in the
topology has the same value. The operations that every backend shares keep that
relation.
-/

namespace OpenGPU

open Verilog Instruction

/-- The enumerator of the cycle model for a state of the hardware. -/
def Verilog.Fsm.state : Fsm → CoreState
  | .sched => .sched
  | .fetch => .fetch
  | .exec => .exec
  | .memReq => .memReq
  | .memResp => .memResp

/-- A mask word of the cycle model and a mask of hardware have the same lanes. -/
def SameMask {count : Nat} (word : Word) (mask : BitVec count) : Prop :=
  ∀ t, hasLane word t = mask.getLsbD t

namespace SameMask

variable {count : Nat} {word : Word} {mask : BitVec count}

/-- Masks collected from the same test, if no lane beyond a word passes. -/
theorem collectLanes
    {left right : Nat → Bool}
    (same : ∀ t, t < count → left t = right t)
    (inWord : ∀ t, left t = true → t < 32) :
    SameMask (OpenGPU.collectLanes 32 count left) (OpenGPU.collectLanes count count right) := by
  intro t
  rw [hasLane_collectLanes, ← hasLane_eq_getLsbD, hasLane_collectLanes]
  rcases Nat.lt_or_ge t count with inRange | beyond
  · rw [decide_eq_true inRange, ← same t inRange]
    cases passes : left t with
    | false => rw [Bool.and_false, Bool.and_false]
    | true => rw [decide_eq_true (inWord t passes)]
  · rw [decide_eq_false (Nat.not_lt.mpr beyond)]
    simp

/-- Both are empty or neither is. -/
theorem ne_zero_iff
    (same : SameMask word mask) :
    word ≠ 0 ↔ mask ≠ 0 := by
  rw [ne_zero_iff_hasLane, ne_zero_iff_hasLane]
  apply exists_congr
  intro t
  rw [same t, hasLane_eq_getLsbD]

/-- A lane of the word is a lane of the topology. -/
theorem lt
    (same : SameMask word mask)
    {t : Nat}
    (present : hasLane word t = true) :
    t < count := by
  rw [same t] at present
  exact BitVec.lt_of_getLsbD present

end SameMask

/-- Every element of the topology has the same value on both sides. -/
structure SameCore (cfg : Config) (c : Core) (h : GPUCore cfg) : Prop where
  state : c.state = h.state.state
  ctaActive : c.ctaActive = h.ctaActive
  fault : c.fault = h.faultR
  rr : c.rr = h.rrWarp.toNat
  iw : c.iw = h.issueWarp.toNat
  im : SameMask c.im h.issueMask
  ip : c.ip = h.issuePc
  inst : c.inst = h.issueInst
  mt : c.mt = h.memThread.toNat
  block : c.block = h.block
  dim : c.dim = h.dim
  grid : c.grid = h.grid
  args : c.args = h.argsAddr
  pc : ∀ w, w < cfg.numWarps → c.pc w = h.warpPc w
  mask : ∀ w, w < cfg.numWarps → SameMask (c.mask w) (h.warpMask w)
  valid : ∀ w, w < cfg.numWarps → c.valid w = h.warpValid w
  sp : ∀ w, w < cfg.numWarps → c.sp w = (h.stackSp w).toNat
  stackPc : ∀ w s, w < cfg.numWarps → s < stackDepth →
    c.stackPc w s = h.stackPc (w * stackDepth + s)
  stackMask : ∀ w s, w < cfg.numWarps → s < stackDepth →
    SameMask (c.stackMask w s) (h.stackMask (w * stackDepth + s))
  gpr : ∀ x r, x < cfg.contexts → r < 16 → c.gpr x r = h.gprs (x * 16 + r)
  tx : ∀ x, x < cfg.contexts → c.tx x = h.threadX x
  ty : ∀ x, x < cfg.contexts → c.ty x = h.threadY x
  tz : ∀ x, x < cfg.contexts → c.tz x = h.threadZ x
  gid : ∀ x, x < cfg.contexts → c.gid x = h.globalId x

namespace Verilog.GPUCore

variable {cfg : Config}

/-- The index registers name elements of the topology, and no path stack holds
more entries than it has. -/
structure InRange (h : GPUCore cfg) : Prop where
  warp : h.issueWarp.toNat < cfg.numWarps
  thread : h.memThread.toNat < cfg.numThreads
  sp : ∀ w, w < cfg.numWarps → (h.stackSp w).toNat ≤ stackDepth

/-- A lane of the issued warp is a context. -/
theorem InRange.context_lt
    {h : GPUCore cfg}
    (inRange : h.InRange)
    {t : Nat}
    (lane : t < cfg.numThreads) :
    h.context t < cfg.contexts :=
  cfg.context_lt inRange.warp lane

end Verilog.GPUCore

namespace Verilog.GPUCore

variable {cfg : Config}

/-- A core of the hardware as a core of the cycle model. -/
def toCore (h : GPUCore cfg) : Core where
  state := h.state.state
  ctaActive := h.ctaActive
  fault := h.faultR
  rr := h.rrWarp.toNat
  iw := h.issueWarp.toNat
  im := h.issueMask.setWidth 32
  ip := h.issuePc
  inst := h.issueInst
  mt := h.memThread.toNat
  block := h.block
  dim := h.dim
  grid := h.grid
  args := h.argsAddr
  pc := h.warpPc
  mask := fun w => (h.warpMask w).setWidth 32
  valid := h.warpValid
  sp := fun w => (h.stackSp w).toNat
  stackPc := fun w s => h.stackPc (w * stackDepth + s)
  stackMask := fun w s => (h.stackMask (w * stackDepth + s)).setWidth 32
  gpr := fun x r => h.gprs (x * 16 + r)
  tx := h.threadX
  ty := h.threadY
  tz := h.threadZ
  gid := h.globalId

end Verilog.GPUCore

/-- A mask that fits a word has the same lanes there. -/
theorem SameMask.setWidth
    {count : Nat}
    (fits : count ≤ 32)
    (mask : BitVec count) :
    SameMask (mask.setWidth 32) mask := by
  intro t
  rw [hasLane_eq_getLsbD, BitVec.getLsbD_setWidth]
  rcases Nat.lt_or_ge t 32 with inWord | beyond
  · rw [decide_eq_true inWord, Bool.true_and]
  · rw [BitVec.getLsbD_of_ge mask t (by omega), Bool.and_false]

/-- With at most 32 lanes per warp every state of the hardware is one of the
cycle model. -/
theorem SameCore.toCore
    {cfg : Config}
    (threads : cfg.numThreads ≤ 32)
    (h : GPUCore cfg) :
    SameCore cfg h.toCore h where
  state := rfl
  ctaActive := rfl
  fault := rfl
  rr := rfl
  iw := rfl
  im := SameMask.setWidth threads _
  ip := rfl
  inst := rfl
  mt := rfl
  block := rfl
  dim := rfl
  grid := rfl
  args := rfl
  pc := fun _ _ => rfl
  mask := fun _ _ => SameMask.setWidth threads _
  valid := fun _ _ => rfl
  sp := fun _ _ => rfl
  stackPc := fun _ _ _ _ => rfl
  stackMask := fun _ _ _ _ => SameMask.setWidth threads _
  gpr := fun _ _ _ _ => rfl
  tx := fun _ _ => rfl
  ty := fun _ _ => rfl
  tz := fun _ _ => rfl
  gid := fun _ _ => rfl

/-- Related functions stay related where both change alike. -/
theorem update_congr
    {left right : Type*}
    (related : left → right → Prop)
    {P : Nat → Prop}
    {f : Nat → left}
    {g : Nat → right}
    {place place' : Nat}
    (samePlace : place = place')
    (same : ∀ i, P i → related (f i) (g i))
    {new : left}
    {new' : right}
    (sameNew : related new new') :
    ∀ i, P i → related (Function.update f place new i) (Function.update g place' new' i) := by
  subst samePlace
  intro i inRange
  rcases eq_or_ne i place with rfl | other
  · rwa [Function.update_self, Function.update_self]
  · rw [Function.update_of_ne other, Function.update_of_ne other]
    exact same i inRange

namespace SameCore

variable {cfg : Config} {c : Core} {h : GPUCore cfg}

/-! ## Reading -/

/-- A lane of the issued warp has the same place in both register files. -/
theorem context
    (same : SameCore cfg c h)
    (t : Nat) :
    c.context cfg t = h.context t := by
  rw [Core.context, GPUCore.context, same.iw]

/-- A register of an issued lane. -/
theorem laneRegister
    (same : SameCore cfg c h)
    (inRange : h.InRange)
    {t : Nat}
    (lane : t < cfg.numThreads)
    (field : BitVec 5) :
    c.laneRegister cfg t (field.setWidth 32) = h.laneRegister t field := by
  rw [Core.laneRegister, GPUCore.laneRegister, register_eq, same.context]
  exact same.gpr _ _ (inRange.context_lt lane) (register_lt field)

/-- The address of a memory access. -/
theorem memoryAddress
    (same : SameCore cfg c h)
    (inRange : h.InRange) :
    c.memoryAddress cfg = h.memoryAddress := by
  rw [Core.memoryAddress, GPUCore.memoryAddress, rs1_eq, same.mt, same.inst,
    same.laneRegister inRange inRange.thread, immI_eq, immS_eq]
  exact congrArg _ (if_congr (opcode_eq_iff h.issueInst Decode.load) rfl rfl)

/-! ## Shared operations -/

/-- Moving on to the next warp. -/
theorem nextWarp
    (same : SameCore cfg c h)
    (warp : h.issueWarp.toNat < cfg.numWarps) :
    SameCore cfg (c.nextWarp cfg) h.advanceWarp := by
  have room := le_two_pow_indexBits cfg.numWarps
  have last : c.iw = cfg.numWarps - 1 ↔
      h.issueWarp = BitVec.ofNat (indexBits cfg.numWarps) (cfg.numWarps - 1) := by
    rw [same.iw, ← BitVec.toNat_inj, BitVec.toNat_ofNat, Nat.mod_eq_of_lt (by omega)]
  refine { same with state := rfl, rr := ?_ }
  show (if c.iw = cfg.numWarps - 1 then 0 else c.iw + 1) =
    BitVec.toNat (if h.issueWarp = _ then 0 else h.issueWarp + 1)
  rcases eq_or_ne c.iw (cfg.numWarps - 1) with isLast | notLast
  · rw [if_pos isLast, if_pos (last.mp isLast)]
    exact (BitVec.toNat_zero).symm
  · rw [if_neg notLast, if_neg (not_congr last |>.mp notLast), same.iw]
    rw [same.iw] at notLast
    have one : (1 : BitVec (indexBits cfg.numWarps)).toNat = 1 := by
      show (BitVec.ofNat _ 1).toNat = 1
      rw [BitVec.toNat_ofNat, Nat.mod_eq_of_lt (by omega)]
    rw [BitVec.toNat_add, one, Nat.mod_eq_of_lt (by omega)]

/-- Dropping the block with a fault. -/
theorem raise
    (same : SameCore cfg c h) :
    SameCore cfg c.raise h.raise :=
  { same with ctaActive := rfl, fault := rfl }

/-- A new path of the issued warp. -/
theorem setPath
    (same : SameCore cfg c h)
    (pc : Word)
    {word : Word}
    {mask : BitVec cfg.numThreads}
    (sameMask : SameMask word mask) :
    SameCore cfg (c.setPath pc word) (h.setPath pc mask) :=
  { same with
    pc := update_congr Eq same.iw same.pc rfl
    mask := update_congr SameMask same.iw same.mask sameMask }

/-- A deferred path of the issued warp, if its stack has room. -/
theorem pushPath
    (same : SameCore cfg c h)
    (warp : h.issueWarp.toNat < cfg.numWarps)
    (room : (h.stackSp h.warp).toNat < stackDepth)
    (pc : Word)
    {word : Word}
    {mask : BitVec cfg.numThreads}
    (sameMask : SameMask word mask) :
    SameCore cfg (c.pushPath pc word) (h.pushPath pc mask) := by
  have depth : c.sp c.iw = (h.stackSp h.warp).toNat := by
    rw [same.iw]
    exact same.sp _ warp
  have place : ∀ w s, s < stackDepth →
      (w * stackDepth + s = h.slot (h.stackSp h.warp).toNat ↔ w = c.iw ∧ s = c.sp c.iw) := by
    intro w s small
    have eight : stackDepth = 8 := rfl
    have bound : s < 8 := small
    have roomy : (h.stackSp h.warp).toNat < 8 := room
    rw [depth, same.iw, show h.slot (h.stackSp h.warp).toNat =
      h.issueWarp.toNat * 8 + (h.stackSp h.warp).toNat from rfl, eight]
    omega
  have stack : ∀ {α β : Type} (related : α → β → Prop) (f : Nat → Nat → α) (g : Nat → β)
      (new : α) (new' : β),
      (∀ w s, w < cfg.numWarps → s < stackDepth → related (f w s) (g (w * stackDepth + s))) →
      related new new' → ∀ w s, w < cfg.numWarps → s < stackDepth →
        related (Function.update f c.iw (Function.update (f c.iw) (c.sp c.iw) new) w s)
          (Function.update g (h.slot (h.stackSp h.warp).toNat) new' (w * stackDepth + s)) := by
    intro α β related f g new new' before sameNew w s inTopology small
    rcases eq_or_ne w c.iw with rfl | otherWarp
    · rw [Function.update_self]
      rcases eq_or_ne s (c.sp c.iw) with rfl | otherDepth
      · rwa [Function.update_self, (place _ _ small).mpr ⟨rfl, rfl⟩, Function.update_self]
      · rw [Function.update_of_ne otherDepth,
          Function.update_of_ne fun here => otherDepth ((place _ _ small).mp here).2]
        exact before _ _ inTopology small
    · rw [Function.update_of_ne otherWarp,
        Function.update_of_ne fun here => otherWarp ((place _ _ small).mp here).1]
      exact before _ _ inTopology small
  have deeper : (h.stackSp h.warp + 1).toNat = c.sp c.iw + 1 := by
    have bound : (h.stackSp h.warp).toNat < 8 := room
    rw [depth, BitVec.toNat_add, show (1 : BitVec 4).toNat = 1 from rfl]
    omega
  exact
    { same with
      sp := update_congr (fun left (right : BitVec 4) => left = right.toNat) same.iw same.sp
        deeper.symm
      stackPc := stack Eq c.stackPc h.stackPc pc pc same.stackPc rfl
      stackMask := stack SameMask c.stackMask h.stackMask word mask same.stackMask sameMask }

/-- The newest deferred path of the issued warp, if there is one. -/
theorem popPath
    (same : SameCore cfg c h)
    (warp : h.issueWarp.toNat < cfg.numWarps)
    (bounded : (h.stackSp h.warp).toNat ≤ stackDepth)
    (deferred : h.stackSp h.warp ≠ 0) :
    SameCore cfg c.popPath h.popPath := by
  have depth : c.sp c.iw = (h.stackSp h.warp).toNat := by
    rw [same.iw]
    exact same.sp _ warp
  have positive : (h.stackSp h.warp).toNat ≠ 0 := fun zero =>
    deferred (BitVec.eq_of_toNat_eq zero)
  have top : c.sp c.iw - 1 < stackDepth := by omega
  have slot : h.slot (h.stackSp h.warp).toNat - 1 = c.iw * stackDepth + (c.sp c.iw - 1) := by
    rw [depth, same.iw, show h.slot (h.stackSp h.warp).toNat =
      h.issueWarp.toNat * 8 + (h.stackSp h.warp).toNat from rfl, show stackDepth = 8 from rfl]
    omega
  have shallower : (h.stackSp h.warp - 1).toNat = c.sp c.iw - 1 := by
    have bound := (h.stackSp h.warp).isLt
    rw [depth, BitVec.toNat_sub, show (1 : BitVec 4).toNat = 1 from rfl]
    omega
  have inTopology : c.iw < cfg.numWarps := same.iw ▸ warp
  exact
    { same with
      pc := update_congr Eq same.iw same.pc
        ((same.stackPc _ _ inTopology top).trans (congrArg h.stackPc slot.symm))
      mask := update_congr SameMask same.iw same.mask
        (slot ▸ same.stackMask _ _ inTopology top)
      sp := update_congr (fun left (right : BitVec 4) => left = right.toNat) same.iw same.sp
        shallower.symm }

/-! ## Paths of the `EXEC` state -/

/-- `EBREAK`. -/
theorem execEbreak
    (same : SameCore cfg c h)
    (inRange : h.InRange) :
    SameCore cfg (c.execEbreak cfg) h.execEbreak := by
  have empty : c.sp c.iw ≠ 0 ↔ h.stackSp h.warp ≠ 0 := by
    rw [same.iw, same.sp _ inRange.warp, ne_eq, ne_eq, ← BitVec.toNat_inj]
    rfl
  unfold Core.execEbreak GPUCore.execEbreak
  apply nextWarp _ _
  · rcases eq_or_ne (h.stackSp h.warp) 0 with none | deferred
    · rw [if_neg (not_not.mpr none), if_neg fun some => empty.mp some none]
      exact { same with valid := update_congr Eq same.iw same.valid rfl }
    · rw [if_pos deferred, if_pos (empty.mpr deferred)]
      exact same.popPath inRange.warp (inRange.sp _ inRange.warp) deferred
  · split_ifs <;> exact inRange.warp

end SameCore

/-- The branch condition of a lane. -/
theorem takeBranch_eq
    (f3 : BitVec 3)
    (a b : Word) :
    Core.takeBranch (f3.setWidth 32) a b = (GPUCore.branchTake f3 a b).getD false := by
  have select : ∀ number : BitVec 3, f3.setWidth 32 = number.setWidth 32 ↔ f3 = number :=
    setWidth_inj (by decide) f3
  have zero : f3.setWidth 32 = 0 ↔ f3 = 0 := select 0
  have one : f3.setWidth 32 = 1 ↔ f3 = 1 := select 1
  have four : f3.setWidth 32 = 4 ↔ f3 = 4 := select 4
  have five : f3.setWidth 32 = 5 ↔ f3 = 5 := select 5
  have six : f3.setWidth 32 = 6 ↔ f3 = 6 := select 6
  have seven : f3.setWidth 32 = 7 ↔ f3 = 7 := select 7
  unfold Core.takeBranch GPUCore.branchTake
  simp only [zero, one, four, five, six, seven]
  split_ifs <;> rfl

/-- Which minor opcodes are branches. -/
theorem branchGood_eq
    (f3 : BitVec 3)
    (a b : Word) :
    Core.branchGood (f3.setWidth 32) = (GPUCore.branchTake f3 a b).isSome := by
  have good : ∀ f3 : BitVec 3, Core.branchGood (f3.setWidth 32) = decide (f3 ≠ 2 ∧ f3 ≠ 3) := by
    decide
  have known : ∀ f3 : BitVec 3, f3 ≠ 0 → f3 ≠ 1 → f3 ≠ 4 → f3 ≠ 5 → f3 ≠ 6 → f3 ≠ 7 →
      f3 = 2 ∨ f3 = 3 := by
    decide
  rw [good]
  unfold GPUCore.branchTake
  split_ifs with zero one four five six seven
  · rw [zero]; rfl
  · rw [one]; rfl
  · rw [four]; rfl
  · rw [five]; rfl
  · rw [six]; rfl
  · rw [seven]; rfl
  · rcases known f3 zero one four five six seven with rfl | rfl <;> rfl

namespace SameCore

variable {cfg : Config} {c : Core} {h : GPUCore cfg}

/-- The lanes that take a branch. -/
theorem laneTakes
    (same : SameCore cfg c h)
    (inRange : h.InRange)
    {t : Nat}
    (lane : t < cfg.numThreads) :
    c.laneTakes cfg t = (h.laneTake t).getD false := by
  rw [Core.laneTakes, GPUCore.laneTake, funct3_eq, rs1_eq, rs2_eq, same.inst,
    same.laneRegister inRange lane, same.laneRegister inRange lane, takeBranch_eq]

theorem takenMask
    (same : SameCore cfg c h)
    (inRange : h.InRange) :
    SameMask (c.takenMask cfg) h.takenMask := by
  refine SameMask.collectLanes (fun t lane => ?_) fun t taken => ?_
  · rw [same.im t, same.laneTakes inRange lane]
  · exact lt_of_hasLane (Bool.and_eq_true_iff.mp taken).1

theorem fallMask
    (same : SameCore cfg c h)
    (inRange : h.InRange) :
    SameMask (c.fallMask cfg) h.fallMask := by
  refine SameMask.collectLanes (fun t lane => ?_) fun t taken => ?_
  · rw [same.im t, same.laneTakes inRange lane]
  · exact lt_of_hasLane (Bool.and_eq_true_iff.mp taken).1

/-- A branch is supported on both sides alike once some lane is issued. -/
theorem branchSupported
    (same : SameCore cfg c h)
    (issued : h.issueMask ≠ 0) :
    h.branchSupported = Core.branchGood (funct3 c.inst) := by
  obtain ⟨t, present⟩ := ne_zero_iff_hasLane.mp issued
  rw [hasLane_eq_getLsbD] at present
  have lane : t < cfg.numThreads := BitVec.lt_of_getLsbD present
  have uniform : ∀ t, (h.laneTake t).isSome = Core.branchGood (funct3 c.inst) := by
    intro t
    rw [same.inst, funct3_eq]
    exact (branchGood_eq _ _ _).symm
  unfold GPUCore.branchSupported
  simp only [uniform]
  cases Core.branchGood (funct3 c.inst) with
  | true => simp
  | false =>
      rw [List.all_eq_false]
      exact ⟨t, List.mem_range.mpr lane, by simp [present]⟩

/-- The conditional branches. -/
theorem execBranch
    (same : SameCore cfg c h)
    (inRange : h.InRange)
    (issued : h.issueMask ≠ 0) :
    SameCore cfg (c.execBranch cfg) h.execBranch := by
  have taken := same.takenMask inRange
  have fallen := same.fallMask inRange
  have full : stackDepth ≤ c.sp c.iw ↔ h.stackFull = true := by
    rw [same.iw, same.sp _ inRange.warp]
    exact (decide_eq_true_iff).symm
  have target : c.ip + immB c.inst = h.issuePc + Decode.immB h.issueInst := by
    rw [same.ip, same.inst, immB_eq]
  unfold Core.execBranch GPUCore.execBranch
  apply nextWarp _ _
  · rw [target, same.ip, same.branchSupported issued]
    cases Core.branchGood (funct3 c.inst) with
    | false => exact same.raise
    | true =>
        rw [if_neg (show ¬(!true) = true by decide), if_neg (show ¬(!true) = true by decide)]
        have both : c.takenMask cfg ≠ 0 ∧ c.fallMask cfg ≠ 0 ↔
            h.takenMask ≠ 0 ∧ h.fallMask ≠ 0 :=
          and_congr taken.ne_zero_iff fallen.ne_zero_iff
        rcases em (h.takenMask ≠ 0 ∧ h.fallMask ≠ 0) with split | whole
        · rw [if_pos split, if_pos (both.mpr split)]
          cases isFull : h.stackFull with
          | true =>
              rw [if_pos rfl, if_pos (full.mpr isFull)]
              exact same.raise
          | false =>
              have room : ¬stackDepth ≤ c.sp c.iw := by
                rw [full, isFull]
                exact Bool.false_ne_true
              rw [if_neg Bool.false_ne_true, if_neg room]
              have below : (h.stackSp h.warp).toNat < stackDepth := by
                rw [same.iw, same.sp _ inRange.warp] at room
                exact Nat.not_le.mp room
              exact (same.pushPath inRange.warp below _ taken).setPath _ fallen
        · rw [if_neg whole, if_neg (not_congr both |>.mpr whole)]
          rcases eq_or_ne h.takenMask 0 with none | some
          · rw [if_neg (not_not.mpr none), if_neg fun taking => taken.ne_zero_iff.mp taking none]
            exact same.setPath _ fallen
          · rw [if_pos some, if_pos (taken.ne_zero_iff.mpr some)]
            exact same.setPath _ taken
  · split_ifs <;> exact inRange.warp

end SameCore

end OpenGPU
