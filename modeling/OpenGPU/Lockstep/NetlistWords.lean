import OpenGPU.Backend.VerilogNetlist
import OpenGPU.Dispatch.KmuLockstep
import OpenGPU.Foundation.WordLayout
import OpenGPU.Lockstep.PackedState

/-!
# The state words of the SystemVerilog GPU

`pack` and the state bridges of the netlist lay out the same words at the same places
exactly when the registers agree and no request is a halfword at the last byte of a word.
-/

namespace OpenGPU

open Verilog Instruction

/-! ## Registers as words -/

/-- A counter and a register of its value have the same word. -/
theorem ofNat_eq_setWidth_iff
    {count width : Nat}
    {register : BitVec width}
    (small : count < 2 ^ 32)
    (fits : register.toNat < 2 ^ 32) :
    BitVec.ofNat 32 count = register.setWidth 32 ↔ count = register.toNat := by
  rw [← BitVec.toNat_inj, BitVec.toNat_ofNat, BitVec.toNat_setWidth, Nat.mod_eq_of_lt small,
    Nat.mod_eq_of_lt fits]

/-- A mask of at most 32 lanes and a word with its lanes have the same word. -/
theorem eq_setWidth_iff
    {count : Nat}
    (fits : count ≤ 32)
    {word : Word}
    {mask : BitVec count} :
    word = mask.setWidth 32 ↔ SameMask word mask := by
  constructor
  · rintro rfl
    exact SameMask.setWidth fits mask
  · intro same
    apply eq_of_hasLane
    intro t
    rw [same, SameMask.setWidth fits mask]

/-- Masks collected at either width have the same word. -/
theorem collectLanes_setWidth
    (count : Nat)
    {left right : Nat → Bool}
    (same : ∀ t, t < count → left t = right t) :
    collectLanes 32 count left = (collectLanes count count right).setWidth 32 := by
  apply eq_of_hasLane
  intro t
  rw [hasLane_eq_getLsbD (BitVec.setWidth 32 _), BitVec.getLsbD_setWidth, ← hasLane_eq_getLsbD,
    hasLane_collectLanes, hasLane_collectLanes]
  rcases Nat.lt_or_ge t count with inRange | beyond
  · rw [same t inRange, Bool.and_assoc]
    simp
  · simp [Nat.not_lt.mpr beyond]

/-- A value of an index register. -/
theorem toNat_lt_of_indexBits
    {count : Nat}
    (small : count ≤ 2 ^ 32)
    (register : BitVec (indexBits count)) :
    register.toNat < 2 ^ 32 := by
  refine register.isLt.trans_le (Nat.pow_le_pow_right (by decide) ?_)
  unfold indexBits
  split_ifs
  · decide
  · exact Nat.clog_le_of_le_pow small

theorem stateWord_state
    (state : Fsm) :
    Model.stateWord state.state = GPUCore.stateWord state := by
  cases state <;> rfl

/-- The state words agree when the states do. -/
theorem stateWord_eq_iff
    {state : CoreState}
    {fsm : Fsm} :
    Model.stateWord state = GPUCore.stateWord fsm ↔ state = fsm.state := by
  rw [← stateWord_state]
  exact Model.stateWord_injective.eq_iff

@[simp] theorem length_dimWords (dim : Dim3) : (dimWords dim).length = 3 := rfl

/-- Coordinates as words. -/
theorem wordsAt_dimWords
    {words : Nat → Word}
    {base : Nat}
    {dim : Dim3} :
    WordsAt words base (dimWords dim) ↔ Model.DimAt words base dim := by
  simp [dimWords, Model.DimAt, Nat.add_assoc]

/-- Coordinates that are found in their words. -/
theorem dimAt_iff
    {words : Nat → Word}
    {base : Nat}
    {left right : Dim3}
    (found : Model.DimAt words base left) :
    Model.DimAt words base right ↔ left = right := by
  constructor
  · exact found.unique
  · rintro rfl
    exact found

/-! ## A core -/

namespace Verilog.GPUCore

variable {cfg : Config}

/-- The words in front of the data-memory words. -/
def headWords (h : GPUCore cfg) : List Word :=
  [stateWord h.state, boolWord h.ctaActive, boolWord h.faultR, h.rrWarp.setWidth 32,
    h.issueWarp.setWidth 32, h.issueMask.setWidth 32, h.issuePc, h.issueInst,
    h.memThread.setWidth 32] ++
    dimWords h.block ++ dimWords h.dim ++ dimWords h.grid ++
    [h.argsAddr, (collectLanes cfg.numWarps cfg.numWarps h.warpValid).setWidth 32,
      boolWord (h.state == .fetch), h.issuePc]

/-- The data-memory words. -/
def memoryWords (dmemRdata : Word) (h : GPUCore cfg) : List Word :=
  [h.requestWords.ren, h.requestWords.wen, h.requestWords.mask, h.requestWords.addr,
    h.requestWords.wdata, if h.state = .memResp ∧ h.dmemRen then dmemRdata else 0]

theorem diffState_eq
    (dmemRdata : Word)
    (h : GPUCore cfg) :
    h.diffState dmemRdata =
      h.headWords ++ h.memoryWords dmemRdata ++ (List.range cfg.numWarps).flatMap h.warpWords ++
        (List.range cfg.contexts).flatMap h.laneWords := by
  simp [diffState, headWords, memoryWords]

@[simp] theorem length_headWords (h : GPUCore cfg) : h.headWords.length = 22 := rfl

@[simp] theorem length_memoryWords
    (dmemRdata : Word)
    (h : GPUCore cfg) :
    (h.memoryWords dmemRdata).length = 6 := rfl

theorem length_warpWords
    (h : GPUCore cfg)
    (w : Nat) :
    (h.warpWords w).length = 20 := rfl

/-- The words of a stack entry. -/
def stackWords (h : GPUCore cfg) (w level : Nat) : List Word :=
  [h.stackPc (w * 8 + level), (h.stackMask (w * 8 + level)).setWidth 32]

theorem warpWords_eq
    (h : GPUCore cfg)
    (w : Nat) :
    h.warpWords w =
      [boolWord (h.warpValid w), h.warpPc w, (h.warpMask w).setWidth 32,
        (h.stackSp w).setWidth 32] ++ (List.range 8).flatMap (h.stackWords w) := rfl

theorem length_stackWords
    (h : GPUCore cfg)
    (w level : Nat) :
    (h.stackWords w level).length = 2 := rfl

theorem length_laneWords
    (h : GPUCore cfg)
    (x : Nat) :
    (h.laneWords x).length = 20 := rfl

@[simp] theorem length_diffState
    (dmemRdata : Word)
    (h : GPUCore cfg) :
    (h.diffState dmemRdata).length = diffCoreWords cfg := by
  simp [diffState_eq, diffCoreWords, List.length_flatMap, length_warpWords, length_laneWords,
    List.map_const', Nat.mul_comm]
  omega

/-- The parts of a core lie one behind another. -/
theorem wordsAt_diffState
    {words : Nat → Word}
    {base : Nat}
    {dmemRdata : Word}
    {h : GPUCore cfg} :
    WordsAt words base (h.diffState dmemRdata) ↔
      WordsAt words base h.headWords ∧ WordsAt words (base + 22) (h.memoryWords dmemRdata) ∧
        (∀ w, w < cfg.numWarps → WordsAt words (base + (28 + w * 20)) (h.warpWords w)) ∧
        ∀ x, x < cfg.contexts →
          WordsAt words (base + (28 + 20 * cfg.numWarps + x * 20)) (h.laneWords x) := by
  have warps : ((List.range cfg.numWarps).flatMap h.warpWords).length = 20 * cfg.numWarps := by
    simp [List.length_flatMap, length_warpWords, List.map_const', Nat.mul_comm]
  rw [diffState_eq, wordsAt_append, wordsAt_append, wordsAt_append,
    wordsAt_flatMap_range h.length_warpWords, wordsAt_flatMap_range h.length_laneWords]
  simp only [List.length_append, length_headWords, length_memoryWords, warps, and_assoc,
    Nat.add_assoc, Nat.reduceAdd]

end Verilog.GPUCore

section CoreWords

variable {cfg : Config} {words : Nat → Word} {base : Nat} {c : Core} {h : GPUCore cfg}

/-- The values of the counters that a word keeps. -/
structure Core.Fits (cfg : Config) (c : Core) : Prop where
  rr : c.rr < 2 ^ 32
  iw : c.iw < 2 ^ 32
  mt : c.mt < 2 ^ 32
  sp : ∀ w, w < cfg.numWarps → c.sp w < 2 ^ 32

/-- The twenty words of a warp. -/
theorem warpWords_iff
    (threads : cfg.numThreads ≤ 32)
    {w : Nat}
    (small : c.sp w < 2 ^ 32)
    (found : Model.WarpAt words base c w) :
    WordsAt words base (h.warpWords w) ↔
      c.valid w = h.warpValid w ∧ c.pc w = h.warpPc w ∧ SameMask (c.mask w) (h.warpMask w) ∧
        c.sp w = (h.stackSp w).toNat ∧ ∀ s, s < stackDepth →
          c.stackPc w s = h.stackPc (w * stackDepth + s) ∧
          SameMask (c.stackMask w s) (h.stackMask (w * stackDepth + s)) := by
  have narrow : (h.stackSp w).toNat < 2 ^ 32 := (h.stackSp w).isLt.trans (by decide)
  rw [GPUCore.warpWords_eq, wordsAt_append, wordsAt_flatMap_range (h.length_stackWords w)]
  simp only [GPUCore.stackWords, wordsAt_cons, wordsAt_nil, and_true, List.length_cons,
    List.length_nil, Nat.add_assoc, Nat.reduceAdd, found.valid, found.pc, found.mask, found.sp,
    Model.boolWord_injective.eq_iff, eq_setWidth_iff threads,
    ofNat_eq_setWidth_iff small narrow, and_assoc]
  refine and_congr_right' (and_congr_right' (and_congr_right' (and_congr_right' ?_)))
  refine forall₂_congr fun s inStack => and_congr ?_ ?_
  · rw [← Nat.add_assoc, found.stackPc s inStack]
    exact Iff.rfl
  · rw [show base + (4 + (s * 2 + 1)) = base + 5 + s * 2 by omega, found.stackMask s inStack]
    exact Iff.rfl

/-- The twenty words of a lane. -/
theorem laneWords_iff
    {x : Nat}
    (found : Model.LaneAt words base c x) :
    WordsAt words base (h.laneWords x) ↔
      c.tx x = h.threadX x ∧ c.ty x = h.threadY x ∧ c.tz x = h.threadZ x ∧
        c.gid x = h.globalId x ∧ ∀ r, r < 16 → c.gpr x r = h.gprs (x * 16 + r) := by
  rw [GPUCore.laneWords, wordsAt_append, wordsAt_map_range]
  simp only [wordsAt_cons, wordsAt_nil, and_true, List.length_cons, List.length_nil,
    Nat.add_assoc, Nat.reduceAdd, found.tx, found.ty, found.tz, found.gid, and_assoc]
  refine and_congr_right' (and_congr_right' (and_congr_right' (and_congr_right' ?_)))
  refine forall₂_congr fun r inFile => ?_
  rw [← Nat.add_assoc, found.gpr r inFile]

/-- The words of the model in front of its data-memory words. -/
structure HeadAt (cfg : Config) (words : Nat → Word) (base : Nat) (c : Core) : Prop where
  core : Model.CoreAt cfg words base c
  activeWarps : words (base + 19) = Model.activeWarps cfg c
  imemRen : words (base + 20) = boolWord (c.state == .fetch)
  imemAddr : words (base + 21) = c.ip

/-- The first 22 words of a core. -/
theorem headWords_iff
    (threads : cfg.numThreads ≤ 32)
    (fits : c.Fits cfg)
    (valid : ∀ w, w < cfg.numWarps → c.valid w = h.warpValid w)
    (found : HeadAt cfg words base c) :
    WordsAt words base h.headWords ↔
      c.state = h.state.state ∧ c.ctaActive = h.ctaActive ∧ c.fault = h.faultR ∧
        c.rr = h.rrWarp.toNat ∧ c.iw = h.issueWarp.toNat ∧ SameMask c.im h.issueMask ∧
        c.ip = h.issuePc ∧ c.inst = h.issueInst ∧ c.mt = h.memThread.toNat ∧
        c.block = h.block ∧ c.dim = h.dim ∧ c.grid = h.grid ∧ c.args = h.argsAddr := by
  have warps : cfg.numWarps ≤ 2 ^ 32 :=
    (Nat.le_mul_of_pos_right _ cfg.numThreads_pos).trans cfg.contexts_lt.le
  have lanes : cfg.numThreads ≤ 2 ^ 32 := threads.trans (by decide)
  have active := collectLanes_setWidth cfg.numWarps valid
  rw [GPUCore.headWords, wordsAt_append, wordsAt_append, wordsAt_append, wordsAt_append,
    wordsAt_dimWords, wordsAt_dimWords, wordsAt_dimWords]
  simp only [wordsAt_cons, wordsAt_nil, and_true, List.length_cons, List.length_nil,
    List.length_append, length_dimWords, Nat.add_assoc, Nat.reduceAdd, found.core.state,
    found.core.ctaActive, found.core.fault, found.core.rr, found.core.iw, found.core.im,
    found.core.ip, found.core.inst, found.core.mt, found.core.args, found.activeWarps,
    found.imemRen, found.imemAddr, dimAt_iff found.core.block, dimAt_iff found.core.dim,
    dimAt_iff found.core.grid, Model.activeWarps, active, stateWord_eq_iff,
    Model.boolWord_injective.eq_iff, eq_setWidth_iff threads,
    ofNat_eq_setWidth_iff fits.rr (toNat_lt_of_indexBits warps _),
    ofNat_eq_setWidth_iff fits.iw (toNat_lt_of_indexBits warps _),
    ofNat_eq_setWidth_iff fits.mt (toNat_lt_of_indexBits lanes _)]
  have fetch : c.state = h.state.state → (c.state == .fetch) = (h.state == .fetch) := by
    intro state
    rw [state]
    cases h.state <;> rfl
  tauto

/-- The words of a core are those of the model exactly when the registers and the
data-memory words are. -/
theorem coreWords_iff
    (threads : cfg.numThreads ≤ 32)
    (fits : c.Fits cfg)
    {dmemRdata : Word}
    (found : HeadAt cfg words base c) :
    WordsAt words base (h.diffState dmemRdata) ↔
      SameCore cfg c h ∧ WordsAt words (base + 22) (h.memoryWords dmemRdata) := by
  rw [GPUCore.wordsAt_diffState]
  constructor
  · rintro ⟨head, memory, warps, lanes⟩
    have warp := fun w inRange =>
      (warpWords_iff threads (fits.sp w inRange) (found.core.warps w inRange)).mp (warps w inRange)
    have lane := fun x inRange =>
      (laneWords_iff (found.core.lanes x inRange)).mp (lanes x inRange)
    obtain ⟨state, ctaActive, fault, rr, iw, im, ip, inst, mt, block, dim, grid, args⟩ :=
      (headWords_iff threads fits (fun w inRange => (warp w inRange).1) found).mp head
    exact
      ⟨{ state, ctaActive, fault, rr, iw, im, ip, inst, mt, block, dim, grid, args
         valid := fun w inRange => (warp w inRange).1
         pc := fun w inRange => (warp w inRange).2.1
         mask := fun w inRange => (warp w inRange).2.2.1
         sp := fun w inRange => (warp w inRange).2.2.2.1
         stackPc := fun w s inRange inStack => ((warp w inRange).2.2.2.2 s inStack).1
         stackMask := fun w s inRange inStack => ((warp w inRange).2.2.2.2 s inStack).2
         tx := fun x inRange => (lane x inRange).1
         ty := fun x inRange => (lane x inRange).2.1
         tz := fun x inRange => (lane x inRange).2.2.1
         gid := fun x inRange => (lane x inRange).2.2.2.1
         gpr := fun x r inRange inFile => (lane x inRange).2.2.2.2 r inFile }, memory⟩
  · rintro ⟨same, memory⟩
    refine ⟨(headWords_iff threads fits same.valid found).mpr ?_, memory, fun w inRange => ?_,
      fun x inRange => ?_⟩
    · exact ⟨same.state, same.ctaActive, same.fault, same.rr, same.iw, same.im, same.ip, same.inst,
        same.mt, same.block, same.dim, same.grid, same.args⟩
    · apply (warpWords_iff threads (fits.sp w inRange) (found.core.warps w inRange)).mpr
      exact ⟨same.valid w inRange, same.pc w inRange, same.mask w inRange, same.sp w inRange,
        fun s inStack => ⟨same.stackPc w s inRange inStack, same.stackMask w s inRange inStack⟩⟩
    · apply (laneWords_iff (found.core.lanes x inRange)).mpr
      exact ⟨same.tx x inRange, same.ty x inRange, same.tz x inRange, same.gid x inRange,
        fun r inFile => same.gpr x r inRange inFile⟩

/-- The data-memory words of a core in the packed state. -/
theorem packed_dmem
    {m packed : Model}
    (defined : Model.pack cfg m = some packed)
    {i : Nat}
    (core : i < cfg.numCores)
    {k : Nat}
    (least : 22 ≤ k)
    (below : k < 28) :
    packed.packed (23 + i * Model.coreWords cfg + k) =
      applyWrites (Model.packDmem cfg m.mem (m.cores i)) (fun _ => 0) k := by
  rw [Model.pack_word defined core (by unfold Model.coreWords; omega),
    Model.packCore_dmem _ _ least below]

/-- The last data-memory word while a lane waits. -/
theorem packDmem_rdata
    {mem : ShadowMemory}
    (waiting : (c.state = .memReq ∨ c.state = .memResp) ∧ hasLane c.im c.mt = true) :
    applyWrites (Model.packDmem cfg mem c) (fun _ => 0) 27 =
      if opcode c.inst = 0x03 ∧ c.state = .memResp then
        load32 cfg mem (wordAddress (c.memoryAddress cfg))
      else 0 := by
  unfold Model.packDmem
  rw [if_pos waiting]
  dsimp only
  split_ifs <;> rfl

/-- A lane of the issued warp waits for the data memory. -/
def Verilog.GPUCore.Waiting (h : GPUCore cfg) : Prop :=
  (h.state = .memReq ∨ h.state = .memResp) ∧ h.issueMask.getLsbD h.memThread.toNat = true

/-- A waiting lane that loads. -/
theorem Verilog.GPUCore.dmemRen_iff :
    h.dmemRen = true ↔ h.Waiting ∧ Decode.opcode h.issueInst = Decode.load := by
  unfold GPUCore.dmemRen GPUCore.Waiting
  simp only [Bool.and_eq_true, Bool.or_eq_true, beq_iff_eq]
  tauto

/-- Without a waiting lane a core sends zeros. -/
theorem Verilog.GPUCore.memoryWords_eq_zero
    (h : GPUCore cfg)
    {dmemRdata : Word}
    (quiet : ¬h.Waiting) :
    h.memoryWords dmemRdata = (List.range 6).map fun _ => 0 := by
  have ren : h.dmemRen = false := by
    rw [Bool.eq_false_iff]
    exact fun reading => quiet (GPUCore.dmemRen_iff.mp reading).1
  have waits : ((h.state == .memReq || h.state == .memResp) &&
      h.issueMask.getLsbD h.memThread.toNat) = false := by
    rw [Bool.eq_false_iff]
    intro both
    apply quiet
    simpa [GPUCore.Waiting] using both
  have wen : (h.dmemWen && h.state == .memReq) = false := by
    rw [Bool.eq_false_iff]
    intro both
    apply quiet
    simp only [GPUCore.dmemWen, Bool.and_eq_true, beq_iff_eq] at both
    exact ⟨Or.inl both.2, both.1.2⟩
  simp only [GPUCore.memoryWords, GPUCore.requestWords, ren, wen, waits]
  simp [boolWord, List.range_succ]

namespace SameCore

theorem state_iff
    (same : SameCore cfg c h)
    (state : Fsm) :
    c.state = state.state ↔ h.state = state := by
  rw [same.state]
  cases h.state <;> cases state <;> decide

/-- A lane waits on both sides or on neither. -/
theorem waiting_iff
    (same : SameCore cfg c h) :
    ((c.state = .memReq ∨ c.state = .memResp) ∧ hasLane c.im c.mt = true) ↔ h.Waiting := by
  rw [same.im, same.mt]
  exact and_congr_left' (or_congr (same.state_iff .memReq) (same.state_iff .memResp))

/-- A lane loads on both sides or on neither. -/
theorem loads_iff
    (same : SameCore cfg c h)
    (waiting : h.Waiting) :
    opcode c.inst = 0x03 ∧ c.state = .memResp ↔ h.state = .memResp ∧ h.dmemRen = true := by
  have number : opcode h.issueInst = 0x03 ↔ Decode.opcode h.issueInst = Decode.load :=
    opcode_eq_iff h.issueInst Decode.load
  have response : c.state = .memResp ↔ h.state = .memResp := same.state_iff .memResp
  rw [GPUCore.dmemRen_iff, same.inst, response, number]
  tauto

end SameCore

section Packed

variable {m packed : Model} {i : Nat} {dmemRdata : Word}

/-- The request of a waiting lane. -/
theorem waitingRequest_iff
    (defined : Model.pack cfg m = some packed)
    (core : i < cfg.numCores)
    (same : SameCore cfg (m.cores i) h)
    (inRange : h.InRange)
    (waiting : h.Waiting) :
    packed.requestWords cfg i = h.requestWords ↔
      ¬(Decode.funct3 h.issueInst = 1 ∧ wordOffset h.memoryAddress = 3) := by
  rw [same.requestWords defined core inRange waiting.1 waiting.2,
    GPUCore.requestWords_eq waiting.1 waiting.2, ← h.dmemMask_iff]
  simp only [RequestWords.mk.injEq, true_and, and_true]
  exact eq_comm

/-- What a waiting lane reads. -/
theorem waitingRdata_iff
    (defined : Model.pack cfg m = some packed)
    (core : i < cfg.numCores)
    (same : SameCore cfg (m.cores i) h)
    (inRange : h.InRange)
    (waiting : h.Waiting) :
    (packed.packed (23 + i * Model.coreWords cfg + 27) =
        if h.state = .memResp ∧ h.dmemRen then dmemRdata else 0) ↔
      (h.state = .memResp ∧ h.dmemRen = true →
        dmemRdata = load32 cfg m.mem (wordAddress h.memoryAddress)) := by
  rw [packed_dmem defined core (by decide) (by decide), packDmem_rdata (same.waiting_iff.mpr waiting),
    same.memoryAddress inRange, if_congr (same.loads_iff waiting) rfl rfl]
  by_cases response : h.state = .memResp ∧ h.dmemRen = true
  · rw [if_pos response, if_pos response]
    exact ⟨fun here _ => here.symm, fun here => (here response).symm⟩
  · rw [if_neg response, if_neg response]
    exact iff_of_true rfl fun both => absurd both response

/-- Without a waiting lane all data-memory words are zero. -/
theorem memoryWords_of_not_waiting
    (defined : Model.pack cfg m = some packed)
    (core : i < cfg.numCores)
    (same : SameCore cfg (m.cores i) h)
    (quiet : ¬h.Waiting) :
    WordsAt packed.packed (23 + i * Model.coreWords cfg + 22) (h.memoryWords dmemRdata) := by
  have nothing : Model.packDmem cfg m.mem (m.cores i) = [] := if_neg fun both =>
    quiet (same.waiting_iff.mp both)
  have zero : ∀ k, 22 ≤ k → k < 28 → packed.packed (23 + i * Model.coreWords cfg + k) = 0 := by
    intro k least below
    rw [packed_dmem defined core least below, nothing]
    rfl
  rw [h.memoryWords_eq_zero quiet, wordsAt_map_range]
  intro k below
  rw [Nat.add_assoc]
  exact zero _ (Nat.le_add_right 22 k) (Nat.add_lt_add_left below 22)

/-- The data-memory words of a core. -/
theorem memoryWords_iff
    (defined : Model.pack cfg m = some packed)
    (core : i < cfg.numCores)
    (same : SameCore cfg (m.cores i) h)
    (inRange : h.InRange) :
    WordsAt packed.packed (23 + i * Model.coreWords cfg + 22) (h.memoryWords dmemRdata) ↔
      h.Waiting → ¬(Decode.funct3 h.issueInst = 1 ∧ wordOffset h.memoryAddress = 3) ∧
        (h.state = .memResp ∧ h.dmemRen = true →
          dmemRdata = load32 cfg m.mem (wordAddress h.memoryAddress)) := by
  by_cases waiting : h.Waiting
  · rw [← waitingRequest_iff defined core same inRange waiting,
      ← waitingRdata_iff defined core same inRange waiting, Model.requestWords,
      show h.requestWords = ⟨h.requestWords.ren, h.requestWords.wen, h.requestWords.mask,
        h.requestWords.addr, h.requestWords.wdata⟩ from rfl, RequestWords.mk.injEq]
    simp only [GPUCore.memoryWords, wordsAt_cons, wordsAt_nil, and_true, waiting, forall_const,
      Nat.add_assoc, Nat.reduceAdd, and_assoc]
  · exact iff_of_true (memoryWords_of_not_waiting defined core same waiting) fun here =>
      absurd here waiting

end Packed

end CoreWords

end OpenGPU
