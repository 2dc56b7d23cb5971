import OpenGPU.Lockstep.CoreRange
import OpenGPU.Lockstep.MemoryAccess
import OpenGPU.Lockstep.RequestWords
import OpenGPU.Lockstep.VerilogExec

/-!
# One edge of a core in every state

Outside `EXEC` the SystemVerilog core and the cycle model do the same on every edge: they
take a block, issue a warp, fetch a word and serve the lanes of a memory instruction
alike, when the memories answer alike.
-/

namespace OpenGPU

open Verilog Instruction

/-- The value of a load from the word around its address. -/
theorem loadValue_eq_loadData
    (cfg : Config)
    (mem : ShadowMemory)
    (addr inst : Word) :
    Core.loadValue cfg mem addr (funct3 inst) =
      GPUCore.loadData (Decode.funct3 inst) addr (load32 cfg mem (wordAddress addr)) := by
  have field : ∀ (value : Word) (width : Nat), 0 < width → width ≤ 32 →
      signExtend value width = (value.extractLsb' 0 width).signExtend 32 := by
    intro value width positive fits
    apply signExtend_eq_of_bits value _ positive fits
    intro bit inField
    simp [inField]
  have low : ∀ value : Word, value &&& 255 = (value.extractLsb' 0 8).setWidth 32 ∧
      value &&& 65535 = (value.extractLsb' 0 16).setWidth 32 := by
    intro value
    constructor
    · simpa using field_eq_setWidth value 0 8 255 (by decide) (by decide)
    · simpa using field_eq_setWidth value 0 16 65535 (by decide) (by decide)
  unfold Core.loadValue GPUCore.loadData
  dsimp only
  rw [toNat_lowBits, field _ 8 (by decide) (by decide), field _ 16 (by decide) (by decide),
    (low _).1, (low _).2]
  exact if_congr (funct3_eq_iff inst 0) rfl <| if_congr (funct3_eq_iff inst 1) rfl <|
    if_congr (funct3_eq_iff inst 2) rfl <| if_congr (funct3_eq_iff inst 4) rfl <|
    if_congr (funct3_eq_iff inst 5) rfl rfl

namespace SameCore

variable {cfg : Config} {c : Core} {h : GPUCore cfg}

/-! ## Issuing a warp -/

/-- The same warp is issued. -/
theorem schedule
    (same : SameCore cfg c h) :
    SameCore cfg (c.schedule cfg) h.schedule := by
  have winner : circularFirst cfg.numWarps c.rr c.valid =
      circularFirst cfg.numWarps h.rrWarp.toNat h.warpValid := by
    rw [same.rr]
    exact circularFirst_congr same.valid
  unfold Core.schedule GPUCore.schedule
  rw [winner]
  cases found : circularFirst cfg.numWarps h.rrWarp.toNat h.warpValid with
  | none => exact { same with ctaActive := rfl }
  | some selected =>
      have inTopology := circularFirst_lt found
      have room := le_two_pow_indexBits cfg.numWarps
      have exact : (BitVec.ofNat (indexBits cfg.numWarps) selected).toNat = selected := by
        rw [BitVec.toNat_ofNat, Nat.mod_eq_of_lt (by omega)]
      exact
        { same with
          state := rfl
          iw := exact.symm
          im := same.mask selected inTopology
          ip := same.pc selected inTopology }

/-! ## Taking a block -/

/-- The registers of the dispatcher as a core of the cycle model latches them. -/
structure SameLaunch {numCores : Nat} (launch : LaunchRegisters) (kmu : GPUKmu numCores) :
    Prop where
  startup : launch.startup = kmu.startupPc
  args : launch.args = kmu.argsAddr
  dim : launch.dim = kmu.blockDim
  grid : launch.grid = kmu.gridDim
  blockSize : launch.blockSize = kmu.blockSize
  block : launch.block = kmu.blockIdx

/-- The same block is latched, if C++ defines the step. -/
theorem acceptCta
    {numCores : Nat}
    {launch : LaunchRegisters}
    {kmu : GPUKmu numCores}
    (same : SameCore cfg c h)
    (sameLaunch : SameLaunch launch kmu)
    (defined : c.stepDefined cfg launch true = true) :
    SameCore cfg (c.acceptCta cfg launch) (h.acceptCta kmu) := by
  simp only [Core.stepDefined, if_true, Bool.and_eq_true, bne_iff_ne] at defined
  obtain ⟨⟨⟨shifts, x⟩, y⟩, plane⟩ := defined
  have narrow : ∀ w t, w < cfg.numWarps → t < cfg.numThreads →
      BitVec.ofNat 32 (w * cfg.numThreads + t) < launch.blockSize → t < 32 := by
    intro w t warp lane inside
    have tested := List.all_eq_true.mp (List.all_eq_true.mp shifts w (List.mem_range.mpr warp)) t
      (List.mem_range.mpr lane)
    simpa [inside] using tested
  refine
    { same with
      ctaActive := rfl
      fault := rfl
      state := rfl
      rr := (BitVec.toNat_zero).symm
      block := sameLaunch.block
      dim := sameLaunch.dim
      grid := sameLaunch.grid
      args := sameLaunch.args
      pc := fun _ _ => sameLaunch.startup
      sp := fun _ _ => rfl
      gpr := fun _ _ _ _ => rfl
      mask := fun w warp => ?_
      valid := fun w _ => ?_
      tx := fun i _ => ?_
      ty := fun i _ => ?_
      tz := fun i _ => ?_
      gid := fun i _ => ?_ }
  · intro t
    show hasLane (Core.initialMask cfg launch.blockSize w) t =
      (GPUCore.initialMask cfg kmu.blockSize w).getLsbD t
    rw [Core.initialMask, GPUCore.initialMask, hasLane_collectLanes, ← hasLane_eq_getLsbD,
      hasLane_collectLanes, sameLaunch.blockSize]
    rcases Nat.lt_or_ge t cfg.numThreads with lane | beyond
    · by_cases inside : BitVec.ofNat 32 (w * cfg.numThreads + t) < kmu.blockSize
      · have inWord := narrow w t warp lane (sameLaunch.blockSize ▸ inside)
        simp [lane, inside, inWord]
      · simp [inside]
    · simp [Nat.not_lt.mpr beyond]
  · show decide (_ < launch.blockSize) = decide _
    rw [sameLaunch.blockSize]
  · show BitVec.ofNat 32 i % launch.dim.x = modulo _ kmu.blockDim.x
    rw [← sameLaunch.dim, modulo, if_neg x]
  · show BitVec.ofNat 32 i / launch.dim.x % launch.dim.y =
      modulo (divide _ kmu.blockDim.x) kmu.blockDim.y
    rw [← sameLaunch.dim, modulo, if_neg y, divide, if_neg x]
  · show BitVec.ofNat 32 i / (launch.dim.x * launch.dim.y) =
      divide _ (kmu.blockDim.x * kmu.blockDim.y)
    rw [← sameLaunch.dim, divide, if_neg plane]
  · show Core.blockLinear launch * launch.blockSize + _ =
      GPUCore.blockLinear kmu * kmu.blockSize + _
    rw [Core.blockLinear, GPUCore.blockLinear, sameLaunch.block, sameLaunch.grid,
      sameLaunch.blockSize]

/-! ## Serving the lanes of a memory instruction -/

/-- Both are at the last lane. -/
theorem last_iff
    (same : SameCore cfg c h)
    (inRange : h.InRange) :
    c.mt = cfg.numThreads - 1 ↔ h.lastThread = true := by
  have room := le_two_pow_indexBits cfg.numThreads
  have thread := inRange.thread
  rw [GPUCore.lastThread, beq_iff_eq, same.mt, ← BitVec.toNat_inj, BitVec.toNat_ofNat,
    Nat.mod_eq_of_lt (by omega)]

/-- The next lane. -/
theorem nextLane
    (same : SameCore cfg c h)
    (inRange : h.InRange)
    (more : h.lastThread ≠ true) :
    c.mt + 1 = (h.memThread + 1).toNat := by
  have room := le_two_pow_indexBits cfg.numThreads
  have thread := inRange.thread
  have early : c.mt ≠ cfg.numThreads - 1 := fun last => more ((same.last_iff inRange).mp last)
  rw [same.mt] at early ⊢
  have one : (1 : BitVec (indexBits cfg.numThreads)).toNat = 1 := by
    show (BitVec.ofNat _ 1).toNat = 1
    rw [BitVec.toNat_ofNat, Nat.mod_eq_of_lt (by omega)]
  rw [BitVec.toNat_add, one, Nat.mod_eq_of_lt (by omega)]

/-- The warp goes on behind the memory instruction. -/
theorem finishMemory
    (same : SameCore cfg c h)
    (warp : h.issueWarp.toNat < cfg.numWarps) :
    SameCore cfg (c.finishMemory cfg) h.finishMemory := by
  have moved : SameCore cfg { c with pc := Function.update c.pc c.iw (c.ip + 4) }
      { h with warpPc := Function.update h.warpPc h.warp (h.issuePc + 4) } :=
    { same with pc := update_congr Eq same.iw same.pc (by rw [same.ip]) }
  exact moved.nextWarp warp

/-- A request, or the next lane. -/
theorem memoryRequest
    (same : SameCore cfg c h)
    (inRange : h.InRange) :
    SameCore cfg (c.memoryRequest cfg) h.memoryRequest := by
  have lane : hasLane c.im c.mt = h.issueMask.getLsbD h.memThread.toNat := by
    rw [same.im, same.mt]
  unfold Core.memoryRequest GPUCore.memoryRequest
  rw [lane]
  cases h.issueMask.getLsbD h.memThread.toNat with
  | true => exact { same with state := rfl }
  | false =>
      by_cases last : h.lastThread = true
      · rw [if_neg Bool.false_ne_true, if_pos ((same.last_iff inRange).mpr last),
          if_pos (Bool.not_false), if_pos last]
        exact same.finishMemory inRange.warp
      · rw [if_neg Bool.false_ne_true, if_neg fun here => last ((same.last_iff inRange).mp here),
          if_pos (Bool.not_false), if_neg last]
        exact { same with mt := same.nextLane inRange last }

/-- A register of one lane changes. -/
theorem writeRegister
    {gpr : Nat → Nat → Word}
    {gprs : Nat → Word}
    (rows : ∀ x r, x < cfg.contexts → r < 16 → gpr x r = gprs (x * 16 + r))
    (lane number : Nat)
    (small : number < 16)
    (value : Word) :
    ∀ x r, x < cfg.contexts → r < 16 →
      Function.update gpr lane (Function.update (gpr lane) number value) x r =
        Function.update gprs (lane * 16 + number) value (x * 16 + r) := by
  intro x r context register
  by_cases here : x = lane
  · subst here
    rw [Function.update_self]
    by_cases same : r = number
    · rw [same, Function.update_self, Function.update_self]
    · rw [Function.update_of_ne same, Function.update_of_ne (by omega)]
      exact rows x r context register
  · rw [Function.update_of_ne here, Function.update_of_ne (by omega)]
    exact rows x r context register

end SameCore

/-- The registers of the cycle model at the end of an access. -/
def Core.answered (cfg : Config) (mem : ShadowMemory) (c : Core) : Nat → Nat → Word :=
  let x := c.context cfg c.mt
  let row :=
    if opcode c.inst = 0x03 ∧ rd c.inst ≠ 0 then
      Function.update (c.gpr x) (rd c.inst).toNat
        (Core.loadValue cfg mem (c.memoryAddress cfg) (funct3 c.inst))
    else c.gpr x
  Function.update c.gpr x (Function.update row 0 0)

/-- The registers of the hardware at the end of an access. -/
def Verilog.GPUCore.answered {cfg : Config} (rdata : Word) (h : GPUCore cfg) : Nat → Word :=
  let base := h.context h.memThread.toNat * 16
  Function.update
    (if Decode.opcode h.issueInst = Decode.load ∧ Decode.rd h.issueInst ≠ 0 then
      Function.update h.gprs (base + Decode.register (Decode.rd h.issueInst))
        (GPUCore.loadData (Decode.funct3 h.issueInst) h.memoryAddress rdata)
    else h.gprs) base 0

namespace SameCore

variable {cfg : Config} {c : Core} {h : GPUCore cfg}

/-- The lane of the access has the same registers, when the memory answers with the word of
the copy. -/
theorem answered
    (same : SameCore cfg c h)
    (inRange : h.InRange)
    (legal : badRegister c.inst = false)
    (mem : ShadowMemory)
    {rdata : Word}
    (answer : Decode.opcode h.issueInst = Decode.load →
      rdata = load32 cfg mem (wordAddress h.memoryAddress)) :
    SameCore cfg { c with gpr := c.answered cfg mem } { h with gprs := h.answered rdata } := by
  have context : c.context cfg c.mt = h.context h.memThread.toNat := by
    rw [same.context, same.mt]
  have writes : opcode c.inst = 0x03 ∧ rd c.inst ≠ 0 ↔
      Decode.opcode h.issueInst = Decode.load ∧ Decode.rd h.issueInst ≠ 0 := by
    rw [same.inst]
    exact and_congr (opcode_eq_iff h.issueInst Decode.load)
      (not_congr (rd_eq_iff h.issueInst 0))
  refine { same with gpr := ?_ }
  unfold Core.answered GPUCore.answered
  dsimp only
  rw [context]
  by_cases load : Decode.opcode h.issueInst = Decode.load ∧ Decode.rd h.issueInst ≠ 0
  · have number : (rd c.inst).toNat = Decode.register (Decode.rd h.issueInst) := by
      rw [same.inst] at legal ⊢
      apply toNat_rd legal
      rw [GPUCore.writes, load.1, bne_iff_ne.mpr load.2]
      rfl
    rw [if_pos load, if_pos (writes.mpr load), number, same.memoryAddress inRange,
      same.inst, loadValue_eq_loadData, answer load.1]
    have loaded := writeRegister same.gpr (h.context h.memThread.toNat)
      (Decode.register (Decode.rd h.issueInst)) (register_lt _)
      (GPUCore.loadData (Decode.funct3 h.issueInst) h.memoryAddress
        (load32 cfg mem (wordAddress h.memoryAddress)))
    have cleared := writeRegister loaded (h.context h.memThread.toNat) 0 (by decide) 0
    simpa using cleared
  · rw [if_neg load, if_neg fun there => load (writes.mp there)]
    exact writeRegister same.gpr _ 0 (by decide) 0

/-- The end of an access. -/
theorem memoryResponse
    (same : SameCore cfg c h)
    (inRange : h.InRange)
    (legal : badRegister c.inst = false)
    (mem : ShadowMemory)
    {rdata : Word}
    (answer : Decode.opcode h.issueInst = Decode.load →
      rdata = load32 cfg mem (wordAddress h.memoryAddress)) :
    SameCore cfg (c.memoryResponse cfg mem) (h.memoryResponse rdata) := by
  have written := same.answered inRange legal mem answer
  show SameCore cfg (if c.mt = cfg.numThreads - 1 then
      Core.finishMemory cfg { c with gpr := c.answered cfg mem }
    else { c with gpr := c.answered cfg mem, mt := c.mt + 1, state := .memReq })
    (if h.lastThread = true then GPUCore.finishMemory { h with gprs := h.answered rdata }
    else { h with gprs := h.answered rdata, memThread := h.memThread + 1, state := .memReq })
  by_cases last : h.lastThread = true
  · rw [if_pos last, if_pos ((same.last_iff inRange).mpr last)]
    exact written.finishMemory inRange.warp
  · rw [if_neg last, if_neg fun here => last ((same.last_iff inRange).mp here)]
    exact { written with state := rfl, mt := same.nextLane inRange last }

/-! ## One edge -/

/-- What an edge outside reset assumes of the rest of the GPU. -/
structure EdgeAgrees {numCores : Nat} (cfg : Config) (c : Core) (h : GPUCore cfg)
    (mem : ShadowMemory) (launch : LaunchRegisters) (fire ctaValid : Bool) (kmu : GPUKmu numCores)
    (imemRdata dmemRdata : Word) : Prop where
  fires : fire = (ctaValid && h.ctaReady)
  latches : SameLaunch launch kmu
  defined : c.stepDefined cfg launch fire = true
  legal : c.state = .memReq ∨ c.state = .memResp → badRegister c.inst = false
  issued : c.ctaActive = true → c.state = .exec → c.im ≠ 0
  served : h.ctaActive = true → h.state = .memResp →
    h.issueMask.getLsbD h.memThread.toNat = true
  fetches : h.state = .fetch → imemRdata = load32 cfg mem h.issuePc
  loads : h.state = .memResp → h.dmemRen = true →
    dmemRdata = load32 cfg mem (wordAddress h.memoryAddress)

variable {numCores : Nat} {mem : ShadowMemory} {launch : LaunchRegisters} {fire ctaValid : Bool}
  {kmu : GPUKmu numCores} {imemRdata dmemRdata : Word}

/-- In `EXEC` a memory instruction starts with the first lane, and all others are those of
`exec_lockstep_iff`. -/
theorem execute_iff_shiftsNegative
    (same : SameCore cfg c h)
    (inRange : h.InRange)
    (active : c.ctaActive = true)
    (issued : c.im ≠ 0)
    (cid : Nat) :
    SameCore cfg (c.execute cfg cid) (h.execute cid) ↔ ¬h.ShiftsNegative := by
  have memory : opcode c.inst = 0x03 ∨ opcode c.inst = 0x23 ↔
      Decode.opcode h.issueInst = Decode.load ∨ Decode.opcode h.issueInst = Decode.store := by
    rw [same.inst]
    exact or_congr (opcode_eq_iff h.issueInst Decode.load) (opcode_eq_iff h.issueInst Decode.store)
  by_cases load : opcode c.inst = 0x03 ∨ opcode c.inst = 0x23
  · have register : badRegister c.inst = Decode.badRegister h.issueInst := by
      rw [same.inst, badRegister_eq]
    refine iff_of_true ?_ fun negative => ?_
    · unfold Core.execute GPUCore.execute
      rw [if_pos load, if_pos (memory.mp load), register]
      by_cases bad : Decode.badRegister h.issueInst = true
      · rw [if_pos bad, if_pos bad]
        exact { same.raise with state := rfl }
      · rw [if_neg bad, if_neg bad]
        exact { same with mt := BitVec.toNat_zero.symm, state := rfl }
    · have shift := negative.2.2.1
      unfold isArithmeticShift at shift
      rcases memory.mp load with here | here <;> simp [here, Decode.load, Decode.store] at shift
  · obtain ⟨noLoad, noStore⟩ := not_or.mp load
    exact same.execute_iff inRange (same.im.ne_zero_iff.mp issued) active noLoad noStore cid

/-- One edge of the core is one step of the cycle model, unless a lane shifts a negative
value arithmetically. -/
theorem posedge_iff
    (same : SameCore cfg c h)
    (inRange : h.InRange)
    (agrees : EdgeAgrees cfg c h mem launch fire ctaValid kmu imemRdata dmemRdata)
    (cid : Nat) :
    SameCore cfg (c.stepCore cfg mem launch cid fire)
        (h.posedge cid false ctaValid kmu imemRdata dmemRdata) ↔
      (h.state = .exec → ¬h.ShiftsNegative) := by
  have defined := agrees.defined
  unfold Core.stepCore GPUCore.posedge
  rw [if_neg Bool.false_ne_true, ← agrees.fires]
  by_cases fires : fire = true
  · rw [fires] at defined
    rw [if_pos fires, if_pos fires]
    refine iff_of_true (same.acceptCta agrees.latches defined) fun exec => ?_
    have ready := (Bool.and_eq_true_iff.mp (agrees.fires.symm.trans fires)).2
    rw [GPUCore.ctaReady, exec] at ready
    simp at ready
  · rw [if_neg fires, if_neg fires]
    by_cases active : h.ctaActive = true
    · have running : c.ctaActive = true := same.ctaActive.trans active
      have stateIs : ∀ state, h.state = state → c.state = state.state := by
        intro state here
        rw [same.state, here]
      rw [if_neg (by rw [running]; decide), if_pos active]
      cases state : h.state with
      | sched =>
          rw [stateIs .sched state]
          exact iff_of_true same.schedule fun exec => Fsm.noConfusion exec
      | fetch =>
          rw [stateIs .fetch state]
          have fetched : load32 cfg mem c.ip = imemRdata := by
            rw [agrees.fetches state, same.ip]
          exact iff_of_true { same with state := rfl, inst := fetched } fun exec =>
            Fsm.noConfusion exec
      | exec =>
          rw [stateIs .exec state]
          simp only [forall_const]
          exact same.execute_iff_shiftsNegative inRange running
            (agrees.issued running (stateIs .exec state)) cid
      | memReq =>
          rw [stateIs .memReq state]
          exact iff_of_true (same.memoryRequest inRange) fun exec => Fsm.noConfusion exec
      | memResp =>
          rw [stateIs .memResp state]
          refine iff_of_true ?_ fun exec => Fsm.noConfusion exec
          apply same.memoryResponse inRange (agrees.legal (Or.inr (stateIs .memResp state))) mem
          intro load
          apply agrees.loads state
          rw [GPUCore.dmemRen, state, load, agrees.served active state]
          rfl
    · rw [if_neg active, if_pos (by rw [same.ctaActive]; simpa using active)]
      exact iff_of_true same fun _ negative => active negative.1

end SameCore

end OpenGPU
