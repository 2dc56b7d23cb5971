import OpenGPU.Chisel.Handshake
import OpenGPU.Foundation.Clocked
import OpenGPU.Platform.Config

/-!
# The cycles of an instruction in the Chisel core

Where no request waits, an instruction takes its cycles through the five states
as if the memories were wires: one cycle each in `sSchedule`, `sFetch` and
`sExecute`, then two for every active lane of a load or store and one for every
other lane. The port of a memory is enabled in the cycle that asks, and in no
other.
-/

namespace OpenGPU

namespace Chisel

open Verilog Verilog.Decode

namespace CoreTile

variable {cfg : Config} {numCores : Nat} {tile : CoreTile cfg}

/-! ## The cycles of an instruction -/

/-- What a core shows in one cycle: its state, the lane of a memory state, and
the enables of its ports. -/
structure Cycle where
  state : Fsm
  lane : Option Nat
  instRen : Bool
  dataRen : Bool
  dataWen : Bool
  deriving DecidableEq

/-- What the tile shows before an edge. -/
def cycle (tile : CoreTile cfg) : Cycle where
  state := tile.core.state
  lane :=
    if tile.core.state = .memReq ∨ tile.core.state = .memResp then
      some tile.core.memThread.toNat
    else none
  instRen := tile.imemRen
  dataRen := tile.dmemRen
  dataWen := tile.dmemWen

/-- A cycle without an access. -/
def Cycle.quiet (state : Fsm) (lane : Option Nat) : Cycle := ⟨state, lane, false, false, false⟩

/-- The cycles of one lane of a load or store. An active lane enables its port in
the first of two cycles. -/
def laneCycles {count : Nat} (inst : Word) (mask : BitVec count) (t : Nat) : List Cycle :=
  if mask.getLsbD t then
    [⟨.memReq, some t, false, opcode inst == load, opcode inst == store⟩,
      Cycle.quiet .memResp (some t)]
  else [Cycle.quiet .memReq (some t)]

/-- The cycles of one instruction from `sExecute` on. -/
def issuedCycles {count : Nat} (inst : Word) (mask : BitVec count) : List Cycle :=
  Cycle.quiet .exec none ::
    if Core.accesses inst then (List.range count).flatMap (laneCycles inst mask) else []

/-- The cycles of one instruction from `sSchedule` on. -/
def instructionCycles {count : Nat} (inst : Word) (mask : BitVec count) : List Cycle :=
  ⟨.sched, none, true, false, false⟩ :: Cycle.quiet .fetch none :: issuedCycles inst mask

/-- The core serves lane `t` of a load or store. -/
structure AtLane (inst : Word) (mask : BitVec cfg.numThreads) (state : Fsm) (t : Nat)
    (tile : CoreTile cfg) : Prop where
  shake : tile.Handshaking
  state_eq : tile.core.state = state
  inst_eq : tile.core.issueInst = inst
  mask_eq : tile.core.issueMask = mask
  thread_eq : tile.core.memThread = BitVec.ofNat _ t

/-- The core is back in `sSchedule`. -/
structure Scheduling (tile : CoreTile cfg) : Prop where
  shake : tile.Handshaking
  state_eq : tile.core.state = .sched

namespace AtLane

variable {inst : Word} {mask : BitVec cfg.numThreads} {state : Fsm} {t : Nat}

theorem thread_toNat
    (here : AtLane inst mask state t tile)
    (lane : t < cfg.numThreads) :
    tile.core.memThread.toNat = t := by
  have room := le_two_pow_indexBits cfg.numThreads
  rw [here.thread_eq, BitVec.toNat_ofNat, Nat.mod_eq_of_lt (by omega)]

theorem memLaneActive_eq
    (here : AtLane inst mask state t tile)
    (lane : t < cfg.numThreads) :
    tile.core.memLaneActive = mask.getLsbD t := by
  rw [Core.memLaneActive, here.thread_toNat lane, here.mask_eq]

theorem core_active
    (here : AtLane inst mask state t tile)
    (away : state ≠ .sched) :
    tile.core.ctaActive = true :=
  here.shake.active (here.state_eq ▸ away)

/-- A core that leaves a lane asks for the next one or is done. -/
theorem leaves
    (lane : t < cfg.numThreads)
    {core : Core cfg}
    {next : CoreTile cfg}
    (shake : next.Handshaking)
    (advances : next.core = Core.advanceMem core)
    (inst_eq : core.issueInst = inst)
    (mask_eq : core.issueMask = mask)
    (thread_eq : core.memThread = BitVec.ofNat _ t) :
    if t + 1 = cfg.numThreads then next.Scheduling else AtLane inst mask .memReq (t + 1) next := by
  have last_iff : core.memThread = BitVec.ofNat _ (cfg.numThreads - 1) ↔
      t + 1 = cfg.numThreads := by
    rw [thread_eq]
    exact ofNat_eq_last_iff lane
  unfold Core.advanceMem at advances
  split_ifs with last
  · rw [if_pos (last_iff.mpr last)] at advances
    exact ⟨shake, by rw [advances]; rfl⟩
  · rw [if_neg fun final => last (last_iff.mp final)] at advances
    refine ⟨shake, ?_, ?_, ?_, ?_⟩
    · rw [advances]
    · rw [advances, ← inst_eq]
    · rw [advances, ← mask_eq]
    · rw [advances, thread_eq]
      exact (BitVec.ofNat_add ..).symm

/-- What a core shows that serves a lane. -/
theorem cycle_eq
    (here : AtLane inst mask state t tile)
    (lane : t < cfg.numThreads)
    (memory : state = .memReq ∨ state = .memResp) :
    tile.cycle =
      ⟨state, some t, false, state == .memReq && mask.getLsbD t && opcode inst == load,
        state == .memReq && mask.getLsbD t && opcode inst == store⟩ := by
  have noFetch : tile.core.instReqValid = false := by
    unfold Core.instReqValid
    rw [here.state_eq]
    rcases memory with rfl | rfl <;> simp
  unfold cycle imemRen dmemRen dmemWen
  rw [here.shake.instReqFire_eq, here.shake.dataReqFire_eq, noFetch, Core.reqValid,
    here.memLaneActive_eq lane, here.thread_toNat lane, here.state_eq, here.inst_eq, if_pos memory]

/-- An inactive lane is left without a request. -/
theorem skip
    (here : AtLane inst mask .memReq t tile)
    (lane : t < cfg.numThreads)
    (inactive : mask.getLsbD t = false)
    (coreId : Nat)
    {inputs : TileInputs numCores}
    (running : inputs.reset = false) :
    if t + 1 = cfg.numThreads then (tile.posedge coreId inputs).Scheduling
    else AtLane inst mask .memReq (t + 1) (tile.posedge coreId inputs) := by
  apply leaves lane (here.shake.posedge coreId inputs) ?_ here.inst_eq here.mask_eq here.thread_eq
  rw [here.shake.core_posedge (here.core_active (by decide)) coreId running, here.state_eq]
  show Core.memoryRequest true tile.core = _
  rw [Core.memoryRequest, here.memLaneActive_eq lane, inactive]
  rfl

/-- The request of an active lane is accepted at once. -/
theorem ask
    (here : AtLane inst mask .memReq t tile)
    (lane : t < cfg.numThreads)
    (active : mask.getLsbD t = true)
    (coreId : Nat)
    {inputs : TileInputs numCores}
    (running : inputs.reset = false) :
    AtLane inst mask .memResp t (tile.posedge coreId inputs) := by
  have core : (tile.posedge coreId inputs).core = { tile.core with state := .memResp } := by
    rw [here.shake.core_posedge (here.core_active (by decide)) coreId running, here.state_eq]
    show Core.memoryRequest true tile.core = _
    rw [Core.memoryRequest, here.memLaneActive_eq lane, active]
    rfl
  refine ⟨here.shake.posedge coreId inputs, ?_, ?_, ?_, ?_⟩
  · rw [core]
  · rw [core, here.inst_eq]
  · rw [core, here.mask_eq]
  · rw [core, here.thread_eq]

/-- The answer to a lane is taken at once. -/
theorem answer
    (here : AtLane inst mask .memResp t tile)
    (lane : t < cfg.numThreads)
    (coreId : Nat)
    {inputs : TileInputs numCores}
    (running : inputs.reset = false) :
    if t + 1 = cfg.numThreads then (tile.posedge coreId inputs).Scheduling
    else AtLane inst mask .memReq (t + 1) (tile.posedge coreId inputs) := by
  have core : (tile.posedge coreId inputs).core =
      Core.memoryResponse tile.dmem.response tile.core := by
    rw [here.shake.core_posedge (here.core_active (by decide)) coreId running, here.state_eq]
  exact leaves lane (here.shake.posedge coreId inputs) core here.inst_eq here.mask_eq
    here.thread_eq

end AtLane

/-- A tile shows `shown` on the edges outside reset. -/
def Performs (numCores coreId : Nat) (after : CoreTile cfg → Prop) (shown : List Cycle)
    (tile : CoreTile cfg) : Prop :=
  Shows (fun tile inputs => tile.posedge coreId inputs) cycle
    (fun inputs : TileInputs numCores => inputs.reset = false) after shown tile

section Performs

variable {inst : Word} {mask : BitVec cfg.numThreads} {t : Nat}

/-- A lane takes its cycles, and the next lane or the end follows. -/
theorem AtLane.performs
    (here : AtLane inst mask .memReq t tile)
    (lane : t < cfg.numThreads)
    (coreId : Nat) :
    Performs numCores coreId
      (fun next =>
        if t + 1 = cfg.numThreads then next.Scheduling else AtLane inst mask .memReq (t + 1) next)
      (laneCycles inst mask t) tile := by
  have shown := here.cycle_eq lane (Or.inl rfl)
  unfold laneCycles
  cases active : mask.getLsbD t with
  | false =>
      rw [active] at shown
      exact ⟨shown, fun inputs running => here.skip lane active coreId running⟩
  | true =>
      rw [active] at shown
      refine ⟨shown, fun inputs running => ?_⟩
      have waiting := here.ask lane active coreId running
      exact ⟨waiting.cycle_eq lane (Or.inr rfl), fun inputs running =>
        waiting.answer lane coreId running⟩

/-- The lanes from `t` on take their cycles in order. -/
theorem AtLane.performs_from
    {lanes : Nat}
    (here : AtLane inst mask .memReq t tile)
    (positive : 0 < lanes)
    (rest : t + lanes = cfg.numThreads)
    (coreId : Nat) :
    Performs numCores coreId Scheduling
      ((List.range' t lanes).flatMap (laneCycles inst mask)) tile := by
  induction lanes generalizing t tile with
  | zero => exact absurd positive (Nat.lt_irrefl 0)
  | succ lanes inductionHypothesis =>
      rw [List.range'_succ, List.flatMap_cons]
      refine (here.performs (by omega) coreId).append fun next onward => ?_
      rcases Nat.eq_zero_or_pos lanes with rfl | more
      · exact (if_pos rest).mp onward
      · exact inductionHypothesis ((if_neg (by omega)).mp onward) more (by omega)

end Performs

/-! ### From `sSchedule` to `sSchedule` -/

/-- The core waits for the word of an instruction or executes it. -/
structure Issued (inst : Word) (mask : BitVec cfg.numThreads) (tile : CoreTile cfg) : Prop where
  shake : tile.Handshaking
  state_eq : tile.core.state = .exec
  inst_eq : tile.core.issueInst = inst
  mask_eq : tile.core.issueMask = mask

variable {inst : Word} {mask : BitVec cfg.numThreads}

/-- What a core shows outside the memory states. -/
theorem Handshaking.cycle_eq
    (shake : tile.Handshaking)
    (memReq : tile.core.state ≠ .memReq)
    (memResp : tile.core.state ≠ .memResp) :
    tile.cycle = ⟨tile.core.state, none, tile.core.instReqValid, false, false⟩ := by
  have noAccess : tile.core.reqValid = false := by
    unfold Core.reqValid
    rw [beq_eq_false_iff_ne.mpr memReq, Bool.false_and]
  unfold cycle imemRen dmemRen dmemWen
  rw [shake.instReqFire_eq, shake.dataReqFire_eq, noAccess, Bool.false_and, Bool.false_and,
    if_neg (not_or.mpr ⟨memReq, memResp⟩)]

/-- The rest of an issued instruction. -/
theorem Issued.performs
    (issued : Issued inst mask tile)
    (coreId : Nat) :
    Performs numCores coreId Scheduling (issuedCycles inst mask) tile := by
  have away : tile.core.state ≠ .sched := by
    rw [issued.state_eq]
    decide
  have shown := issued.shake.cycle_eq (by rw [issued.state_eq]; decide)
    (by rw [issued.state_eq]; decide)
  have noFetch : tile.core.instReqValid = false := by
    unfold Core.instReqValid
    rw [issued.state_eq]
    simp
  rw [issued.state_eq, noFetch] at shown
  unfold issuedCycles
  refine ⟨shown, fun inputs running => ?_⟩
  have core : (tile.posedge coreId inputs).core = Core.execute coreId tile.core := by
    rw [issued.shake.core_posedge (issued.shake.active away) coreId running, issued.state_eq]
  have shake := issued.shake.posedge coreId inputs
  cases memory : Core.accesses inst with
  | false =>
      refine ⟨shake, ?_⟩
      rw [core, Core.state_execute, issued.inst_eq, memory]
      rfl
  | true =>
      rw [← issued.inst_eq] at memory
      rw [Core.execute_of_accesses memory] at core
      rw [if_pos rfl, List.range_eq_range']
      apply AtLane.performs_from _ cfg.numThreads_pos (Nat.zero_add _)
      refine ⟨shake, ?_, ?_, ?_, ?_⟩
      · rw [core]
      · rw [core, issued.inst_eq]
      · rw [core, issued.mask_eq]
      · rw [core]
        rfl

/-- The core waits for the word of an instruction. -/
structure Fetching (inst : Word) (mask : BitVec cfg.numThreads) (tile : CoreTile cfg) : Prop where
  shake : tile.Handshaking
  state_eq : tile.core.state = .fetch
  response_eq : tile.imem.response = inst
  mask_eq : tile.core.issueMask = mask

/-- The word of an instruction is taken at once. -/
theorem Fetching.performs
    (fetching : Fetching inst mask tile)
    (coreId : Nat) :
    Performs numCores coreId (Issued inst mask) [Cycle.quiet .fetch none] tile := by
  have away : tile.core.state ≠ .sched := by
    rw [fetching.state_eq]
    decide
  have shown := fetching.shake.cycle_eq (by rw [fetching.state_eq]; decide)
    (by rw [fetching.state_eq]; decide)
  have noFetch : tile.core.instReqValid = false := by
    unfold Core.instReqValid
    rw [fetching.state_eq]
    simp
  rw [fetching.state_eq, noFetch] at shown
  refine ⟨shown, fun inputs running => ?_⟩
  have core : (tile.posedge coreId inputs).core =
      { tile.core with issueInst := tile.imem.response, state := .exec } := by
    rw [fetching.shake.core_posedge (fetching.shake.active away) coreId running,
      fetching.state_eq]
  refine ⟨fetching.shake.posedge coreId inputs, ?_, ?_, ?_⟩
  · rw [core]
  · rw [core, fetching.response_eq]
  · rw [core, fetching.mask_eq]

/-- The request for an instruction is accepted at once. -/
theorem Handshaking.fetching
    (shake : tile.Handshaking)
    (valid : tile.core.instReqValid = true)
    (coreId : Nat)
    {inputs : TileInputs numCores}
    (running : inputs.reset = false) :
    Fetching inputs.imemRdata (tile.core.warpMask tile.core.selectedWarp.toNat)
      (tile.posedge coreId inputs) := by
  have fires : tile.instReqFire = true := by rw [shake.instReqFire_eq, valid]
  refine ⟨shake.posedge coreId inputs, (shake.fetch_iff coreId running).mpr valid, ?_, ?_⟩
  · show (if tile.instReqFire then inputs.imemRdata else tile.imem.response) = inputs.imemRdata
    rw [if_pos fires]
  · unfold Core.instReqValid at valid
    rw [Bool.and_eq_true, Bool.and_eq_true, beq_iff_eq, bne_iff_ne] at valid
    rw [shake.core_posedge valid.1.1 coreId running, valid.1.2]
    show (Core.schedule true tile.core).issueMask = _
    rw [Core.schedule, if_pos valid.2]
    rfl

/-- The cycles of the instruction that a core asks for. -/
def cyclesAhead (tile : CoreTile cfg) (inputs : Nat → TileInputs numCores) : List Cycle :=
  instructionCycles (inputs 0).imemRdata (tile.core.warpMask tile.core.selectedWarp.toNat)

/-- What a run shows in its first cycles. -/
def shownCycles (coreId : Nat) (tile : CoreTile cfg) (inputs : Nat → TileInputs numCores)
    (edges : Nat) : List Cycle :=
  logAt (fun tile inputs => tile.posedge coreId inputs) (fun tile _ => [tile.cycle]) tile inputs
    edges

/-- The tile after some edges. -/
def afterEdges (coreId : Nat) (tile : CoreTile cfg) (inputs : Nat → TileInputs numCores)
    (edges : Nat) : CoreTile cfg :=
  stateAt (fun tile inputs => tile.posedge coreId inputs) tile inputs edges

/-- An instruction takes its cycles from `sSchedule` to `sSchedule`. -/
theorem Handshaking.instruction
    (shake : tile.Handshaking)
    (valid : tile.core.instReqValid = true)
    (coreId : Nat)
    {inputs : Nat → TileInputs numCores}
    (running : ∀ edge, edge < (tile.cyclesAhead inputs).length → (inputs edge).reset = false) :
    tile.shownCycles coreId inputs (tile.cyclesAhead inputs).length = tile.cyclesAhead inputs ∧
      (tile.afterEdges coreId inputs (tile.cyclesAhead inputs).length).core.state = .sched := by
  have scheduling : tile.core.state = .sched := by
    unfold Core.instReqValid at valid
    simp_all
  have first := shake.cycle_eq (by rw [scheduling]; decide) (by rw [scheduling]; decide)
  rw [scheduling, valid] at first
  have fetching := shake.fetching valid coreId (running 0 (Nat.succ_pos _))
  have rest : Performs numCores coreId Scheduling
      ([Cycle.quiet .fetch none] ++ issuedCycles (inputs 0).imemRdata
        (tile.core.warpMask tile.core.selectedWarp.toNat)) (tile.posedge coreId (inputs 0)) :=
    (fetching.performs coreId).append fun next issued => issued.performs coreId
  unfold cyclesAhead instructionCycles at running ⊢
  rw [← first]
  have logged := logAt_observe_succ (rest.log fun edge before => running (1 + edge) (by
    rw [List.length_cons, Nat.add_comm]
    exact Nat.succ_lt_succ before))
  exact ⟨logged.1, logged.2.state_eq⟩

/-! ### Enables of the ports -/

/-- The data port is enabled for lane `t`. -/
def Cycle.enablesLane (t : Nat) (cycle : Cycle) : Bool :=
  cycle.lane == some t && (cycle.dataRen || cycle.dataWen)

/-- The cycles of a lane enable the port once, for this lane, if it is active. -/
theorem countP_laneCycles
    {count : Nat}
    {mask : BitVec count}
    (memory : Core.accesses inst = true)
    (t lane : Nat) :
    (laneCycles inst mask lane).countP (Cycle.enablesLane t) =
      if lane = t ∧ mask.getLsbD t = true then 1 else 0 := by
  have port : (opcode inst == load || opcode inst == store) = true := by
    unfold Core.accesses at memory
    exact (Bool.and_eq_true_iff.mp memory).2
  unfold laneCycles
  by_cases here : lane = t
  · subst here
    cases active : mask.getLsbD lane with
    | false => simp [Cycle.enablesLane, Cycle.quiet]
    | true => simp [Cycle.enablesLane, Cycle.quiet, port]
  · rw [show (if lane = t ∧ mask.getLsbD t = true then 1 else 0) = 0 from
      if_neg fun both => here both.1]
    split_ifs <;> simp [Cycle.enablesLane, Cycle.quiet, here]

/-- The cycles of an instruction enable the data port once for every active lane
of a load or store. -/
theorem countP_enablesLane
    {count : Nat}
    (inst : Word)
    (mask : BitVec count)
    (t : Nat) :
    (instructionCycles inst mask).countP (Cycle.enablesLane t) =
      if Core.accesses inst && mask.getLsbD t then 1 else 0 := by
  have lanes (memory : Core.accesses inst = true) (bound : Nat) :
      ((List.range bound).flatMap (laneCycles inst mask)).countP (Cycle.enablesLane t) =
        if t < bound ∧ mask.getLsbD t = true then 1 else 0 := by
    induction bound with
    | zero => simp
    | succ bound inductionHypothesis =>
        rw [List.range_succ, List.flatMap_append, List.countP_append, inductionHypothesis,
          List.flatMap_cons, List.flatMap_nil, List.append_nil, countP_laneCycles memory]
        cases mask.getLsbD t with
        | false => simp
        | true =>
            simp only [and_true]
            split_ifs <;> omega
  unfold instructionCycles issuedCycles
  rw [List.countP_cons_of_neg (by simp [Cycle.enablesLane]),
    List.countP_cons_of_neg (by simp [Cycle.enablesLane, Cycle.quiet]),
    List.countP_cons_of_neg (by simp [Cycle.enablesLane, Cycle.quiet])]
  cases memory : Core.accesses inst with
  | false => rfl
  | true =>
      rw [if_pos rfl, lanes memory, Bool.true_and]
      refine if_congr ⟨fun both => both.2, fun active => ⟨?_, active⟩⟩ rfl rfl
      exact BitVec.lt_of_getLsbD active

/-- The cycles of an instruction enable the instruction port once. -/
theorem countP_instRen
    {count : Nat}
    (inst : Word)
    (mask : BitVec count) :
    (instructionCycles inst mask).countP Cycle.instRen = 1 := by
  have lanes : ∀ cycle ∈ (List.range count).flatMap (laneCycles inst mask),
      ¬cycle.instRen = true := by
    intro cycle member
    obtain ⟨t, _, shown⟩ := List.mem_flatMap.mp member
    unfold laneCycles at shown
    split_ifs at shown <;> simp [Cycle.quiet] at shown
    · rcases shown with rfl | rfl <;> exact Bool.false_ne_true
    · rw [shown]
      exact Bool.false_ne_true
  unfold instructionCycles issuedCycles
  rw [List.countP_cons_of_pos rfl, List.countP_cons_of_neg (by simp [Cycle.quiet]),
    List.countP_cons_of_neg (by simp [Cycle.quiet])]
  split_ifs
  · rw [List.countP_eq_zero.mpr lanes]
  · rfl

/-! ## Every reachable state -/

/-- In every reachable state of a core with its two memories, an answer is pending
exactly in the state that waits for it and a core without a block is in
`sSchedule`. So every request is accepted in its cycle, the core is ready as the
SystemVerilog core is, and an instruction that is not cut short by a reset takes
its cycles, with one enable for the fetch and one for every active lane of a load
or store. -/
theorem busHandshake
    {coreId : Nat}
    (reachable : Reachable numCores coreId tile) :
    (tile.imem.pending = true ↔ tile.core.state = .fetch) ∧
      (tile.dmem.pending = true ↔ tile.core.state = .memResp) ∧
      (tile.core.ctaActive = false → tile.core.state = .sched) ∧
      (tile.core.instReqValid = true → tile.instReqFire = true) ∧
      (tile.core.reqValid = true → tile.dataReqFire = true) ∧
      Core.ctaReady tile.core = GPUCore.ctaReady tile.core ∧
      ∀ inputs : Nat → TileInputs numCores, tile.core.instReqValid = true →
        (∀ edge, edge < (tile.cyclesAhead inputs).length → (inputs edge).reset = false) →
        tile.shownCycles coreId inputs (tile.cyclesAhead inputs).length =
            tile.cyclesAhead inputs ∧
          (tile.afterEdges coreId inputs (tile.cyclesAhead inputs).length).core.state = .sched ∧
          (tile.cyclesAhead inputs).countP Cycle.instRen = 1 ∧
          ∀ t, (tile.cyclesAhead inputs).countP (Cycle.enablesLane t) =
            if Core.accesses (inputs 0).imemRdata &&
                (tile.core.warpMask tile.core.selectedWarp.toNat).getLsbD t then 1
            else 0 := by
  have shake := reachable.handshaking
  refine ⟨shake.inst, shake.data, shake.settled, ?_, ?_, ?_, ?_⟩
  · intro valid
    rw [shake.instReqFire_eq, valid]
  · intro valid
    rw [shake.dataReqFire_eq, valid]
  · exact (GPUCore.Settled.ctaReady shake.settled).symm
  · intro inputs valid running
    obtain ⟨shown, ended⟩ := shake.instruction valid coreId running
    exact ⟨shown, ended, countP_instRen _ _, countP_enablesLane _ _⟩

/-- Inputs that offer a block of one thread, with one word behind both ports. -/
def offering (reset ctaValid : Bool) (word : Word) : TileInputs 1 where
  reset := reset
  ctaValid := ctaValid
  kmu := { GPUKmu.fresh with blockSize := 1 }
  imemRdata := word
  dmemRdata := word

/-- A core of two lanes that has taken a block of one thread after reset. -/
def oneThread : CoreTile Config.onePair :=
  (CoreTile.posedge 0 ⟨GPUCore.fresh, ⟨false, 0⟩, ⟨false, 0⟩⟩ (offering true false 0)).posedge 0
    (offering false true 0)

/-- The core loads a word: its second lane has no thread. -/
theorem busHandshake_load :
    oneThread.instReqFire = true ∧
      oneThread.shownCycles 0 (fun _ => offering false false 0x00002083) 6 =
        [⟨.sched, none, true, false, false⟩, ⟨.fetch, none, false, false, false⟩,
          ⟨.exec, none, false, false, false⟩, ⟨.memReq, some 0, false, true, false⟩,
          ⟨.memResp, some 0, false, false, false⟩, ⟨.memReq, some 1, false, false, false⟩] := by
  have reachable : Reachable 1 0 oneThread :=
    Reachable.edge _ (Reachable.reset _ _ rfl)
  obtain ⟨_, _, _, accepted, _, _, cycles⟩ := busHandshake reachable
  have valid : oneThread.core.instReqValid = true := by decide
  exact ⟨accepted valid, (cycles (fun _ => offering false false 0x00002083) valid
    fun _ _ => rfl).1⟩

end CoreTile

end Chisel

end OpenGPU
