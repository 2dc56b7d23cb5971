import OpenGPU.Lockstep.MemoryStage

/-!
# The memory stages of the Scala backends

Both stages serve the lanes as the SystemVerilog stage does. The Chisel memory
answers from a register; the SpinalHDL core captures the word of a load when it
asks.
-/

namespace OpenGPU

open Verilog

variable {cfg : Config} {h : GPUCore cfg} {t : Nat}

/-! ## Chisel -/

namespace Chisel.Core

open Verilog.GPUCore

/-- The minor opcodes of the Chisel core. -/
def rules : AccessRules where
  mask f3 offset :=
    let shifted : BitVec 7 :=
      if f3 = 0 then (1 : BitVec 7) <<< offset
      else if f3 = 1 then (3 : BitVec 7) <<< offset
      else if f3 = 2 then 0b1111
      else 0
    (shifted.setWidth 4).setWidth 8
  value := GPUCore.rules.value

theorem advanceMem_eq
    (h : GPUCore cfg) :
    advanceMem h =
      if h.lastThread then h.finishMemory
      else { h with memThread := h.memThread + 1, state := .memReq } := by
  unfold advanceMem lastThread
  exact if_congr beq_iff_eq.symm rfl rfl

theorem inStage_memAddr
    (inRange : h.InRange)
    (lane : t < cfg.numThreads)
    (state : Fsm)
    (gprs : Nat → Word) :
    memAddr (h.inStage state t gprs) = h.accessAddress gprs t := by
  rw [memAddr_eq (inRange.inStage lane state gprs), inStage_memoryAddress lane]

/-- A lane without a request in the Chisel core. -/
theorem memoryRequest_idle
    (lane : t < cfg.numThreads)
    (idle : h.issueMask.getLsbD t = false)
    (reqReady : Bool)
    (gprs : Nat → Word) :
    memoryRequest reqReady (h.inStage .memReq t gprs) =
      if t + 1 = cfg.numThreads then h.afterStage gprs else h.inStage .memReq (t + 1) gprs := by
  unfold memoryRequest memLaneActive
  rw [inStage_active lane, idle, if_pos Bool.not_false, advanceMem_eq]
  exact inStage_advance lane h .memReq gprs

/-- A lane with a request that the memory takes. -/
theorem memoryRequest_active
    (lane : t < cfg.numThreads)
    (now : h.issueMask.getLsbD t = true)
    (gprs : Nat → Word) :
    memoryRequest true (h.inStage .memReq t gprs) = h.inStage .memResp t gprs := by
  unfold memoryRequest memLaneActive
  rw [inStage_active lane, now, if_neg (by decide), if_pos rfl]
  rfl

/-- What the memory answers to a request. -/
def answerOf (h : GPUCore cfg) (t : Nat) (d : StageData) : Word :=
  if Decode.opcode h.issueInst = Decode.load then
    pmemWord cfg d.pmem (wordAddress (h.accessAddress d.gprs t))
  else 0

/-- The end of an access in the Chisel core. -/
theorem memoryResponse_inStage
    (inRange : h.InRange)
    (lane : t < cfg.numThreads)
    (d : StageData) :
    memoryResponse (answerOf h t d) (h.inStage .memResp t d.gprs) =
      if t + 1 = cfg.numThreads then h.afterStage (finishLane rules h t d).gprs
      else h.inStage .memReq (t + 1) (finishLane rules h t d).gprs := by
  have place : ∀ field, (registerIndex (regBase (context (h.inStage .memResp t d.gprs)
      (h.inStage .memResp t d.gprs).memThread.toNat)) field).toNat =
        h.context t * 16 + Decode.register field := by
    intro field
    rw [toNat_memThread lane, toNat_registerIndex (inRange.inStage lane _ _) lane]
    rfl
  have zero : (regBase (context (h.inStage .memResp t d.gprs)
      (h.inStage .memResp t d.gprs).memThread.toNat)).toNat = h.context t * 16 := by
    rw [toNat_memThread lane, toNat_regBase_context (inRange.inStage lane _ _) lane]
    rfl
  rw [← inStage_advance lane h .memResp]
  unfold memoryResponse
  dsimp only
  rw [advanceMem_eq, place, zero]
  unfold loaded
  dsimp only
  rw [memShift_eq, inStage_memAddr inRange lane]
  have written :
      (if Decode.opcode h.issueInst = Decode.load ∧ Decode.rd h.issueInst ≠ 0 then
        Function.update d.gprs (h.context t * 16 + Decode.register (Decode.rd h.issueInst))
          (rules.value (Decode.funct3 h.issueInst) (wordOffset (h.accessAddress d.gprs t))
            (answerOf h t d))
      else d.gprs) =
      if Decode.opcode h.issueInst = Decode.load ∧ Decode.rd h.issueInst ≠ 0 then
        Function.update d.gprs (h.context t * 16 + Decode.register (Decode.rd h.issueInst))
          (rules.value (Decode.funct3 h.issueInst) (wordOffset (h.accessAddress d.gprs t))
            (pmemWord cfg d.pmem (wordAddress (h.accessAddress d.gprs t))))
      else d.gprs := by
    refine ite_congr rfl (fun both => ?_) fun _ => rfl
    rw [answerOf, if_pos both.1]
  unfold finishLane
  rw [← written]
  rfl

/-- A core in the memory stage accepts no block. -/
theorem posedge_inStage
    (active : h.ctaActive = true)
    {numCores : Nat}
    (inputs : CoreInputs numCores)
    (buses : Buses)
    (gprs : Nat → Word) :
    posedge inputs.coreId false inputs.ctaValid inputs.kmu buses (h.inStage .memReq t gprs) =
        memoryRequest buses.dataReqReady (h.inStage .memReq t gprs) ∧
      posedge inputs.coreId false inputs.ctaValid inputs.kmu buses (h.inStage .memResp t gprs) =
        match buses.dataResp with
        | some rdata => memoryResponse rdata (h.inStage .memResp t gprs)
        | none => h.inStage .memResp t gprs := by
  have busy : (!(h.inStage .memReq t gprs).ctaActive) = false := by
    show (!h.ctaActive) = false
    rw [active]
    rfl
  have busyResp : (!(h.inStage .memResp t gprs).ctaActive) = false := busy
  unfold posedge
  rw [busy, busyResp, Bool.and_false, if_neg Bool.false_ne_true, if_neg Bool.false_ne_true]
  exact ⟨rfl, rfl⟩

/-- What the request of an active lane drives. -/
theorem request_inStage
    (inRange : h.InRange)
    (lane : t < cfg.numThreads)
    (gprs : Nat → Word) :
    reqAddr (h.inStage .memReq t gprs) = wordAddress (h.accessAddress gprs t) ∧
      (reqMask (h.inStage .memReq t gprs)).setWidth 8 =
        rules.mask (Decode.funct3 h.issueInst) (wordOffset (h.accessAddress gprs t)) ∧
      reqWdata (h.inStage .memReq t gprs) = h.accessData gprs t := by
  have address := inStage_memAddr inRange lane .memReq gprs
  refine ⟨?_, ?_, ?_⟩
  · rw [reqAddr, highBits_append, address]
  · unfold reqMask
    dsimp only
    rw [memOffset, address, toNat_lowBits]
    rfl
  · rw [reqWdata, setWidth_shiftLeft, memShift_eq, address, toNat_memThread lane,
      laneRegister_eq (inRange.inStage lane _ _) lane]
    rfl

/-- An edge without a request leaves physical memory. -/
theorem memoryEdge_quiet
    {core : Core cfg}
    (quiet : reqValid core = false)
    {numCores : Nat}
    (inputs : CoreInputs numCores)
    (mem : SimDataMem)
    (pmem : Pmem) :
    memoryEdge inputs (core, mem, pmem) =
      some
        (posedge inputs.coreId false inputs.ctaValid inputs.kmu
          { instReqReady := true
            instResp := some inputs.imemRdata
            dataReqReady := !mem.pending
            dataResp := if mem.pending then some mem.response else none } core,
          { mem with
            pending := if mem.pending && core.state == .memResp then false else mem.pending },
          pmem) := by
  rw [memoryEdge, quiet]
  rfl

theorem memoryEdge_idle
    (active : h.ctaActive = true)
    {numCores : Nat}
    (inputs : CoreInputs numCores)
    (lane : t < cfg.numThreads)
    (idle : h.issueMask.getLsbD t = false)
    (response : Word)
    (d : StageData) :
    memoryEdge inputs (h.inStage .memReq t d.gprs, ⟨false, response⟩, d.pmem) =
      some
        (if t + 1 = cfg.numThreads then h.afterStage d.gprs else h.inStage .memReq (t + 1) d.gprs,
          ⟨false, response⟩, d.pmem) := by
  have quiet : reqValid (h.inStage .memReq t d.gprs) = false := by
    rw [reqValid, memLaneActive, inStage_active lane, idle, Bool.and_false]
  rw [memoryEdge_quiet quiet, (posedge_inStage active inputs _ _).1, memoryRequest_idle lane idle]
  rfl

theorem memoryEdge_active
    (inRange : h.InRange)
    (active : h.ctaActive = true)
    (memory : Decode.opcode h.issueInst = Decode.load ∨ Decode.opcode h.issueInst = Decode.store)
    {numCores : Nat}
    (inputs : CoreInputs numCores)
    (lane : t < cfg.numThreads)
    (now : h.issueMask.getLsbD t = true)
    (response : Word)
    (d : StageData) :
    memoryEdge inputs (h.inStage .memReq t d.gprs, ⟨false, response⟩, d.pmem) =
      (storeLane rules h t d).map fun d' =>
        (h.inStage .memResp t d'.gprs, ⟨true, answerOf h t d'⟩, d'.pmem) := by
  have request : reqValid (h.inStage .memReq t d.gprs) = true := by
    rw [reqValid, memLaneActive, inStage_active lane, now]
    rfl
  obtain ⟨address, mask, data⟩ := request_inStage inRange lane d.gprs
  have instruction : (h.inStage .memReq t d.gprs).issueInst = h.issueInst := rfl
  rw [memoryEdge, request]
  dsimp only
  rw [address, mask, data, instruction, Bool.not_false, Bool.and_true, Bool.true_and,
    Bool.true_and, (posedge_inStage active inputs _ _).1, memoryRequest_active lane now, storeLane]
  rcases memory with load | store
  · have noStore : ¬(Decode.load == Decode.store) = true := by decide
    have answer : answerOf h t d = pmemWord cfg d.pmem (wordAddress (h.accessAddress d.gprs t)) :=
      if_pos load
    rw [load, beq_self_eq_true, if_pos rfl, dpiPaddrRead_word, Option.bind_some, if_neg noStore,
      Option.map_some, if_neg (show ¬Decode.load = Decode.store by decide), Option.map_some,
      answer]
    rfl
  · have noLoad : ¬Decode.opcode h.issueInst = Decode.load := by
      rw [store]
      decide
    have noAnswer : ∀ d', answerOf h t d' = 0 := fun d' => if_neg noLoad
    simp only [noAnswer]
    rw [store, beq_self_eq_true, if_pos rfl, if_pos rfl, if_neg (by decide), Option.bind_some,
      Option.map_map]
    rfl

theorem memoryEdge_response
    (inRange : h.InRange)
    (active : h.ctaActive = true)
    {numCores : Nat}
    (inputs : CoreInputs numCores)
    (lane : t < cfg.numThreads)
    (d : StageData) :
    memoryEdge inputs (h.inStage .memResp t d.gprs, ⟨true, answerOf h t d⟩, d.pmem) =
      some
        (if t + 1 = cfg.numThreads then h.afterStage (finishLane rules h t d).gprs
          else h.inStage .memReq (t + 1) (finishLane rules h t d).gprs,
          ⟨false, answerOf h t d⟩, (finishLane rules h t d).pmem) := by
  rw [memoryEdge_quiet (show reqValid (h.inStage .memResp t d.gprs) = false from rfl),
    (posedge_inStage active inputs _ _).2, ← memoryResponse_inStage inRange lane]
  rfl

/-- The memory stage of the Chisel core serves the lanes in order. -/
theorem serialStage
    (inRange : h.InRange)
    (active : h.ctaActive = true)
    (memory : Decode.opcode h.issueInst = Decode.load ∨ Decode.opcode h.issueInst = Decode.store)
    {numCores : Nat}
    (inputs : CoreInputs numCores) :
    SerialStage cfg.numThreads h.issueMask.getLsbD (memoryEdge inputs)
      (fun s => s.1.state != .sched)
      (fun t d s => ∃ response, s = (h.inStage .memReq t d.gprs, ⟨false, response⟩, d.pmem))
      (fun t d s => s = (h.inStage .memResp t d.gprs, ⟨true, answerOf h t d⟩, d.pmem))
      (fun d s => ∃ response, s = (h.afterStage d.gprs, ⟨false, response⟩, d.pmem))
      (storeLane rules h) (finishLane rules h) where
  asking_busy := by
    rintro t d s ⟨response, rfl⟩
    rfl
  answering_busy := by
    rintro t d s rfl
    rfl
  finished_idle := by
    rintro d s ⟨response, rfl⟩
    rfl
  skip := by
    rintro t d s lane idle ⟨response, rfl⟩
    refine ⟨_, memoryEdge_idle active inputs lane idle response d, ?_⟩
    unfold NextLane
    split_ifs <;> exact ⟨_, rfl⟩
  abort := by
    rintro t d s lane now ⟨response, rfl⟩ aborts
    rw [memoryEdge_active inRange active memory inputs lane now, aborts]
    rfl
  ask := by
    rintro t d s d' lane now ⟨response, rfl⟩ asked
    refine ⟨_, ?_, rfl⟩
    rw [memoryEdge_active inRange active memory inputs lane now, asked]
    rfl
  answer := by
    rintro t d s lane now rfl
    refine ⟨_, memoryEdge_response inRange active inputs lane d, ?_⟩
    unfold NextLane
    split_ifs <;> exact ⟨_, rfl⟩

end Chisel.Core

/-! ## SpinalHDL -/

namespace Spinal

open Verilog.GPUCore

/-- The minor opcodes of the SpinalHDL core. -/
def rules : AccessRules where
  mask f3 offset :=
    if f3 = 0 then (1 : BitVec 8) <<< offset
    else if f3 = 1 then (3 : BitVec 8) <<< offset
    else 15
  value f3 offset rdata :=
    let shifted := rdata >>> (offset * 8)
    if f3 = 0 then (shifted.extractLsb' 0 8).signExtend 32
    else if f3 = 1 then (shifted.extractLsb' 0 16).signExtend 32
    else if f3 = 4 then (shifted.extractLsb' 0 8).setWidth 32
    else if f3 = 5 then (shifted.extractLsb' 0 16).setWidth 32
    else rdata

namespace Core

theorem inStage_memAddr
    (inRange : h.InRange)
    (lane : t < cfg.numThreads)
    (state : Fsm)
    (gprs : Nat → Word) :
    memAddr (h.inStage state t gprs) = h.accessAddress gprs t := by
  rw [memAddr_eq, Chisel.Core.inStage_memAddr inRange lane]

/-- What the request of an active lane drives. -/
theorem request_inStage
    (inRange : h.InRange)
    (lane : t < cfg.numThreads)
    (gprs : Nat → Word) :
    dmemAddr (h.inStage .memReq t gprs) = wordAddress (h.accessAddress gprs t) ∧
      dmemMask (h.inStage .memReq t gprs) =
        rules.mask (Decode.funct3 h.issueInst) (wordOffset (h.accessAddress gprs t)) ∧
      dmemWdata (h.inStage .memReq t gprs) = h.accessData gprs t := by
  have address := inStage_memAddr inRange lane .memReq gprs
  refine ⟨?_, ?_, ?_⟩
  · rw [dmemAddr, address]
    rfl
  · unfold dmemMask
    dsimp only
    rw [address, toNat_lowBits]
    rfl
  · rw [dmemWdata, memShift_eq, address, toNat_memThread lane, laneRegister_eq,
      Chisel.Core.laneRegister_eq (inRange.inStage lane _ _) lane]
    rfl

end Core

namespace MemCore

/-- A lane without a request in the SpinalHDL core. -/
theorem memoryRequest_idle
    (lane : t < cfg.numThreads)
    (idle : h.issueMask.getLsbD t = false)
    (dmemRdata held : Word)
    (gprs : Nat → Word) :
    memoryRequest dmemRdata ⟨h.inStage .memReq t gprs, held⟩ =
      ⟨if t + 1 = cfg.numThreads then h.afterStage gprs else h.inStage .memReq (t + 1) gprs,
        held⟩ := by
  unfold memoryRequest Core.memLaneActive
  dsimp only
  rw [inStage_active lane, idle, if_pos Bool.not_false, ← inStage_advance lane h .memReq]
  exact (apply_ite (fun core => (⟨core, held⟩ : MemCore cfg)) _ _ _).symm

/-- A lane with a request captures the word of a load. -/
theorem memoryRequest_active
    (lane : t < cfg.numThreads)
    (now : h.issueMask.getLsbD t = true)
    (dmemRdata held : Word)
    (gprs : Nat → Word) :
    memoryRequest dmemRdata ⟨h.inStage .memReq t gprs, held⟩ =
      ⟨h.inStage .memResp t gprs,
        if Decode.opcode h.issueInst = Decode.load then dmemRdata else held⟩ := by
  unfold memoryRequest Core.memLaneActive
  dsimp only
  rw [inStage_active lane, now, if_neg (by decide)]
  rfl

/-- The end of an access in the SpinalHDL core. -/
theorem memoryResponse_inStage
    (inRange : h.InRange)
    (lane : t < cfg.numThreads)
    (d : StageData)
    {held : Word}
    (captured : Decode.opcode h.issueInst = Decode.load →
      held = pmemWord cfg d.pmem (wordAddress (h.accessAddress d.gprs t))) :
    memoryResponse ⟨h.inStage .memResp t d.gprs, held⟩ =
      ⟨if t + 1 = cfg.numThreads then h.afterStage (finishLane rules h t d).gprs
        else h.inStage .memReq (t + 1) (finishLane rules h t d).gprs, held⟩ := by
  have place : ∀ field, (Core.registerIndex (Core.base (Core.ctx (h.inStage .memResp t d.gprs)
      (h.inStage .memResp t d.gprs).memThread.toNat)) field).toNat =
        h.context t * 16 + Decode.register field := by
    intro field
    rw [toNat_memThread lane, Core.base_eq, Core.ctx_eq]
    exact Chisel.Core.toNat_registerIndex (inRange.inStage lane _ _) lane field
  have zero : (Core.base (Core.ctx (h.inStage .memResp t d.gprs)
      (h.inStage .memResp t d.gprs).memThread.toNat)).toNat = h.context t * 16 := by
    rw [toNat_memThread lane, Core.base_eq, Core.ctx_eq]
    exact Chisel.Core.toNat_regBase_context (inRange.inStage lane _ _) lane
  rw [← inStage_advance lane h .memResp]
  unfold memoryResponse
  dsimp only
  rw [place, zero]
  unfold Core.loaded
  dsimp only
  rw [Core.memShift_eq, Core.inStage_memAddr inRange lane]
  have written :
      (if Decode.opcode h.issueInst = Decode.load ∧ Decode.rd h.issueInst ≠ 0 then
        Function.update d.gprs (h.context t * 16 + Decode.register (Decode.rd h.issueInst))
          (rules.value (Decode.funct3 h.issueInst) (wordOffset (h.accessAddress d.gprs t)) held)
      else d.gprs) =
      if Decode.opcode h.issueInst = Decode.load ∧ Decode.rd h.issueInst ≠ 0 then
        Function.update d.gprs (h.context t * 16 + Decode.register (Decode.rd h.issueInst))
          (rules.value (Decode.funct3 h.issueInst) (wordOffset (h.accessAddress d.gprs t))
            (pmemWord cfg d.pmem (wordAddress (h.accessAddress d.gprs t))))
      else d.gprs :=
    ite_congr rfl (fun both => by rw [captured both.1]) fun _ => rfl
  unfold finishLane
  rw [← written]
  rfl

/-- A core in the memory stage accepts no block. -/
theorem posedge_inStage
    (active : h.ctaActive = true)
    {numCores : Nat}
    (inputs : CoreInputs numCores)
    (dmemRdata held : Word)
    (gprs : Nat → Word) :
    posedge inputs.coreId false inputs.ctaValid inputs.kmu inputs.imemRdata dmemRdata
        ⟨h.inStage .memReq t gprs, held⟩ =
        memoryRequest dmemRdata ⟨h.inStage .memReq t gprs, held⟩ ∧
      posedge inputs.coreId false inputs.ctaValid inputs.kmu inputs.imemRdata dmemRdata
        ⟨h.inStage .memResp t gprs, held⟩ =
        memoryResponse ⟨h.inStage .memResp t gprs, held⟩ := by
  have busy : Core.ctaReady (h.inStage .memReq t gprs) = false := by
    show (!h.ctaActive && Fsm.memReq == .sched) = false
    rw [active]
    rfl
  have busyResp : Core.ctaReady (h.inStage .memResp t gprs) = false := by
    show (!h.ctaActive && Fsm.memResp == .sched) = false
    rw [active]
    rfl
  unfold posedge
  dsimp only
  rw [busy, busyResp, Bool.and_false, if_neg Bool.false_ne_true, if_neg Bool.false_ne_true]
  exact ⟨rfl, rfl⟩

/-- An edge without a request leaves physical memory. -/
theorem memoryEdge_quiet
    {m : MemCore cfg}
    (noRead : Core.dmemRen m.core = false)
    (noWrite : Core.dmemWen m.core = false)
    {numCores : Nat}
    (inputs : CoreInputs numCores)
    (pmem : Pmem) :
    memoryEdge inputs (m, pmem) =
      some
        (posedge inputs.coreId false inputs.ctaValid inputs.kmu inputs.imemRdata 0 m, pmem) := by
  rw [memoryEdge, noRead, noWrite]
  rfl

theorem memoryEdge_idle
    (active : h.ctaActive = true)
    {numCores : Nat}
    (inputs : CoreInputs numCores)
    (lane : t < cfg.numThreads)
    (idle : h.issueMask.getLsbD t = false)
    (held : Word)
    (d : StageData) :
    memoryEdge inputs (⟨h.inStage .memReq t d.gprs, held⟩, d.pmem) =
      some
        (⟨if t + 1 = cfg.numThreads then h.afterStage d.gprs
          else h.inStage .memReq (t + 1) d.gprs, held⟩, d.pmem) := by
  have inactive : Core.memLaneActive (h.inStage .memReq t d.gprs) = false :=
    (inStage_active lane _ _).trans idle
  rw [memoryEdge_quiet (by rw [Core.dmemRen, inactive, Bool.and_false, Bool.false_and])
    (by rw [Core.dmemWen, inactive, Bool.and_false, Bool.false_and]),
    (posedge_inStage active inputs _ _ _).1, memoryRequest_idle lane idle]

theorem memoryEdge_active
    (inRange : h.InRange)
    (active : h.ctaActive = true)
    (memory : Decode.opcode h.issueInst = Decode.load ∨ Decode.opcode h.issueInst = Decode.store)
    {numCores : Nat}
    (inputs : CoreInputs numCores)
    (lane : t < cfg.numThreads)
    (now : h.issueMask.getLsbD t = true)
    (held : Word)
    (d : StageData) :
    memoryEdge inputs (⟨h.inStage .memReq t d.gprs, held⟩, d.pmem) =
      (storeLane rules h t d).map fun d' =>
        (⟨h.inStage .memResp t d'.gprs,
          if Decode.opcode h.issueInst = Decode.load then
            pmemWord cfg d'.pmem (wordAddress (h.accessAddress d'.gprs t))
          else held⟩, d'.pmem) := by
  have serving : Core.memLaneActive (h.inStage .memReq t d.gprs) = true :=
    (inStage_active lane _ _).trans now
  have read : Core.dmemRen (h.inStage .memReq t d.gprs) =
      (Decode.opcode h.issueInst == Decode.load) := by
    rw [Core.dmemRen, serving, Bool.and_true]
    rfl
  have write : Core.dmemWen (h.inStage .memReq t d.gprs) =
      (Decode.opcode h.issueInst == Decode.store) := by
    rw [Core.dmemWen, serving, Bool.and_true]
    rfl
  obtain ⟨address, mask, data⟩ := Core.request_inStage inRange lane d.gprs
  rw [memoryEdge]
  dsimp only
  rw [read, write, address, mask, data, storeLane]
  rcases memory with load | store
  · have noStore : ¬(Decode.load == Decode.store) = true := by decide
    rw [load, beq_self_eq_true, if_pos rfl, dpiPaddrRead_word, Option.bind_some, if_neg noStore,
      Option.map_some, (posedge_inStage active inputs _ _ _).1, memoryRequest_active lane now,
      if_pos load, if_neg (show ¬Decode.load = Decode.store by decide), Option.map_some,
      if_pos rfl]
  · have noLoad : ¬Decode.store = Decode.load := by decide
    rw [store, beq_self_eq_true, if_pos rfl, if_pos rfl,
      if_neg (show ¬(Decode.store == Decode.load) = true by decide), Option.bind_some,
      Option.map_map, (posedge_inStage active inputs _ _ _).1, memoryRequest_active lane now, store,
      if_neg noLoad]
    refine congrArg (Option.map · _) (funext fun pmem => ?_)
    rw [Function.comp_apply, if_neg noLoad]

theorem memoryEdge_response
    (inRange : h.InRange)
    (active : h.ctaActive = true)
    {numCores : Nat}
    (inputs : CoreInputs numCores)
    (lane : t < cfg.numThreads)
    (d : StageData)
    {held : Word}
    (captured : Decode.opcode h.issueInst = Decode.load →
      held = pmemWord cfg d.pmem (wordAddress (h.accessAddress d.gprs t))) :
    memoryEdge inputs (⟨h.inStage .memResp t d.gprs, held⟩, d.pmem) =
      some
        (⟨if t + 1 = cfg.numThreads then h.afterStage (finishLane rules h t d).gprs
          else h.inStage .memReq (t + 1) (finishLane rules h t d).gprs, held⟩,
          (finishLane rules h t d).pmem) := by
  rw [memoryEdge_quiet rfl rfl, (posedge_inStage active inputs _ _ _).2,
    memoryResponse_inStage inRange lane d captured]
  rfl

/-- The memory stage of the SpinalHDL core serves the lanes in order. -/
theorem serialStage
    (inRange : h.InRange)
    (active : h.ctaActive = true)
    (memory : Decode.opcode h.issueInst = Decode.load ∨ Decode.opcode h.issueInst = Decode.store)
    {numCores : Nat}
    (inputs : CoreInputs numCores) :
    SerialStage cfg.numThreads h.issueMask.getLsbD (memoryEdge inputs)
      (fun s => s.1.core.state != .sched)
      (fun t d s => ∃ held, s = (⟨h.inStage .memReq t d.gprs, held⟩, d.pmem))
      (fun t d s => ∃ held, s = (⟨h.inStage .memResp t d.gprs, held⟩, d.pmem) ∧
        (Decode.opcode h.issueInst = Decode.load →
          held = pmemWord cfg d.pmem (wordAddress (h.accessAddress d.gprs t))))
      (fun d s => ∃ held, s = (⟨h.afterStage d.gprs, held⟩, d.pmem))
      (storeLane rules h) (finishLane rules h) where
  asking_busy := by
    rintro t d s ⟨held, rfl⟩
    rfl
  answering_busy := by
    rintro t d s ⟨held, rfl, _⟩
    rfl
  finished_idle := by
    rintro d s ⟨held, rfl⟩
    rfl
  skip := by
    rintro t d s lane idle ⟨held, rfl⟩
    refine ⟨_, memoryEdge_idle active inputs lane idle held d, ?_⟩
    unfold NextLane
    split_ifs <;> exact ⟨_, rfl⟩
  abort := by
    rintro t d s lane now ⟨held, rfl⟩ aborts
    rw [memoryEdge_active inRange active memory inputs lane now, aborts]
    rfl
  ask := by
    rintro t d s d' lane now ⟨held, rfl⟩ asked
    have edge := memoryEdge_active inRange active memory inputs lane now held d
    rw [asked, Option.map_some] at edge
    exact ⟨_, edge, _, rfl, fun load => if_pos load⟩
  answer := by
    rintro t d s lane now ⟨held, rfl, captured⟩
    refine ⟨_, memoryEdge_response inRange active inputs lane d captured, ?_⟩
    unfold NextLane
    split_ifs <;> exact ⟨_, rfl⟩

end MemCore

end Spinal

end OpenGPU
