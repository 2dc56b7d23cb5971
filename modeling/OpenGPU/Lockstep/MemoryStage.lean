import OpenGPU.Chisel.Mem
import OpenGPU.Foundation.SerialStage
import OpenGPU.Lockstep.RequestWords
import OpenGPU.Platform.Dpi

/-!
# The memory stage of the three backends

A core together with its data memory, edge by edge. The memories answer through
the same two functions; what differs is when a load is captured, which minor
opcodes have a mask, and what a reserved load returns. Each backend runs the
stage as a sequence of lane effects of one common form.
-/

namespace OpenGPU

open Verilog

/-! ## One edge of a core with its memory -/

/-- What a core receives besides its data memory. -/
structure CoreInputs (numCores : Nat) where
  coreId : Nat
  ctaValid : Bool
  kmu : GPUKmu numCores
  imemRdata : Word

/-- The SystemVerilog core over physical memory: the memory is combinational. -/
def Verilog.GPUCore.memoryEdge {cfg : Config} {numCores : Nat} (inputs : CoreInputs numCores)
    (s : GPUCore cfg × Pmem) : Option (GPUCore cfg × Pmem) :=
  let (core, pmem) := s
  (if core.dmemRen then dpiPaddrRead cfg pmem core.dmemAddr else some 0).bind fun rdata =>
    (if core.dmemWen then
      dpiPaddrWrite cfg pmem core.dmemAddr (core.dmemMask.setWidth 8) core.dmemWdata
    else some pmem).map fun pmem =>
      (core.posedge inputs.coreId false inputs.ctaValid inputs.kmu inputs.imemRdata rdata, pmem)

/-- The Chisel core over physical memory: a request is answered from a register. -/
def Chisel.Core.memoryEdge {cfg : Config} {numCores : Nat} (inputs : CoreInputs numCores)
    (s : Chisel.Core cfg × Chisel.SimDataMem × Pmem) :
    Option (Chisel.Core cfg × Chisel.SimDataMem × Pmem) :=
  let (core, mem, pmem) := s
  let reqFire := Chisel.Core.reqValid core && !mem.pending
  let respFire := mem.pending && core.state == .memResp
  let ren := reqFire && Decode.opcode core.issueInst == Decode.load
  let wen := reqFire && Decode.opcode core.issueInst == Decode.store
  (if ren then dpiPaddrRead cfg pmem (Chisel.Core.reqAddr core) else some 0).bind fun rdata =>
    (if wen then
      dpiPaddrWrite cfg pmem (Chisel.Core.reqAddr core)
        ((Chisel.Core.reqMask core).setWidth 8) (Chisel.Core.reqWdata core)
    else some pmem).map fun pmem =>
      (Chisel.Core.posedge inputs.coreId false inputs.ctaValid inputs.kmu
        { instReqReady := true
          instResp := some inputs.imemRdata
          dataReqReady := !mem.pending
          dataResp := if mem.pending then some mem.response else none } core,
        { pending := if respFire then false else if reqFire then true else mem.pending
          response := if reqFire then rdata else mem.response },
        pmem)

/-- The SpinalHDL core over physical memory. Outside an active request the
address, data and mask outputs are zero, and nothing reads them. -/
def Spinal.MemCore.memoryEdge {cfg : Config} {numCores : Nat} (inputs : CoreInputs numCores)
    (s : Spinal.MemCore cfg × Pmem) : Option (Spinal.MemCore cfg × Pmem) :=
  let (m, pmem) := s
  (if Spinal.Core.dmemRen m.core then dpiPaddrRead cfg pmem (Spinal.Core.dmemAddr m.core)
    else some 0).bind fun rdata =>
    (if Spinal.Core.dmemWen m.core then
      dpiPaddrWrite cfg pmem (Spinal.Core.dmemAddr m.core) (Spinal.Core.dmemMask m.core)
        (Spinal.Core.dmemWdata m.core)
    else some pmem).map fun pmem =>
      (Spinal.MemCore.posedge inputs.coreId false inputs.ctaValid inputs.kmu inputs.imemRdata
        rdata m, pmem)

/-! ## The common form -/

/-- What the memory stage changes. -/
structure StageData where
  gprs : Nat → Word
  pmem : Pmem

/-- How a backend treats the minor opcodes: the bytes that a store enables and
what a load makes of a word, at an offset. -/
structure AccessRules where
  mask : BitVec 3 → Nat → BitVec 8
  value : BitVec 3 → Nat → Word → Word

namespace Verilog.GPUCore

variable {cfg : Config}

/-- The address of lane `t`. -/
def accessAddress (h : GPUCore cfg) (gprs : Nat → Word) (t : Nat) : Word :=
  gprs (h.context t * 16 + Decode.register (Decode.rs1 h.issueInst)) +
    (if Decode.opcode h.issueInst = Decode.load then Decode.immI h.issueInst
    else Decode.immS h.issueInst)

/-- The shifted store data of lane `t`. -/
def accessData (h : GPUCore cfg) (gprs : Nat → Word) (t : Nat) : Word :=
  gprs (h.context t * 16 + Decode.register (Decode.rs2 h.issueInst)) <<<
    (wordOffset (h.accessAddress gprs t) * 8)

/-- The store of lane `t`, if the word is one. -/
def storeLane (rules : AccessRules) (h : GPUCore cfg) (t : Nat) (d : StageData) :
    Option StageData :=
  if Decode.opcode h.issueInst = Decode.store then
    (dpiPaddrWrite cfg d.pmem (wordAddress (h.accessAddress d.gprs t))
      (rules.mask (Decode.funct3 h.issueInst) (wordOffset (h.accessAddress d.gprs t)))
      (h.accessData d.gprs t)).map fun pmem => { d with pmem := pmem }
  else some d

/-- The registers that lane `t` writes at the end of its access. -/
def finishLane (rules : AccessRules) (h : GPUCore cfg) (t : Nat) (d : StageData) : StageData :=
  { d with
    gprs := Function.update
      (if Decode.opcode h.issueInst = Decode.load ∧ Decode.rd h.issueInst ≠ 0 then
        Function.update d.gprs (h.context t * 16 + Decode.register (Decode.rd h.issueInst))
          (rules.value (Decode.funct3 h.issueInst) (wordOffset (h.accessAddress d.gprs t))
            (pmemWord cfg d.pmem (wordAddress (h.accessAddress d.gprs t))))
      else d.gprs) (h.context t * 16) 0 }

/-- The core in one of the memory states. -/
def inStage (h : GPUCore cfg) (state : Fsm) (t : Nat) (gprs : Nat → Word) : GPUCore cfg :=
  { h with state := state, memThread := BitVec.ofNat _ t, gprs := gprs }

/-- The core after the last lane. -/
def afterStage (h : GPUCore cfg) (gprs : Nat → Word) : GPUCore cfg :=
  (h.inStage .memReq (cfg.numThreads - 1) gprs).finishMemory

variable {h : GPUCore cfg} {t : Nat}

theorem toNat_memThread
    (lane : t < cfg.numThreads)
    (h : GPUCore cfg)
    (state : Fsm)
    (gprs : Nat → Word) :
    (h.inStage state t gprs).memThread.toNat = t := by
  have room := le_two_pow_indexBits cfg.numThreads
  show (BitVec.ofNat (indexBits cfg.numThreads) t).toNat = t
  rw [BitVec.toNat_ofNat, Nat.mod_eq_of_lt (by omega)]

theorem InRange.inStage
    (inRange : h.InRange)
    (lane : t < cfg.numThreads)
    (state : Fsm)
    (gprs : Nat → Word) :
    (h.inStage state t gprs).InRange :=
  { inRange with
    thread := by
      rw [toNat_memThread lane]
      exact lane }

theorem inStage_memoryAddress
    (lane : t < cfg.numThreads)
    (state : Fsm)
    (gprs : Nat → Word) :
    (h.inStage state t gprs).memoryAddress = h.accessAddress gprs t := by
  unfold memoryAddress
  dsimp only
  rw [toNat_memThread lane]
  rfl

theorem inStage_storeData
    (lane : t < cfg.numThreads)
    (state : Fsm)
    (gprs : Nat → Word) :
    (h.inStage state t gprs).laneRegister (h.inStage state t gprs).memThread.toNat
        (Decode.rs2 h.issueInst) <<< (wordOffset (h.accessAddress gprs t) * 8) =
      h.accessData gprs t := by
  rw [toNat_memThread lane]
  rfl

theorem inStage_active
    (lane : t < cfg.numThreads)
    (state : Fsm)
    (gprs : Nat → Word) :
    (h.inStage state t gprs).issueMask.getLsbD (h.inStage state t gprs).memThread.toNat =
      h.issueMask.getLsbD t := by
  rw [toNat_memThread lane]
  rfl

theorem inStage_lastThread
    (lane : t < cfg.numThreads)
    (state : Fsm)
    (gprs : Nat → Word) :
    (h.inStage state t gprs).lastThread = decide (t + 1 = cfg.numThreads) := by
  rw [lastThread, Bool.eq_iff_iff, beq_iff_eq, decide_eq_true_iff]
  exact ofNat_eq_last_iff lane

/-- The step to the next lane. -/
theorem inStage_next
    (h : GPUCore cfg)
    (state : Fsm)
    (t : Nat)
    (gprs : Nat → Word) :
    { h.inStage state t gprs with
      memThread := (h.inStage state t gprs).memThread + 1, state := .memReq } =
      h.inStage .memReq (t + 1) gprs := by
  have number : BitVec.ofNat (indexBits cfg.numThreads) t + 1 =
      BitVec.ofNat (indexBits cfg.numThreads) (t + 1) :=
    (BitVec.ofNat_add ..).symm
  unfold inStage
  dsimp only
  rw [number]

/-- Moving on from lane `t`, in the stage or out of it. -/
theorem inStage_advance
    (lane : t < cfg.numThreads)
    (h : GPUCore cfg)
    (state : Fsm)
    (gprs : Nat → Word) :
    (if (h.inStage state t gprs).lastThread then (h.inStage state t gprs).finishMemory
      else
        { h.inStage state t gprs with
          memThread := (h.inStage state t gprs).memThread + 1, state := .memReq }) =
      if t + 1 = cfg.numThreads then h.afterStage gprs else h.inStage .memReq (t + 1) gprs := by
  rw [inStage_lastThread lane]
  refine ite_congr (decide_eq_true_eq) (fun last => ?_) fun _ => h.inStage_next state t gprs
  have here : t = cfg.numThreads - 1 := by omega
  rw [afterStage, ← here]
  rfl

/-- The registers at the end of an access to memory. -/
theorem inStage_gprs
    (lane : t < cfg.numThreads)
    (h : GPUCore cfg)
    (state : Fsm)
    (gprs : Nat → Word) :
    (h.inStage state t gprs).context (h.inStage state t gprs).memThread.toNat = h.context t := by
  rw [toNat_memThread lane]
  rfl

/-! ### SystemVerilog -/

/-- The minor opcodes of the SystemVerilog core. -/
def rules : AccessRules where
  mask f3 offset :=
    (if f3 = 0 then (1 : BitVec 4) <<< offset
    else if f3 = 1 then (3 : BitVec 4) <<< offset
    else 15).setWidth 8
  value f3 offset rdata :=
    let shifted := rdata >>> (offset * 8)
    if f3 = 0 then (shifted.extractLsb' 0 8).signExtend 32
    else if f3 = 1 then (shifted.extractLsb' 0 16).signExtend 32
    else if f3 = 2 then rdata
    else if f3 = 4 then (shifted.extractLsb' 0 8).setWidth 32
    else if f3 = 5 then (shifted.extractLsb' 0 16).setWidth 32
    else 0

/-- The end of an access in the SystemVerilog core. -/
theorem memoryResponse_inStage
    (lane : t < cfg.numThreads)
    (h : GPUCore cfg)
    (d : StageData) :
    (h.inStage .memResp t d.gprs).memoryResponse
        (pmemWord cfg d.pmem (wordAddress (h.accessAddress d.gprs t))) =
      if t + 1 = cfg.numThreads then h.afterStage (finishLane rules h t d).gprs
      else h.inStage .memReq (t + 1) (finishLane rules h t d).gprs := by
  rw [← inStage_advance lane h .memResp]
  unfold memoryResponse
  dsimp only
  rw [inStage_gprs lane, inStage_memoryAddress lane]
  unfold loadData
  dsimp only
  rw [toNat_lowBits]
  rfl

/-- A lane without a request in the SystemVerilog core. -/
theorem memoryRequest_idle
    (lane : t < cfg.numThreads)
    (idle : h.issueMask.getLsbD t = false)
    (gprs : Nat → Word) :
    (h.inStage .memReq t gprs).memoryRequest =
      if t + 1 = cfg.numThreads then h.afterStage gprs else h.inStage .memReq (t + 1) gprs := by
  rw [← inStage_advance lane h .memReq]
  unfold memoryRequest
  rw [inStage_active lane, idle, if_pos Bool.not_false]
  rfl

/-- A lane with a request in the SystemVerilog core. -/
theorem memoryRequest_active
    (lane : t < cfg.numThreads)
    (now : h.issueMask.getLsbD t = true)
    (gprs : Nat → Word) :
    (h.inStage .memReq t gprs).memoryRequest = h.inStage .memResp t gprs := by
  unfold memoryRequest
  rw [inStage_active lane, now, if_neg (by decide)]
  rfl

/-- A core in the memory stage accepts no block. -/
theorem posedge_inStage
    (active : h.ctaActive = true)
    {numCores : Nat}
    (inputs : CoreInputs numCores)
    (state : Fsm)
    (gprs : Nat → Word)
    (rdata : Word) :
    (h.inStage state t gprs).posedge inputs.coreId false inputs.ctaValid inputs.kmu
        inputs.imemRdata rdata =
      match state with
      | .sched => (h.inStage state t gprs).schedule
      | .fetch => { h.inStage state t gprs with issueInst := inputs.imemRdata, state := .exec }
      | .exec => (h.inStage state t gprs).execute inputs.coreId
      | .memReq => (h.inStage state t gprs).memoryRequest
      | .memResp => (h.inStage state t gprs).memoryResponse rdata := by
  have busy : (h.inStage state t gprs).ctaReady = false := by
    show (!h.ctaActive && state == .sched) = false
    rw [active]
    rfl
  unfold posedge
  rw [busy, Bool.and_false, if_neg Bool.false_ne_true, if_neg Bool.false_ne_true,
    if_pos (show (h.inStage state t gprs).ctaActive = true from active)]
  rfl

theorem memoryEdge_idle
    (active : h.ctaActive = true)
    {numCores : Nat}
    (inputs : CoreInputs numCores)
    (lane : t < cfg.numThreads)
    (idle : h.issueMask.getLsbD t = false)
    (d : StageData) :
    memoryEdge inputs (h.inStage .memReq t d.gprs, d.pmem) =
      some
        (if t + 1 = cfg.numThreads then h.afterStage d.gprs else h.inStage .memReq (t + 1) d.gprs,
          d.pmem) := by
  have noRead : (h.inStage .memReq t d.gprs).dmemRen = false := by
    rw [dmemRen, inStage_active lane, idle, Bool.and_false]
  have noWrite : (h.inStage .memReq t d.gprs).dmemWen = false := by
    rw [dmemWen, inStage_active lane, idle, Bool.and_false]
  rw [memoryEdge, noRead, noWrite, if_neg Bool.false_ne_true, if_neg Bool.false_ne_true,
    Option.bind_some,
    Option.map_some, posedge_inStage active]
  dsimp only
  rw [memoryRequest_idle lane idle]

theorem memoryEdge_active
    (active : h.ctaActive = true)
    (memory : Decode.opcode h.issueInst = Decode.load ∨ Decode.opcode h.issueInst = Decode.store)
    {numCores : Nat}
    (inputs : CoreInputs numCores)
    (lane : t < cfg.numThreads)
    (now : h.issueMask.getLsbD t = true)
    (d : StageData) :
    memoryEdge inputs (h.inStage .memReq t d.gprs, d.pmem) =
      (storeLane rules h t d).map fun d' => (h.inStage .memResp t d'.gprs, d'.pmem) := by
  have address : (h.inStage .memReq t d.gprs).dmemAddr = wordAddress (h.accessAddress d.gprs t) := by
    rw [dmemAddr, highBits_append, inStage_memoryAddress lane]
  have read : (h.inStage .memReq t d.gprs).dmemRen =
      (Decode.opcode h.issueInst == Decode.load) := by
    rw [dmemRen, inStage_active lane, now, Bool.and_true]
    rfl
  have write : (h.inStage .memReq t d.gprs).dmemWen =
      (Decode.opcode h.issueInst == Decode.store) := by
    rw [dmemWen, inStage_active lane, now, Bool.and_true]
    rfl
  have mask : (h.inStage .memReq t d.gprs).dmemMask.setWidth 8 =
      rules.mask (Decode.funct3 h.issueInst) (wordOffset (h.accessAddress d.gprs t)) := by
    rw [dmemMask_eq, inStage_memoryAddress lane]
    rfl
  have data : (h.inStage .memReq t d.gprs).dmemWdata = h.accessData d.gprs t := by
    rw [dmemWdata, inStage_memoryAddress lane, toNat_lowBits]
    exact inStage_storeData lane _ _
  rw [memoryEdge, read, write, address, mask, data, storeLane]
  rcases memory with load | store
  · rw [load, beq_self_eq_true, if_pos rfl, dpiPaddrRead_word, Option.bind_some,
      if_neg (by decide), Option.map_some, posedge_inStage active, if_neg (by decide)]
    dsimp only
    rw [memoryRequest_active lane now]
    rfl
  · rw [store, beq_self_eq_true, if_pos rfl, if_neg (by decide), Option.bind_some, if_pos rfl,
      posedge_inStage active, Option.map_map]
    dsimp only
    rw [memoryRequest_active lane now]
    rfl

/-- A store ignores the answer of the memory. -/
theorem memoryResponse_of_store
    {core : GPUCore cfg}
    (store : Decode.opcode core.issueInst = Decode.store)
    (left right : Word) :
    core.memoryResponse left = core.memoryResponse right := by
  have noLoad : ¬(Decode.opcode core.issueInst = Decode.load ∧ Decode.rd core.issueInst ≠ 0) := by
    rintro ⟨load, _⟩
    rw [store] at load
    exact absurd load (by decide)
  unfold memoryResponse
  dsimp only
  rw [if_neg noLoad, if_neg noLoad]

theorem memoryEdge_response
    (active : h.ctaActive = true)
    (memory : Decode.opcode h.issueInst = Decode.load ∨ Decode.opcode h.issueInst = Decode.store)
    {numCores : Nat}
    (inputs : CoreInputs numCores)
    (lane : t < cfg.numThreads)
    (now : h.issueMask.getLsbD t = true)
    (d : StageData) :
    memoryEdge inputs (h.inStage .memResp t d.gprs, d.pmem) =
      some
        (if t + 1 = cfg.numThreads then h.afterStage (finishLane rules h t d).gprs
          else h.inStage .memReq (t + 1) (finishLane rules h t d).gprs,
          (finishLane rules h t d).pmem) := by
  have address : (h.inStage .memResp t d.gprs).dmemAddr =
      wordAddress (h.accessAddress d.gprs t) := by
    rw [dmemAddr, highBits_append, inStage_memoryAddress lane]
  have read : (h.inStage .memResp t d.gprs).dmemRen =
      (Decode.opcode h.issueInst == Decode.load) := by
    rw [dmemRen, inStage_active lane, now, Bool.and_true]
    rfl
  have noWrite : (h.inStage .memResp t d.gprs).dmemWen = false := rfl
  rw [memoryEdge, read, noWrite, address, if_neg Bool.false_ne_true, ← memoryResponse_inStage lane]
  rcases memory with load | store
  · rw [load, beq_self_eq_true, if_pos rfl, dpiPaddrRead_word, Option.bind_some, Option.map_some,
      posedge_inStage active]
    rfl
  · -- a store ignores the answer
    rw [store, if_neg (by decide), Option.bind_some, Option.map_some, posedge_inStage active]
    dsimp only
    rw [@memoryResponse_of_store cfg (h.inStage .memResp t d.gprs) store]
    rfl

/-- The memory stage of the SystemVerilog core serves the lanes in order. -/
theorem serialStage
    (active : h.ctaActive = true)
    (memory : Decode.opcode h.issueInst = Decode.load ∨ Decode.opcode h.issueInst = Decode.store)
    {numCores : Nat}
    (inputs : CoreInputs numCores) :
    SerialStage cfg.numThreads h.issueMask.getLsbD (memoryEdge inputs)
      (fun s => s.1.state != .sched)
      (fun t d s => s = (h.inStage .memReq t d.gprs, d.pmem))
      (fun t d s => s = (h.inStage .memResp t d.gprs, d.pmem))
      (fun d s => s = (h.afterStage d.gprs, d.pmem))
      (storeLane rules h) (finishLane rules h) where
  asking_busy := by
    rintro t d s rfl
    rfl
  answering_busy := by
    rintro t d s rfl
    rfl
  finished_idle := by
    rintro d s rfl
    rfl
  skip := by
    rintro t d s lane idle rfl
    refine ⟨_, memoryEdge_idle active inputs lane idle d, ?_⟩
    unfold NextLane
    split_ifs <;> rfl
  abort := by
    rintro t d s lane now rfl aborts
    rw [memoryEdge_active active memory inputs lane now, aborts]
    rfl
  ask := by
    rintro t d s d' lane now rfl asked
    exact ⟨_, by rw [memoryEdge_active active memory inputs lane now, asked]; rfl, rfl⟩
  answer := by
    rintro t d s lane now rfl
    refine ⟨_, memoryEdge_response active memory inputs lane now d, ?_⟩
    unfold NextLane
    split_ifs <;> rfl

end Verilog.GPUCore

end OpenGPU
