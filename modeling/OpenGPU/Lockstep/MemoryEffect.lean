import OpenGPU.Lockstep.LaneForm
import OpenGPU.Lockstep.ScalaStage

/-!
# The effect of a memory instruction

The lanes of a load read one memory and write disjoint registers; the lanes of a
store write one memory in order. Run from `EXEC` to the end, every backend does
what its rules for the minor opcodes make of this.
-/

namespace OpenGPU

open Verilog Verilog.GPUCore

variable {cfg : Config}

namespace Verilog.GPUCore

variable (rules : AccessRules) (h : GPUCore cfg)

/-! ## Lanes one after another -/

/-- What lane `t` loads. -/
def laneLoaded (d : StageData) (t : Nat) : Word :=
  rules.value (Decode.funct3 h.issueInst) (wordOffset (h.accessAddress d.gprs t))
    (pmemWord cfg d.pmem (wordAddress (h.accessAddress d.gprs t)))

/-- What lane `t` stores. -/
def laneStored (gprs : Nat → Word) (pmem : Pmem) (t : Nat) : Option Pmem :=
  if h.issueMask.getLsbD t then
    dpiPaddrWrite cfg pmem (wordAddress (h.accessAddress gprs t))
      (rules.mask (Decode.funct3 h.issueInst) (wordOffset (h.accessAddress gprs t)))
      (h.accessData gprs t)
  else some pmem

/-- What the stage makes of its data. -/
def stageEffect (d : StageData) : Option StageData :=
  (List.range cfg.numThreads).foldlM
    (laneEffect h.issueMask.getLsbD (storeLane rules h) (finishLane rules h)) d

variable {h}

theorem writes_of_load
    (load : Decode.opcode h.issueInst = Decode.load) :
    writes h.issueInst = (Decode.rd h.issueInst != 0) := by
  rw [writes, load]
  rfl

theorem writes_of_store
    (store : Decode.opcode h.issueInst = Decode.store) :
    writes h.issueInst = false := by
  rw [writes, store]
  rfl

/-- A lane whose turn has not come has its registers as before the stage. -/
theorem register_of_waiting
    (result gprs : Nat → Word)
    {count t : Nat}
    (waiting : count ≤ t)
    (lane : t < cfg.numThreads)
    (field : BitVec 5) :
    (List.range count).foldl (h.writeLane result) gprs
        (h.context t * 16 + Decode.register field) =
      gprs (h.context t * 16 + Decode.register field) := by
  have small := Instruction.register_lt field
  apply (h.writeLane_actsOnParts result).foldl_of_unowned gprs (by omega)
  intro earlier before same
  have context : (h.context t * 16 + Decode.register field) / 16 = h.context t := by omega
  rw [context] at same
  have here : h.context t = h.warp * cfg.numThreads + earlier := (laneOf_eq_some_iff.mp same).2
  have own : h.context t = h.warp * cfg.numThreads + t := rfl
  omega

theorem accessAddress_of_waiting
    (result gprs : Nat → Word)
    {count t : Nat}
    (waiting : count ≤ t)
    (lane : t < cfg.numThreads) :
    h.accessAddress ((List.range count).foldl (h.writeLane result) gprs) t =
      h.accessAddress gprs t := by
  unfold accessAddress
  rw [register_of_waiting result gprs waiting lane]

theorem accessData_of_waiting
    (result gprs : Nat → Word)
    {count t : Nat}
    (waiting : count ≤ t)
    (lane : t < cfg.numThreads) :
    h.accessData ((List.range count).foldl (h.writeLane result) gprs) t =
      h.accessData gprs t := by
  unfold accessData
  rw [register_of_waiting result gprs waiting lane,
    accessAddress_of_waiting result gprs waiting lane]

theorem laneLoaded_of_waiting
    (result : Nat → Word)
    (d : StageData)
    {count t : Nat}
    (waiting : count ≤ t)
    (lane : t < cfg.numThreads) :
    laneLoaded rules h { d with gprs := (List.range count).foldl (h.writeLane result) d.gprs } t =
      laneLoaded rules h d t := by
  unfold laneLoaded
  rw [accessAddress_of_waiting result d.gprs waiting lane]

theorem laneStored_of_waiting
    (result gprs : Nat → Word)
    (pmem : Pmem)
    {count t : Nat}
    (waiting : count ≤ t)
    (lane : t < cfg.numThreads) :
    laneStored rules h ((List.range count).foldl (h.writeLane result) gprs) pmem t =
      laneStored rules h gprs pmem t := by
  unfold laneStored
  rw [accessAddress_of_waiting result gprs waiting lane,
    accessData_of_waiting result gprs waiting lane]

/-- A lane writes its own result. -/
theorem writeLane_congr
    {result result' : Nat → Word}
    (gprs : Nat → Word)
    {t : Nat}
    (same : h.issueMask.getLsbD t = true → writes h.issueInst = true → result t = result' t) :
    h.writeLane result gprs t = h.writeLane result' gprs t := by
  unfold writeLane
  refine ite_congr rfl (fun active => ?_) fun _ => rfl
  refine congrArg (Function.update · (h.context t * 16) 0) ?_
  exact ite_congr rfl (fun writing => by rw [same active writing]) fun _ => rfl

/-- The effect of one lane of a load. -/
theorem laneEffect_load
    (load : Decode.opcode h.issueInst = Decode.load)
    (d : StageData)
    (t : Nat) :
    laneEffect h.issueMask.getLsbD (storeLane rules h) (finishLane rules h) d t =
      some { d with gprs := h.writeLane (laneLoaded rules h d) d.gprs t } := by
  have noStore : ¬Decode.opcode h.issueInst = Decode.store := by
    rw [load]
    decide
  unfold laneEffect writeLane
  cases h.issueMask.getLsbD t with
  | false => rfl
  | true =>
      rw [if_pos rfl, if_pos rfl, storeLane, if_neg noStore, Option.map_some, finishLane,
        writes_of_load load]
      refine congrArg some (congrArg (StageData.mk · d.pmem) ?_)
      refine congrArg (Function.update · (h.context t * 16) 0) ?_
      refine ite_congr ?_ (fun _ => rfl) fun _ => rfl
      rw [bne_iff_ne, eq_true load, true_and]

/-- The effect of one lane of a store. -/
theorem laneEffect_store
    (store : Decode.opcode h.issueInst = Decode.store)
    (d : StageData)
    (t : Nat) :
    laneEffect h.issueMask.getLsbD (storeLane rules h) (finishLane rules h) d t =
      (laneStored rules h d.gprs d.pmem t).map
        (StageData.mk (h.writeLane (fun _ => 0) d.gprs t)) := by
  have noLoad : ¬(Decode.opcode h.issueInst = Decode.load ∧ Decode.rd h.issueInst ≠ 0) := by
    rw [store]
    exact fun both => absurd both.1 (by decide)
  unfold laneEffect writeLane laneStored finishLane
  cases h.issueMask.getLsbD t with
  | false => rfl
  | true =>
      rw [if_pos rfl, if_pos rfl, if_pos rfl, storeLane, if_pos store, Option.map_map,
        writes_of_store store]
      refine congrArg (Option.map · _) (funext fun pmem => ?_)
      rw [Function.comp_apply, if_neg noLoad]
      rfl

/-- The stage of a load. -/
theorem stageEffect_load
    (load : Decode.opcode h.issueInst = Decode.load)
    (d : StageData) :
    stageEffect rules h d =
      some { d with
        gprs := (List.range cfg.numThreads).foldl (h.writeLane (laneLoaded rules h d)) d.gprs } := by
  have prefixes : ∀ count, count ≤ cfg.numThreads →
      (List.range count).foldlM
          (laneEffect h.issueMask.getLsbD (storeLane rules h) (finishLane rules h)) d =
        some { d with
          gprs := (List.range count).foldl (h.writeLane (laneLoaded rules h d)) d.gprs } := by
    intro count
    induction count with
    | zero => exact fun _ => rfl
    | succ count inductionHypothesis =>
        intro within
        rw [List.range_succ, List.foldlM_append, inductionHypothesis (Nat.le_of_succ_le within),
          List.foldl_append, Option.bind_eq_bind, Option.bind_some, List.foldlM_cons,
          laneEffect_load rules load]
        refine congrArg some (congrArg (StageData.mk · d.pmem) (writeLane_congr _ fun _ _ => ?_))
        exact laneLoaded_of_waiting rules _ d (Nat.le_refl count) within
  exact prefixes cfg.numThreads (Nat.le_refl cfg.numThreads)

/-- The stage of a store. -/
theorem stageEffect_store
    (store : Decode.opcode h.issueInst = Decode.store)
    (d : StageData) :
    stageEffect rules h d =
      ((List.range cfg.numThreads).foldlM (laneStored rules h d.gprs) d.pmem).map
        (StageData.mk ((List.range cfg.numThreads).foldl (h.writeLane fun _ => 0) d.gprs)) := by
  have prefixes : ∀ count, count ≤ cfg.numThreads →
      (List.range count).foldlM
          (laneEffect h.issueMask.getLsbD (storeLane rules h) (finishLane rules h)) d =
        ((List.range count).foldlM (laneStored rules h d.gprs) d.pmem).map
          (StageData.mk ((List.range count).foldl (h.writeLane fun _ => 0) d.gprs)) := by
    intro count
    induction count with
    | zero => exact fun _ => rfl
    | succ count inductionHypothesis =>
        intro within
        rw [List.range_succ, List.foldlM_append, inductionHypothesis (Nat.le_of_succ_le within),
          List.foldlM_append, List.foldl_append]
        cases (List.range count).foldlM (laneStored rules h d.gprs) d.pmem with
        | none => rfl
        | some pmem =>
            rw [Option.map_some, Option.bind_eq_bind, Option.bind_some, List.foldlM_cons,
              laneEffect_store rules store,
              laneStored_of_waiting rules _ _ _ (Nat.le_refl count) within,
              Option.bind_eq_bind, Option.bind_eq_bind, Option.bind_some, List.foldlM_cons]
            cases laneStored rules h d.gprs pmem count <;> rfl
  exact prefixes cfg.numThreads (Nat.le_refl cfg.numThreads)

end Verilog.GPUCore

/-! ## Running the instruction to its end -/

/-- What a memory instruction changes. -/
structure MemoryOutcome where
  gprs : Nat → Word
  pmem : Pmem
  fault : Bool

/-- The outcome that the rules of a backend give. -/
def Verilog.GPUCore.outcomeOf (rules : AccessRules) (h : GPUCore cfg) (pmem : Pmem) :
    Option MemoryOutcome :=
  if Decode.badRegister h.issueInst then some ⟨h.gprs, pmem, true⟩
  else (stageEffect rules h ⟨h.gprs, pmem⟩).map fun d => ⟨d.gprs, d.pmem, h.faultR⟩

section Outcome

variable {numCores : Nat} (inputs : CoreInputs numCores) (pmem : Pmem)

/-- A memory instruction from `EXEC` until the SystemVerilog core is back in
`SCHED`: `some none` when a store asserts. -/
def Verilog.GPUCore.memoryOutcome (h : GPUCore cfg) : Option (Option MemoryOutcome) :=
  (complete (GPUCore.memoryEdge inputs) (fun s => s.1.state != .sched) (2 * cfg.numThreads + 1)
    (h, pmem)).map (Option.map fun s => ⟨s.1.gprs, s.2, s.1.faultR⟩)

/-- The same in the Chisel core, whose memory waits for no answer. -/
def Chisel.Core.memoryOutcome (response : Word) (core : Chisel.Core cfg) :
    Option (Option MemoryOutcome) :=
  (complete (Chisel.Core.memoryEdge inputs) (fun s => s.1.state != .sched)
    (2 * cfg.numThreads + 1) (core, ⟨false, response⟩, pmem)).map
      (Option.map fun s => ⟨s.1.gprs, s.2.2, s.1.faultR⟩)

/-- The same in the SpinalHDL core. -/
def Spinal.MemCore.memoryOutcome (m : Spinal.MemCore cfg) : Option (Option MemoryOutcome) :=
  (complete (Spinal.MemCore.memoryEdge inputs) (fun s => s.1.core.state != .sched)
    (2 * cfg.numThreads + 1) (m, pmem)).map
      (Option.map fun s => ⟨s.1.core.gprs, s.2, s.1.core.faultR⟩)

variable {h : GPUCore cfg}

/-- `EXEC` of a memory instruction. -/
theorem Verilog.GPUCore.execute_memory
    (memory : Decode.opcode h.issueInst = Decode.load ∨ Decode.opcode h.issueInst = Decode.store)
    (coreId : Nat) :
    h.execute coreId =
      if Decode.badRegister h.issueInst then { h.raise with state := .sched }
      else h.inStage .memReq 0 h.gprs := by
  unfold execute
  rw [if_pos memory]
  rfl

theorem Verilog.GPUCore.memoryEdge_exec
    (exec : h.state = .exec)
    (active : h.ctaActive = true) :
    GPUCore.memoryEdge inputs (h, pmem) = some (h.execute inputs.coreId, pmem) := by
  have noRead : h.dmemRen = false := by
    rw [dmemRen, exec]
    rfl
  have noWrite : h.dmemWen = false := by
    rw [dmemWen, exec]
    rfl
  have busy : h.ctaReady = false := by
    rw [ctaReady, active]
    rfl
  rw [GPUCore.memoryEdge, noRead, noWrite, if_neg Bool.false_ne_true, if_neg Bool.false_ne_true,
    Option.bind_some, Option.map_some, posedge, busy, Bool.and_false, if_neg Bool.false_ne_true,
    if_neg Bool.false_ne_true, if_pos active, exec]

/-- The SystemVerilog core ends with the outcome of its rules. -/
theorem Verilog.GPUCore.memoryOutcome_eq
    (exec : h.state = .exec)
    (active : h.ctaActive = true)
    (memory :
      Decode.opcode h.issueInst = Decode.load ∨ Decode.opcode h.issueInst = Decode.store) :
    h.memoryOutcome inputs pmem = some (outcomeOf GPUCore.rules h pmem) := by
  have busy : (h.state != .sched) = true := by
    rw [exec]
    rfl
  have first := @complete_of_step _ (GPUCore.memoryEdge inputs) (fun s => s.1.state != .sched)
    (h, pmem) _ (2 * cfg.numThreads) busy (memoryEdge_exec inputs pmem exec active)
  rw [memoryOutcome, first, execute_memory memory, outcomeOf]
  cases Decode.badRegister h.issueInst with
  | true =>
      rw [if_pos rfl, if_pos rfl, complete_of_idle _ rfl]
      rfl
  | false =>
      rw [if_neg Bool.false_ne_true, if_neg Bool.false_ne_true]
      refine EndsWith.observe ((serialStage active memory inputs).endsWith cfg.numThreads_pos
        ⟨h.gprs, pmem⟩ (Nat.le_refl _) rfl) ?_
      rintro d final rfl
      rfl

theorem Chisel.Core.memoryEdge_exec
    (exec : h.state = .exec)
    (active : h.ctaActive = true)
    (response : Word) :
    Chisel.Core.memoryEdge inputs (h, ⟨false, response⟩, pmem) =
      some (Chisel.Core.execute inputs.coreId h, ⟨false, response⟩, pmem) := by
  have quiet : Chisel.Core.reqValid h = false := by
    rw [Chisel.Core.reqValid, exec]
    rfl
  have busy : (!h.ctaActive) = false := by
    rw [active]
    rfl
  rw [Chisel.Core.memoryEdge_quiet quiet, Chisel.Core.posedge, busy, Bool.and_false,
    if_neg Bool.false_ne_true, if_neg Bool.false_ne_true, exec]
  rfl

/-- The Chisel core ends with the outcome of its rules. -/
theorem Chisel.Core.memoryOutcome_eq
    (inRange : h.InRange)
    (exec : h.state = .exec)
    (active : h.ctaActive = true)
    (memory : Decode.opcode h.issueInst = Decode.load ∨ Decode.opcode h.issueInst = Decode.store)
    (response : Word) :
    Chisel.Core.memoryOutcome inputs pmem response h =
      some (outcomeOf Chisel.Core.rules h pmem) := by
  have busy : (h.state != .sched) = true := by
    rw [exec]
    rfl
  have first := @complete_of_step _ (Chisel.Core.memoryEdge inputs) (fun s => s.1.state != .sched)
    (h, ⟨false, response⟩, pmem) _ (2 * cfg.numThreads) busy
    (Chisel.Core.memoryEdge_exec inputs pmem exec active response)
  have executes : Chisel.Core.execute inputs.coreId h =
      if Decode.badRegister h.issueInst then { h.raise with state := .sched }
      else h.inStage .memReq 0 h.gprs := by
    unfold Chisel.Core.execute
    rw [if_pos memory]
    rfl
  rw [Chisel.Core.memoryOutcome, first, executes, outcomeOf]
  cases Decode.badRegister h.issueInst with
  | true =>
      rw [if_pos rfl, if_pos rfl, complete_of_idle _ rfl]
      rfl
  | false =>
      rw [if_neg Bool.false_ne_true, if_neg Bool.false_ne_true]
      refine EndsWith.observe ((Chisel.Core.serialStage inRange active memory inputs).endsWith
        cfg.numThreads_pos ⟨h.gprs, pmem⟩ (Nat.le_refl _) ⟨response, rfl⟩) ?_
      rintro d final ⟨last, rfl⟩
      rfl

theorem Spinal.MemCore.memoryEdge_exec
    (exec : h.state = .exec)
    (active : h.ctaActive = true)
    (held : Word) :
    Spinal.MemCore.memoryEdge inputs (⟨h, held⟩, pmem) =
      some (⟨Spinal.Core.execute inputs.coreId h, held⟩, pmem) := by
  have noRead : Spinal.Core.dmemRen h = false := by
    rw [Spinal.Core.dmemRen, exec]
    rfl
  have noWrite : Spinal.Core.dmemWen h = false := by
    rw [Spinal.Core.dmemWen, exec]
    rfl
  have busy : Spinal.Core.ctaReady h = false := by
    rw [Spinal.Core.ctaReady, active]
    rfl
  rw [Spinal.MemCore.memoryEdge_quiet noRead noWrite, Spinal.MemCore.posedge]
  dsimp only
  rw [busy, Bool.and_false, if_neg Bool.false_ne_true, if_neg Bool.false_ne_true, exec]

/-- The SpinalHDL core ends with the outcome of its rules. -/
theorem Spinal.MemCore.memoryOutcome_eq
    (inRange : h.InRange)
    (exec : h.state = .exec)
    (active : h.ctaActive = true)
    (memory : Decode.opcode h.issueInst = Decode.load ∨ Decode.opcode h.issueInst = Decode.store)
    (held : Word) :
    Spinal.MemCore.memoryOutcome inputs pmem ⟨h, held⟩ =
      some (outcomeOf Spinal.rules h pmem) := by
  have busy : (h.state != .sched) = true := by
    rw [exec]
    rfl
  have first := @complete_of_step _ (Spinal.MemCore.memoryEdge inputs)
    (fun s => s.1.core.state != .sched) (⟨h, held⟩, pmem) _ (2 * cfg.numThreads) busy
    (Spinal.MemCore.memoryEdge_exec inputs pmem exec active held)
  have executes : Spinal.Core.execute inputs.coreId h =
      if Decode.badRegister h.issueInst then { h.raise with state := .sched }
      else h.inStage .memReq 0 h.gprs := by
    unfold Spinal.Core.execute
    rw [if_pos memory]
    rfl
  rw [Spinal.MemCore.memoryOutcome, first, executes, outcomeOf]
  cases Decode.badRegister h.issueInst with
  | true =>
      rw [if_pos rfl, if_pos rfl, complete_of_idle _ rfl]
      rfl
  | false =>
      rw [if_neg Bool.false_ne_true, if_neg Bool.false_ne_true]
      refine EndsWith.observe ((Spinal.MemCore.serialStage inRange active memory inputs).endsWith
        cfg.numThreads_pos ⟨h.gprs, pmem⟩ (Nat.le_refl _) ⟨held, rfl⟩) ?_
      rintro d final ⟨last, rfl⟩
      rfl

end Outcome

end OpenGPU
