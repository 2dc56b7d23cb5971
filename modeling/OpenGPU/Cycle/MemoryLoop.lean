import OpenGPU.Cycle.CoreAlone

/-!
# The memory loop

A load or a store leaves `EXEC` for `MEM_REQ` and goes through the lanes of the warp one
after another: an inactive lane takes one cycle, an active one asks in `MEM_REQ` and is
answered in `MEM_RESP`. What the loop does is the accesses of the active lanes in order.
-/

namespace OpenGPU

namespace Core

open Instruction

/-- The issued lanes of a warp, in increasing order. -/
def activeLanes (cfg : Config) (c : Core) : List Nat :=
  (List.range cfg.numThreads).filter fun t => hasLane c.im t

/-- The registers of a core and the memory. -/
structure LaneData where
  gpr : Nat → Nat → Word
  mem : ShadowMemory

/-- The address of one lane, from its own registers. -/
def laneAddress (cfg : Config) (c : Core) (gpr : Nat → Nat → Word) (t : Nat) : Word :=
  gpr (c.context cfg t) (rs1 c.inst &&& 15).toNat +
    (if opcode c.inst = 0x03 then immI c.inst else immS c.inst)

/-- The store of one lane. -/
def laneStore (cfg : Config) (c : Core) (gpr : Nat → Nat → Word) (t : Nat) : Store where
  addr := c.laneAddress cfg gpr t &&& ~~~3
  data := gpr (c.context cfg t) (rs2 c.inst &&& 15).toNat <<< byteShift (c.laneAddress cfg gpr t)
  mask := (Model.byteMask (funct3 c.inst) (c.laneAddress cfg gpr t)).setWidth 8

/-- The load or the store of one lane. -/
def accessLane (cfg : Config) (c : Core) (data : LaneData) (t : Nat) : LaneData :=
  if opcode c.inst = 0x03 then
    if rd c.inst = 0 then data
    else
      { data with
        gpr := Function.update data.gpr (c.context cfg t)
          (Function.update (data.gpr (c.context cfg t)) (rd c.inst).toNat
            (loadValue cfg data.mem (c.laneAddress cfg data.gpr t) (funct3 c.inst))) }
  else { data with mem := Model.storeRef cfg data.mem (c.laneStore cfg data.gpr t) }

/-- The lane whose access a cycle performs: a store goes out with the request, a load
comes back with the response. -/
def performed (c : Core) : List Nat :=
  if c.ctaActive ∧ (opcode c.inst = 0x23 ∧ c.state = .memReq ∧ hasLane c.im c.mt ∨
      opcode c.inst = 0x03 ∧ c.state = .memResp) then [c.mt]
  else []

end Core

namespace Model

open Instruction

/-- A core has left `EXEC` with a load or a store while the others are idle. -/
structure MemoryStart (cfg : Config) (core : Nat) (m : Model) : Prop where
  alone : Alone cfg core m
  active : (m.cores core).ctaActive = true
  request : (m.cores core).state = .memReq
  first : (m.cores core).mt = 0
  legal : badRegister (m.cores core).inst = false
  word : opcode (m.cores core).inst = 0x03 ∨ opcode (m.cores core).inst = 0x23
  lanes : ∀ t, hasLane (m.cores core).im t = true → t < cfg.numThreads
  zero : ∀ x, (m.cores core).gpr x 0 = 0

/-- The cycles that the loop takes: one for every lane and one more for every issued
one. -/
def loopCycles (cfg : Config) (c : Core) : Nat := cfg.numThreads + (laneFinset c.im).card

/-- The lanes whose accesses the first `time` ticks perform, in order. -/
def accesses (cfg : Config) (inputs : Nat → Inputs) (core : Nat) (m : Model) (time : Nat) :
    List Nat :=
  (List.range time).flatMap fun k =>
    ((after cfg inputs m k).map fun now => (now.cores core).performed).getD []

/-- The core stays in the loop for `time` cycles. -/
def InLoopUntil (cfg : Config) (inputs : Nat → Inputs) (core : Nat) (m : Model) (time : Nat) :
    Prop :=
  ∀ k, k < time → ∃ now, after cfg inputs m k = some now ∧ (now.cores core).InLoop

/-- The loop has ended in `final`. -/
structure LoopDone (cfg : Config) (core : Nat) (inputs : Nat → Inputs) (m final : Model) :
    Prop where
  reached : after cfg inputs m (loopCycles cfg (m.cores core)) = some final
  during : InLoopUntil cfg inputs core m (loopCycles cfg (m.cores core))
  sched : (final.cores core).state = .sched
  order : accesses cfg inputs core m (loopCycles cfg (m.cores core)) =
    (m.cores core).activeLanes cfg
  data : (⟨(final.cores core).gpr, final.mem⟩ : Core.LaneData) =
    ((m.cores core).activeLanes cfg).foldl ((m.cores core).accessLane cfg)
      ⟨(m.cores core).gpr, m.mem⟩
  others : ∀ x r, (final.cores core).gpr x r ≠ (m.cores core).gpr x r →
    opcode (m.cores core).inst = 0x03 ∧ rd (m.cores core).inst ≠ 0 ∧
      r = (rd (m.cores core).inst).toNat ∧
      ∃ t ∈ (m.cores core).activeLanes cfg, x = (m.cores core).context cfg t
  pc : (final.cores core).pc =
    Function.update (m.cores core).pc (m.cores core).iw ((m.cores core).ip + 4)

/-- The loop ends on time, with one access for every issued lane. -/
def VisitsEachLane (cfg : Config) (core : Nat) (inputs : Nat → Inputs) (m : Model) : Prop :=
  ∃ final, LoopDone cfg core inputs m final

/-! ## One lane -/

/-- The core is at a lane, in one of the two states, with these registers and this
memory; everything else is as it was when the loop began. -/
structure AtLane (cfg : Config) (core : Nat) (start : Core) (state : CoreState) (t : Nat)
    (data : Core.LaneData) (m : Model) : Prop where
  alone : Alone cfg core m
  here : m.cores core = { start with gpr := data.gpr, mt := t, state := state }
  mem : m.mem = data.mem
  zero : ∀ x, data.gpr x 0 = 0

/-- The core has left the loop after its last lane. -/
structure Left (cfg : Config) (core : Nat) (start : Core) (data : Core.LaneData) (m : Model) :
    Prop where
  here : m.cores core =
    Core.finishMemory cfg { start with gpr := data.gpr, mt := cfg.numThreads - 1 }
  mem : m.mem = data.mem

/-- The core goes on with the next lane, or has left after the last one. -/
def Onward (cfg : Config) (core : Nat) (start : Core) (t : Nat) (data : Core.LaneData)
    (m : Model) : Prop :=
  if t + 1 = cfg.numThreads then Left cfg core start data m
  else AtLane cfg core start .memReq (t + 1) data m

section Lane

variable {cfg : Config} {core : Nat} {start : Core} {t : Nat} {data : Core.LaneData} {m : Model}
  {inputs : Inputs}

/-- It takes no block there. -/
theorem AtLane.atWork
    {state : CoreState}
    (here : AtLane cfg core start state t data m)
    (active : start.ctaActive = true) :
    m.coreReady core = false := by
  rw [coreReady, here.here, active]
  rfl

/-- A core that goes on stays small enough for `pack`. -/
theorem AtLane.packs
    {state : CoreState}
    (here : AtLane cfg core start state t data m)
    {stepped : Core}
    (valid : stepped.valid = start.valid)
    (lane : stepped.InLoop → stepped.mt < 32) :
    Packs cfg stepped := by
  refine ⟨fun w inRange isValid => ?_, lane⟩
  apply ((packDefined_iff.mp here.alone.packed).2 core here.alone.inRange).warps w inRange
  rw [here.here]
  rwa [valid] at isValid

/-- Where a core goes from a lane that it is done with. -/
def onwardCore (cfg : Config) (start : Core) (t : Nat) (gpr : Nat → Nat → Word) : Core :=
  if t + 1 = cfg.numThreads then
    Core.finishMemory cfg { start with gpr := gpr, mt := cfg.numThreads - 1 }
  else { start with gpr := gpr, mt := t + 1, state := .memReq }

theorem Onward.of_core
    (alone : Alone cfg core m)
    (here : m.cores core = onwardCore cfg start t data.gpr)
    (mem : m.mem = data.mem)
    (zero : ∀ x, data.gpr x 0 = 0) :
    Onward cfg core start t data m := by
  unfold Onward
  unfold onwardCore at here
  split_ifs at here ⊢
  · exact ⟨here, mem⟩
  · exact ⟨alone, here, mem, zero⟩

/-- It is small enough for `pack` too, when a warp has at most 32 lanes. -/
theorem AtLane.packs_onwardCore
    {state : CoreState}
    (here : AtLane cfg core start state t data m)
    (threads : cfg.numThreads ≤ 32)
    (lane : t < cfg.numThreads)
    (gpr : Nat → Nat → Word) :
    Packs cfg (onwardCore cfg start t gpr) := by
  unfold onwardCore
  split_ifs
  · exact here.packs rfl fun inLoop => by
      rcases inLoop with request | response
      · exact CoreState.noConfusion request
      · exact CoreState.noConfusion response
  · refine here.packs rfl fun _ => ?_
    show t + 1 < 32
    omega

/-- An inactive lane takes one cycle. -/
theorem AtLane.skip
    (here : AtLane cfg core start .memReq t data m)
    (active : start.ctaActive = true)
    (threads : cfg.numThreads ≤ 32)
    (lane : t < cfg.numThreads)
    (idle : hasLane start.im t = false)
    (running : inputs.reset = false)
    (noLaunch : inputs.launch = false) :
    ∃ next, m.tick cfg inputs = some next ∧ Onward cfg core start t data next := by
  have step : (m.cores core).stepCore cfg m.mem m.launchRegisters core false =
      onwardCore cfg start t data.gpr := by
    rw [here.here, Core.stepCore, if_neg Bool.false_ne_true, if_neg (by simp [active])]
    show Core.memoryRequest cfg { start with gpr := data.gpr, mt := t, state := .memReq } = _
    rw [Core.memoryRequest, if_neg (by simp [idle]), onwardCore]
    by_cases last : t + 1 = cfg.numThreads
    · rw [if_pos last, if_pos (show t = cfg.numThreads - 1 by omega),
        show cfg.numThreads - 1 = t by omega]
      rfl
    · rw [if_neg last, if_neg (show ¬t = cfg.numThreads - 1 by omega)]
  have defined : (m.cores core).stepDefined cfg m.launchRegisters false = true := by
    rw [here.here, Core.stepDefined, if_neg Bool.false_ne_true, if_neg (by simp [active])]
    exact decide_eq_true (lane.trans_le threads)
  have stores : captureStore cfg (m.cores core) = none := by
    rw [here.here]
    exact if_neg fun captured => Bool.false_ne_true (idle ▸ captured.2.2.1)
  obtain ⟨next, ticked, alone, own, mem⟩ :=
    here.alone.exists_tick (here.atWork active) running noLaunch step defined
      (here.packs_onwardCore threads lane _)
  rw [stores] at mem
  exact ⟨next, ticked, Onward.of_core alone own (mem.trans here.mem) here.zero⟩

/-- The registers and the memory after the request of a lane: a store has gone out. -/
def requested (cfg : Config) (start : Core) (data : Core.LaneData) (t : Nat) : Core.LaneData :=
  if opcode start.inst = 0x03 then data
  else { data with mem := storeRef cfg data.mem (start.laneStore cfg data.gpr t) }

/-- An active lane asks. -/
theorem AtLane.ask
    (here : AtLane cfg core start .memReq t data m)
    (active : start.ctaActive = true)
    (word : opcode start.inst = 0x03 ∨ opcode start.inst = 0x23)
    (small : t < 32)
    (issued : hasLane start.im t = true)
    (running : inputs.reset = false)
    (noLaunch : inputs.launch = false) :
    ∃ next, m.tick cfg inputs = some next ∧
      AtLane cfg core start .memResp t (requested cfg start data t) next := by
  have step : (m.cores core).stepCore cfg m.mem m.launchRegisters core false =
      { start with gpr := data.gpr, mt := t, state := .memResp } := by
    rw [here.here, Core.stepCore, if_neg Bool.false_ne_true, if_neg (by simp [active])]
    show Core.memoryRequest cfg { start with gpr := data.gpr, mt := t, state := .memReq } = _
    rw [Core.memoryRequest, if_pos issued]
  have defined : (m.cores core).stepDefined cfg m.launchRegisters false = true := by
    rw [here.here, Core.stepDefined, if_neg Bool.false_ne_true, if_neg (by simp [active])]
    exact decide_eq_true small
  have stores : captureStore cfg (m.cores core) =
      if opcode start.inst = 0x03 then none else some (start.laneStore cfg data.gpr t) := by
    rw [here.here]
    rcases word with load | store
    · rw [if_pos load]
      refine if_neg fun captured => ?_
      have store : opcode start.inst = 0x23 := captured.2.2.2
      rw [load] at store
      exact absurd store (by decide)
    · rw [if_neg (by rw [store]; decide)]
      exact if_pos ⟨active, rfl, issued, store⟩
  obtain ⟨next, ticked, alone, own, mem⟩ :=
    here.alone.exists_tick (here.atWork active) running noLaunch step defined
      (here.packs rfl fun _ => small)
  rw [stores, here.mem] at mem
  refine ⟨next, ticked, alone, ?_, ?_, ?_⟩
  · rw [own, requested]
    split_ifs <;> rfl
  · rw [mem, requested]
    split_ifs <;> rfl
  · rw [requested]
    split_ifs <;> exact here.zero

/-- Clearing register zero changes nothing. -/
theorem update_row_zero
    {row : Nat → Word}
    (zero : row 0 = 0) :
    Function.update row 0 0 = row := by
  funext r
  rcases eq_or_ne r 0 with rfl | other
  · rw [Function.update_self, zero]
  · rw [Function.update_of_ne other]

/-- An access leaves register zero alone. -/
theorem accessLane_zero
    (zero : ∀ x, data.gpr x 0 = 0) :
    ∀ x, (start.accessLane cfg data t).gpr x 0 = 0 := by
  intro x
  unfold Core.accessLane
  split_ifs with load toZero
  · exact zero x
  · show Function.update data.gpr _ _ x 0 = 0
    rcases eq_or_ne x (start.context cfg t) with rfl | other
    · have different : 0 ≠ (rd start.inst).toNat := fun same =>
        toZero (BitVec.eq_of_toNat_eq same.symm)
      rw [Function.update_self, Function.update_of_ne different]
      exact zero _
    · rw [Function.update_of_ne other]
      exact zero x
  · exact zero x

/-- The registers after the answer are those of the access. -/
theorem accessLane_gpr
    (zero : ∀ x, data.gpr x 0 = 0) :
    (start.accessLane cfg data t).gpr =
      Function.update data.gpr (start.context cfg t)
        (Function.update
          (if opcode start.inst = 0x03 ∧ rd start.inst ≠ 0 then
            Function.update (data.gpr (start.context cfg t)) (rd start.inst).toNat
              (Core.loadValue cfg (requested cfg start data t).mem
                (start.laneAddress cfg data.gpr t) (funct3 start.inst))
          else data.gpr (start.context cfg t)) 0 0) := by
  by_cases written : opcode start.inst = 0x03 ∧ rd start.inst ≠ 0
  · obtain ⟨load, register⟩ := written
    have different : 0 ≠ (rd start.inst).toNat := fun same =>
      register (BitVec.eq_of_toNat_eq same.symm)
    rw [if_pos ⟨load, register⟩, Core.accessLane, if_pos load, if_neg register, requested,
      if_pos load, update_row_zero]
    rw [Function.update_of_ne different]
    exact zero _
  · have kept : (start.accessLane cfg data t).gpr = data.gpr := by
      unfold Core.accessLane
      split_ifs with load toZero
      · rfl
      · exact absurd ⟨load, toZero⟩ written
      · rfl
    rw [if_neg written, update_row_zero (zero _), Function.update_eq_self, kept]

/-- The answer completes the access of the lane. -/
theorem AtLane.answer
    (here : AtLane cfg core start .memResp t (requested cfg start data t) m)
    (active : start.ctaActive = true)
    (threads : cfg.numThreads ≤ 32)
    (lane : t < cfg.numThreads)
    (zero : ∀ x, data.gpr x 0 = 0)
    (running : inputs.reset = false)
    (noLaunch : inputs.launch = false) :
    ∃ next, m.tick cfg inputs = some next ∧
      Onward cfg core start t (start.accessLane cfg data t) next := by
  have sameGpr : (requested cfg start data t).gpr = data.gpr := by
    unfold requested
    split_ifs <;> rfl
  have sameMem : (requested cfg start data t).mem = (start.accessLane cfg data t).mem := by
    unfold requested Core.accessLane
    split_ifs <;> rfl
  have step : (m.cores core).stepCore cfg m.mem m.launchRegisters core false =
      onwardCore cfg start t (start.accessLane cfg data t).gpr := by
    rw [here.here, here.mem, sameGpr, Core.stepCore, if_neg Bool.false_ne_true,
      if_neg (by simp [active]), accessLane_gpr zero]
    show Core.memoryResponse cfg _ { start with gpr := data.gpr, mt := t, state := .memResp } = _
    unfold Core.memoryResponse
    extract_lets x row written
    rw [onwardCore]
    by_cases last : t + 1 = cfg.numThreads
    · rw [if_pos last, if_pos (show t = cfg.numThreads - 1 by omega),
        show cfg.numThreads - 1 = t by omega]
      rfl
    · rw [if_neg last, if_neg (show ¬t = cfg.numThreads - 1 by omega)]
      rfl
  have defined : (m.cores core).stepDefined cfg m.launchRegisters false = true := by
    rw [here.here, Core.stepDefined, if_neg Bool.false_ne_true, if_neg (by simp [active])]
  have stores : captureStore cfg (m.cores core) = none := by
    rw [here.here]
    exact if_neg fun captured => CoreState.noConfusion captured.2.1
  obtain ⟨next, ticked, alone, own, mem⟩ :=
    here.alone.exists_tick (here.atWork active) running noLaunch step defined
      (here.packs_onwardCore threads lane _)
  rw [stores] at mem
  exact ⟨next, ticked, Onward.of_core alone own ((mem.trans here.mem).trans sameMem)
    (accessLane_zero zero)⟩

end Lane

/-! ## The whole loop -/

section Loop

variable {cfg : Config} {core : Nat} {m : Model} {inputs : Nat → Inputs}

/-- The issued lanes below `t`. -/
def activeBelow (c : Core) (t : Nat) : List Nat := (List.range t).filter fun t => hasLane c.im t

/-- The cycles that the lanes below `t` take. -/
def cyclesBelow (c : Core) (t : Nat) : Nat := t + (activeBelow c t).length

theorem activeBelow_succ
    (c : Core)
    (t : Nat) :
    activeBelow c (t + 1) = activeBelow c t ++ if hasLane c.im t then [t] else [] := by
  rw [activeBelow, List.range_succ, List.filter_append, List.filter_singleton]
  cases hasLane c.im t <;> rfl

/-- What the lanes below `t` have left: the core has been in the loop all the time, and
they have had their accesses. -/
structure Visited (cfg : Config) (core : Nat) (inputs : Nat → Inputs) (m : Model) (t : Nat) :
    Prop where
  during : InLoopUntil cfg inputs core m (cyclesBelow (m.cores core) t)
  order : accesses cfg inputs core m (cyclesBelow (m.cores core) t) =
    activeBelow (m.cores core) t

/-- The data that the lanes below `t` leave. -/
def dataBelow (cfg : Config) (core : Nat) (m : Model) (t : Nat) : Core.LaneData :=
  (activeBelow (m.cores core) t).foldl ((m.cores core).accessLane cfg)
    ⟨(m.cores core).gpr, m.mem⟩

theorem after_succ
    {time : Nat}
    {now next : Model}
    (reached : after cfg inputs m time = some now)
    (ticked : now.tick cfg (inputs time) = some next) :
    after cfg inputs m (time + 1) = some next := by
  rw [after, reached]
  exact ticked

theorem accesses_succ
    {time : Nat}
    {now : Model}
    (reached : after cfg inputs m time = some now) :
    accesses cfg inputs core m (time + 1) =
      accesses cfg inputs core m time ++ (now.cores core).performed := by
  rw [accesses, List.range_succ, List.flatMap_append, List.flatMap_singleton, reached]
  rfl

theorem InLoopUntil.succ
    {time : Nat}
    {now : Model}
    (inLoop : InLoopUntil cfg inputs core m time)
    (reached : after cfg inputs m time = some now)
    (stays : (now.cores core).InLoop) :
    InLoopUntil cfg inputs core m (time + 1) := by
  intro k before
  rcases Nat.lt_succ_iff_lt_or_eq.mp before with earlier | rfl
  · exact inLoop k earlier
  · exact ⟨now, reached, stays⟩

/-- A lane that is not issued costs one cycle. -/
theorem below_of_idle
    {c : Core}
    {t : Nat}
    (idle : hasLane c.im t = false) :
    activeBelow c (t + 1) = activeBelow c t ∧ cyclesBelow c (t + 1) = cyclesBelow c t + 1 := by
  have below : activeBelow c (t + 1) = activeBelow c t := by
    rw [activeBelow_succ, idle]
    exact List.append_nil _
  refine ⟨below, ?_⟩
  rw [cyclesBelow, cyclesBelow, below]
  omega

/-- An issued lane costs two. -/
theorem below_of_issued
    {c : Core}
    {t : Nat}
    (issued : hasLane c.im t = true) :
    activeBelow c (t + 1) = activeBelow c t ++ [t] ∧
      cyclesBelow c (t + 1) = cyclesBelow c t + 1 + 1 := by
  have below : activeBelow c (t + 1) = activeBelow c t ++ [t] := by
    rw [activeBelow_succ, issued]
    rfl
  refine ⟨below, ?_⟩
  rw [cyclesBelow, cyclesBelow, below, List.length_append, List.length_singleton]
  omega

/-- Nothing is performed at a lane that is not issued. -/
theorem AtLane.performed_idle
    {c : Core}
    {t : Nat}
    {data : Core.LaneData}
    {now : Model}
    (here : AtLane cfg core c .memReq t data now)
    (idle : hasLane c.im t = false) :
    (now.cores core).performed = [] := by
  rw [here.here]
  refine if_neg fun access => ?_
  rcases access.2 with ⟨_, _, present⟩ | ⟨_, response⟩
  · exact Bool.false_ne_true (idle ▸ present)
  · exact CoreState.noConfusion response

/-- The request and the response of an issued lane perform one access together. -/
theorem AtLane.performed_once
    {c : Core}
    {t : Nat}
    {data data' : Core.LaneData}
    {now asked : Model}
    (active : c.ctaActive = true)
    (word : opcode c.inst = 0x03 ∨ opcode c.inst = 0x23)
    (issued : hasLane c.im t = true)
    (here : AtLane cfg core c .memReq t data now)
    (answering : AtLane cfg core c .memResp t data' asked) :
    (now.cores core).performed ++ (asked.cores core).performed = [t] := by
  rw [here.here, answering.here]
  unfold Core.performed
  rcases word with load | store
  · rw [if_neg, if_pos]
    · rfl
    · exact ⟨active, Or.inr ⟨load, rfl⟩⟩
    · rintro ⟨_, ⟨store, _⟩ | ⟨_, response⟩⟩
      · exact absurd (load.symm.trans store) (by decide)
      · exact CoreState.noConfusion response
  · rw [if_pos, if_neg]
    · rfl
    · rintro ⟨_, ⟨_, request, _⟩ | ⟨load, _⟩⟩
      · exact CoreState.noConfusion request
      · exact absurd (load.symm.trans store) (by decide)
    · exact ⟨active, Or.inl ⟨store, rfl, issued⟩⟩

/-- One lane more. -/
theorem Visited.succ
    (start : MemoryStart cfg core m)
    (undisturbed : Undisturbed inputs)
    (threads : cfg.numThreads ≤ 32)
    {t : Nat}
    (lane : t < cfg.numThreads)
    (visited : Visited cfg core inputs m t)
    {now : Model}
    (reached : after cfg inputs m (cyclesBelow (m.cores core) t) = some now)
    (here : AtLane cfg core (m.cores core) .memReq t (dataBelow cfg core m t) now) :
    ∃ next, after cfg inputs m (cyclesBelow (m.cores core) (t + 1)) = some next ∧
      Onward cfg core (m.cores core) t (dataBelow cfg core m (t + 1)) next ∧
      Visited cfg core inputs m (t + 1) := by
  have request : (now.cores core).InLoop := by
    rw [here.here]
    exact Or.inl rfl
  have during := visited.during.succ reached request
  have reset := undisturbed.reset
  have launch := undisturbed.launch
  cases issued : hasLane (m.cores core).im t with
  | false =>
      obtain ⟨below, cycles⟩ := below_of_idle issued
      obtain ⟨next, ticked, onward⟩ := here.skip start.active threads lane issued (reset _)
        (launch _)
      refine ⟨next, ?_, ?_, ?_, ?_⟩
      · rw [cycles]
        exact after_succ reached ticked
      · rw [dataBelow, below]
        exact onward
      · rw [cycles]
        exact during
      · rw [cycles, accesses_succ reached, visited.order, here.performed_idle issued, below,
          List.append_nil]
  | true =>
      obtain ⟨below, cycles⟩ := below_of_issued issued
      obtain ⟨asked, ticked, answering⟩ := here.ask start.active start.word
        (lane.trans_le threads) issued (reset _) (launch _)
      have reachedAsked := after_succ reached ticked
      obtain ⟨next, answered, onward⟩ := answering.answer start.active threads lane here.zero
        (reset _) (launch _)
      refine ⟨next, ?_, ?_, ?_, ?_⟩
      · rw [cycles]
        exact after_succ reachedAsked answered
      · rw [dataBelow, below, List.foldl_append]
        exact onward
      · rw [cycles]
        refine during.succ reachedAsked ?_
        rw [answering.here]
        exact Or.inr rfl
      · rw [cycles, accesses_succ reachedAsked, accesses_succ reached, visited.order,
          List.append_assoc,
          AtLane.performed_once start.active start.word issued here answering, below]

/-- Every lane has its turn after those below it. -/
theorem MemoryStart.exists_atLane
    (start : MemoryStart cfg core m)
    (undisturbed : Undisturbed inputs)
    (threads : cfg.numThreads ≤ 32)
    {t : Nat}
    (lane : t < cfg.numThreads) :
    ∃ now, after cfg inputs m (cyclesBelow (m.cores core) t) = some now ∧
      AtLane cfg core (m.cores core) .memReq t (dataBelow cfg core m t) now ∧
      Visited cfg core inputs m t := by
  induction t with
  | zero =>
      have here : m.cores core = { m.cores core with
          gpr := (m.cores core).gpr, mt := 0, state := .memReq } := by
        rw [← start.first, ← start.request]
      exact ⟨m, rfl, ⟨start.alone, here, rfl, start.zero⟩,
        fun time before => absurd before (Nat.not_lt_zero time), rfl⟩
  | succ t inductionHypothesis =>
      obtain ⟨now, reached, here, visited⟩ := inductionHypothesis (by omega)
      obtain ⟨next, after, onward, more⟩ :=
        visited.succ start undisturbed threads (by omega) reached here
      exact ⟨next, after, (if_neg (by omega)).mp onward, more⟩

/-- Every issued lane is below the number of lanes, so `popcount` counts them all. -/
theorem MemoryStart.loopCycles_eq
    (start : MemoryStart cfg core m) :
    loopCycles cfg (m.cores core) = cyclesBelow (m.cores core) cfg.numThreads := by
  have lanes : laneFinset (m.cores core).im =
      (activeBelow (m.cores core) cfg.numThreads).toFinset := by
    ext t
    rw [mem_laneFinset, List.mem_toFinset, activeBelow, List.mem_filter, List.mem_range]
    exact ⟨fun issued => ⟨start.lanes t issued, issued⟩, fun member => member.2⟩
  have nodup : (activeBelow (m.cores core) cfg.numThreads).Nodup :=
    List.Nodup.filter _ List.nodup_range
  rw [loopCycles, cyclesBelow, lanes, List.toFinset_card_of_nodup nodup]

/-- The accesses change nothing but the register of a load. -/
theorem foldl_accessLane_others
    {start : Core}
    {x r : Nat}
    (lanes : List Nat)
    (data : Core.LaneData)
    (changed : (lanes.foldl (start.accessLane cfg) data).gpr x r ≠ data.gpr x r) :
    opcode start.inst = 0x03 ∧ rd start.inst ≠ 0 ∧ r = (rd start.inst).toNat ∧
      ∃ t ∈ lanes, x = start.context cfg t := by
  induction lanes generalizing data with
  | nil => exact absurd rfl changed
  | cons t lanes inductionHypothesis =>
      rw [List.foldl_cons] at changed
      by_cases early : (start.accessLane cfg data t).gpr x r = data.gpr x r
      · rw [← early] at changed
        obtain ⟨load, register, here, lane, member, own⟩ := inductionHypothesis _ changed
        exact ⟨load, register, here, lane, List.mem_cons_of_mem _ member, own⟩
      · unfold Core.accessLane at early
        split_ifs at early with load toZero
        · exact absurd rfl early
        · have own : x = start.context cfg t := by
            by_contra other
            exact early (congrFun (Function.update_of_ne other _ _) r)
          refine ⟨load, toZero, ?_, t, List.mem_cons_self, own⟩
          by_contra other
          subst own
          apply early
          exact (congrFun (Function.update_self _ _ data.gpr) r).trans
            (Function.update_of_ne other _ _)
        · exact absurd rfl early

/-- With at most 32 lanes a warp the loop ends on time. -/
theorem MemoryStart.visitsEachLane
    (start : MemoryStart cfg core m)
    (undisturbed : Undisturbed inputs)
    (threads : cfg.numThreads ≤ 32) :
    VisitsEachLane cfg core inputs m := by
  obtain ⟨lanes, count⟩ := Nat.exists_eq_add_of_lt cfg.numThreads_pos
  rw [Nat.zero_add] at count
  obtain ⟨now, reached, here, visited⟩ :=
    start.exists_atLane undisturbed threads (show lanes < cfg.numThreads by omega)
  obtain ⟨final, ended, onward, all⟩ :=
    visited.succ start undisturbed threads (by omega) reached here
  have left := (if_pos count.symm).mp onward
  rw [← count] at ended left all
  have cycles := start.loopCycles_eq
  have data : (⟨(final.cores core).gpr, final.mem⟩ : Core.LaneData) =
      dataBelow cfg core m cfg.numThreads := by
    rw [left.here, left.mem]
    rfl
  refine ⟨final, ?_, ?_, ?_, ?_, data, fun x r changed => ?_, ?_⟩
  · rw [cycles]
    exact ended
  · rw [cycles]
    exact all.during
  · rw [left.here]
    rfl
  · rw [cycles]
    exact all.order
  · rw [show (final.cores core).gpr = (dataBelow cfg core m cfg.numThreads).gpr from
      congrArg Core.LaneData.gpr data] at changed
    exact foldl_accessLane_others _ _ changed
  · rw [left.here]
    rfl

/-- The last cycle of the loop is at the last lane, by which it has shifted. -/
theorem MemoryStart.numThreads_le
    (start : MemoryStart cfg core m)
    (undisturbed : Undisturbed inputs)
    (visits : VisitsEachLane cfg core inputs m) :
    cfg.numThreads ≤ 32 := by
  obtain ⟨final, done⟩ := visits
  obtain ⟨last, count⟩ : ∃ last, loopCycles cfg (m.cores core) = last + 1 :=
    Nat.exists_eq_succ_of_ne_zero (Nat.ne_of_gt (Nat.add_pos_left cfg.numThreads_pos _))
  obtain ⟨now, reached, inLoop⟩ := done.during last (by omega)
  have alone : ∀ time now, after cfg inputs m time = some now → Alone cfg core now := by
    intro time
    induction time with
    | zero =>
        intro now reached
        cases reached
        exact start.alone
    | succ time inductionHypothesis =>
        intro now reached
        obtain ⟨before, earlier, ticked⟩ := Option.bind_eq_some_iff.mp reached
        exact (inductionHypothesis before earlier).of_tick (undisturbed.reset time)
          (undisturbed.launch time) ticked
  have here := alone last now reached
  have ticked : now.tick cfg (inputs last) = some final := by
    have ended := done.reached
    rwa [count, after, reached, Option.bind_some] at ended
  have noFire : now.firing cfg = none := by
    apply here.noFire
    rw [coreReady]
    rcases inLoop with request | response
    · rw [request]
      exact Bool.and_false _
    · rw [response]
      exact Bool.and_false _
  have small := ((packDefined_iff.mp here.packed).2 core here.inRange).lane inLoop
  have ends := done.sched
  rw [tick_cores ticked (undisturbed.reset last) here.inRange, noFire] at ends
  have ends : (Core.stepCore cfg now.mem now.launchRegisters core false
      (now.cores core)).state = .sched := ends
  have lane : (now.cores core).mt = cfg.numThreads - 1 := by
    by_contra notLast
    rw [Core.stepCore, if_neg Bool.false_ne_true] at ends
    split_ifs at ends with inactive
    · rcases inLoop with request | response
      · exact CoreState.noConfusion (request.symm.trans ends)
      · exact CoreState.noConfusion (response.symm.trans ends)
    · rcases inLoop with request | response
      · rw [request] at ends
        have ends : (Core.memoryRequest cfg (now.cores core)).state = .sched := ends
        rw [Core.memoryRequest, if_neg notLast] at ends
        split_ifs at ends
        exact CoreState.noConfusion (request.symm.trans ends)
      · rw [response] at ends
        have ends : (Core.memoryResponse cfg now.mem (now.cores core)).state = .sched := ends
        unfold Core.memoryResponse at ends
        extract_lets x row written at ends
        rw [if_neg (show ¬written.mt = cfg.numThreads - 1 from notLast)] at ends
        exact CoreState.noConfusion ends
  omega

end Loop

/-! ## Reachable states -/

section Reachable

variable {cfg : Config} {core : Nat} {m next : Model} {ledgers : Nat → LaneLedger}
  {inputs : Inputs}

/-- A load or a store that passes `EXEC` while the other cores are idle enters the
loop. -/
theorem Reachable.memoryStart
    (reachable : Reachable cfg m ledgers)
    (alone : Alone cfg core m)
    (active : (m.cores core).ctaActive = true)
    (exec : (m.cores core).state = .exec)
    (legal : badRegister (m.cores core).inst = false)
    (word : opcode (m.cores core).inst = 0x03 ∨ opcode (m.cores core).inst = 0x23)
    (running : inputs.reset = false)
    (noLaunch : inputs.launch = false)
    (ticked : m.tick cfg inputs = some next) :
    MemoryStart cfg core next ∧
      next.cores core = { m.cores core with mt := 0, state := .memReq } := by
  have noFire : m.firing cfg = none := by
    apply alone.noFire
    rw [coreReady, active]
    rfl
  have entered : next.cores core = { m.cores core with mt := 0, state := .memReq } := by
    rw [tick_cores ticked running alone.inRange, noFire]
    show Core.stepCore cfg m.mem m.launchRegisters core false (m.cores core) = _
    rw [Core.stepCore, if_neg Bool.false_ne_true, if_neg (by rw [active]; decide), exec]
    show Core.execute cfg core (m.cores core) = _
    rw [Core.execute, if_neg (by rw [legal]; decide), if_pos word]
  have issued : (m.cores core).state ≠ .sched := by
    rw [exec]
    exact CoreState.noConfusion
  have zero := reachable.zero alone.inRange
  have lanes : ∀ t, hasLane (m.cores core).im t = true → t < cfg.numThreads := fun t present =>
    ((reachable.conserved alone.inRange active).issued_lane_lt issued present).2
  refine ⟨⟨alone.of_tick running noLaunch ticked, ?_, ?_, ?_, ?_, ?_, ?_, ?_⟩, entered⟩ <;>
    rw [entered]
  · exact active
  · exact legal
  · exact word
  · exact lanes
  · exact zero

/-- A memory full of `lw x1, 0(x0)`. -/
def loads : Pmem := fun addr =>
  if addr &&& 3 = 0 then 0x83 else if addr &&& 3 = 1 then 0x20 else 0

/-- The only core of `cfg` after five ticks: its first warp has fetched its first
word. -/
def fetchedFirst (cfg : Config) (pmem : Pmem) : Option Model :=
  (cycleDiffInit cfg).bind fun m0 =>
    ((cycleDiffBegin cfg pmem m0).tick cfg .launchPulse).bind fun m1 =>
      (m1.tick cfg .idle).bind fun m2 =>
        (m2.tick cfg .idle).bind fun m3 => m3.tick cfg .idle

/-- The first word is about to be executed, and one more tick is defined. -/
def atExec (cfg : Config) (m : Model) : Bool :=
  (m.cores 0).ctaActive && (m.cores 0).state == .exec && (m.cores 0).inst == 0x2083 &&
    m.packDefined cfg && (m.tick cfg .idle).isSome

/-- A single core that fetches a load enters the loop. -/
theorem exists_memoryStart
    (single : cfg.numCores = 1)
    (fetched : (fetchedFirst cfg loads).map (atExec cfg) = some true) :
    ∃ m ledgers, Reachable cfg m ledgers ∧ MemoryStart cfg 0 m := by
  obtain ⟨m, reached, ready⟩ := Option.map_eq_some_iff.mp fetched
  simp only [fetchedFirst, Option.bind_eq_some_iff] at reached
  obtain ⟨m0, started, m1, launched, m2, taken, m3, issued, last⟩ := reached
  simp only [atExec, Bool.and_eq_true, beq_iff_eq] at ready
  obtain ⟨⟨⟨⟨active, exec⟩, word⟩, packed⟩, more⟩ := ready
  obtain ⟨next, ticked⟩ := Option.isSome_iff_exists.mp more
  have reachable :=
    (((((Reachable.init started).load loads).tick _ launched).tick _ taken).tick _ issued).tick _
      last
  have alone : Alone cfg 0 m := by
    refine ⟨by omega, Or.inr single, fun other inRange different => ?_, packed⟩
    omega
  have legal : badRegister (m.cores 0).inst = false := by
    rw [word]
    decide
  have load : opcode (m.cores 0).inst = 0x03 := by
    rw [word]
    decide
  exact ⟨next, _, reachable.tick _ ticked,
    (reachable.memoryStart alone active exec legal (Or.inl load) rfl rfl ticked).1⟩

/-- Nothing is asserted. -/
theorem undisturbed_idle : Undisturbed fun _ => .idle := ⟨fun _ => rfl, fun _ => rfl⟩

end Reachable

/-- The memory loop ends on time, with one access for every issued lane in increasing
order, exactly when a warp has at most 32 lanes. -/
theorem memoryLoop_visits_iff
    {cfg : Config}
    {core : Nat}
    {m : Model}
    {inputs : Nat → Inputs}
    (start : MemoryStart cfg core m)
    (undisturbed : Undisturbed inputs) :
    VisitsEachLane cfg core inputs m ↔ cfg.numThreads ≤ 32 :=
  ⟨start.numThreads_le undisturbed, start.visitsEachLane undisturbed⟩

/-- `Config.onePair` finishes a load on time. -/
theorem memoryLoop_visits_iff_onePair :
    ∃ m ledgers, Reachable Config.onePair m ledgers ∧
      VisitsEachLane Config.onePair 0 (fun _ => .idle) m := by
  obtain ⟨m, ledgers, reachable, start⟩ :=
    exists_memoryStart (show Config.onePair.numCores = 1 from rfl) (by decide +kernel)
  exact ⟨m, ledgers, reachable,
    (memoryLoop_visits_iff start undisturbed_idle).mpr (by decide)⟩

/-- A warp of 64 lanes does not, since its lane counter leaves the mask. -/
theorem not_visitsEachLane_wideWarp :
    ∃ m ledgers, Reachable Config.wideWarp m ledgers ∧ MemoryStart Config.wideWarp 0 m ∧
      ¬VisitsEachLane Config.wideWarp 0 (fun _ => .idle) m := by
  obtain ⟨m, ledgers, reachable, start⟩ :=
    exists_memoryStart (show Config.wideWarp.numCores = 1 from rfl) (by decide +kernel)
  refine ⟨m, ledgers, reachable, start, fun visits => ?_⟩
  exact absurd (start.numThreads_le undisturbed_idle visits) (by decide)

end Model

end OpenGPU
