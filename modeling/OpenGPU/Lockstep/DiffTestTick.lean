import OpenGPU.Dispatch.Completion
import OpenGPU.Lockstep.DiffTestParts

/-!
# A tick of DiffTest on the SystemVerilog GPU

As long as no mismatch has been found the registers of the netlist are those of the cycle
model and physical memory is the image of its copy. A tick from such a state finds a
mismatch exactly when one of the known differences shows.
-/

namespace OpenGPU

open Verilog

namespace Verilog

variable {cfg : Config} {top : GPUTop cfg}

namespace GPUTop

/-- A core without a block waits for one. -/
theorem Sound.state_of_idle
    (sound : top.Sound)
    (quiet : top.gpuBusy = false)
    {i : Nat}
    (inRange : i < cfg.numCores) :
    (top.cores i).state = .sched :=
  sound.settled.cores i inRange ((gpuBusy_eq_false_iff.mp quiet).2 i inRange)

/-- Nobody waits for the data memory of an idle GPU. -/
theorem Sound.not_waiting
    (sound : top.Sound)
    (quiet : top.gpuBusy = false)
    {i : Nat}
    (inRange : i < cfg.numCores) :
    ¬(top.cores i).Waiting := by
  rintro ⟨waits, _⟩
  rw [sound.state_of_idle quiet inRange] at waits
  rcases waits with request | response
  · exact Fsm.noConfusion request
  · exact Fsm.noConfusion response

/-- So whatever the memories drive, they have answered it. -/
theorem Sound.readsFrom_of_idle
    (sound : top.Sound)
    (quiet : top.gpuBusy = false)
    (pmem : Pmem)
    (rdata : ReadData) :
    top.ReadsFrom cfg pmem rdata := by
  intro i inRange
  constructor
  · intro fetches
    rw [sound.state_of_idle quiet inRange] at fetches
    exact Fsm.noConfusion fetches
  · intro loads
    exact absurd (GPUCore.dmemRen_iff.mp loads).1 (sound.not_waiting quiet inRange)

/-- The cores of an idle GPU stay as they are. -/
theorem posedge_core_of_idle
    (quiet : top.gpuBusy = false)
    (pins : DcrIf)
    (launch : Bool)
    (rdata : ReadData)
    {i : Nat}
    (inRange : i < cfg.numCores) :
    (top.posedge ⟨false, pins, launch, rdata⟩).cores i = top.cores i := by
  obtain ⟨stopped, inactive⟩ := gpuBusy_eq_false_iff.mp quiet
  have offered : top.kmu.ctaValid top.coreReady i = false := by
    simp [GPUKmu.ctaValid, stopped]
  rw [posedge_core top _ inRange]
  unfold GPUCore.posedge
  simp [offered, inactive i inRange]

/-- Without a launch an idle GPU stays idle. -/
theorem not_busy_posedge
    (quiet : top.gpuBusy = false)
    (pins : DcrIf)
    (rdata : ReadData) :
    (top.posedge ⟨false, pins, false, rdata⟩).gpuBusy = false := by
  obtain ⟨stopped, inactive⟩ := gpuBusy_eq_false_iff.mp quiet
  rw [gpuBusy_eq_false_iff]
  constructor
  · have noFire : top.kmu.ctaFire top.coreReady = false := by simp [GPUKmu.ctaFire, stopped]
    show (top.kmu.posedge false pins false top.coreReady).running = false
    unfold GPUKmu.posedge
    rw [noFire]
    exact stopped
  · intro i inRange
    rw [posedge_core_of_idle quiet pins false rdata inRange]
    exact inactive i inRange

end GPUTop

end Verilog

/-- What a tick leaves has been packed. -/
theorem Model.tick_isPacked
    {cfg : Config}
    {m next : Model}
    {inputs : Inputs}
    (defined : m.tick cfg inputs = some next) :
    ∃ before, Model.pack cfg before = some next := by
  unfold Model.tick Model.cycleDiffStep at defined
  split_ifs at defined
  · exact ⟨_, defined⟩
  · exact ⟨_, defined⟩

/-- A layout of the state words depends on them only. -/
theorem NetlistAt.congr
    {cfg : Config}
    {words other : Nat → Word}
    {top : GPUTop cfg}
    {rdata : ReadData}
    (laid : NetlistAt words top rdata)
    (same : ∀ k, k < diffStateWords cfg → other k = words k) :
    NetlistAt other top rdata where
  gpu := laid.gpu.congr fun k _ below => same k <| by
    have front : k < 0 + 3 := below
    unfold diffStateWords
    omega
  kmu := laid.kmu.congr fun k _ below => same k <| by
    have front : k < 3 + 20 := below
    unfold diffStateWords
    omega
  cores i inRange := (laid.cores i inRange).congr fun k _ below => same k <| by
    have within : (i + 1) * diffCoreWords cfg ≤ cfg.numCores * diffCoreWords cfg :=
      Nat.mul_le_mul_right _ inRange
    rw [GPUCore.length_diffState] at below
    rw [Nat.succ_mul] at within
    unfold diffStateWords
    omega

/-- The words of a model after a tick are those that the bridges have sent exactly when the
registers agree and every access under way looks the same. -/
theorem packed_iff
    {cfg : Config}
    (threads : cfg.numThreads ≤ 32)
    {m next : Model}
    {inputs : Inputs}
    (defined : m.tick cfg inputs = some next)
    (fits : next.Fits cfg)
    {top : GPUTop cfg}
    (inRange : ∀ i, i < cfg.numCores → (top.cores i).InRange)
    {words : Nat → Word}
    {rdata : ReadData}
    (sent : NetlistAt words top rdata) :
    (∀ word, word < Model.words cfg → next.packed word = words word) ↔
      SameTop cfg next top ∧ ∀ i, i < cfg.numCores → (top.cores i).Waiting →
        top.SameAccess next.mem rdata i := by
  obtain ⟨before, packs⟩ := Model.tick_isPacked defined
  obtain ⟨packed, same⟩ : ∃ packed, next = { before with packed := packed } :=
    ⟨_, (Model.pack_eq_some packs).1⟩
  rw [same] at fits packs ⊢
  have agree := @netlistAt_iff cfg before _ top rdata threads
    ⟨fits.walk, fits.rr, fits.iw, fits.mt, fits.sp⟩ inRange packs
  refine Iff.trans ?_ (agree.trans ?_)
  · constructor
    · exact fun equal => sent.congr equal
    · exact fun laid word inWords => laid.unique sent inWords
  · exact and_congr_left' ⟨fun same => ⟨same.kmu, same.cores⟩, fun same => ⟨same.kmu, same.cores⟩⟩

namespace RtlSim

variable {cfg : Config} {build : Build} {sim next stepped : RtlSim (vgpuTop cfg)}
  {pmem after : Pmem}

/-- The netlist of a simulation. -/
def netlist (sim : RtlSim (vgpuTop cfg)) : Netlist cfg := sim.top

/-- The configuration pins of the netlist. -/
def dcrPins (sim : RtlSim (vgpuTop cfg)) : DcrIf :=
  ⟨sim.pins.dcrValid, sim.pins.dcrAddr.setWidth 12, sim.pins.dcrData⟩

/-- The simulation with the clock low. -/
def lowered (sim : RtlSim (vgpuTop cfg)) : RtlSim (vgpuTop cfg) :=
  { sim with top := ({ sim.netlist with clock := false } : Netlist cfg) }

/-! ## The parts of a tick -/

/-- A falling edge changes the clock only. -/
theorem evalTop_falling
    (ran : (sim.evalTop cfg build false).run pmem = some (next, after)) :
    next = sim.lowered := by
  cases ran
  rfl

/-- Without an edge nothing happens. -/
theorem eval_high
    {netlist : Netlist cfg}
    (high : netlist.clock = true)
    (pins : TopPins) :
    Netlist.eval pins true netlist = .done netlist := by
  unfold Netlist.eval
  rw [high]
  exact congrArg DpiCalls.done (by rw [← high])

theorem evalTop_high
    (high : sim.netlist.clock = true)
    (ran : (sim.evalTop cfg build true).run pmem = some (next, after)) :
    next = sim := by
  have done : (vgpuTop cfg).eval sim.pins true sim.top = .done sim.top := eval_high high sim.pins
  unfold evalTop at ran
  rw [done] at ran
  cases ran
  rfl

/-- A tick of DiffTest: the stores and the step of the model, the rising edge and the
comparison. -/
structure Ticked (cfg : Config) (sim next : RtlSim (vgpuTop cfg)) (pmem after : Pmem)
    (stepped : RtlSim (vgpuTop cfg)) : Prop where
  before : (sim.lowered.beforeEdge cfg).run pmem = some (stepped, after)
  risen : Netlist.Risen cfg sim.pins sim.lowered.netlist sim.dpi after next.netlist next.dpi
  compared : (({ stepped with top := next.top, dpi := next.dpi } :
    RtlSim (vgpuTop cfg)).afterEdge cfg).run after = some (next, after)

/-- Every tick of DiffTest is one. -/
theorem tick_ticked
    (diffTest : build.diffTest = true)
    (ran : (sim.tick cfg build).run pmem = some (next, after)) :
    ∃ stepped, Ticked cfg sim next pmem after stepped := by
  obtain ⟨first, stepped, third, fourth, fell, before, rose, settled, compared⟩ :=
    tick_diffTest diffTest ran
  cases evalTop_falling fell
  obtain ⟨model, actual, rfl⟩ := beforeEdge_frame before
  obtain ⟨⟨top, dpi⟩, middle, performed, finished⟩ := LocalAction.run_bind_eq_some rose
  obtain rfl : middle = after := DpiCalls.perform_diffTest diffTest performed
  have evaluated : ((Netlist.eval sim.pins true sim.lowered.netlist).perform cfg build
      sim.dpi).run middle = some ((top, dpi), middle) := performed
  have risen := Netlist.run_eval_rising diffTest rfl evaluated
  cases finished
  obtain rfl := evalTop_high (by exact risen.clock) settled
  refine ⟨_, before, ?_, ?_⟩
  · obtain ⟨_, _, rfl⟩ := afterEdge_frame compared
    exact risen
  · obtain ⟨_, _, rfl⟩ := afterEdge_frame compared
    exact compared

/-! ## States without a mismatch -/

/-- Between two ticks of a comparison that has found no mismatch. `current` says that
physical memory has not been written behind the copy. -/
structure InStep (cfg : Config) (current : Bool) (sim : RtlSim (vgpuTop cfg)) (pmem : Pmem) :
    Prop where
  running : sim.pins.reset = false
  narrow : (sim.pins.dcrAddr.setWidth 12).setWidth 32 = sim.pins.dcrAddr
  passed : sim.diffFailed = false
  dpiPassed : sim.dpi.diffFailed = false
  none : sim.actual = []
  reachable : ∃ ledgers, Model.Reachable cfg sim.model ledgers
  same : SameTop cfg sim.model sim.netlist.top
  sound : sim.netlist.top.Sound
  words : ∀ word, word < Model.words cfg → sim.model.packed word = sim.dpi.diffState word
  size : sim.model.active = true → sim.model.mem.size = cfg.msize.toNat
  busy : sim.netlist.top.gpuBusy = true → current = true
  active : current = true → sim.model.active = true
  images : current = true → sim.SameImages cfg pmem
  reads : current = true → sim.netlist.top.ReadsFrom cfg pmem sim.netlist.rdata

namespace InStep

variable {current : Bool}

/-- Without an up-to-date copy nothing runs. -/
theorem quiet
    (inStep : InStep cfg false sim pmem) :
    sim.netlist.top.gpuBusy = false :=
  Bool.eq_false_iff.mpr fun busy => Bool.noConfusion (inStep.busy busy)

/-- The copy answers as physical memory has. -/
theorem answered
    (inStep : InStep cfg current sim pmem) :
    sim.netlist.top.Answered sim.model.mem sim.netlist.rdata := by
  cases current with
  | false =>
      constructor
      · intro i inRange fetches
        rw [inStep.sound.state_of_idle inStep.quiet inRange] at fetches
        exact Fsm.noConfusion fetches
      · intro i inRange loads
        exact absurd (GPUCore.dmemRen_iff.mp loads).1
          (inStep.sound.not_waiting inStep.quiet inRange)
  | true =>
      have size := inStep.size (inStep.active rfl)
      constructor
      · intro i inRange fetches
        exact load32_of_dpiPaddrRead size (inStep.images rfl)
          ((inStep.reads rfl i inRange).fetch fetches)
      · intro i inRange loads
        rw [← highBits_append]
        exact load32_of_dpiPaddrRead size (inStep.images rfl)
          ((inStep.reads rfl i inRange).load loads)

/-- The model steps with the inputs of the netlist. -/
theorem ticks
    (inStep : InStep cfg current sim pmem)
    (ticked : Ticked cfg sim next pmem after stepped) :
    sim.model.tick cfg (Inputs.ofPins sim.dcrPins sim.pins.launch) = some stepped.model := by
  have ran := beforeEdge_model ticked.before
  change sim.model.tick cfg ⟨sim.pins.reset, sim.pins.dcrValid, sim.pins.dcrAddr,
    sim.pins.dcrData, sim.pins.launch⟩ = some stepped.model at ran
  rw [inStep.running, ← inStep.narrow] at ran
  exact ran

/-- The registers of the netlist after the edge. -/
theorem top_eq
    (inStep : InStep cfg current sim pmem)
    (ticked : Ticked cfg sim next pmem after stepped) :
    next.netlist.top =
      sim.netlist.top.posedge ⟨false, sim.dcrPins, sim.pins.launch, sim.netlist.rdata⟩ := by
  rw [ticked.risen.top, ← inStep.running]
  rfl

/-- The registers still agree unless the edge shows a known difference. -/
theorem sameTop_iff
    (inStep : InStep cfg current sim pmem)
    (ticked : Ticked cfg sim next pmem after stepped) :
    SameTop cfg stepped.model next.netlist.top ↔
      sim.model.WriteUnobserved cfg sim.dcrPins sim.pins.launch ∧
        ∀ i, i < cfg.numCores → (sim.netlist.top.cores i).state = .exec →
          ¬(sim.netlist.top.cores i).ShiftsNegative := by
  obtain ⟨ledgers, reachable⟩ := inStep.reachable
  rw [inStep.top_eq ticked]
  exact inStep.same.posedge_iff inStep.sound reachable inStep.answered (inStep.ticks ticked)

/-- The netlist reports the store that the model captures. -/
theorem takenStore_eq
    (inStep : InStep cfg current sim pmem)
    {i : Nat}
    (inRange : i < cfg.numCores) :
    sim.takenStore cfg i = Model.captureStore cfg (sim.model.cores i) := by
  obtain ⟨ledgers, reachable⟩ := inStep.reachable
  have core := inStep.same.cores i inRange
  refine RtlSim.takenStore_eq reachable inStep.words inRange fun request => ?_
  rw [core.ctaActive, ← Bool.not_eq_false]
  intro idle
  rw [core.state, inStep.sound.settled.cores i inRange idle] at request
  exact CoreState.noConfusion request

theorem reportedStores_eq
    (inStep : InStep cfg current sim pmem) :
    sim.reportedStores cfg = (List.range cfg.numCores).filterMap fun i =>
      Model.captureStore cfg (sim.model.cores i) :=
  List.filterMap_congr fun _ member => inStep.takenStore_eq (List.mem_range.mp member)

/-- An up-to-date copy is being compared. -/
theorem comparing
    (inStep : InStep cfg true sim pmem) :
    sim.lowered.Comparing cfg where
  running := inStep.running
  active := inStep.active rfl
  size := inStep.size (inStep.active rfl)
  none := inStep.none

/-! ## Stores -/

/-- The model expects the stores that the netlist reports. -/
theorem expected_eq
    (inStep : InStep cfg current sim pmem)
    (ticked : Ticked cfg sim next pmem after stepped) :
    stepped.model.expected = (sim.reportedStores cfg).mergeSort fun a b => !b.lt a := by
  rw [(Model.tick_stores rfl (inStep.ticks ticked)).1, inStep.reportedStores_eq]
  rfl

/-- An idle GPU stores nothing. -/
theorem no_stores
    (inStep : InStep cfg current sim pmem)
    (quiet : sim.netlist.top.gpuBusy = false) :
    sim.reportedStores cfg = [] := by
  rw [inStep.reportedStores_eq, List.filterMap_eq_nil_iff]
  intro i member
  have inRange := List.mem_range.mp member
  have state := (inStep.same.cores i inRange).state
  rw [inStep.sound.state_of_idle quiet inRange] at state
  refine if_neg fun all => ?_
  rw [state] at all
  exact CoreState.noConfusion all.2.1

/-- The recorded stores are those that the netlist reports. -/
theorem actual_eq
    (inStep : InStep cfg current sim pmem)
    (ticked : Ticked cfg sim next pmem after stepped) :
    stepped.actual = sim.reportedStores cfg := by
  cases current with
  | false =>
      have nothing : sim.lowered.reportedStores cfg = [] := inStep.no_stores inStep.quiet
      rw [(beforeEdge_of_no_store nothing ticked.before).2, inStep.no_stores inStep.quiet]
      change (if sim.pins.reset then [] else sim.actual) = []
      rw [inStep.none, ite_self]
  | true => exact (beforeEdge_images inStep.comparing ticked.before).1

/-- The transactions are accepted. -/
theorem accepted
    (inStep : InStep cfg current sim pmem)
    (ticked : Ticked cfg sim next pmem after stepped) :
    stepped.cycleDiffCheckStores = true := by
  rw [cycleDiffCheckStores, inStep.actual_eq ticked, inStep.expected_eq ticked]
  exact beq_self_eq_true _

/-! ## Memory -/

/-- The copy keeps its size. -/
theorem size_after
    (inStep : InStep cfg current sim pmem)
    (ticked : Ticked cfg sim next pmem after stepped) :
    stepped.model.active = sim.model.active ∧
      (sim.model.active = true → stepped.model.mem.size = cfg.msize.toNat) := by
  obtain ⟨active, size, _⟩ := Model.tick_mem rfl (inStep.ticks ticked) 0
  exact ⟨active, fun here => size.trans (inStep.size here)⟩

/-- An up-to-date copy stays so exactly when the order of the stores does not show. -/
theorem images_iff
    (inStep : InStep cfg true sim pmem)
    (ticked : Ticked cfg sim next pmem after stepped) :
    stepped.SameImages cfg after ↔ Store.LastIsGreatest cfg (sim.reportedStores cfg) := by
  rw [sameImages_iff_replay inStep.comparing ticked.before (inStep.accepted ticked)]
  exact Store.replay_sort_iff (inStep.images rfl)

/-- The comparison of the bytes just stored. -/
theorem memory_iff
    (inStep : InStep cfg current sim pmem)
    (ticked : Ticked cfg sim next pmem after stepped) :
    (stepped.model.active = true → cfg.msize.toNat = stepped.model.mem.size ∧
        ∀ a ∈ stepped.dirtyBytes cfg, after a = stepped.model.mem.bytes a) ↔
      Store.LastIsGreatest cfg (sim.reportedStores cfg) := by
  obtain ⟨active, size⟩ := inStep.size_after ticked
  cases current with
  | false =>
      have clean : stepped.dirtyBytes cfg = [] := by
        rw [dirtyBytes, inStep.expected_eq ticked, inStep.no_stores inStep.quiet, List.mergeSort_nil]
        rfl
      rw [clean, inStep.no_stores inStep.quiet]
      refine iff_of_true (fun here => ?_) (by simp [Store.LastIsGreatest])
      exact ⟨(size (active.symm.trans here)).symm, fun a member => absurd member List.not_mem_nil⟩
  | true =>
      have here := inStep.active rfl
      rw [← inStep.images_iff ticked, ← dirtyBytes_iff inStep.comparing (inStep.images rfl)
        ticked.before (inStep.accepted ticked), active, size here]
      exact ⟨fun compared => (compared here).2, fun compared _ => ⟨rfl, compared⟩⟩

/-! ## State words -/

/-- The words agree exactly when the registers do and every access under way looks the
same. -/
theorem sameWords_iff
    (threads : cfg.numThreads ≤ 32)
    (inStep : InStep cfg current sim pmem)
    (ticked : Ticked cfg sim next pmem after stepped) :
    (∀ word, word < Model.words cfg → stepped.model.packed word = next.dpi.diffState word) ↔
      SameTop cfg stepped.model next.netlist.top ∧
        ∀ i, i < cfg.numCores → (next.netlist.top.cores i).Waiting →
          next.netlist.top.SameAccess stepped.model.mem next.netlist.rdata i := by
  obtain ⟨ledgers, reachable⟩ := inStep.reachable
  have ticks := inStep.ticks ticked
  have sound := inStep.sound.posedge ⟨false, sim.dcrPins, sim.pins.launch, sim.netlist.rdata⟩
  rw [← inStep.top_eq ticked] at sound
  exact packed_iff threads ticks (reachable.tick _ ticks).fits sound.inRange ticked.risen.words

/-- After the edge the GPU is busy only with an up-to-date copy. -/
theorem busy_after
    (inStep : InStep cfg current sim pmem)
    (ticked : Ticked cfg sim next pmem after stepped)
    (begun : sim.pins.launch = true → current = true)
    (busy : next.netlist.top.gpuBusy = true) :
    current = true := by
  cases current with
  | false =>
      have noLaunch : sim.pins.launch = false := Bool.eq_false_iff.mpr fun launch =>
        Bool.noConfusion (begun launch)
      rw [inStep.top_eq ticked, noLaunch, GPUTop.not_busy_posedge inStep.quiet] at busy
      exact Bool.noConfusion busy
  | true => rfl

/-- Accesses to equal images look the same, but for halfwords at the last byte of a word. -/
theorem sameAccess_iff
    (inStep : InStep cfg current sim pmem)
    (ticked : Ticked cfg sim next pmem after stepped)
    (begun : sim.pins.launch = true → current = true)
    (images : current = true → stepped.SameImages cfg after) :
    (∀ i, i < cfg.numCores → (next.netlist.top.cores i).Waiting →
        next.netlist.top.SameAccess stepped.model.mem next.netlist.rdata i) ↔
      ∀ i, i < cfg.numCores → (next.netlist.top.cores i).Waiting →
        ¬(Decode.funct3 (next.netlist.top.cores i).issueInst = 1 ∧
          wordOffset (next.netlist.top.cores i).memoryAddress = 3) := by
  refine forall₃_congr fun i inRange waiting => ⟨fun same => same.halfword, fun plain => ?_⟩
  refine ⟨plain, fun loads => ?_⟩
  have active : (next.netlist.top.cores i).ctaActive = true := by
    rw [← Bool.not_eq_false]
    intro idle
    have settled := (inStep.sound.posedge
      ⟨false, sim.dcrPins, sim.pins.launch, sim.netlist.rdata⟩).settled.cores i inRange
    rw [← inStep.top_eq ticked] at settled
    rw [settled idle] at loads
    exact Fsm.noConfusion loads.1
  have busy : next.netlist.top.gpuBusy = true := by
    rw [← Bool.not_eq_false, GPUTop.gpuBusy_eq_false_iff]
    intro idle
    rw [idle.2 i inRange] at active
    exact Bool.noConfusion active
  have here := inStep.busy_after ticked begun busy
  rw [← highBits_append]
  exact load32_of_dpiPaddrRead ((inStep.size_after ticked).2 (inStep.active here)) (images here)
    ((ticked.risen.reads i inRange).load loads.2)

end InStep

/-! ## The verdict -/

/-- None of the known differences shows in a tick: the edge does not look at a configuration
write that it carries, no lane shifts a negative value arithmetically, the order of
simultaneous stores leaves no trace, and no halfword access at the last byte of a word is
under way afterwards. -/
structure PlainTick (cfg : Config) (sim next : RtlSim (vgpuTop cfg)) : Prop where
  unobserved : sim.model.WriteUnobserved cfg sim.dcrPins sim.pins.launch
  shifts : ∀ i, i < cfg.numCores → (sim.netlist.top.cores i).state = .exec →
    ¬(sim.netlist.top.cores i).ShiftsNegative
  order : Store.LastIsGreatest cfg (sim.reportedStores cfg)
  halfwords : ∀ i, i < cfg.numCores → (next.netlist.top.cores i).Waiting →
    ¬(Decode.funct3 (next.netlist.top.cores i).issueInst = 1 ∧
      wordOffset (next.netlist.top.cores i).memoryAddress = 3)

namespace InStep

variable {current : Bool}

/-- Transactions are accepted, so that the words and the bytes just stored decide. -/
theorem verdict_iff
    (inStep : InStep cfg current sim pmem)
    (ticked : Ticked cfg sim next pmem after stepped) :
    next.diffFailed = false ↔
      (∀ word, word < Model.words cfg → stepped.model.packed word = next.dpi.diffState word) ∧
        (stepped.model.active = true → cfg.msize.toNat = stepped.model.mem.size ∧
          ∀ a ∈ stepped.dirtyBytes cfg, after a = stepped.model.mem.bytes a) := by
  obtain ⟨model, actual, frame⟩ := beforeEdge_frame ticked.before
  have carried : stepped.diffFailed = false := by
    rw [frame]
    exact inStep.passed
  have sent : next.dpi.diffFailed = false := ticked.risen.failed.trans inStep.dpiPassed
  have accepted := inStep.accepted ticked
  refine (afterEdge_iff ticked.compared).trans (and_congr_left' ?_)
  constructor
  · rintro ⟨_, _, _, words⟩
    simpa [sameWords] using words
  · intro words
    exact ⟨carried, sent, accepted, by simpa [sameWords] using words⟩

/-- A tick finds no mismatch exactly when none of the known differences shows. -/
theorem tick_iff
    (threads : cfg.numThreads ≤ 32)
    (inStep : InStep cfg current sim pmem)
    (begun : sim.pins.launch = true → current = true)
    (ticked : Ticked cfg sim next pmem after stepped) :
    next.diffFailed = false ↔ PlainTick cfg sim next := by
  have images : Store.LastIsGreatest cfg (sim.reportedStores cfg) → current = true →
      stepped.SameImages cfg after := by
    rintro order rfl
    exact (inStep.images_iff ticked).mpr order
  rw [inStep.verdict_iff ticked, inStep.sameWords_iff threads ticked, inStep.memory_iff ticked,
    inStep.sameTop_iff ticked]
  constructor
  · rintro ⟨⟨⟨unobserved, shifts⟩, accesses⟩, order⟩
    exact
      { unobserved
        shifts
        order
        halfwords := (inStep.sameAccess_iff ticked begun (images order)).mp accesses }
  · intro plain
    have accesses := (inStep.sameAccess_iff ticked begun (images plain.order)).mpr plain.halfwords
    exact ⟨⟨⟨plain.unobserved, plain.shifts⟩, accesses⟩, plain.order⟩

/-- After a tick without a mismatch both sides are still in step. -/
theorem tick
    (threads : cfg.numThreads ≤ 32)
    (inStep : InStep cfg current sim pmem)
    (begun : sim.pins.launch = true → current = true)
    (ticked : Ticked cfg sim next pmem after stepped)
    (passed : next.diffFailed = false) :
    InStep cfg current next after := by
  have plain := (inStep.tick_iff threads begun ticked).mp passed
  obtain ⟨ledgers, reachable⟩ := inStep.reachable
  obtain ⟨active, size⟩ := inStep.size_after ticked
  obtain ⟨_, _, finished⟩ := afterEdge_frame ticked.compared
  obtain ⟨_, _, frame⟩ := beforeEdge_frame ticked.before
  have model : next.model = stepped.model := by rw [finished]
  have pins : next.pins = sim.pins := by
    rw [finished, frame]
    rfl
  have sound : next.netlist.top.Sound := by
    rw [inStep.top_eq ticked]
    exact inStep.sound.posedge _
  exact
    { running := pins ▸ inStep.running
      narrow := pins ▸ inStep.narrow
      passed
      dpiPassed := ticked.risen.failed.trans inStep.dpiPassed
      none := by rw [finished]
      reachable := ⟨_, model ▸ reachable.tick _ (inStep.ticks ticked)⟩
      same := model ▸ (inStep.sameTop_iff ticked).mpr ⟨plain.unobserved, plain.shifts⟩
      sound
      words := model ▸ ((inStep.verdict_iff ticked).mp passed).1
      size := fun here => by
        rw [model] at here ⊢
        exact size (active.symm.trans here)
      busy := inStep.busy_after ticked begun
      active := fun here => by
        rw [model, active]
        exact inStep.active here
      images := fun here => by
        subst here
        have images := (inStep.images_iff ticked).mpr plain.order
        unfold SameImages
        rw [model]
        exact images
      reads := fun _ => ticked.risen.reads }

end InStep

end RtlSim

end OpenGPU
