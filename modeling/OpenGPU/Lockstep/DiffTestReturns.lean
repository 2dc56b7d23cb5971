import OpenGPU.Lockstep.DiffTestTick

/-!
# Ticks that return

A tick of DiffTest asserts only in a store outside physical memory, in a fetch that is partly
outside, and where the cycle model has no step.
-/

namespace OpenGPU

open Verilog

/-! ## The netlist -/

namespace Verilog.Netlist

variable {cfg : Config} {build : Build} {State : Type} {dpi : DpiState} {pmem : Pmem}

/-- A memory that answers. -/
theorem returns_readMem
    {ren : Bool}
    {addr : Word}
    {next : Word → DpiCalls State}
    (read : ren = true → ∃ data, dpiPaddrRead cfg pmem addr = some data)
    (rest : ∀ data, ((next data).perform cfg build dpi).Returns pmem) :
    ((readMem ren addr next).perform cfg build dpi).Returns pmem := by
  unfold readMem
  cases ren with
  | false => exact rest 0
  | true =>
      obtain ⟨data, found⟩ := read rfl
      have answers : (PmemAction.dpiPaddrRead cfg addr).run pmem = some (data, pmem) := by
        rw [PmemAction.run_dpiPaddrRead, found]
        rfl
      refine LocalAction.Returns.bind ⟨data, pmem, answers⟩ fun answer after ran => ?_
      cases answers.symm.trans ran
      exact rest _

/-- All memories answer, whatever they held. -/
theorem returns_driveMem
    (diffTest : build.diffTest = true)
    {top : GPUTop cfg}
    {next : ReadData → DpiCalls State}
    {cores : List Nat}
    (fetches : ∀ i ∈ cores, (top.cores i).state = .fetch →
      BytesInPmem cfg (top.cores i).issuePc 4)
    (rest : ∀ rdata, ((next rdata).perform cfg build dpi).Returns pmem)
    (rdata : ReadData) :
    ((driveMem top next cores rdata).perform cfg build dpi).Returns pmem := by
  induction cores generalizing rdata with
  | nil => exact rest rdata
  | cons i cores inductionHypothesis =>
      have others := inductionHypothesis fun j member => fetches j (List.mem_cons_of_mem _ member)
      refine returns_readMem (fun fetching => ?_) fun imem => returns_readMem (fun _ => ?_)
        fun dmem => ?_
      · have bytes := fetches i List.mem_cons_self (beq_iff_eq.mp fetching)
        have first : inPmem cfg (top.cores i).issuePc = true := by
          simpa using bytes 0 (by decide)
        rw [dpiPaddrRead, if_pos first, paddrRead, if_pos (bytes.access (by decide))]
        exact ⟨_, rfl⟩
      · rw [GPUCore.dmemAddr, highBits_append, dpiPaddrRead_word]
        exact ⟨_, rfl⟩
      · dsimp only
        split_ifs
        · rw [DpiCalls.perform, if_pos diffTest]
          exact others _
        · exact others _

/-- A rising edge. -/
theorem returns_eval_rising
    (diffTest : build.diffTest = true)
    {pins : TopPins}
    {netlist : Netlist cfg}
    (low : netlist.clock = false)
    (fetches : ∀ i, i < cfg.numCores →
      ((netlist.top.posedge (netlist.inputs pins)).cores i).state = .fetch →
        BytesInPmem cfg ((netlist.top.posedge (netlist.inputs pins)).cores i).issuePc 4) :
    ((eval pins true netlist).perform cfg build dpi).Returns pmem := by
  unfold eval
  rw [low, if_pos (by decide)]
  refine returns_driveMem diffTest (fun i member => fetches i (List.mem_range.mp member))
    (fun rdata => ?_) _
  rw [DpiCalls.perform, if_pos diffTest, DpiCalls.perform, if_pos diffTest,
    perform_reportCores diffTest]
  exact LocalAction.returns_pure _ _

end Verilog.Netlist

/-! ## The driver -/

/-- A store to a word of physical memory. -/
def Store.Inside (cfg : Config) (s : Store) : Prop :=
  ∃ addr, s.addr = wordAddress addr ∧ inPmem cfg (wordAddress addr) = true

namespace RtlSim

section Driver

variable {V : VGPUTop} {cfg : Config} {sim : RtlSim V} {pmem : Pmem}

/-- A store to a word of physical memory is taken. -/
theorem returns_takeStore
    {core : Nat}
    (inside : ∀ s ∈ sim.takenStore cfg core, s.Inside cfg)
    (pmem : Pmem) :
    (sim.takeStore cfg core).Returns pmem := by
  unfold takeStore
  unfold takenStore at inside
  split_ifs at inside ⊢ with stored
  · obtain ⟨addr, place, window⟩ := inside _ rfl
    change (sim.reportedStore cfg core).addr = wordAddress addr at place
    refine LocalAction.Returns.bind ?_ fun _ after _ => LocalAction.returns_pure _ after
    have written := dpiPaddrWrite_inside pmem (sim.reportedStore cfg core).mask
      (sim.reportedStore cfg core).data window
    rw [← place] at written
    refine ⟨(), maskedWrite pmem (sim.reportedStore cfg core).addr
      (sim.reportedStore cfg core).mask (sim.reportedStore cfg core).data, ?_⟩
    rw [PmemAction.run_dpiPaddrWrite, written]
    rfl
  · exact LocalAction.returns_pure sim pmem

/-- The half of a tick before the edge. -/
theorem returns_beforeEdge
    (inside : ∀ i, i < cfg.numCores → ∀ s ∈ sim.takenStore cfg i, s.Inside cfg)
    (steps : (sim.model.tick cfg ⟨sim.pins.reset, sim.pins.dcrValid, sim.pins.dcrAddr,
      sim.pins.dcrData, sim.pins.launch⟩).isSome = true)
    (pmem : Pmem) :
    (sim.beforeEdge cfg).Returns pmem := by
  have frame : ∀ {state : RtlSim V} {core : Nat} {mem : Pmem} {next : RtlSim V} {after : Pmem},
      (∃ actual, state = { sim with actual := actual }) →
      (state.takeStore cfg core).run mem = some (next, after) →
      ∃ actual, next = { sim with actual := actual } := by
    rintro _ core mem next after ⟨_, rfl⟩ ran
    obtain ⟨_, rfl⟩ := takeStore_frame ran
    exact ⟨_, rfl⟩
  refine LocalAction.Returns.bind ?_ fun taken after folded => ?_
  · refine LocalAction.returns_foldlM (fun state => ∃ actual, state = { sim with actual := actual })
      (fun i member state mem same => ?_) (fun _ _ _ _ _ same ran => frame same ran)
      ⟨sim.actual, rfl⟩ pmem
    obtain ⟨_, rfl⟩ := same
    refine returns_takeStore (fun s taken => ?_) mem
    exact inside i (List.mem_range.mp member) s taken
  · have same : ∃ actual, taken = { sim with actual := actual } :=
      LocalAction.foldlM_induct (fun (state : RtlSim V) _ => ∃ actual,
        state = { sim with actual := actual }) (fun _ _ _ _ _ same ran => frame same ran)
        ⟨sim.actual, rfl⟩ folded
    obtain ⟨_, rfl⟩ := same
    obtain ⟨model, stepped⟩ := Option.isSome_iff_exists.mp steps
    refine LocalAction.Returns.bind ⟨model, after, ?_⟩ fun _ last _ =>
      LocalAction.returns_pure _ last
    rw [LocalAction.run_ofOption]
    exact congrArg _ stepped

/-- A comparison of memory. -/
theorem returns_cycleDiffCheckMemory
    (full : Bool)
    (sim : RtlSim V)
    (pmem : Pmem) :
    (sim.cycleDiffCheckMemory cfg full).Returns pmem := by
  unfold cycleDiffCheckMemory
  split_ifs <;> exact ⟨_, _, rfl⟩

/-- The half of a tick after the edge. -/
theorem returns_afterEdge
    (sim : RtlSim V)
    (pmem : Pmem) :
    (sim.afterEdge cfg).Returns pmem := by
  unfold afterEdge
  refine LocalAction.Returns.bind ?_ fun _ after _ => LocalAction.returns_pure _ after
  split_ifs
  · exact LocalAction.returns_pure _ _
  · exact returns_cycleDiffCheckMemory _ _ _

end Driver

/-- A tick returns if its stores and its fetches are in physical memory and the cycle model
has a step. -/
theorem returns_tick
    {cfg : Config}
    {build : Build}
    {sim : RtlSim (vgpuTop cfg)}
    (diffTest : build.diffTest = true)
    (inside : ∀ i, i < cfg.numCores → ∀ s ∈ sim.takenStore cfg i, s.Inside cfg)
    (steps : (sim.model.tick cfg ⟨sim.pins.reset, sim.pins.dcrValid, sim.pins.dcrAddr,
      sim.pins.dcrData, sim.pins.launch⟩).isSome = true)
    (fetches : ∀ i, i < cfg.numCores →
      ((sim.netlist.top.posedge (sim.netlist.inputs sim.pins)).cores i).state = .fetch →
        BytesInPmem cfg
          ((sim.netlist.top.posedge (sim.netlist.inputs sim.pins)).cores i).issuePc 4)
    (pmem : Pmem) :
    (sim.tick cfg build).Returns pmem := by
  refine LocalAction.Returns.bind ⟨sim.lowered, pmem, rfl⟩ fun first middle fell => ?_
  obtain rfl := evalTop_falling fell
  rw [if_pos diffTest]
  have lowered : (sim.lowered.beforeEdge cfg).Returns middle := by
    apply returns_beforeEdge
    · exact fun i inRange s taken => inside i inRange s taken
    · exact steps
  refine lowered.bind fun stepped after before => ?_
  obtain ⟨model, actual, rfl⟩ := beforeEdge_frame before
  refine LocalAction.Returns.bind (LocalAction.Returns.bind ?_ fun _ last _ =>
    LocalAction.returns_pure _ last) fun risen last rose => ?_
  · have low : sim.lowered.netlist.clock = false := rfl
    exact Netlist.returns_eval_rising diffTest low fetches
  · obtain ⟨⟨top, dpi⟩, _, performed, finished⟩ := LocalAction.run_bind_eq_some rose
    have evaluated : ((Netlist.eval sim.pins true sim.lowered.netlist).perform cfg build
        sim.dpi).run after = some ((top, dpi), _) := performed
    obtain rfl := DpiCalls.perform_diffTest diffTest evaluated
    have high := (Netlist.run_eval_rising diffTest rfl evaluated).clock
    cases finished
    rw [if_pos diffTest]
    refine LocalAction.Returns.bind ?_ fun _ _ _ => returns_afterEdge _ _
    have done : (vgpuTop cfg).eval sim.pins true top = .done top := eval_high high sim.pins
    refine LocalAction.Returns.bind ⟨(top, dpi), last, ?_⟩ fun _ last _ =>
      LocalAction.returns_pure _ last
    show (((vgpuTop cfg).eval sim.pins true top).perform cfg build dpi).run last = _
    rw [done]
    rfl

end RtlSim

end OpenGPU
