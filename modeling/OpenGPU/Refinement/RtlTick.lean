import OpenGPU.Lockstep.DiffTestIdle
import OpenGPU.Lockstep.LaneAccess
import OpenGPU.Lockstep.NegativeShifts
import OpenGPU.Refinement.Ticks

/-!
# One tick of the SystemVerilog GPU in a launch

The netlist has followed a launch of threads that do not interfere. The next tick returns,
and it finds a mismatch exactly when it moves a thread over an arithmetic shift of a negative
value: stores of different threads do not meet, and their accesses are aligned.
-/

namespace OpenGPU

open Verilog

/-! ## The sampled inputs -/

/-- Two states that differ in the sampled inputs at most. -/
def Model.SameButInputs (m other : Model) : Prop := other = { m with inputs := other.inputs }

namespace Model.SameButInputs

variable {cfg : Config} {m other next : Model}

theorem refl (m : Model) : m.SameButInputs m := rfl

/-- Without a configuration write its address and data make no difference. -/
theorem exists_tick
    (same : m.SameButInputs other)
    {launch : Bool}
    {addr data : Word}
    (defined : m.tick cfg ⟨false, false, addr, data, launch⟩ = some next)
    (otherAddr otherData : Word) :
    ∃ otherNext, other.tick cfg ⟨false, false, otherAddr, otherData, launch⟩ = some otherNext ∧
      next.SameButInputs otherNext := by
  have alike : other.tick cfg ⟨false, false, otherAddr, otherData, launch⟩ =
      (m.tick cfg ⟨false, false, addr, data, launch⟩).map fun next =>
        { next with inputs := ⟨false, false, otherAddr, otherData, launch⟩ } := by
    rw [same]
    unfold Model.tick cycleDiffStep cycleDiffSetInputs pack
    simp only [Bool.false_eq_true, if_false, apply_ite (Option.map _), Option.map_some,
      Option.map_none]
    rfl
  rw [defined, Option.map_some] at alike
  exact ⟨_, alike, rfl⟩

theorem cores
    (same : m.SameButInputs other) :
    other.cores = m.cores := by
  rw [same]

/-- No register is a sampled input. -/
theorem sameTop
    (same : m.SameButInputs other)
    {top : GPUTop cfg}
    (registers : SameTop cfg other top) :
    SameTop cfg m top := by
  rw [same] at registers
  exact ⟨registers.kmu, registers.cores⟩

theorem topBusy
    (same : m.SameButInputs other) :
    other.topBusy cfg = m.topBusy cfg := by
  rw [same]
  rfl

theorem topFault
    (same : m.SameButInputs other) :
    other.topFault cfg = m.topFault cfg := by
  rw [same]
  rfl

end Model.SameButInputs

/-! ## Stores that do not meet -/

/-- Where at most one store writes a byte their order leaves no trace. -/
theorem Store.lastIsGreatest_of_unique
    {cfg : Config}
    {stores : List Store}
    (unique : ∀ a, inPmem cfg a = true → ∀ s ∈ stores, ∀ other ∈ stores,
      s.writes a = true → other.writes a = true → s = other) :
    LastIsGreatest cfg stores := by
  intro a inside last isLast greatest member covers _
  obtain ⟨lastMember, lastCovers⟩ := List.mem_filter.mp (List.mem_of_getLast? isLast)
  rw [unique a inside last lastMember greatest member lastCovers covers]

/-- A store that stands for a set of places writes in it only. -/
theorem Stores.mem_of_writes
    {cfg : Config}
    {s : Store}
    {places : Set Word}
    {value : Word → Byte}
    (stores : Stores cfg s places value)
    (fits : s.addr.toNat + 4 ≤ 2 ^ 32)
    {a : Word}
    (inside : inPmem cfg a = true)
    (writes : s.writes a = true) :
    a ∈ places := by
  by_contra elsewhere
  -- a memory that holds another byte there would change
  have kept := stores.outside (fun _ => s.byteAt a + 1) a elsewhere
  rw [Model.storeRef_bytes rfl fits inside, if_pos writes] at kept
  simp at kept

section Running

variable {cfg : Config} {info : LaunchInfo} {blockSize : Word}
  {runs : LaunchRuns cfg info blockSize} {m model : Model} {n core : Nat} {blockOf Q : Nat → Nat}

/-- The stores of one tick are those of different threads. -/
theorem Running.lastIsGreatest
    (running : Running runs m n blockOf Q) :
    Store.LastIsGreatest cfg ((List.range cfg.numCores).filterMap fun i =>
      Model.captureStore cfg (m.cores i)) := by
  apply Store.lastIsGreatest_of_unique
  intro a inside s member other otherMember writes otherWrites
  have fits : ∀ {s}, s ∈ (List.range cfg.numCores).filterMap (fun i =>
      Model.captureStore cfg (m.cores i)) → s.addr.toNat + 4 ≤ 2 ^ 32 := fun member =>
    Model.expectedStores_fits (List.mem_mergeSort.mpr member)
  obtain ⟨i, inRange, captured⟩ := List.mem_filterMap.mp member
  obtain ⟨j, otherInRange, otherCaptured⟩ := List.mem_filterMap.mp otherMember
  rw [List.mem_range] at inRange otherInRange
  obtain ⟨active, x, block, _, early, stores⟩ := running.captured inRange captured
  obtain ⟨otherActive, y, otherBlock, _, otherEarly, otherStores⟩ :=
    running.captured otherInRange otherCaptured
  have here := stores.mem_of_writes (fits member) inside writes
  have there := otherStores.mem_of_writes (fits otherMember) inside otherWrites
  obtain rfl : x = y := by
    by_contra different
    exact (runs.own.isolated x y different _ early _ otherEarly a here).2 there
  obtain rfl : i = j :=
    running.apart i j inRange otherInRange active otherActive (block.symm.trans otherBlock)
  exact Option.some.inj (captured.symm.trans otherCaptured)

/-! ## Shifts -/

/-- A thread of the launch is about to shift a negative value arithmetically. -/
def LaunchRuns.ShiftsNegative (runs : LaunchRuns cfg info blockSize) (i k : Nat) : Prop :=
  (Iss.own cfg runs.start i k).1.ShiftsNegative (Iss.ownWord cfg runs.start i k)

/-- The cores come to a known difference exactly when a thread that they move does. -/
theorem Running.plain_iff
    (running : Running runs m n blockOf Q)
    {top : GPUTop cfg}
    (same : SameTop cfg m top)
    (sound : top.Sound) :
    (∀ i, i < cfg.numCores → (top.cores i).state = .exec → ¬(top.cores i).ShiftsNegative) ↔
      ∀ i, advanced cfg blockSize m blockOf Q i = Q i + 1 → ¬runs.ShiftsNegative i (Q i) := by
  constructor
  · intro plain i moved shifts
    rcases running.advanced_cases i with kept | ⟨_, _, core, x, inRange, active, _, rfl, next⟩
    · omega
    · obtain ⟨inGrid, ledger, work⟩ := running.atWork inRange active
      obtain ⟨exec, differs⟩ := (work.moved_shiftsNegative_iff (same.cores core inRange)
        (sound.inRange core inRange)).mpr ⟨x, next, shifts⟩
      exact plain core inRange exec differs
  · intro plain core inRange exec differs
    have active : (m.cores core).ctaActive = true := by
      rw [(same.cores core inRange).ctaActive, ← Bool.not_eq_false]
      intro idle
      rw [sound.settled.cores core inRange idle] at exec
      exact Fsm.noConfusion exec
    obtain ⟨inGrid, ledger, work⟩ := running.atWork inRange active
    obtain ⟨x, next, shifts⟩ := (work.moved_shiftsNegative_iff (same.cores core inRange)
      (sound.inRange core inRange)).mp ⟨exec, differs⟩
    have inBlock : x < blockSize.toNat := by
      rcases work.progress_cases x with kept | ⟨_, inBlock, _⟩
      · omega
      · exact inBlock
    exact plain _ ((running.advanced_of_core inRange active inBlock).trans next) shifts

/-! ## Accesses -/

/-- No lane that waits for the memory after a tick is at a halfword across a word. -/
theorem Running.not_crossing
    (running : Running runs m n blockOf Q)
    (cores : cfg.numCores ≤ 32)
    (threads : cfg.numThreads ≤ 8)
    (defined : m.tick cfg .idle = some model)
    (inRange : core < cfg.numCores)
    (waiting : (model.cores core).state = .memReq ∨ (model.cores core).state = .memResp)
    (present : hasLane (model.cores core).im (model.cores core).mt = true) :
    ¬(Instruction.funct3 (model.cores core).inst = 1 ∧
      wordOffset ((model.cores core).memoryAddress cfg) = 3) := by
  have after := running.tick cores threads defined
  have active : ∀ {m n blockOf Q}, Running runs m n blockOf Q → (m.cores core).state ≠ .sched →
      (m.cores core).ctaActive = true := fun running moved => by
    by_contra inactive
    exact moved (running.idle core inRange (Bool.eq_false_of_not_eq_true inactive))
  rcases waiting with request | response
  · obtain ⟨_, _, work⟩ := after.atWork inRange
      (active after (by rw [request]; exact CoreState.noConfusion))
    exact work.not_crossing request present
  · -- the access was requested in the tick before
    have other : m.firing cfg ≠ some core := fun fires => by
      rw [(running.accepts cores defined fires).2] at response
      exact CoreState.noConfusion response
    have stepped := cores_of_not_firing defined inRange other
    have before : (m.cores core).ctaActive = true := by
      by_contra inactive
      have idle := Bool.eq_false_of_not_eq_true inactive
      rw [cores_of_inactive defined inRange other idle, running.idle core inRange idle] at response
      exact CoreState.noConfusion response
    rw [stepped] at response
    obtain ⟨request, present, result⟩ := Core.request_of_response before response
    rw [stepped, result]
    obtain ⟨_, _, work⟩ := running.atWork inRange before
    exact work.not_crossing request present

/-- So the netlist drives none. -/
theorem Running.halfwords
    (running : Running runs m n blockOf Q)
    (cores : cfg.numCores ≤ 32)
    (threads : cfg.numThreads ≤ 8)
    (defined : m.tick cfg .idle = some model)
    {top : GPUTop cfg}
    (same : SameTop cfg model top)
    (sound : top.Sound)
    (inRange : core < cfg.numCores)
    (waiting : (top.cores core).Waiting) :
    ¬(Decode.funct3 (top.cores core).issueInst = 1 ∧
      wordOffset (top.cores core).memoryAddress = 3) := by
  have alike := same.cores core inRange
  rintro ⟨minor, offset⟩
  refine running.not_crossing cores threads defined inRange ?_ ?_ ⟨?_, ?_⟩
  · rw [alike.state]
    exact waiting.1.imp (congrArg Fsm.state) (congrArg Fsm.state)
  · rw [alike.im, alike.mt]
    exact waiting.2
  · rw [alike.inst]
    exact (Instruction.funct3_eq_iff _ 1).mpr minor
  · rwa [alike.memoryAddress (sound.inRange core inRange)]

end Running

/-! ## Outside physical memory -/

/-- What an expected store covers is in physical memory. -/
theorem Store.Covers.inPmem
    {cfg : Config}
    {s : Store}
    {a : Word}
    (covers : s.Covers cfg cfg.msize.toNat a) :
    inPmem cfg a = true := by
  obtain ⟨byte, _, _, above, below, rfl⟩ := covers
  have fits := cfg.pmem_fits
  rw [inPmem_iff, BitVec.toNat_ofNat, Nat.mod_eq_of_lt (below.trans_le fits)]
  exact ⟨above, below⟩

namespace RtlSim

/-- A tick of DiffTest stores in physical memory only. -/
theorem beforeEdge_outside
    {V : VGPUTop}
    {cfg : Config}
    {sim next : RtlSim V}
    {pmem after : Pmem}
    (ran : (sim.beforeEdge cfg).run pmem = some (next, after))
    {a : Word}
    (outside : inPmem cfg a = false) :
    after a = pmem a := by
  obtain ⟨taken, middle, takes, steps⟩ := LocalAction.run_bind_eq_some ran
  have kept : middle a = pmem a := by
    refine LocalAction.foldlM_induct (fun _ mem => mem a = pmem a)
      (fun state core mem next last same ran => ?_) rfl takes
    unfold takeStore at ran
    split_ifs at ran
    · obtain ⟨_, written, writes, rest⟩ := LocalAction.run_bind_eq_some ran
      rw [PmemAction.run_dpiPaddrWrite] at writes
      obtain ⟨_, wrote, here⟩ := Option.map_eq_some_iff.mp writes
      cases here
      cases rest
      exact (dpiPaddrWrite_frame wrote outside).trans same
    · cases ran
      exact same
  unfold cycleDiffStep at steps
  rw [LocalAction.run_bind, LocalAction.run_ofOption, Option.bind_map] at steps
  obtain ⟨_, _, here⟩ := Option.bind_eq_some_iff.mp steps
  cases here
  exact kept

/-! ## The tick -/

/-- Both sides are in step, the pins are at rest, and the model has come to `m`. -/
structure Following (cfg : Config) (m : Model) (sim : RtlSim (vgpuTop cfg)) (pmem : Pmem) :
    Prop where
  inStep : InStep cfg true sim pmem
  pins : sim.PinsAtRest
  host : Model.HostRun cfg (32 * cfg.numThreads) sim.model
  model : m.SameButInputs sim.model
  memory : pmem = m.mem.bytes

variable {cfg : Config} {info : LaunchInfo} {blockSize : Word}
  {runs : LaunchRuns cfg info blockSize} {m model : Model} {n : Nat} {blockOf Q : Nat → Nat}
  {sim next stepped : RtlSim (vgpuTop cfg)} {pmem after : Pmem}

namespace Following

/-- The netlist is as busy as the model, and as faulty. -/
theorem outputs
    (following : Following cfg m sim pmem)
    (cores : cfg.numCores ≤ 32) :
    (vgpuTop cfg).gpuBusy sim.top = m.topBusy cfg ∧
      (vgpuTop cfg).gpuFault sim.top = m.topFault cfg := by
  have same := following.inStep.same
  rw [← following.model.topBusy, ← following.model.topFault, same.topBusy cores, same.topFault]
  exact ⟨rfl, rfl⟩

/-- The model steps with the pins at rest. -/
theorem exists_model
    (following : Following cfg m sim pmem)
    (defined : m.tick cfg .idle = some model) :
    ∃ other, sim.model.tick cfg ⟨sim.pins.reset, sim.pins.dcrValid, sim.pins.dcrAddr,
        sim.pins.dcrData, sim.pins.launch⟩ = some other ∧ model.SameButInputs other := by
  rw [following.pins.running, following.pins.noWrite, following.pins.noLaunch]
  exact following.model.exists_tick defined _ _

/-- Stores and fetches stay inside physical memory, so that the tick returns. -/
theorem returns_tick
    (following : Following cfg m sim pmem)
    (running : Running runs m n blockOf Q)
    (cores : cfg.numCores ≤ 32)
    (threads : cfg.numThreads ≤ 8)
    (defined : m.tick cfg .idle = some model) :
    (sim.tick cfg .hardwareDiffTest).Returns pmem := by
  obtain ⟨other, steps, sameAfter⟩ := following.exists_model defined
  obtain ⟨inStep, pins, _, same, _⟩ := following
  refine RtlSim.returns_tick rfl (fun i inRange s taken => ?_) (by rw [steps]; rfl)
    (fun i inRange fetches => ?_) pmem
  · rw [inStep.takenStore_eq inRange, same.cores] at taken
    obtain ⟨active, _⟩ := running.captured inRange taken
    obtain ⟨_, _, work⟩ := running.atWork inRange active
    exact work.captured_inside taken
  · -- a core that fetches after the edge has executed nothing in it, so that it moves alike
    obtain ⟨ledgers, reachable⟩ := inStep.reachable
    have ticks : sim.model.tick cfg (Inputs.ofPins sim.dcrPins sim.pins.launch) = some other := by
      rw [inStep.running, ← inStep.narrow] at steps
      exact steps
    have edge : (sim.netlist.top.posedge (sim.netlist.inputs sim.pins)).cores i =
        (sim.netlist.top.posedge ⟨false, sim.dcrPins, sim.pins.launch, sim.netlist.rdata⟩).cores
          i := by
      rw [← inStep.running]
      rfl
    rw [edge] at fetches ⊢
    have alike := (inStep.same.core_posedge_iff inStep.sound reachable inStep.answered ticks
      inRange).mpr fun exec => by
        rw [GPUTop.posedge_core _ _ inRange] at fetches
        exact absurd fetches (GPUCore.not_fetch_of_exec exec _ _ _ _ _ _)
    rw [sameAfter.cores] at alike
    have state : (model.cores i).state = .fetch :=
      alike.state.trans (congrArg Fsm.state fetches)
    have after := running.tick cores threads defined
    have active : (model.cores i).ctaActive = true := by
      by_contra inactive
      rw [after.idle i inRange (Bool.eq_false_of_not_eq_true inactive)] at state
      exact CoreState.noConfusion state
    obtain ⟨_, _, work⟩ := after.atWork inRange active
    rw [← alike.ip]
    exact work.fetch_inside state

/-- The tick finds no mismatch exactly when no thread that it moves shifts a negative value. -/
theorem passed_iff
    (following : Following cfg m sim pmem)
    (running : Running runs m n blockOf Q)
    (cores : cfg.numCores ≤ 32)
    (threads : cfg.numThreads ≤ 8)
    (defined : m.tick cfg .idle = some model)
    (ticked : Ticked cfg sim next pmem after stepped) :
    next.diffFailed = false ↔
      ∀ i, advanced cfg blockSize m blockOf Q i = Q i + 1 → ¬runs.ShiftsNegative i (Q i) := by
  obtain ⟨other, steps, sameAfter⟩ := following.exists_model defined
  obtain ⟨inStep, pins, _, same, _⟩ := following
  have narrow := threads.trans (show 8 ≤ 32 by decide)
  have shifts := running.plain_iff (same.sameTop inStep.same) inStep.sound
  rw [inStep.tick_iff narrow (fun _ => rfl) ticked, ← shifts]
  refine ⟨PlainTick.shifts, fun plain => ?_⟩
  have unobserved : sim.model.WriteUnobserved cfg sim.dcrPins sim.pins.launch := by
    unfold Model.WriteUnobserved
    simp [dcrPins, pins.noLaunch, pins.noWrite, DcrRegisters.after]
  refine ⟨unobserved, plain, ?_, fun i inRange waiting => ?_⟩
  · rw [inStep.reportedStores_eq, same.cores]
    exact running.lastIsGreatest
  · have registers := (inStep.sameTop_iff ticked).mpr ⟨unobserved, plain⟩
    have result : stepped.model = other :=
      Option.some.inj ((beforeEdge_model ticked.before).symm.trans steps)
    rw [result] at registers
    have sound : next.netlist.top.Sound := by
      rw [inStep.top_eq ticked]
      exact inStep.sound.posedge _
    exact running.halfwords cores threads defined (sameAfter.sameTop registers) sound inRange
      waiting

/-- Neither side stores outside physical memory. -/
theorem memory_tick
    (following : Following cfg m sim pmem)
    (running : Running runs m n blockOf Q)
    (defined : m.tick cfg .idle = some model)
    (ticked : Ticked cfg sim next pmem after stepped)
    (a : Word)
    (outside : inPmem cfg a = false) :
    after a = model.mem.bytes a := by
  rw [beforeEdge_outside ticked.before outside, following.memory]
  obtain ⟨_, _, kept | ⟨s, _, covers⟩⟩ := Model.tick_mem rfl defined a
  · exact kept.symm
  · rw [running.size] at covers
    exact Bool.noConfusion (outside.symm.trans covers.inPmem)

/-- A tick of the launch. -/
theorem exists_tick
    (following : Following cfg m sim pmem)
    (running : Running runs m n blockOf Q)
    (cores : cfg.numCores ≤ 32)
    (threads : cfg.numThreads ≤ 8)
    (defined : m.tick cfg .idle = some model) :
    ∃ next after, (sim.tick cfg .hardwareDiffTest).run pmem = some (next, after) ∧
      (next.diffFailed = false ↔
        ∀ i, advanced cfg blockSize m blockOf Q i = Q i + 1 → ¬runs.ShiftsNegative i (Q i)) ∧
      (next.diffFailed = false → Following cfg model next after) := by
  obtain ⟨next, after, ran⟩ := following.returns_tick running cores threads defined
  obtain ⟨stepped, ticked⟩ := tick_ticked rfl ran
  obtain ⟨other, steps, sameAfter⟩ := following.exists_model defined
  refine ⟨next, after, ran, following.passed_iff running cores threads defined ticked,
    fun passed => ?_⟩
  have whole := following.memory_tick running defined ticked
  obtain ⟨inStep, pins, host, _, _⟩ := following
  have narrow := threads.trans (show 8 ≤ 32 by decide)
  have came : next.model = other := Option.some.inj ((tick_model rfl ran).symm.trans steps)
  have inStepAfter := inStep.tick narrow (fun _ => rfl) ticked passed
  refine ⟨inStepAfter, ?_, ?_, ?_, ?_⟩
  · have kept := tick_pins ran
    constructor <;> rw [kept]
    · exact pins.running
    · exact pins.noWrite
    · exact pins.noLaunch
    · exact pins.narrow
  · rw [came]
    exact host.tick _ ⟨fun writes => Bool.noConfusion (pins.noWrite.symm.trans writes),
      fun launch => Bool.noConfusion (pins.noLaunch.symm.trans launch)⟩ steps
  · rw [came]
    exact sameAfter
  · funext a
    cases inside : inPmem cfg a with
    | true =>
        rw [inStepAfter.images rfl a inside, came]
        exact congrFun (congrArg (fun m => m.mem.bytes) sameAfter) a
    | false => exact whole a inside

end Following

end RtlSim

end OpenGPU
