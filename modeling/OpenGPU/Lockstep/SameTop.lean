import OpenGPU.Cycle.PathStack
import OpenGPU.Dispatch.KmuLockstep
import OpenGPU.Lockstep.CoreEdge
import OpenGPU.Verilog.Top

/-!
# One edge of the SystemVerilog GPU

The dispatcher and all cores of the netlist move at once, and so do those of the cycle
model. Registers that agree before an edge agree after it when the memories answer as the
copy of the model does, up to two known differences: a configuration write that the same
edge looks at, and an arithmetic shift of a negative value.
-/

namespace OpenGPU

open Verilog Instruction

namespace Verilog

variable {cfg : Config}

namespace GPUCore

variable {h : GPUCore cfg}

/-- In `MEM_RESP` the lane of the access is issued. -/
def Served (h : GPUCore cfg) : Prop :=
  h.state = .memResp → h.issueMask.getLsbD h.memThread.toNat = true

theorem Served.of_state
    (elsewhere : h.state ≠ .memResp) :
    h.Served :=
  fun here => absurd here elsewhere

/-- An instruction ends in `EXEC` or goes on in `MEM_REQ`. -/
theorem state_execute
    (cid : Nat)
    (h : GPUCore cfg) :
    (h.execute cid).state = .sched ∨ (h.execute cid).state = .memReq := by
  unfold GPUCore.execute
  split_ifs
  · exact Or.inl rfl
  · exact Or.inr rfl
  · exact Or.inl rfl
  · exact Or.inl rfl
  · exact Or.inl rfl

/-- No core goes from `EXEC` to `FETCH`. -/
theorem not_fetch_of_exec
    (exec : h.state = .exec)
    {numCores : Nat}
    (cid : Nat)
    (reset ctaValid : Bool)
    (kmu : GPUKmu numCores)
    (imemRdata dmemRdata : Word) :
    (h.posedge cid reset ctaValid kmu imemRdata dmemRdata).state ≠ .fetch := by
  unfold GPUCore.posedge
  split_ifs
  · exact Fsm.noConfusion
  · exact Fsm.noConfusion
  · rw [exec]
    rcases h.state_execute cid with done | memory
    · exact done ▸ Fsm.noConfusion
    · exact memory ▸ Fsm.noConfusion
  · exact exec ▸ Fsm.noConfusion

/-- Every edge keeps to it. -/
theorem Served.posedge
    (served : h.Served)
    {numCores : Nat}
    (cid : Nat)
    (reset ctaValid : Bool)
    (kmu : GPUKmu numCores)
    (imemRdata dmemRdata : Word) :
    (h.posedge cid reset ctaValid kmu imemRdata dmemRdata).Served := by
  unfold GPUCore.posedge
  split_ifs
  · exact .of_state Fsm.noConfusion
  · exact .of_state Fsm.noConfusion
  · cases state : h.state with
    | sched =>
        apply Served.of_state
        show h.schedule.state ≠ _
        unfold GPUCore.schedule
        cases circularFirst cfg.numWarps h.rrWarp.toNat h.warpValid with
        | none => exact state ▸ Fsm.noConfusion
        | some selected => exact Fsm.noConfusion
    | fetch => exact .of_state Fsm.noConfusion
    | exec =>
        apply Served.of_state
        rcases h.state_execute cid with done | memory
        · exact done ▸ Fsm.noConfusion
        · exact memory ▸ Fsm.noConfusion
    | memReq =>
        show h.memoryRequest.Served
        unfold GPUCore.memoryRequest
        split_ifs with skipped
        · exact .of_state Fsm.noConfusion
        · exact .of_state (state ▸ Fsm.noConfusion)
        · exact fun _ => by simpa using skipped
    | memResp =>
        show (h.memoryResponse dmemRdata).Served
        unfold GPUCore.memoryResponse
        dsimp only
        split_ifs <;> exact .of_state Fsm.noConfusion
  · exact served

end GPUCore

/-- The dispatcher looks at the ready cores only. -/
theorem GPUKmu.posedge_congr
    {numCores : Nat}
    {left right : Nat → Bool}
    (agree : ∀ i, i < numCores → left i = right i)
    (kmu : GPUKmu numCores)
    (pins : DcrIf)
    (launch : Bool) :
    kmu.posedge false pins launch left = kmu.posedge false pins launch right := by
  have scan : kmu.firstReady left = kmu.firstReady right := circularFirst_congr agree
  have next : kmu.rrCoreNext left = kmu.rrCoreNext right := by
    rw [GPUKmu.rrCoreNext, GPUKmu.rrCoreNext, GPUKmu.selectedCore, GPUKmu.selectedCore, scan]
  unfold GPUKmu.posedge
  rw [GPUKmu.ctaFire_eq, GPUKmu.ctaFire_eq, scan, next]

namespace GPUTop

variable {top : GPUTop cfg}

/-- What holds after reset and across every edge: a core without a block is in `SCHED`,
index registers name elements of the topology, and an answer belongs to an issued lane. -/
structure Sound (top : GPUTop cfg) : Prop where
  settled : top.Settled
  inRange : ∀ i, i < cfg.numCores → (top.cores i).InRange
  served : ∀ i, i < cfg.numCores → (top.cores i).Served

/-- A reset makes every state sound. -/
theorem sound_reset
    (top : GPUTop cfg)
    {inputs : TopInputs}
    (asserted : inputs.reset = true) :
    (top.posedge inputs).Sound := by
  have core : ∀ i, i < cfg.numCores → (top.posedge inputs).cores i = (top.cores i).reset := by
    intro i inRange
    rw [posedge_core top inputs inRange, GPUCore.posedge, if_pos asserted]
  have kmu : (top.posedge inputs).kmu = GPUKmu.fresh := by
    show top.kmu.posedge _ _ _ _ = _
    rw [GPUKmu.posedge, if_pos asserted]
  refine ⟨⟨fun i inRange => ?_, ?_⟩, fun i inRange => ?_, fun i inRange => ?_⟩
  · rw [core i inRange]
    exact fun _ => rfl
  · rw [kmu]
    exact cfg.numCores_pos
  · rw [core i inRange]
    exact GPUCore.inRange_reset _
  · rw [core i inRange]
    exact .of_state Fsm.noConfusion

/-- Every edge keeps it sound. -/
theorem Sound.posedge
    (sound : top.Sound)
    (inputs : TopInputs) :
    (top.posedge inputs).Sound where
  settled := sound.settled.posedge inputs
  inRange i inRange := by
    rw [posedge_core top inputs inRange]
    exact (sound.inRange i inRange).posedge i _ _ _ _ _
  served i inRange := by
    rw [posedge_core top inputs inRange]
    exact (sound.served i inRange).posedge i _ _ _ _ _

/-- The memories answer the fetches and loads under way from a copy of memory. -/
structure Answered (top : GPUTop cfg) (mem : ShadowMemory) (rdata : ReadData) : Prop where
  fetches : ∀ i, i < cfg.numCores → (top.cores i).state = .fetch →
    rdata.imem i = load32 cfg mem (top.cores i).issuePc
  loads : ∀ i, i < cfg.numCores → (top.cores i).dmemRen = true →
    rdata.dmem i = load32 cfg mem (wordAddress (top.cores i).memoryAddress)

end GPUTop

end Verilog

/-- The registers of the cycle model and of the netlist agree. -/
structure SameTop (cfg : Config) (m : Model) (top : GPUTop cfg) : Prop where
  kmu : SameKmu m.dcr m.walk top.kmu
  cores : ∀ i, i < cfg.numCores → SameCore cfg (m.cores i) (top.cores i)

namespace SameTop

variable {cfg : Config} {m next : Model} {top : GPUTop cfg}

/-- The same cores are ready. -/
theorem coreReady
    (same : SameTop cfg m top)
    {i : Nat}
    (inRange : i < cfg.numCores) :
    m.coreReady i = top.coreReady i := by
  have core := same.cores i inRange
  rw [Model.coreReady, GPUTop.coreReady, GPUCore.ctaReady, core.ctaActive, core.state]
  cases (top.cores i).state <;> rfl

/-- The same core is offered a block. -/
theorem firing_iff
    (cores : cfg.numCores ≤ 32)
    (same : SameTop cfg m top)
    {i : Nat} :
    m.firing cfg = some i ↔ top.kmu.ctaValid top.coreReady i = true := by
  have scan : top.kmu.firstReady m.coreReady = top.kmu.firstReady top.coreReady :=
    circularFirst_congr fun i inRange => same.coreReady inRange
  rw [Model.firing_eq_firstReady cores same.kmu, scan, GPUKmu.ctaValid_iff]
  cases top.kmu.running <;> simp

/-- A core takes a block on both sides or on neither. -/
theorem fires_eq
    (cores : cfg.numCores ≤ 32)
    (same : SameTop cfg m top)
    (i : Nat) :
    (m.firing cfg == some i) =
      (top.kmu.ctaValid top.coreReady i && (top.cores i).ctaReady) := by
  rw [Bool.eq_iff_iff, beq_iff_eq, same.firing_iff cores, Bool.and_eq_true, iff_self_and]
  intro offered
  exact circularFirst_ready (GPUKmu.ctaValid_iff.mp offered).2

/-- The registers of the dispatcher as every core latches them. -/
theorem latches
    (same : SameTop cfg m top) :
    SameCore.SameLaunch m.launchRegisters top.kmu where
  startup := same.kmu.startup
  args := same.kmu.args
  dim := same.kmu.dim
  grid := same.kmu.grid
  blockSize := same.kmu.blockSize
  block := same.kmu.block

section Edge

variable {pins : DcrIf} {launch : Bool}

/-- The dispatcher moves alike, unless the edge looks at what it writes. -/
theorem kmu_posedge_iff
    (same : SameTop cfg m top)
    (defined : m.tick cfg (Inputs.ofPins pins launch) = some next) :
    SameKmu next.dcr next.walk (top.kmu.posedge false pins launch top.coreReady) ↔
      m.WriteUnobserved cfg pins launch := by
  rw [← GPUKmu.posedge_congr fun i inRange => same.coreReady inRange]
  exact Model.sameKmu_tick_iff same.kmu defined

/-- A core at work has issued a lane. -/
theorem issued_of_reachable
    {ledgers : Nat → LaneLedger}
    (reachable : Model.Reachable cfg m ledgers)
    {i : Nat}
    (inRange : i < cfg.numCores)
    (active : (m.cores i).ctaActive = true)
    (issued : (m.cores i).state ≠ .sched) :
    (m.cores i).im ≠ 0 := by
  have conserved := reachable.conserved inRange active
  obtain ⟨warp, valid, mask⟩ := conserved.issued issued
  rw [mask]
  apply (conserved.partition _ warp).nonempty
  rw [Core.pathMasks_of_valid valid]
  exact List.mem_cons_self

/-- A defined tick is defined on every core. -/
theorem stepDefined_of_tick
    {inputs : Inputs}
    (running : inputs.reset = false)
    (defined : m.tick cfg inputs = some next)
    {i : Nat}
    (inRange : i < cfg.numCores) :
    (m.cores i).stepDefined cfg m.launchRegisters (m.firing cfg == some i) = true := by
  rcases Model.tick_eq_some defined with ⟨reset, _⟩ | ⟨_, _, clock⟩
  · exact Bool.noConfusion (running.symm.trans reset)
  · have core := List.all_eq_true.mp clock i (List.mem_range.mpr inRange)
    exact (Bool.and_eq_true_iff.mp core).2

/-- A core moves alike, unless a lane shifts a negative value arithmetically. -/
theorem core_posedge_iff
    (same : SameTop cfg m top)
    (sound : top.Sound)
    {ledgers : Nat → LaneLedger}
    (reachable : Model.Reachable cfg m ledgers)
    {rdata : ReadData}
    (answered : top.Answered m.mem rdata)
    (defined : m.tick cfg (Inputs.ofPins pins launch) = some next)
    {i : Nat}
    (inRange : i < cfg.numCores) :
    SameCore cfg (next.cores i)
        ((top.posedge ⟨false, pins, launch, rdata⟩).cores i) ↔
      ((top.cores i).state = .exec → ¬(top.cores i).ShiftsNegative) := by
  rw [Model.tick_cores defined rfl inRange, GPUTop.posedge_core _ _ inRange]
  refine (same.cores i inRange).posedge_iff (sound.inRange i inRange)
    { fires := same.fires_eq (Model.numCores_le_of_tick defined) i
      latches := same.latches
      defined := stepDefined_of_tick rfl defined inRange
      legal := (reachable.inBounds inRange).legal
      issued := fun active exec => ?_
      served := fun _ => sound.served i inRange
      fetches := answered.fetches i inRange
      loads := fun _ => answered.loads i inRange } i
  refine issued_of_reachable reachable inRange active ?_
  rw [exec]
  exact CoreState.noConfusion

/-- One edge of the GPU is one step of the cycle model exactly when it does not look at
what it writes and no lane shifts a negative value arithmetically. -/
theorem posedge_iff
    (same : SameTop cfg m top)
    (sound : top.Sound)
    {ledgers : Nat → LaneLedger}
    (reachable : Model.Reachable cfg m ledgers)
    {rdata : ReadData}
    (answered : top.Answered m.mem rdata)
    (defined : m.tick cfg (Inputs.ofPins pins launch) = some next) :
    SameTop cfg next (top.posedge ⟨false, pins, launch, rdata⟩) ↔
      m.WriteUnobserved cfg pins launch ∧
        ∀ i, i < cfg.numCores → (top.cores i).state = .exec → ¬(top.cores i).ShiftsNegative := by
  rw [← same.kmu_posedge_iff defined]
  constructor
  · intro after
    refine ⟨after.kmu, fun i inRange => ?_⟩
    exact (same.core_posedge_iff sound reachable answered defined inRange).mp
      (after.cores i inRange)
  · rintro ⟨kmu, shifts⟩
    refine ⟨kmu, fun i inRange => ?_⟩
    exact (same.core_posedge_iff sound reachable answered defined inRange).mpr (shifts i inRange)

end Edge

end SameTop

end OpenGPU
