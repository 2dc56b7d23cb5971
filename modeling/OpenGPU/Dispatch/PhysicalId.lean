import OpenGPU.Cycle.Launch
import OpenGPU.Iss.Launch
import OpenGPU.Verilog.Launch

/-!
# Physical IDs of the models

The cycle model and the RTL answer CSR `0xccd` with the lane of the core that
runs the block; the simulator computes the same number from the block index
modulo the number of cores. They agree for a launch exactly when the dispatcher
never passes over the core whose turn it is.
-/

namespace OpenGPU

/-- The lanes of two cores have different numbers. -/
theorem physicalId_eq_iff
    {cfg : Config}
    {left right x : Nat}
    (leftBound : left < cfg.numCores)
    (rightBound : right < cfg.numCores)
    (lane : x < cfg.contexts) :
    BitVec.ofNat 32 (left * cfg.contexts + x) =
        BitVec.ofNat 32 (right * cfg.contexts + x) ↔
      left = right := by
  have place : ∀ core, core < cfg.numCores → core * cfg.contexts + x < 2 ^ 32 := by
    intro core bound
    calc
      core * cfg.contexts + x < (core + 1) * cfg.contexts := by
        rw [Nat.succ_mul]
        omega
      _ ≤ cfg.numCores * cfg.contexts := Nat.mul_le_mul_right _ bound
      _ < 2 ^ 32 := cfg.numHarts_lt
  rw [← BitVec.toNat_inj, BitVec.toNat_ofNat, BitVec.toNat_ofNat,
    Nat.mod_eq_of_lt (place left leftBound), Nat.mod_eq_of_lt (place right rightBound),
    Nat.add_right_cancel_iff]
  exact Nat.mul_left_inj cfg.contexts_pos.ne'

namespace Model

variable {cfg : Config}

/-- The linear number of the block that the dispatcher offers. -/
def blockNumber (m : Model) : Nat :=
  GridPoint.rank m.dcr.grid.toPoint m.walk.block.toPoint

/-- The core whose turn it is can take the offered block. The first block is on
turn if core 0 is ready and no core from the pointer on is, unless the pointer
is 0; a later one if the core that the pointer names is ready. -/
def DispatchesOnTurn (cfg : Config) (m : Model) : Prop :=
  OnTurn cfg.numCores m.blockNumber m.walk.rr m.coreReady

/-- In the state at `time`, the CSR of every thread of every block that a core
has taken since the pulse answers the physical ID that the simulator gave to the
thread with the same global ID. -/
def PhysicalIdsAgree (cfg : Config) (blockSize : Word) (launched : Iss)
    (run : Nat → Model) (time : Nat) : Prop :=
  ∀ core, core < cfg.numCores →
    (∃ edge, edge < time ∧ (run edge).firing cfg = some core) →
    ((run time).cores core).ctaActive = true →
    ∀ w t, w < cfg.numWarps → t < cfg.numThreads →
      w * cfg.numThreads + t < blockSize.toNat →
      Core.csrValue cfg core { (run time).cores core with iw := w } t 0xccd =
        some
          (launched.cores
            (((run time).cores core).gid (w * cfg.numThreads + t)).toNat).physicalId

section Launch

variable {info : LaunchInfo} {blockSize : Word} {launched : Iss} {pmem : Pmem}

/-- The global ID of lane `x` of the `b`-th block. -/
theorem gid_blockRegisters
    (accepted : info.Accepted cfg blockSize)
    {b x : Nat}
    (block : b < info.gridDim.count)
    (inBlock : x < blockSize.toNat) :
    ((LaunchRun.blockRegisters (info.registers blockSize) b).cta.gid x).toNat =
      b * blockSize.toNat + x := by
  have linear : Core.blockLinear (LaunchRun.blockRegisters (info.registers blockSize) b) =
      BitVec.ofNat 32 b := Dim3.linear_blockAt block
  have word : BitVec.ofNat 32 b * blockSize + BitVec.ofNat 32 x =
      BitVec.ofNat 32 (b * blockSize.toNat + x) := by
    rw [BitVec.ofNat_add, BitVec.ofNat_mul, BitVec.ofNat_toNat, BitVec.setWidth_eq]
  show (Core.blockLinear (LaunchRun.blockRegisters (info.registers blockSize) b) *
    blockSize + BitVec.ofNat 32 x).toNat = _
  rw [linear, word, BitVec.toNat_ofNat, Nat.mod_eq_of_lt]
  exact Nat.lt_trans (Iss.thread_lt block inBlock) accepted.total

/-- A core that holds the `b`-th block answers the simulator's physical ID
exactly when its number is `b` modulo the number of cores. -/
theorem csr_agrees_iff
    (accepted : info.Accepted cfg blockSize)
    (started : Iss.Launched cfg info blockSize pmem launched)
    {b core w t : Nat}
    {c : Core}
    (block : b < info.gridDim.count)
    (inRange : core < cfg.numCores)
    (holds : c.cta = (LaunchRun.blockRegisters (info.registers blockSize) b).cta)
    (inBlock : w * cfg.numThreads + t < blockSize.toNat) :
    Core.csrValue cfg core { c with iw := w } t 0xccd =
        some (launched.cores (c.gid (w * cfg.numThreads + t)).toNat).physicalId ↔
      core = b % cfg.numCores := by
  have gid : (c.gid (w * cfg.numThreads + t)).toNat =
      b * blockSize.toNat + (w * cfg.numThreads + t) := by
    rw [← gid_blockRegisters accepted block inBlock, ← holds]
    rfl
  have csr : Core.csrValue cfg core { c with iw := w } t 0xccd =
      some (BitVec.ofNat 32 (core * cfg.contexts + (w * cfg.numThreads + t))) := by
    rw [← Nat.add_assoc]
    rfl
  have iss : (Iss.thread cfg info blockSize b (w * cfg.numThreads + t)).physicalId =
      BitVec.ofNat 32
        (b % cfg.numCores * cfg.contexts + (w * cfg.numThreads + t)) := rfl
  rw [gid, started.thread b _ block inBlock, csr, iss, Option.some.injEq]
  exact physicalId_eq_iff inRange (Nat.mod_lt _ cfg.numCores_pos)
    (Nat.lt_of_lt_of_le inBlock accepted.fits)

variable {m : Model} {bound : Nat} {run : Nat → Model}

/-- The offered block on an edge that dispatches is the number of blocks
dispatched before. -/
theorem LaunchRun.blockNumber_eq
    (launch : LaunchRun cfg m bound run)
    (positive : m.dcr.grid.Positive)
    {time core : Nat}
    (before : time ≤ bound)
    (found : LaunchRun.fired cfg run time = some core) :
    (run time).blockNumber = dispatched (LaunchRun.fired cfg run) time := by
  obtain ⟨inRange, block⟩ := launch.block_eq positive before found
  rw [blockNumber, launch.dcr_eq before, block, Dim3.toPoint_blockAt inRange,
    GridPoint.rank_pointAt]

/-- Every thread of a launch on the cycle model reads the physical ID of the
simulator if and only if every block is dispatched while the core whose turn it
is can take it. -/
theorem agree_iff_dispatchesOnTurn
    {ledgers : Nat → LaneLedger}
    (reachable : Reachable cfg m ledgers)
    (accepted : info.Accepted cfg blockSize)
    (configured : m.dcr = info.registers blockSize)
    (started : Iss.Launched cfg info blockSize pmem launched)
    (launch : LaunchRun cfg m bound run) :
    (∀ time, time ≤ bound → PhysicalIdsAgree cfg blockSize launched run time) ↔
      ∀ time, time < bound → ∀ core, (run time).firing cfg = some core →
        DispatchesOnTurn cfg (run time) := by
  have positive : m.dcr.grid.Positive := configured ▸ accepted.grid
  have grid : m.dcr.grid = info.gridDim := configured ▸ rfl
  have inTurn := (launch.rotatingDispatch reachable.rr_lt).all_inTurn_iff
  have onTurn :
      (∀ time, time < bound → ∀ core, (run time).firing cfg = some core →
          DispatchesOnTurn cfg (run time)) ↔
        ∀ time, time < bound → (LaunchRun.fired cfg run time).isSome = true →
          OnTurn cfg.numCores (dispatched (LaunchRun.fired cfg run) time)
            (run time).walk.rr (run time).coreReady := by
    refine forall_congr' fun time => forall_congr' fun before => ?_
    rw [Option.isSome_iff_exists, forall_exists_index]
    refine forall_congr' fun core => forall_congr' fun found => ?_
    rw [DispatchesOnTurn, launch.blockNumber_eq positive before.le found]
  rw [onTurn, ← inTurn]
  constructor
  · intro agree time before core found
    have inRange : core < cfg.numCores :=
      circularFirst_lt ((launch.rotatingDispatch reachable.rr_lt).chooses time before core found)
    obtain ⟨latched, active⟩ := launch.cta_of_fired positive before inRange found
    rw [configured] at latched
    refine (csr_agrees_iff accepted started
      (grid ▸ (launch.block_eq positive before.le found).1) inRange latched ?_).mp
      (agree (time + 1) before core inRange ⟨time, Nat.lt_succ_self time, found⟩ active
        0 0 cfg.numWarps_pos cfg.numThreads_pos ?_) <;>
    · rw [Nat.zero_mul]
      exact accepted.size_pos
  · intro turns time before core inRange took active w t warp lane inBlock
    obtain ⟨edge, early, found, latched⟩ := launch.exists_cta positive before inRange took
    rw [configured] at latched
    exact (csr_agrees_iff accepted started
      (grid ▸ (launch.block_eq positive (by omega) found).1) inRange latched inBlock).mpr
      (turns edge (by omega) core found)

end Launch

end Model

namespace Verilog.GPUTop

variable {cfg : Config}

/-- The linear number of the block that the dispatcher offers. -/
def blockNumber (top : GPUTop cfg) : Nat :=
  GridPoint.rank top.kmu.gridDim.toPoint top.kmu.blockIdx.toPoint

/-- The core whose turn it is can take the offered block. -/
def DispatchesOnTurn (top : GPUTop cfg) : Prop :=
  OnTurn cfg.numCores top.blockNumber top.kmu.rrCore.toNat top.coreReady

/-- In the state at `time`, the CSR of every thread of every block that a core
has taken since the launch edge answers the physical ID that the simulator gave
to the thread with the same global ID. -/
def PhysicalIdsAgree (blockSize : Word) (launched : Iss) (run : Nat → GPUTop cfg)
    (time : Nat) : Prop :=
  ∀ core, core < cfg.numCores →
    (∃ edge, edge < time ∧ (run edge).accepts core = true) →
    ((run time).cores core).ctaActive = true →
    ∀ w t, w < cfg.numWarps → t < cfg.numThreads →
      w * cfg.numThreads + t < blockSize.toNat →
      GPUCore.csrValue core
          { (run time).cores core with issueWarp := BitVec.ofNat _ w } t 0xccd =
        some
          (launched.cores
            (((run time).cores core).globalId
              (w * cfg.numThreads + t)).toNat).physicalId

variable {info : LaunchInfo} {blockSize : Word} {launched : Iss} {pmem : Pmem}

/-- A core that holds the `b`-th block answers the simulator's physical ID
exactly when its number is `b` modulo the number of cores. -/
theorem csr_agrees_iff
    (accepted : info.Accepted cfg blockSize)
    (started : Iss.Launched cfg info blockSize pmem launched)
    {kmu : GPUKmu cfg.numCores}
    (configured : kmu.toKmuConfig = kmuConfig info blockSize)
    {b coreId w t : Nat}
    {core : GPUCore cfg}
    (block : b < info.gridDim.count)
    (inRange : coreId < cfg.numCores)
    (warp : w < cfg.numWarps)
    (holds : core.globalId = blockIds kmu b)
    (inBlock : w * cfg.numThreads + t < blockSize.toNat) :
    GPUCore.csrValue coreId { core with issueWarp := BitVec.ofNat _ w } t 0xccd =
        some
          (launched.cores (core.globalId (w * cfg.numThreads + t)).toNat).physicalId ↔
      coreId = b % cfg.numCores := by
  have registers : blockIds kmu b =
      (Model.LaunchRun.blockRegisters (info.registers blockSize) b).cta.gid := by
    have grid : kmu.gridDim = info.gridDim := congrArg KmuConfig.gridDim configured
    have size : kmu.blockSize = blockSize := congrArg KmuConfig.blockSize configured
    funext x
    simp only [blockIds, GPUCore.blockLinear, grid, size]
    rfl
  have gid : (core.globalId (w * cfg.numThreads + t)).toNat =
      b * blockSize.toNat + (w * cfg.numThreads + t) := by
    rw [holds, registers, Model.gid_blockRegisters accepted block inBlock]
  have index : (BitVec.ofNat (indexBits cfg.numWarps) w).toNat = w := by
    rw [BitVec.toNat_ofNat]
    exact Nat.mod_eq_of_lt (Nat.lt_of_lt_of_le warp (le_two_pow_indexBits _))
  have csr : GPUCore.csrValue coreId { core with issueWarp := BitVec.ofNat _ w } t 0xccd =
      some (BitVec.ofNat 32 (coreId * cfg.contexts + (w * cfg.numThreads + t))) := by
    rw [Config.contexts, ← Nat.mul_assoc, ← Nat.add_assoc]
    conv_rhs => rw [← index]
    rfl
  have iss : (Iss.thread cfg info blockSize b (w * cfg.numThreads + t)).physicalId =
      BitVec.ofNat 32
        (b % cfg.numCores * cfg.contexts + (w * cfg.numThreads + t)) := rfl
  rw [gid, started.thread b _ block inBlock, csr, iss, Option.some.injEq]
  exact physicalId_eq_iff inRange (Nat.mod_lt _ cfg.numCores_pos)
    (Nat.lt_of_lt_of_le inBlock accepted.fits)

/-- Every thread of a launch on the RTL reads the physical ID of the simulator
if and only if every block is dispatched while the core whose turn it is can take
it. -/
theorem agree_iff_dispatchesOnTurn
    {top : GPUTop cfg}
    (reachable : Reachable top)
    (accepted : info.Accepted cfg blockSize)
    (configured : top.kmu.toKmuConfig = kmuConfig info blockSize)
    (started : Iss.Launched cfg info blockSize pmem launched)
    (atLaunch : ReadData)
    (rdata : Nat → ReadData)
    (bound : Nat) :
    (∀ time, time ≤ bound →
        PhysicalIdsAgree blockSize launched (launchedAt top atLaunch rdata) time) ↔
      ∀ time, time < bound → ∀ core, (launchedAt top atLaunch rdata time).accepts core →
        (launchedAt top atLaunch rdata time).DispatchesOnTurn := by
  have grid : top.kmu.gridDim = info.gridDim := congrArg KmuConfig.gridDim configured
  have positive : top.kmu.gridDim.Positive := grid ▸ accepted.grid
  have rotation := rotatingDispatch atLaunch rdata reachable.settled bound
  have onTurn :
      (∀ time, time < bound → ∀ core, (launchedAt top atLaunch rdata time).accepts core →
          (launchedAt top atLaunch rdata time).DispatchesOnTurn) ↔
        ∀ time, time < bound → (taking top atLaunch rdata time).isSome = true →
          OnTurn cfg.numCores (dispatched (taking top atLaunch rdata) time)
            (launchedAt top atLaunch rdata time).kmu.rrCore.toNat
            (launchedAt top atLaunch rdata time).coreReady := by
    refine forall_congr' fun time => forall_congr' fun before => ?_
    rw [Option.isSome_iff_exists, forall_exists_index]
    refine forall_congr' fun core => ?_
    rw [taking_eq_some_iff]
    refine forall_congr' fun taken => ?_
    obtain ⟨inGrid, kmu⟩ := block_eq atLaunch rdata positive
      ((taking_eq_some_iff top atLaunch rdata time core).mpr taken)
    have number : (launchedAt top atLaunch rdata time).blockNumber =
        dispatched (taking top atLaunch rdata) time := by
      rw [blockNumber, kmu, Dim3.toPoint_blockAt inGrid, GridPoint.rank_pointAt]
    rw [DispatchesOnTurn, number]
  rw [onTurn, ← rotation.all_inTurn_iff]
  constructor
  · intro agree time before core found
    have taken := (taking_eq_some_iff top atLaunch rdata time core).mp found
    obtain ⟨latched, active⟩ := globalId_of_taking atLaunch rdata positive found
    refine (csr_agrees_iff accepted started configured
      (grid ▸ (block_eq atLaunch rdata positive found).1) (lt_of_accepts taken)
      cfg.numWarps_pos latched ?_).mp
      (agree (time + 1) before core (lt_of_accepts taken)
        ⟨time, Nat.lt_succ_self time, taken⟩ active
        0 0 cfg.numWarps_pos cfg.numThreads_pos ?_) <;>
    · rw [Nat.zero_mul]
      exact accepted.size_pos
  · intro turns time before core inRange took active w t warp lane inBlock
    simp only [← taking_eq_some_iff] at took
    obtain ⟨edge, early, found, latched⟩ :=
      exists_globalId atLaunch rdata positive inRange took
    exact (csr_agrees_iff accepted started configured
      (grid ▸ (block_eq atLaunch rdata positive found).1) inRange warp latched inBlock).mpr
      (turns edge (by omega) core found)

end Verilog.GPUTop

/-- For every launch that `gpu_launch` accepts, after any history of the same
GPU and over any number of ticks, on the cycle model as on the RTL: every thread
of the launch reads the physical ID of the simulator if and only if every block
is dispatched while the core whose turn it is can take it. -/
theorem physicalIds_agree_iff
    {cfg : Config}
    {info : LaunchInfo}
    {blockSize : Word}
    {s launched : Iss}
    (checked : info.gpuLaunchBlockSize cfg = some blockSize)
    (started : s.modelLaunch cfg info blockSize = some launched) :
    (∀ m ledgers run bound, Model.Reachable cfg m ledgers →
      m.dcr = info.registers blockSize → Model.LaunchRun cfg m bound run →
      ((∀ time, time ≤ bound →
          Model.PhysicalIdsAgree cfg blockSize launched run time) ↔
        ∀ time, time < bound → ∀ core, (run time).firing cfg = some core →
          (run time).DispatchesOnTurn cfg)) ∧
    ∀ (top : Verilog.GPUTop cfg) atLaunch rdata bound, Verilog.GPUTop.Reachable top →
      top.kmu.toKmuConfig = Verilog.kmuConfig info blockSize →
      ((∀ time, time ≤ bound →
          Verilog.GPUTop.PhysicalIdsAgree blockSize launched
            (top.launchedAt atLaunch rdata) time) ↔
        ∀ time, time < bound → ∀ core, (top.launchedAt atLaunch rdata time).accepts core →
          (top.launchedAt atLaunch rdata time).DispatchesOnTurn) := by
  have accepted := LaunchInfo.accepted_of_gpuLaunchBlockSize checked
  have started := Iss.launched_of_modelLaunch accepted started
  constructor
  · intro m ledgers run bound reachable configured launch
    exact Model.agree_iff_dispatchesOnTurn reachable accepted configured started launch
  · intro top atLaunch rdata bound reachable configured
    exact Verilog.GPUTop.agree_iff_dispatchesOnTurn reachable accepted configured started
      atLaunch rdata bound

namespace Model

/-! ## Two launches on two cores -/

/-- One block of one thread, at the configuration of a reset. -/
def singleThread : LaunchInfo := ⟨0x81000000, 0, 0, Dim3.one, Dim3.one⟩

/-- A memory whose words are all `EBREAK`. -/
def ebreakImage : Pmem := fun addr =>
  wordByte Instruction.ebreak (addr &&& 3).toNat

/-- The model after reset, with that memory. -/
def loaded : Option Model :=
  (cycleDiffInit Config.twoCores).map (cycleDiffBegin Config.twoCores ebreakImage)

/-- The model when the first launch of one thread has ended. -/
def relaunched : Option Model :=
  loaded.bind fun m => m.launchTicks Config.twoCores 5

/-- Loading it is a history, and leaves the configuration of a reset. -/
theorem reachable_of_loaded
    {m : Model}
    (isLoaded : loaded = some m) :
    ∃ ledgers, Reachable Config.twoCores m ledgers := by
  obtain ⟨m0, started, rfl⟩ := Option.map_eq_some_iff.mp isLoaded
  exact ⟨_, (Reachable.init started).load ebreakImage⟩

/-- The first launch dispatches its only block on turn, to core 0. -/
theorem physicalIds_agree_firstLaunch :
    ∃ m launched, loaded = some m ∧
      (Iss.fresh ebreakImage).modelLaunch Config.twoCores singleThread 1 = some launched ∧
      ∀ time, time ≤ 2 →
        PhysicalIdsAgree Config.twoCores 1 launched
          (fun time => (m.launchTicks Config.twoCores time).getD m) time := by
  have observed :
      loaded.any (fun m =>
        let run := fun time => (m.launchTicks Config.twoCores time).getD m
        (m.launchTicks Config.twoCores 2).isSome ∧ m.dcr = singleThread.registers 1 ∧
          (run 0).blockNumber = 0 ∧ (run 0).walk.rr = 0 ∧ (run 0).coreReady 0 ∧
          (run 1).firing Config.twoCores = none) = true := by decide +kernel
  obtain ⟨m, isLoaded, facts⟩ := (Option.any_eq_true _ _).mp observed
  obtain ⟨defined, configured, firstBlock, pointer, ready, quiet⟩ :=
    of_decide_eq_true facts
  obtain ⟨ledgers, reachable⟩ := reachable_of_loaded isLoaded
  obtain ⟨launched, started, _⟩ :=
    Iss.exists_launched
      (LaunchInfo.accepted_of_gpuLaunchBlockSize
        (show singleThread.gpuLaunchBlockSize Config.twoCores = some 1 by decide))
      (Iss.fresh ebreakImage)
  refine ⟨m, launched, isLoaded, started, ?_⟩
  refine ((physicalIds_agree_iff
    (show singleThread.gpuLaunchBlockSize Config.twoCores = some 1 by decide) started).1
    m ledgers _ 2 reachable configured (LaunchRun.of_launchTicks defined)).mpr ?_
  intro time before core found
  obtain rfl | rfl : time = 0 ∨ time = 1 := by omega
  · rw [DispatchesOnTurn, firstBlock, pointer, OnTurn, if_pos rfl]
    exact ⟨ready, Or.inl rfl⟩
  · rw [quiet] at found
    exact absurd found (by simp)

/-- The second launch goes to core 1, where its thread reads 1; the simulator
has given it 0. -/
theorem not_physicalIds_agree_relaunched :
    ∃ m ledgers run launched,
      Reachable Config.twoCores m ledgers ∧ m.topBusy Config.twoCores = false ∧
      singleThread.gpuLaunchBlockSize Config.twoCores = some 1 ∧
      m.dcr = singleThread.registers 1 ∧
      (Iss.fresh ebreakImage).modelLaunch Config.twoCores singleThread 1 = some launched ∧
      LaunchRun Config.twoCores m 1 run ∧
      ¬PhysicalIdsAgree Config.twoCores 1 launched run 1 := by
  have observed :
      relaunched.any (fun m =>
        let run := fun time => (m.launchTicks Config.twoCores time).getD m
        m.topBusy Config.twoCores = false ∧ m.dcr = singleThread.registers 1 ∧
          (m.launchTicks Config.twoCores 1).isSome ∧
          (run 0).firing Config.twoCores = some 1 ∧ ((run 1).cores 1).ctaActive ∧
          ((run 1).cores 1).gid 0 = 0 ∧
          Core.csrValue Config.twoCores 1 { (run 1).cores 1 with iw := 0 } 0 0xccd =
            some 1) = true := by
    decide +kernel
  obtain ⟨m, reached, facts⟩ := (Option.any_eq_true _ _).mp observed
  obtain ⟨idle, configured, defined, fires, active, gid, csr⟩ := of_decide_eq_true facts
  obtain ⟨m0, isLoaded, launchedOnce⟩ := Option.bind_eq_some_iff.mp reached
  obtain ⟨_, history⟩ := reachable_of_loaded isLoaded
  obtain ⟨pulsed, pulse, ticked⟩ := Option.bind_eq_some_iff.mp launchedOnce
  obtain ⟨ledgers, reachable⟩ := (history.tick _ pulse).idleTicks ticked
  have checked : singleThread.gpuLaunchBlockSize Config.twoCores = some 1 := by decide
  obtain ⟨launched, started, contexts⟩ := Iss.exists_launched
    (LaunchInfo.accepted_of_gpuLaunchBlockSize checked) (Iss.fresh ebreakImage)
  refine ⟨m, ledgers, _, launched, reachable, idle, checked, configured, started,
    LaunchRun.of_launchTicks defined, fun agree => ?_⟩
  have answer := agree 1 (by decide) ⟨0, Nat.zero_lt_one, fires⟩ active 0 0 (by decide)
    (by decide) (by decide)
  have thread := contexts.thread 0 0 (by decide) (by decide)
  simp only [Nat.zero_mul, Nat.add_zero] at answer thread
  rw [csr, gid, show (0 : Word).toNat = 0 from rfl, thread] at answer
  exact absurd answer (by decide)

end Model

end OpenGPU
