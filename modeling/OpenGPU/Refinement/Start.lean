import OpenGPU.Cycle.CoreAlone
import OpenGPU.Refinement.Finish

/-!
# The start of a launch

What the host does with the cycle model before it pulses the launch input: the reset, the
ten configuration writes and the copy of the memory. Every tick up to there leaves the
dispatcher and the cores at rest, as the reset and every launch that ends do.
-/

namespace OpenGPU

/-- A core that waits without a block and without a fault. -/
structure Core.Resting (c : Core) : Prop where
  inactive : c.ctaActive = false
  state : c.state = .sched
  noFault : c.fault = false

theorem Core.resting_fresh : Core.fresh.Resting := ⟨rfl, rfl, rfl⟩

/-- The reset input. -/
def Inputs.resetPulse : Inputs := ⟨true, false, 0, 0, false⟩

namespace Model

/-- `gpu_model_init` on the cycle model: `rtl_init` resets it, and `gpu_rtl_init` ticks
once more. -/
def gpuModelInit (cfg : Config) : Option Model :=
  (cycleDiffInit cfg).bind fun m => (m.tick cfg .resetPulse).bind (tick cfg .idle)

/-- `configure_model` on the cycle model. -/
def configureModel (cfg : Config) (writes : List (Word × Word)) (m : Model) : Option Model :=
  writes.foldlM (fun m write => m.tick cfg (.dcrWrite write.1 write.2)) m

/-- The model at the launch pulse of `gpu_model_launch`. -/
def beforeLaunch (cfg : Config) (info : LaunchInfo) (blockSize : Word) (pmem : Pmem) :
    Option Model :=
  (gpuModelInit cfg).bind fun m =>
    (m.configureModel cfg (info.configurationWrites blockSize)).map (cycleDiffBegin cfg pmem)

/-- A launch of the cycle model comes to its end: it is busy up to some tick, no core faults
on the way, and then it is not busy and its memory is `final`. -/
def Reaches (cfg : Config) (info : LaunchInfo) (blockSize : Word) (pmem final : Pmem) : Prop :=
  ∃ m run bound, beforeLaunch cfg info blockSize pmem = some m ∧ LaunchRun cfg m bound run ∧
    (∀ time, time < bound → (run time).topBusy cfg = true) ∧
    (∀ time, time ≤ bound → (run time).topFault cfg = false) ∧
    (run bound).topBusy cfg = false ∧ (run bound).mem.bytes = final

/-- No blocks are left, and the cores wait without a block and without a fault. -/
structure AtRest (cfg : Config) (largest : Nat) (m : Model) : Prop where
  reached : HostRun cfg largest m
  walk : m.walk.running = false
  cores : ∀ i, i < cfg.numCores → (m.cores i).Resting

section AtRest

variable {cfg : Config} {largest : Nat} {m next : Model} {inputs : Inputs}

/-- No core takes a block. -/
theorem AtRest.noFire
    (rest : AtRest cfg largest m) :
    m.firing cfg = none :=
  firing_eq_none rest.walk

/-- The host may do anything but launch. -/
theorem AtRest.allowed
    (rest : AtRest cfg largest m)
    (noLaunch : inputs.launch = false) :
    Allowed cfg largest inputs m := by
  refine ⟨fun _ left => Bool.noConfusion (rest.walk.symm.trans left), fun launch => ?_⟩
  rw [noLaunch] at launch
  exact Bool.noConfusion launch

/-- Cores without a block store nothing. -/
theorem clock_mem_of_inactive
    (inactive : ∀ core, core < cfg.numCores → (m.cores core).ctaActive = false) :
    ((cycleDiffSetInputs inputs m).clock cfg).mem = m.mem := by
  have captured : ((List.range cfg.numCores).filterMap fun core =>
      captureStore cfg (m.cores core)) = [] := by
    rw [List.filterMap_eq_nil_iff]
    intro core member
    simp [captureStore, inactive core (List.mem_range.mp member)]
  show (m.expectedStores cfg).foldl (storeRef cfg) m.mem = m.mem
  rw [expectedStores, captured, List.mergeSort_nil, List.foldl_nil]

theorem tick_mem_of_inactive
    (inactive : ∀ core, core < cfg.numCores → (m.cores core).ctaActive = false)
    (running : inputs.reset = false)
    (defined : m.tick cfg inputs = some next) :
    next.mem = m.mem := by
  rcases tick_eq_some defined with ⟨reset, _⟩ | ⟨_, result, _⟩
  · exact Bool.noConfusion (running.symm.trans reset)
  · rw [result]
    exact clock_mem_of_inactive inactive

/-- Cores without a block do nothing. -/
theorem AtRest.clock
    (rest : AtRest cfg largest m) :
    ((cycleDiffSetInputs inputs m).clock cfg).cores = m.cores ∧
      ((cycleDiffSetInputs inputs m).clock cfg).mem = m.mem := by
  refine ⟨?_, clock_mem_of_inactive fun core inRange => (rest.cores core inRange).inactive⟩
  funext core
  show (if core < cfg.numCores then (m.cores core).stepCore cfg m.mem m.launchRegisters core
    (m.firing cfg == some core) else m.cores core) = m.cores core
  split_ifs with inRange
  · simp [rest.noFire, Core.stepCore, (rest.cores core inRange).inactive]
  · rfl

/-- A tick without a reset and without a launch only writes the configuration. -/
theorem AtRest.tick
    (rest : AtRest cfg largest m)
    (running : inputs.reset = false)
    (noLaunch : inputs.launch = false)
    (defined : m.tick cfg inputs = some next) :
    AtRest cfg largest next ∧ next.dcr = (cycleDiffSetInputs inputs m).dcrNext := by
  have reached := rest.reached.tick inputs (rest.allowed noLaunch) defined
  rcases tick_eq_some defined with ⟨reset, _⟩ | ⟨_, result, _⟩
  · exact Bool.noConfusion (running.symm.trans reset)
  · refine ⟨⟨reached, ?_, ?_⟩, ?_⟩
    · rw [result]
      show (m.walk.step cfg.numCores inputs.launch _ (m.firing cfg)).running = _
      rw [noLaunch, rest.noFire]
      exact rest.walk
    · rw [result]
      intro i inRange
      show (((cycleDiffSetInputs inputs m).clock cfg).cores i).Resting
      rw [rest.clock.1]
      exact rest.cores i inRange
    · rw [result]
      rfl

/-- A reset keeps a model at rest. -/
theorem AtRest.reset
    (rest : AtRest cfg largest m)
    (defined : m.tick cfg .resetPulse = some next) :
    AtRest cfg largest next := by
  have reached := rest.reached.tick .resetPulse (rest.allowed rfl) defined
  rcases tick_eq_some defined with ⟨_, result⟩ | ⟨running, _⟩
  · refine ⟨reached, ?_, ?_⟩ <;> rw [result]
    · rfl
    · exact fun _ _ => Core.resting_fresh
  · exact Bool.noConfusion running

/-- So do the configuration writes, which leave their registers. -/
theorem AtRest.configureModel
    {writes : List (Word × Word)}
    (rest : AtRest cfg largest m)
    (defined : m.configureModel cfg writes = some next) :
    AtRest cfg largest next ∧
      next.dcr = writes.foldl (fun dcr write => dcr.write write.1 write.2) m.dcr := by
  induction writes generalizing m with
  | nil =>
      obtain rfl := Option.some.inj defined
      exact ⟨rest, rfl⟩
  | cons write writes inductionHypothesis =>
      obtain ⟨between, wrote, later⟩ := Option.bind_eq_some_iff.mp defined
      obtain ⟨restBetween, dcr⟩ := rest.tick rfl rfl wrote
      obtain ⟨restNext, dcrs⟩ := inductionHypothesis restBetween later
      refine ⟨restNext, ?_⟩
      rw [dcrs, dcr]
      rfl

/-- Power-up leaves the model at rest. -/
theorem atRest_of_cycleDiffInit
    (started : cycleDiffInit cfg = some m) :
    AtRest cfg largest m := by
  refine ⟨.init started, ?_, ?_⟩ <;> rw [(pack_eq_some started).1]
  · rfl
  · exact fun _ _ => Core.resting_fresh

/-- So does `gpu_model_init`. -/
theorem atRest_of_gpuModelInit
    (inited : gpuModelInit cfg = some m) :
    AtRest cfg largest m := by
  obtain ⟨powered, started, ticks⟩ := Option.bind_eq_some_iff.mp inited
  obtain ⟨cleared, reset, idle⟩ := Option.bind_eq_some_iff.mp ticks
  exact (((atRest_of_cycleDiffInit started).reset reset).tick rfl rfl idle).1

/-- The model that the host launches on. -/
theorem AtRest.configured
    {info : LaunchInfo}
    {blockSize : Word}
    (rest : AtRest cfg largest m)
    (wrote : m.configureModel cfg (info.configurationWrites blockSize) = some next)
    (pmem : Pmem) :
    AtRest cfg largest (cycleDiffBegin cfg pmem next) ∧
      (cycleDiffBegin cfg pmem next).dcr = info.registers blockSize ∧
        (cycleDiffBegin cfg pmem next).mem = ShadowMemory.of cfg pmem := by
  obtain ⟨atEnd, dcr⟩ := rest.configureModel wrote
  refine ⟨⟨.load pmem atEnd.reached, atEnd.walk, atEnd.cores⟩, ?_, rfl⟩
  exact dcr.trans (info.registers_eq blockSize _)

theorem atRest_of_beforeLaunch
    {info : LaunchInfo}
    {blockSize : Word}
    {pmem : Pmem}
    (prepared : beforeLaunch cfg info blockSize pmem = some m) :
    AtRest cfg largest m ∧ m.dcr = info.registers blockSize ∧
      m.mem = ShadowMemory.of cfg pmem := by
  obtain ⟨initial, inited, rest⟩ := Option.bind_eq_some_iff.mp prepared
  obtain ⟨configured, wrote, rfl⟩ := Option.map_eq_some_iff.mp rest
  exact (atRest_of_gpuModelInit inited).configured wrote pmem

/-! ## Sets that fit in a word -/

/-- A tick without a reset is defined. -/
theorem AtRest.exists_tick
    (rest : AtRest cfg largest m)
    (faithful : FaithfulSets cfg largest)
    (running : inputs.reset = false)
    (allowed : Allowed cfg largest inputs m) :
    ∃ next, m.tick cfg inputs = some next := by
  refine Model.exists_tick running faithful.numCores_le
    (faithful.step m rest.reached inputs allowed).defined ?_
  rw [rest.noFire]
  exact fun fires => Bool.noConfusion fires

/-- So is a reset. -/
theorem AtRest.exists_reset
    (rest : AtRest cfg largest m)
    (faithful : FaithfulSets cfg largest) :
    ∃ next, m.tick cfg .resetPulse = some next := by
  have shifts := (faithful.step m rest.reached .resetPulse (rest.allowed rfl)).defined
  rw [stepShifts, if_pos (show (cycleDiffSetInputs .resetPulse m).inputs.reset = true from rfl)]
    at shifts
  rw [Model.tick, cycleDiffStep,
    if_pos (show (cycleDiffSetInputs .resetPulse m).inputs.reset = true from rfl), pack,
    if_pos (packDefined_of_lt faithful.numCores_le shifts)]
  exact ⟨_, rfl⟩

/-- All configuration writes are. -/
theorem AtRest.exists_configureModel
    (rest : AtRest cfg largest m)
    (faithful : FaithfulSets cfg largest)
    (writes : List (Word × Word)) :
    ∃ next, m.configureModel cfg writes = some next := by
  induction writes generalizing m with
  | nil => exact ⟨m, rfl⟩
  | cons write writes inductionHypothesis =>
      obtain ⟨between, wrote⟩ := @AtRest.exists_tick _ _ _ (.dcrWrite write.1 write.2) rest
        faithful rfl (rest.allowed rfl)
      obtain ⟨next, later⟩ := inductionHypothesis (rest.tick rfl rfl wrote).1
      exact ⟨next, Option.bind_eq_some_iff.mpr ⟨between, wrote, later⟩⟩

/-- The host comes as far as the configuration. -/
theorem FaithfulSets.exists_gpuModelInit
    (faithful : FaithfulSets cfg largest) :
    ∃ m, gpuModelInit cfg = some m := by
  obtain ⟨powered, started⟩ : ∃ m, cycleDiffInit cfg = some m := by
    rw [cycleDiffInit, pack, if_pos (packDefined_of_lt faithful.numCores_le faithful.init.defined)]
    exact ⟨_, rfl⟩
  have atPower : AtRest cfg largest powered := atRest_of_cycleDiffInit started
  obtain ⟨cleared, reset⟩ := atPower.exists_reset faithful
  have atReset := atPower.reset reset
  obtain ⟨initial, idle⟩ := @AtRest.exists_tick _ _ _ .idle atReset faithful rfl
    (atReset.allowed rfl)
  refine ⟨initial, Option.bind_eq_some_iff.mpr ⟨powered, started, ?_⟩⟩
  exact Option.bind_eq_some_iff.mpr ⟨cleared, reset, idle⟩

/-- It comes as far as the launch. -/
theorem FaithfulSets.exists_beforeLaunch
    (faithful : FaithfulSets cfg largest)
    (info : LaunchInfo)
    (blockSize : Word)
    (pmem : Pmem) :
    ∃ m, beforeLaunch cfg info blockSize pmem = some m := by
  obtain ⟨initial, inited⟩ := faithful.exists_gpuModelInit
  obtain ⟨configured, wrote⟩ := (atRest_of_gpuModelInit inited).exists_configureModel faithful
    (info.configurationWrites blockSize)
  refine ⟨cycleDiffBegin cfg pmem configured, Option.bind_eq_some_iff.mpr ⟨initial, inited, ?_⟩⟩
  exact Option.map_eq_some_iff.mpr ⟨configured, wrote, rfl⟩

end AtRest

end Model

end OpenGPU
