import OpenGPU.Dispatch.Completion
import OpenGPU.Verilog.Driver

/-!
# Isolation of launches

The host side of a launch on the hardware model: `configure_model`, `gpu_launch`
and `gpu_wait` of `sw/runtime/gpu/gpu.c`, as far as they touch the driver. A
history beside the state records the configuration and block index with which
every core took its block, and every tick between a launch pulse and the return
of the wait for it.

`gpu_wait` returns while blocks of a faulted launch are still waiting, and the
next launch then writes its configuration into a running dispatcher. A launch
whose pulse meets a GPU that is not busy is isolated from all others.
-/

namespace OpenGPU

namespace Verilog

/-- How a core took its block: the configuration registers and the block index
of that edge. -/
structure AcceptedCta where
  config : KmuConfig
  block : Dim3

/-- The driver's state and, by core, how the block it took last was taken. -/
structure Traced (cfg : Config) where
  rtl : Rtl cfg
  accepted : Nat → Option AcceptedCta

namespace Traced

variable {cfg : Config}

/-- A tick and what it adds to the history. -/
def tick (env : Nat → ReadData) (pins : ReadData → TopInputs) (s : Traced cfg) :
    Traced cfg where
  rtl := s.rtl.tick env pins
  accepted core :=
    if s.rtl.top.accepts core then
      some ⟨s.rtl.top.kmu.toKmuConfig, s.rtl.top.kmu.blockIdx⟩
    else s.accepted core

/-- A tick with nothing asserted. -/
def idleTick (env : Nat → ReadData) (s : Traced cfg) : Traced cfg :=
  s.tick env TopInputs.idle

/-- The tick with the launch pin high. -/
def pulseTick (env : Nat → ReadData) (s : Traced cfg) : Traced cfg :=
  s.tick env TopInputs.launchPulse

/-- `gpu_rtl_dcr_write`. -/
def dcrWrite (env : Nat → ReadData) (addr data : Word) (s : Traced cfg) : Traced cfg :=
  s.tick env (TopInputs.dcrWrite (addr.setWidth 12) data)

/-- `configure_model`. -/
def configureModel (env : Nat → ReadData) (info : KmuConfig) (s : Traced cfg) :
    Traced cfg :=
  s.dcrWrite env 0x010 info.startupPc
    |>.dcrWrite env 0x011 info.argsAddr
    |>.dcrWrite env 0x012 info.argsSize
    |>.dcrWrite env 0x013 info.blockDim.x
    |>.dcrWrite env 0x014 info.blockDim.y
    |>.dcrWrite env 0x015 info.blockDim.z
    |>.dcrWrite env 0x016 info.gridDim.x
    |>.dcrWrite env 0x017 info.gridDim.y
    |>.dcrWrite env 0x018 info.gridDim.z
    |>.dcrWrite env 0x019 info.blockSize

/-- The states after each tick of `gpu_rtl_wait`. -/
def waitStates (env : Nat → ReadData) : Nat → Traced cfg → List (Traced cfg)
  | 0, _ => []
  | maxCycles + 1, s =>
      let next := s.idleTick env
      next ::
        if next.rtl.top.gpuFault || !next.rtl.top.gpuBusy then []
        else waitStates env maxCycles next

/-- A configuration write changes the configuration as `KmuConfig.write` says. -/
theorem dcrWrite_config
    (env : Nat → ReadData)
    (addr data : Word)
    (s : Traced cfg) :
    (s.dcrWrite env addr data).rtl.top.kmu.toKmuConfig =
      s.rtl.top.kmu.toKmuConfig.write (addr.setWidth 12) data :=
  GPUKmu.posedge_toKmuConfig _ _ _ _

/-- The ten writes of `configure_model` set every configuration register. -/
theorem configureModel_config
    (env : Nat → ReadData)
    (info : KmuConfig)
    (s : Traced cfg) :
    (s.configureModel env info).rtl.top.kmu.toKmuConfig = info := by
  simp only [configureModel, dcrWrite_config]
  simp [KmuConfig.write]

end Traced

/-- One launch as the host sees it: its configuration, the state that its pulse
met, and the states after each tick until the wait for it returned. -/
structure Window (cfg : Config) where
  info : KmuConfig
  atPulse : Traced cfg
  states : List (Traced cfg)

/-- The runtime's device, and the launches so far, newest first. -/
structure Host (cfg : Config) where
  state : Traced cfg
  running : Bool
  windows : List (Window cfg)

/-- The calls of the host that reach the hardware. A launch carries the
configuration that `gpu_launch` writes once it has checked the request. -/
inductive HostCall
  | launch (info : KmuConfig)
  | wait

/-- `GPU_WAIT_LIMIT`. -/
def gpuWaitLimit : Nat := 100000000

namespace Host

variable {cfg : Config}

/-- After `rtl_init` and `gpu_rtl_init`. -/
def opened (env : Nat → ReadData) (rtl : Rtl cfg) : Host cfg where
  state := ⟨rtl.gpuRtlInit env, fun _ => none⟩
  running := false
  windows := []

/-- `gpu_launch`; a device that is still running refuses. -/
def gpuLaunch (env : Nat → ReadData) (info : KmuConfig) (host : Host cfg) : Host cfg :=
  if host.running then host
  else
    let configured := host.state.configureModel env info
    let pulsed := configured.pulseTick env
    let started := pulsed.idleTick env
    { state := started
      running := true
      windows := ⟨info, configured, [pulsed, started]⟩ :: host.windows }

/-- `gpu_wait`; a device that is not running refuses. -/
def gpuWait (env : Nat → ReadData) (limit : Nat) (host : Host cfg) : Host cfg :=
  if host.running then
    let waited := host.state.waitStates env limit
    { state := waited.getLast?.getD host.state
      running := false
      windows :=
        match host.windows with
        | newest :: older => { newest with states := newest.states ++ waited } :: older
        | [] => [] }
  else host

/-- One call. -/
def call (env : Nat → ReadData) (limit : Nat) (host : Host cfg) : HostCall → Host cfg
  | .launch info => host.gpuLaunch env info
  | .wait => host.gpuWait env limit

end Host

namespace Window

variable {cfg : Config}

/-- The block index lies in the grid. -/
def InGrid (grid block : Dim3) : Prop :=
  block.x < grid.x ∧ block.y < grid.y ∧ block.z < grid.z

/-- What a core holds was taken with this configuration, and lies in its
grid. -/
structure Belongs (info : KmuConfig) (s : Traced cfg) (core : Nat) : Prop where
  taken : ∃ block, s.accepted core = some ⟨info, block⟩ ∧ InGrid info.gridDim block ∧
    (s.rtl.top.cores core).latched =
      ⟨block, info.blockDim, info.gridDim, info.argsAddr⟩

/-- Throughout the window every core that holds a block holds one of this
launch. -/
def Isolated (window : Window cfg) : Prop :=
  ∀ s ∈ window.states, ∀ core, core < cfg.numCores →
    (s.rtl.top.cores core).ctaActive = true → Belongs window.info s core

/-- What holds after every tick of a window whose pulse met an idle GPU. -/
structure Inside (info : KmuConfig) (s : Traced cfg) : Prop where
  config : s.rtl.top.kmu.toKmuConfig = info
  current : s.rtl.top.kmu.running = true → InGrid info.gridDim s.rtl.top.kmu.blockIdx
  cores : ∀ core, core < cfg.numCores →
    (s.rtl.top.cores core).ctaActive = true → Belongs info s core

/-- The point after `block` stays in the grid unless the walk ends. -/
theorem InGrid.next
    {grid block : Dim3}
    (inGrid : InGrid grid block)
    (goesOn : (Dim3.next grid block).2 = false) :
    InGrid grid (Dim3.next grid block).1 := by
  have inside : block.toPoint.Inside grid.toPoint := ⟨inGrid.1, inGrid.2.1, inGrid.2.2⟩
  rw [Dim3.next_eq inside] at goesOn ⊢
  cases advanced : GridPoint.advance grid.toPoint block.toPoint with
  | none => simp [advanced] at goesOn
  | some point =>
      have nextInside := (GridPoint.advance_eq_some inside advanced).1
      have words := Dim3.toPoint_ofPoint nextInside
      rw [← words] at nextInside
      exact ⟨nextInside.x, nextInside.y, nextInside.z⟩

/-- A tick keeps the window on its launch. -/
theorem Inside.idleTick
    {info : KmuConfig}
    {s : Traced cfg}
    (inside : Inside info s)
    (env : Nat → ReadData) :
    Inside info (s.idleTick env) where
  config := (GPUKmu.posedge_toKmuConfig _ _ _ _).trans inside.config
  current runs := by
    have grid : s.rtl.top.kmu.gridDim = info.gridDim :=
      congrArg KmuConfig.gridDim inside.config
    have stepped : (s.idleTick env).rtl.top.kmu =
        s.rtl.top.kmu.dispatch s.rtl.top.coreReady := rfl
    rw [stepped] at runs ⊢
    rcases GPUKmu.dispatch_cases s.rtl.top.kmu s.rtl.top.coreReady with
      ⟨running, _, result⟩ | ⟨_, kept⟩
    · rw [result, grid] at runs ⊢
      exact (inside.current running).next (by simpa using runs)
    · rw [kept] at runs ⊢
      exact inside.current runs
  cores core inRange active := by
    have after : ((s.idleTick env).rtl.top.cores core).outside = _ :=
      GPUTop.outside_edge s.rtl.top (env s.rtl.cycles) inRange
    by_cases taken : s.rtl.top.accepts core = true
    · rw [if_pos taken] at after
      have running := (GPUTop.accepts_iff.mp taken).1
      have config := inside.config
      refine ⟨s.rtl.top.kmu.blockIdx, ?_, inside.current running, ?_⟩
      · show (if s.rtl.top.accepts core then _ else _) = _
        rw [if_pos taken, config]
      · rw [← config]
        exact congrArg GPUCore.Outside.latched after
    · rw [if_neg taken] at after
      have wasActive : (s.rtl.top.cores core).ctaActive = true ∧
          ((s.idleTick env).rtl.top.cores core).latched =
            (s.rtl.top.cores core).latched := by
        split_ifs at after with faults retires
        · exact absurd (congrArg GPUCore.Outside.ctaActive after) (by simp [GPUCore.outside, active])
        · exact absurd (congrArg GPUCore.Outside.ctaActive after) (by simp [GPUCore.outside, active])
        · exact ⟨(congrArg GPUCore.Outside.ctaActive after).symm.trans active,
            congrArg GPUCore.Outside.latched after⟩
      obtain ⟨block, recorded, inGrid, latched⟩ := (inside.cores core inRange wasActive.1).taken
      refine ⟨block, ?_, inGrid, wasActive.2.trans latched⟩
      show (if s.rtl.top.accepts core then _ else _) = _
      rw [if_neg taken]
      exact recorded

/-- A pulse on a GPU that is not busy starts a window on its launch. -/
theorem inside_pulseTick
    {info : KmuConfig}
    {s : Traced cfg}
    (config : s.rtl.top.kmu.toKmuConfig = info)
    (idle : s.rtl.top.gpuBusy = false)
    (env : Nat → ReadData) :
    Inside info (s.pulseTick env) where
  config := (GPUKmu.posedge_toKmuConfig _ _ _ _).trans config
  current runs := by
    have runs : (s.rtl.top.kmu.blockSize != 0 && s.rtl.top.kmu.gridDim.x != 0 &&
        s.rtl.top.kmu.gridDim.y != 0 && s.rtl.top.kmu.gridDim.z != 0) = true := runs
    rw [congrArg KmuConfig.gridDim config, Bool.and_eq_true, Bool.and_eq_true,
      Bool.and_eq_true, bne_iff_ne, bne_iff_ne, bne_iff_ne, bne_iff_ne] at runs
    exact ⟨Dim3.toNat_pos runs.1.1.2, Dim3.toNat_pos runs.1.2, Dim3.toNat_pos runs.2⟩
  cores core inRange active := by
    have kept := congrArg GPUCore.Outside.ctaActive
      (GPUTop.launch_idle (env s.rtl.cycles) idle inRange)
    have inactive := (GPUTop.gpuBusy_eq_false_iff.mp idle).2 core inRange
    exact absurd active (by
      rw [show ((s.pulseTick env).rtl.top.cores core).ctaActive = _ from kept]
      simp [GPUCore.outside, inactive])

/-- Waiting keeps the window on its launch. -/
theorem Inside.waitStates
    {info : KmuConfig}
    {s : Traced cfg}
    (inside : Inside info s)
    (env : Nat → ReadData)
    (maxCycles : Nat) :
    ∀ later ∈ s.waitStates env maxCycles, Inside info later := by
  induction maxCycles generalizing s with
  | zero => simp [Traced.waitStates]
  | succ maxCycles inductionHypothesis =>
      have ticked := inside.idleTick env
      intro later visited
      simp only [Traced.waitStates, List.mem_cons] at visited
      rcases visited with rfl | visited
      · exact ticked
      · split_ifs at visited
        · exact absurd visited List.not_mem_nil
        · exact inductionHypothesis ticked later visited

end Window

namespace Host

open Window

variable {cfg : Config}

/-- What holds between calls: every window whose pulse met an idle GPU is on its
launch, and while the device runs the newest one is still open. -/
structure Recorded (host : Host cfg) : Prop where
  windows : ∀ window ∈ host.windows, window.atPulse.rtl.top.gpuBusy = false →
    ∀ s ∈ window.states, Inside window.info s
  newest : host.running = true → ∃ window older, host.windows = window :: older ∧
    (window.atPulse.rtl.top.gpuBusy = false → Inside window.info host.state)

/-- `gpu_launch` opens a window. -/
theorem Recorded.gpuLaunch
    {host : Host cfg}
    (recorded : Recorded host)
    (env : Nat → ReadData)
    (info : KmuConfig) :
    Recorded (host.gpuLaunch env info) := by
  unfold Host.gpuLaunch
  by_cases running : host.running = true
  · rw [if_pos running]
    exact recorded
  · rw [if_neg running]
    have pulsed : (host.state.configureModel env info).rtl.top.gpuBusy = false →
        Inside info ((host.state.configureModel env info).pulseTick env) := fun idle =>
      inside_pulseTick (Traced.configureModel_config env info host.state) idle env
    constructor
    · intro window listed idle s visited
      rcases List.mem_cons.mp listed with rfl | older
      · simp only [List.mem_cons, List.not_mem_nil, or_false] at visited
        rcases visited with rfl | rfl
        · exact pulsed idle
        · exact (pulsed idle).idleTick env
      · exact recorded.windows window older idle s visited
    · intro _
      exact ⟨_, _, rfl, fun idle => (pulsed idle).idleTick env⟩

/-- `gpu_wait` closes it. -/
theorem Recorded.gpuWait
    {host : Host cfg}
    (recorded : Recorded host)
    (env : Nat → ReadData)
    (limit : Nat) :
    Recorded (host.gpuWait env limit) := by
  unfold Host.gpuWait
  by_cases running : host.running = true
  · rw [if_pos running]
    obtain ⟨newest, older, shape, open'⟩ := recorded.newest running
    refine ⟨?_, fun stillRunning => Bool.noConfusion stillRunning⟩
    intro window listed idle s visited
    simp only [shape, List.mem_cons] at listed
    rcases listed with rfl | listed
    · rcases List.mem_append.mp visited with before | waited
      · exact recorded.windows newest (by rw [shape]; exact List.mem_cons_self) idle s before
      · exact (open' idle).waitStates env limit s waited
    · exact recorded.windows window (by rw [shape]; exact List.mem_cons_of_mem _ listed)
        idle s visited
  · rw [if_neg running]
    exact recorded

/-- Every history of calls keeps the record. -/
theorem recorded_calls
    (env : Nat → ReadData)
    (limit : Nat)
    (rtl : Rtl cfg)
    (calls : List HostCall) :
    Recorded (calls.foldl (Host.call env limit) (opened env rtl)) := by
  have start : Recorded (opened env rtl) :=
    ⟨fun window listed => absurd listed List.not_mem_nil,
      fun running => Bool.noConfusion running⟩
  generalize opened env rtl = host at start
  induction calls generalizing host with
  | nil => exact start
  | cons head tail inductionHypothesis =>
      cases head with
      | launch info => exact inductionHypothesis _ (start.gpuLaunch env info)
      | wait => exact inductionHypothesis _ (start.gpuWait env limit)

/-- In every history of `gpu_launch` and `gpu_wait` calls, each launch whose pulse
meets a GPU that is not busy is isolated: every block that a core takes or still
executes until the wait for it returns is a block of that launch. -/
theorem launches_isolated
    (env : Nat → ReadData)
    (limit : Nat)
    (rtl : Rtl cfg)
    (calls : List HostCall) :
    ∀ window ∈ (calls.foldl (Host.call env limit) (opened env rtl)).windows,
      window.atPulse.rtl.top.gpuBusy = false → window.Isolated :=
  fun window listed idle s visited core inRange active =>
    ((recorded_calls env limit rtl calls).windows window listed idle s visited).cores
      core inRange active

/-- A launch of one-thread blocks from the kernel base. -/
def lineLaunch (blocks : Word) : HostCall :=
  .launch
    { startupPc := 0x81000000
      argsAddr := 0
      argsSize := 0
      blockDim := ⟨1, 1, 1⟩
      gridDim := ⟨blocks, 1, 1⟩
      blockSize := 1 }

/-- Every fetch returns this word. -/
def repeated (word : Word) (_ : Nat) : ReadData := ⟨fun _ => word, fun _ => 0⟩

/-- Every fetch returns an illegal word. -/
def illegalKernel : Nat → ReadData := repeated 0xffffffff

/-- Three blocks on two cores, waited for, and then two blocks. -/
def inTurn : Host Config.twoCores :=
  [lineLaunch 3, .wait, lineLaunch 2, .wait].foldl
    (Host.call (repeated Decode.ebreak) gpuWaitLimit)
    (opened (repeated Decode.ebreak) (Rtl.powerOn Config.twoCores))

/-- The blocks end, so both launches meet an idle GPU, and both are isolated: while both cores
execute, what they hold belongs to the launch that is waited for. -/
theorem launches_isolated_inTurn :
    inTurn.windows.map (fun window => window.info.gridDim) = [⟨2, 1, 1⟩, ⟨3, 1, 1⟩] ∧
      ∀ window ∈ inTurn.windows,
        window.atPulse.rtl.top.gpuBusy = false ∧ window.Isolated ∧
          ∃ s ∈ window.states, ∀ core, core < 2 →
            (s.rtl.top.cores core).ctaActive = true ∧ Window.Belongs window.info s core := by
  have observed : (inTurn.windows.map fun window => window.info.gridDim) =
        [⟨2, 1, 1⟩, ⟨3, 1, 1⟩] ∧
      ∀ window ∈ inTurn.windows, window.atPulse.rtl.top.gpuBusy = false ∧
        ∃ s ∈ window.states, ∀ core, core < 2 → (s.rtl.top.cores core).ctaActive = true := by
    decide +kernel
  refine ⟨observed.1, fun window listed => ?_⟩
  obtain ⟨idle, s, visited, active⟩ := observed.2 window listed
  have isolated := launches_isolated _ _ _ _ window listed idle
  refine ⟨idle, isolated, s, visited, fun core inRange => ?_⟩
  exact ⟨active core inRange, isolated s visited core inRange (active core inRange)⟩

/-- Four blocks whose kernel is illegal, then one block. -/
def relaunch : Host Config.oneLane :=
  [lineLaunch 4, .wait, lineLaunch 1, .wait].foldl (Host.call illegalKernel gpuWaitLimit)
    (opened illegalKernel (Rtl.powerOn Config.oneLane))

/-- The first wait returns when the first block faults; right after the second
pulse the core still executes the last block of the first launch, whose index is
outside the second grid. -/
theorem not_isolated_relaunch :
    ∃ window ∈ relaunch.windows, window.info.gridDim = ⟨1, 1, 1⟩ ∧ ¬window.Isolated := by
  have leaked : relaunch.windows.head?.map (fun window =>
      (window.info.gridDim, window.states.head?.map fun s =>
        ((s.rtl.top.cores 0).ctaActive, (s.accepted 0).map AcceptedCta.block))) =
      some (⟨1, 1, 1⟩, some (true, some ⟨3, 0, 0⟩)) := by decide +kernel
  obtain ⟨window, newest, seen⟩ := Option.map_eq_some_iff.mp leaked
  rw [Prod.mk.injEq, Option.map_eq_some_iff] at seen
  obtain ⟨grid, s, first, seen⟩ := seen
  rw [Prod.mk.injEq, Option.map_eq_some_iff] at seen
  obtain ⟨active, cta, recorded, block⟩ := seen
  refine ⟨window, List.mem_of_head? newest, grid, ?_⟩
  intro isolated
  obtain ⟨taken, same, inGrid, _⟩ :=
    (isolated s (List.mem_of_head? first) 0 (by decide) active).taken
  rw [recorded] at same
  obtain rfl := Option.some.inj same
  rw [grid, show taken = ⟨3, 0, 0⟩ from block] at inGrid
  exact absurd inGrid.1 (by decide)

end Host

end Verilog

end OpenGPU
