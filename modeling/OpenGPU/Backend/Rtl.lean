import OpenGPU.Backend.Netlist
import OpenGPU.Cycle.Model

/-!
# The RTL driver in every build

`sw/sim/hm/rtl.cpp` over an arbitrary netlist, with the part of
`sw/sim/hm/difftest.cpp` that compares: in DiffTest every tick takes the stores
that the netlist has reported, steps the cycle model, and compares stores, state
words and the bytes just stored. Wave dumps and messages are left out, and so is
`m.failed`, which nothing reads.
-/

namespace OpenGPU

/-- The static variables of `rtl.cpp`, `dpi.cpp` and `difftest.cpp`. -/
structure RtlSim (V : VGPUTop) where
  top : V.State
  pins : TopPins
  dpi : DpiState
  diffFailed : Bool
  model : Model
  actual : List Store

namespace RtlSim

variable {V : VGPUTop} (cfg : Config) (build : Build)

/-- `top->eval()` with the clock at the given level. -/
def evalTop (clock : Bool) (sim : RtlSim V) : PmemAction (RtlSim V) := do
  let result ← (V.eval sim.pins clock sim.top).perform cfg build sim.dpi
  pure { sim with top := result.1, dpi := result.2 }

/-! ## The comparison -/

/-- `cycle_diff_observe_store`. -/
def cycleDiffObserveStore (store : Store) (sim : RtlSim V) : RtlSim V :=
  if sim.model.active then
    { sim with
      actual :=
        sim.actual ++ [{ store with data := if store.mask = 0 then 0 else store.data }] }
  else sim

/-- The store that the state words of a core report. -/
def reportedStore (sim : RtlSim V) (core : Nat) : Store :=
  let base := 23 + core * diffCoreWords cfg
  { addr := sim.dpi.diffState (base + 25)
    data := sim.dpi.diffState (base + 26)
    mask := (sim.dpi.diffState (base + 24)).setWidth 8 }

/-- The body of the loop over the cores in `tick`. -/
def takeStore (sim : RtlSim V) (core : Nat) : PmemAction (RtlSim V) :=
  if sim.dpi.diffState (23 + core * diffCoreWords cfg + 23) ≠ 0 then do
    let store := sim.reportedStore cfg core
    PmemAction.dpiPaddrWrite cfg store.addr store.mask store.data
    pure (sim.cycleDiffObserveStore store)
  else pure sim

/-- `cycle_diff_set_inputs` and `cycle_diff_step`. -/
def cycleDiffStep (sim : RtlSim V) : PmemAction (RtlSim V) := do
  let model ← .ofOption (sim.model.tick cfg
    ⟨sim.pins.reset, sim.pins.dcrValid, sim.pins.dcrAddr, sim.pins.dcrData, sim.pins.launch⟩)
  pure { sim with model := model, actual := if sim.pins.reset then [] else sim.actual }

/-- The DiffTest half of `tick` before the rising edge. -/
def beforeEdge (sim : RtlSim V) : PmemAction (RtlSim V) := do
  let sim ← (List.range cfg.numCores).foldlM (takeStore cfg) sim
  sim.cycleDiffStep cfg

/-- `cycle_diff_check_stores`. -/
def cycleDiffCheckStores (sim : RtlSim V) : Bool :=
  sim.actual.mergeSort (fun a b => !b.lt a) == sim.model.expected

/-- The loop over `cycle_diff_state`. -/
def sameWords (sim : RtlSim V) : Bool :=
  (List.range (Model.words cfg)).all fun word =>
    sim.model.packed word == sim.dpi.diffState word

/-- What `store_ref` appends to `m.dirty`, as guest addresses. -/
def dirtyBytes (sim : RtlSim V) : List Word :=
  sim.model.expected.flatMap fun store =>
    (List.range 4).filterMap fun byte =>
      if hasLane store.mask byte then
        let a := store.addr.toNat + byte
        if a < cfg.mbase.toNat ∨ cfg.mbase.toNat + sim.model.mem.size ≤ a then none
        else some (BitVec.ofNat 32 a)
      else none

/-- Compare some bytes of physical memory with the shadow memory. -/
def sameBytes (sim : RtlSim V) (bytes : List Word) : PmemAction Bool :=
  .look { a | a ∈ bytes } (fun pmem => some (bytes.all fun a => pmem a == sim.model.mem.bytes a))
    fun pmem other same => by
      congr 1
      rw [Bool.eq_iff_iff, List.all_eq_true, List.all_eq_true]
      exact forall₂_congr fun a member => by rw [same member]

/-- The guest addresses of the window of physical memory. -/
def window : List Word :=
  (List.range cfg.msize.toNat).map fun i => cfg.mbase + BitVec.ofNat 32 i

/-- `cycle_diff_check_memory`. -/
def cycleDiffCheckMemory (full : Bool) (sim : RtlSim V) : PmemAction Bool :=
  if !sim.model.active then pure true
  else if cfg.msize.toNat ≠ sim.model.mem.size then pure false
  else sim.sameBytes (if full then window cfg else sim.dirtyBytes cfg)

/-- The DiffTest half of `tick` after the rising edge. -/
def afterEdge (sim : RtlSim V) : PmemAction (RtlSim V) := do
  let differs := sim.diffFailed || sim.dpi.diffFailed || !sim.cycleDiffCheckStores ||
    !sim.sameWords cfg
  let same ← (if differs then pure false else sim.cycleDiffCheckMemory cfg false)
  pure { sim with diffFailed := !same, actual := [] }

/-! ## The driver -/

/-- `tick`. -/
def tick (sim : RtlSim V) : PmemAction (RtlSim V) := do
  let sim ← sim.evalTop cfg build false
  let sim ← (if build.diffTest then sim.beforeEdge cfg else pure sim)
  let sim ← sim.evalTop cfg build true
  if build.diffTest then do
    let sim ← sim.evalTop cfg build true
    sim.afterEdge cfg
  else pure sim

/-- `tick` with other pins. -/
def tickWith (pins : TopPins) (sim : RtlSim V) : PmemAction (RtlSim V) :=
  { sim with pins := pins }.tick cfg build

/-- `reset`. -/
def reset (sim : RtlSim V) : PmemAction (RtlSim V) := do
  let sim ← sim.tickWith cfg build { sim.pins with reset := true }
  pure { sim with pins := { sim.pins with reset := false } }

/-- The variables before `rtl_init`. -/
def created : RtlSim V where
  top := V.create
  pins := ⟨false, false, 0, 0, false⟩
  dpi := DpiState.dpiDiffReset
  diffFailed := false
  model := Model.fresh
  actual := []

/-- `rtl_init` and `gpu_rtl_init`, in a new process. -/
def gpuRtlInit : PmemAction (RtlSim V) := do
  let model ← (if build.diffTest then .ofOption (Model.cycleDiffInit cfg) else pure Model.fresh)
  let sim ← ({ created with model := model } : RtlSim V).reset cfg build
  let seen := !build.diffTest || sim.dpi.diffStateSeen
  ({ sim with diffFailed := sim.diffFailed || !seen } : RtlSim V).tick cfg build

/-- `gpu_rtl_dcr_write`. -/
def gpuRtlDcrWrite (addr data : Word) (sim : RtlSim V) : PmemAction (RtlSim V) := do
  let sim ← sim.tickWith cfg build
    { sim.pins with dcrAddr := addr, dcrData := data, dcrValid := true }
  pure { sim with pins := { sim.pins with dcrValid := false } }

/-- `cycle_diff_begin` on physical memory. -/
def cycleDiffBegin (sim : RtlSim V) : PmemAction (RtlSim V) :=
  .look Set.univ
    (fun pmem => some { sim with model := Model.cycleDiffBegin cfg pmem sim.model })
    fun pmem other same => by
      rw [show other = pmem from funext fun a => same (Set.mem_univ a)]

/-- `gpu_rtl_launch`. -/
def gpuRtlLaunch (sim : RtlSim V) : PmemAction (RtlSim V) := do
  let sim ← (if build.diffTest then sim.cycleDiffBegin cfg else pure sim)
  let sim ← sim.tickWith cfg build { sim.pins with launch := true }
  sim.tickWith cfg build { sim.pins with launch := false }

/-- `gpu_rtl_fault`. -/
def gpuRtlFault (sim : RtlSim V) : Bool := V.gpuFault sim.top || sim.diffFailed

/-- How the loop of `gpu_rtl_wait` ends: by a fault or a mismatch, because the GPU
is no longer busy, or after the last cycle. -/
inductive Stop
  | fault
  | rest
  | limit
  deriving DecidableEq

/-- The body of the loop of `gpu_rtl_wait`. -/
def waitCycle (sim : RtlSim V) : PmemAction ((Stop × RtlSim V) ⊕ RtlSim V) := do
  let sim ← sim.tick cfg build
  if sim.gpuRtlFault then pure (.inl (.fault, sim))
  else if !V.gpuBusy sim.top then pure (.inl (.rest, sim))
  else pure (.inr sim)

/-- The loop of `gpu_rtl_wait`. -/
def waitCycles (maxCycles : Nat) (sim : RtlSim V) : PmemAction (Stop × RtlSim V) :=
  .loop (waitCycle cfg build) (fun sim => (.limit, sim)) maxCycles sim

/-- `gpu_rtl_wait`. -/
def gpuRtlWait (maxCycles : Nat) (sim : RtlSim V) : PmemAction (Bool × RtlSim V) := do
  let result ← sim.waitCycles cfg build maxCycles
  let sim := result.2
  match result.1 with
  | .fault => pure (false, sim)
  | .limit => pure (!V.gpuBusy sim.top && !V.gpuFault sim.top, sim)
  | .rest =>
      if build.diffTest then do
        let same ← sim.cycleDiffCheckMemory cfg true
        pure (same, { sim with diffFailed := sim.diffFailed || !same })
      else pure (true, sim)

end RtlSim

end OpenGPU
