import OpenGPU.Platform.PmemAction

/-!
# The simulated netlist and its foreign functions

`VGPUTop` is generated from one of the RTL backends by the build. Whatever an
evaluation of it does outside goes through the functions of `sw/sim/hm/dpi.cpp`,
so an evaluation is a tree of their calls that ends in the next state of the
netlist. The trace functions only print and are left out.
-/

namespace OpenGPU

/-- The builds of the runtime: `CONFIG_HM` and `CONFIG_DIFFTEST`. -/
inductive Build
  | softwareModel
  | hardwareModel
  | hardwareDiffTest
  deriving DecidableEq

/-- `CONFIG_HM` and `CONFIG_DIFFTEST` are both defined. -/
def Build.diffTest : Build → Bool
  | .hardwareDiffTest => true
  | _ => false

/-- The pins that `rtl.cpp` drives, apart from the clock. -/
structure TopPins where
  reset : Bool
  dcrValid : Bool
  dcrAddr : Word
  dcrData : Word
  launch : Bool

/-- The foreign calls of one evaluation, with what the netlist makes of their
answers. -/
inductive DpiCalls (State : Type)
  | done (state : State)
  | paddrRead (addr : Word) (next : Word → DpiCalls State)
  | paddrWrite (addr : Word) (mask : Byte) (data : Word) (next : DpiCalls State)
  | diffState (base : Int) (words : List Word) (next : DpiCalls State)

/-- `VGPUTop`: a new instance, `eval` for the pins and the clock, and the outputs
that `rtl.cpp` reads. -/
structure VGPUTop where
  State : Type
  create : State
  eval : TopPins → Bool → State → DpiCalls State
  gpuBusy : State → Bool
  gpuFault : State → Bool

/-- `DIFF_CORE_WORDS`. -/
def diffCoreWords (cfg : Config) : Nat := 28 + 20 * cfg.numWarps + 20 * cfg.contexts

/-- `DIFF_STATE_WORDS`. -/
def diffStateWords (cfg : Config) : Nat := 23 + cfg.numCores * diffCoreWords cfg

/-- The static variables of `dpi.cpp`. -/
structure DpiState where
  diffState : Nat → Word
  diffStateValid : Nat → Bool
  diffStateSeen : Bool
  diffFailed : Bool

namespace DpiState

/-- `dpi_diff_reset`. -/
def dpiDiffReset : DpiState where
  diffState := fun _ => 0
  diffStateValid := fun _ => false
  diffStateSeen := false
  diffFailed := false

/-- `gpu_diff_state`, for an array whose elements can all be read. -/
def gpuDiffState (cfg : Config) (base : Int) (words : List Word) (dpi : DpiState) : DpiState :=
  if base < 0 ∨ diffStateWords cfg < base.toNat then { dpi with diffFailed := true }
  else if diffStateWords cfg - base.toNat < words.length then { dpi with diffFailed := true }
  else
    let covers (word : Nat) := decide (base.toNat ≤ word ∧ word < base.toNat + words.length)
    let valid (word : Nat) := covers word || dpi.diffStateValid word
    { dpi with
      diffState := fun word =>
        if covers word then words.getD (word - base.toNat) 0 else dpi.diffState word
      diffStateValid := valid
      diffStateSeen := (List.range (diffStateWords cfg)).all valid }

end DpiState

/-- Make the calls of an evaluation. A store goes to memory only outside
DiffTest, and a snapshot is kept only in it. -/
def DpiCalls.perform {State : Type} (cfg : Config) (build : Build) :
    DpiCalls State → DpiState → PmemAction (State × DpiState)
  | .done state, dpi => pure (state, dpi)
  | .paddrRead addr next, dpi => do
      let data ← PmemAction.dpiPaddrRead cfg addr
      (next data).perform cfg build dpi
  | .paddrWrite addr mask data next, dpi => do
      (if build.diffTest then pure () else PmemAction.dpiPaddrWrite cfg addr mask data)
      next.perform cfg build dpi
  | .diffState base words next, dpi =>
      next.perform cfg build (if build.diffTest then dpi.gpuDiffState cfg base words else dpi)

/-- In DiffTest an evaluation writes nothing. -/
theorem DpiCalls.perform_diffTest
    {State : Type}
    {cfg : Config}
    {build : Build}
    (diffTest : build.diffTest = true)
    {calls : DpiCalls State}
    {dpi : DpiState}
    {pmem after : Pmem}
    {result : State × DpiState}
    (performed : (calls.perform cfg build dpi).run pmem = some (result, after)) :
    after = pmem := by
  induction calls generalizing dpi pmem with
  | done state =>
      cases performed
      rfl
  | paddrRead addr next inductionHypothesis =>
      obtain ⟨data, middle, read, rest⟩ := LocalAction.run_bind_eq_some performed
      rw [PmemAction.run_dpiPaddrRead] at read
      obtain ⟨_, _, same⟩ := Option.map_eq_some_iff.mp read
      cases same
      exact inductionHypothesis data rest
  | paddrWrite addr mask data next inductionHypothesis =>
      rw [DpiCalls.perform, if_pos diffTest] at performed
      exact inductionHypothesis performed
  | diffState base words next inductionHypothesis => exact inductionHypothesis performed

end OpenGPU
