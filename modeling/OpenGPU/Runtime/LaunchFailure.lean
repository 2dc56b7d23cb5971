import OpenGPU.Backend.VerilogNetlist
import OpenGPU.Runtime.LaunchStates

/-!
# What a failed launch leaves

Every exit of `gpu_launch` gives the argument buffer back, and the buffer lies apart
from everything that the host can see. The software model and the RTL without
DiffTest store nothing before the last exit. In DiffTest the configuration writes
clock the RTL, and the reference run works on physical memory itself; only a
reference run that ends restores the memory, so two late exits are left.
-/

namespace OpenGPU

/-- The bytes of an access that does not wrap. -/
theorem mem_accessBytes_iff
    {addr a : Word}
    {length : Nat}
    (fits : addr.toNat + length ≤ 2 ^ 32) :
    a ∈ accessBytes addr length ↔ addr.toNat ≤ a.toNat ∧ a.toNat < addr.toNat + length := by
  have bound := a.isLt
  have start := addr.isLt
  show (a - addr).toNat < length ↔ _
  rw [BitVec.toNat_sub]
  by_cases above : addr.toNat ≤ a.toNat
  · rw [show 2 ^ 32 - addr.toNat + a.toNat = (a.toNat - addr.toNat) + 2 ^ 32 by omega,
      Nat.add_mod_right, Nat.mod_eq_of_lt (by omega)]
    omega
  · rw [Nat.mod_eq_of_lt (by omega)]
    omega

namespace GpuDevice

/-- The live allocations, as base and size. -/
def liveAllocations (d : GpuDevice) : Set (Word × Word) :=
  { buffer | ∃ i, i < gpuMaxAllocs ∧ (d.allocations i).used = true ∧
    ((d.allocations i).address, (d.allocations i).size) = buffer }

/-- A byte of the kernel window or of a live allocation. -/
def Visible (d : GpuDevice) (a : Word) : Prop :=
  a ∈ accessBytes gpuKernelBase (gpuKernelEnd - gpuKernelBase).toNat ∨
    ∃ buffer ∈ d.liveAllocations, a ∈ accessBytes buffer.1 buffer.2.toNat

/-- A vacancy has no visible byte. -/
theorem Vacancy.not_visible
    {d : GpuDevice}
    (slots : SlotsSound d.allocations)
    {slot : Nat}
    {address size a : Word}
    (vacancy : Vacancy d slot address size)
    (visible : d.Visible a) :
    a ∉ accessBytes address size.toNat := by
  have base : 0x82000000 ≤ address.toNat := vacancy.sound.base
  have fits : address.toNat + size.toNat ≤ 0x88000000 := vacancy.sound.fits
  rw [mem_accessBytes_iff (by omega)]
  rcases visible with inKernel | ⟨buffer, ⟨i, member, used, rfl⟩, inBuffer⟩
  · have window : (gpuKernelEnd - gpuKernelBase).toNat = 0x10000 := rfl
    have start : gpuKernelBase.toNat = 0x81000000 := rfl
    rw [mem_accessBytes_iff (by omega)] at inKernel
    omega
  · have bufferFits := (slots.sound i member used).fits
    rw [mem_accessBytes_iff (by dsimp only; omega)] at inBuffer
    have apart := vacancy.apart i member used
    dsimp only at inBuffer
    omega

/-! ## Live allocations -/

section Live

variable {d : GpuDevice}

/-- The live allocations are a matter of the slots. -/
theorem liveAllocations_congr
    {other : GpuDevice}
    (same : other.allocations = d.allocations) :
    other.liveAllocations = d.liveAllocations := by
  unfold liveAllocations
  rw [same]

/-- A table without a slot in use. -/
theorem liveAllocations_empty
    (empty : d.allocations = fun _ => ⟨0, 0, false⟩) :
    d.liveAllocations = ∅ := by
  unfold liveAllocations
  rw [empty]
  refine Set.eq_empty_of_forall_notMem ?_
  rintro buffer ⟨_, _, used, _⟩
  exact Bool.noConfusion used

/-- A vacancy that is taken is a live allocation more. -/
theorem Vacancy.liveAllocations
    {slot : Nat}
    {base aligned : Word}
    (vacancy : Vacancy d slot base aligned)
    {taken : GpuDevice}
    (allocations : taken.allocations =
      Function.update d.allocations slot ⟨base, aligned, true⟩) :
    taken.liveAllocations = insert (base, aligned) d.liveAllocations := by
  unfold GpuDevice.liveAllocations
  rw [allocations]
  ext buffer
  rw [Set.mem_insert_iff]
  constructor
  · rintro ⟨i, member, used, rfl⟩
    rcases eq_or_ne i slot with rfl | other
    · exact Or.inl (by rw [Function.update_self])
    · rw [Function.update_of_ne other] at used ⊢
      exact Or.inr ⟨i, member, used, rfl⟩
  · rintro (rfl | ⟨i, member, used, rfl⟩)
    · exact ⟨slot, vacancy.member, by rw [Function.update_self], by rw [Function.update_self]⟩
    · have other : i ≠ slot := by
        rintro rfl
        rw [vacancy.unused] at used
        exact Bool.noConfusion used
      exact ⟨i, member, by rwa [Function.update_of_ne other], by rw [Function.update_of_ne other]⟩

/-- A vacancy has an address of its own. -/
theorem Vacancy.ne_address
    (slots : SlotsSound d.allocations)
    {slot : Nat}
    {base aligned : Word}
    (vacancy : Vacancy d slot base aligned) :
    ∀ buffer ∈ d.liveAllocations, buffer.1 ≠ base := by
  rintro buffer ⟨i, member, used, rfl⟩ same
  have apart := vacancy.apart i member used
  have own : 0 < aligned.toNat := vacancy.sound.nonempty
  have other := (slots.sound i member used).nonempty
  have address := congrArg BitVec.toNat same
  dsimp only at address
  omega

/-- Slots in use have different addresses. -/
theorem SlotsSound.unique
    {allocations : Nat → Allocation}
    (slots : SlotsSound allocations)
    {i j : Nat}
    (first : i < gpuMaxAllocs ∧ (allocations i).used = true)
    (second : j < gpuMaxAllocs ∧ (allocations j).used = true)
    (same : (allocations i).address = (allocations j).address) :
    i = j := by
  by_contra different
  have apart := slots.apart i j first.1 second.1 different first.2 second.2
  have one := (slots.sound i first.1 first.2).nonempty
  have two := (slots.sound j second.1 second.2).nonempty
  have address := congrArg BitVec.toNat same
  omega

/-- A slot that is given up takes its address with it. -/
theorem liveAllocations_giveUp
    (slots : SlotsSound d.allocations)
    {slot : Nat}
    (member : slot < gpuMaxAllocs)
    (used : (d.allocations slot).used = true)
    {after : GpuDevice}
    (allocations : after.allocations =
      Function.update d.allocations slot { d.allocations slot with used := false }) :
    after.liveAllocations =
      { buffer | buffer ∈ d.liveAllocations ∧ buffer.1 ≠ (d.allocations slot).address } := by
  unfold GpuDevice.liveAllocations
  rw [allocations]
  ext buffer
  constructor
  · rintro ⟨i, inTable, inUse, rfl⟩
    rcases eq_or_ne i slot with rfl | other
    · rw [Function.update_self] at inUse
      exact Bool.noConfusion inUse
    · rw [Function.update_of_ne other] at inUse ⊢
      exact ⟨⟨i, inTable, inUse, rfl⟩, fun same =>
        other (slots.unique ⟨inTable, inUse⟩ ⟨member, used⟩ same)⟩
  · rintro ⟨⟨i, inTable, inUse, rfl⟩, apart⟩
    have other : i ≠ slot := by
      rintro rfl
      exact apart rfl
    exact ⟨i, inTable, by rwa [Function.update_of_ne other], by rw [Function.update_of_ne other]⟩

/-- `gpu_mem_free` on an open device removes what has the address. -/
theorem liveAllocations_gpuMemFree
    (slots : SlotsSound d.allocations)
    (valid : d.validDevice = true)
    (address : Word) :
    (gpuMemFree address d).2.liveAllocations =
      { buffer | buffer ∈ d.liveAllocations ∧ buffer.1 ≠ address } := by
  unfold gpuMemFree
  rw [valid]
  simp only [Bool.not_true, Bool.false_eq_true, if_false]
  cases found : (List.range gpuMaxAllocs).find? fun i =>
      (d.allocations i).used && (d.allocations i).address == address with
  | none =>
      ext buffer
      refine ⟨fun live => ⟨live, ?_⟩, fun live => live.1⟩
      obtain ⟨i, member, used, rfl⟩ := live
      intro same
      have missed := List.find?_eq_none.mp found i (List.mem_range.mpr member)
      rw [used, Bool.true_and, beq_iff_eq] at missed
      exact missed same
  | some slot =>
      have passes := List.find?_some found
      rw [Bool.and_eq_true, beq_iff_eq] at passes
      rw [← passes.2]
      exact liveAllocations_giveUp slots (List.mem_range.mp (List.mem_of_find?_eq_some found))
        passes.1 rfl

/-- `gpu_mem_free` leaves the memory alone. -/
@[simp] theorem gpuMemFree_pmem
    (address : Word) :
    (gpuMemFree address d).2.pmem = d.pmem := by
  unfold gpuMemFree
  split_ifs
  · rfl
  · cases (List.range gpuMaxAllocs).find? fun i =>
      (d.allocations i).used && (d.allocations i).address == address <;> rfl

end Live

end GpuDevice

namespace Runtime

open GpuDevice

variable {V : VGPUTop} {cfg : Config} {build : Build} {r after : Runtime V}

/-- The bytes that the host could see before a call are the same after it. -/
def SameVisible (before after : Runtime V) : Prop :=
  ∀ a, before.device.Visible a → after.device.pmem a = before.device.pmem a

/-- A call has changed nothing that the host can see. -/
structure HostUnchanged (before after : Runtime V) : Prop where
  live : after.device.liveAllocations = before.device.liveAllocations
  bytes : SameVisible before after
  running : after.running = before.running

/-- A state on the way of `gpu_launch`: the device is open, nothing runs, and the only
slot that may be new is the argument buffer's. -/
structure UnderWay (before r : Runtime V) : Prop where
  valid : r.device.validDevice = true
  running : r.running = before.running
  args : (r.launchArgsUsed = false ∧ r.device.allocations = before.device.allocations) ∨
    r.launchArgsUsed = true ∧ ∃ slot size, Vacancy before.device slot r.launchArgs size ∧
      r.device.allocations =
        Function.update before.device.allocations slot ⟨r.launchArgs, size, true⟩

theorem UnderWay.runModels
    {middle : Runtime V}
    (underWay : UnderWay r middle)
    {ρ : Type}
    {act : Models V → PmemAction (ρ × Models V)}
    {answer : ρ}
    (ran : middle.runModels act = some (answer, after)) :
    UnderWay r after := by
  obtain ⟨models, pmem, _, rfl⟩ := runModels_eq_some ran
  exact ⟨underWay.valid, underWay.running, underWay.args⟩

/-- The argument buffer is under way and hidden. -/
theorem ArgsPlaced.underWay
    (slots : SlotsSound r.device.allocations)
    (valid : r.device.validDevice = true)
    (placed : ArgsPlaced r after) :
    UnderWay r after ∧ SameVisible r after := by
  cases placed with
  | none => exact ⟨⟨valid, rfl, Or.inl ⟨rfl, rfl⟩⟩, fun _ _ => rfl⟩
  | @placed slot address size pmem vacancy bytes =>
      refine ⟨⟨valid, rfl, Or.inr ⟨rfl, slot, size, vacancy, rfl⟩⟩, fun a visible => ?_⟩
      exact bytes a (vacancy.not_visible slots visible)

/-- The checks of `gpu_launch` want an open device. -/
theorem valid_of_launchChecks
    {kernel : GpuKernel}
    {info : GpuLaunchInfo}
    {blockSize : Word}
    (checked : r.launchChecks cfg kernel info = some blockSize) :
    r.device.validDevice = true := by
  unfold launchChecks at checked
  split_ifs at checked with rejected
  simp only [Bool.or_eq_true, not_or, Bool.not_eq_true, Bool.not_eq_false'] at rejected
  exact rejected.1.1.1.1

/-- The software model is configured without a look at the memory. -/
theorem run_configureModels_sm
    (request : LaunchInfo)
    (blockSize : Word)
    (models : Models V)
    (pmem : Pmem) :
    (configureModels cfg .softwareModel request blockSize models).run pmem =
      some (((), { models with iss := models.iss.configure request blockSize }), pmem) := by
  unfold configureModels
  rw [LocalAction.run_bind]
  have configured := @Models.run_configureModel_sm V cfg .softwareModel request blockSize models pmem
  rw [show Build.softwareModel.executionKind = .sm from rfl, configured]
  rfl

/-- Preparing a launch either fails and has changed nothing visible, or is under way. -/
theorem underWay_of_prepare
    (mapped : cfg.DefaultMap)
    (slots : SlotsSound r.device.allocations)
    {kernel : GpuKernel}
    {info : GpuLaunchInfo}
    {blockSize : Word}
    (valid : r.device.validDevice = true)
    {result : Except GpuError Unit}
    (ran : r.prepare cfg build kernel info blockSize = some (result, after)) :
    (∃ code, result = .error code ∧ HostUnchanged r after) ∨
      result = .ok () ∧ UnderWay r after ∧
        (build = .softwareModel → SameVisible r after) := by
  obtain ⟨placing, placed, argsPlaced, outcome⟩ := prepare_cases ran
  rcases outcome with ⟨code, rfl, rfl, rfl⟩ | ⟨rfl, rfl, configures⟩
  · rcases placeArgs_cases mapped slots argsPlaced with ⟨failed, _⟩ | ⟨_, _, rfl⟩
    · cases failed
    · exact Or.inl ⟨code, rfl, rfl, fun _ _ => rfl, rfl⟩
  · rcases placeArgs_cases mapped slots argsPlaced with ⟨_, inPlace⟩ | ⟨_, failed, _⟩
    · obtain ⟨underWay, hidden⟩ := inPlace.underWay slots valid
      refine Or.inr ⟨rfl, underWay.runModels configures, ?_⟩
      rintro rfl
      obtain ⟨models, pmem, configured, rfl⟩ := runModels_eq_some configures
      rw [run_configureModels_sm] at configured
      obtain ⟨_, rfl⟩ := Prod.ext_iff.mp (Option.some.inj configured)
      exact hidden
    · cases failed

/-! ## The exits -/

/-- The exits of a DiffTest launch behind the configuration writes, with the memory that they
leave. -/
inductive LateExit (cfg : Config) (build : Build) (host : HostMemory) (prepared : Runtime V) :
    GpuResult → Pmem → Prop
  /-- The snapshots cannot be allocated. -/
  | noSnapshot :
      host.mallocs = false →
      LateExit cfg build host prepared .outOfMemory prepared.device.pmem
  /-- The reference run has not ended. -/
  | interrupted {stopped : Runtime V} :
      host.mallocs = true →
      prepared.runModels (referenceRun cfg build host.calloc) = some (false, stopped) →
      LateExit cfg build host prepared .timeout stopped.device.pmem

/-- Giving the argument buffer back shows the memory that there is. -/
theorem releaseLaunchArgs_pmem (r : Runtime V) :
    r.releaseLaunchArgs.device.pmem = r.device.pmem := by
  unfold releaseLaunchArgs
  split_ifs
  · exact gpuMemFree_pmem r.launchArgs
  · rfl

/-- A launch of a single thread without arguments. -/
def oneThread : GpuLaunchInfo := ⟨Dim3.one, Dim3.one, none, 0⟩

/-- A launch of a single thread with four bytes of arguments. -/
def fourBytes : GpuLaunchInfo := ⟨Dim3.one, Dim3.one, some fun _ => 0, 4⟩

/-- A launch of two threads without arguments. -/
def onePairOfThreads : GpuLaunchInfo := ⟨Dim3.one, ⟨2, 1, 1⟩, none, 0⟩

/-- The reference run of `storeForever` has stored its word and stands at its last
instruction. -/
structure Stuck (s : Iss) (pmem : Pmem) : Prop where
  lone : s.ncores = 1
  first : s.rr = 0
  running : s.done = false
  live : (s.cores 0).halted = false
  zero : (s.cores 0).gpr 0 = 0
  fetched : paddrRead Config.oneLane pmem (s.cores 0).pc 4 = some 0x6f
  stored : pmem 0x82000003 = 0x82

instance (s : Iss) (pmem : Pmem) : Decidable (Stuck s pmem) :=
  decidable_of_iff
    (s.ncores = 1 ∧ s.rr = 0 ∧ s.done = false ∧ (s.cores 0).halted = false ∧
      (s.cores 0).gpr 0 = 0 ∧
      paddrRead Config.oneLane pmem (s.cores 0).pc 4 = some 0x6f ∧ pmem 0x82000003 = 0x82)
    ⟨fun ⟨a, b, c, d, e, f, g⟩ => ⟨a, b, c, d, e, f, g⟩,
      fun ⟨a, b, c, d, e, f, g⟩ => ⟨a, b, c, d, e, f, g⟩⟩

/-- The reference run of `storeForever` never ends. -/
theorem Stuck.waitSteps
    {s : Iss}
    {pmem : Pmem}
    (stuck : Stuck s pmem)
    (limit : Nat) :
    (s.waitSteps Config.oneLane limit).run pmem = some ((false, s), pmem) := by
  have fixed := Iss.run_waitStep_selfJump stuck.lone stuck.first stuck.running stuck.live
    stuck.zero stuck.fetched
  rw [Iss.waitSteps, LocalAction.loop_of_fixed _ fixed, stuck.running]

/-- The reference model is launched and clocked to its end. -/
theorem run_referenceRun
    {calloc : Bool}
    {models : Models V}
    {s : Iss}
    (launched : (models.iss.gpuIssInit (BitVec.ofNat 32 cfg.numHarts)).tryLaunch cfg calloc =
      (true, s))
    (pmem : Pmem) :
    (referenceRun cfg build calloc models).run pmem =
      ((s.waitSteps cfg gpuWaitLimit).run pmem).map fun result =>
        ((result.1.1, { models with iss := result.1.2 }), result.2) := by
  have starts : (models.gpuModelLaunch cfg build .sm calloc).run pmem =
      some ((true, { models with iss := s }), pmem) := by
    unfold Models.gpuModelLaunch
    dsimp only
    rw [launched]
    rfl
  rw [referenceRun, LocalAction.run_bind, starts]
  show ((s.waitSteps cfg gpuWaitLimit).run pmem).bind _ = _
  cases (s.waitSteps cfg gpuWaitLimit).run pmem <;> rfl

end Runtime

end OpenGPU
