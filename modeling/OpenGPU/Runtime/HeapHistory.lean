import OpenGPU.Runtime.HeapCalls

/-!
# Sequences of memory calls

Any sequence of memory calls on an open device returns, answers what a store of
disjoint buffers with the history of those calls answers, and leaves every buffer
alone that it does not write to.
-/

namespace OpenGPU

namespace GpuDevice

open BufferHistory

variable {cfg : Config} {d : GpuDevice} {history : List (BufferEvent Byte)}

/-- The memory calls of a host program, with arbitrary arguments. -/
inductive HeapCall
  | alloc (size : HostSize) (address : Bool)
  | free (address : Word)
  | write (address : Word) (source : Option (Nat → Byte)) (size : HostSize)
  | read (destination : Bool) (address : Word) (size : HostSize)
  | load (image : Option (Nat → Byte)) (size : HostSize) (kernel calloc : Bool)

/-- What the calls answer. -/
inductive HeapReply
  | alloc (answer : Except GpuError Word)
  | free (answer : Except GpuError Unit)
  | write (answer : Except GpuError Unit)
  | read (answer : Except GpuError (List Byte))
  | load (answer : Except GpuError GpuKernel)

/-- One call; `none` does not return. -/
def heapCall (cfg : Config) (d : GpuDevice) : HeapCall → Option (HeapReply × GpuDevice)
  | .alloc size address =>
      (gpuMemAlloc cfg size address d).map fun result => (.alloc result.1, result.2)
  | .free address =>
      some (.free (gpuMemFree address d).1, (gpuMemFree address d).2)
  | .write address source size =>
      (gpuMemWrite cfg address source size d).map fun result => (.write result.1, result.2)
  | .read destination address size =>
      (gpuMemRead cfg destination address size d).map fun result => (.read result.1, result.2)
  | .load image size kernel calloc =>
      (gpuKernelLoadMemory cfg image size kernel calloc d).map fun result =>
        (.load result.1, result.2)

section HeapCall

variable {cfg : Config} {d after : GpuDevice}

theorem heapCall_alloc
    {size : HostSize}
    {address : Bool}
    {answer : Except GpuError Word}
    (called : gpuMemAlloc cfg size address d = some (answer, after)) :
    heapCall cfg d (.alloc size address) = some (.alloc answer, after) := by
  simp [heapCall, called]

theorem heapCall_free
    (address : Word) :
    heapCall cfg d (.free address) =
      some (.free (gpuMemFree address d).1, (gpuMemFree address d).2) := rfl

theorem heapCall_load
    {image : Option (Nat → Byte)}
    {size : HostSize}
    {kernel calloc : Bool}
    {answer : Except GpuError GpuKernel}
    (called : gpuKernelLoadMemory cfg image size kernel calloc d = some (answer, after)) :
    heapCall cfg d (.load image size kernel calloc) = some (.load answer, after) := by
  simp [heapCall, called]

end HeapCall

/-- What a call with its reply adds to the history of the buffers. -/
def heapEvent : HeapCall → HeapReply → List (BufferEvent Byte)
  | .alloc size _, .alloc (.ok base) => [.allocated base.toNat (roundUp size.toNat)]
  | .free address, .free (.ok _) => [.freed address.toNat]
  | .write address (some source) size, .write (.ok _) =>
      [.wrote address.toNat ((List.range size.toNat).map source)]
  | _, _ => []

/-- The devices, with the histories of their buffers, that sequences of memory
calls on a newly opened device produce. -/
inductive Used (cfg : Config) : GpuDevice → List (BufferEvent Byte) → Prop
  | opened {d : GpuDevice} :
      d.runtimeInitialized = true → Used cfg d.gpuDeviceOpen []
  | call {d after : GpuDevice} {history : List (BufferEvent Byte)} {call : HeapCall}
      {reply : HeapReply} :
      Used cfg d history → heapCall cfg d call = some (reply, after) →
      Used cfg after (heapEvent call reply ++ history)

/-- What a store of buffers with this history answers. Reads and writes succeed
exactly on nonempty ranges inside one live buffer, given a host pointer; reads
answer the last values written; `gpu_mem_free` succeeds exactly on the base of a
live buffer; a new buffer is vacant space of the rounded size. -/
def Answers (history : List (BufferEvent Byte)) : HeapCall → HeapReply → Prop
  | .alloc size _, .alloc answer =>
      ∀ base, answer = .ok base →
        0 < size.toNat ∧ Vacant history base.toNat (roundUp size.toNat)
  | .free address, .free answer =>
      answer = .ok () ↔ (sizeAt history address.toNat).isSome = true
  | .write address source size, .write answer =>
      answer = .ok () ↔
        source.isSome = true ∧ Inside history address.toNat size.toNat
  | .read destination address size, .read answer =>
      ((∃ bytes, answer = .ok bytes) ↔
          destination = true ∧ Inside history address.toNat size.toNat) ∧
        ∀ bytes, answer = .ok bytes →
          bytes = (List.range size.toNat).map fun k =>
            valueAt 0 history (address.toNat + k)
  | .load _ _ _ _, .load _ => True
  | _, _ => False

/-- The call has written to the buffer of `size` bytes at `base`. -/
def WritesTo (base size : Nat) : HeapCall → HeapReply → Prop
  | .write address _ length, .write (.ok _) => Within base size address.toNat length.toNat
  | _, _ => False

/-- A call has left the `size` bytes at `base` alone. -/
def SameBytes (before after : GpuDevice) (base size : Nat) : Prop :=
  ∀ k, k < size →
    after.pmem (BitVec.ofNat 32 (base + k)) = before.pmem (BitVec.ofNat 32 (base + k))

/-- The calls behave as a store of disjoint buffers, whatever comes next. -/
structure BehavesAsStore (cfg : Config) (d : GpuDevice)
    (history : List (BufferEvent Byte)) : Prop where
  disjoint : BufferHistory.Disjoint history
  returns : ∀ call, ∃ reply after, heapCall cfg d call = some (reply, after)
  answers : ∀ call reply after, heapCall cfg d call = some (reply, after) →
    Answers history call reply
  frame : ∀ call reply after, heapCall cfg d call = some (reply, after) →
    ∀ base size, sizeAt history base = some size → ¬WritesTo base size call reply →
      SameBytes d after base size

/-- One call from a device with this history. -/
structure CallSpec (d : GpuDevice) (history : List (BufferEvent Byte)) (call : HeapCall)
    (reply : HeapReply) (after : GpuDevice) : Prop where
  refines : Refines after (heapEvent call reply ++ history)
  answers : Answers history call reply
  frame : ∀ base size, sizeAt history base = some size → ¬WritesTo base size call reply →
    SameBytes d after base size

theorem Refines.alloc_spec
    (mapped : cfg.DefaultMap)
    (refines : Refines d history)
    (size : HostSize)
    (address : Bool) :
    ∃ reply after, heapCall cfg d (.alloc size address) = some (reply, after) ∧
      CallSpec d history (.alloc size address) reply after := by
  rcases refines.gpuMemAlloc_spec mapped size address with
    ⟨candidate, after, returned, refined, memory⟩ | ⟨error, returned⟩
  · have permitted : Permitted history
        (.allocated candidate.toNat (roundUp size.toNat)) := by
      cases refined.lawful with
      | cons _ permitted => exact permitted
    obtain ⟨positive, vacant⟩ := permitted
    refine ⟨.alloc (.ok candidate), after, by rw [heapCall, returned]; rfl, refined, ?_, ?_⟩
    · rintro base same
      cases same
      unfold roundUp at positive
      exact ⟨by omega, vacant⟩
    · intro base bufferSize live _ k inside
      have apart := vacant base bufferSize live
      have bounds := refines.live_bounds live
      have newBounds := refined.live_bounds (show sizeAt
        (.allocated candidate.toNat (roundUp size.toNat) :: history) candidate.toNat = _ from
          if_pos rfl)
      rw [memory, copyBytes_ofNat (by omega) (by omega), if_neg (by omega)]
  · refine ⟨.alloc (.error error), d, by rw [heapCall, returned]; rfl, refines, ?_, ?_⟩
    · intro base same
      cases same
    · exact fun _ _ _ _ _ _ => rfl

theorem Refines.free_spec
    (refines : Refines d history)
    (address : Word) :
    ∃ reply after, heapCall cfg d (.free address) = some (reply, after) ∧
      CallSpec d history (.free address) reply after := by
  rcases refines.gpuMemFree_spec address with
    ⟨live, after, returned, refined, memory⟩ | ⟨gone, returned⟩
  · refine ⟨.free (.ok ()), after, by rw [heapCall, returned], refined, ?_, ?_⟩
    · exact iff_of_true rfl live
    · intro base size _ _ k _
      rw [memory]
  · refine ⟨.free (.error .invalidArgument), d, by rw [heapCall, returned], refines, ?_, ?_⟩
    · refine iff_of_false (fun same => by cases same) ?_
      rw [gone]
      exact Bool.false_ne_true
    · exact fun _ _ _ _ _ _ => rfl

theorem Refines.write_spec
    (mapped : cfg.DefaultMap)
    (refines : Refines d history)
    (address : Word)
    (source : Option (Nat → Byte))
    (size : HostSize) :
    ∃ reply after, heapCall cfg d (.write address source size) = some (reply, after) ∧
      CallSpec d history (.write address source size) reply after := by
  cases source with
  | none =>
      refine ⟨.write (.error .invalidArgument), d, rfl, refines, ?_, ?_⟩
      · exact iff_of_false (fun same => by cases same) fun given => by cases given.1
      · exact fun _ _ _ _ _ _ => rfl
  | some bytes =>
      rcases refines.gpuMemWrite_spec mapped address bytes size with
        ⟨inside, returned, refined⟩ | ⟨outside, returned⟩
      · refine ⟨.write (.ok ()), _, by rw [heapCall, returned]; rfl, refined, ?_, ?_⟩
        · exact iff_of_true rfl ⟨rfl, inside⟩
        · intro base bufferSize live elsewhere k inBuffer
          have apart := refines.lawful.disjoint.outside live inside elsewhere
          have bounds := refines.live_bounds live
          obtain ⟨nonempty, owner, ownerSize, ownerLive, within⟩ := inside
          have ownerBounds := refines.live_bounds ownerLive
          unfold Within at within
          show copyBytes d.pmem address size.toNat bytes (BitVec.ofNat 32 (base + k)) = _
          rw [copyBytes_ofNat (by omega) (by omega), if_neg (by omega)]
      · refine ⟨.write (.error .invalidArgument), d, by rw [heapCall, returned]; rfl, refines,
          ?_, ?_⟩
        · exact iff_of_false (fun same => by cases same) fun given => outside given.2
        · exact fun _ _ _ _ _ _ => rfl

theorem Refines.read_spec
    (mapped : cfg.DefaultMap)
    (refines : Refines d history)
    (destination : Bool)
    (address : Word)
    (size : HostSize) :
    ∃ reply after, heapCall cfg d (.read destination address size) = some (reply, after) ∧
      CallSpec d history (.read destination address size) reply after := by
  have fails : ¬(destination = true ∧ Inside history address.toNat size.toNat) →
      gpuMemRead cfg destination address size d = some (.error .invalidArgument, d) →
      ∃ reply after, heapCall cfg d (.read destination address size) = some (reply, after) ∧
        CallSpec d history (.read destination address size) reply after := by
    intro refused returned
    refine ⟨.read (.error .invalidArgument), d, by rw [heapCall, returned]; rfl, refines,
      ⟨?_, ?_⟩, ?_⟩
    · refine iff_of_false ?_ refused
      rintro ⟨bytes, same⟩
      cases same
    · intro bytes same
      cases same
    · exact fun _ _ _ _ _ _ => rfl
  cases destination with
  | false =>
      refine fails (fun given => Bool.noConfusion given.1) ?_
      unfold gpuMemRead
      rw [refines.valid]
      rfl
  | true =>
      rcases refines.gpuMemRead_spec mapped address size with
        ⟨inside, returned⟩ | ⟨outside, returned⟩
      · refine ⟨.read (.ok ((List.range size.toNat).map fun k =>
            valueAt 0 history (address.toNat + k))), d, by rw [heapCall, returned]; rfl,
          refines, ⟨?_, ?_⟩, ?_⟩
        · exact iff_of_true ⟨_, rfl⟩ ⟨rfl, inside⟩
        · intro bytes same
          cases same
          rfl
        · exact fun _ _ _ _ _ _ => rfl
      · exact fails (fun given => outside given.2) returned

theorem Refines.load_spec
    (mapped : cfg.DefaultMap)
    (refines : Refines d history)
    (image : Option (Nat → Byte))
    (size : HostSize)
    (kernel calloc : Bool) :
    ∃ reply after, heapCall cfg d (.load image size kernel calloc) = some (reply, after) ∧
      CallSpec d history (.load image size kernel calloc) reply after := by
  obtain ⟨answer, after, returned, refined, untouched⟩ :=
    refines.gpuKernelLoadMemory_spec mapped image size kernel calloc
  refine ⟨.load answer, after, by rw [heapCall, returned]; rfl, ?_, trivial, ?_⟩
  · cases image <;> exact refined
  · intro base bufferSize live _ k inside
    have bounds := refines.live_bounds live
    exact untouched _ (by omega) (by omega)

/-- Every call returns and keeps the refinement. -/
theorem Refines.heapCall_spec
    (mapped : cfg.DefaultMap)
    (refines : Refines d history)
    (call : HeapCall) :
    ∃ reply after, heapCall cfg d call = some (reply, after) ∧
      CallSpec d history call reply after := by
  cases call with
  | alloc size address => exact refines.alloc_spec mapped size address
  | free address => exact refines.free_spec address
  | write address source size => exact refines.write_spec mapped address source size
  | read destination address size => exact refines.read_spec mapped destination address size
  | load image size kernel calloc => exact refines.load_spec mapped image size kernel calloc

theorem Refines.callSpec
    (mapped : cfg.DefaultMap)
    (refines : Refines d history)
    {call : HeapCall}
    {reply : HeapReply}
    {after : GpuDevice}
    (returned : heapCall cfg d call = some (reply, after)) :
    CallSpec d history call reply after := by
  obtain ⟨otherReply, otherAfter, otherReturned, spec⟩ := refines.heapCall_spec mapped call
  rw [returned] at otherReturned
  cases otherReturned
  exact spec

/-- A newly opened device has no buffers. -/
theorem refines_gpuDeviceOpen
    (initialized : d.runtimeInitialized = true) :
    Refines d.gpuDeviceOpen [] where
  valid := by
    rw [validDevice, Bool.and_eq_true]
    exact ⟨initialized, rfl⟩
  lawful := .nil
  slots :=
    { sound := fun _ _ used => by cases used
      apart := fun _ _ _ _ _ used => by cases used }
  live_iff base size := by
    constructor
    · intro live
      cases live
    · rintro ⟨_, _, used, _⟩
      cases used
  bytes base size live := by cases live

/-- Every used device refines its history. -/
theorem Used.refines
    (mapped : cfg.DefaultMap)
    (used : Used cfg d history) :
    Refines d history := by
  induction used with
  | opened initialized => exact refines_gpuDeviceOpen initialized
  | call _ returned inductionHypothesis =>
      exact (inductionHypothesis.callSpec mapped returned).refines

/-- The runtime heap, after any sequence of memory calls on an open device with
the default memory map, is a store of disjoint buffers with the history of those
calls. -/
theorem heap_behavesAsStore
    (mapped : cfg.DefaultMap)
    (used : Used cfg d history) :
    BehavesAsStore cfg d history := by
  have refines := used.refines mapped
  exact
    { disjoint := refines.lawful.disjoint
      returns := fun call => by
        obtain ⟨reply, after, returned, _⟩ := refines.heapCall_spec mapped call
        exact ⟨reply, after, returned⟩
      answers := fun _ _ _ returned => (refines.callSpec mapped returned).answers
      frame := fun _ _ _ returned => (refines.callSpec mapped returned).frame }

/-! ## One buffer -/

/-- The device of an initialised runtime before it is opened, with garbage in
the memory. -/
def closed : GpuDevice where
  runtimeInitialized := true
  opened := false
  kernelGeneration := 0
  allocations := fun _ => ⟨0, 0, false⟩
  kernels := []
  pmem := fun _ => 0xa5

/-- The first buffer of a newly opened device. -/
theorem used_afterAlloc :
    ∃ d, Used Config.oneLane d [.allocated 0x82000000 64] := by
  have observed : (gpuMemAlloc Config.oneLane 1 true closed.gpuDeviceOpen).any
      (fun result => result.1.toOption == some 0x82000000) = true := by decide +kernel
  obtain ⟨⟨answer, d⟩, returned, placed⟩ := (Option.any_eq_true _ _).mp observed
  rw [beq_iff_eq] at placed
  cases answer with
  | error code => cases placed
  | ok base =>
      obtain rfl : base = 0x82000000 := Option.some.inj placed
      exact ⟨d, Used.call (.opened rfl) (heapCall_alloc returned)⟩

/-- The memory of the buffer was garbage and reads as zero. -/
theorem heap_behavesAsStore_oneBuffer :
    ∃ d after, heapCall Config.oneLane d (.read true 0x82000010 2) =
      some (.read (.ok [0, 0]), after) := by
  obtain ⟨d, used⟩ := used_afterAlloc
  have behaves := heap_behavesAsStore ⟨rfl, rfl⟩ used
  obtain ⟨reply, after, returned⟩ := behaves.returns (.read true 0x82000010 2)
  have answers := behaves.answers _ _ _ returned
  cases reply with
  | read answer =>
      obtain ⟨bytes, rfl⟩ := answers.1.mpr
        ⟨rfl, by decide, 0x82000000, 64, rfl, by decide, by decide⟩
      rw [answers.2 bytes rfl] at returned
      exact ⟨d, after, returned⟩
  | _ => exact answers.elim

/-- A null host pointer fails on a range inside a live buffer. -/
theorem null_pointer_fails :
    ∃ d history, Used Config.oneLane d history ∧ Inside history 0x82000000 1 ∧
      gpuMemWrite Config.oneLane 0x82000000 none 1 d =
        some (.error .invalidArgument, d) ∧
      gpuMemRead Config.oneLane false 0x82000000 1 d =
        some (.error .invalidArgument, d) := by
  obtain ⟨d, used⟩ := used_afterAlloc
  refine ⟨d, _, used, ⟨by decide, 0x82000000, 64, rfl, by decide, by decide⟩, rfl, ?_⟩
  unfold gpuMemRead
  rw [(used.refines ⟨rfl, rfl⟩).valid]
  rfl

end GpuDevice

end OpenGPU
