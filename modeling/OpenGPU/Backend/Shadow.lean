import OpenGPU.Backend.Rtl
import OpenGPU.Runtime.HeapRefinement

/-!
# The shadow memory of DiffTest

`cycle_diff_begin` copies physical memory into the shadow memory of the cycle
model. From then on a tick that finds no mismatch keeps the two equal: whatever the
netlist stores is a store that the model expects, and the bytes of those stores
have been compared.
-/

namespace OpenGPU

/-! ## Stores of the cycle model -/

namespace Store

/-- A byte of the window that a store writes in a shadow memory of `size` bytes. -/
def Covers (cfg : Config) (size : Nat) (s : Store) (a : Word) : Prop :=
  ∃ byte, byte < 4 ∧ hasLane s.mask byte = true ∧ cfg.mbase.toNat ≤ s.addr.toNat + byte ∧
    s.addr.toNat + byte < cfg.mbase.toNat + size ∧ BitVec.ofNat 32 (s.addr.toNat + byte) = a

end Store

namespace Model

variable {cfg : Config}

/-- One byte of `store_ref` changes that byte only. -/
theorem storeByte_cases
    (s : Store)
    (mem : ShadowMemory)
    {byte : Nat}
    (inWord : byte < 4)
    (a : Word) :
    (storeByte cfg s mem byte).size = mem.size ∧
      ((storeByte cfg s mem byte).bytes a = mem.bytes a ∨ s.Covers cfg mem.size a) := by
  unfold storeByte
  dsimp only
  split_ifs with lane outside
  · exact ⟨rfl, Or.inl rfl⟩
  · refine ⟨rfl, ?_⟩
    rcases eq_or_ne a (BitVec.ofNat 32 (s.addr.toNat + byte)) with rfl | other
    · exact Or.inr ⟨byte, inWord, lane, by omega, by omega, rfl⟩
    · exact Or.inl (Function.update_of_ne other _ _)
  · exact ⟨rfl, Or.inl rfl⟩

/-- `store_ref` changes only the bytes that the store covers. -/
theorem storeRef_cases
    (s : Store)
    (mem : ShadowMemory)
    (a : Word) :
    (storeRef cfg mem s).size = mem.size ∧
      ((storeRef cfg mem s).bytes a = mem.bytes a ∨ s.Covers cfg mem.size a) := by
  have prefixes : ∀ count, count ≤ 4 →
      ((List.range count).foldl (storeByte cfg s) mem).size = mem.size ∧
        (((List.range count).foldl (storeByte cfg s) mem).bytes a = mem.bytes a ∨
          s.Covers cfg mem.size a) := by
    intro count bound
    induction count with
    | zero => exact ⟨rfl, Or.inl rfl⟩
    | succ count inductionHypothesis =>
        obtain ⟨size, early⟩ := inductionHypothesis (by omega)
        rw [List.range_succ, List.foldl_append, List.foldl_cons, List.foldl_nil]
        obtain ⟨lateSize, late⟩ := @storeByte_cases cfg s
          ((List.range count).foldl (storeByte cfg s) mem) count (by omega) a
        rw [size] at late lateSize
        refine ⟨lateSize, ?_⟩
        rcases late with same | covered
        · rw [same]
          exact early
        · exact Or.inr covered
  exact prefixes 4 (le_refl 4)

/-- A list of stores changes only the bytes that one of them covers. -/
theorem storeRefs_cases
    (stores : List Store)
    (mem : ShadowMemory)
    (a : Word) :
    (stores.foldl (storeRef cfg) mem).size = mem.size ∧
      ((stores.foldl (storeRef cfg) mem).bytes a = mem.bytes a ∨
        ∃ s ∈ stores, s.Covers cfg mem.size a) := by
  induction stores generalizing mem with
  | nil => exact ⟨rfl, Or.inl rfl⟩
  | cons s stores inductionHypothesis =>
      obtain ⟨size, first⟩ := @storeRef_cases cfg s mem a
      obtain ⟨restSize, rest⟩ := inductionHypothesis (storeRef cfg mem s)
      rw [size] at rest restSize
      rw [List.foldl_cons]
      refine ⟨restSize, ?_⟩
      rcases rest with same | ⟨other, member, covered⟩
      · rw [same]
        rcases first with kept | covered
        · exact Or.inl kept
        · exact Or.inr ⟨s, List.mem_cons_self, covered⟩
      · exact Or.inr ⟨other, List.mem_cons_of_mem _ member, covered⟩

/-- `pack` fills in the packed words and nothing else. -/
theorem pack_keeps
    {m packed : Model}
    (ran : pack cfg m = some packed) :
    packed.active = m.active ∧ packed.mem = m.mem ∧ packed.expected = m.expected := by
  unfold pack at ran
  split_ifs at ran
  cases ran
  exact ⟨rfl, rfl, rfl⟩

/-- Outside reset a step changes only the bytes that an expected store covers. -/
theorem tick_mem
    {m next : Model}
    {inputs : Inputs}
    (running : inputs.reset = false)
    (ran : m.tick cfg inputs = some next)
    (a : Word) :
    next.active = m.active ∧ next.mem.size = m.mem.size ∧
      (next.mem.bytes a = m.mem.bytes a ∨
        ∃ s ∈ next.expected, s.Covers cfg m.mem.size a) := by
  unfold tick cycleDiffStep at ran
  have noReset : (cycleDiffSetInputs inputs m).inputs.reset = false := running
  rw [noReset] at ran
  simp only [Bool.false_eq_true, if_false] at ran
  split_ifs at ran
  obtain ⟨active, mem, expected⟩ := pack_keeps ran
  rw [active, mem, expected]
  exact ⟨rfl, storeRefs_cases _ m.mem a⟩

end Model

namespace RtlSim

variable {V : VGPUTop} {cfg : Config} {build : Build} {sim next : RtlSim V} {pmem after : Pmem}

/-- The bytes that the comparison looks at after an edge. -/
theorem mem_dirtyBytes
    {a : Word} :
    a ∈ sim.dirtyBytes cfg ↔ ∃ s ∈ sim.model.expected, s.Covers cfg sim.model.mem.size a := by
  unfold dirtyBytes Store.Covers
  simp only [List.mem_flatMap, List.mem_filterMap, List.mem_range]
  constructor
  · rintro ⟨s, member, byte, inWord, found⟩
    split_ifs at found with lane outside
    exact ⟨s, member, byte, inWord, lane, by omega, by omega, Option.some.inj found⟩
  · rintro ⟨s, member, byte, inWord, lane, above, below, same⟩
    refine ⟨s, member, byte, inWord, ?_⟩
    rw [if_pos lane, if_neg (by omega), same]

/-- The guest addresses of the window. -/
theorem mem_window
    {a : Word} :
    a ∈ window cfg ↔ inPmem cfg a = true := by
  have fits := cfg.pmem_fits
  have bound := a.isLt
  rw [inPmem_iff, window, List.mem_map]
  constructor
  · rintro ⟨i, inRange, rfl⟩
    rw [List.mem_range] at inRange
    rw [BitVec.toNat_add, BitVec.toNat_ofNat, Nat.mod_eq_of_lt (show i < 2 ^ 32 by omega),
      Nat.mod_eq_of_lt (by omega)]
    omega
  · rintro ⟨above, below⟩
    refine ⟨a.toNat - cfg.mbase.toNat, List.mem_range.mpr (by omega), ?_⟩
    apply BitVec.eq_of_toNat_eq
    rw [BitVec.toNat_add, BitVec.toNat_ofNat, Nat.mod_eq_of_lt (show _ < 2 ^ 32 by omega),
      Nat.mod_eq_of_lt (by omega)]
    omega

/-! ## The parts of a tick -/

/-- An evaluation changes only the netlist and its snapshot. -/
theorem evalTop_spec
    {clock : Bool}
    (ran : (sim.evalTop cfg build clock).run pmem = some (next, after)) :
    (∃ top dpi, next = { sim with top := top, dpi := dpi }) ∧
      (build.diffTest = true → after = pmem) := by
  obtain ⟨result, middle, performed, rest⟩ := LocalAction.run_bind_eq_some ran
  cases rest
  exact ⟨⟨_, _, rfl⟩, fun diffTest => DpiCalls.perform_diffTest diffTest performed⟩

/-- What the stores that a tick has taken so far leave of the state before them:
a byte that changed is a byte of physical memory that a recorded store covers. -/
structure Took (cfg : Config) (sim : RtlSim V) (pmem : Pmem) (next : RtlSim V) (after : Pmem) :
    Prop where
  pins : next.pins = sim.pins
  model : next.model = sim.model
  diffFailed : next.diffFailed = sim.diffFailed
  bytes : sim.model.active = true → ∀ a, after a = pmem a ∨
    inPmem cfg a = true ∧ ∃ s ∈ next.actual, ∃ byte, byte < 4 ∧ hasLane s.mask byte = true ∧
      s.addr + BitVec.ofNat 32 byte = a

/-- One byte of a store under a mask. -/
theorem writeMasked_spec
    {addr data : Word}
    {mask : Byte}
    {byte : Nat}
    (ran : (PmemAction.writeMasked cfg addr mask data byte).run pmem = some ((), after))
    (a : Word) :
    after a = pmem a ∨
      inPmem cfg a = true ∧ hasLane mask byte = true ∧ addr + BitVec.ofNat 32 byte = a := by
  unfold PmemAction.writeMasked at ran
  split_ifs at ran with lane
  · rw [PmemAction.run_paddrWrite] at ran
    obtain ⟨written, stored, same⟩ := Option.map_eq_some_iff.mp ran
    cases same
    unfold paddrWrite at stored
    split_ifs at stored with inside
    cases stored
    rw [accessInPmem, Bool.and_eq_true] at inside
    unfold writeBytes
    split_ifs with here
    · have place : a = addr + BitVec.ofNat 32 byte := by
        have zero : a - (addr + BitVec.ofNat 32 byte) = 0 :=
          BitVec.eq_of_toNat_eq (Nat.lt_one_iff.mp here)
        rw [BitVec.sub_eq_iff_eq_add] at zero
        rw [zero]
        exact BitVec.zero_add _
      rw [place]
      exact Or.inr ⟨inside.1, by rw [hasLane_eq_getLsbD, lane], rfl⟩
    · exact Or.inl rfl
  · cases ran
    exact Or.inl rfl

/-- A store under a mask changes only bytes under the mask. -/
theorem dpiPaddrWrite_spec
    {addr data : Word}
    {mask : Byte}
    (ran : (PmemAction.dpiPaddrWrite cfg addr mask data).run pmem = some ((), after))
    (a : Word) :
    after a = pmem a ∨
      inPmem cfg a = true ∧ ∃ byte, byte < 4 ∧ hasLane mask byte = true ∧
        addr + BitVec.ofNat 32 byte = a := by
  unfold PmemAction.dpiPaddrWrite at ran
  have bounds : ∀ byte ∈ List.range 4, byte < 4 := fun byte member => List.mem_range.mp member
  generalize List.range 4 = bytes at ran bounds
  induction bytes generalizing pmem with
  | nil =>
      cases ran
      exact Or.inl rfl
  | cons byte bytes inductionHypothesis =>
      rw [List.forM_cons] at ran
      obtain ⟨_, middle, first, rest⟩ := LocalAction.run_bind_eq_some ran
      rcases inductionHypothesis rest (fun other member =>
        bounds other (List.mem_cons_of_mem _ member)) with same | changed
      · rw [same]
        rcases writeMasked_spec first a with kept | ⟨inside, lane, place⟩
        · exact Or.inl kept
        · exact Or.inr ⟨inside, byte, bounds byte List.mem_cons_self, lane, place⟩
      · exact Or.inr changed

/-- Taking the stores of one more core. -/
theorem Took.takeStore
    {start : RtlSim V}
    {startPmem : Pmem}
    (took : Took cfg start startPmem sim pmem)
    {core : Nat}
    (ran : (sim.takeStore cfg core).run pmem = some (next, after)) :
    Took cfg start startPmem next after := by
  unfold RtlSim.takeStore at ran
  split_ifs at ran
  · obtain ⟨_, middle, stored, rest⟩ := LocalAction.run_bind_eq_some ran
    cases rest
    have observed : ∀ s, (sim.cycleDiffObserveStore s).pins = sim.pins ∧
        (sim.cycleDiffObserveStore s).model = sim.model ∧
        (sim.cycleDiffObserveStore s).diffFailed = sim.diffFailed := by
      intro s
      unfold cycleDiffObserveStore
      split_ifs <;> exact ⟨rfl, rfl, rfl⟩
    obtain ⟨pins, model, failed⟩ := observed (sim.reportedStore cfg core)
    refine
      { pins := pins.trans took.pins
        model := model.trans took.model
        diffFailed := failed.trans took.diffFailed
        bytes := fun active a => ?_ }
    obtain ⟨entry, recorded, mask⟩ : ∃ entry,
        (sim.cycleDiffObserveStore (sim.reportedStore cfg core)).actual = sim.actual ++ [entry] ∧
          entry.addr = (sim.reportedStore cfg core).addr ∧
          entry.mask = (sim.reportedStore cfg core).mask := by
      rw [cycleDiffObserveStore, took.model, active]
      exact ⟨_, rfl, rfl, rfl⟩
    rw [recorded]
    rcases dpiPaddrWrite_spec stored a with kept | ⟨inside, byte, inWord, lane, place⟩
    · rw [kept]
      rcases took.bytes active a with same | ⟨inside, s, member, changed⟩
      · exact Or.inl same
      · exact Or.inr ⟨inside, s, List.mem_append_left _ member, changed⟩
    · refine Or.inr ⟨inside, entry, List.mem_append_right _ List.mem_cons_self, byte, inWord, ?_⟩
      rw [mask.1, mask.2]
      exact ⟨lane, place⟩
  · cases ran
    exact took

/-- The stores that the netlist has reported are in memory and recorded when the
cycle model has stepped. -/
theorem beforeEdge_spec
    (ran : (sim.beforeEdge cfg).run pmem = some (next, after)) :
    ∃ taken model, Took cfg sim pmem taken after ∧
      sim.model.tick cfg ⟨sim.pins.reset, sim.pins.dcrValid, sim.pins.dcrAddr, sim.pins.dcrData,
        sim.pins.launch⟩ = some model ∧
      next = { taken with
        model := model
        actual := if sim.pins.reset then [] else taken.actual } := by
  obtain ⟨taken, middle, folded, stepped⟩ := LocalAction.run_bind_eq_some ran
  have took : Took cfg sim pmem taken middle := by
    refine LocalAction.foldlM_induct (Took cfg sim pmem)
      (fun state core mem next after so ran => so.takeStore ran) ?_ folded
    exact ⟨rfl, rfl, rfl, fun _ _ => Or.inl rfl⟩
  obtain ⟨model, rest, lifted, finished⟩ := LocalAction.run_bind_eq_some stepped
  rw [LocalAction.run_ofOption] at lifted
  obtain ⟨_, ticked, same⟩ := Option.map_eq_some_iff.mp lifted
  cases same
  cases finished
  rw [took.pins, took.model] at ticked
  exact ⟨taken, model, took, ticked, by rw [took.pins]⟩

/-- A comparison leaves everything alone but its own verdict. -/
theorem afterEdge_frame
    (ran : (sim.afterEdge cfg).run pmem = some (next, after)) :
    after = pmem ∧ ∃ failed, next = { sim with diffFailed := failed, actual := [] } := by
  obtain ⟨same, middle, compared, rest⟩ := LocalAction.run_bind_eq_some ran
  cases rest
  refine ⟨?_, _, rfl⟩
  split_ifs at compared with differs
  · cases compared
    rfl
  · unfold cycleDiffCheckMemory at compared
    split_ifs at compared <;> cases compared <;> rfl

/-- A comparison passes only if the recorded stores are the expected ones and memory
holds their bytes. -/
theorem afterEdge_passed
    (active : sim.model.active = true)
    (ran : (sim.afterEdge cfg).run pmem = some (next, after))
    (passed : next.diffFailed = false) :
    sim.diffFailed = false ∧
      sim.actual.mergeSort (fun a b => !b.lt a) = sim.model.expected ∧
      ∀ a ∈ sim.dirtyBytes cfg, pmem a = sim.model.mem.bytes a := by
  obtain ⟨same, middle, compared, rest⟩ := LocalAction.run_bind_eq_some ran
  cases rest
  split_ifs at compared with differs
  · cases compared
    exact Bool.noConfusion passed
  · simp only [Bool.or_eq_true, Bool.not_eq_true', not_or, Bool.not_eq_true,
      Bool.not_eq_false] at differs
    unfold cycleDiffCheckMemory at compared
    rw [active] at compared
    simp only [Bool.not_true, Bool.false_eq_true, if_false] at compared
    split_ifs at compared with size
    · cases compared
      exact Bool.noConfusion passed
    · cases compared
      rw [Bool.not_eq_false', List.all_eq_true] at passed
      exact ⟨differs.1.1.1, beq_iff_eq.mp differs.1.2,
        fun a member => beq_iff_eq.mp (passed a member)⟩

/-- A tick drives the pins that it finds. -/
theorem tick_pins
    (ran : (sim.tick cfg build).run pmem = some (next, after)) :
    next.pins = sim.pins := by
  obtain ⟨first, firstMem, evaluated, fromFirst⟩ := LocalAction.run_bind_eq_some ran
  obtain ⟨second, secondMem, before, fromSecond⟩ := LocalAction.run_bind_eq_some fromFirst
  obtain ⟨third, thirdMem, rose, fromThird⟩ := LocalAction.run_bind_eq_some fromSecond
  obtain ⟨⟨_, _, rfl⟩, _⟩ := evalTop_spec evaluated
  obtain ⟨⟨_, _, rfl⟩, _⟩ := evalTop_spec rose
  have kept : second.pins = sim.pins := by
    split_ifs at before
    · obtain ⟨taken, model, took, _, rfl⟩ := beforeEdge_spec before
      exact took.pins
    · cases before
      rfl
  split_ifs at fromThird
  · obtain ⟨fourth, fourthMem, settled, compared⟩ := LocalAction.run_bind_eq_some fromThird
    obtain ⟨⟨_, _, rfl⟩, _⟩ := evalTop_spec settled
    obtain ⟨_, _, rfl⟩ := afterEdge_frame compared
    exact kept
  · cases fromThird
    exact kept

/-! ## A run of ticks -/

/-- After `cycle_diff_begin`: the shadow memory has the size of physical memory and,
as long as no mismatch was found, its contents. -/
structure Shadowed (cfg : Config) (sim : RtlSim V) (pmem : Pmem) : Prop where
  running : sim.pins.reset = false
  active : sim.model.active = true
  size : sim.model.mem.size = cfg.msize.toNat
  same : sim.diffFailed = false → ∀ a, inPmem cfg a = true → pmem a = sim.model.mem.bytes a

/-- The parts of a tick in DiffTest. -/
theorem tick_diffTest
    (diffTest : build.diffTest = true)
    (ran : (sim.tick cfg build).run pmem = some (next, after)) :
    ∃ first second third fourth,
      (sim.evalTop cfg build false).run pmem = some (first, pmem) ∧
        (first.beforeEdge cfg).run pmem = some (second, after) ∧
        (second.evalTop cfg build true).run after = some (third, after) ∧
        (third.evalTop cfg build true).run after = some (fourth, after) ∧
        (fourth.afterEdge cfg).run after = some (next, after) := by
  obtain ⟨first, firstMem, evaluated, fromFirst⟩ := LocalAction.run_bind_eq_some ran
  obtain ⟨second, secondMem, before, fromSecond⟩ := LocalAction.run_bind_eq_some fromFirst
  obtain ⟨third, thirdMem, rose, fromThird⟩ := LocalAction.run_bind_eq_some fromSecond
  rw [if_pos diffTest] at before fromThird
  obtain ⟨fourth, fourthMem, settled, compared⟩ := LocalAction.run_bind_eq_some fromThird
  obtain rfl := (evalTop_spec evaluated).2 diffTest
  obtain rfl := (evalTop_spec rose).2 diffTest
  obtain rfl := (evalTop_spec settled).2 diffTest
  have kept : after = fourthMem := (afterEdge_frame compared).1
  subst kept
  exact ⟨first, second, third, fourth, evaluated, before, rose, settled, compared⟩

/-- A tick keeps the shadow memory. -/
theorem Shadowed.tick
    (mapped : cfg.DefaultMap)
    (diffTest : build.diffTest = true)
    (shadowed : sim.Shadowed cfg pmem)
    (ran : (sim.tick cfg build).run pmem = some (next, after)) :
    next.Shadowed cfg after := by
  obtain ⟨first, second, third, fourth, evaluated, before, rose, settled, compared⟩ :=
    tick_diffTest diffTest ran
  obtain ⟨⟨_, _, rfl⟩, _⟩ := evalTop_spec evaluated
  obtain ⟨taken, model, took, ticked, rfl⟩ := beforeEdge_spec before
  obtain ⟨⟨_, _, rfl⟩, _⟩ := evalTop_spec rose
  obtain ⟨⟨_, _, rfl⟩, _⟩ := evalTop_spec settled
  have stepped := Model.tick_mem shadowed.running ticked
  have active : model.active = true := (stepped 0).1.trans shadowed.active
  have size : model.mem.size = cfg.msize.toNat := (stepped 0).2.1.trans shadowed.size
  have passes := afterEdge_passed active compared
  obtain ⟨_, failed, rfl⟩ := afterEdge_frame compared
  have running : taken.pins.reset = false := by
    rw [took.pins]
    exact shadowed.running
  refine ⟨running, active, size, fun passed a inside => ?_⟩
  obtain ⟨noFailure, sameStores, sameDirty⟩ := passes passed
  dsimp only at sameStores
  rw [shadowed.running] at sameStores
  simp only [Bool.false_eq_true, if_false] at sameStores
  -- A byte under an expected store has been compared; any other kept its value on both sides.
  by_cases dirty : ∃ s ∈ model.expected, s.Covers cfg model.mem.size a
  · exact sameDirty a (mem_dirtyBytes.mpr dirty)
  · have shadow : model.mem.bytes a = sim.model.mem.bytes a := by
      refine (stepped a).2.2.resolve_right fun covered => dirty ?_
      rw [(stepped a).2.1]
      exact covered
    have memory : after a = pmem a := by
      refine (took.bytes shadowed.active a).resolve_right ?_
      rintro ⟨_, s, member, byte, inWord, lane, rfl⟩
      refine dirty ⟨s, ?_, byte, inWord, lane, ?_⟩
      · rw [← sameStores, List.mem_mergeSort]
        exact member
      · have place := (inPmem_iff cfg _).mp inside
        have bound := s.addr.isLt
        rw [mapped.mbase, BitVec.toNat_add, BitVec.toNat_ofNat,
          Nat.mod_eq_of_lt (show byte < 2 ^ 32 by omega),
          show (0x80000000 : Word).toNat = 0x80000000 from rfl] at place
        rw [size, mapped.mbase, show (0x80000000 : Word).toNat = 0x80000000 from rfl]
        refine ⟨by omega, by omega, ?_⟩
        rw [BitVec.ofNat_add, BitVec.ofNat_toNat, BitVec.setWidth_eq]
    rw [shadow, memory]
    exact shadowed.same (by rw [← took.diffFailed]; exact noFailure) a inside

/-- So do all the cycles of `gpu_rtl_wait`. -/
theorem Shadowed.waitCycles
    (mapped : cfg.DefaultMap)
    (diffTest : build.diffTest = true)
    (shadowed : sim.Shadowed cfg pmem)
    {maxCycles : Nat}
    {stop : Stop}
    (ran : (sim.waitCycles cfg build maxCycles).run pmem = some ((stop, next), after)) :
    next.Shadowed cfg after := by
  have ticked : ∀ (sim : RtlSim V) pmem result after, Shadowed cfg sim pmem →
      (waitCycle cfg build sim).run pmem = some (result, after) →
      Shadowed cfg (Sum.elim Prod.snd id result) after := by
    intro sim pmem result after shadowed ran
    obtain ⟨next, middle, ran, rest⟩ := LocalAction.run_bind_eq_some ran
    have kept := shadowed.tick mapped diffTest ran
    split_ifs at rest <;> cases rest <;> exact kept
  exact LocalAction.loop_induct (Shadowed cfg) (fun result => Shadowed cfg result.2)
    (fun sim pmem result after so ran => ticked sim pmem (.inl result) after so ran)
    (fun sim pmem next after so ran => ticked sim pmem (.inr next) after so ran)
    (fun sim pmem so => so) shadowed ran

/-- How the loop of `gpu_rtl_wait` can end. -/
theorem waitCycles_stop
    {maxCycles : Nat}
    {stop : Stop}
    (ran : (sim.waitCycles cfg build (maxCycles + 1)).run pmem = some ((stop, next), after)) :
    (stop = .rest → next.gpuRtlFault = false) ∧ (stop = .limit → V.gpuBusy next.top = true) := by
  refine LocalAction.loop_ends
    (fun result _ => (result.1 = .rest → result.2.gpuRtlFault = false) ∧
      (result.1 = .limit → V.gpuBusy result.2.top = true)) ?_ ?_ ran
  · intro state mem answer last rounded
    obtain ⟨ticked, middle, _, rest⟩ := LocalAction.run_bind_eq_some rounded
    split_ifs at rest with fault idle <;> cases rest
    · exact ⟨fun stop => (nomatch stop), fun stop => (nomatch stop)⟩
    · exact ⟨fun _ => Bool.eq_false_iff.mpr fault, fun stop => (nomatch stop)⟩
  · intro state mem goesOn last rounded
    obtain ⟨ticked, middle, _, rest⟩ := LocalAction.run_bind_eq_some rounded
    split_ifs at rest with fault idle <;> cases rest
    refine ⟨fun stop => (nomatch stop), fun _ => ?_⟩
    simpa using idle

/-- The comparison of all of physical memory with the shadow memory. -/
theorem Shadowed.run_cycleDiffCheckMemory
    {before : Pmem}
    (shadowed : sim.Shadowed cfg before)
    (pmem : Pmem) :
    (sim.cycleDiffCheckMemory cfg true).run pmem =
      some ((window cfg).all fun a => pmem a == sim.model.mem.bytes a, pmem) := by
  unfold cycleDiffCheckMemory
  rw [shadowed.active, shadowed.size]
  simp only [Bool.not_true, Bool.false_eq_true, if_false, ne_eq, not_true_eq_false, if_true]
  rfl

/-- `gpu_rtl_wait` on a loop that a fault or the limit has ended. -/
theorem run_gpuRtlWait_stopped
    {maxCycles : Nat}
    {stop : Stop}
    (ran : (sim.waitCycles cfg build (maxCycles + 1)).run pmem = some ((stop, next), after))
    (early : stop ≠ .rest) :
    (sim.gpuRtlWait cfg build (maxCycles + 1)).run pmem = some ((false, next), after) := by
  rw [gpuRtlWait, LocalAction.run_bind, ran]
  cases stop with
  | fault => rfl
  | rest => exact absurd rfl early
  | limit =>
      have busy := (waitCycles_stop ran).2 rfl
      show some ((!V.gpuBusy next.top && !V.gpuFault next.top, next), after) = _
      rw [busy]
      rfl

/-- `gpu_rtl_wait` on a loop that has come to rest in DiffTest. -/
theorem run_gpuRtlWait_rest
    {maxCycles : Nat}
    {before : Pmem}
    (diffTest : build.diffTest = true)
    (ran : (sim.waitCycles cfg build maxCycles).run pmem = some ((.rest, next), after))
    (shadowed : next.Shadowed cfg before) :
    (sim.gpuRtlWait cfg build maxCycles).run pmem =
      some (((window cfg).all fun a => after a == next.model.mem.bytes a,
        { next with
          diffFailed := next.diffFailed ||
            !(window cfg).all fun a => after a == next.model.mem.bytes a }), after) := by
  rw [gpuRtlWait, LocalAction.run_bind, ran]
  dsimp only [Option.bind_some]
  rw [if_pos diffTest, LocalAction.run_bind, shadowed.run_cycleDiffCheckMemory]
  rfl

/-- `gpu_rtl_launch` starts a comparison. -/
theorem shadowed_gpuRtlLaunch
    (mapped : cfg.DefaultMap)
    (diffTest : build.diffTest = true)
    (running : sim.pins.reset = false)
    (ran : (sim.gpuRtlLaunch cfg build).run pmem = some (next, after)) :
    next.Shadowed cfg after := by
  obtain ⟨started, middle, copied, ran⟩ := LocalAction.run_bind_eq_some ran
  rw [if_pos diffTest] at copied
  cases copied
  obtain ⟨pulsed, pulsedMem, pulse, idle⟩ := LocalAction.run_bind_eq_some ran
  have captured : Shadowed cfg
      { sim with
        model := Model.cycleDiffBegin cfg pmem sim.model
        pins := { sim.pins with launch := true } } pmem :=
    ⟨running, rfl, rfl, fun _ _ _ => rfl⟩
  have afterPulse := captured.tick mapped diffTest pulse
  have released : Shadowed cfg { pulsed with pins := { pulsed.pins with launch := false } }
      pulsedMem :=
    ⟨afterPulse.running, afterPulse.active, afterPulse.size, afterPulse.same⟩
  exact released.tick mapped diffTest idle

/-! ## What the calls keep -/

/-- A property of the driver that its calls keep. -/
structure KeptByCalls (cfg : Config) (build : Build) (holds : RtlSim V → Prop) : Prop where
  dcrWrite : ∀ {addr data : Word} {sim next : RtlSim V} {pmem after : Pmem},
    (sim.gpuRtlDcrWrite cfg build addr data).run pmem = some (next, after) →
    holds sim → holds next
  launch : ∀ {sim next : RtlSim V} {pmem after : Pmem},
    (sim.gpuRtlLaunch cfg build).run pmem = some (next, after) → holds sim → holds next
  wait : ∀ {maxCycles : Nat} {completed : Bool} {sim next : RtlSim V} {pmem after : Pmem},
    (sim.gpuRtlWait cfg build maxCycles).run pmem = some ((completed, next), after) →
    holds sim → holds next

/-- `gpu_rtl_wait` makes ticks and notes a difference of the memories. -/
theorem gpuRtlWait_keeps
    (holds : RtlSim V → Prop)
    (ticks : ∀ {sim next : RtlSim V} {pmem after : Pmem},
      (sim.tick cfg build).run pmem = some (next, after) → holds sim → holds next)
    (notes : ∀ {sim : RtlSim V} (diffFailed : Bool), holds sim →
      holds { sim with diffFailed := diffFailed })
    {maxCycles : Nat}
    {completed : Bool}
    (ran : (sim.gpuRtlWait cfg build maxCycles).run pmem = some ((completed, next), after))
    (start : holds sim) :
    holds next := by
  obtain ⟨⟨stop, reached⟩, middle, cycles, rest⟩ := LocalAction.run_bind_eq_some ran
  have ticked : ∀ (reached : RtlSim V) mem result after, holds reached →
      (waitCycle cfg build reached).run mem = some (result, after) →
      holds (Sum.elim Prod.snd id result) := by
    intro reached mem result after so ran
    obtain ⟨next, middle, ran, rest⟩ := LocalAction.run_bind_eq_some ran
    have kept := ticks ran so
    split_ifs at rest <;> cases rest <;> exact kept
  have kept : holds reached :=
    LocalAction.loop_induct (fun (reached : RtlSim V) _ => holds reached)
      (fun result _ => holds result.2)
      (fun reached mem result after so ran => ticked reached mem (.inl result) after so ran)
      (fun reached mem next after so ran => ticked reached mem (.inr next) after so ran)
      (fun _ _ so => so) start cycles
  cases stop with
  | fault =>
      cases rest
      exact kept
  | limit =>
      cases rest
      exact kept
  | rest =>
      dsimp only at rest
      split_ifs at rest
      · obtain ⟨same, last, _, finished⟩ := LocalAction.run_bind_eq_some rest
        cases finished
        exact notes _ kept
      · cases rest
        exact kept

theorem tickWith_pins
    {pins : TopPins}
    (ran : (sim.tickWith cfg build pins).run pmem = some (next, after)) :
    next.pins = pins := tick_pins ran

/-- A property of the pins that survives the end of a configuration write and of the launch
pulse. -/
theorem keptByCalls_pins
    (holds : TopPins → Prop)
    (written : ∀ {pins : TopPins} (addr data : Word), holds pins →
      holds { pins with dcrAddr := addr, dcrData := data, dcrValid := false })
    (pulsed : ∀ {pins : TopPins}, holds pins → holds { pins with launch := false }) :
    KeptByCalls cfg build fun sim : RtlSim V => holds sim.pins where
  dcrWrite := by
    intro addr data sim next pmem after ran start
    obtain ⟨ticked, middle, ticks, rest⟩ := LocalAction.run_bind_eq_some ran
    cases rest
    dsimp only
    rw [tickWith_pins ticks]
    exact @written sim.pins addr data start
  launch := by
    intro sim next pmem after ran start
    obtain ⟨started, middle, copied, ticks⟩ := LocalAction.run_bind_eq_some ran
    obtain ⟨up, upMem, pulse, idle⟩ := LocalAction.run_bind_eq_some ticks
    have kept : holds started.pins := by
      split_ifs at copied <;> cases copied <;> exact start
    rw [tickWith_pins idle, tickWith_pins pulse]
    exact @pulsed started.pins kept
  wait := by
    intro maxCycles completed sim next pmem after ran start
    refine gpuRtlWait_keeps (fun reached => holds reached.pins) (fun ran start => ?_)
      (fun _ start => start) ran start
    rwa [tick_pins ran]

/-- No call asserts the reset pin. -/
theorem keptByCalls_released :
    KeptByCalls cfg build fun sim : RtlSim V => sim.pins.reset = false :=
  keptByCalls_pins (fun pins => pins.reset = false) (fun _ _ low => low) fun low => low

/-- A property of the netlist and of the snapshot that ticks keep. -/
theorem keptByCalls_netlist
    (holds : V.State → DpiState → Prop)
    (ticks : ∀ {sim next : RtlSim V} {pmem after : Pmem},
      (sim.tick cfg build).run pmem = some (next, after) →
      holds sim.top sim.dpi → holds next.top next.dpi) :
    KeptByCalls cfg build fun sim : RtlSim V => holds sim.top sim.dpi where
  dcrWrite := by
    intro addr data sim next pmem after ran start
    obtain ⟨ticked, middle, wrote, rest⟩ := LocalAction.run_bind_eq_some ran
    cases rest
    have moved : holds ticked.top ticked.dpi := ticks wrote start
    exact moved
  launch := by
    intro sim next pmem after ran start
    obtain ⟨started, middle, copied, ran⟩ := LocalAction.run_bind_eq_some ran
    obtain ⟨up, upMem, pulse, idle⟩ := LocalAction.run_bind_eq_some ran
    have kept : holds started.top started.dpi := by
      split_ifs at copied <;> cases copied <;> exact start
    have raised : holds up.top up.dpi := ticks pulse kept
    exact ticks idle raised
  wait := by
    intro maxCycles completed sim next pmem after ran start
    exact gpuRtlWait_keeps (fun reached => holds reached.top reached.dpi) ticks
      (fun _ start => start) ran start

/-- `gpu_rtl_init` ends with a tick after the reset pin has been released. -/
theorem gpuRtlInit_tick
    (ran : (gpuRtlInit cfg build : PmemAction (RtlSim V)).run pmem = some (next, after)) :
    ∃ (model : Model) (cleared asserted : RtlSim V) (start middle : Pmem),
      (({ created with
          model := model
          pins := { (created : RtlSim V).pins with reset := true } } : RtlSim V).tick
        cfg build).run start = some (asserted, middle) ∧
      cleared.top = asserted.top ∧ cleared.dpi = asserted.dpi ∧
      cleared.pins = { asserted.pins with reset := false } ∧
      (cleared.tick cfg build).run middle = some (next, after) := by
  obtain ⟨model, modelMem, _, fromModel⟩ := LocalAction.run_bind_eq_some ran
  obtain ⟨cleared, clearedMem, resetRan, ticks⟩ := LocalAction.run_bind_eq_some fromModel
  obtain ⟨asserted, assertedMem, ran, released⟩ := LocalAction.run_bind_eq_some resetRan
  cases released
  dsimp only at ticks
  refine ⟨model, _, asserted, modelMem, _, ran, ?_, ?_, ?_, ticks⟩ <;> rfl

/-- Afterwards the reset pin and the launch pin are low. -/
theorem gpuRtlInit_pins
    (ran : (gpuRtlInit cfg build : PmemAction (RtlSim V)).run pmem = some (next, after)) :
    next.pins = ⟨false, false, 0, 0, false⟩ := by
  obtain ⟨_, cleared, asserted, _, _, up, _, _, pins, ticks⟩ := gpuRtlInit_tick ran
  rw [tick_pins ticks, pins, tick_pins up]
  rfl

end RtlSim

end OpenGPU
