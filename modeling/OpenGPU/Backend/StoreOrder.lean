import OpenGPU.Backend.Shadow
import OpenGPU.Backend.VerilogNetlist
import OpenGPU.Foundation.WriteList

/-!
# The order of simultaneous stores

Several cores can store in one cycle. In DiffTest the driver applies the stores that
the netlist reports core by core, while the cycle model sorts the stores that it
expects and applies them in that order. Equal multisets of stores leave equal images
exactly when, at every byte, the last core that stores there stores what the greatest
of the stores there does.
-/

namespace OpenGPU

namespace Store

/-- The store writes the byte at `a`. -/
def writes (s : Store) (a : Word) : Bool :=
  decide ((a - s.addr).toNat < 4) && s.mask.getLsbD (a - s.addr).toNat

/-- What the store writes at `a`. -/
def byteAt (s : Store) (a : Word) : Byte := wordByte s.data (a - s.addr).toNat

theorem writes_iff
    (s : Store)
    (a : Word) :
    s.writes a = true ↔
      (a - s.addr).toNat < 4 ∧ s.mask.getLsbD (a - s.addr).toNat = true := by
  rw [writes, Bool.and_eq_true, decide_eq_true_iff]

/-- `std::sort` orders by address, then by mask, then by data. -/
theorem not_lt_iff
    (a b : Store) :
    (!b.lt a) = true ↔
      a.addr.toNat < b.addr.toNat ∨ a.addr = b.addr ∧
        (a.mask.toNat < b.mask.toNat ∨ a.mask = b.mask ∧ a.data.toNat ≤ b.data.toNat) := by
  have addr := @BitVec.toNat_inj 32 a.addr b.addr
  have mask := @BitVec.toNat_inj 8 a.mask b.mask
  unfold lt
  split_ifs with otherAddr otherMask
  · simp only [Bool.not_eq_true', decide_eq_false_iff_not, BitVec.lt_def, ← addr]
    have other := mt addr.mp otherAddr.symm
    omega
  · simp only [Bool.not_eq_true', decide_eq_false_iff_not, BitVec.lt_def, ← mask]
    have other := mt mask.mp otherMask.symm
    have here := addr.mpr (not_not.mp otherAddr).symm
    simp only [← addr]
    omega
  · simp only [Bool.not_eq_true', decide_eq_false_iff_not, BitVec.lt_def]
    have here := addr.mpr (not_not.mp otherAddr).symm
    have same := mask.mpr (not_not.mp otherMask).symm
    simp only [← addr, ← mask]
    omega

theorem not_lt_trans
    (a b c : Store)
    (first : (!b.lt a) = true)
    (second : (!c.lt b) = true) :
    (!c.lt a) = true := by
  rw [not_lt_iff] at first second ⊢
  simp only [← BitVec.toNat_inj] at first second ⊢
  omega

theorem not_lt_total
    (a b : Store) :
    (!b.lt a || !a.lt b) = true := by
  rw [Bool.or_eq_true, not_lt_iff, not_lt_iff]
  simp only [← BitVec.toNat_inj]
  omega

/-- The order is linear: stores that are not below each other are equal. -/
theorem eq_of_not_lt
    {a b : Store}
    (below : (!b.lt a) = true)
    (above : (!a.lt b) = true) :
    a = b := by
  rw [not_lt_iff] at below above
  obtain ⟨addr, data, mask⟩ := a
  obtain ⟨otherAddr, otherData, otherMask⟩ := b
  simp only [← BitVec.toNat_inj] at below above
  rw [mk.injEq, ← BitVec.toNat_inj, ← BitVec.toNat_inj, ← BitVec.toNat_inj]
  omega

/-- At every byte of physical memory the last of the stores that write it writes the
same value as the greatest of them. -/
def LastIsGreatest (cfg : Config) (stores : List Store) : Prop :=
  ∀ a, inPmem cfg a = true →
    ∀ last ∈ (stores.filter fun s => s.writes a).getLast?,
      ∀ greatest ∈ stores, greatest.writes a = true →
        (∀ s ∈ stores, s.writes a = true → greatest.lt s = false) →
          last.byteAt a = greatest.byteAt a

/-- Equal images before stores that are applied in two orders are equal afterwards
exactly when the last stores are the greatest. -/
theorem replay_sort_iff
    {cfg : Config}
    {stores : List Store}
    {pmem shadow : Pmem}
    (same : ∀ a, inPmem cfg a = true → pmem a = shadow a) :
    (∀ a, inPmem cfg a = true →
        replay writes byteAt stores pmem a =
          replay writes byteAt (stores.mergeSort fun a b => !b.lt a) shadow a) ↔
      LastIsGreatest cfg stores := by
  refine forall₂_congr fun a inside => ?_
  have sorted := (List.pairwise_mergeSort not_lt_trans not_lt_total stores).filter
    fun s => s.writes a
  rw [replay_apply_eq_iff writes byteAt (List.mergeSort_perm stores _).symm (same a inside)]
  refine forall₂_congr fun last isLast => ?_
  constructor
  · intro agree greatest member covers above
    -- the last store of the sorted list is a greatest one as well
    have inSorted : greatest ∈ (stores.mergeSort fun a b => !b.lt a).filter fun s => s.writes a :=
      List.mem_filter.mpr ⟨List.mem_mergeSort.mpr member, covers⟩
    obtain ⟨top, isTop⟩ : ∃ top, top ∈
        ((stores.mergeSort fun a b => !b.lt a).filter fun s => s.writes a).getLast? :=
      Option.isSome_iff_exists.mp
        (List.getLast?_isSome.mpr (List.ne_nil_of_mem inSorted))
    obtain ⟨topMember, topCovers⟩ := List.mem_filter.mp (List.mem_of_getLast? isTop)
    have below := le_getLast_of_pairwise (fun s => by simpa using not_lt_total s s) sorted isTop
      inSorted
    have top_le := above top (List.mem_mergeSort.mp topMember) topCovers
    rw [agree top isTop, eq_of_not_lt below (by rw [top_le]; rfl)]
  · intro agree top isTop
    obtain ⟨topMember, topCovers⟩ := List.mem_filter.mp (List.mem_of_getLast? isTop)
    refine agree top (List.mem_mergeSort.mp topMember) topCovers fun s member covers => ?_
    have below := le_getLast_of_pairwise (fun s => by simpa using not_lt_total s s) sorted isTop
      (List.mem_filter.mpr ⟨List.mem_mergeSort.mpr member, covers⟩)
    simpa using below

end Store

/-! ## Applying the stores -/

/-- A masked write that succeeds has written the bytes under the mask. -/
theorem dpiPaddrWrite_eq_some
    {cfg : Config}
    {pmem after : Pmem}
    {addr data : Word}
    {mask : Byte}
    (ran : dpiPaddrWrite cfg pmem addr mask data = some after) :
    after = maskedWrite pmem addr mask data := by
  rw [dpiPaddrWrite_eq] at ran
  split_ifs at ran
  exact (Option.some.inj ran).symm

namespace Model

variable {cfg : Config}

/-- A store of the cycle model writes what it covers in the window. -/
theorem storeRef_bytes
    {s : Store}
    {mem : ShadowMemory}
    (whole : mem.size = cfg.msize.toNat)
    (fits : s.addr.toNat + 4 ≤ 2 ^ 32)
    {a : Word}
    (inside : inPmem cfg a = true) :
    (storeRef cfg mem s).bytes a = if s.writes a then s.byteAt a else mem.bytes a := by
  have window := (inPmem_iff cfg a).mp inside
  have distance : ∀ byte, byte < 4 → (BitVec.ofNat 32 (s.addr.toNat + byte) = a ↔
      (a - s.addr).toNat = byte) := by
    intro byte inWord
    have bound := a.isLt
    rw [← BitVec.toNat_inj, BitVec.toNat_ofNat, BitVec.toNat_sub]
    omega
  have prefixes : ∀ count, count ≤ 4 →
      ((List.range count).foldl (storeByte cfg s) mem).size = mem.size ∧
        ((List.range count).foldl (storeByte cfg s) mem).bytes a =
          if (a - s.addr).toNat < count ∧ s.mask.getLsbD (a - s.addr).toNat = true then s.byteAt a
          else mem.bytes a := by
    intro count
    induction count with
    | zero => exact fun _ => ⟨rfl, (if_neg fun both => Nat.not_lt_zero _ both.1).symm⟩
    | succ count inductionHypothesis =>
        intro within
        obtain ⟨size, early⟩ := inductionHypothesis (by omega)
        rw [List.range_succ, List.foldl_append, List.foldl_cons, List.foldl_nil]
        generalize (List.range count).foldl (storeByte cfg s) mem = reached at size early
        have place := distance count within
        unfold storeByte
        rw [hasLane_eq_getLsbD]
        rcases eq_or_ne (a - s.addr).toNat count with here | elsewhere
        · rw [here] at early ⊢
          rw [if_neg (by omega)] at early
          cases enabled : s.mask.getLsbD count with
          | false => exact ⟨size, early.trans (if_neg fun both => Bool.false_ne_true both.2).symm⟩
          | true =>
              have address := congrArg BitVec.toNat (place.mpr here)
              rw [BitVec.toNat_ofNat, Nat.mod_eq_of_lt (by omega)] at address
              rw [if_pos rfl, if_neg (by omega)]
              refine ⟨size, ?_⟩
              rw [if_pos ⟨Nat.lt_succ_self count, rfl⟩, Store.byteAt, here]
              exact (congrArg _ (place.mpr here).symm).trans (Function.update_self _ _ _)
        · have other := mt place.mp elsewhere
          have range : (a - s.addr).toNat < count + 1 ∧ s.mask.getLsbD (a - s.addr).toNat = true ↔
              (a - s.addr).toNat < count ∧ s.mask.getLsbD (a - s.addr).toNat = true :=
            and_congr_left fun _ => by omega
          rw [if_congr range rfl rfl, ← early]
          dsimp only
          split_ifs
          · exact ⟨size, rfl⟩
          · exact ⟨size, Function.update_of_ne (Ne.symm other) _ _⟩
          · exact ⟨size, rfl⟩
  rw [storeRef, (prefixes 4 (le_refl 4)).2]
  exact if_congr (Store.writes_iff s a).symm rfl rfl

/-- So do its stores one after another. -/
theorem storeRefs_bytes
    {stores : List Store}
    {mem : ShadowMemory}
    (whole : mem.size = cfg.msize.toNat)
    (fits : ∀ s ∈ stores, s.addr.toNat + 4 ≤ 2 ^ 32)
    {a : Word}
    (inside : inPmem cfg a = true) :
    (stores.foldl (storeRef cfg) mem).bytes a =
      replay Store.writes Store.byteAt stores mem.bytes a := by
  induction stores generalizing mem with
  | nil => rfl
  | cons s stores inductionHypothesis =>
      rw [List.foldl_cons, inductionHypothesis ((storeRef_cases s mem a).1.trans whole)
        fun other member => fits other (List.mem_cons_of_mem _ member)]
      apply replay_congr
      exact storeRef_bytes whole (fits s List.mem_cons_self) inside

/-- The stores that the cycle model expects are stores of words. -/
theorem expectedStores_fits
    {m : Model}
    {s : Store}
    (member : s ∈ m.expectedStores cfg) :
    s.addr.toNat + 4 ≤ 2 ^ 32 := by
  rw [expectedStores, List.mem_mergeSort, List.mem_filterMap] at member
  obtain ⟨core, _, captured⟩ := member
  unfold captureStore at captured
  split_ifs at captured
  cases captured
  have bound := ((m.cores core).memoryAddress cfg).isLt
  show (wordAddress ((m.cores core).memoryAddress cfg)).toNat + 4 ≤ 2 ^ 32
  rw [toNat_wordAddress, wordOffset_eq_mod]
  omega

/-- Outside reset a step expects the sorted stores and applies them. -/
theorem tick_stores
    {m next : Model}
    {inputs : Inputs}
    (running : inputs.reset = false)
    (ran : m.tick cfg inputs = some next) :
    next.expected = m.expectedStores cfg ∧
      (∀ s ∈ next.expected, s.addr.toNat + 4 ≤ 2 ^ 32) ∧
      next.mem = next.expected.foldl (storeRef cfg) m.mem := by
  unfold tick cycleDiffStep at ran
  rw [show (cycleDiffSetInputs inputs m).inputs.reset = false from running,
    if_neg Bool.false_ne_true] at ran
  split_ifs at ran
  obtain ⟨_, mem, expected⟩ := pack_keeps ran
  rw [mem, expected]
  exact ⟨rfl, fun s member => expectedStores_fits member, rfl⟩

end Model

namespace RtlSim

variable {V : VGPUTop} {cfg : Config} {build : Build} {sim next : RtlSim V} {pmem after : Pmem}

/-- The store that `tick` takes from a core, as it is recorded. -/
def takenStore (cfg : Config) (sim : RtlSim V) (core : Nat) : Option Store :=
  if sim.dpi.diffState (23 + core * diffCoreWords cfg + 23) ≠ 0 then
    let store := sim.reportedStore cfg core
    some { store with data := if store.mask = 0 then 0 else store.data }
  else none

/-- The stores of a cycle in the order of the cores. -/
def reportedStores (cfg : Config) (sim : RtlSim V) : List Store :=
  (List.range cfg.numCores).filterMap (sim.takenStore cfg)

/-- A cycle of a comparison is about to begin. -/
structure Comparing (cfg : Config) (sim : RtlSim V) : Prop where
  running : sim.pins.reset = false
  active : sim.model.active = true
  size : sim.model.mem.size = cfg.msize.toNat
  none : sim.actual = []

/-- Physical memory and the shadow memory hold the same image. -/
def SameImages (cfg : Config) (sim : RtlSim V) (pmem : Pmem) : Prop :=
  ∀ a, inPmem cfg a = true → pmem a = sim.model.mem.bytes a

/-- A recorded store writes what was written to physical memory. -/
theorem maskedWrite_eq
    (addr data : Word)
    (mask : Byte)
    (pmem : Pmem) :
    maskedWrite pmem addr mask data = fun a =>
      if Store.writes ⟨addr, if mask = 0 then 0 else data, mask⟩ a then
        Store.byteAt ⟨addr, if mask = 0 then 0 else data, mask⟩ a
      else pmem a := by
  funext a
  have covers := Store.writes_iff ⟨addr, if mask = 0 then 0 else data, mask⟩ a
  refine if_ctx_congr covers.symm (fun covered => ?_) fun _ => rfl
  have lane := (covers.mp covered).2
  rw [Store.byteAt]
  split_ifs with nothing
  · subst nothing
    exact absurd lane (by simp)
  · rfl

/-- The loop over the cores applies and records their stores. -/
theorem takeStores_spec
    {cores : List Nat}
    (active : sim.model.active = true)
    (ran : (cores.foldlM (takeStore cfg) sim).run pmem = some (next, after)) :
    next.pins = sim.pins ∧ next.model = sim.model ∧
      next.actual = sim.actual ++ cores.filterMap (sim.takenStore cfg) ∧
      after = replay Store.writes Store.byteAt (cores.filterMap (sim.takenStore cfg)) pmem := by
  induction cores generalizing sim pmem with
  | nil =>
      cases ran
      exact ⟨rfl, rfl, (List.append_nil _).symm, rfl⟩
  | cons core cores inductionHypothesis =>
      rw [List.foldlM_cons] at ran
      obtain ⟨taken, middle, one, rest⟩ := LocalAction.run_bind_eq_some ran
      unfold takeStore at one
      split_ifs at one with wen
      · obtain ⟨_, written, stored, finished⟩ := LocalAction.run_bind_eq_some one
        cases finished
        rw [PmemAction.run_dpiPaddrWrite, Option.map_eq_some_iff] at stored
        obtain ⟨_, stored, same⟩ := stored
        cases same
        have observed : sim.cycleDiffObserveStore (sim.reportedStore cfg core) =
            { sim with actual := sim.actual ++ (sim.takenStore cfg core).toList } := by
          rw [cycleDiffObserveStore, active, if_pos rfl, takenStore, if_pos wen]
          rfl
        rw [observed] at rest
        obtain ⟨pins, model, recorded, image⟩ := @inductionHypothesis
          { sim with actual := sim.actual ++ (sim.takenStore cfg core).toList } middle active rest
        refine ⟨pins, model, ?_, ?_⟩
        · rw [recorded, List.filterMap_cons, takenStore, if_pos wen]
          exact List.append_assoc _ _ _
        · rw [image, dpiPaddrWrite_eq_some stored, maskedWrite_eq, List.filterMap_cons,
            takenStore, if_pos wen]
          rfl
      · cases one
        obtain ⟨pins, model, recorded, image⟩ := inductionHypothesis active rest
        have nothing : sim.takenStore cfg core = Option.none := if_neg wen
        rw [List.filterMap_cons, nothing]
        exact ⟨pins, model, recorded, image⟩

/-- What the half of a tick before the edge does to both images. -/
theorem beforeEdge_images
    (comparing : sim.Comparing cfg)
    (ran : (sim.beforeEdge cfg).run pmem = some (next, after)) :
    next.actual = sim.reportedStores cfg ∧
      next.model.expected = sim.model.expectedStores cfg ∧
      after = replay Store.writes Store.byteAt (sim.reportedStores cfg) pmem ∧
      ∀ a, inPmem cfg a = true → next.model.mem.bytes a =
        replay Store.writes Store.byteAt next.model.expected sim.model.mem.bytes a := by
  obtain ⟨taken, middle, folded, stepped⟩ := LocalAction.run_bind_eq_some ran
  obtain ⟨pins, same, recorded, image⟩ := takeStores_spec comparing.active folded
  obtain ⟨model, rest, lifted, finished⟩ := LocalAction.run_bind_eq_some stepped
  rw [LocalAction.run_ofOption] at lifted
  obtain ⟨_, ticked, result⟩ := Option.map_eq_some_iff.mp lifted
  cases result
  cases finished
  rw [pins, same, comparing.running] at ticked
  obtain ⟨expected, fits, mem⟩ := Model.tick_stores rfl ticked
  refine ⟨?_, expected, image, fun a inside => ?_⟩
  · dsimp only
    rw [pins, comparing.running, if_neg Bool.false_ne_true, recorded, comparing.none]
    rfl
  · dsimp only
    rw [mem]
    exact Model.storeRefs_bytes comparing.size fits inside

/-- Every tick of a comparison leaves the next one ready. -/
theorem Comparing.tick
    (diffTest : build.diffTest = true)
    (comparing : sim.Comparing cfg)
    (ran : (sim.tick cfg build).run pmem = some (next, after)) :
    next.Comparing cfg := by
  obtain ⟨first, second, third, fourth, evaluated, before, rose, settled, compared⟩ :=
    tick_diffTest diffTest ran
  obtain ⟨⟨_, _, rfl⟩, _⟩ := evalTop_spec evaluated
  obtain ⟨taken, model, took, ticked, rfl⟩ := beforeEdge_spec before
  obtain ⟨⟨_, _, rfl⟩, _⟩ := evalTop_spec rose
  obtain ⟨⟨_, _, rfl⟩, _⟩ := evalTop_spec settled
  obtain ⟨_, failed, rfl⟩ := afterEdge_frame compared
  have stepped := Model.tick_mem comparing.running ticked 0
  exact
    { running := (congrArg TopPins.reset took.pins).trans comparing.running
      active := stepped.1.trans comparing.active
      size := stepped.2.1.trans comparing.size
      none := rfl }

/-- Accepted transactions are replayed in both orders. -/
theorem sameImages_iff_replay
    (comparing : sim.Comparing cfg)
    (ran : (sim.beforeEdge cfg).run pmem = some (next, after))
    (accepted : next.cycleDiffCheckStores = true) :
    next.SameImages cfg after ↔ ∀ a, inPmem cfg a = true →
      replay Store.writes Store.byteAt (sim.reportedStores cfg) pmem a =
        replay Store.writes Store.byteAt ((sim.reportedStores cfg).mergeSort fun a b => !b.lt a)
          sim.model.mem.bytes a := by
  obtain ⟨recorded, _, image, shadow⟩ := beforeEdge_images comparing ran
  have sorted : (sim.reportedStores cfg).mergeSort (fun a b => !b.lt a) = next.model.expected := by
    rw [← recorded]
    exact beq_iff_eq.mp accepted
  refine forall₂_congr fun a inside => ?_
  rw [image, shadow a inside, sorted]

/-- Transactions that are accepted leave equal images equal exactly when, at every
byte, the last core that stores there stores what the greatest of the stores there
does. -/
theorem sameImages_iff_lastIsGreatest
    (comparing : sim.Comparing cfg)
    (same : sim.SameImages cfg pmem)
    (ran : (sim.beforeEdge cfg).run pmem = some (next, after))
    (accepted : next.cycleDiffCheckStores = true) :
    next.SameImages cfg after ↔ Store.LastIsGreatest cfg (sim.reportedStores cfg) := by
  rw [sameImages_iff_replay comparing ran accepted]
  exact Store.replay_sort_iff same

/-! ## Two cores that store to one word -/

/-- A core that is about to perform `sw x11, 0(x10)` at the start of the heap. -/
def storing (value : Word) : Core :=
  { Core.fresh with
    state := .memReq
    ctaActive := true
    im := 1
    inst := 0x00b52023
    gpr := fun _ r => if r = 10 then 0x82000000 else if r = 11 then value else 0 }

/-- The cycle model with two such cores and a cleared memory. -/
def racingModel (first second : Word) : Model :=
  { Model.fresh with
    active := true
    cores := fun i => storing (if i = 0 then first else second)
    mem := ⟨fun _ => 0, Config.twoCores.msize.toNat⟩ }

/-- A comparison in which the netlist reports exactly the state of the model. -/
def racing (first second : Word) : RtlSim (Verilog.vgpuTop Config.twoCores) :=
  { created with
    dpi :=
      { DpiState.dpiDiffReset with
        diffState := applyWrites ((racingModel first second).packWrites Config.twoCores) fun _ => 0 }
    model := racingModel first second }

theorem racing_comparing
    (first second : Word) :
    (racing first second).Comparing Config.twoCores ∧
      (racing first second).SameImages Config.twoCores fun _ => 0 :=
  ⟨⟨rfl, rfl, rfl, rfl⟩, fun _ _ => rfl⟩

/-- Such a cycle is accepted. -/
theorem racing_accepted
    {first second : Word}
    (runs : (((racing first second).beforeEdge Config.twoCores).run fun _ => 0).isSome = true)
    (stores : (racing first second).reportedStores Config.twoCores =
      (List.range 2).filterMap fun i =>
        Model.captureStore Config.twoCores ((racingModel first second).cores i)) :
    ∃ next after,
      ((racing first second).beforeEdge Config.twoCores).run (fun _ => 0) = some (next, after) ∧
        next.cycleDiffCheckStores = true := by
  obtain ⟨⟨next, after⟩, ran⟩ := Option.isSome_iff_exists.mp runs
  refine ⟨next, after, ran, ?_⟩
  obtain ⟨recorded, expected, _, _⟩ := beforeEdge_images (racing_comparing first second).1 ran
  rw [cycleDiffCheckStores, recorded, expected, stores]
  exact beq_self_eq_true _

/-- The last core stores the greater word: the images stay equal. -/
theorem sameImages_racing :
    ∃ next after,
      ((racing 1 2).beforeEdge Config.twoCores).run (fun _ => 0) = some (next, after) ∧
        (next.SameImages Config.twoCores after ↔
          Store.LastIsGreatest Config.twoCores ((racing 1 2).reportedStores Config.twoCores)) := by
  obtain ⟨next, after, ran, accepted⟩ :=
    @racing_accepted 1 2 (by decide +kernel) (by decide +kernel)
  obtain ⟨comparing, same⟩ := racing_comparing 1 2
  exact ⟨next, after, ran, sameImages_iff_lastIsGreatest comparing same ran accepted⟩

/-- The last core stores the smaller word: the images differ, although the transactions
were accepted. -/
theorem sameImages_lost :
    ∃ next after,
      (racing 2 1).Comparing Config.twoCores ∧
        (racing 2 1).SameImages Config.twoCores (fun _ => 0) ∧
        ((racing 2 1).beforeEdge Config.twoCores).run (fun _ => 0) = some (next, after) ∧
        next.cycleDiffCheckStores = true ∧ ¬next.SameImages Config.twoCores after := by
  obtain ⟨next, after, ran, accepted⟩ :=
    @racing_accepted 2 1 (by decide +kernel) (by decide +kernel)
  obtain ⟨comparing, same⟩ := racing_comparing 2 1
  refine ⟨next, after, comparing, same, ran, accepted, fun equal => ?_⟩
  have stores : (racing 2 1).reportedStores Config.twoCores =
      [⟨0x82000000, 2, 15⟩, ⟨0x82000000, 1, 15⟩] := by decide +kernel
  have greatest := (Store.replay_sort_iff same).mp
    ((sameImages_iff_replay comparing ran accepted).mp equal)
  rw [stores] at greatest
  have sameByte := greatest 0x82000000 (by decide) ⟨0x82000000, 1, 15⟩ (by decide)
    ⟨0x82000000, 2, 15⟩ (by decide) (by decide) (by decide)
  exact absurd sameByte (by decide)

end RtlSim

end OpenGPU
