import OpenGPU.Backend.StoreOrder
import OpenGPU.Lockstep.NetlistEval

/-!
# The parts of a DiffTest tick on the SystemVerilog GPU

The driver takes the stores of the netlist, steps the cycle model, moves the netlist and
compares. Equal images answer alike, and the stores that equal states report are the ones
that the model expects.
-/

namespace OpenGPU

open Verilog

namespace RtlSim

section Parts

variable {V : VGPUTop} {cfg : Config} {sim next : RtlSim V} {pmem after : Pmem}

/-- Taking stores changes the recorded stores only. -/
theorem takeStore_frame
    {core : Nat}
    (ran : (sim.takeStore cfg core).run pmem = some (next, after)) :
    ∃ actual, next = { sim with actual := actual } := by
  unfold takeStore at ran
  split_ifs at ran
  · obtain ⟨_, _, _, rest⟩ := LocalAction.run_bind_eq_some ran
    cases rest
    unfold cycleDiffObserveStore
    split_ifs
    all_goals exact ⟨_, rfl⟩
  · cases ran
    exact ⟨sim.actual, rfl⟩

/-- The half of a tick before the edge changes the model and the recorded stores only. -/
theorem beforeEdge_frame
    (ran : (sim.beforeEdge cfg).run pmem = some (next, after)) :
    ∃ model actual, next = { sim with model := model, actual := actual } := by
  obtain ⟨taken, middle, folded, stepped⟩ := LocalAction.run_bind_eq_some ran
  have frame : ∃ actual, taken = { sim with actual := actual } := by
    refine LocalAction.foldlM_induct (fun (state : RtlSim V) _ => ∃ actual,
      state = { sim with actual := actual }) ?_ ⟨sim.actual, rfl⟩ folded
    rintro state core mem next after ⟨_, rfl⟩ ran
    obtain ⟨_, rfl⟩ := takeStore_frame ran
    exact ⟨_, rfl⟩
  obtain ⟨_, rfl⟩ := frame
  obtain ⟨model, rest, lifted, finished⟩ := LocalAction.run_bind_eq_some stepped
  cases finished
  exact ⟨_, _, rfl⟩

/-- Before the edge the model makes its step. -/
theorem beforeEdge_model
    (ran : (sim.beforeEdge cfg).run pmem = some (next, after)) :
    sim.model.tick cfg ⟨sim.pins.reset, sim.pins.dcrValid, sim.pins.dcrAddr, sim.pins.dcrData,
      sim.pins.launch⟩ = some next.model := by
  obtain ⟨taken, model, took, ticked, rfl⟩ := beforeEdge_spec ran
  exact ticked

/-- If the netlist reports no store, the half of a tick before the edge leaves memory
alone. -/
theorem beforeEdge_of_no_store
    (none : sim.reportedStores cfg = [])
    (ran : (sim.beforeEdge cfg).run pmem = some (next, after)) :
    after = pmem ∧ next.actual = if sim.pins.reset then [] else sim.actual := by
  have idle : ∀ core ∈ List.range cfg.numCores, sim.takeStore cfg core = pure sim := by
    intro core member
    have nothing := List.filterMap_eq_nil_iff.mp none core member
    unfold takenStore at nothing
    split_ifs at nothing with wen
    exact if_neg wen
  have nothing := (@LocalAction.looks_foldlM _ _ _ Set.univ pmem _ _ sim _ idle).2
  obtain ⟨taken, middle, folded, stepped⟩ := LocalAction.run_bind_eq_some ran
  obtain ⟨model, rest, lifted, finished⟩ := LocalAction.run_bind_eq_some stepped
  rw [LocalAction.run_ofOption] at lifted
  obtain ⟨_, _, same⟩ := Option.map_eq_some_iff.mp lifted
  cases nothing.symm.trans folded
  cases same
  cases finished
  exact ⟨rfl, rfl⟩

/-- When a comparison passes. -/
theorem afterEdge_iff
    (ran : (sim.afterEdge cfg).run pmem = some (next, after)) :
    next.diffFailed = false ↔
      (sim.diffFailed = false ∧ sim.dpi.diffFailed = false ∧
        sim.cycleDiffCheckStores = true ∧ sim.sameWords cfg = true) ∧
      (sim.model.active = true → cfg.msize.toNat = sim.model.mem.size ∧
        ∀ a ∈ sim.dirtyBytes cfg, pmem a = sim.model.mem.bytes a) := by
  obtain ⟨same, middle, compared, rest⟩ := LocalAction.run_bind_eq_some ran
  have verdict : next.diffFailed = !same := by
    cases rest
    rfl
  rw [verdict, Bool.not_eq_false']
  split_ifs at compared with differs
  · cases compared
    simp only [Bool.or_eq_true, Bool.not_eq_true'] at differs
    constructor
    · exact fun passed => Bool.noConfusion passed
    · rintro ⟨⟨failed, failedToo, stores, words⟩, _⟩
      simp [failed, failedToo, stores, words] at differs
  · simp only [Bool.or_eq_true, Bool.not_eq_true', not_or, Bool.not_eq_true,
      Bool.not_eq_false] at differs
    obtain ⟨⟨⟨failed, failedToo⟩, stores⟩, words⟩ := differs
    rw [and_iff_right ⟨failed, failedToo, stores, words⟩]
    unfold cycleDiffCheckMemory at compared
    simp only [Bool.false_eq_true, if_false] at compared
    split_ifs at compared with inactive size
    · cases compared
      simp only [Bool.not_eq_true'] at inactive
      simp [inactive]
    · cases compared
      simp only [Bool.not_eq_true', Bool.not_eq_false] at inactive
      simp [inactive, size]
    · cases compared
      simp only [Bool.not_eq_true', Bool.not_eq_false] at inactive
      simp [inactive, not_not.mp size]

end Parts

/-! ## Memory -/

section Images

variable {V : VGPUTop} {cfg : Config} {build : Build} {sim next : RtlSim V} {pmem after : Pmem}

/-- A read of physical memory that returns answers as the copy does. -/
theorem load32_of_dpiPaddrRead
    {mem : ShadowMemory}
    (size : mem.size = cfg.msize.toNat)
    (same : ∀ a, inPmem cfg a = true → pmem a = mem.bytes a)
    {addr data : Word}
    (read : dpiPaddrRead cfg pmem addr = some data) :
    data = load32 cfg mem addr := by
  have window := inPmem_iff cfg addr
  have base := cfg.mbase_aligned
  have length := cfg.msize_aligned
  have room := cfg.pmem_fits
  have bound := addr.isLt
  have small := cfg.msize.isLt
  unfold dpiPaddrRead paddrRead at read
  unfold load32
  have below := @BitVec.lt_def 32 addr cfg.mbase
  rw [size]
  split_ifs at read with inside whole
  · cases read
    have first := window.mp inside
    rw [accessInPmem, Bool.and_eq_true, inPmem_iff, inPmem_iff, BitVec.toNat_sub,
      BitVec.toNat_add, BitVec.toNat_ofNat, show (1 : Word).toNat = 1 from rfl] at whole
    rw [if_neg (by rw [below]; omega)]
    refine littleEndian_congr fun index inWord => same _ ?_
    rw [inPmem_iff, BitVec.toNat_add, BitVec.toNat_ofNat]
    omega
  · cases read
    have outside := mt window.mpr inside
    rw [if_pos (by rw [below]; omega)]

/-- A store of a word covers the places of the window that it writes. -/
theorem covers_iff
    {s : Store}
    (fits : s.addr.toNat + 4 ≤ 2 ^ 32)
    {a : Word}
    (inside : inPmem cfg a = true) :
    s.Covers cfg cfg.msize.toNat a ↔ s.writes a = true := by
  have window := (inPmem_iff cfg a).mp inside
  have bound := a.isLt
  rw [Store.writes_iff, BitVec.toNat_sub]
  constructor
  · rintro ⟨byte, inWord, lane, _, _, rfl⟩
    rw [BitVec.toNat_ofNat, show (2 ^ 32 - s.addr.toNat + (s.addr.toNat + byte) % 2 ^ 32) % 2 ^ 32 =
      byte by omega, ← hasLane_eq_getLsbD]
    exact ⟨inWord, lane⟩
  · rintro ⟨inWord, lane⟩
    have place : s.addr.toNat + (2 ^ 32 - s.addr.toNat + a.toNat) % 2 ^ 32 = a.toNat := by omega
    refine ⟨_, inWord, (hasLane_eq_getLsbD _ _).trans lane, ?_⟩
    rw [place, BitVec.ofNat_toNat, BitVec.setWidth_eq]
    exact ⟨window.1, window.2, rfl⟩

/-- After accepted transactions the bytes that the comparison looks at decide for all. -/
theorem dirtyBytes_iff
    (comparing : sim.Comparing cfg)
    (same : sim.SameImages cfg pmem)
    (ran : (sim.beforeEdge cfg).run pmem = some (next, after))
    (accepted : next.cycleDiffCheckStores = true) :
    (∀ a ∈ next.dirtyBytes cfg, after a = next.model.mem.bytes a) ↔
      next.SameImages cfg after := by
  have ticked := beforeEdge_model ran
  obtain ⟨_, fits, _⟩ := Model.tick_stores comparing.running ticked
  have size : next.model.mem.size = cfg.msize.toNat :=
    (Model.tick_mem comparing.running ticked 0).2.1.trans comparing.size
  obtain ⟨recorded, _, image, shadow⟩ := beforeEdge_images comparing ran
  have sorted : (sim.reportedStores cfg).mergeSort (fun a b => !b.lt a) = next.model.expected := by
    rw [← recorded]
    exact beq_iff_eq.mp accepted
  have dirty : ∀ a, inPmem cfg a = true →
      (a ∈ next.dirtyBytes cfg ↔ ∃ s ∈ next.model.expected, s.writes a = true) := by
    intro a inside
    rw [mem_dirtyBytes, size]
    exact exists_congr fun s => and_congr_right fun member => covers_iff (fits s member) inside
  constructor
  · intro compared a inside
    by_cases written : ∃ s ∈ next.model.expected, s.writes a = true
    · exact compared a ((dirty a inside).mpr written)
    · -- neither image has changed here
      have quiet : ∀ s ∈ next.model.expected, ¬s.writes a = true := fun s member writes =>
        written ⟨s, member, writes⟩
      rw [shadow a inside, replay_of_uncovered _ _ quiet, image, replay_of_uncovered]
      · exact same a inside
      · intro s member
        apply quiet s
        rw [← sorted]
        exact List.mem_mergeSort.mpr member
  · intro equal a member
    obtain ⟨s, _, byte, _, _, above, below, rfl⟩ := mem_dirtyBytes.mp member
    have room := cfg.pmem_fits
    rw [size] at below
    refine equal _ ((inPmem_iff cfg _).mpr ?_)
    rw [BitVec.toNat_ofNat]
    omega

end Images

/-! ## Stores -/

section Stores

variable {V : VGPUTop} {cfg : Config} {sim : RtlSim V} {ledgers : Nat → LaneLedger}

/-- A transaction has some byte. -/
theorem byteMask_ne_zero
    (f3 addr : Word) :
    (Model.byteMask f3 addr).setWidth 8 ≠ (0 : Byte) := by
  have small : (addr &&& 3).toNat < 4 := wordOffset_lt addr
  unfold Model.byteMask
  generalize (addr &&& 3).toNat = offset at small
  split_ifs <;> interval_cases offset <;> decide

/-- The store that is taken from a core is the one that the model captures. -/
theorem takenStore_eq
    (reachable : Model.Reachable cfg sim.model ledgers)
    (agree : ∀ word, word < Model.words cfg → sim.model.packed word = sim.dpi.diffState word)
    {i : Nat}
    (inRange : i < cfg.numCores)
    (atWork : (sim.model.cores i).state = .memReq → (sim.model.cores i).ctaActive = true) :
    sim.takenStore cfg i = Model.captureStore cfg (sim.model.cores i) := by
  obtain ⟨before, packed, defined, same, _, _, cores⟩ := reachable.isPacked
  have within : (i + 1) * diffCoreWords cfg ≤ cfg.numCores * diffCoreWords cfg :=
    Nat.mul_le_mul_right _ inRange
  have word : ∀ k, 22 ≤ k → k < 28 → sim.dpi.diffState (23 + i * diffCoreWords cfg + k) =
      packed.packed (23 + i * Model.coreWords cfg + k) := by
    intro k _ below
    rw [same]
    apply (agree _ _).symm
    show _ < 23 + cfg.numCores * diffCoreWords cfg
    rw [Nat.succ_mul] at within
    have long : 28 ≤ diffCoreWords cfg := by
      unfold diffCoreWords
      omega
    omega
  unfold takenStore reportedStore Model.captureStore
  by_cases waiting : ((sim.model.cores i).state = .memReq ∨ (sim.model.cores i).state = .memResp) ∧
      hasLane (sim.model.cores i).im (sim.model.cores i).mt = true
  · have request := Model.requestWords_of_waiting defined inRange (cores ▸ waiting)
    rw [cores, Model.requestWords, RequestWords.mk.injEq] at request
    obtain ⟨_, wen, mask, addr, wdata⟩ := request
    rw [word 23 (by decide) (by decide), wen]
    by_cases stores : Instruction.opcode (sim.model.cores i).inst = 0x23 ∧
        (sim.model.cores i).state = .memReq
    · have asserted : ∀ b : Bool, b = true → boolWord b ≠ 0 := by decide
      rw [if_pos (asserted _ (by simp [stores])),
        if_pos ⟨atWork stores.2, stores.2, waiting.2, stores.1⟩]
      dsimp only
      rw [word 24 (by decide) (by decide), word 25 (by decide) (by decide),
        word 26 (by decide) (by decide), mask, addr, wdata, if_neg (byteMask_ne_zero _ _)]
    · rw [if_neg, if_neg]
      · exact fun all => stores ⟨all.2.2.2, all.2.1⟩
      · have low : (Instruction.opcode (sim.model.cores i).inst == 0x23 &&
            (sim.model.cores i).state == .memReq) = false := by
          rw [Bool.eq_false_iff]
          intro both
          apply stores
          simpa using both
        rw [low]
        simp [boolWord]
  · have nothing : Model.packDmem cfg before.mem (before.cores i) = [] := by
      rw [cores]
      exact if_neg waiting
    rw [word 23 (by decide) (by decide), packed_dmem defined inRange (by decide) (by decide), nothing,
      if_neg, if_neg]
    · exact fun all => waiting ⟨Or.inl all.2.1, all.2.2.1⟩
    · exact fun asserted => asserted rfl

end Stores

end RtlSim

end OpenGPU
