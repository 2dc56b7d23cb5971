import OpenGPU.Lockstep.NetlistWords
import OpenGPU.Lockstep.SameTop

/-!
# The state words of the whole GPU

The words that `pack` lays out for the dispatcher and the cores, against those that the
bridges of the netlist send.
-/

namespace OpenGPU

open Verilog

variable {cfg : Config} {m packed : Model} {top : GPUTop cfg} {rdata : ReadData}

/-- Every bridge has sent its words to an array. -/
structure NetlistAt (words : Nat → Word) (top : GPUTop cfg) (rdata : ReadData) : Prop where
  gpu : WordsAt words 0 top.diffState
  kmu : WordsAt words 3 top.kmuDiffState
  cores : ∀ i, i < cfg.numCores →
    WordsAt words (23 + i * diffCoreWords cfg) ((top.cores i).diffState (rdata.dmem i))

/-! ## The dispatcher -/

/-- The words of the model hold its registers. -/
theorem packed_stateAt
    (defined : Model.pack cfg m = some packed) :
    Model.StateAt cfg packed.packed m :=
  Model.stateAt_of_agree defined fun _ _ => rfl

/-- The registers of the dispatcher are those of the model when their words are. -/
theorem sameKmu_of_words
    (fits : m.Fits cfg)
    (defined : Model.pack cfg m = some packed)
    (kmu : WordsAt packed.packed 3 top.kmuDiffState) :
    SameKmu m.dcr m.walk top.kmu := by
  have found := packed_stateAt defined
  have cores : cfg.numCores ≤ 2 ^ 32 :=
    (Nat.le_mul_of_pos_right _ cfg.contexts_pos).trans cfg.numHarts_lt.le
  simp only [GPUTop.kmuDiffState, wordsAt_append, wordsAt_cons, wordsAt_nil, wordsAt_dimWords,
    List.length_append, List.length_cons, List.length_nil, length_dimWords, Nat.reduceAdd,
    and_true, found.startup, found.args, found.argsSize, found.blockSize, found.running, found.rr,
    dimAt_iff found.dim, dimAt_iff found.grid, dimAt_iff found.block,
    Model.boolWord_injective.eq_iff,
    ofNat_eq_setWidth_iff fits.walk (toNat_lt_of_indexBits cores _)] at kmu
  obtain ⟨⟨⟨⟨⟨⟨startup, args, argsSize⟩, dim⟩, grid⟩, blockSize⟩, block⟩, running, rr, _⟩ := kmu
  exact { startup, args, argsSize, dim, grid, blockSize, block, running, rr }

namespace SameTop

/-- One bit for every core. -/
theorem coreMask_eq
    {left right : Nat → Bool}
    (same : ∀ i, i < cfg.numCores → left i = right i) :
    collectLanes 32 cfg.numCores left = coreMask cfg right :=
  collectLanes_setWidth cfg.numCores same

/-- The same cores are busy. -/
theorem coreBusy
    (same : SameTop cfg m top)
    {i : Nat}
    (inRange : i < cfg.numCores) :
    (m.cores i).ctaActive = top.coreBusy i :=
  (same.cores i inRange).ctaActive

/-- Some core has a block exactly when the mask of busy cores is not zero. -/
theorem busyMask_ne_zero
    (cores : cfg.numCores ≤ 32)
    (m : Model) :
    (m.busyMask cfg != 0) = (List.range cfg.numCores).any fun i => (m.cores i).ctaActive := by
  rw [Bool.eq_iff_iff, bne_iff_ne, ne_zero_iff_hasLane, List.any_eq_true]
  refine exists_congr fun i => ?_
  rw [Model.busyMask, hasLane_collectLanes, List.mem_range, Bool.and_eq_true, Bool.and_eq_true,
    decide_eq_true_iff, decide_eq_true_iff, and_congr_left_iff]
  exact fun _ => ⟨And.right, fun inRange => ⟨inRange.trans_le cores, inRange⟩⟩

/-- Both GPUs are busy or neither is. -/
theorem topBusy
    (cores : cfg.numCores ≤ 32)
    (same : SameTop cfg m top) :
    m.topBusy cfg = top.gpuBusy := by
  rw [Model.topBusy, busyMask_ne_zero cores, GPUTop.gpuBusy, GPUKmu.busy, same.kmu.running]
  congr 1
  rw [Bool.eq_iff_iff, List.any_eq_true, List.any_eq_true]
  refine exists_congr fun i => and_congr_right fun member => ?_
  rw [same.coreBusy (List.mem_range.mp member)]

/-- Both GPUs show a fault or neither does. -/
theorem topFault
    (same : SameTop cfg m top) :
    m.topFault cfg = top.gpuFault := by
  rw [Model.topFault, GPUTop.gpuFault, Bool.eq_iff_iff, List.any_eq_true, List.any_eq_true]
  refine exists_congr fun i => and_congr_right fun member => ?_
  rw [(same.cores i (List.mem_range.mp member)).fault]

/-- The same core is first in turn. -/
theorem selected
    (cores : cfg.numCores ≤ 32)
    (same : SameTop cfg m top) :
    m.selected cfg = top.kmu.firstReady top.coreReady := by
  rw [Model.selected, GPUKmu.firstReady, same.kmu.rr]
  apply circularFirst_congr
  intro i inRange
  rw [Model.hasLane_readyMask cores inRange, same.coreReady inRange]

/-- The mask of offered blocks has the bit of the core that takes one. -/
theorem firingMask
    (cores : cfg.numCores ≤ 32)
    (same : SameTop cfg m top) :
    (match m.firing cfg with
      | some core => laneBit 32 core
      | none => 0) = coreMask cfg (top.kmu.ctaValid top.coreReady) := by
  have offered : ∀ i, m.firing cfg = some i ↔ top.kmu.ctaValid top.coreReady i = true :=
    fun _ => same.firing_iff cores
  apply eq_of_hasLane
  intro t
  rw [← coreMask_eq fun _ _ => rfl, hasLane_collectLanes, Bool.eq_iff_iff, Bool.and_eq_true,
    ← offered t]
  cases fires : m.firing cfg with
  | none => simp
  | some core =>
      have inRange := Model.firing_lt fires
      rw [hasLane_laneBit, decide_eq_true (inRange.trans_le cores), Bool.true_and,
        decide_eq_true_iff, Option.some_inj, iff_and_self]
      rintro rfl
      simp [inRange, inRange.trans_le cores]

/-- The selected core as a word. -/
theorem selectedWord
    (cores : cfg.numCores ≤ 32)
    (same : SameTop cfg m top) :
    BitVec.ofNat 32 ((m.selected cfg).getD 0) ||| boolWord (m.selected cfg).isSome <<< 31 =
      (top.kmu.selectedCore top.coreReady).setWidth 32 |||
        boolWord (top.kmu.selectedValid top.coreReady) <<< 31 := by
  have room := le_two_pow_indexBits cfg.numCores
  have positive := cfg.numCores_pos
  have core : (top.kmu.firstReady top.coreReady).getD 0 < cfg.numCores := by
    cases found : top.kmu.firstReady top.coreReady with
    | none => exact positive
    | some core => exact circularFirst_lt found
  rw [same.selected cores, GPUKmu.selectedCore, GPUKmu.selectedValid]
  congr 1
  apply BitVec.eq_of_toNat_eq
  rw [BitVec.toNat_setWidth, BitVec.toNat_ofNat, BitVec.toNat_ofNat,
    Nat.mod_eq_of_lt (core.trans_le room)]

/-- The words of the dispatcher and of the outputs. -/
theorem kmuWords
    (cores : cfg.numCores ≤ 32)
    (same : SameTop cfg m top)
    (defined : Model.pack cfg m = some packed) :
    WordsAt packed.packed 0 top.diffState ∧ WordsAt packed.packed 3 top.kmuDiffState := by
  have found : ∀ write ∈ Model.packKmu cfg m, packed.packed write.1 = write.2 := fun _ member =>
    Model.packed_of_mem defined (List.mem_append_left _ member)
  simp only [Model.packKmu, Model.packDim, List.cons_append, List.nil_append, List.forall_mem_cons,
    Nat.reduceAdd] at found
  obtain ⟨busy, fault, done, startup, args, argsSize, dimX, dimY, dimZ, gridX, gridY, gridZ,
    blockX, blockY, blockZ, blockSize, running, rr, valid, ready, active, busyAgain, sel, _⟩ := found
  simp only [GPUTop.diffState, GPUTop.kmuDiffState, wordsAt_append, wordsAt_cons, wordsAt_nil,
    dimWords, List.length_append, List.length_cons, List.length_nil, Nat.reduceAdd, and_true,
    and_assoc]
  rw [same.topBusy cores] at busy busyAgain
  rw [same.topFault] at fault
  have valid := valid.trans (same.firingMask cores)
  rw [same.selectedWord cores] at sel
  rw [Model.doneMask, coreMask_eq fun i inRange => congrArg not (same.coreBusy inRange)] at done
  rw [Model.readyMask, coreMask_eq fun i inRange => same.coreReady inRange] at ready
  rw [Model.busyMask, coreMask_eq fun i inRange => same.coreBusy inRange] at active
  rw [same.kmu.startup] at startup
  rw [same.kmu.args] at args
  rw [same.kmu.argsSize] at argsSize
  rw [same.kmu.dim] at dimX dimY dimZ
  rw [same.kmu.grid] at gridX gridY gridZ
  rw [same.kmu.block] at blockX blockY blockZ
  rw [same.kmu.blockSize] at blockSize
  rw [same.kmu.running] at running
  rw [same.kmu.rr, BitVec.ofNat_toNat] at rr
  exact ⟨busy, fault, done, startup, args, argsSize, dimX, dimY, dimZ, gridX, gridY, gridZ,
    blockSize, blockX, blockY, blockZ, running, rr, valid, ready, active, busyAgain, sel⟩

end SameTop

/-! ## All words -/

/-- What the comparison sees of an access under way: no halfword starts at the last byte
of a word, and a load reads what the copy of memory holds. -/
structure Verilog.GPUTop.SameAccess (top : GPUTop cfg) (mem : ShadowMemory) (rdata : ReadData)
    (i : Nat) : Prop where
  halfword : ¬(Decode.funct3 (top.cores i).issueInst = 1 ∧
    wordOffset (top.cores i).memoryAddress = 3)
  reads : (top.cores i).state = .memResp ∧ (top.cores i).dmemRen = true →
    rdata.dmem i = load32 cfg mem (wordAddress (top.cores i).memoryAddress)

/-- The words of a core in front of its data-memory words. -/
theorem packed_headAt
    (defined : Model.pack cfg m = some packed)
    {i : Nat}
    (inRange : i < cfg.numCores) :
    HeadAt cfg packed.packed (23 + i * Model.coreWords cfg) (m.cores i) := by
  have found : ∀ write ∈ Model.packHead cfg (m.cores i),
      packed.packed (23 + i * Model.coreWords cfg + write.1) = write.2 := by
    intro write member
    refine Model.packed_of_mem defined (List.mem_append_right _ (List.mem_flatMap.mpr
      ⟨i, List.mem_range.mpr inRange, List.mem_map.mpr ⟨write, ?_, rfl⟩⟩))
    exact List.mem_append_left _ (List.mem_append_left _ (List.mem_append_left _ member))
  exact
    { core := (packed_stateAt defined).cores i inRange
      activeWarps := found (19, Model.activeWarps cfg (m.cores i)) (by simp [Model.packHead])
      imemRen := found (20, boolWord ((m.cores i).state == .fetch)) (by simp [Model.packHead])
      imemAddr := found (21, (m.cores i).ip) (by simp [Model.packHead]) }

/-- Each core has counters that fit. -/
theorem Model.Fits.core
    (fits : m.Fits cfg)
    {i : Nat}
    (inRange : i < cfg.numCores) :
    (m.cores i).Fits cfg where
  rr := fits.rr i inRange
  iw := fits.iw i inRange
  mt := fits.mt i inRange
  sp := fits.sp i inRange

/-- The bridges send what `pack` lays out exactly when the registers agree and every
access under way looks the same. -/
theorem netlistAt_iff
    (threads : cfg.numThreads ≤ 32)
    (fits : m.Fits cfg)
    (inRange : ∀ i, i < cfg.numCores → (top.cores i).InRange)
    (defined : Model.pack cfg m = some packed) :
    NetlistAt packed.packed top rdata ↔
      SameTop cfg m top ∧ ∀ i, i < cfg.numCores → (top.cores i).Waiting →
        top.SameAccess m.mem rdata i := by
  have cores : cfg.numCores ≤ 32 := by
    unfold Model.pack at defined
    split_ifs at defined with shifts
    exact of_decide_eq_true (Bool.and_eq_true_iff.mp shifts).1
  have core : ∀ i (inTop : i < cfg.numCores),
      WordsAt packed.packed (23 + i * diffCoreWords cfg)
          ((top.cores i).diffState (rdata.dmem i)) ↔
        SameCore cfg (m.cores i) (top.cores i) ∧
          ((top.cores i).Waiting → top.SameAccess m.mem rdata i) := by
    intro i inTop
    refine (coreWords_iff threads (fits.core inTop) (packed_headAt defined inTop)).trans ?_
    refine and_congr_right fun same => ?_
    refine (memoryWords_iff defined inTop same (inRange i inTop)).trans ?_
    exact imp_congr_right fun _ => ⟨fun both => ⟨both.1, both.2⟩, fun both => ⟨both.1, both.2⟩⟩
  constructor
  · intro found
    have each := fun i inTop => (core i inTop).mp (found.cores i inTop)
    exact ⟨⟨sameKmu_of_words fits defined found.kmu, fun i inTop => (each i inTop).1⟩,
      fun i inTop => (each i inTop).2⟩
  · rintro ⟨same, accesses⟩
    obtain ⟨gpu, kmu⟩ := same.kmuWords cores defined
    exact ⟨gpu, kmu, fun i inTop => (core i inTop).mpr ⟨same.cores i inTop, accesses i inTop⟩⟩

/-- An array to which every bridge has sent its words holds them and no others. -/
theorem NetlistAt.unique
    {words other : Nat → Word}
    (first : NetlistAt words top rdata)
    (second : NetlistAt other top rdata)
    {k : Nat}
    (inRange : k < diffStateWords cfg) :
    words k = other k := by
  rcases Nat.lt_or_ge k 3 with front | behind
  · exact first.gpu.unique second.gpu (Nat.zero_le k) front
  · rcases Nat.lt_or_ge k 23 with middle | rear
    · exact first.kmu.unique second.kmu behind middle
    · have positive : 0 < diffCoreWords cfg := by
        unfold diffCoreWords
        omega
      have inTop : (k - 23) / diffCoreWords cfg < cfg.numCores := by
        rw [Nat.div_lt_iff_lt_mul positive]
        unfold diffStateWords at inRange
        omega
      have split := Nat.div_add_mod' (k - 23) (diffCoreWords cfg)
      have small := Nat.mod_lt (k - 23) positive
      apply (first.cores _ inTop).unique (second.cores _ inTop)
      · omega
      · rw [GPUCore.length_diffState]
        omega

end OpenGPU
