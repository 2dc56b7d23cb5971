import OpenGPU.Backend.Rtl
import OpenGPU.Cycle.PathStack
import OpenGPU.Lockstep.RequestWords

/-!
# The packed state loses nothing

`pack` lays out the state of the cycle model in one array: the top and KMU words, then
the words of every core, warp and lane. No two fields share a word, so the words
determine the registers of the model, and a match of all words with those of another
state is a match of the states.
-/

namespace OpenGPU

namespace Model

variable {cfg : Config}

/-! ## Places -/

/-- The top and KMU words are each written once. -/
theorem nodup_packKmu
    (m : Model) :
    ((packKmu cfg m).map Prod.fst).Nodup := by
  rw [show (packKmu cfg m).map Prod.fst =
    [0, 1, 2, 3, 4, 5, 6, 7, 8, 9, 10, 11, 13, 14, 15, 12, 16, 17, 18, 19, 20, 21, 22] from rfl]
  decide

/-- The words in front of the data-memory words are each written once. -/
theorem nodup_packHead
    (c : Core) :
    ((packHead cfg c).map Prod.fst).Nodup := by
  rw [show (packHead cfg c).map Prod.fst =
    [0, 1, 2, 3, 4, 5, 6, 7, 8, 9, 10, 11, 12, 13, 14, 15, 16, 17, 18, 19, 20, 21] from rfl]
  decide

/-- The data-memory words are each written at most once. -/
theorem nodup_packDmem
    (mem : ShadowMemory)
    (c : Core) :
    ((packDmem cfg mem c).map Prod.fst).Nodup ∧
      ∀ write ∈ packDmem cfg mem c, 22 ≤ write.1 := by
  unfold packDmem
  dsimp only
  split_ifs <;> simp

/-- The words of a warp are each written once. -/
theorem nodup_packWarp
    (c : Core)
    (w : Nat) :
    ((packWarp c w).map Prod.fst).Nodup := by
  rw [show (packWarp c w).map Prod.fst = (List.range 20).map (28 + w * 20 + ·) from rfl]
  exact List.nodup_range.map fun left right same => Nat.add_left_cancel same

/-- The words of a lane are each written once. -/
theorem nodup_packLane
    (c : Core)
    (x : Nat) :
    ((packLane cfg c x).map Prod.fst).Nodup := by
  rw [show (packLane cfg c x).map Prod.fst =
    (List.range 20).map (28 + 20 * cfg.numWarps + x * 20 + ·) from rfl]
  exact List.nodup_range.map fun left right same => Nat.add_left_cancel same

/-- The words of a core are each written at most once. -/
theorem nodup_packCore
    (mem : ShadowMemory)
    (c : Core) :
    ((packCore cfg mem c).map Prod.fst).Nodup := by
  have warps := @place_flatMap_range _ (packWarp c) cfg.numWarps 28 20
    fun w _ write member => packWarp_mem c w member
  have lanes := @place_flatMap_range _ (packLane cfg c) cfg.contexts (28 + 20 * cfg.numWarps) 20
    fun x _ write member => packLane_mem c x member
  obtain ⟨distinct, least⟩ := @nodup_packDmem cfg mem c
  rw [packCore_eq]
  refine nodup_append_of_lt (28 + 20 * cfg.numWarps) (nodup_append_of_lt 28
    (nodup_append_of_lt 22 (nodup_packHead c) distinct (fun _ member => packHead_mem c member)
      least) ?_ ?_ fun _ member => (warps member).1) ?_ ?_ fun _ member => (lanes member).1
  · exact nodup_flatMap_range (fun w _ write member => packWarp_mem c w member)
      fun w _ => nodup_packWarp c w
  · intro write member
    rcases List.mem_append.mp member with head | dmem
    · have place := packHead_mem c head
      omega
    · exact packDmem_mem mem c dmem
  · exact nodup_flatMap_range (fun x _ write member => packLane_mem c x member)
      fun x _ => nodup_packLane c x
  · intro write member
    rcases List.mem_append.mp member with early | warp
    · rcases List.mem_append.mp early with head | dmem
      · have place := packHead_mem c head
        omega
      · have place := packDmem_mem mem c dmem
        omega
    · have place := (warps warp).2
      omega

/-- The writes of core `ci`, at their places in the whole array. -/
def coreWrites (cfg : Config) (m : Model) (ci : Nat) : List (Nat × Word) :=
  (packCore cfg m.mem (m.cores ci)).map fun write => (23 + ci * coreWords cfg + write.1, write.2)

/-- The writes of a core stay in its words. -/
theorem coreWrites_mem
    (m : Model)
    (ci : Nat)
    {write : Nat × Word}
    (member : write ∈ coreWrites cfg m ci) :
    23 + ci * coreWords cfg ≤ write.1 ∧ write.1 < 23 + (ci + 1) * coreWords cfg := by
  obtain ⟨inner, innerMember, rfl⟩ := List.mem_map.mp member
  have place := packCore_mem m.mem (m.cores ci) innerMember
  rw [Nat.succ_mul]
  exact ⟨Nat.le_add_right _ _, by dsimp only; omega⟩

/-- `pack` writes every word at most once, inside the array. -/
theorem packWrites_places
    (cfg : Config)
    (m : Model) :
    ((packWrites cfg m).map Prod.fst).Nodup ∧
      ∀ write ∈ packWrites cfg m, write.1 < words cfg := by
  have cores := @place_flatMap_range _ (coreWrites cfg m) cfg.numCores 23 (coreWords cfg)
    fun ci _ write member => coreWrites_mem m ci member
  constructor
  · refine nodup_append_of_lt 23 (nodup_packKmu m) ?_ (fun _ member => packKmu_lt m member)
      fun _ member => (cores member).1
    refine @nodup_flatMap_range _ (coreWrites cfg m) _ _ _
      (fun ci _ write member => coreWrites_mem m ci member) fun ci _ => ?_
    have moved : (coreWrites cfg m ci).map Prod.fst =
        ((packCore cfg m.mem (m.cores ci)).map Prod.fst).map (23 + ci * coreWords cfg + ·) := by
      rw [coreWrites, List.map_map, List.map_map]
      rfl
    rw [moved]
    exact (nodup_packCore _ _).map fun left right same => Nat.add_left_cancel same
  · intro write member
    rcases List.mem_append.mp member with top | core
    · have place := packKmu_lt m top
      unfold words
      omega
    · exact (cores core).2

/-- Every write of `pack` is found in its word. -/
theorem packed_of_mem
    {m packed : Model}
    (defined : pack cfg m = some packed)
    {place : Nat}
    {v : Word}
    (member : (place, v) ∈ packWrites cfg m) :
    packed.packed place = v := by
  have writes : packed.packed = applyWrites (packWrites cfg m) fun _ => 0 := by
    unfold pack at defined
    split_ifs at defined
    rw [← Option.some_inj.mp defined]
    rfl
  rw [writes]
  exact applyWrites_of_mem (packWrites_places cfg m).1 _ member

/-! ## The words as a document lists them -/

/-- Three consecutive words. -/
def DimAt (words : Nat → Word) (base : Nat) (dim : Dim3) : Prop :=
  words base = dim.x ∧ words (base + 1) = dim.y ∧ words (base + 2) = dim.z

/-- The twenty words of a warp. -/
structure WarpAt (words : Nat → Word) (base : Nat) (c : Core) (w : Nat) : Prop where
  valid : words base = boolWord (c.valid w)
  pc : words (base + 1) = c.pc w
  mask : words (base + 2) = c.mask w
  sp : words (base + 3) = BitVec.ofNat 32 (c.sp w)
  stackPc : ∀ s, s < stackDepth → words (base + 4 + s * 2) = c.stackPc w s
  stackMask : ∀ s, s < stackDepth → words (base + 5 + s * 2) = c.stackMask w s

/-- The twenty words of a lane. -/
structure LaneAt (words : Nat → Word) (base : Nat) (c : Core) (x : Nat) : Prop where
  tx : words base = c.tx x
  ty : words (base + 1) = c.ty x
  tz : words (base + 2) = c.tz x
  gid : words (base + 3) = c.gid x
  gpr : ∀ r, r < 16 → words (base + 4 + r) = c.gpr x r

/-- The words of a core, without those that follow from others. -/
structure CoreAt (cfg : Config) (words : Nat → Word) (base : Nat) (c : Core) : Prop where
  state : words base = stateWord c.state
  ctaActive : words (base + 1) = boolWord c.ctaActive
  fault : words (base + 2) = boolWord c.fault
  rr : words (base + 3) = BitVec.ofNat 32 c.rr
  iw : words (base + 4) = BitVec.ofNat 32 c.iw
  im : words (base + 5) = c.im
  ip : words (base + 6) = c.ip
  inst : words (base + 7) = c.inst
  mt : words (base + 8) = BitVec.ofNat 32 c.mt
  block : DimAt words (base + 9) c.block
  dim : DimAt words (base + 12) c.dim
  grid : DimAt words (base + 15) c.grid
  args : words (base + 18) = c.args
  warps : ∀ w, w < cfg.numWarps → WarpAt words (base + (28 + w * 20)) c w
  lanes : ∀ x, x < cfg.contexts →
    LaneAt words (base + (28 + 20 * cfg.numWarps + x * 20)) c x

/-- The words of a model, without those that follow from others. -/
structure StateAt (cfg : Config) (words : Nat → Word) (m : Model) : Prop where
  startup : words 3 = m.dcr.startup
  args : words 4 = m.dcr.args
  argsSize : words 5 = m.dcr.argsSize
  dim : DimAt words 6 m.dcr.dim
  grid : DimAt words 9 m.dcr.grid
  blockSize : words 12 = m.dcr.blockSize
  block : DimAt words 13 m.walk.block
  running : words 16 = boolWord m.walk.running
  rr : words 17 = BitVec.ofNat 32 m.walk.rr
  cores : ∀ i, i < cfg.numCores → CoreAt cfg words (23 + i * coreWords cfg) (m.cores i)

section StateAt

variable {words : Nat → Word} {c : Core} {base : Nat}

/-- A warp whose writes are found has its words. -/
theorem WarpAt.of_found
    {w : Nat}
    (found : ∀ write ∈ packWarp c w, words (base + write.1) = write.2) :
    WarpAt words (base + (28 + w * 20)) c w where
  valid := found (28 + w * 20, boolWord (c.valid w)) (by simp [packWarp])
  pc := found (28 + w * 20 + 1, c.pc w) (by simp [packWarp])
  mask := found (28 + w * 20 + 2, c.mask w) (by simp [packWarp])
  sp := found (28 + w * 20 + 3, BitVec.ofNat 32 (c.sp w)) (by simp [packWarp])
  stackPc s small := by
    rw [Nat.add_assoc, Nat.add_assoc]
    apply found (28 + w * 20 + (4 + s * 2), c.stackPc w s)
    refine List.mem_append_right _ (List.mem_flatMap.mpr ⟨s, List.mem_range.mpr small, ?_⟩)
    rw [← Nat.add_assoc]
    exact List.mem_cons_self
  stackMask s small := by
    rw [Nat.add_assoc, Nat.add_assoc]
    apply found (28 + w * 20 + (5 + s * 2), c.stackMask w s)
    refine List.mem_append_right _ (List.mem_flatMap.mpr ⟨s, List.mem_range.mpr small, ?_⟩)
    rw [← Nat.add_assoc]
    exact List.mem_cons_of_mem _ List.mem_cons_self

/-- A lane whose writes are found has its words. -/
theorem LaneAt.of_found
    {x : Nat}
    (found : ∀ write ∈ packLane cfg c x, words (base + write.1) = write.2) :
    LaneAt words (base + (28 + 20 * cfg.numWarps + x * 20)) c x where
  tx := found (28 + 20 * cfg.numWarps + x * 20, c.tx x) (by simp [packLane])
  ty := found (28 + 20 * cfg.numWarps + x * 20 + 1, c.ty x) (by simp [packLane])
  tz := found (28 + 20 * cfg.numWarps + x * 20 + 2, c.tz x) (by simp [packLane])
  gid := found (28 + 20 * cfg.numWarps + x * 20 + 3, c.gid x) (by simp [packLane])
  gpr r small := by
    rw [Nat.add_assoc, Nat.add_assoc]
    apply found (28 + 20 * cfg.numWarps + x * 20 + (4 + r), c.gpr x r)
    refine List.mem_append_right _ (List.mem_map.mpr ⟨r, List.mem_range.mpr small, ?_⟩)
    rw [← Nat.add_assoc]

/-- A core whose writes are found has its words. -/
theorem CoreAt.of_found
    {mem : ShadowMemory}
    (found : ∀ write ∈ packCore cfg mem c, words (base + write.1) = write.2) :
    CoreAt cfg words base c := by
  have head : ∀ write ∈ packHead cfg c, words (base + write.1) = write.2 := fun write member =>
    found write (List.mem_append_left _ (List.mem_append_left _ (List.mem_append_left _ member)))
  exact
    { state := head (0, stateWord c.state) (by simp [packHead])
      ctaActive := head (1, boolWord c.ctaActive) (by simp [packHead])
      fault := head (2, boolWord c.fault) (by simp [packHead])
      rr := head (3, BitVec.ofNat 32 c.rr) (by simp [packHead])
      iw := head (4, BitVec.ofNat 32 c.iw) (by simp [packHead])
      im := head (5, c.im) (by simp [packHead])
      ip := head (6, c.ip) (by simp [packHead])
      inst := head (7, c.inst) (by simp [packHead])
      mt := head (8, BitVec.ofNat 32 c.mt) (by simp [packHead])
      block := ⟨head (9, c.block.x) (by simp [packHead, packDim]),
        head (10, c.block.y) (by simp [packHead, packDim]),
        head (11, c.block.z) (by simp [packHead, packDim])⟩
      dim := ⟨head (12, c.dim.x) (by simp [packHead, packDim]),
        head (13, c.dim.y) (by simp [packHead, packDim]),
        head (14, c.dim.z) (by simp [packHead, packDim])⟩
      grid := ⟨head (15, c.grid.x) (by simp [packHead, packDim]),
        head (16, c.grid.y) (by simp [packHead, packDim]),
        head (17, c.grid.z) (by simp [packHead, packDim])⟩
      args := head (18, c.args) (by simp [packHead])
      warps := fun w inWarps => WarpAt.of_found fun write member =>
        found write (List.mem_append_left _ (List.mem_append_right _
          (List.mem_flatMap.mpr ⟨w, List.mem_range.mpr inWarps, member⟩)))
      lanes := fun x inContexts => LaneAt.of_found fun write member =>
        found write (List.mem_append_right _
          (List.mem_flatMap.mpr ⟨x, List.mem_range.mpr inContexts, member⟩)) }

/-- A model whose writes are found has its words. -/
theorem StateAt.of_found
    {m : Model}
    (found : ∀ write ∈ packWrites cfg m, words write.1 = write.2) :
    StateAt cfg words m := by
  have top : ∀ write ∈ packKmu cfg m, words write.1 = write.2 := fun write member =>
    found write (List.mem_append_left _ member)
  exact
    { startup := top (3, m.dcr.startup) (by simp [packKmu])
      args := top (4, m.dcr.args) (by simp [packKmu])
      argsSize := top (5, m.dcr.argsSize) (by simp [packKmu])
      dim := ⟨top (6, m.dcr.dim.x) (by simp [packKmu, packDim]),
        top (7, m.dcr.dim.y) (by simp [packKmu, packDim]),
        top (8, m.dcr.dim.z) (by simp [packKmu, packDim])⟩
      grid := ⟨top (9, m.dcr.grid.x) (by simp [packKmu, packDim]),
        top (10, m.dcr.grid.y) (by simp [packKmu, packDim]),
        top (11, m.dcr.grid.z) (by simp [packKmu, packDim])⟩
      blockSize := top (12, m.dcr.blockSize) (by simp [packKmu])
      block := ⟨top (13, m.walk.block.x) (by simp [packKmu, packDim]),
        top (14, m.walk.block.y) (by simp [packKmu, packDim]),
        top (15, m.walk.block.z) (by simp [packKmu, packDim])⟩
      running := top (16, boolWord m.walk.running) (by simp [packKmu])
      rr := top (17, BitVec.ofNat 32 m.walk.rr) (by simp [packKmu])
      cores := fun i inRange => CoreAt.of_found fun write member =>
        found (23 + i * coreWords cfg + write.1, write.2) (List.mem_append_right _
          (List.mem_flatMap.mpr
            ⟨i, List.mem_range.mpr inRange, List.mem_map.mpr ⟨write, member, rfl⟩⟩)) }

/-- An array that agrees with the packed one has every register in its place. -/
theorem stateAt_of_agree
    {m packed : Model}
    (defined : pack cfg m = some packed)
    (agree : ∀ word, word < Model.words cfg → packed.packed word = words word) :
    StateAt cfg words m :=
  StateAt.of_found fun write member => by
    rw [← agree _ ((packWrites_places cfg m).2 write member)]
    exact packed_of_mem defined member

end StateAt

/-! ## Equal words, equal registers -/

/-- The counters of a state are `uint32_t`, as the source declares them. -/
structure Fits (cfg : Config) (m : Model) : Prop where
  walk : m.walk.rr < 2 ^ 32
  rr : ∀ i, i < cfg.numCores → (m.cores i).rr < 2 ^ 32
  iw : ∀ i, i < cfg.numCores → (m.cores i).iw < 2 ^ 32
  mt : ∀ i, i < cfg.numCores → (m.cores i).mt < 2 ^ 32
  sp : ∀ i, i < cfg.numCores → ∀ w, w < cfg.numWarps → (m.cores i).sp w < 2 ^ 32

/-- Two cores with the same scheduler, metadata, warps and lanes. -/
structure SameCoreRegisters (cfg : Config) (left right : Core) : Prop where
  state : left.state = right.state
  ctaActive : left.ctaActive = right.ctaActive
  fault : left.fault = right.fault
  rr : left.rr = right.rr
  iw : left.iw = right.iw
  im : left.im = right.im
  ip : left.ip = right.ip
  inst : left.inst = right.inst
  mt : left.mt = right.mt
  block : left.block = right.block
  dim : left.dim = right.dim
  grid : left.grid = right.grid
  args : left.args = right.args
  pc : ∀ w, w < cfg.numWarps → left.pc w = right.pc w
  mask : ∀ w, w < cfg.numWarps → left.mask w = right.mask w
  valid : ∀ w, w < cfg.numWarps → left.valid w = right.valid w
  sp : ∀ w, w < cfg.numWarps → left.sp w = right.sp w
  stackPc : ∀ w, w < cfg.numWarps → ∀ s, s < stackDepth → left.stackPc w s = right.stackPc w s
  stackMask : ∀ w, w < cfg.numWarps → ∀ s, s < stackDepth →
    left.stackMask w s = right.stackMask w s
  tx : ∀ x, x < cfg.contexts → left.tx x = right.tx x
  ty : ∀ x, x < cfg.contexts → left.ty x = right.ty x
  tz : ∀ x, x < cfg.contexts → left.tz x = right.tz x
  gid : ∀ x, x < cfg.contexts → left.gid x = right.gid x
  gpr : ∀ x, x < cfg.contexts → ∀ r, r < 16 → left.gpr x r = right.gpr x r

/-- Two models with the same KMU registers and the same cores. -/
structure SameRegisters (cfg : Config) (left right : Model) : Prop where
  dcr : left.dcr = right.dcr
  walk : left.walk = right.walk
  cores : ∀ i, i < cfg.numCores → SameCoreRegisters cfg (left.cores i) (right.cores i)

/-- The enumerators differ. -/
theorem stateWord_injective : Function.Injective stateWord := by
  intro left right same
  cases left <;> cases right <;> first | rfl | exact absurd same (by decide)

theorem boolWord_injective : Function.Injective boolWord := by
  intro left right same
  cases left <;> cases right <;> first | rfl | exact absurd same (by decide)

/-- A counter that fits is its word. -/
theorem eq_of_ofNat_eq
    {left right : Nat}
    (leftFits : left < 2 ^ 32)
    (rightFits : right < 2 ^ 32)
    (same : BitVec.ofNat 32 left = BitVec.ofNat 32 right) :
    left = right := by
  have values := congrArg BitVec.toNat same
  rwa [BitVec.toNat_ofNat, BitVec.toNat_ofNat, Nat.mod_eq_of_lt leftFits,
    Nat.mod_eq_of_lt rightFits] at values

theorem DimAt.unique
    {words : Nat → Word}
    {base : Nat}
    {left right : Dim3}
    (first : DimAt words base left)
    (second : DimAt words base right) :
    left = right := by
  obtain ⟨x, y, z⟩ := left
  rw [Dim3.mk.injEq]
  exact ⟨first.1.symm.trans second.1, first.2.1.symm.trans second.2.1,
    first.2.2.symm.trans second.2.2⟩

/-- An array holds the registers of one state only. -/
theorem StateAt.unique
    {words : Nat → Word}
    {left right : Model}
    (leftFits : left.Fits cfg)
    (rightFits : right.Fits cfg)
    (first : StateAt cfg words left)
    (second : StateAt cfg words right) :
    SameRegisters cfg left right where
  dcr := by
    have dim := first.dim.unique second.dim
    have grid := first.grid.unique second.grid
    have startup := first.startup.symm.trans second.startup
    have args := first.args.symm.trans second.args
    have argsSize := first.argsSize.symm.trans second.argsSize
    have blockSize := first.blockSize.symm.trans second.blockSize
    cases leftDcr : left.dcr
    cases rightDcr : right.dcr
    rw [leftDcr, rightDcr] at dim grid startup args argsSize blockSize
    rw [DcrRegisters.mk.injEq]
    exact ⟨startup, args, argsSize, dim, grid, blockSize⟩
  walk := by
    have block := first.block.unique second.block
    have running := boolWord_injective (first.running.symm.trans second.running)
    have rr := eq_of_ofNat_eq leftFits.walk rightFits.walk (first.rr.symm.trans second.rr)
    cases leftWalk : left.walk
    cases rightWalk : right.walk
    rw [leftWalk, rightWalk] at block running rr
    rw [Walk.mk.injEq]
    exact ⟨block, running, rr⟩
  cores i inRange := by
    have one := first.cores i inRange
    have two := second.cores i inRange
    exact
      { state := stateWord_injective (one.state.symm.trans two.state)
        ctaActive := boolWord_injective (one.ctaActive.symm.trans two.ctaActive)
        fault := boolWord_injective (one.fault.symm.trans two.fault)
        rr := eq_of_ofNat_eq (leftFits.rr i inRange) (rightFits.rr i inRange)
          (one.rr.symm.trans two.rr)
        iw := eq_of_ofNat_eq (leftFits.iw i inRange) (rightFits.iw i inRange)
          (one.iw.symm.trans two.iw)
        im := one.im.symm.trans two.im
        ip := one.ip.symm.trans two.ip
        inst := one.inst.symm.trans two.inst
        mt := eq_of_ofNat_eq (leftFits.mt i inRange) (rightFits.mt i inRange)
          (one.mt.symm.trans two.mt)
        block := one.block.unique two.block
        dim := one.dim.unique two.dim
        grid := one.grid.unique two.grid
        args := one.args.symm.trans two.args
        pc := fun w warp => (one.warps w warp).pc.symm.trans (two.warps w warp).pc
        mask := fun w warp => (one.warps w warp).mask.symm.trans (two.warps w warp).mask
        valid := fun w warp => boolWord_injective
          ((one.warps w warp).valid.symm.trans (two.warps w warp).valid)
        sp := fun w warp => eq_of_ofNat_eq (leftFits.sp i inRange w warp)
          (rightFits.sp i inRange w warp) ((one.warps w warp).sp.symm.trans (two.warps w warp).sp)
        stackPc := fun w warp s small =>
          ((one.warps w warp).stackPc s small).symm.trans ((two.warps w warp).stackPc s small)
        stackMask := fun w warp s small =>
          ((one.warps w warp).stackMask s small).symm.trans ((two.warps w warp).stackMask s small)
        tx := fun x lane => (one.lanes x lane).tx.symm.trans (two.lanes x lane).tx
        ty := fun x lane => (one.lanes x lane).ty.symm.trans (two.lanes x lane).ty
        tz := fun x lane => (one.lanes x lane).tz.symm.trans (two.lanes x lane).tz
        gid := fun x lane => (one.lanes x lane).gid.symm.trans (two.lanes x lane).gid
        gpr := fun x lane r small =>
          ((one.lanes x lane).gpr r small).symm.trans ((two.lanes x lane).gpr r small) }

/-! ## Reachable states -/

/-- The counters of a reachable state fit their words, and `pack` is defined. -/
theorem Reachable.fits
    {m : Model}
    {ledgers : Nat → LaneLedger}
    (reachable : Reachable cfg m ledgers) :
    m.Fits cfg := by
  have warpsFit : cfg.numWarps < 2 ^ 32 :=
    lt_of_le_of_lt (Nat.le_mul_of_pos_right _ cfg.numThreads_pos) cfg.contexts_lt
  have threadsFit : cfg.numThreads < 2 ^ 32 :=
    lt_of_le_of_lt (Nat.le_mul_of_pos_left _ cfg.numWarps_pos) cfg.contexts_lt
  have coresFit : cfg.numCores < 2 ^ 32 :=
    lt_of_le_of_lt (Nat.le_mul_of_pos_right _ cfg.contexts_pos) cfg.numHarts_lt
  exact
    { walk := reachable.rr_lt.trans coresFit
      rr := fun i inRange => (reachable.inBounds inRange).rr.trans warpsFit
      iw := fun i inRange => (reachable.inBounds inRange).iw.trans warpsFit
      mt := fun i inRange => (reachable.inBounds inRange).mt.trans threadsFit
      sp := fun i inRange w _ => lt_of_le_of_lt ((reachable.inBounds inRange).sp w) (by decide) }

/-- Up to 32 cores, warps and threads, `pack` is defined in every reachable state. -/
theorem Reachable.pack_isSome
    (small : cfg.numCores ≤ 32 ∧ cfg.numWarps ≤ 32 ∧ cfg.numThreads ≤ 32)
    {m : Model}
    {ledgers : Nat → LaneLedger}
    (reachable : Reachable cfg m ledgers) :
    (pack cfg m).isSome = true := by
  have defined : m.packDefined cfg = true := by
    rw [packDefined, Bool.and_eq_true, decide_eq_true_eq, List.all_eq_true]
    refine ⟨small.1, fun i member => ?_⟩
    have inRange := List.mem_range.mp member
    rw [Bool.and_eq_true, List.all_eq_true]
    constructor
    · intro w warp
      have inWarps := List.mem_range.mp warp
      rw [Bool.or_eq_true, decide_eq_true_eq]
      exact Or.inr (lt_of_lt_of_le inWarps small.2.1)
    · rw [Bool.or_eq_true, decide_eq_true_eq]
      exact Or.inr (lt_of_lt_of_le (reachable.inBounds inRange).mt small.2.2)
  rw [pack, if_pos defined]
  rfl

/-- The words of a state depend on its registers only. -/
theorem StateAt.congr
    {words : Nat → Word}
    {left right : Model}
    (dcr : left.dcr = right.dcr)
    (walk : left.walk = right.walk)
    (cores : left.cores = right.cores)
    (holds : StateAt cfg words left) :
    StateAt cfg words right where
  startup := dcr ▸ holds.startup
  args := dcr ▸ holds.args
  argsSize := dcr ▸ holds.argsSize
  dim := dcr ▸ holds.dim
  grid := dcr ▸ holds.grid
  blockSize := dcr ▸ holds.blockSize
  block := walk ▸ holds.block
  running := walk ▸ holds.running
  rr := walk ▸ holds.rr
  cores := cores ▸ holds.cores

/-- The words of a reachable state are the packed words of a state with its registers. -/
theorem Reachable.isPacked
    {m : Model}
    {ledgers : Nat → LaneLedger}
    (reachable : Reachable cfg m ledgers) :
    ∃ before packed, pack cfg before = some packed ∧ packed.packed = m.packed ∧
      before.dcr = m.dcr ∧ before.walk = m.walk ∧ before.cores = m.cores := by
  have packs : ∀ {before after : Model}, pack cfg before = some after →
      ∃ before packed, pack cfg before = some packed ∧ packed.packed = after.packed ∧
        before.dcr = after.dcr ∧ before.walk = after.walk ∧ before.cores = after.cores := by
    intro before after defined
    have result := (pack_eq_some defined).1
    exact ⟨before, after, defined, rfl, by rw [result], by rw [result], by rw [result]⟩
  induction reachable with
  | init started => exact packs started
  | load pmem _ inductionHypothesis => exact inductionHypothesis
  | tick inputs _ defined _ =>
      unfold Model.tick cycleDiffStep at defined
      split_ifs at defined
      · exact packs defined
      · exact packs defined

/-- An array that matches the words of a reachable state holds its registers. -/
theorem Reachable.stateAt
    {m : Model}
    {ledgers : Nat → LaneLedger}
    (reachable : Reachable cfg m ledgers)
    {words : Nat → Word}
    (agree : ∀ word, word < Model.words cfg → m.packed word = words word) :
    StateAt cfg words m := by
  obtain ⟨before, packed, defined, same, dcr, walk, cores⟩ := reachable.isPacked
  refine StateAt.congr dcr walk cores (stateAt_of_agree defined fun word inRange => ?_)
  rw [same]
  exact agree word inRange

/-! ## The comparison -/

/-- A comparison of all words that succeeds. -/
theorem agree_of_sameWords
    {V : VGPUTop}
    {sim : RtlSim V}
    (matched : sim.sameWords cfg = true) :
    ∀ word, word < words cfg → sim.model.packed word = sim.dpi.diffState word := by
  intro word inRange
  exact eq_of_beq (List.all_eq_true.mp matched word (List.mem_range.mpr inRange))

/-- Up to 32 cores, warps and threads, `pack` writes every word at most once and inside
the array, and equal words come from equal registers. It is defined in every reachable
state, and when the comparison of a reachable state succeeds, the words of the backend
hold every register of that state and of no other. -/
theorem pack_lossless
    (cfg : Config)
    (small : cfg.numCores ≤ 32 ∧ cfg.numWarps ≤ 32 ∧ cfg.numThreads ≤ 32) :
    (∀ m, ((packWrites cfg m).map Prod.fst).Nodup ∧
      ∀ write ∈ packWrites cfg m, write.1 < words cfg) ∧
    (∀ left right leftPacked rightPacked, left.Fits cfg → right.Fits cfg →
      pack cfg left = some leftPacked → pack cfg right = some rightPacked →
      (∀ word, word < words cfg → leftPacked.packed word = rightPacked.packed word) →
      SameRegisters cfg left right) ∧
    ∀ m ledgers, Reachable cfg m ledgers →
      m.Fits cfg ∧ (pack cfg m).isSome = true ∧
      ∀ (V : VGPUTop) (sim : RtlSim V), sim.model = m → sim.sameWords cfg = true →
        StateAt cfg sim.dpi.diffState m ∧
        ∀ other, other.Fits cfg → StateAt cfg sim.dpi.diffState other →
          SameRegisters cfg m other := by
  refine ⟨packWrites_places cfg, ?_, ?_⟩
  · intro left right leftPacked rightPacked leftFits rightFits leftDefined rightDefined agree
    exact (stateAt_of_agree leftDefined agree).unique leftFits rightFits
      (stateAt_of_agree rightDefined fun _ _ => rfl)
  · intro m ledgers reachable
    refine ⟨reachable.fits, reachable.pack_isSome small, ?_⟩
    rintro V sim rfl matched
    have holds := reachable.stateAt (agree_of_sameWords matched)
    exact ⟨holds, fun other fits otherHolds => holds.unique reachable.fits fits otherHolds⟩

/-- A core after reset, with 5 in `x3` of lane 1. -/
def coreWithFive : Core :=
  { Core.fresh with gpr := fun x r => if x = 1 ∧ r = 3 then 5 else 0 }

/-- The reset state of `Config.onePair`, and the same state with another `x3` in lane 1. -/
theorem pack_lossless_onePair :
    ∃ left right, pack Config.onePair fresh = some left ∧
      pack Config.onePair { fresh with cores := fun _ => coreWithFive } = some right ∧
      ∃ word, word < words Config.onePair ∧ left.packed word ≠ right.packed word := by
  have zeros : ∀ cores : Nat → Core, (∀ i, (cores i).rr = 0 ∧ (cores i).iw = 0 ∧
      (cores i).mt = 0 ∧ ∀ w, (cores i).sp w = 0) →
      Fits Config.onePair { fresh with cores := cores } := by
    intro cores zero
    refine ⟨Nat.two_pow_pos 32, fun i _ => ?_, fun i _ => ?_, fun i _ => ?_, fun i _ w _ => ?_⟩ <;>
      simp [zero]
  refine ⟨_, _, rfl, rfl, ?_⟩
  by_contra none
  have agree := fun word inRange => not_not.mp (not_and.mp (not_exists.mp none word) inRange)
  have same := (pack_lossless Config.onePair (by decide)).2.1 _ _ _ _
    (zeros (fun _ => Core.fresh) fun _ => ⟨rfl, rfl, rfl, fun _ => rfl⟩)
    (zeros (fun _ => coreWithFive) fun _ => ⟨rfl, rfl, rfl, fun _ => rfl⟩) rfl rfl agree
  have register := (same.cores 0 (by decide)).gpr 1 (by decide) 3 (by decide)
  exact absurd register (by decide)

end Model

end OpenGPU
