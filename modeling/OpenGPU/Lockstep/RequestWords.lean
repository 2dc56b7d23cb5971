import OpenGPU.Cycle.Model
import OpenGPU.Foundation.WriteList
import OpenGPU.Lockstep.ScalaPaths
import OpenGPU.Platform.Bytes

/-!
# The data-memory words of the comparison

While a lane waits for the data memory, the cycle model and every backend pack
the request into five words of the state that is compared after each edge.
-/

namespace OpenGPU

open Verilog Instruction

/-- Words 22 to 26 of a core. -/
structure RequestWords where
  ren : Word
  wen : Word
  mask : Word
  addr : Word
  wdata : Word
  deriving DecidableEq

/-! ## Words of each backend -/

/-- The words of `diff_state`. -/
def Verilog.GPUCore.requestWords {cfg : Config} (h : GPUCore cfg) : RequestWords :=
  let waiting := (h.state == .memReq || h.state == .memResp) &&
    h.issueMask.getLsbD h.memThread.toNat
  { ren := boolWord (h.dmemRen && h.state == .memReq)
    wen := boolWord (h.dmemWen && h.state == .memReq)
    mask := if waiting then h.dmemMask.setWidth 32 else 0
    addr := if waiting then h.dmemAddr else 0
    wdata := if waiting then h.dmemWdata else 0 }

/-- The words of `diff` in Chisel. -/
def Chisel.Core.requestWords {cfg : Config} (core : Chisel.Core cfg) : RequestWords :=
  if (core.state == .memReq || core.state == .memResp) && core.memLaneActive then
    { ren := boolWord (Decode.opcode core.issueInst == Decode.load && core.state == .memReq)
      wen := boolWord (Decode.opcode core.issueInst == Decode.store && core.state == .memReq)
      mask := core.reqMask.setWidth 32
      addr := core.reqAddr
      wdata := core.reqWdata }
  else ⟨0, 0, 0, 0, 0⟩

/-- The words of `diff` in SpinalHDL. -/
def Spinal.Core.requestWords {cfg : Config} (core : Spinal.Core cfg) : RequestWords :=
  if (core.state == .memReq || core.state == .memResp) && core.memLaneActive then
    { ren := boolWord (Decode.opcode core.issueInst == Decode.load && core.state == .memReq)
      wen := boolWord (Decode.opcode core.issueInst == Decode.store && core.state == .memReq)
      mask := core.diffMask
      addr := core.dmemAddr
      wdata := core.dmemWdata }
  else ⟨0, 0, 0, 0, 0⟩

/-! ## Words of the cycle model -/

namespace Model

variable {cfg : Config}

/-- The words of core `i` in the packed state. -/
def requestWords (cfg : Config) (m : Model) (i : Nat) : RequestWords :=
  let base := 23 + i * coreWords cfg
  { ren := m.packed (base + 22)
    wen := m.packed (base + 23)
    mask := m.packed (base + 24)
    addr := m.packed (base + 25)
    wdata := m.packed (base + 26) }

/-- The writes of the top section stay in front of the cores. -/
theorem packKmu_lt
    (m : Model)
    {write : Nat × Word}
    (member : write ∈ packKmu cfg m) :
    write.1 < 23 := by
  have places : ∀ place ∈ (packKmu cfg m).map Prod.fst, place < 23 := by
    rw [show (packKmu cfg m).map Prod.fst =
      [0, 1, 2, 3, 4, 5, 6, 7, 8, 9, 10, 11, 13, 14, 15, 12, 16, 17, 18, 19, 20, 21, 22] from rfl]
    decide
  exact places _ (List.mem_map_of_mem member)

/-- The writes of a warp stay in its twenty words. -/
theorem packWarp_mem
    (c : Core)
    (w : Nat)
    {write : Nat × Word}
    (member : write ∈ packWarp c w) :
    28 + w * 20 ≤ write.1 ∧ write.1 < 28 + (w + 1) * 20 := by
  simp only [packWarp, List.mem_append, List.mem_cons, List.not_mem_nil, or_false,
    List.mem_flatMap, List.mem_range] at member
  rcases member with (rfl | rfl | rfl | rfl) | ⟨s, small, rfl | rfl⟩ <;> simp only <;> omega

/-- The writes of a lane stay in its twenty words. -/
theorem packLane_mem
    (c : Core)
    (x : Nat)
    {write : Nat × Word}
    (member : write ∈ packLane cfg c x) :
    28 + 20 * cfg.numWarps + x * 20 ≤ write.1 ∧
      write.1 < 28 + 20 * cfg.numWarps + (x + 1) * 20 := by
  simp only [packLane, List.mem_append, List.mem_cons, List.not_mem_nil, or_false,
    List.mem_map, List.mem_range] at member
  rcases member with (rfl | rfl | rfl | rfl) | ⟨r, small, rfl⟩ <;> simp only <;> omega

/-- The writes of the data-memory words. -/
theorem packDmem_mem
    (mem : ShadowMemory)
    (c : Core)
    {write : Nat × Word}
    (member : write ∈ packDmem cfg mem c) :
    write.1 < 28 := by
  unfold packDmem at member
  dsimp only at member
  split_ifs at member with waiting response
  · simp only [List.mem_append, List.mem_cons, List.not_mem_nil, or_false] at member
    rcases member with (rfl | rfl | rfl | rfl | rfl) | rfl <;> simp only <;> omega
  · simp only [List.append_nil, List.mem_cons, List.not_mem_nil, or_false] at member
    rcases member with rfl | rfl | rfl | rfl | rfl <;> simp only <;> omega
  · exact absurd member List.not_mem_nil

/-- The words of a core in front of its data-memory words. -/
def packHead (cfg : Config) (c : Core) : List (Nat × Word) :=
  [(0, stateWord c.state), (1, boolWord c.ctaActive), (2, boolWord c.fault),
    (3, BitVec.ofNat 32 c.rr), (4, BitVec.ofNat 32 c.iw), (5, c.im), (6, c.ip),
    (7, c.inst), (8, BitVec.ofNat 32 c.mt)] ++
    packDim 9 c.block ++ packDim 12 c.dim ++ packDim 15 c.grid ++
    [(18, c.args), (19, activeWarps cfg c), (20, boolWord (c.state == .fetch)),
      (21, c.ip)]

theorem packHead_mem
    (c : Core)
    {write : Nat × Word}
    (member : write ∈ packHead cfg c) :
    write.1 < 22 := by
  have places : ∀ place ∈ (packHead cfg c).map Prod.fst, place < 22 := by
    rw [show (packHead cfg c).map Prod.fst =
      [0, 1, 2, 3, 4, 5, 6, 7, 8, 9, 10, 11, 12, 13, 14, 15, 16, 17, 18, 19, 20, 21] from rfl]
    decide
  exact places _ (List.mem_map_of_mem member)

theorem packCore_eq
    (mem : ShadowMemory)
    (c : Core) :
    packCore cfg mem c =
      packHead cfg c ++ packDmem cfg mem c ++ (List.range cfg.numWarps).flatMap (packWarp c) ++
        (List.range cfg.contexts).flatMap (packLane cfg c) := rfl

/-- The writes of a core stay in its words. -/
theorem packCore_mem
    (mem : ShadowMemory)
    (c : Core)
    {write : Nat × Word}
    (member : write ∈ packCore cfg mem c) :
    write.1 < coreWords cfg := by
  unfold coreWords
  rw [packCore_eq, List.mem_append, List.mem_append, List.mem_append, List.mem_flatMap,
    List.mem_flatMap] at member
  rcases member with ((head | dmem) | ⟨w, warp, member⟩) | ⟨x, context, member⟩
  · have place := packHead_mem c head
    omega
  · have place := packDmem_mem mem c dmem
    omega
  · have place := packWarp_mem c w member
    have inTopology := List.mem_range.mp warp
    omega
  · have place := packLane_mem c x member
    have inTopology := List.mem_range.mp context
    omega

/-- A packed word of a core is one that the core's own writes leave. -/
theorem pack_word
    {m packed : Model}
    (defined : pack cfg m = some packed)
    {i k : Nat}
    (core : i < cfg.numCores)
    (word : k < coreWords cfg) :
    packed.packed (23 + i * coreWords cfg + k) =
      applyWrites (packCore cfg m.mem (m.cores i)) (fun _ => 0) k := by
  have writes : packed.packed = applyWrites (packWrites cfg m) fun _ => 0 := by
    unfold pack at defined
    split_ifs at defined
    rw [← Option.some_inj.mp defined]
    rfl
  have injective : Function.Injective fun k => 23 + i * coreWords cfg + k :=
    fun left right same => Nat.add_left_cancel same
  rw [writes, packWrites, applyWrites_append]
  rw [applyWrites_flatMap_range _ core ?_]
  · rw [applyWrites_map injective]
    refine applyWrites_congr _ (applyWrites_of_unwritten _ fun write member => ?_)
    have place := packKmu_lt m member
    omega
  · intro other otherCore different write member
    obtain ⟨inner, innerMember, rfl⟩ := List.mem_map.mp member
    have place := packCore_mem m.mem (m.cores other) innerMember
    intro here
    have here' : other * coreWords cfg + inner.1 = i * coreWords cfg + k := by
      have whole : 23 + other * coreWords cfg + inner.1 = 23 + i * coreWords cfg + k := here
      omega
    rcases Nat.lt_or_gt_of_ne different with before | after
    · have apart : (other + 1) * coreWords cfg ≤ i * coreWords cfg := Nat.mul_le_mul_right _ before
      rw [Nat.succ_mul] at apart
      omega
    · have apart : (i + 1) * coreWords cfg ≤ other * coreWords cfg := Nat.mul_le_mul_right _ after
      rw [Nat.succ_mul] at apart
      omega

/-- The data-memory words are written by the data-memory part alone. -/
theorem packCore_dmem
    (mem : ShadowMemory)
    (c : Core)
    {k : Nat}
    (least : 22 ≤ k)
    (below : k < 28) :
    applyWrites (packCore cfg mem c) (fun _ => 0) k =
      applyWrites (packDmem cfg mem c) (fun _ => 0) k := by
  rw [packCore_eq, applyWrites_append, applyWrites_of_unwritten, applyWrites_append,
    applyWrites_of_unwritten, applyWrites_append]
  · refine applyWrites_congr _ (applyWrites_of_unwritten _ fun write member => ?_)
    have place := packHead_mem c member
    omega
  · intro write member
    obtain ⟨w, _, member⟩ := List.mem_flatMap.mp member
    have place := packWarp_mem c w member
    omega
  · intro write member
    obtain ⟨x, _, member⟩ := List.mem_flatMap.mp member
    have place := packLane_mem c x member
    omega

/-- The request of a lane that waits for the data memory. -/
theorem requestWords_of_waiting
    {m packed : Model}
    (defined : pack cfg m = some packed)
    {i : Nat}
    (core : i < cfg.numCores)
    (waiting : ((m.cores i).state = .memReq ∨ (m.cores i).state = .memResp) ∧
      hasLane (m.cores i).im (m.cores i).mt) :
    packed.requestWords cfg i =
      let c := m.cores i
      let a := c.memoryAddress cfg
      { ren := boolWord (opcode c.inst == 0x03 && c.state == .memReq)
        wen := boolWord (opcode c.inst == 0x23 && c.state == .memReq)
        mask := byteMask (funct3 c.inst) a
        addr := a &&& ~~~3
        wdata := c.laneRegister cfg c.mt (rs2 c.inst) <<< Core.byteShift a } := by
  have word : ∀ k, 22 ≤ k → k < 28 → packed.packed (23 + i * coreWords cfg + k) =
      applyWrites (packDmem cfg m.mem (m.cores i)) (fun _ => 0) k := by
    intro k least below
    rw [pack_word defined core (by unfold coreWords; omega), packCore_dmem _ _ least below]
  unfold requestWords
  dsimp only
  rw [word 22 (by decide) (by decide), word 23 (by decide) (by decide),
    word 24 (by decide) (by decide), word 25 (by decide) (by decide),
    word 26 (by decide) (by decide)]
  unfold packDmem
  dsimp only
  rw [if_pos waiting]
  split_ifs <;> rfl

end Model

/-! ## Address, data and mask -/

/-- The two low bits of an address. -/
theorem toNat_lowBits
    (addr : Word) :
    (addr.extractLsb' 0 2).toNat = wordOffset addr := by
  rw [wordOffset_eq_mod, BitVec.extractLsb'_toNat, Nat.shiftRight_zero]

/-- The thirty high bits of an address with zeros behind them. -/
theorem highBits_append
    (addr : Word) :
    addr.extractLsb' 2 30 ++ 0#2 = wordAddress addr := by
  apply BitVec.eq_of_toNat_eq
  rw [toNat_wordAddress, wordOffset_eq_mod, BitVec.toNat_append, BitVec.extractLsb'_toNat,
    BitVec.toNat_zero, Nat.or_zero, Nat.shiftLeft_eq, Nat.shiftRight_eq_div_pow]
  have small := addr.isLt
  omega

/-- A shifted number, cut to a width. -/
theorem natCast_shiftLeft
    (w value amount : Nat) :
    ((value <<< amount : Nat) : BitVec w) = BitVec.ofNat w value <<< amount := by
  apply BitVec.eq_of_toNat_eq
  rw [BitVec.natCast_eq_ofNat, BitVec.toNat_ofNat, BitVec.toNat_shiftLeft, BitVec.toNat_ofNat,
    Nat.shiftLeft_eq, Nat.shiftLeft_eq, Nat.mod_mul_mod]

/-- Minor opcodes as numbers of either width. -/
theorem byteMask_eq
    (inst addr : Word) :
    Model.byteMask (funct3 inst) addr =
      if Decode.funct3 inst = 0 then (1 : Word) <<< wordOffset addr
      else if Decode.funct3 inst = 1 then (3 : Word) <<< wordOffset addr
      else 15 := by
  unfold Model.byteMask
  exact
    if_congr (funct3_eq_iff inst 0) (natCast_shiftLeft 32 1 _) <|
    if_congr (funct3_eq_iff inst 1) (natCast_shiftLeft 32 3 _) rfl

/-- The mask of the SystemVerilog core. -/
theorem Verilog.GPUCore.dmemMask_eq
    {cfg : Config}
    (h : GPUCore cfg) :
    h.dmemMask =
      if Decode.funct3 h.issueInst = 0 then (1 : BitVec 4) <<< wordOffset h.memoryAddress
      else if Decode.funct3 h.issueInst = 1 then (3 : BitVec 4) <<< wordOffset h.memoryAddress
      else 15 := by
  unfold GPUCore.dmemMask
  dsimp only
  rw [toNat_lowBits]
  exact if_congr Iff.rfl (natCast_shiftLeft 4 1 _) (if_congr Iff.rfl (natCast_shiftLeft 4 3 _) rfl)

/-- The mask of the cycle model loses nothing in four bits, unless a halfword
starts at the last byte. -/
theorem fourBits_iff
    {offset : Nat}
    (small : offset < 4) :
    ((1 : BitVec 4) <<< offset).setWidth 32 = (1 : Word) <<< offset ∧
      (((3 : BitVec 4) <<< offset).setWidth 32 = (3 : Word) <<< offset ↔ offset ≠ 3) := by
  have all : ∀ offset : Fin 4,
      ((1 : BitVec 4) <<< offset.val).setWidth 32 = (1 : Word) <<< offset.val ∧
        (((3 : BitVec 4) <<< offset.val).setWidth 32 = (3 : Word) <<< offset.val ↔
          offset.val ≠ 3) := by
    decide
  exact all ⟨offset, small⟩

/-- The same for the seven bits of Chisel, of which the port has four. -/
theorem sevenBits_iff
    {offset : Nat}
    (small : offset < 4) :
    (((1 : BitVec 7) <<< offset).setWidth 4).setWidth 32 = (1 : Word) <<< offset ∧
      ((((3 : BitVec 7) <<< offset).setWidth 4).setWidth 32 = (3 : Word) <<< offset ↔
        offset ≠ 3) := by
  have all : ∀ offset : Fin 4,
      (((1 : BitVec 7) <<< offset.val).setWidth 4).setWidth 32 = (1 : Word) <<< offset.val ∧
        ((((3 : BitVec 7) <<< offset.val).setWidth 4).setWidth 32 = (3 : Word) <<< offset.val ↔
          offset.val ≠ 3) := by
    decide
  exact all ⟨offset, small⟩

namespace SameCore

variable {cfg : Config} {c : Core} {h : GPUCore cfg}

/-- The request of the cycle model in the words of the hardware. -/
theorem requestWords
    {m packed : Model}
    (defined : Model.pack cfg m = some packed)
    {i : Nat}
    (core : i < cfg.numCores)
    (same : SameCore cfg (m.cores i) h)
    (inRange : h.InRange)
    (waiting : h.state = .memReq ∨ h.state = .memResp)
    (active : h.issueMask.getLsbD h.memThread.toNat = true) :
    packed.requestWords cfg i =
      { ren := boolWord (Decode.opcode h.issueInst == Decode.load && h.state == .memReq)
        wen := boolWord (Decode.opcode h.issueInst == Decode.store && h.state == .memReq)
        mask := Model.byteMask (funct3 h.issueInst) h.memoryAddress
        addr := wordAddress h.memoryAddress
        wdata := h.laneRegister h.memThread.toNat (Decode.rs2 h.issueInst) <<<
          (wordOffset h.memoryAddress * 8) } := by
  have states : ((m.cores i).state == .memReq) = (h.state == .memReq) := by
    rw [same.state]
    cases h.state <;> rfl
  have waiting' : (m.cores i).state = .memReq ∨ (m.cores i).state = .memResp := by
    rw [same.state]
    rcases waiting with request | response
    · exact Or.inl (congrArg Fsm.state request)
    · exact Or.inr (congrArg Fsm.state response)
  have lane : hasLane (m.cores i).im (m.cores i).mt = true := by
    rw [same.im, same.mt, active]
  rw [Model.requestWords_of_waiting defined core ⟨waiting', lane⟩]
  dsimp only
  rw [same.memoryAddress inRange, states, same.inst, same.mt, rs2_eq,
    same.laneRegister inRange inRange.thread, show (0x03 : Word) = Decode.load.setWidth 32 from rfl,
    show (0x23 : Word) = Decode.store.setWidth 32 from rfl, beq_opcode, beq_opcode]
  rfl

end SameCore

/-! ## Each backend -/

section Backends

variable {cfg : Config} {h : GPUCore cfg}

/-- The SystemVerilog core differs from the cycle model in the mask at most. -/
theorem Verilog.GPUCore.requestWords_eq
    (waiting : h.state = .memReq ∨ h.state = .memResp)
    (active : h.issueMask.getLsbD h.memThread.toNat = true) :
    h.requestWords =
      { ren := boolWord (Decode.opcode h.issueInst == Decode.load && h.state == .memReq)
        wen := boolWord (Decode.opcode h.issueInst == Decode.store && h.state == .memReq)
        mask := h.dmemMask.setWidth 32
        addr := wordAddress h.memoryAddress
        wdata := h.laneRegister h.memThread.toNat (Decode.rs2 h.issueInst) <<<
          (wordOffset h.memoryAddress * 8) } := by
  unfold GPUCore.requestWords GPUCore.dmemRen GPUCore.dmemWen GPUCore.dmemAddr GPUCore.dmemWdata
  dsimp only
  rw [active, toNat_lowBits, highBits_append]
  rcases waiting with request | response
  · rw [request]
    simp
  · rw [response]
    simp [show (Fsm.memResp == Fsm.memReq) = false from rfl]

/-- The shift of the store data. -/
theorem Chisel.Core.memShift_eq
    (h : GPUCore cfg) :
    Chisel.Core.memShift h = wordOffset (Chisel.Core.memAddr h) * 8 := by
  have small := wordOffset_lt (Chisel.Core.memAddr h)
  rw [Chisel.Core.memShift, BitVec.toNat_shiftLeft, BitVec.toNat_setWidth, Chisel.Core.memOffset,
    toNat_lowBits, Nat.shiftLeft_eq]
  omega

/-- The Chisel core differs from the cycle model in the mask at most. -/
theorem Chisel.Core.requestWords_eq
    (inRange : h.InRange)
    (waiting : h.state = .memReq ∨ h.state = .memResp)
    (active : h.issueMask.getLsbD h.memThread.toNat = true) :
    Chisel.Core.requestWords h =
      { ren := boolWord (Decode.opcode h.issueInst == Decode.load && h.state == .memReq)
        wen := boolWord (Decode.opcode h.issueInst == Decode.store && h.state == .memReq)
        mask := (Chisel.Core.reqMask h).setWidth 32
        addr := wordAddress h.memoryAddress
        wdata := h.laneRegister h.memThread.toNat (Decode.rs2 h.issueInst) <<<
          (wordOffset h.memoryAddress * 8) } := by
  have waits : ((h.state == .memReq || h.state == .memResp) &&
      Chisel.Core.memLaneActive h) = true := by
    rw [Chisel.Core.memLaneActive, active]
    rcases waiting with request | response
    · rw [request]
      rfl
    · rw [response]
      rfl
  rw [Chisel.Core.requestWords, if_pos waits, Chisel.Core.reqAddr, highBits_append,
    Chisel.Core.reqWdata, Chisel.Core.setWidth_shiftLeft, Chisel.Core.memShift_eq,
    Chisel.Core.memAddr_eq inRange, Chisel.Core.laneRegister_eq inRange inRange.thread]

theorem Spinal.Core.memShift_eq
    (h : GPUCore cfg) :
    Spinal.Core.memShift h = wordOffset (Spinal.Core.memAddr h) * 8 := by
  have small := wordOffset_lt (Spinal.Core.memAddr h)
  rw [Spinal.Core.memShift, BitVec.toNat_shiftLeft, BitVec.toNat_setWidth, toNat_lowBits,
    Nat.shiftLeft_eq]
  omega

/-- The SpinalHDL core differs from the cycle model in the mask at most. -/
theorem Spinal.Core.requestWords_eq
    (inRange : h.InRange)
    (waiting : h.state = .memReq ∨ h.state = .memResp)
    (active : h.issueMask.getLsbD h.memThread.toNat = true) :
    Spinal.Core.requestWords h =
      { ren := boolWord (Decode.opcode h.issueInst == Decode.load && h.state == .memReq)
        wen := boolWord (Decode.opcode h.issueInst == Decode.store && h.state == .memReq)
        mask := Spinal.Core.diffMask h
        addr := wordAddress h.memoryAddress
        wdata := h.laneRegister h.memThread.toNat (Decode.rs2 h.issueInst) <<<
          (wordOffset h.memoryAddress * 8) } := by
  have waits : ((h.state == .memReq || h.state == .memResp) &&
      Spinal.Core.memLaneActive h) = true := by
    rw [Spinal.Core.memLaneActive, active]
    rcases waiting with request | response
    · rw [request]
      rfl
    · rw [response]
      rfl
  have address : Spinal.Core.memAddr h = h.memoryAddress := by
    rw [Spinal.Core.memAddr_eq, Chisel.Core.memAddr_eq inRange]
  rw [Spinal.Core.requestWords, if_pos waits, Spinal.Core.dmemAddr, Spinal.Core.dmemWdata,
    Spinal.Core.memShift_eq, address, Spinal.Core.laneRegister_eq,
    Chisel.Core.laneRegister_eq inRange inRange.thread]
  rfl

/-! ### Masks -/

/-- The mask of the SystemVerilog core. -/
theorem Verilog.GPUCore.dmemMask_iff
    (h : GPUCore cfg) :
    h.dmemMask.setWidth 32 = Model.byteMask (funct3 h.issueInst) h.memoryAddress ↔
      ¬(Decode.funct3 h.issueInst = 1 ∧ wordOffset h.memoryAddress = 3) := by
  obtain ⟨byte, half⟩ := fourBits_iff (wordOffset_lt h.memoryAddress)
  rw [byteMask_eq, GPUCore.dmemMask_eq]
  split_ifs with isByte isHalf
  · rw [isByte]
    exact iff_of_true byte fun both => absurd both.1 (by decide)
  · rw [half, isHalf, eq_self, true_and]
  · exact iff_of_true rfl fun both => isHalf both.1

/-- The mask of the Chisel core, for a minor opcode that some access has. -/
theorem Chisel.Core.reqMask_iff
    (inRange : h.InRange)
    (legal : Decode.funct3 h.issueInst = 0 ∨ Decode.funct3 h.issueInst = 1 ∨
      Decode.funct3 h.issueInst = 2 ∨ Decode.funct3 h.issueInst = 4 ∨
      Decode.funct3 h.issueInst = 5) :
    (Chisel.Core.reqMask h).setWidth 32 =
        Model.byteMask (funct3 h.issueInst) h.memoryAddress ↔
      Decode.funct3 h.issueInst ≠ 4 ∧ Decode.funct3 h.issueInst ≠ 5 ∧
        ¬(Decode.funct3 h.issueInst = 1 ∧ wordOffset h.memoryAddress = 3) := by
  obtain ⟨byte, half⟩ := sevenBits_iff (wordOffset_lt h.memoryAddress)
  rw [byteMask_eq]
  unfold Chisel.Core.reqMask
  dsimp only
  rw [Chisel.Core.memOffset, toNat_lowBits, Chisel.Core.memAddr_eq inRange]
  rcases legal with f3 | f3 | f3 | f3 | f3
  · rw [f3]
    exact iff_of_true byte ⟨by decide, by decide, fun both => absurd both.1 (by decide)⟩
  · rw [f3]
    refine half.trans ?_
    rw [eq_self, true_and]
    exact ⟨fun inWord => ⟨by decide, by decide, inWord⟩, fun all => all.2.2⟩
  · rw [f3]
    exact iff_of_true rfl ⟨by decide, by decide, fun both => absurd both.1 (by decide)⟩
  · rw [f3]
    exact iff_of_false (show ¬(0 : Word) = 15 by decide) fun all => all.1 rfl
  · rw [f3]
    exact iff_of_false (show ¬(0 : Word) = 15 by decide) fun all => all.2.1 rfl

/-- The mask of the SpinalHDL comparison. -/
theorem Spinal.Core.diffMask_eq
    (inRange : h.InRange) :
    Spinal.Core.diffMask h = Model.byteMask (funct3 h.issueInst) h.memoryAddress := by
  have address : Spinal.Core.memAddr h = h.memoryAddress := by
    rw [Spinal.Core.memAddr_eq, Chisel.Core.memAddr_eq inRange]
  rw [byteMask_eq]
  unfold Spinal.Core.diffMask
  dsimp only
  rw [toNat_lowBits, address]

end Backends

/-! ## All backends -/

/-- `LB`, `LH`, `LW`, `LBU`, `LHU`, `SB`, `SH` and `SW`. -/
def isLegalAccess (inst : Word) : Bool :=
  (Decode.opcode inst == Decode.load &&
    (Decode.funct3 inst == 0 || Decode.funct3 inst == 1 || Decode.funct3 inst == 2 ||
      Decode.funct3 inst == 4 || Decode.funct3 inst == 5)) ||
    (Decode.opcode inst == Decode.store &&
      (Decode.funct3 inst == 0 || Decode.funct3 inst == 1 || Decode.funct3 inst == 2))

theorem legal_funct3
    {inst : Word}
    (legal : isLegalAccess inst = true) :
    Decode.funct3 inst = 0 ∨ Decode.funct3 inst = 1 ∨ Decode.funct3 inst = 2 ∨
      Decode.funct3 inst = 4 ∨ Decode.funct3 inst = 5 := by
  simp only [isLegalAccess, Bool.or_eq_true, Bool.and_eq_true, beq_iff_eq] at legal
  rcases legal with ⟨_, (((byte | half) | word) | byte) | half⟩ | ⟨_, (byte | half) | word⟩
  · exact Or.inl byte
  · exact Or.inr (Or.inl half)
  · exact Or.inr (Or.inr (Or.inl word))
  · exact Or.inr (Or.inr (Or.inr (Or.inl byte)))
  · exact Or.inr (Or.inr (Or.inr (Or.inr half)))
  · exact Or.inl byte
  · exact Or.inr (Or.inl half)
  · exact Or.inr (Or.inr (Or.inl word))

/-- Every backend packs the request of an active lane as the cycle model does. -/
def RequestAgrees {cfg : Config} (h : GPUCore cfg) (words : RequestWords) : Prop :=
  h.requestWords = words ∧ Chisel.Core.requestWords h = words ∧
    Spinal.Core.requestWords h = words

/-- The words that every backend packs alike: no unsigned load, and no halfword at
the last byte of a word. -/
def Verilog.GPUCore.PlainRequest {cfg : Config} (h : GPUCore cfg) : Prop :=
  Decode.funct3 h.issueInst ≠ 4 ∧ Decode.funct3 h.issueInst ≠ 5 ∧
    ¬(Decode.funct3 h.issueInst = 1 ∧ wordOffset h.memoryAddress = 3)

/-- Words 22 to 26 of an active lane in `MEM_REQ` or `MEM_RESP` are those of the
cycle model in every backend exactly when the access is no unsigned load and no
halfword at the last byte of a word. -/
theorem requestAgrees_iff
    {cfg : Config}
    {h : GPUCore cfg}
    {m packed : Model}
    (defined : Model.pack cfg m = some packed)
    {i : Nat}
    (core : i < cfg.numCores)
    (same : SameCore cfg (m.cores i) h)
    (inRange : h.InRange)
    (waiting : h.state = .memReq ∨ h.state = .memResp)
    (active : h.issueMask.getLsbD h.memThread.toNat = true)
    (legal : isLegalAccess h.issueInst = true) :
    RequestAgrees h (packed.requestWords cfg i) ↔ h.PlainRequest := by
  have verilog := h.dmemMask_iff
  have chisel := Chisel.Core.reqMask_iff inRange (legal_funct3 legal)
  rw [RequestAgrees, SameCore.requestWords defined core same inRange waiting active,
    GPUCore.requestWords_eq waiting active,
    Chisel.Core.requestWords_eq inRange waiting active,
    Spinal.Core.requestWords_eq inRange waiting active, Spinal.Core.diffMask_eq inRange]
  simp only [RequestWords.mk.injEq, true_and, and_true]
  rw [verilog, chisel]
  exact and_iff_right_of_imp fun plain => plain.2.2

/-- A core of `Config.oneLane` in `MEM_REQ`. -/
def Verilog.GPUCore.requesting (word : Word) : GPUCore Config.oneLane :=
  { (GPUCore.fresh : GPUCore Config.oneLane) with
    state := .memReq
    ctaActive := true
    issueMask := BitVec.allOnes _
    issueInst := word }

/-- The model with that core. -/
def Model.requesting (word : Word) : Model :=
  { Model.fresh with cores := fun _ => (GPUCore.requesting word).toCore }

/-- `LW x1, 0(x0)`. -/
theorem requestAgrees_word :
    ∃ packed, Model.pack Config.oneLane (Model.requesting 0x00002083) = some packed ∧
      RequestAgrees (GPUCore.requesting 0x00002083)
        (packed.requestWords Config.oneLane 0) := by
  obtain ⟨packed, defined⟩ := Option.isSome_iff_exists.mp
    (show (Model.pack Config.oneLane (Model.requesting 0x00002083)).isSome = true from rfl)
  have plain : (GPUCore.requesting 0x00002083).PlainRequest := by
    unfold GPUCore.PlainRequest
    decide
  exact ⟨packed, defined, (requestAgrees_iff defined Nat.zero_lt_one
    (SameCore.toCore (by decide) _) ⟨Nat.zero_lt_one, Nat.zero_lt_one, fun _ _ => Nat.zero_le _⟩
    (Or.inl rfl) (by decide) (by decide)).mpr plain⟩

/-- `LBU x1, 0(x0)` in Chisel, whose mask table has no unsigned loads, and
`LH x1, 3(x0)` in SystemVerilog, whose mask has four bits. -/
theorem not_requestAgrees :
    (∃ packed, Model.pack Config.oneLane (Model.requesting 0x00004083) = some packed ∧
      Chisel.Core.requestWords (GPUCore.requesting 0x00004083) ≠
        packed.requestWords Config.oneLane 0) ∧
    ∃ packed, Model.pack Config.oneLane (Model.requesting 0x00301083) = some packed ∧
      (GPUCore.requesting 0x00301083).requestWords ≠ packed.requestWords Config.oneLane 0 := by
  constructor
  · refine ⟨_, rfl, fun same => ?_⟩
    exact absurd (congrArg RequestWords.mask same) (by decide)
  · refine ⟨_, rfl, fun same => ?_⟩
    exact absurd (congrArg RequestWords.mask same) (by decide)

end OpenGPU
