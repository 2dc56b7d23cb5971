import Mathlib.Data.Nat.Log
import OpenGPU.Foundation.CircularScan
import OpenGPU.Platform.Blocks

/-!
# The SystemVerilog dispatcher

`GPUKmu` of `KMU.sv`: the configuration registers, the walk over the blocks of
a launch and the round-robin choice of the core that takes the next block. The
number of cores is a parameter and may be anything; the round-robin register
has the width that the module declares for it.
-/

namespace OpenGPU

namespace Verilog

/-- `CB`, `WB` and `TB`: the width of an index register. -/
def indexBits (count : Nat) : Nat := if count ≤ 1 then 1 else Nat.clog 2 count

/-- Indices fit their register. -/
theorem le_two_pow_indexBits
    (count : Nat) :
    count ≤ 2 ^ indexBits count := by
  unfold indexBits
  split_ifs with small
  · omega
  · exact Nat.le_pow_clog (by omega) count

/-- An index register holds the last index exactly at the last element. -/
theorem ofNat_eq_last_iff
    {count t : Nat}
    (element : t < count) :
    BitVec.ofNat (indexBits count) t = BitVec.ofNat (indexBits count) (count - 1) ↔
      t + 1 = count := by
  have room := le_two_pow_indexBits count
  rw [← BitVec.toNat_inj, BitVec.toNat_ofNat, BitVec.toNat_ofNat, Nat.mod_eq_of_lt (by omega),
    Nat.mod_eq_of_lt (by omega)]
  omega

/-- `DcrIf`. -/
structure DcrIf where
  valid : Bool
  addr : BitVec 12
  data : Word

/-- No configuration write. -/
def DcrIf.idle : DcrIf := ⟨false, 0, 0⟩

/-- The configuration registers, which live in `KmuIf`. -/
structure KmuConfig where
  startupPc : Word
  argsAddr : Word
  argsSize : Word
  blockDim : Dim3
  gridDim : Dim3
  blockSize : Word

namespace KmuConfig

/-- The values after a reset edge. -/
def fresh : KmuConfig where
  startupPc := 0x81000000
  argsAddr := 0
  argsSize := 0
  blockDim := Dim3.one
  gridDim := Dim3.one
  blockSize := 1

/-- The `case` over the configuration address. -/
def write (addr : BitVec 12) (data : Word) (r : KmuConfig) : KmuConfig :=
  if addr = 0x010 then { r with startupPc := data }
  else if addr = 0x011 then { r with argsAddr := data }
  else if addr = 0x012 then { r with argsSize := data }
  else if addr = 0x013 then { r with blockDim := { r.blockDim with x := data } }
  else if addr = 0x014 then { r with blockDim := { r.blockDim with y := data } }
  else if addr = 0x015 then { r with blockDim := { r.blockDim with z := data } }
  else if addr = 0x016 then { r with gridDim := { r.gridDim with x := data } }
  else if addr = 0x017 then { r with gridDim := { r.gridDim with y := data } }
  else if addr = 0x018 then { r with gridDim := { r.gridDim with z := data } }
  else if addr = 0x019 then { r with blockSize := data }
  else r

end KmuConfig

/-- The registers of `GPUKmu`, with the block index it keeps in `KmuIf`. -/
structure GPUKmu (numCores : Nat) extends KmuConfig where
  blockIdx : Dim3
  running : Bool
  rrCore : BitVec (indexBits numCores)

namespace GPUKmu

variable {numCores : Nat}

/-- The registers after a reset edge. -/
def fresh : GPUKmu numCores :=
  { KmuConfig.fresh with blockIdx := Dim3.zero, running := false, rrCore := 0 }

/-- The loop over the candidates: the first ready core from `rr_core` on. -/
def firstReady (coreReady : Nat → Bool) (kmu : GPUKmu numCores) : Option Nat :=
  circularFirst numCores kmu.rrCore.toNat coreReady

/-- `selected_valid`. -/
def selectedValid (coreReady : Nat → Bool) (kmu : GPUKmu numCores) : Bool :=
  (kmu.firstReady coreReady).isSome

/-- `selected_core`. -/
def selectedCore (coreReady : Nat → Bool) (kmu : GPUKmu numCores) :
    BitVec (indexBits numCores) :=
  BitVec.ofNat _ ((kmu.firstReady coreReady).getD 0)

/-- `cta_valid[core]`. -/
def ctaValid (coreReady : Nat → Bool) (kmu : GPUKmu numCores) (core : Nat) : Bool :=
  kmu.running && kmu.selectedValid coreReady &&
    (kmu.selectedCore coreReady).toNat == core

/-- `cta_fire`. -/
def ctaFire (coreReady : Nat → Bool) (kmu : GPUKmu numCores) : Bool :=
  kmu.running && kmu.selectedValid coreReady &&
    coreReady (kmu.selectedCore coreReady).toNat

/-- `last_x`. -/
def lastX (kmu : GPUKmu numCores) : Bool := kmu.blockIdx.x + 1 == kmu.gridDim.x

/-- `last_y`. -/
def lastY (kmu : GPUKmu numCores) : Bool := kmu.blockIdx.y + 1 == kmu.gridDim.y

/-- `last_z`. -/
def lastZ (kmu : GPUKmu numCores) : Bool := kmu.blockIdx.z + 1 == kmu.gridDim.z

/-- A configuration write, when the interface carries one. -/
def dcrWrite (dcr : DcrIf) (kmu : GPUKmu numCores) : GPUKmu numCores :=
  { kmu with
    toKmuConfig :=
      if dcr.valid then kmu.toKmuConfig.write dcr.addr dcr.data else kmu.toKmuConfig }

/-- The next block index when a block fires. -/
def blockIdxNext (kmu : GPUKmu numCores) : Dim3 :=
  if kmu.lastX then
    if kmu.lastY then
      if kmu.lastZ then ⟨0, 0, 0⟩ else ⟨0, 0, kmu.blockIdx.z + 1⟩
    else ⟨0, kmu.blockIdx.y + 1, kmu.blockIdx.z⟩
  else ⟨kmu.blockIdx.x + 1, kmu.blockIdx.y, kmu.blockIdx.z⟩

/-- The next value of `running` when a block fires. -/
def runningNext (kmu : GPUKmu numCores) : Bool :=
  if kmu.lastX && kmu.lastY && kmu.lastZ then false else kmu.running

/-- The next value of `rr_core` when a block fires. -/
def rrCoreNext (coreReady : Nat → Bool) (kmu : GPUKmu numCores) :
    BitVec (indexBits numCores) :=
  if kmu.selectedCore coreReady = BitVec.ofNat _ (numCores - 1) then 0
  else kmu.selectedCore coreReady + 1

/-- The clocked block. Every right-hand side reads the registers before the
edge, those that a configuration write changes on the same edge included. -/
def posedge (reset : Bool) (dcr : DcrIf) (launch : Bool) (coreReady : Nat → Bool)
    (kmu : GPUKmu numCores) : GPUKmu numCores :=
  if reset then fresh
  else
    if launch then
      { kmu.dcrWrite dcr with
        blockIdx := ⟨0, 0, 0⟩
        running :=
          kmu.blockSize != 0 && kmu.gridDim.x != 0 && kmu.gridDim.y != 0 &&
            kmu.gridDim.z != 0 }
    else if kmu.ctaFire coreReady then
      { kmu.dcrWrite dcr with
        rrCore := kmu.rrCoreNext coreReady
        blockIdx := kmu.blockIdxNext
        running := kmu.runningNext }
    else kmu.dcrWrite dcr

/-- `busy`. -/
def busy (coreBusy : Nat → Bool) (kmu : GPUKmu numCores) : Bool :=
  kmu.running || (List.range numCores).any coreBusy

@[simp] theorem dcrWrite_idle
    (kmu : GPUKmu numCores) :
    kmu.dcrWrite DcrIf.idle = kmu := rfl

/-- Outside reset an edge changes the configuration by the write it carries. -/
theorem posedge_toKmuConfig
    (dcr : DcrIf)
    (launch : Bool)
    (coreReady : Nat → Bool)
    (kmu : GPUKmu numCores) :
    (kmu.posedge false dcr launch coreReady).toKmuConfig = (kmu.dcrWrite dcr).toKmuConfig := by
  unfold posedge
  rw [if_neg Bool.false_ne_true]
  split_ifs <;> rfl

/-! ## Selection -/

/-- The selected core, when there is one, is the first ready one. -/
theorem selectedCore_eq
    {coreReady : Nat → Bool}
    {kmu : GPUKmu numCores}
    {core : Nat}
    (found : kmu.firstReady coreReady = some core) :
    (kmu.selectedCore coreReady).toNat = core := by
  have inRange := circularFirst_lt found
  have fits := le_two_pow_indexBits numCores
  rw [selectedCore, found, Option.getD_some, BitVec.toNat_ofNat]
  exact Nat.mod_eq_of_lt (by omega)

/-- A block fires exactly when blocks are left and some core is ready. -/
theorem ctaFire_eq
    (coreReady : Nat → Bool)
    (kmu : GPUKmu numCores) :
    kmu.ctaFire coreReady = (kmu.running && (kmu.firstReady coreReady).isSome) := by
  unfold ctaFire selectedValid
  cases found : kmu.firstReady coreReady with
  | none => simp
  | some core =>
      rw [selectedCore_eq found, circularFirst_ready found, Bool.and_true]

/-- `cta_valid` names the first ready core and no other. -/
theorem ctaValid_iff
    {coreReady : Nat → Bool}
    {kmu : GPUKmu numCores}
    {core : Nat} :
    kmu.ctaValid coreReady core = true ↔
      kmu.running = true ∧ kmu.firstReady coreReady = some core := by
  unfold ctaValid selectedValid
  cases found : kmu.firstReady coreReady with
  | none => simp
  | some winner => simp [selectedCore_eq found]

/-- Firing moves the round-robin register past the selected core. -/
theorem toNat_rrCoreNext
    {coreReady : Nat → Bool}
    {kmu : GPUKmu numCores}
    {core : Nat}
    (found : kmu.firstReady coreReady = some core) :
    (kmu.rrCoreNext coreReady).toNat = (core + 1) % numCores := by
  have inRange := circularFirst_lt found
  have fits := le_two_pow_indexBits numCores
  have selected := selectedCore_eq found
  have lastIndex : (BitVec.ofNat (indexBits numCores) (numCores - 1)).toNat = numCores - 1 := by
    rw [BitVec.toNat_ofNat]
    exact Nat.mod_eq_of_lt (by omega)
  unfold rrCoreNext
  by_cases last : core = numCores - 1
  · have wraps : kmu.selectedCore coreReady = BitVec.ofNat _ (numCores - 1) := by
      rw [← BitVec.toNat_inj, selected, lastIndex, last]
    rw [if_pos wraps, last, Nat.sub_add_cancel (by omega), Nat.mod_self]
    rfl
  · have stays : kmu.selectedCore coreReady ≠ BitVec.ofNat _ (numCores - 1) := by
      rw [Ne, ← BitVec.toNat_inj, selected, lastIndex]
      exact last
    have one : (1 : BitVec (indexBits numCores)).toNat = 1 := by
      show 1 % 2 ^ indexBits numCores = 1
      exact Nat.mod_eq_of_lt (by omega)
    rw [if_neg stays, BitVec.toNat_add, selected, one,
      Nat.mod_eq_of_lt (show core + 1 < numCores by omega)]
    exact Nat.mod_eq_of_lt (by omega)

/-- The round-robin register keeps naming a core. -/
theorem rrCore_posedge
    {kmu : GPUKmu numCores}
    (inRange : kmu.rrCore.toNat < numCores)
    (reset : Bool)
    (dcr : DcrIf)
    (launch : Bool)
    (coreReady : Nat → Bool) :
    (kmu.posedge reset dcr launch coreReady).rrCore.toNat < numCores := by
  unfold posedge
  split_ifs with asserted launches fires
  · exact Nat.zero_lt_of_lt inRange
  · exact inRange
  · rw [ctaFire_eq, Bool.and_eq_true] at fires
    obtain ⟨core, found⟩ := Option.isSome_iff_exists.mp fires.2
    rw [toNat_rrCoreNext found]
    exact Nat.mod_lt _ (Nat.zero_lt_of_lt inRange)
  · exact inRange

/-- The counters of the dispatcher step from block to block. -/
theorem blockIdxNext_eq
    (kmu : GPUKmu numCores) :
    kmu.blockIdxNext = (Dim3.next kmu.gridDim kmu.blockIdx).1 := by
  simp only [blockIdxNext, Dim3.next, lastX, lastY, lastZ, beq_iff_eq]
  split_ifs <;> rfl

theorem runningNext_eq
    (kmu : GPUKmu numCores) :
    kmu.runningNext = (kmu.running && !(Dim3.next kmu.gridDim kmu.blockIdx).2) := by
  simp only [runningNext, Dim3.next, lastX, lastY, lastZ, Bool.and_eq_true, beq_iff_eq]
  split_ifs <;> simp_all

end GPUKmu

end Verilog

end OpenGPU
