import OpenGPU.Foundation.LocalAction
import OpenGPU.Platform.Dpi

/-!
# Accesses to physical memory as local actions

The functions of `sw/runtime/device/memory.c` and of the memory half of
`sw/sim/hm/dpi.cpp` keep to the bytes that they are asked for.
-/

namespace OpenGPU

/-- What a program does with the bytes of the guest. -/
abbrev PmemAction (ρ : Type) := LocalAction Word Byte ρ

/-- `paddr_read` looks only at the bytes of the access. -/
theorem paddrRead_congr
    (cfg : Config)
    {mem other : Pmem}
    {addr : Word}
    {length : Nat}
    (same : Set.EqOn other mem (accessBytes addr length)) :
    paddrRead cfg other addr length = paddrRead cfg mem addr length := by
  unfold paddrRead
  split_ifs
  · apply congrArg some
    apply littleEndian_congr
    intro index inRange
    apply same
    show (addr + BitVec.ofNat 32 index - addr).toNat < length
    rw [BitVec.add_comm, BitVec.add_sub_cancel, BitVec.toNat_ofNat]
    exact Nat.lt_of_le_of_lt (Nat.mod_le _ _) inRange
  · rfl

namespace PmemAction

/-- An assertion. -/
def assert (holds : Bool) : PmemAction Unit := .ofOption (if holds then some () else none)

/-- `paddr_read`. -/
def paddrRead (cfg : Config) (addr : Word) (length : Nat) : PmemAction Word :=
  .look (accessBytes addr length) (fun pmem => OpenGPU.paddrRead cfg pmem addr length)
    fun _ _ same => paddrRead_congr cfg same

/-- `paddr_write`. -/
def paddrWrite (cfg : Config) (addr : Word) (length : Nat) (data : Word) : PmemAction Unit := do
  assert (accessInPmem cfg addr length)
  .assign (fun target => (target - addr).toNat < length)
    fun target => wordByte data (target - addr).toNat

theorem run_paddrRead
    (cfg : Config)
    (addr : Word)
    (length : Nat)
    (pmem : Pmem) :
    (paddrRead cfg addr length).run pmem =
      (OpenGPU.paddrRead cfg pmem addr length).map fun value => (value, pmem) := rfl

theorem run_paddrWrite
    (cfg : Config)
    (addr : Word)
    (length : Nat)
    (data : Word)
    (pmem : Pmem) :
    (paddrWrite cfg addr length data).run pmem =
      (OpenGPU.paddrWrite cfg pmem addr length data).map fun written => ((), written) := by
  unfold paddrWrite assert OpenGPU.paddrWrite
  cases accessInPmem cfg addr length <;> rfl

/-- `dpi_paddr_read`. -/
def dpiPaddrRead (cfg : Config) (addr : Word) : PmemAction Word :=
  if inPmem cfg addr then paddrRead cfg addr 4 else pure 0

/-- One byte of a store under a mask. -/
def writeMasked (cfg : Config) (addr : Word) (mask : Byte) (data : Word) (byte : Nat) :
    PmemAction Unit :=
  if mask.getLsbD byte then
    paddrWrite cfg (addr + BitVec.ofNat 32 byte) 1 (data >>> (8 * byte))
  else pure ()

/-- The loop over the bytes of a store, which `dpi_paddr_write` and the DiffTest
half of `tick` share. -/
def dpiPaddrWrite (cfg : Config) (addr : Word) (mask : Byte) (data : Word) : PmemAction Unit :=
  forM (List.range 4) (writeMasked cfg addr mask data)

theorem run_dpiPaddrRead
    (cfg : Config)
    (addr : Word)
    (pmem : Pmem) :
    (dpiPaddrRead cfg addr).run pmem =
      (OpenGPU.dpiPaddrRead cfg pmem addr).map fun value => (value, pmem) := by
  unfold dpiPaddrRead OpenGPU.dpiPaddrRead
  split_ifs <;> rfl

/-- The low byte is all that a store of one byte takes from its data. -/
theorem paddrWrite_lowByte
    (cfg : Config)
    (pmem : Pmem)
    (addr data : Word) :
    OpenGPU.paddrWrite cfg pmem addr 1 (data &&& 0xff) = OpenGPU.paddrWrite cfg pmem addr 1 data := by
  unfold OpenGPU.paddrWrite
  congr 2
  funext target
  unfold writeBytes
  split_ifs with first
  · rw [Nat.lt_one_iff.mp first, wordByte_and]
    exact BitVec.and_allOnes
  · rfl

theorem run_dpiPaddrWrite
    (cfg : Config)
    (addr : Word)
    (mask : Byte)
    (data : Word)
    (pmem : Pmem) :
    (dpiPaddrWrite cfg addr mask data).run pmem =
      (OpenGPU.dpiPaddrWrite cfg pmem addr mask data).map fun written => ((), written) := by
  unfold dpiPaddrWrite OpenGPU.dpiPaddrWrite
  induction List.range 4 generalizing pmem with
  | nil => rfl
  | cons byte bytes inductionHypothesis =>
      have one : (writeMasked cfg addr mask data byte).run pmem =
          (dpiWriteByte cfg addr mask data pmem byte).map fun written => ((), written) := by
        unfold writeMasked dpiWriteByte
        split_ifs
        · rw [run_paddrWrite, paddrWrite_lowByte]
        · rfl
      rw [List.forM_cons, LocalAction.run_bind, one, List.foldlM_cons]
      cases dpiWriteByte cfg addr mask data pmem byte with
      | none => rfl
      | some written => exact inductionHypothesis written

end PmemAction

end OpenGPU
