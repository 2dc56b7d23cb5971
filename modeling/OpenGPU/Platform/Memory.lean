import OpenGPU.Platform.Config

/-!
# Simulated physical memory

`sw/runtime/device/memory.c`. A memory is indexed by guest address; the host
array of the sources is its restriction to the window that `in_pmem` accepts.
An access whose `Assert` fails aborts the process and is `none` here.
-/

namespace OpenGPU

/-- Bytes by guest address. -/
abbrev Pmem := Word → Byte

/-- `in_pmem`: one unsigned comparison after a wrapping subtraction. -/
def inPmem (cfg : Config) (addr : Word) : Bool :=
  addr - cfg.mbase < cfg.msize

/-- The little-endian value of `length` bytes, as `memcpy` into a zeroed word
leaves it. -/
def littleEndian (bytes : Nat → Byte) : Nat → Word
  | 0 => 0
  | length + 1 =>
      littleEndian bytes length |||
        ((bytes length).setWidth 32 <<< (8 * length))

/-- Byte `index` of a word. -/
def wordByte (value : Word) (index : Nat) : Byte :=
  (value >>> (8 * index)).setWidth 8

/-- The bytes of a list of words, with zeros behind them. -/
def imageOf (words : List Word) (place : Nat) : Byte :=
  wordByte (words.getD (place / 4) 0) (place % 4)

/-- Both ends of an access lie in physical memory. -/
def accessInPmem (cfg : Config) (addr : Word) (length : Nat) : Bool :=
  inPmem cfg addr && inPmem cfg (addr + BitVec.ofNat 32 length - 1)

/-- `paddr_read`. -/
def paddrRead (cfg : Config) (pmem : Pmem) (addr : Word) (length : Nat) :
    Option Word :=
  if accessInPmem cfg addr length then
    some (littleEndian (fun index => pmem (addr + BitVec.ofNat 32 index)) length)
  else none

/-- Overwrite `length` bytes from `addr` on with the low bytes of `data`. -/
def writeBytes (pmem : Pmem) (addr : Word) (length : Nat) (data : Word) : Pmem :=
  fun target =>
    if (target - addr).toNat < length then
      wordByte data (target - addr).toNat
    else pmem target

/-- `paddr_write`. -/
def paddrWrite (cfg : Config) (pmem : Pmem) (addr : Word) (length : Nat)
    (data : Word) : Option Pmem :=
  if accessInPmem cfg addr length then
    some (writeBytes pmem addr length data)
  else none

/-- The bytes that an access of `length` bytes at `addr` touches. -/
def accessBytes (addr : Word) (length : Nat) : Set Word :=
  { target | (target - addr).toNat < length }

end OpenGPU
