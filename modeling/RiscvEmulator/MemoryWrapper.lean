/-
`memory_wrapper.h` and `memory_wrapper.cpp`: the guest's physical memory,
32-bit words in 1 MiB blocks that are allocated on first write.

A block is a `std::vector<uint32_t>`, empty until its `assigned_` flag is
set and then of one fixed size; the structure carries that as `sized`, so
no index into an assigned block is out of bounds. Addresses are `size_t`;
only their low 32 bits choose a block and a word.
-/
import Mathlib.Logic.Function.Basic
import RiscvEmulator.Common

namespace RiscvEmulator

/-- `GenerateBitMask`: the loop shifts ones into an `int`, which wraps. -/
def generateBitMask : Nat → BitVec 32
  | 0 => 0
  | bits + 1 => (generateBitMask bits <<< 1) ||| 0b1#32

/-- A `std::vector<uint32_t>` of at most `2^18` words. -/
structure WordVector where
  size : Nat
  get : BitVec 18 → BitVec 32

namespace WordVector

def empty : WordVector := ⟨0, fun _ => 0⟩

/-- `resize(n)`: new elements are zero. -/
def resize (v : WordVector) (n : Nat) : WordVector :=
  ⟨n, fun k => if k.toNat < v.size then v.get k else 0⟩

def set (v : WordVector) (k : BitVec 18) (value : BitVec 32) : WordVector :=
  { v with get := Function.update v.get k value }

end WordVector

def kTotalBits : Nat := 32
def kOffsetBits : Nat := 20
def kWordBits : Nat := 2
def kOffsetMask : BitVec 32 := generateBitMask kOffsetBits
def kEntryBits : Nat := kTotalBits - kOffsetBits
def kEntryMask : BitVec 32 := generateBitMask kEntryBits
/-- The words of an assigned block. -/
def kBlockWords : Nat := 1 <<< (kOffsetBits - kWordBits)

structure MemoryWrapper where
  mapping : BitVec 12 → WordVector
  assigned : BitVec 12 → Bool
  sized : ∀ e, (mapping e).size = if assigned e then kBlockWords else 0

namespace MemoryWrapper

/-- The constructor: no block is assigned. -/
def new : MemoryWrapper where
  mapping _ := .empty
  assigned _ := false
  sized _ := rfl

/-- `(i >> kOffsetBits) & kEntryMask`. Twelve bits, so `CheckRange` never throws. -/
def entry (i : BitVec 64) : BitVec 12 :=
  ((i >>> kOffsetBits) &&& kEntryMask.signExtend 64).setWidth 12

/-- `(i & kOffsetMask) >> kWordBits`. -/
def wordOffset (i : BitVec 64) : BitVec 18 :=
  ((i &&& kOffsetMask.signExtend 64) >>> kWordBits).setWidth 18

def checkRange (m : MemoryWrapper) (e : BitVec 12) : Bool := m.assigned e

/-- `assigned_[e] = true` and `mapping_[e].resize(..)`. -/
def assign (m : MemoryWrapper) (e : BitVec 12) : MemoryWrapper where
  mapping := Function.update m.mapping e ((m.mapping e).resize kBlockWords)
  assigned := Function.update m.assigned e true
  sized e' := by
    by_cases h : e' = e
    · subst h; simp [WordVector.resize]
    · simp [Function.update_of_ne h, m.sized e']

/-- `mapping_[e][k] = value`. -/
def setWord (m : MemoryWrapper) (e : BitVec 12) (k : BitVec 18) (value : BitVec 32) : MemoryWrapper where
  mapping := Function.update m.mapping e ((m.mapping e).set k value)
  assigned := m.assigned
  sized e' := by
    by_cases h : e' = e
    · subst h; simp [WordVector.set, m.sized e']
    · simp [Function.update_of_ne h, m.sized e']

def read32 (m : MemoryWrapper) (i : BitVec 64) : Except Crash (BitVec 32) := do
  assert (i &&& 0b11#64 == 0#64)
  if m.checkRange (entry i) then
    return (m.mapping (entry i)).get (wordOffset i)
  else
    return 0

def write32 (m : MemoryWrapper) (i : BitVec 64) (value : BitVec 32) : Except Crash MemoryWrapper := do
  assert (i &&& 0b11#64 == 0#64)
  let m := if m.checkRange (entry i) then m else m.assign (entry i)
  return m.setWord (entry i) (wordOffset i) value

def readByte (m : MemoryWrapper) (i : BitVec 64) : Except Crash (BitVec 8) := do
  let dramAddress := (i >>> kWordBits) <<< kWordBits
  let readData := (← m.read32 dramAddress).setWidth 64
  let byteOffset := (i &&& 0b11).toNat
  return ((readData >>> (byteOffset * 8)) &&& 0xFF).setWidth 8

def writeByteMask : List (BitVec 64) := [0xFFFFFF00, 0xFFFF00FF, 0xFF00FFFF, 0x00FFFFFF]

def writeByte (m : MemoryWrapper) (i : BitVec 64) (data : BitVec 8) : Except Crash MemoryWrapper := do
  let dramAddress := (i >>> kWordBits) <<< kWordBits
  let originalData := (← m.read32 dramAddress).setWidth 64
  let byteOffset := (i &&& 0b11).toNat
  let writeData := (originalData &&& writeByteMask.getD byteOffset 0) ||| (data.setWidth 64 <<< (byteOffset * 8))
  m.write32 dramAddress (writeData.setWidth 32)

def read16 (m : MemoryWrapper) (i : BitVec 64) : Except Crash (BitVec 16) := do
  assert (i &&& 1#64 == 0#64)
  let dramAddress := (i >>> kWordBits) <<< kWordBits
  let readData := (← m.read32 dramAddress).setWidth 64
  let shortWordOffset := (i &&& 0b11).toNat
  return ((readData >>> (shortWordOffset * 8)) &&& 0xFFFF).setWidth 16

def write16Mask : List (BitVec 64) := [0xFFFF0000, 0x0000FFFF]

def write16 (m : MemoryWrapper) (i : BitVec 64) (data : BitVec 16) : Except Crash MemoryWrapper := do
  assert (i &&& 1#64 == 0#64)
  let dramAddress := (i >>> kWordBits) <<< kWordBits
  let originalData ← m.read32 dramAddress
  let shortWordOffset := ((i >>> 1) &&& 1).toNat
  let writeData := (originalData &&& (write16Mask.getD shortWordOffset 0).setWidth 32) |||
    (data.setWidth 32 <<< (shortWordOffset * 16))
  m.write32 dramAddress writeData

def read64 (m : MemoryWrapper) (i : BitVec 64) : Except Crash (BitVec 64) := do
  assert (i &&& 0b111#64 == 0#64)
  let dramAddress := (i >>> kWordBits) <<< kWordBits
  let readDataLower := (← m.read32 dramAddress).setWidth 64
  let readDataUpper := (← m.read32 (dramAddress + 4)).setWidth 64
  return readDataLower ||| (readDataUpper <<< 32)

def write64 (m : MemoryWrapper) (i : BitVec 64) (value : BitVec 64) : Except Crash MemoryWrapper := do
  assert (i &&& 0b111#64 == 0#64)
  let dramAddress := (i >>> kWordBits) <<< kWordBits
  let m ← m.write32 dramAddress ((value &&& 0xFFFFFFFF).setWidth 32)
  m.write32 (dramAddress + 4) (((value >>> 32) &&& 0xFFFFFFFF).setWidth 32)

end MemoryWrapper

end RiscvEmulator
