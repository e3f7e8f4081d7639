/-
`RISCV_Emulator.cc` and `RISCV_Emulator.h`: the page tables `run` sets up
before the guest starts, and the `satp` that selects them.

Each loop carries the entry it writes and the memory. The entry is a `Pte32`
in both formats and keeps its flags from one loop to the next.
-/
import RiscvEmulator.Lib.Run
import RiscvEmulator.Mmu

namespace RiscvEmulator

open Run (rounds)

def k32BitMmuLevel1 : BitVec 32 := 0xC0000000
def k32BitMmuLevel0 : BitVec 32 := k32BitMmuLevel1 + (1 <<< 10) * 4

def k64BitMmuLevel2 : BitVec 64 := 0xC0000000
def k64BitMmuLevel1 : BitVec 64 := k64BitMmuLevel2 + (1 <<< 9) * 8
def k64BitMmuLevel0 : BitVec 64 := k64BitMmuLevel1 + 4 * (1 <<< 9) * 8

def k32BitMmuLevelOneSize : Nat := 1024
def k32BitMmuLevelZeroSize : Nat := 1024
def k32BitPteSize : Nat := 4

def k64BitMmuLevelTwoSize : Nat := 512
def k64BitMmuLevelOneSize : Nat := 512
def k64BitMmuLevelZeroSize : Nat := 512
def k64BitPteSize : Nat := 8
def kLevel2ValidEntry : Nat := 4

/-- What the loops carry. -/
abbrev TableState := Pte32 × MemoryWrapper

/-! ## `SetDefaultMmuTable32` -/

def level1Round32 (i : Nat) (s : TableState) : Except Crash TableState := do
  let (pte, memory) := s
  let address := k32BitMmuLevel1 + BitVec.ofNat 32 (i * k32BitPteSize)
  let ppn := (k32BitMmuLevel0 + BitVec.ofNat 32 (i * k32BitMmuLevelZeroSize * k32BitPteSize)) >>> 12
  let pte := pte.setPpn ppn
  let memory ← memory.write32 (address.setWidth 64) pte.getValue
  return (pte, memory)

def level0Round32 (j i : Nat) (s : TableState) : Except Crash TableState := do
  let (pte, memory) := s
  let ppn := BitVec.ofNat 32 (j * k32BitMmuLevelZeroSize + i)
  let address := k32BitMmuLevel0 + ppn * BitVec.ofNat 32 k32BitPteSize
  assert (address < k32BitMmuLevel1 ∨
    k32BitMmuLevel1 + BitVec.ofNat 32 (k32BitMmuLevelOneSize * k32BitPteSize) ≤ address)
  let pte := pte.setPpn ppn
  let memory ← memory.write32 (address.setWidth 64) pte.getValue
  return (pte, memory)

def setDefaultMmuTable32 (memory : MemoryWrapper) : Except Crash MemoryWrapper := do
  let pte : Pte32 := (Pte32.mk 0).setV true
  let (pte, memory) ← rounds level1Round32 k32BitMmuLevelOneSize (pte, memory)
  let pte := ((pte.setX true).setW true).setR true
  let (_, memory) ← rounds (fun j => rounds (level0Round32 j) k32BitMmuLevelZeroSize) k32BitMmuLevelOneSize (pte, memory)
  return memory

/-! ## `SetDefaultMmuTable64` -/

def level2Round64 (i : Nat) (s : TableState) : Except Crash TableState := do
  let (pte, memory) := s
  let address := (k64BitMmuLevel2 + BitVec.ofNat 64 (i * k64BitPteSize)).setWidth 32
  let pte :=
    if i < kLevel2ValidEntry then
      let ppn := (k64BitMmuLevel1 + BitVec.ofNat 64 (i * k64BitMmuLevelOneSize * k64BitPteSize)) >>> 12
      (pte.setV true).setPpn (ppn.setWidth 32)
    else
      pte.setPpn 0
  let memory ← memory.write64 (address.setWidth 64) (pte.getValue.setWidth 64)
  return (pte, memory)

def level1Round64 (j i : Nat) (s : TableState) : Except Crash TableState := do
  let (pte, memory) := s
  let address := (k64BitMmuLevel1 + BitVec.ofNat 64 (j * k64BitMmuLevelOneSize * k64BitPteSize) +
    BitVec.ofNat 64 (i * k64BitPteSize)).setWidth 32
  let ppn := (k64BitMmuLevel0 + BitVec.ofNat 64 (j * k64BitMmuLevelOneSize * k64BitMmuLevelZeroSize * k64BitPteSize) +
    BitVec.ofNat 64 (i * k64BitMmuLevelZeroSize * k64BitPteSize)) >>> 12
  let pte := pte.setPpn (ppn.setWidth 32)
  let memory ← memory.write64 (address.setWidth 64) (pte.getValue.setWidth 64)
  return (pte, memory)

def level0Round64 (k j i : Nat) (s : TableState) : Except Crash TableState := do
  let (pte, memory) := s
  let ppn := BitVec.ofNat 64 (k * k64BitMmuLevelOneSize * k64BitMmuLevelZeroSize + j * k64BitMmuLevelZeroSize + i)
  let address := (k64BitMmuLevel0 + ppn * BitVec.ofNat 64 k64BitPteSize).setWidth 32
  let pte := pte.setPpn (ppn.setWidth 32)
  let memory ← memory.write64 (address.setWidth 64) (pte.getValue.setWidth 64)
  return (pte, memory)

def setDefaultMmuTable64 (memory : MemoryWrapper) : Except Crash MemoryWrapper := do
  let pte : Pte32 := ⟨0⟩
  let (pte, memory) ← rounds level2Round64 k64BitMmuLevelTwoSize (pte, memory)
  let pte := pte.setV true
  let (pte, memory) ← rounds (fun j => rounds (level1Round64 j) k64BitMmuLevelOneSize) kLevel2ValidEntry (pte, memory)
  let pte := ((pte.setX true).setW true).setR true
  let (_, memory) ← rounds (fun k => rounds (fun j => rounds (level0Round64 k j) k64BitMmuLevelZeroSize)
    k64BitMmuLevelOneSize) kLevel2ValidEntry (pte, memory)
  return memory

def setDefaultMmuTable (address64bit : Bool) (memory : MemoryWrapper) : Except Crash MemoryWrapper :=
  if address64bit then setDefaultMmuTable64 memory else setDefaultMmuTable32 memory

/-- The `satp` that `run` starts with. -/
def runSatp (paging address64bit : Bool) : BitVec 64 :=
  if paging then
    if address64bit then (k64BitMmuLevel2 >>> 12) ||| (8#64 <<< 60)
    else ((k32BitMmuLevel1 >>> 12) ||| (1 <<< 31)).setWidth 64
  else 0

/-! ## Translations of a running guest -/

/-- A call of `RiscvCpu::VirtualToPhysical`: what it sets in the translation
unit, and the arguments it passes on. -/
structure Mmu.Call where
  mxl : Nat
  privilege : PrivilegeMode
  satp : BitVec 64
  virtualAddress : BitVec 64
  writeAccess : Bool

def Mmu.call (u : Mmu) (mem : MemoryWrapper) (a : Mmu.Call) : Except Crash (BitVec 64 × Mmu × MemoryWrapper) :=
  ((u.setMxl a.mxl).setPrivilege a.privilege).virtualToPhysical mem a.virtualAddress a.satp a.writeAccess

/-- Any number of them, one after another. -/
def Mmu.runCalls : List Mmu.Call → Mmu → MemoryWrapper → Except Crash (Mmu × MemoryWrapper)
  | [], u, mem => .ok (u, mem)
  | a :: as, u, mem => do
    let (_, u, mem) ← u.call mem a
    runCalls as u mem

end RiscvEmulator
