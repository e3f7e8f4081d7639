/-
`Mmu.h` and `Mmu.cpp`: address translation by the Sv32 and Sv39 tables.

The memory is shared with the processor, so it is passed in and returned.
A fault leaves the function with the virtual address as its result, the
flag set and the memory as it was; the messages it prints are not modelled.
-/
import RiscvEmulator.MemoryWrapper
import RiscvEmulator.Pte

namespace RiscvEmulator

structure Mmu where
  mxl : Nat
  pageFault : Bool
  faultingAddress : BitVec 64
  privilege : PrivilegeMode

namespace Mmu

def kPageSize : Nat := 1 <<< 12
def kMmuLevels : Nat := 2
def k64BitMmuLevels : Nat := 3

/-- The constructor. -/
def new : Mmu where
  mxl := 0
  pageFault := false
  faultingAddress := 0
  privilege := .machineMode

def setMxl (u : Mmu) (mxl : Nat) : Mmu := { u with mxl }

def setPrivilege (u : Mmu) (privilege : PrivilegeMode) : Mmu := { u with privilege }

/-- The assignments before every early exit. -/
def fault (u : Mmu) (virtualAddress : BitVec 64) : Mmu :=
  { u with pageFault := true, faultingAddress := virtualAddress }

/-- The loop of `VirtualToPhysical64`: the level, address and value of the
leaf it stops at, or `none` if it leaves with a fault. -/
def walk64 (mem : MemoryWrapper) (vpn : Nat → BitVec 64) (level : Nat) (ppn : BitVec 64) :
    Except Crash (Option (Nat × BitVec 64 × Pte64)) := do
  let kPteSize : BitVec 64 := 8
  let pteAddress := ppn * BitVec.ofNat 64 kPageSize + vpn level * kPteSize
  let pte : Pte64 := ⟨← mem.read64 pteAddress⟩
  if !pte.isValid then
    return none
  if pte.isLeaf then
    return some (level, pteAddress, pte)
  match level with
  | 0 => return none
  | level + 1 => walk64 mem vpn level (pte.getPpn.setWidth 64)

/-- `vpn[level]` of `VirtualToPhysical64`. -/
def vpn64 (virtualAddress : BitVec 64) : Nat → BitVec 64
  | 2 => bitcrop virtualAddress 9 30
  | 1 => bitcrop virtualAddress 9 21
  | _ => bitcrop virtualAddress 9 12

def virtualToPhysical64 (u : Mmu) (mem : MemoryWrapper) (virtualAddress satp : BitVec 64) (writeAccess : Bool) :
    Except Crash (BitVec 64 × Mmu × MemoryWrapper) := do
  let mode := bitcrop satp 4 60
  if mode = 0 then
    return (virtualAddress, u, mem)
  if mode ≠ 8 then
    return (virtualAddress, u.fault virtualAddress, mem)
  let ppn := bitcrop satp 44 0
  let vpn := vpn64 virtualAddress
  let offset := bitcrop virtualAddress 12 0
  match ← walk64 mem vpn (k64BitMmuLevels - 1) ppn with
  | none => return (virtualAddress, u.fault virtualAddress, mem)
  | some (level, pteAddress, pte) =>
    if (level > 0 ∧ pte.getPpn0 ≠ 0) ∨ (level > 1 ∧ pte.getPpn1 ≠ 0) then
      return (virtualAddress, u.fault virtualAddress, mem)
    let pte := pte.setA true
    let pte := if writeAccess then pte.setD true else pte
    let mem ← mem.write64 pteAddress pte.getValue
    let ppn2 := pte.getPpn2.setWidth 64
    let ppn1 := if level > 1 then vpn 1 else pte.getPpn1.setWidth 64
    let ppn0 := if level > 0 then (vpn 0).setWidth 32 else pte.getPpn0
    let physicalAddress := (ppn2 <<< 30) ||| (ppn1 <<< 21) ||| (ppn0.setWidth 64 <<< 12) ||| offset
    return (physicalAddress &&& 0x00FFFFFFFFFFFFFF, u, mem)

/-- The loop of `VirtualToPhysical32`; `vpn0` is the index below the root. -/
def walk32 (mem : MemoryWrapper) (vpn0 : BitVec 32) (level : Nat) (ppn vpn : BitVec 32) :
    Except Crash (Option (Nat × BitVec 32 × Pte32)) := do
  let kPteSize : BitVec 32 := 4
  let pteAddress := ppn * BitVec.ofNat 32 kPageSize + vpn * kPteSize
  let pte : Pte32 := ⟨← mem.read32 (pteAddress.setWidth 64)⟩
  if !pte.isValid then
    return none
  if pte.isLeaf then
    return some (level, pteAddress, pte)
  match level with
  | 0 => return none
  | level + 1 => walk32 mem vpn0 level pte.getPpn vpn0

def virtualToPhysical32 (u : Mmu) (mem : MemoryWrapper) (virtualAddress satp : BitVec 64) (writeAccess : Bool) :
    Except Crash (BitVec 64 × Mmu × MemoryWrapper) := do
  let mode := bitcrop satp 1 31
  if mode = 0 then
    return (virtualAddress, u, mem)
  let ppn := (bitcrop satp 22 0).setWidth 32
  let vpn1 := (bitcrop virtualAddress 10 22).setWidth 16
  let vpn0 := (bitcrop virtualAddress 10 12).setWidth 16
  let offset := (bitcrop virtualAddress 12 0).setWidth 16
  match ← walk32 mem (vpn0.setWidth 32) (kMmuLevels - 1) ppn (vpn1.setWidth 32) with
  | none => return (virtualAddress, u.fault virtualAddress, mem)
  | some (level, pteAddress, pte) =>
    if level > 0 ∧ pte.getPpn0 ≠ 0 then
      return (virtualAddress, u.fault virtualAddress, mem)
    let pte := pte.setA true
    let pte := if writeAccess then pte.setD true else pte
    let mem ← mem.write32 (pteAddress.setWidth 64) pte.getValue
    let ppn1 := pte.getPpn1.setWidth 64
    let ppn0 := if level = 1 then vpn0.setWidth 32 else pte.getPpn0
    let physicalAddress := (ppn1 <<< 22) ||| (ppn0.setWidth 64 <<< 12) ||| offset.setWidth 64
    return (physicalAddress &&& 0xFFFFFFFF, u, mem)

def virtualToPhysical (u : Mmu) (mem : MemoryWrapper) (virtualAddress satp : BitVec 64) (writeAccess : Bool) :
    Except Crash (BitVec 64 × Mmu × MemoryWrapper) :=
  let u := { u with pageFault := false, faultingAddress := 0 }
  if u.privilege = .machineMode then
    .ok (virtualAddress, u, mem)
  else if u.mxl = 1 then
    u.virtualToPhysical32 mem virtualAddress satp writeAccess
  else
    u.virtualToPhysical64 mem virtualAddress satp writeAccess

end Mmu

end RiscvEmulator
