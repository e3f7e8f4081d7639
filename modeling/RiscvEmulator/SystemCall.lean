/-
`system_call_emulator.cpp`: the system calls served when `ecall` emulation
is on.

`debug` is never set, so its messages are left out. An `int` length below
zero makes `new` throw. `openHandles` is a global of the file; it is kept
with the calls made so far.
-/
import RiscvEmulator.Host
import RiscvEmulator.Lib.Run
import RiscvEmulator.MemoryWrapper

namespace RiscvEmulator

/-- What the host side remembers: the calls made, the last one first, and
`openHandles`. -/
structure HostState where
  calls : List HostCall := []
  openHandles : Nat := 0

/-- What `SystemCallEmulation` can change, and the pair it returns. -/
structure SystemCallResult where
  mem : MemoryWrapper
  reg : RegisterFile
  brk : BitVec 64
  host : HostState
  errorFlag : Bool := false
  endFlag : Bool := false

/-- The loop of `MemoryWrapperStrlen`; `max` counts down. -/
def memoryWrapperStrlen (mem : MemoryWrapper) (address : BitVec 64) : (max : Nat) → Except Crash Nat
  | 0 => do
    let _ ← mem.readByte address
    return 0
  | max + 1 => do
    if (← mem.readByte address) = 0 then
      return 0
    return (← memoryWrapperStrlen mem (address + 1) max) + 1

def memoryWrapperCopy (mem : MemoryWrapper) (address : BitVec 64) (length : Nat) : Except Crash (List (BitVec 8)) :=
  (List.range length).mapM fun i => mem.readByte (address + BitVec.ofNat 64 i)

/-- The first `n` rounds of the loops that copy a buffer to the guest. -/
def copyToGuest (mem : MemoryWrapper) (address : BitVec 64) (buffer : Nat → BitVec 8) : Nat → Except Crash MemoryWrapper
  | 0 => .ok mem
  | n + 1 => do
    let mem ← copyToGuest mem address buffer n
    mem.writeByte (address + BitVec.ofNat 64 n) (buffer n)

/-- `int length = reg[A2]; new unsigned char[length]`. -/
def bufferLength (length : BitVec 64) : Except Crash Nat :=
  if 0 ≤ (length.setWidth 32).toInt then .ok (length.setWidth 32).toNat else .error .badAlloc

/-- `sizeof(Riscv32NewlibStat)`. -/
def kGuestStatSize : Nat := 88

/-- `ConvHostStatToGuestStat`: offset, bytes and value of each field set. -/
def convHostStatToGuestStat (st : HostStat) : List (Nat × Nat × BitVec 64) :=
  [(0, 2, st.dev), (2, 2, st.ino), (4, 4, st.mode.setWidth 64), (8, 2, st.nlink), (10, 2, st.uid.setWidth 64),
    (12, 2, st.gid.setWidth 64), (14, 2, st.rdev), (16, 4, st.size), (68, 4, st.blksize), (72, 4, st.blocks),
    (24, 8, st.atim), (40, 8, st.mtim), (56, 8, st.ctim)]

/-- The bytes of `guest_stat`; those of no field are what they were. -/
def guestStatBytes (fields : List (Nat × Nat × BitVec 64)) (before : Nat → BitVec 8) (i : Nat) : BitVec 8 :=
  match fields.find? fun f => f.1 ≤ i ∧ i < f.1 + f.2.1 with
  | none => before i
  | some (offset, _, value) => value.extractLsb' (8 * (i - offset)) 8

/-- The flags of `open`, from newlib's. -/
def openFlags (flags : BitVec 64) : OpenFlags where
  rdwr := flags &&& 0x000002 ≠ 0
  append := flags &&& 0x000008 ≠ 0
  cloexec := flags &&& 0x040000 ≠ 0
  creat := flags &&& 0x000200 ≠ 0
  direct := flags &&& 0x080000 ≠ 0
  directory := flags &&& 0x200000 ≠ 0
  excl := flags &&& 0x000800 ≠ 0
  noctty := flags &&& 0x008000 ≠ 0
  nonblock := flags &&& 0x004000 ≠ 0
  sync := flags &&& 0x002000 ≠ 0
  trunc := flags &&& 0x000400 ≠ 0

section

variable (host : Host) (mem : MemoryWrapper) (reg : RegisterFile) (brk : BitVec 64) (hs : HostState)

def writeCall : Except Crash SystemCallResult := do
  let length ← bufferLength (reg a2)
  let buffer ← memoryWrapperCopy mem (reg a1) length
  let fd := (reg a0).setWidth 32
  let returnValue := host.write hs.calls fd buffer
  return { mem, reg := Function.update reg a0 returnValue, brk,
           host := { hs with calls := .write fd buffer :: hs.calls } }

def brkCall (top : BitVec 64) : SystemCallResult :=
  if reg a0 = 0 then { mem, reg := Function.update reg a0 brk, brk, host := hs }
  else if reg a0 < top then { mem, reg, brk := reg a0, host := hs }
  else { mem, reg := Function.update reg a0 (-1), brk, host := hs }

def readCall : Except Crash SystemCallResult := do
  let length ← bufferLength (reg a2)
  let fd := (reg a0).setWidth 32
  let (returnValue, buffer) := host.read hs.calls fd length
  let reg := Function.update reg a0 ((returnValue.setWidth 32).setWidth 64)
  let mem ← copyToGuest mem (reg a1) buffer length
  return { mem, reg, brk, host := { hs with calls := .read fd length :: hs.calls } }

def fstatCall : Except Crash SystemCallResult := do
  let fd := (reg a0).setWidth 32
  let (returnValue, hostStat, before) := host.fstat hs.calls fd
  let mem ← copyToGuest mem (reg a1) (guestStatBytes (convHostStatToGuestStat hostStat) before) kGuestStatSize
  return { mem, reg := Function.update reg a0 (returnValue.signExtend 64), brk,
           host := { hs with calls := .fstat fd :: hs.calls } }

def closeCall : SystemCallResult :=
  if hs.openHandles > 0 then
    let fd := (reg a0).setWidth 32
    { mem, reg := Function.update reg a0 ((host.close hs.calls fd).signExtend 64), brk,
      host := { calls := .close fd :: hs.calls, openHandles := hs.openHandles - 1 } }
  else
    { mem, reg := Function.update reg a0 0, brk, host := hs }

def openCall : Except Crash SystemCallResult := do
  let kMax := 1024
  let length ← memoryWrapperStrlen mem (reg a0) kMax
  if length > 0 then
    let path ← memoryWrapperCopy mem (reg a0) length
    let returnValue := host.openFile hs.calls path (openFlags (reg a1)) (reg a2)
    return { mem, reg := Function.update reg a0 (returnValue.signExtend 64), brk,
             host := { calls := .openFile path (openFlags (reg a1)) (reg a2) :: hs.calls,
                       openHandles := if 0 ≤ returnValue.toInt then hs.openHandles + 1 else hs.openHandles } }
  else
    return { mem, reg := Function.update reg a0 (-1), brk, host := hs }

def lseekCall : SystemCallResult :=
  let fd := (reg a0).setWidth 32
  let returnValue := (host.lseek hs.calls fd (reg a1) ((reg a2).setWidth 32)).setWidth 32
  { mem, reg := Function.update reg a0 (returnValue.signExtend 64), brk,
    host := { hs with calls := .lseek fd (reg a1) ((reg a2).setWidth 32) :: hs.calls } }

def systemCallEmulation (top : BitVec 64) : Except Crash SystemCallResult :=
  if reg a7 = 93 then .ok { mem, reg, brk, host := hs, endFlag := true }
  else if reg a7 = 64 then writeCall host mem reg brk hs
  else if reg a7 = 214 then .ok (brkCall mem reg brk hs top)
  else if reg a7 = 63 then readCall host mem reg brk hs
  else if reg a7 = 80 then fstatCall host mem reg brk hs
  else if reg a7 = 57 then .ok (closeCall host mem reg brk hs)
  else if reg a7 = 1024 then openCall host mem reg brk hs
  else if reg a7 = 62 then .ok (lseekCall host mem reg brk hs)
  else .ok { mem, reg, brk, host := hs, endFlag := true }

end

end RiscvEmulator
