/-
`RiscvCpu`: its state, its memory accesses, control and status registers,
traps and interrupts.

`xlen_` and `mxl_` are set together by the constructor and never change, so
the state has one flag for both. The memory is shared with the translation
unit and the devices and stands once in the state. `trapLog` is not in the
source: it records the traps taken, so that a theorem can say that one was
or was not.
-/
import RiscvEmulator.Decode
import RiscvEmulator.Mmu
import RiscvEmulator.Peripheral
import RiscvEmulator.SystemCall

namespace RiscvEmulator

/-! ## Constants -/

/-! `enum ExceptionCode`. -/

def supervisorSoftwareInterrupt : Nat := 1
def machineSoftwareInterrupt : Nat := 3
def supervisorTimerInterrupt : Nat := 5
def machineTimerInterrupt : Nat := 7
def supervisorExternalInterrupt : Nat := 9
def machineExternalInterrupt : Nat := 11
def illegalInstruction : Nat := 2
def ecallUmode : Nat := 8
def ecallSmode : Nat := 9
def ecallMmode : Nat := 11
def instructionPageFault : Nat := 12
def loadPageFault : Nat := 13
def storePageFault : Nat := 15

/-! The `CsrsAddresses` that the code reads or writes itself. -/

namespace Csr

def ustatus : BitVec 12 := 0x000
def uie : BitVec 12 := 0x004
def uip : BitVec 12 := 0x044
def sstatus : BitVec 12 := 0x100
def sie : BitVec 12 := 0x104
def stvec : BitVec 12 := 0x105
def sepc : BitVec 12 := 0x141
def scause : BitVec 12 := 0x142
def stval : BitVec 12 := 0x143
def sip : BitVec 12 := 0x144
def satp : BitVec 12 := 0x180
def mstatus : BitVec 12 := 0x300
def misa : BitVec 12 := 0x301
def medeleg : BitVec 12 := 0x302
def mideleg : BitVec 12 := 0x303
def mie : BitVec 12 := 0x304
def mtvec : BitVec 12 := 0x305
def mepc : BitVec 12 := 0x341
def mcause : BitVec 12 := 0x342
def mtval : BitVec 12 := 0x343
def mip : BitVec 12 := 0x344

end Csr

def kSstatusMask32 : BitVec 64 := 0b11011110000100110011
def kUstatusMask32 : BitVec 64 := 0b11011110000000010001
def kSstatusMask64 : BitVec 64 := 0b1100000000000011011110000100110011
def kUstatusMask64 : BitVec 64 := 0b0000000000000011011110000000010001
def kUipMask : BitVec 64 := 0b0000100010001
def kSipMask : BitVec 64 := 0b0001100110011
def kUieMask : BitVec 64 := 0b0000100010001
def kSieMask : BitVec 64 := 0b0001100110011

/-! ## State -/

structure RiscvCpu where
  en64bit : Bool
  reg : RegisterFile
  pc : BitVec 64
  ir : BitVec 32
  nextPc : BitVec 64
  mstatus : BitVec 64
  mie : BitVec 64
  mip : BitVec 64
  privilege : PrivilegeMode
  memory : MemoryWrapper
  csrs : BitVec 12 → BitVec 64
  ctype : Bool
  pageFault : Bool
  prevPageFault : Bool
  prevFaultingAddress : BitVec 64
  errorFlag : Bool
  endFlag : Bool
  faultingAddress : BitVec 64
  mmu : Mmu
  peripheral : PeripheralEmulator
  ecallEmulation : Bool
  hostEmulation : Bool
  peripheralEmulation : Bool
  virtioInterrupt : Bool
  uartInterrupt : Bool
  disableMachineInterruptDelegation : Bool
  top : BitVec 64
  bottom : BitVec 64
  brk : BitVec 64
  host : HostState
  trapLog : List (Nat × Bool)

namespace RiscvCpu

def xlen (c : RiscvCpu) : Nat := if c.en64bit then 64 else 32
def mxl (c : RiscvCpu) : Nat := if c.en64bit then 2 else 1

def setReg (c : RiscvCpu) (rd : BitVec 5) (value : BitVec 64) : RiscvCpu :=
  { c with reg := Function.update c.reg rd value }

def setCsr (c : RiscvCpu) (csr : BitVec 12) (value : BitVec 64) : RiscvCpu :=
  { c with csrs := Function.update c.csrs csr value }

def ustatusMask (c : RiscvCpu) : BitVec 64 := if c.mxl = 1 then kUstatusMask32 else kUstatusMask64
def sstatusMask (c : RiscvCpu) : BitVec 64 := if c.mxl = 1 then kSstatusMask32 else kSstatusMask64

def applyMstatusToCsr (c : RiscvCpu) : RiscvCpu :=
  let c := c.setCsr Csr.ustatus (c.mstatus &&& c.ustatusMask)
  let c := c.setCsr Csr.sstatus (c.mstatus &&& c.sstatusMask)
  c.setCsr Csr.mstatus c.mstatus

def extensions : BitVec 32 := 0b00000101000010000100000000

/-- The constructor and `InitializeCsrs`. In 64-bit mode the value of MISA
comes from a shift C++ leaves undefined; it is `misa64`. What the
constructor leaves unset is zero. -/
def new (en64bit : Bool) (misa64 : BitVec 64) : RiscvCpu :=
  let mstatus : BitVec 64 := if en64bit then (2#64 <<< 34) ||| (2#64 <<< 32) else 0
  let c : RiscvCpu :=
    { en64bit, mstatus, reg := fun _ => 0, pc := 0, ir := 0, nextPc := 0, mie := 0, mip := 0,
      privilege := .machineMode, memory := .new,
      csrs := fun i => if i = Csr.misa then if en64bit then misa64 else ((1#32 <<< 30) ||| extensions).setWidth 64 else 0,
      ctype := false, pageFault := false, prevPageFault := false, prevFaultingAddress := 0, errorFlag := false,
      endFlag := false, faultingAddress := 0, mmu := .new, peripheral := .new (if en64bit then 2 else 1),
      ecallEmulation := false, hostEmulation := false, peripheralEmulation := false, virtioInterrupt := false,
      uartInterrupt := false, disableMachineInterruptDelegation := false, top := 0x80000000, bottom := 0x40000000,
      brk := 0x40000000, host := {}, trapLog := [] }
  if en64bit then c.applyMstatusToCsr else c

/-! ### The setters -/

def setMemory (c : RiscvCpu) (memory : MemoryWrapper) : RiscvCpu := { c with memory }

def setWorkMemory (c : RiscvCpu) (top bottom : BitVec 64) : RiscvCpu := { c with top, bottom }

def setEcallEmulationEnable (c : RiscvCpu) (ecallEmulation : Bool) : RiscvCpu := { c with ecallEmulation }

def setDisableMachineInterruptDelegation (c : RiscvCpu) (disable : Bool) : RiscvCpu :=
  { c with disableMachineInterruptDelegation := disable }

def setHostEmulationEnable (c : RiscvCpu) (hostEmulation : Bool) : RiscvCpu :=
  { c with hostEmulation, peripheral := c.peripheral.setHostEmulationEnable hostEmulation }

def setDeviceEmulationEnable (c : RiscvCpu) (enable : Bool) : RiscvCpu :=
  { c with peripheralEmulation := enable, peripheral := c.peripheral.setDeviceEmulationEnable enable }

def setDiskImage (c : RiscvCpu) (diskImage : Option (List (BitVec 8))) : RiscvCpu :=
  { c with peripheral := c.peripheral.setDiskImage diskImage }

def deviceInitialization (c : RiscvCpu) : Except Crash RiscvCpu := do
  if !c.peripheralEmulation then
    return c
  let (peripheral, memory) ← c.peripheral.initializeAll c.memory
  return { c with peripheral, memory }

/-! ## Memory accesses -/

def intToPrivilegeMode (value : BitVec 64) : Except Crash PrivilegeMode :=
  if value = 0 then .ok .userMode
  else if value = 1 then .ok .supervisorMode
  else if value = 3 then .ok .machineMode
  else .error .outOfRange

def privilegeToInt : PrivilegeMode → BitVec 64
  | .userMode => 0
  | .supervisorMode => 1
  | .machineMode => 3

/-- The privilege an access is translated with. -/
def accessPrivilege (c : RiscvCpu) : Except Crash PrivilegeMode :=
  if c.privilege = .machineMode ∧ bitcrop (c.csrs Csr.mstatus) 1 17 = 1 then
    intToPrivilegeMode (bitcrop (c.csrs Csr.mstatus) 2 11)
  else .ok c.privilege

def virtualToPhysical (c : RiscvCpu) (virtualAddress : BitVec 64) (writeAccess : Bool) :
    Except Crash (BitVec 64 × RiscvCpu) := do
  let privilege ← c.accessPrivilege
  let mmu := (c.mmu.setMxl c.mxl).setPrivilege privilege
  let (physicalAddress, mmu, memory) ← mmu.virtualToPhysical c.memory virtualAddress (c.csrs Csr.satp) writeAccess
  let c := { c with mmu, memory }
  if mmu.pageFault then
    return (physicalAddress, { c with pageFault := true, faultingAddress := mmu.faultingAddress })
  return (physicalAddress, c)

/-- The first `width` rounds of the loop of `LoadWd`. -/
def loadBytes (mem : MemoryWrapper) (physicalAddress : BitVec 64) : (width : Nat) → Except Crash (BitVec 64)
  | 0 => .ok 0
  | offset + 1 => do
    let result ← loadBytes mem physicalAddress offset
    let loadedByte ← mem.readByte (physicalAddress + BitVec.ofNat 64 offset)
    return result ||| (loadedByte.setWidth 64 <<< (offset * 8))

def loadWd (mem : MemoryWrapper) (physicalAddress : BitVec 64) (width : Nat) : Except Crash (BitVec 64) := do
  assert (1 ≤ width ∧ width ≤ 8)
  if width = 4 ∧ physicalAddress &&& 0b11#64 = 0#64 then
    return (← mem.read32 physicalAddress).setWidth 64
  else if width = 8 ∧ physicalAddress &&& 0b111#64 = 0#64 then
    mem.read64 physicalAddress
  else
    loadBytes mem physicalAddress width

/-- The first `width` rounds of the loop of `StoreWd`. -/
def storeBytes (mem : MemoryWrapper) (physicalAddress data : BitVec 64) : (width : Nat) → Except Crash MemoryWrapper
  | 0 => .ok mem
  | offset + 1 => do
    let mem ← storeBytes mem physicalAddress data offset
    mem.writeByte (physicalAddress + BitVec.ofNat 64 offset) (((data >>> (offset * 8)) &&& 0xFF).setWidth 8)

def storeWd (mem : MemoryWrapper) (physicalAddress data : BitVec 64) (width : Nat) : Except Crash MemoryWrapper := do
  assert (1 ≤ width ∧ width ≤ 8)
  if width = 4 ∧ physicalAddress &&& 0b11#64 = 0#64 then
    mem.write32 physicalAddress (data.setWidth 32)
  else if width = 8 ∧ physicalAddress &&& 0b111#64 = 0#64 then
    mem.write64 physicalAddress data
  else
    storeBytes mem physicalAddress data width

def loadCmd (c : RiscvCpu) (pc : BitVec 64) : Except Crash (BitVec 32 × RiscvCpu) := do
  let (physicalAddress, c) ← c.virtualToPhysical pc false
  let dramAddress := (physicalAddress >>> 2) <<< 2
  let cmd ← c.memory.read32 dramAddress
  let cmd := if pc &&& 0b10 = 0b10 then (cmd >>> 16) &&& 0xFFFF else cmd
  let (cmd, c) ←
    if !c.pageFault ∧ pc &&& 0b10 = 0b10 ∧ cmd &&& 0b11 = 0b11 then do
      let (physicalAddressUpper, c) ← c.virtualToPhysical (pc + 2) false
      let cmdUpper ← c.memory.read32 ((physicalAddressUpper >>> 2) <<< 2)
      pure ((cmd &&& 0xFFFF) ||| ((cmdUpper &&& 0xFFFF) <<< 16), c)
    else pure (cmd, c)
  return (if cmd &&& 0b11 = 0b11 then cmd else cmd &&& 0xFFFF, c)

/-! ## Control and status registers -/

def applyInterruptPending (c : RiscvCpu) : RiscvCpu :=
  let c := c.setCsr Csr.uip (c.mip &&& kUipMask)
  let c := c.setCsr Csr.sip (c.mip &&& kSipMask)
  c.setCsr Csr.mip c.mip

def applyInterruptEnable (c : RiscvCpu) : RiscvCpu :=
  let c := c.setCsr Csr.uie (c.mie &&& kUieMask)
  let c := c.setCsr Csr.sie (c.mie &&& kSieMask)
  c.setCsr Csr.mie c.mie

/-- The bits of `mstatus` that are hardwired: SD, XS and FS are zero, and in
64-bit mode SXL and UXL are two. -/
def hardwireMstatus (c : RiscvCpu) (mstatus : BitVec 64) : BitVec 64 :=
  let sdXsFsMask : BitVec 64 := (1#64 <<< (c.xlen - 1)) ||| 0b011110000000000000
  let mstatus := mstatus &&& ~~~sdXsFsMask
  if c.mxl = 2 then (mstatus &&& ~~~(0b1111#64 <<< 32)) ||| (0b1010#64 <<< 32) else mstatus

def updateMstatus (c : RiscvCpu) (csr : BitVec 12) : RiscvCpu :=
  let mstatus :=
    if csr = Csr.ustatus then
      (c.mstatus &&& ~~~c.ustatusMask) ||| (c.csrs Csr.ustatus &&& c.ustatusMask)
    else if csr = Csr.sstatus then
      (c.mstatus &&& ~~~c.sstatusMask) ||| (c.csrs Csr.sstatus &&& c.sstatusMask)
    else if csr = Csr.mstatus then c.csrs Csr.mstatus
    else c.mstatus
  { c with mstatus := c.hardwireMstatus mstatus }.applyMstatusToCsr

def updateInterruptPending (c : RiscvCpu) (csr : BitVec 12) : RiscvCpu :=
  if csr = Csr.mip then { c with mip := c.csrs Csr.mip }.applyInterruptPending
  else if csr = Csr.uip then
    { c with mip := (c.mip &&& ~~~kUipMask) ||| (c.csrs Csr.uip &&& kUipMask) }.applyInterruptPending
  else if csr = Csr.sip then
    { c with mip := (c.mip &&& ~~~kSipMask) ||| (c.csrs Csr.sip &&& kSipMask) }.applyInterruptPending
  else c

def updateInterruptEnable (c : RiscvCpu) (csr : BitVec 12) : RiscvCpu :=
  if csr = Csr.mie then { c with mie := c.csrs Csr.mie }.applyInterruptEnable
  else if csr = Csr.uie then
    { c with mie := (c.mie &&& ~~~kUieMask) ||| (c.csrs Csr.uie &&& kUieMask) }.applyInterruptEnable
  else if csr = Csr.sie then
    { c with mie := (c.mie &&& ~~~kSieMask) ||| (c.csrs Csr.sie &&& kSieMask) }.applyInterruptEnable
  else c

def updateStatus (c : RiscvCpu) (csr : BitVec 12) : RiscvCpu :=
  if csr = Csr.ustatus ∨ csr = Csr.sstatus ∨ csr = Csr.mstatus then c.updateMstatus csr
  else if csr = Csr.uip ∨ csr = Csr.sip ∨ csr = Csr.mip then c.updateInterruptPending csr
  else if csr = Csr.uie ∨ csr = Csr.sie ∨ csr = Csr.mie then c.updateInterruptEnable csr
  else c

/-- The new value of a CSR. In `CSRRCI` the complement is of a `uint32_t`,
so it clears the upper half too. -/
def csrValue (c : RiscvCpu) (instruction : Instruction) (t : BitVec 64) (rs1 : BitVec 5) : BitVec 64 :=
  match instruction with
  | .csrrc => t &&& ~~~c.reg rs1
  | .csrrci => t &&& (~~~(rs1.setWidth 32)).setWidth 64
  | .csrrs => t ||| c.reg rs1
  | .csrrsi => t ||| rs1.setWidth 64
  | .csrrw => c.reg rs1
  | .csrrwi => rs1.setWidth 64
  | _ => t

def csrsInstruction (c : RiscvCpu) (instruction : Instruction) (csr : BitVec 12) (rd rs1 : BitVec 5) : RiscvCpu :=
  let t := c.csrs csr
  let newT := c.csrValue instruction t rs1
  ((c.setCsr csr newT).setReg rd t).updateStatus csr

/-! ## Interrupts and traps -/

def setInterruptPending (c : RiscvCpu) (cause : Nat) : RiscvCpu :=
  { c with mip := bitset c.mip 1 cause 1 }.applyInterruptEnable

def clearInterruptPending (c : RiscvCpu) (cause : Nat) : RiscvCpu :=
  { c with mip := bitset c.mip 1 cause 0 }.applyInterruptPending

/-- The assertion at the head of `Trap`. -/
def trapAccepts (cause : Nat) (interrupt : Bool) : Bool :=
  if interrupt then
    cause = machineTimerInterrupt ∨ cause = supervisorSoftwareInterrupt ∨ cause = supervisorExternalInterrupt
  else
    cause = instructionPageFault ∨ cause = loadPageFault ∨ cause = storePageFault ∨ cause = ecallUmode ∨
      cause = ecallSmode ∨ cause = ecallMmode

def isPageFault (cause : Nat) : Bool :=
  cause = instructionPageFault ∨ cause = loadPageFault ∨ cause = storePageFault

/-- The book-keeping of a page fault. -/
def recordPageFault (c : RiscvCpu) : RiscvCpu :=
  { c with
    errorFlag := c.errorFlag || (c.prevPageFault && c.prevFaultingAddress == c.faultingAddress)
    prevPageFault := c.pageFault
    prevFaultingAddress := c.faultingAddress
    pageFault := false }

/-- `global_mie`. -/
def globalMie (c : RiscvCpu) : Bool :=
  (c.privilege = .machineMode ∧ bitcrop c.mstatus 1 3 = 1) ∨ c.privilege ≠ .machineMode

/-- `global_sie`. -/
def globalSie (c : RiscvCpu) : Bool :=
  (c.privilege = .supervisorMode ∧ bitcrop c.mstatus 1 1 = 1) ∨ c.privilege = .userMode

/-- `sv_delegation`. -/
def svDelegation (c : RiscvCpu) (cause : Nat) (interrupt : Bool) : Bool :=
  let deleg :=
    if interrupt then
      c.csrs Csr.mideleg &&& (if c.disableMachineInterruptDelegation then 0x666 else 0xfff)
    else c.csrs Csr.medeleg
  (c.privilege = .userMode ∨ c.privilege = .supervisorMode) ∧ bitcrop deleg 1 cause = 1

def trapValue (c : RiscvCpu) (cause : Nat) (interrupt : Bool) : BitVec 64 :=
  if !interrupt then
    if isPageFault cause then c.faultingAddress
    else if cause = illegalInstruction then c.ir.setWidth 64
    else 0
  else 0

def trapCause (c : RiscvCpu) (cause : Nat) (interrupt : Bool) : BitVec 64 :=
  BitVec.ofNat 64 cause ||| (if interrupt then 1#64 <<< (c.xlen - 1) else 0)

/-- The address a trap continues at. -/
def trapVector (c : RiscvCpu) (tvec xcause : BitVec 64) (interrupt : Bool) : BitVec 64 :=
  if tvec &&& 0b11 = 0 ∨ interrupt then tvec &&& ~~~0b11
  else (tvec &&& ~~~0b11) + 4 * (xcause &&& genMask 64 (c.xlen - 1) 0)

def boolToInt (b : Bool) : BitVec 64 := if b then 1 else 0

/-- The supervisor branch of `Trap`. -/
def trapToSupervisor (c : RiscvCpu) (cause : Nat) (interrupt sie : Bool) : RiscvCpu :=
  let tval := c.trapValue cause interrupt
  let c := c.setCsr Csr.scause (c.trapCause cause interrupt)
  let c := c.setCsr Csr.sepc c.pc
  let c := { c with nextPc := c.trapVector (c.csrs Csr.stvec) (c.csrs Csr.scause) interrupt }
  let c := c.setCsr Csr.stval tval
  let mstatus := bitset c.mstatus 1 5 (boolToInt sie)
  let mstatus := bitset mstatus 1 1 0
  let mstatus := bitset mstatus 1 8 (privilegeToInt c.privilege)
  { { c with mstatus }.applyMstatusToCsr with privilege := .supervisorMode }

/-- The machine branch of `Trap`. -/
def trapToMachine (c : RiscvCpu) (cause : Nat) (interrupt mie : Bool) : RiscvCpu :=
  let tval := c.trapValue cause interrupt
  let c := c.setCsr Csr.mcause (c.trapCause cause interrupt)
  let c := c.setCsr Csr.mepc c.pc
  let c := { c with nextPc := c.trapVector (c.csrs Csr.mtvec) (c.csrs Csr.mcause) interrupt }
  let c := c.setCsr Csr.mtval tval
  let mstatus := bitset c.mstatus 1 7 (boolToInt mie)
  let mstatus := bitset mstatus 1 3 0
  let mstatus := bitset mstatus 2 11 (privilegeToInt c.privilege)
  { { c with mstatus }.applyMstatusToCsr with privilege := .machineMode }

/-- The part of `Trap` before the delegation: the book-keeping. -/
def enterTrap (c : RiscvCpu) (cause : Nat) (interrupt : Bool) : RiscvCpu :=
  let c := { c with trapLog := (cause, interrupt) :: c.trapLog }
  if !interrupt ∧ isPageFault cause then c.recordPageFault else c

/-- The part of it after the delivery. -/
def leaveTrap (c : RiscvCpu) (cause : Nat) (interrupt : Bool) : RiscvCpu :=
  let c :=
    if interrupt ∧ cause ≠ supervisorSoftwareInterrupt ∧ cause ≠ machineSoftwareInterrupt then
      c.clearInterruptPending cause
    else c
  c.applyMstatusToCsr

/-- `Trap` after its assertion. -/
def trapBody (c : RiscvCpu) (cause : Nat) (interrupt : Bool) : RiscvCpu :=
  let mie := c.globalMie
  let sie := c.globalSie
  let c := c.enterTrap cause interrupt
  let c :=
    if c.svDelegation cause interrupt then c.trapToSupervisor cause interrupt sie
    else c.trapToMachine cause interrupt mie
  c.leaveTrap cause interrupt

def trap (c : RiscvCpu) (cause : Nat) (interrupt : Bool) : Except Crash RiscvCpu := do
  assert (trapAccepts cause interrupt)
  return c.trapBody cause interrupt

def checkPendingInterrupt (c : RiscvCpu) : Except Crash (Bool × RiscvCpu) :=
  let interruptStatus := c.mip &&& c.mie
  let mstatusMie : Bool := c.privilege ≠ .machineMode ∨ bitcrop c.mstatus 1 3 = 1
  let mstatusSie : Bool :=
    c.privilege = .userMode ∨ (c.privilege = .supervisorMode ∧ bitcrop c.mstatus 1 1 = 1)
  let taken (cause : Nat) : Except Crash (Bool × RiscvCpu) := (true, ·) <$> c.trap cause true
  if mstatusSie ∧ bitcrop interruptStatus 1 1 = 1 then taken supervisorSoftwareInterrupt
  else if mstatusMie ∧ bitcrop interruptStatus 1 3 = 1 then taken machineSoftwareInterrupt
  else if mstatusSie ∧ bitcrop interruptStatus 1 5 = 1 then taken supervisorTimerInterrupt
  else if mstatusMie ∧ bitcrop interruptStatus 1 7 = 1 then taken machineTimerInterrupt
  else if mstatusSie ∧ bitcrop interruptStatus 1 9 = 1 then taken supervisorExternalInterrupt
  else if mstatusMie ∧ bitcrop interruptStatus 1 11 = 1 then taken machineExternalInterrupt
  else .ok (false, c)

def mret (c : RiscvCpu) : Except Crash RiscvCpu := do
  let privilege ← intToPrivilegeMode (bitcrop c.mstatus 2 11)
  let mpie := bitcrop c.mstatus 1 7
  let mstatus := bitset c.mstatus 1 3 mpie
  let mstatus := bitset mstatus 1 7 1
  let mstatus := bitset mstatus 2 11 0
  let c := { c with privilege, mstatus }.applyMstatusToCsr
  return { c with nextPc := c.csrs Csr.mepc }

def sret (c : RiscvCpu) : Except Crash RiscvCpu := do
  let privilege ← intToPrivilegeMode (bitcrop c.mstatus 1 8)
  let spie := bitcrop c.mstatus 1 5
  let mstatus := bitset c.mstatus 1 1 spie
  let mstatus := bitset mstatus 1 5 1
  let mstatus := bitset mstatus 2 8 0
  let c := ({ c with privilege, mstatus }.setCsr Csr.mstatus mstatus).applyMstatusToCsr
  return { c with nextPc := c.csrs Csr.sepc }

def ecall (c : RiscvCpu) : Except Crash RiscvCpu :=
  match c.privilege with
  | .machineMode => c.trap ecallMmode false
  | .supervisorMode => c.trap ecallSmode false
  | .userMode => c.trap ecallUmode false

def timerTick (c : RiscvCpu) : Except Crash RiscvCpu := do
  let peripheral ← c.peripheral.timerTick c.memory
  if !peripheral.timerInterrupt then
    return { c with peripheral }
  let c := { c with peripheral := { peripheral with timerInterrupt := false } }
  return c.setInterruptPending machineTimerInterrupt

def diskInterruptCheck (c : RiscvCpu) : RiscvCpu :=
  if c.virtioInterrupt then { c with virtioInterrupt := false }.setInterruptPending supervisorExternalInterrupt else c

def uartInterruptCheck (c : RiscvCpu) : RiscvCpu :=
  if c.uartInterrupt then { c with uartInterrupt := false }.setInterruptPending supervisorExternalInterrupt else c

def interruptCheck (c : RiscvCpu) : RiscvCpu := c.diskInterruptCheck.uartInterruptCheck

end RiscvCpu

end RiscvEmulator
