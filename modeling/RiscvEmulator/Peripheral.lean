/-
`PeripheralEmulator` and `ScreenEmulation`: the host interface, the UART,
the timer and the virtio disk.

The memory is shared with the processor, so it is passed in and returned.
A null `scr_emulation` or `disk_image_` that is dereferenced, and an index
past the end of the image, are undefined behaviour. The characters put on
the screen and on standard output are kept; messages are not.
-/
import RiscvEmulator.BitTools
import RiscvEmulator.Host
import RiscvEmulator.Lib.Run
import RiscvEmulator.MemoryWrapper

namespace RiscvEmulator

/-! ## The screen -/

structure ScreenEmulation where
  counter : Nat := 0
  keyValue : BitVec 32 := 0
  keyValid : Bool := false
  /-- Calls of `getch` so far. -/
  getchCalls : Nat := 0
  /-- The characters given to `addch`, the last one first. -/
  screen : List (BitVec 8) := []

namespace ScreenEmulation

def kThreshold : Nat := 1000

/-- `ERR` of `ncurses.h`. -/
def err : BitVec 32 := -1

def checkInput (host : Host) (s : ScreenEmulation) : Bool × ScreenEmulation :=
  if s.counter + 1 < kThreshold then
    (s.keyValid, { s with counter := s.counter + 1 })
  else
    let s := { s with counter := 0 }
    if s.keyValid then
      (s.keyValid, s)
    else
      let c := host.getch s.getchCalls
      let s := { s with getchCalls := s.getchCalls + 1 }
      if c = err then
        (s.keyValid, s)
      else
        (true, { s with keyValue := c, keyValid := true })

def getKeyValue (s : ScreenEmulation) : BitVec 32 × ScreenEmulation :=
  (s.keyValue, { s with keyValid := false })

def putchar (s : ScreenEmulation) (c : BitVec 8) : ScreenEmulation := { s with screen := c :: s.screen }

end ScreenEmulation

/-! ## The emulator of the devices -/

structure VRingDesc where
  addr : BitVec 64
  len : BitVec 32
  flags : BitVec 16
  next : BitVec 16

structure VirtioBlkOuthdr where
  type : BitVec 32
  reserved : BitVec 32
  sector : BitVec 64

def kPlicAddress : BitVec 64 := 0x0c000000
def kPlicClaimAddress : BitVec 64 := kPlicAddress + 0x201004

structure PeripheralEmulator where
  mxl : Nat
  hostEmulationEnable : Bool := false
  hostWrite : BitVec 32 := 0
  hostValue : BitVec 64 := 0
  endFlag : Bool := false
  errorFlag : Bool := false
  /-- The characters `HostEmulation` put on standard output, the last one first. -/
  hostOutput : List (BitVec 8) := []
  deviceEmulationEnable : Bool := false
  uartWrite : Bool := false
  uartRead : Bool := false
  uartFull : Bool := false
  uartWriteValue : BitVec 8 := 0
  uartInterrupt : Bool := false
  uartBreak : Bool := false
  scrEmulation : Option ScreenEmulation := none
  elapsedCycles : BitVec 64 := 0
  nextCycle : BitVec 64 := 0
  timercmpUpdate : Bool := true
  timerInterrupt : Bool := false
  diskImage : Option (List (BitVec 8)) := none
  virtioWrite : Bool := false
  virtioAddress : BitVec 64 := 0
  virtioWidth : BitVec 64 := 0
  virtioData : BitVec 64 := 0
  /-- An `int`. -/
  queueNum : BitVec 32 := 8
  virtioInterrupt : Bool := false

namespace PeripheralEmulator

def kToHost0 : BitVec 64 := 0x80001000
def kToHost1 : BitVec 64 := 0x80003000
def kUartBase : BitVec 64 := 0x10000000
def kUartLsrReady : BitVec 8 := 1
def kUartRhr : BitVec 64 := kUartBase
def kUartLsr : BitVec 64 := kUartBase + 5
def kTimerBase : BitVec 64 := 0x2000000
def kTimerCmp : BitVec 64 := kTimerBase + 0x4000
def kTimerMtime : BitVec 64 := kTimerBase + 0xbff8
def kQueueNumMax : Int := 8
def kVirtioBase : BitVec 64 := 0x10001000
def kVirtioEnd : BitVec 64 := kVirtioBase + 0x100 - 1
def kVirtioMmioPageSize : BitVec 64 := kVirtioBase + 0x28
def kVirtioMmioQueueSel : BitVec 64 := kVirtioBase + 0x30
def kVirtioMmioQueueMax : BitVec 64 := kVirtioBase + 0x34
def kVirtioMmioQueueNum : BitVec 64 := kVirtioBase + 0x38
def kVirtioMmioQueuePfn : BitVec 64 := kVirtioBase + 0x40
def kVirtioMmioQueueNotify : BitVec 64 := kVirtioBase + 0x50
def kSectorSize : BitVec 64 := 512

/-- The constructor. -/
def new (mxl : Nat) : PeripheralEmulator := { mxl }

def setHostEmulationEnable (p : PeripheralEmulator) (enable : Bool) : PeripheralEmulator :=
  { p with hostEmulationEnable := enable }

def setDeviceEmulationEnable (p : PeripheralEmulator) (enable : Bool) : PeripheralEmulator :=
  { p with deviceEmulationEnable := enable }

def setDiskImage (p : PeripheralEmulator) (diskImage : Option (List (BitVec 8))) : PeripheralEmulator :=
  { p with diskImage }

/-! ### Accesses -/

def checkDeviceWrite (p : PeripheralEmulator) (address : BitVec 64) (width : Nat) (data : BitVec 64) :
    PeripheralEmulator :=
  let hostAddress := if p.mxl = 1 then address &&& 0xFFFFFFFF else address
  let p := { p with hostWrite := p.hostWrite ||| (if hostAddress = kToHost0 then 1 else 0) }
  let p := { p with hostWrite := p.hostWrite ||| (if hostAddress = kToHost1 then 2 else 0) }
  let p :=
    if kUartBase < address + BitVec.ofNat 64 width ∧ address ≤ kUartBase then
      let offset := kUartBase - address
      -- An access is at most 8 bytes wide, so the shift is by less than 64.
      { p with uartWriteValue := ((data >>> (offset * 8).toNat) &&& 0xFF).setWidth 8, uartWrite := true }
    else p
  let p :=
    if kVirtioBase < address + BitVec.ofNat 64 width ∧ address ≤ kVirtioEnd then
      { p with virtioAddress := address, virtioData := data, virtioWidth := BitVec.ofNat 64 width,
               virtioWrite := true }
    else p
  if kTimerCmp < address + BitVec.ofNat 64 width ∧ address < kTimerCmp + 8 then
    { p with timercmpUpdate := true }
  else p

def checkDeviceRead (p : PeripheralEmulator) (address : BitVec 64) (width : Nat) : PeripheralEmulator :=
  if kUartBase < address + BitVec.ofNat 64 width ∧ address ≤ kUartBase then
    { p with uartRead := true }
  else p

def memoryMappedValueUpdate (p : PeripheralEmulator) (mem : MemoryWrapper) : Except Crash MemoryWrapper :=
  mem.write64 kTimerMtime p.elapsedCycles

/-! ### The host interface -/

/-- The payload, the device and the command of a store to the first port. -/
def readToHost0 (p : PeripheralEmulator) (mem : MemoryWrapper) : Except Crash (BitVec 64 × BitVec 8 × BitVec 32) := do
  if p.mxl = 1 then
    let payload ← mem.read32 kToHost0
    return (payload.setWidth 64, 0, 0)
  else
    let payload ← mem.read64 kToHost0
    return (payload, ((payload >>> 56) &&& 0xFF).setWidth 8, ((payload >>> 48) &&& 0x3FFFF).setWidth 32)

/-- The payload of a store to the second one. -/
def readToHost1 (p : PeripheralEmulator) (mem : MemoryWrapper) : Except Crash (BitVec 64) := do
  if p.mxl = 1 then
    return (← mem.read32 kToHost1).setWidth 64
  else
    mem.read64 kToHost1

def hostEmulation (p : PeripheralEmulator) (mem : MemoryWrapper) : Except Crash PeripheralEmulator := do
  if p.hostWrite = 0 then
    return p
  if p.hostWrite &&& 0b10 ≠ 0 then
    let payload ← p.readToHost1 mem
    return { p with hostValue := payload >>> 1, hostWrite := 0, endFlag := true }
  let p := { p with endFlag := false }
  let (payload, device, command) ← p.readToHost0 mem
  let value : BitVec 64 := 0
  let p :=
    if device = 0 then
      if command = 0 then
        let value := payload &&& 0xFFFFFFFFFFFF
        if value &&& 1 = 0 then p
        else { p with hostValue := value >>> 1, endFlag := true }
      else { p with errorFlag := true, endFlag := true }
    else if device = 1 then
      -- `value` is still zero here, so the character is always zero.
      if command = 1 then { p with hostOutput := (value &&& 0xFF).setWidth 8 :: p.hostOutput }
      else p
    else p
  return { p with hostWrite := 0 }

/-! ### The UART -/

/-- `UartInit`. -/
def uartInit (p : PeripheralEmulator) (mem : MemoryWrapper) : Except Crash (PeripheralEmulator × MemoryWrapper) := do
  let isr ← mem.readByte (kUartBase + 5)
  let mem ← mem.writeByte (kUartBase + 5) (isr ||| (1 <<< 5))
  return ({ p with scrEmulation := some {} }, mem)

def setUartBuffer (p : PeripheralEmulator) (mem : MemoryWrapper) (key : BitVec 32) :
    Except Crash (PeripheralEmulator × MemoryWrapper) := do
  let uartLsrStatus := (← mem.readByte kUartLsr) ||| kUartLsrReady
  let mem ← mem.writeByte kUartRhr (key.setWidth 8)
  let mem ← mem.writeByte kUartLsr uartLsrStatus
  return ({ p with uartFull := true }, mem)

def clearUartBuffer (p : PeripheralEmulator) (mem : MemoryWrapper) :
    Except Crash (PeripheralEmulator × MemoryWrapper) := do
  let uartLsrStatus := (← mem.readByte kUartLsr) &&& ~~~kUartLsrReady
  let mem ← mem.writeByte kUartLsr uartLsrStatus
  return ({ p with uartFull := false }, mem)

def uartInterruptRaise (p : PeripheralEmulator) (mem : MemoryWrapper) :
    Except Crash (PeripheralEmulator × MemoryWrapper) := do
  let kUartIrq : BitVec 32 := 10
  let mem ← mem.write32 kPlicClaimAddress kUartIrq
  return ({ p with uartInterrupt := true }, mem)

def keyBackspace : BitVec 32 := 263
def keyDc : BitVec 32 := 330

/-- The `switch` of `UartEmulation` on the key. -/
def translateKey (p : PeripheralEmulator) (key : BitVec 32) : BitVec 32 × PeripheralEmulator :=
  if key = keyBackspace then (8, p)
  else if key = keyDc then (127, p)
  else if key = 1 ∨ key = 3 then (key, { p with uartBreak := true })
  else (key, p)

/-- The transmitter: a stored character goes to the screen. -/
def uartTransmit (p : PeripheralEmulator) : Except Crash PeripheralEmulator :=
  if p.uartWrite then
    match p.scrEmulation with
    | none => .error .undefinedBehaviour
    | some scr => .ok { p with scrEmulation := some (scr.putchar p.uartWriteValue), uartWrite := false }
  else .ok p

/-- The receiver, after the guest has read it: it is empty again. -/
def uartConsume (p : PeripheralEmulator) (mem : MemoryWrapper) : Except Crash (PeripheralEmulator × MemoryWrapper) := do
  if p.uartRead then
    let (p, mem) ← p.clearUartBuffer mem
    return ({ p with uartRead := false }, mem)
  return (p, mem)

/-- The receiver, if it is empty: a key that has been pressed goes to it. -/
def uartReceive (host : Host) (p : PeripheralEmulator) (mem : MemoryWrapper) :
    Except Crash (PeripheralEmulator × MemoryWrapper) := do
  if p.uartFull then
    return (p, mem)
  match p.scrEmulation with
  | none => throw .undefinedBehaviour
  | some scr =>
    let (ready, scr) := scr.checkInput host
    if !ready then
      return ({ p with scrEmulation := some scr }, mem)
    let (keyInput, scr) := scr.getKeyValue
    let (keyInput, p) := { p with scrEmulation := some scr }.translateKey keyInput
    let (p, mem) ← p.setUartBuffer mem keyInput
    p.uartInterruptRaise mem

def uartEmulation (host : Host) (p : PeripheralEmulator) (mem : MemoryWrapper) :
    Except Crash (PeripheralEmulator × MemoryWrapper) := do
  let p ← p.uartTransmit
  let (p, mem) ← p.uartConsume mem
  p.uartReceive host mem

/-! ### The timer -/

def timerTick (p : PeripheralEmulator) (mem : MemoryWrapper) : Except Crash PeripheralEmulator := do
  let p := { p with elapsedCycles := p.elapsedCycles + 1 }
  let p ←
    if p.timercmpUpdate then
      let nextCycle ← mem.read64 kTimerCmp
      pure { p with nextCycle, timercmpUpdate := false }
    else pure p
  return if p.elapsedCycles = p.nextCycle then { p with timerInterrupt := true } else p

/-! ### The disk -/

def virtioInit (mem : MemoryWrapper) : Except Crash MemoryWrapper := do
  let mem ← mem.write32 (kVirtioBase + 0x00) 0x74726976
  let mem ← mem.write32 (kVirtioBase + 0x4) 1
  let mem ← mem.write32 (kVirtioBase + 0x8) 2
  let mem ← mem.write32 (kVirtioBase + 0xc) 0x554d4551
  mem.write32 (kVirtioBase + 0x34) 8

/-- `Initialize`. -/
def initializeAll (p : PeripheralEmulator) (mem : MemoryWrapper) :
    Except Crash (PeripheralEmulator × MemoryWrapper) := do
  let (p, mem) ← p.uartInit mem
  return (p, ← virtioInit mem)

def readDesc (mem : MemoryWrapper) (descAddress : BitVec 64) (descIndex : BitVec 16) : Except Crash VRingDesc := do
  let address := descAddress + descIndex.setWidth 64 * 16
  let addr ← mem.read64 address
  let len ← mem.read32 (address + 8)
  let flags ← mem.read16 (address + 12)
  let next ← mem.read16 (address + 14)
  return { addr, len, flags, next }

def readOuthdr (mem : MemoryWrapper) (outhdrAddress : BitVec 64) : Except Crash VirtioBlkOuthdr := do
  let type ← mem.read32 outhdrAddress
  let reserved ← mem.read32 (outhdrAddress + 4)
  let sector ← mem.read64 (outhdrAddress + 8)
  return { type, reserved, sector }

/-- The first `n` rounds of the writing loop of `disc_access`. -/
def discWrite (mem : MemoryWrapper) (image : List (BitVec 8)) (kSectorAddress bufferAddress : BitVec 64) :
    Nat → Except Crash (List (BitVec 8))
  | 0 => .ok image
  | n + 1 => do
    let image ← discWrite mem image kSectorAddress bufferAddress n
    let index := (kSectorAddress + BitVec.ofNat 64 n).toNat
    let data ← mem.readByte (bufferAddress + BitVec.ofNat 64 n)
    defined (index < image.length)
    return image.set index data

/-- The first `n` rounds of its reading loop. -/
def discRead (mem : MemoryWrapper) (image : List (BitVec 8)) (kSectorAddress bufferAddress : BitVec 64) :
    Nat → Except Crash MemoryWrapper
  | 0 => .ok mem
  | n + 1 => do
    let mem ← discRead mem image kSectorAddress bufferAddress n
    let index := (kSectorAddress + BitVec.ofNat 64 n).toNat
    match image[index]? with
    | none => throw .undefinedBehaviour
    | some data => mem.writeByte (bufferAddress + BitVec.ofNat 64 n) data

/-- `disc_access`. A null image is dereferenced only if there is a byte to move. -/
def discAccess (p : PeripheralEmulator) (mem : MemoryWrapper) (sector bufferAddress : BitVec 64) (len : BitVec 32)
    (write : Bool) : Except Crash (PeripheralEmulator × MemoryWrapper) := do
  let kSectorAddress := sector * kSectorSize
  let image := p.diskImage.getD []
  if write then
    let image ← discWrite mem image kSectorAddress bufferAddress len.toNat
    return ({ p with diskImage := p.diskImage.map fun _ => image }, mem)
  else
    return (p, ← discRead mem image kSectorAddress bufferAddress len.toNat)

/-- `process_disc_access`. -/
def processDiscAccess (p : PeripheralEmulator) (mem : MemoryWrapper) (descAddress : BitVec 64)
    (descIndex : BitVec 16) : Except Crash (PeripheralEmulator × MemoryWrapper) := do
  let kOk : BitVec 8 := 0
  let desc ← readDesc mem descAddress descIndex
  let outhdr ← readOuthdr mem desc.addr
  let writeAccess : Bool := outhdr.type = 1
  -- Every `goto ERROR` ends in `assert(false)`.
  assert (desc.flags &&& 0b01 = 1)
  let desc ← readDesc mem descAddress desc.next
  assert (decide (desc.flags &&& 0b10 = 0) == writeAccess)
  let (p, mem) ← p.discAccess mem outhdr.sector desc.addr desc.len writeAccess
  let desc ← readDesc mem descAddress desc.next
  assert (desc.len = 1 ∧ desc.flags &&& 0b11 = 0b10)
  return (p, ← mem.writeByte desc.addr kOk)

/-- `get_desc_index`. The remainder is of `int`s. -/
def getDescIndex (p : PeripheralEmulator) (mem : MemoryWrapper) (availAddress : BitVec 64) :
    Except Crash (BitVec 16) := do
  let idx ← mem.read16 (availAddress + 2)
  if p.queueNum = 0 then
    throw .divisionTrap
  let index := BitVec.ofInt 16 ((idx.toNat : Int).tmod p.queueNum.toInt)
  assert ((index.toNat : Int) < p.queueNum.toInt)
  mem.read16 (availAddress + 4 + index.setWidth 64 * 2)

/-- `process_used_buffer`. -/
def processUsedBuffer (mem : MemoryWrapper) (usedBufferAddress : BitVec 64) (index : BitVec 16) :
    Except Crash MemoryWrapper := do
  let currentUsedIndex ← mem.read16 (usedBufferAddress + 2)
  let mem ← mem.write32 (usedBufferAddress + 4 + currentUsedIndex.setWidth 64 * 8) (index.setWidth 32)
  let mem ← mem.write32 (usedBufferAddress + 4 + currentUsedIndex.setWidth 64 * 8 + 4) 3
  mem.write16 (usedBufferAddress + 2) (currentUsedIndex + 1)

/-- `VirtioDiskAccess`. `queue_num_ * kDescSizeBytes` is a `uint32_t`;
`2 * (2 + queue_num_)` is an `int`, which must not overflow. -/
def virtioDiskAccess (p : PeripheralEmulator) (mem : MemoryWrapper) (queueAddress : BitVec 64) :
    Except Crash (PeripheralEmulator × MemoryWrapper) := do
  let descAddress := queueAddress
  let kDescSizeBytes : BitVec 32 := 16
  let availAddress := queueAddress + (p.queueNum * kDescSizeBytes).setWidth 64
  let kPageSize : BitVec 64 := 4096
  let ringSize := 2 * (2 + p.queueNum.toInt)
  defined (-2 ^ 31 ≤ ringSize ∧ ringSize < 2 ^ 31)
  let usedAddress := (availAddress + BitVec.ofInt 64 ringSize + kPageSize - 1) / kPageSize * kPageSize
  let descIndex ← p.getDescIndex mem availAddress
  let (p, mem) ← p.processDiscAccess mem descAddress descIndex
  return (p, ← processUsedBuffer mem usedAddress descIndex)

/-- The first part of `VirtioEmulation`: a store to QUEUE_SEL. -/
def queueSelect (p : PeripheralEmulator) (mem : MemoryWrapper) : Except Crash MemoryWrapper := do
  if kVirtioMmioQueueSel < p.virtioAddress + p.virtioWidth ∧ p.virtioAddress < kVirtioMmioQueueSel + 4 then
    let queueSel ← mem.read32 kVirtioMmioQueueSel
    mem.write32 kVirtioMmioQueueMax (if queueSel = 0 then BitVec.ofInt 32 kQueueNumMax else 0)
  else
    return mem

/-- The rest of it: the request behind a store to QUEUE_NOTIFY. -/
def queueNotify (p : PeripheralEmulator) (mem : MemoryWrapper) : Except Crash (PeripheralEmulator × MemoryWrapper) := do
  let queueNumber ← mem.read32 kVirtioMmioQueueNotify
  assert (queueNumber = 0)
  let p := { p with queueNum := ← mem.read32 kVirtioMmioQueueNum }
  assert (p.queueNum.toInt ≤ kQueueNumMax)
  let kPageSize ← mem.read32 kVirtioMmioPageSize
  assert (kPageSize = 4096)
  let kQueueAddress := ((← mem.read32 kVirtioMmioQueuePfn) * kPageSize).setWidth 64
  let (p, mem) ← p.virtioDiskAccess mem kQueueAddress
  let kVirtioIrq : BitVec 32 := 1
  let mem ← mem.write32 kPlicClaimAddress kVirtioIrq
  return ({ p with virtioInterrupt := true }, mem)

def virtioEmulation (p : PeripheralEmulator) (mem : MemoryWrapper) :
    Except Crash (PeripheralEmulator × MemoryWrapper) := do
  if !p.virtioWrite then
    return (p, mem)
  let p := { p with virtioWrite := false }
  let mem ← p.queueSelect mem
  if p.virtioAddress + p.virtioWidth ≤ kVirtioMmioQueueNotify ∨ kVirtioMmioQueueNotify + 4 ≤ p.virtioAddress then
    return (p, mem)
  p.queueNotify mem

/-- The part of `Emulation` behind `device_emulation_enable_`. -/
def deviceEmulation (host : Host) (p : PeripheralEmulator) (mem : MemoryWrapper) :
    Except Crash (PeripheralEmulator × MemoryWrapper) := do
  if p.deviceEmulationEnable then
    let (p, mem) ← p.uartEmulation host mem
    p.virtioEmulation mem
  else
    return (p, mem)

def emulation (host : Host) (p : PeripheralEmulator) (mem : MemoryWrapper) :
    Except Crash (PeripheralEmulator × MemoryWrapper) := do
  if p.hostEmulationEnable then
    let p ← p.hostEmulation mem
    p.deviceEmulation host mem
  else
    p.deviceEmulation host mem

end PeripheralEmulator

end RiscvEmulator
