/-
`RiscvCpu`: the instructions and the loop of `RunCpu`.

`step` is one round of the loop: interrupts, fetch, decode and `execute`,
the `switch`. A `continue` in the loop is a return from `step`. A shift or
a signed product that C++ leaves undefined, and a division that traps, end
the emulator; so does a `switch` that falls into `assert(false)`.
-/
import RiscvEmulator.Cpu

namespace RiscvEmulator

namespace RiscvCpu

/-! ## Register instructions -/

def kUpper32bitMask : BitVec 64 := 0xFFFFFFFF00000000

def sext32bit (data32bit : BitVec 64) : BitVec 64 :=
  if (data32bit >>> 31) &&& 1#64 ≠ 0#64 then data32bit ||| kUpper32bitMask else data32bit &&& ~~~kUpper32bitMask

def branchCondition (c : RiscvCpu) (instruction : Instruction) (rs1 rs2 : BitVec 5) : Bool :=
  match instruction with
  | .beq => c.reg rs1 = c.reg rs2
  | .bge => (c.reg rs2).toInt ≤ (c.reg rs1).toInt
  | .bgeu => c.reg rs2 ≤ c.reg rs1
  | .blt => (c.reg rs1).toInt < (c.reg rs2).toInt
  | .bltu => c.reg rs1 < c.reg rs2
  | .bne => c.reg rs1 ≠ c.reg rs2
  | _ => false

/-- The address that `BranchInstruction` returns. -/
def branchInstruction (c : RiscvCpu) (instruction : Instruction) (rs1 rs2 : BitVec 5) (imm13 : BitVec 32) : BitVec 64 :=
  if c.branchCondition instruction rs1 rs2 then c.pc + imm13.signExtend 64 else c.nextPc

def isWInstruction : Instruction → Bool
  | .addw | .subw | .sllw | .srlw | .sraw => true
  | _ => false

/-- The `switch` of `OperationInstruction`. -/
def operation (xlen : Nat) (instruction : Instruction) (x y : BitVec 64) : Except Crash (BitVec 64) :=
  let shiftMask : BitVec 64 := if xlen = 32 ∨ isWInstruction instruction then 0b0011111 else 0b0111111
  match instruction with
  | .add | .addw => .ok (x + y)
  | .sub | .subw => .ok (x - y)
  | .and => .ok (x &&& y)
  | .or => .ok (x ||| y)
  | .xor => .ok (x ^^^ y)
  | .sll | .sllw => .ok (x <<< (y &&& shiftMask).toNat)
  | .srl | .srlw =>
    let temp64 := if xlen = 32 ∨ instruction = .srlw then x &&& 0xFFFFFFFF#64 else x
    .ok (temp64 >>> (y &&& shiftMask).toNat)
  | .sra => .ok (x.sshiftRight (y &&& shiftMask).toNat)
  | .sraw => .ok (sext32bit x >>> (y &&& shiftMask).toNat)
  | _ => .error .assertion

def operationInstruction (c : RiscvCpu) (instruction : Instruction) (rd rs1 rs2 : BitVec 5) :
    Except Crash RiscvCpu := do
  let temp64 ← operation c.xlen instruction (c.reg rs1) (c.reg rs2)
  return c.setReg rd (if c.xlen = 32 ∨ isWInstruction instruction then sext32bit temp64 else temp64)

/-- The `switch` of `ImmediateInstruction`. -/
def immediate (instruction : Instruction) (x imm : BitVec 64) : Except Crash (BitVec 64) :=
  match instruction with
  | .addi | .addiw => .ok (x + imm)
  | .andi => .ok (x &&& imm)
  | .ori => .ok (x ||| imm)
  | .xori => .ok (x ^^^ imm)
  | _ => .error .assertion

def immediateInstruction (c : RiscvCpu) (instruction : Instruction) (rd rs1 : BitVec 5) (imm12 : BitVec 32) :
    Except Crash RiscvCpu := do
  let temp64 ← immediate instruction (c.reg rs1) (imm12.signExtend 64)
  return c.setReg rd (if c.xlen = 32 ∨ instruction = .addiw then sext32bit temp64 else temp64)

/-- The value `ImmediateShiftInstruction` gives to `rd`, if it sets it. A
shift amount from the width up is undefined in C++; `CheckShiftSign` only
prints a message. -/
def immediateShift (xlen : Nat) (instruction : Instruction) (x : BitVec 64) (shamt : Nat) :
    Except Crash (Option (BitVec 64)) := do
  match instruction with
  | .slli =>
    defined (shamt < 64)
    return some (if xlen = 32 then sext32bit (x <<< shamt) else x <<< shamt)
  | .slliw =>
    defined (shamt < 64)
    return some (sext32bit ((x <<< shamt) &&& 0xFFFFFFFF#64))
  | .srli =>
    defined (shamt < 64)
    let temp64 := if xlen = 32 then x &&& ~~~kUpper32bitMask else x
    return some (if xlen = 32 then sext32bit (temp64 >>> shamt) else temp64 >>> shamt)
  | .srliw =>
    defined (shamt < 64)
    return some (sext32bit ((x &&& 0xFFFFFFFF#64) >>> shamt))
  | .srai =>
    defined (shamt < 64)
    return some (x.sshiftRight shamt)
  | .sraiw =>
    defined (shamt < 32)
    return some (((x.setWidth 32).sshiftRight shamt).signExtend 64)
  | _ => return none

def immediateShiftInstruction (c : RiscvCpu) (instruction : Instruction) (rd rs1 : BitVec 5) (shamt : BitVec 32) :
    Except Crash RiscvCpu := do
  match ← immediateShift c.xlen instruction (c.reg rs1) shamt.toNat with
  | some value => return c.setReg rd value
  | none => return c

/-! ## Multiplication and division -/

def getMulh64 (op1 op2 : BitVec 64) : BitVec 64 :=
  let a := op1.sshiftRight 32
  let b := op1 &&& 0xFFFFFFFF
  let c := op2.sshiftRight 32
  let d := op2 &&& 0xFFFFFFFF
  let ac := a * c
  let ad := a * d
  let bc := b * c
  let bd := b * d
  let d32 := (ad &&& 0xFFFFFFFF) + (bc &&& 0xFFFFFFFF) + (bd >>> 32)
  ac + ad.sshiftRight 32 + bc.sshiftRight 32 + (d32 >>> 32)

def getMulhsu64 (op1 op2 : BitVec 64) : BitVec 64 :=
  let a := op1.sshiftRight 32
  let b := op1 &&& 0xFFFFFFFF
  let c := op2 >>> 32
  let d := op2 &&& 0xFFFFFFFF
  let ac := a * c
  let ad := a * d
  let bc := b * c
  let bd := b * d
  let d32 := (ad &&& 0xFFFFFFFF) + (bc &&& 0xFFFFFFFF) + (bd >>> 32)
  ac + ad.sshiftRight 32 + (bc >>> 32) + (d32 >>> 32)

def getMulhu64 (op1 op2 : BitVec 64) : BitVec 64 :=
  let a := op1 >>> 32
  let b := op1 &&& 0xFFFFFFFF
  let c := op2 >>> 32
  let d := op2 &&& 0xFFFFFFFF
  let ac := a * c
  let ad := a * d
  let bc := b * c
  let bd := b * d
  let d32 := (ad &&& 0xFFFFFFFF) + (bc &&& 0xFFFFFFFF) + (bd >>> 32)
  ac + (ad >>> 32) + (bc >>> 32) + (d32 >>> 32)

/-- `int64_t` division and remainder: the host traps on a zero divisor and
on an overflow. -/
def int64Div (x y : BitVec 64) : Except Crash (BitVec 64) :=
  if y = 0 ∨ (x = BitVec.intMin 64 ∧ y = -1) then .error .divisionTrap else .ok (x.sdiv y)

def int64Rem (x y : BitVec 64) : Except Crash (BitVec 64) :=
  if y = 0 ∨ (x = BitVec.intMin 64 ∧ y = -1) then .error .divisionTrap else .ok (x.srem y)

def uint64Div (x y : BitVec 64) : Except Crash (BitVec 64) :=
  if y = 0 then .error .divisionTrap else .ok (x / y)

def uint64Rem (x y : BitVec 64) : Except Crash (BitVec 64) :=
  if y = 0 then .error .divisionTrap else .ok (x % y)

/-- The `switch` of `MultInstruction`. -/
def mult (xlen : Nat) (instruction : Instruction) (x y : BitVec 64) : Except Crash (BitVec 64) := do
  let largestNegative := 1#64 <<< (xlen - 1)
  match instruction with
  | .mul | .mulw => return x * y
  | .mulh =>
    if xlen = 32 then
      defined (-2 ^ 63 ≤ x.toInt * y.toInt ∧ x.toInt * y.toInt < 2 ^ 63)
      return (x * y).sshiftRight 32
    else return getMulh64 x y
  | .mulhsu =>
    if xlen = 32 then return (x * (y &&& 0xFFFFFFFF#64)) >>> 32
    else return getMulhsu64 x y
  | .mulhu =>
    if xlen = 32 then return ((x &&& 0xFFFFFFFF#64) * (y &&& 0xFFFFFFFF#64)) >>> 32
    else return getMulhu64 x y
  | .div =>
    if y = 0 then return -1
    else if y.toInt = -1 ∧ x = largestNegative then return largestNegative
    else int64Div x y
  | .divu =>
    if y = 0 then return ~~~0
    else if xlen = 32 then uint64Div (x &&& 0xFFFFFFFF#64) (y &&& 0xFFFFFFFF#64)
    else uint64Div x y
  | .divuw =>
    if y = 0 then return ~~~0
    else uint64Div (x &&& 0xFFFFFFFF#64) (y &&& 0xFFFFFFFF#64)
  | .divw =>
    if y = 0 then return -1
    else if y.toInt = -1 ∧ x = 1#64 <<< 31 then return 1#64 <<< 31
    else int64Div (signExtend x 32) (signExtend y 32)
  | .rem =>
    if y = 0 then return x
    else if y.toInt = -1 ∧ x = largestNegative then return 0
    else int64Rem x y
  | .remu =>
    if y = 0 then return x
    else if xlen = 32 then uint64Rem (x &&& 0xFFFFFFFF#64) (y &&& 0xFFFFFFFF#64)
    else uint64Rem x y
  | .remuw =>
    if y = 0 then return x
    else uint64Rem (x &&& 0xFFFFFFFF#64) (y &&& 0xFFFFFFFF#64)
  | .remw =>
    if y = 0 then return x
    else if y.toInt = -1 ∧ x = 1#64 <<< 31 then return 0
    else int64Rem (signExtend x 32) (signExtend y 32)
  | _ => throw .assertion

/-- `sign_extend_en` is set by the W forms. -/
def isMultWInstruction : Instruction → Bool
  | .mulw | .divuw | .divw | .remuw | .remw => true
  | _ => false

def multInstruction (c : RiscvCpu) (instruction : Instruction) (rd rs1 rs2 : BitVec 5) : Except Crash RiscvCpu := do
  let temp64 ← mult c.xlen instruction (c.reg rs1) (c.reg rs2)
  return c.setReg rd (if c.xlen = 32 ∨ isMultWInstruction instruction then sext32bit temp64 else temp64)

/-! ## Loads and stores -/

def getLoadWidth : Instruction → Except Crash Nat
  | .lb | .lbu => .ok 1
  | .lh | .lhu => .ok 2
  | .lw | .lwu => .ok 4
  | .ld => .ok 8
  | _ => .error .assertion

def getStoreWidth : Instruction → Except Crash Nat
  | .sb => .ok 1
  | .sh => .ok 2
  | .sw => .ok 4
  | .sd => .ok 8
  | _ => .error .assertion

def getAccessWidth (width : Nat) (address : BitVec 64) : Nat :=
  let burstOverflow := ((address &&& 0b111).toNat + width - 1) >>> 3
  if burstOverflow ≠ 0 then
    let mask : BitVec 64 := if width = 2 then 0b1 else if width = 4 then 0b11 else if width = 8 then 0b111 else 0
    width - (address &&& mask).toNat
  else width

/-- What a load gives to `rd`. -/
def extendLoad (instruction : Instruction) (loadData : BitVec 64) (width : Nat) : BitVec 64 :=
  match instruction with
  | .lb | .lh | .lw => signExtend loadData (width * 8)
  | .lwu => loadData &&& 0xFFFFFFFF
  | _ => loadData

def loadInstruction (c : RiscvCpu) (instruction : Instruction) (rd rs1 : BitVec 5) (imm12 : BitVec 32) :
    Except Crash RiscvCpu := do
  let c := { c with memory := ← c.peripheral.memoryMappedValueUpdate c.memory }
  let sourceAddress := c.reg rs1 + imm12.signExtend 64
  let (address, c) ← c.virtualToPhysical sourceAddress false
  if c.pageFault then
    return ← c.trap loadPageFault false
  let width ← getLoadWidth instruction
  let accessWidth := getAccessWidth width address
  let nextWidth := width - accessWidth
  let loadData ← loadWd c.memory address accessWidth
  if nextWidth > 0 then
    -- The second half is translated from the physical address of the first.
    let (nextAddress, c) ← c.virtualToPhysical (address + BitVec.ofNat 64 accessWidth) false
    if c.pageFault then
      return ← c.trap loadPageFault false
    let loadDataHigh ← loadWd c.memory nextAddress nextWidth
    let loadData := loadData ||| (loadDataHigh <<< (accessWidth * 8))
    let c := { c with peripheral := c.peripheral.checkDeviceRead address width }
    return c.setReg rd (extendLoad instruction loadData width)
  let c := { c with peripheral := c.peripheral.checkDeviceRead address width }
  return c.setReg rd (extendLoad instruction loadData width)

def storeInstruction (c : RiscvCpu) (instruction : Instruction) (rs1 rs2 : BitVec 5) (imm12Stype : BitVec 32) :
    Except Crash RiscvCpu := do
  let dstAddress := c.reg rs1 + imm12Stype.signExtend 64
  let (address, c) ← c.virtualToPhysical dstAddress true
  if c.pageFault then
    return ← c.trap storePageFault false
  let width ← getStoreWidth instruction
  let accessWidth := getAccessWidth width dstAddress
  let nextWidth := width - accessWidth
  let data := c.reg rs2 &&& (generateBitMask (accessWidth * 8)).signExtend 64
  let c := { c with memory := ← storeWd c.memory address data accessWidth }
  if nextWidth > 0 then
    let (nextAddress, c) ← c.virtualToPhysical (dstAddress + BitVec.ofNat 64 accessWidth) true
    if c.pageFault then
      return ← c.trap storePageFault false
    let nextData := c.reg rs2 >>> (accessWidth * 8)
    let c := { c with memory := ← storeWd c.memory nextAddress nextData nextWidth }
    return { c with peripheral := c.peripheral.checkDeviceWrite address width (c.reg rs2) }
  return { c with peripheral := c.peripheral.checkDeviceWrite address width (c.reg rs2) }

/-! ## Atomic operations -/

def isAmoDoubleword : Instruction → Bool
  | .amoaddd | .amoandd | .amomaxd | .amomaxud | .amomind | .amominud | .amoord | .amoxord | .amoswapd => true
  | _ => false

/-- The `switch` of `AmoInstruction`: what is stored, from the value loaded
and `reg_[rs2]`. -/
def amoValue (instruction : Instruction) (t y : BitVec 64) : Except Crash (BitVec 64) :=
  let t32 := t.setWidth 32
  let y32 := y.setWidth 32
  match instruction with
  | .amoaddd => .ok (t + y)
  | .amoaddw => .ok (signExtend (t + y) 32)
  | .amoandd => .ok (t &&& y)
  | .amoandw => .ok (signExtend (t &&& y) 32)
  | .amomaxd => .ok (if y.toInt < t.toInt then t else y)
  | .amomaxw => .ok (signExtend ((if y32.toInt < t32.toInt then t32 else y32).signExtend 64) 32)
  | .amomaxud => .ok (if y < t then t else y)
  | .amomaxuw => .ok (signExtend ((if y32 < t32 then t32 else y32).setWidth 64) 32)
  | .amomind => .ok (if t.toInt < y.toInt then t else y)
  | .amominw => .ok (signExtend ((if t32.toInt < y32.toInt then t32 else y32).signExtend 64) 32)
  | .amominud => .ok (if t < y then t else y)
  | .amominuw => .ok (signExtend ((if t32 < y32 then t32 else y32).setWidth 64) 32)
  | .amoord => .ok (t ||| y)
  | .amoorw => .ok (signExtend (t ||| y) 32)
  | .amoxord => .ok (t ^^^ y)
  | .amoxorw => .ok (signExtend (t ^^^ y) 32)
  | .amoswapd | .amoswapw => .ok y
  | _ => .error .assertion

/-- `page_fault_` is not looked at here. -/
def amoInstruction (c : RiscvCpu) (instruction : Instruction) (rd rs1 rs2 : BitVec 5) : Except Crash RiscvCpu := do
  let virtualAddress := c.reg rs1
  let (physicalAddress, c) ← c.virtualToPhysical virtualAddress false
  let wordWidth := if isAmoDoubleword instruction then 8 else 4
  let t ← loadWd c.memory physicalAddress wordWidth
  let t := if wordWidth = 4 then signExtend t 32 else t
  let newValue ← amoValue instruction t (c.reg rs2)
  let (physicalAddress, c) ← c.virtualToPhysical virtualAddress true
  let c := { c with memory := ← storeWd c.memory physicalAddress newValue wordWidth }
  return c.setReg rd t

/-! ## System instructions -/

def systemCall (c : RiscvCpu) (host : Host) : Except Crash RiscvCpu := do
  let r ← systemCallEmulation host c.memory c.reg c.brk c.host c.top
  return { c with memory := r.mem, reg := r.reg, brk := r.brk, host := r.host, errorFlag := r.errorFlag,
                  endFlag := r.endFlag }

def systemInstruction (c : RiscvCpu) (host : Host) (rd : BitVec 5) (imm : BitVec 32) : Except Crash RiscvCpu :=
  if imm = 0b000000000000 then
    if c.ecallEmulation then c.systemCall host else c.ecall
  else if imm = 0b000000000001 then .ok c
  else if imm = 0b001100000010 then c.mret
  else if imm = 0b000100000010 then c.sret
  else if imm.sshiftRight 5 = 0b0001001 ∧ rd = 0b00000 then .ok c
  else .ok { c with errorFlag := true }

/-! ## The loop -/

/-- The `switch` of `RunCpu`. -/
def execute (c : RiscvCpu) (host : Host) (d : Decoded) (csr : BitVec 12) : Except Crash RiscvCpu :=
  let imm64 := d.imm.signExtend 64
  match d.instruction with
  | .add | .addw | .and | .sub | .subw | .or | .xor | .sll | .sllw | .srl | .srlw | .sra | .sraw =>
    c.operationInstruction d.instruction d.rd d.rs1 d.rs2
  | .addi | .addiw | .andi | .ori | .xori => c.immediateInstruction d.instruction d.rd d.rs1 d.imm
  | .slli | .slliw | .srli | .srliw | .srai | .sraiw =>
    c.immediateShiftInstruction d.instruction d.rd d.rs1 d.imm
  | .slt => .ok (c.setReg d.rd (if (c.reg d.rs1).toInt < (c.reg d.rs2).toInt then 1 else 0))
  | .sltu => .ok (c.setReg d.rd (if c.reg d.rs1 < c.reg d.rs2 then 1 else 0))
  | .slti => .ok (c.setReg d.rd (if (c.reg d.rs1).toInt < d.imm.toInt then 1 else 0))
  | .sltiu => .ok (c.setReg d.rd (if c.reg d.rs1 < imm64 then 1 else 0))
  | .beq | .bge | .bgeu | .blt | .bltu | .bne =>
    .ok { c with nextPc := c.branchInstruction d.instruction d.rs1 d.rs2 d.imm }
  | .jal =>
    let c := c.setReg d.rd c.nextPc
    let c := { c with nextPc := c.pc + imm64 }
    .ok (if c.nextPc = c.pc then { c with errorFlag := true } else c)
  | .jalr =>
    let t := c.nextPc
    let c := { c with nextPc := (c.reg d.rs1 + imm64) &&& ~~~1 }
    let c := c.setReg d.rd t
    .ok (if d.rd = zero ∧ d.rs1 = ra ∧ c.reg d.rs1 = 0 ∧ d.imm = 0 then { c with endFlag := true } else c)
  | .lb | .lbu | .lh | .lhu | .lw | .lwu | .ld => c.loadInstruction d.instruction d.rd d.rs1 d.imm
  | .sb | .sh | .sw | .sd => c.storeInstruction d.instruction d.rs1 d.rs2 d.imm
  | .lui => .ok (c.setReg d.rd (if c.xlen = 32 then sext32bit imm64 else imm64))
  | .auipc => .ok (c.setReg d.rd (if c.xlen = 32 then sext32bit (c.pc + imm64) else c.pc + imm64))
  | .system => c.systemInstruction host d.rd d.imm
  | .csrrc | .csrrci | .csrrs | .csrrsi | .csrrw | .csrrwi => .ok (c.csrsInstruction d.instruction csr d.rd d.rs1)
  | .fence | .fencei => .ok c
  | .mul | .mulh | .mulhsu | .mulhu | .mulw | .div | .divu | .divuw | .divw | .rem | .remu | .remuw | .remw =>
    c.multInstruction d.instruction d.rd d.rs1 d.rs2
  | .amoaddd | .amoaddw | .amoandd | .amoandw | .amomaxd | .amomaxw | .amomaxud | .amomaxuw | .amomind
  | .amominw | .amominud | .amominuw | .amoord | .amoorw | .amoxord | .amoxorw | .amoswapd | .amoswapw =>
    c.amoInstruction d.instruction d.rd d.rs1 d.rs2
  | .error => .ok { c with errorFlag := true }

/-- `PeripheralEmulations`: the end of the program. -/
def takeHostEnd (c : RiscvCpu) : RiscvCpu :=
  if c.peripheral.endFlag then
    { c.setReg a0 c.peripheral.hostValue with errorFlag := c.errorFlag || c.peripheral.errorFlag, endFlag := true }
  else c

/-- The disk's interrupt. -/
def takeVirtioInterrupt (c : RiscvCpu) : RiscvCpu :=
  if c.peripheral.virtioInterrupt then
    { c with peripheral := { c.peripheral with virtioInterrupt := false }, virtioInterrupt := true }
  else c

/-- The UART's. -/
def takeUartInterrupt (c : RiscvCpu) : RiscvCpu :=
  if c.peripheral.uartInterrupt then
    { c with peripheral := { c.peripheral with uartInterrupt := false }, uartInterrupt := true }
  else c

/-- A break from the terminal. -/
def takeUartBreak (c : RiscvCpu) : RiscvCpu :=
  if c.peripheral.uartBreak then { c with endFlag := true } else c

def peripheralEmulations (c : RiscvCpu) (host : Host) : Except Crash RiscvCpu := do
  let (peripheral, memory) ← c.peripheral.emulation host c.memory
  return { c with peripheral, memory }.takeHostEnd.takeVirtioInterrupt.takeUartInterrupt.takeUartBreak

/-- The start of a round: the clock, the devices' interrupts and the check. -/
def interruptStage (c : RiscvCpu) : Except Crash (Bool × RiscvCpu) := do
  let c := { c with pc := c.nextPc }
  let c ← c.timerTick
  c.interruptCheck.checkPendingInterrupt

/-- The fetch, with the instruction register set. -/
def fetchStage (c : RiscvCpu) : Except Crash RiscvCpu := do
  let (ir, c) ← c.loadCmd c.pc
  return { c with ir }

/-- The address of the following instruction. -/
def decodeStage (c : RiscvCpu) : RiscvCpu :=
  let ctype : Bool := c.ir &&& 0b11 ≠ 0b11
  { c with ctype, nextPc := c.pc + (if ctype then 2 else 4) }

/-- The decoding and the `switch`, after a fetch. -/
def executeStage (c : RiscvCpu) (host : Host) : Except Crash RiscvCpu :=
  c.decodeStage.execute host (decode c.ir c.mxl) (getCsr c.ir)

/-- The end of a round. -/
def finishStage (c : RiscvCpu) (host : Host) : Except Crash RiscvCpu :=
  let c := if c.pc = c.nextPc then { c with errorFlag := true } else c
  let c := c.setReg zero 0
  if c.hostEmulation || c.peripheralEmulation then c.peripheralEmulations host else .ok c

/-- One round of the loop of `RunCpu`. -/
def step (host : Host) (c : RiscvCpu) : Except Crash RiscvCpu := do
  let (taken, c) ← c.interruptStage
  if taken then
    return c
  let c ← c.fetchStage
  if c.pageFault then
    return ← c.trap instructionPageFault false
  let c ← c.executeStage host
  c.finishStage host

/-- What `RunCpu` sets before the loop. -/
def start (c : RiscvCpu) (startPc : BitVec 64) : RiscvCpu :=
  { c with errorFlag := false, endFlag := false, nextPc := startPc }

/-- The loop of `RunCpu`, for at most `fuel` rounds: `none` if it has not
ended by then. -/
def runLoop (host : Host) : (fuel : Nat) → RiscvCpu → Except Crash (Option RiscvCpu)
  | 0, _ => .ok none
  | fuel + 1, c => do
    let c ← c.step host
    if c.errorFlag ∨ c.endFlag then
      return some c
    runLoop host fuel c

def runCpu (host : Host) (fuel : Nat) (c : RiscvCpu) (startPc : BitVec 64) : Except Crash (Option RiscvCpu) :=
  runLoop host fuel (c.start startPc)

end RiscvCpu

end RiscvEmulator
