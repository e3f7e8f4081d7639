/-
The encodings that the specification gives to the instructions of I, M, A
without LR and SC, C, Zicsr, the fences and SYSTEM, in 32-bit mode (`mxl` 1)
and in 64-bit mode (`mxl` 2).

This is not translated from the emulator. A word is read by its opcode and
the fields that select the instruction.
-/
import RiscvEmulator.Compressed

namespace RiscvEmulator

namespace Rv

/-! ## 32-bit words, by opcode -/

section

variable (mxl : Nat) (funct3 : BitVec 3) (funct7 : BitVec 7)

/-- The base operations, of which two have the other `funct7`, and M. -/
def op : Bool :=
  funct7 = 0b0000000 ∨ (funct7 = 0b0100000 ∧ (funct3 = 0b000 ∨ funct3 = 0b101)) ∨ funct7 = 0b0000001

/-- Their forms on words, in 64-bit mode only. -/
def op32 : Bool :=
  mxl = 2 ∧
    ((funct7 = 0b0000000 ∧ (funct3 = 0b000 ∨ funct3 = 0b001 ∨ funct3 = 0b101)) ∨
      (funct7 = 0b0100000 ∧ (funct3 = 0b000 ∨ funct3 = 0b101)) ∨
      (funct7 = 0b0000001 ∧ (funct3 = 0b000 ∨ 0b100 ≤ funct3)))

/-- Six bits above the amount of a shift; the amount has six bits in 64-bit
mode and five in 32-bit mode. -/
def shiftTop (top : BitVec 6) : Bool :=
  funct7.extractLsb' 1 6 = top ∧ (mxl = 2 ∨ funct7.extractLsb' 0 1 = 0)

def opImm : Bool :=
  (funct3 ≠ 0b001 ∧ funct3 ≠ 0b101) ∨ (funct3 = 0b001 ∧ shiftTop mxl funct7 0b000000) ∨
    (funct3 = 0b101 ∧ (shiftTop mxl funct7 0b000000 ∨ shiftTop mxl funct7 0b010000))

def opImm32 : Bool :=
  mxl = 2 ∧
    (funct3 = 0b000 ∨ (funct3 = 0b001 ∧ funct7 = 0b0000000) ∨
      (funct3 = 0b101 ∧ (funct7 = 0b0000000 ∨ funct7 = 0b0100000)))

def branch : Bool := funct3 ≠ 0b010 ∧ funct3 ≠ 0b011

/-- `ld` and `lwu` are for 64-bit mode. -/
def load : Bool := funct3 ≠ 0b111 ∧ (mxl = 2 ∨ (funct3 ≠ 0b011 ∧ funct3 ≠ 0b110))

def store : Bool := funct3 < 0b011 ∨ (mxl = 2 ∧ funct3 = 0b011)

/-- `fence` and `fence.i`. Their other fields are for later extensions and are
to be ignored. -/
def miscMem : Bool := funct3 = 0b000 ∨ funct3 = 0b001

/-- The operations of the nine AMOs. -/
def amoOps : List (BitVec 5) :=
  [0b00001, 0b00000, 0b00100, 0b01100, 0b01000, 0b10000, 0b10100, 0b11000, 0b11100]

/-- The width is that of a word, or of a doubleword in 64-bit mode. -/
def amo : Bool := (funct3 = 0b010 ∨ (mxl = 2 ∧ funct3 = 0b011)) ∧ amoOps.contains (funct7.extractLsb' 2 5)

end

/-- `ecall`, `ebreak`, `sret`, `mret`, `wfi` and `sfence.vma`. -/
def priv (ir : BitVec 32) : Bool :=
  ir = 0x00000073 ∨ ir = 0x00100073 ∨ ir = 0x10200073 ∨ ir = 0x30200073 ∨ ir = 0x10500073 ∨
    (ir.extractLsb' 25 7 = 0b0001001 ∧ ir.extractLsb' 7 5 = 0)

/-- Zicsr has the other `funct3`, but for one. -/
def system (funct3 : BitVec 3) (ir : BitVec 32) : Bool := if funct3 = 0b000 then priv ir else funct3 ≠ 0b100

/-- The word encodes an instruction. -/
def legal (mxl : Nat) (ir : BitVec 32) : Bool :=
  let opcode := ir.extractLsb' 0 7
  let funct3 := ir.extractLsb' 12 3
  let funct7 := ir.extractLsb' 25 7
  if opcode = opcodeArithlog then op funct3 funct7
  else if opcode = opcodeArithlog64 then op32 mxl funct3 funct7
  else if opcode = opcodeArithlogI then opImm mxl funct3 funct7
  else if opcode = opcodeArithlogI64 then opImm32 mxl funct3 funct7
  else if opcode = opcodeB then branch funct3
  else if opcode = opcodeJ then true
  else if opcode = opcodeJalr then funct3 = 0b000
  else if opcode = opcodeLd then load mxl funct3
  else if opcode = opcodeS then store mxl funct3
  else if opcode = opcodeLui then true
  else if opcode = opcodeAuipc then true
  else if opcode = opcodeSystem then system funct3 ir
  else if opcode = opcodeFence then miscMem funct3
  else if opcode = opcodeAmo then amo mxl funct3 funct7
  else false

end Rv

/-- The parcel encodes an instruction. -/
def Rvc.legal (mxl : Nat) (p : BitVec 16) : Bool := (expand mxl p).isSome

end RiscvEmulator
