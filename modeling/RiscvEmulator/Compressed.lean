/-
The compressed instructions as the RVC specification has them: for a parcel
of 16 bits, the 32-bit instruction it stands for.

This is not translated from the emulator. A field is a slice of the parcel,
an immediate is written from its highest bit to its lowest, and the words
are those of the base formats. A reserved parcel has no expansion, nor has
one of the floating-point extensions.
-/
import RiscvEmulator.Assembler

namespace RiscvEmulator

namespace Rvc

/-! ## Fields -/

/-- `funct3` and the quadrant. -/
def opcode (p : BitVec 16) : BitVec 5 := p.extractLsb' 13 3 ++ p.extractLsb' 0 2

/-- A register of the window `x8` to `x15`. -/
def window (p : BitVec 16) (o : Nat) : BitVec 5 := 0b01#2 ++ p.extractLsb' o 3

/-- Any register. -/
def full (p : BitVec 16) (o : Nat) : BitVec 5 := p.extractLsb' o 5

def bit (p : BitVec 16) (o : Nat) : BitVec 1 := p.extractLsb' o 1

/-- `imm[5|4:0]` and `shamt[5|4:0]`. -/
def imm6 (p : BitVec 16) : BitVec 6 := bit p 12 ++ p.extractLsb' 2 5

/-- `nzuimm[5:4|9:6|2|3]` of `c.addi4spn`. -/
def addi4spnImm (p : BitVec 16) : BitVec 12 :=
  0#2 ++ p.extractLsb' 7 4 ++ p.extractLsb' 11 2 ++ bit p 5 ++ bit p 6 ++ 0#2

/-- `uimm[5:3|2|6]` of `c.lw` and `c.sw`. -/
def wordImm (p : BitVec 16) : BitVec 12 := 0#5 ++ bit p 5 ++ p.extractLsb' 10 3 ++ bit p 6 ++ 0#2

/-- `uimm[5:3|7:6]` of `c.ld` and `c.sd`. -/
def doubleImm (p : BitVec 16) : BitVec 12 := 0#4 ++ p.extractLsb' 5 2 ++ p.extractLsb' 10 3 ++ 0#3

/-- `uimm[5|4:2|7:6]` of `c.lwsp`. -/
def lwspImm (p : BitVec 16) : BitVec 12 := 0#4 ++ p.extractLsb' 2 2 ++ bit p 12 ++ p.extractLsb' 4 3 ++ 0#2

/-- `uimm[5|4:3|8:6]` of `c.ldsp`. -/
def ldspImm (p : BitVec 16) : BitVec 12 := 0#3 ++ p.extractLsb' 2 3 ++ bit p 12 ++ p.extractLsb' 5 2 ++ 0#3

/-- `uimm[5:2|7:6]` of `c.swsp`. -/
def swspImm (p : BitVec 16) : BitVec 12 := 0#4 ++ p.extractLsb' 7 2 ++ p.extractLsb' 9 4 ++ 0#2

/-- `uimm[5:3|8:6]` of `c.sdsp`. -/
def sdspImm (p : BitVec 16) : BitVec 12 := 0#3 ++ p.extractLsb' 7 3 ++ p.extractLsb' 10 3 ++ 0#3

/-- `nzimm[9|4|6|8:7|5]` of `c.addi16sp`. -/
def addi16spImm (p : BitVec 16) : BitVec 10 :=
  bit p 12 ++ p.extractLsb' 3 2 ++ bit p 5 ++ bit p 2 ++ bit p 6 ++ 0#4

/-- `imm[11|4|9:8|10|6|7|3:1|5]` of `c.j` and `c.jal`. -/
def jumpImm (p : BitVec 16) : BitVec 12 :=
  bit p 12 ++ bit p 8 ++ p.extractLsb' 9 2 ++ bit p 6 ++ bit p 7 ++ bit p 2 ++ bit p 11 ++ p.extractLsb' 3 3 ++ 0#1

/-- `imm[8|4:3|7:6|2:1|5]` of `c.beqz` and `c.bnez`. -/
def branchImm (p : BitVec 16) : BitVec 9 :=
  bit p 12 ++ p.extractLsb' 5 2 ++ bit p 2 ++ p.extractLsb' 10 2 ++ p.extractLsb' 3 2 ++ 0#1

/-! ## Words of the base formats -/

def rWord (opcode funct7 : BitVec 7) (funct3 : BitVec 3) (rd rs1 rs2 : BitVec 5) : BitVec 32 :=
  RType.getValue { opcode, funct7, funct3, rd, rs1, rs2 }

def iWord (opcode : BitVec 7) (funct3 : BitVec 3) (rd rs1 : BitVec 5) (imm12 : BitVec 12) : BitVec 32 :=
  IType.getValue { opcode, funct3, rd, rs1, imm12 }

def sWord (funct3 : BitVec 3) (rs1 rs2 : BitVec 5) (imm12 : BitVec 12) : BitVec 32 :=
  SType.getValue { opcode := opcodeS, funct3, rs1, rs2, imm12 }

def bWord (funct3 : BitVec 3) (rs1 rs2 : BitVec 5) (imm13 : BitVec 13) : BitVec 32 :=
  BType.getValue { opcode := opcodeB, funct3, rs1, rs2, imm13 }

def luiWord (rd : BitVec 5) (imm20 : BitVec 20) : BitVec 32 :=
  UType.getValue { opcode := opcodeLui, rd, imm20 := imm20.setWidth 24 }

def jalWord (rd : BitVec 5) (imm21 : BitVec 21) : BitVec 32 :=
  JType.getValue { opcode := opcodeJ, rd, imm21 }

def addi (rd rs1 : BitVec 5) (imm12 : BitVec 12) : BitVec 32 := iWord opcodeArithlogI func3Addsub rd rs1 imm12

/-- An immediate shift: six bits of `funct7`, then the amount. -/
def shift (funct3 : BitVec 3) (top : BitVec 6) (rd rs1 : BitVec 5) (shamt : BitVec 6) : BitVec 32 :=
  iWord opcodeArithlogI funct3 rd rs1 (top ++ shamt)

/-! ## Expansions -/

/-- `c.lui` and `c.addi16sp`. -/
def expandLui (p : BitVec 16) : Option (BitVec 32) :=
  if imm6 p = 0 then none
  else if full p 7 = x2 then some (addi x2 x2 ((addi16spImm p).signExtend 12))
  else some (luiWord (full p 7) ((imm6 p).signExtend 20))

/-- Quadrant 1, `funct3` 100, by the bits 12 to 10 and 6 to 5. -/
def expandArith (mxl : Nat) (p : BitVec 16) : Option (BitVec 32) :=
  let rd := window p 7
  let rs2 := window p 2
  match p.extractLsb' 10 3, p.extractLsb' 5 2 with
  | 0b000#3, _ => some (shift func3Sr 0b000000 rd rd (imm6 p))
  | 0b100#3, _ => if mxl = 2 then some (shift func3Sr 0b000000 rd rd (imm6 p)) else none
  | 0b001#3, _ => some (shift func3Sr 0b010000 rd rd (imm6 p))
  | 0b101#3, _ => if mxl = 2 then some (shift func3Sr 0b010000 rd rd (imm6 p)) else none
  | 0b010#3, _ => some (iWord opcodeArithlogI func3And rd rd ((imm6 p).signExtend 12))
  | 0b110#3, _ => some (iWord opcodeArithlogI func3And rd rd ((imm6 p).signExtend 12))
  | 0b011#3, 0b00#2 => some (rWord opcodeArithlog funcAlt func3Addsub rd rd rs2)
  | 0b011#3, 0b01#2 => some (rWord opcodeArithlog funcNorm func3Xor rd rd rs2)
  | 0b011#3, 0b10#2 => some (rWord opcodeArithlog funcNorm func3Or rd rd rs2)
  | 0b011#3, 0b11#2 => some (rWord opcodeArithlog funcNorm func3And rd rd rs2)
  | 0b111#3, 0b00#2 => if mxl = 2 then some (rWord opcodeArithlog64 funcAlt func3Addsub rd rd rs2) else none
  | 0b111#3, 0b01#2 => if mxl = 2 then some (rWord opcodeArithlog64 funcNorm func3Addsub rd rd rs2) else none
  | _, _ => none

/-- `c.jr`, `c.mv`, `c.ebreak`, `c.jalr` and `c.add`. -/
def expandJump (p : BitVec 16) : Option (BitVec 32) :=
  let rd := full p 7
  let rs2 := full p 2
  if bit p 12 = 0 then
    if rs2 ≠ 0 then some (rWord opcodeArithlog funcNorm func3Addsub rd zero rs2)
    else if rd = 0 then none
    else some (iWord opcodeJalr func3Jalr zero rd 0)
  else if rs2 ≠ 0 then some (rWord opcodeArithlog funcNorm func3Addsub rd rd rs2)
  else if rd = 0 then some (iWord opcodeSystem func3System zero zero 1)
  else some (iWord opcodeJalr func3Jalr x1 rd 0)

/-- The instruction a parcel stands for, HINTs included. -/
def expand (mxl : Nat) (p : BitVec 16) : Option (BitVec 32) :=
  let rd := full p 7
  let imm := (imm6 p).signExtend 12
  match opcode p with
  | 0b00000#5 => if p.extractLsb' 5 8 = 0 then none else some (addi (window p 2) x2 (addi4spnImm p))
  | 0b01000#5 => some (iWord opcodeLd func3Lsw (window p 2) (window p 7) (wordImm p))
  | 0b01100#5 => if mxl = 2 then some (iWord opcodeLd func3Lsd (window p 2) (window p 7) (doubleImm p)) else none
  | 0b11000#5 => some (sWord func3Lsw (window p 7) (window p 2) (wordImm p))
  | 0b11100#5 => if mxl = 2 then some (sWord func3Lsd (window p 7) (window p 2) (doubleImm p)) else none
  | 0b00001#5 => some (addi rd rd imm)
  | 0b00101#5 =>
    if mxl = 1 then some (jalWord x1 ((jumpImm p).signExtend 21))
    else if rd = 0 then none
    else some (iWord opcodeArithlogI64 func3Addsub rd rd imm)
  | 0b01001#5 => some (addi rd zero imm)
  | 0b01101#5 => expandLui p
  | 0b10001#5 => expandArith mxl p
  | 0b10101#5 => some (jalWord zero ((jumpImm p).signExtend 21))
  | 0b11001#5 => some (bWord func3Beq (window p 7) zero ((branchImm p).signExtend 13))
  | 0b11101#5 => some (bWord func3Bne (window p 7) zero ((branchImm p).signExtend 13))
  | 0b00010#5 => if mxl = 1 ∧ bit p 12 = 1 then none else some (shift func3Sl 0b000000 rd rd (imm6 p))
  | 0b01010#5 => if rd = 0 then none else some (iWord opcodeLd func3Lsw rd x2 (lwspImm p))
  | 0b01110#5 => if mxl = 2 ∧ rd ≠ 0 then some (iWord opcodeLd func3Lsd rd x2 (ldspImm p)) else none
  | 0b10010#5 => expandJump p
  | 0b11010#5 => some (sWord func3Lsw x2 (full p 2) (swspImm p))
  | 0b11110#5 => if mxl = 2 then some (sWord func3Lsd x2 (full p 2) (sdspImm p)) else none
  | _ => none

/-- The parcels that the specification calls HINTs. -/
def isHint (p : BitVec 16) : Bool :=
  match opcode p with
  | 0b00001#5 => (full p 7 = 0 ∧ imm6 p ≠ 0) ∨ (full p 7 ≠ 0 ∧ imm6 p = 0)
  | 0b01001#5 => full p 7 = 0
  | 0b01101#5 => full p 7 = 0
  | 0b10001#5 => bit p 11 = 0 ∧ imm6 p = 0
  | 0b00010#5 => full p 7 = 0 ∨ imm6 p = 0
  | 0b10010#5 => full p 2 ≠ 0 ∧ full p 7 = 0
  | _ => false

end Rvc

end RiscvEmulator
