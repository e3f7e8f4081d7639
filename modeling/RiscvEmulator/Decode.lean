/-
Instructions and their decoders: `enum instruction`, the field getters of
`instruction_encdec.cc`, `GetCode32` and `GetCode16`.

Register numbers are five bits and an `int32_t` immediate is its 32 bits.
-/
import RiscvEmulator.BitTools
import RiscvEmulator.Common

namespace RiscvEmulator

inductive Instruction where
  | error
  | add | addw | and | sub | subw | or | xor | sll | sllw | srl | srlw | sra | sraw | slt | sltu
  | addi | addiw | andi | ori | xori | slli | slliw | srli | srliw | srai | sraiw | slti | sltiu
  | beq | bge | bgeu | blt | bltu | bne
  | jal | jalr
  | lb | lbu | lh | lhu | lw | lwu | ld
  | sb | sh | sw | sd
  | lui | auipc | system
  | csrrc | csrrci | csrrs | csrrsi | csrrw | csrrwi
  | fence | fencei
  | mul | mulh | mulhsu | mulhu | mulw | div | divu | divuw | divw | rem | remu | remuw | remw
  | amoaddd | amoaddw | amoandd | amoandw | amomaxd | amomaxw | amomaxud | amomaxuw | amomind | amominw
  | amominud | amominuw | amoord | amoorw | amoxord | amoxorw | amoswapd | amoswapw
  deriving DecidableEq, Repr

/-- The fields the decoders give to `RunCpu`. -/
structure Decoded where
  instruction : Instruction := .error
  rd : BitVec 5 := 0
  rs1 : BitVec 5 := 0
  rs2 : BitVec 5 := 0
  imm : BitVec 32 := 0
  deriving DecidableEq, Repr

/-! ## Fields -/

def getRd (ir : BitVec 32) : BitVec 5 := (bitcrop ir 5 7).setWidth 5
def getRs1 (ir : BitVec 32) : BitVec 5 := (bitcrop ir 5 15).setWidth 5
def getRs2 (ir : BitVec 32) : BitVec 5 := (bitcrop ir 5 20).setWidth 5
def getCsr (ir : BitVec 32) : BitVec 12 := (bitcrop ir 12 20).setWidth 12

def getImm12 (ir : BitVec 32) : BitVec 32 := signExtend (bitcrop ir 12 20) 12

def getImm13 (ir : BitVec 32) : BitVec 32 :=
  signExtend (bitShift ir 1 31 12 ||| bitShift ir 6 25 5 ||| (bitShift ir 4 8 1 ||| bitShift ir 1 7 11)) 13

def getImm21 (ir : BitVec 32) : BitVec 32 :=
  let offset1912 := bitcrop ir 8 12
  let offset11 := bitcrop ir 1 20
  let offset101 := bitcrop ir 10 21
  let offset20 := bitcrop ir 1 31
  signExtend ((offset20 <<< 20) ||| (offset1912 <<< 12) ||| (offset11 <<< 11) ||| (offset101 <<< 1)) 21

def getStypeImm12 (ir : BitVec 32) : BitVec 32 :=
  signExtend ((bitcrop ir 7 25 <<< 5) ||| bitcrop ir 5 7) 12

def getImm20 (ir : BitVec 32) : BitVec 32 := signExtend (bitcrop ir 20 12) 20

/-! `enum op_label`, `op_funct`, `op_funct3` and `op_funct5`. -/

def opcodeArithlog : BitVec 7 := 0b0110011
def opcodeArithlog64 : BitVec 7 := 0b0111011
def opcodeArithlogI : BitVec 7 := 0b0010011
def opcodeArithlogI64 : BitVec 7 := 0b0011011
def opcodeB : BitVec 7 := 0b1100011
def opcodeLd : BitVec 7 := 0b0000011
def opcodeJ : BitVec 7 := 0b1101111
def opcodeS : BitVec 7 := 0b0100011
def opcodeJalr : BitVec 7 := 0b1100111
def opcodeLui : BitVec 7 := 0b0110111
def opcodeAuipc : BitVec 7 := 0b0010111
def opcodeSystem : BitVec 7 := 0b1110011
def opcodeFence : BitVec 7 := 0b0001111
def opcodeAmo : BitVec 7 := 0b0101111

def funcNorm : BitVec 7 := 0b0000000
def funcAlt : BitVec 7 := 0b0100000
def funcMult : BitVec 7 := 0b0000001

def func3Addsub : BitVec 3 := 0b000
def func3And : BitVec 3 := 0b111
def func3Or : BitVec 3 := 0b110
def func3Xor : BitVec 3 := 0b100
def func3Sl : BitVec 3 := 0b001
def func3Sr : BitVec 3 := 0b101
def func3Slt : BitVec 3 := 0b010
def func3Sltu : BitVec 3 := 0b011
def func3Beq : BitVec 3 := 0b000
def func3Bge : BitVec 3 := 0b101
def func3Bgeu : BitVec 3 := 0b111
def func3Blt : BitVec 3 := 0b100
def func3Bltu : BitVec 3 := 0b110
def func3Bne : BitVec 3 := 0b001
def func3Lsb : BitVec 3 := 0b000
def func3Lsbu : BitVec 3 := 0b100
def func3Lsh : BitVec 3 := 0b001
def func3Lshu : BitVec 3 := 0b101
def func3Lsw : BitVec 3 := 0b010
def func3Lsd : BitVec 3 := 0b011
def func3Lswu : BitVec 3 := 0b110
def func3Jalr : BitVec 3 := 0b000
def func3System : BitVec 3 := 0b000
def func3Csrrc : BitVec 3 := 0b011
def func3Csrrci : BitVec 3 := 0b111
def func3Csrrs : BitVec 3 := 0b010
def func3Csrrsi : BitVec 3 := 0b110
def func3Csrrw : BitVec 3 := 0b001
def func3Csrrwi : BitVec 3 := 0b101
def func3Fence : BitVec 3 := 0b000
def func3Fencei : BitVec 3 := 0b001
def func3Mul : BitVec 3 := 0b000
def func3Mulh : BitVec 3 := 0b001
def func3Mulhsu : BitVec 3 := 0b010
def func3Mulhu : BitVec 3 := 0b011
def func3Div : BitVec 3 := 0b100
def func3Divu : BitVec 3 := 0b101
def func3Rem : BitVec 3 := 0b110
def func3Remu : BitVec 3 := 0b111
def func3Amod : BitVec 3 := 0b011

def func5Amoadd : BitVec 5 := 0b00000
def func5Amoand : BitVec 5 := 0b01100
def func5Amomax : BitVec 5 := 0b10100
def func5Amomaxu : BitVec 5 := 0b11100
def func5Amomin : BitVec 5 := 0b10000
def func5Amominu : BitVec 5 := 0b11000
def func5Amoor : BitVec 5 := 0b01000
def func5Amoswap : BitVec 5 := 0b00001
def func5Amoxor : BitVec 5 := 0b00100

def getOpcode (ir : BitVec 32) : BitVec 7 := (bitcrop ir 7 0).setWidth 7
def getFunct3 (ir : BitVec 32) : BitVec 3 := (bitcrop ir 3 12).setWidth 3
def getFunct7 (ir : BitVec 32) : BitVec 7 := (bitcrop ir 7 25).setWidth 7

def getImm (ir : BitVec 32) : BitVec 32 :=
  let opcode := getOpcode ir
  let funct3 := getFunct3 ir
  if opcode = opcodeArithlogI ∨ opcode = opcodeArithlogI64 then
    if funct3 = func3Sl ∨ funct3 = func3Sr then getImm12 ir &&& 0b111111 else getImm12 ir
  else if opcode = opcodeB then getImm13 ir
  else if opcode = opcodeLui ∨ opcode = opcodeAuipc then getImm20 ir <<< 12
  else if opcode = opcodeJ then getImm21 ir
  else if opcode = opcodeS then getStypeImm12 ir
  else getImm12 ir

/-! ## 32-bit instructions -/

def codeArithlog (funct3 : BitVec 3) (funct7 : BitVec 7) : Instruction :=
  if funct7 = funcNorm ∨ funct7 = funcAlt then
    if funct3 = func3Addsub then if funct7 = funcNorm then .add else .sub
    else if funct3 = func3And then .and
    else if funct3 = func3Or then .or
    else if funct3 = func3Xor then .xor
    else if funct3 = func3Sr then
      if funct7 = funcNorm then .srl
      else if funct7 = funcAlt then .sra
      else .error
    else if funct3 = func3Sl then .sll
    else if funct3 = func3Slt then .slt
    else if funct3 = func3Sltu then .sltu
    else .error
  else if funct7 = funcMult then
    if funct3 = func3Mul then .mul
    else if funct3 = func3Mulh then .mulh
    else if funct3 = func3Mulhsu then .mulhsu
    else if funct3 = func3Mulhu then .mulhu
    else if funct3 = func3Div then .div
    else if funct3 = func3Divu then .divu
    else if funct3 = func3Rem then .rem
    else if funct3 = func3Remu then .remu
    else .error
  else .error

def codeArithlog64 (funct3 : BitVec 3) (funct7 : BitVec 7) : Instruction :=
  if funct7 = funcNorm ∨ funct7 = funcAlt then
    if funct3 = func3Addsub then if funct7 = funcNorm then .addw else .subw
    else if funct3 = func3Sl then .sllw
    else if funct3 = func3Sr then
      if funct7 = funcNorm then .srlw
      else if funct7 = funcAlt then .sraw
      else .error
    else .error
  else if funct7 = funcMult then
    if funct3 = func3Mul then .mulw
    else if funct3 = func3Divu then .divuw
    else if funct3 = func3Div then .divw
    else if funct3 = func3Remu then .remuw
    else if funct3 = func3Rem then .remw
    else .error
  else .error

def codeArithlogI (funct3 : BitVec 3) (funct7 : BitVec 7) : Instruction :=
  if funct3 = func3Addsub then .addi
  else if funct3 = func3And then .andi
  else if funct3 = func3Or then .ori
  else if funct3 = func3Xor then .xori
  else if funct3 = func3Sl then .slli
  else if funct3 = func3Sr then
    if funct7 >>> 1 = 0b000000 then .srli
    else if funct7 >>> 1 = 0b010000 then .srai
    else .error
  else if funct3 = func3Slt then .slti
  else if funct3 = func3Sltu then .sltiu
  else .error

def codeArithlogI64 (funct3 : BitVec 3) (funct7 : BitVec 7) : Instruction :=
  if funct3 = func3Addsub then .addiw
  else if funct3 = func3Sl then .slliw
  else if funct3 = func3Sr then
    if funct7 >>> 1 = 0b000000 then .srliw
    else if funct7 >>> 1 = 0b010000 then .sraiw
    else .error
  else .error

def codeBranch (funct3 : BitVec 3) : Instruction :=
  if funct3 = func3Beq then .beq
  else if funct3 = func3Blt then .blt
  else if funct3 = func3Bltu then .bltu
  else if funct3 = func3Bge then .bge
  else if funct3 = func3Bgeu then .bgeu
  else if funct3 = func3Bne then .bne
  else .error

def codeLoad (funct3 : BitVec 3) : Instruction :=
  if funct3 = func3Lsb then .lb
  else if funct3 = func3Lsbu then .lbu
  else if funct3 = func3Lsh then .lh
  else if funct3 = func3Lshu then .lhu
  else if funct3 = func3Lsw then .lw
  else if funct3 = func3Lswu then .lwu
  else if funct3 = func3Lsd then .ld
  else .error

def codeStore (funct3 : BitVec 3) : Instruction :=
  if funct3 = func3Lsb then .sb
  else if funct3 = func3Lsh then .sh
  else if funct3 = func3Lsw then .sw
  else if funct3 = func3Lsd then .sd
  else .error

def codeSystem (funct3 : BitVec 3) : Instruction :=
  if funct3 = func3System then .system
  else if funct3 = func3Csrrc then .csrrc
  else if funct3 = func3Csrrci then .csrrci
  else if funct3 = func3Csrrs then .csrrs
  else if funct3 = func3Csrrsi then .csrrsi
  else if funct3 = func3Csrrw then .csrrw
  else if funct3 = func3Csrrwi then .csrrwi
  else .error

/-- Any `funct3` but that of the doubleword forms gives the word form. -/
def codeAmo (funct3 : BitVec 3) (funct5 : BitVec 5) : Instruction :=
  if funct5 = func5Amoadd then if funct3 = func3Amod then .amoaddd else .amoaddw
  else if funct5 = func5Amoand then if funct3 = func3Amod then .amoandd else .amoandw
  else if funct5 = func5Amomax then if funct3 = func3Amod then .amomaxd else .amomaxw
  else if funct5 = func5Amomaxu then if funct3 = func3Amod then .amomaxud else .amomaxuw
  else if funct5 = func5Amomin then if funct3 = func3Amod then .amomind else .amominw
  else if funct5 = func5Amominu then if funct3 = func3Amod then .amominud else .amominuw
  else if funct5 = func5Amoor then if funct3 = func3Amod then .amoord else .amoorw
  else if funct5 = func5Amoxor then if funct3 = func3Amod then .amoxord else .amoxorw
  else if funct5 = func5Amoswap then if funct3 = func3Amod then .amoswapd else .amoswapw
  else .error

def getCode32 (ir : BitVec 32) : Instruction :=
  let opcode := getOpcode ir
  let funct3 := getFunct3 ir
  let funct7 := getFunct7 ir
  let funct5 := (funct7 >>> 2).setWidth 5
  if opcode = opcodeArithlog then codeArithlog funct3 funct7
  else if opcode = opcodeArithlog64 then codeArithlog64 funct3 funct7
  else if opcode = opcodeArithlogI then codeArithlogI funct3 funct7
  else if opcode = opcodeArithlogI64 then codeArithlogI64 funct3 funct7
  else if opcode = opcodeB then codeBranch funct3
  else if opcode = opcodeJ then .jal
  else if opcode = opcodeJalr then if funct3 = func3Jalr then .jalr else .error
  else if opcode = opcodeLd then codeLoad funct3
  else if opcode = opcodeS then codeStore funct3
  else if opcode = opcodeLui then .lui
  else if opcode = opcodeAuipc then .auipc
  else if opcode = opcodeSystem then codeSystem funct3
  else if opcode = opcodeFence then
    if funct3 = func3Fencei then .fencei else if funct3 = func3Fence then .fence else .error
  else if opcode = opcodeAmo then codeAmo funct3 funct5
  else .error

/-! ## 16-bit instructions -/

/-- A register of the window `x8` to `x15`. -/
def windowReg (ir : BitVec 32) (offset : Nat) : BitVec 5 := (bitcrop ir 3 offset + 8).setWidth 5

/-- A five-bit register field. -/
def fullReg (ir : BitVec 32) (offset : Nat) : BitVec 5 := (bitcrop ir 5 offset).setWidth 5

/-- The offset of `c.j` and `c.jal`. -/
def jumpImm16 (ir : BitVec 32) : BitVec 32 :=
  signExtend ((bitcrop ir 1 12 <<< 11) ||| (bitcrop ir 1 11 <<< 4) ||| (bitcrop ir 2 9 <<< 8) |||
    (bitcrop ir 1 8 <<< 10) ||| (bitcrop ir 1 7 <<< 6) ||| (bitcrop ir 1 6 <<< 7) ||| (bitcrop ir 3 3 <<< 1) |||
    (bitcrop ir 1 2 <<< 5)) 12

/-- The six-bit field of `c.addi`, `c.li` and `c.andi`. -/
def imm6 (ir : BitVec 32) : BitVec 32 := (bitcrop ir 1 12 <<< 5) ||| bitcrop ir 5 2

/-- Quadrant 1, opcode `100`. -/
def code16Arith (ir : BitVec 32) : Decoded :=
  let rd := windowReg ir 7
  let rs2 := windowReg ir 2
  if bitcrop ir 3 10 = 0b011 ∧ bitcrop ir 2 5 = 0b11 then { instruction := .and, rd, rs1 := rd, rs2 }
  else if bitcrop ir 3 10 = 0b011 ∧ bitcrop ir 2 5 = 0b01 then { instruction := .xor, rd, rs1 := rd, rs2 }
  else if bitcrop ir 3 10 = 0b011 ∧ bitcrop ir 2 5 = 0b00 then { instruction := .sub, rd, rs1 := rd, rs2 }
  else if bitcrop ir 3 10 = 0b011 ∧ bitcrop ir 2 5 = 0b10 then { instruction := .or, rd, rs1 := rd, rs2 }
  else if bitcrop ir 3 10 = 0b111 ∧ bitcrop ir 2 5 = 0b01 then { instruction := .addw, rd, rs1 := rd, rs2 }
  else if bitcrop ir 3 10 = 0b111 ∧ bitcrop ir 2 5 = 0b00 then { instruction := .subw, rd, rs1 := rd, rs2 }
  else if bitcrop ir 1 11 = 0b0 then
    { instruction := if bitcrop ir 1 10 = 1 then .srai else .srli, rd, rs1 := rd,
      imm := (bitcrop ir 1 12 <<< 5) + bitcrop ir 5 2 }
  else if bitcrop ir 1 10 = 0b0 then
    { instruction := .andi, rd, rs1 := rd, imm := signExtend ((bitcrop ir 1 12 <<< 5) + bitcrop ir 5 2) 6 }
  else {}

/-- Quadrant 2, opcode `100`: `c.ebreak`, `c.jalr`, `c.add`, `c.jr` and `c.mv`. -/
def code16Jump (ir : BitVec 32) : Decoded :=
  if bitcrop ir 1 12 = 1 then
    if bitcrop ir 5 2 = 0 ∧ bitcrop ir 5 7 = 0 then { instruction := .system, imm := 1 }
    else if bitcrop ir 5 2 = 0 then { instruction := .jalr, rs1 := fullReg ir 7, rd := x1, imm := 0 }
    else if bitcrop ir 5 7 = 0 then {}
    else { instruction := .add, rd := fullReg ir 7, rs1 := fullReg ir 7, rs2 := fullReg ir 2 }
  else if bitcrop ir 5 2 = 0 then { instruction := .jalr, rs1 := fullReg ir 7, rd := 0, imm := 0 }
  else { instruction := .add, rd := fullReg ir 7, rs2 := fullReg ir 2, rs1 := 0 }

/-- Quadrant 1, opcode `011`: `c.lui` and `c.addi16sp`. -/
def code16Lui (ir : BitVec 32) : Decoded :=
  let rd := fullReg ir 7
  if rd ≠ x2 then
    let imm := signExtend ((bitcrop ir 1 12 <<< 17) ||| (bitcrop ir 5 2 <<< 12)) 18
    { instruction := if imm = 0 then .error else .lui, rd, imm }
  else
    let imm := signExtend ((bitcrop ir 1 12 <<< 9) ||| (bitcrop ir 1 6 <<< 4) ||| (bitcrop ir 1 5 <<< 6) |||
      (bitcrop ir 2 3 <<< 7) ||| (bitcrop ir 1 2 <<< 5)) 10
    { instruction := if imm = 0 then .error else .addi, rd, rs1 := 2, imm }

def getCode16 (ir : BitVec 32) (mxl : Nat) : Decoded :=
  let opcode : BitVec 5 := ((((ir >>> 13) &&& 0b111) <<< 2) ||| (ir &&& 0b11)).setWidth 5
  match opcode with
  | 0b00000#5 =>
    if bitcrop ir 8 5 = 0 then {}
    else
      { instruction := .addi, rs1 := 2, rd := windowReg ir 2,
        imm := (bitcrop ir 2 11 <<< 4) ||| (bitcrop ir 4 7 <<< 6) ||| (bitcrop ir 1 6 <<< 2) |||
          (bitcrop ir 1 5 <<< 3) }
  | 0b00001#5 => { instruction := .addi, rd := fullReg ir 7, rs1 := fullReg ir 7, imm := signExtend (imm6 ir) 6 }
  | 0b00101#5 =>
    if mxl = 1 then { instruction := .jal, rd := x1, imm := jumpImm16 ir }
    else { instruction := .addiw, rd := fullReg ir 7, rs1 := fullReg ir 7, imm := signExtend (imm6 ir) 6 }
  | 0b00010#5 => { instruction := .slli, rd := fullReg ir 7, rs1 := fullReg ir 7, imm := imm6 ir }
  | 0b01000#5 =>
    { instruction := .lw, rs1 := windowReg ir 7, rd := windowReg ir 2,
      imm := (bitcrop ir 3 10 <<< 3) ||| (bitcrop ir 1 6 <<< 2) ||| (bitcrop ir 1 5 <<< 6) }
  | 0b01001#5 => { instruction := .addi, rs1 := 0, rd := fullReg ir 7, imm := signExtend (imm6 ir) 6 }
  | 0b01010#5 =>
    { instruction := .lw, rd := fullReg ir 7, rs1 := x2,
      imm := (bitcrop ir 1 12 <<< 5) ||| (bitcrop ir 3 4 <<< 2) ||| (bitcrop ir 2 2 <<< 6) }
  | 0b01100#5 =>
    { instruction := .ld, rd := windowReg ir 2, rs1 := windowReg ir 7,
      imm := (bitcrop ir 3 10 <<< 3) ||| (bitcrop ir 2 5 <<< 6) }
  | 0b01110#5 =>
    { instruction := .ld, rd := fullReg ir 7, rs1 := 2,
      imm := (bitcrop ir 1 12 <<< 5) ||| (bitcrop ir 2 5 <<< 3) ||| (bitcrop ir 3 2 <<< 6) }
  | 0b01101#5 => code16Lui ir
  | 0b10010#5 => code16Jump ir
  | 0b10001#5 => code16Arith ir
  | 0b10101#5 => { instruction := .jal, rd := 0, imm := jumpImm16 ir }
  | 0b11000#5 =>
    { instruction := .sw, rs1 := windowReg ir 7, rs2 := windowReg ir 2,
      imm := (bitcrop ir 3 10 <<< 3) ||| (bitcrop ir 1 6 <<< 2) ||| (bitcrop ir 1 5 <<< 6) }
  | 0b11100#5 =>
    { instruction := .sd, rs1 := windowReg ir 7, rs2 := windowReg ir 2,
      imm := (bitcrop ir 3 10 <<< 3) ||| (bitcrop ir 2 5 <<< 6) }
  | 0b11001#5 | 0b11101#5 =>
    { instruction := if opcode = 0b11001#5 then .beq else .bne, rs1 := windowReg ir 7, rs2 := 0,
      imm := signExtend ((bitcrop ir 1 12 <<< 8) ||| (bitcrop ir 2 10 <<< 3) ||| (bitcrop ir 2 5 <<< 6) |||
        (bitcrop ir 2 3 <<< 1) ||| (bitcrop ir 1 2 <<< 5)) 9 }
  | 0b11010#5 =>
    { instruction := .sw, rs1 := 2, rs2 := fullReg ir 2,
      imm := (bitcrop ir 4 9 <<< 2) ||| (bitcrop ir 2 7 <<< 6) }
  | 0b11110#5 =>
    { instruction := .sd, rs1 := x2, rs2 := fullReg ir 2,
      imm := (bitcrop ir 3 10 <<< 3) ||| (bitcrop ir 3 7 <<< 6) }
  | _ => {}

/-- The decoding in `RunCpu`. -/
def decode (ir : BitVec 32) (mxl : Nat) : Decoded :=
  if ir &&& 0b11 ≠ 0b11 then getCode16 ir mxl
  else { instruction := getCode32 ir, rd := getRd ir, rs1 := getRs1 ir, rs2 := getRs2 ir, imm := getImm ir }

end RiscvEmulator
