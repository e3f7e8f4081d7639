/-
`Disassembler.cpp`: the line of text for an instruction word.

A chain of conditions that names a mnemonic is a function of its own, under
the opcode it belongs to, as the chains of `GetCode32` are. A number is
written as the `uint32_t` that `NumberToHex` takes.
-/
import RiscvEmulator.Decode

namespace RiscvEmulator

def kRegNames : List String :=
  ["ZERO", "RA", "SP", "GP", "TP", "T0", "T1", "T2", "FP", "S1", "A0",
    "A1", "A2", "A3", "A4", "A5", "A6", "A7", "S2", "S3", "S4", "S5",
    "S6", "S7", "S8", "S9", "S10", "S11", "T3", "T4", "T5", "T6"]

def getRegName (reg : BitVec 5) : String := kRegNames.getD reg.toNat ""

def numberToHex (num : BitVec 32) : String := "0x" ++ String.ofList (Nat.toDigits 16 num.toNat)

/-! ## `Disassemble16` -/

/-- `opcode` of `Disassemble16`. -/
def opcode16 (ir : BitVec 32) : BitVec 5 := ((bitcrop ir 3 13 <<< 2) ||| bitcrop ir 2 0).setWidth 5

/-- Case `0b10010`. -/
def disassembleJump16 (ir : BitVec 32) (d : Decoded) : String :=
  if bitcrop ir 1 12 = 1 then
    if bitcrop ir 5 2 = 0 ∧ bitcrop ir 5 7 = 0 then "C.EBREAK"
    else if bitcrop ir 5 2 = 0 then "C.JALR " ++ getRegName d.rs1
    else if bitcrop ir 5 7 ≠ 0 then "C.ADD " ++ getRegName d.rd ++ ", " ++ getRegName d.rs2
    else "Unsupported C Instruction"
  else if bitcrop ir 5 2 = 0 then "C.JR " ++ getRegName d.rs1
  else "C.MV " ++ getRegName d.rd ++ ", " ++ getRegName d.rs2

/-- Case `0b10001`. -/
def disassembleArith16 (ir : BitVec 32) (d : Decoded) : String :=
  if bitcrop ir 3 10 = 0b011 ∧ bitcrop ir 2 5 = 0b11 then "C.AND " ++ getRegName d.rd ++ ", " ++ getRegName d.rs2
  else if bitcrop ir 3 10 = 0b011 ∧ bitcrop ir 2 5 = 0b01 then "C.XOR " ++ getRegName d.rd ++ ", " ++ getRegName d.rs2
  else if bitcrop ir 3 10 = 0b011 ∧ bitcrop ir 2 5 = 0b00 then "C.SUB " ++ getRegName d.rd ++ ", " ++ getRegName d.rs2
  else if bitcrop ir 3 10 = 0b011 ∧ bitcrop ir 2 5 = 0b10 then "C.OR " ++ getRegName d.rd ++ ", " ++ getRegName d.rs2
  else if bitcrop ir 3 10 = 0b111 ∧ bitcrop ir 2 5 = 0b01 then "C.ADDW " ++ getRegName d.rd ++ ", " ++ getRegName d.rs2
  else if bitcrop ir 3 10 = 0b111 ∧ bitcrop ir 2 5 = 0b00 then "C.SUBW " ++ getRegName d.rd ++ ", " ++ getRegName d.rs2
  else if bitcrop ir 2 10 = 0b01 then "C.SRAI " ++ getRegName d.rd ++ ", " ++ numberToHex d.imm
  else if bitcrop ir 2 10 = 0b00 then "C.SRLI " ++ getRegName d.rd ++ ", " ++ numberToHex d.imm
  else if bitcrop ir 2 10 = 0b10 then "C.ANDI " ++ getRegName d.rd ++ ", " ++ numberToHex (signExtend d.imm 6)
  else "Unsupported C Instruction"

def disassemble16 (ir : BitVec 32) (mxl : Nat) : String :=
  let d := getCode16 ir mxl
  match opcode16 ir with
  | 0b00000#5 => "C.ADDI4SPN " ++ getRegName d.rd ++ ", SP, " ++ numberToHex d.imm
  | 0b00001#5 => "C.ADDI " ++ getRegName d.rd ++ ", " ++ numberToHex d.imm
  | 0b00010#5 => "C.SLLI " ++ getRegName d.rd ++ ", " ++ numberToHex d.imm
  | 0b00101#5 =>
    if mxl = 1 then "C.JAL " ++ numberToHex (signExtend d.imm 12)
    else "C.ADDIW " ++ getRegName d.rd ++ ", " ++ numberToHex d.imm
  | 0b01000#5 => "C.LW " ++ getRegName d.rd ++ ", " ++ numberToHex d.imm ++ "(" ++ getRegName d.rs1 ++ ")"
  | 0b01001#5 => "C.LI " ++ getRegName d.rd ++ ", " ++ numberToHex d.imm
  | 0b01010#5 => "C.LWSP " ++ getRegName d.rd ++ ", " ++ numberToHex d.imm ++ "(SP)"
  | 0b01100#5 => "C.LD " ++ getRegName d.rd ++ ", " ++ numberToHex d.imm ++ "(" ++ getRegName d.rs1 ++ ")"
  | 0b01101#5 =>
    if bitcrop ir 5 7 = 0b00010 then "C.ADDI16SP SP, SP, " ++ numberToHex d.imm
    else "C.LUI " ++ getRegName d.rd ++ ", " ++ numberToHex d.imm
  | 0b01110#5 => "C.LDSP " ++ getRegName d.rd ++ ", " ++ numberToHex d.imm ++ "(SP)"
  | 0b10010#5 => disassembleJump16 ir d
  | 0b10001#5 => disassembleArith16 ir d
  | 0b10101#5 => "C.J " ++ numberToHex (signExtend d.imm 12)
  -- The case of C.SW, `0b11000`, has no `break`: its line is written over.
  | 0b11000#5 | 0b11001#5 => "C.BEQZ " ++ getRegName d.rs1 ++ ", " ++ numberToHex (signExtend d.imm 9)
  | 0b11010#5 => "C.SWSP " ++ getRegName d.rs2 ++ ", " ++ numberToHex d.imm ++ "(SP)"
  | 0b11100#5 => "C.SD " ++ getRegName d.rs2 ++ ", " ++ numberToHex d.imm ++ "(" ++ getRegName d.rs1 ++ ")"
  | 0b11101#5 => "C.BNEZ " ++ getRegName d.rs1 ++ ", " ++ numberToHex (signExtend d.imm 9)
  | 0b11110#5 => "C.SDSP " ++ getRegName d.rs2 ++ ", " ++ numberToHex d.imm ++ "(SP)"
  | _ => "Unsupported C Instruction"

/-! ## `Disassemble` -/

def nameArithlog (funct3 : BitVec 3) (funct7 : BitVec 7) : String :=
  if funct7 = funcNorm ∨ funct7 = funcAlt then
    if funct3 = func3Addsub then if funct7 = funcNorm then "ADD" else "SUB"
    else if funct3 = func3And then "AND"
    else if funct3 = func3Or then "OR"
    else if funct3 = func3Xor then "XOR"
    else if funct3 = func3Sr then
      if funct7 = funcNorm then "SRL"
      else if funct7 = funcAlt then "SRA"
      else "UNDEF"
    else if funct3 = func3Sl then "SLL"
    else if funct3 = func3Slt then "SLT"
    else if funct3 = func3Sltu then "SLTU"
    else "UNDEF"
  else if funct7 = funcMult then
    if funct3 = func3Mul then "MUL"
    else if funct3 = func3Mulh then "MULH"
    else if funct3 = func3Mulhsu then "MULHSU"
    else if funct3 = func3Mulhu then "MULHU"
    else if funct3 = func3Div then "DIV"
    else if funct3 = func3Divu then "DIVU"
    else if funct3 = func3Rem then "REM"
    else if funct3 = func3Remu then "REMU"
    else "UNDEF"
  else "UNDEF"

/-- The label inside the case of `OPCODE_ARITHLOG`. -/
def nameArithlog64 (funct3 : BitVec 3) (funct7 : BitVec 7) : String :=
  if funct7 = funcNorm ∨ funct7 = funcAlt then
    if funct3 = func3Addsub then if funct7 = funcNorm then "ADDW" else "SUBW"
    else if funct3 = func3Sl then "SLLW"
    else if funct3 = func3Sr then
      if funct7 = funcNorm then "SRLW"
      else if funct7 = funcAlt then "SRAW"
      else "UNDEF"
    else "UNDEF"
  else if funct7 = funcMult then
    if funct3 = func3Mul then "MULW"
    else if funct3 = func3Divu then "DIVUW"
    else if funct3 = func3Div then "DIVW"
    else if funct3 = func3Remu then "REMUW"
    else if funct3 = func3Rem then "REMW"
    else "UNDEF"
  else "UNDEF"

def nameArithlogI (funct3 : BitVec 3) (funct7 : BitVec 7) : String :=
  if funct3 = func3Addsub then "ADDI"
  else if funct3 = func3And then "ANDI"
  else if funct3 = func3Or then "ORI"
  else if funct3 = func3Xor then "XORI"
  else if funct3 = func3Sl then "SLLI"
  else if funct3 = func3Sr then
    if funct7 >>> 1 = 0b000000 then "SRLI"
    else if funct7 >>> 1 = 0b010000 then "SRAI"
    else "UNDEF"
  else if funct3 = func3Slt then "SLTI"
  else if funct3 = func3Sltu then "SLTIU"
  else "UNDEF"

def nameArithlogI64 (funct3 : BitVec 3) (funct7 : BitVec 7) : String :=
  if funct3 = func3Addsub then "ADDIW"
  else if funct3 = func3Sl then "SLLIW"
  else if funct3 = func3Sr then
    if funct7 >>> 1 = 0b000000 then "SRLIW"
    else if funct7 >>> 1 = 0b010000 then "SRAIW"
    else "UNDEF"
  else "UNDEF"

def nameBranch (funct3 : BitVec 3) : String :=
  if funct3 = func3Beq then "BEQ"
  else if funct3 = func3Blt then "BLT"
  else if funct3 = func3Bltu then "BLTU"
  else if funct3 = func3Bge then "BGE"
  else if funct3 = func3Bgeu then "BGEU"
  else if funct3 = func3Bne then "BNE"
  else "UNDEF"

def nameLoad (funct3 : BitVec 3) : String :=
  if funct3 = func3Lsb then "LB"
  else if funct3 = func3Lsbu then "LBU"
  else if funct3 = func3Lsh then "LH"
  else if funct3 = func3Lshu then "LHU"
  else if funct3 = func3Lsw then "LW"
  else if funct3 = func3Lswu then "LWU"
  else if funct3 = func3Lsd then "LD"
  else "UNDEF"

def nameStore (funct3 : BitVec 3) : String :=
  if funct3 = func3Lsb then "SB"
  else if funct3 = func3Lsh then "SH"
  else if funct3 = func3Lsw then "SW"
  else if funct3 = func3Lsd then "SD"
  else "UNDEF"

/-- `imm12` is an `int16_t`, so its shift is arithmetic. -/
def nameSystem (imm12 : BitVec 32) (rd : BitVec 5) : String :=
  if imm12 = 0 then "ECALL"
  else if imm12 = 1 then "EBREAK"
  else if imm12 = 0b001100000010 then "MRET"
  else if imm12 = 0b000100000010 then "SRET"
  else if imm12.sshiftRight 5 = 0b0001001 ∧ rd = 0b00000 then "sfence.vma"
  else "Undefined System Instruction"

def nameCsr (funct3 : BitVec 3) : String :=
  if funct3 = func3Csrrc then "CSRRC"
  else if funct3 = func3Csrrci then "CSRRCI"
  else if funct3 = func3Csrrs then "CSRRS"
  else if funct3 = func3Csrrsi then "CSRRSI"
  else if funct3 = func3Csrrw then "CSRRW"
  else if funct3 = func3Csrrwi then "CSRRWI"
  else "UNDEF"

def nameAmo (funct3 : BitVec 3) (funct5 : BitVec 5) : String :=
  if funct5 = func5Amoadd then if funct3 = func3Amod then "AMOADD.D" else "AMOADD.W"
  else if funct5 = func5Amoand then if funct3 = func3Amod then "AMOAND.D" else "AMOAND.W"
  else if funct5 = func5Amomax then if funct3 = func3Amod then "AMOMAX.D" else "AMOMAX.W"
  else if funct5 = func5Amomaxu then if funct3 = func3Amod then "AMOMAXU.D" else "AMOMAXU.W"
  else if funct5 = func5Amomin then if funct3 = func3Amod then "AMOMIN.D" else "AMOMIN.W"
  else if funct5 = func5Amominu then if funct3 = func3Amod then "AMOMINU.D" else "AMOMAIN.W"
  else if funct5 = func5Amoor then if funct3 = func3Amod then "AMOOR.D" else "AMOOR.W"
  else if funct5 = func5Amoxor then if funct3 = func3Amod then "AMOXOR.D" else "AMOXOR.W"
  else if funct5 = func5Amoswap then if funct3 = func3Amod then "AMOSWAP.D" else "AMOSWAP.W"
  else "UNDEF"

/-- The `switch` of `Disassemble`. -/
def disassembleSwitch (opcode : BitVec 7) (ir : BitVec 32) : String :=
  let funct3 := getFunct3 ir
  let funct7 := getFunct7 ir
  let funct5 : BitVec 5 := (funct7 >>> 2).setWidth 5
  let rd := getRd ir
  let rs1 := getRs1 ir
  let rs2 := getRs2 ir
  let imm12 := getImm12 ir
  let csr := (getCsr ir).setWidth 32
  if opcode = opcodeArithlog then
    nameArithlog funct3 funct7 ++ " " ++ getRegName rd ++ ", " ++ getRegName rs1 ++ ", " ++ getRegName rs2
  else if opcode = opcodeArithlog64 then
    nameArithlog64 funct3 funct7 ++ " " ++ getRegName rd ++ ", " ++ getRegName rs1 ++ ", " ++ getRegName rs2
  else if opcode = opcodeArithlogI then
    nameArithlogI funct3 funct7 ++ " " ++ getRegName rd ++ ", " ++ getRegName rs1 ++ ", " ++ numberToHex imm12
  else if opcode = opcodeArithlogI64 then
    nameArithlogI64 funct3 funct7 ++ " " ++ getRegName rd ++ ", " ++ getRegName rs1 ++ ", " ++ numberToHex imm12
  else if opcode = opcodeB then
    nameBranch funct3 ++ " " ++ getRegName rs1 ++ ", " ++ getRegName rs2 ++ ", " ++ numberToHex (getImm13 ir)
  else if opcode = opcodeJ then "JAL " ++ getRegName rd ++ ", " ++ numberToHex (getImm21 ir)
  else if opcode = opcodeJalr then
    if funct3 = func3Jalr then
      "JALR " ++ getRegName rd ++ ", " ++ numberToHex imm12 ++ "(" ++ getRegName rs1 ++ ")"
    else "UNDEF"
  else if opcode = opcodeLd then
    nameLoad funct3 ++ " " ++ getRegName rd ++ ", " ++ numberToHex imm12 ++ "(" ++ getRegName rs1 ++ ")"
  else if opcode = opcodeS then
    nameStore funct3 ++ " " ++ getRegName rs2 ++ ", " ++ numberToHex (getStypeImm12 ir) ++ "(" ++ getRegName rs1 ++ ")"
  else if opcode = opcodeLui then "LUI" ++ " " ++ getRegName rd ++ ", " ++ numberToHex (getImm20 ir) ++ " << 12"
  else if opcode = opcodeAuipc then "AUIPC" ++ " " ++ getRegName rd ++ ", " ++ numberToHex (getImm20 ir) ++ " << 12"
  else if opcode = opcodeSystem then
    if funct3 = func3System then nameSystem imm12 rd
    else nameCsr funct3 ++ " " ++ getRegName rd ++ ", " ++ numberToHex csr ++ ", " ++ getRegName rs1
  else if opcode = opcodeFence then
    if funct3 = func3Fencei then "FENCEI" else if funct3 = func3Fence then "FENCE" else "UNDEF"
  else if opcode = opcodeAmo then
    nameAmo funct3 funct5 ++ " " ++ getRegName rd ++ ", " ++ getRegName rs2 ++ ", (" ++ getRegName rs1 ++ ")"
  else "Undefined instruction"

def disassemble (ir : BitVec 32) (mxl : Nat) : String :=
  if getOpcode ir &&& 0b11 ≠ 0b11 then disassemble16 ir mxl else disassembleSwitch (getOpcode ir) ir

end RiscvEmulator
