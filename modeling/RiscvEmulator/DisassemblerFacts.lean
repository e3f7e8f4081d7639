/-
What a line of the disassembler says, and what the processor executes.

A line is read as an assembler would: its first word is looked up in a list
of mnemonics, and the register names after it are put in their places
(`readLine`). The result is compared with the decoded instruction and the
registers it works on (`executed`). `disassemble_iff` finds the words for
which they differ.
-/
import Mathlib.Data.List.Nodup
import Mathlib.Tactic.SplitIfs
import RiscvEmulator.AssemblerFacts
import RiscvEmulator.CompressedFacts
import RiscvEmulator.Disassembler
import RiscvEmulator.Lib.Text

namespace RiscvEmulator

/-! ## Reading a line -/

/-- What an instruction under the SYSTEM opcode does, as `SystemInstruction`
tells them apart. -/
inductive SystemOp where
  | ecall | ebreak | mret | sret | sfence | undefined
  deriving DecidableEq, Repr

/-- An instruction and the registers it works on; those it does not are zero. -/
structure Reading where
  instruction : Instruction
  system : Option SystemOp := none
  rd : BitVec 5 := 0
  rs1 : BitVec 5 := 0
  rs2 : BitVec 5 := 0
  compressed : Bool := false
  deriving DecidableEq, Repr

/-- Where a register comes from: a name on the line, or the mnemonic itself. -/
inductive Slot where
  | name (k : Nat)
  | fixed (r : BitVec 5)
  deriving DecidableEq, Repr

def Slot.get (names : List (BitVec 5)) : Slot → BitVec 5
  | name k => names.getD k 0
  | fixed r => r

/-- How many names follow a mnemonic, and what they are. -/
structure Form where
  names : Nat
  rd : Slot := .fixed 0
  rs1 : Slot := .fixed 0
  rs2 : Slot := .fixed 0
  deriving DecidableEq, Repr

structure Mnemonic where
  text : String
  instruction : Instruction
  form : Form
  system : Option SystemOp := none
  compressed : Bool := false
  deriving DecidableEq, Repr

/-- The mnemonic of an instruction with a register operand. -/
def Instruction.name : Instruction → String
  | error | system => ""
  | add => "ADD" | addw => "ADDW" | and => "AND" | sub => "SUB" | subw => "SUBW" | or => "OR" | xor => "XOR"
  | sll => "SLL" | sllw => "SLLW" | srl => "SRL" | srlw => "SRLW" | sra => "SRA" | sraw => "SRAW"
  | slt => "SLT" | sltu => "SLTU"
  | addi => "ADDI" | addiw => "ADDIW" | andi => "ANDI" | ori => "ORI" | xori => "XORI"
  | slli => "SLLI" | slliw => "SLLIW" | srli => "SRLI" | srliw => "SRLIW" | srai => "SRAI" | sraiw => "SRAIW"
  | slti => "SLTI" | sltiu => "SLTIU"
  | beq => "BEQ" | bge => "BGE" | bgeu => "BGEU" | blt => "BLT" | bltu => "BLTU" | bne => "BNE"
  | jal => "JAL" | jalr => "JALR"
  | lb => "LB" | lbu => "LBU" | lh => "LH" | lhu => "LHU" | lw => "LW" | lwu => "LWU" | ld => "LD"
  | sb => "SB" | sh => "SH" | sw => "SW" | sd => "SD"
  | lui => "LUI" | auipc => "AUIPC"
  | csrrc => "CSRRC" | csrrci => "CSRRCI" | csrrs => "CSRRS" | csrrsi => "CSRRSI" | csrrw => "CSRRW"
  | csrrwi => "CSRRWI"
  | fence => "FENCE" | fencei => "FENCEI"
  | mul => "MUL" | mulh => "MULH" | mulhsu => "MULHSU" | mulhu => "MULHU" | mulw => "MULW"
  | div => "DIV" | divu => "DIVU" | divuw => "DIVUW" | divw => "DIVW"
  | rem => "REM" | remu => "REMU" | remuw => "REMUW" | remw => "REMW"
  | amoaddd => "AMOADD.D" | amoaddw => "AMOADD.W" | amoandd => "AMOAND.D" | amoandw => "AMOAND.W"
  | amomaxd => "AMOMAX.D" | amomaxw => "AMOMAX.W" | amomaxud => "AMOMAXU.D" | amomaxuw => "AMOMAXU.W"
  | amomind => "AMOMIN.D" | amominw => "AMOMIN.W" | amominud => "AMOMINU.D" | amominuw => "AMOMINU.W"
  | amoord => "AMOOR.D" | amoorw => "AMOOR.W" | amoxord => "AMOXOR.D" | amoxorw => "AMOXOR.W"
  | amoswapd => "AMOSWAP.D" | amoswapw => "AMOSWAP.W"

/-- In what order its registers are named. -/
def Instruction.form : Instruction → Form
  | error | system | fence | fencei => ⟨0, .fixed 0, .fixed 0, .fixed 0⟩
  | add | addw | and | sub | subw | or | xor | sll | sllw | srl | srlw | sra | sraw | slt | sltu
  | mul | mulh | mulhsu | mulhu | mulw | div | divu | divuw | divw | rem | remu | remuw | remw =>
    ⟨3, .name 0, .name 1, .name 2⟩
  | addi | addiw | andi | ori | xori | slli | slliw | srli | srliw | srai | sraiw | slti | sltiu
  | jalr | lb | lbu | lh | lhu | lw | lwu | ld | csrrc | csrrs | csrrw => ⟨2, .name 0, .name 1, .fixed 0⟩
  | beq | bge | bgeu | blt | bltu | bne => ⟨2, .fixed 0, .name 0, .name 1⟩
  | sb | sh | sw | sd => ⟨2, .fixed 0, .name 1, .name 0⟩
  | jal | lui | auipc | csrrci | csrrsi | csrrwi => ⟨1, .name 0, .fixed 0, .fixed 0⟩
  | amoaddd | amoaddw | amoandd | amoandw | amomaxd | amomaxw | amomaxud | amomaxuw | amomind | amominw
  | amominud | amominuw | amoord | amoorw | amoxord | amoxorw | amoswapd | amoswapw =>
    ⟨3, .name 0, .name 2, .name 1⟩

def named : List Instruction :=
  [.add, .addw, .and, .sub, .subw, .or, .xor, .sll, .sllw, .srl, .srlw, .sra, .sraw, .slt, .sltu,
    .addi, .addiw, .andi, .ori, .xori, .slli, .slliw, .srli, .srliw, .srai, .sraiw, .slti, .sltiu,
    .beq, .bge, .bgeu, .blt, .bltu, .bne, .jal, .jalr, .lb, .lbu, .lh, .lhu, .lw, .lwu, .ld, .sb, .sh, .sw, .sd,
    .lui, .auipc, .csrrc, .csrrci, .csrrs, .csrrsi, .csrrw, .csrrwi, .fence, .fencei,
    .mul, .mulh, .mulhsu, .mulhu, .mulw, .div, .divu, .divuw, .divw, .rem, .remu, .remuw, .remw,
    .amoaddd, .amoaddw, .amoandd, .amoandw, .amomaxd, .amomaxw, .amomaxud, .amomaxuw, .amomind, .amominw,
    .amominud, .amominuw, .amoord, .amoorw, .amoxord, .amoxorw, .amoswapd, .amoswapw]

def baseMnemonic (i : Instruction) : Mnemonic := { text := i.name, instruction := i, form := i.form }

def systemMnemonic (text : String) (op : SystemOp) : Mnemonic :=
  { text, instruction := .system, form := ⟨0, .fixed 0, .fixed 0, .fixed 0⟩, system := some op }

def systemMnemonics : List Mnemonic :=
  [systemMnemonic "ECALL" .ecall, systemMnemonic "EBREAK" .ebreak, systemMnemonic "MRET" .mret,
    systemMnemonic "SRET" .sret, systemMnemonic "sfence.vma" .sfence, systemMnemonic "Undefined" .undefined]

def rvcMnemonic (text : String) (instruction : Instruction) (form : Form) : Mnemonic :=
  { text, instruction, form, compressed := true }

/-- The compressed instructions, as what they expand to: two operands that
are one register are named once, and the registers a mnemonic implies are
not named. -/
def rvcMnemonics : List Mnemonic :=
  [rvcMnemonic "C.ADDI4SPN" .addi ⟨2, .name 0, .name 1, .fixed 0⟩,
    rvcMnemonic "C.ADDI16SP" .addi ⟨2, .name 0, .name 1, .fixed 0⟩,
    rvcMnemonic "C.ADDI" .addi ⟨1, .name 0, .name 0, .fixed 0⟩,
    rvcMnemonic "C.ADDIW" .addiw ⟨1, .name 0, .name 0, .fixed 0⟩,
    rvcMnemonic "C.SLLI" .slli ⟨1, .name 0, .name 0, .fixed 0⟩,
    rvcMnemonic "C.SRLI" .srli ⟨1, .name 0, .name 0, .fixed 0⟩,
    rvcMnemonic "C.SRAI" .srai ⟨1, .name 0, .name 0, .fixed 0⟩,
    rvcMnemonic "C.ANDI" .andi ⟨1, .name 0, .name 0, .fixed 0⟩,
    rvcMnemonic "C.LI" .addi ⟨1, .name 0, .fixed zero, .fixed 0⟩,
    rvcMnemonic "C.LUI" .lui ⟨1, .name 0, .fixed 0, .fixed 0⟩,
    rvcMnemonic "C.LW" .lw ⟨2, .name 0, .name 1, .fixed 0⟩,
    rvcMnemonic "C.LD" .ld ⟨2, .name 0, .name 1, .fixed 0⟩,
    rvcMnemonic "C.LWSP" .lw ⟨2, .name 0, .name 1, .fixed 0⟩,
    rvcMnemonic "C.LDSP" .ld ⟨2, .name 0, .name 1, .fixed 0⟩,
    rvcMnemonic "C.SW" .sw ⟨2, .fixed 0, .name 1, .name 0⟩,
    rvcMnemonic "C.SD" .sd ⟨2, .fixed 0, .name 1, .name 0⟩,
    rvcMnemonic "C.SWSP" .sw ⟨2, .fixed 0, .name 1, .name 0⟩,
    rvcMnemonic "C.SDSP" .sd ⟨2, .fixed 0, .name 1, .name 0⟩,
    rvcMnemonic "C.J" .jal ⟨0, .fixed zero, .fixed 0, .fixed 0⟩,
    rvcMnemonic "C.JAL" .jal ⟨0, .fixed ra, .fixed 0, .fixed 0⟩,
    rvcMnemonic "C.JR" .jalr ⟨1, .fixed zero, .name 0, .fixed 0⟩,
    rvcMnemonic "C.JALR" .jalr ⟨1, .fixed ra, .name 0, .fixed 0⟩,
    rvcMnemonic "C.BEQZ" .beq ⟨1, .fixed 0, .name 0, .fixed zero⟩,
    rvcMnemonic "C.BNEZ" .bne ⟨1, .fixed 0, .name 0, .fixed zero⟩,
    rvcMnemonic "C.MV" .add ⟨2, .name 0, .fixed zero, .name 1⟩,
    rvcMnemonic "C.ADD" .add ⟨2, .name 0, .name 0, .name 1⟩,
    rvcMnemonic "C.AND" .and ⟨2, .name 0, .name 0, .name 1⟩,
    rvcMnemonic "C.OR" .or ⟨2, .name 0, .name 0, .name 1⟩,
    rvcMnemonic "C.XOR" .xor ⟨2, .name 0, .name 0, .name 1⟩,
    rvcMnemonic "C.SUB" .sub ⟨2, .name 0, .name 0, .name 1⟩,
    rvcMnemonic "C.ADDW" .addw ⟨2, .name 0, .name 0, .name 1⟩,
    rvcMnemonic "C.SUBW" .subw ⟨2, .name 0, .name 0, .name 1⟩,
    { systemMnemonic "C.EBREAK" .ebreak with compressed := true }]

def mnemonics : List Mnemonic := named.map baseMnemonic ++ systemMnemonics ++ rvcMnemonics

def lookup (word : List Char) : Option Mnemonic := mnemonics.find? fun e => e.text.toList == word

/-- The register a word names. -/
def regOf (word : List Char) : Option (BitVec 5) :=
  (kRegNames.findIdx? fun n => n.toList == word).map (BitVec.ofNat 5)

def Mnemonic.read (e : Mnemonic) (names : List (BitVec 5)) : Option Reading :=
  if names.length = e.form.names then
    some { instruction := e.instruction, system := e.system, rd := e.form.rd.get names, rs1 := e.form.rs1.get names,
           rs2 := e.form.rs2.get names, compressed := e.compressed }
  else none

def readLine (line : String) : Option Reading :=
  match Text.words line.toList with
  | [] => none
  | word :: rest => (lookup word).bind fun e => e.read (rest.filterMap regOf)

/-! ## What is executed -/

def systemOp (rd : BitVec 5) (imm : BitVec 32) : SystemOp :=
  if imm = 0 then .ecall
  else if imm = 1 then .ebreak
  else if imm = 0b001100000010 then .mret
  else if imm = 0b000100000010 then .sret
  else if imm.sshiftRight 5 = 0b0001001 ∧ rd = 0 then .sfence
  else .undefined

/-- The instruction the processor executes, and the registers it reads or
writes. The register field of an immediate CSR instruction is a number. -/
def Decoded.reading (d : Decoded) (compressed : Bool) : Reading :=
  let r : Reading := { instruction := d.instruction, compressed }
  match d.instruction with
  | .system => { r with system := some (systemOp d.rd d.imm) }
  | .fence | .fencei | .error => r
  | .csrrci | .csrrsi | .csrrwi => { r with rd := d.rd }
  | _ =>
    match operands d.instruction with
    | .r => { r with rd := d.rd, rs1 := d.rs1, rs2 := d.rs2 }
    | .i => { r with rd := d.rd, rs1 := d.rs1 }
    | .s => { r with rs1 := d.rs1, rs2 := d.rs2 }
    | .u => { r with rd := d.rd }

def executed (ir : BitVec 32) (mxl : Nat) : Reading := (decode ir mxl).reading (ir &&& 0b11 ≠ 0b11)

/-- The operations under the SYSTEM opcode are told apart as the processor does. -/
theorem RiscvCpu.systemInstruction_eq (c : RiscvCpu) (host : Host) (rd : BitVec 5) (imm : BitVec 32) :
    c.systemInstruction host rd imm =
      match systemOp rd imm with
      | .ecall => if c.ecallEmulation then c.systemCall host else c.ecall
      | .ebreak | .sfence => .ok c
      | .mret => c.mret
      | .sret => c.sret
      | .undefined => .ok { c with errorFlag := true } := by
  unfold systemInstruction systemOp
  split_ifs <;> rfl

/-! ## Words of a line -/

theorem texts_nodup : (mnemonics.map fun e => Text.number e.text.toList).Nodup := by decide +kernel

/-- Every mnemonic is found, since no two have one text. -/
theorem lookup_mnemonics {e : Mnemonic} (he : e ∈ mnemonics) : lookup e.text.toList = some e := by
  have hsome : (lookup e.text.toList).isSome := List.find?_isSome.mpr ⟨e, he, beq_self_eq_true _⟩
  obtain ⟨a, ha⟩ := Option.isSome_iff_exists.mp hsome
  have htext : a.text.toList = e.text.toList := by simpa using List.find?_some ha
  rw [ha, List.inj_on_of_nodup_map texts_nodup (List.mem_of_find?_eq_some ha) he (congrArg Text.number htext)]

theorem mem_named {i : Instruction} (h : i ≠ .error ∧ i ≠ .system) : i ∈ named := by
  cases i <;> first | decide | exact absurd rfl h.1 | exact absurd rfl h.2

/-- A base instruction is found under its name. -/
theorem lookup_name {i : Instruction} (h : i ≠ .error ∧ i ≠ .system) :
    lookup i.name.toList = some (baseMnemonic i) := by
  refine lookup_mnemonics (e := baseMnemonic i) ?_
  simp only [mnemonics, List.mem_append]
  exact .inl (.inl (List.mem_map_of_mem (mem_named h)))

theorem lookup_system {text : String} {op : SystemOp} (h : systemMnemonic text op ∈ systemMnemonics) :
    lookup text.toList = some (systemMnemonic text op) := by
  refine lookup_mnemonics (e := systemMnemonic text op) ?_
  simp only [mnemonics, List.mem_append]
  exact .inl (.inr h)

theorem lookup_rvc {e : Mnemonic} (h : e ∈ rvcMnemonics) : lookup e.text.toList = some e := by
  refine lookup_mnemonics ?_
  simp only [mnemonics, List.mem_append]
  exact .inr h

theorem regOf_getRegName : ∀ r : BitVec 5, regOf (getRegName r).toList = some r := by decide

theorem getRegName_token : ∀ r : BitVec 5, Text.isToken (getRegName r).toList = true := by decide

theorem digitChar_word : ∀ d < 16, Text.isWord (Nat.digitChar d) = true := by decide

theorem toDigits_word (n : Nat) : ∀ c ∈ Nat.toDigits 16 n, Text.isWord c = true := by
  induction n using Nat.strongRecOn with
  | ind n ih =>
    rw [Nat.toDigits_eq_if (by decide)]
    split
    · next h => simpa using digitChar_word n h
    · intro c hc
      rcases List.mem_append.mp hc with hc | hc
      · exact ih (n / 16) (by omega) c hc
      · rw [List.mem_singleton.mp hc]
        exact digitChar_word _ (Nat.mod_lt _ (by decide))

theorem toList_numberToHex (x : BitVec 32) : (numberToHex x).toList = '0' :: 'x' :: Nat.toDigits 16 x.toNat := by
  rw [numberToHex, String.toList_append, String.toList_ofList, String.toList_ofList]
  rfl

/-- A number is one word, and names no register. -/
theorem numberToHex_token (x : BitVec 32) : Text.isToken (numberToHex x).toList = true := by
  rw [toList_numberToHex, Text.isToken_iff]
  refine ⟨List.cons_ne_nil _ _, fun c hc => ?_⟩
  simp only [List.mem_cons] at hc
  rcases hc with rfl | rfl | hc
  · decide
  · decide
  · exact toDigits_word _ c hc

theorem regOf_numberToHex (x : BitVec 32) : regOf (numberToHex x).toList = none := by
  have hhead : ∀ n ∈ kRegNames, n.toList.head? ≠ some '0' := by decide
  rw [regOf, Option.map_eq_none_iff, List.findIdx?_eq_none_iff]
  intro n hn
  rw [beq_eq_false_iff_ne]
  intro h
  exact hhead n hn (by rw [h, toList_numberToHex]; rfl)

/-! ## Lines put together -/

/-- The words of a line: its mnemonic, and the registers named after it. -/
def Reads (line word : String) (names : List (BitVec 5)) : Prop :=
  ∃ rest, Text.words line.toList = word.toList :: rest ∧ rest.filterMap regOf = names

theorem reads_word {word : String} (h : Text.isToken word.toList = true) : Reads word word [] :=
  ⟨[], Text.words_token h, rfl⟩

/-- What comes after a separator adds its registers. -/
theorem Reads.append {line word : String} {names : List (BitVec 5)} (h : Reads line word names) (part : String)
    (hp : Text.startsApart part.toList = true ∨ Text.endsApart line.toList = true) :
    Reads (line ++ part) word (names ++ (Text.words part.toList).filterMap regOf) := by
  obtain ⟨rest, hw, hn⟩ := h
  refine ⟨rest ++ Text.words part.toList, ?_, by rw [List.filterMap_append, hn]⟩
  rw [String.toList_append]
  rcases hp with hp | hp
  · rw [Text.words_append_startsApart hp, hw]; rfl
  · rw [Text.words_append_endsApart hp, hw]; rfl

/-- A separator and a register, -/
theorem Reads.reg {line word : String} {names : List (BitVec 5)} (h : Reads line word names) {sep : String}
    (hs : Text.isSeparator sep.toList = true) (r : BitVec 5) :
    Reads (line ++ sep ++ getRegName r) word (names ++ [r]) := by
  obtain ⟨hsep, hstart, hend, hnone⟩ := Text.isSeparator_apart hs
  have hr := (h.append _ (.inl hstart)).append (getRegName r) (.inr (by
    rw [String.toList_append, Text.endsApart_append hsep]; exact hend))
  rw [Text.words_token (getRegName_token r), hnone] at hr
  simpa [regOf_getRegName] using hr

/-- a text and a number, -/
theorem Reads.number {line word : String} {names : List (BitVec 5)} (h : Reads line word names) (part : String)
    (hp : part.toList ≠ [] ∧ Text.startsApart part.toList = true ∧ Text.endsApart part.toList = true) (x : BitVec 32) :
    Reads (line ++ part ++ numberToHex x) word (names ++ (Text.words part.toList).filterMap regOf) := by
  obtain ⟨hpart, hstart, hend⟩ := hp
  have hr := (h.append _ (.inl hstart)).append (numberToHex x) (.inr (by
    rw [String.toList_append, Text.endsApart_append hpart]; exact hend))
  rw [Text.words_token (numberToHex_token x)] at hr
  simpa [regOf_numberToHex] using hr

/-- a separator and a number, -/
theorem Reads.hex {line word : String} {names : List (BitVec 5)} (h : Reads line word names) {sep : String}
    (hs : Text.isSeparator sep.toList = true) (x : BitVec 32) : Reads (line ++ sep ++ numberToHex x) word names := by
  obtain ⟨hsep, hstart, hend, hnone⟩ := Text.isSeparator_apart hs
  simpa [hnone] using h.number sep ⟨hsep, hstart, hend⟩ x

/-- and a text that names no register. -/
theorem Reads.close {line word : String} {names : List (BitVec 5)} (h : Reads line word names) {part : String}
    (hp : Text.startsApart part.toList = true) (hn : (Text.words part.toList).filterMap regOf = []) :
    Reads (line ++ part) word names := by
  have hr := h.append _ (.inl hp)
  rwa [hn, List.append_nil] at hr

/-- What is read from a line. -/
theorem readLine_reads {line word : String} {names : List (BitVec 5)} (h : Reads line word names) :
    readLine line = (lookup word.toList).bind fun e => e.read names := by
  obtain ⟨rest, hw, rfl⟩ := h
  rw [readLine, hw]

theorem readLine_of_reads {line word : String} {names : List (BitVec 5)} {e : Mnemonic} (h : Reads line word names)
    (he : lookup word.toList = some e) : readLine line = e.read names := by
  rw [readLine_reads h, he, Option.bind_some]

/-- The registers of an instruction in the order its form names them. -/
def Form.order (f : Form) (d : Decoded) : List (BitVec 5) :=
  (List.range f.names).map fun k => if f.rd = .name k then d.rd else if f.rs1 = .name k then d.rs1 else d.rs2

theorem read_order {d : Decoded} (h : d.instruction ≠ .error ∧ d.instruction ≠ .system) :
    (baseMnemonic d.instruction).read (d.instruction.form.order d) = some (d.reading false) := by
  obtain ⟨i, rd, rs1, rs2, imm⟩ := d
  cases i <;> first | rfl | exact absurd rfl h.1 | exact absurd rfl h.2

/-- A line that starts with the instruction's name and names its registers
in order says what is executed. -/
theorem readLine_base {line : String} {d : Decoded} (h : d.instruction ≠ .error ∧ d.instruction ≠ .system)
    (hr : Reads line d.instruction.name (d.instruction.form.order d)) : readLine line = some (d.reading false) := by
  rw [readLine_of_reads hr (lookup_name h), read_order h]

theorem reads_name {i : Instruction} (h : i ≠ .error ∧ i ≠ .system) : Reads i.name i.name [] := by
  refine reads_word ?_
  cases i <;> first | decide | exact absurd rfl h.1 | exact absurd rfl h.2

/-! ## 32-bit words -/

theorem nameArithlog_eq : ∀ {funct3 : BitVec 3} {funct7 : BitVec 7}, codeArithlog funct3 funct7 ≠ .error →
    nameArithlog funct3 funct7 = (codeArithlog funct3 funct7).name ∧
      (codeArithlog funct3 funct7).form = ⟨3, .name 0, .name 1, .name 2⟩ := by
  decide

theorem nameArithlog64_eq : ∀ {funct3 : BitVec 3} {funct7 : BitVec 7}, codeArithlog64 funct3 funct7 ≠ .error →
    nameArithlog64 funct3 funct7 = (codeArithlog64 funct3 funct7).name ∧
      (codeArithlog64 funct3 funct7).form = ⟨3, .name 0, .name 1, .name 2⟩ := by
  decide

theorem nameArithlogI_eq : ∀ {funct3 : BitVec 3} {funct7 : BitVec 7}, codeArithlogI funct3 funct7 ≠ .error →
    nameArithlogI funct3 funct7 = (codeArithlogI funct3 funct7).name ∧
      (codeArithlogI funct3 funct7).form = ⟨2, .name 0, .name 1, .fixed 0⟩ := by
  decide

theorem nameArithlogI64_eq : ∀ {funct3 : BitVec 3} {funct7 : BitVec 7}, codeArithlogI64 funct3 funct7 ≠ .error →
    nameArithlogI64 funct3 funct7 = (codeArithlogI64 funct3 funct7).name ∧
      (codeArithlogI64 funct3 funct7).form = ⟨2, .name 0, .name 1, .fixed 0⟩ := by
  decide

theorem nameBranch_eq : ∀ {funct3 : BitVec 3}, codeBranch funct3 ≠ .error →
    nameBranch funct3 = (codeBranch funct3).name ∧ (codeBranch funct3).form = ⟨2, .fixed 0, .name 0, .name 1⟩ := by
  decide

theorem nameLoad_eq : ∀ {funct3 : BitVec 3}, codeLoad funct3 ≠ .error →
    nameLoad funct3 = (codeLoad funct3).name ∧ (codeLoad funct3).form = ⟨2, .name 0, .name 1, .fixed 0⟩ := by
  decide

theorem nameStore_eq : ∀ {funct3 : BitVec 3}, codeStore funct3 ≠ .error →
    nameStore funct3 = (codeStore funct3).name ∧ (codeStore funct3).form = ⟨2, .fixed 0, .name 1, .name 0⟩ := by
  decide

theorem nameAmo_eq : ∀ {funct3 : BitVec 3} {funct5 : BitVec 5}, codeAmo funct3 funct5 ≠ .error →
    codeAmo funct3 funct5 ≠ .amominuw →
    nameAmo funct3 funct5 = (codeAmo funct3 funct5).name ∧
      (codeAmo funct3 funct5).form = ⟨3, .name 0, .name 2, .name 1⟩ := by
  decide

theorem nameCsr_eq : ∀ {funct3 : BitVec 3}, codeSystem funct3 ≠ .error → codeSystem funct3 ≠ .system →
    nameCsr funct3 = (codeSystem funct3).name ∧
      (codeSystem funct3).form = if funct3.getLsbD 2 then ⟨1, .name 0, .fixed 0, .fixed 0⟩
        else ⟨2, .name 0, .name 1, .fixed 0⟩ := by
  decide

theorem codeSystem_ne_system : ∀ {funct3 : BitVec 3}, funct3 ≠ func3System → codeSystem funct3 ≠ .system := by
  decide

theorem csr_register : ∀ {funct3 : BitVec 3}, codeSystem funct3 ≠ .error → funct3 ≠ func3System →
    ¬ (funct3 = func3Csrrci ∨ funct3 = func3Csrrsi ∨ funct3 = func3Csrrwi) → funct3.getLsbD 2 = false := by
  decide

theorem codeAmo_ne_amominuw : ∀ {funct3 : BitVec 3} {funct5 : BitVec 5},
    ¬ (funct5 = func5Amominu ∧ funct3 ≠ func3Amod) → codeAmo funct3 funct5 ≠ .amominuw := by
  decide

/-- The decoded instruction is never SYSTEM but under its own opcode. -/
theorem code_ne_system : (∀ funct3 funct7, codeArithlog funct3 funct7 ≠ .system) ∧
    (∀ funct3 funct7, codeArithlog64 funct3 funct7 ≠ .system) ∧
    (∀ funct3 funct7, codeArithlogI funct3 funct7 ≠ .system) ∧
    (∀ funct3 funct7, codeArithlogI64 funct3 funct7 ≠ .system) ∧ (∀ funct3, codeBranch funct3 ≠ .system) ∧
    (∀ funct3, codeLoad funct3 ≠ .system) ∧ (∀ funct3, codeStore funct3 ≠ .system) ∧
    ∀ funct3 funct5, codeAmo funct3 funct5 ≠ .system := by
  decide

theorem nameSystem_eq (imm12 : BitVec 32) (rd : BitVec 5) :
    readLine (nameSystem imm12 rd) = some { instruction := .system, system := some (systemOp rd imm12) } := by
  have hread : ∀ e ∈ systemMnemonics, e.read [] = some { instruction := .system, system := e.system } := by decide
  have hline : ∀ {line : String} {op : SystemOp}, systemMnemonic line op ∈ systemMnemonics →
      Text.isToken line.toList = true →
      readLine line = some { instruction := .system, system := some op } := by
    intro line op hmem hword
    rw [readLine_of_reads (reads_word hword) (lookup_system hmem), hread _ hmem]
    rfl
  unfold nameSystem systemOp
  split_ifs
  · exact hline (by decide) (by decide)
  · exact hline (by decide) (by decide)
  · exact hline (by decide) (by decide)
  · exact hline (by decide) (by decide)
  · exact hline (by decide) (by decide)
  · have hreads : Reads ("Undefined" ++ " System Instruction") "Undefined" [] :=
      (reads_word (by decide)).close (by decide) (by decide)
    have hmem : systemMnemonic "Undefined" .undefined ∈ systemMnemonics := by decide
    have h := readLine_of_reads hreads (lookup_system hmem)
    rw [hread _ hmem] at h
    exact h

section

variable {ir : BitVec 32} {mxl : Nat}

/-- The disassembler and the decoder tell 32-bit words apart alike. -/
theorem opcode_low_iff (ir : BitVec 32) : getOpcode ir &&& 0b11 ≠ 0b11 ↔ ir &&& 0b11 ≠ 0b11 := by
  have h7 : ∀ o : BitVec 7, o &&& 0b11 = 0b11 ↔ o.extractLsb' 0 2 = 0b11 := by decide
  have hlow : (getOpcode ir).extractLsb' 0 2 = ir.extractLsb' 0 2 := by
    rw [getOpcode_eq]
    apply BitVec.eq_of_getLsbD_eq
    intro i hi
    simp only [BitVec.getLsbD_extractLsb']
    grind
  rw [Ne, Ne, h7, hlow, low_eq_three]

theorem disassemble_of_short (h : ir &&& 0b11 ≠ 0b11) : disassemble ir mxl = disassemble16 ir mxl := by
  rw [disassemble, if_pos ((opcode_low_iff ir).mpr h)]

theorem disassemble_of_long (h : ir &&& 0b11 = 0b11) : disassemble ir mxl = disassembleSwitch (getOpcode ir) ir := by
  rw [disassemble, if_neg (fun hn => (opcode_low_iff ir).mp hn h)]

/-- The fields of a word of 32 bits, under an instruction. -/
def decoded32 (ir : BitVec 32) (i : Instruction) : Decoded :=
  { instruction := i, rd := getRd ir, rs1 := getRs1 ir, rs2 := getRs2 ir, imm := getImm ir }

theorem executed_of_long (h : ir &&& 0b11 = 0b11) :
    executed ir mxl = (decoded32 ir (code32 (getOpcode ir) (getFunct3 ir) (getFunct7 ir))).reading false := by
  rw [executed, decode, if_neg (not_not.mpr h), h, getCode32_eq]
  rfl

/-- A line whose name is that of the code. -/
theorem readLine_code {line : String} {i : Instruction} {form : Form} {names : List (BitVec 5)} (he : i ≠ .error)
    (hs : i ≠ .system) (hf : i.form = form) (hr : Reads line i.name names) (hn : names = form.order (decoded32 ir i)) :
    readLine line = some ((decoded32 ir i).reading false) := by
  subst hf hn
  exact readLine_base (d := decoded32 ir i) ⟨he, hs⟩ hr

/-! ### The lines of 32-bit words -/

section

variable {i : Instruction} {name : String} {r₁ r₂ r₃ : BitVec 5} {form : Form}

theorem readLine_three (he : i ≠ .error) (hs : i ≠ .system) (hname : name = i.name) (hf : i.form = form)
    (hn : [r₁, r₂, r₃] = form.order (decoded32 ir i)) :
    readLine (name ++ " " ++ getRegName r₁ ++ ", " ++ getRegName r₂ ++ ", " ++ getRegName r₃) =
      some ((decoded32 ir i).reading false) := by
  subst hname
  exact readLine_code he hs hf ((((reads_name ⟨he, hs⟩).reg (by decide) _).reg (by decide) _).reg (by decide) _) hn

theorem readLine_two_hex (he : i ≠ .error) (hs : i ≠ .system) (hname : name = i.name) (hf : i.form = form)
    (hn : [r₁, r₂] = form.order (decoded32 ir i)) (x : BitVec 32) :
    readLine (name ++ " " ++ getRegName r₁ ++ ", " ++ getRegName r₂ ++ ", " ++ numberToHex x) =
      some ((decoded32 ir i).reading false) := by
  subst hname
  have hr : Reads (i.name ++ " " ++ getRegName r₁ ++ ", " ++ getRegName r₂ ++ ", " ++ numberToHex x) i.name [r₁, r₂] :=
    (((reads_name ⟨he, hs⟩).reg (by decide) r₁).reg (by decide) r₂).hex (by decide) x
  exact readLine_code he hs hf hr hn

theorem readLine_offset (he : i ≠ .error) (hs : i ≠ .system) (hname : name = i.name) (hf : i.form = form)
    (hn : [r₁, r₂] = form.order (decoded32 ir i)) (x : BitVec 32) :
    readLine (name ++ " " ++ getRegName r₁ ++ ", " ++ numberToHex x ++ "(" ++ getRegName r₂ ++ ")") =
      some ((decoded32 ir i).reading false) := by
  subst hname
  have hr : Reads (i.name ++ " " ++ getRegName r₁ ++ ", " ++ numberToHex x ++ "(" ++ getRegName r₂) i.name [r₁, r₂] :=
    (((reads_name ⟨he, hs⟩).reg (by decide) r₁).hex (by decide) x).reg (by decide) r₂
  exact readLine_code he hs hf (hr.close (by decide) (by decide)) hn

theorem readLine_upper (he : i ≠ .error) (hs : i ≠ .system) (hname : name = i.name) (hf : i.form = form)
    (hn : [r₁] = form.order (decoded32 ir i)) (x : BitVec 32) :
    readLine (name ++ " " ++ getRegName r₁ ++ ", " ++ numberToHex x ++ " << 12") =
      some ((decoded32 ir i).reading false) := by
  subst hname
  have hr : Reads (i.name ++ " " ++ getRegName r₁ ++ ", " ++ numberToHex x) i.name [r₁] :=
    ((reads_name ⟨he, hs⟩).reg (by decide) r₁).hex (by decide) x
  exact readLine_code he hs hf (hr.close (by decide) (by decide)) hn

end

/-- Every opcode that is decoded is one of fourteen. -/
theorem opcode_cases {o : BitVec 7} {funct3 : BitVec 3} {funct7 : BitVec 7} (h : code32 o funct3 funct7 ≠ .error) :
    o = opcodeArithlog ∨ o = opcodeArithlog64 ∨ o = opcodeArithlogI ∨ o = opcodeArithlogI64 ∨ o = opcodeB ∨
      o = opcodeJ ∨ o = opcodeJalr ∨ o = opcodeLd ∨ o = opcodeS ∨ o = opcodeLui ∨ o = opcodeAuipc ∨
      o = opcodeSystem ∨ o = opcodeFence ∨ o = opcodeAmo := by
  by_contra hn
  simp only [not_or] at hn
  obtain ⟨h1, h2, h3, h4, h5, h6, h7, h8, h9, h10, h11, h12, h13, h14⟩ := hn
  refine h ?_
  rw [code32, if_neg h1, if_neg h2, if_neg h3, if_neg h4, if_neg h5, if_neg h6, if_neg h7, if_neg h8, if_neg h9,
    if_neg h10, if_neg h11, if_neg h12, if_neg h13, if_neg h14]

/-- The words of 32 bits whose line does not say what is executed: the
mnemonic of AMOMINU.W is spelt wrong, and the immediate of an immediate CSR
instruction is printed as a register. -/
def misnamed32 (ir : BitVec 32) : Bool :=
  (getOpcode ir = opcodeAmo ∧ (getFunct7 ir >>> 2).setWidth 5 = func5Amominu ∧ getFunct3 ir ≠ func3Amod) ∨
    (getOpcode ir = opcodeSystem ∧
      (getFunct3 ir = func3Csrrci ∨ getFunct3 ir = func3Csrrsi ∨ getFunct3 ir = func3Csrrwi))

theorem readLine_system (ho : getOpcode ir = opcodeSystem) (he : codeSystem (getFunct3 ir) ≠ .error)
    (hcsr : ¬ (getFunct3 ir = func3Csrrci ∨ getFunct3 ir = func3Csrrsi ∨ getFunct3 ir = func3Csrrwi)) :
    readLine (disassembleSwitch opcodeSystem ir) = some ((decoded32 ir (codeSystem (getFunct3 ir))).reading false) := by
  by_cases h3 : getFunct3 ir = func3System
  · have himm : getImm ir = getImm12 ir := getImm_plain (by rw [ho, h3]; decide)
    have hline : disassembleSwitch opcodeSystem ir = nameSystem (getImm12 ir) (getRd ir) := by
      change (if getFunct3 ir = func3System then _ else _) = _
      rw [if_pos h3]
    rw [hline, nameSystem_eq, h3, ← himm]
    rfl
  · have hs : codeSystem (getFunct3 ir) ≠ .system := codeSystem_ne_system h3
    obtain ⟨hname, hform⟩ := nameCsr_eq he hs
    rw [csr_register he h3 hcsr] at hform
    refine readLine_code he hs hform ?_ rfl
    change Reads (if getFunct3 ir = func3System then _ else _) _ _
    rw [if_neg h3]
    rw [hname]
    exact (((reads_name ⟨he, hs⟩).reg (by decide) _).hex (by decide) _).reg (by decide) _

theorem readLine_fence (he : code32 opcodeFence (getFunct3 ir) (getFunct7 ir) ≠ .error) :
    readLine (disassembleSwitch opcodeFence ir) =
      some ((decoded32 ir (code32 opcodeFence (getFunct3 ir) (getFunct7 ir))).reading false) := by
  have hi : code32 opcodeFence (getFunct3 ir) (getFunct7 ir) =
      if getFunct3 ir = func3Fencei then .fencei else if getFunct3 ir = func3Fence then .fence else .error := rfl
  have hline : disassembleSwitch opcodeFence ir =
      if getFunct3 ir = func3Fencei then "FENCEI" else if getFunct3 ir = func3Fence then "FENCE" else "UNDEF" := rfl
  have hfencei : Reads "FENCEI" Instruction.fencei.name [] := reads_name (i := .fencei) (by decide)
  have hfence : Reads "FENCE" Instruction.fence.name [] := reads_name (i := .fence) (by decide)
  rw [hi] at he ⊢
  rw [hline]
  by_cases h1 : getFunct3 ir = func3Fencei
  · rw [if_pos h1, if_pos h1]
    exact readLine_code (by decide) (by decide) rfl hfencei rfl
  · rw [if_neg h1] at he ⊢
    rw [if_neg h1]
    by_cases h0 : getFunct3 ir = func3Fence
    · rw [if_pos h0, if_pos h0]
      exact readLine_code (by decide) (by decide) rfl hfence rfl
    · exact absurd (if_neg h0) he

theorem readLine_amo (he : codeAmo (getFunct3 ir) ((getFunct7 ir >>> 2).setWidth 5) ≠ .error)
    (hamo : ¬ ((getFunct7 ir >>> 2).setWidth 5 = func5Amominu ∧ getFunct3 ir ≠ func3Amod)) :
    readLine (disassembleSwitch opcodeAmo ir) =
      some ((decoded32 ir (codeAmo (getFunct3 ir) ((getFunct7 ir >>> 2).setWidth 5))).reading false) := by
  have hs := code_ne_system.2.2.2.2.2.2.2 (getFunct3 ir) ((getFunct7 ir >>> 2).setWidth 5)
  obtain ⟨hname, hform⟩ := nameAmo_eq he (codeAmo_ne_amominuw hamo)
  refine readLine_code he hs hform ?_ rfl
  change Reads (nameAmo _ _ ++ " " ++ _ ++ ", " ++ _ ++ ", (" ++ _ ++ ")") _ _
  rw [hname]
  exact ((((reads_name ⟨he, hs⟩).reg (by decide) _).reg (by decide) _).reg (by decide) _).close (by decide) (by decide)

theorem disassembleSwitch_reads (he : code32 (getOpcode ir) (getFunct3 ir) (getFunct7 ir) ≠ .error)
    (hm : misnamed32 ir = false) : readLine (disassembleSwitch (getOpcode ir) ir) =
      some ((decoded32 ir (code32 (getOpcode ir) (getFunct3 ir) (getFunct7 ir))).reading false) := by
  obtain ⟨n1, n2, n3, n4, n5, n6, n7, n8⟩ := code_ne_system
  simp only [misnamed32, decide_eq_false_iff_not, not_or] at hm
  obtain ⟨hamo, hcsr⟩ := hm
  have hop := opcode_cases he
  generalize ho : getOpcode ir = o at he hop hamo hcsr ⊢
  rcases hop with rfl | rfl | rfl | rfl | rfl | rfl | rfl | rfl | rfl | rfl | rfl | rfl | rfl | rfl
  · have hi : code32 opcodeArithlog (getFunct3 ir) (getFunct7 ir) = codeArithlog (getFunct3 ir) (getFunct7 ir) := rfl
    rw [hi] at he ⊢
    obtain ⟨hname, hform⟩ := nameArithlog_eq he
    exact readLine_three he (n1 _ _) hname hform rfl
  · have hi : code32 opcodeArithlog64 (getFunct3 ir) (getFunct7 ir) =
      codeArithlog64 (getFunct3 ir) (getFunct7 ir) := rfl
    rw [hi] at he ⊢
    obtain ⟨hname, hform⟩ := nameArithlog64_eq he
    exact readLine_three he (n2 _ _) hname hform rfl
  · have hi : code32 opcodeArithlogI (getFunct3 ir) (getFunct7 ir) = codeArithlogI (getFunct3 ir) (getFunct7 ir) := rfl
    rw [hi] at he ⊢
    obtain ⟨hname, hform⟩ := nameArithlogI_eq he
    exact readLine_two_hex he (n3 _ _) hname hform rfl _
  · have hi : code32 opcodeArithlogI64 (getFunct3 ir) (getFunct7 ir) = codeArithlogI64 (getFunct3 ir) (getFunct7 ir) :=
      rfl
    rw [hi] at he ⊢
    obtain ⟨hname, hform⟩ := nameArithlogI64_eq he
    exact readLine_two_hex he (n4 _ _) hname hform rfl _
  · have hi : code32 opcodeB (getFunct3 ir) (getFunct7 ir) = codeBranch (getFunct3 ir) := rfl
    rw [hi] at he ⊢
    obtain ⟨hname, hform⟩ := nameBranch_eq he
    exact readLine_two_hex he (n5 _) hname hform rfl _
  · have hi : code32 opcodeJ (getFunct3 ir) (getFunct7 ir) = .jal := rfl
    rw [hi] at he ⊢
    refine readLine_code he (by decide) rfl ?_ rfl
    change Reads (Instruction.jal.name ++ " " ++ _ ++ ", " ++ _) _ _
    exact ((reads_name (by decide)).reg (by decide) _).hex (by decide) _
  · have hi : code32 opcodeJalr (getFunct3 ir) (getFunct7 ir) =
      if getFunct3 ir = func3Jalr then .jalr else .error := rfl
    have hline : disassembleSwitch opcodeJalr ir = if getFunct3 ir = func3Jalr then
        Instruction.jalr.name ++ " " ++ getRegName (getRd ir) ++ ", " ++ numberToHex (getImm12 ir) ++ "(" ++
          getRegName (getRs1 ir) ++ ")" else "UNDEF" := rfl
    rw [hi] at he ⊢
    have h3 : getFunct3 ir = func3Jalr := by
      by_contra hn
      exact he (if_neg hn)
    rw [if_pos h3] at he ⊢
    rw [hline, if_pos h3]
    exact readLine_offset he (by decide) rfl rfl rfl _
  · have hi : code32 opcodeLd (getFunct3 ir) (getFunct7 ir) = codeLoad (getFunct3 ir) := rfl
    rw [hi] at he ⊢
    obtain ⟨hname, hform⟩ := nameLoad_eq he
    exact readLine_offset he (n6 _) hname hform rfl _
  · have hi : code32 opcodeS (getFunct3 ir) (getFunct7 ir) = codeStore (getFunct3 ir) := rfl
    rw [hi] at he ⊢
    obtain ⟨hname, hform⟩ := nameStore_eq he
    exact readLine_offset he (n7 _) hname hform rfl _
  · have hi : code32 opcodeLui (getFunct3 ir) (getFunct7 ir) = .lui := rfl
    rw [hi] at he ⊢
    exact readLine_upper he (by decide) rfl rfl rfl _
  · have hi : code32 opcodeAuipc (getFunct3 ir) (getFunct7 ir) = .auipc := rfl
    rw [hi] at he ⊢
    exact readLine_upper he (by decide) rfl rfl rfl _
  · exact readLine_system ho he fun h => hcsr ⟨rfl, h⟩
  · exact readLine_fence he
  · exact readLine_amo he fun h => hamo ⟨rfl, h⟩

theorem codeSystem_immediate : ∀ {funct3 : BitVec 3},
    funct3 = func3Csrrci ∨ funct3 = func3Csrrsi ∨ funct3 = func3Csrrwi → codeSystem funct3 ≠ .error ∧
      codeSystem funct3 ≠ .system ∧ funct3 ≠ func3System ∧ (codeSystem funct3).form.names = 1 := by
  decide

theorem readLine_misnamed32 (hm : misnamed32 ir = true) : readLine (disassembleSwitch (getOpcode ir) ir) = none := by
  have hamoName : ∀ funct3 : BitVec 3, funct3 ≠ func3Amod → nameAmo funct3 func5Amominu = "AMOMAIN.W" := by decide
  simp only [misnamed32, decide_eq_true_eq] at hm
  rcases hm with ⟨ho, h5, h3⟩ | ⟨ho, h3⟩
  · rw [ho]
    have hreads : Reads (disassembleSwitch opcodeAmo ir) "AMOMAIN.W" [getRd ir, getRs2 ir, getRs1 ir] := by
      change Reads (nameAmo _ _ ++ " " ++ _ ++ ", " ++ _ ++ ", (" ++ _ ++ ")") _ _
      rw [h5, hamoName _ h3]
      exact ((((reads_word (by decide)).reg (by decide) _).reg (by decide) _).reg (by decide) _).close
        (by decide) (by decide)
    have hnone : lookup "AMOMAIN.W".toList = none := by decide
    rw [readLine_reads hreads, hnone]
    rfl
  · rw [ho]
    obtain ⟨he, hs, hsys, hnames⟩ := codeSystem_immediate h3
    have hreads : Reads (disassembleSwitch opcodeSystem ir) (codeSystem (getFunct3 ir)).name [getRd ir, getRs1 ir] := by
      change Reads (if getFunct3 ir = func3System then _ else _) _ _
      rw [if_neg hsys]
      rw [(nameCsr_eq he hs).1]
      exact (((reads_name ⟨he, hs⟩).reg (by decide) _).hex (by decide) _).reg (by decide) _
    rw [readLine_of_reads hreads (lookup_name ⟨he, hs⟩), Mnemonic.read, if_neg]
    rw [show (baseMnemonic (codeSystem (getFunct3 ir))).form.names = 1 from hnames]
    simp

/-! ## Compressed instructions -/

theorem setWidth_bitcrop_slice {w o : Nat} (hw : w ≤ 32) : bitcrop ir w o = (ir.extractLsb' o w).setWidth 32 := by
  apply BitVec.eq_of_getLsbD_eq
  intro i hi
  rw [getLsbD_bitcrop _ (by omega) (by decide), BitVec.getLsbD_setWidth, BitVec.getLsbD_extractLsb']
  grind

theorem fullReg_eq_iff (o : Nat) (r : BitVec 5) : fullReg ir o = r ↔ bitcrop ir 5 o = r.setWidth 32 := by
  have hcut : ∀ x : BitVec 5, (x.setWidth 32).setWidth 5 = x := fun x => by simp
  rw [fullReg, setWidth_bitcrop_slice (by decide), hcut]
  constructor
  · exact congrArg (BitVec.setWidth 32)
  · intro h
    rw [← hcut (ir.extractLsb' o 5), h, hcut]

theorem opcode16_eq (ir : BitVec 32) :
    ((((ir >>> 13) &&& 0b111) <<< 2) ||| (ir &&& 0b11)).setWidth 5 = opcode16 ir := by
  have h7 : (0b111 : BitVec 32) = Bits.ones 32 3 := by decide
  have h3 : (0b11 : BitVec 32) = Bits.ones 32 2 := by decide
  apply BitVec.eq_of_getLsbD_eq
  intro i hi
  rw [h7, h3]
  simp (disch := decide) only [opcode16, setWidth_bitcrop_slice, BitVec.getLsbD_setWidth, BitVec.getLsbD_or,
    BitVec.getLsbD_shiftLeft, Bits.getLsbD_and_ones, BitVec.getLsbD_ushiftRight, BitVec.getLsbD_extractLsb']
  grind

/-- A line that starts with a compressed mnemonic and names its registers in
order says what is executed. -/
theorem readLine_rvc {line : String} {d : Decoded} (e : Mnemonic) (he : e ∈ rvcMnemonics)
    (hr : Reads line e.text (e.form.order d)) (hread : e.read (e.form.order d) = some (d.reading true)) :
    readLine line = some (d.reading true) := by
  rw [readLine_of_reads hr (lookup_rvc he), hread]

/-! ### The lines of compressed instructions -/

theorem rvc_token : ∀ e ∈ rvcMnemonics, Text.isToken e.text.toList = true := by decide

section

variable {d : Decoded} {r₁ r₂ : BitVec 5}

theorem readLine_regs (e : Mnemonic) (he : e ∈ rvcMnemonics) (hn : e.form.order d = [r₁, r₂])
    (hread : e.read [r₁, r₂] = some (d.reading true)) :
    readLine (e.text ++ " " ++ getRegName r₁ ++ ", " ++ getRegName r₂) = some (d.reading true) := by
  rw [← hn] at hread
  refine readLine_rvc e he ?_ hread
  rw [hn]
  exact ((reads_word (rvc_token e he)).reg (by decide) r₁).reg (by decide) r₂

theorem reads_reg_hex (e : Mnemonic) (he : e ∈ rvcMnemonics) (r : BitVec 5) (x : BitVec 32) :
    Reads (e.text ++ " " ++ getRegName r ++ ", " ++ numberToHex x) e.text [r] :=
  ((reads_word (rvc_token e he)).reg (by decide) r).hex (by decide) x

theorem readLine_reg_hex (e : Mnemonic) (he : e ∈ rvcMnemonics) (hn : e.form.order d = [r₁])
    (hread : e.read [r₁] = some (d.reading true)) (x : BitVec 32) :
    readLine (e.text ++ " " ++ getRegName r₁ ++ ", " ++ numberToHex x) = some (d.reading true) := by
  rw [← hn] at hread
  refine readLine_rvc e he ?_ hread
  rw [hn]
  exact reads_reg_hex e he r₁ x

theorem readLine_memory (e : Mnemonic) (he : e ∈ rvcMnemonics) (hn : e.form.order d = [r₁, r₂])
    (hread : e.read [r₁, r₂] = some (d.reading true)) (x : BitVec 32) :
    readLine (e.text ++ " " ++ getRegName r₁ ++ ", " ++ numberToHex x ++ "(" ++ getRegName r₂ ++ ")") =
      some (d.reading true) := by
  rw [← hn] at hread
  refine readLine_rvc e he ?_ hread
  rw [hn]
  exact ((reads_reg_hex e he r₁ x).reg (by decide) r₂).close (by decide) (by decide)

theorem readLine_stack (e : Mnemonic) (he : e ∈ rvcMnemonics) (hn : e.form.order d = [r₁, x2])
    (hread : e.read [r₁, x2] = some (d.reading true)) (x : BitVec 32) :
    readLine (e.text ++ " " ++ getRegName r₁ ++ ", " ++ numberToHex x ++ "(SP)") = some (d.reading true) := by
  rw [← hn] at hread
  refine readLine_rvc e he ?_ hread
  rw [hn]
  exact (reads_reg_hex e he r₁ x).append "(SP)" (.inl (by decide))

end

theorem disassembleJump16_reads (he : (code16Jump ir).instruction ≠ .error) :
    readLine (disassembleJump16 ir (code16Jump ir)) = some ((code16Jump ir).reading true) := by
  unfold code16Jump at he ⊢
  by_cases h12 : bitcrop ir 1 12 = 1 <;> by_cases h2 : bitcrop ir 5 2 = 0
  · by_cases h7 : bitcrop ir 5 7 = 0
    · rw [disassembleJump16, if_pos h12, if_pos ⟨h2, h7⟩, if_pos h12, if_pos ⟨h2, h7⟩]
      exact readLine_rvc { systemMnemonic "C.EBREAK" .ebreak with compressed := true } (by decide)
        (reads_word (by decide)) rfl
    · have hn : ¬ (bitcrop ir 5 2 = 0 ∧ bitcrop ir 5 7 = 0) := fun h => h7 h.2
      rw [disassembleJump16, if_pos h12, if_neg hn, if_pos h2, if_pos h12, if_neg hn, if_pos h2]
      refine readLine_rvc (rvcMnemonic "C.JALR" .jalr ⟨1, .fixed ra, .name 0, .fixed 0⟩) (by decide) ?_ rfl
      change Reads ("C.JALR" ++ " " ++ _) _ _
      exact (reads_word (by decide)).reg (by decide) _
  · have hn : ¬ (bitcrop ir 5 2 = 0 ∧ bitcrop ir 5 7 = 0) := fun h => h2 h.1
    rw [if_pos h12, if_neg hn, if_neg h2] at he ⊢
    have h7 : bitcrop ir 5 7 ≠ 0 := by
      intro h
      rw [if_pos h] at he
      exact he rfl
    rw [disassembleJump16, if_pos h12, if_neg hn, if_neg h2, if_pos h7, if_neg h7]
    exact readLine_regs (rvcMnemonic "C.ADD" .add ⟨2, .name 0, .name 0, .name 1⟩) (by decide) rfl rfl
  · rw [disassembleJump16, if_neg h12, if_pos h2, if_neg h12, if_pos h2]
    refine readLine_rvc (rvcMnemonic "C.JR" .jalr ⟨1, .fixed zero, .name 0, .fixed 0⟩) (by decide) ?_ rfl
    change Reads ("C.JR" ++ " " ++ _) _ _
    exact (reads_word (by decide)).reg (by decide) _
  · rw [disassembleJump16, if_neg h12, if_neg h2, if_neg h12, if_neg h2]
    exact readLine_regs (rvcMnemonic "C.MV" .add ⟨2, .name 0, .fixed zero, .name 1⟩) (by decide) rfl rfl

/-- The two bits the disassembler takes together, and the decoder one by one. -/
theorem bitcrop_pair (ir : BitVec 32) :
    (bitcrop ir 2 10 = 0b01 ↔ bitcrop ir 1 11 = 0 ∧ bitcrop ir 1 10 = 1) ∧
      (bitcrop ir 2 10 = 0b00 ↔ bitcrop ir 1 11 = 0 ∧ ¬ bitcrop ir 1 10 = 1) ∧
      (bitcrop ir 2 10 = 0b10 ↔ ¬ bitcrop ir 1 11 = 0 ∧ bitcrop ir 1 10 = 0) := by
  have h11 : ir.extractLsb' 11 1 = (ir.extractLsb' 10 2).extractLsb' 1 1 :=
    (slice_slice ir (show 1 + 1 ≤ 2 by decide)).symm
  have h10 : ir.extractLsb' 10 1 = (ir.extractLsb' 10 2).extractLsb' 0 1 :=
    (slice_slice ir (show 0 + 1 ≤ 2 by decide)).symm
  have h : ∀ x : BitVec 2,
      (x.setWidth 32 = 0b01#32 ↔ (x.extractLsb' 1 1).setWidth 32 = 0#32 ∧ (x.extractLsb' 0 1).setWidth 32 = 1#32) ∧
      (x.setWidth 32 = 0b00#32 ↔ (x.extractLsb' 1 1).setWidth 32 = 0#32 ∧ ¬ (x.extractLsb' 0 1).setWidth 32 = 1#32) ∧
      (x.setWidth 32 = 0b10#32 ↔ ¬ (x.extractLsb' 1 1).setWidth 32 = 0#32 ∧
        (x.extractLsb' 0 1).setWidth 32 = 0#32) := by
    decide
  simp (disch := decide) only [setWidth_bitcrop_slice, h11, h10]
  exact h _

theorem disassembleArith16_reads (he : (code16Arith ir).instruction ≠ .error) :
    readLine (disassembleArith16 ir (code16Arith ir)) = some ((code16Arith ir).reading true) := by
  obtain ⟨hsrai, hsrli, handi⟩ := bitcrop_pair ir
  simp only [code16Arith] at he ⊢
  split_ifs at he ⊢ with h1 h2 h3 h4 h5 h6 h11 h10 h10
  · rw [disassembleArith16, if_pos h1]
    exact readLine_regs (rvcMnemonic "C.AND" .and ⟨2, .name 0, .name 0, .name 1⟩) (by decide) rfl rfl
  · rw [disassembleArith16, if_neg h1, if_pos h2]
    exact readLine_regs (rvcMnemonic "C.XOR" .xor ⟨2, .name 0, .name 0, .name 1⟩) (by decide) rfl rfl
  · rw [disassembleArith16, if_neg h1, if_neg h2, if_pos h3]
    exact readLine_regs (rvcMnemonic "C.SUB" .sub ⟨2, .name 0, .name 0, .name 1⟩) (by decide) rfl rfl
  · rw [disassembleArith16, if_neg h1, if_neg h2, if_neg h3, if_pos h4]
    exact readLine_regs (rvcMnemonic "C.OR" .or ⟨2, .name 0, .name 0, .name 1⟩) (by decide) rfl rfl
  · rw [disassembleArith16, if_neg h1, if_neg h2, if_neg h3, if_neg h4, if_pos h5]
    exact readLine_regs (rvcMnemonic "C.ADDW" .addw ⟨2, .name 0, .name 0, .name 1⟩) (by decide) rfl rfl
  · rw [disassembleArith16, if_neg h1, if_neg h2, if_neg h3, if_neg h4, if_neg h5, if_pos h6]
    exact readLine_regs (rvcMnemonic "C.SUBW" .subw ⟨2, .name 0, .name 0, .name 1⟩) (by decide) rfl rfl
  · rw [disassembleArith16, if_neg h1, if_neg h2, if_neg h3, if_neg h4, if_neg h5, if_neg h6,
      if_pos (hsrai.mpr ⟨h11, h10⟩)]
    exact readLine_reg_hex (rvcMnemonic "C.SRAI" .srai ⟨1, .name 0, .name 0, .fixed 0⟩) (by decide) rfl rfl _
  · rw [disassembleArith16, if_neg h1, if_neg h2, if_neg h3, if_neg h4, if_neg h5, if_neg h6,
      if_neg (fun h => h10 (hsrai.mp h).2), if_pos (hsrli.mpr ⟨h11, h10⟩)]
    exact readLine_reg_hex (rvcMnemonic "C.SRLI" .srli ⟨1, .name 0, .name 0, .fixed 0⟩) (by decide) rfl rfl _
  · rw [disassembleArith16, if_neg h1, if_neg h2, if_neg h3, if_neg h4, if_neg h5, if_neg h6,
      if_neg (fun h => h11 (hsrai.mp h).1), if_neg (fun h => h11 (hsrli.mp h).1), if_pos (handi.mpr ⟨h11, h10⟩)]
    exact readLine_reg_hex (rvcMnemonic "C.ANDI" .andi ⟨1, .name 0, .name 0, .fixed 0⟩) (by decide) rfl rfl _
  · exact absurd rfl he

theorem readLine_lui (he : (code16Lui ir).instruction ≠ .error) :
    readLine (if bitcrop ir 5 7 = 0b00010 then "C.ADDI16SP SP, SP, " ++ numberToHex (code16Lui ir).imm
      else "C.LUI " ++ getRegName (code16Lui ir).rd ++ ", " ++ numberToHex (code16Lui ir).imm) =
      some ((code16Lui ir).reading true) := by
  have hsp : fullReg ir 7 = x2 ↔ bitcrop ir 5 7 = 0b00010 := fullReg_eq_iff 7 x2
  unfold code16Lui at he ⊢
  by_cases h2 : fullReg ir 7 = x2
  · rw [if_neg (not_not.mpr h2)] at he ⊢
    rw [if_pos (hsp.mp h2)]
    have himm := fun h => he (if_pos h)
    simp only [if_neg himm, h2]
    refine readLine_rvc (rvcMnemonic "C.ADDI16SP" .addi ⟨2, .name 0, .name 1, .fixed 0⟩) (by decide) ?_ rfl
    change Reads ("C.ADDI16SP" ++ " SP, SP, " ++ _) _ _
    exact (reads_word (by decide)).number " SP, SP, " (by decide) _
  · rw [if_pos h2] at he ⊢
    rw [if_neg (fun h => h2 (hsp.mpr h))]
    have himm := fun h => he (if_pos h)
    simp only [if_neg himm]
    change readLine ("C.LUI" ++ " " ++ getRegName (fullReg ir 7) ++ ", " ++ numberToHex _) = _
    refine readLine_reg_hex (rvcMnemonic "C.LUI" .lui ⟨1, .name 0, .fixed 0, .fixed 0⟩) (by decide) ?_ ?_ _ <;> rfl

/-! ### By quadrant -/

/-- The opcodes with the low bits `q`. -/
theorem opcode_of_quadrant : ∀ o : BitVec 5, ∀ q : BitVec 2, o.extractLsb' 0 2 = q →
    o = 0b000#3 ++ q ∨ o = 0b001#3 ++ q ∨ o = 0b010#3 ++ q ∨ o = 0b011#3 ++ q ∨ o = 0b100#3 ++ q ∨ o = 0b101#3 ++ q ∨
      o = 0b110#3 ++ q ∨ o = 0b111#3 ++ q := by decide

/-- A line with the immediate alone. -/
theorem readLine_hex {d : Decoded} (e : Mnemonic) (he : e ∈ rvcMnemonics) (hn : e.form.order d = [])
    (hread : e.read [] = some (d.reading true)) (x : BitVec 32) :
    readLine (e.text ++ " " ++ numberToHex x) = some (d.reading true) := by
  rw [← hn] at hread
  refine readLine_rvc e he ?_ hread
  rw [hn]
  exact (reads_word (rvc_token e he)).hex (by decide) x

theorem quadrant0_reads (hq : (opcode16 ir).extractLsb' 0 2 = 0b00) (he : (getCode16 ir mxl).instruction ≠ .error)
    (hsw : opcode16 ir ≠ 0b11000) : readLine (disassemble16 ir mxl) = some ((getCode16 ir mxl).reading true) := by
  obtain ⟨d, hd⟩ : ∃ d, d = getCode16 ir mxl := ⟨_, rfl⟩
  rw [disassemble16, ← hd]
  rw [← hd] at he
  rcases opcode_of_quadrant _ _ hq with hop | hop | hop | hop | hop | hop | hop | hop <;>
    simp only [getCode16, opcode16_eq, hop] at hd <;> rw [hop]
  · -- c.addi4spn
    have h0 : ¬ bitcrop ir 8 5 = 0 := by
      intro h0
      rw [hd, if_pos h0] at he
      exact he rfl
    rw [if_neg h0] at hd
    subst hd
    refine readLine_rvc (rvcMnemonic "C.ADDI4SPN" .addi ⟨2, .name 0, .name 1, .fixed 0⟩) (by decide) ?_ rfl
    change Reads ("C.ADDI4SPN" ++ " " ++ _ ++ ", SP, " ++ _) _ _
    exact ((reads_word (by decide)).reg (by decide) _).number ", SP, " (by decide) _
  · exact absurd (congrArg Decoded.instruction hd) he
  · subst hd
    exact readLine_memory (rvcMnemonic "C.LW" .lw ⟨2, .name 0, .name 1, .fixed 0⟩) (by decide) rfl rfl _
  · subst hd
    exact readLine_memory (rvcMnemonic "C.LD" .ld ⟨2, .name 0, .name 1, .fixed 0⟩) (by decide) rfl rfl _
  · exact absurd (congrArg Decoded.instruction hd) he
  · exact absurd (congrArg Decoded.instruction hd) he
  · exact absurd hop hsw
  · subst hd
    exact readLine_memory (rvcMnemonic "C.SD" .sd ⟨2, .fixed 0, .name 1, .name 0⟩) (by decide) rfl rfl _

theorem quadrant1_reads (hq : (opcode16 ir).extractLsb' 0 2 = 0b01) (he : (getCode16 ir mxl).instruction ≠ .error) :
    readLine (disassemble16 ir mxl) = some ((getCode16 ir mxl).reading true) := by
  obtain ⟨d, hd⟩ : ∃ d, d = getCode16 ir mxl := ⟨_, rfl⟩
  rw [disassemble16, ← hd]
  rw [← hd] at he
  rcases opcode_of_quadrant _ _ hq with hop | hop | hop | hop | hop | hop | hop | hop <;>
    simp only [getCode16, opcode16_eq, hop] at hd <;> rw [hop]
  · subst hd
    exact readLine_reg_hex (rvcMnemonic "C.ADDI" .addi ⟨1, .name 0, .name 0, .fixed 0⟩) (by decide) rfl rfl _
  · by_cases h1 : mxl = 1
    · rw [if_pos h1] at hd
      subst hd
      change readLine (if mxl = 1 then _ else _) = _
      rw [if_pos h1]
      exact readLine_hex (rvcMnemonic "C.JAL" .jal ⟨0, .fixed ra, .fixed 0, .fixed 0⟩) (by decide) rfl rfl _
    · rw [if_neg h1] at hd
      subst hd
      change readLine (if mxl = 1 then _ else _) = _
      rw [if_neg h1]
      exact readLine_reg_hex (rvcMnemonic "C.ADDIW" .addiw ⟨1, .name 0, .name 0, .fixed 0⟩) (by decide) rfl rfl _
  · subst hd
    exact readLine_reg_hex (rvcMnemonic "C.LI" .addi ⟨1, .name 0, .fixed zero, .fixed 0⟩) (by decide) rfl rfl _
  · subst hd
    exact readLine_lui he
  · subst hd
    exact disassembleArith16_reads he
  · subst hd
    exact readLine_hex (rvcMnemonic "C.J" .jal ⟨0, .fixed zero, .fixed 0, .fixed 0⟩) (by decide) rfl rfl _
  · subst hd
    exact readLine_reg_hex (rvcMnemonic "C.BEQZ" .beq ⟨1, .fixed 0, .name 0, .fixed zero⟩) (by decide) rfl rfl _
  · subst hd
    exact readLine_reg_hex (rvcMnemonic "C.BNEZ" .bne ⟨1, .fixed 0, .name 0, .fixed zero⟩) (by decide) rfl rfl _

theorem quadrant2_reads (hq : (opcode16 ir).extractLsb' 0 2 = 0b10) (he : (getCode16 ir mxl).instruction ≠ .error) :
    readLine (disassemble16 ir mxl) = some ((getCode16 ir mxl).reading true) := by
  obtain ⟨d, hd⟩ : ∃ d, d = getCode16 ir mxl := ⟨_, rfl⟩
  rw [disassemble16, ← hd]
  rw [← hd] at he
  rcases opcode_of_quadrant _ _ hq with hop | hop | hop | hop | hop | hop | hop | hop <;>
    simp only [getCode16, opcode16_eq, hop] at hd <;> rw [hop]
  · subst hd
    exact readLine_reg_hex (rvcMnemonic "C.SLLI" .slli ⟨1, .name 0, .name 0, .fixed 0⟩) (by decide) rfl rfl _
  · exact absurd (congrArg Decoded.instruction hd) he
  · subst hd
    exact readLine_stack (rvcMnemonic "C.LWSP" .lw ⟨2, .name 0, .name 1, .fixed 0⟩) (by decide) rfl rfl _
  · subst hd
    exact readLine_stack (rvcMnemonic "C.LDSP" .ld ⟨2, .name 0, .name 1, .fixed 0⟩) (by decide) rfl rfl _
  · subst hd
    exact disassembleJump16_reads he
  · exact absurd (congrArg Decoded.instruction hd) he
  · subst hd
    exact readLine_stack (rvcMnemonic "C.SWSP" .sw ⟨2, .fixed 0, .name 1, .name 0⟩) (by decide) rfl rfl _
  · subst hd
    exact readLine_stack (rvcMnemonic "C.SDSP" .sd ⟨2, .fixed 0, .name 1, .name 0⟩) (by decide) rfl rfl _

/-- The last quadrant is of the 32-bit instructions. -/
theorem quadrant3_error (hq : (opcode16 ir).extractLsb' 0 2 = 0b11) : (getCode16 ir mxl).instruction = .error := by
  rcases opcode_of_quadrant _ _ hq with hop | hop | hop | hop | hop | hop | hop | hop <;>
    simp only [getCode16, opcode16_eq, hop] <;> rfl

/-- A compressed instruction but C.SW, whose line is written over. -/
theorem disassemble16_reads (he : (getCode16 ir mxl).instruction ≠ .error) (hsw : opcode16 ir ≠ 0b11000) :
    readLine (disassemble16 ir mxl) = some ((getCode16 ir mxl).reading true) := by
  have hall : ∀ q : BitVec 2, q = 0b00 ∨ q = 0b01 ∨ q = 0b10 ∨ q = 0b11 := by decide
  rcases hall ((opcode16 ir).extractLsb' 0 2) with hq | hq | hq | hq
  · exact quadrant0_reads hq he hsw
  · exact quadrant1_reads hq he
  · exact quadrant2_reads hq he
  · exact absurd (quadrant3_error hq) he

theorem reading_instruction (d : Decoded) (compressed : Bool) : (d.reading compressed).instruction = d.instruction := by
  obtain ⟨i, rd, rs1, rs2, imm⟩ := d
  cases i <;> rfl

/-- The line of C.SW says C.BEQZ. -/
theorem disassemble16_sw (hsw : opcode16 ir = 0b11000) :
    readLine (disassemble16 ir mxl) ≠ some ((getCode16 ir mxl).reading true) := by
  have hd : (getCode16 ir mxl).instruction = .sw := by
    simp only [getCode16, opcode16_eq, hsw]
    rfl
  have hline : ∃ r x, disassemble16 ir mxl = "C.BEQZ" ++ " " ++ getRegName r ++ ", " ++ numberToHex x := by
    unfold disassemble16
    obtain ⟨d, hd⟩ : ∃ d, d = getCode16 ir mxl := ⟨_, rfl⟩
    rw [← hd, hsw]
    exact ⟨d.rs1, signExtend d.imm 9, rfl⟩
  obtain ⟨r, x, hline⟩ := hline
  intro h
  have he : rvcMnemonic "C.BEQZ" .beq ⟨1, .fixed 0, .name 0, .fixed zero⟩ ∈ rvcMnemonics := by decide
  have hreads : Reads ("C.BEQZ" ++ " " ++ getRegName r ++ ", " ++ numberToHex x) "C.BEQZ" [r] := reads_reg_hex _ he r x
  have hlookup : lookup "C.BEQZ".toList = some _ := lookup_rvc he
  rw [hline, readLine_of_reads hreads hlookup] at h
  have hi := congrArg Reading.instruction (Option.some.inj h)
  rw [reading_instruction, hd] at hi
  cases hi

/-! ## Where the two agree -/

/-- The words whose line does not say what is executed: the case of C.SW has
no `break`, and those of `misnamed32`. -/
def misnamed (ir : BitVec 32) : Bool := if ir &&& 0b11 ≠ 0b11 then opcode16 ir = 0b11000 else misnamed32 ir

theorem disassemble_iff (ir : BitVec 32) (mxl : Nat) (h : (decode ir mxl).instruction ≠ .error) :
    readLine (disassemble ir mxl) = some (executed ir mxl) ↔ misnamed ir = false := by
  by_cases hlow : ir &&& 0b11 = 0b11
  · have hd : (decode ir mxl).instruction = code32 (getOpcode ir) (getFunct3 ir) (getFunct7 ir) := by
      rw [decode, if_neg (not_not.mpr hlow)]
      rfl
    rw [disassemble_of_long hlow, executed_of_long hlow, misnamed, if_neg (not_not.mpr hlow)]
    constructor
    · intro hr
      by_contra hm
      rw [readLine_misnamed32 (Bool.eq_true_of_not_eq_false hm)] at hr
      cases hr
    · exact disassembleSwitch_reads (hd ▸ h)
  · have hd : decode ir mxl = getCode16 ir mxl := if_pos hlow
    have hx : executed ir mxl = (getCode16 ir mxl).reading true := by
      rw [executed, hd, decide_eq_true hlow]
    rw [disassemble_of_short hlow, hx, misnamed, if_pos hlow, decide_eq_false_iff_not]
    constructor
    · exact fun hr hsw => disassemble16_sw hsw hr
    · exact disassemble16_reads (hd ▸ h)

theorem disassemble_iff_add : readLine (disassemble 0x00C58533 2) = some (executed 0x00C58533 2) ↔
    misnamed 0x00C58533 = false :=
  disassemble_iff _ _ (by decide)

/-- A store of a word, taken apart as a branch. -/
theorem sw_as_beqz : (decode 0xC000 1).instruction = .sw ∧ disassemble 0xC000 1 = "C.BEQZ FP, 0x0" ∧
    readLine (disassemble 0xC000 1) ≠ some (executed 0xC000 1) := by
  decide

end

end RiscvEmulator
