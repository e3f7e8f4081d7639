/-
`RISCV_Emulator.cc`: reading an ELF file, for either class.

The file is a vector of bytes. A pointer into it is an offset, and a field
of a structure at a pointer is read where it lies: reading outside the
vector, through a null pointer, or at an offset that overflows `int` is
undefined. `Elf32_…` and `Elf64_…` differ in where their fields are and in
the width of their addresses, so each pair of functions is one definition
with a `Layout`. What is only printed is read and not kept.

The loop over a segment and the one over `.bss` count in 32 bits against
bounds that may be wider, so the loader takes fuel.
-/
import RiscvEmulator.Cpu
import RiscvEmulator.Lib.Exact

namespace RiscvEmulator

namespace Elf

open Run (rounds searchFrom countUp)

/-- How the loader can end without a result. -/
inductive Stop where
  | crash (c : Crash)
  | outOfFuel

def ofCrash {α : Type} : Except Crash α → Except Stop α
  | .ok a => .ok a
  | .error c => .error (.crash c)

/-! ## The file -/

/-- The number that bytes make, the lowest first. -/
def littleEndian : List (BitVec 8) → Nat
  | [] => 0
  | b :: bs => b.toNat + 256 * littleEndian bs

/-- The `n` bytes at an offset, as a number. -/
def word (program : List (BitVec 8)) (o n : Nat) : Nat := littleEndian ((program.drop o).take n)

def readWord (program : List (BitVec 8)) (o n : Nat) : Except Stop Nat :=
  if o + n ≤ program.length then .ok (word program o n) else .error (.crash .undefinedBehaviour)

/-- `program[i]`. -/
def readByte (program : List (BitVec 8)) (i : Nat) : Except Stop (BitVec 8) :=
  match program[i]? with
  | some b => .ok b
  | none => .error (.crash .undefinedBehaviour)

/-- A field of a structure: its offset and its size. -/
abbrev Field := Nat × Nat

/-- Where the structures of a class have their fields. -/
structure Layout where
  /-- The bits of an address. -/
  width : Nat
  eEntry : Field
  ePhoff : Field
  eShoff : Field
  ePhentsize : Field
  ePhnum : Field
  eShentsize : Field
  eShnum : Field
  eShstrndx : Field
  pType : Field
  pOffset : Field
  pVaddr : Field
  pFilesz : Field
  shName : Field
  shType : Field
  shAddr : Field
  shOffset : Field
  shSize : Field
  stName : Field
  stValue : Field
  /-- `sizeof(Elf32_Sym)` or `sizeof(Elf64_Sym)`. -/
  symSize : Nat

def elf32 : Layout where
  width := 32
  eEntry := (24, 4)
  ePhoff := (28, 4)
  eShoff := (32, 4)
  ePhentsize := (42, 2)
  ePhnum := (44, 2)
  eShentsize := (46, 2)
  eShnum := (48, 2)
  eShstrndx := (50, 2)
  pType := (0, 4)
  pOffset := (4, 4)
  pVaddr := (8, 4)
  pFilesz := (16, 4)
  shName := (0, 4)
  shType := (4, 4)
  shAddr := (12, 4)
  shOffset := (16, 4)
  shSize := (20, 4)
  stName := (0, 4)
  stValue := (4, 4)
  symSize := 16

def elf64 : Layout where
  width := 64
  eEntry := (24, 8)
  ePhoff := (32, 8)
  eShoff := (40, 8)
  ePhentsize := (54, 2)
  ePhnum := (56, 2)
  eShentsize := (58, 2)
  eShnum := (60, 2)
  eShstrndx := (62, 2)
  pType := (0, 4)
  pOffset := (8, 8)
  pVaddr := (16, 8)
  pFilesz := (32, 8)
  shName := (0, 4)
  shType := (4, 4)
  shAddr := (16, 8)
  shOffset := (24, 8)
  shSize := (32, 8)
  stName := (0, 4)
  stValue := (8, 8)
  symSize := 24

def readField (program : List (BitVec 8)) (base : Nat) (f : Field) : Except Stop Nat :=
  readWord program (base + f.1) f.2

/-! ## The header -/

/-- `EI_CLASS` and its values, and what else `IsRightElf` looks for. -/
def eiClass : Nat := 4
def elfclass32 : BitVec 8 := 1
def elfclass64 : BitVec 8 := 2
def etExec : Nat := 2
def emRiscv : Nat := 243

def isRightElf (program : List (BitVec 8)) : Except Stop Bool := do
  if (← readByte program 0) ≠ 0x7f then
    return false
  if (← readByte program 1) ≠ 0x45 then
    return false
  if (← readByte program 2) ≠ 0x4c then
    return false
  if (← readByte program 3) ≠ 0x46 then
    return false
  let elfClass ← readByte program eiClass
  if elfClass ≠ elfclass32 ∧ elfClass ≠ elfclass64 then
    return false
  -- `ELFDATA2LSB`, `EV_CURRENT`, `ELFOSABI_SYSV`
  if (← readByte program 5) ≠ 1 then
    return false
  if (← readByte program 6) ≠ 1 then
    return false
  if (← readByte program 7) ≠ 0 then
    return false
  -- `e_type` and `e_machine`
  if (← readWord program 16 2) ≠ etExec then
    return false
  if (← readWord program 18 2) ≠ emRiscv then
    return false
  return true

def is64BitElf (program : List (BitVec 8)) : Except Stop Bool := do
  return decide ((← readByte program eiClass) = elfclass64)

/-! ## Sections -/

section

variable (L : Layout) (program : List (BitVec 8))

/-- An entry of a table: `program.data() + offset + size * index`, where the
product is an `int`. -/
def entryAt (offset size index : Nat) : Except Stop Nat :=
  if size * index < 2 ^ 31 then .ok (offset + size * index) else .error (.crash .undefinedBehaviour)

/-- `GetElf32Shdr`, `GetElf64Shdr`. The indices are loop counters and
`e_shstrndx`, so none is negative. -/
def getShdr (index : Nat) : Except Stop (Option Nat) := do
  if index ≥ (← readField program 0 L.eShnum) then
    return none
  return some (← entryAt (← readField program 0 L.eShoff) (← readField program 0 L.eShentsize) index)

/-- `GetElf32SectionName`, `GetElf64SectionName`. -/
def getSectionName (shdr : Nat) : Except Stop Nat := do
  match ← getShdr L program (← readField program 0 L.eShstrndx) with
  | none => .error (.crash .undefinedBehaviour)
  | some nhdr => return (← readField program nhdr L.shOffset) + (← readField program shdr L.shName)

/-- `!strcmp(..)` of the text at an offset and a name without its NUL. -/
def strEqual (p : Nat) : (name : List (BitVec 8)) → Except Stop Bool
  | [] => do return decide ((← readByte program p) = 0)
  | c :: cs => do
    if (← readByte program p) = c then strEqual (p + 1) cs else return false

/-- A round of the search by name. -/
def shdrNamed (name : List (BitVec 8)) (i : Nat) : Except Stop (Option Nat) := do
  match ← getShdr L program i with
  | none => .error (.crash .undefinedBehaviour)
  | some shdr =>
    if (← strEqual program (← getSectionName L program shdr) name) then
      let _ ← readField program shdr L.shOffset
      return some shdr
    return none

/-- `SearchElf32Shdr`, `SearchElf64Shdr`, by name. -/
def searchShdrNamed (name : List (BitVec 8)) : Except Stop (Option Nat) := do
  searchFrom (shdrNamed L program name) (← readField program 0 L.eShnum) 0

/-- The text at an offset is printed, up to its NUL. -/
def printString (p : Nat) : Except Stop Unit :=
  if 0 ∈ program.drop p then .ok () else .error (.crash .undefinedBehaviour)

/-- A round of the search by type. -/
def shdrOfType (type : Nat) (i : Nat) : Except Stop (Option Nat) := do
  match ← getShdr L program i with
  | none => .error (.crash .undefinedBehaviour)
  | some shdr =>
    if (← readField program shdr L.shType) = type then
      printString program (← getSectionName L program shdr)
      let _ ← readField program shdr L.shOffset
      return some shdr
    return none

/-- The same by type. -/
def searchShdrOfType (type : Nat) : Except Stop (Option Nat) := do
  searchFrom (shdrOfType L program type) (← readField program 0 L.eShnum) 0

end

def getElf32Shdr := getShdr elf32
def getElf64Shdr := getShdr elf64
def getElf32SectionName := getSectionName elf32
def getElf64SectionName := getSectionName elf64
def searchElf32Shdr := searchShdrNamed elf32
def searchElf64Shdr := searchShdrNamed elf64
def searchElf32ShdrOfType := searchShdrOfType elf32
def searchElf64ShdrOfType := searchShdrOfType elf64

/-! ## Loading -/

def ptLoad : Nat := 1

/-- `".bss"`. -/
def bssName : List (BitVec 8) := [0x2e, 0x62, 0x73, 0x73]

section

variable (L : Layout) (program : List (BitVec 8)) (fuel : Nat)

/-- A byte of a segment. -/
def loadByte (offset vaddr i : Nat) (memory : MemoryWrapper) : Except Stop MemoryWrapper := do
  let data ← readByte program ((offset + i) % 2 ^ L.width)
  ofCrash (memory.writeByte (BitVec.ofNat 64 ((vaddr + i) % 2 ^ L.width)) data)

/-- A round of the loop over the program headers. -/
def loadHeader (i : Nat) (memory : MemoryWrapper) : Except Stop MemoryWrapper := do
  let phdr ← entryAt (← readField program 0 L.ePhoff) (← readField program 0 L.ePhentsize) i
  if (← readField program phdr L.pType) = ptLoad then
    let vaddr ← readField program phdr L.pVaddr
    let offset ← readField program phdr L.pOffset
    let filesz ← readField program phdr L.pFilesz
    countUp 32 .outOfFuel filesz (loadByte L program offset vaddr) fuel 0 memory
  else
    return memory

def clearByte (i : Nat) (memory : MemoryWrapper) : Except Stop MemoryWrapper :=
  ofCrash (memory.writeByte (BitVec.ofNat 64 i) 0)

def clearBss (memory : MemoryWrapper) : Except Stop MemoryWrapper := do
  match ← searchShdrNamed L program bssName with
  | none => return memory
  | some shdr =>
    let addr ← readField program shdr L.shAddr
    let size ← readField program shdr L.shSize
    countUp 32 .outOfFuel ((addr + size) % 2 ^ L.width) clearByte fuel (addr % 2 ^ 32) memory

/-- `Load32BitElfFile`, `Load64BitElfFile`. -/
def loadBitElfFile (memory : MemoryWrapper) : Except Stop MemoryWrapper := do
  let phnum ← readField program 0 L.ePhnum
  let memory ← rounds (loadHeader L program fuel) phnum memory
  clearBss L program fuel memory

end

def load32BitElfFile := loadBitElfFile elf32
def load64BitElfFile := loadBitElfFile elf64

/-- The result with `flag_64bit`. What `IsRightElf` answers is printed. -/
def loadElfFile (program : List (BitVec 8)) (fuel : Nat) (memory : MemoryWrapper) :
    Except Stop (Bool × MemoryWrapper) := do
  let _ ← isRightElf program
  let flag64bit ← is64BitElf program
  if flag64bit then
    return (flag64bit, ← load64BitElfFile program fuel memory)
  else
    return (flag64bit, ← load32BitElfFile program fuel memory)

/-! ## Symbols -/

def shtSymtab : Nat := 2

/-- `".strtab"`. -/
def strtabName : List (BitVec 8) := [0x2e, 0x73, 0x74, 0x72, 0x74, 0x61, 0x62]

/-- `"__global_pointer$"`. -/
def globalPointerName : List (BitVec 8) :=
  [0x5f, 0x5f, 0x67, 0x6c, 0x6f, 0x62, 0x61, 0x6c, 0x5f, 0x70, 0x6f, 0x69, 0x6e, 0x74, 0x65, 0x72, 0x24]

section

variable (L : Layout) (program : List (BitVec 8))

/-- A round of the search for a symbol, in a symbol table and a string table. -/
def symbolNamed (table strings : Nat) (name : List (BitVec 8)) (i : Nat) : Except Stop (Option Nat) := do
  let symbol := (← readField program table L.shOffset) + i * L.symSize
  if (← strEqual program ((← readField program strings L.shOffset) + (← readField program symbol L.stName)) name) then
    return some symbol
  return none

/-- `FindElf32Symbol`, `FindElf64Symbol`. The number of symbols is an `int`. -/
def findSymbol (name : List (BitVec 8)) : Except Stop (Option Nat) := do
  match ← searchShdrOfType L program shtSymtab with
  | none => return none
  | some table =>
    let size ← readField program table L.shSize
    match ← searchShdrNamed L program strtabName with
    | none => return none
    | some strings =>
      searchFrom (symbolNamed L program table strings name) (BitVec.ofNat 32 (size / L.symSize)).toInt.toNat 0

/-- `GetElf32GlobalPointer`, `GetElf64GlobalPointer`: both return a `uint32_t`. -/
def getClassGlobalPointer : Except Stop (BitVec 32) := do
  match ← findSymbol L program globalPointerName with
  | some symbol => return BitVec.ofNat 32 (← readField program symbol L.stValue)
  | none => return -1

/-- `GetElf32EntryPoint`, `GetElf64EntryPoint`. -/
def getClassEntryPoint : Except Stop (BitVec 32) := do
  return BitVec.ofNat 32 (← readField program 0 L.eEntry)

end

def findElf32Symbol := findSymbol elf32
def findElf64Symbol := findSymbol elf64
def getElf32GlobalPointer := getClassGlobalPointer elf32
def getElf64GlobalPointer := getClassGlobalPointer elf64
def getElf32EntryPoint := getClassEntryPoint elf32
def getElf64EntryPoint := getClassEntryPoint elf64

section

variable (program : List (BitVec 8)) (flag64bit : Bool)

def getGlobalPointer : Except Stop (BitVec 64) := do
  if flag64bit then
    return (← getElf32GlobalPointer program).setWidth 64
  else
    return (← getElf64GlobalPointer program).setWidth 64

def getEntryPoint : Except Stop (BitVec 64) := do
  if flag64bit then
    return (← getElf64EntryPoint program).setWidth 64
  else
    return (← getElf32EntryPoint program).setWidth 64

/-- Register GP. -/
def gp : BitVec 5 := 3

/-- What `run` does about the global pointer. -/
def runGlobalPointer (cpu : RiscvCpu) : Except Stop RiscvCpu := do
  let entryPoint := (← getEntryPoint program flag64bit).setWidth 32
  let globalPointer ← getGlobalPointer program flag64bit
  let globalPointer := if globalPointer = -1 then entryPoint.setWidth 64 else globalPointer
  return cpu.setReg gp globalPointer

end

end Elf

end RiscvEmulator
