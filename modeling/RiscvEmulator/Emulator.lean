/-
`RISCV_Emulator.cc`: the command line, and the program as a whole.

A C string is its bytes without the NUL, and `std::string` likewise. The
files are what the file system gives for a name; one that cannot be opened
has the size -1. The program ends with a status: what `run` returns, or what
`exit` is called with. What is only printed is left out, and so is `verbose`,
which prints.
-/
import RiscvEmulator.DefaultTable
import RiscvEmulator.ElfFacts
import RiscvEmulator.Execute

namespace RiscvEmulator

namespace Emulator

abbrev CString := List (BitVec 8)

/-- `s[k]`, of which at most the NUL is read. -/
def charAt (s : CString) (k : Nat) : BitVec 8 := s.getD k 0

/-! ## The command line -/

/-- What `ParseCmd` returns. -/
structure Options where
  error : Bool := false
  filename : CString := []
  verbose : Bool := false
  address64bit : Bool := false
  paging : Bool := false
  ecallEmulation : Bool := false
  hostEmulation : Bool := false
  deviceEnable : Bool := false
  disableMachineInterruptDelegation : Bool := false
  diskimageFile : CString := []
  deriving DecidableEq

/-- `'-'`. -/
def dash : BitVec 8 := 0x2d

/-- The loop, over the arguments that are left. -/
def parseArgs : List CString → Options → Options
  | [], o => o
  | arg :: args, o =>
    if o.error then o
    else if charAt arg 0 = dash then
      if charAt arg 1 = 0x76 then parseArgs args { o with verbose := true }
      else if charAt arg 1 = 0x36 ∧ charAt arg 2 = 0x34 then parseArgs args { o with address64bit := true }
      else if charAt arg 1 = 0x70 then parseArgs args { o with paging := true }
      else if charAt arg 1 = 0x65 then parseArgs args { o with ecallEmulation := true }
      else if charAt arg 1 = 0x68 then parseArgs args { o with hostEmulation := true }
      else if charAt arg 1 = 0x64 then parseArgs args { o with deviceEnable := true }
      else if charAt arg 1 = 0x6d then parseArgs args { o with disableMachineInterruptDelegation := true }
      else if charAt arg 1 = 0x73 then
        match args with
        | name :: args => parseArgs args { o with diskimageFile := name }
        | [] => { o with error := true }
      else { o with error := true }
    else if o.filename = [] then parseArgs args { o with filename := arg }
    else { o with error := true }

/-- `ParseCmd`; `argv` has `argc` strings. -/
def parseCmd (argv : List CString) : Options :=
  if argv.length < 2 then { error := true } else parseArgs argv.tail {}

/-! ## The program -/

/-- How the program can end without `run` returning. -/
inductive Ended where
  | stop (s : Elf.Stop)
  | exit (status : BitVec 32)

def ofStop {α : Type} : Except Elf.Stop α → Except Ended α
  | .ok a => .ok a
  | .error s => .error (.stop s)

def ofCrash {α : Type} (x : Except Crash α) : Except Ended α := ofStop (Elf.ofCrash x)

/-- The files, by name. -/
abbrev Files := CString → Option (List (BitVec 8))

def readFile (files : Files) (filename : CString) : Except Ended (List (BitVec 8)) :=
  match files filename with
  | none => .error (.exit (-1))
  | some data => if data.length > Elf.kMaxBinarySize ∨ data.length ≤ 0 then .error (.exit (-1)) else .ok data

def kTop : BitVec 32 := 0x80000000
def kBottom : BitVec 32 := 0x40000000

/-- Register SP. -/
def sp : BitVec 5 := 2

/-- What `run` does between reading the files and `RunCpu`. -/
def boot (o : Options) (misa64 globalPointer : BitVec 64) (diskImage : Option (List (BitVec 8)))
    (memory : MemoryWrapper) : Except Crash RiscvCpu := do
  let cpu := RiscvCpu.new o.address64bit misa64
  let cpu := cpu.setEcallEmulationEnable o.ecallEmulation
  let cpu := cpu.setReg sp (kTop.setWidth 64)
  let cpu := cpu.setReg Elf.gp globalPointer
  let memory ← setDefaultMmuTable o.address64bit memory
  let cpu := cpu.setCsr Csr.satp (runSatp o.paging o.address64bit)
  let cpu := cpu.setMemory memory
  let cpu := cpu.setWorkMemory (kTop.setWidth 64) (kBottom.setWidth 64)
  let cpu := cpu.setHostEmulationEnable o.hostEmulation
  let cpu := cpu.setDeviceEmulationEnable o.deviceEnable
  let cpu := cpu.setDisableMachineInterruptDelegation o.disableMachineInterruptDelegation
  let cpu ← cpu.deviceInitialization
  return cpu.setDiskImage diskImage

/-- The status with which the program ends. The loader and the loop of
`RunCpu` take fuel. -/
def run (files : Files) (host : Host) (misa64 : BitVec 64) (loadFuel fuel : Nat) (argv : List CString) :
    Except Ended (BitVec 32) := do
  let o := parseCmd argv
  if o.error then
    return -1
  let program ← readFile files o.filename
  let (flag64bit, memory) ← ofStop (Elf.loadElfFile program loadFuel .new)
  let entryPoint : BitVec 32 := (← ofStop (Elf.getEntryPoint program flag64bit)).setWidth 32
  let globalPointer ← ofStop (Elf.getGlobalPointer program flag64bit)
  let globalPointer := if globalPointer = -1 then entryPoint.setWidth 64 else globalPointer
  let diskImage ←
    if o.diskimageFile ≠ [] then do
      let data ← readFile files o.diskimageFile
      pure (some data)
    else pure none
  let cpu ← ofCrash (boot o misa64 globalPointer diskImage memory)
  match ← ofCrash (cpu.runCpu host fuel (entryPoint.setWidth 64)) with
  | none => throw (.stop .outOfFuel)
  -- An error is printed, and the status is register A0 all the same.
  | some cpu => return (cpu.reg a0).setWidth 32

end Emulator

end RiscvEmulator
