/-
The program as a whole.

A command line that `ParseCmd` accepts is a sequence of words: switches, disk
images and the name of the program. `parseCmd_iff` says which sequences, and
what is read from them: only the first letters of a switch count, the last
image does, and empty names are passed over until there is another one.

`run_isa` goes from the command line to the status: what an ELF file for the
architecture leaves in register A0 is what the program ends with.
-/
import RiscvEmulator.DefaultTableFacts
import RiscvEmulator.Emulator
import RiscvEmulator.IsaFacts
import RiscvEmulator.LoadAssembler
import RiscvEmulator.SymbolFacts

namespace RiscvEmulator

namespace Emulator

open Bytes (fill)
open Elf (GlobalPointerIn Loadable WellFormed afterLoad byteAt eiClass elf32 elf64 elfclass64 entryPoint
  globalPointerOf gp kMaxBinarySize layout)

/-! ## Command lines -/

inductive Switch where
  | verbose
  | address64bit
  | paging
  | ecallEmulation
  | hostEmulation
  | deviceEnable
  | disableMachineInterruptDelegation
  deriving DecidableEq

/-- The letters that are looked at. -/
def Switch.letters : Switch → CString
  | verbose => [0x76]
  | address64bit => [0x36, 0x34]
  | paging => [0x70]
  | ecallEmulation => [0x65]
  | hostEmulation => [0x68]
  | deviceEnable => [0x64]
  | disableMachineInterruptDelegation => [0x6d]

def Switch.set (o : Options) : Switch → Options
  | verbose => { o with verbose := true }
  | address64bit => { o with address64bit := true }
  | paging => { o with paging := true }
  | ecallEmulation => { o with ecallEmulation := true }
  | hostEmulation => { o with hostEmulation := true }
  | deviceEnable => { o with deviceEnable := true }
  | disableMachineInterruptDelegation => { o with disableMachineInterruptDelegation := true }

/-- One or two arguments, with the letters that are not looked at. -/
inductive Word where
  | switch (s : Switch) (rest : CString)
  | disk (rest name : CString)
  | file (name : CString)

namespace Word

def arguments : Word → List CString
  | switch s rest => [dash :: (s.letters ++ rest)]
  | disk rest name => [dash :: 0x73 :: rest, name]
  | file name => [name]

def isSwitch (s : Switch) : Word → Bool
  | switch t _ => s = t
  | _ => false

def diskName : Word → Option CString
  | disk _ name => some name
  | _ => none

def fileName : Word → Option CString
  | file name => some name
  | _ => none

end Word

/-- What the words say, to one who knows `o` already. -/
def meaningFrom (o : Options) (ws : List Word) : Options where
  error := o.error
  filename := (ws.filterMap Word.fileName).getLastD o.filename
  verbose := o.verbose || ws.any (Word.isSwitch .verbose)
  address64bit := o.address64bit || ws.any (Word.isSwitch .address64bit)
  paging := o.paging || ws.any (Word.isSwitch .paging)
  ecallEmulation := o.ecallEmulation || ws.any (Word.isSwitch .ecallEmulation)
  hostEmulation := o.hostEmulation || ws.any (Word.isSwitch .hostEmulation)
  deviceEnable := o.deviceEnable || ws.any (Word.isSwitch .deviceEnable)
  disableMachineInterruptDelegation :=
    o.disableMachineInterruptDelegation || ws.any (Word.isSwitch .disableMachineInterruptDelegation)
  diskimageFile := (ws.filterMap Word.diskName).getLastD o.diskimageFile

def meaning (ws : List Word) : Options := meaningFrom {} ws

/-- No name looks like a switch, and all but the last one are empty. -/
structure SentenceFrom (filename : CString) (ws : List Word) : Prop where
  plain : ∀ name ∈ ws.filterMap Word.fileName, charAt name 0 ≠ dash
  one : ∀ name ∈ (filename :: ws.filterMap Word.fileName).dropLast, name = []

def Sentence (ws : List Word) : Prop := SentenceFrom [] ws

section

variable {o o' : Options} {ws : List Word} {args : List CString}

theorem meaningFrom_nil (o : Options) : meaningFrom o [] = o := by
  simp [meaningFrom]

theorem meaningFrom_switch (s : Switch) (rest : CString) :
    meaningFrom o (.switch s rest :: ws) = meaningFrom (s.set o) ws := by
  cases s <;> simp [meaningFrom, Switch.set, Word.fileName, Word.diskName, Word.isSwitch]

theorem meaningFrom_disk (rest name : CString) :
    meaningFrom o (.disk rest name :: ws) = meaningFrom { o with diskimageFile := name } ws := by
  simp only [meaningFrom, List.filterMap_cons, Word.fileName, Word.diskName, Word.isSwitch, List.any_cons,
    Bool.false_or, List.getLastD_cons]

theorem meaningFrom_file (name : CString) :
    meaningFrom o (.file name :: ws) = meaningFrom { o with filename := name } ws := by
  simp only [meaningFrom, List.filterMap_cons, Word.fileName, Word.diskName, Word.isSwitch, List.any_cons,
    Bool.false_or, List.getLastD_cons]

theorem sentenceFrom_nil (filename : CString) : SentenceFrom filename [] := ⟨by simp, by simp⟩

theorem sentenceFrom_file {filename name : CString} :
    SentenceFrom filename (.file name :: ws) ↔ charAt name 0 ≠ dash ∧ filename = [] ∧ SentenceFrom name ws := by
  have hnames : (Word.file name :: ws).filterMap Word.fileName = name :: ws.filterMap Word.fileName := rfl
  constructor
  · intro h
    have hplain := h.plain
    have hone := h.one
    rw [hnames, List.forall_mem_cons] at hplain
    rw [hnames, List.dropLast_cons_cons, List.forall_mem_cons] at hone
    exact ⟨hplain.1, hone.1, hplain.2, hone.2⟩
  · rintro ⟨hd, hempty, h⟩
    refine ⟨?_, ?_⟩
    · rw [hnames, List.forall_mem_cons]
      exact ⟨hd, h.plain⟩
    · rw [hnames, List.dropLast_cons_cons, List.forall_mem_cons]
      exact ⟨hempty, h.one⟩

/-- The other words name no program. -/
theorem sentenceFrom_other {filename : CString} {w : Word} (hw : w.fileName = none) :
    SentenceFrom filename (w :: ws) ↔ SentenceFrom filename ws := by
  have hnames : (w :: ws).filterMap Word.fileName = ws.filterMap Word.fileName := List.filterMap_cons_none hw
  constructor
  · intro h
    exact ⟨hnames ▸ h.plain, hnames ▸ h.one⟩
  · intro h
    exact ⟨hnames.symm ▸ h.plain, hnames.symm ▸ h.one⟩

/-! ### One word -/

theorem parseArgs_switch (s : Switch) (rest : CString) (ho : o.error = false) :
    parseArgs ((dash :: (s.letters ++ rest)) :: args) o = parseArgs args (s.set o) := by
  rw [parseArgs.eq_def]
  cases s <;> simp [charAt, dash, Switch.letters, Switch.set, ho]

theorem parseArgs_disk (rest name : CString) (ho : o.error = false) :
    parseArgs ((dash :: 0x73 :: rest) :: name :: args) o = parseArgs args { o with diskimageFile := name } := by
  rw [parseArgs.eq_def]
  simp [charAt, dash, ho]

theorem parseArgs_file {name : CString} (hd : charAt name 0 ≠ dash) (he : o.filename = []) (ho : o.error = false) :
    parseArgs (name :: args) o = parseArgs args { o with filename := name } := by
  rw [parseArgs.eq_def]
  simp [hd, he, ho]

/-- A sentence is read as it is meant. -/
theorem parseArgs_sentence (ho : o.error = false) (h : SentenceFrom o.filename ws) :
    parseArgs (ws.flatMap Word.arguments) o = meaningFrom o ws := by
  induction ws generalizing o with
  | nil => rw [meaningFrom_nil]; rfl
  | cons w ws ih =>
    cases w with
    | switch s rest =>
      have hset : (s.set o).error = false ∧ (s.set o).filename = o.filename := by
        cases s <;> exact ⟨ho, rfl⟩
      have hws := (sentenceFrom_other (w := .switch s rest) rfl).mp h
      rw [meaningFrom_switch, ← ih hset.1 (hset.2 ▸ hws)]
      exact parseArgs_switch s rest ho
    | disk rest name =>
      have hws := (sentenceFrom_other (w := .disk rest name) rfl).mp h
      rw [meaningFrom_disk, ← ih (o := { o with diskimageFile := name }) ho hws]
      exact parseArgs_disk rest name ho
    | file name =>
      obtain ⟨hd, he, hws⟩ := sentenceFrom_file.mp h
      rw [meaningFrom_file, ← ih (o := { o with filename := name }) ho hws]
      exact parseArgs_file hd he ho

/-! ### The other way -/

theorem eq_cons_of_charAt {arg : CString} {c : BitVec 8} (h : charAt arg 0 = c) (hc : c ≠ 0) :
    ∃ rest, arg = c :: rest := by
  cases arg with
  | nil => exact absurd h.symm hc
  | cons b rest => exact ⟨rest, congrArg (· :: rest) h⟩

/-- An argument that begins like a switch is one. -/
theorem eq_of_letter {arg : CString} {c : BitVec 8} (h0 : charAt arg 0 = dash) (h1 : charAt arg 1 = c) (hc : c ≠ 0) :
    ∃ rest, arg = dash :: c :: rest := by
  obtain ⟨tail, rfl⟩ := eq_cons_of_charAt h0 (by decide)
  obtain ⟨rest, rfl⟩ := (eq_cons_of_charAt h1 hc : ∃ rest, tail = _ :: rest)
  exact ⟨rest, rfl⟩

/-- The arguments are those of a sentence. -/
def Spelt (filename : CString) (args : List CString) : Prop :=
  ∃ ws, SentenceFrom filename ws ∧ args = ws.flatMap Word.arguments

theorem Spelt.nil (filename : CString) : Spelt filename [] := ⟨[], sentenceFrom_nil filename, rfl⟩

theorem Spelt.word {filename : CString} {w : Word} (hw : w.fileName = none) (h : Spelt filename args) :
    Spelt filename (w.arguments ++ args) := by
  obtain ⟨ws, hws, rfl⟩ := h
  exact ⟨w :: ws, (sentenceFrom_other hw).mpr hws, rfl⟩

theorem Spelt.switch {filename arg : CString} {s : Switch} {rest : CString} (harg : arg = dash :: (s.letters ++ rest))
    (h : Spelt filename args) : Spelt filename (arg :: args) :=
  harg ▸ Spelt.word (w := .switch s rest) rfl h

theorem Spelt.file {name : CString} (hd : charAt name 0 ≠ dash) (h : Spelt name args) : Spelt [] (name :: args) := by
  obtain ⟨ws, hws, rfl⟩ := h
  exact ⟨.file name :: ws, sentenceFrom_file.mpr ⟨hd, rfl, hws⟩, rfl⟩

/-- Only sentences are accepted. -/
theorem spelt_of_parseArgs (h : (parseArgs args o).error = false) : Spelt o.filename args := by
  fun_induction parseArgs args o with
  | case1 o => exact .nil _
  | case2 arg args o he => exact absurd h (by simp [he])
  | case3 arg args o he h0 h1 ih =>
    obtain ⟨rest, harg⟩ := eq_of_letter h0 h1 (by decide)
    exact (ih h).switch (s := .verbose) harg
  | case4 arg args o he h0 _ h12 ih =>
    -- The only switch of two letters.
    obtain ⟨tail, rfl⟩ := eq_of_letter h0 h12.1 (by decide)
    obtain ⟨rest, rfl⟩ := (eq_cons_of_charAt h12.2 (by decide) : ∃ rest, tail = _ :: rest)
    exact (ih h).switch (s := .address64bit) rfl
  | case5 arg args o he h0 _ _ h1 ih =>
    obtain ⟨rest, harg⟩ := eq_of_letter h0 h1 (by decide)
    exact (ih h).switch (s := .paging) harg
  | case6 arg args o he h0 _ _ _ h1 ih =>
    obtain ⟨rest, harg⟩ := eq_of_letter h0 h1 (by decide)
    exact (ih h).switch (s := .ecallEmulation) harg
  | case7 arg args o he h0 _ _ _ _ h1 ih =>
    obtain ⟨rest, harg⟩ := eq_of_letter h0 h1 (by decide)
    exact (ih h).switch (s := .hostEmulation) harg
  | case8 arg args o he h0 _ _ _ _ _ h1 ih =>
    obtain ⟨rest, harg⟩ := eq_of_letter h0 h1 (by decide)
    exact (ih h).switch (s := .deviceEnable) harg
  | case9 arg args o he h0 _ _ _ _ _ _ h1 ih =>
    obtain ⟨rest, harg⟩ := eq_of_letter h0 h1 (by decide)
    exact (ih h).switch (s := .disableMachineInterruptDelegation) harg
  | case10 arg o he h0 _ _ _ _ _ _ _ h1 name args ih =>
    obtain ⟨rest, rfl⟩ := eq_of_letter h0 h1 (by decide)
    exact (ih h).word (w := .disk rest name) rfl
  | case11 | case12 | case14 => exact absurd h (by simp)
  | case13 arg args o he h0 hempty ih => exact hempty ▸ (ih h).file h0

theorem parseArgs_iff (ho : o.error = false) :
    (parseArgs args o = o' ∧ o'.error = false) ↔
      ∃ ws, SentenceFrom o.filename ws ∧ args = ws.flatMap Word.arguments ∧ o' = meaningFrom o ws := by
  constructor
  · rintro ⟨rfl, h⟩
    obtain ⟨ws, hws, rfl⟩ := spelt_of_parseArgs h
    exact ⟨ws, hws, rfl, parseArgs_sentence ho hws⟩
  · rintro ⟨ws, hws, rfl, rfl⟩
    exact ⟨parseArgs_sentence ho hws, ho⟩

/-- A command line is accepted just when there are words and they are a
sentence, and then it means what they say. -/
theorem parseCmd_iff (argv0 : CString) (args : List CString) (o : Options) :
    (parseCmd (argv0 :: args) = o ∧ o.error = false) ↔
      args ≠ [] ∧ ∃ ws, Sentence ws ∧ args = ws.flatMap Word.arguments ∧ o = meaning ws := by
  cases args with
  | nil =>
    simp only [ne_eq, not_true, false_and, iff_false, not_and]
    rintro rfl
    simp [parseCmd]
  | cons arg args =>
    have hlong : ¬(argv0 :: arg :: args).length < 2 := by simp
    rw [parseCmd, if_neg hlong, List.tail_cons, parseArgs_iff rfl]
    simp [Sentence, meaning]

end

/-! ## The program on the architecture -/

section

variable {files : Files} {o : Options} {program : List (BitVec 8)}

/-- The structures in which `GetGlobalPointer` looks: those of the other
class. -/
def otherLayout (program : List (BitVec 8)) : Elf.Layout :=
  if byteAt program eiClass = elfclass64 then elf32 else elf64

/-- `ReadFile` takes a file. -/
def Readable (files : Files) (filename : CString) (data : List (BitVec 8)) : Prop :=
  files filename = some data ∧ 0 < data.length ∧ data.length ≤ kMaxBinarySize

/-- A command line for 64 bits without devices, and its files. -/
structure Ready (files : Files) (o : Options) (program : List (BitVec 8)) : Prop where
  error : o.error = false
  address64bit : o.address64bit = true
  hostEmulation : o.hostEmulation = false
  deviceEnable : o.deviceEnable = false
  file : Readable files o.filename program
  wellFormed : WellFormed program
  loadable : Loadable (layout program) program
  globalPointer : GlobalPointerIn (otherLayout program) program
  disk : o.diskimageFile = [] ∨ ∃ data, Readable files o.diskimageFile data

/-- The memory with which the guest starts: what is loaded, and over it the
tables. -/
def startMemory (program : List (BitVec 8)) : Bytes.Store 32 :=
  fill (afterLoad (layout program) program fun _ => 0) 0xC0000000#32 8 (fun i => BitVec.ofNat 64 (entry64 i))
    (512 + 4 * 512 + 4 * 512 * 512)

/-- The registers: a stack pointer and a global pointer. -/
def startRegisters (program : List (BitVec 8)) : Isa.Registers :=
  ((Isa.Registers.of fun _ => 0).write sp (kTop.setWidth 64)).write gp
    ((globalPointerOf (otherLayout program) program).setWidth 64)

/-- The architecture when the guest starts. -/
def startHart (program : List (BitVec 8)) : Isa.Hart :=
  ⟨entryPoint program, startRegisters program, startMemory program⟩

theorem readFile_ok {filename : CString} {data : List (BitVec 8)} (h : Readable files filename data) :
    readFile files filename = .ok data := by
  have hfit : ¬(data.length > kMaxBinarySize ∨ data.length ≤ 0) := by
    have := h.2
    omega
  rw [readFile, h.1]
  exact if_neg hfit

/-- The value that is looked for is never found. -/
theorem setWidth_ne (v : BitVec 32) : v.setWidth 64 ≠ -1 := by
  intro hv
  have hlt := v.isLt
  have hnat := congrArg BitVec.toNat hv
  rw [BitVec.toNat_setWidth_of_le (by decide), show (-1 : BitVec 64).toNat = 2 ^ 64 - 1 from rfl] at hnat
  omega

/-- Machine mode translates nothing, unless MPRV is set. -/
theorem regime_machine {c : RiscvCpu} (hp : c.privilege = .machineMode) (hm : bitcrop (c.csrs Csr.mstatus) 1 17 = 0) :
    c.regime = .ok .bare := by
  have ha : c.accessPrivilege = .ok .machineMode := by
    rw [RiscvCpu.accessPrivilege, if_neg (by simp [hm]), hp]
  rw [RiscvCpu.regime, ha]
  rfl

/-- The guest starts in machine mode, with no interrupt enabled. -/
theorem boot_agrees (misa64 : BitVec 64) (diskImage : Option (List (BitVec 8))) {memory : MemoryWrapper}
    (h64 : o.address64bit = true) (hh : o.hostEmulation = false) (hd : o.deviceEnable = false)
    (hm : memory.bytes = afterLoad (layout program) program fun _ => 0) :
    ∃ cpu, boot o misa64 ((globalPointerOf (otherLayout program) program).setWidth 64) diskImage memory = .ok cpu ∧
      (cpu.start (entryPoint program)).Agrees (startHart program) := by
  obtain ⟨tables, htables, hbytes⟩ := setDefaultMmuTable64_bytes memory
  have hset : setDefaultMmuTable o.address64bit memory = .ok tables := by
    rw [setDefaultMmuTable, h64]
    exact htables
  have hreg : (startHart program).x.read = Function.update (Function.update (fun _ => 0) sp (kTop.setWidth 64)) gp
      ((globalPointerOf (otherLayout program) program).setWidth 64) := by
    have hzero : (Isa.Registers.of fun _ => 0).read = fun _ => 0 := Function.update_eq_self zero _
    rw [startHart, startRegisters, Isa.Registers.read_write_update (by decide),
      Isa.Registers.read_write_update (by decide), hzero]
  rw [boot, hset, h64, hh, hd]
  refine ⟨_, rfl, ⟨?_, .inl rfl, rfl, rfl⟩, rfl, hreg.symm, fun a _ => ?_, rfl⟩
  · refine regime_machine rfl ?_
    have hstatus : ((RiscvCpu.new true misa64).setCsr Csr.satp (runSatp o.paging true)).csrs Csr.mstatus =
      (2#64 <<< 34) ||| (2#64 <<< 32) := rfl
    exact (congrArg (bitcrop · 1 17) hstatus).trans (by decide)
  · exact congrFun (hbytes.trans (by rw [hm]; rfl)) a

/-- **The program runs an ELF file on the architecture.** When the file is
loaded for 64 bits without devices and the architecture comes from its entry
point to a program end, or to an instruction that leads to itself, by steps
that the emulator keeps to, the status with which the program ends is
register A0 there. -/
theorem run_isa (host : Host) (misa64 : BitVec 64) (argv : List CString) (hready : Ready files (parseCmd argv) program)
    {t t' : Isa.Hart} {n : Nat} (hrun : Machine.after Isa.Hart.advance n (startHart program) = some t) (hk : t.Kept)
    (hs : t.step = some t') (hstop : t.Ends ∨ t'.pc = t.pc) {loadFuel fuel : Nat} (hload : 2 ^ 32 + 1 ≤ loadFuel)
    (hfuel : n < fuel) : run files host misa64 loadFuel fuel argv = .ok ((t'.x.read a0).setWidth 32) := by
  have hwf := hready.wellFormed
  have hyields := Elf.loadElfFile_yields hwf.long .new
  obtain ⟨⟨flag, memory⟩, hloaded⟩ := hyields.does hready.loadable loadFuel hload
  obtain ⟨-, hmemory⟩ := hyields.only loadFuel _ hloaded
  have hflag : flag = decide (byteAt program eiClass = elfclass64) := by
    rw [Elf.loadElfFile_eq hwf.long] at hloaded
    obtain ⟨m, -, hm⟩ := Except.bind_ok_iff.mp hloaded
    cases hm
    rfl
  have hgp : Elf.getGlobalPointer program flag = .ok ((globalPointerOf (otherLayout program) program).setWidth 64) := by
    refine (Elf.getGlobalPointer_eq flag _).mpr ?_
    have hother : (if flag = true then elf32 else elf64) = otherLayout program := by simp [hflag, otherLayout]
    rw [hother]
    exact ⟨hready.globalPointer, rfl⟩
  have hentry := hflag ▸ hwf.getEntryPoint
  have hnarrow : ((entryPoint program).setWidth 32).setWidth 64 = entryPoint program := by simp [entryPoint]
  -- The image is not looked at.
  have hguest : ∀ diskImage, ∃ cpu c',
      boot (parseCmd argv) misa64 ((globalPointerOf (otherLayout program) program).setWidth 64) diskImage memory =
        .ok cpu ∧ cpu.runCpu host fuel (entryPoint program) = .ok (some c') ∧ c'.reg a0 = t'.x.read a0 := by
    intro diskImage
    obtain ⟨cpu, hboot, hrunning⟩ := boot_agrees misa64 diskImage hready.address64bit hready.hostEmulation
      hready.deviceEnable (hmemory.trans (by rw [MemoryWrapper.bytes_new]))
    obtain ⟨c', hloop, ha', -⟩ := RiscvCpu.runLoop_isa host hrunning ⟨rfl, rfl⟩ hrun hk hs hstop hfuel
    exact ⟨cpu, c', hboot, hloop, congrFun ha'.reg a0⟩
  unfold run
  simp only [hready.error, Bool.false_eq_true, if_false, readFile_ok hready.file, hloaded, ofStop, hentry, hgp,
    Except.ok_bind, if_neg (setWidth_ne _), ofCrash, Elf.ofCrash, hnarrow]
  by_cases hnone : (parseCmd argv).diskimageFile = []
  · obtain ⟨cpu, c', hboot, hruns, ha0⟩ := hguest none
    rw [if_neg (not_not_intro hnone)]
    simp [hboot, hruns, ha0]
  · obtain ⟨data, hdata⟩ := hready.disk.resolve_left hnone
    obtain ⟨cpu, c', hboot, hruns, ha0⟩ := hguest (some data)
    rw [if_pos hnone]
    simp [readFile_ok hdata, hboot, hruns, ha0]

end

/-- `addi a0, x0, 42` and a return. -/
def answerCode : List (BitVec 32) := [0x02A00513, 0x00008067]

/-- A file that has it for address 0x1000, -/
def answerFile : List (BitVec 8) :=
  Elf.header64 Elf.emRiscv 0x1000 64 0 1 0 0 ++ Elf.phdr64 120 0x1000 8 ++
    answerCode.flatMap fun w => Elf.le 4 w.toNat

/-- the files, of which it is the one named `a`, -/
def answerFiles : Files := fun name => if name = [0x61] then some answerFile else none

/-- and the command line `m -64 a`. -/
def answerLine : List CString := [[0x6d], [dash, 0x36, 0x34], [0x61]]

theorem answer_placeable : Elf.Placeable answerFile where
  size := by decide +kernel
  magic := by decide
  elfClass := by decide
  data := by decide
  header := by decide +kernel
  programHeaders := by decide +kernel
  sectionHeaders := by decide +kernel
  nameTable := by decide
  names := by decide
  contents := by decide +kernel
  segments := by decide +kernel
  bss := by
    have hnone : Elf.sectionNamed (layout answerFile) answerFile Elf.bssName = none := by decide
    simp [hnone]

theorem answer_cleared : Elf.BssCleared answerFile fun _ => 0 := by
  have hnone : Elf.sectionNamed (layout answerFile) answerFile Elf.bssName = none := by decide
  simp [Elf.BssCleared, hnone]

theorem answer_ready : Ready answerFiles (parseCmd answerLine) answerFile where
  error := rfl
  address64bit := rfl
  hostEmulation := rfl
  deviceEnable := rfl
  file := ⟨rfl, by decide +kernel, by decide +kernel⟩
  wellFormed := answer_placeable.toWellFormed
  loadable := answer_placeable.loadable answer_cleared
  globalPointer := by
    have hother : otherLayout answerFile = elf32 := if_pos (by decide)
    have hsections : Elf.shnum elf32 answerFile = 0 := by decide +kernel
    have hnone : Elf.sectionTyped elf32 answerFile Elf.shtSymtab = none :=
      Elf.sectionTyped_none fun i hi => absurd hi (by simp [hsections])
    rw [hother, Elf.globalPointerIn_untyped hnone]
    exact ⟨by decide +kernel, fun i hi => absurd hi (by simp [hsections])⟩
  disk := .inl rfl

theorem answer_holds : Holds (startMemory answerFile) 0x1000 answerCode := by
  -- The tables are elsewhere.
  have hbytes : ∀ b : BitVec 32, b.toNat < 0x2000 →
      startMemory answerFile b = Elf.placed answerFile (fun _ => 0) b := by
    intro b hb
    rw [startMemory, Bytes.fill_of_outside _ _ _ (by decide), answer_placeable.afterLoad_apply answer_cleared]
    rw [BitVec.toNat_sub]
    simp
    omega
  have hplace : ∀ k < 2, ∀ j < 4,
      (MemoryWrapper.flat (0x1000 + BitVec.ofNat 64 (4 * k)) + BitVec.ofNat 32 j).toNat < 0x2000 := by decide
  have hcode : ∀ k < 2, Bytes.load 32 (Elf.placed answerFile fun _ => 0)
      (MemoryWrapper.flat (0x1000 + BitVec.ofNat 64 (4 * k))) 4 = answerCode.getD k 0 := by decide +kernel
  intro k hk
  exact (Bytes.load_congr fun j hj => hbytes _ (hplace k hk j hj)).trans (hcode k hk)

/-- Before the return, -/
def answerReturning : Isa.Hart := ⟨0x1004, (startRegisters answerFile).write a0 42, startMemory answerFile⟩

/-- and after it. -/
def answerReturned : Isa.Hart := { answerReturning with pc := 0, x := answerReturning.x.write zero 0x1008 }

theorem answer_entry : entryPoint answerFile = 0x1000 := by decide +kernel

theorem answer_advance : (startHart answerFile).advance = some answerReturning := by
  have hpc : (startHart answerFile).pc = 0x1000 + BitVec.ofNat 64 (4 * 0) := answer_entry
  have hdec : decode (answerCode.getD 0 0) 2 = ⟨.addi, a0, zero, 10, 42⟩ := by decide
  refine Isa.Hart.advance_of_holds answer_holds (by decide) hpc (by decide) (by decide) (by decide) hdec
    (Isa.Hart.keptBy_of_none rfl rfl rfl) (by decide) ?_ ?_
  · have hzero : (startHart answerFile).x.read zero = 0 := (startHart answerFile).x.read_zero
    simp only [Isa.Hart.perform, hzero]
    rfl
  · rw [hpc]
    decide

theorem answer_return : answerReturning.Kept ∧ answerReturning.step = some answerReturned ∧ answerReturning.Ends := by
  have hpc : answerReturning.pc = 0x1000 + BitVec.ofNat 64 (4 * 1) := rfl
  have hd : decode (answerCode.getD 1 0) 2 = ⟨.jalr, zero, ra, 0, 0⟩ := by decide
  have hra : answerReturning.x.read ra = 0 := by
    unfold answerReturning startRegisters
    rw [Isa.Registers.read_write_ne (by decide), Isa.Registers.read_write_ne (by decide),
      Isa.Registers.read_write_ne (by decide)]
    rfl
  obtain ⟨hdec, -, hnext⟩ := Isa.Hart.decoded_of_holds (h := answerReturning) answer_holds (by decide) hpc (by decide)
  refine ⟨Isa.Hart.kept_of_holds (h := answerReturning) answer_holds (by decide) hpc (by decide) (by decide)
    (by decide) hd (Isa.Hart.keptBy_of_none rfl rfl rfl), ?_, ?_⟩
  · rw [Isa.Hart.step, hdec, hnext, hd]
    simp only [Isa.Hart.perform, hra]
    rfl
  · rw [Isa.Hart.Ends, hdec, hd]
    exact ⟨rfl, rfl, rfl, hra, rfl⟩

theorem run_isa_answer : run answerFiles .failing 0 (2 ^ 32 + 1) 2 answerLine = .ok 42 := by
  obtain ⟨hk, hs, hends⟩ := answer_return
  have hrun : Machine.after Isa.Hart.advance 1 (startHart answerFile) = some answerReturning := by
    rw [Machine.after, answer_advance]
    rfl
  have hresult := run_isa .failing 0 answerLine answer_ready hrun hk hs (.inl hends) (Nat.le_refl _) (by decide : 1 < 2)
  have ha0 : answerReturned.x.read a0 = 42 :=
    (Isa.Registers.read_write_ne (by decide)).trans (Isa.Registers.read_write_same (by decide))
  rw [hresult, ha0]
  rfl

end Emulator

end RiscvEmulator
