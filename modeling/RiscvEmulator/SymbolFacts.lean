/-
Where the global pointer comes from.

`GetGlobalPointer` reads a file of one class with the structures of the
other. What it then returns is `globalPointerOf` of that layout, if what it
reads is in the file (`getClassGlobalPointer_yields`). In a well-formed file
that is -1 cut to 32 bits but for one kind of file of class 64
(`getGlobalPointer_iff`).
-/
import Mathlib.Tactic.Ring
import RiscvEmulator.ElfFacts
import RiscvEmulator.RoundFacts

namespace RiscvEmulator

namespace Elf

open Except (Yields)

/-! ## Searches -/

section

variable (L : Layout) (program : List (BitVec 8))

theorem printString_yields (p : Nat) : Yields (printString program p) (0 ∈ program.drop p) (· = ()) := by
  unfold printString
  exact (Yields.ite (fun _ => .ok _) fun _ => .error _).congr (by simp) fun _ _ h => h

/-- A section header of a type, if it is the `i`-th. -/
def typedAt (type : Nat) (i : Nat) : Option Nat :=
  if val program (shdrAt L program i) L.shType = type then some (shdrAt L program i) else none

def TypedIn (type : Nat) (i : Nat) : Prop :=
  ShdrIn L program i ∧ FieldIn program (shdrAt L program i) L.shType ∧
    (val program (shdrAt L program i) L.shType = type → SectionNameIn L program (shdrAt L program i) ∧
      0 ∈ program.drop (nameAt L program (shdrAt L program i)) ∧ FieldIn program (shdrAt L program i) L.shOffset)

theorem shdrOfType_yields (type : Nat) {i : Nat} (hi : i < shnum L program) :
    Yields (shdrOfType L program type i) (TypedIn L program type i) (· = typedAt L program type i) := by
  unfold shdrOfType TypedIn typedAt
  refine (getShdr_yields L program i).bind_eq fun _ => ?_
  rw [if_pos hi]
  refine (readField_yields program _ L.shType).bind_eq fun _ => ?_
  by_cases ht : val program (shdrAt L program i) L.shType = type
  · rw [if_pos ht, if_pos ht]
    exact .of_iff (by simp [ht]) ((getSectionName_yields L program _).bind_eq fun _ =>
      (printString_yields program _).bind_eq fun _ => (readField_yields program _ L.shOffset).bind_eq fun _ => .ok _)
  · rw [if_neg ht, if_neg ht]
    exact .of_iff (by simp [ht]) (.ok _)

/-- The first section header of a type, -/
def sectionTyped (type : Nat) : Option Nat :=
  (List.range' 0 (shnum L program)).findSome? (typedAt L program type)

/-- and what is looked at to find it. -/
def TypeSearchIn (type : Nat) : Prop :=
  FieldIn program 0 L.eShnum ∧
    ∀ i < shnum L program, (∀ j < i, typedAt L program type j = none) → TypedIn L program type i

theorem searchShdrOfType_yields (type : Nat) :
    Yields (searchShdrOfType L program type) (TypeSearchIn L program type) (· = sectionTyped L program type) := by
  unfold searchShdrOfType TypeSearchIn
  refine (readField_yields program 0 L.eShnum).bind_eq fun _ => ?_
  refine .of_iff ?_ (Run.searchFrom_yields _ 0 fun k _ hk =>
    shdrOfType_yields L program type (Nat.lt_of_lt_of_eq hk (Nat.zero_add _)))
  simp only [Nat.zero_add]
  exact Iff.rfl

end

/-! ## Symbols -/

section

variable (L : Layout) (program : List (BitVec 8)) (table strings : Nat)

/-- The place of a symbol, -/
def symbolAt (i : Nat) : Nat := val program table L.shOffset + i * L.symSize

/-- and of its name in a string table. -/
def symbolNameAt (i : Nat) : Nat :=
  val program strings L.shOffset + val program (symbolAt L program table i) L.stName

/-- A symbol with a name, if it is the `i`-th. -/
def symbolNamedAt (name : List (BitVec 8)) (i : Nat) : Option Nat :=
  if NameIs program (symbolNameAt L program table strings i) name then some (symbolAt L program table i) else none

def SymbolIn (name : List (BitVec 8)) (i : Nat) : Prop :=
  FieldIn program table L.shOffset ∧ FieldIn program strings L.shOffset ∧
    FieldIn program (symbolAt L program table i) L.stName ∧
    StrIn program (symbolNameAt L program table strings i) name

theorem symbolNamed_yields (name : List (BitVec 8)) (i : Nat) :
    Yields (symbolNamed L program table strings name i) (SymbolIn L program table strings name i)
      (· = symbolNamedAt L program table strings name i) := by
  unfold symbolNamed SymbolIn symbolNamedAt
  refine (readField_yields program table L.shOffset).bind_eq fun _ =>
    (readField_yields program strings L.shOffset).bind_eq fun _ =>
    (readField_yields program _ L.stName).bind_eq fun _ => ?_
  refine .of_iff (and_true _).symm.to_iff ((strEqual_yields program _ name).bind_eq fun _ => ?_)
  change Yields (if decide (NameIs program (symbolNameAt L program table strings i) name) = true then
    .ok (some (symbolAt L program table i)) else .ok none) True _
  by_cases hn : NameIs program (symbolNameAt L program table strings i) name
  · rw [decide_eq_true hn, if_pos rfl, if_pos hn]
    exact .ok _
  · rw [decide_eq_false hn, if_neg Bool.false_ne_true, if_neg hn]
    exact .ok _

/-- The number of symbols, an `int`. -/
def symbolCount : Nat := (BitVec.ofNat 32 (val program table L.shSize / L.symSize)).toInt.toNat

/-- The first symbol with a name, -/
def symbolOf (name : List (BitVec 8)) : Option Nat :=
  (List.range' 0 (symbolCount L program table)).findSome? (symbolNamedAt L program table strings name)

/-- and what is looked at to find it. -/
def SymbolSearchIn (name : List (BitVec 8)) : Prop :=
  ∀ i < symbolCount L program table, (∀ j < i, symbolNamedAt L program table strings name j = none) →
    SymbolIn L program table strings name i

end

section

variable (L : Layout) (program : List (BitVec 8))

/-- What `FindElf32Symbol` or `FindElf64Symbol` finds: a symbol of the first
symbol table, its name in the section named `.strtab`, -/
def foundSymbol (name : List (BitVec 8)) : Option Nat :=
  match sectionTyped L program shtSymtab, sectionNamed L program strtabName with
  | some table, some strings => symbolOf L program table strings name
  | _, _ => none

/-- and what it looks at. -/
structure FindIn (name : List (BitVec 8)) : Prop where
  table : TypeSearchIn L program shtSymtab
  strings : ∀ table ∈ sectionTyped L program shtSymtab,
    FieldIn program table L.shSize ∧ SearchIn L program strtabName
  symbols : ∀ table ∈ sectionTyped L program shtSymtab, ∀ strings ∈ sectionNamed L program strtabName,
    SymbolSearchIn L program table strings name

theorem findSymbol_yields (name : List (BitVec 8)) :
    Yields (findSymbol L program name) (FindIn L program name) (· = foundSymbol L program name) := by
  unfold findSymbol foundSymbol
  have hiff : FindIn L program name ↔ TypeSearchIn L program shtSymtab ∧
      ∀ table ∈ sectionTyped L program shtSymtab, FieldIn program table L.shSize ∧ SearchIn L program strtabName ∧
        ∀ strings ∈ sectionNamed L program strtabName, SymbolSearchIn L program table strings name :=
    ⟨fun h => ⟨h.table, fun table ht => ⟨(h.strings table ht).1, (h.strings table ht).2, h.symbols table ht⟩⟩,
      fun h => ⟨h.1, fun table ht => ⟨(h.2 table ht).1, (h.2 table ht).2.1⟩, fun table ht => (h.2 table ht).2.2⟩⟩
  refine .of_iff hiff ((searchShdrOfType_yields L program shtSymtab).bind_eq fun _ => ?_)
  cases sectionTyped L program shtSymtab with
  | none => exact .of_iff (by simp) (.ok _)
  | some table =>
    simp only [Option.mem_some_iff, forall_eq']
    refine (readField_yields program table L.shSize).bind_eq fun _ =>
      (searchShdrNamed_yields L program strtabName).bind_eq fun _ => ?_
    cases sectionNamed L program strtabName with
    | none => exact .of_iff (by simp) (.ok _)
    | some strings =>
      refine .of_iff ?_ (Run.searchFrom_yields _ 0 fun k _ _ => symbolNamed_yields L program table strings name k)
      simp only [Option.mem_some_iff, forall_eq', Nat.zero_add, SymbolSearchIn, symbolCount]

/-- What `GetElf32GlobalPointer` or `GetElf64GlobalPointer` returns, -/
def globalPointerOf : BitVec 32 :=
  match foundSymbol L program globalPointerName with
  | some symbol => BitVec.ofNat 32 (val program symbol L.stValue)
  | none => -1

/-- and when. -/
def GlobalPointerIn : Prop :=
  FindIn L program globalPointerName ∧
    ∀ symbol ∈ foundSymbol L program globalPointerName, FieldIn program symbol L.stValue

theorem getClassGlobalPointer_yields :
    Yields (getClassGlobalPointer L program) (GlobalPointerIn L program) (· = globalPointerOf L program) := by
  unfold getClassGlobalPointer GlobalPointerIn globalPointerOf
  refine (findSymbol_yields L program globalPointerName).bind_eq fun _ => ?_
  cases foundSymbol L program globalPointerName with
  | none => exact .of_iff (by simp) (.ok _)
  | some symbol => exact .of_iff (by simp) ((readField_yields program symbol L.stValue).bind_eq fun _ => .ok _)

end

/-! ## Fields of the other class -/

theorem littleEndian_append (xs ys : List (BitVec 8)) :
    littleEndian (xs ++ ys) = littleEndian xs + 256 ^ xs.length * littleEndian ys := by
  induction xs with
  | nil => rw [List.nil_append, littleEndian, List.length_nil, Nat.pow_zero, Nat.one_mul, Nat.zero_add]
  | cons x xs ih =>
    rw [List.cons_append, littleEndian, littleEndian, ih, List.length_cons, Nat.pow_succ]
    ring

/-- A field is its low part and its high part. -/
theorem word_add {program : List (BitVec 8)} {o a : Nat} (b : Nat) (h : o + a ≤ program.length) :
    word program o (a + b) = word program o a + 256 ^ a * word program (o + a) b := by
  have hlen : ((program.drop o).take a).length = a := by
    rw [List.length_take, List.length_drop]
    omega
  rw [word, List.take_add, littleEndian_append, hlen, List.drop_drop, word, word]

theorem word_byte {program : List (BitVec 8)} {i : Nat} (hi : i < program.length) :
    word program i 1 = (byteAt program i).toNat := by
  rw [word, List.drop_eq_getElem_cons hi, byteAt_eq program hi]
  rfl

/-- A well-formed file has the tables that its header speaks of, and one of
them at least. -/
structure Regular (program : List (BitVec 8)) : Prop extends WellFormed program where
  shentsize : 0 < shnum (layout program) program →
    val program 0 (layout program).eShentsize = (layout program).shdrSize
  shoff : shnum (layout program) program = 0 → val program 0 (layout program).eShoff = 0
  phoff : val program 0 (layout program).ePhnum = 0 → val program 0 (layout program).ePhoff = 0
  tables : 0 < val program 0 (layout program).ePhnum ∨ 0 < shnum (layout program) program

section

variable {L : Layout} {program : List (BitVec 8)}

/-- Without a symbol table nothing more is read, -/
theorem globalPointerIn_untyped (h : sectionTyped L program shtSymtab = none) :
    GlobalPointerIn L program ↔ TypeSearchIn L program shtSymtab := by
  have hnone : foundSymbol L program globalPointerName = none := by
    unfold foundSymbol
    rw [h]
  constructor
  · exact fun hin => hin.1.table
  · intro htable
    refine ⟨⟨htable, ?_, ?_⟩, ?_⟩
    · simp [h]
    · simp [h]
    · simp [hnone]

/-- and -1 is returned. -/
theorem globalPointerOf_untyped (h : sectionTyped L program shtSymtab = none) : globalPointerOf L program = -1 := by
  unfold globalPointerOf foundSymbol
  rw [h]

theorem sectionTyped_none {type : Nat} (h : ∀ i < shnum L program, val program (shdrAt L program i) L.shType ≠ type) :
    sectionTyped L program type = none := by
  refine List.findSome?_eq_none_iff.mpr fun i hi => ?_
  rw [List.mem_range'_1, Nat.zero_add] at hi
  exact if_neg (h i hi.2)

/-- `e_shoff` of a file of class 64, in the halves that the other class has. -/
theorem shoff_parts (h : 48 ≤ program.length) : val program 0 elf64.eShoff =
    word program 40 4 + 256 ^ 4 * (word program 44 2 + 256 ^ 2 * word program 46 2) :=
  (word_add (o := 40) (a := 4) 4 (by omega)).trans
    (congrArg (fun x => word program 40 4 + 256 ^ 4 * x) (word_add (o := 44) (a := 2) 2 (by omega)))

/-- A file of class 32 has its sections, for the other class, behind its end. -/
theorem Regular.shdrAt_outside (h : Regular program) (hL : layout program = elf32) (i : Nat) :
    program.length < shdrAt elf64 program i := by
  have hheader := h.header
  have hsize := h.size
  have htables := h.tables
  have hshentsize := h.shentsize
  rw [hL] at hheader htables hshentsize
  have hheader' : 52 ≤ program.length := hheader
  have hshoff := shoff_parts (show 48 ≤ program.length by omega)
  have hpos : 0 < word program 44 2 + 256 ^ 2 * word program 46 2 := by
    rcases htables with hph | hsh
    · exact Nat.add_pos_left hph _
    · rw [show word program 46 2 = 40 from hshentsize hsh]
      exact Nat.add_pos_right _ (by decide)
  unfold shdrAt kMaxBinarySize at *
  omega

/-- A file of class 32 is found to have no section header at bytes that need
not be its header's, or not at all. -/
theorem Regular.globalPointerIn_elf64 (h : Regular program) (hL : layout program = elf32) :
    GlobalPointerIn elf64 program ↔ 62 ≤ program.length ∧ word program 60 2 = 0 := by
  constructor
  · rintro ⟨hfind, -⟩
    obtain ⟨hshnum, hsearch⟩ := hfind.table
    refine ⟨hshnum, Classical.byContradiction fun hne => ?_⟩
    have htype := (hsearch 0 (Nat.pos_of_ne_zero hne) fun j hj => absurd hj (Nat.not_lt_zero j)).2.1
    have hout := h.shdrAt_outside hL 0
    unfold FieldIn at htype
    omega
  · rintro ⟨hlen, hzero⟩
    have hnone : sectionTyped elf64 program shtSymtab = none :=
      sectionTyped_none fun i hi => absurd (show i < word program 60 2 from hi) (by omega)
    exact (globalPointerIn_untyped hnone).mpr
      ⟨hlen, fun i hi => absurd (show i < word program 60 2 from hi) (by omega)⟩

theorem globalPointerOf_elf64 (hzero : word program 60 2 = 0) : globalPointerOf elf64 program = -1 :=
  globalPointerOf_untyped (sectionTyped_none fun i hi => absurd (show i < word program 60 2 from hi) (by omega))

end

/-! ## A file of class 64 as one of class 32 -/

section

variable (program : List (BitVec 8))

/-- The place of the first program header. -/
def firstHeader : Nat := val program 0 elf64.ePhoff

/-- Its fields where `Elf32_Shdr` has `sh_name`, `sh_type`, `sh_offset` and
`sh_size`: `p_type`, `p_flags` and the halves of `p_vaddr`. -/
def firstName : Nat := word program (firstHeader program + 16) 4 + word program (firstHeader program) 4
def firstType : Nat := word program (firstHeader program + 4) 4

/-- The two halves of `e_flags`, where `Elf32_Ehdr` has `e_shnum` and
`e_shstrndx`. -/
def flagsLow : Nat := word program 48 2
def flagsHigh : Nat := word program 50 2

/-- The first program header passes for a symbol table. -/
def Odd : Prop := flagsLow program ≠ 0 ∧ firstType program = shtSymtab

instance : Decidable (Odd program) := inferInstanceAs (Decidable (_ ∧ _))

variable {program} (h : Regular program) (hL : layout program = elf64)

include h hL

theorem Regular.headerField {f : Field} (hf : f.1 + f.2 ≤ 64) : FieldIn program 0 f := by
  have hheader := h.header
  rw [hL] at hheader
  have hlen : 64 ≤ program.length := hheader
  unfold FieldIn
  omega

theorem Regular.sections_le : val program 0 elf64.eShoff ≤ program.length := by
  have hsections := h.sectionHeaders 0
  have hshoff := h.shoff
  rw [hL] at hsections hshoff
  rcases Nat.eq_zero_or_pos (shnum elf64 program) with hzero | hpos
  · rw [hshoff hzero]
    exact Nat.zero_le _
  · have hplace := hsections hpos
    unfold shdrAt at hplace
    omega

theorem Regular.firstHeader_le (hpos : 0 < val program 0 elf64.ePhnum) :
    firstHeader program + 56 ≤ program.length := by
  have hprograms := h.programHeaders 0
  rw [hL] at hprograms
  have hplace := hprograms hpos
  have hsize : elf64.phdrSize = 56 := rfl
  rw [hsize] at hplace
  unfold phdrAt at hplace
  unfold firstHeader
  omega

/-- Without program headers it is the header of the file that is read. -/
theorem Regular.firstHeader_in : firstHeader program + 8 ≤ program.length := by
  have hheader := h.header
  have hphoff := h.phoff
  rw [hL] at hheader hphoff
  have hlen : 64 ≤ program.length := hheader
  rcases Nat.eq_zero_or_pos (val program 0 elf64.ePhnum) with hzero | hpos
  · rw [firstHeader, hphoff hzero]
    omega
  · have := h.firstHeader_le hL hpos
    omega

/-- The half of the place of the sections that is always 0, -/
theorem Regular.shentsize_zero : val program 0 elf32.eShentsize = 0 := by
  have hheader := h.header
  rw [hL] at hheader
  have hlen : 64 ≤ program.length := hheader
  have hsize := h.size
  have hsections := h.sections_le hL
  have hshoff := shoff_parts (show 48 ≤ program.length by omega)
  unfold kMaxBinarySize at hsize
  change word program 46 2 = 0
  omega

/-- and the half of the place of the program headers that is not. -/
theorem Regular.shoff_first : val program 0 elf32.eShoff = firstHeader program := by
  have hheader := h.header
  rw [hL] at hheader
  have hlen : 64 ≤ program.length := hheader
  have hsize := h.size
  have hfirst := h.firstHeader_in hL
  have hphoff : firstHeader program = word program 32 4 + 256 ^ 4 * word program 36 4 :=
    word_add (o := 32) (a := 4) 4 (by omega)
  unfold kMaxBinarySize at hsize
  change word program 32 4 = firstHeader program
  omega

/-- So every section header is the first program header. -/
theorem Regular.shdrAt_first (i : Nat) : shdrAt elf32 program i = firstHeader program := by
  rw [shdrAt, h.shentsize_zero hL, h.shoff_first hL, Nat.zero_mul, Nat.add_zero]

theorem Regular.shdrIn_first (i : Nat) : ShdrIn elf32 program i := by
  refine ⟨h.headerField hL (by decide), fun _ => ⟨h.headerField hL (by decide), h.headerField hL (by decide), ?_⟩⟩
  rw [h.shentsize_zero hL, Nat.zero_mul]
  decide

theorem Regular.typedAt_first (type i : Nat) :
    typedAt elf32 program type i = if firstType program = type then some (firstHeader program) else none := by
  rw [typedAt, h.shdrAt_first hL]
  rfl

/-- Unless the first program header passes for a symbol table, none is found. -/
theorem Regular.sectionTyped_first (hodd : ¬ Odd program) : sectionTyped elf32 program shtSymtab = none := by
  refine List.findSome?_eq_none_iff.mpr fun i hi => ?_
  rw [List.mem_range'_1, Nat.zero_add] at hi
  have hpos : flagsLow program ≠ 0 := fun hzero => absurd (show i < flagsLow program from hi.2) (by omega)
  rw [h.typedAt_first hL, if_neg fun htype => hodd ⟨hpos, htype⟩]

theorem Regular.globalPointerIn_elf32 (hodd : ¬ Odd program) : GlobalPointerIn elf32 program := by
  refine (globalPointerIn_untyped (h.sectionTyped_first hL hodd)).mpr ⟨h.headerField hL (by decide), fun i hi _ => ?_⟩
  have hpos : flagsLow program ≠ 0 := fun hzero => absurd (show i < flagsLow program from hi) (by omega)
  refine ⟨h.shdrIn_first hL i, ?_, fun htype => ?_⟩
  · rw [h.shdrAt_first hL]
    exact h.firstHeader_in hL
  · rw [h.shdrAt_first hL] at htype
    exact absurd ⟨hpos, htype⟩ hodd

variable (hodd : Odd program)

include hodd

theorem Regular.odd_first : firstHeader program + 56 ≤ program.length := by
  rcases Nat.eq_zero_or_pos (val program 0 elf64.ePhnum) with hzero | hpos
  · -- the file's own header has no 2 there: `EI_DATA` is 1
    have hphoff := h.phoff
    have hlong := h.long
    rw [hL] at hphoff
    have htype : word program 4 4 = 2 := by
      have htype := hodd.2
      rw [firstType, firstHeader, hphoff hzero] at htype
      exact htype
    have hparts : word program 4 4 = word program 4 1 + 256 ^ 1 * (word program 5 1 + 256 ^ 1 * word program 6 2) :=
      (word_add (o := 4) (a := 1) 3 (by omega)).trans
        (congrArg (fun x => word program 4 1 + 256 ^ 1 * x) (word_add (o := 5) (a := 1) 2 (by omega)))
    have hdata : word program 5 1 = 1 := by
      rw [word_byte (by omega), h.data]
      rfl
    omega
  · exact h.firstHeader_le hL hpos

/-- A field of the first program header. -/
theorem Regular.firstField {f : Field} (hf : f.1 + f.2 ≤ 56) : FieldIn program (firstHeader program) f := by
  have hfirst := h.odd_first hL hodd
  unfold FieldIn
  omega

omit hodd in
/-- The name of every section. -/
theorem Regular.nameAt_first : nameAt elf32 program (firstHeader program) = firstName program := by
  rw [nameAt, h.shdrAt_first hL]
  rfl

theorem Regular.sectionNameIn_first :
    SectionNameIn elf32 program (firstHeader program) ↔ flagsHigh program < flagsLow program := by
  refine ⟨fun hin => hin.2.2.1, fun hlt => ⟨h.headerField hL (by decide), h.shdrIn_first hL _, hlt, ?_, ?_⟩⟩
  · rw [h.shdrAt_first hL]
    exact h.firstField hL hodd (by decide)
  · exact h.firstField hL hodd (by decide)

/-- The first search takes the first section header. -/
theorem Regular.sectionTyped_odd : sectionTyped elf32 program shtSymtab = some (firstHeader program) := by
  obtain ⟨n, hn⟩ : ∃ n, shnum elf32 program = n + 1 := Nat.exists_eq_succ_of_ne_zero hodd.1
  rw [sectionTyped, hn, List.range'_succ, List.findSome?_cons, h.typedAt_first hL, if_pos hodd.2]

theorem Regular.typeSearchIn_odd : TypeSearchIn elf32 program shtSymtab ↔
    flagsHigh program < flagsLow program ∧ 0 ∈ program.drop (firstName program) := by
  have htyped : TypedIn elf32 program shtSymtab 0 ↔
      flagsHigh program < flagsLow program ∧ 0 ∈ program.drop (firstName program) := by
    unfold TypedIn
    rw [h.shdrAt_first hL, h.sectionNameIn_first hL hodd, h.nameAt_first hL]
    constructor
    · rintro ⟨-, -, hrest⟩
      obtain ⟨hname, htext, -⟩ := hrest hodd.2
      exact ⟨hname, htext⟩
    · rintro ⟨hname, htext⟩
      exact ⟨h.shdrIn_first hL 0, h.firstField hL hodd (by decide), fun _ =>
        ⟨hname, htext, h.firstField hL hodd (by decide)⟩⟩
  rw [← htyped]
  constructor
  · rintro ⟨-, hsearch⟩
    exact hsearch 0 (Nat.pos_of_ne_zero hodd.1) fun j hj => absurd hj (Nat.not_lt_zero j)
  · intro hin
    refine ⟨h.headerField hL (by decide), fun i hi hnone => ?_⟩
    rcases Nat.eq_zero_or_pos i with rfl | hpos
    · exact hin
    · have hfirst := hnone 0 hpos
      rw [h.typedAt_first hL, if_pos hodd.2] at hfirst
      cases hfirst

/-- The second takes it too, if it has the name. -/
theorem Regular.sectionNamed_odd : sectionNamed elf32 program strtabName =
    if NameIs program (firstName program) strtabName then some (firstHeader program) else none := by
  have hnamed : ∀ i, namedAt elf32 program strtabName i =
      if NameIs program (firstName program) strtabName then some (firstHeader program) else none := fun i => by
    rw [namedAt, h.shdrAt_first hL, h.nameAt_first hL]
  split
  · next hname =>
    obtain ⟨n, hn⟩ : ∃ n, shnum elf32 program = n + 1 := Nat.exists_eq_succ_of_ne_zero hodd.1
    rw [sectionNamed, hn, List.range'_succ, List.findSome?_cons, hnamed, if_pos hname]
  · next hname =>
    exact List.findSome?_eq_none_iff.mpr fun i _ => by rw [hnamed, if_neg hname]

theorem Regular.searchIn_odd (hname : flagsHigh program < flagsLow program)
    (htext : 0 ∈ program.drop (firstName program)) : SearchIn elf32 program strtabName := by
  refine ⟨h.headerField hL (by decide), fun i _ _ => ⟨h.shdrIn_first hL i, ?_, ?_, fun _ => ?_⟩⟩
  · rw [h.shdrAt_first hL]
    exact (h.sectionNameIn_first hL hodd).mpr hname
  · rw [h.shdrAt_first hL, h.nameAt_first hL]
    exact strIn_of_nul (by decide) htext
  · rw [h.shdrAt_first hL]
    exact h.firstField hL hodd (by decide)

end

/-! ## The global pointer -/

/-- `sh_link`: the string table of a symbol table. -/
def Layout.shLink (L : Layout) : Field := if L.width = 64 then (40, 4) else (24, 4)

section

variable (program : List (BitVec 8))

/-- The first symbol with a name in the file's symbol table, -/
def ownSymbol (name : List (BitVec 8)) : Option Nat :=
  match sectionTyped (layout program) program shtSymtab with
  | some table => (List.range' 0 (val program table (layout program).shSize / (layout program).symSize)).findSome?
      (symbolNamedAt (layout program) program table
        (shdrAt (layout program) program (val program table (layout program).shLink)) name)
  | none => none

/-- the address at which the file is to be entered, -/
def entryPoint : BitVec 64 := (BitVec.ofNat 32 (val program 0 (layout program).eEntry)).setWidth 64

/-- and the value that register GP is to have. -/
def globalPointer : BitVec 64 :=
  match ownSymbol program globalPointerName with
  | some symbol => BitVec.ofNat 64 (val program symbol (layout program).stValue)
  | none => entryPoint program

/-- `GetGlobalPointer` gives the symbol's value, and `run` the entry point if
there is no such symbol. -/
structure GlobalPointerRight (flag64bit : Bool) : Prop where
  symbol : ∀ symbol ∈ ownSymbol program globalPointerName,
    getGlobalPointer program flag64bit = .ok (BitVec.ofNat 64 (val program symbol (layout program).stValue))
  entryPoint : ownSymbol program globalPointerName = none → ∀ cpu,
    ∃ cpu', runGlobalPointer program flag64bit cpu = .ok cpu' ∧ cpu'.reg gp = entryPoint program

/-- The first program header and what it points to, taken for a symbol table
and its string table, give the right value. -/
structure OddRight : Prop where
  names : flagsHigh program < flagsLow program
  text : 0 ∈ program.drop (firstName program)
  present : NameIs program (firstName program) strtabName →
    SymbolSearchIn elf32 program (firstHeader program) (firstHeader program) globalPointerName
  value : ∀ symbol, NameIs program (firstName program) strtabName →
    symbolOf elf32 program (firstHeader program) (firstHeader program) globalPointerName = some symbol →
    FieldIn program symbol elf32.stValue ∧
      (BitVec.ofNat 32 (val program symbol elf32.stValue)).setWidth 64 = globalPointer program
  absent : (¬ NameIs program (firstName program) strtabName ∨
    symbolOf elf32 program (firstHeader program) (firstHeader program) globalPointerName = none) →
    globalPointer program = 0xFFFFFFFF

/-- When the other class's structures do no harm. -/
def RightByChance : Prop :=
  if byteAt program eiClass = elfclass64 then
    if Odd program then OddRight program else globalPointer program = 0xFFFFFFFF
  else
    62 ≤ program.length ∧ word program 60 2 = 0 ∧ globalPointer program = 0xFFFFFFFF

variable {program}

theorem getGlobalPointer_eq (flag64bit : Bool) (v : BitVec 64) : getGlobalPointer program flag64bit = .ok v ↔
    GlobalPointerIn (if flag64bit then elf32 else elf64) program ∧
      (globalPointerOf (if flag64bit then elf32 else elf64) program).setWidth 64 = v := by
  have hyields : Yields (getGlobalPointer program flag64bit)
      (GlobalPointerIn (if flag64bit then elf32 else elf64) program ∧ True)
      (· = (globalPointerOf (if flag64bit then elf32 else elf64) program).setWidth 64) := by
    cases flag64bit with
    | true => exact (getClassGlobalPointer_yields elf32 program).bind_eq fun _ => .ok _
    | false => exact (getClassGlobalPointer_yields elf64 program).bind_eq fun _ => .ok _
  constructor
  · intro hv
    obtain ⟨⟨hin, -⟩, hval⟩ := hyields.only v hv
    exact ⟨hin, hval.symm⟩
  · rintro ⟨hin, rfl⟩
    exact hyields.returns ⟨hin, trivial⟩

theorem WellFormed.is64BitElf (h : WellFormed program) :
    is64BitElf program = .ok (decide (byteAt program eiClass = elfclass64)) := by
  have hlong := h.long
  rw [Elf.is64BitElf, readByte_eq (by unfold eiClass; omega)]
  rfl

theorem WellFormed.getEntryPoint (h : WellFormed program) :
    getEntryPoint program (decide (byteAt program eiClass = elfclass64)) = .ok (entryPoint program) := by
  have hentry : readField program 0 (layout program).eEntry = .ok (val program 0 (layout program).eEntry) :=
    (readField_yields program 0 _).returns (fieldIn_of_le h.headerIn)
  unfold entryPoint
  unfold layout at hentry ⊢
  by_cases hc : byteAt program eiClass = elfclass64
  · rw [if_pos hc] at hentry ⊢
    rw [decide_eq_true hc, Elf.getEntryPoint, if_pos rfl, getElf64EntryPoint, getClassEntryPoint, hentry]
    rfl
  · rw [if_neg hc] at hentry ⊢
    rw [decide_eq_false hc, Elf.getEntryPoint, if_neg Bool.false_ne_true, getElf32EntryPoint,
      getClassEntryPoint, hentry]
    rfl

/-- `run` never finds the -1 it looks for: the value has 32 bits. -/
theorem runGlobalPointer_eq (h : WellFormed program) (cpu : RiscvCpu) :
    runGlobalPointer program (decide (byteAt program eiClass = elfclass64)) cpu =
      getGlobalPointer program (decide (byteAt program eiClass = elfclass64)) >>= fun v => .ok (cpu.setReg gp v) := by
  rw [runGlobalPointer, h.getEntryPoint, Except.ok_bind]
  cases hg : getGlobalPointer program (decide (byteAt program eiClass = elfclass64)) with
  | error e => rfl
  | ok v =>
    obtain ⟨-, rfl⟩ := (getGlobalPointer_eq _ v).mp hg
    have hne : ∀ w : BitVec 32, w.setWidth 64 ≠ -1 := fun w hw => by
      have hlt := w.isLt
      have hnat := congrArg BitVec.toNat hw
      rw [BitVec.toNat_setWidth_of_le (by decide), show (-1 : BitVec 64).toNat = 2 ^ 64 - 1 from rfl] at hnat
      omega
    rw [Except.ok_bind, if_neg (hne _)]
    rfl

theorem globalPointerRight_eq (h : WellFormed program) :
    GlobalPointerRight program (decide (byteAt program eiClass = elfclass64)) ↔
      getGlobalPointer program (decide (byteAt program eiClass = elfclass64)) = .ok (globalPointer program) := by
  unfold globalPointer
  constructor
  · intro hright
    cases hown : ownSymbol program globalPointerName with
    | some symbol => exact hright.symbol symbol hown
    | none =>
      obtain ⟨cpu', hrun, hreg⟩ := hright.entryPoint hown (RiscvCpu.new false 0)
      rw [runGlobalPointer_eq h] at hrun
      obtain ⟨v, hv, hset⟩ := Except.bind_ok_iff.mp hrun
      cases hset
      rw [hv, ← hreg, RiscvCpu.setReg_same]
  · intro hvalue
    refine ⟨fun symbol hown => ?_, fun hown cpu => ?_⟩
    · rw [hvalue, hown]
    · rw [hown] at hvalue
      exact ⟨_, by rw [runGlobalPointer_eq h, hvalue]; rfl, RiscvCpu.setReg_same cpu gp _⟩

theorem Regular.foundSymbol_odd (h : Regular program) (hL : layout program = elf64) (hodd : Odd program) :
    foundSymbol elf32 program globalPointerName = if NameIs program (firstName program) strtabName then
      symbolOf elf32 program (firstHeader program) (firstHeader program) globalPointerName else none := by
  unfold foundSymbol
  rw [h.sectionTyped_odd hL hodd, h.sectionNamed_odd hL hodd]
  split_ifs
  · rfl
  · rfl

/-- The file that the other class's structures find a global pointer in. -/
theorem Regular.oddRight_iff (h : Regular program) (hL : layout program = elf64) (hodd : Odd program) :
    GlobalPointerIn elf32 program ∧ (globalPointerOf elf32 program).setWidth 64 = globalPointer program ↔
      OddRight program := by
  have hfound := h.foundSymbol_odd hL hodd
  unfold GlobalPointerIn globalPointerOf
  constructor
  · rintro ⟨⟨hfind, hvalue⟩, hright⟩
    obtain ⟨hnames, htext⟩ := (h.typeSearchIn_odd hL hodd).mp hfind.table
    refine ⟨hnames, htext, fun hname => ?_, fun symbol hname hsymbol => ?_, fun habsent => ?_⟩
    · exact hfind.symbols _ (h.sectionTyped_odd hL hodd) _ (by rw [h.sectionNamed_odd hL hodd, if_pos hname]; rfl)
    · rw [if_pos hname, hsymbol] at hfound
      rw [hfound] at hright
      exact ⟨hvalue symbol hfound, hright⟩
    · have hnone : foundSymbol elf32 program globalPointerName = none := by
        rw [hfound]
        split
        · next hname => exact habsent.resolve_left fun hnot => hnot hname
        · rfl
      rw [hnone] at hright
      exact hright.symm
  · intro hright
    have hfind : FindIn elf32 program globalPointerName := by
      refine ⟨(h.typeSearchIn_odd hL hodd).mpr ⟨hright.names, hright.text⟩, fun table htable => ?_,
        fun table htable strings hstrings => ?_⟩
      · rw [h.sectionTyped_odd hL hodd] at htable
        cases htable
        exact ⟨h.firstField hL hodd (by decide), h.searchIn_odd hL hodd hright.names hright.text⟩
      · rw [h.sectionTyped_odd hL hodd] at htable
        rw [h.sectionNamed_odd hL hodd] at hstrings
        cases htable
        split at hstrings
        · next hname =>
          cases hstrings
          exact hright.present hname
        · cases hstrings
    cases hsymbol : foundSymbol elf32 program globalPointerName with
    | none =>
      refine ⟨⟨hfind, fun symbol hs => absurd hs (by simp)⟩, (hright.absent ?_).symm⟩
      rw [hfound] at hsymbol
      split at hsymbol
      · exact .inr hsymbol
      · next hname => exact .inl hname
    | some symbol =>
      rw [hfound] at hsymbol
      split at hsymbol
      · next hname =>
        obtain ⟨hin, hvalue⟩ := hright.value symbol hname hsymbol
        refine ⟨⟨hfind, fun s hs => ?_⟩, hvalue⟩
        cases hs
        exact hin
      · cases hsymbol

/-- **`GetGlobalPointer` is right by chance only.** -/
theorem getGlobalPointer_iff (h : Regular program) {flag64bit : Bool} (hflag : is64BitElf program = .ok flag64bit) :
    GlobalPointerRight program flag64bit ↔ RightByChance program := by
  rw [h.toWellFormed.is64BitElf] at hflag
  cases hflag
  rw [globalPointerRight_eq h.toWellFormed, getGlobalPointer_eq]
  unfold RightByChance
  by_cases hc : byteAt program eiClass = elfclass64
  · have hL : layout program = elf64 := if_pos hc
    rw [decide_eq_true hc, if_pos hc, if_pos rfl]
    by_cases hodd : Odd program
    · rw [if_pos hodd]
      exact h.oddRight_iff hL hodd
    · rw [if_neg hodd, globalPointerOf_untyped (h.sectionTyped_first hL hodd)]
      exact (and_iff_right (h.globalPointerIn_elf32 hL hodd)).trans eq_comm
  · have hL : layout program = elf32 := if_neg hc
    rw [decide_eq_false hc, if_neg hc, if_neg Bool.false_ne_true, h.globalPointerIn_elf64 hL, and_assoc]
    refine and_congr_right fun _ => and_congr_right fun hzero => ?_
    rw [globalPointerOf_elf64 hzero]
    exact eq_comm

end

/-- A symbol of class 64. -/
def sym64 (name value : Nat) : List (BitVec 8) := le 4 name ++ le 4 0 ++ le 8 value ++ le 8 0

/-- `".symtab"` and `".shstrtab"`. -/
def symtabName : List (BitVec 8) := [0x2e, 0x73, 0x79, 0x6d, 0x74, 0x61, 0x62]
def shstrtabName : List (BitVec 8) := [0x2e, 0x73, 0x68, 0x73, 0x74, 0x72, 0x74, 0x61, 0x62]

/-- A file of class 64 with a symbol for the global pointer. -/
def gpFile (value : Nat) : List (BitVec 8) :=
  header64 emRiscv 0x1000 64 120 1 4 3 ++ phdr64 376 0x1000 0 ++
    (shdr64 0 0 0 0 0 0 ++ shdr64 1 shtSymtab 0 376 48 2 ++ shdr64 9 3 0 451 19 0 ++ shdr64 17 3 0 424 27 0) ++
    (sym64 0 0 ++ sym64 1 value) ++
    ([0] ++ symtabName ++ [0] ++ strtabName ++ [0] ++ shstrtabName ++ [0]) ++ ([0] ++ globalPointerName ++ [0])

theorem gpFile_regular {value : Nat} (h : value = 0x2800 ∨ value = 0xFFFFFFFF) : Regular (gpFile value) where
  size := by rcases h with rfl | rfl <;> decide +kernel
  magic := by rcases h with rfl | rfl <;> decide
  elfClass := by rcases h with rfl | rfl <;> decide
  data := by rcases h with rfl | rfl <;> decide
  header := by rcases h with rfl | rfl <;> decide +kernel
  programHeaders := by rcases h with rfl | rfl <;> decide +kernel
  sectionHeaders := by rcases h with rfl | rfl <;> decide +kernel
  nameTable := by rcases h with rfl | rfl <;> decide
  names := by rcases h with rfl | rfl <;> decide
  shentsize := by rcases h with rfl | rfl <;> decide
  shoff := by rcases h with rfl | rfl <;> decide
  phoff := by rcases h with rfl | rfl <;> decide
  tables := by rcases h with rfl | rfl <;> decide

theorem getGlobalPointer_iff_chance : is64BitElf (gpFile 0xFFFFFFFF) = .ok true ∧
    GlobalPointerRight (gpFile 0xFFFFFFFF) true := by
  have hflag : is64BitElf (gpFile 0xFFFFFFFF) = .ok true := Except.eq_ok_of_toOption (by decide)
  refine ⟨hflag, (getGlobalPointer_iff (gpFile_regular (.inr rfl)) hflag).mpr ?_⟩
  unfold RightByChance
  rw [if_pos (by decide), if_neg (by decide)]
  decide

/-- The usual case: the symbol is 0x2800 and not found. -/
theorem getGlobalPointer_iff_missed : Regular (gpFile 0x2800) ∧ is64BitElf (gpFile 0x2800) = .ok true ∧
    getGlobalPointer (gpFile 0x2800) true = .ok 0xFFFFFFFF ∧ ¬ GlobalPointerRight (gpFile 0x2800) true := by
  have hvalue : getGlobalPointer (gpFile 0x2800) true = .ok 0xFFFFFFFF := Except.eq_ok_of_toOption (by decide +kernel)
  refine ⟨gpFile_regular (.inl rfl), Except.eq_ok_of_toOption (by decide), hvalue, fun hright => ?_⟩
  have hsymbol := hright.symbol 400 (by decide)
  rw [hvalue] at hsymbol
  exact absurd (Except.ok.inj hsymbol) (by decide)

end Elf

end RiscvEmulator
