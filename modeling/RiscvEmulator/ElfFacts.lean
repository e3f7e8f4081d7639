/-
What loading an ELF file does: when it returns, and which byte is then where.

Each function of the loader returns just when what it reads lies in the file
(`…_yields`). Together they say when the loader returns and that the memory
is then the prior one with the segments put over it one after another and
`.bss` cleared (`loadBitElfFile_yields`). `loadElfFile_places` reads this off
byte by byte for a well-formed file, `loadElfFile_safely` says which files at
all are loaded without harm.
-/
import Mathlib.Tactic.SplitIfs
import RiscvEmulator.Elf
import RiscvEmulator.MemoryFacts

namespace RiscvEmulator

namespace Elf

open Bytes (InArea)
open Except (Yields)
open MemoryWrapper (flat)
open Run (YieldsIn)

/-! ## Reading -/

/-- A field that lies in the file, -/
def FieldIn (program : List (BitVec 8)) (base : Nat) (f : Field) : Prop := base + f.1 + f.2 ≤ program.length

instance (program : List (BitVec 8)) (base : Nat) (f : Field) : Decidable (FieldIn program base f) :=
  inferInstanceAs (Decidable (_ ≤ _))

/-- and its value. -/
def val (program : List (BitVec 8)) (base : Nat) (f : Field) : Nat := word program (base + f.1) f.2

/-- A byte of the file. -/
def byteAt (program : List (BitVec 8)) (i : Nat) : BitVec 8 := program[i]?.getD 0

section

variable (program : List (BitVec 8))

theorem readField_yields (base : Nat) (f : Field) :
    Yields (readField program base f) (FieldIn program base f) (· = val program base f) := by
  unfold readField readWord
  exact (Yields.ite (fun _ => .ok _) fun _ => .error _).congr (by simp [FieldIn]) fun _ _ h => h

theorem byteAt_eq {i : Nat} (hi : i < program.length) : byteAt program i = program[i] := by
  rw [byteAt, List.getElem?_eq_getElem hi, Option.getD_some]

theorem readByte_yields (i : Nat) : Yields (readByte program i) (i < program.length) (· = byteAt program i) := by
  unfold readByte byteAt
  cases h : program[i]? with
  | none => exact (Yields.error _).congr (by simpa using h) fun _ _ h => h
  | some b =>
    obtain ⟨hi, -⟩ := List.getElem?_eq_some_iff.mp h
    exact (Yields.ok b).congr (iff_of_true trivial hi) fun _ _ h => h

/-- A name that `strcmp` reads no further than the file goes, -/
def StrIn : Nat → List (BitVec 8) → Prop
  | p, [] => p < program.length
  | p, c :: cs => p < program.length ∧ (byteAt program p = c → StrIn (p + 1) cs)

/-- and one that it finds equal: the text at `p`, up to its NUL. -/
def NameIs (p : Nat) (name : List (BitVec 8)) : Prop := (program.drop p).take (name.length + 1) = name ++ [0]

instance (p : Nat) (name : List (BitVec 8)) : Decidable (NameIs program p name) := inferInstanceAs (Decidable (_ = _))

theorem nameIs_nil {p : Nat} (hp : p < program.length) : NameIs program p [] ↔ byteAt program p = 0 := by
  rw [NameIs, List.drop_eq_getElem_cons hp, byteAt_eq program hp]
  simp only [List.length_nil, Nat.zero_add, List.take_succ_cons, List.take_zero, List.nil_append, List.cons.injEq,
    and_true]

theorem nameIs_cons {p : Nat} (hp : p < program.length) (c : BitVec 8) (cs : List (BitVec 8)) :
    NameIs program p (c :: cs) ↔ byteAt program p = c ∧ NameIs program (p + 1) cs := by
  rw [NameIs, List.drop_eq_getElem_cons hp, byteAt_eq program hp, NameIs]
  simp only [List.length_cons, List.take_succ_cons, List.cons_append, List.cons.injEq]

theorem strEqual_yields (p : Nat) (name : List (BitVec 8)) :
    Yields (strEqual program p name) (StrIn program p name) (· = decide (NameIs program p name)) := by
  induction name generalizing p with
  | nil =>
    refine ((readByte_yields program p).bind_eq (q := True) fun hp => ?_).congr (and_iff_left trivial) fun _ _ h => h
    rw [decide_eq_decide.mpr (nameIs_nil program hp)]
    exact .ok _
  | cons c cs ih =>
    refine ((readByte_yields program p).bind_eq fun hp => ?_).congr (Iff.rfl) fun _ _ h => h
    by_cases hc : byteAt program p = c
    · rw [if_pos hc, decide_eq_decide.mpr ((nameIs_cons program hp c cs).trans (and_iff_right hc))]
      exact (ih (p + 1)).congr (by simp [hc]) fun _ _ h => h
    · rw [if_neg hc, decide_eq_false fun h => hc ((nameIs_cons program hp c cs).mp h).1]
      exact (Yields.ok false).congr (by simp [hc]) fun _ _ h => h

end

/-! ## Sections -/

section

variable (L : Layout) (program : List (BitVec 8))

def shnum : Nat := val program 0 L.eShnum
def shstrndx : Nat := val program 0 L.eShstrndx

/-- The place of a section header. -/
def shdrAt (i : Nat) : Nat := val program 0 L.eShoff + val program 0 L.eShentsize * i

/-- It can be found. -/
def ShdrIn (i : Nat) : Prop :=
  FieldIn program 0 L.eShnum ∧ (i < shnum L program →
    FieldIn program 0 L.eShoff ∧ FieldIn program 0 L.eShentsize ∧ val program 0 L.eShentsize * i < 2 ^ 31)

/-- The place of a section's name. -/
def nameAt (shdr : Nat) : Nat :=
  val program (shdrAt L program (shstrndx L program)) L.shOffset + val program shdr L.shName

def SectionNameIn (shdr : Nat) : Prop :=
  FieldIn program 0 L.eShstrndx ∧ ShdrIn L program (shstrndx L program) ∧ shstrndx L program < shnum L program ∧
    FieldIn program (shdrAt L program (shstrndx L program)) L.shOffset ∧ FieldIn program shdr L.shName

theorem entryAt_yields (offset size index : Nat) :
    Yields (entryAt offset size index) (size * index < 2 ^ 31) (· = offset + size * index) := by
  unfold entryAt
  exact (Yields.ite (fun _ => .ok _) fun _ => .error _).congr (by simp) fun _ _ h => h

theorem getShdr_yields (i : Nat) : Yields (getShdr L program i) (ShdrIn L program i)
    (· = if i < shnum L program then some (shdrAt L program i) else none) := by
  unfold getShdr ShdrIn
  refine (readField_yields program 0 L.eShnum).bind_eq fun _ => ?_
  by_cases hi : i < shnum L program
  · rw [if_neg (show ¬ i ≥ val program 0 L.eShnum from Nat.not_le.mpr hi), if_pos hi]
    refine .of_iff ?_ ((readField_yields program 0 L.eShoff).bind_eq fun _ =>
      (readField_yields program 0 L.eShentsize).bind_eq fun _ => (entryAt_yields _ _ i).bind_eq fun _ => .ok _)
    simp only [hi, forall_const, and_true]
  · rw [if_pos (show i ≥ val program 0 L.eShnum from Nat.not_lt.mp hi), if_neg hi]
    exact .of_iff (iff_of_true (fun h => absurd h hi) trivial) (.ok _)

theorem getSectionName_yields (shdr : Nat) :
    Yields (getSectionName L program shdr) (SectionNameIn L program shdr) (· = nameAt L program shdr) := by
  unfold getSectionName SectionNameIn
  refine (readField_yields program 0 L.eShstrndx).bind_eq fun _ => (getShdr_yields L program _).bind_eq fun _ => ?_
  rw [show val program 0 L.eShstrndx = shstrndx L program from rfl]
  by_cases hi : shstrndx L program < shnum L program
  · rw [if_pos hi]
    refine .of_iff ?_ ((readField_yields program _ L.shOffset).bind_eq fun _ =>
      (readField_yields program shdr L.shName).bind_eq fun _ => .ok _)
    simp only [hi, true_and, and_true]
  · rw [if_neg hi]
    exact .of_iff (iff_of_false (fun h => hi h.1) id) (.error _)

/-- A section header with a name, if it is the `i`-th. -/
def namedAt (name : List (BitVec 8)) (i : Nat) : Option Nat :=
  if NameIs program (nameAt L program (shdrAt L program i)) name then some (shdrAt L program i) else none

def NamedIn (name : List (BitVec 8)) (i : Nat) : Prop :=
  ShdrIn L program i ∧ SectionNameIn L program (shdrAt L program i) ∧
    StrIn program (nameAt L program (shdrAt L program i)) name ∧
    (NameIs program (nameAt L program (shdrAt L program i)) name → FieldIn program (shdrAt L program i) L.shOffset)

theorem shdrNamed_yields (name : List (BitVec 8)) {i : Nat} (hi : i < shnum L program) :
    Yields (shdrNamed L program name i) (NamedIn L program name i) (· = namedAt L program name i) := by
  unfold shdrNamed NamedIn namedAt
  refine (getShdr_yields L program i).bind_eq fun _ => ?_
  rw [if_pos hi]
  refine (getSectionName_yields L program _).bind_eq fun _ => (strEqual_yields program _ name).bind_eq fun _ => ?_
  by_cases hn : NameIs program (nameAt L program (shdrAt L program i)) name
  · rw [decide_eq_true hn, if_pos rfl, if_pos hn]
    exact .of_iff (by simp [hn]) ((readField_yields program _ L.shOffset).bind_eq fun _ => .ok _)
  · rw [decide_eq_false hn, if_neg Bool.false_ne_true, if_neg hn]
    exact .of_iff (by simp [hn]) (.ok _)

/-- The first section header with a name, -/
def sectionNamed (name : List (BitVec 8)) : Option Nat :=
  (List.range' 0 (shnum L program)).findSome? (namedAt L program name)

/-- and what is looked at to find it. -/
def SearchIn (name : List (BitVec 8)) : Prop :=
  FieldIn program 0 L.eShnum ∧
    ∀ i < shnum L program, (∀ j < i, namedAt L program name j = none) → NamedIn L program name i

theorem searchShdrNamed_yields (name : List (BitVec 8)) :
    Yields (searchShdrNamed L program name) (SearchIn L program name) (· = sectionNamed L program name) := by
  unfold searchShdrNamed SearchIn
  refine (readField_yields program 0 L.eShnum).bind_eq fun _ => ?_
  refine .of_iff ?_ (Run.searchFrom_yields _ 0 fun k _ hk =>
    shdrNamed_yields L program name (Nat.lt_of_lt_of_eq hk (Nat.zero_add _)))
  simp only [Nat.zero_add]
  exact Iff.rfl

end

/-! ## Loading -/

section

variable (L : Layout) (program : List (BitVec 8))

/-- The place of a program header. -/
def phdrAt (i : Nat) : Nat := val program 0 L.ePhoff + val program 0 L.ePhentsize * i

/-- A segment: where its bytes go, where they are in the file, and how many. -/
structure Segment where
  vaddr : Nat
  offset : Nat
  filesz : Nat
  deriving DecidableEq

/-- What a program header says. -/
def segmentAt (i : Nat) : Segment where
  vaddr := val program (phdrAt L program i) L.pVaddr
  offset := val program (phdrAt L program i) L.pOffset
  filesz := val program (phdrAt L program i) L.pFilesz

def isLoad (i : Nat) : Prop := val program (phdrAt L program i) L.pType = ptLoad

instance (i : Nat) : Decidable (isLoad L program i) := inferInstanceAs (Decidable (_ = _))

/-- The file has the header, and the segment if it is to be loaded. -/
structure SegmentIn (i : Nat) : Prop where
  table : FieldIn program 0 L.ePhoff ∧ FieldIn program 0 L.ePhentsize ∧ val program 0 L.ePhentsize * i < 2 ^ 31
  type : FieldIn program (phdrAt L program i) L.pType
  fields : isLoad L program i → FieldIn program (phdrAt L program i) L.pVaddr ∧
    FieldIn program (phdrAt L program i) L.pOffset ∧ FieldIn program (phdrAt L program i) L.pFilesz
  size : isLoad L program i → (segmentAt L program i).filesz < 2 ^ 32
  bytes : isLoad L program i → ∀ k < (segmentAt L program i).filesz,
    ((segmentAt L program i).offset + k) % 2 ^ L.width < program.length

/-- The memory with a segment put over it. -/
def withSegment (x : Segment) (s : Bytes.Store 32) : Bytes.Store 32 :=
  Bytes.fill s (BitVec.ofNat 32 x.vaddr) 1 (fun k => byteAt program ((x.offset + k) % 2 ^ L.width)) x.filesz

def afterHeader (i : Nat) (s : Bytes.Store 32) : Bytes.Store 32 :=
  if isLoad L program i then withSegment L program (segmentAt L program i) s else s

/-- The memory after the first program headers. -/
def afterHeaders : Nat → Bytes.Store 32 → Bytes.Store 32
  | 0, s => s
  | n + 1, s => afterHeader L program n (afterHeaders n s)

/-- Where a section goes in memory, -/
def startOf (shdr : Nat) : Nat := val program shdr L.shAddr
def sizeOf (shdr : Nat) : Nat := val program shdr L.shSize

/-- and where the class's arithmetic takes it to end. -/
def endOf (shdr : Nat) : Nat := (startOf L program shdr + sizeOf L program shdr) % 2 ^ L.width

/-- The memory with a section cleared, as the 32-bit counter counts. -/
def withCleared (shdr : Nat) (s : Bytes.Store 32) : Bytes.Store 32 :=
  Bytes.fill s (BitVec.ofNat 32 (startOf L program shdr)) 1 (fun _ => (0 : BitVec 8))
    (endOf L program shdr - startOf L program shdr % 2 ^ 32)

def afterBss (s : Bytes.Store 32) : Bytes.Store 32 :=
  match sectionNamed L program bssName with
  | none => s
  | some shdr => withCleared L program shdr s

/-- The counter reaches the end of a section. -/
def ClearIn (shdr : Nat) : Prop :=
  FieldIn program shdr L.shAddr ∧ FieldIn program shdr L.shSize ∧ endOf L program shdr < 2 ^ 32

def BssIn : Prop :=
  SearchIn L program bssName ∧ ∀ shdr, sectionNamed L program bssName = some shdr → ClearIn L program shdr

/-- What the loader reads is in the file, and its counters reach their bounds. -/
structure Loadable : Prop where
  phnum : FieldIn program 0 L.ePhnum
  segments : ∀ i < val program 0 L.ePhnum, SegmentIn L program i
  bss : BssIn L program

/-- The memory when it is done. -/
def afterLoad (s : Bytes.Store 32) : Bytes.Store 32 :=
  afterBss L program (afterHeaders L program (val program 0 L.ePhnum) s)

section

variable {L program} (hL : 32 ≤ L.width)

include hL

theorem flat_ofNat_mod (x : Nat) : flat (BitVec.ofNat 64 (x % 2 ^ L.width)) = BitVec.ofNat 32 x := by
  have hd : 2 ^ 32 ∣ 2 ^ L.width := Nat.pow_dvd_pow 2 hL
  have hd' : 2 ^ 32 ∣ 2 ^ 64 := Nat.pow_dvd_pow 2 (by decide)
  apply BitVec.eq_of_toNat_eq
  rw [flat, BitVec.toNat_setWidth, BitVec.toNat_ofNat, BitVec.toNat_ofNat, Nat.mod_mod_of_dvd _ hd',
    Nat.mod_mod_of_dvd _ hd]

theorem loadByte_yields (x : Segment) {s : Bytes.Store 32} {k : Nat} {m : MemoryWrapper}
    (hm : m.bytes = withSegment L program { x with filesz := k } s) :
    Yields (loadByte L program x.offset x.vaddr k m) ((x.offset + k) % 2 ^ L.width < program.length)
      (·.bytes = withSegment L program { x with filesz := k + 1 } s) := by
  unfold loadByte
  refine .of_iff (and_true _).symm.to_iff ((readByte_yields program _).bind_eq fun _ => ?_)
  obtain ⟨m', hwrite, hbytes⟩ := m.writeByte_bytes (BitVec.ofNat 64 ((x.vaddr + k) % 2 ^ L.width))
    (byteAt program ((x.offset + k) % 2 ^ L.width))
  rw [hwrite]
  refine (Yields.ok m').congr Iff.rfl fun a _ ha => ?_
  rw [ha, hbytes, hm, flat_ofNat_mod hL, BitVec.ofNat_add, withSegment, withSegment, Bytes.fill, Nat.one_mul]

/-- The part of a round that is for a segment to be loaded. -/
theorem loadSegment_yields (i : Nat) {s : Bytes.Store 32} {m : MemoryWrapper} (hm : m.bytes = s) :
    YieldsIn (2 ^ 32 + 1) Stop.outOfFuel
      (fun fuel => do
        let vaddr ← readField program (phdrAt L program i) L.pVaddr
        let offset ← readField program (phdrAt L program i) L.pOffset
        let filesz ← readField program (phdrAt L program i) L.pFilesz
        Run.countUp 32 .outOfFuel filesz (loadByte L program offset vaddr) fuel 0 m)
      (FieldIn program (phdrAt L program i) L.pVaddr ∧ FieldIn program (phdrAt L program i) L.pOffset ∧
        FieldIn program (phdrAt L program i) L.pFilesz ∧ (segmentAt L program i).filesz < 2 ^ 32 ∧
        ∀ k, 0 ≤ k → k < (segmentAt L program i).filesz →
          ((segmentAt L program i).offset + k) % 2 ^ L.width < program.length)
      (·.bytes = withSegment L program (segmentAt L program i) s) := by
  have hloop : YieldsIn (2 ^ 32 + 1) Stop.outOfFuel (fun fuel => Run.countUp 32 .outOfFuel
      (segmentAt L program i).filesz (loadByte L program (segmentAt L program i).offset (segmentAt L program i).vaddr)
      fuel 0 m) _ _ :=
    YieldsIn.countUp (I := fun k m => m.bytes = withSegment L program { segmentAt L program i with filesz := k } s)
      (fun k m hm => loadByte_yields hL (segmentAt L program i) hm) (by decide) hm
  rw [Nat.max_eq_right (Nat.zero_le _)] at hloop
  exact .bind_eq (readField_yields program _ L.pVaddr) fun _ => .bind_eq (readField_yields program _ L.pOffset) fun _ =>
    .bind_eq (readField_yields program _ L.pFilesz) fun _ => hloop

theorem loadHeader_yields (i : Nat) {s : Bytes.Store 32} {m : MemoryWrapper} (hm : m.bytes = s) :
    YieldsIn (2 ^ 32 + 1) Stop.outOfFuel (fun fuel => loadHeader L program fuel i m) (SegmentIn L program i)
      (·.bytes = afterHeader L program i s) := by
  unfold loadHeader afterHeader
  have hround := YieldsIn.ite (c := isLoad L program i)
    (R := fun a => a.bytes = if isLoad L program i then withSegment L program (segmentAt L program i) s else s)
    (fun hload => (loadSegment_yields hL i hm).congr Iff.rfl fun a _ ha => by rw [if_pos hload]; exact ha)
    (fun hload => (YieldsIn.of_yields (Yields.ok m)).congr Iff.rfl fun a _ ha => by rw [if_neg hload, ha]; exact hm)
  refine .of_iff ⟨?_, ?_⟩ (.bind_eq (readField_yields program 0 L.ePhoff) fun _ =>
    .bind_eq (readField_yields program 0 L.ePhentsize) fun _ => .bind_eq (entryAt_yields _ _ i) fun _ =>
      .bind_eq (readField_yields program _ L.pType) fun _ => hround)
  · intro h
    refine ⟨h.table.1, h.table.2.1, h.table.2.2, h.type, ?_⟩
    split
    · next hload =>
      obtain ⟨hvaddr, hoffset, hfilesz⟩ := h.fields hload
      exact ⟨hvaddr, hoffset, hfilesz, h.size hload, fun k _ => h.bytes hload k⟩
    · exact trivial
  · rintro ⟨hphoff, hphentsize, htable, htype, hrest⟩
    refine ⟨⟨hphoff, hphentsize, htable⟩, htype, fun hload => ?_, fun hload => ?_, fun hload k hk => ?_⟩
    all_goals
      rw [if_pos hload] at hrest
      obtain ⟨hvaddr, hoffset, hfilesz, hsize, hbytes⟩ := hrest
    · exact ⟨hvaddr, hoffset, hfilesz⟩
    · exact hsize
    · exact hbytes k (Nat.zero_le k) hk

theorem loadHeaders_yields (n : Nat) (m : MemoryWrapper) :
    YieldsIn (2 ^ 32 + 1) Stop.outOfFuel (fun fuel => Run.rounds (loadHeader L program fuel) n m)
      (∀ i < n, SegmentIn L program i) (·.bytes = afterHeaders L program n m.bytes) :=
  YieldsIn.rounds (I := fun i (a : MemoryWrapper) => a.bytes = afterHeaders L program i m.bytes) n rfl
    fun i _ _ ha => loadHeader_yields hL i ha

omit hL in
theorem clearByte_yields {start i : Nat} (hi : start % 2 ^ 32 ≤ i) {s : Bytes.Store 32} {m : MemoryWrapper}
    (hm : m.bytes = Bytes.fill s (BitVec.ofNat 32 start) 1 (fun _ => (0 : BitVec 8)) (i - start % 2 ^ 32)) :
    Yields (clearByte i m) True
      (·.bytes = Bytes.fill s (BitVec.ofNat 32 start) 1 (fun _ => (0 : BitVec 8)) (i + 1 - start % 2 ^ 32)) := by
  unfold clearByte
  obtain ⟨m', hwrite, hbytes⟩ := m.writeByte_bytes (BitVec.ofNat 64 i) 0
  rw [hwrite]
  refine (Yields.ok m').congr Iff.rfl fun a _ ha => ?_
  have hplace : flat (BitVec.ofNat 64 i) = BitVec.ofNat 32 start + BitVec.ofNat 32 (i - start % 2 ^ 32) := by
    apply BitVec.eq_of_toNat_eq
    rw [flat, BitVec.toNat_setWidth, BitVec.toNat_ofNat, BitVec.toNat_add, BitVec.toNat_ofNat, BitVec.toNat_ofNat]
    omega
  rw [ha, hbytes, hm, hplace, Nat.sub_add_comm hi, Bytes.fill, Nat.one_mul]

omit hL in
theorem clearBss_yields (m : MemoryWrapper) :
    YieldsIn (2 ^ 32 + 1) Stop.outOfFuel (fun fuel => clearBss L program fuel m) (BssIn L program)
      (·.bytes = afterBss L program m.bytes) := by
  unfold clearBss BssIn afterBss
  refine .bind_eq (searchShdrNamed_yields L program bssName) fun _ => ?_
  cases sectionNamed L program bssName with
  | none =>
    exact (YieldsIn.of_yields (Yields.ok m)).congr (by simp) fun a _ ha => by rw [ha]
  | some shdr =>
    have hloop : YieldsIn (2 ^ 32 + 1) Stop.outOfFuel (fun fuel => Run.countUp 32 .outOfFuel (endOf L program shdr)
        clearByte fuel (startOf L program shdr % 2 ^ 32) m) _ _ := YieldsIn.countUp
      (I := fun i (a : MemoryWrapper) => startOf L program shdr % 2 ^ 32 ≤ i ∧ a.bytes = Bytes.fill m.bytes
        (BitVec.ofNat 32 (startOf L program shdr)) 1 (fun _ => (0 : BitVec 8)) (i - startOf L program shdr % 2 ^ 32))
      (p := fun _ => True)
      (fun i a ha => (clearByte_yields ha.1 ha.2).congr Iff.rfl fun b _ hb => ⟨Nat.le_succ_of_le ha.1, hb⟩)
      (Nat.mod_lt _ (by decide)) ⟨Nat.le_refl _, by rw [Nat.sub_self]; rfl⟩
    refine (YieldsIn.bind_eq (readField_yields program shdr L.shAddr) fun _ =>
      .bind_eq (readField_yields program shdr L.shSize) fun _ => hloop).congr ?_ fun a _ ha => ?_
    · simp [ClearIn]
    · have hlen : max (startOf L program shdr % 2 ^ 32) (endOf L program shdr) - startOf L program shdr % 2 ^ 32 =
          endOf L program shdr - startOf L program shdr % 2 ^ 32 := by omega
      rw [ha.2, hlen]
      rfl

theorem loadBitElfFile_yields (m : MemoryWrapper) :
    YieldsIn (2 ^ 32 + 1) Stop.outOfFuel (fun fuel => loadBitElfFile L program fuel m) (Loadable L program)
      (·.bytes = afterLoad L program m.bytes) := by
  unfold loadBitElfFile
  refine .of_iff ⟨fun h => ⟨h.phnum, h.segments, h.bss⟩, fun h => ⟨h.1, h.2.1, h.2.2⟩⟩
    (.bind_eq (readField_yields program 0 L.ePhnum) fun _ => (loadHeaders_yields hL _ m).bind fun _ a ha =>
      (clearBss_yields a).congr Iff.rfl fun b _ hb => ?_)
  rw [hb, ha, afterLoad]

end

end

/-! ## The whole file -/

section

variable (program : List (BitVec 8))

/-- The structures of the file's class. -/
def layout : Layout := if byteAt program eiClass = elfclass64 then elf64 else elf32

theorem layout_cases : layout program = elf32 ∨ layout program = elf64 := by
  unfold layout
  split
  · exact .inr rfl
  · exact .inl rfl

theorem layout_width : (layout program).width = 32 ∨ (layout program).width = 64 := by
  rcases layout_cases program with hL | hL <;> rw [hL]
  · exact .inl rfl
  · exact .inr rfl

theorem layout_pow : 2 ^ 32 ≤ 2 ^ (layout program).width := by
  rcases layout_width program with hw | hw
  · rw [hw]
  · rw [hw]
    decide

variable {program}

theorem readByte_eq {i : Nat} (hi : i < program.length) : readByte program i = .ok (byteAt program i) :=
  (readByte_yields program i).returns hi

theorem readWord_eq {o n : Nat} (h : o + n ≤ program.length) : readWord program o n = .ok (word program o n) :=
  if_pos h

/-- A test of `IsRightElf`. -/
theorem test_ok {α : Type} {x : Except Stop α} {v : α} (hx : x = .ok v) {c : α → Prop} [DecidablePred c]
    {rest : Except Stop Bool} (hrest : ∃ right, rest = .ok right) :
    ∃ right, (x >>= fun a => if c a then .ok false else rest) = .ok right := by
  rw [hx, Except.ok_bind]
  split
  · exact ⟨false, rfl⟩
  · exact hrest

/-- `IsRightElf` looks at the first 20 bytes. -/
theorem isRightElf_ok (h : 20 ≤ program.length) : ∃ right, isRightElf program = .ok right :=
  have hbyte (i : Nat) (hi : i < 20) : readByte program i = .ok (byteAt program i) :=
    readByte_eq (Nat.lt_of_lt_of_le hi h)
  test_ok (hbyte 0 (by decide)) <| test_ok (hbyte 1 (by decide)) <| test_ok (hbyte 2 (by decide)) <|
    test_ok (hbyte 3 (by decide)) <| test_ok (hbyte 4 (by decide)) <| test_ok (hbyte 5 (by decide)) <|
    test_ok (hbyte 6 (by decide)) <| test_ok (hbyte 7 (by decide)) <| test_ok (readWord_eq (by omega)) <|
    test_ok (readWord_eq (by omega)) ⟨true, rfl⟩

/-- The file is loaded with the structures of its class. -/
theorem loadElfFile_eq (h : 20 ≤ program.length) (fuel : Nat) (m : MemoryWrapper) :
    loadElfFile program fuel m = loadBitElfFile (layout program) program fuel m >>= fun m =>
      .ok (decide (byteAt program eiClass = elfclass64), m) := by
  obtain ⟨right, hright⟩ := isRightElf_ok h
  have hclass : is64BitElf program = .ok (decide (byteAt program eiClass = elfclass64)) := by
    rw [is64BitElf, readByte_eq (by unfold eiClass; omega)]
    rfl
  rw [loadElfFile, hright, Except.ok_bind, hclass, Except.ok_bind, layout]
  by_cases hc : byteAt program eiClass = elfclass64
  · rw [if_pos hc, decide_eq_true hc]
    rfl
  · rw [if_neg hc, decide_eq_false hc]
    rfl

theorem loadElfFile_yields (h : 20 ≤ program.length) (m : MemoryWrapper) :
    YieldsIn (2 ^ 32 + 1) Stop.outOfFuel (fun fuel => loadElfFile program fuel m) (Loadable (layout program) program)
      (·.2.bytes = afterLoad (layout program) program m.bytes) := by
  have hwidth : 32 ≤ (layout program).width := by
    rcases layout_width program with hw | hw <;> omega
  have hload := @loadBitElfFile_yields (layout program) program hwidth m
  simp only [loadElfFile_eq h]
  refine .of_iff (and_true _).symm.to_iff (hload.bind fun _ a ha => ?_)
  exact (YieldsIn.of_yields (Yields.ok _)).congr Iff.rfl fun r _ hr => by rw [hr, ha]

end

/-! ## Well-formed files -/

/-- The sizes of the structures of a class. -/
def Layout.ehdrSize (L : Layout) : Nat := if L.width = 64 then 64 else 52
def Layout.phdrSize (L : Layout) : Nat := if L.width = 64 then 56 else 32
def Layout.shdrSize (L : Layout) : Nat := if L.width = 64 then 64 else 40

/-- `kMaxBinarySize`: `ReadFile` takes no more. -/
def kMaxBinarySize : Nat := 1024 * 1024 * 1024

section

variable (program : List (BitVec 8))

/-- A little-endian file with its headers and section names in it. -/
structure WellFormed : Prop where
  size : program.length ≤ kMaxBinarySize
  magic : program.take 4 = [0x7f, 0x45, 0x4c, 0x46]
  elfClass : byteAt program eiClass = elfclass32 ∨ byteAt program eiClass = elfclass64
  data : byteAt program 5 = 1
  header : (layout program).ehdrSize ≤ program.length
  programHeaders : ∀ i < val program 0 (layout program).ePhnum,
    phdrAt (layout program) program i + (layout program).phdrSize ≤ program.length
  sectionHeaders : ∀ i < shnum (layout program) program,
    shdrAt (layout program) program i + (layout program).shdrSize ≤ program.length
  nameTable : shnum (layout program) program = 0 ∨
    shstrndx (layout program) program < shnum (layout program) program
  names : ∀ i < shnum (layout program) program,
    0 ∈ program.drop (nameAt (layout program) program (shdrAt (layout program) program i))

/-- What is loaded is in the file and goes below 2^32. -/
structure Placeable : Prop extends WellFormed program where
  contents : ∀ i < val program 0 (layout program).ePhnum, isLoad (layout program) program i →
    (segmentAt (layout program) program i).offset + (segmentAt (layout program) program i).filesz ≤ program.length
  segments : ∀ i < val program 0 (layout program).ePhnum, isLoad (layout program) program i →
    (segmentAt (layout program) program i).vaddr + (segmentAt (layout program) program i).filesz ≤ 2 ^ 32
  bss : ∀ shdr, sectionNamed (layout program) program bssName = some shdr →
    startOf (layout program) program shdr + sizeOf (layout program) program shdr ≤ 2 ^ 32

variable {program}

/-- A structure in the file has its fields there. -/
theorem fieldIn_of_le {base : Nat} {size : Layout → Nat} {f : Layout → Field}
    (h : base + size (layout program) ≤ program.length) (h32 : (f elf32).1 + (f elf32).2 ≤ size elf32 := by decide)
    (h64 : (f elf64).1 + (f elf64).2 ≤ size elf64 := by decide) : FieldIn program base (f (layout program)) := by
  unfold FieldIn
  rcases layout_cases program with hL | hL <;> rw [hL] at h ⊢ <;> omega

/-- A name that ends in the file. -/
theorem strIn_of_nul {p : Nat} {name : List (BitVec 8)} (hname : 0 ∉ name) (h : 0 ∈ program.drop p) :
    StrIn program p name := by
  induction name generalizing p with
  | nil =>
    have hlen := List.length_pos_of_mem h
    rw [List.length_drop] at hlen
    exact Nat.lt_of_sub_pos hlen
  | cons c cs ih =>
    have hlen := List.length_pos_of_mem h
    rw [List.length_drop] at hlen
    have hp : p < program.length := Nat.lt_of_sub_pos hlen
    refine ⟨hp, fun hc => ih (fun hcs => hname (List.mem_cons_of_mem c hcs)) ?_⟩
    rw [List.drop_eq_getElem_cons hp, List.mem_cons, ← byteAt_eq program hp, hc] at h
    exact h.resolve_left fun h0 => hname (h0 ▸ List.mem_cons_self)

section

variable (hwf : WellFormed program)

include hwf

theorem WellFormed.headerIn : 0 + Layout.ehdrSize (layout program) ≤ program.length := by
  rw [Nat.zero_add]
  exact hwf.header

theorem WellFormed.long : 20 ≤ program.length := by
  have h := hwf.header
  rcases layout_cases program with hL | hL <;> rw [hL] at h
  · exact Nat.le_trans (by decide) h
  · exact Nat.le_trans (by decide) h

theorem WellFormed.shdrIn (i : Nat) : ShdrIn (layout program) program i := by
  refine ⟨fieldIn_of_le hwf.headerIn, fun hi => ⟨fieldIn_of_le hwf.headerIn, fieldIn_of_le hwf.headerIn, ?_⟩⟩
  have hplace := hwf.sectionHeaders i hi
  have hsize := hwf.size
  unfold shdrAt kMaxBinarySize at *
  omega

theorem WellFormed.sectionNameIn {i : Nat} (hi : i < shnum (layout program) program) :
    SectionNameIn (layout program) program (shdrAt (layout program) program i) := by
  have hstr : shstrndx (layout program) program < shnum (layout program) program := by
    rcases hwf.nameTable with h0 | h
    · omega
    · exact h
  exact ⟨fieldIn_of_le hwf.headerIn, hwf.shdrIn _, hstr, fieldIn_of_le (hwf.sectionHeaders _ hstr),
    fieldIn_of_le (hwf.sectionHeaders i hi)⟩

/-- Any section name can be searched for. -/
theorem WellFormed.searchIn {name : List (BitVec 8)} (hname : 0 ∉ name) : SearchIn (layout program) program name :=
  ⟨fieldIn_of_le hwf.headerIn, fun i hi _ => ⟨hwf.shdrIn i, hwf.sectionNameIn hi,
    strIn_of_nul hname (hwf.names i hi), fun _ => fieldIn_of_le (hwf.sectionHeaders i hi)⟩⟩

omit hwf in
/-- What a search finds is a section header of the file. -/
theorem sectionNamed_place {L : Layout} {name : List (BitVec 8)} {shdr : Nat}
    (h : sectionNamed L program name = some shdr) : ∃ i < shnum L program, shdr = shdrAt L program i := by
  obtain ⟨i, hi, hfound⟩ := List.exists_of_findSome?_eq_some h
  rw [List.mem_range'_1, Nat.zero_add] at hi
  unfold namedAt at hfound
  split at hfound
  · exact ⟨i, hi.2, (Option.some.inj hfound).symm⟩
  · cases hfound

end

end

/-! ## What is loaded where -/

section

variable (L : Layout) (program : List (BitVec 8))

def Segment.Covers (x : Segment) (b : BitVec 32) : Prop := x.vaddr ≤ b.toNat ∧ b.toNat < x.vaddr + x.filesz

instance (x : Segment) (b : BitVec 32) : Decidable (x.Covers b) := inferInstanceAs (Decidable (_ ∧ _))

/-- A segment, if it is to be loaded to a byte. -/
def segmentOver (b : BitVec 32) (i : Nat) : Option Segment :=
  if isLoad L program i ∧ (segmentAt L program i).Covers b then some (segmentAt L program i) else none

/-- The last one in table order of the first `n`. -/
def lastSegment (n : Nat) (b : BitVec 32) : Option Segment :=
  (List.range n).reverse.findSome? (segmentOver L program b)

/-- The memory with only the segments in it. -/
def segmentByte (n : Nat) (prior : Bytes.Store 32) (b : BitVec 32) : BitVec 8 :=
  match lastSegment L program n b with
  | some x => byteAt program (x.offset + (b.toNat - x.vaddr))
  | none => prior b

/-- The byte is in the first section named `.bss`. -/
def InBss (b : BitVec 32) : Prop :=
  ∃ shdr ∈ sectionNamed L program bssName,
    startOf L program shdr ≤ b.toNat ∧ b.toNat < startOf L program shdr + sizeOf L program shdr

instance (b : BitVec 32) : Decidable (InBss L program b) := inferInstanceAs (Decidable (∃ _ ∈ _, _))

variable {L program}

theorem segmentByte_succ (n : Nat) (s : Bytes.Store 32) (b : BitVec 32) :
    segmentByte L program (n + 1) s b = if isLoad L program n ∧ (segmentAt L program n).Covers b then
      byteAt program ((segmentAt L program n).offset + (b.toNat - (segmentAt L program n).vaddr))
    else segmentByte L program n s b := by
  unfold segmentByte lastSegment
  rw [List.range_succ, List.reverse_append, List.reverse_singleton, List.singleton_append, List.findSome?_cons]
  unfold segmentOver
  split_ifs
  · rfl
  · rfl

theorem withSegment_apply {x : Segment} (hL : 2 ^ 32 ≤ 2 ^ L.width) (hsize : program.length < 2 ^ 32)
    (hin : x.offset + x.filesz ≤ program.length) (hplace : x.vaddr + x.filesz ≤ 2 ^ 32) (s : Bytes.Store 32)
    (b : BitVec 32) : withSegment L program x s b =
      if x.Covers b then byteAt program (x.offset + (b.toNat - x.vaddr)) else s b := by
  rw [withSegment, Bytes.fill_byte _ _ _ (by omega)]
  by_cases hb : x.Covers b
  · rw [if_pos ((Bytes.inArea_ofNat hplace b).mpr hb), if_pos hb, Bytes.toNat_sub_ofNat hb.1]
    obtain ⟨hle, hlt⟩ := hb
    rw [Nat.mod_eq_of_lt (by omega)]
  · rw [if_neg fun h => hb ((Bytes.inArea_ofNat hplace b).mp h), if_neg hb]

end

section

variable {program : List (BitVec 8)} (hwf : Placeable program)

include hwf

theorem Placeable.length_lt : program.length < 2 ^ 32 := Nat.lt_of_le_of_lt hwf.size (by decide)

theorem Placeable.segmentIn {i : Nat} (hi : i < val program 0 (layout program).ePhnum) :
    SegmentIn (layout program) program i := by
  have hlen := hwf.length_lt
  have hw := layout_pow program
  refine ⟨⟨fieldIn_of_le hwf.headerIn, fieldIn_of_le hwf.headerIn, ?_⟩, fieldIn_of_le (hwf.programHeaders i hi),
    fun _ => ⟨fieldIn_of_le (hwf.programHeaders i hi), fieldIn_of_le (hwf.programHeaders i hi),
      fieldIn_of_le (hwf.programHeaders i hi)⟩, fun hload => ?_, fun hload k hk => ?_⟩
  · have hplace := hwf.programHeaders i hi
    have hsize := hwf.size
    unfold phdrAt kMaxBinarySize at *
    omega
  · have hin := hwf.contents i hi hload
    omega
  · have hin := hwf.contents i hi hload
    rw [Nat.mod_eq_of_lt (by omega)]
    omega

theorem Placeable.afterHeaders_apply {n : Nat} (hn : n ≤ val program 0 (layout program).ePhnum) (s : Bytes.Store 32)
    (b : BitVec 32) :
    afterHeaders (layout program) program n s b = segmentByte (layout program) program n s b := by
  induction n with
  | zero => rfl
  | succ n ih =>
    rw [afterHeaders, afterHeader, segmentByte_succ]
    by_cases hload : isLoad (layout program) program n
    · rw [if_pos hload, withSegment_apply (layout_pow program) hwf.length_lt (hwf.contents n hn hload)
        (hwf.segments n hn hload), ih (Nat.le_of_succ_le hn)]
      simp only [hload, true_and]
    · rw [if_neg hload, if_neg fun h => hload h.1, ih (Nat.le_of_succ_le hn)]

/-- What is to be at a byte after loading. -/
def placed (program : List (BitVec 8)) (prior : Bytes.Store 32) (b : BitVec 32) : BitVec 8 :=
  if InBss (layout program) program b then 0
  else segmentByte (layout program) program (val program 0 (layout program).ePhnum) prior b

/-- The section named `.bss` gets cleared: it ends before 2^32 itself, or its
end is a 32-bit address that wraps to 0 and there is nothing to clear. -/
def BssCleared (program : List (BitVec 8)) (prior : Bytes.Store 32) : Prop :=
  ∀ shdr, sectionNamed (layout program) program bssName = some shdr →
    startOf (layout program) program shdr + sizeOf (layout program) program shdr = 2 ^ 32 →
    (layout program).width = 32 ∧ ∀ b, InBss (layout program) program b →
      segmentByte (layout program) program (val program 0 (layout program).ePhnum) prior b = 0

omit hwf in
/-- A section that ends before 2^32 is cleared, -/
theorem withCleared_apply {L : Layout} (hL : 2 ^ 32 ≤ 2 ^ L.width) {shdr : Nat}
    (hend : startOf L program shdr + sizeOf L program shdr < 2 ^ 32) (s : Bytes.Store 32) (b : BitVec 32) :
    withCleared L program shdr s b = if startOf L program shdr ≤ b.toNat ∧
      b.toNat < startOf L program shdr + sizeOf L program shdr then 0 else s b := by
  have hlen : endOf L program shdr - startOf L program shdr % 2 ^ 32 = sizeOf L program shdr := by
    rw [endOf, Nat.mod_eq_of_lt (show _ < 2 ^ L.width by omega), Nat.mod_eq_of_lt (by omega)]
    omega
  rw [withCleared, hlen, Bytes.fill_byte _ _ _ (by omega)]
  exact if_congr (Bytes.inArea_ofNat (Nat.le_of_lt hend) b) rfl rfl

omit hwf in
/-- and in a class of 32 bits one that ends there is not. -/
theorem withCleared_wrap {L : Layout} (hL : L.width = 32) {shdr : Nat}
    (hend : startOf L program shdr + sizeOf L program shdr = 2 ^ 32) (s : Bytes.Store 32) :
    withCleared L program shdr s = s := by
  have hlen : endOf L program shdr - startOf L program shdr % 2 ^ 32 = 0 := by
    rw [endOf, hend, hL, Nat.mod_self, Nat.zero_sub]
  rw [withCleared, hlen]
  rfl

omit hwf in
theorem inBss_some {L : Layout} {shdr : Nat} (h : sectionNamed L program bssName = some shdr) (b : BitVec 32) :
    InBss L program b ↔ startOf L program shdr ≤ b.toNat ∧
      b.toNat < startOf L program shdr + sizeOf L program shdr := by
  simp [InBss, h]

theorem Placeable.clearIn {shdr : Nat} (h : sectionNamed (layout program) program bssName = some shdr)
    (hend : endOf (layout program) program shdr < 2 ^ 32) : ClearIn (layout program) program shdr := by
  obtain ⟨i, hi, rfl⟩ := sectionNamed_place h
  exact ⟨fieldIn_of_le (hwf.sectionHeaders i hi), fieldIn_of_le (hwf.sectionHeaders i hi), hend⟩

theorem Placeable.loadable {prior : Bytes.Store 32} (hbss : BssCleared program prior) :
    Loadable (layout program) program := by
  refine ⟨fieldIn_of_le hwf.headerIn, fun i hi => hwf.segmentIn hi, hwf.searchIn (by decide), fun shdr h => ?_⟩
  refine hwf.clearIn h ?_
  rcases Nat.lt_or_eq_of_le (hwf.bss shdr h) with hlt | heq
  · exact Nat.lt_of_le_of_lt (Nat.mod_le _ _) hlt
  · rw [endOf, heq, (hbss shdr h heq).1, Nat.mod_self]
    decide

theorem Placeable.afterLoad_apply {prior : Bytes.Store 32} (hbss : BssCleared program prior) (b : BitVec 32) :
    afterLoad (layout program) program prior b = placed program prior b := by
  unfold afterLoad afterBss placed
  cases h : sectionNamed (layout program) program bssName with
  | none =>
    rw [if_neg (by simp [InBss, h])]
    exact hwf.afterHeaders_apply (Nat.le_refl _) prior b
  | some shdr =>
    rcases Nat.lt_or_eq_of_le (hwf.bss shdr h) with hlt | heq
    · dsimp only
      rw [withCleared_apply (layout_pow program) hlt, hwf.afterHeaders_apply (Nat.le_refl _)]
      exact if_congr (inBss_some h b).symm rfl rfl
    · obtain ⟨hwidth, hzero⟩ := hbss shdr h heq
      dsimp only
      rw [withCleared_wrap hwidth heq, hwf.afterHeaders_apply (Nat.le_refl _)]
      split_ifs with hin
      · exact hzero b hin
      · rfl

/-- **Loading a well-formed file puts every segment where it belongs and
clears `.bss`**, unless `.bss` ends at 2^32: the counter never gets there, or
in a class of 32 bits the end wraps to 0 and nothing is cleared. -/
theorem loadElfFile_places (m : MemoryWrapper) :
    (∃ fuel r, loadElfFile program fuel m = .ok r ∧ ∀ b, r.2.bytes b = placed program m.bytes b) ↔
      BssCleared program m.bytes := by
  have hyields := loadElfFile_yields hwf.long m
  constructor
  · rintro ⟨fuel, r, hload, hplaced⟩ shdr h heq
    obtain ⟨hloadable, hbytes⟩ := hyields.only fuel r hload
    have hwidth : (layout program).width = 32 := by
      rcases layout_width program with hw | hw
      · exact hw
      · have hend := (hloadable.bss.2 shdr h).2.2
        rw [endOf, heq, hw] at hend
        exact absurd hend (by decide)
    refine ⟨hwidth, fun b hb => ?_⟩
    have hb' := hplaced b
    rw [hbytes, afterLoad, afterBss, h, placed, if_pos hb] at hb'
    dsimp only at hb'
    rw [withCleared_wrap hwidth heq, hwf.afterHeaders_apply (Nat.le_refl _)] at hb'
    exact hb'
  · intro hbss
    obtain ⟨r, hload⟩ := hyields.does (hwf.loadable hbss) _ (Nat.le_refl _)
    refine ⟨_, r, hload, fun b => ?_⟩
    rw [(hyields.only _ r hload).2, hwf.afterLoad_apply hbss]

end

/-- The bytes of a field, the lowest first. -/
def le : Nat → Nat → List (BitVec 8)
  | 0, _ => []
  | n + 1, x => BitVec.ofNat 8 x :: le n (x / 256)

/-- The header of a file of class 64, -/
def header64 (machine entry phoff shoff phnum shnum shstrndx : Nat) : List (BitVec 8) :=
  [0x7f, 0x45, 0x4c, 0x46, 2, 1, 1, 0] ++ le 8 0 ++ le 2 etExec ++ le 2 machine ++ le 4 1 ++ le 8 entry ++ le 8 phoff ++
    le 8 shoff ++ le 4 0 ++ le 2 64 ++ le 2 56 ++ le 2 phnum ++ le 2 64 ++ le 2 shnum ++ le 2 shstrndx

/-- a program header -/
def phdr64 (offset vaddr filesz : Nat) : List (BitVec 8) :=
  le 4 ptLoad ++ le 4 5 ++ le 8 offset ++ le 8 vaddr ++ le 8 vaddr ++ le 8 filesz ++ le 8 filesz ++ le 8 1

/-- and a section header. -/
def shdr64 (name type addr offset size link : Nat) : List (BitVec 8) :=
  le 4 name ++ le 4 type ++ le 8 0 ++ le 8 addr ++ le 8 offset ++ le 8 size ++ le 4 link ++ le 4 0 ++ le 8 1 ++ le 8 0

/-- A file with a segment of two bytes for 0x1000, and `.bss`. -/
def bssFile (machine addr size : Nat) : List (BitVec 8) :=
  header64 machine 0x1000 64 120 1 3 2 ++ phdr64 328 0x1000 2 ++
    (shdr64 0 0 0 0 0 0 ++ shdr64 1 8 addr 328 size 0 ++ shdr64 6 3 0 312 16 0) ++
    ([0] ++ bssName ++ [0, 0x2e, 0x73, 0x68, 0x73, 0x74, 0x72, 0x74, 0x61, 0x62, 0]) ++ [0x13, 0x05]

/-- Its `.bss` lies low, or ends at 2^32. -/
theorem bssFile_placeable {machine addr : Nat} (h : (machine = emRiscv ∨ machine = 62) ∧
    (addr = 0x2000 ∨ addr = 0xFFFFFFF0)) : Placeable (bssFile machine addr 0x10) where
  size := by obtain ⟨rfl | rfl, rfl | rfl⟩ := h <;> decide +kernel
  magic := by obtain ⟨rfl | rfl, rfl | rfl⟩ := h <;> decide
  elfClass := by obtain ⟨rfl | rfl, rfl | rfl⟩ := h <;> decide
  data := by obtain ⟨rfl | rfl, rfl | rfl⟩ := h <;> decide
  header := by obtain ⟨rfl | rfl, rfl | rfl⟩ := h <;> decide +kernel
  programHeaders := by obtain ⟨rfl | rfl, rfl | rfl⟩ := h <;> decide +kernel
  sectionHeaders := by obtain ⟨rfl | rfl, rfl | rfl⟩ := h <;> decide +kernel
  nameTable := by obtain ⟨rfl | rfl, rfl | rfl⟩ := h <;> decide
  names := by obtain ⟨rfl | rfl, rfl | rfl⟩ := h <;> decide
  contents := by obtain ⟨rfl | rfl, rfl | rfl⟩ := h <;> decide +kernel
  segments := by obtain ⟨rfl | rfl, rfl | rfl⟩ := h <;> decide
  bss := by
    have hbss : sectionNamed (layout (bssFile machine addr 0x10)) (bssFile machine addr 0x10) bssName = some 184 := by
      obtain ⟨rfl | rfl, rfl | rfl⟩ := h <;> decide
    rintro shdr hshdr
    rw [hbss] at hshdr
    cases hshdr
    obtain ⟨rfl | rfl, rfl | rfl⟩ := h <;> decide

theorem bssCleared_low {machine : Nat} (h : machine = emRiscv ∨ machine = 62) (prior : Bytes.Store 32) :
    BssCleared (bssFile machine 0x2000 0x10) prior := by
  intro shdr hshdr hend
  have hbss : sectionNamed (layout (bssFile machine 0x2000 0x10)) (bssFile machine 0x2000 0x10) bssName = some 184 := by
    rcases h with rfl | rfl <;> decide
  rw [hbss] at hshdr
  cases hshdr
  refine absurd hend ?_
  rcases h with rfl | rfl <;> decide

/-- The two bytes of the segment and `.bss`. -/
theorem loadElfFile_places_low : ∃ fuel r, loadElfFile (bssFile emRiscv 0x2000 0x10) fuel .new = .ok r ∧
    r.2.bytes 0x1001 = 0x05 ∧ r.2.bytes 0x200F = 0 := by
  obtain ⟨fuel, r, hload, hplaced⟩ :=
    (loadElfFile_places (bssFile_placeable ⟨.inl rfl, .inl rfl⟩) .new).mpr (bssCleared_low (.inl rfl) _)
  exact ⟨fuel, r, hload, (hplaced _).trans (by decide), (hplaced _).trans (by decide)⟩

/-- A counter of 32 bits does not reach 2^32. -/
theorem loadElfFile_places_high : Placeable (bssFile emRiscv 0xFFFFFFF0 0x10) ∧
    ¬ ∃ fuel r, loadElfFile (bssFile emRiscv 0xFFFFFFF0 0x10) fuel .new = .ok r := by
  refine ⟨bssFile_placeable ⟨.inl rfl, .inr rfl⟩, fun ⟨fuel, r, hload⟩ => ?_⟩
  obtain ⟨hloadable, -⟩ := (loadElfFile_yields (bssFile_placeable ⟨.inl rfl, .inr rfl⟩).long .new).only fuel r hload
  have hbss := hloadable.bss.2 184 (by decide)
  exact absurd hbss.2.2 (by decide)

/-! ## Any file -/

section

variable {L : Layout} {program : List (BitVec 8)} {s t : Bytes.Store 32} {b : BitVec 32}

theorem SegmentIn.agree {i : Nat} (h : SegmentIn L program i) (hb : s b = t b) :
    afterHeader L program i s b = afterHeader L program i t b := by
  unfold afterHeader
  split_ifs with hload
  · exact Bytes.fill_byte_congr hb _ _ (Nat.le_of_lt (h.size hload))
  · exact hb

/-- Where a segment begins is what the segments say, whatever was there. -/
theorem afterHeaders_written {n i : Nat} (h : ∀ i < n, SegmentIn L program i) (hi : i < n)
    (hload : isLoad L program i) (hpos : 0 < (segmentAt L program i).filesz) (s t : Bytes.Store 32) :
    afterHeaders L program n s (BitVec.ofNat 32 (segmentAt L program i).vaddr) =
      afterHeaders L program n t (BitVec.ofNat 32 (segmentAt L program i).vaddr) := by
  induction n with
  | zero => omega
  | succ n ih =>
    rcases Nat.lt_succ_iff_lt_or_eq.mp hi with hlt | rfl
    · exact (h n (by omega)).agree (ih (fun j hj => h j (by omega)) hlt)
    · have hsize := Nat.le_of_lt ((h i hi).size hload)
      simp only [afterHeaders, afterHeader, if_pos hload]
      rw [withSegment, withSegment, Bytes.fill_byte_first _ _ _ hsize hpos, Bytes.fill_byte_first _ _ _ hsize hpos]

theorem withCleared_agree {shdr : Nat} (h : ClearIn L program shdr) (hb : s b = t b) :
    withCleared L program shdr s b = withCleared L program shdr t b :=
  Bytes.fill_byte_congr hb _ _ (by have := h.2.2; omega)

variable (L program) in
/-- No segment has a byte and `.bss` has none, as the counters count. -/
def WritesNothing : Prop :=
  (∀ i < val program 0 L.ePhnum, isLoad L program i → (segmentAt L program i).filesz = 0) ∧
    ∀ shdr ∈ sectionNamed L program bssName, endOf L program shdr ≤ startOf L program shdr % 2 ^ 32

theorem WritesNothing.headers (h : WritesNothing L program) {n : Nat} (hn : n ≤ val program 0 L.ePhnum)
    (s : Bytes.Store 32) : afterHeaders L program n s = s := by
  induction n with
  | zero => rfl
  | succ n ih =>
    rw [afterHeaders, ih (by omega), afterHeader]
    split_ifs with hload
    · rw [withSegment, h.1 n hn hload]
      rfl
    · rfl

theorem WritesNothing.afterLoad (h : WritesNothing L program) (s : Bytes.Store 32) : afterLoad L program s = s := by
  rw [Elf.afterLoad, h.headers (Nat.le_refl _), afterBss]
  cases hbss : sectionNamed L program bssName with
  | none => rfl
  | some shdr =>
    dsimp only
    rw [withCleared, Nat.sub_eq_zero_of_le (h.2 shdr hbss)]
    rfl

/-- A file that writes something leaves some byte as it says. -/
theorem Loadable.written (h : Loadable L program) (hw : ¬ WritesNothing L program) :
    ∃ b, ∀ s t, afterLoad L program s b = afterLoad L program t b := by
  unfold Elf.afterLoad afterBss
  by_cases hsegments : ∀ i < val program 0 L.ePhnum, isLoad L program i → (segmentAt L program i).filesz = 0
  · obtain ⟨shdr, hbss, hpos⟩ : ∃ shdr, sectionNamed L program bssName = some shdr ∧
        ¬ endOf L program shdr ≤ startOf L program shdr % 2 ^ 32 := by
      by_contra hnone
      exact hw ⟨hsegments, fun shdr hbss => Classical.byContradiction fun hlt => hnone ⟨shdr, hbss, hlt⟩⟩
    have hclear := (h.bss.2 shdr hbss).2.2
    refine ⟨BitVec.ofNat 32 (startOf L program shdr), fun s t => ?_⟩
    rw [hbss]
    dsimp only
    rw [withCleared, withCleared, Bytes.fill_byte_first _ _ _ (by omega) (by omega),
      Bytes.fill_byte_first _ _ _ (by omega) (by omega)]
  · simp only [Classical.not_forall] at hsegments
    obtain ⟨i, hi, hload, hne⟩ := hsegments
    refine ⟨BitVec.ofNat 32 (segmentAt L program i).vaddr, fun s t => ?_⟩
    have hheaders := afterHeaders_written h.segments hi hload (Nat.pos_of_ne_zero hne) s t
    cases hbss : sectionNamed L program bssName with
    | none => exact hheaders
    | some shdr => exact withCleared_agree (h.bss.2 shdr hbss) hheaders

end

/-- A memory with a byte of one's choice. -/
theorem exists_memory (b : BitVec 32) (v : BitVec 8) : ∃ m : MemoryWrapper, m.bytes b = v := by
  obtain ⟨m, -, hm⟩ := MemoryWrapper.new.writeByte_bytes (b.setWidth 64) v
  refine ⟨m, ?_⟩
  rw [hm, MemoryWrapper.flat_setWidth, Bytes.store_apply _ b v (by decide), BitVec.sub_self,
    if_pos (by decide)]
  exact Bytes.byteOf_byte v

/-- Loading ends, without reading outside the file, and a file that
`IsRightElf` rejects leaves the memory as it was. -/
structure SafelyLoads (program : List (BitVec 8)) (m : MemoryWrapper) : Prop where
  terminates : ∃ fuel, loadElfFile program fuel m ≠ .error .outOfFuel
  inside : ∀ fuel c, loadElfFile program fuel m ≠ .error (.crash c)
  refused : isRightElf program = .ok false → ∀ fuel r, loadElfFile program fuel m = .ok r → r.2.bytes = m.bytes

/-- **What files are loaded safely**, into any memory. -/
theorem loadElfFile_safely {program : List (BitVec 8)} (h : 64 ≤ program.length) :
    (∀ m, SafelyLoads program m) ↔ Loadable (layout program) program ∧
      (isRightElf program = .ok true ∨ WritesNothing (layout program) program) := by
  have hlong : 20 ≤ program.length := Nat.le_trans (by decide) h
  have hyields := loadElfFile_yields hlong
  constructor
  · intro hsafe
    -- with the fuel that ends the run there is a result
    have hreturns : ∀ m, ∃ fuel r, loadElfFile program fuel m = .ok r := by
      intro m
      obtain ⟨fuel, hends⟩ := (hsafe m).terminates
      cases hrun : loadElfFile program fuel m with
      | ok r => exact ⟨fuel, r, hrun⟩
      | error e =>
        cases e with
        | outOfFuel => exact absurd hrun hends
        | crash c => exact absurd hrun ((hsafe m).inside fuel c)
    obtain ⟨fuel, r, hrun⟩ := hreturns .new
    have hloadable := ((hyields .new).only fuel r hrun).1
    refine ⟨hloadable, ?_⟩
    obtain ⟨right, hright⟩ := isRightElf_ok hlong
    cases right with
    | true => exact .inl hright
    | false =>
      by_contra hnot
      -- a byte that is written, in a memory that has another there
      obtain ⟨b, hb⟩ := hloadable.written fun hw => hnot (.inr hw)
      obtain ⟨m, hm⟩ := exists_memory b (afterLoad (layout program) program MemoryWrapper.new.bytes b + 1)
      obtain ⟨fuel, r, hrun⟩ := hreturns m
      have hkept := (hsafe m).refused hright fuel r hrun
      rw [((hyields m).only fuel r hrun).2] at hkept
      have hbyte := congrFun hkept b
      rw [hm, hb _ MemoryWrapper.new.bytes] at hbyte
      simp at hbyte
  · rintro ⟨hloadable, hright⟩ m
    refine ⟨?_, fun fuel c hrun => ?_, fun hwrong fuel r hrun => ?_⟩
    · obtain ⟨r, hrun⟩ := (hyields m).does hloadable _ (Nat.le_refl _)
      exact ⟨_, fun hout => by rw [hrun] at hout; cases hout⟩
    · cases (hyields m).stops hloadable fuel _ hrun
    · rw [((hyields m).only fuel r hrun).2]
      rcases hright with hright | hnothing
      · rw [hright] at hwrong
        cases hwrong
      · exact hnothing.afterLoad m.bytes

theorem loadElfFile_safely_low : 64 ≤ (bssFile emRiscv 0x2000 0x10).length ∧
    SafelyLoads (bssFile emRiscv 0x2000 0x10) .new :=
  ⟨by decide +kernel, (loadElfFile_safely (by decide +kernel)).mpr
    ⟨(bssFile_placeable ⟨.inl rfl, .inl rfl⟩).loadable (bssCleared_low (.inl rfl) fun _ => 0),
      .inl (Except.eq_ok_of_toOption (by decide +kernel))⟩ .new⟩

/-- A file cut off after its header. -/
def headerOnly : List (BitVec 8) := header64 emRiscv 0x1000 64 0 1 0 0

/-- Its program header is read behind its end. The other file is for another
machine, and loaded all the same. -/
theorem loadElfFile_safely_not :
    (headerOnly.length = 64 ∧ ∀ fuel m, loadElfFile headerOnly fuel m = .error (.crash .undefinedBehaviour)) ∧
    (isRightElf (bssFile 62 0x2000 0x10) = .ok false ∧ ∃ fuel r,
      loadElfFile (bssFile 62 0x2000 0x10) fuel .new = .ok r ∧
        r.2.bytes 0x1001 ≠ MemoryWrapper.new.bytes 0x1001) := by
  refine ⟨⟨by decide +kernel, fun fuel m => ?_⟩, Except.eq_ok_of_toOption (by decide +kernel), ?_⟩
  · have hclass : layout headerOnly = elf64 := if_pos (by decide)
    have hphnum : readField headerOnly 0 elf64.ePhnum = .ok 1 := Except.eq_ok_of_toOption (by decide)
    have hphoff : readField headerOnly 0 elf64.ePhoff = .ok 64 := Except.eq_ok_of_toOption (by decide)
    have hphentsize : readField headerOnly 0 elf64.ePhentsize = .ok 56 := Except.eq_ok_of_toOption (by decide)
    have houtside : readField headerOnly (64 + 56 * 0) elf64.pType = .error (.crash .undefinedBehaviour) := by
      unfold readField readWord
      exact if_neg (by decide)
    rw [loadElfFile_eq (by decide), hclass, loadBitElfFile, hphnum, Except.ok_bind, Run.rounds, Run.rounds,
      Except.ok_bind, loadHeader, hphoff, Except.ok_bind, hphentsize, Except.ok_bind, entryAt, if_pos (by decide),
      Except.ok_bind, houtside]
    rfl
  · have hwf := bssFile_placeable ⟨Or.inr (Eq.refl 62), .inl rfl⟩
    have hbss := bssCleared_low (.inr rfl) MemoryWrapper.new.bytes
    have hyields := loadElfFile_yields hwf.long .new
    obtain ⟨r, hload⟩ := hyields.does (hwf.loadable hbss) _ (Nat.le_refl _)
    refine ⟨_, r, hload, ?_⟩
    rw [(hyields.only _ r hload).2, hwf.afterLoad_apply hbss]
    decide

end Elf

end RiscvEmulator
