/-
Address translation over the flat memory, as the walk of `Lib.PageWalk`.

A `Regime` is no translation, an unsupported mode, or a `Table`. A
translation depends on the bytes of the entries it visits only (`Uses`,
`translate_congr`), marking a leaf accessed or dirty changes no translation
(`translate_mark`), and a page is mapped as a whole (`translate_add`). These
are what lets an access that is split and translated twice be read as one.
-/
import RiscvEmulator.Lib.Bytes
import RiscvEmulator.Lib.PageWalk

namespace RiscvEmulator

open PageWalk (Format)
open Bytes (byteOf)

/-! ## Entries in memory -/

/-- The entry at an address of the flat memory. -/
def entryAt (F : Format) (s : Bytes.Store 32) (a : Nat) : Nat :=
  (Bytes.load 64 s (BitVec.ofNat 32 a) F.pteBytes).toNat

/-- A leaf's low byte with A, and D for a write, set. -/
def marked (b : BitVec 8) (write : Bool) : BitVec 8 := b ||| (if write then 0xC0 else 0x40)

/-- The memory with the entry at `a` marked accessed, or dirty too. -/
def markAt (s : Bytes.Store 32) (a : BitVec 32) (write : Bool) : Bytes.Store 32 :=
  Function.update s a (marked (s a) write)

/-! ## Tables and regimes -/

/-- A page table: its format, the level and the page of its root, and the
width of the addresses it gives. Entries fill pages and fit a doubleword. -/
structure Table where
  F : Format
  top : Nat
  root : Nat
  paBits : Nat
  pteBytes_pos : 0 < F.pteBytes
  pteBytes_le : F.pteBytes ≤ 8
  pteBytes_dvd : F.pteBytes ∣ 2 ^ 12
  le_paBits : 12 ≤ paBits
  paBits_le : paBits ≤ 64

def Table.sv32 (root : Nat) : Table :=
  ⟨PageWalk.sv32, 1, root, 32, by decide, by decide, by decide, by decide, by decide⟩

def Table.sv39 (root : Nat) : Table :=
  ⟨PageWalk.sv39, 2, root, 56, by decide, by decide, by decide, by decide, by decide⟩

/-- Where an address leads: the physical address, and the byte address of
the leaf entry if a table was used. -/
structure Translation where
  address : BitVec 64
  leaf : Option (BitVec 32)
  deriving DecidableEq

/-- The memory after a translation: the leaf entry, if any, is marked. -/
def Translation.mark (t : Translation) (s : Bytes.Store 32) (write : Bool) : Bytes.Store 32 :=
  match t.leaf with
  | none => s
  | some a => markAt s a write

def Table.translate (T : Table) (s : Bytes.Store 32) (va : BitVec 64) : Option Translation :=
  (T.F.translate (entryAt T.F s) va.toNat T.top T.root).map fun lf =>
    ⟨BitVec.ofNat 64 (T.F.address va.toNat lf % 2 ^ T.paBits), some (BitVec.ofNat 32 lf.slot)⟩

theorem Table.translate_sv32 (root : Nat) (s : Bytes.Store 32) (va : BitVec 64) : (Table.sv32 root).translate s va =
    (PageWalk.sv32.translate (entryAt PageWalk.sv32 s) va.toNat 1 root).map fun lf =>
      ⟨BitVec.ofNat 64 (PageWalk.sv32.address va.toNat lf % 2 ^ 32), some (BitVec.ofNat 32 lf.slot)⟩ := rfl

theorem Table.translate_sv39 (root : Nat) (s : Bytes.Store 32) (va : BitVec 64) : (Table.sv39 root).translate s va =
    (PageWalk.sv39.translate (entryAt PageWalk.sv39 s) va.toNat 2 root).map fun lf =>
      ⟨BitVec.ofNat 64 (PageWalk.sv39.address va.toNat lf % 2 ^ 56), some (BitVec.ofNat 32 lf.slot)⟩ := rfl

inductive Regime where
  | bare
  | unsupported
  | table (T : Table)

namespace Regime

def translate : Regime → Bytes.Store 32 → BitVec 64 → Option Translation
  | bare, _, va => some ⟨va, none⟩
  | unsupported, _, _ => none
  | table T, s, va => T.translate s va

/-- `b` is a byte of an entry visited when `va` is translated. -/
def Uses : Regime → Bytes.Store 32 → BitVec 64 → BitVec 32 → Prop
  | table T, s, va, b =>
    ∃ a ∈ T.F.slots (entryAt T.F s) va.toNat T.top T.root, (b - BitVec.ofNat 32 a).toNat < T.F.pteBytes
  | _, _, _, _ => False

instance (R : Regime) (s : Bytes.Store 32) (va : BitVec 64) (b : BitVec 32) : Decidable (R.Uses s va b) :=
  match R with
  | bare => inferInstanceAs (Decidable False)
  | unsupported => inferInstanceAs (Decidable False)
  | table T => inferInstanceAs (Decidable (∃ a ∈ T.F.slots (entryAt T.F s) va.toNat T.top T.root,
      (b - BitVec.ofNat 32 a).toNat < T.F.pteBytes))

end Regime

/-! ## What a translation depends on -/

theorem entryAt_congr {F : Format} {s s' : Bytes.Store 32} {a : Nat} (hF : F.pteBytes ≤ 8)
    (h : ∀ b, (b - BitVec.ofNat 32 a).toNat < F.pteBytes → s' b = s b) : entryAt F s' a = entryAt F s a := by
  unfold entryAt
  rw [Bytes.load_congr fun j hj => h _ ?_]
  rw [Bytes.toNat_offset _ (by omega)]
  omega

/-- A memory whose entries are the same to the walk of an address
translates it alike, and through the same entries. -/
theorem Table.translate_same (T : Table) {s s' : Bytes.Store 32} {va : BitVec 64}
    (h : ∀ a ∈ T.F.slots (entryAt T.F s) va.toNat T.top T.root, T.F.Same (entryAt T.F s a) (entryAt T.F s' a)) :
    T.translate s' va = T.translate s va ∧ ∀ b, (Regime.table T).Uses s' va b ↔ (Regime.table T).Uses s va b := by
  refine ⟨?_, fun b => by simp only [Regime.Uses, (Format.walk_same h).2]⟩
  unfold translate
  rw [Format.translate_same h, Option.map_map]
  apply Option.map_congr
  intro lf hlf
  obtain ⟨hmem, hentry, -⟩ := Format.walk_some (Format.translate_some hlf).1
  simp only [Function.comp]
  rw [Format.address_same (hentry ▸ (h _ hmem).ppn)]

theorem Regime.translate_congr {R : Regime} {s s' : Bytes.Store 32} {va : BitVec 64}
    (h : ∀ b, R.Uses s va b → s' b = s b) :
    R.translate s' va = R.translate s va ∧ ∀ b, R.Uses s' va b ↔ R.Uses s va b := by
  cases R with
  | bare => exact ⟨rfl, fun _ => Iff.rfl⟩
  | unsupported => exact ⟨rfl, fun _ => Iff.rfl⟩
  | table T =>
    refine T.translate_same fun a ha => ?_
    rw [entryAt_congr T.pteBytes_le fun b hb => h b ⟨a, ha, hb⟩]
    exact Format.Same.refl _

/-! ## Marked leaves -/

theorem getLsbD_marked (b : BitVec 8) (write : Bool) {i : Nat} (hi : i < 8) :
    (marked b write).getLsbD i = (Format.mark b.toNat write).testBit i := by
  have h : ∀ (w : Bool) (i : Fin 8), (if w then 0xC0#8 else 0x40#8).getLsbD i =
      (if w then 0xC0 else 0x40 : Nat).testBit i := by decide
  rw [marked, Format.mark, BitVec.getLsbD_or, Nat.testBit_or, BitVec.testBit_toNat]
  exact congrArg _ (h write ⟨i, hi⟩)

/-- Marking the low byte of an entry marks the entry. -/
theorem entryAt_markAt_self {F : Format} (s : Bytes.Store 32) (a : Nat) (write : Bool) (h0 : 0 < F.pteBytes)
    (h8 : F.pteBytes ≤ 8) :
    entryAt F (markAt s (BitVec.ofNat 32 a) write) a = Format.mark (entryAt F s a) write := by
  have hbyte : ∀ j, 0 < j → j < 8 → BitVec.ofNat 32 a + BitVec.ofNat 32 j ≠ BitVec.ofNat 32 a := by
    intro j hj hj8 h
    have := congrArg (fun v => (v - BitVec.ofNat 32 a).toNat) h
    simp only [BitVec.sub_self, BitVec.toNat_zero] at this
    rw [Bytes.toNat_offset _ (by omega)] at this
    omega
  apply Nat.eq_of_testBit_eq
  intro i
  unfold entryAt Bytes.load
  rw [BitVec.testBit_toNat, Bytes.getLsbD_compose]
  by_cases hi : i < 8
  · rw [show i / 8 = 0 by omega, show i % 8 = i by omega, BitVec.add_zero, markAt, Function.update_self,
      getLsbD_marked _ _ hi, Format.mark, Format.mark, Nat.testBit_or, Nat.testBit_or, BitVec.testBit_toNat,
      BitVec.testBit_toNat, Bytes.getLsbD_compose, show i / 8 = 0 by omega, show i % 8 = i by omega, BitVec.add_zero]
    simp only [show i < 64 by omega, show i < 8 * F.pteBytes by omega, decide_true, Bool.true_and]
  · rw [Format.testBit_mark (by omega) (by omega), BitVec.testBit_toNat, Bytes.getLsbD_compose]
    by_cases hk : i < 8 * F.pteBytes
    · rw [markAt, Function.update_of_ne (hbyte (i / 8) (by omega) (by omega))]
    · simp only [hk, decide_false, Bool.and_false, Bool.false_and]

/-- Entries do not overlap, so marking one leaves the others as they are. -/
theorem entryAt_markAt_of_ne {F : Format} (s : Bytes.Store 32) {a a' : Nat} (write : Bool) (h8 : F.pteBytes ≤ 8)
    (hF : F.pteBytes ∣ 2 ^ 12) (ha : F.pteBytes ∣ a) (ha' : F.pteBytes ∣ a')
    (hne : BitVec.ofNat 32 a ≠ BitVec.ofNat 32 a') :
    entryAt F (markAt s (BitVec.ofNat 32 a') write) a = entryAt F s a := by
  refine entryAt_congr h8 fun b hb => Function.update_of_ne ?_ _ _
  rintro rfl
  have h32 : F.pteBytes ∣ 2 ^ 32 := Nat.dvd_trans hF (by decide)
  have hd : F.pteBytes ∣ (BitVec.ofNat 32 a' - BitVec.ofNat 32 a).toNat := by
    rw [BitVec.toNat_sub, BitVec.toNat_ofNat, BitVec.toNat_ofNat, Nat.dvd_mod_iff h32]
    exact Nat.dvd_add (Nat.dvd_sub h32 ((Nat.dvd_mod_iff h32).mpr ha)) ((Nat.dvd_mod_iff h32).mpr ha')
  have hz : BitVec.ofNat 32 a' - BitVec.ofNat 32 a = 0#32 :=
    BitVec.eq_of_toNat_eq (Nat.eq_zero_of_dvd_of_lt hd hb)
  apply hne
  rw [← BitVec.sub_add_cancel (BitVec.ofNat 32 a') (BitVec.ofNat 32 a), hz, BitVec.zero_add]

/-- Marking the leaf of any translation leaves every translation as it was. -/
theorem Regime.translate_mark {R : Regime} {s : Bytes.Store 32} {va' : BitVec 64} {t : Translation}
    (ht : R.translate s va' = some t) (write : Bool) (va : BitVec 64) :
    R.translate (t.mark s write) va = R.translate s va ∧ ∀ b, R.Uses (t.mark s write) va b ↔ R.Uses s va b := by
  cases R with
  | bare => exact ⟨rfl, fun _ => Iff.rfl⟩
  | unsupported => exact ⟨rfl, fun _ => Iff.rfl⟩
  | table T =>
    obtain ⟨lf, hlf, rfl⟩ := Option.map_eq_some_iff.mp ht
    have hleaf := Format.dvd_of_mem_slots T.pteBytes_dvd (Format.walk_some (Format.translate_some hlf).1).1
    refine T.translate_same fun a ha => ?_
    have hslot := Format.dvd_of_mem_slots T.pteBytes_dvd ha
    simp only [Translation.mark]
    by_cases he : BitVec.ofNat 32 a = BitVec.ofNat 32 lf.slot
    · rw [← he, entryAt_markAt_self s a write T.pteBytes_pos T.pteBytes_le]
      exact Format.same_mark _ _
    · rw [entryAt_markAt_of_ne s write T.pteBytes_le T.pteBytes_dvd hslot hleaf he]
      exact Format.Same.refl _

/-- The leaf's byte is one the translation uses. -/
theorem Regime.uses_leaf {R : Regime} {s : Bytes.Store 32} {va : BitVec 64} {t : Translation} {a : BitVec 32}
    (ht : R.translate s va = some t) (ha : t.leaf = some a) : R.Uses s va a := by
  cases R with
  | bare => cases ht; cases ha
  | unsupported => cases ht
  | table T =>
    obtain ⟨lf, hlf, rfl⟩ := Option.map_eq_some_iff.mp ht
    cases ha
    refine ⟨lf.slot, (Format.walk_some (Format.translate_some hlf).1).1, ?_⟩
    rw [BitVec.sub_self]; exact T.pteBytes_pos

/-! ## Sequences of translations -/

/-- The memory after translating an address, for a write or not. -/
def Regime.access (R : Regime) (s : Bytes.Store 32) (a : BitVec 64 × Bool) : Bytes.Store 32 :=
  match R.translate s a.1 with
  | none => s
  | some t => t.mark s a.2

theorem Regime.access_none {R : Regime} {s : Bytes.Store 32} {a : BitVec 64 × Bool} (h : R.translate s a.1 = none) :
    R.access s a = s := by
  rw [access, h]

theorem Regime.access_some {R : Regime} {s : Bytes.Store 32} {a : BitVec 64 × Bool} {t : Translation}
    (h : R.translate s a.1 = some t) : R.access s a = t.mark s a.2 := by
  rw [access, h]

/-- Translating an address changes no translation. -/
theorem Regime.translate_access (R : Regime) (s : Bytes.Store 32) (a : BitVec 64 × Bool) (va : BitVec 64) :
    R.translate (R.access s a) va = R.translate s va := by
  cases ht : R.translate s a.1 with
  | none => rw [access_none ht]
  | some t => rw [access_some ht, (translate_mark ht a.2 va).1]

/-- Nor does translating any number of them. -/
theorem Regime.translate_foldl (R : Regime) (as : List (BitVec 64 × Bool)) (s : Bytes.Store 32) (va : BitVec 64) :
    R.translate (as.foldl R.access s) va = R.translate s va := by
  induction as generalizing s with
  | nil => rfl
  | cons a as ih => rw [List.foldl_cons, ih, translate_access]

theorem marked_marked (b : BitVec 8) (write : Bool) : marked (marked b write) write = marked b write := by
  rw [marked, marked, BitVec.or_assoc, BitVec.or_self]

/-- A mark that is there stays. -/
theorem markAt_markAt {s : Bytes.Store 32} {a b : BitVec 32} {write write' : Bool} (h : markAt s a write = s) :
    markAt (markAt s b write') a write = markAt s b write' := by
  have ha : marked (s a) write = s a := by
    rw [← congrFun h a, markAt, Function.update_self, marked_marked]
  refine Function.update_eq_self_iff.mpr ?_
  by_cases hab : a = b
  · subst hab
    rw [markAt, Function.update_self]
    unfold marked at ha ⊢
    rw [BitVec.or_assoc, BitVec.or_comm (if write' then _ else _), ← BitVec.or_assoc, ha]
  · rw [markAt, Function.update_of_ne hab, ha]

theorem Translation.mark_mark {s : Bytes.Store 32} {t t' : Translation} {write write' : Bool}
    (h : t.mark s write = s) : t.mark (t'.mark s write') write = t'.mark s write' := by
  cases ha : t.leaf with
  | none => simp only [mark, ha]
  | some a =>
    simp only [mark, ha] at h ⊢
    cases t'.leaf with
    | none => exact h
    | some b => exact markAt_markAt h

/-- Translating an address again changes nothing more. -/
theorem Regime.access_access (R : Regime) (s : Bytes.Store 32) (a : BitVec 64 × Bool) :
    R.access (R.access s a) a = R.access s a := by
  cases ht : R.translate s a.1 with
  | none => rw [access_none ht, access_none ht]
  | some t =>
    have ht' : R.translate (R.access s a) a.1 = some t := by rw [translate_access, ht]
    rw [access_some ht', access_some ht]
    cases ha : t.leaf with
    | none => simp only [Translation.mark, ha]
    | some b =>
      simp only [Translation.mark, ha, markAt, Function.update_self, marked_marked, Function.update_idem]

/-- What an address is marked with stays when others are translated. -/
theorem Regime.access_of_access {R : Regime} {s : Bytes.Store 32} {a : BitVec 64 × Bool} (h : R.access s a = s)
    (b : BitVec 64 × Bool) : R.access (R.access s b) a = R.access s b := by
  cases ht : R.translate s a.1 with
  | none => exact access_none (by rw [translate_access, ht])
  | some t =>
    rw [access_some (by rw [translate_access, ht])]
    rw [access_some ht] at h
    cases ht' : R.translate s b.1 with
    | none => rw [access_none ht', h]
    | some t' => rw [access_some ht', Translation.mark_mark h]

theorem Regime.access_foldl {R : Regime} {s : Bytes.Store 32} {a : BitVec 64 × Bool} (h : R.access s a = s)
    (as : List (BitVec 64 × Bool)) : R.access (as.foldl R.access s) a = as.foldl R.access s := by
  induction as generalizing s with
  | nil => exact h
  | cons b as ih => exact ih (access_of_access h b)

/-- An address that has been translated is not marked any further. -/
theorem Regime.access_foldl_of_mem {R : Regime} {s : Bytes.Store 32} {a : BitVec 64 × Bool}
    {as : List (BitVec 64 × Bool)} (h : a ∈ as) : R.access (as.foldl R.access s) a = as.foldl R.access s := by
  induction as generalizing s with
  | nil => cases h
  | cons b as ih =>
    rcases List.mem_cons.mp h with rfl | h
    · exact access_foldl (access_access R s a) as
    · exact ih h

/-! ## What translations change -/

theorem testBit_entryAt (F : Format) (s : Bytes.Store 32) (a i : Nat) : (entryAt F s a).testBit i =
    (decide (i < 64) && decide (i < 8 * F.pteBytes) &&
      (s (BitVec.ofNat 32 a + BitVec.ofNat 32 (i / 8))).getLsbD (i % 8)) := by
  rw [entryAt, BitVec.testBit_toNat, Bytes.load, Bytes.getLsbD_compose]

/-- `t` is `s` with bits 6 and 7 changed in bytes at word addresses whose bit
0 is set: entries, of either format, that are valid. -/
def Marked (s t : Bytes.Store 32) : Prop :=
  ∀ b : BitVec 32, t b = s b ∨ (b.toNat % 4 = 0 ∧ (s b).getLsbD 0 = true ∧
    ∀ i, i ≠ 6 → i ≠ 7 → (t b).getLsbD i = (s b).getLsbD i)

theorem Marked.refl (s : Bytes.Store 32) : Marked s s := fun _ => .inl rfl

theorem Marked.trans {s t u : Bytes.Store 32} (h : Marked s t) (h' : Marked t u) : Marked s u := by
  intro b
  rcases h b with hb | ⟨h4, h0, hb⟩
  · rcases h' b with hb' | ⟨h4, h0, hb'⟩
    · exact .inl (hb'.trans hb)
    · exact .inr ⟨h4, hb ▸ h0, fun i h6 h7 => hb ▸ hb' i h6 h7⟩
  · refine .inr ⟨h4, h0, fun i h6 h7 => ?_⟩
    rcases h' b with hb' | ⟨-, -, hb'⟩
    · rw [hb', hb i h6 h7]
    · rw [hb' i h6 h7, hb i h6 h7]

/-- The entries of a table are whole words. -/
def Regime.Words : Regime → Prop
  | table T => 4 ∣ T.F.pteBytes
  | _ => True

/-- A translation marks a valid entry. -/
theorem Regime.marked_mark {R : Regime} (hR : R.Words) {s : Bytes.Store 32} {va : BitVec 64} {t : Translation}
    (ht : R.translate s va = some t) (write : Bool) : Marked s (t.mark s write) := by
  cases R with
  | bare => cases ht; exact .refl s
  | unsupported => cases ht
  | table T =>
    obtain ⟨lf, hlf, rfl⟩ := Option.map_eq_some_iff.mp ht
    have hw := (Format.translate_some hlf).1
    obtain ⟨hmem, hentry, -⟩ := Format.walk_some hw
    have hdvd := Nat.dvd_trans hR (Format.dvd_of_mem_slots T.pteBytes_dvd hmem)
    intro b
    simp only [Translation.mark, markAt]
    by_cases hb : b = BitVec.ofNat 32 lf.slot
    · subst hb
      rw [Function.update_self]
      refine .inr ⟨?_, ?_, fun i h6 h7 => ?_⟩
      · rw [BitVec.toNat_ofNat]; omega
      · have hbit : lf.entry.testBit 0 = true := by
          have hv := (Format.walk_valid hw).1
          rw [PageWalk.valid, Bool.and_eq_true] at hv
          exact hv.1
        rw [hentry, testBit_entryAt, Bool.and_eq_true, Nat.zero_div, BitVec.add_zero] at hbit
        exact hbit.2
      · by_cases hi : i < 8
        · rw [getLsbD_marked _ _ hi, Format.testBit_mark h6 h7, BitVec.testBit_toNat]
        · rw [BitVec.getLsbD_of_ge _ _ (by omega), BitVec.getLsbD_of_ge _ _ (by omega)]
    · exact .inl (Function.update_of_ne hb _ _)

theorem Regime.marked_access {R : Regime} (hR : R.Words) (s : Bytes.Store 32) (a : BitVec 64 × Bool) :
    Marked s (R.access s a) := by
  cases ht : R.translate s a.1 with
  | none => rw [access_none ht]; exact .refl s
  | some t => rw [access_some ht]; exact marked_mark hR ht a.2

/-- The walk tells a marked entry from what it was only if it is a
doubleword with something in its upper half that passes for an entry. -/
theorem Marked.same {s t : Bytes.Store 32} (h : Marked s t) {F : Format} {a : Nat} (ha : a % 4 = 0)
    (hF : F.pteBytes ≤ 8) (hup : F.pteBytes ≤ 4 ∨ (s (BitVec.ofNat 32 (a + 4))).getLsbD 0 = false) :
    F.Same (entryAt F s a) (entryAt F t a) := by
  refine Format.same_of_testBit fun i h6 h7 => ?_
  rw [testBit_entryAt, testBit_entryAt]
  by_cases hi : i < 8 * F.pteBytes
  case neg => simp [hi]
  rw [← BitVec.ofNat_add]
  rcases h (BitVec.ofNat 32 (a + i / 8)) with hb | ⟨h4, h0, hb⟩
  · rw [hb]
  · rw [BitVec.toNat_ofNat] at h4
    obtain h | h : i / 8 = 0 ∨ i / 8 = 4 := by omega
    · rw [hb _ (by omega) (by omega)]
    · -- the upper half of a doubleword: not an entry, so not marked
      rcases hup with hup | hup
      · omega
      · rw [h, hup] at h0; cases h0

/-! ## A page is mapped as a whole -/

theorem toNat_add_page {va : BitVec 64} {k : Nat} (h : va.toNat % 2 ^ 12 + k < 2 ^ 12) :
    (va + BitVec.ofNat 64 k).toNat = va.toNat + k := by
  rw [BitVec.toNat_add, BitVec.toNat_ofNat]; omega

/-- The page offset is not translated. -/
theorem Regime.translate_mod {R : Regime} {s : Bytes.Store 32} {va : BitVec 64} {t : Translation}
    (ht : R.translate s va = some t) : t.address.toNat % 2 ^ 12 = va.toNat % 2 ^ 12 := by
  cases R with
  | bare => cases ht; rfl
  | unsupported => cases ht
  | table T =>
    obtain ⟨lf, hlf, rfl⟩ := Option.map_eq_some_iff.mp ht
    simp only
    rw [BitVec.toNat_ofNat, Nat.mod_mod_of_dvd _ (Nat.pow_dvd_pow 2 (by decide)),
      Nat.mod_mod_of_dvd _ (Nat.pow_dvd_pow 2 T.le_paBits), Format.address_mod]

/-- Addresses on one page are translated alike. -/
theorem Regime.translate_add {R : Regime} {s : Bytes.Store 32} {va : BitVec 64} {t : Translation} {k : Nat}
    (ht : R.translate s va = some t) (h : va.toNat % 2 ^ 12 + k < 2 ^ 12) :
    R.translate s (va + BitVec.ofNat 64 k) = some { t with address := t.address + BitVec.ofNat 64 k } ∧
      ∀ b, R.Uses s (va + BitVec.ofNat 64 k) b ↔ R.Uses s va b := by
  have hk := toNat_add_page h
  cases R with
  | bare => cases ht; exact ⟨rfl, fun _ => Iff.rfl⟩
  | unsupported => cases ht
  | table T =>
    refine ⟨?_, fun b => by simp only [Uses, hk, (Format.walk_add h).2]⟩
    have hmod := translate_mod ht
    obtain ⟨lf, hlf, rfl⟩ := Option.map_eq_some_iff.mp ht
    simp only [translate, Table.translate, hk, Format.translate_add h, hlf, Option.map_some,
      Format.address_add h]
    have hlt : T.F.address va.toNat lf % 2 ^ T.paBits + k < 2 ^ T.paBits := by
      obtain ⟨c, hc⟩ : 2 ^ 12 ∣ 2 ^ T.paBits := Nat.pow_dvd_pow 2 T.le_paBits
      have hlt := Nat.mod_lt (T.F.address va.toNat lf) (Nat.two_pow_pos T.paBits)
      have hm := Format.address_mod (F := T.F) va.toNat lf
      rw [← Nat.mod_mod_of_dvd _ (Nat.pow_dvd_pow 2 T.le_paBits)] at hm
      omega
    rw [← BitVec.ofNat_add, ← Nat.mod_add_mod, Nat.mod_eq_of_lt hlt]

end RiscvEmulator
