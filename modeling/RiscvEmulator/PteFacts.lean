/-
The accessors of page-table entries as lenses.

The setters of a 32-bit entry write the fields of a layout and its getters
read them (`Pte32.get_eq`, `Pte32.word_set`), so they are lawful. Of a
64-bit entry this fails for the page number: `SetPpn` clears 22 of its 44
bits and `GetPpn` returns 32 of them. `accessors_lawful` says which entries
and page numbers do not show it.
-/
import RiscvEmulator.Lib.Layout
import RiscvEmulator.Pte

namespace RiscvEmulator

/-! ## Masks -/

theorem genMaskLoop_eq (n : Nat) : ∀ w, genMaskLoop n w = Bits.ones n w
  | 0 => rfl
  | w + 1 => by
    apply BitVec.eq_of_getLsbD_eq
    intro i hi
    rw [genMaskLoop, genMaskLoop_eq n w, BitVec.getLsbD_or, BitVec.getLsbD_shiftLeft, Bits.getLsbD_ones,
      Bits.getLsbD_ones, BitVec.getLsbD_one]
    by_cases h0 : i = 0
    · simp [h0, show 0 < n by omega]
    · simp [hi, h0, show i - 1 < n by omega, show i - 1 < w ↔ i < w + 1 by omega]

theorem genMask_eq (n w o : Nat) : genMask n w o = Bits.ones n w <<< o := by rw [genMask, genMaskLoop_eq]

theorem and_ones_of_lt {n : Nat} {x : BitVec n} {w : Nat} (h : x.toNat < 2 ^ w) : x &&& Bits.ones n w = x := by
  apply BitVec.eq_of_toNat_eq
  rw [Bits.toNat_and_ones, Nat.mod_eq_of_lt h]

/-- A mask and a shift write a field that the value fits. -/
theorem masked_eq_put {n : Nat} (v : BitVec n) {x : BitVec n} {w : Nat} (h : x.toNat < 2 ^ w) (o : Nat) :
    (v &&& ~~~genMask n w o) ||| (x <<< o) = Bits.put v w o x := by
  rw [Bits.put, genMask_eq, and_ones_of_lt h]

/-- `SetBit` writes a field of one bit. -/
theorem setBit_eq_put {n : Nat} (v : BitVec n) {x : BitVec n} (h : x.toNat < 2 ^ 1) {o : Nat} (ho : o < n) :
    setBit v (x ≠ 0#n) o = Bits.put v 1 o x := by
  have hone : Bits.ones n 1 = 1#n := rfl
  rw [Bits.put, and_ones_of_lt h, hone, setBit]
  by_cases hx : x = 0#n
  · simp [hx]
  · have hx1 : x = 1#n := by
      have hpos : x.toNat ≠ 0 := fun h0 => hx (BitVec.eq_of_toNat_eq (by simpa using h0))
      apply BitVec.eq_of_toNat_eq
      rw [BitVec.toNat_ofNat, Nat.mod_eq_of_lt (Nat.one_lt_two_pow (by omega))]
      omega
    rw [if_pos (by simpa using hx), hx1]
    apply BitVec.eq_of_getLsbD_eq
    intro i hi
    rw [BitVec.getLsbD_or, BitVec.getLsbD_or, BitVec.getLsbD_and, BitVec.getLsbD_not]
    cases (1#n <<< o).getLsbD i <;> simp [hi]

/-! ## Fields -/

/-- The fields of an entry, each with a getter and a setter. -/
inductive PteField where
  | ppn | rsw | d | a | g | u | x | w | r | v
  deriving DecidableEq

namespace PteField

/-- The width of a field, the page number taking `ppnBits`. -/
def width (ppnBits : Nat) : PteField → Nat
  | ppn => ppnBits
  | rsw => 2
  | _ => 1

def offset : PteField → Nat
  | ppn => 10
  | rsw => 8
  | d => 7
  | a => 6
  | g => 5
  | u => 4
  | x => 3
  | w => 2
  | r => 1
  | v => 0

theorem apart (k : Nat) (f f' : PteField) (h : f ≠ f') :
    f.offset + f.width k ≤ f'.offset ∨ f'.offset + f'.width k ≤ f.offset := by
  cases f <;> cases f' <;> first | exact absurd rfl h | simp [offset, width]

/-- The other fields lie below the page number, and are narrow. -/
theorem below {f : PteField} (k : Nat) (h : f ≠ .ppn) : f.offset + f.width k ≤ 10 := by
  cases f <;> first | exact absurd rfl h | simp [offset, width]

def layout (n k : Nat) (h : k + 10 ≤ n) : Bits.Layout n PteField where
  width := width k
  offset := offset
  fits f := by cases f <;> simp only [offset, width] <;> omega
  apart := apart k

end PteField

/-- What is asked of the accessors of an entry: the laws of reading and
writing, the parts of the page number left alone by the other fields, and
so every bit, the reserved ones among them. -/
structure PteLawful {n : Nat} {σ : Type} (ppnBits : Nat) (word : σ → BitVec n) (get : σ → PteField → BitVec n)
    (parts : σ → List (BitVec 32)) (set : σ → PteField → BitVec n → σ) (p : σ) (f : PteField) (v : BitVec n) :
    Prop where
  accessors : Bits.Lawful get set p f v
  parts_kept : f ≠ .ppn → parts (set p f v) = parts p
  bits_kept : ∀ i, i < f.offset ∨ f.offset + f.width ppnBits ≤ i → (word (set p f v)).getLsbD i = (word p).getLsbD i

/-! ## 32 bits -/

namespace Pte32

def get (p : Pte32) : PteField → BitVec 32
  | .ppn => p.getPpn
  | .rsw => p.getRsw
  | .d => p.getD
  | .a => p.getA
  | .g => p.getG
  | .u => p.getU
  | .x => p.getX
  | .w => p.getW
  | .r => p.getR
  | .v => p.getV

/-- The setters of flags take an `int`. -/
def set (p : Pte32) (f : PteField) (value : BitVec 32) : Pte32 :=
  match f with
  | .ppn => p.setPpn value
  | .rsw => p.setRsw value
  | .d => p.setD (value ≠ 0#32)
  | .a => p.setA (value ≠ 0#32)
  | .g => p.setG (value ≠ 0#32)
  | .u => p.setU (value ≠ 0#32)
  | .x => p.setX (value ≠ 0#32)
  | .w => p.setW (value ≠ 0#32)
  | .r => p.setR (value ≠ 0#32)
  | .v => p.setV (value ≠ 0#32)

/-- The getters of the parts of the page number. -/
def ppnParts (p : Pte32) : List (BitVec 32) := [p.getPpn1, p.getPpn0]

def layout : Bits.Layout 32 PteField := PteField.layout 32 22 (by decide)

def Lawful : Pte32 → PteField → BitVec 32 → Prop := PteLawful 22 Pte32.pte get ppnParts set

theorem get_eq (p : Pte32) (f : PteField) : p.get f = layout.get p.pte f := by
  cases f <;> exact bitcrop_eq_crop p.pte (by decide) (by decide)

theorem word_set (p : Pte32) (f : PteField) {x : BitVec 32} (h : x.toNat < 2 ^ f.width 22) :
    (p.set f x).pte = layout.set p.pte f x := by
  cases f
  case ppn => exact masked_eq_put p.pte h 10
  case rsw => exact masked_eq_put p.pte h 8
  all_goals exact setBit_eq_put p.pte h (by decide)

theorem ext {p q : Pte32} (h : p.pte = q.pte) : p = q := by
  cases p
  cases q
  exact congrArg mk h

theorem lawful (p : Pte32) {f : PteField} {v : BitVec 32} (h : v.toNat < 2 ^ f.width 22) : p.Lawful f v where
  accessors := .of_layout layout (fun _ _ => ext) (fun s t f' hf' => by rw [get_eq, get_eq, hf']) (fun s => get_eq s f)
    (fun x hx => p.word_set f hx) h
  parts_kept hf := by
    have hkept : ∀ {w o}, w ≤ 64 → 10 ≤ o → bitcrop (p.set f v).pte w o = bitcrop p.pte w o := by
      intro w o hw ho
      rw [bitcrop_eq_crop _ hw (by decide), bitcrop_eq_crop _ hw (by decide), word_set p f h]
      exact Bits.crop_put_of_apart _ _ (.inl (Nat.le_trans (f.below 22 hf) ho))
    simp (disch := decide) only [ppnParts, getPpn1, getPpn0, hkept]
  bits_kept i hi := by
    rw [word_set p f h]
    exact Bits.getLsbD_put_of_outside _ _ hi

end Pte32

/-! ## 64 bits -/

namespace Pte64

/-- The getters return `uint32_t`. -/
def get (p : Pte64) : PteField → BitVec 64
  | .ppn => p.getPpn.setWidth 64
  | .rsw => p.getRsw.setWidth 64
  | .d => p.getD.setWidth 64
  | .a => p.getA.setWidth 64
  | .g => p.getG.setWidth 64
  | .u => p.getU.setWidth 64
  | .x => p.getX.setWidth 64
  | .w => p.getW.setWidth 64
  | .r => p.getR.setWidth 64
  | .v => p.getV.setWidth 64

def set (p : Pte64) (f : PteField) (value : BitVec 64) : Pte64 :=
  match f with
  | .ppn => p.setPpn value
  | .rsw => p.setRsw (value.setWidth 32)
  | .d => p.setD (value ≠ 0#64)
  | .a => p.setA (value ≠ 0#64)
  | .g => p.setG (value ≠ 0#64)
  | .u => p.setU (value ≠ 0#64)
  | .x => p.setX (value ≠ 0#64)
  | .w => p.setW (value ≠ 0#64)
  | .r => p.setR (value ≠ 0#64)
  | .v => p.setV (value ≠ 0#64)

def ppnParts (p : Pte64) : List (BitVec 32) := [p.getPpn2, p.getPpn1, p.getPpn0]

def layout : Bits.Layout 64 PteField := PteField.layout 64 44 (by decide)

def Lawful : Pte64 → PteField → BitVec 64 → Prop := PteLawful 44 Pte64.pte get ppnParts set

theorem get_eq (p : Pte64) (f : PteField) : p.get f = ((layout.get p.pte f).setWidth 32).setWidth 64 := by
  have h : ∀ {w o : Nat}, w ≤ 64 → ((bitcrop p.pte w o).setWidth 32).setWidth 64 =
      ((Bits.crop p.pte w o).setWidth 32).setWidth 64 := fun hw => by rw [bitcrop_eq_crop p.pte hw (by decide)]
  cases f <;> exact h (by decide)

theorem ext {p q : Pte64} (h : p.pte = q.pte) : p = q := by
  cases p
  cases q
  exact congrArg mk h

section

variable (p : Pte64) {f : PteField} {v : BitVec 64}

/-- A field that a `uint32_t` holds. -/
theorem get_of_ne (hf : f ≠ .ppn) : p.get f = layout.get p.pte f := by
  have hlow := f.below 44 hf
  have hlt : (layout.get p.pte f).toNat < 2 ^ f.width 44 := Bits.toNat_crop_lt _ _ _
  have hpow : 2 ^ f.width 44 ≤ 2 ^ 10 := Nat.pow_le_pow_right (by decide) (by omega)
  rw [get_eq]
  apply BitVec.eq_of_toNat_eq
  rw [BitVec.toNat_setWidth, BitVec.toNat_setWidth]
  omega

theorem word_set (hf : f ≠ .ppn) (h : v.toNat < 2 ^ f.width 44) : (p.set f v).pte = layout.set p.pte f v := by
  cases f
  case ppn => exact absurd rfl hf
  case rsw =>
    have hv : (v.setWidth 32).setWidth 64 = v := by
      have h4 : v.toNat < 4 := h
      apply BitVec.eq_of_toNat_eq
      rw [BitVec.toNat_setWidth, BitVec.toNat_setWidth]
      omega
    rw [set, setRsw, hv]
    exact masked_eq_put p.pte h 8
  all_goals exact setBit_eq_put p.pte h (by decide)

theorem lawful_of_ne (hf : f ≠ .ppn) (h : v.toNat < 2 ^ f.width 44) : p.Lawful f v where
  accessors := .of_layout layout (fun _ _ => ext) (fun s t f' hf' => by rw [get_eq, get_eq, hf'])
    (fun s => s.get_of_ne hf) (fun x hx => p.word_set hf hx) h
  parts_kept _ := by
    have hkept : ∀ {w o}, w ≤ 64 → 10 ≤ o → bitcrop (p.set f v).pte w o = bitcrop p.pte w o := by
      intro w o hw ho
      rw [bitcrop_eq_crop _ hw (by decide), bitcrop_eq_crop _ hw (by decide), word_set p hf h]
      exact Bits.crop_put_of_apart _ _ (.inl (Nat.le_trans (f.below 44 hf) ho))
    simp (disch := decide) only [ppnParts, getPpn2, getPpn1, getPpn0, hkept]
  bits_kept i hi := by
    rw [word_set p hf h]
    exact Bits.getLsbD_put_of_outside _ _ hi

/-! ### The page number -/

/-- `SetPpn` clears the bits 10 to 31. -/
theorem getLsbD_setPpn {i : Nat} (hi : i < 64) : (p.setPpn v).pte.getLsbD i =
    ((!decide (10 ≤ i ∧ i < 32) && p.pte.getLsbD i) || (decide (10 ≤ i) && v.getLsbD (i - 10))) := by
  simp only [setPpn, genMask_eq, BitVec.getLsbD_or, BitVec.getLsbD_and, BitVec.getLsbD_not, BitVec.getLsbD_shiftLeft,
    Bits.getLsbD_ones, hi, decide_true, Bool.true_and]
  by_cases h₁ : i < 10
  · simp [h₁, show ¬ 10 ≤ i by omega]
  · by_cases h₂ : i < 32
    · simp [h₁, h₂, show 10 ≤ i by omega, show i - 10 < 64 by omega, show i - 10 < 22 by omega]
    · simp [h₁, h₂, show 10 ≤ i by omega, show ¬ i - 10 < 22 by omega]

/-- `GetPpn` returns the bits 10 to 41. -/
theorem getLsbD_getPpn (j : Nat) : (p.get .ppn).getLsbD j = (decide (j < 32) && p.pte.getLsbD (10 + j)) := by
  rw [get_eq, BitVec.getLsbD_setWidth, BitVec.getLsbD_setWidth, Bits.Layout.get, Bits.getLsbD_crop]
  by_cases h : j < 32
  · have hwidth : j < layout.width .ppn := Nat.lt_trans h (by decide)
    have hoffset : layout.offset .ppn = 10 := rfl
    rw [decide_eq_true hwidth, hoffset]
    simp [h, show j < 64 by omega]
  · simp [h]

/-- What `GetPpn` can return, with every bit set that `SetPpn` does not clear. -/
def Fits (v : BitVec 64) : Prop :=
  v.toNat < 2 ^ 32 ∧ ∀ i < 42, 32 ≤ i → p.pte.getLsbD i = true → v.getLsbD (i - 10) = true

instance : Decidable (p.Fits v) := inferInstanceAs (Decidable (_ ∧ _))

theorem get_setPpn_iff : (p.setPpn v).get .ppn = v ↔ p.Fits v := by
  constructor
  · intro hget
    have hbit : ∀ j, v.getLsbD j = (decide (j < 32) && (p.setPpn v).pte.getLsbD (10 + j)) := by
      intro j
      rw [← getLsbD_getPpn, hget]
    refine ⟨?_, fun i h₂ h₁ hp => ?_⟩
    · refine (BitVec.toNat_lt_iff_getLsbD_eq_false 32 (by decide)).mpr fun k => ?_
      rw [hbit (32 + k), decide_eq_false (by omega), Bool.false_and]
    · rw [hbit (i - 10), show 10 + (i - 10) = i by omega, getLsbD_setPpn p (by omega), hp]
      simp [show i - 10 < 32 by omega, show ¬ i < 32 by omega]
  · rintro ⟨hlt, hset⟩
    apply BitVec.eq_of_getLsbD_eq
    intro j hj
    rw [getLsbD_getPpn]
    by_cases hj32 : j < 32
    · rw [getLsbD_setPpn p (by omega), show 10 + j - 10 = j by omega]
      by_cases hlow : 10 + j < 32
      · simp [hj32, hlow]
      · cases hp : p.pte.getLsbD (10 + j) with
        | false => simp [hj32, hlow]
        | true =>
          have hv := hset (10 + j) (by omega) (by omega) hp
          rw [show 10 + j - 10 = j by omega] at hv
          simp [hj32, hlow, hv]
    · have hhigh := (BitVec.toNat_lt_iff_getLsbD_eq_false 32 (by decide)).mp hlt (j - 32)
      rw [show 32 + (j - 32) = j by omega] at hhigh
      rw [hhigh, decide_eq_false hj32, Bool.false_and]

/-- The rest of the laws hold of the page number too. -/
theorem get_setPpn_ne (hf : f ≠ .ppn) : (p.setPpn v).get f = p.get f := by
  have hlow := f.below 44 hf
  rw [get_of_ne _ hf, get_of_ne _ hf]
  apply BitVec.eq_of_getLsbD_eq
  intro i _
  rw [Bits.Layout.get, Bits.Layout.get, Bits.getLsbD_crop, Bits.getLsbD_crop]
  by_cases hi : i < layout.width f
  · have hin : layout.offset f + i < 10 := Nat.lt_of_lt_of_le (Nat.add_lt_add_left hi _) hlow
    rw [getLsbD_setPpn p (by omega)]
    simp [show ¬ 10 ≤ layout.offset f + i by omega]
  · simp [hi]

theorem setPpn_getPpn : p.setPpn (p.get .ppn) = p := by
  apply ext
  apply BitVec.eq_of_getLsbD_eq
  intro i hi
  rw [getLsbD_setPpn p hi, getLsbD_getPpn]
  by_cases h₁ : 10 ≤ i
  · rw [show 10 + (i - 10) = i by omega]
    cases p.pte.getLsbD i
    · simp
    · simp
      omega
  · simp [h₁]

theorem setPpn_kept (h : v.toNat < 2 ^ 44) {i : Nat} (hi : i < 10 ∨ 54 ≤ i) :
    (p.setPpn v).pte.getLsbD i = p.pte.getLsbD i := by
  by_cases hin : i < 64
  · rw [getLsbD_setPpn p hin]
    rcases hi with hi | hi
    · simp [show ¬ 10 ≤ i by omega]
    · have hhigh := (BitVec.toNat_lt_iff_getLsbD_eq_false 44 (by decide)).mp h (i - 54)
      rw [show 44 + (i - 54) = i - 10 by omega] at hhigh
      simp [hhigh, show ¬ i < 32 by omega]
  · rw [BitVec.getLsbD_of_ge _ _ (by omega), BitVec.getLsbD_of_ge _ _ (by omega)]

theorem lawful_ppn_iff (h : v.toNat < 2 ^ 44) : p.Lawful .ppn v ↔ p.Fits v := by
  constructor
  · intro hlaw
    exact p.get_setPpn_iff.mp hlaw.accessors.get_set
  · intro hfits
    exact {
      accessors := {
        get_set := p.get_setPpn_iff.mpr hfits
        get_set_ne := fun _ hf => p.get_setPpn_ne hf
        set_get := p.setPpn_getPpn }
      parts_kept := fun hf => absurd rfl hf
      bits_kept := fun _ hi => p.setPpn_kept h hi }

end

end Pte64

/-! ## Both -/

/-- **The accessors of page-table entries are lawful** but for the page number
of a 64-bit entry, and that too where `Fits` holds. -/
theorem accessors_lawful (f : PteField) :
    (∀ (p : Pte32) (v : BitVec 32), v.toNat < 2 ^ f.width 22 → p.Lawful f v) ∧
    ∀ (p : Pte64) (v : BitVec 64), v.toNat < 2 ^ f.width 44 → (p.Lawful f v ↔ (f = .ppn → p.Fits v)) := by
  refine ⟨fun p v hv => p.lawful hv, fun p v hv => ?_⟩
  by_cases hf : f = .ppn
  · subst hf
    rw [p.lawful_ppn_iff hv]
    exact ⟨fun h _ => h, fun h => h rfl⟩
  · exact iff_of_true (p.lawful_of_ne hf hv) fun h => absurd h hf

/-- An entry for `0x80000000` with its flags set is given another page. -/
theorem accessors_lawful_page : (Pte32.mk 0x200000CF).Lawful .ppn 0x80001 ∧ (Pte64.mk 0x200000CF).Lawful .ppn 0x80001 :=
  ⟨(accessors_lawful .ppn).1 _ _ (by decide), ((accessors_lawful .ppn).2 _ _ (by decide)).mpr fun _ => by decide⟩

/-- Bit 22 of the page number is not cleared. -/
theorem setPpn_unlawful : ¬ ∀ (p : Pte64) (f : PteField) (v : BitVec 64), v.toNat < 2 ^ f.width 44 → p.Lawful f v := by
  intro h
  have hget : ((Pte64.mk 0x100000000).set .ppn 0).get .ppn = 0 := (h _ .ppn 0 (by decide)).accessors.get_set
  exact absurd hget (by decide)

end RiscvEmulator
