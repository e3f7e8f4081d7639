/-
The radix page-table walk, over any memory of entries.

A `Format` fixes the index bits of a level, the size of an entry and the
width of a page number. Entries and addresses are natural numbers; `read`
gives the entry at an address, so a memory that wraps is a `read` that
does. `walk` goes down from a root and stops at the first leaf; `translate`
also refuses a leaf whose page number is not aligned to its level. Only an
entry's validity, kind and page number matter (`walk_same`), so a change to
its accessed and dirty bits does not change where an address leads.
-/
import Mathlib.Algebra.Group.Nat.Defs

namespace PageWalk

structure Format where
  /-- Index bits of one level. -/
  vpnBits : Nat
  /-- Bytes of one entry. -/
  pteBytes : Nat
  /-- Bits of a page number. -/
  ppnBits : Nat

/-- V is set, and not W without R. -/
def valid (e : Nat) : Bool := e.testBit 0 && !(!e.testBit 1 && e.testBit 2)

/-- One of R, W and X is set. -/
def isLeaf (e : Nat) : Bool := e.testBit 1 || e.testBit 2 || e.testBit 3

namespace Format

variable (F : Format)

/-- The page number an entry holds. -/
def ppn (e : Nat) : Nat := e / 2 ^ 10 % 2 ^ F.ppnBits

/-- The index of an address at a level. -/
def vpn (va level : Nat) : Nat := va / 2 ^ (12 + F.vpnBits * level) % 2 ^ F.vpnBits

/-- Where the entry for an address lies in the table at page `base`. -/
def slot (va level base : Nat) : Nat := base * 2 ^ 12 + F.vpn va level * F.pteBytes

/-- A leaf, where it lies and at which level. -/
structure Leaf where
  level : Nat
  slot : Nat
  entry : Nat

/-- The walk from the table at page `base`: the first leaf, if every entry
on the way is valid and one is a leaf. -/
def walk (read : Nat → Nat) (va : Nat) : (level base : Nat) → Option Leaf
  | 0, base =>
    if valid (read (F.slot va 0 base)) = false then none
    else if isLeaf (read (F.slot va 0 base)) = true then some ⟨0, F.slot va 0 base, read (F.slot va 0 base)⟩
    else none
  | level + 1, base =>
    if valid (read (F.slot va (level + 1) base)) = false then none
    else if isLeaf (read (F.slot va (level + 1) base)) = true then
      some ⟨level + 1, F.slot va (level + 1) base, read (F.slot va (level + 1) base)⟩
    else walk read va level (F.ppn (read (F.slot va (level + 1) base)))

/-- The addresses of the entries the walk reads. -/
def slots (read : Nat → Nat) (va : Nat) : (level base : Nat) → List Nat
  | 0, base => [F.slot va 0 base]
  | level + 1, base =>
    F.slot va (level + 1) base ::
      if valid (read (F.slot va (level + 1) base)) = false ∨ isLeaf (read (F.slot va (level + 1) base)) = true
      then []
      else slots read va level (F.ppn (read (F.slot va (level + 1) base)))

/-- The fields of a leaf's page number below its level are zero. -/
def Aligned (lf : Leaf) : Prop := F.ppn lf.entry % 2 ^ (F.vpnBits * lf.level) = 0

instance (lf : Leaf) : Decidable (F.Aligned lf) := inferInstanceAs (Decidable (_ = _))

/-- The leaf an address is translated by. -/
def translate (read : Nat → Nat) (va level base : Nat) : Option Leaf :=
  (F.walk read va level base).bind fun lf => if F.Aligned lf then some lf else none

/-- The leaf's page number with the fields below its level taken from the
address, and the page offset. -/
def address (va : Nat) (lf : Leaf) : Nat :=
  (F.ppn lf.entry / 2 ^ (F.vpnBits * lf.level) * 2 ^ (F.vpnBits * lf.level) +
    va / 2 ^ 12 % 2 ^ (F.vpnBits * lf.level)) * 2 ^ 12 + va % 2 ^ 12

/-! ## What a walk depends on -/

/-- Entries a walk does not tell apart. -/
structure Same (e e' : Nat) : Prop where
  valid : PageWalk.valid e' = PageWalk.valid e
  isLeaf : PageWalk.isLeaf e' = PageWalk.isLeaf e
  ppn : F.ppn e' = F.ppn e

variable {F} {read read' : Nat → Nat}

theorem slot_mem_slots {va level base : Nat} : F.slot va level base ∈ F.slots read va level base := by
  cases level <;> simp [slots]

/-- The leaf's slot is one the walk read, and its entry is the one there. -/
theorem walk_some {va level base : Nat} {lf : Leaf} (h : F.walk read va level base = some lf) :
    lf.slot ∈ F.slots read va level base ∧ lf.entry = read lf.slot ∧ lf.level ≤ level := by
  induction level generalizing base with
  | zero =>
    simp only [walk] at h
    split at h
    · cases h
    split at h
    · cases h; exact ⟨slot_mem_slots, rfl, Nat.le_refl _⟩
    · cases h
  | succ level ih =>
    simp only [walk] at h
    split at h
    · cases h
    next hv =>
    split at h
    · cases h; exact ⟨slot_mem_slots, rfl, Nat.le_refl _⟩
    next hl =>
    obtain ⟨hs, he, hle⟩ := ih h
    refine ⟨?_, he, by omega⟩
    simp only [slots, hv, hl]
    exact List.mem_cons_of_mem _ hs

theorem translate_some {va level base : Nat} {lf : Leaf} (h : F.translate read va level base = some lf) :
    F.walk read va level base = some lf ∧ F.Aligned lf := by
  obtain ⟨lf', hw, ha⟩ := Option.bind_eq_some_iff.mp h
  split at ha
  · next hal => cases ha; exact ⟨hw, hal⟩
  · cases ha

theorem walk_valid {va level base : Nat} {lf : Leaf} (h : F.walk read va level base = some lf) :
    valid lf.entry = true ∧ isLeaf lf.entry = true := by
  induction level generalizing base with
  | zero =>
    simp only [walk] at h
    split at h
    · cases h
    next hv =>
    split at h
    · next hl => cases h; exact ⟨by simpa using hv, hl⟩
    · cases h
  | succ level ih =>
    simp only [walk] at h
    split at h
    · cases h
    next hv =>
    split at h
    · next hl => cases h; exact ⟨by simpa using hv, hl⟩
    · exact ih h

/-- Entries do not straddle: every slot is a multiple of the entry size. -/
theorem dvd_of_mem_slots {va level base a : Nat} (hF : F.pteBytes ∣ 2 ^ 12)
    (ha : a ∈ F.slots read va level base) : F.pteBytes ∣ a := by
  have hslot : ∀ l b, F.pteBytes ∣ F.slot va l b := fun l b =>
    Nat.dvd_add (Nat.dvd_mul_left_of_dvd hF b) (Nat.dvd_mul_left _ _)
  induction level generalizing base with
  | zero =>
    simp only [slots, List.mem_singleton] at ha
    exact ha ▸ hslot 0 base
  | succ level ih =>
    simp only [slots, List.mem_cons] at ha
    rcases ha with rfl | ha
    · exact hslot _ _
    · split at ha
      · cases ha
      · exact ih ha

/-- A walk sees of the entries on its way only what `Same` keeps: another
memory that agrees so on them has the same walk. -/
theorem walk_same {va level base : Nat}
    (h : ∀ a ∈ F.slots read va level base, F.Same (read a) (read' a)) :
    F.walk read' va level base = (F.walk read va level base).map (fun lf => { lf with entry := read' lf.slot }) ∧
      F.slots read' va level base = F.slots read va level base := by
  induction level generalizing base with
  | zero =>
    have hs := h _ slot_mem_slots
    simp only [walk, slots, hs.valid, hs.isLeaf]
    cases valid (read (F.slot va 0 base)) <;> cases isLeaf (read (F.slot va 0 base)) <;> simp
  | succ level ih =>
    have hs := h _ slot_mem_slots
    simp only [walk, slots, hs.valid, hs.isLeaf, hs.ppn]
    by_cases hv : valid (read (F.slot va (level + 1) base)) = false
    · simp [hv]
    by_cases hl : isLeaf (read (F.slot va (level + 1) base)) = true
    · simp [hv, hl]
    have hrest : ∀ a ∈ F.slots read va level (F.ppn (read (F.slot va (level + 1) base))),
        F.Same (read a) (read' a) := by
      intro a ha
      apply h
      simp only [slots, hv, hl]
      exact List.mem_cons_of_mem _ ha
    obtain ⟨hw, hsl⟩ := ih hrest
    simp [hv, hl, hw, hsl]

/-- So the same leaf translates the address, to the same place. -/
theorem translate_same {va level base : Nat}
    (h : ∀ a ∈ F.slots read va level base, F.Same (read a) (read' a)) :
    F.translate read' va level base =
      (F.translate read va level base).map (fun lf => { lf with entry := read' lf.slot }) := by
  unfold translate
  rw [(walk_same h).1]
  cases hw : F.walk read va level base with
  | none => rfl
  | some lf =>
    obtain ⟨hm, he, -⟩ := walk_some hw
    have hp : F.ppn (read' lf.slot) = F.ppn lf.entry := by rw [he]; exact (h _ hm).ppn
    simp only [Option.map_some, Option.bind_some, Aligned, hp]
    by_cases ha : F.ppn lf.entry % 2 ^ (F.vpnBits * lf.level) = 0
    · simp [ha]
    · simp [ha]

theorem address_same {va : Nat} {lf : Leaf} {e : Nat} (h : F.ppn e = F.ppn lf.entry) :
    F.address va { lf with entry := e } = F.address va lf := by simp only [address, h]

/-! ## Addresses on one page -/

theorem vpn_add {va k : Nat} (h : va % 2 ^ 12 + k < 2 ^ 12) (level : Nat) : F.vpn (va + k) level = F.vpn va level := by
  have hpage : (va + k) / 2 ^ 12 = va / 2 ^ 12 := by omega
  rw [vpn, vpn, Nat.pow_add, ← Nat.div_div_eq_div_mul, ← Nat.div_div_eq_div_mul, hpage]

theorem walk_add {va k level base : Nat} (h : va % 2 ^ 12 + k < 2 ^ 12) :
    F.walk read (va + k) level base = F.walk read va level base ∧
      F.slots read (va + k) level base = F.slots read va level base := by
  have hslot : ∀ l b, F.slot (va + k) l b = F.slot va l b := by
    intro l b; rw [slot, slot, vpn_add h]
  induction level generalizing base with
  | zero => simp only [walk, slots, hslot, and_self]
  | succ level ih =>
    obtain ⟨hw, hs⟩ := @ih (F.ppn (read (F.slot va (level + 1) base)))
    simp only [walk, slots, hslot, hw, hs, and_self]

/-- Addresses on one page have one leaf, and keep their distance. -/
theorem translate_add {va k level base : Nat} (h : va % 2 ^ 12 + k < 2 ^ 12) :
    F.translate read (va + k) level base = F.translate read va level base := by
  rw [translate, translate, (walk_add h).1]

theorem address_add {va k : Nat} (h : va % 2 ^ 12 + k < 2 ^ 12) (lf : Leaf) :
    F.address (va + k) lf = F.address va lf + k := by
  have hpage : (va + k) / 2 ^ 12 = va / 2 ^ 12 := by omega
  rw [address, address, hpage]
  omega

theorem address_mod (va : Nat) (lf : Leaf) : F.address va lf % 2 ^ 12 = va % 2 ^ 12 := by
  rw [address]; omega

/-! ## The bits of an address a walk looks at -/

/-- Addresses that agree below the index of the highest level agree in every
index. -/
theorem vpn_eq_of_mod {va va' top level : Nat} (hl : level ≤ top)
    (h : va' % 2 ^ (12 + F.vpnBits * (top + 1)) = va % 2 ^ (12 + F.vpnBits * (top + 1))) :
    F.vpn va' level = F.vpn va level := by
  have hle : 12 + F.vpnBits * level + F.vpnBits ≤ 12 + F.vpnBits * (top + 1) := by
    have := Nat.mul_le_mul_left F.vpnBits (show level + 1 ≤ top + 1 by omega)
    rw [Nat.mul_add, Nat.mul_one] at this
    omega
  have hd : 2 ^ (12 + F.vpnBits * level + F.vpnBits) ∣ 2 ^ (12 + F.vpnBits * (top + 1)) := Nat.pow_dvd_pow 2 hle
  have hmod : ∀ a, F.vpn (a % 2 ^ (12 + F.vpnBits * (top + 1))) level = F.vpn a level := by
    intro a
    rw [vpn, vpn, ← Nat.mod_mul_right_div_self, ← Nat.mod_mul_right_div_self, ← Nat.pow_add, Nat.mod_mod_of_dvd _ hd]
  rw [← hmod va', h, hmod va]

theorem walk_eq_of_mod {va va' top level base : Nat} (hl : level ≤ top)
    (h : va' % 2 ^ (12 + F.vpnBits * (top + 1)) = va % 2 ^ (12 + F.vpnBits * (top + 1))) :
    F.walk read va' level base = F.walk read va level base ∧
      F.slots read va' level base = F.slots read va level base := by
  have hslot : ∀ l b, l ≤ top → F.slot va' l b = F.slot va l b := by
    intro l b hl; rw [slot, slot, vpn_eq_of_mod hl h]
  induction level generalizing base with
  | zero => simp only [walk, slots, hslot 0 _ hl, and_self]
  | succ level ih =>
    obtain ⟨hw, hs⟩ := @ih (F.ppn (read (F.slot va (level + 1) base))) (by omega)
    simp only [walk, slots, hslot _ _ hl, hw, hs, and_self]

theorem translate_eq_of_mod {va va' top base : Nat}
    (h : va' % 2 ^ (12 + F.vpnBits * (top + 1)) = va % 2 ^ (12 + F.vpnBits * (top + 1))) :
    F.translate read va' top base = F.translate read va top base := by
  rw [translate, translate, (walk_eq_of_mod (Nat.le_refl top) h).1]

theorem address_eq_of_mod {va va' top : Nat} {lf : Leaf} (hl : lf.level ≤ top)
    (h : va' % 2 ^ (12 + F.vpnBits * (top + 1)) = va % 2 ^ (12 + F.vpnBits * (top + 1))) :
    F.address va' lf = F.address va lf := by
  have hle : F.vpnBits * lf.level ≤ F.vpnBits * (top + 1) := Nat.mul_le_mul_left _ (by omega)
  have hd : 2 ^ (12 + F.vpnBits * lf.level) ∣ 2 ^ (12 + F.vpnBits * (top + 1)) := Nat.pow_dvd_pow 2 (by omega)
  have hd' : 2 ^ 12 ∣ 2 ^ (12 + F.vpnBits * (top + 1)) := Nat.pow_dvd_pow 2 (by omega)
  have hlow : va' % 2 ^ 12 = va % 2 ^ 12 := by
    rw [← Nat.mod_mod_of_dvd va' hd', h, Nat.mod_mod_of_dvd va hd']
  have hpage : va' / 2 ^ 12 % 2 ^ (F.vpnBits * lf.level) = va / 2 ^ 12 % 2 ^ (F.vpnBits * lf.level) := by
    rw [← Nat.mod_mul_right_div_self, ← Nat.mod_mul_right_div_self, ← Nat.pow_add, ← Nat.mod_mod_of_dvd va' hd, h,
      Nat.mod_mod_of_dvd va hd]
  rw [address, address, hlow, hpage]

/-! ## Accessed and dirty bits -/

/-- An entry with A (bit 6), and D (bit 7) for a write, set. -/
def mark (e : Nat) (write : Bool) : Nat := e ||| (if write then 0xC0 else 0x40)

theorem testBit_mark {e i : Nat} {write : Bool} (hi : i ≠ 6) (hi' : i ≠ 7) :
    (mark e write).testBit i = e.testBit i := by
  have h40 : (0x40 : Nat).testBit i = false := by
    rw [show (0x40 : Nat) = 2 ^ 6 by rfl, Nat.testBit_two_pow]; simpa using Ne.symm hi
  have hC0 : (0xC0 : Nat).testBit i = false := by
    rw [show (0xC0 : Nat) = 2 ^ 6 ||| 2 ^ 7 by rfl, Nat.testBit_or, Nat.testBit_two_pow, Nat.testBit_two_pow]
    simp [Ne.symm hi, Ne.symm hi']
  rw [mark, Nat.testBit_or]
  split <;> simp [h40, hC0]

theorem mark_div {e k : Nat} {write : Bool} (hk : 8 ≤ k) : mark e write / 2 ^ k = e / 2 ^ k := by
  apply Nat.eq_of_testBit_eq
  intro i
  rw [Nat.testBit_div_two_pow, Nat.testBit_div_two_pow, testBit_mark (by omega) (by omega)]

/-- Entries that agree but for A and D are not told apart. -/
theorem same_of_testBit {e e' : Nat} (h : ∀ i, i ≠ 6 → i ≠ 7 → e'.testBit i = e.testBit i) : F.Same e e' where
  valid := by
    simp only [valid, h 0 (by decide) (by decide), h 1 (by decide) (by decide), h 2 (by decide) (by decide)]
  isLeaf := by
    simp only [isLeaf, h 1 (by decide) (by decide), h 2 (by decide) (by decide), h 3 (by decide) (by decide)]
  ppn := by
    have hdiv : e' / 2 ^ 10 = e / 2 ^ 10 := by
      apply Nat.eq_of_testBit_eq
      intro i
      rw [Nat.testBit_div_two_pow, Nat.testBit_div_two_pow, h _ (by omega) (by omega)]
    rw [ppn, ppn, hdiv]

theorem same_mark (e : Nat) (write : Bool) : F.Same e (mark e write) :=
  same_of_testBit fun _ h6 h7 => testBit_mark h6 h7

theorem Same.refl (e : Nat) : F.Same e e := ⟨rfl, rfl, rfl⟩

/-! ## Entries from their parts -/

theorem testBit_entry (n : Nat) {flags i : Nat} (hf : flags < 2 ^ 10) (hi : i < 10) :
    (n * 2 ^ 10 + flags).testBit i = flags.testBit i := by
  rw [Nat.mul_comm, Nat.testBit_two_pow_mul_add n hf, if_pos hi]

theorem valid_entry (n : Nat) {flags : Nat} (hf : flags < 2 ^ 10) : valid (n * 2 ^ 10 + flags) = valid flags := by
  simp only [valid, testBit_entry n hf (show 0 < 10 by decide), testBit_entry n hf (show 1 < 10 by decide),
    testBit_entry n hf (show 2 < 10 by decide)]

theorem isLeaf_entry (n : Nat) {flags : Nat} (hf : flags < 2 ^ 10) : isLeaf (n * 2 ^ 10 + flags) = isLeaf flags := by
  simp only [isLeaf, testBit_entry n hf (show 1 < 10 by decide), testBit_entry n hf (show 2 < 10 by decide),
    testBit_entry n hf (show 3 < 10 by decide)]

theorem ppn_entry {n flags : Nat} (hf : flags < 2 ^ 10) (hn : n < 2 ^ F.ppnBits) : F.ppn (n * 2 ^ 10 + flags) = n := by
  rw [ppn, Nat.add_comm, Nat.add_mul_div_right _ _ (by decide), Nat.div_eq_of_lt hf, Nat.zero_add, Nat.mod_eq_of_lt hn]

/-- The walk goes on at a pointer, -/
theorem walk_pointer {va level base n flags : Nat} (h : F.Same (n * 2 ^ 10 + flags) (read (F.slot va (level + 1) base)))
    (hf : flags < 2 ^ 10) (hv : valid flags = true) (hl : isLeaf flags = false) (hn : n < 2 ^ F.ppnBits) :
    F.walk read va (level + 1) base = F.walk read va level n := by
  rw [walk, h.valid, valid_entry n hf, hv, h.isLeaf, isLeaf_entry n hf, hl, h.ppn, ppn_entry hf hn]
  simp

/-- and ends at a page. -/
theorem walk_page {va level base n flags : Nat} (h : F.Same (n * 2 ^ 10 + flags) (read (F.slot va level base)))
    (hf : flags < 2 ^ 10) (hv : valid flags = true) (hl : isLeaf flags = true) :
    F.walk read va level base = some ⟨level, F.slot va level base, read (F.slot va level base)⟩ := by
  cases level with
  | zero => rw [walk, h.valid, valid_entry n hf, hv, h.isLeaf, isLeaf_entry n hf, hl]; simp
  | succ level => rw [walk, h.valid, valid_entry n hf, hv, h.isLeaf, isLeaf_entry n hf, hl]; simp

theorem walk_invalid {va level base : Nat} (h : valid (read (F.slot va level base)) = false) :
    F.walk read va level base = none := by
  cases level <;> rw [walk, if_pos h]

/-- A leaf and an invalid entry are the last that is read. -/
theorem slots_stop {va level base : Nat}
    (h : valid (read (F.slot va level base)) = false ∨ isLeaf (read (F.slot va level base)) = true) :
    F.slots read va level base = [F.slot va level base] := by
  cases level with
  | zero => rfl
  | succ level => rw [slots, if_pos h]

/-- An address with no bit but below the index of a level. -/
theorem lt_of_vpn {va level : Nat} (h : F.vpn va level = 0) (hva : va < 2 ^ (12 + F.vpnBits * level + F.vpnBits)) :
    va < 2 ^ 12 * 2 ^ (F.vpnBits * level) := by
  have hquot : va / 2 ^ (12 + F.vpnBits * level) < 2 ^ F.vpnBits := by
    rw [Nat.div_lt_iff_lt_mul (Nat.two_pow_pos _), ← Nat.pow_add, Nat.add_comm F.vpnBits]
    exact hva
  rw [vpn, Nat.mod_eq_of_lt hquot, Nat.div_eq_zero_iff_lt (Nat.two_pow_pos _), Nat.pow_add] at h
  exact h

/-- A page of the smallest size translates what leads to it. -/
theorem translate_page {va level base : Nat} {slot e n : Nat} (hw : F.walk read va level base = some ⟨0, slot, e⟩)
    (he : F.ppn e = n) : F.translate read va level base = some ⟨0, slot, e⟩ ∧
      F.address va ⟨0, slot, e⟩ = n * 2 ^ 12 + va % 2 ^ 12 := by
  have ha : F.Aligned ⟨0, slot, e⟩ := Nat.mod_one _
  refine ⟨by rw [translate, hw, Option.bind_some, if_pos ha], ?_⟩
  rw [address, he, Nat.mul_zero, Nat.pow_zero, Nat.div_one, Nat.mul_one, Nat.mod_one, Nat.add_zero]

end Format

/-- The two-level format of 32-bit addresses. -/
def sv32 : Format := ⟨10, 4, 22⟩

/-- The three-level format of 39-bit addresses. -/
def sv39 : Format := ⟨9, 8, 44⟩

end PageWalk
