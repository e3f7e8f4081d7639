/-
Little-endian byte memories.

A `Store w` is a memory of `2^w` bytes; addresses wrap. `store` writes the
low bytes of a word one after another and `load` composes a word from
consecutive bytes. `store_apply` says which bytes a store changes, and
`store_append` that a store splits at any byte, so a wide write is two
narrower ones. An `Area` is a stretch of bytes; `fill` writes a table of
words, and `load_fill` reads one back.
-/
import Mathlib.Algebra.BigOperators.Group.Finset.Basic
import RiscvEmulator.Lib.Bits

namespace Bytes

/-- A memory of `2^w` bytes. -/
abbrev Store (w : Nat) := BitVec w → BitVec 8

/-- Byte `k` of a word, counted from the least significant. -/
def byteOf {n : Nat} (v : BitVec n) (k : Nat) : BitVec 8 := v.extractLsb' (8 * k) 8

/-- The word whose byte `j` is `f j` for `j < k`, and zero above. -/
def compose (n : Nat) (f : Nat → BitVec 8) : Nat → BitVec n
  | 0 => 0
  | k + 1 => compose n f k ||| ((f k).setWidth n <<< (8 * k))

/-- The word at `a`: `k` bytes, little-endian. -/
def load {w : Nat} (n : Nat) (s : Store w) (a : BitVec w) (k : Nat) : BitVec n :=
  compose n (fun j => s (a + BitVec.ofNat w j)) k

/-- The low `k` bytes of `v` written at `a`, byte by byte. -/
def store {w n : Nat} (s : Store w) (a : BitVec w) (v : BitVec n) : Nat → Store w
  | 0 => s
  | k + 1 => Function.update (store s a v k) (a + BitVec.ofNat w k) (byteOf v k)

/-! ## Words and their bytes -/

theorem getLsbD_byteOf {n : Nat} (v : BitVec n) (k i : Nat) :
    (byteOf v k).getLsbD i = (decide (i < 8) && v.getLsbD (8 * k + i)) := by
  simp [byteOf, BitVec.getLsbD_extractLsb']

theorem getLsbD_compose {n : Nat} (f : Nat → BitVec 8) (k i : Nat) :
    (compose n f k).getLsbD i = (decide (i < n) && decide (i < 8 * k) && (f (i / 8)).getLsbD (i % 8)) := by
  induction k with
  | zero => simp [compose]
  | succ k ih =>
    rw [compose, BitVec.getLsbD_or, ih, BitVec.getLsbD_shiftLeft, BitVec.getLsbD_setWidth]
    by_cases hn : i < n
    · by_cases h₁ : i < 8 * k
      · simp [hn, h₁, show i < 8 * (k + 1) by omega]
      · by_cases h₂ : i < 8 * (k + 1)
        · have hd : i / 8 = k := by omega
          have hm : i % 8 = i - 8 * k := by omega
          simp [hn, h₁, h₂, hd, hm, show i - 8 * k < n by omega]
        · have : ¬ i - 8 * k < 8 := by omega
          simp [hn, h₁, h₂, BitVec.getLsbD_of_ge _ _ (Nat.le_of_not_lt this)]
    · simp [hn]

/-- A word is composed of its own bytes. -/
theorem eq_compose {n : Nat} {v : BitVec n} {f : Nat → BitVec 8} {k : Nat}
    (hf : ∀ j < k, byteOf v j = f j) (hz : ∀ i, 8 * k ≤ i → v.getLsbD i = false) :
    v = compose n f k := by
  apply BitVec.eq_of_getLsbD_eq
  intro i hi
  rw [getLsbD_compose]
  by_cases h : i < 8 * k
  · rw [← hf (i / 8) (by omega), getLsbD_byteOf, show 8 * (i / 8) + i % 8 = i by omega]
    simp only [hi, h, show i % 8 < 8 by omega, decide_true, Bool.true_and]
  · rw [hz i (by omega)]; simp [h]

theorem byteOf_compose {n : Nat} {f : Nat → BitVec 8} {k j : Nat} (hj : j < k) (hn : 8 * k ≤ n) :
    byteOf (compose n f k) j = f j := by
  apply BitVec.eq_of_getLsbD_eq
  intro i hi
  rw [getLsbD_byteOf, getLsbD_compose, show (8 * j + i) / 8 = j by omega, show (8 * j + i) % 8 = i by omega]
  simp only [hi, show 8 * j + i < n by omega, show 8 * j + i < 8 * k by omega, decide_true, Bool.true_and]

theorem compose_congr {n : Nat} {f g : Nat → BitVec 8} {k : Nat} (h : ∀ j < k, f j = g j) :
    compose n f k = compose n g k := by
  induction k with
  | zero => rfl
  | succ k ih => rw [compose, compose, ih (fun j hj => h j (by omega)), h k (by omega)]

/-- Composing in two parts: `j` bytes, then `k` more above them. -/
theorem compose_append {n : Nat} (f : Nat → BitVec 8) (j k : Nat) :
    compose n f (j + k) = compose n f j ||| (compose n (fun i => f (j + i)) k <<< (8 * j)) := by
  induction k with
  | zero => simp [compose]
  | succ k ih =>
    rw [← Nat.add_assoc, compose, compose, ih, BitVec.shiftLeft_or_distrib, BitVec.or_assoc]
    congr 2
    rw [← BitVec.shiftLeft_add, show 8 * k + 8 * j = 8 * (j + k) by omega]

/-- The composed word as a number. -/
theorem toNat_compose {n : Nat} (f : Nat → BitVec 8) {k : Nat} (hn : 8 * k ≤ n) :
    (compose n f k).toNat = ∑ j ∈ Finset.range k, (f j).toNat * 2 ^ (8 * j) ∧
      (compose n f k).toNat < 2 ^ (8 * k) := by
  induction k with
  | zero => exact ⟨rfl, by simp [compose]⟩
  | succ k ih =>
    obtain ⟨hsum, hlt⟩ := ih (by omega)
    have hbyte : ((f k).setWidth n).toNat = (f k).toNat := BitVec.toNat_setWidth_of_le (by omega)
    have hf : (f k).toNat < 2 ^ 8 := (f k).isLt
    have hpow : 2 ^ (8 * (k + 1)) = 2 ^ 8 * 2 ^ (8 * k) := by
      rw [← Nat.pow_add]
      congr 1
      omega
    have htop : (f k).toNat * 2 ^ (8 * k) + 2 ^ (8 * k) ≤ 2 ^ (8 * (k + 1)) := by
      rw [hpow, ← Nat.succ_mul]
      exact Nat.mul_le_mul_right _ hf
    have hfit : 2 ^ (8 * (k + 1)) ≤ 2 ^ n := Nat.pow_le_pow_right (by decide) hn
    have hstep : (compose n f (k + 1)).toNat = (f k).toNat * 2 ^ (8 * k) + (compose n f k).toNat := by
      rw [compose, BitVec.or_comm, Bits.toNat_shiftLeft_or _ _ (by rw [hbyte]; omega) hlt, hbyte]
    rw [hstep, Finset.sum_range_succ, ← hsum]
    omega

theorem byteOf_byte (v : BitVec 8) : byteOf v 0 = v := by
  apply BitVec.eq_of_getLsbD_eq
  intro i hi
  rw [getLsbD_byteOf, Nat.mul_zero, Nat.zero_add, decide_eq_true hi, Bool.true_and]

theorem byteOf_shiftRight {n : Nat} (v : BitVec n) (j k : Nat) : byteOf (v >>> (8 * j)) k = byteOf v (j + k) := by
  apply BitVec.eq_of_getLsbD_eq
  intro i hi
  rw [getLsbD_byteOf, getLsbD_byteOf, BitVec.getLsbD_ushiftRight]
  congr 2; omega

theorem byteOf_setWidth {n m : Nat} (v : BitVec n) {k : Nat} (h : 8 * k + 8 ≤ m) :
    byteOf (v.setWidth m) k = byteOf v k := by
  apply BitVec.eq_of_getLsbD_eq
  intro i hi
  rw [getLsbD_byteOf, getLsbD_byteOf, BitVec.getLsbD_setWidth]
  simp [show 8 * k + i < m by omega]

/-- A word with the bytes from `o` on masked away and `v` put in their place. -/
theorem byteOf_patch {n d : Nat} (u m : BitVec n) (v : BitVec d) {s o c l : Nat} (hl : 8 * l + 8 ≤ n)
    (hd : d = 8 * c) (hs : s = 8 * o)
    (hm : ∀ j < 8, m.getLsbD (8 * l + j) = !decide (o ≤ l ∧ l < o + c)) :
    byteOf ((u &&& m) ||| (v.setWidth n <<< s)) l = if o ≤ l ∧ l < o + c then byteOf v (l - o) else byteOf u l := by
  subst hd hs
  apply BitVec.eq_of_getLsbD_eq
  intro j hj
  rw [getLsbD_byteOf, BitVec.getLsbD_or, BitVec.getLsbD_and, hm j hj, BitVec.getLsbD_shiftLeft,
    BitVec.getLsbD_setWidth]
  have hin : 8 * l + j < n := by omega
  by_cases h : o ≤ l ∧ l < o + c
  · have hshift : 8 * l + j - 8 * o = 8 * (l - o) + j := by omega
    have hlow : ¬ 8 * l + j < 8 * o := by omega
    have hdiff : 8 * (l - o) + j < n := by omega
    rw [if_pos h, getLsbD_byteOf, hshift]
    simp [hj, h, hin, hlow, hdiff]
  · rw [if_neg h, getLsbD_byteOf]
    by_cases hlow : 8 * l + j < 8 * o
    · simp [hj, h, hlow]
    · have hhigh : 8 * c ≤ 8 * l + j - 8 * o := by omega
      simp [hj, h, BitVec.getLsbD_of_ge v _ hhigh]

/-! ## Stores -/

/-- A place is its offset from another one. -/
theorem add_ofNat_sub {w : Nat} (a b : BitVec w) : a + BitVec.ofNat w (b - a).toNat = b := by
  rw [BitVec.ofNat_toNat, BitVec.setWidth_eq, BitVec.add_comm, BitVec.sub_add_cancel]

theorem toNat_offset {w : Nat} (a : BitVec w) {o : Nat} (h : o < 2 ^ w) : (a + BitVec.ofNat w o - a).toNat = o := by
  rw [BitVec.add_comm, BitVec.add_sub_cancel, BitVec.toNat_ofNat, Nat.mod_eq_of_lt h]

theorem toNat_sub_lt_iff {w k : Nat} (a b : BitVec w) (hk : k < 2 ^ w) :
    (b - a).toNat < k + 1 ↔ (b - a).toNat < k ∨ b = a + BitVec.ofNat w k := by
  have he : b = a + BitVec.ofNat w k ↔ (b - a).toNat = k := by
    constructor
    · rintro rfl
      exact toNat_offset a hk
    · intro h
      rw [← h, add_ofNat_sub]
  rw [he]; omega

/-- Which bytes a store changes, and to what. -/
theorem store_apply {w n : Nat} (s : Store w) (a : BitVec w) (v : BitVec n) {k : Nat} (hk : k ≤ 2 ^ w)
    (b : BitVec w) :
    store s a v k b = if (b - a).toNat < k then byteOf v (b - a).toNat else s b := by
  induction k with
  | zero => simp [store]
  | succ k ih =>
    rw [store, Function.update_apply, ih (by omega)]
    by_cases hb : b = a + BitVec.ofNat w k
    · have hd : (b - a).toNat = k := by
        rw [hb, toNat_offset a (by omega)]
      rw [if_pos hb, if_pos (by omega), hd]
    · have := toNat_sub_lt_iff a b (k := k) (by omega)
      simp only [hb, or_false] at this
      simp only [hb, if_false, this]

theorem store_congr {w n m : Nat} (s : Store w) (a : BitVec w) {v : BitVec n} {u : BitVec m} {k : Nat}
    (h : ∀ j < k, byteOf v j = byteOf u j) : store s a v k = store s a u k := by
  induction k with
  | zero => rfl
  | succ k ih => rw [store, store, ih (fun j hj => h j (by omega)), h k (by omega)]

/-- Only the bytes stored matter, not the width of the word they come from. -/
theorem store_setWidth {w n m : Nat} (s : Store w) (a : BitVec w) (v : BitVec n) {k : Nat} (h : 8 * k ≤ m) :
    store s a (v.setWidth m) k = store s a v k :=
  store_congr s a fun _ hj => byteOf_setWidth v (by omega)

/-- A store splits at any byte. -/
theorem store_append {w n : Nat} (s : Store w) (a : BitVec w) (v : BitVec n) (j k : Nat) :
    store s a v (j + k) = store (store s a v j) (a + BitVec.ofNat w j) (v >>> (8 * j)) k := by
  induction k with
  | zero => rfl
  | succ k ih =>
    rw [← Nat.add_assoc, store, store, ih, byteOf_shiftRight, BitVec.add_assoc, ← BitVec.ofNat_add]

/-- Offsets from a later start: `b` is `d` bytes past `a`, and `o ≤ d`. -/
theorem toNat_sub_add {w : Nat} (a b : BitVec w) {o : Nat} (h : o ≤ (b - a).toNat) :
    (b - (a + BitVec.ofNat w o)).toNat = (b - a).toNat - o := by
  have hlt := (b - a).isLt
  rw [← BitVec.sub_sub, BitVec.toNat_sub_of_le, BitVec.toNat_ofNat, Nat.mod_eq_of_lt (by omega)]
  rw [BitVec.le_def, BitVec.toNat_ofNat, Nat.mod_eq_of_lt (by omega)]; exact h

/-- Offsets from a later start wrap for what lies before it. -/
theorem toNat_sub_add_wrap {w : Nat} (a b : BitVec w) {o : Nat} (ho : o < 2 ^ w) (h : (b - a).toNat < o) :
    (b - (a + BitVec.ofNat w o)).toNat = 2 ^ w - o + (b - a).toNat := by
  rw [← BitVec.sub_sub, BitVec.toNat_sub, BitVec.toNat_ofNat, Nat.mod_eq_of_lt ho, Nat.mod_eq_of_lt (by omega)]

/-- Rewriting `m` bytes that differ from the memory only in `n` of them is
storing those `n`. -/
theorem store_patch {w p q : Nat} (s : Store w) (a : BitVec w) {u : BitVec p} {v : BitVec q} {o n m : Nat}
    (hm : o + n ≤ m) (hw : m < 2 ^ w)
    (h : ∀ l < m, byteOf u l = if o ≤ l ∧ l < o + n then byteOf v (l - o) else s (a + BitVec.ofNat w l)) :
    store s a u m = store s (a + BitVec.ofNat w o) v n := by
  funext b
  rw [store_apply s a u (by omega), store_apply s _ v (by omega)]
  have hb : a + BitVec.ofNat w (b - a).toNat = b := add_ofNat_sub a b
  by_cases ho : o ≤ (b - a).toNat
  · rw [toNat_sub_add a b ho]
    by_cases hn : (b - a).toNat < o + n
    · rw [if_pos (by omega), if_pos (by omega), h _ (by omega), if_pos ⟨ho, hn⟩]
    · rw [if_neg (show ¬ (b - a).toNat - o < n by omega)]
      split
      · next hlt => rw [h _ hlt, if_neg (by omega), hb]
      · rfl
  · rw [toNat_sub_add_wrap a b (by omega) (by omega)]
    rw [if_neg (show ¬ 2 ^ w - o + (b - a).toNat < n by omega)]
    split
    · next hlt => rw [h _ hlt, if_neg (by omega), hb]
    · rfl

/-- A store at an offset, in offsets. -/
theorem store_offset {w n : Nat} (s : Store w) (a : BitVec w) (v : BitVec n) {o k : Nat} (h : o + k ≤ 2 ^ w)
    (b : BitVec w) :
    store s (a + BitVec.ofNat w o) v k b =
      if o ≤ (b - a).toNat ∧ (b - a).toNat < o + k then byteOf v ((b - a).toNat - o) else s b := by
  rw [store_apply s _ v (by omega)]
  by_cases ho : o ≤ (b - a).toNat
  · rw [toNat_sub_add a b ho]
    by_cases hk : (b - a).toNat < o + k
    · rw [if_pos (by omega), if_pos ⟨ho, hk⟩]
    · rw [if_neg (by omega), if_neg (fun h => hk h.2)]
  · have hout : ¬ (b - (a + BitVec.ofNat w o)).toNat < k := by
      by_cases hw : o < 2 ^ w
      · rw [toNat_sub_add_wrap a b hw (by omega)]
        omega
      · omega
    rw [if_neg hout, if_neg (fun h => ho h.1)]

theorem load_congr {w n : Nat} {s t : Store w} {a : BitVec w} {k : Nat}
    (h : ∀ j < k, s (a + BitVec.ofNat w j) = t (a + BitVec.ofNat w j)) : load n s a k = load n t a k :=
  compose_congr h

/-- A word that has been stored is loaded. -/
theorem load_store {w n : Nat} (s : Store w) (a : BitVec w) (v : BitVec n) {k : Nat} (hn : n = 8 * k) (hk : k ≤ 2 ^ w) :
    load n (store s a v k) a k = v := by
  symm
  refine eq_compose (fun j hj => ?_) fun i hi => BitVec.getLsbD_of_ge _ _ (by omega)
  rw [store_apply s a v hk, toNat_offset a (by omega), if_pos hj]

/-- Storing the word that is there changes nothing. -/
theorem store_load {w n : Nat} (s : Store w) (a : BitVec w) {k : Nat} (hn : 8 * k ≤ n) (hk : k ≤ 2 ^ w) :
    store s a (load n s a k) k = s := by
  funext b
  rw [store_apply s a _ hk]
  split
  · next hb =>
    rw [load, byteOf_compose hb hn, add_ofNat_sub]
  · rfl

/-- A word apart from the bytes stored is loaded as before. -/
theorem load_store_of_apart {w n p : Nat} (s : Store w) (a : BitVec w) (v : BitVec p) {o k o' k' : Nat}
    (h : o + k ≤ 2 ^ w) (h' : o' + k' ≤ 2 ^ w) (hd : o' + k' ≤ o ∨ o + k ≤ o') :
    load n (store s (a + BitVec.ofNat w o) v k) (a + BitVec.ofNat w o') k' = load n s (a + BitVec.ofNat w o') k' := by
  refine load_congr fun j hj => ?_
  rw [store_offset s a v h, BitVec.add_assoc, ← BitVec.ofNat_add, toNat_offset a (by omega), if_neg (by omega)]

/-- Loading into a wider word gives the same word. -/
theorem load_setWidth {w n p : Nat} (s : Store w) (a : BitVec w) {k : Nat} (hn : 8 * k ≤ n) :
    (load n s a k).setWidth p = load p s a k := by
  apply BitVec.eq_of_getLsbD_eq
  intro i hi
  rw [BitVec.getLsbD_setWidth, load, load, getLsbD_compose, getLsbD_compose]
  by_cases h : i < 8 * k
  · simp [hi, h, show i < n by omega]
  · simp [h]

theorem getLsbD_load_of_ge {w n : Nat} (s : Store w) (a : BitVec w) {k i : Nat} (h : 8 * k ≤ i) :
    (load n s a k).getLsbD i = false := by
  rw [load, getLsbD_compose]
  simp [show ¬ i < 8 * k by omega]

/-- A load splits at any byte. -/
theorem load_append {w n : Nat} (s : Store w) (a : BitVec w) (j k : Nat) :
    load n s a (j + k) = load n s a j ||| (load n s (a + BitVec.ofNat w j) k <<< (8 * j)) := by
  rw [load, compose_append, load, load]
  congr 3
  funext i
  rw [BitVec.ofNat_add, BitVec.add_assoc]

/-! ## Areas -/

/-- A stretch of a memory: its first byte and its length. -/
abbrev Area (w : Nat) := BitVec w × Nat

def InArea {w : Nat} (x : Area w) (b : BitVec w) : Prop := (b - x.1).toNat < x.2

instance {w : Nat} (x : Area w) (b : BitVec w) : Decidable (InArea x b) := inferInstanceAs (Decidable (_ < _))

def Apart {w : Nat} (x y : Area w) : Prop := ∀ b, ¬ (InArea x b ∧ InArea y b)

theorem inArea_offset {w n : Nat} (a : BitVec w) {k : Nat} (hk : k < n) (hw : k < 2 ^ w) :
    InArea (a, n) (a + BitVec.ofNat w k) := by
  rw [InArea, toNat_offset a hw]
  exact hk

/-- Into an area that does not wrap. -/
theorem toNat_sub_ofNat {w x : Nat} {b : BitVec w} (h : x ≤ b.toNat) : (b - BitVec.ofNat w x).toNat = b.toNat - x := by
  have hx : (BitVec.ofNat w x).toNat = x := BitVec.toNat_ofNat x w ▸ Nat.mod_eq_of_lt (Nat.lt_of_le_of_lt h b.isLt)
  rw [BitVec.toNat_sub_of_le (by rw [BitVec.le_def, hx]; exact h), hx]

theorem inArea_ofNat {w x n : Nat} (h : x + n ≤ 2 ^ w) (b : BitVec w) :
    InArea (BitVec.ofNat w x, n) b ↔ x ≤ b.toNat ∧ b.toNat < x + n := by
  have hb := b.isLt
  rw [InArea]
  by_cases hle : x ≤ b.toNat
  · rw [toNat_sub_ofNat hle]
    omega
  · refine iff_of_false (fun hin => ?_) fun hin => hle hin.1
    rcases Nat.eq_zero_or_pos n with rfl | hn
    · exact Nat.not_lt_zero _ hin
    · rw [BitVec.toNat_sub, BitVec.toNat_ofNat, Nat.mod_eq_of_lt (show x < 2 ^ w by omega),
        Nat.mod_eq_of_lt (by omega)] at hin
      omega

/-- Areas one after the other, which do not wrap. -/
theorem apart_of_le {w : Nat} {x y : Area w} (h : x.1.toNat + x.2 ≤ 2 ^ w ∧ y.1.toNat + y.2 ≤ 2 ^ w ∧
    (x.1.toNat + x.2 ≤ y.1.toNat ∨ y.1.toNat + y.2 ≤ x.1.toNat)) : Apart x y := by
  intro b
  have hb := b.isLt
  have hlt : ∀ n, n < 2 ^ w → n % 2 ^ w = n := fun n h => Nat.mod_eq_of_lt h
  have hge : ∀ n, 2 ^ w ≤ n → n < 2 * 2 ^ w → n % 2 ^ w = n - 2 ^ w := fun n h h' => by
    rw [Nat.mod_eq_sub_mod h, hlt _ (by omega)]
  rw [InArea, InArea, BitVec.toNat_sub, BitVec.toNat_sub]
  rintro ⟨hx, hy⟩
  by_cases hbx : x.1.toNat ≤ b.toNat
  · by_cases hby : y.1.toNat ≤ b.toNat
    · rw [hge _ (by omega) (by omega)] at hx hy
      omega
    · rw [hlt _ (by omega)] at hy
      omega
  · rw [hlt _ (by omega)] at hx
    omega

/-- A store changes its own bytes. -/
theorem store_of_outside {w n : Nat} (s : Store w) (a : BitVec w) (v : BitVec n) {k : Nat}
    (hk : k ≤ 2 ^ w) {b : BitVec w}
    (hb : ¬ InArea (a, k) b) : store s a v k b = s b := by
  rw [store_apply s a v hk]
  exact if_neg hb

/-! ## Tables -/

/-- Words of `k` bytes written one after another from `a`: `f 0`, `f 1`, ... -/
def fill {w n : Nat} (s : Store w) (a : BitVec w) (k : Nat) (f : Nat → BitVec n) : Nat → Store w
  | 0 => s
  | i + 1 => store (fill s a k f i) (a + BitVec.ofNat w (k * i)) (f i) k

/-- A table continued by another is one table. -/
theorem fill_append {w n : Nat} (s : Store w) (a : BitVec w) (k : Nat) (f : Nat → BitVec n) (c d : Nat) :
    fill (fill s a k f c) (a + BitVec.ofNat w (k * c)) k (fun i => f (c + i)) d = fill s a k f (c + d) := by
  induction d with
  | zero => rfl
  | succ d ih =>
    rw [fill, ih, ← Nat.add_assoc, fill, BitVec.add_assoc, ← BitVec.ofNat_add, Nat.mul_add]

/-- What lies outside the table is kept. -/
theorem fill_of_outside {w n : Nat} (s : Store w) (a : BitVec w) {k : Nat} (f : Nat → BitVec n) {c : Nat}
    (hc : k * c ≤ 2 ^ w) {b : BitVec w} (hb : k * c ≤ (b - a).toNat) : fill s a k f c b = s b := by
  induction c with
  | zero => rfl
  | succ c ih =>
    rw [Nat.mul_add, Nat.mul_one] at hc hb
    rw [fill, store_offset _ a _ hc, if_neg (by omega), ih (by omega) (by omega)]

/-- A table of bytes. -/
theorem fill_byte {w : Nat} (s : Store w) (a : BitVec w) (f : Nat → BitVec 8) {c : Nat} (hc : c ≤ 2 ^ w)
    (b : BitVec w) :
    fill s a 1 f c b = if InArea (a, c) b then f (b - a).toNat else s b := by
  change _ = if (b - a).toNat < c then f (b - a).toNat else s b
  induction c with
  | zero => rfl
  | succ c ih =>
    rw [fill, Nat.one_mul, store_offset _ a _ hc, ih (by omega)]
    by_cases hb : (b - a).toNat = c
    · rw [if_pos (by omega), if_pos (by omega), hb, Nat.sub_self, byteOf_byte]
    · rw [if_neg (by omega)]
      by_cases hlt : (b - a).toNat < c
      · rw [if_pos hlt, if_pos (by omega)]
      · rw [if_neg hlt, if_neg (by omega)]

/-- The first byte does not depend on the memory, -/
theorem fill_byte_first {w : Nat} (s : Store w) (a : BitVec w) (f : Nat → BitVec 8) {c : Nat} (hc : c ≤ 2 ^ w)
    (hpos : 0 < c) : fill s a 1 f c a = f 0 := by
  have hin : InArea (a, c) a := by simpa [InArea] using hpos
  rw [fill_byte s a f hc, if_pos hin, BitVec.sub_self]
  rfl

/-- and any other on no more than what was there. -/
theorem fill_byte_congr {w : Nat} {s t : Store w} {b : BitVec w} (h : s b = t b) (a : BitVec w) (f : Nat → BitVec 8)
    {c : Nat} (hc : c ≤ 2 ^ w) : fill s a 1 f c b = fill t a 1 f c b := by
  rw [fill_byte s a f hc, fill_byte t a f hc, h]

/-- A word of the table is loaded. -/
theorem load_fill {w n : Nat} (s : Store w) (a : BitVec w) {k : Nat} (f : Nat → BitVec n) {i c : Nat} (hn : n = 8 * k)
    (hc : k * c ≤ 2 ^ w) (hi : i < c) : load n (fill s a k f c) (a + BitVec.ofNat w (k * i)) k = f i := by
  induction c with
  | zero => omega
  | succ c ih =>
    have hle : k * i ≤ k * c := Nat.mul_le_mul_left k (by omega)
    rw [Nat.mul_add, Nat.mul_one] at hc
    rw [fill]
    by_cases h : i = c
    · subst h
      exact load_store _ _ _ hn (by omega)
    · have hend : k * i + k ≤ k * c := by
        rw [← Nat.mul_succ]; exact Nat.mul_le_mul_left k (by omega)
      rw [load_store_of_apart _ a _ hc (by omega) (.inl hend)]
      exact ih (by omega) (by omega)

end Bytes
