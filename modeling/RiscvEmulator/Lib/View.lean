/-
A memory behind another one.

`place` says where the bytes of one memory are in another, as far as they
are anywhere. `Shows place hidden s t` says that `t` has the bytes of `s` at
their places, but for those that are hidden. A stretch that is placed in one
piece is loaded alike from both (`Shows.load`), and where no two bytes share
a place a store to both keeps them together (`Shows.store`).
-/
import RiscvEmulator.Lib.Bytes

namespace Bytes

variable {w v : Nat} {place : BitVec w → Option (BitVec v)} {hidden : BitVec v → Prop} {s : Store w} {t t' : Store v}

/-- The bytes of `s` are in `t`, at their places. -/
def Shows (place : BitVec w → Option (BitVec v)) (hidden : BitVec v → Prop) (s : Store w) (t : Store v) : Prop :=
  ∀ b p, place b = some p → ¬ hidden p → t p = s b

/-- The `k` bytes at `a` are at `p`, one after another. -/
def PlacedAt (place : BitVec w → Option (BitVec v)) (a : BitVec w) (p : BitVec v) (k : Nat) : Prop :=
  ∀ j < k, place (a + BitVec.ofNat w j) = some (p + BitVec.ofNat v j)

/-- No two bytes share a place. -/
def Separate (place : BitVec w → Option (BitVec v)) : Prop := ∀ b b' p, place b = some p → place b' = some p → b = b'

theorem Shows.congr (h : Shows place hidden s t) (ht : ∀ b p, place b = some p → ¬ hidden p → t' p = t p) :
    Shows place hidden s t' := fun b p hb hp => (ht b p hb hp).trans (h b p hb hp)

variable {a : BitVec w} {p : BitVec v} {k : Nat}

theorem Shows.load (h : Shows place hidden s t) (ha : PlacedAt place a p k)
    (hp : ∀ j < k, ¬ hidden (p + BitVec.ofNat v j)) (n : Nat) : load n t p k = load n s a k :=
  compose_congr fun j hj => h _ _ (ha j hj) (hp j hj)

theorem Shows.store {n : Nat} (h : Shows place hidden s t) (hsep : Separate place) (ha : PlacedAt place a p k)
    (hw : k ≤ 2 ^ w) (hv : k ≤ 2 ^ v) (x : BitVec n) : Shows place hidden (store s a x k) (store t p x k) := by
  intro b q hb hq
  rw [store_apply _ _ _ hv, store_apply _ _ _ hw]
  by_cases hin : (b - a).toNat < k
  · -- A byte that is stored, at its place.
    have hplace := ha _ hin
    rw [add_ofNat_sub, hb] at hplace
    cases hplace
    rw [toNat_offset _ (by omega), if_pos hin, if_pos hin]
  · have hout : ¬ (q - p).toNat < k := by
      intro hlt
      have hplace := ha _ hlt
      rw [add_ofNat_sub] at hplace
      have hba := hsep _ _ _ hb hplace
      rw [hba, toNat_offset _ (by omega)] at hin
      exact hin hlt
    rw [if_neg hin, if_neg hout, h b q hb hq]

end Bytes
