/-
Words laid out in fields.

A `Layout` gives each field its place in a word, apart from the others.
Reading and writing fields is lawful (`Layout.lawful`): what is written is
read, no other field changes, and writing what is read changes nothing.
`Lawful.of_layout` carries the laws to accessors of a field that read and
write it as a layout does.
-/
import RiscvEmulator.Lib.Bits

namespace Bits

/-- The laws of reading and writing, of a state, a field and a value. -/
structure Lawful {σ ι α : Type} (get : σ → ι → α) (set : σ → ι → α → σ) (s : σ) (f : ι) (v : α) : Prop where
  get_set : get (set s f v) f = v
  get_set_ne : ∀ g, g ≠ f → get (set s f v) g = get s g
  set_get : set s f (get s f) = s

/-- The places of the fields of a word of `n` bits. -/
structure Layout (n : Nat) (ι : Type) where
  width : ι → Nat
  offset : ι → Nat
  fits : ∀ f, width f + offset f ≤ n
  apart : ∀ f g, f ≠ g → offset f + width f ≤ offset g ∨ offset g + width g ≤ offset f

namespace Layout

variable {n : Nat} {ι : Type} (L : Layout n ι)

def get (v : BitVec n) (f : ι) : BitVec n := crop v (L.width f) (L.offset f)

def set (v : BitVec n) (f : ι) (x : BitVec n) : BitVec n := put v (L.width f) (L.offset f) x

theorem lawful (v : BitVec n) {f : ι} {x : BitVec n} (h : x.toNat < 2 ^ L.width f) : Lawful L.get L.set v f x where
  get_set := by rw [get, set, crop_put_same v x (L.fits f), crop_zero_of_lt h]
  get_set_ne g hne := crop_put_of_apart v x (L.apart f g hne.symm)
  set_get := put_crop v

end Layout

/-- Accessors that read and write a field as a layout does, and of the others
read no more than the layout gives. -/
theorem Lawful.of_layout {n : Nat} {ι σ : Type} (L : Layout n ι) {word : σ → BitVec n} {get : σ → ι → BitVec n}
    {set : σ → ι → BitVec n → σ} {s : σ} {f : ι} {v : BitVec n} (hword : ∀ s t, word s = word t → s = t)
    (hother : ∀ s t g, L.get (word s) g = L.get (word t) g → get s g = get t g)
    (hget : ∀ s, get s f = L.get (word s) f)
    (hset : ∀ x, x.toNat < 2 ^ L.width f → word (set s f x) = L.set (word s) f x) (hv : v.toNat < 2 ^ L.width f) :
    Lawful get set s f v where
  get_set := by rw [hget, hset v hv, (L.lawful (word s) hv).get_set]
  get_set_ne g hne := hother _ _ g (by rw [hset v hv, (L.lawful (word s) hv).get_set_ne g hne])
  set_get := by
    have hlt : (get s f).toNat < 2 ^ L.width f := by
      rw [hget]
      exact toNat_crop_lt _ _ _
    apply hword
    rw [hset _ hlt, hget, (L.lawful (word s) hv).set_get]

end Bits
