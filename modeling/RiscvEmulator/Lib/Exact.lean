/-
Computations that return just when a condition holds.

`Yields x p R` says that `x` returns a result related by `R` if `p`, and
none otherwise. The rules follow the constructs a partial computation is
made of: `bind`, a test, a search (`searchFrom`), a counted loop and a
machine counter's loop (`countUp`).

A computation that may go on for ever takes fuel. `YieldsIn N out x p R` says
the same of it: with any fuel it returns such a result only if `p`, and then
it does so with `N` or more and runs out with less, which is the error `out`.
-/
import Mathlib.Algebra.Group.Nat.Defs
import RiscvEmulator.Lib.Run

namespace Except

variable {ε α β : Type} {x y : Except ε α} {f : α → Except ε β} {p q c : Prop} {R S : α → Prop} {T : β → Prop}

structure Yields (x : Except ε α) (p : Prop) (R : α → Prop) : Prop where
  only : ∀ a, x = .ok a → p ∧ R a
  does : p → ∃ a, x = .ok a

theorem Yields.ok (a : α) : Yields (.ok a : Except ε α) True (· = a) where
  only _ h := ⟨trivial, (Except.ok.inj h).symm⟩
  does _ := ⟨a, rfl⟩

theorem Yields.error (e : ε) : Yields (.error e : Except ε α) False R where
  only _ h := by cases h
  does h := h.elim

theorem Yields.bind (h : Yields x p R) (hf : p → ∀ a, R a → Yields (f a) q T) : Yields (x >>= f) (p ∧ q) T where
  only b hb := by
    obtain ⟨a, ha, hfa⟩ := Except.bind_ok_iff.mp hb
    obtain ⟨hp, hR⟩ := h.only a ha
    obtain ⟨hq, hT⟩ := (hf hp a hR).only b hfa
    exact ⟨⟨hp, hq⟩, hT⟩
  does := by
    rintro ⟨hp, hq⟩
    obtain ⟨a, ha⟩ := h.does hp
    obtain ⟨b, hb⟩ := (hf hp a (h.only a ha).2).does hq
    exact ⟨b, by rw [ha, Except.ok_bind, hb]⟩

/-- After a computation with one result. -/
theorem Yields.bind_eq {v : α} (h : Yields x p (· = v)) (hf : p → Yields (f v) q T) : Yields (x >>= f) (p ∧ q) T :=
  h.bind fun hp a ha => by
    rw [ha]
    exact hf hp

theorem Yields.ite [Decidable c] (ht : c → Yields x p R) (he : ¬ c → Yields y q R) :
    Yields (if c then x else y) (if c then p else q) R := by
  by_cases hc : c
  · rw [if_pos hc, if_pos hc]
    exact ht hc
  · rw [if_neg hc, if_neg hc]
    exact he hc

theorem Yields.congr (h : Yields x p R) (hp : p ↔ q) (hR : ∀ a, q → R a → S a) : Yields x q S where
  only a ha := ⟨hp.mp (h.only a ha).1, hR a (hp.mp (h.only a ha).1) (h.only a ha).2⟩
  does hq := h.does (hp.mpr hq)

theorem Yields.of_iff (hp : q ↔ p) (h : Yields x p R) : Yields x q R :=
  h.congr hp.symm fun _ _ hR => hR

theorem Yields.returns {v : α} (h : Yields x p (· = v)) (hp : p) : x = .ok v := by
  obtain ⟨a, ha⟩ := h.does hp
  rw [ha, (h.only a ha).2]

end Except

namespace Run

open Except (Yields)

variable {ε σ α β : Type} {p q c : Prop} {N : Nat}

/-! ## Searches -/

/-- The first of `n` rounds, from `i` on, that finds something. -/
def searchFrom (f : Nat → Except ε (Option α)) : (n i : Nat) → Except ε (Option α)
  | 0, _ => .ok none
  | n + 1, i => do
    match ← f i with
    | some a => return some a
    | none => searchFrom f n (i + 1)

/-- A search returns just when every round up to the one that finds returns. -/
theorem searchFrom_yields {f : Nat → Except ε (Option α)} {v : Nat → Option α} {p : Nat → Prop}
    (n i : Nat) (h : ∀ k, i ≤ k → k < i + n → Yields (f k) (p k) (· = v k)) :
    Yields (searchFrom f n i) (∀ k < n, (∀ j < k, v (i + j) = none) → p (i + k))
      (· = (List.range' i n).findSome? v) := by
  induction n generalizing i with
  | zero => exact (Yields.ok none).congr (by simp) fun a _ ha => ha
  | succ n ih =>
    have hrest : Yields (match v i with
      | some a => (.ok (some a) : Except ε (Option α)) | none => searchFrom f n (i + 1))
        (v i = none → ∀ k < n, (∀ j < k, v (i + 1 + j) = none) → p (i + 1 + k))
        (· = (List.range' i (n + 1)).findSome? v) := by
      rw [List.range'_succ, List.findSome?_cons]
      cases hv : v i with
      | some a => exact (Yields.ok (some a)).congr (by simp) fun b _ hb => hb
      | none => exact (ih (i + 1) fun k hk hkn => h k (by omega) (by omega)).congr (by simp) fun b _ hb => hb
    refine ((h i (by omega) (by omega)).bind_eq fun _ => hrest).congr ⟨?_, fun hall => ⟨?_, ?_⟩⟩ fun b _ hb => hb
    · rintro ⟨hi, hrest⟩ k hk hnone
      cases k with
      | zero => exact hi
      | succ k =>
        rw [show i + (k + 1) = i + 1 + k by omega]
        refine hrest (hnone 0 (by omega)) k (by omega) fun j hj => ?_
        rw [show i + 1 + j = i + (j + 1) by omega]
        exact hnone (j + 1) (by omega)
    · exact hall 0 (by omega) fun j hj => absurd hj (by omega)
    · intro hi k hk hnone
      rw [show i + 1 + k = i + (k + 1) by omega]
      refine hall (k + 1) (by omega) fun j hj => ?_
      cases j with
      | zero => exact hi
      | succ j =>
        rw [show i + (j + 1) = i + 1 + j by omega]
        exact hnone j (by omega)

/-! ## Fuel -/

structure YieldsIn (N : Nat) (out : ε) (x : Nat → Except ε α) (p : Prop) (R : α → Prop) : Prop where
  only : ∀ fuel a, x fuel = .ok a → p ∧ R a
  does : p → ∀ fuel, N ≤ fuel → ∃ a, x fuel = .ok a
  stops : p → ∀ fuel e, x fuel = .error e → e = out

section

variable {out : ε} {x y : Nat → Except ε α} {f : Nat → α → Except ε β} {R S : α → Prop} {T : β → Prop}

theorem YieldsIn.of_yields {x : Except ε α} (h : Yields x p R) : YieldsIn N out (fun _ => x) p R where
  only _ := h.only
  does hp _ _ := h.does hp
  stops hp _ e he := by
    obtain ⟨a, ha⟩ := h.does hp
    rw [ha] at he
    cases he

theorem YieldsIn.bind (h : YieldsIn N out x p R) (hf : p → ∀ a, R a → YieldsIn N out (f · a) q T) :
    YieldsIn N out (fun fuel => x fuel >>= f fuel) (p ∧ q) T where
  only fuel b hb := by
    obtain ⟨a, ha, hfa⟩ := Except.bind_ok_iff.mp hb
    obtain ⟨hp, hR⟩ := h.only fuel a ha
    obtain ⟨hq, hT⟩ := (hf hp a hR).only fuel b hfa
    exact ⟨⟨hp, hq⟩, hT⟩
  does := by
    rintro ⟨hp, hq⟩ fuel hN
    obtain ⟨a, ha⟩ := h.does hp fuel hN
    obtain ⟨b, hb⟩ := (hf hp a (h.only fuel a ha).2).does hq fuel hN
    exact ⟨b, by rw [ha, Except.ok_bind, hb]⟩
  stops := by
    rintro ⟨hp, hq⟩ fuel e he
    cases hx : x fuel with
    | error e' =>
      rw [hx] at he
      cases he
      exact h.stops hp fuel _ hx
    | ok a =>
      rw [hx, Except.ok_bind] at he
      exact (hf hp a (h.only fuel a hx).2).stops hq fuel e he

theorem YieldsIn.bind_eq {x : Except ε α} {v : α} (h : Yields x p (· = v)) (hf : p → YieldsIn N out (f · v) q T) :
    YieldsIn N out (fun fuel => x >>= f fuel) (p ∧ q) T :=
  (YieldsIn.of_yields h).bind fun hp a ha => by
    rw [ha]
    exact hf hp

theorem YieldsIn.ite [Decidable c] (ht : c → YieldsIn N out x p R) (he : ¬ c → YieldsIn N out y q R) :
    YieldsIn N out (fun fuel => if c then x fuel else y fuel) (if c then p else q) R := by
  by_cases hc : c
  · simp only [if_pos hc]
    exact ht hc
  · simp only [if_neg hc]
    exact he hc

theorem YieldsIn.congr (h : YieldsIn N out x p R) (hp : p ↔ q) (hR : ∀ a, q → R a → S a) :
    YieldsIn N out x q S where
  only fuel a ha := ⟨hp.mp (h.only fuel a ha).1, hR a (hp.mp (h.only fuel a ha).1) (h.only fuel a ha).2⟩
  does hq := h.does (hp.mpr hq)
  stops hq := h.stops (hp.mpr hq)

theorem YieldsIn.of_iff (hp : q ↔ p) (h : YieldsIn N out x p R) : YieldsIn N out x q R :=
  h.congr hp.symm fun _ _ hR => hR

end

/-! ## Loops -/

/-- A counted loop whose rounds keep an invariant of the number of rounds
done returns just when every round returns. -/
theorem YieldsIn.rounds {out : ε} {body : Nat → Nat → σ → Except ε σ} {I : Nat → σ → Prop} {p : Nat → Prop} (n : Nat)
    {s : σ} (hs : I 0 s) (h : ∀ i < n, ∀ s, I i s → YieldsIn N out (fun fuel => body fuel i s) (p i) (I (i + 1))) :
    YieldsIn N out (fun fuel => Run.rounds (body fuel) n s) (∀ i < n, p i) (I n) := by
  induction n with
  | zero => exact (YieldsIn.of_yields (Yields.ok s)).congr (by simp) fun a _ ha => ha ▸ hs
  | succ n ih =>
    refine ((ih fun i hi => h i (by omega)).bind fun _ t ht => h n (by omega) t ht).congr ?_ fun a _ ha => ha
    rw [Nat.forall_lt_succ_right]

/-- `for (i = start; i < bound; i++)` with a counter of `w` bits; `out` is
what running out of fuel gives. -/
def countUp (w : Nat) (out : ε) (bound : Nat) (body : Nat → σ → Except ε σ) : (fuel i : Nat) → σ → Except ε σ
  | 0, _, _ => .error out
  | fuel + 1, i, s =>
    if i < bound then do
      let s ← body i s
      countUp w out bound body fuel ((i + 1) % 2 ^ w) s
    else
      .ok s

section

variable {w bound : Nat} {out : ε} {body : Nat → σ → Except ε σ}

theorem countUp_succ (fuel i : Nat) (s : σ) : countUp w out bound body (fuel + 1) i s =
    if i < bound then body i s >>= countUp w out bound body fuel ((i + 1) % 2 ^ w) else .ok s := rfl

/-- A counter that cannot reach its bound counts for ever. -/
theorem countUp_endless (hb : 2 ^ w ≤ bound) (fuel : Nat) {i : Nat} (hi : i < 2 ^ w) (s t : σ) :
    countUp w out bound body fuel i s ≠ .ok t := by
  induction fuel generalizing i s with
  | zero => intro h; cases h
  | succ fuel ih =>
    rw [countUp_succ, if_pos (by omega)]
    intro h
    obtain ⟨s', -, h⟩ := Except.bind_ok_iff.mp h
    exact ih (Nat.mod_lt _ (Nat.two_pow_pos w)) s' h

section

variable {I : Nat → σ → Prop} {p : Nat → Prop} (h : ∀ i s, I i s → Yields (body i s) (p i) (I (i + 1)))

include h

/-- Otherwise every round up to it returns, -/
theorem countUp_only (hb : bound < 2 ^ w) (fuel : Nat) {i : Nat} {s t : σ} (hi : i < 2 ^ w) (hs : I i s)
    (ht : countUp w out bound body fuel i s = .ok t) : (∀ k, i ≤ k → k < bound → p k) ∧ I (max i bound) t := by
  induction fuel generalizing i s with
  | zero => cases ht
  | succ fuel ih =>
    rw [countUp_succ] at ht
    split at ht
    · next hlt =>
      obtain ⟨s', hbody, ht⟩ := Except.bind_ok_iff.mp ht
      obtain ⟨hp, hI⟩ := (h i s hs).only s' hbody
      rw [Nat.mod_eq_of_lt (by omega)] at ht
      obtain ⟨hrest, hend⟩ := ih (by omega) hI ht
      refine ⟨fun k hk hkb => ?_, ?_⟩
      · rcases Nat.eq_or_lt_of_le hk with rfl | hlt'
        · exact hp
        · exact hrest k hlt' hkb
      · rw [Nat.max_eq_right (by omega)] at hend ⊢
        exact hend
    · next hge =>
      cases ht
      refine ⟨fun k hk hkb => absurd hkb (by omega), ?_⟩
      rw [Nat.max_eq_left (by omega)]
      exact hs

/-- fuel for the rounds is enough, -/
theorem countUp_does (hb : bound < 2 ^ w) {d : Nat} (fuel : Nat) {i : Nat} {s : σ} (hd : d = bound - i)
    (hfuel : d < fuel) (hs : I i s) (hall : ∀ k, i ≤ k → k < bound → p k) :
    ∃ t, countUp w out bound body fuel i s = .ok t := by
  obtain ⟨fuel, rfl⟩ : ∃ f, fuel = f + 1 := ⟨fuel - 1, by omega⟩
  induction d generalizing i s fuel with
  | zero => exact ⟨s, by rw [countUp_succ, if_neg (by omega)]⟩
  | succ d ih =>
    obtain ⟨s', hbody⟩ := (h i s hs).does (hall i (by omega) (by omega))
    have hI := ((h i s hs).only s' hbody).2
    obtain ⟨fuel, rfl⟩ : ∃ f, fuel = f + 1 := ⟨fuel - 1, by omega⟩
    obtain ⟨t, ht⟩ := ih (by omega) hI (fun k hk => hall k (by omega)) fuel (by omega)
    exact ⟨t, by rw [countUp_succ, if_pos (by omega), hbody, Except.ok_bind, Nat.mod_eq_of_lt (by omega), ht]⟩

/-- and with less it runs out. -/
theorem countUp_stops (hb : bound < 2 ^ w) (fuel : Nat) {i : Nat} {s : σ} {e : ε} (hs : I i s)
    (hall : ∀ k, i ≤ k → k < bound → p k) (he : countUp w out bound body fuel i s = .error e) : e = out := by
  induction fuel generalizing i s with
  | zero => exact (Except.error.inj he).symm
  | succ fuel ih =>
    rw [countUp_succ] at he
    split at he
    · next hlt =>
      obtain ⟨s', hbody⟩ := (h i s hs).does (hall i (Nat.le_refl i) hlt)
      rw [hbody, Except.ok_bind, Nat.mod_eq_of_lt (by omega)] at he
      exact ih ((h i s hs).only s' hbody).2 (fun k hk => hall k (by omega)) he
    · cases he

theorem YieldsIn.countUp {i : Nat} {s : σ} (hi : i < 2 ^ w) (hs : I i s) :
    YieldsIn (2 ^ w + 1) out (fun fuel => Run.countUp w out bound body fuel i s)
      (bound < 2 ^ w ∧ ∀ k, i ≤ k → k < bound → p k) (I (max i bound)) where
  only fuel t ht := by
    have hb : bound < 2 ^ w := Nat.lt_of_not_le fun hge => countUp_endless hge fuel hi s t ht
    obtain ⟨hall, hend⟩ := countUp_only h hb fuel hi hs ht
    exact ⟨⟨hb, hall⟩, hend⟩
  does := by
    rintro ⟨hb, hall⟩ fuel hfuel
    exact countUp_does h hb fuel rfl (by omega) hs hall
  stops := by
    rintro ⟨hb, hall⟩ fuel e he
    exact countUp_stops h hb fuel hs hall he

end

end

end Run
