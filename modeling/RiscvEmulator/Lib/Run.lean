/-
Computations that may fail, and runs of a partial, labelled step function.

`FailsOnly P x` says how `x` may fail. `Related R x y` says that `x` and `y`
fail alike or return results related by `R`. Both go through `bind`
(`FailsOnly.bind`, `Related.bind`).

`Steps step P s t` says that `t` is reached from `s` by steps that return,
each taken at a label and a state for which `P` holds; `P` states what a
run assumes of its steps. `Steps.invariant` is the induction every
whole-run result goes through.

`noted` lets a run keep a note of what has happened, for properties of more
than one state.

`rounds` is a counting loop, with `rounds_ok` as its invariant rule.
-/

theorem Except.bind_ok_iff {ε α β : Type} {x : Except ε α} {f : α → Except ε β} {b : β} :
    (x >>= f) = .ok b ↔ ∃ a, x = .ok a ∧ f a = .ok b := by
  cases x with
  | error e => simp [bind, Except.bind]
  | ok a => simp [bind, Except.bind]

@[simp] theorem Except.ok_bind {ε α β : Type} (a : α) (f : α → Except ε β) : ((.ok a : Except ε α) >>= f) = f a := rfl

@[simp] theorem Except.error_bind {ε α β : Type} (e : ε) (f : α → Except ε β) :
    ((.error e : Except ε α) >>= f) = .error e := rfl

@[simp] theorem Except.pure_eq_ok {ε α : Type} (a : α) : (pure a : Except ε α) = .ok a := rfl

@[simp] theorem Except.throw_eq_error {ε α : Type} (e : ε) : (throw e : Except ε α) = .error e := rfl

/-- A computation that returns, with its result read off. -/
theorem Except.eq_ok_getD {ε α : Type} {x : Except ε α} (h : x.toOption.isSome = true) (d : α) :
    x = .ok (x.toOption.getD d) := by
  cases x with
  | error e => cases h
  | ok a => rfl

theorem Except.eq_ok_of_toOption {ε α : Type} {x : Except ε α} {a : α} (h : x.toOption = some a) : x = .ok a := by
  cases x with
  | error e => cases h
  | ok b => cases h; rfl

/-- Every failure of a computation meets `P`. -/
def Except.FailsOnly {ε α : Type} (P : ε → Prop) (x : Except ε α) : Prop := ∀ e, x = .error e → P e

theorem Except.FailsOnly.ok {ε α : Type} {P : ε → Prop} (a : α) : Except.FailsOnly P (.ok a : Except ε α) := by
  intro e h
  cases h

theorem Except.FailsOnly.bind {ε α β : Type} {P : ε → Prop} {x : Except ε α} {f : α → Except ε β}
    (h : Except.FailsOnly P x) (hf : ∀ a, x = .ok a → Except.FailsOnly P (f a)) : Except.FailsOnly P (x >>= f) := by
  intro e he
  cases x with
  | error e' =>
    cases he
    exact h e rfl
  | ok a => exact hf a rfl e he

/-- Two computations that fail alike or return related results. -/
inductive Except.Related {ε α β : Type} (R : α → β → Prop) : Except ε α → Except ε β → Prop
  | error (e : ε) : Related R (.error e) (.error e)
  | ok {a : α} {b : β} (h : R a b) : Related R (.ok a) (.ok b)

theorem Except.Related.same {ε α : Type} (x : Except ε α) : Except.Related (· = ·) x x := by
  cases x with
  | error e => exact .error e
  | ok a => exact .ok rfl

theorem Except.Related.of_eq {ε α : Type} {x y : Except ε α} (h : x = y) : Except.Related (· = ·) x y :=
  h ▸ .same x

theorem Except.Related.bind {ε α β γ δ : Type} {R : α → β → Prop} {S : γ → δ → Prop} {x : Except ε α} {y : Except ε β}
    {f : α → Except ε γ} {g : β → Except ε δ} (h : Except.Related R x y)
    (hfg : ∀ a b, R a b → Except.Related S (f a) (g b)) : Except.Related S (x >>= f) (y >>= g) := by
  cases h with
  | error e => exact .error e
  | ok hab => exact hfg _ _ hab

theorem Except.Related.ite {ε α β : Type} {R : α → β → Prop} {p q : Prop} [Decidable p] [Decidable q]
    {x x' : Except ε α} {y y' : Except ε β} (h : p ↔ q) (ht : p → Except.Related R x y)
    (he : ¬ p → Except.Related R x' y') :
    Except.Related R (if p then x else x') (if q then y else y') := by
  by_cases hp : p
  · rw [if_pos hp, if_pos (h.mp hp)]
    exact ht hp
  · rw [if_neg hp, if_neg fun hq => hp (h.mpr hq)]
    exact he hp

theorem Except.Related.mono {ε α β : Type} {R S : α → β → Prop} {x : Except ε α} {y : Except ε β}
    (h : Except.Related R x y) (hRS : ∀ a b, R a b → S a b) : Except.Related S x y := by
  cases h with
  | error e => exact .error e
  | ok hab => exact .ok (hRS _ _ hab)

theorem Except.Related.ok_right {ε α β : Type} {R : α → β → Prop} {x : Except ε α} {b : β}
    (h : Except.Related R x (.ok b)) : ∃ a, x = .ok a ∧ R a b := by
  cases h with
  | ok hab => exact ⟨_, rfl, hab⟩

theorem Except.Related.ok_left {ε α β : Type} {R : α → β → Prop} {a : α} {y : Except ε β}
    (h : Except.Related R (.ok a) y) : ∃ b, y = .ok b ∧ R a b := by
  cases h with
  | ok hab => exact ⟨_, rfl, hab⟩


namespace Run

variable {ε σ ℓ : Type} {step : ℓ → σ → Except ε σ} {P Q : ℓ → σ → Prop}

/-- Zero or more returning steps, each meeting `P` where it starts. -/
inductive Steps (step : ℓ → σ → Except ε σ) (P : ℓ → σ → Prop) (s : σ) : σ → Prop
  | refl : Steps step P s s
  | tail {t u : σ} {l : ℓ} : Steps step P s t → P l t → step l t = .ok u → Steps step P s u

/-- A property that holds at the start and that every step meeting `P` keeps
holds in every state reached. -/
theorem Steps.invariant {I : σ → Prop} (hstep : ∀ l s t, I s → P l s → step l s = .ok t → I t) {s t : σ}
    (h : Steps step P s t) (hs : I s) : I t := by
  induction h with
  | refl => exact hs
  | tail _ hp hst ih => exact hstep _ _ _ ih hp hst

/-- Where `P` is exactly what a step has to meet for `I` to be kept, the runs
that stay in `I` are those whose steps meet `P`. -/
theorem steps_iff {I : σ → Prop} (hstep : ∀ l s t, I s → step l s = .ok t → (I t ↔ P l s)) {s : σ} (hs : I s) (t : σ) :
    Steps step (fun _ => I) s t ∧ I t ↔ Steps step P s t := by
  constructor
  · rintro ⟨h, ht⟩
    induction h with
    | refl => exact .refl
    | tail _ hp hst ih => exact .tail (ih hp) ((hstep _ _ _ hp hst).mp ht) hst
  · intro h
    induction h with
    | refl => exact ⟨.refl, hs⟩
    | tail _ hp hst ih => exact ⟨.tail ih.1 ih.2 hst, (hstep _ _ _ ih.2 hst).mpr hp⟩

/-! ## Notes -/

/-- A step with a note, brought up to date from the label and the state the
step is taken in. -/
def noted {γ : Type} (step : ℓ → σ → Except ε σ) (note : ℓ → σ → γ → γ) (l : ℓ) (s : σ × γ) : Except ε (σ × γ) := do
  return (← step l s.1, note l s.1 s.2)

theorem noted_ok_iff {γ : Type} {note : ℓ → σ → γ → γ} {l : ℓ} {s t : σ × γ} :
    noted step note l s = .ok t ↔ step l s.1 = .ok t.1 ∧ t.2 = note l s.1 s.2 := by
  rw [noted, Except.bind_ok_iff]
  constructor
  · rintro ⟨a, ha, h⟩
    cases h
    exact ⟨ha, rfl⟩
  · rintro ⟨h, hn⟩
    exact ⟨t.1, h, by rw [← hn]; rfl⟩

/-! ## Loops -/

/-- The rounds of a counting loop, from zero. -/
def rounds (body : Nat → σ → Except ε σ) : Nat → σ → Except ε σ
  | 0, s => .ok s
  | n + 1, s => do body n (← rounds body n s)

theorem rounds_zero (body : Nat → σ → Except ε σ) (s : σ) : rounds body 0 s = .ok s := rfl

theorem rounds_succ (body : Nat → σ → Except ε σ) (n : Nat) (s : σ) :
    rounds body (n + 1) s = rounds body n s >>= body n := rfl

/-- The rule for a loop: an invariant of the number of rounds done. -/
theorem rounds_ok {body : Nat → σ → Except ε σ} {I : Nat → σ → Prop} {n : Nat} {s : σ} (hs : I 0 s)
    (hbody : ∀ i < n, ∀ t, I i t → ∃ u, body i t = .ok u ∧ I (i + 1) u) : ∃ t, rounds body n s = .ok t ∧ I n t := by
  induction n with
  | zero => exact ⟨s, rfl, hs⟩
  | succ n ih =>
    obtain ⟨t, ht, hI⟩ := ih fun i hi => hbody i (by omega)
    obtain ⟨u, hu, hI'⟩ := hbody n (by omega) t hI
    exact ⟨u, by rw [rounds_succ, ht, Except.ok_bind, hu], hI'⟩

theorem rounds_congr {body body' : Nat → σ → Except ε σ} {n : Nat} (h : ∀ i < n, ∀ s, body i s = body' i s) (s : σ) :
    rounds body n s = rounds body' n s := by
  induction n with
  | zero => rfl
  | succ n ih =>
    rw [rounds_succ, rounds_succ, ih fun i hi => h i (by omega)]
    cases rounds body' n s with
    | error e => rfl
    | ok t => exact h n (by omega) t

theorem rounds_add (body : Nat → σ → Except ε σ) (n k : Nat) (s : σ) :
    rounds body (n + k) s = rounds body n s >>= rounds (fun i => body (n + i)) k := by
  induction k with
  | zero => cases rounds body n s <;> rfl
  | succ k ih =>
    rw [← Nat.add_assoc, rounds_succ, ih]
    cases rounds body n s <;> rfl

/-- A loop of loops of `k` rounds is one loop. -/
theorem rounds_rounds (body : Nat → σ → Except ε σ) (n k : Nat) (s : σ) :
    rounds (fun j => rounds (fun i => body (j * k + i)) k) n s = rounds body (n * k) s := by
  induction n with
  | zero => rw [Nat.zero_mul, rounds_zero, rounds_zero]
  | succ n ih => rw [rounds_succ, ih, Nat.add_one_mul, rounds_add]

end Run
