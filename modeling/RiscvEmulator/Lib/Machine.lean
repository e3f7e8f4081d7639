/-
Deterministic machines that may stop.

A machine is a step function with values in `Option`. `after` is the state a
number of steps on, and `Leads step s P` says that the machine comes from `s`
to a state in `P`; programs are verified by its rules, of which `loop` is the
one for a loop with a variant.

`Follows step step' R` says that the second machine takes every step that
the first one takes, between states related by `R`; so does every number of
steps (`Follows.after`).
-/

namespace Machine

variable {σ τ : Type} {step : σ → Option σ} {step' : τ → Option τ}

/-- The state after `n` steps. -/
def after (step : σ → Option σ) : Nat → σ → Option σ
  | 0, s => some s
  | n + 1, s => (step s).bind (after step n)

theorem after_succ {n : Nat} {s t : σ} (h : step s = some t) : after step (n + 1) s = after step n t := by
  simp [after, h]

theorem after_add (n k : Nat) (s : σ) : after step (n + k) s = (after step n s).bind (after step k) := by
  induction n generalizing s with
  | zero => simp [after]
  | succ n ih =>
    rw [Nat.add_right_comm]
    cases h : step s with
    | none => simp [after, h]
    | some t => rw [after_succ h, after_succ h, ih]

/-! ## What a machine comes to -/

/-- Some number of steps leads from `s` to a state in `P`. -/
def Leads (step : σ → Option σ) (s : σ) (P : σ → Prop) : Prop := ∃ n t, after step n s = some t ∧ P t

section

variable {s t : σ} {P Q : σ → Prop}

theorem Leads.done (h : P s) : Leads step s P := ⟨0, s, rfl, h⟩

theorem Leads.next (h : step s = some t) (ht : Leads step t P) : Leads step s P := by
  obtain ⟨n, u, hu, hP⟩ := ht
  exact ⟨n + 1, u, by rw [after_succ h, hu], hP⟩

theorem Leads.trans (h : Leads step s Q) (hQ : ∀ t, Q t → Leads step t P) : Leads step s P := by
  obtain ⟨n, t, ht, hq⟩ := h
  obtain ⟨k, u, hu, hP⟩ := hQ t hq
  exact ⟨n + k, u, by simp [after_add, ht, hu], hP⟩

theorem Leads.mono (h : Leads step s Q) (hQ : ∀ t, Q t → P t) : Leads step s P :=
  h.trans fun t ht => .done (hQ t ht)

/-- A loop: each round ends it or decreases the variant. -/
theorem Leads.loop {I : Nat → σ → Prop}
    (hbody : ∀ k s, I k s → Leads step s fun t => P t ∨ ∃ j < k, I j t) {n : Nat} (h : I n s) : Leads step s P := by
  induction n using Nat.strongRecOn generalizing s with
  | ind n ih =>
    refine (hbody n s h).trans fun t ht => ?_
    rcases ht with hP | ⟨j, hj, hI⟩
    · exact .done hP
    · exact ih j hj hI

end

/-! ## One machine following another -/

/-- Related states step to related states, as long as the first machine does. -/
def Follows (step : σ → Option σ) (step' : τ → Option τ) (R : σ → τ → Prop) : Prop :=
  ∀ s t s', R s t → step s = some s' → ∃ t', step' t = some t' ∧ R s' t'

variable {R : σ → τ → Prop}

theorem Follows.after (h : Follows step step' R) {n : Nat} {s s' : σ} {t : τ} (hR : R s t)
    (hs : after step n s = some s') : ∃ t', Machine.after step' n t = some t' ∧ R s' t' := by
  induction n generalizing s t with
  | zero =>
    cases hs
    exact ⟨t, rfl, hR⟩
  | succ n ih =>
    obtain ⟨u, hu, hs⟩ := Option.bind_eq_some_iff.mp hs
    obtain ⟨v, hv, hR⟩ := h s t u hR hu
    rw [after_succ hv]
    exact ih hR hs

end Machine
