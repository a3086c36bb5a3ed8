import Mathlib.Data.List.Basic

/-!
# Counted loops

`for (int i = 0; i < n; i++) body(i)` over a state, where the body may be
undefined (`none`). The count is fixed before the loop starts, which is how every
loop modelled here behaves: the bound is read from a message header or is a
constant.

Two rules: what every iteration keeps, a loop that ends keeps (`forUpTo_inv`); and a loop
every iteration of which can be run ends, and establishes its indexed invariant
(`forUpTo_total`).
-/

set_option autoImplicit false

namespace Loop

universe u
variable {σ : Type u}

/-- Iterations `i, i+1, …, i+k-1` of `body`, in order. -/
def forFrom (body : Nat → σ → Option σ) (i : Nat) : Nat → σ → Option σ
  | 0, s => some s
  | k + 1, s =>
    match body i s with
    | none => none
    | some s' => forFrom body (i + 1) k s'

/-- Iterations `0, …, n-1`. -/
def forUpTo (body : Nat → σ → Option σ) (n : Nat) (s : σ) : Option σ :=
  forFrom body 0 n s

variable {body : Nat → σ → Option σ} {P : σ → Prop}

/-- A loop is a fold over its indices. -/
theorem forFrom_eq (i k : Nat) (s : σ) :
    forFrom body i k s = (List.range' i k).foldlM (fun s i => body i s) s := by
  induction k generalizing i s with
  | zero => rfl
  | succ k ih =>
    rw [forFrom, List.range'_succ, List.foldlM_cons]
    cases body i s with
    | none => rfl
    | some t => exact ih (i + 1) t

theorem forUpTo_eq (n : Nat) (s : σ) :
    forUpTo body n s = (List.range n).foldlM (fun s i => body i s) s := by
  rw [forUpTo, forFrom_eq, List.range_eq_range']

theorem forFrom_inv (keep : ∀ i s s', P s → body i s = some s' → P s') :
    ∀ {i k : Nat} {s s' : σ}, P s → forFrom body i k s = some s' → P s'
  | _, 0, s, s', hs, h => by
    simp only [forFrom, Option.some.injEq] at h
    exact h ▸ hs
  | i, k + 1, s, s', hs, h => by
    unfold forFrom at h
    split at h
    · exact absurd h (by simp)
    · rename_i s₁ hbody
      exact forFrom_inv keep (keep i s s₁ hs hbody) h

/-- **The loop rule.** -/
theorem forUpTo_inv (keep : ∀ i s s', P s → body i s = some s' → P s') {n : Nat} {s s' : σ}
    (hs : P s) (h : forUpTo body n s = some s') : P s' :=
  forFrom_inv keep hs h

theorem forFrom_ran (keep : ∀ i s s', P s → body i s = some s' → P s') {i k : Nat} {s s' : σ}
    (hs : P s) (h : forFrom body i k s = some s') {j : Nat} (hj : i ≤ j) (hlt : j < i + k) :
    ∃ t t', P t ∧ body j t = some t' := by
  induction k generalizing i s with
  | zero => omega
  | succ k ih =>
    unfold forFrom at h
    split at h
    · exact absurd h (by simp)
    · rename_i s₁ hbody
      rcases Nat.eq_or_lt_of_le hj with rfl | hj
      · exact ⟨s, s₁, hs, hbody⟩
      · exact ih (keep i s s₁ hs hbody) h hj (by omega)

/-- A loop that ends has run its body at every index, under the invariant. -/
theorem forUpTo_ran (keep : ∀ i s s', P s → body i s = some s' → P s') {n : Nat} {s s' : σ}
    (hs : P s) (h : forUpTo body n s = some s') {j : Nat} (hj : j < n) :
    ∃ t t', P t ∧ body j t = some t' :=
  forFrom_ran keep hs h (Nat.zero_le j) (by omega)

theorem forFrom_total {I : Nat → σ → Prop} {i k : Nat} {s : σ}
    (next : ∀ j t, i ≤ j → j < i + k → I j t → ∃ t', body j t = some t' ∧ I (j + 1) t')
    (h : I i s) : ∃ s', forFrom body i k s = some s' ∧ I (i + k) s' := by
  induction k generalizing i s with
  | zero => exact ⟨s, rfl, h⟩
  | succ k ih =>
    obtain ⟨t, hbody, ht⟩ := next i s (Nat.le_refl i) (by omega) h
    obtain ⟨s', hrest, hs'⟩ := ih (fun j u hj hlt => next j u (by omega) (by omega)) ht
    refine ⟨s', ?_, by rwa [show i + (k + 1) = i + 1 + k by omega]⟩
    rw [forFrom, hbody]
    exact hrest

/-- **The rule for a loop that ends**: an indexed invariant that every iteration can be run
under and carries on. -/
theorem forUpTo_total {I : Nat → σ → Prop} {n : Nat} {s : σ}
    (next : ∀ i t, i < n → I i t → ∃ t', body i t = some t' ∧ I (i + 1) t') (h : I 0 s) :
    ∃ s', forUpTo body n s = some s' ∧ I n s' := by
  have := forFrom_total (k := n) (fun j t _ hj => next j t (by omega)) h
  rwa [Nat.zero_add] at this

end Loop
