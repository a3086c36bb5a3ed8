import ChargePoint.Lib.Trace

/-!
# Runs with a journal

A step shows what an outsider observes. A proof often has to speak of more: which branch was
taken, which clock was read, which other thread wrote. `annotate` keeps such **notes** beside the
observations, and changes nothing else: a run is a run of the annotated step with the notes
struck out (`Reach.observed`), and every run can be annotated (`Reach.annotated`). So what is
proved of the journals of a system is proved of its runs.

`Reach.account` is the account over a run: a step spends what the state held before it, so nothing
is spent that was not earned earlier.
-/

set_option autoImplicit false

namespace Trace

universe u v w x
variable {σ : Type u} {ε : Type v} {ο : Type w} {ν : Type x}

/-! ## 1. Notes -/

/-- The step, with notes on it. -/
def annotate (step : Step σ ε ο) (notes : σ → ε → List ν) : Step σ ε (ν ⊕ ο) := fun s e =>
  (step s e).map fun r => (r.1, (notes s e).map .inl ++ r.2.map .inr)

/-- A journal with the notes struck out. -/
def observed (log : List (ν ⊕ ο)) : List ο := log.filterMap Sum.getRight?

@[simp] theorem observed_nil : observed ([] : List (ν ⊕ ο)) = [] := rfl

@[simp] theorem observed_append (l l' : List (ν ⊕ ο)) :
    observed (l ++ l') = observed l ++ observed l' :=
  List.filterMap_append

/-- A step's own part of the journal. -/
@[simp] theorem observed_entry (n : List ν) (o : List ο) :
    observed (n.map .inl ++ o.map .inr) = o := by
  simp [observed, List.filterMap_append, List.filterMap_map, Function.comp_def]

theorem mem_observed {log : List (ν ⊕ ο)} {x : ο} : x ∈ observed log ↔ .inr x ∈ log := by
  unfold observed
  rw [List.mem_filterMap]
  constructor
  · intro h
    obtain ⟨y, hy, hx⟩ := h
    cases y with
    | inl n => cases hx
    | inr z =>
      cases hx
      exact hy
  · intro h
    exact ⟨.inr x, h, rfl⟩

variable {step : Step σ ε ο} {notes : σ → ε → List ν} {s₀ s s' : σ}

theorem annotate_eq {e : ε} {l : List (ν ⊕ ο)} (h : annotate step notes s e = some (s', l)) :
    ∃ o, step s e = some (s', o) ∧ l = (notes s e).map .inl ++ o.map .inr := by
  obtain ⟨r, hr, heq⟩ := Option.map_eq_some_iff.mp h
  obtain ⟨rfl, rfl⟩ := Prod.mk.inj heq
  exact ⟨r.2, hr, rfl⟩

theorem annotate_of_step {e : ε} {o : List ο} (h : step s e = some (s', o)) :
    annotate step notes s e = some (s', (notes s e).map .inl ++ o.map .inr) := by
  unfold annotate
  rw [h]
  rfl

section Runs
variable {ok : σ → List ο → ε → Prop}

/-- **A journal is kept of a run.** -/
theorem Reach.observed {log : List (ν ⊕ ο)}
    (h : Reach (annotate step notes) (fun s l e => ok s (observed l) e) s₀ s log) :
    Reach step ok s₀ s (Trace.observed log) := by
  induction h with
  | start => exact .start
  | step hpast hok hnoted ih =>
    obtain ⟨o, hstep, rfl⟩ := annotate_eq hnoted
    rw [observed_append, observed_entry]
    exact .step ih hok hstep

/-- **A journal can be kept of every run.** -/
theorem Reach.annotated (notes : σ → ε → List ν) {log : List ο} (h : Reach step ok s₀ s log) :
    ∃ l, Reach (annotate step notes) (fun s l e => ok s (Trace.observed l) e) s₀ s l ∧
      Trace.observed l = log := by
  induction h with
  | start => exact ⟨[], .start, rfl⟩
  | @step s s' log o e hpast hok hstep ih =>
    obtain ⟨l, hl, rfl⟩ := ih
    refine ⟨_, hl.step hok (annotate_of_step hstep), ?_⟩
    rw [observed_append, observed_entry]

end Runs

/-! ## 2. Accounts -/

/-- What a step spends, it had before the step; what it holds after it, it had or earned. -/
structure Account (spent earned : ο → Bool) (before after : Nat) (o : List ο) : Prop where
  paid : o.countP spent ≤ before
  balance : o.countP spent + after ≤ o.countP earned + before

namespace Account
variable {spent earned : ο → Bool} {before after : Nat} {o : List ο}

/-- A step that spends nothing: what is new was earned. -/
theorem of_earned (hs : o.countP spent = 0) (h : after ≤ o.countP earned + before) :
    Account spent earned before after o := by
  constructor
  · rw [hs]
    exact Nat.zero_le _
  · rw [hs, Nat.zero_add]
    exact h

/-- A step that spends from what it had. -/
theorem of_spent (h : o.countP spent + after ≤ before) : Account spent earned before after o := by
  constructor
  · exact Nat.le_trans (Nat.le_add_right _ _) h
  · exact Nat.le_trans h (Nat.le_add_left _ _)

end Account

/-- **The account lemma.** Where every step keeps the account, no more is spent than was earned
before: not in the whole run, and not in any part of it from the start. -/
theorem Reach.account {ok : σ → List ο → ε → Prop} {log : List ο} {spent earned : ο → Bool}
    {held : σ → Nat} (h : Reach step ok s₀ s log) (h₀ : held s₀ = 0)
    (keep : ∀ {s log e s' o}, Reach step ok s₀ s log → step s e = some (s', o) →
      Account spent earned (held s) (held s') o) :
    log.countP spent + held s ≤ log.countP earned ∧
      ∀ l l', log = l ++ l' → l.countP spent ≤ l.countP earned := by
  induction h with
  | start =>
    refine ⟨by rw [h₀]; exact Nat.le_refl _, fun l l' heq => ?_⟩
    rw [(List.append_eq_nil_iff.mp heq.symm).1]
    exact Nat.le_refl _
  | @step s s' log o e hpast hok hstep ih =>
    have hnew := keep hpast hstep
    have hbal := hnew.balance
    refine ⟨by rw [List.countP_append, List.countP_append]; omega, fun l l' heq => ?_⟩
    -- the part ends in the old log, or inside the last step's entries
    rcases List.append_eq_append_iff.mp heq with ⟨m, hl, hm⟩ | ⟨m, hl, hm⟩
    · subst hl hm
      have hpaid := hnew.paid
      rw [List.countP_append] at hpaid
      rw [List.countP_append, List.countP_append]
      omega
    · exact ih.2 l m hl

end Trace
