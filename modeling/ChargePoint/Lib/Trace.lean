import Mathlib.Data.List.Basic

/-!
# Runs of a partial, observable step function

A component is a state `σ`, an event alphabet `ε` and a step
`σ → ε → Option (σ × List ο)`: the step answers `none` where the program's own
language leaves the step undefined (an index out of its array, a null pointer
read), and otherwise gives the next state and what an outsider can observe.

Two views of a run live here, and **both are needed**:

* `exec` *computes* a run from a list of events, under a check of each step. A concrete run
  that violates a property is exhibited through it, evaluated rather than reasoned about.
* `Reach` *quantifies* over runs: the states reachable with the log of everything
  observed so far, every step of which met a side condition `ok`. `Always` is the
  unconditional instance, where `ok` is `True`.

`Reach.invariant` is the one induction of the whole development. A safety result
is an invariant of the pair (state, log): it holds of the initial pair, and every
admitted step keeps it.

The log is kept in the order of observation, so a property of the past ("the last
frame sent was …") is a property of a list.
-/

set_option autoImplicit false

namespace Trace

universe u v w
variable {σ : Type u} {ε : Type v} {ο : Type w}

/-- A partial step with observations. -/
abbrev Step (σ : Type u) (ε : Type v) (ο : Type w) := σ → ε → Option (σ × List ο)

/-! ## 1. Computing a run -/

/-- Run the events in order from a state with a history, each step under a check. `none` as
soon as a step fails its check or is undefined. -/
def exec (step : Step σ ε ο) (ok : σ → List ο → ε → Bool) :
    σ → List ο → List ε → Option (σ × List ο)
  | s, log, [] => some (s, log)
  | s, log, e :: es =>
    if ok s log e then
      match step s e with
      | none => none
      | some (s', o) => exec step ok s' (log ++ o) es
    else none

/-! ## 2. Reaching a state -/

/-- `Reach step ok s₀ s log`: `s` is reached from `s₀` by steps that all met `ok`
(a condition on the state before the step and the event), having observed `log`. -/
inductive Reach (step : Step σ ε ο) (ok : σ → List ο → ε → Prop) (s₀ : σ) :
    σ → List ο → Prop
  | start : Reach step ok s₀ s₀ []
  | step {s s' : σ} {log o : List ο} {e : ε} :
      Reach step ok s₀ s log → ok s log e → step s e = some (s', o) →
      Reach step ok s₀ s' (log ++ o)

/-- Reachable by any steps at all. -/
abbrev Always (step : Step σ ε ο) (s₀ : σ) : σ → List ο → Prop :=
  Reach step (fun _ _ _ => True) s₀

variable {step : Step σ ε ο} {ok : σ → List ο → ε → Prop} {s₀ s s' : σ}
variable {log log' : List ο}

/-- **The run lemma.** What holds at the start and is kept by every admitted step
holds of every state reached. -/
theorem Reach.invariant {I : σ → List ο → Prop} (h : Reach step ok s₀ s log)
    (init : I s₀ [])
    (keep : ∀ {s log e s' o}, I s log → ok s log e → step s e = some (s', o) →
      I s' (log ++ o)) :
    I s log := by
  induction h with
  | start => exact init
  | step _ hok hstep ih => exact keep ih hok hstep

/-- A stronger side condition reaches fewer states. -/
theorem Reach.weaken {ok' : σ → List ο → ε → Prop} (h : Reach step ok s₀ s log)
    (imp : ∀ s log e, ok s log e → ok' s log e) : Reach step ok' s₀ s log := by
  induction h with
  | start => exact .start
  | step _ hok hstep ih => exact .step ih (imp _ _ _ hok) hstep

/-- A conditional run is a run. -/
theorem Reach.always (h : Reach step ok s₀ s log) : Always step s₀ s log :=
  h.weaken fun _ _ _ _ => trivial

/-- What a computed run reaches is reached, by a run that continues a given one. -/
theorem Reach.exec {chk : σ → List ο → ε → Bool} {es : List ε}
    (h : Reach step (fun s log e => chk s log e = true) s₀ s log)
    (hrun : exec step chk s log es = some (s', log')) :
    Reach step (fun s log e => chk s log e = true) s₀ s' log' := by
  induction es generalizing s log with
  | nil =>
    simp only [Trace.exec, Option.some.injEq, Prod.mk.injEq] at hrun
    obtain ⟨rfl, rfl⟩ := hrun
    exact h
  | cons e es ih =>
    unfold Trace.exec at hrun
    split at hrun
    · rename_i hok
      split at hrun
      · exact absurd hrun (by simp)
      · rename_i s₁ o₁ hstep
        exact ih (h.step hok hstep) hrun
    · exact absurd hrun (by simp)

/-- A computed run whose final state and log pass a check exhibits a reachable state
that passes it. This is how a concrete run becomes a witness or a counterexample. -/
theorem exists_reach_of_exec {chk : σ → List ο → ε → Bool} {es : List ε} {p : σ → List ο → Bool}
    (h : (exec step chk s₀ [] es).any (fun r => p r.1 r.2) = true) :
    ∃ s log, Reach step (fun s log e => chk s log e = true) s₀ s log ∧ p s log = true := by
  cases hrun : exec step chk s₀ [] es with
  | none => simp [hrun] at h
  | some r => exact ⟨r.1, r.2, Reach.start.exec hrun, by simpa [hrun] using h⟩

/-! ## 3. What every observation has behind it -/

/-- Every observation of the log stands in the relation `P` to the log before it. -/
def Past (P : List ο → ο → Prop) (log : List ο) : Prop :=
  ∀ l x l', log = l ++ x :: l' → P l x

theorem Past.nil {P : List ο → ο → Prop} : Past P [] := by
  intro l x l' h
  simp at h

/-- A step adds its own observations only. -/
theorem Past.append {P : List ο → ο → Prop} {o : List ο} (h : Past P log)
    (ho : ∀ l x l', o = l ++ x :: l' → P (log ++ l) x) : Past P (log ++ o) := by
  intro l x l' heq
  rcases List.append_eq_append_iff.mp heq with ⟨m, rfl, hm⟩ | ⟨m, rfl, hm⟩
  · exact ho m x l' hm
  · cases m with
    | nil => simpa using ho [] x l' hm.symm
    | cons y m =>
      obtain ⟨rfl, -⟩ := List.cons.inj hm
      exact h l x m rfl

theorem Past.left {P : List ο → ο → Prop} {o : List ο} (h : Past P (log ++ o)) : Past P log := by
  intro l x l' heq
  exact h l x (l' ++ o) (by rw [heq, List.append_assoc, List.cons_append])

theorem Past.right {P : List ο → ο → Prop} {o l l' : List ο} {x : ο} (h : Past P (log ++ o))
    (ho : o = l ++ x :: l') : P (log ++ l) x :=
  h (log ++ l) x l' (by rw [ho, List.append_assoc])

theorem past_concat {P : List ο → ο → Prop} {x : ο} :
    Past P (log ++ [x]) ↔ Past P log ∧ P log x := by
  constructor
  · intro h
    exact ⟨h.left, h log x [] rfl⟩
  · intro h
    refine h.1.append ?_
    intro l y l' heq
    cases l with
    | nil =>
      obtain ⟨rfl, -⟩ := List.cons.inj heq
      rw [List.append_nil]
      exact h.2
    | cons z l => simp at heq

/-- A decidable relation is checked in one pass over the log. -/
def checkPast (p : List ο → ο → Bool) : List ο → List ο → Bool
  | _, [] => true
  | l, x :: l' => p l x && checkPast p (l ++ [x]) l'

theorem past_of_checkPast {p : List ο → ο → Bool} {l₀ : List ο} (h : checkPast p l₀ log = true) :
    ∀ l x l', log = l ++ x :: l' → p (l₀ ++ l) x = true := by
  intro l x l' heq
  induction l generalizing l₀ log with
  | nil =>
    subst heq
    simp only [List.nil_append, checkPast, Bool.and_eq_true] at h
    rw [List.append_nil]
    exact h.1
  | cons y l ih =>
    subst heq
    simp only [List.cons_append, checkPast, Bool.and_eq_true] at h
    have := ih h.2 rfl
    rwa [List.append_assoc] at this

theorem checkPast_of_past {p : List ο → ο → Bool} {l₀ : List ο}
    (h : ∀ l x l', log = l ++ x :: l' → p (l₀ ++ l) x = true) : checkPast p l₀ log = true := by
  induction log generalizing l₀ with
  | nil => rfl
  | cons y log ih =>
    have hfirst := h [] y log rfl
    rw [List.append_nil] at hfirst
    simp only [checkPast, hfirst, Bool.true_and]
    refine ih fun l x l' heq => ?_
    rw [List.append_assoc]
    exact h (y :: l) x l' (by rw [heq]; rfl)

/-! ## 4. What every observation has ahead of it -/

/-- Every observation of the log stands in the relation `P` to the log after it. -/
def Ahead (P : ο → List ο → Prop) (log : List ο) : Prop :=
  ∀ l x l', log = l ++ x :: l' → P x l'

/-- A step lengthens the future of the old observations and adds its own. -/
theorem Ahead.append {P Q : ο → List ο → Prop} {o : List ο} (h : Ahead P log)
    (old : ∀ l x l', log = l ++ x :: l' → P x l' → Q x (l' ++ o))
    (new : ∀ l x l', o = l ++ x :: l' → Q x l') : Ahead Q (log ++ o) := by
  intro l x l' heq
  rcases List.append_eq_append_iff.mp heq with ⟨m, rfl, hm⟩ | ⟨m, rfl, hm⟩
  · exact new m x l' hm
  · cases m with
    | nil => exact new [] x l' hm.symm
    | cons y m =>
      obtain ⟨rfl, rfl⟩ := List.cons.inj hm
      exact old l x m rfl (h l x m rfl)

/-! ## 5. What was observed since a mark -/

section Since
variable {mark : ο → Bool}

/-- The observations since the last one that is a mark. -/
def since (mark : ο → Bool) (log : List ο) : List ο :=
  log.foldl (fun l x => if mark x then [] else l ++ [x]) []

theorem since_concat (log : List ο) (x : ο) :
    since mark (log ++ [x]) = if mark x then [] else since mark log ++ [x] := by
  unfold since
  rw [List.foldl_append]
  rfl

/-- Observations that are no mark are added. -/
theorem since_append {o : List ο} (h : ∀ x ∈ o, mark x = false) :
    since mark (log ++ o) = since mark log ++ o := by
  induction o generalizing log with
  | nil => simp
  | cons x o ih =>
    rw [List.append_cons, ih fun y hy => h y (List.mem_cons_of_mem x hy), since_concat,
      h x List.mem_cons_self]
    simp

/-- A mark starts over. -/
theorem since_mark {x : ο} (h : mark x = true) : since mark (log ++ [x]) = [] := by
  rw [since_concat, h]
  rfl

end Since

end Trace
