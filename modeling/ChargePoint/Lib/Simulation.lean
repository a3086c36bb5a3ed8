import ChargePoint.Lib.Trace

/-!
# A system inside a larger one

A larger system has a part, and each of its steps moves the part by a run of the part's own steps:
none, one or several (`Embeds`). Then a run of the whole is a run of the part (`Reach.part`), and
what is proved of the part's runs holds inside the whole, however the other parts move in between.
-/

set_option autoImplicit false

namespace Trace

universe u v w x y z
variable {σ : Type u} {ε : Type v} {ο : Type w} {τ : Type x} {φ : Type y} {π : Type z}

/-- **Runs in a row.** -/
theorem Reach.trans {step : Step σ ε ο} {s₀ s s' : σ} {log log' : List ο}
    (h : Always step s₀ s log) (h' : Always step s s' log') : Always step s₀ s' (log ++ log') := by
  induction h' with
  | start =>
    rw [List.append_nil]
    exact h
  | step _ hok hstep ih =>
    rw [← List.append_assoc]
    exact ih.step hok hstep

/-- One step is a run. -/
theorem Always.one {step : Step σ ε ο} {s s' : σ} {e : ε} {o : List ο}
    (h : step s e = some (s', o)) : Always step s s' o := by
  have hrun : Always step s s' ([] ++ o) := .step .start trivial h
  exact hrun

/-- Every step of the whole moves the part by a run of its own, and shows of it what the part
shows. -/
def Embeds (whole : Step σ ε ο) (part : Step τ φ π) (proj : σ → τ) (seen : ο → Option π) : Prop :=
  ∀ {s e s' o}, whole s e = some (s', o) → Always part (proj s) (proj s') (o.filterMap seen)

/-- **A run of the whole is a run of the part.** -/
theorem Reach.part {whole : Step σ ε ο} {part : Step τ φ π} {proj : σ → τ} {seen : ο → Option π}
    {ok : σ → List ο → ε → Prop} {s₀ s : σ} {log : List ο} (hemb : Embeds whole part proj seen)
    (h : Reach whole ok s₀ s log) : Always part (proj s₀) (proj s) (log.filterMap seen) := by
  induction h with
  | start => exact .start
  | step _ _ hstep ih =>
    rw [List.filterMap_append]
    exact ih.trans (hemb hstep)

end Trace
