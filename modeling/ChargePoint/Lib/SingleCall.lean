import Mathlib.Data.List.Basic

/-!
# One request at a time

The discipline of a party that has at most one request outstanding: it may send a request
when none is outstanding, take an answer when one is, and give the outstanding one up.

`Legal q l q'` says that the acts `l` are allowed from `q` and lead to `q'`, where a state is
the outstanding request, if any. What makes the discipline useful is that it leaves no
room: an answer comes **directly** after the request it answers, as a request that is outstanding is
the last act of all (`Legal.waiting`). This survives dropping the acts nobody sees (`seen`).
-/

set_option autoImplicit false

namespace SingleCall

universe u
variable {μ : Type u}

inductive Act (μ : Type u)
  | call (m : μ)
  | answer (m : μ)
  | giveUp

/-- The acts of a history and the request outstanding after it. -/
inductive Legal : List (Act μ) → Option μ → Prop
  | nil : Legal [] none
  | call {l : List (Act μ)} (m : μ) : Legal l none → Legal (l ++ [.call m]) (some m)
  | answer {l : List (Act μ)} {m : μ} : Legal l (some m) → Legal (l ++ [.answer m]) none
  | giveUp {l : List (Act μ)} {m : μ} : Legal l (some m) → Legal (l ++ [.giveUp]) none

/-- Requests and answers are seen, giving up is not. -/
def seen : List (Act μ) → List (Act μ) :=
  List.filter fun a => match a with | .giveUp => false | _ => true

@[simp] theorem seen_append (l l' : List (Act μ)) : seen (l ++ l') = seen l ++ seen l' :=
  List.filter_append ..

/-- An outstanding request is the last act. -/
theorem Legal.waiting {l : List (Act μ)} {m : μ} (h : Legal l (some m)) :
    ∃ l₀, l = l₀ ++ [.call m] := by
  cases h with
  | call _ _ => exact ⟨_, rfl⟩

theorem Legal.seen_waiting {l : List (Act μ)} {m : μ} (h : Legal l (some m)) :
    (seen l).getLast? = some (.call m) := by
  obtain ⟨l₀, rfl⟩ := h.waiting
  simp [seen]

/-- **Without giving up**, what follows a request is its answer, or nothing: the request is still
outstanding then. -/
theorem Legal.answered {L : List (Act μ)} {q : Option μ} (h : Legal L q) {l l' : List (Act μ)}
    {m : μ} (heq : L = l ++ .call m :: l') (hno : .giveUp ∉ l') :
    (l' = [] ∧ q = some m) ∨ ∃ r, l' = .answer m :: r := by
  induction h generalizing l' with
  | nil => simp at heq
  | @call l₀ m₀ h ih =>
    rcases List.eq_nil_or_concat l' with rfl | ⟨l₁, x, rfl⟩
    · obtain ⟨-, hlast⟩ := List.append_inj' heq rfl
      cases hlast
      exact .inl ⟨rfl, rfl⟩
    · rw [List.concat_eq_append, ← List.cons_append, ← List.append_assoc] at heq
      obtain ⟨rfl, hlast⟩ := List.append_inj' heq rfl
      rcases ih rfl (fun hin => hno (by simp [hin])) with ⟨-, hq⟩ | ⟨r, rfl⟩
      · cases hq
      · exact .inr ⟨r ++ [x], by simp⟩
  | @answer l₀ m₀ h ih =>
    rcases List.eq_nil_or_concat l' with rfl | ⟨l₁, x, rfl⟩
    · obtain ⟨-, hlast⟩ := List.append_inj' heq rfl
      cases hlast
    · rw [List.concat_eq_append, ← List.cons_append, ← List.append_assoc] at heq
      obtain ⟨rfl, hlast⟩ := List.append_inj' heq rfl
      cases hlast
      rcases ih rfl (fun hin => hno (by simp [hin])) with ⟨rfl, hq⟩ | ⟨r, rfl⟩
      · cases hq
        exact .inr ⟨[], rfl⟩
      · exact .inr ⟨r ++ [.answer m₀], by simp⟩
  | @giveUp l₀ m₀ h ih =>
    rcases List.eq_nil_or_concat l' with rfl | ⟨l₁, x, rfl⟩
    · obtain ⟨-, hlast⟩ := List.append_inj' heq rfl
      cases hlast
    · rw [List.concat_eq_append, ← List.cons_append, ← List.append_assoc] at heq
      obtain ⟨-, hlast⟩ := List.append_inj' heq rfl
      cases hlast
      exact absurd (by simp) hno

end SingleCall
