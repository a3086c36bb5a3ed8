import Mathlib.Data.List.Basic

/-!
# Reading a text piece by piece

A scanner runs over a text one character at a time, with a state `σ` and the character
before: `run s l t` is its result, `none` where the program's own language leaves it
undefined. `good` says which results accept.

`Reads run good ok s l t P` is a judgement about one piece `t` of the text, and it is
**exact**:

* if `ok`, the scanner gets through `t` whatever follows, and is then in a state with `P`;
* if not `ok`, no text that begins with `t` is accepted.

Pieces compose (`append`), and so do their conditions. A text is accepted exactly when every
one of its pieces is read, so a condition derived with these rules is necessary as well as
sufficient.
-/

set_option autoImplicit false

namespace Reading

universe u v w
variable {σ : Type u} {α : Type v} {ρ : Type w}

structure Reads (run : σ → α → List α → Option ρ) (good : ρ → Prop) (ok : Prop) (s : σ) (l : α)
    (t : List α) (P : σ → Prop) : Prop where
  reads : ok → ∃ s' l', (∀ rest, run s l (t ++ rest) = run s' l' rest) ∧ P s'
  fails : ¬ ok → ∀ rest r, run s l (t ++ rest) = some r → ¬ good r

variable {run : σ → α → List α → Option ρ} {good : ρ → Prop} {ok o : Prop} {s s' : σ} {l : α}
variable {t u : List α} {P Q : σ → Prop}

namespace Reads

theorem nil (h : P s) : Reads run good True s l [] P :=
  ⟨fun _ => ⟨s, l, fun _ => rfl, h⟩, fun h => absurd trivial h⟩

/-- **One piece after the other.** -/
theorem append (h : Reads run good ok s l t P)
    (h' : ∀ s' l', P s' → Reads run good o s' l' u Q) :
    Reads run good (ok ∧ o) s l (t ++ u) Q := by
  constructor
  · rintro ⟨hok, hok'⟩
    obtain ⟨s₁, l₁, hrun, hP⟩ := h.reads hok
    obtain ⟨s₂, l₂, hrun', hQ⟩ := (h' s₁ l₁ hP).reads hok'
    refine ⟨s₂, l₂, fun rest => ?_, hQ⟩
    rw [List.append_assoc, hrun, hrun']
  · intro hnot rest s' hend
    rw [List.append_assoc] at hend
    by_cases hok : ok
    · obtain ⟨s₁, l₁, hrun, hP⟩ := h.reads hok
      rw [hrun] at hend
      exact (h' s₁ l₁ hP).fails (fun hok' => hnot ⟨hok, hok'⟩) rest s' hend
    · exact h.fails hok _ s' hend

theorem imp (h : Reads run good ok s l t P) (hPQ : ∀ s', P s' → Q s') :
    Reads run good ok s l t Q := by
  refine ⟨fun hok => ?_, h.fails⟩
  obtain ⟨s', l', hrun, hP⟩ := h.reads hok
  exact ⟨s', l', hrun, hPQ s' hP⟩

/-- The condition is settled in the end: it may use what holds of the state reached. -/
theorem congr (h : Reads run good ok s l t P) (hiff : ok ↔ o) : Reads run good o s l t P :=
  ⟨fun hok => h.reads (hiff.mpr hok), fun hnot => h.fails fun hok => hnot (hiff.mp hok)⟩

/-- The condition of a piece may be used in what holds after it. -/
theorem imp_of (h : Reads run good ok s l t P) (hPQ : ok → ∀ s', P s' → Q s') :
    Reads run good ok s l t Q := by
  refine ⟨fun hok => ?_, h.fails⟩
  obtain ⟨s', l', hrun, hP⟩ := h.reads hok
  exact ⟨s', l', hrun, hPQ hok s' hP⟩

/-- A piece that is always read, and another. -/
theorem after (h : Reads run good True s l t P)
    (h' : ∀ s' l', P s' → Reads run good ok s' l' u Q) :
    Reads run good ok s l (t ++ u) Q :=
  (h.append h').congr (iff_of_eq (true_and ok))

/-- A character that moves the scanner on. -/
theorem cons {c : α} (hstep : ∀ rest, run s l (c :: rest) = run s' c rest)
    (h : Reads run good ok s' c t P) : Reads run good ok s l (c :: t) P := by
  refine ⟨fun hok => ?_, fun hnot rest s'' hend => ?_⟩
  · obtain ⟨s₁, l₁, hrun, hP⟩ := h.reads hok
    refine ⟨s₁, l₁, fun rest => ?_, hP⟩
    rw [List.cons_append, hstep, hrun]
  · rw [List.cons_append, hstep] at hend
    exact h.fails hnot rest s'' hend

/-- A character at which the scanner is undefined, or stops without accepting. -/
theorem dead {c : α} (hstep : ∀ rest r, run s l (c :: rest) = some r → ¬ good r) :
    Reads run good False s l (c :: t) P :=
  ⟨False.elim, fun _ rest r hend => hstep (t ++ rest) r hend⟩

/-- Characters the scanner does not notice. -/
theorem skip {w : List α} {c : α}
    (hskip : ∀ rest, run s l (w ++ c :: rest) = run s l (c :: rest))
    (h : Reads run good ok s l (c :: t) P) : Reads run good ok s l (w ++ c :: t) P := by
  refine ⟨fun hok => ?_, fun hnot rest s'' hend => ?_⟩
  · obtain ⟨s₁, l₁, hrun, hP⟩ := h.reads hok
    refine ⟨s₁, l₁, fun rest => ?_, hP⟩
    rw [List.append_assoc, List.cons_append, hskip, ← List.cons_append, hrun]
  · rw [List.append_assoc, List.cons_append, hskip, ← List.cons_append] at hend
    exact h.fails hnot rest s'' hend

end Reads

end Reading
