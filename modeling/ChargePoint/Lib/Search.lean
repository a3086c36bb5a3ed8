import Mathlib.Data.List.Infix
import Mathlib.Data.List.DropRight

/-!
# Where a word stands in a text

`find` is what `strstr` computes, as an index. `First` says the same of the text itself: it is cut
into what stands before the word, the word, and what follows. There is one such cut if the word
stands in the text at all (`First.unique`, `exists_first`), and `find` finds it (`find_eq_some`).
-/

set_option autoImplicit false

namespace Search

variable {α : Type}

/-- **The word stands here first**: behind `pre` and in front of `rest`. -/
structure First (w text pre rest : List α) : Prop where
  split : text = pre ++ (w ++ rest)
  first : ∀ k < pre.length, ¬ w <+: text.drop k

variable {w text pre rest : List α}

theorem First.drop (h : First w text pre rest) : text.drop pre.length = w ++ rest := by
  rw [h.split, List.drop_left]

theorem First.nil (w rest : List α) : First w (w ++ rest) [] rest :=
  ⟨rfl, fun _ hk => absurd hk (Nat.not_lt_zero _)⟩

/-- One character more in front, at which the word does not stand. -/
theorem First.cons {c : α} (h : First w text pre rest) (hc : ¬ w <+: c :: text) :
    First w (c :: text) (c :: pre) rest := by
  refine ⟨congrArg (c :: ·) h.split, ?_⟩
  intro k hk
  cases k with
  | zero => exact hc
  | succ k => exact h.first k (Nat.lt_of_succ_lt_succ hk)

/-- And one character less. -/
theorem First.of_cons {c d : α} (h : First w (c :: text) (d :: pre) rest) :
    First w text pre rest ∧ ¬ w <+: c :: text := by
  refine ⟨⟨(List.cons.inj h.split).2, fun k hk => ?_⟩, h.first 0 (Nat.zero_lt_succ _)⟩
  exact h.first (k + 1) (Nat.succ_lt_succ hk)

/-- There is one first place. -/
theorem First.unique {pre' rest' : List α} (h : First w text pre rest)
    (h' : First w text pre' rest') : pre = pre' ∧ rest = rest' := by
  have hlen : pre.length = pre'.length := by
    apply Nat.le_antisymm
    · apply Nat.le_of_not_lt
      intro hlt
      exact h.first _ hlt ⟨rest', h'.drop.symm⟩
    · apply Nat.le_of_not_lt
      intro hlt
      exact h'.first _ hlt ⟨rest, h.drop.symm⟩
  obtain ⟨hpre, hrest⟩ := List.append_inj (h.split.symm.trans h'.split) hlen
  exact ⟨hpre, List.append_cancel_left hrest⟩

/-- A text without the first character of a word does not hold the word. -/
theorem First.of_not_mem {c : α} {w : List α} (h : c ∉ pre) :
    First (c :: w) (pre ++ (c :: w ++ rest)) pre rest := by
  refine ⟨rfl, ?_⟩
  rintro k hk ⟨back, hback⟩
  rw [List.drop_append_of_le_length hk.le, List.drop_eq_getElem_cons hk] at hback
  obtain ⟨rfl, -⟩ := List.cons.inj hback
  exact h (List.getElem_mem hk)

/-- A single character. -/
theorem first_singleton {c : α} : First [c] text pre rest ↔ text = pre ++ c :: rest ∧ c ∉ pre := by
  constructor
  · intro h
    refine ⟨h.split, ?_⟩
    intro hc
    obtain ⟨front, back, rfl⟩ := List.append_of_mem hc
    refine h.first front.length (by simp) ⟨back ++ c :: rest, ?_⟩
    rw [h.split, List.append_assoc, List.drop_left]
    simp
  · rintro ⟨rfl, hc⟩
    exact .of_not_mem hc

variable [DecidableEq α]

/-- A word that stands in a text stands somewhere first. -/
theorem exists_first (h : w <:+: text) : ∃ pre rest, First w text pre rest := by
  induction text with
  | nil =>
    obtain rfl := List.infix_nil.mp h
    exact ⟨[], [], .nil [] []⟩
  | cons c text ih =>
    by_cases hc : w <+: c :: text
    · obtain ⟨rest, hrest⟩ := hc
      rw [← hrest]
      exact ⟨[], rest, .nil w rest⟩
    · have htail := (List.infix_cons_iff.mp h).resolve_left hc
      obtain ⟨pre, rest, hfirst⟩ := ih htail
      exact ⟨c :: pre, rest, hfirst.cons hc⟩

/-- The index at which a word stands first. -/
def find (w : List α) : List α → Option Nat
  | [] => if w = [] then some 0 else none
  | c :: text => if w <+: c :: text then some 0 else (find w text).map (· + 1)

theorem find_first (h : First w text pre rest) : find w text = some pre.length := by
  induction text generalizing pre with
  | nil =>
    obtain ⟨rfl, hw⟩ := List.append_eq_nil_iff.mp h.split.symm
    obtain ⟨rfl, -⟩ := List.append_eq_nil_iff.mp hw
    rfl
  | cons c text ih =>
    cases pre with
    | nil =>
      have hpre : w <+: c :: text := ⟨rest, h.split.symm⟩
      rw [find, if_pos hpre]
      rfl
    | cons d pre =>
      obtain ⟨htail, hc⟩ := h.of_cons
      rw [find, if_neg hc, ih htail]
      rfl

theorem find_none (h : ¬ w <:+: text) : find w text = none := by
  induction text with
  | nil =>
    rw [find, if_neg]
    rintro rfl
    exact h List.nil_infix
  | cons c text ih =>
    rw [List.infix_cons_iff, not_or] at h
    rw [find, if_neg h.1, ih h.2]
    rfl

/-- **`find` finds the first place.** -/
theorem find_eq_some {n : Nat} :
    find w text = some n ↔ ∃ pre rest, First w text pre rest ∧ pre.length = n := by
  constructor
  · intro h
    by_cases hw : w <:+: text
    · obtain ⟨pre, rest, hfirst⟩ := exists_first hw
      rw [find_first hfirst] at h
      exact ⟨pre, rest, hfirst, Option.some.inj h⟩
    · rw [find_none hw] at h
      cases h
  · rintro ⟨pre, rest, hfirst, rfl⟩
    exact find_first hfirst

end Search
