import Mathlib.Data.List.Basic

/-!
# A queue that makes room

A bounded first-in first-out queue that never refuses: a push into a full queue drops the
oldest entry. So an entry leaves for one reason only, and it leaves from the front
(`mem_push`).
-/

set_option autoImplicit false

namespace DropQueue

universe u
variable {α : Type u}

/-- Append `x`; if the queue is full, drop the oldest entry first. -/
def push (cap : Nat) (q : List α) (x : α) : List α :=
  if q.length < cap then q ++ [x] else q.tail ++ [x]

theorem mem_push_self (cap : Nat) (q : List α) (x : α) : x ∈ push cap q x := by
  unfold push
  split <;> simp

/-- An entry survives a push, or the queue was full and it was the oldest. -/
theorem mem_push {n : Nat} {q : List α} {v : α} (x : α) (h : v ∈ q) :
    v ∈ push n q x ∨ (n ≤ q.length ∧ q.head? = some v) := by
  unfold push
  split
  · exact .inl (List.mem_append_left _ h)
  · rename_i hfull
    cases q with
    | nil => exact absurd h List.not_mem_nil
    | cons y q =>
      rcases List.mem_cons.mp h with rfl | h
      · exact .inr ⟨Nat.not_lt.mp hfull, rfl⟩
      · exact .inl (List.mem_append_left _ h)

/-- Nothing else gets in. -/
theorem mem_of_mem_push {n : Nat} {q : List α} {v x : α} (h : v ∈ push n q x) : v ∈ q ∨ v = x := by
  unfold push at h
  split at h
  · simpa using h
  · rcases List.mem_append.mp h with h | h
    · exact .inl (List.mem_of_mem_tail h)
    · exact .inr (List.mem_singleton.mp h)

/-! ## What is in it -/

/-- The last `cap` entries. -/
def last (cap : Nat) (l : List α) : List α := l.drop (l.length - cap)

theorem length_last (cap : Nat) (l : List α) : (last cap l).length = min l.length cap := by
  unfold last
  rw [List.length_drop]
  omega

theorem last_of_length_le {cap : Nat} {l : List α} (h : l.length ≤ cap) : last cap l = l := by
  unfold last
  rw [Nat.sub_eq_zero_of_le h, List.drop_zero]

/-- **A queue that makes room holds the last entries**, in the order they came. -/
theorem push_last {cap : Nat} (h : 0 < cap) (l : List α) (x : α) :
    push cap (last cap l) x = last cap (l ++ [x]) := by
  have hlen := length_last cap l
  unfold push
  split
  · rename_i hroom
    have hl : l.length < cap := by omega
    rw [last_of_length_le (Nat.le_of_lt hl), last_of_length_le (by rw [List.length_append]; exact hl)]
  · rename_i hfull
    unfold last
    rw [List.tail_drop, List.length_append, List.length_singleton,
      List.drop_append_of_le_length (by omega)]
    congr 2
    omega

end DropQueue
