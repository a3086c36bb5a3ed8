import Mathlib.Data.List.Basic
import Mathlib.Logic.Function.Basic

/-!
# Bounded queues, and the rings that hold them

`Fifo.step` is a bounded first-in first-out queue: what finds it full is refused, and nothing else
is lost. `History` is its account of itself, what was accepted and what was given out since it was
last cleared, and `history_run` is why such a queue is trusted.

A ring keeps its entries in an array of `n` places, from one index to another, round the end.
`window` is what stands there. One place always stays free, since a ring whose indices meet is
empty.
-/

set_option autoImplicit false

universe u v w x

/-! ## Machines -/

namespace Machine
variable {σ : Type u} {τ : Type v} {ι : Type w} {ο : Type x}

/-- The state after some inputs, and the answer to each. -/
def run (step : σ → ι → σ × ο) : σ → List ι → σ × List ο
  | s, [] => (s, [])
  | s, i :: is =>
    let rest := run step (step s i).1 is
    (rest.1, (step s i).2 :: rest.2)

/-- **Simulation**: `abs` carries the one machine to the other as long as `Inv` holds and the inputs
are admitted. -/
theorem run_simulates {f : σ → ι → σ × ο} {g : τ → ι → τ × ο} (abs : σ → τ) (Inv : σ → Prop)
    (ok : ι → Prop) (h : ∀ s i, Inv s → ok i →
      Inv (f s i).1 ∧ abs (f s i).1 = (g (abs s) i).1 ∧ (f s i).2 = (g (abs s) i).2)
    {s : σ} {is : List ι} (hs : Inv s) (hi : ∀ i ∈ is, ok i) :
    Inv (run f s is).1 ∧ abs (run f s is).1 = (run g (abs s) is).1 ∧
      (run f s is).2 = (run g (abs s) is).2 := by
  induction is generalizing s with
  | nil => exact ⟨hs, rfl, rfl⟩
  | cons i is ih =>
    obtain ⟨hinv, hstate, hout⟩ := h s i hs (hi i List.mem_cons_self)
    obtain ⟨hinv', hstate', hout'⟩ := ih hinv fun j hj => hi j (List.mem_cons_of_mem _ hj)
    rw [hstate] at hstate' hout'
    refine ⟨hinv', hstate', ?_⟩
    show (f s i).2 :: (run f (f s i).1 is).2 = (g (abs s) i).2 :: (run g (g (abs s) i).1 is).2
    rw [hout, hout']

end Machine

/-! ## Queues -/

namespace Fifo
variable {α : Type u}

inductive Op (α : Type u)
  | clear
  | push (x : α)
  | pop

/-- What an operation answers. -/
inductive Out (α : Type u)
  | cleared
  | pushed (accepted : Bool)
  | popped (x : Option α)

/-- A queue of at most `cap` entries. -/
def step (cap : Nat) (q : List α) : Op α → List α × Out α
  | .clear => ([], .cleared)
  | .push x => if q.length < cap then (q ++ [x], .pushed true) else (q, .pushed false)
  | .pop => (q.tail, .popped q.head?)

/-- What went in and what came out since the queue was last cleared, in order. -/
structure History (α : Type u) where
  accepted : List α
  given : List α

def History.note (h : History α) : Op α → Out α → History α
  | .clear, _ => ⟨[], []⟩
  | .push x, .pushed true => { h with accepted := h.accepted ++ [x] }
  | .pop, .popped (some x) => { h with given := h.given ++ [x] }
  | _, _ => h

def History.after (h : History α) : List (Op α) → List (Out α) → History α
  | op :: ops, out :: outs => (h.note op out).after ops outs
  | _, _ => h

section Push
variable {cap : Nat} {q : List α}

theorem step_push_room (x : α) (h : q.length < cap) :
    step cap q (.push x) = (q ++ [x], .pushed true) := if_pos h

theorem step_push_full (x : α) (h : ¬ q.length < cap) :
    step cap q (.push x) = (q, .pushed false) := if_neg h

end Push

/-- One operation keeps the account. -/
theorem history_step {cap : Nat} {q : List α} {h : History α} (op : Op α)
    (hq : h.accepted = h.given ++ q) :
    (h.note op (step cap q op).2).accepted =
      (h.note op (step cap q op).2).given ++ (step cap q op).1 := by
  cases op with
  | clear => rfl
  | push x =>
    by_cases hroom : q.length < cap
    · rw [step_push_room x hroom]
      show h.accepted ++ [x] = h.given ++ (q ++ [x])
      rw [hq, List.append_assoc]
    · rw [step_push_full x hroom]
      exact hq
  | pop =>
    cases q with
    | nil => exact hq
    | cons y q =>
      show h.accepted = h.given ++ [y] ++ q
      rw [hq, List.append_assoc]
      rfl

/-- **What was accepted is what was given out and, behind it, what is still held.** -/
theorem history_run (cap : Nat) {q : List α} {h : History α} (ops : List (Op α))
    (hq : h.accepted = h.given ++ q) :
    (h.after ops (Machine.run (step cap) q ops).2).accepted =
      (h.after ops (Machine.run (step cap) q ops).2).given ++ (Machine.run (step cap) q ops).1 := by
  induction ops generalizing q h with
  | nil => exact hq
  | cons op ops ih => exact ih (history_step op hq)

end Fifo

/-! ## Rings -/

namespace Ring
variable {α : Type u} {slot : Nat → α} {n s t k : Nat}

/-- The entries of `k` places from `s` on. -/
def window (slot : Nat → α) (n s k : Nat) : List α :=
  (List.range k).map fun i => slot ((s + i) % n)

theorem length_window : (window slot n s k).length = k := by simp [window]

theorem window_snoc : window slot n s (k + 1) = window slot n s k ++ [slot ((s + k) % n)] := by
  simp [window, List.range_succ]

theorem window_cons : window slot n s (k + 1) = slot (s % n) :: window slot n (s + 1) k := by
  simp only [window, List.range_succ_eq_map, List.map_cons, List.map_map, Nat.add_zero]
  congr 2
  funext i
  show slot ((s + (i + 1)) % n) = slot ((s + 1 + i) % n)
  rw [Nat.add_assoc, Nat.add_comm 1 i]

theorem window_mod : window slot n (s % n) k = window slot n s k := by
  simp [window]

theorem window_mod_succ : window slot n (s % n + 1) k = window slot n (s + 1) k := by
  rw [← window_mod, Nat.mod_add_mod, window_mod]

/-- Different places of one turn. -/
theorem place_ne {i j : Nat} (hij : i < j) (hj : j < n) : (s + i) % n ≠ (s + j) % n := by
  intro heq
  have hgap : (s + j - (s + i)) % n = 0 := Nat.sub_mod_eq_zero_of_mod_eq heq.symm
  rw [Nat.mod_eq_of_lt (by omega)] at hgap
  omega

/-- What is stored outside a window does not show in it. -/
theorem window_update {p : Nat} (x : α) (h : ∀ i < k, (s + i) % n ≠ p) :
    window (Function.update slot p x) n s k = window slot n s k := by
  apply List.map_congr_left
  intro i hi
  exact Function.update_of_ne (h i (List.mem_range.mp hi)) x slot

/-- **Storing behind the window** makes it longer. -/
theorem window_push (hk : k < n) (x : α) :
    window (Function.update slot ((s + k) % n) x) n s (k + 1) = window slot n s k ++ [x] := by
  rw [window_snoc, window_update x fun i hi => place_ne hi hk, Function.update_self]

/-- **Storing in its first place** leaves the rest of the window. -/
theorem window_pop (hs : s < n) (hk : k < n) (x : α) :
    window slot n s (k + 1) = slot s :: window (Function.update slot s x) n ((s + 1) % n) k := by
  have hother : ∀ i < k, (s + 1 + i) % n ≠ s := by
    intro i hi hmeet
    have hne : (s + 0) % n ≠ (s + (1 + i)) % n := place_ne (by omega) (by omega)
    rw [← Nat.add_assoc, hmeet] at hne
    exact hne (Nat.mod_eq_of_lt hs)
  rw [window_mod, window_update x hother, window_cons, Nat.mod_eq_of_lt hs]

/-! ### Indices -/

/-- How many steps it takes from `s` round to `t`. -/
def steps (n s t : Nat) : Nat := if s ≤ t then t - s else t + n - s

/-- One step. -/
theorem succ_mod (h : t < n) : (t + 1) % n = if t + 1 = n then 0 else t + 1 := by
  split
  · rw [‹t + 1 = n›, Nat.mod_self]
  · exact Nat.mod_eq_of_lt (by omega)

theorem steps_eq_zero (hs : s < n) : steps n s t = 0 ↔ s = t := by
  unfold steps
  split <;> omega

section Indices
variable (hs : s < n) (ht : t < n)
include hs ht

theorem steps_lt : steps n s t < n := by
  unfold steps
  split <;> omega

/-- Where the steps lead. -/
theorem add_steps : (s + steps n s t) % n = t := by
  unfold steps
  split
  · rw [Nat.add_sub_cancel' ‹s ≤ t›, Nat.mod_eq_of_lt ht]
  · rw [Nat.add_sub_cancel' (by omega), Nat.add_mod_right, Nat.mod_eq_of_lt ht]

/-- And the rest of the way round. -/
theorem add_rest : (t + (n - steps n s t)) % n = s := by
  unfold steps
  split
  · rw [show t + (n - (t - s)) = s + n by omega, Nat.add_mod_right, Nat.mod_eq_of_lt hs]
  · rw [show t + (n - (t + n - s)) = s by omega, Nat.mod_eq_of_lt hs]

/-- The indices would meet. -/
theorem succ_mod_eq : (t + 1) % n = s ↔ steps n s t = n - 1 := by
  unfold steps
  rw [succ_mod ht]
  split <;> split <;> omega

theorem steps_succ (hroom : steps n s t ≠ n - 1) : steps n s ((t + 1) % n) = steps n s t + 1 := by
  unfold steps at *
  rw [succ_mod ht]
  split at hroom <;> split <;> split <;> omega

theorem succ_steps (hheld : s ≠ t) : steps n ((s + 1) % n) t + 1 = steps n s t := by
  unfold steps
  rw [succ_mod hs]
  split <;> split <;> split <;> omega

end Indices

end Ring
