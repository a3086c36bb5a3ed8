import ChargePoint.Lib.Ring
import ChargePoint.Lib.Trace

/-!
# A ring between two threads

One thread puts entries into a ring of `n` places and another takes them out. Each does so in
single loads and stores, and the two take turns in any order.

The producer here moves its index **before** it stores the entry. So there is a moment at which the
consumer may find a place that it takes for filled and that still holds what it held a round
before. `given_entry` says that nothing else can go wrong: the `i`-th entry handed out is the `i`-th
accepted one, unless the place was read in that moment, and then it is the entry `n` before it.
-/

set_option autoImplicit false

namespace Spsc

universe u
variable {α : Type u} {n : Nat}

/-! ## 1. The threads -/

/-- Where the producer stands. -/
inductive Putting (α : Type u)
  | idle
  /-- there is room, and the index is to be moved -/
  | move (x : α)
  /-- the index is moved, and the entry is to be stored -/
  | store (x : α)

/-- Where the consumer stands. -/
inductive Taking
  | idle
  /-- there is an entry, and the index is to be moved -/
  | move
  /-- the index is moved, and the entry is to be read -/
  | load

structure State (α : Type u) where
  slot : Nat → α
  rear : Nat
  front : Nat
  putting : Putting α
  taking : Taking

/-- Whose turn it is. A producer that is idle is given the entry to put. -/
inductive Turn (α : Type u)
  | put (x : α)
  | producer
  | consumer

inductive Obs (α : Type u)
  | refused (x : α)
  | accepted (x : α)
  /-- the consumer found nothing -/
  | empty
  /-- `torn`: it was read before it was stored -/
  | given (x : α) (torn : Bool)

/-- The entry is about to be stored. -/
def Putting.isStore : Putting α → Bool
  | .store _ => true
  | .idle | .move _ => false

namespace State

/-- The place the consumer looks at is the one the producer has yet to fill. -/
def torn (s : State α) : Bool := s.putting.isStore && s.front == s.rear

/-- One load or store of one thread. -/
def step (n : Nat) (s : State α) : Turn α → Option (State α × List (Obs α))
  | .put x =>
    match s.putting with
    | .idle =>
      if (s.rear + 1) % n = s.front then some (s, [.refused x])
      else some ({ s with putting := .move x }, [])
    | .move _ | .store _ => none
  | .producer =>
    match s.putting with
    | .idle => some (s, [])
    | .move x => some ({ s with rear := (s.rear + 1) % n, putting := .store x }, [.accepted x])
    | .store x => some ({ s with slot := Function.update s.slot s.rear x, putting := .idle }, [])
  | .consumer =>
    match s.taking with
    | .idle =>
      if s.front = s.rear then some (s, [.empty]) else some ({ s with taking := .move }, [])
    | .move => some ({ s with front := (s.front + 1) % n, taking := .load }, [])
    | .load => some ({ s with taking := .idle }, [.given (s.slot s.front) s.torn])

/-- Both threads are idle and the ring is empty. -/
def fresh (slot : Nat → α) : State α := ⟨slot, 0, 0, .idle, .idle⟩

end State

/-! ## 2. What went in and what came out

The entries are numbered as if the ring had been filled once before: the first `n` are what its
places held at the start. With that, the place of number `i` is `i + 1` modulo `n` for all of them,
and a torn read is the one `n` before. -/

/-- The entries accepted so far. -/
def accepted (log : List (Obs α)) : List α :=
  log.filterMap fun o => match o with
    | .accepted x => some x
    | .refused _ | .empty | .given _ _ => none

/-- The entries handed out so far, and which of them were torn. -/
def given (log : List (Obs α)) : List (α × Bool) :=
  log.filterMap fun o => match o with
    | .given x torn => some (x, torn)
    | .refused _ | .accepted _ | .empty => none

/-- The entries in the order of their places: those the ring is made with, and what was
accepted. The `i`-th accepted entry is number `n + i`. -/
def entries (n : Nat) (slot : Nat → α) (log : List (Obs α)) : List α :=
  Ring.window slot n 1 n ++ accepted log

section Logs
variable (log : List (Obs α)) {slot : Nat → α} {x : α} {b : Bool}

@[simp] theorem accepted_append (o : List (Obs α)) :
    accepted (log ++ o) = accepted log ++ accepted o := List.filterMap_append

@[simp] theorem given_append (o : List (Obs α)) : given (log ++ o) = given log ++ given o :=
  List.filterMap_append

@[simp] theorem accepted_accepted : accepted [Obs.accepted x] = [x] := rfl
@[simp] theorem accepted_refused : accepted [Obs.refused x] = [] := rfl
@[simp] theorem accepted_empty : accepted [(Obs.empty : Obs α)] = [] := rfl
@[simp] theorem accepted_given : accepted [Obs.given x b] = [] := rfl
@[simp] theorem given_accepted : given [Obs.accepted x] = [] := rfl
@[simp] theorem given_refused : given [Obs.refused x] = [] := rfl
@[simp] theorem given_empty : given [(Obs.empty : Obs α)] = [] := rfl
@[simp] theorem given_given : given [Obs.given x b] = [(x, b)] := rfl

theorem length_entries : (entries n slot log).length = n + (accepted log).length := by
  simp [entries, Ring.length_window]

theorem entries_append (o : List (Obs α)) :
    entries n slot (log ++ o) = entries n slot log ++ accepted o := by
  simp [entries]

/-- Number `n + i` is the `i`-th accepted one. -/
theorem entries_accepted (i : Nat) :
    (entries n slot log)[n + i]? = (accepted log)[i]? := by
  have hlen : (Ring.window slot n 1 n).length = n := Ring.length_window
  rw [entries, List.getElem?_append_right (by omega), hlen, Nat.add_sub_cancel_left]

end Logs

/-! ## 3. The invariant

Both indices are lengths of the log modulo `n`, `rear` that of what was accepted and `front` that
of what was passed. Where an entry is, is then a matter of its number; and as the numbers in the
ring never differ by more than `n`, a number tells its place. -/

/-- How many entries are stored. -/
def stored (s : State α) (log : List (Obs α)) : Nat :=
  (accepted log).length - s.putting.isStore.toNat

/-- How many places the consumer has moved past. -/
def passed (s : State α) (log : List (Obs α)) : Nat :=
  match s.taking with
  | .load => (given log).length + 1
  | .idle | .move => (given log).length

/-- What the threads have made of the log. -/
structure Inv (n : Nat) (slot : Nat → α) (s : State α) (log : List (Obs α)) : Prop where
  rear : s.rear = (accepted log).length % n
  front : s.front = passed s log % n
  le : passed s log ≤ (accepted log).length
  room : (accepted log).length + 1 ≤ passed s log + n
  /-- A producer that is about to move its index has a free place. -/
  free : ∀ x, s.putting = .move x → (accepted log).length + 1 < passed s log + n
  /-- A consumer that is about to move its index has an entry. -/
  held : s.taking = .move → passed s log < (accepted log).length
  /-- The entry to be stored is the last that was accepted. -/
  last : ∀ x, s.putting = .store x → (accepted log).getLast? = some x
  /-- The last `n` entries that are stored stand in their places. -/
  places : ∀ i, stored s log ≤ i → i < stored s log + n →
    (entries n slot log)[i]? = some (s.slot ((i + 1) % n))

section Step
variable {slot : Nat → α} {s s' : State α} {log o : List (Obs α)}

theorem inv_fresh (hn : 0 < n) : Inv n slot (State.fresh slot) [] where
  rear := (Nat.zero_mod n).symm
  front := (Nat.zero_mod n).symm
  le := Nat.le_refl 0
  room := by
    show 0 + 1 ≤ 0 + n
    omega
  free x h := by cases h
  held h := by cases h
  last x h := by cases h
  places i _ hi := by
    have hlt : i < n := by
      simpa [stored, accepted] using hi
    simp [entries, accepted, State.fresh, Ring.window, hlt, Nat.add_comm]

theorem stored_le (s : State α) (log : List (Obs α)) : stored s log ≤ (accepted log).length :=
  Nat.sub_le _ _

theorem given_passed (s : State α) (log : List (Obs α)) :
    (given log).length ≤ passed s log ∧ passed s log ≤ (given log).length + 1 := by
  unfold passed
  cases s.taking with
  | load => exact ⟨Nat.le_succ _, Nat.le_refl _⟩
  | idle | move => exact ⟨Nat.le_refl _, Nat.le_succ _⟩

/-- There is no room exactly if all places but one are taken. -/
theorem full_iff (h : Inv n slot s log) :
    (s.rear + 1) % n = s.front ↔ (accepted log).length + 1 = passed s log + n := by
  have hle := h.le
  have hroom := h.room
  rw [h.rear, h.front, Nat.mod_add_mod]
  constructor
  · intro heq
    by_contra hne
    obtain ⟨k, hk⟩ : ∃ k, (accepted log).length = passed s log + k :=
      ⟨_, (Nat.add_sub_cancel' hle).symm⟩
    have hplace : (passed s log + 0) % n ≠ (passed s log + (k + 1)) % n :=
      Ring.place_ne (by omega) (by omega)
    rw [hk, Nat.add_assoc] at heq
    exact hplace heq.symm
  · intro heq
    rw [heq, Nat.add_mod_right]

/-- The ring looks empty exactly if everything was handed out. -/
theorem empty_iff (h : Inv n slot s log) :
    s.front = s.rear ↔ passed s log = (accepted log).length := by
  have hle := h.le
  have hroom := h.room
  rw [h.rear, h.front]
  constructor
  · intro heq
    by_contra hne
    obtain ⟨k, hk⟩ : ∃ k, (accepted log).length = passed s log + k :=
      ⟨_, (Nat.add_sub_cancel' hle).symm⟩
    have hplace : (passed s log + 0) % n ≠ (passed s log + k) % n :=
      Ring.place_ne (by omega) (by omega)
    rw [hk] at heq
    exact hplace heq
  · intro heq
    rw [heq]

/-- **What the consumer reads** is the entry that is due, or, torn, the one `n` before it. -/
theorem load_entry (h : Inv n slot s log) (hload : s.taking = .load) :
    (entries n slot log)[if s.torn then (given log).length else n + (given log).length]? =
      some (s.slot s.front) := by
  have hpassed : passed s log = (given log).length + 1 := by
    unfold passed
    rw [hload]
  have hle := h.le
  have hroom := h.room
  have hempty := empty_iff h
  have hfront : s.front = ((given log).length + 1) % n := by rw [h.front, hpassed]
  by_cases htorn : s.torn = true
  · rw [if_pos htorn, hfront]
    obtain ⟨hstore, heq⟩ := Bool.and_eq_true_iff.mp htorn
    -- the index has passed an entry still to be stored: the slot holds the one a lap before
    have hall := hempty.mp (beq_iff_eq.mp heq)
    apply h.places
    · unfold stored
      rw [hstore, Bool.toNat_true]
      omega
    · unfold stored
      rw [hstore, Bool.toNat_true]
      omega
  · rw [if_neg htorn, hfront]
    have hahead : (given log).length < stored s log := by
      unfold stored
      cases hstore : s.putting.isStore with
      | false =>
        rw [Bool.toNat_false]
        omega
      | true =>
        have hne : ¬ s.front = s.rear := by
          intro heq
          apply htorn
          simp [State.torn, hstore, heq]
        rw [Bool.toNat_true]
        have := mt hempty.mpr hne
        omega
    have hstored := stored_le s log
    -- otherwise the slot was last written for the entry that is due
    have hplace := h.places (n + (given log).length) (by omega) (by omega)
    rwa [Nat.add_assoc, Nat.add_mod_left] at hplace

/-- **A turn of the producer that moves its index.** -/
theorem inv_move {x : α} (h : Inv n slot s log) (hmove : s.putting = .move x) :
    Inv n slot { s with rear := (s.rear + 1) % n, putting := .store x } (log ++ [.accepted x]) := by
  have hfree := h.free x hmove
  have hpassed : passed { s with rear := (s.rear + 1) % n, putting := .store x }
      (log ++ [.accepted x]) = passed s log := by
    simp [passed]
  have hstored : stored { s with rear := (s.rear + 1) % n, putting := .store x }
      (log ++ [.accepted x]) = stored s log := by
    simp [stored, Putting.isStore, hmove]
  have hlen : (accepted (log ++ [.accepted x])).length = (accepted log).length + 1 := by simp
  constructor
  · rw [hlen]
    show (s.rear + 1) % n = _
    rw [h.rear, Nat.mod_add_mod]
  · rw [hpassed]
    exact h.front
  · rw [hpassed, hlen]
    have := h.le
    omega
  · rw [hpassed, hlen]
    omega
  · intro y hy
    cases hy
  · intro htake
    rw [hpassed, hlen]
    have := h.held htake
    omega
  · intro y hy
    cases hy
    simp
  · intro i hlow hhigh
    rw [hstored] at hlow hhigh
    have hin : i < (entries n slot log).length := by
      have := stored_le s log
      rw [length_entries]
      omega
    rw [entries_append, List.getElem?_append_left hin]
    exact h.places i hlow hhigh

/-- **A turn of the producer that stores its entry.** -/
theorem inv_store {x : α} (h : Inv n slot s log) (hstore : s.putting = .store x) :
    Inv n slot { s with slot := Function.update s.slot s.rear x, putting := .idle } log := by
  have hlast := h.last x hstore
  have hpos : 0 < (accepted log).length := by
    rw [List.length_pos_iff]
    intro hnil
    rw [hnil] at hlast
    cases hlast
  have hbefore : stored s log = (accepted log).length - 1 := by
    simp [stored, Putting.isStore, hstore]
  have hafter : stored { s with slot := Function.update s.slot s.rear x, putting := .idle } log =
      (accepted log).length := by
    simp [stored, Putting.isStore]
  refine ⟨h.rear, h.front, h.le, h.room, ?_, h.held, ?_, ?_⟩
  · intro y hy
    cases hy
  · intro y hy
    cases hy
  intro i hlow hhigh
  rw [hafter] at hlow hhigh
  by_cases hi : i + 1 = (accepted log).length + n
  · -- the place that was stored in
    have hplace : (i + 1) % n = s.rear := by rw [hi, Nat.add_mod_right, h.rear]
    have hnum : i = n + ((accepted log).length - 1) := by omega
    rw [hplace, hnum, entries_accepted, ← List.getLast?_eq_getElem?, hlast]
    exact congrArg some (Function.update_self s.rear x s.slot).symm
  · have hne : (i + 1) % n ≠ s.rear := by
      obtain ⟨k, hk⟩ : ∃ k, i + 1 = (accepted log).length + k :=
        ⟨_, (Nat.add_sub_cancel' (by omega)).symm⟩
      rw [hk, h.rear]
      exact (Ring.place_ne (i := 0) (by omega) (by omega)).symm
    have hkept : Function.update s.slot s.rear x ((i + 1) % n) = s.slot ((i + 1) % n) :=
      Function.update_of_ne hne ..
    exact (h.places i (by omega) (by omega)).trans (congrArg some hkept.symm)

/-- A turn that leaves the producer and its places alone. -/
theorem Inv.consumed {log' : List (Obs α)} (h : Inv n slot s log)
    (hacc : accepted log' = accepted log) (hslot : s'.slot = s.slot) (hrear : s'.rear = s.rear)
    (hput : s'.putting = s.putting) (hfront : s'.front = passed s' log' % n)
    (hge : passed s log ≤ passed s' log') (hle : passed s' log' ≤ (accepted log).length)
    (hheld : s'.taking = .move → passed s' log' < (accepted log).length) :
    Inv n slot s' log' := by
  have hroom := h.room
  have hstored : stored s' log' = stored s log := by rw [stored, stored, hacc, hput]
  have hentries : entries n slot log' = entries n slot log := by rw [entries, entries, hacc]
  constructor
  · rw [hrear, hacc]
    exact h.rear
  · exact hfront
  · rwa [hacc]
  · rw [hacc]
    omega
  · intro x hx
    have := h.free x (hput ▸ hx)
    rw [hacc]
    omega
  · rwa [hacc]
  · rw [hacc, hput]
    exact h.last
  · rw [hstored, hentries, hslot]
    exact h.places

/-- The producer has seen that there is room. -/
theorem inv_put {x : α} (h : Inv n slot s log) (hidle : s.putting = .idle)
    (hroom : (accepted log).length + 1 ≠ passed s log + n) :
    Inv n slot { s with putting := .move x } log := by
  have hle := h.room
  have hstored : stored { s with putting := .move x } log = stored s log := by
    simp [stored, Putting.isStore, hidle]
  constructor
  · exact h.rear
  · exact h.front
  · exact h.le
  · exact hle
  · intro y _
    show (accepted log).length + 1 < passed s log + n
    omega
  · exact h.held
  · intro y hy
    cases hy
  · rw [hstored]
    exact h.places

/-- **Every turn of the consumer keeps the invariant.** -/
theorem inv_consumer (h : Inv n slot s log) (hstep : s.step n .consumer = some (s', o)) :
    Inv n slot s' (log ++ o) := by
  have hle := h.le
  have hfront := h.front
  -- the three stages of taking: the test, the advance, the read
  cases htake : s.taking with
  | idle =>
    have hpassed : passed s log = (given log).length := by rw [passed, htake]
    simp only [State.step, htake] at hstep
    split at hstep
    · cases hstep
      refine h.consumed (by simp) rfl rfl rfl ?_ ?_ ?_ ?_
      · simpa [passed, htake] using hfront
      · simp [passed, htake]
      · simpa [passed, htake] using hle
      · intro hmove
        rw [htake] at hmove
        cases hmove
    · rename_i hne
      cases hstep
      have hheld := mt (empty_iff h).mpr hne
      rw [List.append_nil]
      rw [hpassed] at hfront hle hheld
      refine h.consumed rfl rfl rfl rfl hfront ?_ hle ?_
      · rw [hpassed]
        exact Nat.le_refl _
      · intro _
        show (given log).length < _
        omega
  | move =>
    have hpassed : passed s log = (given log).length := by rw [passed, htake]
    have hheld := h.held htake
    simp only [State.step, htake] at hstep
    cases hstep
    rw [List.append_nil]
    refine h.consumed rfl rfl rfl rfl ?_ ?_ ?_ ?_
    · show (s.front + 1) % n = ((given log).length + 1) % n
      rw [hfront, hpassed, Nat.mod_add_mod]
    · rw [hpassed]
      exact Nat.le_succ _
    · show (given log).length + 1 ≤ _
      omega
    · intro hmove
      cases hmove
  | load =>
    have hpassed : passed s log = (given log).length + 1 := by rw [passed, htake]
    simp only [State.step, htake] at hstep
    cases hstep
    have hafter : passed { s with taking := .idle } (log ++ [.given (s.slot s.front) s.torn]) =
        passed s log := by
      simp [passed, htake]
    refine h.consumed (by simp) rfl rfl rfl ?_ ?_ ?_ ?_
    · rw [hafter]
      exact hfront
    · exact Nat.le_of_eq hafter.symm
    · rw [hafter]
      exact hle
    · intro hmove
      cases hmove

/-- **Every turn keeps the invariant.** -/
theorem inv_step {t : Turn α} (h : Inv n slot s log)
    (hstep : s.step n t = some (s', o)) : Inv n slot s' (log ++ o) := by
  cases t with
  | put x =>
    cases hput : s.putting with
    | idle =>
      simp only [State.step, hput] at hstep
      split at hstep
      · cases hstep
        refine h.consumed (by simp) rfl rfl rfl ?_ ?_ ?_ ?_
        · simpa [passed] using h.front
        · simp [passed]
        · simpa [passed] using h.le
        · simpa [passed] using h.held
      · rename_i hroom
        cases hstep
        rw [List.append_nil]
        exact inv_put h hput (mt (full_iff h).mpr hroom)
    | move y | store y =>
      simp only [State.step, hput] at hstep
      cases hstep
  | producer =>
    cases hput : s.putting with
    | idle =>
      simp only [State.step, hput] at hstep
      cases hstep
      rwa [List.append_nil]
    | move x =>
      simp only [State.step, hput] at hstep
      cases hstep
      exact inv_move h hput
    | store x =>
      simp only [State.step, hput] at hstep
      cases hstep
      rw [List.append_nil]
      exact inv_store h hput
  | consumer => exact inv_consumer h hstep

/-- A turn hands out at most what is due. -/
theorem given_step {t : Turn α} (h : Inv n slot s log) (hstep : s.step n t = some (s', o)) :
    given o = [] ∨ ∃ x b, o = [.given x b] ∧
      (entries n slot log)[if b then (given log).length else n + (given log).length]? = some x := by
  cases t with
  | put x =>
    cases hput : s.putting with
    | idle =>
      simp only [State.step, hput] at hstep
      split at hstep <;> cases hstep <;> exact .inl rfl
    | move y | store y =>
      simp only [State.step, hput] at hstep
      cases hstep
  | producer =>
    cases hput : s.putting with
    | idle | move x | store x =>
      simp only [State.step, hput] at hstep
      cases hstep
      exact .inl rfl
  | consumer =>
    cases htake : s.taking with
    | idle =>
      simp only [State.step, htake] at hstep
      split at hstep <;> cases hstep <;> exact .inl rfl
    | move =>
      simp only [State.step, htake] at hstep
      cases hstep
      exact .inl rfl
    | load =>
      simp only [State.step, htake] at hstep
      cases hstep
      exact .inr ⟨_, _, rfl, load_entry h htake⟩

/-- An entry is refused only when `n - 1` others have not been handed out. -/
theorem refused_step {t : Turn α} {x : α} (h : Inv n slot s log)
    (hstep : s.step n t = some (s', o)) (hx : .refused x ∈ o) :
    o = [.refused x] ∧ (given log).length + n ≤ (accepted log).length + 1 := by
  cases t with
  | put y =>
    cases hput : s.putting with
    | idle =>
      simp only [State.step, hput] at hstep
      split at hstep
      · rename_i hfull
        cases hstep
        have hall := (full_iff h).mp hfull
        have hpassed := given_passed s log
        rw [List.mem_singleton] at hx
        refine ⟨by rw [hx], ?_⟩
        omega
      · cases hstep
        cases hx
    | move z | store z =>
      simp only [State.step, hput] at hstep
      cases hstep
  | producer =>
    cases hput : s.putting with
    | idle | move y | store y =>
      simp only [State.step, hput] at hstep
      cases hstep
      simp at hx
  | consumer =>
    cases htake : s.taking with
    | idle =>
      simp only [State.step, htake] at hstep
      split at hstep <;> cases hstep <;> simp at hx
    | move | load =>
      simp only [State.step, htake] at hstep
      cases hstep
      simp at hx

end Step

/-! ## 4. Runs -/

section Runs
open Trace
variable {slot : Nat → α} {s : State α} {log : List (Obs α)}

theorem inv_run (hn : 0 < n) (h : Always (State.step n) (State.fresh slot) s log) :
    Inv n slot s log :=
  h.invariant (inv_fresh hn) fun hinv _ hstep => inv_step hinv hstep

/-- Number `i` of what was handed out is what is due there. -/
def Due (n : Nat) (slot : Nat → α) (log : List (Obs α)) : Prop :=
  ∀ (i : Nat) (x : α) (b : Bool), (given log)[i]? = some (x, b) →
    (entries n slot log)[if b then i else n + i]? = some x

theorem due_step {o : List (Obs α)} (h : Due n slot log)
    (ho : given o = [] ∨ ∃ x b, o = [.given x b] ∧
      (entries n slot log)[if b then (given log).length else n + (given log).length]? = some x) :
    Due n slot (log ++ o) := by
  -- the entries there were keep their numbers
  have hkept : ∀ {k : Nat} {x : α}, (entries n slot log)[k]? = some x →
      (entries n slot (log ++ o))[k]? = some x := by
    intro k x hk
    rw [entries_append, List.getElem?_append_left (List.getElem?_eq_some_iff.mp hk).1]
    exact hk
  intro i x b hi
  rw [given_append] at hi
  by_cases hold : i < (given log).length
  · rw [List.getElem?_append_left hold] at hi
    exact hkept (h i x b hi)
  · rw [List.getElem?_append_right (by omega)] at hi
    rcases ho with hnone | ⟨y, c, rfl, hdue⟩
    · rw [hnone] at hi
      cases hi
    · have hlast : i = (given log).length := by
        have := (List.getElem?_eq_some_iff.mp hi).1
        simp at this
        omega
      subst hlast
      simp only [given_given, Nat.sub_self, List.getElem?_cons_zero, Option.some.injEq,
        Prod.mk.injEq] at hi
      obtain ⟨rfl, rfl⟩ := hi
      exact hkept hdue

/-- **What is handed out**, in every run from an empty ring: the `i`-th entry is the `i`-th
accepted one, unless it is torn, and then it is the entry `n` before it. -/
theorem given_due (hn : 0 < n) (h : Always (State.step n) (State.fresh slot) s log) :
    Due n slot log := by
  refine (h.invariant (I := fun s log => Inv n slot s log ∧ Due n slot log) ⟨inv_fresh hn, ?_⟩ ?_).2
  · intro i x b hi
    cases hi
  · intro s log t s' o hI _ hstep
    exact ⟨inv_step hI.1 hstep, due_step hI.2 (given_step hI.1 hstep)⟩

/-- Nothing is handed out before it is accepted, and no more than `n` entries are ahead. -/
theorem given_le (hn : 0 < n) (h : Always (State.step n) (State.fresh slot) s log) :
    (given log).length ≤ (accepted log).length ∧
      (accepted log).length ≤ (given log).length + n := by
  have hinv := inv_run hn h
  have hle := hinv.le
  have hroom := hinv.room
  have hpassed := given_passed s log
  omega

/-- **Nothing is refused while there is room.** -/
theorem refused_full (hn : 0 < n) (h : Always (State.step n) (State.fresh slot) s log) :
    Past (fun l ob => ∀ x, ob = .refused x → (given l).length + n ≤ (accepted l).length + 1)
      log := by
  refine (h.invariant (I := fun s log => Inv n slot s log ∧ Past _ log)
    ⟨inv_fresh hn, Past.nil⟩ ?_).2
  intro s log t s' o hI _ hstep
  refine ⟨inv_step hI.1 hstep, hI.2.append ?_⟩
  intro l ob l' ho x hx
  obtain ⟨hone, hfull⟩ := refused_step (x := x) hI.1 hstep (by simp [ho, hx])
  -- it is the only thing seen in its turn
  have hnil : l = [] := by
    rw [hone] at ho
    cases l with
    | nil => rfl
    | cons y l => simp at ho
  rw [hnil, List.append_nil]
  exact hfull

end Runs

end Spsc
