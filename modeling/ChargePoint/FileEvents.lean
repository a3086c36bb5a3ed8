import ChargePoint.Lib.Ring

/-!
# The file events

What is to be written to a file is queued by `CST_AddFileEvent` and done by `CstNetFileFunc`, one
event a call. The ring is read at `head` and written at `tail`. `CST_RemoveFileEvent` does not
compare the two: it looks at the type in the slot at `head`, and what keeps it from running past
`tail` is what is left in the slots nobody uses (`FileEvtQ.Inv`).

`nSleepCount` is never written, so `CstNetFileFunc` always looks.
-/

set_option autoImplicit false

namespace ChargePoint

/-- `CST_FILE_INIT`. -/
def cstFileInit : UInt16 := 0

/-- `CST_FILE_EVT_NONE`. -/
def cstFileEvtNone : UInt16 := 0xFFFF

/-- `CST_FileEvtMax`. -/
def cstFileEvtMax : Nat := 32

/-- `CST_FileEvent`. -/
structure FileEvent where
  type : UInt16
  /-- the address in `Buff`, 0 for `NULL` -/
  buff : UInt32
  length : UInt8
  deriving DecidableEq

/-- The test of the type that `CST_GetFileEvent` and `CST_RemoveFileEvent` make. -/
def FileEvent.isSet (e : FileEvent) : Prop := e.type > cstFileInit ∧ e.type < cstFileEvtNone

instance (e : FileEvent) : Decidable e.isSet := inferInstanceAs (Decidable (_ ∧ _))

/-- `CstFileEvtQ`. -/
structure FileEvtQ where
  head : Nat
  tail : Nat
  event : Nat → FileEvent
  head_lt : head < cstFileEvtMax
  tail_lt : tail < cstFileEvtMax

theorem nextSlot_lt (i : Nat) : (i + 1) % cstFileEvtMax < cstFileEvtMax :=
  Nat.mod_lt _ (by decide)

namespace FileEvtQ
variable (q : FileEvtQ)

/-- The `memset` of `ConfigInit`. -/
def zeroed : FileEvtQ := ⟨0, 0, fun _ => ⟨0, 0, 0⟩, by decide, by decide⟩

/-- **`CST_AddFileEvent`.** -/
def addFileEvent (event : FileEvent) : FileEvtQ :=
  let tail := (q.tail + 1) % cstFileEvtMax
  if tail = q.head then q
  else { q with event := Function.update q.event q.tail event
                tail := tail
                tail_lt := nextSlot_lt q.tail }

/-- **`CST_GetFileEvent`**: the event, if it returns 1. -/
def getFileEvent : Option FileEvent :=
  if q.head = q.tail then none
  else if (q.event q.head).isSet then some (q.event q.head)
  else none

/-- **`CST_RemoveFileEvent`.** -/
def removeFileEvent : FileEvtQ :=
  if (q.event q.head).isSet then
    { q with event := Function.update q.event q.head ⟨cstFileEvtNone, 0, 0⟩
             head := (q.head + 1) % cstFileEvtMax
             head_lt := nextSlot_lt q.head }
  else q

/-- **`CstNetFileFunc`**: the event that goes to `DoFileSaveEvent`, if one does, and the queue it
leaves. -/
def cstNetFileFunc : Option FileEvent × FileEvtQ :=
  match q.getFileEvent with
  | some ev => (some ev, q.removeFileEvent)
  | none => (none, q)

/-- One call: the `memset`, an event added, which finds room or does not, or `CstNetFileFunc`. -/
def step : Fifo.Op FileEvent → FileEvtQ × Fifo.Out FileEvent
  | .clear => (zeroed, .cleared)
  | .push ev => (q.addFileEvent ev, .pushed ((q.tail + 1) % cstFileEvtMax ≠ q.head))
  | .pop => (q.cstNetFileFunc.2, .popped q.cstNetFileFunc.1)

def after (ops : List (Fifo.Op FileEvent)) : FileEvtQ := (Machine.run step q ops).1

def answers (ops : List (Fifo.Op FileEvent)) : List (Fifo.Out FileEvent) :=
  (Machine.run step q ops).2

/-! ## Slots

The slots from `head` to `tail` hold what is pending, and the others are free. Both are windows
of the ring, read in its order. `CST_RemoveFileEvent` leaves a type in its slot that does not
count as set, and so does the `memset`: that all free slots are like this is the second half of
`Inv`. -/

/-- How many events are waiting. -/
def waiting : Nat := Ring.steps cstFileEvtMax q.head q.tail

/-- The events that are waiting, the oldest first. -/
def pending : List FileEvent := Ring.window q.event cstFileEvtMax q.head q.waiting

/-- What is in the other slots. -/
def free : List FileEvent :=
  Ring.window q.event cstFileEvtMax q.tail (cstFileEvtMax - q.waiting)

/-- **The invariant**: an event that waits has a type that counts as set, and no other slot has. -/
structure Inv : Prop where
  pending : ∀ ev ∈ q.pending, ev.isSet
  free : ∀ ev ∈ q.free, ¬ ev.isSet

theorem length_pending : q.pending.length = q.waiting := Ring.length_window

theorem waiting_lt : q.waiting < cstFileEvtMax := Ring.steps_lt q.head_lt q.tail_lt

theorem zeroed_inv : zeroed.Inv where
  pending ev hev := absurd hev List.not_mem_nil
  free ev hev := by
    obtain ⟨i, -, hi⟩ := List.mem_map.mp hev
    rw [← hi]
    show ¬ FileEvent.isSet ⟨0, 0, 0⟩
    decide

/-- The slot at `head` when nothing waits. -/
theorem not_isSet_of_empty (h : q.Inv) (hempty : q.head = q.tail) : ¬ (q.event q.head).isSet := by
  have hwaiting : q.waiting = 0 := (Ring.steps_eq_zero q.head_lt).mpr hempty
  have hfree : q.free = Ring.window q.event cstFileEvtMax q.tail (31 + 1) := by
    unfold free
    rw [hwaiting]
    rfl
  have hslot : q.event q.head ∈ q.free := by
    rw [hfree, Ring.window_cons, Nat.mod_eq_of_lt q.tail_lt, hempty]
    exact List.mem_cons_self
  exact h.free _ hslot

/-! ## Adding

An event is dropped if the slot behind `tail` is `head`, so one slot is never used. Otherwise it
takes the first of the free slots: the one window gets longer at its end, the other one shorter
at its beginning. -/

section Add
variable {q} (ev : FileEvent)

/-- An event is dropped when 31 are waiting, -/
theorem addFileEvent_full (hfull : ¬ q.pending.length < cstFileEvtMax - 1) :
    q.addFileEvent ev = q := by
  have hlt := q.waiting_lt
  rw [length_pending] at hfull
  exact if_pos ((Ring.succ_mod_eq q.head_lt q.tail_lt).mpr (show q.waiting = _ by omega))

section Room
variable (hroom : q.pending.length < cstFileEvtMax - 1)
include hroom

theorem tail_ne_head : (q.tail + 1) % cstFileEvtMax ≠ q.head := by
  intro hmeet
  have hlast : q.waiting = cstFileEvtMax - 1 := (Ring.succ_mod_eq q.head_lt q.tail_lt).mp hmeet
  rw [length_pending] at hroom
  omega

theorem addFileEvent_room : q.addFileEvent ev =
    { q with event := Function.update q.event q.tail ev
             tail := (q.tail + 1) % cstFileEvtMax
             tail_lt := nextSlot_lt q.tail } :=
  if_neg (tail_ne_head hroom)

theorem waiting_add : (q.addFileEvent ev).waiting = q.waiting + 1 := by
  have hnot : q.waiting ≠ cstFileEvtMax - 1 := by
    rw [← length_pending]
    omega
  rw [addFileEvent_room ev hroom]
  exact Ring.steps_succ q.head_lt q.tail_lt hnot

/-- and otherwise waits behind the others. -/
theorem pending_add : (q.addFileEvent ev).pending = q.pending ++ [ev] := by
  have hplace : (q.head + q.waiting) % cstFileEvtMax = q.tail := Ring.add_steps q.head_lt q.tail_lt
  have hpush : Ring.window (Function.update q.event _ ev) cstFileEvtMax q.head _ = _ :=
    Ring.window_push q.waiting_lt ev
  rw [hplace] at hpush
  calc (q.addFileEvent ev).pending =
      Ring.window (Function.update q.event q.tail ev) cstFileEvtMax q.head (q.waiting + 1) := by
        rw [pending, waiting_add ev hroom, addFileEvent_room ev hroom]
    _ = q.pending ++ [ev] := hpush

/-- It takes the first of the free slots. -/
theorem free_add : q.free = q.event q.tail :: (q.addFileEvent ev).free := by
  have hcount : cstFileEvtMax - q.waiting = cstFileEvtMax - (q.waiting + 1) + 1 := by
    have hlt := q.waiting_lt
    omega
  have hpop : Ring.window q.event cstFileEvtMax q.tail _ = _ :=
    Ring.window_pop (k := cstFileEvtMax - (q.waiting + 1)) q.tail_lt (by omega) ev
  rw [free, hcount, hpop, free, waiting_add ev hroom, addFileEvent_room ev hroom]

end Room

/-- **Adding keeps the invariant**, if the type of the event counts as set. -/
theorem Inv.add (h : q.Inv) (hev : ev.isSet) : (q.addFileEvent ev).Inv := by
  by_cases hroom : q.pending.length < cstFileEvtMax - 1
  · constructor
    · intro e he
      rw [pending_add ev hroom] at he
      rcases List.mem_append.mp he with hold | hnew
      · exact h.pending e hold
      · rw [List.mem_singleton.mp hnew]
        exact hev
    · intro e he
      exact h.free e (free_add ev hroom ▸ List.mem_cons_of_mem _ he)
  · rw [addFileEvent_full ev hroom]
    exact h

end Add

/-! ## Removing

`CST_RemoveFileEvent` looks at the type in the slot at `head` and at nothing else. If no event
waits that slot is a free one, so the test does what a comparison of `head` and `tail` would
(`isSet_head_iff`). -/

section Remove
variable {q}

theorem removeFileEvent_unset (h : ¬ (q.event q.head).isSet) : q.removeFileEvent = q := if_neg h

section Set
variable (hheld : q.head ≠ q.tail) (hset : (q.event q.head).isSet)
include hset

theorem removeFileEvent_set : q.removeFileEvent =
    { q with event := Function.update q.event q.head ⟨cstFileEvtNone, 0, 0⟩
             head := (q.head + 1) % cstFileEvtMax
             head_lt := nextSlot_lt q.head } := if_pos hset

include hheld

theorem waiting_remove : q.removeFileEvent.waiting + 1 = q.waiting := by
  rw [removeFileEvent_set hset]
  exact Ring.succ_steps q.head_lt q.tail_lt hheld

/-- The oldest event leaves, -/
theorem pending_remove : q.pending = q.event q.head :: q.removeFileEvent.pending := by
  have hlt := q.waiting_lt
  have hwaiting := waiting_remove hheld hset
  have hpop : Ring.window q.event cstFileEvtMax q.head _ = _ :=
    Ring.window_pop (k := q.removeFileEvent.waiting) q.head_lt (by omega) ⟨cstFileEvtNone, 0, 0⟩
  rw [pending, ← hwaiting, hpop, pending]
  generalize q.removeFileEvent.waiting = k
  rw [removeFileEvent_set hset]

/-- and its slot is free, with a type that does not count as set. -/
theorem free_remove : q.removeFileEvent.free = q.free ++ [⟨cstFileEvtNone, 0, 0⟩] := by
  have hlt := q.waiting_lt
  have hwaiting := waiting_remove hheld hset
  have hplace : (q.tail + (cstFileEvtMax - q.waiting)) % cstFileEvtMax = q.head :=
    Ring.add_rest q.head_lt q.tail_lt
  have hpush : Ring.window (Function.update q.event _ _) cstFileEvtMax q.tail _ = _ :=
    Ring.window_push (k := cstFileEvtMax - q.waiting) (by omega) ⟨cstFileEvtNone, 0, 0⟩
  have hcount : cstFileEvtMax - q.waiting + 1 = cstFileEvtMax - q.removeFileEvent.waiting := by omega
  rw [hplace, hcount] at hpush
  rw [free]
  generalize cstFileEvtMax - q.removeFileEvent.waiting = k at hpush
  rw [removeFileEvent_set hset]
  exact hpush

end Set

theorem pending_eq_nil_iff : q.pending = [] ↔ q.head = q.tail := by
  rw [← List.length_eq_zero_iff, length_pending]
  exact Ring.steps_eq_zero q.head_lt

/-- **What the guard stands for**: the slot at `head` counts as set as long as an event waits. -/
theorem isSet_head_iff (h : q.Inv) : (q.event q.head).isSet ↔ q.head ≠ q.tail := by
  constructor
  · intro hset hempty
    exact q.not_isSet_of_empty h hempty hset
  · intro hheld
    have hwaiting : q.waiting = q.waiting - 1 + 1 := by
      have hne : q.waiting ≠ 0 := fun hzero => hheld ((Ring.steps_eq_zero q.head_lt).mp hzero)
      omega
    have hslot : q.event q.head ∈ q.pending := by
      rw [pending, hwaiting, Ring.window_cons, Nat.mod_eq_of_lt q.head_lt]
      exact List.mem_cons_self
    exact h.pending _ hslot

/-- **Removing keeps the invariant.** -/
theorem Inv.remove (h : q.Inv) : q.removeFileEvent.Inv := by
  by_cases hheld : q.head = q.tail
  · rw [removeFileEvent_unset (q.not_isSet_of_empty h hheld)]
    exact h
  · have hset := (isSet_head_iff h).mpr hheld
    constructor
    · intro e he
      have hmem : e ∈ q.pending := pending_remove hheld hset ▸ List.mem_cons_of_mem _ he
      exact h.pending e hmem
    · intro e he
      rw [free_remove hheld hset] at he
      rcases List.mem_append.mp he with hold | hnew
      · exact h.free e hold
      · rw [List.mem_singleton.mp hnew]
        decide

/-- **`CstNetFileFunc`** does the oldest event and removes it. -/
theorem cstNetFileFunc_eq (h : q.Inv) : q.cstNetFileFunc = (q.pending.head?, q.removeFileEvent) ∧
    q.removeFileEvent.pending = q.pending.tail := by
  by_cases hheld : q.head = q.tail
  · have hnone : q.getFileEvent = none := if_pos hheld
    have hnil := pending_eq_nil_iff.mpr hheld
    unfold cstNetFileFunc
    rw [hnone, removeFileEvent_unset (q.not_isSet_of_empty h hheld), hnil]
    exact ⟨rfl, rfl⟩
  · have hset := (isSet_head_iff h).mpr hheld
    have hsome : q.getFileEvent = some (q.event q.head) := by
      unfold getFileEvent
      rw [if_neg hheld, if_pos hset]
    unfold cstNetFileFunc
    rw [hsome, pending_remove hheld hset]
    exact ⟨rfl, rfl⟩

end Remove

/-! ## Runs

One operation does on the ring what it does on a queue of 31, and answers the same. For a
sequence of them that is the simulation rule of `Machine`. -/

/-- An operation with a type that an event may have. -/
def Valid : Fifo.Op FileEvent → Prop
  | .push ev => ev.isSet
  | .clear | .pop => True

/-- **One operation** of the ring is one of the queue. -/
theorem step_pending (op : Fifo.Op FileEvent) (h : q.Inv) (hop : Valid op) :
    (q.step op).1.Inv ∧ (q.step op).1.pending = (Fifo.step (cstFileEvtMax - 1) q.pending op).1 ∧
      (q.step op).2 = (Fifo.step (cstFileEvtMax - 1) q.pending op).2 := by
  cases op with
  | clear => exact ⟨zeroed_inv, rfl, rfl⟩
  | push ev =>
    refine ⟨h.add ev hop, ?_⟩
    by_cases hroom : q.pending.length < cstFileEvtMax - 1
    · rw [Fifo.step_push_room ev hroom]
      refine ⟨pending_add ev hroom, congrArg Fifo.Out.pushed ?_⟩
      exact decide_eq_true (tail_ne_head hroom)
    · have hmeet : (q.tail + 1) % cstFileEvtMax = q.head := by
        have hlt := q.waiting_lt
        rw [length_pending] at hroom
        exact (Ring.succ_mod_eq q.head_lt q.tail_lt).mpr (show q.waiting = _ by omega)
      rw [Fifo.step_push_full ev hroom]
      refine ⟨congrArg pending (addFileEvent_full ev hroom), congrArg Fifo.Out.pushed ?_⟩
      exact decide_eq_false fun hne => hne hmeet
  | pop =>
    obtain ⟨hfunc, htail⟩ := cstNetFileFunc_eq h
    show q.cstNetFileFunc.2.Inv ∧ q.cstNetFileFunc.2.pending = q.pending.tail ∧
      Fifo.Out.popped q.cstNetFileFunc.1 = .popped q.pending.head?
    rw [hfunc]
    exact ⟨h.remove, htail, rfl⟩

/-- **Any sequence of operations**, from the zeroed queue. -/
theorem run_pending {ops : List (Fifo.Op FileEvent)} (hops : ∀ op ∈ ops, Valid op) :
    (zeroed.after ops).Inv ∧
      (zeroed.after ops).pending = (Machine.run (Fifo.step (cstFileEvtMax - 1)) [] ops).1 ∧
      zeroed.answers ops = (Machine.run (Fifo.step (cstFileEvtMax - 1)) [] ops).2 :=
  Machine.run_simulates pending Inv Valid (fun q op => q.step_pending op) zeroed_inv hops

end FileEvtQ

open FileEvtQ

/-- **The file events are a queue of 31.** From the zeroed queue, and as long as the types of the
events are valid, it holds and answers what such a queue would: what was accepted is what was
done, each event once and in order, and, behind it, what is still waiting. An event is dropped
when 31 are waiting and at no other time, and `CST_RemoveFileEvent` leaves an empty queue as it
is. -/
theorem fileEvents_fifo (ops : List (Fifo.Op FileEvent)) (hops : ∀ op ∈ ops, Valid op) :
    ((zeroed.after ops).pending = (Machine.run (Fifo.step (cstFileEvtMax - 1)) [] ops).1 ∧
      zeroed.answers ops = (Machine.run (Fifo.step (cstFileEvtMax - 1)) [] ops).2) ∧
    ((Fifo.History.mk [] []).after ops (zeroed.answers ops)).accepted =
      ((Fifo.History.mk [] []).after ops (zeroed.answers ops)).given ++ (zeroed.after ops).pending ∧
    (∀ ev, (zeroed.after ops).pending.length < cstFileEvtMax - 1 →
      ((zeroed.after ops).addFileEvent ev).pending = (zeroed.after ops).pending ++ [ev]) ∧
    (∀ ev, ¬ (zeroed.after ops).pending.length < cstFileEvtMax - 1 →
      (zeroed.after ops).pending.length = 31 ∧
      (zeroed.after ops).addFileEvent ev = zeroed.after ops) ∧
    ((zeroed.after ops).pending = [] → (zeroed.after ops).removeFileEvent = zeroed.after ops) := by
  obtain ⟨hinv, hpending, hanswers⟩ := run_pending hops
  have hhistory := Fifo.history_run (cstFileEvtMax - 1) (q := []) (h := ⟨[], []⟩) ops rfl
  rw [← hpending, ← hanswers] at hhistory
  refine ⟨⟨hpending, hanswers⟩, hhistory, fun ev => pending_add ev, ?_, ?_⟩
  · intro ev hfull
    have hlt := (zeroed.after ops).waiting_lt
    refine ⟨?_, addFileEvent_full ev hfull⟩
    rw [length_pending] at hfull ⊢
    show (zeroed.after ops).waiting = cstFileEvtMax - 1
    omega
  · intro hnil
    exact removeFileEvent_unset
      ((zeroed.after ops).not_isSet_of_empty hinv (pending_eq_nil_iff.mp hnil))

/-- Twenty events that are added and done, and thirty-one that are added behind them. -/
def dailyEvents : List (Fifo.Op FileEvent) :=
  ((List.range 20).flatMap fun i => [.push ⟨0x200, UInt32.ofNat (4096 * i), 16⟩, .pop]) ++
    (List.range 31).map fun i => .push ⟨0x201, UInt32.ofNat (4096 * i), 16⟩

theorem dailyEvents_valid : ∀ op ∈ dailyEvents, Valid op := by
  intro op hop
  rcases List.mem_append.mp hop with hop | hop
  · obtain ⟨i, -, hop⟩ := List.mem_flatMap.mp hop
    simp only [List.mem_cons, List.not_mem_nil, or_false] at hop
    rcases hop with rfl | rfl
    · show (0x200 : UInt16) > cstFileInit ∧ (0x200 : UInt16) < cstFileEvtNone
      decide
    · trivial
  · obtain ⟨i, -, rfl⟩ := List.mem_map.mp hop
    show (0x201 : UInt16) > cstFileInit ∧ (0x201 : UInt16) < cstFileEvtNone
    decide

/-- The queue has wrapped, and one more event is dropped. -/
theorem fileEvents_fifo_daily :
    (zeroed.after dailyEvents).tail < (zeroed.after dailyEvents).head ∧
    (zeroed.after dailyEvents).pending.length = 31 ∧
    (zeroed.after dailyEvents).addFileEvent ⟨0x202, 0, 16⟩ = zeroed.after dailyEvents := by
  have hwrap : (zeroed.after dailyEvents).tail < (zeroed.after dailyEvents).head := by
    decide +kernel
  have hfull : ¬ (zeroed.after dailyEvents).pending.length < cstFileEvtMax - 1 := by
    decide +kernel
  obtain ⟨hlen, hsame⟩ := (fileEvents_fifo _ dailyEvents_valid).2.2.2.1 ⟨0x202, 0, 16⟩ hfull
  exact ⟨hwrap, hlen, hsame⟩

end ChargePoint
