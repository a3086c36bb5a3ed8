import ChargePoint.Ami.Meter
import ChargePoint.Lib.Ring

/-!
# `ReadQueue`

The ring between a thread that reads a serial line and the task that looks at what came in. Both
indices move before they are used, so the entries stand from behind `front` up to `rear`, and the
place `front` itself names is the one that stays free.
-/

set_option autoImplicit false

namespace ChargePoint

open Ami (readQueueSize)

/-- `ReadQueue`. Nothing writes an index that is not below `READ_QUEUE_SIZE`, so no access is
outside the array. -/
structure ReadQueue where
  queue : Nat → UInt8
  rear : Nat
  front : Nat
  rear_lt : rear < readQueueSize
  front_lt : front < readQueueSize

theorem next_lt (i : Nat) : (i + 1) % readQueueSize < readQueueSize := Nat.mod_lt _ (by decide)

namespace ReadQueue
variable (q : ReadQueue)

/-- `ReadQueueInit`. -/
def init : ReadQueue := { q with front := 0, rear := 0, rear_lt := by decide, front_lt := by decide }

/-- `ReadQueueIsEmpty`. -/
def isEmpty : Bool := q.front = q.rear

/-- `ReadQueueIsFull`. -/
def isFull : Bool := (q.rear + 1) % readQueueSize = q.front

/-- **`ReadQueueEnqueue`.** -/
def enqueue (c : UInt8) : ReadQueue :=
  if q.isFull then q
  else { q with rear := (q.rear + 1) % readQueueSize
                queue := Function.update q.queue ((q.rear + 1) % readQueueSize) c
                rear_lt := next_lt q.rear }

/-- **`ReadQueueDequeue`**: the byte it returns, and the queue it leaves. -/
def dequeue : UInt8 × ReadQueue :=
  if q.isEmpty then (0, q)
  else (q.queue ((q.front + 1) % readQueueSize),
    { q with front := (q.front + 1) % readQueueSize, front_lt := next_lt q.front })

/-- `GetQueueDataNum`. -/
def getQueueDataNum : Int :=
  let nSize : Int := q.rear - q.front
  if nSize < 0 then nSize + readQueueSize else nSize

/-- The operations, and what they come to: an `Enqueue` is accepted unless the queue was full, and a
`Dequeue` hands out a byte unless it was empty. -/
def step : Fifo.Op UInt8 → ReadQueue × Fifo.Out UInt8
  | .clear => (q.init, .cleared)
  | .push c => (q.enqueue c, .pushed !q.isFull)
  | .pop => (q.dequeue.2, .popped (if q.isEmpty then none else some q.dequeue.1))

/-- Some operations. -/
def after (ops : List (Fifo.Op UInt8)) : ReadQueue := (Machine.run step q ops).1

/-- What they came to. -/
def answers (ops : List (Fifo.Op UInt8)) : List (Fifo.Out UInt8) := (Machine.run step q ops).2

/-! ## What it holds -/

/-- The bytes in the queue, the oldest first. -/
def held : List UInt8 :=
  Ring.window q.queue readQueueSize (q.front + 1) (Ring.steps readQueueSize q.front q.rear)

theorem length_held : q.held.length = Ring.steps readQueueSize q.front q.rear := Ring.length_window

theorem isEmpty_iff : q.isEmpty = true ↔ q.held.length = 0 := by
  rw [length_held, Ring.steps_eq_zero q.front_lt, isEmpty, decide_eq_true_eq]

theorem isFull_iff : q.isFull = true ↔ q.held.length = readQueueSize - 1 := by
  rw [length_held, ← Ring.succ_mod_eq q.front_lt q.rear_lt, isFull, decide_eq_true_eq]

theorem length_held_le : q.held.length ≤ readQueueSize - 1 := by
  have hlt := Ring.steps_lt q.front_lt q.rear_lt
  rw [length_held]
  omega

/-- `GetQueueDataNum` counts the bytes. -/
theorem getQueueDataNum_eq : q.getQueueDataNum = q.held.length := by
  have hfront := q.front_lt
  have hrear := q.rear_lt
  rw [length_held]
  show (if (q.rear - q.front : Int) < 0 then (q.rear - q.front : Int) + readQueueSize
    else (q.rear - q.front : Int)) = Ring.steps readQueueSize q.front q.rear
  unfold Ring.steps
  split <;> split <;> omega

theorem held_init : q.init.held = [] := rfl

section Push
variable {q} (c : UInt8)

theorem enqueue_full (h : ¬ q.held.length < readQueueSize - 1) : q.enqueue c = q := by
  have hle := q.length_held_le
  exact if_pos (q.isFull_iff.mpr (by omega))

/-- What is accepted goes to the end. -/
theorem held_enqueue (h : q.held.length < readQueueSize - 1) :
    (q.enqueue c).held = q.held ++ [c] := by
  have hroom : Ring.steps readQueueSize q.front q.rear ≠ readQueueSize - 1 := by
    rw [← length_held]
    omega
  have hnot : ¬ q.isFull = true := fun hfull => hroom (q.length_held ▸ q.isFull_iff.mp hfull)
  have hplace : (q.front + 1 + Ring.steps readQueueSize q.front q.rear) % readQueueSize =
      (q.rear + 1) % readQueueSize := by
    have hend := Ring.add_steps q.front_lt q.rear_lt
    rw [Nat.add_right_comm, ← Nat.mod_add_mod, hend]
  have hpush : Ring.window (Function.update q.queue _ c) readQueueSize (q.front + 1) _ = _ :=
    Ring.window_push (Ring.steps_lt q.front_lt q.rear_lt) c
  rw [hplace, ← Ring.steps_succ q.front_lt q.rear_lt hroom] at hpush
  unfold enqueue
  rw [if_neg hnot]
  exact hpush

end Push

/-- The oldest byte is the one that leaves. -/
theorem held_dequeue (h : q.isEmpty = false) : q.held = q.dequeue.1 :: q.dequeue.2.held := by
  have hne : q.front ≠ q.rear := of_decide_eq_false h
  have hdequeue : q.dequeue = (q.queue ((q.front + 1) % readQueueSize),
      { q with front := (q.front + 1) % readQueueSize, front_lt := next_lt q.front }) := by
    unfold dequeue
    rw [h]
    rfl
  calc q.held = Ring.window q.queue readQueueSize (q.front + 1)
        (Ring.steps readQueueSize ((q.front + 1) % readQueueSize) q.rear + 1) := by
        rw [Ring.succ_steps q.front_lt q.rear_lt hne]
        rfl
    _ = q.dequeue.1 :: q.dequeue.2.held := by
        rw [Ring.window_cons, ← Ring.window_mod_succ, hdequeue]
        rfl

theorem dequeue_empty (h : q.isEmpty = true) : q.dequeue = (0, q) := if_pos h

/-! ## Runs -/

/-- **One operation** of the ring is one of the queue. -/
theorem step_held (op : Fifo.Op UInt8) :
    (q.step op).1.held = (Fifo.step (readQueueSize - 1) q.held op).1 ∧
      (q.step op).2 = (Fifo.step (readQueueSize - 1) q.held op).2 := by
  cases op with
  | clear => exact ⟨q.held_init, rfl⟩
  | push c =>
    by_cases hroom : q.held.length < readQueueSize - 1
    · have hnot : q.isFull = false := by
        rw [Bool.eq_false_iff]
        intro hfull
        have hlen := q.isFull_iff.mp hfull
        omega
      rw [Fifo.step_push_room c hroom]
      refine ⟨held_enqueue c hroom, ?_⟩
      show Fifo.Out.pushed (!q.isFull) = .pushed true
      rw [hnot]
      rfl
    · have hfull : q.isFull = true := by
        have hle := q.length_held_le
        exact q.isFull_iff.mpr (by omega)
      rw [Fifo.step_push_full c hroom]
      refine ⟨congrArg held (enqueue_full c hroom), ?_⟩
      show Fifo.Out.pushed (!q.isFull) = .pushed false
      rw [hfull]
      rfl
  | pop =>
    show q.dequeue.2.held = q.held.tail ∧
      Fifo.Out.popped (if q.isEmpty then none else some q.dequeue.1) = .popped q.held.head?
    cases hempty : q.isEmpty with
    | true =>
      have hnil : q.held = [] := List.length_eq_zero_iff.mp (q.isEmpty_iff.mp hempty)
      rw [q.dequeue_empty hempty, hnil]
      exact ⟨rfl, rfl⟩
    | false =>
      rw [q.held_dequeue hempty]
      exact ⟨rfl, rfl⟩

/-- **Any sequence of operations.** -/
theorem run_held (ops : List (Fifo.Op UInt8)) :
    (q.after ops).held = (Machine.run (Fifo.step (readQueueSize - 1)) q.held ops).1 ∧
      q.answers ops = (Machine.run (Fifo.step (readQueueSize - 1)) q.held ops).2 :=
  (Machine.run_simulates held (fun _ => True) (fun _ => True)
    (fun q op _ _ => ⟨trivial, q.step_held op⟩) trivial fun _ _ => trivial).2

/-- The list that the meter's tasks are modelled with is this queue. -/
theorem held_enqueue_ami (c : UInt8) : (q.enqueue c).held = Ami.readQueueEnqueue q.held c := by
  have hle := q.length_held_le
  have hpos : 0 < readQueueSize := by decide
  unfold Ami.readQueueEnqueue
  split
  · have hfull : ¬ q.held.length < readQueueSize - 1 := by omega
    rw [enqueue_full c hfull]
  · have hroom : q.held.length < readQueueSize - 1 := by omega
    exact held_enqueue c hroom

end ReadQueue

/-- **`ReadQueue` is a bounded queue.** After any operations on any queue it holds what a queue of
`READ_QUEUE_SIZE - 1` bytes would hold and has answered as that would: since the last `Init`, what
was accepted is what was handed out and, behind it, what is still held. A byte is accepted unless
as many as that are held already, and then the queue stays as it is; the functions that count agree
on how many there are. -/
theorem readQueue_fifo (q : ReadQueue) (ops : List (Fifo.Op UInt8)) :
    ((q.after ops).held = (Machine.run (Fifo.step (Ami.readQueueSize - 1)) q.held ops).1 ∧
      q.answers ops = (Machine.run (Fifo.step (Ami.readQueueSize - 1)) q.held ops).2) ∧
    ((Fifo.History.mk q.held []).after ops (q.answers ops)).accepted =
      ((Fifo.History.mk q.held []).after ops (q.answers ops)).given ++ (q.after ops).held ∧
    (∀ c, (q.after ops).held.length < Ami.readQueueSize - 1 →
      ((q.after ops).enqueue c).held = (q.after ops).held ++ [c]) ∧
    (∀ c, ¬ (q.after ops).held.length < Ami.readQueueSize - 1 →
      (q.after ops).enqueue c = q.after ops) ∧
    ((q.after ops).isEmpty = true ↔ (q.after ops).held.length = 0) ∧
    ((q.after ops).isFull = true ↔ (q.after ops).held.length = Ami.readQueueSize - 1) ∧
    (q.after ops).getQueueDataNum = (q.after ops).held.length := by
  have hrun := q.run_held ops
  have hhistory := Fifo.history_run (Ami.readQueueSize - 1) (q := q.held) (h := ⟨q.held, []⟩) ops rfl
  rw [← hrun.1, ← hrun.2] at hhistory
  exact ⟨hrun, hhistory, fun c => ReadQueue.held_enqueue c, fun c => ReadQueue.enqueue_full c,
    ReadQueue.isEmpty_iff _, ReadQueue.isFull_iff _, ReadQueue.getQueueDataNum_eq _⟩

end ChargePoint
