import ChargePoint.Lib.Simulation
import ChargePoint.Lib.Spsc
import ChargePoint.Modbus
import ChargePoint.ReadQueue

/-!
# `ReadQueue` between its two threads

`RS485ReadTask` and `RS232ReadTask` fill a queue while `ValueMonitoringTask` and `UidAutoReadTask`
empty it, and nothing locks it. Here each assignment of `ReadQueueEnqueue` and `ReadQueueDequeue`
is a turn of its own, and the turns come in any order.

`ReadQueueEnqueue` counts `rear` up first and stores the byte then. `readQueue_threads` says what
this costs: a byte may be read before it is stored, and then it is the one from 64 bytes before.
Apart from that no byte is lost, doubled or out of place. For the meter the check sum makes up for
it as long as a response has one such byte (`meter_response_torn`).
-/

set_option autoImplicit false

namespace ChargePoint

open Trace
open Ami (readQueueSize)

/-! ## The turns

Where a thread stands inside its function, and the byte it has in hand, are part of the state.
The three assignments are the source's lines; what the threads read in their conditions is read
in the turn in which they test it. -/

namespace ReadQueue
variable (q : ReadQueue)

theorem rear_next_lt : (q.rear + 1) % readQueueSize < readQueueSize := next_lt q.rear

theorem front_next_lt : (q.front + 1) % readQueueSize < readQueueSize := next_lt q.front

/-- `q->rear = (q->rear+1) % READ_QUEUE_SIZE;` -/
def advanceRear : ReadQueue :=
  { q with rear := (q.rear + 1) % readQueueSize, rear_lt := q.rear_next_lt }

/-- `q->queue[q->rear] = c;` -/
def storeRear (c : UInt8) : ReadQueue := { q with queue := Function.update q.queue q.rear c }

/-- `q->front = (q->front+1) % READ_QUEUE_SIZE;` -/
def advanceFront : ReadQueue :=
  { q with front := (q.front + 1) % readQueueSize, front_lt := q.front_next_lt }

end ReadQueue

/-- Where `ReadQueueEnqueue` stands. -/
inductive Enqueuing
  | returned
  | advance (c : UInt8)
  | store (c : UInt8)

/-- Where `ReadQueueDequeue` stands. -/
inductive Dequeuing
  | returned
  | advance
  | read

/-- The queue and its two threads. -/
structure ReadThreads where
  q : ReadQueue
  enqueue : Enqueuing
  dequeue : Dequeuing

inductive ReadTurn
  /-- the thread that reads the line calls `ReadQueueEnqueue` with a byte -/
  | call (c : UInt8)
  /-- and goes on with it -/
  | line
  /-- the other thread calls `ReadQueueDequeue`, or goes on with it -/
  | task

namespace ReadThreads

/-- The byte that is read has not been stored yet. -/
def torn (t : ReadThreads) : Bool :=
  match t.enqueue with
  | .store _ => t.q.front == t.q.rear
  | .returned | .advance _ => false

/-- **One turn.** A thread is inside one call at a time. -/
def step (t : ReadThreads) : ReadTurn → Option (ReadThreads × List (Spsc.Obs UInt8))
  | .call c =>
    match t.enqueue with
    | .returned =>
      if t.q.isFull then some (t, [.refused c]) else some ({ t with enqueue := .advance c }, [])
    | .advance _ | .store _ => none
  | .line =>
    match t.enqueue with
    | .returned => some (t, [])
    | .advance c => some ({ t with q := t.q.advanceRear, enqueue := .store c }, [.accepted c])
    | .store c => some ({ t with q := t.q.storeRear c, enqueue := .returned }, [])
  | .task =>
    match t.dequeue with
    | .returned =>
      if t.q.isEmpty then some (t, [.empty]) else some ({ t with dequeue := .advance }, [])
    | .advance => some ({ t with q := t.q.advanceFront, dequeue := .read }, [])
    | .read => some ({ t with dequeue := .returned }, [.given (t.q.queue t.q.front) t.torn])

/-- Behind `ReadQueueInit`. -/
def start (q : ReadQueue) : ReadThreads := ⟨q.init, .returned, .returned⟩

/-! ## One thread alone -/

/-- **`ReadQueueEnqueue` without interruption** is the function. -/
theorem exec_enqueue (q : ReadQueue) (d : Dequeuing) (c : UInt8) :
    (exec step (fun _ _ _ => true) ⟨q, .returned, d⟩ [] [.call c, .line, .line]).map Prod.fst =
      some ⟨q.enqueue c, .returned, d⟩ := by
  cases hfull : q.isFull with
  | true => simp [exec, step, hfull, ReadQueue.enqueue]
  | false =>
    simp [exec, step, hfull, ReadQueue.enqueue, ReadQueue.advanceRear, ReadQueue.storeRear]

/-- **`ReadQueueDequeue` without interruption** is the function. -/
theorem exec_dequeue (q : ReadQueue) (e : Enqueuing) (h : q.isEmpty = false) :
    (exec step (fun _ _ _ => true) ⟨q, e, .returned⟩ [] [.task, .task, .task]).map Prod.fst =
      some ⟨q.dequeue.2, e, .returned⟩ := by
  simp [exec, step, h, ReadQueue.dequeue, ReadQueue.advanceFront]

/-! ## The ring underneath

The threads are the two of `Lib.Spsc`, with 64 places: each turn here is a turn there
(`step_ring`), and what is observed is the same. So the statements about the ring are statements
about the queue. -/

/-- The threads as those of a ring. -/
def ring (t : ReadThreads) : Spsc.State UInt8 where
  slot := t.q.queue
  rear := t.q.rear
  front := t.q.front
  putting := match t.enqueue with
    | .returned => .idle
    | .advance c => .move c
    | .store c => .store c
  taking := match t.dequeue with
    | .returned => .idle
    | .advance => .move
    | .read => .load

theorem ring_torn (t : ReadThreads) : t.ring.torn = t.torn := by
  cases henq : t.enqueue with
  | returned | advance c | store c => simp [Spsc.State.torn, Spsc.Putting.isStore, ring, torn, henq]

theorem ring_start (q : ReadQueue) : (start q).ring = .fresh q.queue := rfl

/-- **A turn of the threads is one of the ring.** -/
theorem step_ring {t t' : ReadThreads} {e : ReadTurn} {o : List (Spsc.Obs UInt8)}
    (h : t.step e = some (t', o)) : ∃ e', t.ring.step readQueueSize e' = some (t'.ring, o) := by
  -- turn by turn: where the function stands here is where the ring stands there
  cases e with
  | call c =>
    refine ⟨.put c, ?_⟩
    cases henq : t.enqueue with
    | returned =>
      have hput : t.ring.putting = .idle := by simp [ring, henq]
      simp only [step, henq] at h
      simp only [Spsc.State.step, hput]
      split at h
      · rename_i hfull
        cases h
        exact if_pos (of_decide_eq_true hfull)
      · rename_i hroom
        cases h
        exact if_neg fun heq => hroom (decide_eq_true heq)
    | advance b | store b =>
      simp only [step, henq] at h
      cases h
  | line =>
    refine ⟨.producer, ?_⟩
    cases henq : t.enqueue with
    | returned =>
      have hput : t.ring.putting = .idle := by simp [ring, henq]
      simp only [step, henq] at h
      cases h
      simp only [Spsc.State.step, hput]
    | advance c =>
      have hput : t.ring.putting = .move c := by simp [ring, henq]
      simp only [step, henq] at h
      cases h
      simp only [Spsc.State.step, hput]
      rfl
    | store c =>
      have hput : t.ring.putting = .store c := by simp [ring, henq]
      simp only [step, henq] at h
      cases h
      simp only [Spsc.State.step, hput]
      rfl
  | task =>
    refine ⟨.consumer, ?_⟩
    cases hdeq : t.dequeue with
    | returned =>
      have htake : t.ring.taking = .idle := by simp [ring, hdeq]
      simp only [step, hdeq] at h
      simp only [Spsc.State.step, htake]
      split at h
      · rename_i hempty
        cases h
        exact if_pos (of_decide_eq_true hempty)
      · rename_i hheld
        cases h
        exact if_neg fun heq => hheld (decide_eq_true heq)
    | advance =>
      have htake : t.ring.taking = .move := by simp [ring, hdeq]
      simp only [step, hdeq] at h
      cases h
      simp only [Spsc.State.step, htake]
      rfl
    | read =>
      have htake : t.ring.taking = .load := by simp [ring, hdeq]
      simp only [step, hdeq] at h
      cases h
      simp only [Spsc.State.step, htake, ring_torn]
      rfl

/-- A run of the threads is one of the ring. -/
theorem run_ring {q : ReadQueue} {t : ReadThreads} {log : List (Spsc.Obs UInt8)}
    (h : Always step (start q) t log) :
    Always (Spsc.State.step readQueueSize) (.fresh q.queue) t.ring log := by
  have hemb : Embeds step (Spsc.State.step readQueueSize) ring some := by
    intro t e t' o hstep
    obtain ⟨e', he'⟩ := step_ring hstep
    rw [List.filterMap_some]
    exact .one he'
  have hpart := h.part hemb
  rwa [ring_start, List.filterMap_some] at hpart

end ReadThreads

/-- **The two threads of a `ReadQueue`**, from `ReadQueueInit` on and in any order of their turns:
the `i`-th byte that is read is the `i`-th that was accepted, or, if it is read between the two
assignments of its own `ReadQueueEnqueue`, the one 64 places before it in what the array held and
then accepted. No more bytes are read than were accepted, no more than 64 are ahead, and a byte is
refused only when 63 are. -/
theorem readQueue_threads {q : ReadQueue} {t : ReadThreads} {log : List (Spsc.Obs UInt8)}
    (h : Always ReadThreads.step (.start q) t log) :
    Spsc.Due readQueueSize q.queue log ∧
    ((Spsc.given log).length ≤ (Spsc.accepted log).length ∧
      (Spsc.accepted log).length ≤ (Spsc.given log).length + readQueueSize) ∧
    Past (fun l ob => ∀ c, ob = .refused c →
      (Spsc.given l).length + readQueueSize ≤ (Spsc.accepted l).length + 1) log := by
  have hring := ReadThreads.run_ring h
  have hpos : 0 < readQueueSize := by decide
  exact ⟨Spsc.given_due hpos hring, Spsc.given_le hpos hring, Spsc.refused_full hpos hring⟩

theorem readQueueSize_pos : 0 < readQueueSize := by decide

/-- An array of zeros. -/
def ReadQueue.zeroed : ReadQueue := ⟨fun _ => 0, 0, 0, readQueueSize_pos, readQueueSize_pos⟩

/-- The bytes 1 to 64 come in and are read, and 65 is read between the two assignments. -/
def tornTurns : List ReadTurn :=
  ((List.range 64).flatMap fun i =>
    [.call (UInt8.ofNat (i + 1)), .line, .line, .task, .task, .task]) ++
  [.call 65, .line, .task, .task, .task, .line]

/-- What is read then is the first byte, which was read before. -/
theorem readQueue_threads_torn : ∃ t log, Always ReadThreads.step (.start .zeroed) t log ∧
    (Spsc.given log)[0]? = some (1, false) ∧ (Spsc.given log)[64]? = some (1, true) ∧
    (Spsc.accepted log)[64]? = some 65 ∧ Spsc.Due readQueueSize ReadQueue.zeroed.queue log := by
  let p : ReadThreads → List (Spsc.Obs UInt8) → Bool := fun _ log =>
    (Spsc.given log)[0]? == some (1, false) && (Spsc.given log)[64]? == some (1, true) &&
      (Spsc.accepted log)[64]? == some 65
  have hexec : (exec ReadThreads.step (fun _ _ _ => true) (.start .zeroed) [] tornTurns).any
      (fun r => p r.1 r.2) = true := by decide +kernel
  obtain ⟨t, log, h, hp⟩ := exists_reach_of_exec hexec
  have hrun : Always ReadThreads.step (.start .zeroed) t log := h.always
  simp only [p, Bool.and_eq_true, beq_iff_eq] at hp
  exact ⟨t, log, hrun, hp.1.1, hp.1.2, hp.2, (readQueue_threads hrun).1⟩

/-! ## The meter

A response that is read byte by byte may have torn bytes. If it has one at most it differs from
what was sent in one byte at most, and two texts with a right check sum do not differ in one
byte. -/

namespace Ami

/-- The check sum of a response is right. -/
def ResponseOk (responsex : List UInt8) : Prop :=
  responsex.length = mbrfSz ∧ crc16 (responsex.take (mbrfSz - 2)) = word responsex (mbrfSz - 2)

/-- The queue has this response for the next poll. -/
def State.holding (a : State) (responsex : List UInt8) : State :=
  { a with sWhmReadQueue := responsex }

section Response
variable {a : State} {responsex : List UInt8} {r : Reading}

theorem requestValueNew_success (h : (a.holding responsex).requestValueNew.2 = .success r) :
    ResponseOk responsex := by
  by_cases hsize : (responsex.take 200).length = mbrfSz
  · have hlen : responsex.length ≤ 200 := by
      have hshort : (responsex.take 200).length = 47 := hsize
      rw [List.length_take] at hshort
      omega
    have htake : responsex.take 200 = responsex := List.take_of_length_le hlen
    rw [htake] at hsize
    refine ⟨hsize, ?_⟩
    by_contra hcrc
    simp only [State.requestValueNew, State.holding, htake, if_pos hsize, if_neg hcrc] at h
    cases h
  · have hwrong : (a.holding responsex).requestValueNew =
        (a.holding (responsex.drop 200), .wrongSize (responsex.take 200).length) := if_neg hsize
    rw [hwrong] at h
    cases h

/-- A response of the right length whose check sum is wrong changes no value. -/
theorem requestValueNew_wrongCrc (hsize : responsex.length = mbrfSz) (h : ¬ ResponseOk responsex) :
    (a.holding responsex).requestValueNew =
      ({ a with sWhmReadQueue := [], sRs485Errors := 1 }, .wrongCrc) := by
  have hlen : responsex.length ≤ 200 := by
    rw [hsize]
    decide
  have htake : responsex.take 200 = responsex := List.take_of_length_le hlen
  have hdrop : responsex.drop 200 = [] := List.drop_of_length_le hlen
  have hcrc : ¬ crc16 (responsex.take (mbrfSz - 2)) = word responsex (mbrfSz - 2) :=
    fun heq => h ⟨hsize, heq⟩
  simp only [State.requestValueNew, State.holding, htake, hdrop, if_pos hsize, if_neg hcrc,
    Nat.zero_add]

/-- **A right response** is its registers with their check sum behind them. -/
theorem ResponseOk.eq_withCrc (h : ResponseOk responsex) :
    responsex = withCrc (responsex.take (mbrfSz - 2)) := by
  obtain ⟨hlen, hcrc⟩ := h
  have hsize : responsex.length = 47 := hlen
  have hlast : responsex.drop 45 = [responsex.getD 45 0, responsex.getD 46 0] := by
    rw [List.drop_eq_getElem_cons (by omega), List.drop_eq_getElem_cons (by omega),
      List.drop_of_length_le (by omega)]
    simp [List.getD, hsize]
  have hword : (tsctCrc16 (responsex.take 45)).toNat =
      (responsex.getD 45 0).toNat * 256 + (responsex.getD 46 0).toNat := by
    have hhi := (responsex.getD 45 0).toNat_lt
    have hlo := (responsex.getD 46 0).toNat_lt
    have heq : tsctCrc16 (responsex.take 45) = word responsex 45 := hcrc
    rw [heq, word, UInt16.toNat_add, UInt16.toNat_mul, UInt8.toNat_toUInt16, UInt8.toNat_toUInt16]
    show ((responsex.getD 45 0).toNat * 256 % 65536 + (responsex.getD 46 0).toNat) % 65536 = _
    omega
  rw [tsctCrc16_toNat] at hword
  have hbytes := tsctCrc16Loop_eq (responsex.take 45)
  generalize tsctCrc16Loop 0xFF 0xFF (responsex.take 45) = loop at hword hbytes
  have hhi := loop.1.toNat_lt
  have hlo := loop.2.toNat_lt
  have hhi' := (responsex.getD 45 0).toNat_lt
  have hlo' := (responsex.getD 46 0).toNat_lt
  have hfirst : loop.1 = responsex.getD 45 0 := UInt8.toNat_inj.mp (by omega)
  have hsecond : loop.2 = responsex.getD 46 0 := UInt8.toNat_inj.mp (by omega)
  rw [hfirst, hsecond, ← hlast] at hbytes
  show responsex = responsex.take 45 ++ crcBytes (responsex.take 45)
  rw [hbytes, List.take_append_drop]

/-- Two right responses that differ in at most one byte are the same. -/
theorem ResponseOk.unique {responsex' : List UInt8} {j : Nat} (h : ResponseOk responsex)
    (h' : ResponseOk responsex') (hsame : ∀ i, i ≠ j → responsex[i]? = responsex'[i]?) :
    responsex = responsex' := by
  have hlen : responsex.length = responsex'.length := h.1.trans h'.1.symm
  by_cases hj : j < responsex.length
  · have hsplit := List.take_append_drop j responsex
    have hsplit' := List.take_append_drop j responsex'
    have htake : responsex.take j = responsex'.take j := by
      apply List.ext_getElem?
      intro i
      by_cases hi : i < j
      · rw [List.getElem?_take_of_lt hi, List.getElem?_take_of_lt hi]
        exact hsame i (by omega)
      · rw [List.getElem?_take_eq_none (by omega), List.getElem?_take_eq_none (by omega)]
    have hdrop : responsex.drop (j + 1) = responsex'.drop (j + 1) := by
      apply List.ext_getElem?
      intro i
      rw [List.getElem?_drop, List.getElem?_drop]
      exact hsame (j + 1 + i) (by omega)
    rw [List.drop_eq_getElem_cons hj] at hsplit
    rw [List.drop_eq_getElem_cons (hlen ▸ hj), ← htake, ← hdrop] at hsplit'
    have hcrc : ∀ {l : List UInt8}, ResponseOk l → ChargePoint.crc16 l = 0 := by
      intro l hl
      rw [hl.eq_withCrc]
      exact crc16_withCrc _
    have heq : ChargePoint.crc16 (responsex.take j ++ responsex[j] :: responsex.drop (j + 1)) =
        ChargePoint.crc16 (responsex.take j ++ responsex'[j] :: responsex.drop (j + 1)) := by
      rw [hsplit, hsplit', hcrc h, hcrc h']
    unfold ChargePoint.crc16 at heq
    rw [List.map_append, List.map_append, List.map_cons, List.map_cons] at heq
    have hbyte := Crc.crc_byte_injective _ (by decide) (by decide) heq
    rw [← hsplit, ← hsplit', UInt8.toBitVec_inj.mp hbyte]
  · apply List.ext_getElem?
    intro i
    by_cases hi : i = j
    · rw [hi, List.getElem?_eq_none (by omega), List.getElem?_eq_none (by omega)]
    · exact hsame i hi

end Response

end Ami

/-- The bytes that are handed out in a part of a run. -/
def handedOut (m : List (Spsc.Obs UInt8)) : List UInt8 := (Spsc.given m).map Prod.fst

/-- The bytes that were accepted in their places, where `l` is the run before. -/
def acceptedFor (l m : List (Spsc.Obs UInt8)) : List UInt8 :=
  ((Spsc.accepted (l ++ m)).drop (Spsc.given l).length).take (Spsc.given m).length

theorem exists_place_of_countP_le_one {α : Type} {p : α → Bool} {l : List α} (h : l.countP p ≤ 1) :
    ∃ j, ∀ (i : Nat) (x : α), l[i]? = some x → p x = true → i = j := by
  induction l with
  | nil => exact ⟨0, fun i x hi => by simp at hi⟩
  | cons y l ih =>
    cases hy : p y with
    | true =>
      have hnone : l.countP p = 0 := by
        rw [List.countP_cons_of_pos hy] at h
        omega
      refine ⟨0, fun i x hi hx => ?_⟩
      cases i with
      | zero => rfl
      | succ i => exact absurd hx (List.countP_eq_zero.mp hnone x (List.mem_of_getElem? hi))
    | false =>
      rw [List.countP_cons_of_neg (by simp [hy])] at h
      obtain ⟨j, hj⟩ := ih h
      refine ⟨j + 1, fun i x hi hx => ?_⟩
      cases i with
      | zero =>
        simp only [List.getElem?_cons_zero, Option.some.injEq] at hi
        rw [hi, hx] at hy
        cases hy
      | succ i => rw [hj i x hi hx]

/-- What is read whole is what was accepted. -/
theorem handedOut_place {q : ReadQueue} {t : ReadThreads} {l m : List (Spsc.Obs UInt8)}
    (h : Always ReadThreads.step (.start q) t (l ++ m)) {i : Nat} {c : UInt8}
    (hi : (Spsc.given m)[i]? = some (c, false)) : (acceptedFor l m)[i]? = some c := by
  have hlt : i < (Spsc.given m).length := (List.getElem?_eq_some_iff.mp hi).1
  have hall : (Spsc.given (l ++ m))[(Spsc.given l).length + i]? = some (c, false) := by
    rw [Spsc.given_append, List.getElem?_append_right (by omega), Nat.add_sub_cancel_left]
    exact hi
  have hdue := Spsc.given_due (by decide) (ReadThreads.run_ring h) _ _ _ hall
  rw [if_neg (by decide), Spsc.entries_accepted] at hdue
  rw [acceptedFor, List.getElem?_take_of_lt hlt, List.getElem?_drop]
  exact hdue

theorem length_acceptedFor {q : ReadQueue} {t : ReadThreads} {l m : List (Spsc.Obs UInt8)}
    (h : Always ReadThreads.step (.start q) t (l ++ m)) :
    (acceptedFor l m).length = (handedOut m).length := by
  have hle := (Spsc.given_le (by decide) (ReadThreads.run_ring h)).1
  rw [Spsc.given_append, List.length_append] at hle
  simp only [acceptedFor, handedOut, List.length_take, List.length_drop, List.length_map]
  omega

/-- **A response with one torn byte is taken as it was sent or not at all.** In any run of the two
threads of the meter's queue, let `m` be a part in which a poll's bytes are handed out, at most one
of them torn, and let the bytes that were accepted in their places be a right response. Then the
poll comes to the same as with that response, or it finds the check sum wrong and changes no
value. -/
theorem meter_response_torn {q : ReadQueue} {t : ReadThreads} {l m : List (Spsc.Obs UInt8)}
    (h : Always ReadThreads.step (.start q) t (l ++ m))
    (hone : (Spsc.given m).countP Prod.snd ≤ 1) (a : Ami.State) {r : Ami.Reading}
    (hsent : (a.holding (acceptedFor l m)).requestValueNew.2 = .success r) :
    (a.holding (handedOut m)).requestValueNew = (a.holding (acceptedFor l m)).requestValueNew ∨
    (a.holding (handedOut m)).requestValueNew =
      ({ a with sWhmReadQueue := [], sRs485Errors := 1 }, .wrongCrc) := by
  have hok := Ami.requestValueNew_success hsent
  have hlen := length_acceptedFor h
  by_cases hread : Ami.ResponseOk (handedOut m)
  · left
    obtain ⟨j, hj⟩ := exists_place_of_countP_le_one hone
    have hsame : handedOut m = acceptedFor l m := by
      refine hread.unique (j := j) hok fun i hi => ?_
      cases hget : (Spsc.given m)[i]? with
      | none =>
        have hout : (handedOut m).length ≤ i := by
          rw [handedOut, List.length_map]
          exact List.getElem?_eq_none_iff.mp hget
        rw [List.getElem?_eq_none hout, List.getElem?_eq_none (by omega)]
      | some x =>
        have hwhole : x.2 = false := by
          by_contra htorn
          exact hi (hj i x hget (by simpa using htorn))
        have hx : (Spsc.given m)[i]? = some (x.1, false) := by rw [hget, ← hwhole]
        rw [handedOut_place h hx, handedOut, List.getElem?_map, hget]
        rfl
    rw [hsame]
  · right
    exact Ami.requestValueNew_wrongCrc (hlen ▸ hok.1) hread

/-- A response comes in, and its last byte is read between the two assignments. -/
def tornResponse : List ReadTurn :=
  (Ami.goodResponse.flatMap fun c => [.call c, .line, .line]).dropLast ++
    (List.replicate 47 [.task, .task, .task]).flatten

theorem meter_response_torn_last : ∃ t m, Always ReadThreads.step (.start .zeroed) t ([] ++ m) ∧
    handedOut m ≠ acceptedFor [] m ∧
    ((Ami.State.init.holding (handedOut m)).requestValueNew =
        (Ami.State.init.holding (acceptedFor [] m)).requestValueNew ∨
      (Ami.State.init.holding (handedOut m)).requestValueNew =
        ({ Ami.State.init with sWhmReadQueue := [], sRs485Errors := 1 }, .wrongCrc)) := by
  let p : ReadThreads → List (Spsc.Obs UInt8) → Bool := fun _ m =>
    (Spsc.given m).countP Prod.snd == 1 && acceptedFor [] m == Ami.goodResponse &&
      handedOut m != Ami.goodResponse
  have hexec : (exec ReadThreads.step (fun _ _ _ => true) (.start .zeroed) [] tornResponse).any
      (fun r => p r.1 r.2) = true := by decide +kernel
  obtain ⟨t, m, h, hp⟩ := exists_reach_of_exec hexec
  simp only [p, Bool.and_eq_true, beq_iff_eq, bne_iff_ne] at hp
  obtain ⟨⟨hone, hsent⟩, htorn⟩ := hp
  have hrun : Always ReadThreads.step (.start .zeroed) t ([] ++ m) := h.always
  have hgood : (Ami.State.init.holding Ami.goodResponse).requestValueNew.2 =
      .success (Ami.readingOf Ami.goodResponse) := by decide +kernel
  refine ⟨t, m, hrun, hsent ▸ htorn, ?_⟩
  exact meter_response_torn hrun (by omega) .init (hsent ▸ hgood)

end ChargePoint
