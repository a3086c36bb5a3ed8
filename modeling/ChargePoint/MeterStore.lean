import Mathlib.Data.List.Induction
import ChargePoint.MeterSamples

/-!
# The meter queue over whole runs

`MeterSamples` shows that `Add_MeterVal_Q` pushes and `Reset_MeterVal_Q` empties. Here the two
are run in any order, with anything between them that leaves the queue alone, and two questions
are asked of such a run: do the entries say what was measured, and does the energy add up?

Both have the same answer. Up to five samples since the last reset: yes. The sixth finds the
queue full, and the branch for that case stores the header of the sample in entry 4 and its
values behind the array, while the last reading moves on.
-/

set_option autoImplicit false

namespace ChargePoint

/-! ## Runs of the queue

A run is a list of operations: a sample, a reset, a start request, or anything else, which may
change every part of the charger but the queue and the last reading. Beside the queue goes the
list of the samples since the last reset, each as its call measured it (`sampleOf`). Which
entries an operation reads or writes is said separately (`touches`), for that is where a sixth
sample shows. -/

/-- The type of a sample. 0 marks a free entry. -/
abbrev SampleType := {n : Nat // n ≠ 0}

inductive QueueOp
  | add (k : SampleClock) (ty : SampleType)
  | reset
  /-- A start request captures the reading. -/
  | start
  /-- Anything else: the queue and the last reading stay. -/
  | other (d : Charger)

/-- A start request, as far as the queue is concerned. -/
def captureStart (c : Charger) : Charger :=
  { c with startTsQ := { c.startTsQ with meterStartVal := c.scene.eqpWatt } }

def QueueOp.apply (c : Charger) : QueueOp → Charger
  | .add k ty => addMeterValQ c k ty
  | .reset => resetMeterValQ c
  | .start => captureStart c
  | .other d => { d with
      meterQ := c.meterQ
      startTsQ := { d.startTsQ with meterStartVal := c.startTsQ.meterStartVal } }

/-- The entries that are read or written: the search looks at one entry after the other up to the
first free one, which is then written; a full queue is moved down and written behind its end. -/
def QueueOp.touches (q : Nat → MeterVal) : QueueOp → List Nat
  | .add _ _ => List.range (qno q + 1)
  | .reset => List.range (min (qno q + 1) maxQnoMeterVal)
  | .start | .other _ => []

/-- What is not touched stays. -/
theorem QueueOp.apply_frame (op : QueueOp) (c : Charger) {i : Nat} (hi : i ∉ op.touches c.meterQ) :
    (op.apply c).meterQ i = c.meterQ i := by
  cases op with
  | add k ty =>
    have hgt : qno c.meterQ < i := by
      simp only [touches, List.mem_range, not_lt] at hi
      omega
    rcases Nat.lt_or_eq_of_le (qno_le c.meterQ) with hfree | hfull
    · show (addMeterValQ c k ty).meterQ i = _
      rw [addMeterValQ_free hfree, if_neg (by omega)]
    · show (addMeterValQ c k ty).meterQ i = _
      unfold addMeterValQ
      dsimp only
      rw [if_pos hfull, if_neg (by omega), if_neg (by omega), if_neg (by omega)]
  | reset =>
    have hge : qno c.meterQ ≤ i := by
      simp only [touches, List.mem_range, not_lt] at hi
      have hle := qno_le c.meterQ
      omega
    show (resetMeterValQ c).meterQ i = _
    unfold resetMeterValQ
    dsimp only
    rw [if_neg (by omega)]
  | start => rfl
  | other d => rfl

/-- The samples since the last reset, oldest first. -/
def QueueOp.record (c : Charger) (since : List MeterVal) : QueueOp → List MeterVal
  | .add k ty => since ++ [sampleOf c k ty]
  | .reset => []
  | .start | .other _ => since

def QueueOp.step (s : Charger × List MeterVal) (op : QueueOp) : Charger × List MeterVal :=
  (op.apply s.1, op.record s.1 s.2)

/-- The queue after a run from the start of the program, and the samples it should hold. -/
def queueRun (st : UInt32) (ops : List QueueOp) : Charger × List MeterVal :=
  ops.foldl QueueOp.step (.init st, [])

theorem queueRun_concat (st : UInt32) (ops : List QueueOp) (op : QueueOp) :
    queueRun st (ops ++ [op]) = op.step (queueRun st ops) := by
  unfold queueRun
  rw [List.foldl_concat]

/-- How many samples were taken since the last reset. -/
def sinceReset (ops : List QueueOp) : Nat :=
  ops.foldl (fun n op => match op with
    | .add _ _ => n + 1
    | .reset => 0
    | .start | .other _ => n) 0

theorem sinceReset_concat (ops : List QueueOp) (op : QueueOp) :
    sinceReset (ops ++ [op]) = match op with
      | .add _ _ => sinceReset ops + 1
      | .reset => 0
      | .start | .other _ => sinceReset ops := by
  unfold sinceReset
  rw [List.foldl_concat]

theorem queueRun_length (st : UInt32) (ops : List QueueOp) :
    (queueRun st ops).2.length = sinceReset ops := by
  induction ops using List.reverseRecOn with
  | nil => rfl
  | append_singleton ops op ih =>
    rw [queueRun_concat, sinceReset_concat]
    cases op with
    | add k ty =>
      show (_ ++ [_]).length = _
      rw [List.length_append, ih, List.length_singleton]
    | reset => rfl
    | start => exact ih
    | other d => exact ih

/-! ## What the entries say

`QueueHolds` compares the two: the entries in use are the last five of the list. As long as a
sample finds a free entry, a step keeps that and stays within the array. The sixth touches
`MeterValQ[5]`, so `meter_queue_iff` cannot let one in. -/

/-- The entries in use come first, and are the last five samples since the last reset, each as
its call measured it. -/
structure QueueHolds (c : Charger) (since : List MeterVal) : Prop where
  packed : Packed c.meterQ
  recent : queued c.meterQ = since.drop (since.length - maxQnoMeterVal)

/-- The step keeps the queue, and stays within it. -/
structure StepHolds (s : Charger × List MeterVal) (op : QueueOp) : Prop where
  holds : QueueHolds (op.step s).1 (op.step s).2
  within : ∀ i ∈ op.touches s.1.meterQ, i < maxQnoMeterVal

theorem QueueHolds.qno_eq {c : Charger} {since : List MeterVal} (h : QueueHolds c since) :
    qno c.meterQ = min since.length maxQnoMeterVal := by
  have hlen := congrArg List.length h.recent
  rw [queued_length, List.length_drop] at hlen
  omega

/-- With a free entry every step keeps the queue. -/
theorem stepHolds_of_free {s : Charger × List MeterVal} {op : QueueOp} (h : QueueHolds s.1 s.2)
    (hfree : ∀ k ty, op = .add k ty → s.2.length < maxQnoMeterVal)
    (hle : s.2.length ≤ maxQnoMeterVal) : StepHolds s op := by
  have hqno := h.qno_eq
  have hall : queued s.1.meterQ = s.2 := by
    rw [h.recent, Nat.sub_eq_zero_of_le hle, List.drop_zero]
  cases op with
  | add k ty =>
    have hlen := hfree k ty rfl
    have hq : qno s.1.meterQ < maxQnoMeterVal := by omega
    refine ⟨⟨packed_add h.packed ty.2, ?_⟩, ?_⟩
    · show queued (addMeterValQ s.1 k ty).meterQ = (s.2 ++ [sampleOf s.1 k ty]).drop _
      rw [queued_add h.packed ty.2, hall, added_free hq]
      unfold DropQueue.push
      rw [if_pos hlen]
      show _ = (s.2 ++ [sampleOf s.1 k ty]).drop ((s.2 ++ [sampleOf s.1 k ty]).length - maxQnoMeterVal)
      rw [List.length_append, List.length_singleton, Nat.sub_eq_zero_of_le hlen, List.drop_zero]
    · intro i hi
      have hlt := List.mem_range.mp hi
      omega
  | reset =>
    refine ⟨⟨packed_reset h.packed, queued_reset s.1⟩, ?_⟩
    intro i hi
    have hlt := List.mem_range.mp hi
    omega
  | start => exact ⟨⟨h.packed, h.recent⟩, fun i hi => absurd hi List.not_mem_nil⟩
  | other d => exact ⟨⟨h.packed, h.recent⟩, fun i hi => absurd hi List.not_mem_nil⟩

theorem queueHolds_init (st : UInt32) : QueueHolds (queueRun st []).1 (queueRun st []).2 :=
  ⟨fun _ _ _ => rfl, rfl⟩

/-- **The queue is what it should be** in exactly the runs that never take a sixth sample between
resets. -/
theorem meter_queue_iff (st : UInt32) (ops : List QueueOp) :
    (∀ pre op post, ops = pre ++ op :: post → StepHolds (queueRun st pre) op) ↔
      ∀ pre, pre <+: ops → sinceReset pre ≤ maxQnoMeterVal := by
  constructor
  · intro hall pre hpre
    induction pre using List.reverseRecOn with
    | nil => exact Nat.zero_le _
    | append_singleton pre op ih =>
      obtain ⟨post, hops⟩ := hpre
      rw [List.append_assoc, List.singleton_append] at hops
      have hle := ih ⟨op :: post, hops⟩
      rw [sinceReset_concat]
      cases op with
      | add k ty =>
        show sinceReset pre + 1 ≤ maxQnoMeterVal
        by_contra hmany
        -- the queue is full and holds, so the sample is written behind it
        have hfive : (queueRun st pre).2.length = maxQnoMeterVal := by
          rw [queueRun_length]
          omega
        have hholds : QueueHolds (queueRun st pre).1 (queueRun st pre).2 := by
          rcases List.eq_nil_or_concat pre with rfl | ⟨pre', last, rfl⟩
          · exact queueHolds_init st
          · have hops' : ops = pre' ++ last :: (.add k ty :: post) := by
              rw [← hops]
              simp
            rw [List.concat_eq_append, queueRun_concat]
            exact (hall pre' last _ hops').holds
        have hqno := hholds.qno_eq
        rw [hfive, Nat.min_self] at hqno
        have hmem : maxQnoMeterVal ∈ (QueueOp.add k ty).touches (queueRun st pre).1.meterQ :=
          List.mem_range.mpr (by omega)
        exact absurd ((hall pre _ post hops.symm).within _ hmem) (Nat.lt_irrefl _)
      | reset => exact Nat.zero_le _
      | start => exact hle
      | other d => exact hle
  · intro hfew pre op post hops
    have hstep : ∀ pre op, pre ++ [op] <+: ops → QueueHolds (queueRun st pre).1 (queueRun st pre).2 →
        StepHolds (queueRun st pre) op := by
      intro pre op hp hholds
      have hnow := hfew _ hp
      have hbefore := hfew pre ((List.prefix_append pre [op]).trans hp)
      refine stepHolds_of_free hholds (fun k ty he => ?_) (by rw [queueRun_length]; exact hbefore)
      subst he
      rw [sinceReset_concat] at hnow
      rw [queueRun_length]
      exact hnow
    have hholds : ∀ pre, pre <+: ops → QueueHolds (queueRun st pre).1 (queueRun st pre).2 := by
      intro pre hp
      induction pre using List.reverseRecOn with
      | nil => exact queueHolds_init st
      | append_singleton pre op ih =>
        have hprev := ih ((List.prefix_append pre [op]).trans hp)
        rw [queueRun_concat]
        exact (hstep pre op hp hprev).holds
    have hin : pre ++ [op] <+: ops := ⟨post, by rw [hops]; simp⟩
    exact hstep pre op hin (hholds pre ((List.prefix_append pre [op]).trans hin))

/-- A clock sample. -/
def sampleOp : QueueOp := .add ⟨0, ⟨124, 0, 1, 0, 0, 0⟩⟩ ⟨meterValClockType, by decide⟩

/-- The meter and the wires, as a sample finds them. -/
def meterAt (watt : UInt32) (amps : UInt16) : QueueOp :=
  .other { Charger.init 0 with scene :=
    { (Charger.init 0).scene with eqpWatt := watt, amiCurrent := amps } }

/-- The sixth sample is taken at 5 A and stands in the queue with the 3 A of the fifth. -/
theorem meter_queue_mixed :
    ¬ ∀ pre op post, [meterAt 10 300, sampleOp, sampleOp, sampleOp, sampleOp, sampleOp,
        meterAt 20 500, sampleOp] = pre ++ op :: post → StepHolds (queueRun 0 pre) op := by
  intro hall
  have hlast := (hall [meterAt 10 300, sampleOp, sampleOp, sampleOp, sampleOp, sampleOp,
    meterAt 20 500] sampleOp [] rfl).holds.recent
  have hcurrent := congrArg (fun l => l.getLast?.map MeterVal.current) hlast
  have hstored : ((queued (sampleOp.step (queueRun 0 [meterAt 10 300, sampleOp, sampleOp, sampleOp,
      sampleOp, sampleOp, meterAt 20 500])).1.meterQ).getLast?.map MeterVal.current) = some 300 := by
    decide +kernel
  have htaken : (((sampleOp.step (queueRun 0 [meterAt 10 300, sampleOp, sampleOp, sampleOp,
      sampleOp, sampleOp, meterAt 20 500])).2.drop 1).getLast?.map MeterVal.current) = some 500 := by
    decide +kernel
  exact absurd (hstored.symm.trans (hcurrent.trans htaken)) (by decide)

/-! ## The energy

A sample counts from the reading before it, and the last reading moves with every sample, also
with one whose values go behind the array. What such a sample measured is then in no entry, and
the next one is counted from there. `storedSum_spec` goes by induction over the rest of the run. -/

/-- What a sample shows of the energy, as it stands in the queue. -/
theorem added_sampledVal (c : Charger) (k : SampleClock) (ty : Nat) : (added c k ty).sampledVal =
    if qno c.meterQ = maxQnoMeterVal then 0 else c.scene.eqpWatt - c.startTsQ.meterStartVal := by
  split
  · rename_i hfull
    unfold added
    rw [hfull, addMeterValQ_full hfull (by decide), if_neg (by decide)]
    rfl
  · rename_i hfree
    have hlt : qno c.meterQ < maxQnoMeterVal := lt_of_le_of_ne (qno_le _) hfree
    rw [added_free hlt]
    rfl

/-- The energy the samples of a run show, each as it stands in the queue after its call. -/
def storedSum : Charger → List QueueOp → Nat
  | _, [] => 0
  | c, op :: ops =>
    (match op with
      | .add k ty => (added c k ty).sampledVal.toNat
      | .reset | .start | .other _ => 0) + storedSum (op.apply c) ops

/-- The readings they were taken at. -/
def readings : Charger → List QueueOp → List UInt32
  | _, [] => []
  | c, op :: ops =>
    (match op with
      | .add _ _ => [c.scene.eqpWatt]
      | .reset | .start | .other _ => []) ++ readings (op.apply c) ops

/-- A sample that finds the queue full measures no energy. -/
def StillWhenFull : Charger → List QueueOp → Prop
  | _, [] => True
  | c, op :: ops =>
    (∀ k ty, op = .add k ty → qno c.meterQ = maxQnoMeterVal →
      c.scene.eqpWatt = c.startTsQ.meterStartVal) ∧ StillWhenFull (op.apply c) ops

/-- The sum over a run, from any point of the session on: it is never more than what was measured,
and no less if and only if the full queue was met standing still. -/
theorem storedSum_spec {c : Charger} {ops : List QueueOp} (hs : ∀ op ∈ ops, op ≠ .start)
    (hm : (c.startTsQ.meterStartVal :: readings c ops).IsChain (· ≤ ·)) :
    storedSum c ops + c.startTsQ.meterStartVal.toNat ≤
        ((readings c ops).getLastD c.startTsQ.meterStartVal).toNat ∧
      (storedSum c ops + c.startTsQ.meterStartVal.toNat =
        ((readings c ops).getLastD c.startTsQ.meterStartVal).toNat ↔ StillWhenFull c ops) := by
  induction ops generalizing c with
  | nil => exact ⟨Nat.le_of_eq (Nat.zero_add _), iff_of_true (Nat.zero_add _) trivial⟩
  | cons op ops ih =>
    have hop := hs op List.mem_cons_self
    have hrest : ∀ op ∈ ops, op ≠ .start := fun op h => hs op (List.mem_cons_of_mem _ h)
    -- an operation that takes no sample
    have hskip : (op.apply c).startTsQ.meterStartVal = c.startTsQ.meterStartVal →
        storedSum c (op :: ops) = storedSum (op.apply c) ops →
        readings c (op :: ops) = readings (op.apply c) ops →
        (StillWhenFull c (op :: ops) ↔ StillWhenFull (op.apply c) ops) →
        storedSum c (op :: ops) + c.startTsQ.meterStartVal.toNat ≤
            ((readings c (op :: ops)).getLastD c.startTsQ.meterStartVal).toNat ∧
          (storedSum c (op :: ops) + c.startTsQ.meterStartVal.toNat =
            ((readings c (op :: ops)).getLastD c.startTsQ.meterStartVal).toNat ↔
              StillWhenFull c (op :: ops)) := by
      intro hkept hsum hread hstill
      rw [hread, ← hkept] at hm
      rw [hsum, hread, hstill, ← hkept]
      exact ih hrest hm
    cases op with
    | add k ty =>
      have hread : readings c (.add k ty :: ops) =
          c.scene.eqpWatt :: readings ((QueueOp.add k ty).apply c) ops := rfl
      rw [hread, List.isChain_cons_cons] at hm
      obtain ⟨hle, hchain⟩ := hm
      have hmoved : ((QueueOp.add k ty).apply c).startTsQ.meterStartVal = c.scene.eqpWatt := rfl
      obtain ⟨hmost, hiff⟩ := ih hrest (by rw [hmoved]; exact hchain)
      rw [hmoved] at hmost hiff
      rw [hread, List.getLastD_cons]
      have hsum : storedSum c (.add k ty :: ops) = (added c k ty).sampledVal.toNat +
          storedSum ((QueueOp.add k ty).apply c) ops := rfl
      rw [hsum, added_sampledVal]
      have hnat : c.startTsQ.meterStartVal.toNat ≤ c.scene.eqpWatt.toNat := hle
      rcases Nat.lt_or_eq_of_le (qno_le c.meterQ) with hfree | hfull
      · rw [if_neg (Nat.ne_of_lt hfree), UInt32.toNat_sub_of_le _ _ hle]
        have hstill : StillWhenFull c (.add k ty :: ops) ↔
            StillWhenFull ((QueueOp.add k ty).apply c) ops :=
          and_iff_right fun _ _ _ hfull => absurd hfull (Nat.ne_of_lt hfree)
        rw [hstill, ← hiff]
        omega
      · rw [if_pos hfull, UInt32.toNat_zero, Nat.zero_add]
        have hstill : StillWhenFull c (.add k ty :: ops) ↔
            c.scene.eqpWatt = c.startTsQ.meterStartVal ∧
              StillWhenFull ((QueueOp.add k ty).apply c) ops :=
          and_congr_left' ⟨fun h => h k ty rfl hfull, fun h _ _ _ _ => h⟩
        rw [hstill, ← hiff, ← UInt32.toNat_inj]
        omega
    | reset => exact hskip rfl (Nat.zero_add _) rfl (and_iff_right fun _ _ he => by cases he)
    | start => exact absurd rfl hop
    | other d => exact hskip rfl (Nat.zero_add _) rfl (and_iff_right fun _ _ he => by cases he)

/-- **The energy of a session adds up** exactly when no sample measures any while the queue is
full: then the samples show what went over the meter since the start request. -/
theorem energy_conserved_iff (c : Charger) (ops : List QueueOp) (hs : ∀ op ∈ ops, op ≠ .start)
    (hm : (c.scene.eqpWatt :: readings (QueueOp.start.apply c) ops).IsChain (· ≤ ·)) :
    storedSum (QueueOp.start.apply c) ops =
        ((readings (QueueOp.start.apply c) ops).getLastD c.scene.eqpWatt).toNat -
          c.scene.eqpWatt.toNat ↔
      StillWhenFull (QueueOp.start.apply c) ops := by
  obtain ⟨hmost, hiff⟩ := storedSum_spec (c := QueueOp.start.apply c) hs hm
  have hcaptured : (QueueOp.start.apply c).startTsQ.meterStartVal = c.scene.eqpWatt := rfl
  rw [hcaptured] at hmost hiff
  rw [← hiff]
  omega

/-- Five samples at rising readings. -/
theorem energy_conserved_five : ∃ ops, storedSum (QueueOp.start.apply (.init 0)) ops = 50 ∧
    StillWhenFull (QueueOp.start.apply (.init 0)) ops := by
  let ops := [meterAt 10 300, sampleOp, meterAt 20 300, sampleOp, meterAt 30 300, sampleOp,
    meterAt 40 300, sampleOp, meterAt 50 300, sampleOp]
  have hsum : storedSum (QueueOp.start.apply (.init 0)) ops = 50 := by decide +kernel
  have hs : ∀ op ∈ ops, op ≠ .start := by
    intro op hop
    simp only [ops, List.mem_cons, List.not_mem_nil, or_false] at hop
    rcases hop with rfl | rfl | rfl | rfl | rfl | rfl | rfl | rfl | rfl | rfl <;> exact nofun
  have hm : ((Charger.init 0).scene.eqpWatt ::
      readings (QueueOp.start.apply (.init 0)) ops).IsChain (· ≤ ·) := by decide +kernel
  refine ⟨ops, hsum, (energy_conserved_iff (.init 0) ops hs hm).mp ?_⟩
  rw [hsum]
  decide +kernel

/-- The sixth shows nothing of the 10 it measured, and the next one is counted from there. -/
theorem energy_lost : ∃ ops, (∀ op ∈ ops, op ≠ .start) ∧
    ((Charger.init 0).scene.eqpWatt ::
      readings (QueueOp.start.apply (.init 0)) ops).IsChain (· ≤ ·) ∧
    storedSum (QueueOp.start.apply (.init 0)) ops ≠
      ((readings (QueueOp.start.apply (.init 0)) ops).getLastD (Charger.init 0).scene.eqpWatt).toNat -
        (Charger.init 0).scene.eqpWatt.toNat := by
  refine ⟨[meterAt 10 300, sampleOp, sampleOp, sampleOp, sampleOp, sampleOp, meterAt 20 300, sampleOp],
    ?_, by decide +kernel, by decide +kernel⟩
  intro op hop
  simp only [List.mem_cons, List.not_mem_nil, or_false] at hop
  rcases hop with rfl | rfl | rfl | rfl | rfl | rfl | rfl | rfl <;> exact nofun

end ChargePoint
