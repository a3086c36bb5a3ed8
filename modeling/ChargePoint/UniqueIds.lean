import ChargePoint.MeterSamples

/-!
# The ids of the CALLs

Every CALL takes its id from `CstGetTime_Msec_test`, all but one: MeterValues takes the id its
first queued sample was given. The id is as good as any, since a sample has it from the same
clock, and the queue is cleared before the next CALL of the connection; unless the queue is
empty. Then the first entry is a cleared one, its id is 0, and it is 0 again the next time.

A run is observed with the readings of that clock and the connections made (`Seen`).
`ids_nodup_iff` says when the CALLs of a connection have different ids, under the assumption
that the clock never returns a value twice and never goes back.
-/

set_option autoImplicit false

namespace ChargePoint

open Trace DropQueue

/-! ## What is read of the clock -/

/-- The calls of `CstGetTime_Msec_test` in a branch, in order. -/
def Call.readings (a : Call) (k : Clock) : List UInt64 :=
  match a with
  | .meterVal => []
  | .trigMeter => [k.sample.uid]
  -- `Add_MeterVal_Q` comes before `MakeDataCmd_StopTs`
  | .stopTs => [k.sample.uid, k.uid]
  | _ => [k.uid]

/-- The calls of `CstGetTime_Msec_test` in an event. -/
def Client.readings (s : Client) : Event → List UInt64
  | .sample k =>
    match checkSampledTime s.cp k.tmCheck with
    | some (ty, _) => if ty ≠ 0 then [k.sample.uid] else []
    | none => []
  | .netRun k _ _ =>
    if s.bConnect then
      match s.ocppCallSenario k with
      | some (some a, _) => a.readings k
      | _ => []
    else []
  | _ => []

/-- A connection is made: `WS_Server_connect` succeeds. -/
def Client.connects (s : Client) : Event → Bool
  | .netRun _ _ connectOk => !s.bConnect && connectOk
  | _ => false

/-- What is seen of a run here. -/
inductive Seen
  | connected
  | reading (n : UInt64)
  | shown (ob : Obs)

def Seen.isConnected : Seen → Bool
  | .connected => true
  | _ => false

/-- An event, with its readings and the connection it makes. -/
def seenStep (s : Client) (e : Event) : Option (Client × List Seen) :=
  (step s e).map fun r => (r.1, (if s.connects e then [.connected] else []) ++
    ((s.readings e).map .reading ++ r.2.map .shown))

/-- All readings so far. -/
def readingsOf (log : List Seen) : List UInt64 :=
  log.filterMap fun x => match x with
    | .reading n => some n
    | _ => none

/-! ## What was transmitted

A CALL is *unfed* if it is a MeterValues built from an empty queue, so that its id comes from no
reading of the clock. `nodup_iff_fedOnce` is the arithmetic of the result: with 0 for all of
these, the ids are different exactly if there is at most one of them and no other CALL has 0. -/

/-- A CALL that went out. -/
structure SentCall where
  id : UInt64
  /-- it is a MeterValues, and the queue was empty -/
  unfed : Bool
  deriving DecidableEq

def Obs.sentCall : Obs → Option SentCall
  | .sent _ m c =>
    if m.msgType = msgTypeCall then
      some ⟨m.uniqueId, m.actionCode = .meterVal && (c.meterQ 0).meterValFlg = 0⟩
    else none
  | _ => none

def Seen.sentCall : Seen → Option SentCall
  | .shown ob => ob.sentCall
  | _ => none

/-- The CALLs transmitted on the connection there is, or was last. -/
def sentCalls (log : List Seen) : List SentCall :=
  (since Seen.isConnected log).filterMap Seen.sentCall

/-- Their ids. -/
def sentIds (log : List Seen) : List UInt64 := (sentCalls log).map SentCall.id

/-- The ids that came from the clock, directly or through a sample. -/
def fedIds (l : List SentCall) : List UInt64 := (l.filter fun x => !x.unfed).map SentCall.id

/-- The CALLs without such an id. -/
def unfedCalls (l : List SentCall) : List SentCall := l.filter fun x => x.unfed

/-- A MeterValues was built from an empty queue at most once, and if it was then no other CALL
was built when the clock showed 0. -/
def FedOnce (l : List SentCall) : Prop :=
  (unfedCalls l).length ≤ 1 ∧ (unfedCalls l ≠ [] → 0 ∉ fedIds l)

instance (l : List SentCall) : Decidable (FedOnce l) :=
  inferInstanceAs (Decidable (_ ∧ (_ → _)))

/-- With 0 for every CALL without an id of its own, this is what makes the ids different. -/
theorem nodup_iff_fedOnce {l : List SentCall} (hzero : ∀ x ∈ l, x.unfed = true → x.id = 0)
    (hfed : (fedIds l).Nodup) : (l.map SentCall.id).Nodup ↔ FedOnce l := by
  have hperm : List.Perm (l.map SentCall.id)
      ((unfedCalls l).map SentCall.id ++ fedIds l) := by
    unfold unfedCalls fedIds
    rw [← List.map_append]
    exact (List.filter_append_perm _ l).symm.map _
  have hids : (unfedCalls l).map SentCall.id = List.replicate (unfedCalls l).length 0 := by
    rw [List.eq_replicate_iff]
    refine ⟨List.length_map .., fun n hn => ?_⟩
    obtain ⟨x, hx, rfl⟩ := List.mem_map.mp hn
    obtain ⟨hmem, hun⟩ := List.mem_filter.mp hx
    exact hzero x hmem hun
  rw [hperm.nodup_iff, hids, List.nodup_append]
  unfold FedOnce
  constructor
  · rintro ⟨hrep, -, hdis⟩
    refine ⟨List.nodup_replicate.mp hrep, fun hne hmem => ?_⟩
    exact hdis 0 (List.mem_replicate.mpr ⟨by simpa using hne, rfl⟩) 0 hmem rfl
  · rintro ⟨hone, hdis⟩
    refine ⟨List.nodup_replicate.mpr hone, hfed, fun n hn m hm => ?_⟩
    obtain ⟨hlen, rfl⟩ := List.mem_replicate.mp hn
    rintro rfl
    exact hdis (by simpa using hlen) hm

/-! ## The queue and the ids in use

`IdsOk` keeps three lists apart: the readings, the ids on the wire, the ids that wait in the
queue. An id that waits has been read and is not on the wire, as long as the connection lives and
no MeterValues is out; after it is out, nothing is sent before the queue is emptied. -/

theorem added_uid (c : Charger) (k : SampleClock) (ty : Nat) : (added c k ty).uidMv = k.uid := by
  unfold added
  rcases Nat.lt_or_eq_of_le (qno_le c.meterQ) with hfree | hfull
  · rw [Nat.min_eq_left (by omega), addMeterValQ_free hfree, if_pos rfl]
    rfl
  · rw [hfull, Nat.min_eq_right (Nat.sub_le _ _), addMeterValQ_full hfull (by decide),
      if_neg (by decide)]
    rfl

/-- The queue, what was read of the clock, and the CALLs of the connection. While `live`, the
queued samples' ids are still to be used. -/
structure IdsOk (q : Nat → MeterVal) (rs : List UInt64) (l : List SentCall) (live : Prop) :
    Prop where
  packed : Packed q
  /-- a cleared first entry has no id -/
  free : (q 0).meterValFlg = 0 → (q 0).uidMv = 0
  read : ∀ v ∈ queued q, v.uidMv ∈ rs
  fed : ∀ n ∈ fedIds l, n ∈ rs
  zero : ∀ x ∈ l, x.unfed = true → x.id = 0
  nodup : (fedIds l).Nodup
  fresh : live → ∀ v ∈ queued q, v.uidMv ∉ fedIds l

theorem fedIds_append (l : List SentCall) (x : SentCall) :
    fedIds (l ++ [x]) = fedIds l ++ if x.unfed then [] else [x.id] := by
  unfold fedIds
  rw [List.filter_append, List.map_append]
  cases hx : x.unfed <;> simp [hx]

section Ids
variable {q : Nat → MeterVal} {rs : List UInt64} {l : List SentCall} {live live' : Prop}

theorem IdsOk.init : IdsOk (fun _ => .zero) [] [] live where
  packed := fun _ _ _ => rfl
  free := fun _ => rfl
  read := fun v hv => absurd hv (by simp [queued, qno, qnoLoop, MeterVal.zero, maxQnoMeterVal])
  fed := fun _ hn => absurd hn List.not_mem_nil
  zero := fun _ hx => absurd hx List.not_mem_nil
  nodup := List.nodup_nil
  fresh := fun _ _ _ => List.not_mem_nil

/-- Readings that are not used, and a connection that may be lost. -/
theorem IdsOk.more (h : IdsOk q rs l live) (rs' : List UInt64) (hl : live' → live) :
    IdsOk q (rs ++ rs') l live' where
  packed := h.packed
  free := h.free
  read := fun v hv => List.mem_append_left _ (h.read v hv)
  fed := fun n hn => List.mem_append_left _ (h.fed n hn)
  zero := h.zero
  nodup := h.nodup
  fresh := fun hlive => h.fresh (hl hlive)

/-- Another connection. -/
theorem IdsOk.reconnect (h : IdsOk q rs l live) : IdsOk q rs [] live' where
  packed := h.packed
  free := h.free
  read := h.read
  fed := fun _ hn => absurd hn List.not_mem_nil
  zero := fun _ hx => absurd hx List.not_mem_nil
  nodup := List.nodup_nil
  fresh := fun _ _ _ => List.not_mem_nil

/-- `Add_MeterVal_Q`. -/
theorem IdsOk.add {c : Charger} {k : SampleClock} {ty : Nat} (h : IdsOk c.meterQ rs l live)
    (hty : ty ≠ 0) (hnew : k.uid ∉ rs) :
    IdsOk (addMeterValQ c k ty).meterQ (rs ++ [k.uid]) l live := by
  have hmem : ∀ v ∈ queued (addMeterValQ c k ty).meterQ, v ∈ queued c.meterQ ∨ v.uidMv = k.uid := by
    intro v hv
    rw [queued_add h.packed hty] at hv
    rcases mem_of_mem_push hv with hold | rfl
    · exact .inl hold
    · exact .inr (added_uid c k ty)
  refine ⟨packed_add h.packed hty, fun hfree => ?_, fun v hv => ?_, fun n hn => ?_, h.zero, h.nodup,
    fun hlive v hv => ?_⟩
  · have hpos : 0 < qno (addMeterValQ c k ty).meterQ := by
      rw [qno_add h.packed hty]
      exact Nat.lt_min.mpr ⟨Nat.succ_pos _, by decide⟩
    exact absurd hfree (used_of_lt_qno hpos)
  · rcases hmem v hv with hold | hnew
    · exact List.mem_append_left _ (h.read v hold)
    · exact List.mem_append_right _ (by simp [hnew])
  · exact List.mem_append_left _ (h.fed n hn)
  · rcases hmem v hv with hold | huid
    · exact h.fresh hlive v hold
    · rw [huid]
      exact fun hused => hnew (h.fed _ hused)

/-- `Reset_MeterVal_Q`. -/
theorem IdsOk.reset {c : Charger} (h : IdsOk c.meterQ rs l live) :
    IdsOk (resetMeterValQ c).meterQ rs l live' where
  packed := packed_reset h.packed
  free := by
    unfold resetMeterValQ
    dsimp only
    split
    · exact fun _ => rfl
    · exact h.free
  read := fun v hv => absurd hv (by simp [queued_reset])
  fed := h.fed
  zero := h.zero
  nodup := h.nodup
  fresh := fun _ v hv => absurd hv (by simp [queued_reset])

/-- A CALL with an id of its own. -/
theorem IdsOk.call {n : UInt64} (h : IdsOk q rs l live) (hnew : n ∉ rs) (hl : live' → live) :
    IdsOk q (rs ++ [n]) (l ++ [⟨n, false⟩]) live' := by
  have hids : fedIds (l ++ [⟨n, false⟩]) = fedIds l ++ [n] := fedIds_append l _
  refine ⟨h.packed, h.free, fun v hv => List.mem_append_left _ (h.read v hv), fun m hm => ?_,
    fun x hx hun => ?_, ?_, fun hlive v hv hused => ?_⟩
  · rw [hids] at hm
    rcases List.mem_append.mp hm with hm | hm
    · exact List.mem_append_left _ (h.fed m hm)
    · exact List.mem_append_right _ hm
  · rcases List.mem_append.mp hx with hx | hx
    · exact h.zero x hx hun
    · rw [List.mem_singleton.mp hx] at hun
      exact absurd hun (by simp)
  · rw [hids, List.nodup_append]
    refine ⟨h.nodup, List.pairwise_singleton _ n, fun m hm m' hm' => ?_⟩
    rintro rfl
    rw [List.mem_singleton] at hm'
    exact hnew (hm' ▸ h.fed m hm)
  · rw [hids] at hused
    rcases List.mem_append.mp hused with hused | hused
    · exact h.fresh (hl hlive) v hv hused
    · exact hnew (List.mem_singleton.mp hused ▸ h.read v hv)

/-- A MeterValues, with the id of the first entry. It is waited for. -/
theorem IdsOk.meterVal (h : IdsOk q rs l live) (hlive : live) (hdead : ¬ live') :
    IdsOk q rs (l ++ [⟨(q 0).uidMv, (q 0).meterValFlg = 0⟩]) live' := by
  by_cases hfree : (q 0).meterValFlg = 0
  · -- no sample: the id is 0
    have hids : fedIds (l ++ [⟨(q 0).uidMv, (q 0).meterValFlg = 0⟩]) = fedIds l := by
      rw [fedIds_append]
      simp [hfree]
    refine ⟨h.packed, h.free, h.read, by rw [hids]; exact h.fed, fun x hx hun => ?_,
      by rw [hids]; exact h.nodup, fun hl => absurd hl hdead⟩
    rcases List.mem_append.mp hx with hx | hx
    · exact h.zero x hx hun
    · rw [List.mem_singleton.mp hx]
      exact h.free hfree
  · have hids : fedIds (l ++ [⟨(q 0).uidMv, (q 0).meterValFlg = 0⟩]) = fedIds l ++ [(q 0).uidMv] := by
      rw [fedIds_append]
      simp [hfree]
    have hpos : 0 < qno q := by
      rcases Nat.eq_zero_or_pos (qno q) with hq | hq
      · have hat := free_at_qno (q := q) (by rw [hq]; decide)
        rw [hq] at hat
        exact absurd hat hfree
      · exact hq
    have hhead : q 0 ∈ queued q := mem_queued.mpr ⟨0, hpos, rfl⟩
    refine ⟨h.packed, h.free, h.read, fun n hn => ?_, fun x hx hun => ?_, ?_,
      fun hl => absurd hl hdead⟩
    · rw [hids] at hn
      rcases List.mem_append.mp hn with hn | hn
      · exact h.fed n hn
      · rw [List.mem_singleton.mp hn]
        exact h.read _ hhead
    · rcases List.mem_append.mp hx with hx | hx
      · exact h.zero x hx hun
      · rw [List.mem_singleton.mp hx] at hun
        exact absurd hun (by simp [hfree])
    · rw [hids, List.nodup_append]
      refine ⟨h.nodup, List.pairwise_singleton _ _, fun m hm m' hm' => ?_⟩
      rintro rfl
      rw [List.mem_singleton] at hm'
      exact h.fresh hlive _ hhead (hm' ▸ hm)

end Ids

/-! ## One step -/

/-- Connected, and not waiting for the answer to a MeterValues. -/
def Client.Live (s : Client) : Prop :=
  s.bConnect = true ∧ ¬ (s.bWaitResFlg = true ∧ s.callTxMsg.actionCode = .meterVal)

/-- The invariant. -/
def IdInv (s : Client) (log : List Seen) : Prop :=
  IdsOk s.cp.meterQ (readingsOf log) (sentCalls log) s.Live

/-- What an event adds, when it makes no connection. -/
def shownBy (rs : List UInt64) (o : List Obs) : List Seen := rs.map .reading ++ o.map .shown

section Logs
variable (log : List Seen) (rs : List UInt64) (o : List Obs)

theorem readingsOf_shownBy : readingsOf (log ++ shownBy rs o) = readingsOf log ++ rs := by
  unfold readingsOf shownBy
  rw [List.filterMap_append, List.filterMap_append, List.filterMap_map, List.filterMap_map]
  have hrs : rs.filterMap ((fun x : Seen => match x with
      | .reading n => some n
      | _ => none) ∘ Seen.reading) = rs := List.filterMap_some
  have ho : o.filterMap ((fun x : Seen => match x with
      | .reading n => some n
      | _ => none) ∘ Seen.shown) = [] := by
    simp
  rw [hrs, ho, List.append_nil]

theorem sentCalls_shownBy :
    sentCalls (log ++ shownBy rs o) = sentCalls log ++ o.filterMap Obs.sentCall := by
  have hmark : ∀ x ∈ shownBy rs o, x.isConnected = false := by
    intro x hx
    rcases List.mem_append.mp hx with hx | hx
    · obtain ⟨n, -, rfl⟩ := List.mem_map.mp hx
      rfl
    · obtain ⟨ob, -, rfl⟩ := List.mem_map.mp hx
      rfl
  have hrs : rs.filterMap (Seen.sentCall ∘ Seen.reading) = [] := by
    simp [Function.comp_def, Seen.sentCall]
  unfold sentCalls
  rw [since_append hmark, List.filterMap_append]
  unfold shownBy
  rw [List.filterMap_append, List.filterMap_map, List.filterMap_map, hrs]
  rfl

theorem sentCalls_connected : sentCalls (log ++ [.connected]) = [] := by
  unfold sentCalls
  rw [since_mark rfl]
  rfl

theorem readingsOf_connected : readingsOf (log ++ [.connected]) = readingsOf log := by
  unfold readingsOf
  rw [List.filterMap_append]
  exact List.append_nil _

end Logs

/-- The id of a CALL. -/
theorem Call.build_uid {a : Call} {k : Clock} {c : Charger} {tx tx' : TxBuf}
    (h : a.build k c tx = some tx') :
    tx'.msg.uniqueId = if a.action = .meterVal then (c.meterQ 0).uidMv else k.uid := by
  cases a with
  | stopTs =>
    simp only [Call.build, Option.map_eq_some_iff] at h
    obtain ⟨d, _, rfl⟩ := h
    unfold makeDataCmdStopTs
    dsimp only
    split <;> rfl
  | chargeAmt =>
    simp only [Call.build, Option.map_eq_some_iff] at h
    obtain ⟨d, _, rfl⟩ := h
    rfl
  | stat i =>
    simp only [Call.build, Option.some.injEq] at h
    subst h
    unfold makeDataCmdStat
    dsimp only
    split <;> split <;> split <;> rfl
  | trigStat =>
    simp only [Call.build, Option.some.injEq] at h
    subst h
    unfold makeDataCmdStat
    dsimp only
    split <;> split <;> split <;> rfl
  | boot | meterVal | trigMeter | dataTransJ1 | auth | mbrUntpc | startTs | q1 | q2 | trigDiag
  | diagStat | trigFw | fwStat | trigHb | hb | cpSts =>
    simp only [Call.build, Option.some.injEq] at h
    subst h
    rfl

/-- Samples are no CALLs. -/
theorem Call.samples_sentCall (a : Call) (k : Clock) (c : Charger) :
    (a.samples k c).filterMap Obs.sentCall = [] := by
  cases a <;> rfl

/-- A reading that was not there before. -/
theorem not_mem_of_nodup {rs : List UInt64} {n : UInt64} (h : (rs ++ [n]).Nodup) : n ∉ rs := by
  intro hmem
  rw [List.nodup_append] at h
  exact h.2.2 n hmem n (List.mem_singleton.mpr rfl) rfl

section Branch
variable {c : Charger} {rs : List UInt64} {l : List SentCall} {live live' : Prop}

/-- A CALL is built, and lost. -/
theorem IdsOk.built (h : IdsOk c.meterQ rs l live) (a : Call) (k : Clock)
    (hclock : (rs ++ a.readings k).Nodup) (hl : live' → live) :
    IdsOk (a.finish (a.prepare k c)).meterQ (rs ++ a.readings k) l live' := by
  cases a with
  | stopTs =>
    have hsplit : rs ++ Call.stopTs.readings k = rs ++ [k.sample.uid] ++ [k.uid] := by
      simp [Call.readings]
    rw [hsplit] at hclock ⊢
    have hsample := not_mem_of_nodup (List.nodup_append.mp hclock).1
    exact (IdsOk.add (c := { c with cs := { c.cs with bReqStopTsFlg := false } })
      h (show meterValTransType ≠ 0 by decide) hsample).more _ hl
  | trigMeter =>
    have hadd := (IdsOk.add (c := { c with cs := { c.cs with triggerMsgStat := .none } })
      h (show meterValTrigType ≠ 0 by decide) (not_mem_of_nodup hclock)).more [] hl
    rw [List.append_nil] at hadd
    exact hadd
  | boot | meterVal | stat | dataTransJ1 | auth | mbrUntpc | startTs | chargeAmt | q1 | q2
  | trigDiag | trigFw | trigHb | trigStat | diagStat | fwStat | hb | cpSts =>
    exact h.more _ hl

/-- A CALL is built and sent. A MeterValues is waited for from then on. -/
theorem IdsOk.sent (h : IdsOk c.meterQ rs l live) (a : Call) (k : Clock)
    (hclock : (rs ++ a.readings k).Nodup) (hlive : live)
    (hwait : live' → a.action ≠ .meterVal) {x : SentCall}
    (hid : x.id = if a.action = .meterVal then ((a.prepare k c).meterQ 0).uidMv else k.uid)
    (hun : x.unfed =
      (decide (a.action = .meterVal) && decide (((a.prepare k c).meterQ 0).meterValFlg = 0))) :
    IdsOk (a.finish (a.prepare k c)).meterQ (rs ++ a.readings k) (l ++ [x]) live' := by
  obtain ⟨n, u⟩ := x
  dsimp only at hid hun
  subst hid hun
  cases a with
  | meterVal =>
    have hdead : ¬ live' := fun hl => hwait hl rfl
    have hsent := (h.meterVal hlive hdead).more [] id
    exact hsent
  | trigMeter =>
    have hdead : ¬ live' := fun hl => hwait hl rfl
    have hadd := IdsOk.add (c := { c with cs := { c.cs with triggerMsgStat := .none } })
      h (show meterValTrigType ≠ 0 by decide) (not_mem_of_nodup hclock)
    exact hadd.meterVal hlive hdead
  | stopTs =>
    have hsplit : rs ++ Call.stopTs.readings k = rs ++ [k.sample.uid] ++ [k.uid] := by
      simp [Call.readings]
    rw [hsplit] at hclock ⊢
    have hsample := not_mem_of_nodup (List.nodup_append.mp hclock).1
    have hadd := IdsOk.add (c := { c with cs := { c.cs with bReqStopTsFlg := false } })
      h (show meterValTransType ≠ 0 by decide) hsample
    exact hadd.call (not_mem_of_nodup hclock) fun _ => hlive
  | boot | stat | dataTransJ1 | auth | mbrUntpc | startTs | chargeAmt | q1 | q2
  | trigDiag | trigFw | trigHb | trigStat | diagStat | fwStat | hb | cpSts =>
    exact h.call (not_mem_of_nodup hclock) fun _ => hlive

end Branch

/-- An event that makes no connection leaves none behind that was not there. -/
theorem step_bConnect {s s' : Client} {e : Event} {o : List Obs} (h : step s e = some (s', o))
    (hconn : s.connects e = false) (hc' : s'.bConnect = true) : s.bConnect = true := by
  by_contra hc
  cases step_cases h with
  | ticked k sendOk connectOk he hc₁ ht => exact hc hc₁
  | received frame j k sendOk he hc₁ hr => exact hc hc₁
  | connected k sendOk he hc₁ hs ho =>
    subst he
    simp [Client.connects, hc₁] at hconn
  | raised k he hreq hs ho => subst hs; exact hc hc'
  | sampled k f ty he hty hdue hs ho => subst hs; exact hc hc'
  | env w c he hw hs => subst hs; exact hc hc'
  | quiet f rx b hs ho hrun =>
    cases e with
    | raiseStart k =>
      simp only [step, Option.some.injEq, Client.raiseStart] at h
      split at h <;> obtain ⟨rfl, -⟩ := Prod.mk.inj h <;> exact hc hc'
    | sample k =>
      simp only [step, Client.sampleMeter, Option.map_eq_some_iff] at h
      obtain ⟨r, -, h⟩ := h
      split at h <;> obtain ⟨rfl, -⟩ := Prod.mk.inj h <;> exact hc hc'
    | linkDown =>
      obtain ⟨rfl, -⟩ := Prod.mk.inj (Option.some.inj h)
      exact absurd hc' (by simp)
    | netDown =>
      obtain ⟨rfl, -⟩ := Prod.mk.inj (Option.some.inj h)
      exact absurd hc' (by simp)
    | netRun k sendOk connectOk =>
      obtain ⟨hfalse, rfl⟩ := hrun k sendOk connectOk rfl
      simp only [step, Client.netRun, hfalse, Bool.false_eq_true, if_false,
        Client.wsServerConnect] at h
      obtain ⟨rfl, -⟩ := Prod.mk.inj (Option.some.inj h)
      exact absurd hc' (by simp)
    | recv frame j k sendOk =>
      simp only [step, if_neg hc] at h
      obtain ⟨rfl, -⟩ := Prod.mk.inj (Option.some.inj h)
      exact hc hc'
    | recvFail =>
      simp only [step, if_neg hc] at h
      obtain ⟨rfl, -⟩ := Prod.mk.inj (Option.some.inj h)
      exact hc hc'
    | env w =>
      simp only [step, Option.map_eq_some_iff] at h
      obtain ⟨r, -, h⟩ := h
      obtain ⟨rfl, -⟩ := Prod.mk.inj h
      exact hc hc'

/-- Nothing but the readings: no CALL, no connection, and the queue stays. -/
theorem idInv_kept {s s' : Client} {log : List Seen} (h : IdInv s log) {rs : List UInt64}
    {o : List Obs} (hq : s'.cp.meterQ = s.cp.meterQ) (ho : o.filterMap Obs.sentCall = [])
    (hlive : s'.Live → s.Live) : IdInv s' (log ++ shownBy rs o) := by
  unfold IdInv
  rw [hq, readingsOf_shownBy, sentCalls_shownBy, ho, List.append_nil]
  exact h.more rs hlive

theorem idInv_ticked {s s' : Client} {log : List Seen} (h : IdInv s log) {k : Clock}
    {sendOk connectOk : Bool} {o : List Obs} (hc : s.bConnect = true)
    (ht : s.Ticked k sendOk s' o)
    (hclock : (readingsOf log ++ s.readings (.netRun k sendOk connectOk)).Nodup) :
    IdInv s' (log ++ shownBy (s.readings (.netRun k sendOk connectOk)) o) := by
  have hreads : ∀ {a t}, s.ocppCallSenario k = some (some a, t) →
      s.readings (.netRun k sendOk connectOk) = a.readings k := by
    intro a t hsen
    show (if s.bConnect = true then _ else _) = _
    rw [if_pos hc, hsen]
  cases ht with
  | idle f t v w hs ho hsen =>
    subst hs ho
    exact idInv_kept h rfl rfl id
  | timeout w hw hs ho =>
    subst hs ho
    exact idInv_kept h rfl rfl fun hl => absurd hl.1 (by simp)
  | failed a f t tx d v hw hg hb hs ho hk hsen =>
    obtain ⟨t', hsen⟩ := hsen
    rw [hreads hsen] at hclock ⊢
    subst hs ho
    unfold IdInv
    rw [readingsOf_shownBy, sentCalls_shownBy, Call.samples_sentCall, List.append_nil]
    exact IdsOk.built (c := s.cp.pulse f t) h a k hclock fun hl => absurd hl.1 (by simp)
  | called a f t tx d v hw hg hb hs ho hk hsen =>
    obtain ⟨t', hsen⟩ := hsen
    rw [hreads hsen] at hclock ⊢
    obtain ⟨htype, hact⟩ := Call.build_header hb
    have hq : (a.finish (a.prepare k (s.cp.pulse f t))).meterQ =
        (a.prepare k (s.cp.pulse f t)).meterQ := by cases a <;> rfl
    subst hs ho
    unfold IdInv
    rw [readingsOf_shownBy, sentCalls_shownBy, List.filterMap_append, Call.samples_sentCall,
      List.nil_append]
    -- not waiting before, waiting for this CALL after
    have hlive : s.Live := ⟨hc, fun hwait => absurd (hw.symm.trans hwait.1) (by simp)⟩
    have hwait : ({ s with
        cp := a.finish (a.prepare k (s.cp.pulse f t)), tv1 := v, tx := afterMakeOcppMsg tx,
        dataTransUniqueId := d, bWaitResFlg := true, tvRes := k.secSent,
        callTxMsg := (afterMakeOcppMsg tx).msg } : Client).Live → a.action ≠ .meterVal :=
      fun hl hmeter => hl.2 ⟨rfl, hact.trans hmeter⟩
    have hsent := IdsOk.sent (c := s.cp.pulse f t) (x := ⟨tx.msg.uniqueId,
      decide (a.action = .meterVal) &&
        decide (((a.prepare k (s.cp.pulse f t)).meterQ 0).meterValFlg = 0)⟩) h a k hclock hlive
      hwait (Call.build_uid hb) rfl
    have hcall : Obs.sentCall (.sent (makeOcppMsg tx s.rx.msg.uniqueIdChar)
        (afterMakeOcppMsg tx).msg (a.finish (a.prepare k (s.cp.pulse f t)))) =
        some ⟨tx.msg.uniqueId, decide (a.action = .meterVal) &&
          decide (((a.prepare k (s.cp.pulse f t)).meterQ 0).meterValFlg = 0)⟩ := by
      show (if tx.msg.msgType = msgTypeCall then some (SentCall.mk tx.msg.uniqueId
        (decide (tx.msg.actionCode = .meterVal) && _)) else none) = _
      rw [if_pos htype, hact, hq]
    rw [List.filterMap_cons, hcall]
    exact hsent

theorem idInv_received {s s' : Client} {log : List Seen} (h : IdInv s log) {frame : List Char}
    {o : List Obs} {rs : List UInt64} (hc : s.bConnect = true) (hr : s.Received frame s' o) :
    IdInv s' (log ++ shownBy rs o) := by
  cases hr with
  | dropped rx d b hs ho =>
    subst hs ho
    exact idInv_kept h rfl rfl fun hl => ⟨hc, hl.2⟩
  | served rx d b cmd j c tx tx' rx' sent hserve htx hs hsent ho =>
    have hok := rxCallDataProc_ok hserve
    subst hs ho
    refine idInv_kept h (Charger.billing_eq hok.billing).2.1 ?_ fun hl => ⟨hc, hl.2⟩
    rcases hsent with rfl | rfl
    · rfl
    · have hres : (afterMakeOcppMsg tx).msg.msgType ≠ msgTypeCall := by
        rw [(afterMakeOcppMsg_header tx).1, hok.msgType]
        decide
      simp [Obs.sentCall, hres]
  | answered rx d c hw htype hact hid htext hparse hproc hs ho =>
    have hq := rxCallResDataProc_meterQ hproc hact
    subst hs ho
    by_cases hcar : s.callTxMsg.actionCode.isCarrier = true
    · rw [if_pos hcar] at hq
      unfold IdInv
      rw [readingsOf_shownBy, sentCalls_shownBy]
      rw [show ({ s with rx := rx, dataTransUniqueId := d, bWaitResFlg := false, cp := c } :
        Client).cp.meterQ = _ from hq]
      have hreset : IdsOk (resetMeterValQ s.cp).meterQ (readingsOf log) (sentCalls log)
          (Client.Live { s with rx := rx, dataTransUniqueId := d, bWaitResFlg := false, cp := c }) :=
        h.reset
      have hreset := hreset.more rs id
      exact (List.append_nil (sentCalls log)).symm ▸ hreset
    · rw [if_neg hcar] at hq
      refine idInv_kept h hq rfl fun hl => ⟨hc, fun hwait => hcar ?_⟩
      rw [hwait.2]
      rfl

theorem seenStep_idInv {s s' : Client} {log : List Seen} {e : Event} {new : List Seen}
    (h : IdInv s log) (hstep : seenStep s e = some (s', new))
    (hclock : (readingsOf (log ++ new)).Nodup) : IdInv s' (log ++ new) := by
  unfold seenStep at hstep
  obtain ⟨⟨t, o⟩, hst, heq⟩ := Option.map_eq_some_iff.mp hstep
  obtain ⟨rfl, rfl⟩ := Prod.mk.inj heq
  -- a connect starts a new list of ids; all other steps add to the one there is
  cases hconn : s.connects e with
  | true =>
    rw [if_pos (rfl : true = true)]
    cases step_cases hst with
    | connected k sendOk he hc hs ho =>
      subst hs ho
      rw [← List.append_assoc]
      have hreset : IdInv { s with bConnect := true, bWaitResFlg := false }
          (log ++ [.connected]) := by
        unfold IdInv
        rw [readingsOf_connected, sentCalls_connected]
        exact h.reconnect
      exact idInv_kept hreset rfl rfl id
    | quiet f rx b hs ho hrun =>
      cases e with
      | netRun k sendOk connectOk =>
        obtain ⟨hfalse, rfl⟩ := hrun k sendOk connectOk rfl
        exact absurd hconn (by simp [Client.connects])
      | raiseStart | sample | linkDown | netDown | recv | recvFail | env =>
        exact absurd hconn (by simp [Client.connects])
    | ticked k sendOk connectOk he hc ht =>
      subst he
      exact absurd hconn (by simp [Client.connects, hc])
    | raised k he | sampled k f ty he | received frame j k sendOk he | env w c he =>
      subst he
      exact absurd hconn (by simp [Client.connects])
  | false =>
    rw [if_neg (by simp [hconn]), List.nil_append] at hclock ⊢
    have hfresh : (readingsOf log ++ s.readings e).Nodup := by
      rw [← readingsOf_shownBy log (s.readings e) o]
      exact hclock
    have hlive : t.bWaitResFlg = s.bWaitResFlg → t.callTxMsg = s.callTxMsg → t.Live → s.Live :=
      fun hw hm hl => ⟨step_bConnect hst hconn hl.1, hw ▸ hm ▸ hl.2⟩
    cases step_cases hst with
    | quiet f rx b hs ho hrun =>
      subst hs ho
      exact idInv_kept h rfl rfl (hlive rfl rfl)
    | raised k he hreq hs ho =>
      subst hs ho
      exact idInv_kept h rfl rfl (hlive rfl rfl)
    | sampled k f ty he hty hdue hs ho =>
      subst hs ho he
      have hreads : s.readings (.sample k) = [k.sample.uid] := by
        show (match checkSampledTime s.cp k.tmCheck with | some (ty, _) => _ | none => _) = _
        rw [hdue]
        exact if_pos hty
      unfold IdInv
      show IdsOk _ (readingsOf (log ++ shownBy _ _)) (sentCalls (log ++ shownBy _ _)) _
      rw [readingsOf_shownBy, sentCalls_shownBy, hreads]
      rw [hreads] at hfresh
      have hadd := IdsOk.add (c := { s.cp with checkSampledFlg := f }) h hty
        (not_mem_of_nodup hfresh)
      exact (List.append_nil (sentCalls log)).symm ▸ hadd
    | connected k sendOk he hc hs ho =>
      subst he
      exact absurd hconn (by simp [Client.connects, hc])
    | ticked k sendOk connectOk he hc ht =>
      subst he
      exact idInv_ticked h hc ht hfresh
    | received frame j k sendOk he hc hr => exact idInv_received h hc hr
    | env w c he hw hs =>
      subst hs
      refine idInv_kept h (EnvWrite.apply_ok hw).meterQ ?_ (hlive rfl rfl)
      rcases EnvWrite.apply_obs hw with ho | ho <;> rw [show o = _ from ho] <;> rfl

/-! ## Whole runs -/

/-- **When the ids of a connection are different.** -/
theorem ids_nodup_iff {st : UInt32} {now : Nat} {s : Client} {log : List Seen}
    (h : Always seenStep (Client.init st now) s log)
    (hclock : (readingsOf log).Pairwise (· < ·)) :
    (sentIds log).Nodup ↔ FedOnce (sentCalls log) := by
  have hinv : (readingsOf log).Nodup → IdInv s log := by
    refine h.invariant (I := fun s log => (readingsOf log).Nodup → IdInv s log)
      (fun _ => IdsOk.init) ?_
    intro s log e s' o ih _ hstep hclock
    have hbefore : (readingsOf log).Nodup := by
      unfold readingsOf at hclock ⊢
      rw [List.filterMap_append] at hclock
      exact (List.nodup_append.mp hclock).1
    exact seenStep_idInv (ih hbefore) hstep hclock
  have hok := hinv (hclock.imp fun hlt => UInt64.ne_of_lt hlt)
  exact nodup_iff_fedOnce hok.zero hok.nodup

/-! ## Concrete runs -/

/-- A computed run that passes a check exhibits a run that passes it. -/
theorem exists_seen_of_exec {es : List Event} {p : List Seen → Bool}
    (h : (exec seenStep (fun _ _ _ => true) (Client.init 3 0) [] es).any (fun r => p r.2) = true) :
    ∃ s log, Always seenStep (Client.init 3 0) s log ∧ p log = true := by
  obtain ⟨s, log, hreach, hp⟩ := exists_reach_of_exec (p := fun _ log => p log) h
  exact ⟨s, log, hreach.always, hp⟩

/-- `chargingRun` with a clock that only goes forward. -/
def forwardRun : List Event :=
  bootRun "20" ++
  [ .netRun (.reading 11 21) true true, arrives "[3,\"21\",\x7b\x7d]",
    .netRun (.reading 12 22) true true, arrives "[3,\"22\",\x7b\x7d]",
    .netRun (.reading 13 23) true true, arrives "[3,\"23\",\x7b\x7d]",
    .env (.setCpStatus .charging 1), .netRun (.reading 14 24) true true,
    arrives "[3,\"24\",\x7b\x7d]", sceneAt 100 ]

set_option maxRecDepth 20000 in
/-- A sample is sent under its own id, and the next MeterValues finds the queue empty. -/
theorem ids_nodup_once : ∃ s log, Always seenStep (Client.init 3 0) s log ∧
    (unfedCalls (sentCalls log)).length = 1 ∧ (sentIds log).Nodup := by
  let p : List Seen → Bool := fun log =>
    decide ((readingsOf log).Pairwise (· < ·)) && decide (FedOnce (sentCalls log)) &&
      decide ((unfedCalls (sentCalls log)).length = 1)
  have hrun : (exec seenStep (fun _ _ _ => true) (Client.init 3 0) []
      (forwardRun ++ [.sample (.at 2 0 25), .netRun (.at 3 0 0) true true,
        arrives "[3,\"25\",\x7b\x7d]", .netRun (.at 5 59 26) true true,
        arrives "[3,\"26\",\x7b\x7d]", .netRun (.at 6 0 0) true true])).any
      (fun r => p r.2) = true := by decide +kernel
  obtain ⟨s, log, h, hp⟩ := exists_seen_of_exec hrun
  simp only [p, Bool.and_eq_true, decide_eq_true_eq] at hp
  obtain ⟨⟨hclock, hfed⟩, hone⟩ := hp
  exact ⟨s, log, h, hone, (ids_nodup_iff h hclock).mpr hfed⟩

set_option maxRecDepth 20000 in
/-- Two MeterValues of one connection, both with an empty queue and both acknowledged: both have
the id 0. -/
theorem ids_repeated : ∃ s log, Always seenStep (Client.init 3 0) s log ∧
    (readingsOf log).Pairwise (· < ·) ∧ ¬ (sentIds log).Nodup := by
  let p : List Seen → Bool := fun log =>
    decide ((readingsOf log).Pairwise (· < ·)) && decide (¬ (sentIds log).Nodup)
  have hrun : (exec seenStep (fun _ _ _ => true) (Client.init 3 0) []
      (forwardRun ++ [.netRun (.at 3 0 0) true true, arrives "[3,\"0\",\x7b\x7d]",
        .netRun (.at 5 59 25) true true, arrives "[3,\"25\",\x7b\x7d]",
        .netRun (.at 6 0 0) true true])).any (fun r => p r.2) = true := by decide +kernel
  obtain ⟨s, log, h, hp⟩ := exists_seen_of_exec hrun
  simp only [p, Bool.and_eq_true, decide_eq_true_eq] at hp
  exact ⟨s, log, h, hp.1, hp.2⟩

end ChargePoint
