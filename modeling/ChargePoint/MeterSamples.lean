import ChargePoint.MeterStart
import ChargePoint.Lib.DropQueue

/-!
# What becomes of a meter sample

`MeterValQ` is an array with a flag in every entry; what it implements is a queue of five
that drops its oldest sample when a sixth comes (`queued_add`, against `DropQueue.push`). A
sample leaves it in two ways: dropped, or cleared by `Reset_MeterVal_Q` when a MeterValues
or a StopTransaction is acknowledged.

The second way needs a condition. The acknowledgement clears *everything*, also what was
added after the frame was built, and a triggered sample, which stands in the queue but has no
text. `AckCovers` says of an acknowledgement that neither was the case; in a run whose
acknowledgements all cover the queue, every sample that found a free entry is in the queue, in
an acknowledged frame sent after it was taken, or was dropped for a newer one (`sample_fate`).

A sample is followed as it was measured (`sampleOf`): type, id, connector, time, and the
energy, current and voltage of its call. A free entry takes all of that. On a full queue
`Add_MeterVal_Q` shifts the entries down, writes the header of the sample into the last one and
its values to `MeterValQ[5]`, behind the array; what becomes of such a sample is not said here
(`MeterStore` has it).
-/

set_option autoImplicit false

namespace ChargePoint

open CStr SingleCall

/-! ## The array as a queue

The entries in use are those before the first free one, and an invariant says that there are none
behind it (`Packed`). On such an array the search for a free entry, the shift and the reset are
the operations of a list. -/

/-- The entries in use, oldest first. -/
def queued (q : Nat → MeterVal) : List MeterVal := (List.range (qno q)).map q

/-- Behind the first free entry all are free. -/
def Packed (q : Nat → MeterVal) : Prop :=
  ∀ i, qno q ≤ i → i < maxQnoMeterVal → (q i).meterValFlg = 0

@[simp] theorem queued_length (q : Nat → MeterVal) : (queued q).length = qno q := by
  simp [queued]

theorem mem_queued {q : Nat → MeterVal} {v : MeterVal} :
    v ∈ queued q ↔ ∃ i < qno q, q i = v := by
  simp [queued]

/-- What the search for a free entry finds, from any entry on. -/
theorem qnoLoop_spec (q : Nat → MeterVal) (k i : Nat) :
    i ≤ qnoLoop q k i ∧ qnoLoop q k i ≤ i + k ∧
      (∀ j, i ≤ j → j < qnoLoop q k i → (q j).meterValFlg ≠ 0) ∧
      (qnoLoop q k i < i + k → (q (qnoLoop q k i)).meterValFlg = 0) := by
  induction k generalizing i with
  | zero =>
    refine ⟨le_refl i, le_refl i, fun j hj hj' => ?_, fun h => absurd h (Nat.lt_irrefl i)⟩
    exact absurd hj' (Nat.not_lt.mpr hj)
  | succ k ih =>
    unfold qnoLoop
    by_cases hused : (q i).meterValFlg ≠ 0
    · obtain ⟨hlo, hhi, hin, hout⟩ := ih (i + 1)
      rw [if_pos hused]
      refine ⟨by omega, by omega, fun j hj hj' => ?_, fun h => hout (by omega)⟩
      rcases Nat.eq_or_lt_of_le hj with rfl | hj
      · exact hused
      · exact hin j hj hj'
    · rw [if_neg hused]
      refine ⟨le_refl i, Nat.le_add_right i _, fun j hj hj' => ?_, fun _ => by simpa using hused⟩
      exact absurd hj' (Nat.not_lt.mpr hj)

theorem qno_le (q : Nat → MeterVal) : qno q ≤ maxQnoMeterVal := by
  have h := (qnoLoop_spec q maxQnoMeterVal 0).2.1
  rwa [Nat.zero_add] at h

theorem used_of_lt_qno {q : Nat → MeterVal} {i : Nat} (h : i < qno q) :
    (q i).meterValFlg ≠ 0 :=
  (qnoLoop_spec q maxQnoMeterVal 0).2.2.1 i (Nat.zero_le i) h

theorem free_at_qno {q : Nat → MeterVal} (h : qno q < maxQnoMeterVal) :
    (q (qno q)).meterValFlg = 0 :=
  (qnoLoop_spec q maxQnoMeterVal 0).2.2.2 (by rwa [Nat.zero_add])

/-- The number of leading entries in use is all the search depends on. -/
theorem qno_eq_of {q : Nat → MeterVal} {n : Nat} (hn : n ≤ maxQnoMeterVal)
    (hin : ∀ i < n, (q i).meterValFlg ≠ 0)
    (hout : n < maxQnoMeterVal → (q n).meterValFlg = 0) : qno q = n := by
  rcases Nat.lt_trichotomy (qno q) n with h | h | h
  · exact absurd (free_at_qno (lt_of_lt_of_le h hn)) (hin _ h)
  · exact h
  · exact absurd (hout (lt_of_lt_of_le h (qno_le q))) (used_of_lt_qno h)

/-- The entry a sample becomes. -/
def added (c : Charger) (k : SampleClock) (meterValType : Nat) : MeterVal :=
  (addMeterValQ c k meterValType).meterQ (min (qno c.meterQ) (maxQnoMeterVal - 1))

/-- The sample a call takes: all its fields, from this call. -/
def sampleOf (c : Charger) (k : SampleClock) (ty : Nat) : MeterVal :=
  sampleBody c (sampleHead c k ty .zero)

section Add
variable {c : Charger} {k : SampleClock} {ty : Nat}

theorem addMeterValQ_free (h : qno c.meterQ < maxQnoMeterVal) (i : Nat) :
    (addMeterValQ c k ty).meterQ i =
      if i = qno c.meterQ then sampleBody c (sampleHead c k ty (c.meterQ i)) else c.meterQ i := by
  unfold addMeterValQ
  dsimp only
  rw [if_neg (Nat.ne_of_lt h)]

theorem addMeterValQ_full (h : qno c.meterQ = maxQnoMeterVal) {i : Nat}
    (hi : i < maxQnoMeterVal) :
    (addMeterValQ c k ty).meterQ i =
      if i < maxQnoMeterVal - 1 then c.meterQ (i + 1) else sampleHead c k ty (c.meterQ i) := by
  unfold addMeterValQ
  dsimp only
  rw [if_pos h]
  by_cases hlast : i < maxQnoMeterVal - 1
  · rw [if_pos hlast, if_pos hlast]
  · rw [if_neg hlast, if_neg hlast, if_pos (by omega)]

theorem qno_add (hp : Packed c.meterQ) (hty : ty ≠ 0) :
    qno (addMeterValQ c k ty).meterQ = min (qno c.meterQ + 1) maxQnoMeterVal := by
  rcases Nat.lt_or_eq_of_le (qno_le c.meterQ) with hfree | hfull
  · rw [Nat.min_eq_left hfree]
    refine qno_eq_of hfree (fun i hi => ?_) (fun hn => ?_)
    · rw [addMeterValQ_free hfree]
      split
      · exact hty
      · exact used_of_lt_qno (by omega)
    · rw [addMeterValQ_free hfree, if_neg (by omega)]
      exact hp _ (Nat.le_succ _) hn
  · rw [hfull, Nat.min_eq_right (Nat.le_succ _)]
    refine qno_eq_of (le_refl _) (fun i hi => ?_) (fun h => absurd h (Nat.lt_irrefl _))
    rw [addMeterValQ_full hfull hi]
    split
    · exact used_of_lt_qno (by omega)
    · exact hty

/-- On a free entry nothing of the old one is kept. -/
theorem added_free (h : qno c.meterQ < maxQnoMeterVal) : added c k ty = sampleOf c k ty := by
  unfold added
  rw [Nat.min_eq_left (by omega), addMeterValQ_free h, if_pos rfl]
  rfl

/-- **`Add_MeterVal_Q` pushes.** -/
theorem queued_add (hp : Packed c.meterQ) (hty : ty ≠ 0) :
    queued (addMeterValQ c k ty).meterQ =
      DropQueue.push maxQnoMeterVal (queued c.meterQ) (added c k ty) := by
  unfold DropQueue.push
  rw [queued_length]
  rcases Nat.lt_or_eq_of_le (qno_le c.meterQ) with hfree | hfull
  · rw [if_pos hfree]
    unfold queued added
    rw [qno_add hp hty, Nat.min_eq_left hfree, List.range_succ, List.map_append,
      Nat.min_eq_left (by omega)]
    congr 1
    refine List.map_congr_left fun i hi => ?_
    rw [addMeterValQ_free hfree, if_neg (Nat.ne_of_lt (List.mem_range.mp hi))]
  · rw [if_neg (by omega)]
    unfold queued added
    rw [qno_add hp hty, hfull, Nat.min_eq_right (Nat.le_succ _), Nat.min_eq_right (by decide)]
    -- five entries: four moved down, one new
    have hmove : ∀ i, i < maxQnoMeterVal - 1 →
        (addMeterValQ c k ty).meterQ i = c.meterQ (i + 1) := fun i hi => by
      rw [addMeterValQ_full hfull (by omega), if_pos hi]
    show [_, _, _, _, _] = [_, _, _, _, _]
    rw [hmove 0 (by decide), hmove 1 (by decide), hmove 2 (by decide), hmove 3 (by decide)]
    rfl

theorem packed_add (hp : Packed c.meterQ) (hty : ty ≠ 0) :
    Packed (addMeterValQ c k ty).meterQ := by
  intro i hi hlt
  rw [qno_add hp hty] at hi
  have hfree : qno c.meterQ < maxQnoMeterVal := by omega
  rw [addMeterValQ_free hfree, if_neg (by omega)]
  exact hp i (by omega) hlt

end Add

/-- **`Reset_MeterVal_Q` empties the queue.** -/
theorem queued_reset (c : Charger) : queued (resetMeterValQ c).meterQ = [] := by
  have hqno : qno (resetMeterValQ c).meterQ = 0 := by
    refine qno_eq_of (Nat.zero_le _) (fun i hi => absurd hi (Nat.not_lt_zero i)) (fun hpos => ?_)
    unfold resetMeterValQ
    dsimp only
    split
    · rfl
    · rename_i h
      have hqno : qno c.meterQ = 0 := Nat.eq_zero_of_not_pos h
      have hfree := free_at_qno (hqno ▸ hpos)
      rwa [hqno] at hfree
  simp [queued, hqno]

theorem packed_reset {c : Charger} (hp : Packed c.meterQ) : Packed (resetMeterValQ c).meterQ := by
  intro i _ hlt
  unfold resetMeterValQ
  dsimp only
  split
  · rfl
  · exact hp i (by omega) hlt

/-! ## What a frame carries of it

A frame carries a sample if the text of its entry stands somewhere in the frame. The texts hold
no zero, so nothing of them is lost where the source takes the string for the contents of a
property. -/

theorem nulFree_sampleText {context : List Char} (h : NulFree context) (v : MeterVal) :
    NulFree (sampleText context v) := by
  have hlit : ∀ s ∈ ["\x7b\"value\":\"", "\",\"measurand\":\"", "\",\"context\":\"",
      "\",\"unit\":\"", "\"\x7d", "\x7b\"timestamp\":\"", "\",\"sampledValue\":[", "]\x7d",
      "Energy.Active.Import.Register", "Current.Export", "Voltage", "Wh", "A", "V"],
      NulFree (String.toList s) := by decide
  unfold sampleText
  simp only [nulFree_append, nulFree_cons, nulFree_cstr, nulFree_dec, h, and_true]
  simp only [List.forall_mem_cons] at hlit
  obtain ⟨h₁, h₂, h₃, h₄, h₅, h₆, h₇, h₈, h₉, h₁₀, h₁₁, h₁₂, h₁₃, h₁₄, -⟩ := hlit
  simp only [h₁, h₂, h₃, h₄, h₅, h₆, h₇, h₈, h₉, h₁₀, h₁₁, h₁₂, h₁₃, h₁₄, and_self, true_and,
    and_true]
  decide

theorem nulFree_entryText {v : MeterVal} {t : List Char} (h : entryText v = some t) :
    NulFree t := by
  unfold entryText at h
  split at h
  · obtain rfl := Option.some.inj h
    exact nulFree_sampleText (by decide) v
  · split at h
    · obtain rfl := Option.some.inj h
      exact nulFree_sampleText (by decide) v
    · exact absurd h (by simp)

theorem nulFree_sampledLoop (q : Nat → MeterVal) (count k i : Nat) :
    NulFree (sampledLoop q count k i) := by
  induction k generalizing i with
  | zero => exact nulFree_nil
  | succ k ih =>
    unfold sampledLoop
    split
    · exact nulFree_nil
    · rename_i t ht
      rw [nulFree_append, nulFree_append]
      refine ⟨⟨nulFree_entryText ht, ?_⟩, ih (i + 1)⟩
      split <;> decide

/-- The loop prints every entry that it reaches: one before which, and at which, every entry
has a text. -/
theorem sampledLoop_infix (q : Nat → MeterVal) (count : Nat) {k i j : Nat} (hj : j < k)
    (htext : ∀ l ≤ j, (entryText (q (i + l))).isSome) :
    ∃ t, entryText (q (i + j)) = some t ∧ t <:+: sampledLoop q count k i := by
  induction k generalizing i j with
  | zero => exact absurd hj (Nat.not_lt_zero j)
  | succ k ih =>
    obtain ⟨t, ht⟩ := Option.isSome_iff_exists.mp (htext 0 (Nat.zero_le j))
    rw [Nat.add_zero] at ht
    have hloop : sampledLoop q count (k + 1) i =
        t ++ (if i + 1 < count then [','] else []) ++ sampledLoop q count k (i + 1) := by
      rw [sampledLoop, ht]
    cases j with
    | zero =>
      refine ⟨t, ht, ?_⟩
      rw [hloop, List.append_assoc]
      exact List.infix_append' [] t _
    | succ j =>
      obtain ⟨u, hu, hinfix⟩ := ih (Nat.lt_of_succ_lt_succ hj) (fun l hl => by
        have := htext (l + 1) (Nat.succ_le_succ hl)
        rwa [show i + (l + 1) = i + 1 + l by omega] at this)
      refine ⟨u, by rwa [show i + (j + 1) = i + 1 + j by omega], ?_⟩
      rw [hloop]
      exact hinfix.trans (List.suffix_append _ _).isInfix

theorem meterValCount_eq {q : Nat → MeterVal} (hp : Packed q) : meterValCount q = qno q := by
  unfold meterValCount
  have hsplit : List.range maxQnoMeterVal =
      List.range (qno q) ++ (List.range (maxQnoMeterVal - qno q)).map (qno q + ·) := by
    rw [← List.range_add, Nat.add_sub_cancel' (qno_le q)]
  rw [hsplit, List.countP_append, List.countP_eq_length.mpr, List.countP_eq_zero.mpr]
  · simp
  · intro i hi
    obtain ⟨j, hj, rfl⟩ := List.mem_map.mp hi
    have hfree := hp (qno q + j) (Nat.le_add_right _ _) (by have := List.mem_range.mp hj; omega)
    simpa using hfree
  · intro i hi
    simpa using used_of_lt_qno (List.mem_range.mp hi)

/-- **When every queued sample has a text, a frame carries them all.** -/
theorem sampledValueData_infix {q : Nat → MeterVal} (hp : Packed q)
    (htext : ∀ v ∈ queued q, (entryText v).isSome) {v : MeterVal} (hv : v ∈ queued q) :
    ∃ t, entryText v = some t ∧ t <:+: cstr (sampledValueData q) := by
  obtain ⟨i, hi, rfl⟩ := mem_queued.mp hv
  unfold sampledValueData
  rw [meterValCount_eq hp, cstr_of_nulFree (nulFree_sampledLoop _ _ _ _)]
  obtain ⟨t, ht, hinfix⟩ := sampledLoop_infix q (qno q) (i := 0) hi fun l hl => by
    rw [Nat.zero_add]
    exact htext _ (mem_queued.mpr ⟨l, lt_of_le_of_lt hl hi, rfl⟩)
  rw [Nat.zero_add] at ht
  exact ⟨t, ht, hinfix⟩

/-- The CALLs that carry samples. -/
def CpReqAction.isCarrier (a : CpReqAction) : Bool := a = .meterVal || a = .stopTs

/-- The builders that set samples, as far as the samples go. -/
theorem makeDataCmdMeterVal_eq (c : Charger) (tx : TxBuf) :
    ∃ t : TxBuf, t.msg.payloadLen = 3 ∧
      makeDataCmdMeterVal c tx = t.setSamples 2 "meterValue".toList c.meterQ := by
  unfold makeDataCmdMeterVal
  exact ⟨_, rfl, rfl⟩

theorem makeDataCmdStopTs_eq (c : Charger) (trId uid : UInt64) (tx : TxBuf) :
    ∃ (t : TxBuf) (n : Nat), makeDataCmdStopTs c trId uid tx =
      (t.setSamples (n + 1) "transactionData".toList c.meterQ).setLen (n + 2) := by
  unfold makeDataCmdStopTs
  exact ⟨_, _, rfl⟩

theorem setSamples_infix (t tx : TxBuf) {i : Nat} {name : List Char} {q : Nat → MeterVal}
    (hp : t.msg.payload = (tx.setSamples i name q).msg.payload)
    (hs : t.sub = (tx.setSamples i name q).sub) (hi : i < t.msg.payloadLen) (rxId : List Char) :
    cstr (sampledValueData q) <:+: makeOcppMsg t rxId := by
  have hentry : t.msg.payload i = { tx.msg.payload i with
      propertyName := name, dataType := .arr, subPayload := .tx, subPayloadLen := 1 } := by
    rw [hp]
    exact setAt_same ..
  have hsub : (t.sub 0).propertyContants = sampledValueData q := by
    rw [hs]
    simp [TxBuf.setSamples]
  have hshows := makeOcppMsg_shows_arr t rxId hi (by rw [hentry]) (by rw [hentry]) (by rw [hentry])
  rwa [hsub] at hshows

theorem Call.build_carries {a : Call} {k : Clock} {c : Charger} {tx tx' : TxBuf}
    (h : a.build k c tx = some tx') (ha : a.action.isCarrier = true) (rxId : List Char) :
    cstr (sampledValueData c.meterQ) <:+: makeOcppMsg tx' rxId := by
  have hmeter : cstr (sampledValueData c.meterQ) <:+: makeOcppMsg (makeDataCmdMeterVal c tx) rxId := by
    obtain ⟨t, hlen, heq⟩ := makeDataCmdMeterVal_eq c tx
    rw [heq]
    have hi : 2 < (t.setSamples 2 "meterValue".toList c.meterQ).msg.payloadLen := by
      show 2 < t.msg.payloadLen
      omega
    exact setSamples_infix (t.setSamples 2 "meterValue".toList c.meterQ) t rfl rfl hi rxId
  cases a with
  | meterVal | trigMeter =>
    simp only [Call.build, Option.some.injEq] at h
    subst h
    exact hmeter
  | stopTs =>
    simp only [Call.build, Option.map_eq_some_iff] at h
    obtain ⟨d, _, rfl⟩ := h
    obtain ⟨t, n, heq⟩ := makeDataCmdStopTs_eq c (c.cs.bTrId d) k.uid tx
    rw [heq]
    exact setSamples_infix ((t.setSamples (n + 1) "transactionData".toList c.meterQ).setLen (n + 2))
      t rfl rfl (Nat.lt_succ_self (n + 1)) rxId
  | boot | stat | dataTransJ1 | auth | mbrUntpc | startTs | chargeAmt | q1 | q2 | trigDiag
  | trigFw | trigHb | trigStat | diagStat | fwStat | hb | cpSts =>
    exact absurd ha (by simp [Call.action, CpReqAction.isCarrier])

/-! ## One step

For the queue there are three kinds of steps: it stays, one sample is pushed, or it is emptied by
an acknowledgement. The case says as well which observation goes with it, so that the induction
over a run can read the queue off the log. -/

def Obs.isSample : Obs → Bool
  | .sampled _ _ _ => true
  | _ => false

/-- The observation acknowledges a frame that carries samples. -/
def Obs.isAck : Obs → Bool
  | .answered _ _ m _ => m.actionCode.isCarrier
  | _ => false

/-- Only the two acknowledgements touch the queue. -/
theorem rxCallResDataProc_meterQ {rx : RxBuf} {m : TxMsg} {c c' : Charger} {a : CpReqAction}
    (h : rxCallResDataProc rx m c = some c') (hact : rx.msg.actionCode = .cp a) :
    c'.meterQ = if a.isCarrier then (resetMeterValQ c).meterQ else c.meterQ := by
  simp only [rxCallResDataProc, hact] at h
  cases a with
  | auth => exact (Charger.billing_eq (dataProcCmdAuth_frame h).1).2.1
  | boot => exact (Charger.billing_eq (dataProcCmdBoot_billing h)).2.1
  | startTs => exact (dataProcCmdStartTs_frame h).2.2.2.1
  | stat => exact (Charger.billing_eq (dataProcCmdStat_billing h)).2.1
  | stopTs => exact (dataProcCmdStopTs_frame h).2.1
  | meterVal | hb | dataTrans | diagStat | fwStat | none =>
    simp only [Option.some.injEq] at h
    subst h; rfl

/-- **What a step does to the queue**: nothing, one push, or the reset of an
acknowledgement. -/
inductive QueueStep (s s' : Client) (o : List Obs) : Prop
  | kept (hq : s'.cp.meterQ = s.cp.meterQ)
      (ho : ∀ ob ∈ o, ob.isSample = false ∧ ob.isAck = false)
  | added (c : Charger) (k : SampleClock) (ty : Nat) (o' : List Obs)
      (ho : o = .sampled c ty k :: o') (hc : c.meterQ = s.cp.meterQ) (hty : ty ≠ 0)
      (hq : s'.cp.meterQ = (addMeterValQ c k ty).meterQ)
      (ho' : ∀ ob ∈ o', ob.isSample = false ∧ ob.isAck = false)
  | reset (frame : List Char) (rx : RxMsg) (ho : o = [.answered frame rx s.callTxMsg s.cp])
      (hw : s.bWaitResFlg = true) (hcar : s.callTxMsg.actionCode.isCarrier = true)
      (hq : s'.cp.meterQ = (resetMeterValQ s.cp).meterQ)

/-- A branch keeps the queue or samples into it, and says so. -/
theorem Call.queueStep {s s' : Client} (a : Call) {k : Clock} {f : Bool} {t : TrigMsgStat}
    {sent : List Obs} (hcp : s'.cp = a.finish (a.prepare k (s.cp.pulse f t)))
    (hsent : ∀ ob ∈ sent, ob.isSample = false ∧ ob.isAck = false) :
    QueueStep s s' (a.samples k s.cp ++ sent) := by
  cases a with
  | stopTs =>
    exact .added _ k.sample meterValTransType sent rfl rfl (by decide) (by rw [hcp]; rfl) hsent
  | trigMeter =>
    exact .added _ k.sample meterValTrigType sent rfl rfl (by decide) (by rw [hcp]; rfl) hsent
  | boot | meterVal | stat | dataTransJ1 | auth | mbrUntpc | startTs | chargeAmt | q1 | q2
  | trigDiag | trigFw | trigHb | trigStat | diagStat | fwStat | hb | cpSts =>
    exact .kept (by rw [hcp]; rfl) hsent

theorem Client.Ticked.queueStep {s s' : Client} {k : Clock} {sendOk : Bool} {o : List Obs}
    (h : s.Ticked k sendOk s' o) : QueueStep s s' o := by
  cases h with
  | idle f t v w hs ho hsen => subst hs ho; exact .kept rfl (by simp)
  | timeout w hw hs ho => subst hs ho; exact .kept rfl (by simp)
  | failed a f t tx d v hw hg hb hs ho =>
    subst ho
    have hstep : QueueStep s s' (a.samples k s.cp ++ []) :=
      a.queueStep (f := f) (t := t) (by rw [hs]) (by simp)
    rwa [List.append_nil] at hstep
  | called a f t tx d v hw hg hb hs ho =>
    subst ho
    exact a.queueStep (f := f) (t := t) (by rw [hs]) (by simp [Obs.isSample, Obs.isAck])

theorem Client.Received.queueStep {s s' : Client} {frame : List Char} {o : List Obs}
    (h : s.Received frame s' o) : QueueStep s s' o := by
  cases h with
  | dropped rx d b hs ho => subst hs ho; exact .kept rfl (by simp)
  | served rx d b cmd j c tx tx' rx' sent hc htx hs hsent ho =>
    subst hs ho
    refine .kept (Charger.billing_eq (rxCallDataProc_ok hc).billing).2.1 ?_
    rcases hsent with rfl | rfl <;> simp [Obs.isSample, Obs.isAck]
  | answered rx d c hw htype hact hid htext hparse hc hs ho =>
    subst hs ho
    have hq := rxCallResDataProc_meterQ hc hact
    by_cases hcar : s.callTxMsg.actionCode.isCarrier = true
    · rw [if_pos hcar] at hq
      exact .reset frame rx.msg rfl hw hcar hq
    · rw [if_neg hcar] at hq
      exact .kept hq (by simpa [Obs.isSample, Obs.isAck] using hcar)

theorem step_queueStep {s s' : Client} {e : Event} {o : List Obs} (h : step s e = some (s', o)) :
    QueueStep s s' o := by
  cases step_cases h with
  | quiet f rx b hs ho hrun => subst hs ho; exact .kept rfl (by simp)
  | raised k he hreq hs ho => subst hs ho; exact .kept rfl (by simp [Obs.isSample, Obs.isAck])
  | sampled k f ty he hty hdue hs ho =>
    subst hs ho
    exact .added _ k.sample ty [] rfl rfl hty rfl (by simp)
  | connected k sendOk he hc hs ho => subst hs ho; exact .kept rfl (by simp)
  | ticked k sendOk connectOk he hc ht => exact ht.queueStep
  | received frame j k sendOk he hc hr => exact hr.queueStep
  | env w c he hw hs =>
    subst hs
    refine .kept (EnvWrite.apply_ok hw).meterQ ?_
    rcases EnvWrite.apply_obs hw with ho | ho <;> rw [show o = _ from ho] <;>
      simp [Obs.isSample, Obs.isAck]

/-- A frame that carries samples shows the queue of the charger it was sent from. -/
theorem step_carries {s s' : Client} {e : Event} {o : List Obs} {frame : List Char} {m : TxMsg}
    {c : Charger} (h : step s e = some (s', o)) (hmem : .sent frame m c ∈ o)
    (hm : m.msgType = msgTypeCall) (hcar : m.actionCode.isCarrier = true) :
    cstr (sampledValueData c.meterQ) <:+: frame := by
  obtain ⟨k, a, f, t, tx, hg, hb, rfl, rfl, rfl, -⟩ := step_sends h hmem hm
  have hact : (afterMakeOcppMsg tx).msg.actionCode = a.action := (Call.build_header hb).2
  rw [hact] at hcar
  have hq : (a.finish (a.prepare k (s.cp.pulse f t))).meterQ =
      (a.prepare k (s.cp.pulse f t)).meterQ := by
    cases a <;> rfl
  rw [hq]
  exact Call.build_carries hb hcar _

/-! ## The outstanding frame

Between a CALL and its answer the queue may grow. What has to be remembered is the queue that the
frame has shown, and whether something was added since; both are in the log. -/

/-- A sample was added since the last CALL was transmitted. -/
def addedSinceCall (log : List Obs) : Bool :=
  log.foldl (fun b ob => match ob with
    | .sampled _ _ _ => true
    | .sent _ m _ => b && m.msgType ≠ msgTypeCall
    | _ => b) false

theorem addedSinceCall_append (log o : List Obs) (hs : ∀ ob ∈ o, ob.isSample = false)
    (hc : acts o = []) : addedSinceCall (log ++ o) = addedSinceCall log := by
  unfold addedSinceCall
  rw [List.foldl_append]
  generalize List.foldl _ false log = b
  induction o generalizing b with
  | nil => rfl
  | cons ob o ih =>
    have hob : ob.isSample = false := hs ob List.mem_cons_self
    have hrest : acts o = [] := by
      have hcons := acts_append [ob] o
      rw [List.singleton_append, hc] at hcons
      exact (List.append_eq_nil_iff.mp hcons.symm).2
    rw [List.foldl_cons]
    cases ob with
    | sampled c ty k => exact absurd hob (by simp [Obs.isSample])
    | sent frame m c =>
      have hm : m.msgType ≠ msgTypeCall := fun hm =>
        absurd hc (List.ne_nil_of_mem (mem_acts_of_call List.mem_cons_self hm))
      simp only [hm, ne_eq, not_false_eq_true, decide_true, Bool.and_true]
      exact ih (fun x hx => hs x (List.mem_cons_of_mem _ hx)) hrest b
    | answered | served | startRaised | stopRaised =>
      exact ih (fun x hx => hs x (List.mem_cons_of_mem _ hx)) hrest b

theorem addedSinceCall_sample (log o : List Obs) {c : Charger} {k : SampleClock} {ty : Nat}
    (hs : ∀ ob ∈ o, ob.isSample = false) (hc : acts o = []) :
    addedSinceCall (log ++ .sampled c ty k :: o) = true := by
  have hsplit : log ++ .sampled c ty k :: o = (log ++ [.sampled c ty k]) ++ o := by simp
  rw [hsplit, addedSinceCall_append _ _ hs hc]
  simp [addedSinceCall]

/-- What the history has of the CALL that is outstanding: where it was transmitted, that its
frame shows the queue of that moment, and that the queue is still the same unless a sample
was added. -/
def Outstanding (s : Client) (log : List Obs) : Prop :=
  ∃ l frame c l', log = l ++ .sent frame s.callTxMsg c :: l' ∧
    cstr (sampledValueData c.meterQ) <:+: frame ∧
    (addedSinceCall log = false →
      s.cp.meterQ = c.meterQ ∧ ∀ ob ∈ l', ob.isSample = false)

theorem outstanding_step {s s' : Client} {log o : List Obs} {e : Event}
    (hi : s.bWaitResFlg = true → s.callTxMsg.actionCode.isCarrier = true → Outstanding s log)
    (h : step s e = some (s', o)) (hw : s'.bWaitResFlg = true)
    (hcar : s'.callTxMsg.actionCode.isCarrier = true) : Outstanding s' (log ++ o) := by
  cases step_moved h with
  | answer _ _ hw' => exact absurd (hw.symm.trans hw') (by simp)
  | giveUp _ _ hw' => exact absurd (hw.symm.trans hw') (by simp)
  | call ho _ _ =>
    have hmem : Act.call s'.callTxMsg ∈ acts o := by rw [ho]; exact List.mem_cons_self
    -- the call itself starts the account, and no sample comes behind it in its own step
    obtain ⟨frame, c, hob, hm⟩ := mem_of_call_mem_acts hmem
    have hshow := step_carries h hob hm hcar
    obtain ⟨k, a, f, t, tx, -, -, -, -, -, hcp, -, ho'⟩ := step_sends h hob hm
    exact ⟨log ++ a.samples k s.cp, frame, c, [], by rw [ho', List.append_assoc], hshow,
      fun _ => ⟨by rw [hcp], fun ob hob => absurd hob List.not_mem_nil⟩⟩
  | same ho hs =>
    have hout : s.bWaitResFlg = true ∧ s.callTxMsg = s'.callTxMsg := by
      rw [Client.outstanding_of_waiting hw] at hs
      unfold Client.outstanding at hs
      split at hs
      · exact ⟨‹_›, (Option.some.inj hs).symm⟩
      · exact absurd hs (by simp)
    obtain ⟨l, frame, c, l', hlog, hshow, hsame⟩ := hi hout.1 (hout.2 ▸ hcar)
    refine ⟨l, frame, c, l' ++ o, by rw [hlog, ← hout.2]; simp, hshow, fun hno => ?_⟩
    -- the call was out before: either no sample was added, or the count says that one was
    cases step_queueStep h with
    | kept hq hobs =>
      rw [addedSinceCall_append log o (fun ob hob => (hobs ob hob).1) ho] at hno
      obtain ⟨hqc, hl'⟩ := hsame hno
      refine ⟨hq.trans hqc, fun ob hob => ?_⟩
      exact (List.mem_append.mp hob).elim (hl' ob) (fun hob => (hobs ob hob).1)
    | added c₁ k ty o' ho' hc hty hq hobs =>
      subst ho'
      have hacts : acts o' = [] := ho
      rw [addedSinceCall_sample log o' (fun ob hob => (hobs ob hob).1) hacts] at hno
      exact absurd hno (by simp)
    | reset frame rx ho' hw₁ hcar₁ hq =>
      rw [ho'] at ho
      exact absurd ho (by simp [acts, Obs.act])

/-! ## The fate of a sample

The invariant gives every sample of the log its fate. A push moves at most the oldest one, from
queued to displaced; an acknowledgement moves all that are queued, and needs `ackCovers` to move
them to acknowledged. -/

/-- The sample was in a MeterValues or StopTransaction frame that was answered. -/
def Acknowledged (v : MeterVal) (l : List Obs) : Prop :=
  ∃ l₁ frame m c l₂ fr rx c' l₃ t,
    l = l₁ ++ .sent frame m c :: (l₂ ++ .answered fr rx m c' :: l₃) ∧
      m.actionCode.isCarrier = true ∧ entryText v = some t ∧ t <:+: frame

/-- The sample was the oldest of a full queue when another was added. -/
def Displaced (v : MeterVal) (l : List Obs) : Prop :=
  ∃ l₁ c ty k l₂, l = l₁ ++ .sampled c ty k :: l₂ ∧
    (queued c.meterQ).length = maxQnoMeterVal ∧ (queued c.meterQ).head? = some v

/-- What became of an observed sample by the time of `s`, given what was observed after it. The
sample is what was measured, and it found an entry free. -/
def SampleFate (s : Client) (ob : Obs) (rest : List Obs) : Prop :=
  match ob with
  | .sampled c ty k =>
    qno c.meterQ < maxQnoMeterVal →
      sampleOf c k ty ∈ queued s.cp.meterQ ∨ Acknowledged (sampleOf c k ty) rest ∨
        Displaced (sampleOf c k ty) rest
  | _ => True

/-- **The acknowledgement covers the queue**: the frame it acknowledges was sent after the last
sample, and every queued sample has a text. -/
def ackCovers (l : List Obs) (ob : Obs) : Bool :=
  match ob with
  | .answered _ _ m c =>
    !m.actionCode.isCarrier ||
      (!addedSinceCall l && (queued c.meterQ).all fun v => (entryText v).isSome)
  | _ => true

theorem Acknowledged.append {v : MeterVal} {l : List Obs} (h : Acknowledged v l) (o : List Obs) :
    Acknowledged v (l ++ o) := by
  obtain ⟨l₁, frame, m, c, l₂, fr, rx, c', l₃, t, rfl, hcar, ht, hin⟩ := h
  exact ⟨l₁, frame, m, c, l₂, fr, rx, c', l₃ ++ o, t, by simp, hcar, ht, hin⟩

theorem Displaced.append {v : MeterVal} {l : List Obs} (h : Displaced v l) (o : List Obs) :
    Displaced v (l ++ o) := by
  obtain ⟨l₁, c, ty, k, l₂, rfl, hlen, hhead⟩ := h
  exact ⟨l₁, c, ty, k, l₂ ++ o, by simp, hlen, hhead⟩

/-- A sample that no sample follows after `y` came before `y`. -/
theorem before_of_not_after {x y : Obs} {l₁ l₂ l r : List Obs} (hx : x.isSample = true)
    (hxy : x ≠ y) (hr : ∀ ob ∈ r, ob.isSample = false) (h : l₁ ++ x :: l₂ = l ++ y :: r) :
    ∃ m, l₂ = m ++ y :: r := by
  rcases List.append_eq_append_iff.mp h with ⟨m, -, hm⟩ | ⟨m, -, hm⟩
  · cases m with
    | nil => exact absurd (List.cons.inj hm).1 hxy
    | cons z m => exact ⟨m, (List.cons.inj hm).2⟩
  · cases m with
    | nil => exact absurd (List.cons.inj hm).1.symm hxy
    | cons z m =>
      have hmem : x ∈ r := by
        rw [(List.cons.inj hm).2]
        simp
      exact absurd hx (by simp [hr x hmem])

/-- The invariant. -/
structure SampleInv (s : Client) (log : List Obs) : Prop where
  packed : Packed s.cp.meterQ
  out : s.bWaitResFlg = true → s.callTxMsg.actionCode.isCarrier = true → Outstanding s log
  fate : Trace.Ahead (SampleFate s) log

/-- A queue that keeps its entries keeps every fate. -/
theorem SampleFate.mono {s s' : Client} {ob : Obs} {rest : List Obs} (o : List Obs)
    (h : SampleFate s ob rest)
    (hq : ∀ v ∈ queued s.cp.meterQ, v ∈ queued s'.cp.meterQ ∨ Acknowledged v (rest ++ o) ∨
      Displaced v (rest ++ o)) : SampleFate s' ob (rest ++ o) := by
  cases ob with
  | sampled c ty k =>
    intro hfree
    rcases h hfree with hin | hack | hdis
    · exact hq _ hin
    · exact .inr (.inl (hack.append o))
    · exact .inr (.inr (hdis.append o))
  | sent | answered | served | startRaised | stopRaised => trivial

/-- An observation that is not a sample has no fate to prove. -/
theorem SampleFate.of_not_sample {s : Client} {ob : Obs} {rest : List Obs}
    (h : ob.isSample = false) : SampleFate s ob rest := by
  cases ob with
  | sampled => exact absurd h (by simp [Obs.isSample])
  | sent | answered | served | startRaised | stopRaised => trivial

theorem sampleInv_step {s s' : Client} {log o : List Obs} {e : Event} (hi : SampleInv s log)
    (h : step s e = some (s', o))
    (hcov : ∀ l ob l', o = l ++ ob :: l' → ackCovers (log ++ l) ob = true) :
    SampleInv s' (log ++ o) := by
  obtain ⟨hp, hout, hfate⟩ := hi
  refine ⟨?_, outstanding_step hout h, ?_⟩
  · cases step_queueStep h with
    | kept hq _ => rw [hq]; exact hp
    | added c k ty o' _ hc hty hq _ => rw [hq]; exact packed_add (hc ▸ hp) hty
    | reset _ _ _ _ _ hq => rw [hq]; exact packed_reset hp
  · cases step_queueStep h with
    | kept hq ho =>
      refine hfate.append (fun l ob l' _ hold => hold.mono o fun v hv => .inl (hq ▸ hv)) ?_
      intro l ob l' heq
      exact .of_not_sample (ho ob (by simp [heq])).1
    | added c k ty o' ho hc hty hq ho' =>
      have hpush := queued_add (k := k) (hc ▸ hp) hty
      refine hfate.append (fun l ob l' _ hold => hold.mono o fun v hv => ?_) ?_
      · rw [hq, hpush, hc]
        rcases DropQueue.mem_push (n := maxQnoMeterVal) (added c k ty) hv with hin | ⟨hfull, hhead⟩
        · exact .inl hin
        · refine .inr (.inr ⟨l', c, ty, k, o', by rw [ho], ?_, by rw [hc]; exact hhead⟩)
          rw [hc]
          exact le_antisymm (queued_length _ ▸ qno_le _) hfull
      · intro l ob l' heq
        cases l with
        | nil =>
          obtain ⟨rfl, rfl⟩ := List.cons.inj (ho.symm.trans heq)
          intro hfree
          left
          rw [hq, hpush, added_free hfree]
          exact DropQueue.mem_push_self ..
        | cons x l =>
          have hmem : ob ∈ o' := by
            rw [(List.cons.inj (ho.symm.trans heq)).2]
            simp
          exact .of_not_sample (ho' ob hmem).1
    | reset frame rx ho hw hcar hq =>
      -- the acknowledged frame shows every sample the reset clears
      have hcov := hcov [] _ [] ho
      simp only [ackCovers, hcar, Bool.not_true, Bool.false_or, Bool.and_eq_true,
        Bool.not_eq_true', List.append_nil, List.all_eq_true] at hcov
      obtain ⟨l₀, fr, c, r, hlog, hshow, hsame⟩ := hout hw hcar
      obtain ⟨hqc, hr⟩ := hsame hcov.1
      refine hfate.append (fun l ob l' heq hold => ?_) ?_
      · cases ob with
        | sampled c₁ ty k =>
          refine hold.mono o fun v hv => .inr (.inl ?_)
          rw [hqc] at hv
          obtain ⟨t, ht, hin⟩ := sampledValueData_infix (hqc ▸ hp)
            (fun w hw => hcov.2 w (hqc ▸ hw)) hv
          obtain ⟨m, rfl⟩ := before_of_not_after (x := .sampled c₁ ty k) rfl (by simp) hr
            (heq.symm.trans hlog)
          exact ⟨m, fr, s.callTxMsg, c, r, frame, rx, s.cp, [], t, by rw [ho]; simp, hcar, ht,
            hin.trans hshow⟩
        | sent | answered | served | startRaised | stopRaised => trivial
      · intro l ob l' heq
        have hmem : ob ∈ o := by simp [heq]
        rw [ho, List.mem_singleton] at hmem
        rw [hmem]
        trivial

/-- **The fate of a sample.** In every run in which each acknowledgement covers the queue,
every sample ever taken while an entry was free is, as it was measured, still queued, or was in
a MeterValues or StopTransaction frame sent after it was taken and answered since, or was
displaced, as the oldest of five, by a later sample. -/
theorem sample_fate {s : Client} {log : List Obs} (h : Run s log)
    (hcov : Trace.Past (fun l ob => ackCovers l ob = true) log) :
    Trace.Ahead (SampleFate s) log := by
  obtain ⟨st, now, h⟩ := h
  have hinv : Trace.Past (fun l ob => ackCovers l ob = true) log → SampleInv s log := by
    refine h.invariant (I := fun s log =>
      Trace.Past (fun l ob => ackCovers l ob = true) log → SampleInv s log) (fun _ => ?_) ?_
    · refine ⟨fun i _ _ => rfl, fun hw => absurd hw (by simp [Client.init]), ?_⟩
      intro l x l' heq
      exact absurd heq.symm (by simp)
    · intro s log e s' o ih _ hstep hcov
      exact sampleInv_step (ih hcov.left) hstep fun l ob l' heq => hcov.right heq
  exact (hinv hcov).fate

/-! ## Concrete runs -/

/-- A clock that shows minute `min` and second `sec` of the hour to the period checks. -/
def Clock.at (min sec : Nat) (uid : UInt64) : Clock :=
  { Clock.reading 20 uid with tmCheck := ⟨124, 0, 1, 0, min, sec⟩ }

/-- Connector 1 charges, and the report of it is acknowledged. -/
def chargingRun : List Event :=
  bootedRun ++
  [ .env (.setCpStatus .charging 1), .netRun (.reading 14 5) true true, arrives "[3,\"5\",\x7b\x7d]",
    sceneAt 100 ]

/-- A sample that found an entry free. -/
def Obs.tookFree : Obs → Bool
  | .sampled c _ _ => qno c.meterQ < maxQnoMeterVal
  | _ => false

set_option maxRecDepth 20000 in
/-- A sample is taken, sent and acknowledged. -/
theorem sample_fate_acknowledged :
    ∃ s log, Run s log ∧ queued s.cp.meterQ = [] ∧ log.any Obs.tookFree = true ∧
      Trace.Ahead (SampleFate s) log := by
  let p : Client → List Obs → Bool := fun s log =>
    (queued s.cp.meterQ).isEmpty && log.any Obs.tookFree && Trace.checkPast ackCovers [] log
  have hrun : (Trace.exec step (fun _ _ _ => true) (Client.init 3 0) []
      (chargingRun ++ [.sample (.at 1 0 7), .netRun (.at 3 0 8) true true,
        arrives "[3,\"7\",\x7b\x7d]"])).any (fun r => p r.1 r.2) = true := by decide +kernel
  obtain ⟨s, log, h, hp⟩ := exists_run_of_exec hrun
  simp only [p, Bool.and_eq_true, List.isEmpty_iff] at hp
  obtain ⟨⟨hempty, hsample⟩, hcov⟩ := hp
  refine ⟨s, log, h, hempty, hsample, sample_fate h ?_⟩
  intro l ob l' heq
  exact Trace.past_of_checkPast hcov l ob l' heq

/-- One sample at the start of minute `min`, and the check that ends its period. -/
def sampleMinute (min : Nat) : List Event :=
  [ .sample (.at min 0 (UInt64.ofNat min)), .sample (.at min 59 0) ]

/-- The first sample of the history is no longer queued. -/
def firstSampleGone (s : Client) (log : List Obs) : Bool :=
  match log.dropWhile fun ob => !ob.isSample with
  | .sampled c ty k :: _ => sampleOf c k ty ∉ queued s.cp.meterQ
  | _ => false

set_option maxRecDepth 20000 in
/-- **A sample that is lost**: six samples while nothing can be sent. The first is gone, and
nothing was ever acknowledged. -/
theorem sample_lost :
    ∃ s log, Run s log ∧ (∀ ob ∈ log, ob.isAck = false) ∧
      ∃ l c ty k l', log = l ++ .sampled c ty k :: l' ∧
        sampleOf c k ty ∉ queued s.cp.meterQ := by
  let p : Client → List Obs → Bool := fun s log =>
    log.all (fun ob => !ob.isAck) && firstSampleGone s log
  have hrun : (Trace.exec step (fun _ _ _ => true) (Client.init 3 0) []
      (chargingRun ++ [1, 2, 3, 4, 5, 6].flatMap sampleMinute)).any
      (fun r => p r.1 r.2) = true := by decide +kernel
  obtain ⟨s, log, h, hp⟩ := exists_run_of_exec hrun
  simp only [p, Bool.and_eq_true] at hp
  refine ⟨s, log, h, fun ob hob => by simpa using List.all_eq_true.mp hp.1 ob hob, ?_⟩
  have hsplit := List.takeWhile_append_dropWhile (p := fun ob : Obs => !ob.isSample) (l := log)
  have hfirst := hp.2
  unfold firstSampleGone at hfirst
  split at hfirst
  · rename_i c ty k rest heq
    exact ⟨_, c, ty, k, rest, by rw [← heq, hsplit], by simpa using hfirst⟩
  · exact absurd hfirst (by simp)

end ChargePoint
