import ChargePoint.Lib.Journal
import ChargePoint.Correlation
import ChargePoint.Orders

/-!
# The journal of the client

What an outsider sees of the client does not tell which branch of `OCPP_CALL_Senario` built a
CALL, when a CALL was given up, when the connection was made or what another thread wrote. The
journal notes these beside the observations (`Remark`).

`journal_cases` is `step_cases` once more, with the notes: the proofs about journals take an
event apart through it.
-/

set_option autoImplicit false

namespace ChargePoint

open CStr

/-- What is noted of an event. -/
inductive Remark
  /-- a tick of the connected client, with its readings of the clock -/
  | ticked (k : Clock)
  /-- the tick built the CALL of this branch -/
  | made (a : Call)
  /-- the tick gave up the CALL that was waited for -/
  | gaveUp
  /-- a connection was made -/
  | connected
  /-- another thread wrote -/
  | wrote (w : EnvWrite)

abbrev Entry := Remark ⊕ Obs

/-- The notes on an event, from the state before it. -/
def Client.notes (s : Client) : Event → List Remark
  | .netRun k _ connectOk =>
    if s.bConnect then
      .ticked k :: match s.ocppCallSenario k with
        | some (some a, _) => [.made a]
        | some (none, t) => if s.bWaitResFlg && !t.bWaitResFlg then [.gaveUp] else []
        | none => []
    else if connectOk then [.connected] else []
  | .env w => [.wrote w]
  | .raiseStart _ | .sample _ | .linkDown | .netDown | .recv _ _ _ _ | .recvFail => []

/-- **The client with its journal.** -/
def journal : Trace.Step Client Event Entry := Trace.annotate step Client.notes

/-- A run, with its journal. -/
def Journaled (s : Client) (log : List Entry) : Prop :=
  ∃ chargingStatus now, Trace.Always journal (Client.init chargingStatus now) s log

/-- A journal is a run's. -/
theorem Journaled.run {s : Client} {log : List Entry} (h : Journaled s log) :
    Run s (Trace.observed log) := by
  obtain ⟨st, now, h⟩ := h
  exact ⟨st, now, Trace.Reach.observed h⟩

/-- Every run has a journal. -/
theorem Run.journaled {s : Client} {log : List Obs} (h : Run s log) :
    ∃ l, Journaled s l ∧ Trace.observed l = log := by
  obtain ⟨st, now, h⟩ := h
  obtain ⟨l, hl, heq⟩ := Trace.Reach.annotated Client.notes h
  exact ⟨l, ⟨st, now, hl⟩, heq⟩

/-- A computed journal that passes a check exhibits a run that passes it. -/
theorem exists_journaled_of_exec {st : UInt32} {now : Nat} {es : List Event}
    {p : Client → List Entry → Bool}
    (h : (Trace.exec journal (fun _ _ _ => true) (Client.init st now) [] es).any
      (fun r => p r.1 r.2) = true) : ∃ s log, Journaled s log ∧ p s log = true := by
  obtain ⟨s, log, hreach, hp⟩ := Trace.exists_reach_of_exec h
  exact ⟨s, log, ⟨st, now, hreach.always⟩, hp⟩

/-! ## The branch of a tick

The guard of a branch in `Steps` speaks of the charger after the pulse of the meter's clock.
`Call.Due` is the part of it that can be read off the charger before the tick: the request that
the branch is there for. -/

/-- What a branch was taken for, in the charger before the tick. -/
def Call.Due (a : Call) (c : Charger) : Prop :=
  match a with
  | .boot | .meterVal | .hb => True
  | .trigDiag | .trigFw | .trigHb | .trigMeter | .trigStat =>
    trigCall c.cs.triggerMsgStat = some a
  | .diagStat | .fwStat => lateCall c = some a
  | .cpSts => c.ocppCpStsFlg = true
  | a => firstCall c = some a

theorem firstCall_due {c : Charger} {a : Call} (h : firstCall c = some a) : a.Due c := by
  have hfirst := firstCall_isFirst h
  cases a with
  | stat | dataTransJ1 | auth | mbrUntpc | startTs | stopTs | chargeAmt | q1 | q2 => exact h
  | boot | meterVal | trigDiag | trigFw | trigHb | trigMeter | trigStat | diagStat | fwStat | hb
  | cpSts => cases hfirst

theorem trigCall_due {c : Charger} {a : Call} (h : trigCall c.cs.triggerMsgStat = some a) :
    a.Due c := by
  have htrig := h
  unfold trigCall at htrig
  split at htrig
  all_goals first
    | (cases htrig; exact h)
    | cases htrig

theorem lateCall_due {c : Charger} {a : Call} (h : lateCall c = some a) : a.Due c := by
  have hlate := h
  unfold lateCall at hlate
  split at hlate
  · cases hlate
    exact h
  · split at hlate
    all_goals first
      | (cases hlate; exact h)
      | cases hlate

theorem Client.senarioBooted_due {s t : Client} {k : Clock} {a : Call}
    (h : s.senarioBooted k = some (some a, t)) : a.Due s.cp := by
  unfold senarioBooted at h
  split at h
  · rename_i b hb
    obtain ⟨_, _, heq⟩ := Option.map_eq_some_iff.mp h
    cases heq
    exact firstCall_due hb
  · split at h
    · rename_i b hb
      obtain ⟨_, _, heq⟩ := Option.map_eq_some_iff.mp h
      cases heq
      exact trigCall_due hb
    · have hlate : lateCall s.dropTrigBoot.cp = lateCall s.cp := by
        unfold dropTrigBoot
        split
        · rfl
        · rfl
      have hsts : (s.dropTrigBoot.checkHbTime k).2.cp.ocppCpStsFlg = s.cp.ocppCpStsFlg := by
        unfold checkHbTime dropTrigBoot
        split
        · split
          · rfl
          · rfl
        · split
          · rfl
          · rfl
      dsimp only at h
      split at h
      · rename_i b hb
        obtain ⟨_, _, heq⟩ := Option.map_eq_some_iff.mp h
        cases heq
        exact lateCall_due (hlate ▸ hb)
      · split at h
        · obtain ⟨_, _, heq⟩ := Option.map_eq_some_iff.mp h
          cases heq
          trivial
        · split at h
          · rename_i hflag
            obtain ⟨_, _, heq⟩ := Option.map_eq_some_iff.mp h
            cases heq
            exact hsts.symm.trans hflag
          · cases h

/-- **A branch is taken for what stood in the charger.** -/
theorem Client.senario_due {s t : Client} {k : Clock} {a : Call}
    (h : s.ocppCallSenario k = some (some a, t)) : a.Due s.cp := by
  unfold ocppCallSenario at h
  split at h
  · cases h
  · split at h
    · dsimp only at h
      split at h
      · obtain ⟨_, _, heq⟩ := Option.map_eq_some_iff.mp h
        cases heq
        trivial
      · cases h
    · split at h
      · cases h
      · obtain ⟨_, _, heq⟩ := Option.map_eq_some_iff.mp h
        cases heq
        trivial
      · rename_i c hc
        obtain ⟨f, rfl⟩ := checkMeterTime_eq hc
        have hdue := senarioBooted_due h
        cases a <;> exact hdue

/-! ## One event

The notes are computed from the state before the event. So a journal is a run with remarks, and
every run has one. -/

/-- **What an event can have done, and what is noted of it.** -/
inductive Client.Noted (s s' : Client) (n : List Remark) (o : List Obs) : Prop
  /-- nothing but the receive buffer and the clock's flag; the connection may be lost -/
  | quiet (f : Bool) (rx : RxBuf) (b : Bool) (hb : b = true → s.bConnect = true)
      (hs : s' = { s with cp := { s.cp with checkSampledFlg := f }, rx := rx, bConnect := b })
      (hn : n = []) (ho : o = [])
  | raised (k : Clock) (hreq : s.cp.cs.bReqStartTsNo ≠ 0)
      (hs : s' = { s with cp := s.cp.startRaised k }) (hn : n = [])
      (ho : o = [.startRaised s.cp.scene.eqpWatt])
  | sampled (k : Clock) (f : Bool) (ty : Nat) (hn : n = [])
      (hs : s' = { s with cp := addMeterValQ { s.cp with checkSampledFlg := f } k.sample ty })
      (ho : o = [.sampled { s.cp with checkSampledFlg := f } ty k.sample])
  | connected (hc : s.bConnect = false)
      (hs : s' = { s with bConnect := true, bWaitResFlg := false }) (hn : n = [.connected])
      (ho : o = [])
  /-- a tick that has nothing to do, or still waits -/
  | idle (k : Clock) (f : Bool) (t : TrigMsgStat) (v w : Nat) (hc : s.bConnect = true)
      (hsen : s.ocppCallSenario k = some (none, s'))
      (hs : s' = { s with cp := s.cp.pulse f t, tv1 := v, tvRes := w })
      (hn : n = [.ticked k]) (ho : o = [])
  | gaveUp (k : Clock) (w : Nat) (hc : s.bConnect = true) (hw : s.bWaitResFlg = true)
      (hsen : s.ocppCallSenario k = some (none, s'))
      (hs : s' = { s with tvRes := w, bConnect := false, bWaitResFlg := false })
      (hn : n = [.ticked k, .gaveUp]) (ho : o = [])
  /-- a CALL was built, and lost with the connection -/
  | failed (k : Clock) (a : Call) (f : Bool) (t : TrigMsgStat) (tx : TxBuf) (d : UInt64) (v : Nat)
      (hc : s.bConnect = true) (hw : s.bWaitResFlg = false)
      (hsen : ∃ t, s.ocppCallSenario k = some (some a, t) ∧ s'.tv1 = t.tv1 ∧ s'.cp = t.cp)
      (hg : a.Guard (s.cp.pulse f t))
      (hb : a.build k (a.prepare k (s.cp.pulse f t)) s.tx = some tx)
      (hs : s' = { s with
        cp := a.finish (a.prepare k (s.cp.pulse f t)), tv1 := v, tx := afterMakeOcppMsg tx,
        dataTransUniqueId := d, rx := clearRxMsgBuff, bConnect := false })
      (hn : n = [.ticked k, .made a]) (ho : o = a.samples k s.cp)
  /-- a CALL was built and sent -/
  | called (k : Clock) (a : Call) (f : Bool) (t : TrigMsgStat) (tx : TxBuf) (d : UInt64) (v : Nat)
      (hc : s.bConnect = true) (hw : s.bWaitResFlg = false)
      (hsen : ∃ t, s.ocppCallSenario k = some (some a, t) ∧ s'.tv1 = t.tv1 ∧ s'.cp = t.cp)
      (hg : a.Guard (s.cp.pulse f t))
      (hb : a.build k (a.prepare k (s.cp.pulse f t)) s.tx = some tx)
      (hs : s' = { s with
        cp := a.finish (a.prepare k (s.cp.pulse f t)), tv1 := v, tx := afterMakeOcppMsg tx,
        dataTransUniqueId := d, bWaitResFlg := true, tvRes := k.secSent,
        callTxMsg := (afterMakeOcppMsg tx).msg })
      (hn : n = [.ticked k, .made a])
      (ho : o = a.samples k s.cp ++ [.sent (makeOcppMsg tx s.rx.msg.uniqueIdChar)
        (afterMakeOcppMsg tx).msg (a.finish (a.prepare k (s.cp.pulse f t)))])
  /-- a frame came in that nothing is done with; the connection may be lost -/
  | dropped (rx : RxBuf) (d : UInt64) (b : Bool) (hc : s.bConnect = true)
      (hs : s' = { s with rx := rx, dataTransUniqueId := d, bConnect := b }) (hn : n = [])
      (ho : o = [])
  | answered (frame : List Char) (rx : RxBuf) (d : UInt64) (c : Charger) (hc : s.bConnect = true)
      (hw : s.bWaitResFlg = true) (hact : rx.msg.actionCode = .cp s.callTxMsg.actionCode)
      (hid : rx.msg.uniqueId = s.callTxMsg.uniqueId)
      (hproc : rxCallResDataProc rx s.callTxMsg s.cp = some c)
      (hs : s' = { s with rx := rx, dataTransUniqueId := d, bWaitResFlg := false, cp := c })
      (hn : n = []) (ho : o = [.answered frame rx.msg s.callTxMsg s.cp])
  /-- a request was served; while connector 0 has no status its answer is not sent -/
  | served (frame : List Char) (rx rx' : RxBuf) (d : UInt64) (b : Bool) (cmd : CsReqAction)
      (j : Junk) (c : Charger) (tx tx' : TxBuf) (sent : List Obs) (hc : s.bConnect = true)
      (hcmd : rx.msg.actionCode = .cs cmd)
      (hproc : rxCallDataProc cmd j rx s.cp s.tx = some (c, tx))
      (hs : s' = { s with rx := rx', dataTransUniqueId := d, bConnect := b, cp := c, tx := tx' })
      (hsent : ∀ ob ∈ sent, ∃ f m, ob = .sent f m c ∧ m.msgType = msgTypeCallRes)
      (hgate : s.cp.cs.bCpStat 0 = .none → sent = [])
      (hn : n = []) (ho : o = .served frame rx.msg :: sent)
  | env (w : EnvWrite) (c : Charger) (hw : w.apply s.cp = some (c, o))
      (hs : s' = { s with cp := c })
      (hn : n = [.wrote w])

theorem Client.notes_made {s t : Client} {k : Clock} {a : Call} (sendOk connectOk : Bool)
    (hc : s.bConnect = true) (hsen : s.ocppCallSenario k = some (some a, t)) :
    s.notes (.netRun k sendOk connectOk) = [.ticked k, .made a] := by
  simp only [notes, hc, if_true, hsen]

theorem Client.notes_none {s t : Client} {k : Clock} (sendOk connectOk : Bool)
    (hc : s.bConnect = true) (hsen : s.ocppCallSenario k = some (none, t)) :
    s.notes (.netRun k sendOk connectOk) =
      .ticked k :: if s.bWaitResFlg && !t.bWaitResFlg then [.gaveUp] else [] := by
  simp only [notes, hc, if_true, hsen]

/-- A send keeps the heartbeat's time. -/
theorem Client.trans_tv1 (s : Client) (k : Clock) (sendOk : Bool) :
    (s.tsctCurlWsTrans k sendOk).1.tv1 = s.tv1 := by
  unfold tsctCurlWsTrans
  dsimp only
  split
  · split
    · rfl
    · rfl
  · rfl

theorem Client.tick_noted {s s' : Client} {k : Clock} {sendOk connectOk : Bool} {o : List Obs}
    (hc : s.bConnect = true) (h : s.tick k sendOk = some (s', o)) :
    s.Noted s' (s.notes (.netRun k sendOk connectOk)) o := by
  have hticked := tick_cases h
  unfold tick at h
  split at h
  · cases h
  · rename_i t hsen
    obtain ⟨rfl, rfl⟩ := Prod.mk.inj (Option.some.inj h)
    have hnotes := notes_none sendOk connectOk hc hsen
    rcases senario_none hsen with ⟨w, hs⟩ | ⟨hw, f, tr, v, hs⟩ | ⟨hw, w, hs⟩
    · refine .idle k s.cp.checkMeterFlg s.cp.cs.triggerMsgStat s.tv1 w hc hsen hs ?_ rfl
      rw [hnotes, hs]
      simp
    · refine .idle k f tr v s.tvRes hc hsen hs ?_ rfl
      rw [hnotes, hw]
      rfl
    · refine .gaveUp k w hc hw hsen hs ?_ rfl
      rw [hnotes, hs, hw]
      rfl
  · rename_i a t hsen
    have hnotes := notes_made sendOk connectOk hc hsen
    obtain ⟨hs', -⟩ := Prod.mk.inj (Option.some.inj h)
    have htv : s'.tv1 = t.tv1 := by
      rw [← hs']
      exact Client.trans_tv1 t k sendOk
    have hcp : s'.cp = t.cp := by
      rw [← hs']
      exact Client.trans_cp t k sendOk
    cases hticked with
    | idle f tr v w hs ho hnone =>
      obtain ⟨t', hnone⟩ := hnone
      rw [hsen] at hnone
      cases hnone
    | timeout w hw hs ho =>
      exact absurd (hw.symm.trans (senario_some hsen).1) (by simp)
    | failed a' f tr tx d v hw hg hb hs ho hk hsen' =>
      obtain ⟨t', hsen'⟩ := hsen'
      rw [hsen] at hsen'
      cases hsen'
      exact .failed k a f tr tx d v hc hw ⟨t, hsen, htv, hcp⟩ hg hb hs hnotes ho
    | called a' f tr tx d v hw hg hb hs ho hk hsen' =>
      obtain ⟨t', hsen'⟩ := hsen'
      rw [hsen] at hsen'
      cases hsen'
      exact .called k a f tr tx d v hc hw ⟨t, hsen, htv, hcp⟩ hg hb hs hnotes ho

/-- The request that was served, by what was parsed of the frame. -/
theorem Client.recvParsed_cmd {s s' : Client} {frame fr : List Char} {j : Junk} {k : Clock}
    {sendOk : Bool} {rx : RxMsg} {sent : List Obs}
    (h : s.recvParsed frame j k sendOk = some (s', .served fr rx :: sent)) :
    ∃ cmd tx, rx = s.rx.msg ∧ s.rx.msg.actionCode = .cs cmd ∧
      rxCallDataProc cmd j s.rx s.cp s.tx = some (s'.cp, tx) ∧
      (s.cp.cs.bCpStat 0 = .none → sent = []) := by
  have hanswer : ∀ {r : Client × List Obs},
      (if s.expects then s.dispatchRes frame else some (s, [])) = some r →
        r.2 ≠ .served fr rx :: sent := by
    intro r hr
    split at hr
    · obtain ⟨c, -, rfl⟩ := Option.map_eq_some_iff.mp hr
      simp
    · cases hr
      simp
  unfold recvParsed at h
  split at h
  · cases h
  · split at h
    · split at h
      · exact absurd rfl (hanswer h)
      · split at h
        · rename_i hdata
          obtain ⟨⟨c, tx⟩, hproc, heq⟩ := Option.map_eq_some_iff.mp h
          cases heq
          exact ⟨.dataTransfer, tx, rfl, hdata.2, hproc, fun _ => rfl⟩
        · cases h
    · rename_i hup
      split at h
      · exact absurd rfl (hanswer h)
      · split at h
        · split at h
          · rename_i cmd hact
            obtain ⟨⟨c, tx⟩, hproc, heq⟩ := Option.map_eq_some_iff.mp h
            obtain ⟨rfl, hlog⟩ := Prod.mk.inj heq
            obtain ⟨hserved, -⟩ := List.cons.inj hlog
            cases hserved
            refine ⟨cmd, tx, rfl, hact, ?_, fun hnone => absurd hnone hup⟩
            rw [Client.trans_cp]
            exact hproc
          · cases h
        · cases h

theorem Client.recv_noted {s s' : Client} {frame : List Char} {j : Junk} {k : Clock}
    {sendOk : Bool} {o : List Obs} (hc : s.bConnect = true)
    (h : s.tsctCurlWsRecv frame j k sendOk = some (s', o)) : s.Noted s' [] o := by
  cases recv_cases h with
  | dropped rx d b hs ho => exact .dropped rx d b hc hs rfl ho
  | answered rx d c hw htype hact hid htext hparse hproc hs ho =>
    exact .answered frame rx d c hc hw hact hid hproc hs rfl ho
  | served rx d b cmd j' c tx tx' rx' sent hproc htx hs hsent ho =>
    subst ho
    have hres : (afterMakeOcppMsg tx).msg.msgType = msgTypeCallRes :=
      (rxCallDataProc_ok hproc).msgType
    have hmem : ∀ ob ∈ sent, ∃ f m, ob = .sent f m c ∧ m.msgType = msgTypeCallRes := by
      intro ob hob
      rcases hsent with rfl | rfl
      · cases hob
      · exact ⟨_, _, List.mem_singleton.mp hob, hres⟩
    unfold tsctCurlWsRecv at h
    split at h
    · split at h
      · cases h
      · dsimp only at h
        split at h
        · cases h
        · obtain ⟨cmd', tx₁, hrx, hact, hproc', hgate⟩ := recvParsed_cmd h
          have hcp : s'.cp = c := congrArg Client.cp hs
          rw [hcp] at hproc'
          rw [hrx]
          exact .served frame _ rx' d b cmd' j c tx₁ tx' sent hc hact hproc' hs hmem hgate rfl rfl
    · cases h

theorem step_noted {s s' : Client} {e : Event} {o : List Obs} (h : step s e = some (s', o)) :
    s.Noted s' (s.notes e) o := by
  -- `notes` follows the branches of the event, and so does this
  cases e with
  | netRun k sendOk connectOk =>
    simp only [step, Client.netRun] at h
    split at h
    · rename_i hc
      exact Client.tick_noted hc h
    · rename_i hc
      have hc : s.bConnect = false := by simpa using hc
      obtain ⟨rfl, rfl⟩ := Prod.mk.inj (Option.some.inj h)
      cases connectOk with
      | true => exact .connected hc rfl (by simp [Client.notes, hc]) rfl
      | false =>
        exact .quiet s.cp.checkSampledFlg s.rx false (by simp) rfl (by simp [Client.notes, hc]) rfl
  | recv frame j k sendOk =>
    simp only [step] at h
    split at h
    · rename_i hc
      exact Client.recv_noted hc h
    · obtain ⟨rfl, rfl⟩ := Prod.mk.inj (Option.some.inj h)
      exact .quiet s.cp.checkSampledFlg s.rx s.bConnect id rfl rfl rfl
  | raiseStart k =>
    simp only [step, Option.some.injEq, Client.raiseStart] at h
    split at h
    · rename_i hreq
      obtain ⟨rfl, rfl⟩ := Prod.mk.inj h
      exact .raised k hreq rfl rfl rfl
    · obtain ⟨rfl, rfl⟩ := Prod.mk.inj h
      exact .quiet s.cp.checkSampledFlg s.rx s.bConnect id rfl rfl rfl
  | sample k =>
    cases step_cases h with
    | sampled k' f ty he hty hdue hs ho => exact .sampled k' f ty rfl hs ho
    | quiet f rx b hs ho hrun =>
      simp only [step, Client.sampleMeter, Option.map_eq_some_iff] at h
      obtain ⟨r, -, h⟩ := h
      refine .quiet f rx b (fun hb => ?_) hs rfl ho
      split at h
      · obtain ⟨rfl, -⟩ := Prod.mk.inj h
        exact (congrArg Client.bConnect hs).trans hb
      · obtain ⟨rfl, -⟩ := Prod.mk.inj h
        exact (congrArg Client.bConnect hs).trans hb
    | raised k' he => cases he
    | connected k' sendOk he => cases he
    | ticked k' sendOk connectOk he => cases he
    | received frame j k' sendOk he => cases he
    | env w c he => cases he
  | linkDown =>
    obtain ⟨rfl, rfl⟩ := Prod.mk.inj (Option.some.inj h)
    exact .quiet s.cp.checkSampledFlg _ false (by simp) rfl rfl rfl
  | netDown =>
    obtain ⟨rfl, rfl⟩ := Prod.mk.inj (Option.some.inj h)
    exact .quiet s.cp.checkSampledFlg s.rx false (by simp) rfl rfl rfl
  | recvFail =>
    obtain ⟨rfl, rfl⟩ := Prod.mk.inj (Option.some.inj h)
    split
    · exact .quiet s.cp.checkSampledFlg _ false (by simp) rfl rfl rfl
    · exact .quiet s.cp.checkSampledFlg s.rx s.bConnect id rfl rfl rfl
  | env w =>
    simp only [step, Option.map_eq_some_iff] at h
    obtain ⟨⟨c, o'⟩, hw, h⟩ := h
    obtain ⟨rfl, rfl⟩ := Prod.mk.inj h
    exact .env w c hw rfl rfl

/-- **An event of a journal**: its notes stand before its observations. -/
theorem journal_cases {s s' : Client} {e : Event} {l : List Entry}
    (h : journal s e = some (s', l)) :
    ∃ n o, l = n.map .inl ++ o.map .inr ∧ s.Noted s' n o := by
  obtain ⟨o, hstep, rfl⟩ := Trace.annotate_eq h
  exact ⟨s.notes e, o, rfl, step_noted hstep⟩

theorem mem_notes_ticked {s : Client} {e : Event} {k : Clock} (h : .ticked k ∈ s.notes e) :
    ∃ sendOk connectOk, e = .netRun k sendOk connectOk := by
  cases e with
  | netRun k' sendOk connectOk =>
    refine ⟨sendOk, connectOk, ?_⟩
    simp only [Client.notes] at h
    split at h
    · rcases List.mem_cons.mp h with heq | h
      · cases heq
        rfl
      · split at h
        · simp at h
        · split at h
          · simp at h
          · cases h
        · cases h
    · split at h
      · simp at h
      · cases h
  | env w => simp [Client.notes] at h
  | raiseStart | sample | linkDown | netDown | recv | recvFail => cases h

/-- A part of a journal that shows a CALL's branch. -/
theorem made_of_mem {s s' : Client} {l : List Entry} {k : Clock} {sendOk connectOk : Bool}
    (hstep : journal s (.netRun k sendOk connectOk) = some (s', l)) {a : Call}
    (hm : .inl (.made a) ∈ l) :
    s.bConnect = true ∧ ∃ t, s.ocppCallSenario k = some (some a, t) := by
  obtain ⟨o, -, rfl⟩ := Trace.annotate_eq hstep
  have hm : .made a ∈ s.notes (.netRun k sendOk connectOk) := by simpa using hm
  simp only [Client.notes] at hm
  split at hm
  · rename_i hc
    refine ⟨hc, ?_⟩
    rcases List.mem_cons.mp hm with heq | hm
    · cases heq
    · split at hm
      · rename_i b t hsen
        obtain heq := List.mem_singleton.mp hm
        cases heq
        exact ⟨t, hsen⟩
      · split at hm
        · simp at hm
        · cases hm
      · cases hm
  · split at hm
    · simp at hm
    · cases hm

end ChargePoint
