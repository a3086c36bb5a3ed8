import ChargePoint.StartOrder

/-!
# The stop request

`bReqStopTsFlg` says that a transaction is to be stopped. Unlike `reqStartTsFlg`, which
stays set until the answer, it is cleared by the tick that *builds* the StopTransaction. From
then on only the outstanding CALL remembers the request, and three things make the client
forget an outstanding CALL: the send fails, the answer is late, the connection is made anew.

What is proved is the exact line between the two: `stopSafe` says of a state and an event
that the request is not lost here, and a run all of whose events are safe keeps every request
until its answer (`stop_request_kept`); an unsafe event after such a run loses one
(the second half of the same theorem).
-/

set_option autoImplicit false

namespace ChargePoint

open CStr

/-! ## The life of a stop request

The phases are read off the log: none, requested, sent. A StopTransaction that is sent ends the
first phase and starts the second, its answer ends the request; a new request in between starts
over. -/

/-- A stop request as the history has it. -/
inductive StopPhase
  /-- none was raised since the last StopTransaction answer -/
  | none
  /-- raised, and no StopTransaction transmitted since -/
  | requested
  /-- raised, transmitted, and not answered -/
  | called
  deriving DecidableEq, Repr

def StopPhase.next (p : StopPhase) : Obs → StopPhase
  | .stopRaised => .requested
  | .answered _ rx _ _ => if rx.actionCode = .cp .stopTs then .none else p
  | .sent f m c => if p = .requested ∧ (Obs.sent f m c).isCall .stopTs then .called else p
  | _ => p

def stopPhase (log : List Obs) : StopPhase := log.foldl StopPhase.next .none

theorem stopPhase_append (log o : List Obs) :
    stopPhase (log ++ o) = o.foldl StopPhase.next (stopPhase log) :=
  List.foldl_append ..

/-- A StopTransaction is outstanding. -/
def Client.awaitsStop (s : Client) : Bool := s.bWaitResFlg && s.callTxMsg.actionCode = .stopTs

/-- **What the client owes a request**: it is pending, or the StopTransaction sent for it is
outstanding. -/
def StopKept (s : Client) (log : List Obs) : Prop :=
  match stopPhase log with
  | .none => True
  | .requested => s.cp.cs.bReqStopTsFlg = true
  | .called => s.cp.cs.bReqStopTsFlg = true ∨ s.awaitsStop = true

/-! ## Safe events -/

/-- The tick takes the stop branch: nothing is waited for, the boot is accepted, no meter
values are due, and the stop request comes first. -/
def Client.stopTurn (s : Client) (k : Clock) : Bool :=
  !s.bWaitResFlg && !(s.cp.cs.bCpStat 0).notBooted &&
    !(checkMeterTime s.cp k.tmCheck).any (fun r => r.1) && firstCall s.cp = some .stopTs

/-- Only the outstanding CALL remembers the request. -/
def Client.stopAtRisk (s : Client) : Bool := s.awaitsStop && !s.cp.cs.bReqStopTsFlg

/-- **The event loses no stop request**: a StopTransaction that is built can be sent, and
while one is outstanding and nothing else remembers the request the answer is not late and
the connection is not made anew. -/
def stopSafe (s : Client) : Event → Bool
  | .netRun k sendOk connectOk =>
    if s.bConnect then
      (!s.stopTurn k || sendOk) && !(s.stopAtRisk && (s.checkRespTime k).1)
    else !(s.stopAtRisk && connectOk)
  | _ => true

/-! ## One step

Every event is safe and keeps the request, or is unsafe and loses one. To know which, the branch
a tick takes has to be computed from the state before it, and `stopTurn` is that condition. -/

theorem Client.senario_waiting {s : Client} (k : Clock) (hw : s.bWaitResFlg = true) :
    s.ocppCallSenario k = some (none, if (s.checkRespTime k).1 then
      { (s.checkRespTime k).2 with bConnect := false, bWaitResFlg := false }
      else (s.checkRespTime k).2) := by
  unfold ocppCallSenario
  rw [if_pos hw]

theorem Client.checkRespTime_eq (s : Client) (k : Clock) :
    ∃ w, (s.checkRespTime k).2 = { s with tvRes := w } := by
  unfold checkRespTime
  split
  · exact ⟨k.secReset, rfl⟩
  · exact ⟨s.tvRes, rfl⟩

/-- The stop branch is taken at its turn … -/
theorem Client.senario_of_stopTurn {s t : Client} {k : Clock} {r : Option Call}
    (hturn : s.stopTurn k = true) (h : s.ocppCallSenario k = some (r, t)) :
    r = some .stopTs := by
  simp only [stopTurn, Bool.and_eq_true, Bool.not_eq_true', decide_eq_true_eq] at hturn
  obtain ⟨⟨⟨hw, hb⟩, hm⟩, hfirst⟩ := hturn
  unfold ocppCallSenario at h
  rw [if_neg (by simp [hw]), if_neg (by simp [hb])] at h
  split at h
  · exact absurd h (by simp)
  · rename_i c hc
    simp [hc] at hm
  · rename_i c hc
    obtain ⟨f, rfl⟩ := checkMeterTime_eq hc
    unfold senarioBooted at h
    have hfirst : firstCall (s.cp.pulse f s.cp.cs.triggerMsgStat) = some .stopTs := hfirst
    simp only [hfirst, Option.map_eq_some_iff, Prod.mk.injEq] at h
    obtain ⟨_, _, hr, _⟩ := h
    exact hr.symm

/-- … and only then. -/
theorem Client.stopTurn_of_senario {s t : Client} {k : Clock}
    (h : s.ocppCallSenario k = some (some .stopTs, t)) : s.stopTurn k = true := by
  obtain ⟨hw, f, tr, ⟨hb, hfirst⟩, -⟩ := senario_some h
  have hb : (s.cp.cs.bCpStat 0).notBooted = false := hb
  have hfirst : firstCall s.cp = some .stopTs := hfirst
  have hm : (checkMeterTime s.cp k.tmCheck).any (fun r => r.1) = false := by
    unfold ocppCallSenario at h
    rw [if_neg (by simp [hw]), if_neg (by simp [hb])] at h
    split at h
    · rename_i hc
      simp [hc]
    · simp at h
    · rename_i c hc
      simp [hc]
  simp [stopTurn, hw, hb, hm, hfirst]

/-- The stop branch takes the request, no other does. -/
theorem Call.stopFlg (a : Call) (k : Clock) (c : Charger) :
    (a.finish (a.prepare k c)).cs.bReqStopTsFlg =
      if a = .stopTs then false else c.cs.bReqStopTsFlg := by
  cases a <;> rfl

theorem Call.samples_next (a : Call) (k : Clock) (c : Charger) (p : StopPhase) :
    (a.samples k c).foldl StopPhase.next p = p := by
  cases a <;> rfl

/-- What a step does to a stop request it does not lose. -/
inductive StopStep (s s' : Client) (o : List Obs) : Prop
  | quiet (ho : ∀ p, o.foldl StopPhase.next p = p)
      (hf : s'.cp.cs.bReqStopTsFlg = s.cp.cs.bReqStopTsFlg)
      (hback : s'.awaitsStop = true → s.awaitsStop = true)
      (hkeep : s.awaitsStop = true → s'.awaitsStop = true ∨ s.cp.cs.bReqStopTsFlg = true)
  | raised (ho : o = [.stopRaised]) (hf : s'.cp.cs.bReqStopTsFlg = true)
      (ha : s'.awaitsStop = s.awaitsStop)
  | called (ho : o.foldl StopPhase.next .requested = .called)
      (hf : s.cp.cs.bReqStopTsFlg = true) (hf' : s'.cp.cs.bReqStopTsFlg = false)
      (ha : s'.awaitsStop = true)
  | answered (ho : ∀ p, o.foldl StopPhase.next p = .none)
      (hf' : s'.cp.cs.bReqStopTsFlg = false) (ha : s'.awaitsStop = false)

/-- What a step does when it loses one: there was a request, and now nothing remembers it. -/
structure StopLost (s s' : Client) (o : List Obs) : Prop where
  obs : ∀ p, o.foldl StopPhase.next p = p
  had : s.cp.cs.bReqStopTsFlg = true ∨ s.stopAtRisk = true
  flg : s'.cp.cs.bReqStopTsFlg = false
  awaits : s'.awaitsStop = false

theorem StopStep.of_eq {s s' : Client} {o : List Obs} (ho : ∀ p, o.foldl StopPhase.next p = p)
    (hf : s'.cp.cs.bReqStopTsFlg = s.cp.cs.bReqStopTsFlg)
    (ha : s'.awaitsStop = s.awaitsStop) : StopStep s s' o :=
  .quiet ho hf (fun h => ha ▸ h) (fun h => .inl (ha.trans h))

/-- The two outcomes of an event, and the check that tells them apart. -/
def StopOutcome (s : Client) (e : Event) (s' : Client) (o : List Obs) : Prop :=
  (stopSafe s e = true ∧ StopStep s s' o) ∨ (stopSafe s e = false ∧ StopLost s s' o)

/-- Losing what is waited for, by a late answer or a new connection. -/
theorem stopOutcome_giveUp {s s' : Client} {e : Event}
    (hf : s'.cp.cs.bReqStopTsFlg = s.cp.cs.bReqStopTsFlg) (hw : s'.bWaitResFlg = false)
    (hsafe : stopSafe s e = !s.stopAtRisk) : StopOutcome s e s' [] := by
  have ha : s'.awaitsStop = false := by simp [Client.awaitsStop, hw]
  cases hrisk : s.stopAtRisk with
  | false =>
    refine .inl ⟨by simp [hsafe, hrisk], .quiet (fun _ => rfl) hf (by simp [ha]) fun haw => ?_⟩
    right
    simpa [Client.stopAtRisk, haw] using hrisk
  | true =>
    refine .inr ⟨by simp [hsafe, hrisk], fun _ => rfl, .inr hrisk, ?_, ha⟩
    rw [hf]
    simp only [Client.stopAtRisk, Bool.and_eq_true, Bool.not_eq_true'] at hrisk
    exact hrisk.2

theorem tick_stopOutcome {s s' : Client} {k : Clock} {sendOk connectOk : Bool} {o : List Obs}
    (hc : s.bConnect = true) (h : step s (.netRun k sendOk connectOk) = some (s', o)) :
    StopOutcome s (.netRun k sendOk connectOk) s' o := by
  simp only [step, Client.netRun, hc, if_true] at h
  cases hw : s.bWaitResFlg with
  | true =>
    have hturn : s.stopTurn k = false := by simp [Client.stopTurn, hw]
    obtain ⟨w, hresp⟩ := s.checkRespTime_eq k
    simp only [Client.tick, Client.senario_waiting k hw, Option.some.injEq, Prod.mk.injEq] at h
    obtain ⟨rfl, rfl⟩ := h
    cases hlate : (s.checkRespTime k).1 with
    | false =>
      refine .inl ⟨by simp [stopSafe, hc, hturn, hlate], ?_⟩
      rw [hresp]
      exact .of_eq (fun _ => rfl) rfl rfl
    | true =>
      refine stopOutcome_giveUp ?_ rfl (by simp [stopSafe, hc, hturn, hlate])
      rw [hresp]
      rfl
  | false =>
    have haw : s.awaitsStop = false := by simp [Client.awaitsStop, hw]
    have hrisk : s.stopAtRisk = false := by simp [Client.stopAtRisk, haw]
    -- with nothing waited for, the event is unsafe at most because the send fails
    have hsafe : stopSafe s (.netRun k sendOk connectOk) = (!s.stopTurn k || sendOk) := by
      simp [stopSafe, hc, hrisk]
    have hother : ∀ {r : Option Call}, r ≠ some .stopTs →
        (∃ t, s.ocppCallSenario k = some (r, t)) → s.stopTurn k = false := by
      intro r hr hsen
      obtain ⟨t, ht⟩ := hsen
      by_contra hturn
      exact hr (Client.senario_of_stopTurn (by simpa using hturn) ht)
    cases Client.tick_cases h with
    | idle f t v w hs ho hsen =>
      subst hs ho
      refine .inl ⟨by simp [hsafe, hother (by simp) hsen], ?_⟩
      exact .of_eq (fun _ => rfl) rfl rfl
    | timeout w hw' => exact absurd (hw.symm.trans hw') (by simp)
    | failed a f t tx d v _ hg hb hs ho hk hsen =>
      subst hs ho
      by_cases ha : a = .stopTs
      · subst ha
        obtain ⟨t', ht'⟩ := hsen
        refine .inr ⟨by rw [hsafe, Client.stopTurn_of_senario ht', hk]; rfl, ?_⟩
        refine ⟨Call.samples_next _ k s.cp, .inl (firstCall_stopTs hg.2).2, ?_, ?_⟩
        · exact Call.stopFlg .stopTs k _
        · simp [Client.awaitsStop, hw]
      · refine .inl ⟨by simp [hsafe, hother (by simpa using ha) hsen], ?_⟩
        refine .of_eq (Call.samples_next a k s.cp) ?_ (by simp [Client.awaitsStop, hw])
        exact (Call.stopFlg a k _).trans (if_neg ha)
    | called a f t tx d v _ hg hb hs ho hk hsen =>
      subst hs ho
      refine .inl ⟨by rw [hsafe, hk, Bool.or_true], ?_⟩
      have hcall : (afterMakeOcppMsg tx).msg.msgType = msgTypeCall := (Call.build_header hb).1
      have hact : (afterMakeOcppMsg tx).msg.actionCode = a.action := (Call.build_header hb).2
      by_cases ha : a = .stopTs
      · subst ha
        refine .called ?_ (firstCall_stopTs hg.2).2 (Call.stopFlg .stopTs k _) ?_
        · rw [List.foldl_append, Call.samples_next]
          simp [StopPhase.next, Obs.isCall, hcall, hact, Call.action]
        · simp [Client.awaitsStop, hact, Call.action]
      · have hne : (afterMakeOcppMsg tx).msg.actionCode ≠ .stopTs := by
          rw [hact]
          exact fun heq => ha (Call.action_stopTs heq)
        refine .of_eq (fun p => ?_) ((Call.stopFlg a k _).trans (if_neg ha)) ?_
        · rw [List.foldl_append, Call.samples_next]
          simp [StopPhase.next, Obs.isCall, hne]
        · simp [Client.awaitsStop, hw, hne]

theorem recv_stopStep {s s' : Client} {frame : List Char} {o : List Obs}
    (h : s.Received frame s' o) : StopStep s s' o := by
  cases h with
  | dropped rx d b hs ho =>
    subst hs ho
    exact .of_eq (fun _ => rfl) rfl rfl
  | answered rx d c hw htype hact hid htext hparse hc hs ho =>
    subst hs ho
    by_cases hstop : s.callTxMsg.actionCode = .stopTs
    · have hact : rx.msg.actionCode = .cp .stopTs := hstop ▸ hact
      refine .answered (fun p => by simp [StopPhase.next, hact]) ?_ rfl
      simp only [rxCallResDataProc, hact] at hc
      exact (dataProcCmdStopTs_frame hc).2.2.2.1
    · have hne : rx.msg.actionCode ≠ .cp .stopTs := by
        rw [hact]
        exact fun heq => hstop (RxAction.cp.inj heq)
      refine .of_eq (fun p => by simp [StopPhase.next, hne]) ?_ ?_
      · exact rxCallResDataProc_stopFlg hc hne
      · simp [Client.awaitsStop, hstop]
  | served rx d b cmd j c tx tx' rx' sent hc htx hs hsent ho =>
    subst hs ho
    have hok := rxCallDataProc_ok hc
    have hres : (afterMakeOcppMsg tx).msg.msgType = msgTypeCallRes := hok.msgType
    refine .of_eq (fun p => ?_) (Charger.billing_eq hok.billing).2.2.2.1 rfl
    rcases hsent with rfl | rfl
    · rfl
    · simp [StopPhase.next, Obs.isCall, hres, msgTypeCall, msgTypeCallRes]

/-- **The step lemma**: a safe event keeps the request, an unsafe one loses it. -/
theorem step_stopOutcome {s s' : Client} {e : Event} {o : List Obs}
    (h : step s e = some (s', o)) : StopOutcome s e s' o := by
  cases step_cases h with
  | quiet f rx b hs ho hrun =>
    subst hs ho
    refine .inl ⟨?_, .of_eq (fun _ => rfl) rfl rfl⟩
    cases e with
    | netRun k sendOk connectOk =>
      obtain ⟨hc, hk⟩ := hrun k sendOk connectOk rfl
      simp [stopSafe, hc, hk]
    | raiseStart | sample | linkDown | netDown | recv | recvFail | env => rfl
  | raised k he hreq hs ho =>
    subst he hs ho
    exact .inl ⟨rfl, .of_eq (fun _ => rfl) rfl rfl⟩
  | sampled k f ty he hty hdue hs ho =>
    subst he hs ho
    exact .inl ⟨rfl, .of_eq (fun _ => rfl) rfl rfl⟩
  -- a new connection forgets the CALL that was out
  | connected k sendOk he hc hs ho =>
    subst he hs ho
    exact stopOutcome_giveUp rfl rfl (by simp [stopSafe, hc])
  | ticked k sendOk connectOk he hc ht =>
    subst he
    exact tick_stopOutcome hc h
  | received frame j k sendOk he hc hr =>
    subst he
    exact .inl ⟨rfl, recv_stopStep hr⟩
  | env w c he hw hs =>
    subst he hs
    refine .inl ⟨rfl, ?_⟩
    cases w with
    | reqStopTs =>
      simp only [EnvWrite.apply, Option.some.injEq, Prod.mk.injEq] at hw
      obtain ⟨rfl, rfl⟩ := hw
      exact .raised rfl rfl rfl
    | setCpStatus code ch =>
      simp only [EnvWrite.apply, Option.map_eq_some_iff, Prod.mk.injEq] at hw
      obtain ⟨i, _, rfl, rfl⟩ := hw
      exact .of_eq (fun _ => rfl) rfl rfl
    | scene | reqStartTs | reqAuth | scndCardNo | clearParentId | qrEvent | rmtStart
    | rmtStop | diagLogReqStep | updateStep | chargingStatus | devChannel | stopTsConfig =>
      simp only [EnvWrite.apply, Option.some.injEq, Prod.mk.injEq] at hw
      obtain ⟨rfl, rfl⟩ := hw
      exact .of_eq (fun _ => rfl) rfl rfl

/-! ## Runs of safe events -/

/-- The invariant: the request is kept, and what the client remembers is a request of the
history. -/
structure StopInv (s : Client) (log : List Obs) : Prop where
  kept : StopKept s log
  pending : s.cp.cs.bReqStopTsFlg = true → stopPhase log = .requested
  awaits : s.awaitsStop = true → stopPhase log ≠ .none

theorem StopStep.inv {s s' : Client} {log o : List Obs} (h : StopStep s s' o)
    (hi : StopInv s log) : StopInv s' (log ++ o) := by
  obtain ⟨hkept, hpend, haw⟩ := hi
  cases h with
  | quiet ho hf hback hkeep =>
    have hphase : stopPhase (log ++ o) = stopPhase log := (stopPhase_append ..).trans (ho _)
    refine ⟨?_, fun h => hphase.trans (hpend (hf ▸ h)), fun h => hphase ▸ haw (hback h)⟩
    unfold StopKept at hkept ⊢
    rw [hphase, hf]
    cases hp : stopPhase log with
    | none => trivial
    | requested => simpa [hp] using hkept
    | called =>
      rw [hp] at hkept
      rcases hkept with hflg | hold
      · exact .inl hflg
      · exact (hkeep hold).symm
  | raised ho hf ha =>
    have hphase : stopPhase (log ++ o) = .requested := by
      rw [stopPhase_append, ho]
      rfl
    refine ⟨?_, fun _ => hphase, fun _ => by simp [hphase]⟩
    simpa [StopKept, hphase] using hf
  | called ho hf hf' ha =>
    have hphase : stopPhase (log ++ o) = .called := by
      rw [stopPhase_append, hpend hf, ho]
    refine ⟨?_, fun h => absurd (hf'.symm.trans h) (by simp), fun _ => by simp [hphase]⟩
    simp [StopKept, hphase, ha]
  | answered ho hf' ha =>
    have hphase : stopPhase (log ++ o) = .none := (stopPhase_append ..).trans (ho _)
    refine ⟨?_, fun h => absurd (hf'.symm.trans h) (by simp),
      fun h => absurd (ha.symm.trans h) (by simp)⟩
    simp [StopKept, hphase]

/-- A lost request is one the history still has. -/
theorem StopLost.not_kept {s s' : Client} {log o : List Obs} (h : StopLost s s' o)
    (hi : StopInv s log) : ¬ StopKept s' (log ++ o) := by
  have hphase : stopPhase (log ++ o) = stopPhase log := (stopPhase_append ..).trans (h.obs _)
  have hopen : stopPhase log ≠ .none := by
    rcases h.had with hflg | hrisk
    · simp [hi.pending hflg]
    · simp only [Client.stopAtRisk, Bool.and_eq_true] at hrisk
      exact hi.awaits hrisk.1
  intro hkept
  unfold StopKept at hkept
  rw [hphase, h.flg, h.awaits] at hkept
  cases hp : stopPhase log with
  | none => exact hopen hp
  | requested => simp [hp] at hkept
  | called => simp [hp] at hkept

/-- A run of safe events. -/
abbrev StopRun : Client → List Obs → Prop := RunIf fun s _ e => stopSafe s e = true

theorem stopRun_inv {s : Client} {log : List Obs} (h : StopRun s log) : StopInv s log := by
  obtain ⟨st, now, h⟩ := h
  refine h.invariant (I := StopInv) ⟨by simp [StopKept, stopPhase], ?_, ?_⟩ ?_
  · exact fun h => absurd h (by simp [Client.init, Charger.init])
  · exact fun h => absurd h (by simp [Client.awaitsStop, Client.init])
  · intro s log e s' o hi hsafe hstep
    rcases step_stopOutcome hstep with ⟨-, hs⟩ | ⟨hlose, -⟩
    · exact hs.inv hi
    · exact absurd (hsafe.symm.trans hlose) (by simp)

/-- **The stop request, exactly.** In every run of safe events a requested stop that no
StopTransaction answer followed is pending, or its StopTransaction is outstanding; and the
next event keeps it so if and only if it is safe. -/
theorem stop_request_kept {s : Client} {log : List Obs} (h : StopRun s log) :
    StopKept s log ∧
    (s.cp.cs.bReqStopTsFlg = true → stopPhase log = .requested) ∧
    ∀ e s' o, step s e = some (s', o) → (StopKept s' (log ++ o) ↔ stopSafe s e = true) := by
  have hinv := stopRun_inv h
  refine ⟨hinv.kept, hinv.pending, fun e s' o hstep => ?_⟩
  rcases step_stopOutcome hstep with ⟨hsafe, hs⟩ | ⟨hlose, hlost⟩
  · exact ⟨fun _ => hsafe, fun _ => (hs.inv hinv).kept⟩
  · refine ⟨fun hkept => absurd hkept (hlost.not_kept hinv), fun hsafe => ?_⟩
    exact absurd (hlose.symm.trans hsafe) (by simp)

/-! ## Concrete runs -/

set_option maxRecDepth 20000 in
/-- A stop that is requested and sent: the request is an outstanding CALL now. -/
theorem stop_request_kept_sent :
    ∃ s log, StopRun s log ∧ stopPhase log = .called ∧ StopKept s log := by
  have hrun : (Trace.exec step (fun s _ e => stopSafe s e) (Client.init 3 0) []
      (bootedRun ++ [.env .reqStopTs, .netRun (.reading 14 5) true true])).any
      (fun r => stopPhase r.2 = .called) = true := by decide +kernel
  obtain ⟨s, log, h, hp⟩ := exists_runIf_of_exec
    (g := fun s _ e => stopSafe s e) (p := fun _ log => stopPhase log = .called) hrun
  exact ⟨s, log, h, by simpa using hp, (stop_request_kept h).1⟩

set_option maxRecDepth 20000 in
/-- **A stop that is lost**: the one send of the StopTransaction fails, the flag is down, and
nothing is waited for. -/
theorem stop_request_lost :
    ∃ s log, Run s log ∧ stopPhase log = .requested ∧ s.cp.cs.bReqStopTsFlg = false ∧
      s.awaitsStop = false := by
  let p : Client → List Obs → Bool := fun s log =>
    stopPhase log = .requested && !s.cp.cs.bReqStopTsFlg && !s.awaitsStop
  have hrun : (Trace.exec step (fun _ _ _ => true) (Client.init 3 0) []
      (bootedRun ++ [.env .reqStopTs, .netRun (.reading 14 5) false true])).any
      (fun r => p r.1 r.2) = true := by decide +kernel
  obtain ⟨s, log, h, hp⟩ := exists_run_of_exec hrun
  refine ⟨s, log, h, ?_⟩
  simpa [p, and_assoc] using hp

end ChargePoint
