import ChargePoint.Correlation
import Mathlib.Data.List.Induction

/-!
# The start request is durable, and comes first

`startTsQ.reqStartTsFlg` is raised by the client thread and taken back by one function, the
handler of a StartTransaction answer. Nothing else that happens to a StartTransaction — a
failed send, a timeout, a reconnect, any other answer, any request of the central system —
touches it, so the next free tick builds the StartTransaction again.

That a StopTransaction cannot overtake it is the order of two `if`s in
`OCPP_CALL_Senario` (`firstCall_stopTs`).

The flag is one for all sessions, though, and the handler does not ask which StartTransaction was
answered. A start that is raised while an earlier one is unanswered loses its own: the answer to
the earlier one takes the flag back, and the StopTransaction of the second session goes out with no
StartTransaction before it. `start_order` says that this is the only way.
-/

set_option autoImplicit false

namespace ChargePoint

open CStr

/-- The observation is a CALL with this action. -/
def Obs.isCall (a : CpReqAction) : Obs → Bool
  | .sent _ m _ => m.msgType = msgTypeCall && m.actionCode = a
  | _ => false

/-- The observation is the dispatch of an answer that matches its CALL, a StartTransaction. -/
def Obs.answersStart : Obs → Bool
  | .answered _ rx m _ =>
    rx.actionCode = .cp .startTs && m.actionCode = .startTs && rx.uniqueId = m.uniqueId
  | _ => false

/-- A start request is open in a history: raised, and no matched answer since. -/
def startOpen (log : List Obs) : Bool :=
  log.foldl (fun b o => match o with
    | .startRaised _ => true
    | o => b && !o.answersStart) false

/-! ## One step

The condition of the StopTransaction comes behind that of the StartTransaction in one chain, and
the first that holds is taken. No branch writes the flag of the start. -/

/-- **The order of the branches.** -/
theorem firstCall_stopTs {c : Charger} (h : firstCall c = some .stopTs) :
    c.startTsQ.reqStartTsFlg = false ∧ c.cs.bReqStopTsFlg = true := by
  simp only [firstCall, ite_eq_iff, Option.some.injEq, reduceCtorEq, and_false, false_or,
    or_false] at h
  obtain ⟨-, -, -, -, -, hstart, hstop, -⟩ := h
  exact ⟨by simpa using hstart, hstop⟩

theorem firstCall_none {c : Charger} (h : firstCall c = none) :
    c.startTsQ.reqStartTsFlg = false := by
  simp only [firstCall, ite_eq_iff, reduceCtorEq, and_false, false_or] at h
  obtain ⟨-, -, -, -, -, hstart, -⟩ := h
  simpa using hstart

theorem firstCall_startTs {c : Charger} (h : firstCall c = some .startTs) :
    c.startTsQ.reqStartTsFlg = true := by
  simp only [firstCall, ite_eq_iff, Option.some.injEq, reduceCtorEq, and_false, false_or,
    or_false] at h
  obtain ⟨-, -, -, -, -, hstart, -⟩ := h
  exact hstart

theorem Call.action_stopTs {a : Call} (h : a.action = .stopTs) : a = .stopTs := by
  cases a <;> first | rfl | cases h

theorem Call.action_startTs {a : Call} (h : a.action = .startTs) : a = .startTs := by
  cases a <;> first | rfl | cases h

@[simp] theorem addMeterValQ_reqStartTsFlg (c : Charger) (k : SampleClock) (t : Nat) :
    (addMeterValQ c k t).startTsQ.reqStartTsFlg = c.startTsQ.reqStartTsFlg := rfl

/-- No branch takes the start request back. -/
theorem Call.reqStartTsFlg (a : Call) (k : Clock) (c : Charger) :
    (a.finish (a.prepare k c)).startTsQ.reqStartTsFlg = c.startTsQ.reqStartTsFlg := by
  cases a <;> rfl

theorem Call.samples_isCall (a : Call) (k : Clock) (c : Charger) (b : CpReqAction) :
    ∀ ob ∈ a.samples k c, ob.isCall b = false := by
  intro ob hob
  obtain ⟨c', ty, k', rfl⟩ := Call.samples_eq hob
  rfl

/-! ## Raising

Raising is the one step that sets the flag, and it is a step of its own, of the client thread
between two ticks. All others keep the flag or take it back with an answer (`StartStep`). -/

/-- The observation is a start request being raised. -/
def Obs.isRaise : Obs → Bool
  | .startRaised _ => true
  | _ => false

/-- What one step does to the start request, if it raises none: only the answer takes it back, and
while it is pending no StopTransaction is sent. -/
structure StartStep (s s' : Client) (o : List Obs) : Prop where
  flag : s'.cp.startTsQ.reqStartTsFlg =
    (s.cp.startTsQ.reqStartTsFlg && o.all fun ob => !ob.answersStart)
  shut : s.cp.startTsQ.reqStartTsFlg = true → ∀ ob ∈ o, ob.isCall .stopTs = false

/-- A step that answers no StartTransaction. -/
theorem StartStep.of_kept {s s' : Client} {o : List Obs}
    (hflag : s'.cp.startTsQ.reqStartTsFlg = s.cp.startTsQ.reqStartTsFlg)
    (hno : ∀ ob ∈ o, ob.answersStart = false)
    (hstop : s.cp.startTsQ.reqStartTsFlg = true → ∀ ob ∈ o, ob.isCall .stopTs = false) :
    StartStep s s' o := by
  refine ⟨?_, hstop⟩
  have hall : (o.all fun ob => !ob.answersStart) = true :=
    List.all_eq_true.mpr fun ob hob => by rw [hno ob hob]; rfl
  rw [hall, Bool.and_true]
  exact hflag

theorem Client.Ticked.startStep {s s' : Client} {k : Clock} {sendOk : Bool} {o : List Obs}
    (h : s.Ticked k sendOk s' o) : StartStep s s' o := by
  have hsamples : ∀ (a : Call), ∀ ob ∈ a.samples k s.cp, ob.answersStart = false := by
    intro a ob hob
    obtain ⟨c', ty, k', rfl⟩ := Call.samples_eq hob
    rfl
  cases h with
  | idle f t v w hs ho =>
    subst hs ho
    exact .of_kept rfl (by simp) (by simp)
  | timeout w hw hs ho =>
    subst hs ho
    exact .of_kept rfl (by simp) (by simp)
  | failed a f t tx d v hw hg hb hs ho =>
    subst hs ho
    exact .of_kept (a.reqStartTsFlg k _) (hsamples a) fun _ => a.samples_isCall k s.cp _
  | called a f t tx d v hw hg hb hs ho =>
    subst hs ho
    refine .of_kept (a.reqStartTsFlg k _) (fun ob hob => ?_) fun hf ob hob => ?_
    · rcases List.mem_append.mp hob with hob | hob
      · exact hsamples a ob hob
      · rw [List.mem_singleton.mp hob]
        rfl
    · rcases List.mem_append.mp hob with hob | hob
      · exact a.samples_isCall k s.cp _ ob hob
      · simp only [List.mem_singleton] at hob
        subst hob
        by_contra hstop
        simp only [Obs.isCall, Bool.not_eq_false, Bool.and_eq_true, decide_eq_true_eq] at hstop
        -- the branch was the stop branch, which the pending start request shuts
        have ha : a.action = .stopTs := (Call.build_header hb).2.symm.trans hstop.2
        obtain rfl := Call.action_stopTs ha
        have hshut := (firstCall_stopTs hg.2).1
        exact absurd (hf.symm.trans hshut) (by simp)

theorem Client.Received.startStep {s s' : Client} {frame : List Char} {o : List Obs}
    (h : s.Received frame s' o) : StartStep s s' o := by
  cases h with
  | dropped rx d b hs ho =>
    subst hs ho
    exact .of_kept rfl (by simp) (by simp)
  | answered rx d c hw htype hact hid htext hparse hc hs ho =>
    subst hs ho
    by_cases hstart : rx.msg.actionCode = .cp .startTs
    · -- the handler of a StartTransaction answer takes the request back first
      have hm : s.callTxMsg.actionCode = .startTs := by simpa [hact] using hstart
      have hans : (Obs.answered frame rx.msg s.callTxMsg s.cp).answersStart = true := by
        simp [Obs.answersStart, hstart, hm, hid]
      refine ⟨?_, fun _ => by simp [Obs.isCall]⟩
      simp only [rxCallResDataProc, hstart] at hc
      simp only [List.all_cons, hans, Bool.not_true, Bool.false_and, Bool.and_false]
      exact (dataProcCmdStartTs_frame hc).2.1
    · refine .of_kept ?_ (fun ob hob => ?_) fun _ => by simp [Obs.isCall]
      · rw [(rxCallResDataProc_startTsQ hc).2 hstart]
      · rw [List.mem_singleton.mp hob]
        simp [Obs.answersStart, hstart]
  | served rx d b cmd j c tx tx' rx' sent hc htx hs hsent ho =>
    subst hs ho
    have hok := rxCallDataProc_ok hc
    have hres : (afterMakeOcppMsg tx).msg.msgType = msgTypeCallRes := hok.msgType
    refine .of_kept ?_ (fun ob hob => ?_) fun _ ob hob => ?_
    · rw [(Charger.billing_eq hok.billing).1]
    · rcases hsent with rfl | rfl
      · rw [List.mem_singleton.mp hob]
        rfl
      · simp only [List.mem_cons, List.not_mem_nil, or_false] at hob
        rcases hob with rfl | rfl <;> rfl
    · rcases hsent with rfl | rfl
      · rw [List.mem_singleton.mp hob]
        rfl
      · simp only [List.mem_cons, List.not_mem_nil, or_false] at hob
        rcases hob with rfl | rfl
        · rfl
        · simp [Obs.isCall, hres, msgTypeCall, msgTypeCallRes]

/-- **The step lemma.** -/
theorem step_startStep {s s' : Client} {e : Event} {o : List Obs} (h : step s e = some (s', o))
    (hno : ∀ ob ∈ o, ob.isRaise = false) : StartStep s s' o := by
  cases step_cases h with
  | quiet f rx b hs ho hrun =>
    subst hs ho
    exact .of_kept rfl (by simp) (by simp)
  | raised k he hreq hs ho =>
    subst ho
    exact absurd (hno _ (List.mem_singleton_self _)) (by simp [Obs.isRaise])
  | sampled k f ty he hty hdue hs ho =>
    subst hs ho
    exact .of_kept rfl (by simp [Obs.answersStart]) (by simp [Obs.isCall])
  | connected k sendOk he hc hs ho =>
    subst hs ho
    exact .of_kept rfl (by simp) (by simp)
  | ticked k sendOk connectOk he hc ht => exact ht.startStep
  | received frame j k sendOk he hc hr => exact hr.startStep
  | env w c he hw hs =>
    subst hs
    refine .of_kept ?_ ?_ fun _ => ?_
    · rw [(EnvWrite.apply_ok hw).startTsQ]
    · rcases EnvWrite.apply_obs hw with ho | ho <;> rw [show o = _ from ho] <;>
        simp [Obs.answersStart]
    · rcases EnvWrite.apply_obs hw with ho | ho <;> rw [show o = _ from ho] <;> simp [Obs.isCall]

/-- What is observed when a request is raised is that and nothing else. -/
theorem step_raise {s s' : Client} {e : Event} {o : List Obs} (h : step s e = some (s', o)) :
    (∃ k, e = .raiseStart k ∧ o = [.startRaised s.cp.scene.eqpWatt] ∧
      s'.cp.startTsQ.reqStartTsFlg = true ∧
      s'.cp.startTsQ.meterStartVal = s.cp.scene.eqpWatt) ∨
    (∀ ob ∈ o, ob.isRaise = false) := by
  cases step_cases h with
  | raised k he hreq hs ho => subst hs; exact .inl ⟨k, he, ho, rfl, rfl⟩
  | quiet f rx b hs ho hrun => subst ho; exact .inr (by simp)
  | sampled k f ty he hty hdue hs ho => subst ho; exact .inr (by simp [Obs.isRaise])
  | connected k sendOk he hc hs ho => subst ho; exact .inr (by simp)
  | ticked k sendOk connectOk he hc ht =>
    right
    intro ob hob
    rcases ht.obs hob with ⟨c, ty, k', rfl⟩ | ⟨frame, m, c, rfl⟩ <;> rfl
  | received frame j k sendOk he hc hr =>
    right
    cases hr with
    | dropped rx d b hs ho => subst ho; simp
    | answered rx d c hw htype hact hid htext hparse hc hs ho => subst ho; simp [Obs.isRaise]
    | served rx d b cmd j c tx tx' rx' sent hc htx hs hsent ho =>
      subst ho
      rcases hsent with rfl | rfl <;> simp [Obs.isRaise]
  | env w c he hw hs =>
    right
    rcases EnvWrite.apply_obs hw with ho | ho <;> rw [show o = _ from ho] <;> simp [Obs.isRaise]

/-- A pending request outlives the step unless it is answered. -/
theorem step_startKept {s s' : Client} {e : Event} {o : List Obs} (h : step s e = some (s', o))
    (hf : s.cp.startTsQ.reqStartTsFlg = true) :
    ((∀ ob ∈ o, ob.answersStart = false) → s'.cp.startTsQ.reqStartTsFlg = true) ∧
      ∀ ob ∈ o, ob.isCall .stopTs = false := by
  rcases step_raise h with ⟨k, -, rfl, hflag, -⟩ | hno
  · exact ⟨fun _ => hflag, by simp [Obs.isCall]⟩
  · have hs := step_startStep h hno
    refine ⟨fun hans => ?_, hs.shut hf⟩
    rw [hs.flag, hf, Bool.true_and]
    exact List.all_eq_true.mpr fun ob hob => by rw [hans ob hob]; rfl

theorem startOpen_append_of_no_raise {log o : List Obs} (h : ∀ ob ∈ o, ob.isRaise = false) :
    startOpen (log ++ o) = (startOpen log && o.all fun ob => !ob.answersStart) := by
  unfold startOpen
  rw [List.foldl_append]
  generalize List.foldl _ false log = b
  induction o generalizing b with
  | nil => simp
  | cons ob o ih =>
    have hob : ob.isRaise = false := h ob (by simp)
    rw [List.foldl_cons, ih (fun x hx => h x (by simp [hx]))]
    cases ob with
    | startRaised v => exact absurd hob (by simp [Obs.isRaise])
    | sent | answered | served | sampled | stopRaised => simp [Bool.and_assoc]

/-! ## Sessions

A session is a start request with what follows up to the next one. `SessionsStarted` asks of each
of them that its StartTransaction and the answer to it come first. That cannot hold of a request
that is raised over an open one, so `RaisedApart` is necessary; that it is enough is the run's
part. -/

/-- What follows on a start request begins with its StartTransaction and the answer to that: no
other request is raised before. -/
def StartAnswered (later : List Obs) : Prop :=
  ∃ p frame rx m c q, later = p ++ .answered frame rx m c :: q ∧
    (∀ ob ∈ p, ob.isRaise = false) ∧ (Obs.answered frame rx m c).answersStart = true ∧
    ∃ f c', .sent f m c' ∈ p ∧ m.msgType = msgTypeCall

/-- Every start request of a history was followed by its StartTransaction and the answer. -/
def SessionsStarted (log : List Obs) : Prop :=
  ∀ a v b, log = a ++ .startRaised v :: b → StartAnswered b

/-- No start request of a history was raised while an earlier one was open. -/
def RaisedApart (log : List Obs) : Prop :=
  Trace.Past (fun l ob => ob.isRaise = true → startOpen l = false) log

/-- **No StopTransaction overtakes a StartTransaction.** -/
def StopsBehind (log : List Obs) : Prop :=
  Trace.Past (fun l ob => ob.isCall .stopTs = true → SessionsStarted l) log

section Sessions
variable {log o l : List Obs} {x : Obs}

theorem StartAnswered.append (h : StartAnswered l) (o : List Obs) : StartAnswered (l ++ o) := by
  obtain ⟨p, frame, rx, m, c, q, rfl, hp, hans, hsent⟩ := h
  exact ⟨p, frame, rx, m, c, q ++ o, by simp, hp, hans, hsent⟩

/-- A request that is open was raised, and nothing has answered it since. -/
theorem startOpen_split (h : startOpen log = true) :
    ∃ a v b, log = a ++ .startRaised v :: b ∧ ∀ ob ∈ b, ob.answersStart = false := by
  induction log using List.reverseRecOn with
  | nil => exact absurd h (by simp [startOpen])
  | append_singleton log x ih =>
    cases hx : x.isRaise with
    | true =>
      cases x with
      | startRaised v => exact ⟨log, v, [], rfl, by simp⟩
      | sent | answered | served | sampled | stopRaised => exact absurd hx (by simp [Obs.isRaise])
    | false =>
      have happ := @startOpen_append_of_no_raise log [x]
        fun ob hob => List.mem_singleton.mp hob ▸ hx
      rw [h, List.all_cons, List.all_nil, Bool.and_true, eq_comm, Bool.and_eq_true,
        Bool.not_eq_true'] at happ
      obtain ⟨a, v, b, rfl, hb⟩ := ih happ.1
      refine ⟨a, v, b ++ [x], by simp, fun ob hob => ?_⟩
      rcases List.mem_append.mp hob with hob | hob
      · exact hb ob hob
      · exact List.mem_singleton.mp hob ▸ happ.2

/-- A request that is raised over an open one leaves that one without its answer. -/
theorem SessionsStarted.apart (h : SessionsStarted log) : RaisedApart log := by
  intro l x l' heq hraise
  by_contra hopen
  obtain ⟨a, v, b, rfl, hb⟩ := startOpen_split (by simpa using hopen)
  obtain ⟨p, frame, rx, m, c, q, hlater, hp, hans, -⟩ := h a v (b ++ x :: l') (by simpa using heq)
  -- the answer stands before the second request, where there is none
  rcases List.append_eq_append_iff.mp hlater with ⟨r, rfl, hr⟩ | ⟨r, rfl, hr⟩
  · cases r with
    | nil =>
      obtain ⟨rfl, -⟩ := List.cons.inj hr
      exact absurd hraise (by simp [Obs.isRaise])
    | cons y r =>
      obtain ⟨rfl, -⟩ := List.cons.inj hr
      have hx := hp x (by simp)
      exact absurd (hraise.symm.trans hx) (by simp)
  · cases r with
    | nil =>
      obtain ⟨rfl, -⟩ := List.cons.inj hr
      exact absurd hraise (by simp [Obs.isRaise])
    | cons y r =>
      obtain ⟨rfl, -⟩ := List.cons.inj hr
      have hnot := hb _ (List.mem_append_right p List.mem_cons_self)
      exact absurd (hans.symm.trans hnot) (by simp)

/-- Where a step raises nothing, a request of the history after it is one of the history before. -/
theorem raised_before {a b : List Obs} {v : UInt32} (hno : ∀ ob ∈ o, ob.isRaise = false)
    (h : log ++ o = a ++ .startRaised v :: b) :
    ∃ b', log = a ++ .startRaised v :: b' ∧ b = b' ++ o := by
  rcases List.append_eq_append_iff.mp h with ⟨r, rfl, hr⟩ | ⟨r, rfl, hr⟩
  · have hraise := hno (.startRaised v) (by rw [hr]; simp)
    exact absurd hraise (by simp [Obs.isRaise])
  · cases r with
    | nil =>
      have hraise := hno (.startRaised v) (by rw [show o = _ from hr.symm]; simp)
      exact absurd hraise (by simp [Obs.isRaise])
    | cons y r =>
      obtain ⟨rfl, rfl⟩ := List.cons.inj hr
      exact ⟨r, rfl, rfl⟩

theorem SessionsStarted.append (h : SessionsStarted log) (hno : ∀ ob ∈ o, ob.isRaise = false) :
    SessionsStarted (log ++ o) := by
  intro a v b heq
  obtain ⟨b', rfl, rfl⟩ := raised_before hno heq
  exact (h a v b' rfl).append o

end Sessions

/-! ## Every run

The invariant ties the flag to the log and keeps, for the last request, where its
StartTransaction is: still to be sent, outstanding, or answered. The answer that is matched is
the answer to the one CALL that is out, and while requests are raised apart this CALL is the
request's own. -/

/-- A StartTransaction is outstanding. -/
def Client.awaitsStart (s : Client) : Bool := s.bWaitResFlg && s.callTxMsg.actionCode = .startTs

/-- The StartTransaction of a request: still to be sent, or outstanding, with the request pending. -/
structure StartDue (s : Client) (b : List Obs) : Prop where
  last : ∀ ob ∈ b, ob.isRaise = false
  flag : s.cp.startTsQ.reqStartTsFlg = true
  sent : s.awaitsStart = true → ∃ f c, .sent f s.callTxMsg c ∈ b ∧ s.callTxMsg.msgType = msgTypeCall

/-- What a run keeps. -/
structure StartInv (s : Client) (log : List Obs) : Prop where
  pending : startOpen log = s.cp.startTsQ.reqStartTsFlg
  awaits : s.awaitsStart = true → s.cp.startTsQ.reqStartTsFlg = true
  sessions : RaisedApart log → ∀ a v b, log = a ++ .startRaised v :: b →
    StartAnswered b ∨ StartDue s b
  order : Trace.Past (fun l ob => ob.isCall .stopTs = true → startOpen l = false ∧
    (RaisedApart l → SessionsStarted l)) log

section Step
variable {s s' : Client} {log o : List Obs} {e : Event}

/-- What is outstanding after a step was so before, or is sent in it. -/
theorem Moved.awaitsStart (h : Moved s s' o) (haw : s'.awaitsStart = true) :
    (s.awaitsStart = true ∧ s'.callTxMsg = s.callTxMsg) ∨
      ∃ f c, .sent f s'.callTxMsg c ∈ o ∧ s'.callTxMsg.msgType = msgTypeCall := by
  have hw' : s'.bWaitResFlg = true ∧ s'.callTxMsg.actionCode = .startTs := by
    simpa [Client.awaitsStart] using haw
  cases h with
  | same ho hsame =>
    left
    rw [Client.outstanding_of_waiting hw'.1] at hsame
    unfold Client.outstanding at hsame
    split at hsame
    · rename_i hw
      have hmsg : s'.callTxMsg = s.callTxMsg := Option.some.inj hsame
      rw [hmsg] at hw'
      exact ⟨by simp [Client.awaitsStart, hw, hw'.2], hmsg⟩
    · exact absurd hsame (by simp)
  | call ho hw _ => exact .inr (mem_of_call_mem_acts (by simp [ho]))
  | answer ho hw hdown => exact absurd (hw'.1.symm.trans hdown) (by simp)
  | giveUp ho hw hdown => exact absurd (hw'.1.symm.trans hdown) (by simp)

/-- A StartTransaction is sent for a pending request only. -/
theorem step_awaitsStart (haw : s.awaitsStart = true → s.cp.startTsQ.reqStartTsFlg = true)
    (hstep : step s e = some (s', o)) (hno : ∀ ob ∈ o, ob.isRaise = false)
    (h : s'.awaitsStart = true) : s'.cp.startTsQ.reqStartTsFlg = true := by
  have hw' : s'.bWaitResFlg = true ∧ s'.callTxMsg.actionCode = .startTs := by
    simpa [Client.awaitsStart] using h
  -- no answer is handed over in a step that leaves one outstanding
  have hall : (o.all fun ob => !ob.answersStart) = true := by
    refine List.all_eq_true.mpr fun ob hob => ?_
    cases ob with
    | answered frame rx m c =>
      have hdown := (step_answered hstep hob).2.1
      exact absurd (hw'.1.symm.trans hdown) (by simp)
    | sent | served | sampled | startRaised | stopRaised => rfl
  rw [(step_startStep hstep hno).flag, hall, Bool.and_true]
  rcases (step_moved hstep).awaitsStart h with ⟨hbefore, -⟩ | ⟨frame, c, hmem, hcall⟩
  · exact haw hbefore
  · obtain ⟨k, a, f, t, tx, hg, hb, -, hm, -⟩ := step_sends hstep hmem hcall
    rw [hm] at hw'
    obtain rfl := Call.action_startTs ((Call.build_header hb).2.symm.trans hw'.2)
    exact firstCall_startTs (c := s.cp) hg.2

/-- The StartTransaction of a request after a step: answered now, or still due. -/
theorem StartDue.step {b : List Obs} (h : StartDue s b) (hstep : step s e = some (s', o))
    (hno : ∀ ob ∈ o, ob.isRaise = false) : StartAnswered (b ++ o) ∨ StartDue s' (b ++ o) := by
  have hs := step_startStep hstep hno
  by_cases hall : (o.all fun ob => !ob.answersStart) = true
  · right
    refine ⟨fun ob hob => ?_, by rw [hs.flag, h.flag, hall]; rfl, fun haw => ?_⟩
    · exact (List.mem_append.mp hob).elim (h.last ob) (hno ob)
    · rcases (step_moved hstep).awaitsStart haw with ⟨hbefore, hmsg⟩ | ⟨f, c, hmem, hcall⟩
      · rw [hmsg]
        obtain ⟨f, c, hmem, hcall⟩ := h.sent hbefore
        exact ⟨f, c, List.mem_append_left o hmem, hcall⟩
      · exact ⟨f, c, List.mem_append_right b hmem, hcall⟩
  · left
    obtain ⟨ob, hob, hans⟩ : ∃ ob ∈ o, ob.answersStart = true := by
      simpa [List.all_eq_true] using hall
    cases ob with
    | answered frame rx m c =>
      obtain ⟨hw, -, rfl, -⟩ := step_answered hstep hob
      have hm : s.callTxMsg.actionCode = .startTs := by
        simp only [Obs.answersStart, Bool.and_eq_true, decide_eq_true_eq] at hans
        exact hans.1.2
      obtain ⟨f, c', hmem, hcall⟩ := h.sent (by simp [Client.awaitsStart, hw, hm])
      obtain ⟨o₁, o₂, rfl⟩ := List.append_of_mem hob
      refine ⟨b ++ o₁, frame, rx, s.callTxMsg, c, o₂, by simp, fun ob hob => ?_, hans, f, c',
        List.mem_append_left o₁ hmem, hcall⟩
      rcases List.mem_append.mp hob with hob | hob
      · exact h.last ob hob
      · exact hno ob (List.mem_append_left _ hob)
    | sent | served | sampled | startRaised | stopRaised =>
      exact absurd hans (by simp [Obs.answersStart])

/-- A request is raised: where none is open, none is outstanding. -/
theorem StartInv.raised {v : UInt32} (hi : StartInv s log)
    (hflag : s'.cp.startTsQ.reqStartTsFlg = true) (haw : s'.awaitsStart = s.awaitsStart) :
    StartInv s' (log ++ [.startRaised v]) where
  pending := by
    rw [hflag]
    unfold startOpen
    rw [List.foldl_append]
    rfl
  awaits := fun _ => hflag
  sessions := by
    intro hapart a w b heq
    obtain ⟨hapart, hshut⟩ := Trace.past_concat.mp hapart
    have hdown : s.cp.startTsQ.reqStartTsFlg = false := hi.pending.symm.trans (hshut rfl)
    rcases List.eq_nil_or_concat b with rfl | ⟨b, x, rfl⟩
    · refine .inr ⟨by simp, hflag, fun h => ?_⟩
      rw [haw] at h
      exact absurd ((hi.awaits h).symm.trans hdown) (by simp)
    · rw [List.concat_eq_append] at heq ⊢
      rw [← List.cons_append, ← List.append_assoc] at heq
      have hlog : log = a ++ .startRaised w :: b := (List.append_inj' heq rfl).1
      rcases hi.sessions hapart a w b hlog with hans | hdue
      · exact .inl (hans.append [x])
      · exact absurd (hdue.flag.symm.trans hdown) (by simp)
  order := by
    refine hi.order.append fun l x l' heq hstop => ?_
    have hx : x ∈ [Obs.startRaised v] := heq ▸ List.mem_append_right l List.mem_cons_self
    rw [List.mem_singleton.mp hx] at hstop
    exact absurd hstop (by simp [Obs.isCall])

/-- A step that raises nothing. -/
theorem StartInv.kept (hi : StartInv s log) (hstep : step s e = some (s', o))
    (hno : ∀ ob ∈ o, ob.isRaise = false) : StartInv s' (log ++ o) where
  pending := by
    rw [startOpen_append_of_no_raise hno, hi.pending, (step_startStep hstep hno).flag]
  awaits := step_awaitsStart hi.awaits hstep hno
  sessions := by
    intro hapart a v b heq
    obtain ⟨b, rfl, rfl⟩ := raised_before hno heq
    rcases hi.sessions hapart.left a v b rfl with hans | hdue
    · exact .inl (hans.append o)
    · exact hdue.step hstep hno
  order := by
    refine hi.order.append fun l ob l' heq hstop => ?_
    have hl : ∀ x ∈ l, x.isRaise = false := fun x hx => hno x (by simp [heq, hx])
    -- a StopTransaction is transmitted in this step only where no start request is pending
    have hdown : s.cp.startTsQ.reqStartTsFlg = false := by
      by_contra hflag
      have hshut := (step_startStep hstep hno).shut (by simpa using hflag) ob (by simp [heq])
      exact absurd (hstop.symm.trans hshut) (by simp)
    refine ⟨?_, fun hapart => SessionsStarted.append (fun a v b hlog => ?_) hl⟩
    · rw [startOpen_append_of_no_raise hl, hi.pending, hdown, Bool.false_and]
    · rcases hi.sessions hapart.left a v b hlog with hans | hdue
      · exact hans
      · exact absurd (hdue.flag.symm.trans hdown) (by simp)

theorem startInv_step (hi : StartInv s log) (h : step s e = some (s', o)) :
    StartInv s' (log ++ o) := by
  by_cases hraise : ∃ k, e = .raiseStart k ∧ s.cp.cs.bReqStartTsNo ≠ 0
  · obtain ⟨k, rfl, hreq⟩ := hraise
    simp only [step, Client.raiseStart, if_pos hreq, Option.some.injEq, Prod.mk.injEq] at h
    obtain ⟨rfl, rfl⟩ := h
    exact hi.raised rfl rfl
  · refine hi.kept h ?_
    rcases step_raise h with ⟨k, rfl, rfl, -⟩ | hno
    · by_cases hreq : s.cp.cs.bReqStartTsNo = 0
      · simp [step, Client.raiseStart, hreq] at h
      · exact absurd ⟨k, rfl, hreq⟩ hraise
    · exact hno

end Step

theorem run_startInv {s : Client} {log : List Obs} (h : Run s log) : StartInv s log := by
  obtain ⟨st, now, h⟩ := h
  refine h.invariant (I := StartInv) ⟨rfl, fun h => ?_, fun _ a v b heq => ?_, .nil⟩ ?_
  · exact absurd h (by simp [Client.awaitsStart, Client.init])
  · simp at heq
  · intro s log e s' o hi _ hstep
    exact startInv_step hi hstep

/-- A pending start request outlives every continuation without its answer. -/
theorem pending_continues {s s' : Client} {o : List Obs} (hf : s.cp.startTsQ.reqStartTsFlg = true)
    (h : Trace.Always step s s' o) :
    (∀ ob ∈ o, ob.answersStart = false) →
      s'.cp.startTsQ.reqStartTsFlg = true ∧ ∀ ob ∈ o, ob.isCall .stopTs = false := by
  refine h.invariant (I := fun t o => (∀ ob ∈ o, ob.answersStart = false) →
    t.cp.startTsQ.reqStartTsFlg = true ∧ ∀ ob ∈ o, ob.isCall .stopTs = false)
    (fun _ => ⟨hf, by simp⟩) ?_
  intro t log e t' o ih _ hstep hno
  obtain ⟨hflg, hold⟩ := ih fun ob hob => hno ob (List.mem_append_left _ hob)
  obtain ⟨hkeep, hnew⟩ := step_startKept hstep hflg
  refine ⟨hkeep fun ob hob => hno ob (List.mem_append_right _ hob), fun ob hob => ?_⟩
  exact (List.mem_append.mp hob).elim (hold ob) (hnew ob)

/-- **Start durability and order.** In every run:

* the start request is pending exactly from when one is raised to when the answer to a
  StartTransaction is processed;
* while it is pending no event transmits a StopTransaction, and whatever happens next it
  stays pending until such an answer is processed;
* so no StopTransaction of the run was transmitted while a start request was open;
* and where one was transmitted, every start request raised before had its own StartTransaction
  sent and answered by then, if and only if none was raised while an earlier one was open. -/
theorem start_order {s : Client} {log : List Obs} (h : Run s log) :
    startOpen log = s.cp.startTsQ.reqStartTsFlg ∧
    (s.cp.startTsQ.reqStartTsFlg = true →
      (∀ e s' o, step s e = some (s', o) → ∀ ob ∈ o, ob.isCall .stopTs = false) ∧
      ∀ s' o, Trace.Always step s s' o → (∀ ob ∈ o, ob.answersStart = false) →
        s'.cp.startTsQ.reqStartTsFlg = true ∧ ∀ ob ∈ o, ob.isCall .stopTs = false) ∧
    (∀ l ob l', log = l ++ ob :: l' → ob.isCall .stopTs = true → startOpen l = false) ∧
    (∀ l ob l', log = l ++ ob :: l' → ob.isCall .stopTs = true →
      (SessionsStarted l ↔ RaisedApart l)) := by
  have hinv := run_startInv h
  refine ⟨hinv.pending, fun hf => ⟨fun e s' o hstep => ?_, fun s' o hcont => ?_⟩, ?_, ?_⟩
  · exact (step_startKept hstep hf).2
  · exact pending_continues hf hcont
  · intro l ob l' heq hstop
    exact (hinv.order l ob l' heq hstop).1
  · intro l ob l' heq hstop
    exact ⟨SessionsStarted.apart, (hinv.order l ob l' heq hstop).2⟩

/-- A session is started and stopped; the answer to the start comes in between. -/
def orderedRun : List Event :=
  bootedRun ++
  [ .env (.reqStartTs 1), .raiseStart (.reading 14 0), .netRun (.reading 15 5) true true,
    arrives "[3,\"5\",\x7b\x7d]", .env .reqStopTs, .netRun (.reading 16 6) true true ]

/-- The first session is over and a second is started before the answer to the first start; both
are stopped. -/
def secondStartRun : List Event :=
  bootedRun ++
  [ .env (.reqStartTs 1), .raiseStart (.reading 14 0), .netRun (.reading 15 5) true true,
    .env .reqStopTs, .env (.reqStartTs 1), .raiseStart (.reading 16 0),
    arrives "[3,\"5\",\x7b\x7d]", .netRun (.reading 17 6) true true,
    arrives "[3,\"6\",\x7b\x7d]", .env .reqStopTs, .netRun (.reading 18 7) true true ]

/-- The last observation is a StopTransaction. -/
def endsInStop (log : List Obs) : Bool := log.getLast?.any (Obs.isCall .stopTs)

/-- `RaisedApart`, in one pass over the history. -/
def raisedApart (log : List Obs) : Bool :=
  Trace.checkPast (fun l ob => !ob.isRaise || !startOpen l) [] log

theorem raisedApart_iff (log : List Obs) : raisedApart log = true ↔ RaisedApart log := by
  have hpass : ∀ l ob, (!Obs.isRaise ob || !startOpen l) = true ↔
      (ob.isRaise = true → startOpen l = false) := by
    intro l ob
    cases ob.isRaise <;> simp
  constructor
  · intro h l x l' heq
    exact (hpass l x).mp (Trace.past_of_checkPast h l x l' heq)
  · intro h
    exact Trace.checkPast_of_past fun l x l' heq => (hpass l x).mpr (h l x l' heq)

theorem endsInStop_split {log : List Obs} (h : endsInStop log = true) :
    ∃ ob, log = log.dropLast ++ [ob] ∧ ob.isCall .stopTs = true := by
  unfold endsInStop at h
  obtain ⟨ob, hlast, hstop⟩ := (Option.any_eq_true _ _).mp h
  exact ⟨ob, (List.dropLast_append_getLast? ob hlast).symm, hstop⟩

set_option maxRecDepth 20000 in
theorem start_order_session :
    ∃ s log ob, Run s (log ++ [ob]) ∧ ob.isCall .stopTs = true ∧ log.any Obs.isRaise = true ∧
      SessionsStarted log := by
  let p : Client → List Obs → Bool := fun _ log =>
    endsInStop log && log.dropLast.any Obs.isRaise && raisedApart log.dropLast
  have hrun : (Trace.exec step (fun _ _ _ => true) (Client.init 3 0) [] orderedRun).any
      (fun r => p r.1 r.2) = true := by decide +kernel
  obtain ⟨s, log, h, hp⟩ := exists_run_of_exec (p := p) hrun
  simp only [p, Bool.and_eq_true] at hp
  obtain ⟨⟨hends, hraise⟩, hapart⟩ := hp
  obtain ⟨ob, hlog, hstop⟩ := endsInStop_split hends
  refine ⟨s, log.dropLast, ob, hlog ▸ h, hstop, hraise, ?_⟩
  exact ((start_order h).2.2.2 _ ob [] hlog hstop).mpr ((raisedApart_iff _).mp hapart)

set_option maxRecDepth 20000 in
/-- **A StopTransaction whose StartTransaction was never sent**: a second start was raised before
the answer to the first, and that answer took its flag back. -/
theorem second_start_forgotten : ∃ s log, Run s log ∧ ¬ StopsBehind log := by
  let p : Client → List Obs → Bool := fun _ log => endsInStop log && !raisedApart log.dropLast
  have hrun : (Trace.exec step (fun _ _ _ => true) (Client.init 3 0) [] secondStartRun).any
      (fun r => p r.1 r.2) = true := by decide +kernel
  obtain ⟨s, log, h, hp⟩ := exists_run_of_exec (p := p) hrun
  simp only [p, Bool.and_eq_true, Bool.not_eq_true'] at hp
  obtain ⟨hends, hapart⟩ := hp
  obtain ⟨ob, hlog, hstop⟩ := endsInStop_split hends
  refine ⟨s, log, h, fun hbehind => ?_⟩
  have hstarted := hbehind _ ob [] hlog hstop
  exact absurd ((raisedApart_iff _).mpr hstarted.apart) (by simp [hapart])

end ChargePoint
