import ChargePoint.StopRequest

/-!
# The reported start value

A StartTransaction frame reports `startTsQ.MeterStart_Val * 10`. The field is written in two
places: where the start request is raised, with the reading of that moment, and in
`Add_MeterVal_Q`, with the reading of the sample — which needs the previous reading for its
difference and keeps it there. So a sample taken while the StartTransaction is still
unanswered moves the start value of the session to the time of the sample, and every
retransmission after it reports the later reading.

The product is a 32-bit one: from a reading of 429496730 on it is not ten times the reading.

`startSafe` excludes exactly these two, and the frames of a run without them carry the
captured reading (`start_reading_kept`).
-/

set_option autoImplicit false

namespace ChargePoint

open CStr

/-- The reading captured by the last start request of a history. -/
def captured (log : List Obs) : Option UInt32 :=
  log.foldl (fun r ob => match ob with | .startRaised v => some v | _ => r) none

theorem captured_append_of_no_raise {log o : List Obs} (h : ∀ ob ∈ o, ob.isRaise = false) :
    captured (log ++ o) = captured log := by
  unfold captured
  rw [List.foldl_append]
  generalize List.foldl _ none log = r
  induction o with
  | nil => rfl
  | cons ob o ih =>
    have hob : ob.isRaise = false := h ob (by simp)
    rw [List.foldl_cons]
    cases ob with
    | startRaised v => exact absurd hob (by simp [Obs.isRaise])
    | sent | answered | served | sampled | stopRaised =>
      exact ih fun x hx => h x (by simp [hx])

/-- The frame and the message behind it report `v` (times 10) as `meterStart`. -/
def Reports (frame : List Char) (m : TxMsg) (v : UInt32) : Prop :=
  (m.payload 2).propertyName = "meterStart".toList ∧
    (m.payload 2).propertyContants = dec (10 * v.toNat) ∧
    Shows frame "meterStart".toList (dec (10 * v.toNat))

/-! ## Safe events -/

/-- A periodic sample is due. -/
def Client.sampleDue (s : Client) (k : Clock) : Bool :=
  (checkSampledTime s.cp k.tmCheck).any fun r => r.1 ≠ 0

/-- **The event keeps the start value**: a start request is raised at a reading whose tenfold
fits, and while it is pending no sample is taken at another reading. -/
def startSafe (s : Client) : Event → Bool
  | .raiseStart _ => s.cp.cs.bReqStartTsNo = 0 || 10 * s.cp.scene.eqpWatt.toNat < 2 ^ 32
  | .sample k =>
    !s.cp.startTsQ.reqStartTsFlg || !s.sampleDue k ||
      s.cp.scene.eqpWatt = s.cp.startTsQ.meterStartVal
  | _ => true

/-! ## One step -/

/-- Only two branches sample, and neither is open while a start request is pending. -/
theorem Call.startTsQ_of_pending {a : Call} {k : Clock} {c : Charger} (hg : a.Guard c)
    (hf : c.startTsQ.reqStartTsFlg = true) : (a.finish (a.prepare k c)).startTsQ = c.startTsQ := by
  cases a with
  | stopTs =>
    have hshut := (firstCall_stopTs hg.2).1
    exact absurd (hf.symm.trans hshut) (by simp)
  | trigMeter =>
    have hshut := firstCall_none hg.2
    exact absurd (hf.symm.trans hshut) (by simp)
  | boot | meterVal | stat | dataTransJ1 | auth | mbrUntpc | startTs | chargeAmt | q1 | q2
  | trigDiag | trigFw | trigHb | trigStat | diagStat | fwStat | hb | cpSts => rfl

/-- What a step that raises no request does to the pending one. -/
structure ReadingKept (s s' : Client) : Prop where
  pending : s'.cp.startTsQ.reqStartTsFlg = true → s.cp.startTsQ.reqStartTsFlg = true
  reading : s.cp.startTsQ.reqStartTsFlg = true →
    s'.cp.startTsQ.meterStartVal = s.cp.startTsQ.meterStartVal

theorem ReadingKept.of_eq {s s' : Client} (h : s'.cp.startTsQ = s.cp.startTsQ) :
    ReadingKept s s' :=
  ⟨fun hf => h ▸ hf, fun _ => by rw [h]⟩

theorem Client.Ticked.readingKept {s s' : Client} {k : Clock} {sendOk : Bool} {o : List Obs}
    (h : s.Ticked k sendOk s' o) : ReadingKept s s' := by
  have hbranch : ∀ {a : Call} {f : Bool} {t : TrigMsgStat}, a.Guard (s.cp.pulse f t) →
      s'.cp = a.finish (a.prepare k (s.cp.pulse f t)) → ReadingKept s s' := by
    intro a f t hg hcp
    refine ⟨fun hf => ?_, fun hf => ?_⟩
    · rw [hcp, a.reqStartTsFlg] at hf
      exact hf
    · rw [hcp, Call.startTsQ_of_pending hg hf]
      rfl
  cases h with
  | idle f t v w hs ho hsen => subst hs; exact .of_eq rfl
  | timeout w hw hs ho => subst hs; exact .of_eq rfl
  | failed a f t tx d v hw hg hb hs ho => exact hbranch hg (by rw [hs])
  | called a f t tx d v hw hg hb hs ho => exact hbranch hg (by rw [hs])

theorem Client.Received.readingKept {s s' : Client} {frame : List Char} {o : List Obs}
    (h : s.Received frame s' o) : ReadingKept s s' := by
  cases h with
  | dropped rx d b hs ho => subst hs; exact .of_eq rfl
  | served rx d b cmd j c tx tx' rx' sent hc htx hs hsent ho =>
    subst hs
    exact .of_eq (Charger.billing_eq (rxCallDataProc_ok hc).billing).1
  | answered rx d c hw htype hact hid htext hparse hc hs ho =>
    subst hs
    have hval := rxCallResDataProc_startTsQ hc
    refine ⟨fun hf => ?_, fun _ => hval.1⟩
    by_cases hstart : rx.msg.actionCode = .cp .startTs
    · -- the handler of a StartTransaction answer takes the request back first
      simp only [rxCallResDataProc, hstart] at hc
      exact absurd ((dataProcCmdStartTs_frame hc).2.1.symm.trans hf) (by simp)
    · exact hval.2 hstart ▸ hf

theorem step_readingKept {s s' : Client} {e : Event} {o : List Obs}
    (h : step s e = some (s', o)) (hsafe : startSafe s e = true)
    (hno : ∀ ob ∈ o, ob.isRaise = false) : ReadingKept s s' := by
  cases step_cases h with
  | quiet f rx b hs ho hrun => subst hs; exact .of_eq rfl
  | raised k he hreq hs ho =>
    subst ho
    exact absurd (hno _ (List.mem_singleton.mpr rfl)) (by simp [Obs.isRaise])
  | sampled k f ty he hty hdue hs ho =>
    subst he hs
    have hdue : s.sampleDue k = true := by simp [Client.sampleDue, hdue, hty]
    refine ⟨id, fun hf => ?_⟩
    -- the sample overwrites the reading, with the same one
    simp only [startSafe, hf, hdue, Bool.not_true, Bool.or_self, Bool.false_or,
      decide_eq_true_eq] at hsafe
    exact hsafe
  | connected k sendOk he hc hs ho => subst hs; exact .of_eq rfl
  | ticked k sendOk connectOk he hc ht => exact ht.readingKept
  | received frame j k sendOk he hc hr => exact hr.readingKept
  | env w c he hw hs =>
    subst hs
    exact .of_eq (EnvWrite.apply_ok hw).startTsQ

/-- What the builder puts into the message and the serialiser into the frame. -/
theorem makeDataCmdStartTs_reports {c : Charger} {uid : UInt64} {tx : TxBuf} (rxId : List Char)
    {v : UInt32} (hv : c.startTsQ.meterStartVal = v) (hfit : 10 * v.toNat < 2 ^ 32) :
    Reports (makeOcppMsg (makeDataCmdStartTs c uid tx) rxId)
      (afterMakeOcppMsg (makeDataCmdStartTs c uid tx)).msg v := by
  subst hv
  have hval : (c.startTsQ.meterStartVal * 10).toNat = 10 * c.startTsQ.meterStartVal.toNat := by
    rw [UInt32.toNat_mul, Nat.mul_comm, show UInt32.toNat 10 = 10 from rfl]
    exact Nat.mod_eq_of_lt (by omega)
  have hp : ((makeDataCmdStartTs c uid tx).msg.payload 2).propertyName = "meterStart".toList ∧
      ((makeDataCmdStartTs c uid tx).msg.payload 2).propertyContants =
        dec (10 * c.startTsQ.meterStartVal.toNat) ∧
      ((makeDataCmdStartTs c uid tx).msg.payload 2).dataType = .int := by
    rw [← hval]
    exact ⟨rfl, rfl, rfl⟩
  have hafter : (afterMakeOcppMsg (makeDataCmdStartTs c uid tx)).msg.payload 2 =
      (makeDataCmdStartTs c uid tx).msg.payload 2 := rfl
  have hlen : 2 < (makeDataCmdStartTs c uid tx).msg.payloadLen := show 2 < 4 by omega
  have hshows := makeOcppMsg_shows rxId hlen hp.2.2
  rw [hp.1, hp.2.1, cstr_of_nulFree (nulFree_dec _)] at hshows
  exact ⟨by rw [hafter, hp.1], by rw [hafter, hp.2.1], hshows⟩

/-- A transmitted StartTransaction is built from the pending request. -/
theorem step_sendsStart {s s' : Client} {e : Event} {o : List Obs} {frame : List Char} {m : TxMsg}
    {c : Charger} (h : step s e = some (s', o)) (hmem : .sent frame m c ∈ o)
    (hcall : (Obs.sent frame m c).isCall .startTs = true) :
    s.cp.startTsQ.reqStartTsFlg = true ∧
      (10 * s.cp.startTsQ.meterStartVal.toNat < 2 ^ 32 →
        Reports frame m s.cp.startTsQ.meterStartVal) := by
  simp only [Obs.isCall, Bool.and_eq_true, decide_eq_true_eq] at hcall
  obtain ⟨k, a, f, t, tx, hg, hb, rfl, rfl, -⟩ := step_sends h hmem hcall.1
  obtain rfl := Call.action_startTs ((Call.build_header hb).2.symm.trans hcall.2)
  simp only [Call.build, Option.some.injEq] at hb
  subst hb
  have hfirst : firstCall s.cp = some .startTs := hg.2
  exact ⟨firstCall_startTs hfirst, makeDataCmdStartTs_reports _ rfl⟩

/-! ## Runs of safe events -/

/-- A StartTransaction reports the reading captured last. -/
def ReportsCaptured (log : List Obs) : Obs → Prop
  | .sent frame m c => (Obs.sent frame m c).isCall .startTs = true →
    ∃ v, captured log = some v ∧ Reports frame m v
  | _ => True

/-- The invariant: while a request is pending the field holds the captured reading, whose
tenfold fits. -/
structure ReadingInv (s : Client) (log : List Obs) : Prop where
  held : s.cp.startTsQ.reqStartTsFlg = true →
    captured log = some s.cp.startTsQ.meterStartVal ∧
      10 * s.cp.startTsQ.meterStartVal.toNat < 2 ^ 32
  reported : Trace.Past ReportsCaptured log

theorem readingInv_step {s s' : Client} {log : List Obs} {e : Event} {o : List Obs}
    (hi : ReadingInv s log) (hsafe : startSafe s e = true) (h : step s e = some (s', o)) :
    ReadingInv s' (log ++ o) := by
  rcases step_raise h with ⟨k, rfl, rfl, -, hval⟩ | hno
  · refine ⟨fun _ => ⟨?_, ?_⟩, hi.reported.append fun l ob l' heq => ?_⟩
    · rw [hval]
      simp [captured]
    · -- the request is raised, so the check was about the reading
      have hreq : s.cp.cs.bReqStartTsNo ≠ 0 := by
        intro hreq
        simp [step, Client.raiseStart, hreq] at h
      rw [hval]
      simpa [startSafe, hreq] using hsafe
    · have hob : ob ∈ [Obs.startRaised s.cp.scene.eqpWatt] := heq ▸ by simp
      rw [List.mem_singleton.mp hob]
      trivial
  · obtain ⟨hpend, hread⟩ := step_readingKept h hsafe hno
    refine ⟨fun hf => ?_, hi.reported.append fun l ob l' heq => ?_⟩
    · rw [captured_append_of_no_raise hno, hread (hpend hf)]
      exact hi.held (hpend hf)
    · cases ob with
      | sent frame m c =>
        intro hcall
        obtain ⟨hf, hrep⟩ := step_sendsStart h (heq ▸ by simp) hcall
        have hl : ∀ x ∈ l, x.isRaise = false := fun x hx => hno x (by simp [heq, hx])
        refine ⟨_, ?_, hrep (hi.held hf).2⟩
        rw [captured_append_of_no_raise hl]
        exact (hi.held hf).1
      | answered | served | sampled | startRaised | stopRaised => trivial

/-- A run of events that keep the start value. -/
abbrev StartRun : Client → List Obs → Prop := RunIf fun s _ e => startSafe s e = true

/-- **The start value of a session.** In every run in which start requests are raised at
readings whose tenfold fits, and no sample is taken at another reading while one is pending,
each StartTransaction frame, first or repeated, reports ten times the reading captured when
its request was raised. -/
theorem start_reading_kept {s : Client} {log : List Obs} (h : StartRun s log) :
    Trace.Past ReportsCaptured log := by
  obtain ⟨st, now, h⟩ := h
  have hinv : ReadingInv s log := by
    refine h.invariant (I := ReadingInv) ⟨?_, .nil⟩ ?_
    · exact fun hf => absurd hf (by simp [Client.init, Charger.init])
    · intro s log e s' o hi hsafe hstep
      exact readingInv_step hi hsafe hstep
  exact hinv.reported

/-! ## Concrete runs -/

/-- A scene that shows the charging screen and this reading. -/
def sceneAt (reading : UInt32) : Event :=
  .env (.scene ⟨[], 0, 0, 0, reading, 0, 0, true, false, .none, 0, 0⟩)

/-- Start a session at `reading`: connector 1 charges, its report is acknowledged, the start
request is raised. -/
def sessionRun (reading : UInt32) : List Event :=
  bootedRun ++
  [ .env (.setCpStatus .charging 1), .netRun (.reading 14 5) true true, arrives "[3,\"5\",\x7b\x7d]",
    sceneAt reading, .env (.reqStartTs 1), .raiseStart (.reading 15 0) ]

/-- The values a history reports as `meterStart`. -/
def reported (log : List Obs) : List (List Char) :=
  log.filterMap fun ob => match ob with
    | .sent _ m _ => if ob.isCall .startTs then some (m.payload 2).propertyContants else none
    | _ => none

set_option maxRecDepth 20000 in
theorem start_reading_kept_session :
    ∃ s log, StartRun s log ∧ reported log = [dec 1000] ∧ Trace.Past ReportsCaptured log := by
  have hrun : (Trace.exec step (fun s _ e => startSafe s e) (Client.init 3 0) []
      (sessionRun 100 ++ [.netRun (.reading 16 6) true true])).any
      (fun r => reported r.2 = [dec 1000]) = true := by decide +kernel
  obtain ⟨s, log, h, hp⟩ := exists_runIf_of_exec
    (g := fun s _ e => startSafe s e) (p := fun _ log => reported log = [dec 1000]) hrun
  exact ⟨s, log, h, by simpa using hp, start_reading_kept h⟩

set_option maxRecDepth 20000 in
/-- **A start value that moved**: the StartTransaction of a session raised at 100 fails to be
sent; the meter reaches 150, the sample of the minute is taken, and the StartTransaction sent
then reports 1500. -/
theorem start_reading_moved :
    ∃ s log, Run s log ∧ captured log = some 100 ∧ reported log = [dec 1500] := by
  let p : Client → List Obs → Bool := fun _ log =>
    captured log = some 100 && reported log = [dec 1500]
  have hrun : (Trace.exec step (fun _ _ _ => true) (Client.init 3 0) []
      (sessionRun 100 ++
      [ .netRun (.reading 16 6) false true, sceneAt 150,
        .sample { Clock.reading 20 7 with tmCheck := ⟨124, 0, 1, 0, 1, 0⟩ },
        .netRun (.reading 21 0) true true, .netRun (.reading 22 8) true true ])).any
      (fun r => p r.1 r.2) = true := by decide +kernel
  obtain ⟨s, log, h, hp⟩ := exists_run_of_exec hrun
  exact ⟨s, log, h, by simpa [p] using hp⟩

end ChargePoint
