import ChargePoint.Journal
import ChargePoint.Standing

/-!
# The boot gate

Until the central system has accepted the charge point, no CALL but a BootNotification is to go out.
The gate is connector 0's status: `OCPP_CALL_Senario` builds BootNotifications while it is NONE or
PEND and nothing else, and `Tsct_Curl_Ws_Recv` sends no answer while it is NONE.

What opens the gate is an accepted BootNotification, or a status another thread writes. A third
way is not obvious: a charge point that is kept pending serves requests, and ChangeAvailability
gives connector 0 a status.
-/

set_option autoImplicit false

namespace ChargePoint

open CStr

/-- A property of the answer accepts the boot. -/
def acceptsBoot (m : RxMsg) : Bool :=
  ((List.range (m.payloadLen + 1)).map m.payload).any fun p =>
    p.named "status" && p.holds "Accepted"

/-- The entries that can open the gate. -/
def opensGate : Entry → Bool
  | .inr (.answered _ rx _ _) => rx.actionCode = .cp .boot && acceptsBoot rx
  | .inr (.served _ rx) => rx.actionCode = .cs .changeAvail
  | .inl (.wrote (.setCpStatus _ ch)) => ch = 0
  | _ => false

/-! ## The answer to a BootNotification

`acceptsBoot` looks at the properties of the message, not at what the handler makes of them. The
loop of the handler goes over these properties and keeps the gate shut at each that does not
accept. -/

/-- The loop rule for the properties of this message. -/
theorem forProps_inv_mem {σ : Type} {rx : RxBuf} {body : Payload → σ → Option σ} {P : σ → Prop}
    (keep : ∀ p ∈ rx.props, ∀ s s', P s → body p s = some s' → P s') {s s' : σ} (hs : P s)
    (h : forProps rx body s = some s') : P s' := by
  rw [forProps_eq] at h
  split at h
  · have hfold : ∀ (ps : List Payload) (t : σ), (∀ p ∈ ps, p ∈ rx.props) → P t →
        ps.foldlM (fun s p => body p s) t = some s' → P s' := by
      intro ps
      induction ps with
      | nil =>
        intro t _ ht h
        cases h
        exact ht
      | cons p ps ih =>
        intro t hps ht h
        rw [List.foldlM_cons, Option.bind_eq_bind, Option.bind_eq_some_iff] at h
        obtain ⟨u, hbody, h⟩ := h
        apply ih u (fun q hq => hps q (List.mem_cons_of_mem p hq)) _ h
        exact keep p (hps p List.mem_cons_self) t u ht hbody
    exact hfold rx.props s (fun p hp => hp) hs h
  · cases h

/-- An answer that does not accept the boot leaves the gate shut. -/
theorem dataProcCmdBoot_shut {rx : RxBuf} {c c' : Charger} (h : dataProcCmdBoot rx c = some c')
    (hno : acceptsBoot rx.msg = false) (hc : (c.cs.bCpStat 0).notBooted = true) :
    (c'.cs.bCpStat 0).notBooted = true := by
  unfold dataProcCmdBoot at h
  refine forProps_inv_mem (P := fun d => (d.cs.bCpStat 0).notBooted = true) ?_ hc h
  intro p hp d d' hd hb
  have hp : (p.named "status" && p.holds "Accepted") = false := by
    have hall := List.any_eq_false.mp hno p hp
    simpa using hall
  split at hb
  · cases Option.some.inj hb
    exact hd
  · split at hb
    · rename_i hstatus
      rw [hstatus, Bool.true_and] at hp
      rw [hp] at hb
      simp only [Bool.false_eq_true, if_false] at hb
      split at hb
      · cases Option.some.inj hb
        rfl
      · cases Option.some.inj hb
        rfl
    · cases Option.some.inj hb
      exact hd

/-- The status of the charge point is none of a StopTransaction's business. -/
theorem dataProcCmdStopTs_cur {c c' : Charger} (h : dataProcCmdStopTs c = some c') :
    c'.cs.bCpStat 0 = c.cs.bCpStat 0 := by
  obtain ⟨d, hd, rfl⟩ := Option.map_eq_some_iff.mp h
  have hone : d = 1 := by
    unfold Charger.devConn connIdx at hd
    split at hd
    · cases hd
      apply Fin.ext
      show _ + 1 = 1
      omega
    · cases hd
  subst hone
  dsimp only
  split
  · rfl
  · split
    · rfl
    · rfl

/-! ## One event

The case split over what an event can do is made twice, once for what takes the status past PEND
(`Noted.gate`), and once for the status with which a frame goes out (`Noted.gated`). -/

/-- **What opens the gate is written down.** -/
theorem Client.Noted.gate {s s' : Client} {n : List Remark} {o : List Obs} (h : s.Noted s' n o)
    (hlow : (s.cp.cs.bCpStat 0).notBooted = true) (hup : (s'.cp.cs.bCpStat 0).notBooted = false) :
    ∃ e ∈ (n.map .inl ++ o.map .inr : List Entry), opensGate e = true := by
  have hsame : s'.cp.cs.bCpStat 0 ≠ s.cp.cs.bCpStat 0 := by
    intro heq
    rw [heq, hlow] at hup
    cases hup
  -- an answer, a request and another thread can write a status; no other step does
  cases h with
  | quiet f rx b hb hs hn ho =>
    subst hs
    exact absurd rfl hsame
  | raised k hreq hs hn ho =>
    subst hs
    exact absurd rfl hsame
  | sampled k f ty hn hs ho =>
    subst hs
    exact absurd rfl hsame
  | connected hc hs hn ho =>
    subst hs
    exact absurd rfl hsame
  | idle k f t v w hc hsen hs hn ho =>
    subst hs
    exact absurd rfl hsame
  | gaveUp k w hc hw hsen hs hn ho =>
    subst hs
    exact absurd rfl hsame
  | failed k a f t tx d v hc hw hsen hg hb hs hn ho =>
    subst hs
    have hcur := congrArg Standing.bCpStat (a.standing k (s.cp.pulse f t))
    exact absurd (congrFun hcur 0) hsame
  | called k a f t tx d v hc hw hsen hg hb hs hn ho =>
    subst hs
    have hcur := congrArg Standing.bCpStat (a.standing k (s.cp.pulse f t))
    exact absurd (congrFun hcur 0) hsame
  | dropped rx d b hc hs hn ho =>
    subst hs
    exact absurd rfl hsame
  | answered frame rx d c hc hw hact hid hproc hs hn ho =>
    subst hs ho
    refine ⟨.inr (.answered frame rx.msg s.callTxMsg s.cp), by simp, ?_⟩
    have hcur : c.cs.bCpStat = if s.callTxMsg.actionCode = .boot ∨ s.callTxMsg.actionCode = .stopTs
        then c.cs.bCpStat else s.cp.cs.bCpStat :=
      congrArg Standing.bCpStat (rxCallResDataProc_standing hproc hact)
    -- two handlers of answers write a status, and that of a StopTransaction not connector 0's
    by_cases hboot : s.callTxMsg.actionCode = .boot
    · have hboots : dataProcCmdBoot rx s.cp = some c := by
        simpa only [rxCallResDataProc, hact, hboot] using hproc
      have hacc : acceptsBoot rx.msg = true := by
        by_contra hno
        have hshut := dataProcCmdBoot_shut hboots (by simpa using hno) hlow
        exact absurd (hshut.symm.trans hup) (by simp)
      simp [opensGate, hact, hboot, hacc]
    · by_cases hstop : s.callTxMsg.actionCode = .stopTs
      · have hstops : dataProcCmdStopTs s.cp = some c := by
          simpa only [rxCallResDataProc, hact, hstop] using hproc
        exact absurd (dataProcCmdStopTs_cur hstops) hsame
      · rw [if_neg (by simp [hboot, hstop])] at hcur
        exact absurd (congrFun hcur 0) hsame
  | served frame rx rx' d b cmd j c tx tx' sent hc hcmd hproc hs hsent hgate hn ho =>
    subst hs ho
    refine ⟨.inr (.served frame rx.msg), by simp, ?_⟩
    have hcur : c.cs.bCpStat = if cmd = .changeAvail then c.cs.bCpStat else s.cp.cs.bCpStat :=
      congrArg Standing.bCpStat (rxCallDataProc_standing hproc).1
    by_cases havail : cmd = .changeAvail
    · simp [opensGate, hcmd, havail]
    · rw [if_neg havail] at hcur
      exact absurd (congrFun hcur 0) hsame
  | env w c hw hs hn =>
    subst hs hn
    refine ⟨.inl (.wrote w), by simp, ?_⟩
    cases w with
    | setCpStatus code ch =>
      obtain ⟨i, hi, heq⟩ := Option.map_eq_some_iff.mp hw
      cases heq
      unfold connIdx at hi
      split at hi
      · cases hi
        by_contra hch
        have hch : ch ≠ 0 := by simpa [opensGate] using hch
        have hne : (0 : Fin 2) ≠ ⟨ch, by assumption⟩ := by
          intro heq
          exact hch (congrArg Fin.val heq).symm
        exact absurd (if_neg hne) hsame
      · cases hi
    | scene | reqStopTs | reqStartTs | reqAuth | scndCardNo | clearParentId | qrEvent | rmtStart
    | rmtStop | diagLogReqStep | updateStep | chargingStatus | devChannel | stopTsConfig =>
      obtain ⟨rfl, -⟩ := Prod.mk.inj (Option.some.inj hw)
      exact absurd rfl hsame

/-- What connector 0's status says of a frame that goes out. -/
structure BootGated (m : TxMsg) (c : Charger) : Prop where
  call : m.msgType = msgTypeCall → (m.actionCode = .boot ↔ (c.cs.bCpStat 0).notBooted = true)
  answer : m.msgType = msgTypeCallRes → c.cs.bCpStat 0 ≠ .none

/-- Only the boot branch builds BootNotifications, and only while the gate is shut. -/
theorem Call.Guard.gated {a : Call} {c : Charger} (h : a.Guard c) :
    a.action = .boot ↔ (c.cs.bCpStat 0).notBooted = true := by
  cases a with
  | boot => exact ⟨fun _ => h, fun _ => rfl⟩
  | meterVal =>
    have h : (c.cs.bCpStat 0).notBooted = false := h
    simp [Call.action, h]
  | stat | dataTransJ1 | auth | mbrUntpc | startTs | stopTs | chargeAmt | q1 | q2 | trigDiag
  | trigFw | trigHb | trigMeter | trigStat | diagStat | fwStat | hb | cpSts =>
    have h : (c.cs.bCpStat 0).notBooted = false := h.1
    simp [Call.action, h]

theorem Client.Noted.gated {s s' : Client} {n : List Remark} {o : List Obs} (h : s.Noted s' n o)
    {frame : List Char} {m : TxMsg} {c : Charger} (hmem : .sent frame m c ∈ o) : BootGated m c := by
  cases h with
  | quiet f rx b hb hs hn ho => subst ho; cases hmem
  | raised k hreq hs hn ho => subst ho; simp at hmem
  | sampled k f ty hn hs ho => subst ho; simp at hmem
  | connected hc hs hn ho => subst ho; cases hmem
  | idle k f t v w hc hsen hs hn ho => subst ho; cases hmem
  | gaveUp k w hc hw hsen hs hn ho => subst ho; cases hmem
  | failed k a f t tx d v hc hw hsen hg hb hs hn ho =>
    subst ho
    obtain ⟨c', ty, k', heq⟩ := Call.samples_eq hmem
    cases heq
  | called k a f t tx d v hc hw hsen hg hb hs hn ho =>
    subst ho
    rcases List.mem_append.mp hmem with hmem | hmem
    · obtain ⟨c', ty, k', heq⟩ := Call.samples_eq hmem
      cases heq
    · cases List.mem_singleton.mp hmem
      obtain ⟨htype, haction⟩ := Call.build_header hb
      have hcur := congrArg Standing.bCpStat (a.standing k (s.cp.pulse f t))
      refine ⟨fun _ => ?_, fun hres => ?_⟩
      · have hact : (afterMakeOcppMsg tx).msg.actionCode = a.action := haction
        have hcur : (a.finish (a.prepare k (s.cp.pulse f t))).cs.bCpStat = s.cp.cs.bCpStat := hcur
        rw [hact, hcur]
        exact hg.gated
      · have htype : (afterMakeOcppMsg tx).msg.msgType = msgTypeCall := htype
        rw [htype] at hres
        cases hres
  | dropped rx d b hc hs hn ho => subst ho; cases hmem
  | answered fr rx d c' hc hw hact hid hproc hs hn ho => subst ho; simp at hmem
  | served fr rx rx' d b cmd j c' tx tx' sent hc hcmd hproc hs hsent hgate hn ho =>
    subst ho
    rcases List.mem_cons.mp hmem with heq | hmem
    · cases heq
    · obtain ⟨f, m', heq, hres⟩ := hsent _ hmem
      cases heq
      refine ⟨fun hcall => ?_, fun _ hnone => ?_⟩
      · rw [hres] at hcall
        cases hcall
      · -- the handler gives no status back to NONE
        rcases (rxCallDataProc_ok hproc).cur 0 with hcur | hcur | hcur
        · rw [hgate (hcur ▸ hnone)] at hmem
          cases hmem
        · rw [hnone] at hcur
          cases hcur
        · rw [hnone] at hcur
          cases hcur
  | env w c' hw hs hn =>
    rcases EnvWrite.apply_obs hw with ho | ho
    · rw [show o = _ from ho] at hmem
      cases hmem
    · rw [show o = _ from ho] at hmem
      simp at hmem

/-! ## Every run

The induction is over the run. `gate_opened` is what holds of each state; `boot_gate` uses it of
the state in which a frame went out. -/

/-- **Whatever is past the gate has something behind it that opened it.** -/
theorem gate_opened {s : Client} {log : List Entry} (h : Journaled s log)
    (hup : (s.cp.cs.bCpStat 0).notBooted = false) : ∃ e ∈ log, opensGate e = true := by
  obtain ⟨st, now, h⟩ := h
  refine h.invariant (I := fun s log => (s.cp.cs.bCpStat 0).notBooted = false →
    ∃ e ∈ log, opensGate e = true) (fun hinit => ?_) ?_ hup
  · cases hinit
  · intro s log e s' l ih _ hstep hup
    obtain ⟨n, o, rfl, hnoted⟩ := journal_cases hstep
    cases hlow : (s.cp.cs.bCpStat 0).notBooted with
    | true =>
      obtain ⟨x, hx, hopens⟩ := hnoted.gate hlow hup
      exact ⟨x, List.mem_append_right _ hx, hopens⟩
    | false =>
      obtain ⟨x, hx, hopens⟩ := ih hlow
      exact ⟨x, List.mem_append_left _ hx, hopens⟩

/-- **The boot gate.** In every run, each frame that goes out was let through by connector 0's
status at that moment: a CALL is a BootNotification exactly while the status is NONE or PEND, and
no answer goes out while it is NONE. And a CALL that is no BootNotification has something behind
it that opened the gate: an answer that accepts the boot, a ChangeAvailability, or a status
written by another thread. -/
theorem boot_gate {s : Client} {log : List Entry} (h : Journaled s log) :
    Trace.Past (fun l x => ∀ frame m c, x = .inr (.sent frame m c) → BootGated m c ∧
      (m.msgType = msgTypeCall → m.actionCode ≠ .boot → ∃ e ∈ l, opensGate e = true)) log := by
  obtain ⟨st, now, h⟩ := h
  induction h with
  | start => exact .nil
  | @step s s' log o' e hpast _ hnext ih =>
    obtain ⟨o, hstep, rfl⟩ := Trace.annotate_eq hnext
    refine ih.append ?_
    intro l x l' heq frame m c hx
    have hmem : .sent frame m c ∈ o := by
      have hin : x ∈ (s.notes e).map .inl ++ o.map .inr := by
        rw [heq]
        exact List.mem_append_right l List.mem_cons_self
      rw [hx] at hin
      simpa using hin
    have hgated := (step_noted hstep).gated hmem
    refine ⟨hgated, fun hcall hne => ?_⟩
    obtain ⟨k, a, f, t, tx, -, -, -, -, hc, -⟩ := step_sends hstep hmem hcall
    have hcur := congrArg Standing.bCpStat (a.standing k (s.cp.pulse f t))
    rw [← hc] at hcur
    have hup : (c.cs.bCpStat 0).notBooted = false := by
      by_contra hlow
      exact hne ((hgated.call hcall).mpr (by simpa using hlow))
    have hbefore := congrFun hcur 0
    have hbefore : c.cs.bCpStat 0 = s.cp.cs.bCpStat 0 := congrFun hcur 0
    rw [hbefore] at hup
    obtain ⟨x, hx, hopens⟩ := gate_opened ⟨st, now, hpast⟩ hup
    exact ⟨x, List.mem_append_left _ hx, hopens⟩

/-- The entry is a StatusNotification that goes out. -/
def isReport : Entry → Bool
  | .inr (.sent _ m _) => m.msgType = msgTypeCall && m.actionCode = .stat
  | _ => false

theorem isReport_sent {e : Entry} (h : isReport e = true) :
    ∃ frame m c, e = .inr (.sent frame m c) ∧ m.msgType = msgTypeCall ∧ m.actionCode = .stat := by
  cases e with
  | inl n => cases h
  | inr ob =>
    cases ob with
    | sent frame m c =>
      simp only [isReport, Bool.and_eq_true, decide_eq_true_eq] at h
      exact ⟨frame, m, c, rfl, h⟩
    | answered | served | sampled | startRaised | stopRaised => cases h

/-- The boot, and the StatusNotification of connector 0. -/
def reportRun : List Event := bootRun "20" ++ [.netRun (.reading 20 21) true true]

set_option maxRecDepth 20000 in
theorem boot_gate_reported : ∃ s log l frame m c l', Journaled s log ∧
    log = l ++ .inr (.sent frame m c) :: l' ∧ m.actionCode = .stat ∧
    (c.cs.bCpStat 0).notBooted = false ∧ ∃ e ∈ l, opensGate e = true := by
  have hrun : (Trace.exec journal (fun _ _ _ => true) (Client.init 3 0) [] reportRun).any
      (fun r => r.2.any isReport) = true := by decide +kernel
  obtain ⟨s, log, h, hp⟩ := exists_journaled_of_exec (p := fun _ log => log.any isReport) hrun
  obtain ⟨e, hmem, he⟩ := List.any_eq_true.mp hp
  obtain ⟨frame, m, c, rfl, hcall, hstat⟩ := isReport_sent he
  obtain ⟨l, l', hlog⟩ := List.append_of_mem hmem
  obtain ⟨hgated, hopened⟩ := boot_gate h l _ l' hlog frame m c rfl
  have hne : m.actionCode ≠ .boot := by simp [hstat]
  have hlow : ¬ (c.cs.bCpStat 0).notBooted = true := fun hlow => hne ((hgated.call hcall).mpr hlow)
  exact ⟨s, log, l, frame, m, c, l', h, hlog, hstat, by simpa using hlow, hopened hcall hne⟩

end ChargePoint
