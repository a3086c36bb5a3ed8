import ChargePoint.Lib.Ranking
import ChargePoint.BootGate
import ChargePoint.Ledger
import ChargePoint.StatusReport

/-!
# A client that is answered falls silent

An answer can make the next CALL due: Authorize is followed by the question for the member's price,
StopTransaction by the amount and a new status. What is due at one time is bounded, and no such
chain comes back on itself: every answered CALL lowers `Charger.load`, but for what the clock makes
due and for BootNotification, whose answer starts the charge point over.
-/

set_option autoImplicit false

namespace ChargePoint

open CStr Loop Ranking

/-! ## What is due

`Loads` has a number for each request that can stand open, `total` weighs them by the CALLs they
lead to. An Authorize counts twice, since its answer asks for the member's price; a
StopTransaction counts for the question for the amount and for the new status of its connector as
well. -/

/-- What the answers and the branches move beside the standing requests. -/
structure Rest where
  pre : Fin 2 → CpStatus
  chg : Fin 2 → Bool
  authNo : Nat
  start : Bool

def Charger.rest (c : Charger) : Rest :=
  ⟨c.cs.bPreCpStat, c.bCpStatChgFlg, c.cs.bReqAuthNo, c.startTsQ.reqStartTsFlg⟩

/-- The reports a firmware step still leads to. -/
def UpdateStep.load : UpdateStep → Nat
  | .downloaded => 2
  | .download | .instal | .instaled | .instalFail | .downloadFail => 1
  | .none | .chkDate | .downloading => 0

/-- What is due, request by request: 1 or 0, and up to 2 reports of the firmware. -/
@[ext] structure Loads where
  due : Fin 2 → Nat
  cost : Nat
  auth : Nat
  member : Nat
  start : Nat
  stop : Nat
  amount : Nat
  qr : Nat
  trigger : Nat
  diag : Nat
  fw : Nat

def Standing.loads (s : Standing) (r : Rest) (u : UpdateStep) : Loads where
  due i := if s.bCpStat i = r.pre i then (r.chg i).toNat else 1
  cost := (decide (s.bChargerCostCheck = 1 ∨ s.bChargerCostCheck = 2)).toNat
  auth := (decide (r.authNo ≠ 0)).toNat
  member := s.bReqMemberFlg.toNat
  start := r.start.toNat
  stop := s.bReqStopTsFlg.toNat
  amount := s.bReqChargeAmtFlg.toNat
  qr := (decide (s.bQrEventFlg = 1 ∨ s.bQrEventFlg = 2)).toNat
  trigger := (trigCall s.triggerMsgStat).isSome.toNat
  diag := (decide (diagStatUploading ≤ s.diagLogReqStep)).toNat
  fw := u.load

def Charger.loads (c : Charger) : Loads := c.standing.loads c.rest c.fw.updateStep

/-- The CALLs that what is due leads to: an Authorize has the member's price behind it, a
StopTransaction the amount and the connector's new status. -/
def Loads.total (l : Loads) : Nat :=
  l.due 0 + l.due 1 + l.cost + 2 * l.auth + l.member + l.start + 3 * l.stop + l.amount + l.qr +
    l.trigger + l.diag + l.fw

def Charger.load (c : Charger) : Nat := c.loads.total

theorem Charger.due_le (c : Charger) (i : Fin 2) : c.loads.due i ≤ 1 := by
  show (if c.cs.bCpStat i = c.cs.bPreCpStat i then (c.bCpStatChgFlg i).toNat else 1) ≤ 1
  split
  · exact Bool.toNat_le _
  · exact Nat.le_refl 1

section Answers
variable {rx : RxBuf} {c c' : Charger}

theorem dataProcCmdAuth_rest (h : dataProcCmdAuth rx c = some c') :
    c'.rest = { c.rest with authNo := 0 } := by
  simp only [dataProcCmdAuth, Option.map_eq_some_iff] at h
  obtain ⟨d, hd, rfl⟩ := h
  have hkept : d.rest = c.rest := by
    split at hd
    · refine forSubProps_inv (P := fun d => d.rest = c.rest) ?_ rfl hd
      intro q e e' he hb
      rw [← he]
      split at hb
      · split at hb
        · cases Option.some.inj hb
          rfl
        · cases Option.some.inj hb
          rfl
      · split at hb
        · split at hb
          · cases Option.some.inj hb
            rfl
          · cases hb
        · cases Option.some.inj hb
          rfl
    · cases Option.some.inj hd
      rfl
  exact congrArg (fun r : Rest => { r with authNo := 0 }) hkept

theorem bootAccept_rest (c : Charger) (i : Fin 2) : (bootAccept c i).rest = c.rest := by
  unfold bootAccept
  split
  · dsimp only
    split
    · rfl
    · rfl
  · rfl

/-- The answer to a BootNotification moves nothing but the statuses. -/
theorem dataProcCmdBoot_rest (h : dataProcCmdBoot rx c = some c') :
    c'.rest = { c.rest with pre := c'.cs.bPreCpStat } := by
  refine forProps_inv (P := fun d => d.rest = { c.rest with pre := d.cs.bPreCpStat }) ?_ rfl h
  intro p d d' hd hb
  have hset : ∀ pre, ({ d.rest with pre := pre } : Rest) = { c.rest with pre := pre } := fun pre =>
    congrArg (fun r : Rest => { r with pre := pre }) hd
  split at hb
  · cases Option.some.inj hb
    exact hd
  · split at hb
    · split at hb
      · split at hb
        · cases Option.some.inj hb
          have hone := (bootAccept_rest (bootAccept d 0) 1).trans (bootAccept_rest d 0)
          have hpre : (bootAccept (bootAccept d 0) 1).cs.bPreCpStat = d.cs.bPreCpStat :=
            congrArg Rest.pre hone
          exact hone.trans (hd.trans (congrArg (fun p => { c.rest with pre := p }) hpre.symm))
        · cases Option.some.inj hb
          exact hd
      · split at hb
        · cases Option.some.inj hb
          exact hset _
        · cases Option.some.inj hb
          exact hset _
    · cases Option.some.inj hb
      exact hd

theorem dataProcCmdStartTs_rest (h : dataProcCmdStartTs rx c = some c') :
    c'.rest = { c.rest with start := false } := by
  unfold dataProcCmdStartTs at h
  refine forProps_inv (P := fun d => d.rest = { c.rest with start := false }) ?_ rfl h
  intro p d d' hd hb
  rw [← hd]
  split at hb
  · refine forSubProps_inv (P := fun e => e.rest = d.rest) ?_ rfl hb
    intro q e e' he hq
    rw [← he]
    split at hq
    · cases Option.some.inj hq
      rfl
    · cases Option.some.inj hq
      rfl
  · split at hb
    · obtain ⟨i, _, rfl⟩ := Option.map_eq_some_iff.mp hb
      rfl
    · cases Option.some.inj hb
      rfl

/-- The answer to a StatusNotification takes the connector's status for reported. -/
theorem dataProcCmdStat_rest {callConn : List Char} (h : dataProcCmdStat callConn c = some c') :
    ∃ i, connIdx (string2Integer callConn).toUInt8.toNat = some i ∧
      c'.rest = { c.rest with
        pre := fun j => if j = i then c.cs.bCpStat i else c.cs.bPreCpStat j } := by
  obtain ⟨i, hi, rfl⟩ := Option.map_eq_some_iff.mp h
  refine ⟨i, hi, ?_⟩
  dsimp only
  split
  · rfl
  · rfl

theorem dataProcCmdStopTs_rest (h : dataProcCmdStopTs c = some c') : c'.rest = c.rest := by
  obtain ⟨d, _, rfl⟩ := Option.map_eq_some_iff.mp h
  dsimp only
  split
  · rfl
  · split
    · rfl
    · rfl

end Answers

/-- What a branch does beside taking its request. -/
theorem Call.rest (a : Call) (k : Clock) (c : Charger) :
    (a.finish (a.prepare k c)).rest = { c.rest with
      chg := match a with
        | .stat i => fun j => if j = i then false else c.bCpStatChgFlg j
        | _ => c.bCpStatChgFlg } := by
  have hadd : ∀ (d : Charger) (k : SampleClock) (ty : Nat),
      (addMeterValQ d k ty).rest = d.rest := fun d k ty => rfl
  cases a with
  | stopTs => exact hadd _ k.sample meterValTransType
  | trigMeter => exact hadd _ k.sample meterValTrigType
  | boot | meterVal | stat | dataTransJ1 | auth | mbrUntpc | startTs | chargeAmt | q1 | q2
  | trigDiag | trigFw | trigHb | trigStat | diagStat | fwStat | hb | cpSts => rfl

/-! ## What one answer leaves due

One lemma for each action, as an equation or a bound between the loads before and after the
handler. What the handler adds has been paid for in the weight of its CALL. -/

section Loads
variable {rx : RxBuf} {m : TxMsg} {c c' : Charger}

theorem loads_eq {st : Standing} {r : Rest} {u : UpdateStep} (hst : c'.standing = st)
    (hrest : c'.rest = r) (hfw : c'.fw.updateStep = u) : c'.loads = st.loads r u := by
  unfold Charger.loads
  rw [hst, hrest, hfw]

theorem fw_answered (h : rxCallResDataProc rx m c = some c') :
    c'.fw.updateStep = c.fw.updateStep :=
  congrArg (fun o : Orders => o.fw.updateStep) (rxCallResDataProc_orders h)

theorem loads_auth (h : rxCallResDataProc rx m c = some c') (hact : rx.msg.actionCode = .cp .auth) :
    c'.loads = { c.loads with auth := 0, member := c'.cs.bReqMemberFlg.toNat } := by
  have hst := rxCallResDataProc_standing h hact
  have hfw := fw_answered h
  simp only [rxCallResDataProc, hact] at h
  exact loads_eq hst (dataProcCmdAuth_rest h) hfw

/-- The statuses and the cost check are all a BootNotification's answer can make due. -/
theorem loads_boot (h : rxCallResDataProc rx m c = some c') (hact : rx.msg.actionCode = .cp .boot) :
    c'.loads = { c.loads with due := c'.loads.due, cost := c'.loads.cost } := by
  have hst := rxCallResDataProc_standing h hact
  have hfw := fw_answered h
  simp only [rxCallResDataProc, hact] at h
  have hloads := loads_eq hst (dataProcCmdBoot_rest h) hfw
  have hdue := congrArg Loads.due hloads
  have hcost := congrArg Loads.cost hloads
  rw [hloads]
  rfl

theorem loads_startTs (h : rxCallResDataProc rx m c = some c')
    (hact : rx.msg.actionCode = .cp .startTs) : c'.loads = { c.loads with start := 0 } := by
  have hst := rxCallResDataProc_standing h hact
  have hfw := fw_answered h
  simp only [rxCallResDataProc, hact] at h
  exact loads_eq hst (dataProcCmdStartTs_rest h) hfw

theorem loads_stopTs (h : rxCallResDataProc rx m c = some c')
    (hact : rx.msg.actionCode = .cp .stopTs) :
    c'.loads = { c.loads with due := c'.loads.due, stop := 0, amount := 1 } ∧
      c'.loads.due 0 = c.loads.due 0 := by
  have hst := rxCallResDataProc_standing h hact
  have hfw := fw_answered h
  simp only [rxCallResDataProc, hact] at h
  have hcur := dataProcCmdStopTs_cur h
  have hrest := dataProcCmdStopTs_rest h
  have hloads := loads_eq hst hrest hfw
  refine ⟨?_, ?_⟩
  · rw [hloads]
    rfl
  · unfold Charger.loads Standing.loads
    dsimp only
    rw [hrest]
    show (if c'.cs.bCpStat 0 = c.rest.pre 0 then (c.rest.chg 0).toNat else 1) = _
    rw [hcur]
    rfl

/-- The answers that make nothing due. -/
theorem loads_other (h : rxCallResDataProc rx m c = some c') {a : CpReqAction}
    (hact : rx.msg.actionCode = .cp a)
    (ha : a = .hb ∨ a = .meterVal ∨ a = .dataTrans ∨ a = .diagStat ∨ a = .fwStat) :
    c'.loads = c.loads := by
  simp only [rxCallResDataProc, hact] at h
  rcases ha with rfl | rfl | rfl | rfl | rfl
  · cases Option.some.inj h
    rfl
  · cases Option.some.inj h
    rfl
  · cases Option.some.inj h
    rfl
  · cases Option.some.inj h
    rfl
  · cases Option.some.inj h
    rfl

/-- A cost check that waits for a StatusNotification becomes due with its answer. -/
theorem cost_reported {n m : Nat} (h : m = if n = 1 then 2 else n) :
    (m = 1 ∨ m = 2) ↔ (n = 1 ∨ n = 2) := by
  split at h
  · omega
  · rw [h]

/-- The answer to a StatusNotification takes the connector it named for reported. -/
theorem loads_stat (h : rxCallResDataProc rx m c = some c') (hact : rx.msg.actionCode = .cp .stat)
    {i : Fin 2} (hm : (m.payload 0).propertyContants = dec i.val) :
    c'.loads = { c.loads with
      due := fun j => if j = i then (c.bCpStatChgFlg i).toNat else c.loads.due j } := by
  have hst := rxCallResDataProc_standing h hact
  have hfw := fw_answered h
  simp only [rxCallResDataProc, hact] at h
  obtain ⟨j, hj, hrest⟩ := dataProcCmdStat_rest h
  rw [hm, connIdx_dec] at hj
  obtain rfl := Option.some.inj hj
  have hloads := loads_eq hst hrest hfw
  have hdue : c'.loads.due =
      fun j => if j = i then (c.bCpStatChgFlg i).toNat else c.loads.due j := by
    funext j
    rw [hloads]
    show (if c.cs.bCpStat j = (if j = i then c.cs.bCpStat i else c.cs.bPreCpStat j) then
      (c.bCpStatChgFlg j).toNat else 1) = _
    by_cases hji : j = i
    · subst hji
      rw [if_pos rfl, if_pos rfl, if_pos rfl]
    · rw [if_neg hji, if_neg hji]
      rfl
  have hcost : c'.loads.cost = c.loads.cost := by
    rw [hloads]
    have hset : (if CpReqAction.stat = .boot then c'.bChargerCostCheck
        else if CpReqAction.stat = .stat ∧ c.bChargerCostCheck = 1 then 2
        else c.bChargerCostCheck) =
        if c.bChargerCostCheck = 1 then 2 else c.bChargerCostCheck := by simp
    exact congrArg Bool.toNat (decide_eq_decide.mpr (cost_reported hset))
  rw [hloads] at hdue hcost ⊢
  exact Loads.ext hdue hcost rfl rfl rfl rfl rfl rfl rfl rfl rfl

end Loads

/-! ## What a branch takes -/

/-- The connector whose StatusNotification is no longer marked. -/
theorem Call.loads (a : Call) (k : Clock) (c : Charger) (f : Bool) (t : TrigMsgStat) :
    (a.finish (a.prepare k (c.pulse f t))).loads = { c.loads with
      due := fun i =>
        if a = .stat i then if c.cs.bCpStat i = c.cs.bPreCpStat i then 0 else 1 else c.loads.due i
      cost := if a = .dataTransJ1 then 0 else c.loads.cost
      member := if a = .mbrUntpc then 0 else c.loads.member
      stop := if a = .stopTs then 0 else c.loads.stop
      amount := if a = .chargeAmt then 0 else c.loads.amount
      qr := if a = .q1 ∨ a = .q2 then 0 else c.loads.qr
      trigger := if a.takesTrig then 0 else (trigCall t).isSome.toNat
      diag := if a = .diagStat then 0 else c.loads.diag
      fw := if a = .fwStat then c.fw.updateStep.reported.load else c.loads.fw } := by
  have hst := a.standing k (c.pulse f t)
  have hrest := a.rest k (c.pulse f t)
  have hfw : (a.finish (a.prepare k (c.pulse f t))).fw.updateStep =
      if a = .fwStat then c.fw.updateStep.reported else c.fw.updateStep := by
    have hprep := congrArg Orders.fw (a.prepare_orders k (c.pulse f t))
    have hfin := congrArg Orders.fw (a.finish_orders (a.prepare k (c.pulse f t)))
    have hprep : (a.prepare k (c.pulse f t)).fw = c.fw := hprep
    have hfin : (a.finish (a.prepare k (c.pulse f t))).fw = _ := hfin
    rw [hfin, hprep]
    split
    · rfl
    · rfl
  rw [loads_eq hst hrest hfw]
  cases a with
  | stat i =>
    refine Loads.ext ?_ rfl rfl rfl rfl rfl rfl rfl rfl rfl rfl
    funext j
    by_cases hji : j = i
    · subst hji
      show (if c.cs.bCpStat j = c.cs.bPreCpStat j then
        (if j = j then false else c.bCpStatChgFlg j).toNat else 1) = _
      rw [if_pos rfl]
      exact (if_pos rfl).symm
    · have hne : Call.stat i ≠ .stat j := fun h => hji (Call.stat.inj h).symm
      simp only [Standing.loads, hji, hne, if_false]
      rfl
  | boot | meterVal | dataTransJ1 | auth | mbrUntpc | startTs | stopTs | chargeAmt | q1 | q2
  | trigDiag | trigFw | trigHb | trigMeter | trigStat | diagStat | fwStat | hb | cpSts => rfl

/-! ## One round

A round is a CALL that is built, sent and answered with nothing in between. The branch takes its
request and the answer may add some: where the branch settles something, the sum goes down. -/

/-- A CALL that is built, sent and answered, with nothing in between. -/
def Client.Round (s : Client) (a : Call) (s' : Client) : Prop :=
  ∃ k connectOk t l frame j k' sendOk l',
    journal s (.netRun k true connectOk) = some (t, l) ∧ .inl (.made a) ∈ l ∧
    journal t (.recv frame j k' sendOk) = some (s', l') ∧
    ∃ rx m c, .inr (.answered frame rx m c) ∈ l'

/-- What a round comes to: the branch, and the handler of its action's answer. -/
theorem Client.Round.charger {s s' : Client} {a : Call} (h : s.Round a s') :
    ∃ k f t rx m, a.Due s.cp ∧
      (a.takesTrig = false → t = s.cp.cs.triggerMsgStat ∨ t = .none) ∧
      rxCallResDataProc rx m (a.finish (a.prepare k (s.cp.pulse f t))) = some s'.cp ∧
      rx.msg.actionCode = .cp a.action ∧
      (∀ i, a = .stat i ∨ a = .trigStat ∧ i = 1 → (m.payload 0).propertyContants = dec i.val) := by
  obtain ⟨k, connectOk, t, l, frame, j, k', sendOk, l', hcall, hmade, hrecv, rx, m, c, hans⟩ := h
  obtain ⟨hc, t₀, hsen₀⟩ := made_of_mem hcall hmade
  obtain ⟨o', hr, rfl⟩ := Trace.annotate_eq hrecv
  have hans : .answered frame rx m c ∈ o' := by simpa using hans
  obtain ⟨o, ht, rfl⟩ := Trace.annotate_eq hcall
  have hmade : .made a ∈ s.notes (.netRun k true connectOk) := by simpa using hmade
  -- the receive step: what was dispatched is the answer to the CALL that is out
  have hanswered : t.bConnect = true ∧ ∃ rx, rxCallResDataProc rx t.callTxMsg t.cp = some s'.cp ∧
      rx.msg.actionCode = .cp t.callTxMsg.actionCode := by
    simp only [step] at hr
    split at hr
    · rename_i hup
      cases recv_cases hr with
      | dropped rx d b hs ho =>
        rw [ho] at hans
        cases hans
      | answered rx d c hw htype hact hid htext hparse hproc hs ho =>
        refine ⟨hup, rx, ?_, hact⟩
        rw [hs]
        exact hproc
      | served rx d b cmd j c tx tx' rx' sent hproc htx hs hsent ho =>
        rw [ho] at hans
        rcases hsent with rfl | rfl
        · simp at hans
        · simp at hans
    · cases hr
      cases hans
  obtain ⟨hup, rx, hproc, hact⟩ := hanswered
  simp only [step, Client.netRun, hc, if_true] at ht
  have hafter : t.cp = t₀.cp := by
    simp only [Client.tick, hsen₀] at ht
    obtain ⟨rfl, -⟩ := Prod.mk.inj (Option.some.inj ht)
    exact Client.trans_cp t₀ k true
  -- the tick: a round builds a CALL and sends it, which leaves one case of four
  cases tick_cases ht with
  | idle f tr v w hs ho hnone =>
    obtain ⟨u, hnone⟩ := hnone
    rw [hsen₀] at hnone
    cases hnone
  | timeout w hw hs ho => exact absurd (hw.symm.trans (Client.senario_some hsen₀).1) (by simp)
  | failed a' f tr tx d v hw hg hb hs ho hk hsen =>
    rw [hs] at hup
    cases hup
  | called a' f tr tx d v hw hg hb hs ho hk hsen =>
    obtain ⟨u, hsen⟩ := hsen
    rw [hsen₀] at hsen
    cases hsen
    have hmsg : t.callTxMsg = (afterMakeOcppMsg tx).msg := by rw [hs]
    have hcp : t.cp = a.finish (a.prepare k (s.cp.pulse f tr)) := by rw [hs]
    have hactCall : t.callTxMsg.actionCode = a.action := by
      rw [hmsg]
      exact (Call.build_header hb).2
    refine ⟨k, f, tr, rx, t.callTxMsg, Client.senario_due hsen₀,
      Client.pulse_trigger hsen₀ (hcp.symm.trans hafter), hcp ▸ hproc, hactCall ▸ hact,
      fun i hi => ?_⟩
    rw [hmsg]
    rcases hi with rfl | ⟨rfl, rfl⟩
    · obtain rfl := Option.some.inj hb
      exact makeDataCmdStat_conn ..
    · obtain rfl := Option.some.inj hb
      exact makeDataCmdStat_conn ..

/-- The CALLs that settle something: not those of the clock, and not BootNotification. -/
def Call.settles : Call → Bool
  | .boot | .meterVal | .hb | .cpSts => false
  | _ => true

theorem firstCall_stat {c : Charger} {i : Fin 2} (h : firstCall c = some (.stat i)) :
    statDue c i = true := by
  simp only [firstCall, ite_eq_iff, Option.some.injEq, Call.stat.injEq, reduceCtorEq, and_false,
    or_false] at h
  rcases h with ⟨hdue, rfl⟩ | ⟨-, hdue, rfl⟩
  · exact hdue
  · exact hdue

theorem firstCall_auth {c : Charger} (h : firstCall c = some .auth) : c.cs.bReqAuthNo ≠ 0 := by
  simp only [firstCall, ite_eq_iff, Option.some.injEq, reduceCtorEq, and_false, false_or,
    or_false] at h
  obtain ⟨-, -, -, hauth, -⟩ := h
  exact hauth

theorem lateCall_reports {c : Charger} (h : lateCall c = some .fwStat) :
    c.fw.updateStep.reported.load + 1 ≤ c.fw.updateStep.load := by
  unfold lateCall at h
  split at h
  · cases h
  · cases hstep : c.fw.updateStep with
    | instal | instaled | instalFail | download | downloaded | downloadFail => decide
    | none | chkDate | downloading =>
      rw [hstep] at h
      cases h

theorem bit_one {b : Bool} (h : b = true) : b.toNat = 1 := by
  rw [h]
  rfl

/-- A branch whose answer makes nothing due takes one request. -/
theorem Call.load_taken {a : Call} {k : Clock} {c : Charger} {f : Bool} {t : TrigMsgStat}
    (hdue : a.Due c) (htrig : a.takesTrig = false → (trigCall t).isSome.toNat ≤ c.loads.trigger)
    (ha : a.action ≠ .boot ∧ a.action ≠ .auth ∧ a.action ≠ .startTs ∧ a.action ≠ .stopTs ∧
      a.action ≠ .stat) :
    (a.finish (a.prepare k (c.pulse f t))).load + a.settles.toNat ≤ c.load := by
  have hcall := a.loads k c f t
  unfold Charger.load Loads.total
  -- the CALL was due by one flag, and takes it back: counted field by field
  cases a with
  | boot => exact absurd rfl ha.1
  | auth => exact absurd rfl ha.2.1
  | startTs => exact absurd rfl ha.2.2.1
  | stopTs => exact absurd rfl ha.2.2.2.1
  | stat i => exact absurd rfl ha.2.2.2.2
  | trigStat => exact absurd rfl ha.2.2.2.2
  | meterVal | hb | cpSts =>
    have htrig := htrig rfl
    rw [hcall]
    simp only [Call.takesTrig, Call.settles, reduceCtorEq, if_false, Bool.toNat_false, or_self,
      Bool.false_eq_true]
    omega
  | dataTransJ1 =>
    have htrig := htrig rfl
    have hone : c.loads.cost = 1 := bit_one (decide_eq_true (.inr (firstCall_dataTransJ1 hdue)))
    rw [hcall]
    simp only [Call.takesTrig, Call.settles, reduceCtorEq, if_false, if_true, or_self,
      Bool.false_eq_true, Bool.toNat_true]
    omega
  | mbrUntpc =>
    have htrig := htrig rfl
    have hone : c.loads.member = 1 := bit_one (firstCall_mbrUntpc hdue)
    rw [hcall]
    simp only [Call.takesTrig, Call.settles, reduceCtorEq, if_false, if_true, or_self,
      Bool.false_eq_true, Bool.toNat_true]
    omega
  | chargeAmt =>
    have htrig := htrig rfl
    have hone : c.loads.amount = 1 := bit_one (firstCall_chargeAmt hdue)
    rw [hcall]
    simp only [Call.takesTrig, Call.settles, reduceCtorEq, if_false, if_true, or_self,
      Bool.false_eq_true, Bool.toNat_true]
    omega
  | q1 =>
    have htrig := htrig rfl
    have hone : c.loads.qr = 1 := bit_one (decide_eq_true (.inl (firstCall_q1 hdue)))
    rw [hcall]
    simp only [Call.takesTrig, Call.settles, reduceCtorEq, if_false, if_true,
      true_or, Bool.false_eq_true, Bool.toNat_true]
    omega
  | q2 =>
    have htrig := htrig rfl
    have hone : c.loads.qr = 1 := bit_one (decide_eq_true (.inr (firstCall_q2 hdue)))
    rw [hcall]
    simp only [Call.takesTrig, Call.settles, reduceCtorEq, if_false, if_true,
      or_true, Bool.false_eq_true, Bool.toNat_true]
    omega
  | diagStat =>
    have htrig := htrig rfl
    have hone : c.loads.diag = 1 := bit_one (decide_eq_true (lateCall_diagStat hdue))
    rw [hcall]
    simp only [Call.takesTrig, Call.settles, reduceCtorEq, if_false, if_true, or_self,
      Bool.false_eq_true, Bool.toNat_true]
    omega
  | trigDiag | trigFw | trigHb | trigMeter =>
    have hone : c.loads.trigger = 1 := bit_one (Option.isSome_iff_exists.mpr ⟨_, hdue⟩)
    rw [hcall]
    simp only [Call.takesTrig, Call.settles, reduceCtorEq, if_false, if_true, or_self,
      Bool.toNat_true]
    omega
  | fwStat =>
    have htrig := htrig rfl
    have hless : c.fw.updateStep.reported.load + 1 ≤ c.loads.fw := lateCall_reports hdue
    rw [hcall]
    simp only [Call.takesTrig, Call.settles, reduceCtorEq, if_false, if_true, or_self,
      Bool.false_eq_true, Bool.toNat_true]
    omega

theorem Charger.due_one {c : Charger} {i : Fin 2} (h : statDue c i = true) : c.loads.due i = 1 := by
  show (if c.cs.bCpStat i = c.cs.bPreCpStat i then (c.bCpStatChgFlg i).toNat else 1) = 1
  split
  · rename_i heq
    simp only [statDue, heq, ne_eq, not_true_eq_false, decide_false, Bool.false_or] at h
    exact bit_one h
  · rfl

/-- A connector that is marked is due. -/
theorem Charger.chg_le_due (c : Charger) (i : Fin 2) :
    (c.bCpStatChgFlg i).toNat ≤ c.loads.due i := by
  show _ ≤ if c.cs.bCpStat i = c.cs.bPreCpStat i then (c.bCpStatChgFlg i).toNat else 1
  split
  · exact Nat.le_refl _
  · exact Bool.toNat_le _

/-- **A round lowers the load.** A BootNotification may make both statuses due, and the cost. -/
theorem Client.Round.load {s s' : Client} {a : Call} (h : s.Round a s') :
    s'.cp.load + a.settles.toNat ≤ s.cp.load + 3 * (decide (a = .boot)).toNat := by
  obtain ⟨k, f, t, rx, m, hdue, htrig, hres, hact, hconn⟩ := h.charger
  have hcall := a.loads k s.cp f t
  have htrig : a.takesTrig = false → (trigCall t).isSome.toNat ≤ s.cp.loads.trigger := by
    intro ha
    rcases htrig ha with rfl | rfl
    · exact Nat.le_refl _
    · exact Nat.zero_le _
  -- answers that raise nothing
  have hother : (a.action = .hb ∨ a.action = .meterVal ∨ a.action = .dataTrans ∨
      a.action = .diagStat ∨ a.action = .fwStat) →
      s'.cp.load + a.settles.toNat ≤ s.cp.load + 3 * (decide (a = .boot)).toNat := by
    intro ha
    have htaken := Call.load_taken (k := k) (f := f) hdue htrig (by
      rcases ha with ha | ha | ha | ha | ha <;> simp [ha])
    have hans : s'.cp.load = _ := congrArg Loads.total (loads_other hres hact ha)
    rw [hans]
    exact htaken.trans (Nat.le_add_right _ _)
  -- the others raise what their handlers raise, three requests at most
  unfold Charger.load Loads.total
  cases a with
  | boot =>
    have hans := loads_boot hres hact
    have hdue0 := s'.cp.due_le 0
    have hdue1 := s'.cp.due_le 1
    have hcost : s'.cp.loads.cost ≤ 1 := Bool.toNat_le _
    have htrig := htrig rfl
    rw [hcall] at hans
    rw [hans]
    simp only [Call.takesTrig, Call.settles, reduceCtorEq, if_false, decide_true, Bool.toNat_false,
      or_self, Bool.false_eq_true, Bool.toNat_true]
    omega
  | auth =>
    have hans := loads_auth hres hact
    have hone : s.cp.loads.auth = 1 := bit_one (decide_eq_true (firstCall_auth hdue))
    have hmember := Bool.toNat_le s'.cp.cs.bReqMemberFlg
    have htrig := htrig rfl
    rw [hcall] at hans
    rw [hans]
    simp only [Call.takesTrig, Call.settles, reduceCtorEq, if_false, decide_false,
      Bool.toNat_false, or_self, Bool.false_eq_true, Bool.toNat_true]
    omega
  | startTs =>
    have hans := loads_startTs hres hact
    have hone : s.cp.loads.start = 1 := bit_one (firstCall_startTs hdue)
    have htrig := htrig rfl
    rw [hcall] at hans
    rw [hans]
    simp only [Call.takesTrig, Call.settles, reduceCtorEq, if_false, decide_false,
      Bool.toNat_false, or_self, Bool.false_eq_true, Bool.toNat_true]
    omega
  | stopTs =>
    obtain ⟨hans, hzero⟩ := loads_stopTs hres hact
    have hdue1 := s'.cp.due_le 1
    have hone : s.cp.loads.stop = 1 := bit_one (firstCall_stopTs hdue).2
    have htrig := htrig rfl
    rw [hcall] at hans hzero
    have hzero : s'.cp.loads.due 0 = s.cp.loads.due 0 := hzero
    rw [hans]
    simp only [Call.takesTrig, Call.settles, reduceCtorEq, if_false, decide_false,
      Bool.toNat_false, or_self, Bool.false_eq_true, Bool.toNat_true]
    omega
  | stat i =>
    have hchg : ((Call.stat i).finish ((Call.stat i).prepare k (s.cp.pulse f t))).bCpStatChgFlg i =
        false := if_pos rfl
    have hans := loads_stat hres hact (hconn i (.inl rfl))
    have hone := Charger.due_one (firstCall_stat hdue)
    have htrig := htrig rfl
    rw [hcall, hchg] at hans
    rw [hans]
    have hcases : i = 0 ∨ i = 1 := by omega
    rcases hcases with rfl | rfl
    · simp only [Call.takesTrig, Call.settles, reduceCtorEq, Call.stat.injEq, Fin.isValue,
        Fin.reduceEq, if_false, if_true, decide_false, Bool.toNat_false, Bool.toNat_true, or_self,
        Bool.false_eq_true]
      omega
    · simp only [Call.takesTrig, Call.settles, reduceCtorEq, Call.stat.injEq, Fin.isValue,
        Fin.reduceEq, if_false, if_true, decide_false, Bool.toNat_false, Bool.toNat_true, or_self,
        Bool.false_eq_true]
      omega
  | trigStat =>
    have hchg : (Call.trigStat.finish (Call.trigStat.prepare k (s.cp.pulse f t))).bCpStatChgFlg 1 =
        s.cp.bCpStatChgFlg 1 := rfl
    have hans := loads_stat hres hact (hconn 1 (.inr ⟨rfl, rfl⟩))
    have hone : s.cp.loads.trigger = 1 := bit_one (Option.isSome_iff_exists.mpr ⟨_, hdue⟩)
    have hle := s.cp.chg_le_due 1
    rw [hcall, hchg] at hans
    rw [hans]
    simp only [Call.takesTrig, Call.settles, reduceCtorEq, Fin.isValue, Fin.reduceEq,
      if_false, if_true, decide_false, Bool.toNat_false, Bool.toNat_true, or_self]
    omega
  | hb | trigHb | meterVal | trigMeter | dataTransJ1 | mbrUntpc | chargeAmt | q1 | q2 | cpSts
  | trigDiag | diagStat | trigFw | fwStat => exact hother (by simp [Call.action])

/-! ## Silence

The other half: if a tick builds none of the CALLs that settle something, then none was due. The
branches are tried in order and the first that is due is taken, so a tick that takes none has found
every condition false; the exceptions are a cost check that waits for a StatusNotification and what
the clock makes due. -/

def Remark.call : Remark → Option Call
  | .made a => some a
  | _ => none

def Entry.call : Entry → Option Call
  | .inl n => n.call
  | .inr _ => none

def Entry.answers (frame : List Char) : Entry → Bool
  | .inr (.answered f _ _ _) => f = frame
  | _ => false

end ChargePoint
