import ChargePoint.MeterSamples

/-!
# Reported statuses

`bPreCpStat[i]` is meant to be the status the central system last acknowledged for connector
`i`: a StatusNotification is due while it differs from the current one. But
`DataProcCmd_Stat` stores the status that is current when the answer *arrives*, not the one
that was sent. A change in between is then taken for reported.

`statSafe` excludes that: an answer to a StatusNotification finds the connector still in the
status that was sent. (It also excludes a screen that sets the charge point's own status
before the boot is accepted, which makes the client look booted.) In a run of safe events a
status that is not due was acknowledged (`status_reported`).

The invariant is about `bPreCpStat` alone: it is either not above PEND, or the text last
acknowledged (`StatInv.seen`).
-/

set_option autoImplicit false

namespace ChargePoint

open CStr SingleCall

/-! ## What was acknowledged

The acknowledged text is read off the log: it is the status that the CALL of the last answered
StatusNotification had shown for its connector. -/

/-- The status text of an acknowledged StatusNotification for connector `i`. -/
def Obs.report (i : Fin 2) : Obs → Option (List Char)
  | .answered _ _ m _ =>
    if m.actionCode = .stat ∧ (m.payload 0).propertyContants = dec i.val then
      some (m.payload 2).propertyContants
    else none
  | _ => none

/-- The status text last acknowledged for connector `i`. -/
def lastReport (i : Fin 2) (log : List Obs) : Option (List Char) :=
  (log.filterMap (Obs.report i)).getLast?

theorem lastReport_append_none {i : Fin 2} {log o : List Obs}
    (h : o.filterMap (Obs.report i) = []) : lastReport i (log ++ o) = lastReport i log := by
  simp [lastReport, List.filterMap_append, h]

theorem lastReport_append_some {i : Fin 2} {log : List Obs} {ob : Obs} {t : List Char}
    (h : ob.report i = some t) : lastReport i (log ++ [ob]) = some t := by
  simp [lastReport, List.filterMap_append, h]

/-- A StatusNotification is outstanding. -/
def Client.awaitsStat (s : Client) : Bool := s.bWaitResFlg && s.callTxMsg.actionCode = .stat

/-- **No status change is lost**: booted, with no StatusNotification outstanding and none due
for connector `i`, the status last acknowledged for it is the current one. -/
def StatusReported (s : Client) (log : List Obs) : Prop :=
  ∀ i, (s.cp.cs.bCpStat 0).notBooted = false → s.awaitsStat = false →
    s.cp.cs.bPreCpStat i = s.cp.cs.bCpStat i → s.cp.bCpStatChgFlg i = false →
    ∃ t, statText (s.cp.cs.bCpStat i) = some t ∧ lastReport i log = some t

/-! ## Safe events -/

/-- The connector `DataProcCmd_Stat` takes from the CALL that was answered. -/
def Client.statConn (s : Client) : Option (Fin 2) :=
  connIdx (string2Integer (s.callTxMsg.payload 0).propertyContants).toUInt8.toNat

/-- The frame answers an outstanding StatusNotification. -/
def Client.answersStat (s : Client) (frame : List Char) : Bool :=
  s.bConnect && s.awaitsStat &&
    (parseData s.callTxMsg.actionCode s.dataTransUniqueId clearRxMsgBuff frame).any fun d =>
      !d.err && d.rx.msg.msgType = 3 && d.rx.msg.uniqueId = s.callTxMsg.uniqueId

/-- The connector is still in the status that was sent. -/
def Client.stillSent (s : Client) : Bool :=
  s.statConn.all fun i =>
    statText (s.cp.cs.bCpStat i) = some (s.callTxMsg.payload 2).propertyContants

/-- **The event loses no status change.** -/
def statSafe (s : Client) : Event → Bool
  | .recv frame _ _ _ => !s.answersStat frame || s.stillSent
  | .env (.setCpStatus _ ch) =>
    ch ≠ 0 || !(s.cp.cs.bCpStat 0).notBooted || !(s.cp.cs.bCpStat 1).notBooted
  | _ => true

/-! ## One step

All but one event leave the reported statuses alone or take them back to one of before the boot;
that is `StatMoved`. The one is the answer to a StatusNotification, and `statSafe` is asked for it
alone, and for a screen before the boot. -/

/-- The charge point is not ahead of its connector. -/
def Charger.Up (c : Charger) : Prop :=
  (c.cs.bCpStat 0).notBooted = false → (c.cs.bCpStat 1).notBooted = false

/-- What everything but the answer to a StatusNotification does to the statuses. -/
structure StatMoved (c c' : Charger) : Prop where
  up : c.Up → c'.Up
  pre : ∀ i, c'.cs.bPreCpStat i = c.cs.bPreCpStat i ∨ (c'.cs.bPreCpStat i).notBooted = true

theorem StatMoved.of_eq {c c' : Charger} (h : c'.statuses = c.statuses) : StatMoved c c' := by
  obtain ⟨hcur, hpre⟩ := Charger.statuses_eq h
  refine ⟨fun hup => ?_, fun i => .inl (congrFun hpre i)⟩
  unfold Charger.Up
  rw [hcur]
  exact hup

theorem StatMoved.trans {c c' c'' : Charger} (h : StatMoved c c') (h' : StatMoved c' c'') :
    StatMoved c c'' := by
  refine ⟨fun hup => h'.up (h.up hup), fun i => ?_⟩
  rcases h'.pre i with heq | hlow
  · rw [heq]
    exact h.pre i
  · exact .inr hlow

theorem bootAccept_cur (c : Charger) (i : Fin 2) :
    ((bootAccept c i).cs.bCpStat i).notBooted = false ∧
      (∀ j, j ≠ i → (bootAccept c i).cs.bCpStat j = c.cs.bCpStat j) ∧
      (bootAccept c i).cs.bPreCpStat = c.cs.bPreCpStat := by
  unfold bootAccept
  split
  · dsimp only
    split <;>
      exact ⟨by simp [Charger.setCpStatus, CpStatus.notBooted],
        fun j hj => by simp [Charger.setCpStatus, hj], rfl⟩
  · exact ⟨by simp [Charger.setCpStatus, CpStatus.notBooted],
      fun j hj => by simp [Charger.setCpStatus, hj], rfl⟩

theorem bootHold_moved {c : Charger} {code : CpStatus} (hcode : code.notBooted = true) :
    StatMoved c (bootHold c code) := by
  have hboth : ∀ i : Fin 2, (bootHold c code).cs.bCpStat i = code ∧
      (bootHold c code).cs.bPreCpStat i = code :=
    Fin.forall_fin_two.mpr ⟨⟨rfl, rfl⟩, ⟨rfl, rfl⟩⟩
  refine ⟨fun _ h => ?_, fun i => .inr ?_⟩
  · rw [(hboth 0).1, hcode] at h
    exact absurd h (by simp)
  · rw [(hboth i).2]
    exact hcode

theorem dataProcCmdBoot_moved {rx : RxBuf} {c c' : Charger}
    (h : dataProcCmdBoot rx c = some c') : StatMoved c c' := by
  refine forProps_inv (P := StatMoved c) (fun p d d' hd hb => hd.trans ?_) (.of_eq rfl) h
  split at hb
  · obtain rfl := Option.some.inj hb
    exact .of_eq rfl
  · split at hb
    · split at hb
      · split at hb
        · obtain rfl := Option.some.inj hb
          have hone := bootAccept_cur (bootAccept d 0) 1
          have hpre : (bootAccept (bootAccept d 0) 1).cs.bPreCpStat = d.cs.bPreCpStat :=
            hone.2.2.trans (bootAccept_cur d 0).2.2
          exact ⟨fun _ _ => hone.1, fun i => .inl (congrFun hpre i)⟩
        · obtain rfl := Option.some.inj hb
          exact .of_eq rfl
      · split at hb
        · obtain rfl := Option.some.inj hb
          exact bootHold_moved rfl
        · obtain rfl := Option.some.inj hb
          exact bootHold_moved rfl
    · obtain rfl := Option.some.inj hb
      exact .of_eq rfl

/-- Setting connector 1 to a booted status keeps the order of the two. -/
theorem setCpStatus_one_moved (c : Charger) {code : CpStatus} (hcode : code.notBooted = false) :
    StatMoved c (c.setCpStatus code 1) :=
  ⟨fun _ _ => by simpa [Charger.setCpStatus] using hcode, fun _ => .inl rfl⟩

theorem dataProcCmdStopTs_moved {c c' : Charger} (h : dataProcCmdStopTs c = some c') :
    StatMoved c c' := by
  simp only [dataProcCmdStopTs, Option.map_eq_some_iff] at h
  obtain ⟨d, hd, rfl⟩ := h
  have hone : d = 1 := by
    unfold Charger.devConn connIdx at hd
    split at hd
    · rename_i hlt
      obtain rfl := Option.some.inj hd
      apply Fin.ext
      show _ + 1 = 1
      omega
    · exact absurd hd (by simp)
  subst hone
  have hreset : StatMoved c (resetMeterValQ c) := .of_eq rfl
  refine hreset.trans ?_
  split
  · exact (setCpStatus_one_moved (resetMeterValQ c) rfl).trans (.of_eq rfl)
  · split
    · exact .of_eq rfl
    · exact (setCpStatus_one_moved (resetMeterValQ c) rfl).trans (.of_eq rfl)

theorem rxCallResDataProc_moved {rx : RxBuf} {m : TxMsg} {c c' : Charger} {a : CpReqAction}
    (h : rxCallResDataProc rx m c = some c') (hact : rx.msg.actionCode = .cp a)
    (hne : a ≠ .stat) : StatMoved c c' := by
  simp only [rxCallResDataProc, hact] at h
  cases a with
  | auth => exact .of_eq (dataProcCmdAuth_frame h).2
  | boot => exact dataProcCmdBoot_moved h
  | startTs => exact .of_eq (dataProcCmdStartTs_frame h).1
  | stopTs => exact dataProcCmdStopTs_moved h
  | stat => exact absurd rfl hne
  | hb | meterVal | dataTrans | diagStat | fwStat | none =>
    obtain rfl := Option.some.inj h
    exact .of_eq rfl

theorem ServeOk.moved {c c' : Charger} {tx tx' : TxBuf} (h : ServeOk c c' tx tx') :
    StatMoved c c' := by
  refine ⟨fun hup hzero => ?_, fun i => .inl (congrFun h.pre i)⟩
  have havail : ∀ {x : CpStatus}, x = .avail ∨ x = .unavail → x.notBooted = false := by
    rintro x (rfl | rfl) <;> rfl
  by_cases hsame : c'.cs.bCpStat 0 = c.cs.bCpStat 0
  · rcases h.cur 1 with hone | hone
    · rw [hone]
      exact hup (hsame ▸ hzero)
    · exact havail hone
  · exact havail (h.both hsame)

/-- No branch touches a status. -/
theorem Call.statuses (a : Call) (k : Clock) (c : Charger) :
    (a.finish (a.prepare k c)).statuses = c.statuses := by
  cases a <;> rfl

theorem Client.Ticked.statMoved {s s' : Client} {k : Clock} {sendOk : Bool} {o : List Obs}
    (h : s.Ticked k sendOk s' o) : StatMoved s.cp s'.cp := by
  cases h with
  | idle f t v w hs ho hsen => subst hs; exact .of_eq rfl
  | timeout w hw hs ho => subst hs; exact .of_eq rfl
  | failed a f t tx d v hw hg hb hs ho => subst hs; exact .of_eq (a.statuses k _)
  | called a f t tx d v hw hg hb hs ho => subst hs; exact .of_eq (a.statuses k _)

/-- **What a safe step does to the statuses**: it keeps the reported ones or takes them
back, or it is an answer to a StatusNotification that finds the status that was sent. -/
inductive StatStep (s s' : Client) (o : List Obs) : Prop
  | other (hm : StatMoved s.cp s'.cp) (ho : ∀ i, o.filterMap (Obs.report i) = [])
  | acked (frame : List Char) (rx : RxMsg) (i : Fin 2)
      (ho : o = [.answered frame rx s.callTxMsg s.cp]) (haw : s.awaitsStat = true)
      (hconn : s.statConn = some i) (hcur : s'.cp.cs.bCpStat = s.cp.cs.bCpStat)
      (hpre : s'.cp.cs.bPreCpStat = fun j => if j = i then s.cp.cs.bCpStat i
        else s.cp.cs.bPreCpStat j)
      (hsent : statText (s.cp.cs.bCpStat i) = some (s.callTxMsg.payload 2).propertyContants)

theorem Client.Received.statStep {s s' : Client} {frame : List Char} {j : Junk} {k : Clock}
    {sendOk : Bool} {o : List Obs} (h : s.Received frame s' o) (hc : s.bConnect = true)
    (hsafe : statSafe s (.recv frame j k sendOk) = true) : StatStep s s' o := by
  cases h with
  | dropped rx d b hs ho =>
    subst hs ho
    exact .other (.of_eq rfl) fun _ => rfl
  | served rx d b cmd j c tx tx' rx' sent hc htx hs hsent ho =>
    subst hs ho
    refine .other (rxCallDataProc_ok hc).moved fun i => ?_
    rcases hsent with rfl | rfl <;> rfl
  | answered rx d c hw htype hact hid htext hparse hres hs ho =>
    subst hs ho
    by_cases hstat : s.callTxMsg.actionCode = .stat
    · have haw : s.awaitsStat = true := by simp [Client.awaitsStat, hw, hstat]
      have hans : s.answersStat frame = true := by
        simp [Client.answersStat, hc, haw, hparse, htype, hid]
      have hstill : s.stillSent = true := by simpa [statSafe, hans] using hsafe
      simp only [rxCallResDataProc, hact, hstat, dataProcCmdStat, Option.map_eq_some_iff] at hres
      obtain ⟨i, hconn, hres⟩ := hres
      have hconn : s.statConn = some i := hconn
      have hst : c.statuses = (s.cp.setPreCpStat (s.cp.cs.bCpStat i) i).statuses := by
        rw [← hres]
        split <;> rfl
      obtain ⟨hcur, hpre⟩ := Charger.statuses_eq hst
      refine .acked frame rx.msg i rfl haw hconn hcur hpre ?_
      simpa [Client.stillSent, hconn] using hstill
    · refine .other (rxCallResDataProc_moved hres hact hstat) fun i => ?_
      simp [Obs.report, hstat]

theorem step_statStep {s s' : Client} {e : Event} {o : List Obs} (h : step s e = some (s', o))
    (hsafe : statSafe s e = true) : StatStep s s' o := by
  cases step_cases h with
  | quiet f rx b hs ho hrun => subst hs ho; exact .other (.of_eq rfl) fun _ => rfl
  | raised k he hreq hs ho => subst hs ho; exact .other (.of_eq rfl) fun _ => rfl
  | sampled k f ty he hty hdue hs ho => subst hs ho; exact .other (.of_eq rfl) fun _ => rfl
  | connected k sendOk he hc hs ho => subst hs ho; exact .other (.of_eq rfl) fun _ => rfl
  | ticked k sendOk connectOk he hc ht =>
    refine .other ht.statMoved fun i => ?_
    rw [List.filterMap_eq_nil_iff]
    -- a tick shows samples and CALLs, none of them a status
    intro ob hob
    rcases ht.obs hob with ⟨c, ty, k', rfl⟩ | ⟨frame, m, c, rfl⟩ <;> rfl
  | received frame j k sendOk he hc hr =>
    subst he
    exact hr.statStep hc hsafe
  | env w c he hw hs =>
    subst he hs
    refine .other ?_ fun i => ?_
    · cases w with
      | setCpStatus code ch =>
        simp only [EnvWrite.apply, Option.map_eq_some_iff, Prod.mk.injEq] at hw
        obtain ⟨i, hi, rfl, -⟩ := hw
        refine ⟨fun hup => ?_, fun _ => .inl rfl⟩
        have hcode : code.code.notBooted = false := by cases code <;> rfl
        have hcases : i = 1 ∨ i = 0 := by omega
        rcases hcases with rfl | rfl
        · exact (setCpStatus_one_moved s.cp hcode).up hup
        -- a call that names connector 0 writes connector 0 alone
        · have hch : ch = 0 := by
            unfold connIdx at hi
            split at hi
            · exact congrArg Fin.val (Option.some.inj hi)
            · exact absurd hi (by simp)
          intro _
          have hone : (s.cp.setCpStatus code.code 0).cs.bCpStat 1 = s.cp.cs.bCpStat 1 := rfl
          rw [hone]
          simp only [statSafe, hch, ne_eq, not_true_eq_false, decide_false, Bool.false_or,
            Bool.or_eq_true, Bool.not_eq_true'] at hsafe
          exact hsafe.elim hup id
      | reqStopTs | scene | reqStartTs | reqAuth | scndCardNo | clearParentId | qrEvent
      | rmtStart | rmtStop | diagLogReqStep | updateStep | chargingStatus | devChannel
      | stopTsConfig =>
        simp only [EnvWrite.apply, Option.some.injEq, Prod.mk.injEq] at hw
        obtain ⟨rfl, -⟩ := hw
        exact .of_eq rfl
    · rcases EnvWrite.apply_obs hw with ho | ho <;> rw [show o = _ from ho] <;> rfl

/-! ## The StatusNotification that is sent

The handler finds its connector in the text of the CALL. So it has to be known of an outstanding
StatusNotification that it names the connector it was built for, and that the text is read back
as that number. -/

theorem Call.action_stat {a : Call} (h : a.action = .stat) : (∃ i, a = .stat i) ∨ a = .trigStat := by
  cases a with
  | stat i => exact .inl ⟨i, rfl⟩
  | trigStat => exact .inr rfl
  | boot | meterVal | dataTransJ1 | auth | mbrUntpc | startTs | stopTs | chargeAmt | q1 | q2
  | trigDiag | trigFw | trigHb | trigMeter | diagStat | fwStat | hb | cpSts => cases h

/-- It names its connector. -/
theorem makeDataCmdStat_conn (c : Charger) (i : Fin 2) (uid : UInt64) (tm : Tm) (tx : TxBuf) :
    ((afterMakeOcppMsg (makeDataCmdStat c i uid tm tx)).msg.payload 0).propertyContants =
      dec i.val := by
  have hafter : ((afterMakeOcppMsg (makeDataCmdStat c i uid tm tx)).msg.payload 0).propertyContants =
      ((makeDataCmdStat c i uid tm tx).msg.payload 0).propertyContants := by
    unfold afterMakeOcppMsg
    dsimp only
    split <;> rfl
  rw [hafter]
  unfold makeDataCmdStat
  dsimp only
  split <;> split <;> split <;> rfl

/-- The number read back from the name is the connector. -/
theorem connIdx_dec (i : Fin 2) : connIdx (string2Integer (dec i.val)).toUInt8.toNat = some i := by
  have hcases : i = 0 ∨ i = 1 := by omega
  rcases hcases with rfl | rfl <;> decide

theorem dec_inj {m n : Nat} (h : dec m = dec n) : m = n := by
  have := congrArg decVal h
  rwa [decVal_dec, decVal_dec] at this

/-- An outstanding StatusNotification names its connector. -/
theorem statNamed_step {s s' : Client} {e : Event} {o : List Obs}
    (hi : s.awaitsStat = true → ∃ i : Fin 2, (s.callTxMsg.payload 0).propertyContants = dec i.val)
    (h : step s e = some (s', o)) (haw : s'.awaitsStat = true) :
    ∃ i : Fin 2, (s'.callTxMsg.payload 0).propertyContants = dec i.val := by
  simp only [Client.awaitsStat, Bool.and_eq_true, decide_eq_true_eq] at haw
  cases step_moved h with
  | answer _ _ hw' => exact absurd (haw.1.symm.trans hw') (by simp)
  | giveUp _ _ hw' => exact absurd (haw.1.symm.trans hw') (by simp)
  | same _ hs =>
    rw [Client.outstanding_of_waiting haw.1] at hs
    unfold Client.outstanding at hs
    split at hs
    · rename_i hw
      have hcall : s'.callTxMsg = s.callTxMsg := Option.some.inj hs
      rw [hcall] at haw ⊢
      exact hi (by simp [Client.awaitsStat, hw, haw.2])
    · exact absurd hs (by simp)
  | call ho _ _ =>
    have hmem : Act.call s'.callTxMsg ∈ acts o := by rw [ho]; exact List.mem_cons_self
    obtain ⟨frame, c, hob, hm⟩ := mem_of_call_mem_acts hmem
    obtain ⟨k, a, f, t, tx, -, hb, -, hmsg, -⟩ := step_sends h hob hm
    have hact : a.action = .stat := (Call.build_header hb).2.symm.trans (by rw [← haw.2, hmsg]; rfl)
    rw [hmsg]
    rcases Call.action_stat hact with ⟨i, rfl⟩ | rfl
    · simp only [Call.build, Option.some.injEq] at hb
      exact ⟨i, hb ▸ makeDataCmdStat_conn ..⟩
    · simp only [Call.build, Option.some.injEq] at hb
      exact ⟨1, hb ▸ makeDataCmdStat_conn ..⟩

/-! ## Runs of safe events -/

/-- The invariant. -/
structure StatInv (s : Client) (log : List Obs) : Prop where
  up : s.cp.Up
  seen : ∀ i, (s.cp.cs.bPreCpStat i).notBooted = true ∨
    ∃ t, statText (s.cp.cs.bPreCpStat i) = some t ∧ lastReport i log = some t
  named : s.awaitsStat = true → ∃ i : Fin 2, (s.callTxMsg.payload 0).propertyContants = dec i.val

theorem statInv_step {s s' : Client} {log o : List Obs} {e : Event} (hi : StatInv s log)
    (hsafe : statSafe s e = true) (h : step s e = some (s', o)) : StatInv s' (log ++ o) := by
  obtain ⟨hup, hseen, hnamed⟩ := hi
  refine ⟨?_, fun i => ?_, statNamed_step hnamed h⟩
  · cases step_statStep h hsafe with
    | other hm _ => exact hm.up hup
    | acked frame rx i ho haw hconn hcur hpre hsent =>
      unfold Charger.Up
      rw [hcur]
      exact hup
  · cases step_statStep h hsafe with
    | other hm ho =>
      rw [lastReport_append_none (ho i)]
      rcases hm.pre i with heq | hlow
      · rw [heq]
        exact hseen i
      · exact .inl hlow
    | acked frame rx j ho haw hconn hcur hpre hsent =>
      -- the connector the handler reads is the one the message names
      obtain ⟨n, hname⟩ := hnamed haw
      have hnj : n = j := by
        unfold Client.statConn at hconn
        rw [hname, connIdx_dec] at hconn
        exact Option.some.inj hconn
      subst hnj
      have hstat : s.callTxMsg.actionCode = .stat := by
        simp only [Client.awaitsStat, Bool.and_eq_true, decide_eq_true_eq] at haw
        exact haw.2
      rw [hpre, ho]
      by_cases hin : i = n
      · subst hin
        refine .inr ⟨_, by simpa using hsent, lastReport_append_some ?_⟩
        simp [Obs.report, hstat, hname]
      · have hne : dec n.val ≠ dec i.val := fun heq => hin (Fin.ext (dec_inj heq)).symm
        have hnone : [Obs.answered frame rx s.callTxMsg s.cp].filterMap (Obs.report i) = [] := by
          simp [Obs.report, hname, hne]
        rw [lastReport_append_none hnone]
        simpa [hin] using hseen i

/-- A run of events that lose no status change. -/
abbrev StatRun : Client → List Obs → Prop := RunIf fun s _ e => statSafe s e = true

/-- **Reported statuses.** In every run in which each answer to a StatusNotification finds the
connector in the status that was sent, and no screen makes the charge point look booted ahead
of its connector, no status change is lost. -/
theorem status_reported {s : Client} {log : List Obs} (h : StatRun s log) :
    StatusReported s log := by
  obtain ⟨st, now, h⟩ := h
  have hinv : StatInv s log := by
    refine h.invariant (I := StatInv) ⟨?_, fun _ => .inl rfl, ?_⟩ ?_
    · exact fun hb => absurd hb (by simp [Client.init, Charger.init, CpStatus.notBooted])
    · exact fun haw => absurd haw (by simp [Client.awaitsStat, Client.init])
    · intro s log e s' o hi hsafe hstep
      exact statInv_step hi hsafe hstep
  intro i hboot _ hsync _
  have hcur : (s.cp.cs.bCpStat i).notBooted = false := by
    have hcases : i = 0 ∨ i = 1 := by omega
    rcases hcases with rfl | rfl
    · exact hboot
    · exact hinv.up hboot
  rcases hinv.seen i with hlow | hseen
  · rw [hsync, hcur] at hlow
    exact absurd hlow (by simp)
  · rw [hsync] at hseen
    exact hseen

/-! ## Concrete runs -/

set_option maxRecDepth 20000 in
theorem status_reported_booted :
    ∃ s log, StatRun s log ∧ lastReport 1 log = some "Available".toList ∧ StatusReported s log := by
  have hrun : (Trace.exec step (fun s _ e => statSafe s e) (Client.init 3 0) [] bootedRun).any
      (fun r => lastReport 1 r.2 = some "Available".toList) = true := by decide +kernel
  obtain ⟨s, log, h, hp⟩ := exists_runIf_of_exec (g := fun s _ e => statSafe s e)
    (p := fun _ log => lastReport 1 log = some "Available".toList) hrun
  exact ⟨s, log, h, of_decide_eq_true hp, status_reported h⟩

set_option maxRecDepth 20000 in
/-- **A change that is lost**: `Available` is sent for connector 1, a car is plugged in, and
the answer arrives. `Preparing` now counts as reported and never was. -/
theorem status_change_lost : ∃ s log, Run s log ∧ ¬ StatusReported s log := by
  let p : Client → List Obs → Bool := fun s log =>
    !(s.cp.cs.bCpStat 0).notBooted && !s.awaitsStat &&
      s.cp.cs.bPreCpStat 1 = s.cp.cs.bCpStat 1 && !s.cp.bCpStatChgFlg 1 &&
      statText (s.cp.cs.bCpStat 1) = some "Preparing".toList &&
      lastReport 1 log = some "Available".toList
  have hrun : (Trace.exec step (fun _ _ _ => true) (Client.init 3 0) []
      (bootRun "20" ++ [.netRun (.reading 11 2) true true, arrives "[3,\"2\",\x7b\x7d]",
        .netRun (.reading 12 3) true true, .env (.setCpStatus .prepare 1),
        arrives "[3,\"3\",\x7b\x7d]"])).any (fun r => p r.1 r.2) = true := by decide +kernel
  obtain ⟨s, log, h, hp⟩ := exists_run_of_exec hrun
  simp only [p, Bool.and_eq_true, Bool.not_eq_true', decide_eq_true_eq] at hp
  obtain ⟨⟨⟨⟨⟨hboot, hidle⟩, hsync⟩, hchg⟩, htext⟩, hlast⟩ := hp
  refine ⟨s, log, h, fun hrep => ?_⟩
  obtain ⟨t, ht, hl⟩ := hrep 1 hboot hidle hsync hchg
  rw [htext] at ht
  rw [hlast, ← ht] at hl
  exact absurd hl (by decide)

end ChargePoint
