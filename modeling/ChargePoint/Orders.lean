import ChargePoint.Steps

/-!
# What the central system ordered

A remote start, a triggered message and a firmware update are orders: a CALL leaves them in the
charger, and somebody carries them out later. This file is the third projection beside
`billing` and `statuses`, with what each step does to it: an answer touches no order, and of the
CALLs only three do.
-/

set_option autoImplicit false

namespace ChargePoint

open CStr Loop

/-- The orders that stand, and the channel the last remote start was for. -/
structure Orders where
  bReqRmtStartTsNo : Nat
  triggerMsgStat : TrigMsgStat
  fw : FwUpdate
  bDevChannel : Bool

def Charger.orders (c : Charger) : Orders :=
  ⟨c.cs.bReqRmtStartTsNo, c.cs.triggerMsgStat, c.fw, c.bDevChannel⟩

theorem Charger.orders_eq {c c' : Charger} (h : c'.orders = c.orders) :
    c'.cs.bReqRmtStartTsNo = c.cs.bReqRmtStartTsNo ∧
      c'.cs.triggerMsgStat = c.cs.triggerMsgStat ∧ c'.fw = c.fw ∧
      c'.bDevChannel = c.bDevChannel := by
  simpa [Charger.orders] using h

section Answers
variable {rx : RxBuf} {c c' : Charger}

theorem dataProcCmdAuth_orders (h : dataProcCmdAuth rx c = some c') : c'.orders = c.orders := by
  simp only [dataProcCmdAuth, Option.map_eq_some_iff] at h
  obtain ⟨d, hd, rfl⟩ := h
  have hkept : d.orders = c.orders := by
    split at hd
    · refine forSubProps_inv (P := fun d => d.orders = c.orders) ?_ rfl hd
      intro q e e' he hb
      split at hb
      · split at hb
        · cases Option.some.inj hb
          exact he
        · cases Option.some.inj hb
          exact he
      · split at hb
        · split at hb
          · cases Option.some.inj hb
            exact he
          · exact absurd hb (by simp)
        · cases Option.some.inj hb
          exact he
    · cases Option.some.inj hd
      rfl
  exact hkept

theorem bootAccept_orders (c : Charger) (i : Fin 2) : (bootAccept c i).orders = c.orders := by
  unfold bootAccept
  split
  · dsimp only
    split
    · rfl
    · rfl
  · rfl

theorem dataProcCmdBoot_orders (h : dataProcCmdBoot rx c = some c') : c'.orders = c.orders := by
  refine forProps_inv (P := fun d => d.orders = c.orders) ?_ rfl h
  intro p d d' hd hb
  rw [← hd]
  split at hb
  · cases Option.some.inj hb
    rfl
  · split at hb
    · split at hb
      · split at hb
        · cases Option.some.inj hb
          exact (bootAccept_orders _ 1).trans (bootAccept_orders d 0)
        · cases Option.some.inj hb
          rfl
      · split at hb
        · cases Option.some.inj hb
          rfl
        · cases Option.some.inj hb
          rfl
    · cases Option.some.inj hb
      rfl

theorem dataProcCmdStartTs_orders (h : dataProcCmdStartTs rx c = some c') :
    c'.orders = c.orders := by
  unfold dataProcCmdStartTs at h
  refine forProps_inv (P := fun d => d.orders = c.orders) ?_ rfl h
  intro p d d' hd hb
  split at hb
  · refine forSubProps_inv (P := fun d => d.orders = c.orders) ?_ hd hb
    intro q e e' he hq
    split at hq
    · cases Option.some.inj hq
      exact he
    · cases Option.some.inj hq
      exact he
  · split at hb
    · obtain ⟨i, _, rfl⟩ := Option.map_eq_some_iff.mp hb
      exact hd
    · cases Option.some.inj hb
      exact hd

theorem dataProcCmdStat_orders {callConn : List Char} (h : dataProcCmdStat callConn c = some c') :
    c'.orders = c.orders := by
  obtain ⟨i, _, rfl⟩ := Option.map_eq_some_iff.mp h
  dsimp only
  split
  · rfl
  · rfl

theorem dataProcCmdStopTs_orders (h : dataProcCmdStopTs c = some c') : c'.orders = c.orders := by
  obtain ⟨d, _, rfl⟩ := Option.map_eq_some_iff.mp h
  dsimp only
  split
  · rfl
  · split
    · rfl
    · rfl

/-- **An answer carries out no order and gives none.** -/
theorem rxCallResDataProc_orders {m : TxMsg} (h : rxCallResDataProc rx m c = some c') :
    c'.orders = c.orders := by
  unfold rxCallResDataProc at h
  split at h
  · exact dataProcCmdAuth_orders h
  · exact dataProcCmdBoot_orders h
  · cases Option.some.inj h
    rfl
  · cases Option.some.inj h
    rfl
  · exact dataProcCmdStartTs_orders h
  · exact dataProcCmdStat_orders h
  · exact dataProcCmdStopTs_orders h
  all_goals
    cases Option.some.inj h
    rfl

end Answers

/-! ## The CALLs

Three handlers give an order, one each: RemoteStartTransaction, TriggerMessage, UpdateFirmware.
For the others the lemma is an equation between the orders before and after. -/

section Served
variable {rx : RxBuf} {c c' : Charger} {tx tx' : TxBuf}

theorem setAvail_orders (c : Charger) (i : Fin 2) (b : Bool) : (setAvail c i b).orders = c.orders := by
  have hmark : ∀ code : CpStatus,
      (if c.cs.bCpStat i = code then c.setChgFlg i true else c).orders = c.orders := by
    intro code
    split
    · rfl
    · rfl
  exact hmark _

theorem dataProcCmdChangeAvail_orders {j : Junk}
    (h : dataProcCmdChangeAvail j rx c tx = some (c', tx')) : c'.orders = c.orders := by
  simp only [dataProcCmdChangeAvail, Option.bind_eq_bind, Option.bind_eq_some_iff] at h
  obtain ⟨l, _, h⟩ := h
  split at h
  · cases Option.some.inj h
    rfl
  · split at h
    · cases Option.some.inj h
      exact (setAvail_orders _ 1 _).trans (setAvail_orders c 0 _)
    · obtain ⟨i, _, h⟩ := Option.bind_eq_some_iff.mp h
      cases Option.some.inj h
      exact setAvail_orders c i _

theorem changeConfigKey_orders (k v : Payload) (c : Charger) :
    (changeConfigKey k v c).2.orders = c.orders := by
  let P : ResType × Charger → Prop := fun r => r.2.orders = c.orders
  have hint : ∀ n, P (changeInt n v c) := fun n => by
    unfold changeInt
    split
    · rfl
    · rfl
  have hbool : ∀ n, P (changeBool n v c) := fun n => by
    unfold changeBool
    split
    · rfl
    · split
      · rfl
      · rfl
  have hloose : ∀ n, P (changeBoolLoose n v c) := fun n => rfl
  have hunstored : P (changeBoolUnstored v c) := by
    unfold changeBoolUnstored
    split
    · rfl
    · rfl
  have hkeep : ∀ r, P (r, c) := fun r => rfl
  have hite : ∀ {q : Bool} {x y : ResType × Charger}, P x → P y → P (if q then x else y) :=
    fun {q x y} hx hy => by cases q <;> [exact hy; exact hx]
  -- one `hite` per key, in the order of the chain
  exact hite (hint 10) <| hite (hint 1) <| hite (hbool 7) <| hite (hkeep _) <| hite (hint 2) <|
    hite (hloose 0) <| hite (hloose 20) <| hite (hloose 13) <| hite (hkeep _) <|
    hite (hbool 6) <| hite hunstored <| hite (hbool 23) <| hite (hbool 14) (hkeep _)

theorem dataProcCmdGetDiag_orders (h : dataProcCmdGetDiag rx c tx = some (c', tx')) :
    c'.orders = c.orders := by
  simp only [dataProcCmdGetDiag, Option.bind_eq_bind, Option.bind_eq_some_iff] at h
  obtain ⟨d, hd, h⟩ := h
  cases Option.some.inj h
  refine forProps_inv (P := fun d => d.orders = c.orders) ?_ rfl hd
  intro p e e' he hb
  split at hb
  · cases Option.some.inj hb
    exact he
  · cases Option.some.inj hb
    exact he

theorem dataProcCmdUnlockConnect_orders (h : dataProcCmdUnlockConnect rx c tx = some (c', tx')) :
    c'.orders = c.orders := by
  simp only [dataProcCmdUnlockConnect, Option.bind_eq_bind, Option.bind_eq_some_iff] at h
  obtain ⟨d, hd, h⟩ := h
  cases Option.some.inj h
  refine forProps_inv (P := fun d => d.orders = c.orders) ?_ rfl hd
  intro p e e' he hb
  split at hb
  · cases Option.some.inj hb
    exact he
  · cases Option.some.inj hb
    exact he

theorem dataProcCmdDataTransCs_orders {j : Junk}
    (h : dataProcCmdDataTransCs j rx c tx = some (c', tx')) : c'.orders = c.orders := by
  simp only [dataProcCmdDataTransCs, Option.bind_eq_bind, Option.bind_eq_some_iff] at h
  obtain ⟨l, _, h⟩ := h
  split at h
  · cases Option.some.inj h
    rfl
  · cases Option.some.inj h
    rfl

theorem dataProcCmdRmStopTr_orders (h : dataProcCmdRmStopTr rx c tx = some (c', tx')) :
    c'.orders = c.orders := by
  unfold dataProcCmdRmStopTr at h
  dsimp only at h
  split at h
  · obtain ⟨d, _, h⟩ := Option.map_eq_some_iff.mp h
    split at h
    · cases h
      rfl
    · cases h
      rfl
  · cases Option.some.inj h
    rfl

theorem dataProcCmdReset_orders (h : dataProcCmdReset rx c tx = (c', tx')) :
    c'.orders = c.orders := by
  unfold dataProcCmdReset at h
  dsimp only at h
  split at h
  · cases h
    rfl
  · split at h
    · cases h
      rfl
    · cases h
      rfl

/-- A remote start orders at most a start. -/
theorem dataProcCmdRmStart_orders (h : dataProcCmdRmStart rx c tx = some (c', tx')) :
    c'.orders = { c.orders with bReqRmtStartTsNo := c'.cs.bReqRmtStartTsNo } := by
  simp only [dataProcCmdRmStart, Option.bind_eq_bind, Option.bind_eq_some_iff] at h
  obtain ⟨l, hl, h⟩ := h
  have hkept : l.2.2.orders = c.orders := by
    refine forProps_inv (P := fun l : Bool × UInt32 × Charger => l.2.2.orders = c.orders) ?_ rfl hl
    intro p m m' hm hb
    cases Option.some.inj hb
    split
    · split
      · exact hm
      · exact hm
    · split
      · exact hm
      · exact hm
  have hone : ∀ n, ({ l.2.2 with cs := { l.2.2.cs with bReqRmtStartTsNo := n } } : Charger).orders =
      { c.orders with bReqRmtStartTsNo := n } := fun n => by
    rw [← hkept]
    rfl
  split at h
  · obtain ⟨i, _, h⟩ := Option.bind_eq_some_iff.mp h
    split at h
    · cases Option.some.inj h
      exact hone _
    · cases Option.some.inj h
      exact hone _
  · cases Option.some.inj h
    exact hone _

/-- A TriggerMessage orders at most a message. -/
theorem dataProcCmdTriggerMsg_orders (h : dataProcCmdTriggerMsg rx c tx = some (c', tx')) :
    c'.orders = { c.orders with triggerMsgStat := c'.cs.triggerMsgStat } := by
  simp only [dataProcCmdTriggerMsg, Option.bind_eq_bind, Option.bind_eq_some_iff] at h
  obtain ⟨l, _, h⟩ := h
  split at h
  · cases Option.some.inj h
    rfl
  · cases Option.some.inj h
    rfl

/-- An UpdateFirmware orders an update. -/
theorem dataProcCmdUpdateFw_orders (h : dataProcCmdUpdateFw rx c tx = some (c', tx')) :
    c'.orders = { c.orders with fw := c'.fw } := by
  simp only [dataProcCmdUpdateFw, Option.bind_eq_bind, Option.bind_eq_some_iff] at h
  obtain ⟨fw, _, h⟩ := h
  cases Option.some.inj h
  rfl

/-- **What a CALL orders.** -/
theorem rxCallDataProc_orders {cmd : CsReqAction} {j : Junk}
    (h : rxCallDataProc cmd j rx c tx = some (c', tx')) : c'.orders =
      { c.orders with
          bReqRmtStartTsNo :=
            if cmd = .remoteStart then c'.cs.bReqRmtStartTsNo else c.cs.bReqRmtStartTsNo
          triggerMsgStat :=
            if cmd = .triggerMsg then c'.cs.triggerMsgStat else c.cs.triggerMsgStat
          fw := if cmd = .updateFw then c'.fw else c.fw } := by
  cases cmd with
  | changeAvail => exact dataProcCmdChangeAvail_orders h
  | changeConfig =>
    cases Option.some.inj h
    split
    · exact changeConfigKey_orders _ _ c
    · rfl
  | dataTransfer => exact dataProcCmdDataTransCs_orders h
  | getConfig =>
    obtain ⟨t, _, h⟩ := Option.map_eq_some_iff.mp h
    cases h
    rfl
  | getDiag => exact dataProcCmdGetDiag_orders h
  | remoteStart => exact dataProcCmdRmStart_orders h
  | remoteStop => exact dataProcCmdRmStopTr_orders h
  | reset => exact dataProcCmdReset_orders (Option.some.inj h)
  | triggerMsg => exact dataProcCmdTriggerMsg_orders h
  | unlockConnect => exact dataProcCmdUnlockConnect_orders h
  | updateFw => exact dataProcCmdUpdateFw_orders h
  | clearCache | clearChargProf | getLocalVer | sndLocalList | none | cancelReseve
  | getCompositSched | reserve | setChgProfile =>
    cases Option.some.inj h
    rfl

end Served

/-! ## The client's own branches

A tick carries out what was triggered and moves the firmware's step on when it has reported it.
The remote start is carried out by the screens. -/

/-- The triggered message a branch takes. -/
def Call.takesTrig : Call → Bool
  | .trigDiag | .trigFw | .trigHb | .trigMeter | .trigStat => true
  | _ => false

theorem Call.prepare_orders (a : Call) (k : Clock) (c : Charger) :
    (a.prepare k c).orders =
      { c.orders with
          triggerMsgStat := if a.takesTrig then .none else c.cs.triggerMsgStat } := by
  have hadd : ∀ (d : Charger) (k : SampleClock) (ty : Nat),
      (addMeterValQ d k ty).orders = d.orders := fun d k ty => rfl
  cases a with
  | stopTs => exact hadd _ k.sample meterValTransType
  | trigMeter => exact hadd _ k.sample meterValTrigType
  | boot | meterVal | stat | dataTransJ1 | auth | mbrUntpc | startTs | chargeAmt | q1 | q2
  | trigDiag | trigFw | trigHb | trigStat | diagStat | fwStat | hb | cpSts => rfl

/-- A report of the firmware moves its step on. -/
theorem Call.finish_orders (a : Call) (c : Charger) :
    (a.finish c).orders =
      { c.orders with
          fw := if a = .fwStat then { c.fw with updateStep := c.fw.updateStep.reported }
            else c.fw } := by
  cases a with
  | boot | meterVal | stat | dataTransJ1 | auth | mbrUntpc | startTs | stopTs | chargeAmt | q1
  | q2 | trigDiag | trigFw | trigHb | trigMeter | trigStat | diagStat | fwStat | hb | cpSts => rfl

/-- A tick leaves the remote start to the screens. -/
theorem Client.Ticked.remote {s s' : Client} {k : Clock} {sendOk : Bool} {o : List Obs}
    (h : s.Ticked k sendOk s' o) :
    s'.cp.cs.bReqRmtStartTsNo = s.cp.cs.bReqRmtStartTsNo ∧ s'.cp.bDevChannel = s.cp.bDevChannel := by
  have hbranch : ∀ (a : Call) (c : Charger),
      (a.finish (a.prepare k c)).cs.bReqRmtStartTsNo = c.cs.bReqRmtStartTsNo ∧
        (a.finish (a.prepare k c)).bDevChannel = c.bDevChannel := by
    intro a c
    have hstart : (a.prepare k c).cs.bReqRmtStartTsNo = c.cs.bReqRmtStartTsNo :=
      congrArg Orders.bReqRmtStartTsNo (Call.prepare_orders a k c)
    have hdev : (a.prepare k c).bDevChannel = c.bDevChannel :=
      congrArg Orders.bDevChannel (Call.prepare_orders a k c)
    have hfinish := Call.finish_orders a (a.prepare k c)
    exact ⟨(congrArg Orders.bReqRmtStartTsNo hfinish).trans hstart,
      (congrArg Orders.bDevChannel hfinish).trans hdev⟩
  cases h with
  | idle f t v w hs =>
    subst hs
    exact ⟨rfl, rfl⟩
  | timeout w hw hs =>
    subst hs
    exact ⟨rfl, rfl⟩
  | failed a f t tx d v hw hg hb hs =>
    subst hs
    exact hbranch a (s.cp.pulse f t)
  | called a f t tx d v hw hg hb hs =>
    subst hs
    exact hbranch a (s.cp.pulse f t)

/-! ## A received frame -/

/-- The frame was served: what the parser read of it went to the handler of its action. -/
def Client.ServesFrame (s : Client) (frame : List Char) (j : Junk) (c : Charger) : Prop :=
  ∃ rx dt cmd tx, parseData s.callTxMsg.actionCode s.dataTransUniqueId clearRxMsgBuff frame =
    some ⟨false, rx, dt⟩ ∧ rx.msg.actionCode = .cs cmd ∧
      rxCallDataProc cmd j rx s.cp s.tx = some (c, tx)

theorem Client.trans_cp (s : Client) (k : Clock) (sendOk : Bool) :
    (s.tsctCurlWsTrans k sendOk).1.cp = s.cp := by
  unfold tsctCurlWsTrans
  dsimp only
  split
  · split
    · rfl
    · rfl
  · rfl

theorem Client.recvParsed_served {s s' : Client} {frame : List Char} {j : Junk} {k : Clock}
    {sendOk : Bool} {o : List Obs} (h : s.recvParsed frame j k sendOk = some (s', o)) :
    s'.cp = s.cp ∨ rxCallResDataProc s.rx s.callTxMsg s.cp = some s'.cp ∨
      ∃ cmd tx, s.rx.msg.actionCode = .cs cmd ∧
        rxCallDataProc cmd j s.rx s.cp s.tx = some (s'.cp, tx) := by
  have hanswer : ∀ {r : Client × List Obs}, (if s.expects then s.dispatchRes frame else some (s, [])) =
      some r → r.1.cp = s.cp ∨ rxCallResDataProc s.rx s.callTxMsg s.cp = some r.1.cp := by
    intro r hr
    split at hr
    · obtain ⟨c, hc, rfl⟩ := Option.map_eq_some_iff.mp hr
      exact .inr hc
    · cases Option.some.inj hr
      exact .inl rfl
  unfold recvParsed at h
  split at h
  · cases Option.some.inj h
    exact .inl rfl
  · split at h
    · split at h
      · exact (hanswer h).imp id .inl
      · split at h
        · rename_i htrans
          obtain ⟨⟨c, tx⟩, hc, h⟩ := Option.map_eq_some_iff.mp h
          cases h
          exact .inr (.inr ⟨_, tx, htrans.2, hc⟩)
        · cases Option.some.inj h
          exact .inl rfl
    · split at h
      · exact (hanswer h).imp id .inl
      · split at h
        · split at h
          · rename_i cmd hact
            obtain ⟨⟨c, tx⟩, hc, h⟩ := Option.map_eq_some_iff.mp h
            cases h
            refine .inr (.inr ⟨cmd, tx, hact, ?_⟩)
            rw [Client.trans_cp]
            exact hc
          · cases Option.some.inj h
            exact .inl rfl
        · cases Option.some.inj h
          exact .inl rfl

/-- What a received frame does to the charger. -/
theorem Client.recv_cp {s s' : Client} {frame : List Char} {j : Junk} {k : Clock} {sendOk : Bool}
    {o : List Obs} (h : s.tsctCurlWsRecv frame j k sendOk = some (s', o)) :
    s'.cp = s.cp ∨ (∃ rx, rxCallResDataProc rx s.callTxMsg s.cp = some s'.cp) ∨
      s.ServesFrame frame j s'.cp := by
  unfold tsctCurlWsRecv at h
  split at h
  · split at h
    · cases h
    · rename_i d hd
      dsimp only at h
      split at h
      · cases Option.some.inj h
        exact .inl rfl
      · rename_i herr
        obtain ⟨err, rx, dt⟩ := d
        have herr : err = false := by simpa using herr
        subst herr
        rcases recvParsed_served h with hcp | hconf | ⟨cmd, tx, hact, hc⟩
        · exact .inl hcp
        · exact .inr (.inl ⟨rx, hconf⟩)
        · exact .inr (.inr ⟨rx, dt, cmd, tx, hd, hact, hc⟩)
  · cases h

end ChargePoint
