import ChargePoint.Frames

/-!
# What a step can have done

One inversion lemma per kind of event. They say *everything* a later proof asks of the
event — which globals changed, to what, under which condition, and what was observed — so
that no run proof unfolds `ocppCallSenario` or `tsctCurlWsRecv` again.

The shape is the same throughout: the state after is the state before with named fields
replaced, so that the frame of the step is a matter of reading it.
-/

set_option autoImplicit false

namespace ChargePoint

open CStr

/-! ## 1. The tick

`Call.Guard` is what is known of the charger when a branch is taken: whether the boot is accepted,
for a branch before the trigger switch that `firstCall` picks it, and for a later one that
`firstCall` picks none. The order of the later ones is not in it.

The clock's share of a tick is small: the pulse of `Check_Meter_Time`, the time of the heartbeat,
a triggered boot that is dropped. `Charger.pulse` and `Client.at` are these, so that a tick that
builds nothing is an equation. -/

/-- The two fields of the charger a tick may change before it picks a branch: the pulse of
`Check_Meter_Time`, and a triggered boot that is dropped. -/
def Charger.pulse (c : Charger) (f : Bool) (t : TrigMsgStat) : Charger :=
  { c with checkMeterFlg := f, cs := { c.cs with triggerMsgStat := t } }

@[simp] theorem firstCall_pulse (c : Charger) (f : Bool) (t : TrigMsgStat) :
    firstCall (c.pulse f t) = firstCall c := rfl

/-- **When branch `a` is taken.** -/
def Call.Guard (a : Call) (c : Charger) : Prop :=
  match a with
  | .boot => (c.cs.bCpStat 0).notBooted = true
  | .meterVal => (c.cs.bCpStat 0).notBooted = false
  | .trigDiag | .trigFw | .trigHb | .trigMeter | .trigStat | .diagStat | .fwStat | .hb | .cpSts =>
    (c.cs.bCpStat 0).notBooted = false ∧ firstCall c = none
  | a => (c.cs.bCpStat 0).notBooted = false ∧ firstCall c = some a

/-- What taking branch `a` on charger `c` makes of the client. -/
def Client.Took (s : Client) (k : Clock) (a : Call) (c : Charger) (s' : Client) : Prop :=
  a.Guard c ∧ ∃ tx v, a.build k (a.prepare k c) s.tx = some tx ∧
    s' = { s with cp := a.finish (a.prepare k c), tx := tx, tv1 := v }

/-- The client with another charger and another heartbeat time: all a tick changes before
it builds. -/
def Client.at (s : Client) (c : Charger) (v : Nat) : Client := { s with cp := c, tv1 := v }

theorem Client.make_took {s s' : Client} {k : Clock} {a : Call} (c : Charger) (v : Nat)
    (hg : a.Guard c) (h : (s.at c v).make a k = some s') : s.Took k a c s' := by
  simp only [Client.make, Option.map_eq_some_iff] at h
  obtain ⟨tx, htx, rfl⟩ := h
  exact ⟨hg, tx, v, htx, rfl⟩

/-- Timed branches note the time as well, which `Took` allows. -/
theorem Client.makeTimed_took {s s' : Client} {k : Clock} {a : Call} (c : Charger) (v : Nat)
    (hg : a.Guard c) (h : (s.at c v).makeTimed a k = some s') : s.Took k a c s' := by
  simp only [Client.makeTimed, Option.map_eq_some_iff] at h
  obtain ⟨t, ht, rfl⟩ := h
  obtain ⟨hg, tx, w, htx, rfl⟩ := make_took c v hg ht
  exact ⟨hg, tx, k.secReset, htx, rfl⟩

/-- The branches before the trigger switch. -/
def Call.isFirst : Call → Bool
  | .stat _ | .dataTransJ1 | .auth | .mbrUntpc | .startTs | .stopTs | .chargeAmt | .q1 | .q2 => true
  | _ => false

/-- One branch more in front. -/
theorem isFirst_ite {p : Prop} [Decidable p] {x a : Call} {y : Option Call} (hx : x.isFirst = true)
    (hy : y = some a → a.isFirst = true) (h : (if p then some x else y) = some a) :
    a.isFirst = true := by
  split at h
  · cases h
    exact hx
  · exact hy h

theorem firstCall_isFirst {c : Charger} {a : Call} (h : firstCall c = some a) :
    a.isFirst = true := by
  unfold firstCall at h
  revert h
  iterate 10 apply isFirst_ite rfl
  intro h
  cases h

theorem firstCall_guard {c : Charger} {a : Call} (hb : (c.cs.bCpStat 0).notBooted = false)
    (h : firstCall c = some a) : a.Guard c := by
  have hf := firstCall_isFirst h
  cases a with
  | stat i | dataTransJ1 | auth | mbrUntpc | startTs | stopTs | chargeAmt | q1 | q2 =>
    exact ⟨hb, h⟩
  | boot | meterVal | trigDiag | trigFw | trigHb | trigMeter | trigStat | diagStat | fwStat | hb
  | cpSts => exact absurd hf (by simp [Call.isFirst])

theorem trigCall_guard {c : Charger} {t : TrigMsgStat} {a : Call}
    (hb : (c.cs.bCpStat 0).notBooted = false) (hn : firstCall c = none)
    (h : trigCall t = some a) : a.Guard c := by
  cases t <;> simp only [trigCall, Option.some.injEq, reduceCtorEq] at h <;>
    subst h <;> exact ⟨hb, hn⟩

theorem lateCall_guard {c : Charger} {a : Call} (hb : (c.cs.bCpStat 0).notBooted = false)
    (hn : firstCall c = none) (h : lateCall c = some a) : a.Guard c := by
  unfold lateCall at h
  split at h
  · simp only [Option.some.injEq] at h
    subst h; exact ⟨hb, hn⟩
  · split at h
    all_goals first
      | (cases h; exact ⟨hb, hn⟩)
      | cases h

theorem Client.checkHbTime_eq (s : Client) (k : Clock) :
    ∃ v, (s.checkHbTime k).2 = s.at s.cp v := by
  unfold checkHbTime
  split
  · exact ⟨k.secReset, rfl⟩
  · exact ⟨s.tv1, rfl⟩

theorem Client.dropTrigBoot_eq (s : Client) :
    ∃ t, s.dropTrigBoot = s.at (s.cp.pulse s.cp.checkMeterFlg t) s.tv1 := by
  unfold dropTrigBoot
  split
  · exact ⟨.none, rfl⟩
  · exact ⟨s.cp.cs.triggerMsgStat, rfl⟩

/-- A tick without a CALL: nothing but the clocks and the two fields of `pulse`. -/
def Client.Idle (s s' : Client) : Prop := ∃ f t v, s' = s.at (s.cp.pulse f t) v

theorem Client.senarioBooted_cases {s s' : Client} {k : Clock} {r : Option Call} (f : Bool)
    (hb : (s.cp.cs.bCpStat 0).notBooted = false)
    (h : (s.at (s.cp.pulse f s.cp.cs.triggerMsgStat) s.tv1).senarioBooted k = some (r, s')) :
    match r with
    | some a => ∃ t, s.Took k a (s.cp.pulse f t) s'
    | none => s.Idle s' := by
  unfold senarioBooted at h
  split at h
  · rename_i a ha
    simp only [Option.map_eq_some_iff, Prod.mk.injEq] at h
    obtain ⟨t, ht, rfl, rfl⟩ := h
    exact ⟨_, make_took _ _ (firstCall_guard hb ha) ht⟩
  · rename_i hfirst
    split at h
    · rename_i a ha
      simp only [Option.map_eq_some_iff, Prod.mk.injEq] at h
      obtain ⟨t, ht, rfl, rfl⟩ := h
      exact ⟨_, make_took _ _ (trigCall_guard hb hfirst ha) ht⟩
    · dsimp only at h
      obtain ⟨t, hdrop⟩ := dropTrigBoot_eq (s.at (s.cp.pulse f s.cp.cs.triggerMsgStat) s.tv1)
      have hdrop : _ = s.at (s.cp.pulse f t) s.tv1 := hdrop
      rw [hdrop] at h
      split at h
      · rename_i a ha
        simp only [Option.map_eq_some_iff, Prod.mk.injEq] at h
        obtain ⟨t', ht, rfl, rfl⟩ := h
        exact ⟨t, make_took _ _ (lateCall_guard hb hfirst ha) ht⟩
      · obtain ⟨v, hv⟩ := checkHbTime_eq (s.at (s.cp.pulse f t) s.tv1) k
        have hv : _ = s.at (s.cp.pulse f t) v := hv
        rw [hv] at h
        split at h
        · simp only [Option.map_eq_some_iff, Prod.mk.injEq] at h
          obtain ⟨t', ht, rfl, rfl⟩ := h
          exact ⟨t, makeTimed_took _ _ (a := .hb) ⟨hb, hfirst⟩ ht⟩
        · split at h
          · simp only [Option.map_eq_some_iff, Prod.mk.injEq] at h
            obtain ⟨t', ht, rfl, rfl⟩ := h
            exact ⟨t, make_took _ _ (a := .cpSts) ⟨hb, hfirst⟩ ht⟩
          · simp only [Option.some.injEq, Prod.mk.injEq] at h
            obtain ⟨rfl, rfl⟩ := h
            exact ⟨f, t, v, rfl⟩

theorem checkMeterTime_eq {c c' : Charger} {tm : Tm} {b : Bool}
    (h : checkMeterTime c tm = some (b, c')) : ∃ f, c' = c.pulse f c.cs.triggerMsgStat := by
  simp only [checkMeterTime, Option.map_eq_some_iff] at h
  obtain ⟨on, _, h⟩ := h
  split at h
  · simp only [Prod.mk.injEq] at h
    exact ⟨_, h.2.symm⟩
  · simp only [Prod.mk.injEq] at h
    exact ⟨_, h.2.symm⟩

/-- **A tick that builds a CALL**: nothing is waited for, and one branch is taken. -/
theorem Client.senario_some {s s' : Client} {k : Clock} {a : Call}
    (h : s.ocppCallSenario k = some (some a, s')) :
    s.bWaitResFlg = false ∧ ∃ f t, s.Took k a (s.cp.pulse f t) s' := by
  unfold ocppCallSenario at h
  split at h
  · simp at h
  · rename_i hw
    refine ⟨by simpa using hw, ?_⟩
    split at h
    · rename_i hb
      dsimp only at h
      obtain ⟨v, hv⟩ := s.checkHbTime_eq k
      rw [hv] at h
      split at h
      · simp only [Option.map_eq_some_iff, Prod.mk.injEq, Option.some.injEq] at h
        obtain ⟨t, ht, rfl, rfl⟩ := h
        exact ⟨s.cp.checkMeterFlg, s.cp.cs.triggerMsgStat,
          makeTimed_took s.cp v (a := .boot) hb ht⟩
      · simp at h
    · rename_i hb
      have hb' : (s.cp.cs.bCpStat 0).notBooted = false := by simpa using hb
      split at h
      · exact absurd h (by simp)
      · rename_i c hc
        obtain ⟨f, rfl⟩ := checkMeterTime_eq hc
        simp only [Option.map_eq_some_iff, Prod.mk.injEq, Option.some.injEq] at h
        obtain ⟨t, ht, rfl, rfl⟩ := h
        exact ⟨f, s.cp.cs.triggerMsgStat, make_took _ s.tv1 (a := .meterVal) hb' ht⟩
      · rename_i c hc
        obtain ⟨f, rfl⟩ := checkMeterTime_eq hc
        obtain ⟨t, htook⟩ := senarioBooted_cases (r := some a) f hb' h
        exact ⟨f, t, htook⟩

/-- **A tick that builds none**: it is idle, or it gives up the CALL it waited for. -/
theorem Client.senario_none {s s' : Client} {k : Clock}
    (h : s.ocppCallSenario k = some (none, s')) :
    (∃ w, s' = { s with tvRes := w }) ∨ (s.bWaitResFlg = false ∧ s.Idle s') ∨
    (s.bWaitResFlg = true ∧
      ∃ w, s' = { s with tvRes := w, bConnect := false, bWaitResFlg := false }) := by
  unfold ocppCallSenario at h
  split at h
  · rename_i hw
    simp only [Option.some.injEq, Prod.mk.injEq, true_and] at h
    unfold checkRespTime at h
    split at h
    · simp only [Bool.false_eq_true, if_false] at h
      exact .inl ⟨_, h.symm⟩
    · split at h
      · exact .inr (.inr ⟨hw, s.tvRes, h.symm⟩)
      · exact .inl ⟨s.tvRes, h.symm⟩
  · rename_i hw
    refine .inr (.inl ⟨by simpa using hw, ?_⟩)
    split at h
    · dsimp only at h
      obtain ⟨v, hv⟩ := s.checkHbTime_eq k
      rw [hv] at h
      split at h
      · simp at h
      · simp only [Option.some.injEq, Prod.mk.injEq, true_and] at h
        exact ⟨s.cp.checkMeterFlg, s.cp.cs.triggerMsgStat, v, h.symm⟩
    · rename_i hb
      have hb' : (s.cp.cs.bCpStat 0).notBooted = false := by simpa using hb
      split at h
      · exact absurd h (by simp)
      · simp at h
      · rename_i c hc
        obtain ⟨f, rfl⟩ := checkMeterTime_eq hc
        exact senarioBooted_cases (r := none) f hb' h

/-! ## 2. What a branch builds -/

/-- The action of the CALL a branch builds. -/
def Call.action : Call → CpReqAction
  | .boot => .boot
  | .meterVal | .trigMeter => .meterVal
  | .stat _ | .trigStat => .stat
  | .dataTransJ1 | .mbrUntpc | .chargeAmt | .q1 | .q2 | .cpSts => .dataTrans
  | .auth => .auth
  | .startTs => .startTs
  | .stopTs => .stopTs
  | .trigDiag | .diagStat => .diagStat
  | .trigFw | .fwStat => .fwStat
  | .trigHb | .hb => .hb

section Headers
variable (tx : TxBuf)

@[simp] theorem TxBuf.setPayload_msgType (i : Nat) (p : Payload) :
    (tx.setPayload i p).msg.msgType = tx.msg.msgType := rfl

@[simp] theorem TxBuf.setPayload_actionCode (i : Nat) (p : Payload) :
    (tx.setPayload i p).msg.actionCode = tx.msg.actionCode := rfl

end Headers

/-- **Every branch builds a CALL of its action.** -/
theorem Call.build_header {a : Call} {k : Clock} {c : Charger} {tx tx' : TxBuf}
    (h : a.build k c tx = some tx') :
    tx'.msg.msgType = msgTypeCall ∧ tx'.msg.actionCode = a.action := by
  cases a with
  | stopTs =>
    simp only [Call.build, Option.map_eq_some_iff] at h
    obtain ⟨d, _, rfl⟩ := h
    unfold makeDataCmdStopTs
    dsimp only
    split <;> exact ⟨rfl, rfl⟩
  | chargeAmt =>
    simp only [Call.build, Option.map_eq_some_iff] at h
    obtain ⟨d, _, rfl⟩ := h
    exact ⟨rfl, rfl⟩
  | stat i =>
    simp only [Call.build, Option.some.injEq] at h
    subst h
    unfold makeDataCmdStat
    dsimp only
    split <;> split <;> split <;> exact ⟨rfl, rfl⟩
  | trigStat =>
    simp only [Call.build, Option.some.injEq] at h
    subst h
    unfold makeDataCmdStat
    dsimp only
    split <;> split <;> split <;> exact ⟨rfl, rfl⟩
  | boot | meterVal | trigMeter | dataTransJ1 | auth | mbrUntpc | startTs | q1 | q2 | trigDiag
  | diagStat | trigFw | fwStat | trigHb | hb | cpSts =>
    simp only [Call.build, Option.some.injEq] at h
    subst h
    exact ⟨rfl, rfl⟩

/-! ## 3. Sending

A tick of a connected client ends in one of four ways: nothing was due, a CALL was given up, a
CALL was built and could not be sent, a CALL was sent. -/

theorem afterMakeOcppMsg_header (tx : TxBuf) :
    (afterMakeOcppMsg tx).msg.msgType = tx.msg.msgType ∧
      (afterMakeOcppMsg tx).msg.actionCode = tx.msg.actionCode ∧
      (afterMakeOcppMsg tx).msg.uniqueId = tx.msg.uniqueId := ⟨rfl, rfl, rfl⟩

/-- A failed send. -/
theorem Client.trans_fail (s : Client) (k : Clock) :
    ∃ d, s.tsctCurlWsTrans k false = ({ s with
      tx := afterMakeOcppMsg s.tx, dataTransUniqueId := d,
      rx := clearRxMsgBuff, bConnect := false }, []) :=
  ⟨_, rfl⟩

/-- A sent CALL. -/
theorem Client.trans_call {s : Client} (k : Clock) (h : s.tx.msg.msgType = msgTypeCall) :
    ∃ d, s.tsctCurlWsTrans k true = ({ s with
      tx := afterMakeOcppMsg s.tx, dataTransUniqueId := d, bWaitResFlg := true,
      tvRes := k.secSent, callTxMsg := (afterMakeOcppMsg s.tx).msg },
      [.sent (makeOcppMsg s.tx s.rx.msg.uniqueIdChar) (afterMakeOcppMsg s.tx).msg s.cp]) := by
  refine ⟨if s.tx.msg.actionCode = .dataTrans then s.tx.msg.uniqueId
    else s.dataTransUniqueId, ?_⟩
  unfold tsctCurlWsTrans
  dsimp only
  rw [if_pos rfl, if_pos (by simpa [afterMakeOcppMsg] using h)]

/-- A sent answer. -/
theorem Client.trans_res {s : Client} (k : Clock) (h : s.tx.msg.msgType = msgTypeCallRes) :
    ∃ d, s.tsctCurlWsTrans k true = ({ s with
      tx := afterMakeOcppMsg s.tx, dataTransUniqueId := d },
      [.sent (makeOcppMsg s.tx s.rx.msg.uniqueIdChar) (afterMakeOcppMsg s.tx).msg s.cp]) := by
  refine ⟨if s.tx.msg.actionCode = .dataTrans then s.tx.msg.uniqueId
    else s.dataTransUniqueId, ?_⟩
  unfold tsctCurlWsTrans
  dsimp only
  rw [if_pos rfl, if_neg (by simp [afterMakeOcppMsg, h, msgTypeCall, msgTypeCallRes])]

/-- **A tick of the connected client**, send and all. -/
inductive Client.Ticked (s : Client) (k : Clock) (sendOk : Bool) (s' : Client) (o : List Obs) :
    Prop
  /-- nothing to do, or still waiting -/
  | idle (f : Bool) (t : TrigMsgStat) (v w : Nat)
      (hs : s' = { s with cp := s.cp.pulse f t, tv1 := v, tvRes := w }) (ho : o = [])
      (hsen : ∃ t, s.ocppCallSenario k = some (none, t))
  /-- the CALL waited for is given up -/
  | timeout (w : Nat) (hw : s.bWaitResFlg = true)
      (hs : s' = { s with tvRes := w, bConnect := false, bWaitResFlg := false }) (ho : o = [])
  /-- a CALL was built, and lost with the connection -/
  | failed (a : Call) (f : Bool) (t : TrigMsgStat) (tx : TxBuf) (d : UInt64) (v : Nat)
      (hw : s.bWaitResFlg = false) (hg : a.Guard (s.cp.pulse f t))
      (hb : a.build k (a.prepare k (s.cp.pulse f t)) s.tx = some tx)
      (hs : s' = { s with
        cp := a.finish (a.prepare k (s.cp.pulse f t)), tv1 := v, tx := afterMakeOcppMsg tx,
        dataTransUniqueId := d, rx := clearRxMsgBuff, bConnect := false })
      (ho : o = a.samples k s.cp) (hk : sendOk = false)
      (hsen : ∃ t, s.ocppCallSenario k = some (some a, t))
  /-- a CALL was built and sent -/
  | called (a : Call) (f : Bool) (t : TrigMsgStat) (tx : TxBuf) (d : UInt64) (v : Nat)
      (hw : s.bWaitResFlg = false) (hg : a.Guard (s.cp.pulse f t))
      (hb : a.build k (a.prepare k (s.cp.pulse f t)) s.tx = some tx)
      (hs : s' = { s with
        cp := a.finish (a.prepare k (s.cp.pulse f t)), tv1 := v, tx := afterMakeOcppMsg tx,
        dataTransUniqueId := d, bWaitResFlg := true, tvRes := k.secSent,
        callTxMsg := (afterMakeOcppMsg tx).msg })
      (ho : o = a.samples k s.cp ++ [.sent (makeOcppMsg tx s.rx.msg.uniqueIdChar)
        (afterMakeOcppMsg tx).msg (a.finish (a.prepare k (s.cp.pulse f t)))])
      (hk : sendOk = true) (hsen : ∃ t, s.ocppCallSenario k = some (some a, t))

theorem Client.tick_cases {s s' : Client} {k : Clock} {sendOk : Bool} {o : List Obs}
    (h : s.tick k sendOk = some (s', o)) : s.Ticked k sendOk s' o := by
  unfold tick at h
  split at h
  · exact absurd h (by simp)
  · rename_i t hs
    simp only [Option.some.injEq, Prod.mk.injEq] at h
    obtain ⟨rfl, rfl⟩ := h
    rcases senario_none hs with ⟨w, rfl⟩ | ⟨_, f, t, v, rfl⟩ | ⟨hw, w, rfl⟩
    · exact .idle s.cp.checkMeterFlg s.cp.cs.triggerMsgStat s.tv1 w rfl rfl ⟨_, hs⟩
    · exact .idle f t v s.tvRes rfl rfl ⟨_, hs⟩
    · exact .timeout w hw rfl rfl
  · rename_i a t hs
    obtain ⟨hw, f, tr, hg, tx, v, hb, rfl⟩ := senario_some hs
    have htype := (Call.build_header hb).1
    cases sendOk with
    | false =>
      obtain ⟨d, hd⟩ := Client.trans_fail
        { s with cp := a.finish (a.prepare k (s.cp.pulse f tr)), tx := tx, tv1 := v } k
      rw [hd] at h
      simp only [Option.some.injEq, Prod.mk.injEq] at h
      obtain ⟨rfl, rfl⟩ := h
      exact .failed a f tr tx d v hw hg hb rfl (by simp) rfl ⟨_, hs⟩
    | true =>
      obtain ⟨d, hd⟩ := Client.trans_call (s :=
        { s with cp := a.finish (a.prepare k (s.cp.pulse f tr)), tx := tx, tv1 := v }) k htype
      rw [hd] at h
      simp only [Option.some.injEq, Prod.mk.injEq] at h
      obtain ⟨rfl, rfl⟩ := h
      exact .called a f tr tx d v hw hg hb rfl rfl rfl ⟨_, hs⟩

/-! ## 4. Receiving

A frame is dropped, is the answer that was waited for, or is a CALL that is served. The three
cases are told apart by the message type and by the two tests of `Tsct_Curl_Ws_Recv`, and a
served CALL once more by whether its answer could be sent. -/

/-- **A receive step.** -/
inductive Client.Received (s : Client) (frame : List Char) (s' : Client) (o : List Obs) : Prop
  /-- nothing was dispatched -/
  | dropped (rx : RxBuf) (d : UInt64) (b : Bool)
      (hs : s' = { s with rx := rx, dataTransUniqueId := d, bConnect := b }) (ho : o = [])
  /-- an answer was handed to its handler -/
  | answered (rx : RxBuf) (d : UInt64) (c : Charger)
      (hw : s.bWaitResFlg = true) (htype : rx.msg.msgType = 3)
      (hact : rx.msg.actionCode = .cp s.callTxMsg.actionCode)
      (hid : rx.msg.uniqueId = s.callTxMsg.uniqueId)
      (htext : rx.msg.uniqueId = idValue (idText frame))
      (hparse : parseData s.callTxMsg.actionCode s.dataTransUniqueId clearRxMsgBuff frame =
        some ⟨false, rx, d⟩)
      (hc : rxCallResDataProc rx s.callTxMsg s.cp = some c)
      (hs : s' = { s with rx := rx, dataTransUniqueId := d, bWaitResFlg := false, cp := c })
      (ho : o = [.answered frame rx.msg s.callTxMsg s.cp])
  /-- a CALL was served; before the boot is accepted its answer is not sent -/
  | served (rx : RxBuf) (d : UInt64) (b : Bool) (cmd : CsReqAction) (j : Junk) (c : Charger)
      (tx tx' : TxBuf) (rx' : RxBuf) (sent : List Obs)
      (hc : rxCallDataProc cmd j rx s.cp s.tx = some (c, tx))
      (htx : tx' = tx ∨ tx' = afterMakeOcppMsg tx)
      (hs : s' = { s with rx := rx', dataTransUniqueId := d, bConnect := b, cp := c, tx := tx' })
      (hsent : sent = [] ∨
        sent = [.sent (makeOcppMsg tx rx.msg.uniqueIdChar) (afterMakeOcppMsg tx).msg c])
      (ho : o = .served frame rx.msg :: sent)

theorem Client.dispatchRes_received {s s' : Client} {rx : RxBuf} {d : UInt64}
    {frame : List Char} {o : List Obs}
    (hacc : rx.msg.actionCode = .cp s.callTxMsg.actionCode)
    (htext : rx.msg.uniqueId = idValue (idText frame)) (htype : rx.msg.msgType = 3)
    (hparse : parseData s.callTxMsg.actionCode s.dataTransUniqueId clearRxMsgBuff frame =
      some ⟨false, rx, d⟩)
    (h : (if ({ s with rx := rx, dataTransUniqueId := d } : Client).expects then
      ({ s with rx := rx, dataTransUniqueId := d } : Client).dispatchRes frame
      else some ({ s with rx := rx, dataTransUniqueId := d }, [])) = some (s', o)) :
    s.Received frame s' o := by
  split at h
  · rename_i he
    simp only [Client.expects, Bool.and_eq_true, decide_eq_true_eq] at he
    simp only [Client.dispatchRes, Option.map_eq_some_iff, Prod.mk.injEq] at h
    obtain ⟨c, hc, rfl, rfl⟩ := h
    exact .answered rx d c he.1 htype hacc he.2.symm htext hparse hc rfl rfl
  · simp only [Option.some.injEq, Prod.mk.injEq] at h
    obtain ⟨rfl, rfl⟩ := h
    exact .dropped rx d s.bConnect rfl rfl

theorem Client.recv_cases {s s' : Client} {frame : List Char} {j : Junk} {k : Clock}
    {sendOk : Bool} {o : List Obs} (h : s.tsctCurlWsRecv frame j k sendOk = some (s', o)) :
    s.Received frame s' o := by
  -- the tests of the function, in its order
  unfold tsctCurlWsRecv at h
  split at h
  · split at h
    · exact absurd h (by simp)
    · rename_i e he
      dsimp only at h
      split at h
      · simp only [Option.some.injEq, Prod.mk.injEq] at h
        obtain ⟨rfl, rfl⟩ := h
        exact .dropped e.rx e.dataTransId s.bConnect rfl rfl
      · rename_i herr
        obtain ⟨err, rx, d⟩ := e
        have herr : err = false := by simpa using herr
        subst herr
        have hacc := parseData_accepted he
        unfold recvParsed at h
        split at h
        · simp only [Option.some.injEq, Prod.mk.injEq] at h
          obtain ⟨rfl, rfl⟩ := h
          exact .dropped rx d false rfl rfl
        · rename_i hne
          split at h
          · -- the boot is not accepted yet
            split at h
            · rename_i hboot
              have h3 : rx.msg.msgType = 3 := hboot.1
              have hans := hacc.resolve_right (by rintro (h | h) <;> omega)
              exact dispatchRes_received hans.2.1 hans.2.2 h3 he h
            · split at h
              · simp only [Option.map_eq_some_iff, Prod.mk.injEq] at h
                obtain ⟨⟨c, tx⟩, hc, rfl, rfl⟩ := h
                exact .served rx d s.bConnect .dataTransfer j c tx tx rx [] hc (.inl rfl) rfl
                  (.inl rfl) rfl
              · simp only [Option.some.injEq, Prod.mk.injEq] at h
                obtain ⟨rfl, rfl⟩ := h
                exact .dropped rx d s.bConnect rfl rfl
          · split at h
            · rename_i h3
              have h3 : rx.msg.msgType = 3 := h3
              have hans := hacc.resolve_right (by rintro (h | h) <;> omega)
              exact dispatchRes_received hans.2.1 hans.2.2 h3 he h
            · split at h
              · split at h
                · rename_i cmd _
                  simp only [Option.map_eq_some_iff, Prod.mk.injEq] at h
                  obtain ⟨⟨c, tx⟩, hc, rfl, rfl⟩ := h
                  have hres := (rxCallDataProc_ok hc).msgType
                  cases sendOk with
                  | false =>
                    obtain ⟨d', hd⟩ := Client.trans_fail
                      { s with rx := rx, dataTransUniqueId := d, cp := c, tx := tx } k
                    rw [hd]
                    exact .served rx d' false cmd j c tx _ _ [] hc (.inr rfl) rfl (.inl rfl) rfl
                  | true =>
                    obtain ⟨d', hd⟩ := Client.trans_res (s :=
                      { s with rx := rx, dataTransUniqueId := d, cp := c, tx := tx }) k hres
                    rw [hd]
                    exact .served rx d' s.bConnect cmd j c tx _ _ _ hc (.inr rfl) rfl
                      (.inr rfl) rfl
                · simp only [Option.some.injEq, Prod.mk.injEq] at h
                  obtain ⟨rfl, rfl⟩ := h
                  exact .dropped rx d s.bConnect rfl rfl
              · simp only [Option.some.injEq, Prod.mk.injEq] at h
                obtain ⟨rfl, rfl⟩ := h
                exact .dropped rx d s.bConnect rfl rfl
  · exact absurd h (by simp)

/-! ## 5. Answers and other threads -/

/-- The fields of `startTsQ` that concern the request. An answer keeps the captured reading,
and only a StartTransaction answer takes the request back. -/
theorem rxCallResDataProc_startTsQ {rx : RxBuf} {m : TxMsg} {c c' : Charger}
    (h : rxCallResDataProc rx m c = some c') :
    c'.startTsQ.meterStartVal = c.startTsQ.meterStartVal ∧
      (rx.msg.actionCode ≠ .cp .startTs → c'.startTsQ = c.startTsQ) := by
  unfold rxCallResDataProc at h
  split at h
  · have := (Charger.billing_eq (dataProcCmdAuth_frame h).1).1
    exact ⟨by rw [this], fun _ => this⟩
  · have := (Charger.billing_eq (dataProcCmdBoot_billing h)).1
    exact ⟨by rw [this], fun _ => this⟩
  · simp only [Option.some.injEq] at h
    subst h; exact ⟨rfl, fun _ => rfl⟩
  · simp only [Option.some.injEq] at h
    subst h; exact ⟨rfl, fun _ => rfl⟩
  · rename_i hact
    exact ⟨(dataProcCmdStartTs_frame h).2.2.1, fun hne => absurd hact hne⟩
  · have := (Charger.billing_eq (dataProcCmdStat_billing h)).1
    exact ⟨by rw [this], fun _ => this⟩
  · have := (dataProcCmdStopTs_frame h).1
    exact ⟨by rw [this], fun _ => this⟩
  all_goals
    simp only [Option.some.injEq] at h
    subst h; exact ⟨rfl, fun _ => rfl⟩

/-- The stop request is only taken back by a StopTransaction answer. -/
theorem rxCallResDataProc_stopFlg {rx : RxBuf} {m : TxMsg} {c c' : Charger}
    (h : rxCallResDataProc rx m c = some c') (hne : rx.msg.actionCode ≠ .cp .stopTs) :
    c'.cs.bReqStopTsFlg = c.cs.bReqStopTsFlg := by
  unfold rxCallResDataProc at h
  split at h
  · exact (Charger.billing_eq (dataProcCmdAuth_frame h).1).2.2.2.1
  · exact (Charger.billing_eq (dataProcCmdBoot_billing h)).2.2.2.1
  · simp only [Option.some.injEq] at h
    subst h; rfl
  · simp only [Option.some.injEq] at h
    subst h; rfl
  · exact (dataProcCmdStartTs_frame h).2.2.2.2.1
  · exact (Charger.billing_eq (dataProcCmdStat_billing h)).2.2.2.1
  · rename_i hact
    exact absurd hact hne
  all_goals
    simp only [Option.some.injEq] at h
    subst h; rfl

/-- Other threads leave the start request, the queue, the ids and the reported statuses
alone; the stop request they only raise. -/
structure EnvOk (c c' : Charger) : Prop where
  startTsQ : c'.startTsQ = c.startTsQ
  meterQ : c'.meterQ = c.meterQ
  bTrId : c'.cs.bTrId = c.cs.bTrId
  pre : c'.cs.bPreCpStat = c.cs.bPreCpStat
  stop : c.cs.bReqStopTsFlg = true → c'.cs.bReqStopTsFlg = true

theorem EnvWrite.apply_ok {w : EnvWrite} {c : Charger} {r : Charger × List Obs}
    (h : w.apply c = some r) : EnvOk c r.1 := by
  cases w with
  | setCpStatus code ch =>
    simp only [EnvWrite.apply, Option.map_eq_some_iff] at h
    obtain ⟨i, _, rfl⟩ := h
    exact ⟨rfl, rfl, rfl, rfl, id⟩
  | reqStopTs =>
    simp only [EnvWrite.apply, Option.some.injEq] at h
    subst h; exact ⟨rfl, rfl, rfl, rfl, fun _ => rfl⟩
  | scene | reqStartTs | reqAuth | scndCardNo | clearParentId | qrEvent | rmtStart
  | rmtStop | diagLogReqStep | updateStep | chargingStatus | devChannel | stopTsConfig =>
    simp only [EnvWrite.apply, Option.some.injEq] at h
    subst h; exact ⟨rfl, rfl, rfl, rfl, id⟩

/-- Another thread's write is seen only if it requests a stop. -/
theorem EnvWrite.apply_obs {w : EnvWrite} {c : Charger} {r : Charger × List Obs}
    (h : w.apply c = some r) : r.2 = [] ∨ r.2 = [.stopRaised] := by
  cases w with
  | setCpStatus code ch =>
    simp only [EnvWrite.apply, Option.map_eq_some_iff] at h
    obtain ⟨i, _, rfl⟩ := h
    exact .inl rfl
  | reqStopTs =>
    simp only [EnvWrite.apply, Option.some.injEq] at h
    subst h; exact .inr rfl
  | scene | reqStartTs | reqAuth | scndCardNo | clearParentId | qrEvent | rmtStart
  | rmtStop | diagLogReqStep | updateStep | chargingStatus | devChannel | stopTsConfig =>
    simp only [EnvWrite.apply, Option.some.injEq] at h
    subst h; exact .inl rfl

/-! ## 6. Any event

`step_cases` puts the cases together. A proof about runs begins with it: it has as many cases as
there are ways for an event to end, each with an equation for the state and one for the
observations. -/

/-- All a branch may show before its frame is a sample. -/
theorem Call.samples_eq {a : Call} {k : Clock} {c : Charger} {ob : Obs}
    (h : ob ∈ a.samples k c) : ∃ c' ty k', ob = .sampled c' ty k' := by
  cases a with
  | stopTs => exact ⟨_, _, _, List.mem_singleton.mp h⟩
  | trigMeter => exact ⟨_, _, _, List.mem_singleton.mp h⟩
  | boot | meterVal | stat | dataTransJ1 | auth | mbrUntpc | startTs | chargeAmt | q1 | q2
  | trigDiag | trigFw | trigHb | trigStat | diagStat | fwStat | hb | cpSts =>
    exact absurd h List.not_mem_nil

/-- A tick shows samples and frames, nothing else. -/
theorem Client.Ticked.obs {s s' : Client} {k : Clock} {sendOk : Bool} {o : List Obs}
    (h : s.Ticked k sendOk s' o) {ob : Obs} (hob : ob ∈ o) :
    (∃ c ty k', ob = .sampled c ty k') ∨ ∃ frame m c, ob = .sent frame m c := by
  cases h with
  | idle f t v w hs ho => rw [ho] at hob; exact absurd hob List.not_mem_nil
  | timeout w hw hs ho => rw [ho] at hob; exact absurd hob List.not_mem_nil
  | failed a f t tx d v hw hg hb hs ho =>
    rw [ho] at hob
    exact .inl (Call.samples_eq hob)
  | called a f t tx d v hw hg hb hs ho =>
    rw [ho] at hob
    rcases List.mem_append.mp hob with hob | hob
    · exact .inl (Call.samples_eq hob)
    · exact .inr ⟨_, _, _, List.mem_singleton.mp hob⟩

/-- The charger once a start request is raised. -/
def Charger.startRaised (c : Charger) (k : Clock) : Charger :=
  { c with
      cs := { c.cs with bReqStartTsNo := 0 }
      startTsQ := { reqStartTsFlg := true, connectorNo := 1, faultChargFlg := false,
                    timeStamp := getDateTime k.tm, meterStartVal := c.scene.eqpWatt,
                    idTag := idTag16 c.scene.cardNo } }

/-- **What an event can have done.** -/
inductive Client.Stepped (s : Client) (e : Event) (s' : Client) (o : List Obs) : Prop
  /-- nothing but the connection, the receive buffer and the clock's flag -/
  | quiet (f : Bool) (rx : RxBuf) (b : Bool)
      (hs : s' = { s with cp := { s.cp with checkSampledFlg := f }, rx := rx, bConnect := b })
      (ho : o = [])
      (hrun : ∀ k sendOk connectOk, e = .netRun k sendOk connectOk →
        s.bConnect = false ∧ connectOk = false)
  /-- a start request is raised -/
  | raised (k : Clock) (he : e = .raiseStart k) (hreq : s.cp.cs.bReqStartTsNo ≠ 0)
      (hs : s' = { s with cp := s.cp.startRaised k }) (ho : o = [.startRaised s.cp.scene.eqpWatt])
  /-- the periodic sample is taken -/
  | sampled (k : Clock) (f : Bool) (ty : Nat) (he : e = .sample k) (hty : ty ≠ 0)
      (hdue : checkSampledTime s.cp k.tmCheck = some (ty, { s.cp with checkSampledFlg := f }))
      (hs : s' = { s with cp := addMeterValQ { s.cp with checkSampledFlg := f } k.sample ty })
      (ho : o = [.sampled { s.cp with checkSampledFlg := f } ty k.sample])
  /-- a new connection: what was waited for is forgotten -/
  | connected (k : Clock) (sendOk : Bool) (he : e = .netRun k sendOk true)
      (hc : s.bConnect = false) (hs : s' = { s with bConnect := true, bWaitResFlg := false })
      (ho : o = [])
  | ticked (k : Clock) (sendOk connectOk : Bool) (he : e = .netRun k sendOk connectOk)
      (hc : s.bConnect = true) (ht : s.Ticked k sendOk s' o)
  | received (frame : List Char) (j : Junk) (k : Clock) (sendOk : Bool)
      (he : e = .recv frame j k sendOk) (hc : s.bConnect = true) (hr : s.Received frame s' o)
  | env (w : EnvWrite) (c : Charger) (he : e = .env w) (hw : w.apply s.cp = some (c, o))
      (hs : s' = { s with cp := c })

theorem step_cases {s s' : Client} {e : Event} {o : List Obs} (h : step s e = some (s', o)) :
    s.Stepped e s' o := by
  -- one case per event; the two big ones are `tick_cases` and `recv_cases`
  cases e with
  | raiseStart k =>
    simp only [step, Option.some.injEq, Client.raiseStart] at h
    split at h
    · rename_i hreq
      obtain ⟨rfl, rfl⟩ := Prod.mk.inj h
      exact .raised k rfl hreq rfl rfl
    · obtain ⟨rfl, rfl⟩ := Prod.mk.inj h
      exact .quiet s.cp.checkSampledFlg s.rx s.bConnect rfl rfl (by simp)
  | sample k =>
    simp only [step, Client.sampleMeter, Option.map_eq_some_iff] at h
    obtain ⟨⟨ty, c⟩, hr, h⟩ := h
    have hc : ∃ f, c = { s.cp with checkSampledFlg := f } := by
      simp only [checkSampledTime, Option.map_eq_some_iff] at hr
      obtain ⟨on, _, hr⟩ := hr
      split at hr <;> exact ⟨_, (Prod.mk.inj hr).2.symm⟩
    obtain ⟨f, rfl⟩ := hc
    split at h
    · rename_i hty
      obtain ⟨rfl, rfl⟩ := Prod.mk.inj h
      exact .sampled k f ty rfl hty hr rfl rfl
    · obtain ⟨rfl, rfl⟩ := Prod.mk.inj h
      exact .quiet f s.rx s.bConnect rfl rfl (by simp)
  | linkDown =>
    obtain ⟨rfl, rfl⟩ := Prod.mk.inj (Option.some.inj h)
    exact .quiet s.cp.checkSampledFlg _ false rfl rfl (by simp)
  | netDown =>
    obtain ⟨rfl, rfl⟩ := Prod.mk.inj (Option.some.inj h)
    exact .quiet s.cp.checkSampledFlg s.rx false rfl rfl (by simp)
  | recvFail =>
    obtain ⟨rfl, rfl⟩ := Prod.mk.inj (Option.some.inj h)
    split
    · exact .quiet s.cp.checkSampledFlg _ false rfl rfl (by simp)
    · exact .quiet s.cp.checkSampledFlg s.rx s.bConnect rfl rfl (by simp)
  | netRun k sendOk connectOk =>
    simp only [step, Client.netRun] at h
    split at h
    · rename_i hc
      exact .ticked k sendOk connectOk rfl hc (Client.tick_cases h)
    · rename_i hc
      have hc : s.bConnect = false := by simpa using hc
      obtain ⟨rfl, rfl⟩ := Prod.mk.inj (Option.some.inj h)
      cases connectOk with
      | true => exact .connected k sendOk rfl hc rfl rfl
      | false =>
        refine .quiet s.cp.checkSampledFlg s.rx false rfl rfl fun _ _ _ he => ⟨hc, ?_⟩
        injection he with _ _ he
        exact he.symm
  | recv frame j k sendOk =>
    simp only [step] at h
    split at h
    · rename_i hc
      exact .received frame j k sendOk rfl hc (Client.recv_cases h)
    · obtain ⟨rfl, rfl⟩ := Prod.mk.inj (Option.some.inj h)
      exact .quiet s.cp.checkSampledFlg s.rx s.bConnect rfl rfl (by simp)
  | env w =>
    simp only [step, Option.map_eq_some_iff] at h
    obtain ⟨⟨c, o'⟩, hw, h⟩ := h
    obtain ⟨rfl, rfl⟩ := Prod.mk.inj h
    exact .env w c rfl hw rfl

end ChargePoint
