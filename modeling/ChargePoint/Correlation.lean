import ChargePoint.Steps
import ChargePoint.Lib.SingleCall
import ChargePoint.Numerals

/-!
# Call correlation

The client as a party with one request outstanding: `Call_Tx_Msg` while `bWaitResFlg` is set.

`run_legal` is the refinement: the CALLs and the dispatched answers of every run form a
legal history of `SingleCall`, with timeouts and reconnects as the acts nobody sees. What a
run can and cannot do then follows from that discipline alone, whatever the frames, the
failures and the clock did.

**On ids.** `Parse_Header` reads the id of an answer as `Σ (c - '0') * 10^k` in 64 bits and
checks no character, and it is this number that is compared. So the id *text* of an
answer need not be the text that was sent: `1:` is 20 as well. For a text that is a decimal
numeral of a 64-bit number the two agree (`idValue_dec`).
-/

set_option autoImplicit false

namespace ChargePoint

open CStr SingleCall

/-! ## The history of a run -/

/-- The act an observation is. -/
def Obs.act : Obs → Option (Act TxMsg)
  | .sent _ m _ => if m.msgType = msgTypeCall then some (.call m) else none
  | .answered _ _ call _ => some (.answer call)
  | _ => none

def acts (log : List Obs) : List (Act TxMsg) := log.filterMap Obs.act

@[simp] theorem acts_nil : acts [] = [] := rfl

@[simp] theorem acts_append (l l' : List Obs) : acts (l ++ l') = acts l ++ acts l' :=
  List.filterMap_append ..

/-- The last transmission of a CALL or dispatch of an answer. -/
def lastAct (log : List Obs) : Option (Act TxMsg) := (acts log).getLast?

/-- What the client waits for. -/
def Client.outstanding (s : Client) : Option TxMsg :=
  if s.bWaitResFlg then some s.callTxMsg else none

theorem Client.outstanding_of_waiting {s : Client} (h : s.bWaitResFlg = true) :
    s.outstanding = some s.callTxMsg := if_pos h

theorem Client.outstanding_of_idle {s : Client} (h : s.bWaitResFlg = false) :
    s.outstanding = none := by simp [outstanding, h]

/-! ## One step -/

theorem Call.samples_acts (a : Call) (k : Clock) (c : Charger) : acts (a.samples k c) = [] := by
  unfold acts
  rw [List.filterMap_eq_nil_iff]
  intro ob hob
  obtain ⟨c', ty, k', rfl⟩ := Call.samples_eq hob
  rfl

theorem EnvWrite.apply_acts {w : EnvWrite} {c : Charger} {r : Charger × List Obs}
    (h : w.apply c = some r) : acts r.2 = [] := by
  rcases EnvWrite.apply_obs h with ho | ho <;> rw [ho] <;> rfl

/-- The ways one step moves the exchange. -/
inductive Moved (s s' : Client) (o : List Obs) : Prop
  | same (ho : acts o = []) (hs : s'.outstanding = s.outstanding)
  | call (ho : acts o = [.call s'.callTxMsg]) (hw : s.bWaitResFlg = false)
      (hw' : s'.bWaitResFlg = true)
  | answer (ho : acts o = [.answer s.callTxMsg]) (hw : s.bWaitResFlg = true)
      (hw' : s'.bWaitResFlg = false)
  | giveUp (ho : acts o = []) (hw : s.bWaitResFlg = true) (hw' : s'.bWaitResFlg = false)

theorem Client.Ticked.moved {s s' : Client} {k : Clock} {sendOk : Bool} {o : List Obs}
    (h : s.Ticked k sendOk s' o) : Moved s s' o := by
  cases h with
  | idle f t v w hs ho =>
    subst hs ho
    exact .same rfl rfl
  | timeout w hw hs ho =>
    subst hs ho
    exact .giveUp rfl hw rfl
  | failed a f t tx d v hw hg hb hs ho =>
    subst hs ho
    exact .same (a.samples_acts k s.cp) rfl
  | called a f t tx d v hw hg hb hs ho =>
    subst hs ho
    have hcall : (afterMakeOcppMsg tx).msg.msgType = msgTypeCall := (Call.build_header hb).1
    refine .call ?_ hw rfl
    rw [acts_append, a.samples_acts]
    simp [acts, Obs.act, hcall]

theorem Client.Received.moved {s s' : Client} {frame : List Char} {o : List Obs}
    (h : s.Received frame s' o) : Moved s s' o := by
  cases h with
  | dropped rx d b hs ho =>
    subst hs ho
    exact .same rfl rfl
  | answered rx d c hw htype hact hid htext hparse hc hs ho =>
    subst hs ho
    exact .answer rfl hw rfl
  | served rx d b cmd j c tx tx' rx' sent hc htx hs hsent ho =>
    subst hs ho
    have hres : (afterMakeOcppMsg tx).msg.msgType = msgTypeCallRes := (rxCallDataProc_ok hc).msgType
    refine .same ?_ rfl
    rcases hsent with rfl | rfl
    · rfl
    · simp [acts, Obs.act, hres, msgTypeCall, msgTypeCallRes]

theorem step_moved {s s' : Client} {e : Event} {o : List Obs} (h : step s e = some (s', o)) :
    Moved s s' o := by
  cases step_cases h with
  | quiet f rx b hs ho hrun => subst hs ho; exact .same rfl rfl
  | raised k he hreq hs ho => subst hs ho; exact .same rfl rfl
  | sampled k f ty he hty hdue hs ho => subst hs ho; exact .same rfl rfl
  | connected k sendOk he hc hs ho =>
    subst hs ho
    cases hw : s.bWaitResFlg with
    | false => exact .same rfl (by simp [Client.outstanding, hw])
    | true => exact .giveUp rfl hw rfl
  | ticked k sendOk connectOk he hc ht => exact ht.moved
  | received frame j k sendOk he hc hr => exact hr.moved
  | env w c he hw hs =>
    subst hs
    exact .same (EnvWrite.apply_acts hw) rfl

/-! ## Every run -/

/-- **Every run is a legal exchange**: some legal history shows exactly the CALLs and the
dispatched answers of the run, and leaves outstanding what the client waits for. -/
theorem run_legal {s : Client} {log : List Obs} (h : Run s log) :
    ∃ l, Legal l s.outstanding ∧ seen l = acts log := by
  obtain ⟨st, now, h⟩ := h
  refine h.invariant (I := fun s log => ∃ l, Legal l s.outstanding ∧ seen l = acts log)
    ⟨[], .nil, rfl⟩ ?_
  intro s log e s' o ⟨l, hl, hseen⟩ _ hstep
  cases step_moved hstep with
  | same ho hs => exact ⟨l, hs ▸ hl, by simp [hseen, ho]⟩
  | call ho hw hw' =>
    rw [Client.outstanding_of_idle hw] at hl
    refine ⟨l ++ [.call s'.callTxMsg], ?_, ?_⟩
    · rw [Client.outstanding_of_waiting hw']
      exact hl.call _
    · rw [seen_append, hseen, acts_append, ho]
      rfl
  | answer ho hw hw' =>
    rw [Client.outstanding_of_waiting hw] at hl
    refine ⟨l ++ [.answer s.callTxMsg], ?_, ?_⟩
    · rw [Client.outstanding_of_idle hw']
      exact hl.answer
    · rw [seen_append, hseen, acts_append, ho]
      rfl
  | giveUp ho hw hw' =>
    rw [Client.outstanding_of_waiting hw] at hl
    refine ⟨l ++ [.giveUp], ?_, ?_⟩
    · rw [Client.outstanding_of_idle hw']
      exact hl.giveUp
    · rw [seen_append, hseen, acts_append, ho]
      rfl

/-- While an answer is waited for, the last act of the run is the transmission of
`Call_Tx_Msg`. -/
theorem run_waiting {s : Client} {log : List Obs} (h : Run s log)
    (hw : s.bWaitResFlg = true) : lastAct log = some (.call s.callTxMsg) := by
  obtain ⟨l, hl, hseen⟩ := run_legal h
  rw [Client.outstanding_of_waiting hw] at hl
  rw [lastAct, ← hseen]
  exact hl.seen_waiting

/-! ## The invariant as a reader of the wire sees it -/

/-- What is observed in a step and is a CALL. -/
theorem mem_acts_of_call {o : List Obs} {frame : List Char} {m : TxMsg} {c : Charger}
    (h : .sent frame m c ∈ o) (hm : m.msgType = msgTypeCall) : .call m ∈ acts o :=
  List.mem_filterMap.mpr ⟨_, h, by simp [Obs.act, hm]⟩

theorem mem_of_call_mem_acts {o : List Obs} {m : TxMsg} (h : .call m ∈ acts o) :
    ∃ frame c, .sent frame m c ∈ o ∧ m.msgType = msgTypeCall := by
  obtain ⟨ob, hob, hact⟩ := List.mem_filterMap.mp h
  cases ob with
  | sent frame m' c =>
    simp only [Obs.act, Option.ite_none_right_eq_some, Option.some.injEq, Act.call.injEq] at hact
    obtain ⟨hm, rfl⟩ := hact
    exact ⟨frame, c, hob, hm⟩
  | answered | served | sampled | startRaised | stopRaised => simp [Obs.act] at hact

theorem mem_acts_of_answered {o : List Obs} {frame : List Char} {rx : RxMsg} {m : TxMsg}
    {c : Charger} (h : .answered frame rx m c ∈ o) : .answer m ∈ acts o :=
  List.mem_filterMap.mpr ⟨_, h, rfl⟩

/-- A step that transmits a CALL is a tick that takes a branch, and the CALL is the last
thing observed in it. -/
theorem step_sends {s s' : Client} {e : Event} {o : List Obs} {frame : List Char} {m : TxMsg}
    {c : Charger} (h : step s e = some (s', o)) (hmem : .sent frame m c ∈ o)
    (hm : m.msgType = msgTypeCall) :
    ∃ k a f t tx, Call.Guard a (s.cp.pulse f t) ∧
      a.build k (a.prepare k (s.cp.pulse f t)) s.tx = some tx ∧
      frame = makeOcppMsg tx s.rx.msg.uniqueIdChar ∧ m = (afterMakeOcppMsg tx).msg ∧
      c = a.finish (a.prepare k (s.cp.pulse f t)) ∧ s'.cp = c ∧ s'.callTxMsg = m ∧
      o = a.samples k s.cp ++ [.sent frame m c] := by
  have hne : acts o ≠ [] := List.ne_nil_of_mem (mem_acts_of_call hmem hm)
  cases step_cases h with
  | quiet f rx b hs ho hrun => subst ho; exact absurd rfl hne
  | raised k he hreq hs ho => subst ho; exact absurd rfl hne
  | sampled k f ty he hty hdue hs ho => subst ho; exact absurd rfl hne
  | connected k sendOk he hc hs ho => subst ho; exact absurd rfl hne
  | env w c' he hw hs => exact absurd (EnvWrite.apply_acts hw) hne
  | ticked k sendOk connectOk he hc ht =>
    cases ht with
    | idle f t v w hs ho => subst ho; exact absurd rfl hne
    | timeout w hw hs ho => subst ho; exact absurd rfl hne
    | failed a f t tx d v hw hg hb hs ho => subst ho; exact absurd (a.samples_acts k s.cp) hne
    | called a f t tx d v hw hg hb hs ho =>
      subst hs ho
      rcases List.mem_append.mp hmem with hmem | hmem
      · obtain ⟨c', ty, k', heq⟩ := Call.samples_eq hmem
        cases heq
      · simp only [List.mem_singleton, Obs.sent.injEq] at hmem
        obtain ⟨rfl, rfl, rfl⟩ := hmem
        exact ⟨k, a, f, t, tx, hg, hb, rfl, rfl, rfl, rfl, rfl, rfl⟩
  | received fr j k sendOk he hc hr =>
    cases hr with
    | dropped rx d b hs ho => subst ho; exact absurd rfl hne
    | answered rx d c₁ hw htype hact hid htext hparse hc hs ho => subst ho; simp at hmem
    | served rx d b cmd j₁ c₁ tx tx' rx' sent hc htx hs hsent ho =>
      subst ho
      -- what answers a CALL is a CALLRESULT, so it cannot be the CALL looked at
      have hres : (afterMakeOcppMsg tx).msg.msgType = msgTypeCallRes :=
        (rxCallDataProc_ok hc).msgType
      rcases hsent with rfl | rfl
      · simp at hmem
      · simp only [List.mem_cons, reduceCtorEq, Obs.sent.injEq, List.not_mem_nil, or_false,
          false_or] at hmem
        obtain ⟨-, rfl, -⟩ := hmem
        exact absurd (hres.symm.trans hm) (by simp [msgTypeCall, msgTypeCallRes])

/-- A step in which an answer is handed over is a receive step that hands over one. -/
theorem step_answered {s s' : Client} {e : Event} {o : List Obs} {frame : List Char}
    {rx : RxMsg} {m : TxMsg} {c : Charger} (h : step s e = some (s', o))
    (hmem : .answered frame rx m c ∈ o) :
    s.bWaitResFlg = true ∧ s'.bWaitResFlg = false ∧ m = s.callTxMsg ∧ c = s.cp ∧
      rx.actionCode = .cp m.actionCode ∧ rx.uniqueId = m.uniqueId ∧
      rx.uniqueId = idValue (idText frame) ∧
      ∃ rxBuf, rxBuf.msg = rx ∧ rxCallResDataProc rxBuf m s.cp = some s'.cp := by
  have hne : acts o ≠ [] := List.ne_nil_of_mem (mem_acts_of_answered hmem)
  cases step_cases h with
  | quiet f rx₁ b hs ho hrun => subst ho; exact absurd rfl hne
  | raised k he hreq hs ho => subst ho; exact absurd rfl hne
  | sampled k f ty he hty hdue hs ho => subst ho; exact absurd rfl hne
  | connected k sendOk he hc hs ho => subst ho; exact absurd rfl hne
  | env w c' he hw hs => exact absurd (EnvWrite.apply_acts hw) hne
  | ticked k sendOk connectOk he hc ht =>
    rcases ht.obs hmem with ⟨c', ty, k', heq⟩ | ⟨fr, m', c', heq⟩ <;> cases heq
  | received fr j k sendOk he hc hr =>
    cases hr with
    | dropped rx₁ d b hs ho => subst ho; exact absurd rfl hne
    | answered rx₁ d c₁ hw htype hact hid htext hparse hc hs ho =>
      subst hs ho
      simp only [List.mem_singleton, Obs.answered.injEq] at hmem
      obtain ⟨rfl, rfl, rfl, rfl⟩ := hmem
      exact ⟨hw, rfl, rfl, rfl, hact, hid, htext, rx₁, rfl, hc⟩
    | served rx₁ d b cmd j₁ c₁ tx tx' rx' sent hc htx hs hsent ho =>
      subst ho
      rcases hsent with rfl | rfl <;> simp at hmem

/-- **Call correlation.** In every run:

* no CALL is transmitted while an answer is waited for;
* while one is, the last act on the exchange is the transmission of `Call_Tx_Msg` — so it
  is the last CALL transmitted, and no answer was dispatched for it;
* an answer is only dispatched while one is waited for, for that very CALL — hence at most
  once per CALL — to the handler of its action, and its id decodes to the CALL's id; if the
  id text is a decimal numeral of a 64-bit number, it is the text that was sent. -/
theorem call_correlation {s : Client} {log : List Obs} (h : Run s log) :
    (s.bWaitResFlg = true → lastAct log = some (.call s.callTxMsg)) ∧
    ∀ e s' o, step s e = some (s', o) →
      (∀ frame m c, .sent frame m c ∈ o → m.msgType = msgTypeCall → s.bWaitResFlg = false) ∧
      (∀ frame rx m c, .answered frame rx m c ∈ o →
        s.bWaitResFlg = true ∧ s'.bWaitResFlg = false ∧ lastAct log = some (.call m) ∧
        rx.actionCode = .cp m.actionCode ∧
        (∃ rxBuf, rxBuf.msg = rx ∧ rxCallResDataProc rxBuf m s.cp = some s'.cp) ∧
        rx.uniqueId = m.uniqueId ∧ idValue (idText frame) = m.uniqueId ∧
        (∀ n < 2 ^ 64, idText frame = dec n → idText frame = dec m.uniqueId.toNat)) := by
  refine ⟨run_waiting h, fun e s' o hstep => ⟨fun frame m c hmem hm => ?_, ?_⟩⟩
  · have hact := mem_acts_of_call hmem hm
    cases step_moved hstep with
    | same ho hs => simp [ho] at hact
    | call ho hw hw' => exact hw
    | answer ho hw hw' => simp [ho] at hact
    | giveUp ho hw hw' => simp [ho] at hact
  · intro frame rx m c hmem
    obtain ⟨hw, hw', rfl, rfl, hcode, hid, htext, hproc⟩ := step_answered hstep hmem
    have hval : idValue (idText frame) = s.callTxMsg.uniqueId := htext.symm.trans hid
    refine ⟨hw, hw', run_waiting h hw, hcode, hproc, hid, hval, fun n hn hdec => ?_⟩
    have hn' := eq_dec_of_idValue hn (hdec ▸ hval)
    rw [hdec, ← hn']

/-! ## A concrete run -/

/-- Every reading of a clock that shows `sec`, with the id `uid`. -/
def Clock.reading (sec : Nat) (uid : UInt64) : Clock :=
  let tm : Tm := ⟨124, 0, 1, 0, 1, 1⟩
  ⟨sec, sec, uid, tm, tm, ⟨uid, tm⟩, sec⟩

def Junk.zero : Junk := ⟨false, false, 0, false, []⟩

/-- A frame arrives. -/
def arrives (frame : String) : Event := .recv frame.toList .zero (.reading 0 0) true

/-- Connect, send a BootNotification with id 20 and receive its acceptance under `id`. -/
def bootRun (id : String) : List Event :=
  [ .netRun (.reading 0 0) true true,
    .netRun (.reading 10 20) true true,
    arrives ("[3,\"" ++ id ++ "\",\x7b\"status\":\"Accepted\"\x7d]") ]

/-- Boot, and let both connectors and the price request be acknowledged. -/
def bootedRun : List Event :=
  bootRun "20" ++
  [ .netRun (.reading 11 2) true true, arrives "[3,\"2\",\x7b\x7d]",
    .netRun (.reading 12 3) true true, arrives "[3,\"3\",\x7b\x7d]",
    .netRun (.reading 13 4) true true, arrives "[3,\"4\",\x7b\x7d]" ]

/-- A computed run that passes a check exhibits a run that passes it. -/
theorem exists_run_of_exec {st : UInt32} {now : Nat} {es : List Event}
    {p : Client → List Obs → Bool}
    (h : (Trace.exec step (fun _ _ _ => true) (Client.init st now) [] es).any
      (fun r => p r.1 r.2) = true) :
    ∃ s log, Run s log ∧ p s log = true := by
  obtain ⟨s, log, hreach, hp⟩ := Trace.exists_reach_of_exec h
  exact ⟨s, log, ⟨st, now, hreach.always⟩, hp⟩

/-- The same for a run under a condition. -/
theorem exists_runIf_of_exec {g : Client → List Obs → Event → Bool} {st : UInt32} {now : Nat}
    {es : List Event} {p : Client → List Obs → Bool}
    (h : (Trace.exec step g (Client.init st now) [] es).any (fun r => p r.1 r.2) = true) :
    ∃ s log, RunIf (fun s log e => g s log e = true) s log ∧ p s log = true := by
  obtain ⟨s, log, hreach, hp⟩ := Trace.exists_reach_of_exec h
  exact ⟨s, log, ⟨st, now, hreach⟩, hp⟩

set_option maxRecDepth 20000 in
theorem call_correlation_boot :
    ∃ s log, Run s log ∧ s.bWaitResFlg = true ∧ lastAct log = some (.call s.callTxMsg) := by
  have hrun : (Trace.exec step (fun _ _ _ => true) (Client.init 3 0) []
      ((bootRun "20").take 2)).any (fun r => r.1.bWaitResFlg) = true := by decide +kernel
  obtain ⟨s, log, h, hw⟩ := exists_run_of_exec (p := fun s _ => s.bWaitResFlg) hrun
  exact ⟨s, log, h, hw, (call_correlation h).1 hw⟩

set_option maxRecDepth 20000 in
/-- **An answer need not carry the id that was sent.** The id `1:` is read as
`1 * 10 + 10 = 20`: the BootNotification with id 20 is answered by a frame whose id is
another text. -/
theorem answered_by_other_id_text :
    ∃ s log, Run s log ∧ ∃ frame rx m c, Obs.answered frame rx m c ∈ log ∧
      idText frame ≠ dec m.uniqueId.toNat := by
  let p : Client → List Obs → Bool := fun _ log => log.any fun o => match o with
    | .answered frame _ m _ => idText frame ≠ dec m.uniqueId.toNat
    | _ => false
  have hrun : (Trace.exec step (fun _ _ _ => true) (Client.init 3 0) [] (bootRun "1:")).any
      (fun r => p r.1 r.2) = true := by decide +kernel
  obtain ⟨s, log, h, hp⟩ := exists_run_of_exec hrun
  refine ⟨s, log, h, ?_⟩
  obtain ⟨o, hmem, ho⟩ := List.any_eq_true.mp hp
  cases o with
  | answered frame rx m c => exact ⟨frame, rx, m, c, hmem, by simpa using ho⟩
  | sent | served | sampled | startRaised | stopRaised => exact absurd ho (by simp)

end ChargePoint
