import ChargePoint.Journal
import ChargePoint.Standing
import ChargePoint.StopRequest

/-!
# Nothing is asked for twice

Eight of the client's requests are flags that one CALL takes back while it is built: a lost CALL
is lost, and what `OCPP_CALL_Senario` sends of such a request, it sends at most once. The account
is kept per request: every CALL of its branches was paid for by an entry of its own that raised
it (`made_le_raised`).

The session's end takes three of them in a row, a stop, the StopTransaction and the question for
the amount. `amounts_le_stops` adds the accounts up.
-/

set_option autoImplicit false

namespace ChargePoint

open CStr SingleCall

/-- The requests that one CALL settles. -/
inductive Req
  /-- `bReqStopTsFlg` -/
  | stop
  /-- `bReqMemberFlg` -/
  | member
  /-- `bReqChargeAmtFlg` -/
  | chargeAmt
  /-- `bQrEventFlg` -/
  | qr
  /-- `bChargerCostCheck` -/
  | cost
  /-- `OcppCpStsFlg` -/
  | cpSts
  /-- `diagLogReqStep`, from UPLOADING on -/
  | diag
  /-- `triggerMsgStat` -/
  | trigger
  deriving DecidableEq

namespace Req

/-- The branches that take the request. -/
def takes : Req → Call → Bool
  | .stop, a => a = .stopTs
  | .member, a => a = .mbrUntpc
  | .chargeAmt, a => a = .chargeAmt
  | .qr, a => a = .q1 ∨ a = .q2
  | .cost, a => a = .dataTransJ1
  | .cpSts, a => a = .cpSts
  | .diag, a => a = .diagStat
  | .trigger, a => a.takesTrig

/-- A CALL was built for the request. -/
def isMade (r : Req) : Entry → Bool
  | .inl (.made a) => r.takes a
  | _ => false

/-- The answers that raise the request. -/
def raisedBy : Req → CpReqAction → Bool
  | .member, a => a = .auth
  | .chargeAmt, a => a = .stopTs
  | .cost, a => a = .boot
  | .cpSts, a => a = .hb
  | .stop, _ | .qr, _ | .diag, _ | .trigger, _ => false

/-- The requests of the central system that raise it: TriggerMessage, and the two whose handlers
copy a text over the flags. -/
def servedBy : Req → CsReqAction → Bool
  | .member, cmd => cmd.copies
  | .chargeAmt, cmd => cmd.copies
  | .diag, cmd => cmd = .unlockConnect
  | .trigger, cmd => cmd = .triggerMsg
  | .stop, _ | .qr, _ | .cost, _ | .cpSts, _ => false

/-- What can raise the request. -/
def isRaised (r : Req) : Entry → Bool
  | .inr .stopRaised => r = .stop
  | .inr (.answered _ rx _ _) => match rx.actionCode with
    | .cp a => r.raisedBy a
    | .cs _ => false
  | .inr (.served _ rx) => match rx.actionCode with
    | .cs cmd => r.servedBy cmd
    | .cp _ => false
  | .inl (.wrote (.qrEvent _ _)) => r = .qr
  | .inl (.wrote (.diagLogReqStep _)) => r = .diag
  | _ => false

/-- The request stands. -/
def stands (r : Req) (s : Standing) : Bool :=
  match r with
  | .stop => s.bReqStopTsFlg
  | .member => s.bReqMemberFlg
  | .chargeAmt => s.bReqChargeAmtFlg
  | .qr => s.bQrEventFlg ≠ 0
  | .cost => s.bChargerCostCheck ≠ 0
  | .cpSts => s.ocppCpStsFlg
  | .diag => diagStatUploading ≤ s.diagLogReqStep
  | .trigger => s.triggerMsgStat ≠ .none

def held (r : Req) (c : Charger) : Nat := (r.stands c.standing).toNat

end Req

/-! ## One event

That a CALL is only built for a request that stands is a matter of the branches' conditions. The
trigger is the exception in this family: it can be dropped without a CALL, when it asks for a
boot. -/

theorem firstCall_mbrUntpc {c : Charger} (h : firstCall c = some .mbrUntpc) :
    c.cs.bReqMemberFlg = true := by
  simp only [firstCall, ite_eq_iff, Option.some.injEq, reduceCtorEq, and_false, false_or,
    or_false] at h
  obtain ⟨-, -, -, -, hmember, -⟩ := h
  exact hmember

theorem firstCall_chargeAmt {c : Charger} (h : firstCall c = some .chargeAmt) :
    c.cs.bReqChargeAmtFlg = true := by
  simp only [firstCall, ite_eq_iff, Option.some.injEq, reduceCtorEq, and_false, false_or,
    or_false] at h
  obtain ⟨-, -, -, -, -, -, -, hamt, -⟩ := h
  exact hamt

theorem firstCall_dataTransJ1 {c : Charger} (h : firstCall c = some .dataTransJ1) :
    c.bChargerCostCheck = 2 := by
  simp only [firstCall, ite_eq_iff, Option.some.injEq, reduceCtorEq, and_false, false_or,
    or_false] at h
  obtain ⟨-, -, hcost, -⟩ := h
  exact hcost

theorem firstCall_q1 {c : Charger} (h : firstCall c = some .q1) : c.cs.bQrEventFlg = 1 := by
  simp only [firstCall, ite_eq_iff, Option.some.injEq, reduceCtorEq, and_false, false_or,
    or_false] at h
  obtain ⟨-, -, -, -, -, -, -, -, hqr, -⟩ := h
  exact hqr

theorem firstCall_q2 {c : Charger} (h : firstCall c = some .q2) : c.cs.bQrEventFlg = 2 := by
  simp only [firstCall, ite_eq_iff, Option.some.injEq, reduceCtorEq, and_false, false_or,
    or_false] at h
  obtain ⟨-, -, -, -, -, -, -, -, -, hqr, -⟩ := h
  exact hqr

theorem lateCall_diagStat {c : Charger} (h : lateCall c = some .diagStat) :
    diagStatUploading ≤ c.cs.diagLogReqStep := by
  unfold lateCall at h
  split at h
  · rename_i hstep
    exact hstep
  · split at h
    · cases h
    · cases h
    · cases h
    · cases h
    · cases h
    · cases h
    · cases h
    · cases h
    · cases h

/-- A branch is only taken while its request stands. -/
theorem Req.due {r : Req} {a : Call} {c : Charger} (h : a.Due c) (ht : r.takes a = true) :
    r.stands c.standing = true := by
  cases r with
  | stop =>
    obtain rfl := of_decide_eq_true ht
    exact (firstCall_stopTs h).2
  | member =>
    obtain rfl := of_decide_eq_true ht
    exact firstCall_mbrUntpc h
  | chargeAmt =>
    obtain rfl := of_decide_eq_true ht
    exact firstCall_chargeAmt h
  | qr =>
    apply decide_eq_true
    rcases of_decide_eq_true ht with rfl | rfl
    · show c.cs.bQrEventFlg ≠ 0
      rw [firstCall_q1 h]
      decide
    · show c.cs.bQrEventFlg ≠ 0
      rw [firstCall_q2 h]
      decide
  | cost =>
    obtain rfl := of_decide_eq_true ht
    apply decide_eq_true
    show c.bChargerCostCheck ≠ 0
    rw [firstCall_dataTransJ1 h]
    decide
  | cpSts =>
    obtain rfl := of_decide_eq_true ht
    exact h
  | diag =>
    obtain rfl := of_decide_eq_true ht
    exact decide_eq_true (lateCall_diagStat h)
  | trigger =>
    apply decide_eq_true
    show c.cs.triggerMsgStat ≠ .none
    intro hnone
    cases a with
    | trigDiag | trigFw | trigHb | trigMeter | trigStat =>
      have h : trigCall c.cs.triggerMsgStat = some _ := h
      rw [hnone] at h
      cases h
    | boot | meterVal | stat | dataTransJ1 | auth | mbrUntpc | startTs | stopTs | chargeAmt | q1
    | q2 | diagStat | fwStat | hb | cpSts => cases ht

theorem Client.make_trigger {s t : Client} {k : Clock} {a : Call} (h : s.make a k = some t)
    (ha : a.takesTrig = false) : t.cp.cs.triggerMsgStat = s.cp.cs.triggerMsgStat := by
  obtain ⟨tx, -, rfl⟩ := Option.map_eq_some_iff.mp h
  have htrig := congrArg Standing.triggerMsgStat (a.standing k s.cp)
  simp only [ha, Bool.false_eq_true, if_false] at htrig
  exact htrig

theorem Client.dropTrigBoot_trigger (s : Client) :
    s.dropTrigBoot.cp.cs.triggerMsgStat = s.cp.cs.triggerMsgStat ∨
      s.dropTrigBoot.cp.cs.triggerMsgStat = .none := by
  unfold dropTrigBoot
  split
  · exact .inr rfl
  · exact .inl rfl

theorem Client.senarioBooted_trigger {s t : Client} {k : Clock} {b : Option Call}
    (h : s.senarioBooted k = some (b, t)) (hb : ∀ a, b = some a → a.takesTrig = false) :
    t.cp.cs.triggerMsgStat = s.cp.cs.triggerMsgStat ∨ t.cp.cs.triggerMsgStat = .none := by
  have hdrop := s.dropTrigBoot_trigger
  unfold senarioBooted at h
  split at h
  · obtain ⟨_, hmake, heq⟩ := Option.map_eq_some_iff.mp h
    cases heq
    exact .inl (make_trigger hmake (hb _ rfl))
  · split at h
    · obtain ⟨_, hmake, heq⟩ := Option.map_eq_some_iff.mp h
      cases heq
      exact .inl (make_trigger hmake (hb _ rfl))
    · dsimp only at h
      split at h
      · obtain ⟨_, hmake, heq⟩ := Option.map_eq_some_iff.mp h
        cases heq
        rw [make_trigger hmake (hb _ rfl)]
        exact hdrop
      · obtain ⟨v, hv⟩ := s.dropTrigBoot.checkHbTime_eq k
        rw [hv] at h
        split at h
        · obtain ⟨_, htimed, heq⟩ := Option.map_eq_some_iff.mp h
          obtain ⟨u, hmake, rfl⟩ := Option.map_eq_some_iff.mp htimed
          cases heq
          have hu := make_trigger hmake rfl
          exact hu ▸ hdrop
        · split at h
          · obtain ⟨_, hmake, heq⟩ := Option.map_eq_some_iff.mp h
            cases heq
            have hu := make_trigger hmake rfl
            exact hu ▸ hdrop
          · cases h
            exact hdrop

/-- A tick that takes no trigger leaves it, or drops it. -/
theorem Client.senario_trigger {s t : Client} {k : Clock} {b : Option Call}
    (h : s.ocppCallSenario k = some (b, t)) (hb : ∀ a, b = some a → a.takesTrig = false) :
    t.cp.cs.triggerMsgStat = s.cp.cs.triggerMsgStat ∨ t.cp.cs.triggerMsgStat = .none := by
  unfold ocppCallSenario at h
  split at h
  · cases h
    refine .inl ?_
    unfold checkRespTime
    split
    · rfl
    · dsimp only
      split
      · rfl
      · rfl
  · split at h
    · dsimp only at h
      obtain ⟨v, hv⟩ := s.checkHbTime_eq k
      rw [hv] at h
      split at h
      · obtain ⟨_, htimed, heq⟩ := Option.map_eq_some_iff.mp h
        obtain ⟨u, hmake, rfl⟩ := Option.map_eq_some_iff.mp htimed
        cases heq
        have hu := make_trigger hmake rfl
        exact .inl hu
      · cases h
        exact .inl rfl
    · split at h
      · cases h
      · rename_i c hc
        obtain ⟨f, rfl⟩ := checkMeterTime_eq hc
        obtain ⟨_, hmake, heq⟩ := Option.map_eq_some_iff.mp h
        cases heq
        have hu := make_trigger hmake rfl
        exact .inl hu
      · rename_i c hc
        obtain ⟨f, rfl⟩ := checkMeterTime_eq hc
        have hbooted := senarioBooted_trigger h hb
        exact hbooted

/-! ### The accounts

The balance of an account is what was raised, less what was made, and the invariant is that the
flag is paid for by it: `made + held ≤ raised`. Each of the four things that can happen to the
flag, a branch, an answer, a request, a write of another thread, has a lemma that says when it
can be set afterwards and was not before. -/

namespace Req
variable {r : Req}

theorem countP_isMade (n : List Remark) (o : List Obs) :
    ((n.map .inl ++ o.map .inr : List Entry)).countP r.isMade =
      n.countP fun x => r.isMade (.inl x) := by
  have hobs : (o.map .inr : List Entry).countP r.isMade = 0 := by
    rw [List.countP_map]
    exact List.countP_eq_zero.mpr (by simp [isMade])
  rw [List.countP_append, hobs, List.countP_map]
  rfl

/-- A step that makes no CALL for the request: if it stands after the step, it stood before or was
raised. -/
theorem account_of_raised {l : List Entry} {c c' : Charger} (hmade : l.countP r.isMade = 0)
    (h : r.stands c'.standing = true → r.stands c.standing = true ∨ ∃ e ∈ l, r.isRaised e = true) :
    Trace.Account r.isMade r.isRaised (r.held c) (r.held c') l := by
  apply Trace.Account.of_earned hmade
  unfold held
  cases hnew : r.stands c'.standing with
  | false => simp
  | true =>
    rcases h hnew with hold | hraised
    · rw [hold]
      omega
    · have hpos := List.countP_pos_iff.mpr hraised
      have hone : true.toNat = 1 := rfl
      omega

/-- A step that takes a branch: it takes a request that stood, or lets it be. -/
theorem account_of_made {l : List Entry} {c c' : Charger} {a : Call}
    (hmade : l.countP r.isMade = (r.takes a).toNat)
    (hold : r.takes a = true → r.stands c.standing = true)
    (hnew : r.stands c'.standing = true → r.takes a = false ∧ r.stands c.standing = true) :
    Trace.Account r.isMade r.isRaised (r.held c) (r.held c') l := by
  apply Trace.Account.of_spent
  rw [hmade]
  unfold held
  cases ht : r.takes a with
  | true =>
    have hgone : r.stands c'.standing = false := by
      cases hs : r.stands c'.standing with
      | false => rfl
      | true => exact absurd ((hnew hs).1.symm.trans ht) (by simp)
    rw [hold ht, hgone]
    have hone : true.toNat = 1 := rfl
    have hzero : false.toNat = 0 := rfl
    omega
  | false =>
    cases hs : r.stands c'.standing with
    | false =>
      have hzero : false.toNat = 0 := rfl
      omega
    | true =>
      rw [(hnew hs).2]
      have hone : true.toNat = 1 := rfl
      have hzero : false.toNat = 0 := rfl
      omega

/-- What a branch leaves of the request. -/
theorem taken {a : Call} {k : Clock} {c : Charger} {f : Bool} {t : TrigMsgStat}
    (htrig : a.takesTrig = false → t = c.cs.triggerMsgStat ∨ t = .none)
    (h : r.stands (a.finish (a.prepare k (c.pulse f t))).standing = true) :
    r.takes a = false ∧ r.stands c.standing = true := by
  -- the request can only stand afterwards if this call is not the one that takes it
  rw [a.standing] at h
  cases r with
  | stop =>
    by_cases ha : a = .stopTs
    · simp [stands, ha] at h
    · exact ⟨decide_eq_false ha, by simpa [stands, Charger.standing, Charger.pulse, ha] using h⟩
  | member =>
    by_cases ha : a = .mbrUntpc
    · simp [stands, ha] at h
    · exact ⟨decide_eq_false ha, by simpa [stands, Charger.standing, Charger.pulse, ha] using h⟩
  | chargeAmt =>
    by_cases ha : a = .chargeAmt
    · simp [stands, ha] at h
    · exact ⟨decide_eq_false ha, by simpa [stands, Charger.standing, Charger.pulse, ha] using h⟩
  | qr =>
    by_cases ha : a = .q1 ∨ a = .q2
    · simp [stands, ha] at h
    · refine ⟨decide_eq_false ha, decide_eq_true ?_⟩
      simpa [stands, Charger.standing, Charger.pulse, ha] using h
  | cost =>
    by_cases ha : a = .dataTransJ1
    · simp [stands, ha] at h
    · refine ⟨decide_eq_false ha, decide_eq_true ?_⟩
      simpa [stands, Charger.standing, Charger.pulse, ha] using h
  | cpSts =>
    by_cases ha : a = .cpSts
    · simp [stands, ha] at h
    · exact ⟨decide_eq_false ha, by simpa [stands, Charger.standing, Charger.pulse, ha] using h⟩
  | diag =>
    by_cases ha : a = .diagStat
    · simp [stands, ha, diagStatUploading] at h
    · refine ⟨decide_eq_false ha, decide_eq_true ?_⟩
      simpa [stands, Charger.standing, Charger.pulse, ha] using h
  | trigger =>
    cases ha : a.takesTrig with
    | true => simp [stands, ha] at h
    | false =>
      refine ⟨ha, ?_⟩
      rcases htrig ha with rfl | rfl
      · exact decide_eq_true (by simpa [stands, Charger.standing, Charger.pulse, ha] using h)
      · simp [stands, Charger.pulse, ha] at h

/-- What an answer leaves of the request. -/
theorem answered {rx : RxBuf} {m : TxMsg} {a : CpReqAction} {c c' : Charger}
    (h : rxCallResDataProc rx m c = some c') (hact : rx.msg.actionCode = .cp a)
    (hnew : r.stands c'.standing = true) : r.stands c.standing = true ∨ r.raisedBy a = true := by
  rw [rxCallResDataProc_standing h hact] at hnew
  cases r with
  | stop =>
    by_cases ha : a = .stopTs
    · simp [stands, ha] at hnew
    · exact .inl (by simpa [stands, Charger.standing, ha] using hnew)
  | member =>
    by_cases ha : a = .auth
    · exact .inr (decide_eq_true ha)
    · exact .inl (by simpa [stands, Charger.standing, ha] using hnew)
  | chargeAmt =>
    by_cases ha : a = .stopTs
    · exact .inr (decide_eq_true ha)
    · exact .inl (by simpa [stands, Charger.standing, ha] using hnew)
  | cost =>
    by_cases ha : a = .boot
    · exact .inr (decide_eq_true ha)
    · by_cases hone : c.bChargerCostCheck = 1
      · exact .inl (decide_eq_true (by simp [Charger.standing, hone]))
      · exact .inl (decide_eq_true (by simpa [stands, Charger.standing, ha, hone] using hnew))
  | cpSts =>
    by_cases ha : a = .hb
    · exact .inr (decide_eq_true ha)
    · exact .inl (by simpa [stands, Charger.standing, ha] using hnew)
  | qr | diag | trigger => exact .inl hnew

/-- What a request of the central system leaves of the request. -/
theorem served {cmd : CsReqAction} {j : Junk} {rx : RxBuf} {c c' : Charger} {tx tx' : TxBuf}
    (h : rxCallDataProc cmd j rx c tx = some (c', tx')) (hnew : r.stands c'.standing = true) :
    r.stands c.standing = true ∨ r.servedBy cmd = true := by
  obtain ⟨hstand, hdiag⟩ := rxCallDataProc_standing h
  cases r with
  | stop | qr | cost | cpSts =>
    rw [hstand] at hnew
    cases hcopy : cmd.copies with
    | true =>
      rw [hcopy] at hnew
      exact .inl hnew
    | false =>
      rw [hcopy] at hnew
      exact .inl hnew
  | member | chargeAmt =>
    cases hcopy : cmd.copies with
    | true => exact .inr hcopy
    | false =>
      rw [hstand, hcopy] at hnew
      exact .inl hnew
  | diag =>
    cases hcopy : cmd.copies with
    | true =>
      -- only these two handlers copy a text over the step of the upload
      cases cmd with
      | unlockConnect => exact .inr rfl
      | getDiag =>
        rcases hdiag rfl with hstep | hstep
        · refine .inl (decide_eq_true ?_)
          have hle := of_decide_eq_true hnew
          exact hle.trans_eq hstep
        · have hle : diagStatUploading ≤ c'.cs.diagLogReqStep := of_decide_eq_true hnew
          -- the step that GetDiagnostics itself sets is below that of a request
          rw [hstep] at hle
          exact absurd hle (by decide)
      | changeAvail | changeConfig | dataTransfer | getConfig | remoteStart | remoteStop | reset
      | triggerMsg | updateFw | clearCache | clearChargProf | getLocalVer | sndLocalList | none
      | cancelReseve | getCompositSched | reserve | setChgProfile => cases hcopy
    | false =>
      rw [hstand, hcopy] at hnew
      exact .inl hnew
  | trigger =>
    by_cases htrig : cmd = .triggerMsg
    · exact .inr (decide_eq_true htrig)
    · rw [hstand] at hnew
      cases hcopy : cmd.copies with
      | true =>
        exact .inl (decide_eq_true (by
          simpa [stands, Charger.standing, htrig, hcopy, Standing.copied] using hnew))
      | false =>
        exact .inl (decide_eq_true (by simpa [stands, Charger.standing, htrig, hcopy] using hnew))

/-- What another thread leaves of the request. -/
theorem written {w : EnvWrite} {c c' : Charger} {o : List Obs} (h : w.apply c = some (c', o))
    (hnew : r.stands c'.standing = true) :
    r.stands c.standing = true ∨
      ∃ e ∈ (.inl (.wrote w) :: o.map .inr : List Entry), r.isRaised e = true := by
  cases w with
  | reqStopTs =>
    cases h
    cases r with
    | stop => exact .inr ⟨.inr .stopRaised, by simp, rfl⟩
    | member | chargeAmt | qr | cost | cpSts | diag | trigger => exact .inl hnew
  | qrEvent n s =>
    cases h
    cases r with
    | qr => exact .inr ⟨.inl (.wrote (.qrEvent n s)), by simp, rfl⟩
    | stop | member | chargeAmt | cost | cpSts | diag | trigger => exact .inl hnew
  | diagLogReqStep n =>
    cases h
    cases r with
    | diag => exact .inr ⟨.inl (.wrote (.diagLogReqStep n)), by simp, rfl⟩
    | stop | member | chargeAmt | qr | cost | cpSts | trigger => exact .inl hnew
  | setCpStatus code ch =>
    obtain ⟨i, -, heq⟩ := Option.map_eq_some_iff.mp h
    cases heq
    cases r with
    | stop | member | chargeAmt | qr | cost | cpSts | diag | trigger => exact .inl hnew
  | scene | reqStartTs | reqAuth | scndCardNo | clearParentId | rmtStart | rmtStop | updateStep
  | chargingStatus | devChannel | stopTsConfig =>
    cases h
    exact .inl hnew

end Req

/-- The trigger a branch finds is the one that stood, or none. -/
theorem Client.pulse_trigger {s u : Client} {k : Clock} {a : Call} {f : Bool} {t : TrigMsgStat}
    (hsen : s.ocppCallSenario k = some (some a, u))
    (hcp : a.finish (a.prepare k (s.cp.pulse f t)) = u.cp) (ha : a.takesTrig = false) :
    t = s.cp.cs.triggerMsgStat ∨ t = .none := by
  have htrig := senario_trigger hsen (fun b hb => Option.some.inj hb ▸ ha)
  rw [← hcp] at htrig
  have hkeep := congrArg Standing.triggerMsgStat (a.standing k (s.cp.pulse f t))
  simp only [ha, Bool.false_eq_true, if_false] at hkeep
  have hkeep : (a.finish (a.prepare k (s.cp.pulse f t))).cs.triggerMsgStat = t := hkeep
  rw [hkeep] at htrig
  exact htrig

/-- A tick that builds a CALL, whether it is sent or lost. -/
theorem Client.account_made {s u : Client} {k : Clock} {a : Call} {f : Bool} {t : TrigMsgStat}
    {o : List Obs} (r : Req) (hsen : s.ocppCallSenario k = some (some a, u))
    (hcp : a.finish (a.prepare k (s.cp.pulse f t)) = u.cp) :
    Trace.Account r.isMade r.isRaised (r.held s.cp)
      (r.held (a.finish (a.prepare k (s.cp.pulse f t))))
      ([Remark.ticked k, .made a].map .inl ++ o.map .inr) := by
  have hmade : [Remark.ticked k, .made a].countP (fun x => r.isMade (.inl x)) =
      (r.takes a).toNat := by
    cases ht : r.takes a with
    | true => simp [Req.isMade, ht]
    | false => simp [Req.isMade, ht]
  refine Req.account_of_made ((Req.countP_isMade _ _).trans hmade) (Req.due (senario_due hsen)) ?_
  exact Req.taken (pulse_trigger hsen hcp)

/-- **One event keeps every account.** -/
theorem Client.Noted.account {s s' : Client} {n : List Remark} {o : List Obs} (r : Req)
    (h : s.Noted s' n o) : Trace.Account r.isMade r.isRaised (r.held s.cp) (r.held s'.cp)
      (n.map .inl ++ o.map .inr) := by
  cases h with
  | quiet f rx b hb hs hn ho =>
    subst hs hn ho
    exact Req.account_of_raised rfl fun h => .inl h
  | raised k hreq hs hn ho =>
    subst hs hn ho
    exact Req.account_of_raised rfl fun h => .inl h
  | sampled k f ty hn hs ho =>
    subst hs hn ho
    exact Req.account_of_raised rfl fun h => .inl h
  | connected hc hs hn ho =>
    subst hs hn ho
    exact Req.account_of_raised rfl fun h => .inl h
  | idle k f t v w hc hsen hs hn ho =>
    subst hn ho
    refine Req.account_of_raised rfl fun h => .inl ?_
    have htrig := senario_trigger hsen (by simp)
    subst hs
    have hleft : r.takes .hb = false := by cases r <;> rfl
    exact (Req.taken (a := .hb) (k := k) (f := f) (fun _ => htrig) h).2
  | gaveUp k w hc hw hsen hs hn ho =>
    subst hs hn ho
    exact Req.account_of_raised rfl fun h => .inl h
  | failed k a f t tx d v hc hw hsen hg hb hs hn ho =>
    obtain ⟨u, hsen, -, hcp⟩ := hsen
    subst hn hs
    exact account_made r hsen hcp
  | called k a f t tx d v hc hw hsen hg hb hs hn ho =>
    obtain ⟨u, hsen, -, hcp⟩ := hsen
    subst hn hs
    exact account_made r hsen hcp
  | dropped rx d b hc hs hn ho =>
    subst hs hn ho
    exact Req.account_of_raised rfl fun h => .inl h
  | answered frame rx d c hc hw hact hid hproc hs hn ho =>
    subst hs hn ho
    refine Req.account_of_raised rfl fun h => ?_
    rcases Req.answered hproc hact h with hold | hraised
    · exact .inl hold
    · exact .inr ⟨_, List.mem_singleton_self _, by simpa [Req.isRaised, hact] using hraised⟩
  | served frame rx rx' d b cmd j c tx tx' sent hc hcmd hproc hs hsent hgate hn ho =>
    subst hs hn ho
    refine Req.account_of_raised (Req.countP_isMade _ _) fun h => ?_
    rcases Req.served hproc h with hold | hraised
    · exact .inl hold
    · exact .inr ⟨_, List.mem_cons_self, by simpa [Req.isRaised, hcmd] using hraised⟩
  | env w c hw hs hn =>
    subst hs hn
    exact Req.account_of_raised (Req.countP_isMade _ _) fun h => Req.written hw h

/-! ## The runs -/

/-- An account of the client. -/
theorem Journaled.account {s : Client} {log : List Entry} {spent earned : Entry → Bool}
    (held : Client → Nat) (h : Journaled s log) (h₀ : ∀ st now, held (Client.init st now) = 0)
    (keep : ∀ {s s' n o}, s.Noted s' n o →
      Trace.Account spent earned (held s) (held s') (n.map .inl ++ o.map .inr)) :
    ∀ l l', log = l ++ l' → l.countP spent ≤ l.countP earned := by
  obtain ⟨st, now, hrun⟩ := h
  refine (Trace.Reach.account hrun (h₀ st now) ?_).2
  intro s log e s' o hpast hstep
  obtain ⟨n, o, rfl, hnoted⟩ := journal_cases hstep
  exact keep hnoted

theorem Req.held_init (r : Req) (st : UInt32) (now : Nat) : r.held (Client.init st now).cp = 0 := by
  cases r <;> rfl

/-- **Nothing is asked for twice.** At every point of every journal, no more CALLs were built for
a request than it was raised before. -/
theorem made_le_raised {s : Client} {log : List Entry} (h : Journaled s log) (r : Req) :
    ∀ l l', log = l ++ l' → l.countP r.isMade ≤ l.countP r.isRaised := by
  apply Journaled.account (fun s => r.held s.cp) h r.held_init
  intro s s' n o hnoted
  exact hnoted.account r

/-- A stop is requested, and its StopTransaction is lost with the connection. -/
def stopRun : List Event :=
  bootedRun ++ [.env .reqStopTs, .netRun (.reading 14 5) false true,
    .netRun (.reading 15 6) true true, .netRun (.reading 16 7) true true]

set_option maxRecDepth 20000 in
theorem made_le_raised_stopped : ∃ s log, Journaled s log ∧
    0 < log.countP Req.stop.isMade ∧ log.countP Req.stop.isMade ≤ log.countP Req.stop.isRaised := by
  have hrun : (Trace.exec journal (fun _ _ _ => true) (Client.init 3 0) [] stopRun).any
      (fun r => decide (0 < r.2.countP Req.stop.isMade)) = true := by decide +kernel
  obtain ⟨s, log, h, hp⟩ := exists_journaled_of_exec
    (p := fun _ log => decide (0 < log.countP Req.stop.isMade)) hrun
  have hle := made_le_raised h .stop log [] (List.append_nil log).symm
  exact ⟨s, log, h, of_decide_eq_true hp, hle⟩

/-! ## A session's end

The question for the amount is raised by the answer to a StopTransaction, and an answer is the
answer to a CALL of its own (`stopOut`). So the amounts are at most the StopTransactions, and
these are at most the stops. -/

/-- A StopTransaction was answered. -/
def stopAnswered : Entry → Bool
  | .inr (.answered _ rx _ _) => rx.actionCode = .cp .stopTs
  | _ => false

/-- A request was served that copies a text over the flags. -/
def copyServed : Entry → Bool
  | .inr (.served _ rx) => match rx.actionCode with
    | .cs cmd => cmd.copies
    | .cp _ => false
  | _ => false

/-- The StopTransaction that is waited for. -/
def Client.stopOut (s : Client) : Nat :=
  (s.bWaitResFlg && s.callTxMsg.actionCode = .stopTs).toNat

theorem Client.stopOut_le (s : Client) : s.stopOut ≤ 1 := Bool.toNat_le _

theorem countP_stopAnswered (n : List Remark) (o : List Obs) :
    (n.map .inl ++ o.map .inr : List Entry).countP stopAnswered =
      o.countP fun x => stopAnswered (.inr x) := by
  have hnotes : (n.map .inl : List Entry).countP stopAnswered = 0 := by
    rw [List.countP_map]
    exact List.countP_eq_zero.mpr (by simp [stopAnswered])
  rw [List.countP_append, hnotes, List.countP_map, Nat.zero_add]
  rfl

/-- A tick that builds a CALL dispatches no answer. -/
theorem Call.samples_stopAnswered (a : Call) (k : Clock) (c : Charger) {o : List Obs}
    (ho : ∀ ob ∈ o, stopAnswered (.inr ob) = false) :
    (a.samples k c ++ o).countP (fun x => stopAnswered (.inr x)) = 0 := by
  apply List.countP_eq_zero.mpr
  intro ob hob
  rcases List.mem_append.mp hob with hs | hs
  · obtain ⟨d, ty, k', rfl⟩ := Call.samples_eq hs
    simp [stopAnswered]
  · simpa using ho ob hs

/-- **An answer is the answer to a CALL of its own.** -/
theorem Client.Noted.stopOut {s s' : Client} {n : List Remark} {o : List Obs} (h : s.Noted s' n o) :
    Trace.Account stopAnswered Req.stop.isMade s.stopOut s'.stopOut
      (n.map .inl ++ o.map .inr) := by
  -- a StopTransaction is out from its CALL to its answer, a timeout or a lost connection
  cases h with
  | quiet f rx b hb hs hn ho =>
    subst hs hn ho
    exact .of_earned rfl (Nat.le_add_left _ _)
  | raised k hreq hs hn ho =>
    subst hs hn ho
    exact .of_earned rfl (Nat.le_add_left _ _)
  | sampled k f ty hn hs ho =>
    subst hs hn ho
    exact .of_earned rfl (Nat.le_add_left _ _)
  | connected hc hs hn ho =>
    subst hs hn ho
    exact .of_earned rfl (Nat.zero_le _)
  | idle k f t v w hc hsen hs hn ho =>
    subst hs hn ho
    exact .of_earned rfl (Nat.le_add_left _ _)
  | gaveUp k w hc hw hsen hs hn ho =>
    subst hs hn ho
    exact .of_earned rfl (Nat.zero_le _)
  | failed k a f t tx d v hc hw hsen hg hb hs hn ho =>
    subst hs hn ho
    have hans := a.samples_stopAnswered k s.cp (o := []) (by simp)
    rw [List.append_nil] at hans
    refine .of_earned ((countP_stopAnswered _ _).trans hans) ?_
    unfold Client.stopOut
    rw [hw]
    exact Nat.zero_le _
  | called k a f t tx d v hc hw hsen hg hb hs hn ho =>
    have hact : (afterMakeOcppMsg tx).msg.actionCode = a.action :=
      (afterMakeOcppMsg_header tx).2.1.trans (Call.build_header hb).2
    subst hs hn ho
    have hans := a.samples_stopAnswered k s.cp
      (o := [.sent (makeOcppMsg tx s.rx.msg.uniqueIdChar) (afterMakeOcppMsg tx).msg
        (a.finish (a.prepare k (s.cp.pulse f t)))]) (by simp [stopAnswered])
    refine .of_earned ((countP_stopAnswered _ _).trans hans) ?_
    rw [Req.countP_isMade]
    by_cases hstop : a = .stopTs
    · subst hstop
      have hone : [Remark.ticked k, .made .stopTs].countP (fun x => Req.stop.isMade (.inl x)) = 1 :=
        rfl
      rw [hone]
      exact (Client.stopOut_le _).trans (Nat.le_add_right _ _)
    · have hnot : (afterMakeOcppMsg tx).msg.actionCode ≠ .stopTs := by
        rw [hact]
        exact fun h => hstop (Call.action_stopTs h)
      simp [Client.stopOut, hnot]
  | dropped rx d b hc hs hn ho =>
    subst hs hn ho
    exact .of_earned rfl (Nat.le_add_left _ _)
  | answered frame rx d c hc hw hact hid hproc hs hn ho =>
    subst hs hn ho
    -- the answer ends it, and is what the next request is counted against
    by_cases hstop : s.callTxMsg.actionCode = .stopTs
    · have hout : s.stopOut = 1 := by
        unfold Client.stopOut
        rw [hw, decide_eq_true hstop]
        rfl
      apply Trace.Account.of_spent
      rw [hout]
      simp [stopAnswered, hact, hstop, Client.stopOut]
    · have hans : stopAnswered (.inr (.answered frame rx.msg s.callTxMsg s.cp)) = false := by
        simp [stopAnswered, hact, hstop]
      exact .of_earned (by simp [hans]) (Nat.zero_le _)
  | served frame rx rx' d b cmd j c tx tx' sent hc hcmd hproc hs hsent hgate hn ho =>
    subst hs hn ho
    have hans : (Obs.served frame rx.msg :: sent).countP (fun x => stopAnswered (.inr x)) = 0 := by
      apply List.countP_eq_zero.mpr
      intro ob hob
      rcases List.mem_cons.mp hob with rfl | hob
      · simp [stopAnswered]
      · obtain ⟨f, m, rfl, -⟩ := hsent ob hob
        simp [stopAnswered]
    exact .of_earned ((countP_stopAnswered _ _).trans hans) (Nat.le_add_left _ _)
  | env w c hw hs hn =>
    subst hs hn
    have hobs : o = [] ∨ o = [.stopRaised] := EnvWrite.apply_obs hw
    rcases hobs with rfl | rfl
    · exact .of_earned rfl (Nat.le_add_left _ _)
    · exact .of_earned rfl (Nat.le_add_left _ _)

/-- What raises the question for the amount. -/
theorem countP_chargeAmt_isRaised (l : List Entry) :
    l.countP Req.chargeAmt.isRaised ≤ l.countP stopAnswered + l.countP copyServed := by
  induction l with
  | nil => exact Nat.le_refl _
  | cons e l ih =>
    have hone : Req.chargeAmt.isRaised e = true → stopAnswered e = true ∨ copyServed e = true := by
      intro h
      cases e with
      | inl n =>
        cases n with
        | wrote w => cases w <;> cases h
        | ticked | made | gaveUp | connected => cases h
      | inr ob =>
        cases ob with
        | answered frame rx m c =>
          refine .inl ?_
          cases hact : rx.actionCode with
          | cp a =>
            simp only [Req.isRaised, hact] at h
            obtain rfl := of_decide_eq_true h
            simp [stopAnswered, hact]
          | cs cmd =>
            simp only [Req.isRaised, hact] at h
            cases h
        | served frame rx =>
          refine .inr ?_
          cases hact : rx.actionCode with
          | cp a =>
            simp only [Req.isRaised, hact] at h
            cases h
          | cs cmd =>
            simp only [Req.isRaised, hact] at h
            have h : cmd.copies = true := h
            simpa [copyServed, hact] using h
        | sent | sampled | startRaised => cases h
        | stopRaised => cases h
    rw [List.countP_cons, List.countP_cons, List.countP_cons]
    cases hr : Req.chargeAmt.isRaised e with
    | false =>
      simp only [Bool.false_eq_true, if_false]
      omega
    | true =>
      rcases hone hr with h | h
      · rw [h]
        simp only [if_true]
        omega
      · rw [h]
        simp only [if_true]
        omega

/-- **What a session's end asks for.** At every point of every journal, the amount was asked for
at most once for each stop requested before, and for each request served whose handler copies a
text over the flags. -/
theorem amounts_le_stops {s : Client} {log : List Entry} (h : Journaled s log) :
    ∀ l l', log = l ++ l' →
      l.countP Req.chargeAmt.isMade ≤ l.countP Req.stop.isRaised + l.countP copyServed := by
  intro l l' hl
  have hamt := Journaled.account (fun s => Req.chargeAmt.held s.cp) h Req.chargeAmt.held_init
    (Client.Noted.account .chargeAmt) l l' hl
  have hans := Journaled.account Client.stopOut h (fun _ _ => rfl) Client.Noted.stopOut l l' hl
  have hstop := Journaled.account (fun s => Req.stop.held s.cp) h Req.stop.held_init
    (Client.Noted.account .stop) l l' hl
  have hsplit := countP_chargeAmt_isRaised l
  omega

/-- A session's end, to the question for the amount. -/
def amountRun : List Event :=
  bootedRun ++ [.env .reqStopTs, .netRun (.reading 14 5) true true, arrives "[3,\"5\",\x7b\x7d]",
    .netRun (.reading 15 6) true true]

set_option maxRecDepth 20000 in
theorem amounts_le_stops_asked : ∃ s log, Journaled s log ∧
    0 < log.countP Req.chargeAmt.isMade ∧
    log.countP Req.chargeAmt.isMade ≤ log.countP Req.stop.isRaised + log.countP copyServed := by
  have hrun : (Trace.exec journal (fun _ _ _ => true) (Client.init 3 0) [] amountRun).any
      (fun r => decide (0 < r.2.countP Req.chargeAmt.isMade)) = true := by decide +kernel
  obtain ⟨s, log, h, hp⟩ := exists_journaled_of_exec
    (p := fun _ log => decide (0 < log.countP Req.chargeAmt.isMade)) hrun
  have hle := amounts_le_stops h log [] (List.append_nil log).symm
  exact ⟨s, log, h, of_decide_eq_true hp, hle⟩

end ChargePoint
