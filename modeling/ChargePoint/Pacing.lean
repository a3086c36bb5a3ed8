import ChargePoint.Journal
import ChargePoint.StopRequest

/-!
# What the clock decides

Two clocks pace the client. `tv_1` is set when a BootNotification or a Heartbeat is built, and
neither is built again within the heartbeat interval. A Heartbeat that a TriggerMessage asks for is
not among them: it is built at once, and leaves `tv_1` alone. `tv_res` is set when a CALL is sent,
and the CALL is given up by the first tick that reads the clock at least the timeout later.

Both checks answer a clock that went back by starting over, so both say something about time only
while the clock does not go back: `Timed` is a run of such a clock.
-/

set_option autoImplicit false

namespace ChargePoint

open CStr

/-! ## The readings -/

/-- The readings a journal shows. -/
structure Times where
  /-- the last reading -/
  read : Nat
  /-- the readings of the last tick: after a paced CALL was built, and after a send -/
  reset : Nat
  sent : Nat
  /-- when the last BootNotification or Heartbeat was built -/
  paced : Nat
  /-- when the last CALL was sent -/
  called : Nat

/-- The CALLs `Check_HB_Time` paces. -/
def Call.isPaced : Call → Bool
  | .boot | .hb => true
  | _ => false

def Times.next (t : Times) : Entry → Times
  | .inl (.ticked k) => { t with read := k.secSent, reset := k.secReset, sent := k.secSent }
  | .inl (.made a) => { t with paced := if a.isPaced then t.reset else t.paced, called := t.sent }
  | _ => t

/-- The readings, from the start of the client. -/
def times (now : Nat) (log : List Entry) : Times := log.foldl Times.next ⟨now, now, now, now, now⟩

theorem times_append (now : Nat) (log l : List Entry) :
    times now (log ++ l) = l.foldl Times.next (times now log) := List.foldl_append

/-- An observation is no reading. -/
theorem foldl_next_obs (t : Times) (o : List Obs) :
    (o.map .inr : List Entry).foldl Times.next t = t := by
  induction o with
  | nil => rfl
  | cons ob o ih => exact ih

theorem times_entry (now : Nat) (log : List Entry) (n : List Remark) (o : List Obs) :
    times now (log ++ (n.map .inl ++ o.map .inr)) =
      (n.map .inl : List Entry).foldl Times.next (times now log) := by
  rw [times_append, List.foldl_append, foldl_next_obs]

/-- The clock of a tick does not go back. -/
def Steady (now : Nat) (log : List Entry) : Event → Prop
  | .netRun k _ _ =>
    (times now log).read ≤ k.sec ∧ k.sec ≤ k.secReset ∧ k.secReset ≤ k.secSent
  | _ => True

instance (now : Nat) (log : List Entry) (e : Event) : Decidable (Steady now log e) := by
  unfold Steady
  split
  · infer_instance
  · infer_instance

/-- **A run whose clock never goes back**, with its journal. -/
def Timed (now : Nat) (s : Client) (log : List Entry) : Prop :=
  ∃ chargingStatus, Trace.Reach journal (fun _ log e => Steady now log e)
    (Client.init chargingStatus now) s log

/-! ## One tick

`Check_HB_Time` and `Check_Resp_Time` compare a difference with a number of the configuration and
start over if the difference is negative. On a clock that does not go back that branch is dead,
and what remains is a comparison. -/

/-- `CfgKeyVal[5]`, the heartbeat interval. -/
def Client.hbInterval (s : Client) : Nat := (s.cp.cfgKey 5).cfgKeyDataInt.toNat

/-- `CfgKeyVal[18]`, the time an answer is waited for. -/
def Client.respTimeout (s : Client) : Nat := (s.cp.cfgKey 18).cfgKeyDataInt.toNat

theorem Client.checkHbTime_steady {s : Client} {k : Clock} (h : s.tv1 ≤ k.sec) :
    s.checkHbTime k = (decide (s.hbInterval ≤ k.sec - s.tv1), s) := by
  unfold checkHbTime
  rw [if_neg (Nat.not_lt.mpr h)]
  rfl

theorem Client.checkRespTime_steady {s : Client} {k : Clock} (h : s.tvRes ≤ k.sec) :
    s.checkRespTime k = (decide (s.respTimeout ≤ k.sec - s.tvRes), s) := by
  unfold checkRespTime
  rw [if_neg (Nat.not_lt.mpr h)]
  rfl

theorem Client.make_tv1 {s t : Client} {k : Clock} {a : Call} (h : s.make a k = some t) :
    t.tv1 = s.tv1 := by
  obtain ⟨tx, -, rfl⟩ := Option.map_eq_some_iff.mp h
  rfl

/-- **What a tick makes of `tv_1`**: a paced CALL was due, and sets it; nothing else moves it. -/
structure Client.Paced (s t : Client) (k : Clock) (b : Option Call) : Prop where
  tv1 : t.tv1 = if b.any Call.isPaced then k.secReset else s.tv1
  due : b.any Call.isPaced = true → s.tv1 + s.hbInterval ≤ k.sec

theorem Client.Paced.made {s t : Client} {k : Clock} {a : Call} (ha : a.isPaced = false)
    (h : t.tv1 = s.tv1) : s.Paced t k (some a) := by
  constructor
  · simp only [Option.any_some, ha, Bool.false_eq_true, if_false]
    exact h
  · intro hp
    rw [Option.any_some, ha] at hp
    cases hp

theorem firstCall_unpaced {c : Charger} {a : Call} (h : firstCall c = some a) :
    a.isPaced = false := by
  have hfirst := firstCall_isFirst h
  cases a with
  | boot | hb => cases hfirst
  | meterVal | stat | dataTransJ1 | auth | mbrUntpc | startTs | stopTs | chargeAmt | q1 | q2
  | trigDiag | trigFw | trigHb | trigMeter | trigStat | diagStat | fwStat | cpSts => rfl

theorem trigCall_unpaced {t : TrigMsgStat} {a : Call} (h : trigCall t = some a) :
    a.isPaced = false := by
  cases t with
  | diag | fw | hb | meter | stat =>
    cases h
    rfl
  | boot | none => cases h

theorem lateCall_unpaced {c : Charger} {a : Call} (h : lateCall c = some a) :
    a.isPaced = false := by
  unfold lateCall at h
  split at h
  · cases h
    rfl
  · split at h
    all_goals first
      | (cases h; rfl)
      | cases h

theorem Client.senarioBooted_paced {s t : Client} {k : Clock} {b : Option Call}
    (h : s.senarioBooted k = some (b, t)) (hsec : s.tv1 ≤ k.sec) : s.Paced t k b := by
  unfold senarioBooted at h
  split at h
  · rename_i a ha
    obtain ⟨_, hmake, heq⟩ := Option.map_eq_some_iff.mp h
    cases heq
    exact .made (firstCall_unpaced ha) (make_tv1 hmake)
  · split at h
    · rename_i a ha
      obtain ⟨_, hmake, heq⟩ := Option.map_eq_some_iff.mp h
      cases heq
      exact .made (trigCall_unpaced ha) (make_tv1 hmake)
    · obtain ⟨tr, hdrop⟩ := s.dropTrigBoot_eq
      dsimp only at h
      rw [hdrop] at h
      split at h
      · rename_i a ha
        obtain ⟨_, hmake, heq⟩ := Option.map_eq_some_iff.mp h
        cases heq
        have htv := make_tv1 hmake
        exact .made (lateCall_unpaced ha) htv
      · have hcheck := checkHbTime_steady (s := s.at (s.cp.pulse s.cp.checkMeterFlg tr) s.tv1) hsec
        rw [hcheck] at h
        split at h
        · rename_i hdue
          obtain ⟨_, htimed, heq⟩ := Option.map_eq_some_iff.mp h
          obtain ⟨u, -, rfl⟩ := Option.map_eq_some_iff.mp htimed
          cases heq
          refine ⟨rfl, fun _ => ?_⟩
          have hle : s.hbInterval ≤ k.sec - s.tv1 := of_decide_eq_true hdue
          omega
        · split at h
          · obtain ⟨_, hmake, heq⟩ := Option.map_eq_some_iff.mp h
            cases heq
            have htv := make_tv1 hmake
            exact .made rfl htv
          · cases h
            exact ⟨rfl, nofun⟩

theorem Client.senario_paced {s t : Client} {k : Clock} {b : Option Call}
    (h : s.ocppCallSenario k = some (b, t)) (hsec : s.tv1 ≤ k.sec) : s.Paced t k b := by
  unfold ocppCallSenario at h
  split at h
  · cases h
    refine ⟨?_, nofun⟩
    obtain ⟨w, hresp⟩ := s.checkRespTime_eq k
    dsimp only
    rw [hresp]
    split
    · rfl
    · rfl
  · split at h
    · dsimp only at h
      rw [checkHbTime_steady hsec] at h
      split at h
      · rename_i hdue
        obtain ⟨_, htimed, heq⟩ := Option.map_eq_some_iff.mp h
        obtain ⟨u, -, rfl⟩ := Option.map_eq_some_iff.mp htimed
        cases heq
        refine ⟨rfl, fun _ => ?_⟩
        have hle : s.hbInterval ≤ k.sec - s.tv1 := of_decide_eq_true hdue
        omega
      · cases h
        exact ⟨rfl, nofun⟩
    · split at h
      · cases h
      · rename_i c hc
        obtain ⟨f, rfl⟩ := checkMeterTime_eq hc
        obtain ⟨_, hmake, heq⟩ := Option.map_eq_some_iff.mp h
        cases heq
        have htv := make_tv1 hmake
        exact .made rfl htv
      · rename_i c hc
        obtain ⟨f, rfl⟩ := checkMeterTime_eq hc
        have hbooted := senarioBooted_paced h hsec
        exact ⟨hbooted.tv1, hbooted.due⟩

/-- A tick that waits for an answer does nothing but wait, or gives up. -/
theorem Client.senario_waits {s : Client} {k : Clock} (hw : s.bWaitResFlg = true)
    (hsec : s.tvRes ≤ k.sec) :
    s.ocppCallSenario k = some (none, if s.respTimeout ≤ k.sec - s.tvRes then
      { s with bConnect := false, bWaitResFlg := false } else s) := by
  rw [senario_waiting k hw, checkRespTime_steady hsec]
  simp only [decide_eq_true_eq]

/-! ## The two clocks

`Times` reads off the journal when the last paced CALL was built, when the last CALL was sent and
when the clock was read last; the invariant says that `tv_1` and `tv_res` are these, and not
ahead of the clock. -/

/-- **What the clocks stand at** in a timed run. -/
structure Clocks (now : Nat) (s : Client) (log : List Entry) : Prop where
  tv1 : s.tv1 = (times now log).paced
  tvRes : s.bWaitResFlg = true → s.tvRes = (times now log).called
  paced : (times now log).paced ≤ (times now log).read
  called : (times now log).called ≤ (times now log).read

theorem Clocks.kept {now : Nat} {s s' : Client} {log : List Entry} {n : List Remark} {o : List Obs}
    (hi : Clocks now s log)
    (hn : (n.map .inl : List Entry).foldl Times.next (times now log) = times now log)
    (htv : s'.tv1 = s.tv1)
    (hres : s'.bWaitResFlg = true → s.bWaitResFlg = true ∧ s'.tvRes = s.tvRes) :
    Clocks now s' (log ++ (n.map .inl ++ o.map .inr)) := by
  have heq := (times_entry now log n o).trans hn
  constructor
  · rw [heq, htv]
    exact hi.tv1
  · intro hw
    rw [heq, (hres hw).2]
    exact hi.tvRes (hres hw).1
  · rw [heq]
    exact hi.paced
  · rw [heq]
    exact hi.called

/-- A tick that builds no CALL. -/
theorem Clocks.ticked {now : Nat} {s s' : Client} {log : List Entry} {k : Clock} {n : List Remark}
    {o : List Obs} (hi : Clocks now s log) (hk : (times now log).read ≤ k.secSent)
    (hn : n = [.ticked k] ∨ n = [.ticked k, .gaveUp]) (htv : s'.tv1 = s.tv1)
    (hres : s'.bWaitResFlg = true → s.bWaitResFlg = true ∧ s'.tvRes = s.tvRes) :
    Clocks now s' (log ++ (n.map .inl ++ o.map .inr)) := by
  have heq : times now (log ++ (n.map .inl ++ o.map .inr)) =
      (times now log).next (.inl (.ticked k)) := by
    rw [times_entry]
    rcases hn with rfl | rfl
    · rfl
    · rfl
  constructor
  · rw [heq, htv]
    exact hi.tv1
  · intro hw
    rw [heq, (hres hw).2]
    exact hi.tvRes (hres hw).1
  · rw [heq]
    exact hi.paced.trans hk
  · rw [heq]
    exact hi.called.trans hk

/-- A tick that builds one. -/
theorem Clocks.made {now : Nat} {s s' t : Client} {log : List Entry} {k : Clock} {a : Call}
    {o : List Obs} (hi : Clocks now s log) (hk : Steady now log (.netRun k true true))
    (hp : s.Paced t k (some a)) (htv : s'.tv1 = t.tv1)
    (hres : s'.bWaitResFlg = true → s'.tvRes = k.secSent) :
    Clocks now s' (log ++ ([Remark.ticked k, .made a].map .inl ++ o.map .inr)) := by
  obtain ⟨hread, hreset, hsent⟩ := hk
  have heq : times now (log ++ ([Remark.ticked k, .made a].map .inl ++ o.map .inr)) =
      ((times now log).next (.inl (.ticked k))).next (.inl (.made a)) := times_entry _ _ _ _
  have hold := hi.paced
  constructor
  · rw [heq, htv, hp.tv1, Option.any_some, hi.tv1]
    rfl
  · intro hw
    rw [heq]
    exact hres hw
  · rw [heq]
    show (if a.isPaced then k.secReset else (times now log).paced) ≤ k.secSent
    split
    · exact hsent
    · omega
  · rw [heq]
    exact Nat.le_refl _

theorem Client.Noted.clocks {now : Nat} {s s' : Client} {log : List Entry} {n : List Remark}
    {o : List Obs} (h : s.Noted s' n o) (hi : Clocks now s log)
    (hok : ∀ k, .ticked k ∈ n → Steady now log (.netRun k true true)) :
    Clocks now s' (log ++ (n.map .inl ++ o.map .inr)) := by
  -- the stamps move in a tick only, and each with the reading it is a copy of
  cases h with
  | quiet f rx b hb hs hn ho =>
    subst hs hn
    exact hi.kept rfl rfl fun hw => ⟨hw, rfl⟩
  | raised k hreq hs hn ho =>
    subst hs hn
    exact hi.kept rfl rfl fun hw => ⟨hw, rfl⟩
  | sampled k f ty hn hs ho =>
    subst hs hn
    exact hi.kept rfl rfl fun hw => ⟨hw, rfl⟩
  | connected hc hs hn ho =>
    subst hs hn
    exact hi.kept rfl rfl nofun
  | idle k f t v w hc hsen hs hn ho =>
    obtain ⟨hread, hreset, hsent⟩ := hok k (by rw [hn]; exact List.mem_cons_self)
    have hsec : s.tv1 ≤ k.sec := by
      rw [hi.tv1]
      exact hi.paced.trans hread
    refine hi.ticked (by omega) (.inl hn) (Client.senario_paced hsen hsec).tv1 fun hw => ?_
    have hw : s.bWaitResFlg = true := by
      rw [hs] at hw
      exact hw
    refine ⟨hw, ?_⟩
    have hres : s.tvRes ≤ k.sec := by
      rw [hi.tvRes hw]
      exact hi.called.trans hread
    rw [Client.senario_waits hw hres] at hsen
    obtain ⟨-, hsen⟩ := Prod.mk.inj (Option.some.inj hsen)
    rw [← hsen]
    split
    · rfl
    · rfl
  | gaveUp k w hc hw hsen hs hn ho =>
    obtain ⟨hread, hreset, hsent⟩ := hok k (by rw [hn]; exact List.mem_cons_self)
    subst hs
    exact hi.ticked (by omega) (.inr hn) rfl nofun
  | failed k a f t tx d v hc hw hsen hg hb hs hn ho =>
    have hk := hok k (by rw [hn]; exact List.mem_cons_self)
    obtain ⟨u, hsen, htv, -⟩ := hsen
    have hsec : s.tv1 ≤ k.sec := by
      rw [hi.tv1]
      exact hi.paced.trans hk.1
    subst hn
    refine hi.made hk (Client.senario_paced hsen hsec) htv fun hwait => ?_
    rw [hs] at hwait
    exact absurd (hwait.symm.trans hw) (by simp)
  | called k a f t tx d v hc hw hsen hg hb hs hn ho =>
    have hk := hok k (by rw [hn]; exact List.mem_cons_self)
    obtain ⟨u, hsen, htv, -⟩ := hsen
    have hsec : s.tv1 ≤ k.sec := by
      rw [hi.tv1]
      exact hi.paced.trans hk.1
    subst hn
    refine hi.made hk (Client.senario_paced hsen hsec) htv fun _ => ?_
    rw [hs]
  | dropped rx d b hc hs hn ho =>
    subst hs hn
    exact hi.kept rfl rfl fun hw => ⟨hw, rfl⟩
  | answered frame rx d c hc hw hact hid hproc hs hn ho =>
    subst hs hn
    exact hi.kept rfl rfl nofun
  | served frame rx rx' d b cmd j c tx tx' sent hc hcmd hproc hs hsent hgate hn ho =>
    subst hs hn
    exact hi.kept rfl rfl fun hw => ⟨hw, rfl⟩
  | env w c hw hs hn =>
    subst hs hn
    exact hi.kept rfl rfl fun hw => ⟨hw, rfl⟩

/-- **The clocks of a timed run.** -/
theorem Timed.clocks {now : Nat} {s : Client} {log : List Entry} (h : Timed now s log) :
    Clocks now s log := by
  obtain ⟨st, hrun⟩ := h
  refine hrun.invariant (I := Clocks now) ⟨rfl, nofun, Nat.le_refl _, Nat.le_refl _⟩ ?_
  intro s log e s' l hi hok hstep
  obtain ⟨o, hs, rfl⟩ := Trace.annotate_eq hstep
  refine (step_noted hs).clocks hi fun k hk => ?_
  obtain ⟨sendOk, connectOk, rfl⟩ := mem_notes_ticked hk
  exact hok

/-! ## What the clock decides -/

section Tick
variable {now : Nat} {s s' : Client} {log l : List Entry} {k : Clock} {sendOk connectOk : Bool}

/-- **BootNotifications and Heartbeats are paced.** None is built within the heartbeat interval of
the last, those that are triggered left aside; and until the boot is accepted one is built as soon
as the interval is over. -/
theorem paced_apart (h : Timed now s log) (hk : Steady now log (.netRun k sendOk connectOk))
    (hstep : journal s (.netRun k sendOk connectOk) = some (s', l)) :
    (∀ a : Call, a.isPaced = true → .inl (.made a) ∈ l →
      (times now log).paced + s.hbInterval ≤ k.sec) ∧
    (s.bConnect = true → s.bWaitResFlg = false → (s.cp.cs.bCpStat 0).notBooted = true →
      (times now log).paced + s.hbInterval ≤ k.sec → .inl (.made .boot) ∈ l) := by
  have hi := h.clocks
  have hsec : s.tv1 ≤ k.sec := by
    rw [hi.tv1]
    exact hi.paced.trans hk.1
  constructor
  · intro a ha hm
    obtain ⟨-, t, hsen⟩ := made_of_mem hstep hm
    rw [← hi.tv1]
    exact (Client.senario_paced hsen hsec).due ha
  · intro hc hw hlow hdue
    obtain ⟨o, -, rfl⟩ := Trace.annotate_eq hstep
    rw [← hi.tv1] at hdue
    have hsen : ∃ t, s.ocppCallSenario k = some (some .boot, t) := by
      unfold Client.ocppCallSenario
      rw [if_neg (by simp [hw]), if_pos hlow, Client.checkHbTime_steady hsec]
      have hle : s.hbInterval ≤ k.sec - s.tv1 := by omega
      simp only [decide_eq_true hle, if_true]
      exact ⟨_, rfl⟩
    obtain ⟨t, hsen⟩ := hsen
    rw [Client.notes_made sendOk connectOk hc hsen]
    simp

/-- **A CALL is given up in time.** The first tick that reads the clock the timeout after the send
gives the CALL up, and the connection with it; a tick before that leaves everything as it is. -/
theorem given_up_iff (h : Timed now s log) (hk : Steady now log (.netRun k sendOk connectOk))
    (hc : s.bConnect = true) (hw : s.bWaitResFlg = true)
    (hstep : journal s (.netRun k sendOk connectOk) = some (s', l)) :
    (.inl .gaveUp ∈ l ↔ (times now log).called + s.respTimeout ≤ k.sec) ∧
      s' = if (times now log).called + s.respTimeout ≤ k.sec then
        { s with bConnect := false, bWaitResFlg := false } else s := by
  have hi := h.clocks
  have hres : s.tvRes ≤ k.sec := by
    rw [hi.tvRes hw]
    exact hi.called.trans hk.1
  have hsen := Client.senario_waits hw hres
  have hiff : s.respTimeout ≤ k.sec - s.tvRes ↔ (times now log).called + s.respTimeout ≤ k.sec := by
    rw [← hi.tvRes hw]
    omega
  obtain ⟨o, hs, rfl⟩ := Trace.annotate_eq hstep
  have hs' : s' = if s.respTimeout ≤ k.sec - s.tvRes then
      { s with bConnect := false, bWaitResFlg := false } else s := by
    simp only [step, Client.netRun, hc, if_true, Client.tick, hsen, Option.some.injEq] at hs
    exact (Prod.mk.inj hs).1.symm
  rw [Client.notes_none sendOk connectOk hc hsen]
  by_cases hlate : s.respTimeout ≤ k.sec - s.tvRes
  · rw [if_pos hlate] at hs' ⊢
    rw [if_pos (hiff.mp hlate)]
    refine ⟨?_, hs'⟩
    simp [hw, hiff.mp hlate]
  · rw [if_neg hlate] at hs' ⊢
    rw [if_neg fun hdue => hlate (hiff.mpr hdue)]
    refine ⟨?_, hs'⟩
    have hnot : ¬ (times now log).called + s.respTimeout ≤ k.sec :=
      fun hdue => hlate (hiff.mpr hdue)
    simp [hw, hnot]

end Tick

/-- A computed run whose clock never goes back, and whose end passes a check. -/
theorem exists_timed_of_exec {st : UInt32} {now : Nat} {es : List Event}
    {p : Client → List Entry → Bool}
    (h : (Trace.exec journal (fun _ log e => decide (Steady now log e)) (Client.init st now) []
      es).any (fun r => p r.1 r.2) = true) : ∃ s log, Timed now s log ∧ p s log = true := by
  obtain ⟨s, log, hreach, hp⟩ := Trace.exists_reach_of_exec h
  exact ⟨s, log, ⟨st, hreach.weaken fun _ _ _ hok => of_decide_eq_true hok⟩, hp⟩

/-- The first BootNotification, an interval after the start. -/
theorem paced_apart_boot : ∃ now s log k s' l, Timed now s log ∧
    journal s (.netRun k true true) = some (s', l) ∧ .inl (.made .boot) ∈ l := by
  let e : Event := .netRun (.reading 20 1) true true
  let p : Client → List Entry → Bool := fun s log =>
    decide (Steady 0 log e) && s.bConnect && !s.bWaitResFlg && (s.cp.cs.bCpStat 0).notBooted &&
      decide ((times 0 log).paced + s.hbInterval ≤ 20) && (journal s e).isSome
  have hrun : (Trace.exec journal (fun _ log e => decide (Steady 0 log e)) (Client.init 3 0) []
      [.netRun (.reading 0 0) true true]).any (fun r => p r.1 r.2) = true := by decide +kernel
  obtain ⟨s, log, h, hp⟩ := exists_timed_of_exec hrun
  simp only [p, Bool.and_eq_true, decide_eq_true_eq, Bool.not_eq_true'] at hp
  obtain ⟨⟨⟨⟨⟨hk, hc⟩, hw⟩, hlow⟩, hdue⟩, hsome⟩ := hp
  obtain ⟨⟨s', l⟩, hstep⟩ := Option.isSome_iff_exists.mp hsome
  exact ⟨0, s, log, _, s', l, h, hstep, (paced_apart h hk hstep).2 hc hw hlow hdue⟩

/-- A BootNotification that is not answered is given up after five seconds. -/
theorem given_up_iff_boot : ∃ now s log k s' l, Timed now s log ∧ s.bWaitResFlg = true ∧
    journal s (.netRun k true true) = some (s', l) ∧ .inl .gaveUp ∈ l := by
  let e : Event := .netRun (.reading 15 2) true true
  let p : Client → List Entry → Bool := fun s log =>
    decide (Steady 0 log e) && s.bConnect && s.bWaitResFlg &&
      decide ((times 0 log).called + s.respTimeout ≤ 15) && (journal s e).isSome
  have hrun : (Trace.exec journal (fun _ log e => decide (Steady 0 log e)) (Client.init 3 0) []
      [.netRun (.reading 0 0) true true, .netRun (.reading 10 1) true true]).any
      (fun r => p r.1 r.2) = true := by decide +kernel
  obtain ⟨s, log, h, hp⟩ := exists_timed_of_exec hrun
  simp only [p, Bool.and_eq_true, decide_eq_true_eq] at hp
  obtain ⟨⟨⟨⟨hk, hc⟩, hw⟩, hdue⟩, hsome⟩ := hp
  obtain ⟨⟨s', l⟩, hstep⟩ := Option.isSome_iff_exists.mp hsome
  exact ⟨0, s, log, _, s', l, h, hw, hstep, (given_up_iff h hk hc hw hstep).1.mpr hdue⟩

end ChargePoint
