import ChargePoint.Turns
import ChargePoint.ResetRequest

/-!
# Why the station reboots

Three counts decide what becomes of a server that cannot be reached: the connects that failed since
the last one that did not (`failedSince`), the router's power cycles since then (`cycledSince`), and
what `WSClientThread` keeps of both. `Retries` is the invariant that ties them together, and
`gives_up_iff` reads off it when the router is switched off and when the station reboots.

`reboot_behind` is the account of all reboots: none happens without a decision, and no decision
without its cause in the log. `reset_obeyed_iff` is the other direction for a Reset.
-/

set_option autoImplicit false

namespace ChargePoint

open Trace

/-! ## Counting

`failedSince` and `cycledSince` are counts over the log, from the last connect that succeeded. The
thread keeps remainders of them: `nConnectCheck` is what has failed since the last cycle, and
`nConnectResetCount` is the cycles themselves until the thread leaves its loop. -/

/-- The connects that failed since the last one that did not. -/
def failedSince (log : List StationObs) : Nat :=
  (since StationObs.isConnected log).countP StationObs.isFailed

/-- The router's power cycles since then. -/
def cycledSince (log : List StationObs) : Nat :=
  (since StationObs.isConnected log).countP StationObs.isCycled

section Counts
variable {log o : List StationObs}

theorem failedSince_append (h : ∀ m ∈ o, m.isConnected = false) :
    failedSince (log ++ o) = failedSince log + o.countP StationObs.isFailed := by
  unfold failedSince
  rw [since_append h, List.countP_append]

theorem cycledSince_append (h : ∀ m ∈ o, m.isConnected = false) :
    cycledSince (log ++ o) = cycledSince log + o.countP StationObs.isCycled := by
  unfold cycledSince
  rw [since_append h, List.countP_append]

theorem failedSince_connected :
    failedSince (log ++ [.client (.inl .connected)]) = 0 := by
  unfold failedSince
  rw [since_mark rfl]
  rfl

theorem cycledSince_connected :
    cycledSince (log ++ [.client (.inl .connected)]) = 0 := by
  unfold cycledSince
  rw [since_mark rfl]
  rfl

/-- What is plain is not counted. -/
theorem StationObs.isPlain_eq {m : StationObs} (h : m.isPlain = true) :
    m.isConnected = false ∧ m.isFailed = false ∧ m.isCycled = false ∧ m.isRestored = false := by
  cases m with
  | client x =>
    cases x with
    | inl n =>
      cases n with
      | connected => cases h
      | ticked | made | gaveUp | wrote => exact ⟨rfl, rfl, rfl, rfl⟩
    | inr ob => exact ⟨rfl, rfl, rfl, rfl⟩
  | chargeStopped => exact ⟨rfl, rfl, rfl, rfl⟩
  | failed | cycled | restored | lost | rebooting | rebooted => cases h

end Counts

/-- **The counts of `WSClientThread`** are those of the log. -/
structure Retries (t : Station) (log : List StationObs) : Prop where
  failed : failedSince log = 10 * cycledSince log + t.nConnectCheck
  resets : t.clientStage ≠ .leaving → t.nConnectResetCount = cycledSince log
  le : t.nConnectCheck ≤ 10
  /-- Past the gates there is room for one more. -/
  passed : t.clientStage = .top ∨ t.clientStage = .leaving ∨ t.nConnectCheck ≤ 9
  /-- While connected, nothing has failed since. -/
  live : t.client.bConnect = true → failedSince log = 0

/-- What is no business of the counts. -/
theorem Retries.plain {t t' : Station} {log o : List StationObs} (h : Retries t log)
    (hcheck : t'.nConnectCheck = t.nConnectCheck)
    (hreset : t'.nConnectResetCount = t.nConnectResetCount)
    (hstage : t.clientStage = .leaving → t'.clientStage = .leaving)
    (hpass : t'.clientStage = .top ∨ t'.clientStage = .leaving ∨ t.nConnectCheck ≤ 9)
    (hlive : t'.client.bConnect = true → t.client.bConnect = true)
    (ho : ∀ m ∈ o, m.isConnected = false ∧ m.isFailed = false ∧ m.isCycled = false) :
    Retries t' (log ++ o) := by
  have hconn : ∀ m ∈ o, m.isConnected = false := fun m hm => (ho m hm).1
  have hfail : failedSince (log ++ o) = failedSince log := by
    rw [failedSince_append hconn, List.countP_eq_zero.mpr]
    · rfl
    · intro m hm
      simp [(ho m hm).2.1]
  have hcyc : cycledSince (log ++ o) = cycledSince log := by
    rw [cycledSince_append hconn, List.countP_eq_zero.mpr]
    · rfl
    · intro m hm
      simp [(ho m hm).2.2]
  constructor
  · rw [hfail, hcyc, hcheck]
    exact h.failed
  · intro hnot
    rw [hreset, hcyc]
    exact h.resets fun hl => hnot (hstage hl)
  · rw [hcheck]
    exact h.le
  · rw [hcheck]
    exact hpass
  · intro hc
    rw [hfail]
    exact h.live (hlive hc)

/-- After ten failed connects nothing is connected. -/
theorem Retries.down {t : Station} {log : List StationObs} (h : Retries t log)
    (h9 : 0 < t.nConnectCheck) : t.client.bConnect = false := by
  by_contra hc
  have hnone := h.live (by simpa using hc)
  have hfailed := h.failed
  omega

section Turned
variable {t : Station} {log : List StationObs}

/-- A connect that fails is one more. -/
theorem Retries.fails (h : Retries t log) (hstage : t.clientStage = .run)
    (hc : t.client.bConnect = false) :
    Retries { t with nConnectCheck := t.nConnectCheck + 1, clientStage := .top }
      (log ++ [.failed]) := by
  have h9 : t.nConnectCheck ≤ 9 := by
    rcases h.passed with ht | ht | ht
    · rw [hstage] at ht
      cases ht
    · rw [hstage] at ht
      cases ht
    · exact ht
  have hfail : failedSince (log ++ [.failed]) = failedSince log + 1 :=
    failedSince_append (by simp [StationObs.isConnected])
  have hcyc : cycledSince (log ++ [.failed]) = cycledSince log :=
    cycledSince_append (by simp [StationObs.isConnected])
  constructor
  · rw [hfail, hcyc, h.failed]
    rfl
  · intro hnot
    rw [hcyc]
    exact h.resets (by simp [hstage])
  · exact Nat.succ_le_succ h9
  · exact .inl rfl
  · intro hup
    exact absurd hup (by simp [hc])

/-- One that does not starts the counts over. -/
theorem Retries.connects {t' : Station} (hcheck : t'.nConnectCheck = 0)
    (hreset : t'.nConnectResetCount = 0) (hstage : t'.clientStage = .top) :
    Retries t' (log ++ [.client (.inl .connected)]) := by
  constructor
  · rw [failedSince_connected, cycledSince_connected, hcheck]
  · intro hnot
    rw [hreset, cycledSince_connected]
  · rw [hcheck]
    exact Nat.zero_le _
  · exact .inl hstage
  · intro hup
    exact failedSince_connected

/-- A power cycle comes after ten. -/
theorem Retries.cycles (h : Retries t log) (hstage : t.clientStage = .top)
    (h9 : 9 < t.nConnectCheck) :
    Retries { t with nConnectCheck := 0, nConnectResetCount := t.nConnectResetCount + 1 }
      (log ++ [.cycled]) := by
  have hfail : failedSince (log ++ [.cycled]) = failedSince log :=
    failedSince_append (by simp [StationObs.isConnected])
  have hcyc : cycledSince (log ++ [.cycled]) = cycledSince log + 1 :=
    cycledSince_append (by simp [StationObs.isConnected])
  have hten : t.nConnectCheck = 10 := Nat.le_antisymm h.le h9
  constructor
  · rw [hfail, hcyc, h.failed, hten]
    rfl
  · intro hnot
    rw [hcyc]
    exact congrArg (· + 1) (h.resets (by simp [hstage]))
  · exact Nat.zero_le _
  · exact .inl hstage
  · intro hup
    rw [hfail]
    exact h.live hup

/-- What `WSClientThread` leaves by. -/
theorem Retries.leaves {cp : Charger} {n : Nat} (h : Retries t log) :
    Retries { t with nConnectResetCount := n, clientStage := .leaving }
      (log ++ [.rebooting .noServer cp]) := by
  have hfail : failedSince (log ++ [.rebooting .noServer cp]) = failedSince log :=
    failedSince_append (by simp [StationObs.isConnected])
  have hcyc : cycledSince (log ++ [.rebooting .noServer cp]) = cycledSince log :=
    cycledSince_append (by simp [StationObs.isConnected])
  constructor
  · rw [hfail, hcyc]
    exact h.failed
  · intro hnot
    exact absurd rfl hnot
  · exact h.le
  · exact .inr (.inl rfl)
  · intro hup
    rw [hfail]
    exact h.live hup

end Turned

theorem Station.ClientTurned.retries {t t' : Station} {r : Reading} {log o : List StationObs}
    (h : t.ClientTurned r t' o) (hi : Retries t log) : Retries t' (log ++ o) := by
  cases h with
  | waits hs ho =>
    subst hs ho
    exact hi.plain rfl rfl id hi.passed id (by simp)
  | links hstage g ws hg hs ho =>
    subst hs ho
    refine hi.plain rfl rfl (fun hl => ?_) ?_ id (by simp)
    · rw [hstage] at hl
      cases hl
    · rcases hi.passed with ht | ht | ht
      · rw [hstage] at ht
        cases ht
      · rw [hstage] at ht
        cases ht
      · exact .inr (.inr ht)
  | acts e s l fc ws g hnot hj hun hg hs ho =>
    subst hs ho
    refine hi.plain rfl rfl (fun hl => absurd hl hnot) ?_ hun.live ?_
    · rcases hg with rfl | ⟨rfl, hsample⟩ | ⟨rfl, h9⟩
      · exact .inl rfl
      · rcases hi.passed with ht | ht | ht
        · rw [hsample] at ht
          cases ht
        · exact absurd ht hnot
        · exact .inr (.inr ht)
      · exact .inr (.inr h9)
    · intro m hm
      obtain ⟨x, hx, rfl⟩ := List.mem_map.mp hm
      obtain ⟨hconn, hfail, hcyc, -⟩ := StationObs.isPlain_eq (hun.plain x hx)
      exact ⟨hconn, hfail, hcyc⟩
  | fails hstage hc hs ho =>
    subst hs ho
    exact hi.fails hstage hc
  | connects hstage hc hs ho =>
    subst hs ho
    exact .connects rfl rfl rfl
  | cycles hstage hnet hadm h9 hgo hs ho =>
    subst hs ho
    exact hi.cycles hstage h9
  | leaves hstage hnet hadm h9 hgo hs ho =>
    subst hs ho
    exact hi.leaves
  | reboots hstage hs ho =>
    subst hs ho
    exact hi.plain rfl rfl id hi.passed id (by simp [StationObs.isConnected,
      StationObs.isFailed, StationObs.isCycled])

theorem Station.StatusTurned.retries {t t' : Station} {r : Reading} {log o : List StationObs}
    (h : t.StatusTurned r t' o) (hi : Retries t log) : Retries t' (log ++ o) := by
  cases h with
  | goes g b s hg hupd hlive hs ho =>
    subst hs
    refine hi.plain rfl rfl id hi.passed (fun hup => hlive ▸ hup) ?_
    intro m hm
    obtain ⟨hconn, hfail, hcyc, -⟩ := StationObs.isPlain_eq (ho m hm)
    exact ⟨hconn, hfail, hcyc⟩
  | restores g b hg hs ho =>
    subst hs ho
    exact hi.plain rfl rfl id hi.passed id (by simp [StationObs.isConnected,
      StationObs.isFailed, StationObs.isCycled])
  | loses hflg hs ho =>
    subst hs ho
    exact hi.plain rfl rfl id hi.passed id (by simp [StationObs.isConnected,
      StationObs.isFailed, StationObs.isCycled])
  | leaves cause hdue hs ho =>
    subst hs ho
    exact hi.plain rfl rfl id hi.passed id (by simp [StationObs.isConnected,
      StationObs.isFailed, StationObs.isCycled])
  | reboots cause hstage hs ho =>
    subst hs ho
    exact hi.plain rfl rfl id hi.passed id (by simp [StationObs.isConnected,
      StationObs.isFailed, StationObs.isCycled])

theorem Station.step_retries {t t' : Station} {m : Turn} {log o : List StationObs}
    (h : t.step m = some (t', o)) (hi : Retries t log) : Retries t' (log ++ o) := by
  unfold step at h
  split at h
  · cases h
    rw [List.append_nil]
    exact hi
  · cases m with
    | client r => exact (clientTurn_cases h).retries hi
    | status r => exact (statusTurn_cases h).retries hi
    | other x =>
      obtain ⟨s, l, hj, rfl, rfl⟩ := does_eq h
      have hun := Other.unmade hj
      refine hi.plain rfl rfl id hi.passed hun.live ?_
      intro m hm
      obtain ⟨y, hy, rfl⟩ := List.mem_map.mp hm
      obtain ⟨hconn, hfail, hcyc, -⟩ := StationObs.isPlain_eq (hun.plain y hy)
      exact ⟨hconn, hfail, hcyc⟩

/-- **The counts hold in every run.** -/
theorem StationRun.retries {t : Station} {log : List StationObs} (h : StationRun t log) :
    Retries t log := by
  obtain ⟨st, now, time, h⟩ := h
  refine h.invariant ?_ ?_
  · exact ⟨rfl, fun _ => rfl, Nat.zero_le _, .inl rfl, fun _ => rfl⟩
  · intro t log m t' o hi _ hstep
    exact Station.step_retries hstep hi

/-! ## The network's error

The time of the error is that of the last loss that was noticed. `Noticed` says so as long as
nothing was restored, and it is what a reboot for the network has behind it. -/

/-- The last loss that was noticed, and nothing restored since. -/
def Noticed (t : Station) (log : List StationObs) : Prop :=
  t.netErrorFlg = false →
    ∃ l l', log = l ++ .lost t.netErrorTime :: l' ∧ ∀ m ∈ l', m.isRestored = false

theorem Noticed.kept {t t' : Station} {log o : List StationObs} (h : Noticed t log)
    (hflg : t'.netErrorFlg = t.netErrorFlg) (htime : t'.netErrorTime = t.netErrorTime)
    (ho : ∀ m ∈ o, m.isRestored = false) : Noticed t' (log ++ o) := by
  intro hlost
  rw [hflg] at hlost
  obtain ⟨l, l', rfl, hl'⟩ := h hlost
  refine ⟨l, l' ++ o, ?_, ?_⟩
  · rw [htime, List.append_assoc, List.cons_append]
  · intro m hm
    rcases List.mem_append.mp hm with hm | hm
    · exact hl' m hm
    · exact ho m hm

theorem Station.ClientTurned.noticed {t t' : Station} {r : Reading} {log o : List StationObs}
    (h : t.ClientTurned r t' o) (hi : Noticed t log) : Noticed t' (log ++ o) := by
  cases h with
  | waits hs ho | links hstage g ws hg hs ho | fails hstage hc hs ho | connects hstage hc hs ho
  | cycles hstage hnet hadm h9 hgo hs ho | leaves hstage hnet hadm h9 hgo hs ho
  | reboots hstage hs ho =>
    subst hs ho
    exact hi.kept rfl rfl (by simp [StationObs.isRestored])
  | acts e s l fc ws g hnot hj hun hg hs ho =>
    subst hs ho
    refine hi.kept rfl rfl ?_
    intro m hm
    obtain ⟨x, hx, rfl⟩ := List.mem_map.mp hm
    exact (StationObs.isPlain_eq (hun.plain x hx)).2.2.2

theorem Station.StatusTurned.noticed {t t' : Station} {r : Reading} {log o : List StationObs}
    (h : t.StatusTurned r t' o) (hi : Noticed t log) : Noticed t' (log ++ o) := by
  cases h with
  | goes g b s hg hupd hlive hs ho =>
    subst hs
    exact hi.kept rfl rfl fun m hm => (StationObs.isPlain_eq (ho m hm)).2.2.2
  | restores g b hg hs ho =>
    subst hs
    intro hlost
    cases hlost
  | loses hflg hs ho =>
    subst hs ho
    intro hlost
    exact ⟨log, [], rfl, by simp⟩
  | leaves cause hdue hs ho =>
    subst hs ho
    exact hi.kept rfl rfl (by simp [StationObs.isRestored])
  | reboots cause hstage hs ho =>
    subst hs ho
    exact hi.kept rfl rfl (by simp [StationObs.isRestored])

theorem Station.step_noticed {t t' : Station} {m : Turn} {log o : List StationObs}
    (h : t.step m = some (t', o)) (hi : Noticed t log) : Noticed t' (log ++ o) := by
  unfold step at h
  split at h
  · cases h
    rw [List.append_nil]
    exact hi
  · cases m with
    | client r => exact (clientTurn_cases h).noticed hi
    | status r => exact (statusTurn_cases h).noticed hi
    | other x =>
      obtain ⟨s, l, hj, rfl, rfl⟩ := does_eq h
      refine hi.kept rfl rfl ?_
      intro m hm
      obtain ⟨y, hy, rfl⟩ := List.mem_map.mp hm
      exact (StationObs.isPlain_eq ((Other.unmade hj).plain y hy)).2.2.2

/-- Six minutes into an hour of error. A clock that went back shows no error at all. -/
theorem errorMinute_lt {nowT : Int} (h : 5 < errorMinute nowT) : 360 ≤ nowT % 3600 ∧ 360 ≤ nowT := by
  unfold errorMinute at h
  have hpos : 0 ≤ nowT := by
    by_contra hneg
    have hmod : (-nowT).tmod 3600 = -(nowT.tmod 3600) := Int.neg_tmod nowT 3600
    have hdiv : (-(nowT.tmod 3600)).tdiv 60 = -((nowT.tmod 3600).tdiv 60) := Int.neg_tdiv _ 60
    have hsign : 0 ≤ ((-nowT).tmod 3600).tdiv 60 :=
      Int.tdiv_nonneg (Int.tmod_nonneg 3600 (by omega)) (by decide)
    rw [hmod, hdiv] at hsign
    omega
  rw [Int.tmod_eq_emod_of_nonneg hpos,
    Int.tdiv_eq_ediv_of_nonneg (Int.emod_nonneg nowT (by decide))] at h
  omega

/-! ## The update's order -/

/-- An update was ordered: by the central system, or by another thread. -/
def ordersUpdate : Entry → Bool
  | .inr (.served _ rx) => rx.actionCode = .cs .updateFw
  | .inl (.wrote (.updateStep u)) => u = .chkDate
  | _ => false

theorem UpdateStep.reported_ne (u : UpdateStep) : u.reported ≠ .chkDate := by
  cases u <;> simp [UpdateStep.reported]

theorem Call.update {a : Call} {k : Clock} {c : Charger}
    (h : (a.finish (a.prepare k c)).fw.updateStep = .chkDate) : c.fw.updateStep = .chkDate := by
  have hprepare : (a.prepare k c).fw = c.fw := congrArg Orders.fw (Call.prepare_orders a k c)
  have hfinish : (a.finish (a.prepare k c)).fw = _ :=
    congrArg Orders.fw (Call.finish_orders a (a.prepare k c))
  rw [hfinish] at h
  dsimp only at h
  split at h
  · exact absurd h (UpdateStep.reported_ne _)
  · rw [← hprepare]
    exact h

/-- **An update waits for its date after it was ordered.** -/
theorem Client.Noted.update {s s' : Client} {n : List Remark} {o : List Obs}
    (h : s.Noted s' n o) (hdate : s'.cp.fw.updateStep = .chkDate) :
    s.cp.fw.updateStep = .chkDate ∨
      ∃ e ∈ (n.map .inl ++ o.map .inr : List Entry), ordersUpdate e = true := by
  cases h with
  | quiet f rx b hb hs hn ho | raised k hreq hs hn ho | sampled k f ty hn hs ho
  | connected hc hs hn ho | idle k f t v w hc hsen hs hn ho | gaveUp k w hc hw hsen hs hn ho
  | dropped rx d b hc hs hn ho =>
    subst hs
    exact .inl hdate
  | failed k a f t tx d v hc hw hsen hg hb hs hn ho =>
    subst hs
    have hsame : (s.cp.pulse f t).fw.updateStep = .chkDate := Call.update hdate
    exact .inl hsame
  | called k a f t tx d v hc hw hsen hg hb hs hn ho =>
    subst hs
    have hsame : (s.cp.pulse f t).fw.updateStep = .chkDate := Call.update hdate
    exact .inl hsame
  | answered frame rx d c hc hw hact hid hproc hs hn ho =>
    subst hs
    have hfw : c.fw = s.cp.fw := congrArg Orders.fw (rxCallResDataProc_orders hproc)
    have hdate : c.fw.updateStep = .chkDate := hdate
    rw [hfw] at hdate
    exact .inl hdate
  | served frame rx rx' d b cmd j c tx tx' sent hc hcmd hproc hs hsent hgate hn ho =>
    subst hs hn ho
    have hfw : c.fw = if cmd = .updateFw then c.fw else s.cp.fw :=
      congrArg Orders.fw (rxCallDataProc_orders hproc)
    have hdate : c.fw.updateStep = .chkDate := hdate
    by_cases hupd : cmd = .updateFw
    · refine .inr ⟨.inr (.served frame rx.msg), by simp, ?_⟩
      simp [ordersUpdate, hcmd, hupd]
    · rw [if_neg hupd] at hfw
      rw [hfw] at hdate
      exact .inl hdate
  | env w c hw hs hn =>
    subst hs hn
    cases w with
    | updateStep u =>
      obtain ⟨rfl, rfl⟩ := Prod.mk.inj (Option.some.inj hw)
      exact .inr ⟨.inl (.wrote (.updateStep u)), by simp, by simpa [ordersUpdate] using hdate⟩
    | setCpStatus code ch =>
      obtain ⟨i, -, heq⟩ := Option.map_eq_some_iff.mp hw
      obtain ⟨rfl, -⟩ := Prod.mk.inj heq
      exact .inl hdate
    | scene | reqStopTs | reqStartTs | reqAuth | scndCardNo | clearParentId | qrEvent | rmtStart
    | rmtStop | diagLogReqStep | chargingStatus | devChannel | stopTsConfig =>
      obtain ⟨rfl, -⟩ := Prod.mk.inj (Option.some.inj hw)
      exact .inl hdate

theorem Journaled.update {s : Client} {log : List Entry} (h : Journaled s log)
    (hdate : s.cp.fw.updateStep = .chkDate) : ∃ e ∈ log, ordersUpdate e = true := by
  obtain ⟨st, now, h⟩ := h
  induction h with
  | start => cases hdate
  | @step s s' log l e _ _ hstep ih =>
    obtain ⟨n, o, rfl, hnoted⟩ := journal_cases hstep
    rcases hnoted.update hdate with hold | ⟨x, hx, hord⟩
    · obtain ⟨x, hx, hord⟩ := ih hold
      exact ⟨x, List.mem_append_left _ hx, hord⟩
    · exact ⟨x, List.mem_append_right _ hx, hord⟩

/-! ## The account of the reboots

`Behind` gives a clause to each of the three observations it is about: the cycle, the decision,
the reboot. A decision and its reboot are different turns with other threads between them, so
what the decision was based on is carried along (`Committed`). -/

/-- What a power cycle of the router, a decision to reboot and a reboot have behind them. With the
clause of the power cycle, `failedSince` says that ten connects failed before each of them, and ten
more before the reboot. -/
def Behind (past : List StationObs) : StationObs → Prop
  | .rebooting .noServer cp =>
    cp.scene.appOrder ≠ appOrderCharging ∧ 3 ≤ cycledSince past ∧
      failedSince past = 10 * (cycledSince past + 1)
  | .rebooting (.netError now) cp =>
    cp.scene.appOrder ≠ appOrderCharging ∧ ∃ l now₀ l', past = l ++ .lost now₀ :: l' ∧
      (∀ m ∈ l', m.isRestored = false) ∧ 360 ≤ (now - now₀) % 3600 ∧ now₀ + 360 ≤ now
  | .rebooting .reset cp =>
    (∃ i, cp.devConn = some i ∧ cp.cs.bCpStat i ≠ .charging ∧ cp.cs.bCpStat i ≠ .prepare) ∧
      ∃ x ∈ entries past, ordersReset x
  | .rebooting .update _ => False
  | .rebooted .update =>
    ∃ x ∈ entries past, ordersUpdate x
  | .rebooted cause => ∃ cp, .rebooting cause cp ∈ past
  | .cycled => failedSince past = 10 * (cycledSince past + 1)
  | .client _ | .failed | .restored | .lost _ | .chargeStopped => True

/-- What is plain needs nothing behind it. -/
theorem Behind.of_plain {past o : List StationObs} (ho : ∀ m ∈ o, m.isPlain = true)
    (l : List StationObs) (x : StationObs) (l' : List StationObs) (heq : o = l ++ x :: l') :
    Behind (past ++ l) x := by
  have hx : x.isPlain = true := ho x (by simp [heq])
  cases x with
  | client | chargeStopped => trivial
  | failed | cycled | restored | lost | rebooting | rebooted => cases hx

/-- A single observation. -/
theorem Behind.of_single {past : List StationObs} {y : StationObs} (h : Behind past y)
    (l : List StationObs) (x : StationObs) (l' : List StationObs) (heq : [y] = l ++ x :: l') :
    Behind (past ++ l) x := by
  cases l with
  | nil =>
    obtain ⟨rfl, -⟩ := List.cons.inj heq
    rw [List.append_nil]
    exact h
  | cons z l => simp at heq

/-- A thread that is about to reboot has decided to; an update that goes on was ordered. -/
structure Committed (t : Station) (log : List StationObs) : Prop where
  client : t.clientStage = .leaving → ∃ cp, .rebooting .noServer cp ∈ log
  status : ∀ cause, t.statusStage = .leaving cause → ∃ cp, .rebooting cause cp ∈ log
  update : t.statusStage.updating = true → ∃ x ∈ entries log, ordersUpdate x = true

/-- What goes on is still as it was decided. -/
theorem Committed.append {t t' : Station} {log o : List StationObs} (h : Committed t log)
    (hclient : t'.clientStage = .leaving → t.clientStage = .leaving ∨
      ∃ cp, .rebooting .noServer cp ∈ o)
    (hstatus : ∀ cause, t'.statusStage = .leaving cause → t.statusStage = .leaving cause ∨
      ∃ cp, .rebooting cause cp ∈ o)
    (hupdate : t'.statusStage.updating = true → ∃ x ∈ entries log, ordersUpdate x = true) :
    Committed t' (log ++ o) := by
  constructor
  · intro hl
    rcases hclient hl with hold | ⟨cp, hcp⟩
    · obtain ⟨cp, hcp⟩ := h.client hold
      exact ⟨cp, List.mem_append_left _ hcp⟩
    · exact ⟨cp, List.mem_append_right _ hcp⟩
  · intro cause hl
    rcases hstatus cause hl with hold | ⟨cp, hcp⟩
    · obtain ⟨cp, hcp⟩ := h.status cause hold
      exact ⟨cp, List.mem_append_left _ hcp⟩
    · exact ⟨cp, List.mem_append_right _ hcp⟩
  · intro hu
    obtain ⟨x, hx, hord⟩ := hupdate hu
    refine ⟨x, ?_, hord⟩
    rw [entries_append]
    exact List.mem_append_left _ hx

theorem Station.ClientTurned.committed {t t' : Station} {r : Reading} {log o : List StationObs}
    (h : t.ClientTurned r t' o) (hi : Committed t log) : Committed t' (log ++ o) := by
  cases h with
  | waits hs ho | reboots hstage hs ho =>
    subst hs ho
    exact hi.append .inl (fun _ => .inl) hi.update
  | links hstage g ws hg hs ho =>
    subst hs ho
    refine hi.append (fun hl => ?_) (fun _ => .inl) hi.update
    rcases hg with rfl | rfl <;> cases hl
  | acts e s l fc ws g hnot hj hun hg hs ho =>
    subst hs ho
    refine hi.append (fun hl => ?_) (fun _ => .inl) hi.update
    rcases hg with rfl | ⟨rfl, -⟩ | ⟨rfl, -⟩ <;> cases hl
  | fails hstage hc hs ho | connects hstage hc hs ho =>
    subst hs ho
    exact hi.append (fun hl => by cases hl) (fun _ => .inl) hi.update
  | cycles hstage hnet hadm h9 hgo hs ho =>
    subst hs ho
    exact hi.append .inl (fun _ => .inl) hi.update
  | leaves hstage hnet hadm h9 hgo hs ho =>
    subst hs ho
    exact hi.append (fun _ => .inr ⟨t.client.cp, by simp⟩) (fun _ => .inl) hi.update

theorem Station.StatusTurned.committed {t t' : Station} {r : Reading} {log o : List StationObs}
    (h : t.StatusTurned r t' o) (hj : Journaled t.client (entries log)) (hi : Committed t log) :
    Committed t' (log ++ o) := by
  cases h with
  | goes g b s hg hupd hlive hs ho =>
    subst hs
    refine hi.append .inl (fun cause hl => absurd hl (hg cause)) (fun hu => ?_)
    rcases hupd hu with hold | hdate
    · exact hi.update hold
    · exact hj.update hdate
  | restores g b hg hs ho =>
    subst hs
    refine hi.append .inl (fun cause hl => ?_) (fun hu => ?_)
    · rcases hg with rfl | rfl <;> cases hl
    · rcases hg with rfl | rfl <;> cases hu
  | loses hflg hs ho =>
    subst hs
    exact hi.append .inl (fun cause hl => by cases hl) (fun hu => by cases hu)
  | leaves cause hdue hs ho =>
    subst hs ho
    refine hi.append .inl (fun cause' hl => ?_) (fun hu => by cases hu)
    cases hl
    exact .inr ⟨t.client.cp, by simp⟩
  | reboots cause hstage hs ho =>
    subst hs
    exact hi.append .inl (fun _ => .inl) hi.update

theorem Station.ClientTurned.behind {t t' : Station} {r : Reading} {log o : List StationObs}
    (h : t.ClientTurned r t' o) (hcount : Retries t log) (hi : Committed t log)
    (l : List StationObs) (x : StationObs) (l' : List StationObs) (heq : o = l ++ x :: l') :
    Behind (log ++ l) x := by
  cases h with
  | waits hs ho | links hstage g ws hg hs ho =>
    subst ho
    simp at heq
  | acts e s ls fc ws g hnot hj hun hg hs ho =>
    subst ho
    refine Behind.of_plain (fun m hm => ?_) l x l' heq
    obtain ⟨y, hy, rfl⟩ := List.mem_map.mp hm
    exact hun.plain y hy
  | fails hstage hc hs ho | connects hstage hc hs ho =>
    subst ho
    refine Behind.of_single ?_ l x l' heq
    trivial
  | cycles hstage hnet hadm h9 hgo hs ho =>
    subst ho
    refine Behind.of_single ?_ l x l' heq
    have hfailed := hcount.failed
    have hle := hcount.le
    show failedSince log = 10 * (cycledSince log + 1)
    omega
  | leaves hstage hnet hadm h9 hgo hs ho =>
    subst ho
    refine Behind.of_single ?_ l x l' heq
    have hresets := hcount.resets (by simp [hstage])
    have hfailed := hcount.failed
    have hle := hcount.le
    exact ⟨hgo.2, by omega, by omega⟩
  | reboots hstage hs ho =>
    subst ho
    have hdecided : Behind log (.rebooted .noServer) := hi.client hstage
    exact Behind.of_single hdecided l x l' heq

theorem Station.StatusTurned.behind {t t' : Station} {r : Reading} {log o : List StationObs}
    (h : t.StatusTurned r t' o) (hj : Journaled t.client (entries log)) (hloss : Noticed t log)
    (hi : Committed t log) (hpast : Past Behind log)
    (l : List StationObs) (x : StationObs) (l' : List StationObs)
    (heq : o = l ++ x :: l') : Behind (log ++ l) x := by
  cases h with
  | goes g b s hg hupd hlive hs ho => exact Behind.of_plain ho l x l' heq
  | restores g b hg hs ho | loses hflg hs ho =>
    subst ho
    refine Behind.of_single ?_ l x l' heq
    trivial
  | leaves cause hdue hs ho =>
    subst ho
    refine Behind.of_single ?_ l x l' heq
    cases cause with
    | noServer | update => exact False.elim hdue
    | netError now =>
      obtain ⟨hflg, hmin, happ⟩ := hdue
      obtain ⟨l, l', hlog, hrest⟩ := hloss hflg
      have hsix := errorMinute_lt hmin
      exact ⟨happ, l, t.netErrorTime, l', hlog, hrest, hsix.1, by omega⟩
    | reset =>
      obtain ⟨hreq, hstat⟩ := hdue
      exact ⟨hstat, hj.reset_iff.mp hreq⟩
  | reboots cause hstage hs ho =>
    subst ho
    refine Behind.of_single ?_ l x l' heq
    rcases hstage with hleave | ⟨hend, rfl⟩
    · obtain ⟨cp, hcp⟩ := hi.status cause hleave
      cases cause with
      | noServer | netError now | reset => exact ⟨cp, hcp⟩
      | update =>
        -- nobody decides to reboot for an update: its end does
        obtain ⟨l₀, l₁, hsplit⟩ := List.append_of_mem hcp
        exact (hpast l₀ _ l₁ hsplit).elim
    · exact hi.update (by rw [hend]; rfl)

/-- **Every reboot of the two threads has its cause behind it.** In every run of the station,
however its threads take turns: the router is switched off after ten failed connects in a row, and
ten more each time; the server is given up after three or more of that, and ten failed connects
behind the last; the network is given up six minutes after a loss that
was noticed, with nothing restored since; for a Reset one was served and accepted; after an update
one was ordered. The first two happen on no charger that charges, the third on none whose connector
is charging or prepared. -/
theorem reboot_behind {t : Station} {log : List StationObs} (h : StationRun t log) :
    Past Behind log := by
  have hall : Past Behind log ∧ Committed t log ∧ Noticed t log := by
    obtain ⟨st, now, time, h⟩ := h
    induction h with
    | start =>
      exact ⟨Past.nil, ⟨by simp [Station.init], by simp [Station.init],
        by simp [Station.init, StatusStage.updating]⟩, fun hl => by cases hl⟩
    | @step t t' log o m hpast hok hstep ih =>
      obtain ⟨hbehind, hcom, hloss⟩ := ih
      have hrun : StationRun t log := ⟨st, now, time, hpast⟩
      have hj := hrun.journaled
      have hloss' := Station.step_noticed hstep hloss
      unfold Station.step at hstep
      split at hstep
      · cases hstep
        rw [List.append_nil]
        exact ⟨hbehind, hcom, hloss⟩
      · cases m with
        | client r =>
          have hturn := Station.clientTurn_cases hstep
          exact ⟨hbehind.append (hturn.behind hrun.retries hcom), hturn.committed hcom, hloss'⟩
        | status r =>
          have hturn := Station.statusTurn_cases hstep
          exact ⟨hbehind.append (hturn.behind hj hloss hcom hbehind), hturn.committed hj hcom,
            hloss'⟩
        | other x =>
          obtain ⟨s, l, hev, rfl, rfl⟩ := Station.does_eq hstep
          refine ⟨hbehind.append (Behind.of_plain fun m hm => ?_),
            hcom.append .inl (fun _ => .inl) hcom.update, hloss'⟩
          obtain ⟨y, hy, rfl⟩ := List.mem_map.mp hm
          exact (Other.unmade hev).plain y hy
  exact hall.1

/-- A computed run whose end passes a check exhibits one. -/
theorem exists_stationRun_of_exec {st : UInt32} {now : Nat} {time : Int} {ms : List Turn}
    {p : Station → List StationObs → Bool}
    (h : (exec Station.step (fun _ _ _ => true) (Station.init st now time) [] ms).any
      (fun r => p r.1 r.2) = true) : ∃ t log, StationRun t log ∧ p t log = true := by
  obtain ⟨t, log, hreach, hp⟩ := exists_reach_of_exec h
  exact ⟨t, log, ⟨st, now, time, hreach.always⟩, hp⟩

/-- A reading with everything in order, at a time. -/
def Reading.fair (now : Int) (connectOk : Bool) : Reading where
  userAuthNet := true
  bGloAdminStatus := false
  networkIsReady := true
  ethGetLink := true
  sToBackground := true
  now := now
  currTime := 0
  zone := 0
  ok := true
  k := .reading 0 0
  sendOk := true
  connectOk := connectOk

/-- A reboot of the status task. -/
def StationObs.isReboot : StationObs → Bool
  | .rebooted _ => true
  | _ => false

theorem reboot_behind_netError : ∃ t log, StationRun t log ∧ Past Behind log ∧
    ∃ m ∈ log, StationObs.isReboot m = true := by
  have hrun : (exec Station.step (fun _ _ _ => true) (Station.init 3 0 0) []
      [.status (.fair 0 true), .status (.fair 0 true), .status (.fair 7 true),
        .status (.fair 367 true), .status (.fair 367 true)]).any
      (fun r => r.2.any StationObs.isReboot) = true := by decide +kernel
  obtain ⟨t, log, h, hp⟩ := exists_stationRun_of_exec
    (p := fun _ log => log.any StationObs.isReboot) hrun
  exact ⟨t, log, h, reboot_behind h, List.any_eq_true.mp hp⟩

/-! ## When the server is given up

The other direction, for the first of the causes. Whether ten more connects have failed can be
read off the log, so the turn at the top of the loop is decided by the log and the charger's
order. -/

/-- The turn finds that ten more connects have failed. -/
structure Exhausted (t : Station) (r : Reading) (log : List StationObs) : Prop where
  top : t.clientStage = .top
  userAuthNet : r.userAuthNet = true
  noAdmin : r.bGloAdminStatus = false
  ten : failedSince log = 10 * (cycledSince log + 1)

/-- The router's power will not help any more. -/
def GivesUp (t : Station) (log : List StationObs) : Prop :=
  3 ≤ cycledSince log ∧ t.client.cp.scene.appOrder ≠ appOrderCharging

theorem Exhausted.iff {t : Station} {r : Reading} {log : List StationObs} (h : Retries t log) :
    Exhausted t r log ↔ t.clientStage = .top ∧ r.userAuthNet = true ∧
      r.bGloAdminStatus = false ∧ 9 < t.nConnectCheck := by
  have hfailed := h.failed
  have hle := h.le
  constructor
  · intro hx
    have hten := hx.ten
    exact ⟨hx.top, hx.userAuthNet, hx.noAdmin, by omega⟩
  · intro hx
    obtain ⟨htop, hnet, hadm, h9⟩ := hx
    exact ⟨htop, hnet, hadm, by omega⟩

/-- The turn itself. -/
theorem Exhausted.turn {t : Station} {r : Reading} {log : List StationObs} (h : Retries t log)
    (hx : Exhausted t r log) : t.clientTurn r = some t.connectReset := by
  obtain ⟨htop, hnet, hadm, h9⟩ := (Exhausted.iff h).mp hx
  simp only [Station.clientTurn, htop, hnet, hadm, Bool.not_true, Bool.false_eq_true, if_false,
    if_pos h9]

/-- **When the router is switched off, and when the server is given up.** In every run, a turn of
`WSClientThread` switches the router off and on exactly if it finds that ten more connects have
failed since the last power cycle, and none succeeded; from the fourth time on it reboots instead
if no charge is under way. Neither is ever done to a connection that stands. -/
theorem server_given_up_iff {t : Station} {log : List StationObs} (h : StationRun t log)
    (hon : t.rebooted = false) (r : Reading) :
    ((∃ t', t.step (.client r) = some (t', [.cycled])) ↔
      Exhausted t r log ∧ ¬ GivesUp t log) ∧
    ((∃ t', t.step (.client r) = some (t', [.rebooting .noServer t.client.cp])) ↔
      Exhausted t r log ∧ GivesUp t log) ∧
    (Exhausted t r log → t.client.bConnect = false) := by
  have hcount := h.retries
  have hstep : t.step (.client r) = t.clientTurn r := by
    unfold Station.step
    rw [hon]
    rfl
  -- the counters of the thread are those of the history
  have hgive : t.clientStage = .top → (GivesUp t log ↔
      2 < t.nConnectResetCount ∧ t.client.cp.scene.appOrder ≠ appOrderCharging) := by
    intro htop
    unfold GivesUp
    rw [hcount.resets (by simp [htop])]
    rfl
  rw [hstep]
  refine ⟨⟨?_, ?_⟩, ⟨?_, ?_⟩, ?_⟩
  · intro hc
    obtain ⟨t', hc⟩ := hc
    cases Station.clientTurn_cases hc with
    | cycles htop hnet hadm h9 hgo hs ho =>
      exact ⟨(Exhausted.iff hcount).mpr ⟨htop, hnet, hadm, h9⟩, fun hg => hgo ((hgive htop).mp hg)⟩
    | acts e s l fc ws g hnot hj hun hg hs ho =>
      cases l with
      | nil => cases ho
      | cons y l => simp at ho
    | waits hs ho | links hstage g ws hg hs ho | fails hstage hc hs ho | connects hstage hc hs ho
    | leaves htop hnet hadm h9 hgo hs ho | reboots hstage hs ho => simp at ho
  · intro hx
    obtain ⟨hx, hno⟩ := hx
    rw [hx.turn hcount]
    unfold Station.connectReset
    dsimp only
    rw [if_neg fun hgo => hno ((hgive hx.top).mpr hgo)]
    exact ⟨_, rfl⟩
  · intro hc
    obtain ⟨t', hc⟩ := hc
    cases Station.clientTurn_cases hc with
    | leaves htop hnet hadm h9 hgo hs ho =>
      exact ⟨(Exhausted.iff hcount).mpr ⟨htop, hnet, hadm, h9⟩, (hgive htop).mpr hgo⟩
    | acts e s l fc ws g hnot hj hun hg hs ho =>
      cases l with
      | nil => cases ho
      | cons y l => simp at ho
    | waits hs ho | links hstage g ws hg hs ho | fails hstage hc hs ho | connects hstage hc hs ho
    | cycles htop hnet hadm h9 hgo hs ho | reboots hstage hs ho => simp at ho
  · intro hx
    obtain ⟨hx, hgo⟩ := hx
    rw [hx.turn hcount]
    unfold Station.connectReset
    dsimp only
    rw [if_pos ((hgive hx.top).mp hgo)]
    exact ⟨_, rfl⟩
  · intro hx
    obtain ⟨-, -, -, h9⟩ := (Exhausted.iff hcount).mp hx
    exact hcount.down (by omega)

/-- The turns to the first connect, and to the one after it. -/
def connectTurns (n : Nat) (connectOk : Bool) : List Turn :=
  List.replicate (3 + 4 * n) (.client (.fair 0 connectOk))

set_option maxRecDepth 20000 in
theorem server_given_up_cycled : ∃ t log, StationRun t log ∧ failedSince log = 10 ∧
    ∃ t', t.step (.client (.fair 0 false)) = some (t', [.cycled]) := by
  have hrun : (exec Station.step (fun _ _ _ => true) (Station.init 3 0 0) []
      (connectTurns 10 false)).any
      (fun r => r.1.clientStage == .top && !r.1.rebooted && failedSince r.2 == 10 &&
        cycledSince r.2 == 0) = true := by decide +kernel
  obtain ⟨t, log, h, hp⟩ := exists_stationRun_of_exec
    (p := fun t log => t.clientStage == .top && !t.rebooted && failedSince log == 10 &&
      cycledSince log == 0) hrun
  simp only [Bool.and_eq_true, beq_iff_eq, Bool.not_eq_true'] at hp
  obtain ⟨⟨⟨htop, hon⟩, hten⟩, hnone⟩ := hp
  refine ⟨t, log, h, hten, (server_given_up_iff h hon _).1.mpr ⟨⟨htop, rfl, rfl, ?_⟩, ?_⟩⟩
  · rw [hten, hnone]
  · intro hgo
    have hthree := hgo.1
    omega

/-! ## A Reset is obeyed -/

/-- The connector in use is charging, or about to. -/
def Occupied (c : Charger) : Prop :=
  ∃ i, c.devConn = some i ∧ (c.cs.bCpStat i = .charging ∨ c.cs.bCpStat i = .prepare)

/-- The connector in use is known, and it is neither. -/
def Unoccupied (c : Charger) : Prop :=
  ∃ i, c.devConn = some i ∧ c.cs.bCpStat i ≠ .charging ∧ c.cs.bCpStat i ≠ .prepare

/-- The charge can always be stopped. -/
theorem Station.stopForReset_some (t : Station) :
    ∃ t' o, t.stopForReset = some (t', o) ∧ .chargeStopped ∈ o := by
  refine ⟨_, _, rfl, ?_⟩
  exact List.mem_append_right _ List.mem_cons_self

/-- The turn at the Reset. -/
theorem Station.resetTurn {t : Station} (r : Reading) (hon : t.rebooted = false)
    (hstage : t.statusStage = .reset) : t.step (.status r) =
      if t.client.cp.cs.bReqResetNo = 0 then some ({ t with statusStage := .netCon }, [])
      else t.client.cp.devConn.bind fun i =>
        if t.client.cp.cs.bCpStat i = .charging ∨ t.client.cp.cs.bCpStat i = .prepare then
          ({ t with statusStage := .netCon } : Station).stopForReset
        else some ({ t with statusStage := .leaving .reset },
          [.rebooting .reset t.client.cp]) := by
  simp only [step, hon, Bool.false_eq_true, if_false, statusTurn, hstage]

/-- **A Reset is obeyed.** In every run, wherever the status task comes to the Reset: it decides to
reboot exactly if a Reset was accepted at any time before and the connector is neither charging nor
prepared, and it stops the charge exactly if one was accepted and the connector is. -/
theorem reset_obeyed_iff {t : Station} {log : List StationObs} (h : StationRun t log)
    (hon : t.rebooted = false) (hstage : t.statusStage = .reset) (r : Reading) :
    ((∃ t', t.step (.status r) = some (t', [.rebooting .reset t.client.cp])) ↔
      (∃ x ∈ entries log, ordersReset x) ∧ Unoccupied t.client.cp) ∧
    ((∃ t' o, t.step (.status r) = some (t', o) ∧ .chargeStopped ∈ o) ↔
      (∃ x ∈ entries log, ordersReset x) ∧ Occupied t.client.cp) := by
  rw [← h.journaled.reset_iff, Station.resetTurn r hon hstage]
  by_cases hreq : t.client.cp.cs.bReqResetNo = 0
  · rw [if_pos hreq]
    simp [hreq]
  · rw [if_neg hreq]
    cases hdev : t.client.cp.devConn with
    | none => simp [Occupied, Unoccupied, hdev]
    | some i =>
      rw [Option.bind_some]
      -- an occupied connector has its charge stopped, and the reboot is put off
      by_cases hocc : t.client.cp.cs.bCpStat i = .charging ∨ t.client.cp.cs.bCpStat i = .prepare
      · rw [if_pos hocc]
        obtain ⟨t', o, hstop, hm⟩ := Station.stopForReset_some { t with statusStage := .netCon }
        have hyes : Occupied t.client.cp := ⟨i, hdev, hocc⟩
        refine ⟨⟨fun hr => ?_, fun hr => ?_⟩, ⟨fun _ => ⟨hreq, hyes⟩, fun _ => ⟨t', o, hstop, hm⟩⟩⟩
        · obtain ⟨u, hu⟩ := hr
          rw [hstop] at hu
          cases hu
          simp at hm
        · obtain ⟨-, j, hj, hne⟩ := hr
          rw [hdev] at hj
          cases hj
          exact (not_or.mpr hne hocc).elim
      · rw [if_neg hocc]
        have hno : Unoccupied t.client.cp := ⟨i, hdev, not_or.mp hocc⟩
        refine ⟨⟨fun _ => ⟨hreq, hno⟩, fun _ => ⟨_, rfl⟩⟩, ⟨fun hr => ?_, fun hr => ?_⟩⟩
        · obtain ⟨u, o, hu, hm⟩ := hr
          cases hu
          simp at hm
        · obtain ⟨-, j, hj, hyes⟩ := hr
          rw [hdev] at hj
          cases hj
          exact absurd hyes hocc

/-- A Reset comes in, and the status task comes to it. -/
def resetTurns : List Turn :=
  connectTurns 1 true ++
    [ .other (.env (.setCpStatus .avail 0)),
      .other (.recv "[2,\"9\",\"Reset\",\x7b\"type\":\"Soft\"\x7d]".toList .zero (.reading 0 0)
        true) ] ++
    List.replicate 7 (.status (.fair 0 true))

set_option maxRecDepth 20000 in
theorem reset_obeyed_reboots : ∃ t log, StationRun t log ∧
    ∃ t', t.step (.status (.fair 0 true)) = some (t', [.rebooting .reset t.client.cp]) := by
  have hrun : (exec Station.step (fun _ _ _ => true) (Station.init 3 0 0) [] resetTurns).any
      (fun r => decide (r.1.statusStage = .reset) && !r.1.rebooted &&
        (entries r.2).any ordersReset && !r.1.client.cp.bDevChannel &&
        decide (r.1.client.cp.cs.bCpStat 1 = .none)) = true := by decide +kernel
  obtain ⟨t, log, h, hp⟩ := exists_stationRun_of_exec
    (p := fun t log => decide (t.statusStage = .reset) && !t.rebooted &&
      (entries log).any ordersReset && !t.client.cp.bDevChannel &&
      decide (t.client.cp.cs.bCpStat 1 = .none)) hrun
  simp only [Bool.and_eq_true, decide_eq_true_eq, Bool.not_eq_true', List.any_eq_true] at hp
  obtain ⟨⟨⟨⟨hstage, hon⟩, hord⟩, hch⟩, hstat⟩ := hp
  refine ⟨t, log, h, (reset_obeyed_iff h hon hstage _).1.mpr ⟨hord, 1, ?_, ?_⟩⟩
  · unfold Charger.devConn
    rw [hch]
    rfl
  · simp [hstat]

end ChargePoint
