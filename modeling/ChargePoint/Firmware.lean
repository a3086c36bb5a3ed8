import ChargePoint.Orders
import ChargePoint.Correlation

/-!
# Reporting an update of the firmware

Two threads move `fwUpdateVals.updateStep`: the screens' task, which carries the update out
(`sTopStatusTaskFuntion`, `UpgradePackage`), and the client, which reports a step and puts another
one in its place. Whatever is skipped when the updater is ahead, `reportedBefore` bounds what has
been reported when the variable holds a step, and every report and every write respects it.
-/

set_option autoImplicit false

namespace ChargePoint

open Trace
open scoped List

/-! ## The updater

The part of the status task that carries an update out is a machine of its own here. It waits for
the date, downloads, checks, installs, and writes the step where the source does. The outcome of
what it does is an input. -/

/-- Where the updater is. -/
inductive Updater
  /-- in front of `CheckUpdateFwDate` -/
  | checkDate
  /-- the date has come -/
  | start
  /-- in `OpenFtpPackage` -/
  | download
  /-- in `ugCheckCrc` -/
  | crc
  /-- in `ugUpgradePackage` -/
  | install
  /-- in front of `checkUpdate` -/
  | finish
  /-- saving the configuration, and about to reboot -/
  | ended
  deriving DecidableEq

/-- **The updater goes on**, with the outcome of what it did: where to, and what it writes. -/
def Updater.next : Updater → Bool → Updater × Option UpdateStep
  | .checkDate, true => (.start, none)
  | .checkDate, false => (.checkDate, none)
  | .start, _ => (.download, some .download)
  | .download, true => (.crc, some .downloaded)
  | .download, false => (.ended, some .downloadFail)
  | .crc, true => (.install, none)
  | .crc, false => (.ended, some .instalFail)
  | .install, true => (.finish, none)
  | .install, false => (.ended, some .instalFail)
  | .finish, _ => (.ended, some .instaled)
  | .ended, _ => (.ended, none)

/-- The client and the updater. -/
structure FwUpdating where
  client : Client
  updater : Updater

inductive FwEvent
  /-- anything the client does, or that happens to it -/
  | client (e : Event)
  | updater (ok : Bool)

inductive FwObs
  /-- the status in a FirmwareStatusNotification -/
  | reported (status : List Char)
  /-- the updater wrote a step -/
  | wrote (u : UpdateStep)
  deriving DecidableEq

/-- The FirmwareStatusNotification that an event makes. -/
def Client.fwReport (s : Client) : Event → List FwObs
  | .netRun k _ _ =>
    if s.bConnect then
      match s.ocppCallSenario k with
      | some (some _, t) =>
        if t.tx.msg.actionCode = .fwStat then [.reported (t.tx.msg.payload 0).propertyContants]
        else []
      | some (none, _) | none => []
    else []
  | .raiseStart _ | .sample _ | .linkDown | .netDown | .recv _ _ _ _ | .recvFail | .env _ => []

def FwUpdating.step (s : FwUpdating) : FwEvent → Option (FwUpdating × List FwObs)
  | .client e => (ChargePoint.step s.client e).map fun r =>
      ({ s with client := r.1 }, s.client.fwReport e)
  | .updater ok =>
    if s.updater = .checkDate ∧ s.client.cp.fw.updateStep ≠ .chkDate then some (s, [])
    else
      let next := s.updater.next ok
      match next.2 with
      | none => some ({ s with updater := next.1 }, [])
      | some u => some (⟨{ s.client with cp := { s.client.cp with
          fw := { s.client.cp.fw with updateStep := u } } }, next.1⟩, [.wrote u])

/-- One update, and no triggered FirmwareStatusNotification: the updater is the only other thread
that writes the step, no UpdateFirmware comes in, and no tick answers a trigger for the status. -/
def oneUpdate (s : FwUpdating) (_ : List FwObs) : FwEvent → Bool
  | .client (.env (.updateStep _)) => false
  | .client (.recv frame _ _ _) =>
    match parseData s.client.callTxMsg.actionCode s.client.dataTransUniqueId clearRxMsgBuff frame with
    | some d => d.rx.msg.actionCode ≠ .cs .updateFw
    | none => true
  | .client (.netRun k _ _) =>
    match s.client.ocppCallSenario k with
    | some (some .trigFw, _) => false
    | some _ | none => true
  | .client _ | .updater _ => true

/-! ## What the client does with the step

A step that is due is reported by a branch behind the trigger switch, which puts another in its
place (`UpdateStep.reported`). All other events of the client leave the variable alone, but for an
UpdateFirmware that comes in. -/

theorem lateCall_fwStat {c : Charger} (h : lateCall c = some .fwStat) :
    c.fw.updateStep ≠ .none ∧ c.fw.updateStep ≠ .chkDate ∧ c.fw.updateStep ≠ .downloading := by
  unfold lateCall at h
  split at h
  · cases h
  · cases hu : c.fw.updateStep with
    | none | chkDate | downloading =>
      rw [hu] at h
      cases h
    | download | downloaded | downloadFail | instal | instaled | instalFail => decide

theorem Client.senarioBooted_fwStat {s t : Client} {k : Clock}
    (h : s.senarioBooted k = some (some .fwStat, t)) : lateCall s.cp = some .fwStat := by
  unfold senarioBooted at h
  split at h
  · rename_i a ha
    obtain ⟨_, _, heq⟩ := Option.map_eq_some_iff.mp h
    obtain rfl := Option.some.inj (Prod.mk.inj heq).1
    exact absurd (firstCall_isFirst ha) (by decide)
  · split at h
    · rename_i a ha
      obtain ⟨_, _, heq⟩ := Option.map_eq_some_iff.mp h
      obtain rfl := Option.some.inj (Prod.mk.inj heq).1
      cases htrig : s.cp.cs.triggerMsgStat <;> rw [htrig] at ha <;> cases ha
    · have hdrop : lateCall s.dropTrigBoot.cp = lateCall s.cp := by
        unfold dropTrigBoot
        split
        · rfl
        · rfl
      dsimp only at h
      split at h
      · rename_i a ha
        obtain ⟨_, _, heq⟩ := Option.map_eq_some_iff.mp h
        obtain rfl := Option.some.inj (Prod.mk.inj heq).1
        exact hdrop ▸ ha
      · split at h
        · obtain ⟨_, _, heq⟩ := Option.map_eq_some_iff.mp h
          cases (Prod.mk.inj heq).1
        · split at h
          · obtain ⟨_, _, heq⟩ := Option.map_eq_some_iff.mp h
            cases (Prod.mk.inj heq).1
          · cases (Prod.mk.inj (Option.some.inj h)).1

/-- Only a step that is due is reported. -/
theorem Client.senario_fwStat {s t : Client} {k : Clock}
    (h : s.ocppCallSenario k = some (some .fwStat, t)) :
    s.cp.fw.updateStep ≠ .none ∧ s.cp.fw.updateStep ≠ .chkDate ∧
      s.cp.fw.updateStep ≠ .downloading := by
  unfold ocppCallSenario at h
  split at h
  · cases (Prod.mk.inj (Option.some.inj h)).1
  · split at h
    · dsimp only at h
      split at h
      · obtain ⟨_, _, heq⟩ := Option.map_eq_some_iff.mp h
        cases (Prod.mk.inj heq).1
      · cases (Prod.mk.inj (Option.some.inj h)).1
    · split at h
      · cases h
      · obtain ⟨_, _, heq⟩ := Option.map_eq_some_iff.mp h
        cases (Prod.mk.inj heq).1
      · rename_i c hc
        obtain ⟨f, rfl⟩ := checkMeterTime_eq hc
        have hlate := senarioBooted_fwStat h
        exact lateCall_fwStat hlate

/-- **What a step of the client does to the update**: nothing, or it reports the step and moves
it on. -/
def Client.FwMoves (s : Client) (e : Event) (s' : Client) : Prop :=
  (s'.cp.fw = s.cp.fw ∧ s.fwReport e = []) ∨
    (s.cp.fw.updateStep ≠ .none ∧ s.cp.fw.updateStep ≠ .chkDate ∧
      s.cp.fw.updateStep ≠ .downloading ∧ s'.cp.fw.updateStep = s.cp.fw.updateStep.reported ∧
      s.fwReport e = [.reported (fwStatText s.cp.fw.updateStep)])

theorem Client.tick_fwMoves {s s' t : Client} {k : Clock} {sendOk connectOk : Bool} {a : Call}
    (hc : s.bConnect = true) (hsen : s.ocppCallSenario k = some (some a, t)) (ha : a ≠ .trigFw)
    (hcp : s'.cp.fw = t.cp.fw) : s.FwMoves (.netRun k sendOk connectOk) s' := by
  obtain ⟨-, f, tr, -, tx, v, hbuild, rfl⟩ := senario_some hsen
  have hreport : s.fwReport (.netRun k sendOk connectOk) =
      if tx.msg.actionCode = .fwStat then [.reported (tx.msg.payload 0).propertyContants] else [] := by
    unfold fwReport
    simp only [hsen, hc, if_true]
  have hprepare : (a.prepare k (s.cp.pulse f tr)).fw = s.cp.fw :=
    congrArg Orders.fw (Call.prepare_orders a k (s.cp.pulse f tr))
  have hfinish : (a.finish (a.prepare k (s.cp.pulse f tr))).fw = _ :=
    congrArg Orders.fw (Call.finish_orders a (a.prepare k (s.cp.pulse f tr)))
  have hkept := hcp.trans hfinish
  have haction := (Call.build_header hbuild).2
  by_cases hfw : a = .fwStat
  · subst hfw
    obtain ⟨hnone, hdate, hdown⟩ := senario_fwStat hsen
    obtain rfl := Option.some.inj hbuild
    refine .inr ⟨hnone, hdate, hdown, congrArg FwUpdate.updateStep hkept, ?_⟩
    exact hreport.trans (if_pos rfl)
  · have hother : a.action ≠ .fwStat := by
      intro hact
      cases a with
      | fwStat => exact hfw rfl
      | trigFw => exact ha rfl
      | boot | meterVal | stat | dataTransJ1 | auth | mbrUntpc | startTs | stopTs | chargeAmt | q1
      | q2 | trigDiag | trigHb | trigMeter | trigStat | diagStat | hb | cpSts => cases hact
    refine .inl ⟨?_, ?_⟩
    · rw [hkept, if_neg hfw]
      exact hprepare
    · rw [hreport, haction, if_neg hother]

theorem step_fwMoves {s s' : Client} {e : Event} {o : List Obs} {u : Updater} {log : List FwObs}
    (hok : oneUpdate ⟨s, u⟩ log (.client e) = true) (h : ChargePoint.step s e = some (s', o)) :
    s.FwMoves e s' := by
  -- only a tick reports
  have hsilent : (∀ k sendOk connectOk, e = .netRun k sendOk connectOk → s.bConnect = false) →
      s.fwReport e = [] := by
    intro hrun
    cases e with
    | netRun k sendOk connectOk =>
      unfold Client.fwReport
      rw [hrun k sendOk connectOk rfl]
      rfl
    | raiseStart | sample | linkDown | netDown | recv | recvFail | env => rfl
  cases step_cases h with
  | quiet f rx b hs ho hrun =>
    subst hs
    exact .inl ⟨rfl, hsilent fun k sendOk connectOk he => (hrun k sendOk connectOk he).1⟩
  | raised k he hreq hs ho =>
    subst hs he
    exact .inl ⟨rfl, rfl⟩
  | sampled k f ty he hty hdue hs ho =>
    subst hs he
    exact .inl ⟨rfl, rfl⟩
  | connected k sendOk he hc hs ho =>
    subst hs he
    exact .inl ⟨rfl, hsilent fun _ _ _ _ => hc⟩
  | ticked k sendOk connectOk he hc ht =>
    subst he
    -- in an update nobody triggers a report
    have hnottrig : ∀ a t, s.ocppCallSenario k = some (some a, t) → a ≠ .trigFw := by
      intro a t hsen htrig
      subst htrig
      simp only [oneUpdate, hsen] at hok
      cases hok
    simp only [ChargePoint.step, Client.netRun, hc, if_true, Client.tick] at h
    split at h
    · cases h
    · rename_i t hsen
      obtain ⟨rfl, rfl⟩ := Prod.mk.inj (Option.some.inj h)
      have hreport : s.fwReport (.netRun k sendOk connectOk) = [] := by
        unfold Client.fwReport
        simp only [hsen, ite_self]
      rcases Client.senario_none hsen with ⟨w, rfl⟩ | ⟨-, f, tr, v, rfl⟩ | ⟨-, w, rfl⟩
      · exact .inl ⟨rfl, hreport⟩
      · exact .inl ⟨rfl, hreport⟩
      · exact .inl ⟨rfl, hreport⟩
    · rename_i a t hsen
      obtain ⟨rfl, -⟩ := Prod.mk.inj (Option.some.inj h)
      exact Client.tick_fwMoves hc hsen (hnottrig a t hsen)
        (congrArg Charger.fw (Client.trans_cp t k sendOk))
  | received frame j k sendOk he hc hr =>
    subst he
    refine .inl ⟨?_, rfl⟩
    simp only [ChargePoint.step, hc, if_true] at h
    rcases Client.recv_cp h with hcp | ⟨rx, hconf⟩ | ⟨rx, dt, cmd, tx, hparse, hact, hserve⟩
    · rw [hcp]
    · exact congrArg Orders.fw (rxCallResDataProc_orders hconf)
    · have hcmd : cmd ≠ .updateFw := by
        intro heq
        simp only [oneUpdate, hparse, hact, heq] at hok
        cases hok
      exact (congrArg Orders.fw (rxCallDataProc_orders hserve)).trans (if_neg hcmd)
  | env w c he hw hs =>
    subst hs he
    refine .inl ⟨?_, rfl⟩
    cases w with
    | updateStep u => cases hok
    | setCpStatus code ch =>
      obtain ⟨i, -, heq⟩ := Option.map_eq_some_iff.mp hw
      obtain ⟨rfl, -⟩ := Prod.mk.inj heq
      rfl
    | scene | reqStopTs | reqStartTs | reqAuth | scndCardNo | clearParentId | qrEvent | rmtStart
    | rmtStop | diagLogReqStep | chargingStatus | devChannel | stopTsConfig =>
      obtain ⟨rfl, -⟩ := Prod.mk.inj (Option.some.inj hw)
      rfl

/-! ## What has been reported

The variable is one, and the updater does not wait for the client. A step may be overwritten
before it was reported, but a report replaces it only by one that comes later. So the step bounds
what has been reported, from above while the update is under way, and at its outcome nothing can
come after. -/

/-- The outcomes of an update. -/
def UpdateStep.isTerminal : UpdateStep → Bool
  | .downloadFail | .instaled | .instalFail => true
  | .none | .chkDate | .download | .downloading | .downloaded | .instal => false

/-- The statuses before the outcome, in order. -/
def progress : List (List Char) :=
  [fwStatText .download, fwStatText .downloaded, fwStatText .instal]

/-- The statuses of a log. -/
def reports (log : List FwObs) : List (List Char) :=
  log.filterMap fun
    | .reported status => some status
    | .wrote _ => none

theorem reports_append (log o : List FwObs) : reports (log ++ o) = reports log ++ reports o :=
  List.filterMap_append

/-- **How an update is reported**: a subsequence of Downloading, Downloaded and Installing, with at
most one outcome at its end; and an outcome that was written stays until it has been reported. -/
structure ReportsOk (s : FwUpdating) (log : List FwObs) : Prop where
  order : ∃ l t, reports log = l ++ t ∧ l <+ progress ∧
    (t = [] ∨ ∃ u : UpdateStep, u.isTerminal = true ∧ t = [fwStatText u])
  kept : ∀ u, u.isTerminal = true → .wrote u ∈ log →
    s.client.cp.fw.updateStep = u ∨ .reported (fwStatText u) ∈ log

/-- What can have been reported while the step is this one, and no outcome has. -/
def reportedBefore : UpdateStep → List (List Char)
  | .chkDate | .download => []
  | .downloading | .downloaded => [fwStatText .download]
  | .instal => [fwStatText .download, fwStatText .downloaded]
  | .none | .downloadFail | .instaled | .instalFail => progress

theorem reportedBefore_progress (u : UpdateStep) : reportedBefore u <+ progress := by
  cases u <;> decide

/-- A report is the next one, or skips some. -/
theorem reportedBefore_reported {u : UpdateStep} (hnone : u ≠ .none) (hdate : u ≠ .chkDate)
    (hdown : u ≠ .downloading) (hterm : u.isTerminal = false) :
    reportedBefore u ++ [fwStatText u] <+ reportedBefore u.reported ∧
      u.reported.isTerminal = false ∧ u.reported ≠ .chkDate := by
  cases u with
  | none => exact absurd rfl hnone
  | chkDate => exact absurd rfl hdate
  | downloading => exact absurd rfl hdown
  | downloadFail | instaled | instalFail => cases hterm
  | download | downloaded | instal => decide

/-- The step is the updater's own until the download has begun. -/
def Updater.Early : Updater → UpdateStep → Prop
  | .checkDate, u | .start, u => u = .chkDate
  | .download, u => u = .download ∨ u = .downloading
  | .crc, _ | .install, _ | .finish, _ => True
  | .ended, _ => False

/-- Before the outcome. -/
structure Underway (s : FwUpdating) (log : List FwObs) : Prop where
  step : s.client.cp.fw.updateStep.isTerminal = false
  reported : reports log <+ reportedBefore s.client.cp.fw.updateStep
  wrote : ∀ u, u.isTerminal = true → .wrote u ∉ log
  early : s.updater.Early s.client.cp.fw.updateStep

/-- After the updater has written the outcome `u`. -/
structure Decided (u : UpdateStep) (s : FwUpdating) (log : List FwObs) : Prop where
  ended : s.updater = .ended
  terminal : u.isTerminal = true
  wrote : ∀ u', u'.isTerminal = true → .wrote u' ∈ log → u' = u
  reported : (s.client.cp.fw.updateStep = u ∧ reports log <+ progress) ∨
    (s.client.cp.fw.updateStep = .none ∧ .reported (fwStatText u) ∈ log ∧
      ∃ l, reports log = l ++ [fwStatText u] ∧ l <+ progress)

def FwInv (s : FwUpdating) (log : List FwObs) : Prop :=
  Underway s log ∨ ∃ u, Decided u s log

section Steps
variable {s s' : FwUpdating} {log o : List FwObs}

/-- The updater writes a step that is no outcome. -/
theorem Underway.write (h : Underway s log) {u : UpdateStep} {next : Updater}
    (hterm : u.isTerminal = false) (hreported : reports log <+ reportedBefore u)
    (hs : s'.client.cp.fw.updateStep = u) (hnext : s'.updater = next)
    (hearly : next.Early u) : Underway s' (log ++ [.wrote u]) := by
  refine ⟨?_, ?_, ?_, ?_⟩
  · rwa [hs]
  · rw [reports_append, hs]
    exact (List.append_nil _).symm ▸ hreported
  · intro u' hu' hmem
    rcases List.mem_append.mp hmem with hmem | hmem
    · exact h.wrote u' hu' hmem
    · obtain rfl := FwObs.wrote.inj (List.mem_singleton.mp hmem)
      rw [hterm] at hu'
      cases hu'
  · rw [hnext, hs]
    exact hearly

/-- The updater writes the outcome. -/
theorem Underway.decide (h : Underway s log) {u : UpdateStep} (hterm : u.isTerminal = true)
    (hs : s'.client.cp.fw.updateStep = u) (hover : s'.updater = .ended) :
    Decided u s' (log ++ [.wrote u]) := by
  refine ⟨hover, hterm, ?_, .inl ⟨hs, ?_⟩⟩
  · intro u' hu' hmem
    rcases List.mem_append.mp hmem with hmem | hmem
    · exact absurd hmem (h.wrote u' hu')
    · exact FwObs.wrote.inj (List.mem_singleton.mp hmem)
  · rw [reports_append]
    exact (List.append_nil _).symm ▸ h.reported.trans (reportedBefore_progress _)

/-- **A step of the updater.** -/
theorem fwInv_updater {ok : Bool} (h : FwInv s log) (hstep : s.step (.updater ok) = some (s', o)) :
    FwInv s' (log ++ o) := by
  unfold FwUpdating.step at hstep
  simp only at hstep
  split at hstep
  · obtain ⟨rfl, rfl⟩ := Prod.mk.inj (Option.some.inj hstep)
    rwa [List.append_nil]
  -- the update is under way, or decided
  rcases h with h | ⟨u, h⟩
  · have hearly := h.early
    have hmove : ∀ next : Updater, next.Early s.client.cp.fw.updateStep →
        FwInv { s with updater := next } (log ++ []) := by
      intro next hnext
      rw [List.append_nil]
      exact .inl ⟨h.step, h.reported, h.wrote, hnext⟩
    -- under way: stage by stage, as the task goes on, writes a step, or fails
    cases hu : s.updater with
    | checkDate =>
      simp only [hu, Updater.Early] at hearly
      cases ok with
      | true =>
        simp only [hu, Updater.next] at hstep
        obtain ⟨rfl, rfl⟩ := Prod.mk.inj (Option.some.inj hstep)
        exact hmove .start hearly
      | false =>
        simp only [hu, Updater.next] at hstep
        obtain ⟨rfl, rfl⟩ := Prod.mk.inj (Option.some.inj hstep)
        exact hmove .checkDate hearly
    | start =>
      simp only [hu, Updater.Early] at hearly
      have hnil : reports log <+ [] := by
        have hreported := h.reported
        rwa [hearly] at hreported
      simp only [hu, Updater.next] at hstep
      obtain ⟨rfl, rfl⟩ := Prod.mk.inj (Option.some.inj hstep)
      exact .inl (h.write rfl hnil rfl rfl (.inl rfl))
    | download =>
      simp only [hu, Updater.Early] at hearly
      cases ok with
      | true =>
        have hone : reports log <+ reportedBefore .downloaded := by
          rcases hearly with hearly | hearly
          · have hreported := h.reported
            rw [hearly] at hreported
            exact hreported.trans (List.nil_sublist _)
          · have hreported := h.reported
            rwa [hearly] at hreported
        simp only [hu, Updater.next] at hstep
        obtain ⟨rfl, rfl⟩ := Prod.mk.inj (Option.some.inj hstep)
        exact .inl (h.write rfl hone rfl rfl trivial)
      | false =>
        simp only [hu, Updater.next] at hstep
        obtain ⟨rfl, rfl⟩ := Prod.mk.inj (Option.some.inj hstep)
        exact .inr ⟨_, h.decide rfl rfl rfl⟩
    | crc =>
      cases ok with
      | true =>
        simp only [hu, Updater.next] at hstep
        obtain ⟨rfl, rfl⟩ := Prod.mk.inj (Option.some.inj hstep)
        exact hmove .install trivial
      | false =>
        simp only [hu, Updater.next] at hstep
        obtain ⟨rfl, rfl⟩ := Prod.mk.inj (Option.some.inj hstep)
        exact .inr ⟨_, h.decide rfl rfl rfl⟩
    | install =>
      cases ok with
      | true =>
        simp only [hu, Updater.next] at hstep
        obtain ⟨rfl, rfl⟩ := Prod.mk.inj (Option.some.inj hstep)
        exact hmove .finish trivial
      | false =>
        simp only [hu, Updater.next] at hstep
        obtain ⟨rfl, rfl⟩ := Prod.mk.inj (Option.some.inj hstep)
        exact .inr ⟨_, h.decide rfl rfl rfl⟩
    | finish =>
      simp only [hu, Updater.next] at hstep
      obtain ⟨rfl, rfl⟩ := Prod.mk.inj (Option.some.inj hstep)
      exact .inr ⟨_, h.decide rfl rfl rfl⟩
    | ended => simp only [hu, Updater.Early] at hearly
  · simp only [h.ended, Updater.next] at hstep
    obtain ⟨rfl, rfl⟩ := Prod.mk.inj (Option.some.inj hstep)
    rw [List.append_nil]
    exact .inr ⟨u, rfl, h.terminal, h.wrote, h.reported⟩

/-- **A step of the client.** -/
theorem fwInv_client {e : Event} (h : FwInv s log) (hok : oneUpdate s log (.client e) = true)
    (hstep : s.step (.client e) = some (s', o)) : FwInv s' (log ++ o) := by
  obtain ⟨⟨c, ob⟩, hc, heq⟩ := Option.map_eq_some_iff.mp hstep
  obtain ⟨rfl, rfl⟩ := Prod.mk.inj heq
  have hmoves := step_fwMoves hok hc
  rcases hmoves with ⟨hsame, hquiet⟩ | ⟨hnone, hdate, hdown, hmoved, hreport⟩
  · rw [hquiet, List.append_nil]
    rcases h with h | ⟨u, h⟩
    · refine .inl ⟨?_, ?_, h.wrote, ?_⟩
      · rw [hsame]
        exact h.step
      · rw [hsame]
        exact h.reported
      · rw [hsame]
        exact h.early
    · refine .inr ⟨u, h.ended, h.terminal, h.wrote, ?_⟩
      rw [hsame]
      exact h.reported
  · rw [hreport]
    have hwrote : ∀ {u : UpdateStep} {status : List Char},
        .wrote u ∈ log ++ [.reported status] → FwObs.wrote u ∈ log := by
      intro u status hmem
      rcases List.mem_append.mp hmem with hmem | hmem
      · exact hmem
      · cases List.mem_singleton.mp hmem
    have hreports : reports (log ++ [.reported (fwStatText s.client.cp.fw.updateStep)]) =
        reports log ++ [fwStatText s.client.cp.fw.updateStep] := reports_append _ _
    rcases h with h | ⟨u, h⟩
    · obtain ⟨hnext, hterm, hdate'⟩ := reportedBefore_reported hnone hdate hdown h.step
      refine .inl ⟨?_, ?_, fun u hu hmem => h.wrote u hu (hwrote hmem), ?_⟩
      · rw [hmoved]
        exact hterm
      · rw [hreports, hmoved]
        exact (h.reported.append (List.Sublist.refl _)).trans hnext
      · have hearly := h.early
        cases hu : s.updater with
        | checkDate | start =>
          simp only [hu, Updater.Early] at hearly
          exact absurd hearly hdate
        | download =>
          simp only [hu, Updater.Early] at hearly
          -- what is reported there is the download
          have hfirst := hearly.resolve_right hdown
          refine .inr ?_
          rw [hmoved, hfirst]
          rfl
        | crc | install | finish => trivial
        | ended => simp only [hu, Updater.Early] at hearly
    · refine .inr ⟨u, h.ended, h.terminal, fun u' hu' hmem => h.wrote u' hu' (hwrote hmem), ?_⟩
      rcases h.reported with ⟨hstepu, hsub⟩ | ⟨hnone', -, -⟩
      · refine .inr ⟨?_, ?_, reports log, ?_, hsub⟩
        · rw [hmoved, hstepu]
          have hterm := h.terminal
          cases u with
          | downloadFail | instaled | instalFail => rfl
          | none | chkDate | download | downloading | downloaded | instal => cases hterm
        · rw [hstepu]
          exact List.mem_append_right _ List.mem_cons_self
        · rw [hreports, hstepu]
      · exact absurd hnone' hnone

theorem fwInv_step {e : FwEvent} (h : FwInv s log) (hok : oneUpdate s log e = true)
    (hstep : s.step e = some (s', o)) : FwInv s' (log ++ o) := by
  cases e with
  | client e => exact fwInv_client h hok hstep
  | updater ok => exact fwInv_updater h hstep

theorem FwInv.reportsOk (h : FwInv s log) : ReportsOk s log := by
  rcases h with h | ⟨u, h⟩
  · refine ⟨⟨reports log, [], (List.append_nil _).symm,
      h.reported.trans (reportedBefore_progress _), .inl rfl⟩, ?_⟩
    intro u hu hmem
    exact absurd hmem (h.wrote u hu)
  · refine ⟨?_, ?_⟩
    · rcases h.reported with ⟨-, hsub⟩ | ⟨-, -, l, hl, hsub⟩
      · exact ⟨reports log, [], (List.append_nil _).symm, hsub, .inl rfl⟩
      · exact ⟨l, [fwStatText u], hl, hsub, .inr ⟨u, h.terminal, rfl⟩⟩
    · intro u' hu' hmem
      obtain rfl := h.wrote u' hu' hmem
      rcases h.reported with ⟨hstep, -⟩ | ⟨-, hrep, -⟩
      · exact .inl hstep
      · exact .inr hrep

end Steps

/-- **An update is reported in order, and its outcome is not lost**, however the updater and the
client take turns. -/
theorem fw_reports {s₀ s : FwUpdating} {log : List FwObs} (hstart : s₀.updater = .checkDate)
    (hdate : s₀.client.cp.fw.updateStep = .chkDate)
    (h : Reach FwUpdating.step (fun s log e => oneUpdate s log e = true) s₀ s log) :
    ReportsOk s log := by
  have hinit : FwInv s₀ [] := by
    refine .inl ⟨?_, ?_, ?_, ?_⟩
    · rw [hdate]
      rfl
    · exact List.nil_sublist _
    · intro u _ hmem
      cases hmem
    · rw [hstart]
      exact hdate
  exact (h.invariant (I := FwInv) hinit fun hI hok hstep => fwInv_step hI hok hstep).reportsOk

/-- A connected client whose charger is available, with an update to come. -/
def FwUpdating.waiting : FwUpdating where
  client :=
    let s := Client.init 3 0
    { s with
        bConnect := true
        cp := { s.cp with
          cs := { s.cp.cs with bCpStat := fun _ => .avail, bPreCpStat := fun _ => .avail }
          fw := ⟨.chkDate, [], []⟩ } }
  updater := .checkDate

/-- The download is reported, fails, and this is reported. -/
def fwFailRun : List FwEvent :=
  [ .updater true, .updater true, .client (.netRun (.reading 1 20) true true), .updater false,
    .client (arrives "[3,\"20\",\x7b\x7d]"), .client (.netRun (.reading 2 21) true true) ]

set_option maxRecDepth 20000 in
theorem fw_reports_fail : ∃ s log,
    Reach FwUpdating.step (fun s log e => oneUpdate s log e = true) .waiting s log ∧
      reports log = [fwStatText .download, fwStatText .downloadFail] ∧ ReportsOk s log := by
  let p : FwUpdating → List FwObs → Bool := fun _ log =>
    decide (reports log = [fwStatText .download, fwStatText .downloadFail])
  have hrun : (exec FwUpdating.step oneUpdate .waiting [] fwFailRun).any
      (fun r => p r.1 r.2) = true := by decide +kernel
  obtain ⟨s, log, hreach, hp⟩ := exists_reach_of_exec hrun
  have hlog : reports log = _ := of_decide_eq_true hp
  exact ⟨s, log, hreach, hlog, fw_reports rfl rfl hreach⟩

end ChargePoint
