import ChargePoint.Station

/-!
# What a turn can do

`clientTurn_cases` and `statusTurn_cases` say once what a turn of either thread does to the station
and what it shows. Each thread leaves the other's variables alone, which the cases show as the
updates they are; what a turn of the status task writes of the client is never the connection.
-/

set_option autoImplicit false

namespace ChargePoint

open Trace

namespace StationObs

/-- A connection was made. -/
def isConnected : StationObs → Bool
  | .client (.inl .connected) => true
  | _ => false

def isFailed : StationObs → Bool
  | .failed => true
  | _ => false

def isCycled : StationObs → Bool
  | .cycled => true
  | _ => false

def isRestored : StationObs → Bool
  | .restored => true
  | _ => false

/-- Of no interest to the threads' variables. -/
def isPlain : StationObs → Bool
  | .client (.inl .connected) => false
  | .client _ | .chargeStopped => true
  | .failed | .cycled | .restored | .lost _ | .rebooting _ _ | .rebooted _ => false

end StationObs

/-- The update has been begun. -/
def StatusStage.updating : StatusStage → Bool
  | .fw .checkDate => false
  | .fw _ => true
  | _ => false

/-! ## The client's events -/

/-- What an event that makes no connection does to the connection, and what it shows. -/
structure Unmade (s s' : Client) (l : List Entry) : Prop where
  live : s'.bConnect = true → s.bConnect = true
  plain : ∀ x ∈ l, StationObs.isPlain (.client x) = true

/-- Only a connect of the client's thread makes a connection. -/
theorem journal_unmade {s s' : Client} {e : Event} {l : List Entry}
    (h : journal s e = some (s', l))
    (hrun : ∀ k sendOk connectOk, e = .netRun k sendOk connectOk → s.bConnect = true) :
    Unmade s s' l := by
  have hquiet : ∀ o : List Obs, ∀ x ∈ (o.map .inr : List Entry),
      StationObs.isPlain (.client x) = true := by
    intro o x hx
    obtain ⟨ob, -, rfl⟩ := List.mem_map.mp hx
    rfl
  obtain ⟨o, hstep, rfl⟩ := annotate_eq h
  -- a client that is connected does not connect
  have hnotes : ∀ x ∈ s.notes e, x ≠ .connected := by
    intro x hx hconn
    subst hconn
    cases e with
    | netRun k sendOk connectOk =>
      have hc := hrun k sendOk connectOk rfl
      simp only [Client.notes, hc, if_true, List.mem_cons] at hx
      rcases hx with hx | hx
      · cases hx
      · split at hx
        · simp at hx
        · split at hx
          · simp at hx
          · cases hx
        · cases hx
    | env w => simp [Client.notes] at hx
    | raiseStart | sample | linkDown | netDown | recv | recvFail => cases hx
  constructor
  · intro hc'
    cases step_noted hstep with
    | quiet f rx b hb hs hn ho =>
      subst hs
      exact hb hc'
    | raised k hreq hs hn ho =>
      subst hs
      exact hc'
    | sampled k f ty hn hs ho =>
      subst hs
      exact hc'
    | connected hc hs hn ho => exact absurd rfl (hnotes .connected (by simp [hn]))
    | idle k f t v w hc hsen hs hn ho => exact hc
    | gaveUp k w hc hw hsen hs hn ho => exact hc
    | failed k a f t tx d v hc hw hsen hg hb hs hn ho => exact hc
    | called k a f t tx d v hc hw hsen hg hb hs hn ho => exact hc
    | dropped rx d b hc hs hn ho => exact hc
    | answered frame rx d c hc hw hact hid hproc hs hn ho => exact hc
    | served frame rx rx' d b cmd j c tx tx' sent hc hcmd hproc hs hsent hgate hn ho => exact hc
    | env w c hw hs hn =>
      subst hs
      exact hc'
  · intro x hx
    rcases List.mem_append.mp hx with hx | hx
    · obtain ⟨n, hn, rfl⟩ := List.mem_map.mp hx
      cases n with
      | connected => exact absurd rfl (hnotes .connected hn)
      | ticked | made | gaveUp | wrote => rfl
    · exact hquiet o x hx

theorem Other.unmade {s s' : Client} {x : Other} {l : List Entry}
    (h : journal s x.event = some (s', l)) : Unmade s s' l := by
  apply journal_unmade h
  intro k sendOk connectOk he
  cases x with
  | recv | recvFail | env => cases he

namespace Station

theorem does_eq {t t' : Station} {e : Event} {o : List StationObs} (h : t.does e = some (t', o)) :
    ∃ s l, journal t.client e = some (s, l) ∧ t' = { t with client := s } ∧
      o = l.map .client := by
  obtain ⟨⟨s, l⟩, hstep, heq⟩ := Option.map_eq_some_iff.mp h
  obtain ⟨rfl, rfl⟩ := Prod.mk.inj heq
  exact ⟨s, l, hstep, rfl, rfl⟩

/-! ## The client's thread

A turn makes a connect, which fails or does not, or comes to the end of the ten, or is of no
interest to the counts. Each case has the stage it starts from and the one it ends in. -/

/-- **What a turn of `WSClientThread` can have done.** -/
inductive ClientTurned (t : Station) (r : Reading) (t' : Station) (o : List StationObs) : Prop
  /-- a gate is closed -/
  | waits (hs : t' = t) (ho : o = [])
  /-- the link is up -/
  | links (hstage : t.clientStage = .link) (g : ClientStage) (ws : Bool)
      (hg : g = .top ∨ g = .run)
      (hs : t' = { t with iteEthGetLinkWs := ws, clientStage := g }) (ho : o = [])
  /-- the client does something that makes no connection -/
  | acts (e : Event) (s : Client) (l : List Entry) (fc ws : Bool) (g : ClientStage)
      (hnot : t.clientStage ≠ .leaving)
      (hj : journal t.client e = some (s, l)) (hun : Unmade t.client s l)
      (hg : g = .top ∨ g = .link ∧ t.clientStage = .sample ∨ g = .sample ∧ t.nConnectCheck ≤ 9)
      (hs : t' = { t with
        client := s, firstConnectFlg := fc, iteEthGetLinkWs := ws, clientStage := g })
      (ho : o = l.map .client)
  | fails (hstage : t.clientStage = .run) (hc : t.client.bConnect = false)
      (hs : t' = { t with nConnectCheck := t.nConnectCheck + 1, clientStage := .top })
      (ho : o = [.failed])
  | connects (hstage : t.clientStage = .run) (hc : t.client.bConnect = false)
      (hs : t' = { t with
        client := { t.client with bConnect := true, bWaitResFlg := false },
        nConnectCheck := 0, nConnectResetCount := 0, clientStage := .top })
      (ho : o = [.client (.inl .connected)])
  /-- ten connects failed, and the router is switched off and on -/
  | cycles (hstage : t.clientStage = .top) (hnet : r.userAuthNet = true)
      (hadm : r.bGloAdminStatus = false) (h9 : 9 < t.nConnectCheck)
      (hgo : ¬ (2 < t.nConnectResetCount ∧ t.client.cp.scene.appOrder ≠ appOrderCharging))
      (hs : t' = { t with nConnectCheck := 0, nConnectResetCount := t.nConnectResetCount + 1 })
      (ho : o = [.cycled])
  /-- ten connects failed, and the station is to reboot -/
  | leaves (hstage : t.clientStage = .top) (hnet : r.userAuthNet = true)
      (hadm : r.bGloAdminStatus = false) (h9 : 9 < t.nConnectCheck)
      (hgo : 2 < t.nConnectResetCount ∧ t.client.cp.scene.appOrder ≠ appOrderCharging)
      (hs : t' = { t with
        nConnectResetCount := t.nConnectResetCount + 1, clientStage := .leaving })
      (ho : o = [.rebooting .noServer t.client.cp])
  | reboots (hstage : t.clientStage = .leaving) (hs : t' = { t with rebooted := true })
      (ho : o = [.rebooted .noServer])

theorem clientTurn_cases {t t' : Station} {r : Reading} {o : List StationObs}
    (h : t.clientTurn r = some (t', o)) : ClientTurned t r t' o := by
  -- stage by stage, as `WSClientThread` goes through its loop
  unfold clientTurn at h
  split at h
  · rename_i hstage
    split at h
    · cases h
      exact .waits rfl rfl
    · rename_i hnet
      split at h
      · cases h
        exact .waits rfl rfl
      · rename_i hadm
        split at h
        · rename_i h9
          have hnet : r.userAuthNet = true := by simpa using hnet
          have hadm : r.bGloAdminStatus = false := by simpa using hadm
          unfold connectReset at h
          dsimp only at h
          split at h
          · rename_i hgo
            cases h
            exact .leaves hstage hnet hadm h9 hgo rfl rfl
          · rename_i hgo
            cases h
            exact .cycles hstage hnet hadm h9 hgo rfl rfl
        · rename_i h9
          split at h
          · cases h
            exact .waits rfl rfl
          · obtain ⟨s, l, hj, rfl, rfl⟩ := does_eq h
            exact .acts _ s l true t.iteEthGetLinkWs .sample (by simp [hstage]) hj
              (journal_unmade hj fun _ _ _ he => by cases he)
              (.inr (.inr ⟨rfl, by omega⟩)) rfl rfl
  · rename_i hstage
    obtain ⟨s, l, hj, rfl, rfl⟩ := does_eq h
    exact .acts _ s l t.firstConnectFlg t.iteEthGetLinkWs .link (by simp [hstage]) hj
      (journal_unmade hj fun _ _ _ he => by cases he) (.inr (.inl ⟨rfl, hstage⟩)) rfl rfl
  · rename_i hstage
    split at h
    · obtain ⟨s, l, hj, rfl, rfl⟩ := does_eq h
      exact .acts _ s l t.firstConnectFlg false .top (by simp [hstage]) hj
        (journal_unmade hj fun _ _ _ he => by cases he) (.inl rfl) rfl rfl
    · split at h
      · cases h
        exact .links hstage .top true (.inl rfl) rfl rfl
      · cases h
        exact .links hstage .run t.iteEthGetLinkWs (.inr rfl) rfl rfl
  · rename_i hstage
    dsimp only at h
    split at h
    · unfold netRun at h
      split at h
      · rename_i hc
        obtain ⟨s, l, hj, rfl, rfl⟩ := does_eq h
        exact .acts _ s l t.firstConnectFlg t.iteEthGetLinkWs .top (by simp [hstage]) hj
          (journal_unmade hj fun _ _ _ _ => hc) (.inl rfl) rfl rfl
      · rename_i hc
        have hc : t.client.bConnect = false := by simpa using hc
        split at h
        · obtain ⟨s, l, hj, rfl, rfl⟩ := does_eq h
          obtain ⟨o, hstep, rfl⟩ := annotate_eq hj
          simp only [ChargePoint.step, Client.netRun, hc, Bool.false_eq_true, if_false,
            Option.some.injEq, Prod.mk.injEq] at hstep
          obtain ⟨rfl, rfl⟩ := hstep
          refine .connects hstage hc rfl ?_
          simp [Client.notes, hc]
        · obtain ⟨u, o₁, o₂, hu, hlast, rfl⟩ := andThen_eq h
          cases hlast
          obtain ⟨s, l, hj, rfl, rfl⟩ := does_eq hu
          obtain ⟨o, hstep, rfl⟩ := annotate_eq hj
          simp only [ChargePoint.step, Client.netRun, hc, Bool.false_eq_true, if_false,
            Option.some.injEq, Prod.mk.injEq] at hstep
          obtain ⟨rfl, rfl⟩ := hstep
          have hsame : t.client.wsServerConnect false = t.client := by
            simp only [Client.wsServerConnect, Bool.false_eq_true, if_false]
            rw [← hc]
          refine .fails hstage hc ?_ ?_
          · rw [hsame]
          · simp [Client.notes, hc]
    · obtain ⟨s, l, hj, rfl, rfl⟩ := does_eq h
      exact .acts _ s l t.firstConnectFlg t.iteEthGetLinkWs .top (by simp [hstage]) hj
        (journal_unmade hj fun _ _ _ he => by cases he) (.inl rfl) rfl rfl
  · rename_i hstage
    cases h
    exact .reboots hstage rfl rfl

/-! ## The status task

`Due` is when the task decides to reboot, cause by cause. The cases of a turn that decides
nothing are told apart by what they do to the note of the loss and to the update. -/

/-- What the status task decides to reboot for, and when. -/
def Due (t : Station) : RebootCause → Prop
  | .noServer | .update => False
  | .netError now =>
    t.netErrorFlg = false ∧ 5 < errorMinute (now - t.netErrorTime) ∧
      t.client.cp.scene.appOrder ≠ appOrderCharging
  | .reset =>
    t.client.cp.cs.bReqResetNo ≠ 0 ∧ ∃ i, t.client.cp.devConn = some i ∧
      t.client.cp.cs.bCpStat i ≠ .charging ∧ t.client.cp.cs.bCpStat i ≠ .prepare

/-- **What a turn of `sTopStatusTaskFuntion` can have done.** -/
inductive StatusTurned (t : Station) (r : Reading) (t' : Station) (o : List StationObs) : Prop
  /-- it goes on, and may write variables of the client -/
  | goes (g : StatusStage) (b : Bool) (s : Client) (hg : ∀ cause, g ≠ .leaving cause)
      (hupd : g.updating = true →
        t.statusStage.updating = true ∨ t.client.cp.fw.updateStep = .chkDate)
      (hlive : s.bConnect = t.client.bConnect)
      (hs : t' = { t with client := s, statusStage := g, lastSeccConSetVal := b })
      (ho : ∀ m ∈ o, m.isPlain = true)
  | restores (g : StatusStage) (b : Bool) (hg : g = .connected ∨ g = .lost)
      (hs : t' = { t with statusStage := g, lastSeccConSetVal := b, netErrorFlg := true })
      (ho : o = [.restored])
  | loses (hflg : t.netErrorFlg = true)
      (hs : t' = { t with
        statusStage := .judge, netErrorFlg := false, netErrorTime := r.now })
      (ho : o = [.lost r.now])
  | leaves (cause : RebootCause) (hdue : t.Due cause)
      (hs : t' = { t with statusStage := .leaving cause })
      (ho : o = [.rebooting cause t.client.cp])
  | reboots (cause : RebootCause)
      (hstage : t.statusStage = .leaving cause ∨ t.statusStage = .fw .ended ∧ cause = .update)
      (hs : t' = { t with rebooted := true }) (ho : o = [.rebooted cause])

/-- What a write of the status task leaves alone. -/
theorem writes_eq {t t' : Station} {w : EnvWrite} {o : List StationObs}
    (h : t.writes w = some (t', o)) :
    ∃ s, t' = { t with client := s } ∧ s.bConnect = t.client.bConnect ∧
      ∀ m ∈ o, m.isPlain = true := by
  obtain ⟨s, l, hj, rfl, rfl⟩ := does_eq h
  have hun := journal_unmade hj fun _ _ _ he => by cases he
  refine ⟨s, rfl, ?_, ?_⟩
  · obtain ⟨o, hstep, -⟩ := annotate_eq hj
    obtain ⟨c, -, heq⟩ := Option.map_eq_some_iff.mp hstep
    obtain ⟨rfl, -⟩ := Prod.mk.inj heq
    rfl
  · intro m hm
    obtain ⟨x, hx, rfl⟩ := List.mem_map.mp hm
    exact hun.plain x hx

theorem stopForReset_eq {t t' : Station} {o : List StationObs}
    (h : t.stopForReset = some (t', o)) :
    ∃ s, t' = { t with client := s } ∧ s.bConnect = t.client.bConnect ∧
      ∀ m ∈ o, m.isPlain = true := by
  obtain ⟨u, o₁, o₂, hu, hlast, rfl⟩ := andThen_eq h
  cases hlast
  obtain ⟨s, rfl, hlive, hplain⟩ := writes_eq hu
  refine ⟨s, rfl, hlive, ?_⟩
  intro m hm
  rcases List.mem_append.mp hm with hm | hm
  · exact hplain m hm
  · rw [List.mem_singleton.mp hm]
    rfl

theorem closeForUpdate_eq {t t' : Station} {o : List StationObs}
    (h : t.closeForUpdate = some (t', o)) :
    ∃ s, t' = { t with client := s } ∧ s.bConnect = t.client.bConnect ∧
      ∀ m ∈ o, m.isPlain = true := by
  obtain ⟨u, o₁, o₂, hu, hrest, rfl⟩ := andThen_eq h
  obtain ⟨v, o₃, o₄, hv, hw, rfl⟩ := andThen_eq hrest
  obtain ⟨s₁, rfl, hlive₁, hplain₁⟩ := writes_eq hu
  obtain ⟨s₂, rfl, hlive₂, hplain₂⟩ := writes_eq hv
  obtain ⟨s₃, rfl, hlive₃, hplain₃⟩ := writes_eq hw
  refine ⟨s₃, rfl, hlive₃.trans (hlive₂.trans hlive₁), ?_⟩
  intro m hm
  simp only [List.mem_append] at hm
  rcases hm with hm | hm | hm
  · exact hplain₁ m hm
  · exact hplain₂ m hm
  · exact hplain₃ m hm

theorem updateTurn_cases {t t' : Station} {u : Updater} {r : Reading} {o : List StationObs}
    (hstage : t.statusStage = .fw u) (h : t.updateTurn u r = some (t', o)) :
    StatusTurned t r t' o := by
  unfold updateTurn at h
  split at h
  · split at h
    · rename_i hdue
      obtain ⟨s, rfl, hlive, hplain⟩ := closeForUpdate_eq h
      exact .goes (.fw .start) t.lastSeccConSetVal s (by simp) (fun _ => .inr hdue.1) hlive rfl
        hplain
    · cases h
      exact .goes .reset t.lastSeccConSetVal t.client (by simp) (by simp [StatusStage.updating])
        rfl rfl (by simp)
  · cases h
    exact .reboots .update (.inr ⟨hstage, rfl⟩) rfl rfl
  · rename_i hdate hended
    have hupd : t.statusStage.updating = true := by
      rw [hstage]
      cases u with
      | checkDate => exact absurd rfl hdate
      | ended => exact absurd rfl hended
      | start | download | crc | install | finish => rfl
    dsimp only at h
    split at h
    · cases h
      exact .goes _ t.lastSeccConSetVal t.client (by simp) (fun _ => .inl hupd) rfl rfl (by simp)
    · obtain ⟨s, rfl, hlive, hplain⟩ := writes_eq h
      exact .goes _ t.lastSeccConSetVal s (by simp) (fun _ => .inl hupd) hlive rfl hplain

theorem statusTurn_cases {t t' : Station} {r : Reading} {o : List StationObs}
    (h : t.statusTurn r = some (t', o)) : StatusTurned t r t' o := by
  have hgoes : ∀ (g : StatusStage) (b : Bool), (∀ cause, g ≠ .leaving cause) →
      g.updating = false →
      StatusTurned t r { t with statusStage := g, lastSeccConSetVal := b } [] :=
    fun g b hg hupd => .goes g b t.client hg (by simp [hupd]) rfl rfl (by simp)
  -- stage by stage, as `sTopStatusTaskFuntion` goes through its loop
  unfold statusTurn at h
  split at h
  · unfold setNetCon at h
    split at h
    · cases h
      exact hgoes .connected t.lastSeccConSetVal (by simp) rfl
    · split at h
      · cases h
        exact .restores .connected true (.inl rfl) rfl rfl
      · cases h
        exact hgoes .connected false (by simp) rfl
  · dsimp only at h
    split at h
    · cases h
      exact .restores .lost t.lastSeccConSetVal (.inr rfl) rfl rfl
    · cases h
      exact hgoes .lost t.lastSeccConSetVal (by simp) rfl
  · dsimp only at h
    split at h
    · rename_i hlost
      cases h
      rw [Bool.and_eq_true] at hlost
      exact .loses hlost.2 rfl rfl
    · cases h
      exact hgoes .judge t.lastSeccConSetVal (by simp) rfl
  · split at h
    · rename_i hdue
      cases h
      exact .leaves (.netError r.now) ⟨hdue.1, hdue.2.2.1, hdue.2.2.2⟩ rfl rfl
    · cases h
      exact hgoes .remote t.lastSeccConSetVal (by simp) rfl
  · dsimp only at h
    split at h
    · obtain ⟨u, o₁, o₂, hu, hv, rfl⟩ := andThen_eq h
      obtain ⟨s₁, rfl, hlive₁, hplain₁⟩ := writes_eq hu
      obtain ⟨s₂, rfl, hlive₂, hplain₂⟩ := writes_eq hv
      refine .goes .diag t.lastSeccConSetVal s₂ (by simp) (by simp [StatusStage.updating])
        (hlive₂.trans hlive₁) rfl ?_
      intro m hm
      rcases List.mem_append.mp hm with hm | hm
      · exact hplain₁ m hm
      · exact hplain₂ m hm
    · cases h
      exact hgoes .diag t.lastSeccConSetVal (by simp) rfl
  · split at h
    · obtain ⟨s, rfl, hlive, hplain⟩ := writes_eq h
      exact .goes .upload t.lastSeccConSetVal s (by simp) (by simp [StatusStage.updating]) hlive
        rfl hplain
    · cases h
      exact hgoes (.fw .checkDate) t.lastSeccConSetVal (by simp) rfl
  · obtain ⟨s, rfl, hlive, hplain⟩ := writes_eq h
    exact .goes (.fw .checkDate) t.lastSeccConSetVal s (by simp) (by simp [StatusStage.updating])
      hlive rfl hplain
  · rename_i hstage
    exact updateTurn_cases hstage h
  · dsimp only at h
    split at h
    · cases h
      exact hgoes .netCon t.lastSeccConSetVal (by simp) rfl
    · rename_i hreq
      obtain ⟨i, hi, h⟩ := Option.bind_eq_some_iff.mp h
      split at h
      · obtain ⟨s, rfl, hlive, hplain⟩ := stopForReset_eq h
        exact .goes .netCon t.lastSeccConSetVal s (by simp) (by simp [StatusStage.updating]) hlive
          rfl hplain
      · rename_i hstat
        cases h
        rw [not_or] at hstat
        exact .leaves .reset ⟨hreq, i, hi, hstat⟩ rfl rfl
  · rename_i cause hstage
    cases h
    exact .reboots cause (.inl hstage) rfl rfl

end Station

end ChargePoint
