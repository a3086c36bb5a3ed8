import ChargePoint.Lib.Simulation
import ChargePoint.Journal
import ChargePoint.Firmware
import ChargePoint.Timestamps
import ChargePoint.Charge.Layer

/-!
# The station: the threads around the client

The client of `Client.lean` does what it is told at any time. Who tells it is `WSClientThread`,
which goes through its loop and counts the connects that fail, and beside it the status task of the
screens, which watches the connection, carries out what the central system ordered, and reboots.
Both are modelled here at the places where other threads can come between: a turn takes a thread
from one of its stages to the next, and any event of the other threads may happen between two turns.

`Station.journaled` connects the two levels: with the threads struck out, a run of the station is a
run of the client, so what is proved of all the client's runs holds of the station.

**Reboots.** A thread that decides to reboot saves the configuration and sleeps first, and the other
threads go on meanwhile. `custom_reboot` does not return, and what the station does after it is
nothing.
-/

set_option autoImplicit false

namespace ChargePoint

open Trace

/-- `APP_ORDER_REMOTE_CHECK` -/
def appOrderRemoteCheck : Nat := 5

/-- `END_SERVER` -/
def endServer : Nat := 6

/-- What `WSClientThread` and the status task call `custom_reboot` for. The admin menu and the FTP
screen call it too, where a person asks for it. -/
inductive RebootCause
  /-- `WSClientThread` gave the server up -/
  | noServer
  /-- the status task gave the network up, at this time -/
  | netError (now : Int)
  /-- a Reset was ordered -/
  | reset
  /-- the firmware's update is over -/
  | update
  deriving DecidableEq

/-- Where `WSClientThread` stands in its loop. -/
inductive ClientStage
  /-- in front of the gates -/
  | top
  /-- in front of `Check_Sampled_Time` -/
  | sample
  /-- in front of the link -/
  | link
  /-- in front of `TSCT_NetworkIsReady` and `NetRun` -/
  | run
  /-- about to reboot -/
  | leaving
  deriving DecidableEq, Repr

/-- Where `sTopStatusTaskFuntion` stands in its loop. -/
inductive StatusStage
  /-- in `SetNetCon` -/
  | netCon
  /-- in front of `if(bConnect)` -/
  | connected
  /-- in front of `if((!bConnect || ...) && NetError_Flg)` -/
  | lost
  /-- in front of the minutes of the error -/
  | judge
  /-- in front of `bReqRmtStartTsNo` -/
  | remote
  /-- in front of `diagLogReqStep` -/
  | diag
  /-- in `FtpLogUpload_func` -/
  | upload
  /-- in the update of the firmware -/
  | fw (u : Updater)
  /-- in front of `bReqResetNo` -/
  | reset
  /-- about to reboot -/
  | leaving (cause : RebootCause)
  deriving DecidableEq

/-- What a turn reads of the rest of the device. -/
structure Reading where
  /-- `theConfig.ConfirmSelect == USER_AUTH_NET` -/
  userAuthNet : Bool
  bGloAdminStatus : Bool
  /-- `TSCT_NetworkIsReady()` -/
  networkIsReady : Bool
  /-- `iteEthGetLink()` -/
  ethGetLink : Bool
  /-- `sToBackground != NULL` -/
  sToBackground : Bool
  /-- `tv_sec` of `gettimeofday` -/
  now : Int
  /-- `CstGetTime()`, and the time zone it is compared in -/
  currTime : Int
  zone : Int
  /-- the outcome of an upload, a download, a check or an installation -/
  ok : Bool
  /-- the readings of the clock in the client's functions -/
  k : Clock
  sendOk : Bool
  connectOk : Bool

structure Station where
  client : Client
  nConnectCheck : Nat
  nConnectResetCount : Nat
  /-- `FirstConnectFlg` -/
  firstConnectFlg : Bool
  /-- `iteEthGetLink_WS` -/
  iteEthGetLinkWs : Bool
  clientStage : ClientStage
  /-- `NetError_Flg`: a loss is still to be noticed -/
  netErrorFlg : Bool
  /-- `NetErrorTime_top` -/
  netErrorTime : Int
  lastSeccConSetVal : Bool
  statusStage : StatusStage
  /-- `custom_reboot` was called. -/
  rebooted : Bool

/-- What is observed of the station. -/
inductive StationObs
  /-- an entry of the client's journal -/
  | client (x : Entry)
  /-- a connect failed -/
  | failed
  /-- `RouterPowerCheck`: the router was switched off and on -/
  | cycled
  /-- the status task found the connection made, or the network back -/
  | restored
  /-- the status task noticed a loss, at this time -/
  | lost (now : Int)
  /-- the charge was stopped for a Reset -/
  | chargeStopped
  /-- a thread decided to reboot, on this charger -/
  | rebooting (cause : RebootCause) (cp : Charger)
  | rebooted (cause : RebootCause)

/-- The entry of the client's journal, if it is one. -/
def StationObs.entry? : StationObs → Option Entry
  | .client x => some x
  | .failed | .cycled | .restored | .lost _ | .chargeStopped | .rebooting _ _ | .rebooted _ => none

/-- The client's journal in a station's log. -/
def entries (log : List StationObs) : List Entry := log.filterMap StationObs.entry?

/-- `Errorminute_top`, the minute of the hour the error lasts. -/
def errorMinute (nowT : Int) : Int := (nowT.tmod 3600).tdiv 60

/-- `CheckUpdateFwDate`, where an update is ordered. -/
def checkUpdateFwDate (c : Charger) (r : Reading) : Bool :=
  decide (cnvrtStr2Utc r.zone c.fw.timeStamp < r.currTime)

namespace Station

/-- The client does something, or something happens to it. -/
def does (t : Station) (e : Event) : Option (Station × List StationObs) :=
  (journal t.client e).map fun r => ({ t with client := r.1 }, r.2.map .client)

/-- The status task writes a variable of the client. -/
def writes (t : Station) (w : EnvWrite) : Option (Station × List StationObs) := t.does (.env w)

/-- One thing and then another. -/
def andThen (x : Option (Station × List StationObs))
    (f : Station → Option (Station × List StationObs)) : Option (Station × List StationObs) :=
  x.bind fun r => (f r.1).map fun r' => (r'.1, r.2 ++ r'.2)

/-- `custom_reboot` -/
def customReboot (t : Station) (cause : RebootCause) : Station × List StationObs :=
  ({ t with rebooted := true }, [.rebooted cause])

/-! ## The client's thread

The loop of `WSClientThread`, cut at `ClientStage`: the gates at its top, the sample, the link,
the connection. A turn goes from one of these places to the next. A gate that is closed starts
the loop over, and so does a link that has just come up, after `NetworkReset`.

Ten failed connects (`nConnectCheck`) cycle the router, and three cycles (`nConnectResetCount`)
make the next ten a reason to reboot, unless the station is charging. A connect that succeeds
takes both counts back; so the counts are of what failed since. -/

/-- `NetRun`: a failed connect is counted, and one that succeeds takes both counts back. -/
def netRun (t : Station) (r : Reading) : Option (Station × List StationObs) :=
  if t.client.bConnect then t.does (.netRun r.k r.sendOk r.connectOk)
  else if r.connectOk then
    ({ t with nConnectCheck := 0, nConnectResetCount := 0 } : Station).does
      (.netRun r.k r.sendOk true)
  else
    andThen (({ t with nConnectCheck := t.nConnectCheck + 1 } : Station).does
      (.netRun r.k r.sendOk false)) fun t => some (t, [.failed])

/-- After ten failed connects: the reboot, or the router's power. `nConnectResetCount` is counted
up either way, as it is compared. -/
def connectReset (t : Station) : Station × List StationObs :=
  let count := t.nConnectResetCount
  let t := { t with nConnectResetCount := count + 1 }
  if 2 < count ∧ t.client.cp.scene.appOrder ≠ appOrderCharging then
    ({ t with clientStage := .leaving }, [.rebooting .noServer t.client.cp])
  else ({ t with nConnectCheck := 0 }, [.cycled])

/-- **A turn of `WSClientThread`.** -/
def clientTurn (t : Station) (r : Reading) : Option (Station × List StationObs) :=
  match t.clientStage with
  | .top =>
    if !r.userAuthNet then some (t, [])
    else if r.bGloAdminStatus then some (t, [])
    else if 9 < t.nConnectCheck then some t.connectReset
    else if !t.firstConnectFlg && !(r.networkIsReady && r.ethGetLink) then some (t, [])
    else
      ({ t with firstConnectFlg := true, clientStage := .sample } : Station).does (.raiseStart r.k)
  | .sample => ({ t with clientStage := .link } : Station).does (.sample r.k)
  | .link =>
    if !r.ethGetLink then
      ({ t with iteEthGetLinkWs := false, clientStage := .top } : Station).does .linkDown
    else if !t.iteEthGetLinkWs then
      -- `NetworkReset`, and the loop starts over
      some ({ t with iteEthGetLinkWs := true, clientStage := .top }, [])
    else some ({ t with clientStage := .run }, [])
  | .run =>
    let t := { t with clientStage := .top }
    if r.networkIsReady then t.netRun r else t.does .netDown
  | .leaving => some (t.customReboot .noServer)

/-! ## The status task

`sTopStatusTaskFuntion` goes round through the places of `StatusStage`. The first four watch the
network: a loss is noted once, with its time, and only a connection or a network that comes back
arms the note again. The others each look at one order of the central system: the remote start, the
upload of the log, the update, the Reset.

`CheckUpdateFwDate`, the upload and the steps of the update are turns of their own, because the
client reports each step while the task goes on. `NetErrorTime_top` is compared in minutes of the
hour, so an error of an hour counts as one of no minute at all; the model keeps that. -/

/-- `SetNetCon`: a network that comes back ends the error. -/
def setNetCon (t : Station) (r : Reading) : Station × List StationObs :=
  if !r.sToBackground || t.lastSeccConSetVal == r.networkIsReady then (t, [])
  else if r.networkIsReady then
    ({ t with lastSeccConSetVal := true, netErrorFlg := true }, [.restored])
  else ({ t with lastSeccConSetVal := false }, [])

/-- `TSCT_ChargingStop` with `END_SERVER`, as far as the client sees it. -/
def stopForReset (t : Station) : Option (Station × List StationObs) :=
  andThen (t.writes (.scene { t.client.cp.scene with
    chargeCompStatus := endServer, sChCharging := false, appOrder := appOrderChargingStop }))
    fun t => some (t, [.chargeStopped])

/-- The date of the update has come: both connectors are closed. -/
def closeForUpdate (t : Station) : Option (Station × List StationObs) :=
  andThen (t.writes (.chargingStatus 0)) fun t =>
    andThen (t.writes (.setCpStatus .unavail 0)) fun t => t.writes (.setCpStatus .unavail 1)

/-- The update goes on from `u`. -/
def updateTurn (t : Station) (u : Updater) (r : Reading) : Option (Station × List StationObs) :=
  match u with
  | .checkDate =>
    if t.client.cp.fw.updateStep = .chkDate ∧ checkUpdateFwDate t.client.cp r then
      ({ t with statusStage := .fw .start } : Station).closeForUpdate
    else some ({ t with statusStage := .reset }, [])
  | .ended => some (t.customReboot .update)
  | u =>
    let next := u.next r.ok
    let t := { t with statusStage := .fw next.1 }
    match next.2 with
    | none => some (t, [])
    | some step => t.writes (.updateStep step)

/-- **A turn of `sTopStatusTaskFuntion`.** -/
def statusTurn (t : Station) (r : Reading) : Option (Station × List StationObs) :=
  match t.statusStage with
  | .netCon => some (({ t with statusStage := .connected } : Station).setNetCon r)
  | .connected =>
    let t := { t with statusStage := .lost }
    if t.client.bConnect then some ({ t with netErrorFlg := true }, [.restored]) else some (t, [])
  | .lost =>
    let t := { t with statusStage := .judge }
    if (!t.client.bConnect || !r.networkIsReady) && t.netErrorFlg then
      some ({ t with netErrorFlg := false, netErrorTime := r.now }, [.lost r.now])
    else some (t, [])
  | .judge =>
    if t.netErrorFlg = false ∧ r.userAuthNet = true ∧
        5 < errorMinute (r.now - t.netErrorTime) ∧
        t.client.cp.scene.appOrder ≠ appOrderCharging then
      some ({ t with statusStage := .leaving (.netError r.now) },
        [.rebooting (.netError r.now) t.client.cp])
    else some ({ t with statusStage := .remote }, [])
  | .remote =>
    let t := { t with statusStage := .diag }
    let n := t.client.cp.cs.bReqRmtStartTsNo
    if n ≠ 0 then
      andThen (t.writes (.devChannel (n ≠ 1))) fun t =>
        t.writes (.scene { t.client.cp.scene with appOrder := appOrderRemoteCheck })
    else some (t, [])
  | .diag =>
    if t.client.cp.cs.diagLogReqStep = diagStatUpload then
      ({ t with statusStage := .upload } : Station).writes (.diagLogReqStep diagStatUploading)
    else some ({ t with statusStage := .fw .checkDate }, [])
  | .upload =>
    ({ t with statusStage := .fw .checkDate } : Station).writes
      (.diagLogReqStep (if r.ok then diagStatUploaded else diagStatUploadFail))
  | .fw u => t.updateTurn u r
  | .reset =>
    let t := { t with statusStage := .netCon }
    if t.client.cp.cs.bReqResetNo = 0 then some (t, [])
    else
      t.client.cp.devConn.bind fun i =>
        if t.client.cp.cs.bCpStat i = .charging ∨ t.client.cp.cs.bCpStat i = .prepare then
          t.stopForReset
        else some ({ t with statusStage := .leaving .reset }, [.rebooting .reset t.client.cp])
  | .leaving cause => some (t.customReboot cause)

end Station

/-! ## Runs

A turn of the station is a turn of one of its two threads, or anything the other threads do: the
events of `Client.lean` but for those of the client thread itself. In which order they come is
left open, and `Reading` gives every turn its own answers of the device. After `custom_reboot` a
turn does nothing. -/

/-- What the other threads do: `WSRxThread`, the screens, the readers. -/
inductive Other
  | recv (frame : List Char) (j : Junk) (k : Clock) (sendOk : Bool)
  | recvFail
  | env (w : EnvWrite)

def Other.event : Other → Event
  | .recv frame j k sendOk => .recv frame j k sendOk
  | .recvFail => .recvFail
  | .env w => .env w

inductive Turn
  | client (r : Reading)
  | status (r : Reading)
  | other (x : Other)

/-- **One turn of one thread.** -/
def Station.step (t : Station) (m : Turn) : Option (Station × List StationObs) :=
  if t.rebooted then some (t, [])
  else match m with
  | .client r => t.clientTurn r
  | .status r => t.statusTurn r
  | .other x => t.does x.event

/-- The start of both threads. -/
def Station.init (chargingStatus : UInt32) (now : Nat) (time : Int) : Station where
  client := .init chargingStatus now
  nConnectCheck := 0
  nConnectResetCount := 0
  firstConnectFlg := false
  iteEthGetLinkWs := false
  clientStage := .top
  netErrorFlg := true
  netErrorTime := time
  lastSeccConSetVal := false
  statusStage := .netCon
  rebooted := false

/-- **A run of the station**: its threads take turns in any order. -/
def StationRun (t : Station) (log : List StationObs) : Prop :=
  ∃ chargingStatus now time, Always Station.step (Station.init chargingStatus now time) t log

/-! ## A run of the station is a run of its client

Every turn is a run of the client's journal, mostly of one event or of none: `Moves` says so of
the parts of a turn, and `Moves.andThen` of two parts in a row. The library's `Embeds` takes it
from turns to runs. -/

@[simp] theorem entries_nil : entries [] = [] := rfl

@[simp] theorem entries_append (l l' : List StationObs) :
    entries (l ++ l') = entries l ++ entries l' :=
  List.filterMap_append

@[simp] theorem entries_client (l : List Entry) : entries (l.map .client) = l := by
  unfold entries
  rw [List.filterMap_map]
  exact List.filterMap_some

namespace Station
variable {t t' : Station} {o : List StationObs}

/-- The client's part of a step. -/
def Moves (t t' : Station) (o : List StationObs) : Prop :=
  Always journal t.client t'.client (entries o)

/-- The client was left alone. -/
theorem Moves.still (hc : t'.client = t.client) (ho : entries o = []) : Moves t t' o := by
  unfold Moves
  rw [hc, ho]
  exact .start

theorem does_moves {u : Station} {e : Event} (hu : u.client = t.client)
    (h : u.does e = some (t', o)) : Moves t t' o := by
  obtain ⟨⟨s, l⟩, hstep, heq⟩ := Option.map_eq_some_iff.mp h
  obtain ⟨rfl, rfl⟩ := Prod.mk.inj heq
  unfold Moves
  rw [entries_client, ← hu]
  exact Always.one hstep

/-- What `andThen` did. -/
theorem andThen_eq {x : Option (Station × List StationObs)}
    {f : Station → Option (Station × List StationObs)} (h : andThen x f = some (t', o)) :
    ∃ u o₁ o₂, x = some (u, o₁) ∧ f u = some (t', o₂) ∧ o = o₁ ++ o₂ := by
  obtain ⟨⟨u, o₁⟩, hx, h⟩ := Option.bind_eq_some_iff.mp h
  obtain ⟨⟨v, o₂⟩, hf, heq⟩ := Option.map_eq_some_iff.mp h
  obtain ⟨rfl, rfl⟩ := Prod.mk.inj heq
  exact ⟨u, o₁, o₂, hx, hf, rfl⟩

theorem Moves.andThen {x : Option (Station × List StationObs)}
    {f : Station → Option (Station × List StationObs)} (h : andThen x f = some (t', o))
    (hx : ∀ {u o₁}, x = some (u, o₁) → Moves t u o₁)
    (hf : ∀ {u o₂}, f u = some (t', o₂) → Moves u t' o₂) : Moves t t' o := by
  obtain ⟨u, o₁, o₂, hxu, hfu, rfl⟩ := andThen_eq h
  unfold Moves
  rw [entries_append]
  exact (hx hxu).trans (hf hfu)

theorem netRun_moves {u : Station} {r : Reading} (hu : u.client = t.client)
    (h : u.netRun r = some (t', o)) : Moves t t' o := by
  unfold netRun at h
  split at h
  · exact does_moves hu h
  · split at h
    · exact does_moves (u := { u with nConnectCheck := 0, nConnectResetCount := 0 }) hu h
    · apply Moves.andThen h
      · intro v o₁ hv
        exact does_moves (u := { u with nConnectCheck := u.nConnectCheck + 1 }) hu hv
      · intro v o₂ hv
        cases hv
        exact .still rfl rfl

theorem connectReset_client (u : Station) :
    u.connectReset.1.client = u.client ∧ entries u.connectReset.2 = [] := by
  unfold connectReset
  dsimp only
  split
  · exact ⟨rfl, rfl⟩
  · exact ⟨rfl, rfl⟩

theorem clientTurn_moves {r : Reading} (h : t.clientTurn r = some (t', o)) : Moves t t' o := by
  unfold clientTurn at h
  split at h
  · split at h
    · cases h
      exact .still rfl rfl
    · split at h
      · cases h
        exact .still rfl rfl
      · split at h
        · obtain rfl : t.connectReset.1 = t' := congrArg Prod.fst (Option.some.inj h)
          obtain rfl : t.connectReset.2 = o := congrArg Prod.snd (Option.some.inj h)
          have hreset := connectReset_client t
          exact .still hreset.1 hreset.2
        · split at h
          · cases h
            exact .still rfl rfl
          · exact does_moves (u := { t with firstConnectFlg := true, clientStage := .sample })
              rfl h
  · exact does_moves (u := { t with clientStage := .link }) rfl h
  · split at h
    · exact does_moves (u := { t with iteEthGetLinkWs := false, clientStage := .top }) rfl h
    · split at h
      · cases h
        exact .still rfl rfl
      · cases h
        exact .still rfl rfl
  · dsimp only at h
    split at h
    · exact netRun_moves (u := { t with clientStage := .top }) rfl h
    · exact does_moves (u := { t with clientStage := .top }) rfl h
  · cases h
    exact .still rfl rfl

theorem setNetCon_client (u : Station) (r : Reading) :
    (u.setNetCon r).1.client = u.client ∧ entries (u.setNetCon r).2 = [] := by
  unfold setNetCon
  split
  · exact ⟨rfl, rfl⟩
  · split
    · exact ⟨rfl, rfl⟩
    · exact ⟨rfl, rfl⟩

theorem stopForReset_moves {u : Station} (hu : u.client = t.client)
    (h : u.stopForReset = some (t', o)) : Moves t t' o := by
  apply Moves.andThen h
  · intro v o₁ hv
    exact does_moves hu hv
  · intro v o₂ hv
    cases hv
    exact .still rfl rfl

theorem closeForUpdate_moves {u : Station} (hu : u.client = t.client)
    (h : u.closeForUpdate = some (t', o)) : Moves t t' o := by
  apply Moves.andThen h
  · intro v o₁ hv
    exact does_moves hu hv
  · intro v o₂ hv
    apply Moves.andThen hv
    · intro w o₃ hw
      exact does_moves rfl hw
    · intro w o₃ hw
      exact does_moves rfl hw

theorem updateTurn_moves {u : Updater} {r : Reading} (h : t.updateTurn u r = some (t', o)) :
    Moves t t' o := by
  unfold updateTurn at h
  split at h
  · split at h
    · exact closeForUpdate_moves (u := { t with statusStage := .fw .start }) rfl h
    · cases h
      exact .still rfl rfl
  · cases h
    exact .still rfl rfl
  · dsimp only at h
    split at h
    · cases h
      exact .still rfl rfl
    · exact does_moves (u := { t with statusStage := .fw (u.next r.ok).1 }) rfl h

theorem statusTurn_moves {r : Reading} (h : t.statusTurn r = some (t', o)) : Moves t t' o := by
  unfold statusTurn at h
  split at h
  · have hset := setNetCon_client { t with statusStage := .connected } r
    obtain rfl : (setNetCon { t with statusStage := .connected } r).1 = t' :=
      congrArg Prod.fst (Option.some.inj h)
    obtain rfl : (setNetCon { t with statusStage := .connected } r).2 = o :=
      congrArg Prod.snd (Option.some.inj h)
    exact .still hset.1 hset.2
  · dsimp only at h
    split at h
    · cases h
      exact .still rfl rfl
    · cases h
      exact .still rfl rfl
  · dsimp only at h
    split at h
    · cases h
      exact .still rfl rfl
    · cases h
      exact .still rfl rfl
  · split at h
    · cases h
      exact .still rfl rfl
    · cases h
      exact .still rfl rfl
  · dsimp only at h
    split at h
    · apply Moves.andThen h
      · intro v o₁ hv
        exact does_moves (u := { t with statusStage := .diag }) rfl hv
      · intro v o₂ hv
        exact does_moves rfl hv
    · cases h
      exact .still rfl rfl
  · split at h
    · exact does_moves (u := { t with statusStage := .upload }) rfl h
    · cases h
      exact .still rfl rfl
  · exact does_moves (u := { t with statusStage := .fw .checkDate }) rfl h
  · exact updateTurn_moves h
  · dsimp only at h
    split at h
    · cases h
      exact .still rfl rfl
    · obtain ⟨i, -, h⟩ := Option.bind_eq_some_iff.mp h
      split at h
      · exact stopForReset_moves (u := { t with statusStage := .netCon }) rfl h
      · cases h
        exact .still rfl rfl
  · cases h
    exact .still rfl rfl

/-- **Every turn of every thread is a run of the client.** -/
theorem embeds : Embeds Station.step journal Station.client StationObs.entry? := by
  intro t m t' o h
  have hmoves : Moves t t' o := by
    unfold step at h
    split at h
    · cases h
      exact .still rfl rfl
    · cases m with
      | client r => exact clientTurn_moves h
      | status r => exact statusTurn_moves h
      | other x => exact does_moves rfl h
  exact hmoves

end Station

/-- **The station's runs are the client's**: what all the client's runs keep, the station keeps. -/
theorem StationRun.journaled {t : Station} {log : List StationObs} (h : StationRun t log) :
    Journaled t.client (entries log) := by
  obtain ⟨st, now, time, h⟩ := h
  exact ⟨st, now, h.part Station.embeds⟩

end ChargePoint
