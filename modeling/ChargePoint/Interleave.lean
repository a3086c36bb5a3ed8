import ChargePoint.Correlation

/-!
# The two threads, taken apart

`Client.lean` takes a tick and a receive step as one event each. The program does not: the
client thread and the receive thread share `Tx_Msg`, `Rx_Msg` and `curl_ws_send_buf`, hold no
lock, and sleep between their calls. Here each function they call is a step of its own, and
the steps interleave in any order:

* the client thread: `OCPP_CALL_Senario`, `Make_Ocpp_Msg`, then `curl_ws_send` with the rest of
  `Tsct_Curl_Ws_Trans`;
* the receive thread: `Parse_Data`, the handler, then the same two.

`run_interleaved` connects the two levels: every run of `Client.lean` is an interleaving. The
converse fails, and so does what one would hope of the frames (`call_replaced`): a party
transmits what the buffers hold, not what it put there. `frames_own` says when the two are the
same.
-/

set_option autoImplicit false

namespace ChargePoint

open Trace

/-! ## The calls

`Tsct_Curl_Ws_Trans` is cut in two where the text lies in `curl_ws_send_buf`, and
`Tsct_Curl_Ws_Recv` where the handler returns. `tsctCurlWsTrans_fst` and `recvParsed_split` say
that the halves in a row are the functions of `Client.lean`. -/

/-- `Make_Ocpp_Msg`: the text for `curl_ws_send_buf`, and what it writes besides. -/
def Client.makeMsg (s : Client) : List Char × Client :=
  (makeOcppMsg s.tx s.rx.msg.uniqueIdChar,
    { s with tx := afterMakeOcppMsg s.tx
             dataTransUniqueId := if s.tx.msg.actionCode = .dataTrans then s.tx.msg.uniqueId
               else s.dataTransUniqueId })

/-- `curl_ws_send` and the rest of `Tsct_Curl_Ws_Trans`. -/
def Client.wsSend (s : Client) (k : Clock) (sendOk : Bool) : Client :=
  if sendOk then
    if s.tx.msg.msgType = msgTypeCall then
      { s with bWaitResFlg := true, tvRes := k.secSent, callTxMsg := s.tx.msg }
    else s
  else { s with rx := clearRxMsgBuff, bConnect := false }

theorem Client.tsctCurlWsTrans_fst (s : Client) (k : Clock) (sendOk : Bool) :
    (s.tsctCurlWsTrans k sendOk).1 = s.makeMsg.2.wsSend k sendOk := by
  cases sendOk <;> rfl

/-- What a handler leaves behind. -/
inductive Handled
  /-- no message -/
  | done
  /-- an answer that is not sent: the boot is not accepted yet -/
  | unsent
  /-- an answer that `Tsct_Curl_Ws_Trans` sends next -/
  | toSend
  deriving DecidableEq, Repr

/-- `Tsct_Curl_Ws_Recv` from the tests on the parsed message to the end of the handler. -/
def Client.handleParsed (s : Client) (j : Junk) : Option (Handled × Client) :=
  if s.rx.msg.msgType = 4 then some (.done, { s with bConnect := false })
  else if s.cp.cs.bCpStat 0 = .none then
    if s.rx.msg.msgType = 3 ∧ s.rx.msg.actionCode = .cp .boot then
      if s.expects then (s.dispatchRes []).map fun r => (.done, r.1) else some (.done, s)
    else if s.rx.msg.msgType = 2 ∧ s.rx.msg.actionCode = .cs .dataTransfer then
      (rxCallDataProc .dataTransfer j s.rx s.cp s.tx).map fun r =>
        (.unsent, { s with cp := r.1, tx := r.2 })
    else some (.done, s)
  else if s.rx.msg.msgType = 3 then
    if s.expects then (s.dispatchRes []).map fun r => (.done, r.1) else some (.done, s)
  else if s.rx.msg.msgType = 2 then
    match s.rx.msg.actionCode with
    | .cs cmd =>
      (rxCallDataProc cmd j s.rx s.cp s.tx).map fun r =>
        (.toSend, { s with cp := r.1, tx := r.2 })
    | .cp _ => some (.done, s)
  else some (.done, s)

/-- **What a handler can have done** to the buffers. -/
inductive Client.HandleOk (s : Client) : Handled → Client → Prop
  | done {s' : Client} (htx : s'.tx = s.tx) (hrx : s'.rx = s.rx) : HandleOk s .done s'
  | filled {r : Handled} {c : Charger} {tx : TxBuf} (hr : r ≠ .done)
      (htype : tx.msg.msgType = msgTypeCallRes) : HandleOk s r { s with cp := c, tx := tx }

theorem Client.dispatchRes_keeps {s : Client} {frame : List Char} {r : Client × List Obs}
    (h : s.dispatchRes frame = some r) : r.1.tx = s.tx ∧ r.1.rx = s.rx := by
  simp only [dispatchRes, Option.map_eq_some_iff] at h
  obtain ⟨c, _, rfl⟩ := h
  exact ⟨rfl, rfl⟩

theorem Client.handleParsed_ok {s s' : Client} {j : Junk} {r : Handled}
    (h : s.handleParsed j = some (r, s')) : s.HandleOk r s' := by
  -- an answer that may be handed to its handler
  have hres : (if s.expects then (s.dispatchRes []).map fun r => (Handled.done, r.1)
      else some (.done, s)) = some (r, s') → s.HandleOk r s' := by
    intro h
    split at h
    · simp only [Option.map_eq_some_iff, Prod.mk.injEq] at h
      obtain ⟨d, hd, rfl, rfl⟩ := h
      exact .done (dispatchRes_keeps hd).1 (dispatchRes_keeps hd).2
    · obtain ⟨rfl, rfl⟩ := Prod.mk.inj (Option.some.inj h)
      exact .done rfl rfl
  have hnone : some (Handled.done, s) = some (r, s') → s.HandleOk r s' := by
    intro h
    obtain ⟨rfl, rfl⟩ := Prod.mk.inj (Option.some.inj h)
    exact .done rfl rfl
  unfold handleParsed at h
  split at h
  · obtain ⟨rfl, rfl⟩ := Prod.mk.inj (Option.some.inj h)
    exact .done rfl rfl
  · split at h
    · split at h
      · exact hres h
      · split at h
        · simp only [Option.map_eq_some_iff, Prod.mk.injEq] at h
          obtain ⟨d, hd, rfl, rfl⟩ := h
          exact .filled (by simp) (rxCallDataProc_ok hd).msgType
        · exact hnone h
    · split at h
      · exact hres h
      · split at h
        · split at h
          · simp only [Option.map_eq_some_iff, Prod.mk.injEq] at h
            obtain ⟨d, hd, rfl, rfl⟩ := h
            exact .filled (by simp) (rxCallDataProc_ok hd).msgType
          · exact hnone h
        · exact hnone h

/-- The receive step is the handler and, where it answers, the transmission. -/
theorem Client.recvParsed_split (s : Client) (frame : List Char) (j : Junk) (k : Clock)
    (sendOk : Bool) :
    (s.recvParsed frame j k sendOk).map Prod.fst = (s.handleParsed j).map fun r =>
      if r.1 = .toSend then (r.2.makeMsg.2).wsSend k sendOk else r.2 := by
  have hres : (if s.expects then s.dispatchRes frame else some (s, [])).map Prod.fst =
      (if s.expects then (s.dispatchRes []).map fun r => (Handled.done, r.1)
        else some (.done, s)).map fun r =>
          if r.1 = .toSend then (r.2.makeMsg.2).wsSend k sendOk else r.2 := by
    split
    · simp only [dispatchRes, Option.map_map]
      rfl
    · rfl
  unfold recvParsed handleParsed
  split
  · rfl
  · split
    · split
      · exact hres
      · split
        · simp only [Option.map_map]
          rfl
        · rfl
    · split
      · exact hres
      · split
        · cases s.rx.msg.actionCode with
          | cs cmd =>
            simp only [Option.map_map]
            refine Option.map_congr fun r _ => ?_
            exact tsctCurlWsTrans_fst _ k sendOk
          | cp a => rfl
        · rfl

/-! ## The threads

`Threads` has the globals once and a program counter for each of the two. What a message was when
it was prepared is no part of the state, since no call reads it; the steps leave it in the log
(`Note`), so that one can say later whether a frame is that message. -/

inductive Party
  | client
  | receiver
  deriving DecidableEq, Repr

def Party.other : Party → Party
  | .client => .receiver
  | .receiver => .client

theorem Party.ne_iff {p q : Party} : q ≠ p ↔ q = p.other := by
  cases p <;> cases q <;> simp [other]

/-- The type of the messages a thread prepares. -/
def Party.msgType : Party → Nat
  | .client => msgTypeCall
  | .receiver => msgTypeCallRes

/-- Where a thread stands. -/
inductive Pc
  /-- between two calls of `NetRun`, of `Tsct_Curl_Ws_Recv` -/
  | idle
  /-- `Rx_Msg` is parsed, the handler is next -/
  | parsed
  /-- `Tx_Msg` is filled, `Make_Ocpp_Msg` is next -/
  | prepared
  /-- `curl_ws_send_buf` is filled, `curl_ws_send` is next -/
  | encoded
  deriving DecidableEq, Repr

/-- The shared globals and the two threads. -/
structure Threads where
  g : Client
  curlWsSendBuf : List Char
  pc : Party → Pc

/-- The thread `p` has done one call more. -/
def Threads.advance (t : Threads) (p : Party) (c : Pc) (s : Client) : Threads :=
  { t with g := s, pc := fun q => if q = p then c else t.pc q }

@[simp] theorem Threads.advance_g (t : Threads) (p : Party) (c : Pc) (s : Client) :
    (t.advance p c s).g = s := rfl

@[simp] theorem Threads.advance_buf (t : Threads) (p : Party) (c : Pc) (s : Client) :
    (t.advance p c s).curlWsSendBuf = t.curlWsSendBuf := rfl

@[simp] theorem Threads.advance_self (t : Threads) (p : Party) (c : Pc) (s : Client) :
    (t.advance p c s).pc p = c := if_pos rfl

theorem Threads.advance_ne (t : Threads) {p q : Party} (h : q ≠ p) (c : Pc) (s : Client) :
    (t.advance p c s).pc q = t.pc q := if_neg h

/-- A message as its party left it: `Tx_Msg`, and the id `Make_Ocpp_Msg` takes from `Rx_Msg`. -/
structure Prepared where
  tx : TxBuf
  rxId : List Char

/-- The frame that is exactly this message. -/
def Prepared.frame (m : Prepared) : List Char := makeOcppMsg m.tx m.rxId

/-- What a step does to the shared buffers. -/
inductive Note
  /-- `p` filled `Tx_Msg` -/
  | prepared (p : Party) (m : Prepared)
  /-- `p` filled `curl_ws_send_buf` -/
  | encoded (p : Party)
  /-- `p` put a frame on the wire -/
  | sent (p : Party) (frame : List Char)
  /-- `p` cleared or overwrote `Rx_Msg` -/
  | rxCleared (p : Party)

/-- Whose step it was. -/
def Note.actor : Note → Party
  | .prepared p _ | .encoded p | .sent p _ | .rxCleared p => p

/-! ## Steps -/

/-- A call of one of the threads, or a write of a third one. -/
inductive Move
  | senario (k : Clock)
  | connect (connectOk : Bool)
  | raiseStart (k : Clock)
  | sample (k : Clock)
  | linkDown
  | netDown
  | recv (frame : List Char)
  | recvFail
  | handle (j : Junk)
  | encode (p : Party)
  | transmit (p : Party) (k : Clock) (sendOk : Bool)
  | env (w : EnvWrite)

/-- **One call.** `none` where the thread is elsewhere, or the call leaves its arrays. -/
def Threads.step (t : Threads) : Move → Option (Threads × List Note)
  | .senario k =>
    if t.pc .client = .idle ∧ t.g.bConnect = true then
      (t.g.ocppCallSenario k).map fun r =>
        match r.1 with
        | none => ({ t with g := r.2 }, [])
        | some _ => (t.advance .client .prepared r.2,
            [.prepared .client ⟨r.2.tx, r.2.rx.msg.uniqueIdChar⟩])
    else none
  | .connect connectOk =>
    if t.pc .client = .idle ∧ t.g.bConnect = false then
      some ({ t with g := t.g.wsServerConnect connectOk }, [])
    else none
  | .raiseStart k =>
    if t.pc .client = .idle then some ({ t with g := (t.g.raiseStart k).1 }, []) else none
  | .sample k =>
    if t.pc .client = .idle then (t.g.sampleMeter k).map fun r => ({ t with g := r.1 }, [])
    else none
  | .linkDown =>
    if t.pc .client = .idle then
      some ({ t with g := { t.g with rx := clearRxMsgBuff, bConnect := false } },
        [.rxCleared .client])
    else none
  | .netDown =>
    if t.pc .client = .idle then some ({ t with g := { t.g with bConnect := false } }, [])
    else none
  | .recv frame =>
    if t.pc .receiver = .idle ∧ t.g.bConnect = true ∧ frame.length < Client.recvBufCap then
      (parseData t.g.callTxMsg.actionCode t.g.dataTransUniqueId clearRxMsgBuff frame).map fun d =>
        (t.advance .receiver (if d.err then .idle else .parsed)
          { t.g with rx := d.rx, dataTransUniqueId := d.dataTransId }, [.rxCleared .receiver])
    else none
  | .recvFail =>
    if t.pc .receiver = .idle ∧ t.g.bConnect = true then
      some ({ t with g := { t.g with rx := clearRxMsgBuff, bConnect := false } },
        [.rxCleared .receiver])
    else none
  | .handle j =>
    if t.pc .receiver = .parsed then
      (t.g.handleParsed j).map fun r =>
        match r.1 with
        | .done => (t.advance .receiver .idle r.2, [])
        | .unsent => (t.advance .receiver .idle r.2,
            [.prepared .receiver ⟨r.2.tx, r.2.rx.msg.uniqueIdChar⟩])
        | .toSend => (t.advance .receiver .prepared r.2,
            [.prepared .receiver ⟨r.2.tx, r.2.rx.msg.uniqueIdChar⟩])
    else none
  | .encode p =>
    if t.pc p = .prepared then
      some ({ t.advance p .encoded t.g.makeMsg.2 with curlWsSendBuf := t.g.makeMsg.1 },
        [.encoded p])
    else none
  | .transmit p k sendOk =>
    if t.pc p = .encoded then
      some (t.advance p .idle (t.g.wsSend k sendOk),
        [if sendOk then .sent p t.curlWsSendBuf else .rxCleared p])
    else none
  | .env w => (w.apply t.g.cp).map fun r => ({ t with g := { t.g with cp := r.1 } }, [])

/-- Both threads at rest, nothing sent. -/
def Threads.init (chargingStatus : UInt32) (now : Nat) : Threads :=
  ⟨.init chargingStatus now, [], fun _ => .idle⟩

/-- **An interleaving**: the calls of both threads, in any order. -/
def Interleaved (t : Threads) (log : List Note) : Prop :=
  ∃ chargingStatus now, Always Threads.step (Threads.init chargingStatus now) t log

/-! ## What a call can have done

For the buffers there are few things a call can do: leave them alone, clear or overwrite `Rx_Msg`,
prepare a message in `Tx_Msg`, print it, send it. One lemma for each call says which, and the
invariant is proved from these alone. -/

/-- **The calls, by what they do to the buffers.** -/
inductive Threads.Moved (t t' : Threads) (o : List Note) : Prop
  /-- nothing; at most a thread comes to rest -/
  | aside (hpc : ∀ p, t'.pc p = t.pc p ∨ t'.pc p = .idle) (htx : t'.g.tx = t.g.tx)
      (hrx : t'.g.rx = t.g.rx) (hbuf : t'.curlWsSendBuf = t.curlWsSendBuf) (ho : o = [])
  | cleared (q : Party) (hself : t'.pc q = .idle ∨ t'.pc q = .parsed)
      (hpc : ∀ p, p ≠ q → t'.pc p = t.pc p) (htx : t'.g.tx = t.g.tx)
      (hbuf : t'.curlWsSendBuf = t.curlWsSendBuf) (ho : o = [.rxCleared q])
  | prepared (q : Party) (m : Prepared) (hself : t'.pc q = .idle ∨ t'.pc q = .prepared)
      (hpc : ∀ p, p ≠ q → t'.pc p = t.pc p) (htype : m.tx.msg.msgType = q.msgType)
      (htx : t'.g.tx = m.tx) (hid : t'.g.rx.msg.uniqueIdChar = m.rxId)
      (hbuf : t'.curlWsSendBuf = t.curlWsSendBuf) (ho : o = [.prepared q m])
  | encoded (q : Party) (hq : t.pc q = .prepared) (hself : t'.pc q = .encoded)
      (hpc : ∀ p, p ≠ q → t'.pc p = t.pc p)
      (hbuf : t'.curlWsSendBuf = makeOcppMsg t.g.tx t.g.rx.msg.uniqueIdChar)
      (ho : o = [.encoded q])
  | sent (q : Party) (hq : t.pc q = .encoded) (hself : t'.pc q = .idle)
      (hpc : ∀ p, p ≠ q → t'.pc p = t.pc p) (htx : t'.g.tx = t.g.tx) (hrx : t'.g.rx = t.g.rx)
      (hbuf : t'.curlWsSendBuf = t.curlWsSendBuf) (ho : o = [.sent q t.curlWsSendBuf])

theorem Client.senario_keeps {s s' : Client} {k : Clock}
    (h : s.ocppCallSenario k = some (none, s')) : s'.tx = s.tx ∧ s'.rx = s.rx := by
  rcases senario_none h with ⟨w, rfl⟩ | ⟨-, f, tr, v, rfl⟩ | ⟨-, w, rfl⟩
  · exact ⟨rfl, rfl⟩
  · exact ⟨rfl, rfl⟩
  · exact ⟨rfl, rfl⟩

theorem Client.raiseStart_keeps (s : Client) (k : Clock) :
    (s.raiseStart k).1.tx = s.tx ∧ (s.raiseStart k).1.rx = s.rx := by
  unfold raiseStart
  split
  · exact ⟨rfl, rfl⟩
  · exact ⟨rfl, rfl⟩

theorem Client.sampleMeter_keeps {s : Client} {k : Clock} {r : Client × List Obs}
    (h : s.sampleMeter k = some r) : r.1.tx = s.tx ∧ r.1.rx = s.rx := by
  simp only [sampleMeter, Option.map_eq_some_iff] at h
  obtain ⟨d, _, rfl⟩ := h
  split
  · exact ⟨rfl, rfl⟩
  · exact ⟨rfl, rfl⟩

theorem Threads.aside_of_keeps {t : Threads} {s : Client} (htx : s.tx = t.g.tx)
    (hrx : s.rx = t.g.rx) : t.Moved { t with g := s } [] :=
  .aside (fun _ => .inl rfl) htx hrx rfl rfl

section Calls
variable {t t' : Threads} {o : List Note}

theorem Threads.senario_moved {k : Clock} (h : t.step (.senario k) = some (t', o)) :
    t.Moved t' o := by
  simp only [step] at h
  split at h
  · simp only [Option.map_eq_some_iff] at h
    obtain ⟨⟨a, s⟩, hsen, h⟩ := h
    cases a with
    | none =>
      obtain ⟨rfl, rfl⟩ := Prod.mk.inj h
      obtain ⟨htx, hrx⟩ := Client.senario_keeps hsen
      exact aside_of_keeps htx hrx
    | some a =>
      obtain ⟨rfl, rfl⟩ := Prod.mk.inj h
      obtain ⟨-, f, tr, -, tx, v, hbuild, rfl⟩ := Client.senario_some hsen
      exact .prepared .client _ (.inr (t.advance_self ..)) (fun p hp => t.advance_ne hp ..)
        (Call.build_header hbuild).1 rfl rfl rfl rfl
  · exact absurd h (by simp)

theorem Threads.connect_moved {connectOk : Bool} (h : t.step (.connect connectOk) = some (t', o)) :
    t.Moved t' o := by
  simp only [step] at h
  split at h
  · obtain ⟨rfl, rfl⟩ := Prod.mk.inj (Option.some.inj h)
    refine aside_of_keeps ?_ ?_ <;> cases connectOk <;> rfl
  · exact absurd h (by simp)

theorem Threads.raiseStart_moved {k : Clock} (h : t.step (.raiseStart k) = some (t', o)) :
    t.Moved t' o := by
  simp only [step] at h
  split at h
  · obtain ⟨rfl, rfl⟩ := Prod.mk.inj (Option.some.inj h)
    obtain ⟨htx, hrx⟩ := t.g.raiseStart_keeps k
    exact aside_of_keeps htx hrx
  · exact absurd h (by simp)

theorem Threads.sample_moved {k : Clock} (h : t.step (.sample k) = some (t', o)) :
    t.Moved t' o := by
  simp only [step] at h
  split at h
  · simp only [Option.map_eq_some_iff] at h
    obtain ⟨r, hr, h⟩ := h
    obtain ⟨rfl, rfl⟩ := Prod.mk.inj h
    obtain ⟨htx, hrx⟩ := Client.sampleMeter_keeps hr
    exact aside_of_keeps htx hrx
  · exact absurd h (by simp)

theorem Threads.netDown_moved (h : t.step .netDown = some (t', o)) : t.Moved t' o := by
  simp only [step] at h
  split at h
  · obtain ⟨rfl, rfl⟩ := Prod.mk.inj (Option.some.inj h)
    exact aside_of_keeps rfl rfl
  · exact absurd h (by simp)

theorem Threads.env_moved {w : EnvWrite} (h : t.step (.env w) = some (t', o)) : t.Moved t' o := by
  simp only [step, Option.map_eq_some_iff] at h
  obtain ⟨r, _, h⟩ := h
  obtain ⟨rfl, rfl⟩ := Prod.mk.inj h
  exact aside_of_keeps rfl rfl

theorem Threads.linkDown_moved (h : t.step .linkDown = some (t', o)) : t.Moved t' o := by
  simp only [step] at h
  split at h
  · rename_i hidle
    obtain ⟨rfl, rfl⟩ := Prod.mk.inj (Option.some.inj h)
    exact .cleared .client (.inl hidle) (fun _ _ => rfl) rfl rfl rfl
  · exact absurd h (by simp)

theorem Threads.recvFail_moved (h : t.step .recvFail = some (t', o)) : t.Moved t' o := by
  simp only [step] at h
  split at h
  · rename_i hidle
    obtain ⟨rfl, rfl⟩ := Prod.mk.inj (Option.some.inj h)
    exact .cleared .receiver (.inl hidle.1) (fun _ _ => rfl) rfl rfl rfl
  · exact absurd h (by simp)

theorem Threads.recv_moved {frame : List Char} (h : t.step (.recv frame) = some (t', o)) :
    t.Moved t' o := by
  simp only [step] at h
  split at h
  · simp only [Option.map_eq_some_iff] at h
    obtain ⟨d, _, h⟩ := h
    obtain ⟨rfl, rfl⟩ := Prod.mk.inj h
    refine .cleared .receiver ?_ (fun p hp => t.advance_ne hp ..) rfl rfl rfl
    rw [t.advance_self]
    cases d.err
    · exact .inr rfl
    · exact .inl rfl
  · exact absurd h (by simp)

theorem Threads.handle_moved {j : Junk} (h : t.step (.handle j) = some (t', o)) :
    t.Moved t' o := by
  simp only [step] at h
  split at h
  · simp only [Option.map_eq_some_iff] at h
    obtain ⟨⟨r, s⟩, hr, h⟩ := h
    have hok := Client.handleParsed_ok hr
    cases hok with
    | done htx hrx =>
      obtain ⟨rfl, rfl⟩ := Prod.mk.inj h
      refine .aside (fun p => ?_) htx hrx rfl rfl
      by_cases hp : p = .receiver
      · exact .inr (by rw [hp, t.advance_self])
      · exact .inl (t.advance_ne hp ..)
    | filled hne htype =>
      cases r with
      | done => exact absurd rfl hne
      | unsent =>
        obtain ⟨rfl, rfl⟩ := Prod.mk.inj h
        exact .prepared .receiver _ (.inl (t.advance_self ..)) (fun p hp => t.advance_ne hp ..)
          htype rfl rfl rfl rfl
      | toSend =>
        obtain ⟨rfl, rfl⟩ := Prod.mk.inj h
        exact .prepared .receiver _ (.inr (t.advance_self ..)) (fun p hp => t.advance_ne hp ..)
          htype rfl rfl rfl rfl
  · exact absurd h (by simp)

theorem Threads.encode_moved {q : Party} (h : t.step (.encode q) = some (t', o)) :
    t.Moved t' o := by
  simp only [step] at h
  split at h
  · rename_i hq
    obtain ⟨rfl, rfl⟩ := Prod.mk.inj (Option.some.inj h)
    exact .encoded q hq (if_pos rfl) (fun p hp => if_neg hp) rfl rfl
  · exact absurd h (by simp)

theorem Client.wsSend_keeps (s : Client) (k : Clock) :
    (s.wsSend k true).tx = s.tx ∧ (s.wsSend k true).rx = s.rx := by
  unfold wsSend
  rw [if_pos rfl]
  split
  · exact ⟨rfl, rfl⟩
  · exact ⟨rfl, rfl⟩

theorem Threads.transmit_moved {q : Party} {k : Clock} {sendOk : Bool}
    (h : t.step (.transmit q k sendOk) = some (t', o)) : t.Moved t' o := by
  simp only [step] at h
  split at h
  · rename_i hq
    obtain ⟨rfl, rfl⟩ := Prod.mk.inj (Option.some.inj h)
    cases sendOk with
    | true =>
      obtain ⟨htx, hrx⟩ := t.g.wsSend_keeps k
      exact .sent q hq (t.advance_self ..) (fun p hp => t.advance_ne hp ..) htx hrx rfl rfl
    | false =>
      exact .cleared q (.inl (t.advance_self ..)) (fun p hp => t.advance_ne hp ..) rfl rfl rfl
  · exact absurd h (by simp)

/-- **What a call does to the buffers.** -/
theorem Threads.step_moved {m : Move} (h : t.step m = some (t', o)) : t.Moved t' o := by
  cases m with
  | senario k => exact senario_moved h
  | connect connectOk => exact connect_moved h
  | raiseStart k => exact raiseStart_moved h
  | sample k => exact sample_moved h
  | linkDown => exact linkDown_moved h
  | netDown => exact netDown_moved h
  | recv frame => exact recv_moved h
  | recvFail => exact recvFail_moved h
  | handle j => exact handle_moved h
  | encode q => exact encode_moved h
  | transmit q k sendOk => exact transmit_moved h
  | env w => exact env_moved h

end Calls

/-! ## Whose message a frame is

`Waits` and `Leaves` follow a message through `Tx_Msg` and the send buffer, with the steps of the
other thread since. As long as none of them spoils it the buffers hold what was prepared; once
one does, nothing more is said of this message. -/

/-- The step spoils a message of `p` that waits in `Tx_Msg`: it overwrites it, resets its array
lengths, or takes the id an answer is to carry. -/
def Note.Spoils (p : Party) : Note → Prop
  | .prepared _ _ | .encoded _ => True
  | .rxCleared _ => p = .receiver
  | .sent _ _ => False

/-- The step overwrites `curl_ws_send_buf`. -/
def Note.Overwrites : Note → Prop
  | .encoded _ => True
  | .prepared _ _ | .sent _ _ | .rxCleared _ => False

/-- `p` has a message in `Tx_Msg`; since then, `mid`. -/
structure Waits (p : Party) (log before : List Note) (m : Prepared) (mid : List Note) : Prop where
  log_eq : log = before ++ .prepared p m :: mid
  type : m.tx.msg.msgType = p.msgType
  other : ∀ n ∈ mid, n.actor = p.other

/-- `p` has a text in `curl_ws_send_buf`; before that `mid₁`, since then `mid₂`. -/
structure Leaves (p : Party) (log before : List Note) (m : Prepared) (mid₁ mid₂ : List Note) :
    Prop where
  log_eq : log = before ++ .prepared p m :: (mid₁ ++ .encoded p :: mid₂)
  type : m.tx.msg.msgType = p.msgType
  other₁ : ∀ n ∈ mid₁, n.actor = p.other
  other₂ : ∀ n ∈ mid₂, n.actor = p.other

/-- The buffers hold what `p` put there, unless the other thread spoiled it. -/
def Threads.Holds (t : Threads) (log : List Note) (p : Party) : Prop :=
  match t.pc p with
  | .prepared => ∃ before m mid, Waits p log before m mid ∧
      ((∀ n ∈ mid, ¬ n.Spoils p) →
        t.g.tx = m.tx ∧ (p = .receiver → t.g.rx.msg.uniqueIdChar = m.rxId))
  | .encoded => ∃ before m mid₁ mid₂, Leaves p log before m mid₁ mid₂ ∧
      ((∀ n ∈ mid₁, ¬ n.Spoils p) → (∀ n ∈ mid₂, ¬ n.Overwrites) → t.curlWsSendBuf = m.frame)
  | .idle | .parsed => True

theorem Threads.Holds.of_rest {t : Threads} {log : List Note} {p : Party}
    (h : t.pc p = .idle ∨ t.pc p = .parsed) : t.Holds log p := by
  unfold Holds
  rcases h with h | h
  · rw [h]
    trivial
  · rw [h]
    trivial

/-- A step of the other thread. -/
theorem Threads.Holds.other {t t' : Threads} {log o : List Note} {p : Party}
    (h : t.Holds log p) (hpc : t'.pc p = t.pc p) (hby : ∀ n ∈ o, n.actor = p.other)
    (htx : (∀ n ∈ o, ¬ n.Spoils p) →
      t'.g.tx = t.g.tx ∧ (p = .receiver → t'.g.rx.msg.uniqueIdChar = t.g.rx.msg.uniqueIdChar))
    (hbuf : (∀ n ∈ o, ¬ n.Overwrites) → t'.curlWsSendBuf = t.curlWsSendBuf) :
    t'.Holds (log ++ o) p := by
  unfold Holds at h ⊢
  rw [hpc]
  cases hp : t.pc p with
  | idle => trivial
  | parsed => trivial
  | prepared =>
    rw [hp] at h
    obtain ⟨before, m, mid, hw, hkeep⟩ := h
    refine ⟨before, m, mid ++ o, ⟨?_, hw.type, ?_⟩, ?_⟩
    · rw [hw.log_eq, List.append_assoc, List.cons_append]
    · exact List.forall_mem_append.mpr ⟨hw.other, hby⟩
    · intro hquiet
      obtain ⟨hmid, ho⟩ := List.forall_mem_append.mp hquiet
      obtain ⟨htx, hid⟩ := htx ho
      obtain ⟨htx₀, hid₀⟩ := hkeep hmid
      exact ⟨htx.trans htx₀, fun hp => (hid hp).trans (hid₀ hp)⟩
  | encoded =>
    rw [hp] at h
    obtain ⟨before, m, mid₁, mid₂, hl, hkeep⟩ := h
    refine ⟨before, m, mid₁, mid₂ ++ o, ⟨?_, hl.type, hl.other₁, ?_⟩, ?_⟩
    · rw [hl.log_eq]
      simp only [List.append_assoc, List.cons_append]
    · exact List.forall_mem_append.mpr ⟨hl.other₂, hby⟩
    · intro hmid₁ hquiet
      obtain ⟨hmid₂, ho⟩ := List.forall_mem_append.mp hquiet
      exact (hbuf ho).trans (hkeep hmid₁ hmid₂)

/-- A CALL is printed without the id in `Rx_Msg`. -/
theorem makeOcppMsg_call {tx : TxBuf} (h : tx.msg.msgType = msgTypeCall) (id id' : List Char) :
    makeOcppMsg tx id = makeOcppMsg tx id' := by
  unfold makeOcppMsg encHeader
  rw [if_pos h, if_pos h]

/-- **Every call keeps what the buffers hold.** -/
theorem Threads.Holds.step {t t' : Threads} {m : Move} {log o : List Note}
    (h : ∀ p, t.Holds log p) (hstep : t.step m = some (t', o)) : ∀ p, t'.Holds (log ++ o) p := by
  intro p
  -- its own call moves the party on; the other's leaves it what it holds, or spoils it
  cases step_moved hstep with
  | aside hpc htx hrx hbuf ho =>
    subst ho
    rcases hpc p with hsame | hidle
    · exact (h p).other hsame (by simp) (fun _ => ⟨htx, fun _ => by rw [hrx]⟩) (fun _ => hbuf)
    · exact .of_rest (.inl hidle)
  | cleared q hself hpc htx hbuf ho =>
    subst ho
    by_cases hq : q = p
    · exact .of_rest (hq ▸ hself)
    · refine (h p).other (hpc p (Ne.symm hq)) ?_ (fun hquiet => ⟨htx, fun hp => ?_⟩) (fun _ => hbuf)
      · simpa [Note.actor] using Party.ne_iff.mp hq
      · exact absurd hp (hquiet _ (List.mem_singleton.mpr rfl))
  | prepared q m hself hpc htype htx hid hbuf ho =>
    subst ho
    by_cases hq : q = p
    · subst hq
      rcases hself with hidle | hprep
      · exact .of_rest (.inl hidle)
      · unfold Holds
        rw [hprep]
        exact ⟨log, m, [], ⟨rfl, htype, by simp⟩, fun _ => ⟨htx, fun _ => hid⟩⟩
    · refine (h p).other (hpc p (Ne.symm hq)) ?_ (fun hquiet => ?_) (fun _ => hbuf)
      · simpa [Note.actor] using Party.ne_iff.mp hq
      · exact absurd trivial (hquiet _ (List.mem_singleton.mpr rfl))
  | encoded q hq hself hpc hbuf ho =>
    subst ho
    by_cases hqp : q = p
    · subst hqp
      have hw := h q
      unfold Holds at hw ⊢
      rw [hq] at hw
      rw [hself]
      obtain ⟨before, m, mid, hw, hkeep⟩ := hw
      refine ⟨before, m, mid, [], ⟨?_, hw.type, hw.other, by simp⟩, fun hquiet _ => ?_⟩
      · rw [hw.log_eq, List.append_assoc, List.cons_append]
      · obtain ⟨htx, hid⟩ := hkeep hquiet
        rw [hbuf, htx, Prepared.frame]
        cases q with
        | client => exact makeOcppMsg_call hw.type _ _
        | receiver => rw [hid rfl]
    · refine (h p).other (hpc p (Ne.symm hqp)) ?_ (fun hquiet => ?_) (fun hquiet => ?_)
      · simpa [Note.actor] using Party.ne_iff.mp hqp
      · exact absurd trivial (hquiet _ (List.mem_singleton.mpr rfl))
      · exact absurd trivial (hquiet _ (List.mem_singleton.mpr rfl))
  | sent q hq hself hpc htx hrx hbuf ho =>
    subst ho
    by_cases hqp : q = p
    · exact .of_rest (.inl (hqp ▸ hself))
    · refine (h p).other (hpc p (Ne.symm hqp)) ?_ (fun _ => ⟨htx, fun _ => by rw [hrx]⟩)
        (fun _ => hbuf)
      simpa [Note.actor] using Party.ne_iff.mp hqp

/-- What is behind a frame: a message its sender prepared, with the sender idle since but for
filling the send buffer. The frame is exactly that message, unless the other thread, before
the send buffer was filled, spoiled the message or, after it, overwrote the buffer. -/
def FrameOwn (pre : List Note) : Note → Prop
  | .sent p frame => ∃ before m mid₁ mid₂, Leaves p pre before m mid₁ mid₂ ∧
      ((∀ n ∈ mid₁, ¬ n.Spoils p) → (∀ n ∈ mid₂, ¬ n.Overwrites) → frame = m.frame)
  | .prepared _ _ | .encoded _ | .rxCleared _ => True

/-- **Every frame of every interleaving** is the message its sender prepared, if the other
thread left it alone. -/
theorem frames_own {t : Threads} {log : List Note} (h : Interleaved t log) :
    Past FrameOwn log := by
  obtain ⟨st, now, h⟩ := h
  have hinv : (∀ p, t.Holds log p) ∧ Past FrameOwn log := by
    refine h.invariant (I := fun t log => (∀ p, t.Holds log p) ∧ Past FrameOwn log)
      ⟨fun _ => .of_rest (.inl rfl), .nil⟩ ?_
    rintro t log m t' o ⟨hholds, hpast⟩ - hstep
    refine ⟨Threads.Holds.step hholds hstep, hpast.append fun l x l' heq => ?_⟩
    cases x with
    | prepared | encoded | rxCleared => trivial
    | sent p frame =>
      cases Threads.step_moved hstep with
      | aside hpc htx hrx hbuf ho => simp [ho] at heq
      | cleared q hself hpc htx hbuf ho => cases l <;> simp [ho] at heq
      | prepared q m hself hpc htype htx hid hbuf ho => cases l <;> simp [ho] at heq
      | encoded q hq hself hpc hbuf ho => cases l <;> simp [ho] at heq
      | sent q hq hself hpc htx hrx hbuf ho =>
        rw [ho] at heq
        obtain ⟨rfl, rfl, rfl⟩ : l = [] ∧ q = p ∧ t.curlWsSendBuf = frame := by
          cases l with
          | nil =>
            simp only [List.nil_append, List.cons.injEq, Note.sent.injEq] at heq
            exact ⟨rfl, heq.1⟩
          | cons y l => simp at heq
        have hq' := hholds q
        unfold Threads.Holds at hq'
        rw [hq] at hq'
        simpa [FrameOwn] using hq'
  exact hinv.2

/-! ## The atomic level

From a state in which both threads rest, the calls of one event in a row lead to the state after
the event, with both at rest again. The induction over the run puts them one behind the other. -/

/-- The threads at rest around the client `s`. -/
def Threads.Rests (t : Threads) (s : Client) : Prop := t.g = s ∧ ∀ p, t.pc p = .idle

/-- Some calls lead from `t` to `t'`. -/
def Threads.Leads (t t' : Threads) : Prop :=
  ∀ st now log, Always Threads.step (Threads.init st now) t log →
    ∃ log', Always Threads.step (Threads.init st now) t' log'

theorem Threads.Leads.refl (t : Threads) : t.Leads t := fun _ _ log h => ⟨log, h⟩

theorem Threads.Leads.call {t t' t'' : Threads} {m : Move} {o : List Note}
    (hstep : t.step m = some (t', o)) (h : t'.Leads t'') : t.Leads t'' :=
  fun st now _ hreach => h st now _ (hreach.step trivial hstep)

/-- Encoding and transmitting without interruption. -/
theorem Threads.leads_trans {t : Threads} {p : Party} {s : Client} (k : Clock) (sendOk : Bool)
    (h : ∀ q, q ≠ p → t.pc q = .idle) :
    ∃ t', (t.advance p .prepared s).Leads t' ∧ t'.Rests (s.tsctCurlWsTrans k sendOk).1 := by
  let t₁ : Threads := { (t.advance p .prepared s).advance p .encoded s.makeMsg.2 with
    curlWsSendBuf := s.makeMsg.1 }
  have henc : (t.advance p .prepared s).step (.encode p) = some (t₁, [.encoded p]) :=
    if_pos (t.advance_self ..)
  have hsend : t₁.step (.transmit p k sendOk) =
      some (t₁.advance p .idle (s.makeMsg.2.wsSend k sendOk), _) := if_pos (if_pos rfl)
  refine ⟨_, .call henc (.call hsend (.refl _)), (s.tsctCurlWsTrans_fst k sendOk).symm, fun q => ?_⟩
  by_cases hq : q = p
  · exact if_pos hq
  · rw [advance_ne _ hq]
    exact (if_neg hq).trans ((if_neg hq).trans (h q hq))

/-- The handler, and what follows it, without interruption. -/
theorem Threads.leads_handle {t : Threads} {s' : Client} {frame : List Char} {j : Junk}
    {k : Clock} {sendOk : Bool} {o : List Obs} (hp : t.pc .receiver = .parsed)
    (hidle : ∀ q, q ≠ .receiver → t.pc q = .idle)
    (h : t.g.recvParsed frame j k sendOk = some (s', o)) : ∃ t', t.Leads t' ∧ t'.Rests s' := by
  have hsplit := t.g.recvParsed_split frame j k sendOk
  rw [h, Option.map_some] at hsplit
  obtain ⟨⟨r, s⟩, hr, hs⟩ := Option.map_eq_some_iff.mp hsplit.symm
  have hrest : ∀ u : Threads, (∀ q, q ≠ .receiver → u.pc q = t.pc q) → u.pc .receiver = .idle →
      ∀ q, u.pc q = .idle := by
    intro u hpc hself q
    by_cases hq : q = .receiver
    · rw [hq, hself]
    · rw [hpc q hq, hidle q hq]
  cases r with
  | done =>
    obtain rfl : s = s' := hs
    have hhandle : t.step (.handle j) = some (t.advance .receiver .idle s, []) := by
      simp only [step, hp, if_true, hr, Option.map_some]
    exact ⟨_, .call hhandle (.refl _), rfl,
      hrest _ (fun q hq => t.advance_ne hq ..) (t.advance_self ..)⟩
  | unsent =>
    obtain rfl : s = s' := hs
    have hhandle : t.step (.handle j) = some (t.advance .receiver .idle s,
        [.prepared .receiver ⟨s.tx, s.rx.msg.uniqueIdChar⟩]) := by
      simp only [step, hp, if_true, hr, Option.map_some]
    exact ⟨_, .call hhandle (.refl _), rfl,
      hrest _ (fun q hq => t.advance_ne hq ..) (t.advance_self ..)⟩
  | toSend =>
    obtain rfl : s.makeMsg.2.wsSend k sendOk = s' := hs
    have hhandle : t.step (.handle j) = some (t.advance .receiver .prepared s,
        [.prepared .receiver ⟨s.tx, s.rx.msg.uniqueIdChar⟩]) := by
      simp only [step, hp, if_true, hr, Option.map_some]
    obtain ⟨t', hleads, hrest⟩ := leads_trans (p := .receiver) (s := s) k sendOk hidle
    exact ⟨t', .call hhandle hleads, (s.tsctCurlWsTrans_fst k sendOk) ▸ hrest⟩

theorem Threads.Rests.aside {t : Threads} {s s' : Client} {m : Move} {o : List Note}
    (h : t.Rests s) (hstep : t.step m = some ({ t with g := s' }, o)) :
    ∃ t', t.Leads t' ∧ t'.Rests s' :=
  ⟨_, .call hstep (.refl _), rfl, h.2⟩

/-- **An atomic event is a sequence of calls.** -/
theorem Threads.Rests.event {t : Threads} {s s' : Client} {e : Event} {o : List Obs}
    (h : t.Rests s) (hstep : ChargePoint.step s e = some (s', o)) :
    ∃ t', t.Leads t' ∧ t'.Rests s' := by
  obtain ⟨rfl, hidle⟩ := h
  have hrests : t.Rests t.g := ⟨rfl, hidle⟩
  have hstay : some (t.g, ([] : List Obs)) = some (s', o) → ∃ t', t.Leads t' ∧ t'.Rests s' := by
    intro h
    obtain ⟨rfl, -⟩ := Prod.mk.inj (Option.some.inj h)
    exact ⟨t, .refl t, hrests⟩
  -- each event is the calls it is made of, done one after the other
  cases e with
  | raiseStart k =>
    obtain ⟨rfl, -⟩ := Prod.mk.inj (Option.some.inj hstep)
    exact hrests.aside (m := .raiseStart k) (if_pos (hidle _))
  | sample k =>
    refine hrests.aside (m := .sample k) (o := []) ?_
    have hs : t.g.sampleMeter k = some (s', o) := hstep
    simp only [step, hidle, if_true, hs, Option.map_some]
  | linkDown =>
    obtain ⟨rfl, -⟩ := Prod.mk.inj (Option.some.inj hstep)
    exact hrests.aside (m := .linkDown) (if_pos (hidle _))
  | netDown =>
    obtain ⟨rfl, -⟩ := Prod.mk.inj (Option.some.inj hstep)
    exact hrests.aside (m := .netDown) (if_pos (hidle _))
  | netRun k sendOk connectOk =>
    simp only [ChargePoint.step, Client.netRun] at hstep
    split at hstep
    · rename_i hc
      unfold Client.tick at hstep
      split at hstep
      · exact absurd hstep (by simp)
      · rename_i s₁ hsen
        obtain ⟨rfl, -⟩ := Prod.mk.inj (Option.some.inj hstep)
        refine hrests.aside (m := .senario k) (o := []) ?_
        simp only [step, hidle, hc, and_self, if_true, hsen, Option.map_some]
      · rename_i a s₁ hsen
        obtain ⟨rfl, -⟩ := Prod.mk.inj (Option.some.inj hstep)
        -- a CALL is due: the scenario, then the encoder and the line
        have hmake : t.step (.senario k) = some (t.advance .client .prepared s₁,
            [.prepared .client ⟨s₁.tx, s₁.rx.msg.uniqueIdChar⟩]) := by
          simp only [step, hidle, hc, and_self, if_true, hsen, Option.map_some]
        obtain ⟨t', hleads, hrest⟩ :=
          leads_trans (p := .client) (s := s₁) k sendOk fun q _ => hidle q
        exact ⟨t', .call hmake hleads, hrest⟩
    · rename_i hc
      obtain ⟨rfl, -⟩ := Prod.mk.inj (Option.some.inj hstep)
      exact hrests.aside (m := .connect connectOk) (if_pos ⟨hidle _, by simpa using hc⟩)
  | recv frame j k sendOk =>
    simp only [ChargePoint.step] at hstep
    split at hstep
    · rename_i hc
      unfold Client.tsctCurlWsRecv at hstep
      split at hstep
      · rename_i hlen
        split at hstep
        · exact absurd hstep (by simp)
        · rename_i d hparse
          let s₁ : Client := { t.g with rx := d.rx, dataTransUniqueId := d.dataTransId }
          have hrecv : ∀ c, (if d.err then Pc.idle else .parsed) = c →
              t.step (.recv frame) = some (t.advance .receiver c s₁, [.rxCleared .receiver]) := by
            rintro c rfl
            refine (if_pos ⟨hidle _, hc, hlen⟩).trans ?_
            rw [hparse]
            rfl
          dsimp only at hstep
          split at hstep
          · rename_i herr
            obtain ⟨rfl, -⟩ := Prod.mk.inj (Option.some.inj hstep)
            refine ⟨_, .call (hrecv _ (if_pos herr)) (.refl _), rfl, fun q => ?_⟩
            by_cases hq : q = .receiver
            · exact if_pos hq
            · exact (if_neg hq).trans (hidle q)
          · rename_i herr
            obtain ⟨t', hleads, hrest⟩ := leads_handle (t := t.advance .receiver .parsed s₁)
              (t.advance_self ..) (fun q hq => (t.advance_ne hq ..).trans (hidle q)) hstep
            exact ⟨t', .call (hrecv _ (if_neg herr)) hleads, hrest⟩
      · exact absurd hstep (by simp)
    · exact hstay hstep
  | recvFail =>
    obtain ⟨rfl, -⟩ := Prod.mk.inj (Option.some.inj hstep)
    split
    · rename_i hc
      exact hrests.aside (m := .recvFail) (if_pos ⟨hidle _, hc⟩)
    · exact ⟨t, .refl t, hrests⟩
  | env w =>
    simp only [ChargePoint.step, Option.map_eq_some_iff] at hstep
    obtain ⟨r, hw, hs⟩ := hstep
    obtain ⟨rfl, -⟩ := Prod.mk.inj hs
    refine hrests.aside (m := .env w) (o := []) ?_
    simp only [step, hw, Option.map_some]

/-- **Every run is an interleaving** in which nobody is interrupted. -/
theorem run_interleaved {s : Client} {log : List Obs} (h : Run s log) :
    ∃ t log', Interleaved t log' ∧ t.Rests s := by
  obtain ⟨st, now, h⟩ := h
  have hreach : ∃ t log', Always Threads.step (Threads.init st now) t log' ∧ t.Rests s := by
    refine h.invariant
      (I := fun s _ => ∃ t log', Always Threads.step (Threads.init st now) t log' ∧ t.Rests s)
      ⟨_, _, .start, rfl, fun _ => rfl⟩ ?_
    rintro s log e s' o ⟨t, log', ht, hrest⟩ - hstep
    obtain ⟨t', hleads, hrest'⟩ := hrest.event hstep
    obtain ⟨log'', ht'⟩ := hleads st now log' ht
    exact ⟨t', log'', ht', hrest'⟩
  obtain ⟨t, log', ht, hrest⟩ := hreach
  exact ⟨t, log', ⟨st, now, ht⟩, hrest⟩

/-! ## Two interleavings -/

theorem exists_interleaved_of_exec {st : UInt32} {now : Nat} {ms : List Move}
    {p : Threads → List Note → Bool}
    (h : (Trace.exec Threads.step (fun _ _ _ => true) (Threads.init st now) [] ms).any
      (fun r => p r.1 r.2) = true) :
    ∃ t log, Interleaved t log ∧ p t log = true := by
  obtain ⟨t, log, hreach, hp⟩ := Trace.exists_reach_of_exec h
  exact ⟨t, log, ⟨st, now, hreach.always⟩, hp⟩

/-- The last message `p` prepared. -/
def lastPrepared (p : Party) (log : List Note) : Option Prepared :=
  log.reverse.findSome? fun n => match n with
    | .prepared q m => if q = p then some m else none
    | _ => none

/-- The last frame is the last message its sender prepared. -/
def lastFrameOwn (log : List Note) : Bool :=
  match log.getLast? with
  | some (.sent p frame) => (lastPrepared p log).any fun m => frame = m.frame
  | _ => false

/-- Connected, a BootNotification is prepared. -/
def bootPrepared : List Move := [.connect true, .senario (.reading 10 20)]

/-- It is encoded and sent. -/
def bootSent : List Move := [.encode .client, .transmit .client (.reading 10 20) true]

/-- A DataTransfer of the central system is received and served. -/
def dataTransferServed : List Move :=
  [.recv "[2,\"7\",\"DataTransfer\",\x7b\"vendorId\":\"x\"\x7d]".toList, .handle .zero]

set_option maxRecDepth 20000 in
/-- Undisturbed, the BootNotification is what goes out. -/
theorem frames_own_boot :
    ∃ t log, Interleaved t log ∧ Past FrameOwn log ∧ lastFrameOwn log = true := by
  have hrun : (Trace.exec Threads.step (fun _ _ _ => true) (Threads.init 3 0) []
      (bootPrepared ++ bootSent)).any (fun r => lastFrameOwn r.2) = true := by decide +kernel
  obtain ⟨t, log, h, hlast⟩ := exists_interleaved_of_exec (p := fun _ log => lastFrameOwn log) hrun
  exact ⟨t, log, h, frames_own h, hlast⟩

/-- Every frame is the last message its sender prepared. -/
def FrameLast (pre : List Note) : Note → Prop
  | .sent p frame => ∃ m, lastPrepared p pre = some m ∧ frame = m.frame
  | .prepared _ _ | .encoded _ | .rxCleared _ => True

set_option maxRecDepth 20000 in
/-- **A CALL that is replaced**: while the client thread sleeps between `OCPP_CALL_Senario` and
`Make_Ocpp_Msg`, the receive thread serves a request. The client thread sends its answer. -/
theorem call_replaced : ∃ t log, Interleaved t log ∧ ¬ Past FrameLast log := by
  let lost : List Note → Bool := fun log => match log.getLast? with
    | some (.sent p frame) =>
      (lastPrepared p log.dropLast).any fun m => frame ≠ m.frame
    | _ => false
  have hrun : (Trace.exec Threads.step (fun _ _ _ => true) (Threads.init 3 0) []
      (bootPrepared ++ dataTransferServed ++ bootSent)).any (fun r => lost r.2) = true := by
    decide +kernel
  obtain ⟨t, log, h, hlost⟩ := exists_interleaved_of_exec (p := fun _ log => lost log) hrun
  refine ⟨t, log, h, fun hpast => ?_⟩
  simp only [lost] at hlost
  split at hlost
  · rename_i p frame hlast
    have hsplit := List.dropLast_append_getLast? _ hlast
    obtain ⟨m, hm, hframe⟩ := hpast log.dropLast (.sent p frame) [] hsplit.symm
    simp [hm, hframe] at hlost
  · exact absurd hlost (by simp)

end ChargePoint
