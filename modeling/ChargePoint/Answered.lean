import ChargePoint.ConnectorIds

/-!
# Which CALLs are answered

A received CALL that stays within the arrays takes one of four ways through `Tsct_Curl_Ws_Recv`
(`CallStep`): its header or its payload is not accepted, and it is dropped; the boot is not
accepted and it is ignored; the boot is not accepted, but it is a DataTransfer, and it is served
without an answer; or it is served and answered. Which way it takes is read off the frame and one
status.

The answer carries the id as `Parse_Header` found it, up to the first quote. An id with an
escaped quote comes back cut off, and what comes back is never that id: this needs to know
that no property that can be first in `Tx_Msg` begins with a comma (`Spelled`).
-/

set_option autoImplicit false

namespace ChargePoint

open CStr Reading PayloadSt

/-! ## The ways of a CALL

`CallStep` is the receive step for frames that are CALLs, with what is observed of each way. That
the step leaves its arrays is none of the ways; `InBounds` is exactly when it does not
(`recv_isSome`), and the result carries that condition. -/

/-- **A received CALL.** -/
inductive Client.CallStep (s : Client) (frame : List Char) (j : Junk) (o : List Obs) : Prop
  /-- the header or the payload is not accepted -/
  | dropped (hund : ¬ Understood frame) (ho : o = [])
  /-- not before the boot -/
  | ignored (hund : Understood frame) (hboot : s.cp.cs.bCpStat 0 = .none)
      (haction : cstr (actionText frame) ≠ "DataTransfer".toList) (ho : o = [])
  /-- a DataTransfer before the boot -/
  | unanswered (hund : Understood frame) (hboot : s.cp.cs.bCpStat 0 = .none)
      (haction : cstr (actionText frame) = "DataTransfer".toList) (rx : RxMsg)
      (ho : o = [.served frame rx])
  | answered (hund : Understood frame) (hboot : s.cp.cs.bCpStat 0 ≠ .none) (cmd : CsReqAction)
      (rx : RxBuf) (c : Charger) (tx : TxBuf)
      (hserve : rxCallDataProc cmd j rx s.cp s.tx = some (c, tx))
      (ho : o = [.served frame rx.msg, .sent (makeOcppMsg tx (idText frame))
        (afterMakeOcppMsg tx).msg c])

/-- The action `DataTransfer` is the one that is written so. -/
theorem csReqMsg_dataTransfer : ∀ e ∈ csReqMsg,
    e.2 = .dataTransfer ↔ e.1 = "DataTransfer".toList := by decide

section Recv
variable {s : Client} {frame : List Char} {j : Junk} {k : Clock}

/-- What becomes of a request that was parsed. -/
theorem Client.recvParsed_call {cmd : CsReqAction} (h2 : s.rx.msg.msgType = 2)
    (hcode : s.rx.msg.actionCode = .cs cmd) : s.recvParsed frame j k true =
      if s.cp.cs.bCpStat 0 = .none ∧ cmd ≠ .dataTransfer then some (s, [])
      else (rxCallDataProc cmd j s.rx s.cp s.tx).map fun r =>
        if s.cp.cs.bCpStat 0 = .none then
          ({ s with cp := r.1, tx := r.2 }, [.served frame s.rx.msg])
        else
          let t := ({ s with cp := r.1, tx := r.2 } : Client).tsctCurlWsTrans k true
          (t.1, .served frame s.rx.msg :: t.2) := by
  unfold recvParsed
  simp only [h2, hcode, RxAction.cs.injEq]
  rw [if_neg (by decide)]
  by_cases hboot : s.cp.cs.bCpStat 0 = .none
  · rw [if_pos hboot, if_neg (by simp)]
    by_cases hdata : cmd = .dataTransfer
    · subst hdata
      simp only [hboot, and_self, if_true, ne_eq, not_true, and_false, if_false]
    · rw [if_neg fun h => hdata h.2, if_pos ⟨hboot, hdata⟩]
  · rw [if_neg hboot, if_neg (by decide), if_pos trivial, if_neg fun h => hboot h.1]
    simp only [if_neg hboot]

theorem Client.recv_call {s' : Client} {o : List Obs} (htype : (typeText frame).head? = some '2')
    (h : s.tsctCurlWsRecv frame j k true = some (s', o)) : s.CallStep frame j o := by
  unfold tsctCurlWsRecv at h
  split at h
  · split at h
    · exact absurd h (by simp)
    · rename_i d hd
      dsimp only at h
      rcases parseData_request htype hd with
        ⟨herr, hund⟩ | ⟨herr, hund, h2, hid, -, e, hmem, haction, hcode⟩
      · rw [if_pos herr] at h
        obtain ⟨-, rfl⟩ := Prod.mk.inj (Option.some.inj h)
        exact .dropped hund rfl
      · have hkind := csReqMsg_dataTransfer e hmem
        rw [haction] at hkind
        rw [if_neg (by rw [herr]; decide), recvParsed_call h2 hcode] at h
        dsimp only at h
        split at h
        · rename_i hignored
          obtain ⟨-, rfl⟩ := Prod.mk.inj (Option.some.inj h)
          exact .ignored hund hignored.1 (fun hname => hignored.2 (hkind.mpr hname)) rfl
        · rename_i hserved
          obtain ⟨⟨c, tx⟩, hserve, hr⟩ := Option.map_eq_some_iff.mp h
          by_cases hboot : s.cp.cs.bCpStat 0 = .none
          · have hdata : e.2 = .dataTransfer := by
              by_contra hdata
              exact hserved ⟨hboot, hdata⟩
            rw [if_pos hboot] at hr
            obtain ⟨-, rfl⟩ := Prod.mk.inj hr
            exact .unanswered hund hboot (hkind.mp hdata) d.rx.msg rfl
          · rw [if_neg hboot] at hr
            obtain ⟨-, rfl⟩ := Prod.mk.inj hr
            let t : Client :=
              { s with rx := d.rx, dataTransUniqueId := d.dataTransId, cp := c, tx := tx }
            obtain ⟨u, htrans⟩ := Client.trans_res (s := t) k (rxCallDataProc_ok hserve).msgType
            have hsent : (t.tsctCurlWsTrans k true).2 =
                [.sent (makeOcppMsg tx d.rx.msg.uniqueIdChar) (afterMakeOcppMsg tx).msg c] :=
              congrArg Prod.snd htrans
            refine .answered hund hboot e.2 d.rx c tx hserve ?_
            rw [← hid]
            exact congrArg (Obs.served frame d.rx.msg :: ·) hsent
  · exact absurd h (by simp)

/-- A CALL for which the receive step stays within its arrays: `curl_ws_recv_buf`, those of the
parser, and after the boot those of the handler. -/
structure Client.InBounds (s : Client) (frame : List Char) (j : Junk) : Prop where
  short : frame.length < recvBufCap
  room : HasRoom frame
  handler : s.cp.cs.bCpStat 0 ≠ .none →
    ∀ cmd rx, ReadAs frame cmd rx → HandlerFits cmd j rx s.cp

/-- **When the receive step stays within its arrays** on a CALL. -/
theorem Client.recv_isSome (hhead : frame.head? = some '[')
    (htype : (typeText frame).head? = some '2') (hid : (idText frame).length ≤ tempBufCap) :
    (s.tsctCurlWsRecv frame j k true).isSome = true ↔ s.InBounds frame j := by
  have hroom := @parseData_call s.callTxMsg.actionCode s.dataTransUniqueId frame
    hhead htype hid
  unfold tsctCurlWsRecv
  by_cases hshort : frame.length < recvBufCap
  · rw [if_pos hshort]
    cases hd : parseData s.callTxMsg.actionCode s.dataTransUniqueId clearRxMsgBuff frame with
    | none =>
      rw [hd] at hroom
      exact iff_of_false (by simp) fun h => absurd (hroom.mpr h.room) (by simp)
    | some d =>
      rw [hd] at hroom
      have hfits := hroom.mp rfl
      -- the frame is read the same whatever is waited for
      have hread : ∀ cmd rx, ReadAs frame cmd rx →
          d.err = false ∧ d.rx = rx ∧ rx.msg.actionCode = .cs cmd := by
        intro cmd rx hread
        obtain ⟨dt, hparse⟩ := hread.parse
        rw [parseData_request_eq htype, hparse] at hd
        obtain rfl := Option.some.inj hd
        exact ⟨rfl, rfl, hread.action⟩
      dsimp only
      rcases parseData_request htype hd with
        ⟨herr, -⟩ | ⟨herr, -, h2, -, hlen, e, -, -, hcode⟩
      · rw [if_pos herr]
        refine iff_of_true rfl ⟨hshort, hfits, fun _ cmd rx h => ?_⟩
        rw [herr] at hread
        exact absurd (hread cmd rx h).1 (by simp)
      · have hreadAs : ReadAs frame e.2 d.rx := by
          refine ⟨hshort, htype, ?_, hcode⟩
          rw [parseData_request_eq htype] at hd
          obtain ⟨d', hd', rfl⟩ := Option.map_eq_some_iff.mp hd
          exact ⟨d'.dataTransId, by rw [hd']; exact congrArg some (by rw [← herr])⟩
        rw [if_neg (by rw [herr]; decide), recvParsed_call h2 hcode]
        dsimp only
        split
        · rename_i hignored
          exact iff_of_true rfl ⟨hshort, hfits, fun hboot => absurd hignored.1 hboot⟩
        · rename_i hserved
          rw [Option.isSome_map, rxCallDataProc_isSome hlen]
          constructor
          · intro hhandler
            refine ⟨hshort, hfits, fun _ cmd rx h => ?_⟩
            obtain ⟨-, rfl, haction⟩ := hread cmd rx h
            obtain rfl : e.2 = cmd := RxAction.cs.inj (hcode.symm.trans haction)
            exact hhandler
          · intro hin
            by_cases hboot : s.cp.cs.bCpStat 0 = .none
            · -- a DataTransfer, which computes no index
              have hdata : e.2 = .dataTransfer := by
                by_contra hdata
                exact hserved ⟨hboot, hdata⟩
              rw [hdata]
              exact ⟨fun i hi => absurd hi List.not_mem_nil, fun h => absurd h (by decide)⟩
            · exact hin.handler hboot _ _ hreadAs
  · rw [if_neg hshort]
    exact iff_of_false (by simp) fun h => hshort h.short

end Recv

/-! ## What is printed first

Behind the id of an answer stand its closing quote, a comma, a brace and the quote that opens the
name of the first property. Were this the rest of an id that was cut, the name's quote would be the
one that closes the id, since it is not escaped, and the name would begin with the comma behind the
id. That none does is an invariant of `Tx_Msg`. -/

/-- The first property does not begin with a comma. -/
def TxBuf.Spelled (tx : TxBuf) : Prop := (tx.msg.payload 0).propertyName.head? ≠ some ','

namespace TxBuf
variable {tx : TxBuf} {name : List Char}

theorem Spelled.setProp (h : tx.Spelled) (hname : name.head? ≠ some ',') (i : Nat)
    (val : List Char) (t : TypeCode) : (tx.setProp i name val t).Spelled := by
  show ((tx.setProp i name val t).msg.payload 0).field.name.head? ≠ some ','
  rw [setProp_field]
  split
  · exact hname
  · exact h

theorem Spelled.setSamples (h : tx.Spelled) (hname : name.head? ≠ some ',') (i : Nat)
    (q : Nat → MeterVal) : (tx.setSamples i name q).Spelled := by
  unfold Spelled TxBuf.setSamples TxBuf.setPayload
  dsimp only
  by_cases hi : 0 = i
  · subst hi
    rw [setAt_same]
    exact hname
  · rw [setAt_ne hi]
    exact h

theorem Spelled.setLen (h : tx.Spelled) (n : Nat) : (tx.setLen n).Spelled := h

theorem Spelled.after (h : tx.Spelled) : (afterMakeOcppMsg tx).Spelled := by
  unfold Spelled afterMakeOcppMsg
  dsimp only
  split
  · exact h
  · exact h

end TxBuf

section Spelled
variable {tx tx' : TxBuf}

theorem makeDataCmdDataTrans_spelled (h : tx.Spelled) (messageId data : List Char) (uid : UInt64) :
    (makeDataCmdDataTrans messageId data uid tx).Spelled := by
  have hcall : (tx.call uid 3 .dataTrans).Spelled := h
  exact ((hcall.setProp (by decide) 0 _ _).setProp (by decide) 1 _ _).setProp (by decide) 2 _ _

theorem makeDataCmdStopTs_spelled (h : tx.Spelled) (c : Charger) (trId uid : UInt64) :
    (makeDataCmdStopTs c trId uid tx).Spelled := by
  have hcall : (tx.call uid 3 .stopTs).Spelled := h
  unfold makeDataCmdStopTs
  cases stopReasonText c with
  | none =>
    dsimp only
    refine .setLen (.setSamples (.setProp ?_ (by decide) _ _ _) (by decide) _ _) _
    exact ((hcall.setProp (by decide) 0 _ _).setProp (by decide) 1 _ _).setProp (by decide) 2 _ _
  | some r =>
    dsimp only
    refine .setLen (.setSamples (.setProp (.setProp ?_ (by decide) _ _ _) (by decide) _ _ _)
      (by decide) _ _) _
    exact ((hcall.setProp (by decide) 0 _ _).setProp (by decide) 1 _ _).setProp (by decide) 2 _ _

/-- A status report names the connector first. -/
theorem makeDataCmdStat_spelled (c : Charger) (i : Fin 2) (uid : UInt64) (tm : Tm) (tx : TxBuf) :
    (makeDataCmdStat c i uid tm tx).Spelled := by
  have hfield := makeDataCmdStat_field c uid i tm tx 0
  dsimp only at hfield
  rw [if_neg (fun h => absurd h.2 (by decide)), if_neg (by decide), if_neg (by decide),
    if_neg (by decide), if_neg (by decide), if_pos rfl] at hfield
  show ((makeDataCmdStat c i uid tm tx).msg.payload 0).field.name.head? ≠ some ','
  rw [hfield]
  show "connectorId".toList.head? ≠ some ','
  decide

theorem Call.build_spelled {a : Call} {k : Clock} {c : Charger} (h : tx.Spelled)
    (hb : a.build k c tx = some tx') : (afterMakeOcppMsg tx').Spelled := by
  have hcall : ∀ len action, (tx.call k.uid len action).Spelled := fun _ _ => h
  refine TxBuf.Spelled.after ?_
  cases a with
  | boot =>
    obtain rfl := Option.some.inj hb
    exact (((hcall 3 .boot).setProp (by decide) 0 _ _).setProp (by decide) 1 _ _).setProp
      (by decide) 2 _ _
  | meterVal | trigMeter =>
    obtain rfl := Option.some.inj hb
    have hcall' : (tx.call (c.meterQ 0).uidMv 3 .meterVal).Spelled := h
    exact ((hcall'.setProp (by decide) 0 _ _).setProp (by decide) 1 _ _).setSamples (by decide) 2 _
  | stat i =>
    obtain rfl := Option.some.inj hb
    exact makeDataCmdStat_spelled c i k.uid k.tm tx
  | trigStat =>
    obtain rfl := Option.some.inj hb
    exact makeDataCmdStat_spelled c 1 k.uid k.tm tx
  | auth =>
    obtain rfl := Option.some.inj hb
    exact (hcall 1 .auth).setProp (by decide) 0 _ _
  | startTs =>
    obtain rfl := Option.some.inj hb
    exact ((((hcall 4 .startTs).setProp (by decide) 0 _ _).setProp (by decide) 1 _ _).setProp
      (by decide) 2 _ _).setProp (by decide) 3 _ _
  | stopTs =>
    obtain ⟨d, -, rfl⟩ := Option.map_eq_some_iff.mp hb
    exact makeDataCmdStopTs_spelled h c _ k.uid
  | chargeAmt =>
    obtain ⟨d, -, rfl⟩ := Option.map_eq_some_iff.mp hb
    exact makeDataCmdDataTrans_spelled h _ _ k.uid
  | trigDiag | diagStat =>
    obtain rfl := Option.some.inj hb
    exact (hcall 1 .diagStat).setProp (by decide) 0 _ _
  | trigFw | fwStat =>
    obtain rfl := Option.some.inj hb
    exact (hcall 1 .fwStat).setProp (by decide) 0 _ _
  | trigHb | hb =>
    obtain rfl := Option.some.inj hb
    exact h
  | dataTransJ1 | mbrUntpc | q1 | q2 | cpSts =>
    obtain rfl := Option.some.inj hb
    exact makeDataCmdDataTrans_spelled h _ _ k.uid

theorem Reply.write_spelled (h : tx.Spelled) (rx : RxBuf) (r : Reply) : (r.write rx tx).Spelled := by
  have hanswer : ∀ n, (tx.answer rx n).Spelled := fun _ => h
  cases r with
  | empty => exact h
  | prop name val int =>
    refine (hanswer 1).setProp ?_ 0 val _
    cases name <;> decide
  | keys ks =>
    show "configurationKey".toList.head? ≠ some ','
    decide
  | unknownAfter ks | unknown =>
    show "unknownKey".toList.head? ≠ some ','
    decide

theorem rxCallDataProc_spelled {cmd : CsReqAction} {j : Junk} {rx : RxBuf} {c c' : Charger}
    (h : tx.Spelled) (hs : rxCallDataProc cmd j rx c tx = some (c', tx')) : tx'.Spelled := by
  by_cases hsilent : cmd.Silent
  · cases cmd with
    | none | cancelReseve | getCompositSched | reserve | setChgProfile =>
      obtain ⟨-, rfl⟩ := Prod.mk.inj (Option.some.inj hs)
      exact h
    | changeAvail | changeConfig | clearCache | clearChargProf | dataTransfer | getConfig
    | getDiag | getLocalVer | remoteStart | remoteStop | reset | sndLocalList | triggerMsg
    | unlockConnect | updateFw => exact hsilent.elim
  · obtain ⟨x, hx⟩ := rxCallDataProc_answers j rx c hsilent
    have hreply := hs.symm.trans (hx tx)
    cases x with
    | none => exact absurd hreply (by simp)
    | some r =>
      obtain ⟨-, rfl⟩ := Prod.mk.inj (Option.some.inj hreply)
      exact r.2.write_spelled h rx

end Spelled

/-- **The first property never begins with a comma.** -/
theorem run_spelled {s : Client} {log : List Obs} (h : Run s log) : s.tx.Spelled := by
  obtain ⟨st, now, hrun⟩ := h
  refine hrun.invariant (I := fun s _ => s.tx.Spelled) (fun h => ?_) ?_
  · exact absurd (show ([] : List Char).head? = some ',' from h) (by decide)
  intro s log e s' o hp _ hstep
  exact step_tx Call.build_spelled (fun h hs => (rxCallDataProc_spelled h hs).after)
    rxCallDataProc_spelled hp hstep

/-! ## A request and its answer

`CallFrame` says nothing of the action or the payload: the statement is about every CALL, whether
its action is known or not. With an id that is not cut, what goes out is its answer by the form
of the frame; with one that is cut, no continuation of the shorter id is the longer one. -/

/-- Every quote is escaped, as in the text of a string. -/
def Escaped (id : List Char) : Prop := ∀ p r, id = p ++ '"' :: r → p.getLast? = some '\\'

/-- The frame of a CALL with this id, up to the id: `[2,"id"`, with blanks. What follows is
not looked at: any action, known or not, and any payload. -/
structure CallFrame (frame id : List Char) : Prop where
  form : ∃ w₁ w₂ w₃ rest, IsBlank w₁ ∧ IsBlank w₂ ∧ IsBlank w₃ ∧
    frame = '[' :: w₁ ++ '2' :: w₂ ++ ',' :: w₃ ++ '"' :: id ++ '"' :: rest
  short : id.length ≤ 29
  nulFree : NulFree id
  escaped : Escaped id

/-- A CALLRESULT or a CALLERROR with this id. -/
def IsAnswer (id f : List Char) : Prop :=
  "[3,\"".toList ++ id ++ "\",".toList <+: f ∨ "[4,\"".toList ++ id ++ "\",".toList <+: f

/-- **The CALL is answered once**: where it is served, or comes after the boot, one frame goes
out, and it is an answer with the id of the CALL. -/
def AnsweredOnce (s : Client) (frame id : List Char) (o : List Obs) : Prop :=
  ((∃ rx, .served frame rx ∈ o) ∨ s.cp.cs.bCpStat 0 ≠ .none) →
    ∃ f, sentFrames o = [f] ∧ IsAnswer id f

/-- When it is: it fits the arrays, and before the boot it is no DataTransfer, after it a request
that is understood, with an id that is not cut. -/
def Answerable (s : Client) (frame id : List Char) (j : Junk) : Prop :=
  s.InBounds frame j ∧
    if s.cp.cs.bCpStat 0 = .none then
      ¬ (Understood frame ∧ cstr (actionText frame) = "DataTransfer".toList)
    else Understood frame ∧ '"' ∉ id

section Frame
variable {frame id : List Char}

theorem fromQuote_skip {w : List Char} (hw : '"' ∉ w) (cs : List Char) :
    fromQuote (w ++ cs) = fromQuote cs := by
  induction w with
  | nil => rfl
  | cons c w ih =>
    obtain ⟨hc, hrest⟩ := not_or.mp (mt List.mem_cons.mpr hw)
    rw [List.cons_append, fromQuote_cons (Ne.symm hc), ih hrest]

theorem IsBlank.noQuote {w : List Char} (h : IsBlank w) : '"' ∉ w := by
  intro hmem
  exact absurd (h _ hmem) (by decide)

theorem toQuote_closed (id rest : List Char) : toQuote (id ++ '"' :: rest) = toQuote id := by
  induction id with
  | nil => exact toQuote_quote rest
  | cons c id ih =>
    by_cases hc : c = '"'
    · subst hc
      rw [List.cons_append, toQuote_quote, toQuote_quote]
    · rw [List.cons_append, toQuote_cons hc, toQuote_cons hc, ih]

/-- The landmarks of a CALL: its bracket, its type, and its id up to the first quote. -/
theorem CallFrame.landmarks (h : CallFrame frame id) : frame.head? = some '[' ∧
    (typeText frame).head? = some '2' ∧ idText frame = toQuote id := by
  obtain ⟨w₁, w₂, w₃, rest, h₁, h₂, h₃, rfl⟩ := h.form
  have htype : typeText ('[' :: w₁ ++ '2' :: w₂ ++ ',' :: w₃ ++ '"' :: id ++ '"' :: rest) =
      '2' :: (w₂ ++ ',' :: (w₃ ++ '"' :: (id ++ '"' :: rest))) := by
    unfold typeText
    simp only [List.cons_append, List.append_assoc, List.tail_cons]
    clear h
    induction w₁ with
    | nil => rfl
    | cons c w₁ ih =>
      have hc : ¬ (c = '2' ∨ c = '3' ∨ c = '4') := by
        rcases h₁ c List.mem_cons_self with rfl | rfl | rfl | rfl <;> decide
      rw [List.cons_append, List.dropWhile_cons_of_pos (by simpa using hc)]
      exact ih fun c' hc' => h₁ c' (List.mem_cons_of_mem c hc')
  refine ⟨rfl, by rw [htype]; rfl, ?_⟩
  show toQuote (fromQuote (typeText _)).tail = toQuote id
  rw [htype, fromQuote_cons (by decide), fromQuote_skip h₂.noQuote, fromQuote_cons (by decide),
    fromQuote_skip h₃.noQuote, fromQuote_quote, List.tail_cons, toQuote_closed]

theorem toQuote_noQuote (h : '"' ∉ id) : toQuote id = id := by
  have hclosed := toQuote_append h []
  rwa [toQuote_closed] at hclosed

/-- The first quote of an id. -/
theorem toQuote_split (h : '"' ∈ id) : ∃ r, id = toQuote id ++ '"' :: r := by
  induction id with
  | nil => exact absurd h List.not_mem_nil
  | cons c id ih =>
    by_cases hc : c = '"'
    · subst hc
      exact ⟨id, by rw [toQuote_quote]; rfl⟩
    · obtain ⟨r, hr⟩ := ih ((List.mem_cons.mp h).resolve_left (Ne.symm hc))
      refine ⟨r, ?_⟩
      rw [toQuote_cons hc, List.cons_append, ← hr]

/-- An id without a quote comes back. -/
theorem isAnswer_back {tx : TxBuf} (h : tx.msg.msgType = msgTypeCallRes) (hid : NulFree id) :
    IsAnswer id (makeOcppMsg tx id) := by
  obtain ⟨items, hframe, -⟩ := makeOcppMsg_res h id
  left
  rw [hframe, cstr_of_nulFree hid]
  exact ⟨'\x7b' :: items ++ "\x7d]".toList, by simp⟩

/-- What follows a quote in an id is not what follows the id in a frame: there the next quote
opens a name, and is not escaped. -/
theorem cut_mismatch {p r items name : List Char} (hesc : Escaped (p ++ '"' :: r))
    (hname : name.head? ≠ some ',') (hitems : items = [] ∨ '"' :: name ++ ['"'] <+: items) :
    ¬ r ++ ['"', ','] <+: ',' :: '\x7b' :: (items ++ ['\x7d', ']']) := by
  intro h
  rcases r with _ | ⟨c, _ | ⟨c', r⟩⟩
  · exact absurd (List.cons_prefix_cons.mp h).1 (by decide)
  · exact absurd (List.cons_prefix_cons.mp (List.cons_prefix_cons.mp h).2).1 (by decide)
  · obtain ⟨hc, hafter⟩ := List.cons_prefix_cons.mp h
    obtain ⟨hc', hrest⟩ := List.cons_prefix_cons.mp hafter
    subst hc hc'
    rcases hitems with rfl | ⟨t, rfl⟩
    · cases r with
      | nil => exact absurd (List.cons_prefix_cons.mp hrest).1 (by decide)
      | cons c r =>
        have hlen : (c :: r ++ ['"', ',']).length ≤ 2 := hrest.length_le
        simp only [List.length_append, List.length_cons, List.length_nil] at hlen
        omega
    · cases r with
      | nil =>
        have htail := (List.cons_prefix_cons.mp hrest).2
        cases name with
        | nil => exact absurd (List.cons_prefix_cons.mp htail).1 (by decide)
        | cons d name =>
          obtain rfl := (List.cons_prefix_cons.mp htail).1
          exact hname rfl
      | cons c r =>
        obtain rfl : c = '"' := (List.cons_prefix_cons.mp hrest).1
        have hlast := hesc (p ++ ['"', ',', '\x7b']) r (by simp)
        rw [List.getLast?_append] at hlast
        exact absurd (show some '\x7b' = some '\\' from hlast) (by decide)

/-- An id with a quote does not. -/
theorem not_isAnswer_cut {tx : TxBuf} (h : tx.msg.msgType = msgTypeCallRes) (hid : NulFree id)
    (hquote : '"' ∈ id) (hesc : Escaped id) (hspelled : tx.Spelled) :
    ¬ IsAnswer id (makeOcppMsg tx (toQuote id)) := by
  obtain ⟨r, hr⟩ := toQuote_split hquote
  have hcut : NulFree (toQuote id) := fun c hc => hid c (List.takeWhile_subset _ hc)
  obtain ⟨items, hframe, hitems⟩ := makeOcppMsg_res h (toQuote id)
  rw [cstr_of_nulFree hcut] at hframe
  generalize toQuote id = p at hr hframe
  subst hr
  rintro (hans | hans)
  · rw [hframe] at hans
    have hrest : p ++ '"' :: (r ++ ['"', ',']) <+:
        p ++ '"' :: ',' :: '\x7b' :: (items ++ ['\x7d', ']']) := by
      simpa using hans
    have htail := (List.cons_prefix_cons.mp ((List.prefix_append_right_inj p).mp hrest)).2
    have hname : (cstr (tx.msg.payload 0).propertyName).head? ≠ some ',' :=
      fun hhead => hspelled (head?_of_cstr hhead)
    exact cut_mismatch hesc hname hitems htail
  · rw [hframe] at hans
    have hthree := (List.cons_prefix_cons.mp (List.cons_prefix_cons.mp hans).2).1
    exact absurd hthree (by decide)

end Frame

/-- The step of a CALL that fits the arrays. -/
theorem answeredOnce_iff {s : Client} {log o : List Obs} {frame id : List Char} {j : Junk}
    (hrun : Run s log) (hcall : CallFrame frame id) (h : s.CallStep frame j o) :
    AnsweredOnce s frame id o ↔
      if s.cp.cs.bCpStat 0 = .none then
        ¬ (Understood frame ∧ cstr (actionText frame) = "DataTransfer".toList)
      else Understood frame ∧ '"' ∉ id := by
  obtain ⟨-, -, hid⟩ := hcall.landmarks
  unfold AnsweredOnce
  cases h with
  | dropped hund ho =>
    subst ho
    have hnone : ∀ f, sentFrames [] ≠ [f] := fun f h => absurd h (by simp [sentFrames])
    by_cases hboot : s.cp.cs.bCpStat 0 = .none
    · rw [if_pos hboot]
      exact ⟨fun _ hdata => hund hdata.1, fun _ hserved => absurd hserved (by simp [hboot])⟩
    · rw [if_neg hboot]
      constructor
      · intro hans
        obtain ⟨f, hf, -⟩ := hans (.inr hboot)
        exact absurd hf (hnone f)
      · intro hans
        exact absurd hans.1 hund
  | ignored hund hboot haction ho =>
    subst ho
    rw [if_pos hboot]
    exact ⟨fun _ hdata => haction hdata.2, fun _ hserved => absurd hserved (by simp [hboot])⟩
  -- before the boot a DataTransfer is served and nothing is sent
  | unanswered hund hboot haction rx ho =>
    subst ho
    rw [if_pos hboot]
    constructor
    · intro hans
      obtain ⟨f, hf, -⟩ := hans (.inl ⟨rx, List.mem_singleton_self _⟩)
      exact absurd hf (by simp [sentFrames])
    · intro hans
      exact absurd ⟨hund, haction⟩ hans
  | answered hund hboot cmd rx c tx hserve ho =>
    subst ho
    have htype : tx.msg.msgType = msgTypeCallRes := (rxCallDataProc_ok hserve).msgType
    have hspelled : tx.Spelled := rxCallDataProc_spelled (run_spelled hrun) hserve
    rw [if_neg hboot, hid]
    constructor
    · intro hans
      -- a quote in the id ends the answer's own id early, so what is sent carries another id
      obtain ⟨f, hf, hanswer⟩ := hans (.inr hboot)
      obtain rfl : makeOcppMsg tx (toQuote id) = f := by simpa [sentFrames] using hf
      refine ⟨hund, fun hquote => ?_⟩
      exact not_isAnswer_cut htype hcall.nulFree hquote hcall.escaped hspelled hanswer
    · intro hans _
      refine ⟨makeOcppMsg tx (toQuote id), rfl, ?_⟩
      rw [toQuote_noQuote hans.2]
      exact isAnswer_back htype hcall.nulFree

/-- **Which CALLs are answered.** In every run, a received CALL is served within the arrays and
answered once if and only if it is `Answerable`. -/
theorem call_answered_iff {s : Client} {log : List Obs} {frame id : List Char} (j : Junk)
    (k : Clock) (hrun : Run s log) (hconn : s.bConnect = true) (hcall : CallFrame frame id) :
    (∃ s' o, step s (.recv frame j k true) = some (s', o) ∧ AnsweredOnce s frame id o) ↔
      Answerable s frame id j := by
  obtain ⟨hhead, htype, hid⟩ := hcall.landmarks
  have hlen : (idText frame).length ≤ tempBufCap := by
    rw [hid]
    exact (List.takeWhile_prefix _).length_le.trans (hcall.short.trans (by decide))
  have hrecv : step s (.recv frame j k true) = s.tsctCurlWsRecv frame j k true := by
    simp only [step, hconn, if_true]
  have hbounds := Client.recv_isSome (s := s) (j := j) (k := k) hhead htype hlen
  rw [hrecv]
  constructor
  · rintro ⟨s', o, hstep, hans⟩
    refine ⟨hbounds.mp (by rw [hstep]; rfl), ?_⟩
    exact (answeredOnce_iff hrun hcall (Client.recv_call htype hstep)).mp hans
  · rintro ⟨hin, hans⟩
    obtain ⟨⟨s', o⟩, hstep⟩ := Option.isSome_iff_exists.mp (hbounds.mpr hin)
    exact ⟨s', o, hstep, (answeredOnce_iff hrun hcall (Client.recv_call htype hstep)).mpr hans⟩

/-- A ClearCache with the id 77, and an action that nobody knows. -/
def clearCacheFrame : List Char := "[2,\"77\",\"ClearCache\",\x7b\x7d]".toList
def unknownFrame : List Char := "[2,\"77\",\"Unknown\",\x7b\x7d]".toList

theorem callFrame_77 (rest : List Char) : CallFrame ("[2,\"77\"".toList ++ rest) "77".toList where
  form := by
    have hblank : IsBlank [] := fun c hc => absurd hc List.not_mem_nil
    exact ⟨[], [], [], rest, hblank, hblank, hblank, rfl⟩
  short := by decide
  nulFree := by decide
  escaped := by
    intro p r h
    have hmem : '"' ∈ "77".toList := by
      rw [h]
      exact List.mem_append_right p List.mem_cons_self
    exact absurd hmem (by decide)

theorem clearCache_inBounds (s : Client) (j : Junk) : s.InBounds clearCacheFrame j where
  short := by decide
  room := by
    refine ⟨by decide, fun rest hrest => ?_⟩
    have hbody : body clearCacheFrame = some ",\x7b\x7d]".toList := by decide
    obtain rfl := Option.some.inj (hbody.symm.trans hrest)
    have hmarks : marks .start '"' ",\x7b\x7d]".toList = [.reset] := by decide
    rw [hmarks]
    exact ⟨.inr trivial, trivial⟩
  handler := by
    intro _ cmd rx hread
    obtain ⟨dt, hparse⟩ := hread.parse
    rcases parseData_request hread.type hparse with ⟨herr, -⟩ | ⟨-, -, -, -, -, e, hmem, hname, hcode⟩
    · exact absurd herr (by simp)
    · obtain rfl : e.2 = cmd := RxAction.cs.inj (hcode.symm.trans hread.action)
      have hclear : ∀ e ∈ csReqMsg, e.1 = cstr (actionText clearCacheFrame) →
          e.2 = .clearCache := by decide
      rw [hclear e hmem hname]
      exact ⟨fun i hi => absurd hi List.not_mem_nil, fun h => absurd h (by decide)⟩

set_option maxRecDepth 20000 in
theorem call_answered_77 :
    ∃ s log s' o, Run s log ∧ s.cp.cs.bCpStat 0 ≠ .none ∧
      step s (.recv clearCacheFrame .zero (.reading 20 0) true) = some (s', o) ∧
      AnsweredOnce s clearCacheFrame "77".toList o := by
  let p : Client → List Obs → Bool := fun s _ => s.bConnect && !decide (s.cp.cs.bCpStat 0 = .none)
  have hrun : (Trace.exec step (fun _ _ _ => true) (Client.init 3 0) [] (bootRun "20")).any
      (fun r => p r.1 r.2) = true := by decide +kernel
  obtain ⟨s, log, h, hp⟩ := exists_run_of_exec (p := p) hrun
  simp only [p, Bool.and_eq_true, Bool.not_eq_true', decide_eq_false_iff_not] at hp
  obtain ⟨hconn, hboot⟩ := hp
  have hund : Understood clearCacheFrame := by
    refine ⟨",\x7b\x7d]".toList, ?_, ?_⟩ <;> decide
  have hanswerable : Answerable s clearCacheFrame "77".toList .zero := by
    refine ⟨clearCache_inBounds s .zero, ?_⟩
    rw [if_neg hboot]
    exact ⟨hund, by decide⟩
  obtain ⟨s', o, hstep, hans⟩ :=
    (call_answered_iff .zero (.reading 20 0) h hconn (callFrame_77 _)).mpr hanswerable
  exact ⟨s, log, s', o, h, hboot, hstep, hans⟩

set_option maxRecDepth 20000 in
/-- An action that is not in the table is dropped. -/
theorem unknown_action_dropped :
    ∃ s log s' o, Run s log ∧ s.bConnect = true ∧ CallFrame unknownFrame "77".toList ∧
      step s (.recv unknownFrame .zero (.reading 20 0) true) = some (s', o) ∧
      ¬ AnsweredOnce s unknownFrame "77".toList o := by
  let p : Client → List Obs → Bool := fun s _ => s.bConnect &&
    !decide (s.cp.cs.bCpStat 0 = .none) &&
    (step s (.recv unknownFrame .zero (.reading 20 0) true)).any fun r => sentFrames r.2 = []
  have hrun : (Trace.exec step (fun _ _ _ => true) (Client.init 3 0) [] (bootRun "20")).any
      (fun r => p r.1 r.2) = true := by decide +kernel
  obtain ⟨s, log, h, hp⟩ := exists_run_of_exec (p := p) hrun
  simp only [p, Bool.and_eq_true, Bool.not_eq_true', decide_eq_false_iff_not] at hp
  obtain ⟨⟨hconn, hboot⟩, hstep⟩ := hp
  obtain ⟨⟨s', o⟩, hstep, hsent⟩ := (Option.any_eq_true _ _).mp hstep
  have hnone : sentFrames o = [] := by simpa using hsent
  refine ⟨s, log, s', o, h, hconn, callFrame_77 _, hstep, fun hans => ?_⟩
  obtain ⟨f, hf, -⟩ := hans (.inr hboot)
  rw [hnone] at hf
  exact absurd hf (by simp)

end ChargePoint
