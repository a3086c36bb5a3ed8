import ChargePoint.Requests

/-!
# CALLs that are served

`Exchange`: the central system's CALL came in, was handed to its handler, and the answer went
out. What the handlers do is then a matter of `rxCallDataProc` alone (`Exchange.serve`), and what
the answer says a matter of `Reply` (`Exchange.reply`).

The other way round, a frame that the parser reads as a request makes an exchange in every state
that is connected and booted (`exists_exchange`). How a request is read depends neither on the
CALL that is waited for nor on the last DataTransfer (`parseData_request_eq`), so a concrete frame
is parsed once, for all states.
-/

set_option autoImplicit false

namespace ChargePoint

open CStr

/-! ## Received, handed over, answered -/

/-- **A CALL of the central system and its answer** `f`. -/
structure Exchange (s s' : Client) (cmd : CsReqAction) (rx : RxBuf) (f : List Char) : Prop where
  recv : ∃ frame j k o, step s (.recv frame j k true) = some (s', o) ∧
    Obs.served frame rx.msg ∈ o ∧ f ∈ sentFrames o
  left : s'.rx = rx
  action : rx.msg.actionCode = .cs cmd

/-- What serving a CALL does. -/
structure Client.Serves (s s' : Client) (j : Junk) (m : RxMsg) (o : List Obs) : Prop where
  handler : ∃ rx cmd c tx, rx.msg = m ∧ m.actionCode = .cs cmd ∧
    rxCallDataProc cmd j rx s.cp s.tx = some (c, tx) ∧ s'.cp = c ∧
    (sentFrames o = [] ∨ (s.cp.cs.bCpStat 0 ≠ .none ∧ s'.bConnect = s.bConnect ∧ s'.rx = rx ∧
      sentFrames o = [makeOcppMsg tx m.uniqueIdChar]))

theorem Client.recv_serves {s s' : Client} {frame frame' : List Char} {j : Junk} {k : Clock}
    {sendOk : Bool} {o : List Obs} {m : RxMsg}
    (h : s.tsctCurlWsRecv frame j k sendOk = some (s', o)) (hm : Obs.served frame' m ∈ o) :
    s.Serves s' j m o := by
  -- an answer is not served
  have hres : ∀ {t t' : Client} {o : List Obs}, t.dispatchRes frame = some (t', o) →
      Obs.served frame' m ∉ o := by
    intro t t' o ht
    simp only [dispatchRes, Option.map_eq_some_iff, Prod.mk.injEq] at ht
    obtain ⟨c, -, -, rfl⟩ := ht
    simp
  unfold tsctCurlWsRecv at h
  split at h
  · split at h
    · cases h
    · rename_i d hd
      dsimp only at h
      split at h
      · cases h
        simp at hm
      · unfold recvParsed at h
        split at h
        · cases h
          simp at hm
        · split at h
          · -- before the boot: only a DataTransfer, and its answer is not sent
            split at h
            · split at h
              · exact absurd hm (hres h)
              · cases h
                simp at hm
            · split at h
              · rename_i hdata
                obtain ⟨-, hdata⟩ := hdata
                simp only [Option.map_eq_some_iff, Prod.mk.injEq] at h
                obtain ⟨⟨c, tx⟩, hserve, rfl, rfl⟩ := h
                obtain ⟨-, rfl⟩ : frame' = frame ∧ m = d.rx.msg := by simpa using hm
                exact ⟨d.rx, .dataTransfer, c, tx, rfl, hdata, hserve, rfl, .inl rfl⟩
              · cases h
                simp at hm
          · rename_i hboot
            split at h
            · split at h
              · exact absurd hm (hres h)
              · cases h
                simp at hm
            · split at h
              · split at h
                · rename_i cmd hcode
                  simp only [Option.map_eq_some_iff, Prod.mk.injEq] at h
                  obtain ⟨⟨c, tx⟩, hserve, rfl, rfl⟩ := h
                  let t : Client :=
                    { s with rx := d.rx, dataTransUniqueId := d.dataTransId, cp := c, tx := tx }
                  -- the answer is built in either case, and leaves only if the send succeeds
                  cases sendOk with
                  | false =>
                    obtain ⟨u, htrans⟩ := trans_fail t k
                    have hsent : (t.tsctCurlWsTrans k false).2 = [] := congrArg Prod.snd htrans
                    obtain ⟨-, rfl⟩ : frame' = frame ∧ m = d.rx.msg := by simpa [t, hsent] using hm
                    refine ⟨d.rx, cmd, c, tx, rfl, hcode, hserve, rfl, .inl ?_⟩
                    show sentFrames (.served frame d.rx.msg :: (t.tsctCurlWsTrans k false).2) = []
                    rw [hsent]
                    rfl
                  | true =>
                    obtain ⟨u, htrans⟩ := trans_res (s := t) k (rxCallDataProc_ok hserve).msgType
                    have hsent : (t.tsctCurlWsTrans k true).2 =
                        [.sent (makeOcppMsg tx d.rx.msg.uniqueIdChar) (afterMakeOcppMsg tx).msg c] :=
                      congrArg Prod.snd htrans
                    have hstate : (t.tsctCurlWsTrans k true).1 =
                        { t with tx := afterMakeOcppMsg tx, dataTransUniqueId := u } :=
                      congrArg Prod.fst htrans
                    obtain ⟨-, rfl⟩ : frame' = frame ∧ m = d.rx.msg := by simpa [t, hsent] using hm
                    refine ⟨d.rx, cmd, c, tx, rfl, hcode, hserve, ?_, .inr ⟨hboot, ?_, ?_, ?_⟩⟩
                    · exact congrArg Client.cp hstate
                    · have hkeep := congrArg Client.bConnect hstate
                      exact hkeep
                    · have hrx := congrArg Client.rx hstate
                      exact hrx
                    · show sentFrames (.served frame d.rx.msg :: (t.tsctCurlWsTrans k true).2) = _
                      rw [hsent]
                      rfl
                · cases h
                  simp at hm
              · cases h
                simp at hm
  · cases h

namespace Exchange
variable {s s' : Client} {cmd : CsReqAction} {rx : RxBuf} {f : List Char}

/-- **The handler behind an exchange.** -/
theorem serve (h : Exchange s s' cmd rx f) : ∃ j tx,
    rxCallDataProc cmd j rx s.cp s.tx = some (s'.cp, tx) ∧ f = makeOcppMsg tx rx.msg.uniqueIdChar ∧
    s.cp.cs.bCpStat 0 ≠ .none ∧ s'.bConnect = true := by
  obtain ⟨frame, j, k, o, hstep, hserved, hsent⟩ := h.recv
  simp only [step] at hstep
  split at hstep
  · rename_i hconn
    obtain ⟨rx', cmd', c, tx, hmsg, hcode, hserve, hcp, hout⟩ :=
      (Client.recv_serves hstep hserved).handler
    rcases hout with hnone | ⟨hboot, hkeep, hrx, hframe⟩
    · rw [hnone] at hsent
      simp at hsent
    · obtain rfl : rx' = rx := hrx.symm.trans h.left
      obtain rfl : cmd' = cmd := RxAction.cs.inj (hcode.symm.trans h.action)
      rw [hframe, List.mem_singleton] at hsent
      exact ⟨j, tx, by rw [hserve, hcp], hsent, hboot, hkeep.trans hconn⟩
  · cases hstep
    simp at hserved

/-- The answer is the text of a reply that does not depend on what was sent before. -/
theorem reply (h : Exchange s s' cmd rx f) (hplain : s.tx.Plain) (hcmd : ¬ cmd.Silent) :
    ∃ j r, (∀ tx, rxCallDataProc cmd j rx s.cp tx = some (s'.cp, Reply.write rx tx r)) ∧
      f = "[3,".toList ++ convStr2Str rx.msg.uniqueIdChar ++ ",\x7b".toList ++ r.text ++
        "\x7d]".toList := by
  obtain ⟨j, tx, hserve, rfl, -, -⟩ := h.serve
  obtain ⟨x, hx⟩ := rxCallDataProc_answers j rx s.cp hcmd
  have hxs := (hx s.tx).symm.trans hserve
  rw [Option.map_eq_some_iff] at hxs
  obtain ⟨⟨c, r⟩, rfl, heq⟩ := hxs
  obtain ⟨rfl, rfl⟩ := Prod.mk.inj heq
  exact ⟨j, r, hx, makeOcppMsg_reply rx hplain r _⟩

end Exchange

/-! ## Frames that are read as requests -/

/-- The header of a request does not depend on the CALL that is waited for. -/
theorem parseHeader_request_eq {frame : List Char} (htype : (typeText frame).head? = some '2')
    (a a' : CpReqAction) (msg : RxMsg) : parseHeader a frame msg = parseHeader a' frame msg := by
  rw [parseHeader_eq, parseHeader_eq]
  cases hcs : typeText frame with
  | nil => rfl
  | cons c cs =>
    rw [hcs] at htype
    obtain rfl : c = '2' := by simpa using htype
    dsimp only
    have hend : ∀ id rest, idEnd a { msg with msgType := '2'.toNat } id rest =
        idEnd a' { msg with msgType := '2'.toNat } id rest := by
      intro id rest
      cases rest with
      | nil => rfl
      | cons q rest =>
        unfold idEnd
        dsimp only
        rw [if_pos rfl, if_pos rfl, headerLoop_actionOpen, headerLoop_actionOpen]
        cases fromQuote rest with
        | nil => rfl
        | cons q' rest' =>
          dsimp only
          rw [headerLoop_action (Nat.zero_le _), headerLoop_action (Nat.zero_le _)]
    rw [hend]

/-- Nor does the rest depend on the last DataTransfer. -/
theorem parseData_request_eq {frame : List Char} (htype : (typeText frame).head? = some '2')
    (a : CpReqAction) (dt : UInt64) : parseData a dt clearRxMsgBuff frame =
      (parseData .none 0 clearRxMsgBuff frame).map fun d => ⟨d.err, d.rx, dt⟩ := by
  unfold parseData
  rw [parseHeader_request_eq htype a .none]
  cases hp : parseHeader .none frame clearRxMsgBuff.msg with
  | none => rfl
  | some h =>
    simp only [Option.bind_some]
    cases herr : h.err with
    | true => rfl
    | false =>
      obtain ⟨h2, -⟩ := parseHeader_request htype hp herr
      rw [if_neg (by simp), if_neg (by omega), if_neg (by simp), if_neg (by omega), Option.map_map]
      rfl

/-- What a frame is read as: no error, and a request. -/
structure ReadAs (frame : List Char) (cmd : CsReqAction) (rx : RxBuf) : Prop where
  length : frame.length < Client.recvBufCap
  type : (typeText frame).head? = some '2'
  parse : ∃ dt, parseData .none 0 clearRxMsgBuff frame = some ⟨false, rx, dt⟩
  action : rx.msg.actionCode = .cs cmd

/-- **A request makes an exchange** in every state that is connected and booted, if its handler
does not leave its arrays. -/
theorem exists_exchange {s : Client} {frame : List Char} {cmd : CsReqAction} {rx : RxBuf}
    {j : Junk} {c : Charger} {tx : TxBuf} (hread : ReadAs frame cmd rx)
    (hconn : s.bConnect = true) (hboot : s.cp.cs.bCpStat 0 ≠ .none)
    (hserve : rxCallDataProc cmd j rx s.cp s.tx = some (c, tx)) :
    ∃ s', Exchange s s' cmd rx (makeOcppMsg tx rx.msg.uniqueIdChar) ∧ s'.cp = c := by
  obtain ⟨dt, hparse⟩ := hread.parse
  let k : Clock := .reading 0 0
  let d : DataEnd := ⟨false, rx, s.dataTransUniqueId⟩
  have hd : parseData s.callTxMsg.actionCode s.dataTransUniqueId clearRxMsgBuff frame = some d := by
    rw [parseData_request_eq hread.type, hparse]
    rfl
  have h2 : rx.msg.msgType = 2 := by
    rcases parseData_request hread.type hd with ⟨herr, -⟩ | ⟨-, -, h2, -⟩
    · exact absurd herr (by simp [d])
    · exact h2
  let t : Client := { s with rx := rx, dataTransUniqueId := s.dataTransUniqueId, cp := c, tx := tx }
  have hstep : step s (.recv frame j k true) = some ((t.tsctCurlWsTrans k true).1,
      .served frame rx.msg :: (t.tsctCurlWsTrans k true).2) := by
    simp only [step, if_pos hconn, Client.tsctCurlWsRecv, if_pos hread.length, hd, d,
      Client.recvParsed, h2, hread.action, hserve, Option.map_some]
    rw [if_neg (by decide), if_neg (by decide), if_neg hboot, if_neg (by decide)]
    rfl
  obtain ⟨u, htrans⟩ := Client.trans_res (s := t) k (rxCallDataProc_ok hserve).msgType
  rw [htrans] at hstep
  refine ⟨_, ⟨⟨frame, j, k, _, hstep, ?_, ?_⟩, rfl, hread.action⟩, rfl⟩
  · simp
  · simp [sentFrames, t]

/-- A run goes on. -/
theorem Run.append {s s' : Client} {log log' : List Obs} (h : Run s log)
    (h' : Trace.Always step s s' log') : Run s' (log ++ log') := by
  obtain ⟨st, now, hrun⟩ := h
  refine ⟨st, now, ?_⟩
  refine h'.invariant (I := fun t l => Trace.Always step (Client.init st now) t (log ++ l)) ?_ ?_
  · rw [List.append_nil]
    exact hrun
  · intro t l e t' o hI _ hstep
    rw [← List.append_assoc]
    exact hI.step trivial hstep

set_option maxRecDepth 20000 in
/-- The charge point boots. -/
theorem exists_booted : ∃ s log, Run s log ∧ s.bConnect = true ∧ s.cp.cs.bCpStat 0 ≠ .none := by
  let p : Client → List Obs → Bool := fun s _ => s.bConnect && !decide (s.cp.cs.bCpStat 0 = .none)
  have hrun : (Trace.exec step (fun _ _ _ => true) (Client.init 3 0) [] (bootRun "20")).any
      (fun r => p r.1 r.2) = true := by decide +kernel
  obtain ⟨s, log, h, hp⟩ := exists_run_of_exec (p := p) hrun
  simp only [p, Bool.and_eq_true, Bool.not_eq_true', decide_eq_false_iff_not] at hp
  exact ⟨s, log, h, hp⟩

end ChargePoint
