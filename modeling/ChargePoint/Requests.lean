import ChargePoint.Stale
import ChargePoint.Parse.Ends

/-!
# Requests and answers as frames

What the parser makes of a frame that begins as a CALL, read off the frame: it has a result if
the action and the payload have room (`parseData_call`), and the result is a request if the
action is known and the payload is not broken off (`parseData_request`). And how the frame of an
answer begins.
-/

set_option autoImplicit false

namespace ChargePoint

open CStr Reading PayloadSt

/-! ## What the parser makes of a request -/

/-- The frame is a request whose action is known and whose payload does not break off inside a
name, a string or before a value. -/
def Understood (frame : List Char) : Prop :=
  ∃ rest, body frame = some rest ∧ (stops .start '"' rest).ended = true

/-- What `Parse_Header` makes of a request. -/
theorem parseHeader_request {a : CpReqAction} {frame : List Char} {msg : RxMsg} {h : HeaderEnd}
    (htype : (typeText frame).head? = some '2') (hp : parseHeader a frame msg = some h)
    (he : h.err = false) :
    h.msg.msgType = 2 ∧ h.msg.uniqueIdChar = idText frame ∧
      ∃ e ∈ csReqMsg, e.1 = cstr (actionText frame) ∧ h.msg.actionCode = .cs e.2 := by
  rw [parseHeader_eq] at hp
  -- the header of a request that is accepted goes through every field; all other ways are errors
  split at hp
  · cases hcs : typeText frame with
    | nil =>
      rw [hcs] at htype
      exact absurd htype (by simp)
    | cons c cs =>
      rw [hcs] at hp htype
      obtain rfl : c = '2' := by simpa using htype
      dsimp only at hp
      split at hp
      · unfold actionText
        cases hafter : afterId frame with
        | nil =>
          rw [hafter] at hp
          simp only [idEnd, Option.some.injEq] at hp
          subst hp
          exact absurd he (by simp)
        | cons q rest =>
          rw [hafter, idEnd_request rfl] at hp
          rw [List.tail_cons]
          split at hp
          · split at hp
            · simp only [Option.some.injEq] at hp
              subst hp
              exact absurd he (by simp)
            · rename_i q' rest' hcons
              simp only [Option.some.injEq] at hp
              subst hp
              rw [hcons, List.tail_cons]
              unfold actionEnd at he ⊢
              cases hquote : fromQuote rest' with
              | nil =>
                rw [hquote] at he
                exact absurd he (by simp)
              | cons q'' rest'' =>
                rw [hquote] at he
                dsimp only at he ⊢
                -- the action is looked up in the table by its text
                cases hfind : csReqMsg.find? fun e => decide (e.1 = cstr (toQuote rest')) with
                | none =>
                  rw [hfind] at he
                  exact absurd he (by simp)
                | some e =>
                  refine ⟨rfl, rfl, e, List.mem_of_find?_eq_some hfind, ?_, rfl⟩
                  have hprop := List.find?_some hfind
                  exact of_decide_eq_true hprop
          · exact absurd hp (by simp)
      · exact absurd hp (by simp)
  · simp only [Option.some.injEq] at hp
    subst hp
    exact absurd he (by simp)

/-- What `Parse_Data` makes of a request. -/
theorem parseData_request {a : CpReqAction} {dt : UInt64} {frame : List Char} {d : DataEnd}
    (htype : (typeText frame).head? = some '2')
    (hd : parseData a dt clearRxMsgBuff frame = some d) :
    (d.err = true ∧ ¬ Understood frame) ∨
    (d.err = false ∧ Understood frame ∧ d.rx.msg.msgType = 2 ∧
      d.rx.msg.uniqueIdChar = idText frame ∧ d.rx.msg.payloadLen < payloadCap ∧
      ∃ e ∈ csReqMsg, e.1 = cstr (actionText frame) ∧ d.rx.msg.actionCode = .cs e.2) := by
  simp only [parseData, Option.bind_eq_some_iff] at hd
  obtain ⟨h, hp, hd⟩ := hd
  have hbody := (parseHeader_body hp).1
  split at hd
  · rename_i herr
    simp only [Option.some.injEq] at hd
    subst hd
    refine .inl ⟨rfl, ?_⟩
    rintro ⟨rest, hrest, -⟩
    rw [if_pos herr, hrest] at hbody
    exact absurd hbody (by simp)
  · rename_i herr
    rw [if_neg herr] at hbody
    have he : h.err = false := by simpa using herr
    obtain ⟨h2, hid, e, hmem, haction, hcode⟩ := parseHeader_request htype hp he
    rw [if_neg (by omega), Option.map_eq_some_iff] at hd
    obtain ⟨⟨err, rx⟩, hpayload, rfl⟩ := hd
    have hheader := parsePayload_header hpayload
    obtain ⟨herr', hlen⟩ := (parsePayload_spec h.msg h.rest).2 err rx hpayload
    have hiff : Understood frame ↔ err = false := by
      rw [herr']
      constructor
      · rintro ⟨rest, hrest, hended⟩
        obtain rfl : h.rest = rest := Option.some.inj (hbody.trans hrest)
        rw [hended]
        rfl
      · intro hended
        exact ⟨h.rest, hbody.symm, by simpa using hended⟩
    cases err with
    | true => exact .inl ⟨rfl, fun hund => absurd (hiff.mp hund) (by simp)⟩
    | false =>
      refine .inr ⟨rfl, hiff.mpr rfl, hheader.msgType.trans h2, hheader.uniqueIdChar.trans hid,
        hlen, e, hmem, haction, hheader.actionCode.trans hcode⟩

/-- What a request asks of the arrays of the parser: an action of at most 30 characters, and a
payload every mark of which has room. -/
structure HasRoom (frame : List Char) : Prop where
  action : (actionText frame).length ≤ tempBufCap
  payload : ∀ rest, body frame = some rest → roomy .start (marks .start '"' rest)

/-- **When `Parse_Data` stays within its arrays** on a request. -/
theorem parseData_call {a : CpReqAction} {dt : UInt64} {frame : List Char}
    (hhead : frame.head? = some '[') (htype : (typeText frame).head? = some '2')
    (hid : (idText frame).length ≤ tempBufCap) :
    (parseData a dt clearRxMsgBuff frame).isSome = true ↔ HasRoom frame := by
  have hheader := @parseHeader_isSome a frame clearRxMsgBuff.msg
  simp only [hhead, htype, hid, forall_const, true_and] at hheader
  unfold parseData
  cases hp : parseHeader a frame clearRxMsgBuff.msg with
  | none =>
    rw [hp] at hheader
    exact iff_of_false (by simp) fun hroom => absurd (hheader.mpr hroom.action) (by simp)
  | some h =>
    rw [hp] at hheader
    have haction := hheader.mp rfl
    have hbody := (parseHeader_body hp).1
    rw [Option.bind_some]
    cases he : h.err with
    | true =>
      rw [he, if_pos rfl] at hbody
      refine iff_of_true rfl ⟨haction, fun rest hrest => ?_⟩
      rw [← hbody] at hrest
      exact absurd hrest (by simp)
    | false =>
      rw [he, if_neg (by simp)] at hbody
      obtain ⟨h2, -⟩ := parseHeader_request htype hp he
      rw [if_neg (by simp), if_neg (by omega), Option.isSome_map,
        (parsePayload_spec h.msg h.rest).1]
      constructor
      · intro hroomy
        refine ⟨haction, fun rest hrest => ?_⟩
        obtain rfl : h.rest = rest := Option.some.inj (hbody.trans hrest)
        exact hroomy
      · intro hroom
        exact hroom.payload h.rest hbody.symm

/-! ## The frame of an answer -/

/-- The frames that went out. -/
def sentFrames (o : List Obs) : List (List Char) :=
  o.filterMap fun e => match e with
    | .sent f _ _ => some f
    | _ => none

theorem encMain_name (tx : TxBuf) (p : Payload) (b : Nat) :
    convStr2Str p.propertyName <+: (encMain tx p b).1 := by
  unfold encMain
  dsimp only
  split
  · exact List.prefix_append _ _
  · split
    · exact (List.prefix_append _ _).trans (List.prefix_append _ _)
    · split
      · exact ((List.prefix_append _ _).trans (List.prefix_append _ _)).trans
          (List.prefix_append _ _)
      · exact List.prefix_append _ _

/-- The frame of an answer, up to its first property. -/
theorem makeOcppMsg_res {tx : TxBuf} (h : tx.msg.msgType = msgTypeCallRes) (id : List Char) :
    ∃ items, makeOcppMsg tx id = "[3,\"".toList ++ cstr id ++ "\",\x7b".toList ++ items ++
      "\x7d]".toList ∧
      (items = [] ∨ convStr2Str (tx.msg.payload 0).propertyName <+: items) := by
  refine ⟨commas (encItems (fun i b => encMain tx (tx.msg.payload i) b) 0 tx.msg.payloadLen 0).1,
    ?_, ?_⟩
  · unfold makeOcppMsg encHeader
    rw [h]
    simp [convStr2Str, msgTypeCall, msgTypeCallRes, dec]
    rfl
  · cases tx.msg.payloadLen with
    | zero => exact .inl rfl
    | succ n =>
      right
      unfold encItems
      dsimp only
      rw [commas_cons]
      exact (encMain_name tx _ 0).trans (List.prefix_append _ _)

theorem head?_of_cstr {b : List Char} {c : Char} (h : (cstr b).head? = some c) :
    b.head? = some c := by
  cases b with
  | nil => exact absurd h (by simp)
  | cons d b =>
    by_cases hd : d = nul
    · subst hd
      exact absurd h (by simp [cstr])
    · unfold cstr at h
      rw [List.takeWhile_cons_of_pos (by simpa using hd)] at h
      exact h

end ChargePoint
