import ChargePoint.Requests

/-!
# The id of a message

The id of a CALL of ours is a number: `convLLong2Str` prints it, the central system sends the
text back, and `Parse_Header` adds the digits up with powers of ten in 64 bits. The id of a CALL
of the central system is a text that nothing looks into: it goes through `temp_buf[30]` and the
two `UniqueID_Char[70]` into the answer. Both ways keep the id, and neither depends on what else
stands in the frame.
-/

set_option autoImplicit false

namespace ChargePoint

open CStr

/-- A frame from its type to the quote after its id, with anything in the gaps. -/
def idFrame (type : Char) (gap gap' id rest : List Char) : List Char :=
  '[' :: gap ++ type :: gap' ++ '"' :: id ++ '"' :: rest

/-- What may stand before the message type. -/
def TypeGap (gap : List Char) : Prop := ∀ c ∈ gap, ¬(c = '2' ∨ c = '3' ∨ c = '4')

instance (gap : List Char) : Decidable (TypeGap gap) :=
  inferInstanceAs (Decidable (∀ c ∈ gap, ¬(c = '2' ∨ c = '3' ∨ c = '4')))

section Frame
variable {type : Char} {gap gap' id rest : List Char}

theorem typeText_idFrame (htype : type = '2' ∨ type = '3' ∨ type = '4') (hgap : TypeGap gap) :
    typeText (idFrame type gap gap' id rest) = type :: gap' ++ '"' :: id ++ '"' :: rest := by
  unfold typeText idFrame
  simp only [List.cons_append, List.append_assoc, List.tail_cons]
  -- the gap goes, and the type is what it stops at
  rw [List.dropWhile_append_of_pos (fun c hc => by simpa using hgap c hc),
    List.dropWhile_cons_of_neg (by simp only [htype, not_true, decide_false]; decide)]

theorem fromQuote_idFrame (htype : type = '2' ∨ type = '3' ∨ type = '4') (hgap : TypeGap gap)
    (hgap' : '"' ∉ gap') :
    fromQuote (typeText (idFrame type gap gap' id rest)) = '"' :: id ++ '"' :: rest := by
  have hquote : '"' ∉ type :: gap' := by
    intro hc
    rcases List.mem_cons.mp hc with hc | hc
    · subst hc
      exact absurd htype (by decide)
    · exact hgap' hc
  rw [typeText_idFrame htype hgap, List.append_assoc]
  exact fromQuote_append hquote (id ++ '"' :: rest)

theorem idText_idFrame (htype : type = '2' ∨ type = '3' ∨ type = '4') (hgap : TypeGap gap)
    (hgap' : '"' ∉ gap') (hid : '"' ∉ id) : idText (idFrame type gap gap' id rest) = id := by
  show toQuote (fromQuote (typeText _)).tail = id
  rw [fromQuote_idFrame htype hgap hgap']
  exact toQuote_append hid rest

theorem afterId_idFrame (htype : type = '2' ∨ type = '3' ∨ type = '4') (hgap : TypeGap gap)
    (hgap' : '"' ∉ gap') (hid : '"' ∉ id) :
    afterId (idFrame type gap gap' id rest) = '"' :: rest := by
  unfold afterId
  rw [fromQuote_idFrame htype hgap hgap']
  exact fromQuote_append hid rest

/-- `Parse_Header` finds the id whatever stands around it. -/
theorem parseHeader_idFrame (htype : type = '2' ∨ type = '3' ∨ type = '4') (hgap : TypeGap gap)
    (hgap' : '"' ∉ gap') (hid : '"' ∉ id) (hlen : id.length ≤ tempBufCap) (a : CpReqAction)
    (msg : RxMsg) :
    parseHeader a (idFrame type gap gap' id rest) msg =
      idEnd a { msg with msgType := type.toNat } id ('"' :: rest) := by
  have hhead : (idFrame type gap gap' id rest).head? = some '[' := rfl
  rw [parseHeader_eq, if_pos hhead, idText_idFrame htype hgap hgap' hid,
    afterId_idFrame htype hgap hgap' hid, typeText_idFrame htype hgap]
  exact if_pos hlen

end Frame

/-! ## The number -/

/-- The header of a CALL: its id is printed by `convLLong2Str`. -/
theorem makeOcppMsg_convLLong2Str {tx : TxBuf} (htype : tx.msg.msgType = msgTypeCall) (id : List Char) :
    ∃ rest, makeOcppMsg tx id = "[2,".toList ++ convLLong2Str tx.msg.uniqueId ++ rest := by
  have htwo : dec 2 = ['2'] := rfl
  refine ⟨',' :: convStr2Str (cpReqMsg tx.msg.actionCode) ++ [',', '\x7b'] ++
    commas (encItems (fun i b => encMain tx (tx.msg.payload i) b) 0 tx.msg.payloadLen 0).1 ++
    ['\x7d', ']'], ?_⟩
  unfold makeOcppMsg encHeader
  rw [htype, if_pos rfl]
  simp [msgTypeCall, htwo]

/-- **The id of an answer.** All 20 digits of a 64-bit number fit `temp_buf`, and the sum of the
weighted digits is the number. -/
theorem parseHeader_convLLong2Str (u : UInt64) (a : CpReqAction) (msg : RxMsg)
    {gap gap' : List Char} (hgap : TypeGap gap) (hgap' : '"' ∉ gap') (rest : List Char) :
    parseHeader a ('[' :: gap ++ '3' :: gap' ++ convLLong2Str u ++ rest) msg =
      some ⟨false, { msg with uniqueId := u, msgType := 3, actionCode := .cp a }, rest⟩ := by
  have hframe : '[' :: gap ++ '3' :: gap' ++ convLLong2Str u ++ rest =
      idFrame '3' gap gap' (dec u.toNat) rest := by
    simp [idFrame, convLLong2Str]
  have hdigits : '"' ∉ dec u.toNat := by
    intro hc
    exact absurd (dec_digits u.toNat _ hc) (by decide)
  have hlen : (dec u.toNat).length ≤ tempBufCap :=
    (dec_length_le u.toNat_lt).trans (by decide)
  have hvalue : idValue (dec u.toNat) = u := by
    rw [idValue_dec u.toNat_lt, UInt64.ofNat_toNat]
  rw [hframe, parseHeader_idFrame (.inr (.inl rfl)) hgap hgap' hdigits hlen, idEnd,
    if_neg (show '3'.toNat ≠ '2'.toNat by decide), if_pos rfl, hvalue]

/-! ## The text -/

theorem csReqMsg_plain : ∀ e ∈ csReqMsg, '"' ∉ e.1 ∧ e.1.length ≤ tempBufCap ∧
    csReqMsg.find? (fun e' => e'.1 = cstr e.1) = some e := by
  decide +kernel

/-- The header of a CALL of the central system. -/
theorem parseHeader_call {id gap gap' gap'' : List Char} (hgap : TypeGap gap) (hgap' : '"' ∉ gap')
    (hgap'' : '"' ∉ gap'') (hid : '"' ∉ id) (hlen : id.length ≤ tempBufCap)
    {e : List Char × CsReqAction} (he : e ∈ csReqMsg) (a : CpReqAction) (msg : RxMsg)
    (rest : List Char) :
    parseHeader a (idFrame '2' gap gap' id (gap'' ++ '"' :: e.1 ++ '"' :: rest)) msg =
      some ⟨false, { msg with uniqueId := 0, uniqueIdChar := id, msgType := 2,
                              actionCode := .cs e.2 }, rest⟩ := by
  obtain ⟨hquote, haction, hfind⟩ := csReqMsg_plain e he
  rw [parseHeader_idFrame (.inl rfl) hgap hgap' hid hlen, idEnd_request rfl, List.append_assoc,
    List.cons_append, fromQuote_append hgap'', List.tail_cons, toQuote_append hquote,
    if_pos haction]
  dsimp only
  rw [toQuote_append hquote, fromQuote_append hquote]
  unfold actionEnd
  dsimp only
  rw [hfind]

/-- The answer that `MakeCallRes` prepares and `Make_Ocpp_Msg` prints has the id that stands in
`Rx_Msg`. -/
theorem makeCallRes_id (ret : ResType) (rx : RxBuf) (tx : TxBuf)
    (hid : NulFree rx.msg.uniqueIdChar) :
    ∃ items, makeOcppMsg (makeCallRes ret rx tx) rx.msg.uniqueIdChar =
      "[3,\"".toList ++ rx.msg.uniqueIdChar ++ "\",\x7b".toList ++ items ++ "\x7d]".toList := by
  have htype : (makeCallRes ret rx tx).msg.msgType = msgTypeCallRes := rfl
  obtain ⟨items, hframe, -⟩ := makeOcppMsg_res htype rx.msg.uniqueIdChar
  rw [cstr_of_nulFree hid] at hframe
  exact ⟨items, hframe⟩

/-! ## Both ways -/

/-- An id of a CALL of the central system: a string of 1 to 29 characters without a quote. -/
structure IdString (id : List Char) : Prop where
  pos : 1 ≤ id.length
  le : id.length ≤ 29
  quote : '"' ∉ id
  nulFree : NulFree id

/-- **Ids survive.** The id of a CALL of ours is what `convLLong2Str` prints of `UniqueID`, and an
answer that returns this text is read as the same number; the id of a CALL of the central system
stands in the answer as it stood in the CALL. -/
theorem id_roundTrip :
    (∀ (tx : TxBuf) (id : List Char), tx.msg.msgType = msgTypeCall →
      ∃ rest, makeOcppMsg tx id = "[2,".toList ++ convLLong2Str tx.msg.uniqueId ++ rest) ∧
    (∀ (u : UInt64) (a : CpReqAction) (msg : RxMsg) (gap gap' rest : List Char),
      TypeGap gap → '"' ∉ gap' →
      ∃ h, parseHeader a ('[' :: gap ++ '3' :: gap' ++ convLLong2Str u ++ rest) msg = some h ∧
        h.err = false ∧ h.msg.msgType = 3 ∧ h.msg.uniqueId = u) ∧
    (∀ (id : List Char) (e : List Char × CsReqAction) (a : CpReqAction) (msg : RxMsg)
      (gap gap' gap'' rest : List Char), IdString id → e ∈ csReqMsg →
      TypeGap gap → '"' ∉ gap' → '"' ∉ gap'' →
      ∃ h, parseHeader a ('[' :: gap ++ '2' :: gap' ++ '"' :: id ++ '"' ::
          (gap'' ++ '"' :: e.1 ++ '"' :: rest)) msg = some h ∧
        h.err = false ∧ h.msg.msgType = 2 ∧ h.msg.actionCode = .cs e.2 ∧
        ∀ err rx, parsePayload h.msg h.rest = some (err, rx) → ∀ (ret : ResType) (tx : TxBuf),
          ∃ items, makeOcppMsg (makeCallRes ret rx tx) rx.msg.uniqueIdChar =
            "[3,\"".toList ++ id ++ "\",\x7b".toList ++ items ++ "\x7d]".toList) := by
  refine ⟨fun tx id htype => makeOcppMsg_convLLong2Str htype id, ?_, ?_⟩
  · intro u a msg gap gap' rest hgap hgap'
    exact ⟨_, parseHeader_convLLong2Str u a msg hgap hgap' rest, rfl, rfl, rfl⟩
  · intro id e a msg gap gap' gap'' rest hid he hgap hgap' hgap''
    have hlen : id.length ≤ tempBufCap := hid.le.trans (by decide)
    have hheader := parseHeader_call hgap hgap' hgap'' hid.quote hlen he a msg rest
    refine ⟨_, hheader, rfl, rfl, rfl, ?_⟩
    intro err rx hpayload ret tx
    -- `Parse_Payload` leaves the header alone
    have hchar : rx.msg.uniqueIdChar = id := (parsePayload_header hpayload).uniqueIdChar
    have hnul : NulFree rx.msg.uniqueIdChar := hchar.symm ▸ hid.nulFree
    obtain ⟨items, hframe⟩ := makeCallRes_id ret rx tx hnul
    rw [hchar] at hframe ⊢
    exact ⟨items, hframe⟩

/-- The largest number, and an id of 29 characters. -/
theorem id_roundTrip_largest :
    (∃ h, parseHeader .hb "[3,\"18446744073709551615\",\x7b\x7d]".toList .zero = some h ∧
      h.msg.uniqueId = 18446744073709551615) ∧
    ∃ h, parseHeader .hb
        "[2,\"0123456789abcdefABCDEF-:/_.#+\",\"Reset\",\x7b\x7d]".toList .zero = some h ∧
      h.msg.actionCode = .cs .reset := by
  obtain ⟨-, hres, hcall⟩ := id_roundTrip
  obtain ⟨h, hh, -, -, hu⟩ := hres 18446744073709551615 .hb .zero [] [','] ",\x7b\x7d]".toList
    (by decide) (by decide)
  obtain ⟨h', hh', -, -, ha, -⟩ := hcall "0123456789abcdefABCDEF-:/_.#+".toList
    ("Reset".toList, .reset) .hb .zero [] [','] [','] ",\x7b\x7d]".toList
    ⟨by decide, by decide, by decide, by decide⟩ (by decide) (by decide) (by decide) (by decide)
  exact ⟨⟨h, hh, hu⟩, h', hh', ha⟩

end ChargePoint
