import ChargePoint.Codec.Nested
import ChargePoint.Encode

/-!
# The two codecs against each other

What `Make_Ocpp_Msg` prints of a flat message is an object (`Printed`), so what `Parse_Header`
and `Parse_Payload` make of the frame follows from `nested_stored`. The two do not agree on all
flat messages, and `flat_roundTrip` says on which: three buffers or counters of the decoder are
narrower than the data they are for.
-/

set_option autoImplicit false

namespace ChargePoint

open CStr Reading PayloadSt

/-! ## Flat messages -/

/-- A property that is printed as one name and one scalar. -/
structure FlatProp (p : Payload) : Prop where
  nameLen : 1 ≤ p.propertyName.length ∧ p.propertyName.length ≤ 59
  nameQuote : '"' ∉ p.propertyName
  nameNul : NulFree p.propertyName
  sub : p.subPayloadLen = 0
  scalar : p.dataType = .int ∧ Digits p.propertyContants ∧ p.propertyContants ≠ [] ∨
    p.dataType = .str ∧ p.propertyContants.length ≤ 255 ∧ NulFree p.propertyContants ∧
      ∀ c ∈ p.propertyContants, c ≠ '"' ∧ c ≠ '\\' ∧ c ≠ ']'

/-- A CALLRESULT of 1 to 10 flat properties. -/
structure Flat (tx : TxBuf) : Prop where
  type : tx.msg.msgType = msgTypeCallRes
  pos : 1 ≤ tx.msg.payloadLen
  le : tx.msg.payloadLen ≤ payloadCap
  prop : ∀ i < tx.msg.payloadLen, FlatProp (tx.msg.payload i)

/-- The entry has the name and the contents that were sent. -/
def SameText (q p : Payload) : Prop :=
  q.propertyName = p.propertyName ∧ q.propertyContants = p.propertyContants

/-- What the decoder gets right of a property: no `]` in its name, and no more digits than
`str_index` counts. -/
def Payload.Decodable (p : Payload) : Prop :=
  ']' ∉ p.propertyName ∧ p.propertyContants.length ≤ 256

/-! ## What is printed is an object -/

/-- A flat property as a member: the value, and what the decoder should make of it. -/
theorem FlatProp.member {p : Payload} (h : FlatProp p) : ∃ (name : Name) (v : Json .val),
    (∀ tx b, encMain tx p b = ('"' :: ((name.chars ++ ['"']) ++ ([':'] ++ v.text)), b)) ∧
    v.levels = 0 ∧ v.aligned = true ∧ v.hasArr = false ∧ v.early = false ∧ v.counted = true ∧
    (∀ e, v.fill 0 0 e = some e) ∧ (v.fits ↔ p.propertyContants.length ≤ 256) ∧
    name.chars = p.propertyName ∧ ∀ q, Json.Holds name v q ↔ SameText q p := by
  obtain ⟨⟨-, hlen⟩, hquote, hnul, hsub, hscalar⟩ := h
  have hname : cstr p.propertyName = p.propertyName := cstr_of_nulFree hnul
  refine ⟨⟨p.propertyName, hquote, hlen⟩, ?_⟩
  rcases hscalar with ⟨hint, hdigits, hne⟩ | ⟨hstr, hle, hnul', hplain⟩
  · refine ⟨.num .none ⟨p.propertyContants, hdigits, hne⟩, fun tx b => ?_, ?_⟩
    · have hval : cstr p.propertyContants = p.propertyContants := cstr_of_nulFree hdigits.nulFree
      unfold encMain
      rw [if_pos hint]
      simp [convStr2Str, convStr2Int, hname, hval, Json.text, Blank.none]
    · refine ⟨?_, ?_, ?_, ?_, ?_, fun e => ?_, ?_, rfl, fun q => ?_⟩
      · rw [Json.levels]
      · rw [Json.aligned]
      · rw [Json.hasArr]
      · rw [Json.early]
      · rfl
      · rw [Json.fill]
      · exact Iff.rfl
      · exact Iff.rfl
  · refine ⟨.str .none ⟨p.propertyContants, fun c hc => ⟨(hplain c hc).1, (hplain c hc).2.1⟩⟩,
      fun tx b => ?_, ?_⟩
    · have hval : cstr p.propertyContants = p.propertyContants := cstr_of_nulFree hnul'
      unfold encMain
      rw [if_neg (by rw [hstr]; decide), if_neg (by rw [hstr]; decide), if_neg (by omega)]
      simp [convStr2Str, hname, hval, Json.text, Blank.none]
    · refine ⟨?_, ?_, ?_, ?_, ?_, fun e => ?_, ?_, rfl, fun q => ?_⟩
      · rw [Json.levels]
      · rw [Json.aligned]
      · rw [Json.hasArr]
      · have hmem : ']' ∉ p.propertyContants := fun hc => (hplain _ hc).2.2 rfl
        simpa [Json.early] using hmem
      · rfl
      · rw [Json.fill]
      · exact Iff.rfl
      · exact Iff.rfl

/-- `ms` is the object that is printed of `n` properties from `start` on. -/
structure Printed (tx : TxBuf) (start n : Nat) (ms : Json .members) : Prop where
  text : ∀ b, commas (encItems (fun i b => encMain tx (tx.msg.payload i) b) start n b).1 = ms.text
  isEnd : ms.isEnd = decide (n = 0)
  levels : ms.levels = 0
  aligned : ms.aligned = true
  hasArr : ms.hasArr = false
  counted : ms.allCounted = true
  early : ms.early = false ↔ ∀ i < n, ']' ∉ (tx.msg.payload (start + i)).propertyName
  fill : ∀ cap c e, c + n ≤ cap → (ms.fill cap c e).isSome = true
  length : ms.list.length = n
  entry : ∀ i < n, ∃ name v, ms.list[i]? = some (name, v) ∧
    (v.fits ↔ (tx.msg.payload (start + i)).propertyContants.length ≤ 256) ∧
    ∀ q, Json.Holds name v q ↔ SameText q (tx.msg.payload (start + i))

theorem encItems_succ (enc : Nat → Nat → List Char × Nat) (start n b : Nat) :
    (encItems enc start (n + 1) b).1 =
      (enc start b).1 :: (encItems enc (start + 1) n (enc start b).2).1 := rfl

theorem exists_printed (tx : TxBuf) {n : Nat} (start : Nat)
    (h : ∀ i < n, FlatProp (tx.msg.payload (start + i))) : ∃ ms, Printed tx start n ms := by
  -- the first entry is a member, and the others are the members behind it
  induction n generalizing start with
  | zero =>
    refine ⟨.noMember, fun b => ?_, ?_, ?_, ?_, ?_, ?_, ?_, fun cap c e _ => ?_, ?_, ?_⟩
    · rw [Json.text]
      rfl
    · rw [Json.isEnd]
      rfl
    · rw [Json.levels]
    · rw [Json.aligned]
    · rw [Json.hasArr]
    · rw [Json.allCounted]
    · simp [Json.early]
    · rw [Json.fill]
      rfl
    · simp [Json.list]
    · exact fun i hi => absurd hi (Nat.not_lt_zero i)
  | succ n ih =>
    obtain ⟨name, v, htext, hlev, hal, harr, hearly, hcounted, hfill, hfits, hname, hholds⟩ :=
      (h 0 (Nat.succ_pos n)).member
    obtain ⟨rest, hrest⟩ := ih (start + 1) fun i hi => by
      have hp := h (i + 1) (Nat.succ_lt_succ hi)
      rwa [Nat.add_comm i 1, ← Nat.add_assoc] at hp
    refine ⟨.member .none name .none v .none rest, fun b => ?_, ?_, ?_, ?_, ?_, ?_, ?_,
      fun cap c e hle => ?_, ?_, ?_⟩
    · have hitem : encMain tx (tx.msg.payload start) b =
        ('"' :: ((name.chars ++ ['"']) ++ ([':'] ++ v.text)), b) := htext tx b
      have hitems : (encItems (fun i b => encMain tx (tx.msg.payload i) b) start (n + 1) b).1 =
          (encMain tx (tx.msg.payload start) b).1 ::
            (encItems (fun i b => encMain tx (tx.msg.payload i) b) (start + 1) n b).1 := by
        rw [encItems_succ, hitem]
      have hend := hrest.isEnd
      have hmore := hrest.text b
      rw [hitems, hitem, Json.text, hend]
      cases n with
      | zero => simp [encItems, commas, Blank.none]
      | succ n =>
        obtain ⟨y, ys, hys⟩ : ∃ y ys,
            (encItems (fun i b => encMain tx (tx.msg.payload i) b) (start + 1) (n + 1) b).1 =
              y :: ys := ⟨_, _, rfl⟩
        rw [hys] at hmore ⊢
        rw [commas_cons_cons, hmore]
        simp [Blank.none]
    · simp [Json.isEnd]
    · rw [Json.levels, hlev, hrest.levels]
      rfl
    · rw [Json.aligned, hal, hrest.aligned]
      rfl
    · rw [Json.hasArr, harr, hrest.hasArr]
      rfl
    · rw [Json.allCounted, hcounted, hrest.counted, Bool.or_true]
      rfl
    · have hfirst : (Json.member .none name .none v .none rest).early = false ↔
          ']' ∉ (tx.msg.payload start).propertyName ∧ rest.early = false := by
        have hname' : name.chars = (tx.msg.payload start).propertyName := hname
        simp [Json.early, hearly, harr, hname']
      rw [hfirst, hrest.early]
      constructor
      · rintro ⟨h0, hsucc⟩ i hi
        cases i with
        | zero => exact h0
        | succ i =>
          have hi' := hsucc i (Nat.lt_of_succ_lt_succ hi)
          rwa [Nat.add_assoc, Nat.add_comm 1 i] at hi'
      · intro hall
        refine ⟨hall 0 (Nat.succ_pos n), fun i hi => ?_⟩
        have hi' := hall (i + 1) (Nat.succ_lt_succ hi)
        rwa [Nat.add_comm i 1, ← Nat.add_assoc] at hi'
    · rw [Json.fill, hfill, Option.bind_some, hrest.isEnd, hcounted]
      by_cases hn : n = 0
      · simp [hn]
      · have hlt : c + 1 < cap := by omega
        simp only [hn, decide_false, Bool.false_eq_true, if_false, if_true, if_pos hlt]
        exact hrest.fill cap (c + 1) 0 (by omega)
    · rw [Json.list, List.length_cons, hrest.length]
    · intro i hi
      cases i with
      | zero => exact ⟨name, v, by rw [Json.list]; rfl, hfits, hholds⟩
      | succ i =>
        obtain ⟨name', v', hget, hrest'⟩ := hrest.entry i (Nat.lt_of_succ_lt_succ hi)
        rw [Nat.add_assoc, Nat.add_comm 1 i] at hrest'
        exact ⟨name', v', by rw [Json.list]; exact hget, hrest'⟩

/-! ## The header -/

/-- The header of a CALLRESULT that was printed. -/
theorem parseHeader_printed {tx : TxBuf} {id : List Char} (htype : tx.msg.msgType = msgTypeCallRes)
    (hid : Digits id) (a : CpReqAction) (msg : RxMsg) {ms : Json .members}
    (hms : Printed tx 0 tx.msg.payloadLen ms) : parseHeader a (makeOcppMsg tx id) msg =
      if id.length ≤ tempBufCap then
        some ⟨false, { msg with uniqueId := idValue id, msgType := 3, actionCode := .cp a },
          objectText [','] ms .none [']']⟩
      else none := by
  have hquote : '"' ∉ id := by
    intro hc
    exact absurd (hid _ hc) (by decide)
  have hframe : makeOcppMsg tx id =
      '[' :: '3' :: ',' :: '"' :: (id ++ '"' :: objectText [','] ms .none [']']) := by
    have hthree : dec 3 = ['3'] := rfl
    unfold makeOcppMsg encHeader
    rw [hms.text 0, htype, if_neg (by decide), if_pos rfl]
    simp [msgTypeCallRes, hthree, convStr2Str, cstr_of_nulFree hid.nulFree, objectText, Blank.none]
  rw [hframe]
  show headerLoop a .type [] msg _ = _
  rw [headerLoop, if_pos (.inr (.inl rfl)), headerLoop, if_neg (by decide), headerLoop,
    if_pos rfl, headerLoop_id (Nat.zero_le _), toQuote_append hquote, fromQuote_append hquote,
    List.length_nil, Nat.zero_add, List.nil_append]
  rfl

/-! ## The round trip -/

/-- The frame is accepted, and every property is in its own entry with the name and the text it
was sent with. -/
def RoundTrips (a : CpReqAction) (msg : RxMsg) (tx : TxBuf) (id : List Char) : Prop :=
  ∃ h rx, parseHeader a (makeOcppMsg tx id) msg = some h ∧ h.err = false ∧
    parsePayload h.msg h.rest = some (false, rx) ∧ rx.msg.payloadLen = tx.msg.payloadLen - 1 ∧
    ∀ i < tx.msg.payloadLen, SameText (rx.msg.payload i) (tx.msg.payload i)

/-- **Which flat messages survive**: those whose id fits `temp_buf` and whose properties are all
decodable. -/
theorem flat_roundTrip {tx : TxBuf} (hflat : Flat tx) {id : List Char} (hid : Digits id)
    (a : CpReqAction) (msg : RxMsg) : RoundTrips a msg tx id ↔
      id.length ≤ tempBufCap ∧ ∀ i < tx.msg.payloadLen, (tx.msg.payload i).Decodable := by
  obtain ⟨ms, hms⟩ := exists_printed tx (n := tx.msg.payloadLen) 0 fun i hi => by
    rw [Nat.zero_add]
    exact hflat.prop i hi
  have hheader := parseHeader_printed hflat.type hid a msg hms
  have hsep : IsSep [','] := by simp [IsSep]
  have hstored := fun m => nested_stored ms (hms.levels ▸ Nat.zero_le 3) hms.aligned hsep .none
    [']'] m
  have hclean : ms.Clean ↔ ∀ i < tx.msg.payloadLen, (tx.msg.payload i).Decodable := by
    constructor
    · intro hc i hi
      obtain ⟨name, v, hget, hfits, -⟩ := hms.entry i hi
      rw [Nat.zero_add] at hfits
      refine ⟨?_, hfits.mp (hc.fits _ (List.mem_of_getElem? hget))⟩
      have hname := hms.early.mp hc.early i hi
      rwa [Nat.zero_add] at hname
    · intro hall
      refine ⟨hms.early.mpr fun i hi => ?_, ?_, hms.counted, fun x hx => ?_⟩
      · rw [Nat.zero_add]
        exact (hall i hi).1
      · exact hms.fill payloadCap 0 0 (by have := hflat.le; omega)
      · obtain ⟨i, hi⟩ := List.mem_iff_getElem?.mp hx
        have hlt : i < tx.msg.payloadLen := by
          rw [← hms.length]
          exact (List.getElem?_eq_some_iff.mp hi).1
        obtain ⟨name, v, hget, hfits, -⟩ := hms.entry i hlt
        obtain rfl : x = (name, v) := by simpa using hi.symm.trans hget
        rw [Nat.zero_add] at hfits
        exact hfits.mpr (hall i hlt).2
  -- what the parser leaves is the object, entry by entry
  have hentries : ∀ rx : RxBuf, ms.Stored rx ↔ rx.msg.payloadLen = tx.msg.payloadLen - 1 ∧
      ∀ i < tx.msg.payloadLen, SameText (rx.msg.payload i) (tx.msg.payload i) := by
    intro rx
    constructor
    · intro hs
      refine ⟨hms.length ▸ hs.len, fun i hi => ?_⟩
      obtain ⟨name, v, hget, -, hholds⟩ := hms.entry i hi
      rw [Nat.zero_add] at hholds
      exact (hholds _).mp (hs.entry i name v hget)
    · rintro ⟨hlen, hall⟩
      refine ⟨hms.length.symm ▸ hlen, fun i name v hi => ?_⟩
      have hlt : i < tx.msg.payloadLen := by
        rw [← hms.length]
        exact (List.getElem?_eq_some_iff.mp hi).1
      obtain ⟨name', v', hget, -, hholds⟩ := hms.entry i hlt
      obtain ⟨rfl, rfl⟩ : name = name' ∧ v = v' := by simpa using hi.symm.trans hget
      rw [Nat.zero_add] at hholds
      exact (hholds _).mpr (hall i hlt)
  constructor
  · rintro ⟨h, rx, hh, -, hparse, hrest⟩
    rw [hheader] at hh
    split at hh
    · rename_i hlen
      simp only [Option.some.injEq] at hh
      subst hh
      exact ⟨hlen, hclean.mp ((hstored _).mp ⟨rx, hparse, (hentries rx).mpr hrest⟩)⟩
    · exact absurd hh (by simp)
  · rintro ⟨hlen, hall⟩
    rw [if_pos hlen] at hheader
    obtain ⟨rx, hparse, hs⟩ := (hstored { msg with
      uniqueId := idValue id, msgType := 3, actionCode := .cp a }).mpr (hclean.mpr hall)
    exact ⟨_, rx, hheader, rfl, hparse, (hentries rx).mp hs⟩

/-- An answer with one property, whose value is `ok`. -/
def okAnswer (name : List Char) : TxBuf :=
  let tx := (TxBuf.zero.setProp 0 name ['o', 'k'] .str).setLen 1
  { tx with msg := { tx.msg with msgType := msgTypeCallRes } }

theorem okAnswer_flat {name : List Char} (hlen : 1 ≤ name.length ∧ name.length ≤ 59)
    (hquote : '"' ∉ name) (hnul : NulFree name) : Flat (okAnswer name) := by
  have hcontants : ((okAnswer name).msg.payload 0).propertyContants = ['o', 'k'] := rfl
  refine ⟨rfl, Nat.le_refl 1, (show 1 ≤ payloadCap by decide), fun i hi => ?_⟩
  obtain rfl : i = 0 := Nat.lt_one_iff.mp hi
  refine ⟨hlen, hquote, hnul, rfl, .inr ⟨rfl, ?_⟩⟩
  rw [hcontants]
  decide

theorem flat_roundTrip_status : ∃ tx : TxBuf, Flat tx ∧
    RoundTrips .none .zero tx "4711".toList := by
  have hflat : Flat (okAnswer "status".toList) :=
    okAnswer_flat (by decide) (by decide) (by decide)
  refine ⟨_, hflat, (flat_roundTrip hflat (by decide) .none .zero).mpr ⟨by decide, fun i hi => ?_⟩⟩
  obtain rfl : i = 0 := Nat.lt_one_iff.mp hi
  exact ⟨by decide, by decide⟩

/-- The property `a]` does not come back. -/
theorem bracket_name_lost : Flat (okAnswer "a]".toList) ∧ Digits ['1'] ∧
    ¬ RoundTrips .none .zero (okAnswer "a]".toList) ['1'] := by
  refine ⟨okAnswer_flat (by decide) (by decide) (by decide), by decide, ?_⟩
  rintro ⟨h, rx, hheader, -, hpayload, -⟩
  have hrun : ((parseHeader .none (makeOcppMsg (okAnswer "a]".toList) ['1']) .zero).bind fun h =>
      (parsePayload h.msg h.rest).map fun r => r.1) = some true := by decide
  rw [hheader, Option.bind_some, hpayload] at hrun
  exact absurd hrun (by simp)

end ChargePoint
