import ChargePoint.Msg

/-!
# `Make_Ocpp_Msg`

The serialiser: `Tx_Msg` to the text of one frame. It knows nothing of JSON; it
concatenates C strings, and what comes out is well formed exactly when every name
and every value it is handed is.

Two things a reader of the frame would not guess, and that the model keeps:

* the id of a CALL is `Tx_Msg.UniqueID` in decimal, but the id of a CALLRESULT is
  **`Rx_Msg.UniqueID_Char`**, read from the *receive* buffer at the moment of
  sending;
* an array property's `subPayload_len` is reset to 0 once it is printed, so the
  serialiser writes to `Tx_Msg` too (`afterMakeOcppMsg`).

The `conv…` helpers keep their names. `strcat` reads up to the first zero, so every
string goes through `cstr`.
-/

set_option autoImplicit false

namespace ChargePoint

open CStr

/-! ## The `conv` helpers -/

/-- `convStr2Sstr`: the string between escaped quotes. -/
def convStr2Sstr (s : List Char) : List Char := ['\\', '"'] ++ cstr s ++ ['\\', '"']

/-- `convStr2Int`: the string as it is. -/
def convStr2Int (s : List Char) : List Char := cstr s

/-- `convStr2Str`: the string between quotes. -/
def convStr2Str (s : List Char) : List Char := '"' :: cstr s ++ ['"']

/-- `convLLong2Str`: a 64-bit number between quotes. -/
def convLLong2Str (v : UInt64) : List Char := '"' :: dec v.toNat ++ ['"']

/-! ## Nested objects -/

/-- A name or a value inside an object: `convStr2Sstr` when the object is itself
printed inside a string (`TYPE_CODE_OBJ_STR`), `convStr2Str` otherwise. -/
def convIn (objStr : Bool) (s : List Char) : List Char :=
  if objStr then convStr2Sstr s else convStr2Str s

/-- The entries a `sub_Payload` pointer of a message to send stands for. Only
`tx_sub_Payload` is ever assigned; a null pointer comes with a length of 0 and is
not followed. -/
def TxBuf.subOf (tx : TxBuf) : SubPtr → Nat → Payload
  | .tx => tx.sub
  | _ => fun _ => .zero

/-- The innermost two loops: a `TYPE_CODE_LITE` entry prints `arrLen` objects of
`len` entries of `subPayloadBat` each, which `batIdx` walks through. The source puts
no comma between the entries of one object. -/
def encLite (objStr : Bool) (bat : Nat → PayloadLite) (arrLen len batIdx : Nat) : List Char :=
  '[' :: commas ((List.range arrLen).map fun a =>
    '{' :: (List.range len).flatMap (fun j =>
      let b := bat ((batIdx + a * len + j) % 65536)
      convIn objStr b.propertyName ++ ':' :: convIn objStr b.propertyContants) ++ ['}']) ++ [']']

/-- One member of an object of the array `subObj`, with the next `batIdx`. -/
def encSubSub (objStr : Bool) (bat : Nat → PayloadLite) (p : Payload) (batIdx : Nat) :
    List Char × Nat :=
  let name := convIn objStr p.propertyName
  if p.dataType = .lite then
    (name ++ ':' :: encLite objStr bat p.subPayloadArrLen p.subPayloadLen batIdx,
      (batIdx + p.subPayloadArrLen * p.subPayloadLen) % 65536)
  else
    (name ++ ':' :: convIn objStr p.propertyContants, batIdx)

/-- Print `n` items in order, threading `batIdx`. -/
def encItems (enc : Nat → Nat → List Char × Nat) : Nat → Nat → Nat → List (List Char) × Nat
  | _, 0, batIdx => ([], batIdx)
  | i, n + 1, batIdx =>
    let (t, b) := enc i batIdx
    let (ts, b') := encItems enc (i + 1) n b
    (t :: ts, b')

/-- One member of the object `mainObj`. -/
def encSub (tx : TxBuf) (objStr : Bool) (p : Payload) (batIdx : Nat) : List Char × Nat :=
  let name := convIn objStr p.propertyName
  if p.dataType = .arr then
    let (objs, b) := encItems (fun a b₀ =>
      let (ms, b₁) := encItems (fun j b₂ =>
        encSubSub objStr tx.bat (tx.subOf p.subPayload (j + p.subPayloadLen * a)) b₂)
        0 p.subPayloadLen b₀
      ('{' :: commas ms ++ ['}'], b₁)) 0 p.subPayloadArrLen batIdx
    (name ++ ':' :: '[' :: commas objs ++ [']'], b)
  else
    (name ++ ':' :: convIn objStr p.propertyContants, batIdx)

/-! ## Properties -/

/-- One property of the payload, with the next `batIdx`. -/
def encMain (tx : TxBuf) (p : Payload) (batIdx : Nat) : List Char × Nat :=
  let name := convStr2Str p.propertyName
  if p.dataType = .int then
    (name ++ ':' :: convStr2Int p.propertyContants, batIdx)
  else if p.dataType = .arr then
    (name ++ ':' :: '[' :: commas ((List.range p.subPayloadLen).map fun i =>
      convStr2Int (tx.subOf p.subPayload i).propertyContants) ++ [']'], batIdx)
  else if 0 < p.subPayloadLen then
    let objStr := p.dataType = .objStr
    let (ms, b) := encItems (fun i b₀ => encSub tx objStr (tx.subOf p.subPayload i) b₀)
      0 p.subPayloadLen batIdx
    (name ++ ':' :: (if objStr then ['"', '{'] else ['{']) ++ commas ms ++
      (if objStr then ['}', '"'] else ['}']), b)
  else
    (name ++ ':' :: convStr2Str p.propertyContants, batIdx)

/-- The id and, for a CALL, the action. -/
def encHeader (m : TxMsg) (rxUniqueIdChar : List Char) : List Char :=
  dec m.msgType ++ ',' ::
    (if m.msgType = msgTypeCall then
      convLLong2Str m.uniqueId ++ ',' :: convStr2Str (cpReqMsg m.actionCode)
    else if m.msgType = msgTypeCallRes then convStr2Str rxUniqueIdChar
    else [])

/-- **`Make_Ocpp_Msg`**: the text left in `curl_ws_send_buf`. -/
def makeOcppMsg (tx : TxBuf) (rxUniqueIdChar : List Char) : List Char :=
  '[' :: encHeader tx.msg rxUniqueIdChar ++ [',', '{'] ++
    commas (encItems (fun i b => encMain tx (tx.msg.payload i) b) 0 tx.msg.payloadLen 0).1 ++
    ['}', ']']

/-- What `Make_Ocpp_Msg` leaves in `Tx_Msg`: every array it printed has its length
reset. -/
def afterMakeOcppMsg (tx : TxBuf) : TxBuf :=
  { tx with msg := { tx.msg with payload := fun i =>
      let p := tx.msg.payload i
      if i < tx.msg.payloadLen ∧ p.dataType = .arr then { p with subPayloadLen := 0 } else p } }

/-! ## What a frame shows -/

/-- The frame has the property `name` with the value text `value`: no quote, digit or letter
stands between the value and the next separator. -/
def Shows (frame name value : List Char) : Prop :=
  ∃ pre post, frame = pre ++ (convStr2Str name ++ ':' :: value) ++ post ∧
    (post.head? = some ',' ∨ post.head? = some '}')

theorem encItems_mem (enc : Nat → Nat → List Char × Nat) {i n : Nat} (h : i < n)
    (start b : Nat) :
    ∃ ts b' ts', (encItems enc start n b).1 = ts ++ (enc (start + i) b').1 :: ts' := by
  induction n generalizing start b i with
  | zero => exact absurd h (Nat.not_lt_zero i)
  | succ n ih =>
    cases i with
    | zero => exact ⟨[], b, (encItems enc (start + 1) n (enc start b).2).1, rfl⟩
    | succ i =>
      obtain ⟨ts, b', ts', hts⟩ := ih (Nat.lt_of_succ_lt_succ h) (start + 1) (enc start b).2
      refine ⟨(enc start b).1 :: ts, b', ts', ?_⟩
      have hrest : (encItems enc start (n + 1) b).1 =
          (enc start b).1 :: (encItems enc (start + 1) n (enc start b).2).1 := rfl
      rw [hrest, hts, Nat.add_right_comm start 1 i]
      rfl

theorem commas_mem (ts : List (List Char)) (t : List Char) (ts' : List (List Char)) :
    ∃ pre post, commas (ts ++ t :: ts') = pre ++ t ++ post ∧
      (post = [] ∨ post.head? = some ',') := by
  have htail : ∀ us : List (List Char), us.flatMap (fun y => ',' :: y) = [] ∨
      (us.flatMap fun y => ',' :: y).head? = some ',' := by
    intro us
    cases us with
    | nil => exact .inl rfl
    | cons u us => exact .inr rfl
  cases ts with
  | nil => exact ⟨[], ts'.flatMap fun y => ',' :: y, rfl, htail ts'⟩
  | cons u ts =>
    refine ⟨u ++ ts.flatMap (fun y => ',' :: y) ++ [','], ts'.flatMap fun y => ',' :: y, ?_,
      htail ts'⟩
    simp [commas_cons, List.flatMap_append]

/-- What is printed of a property stands in the frame. -/
theorem makeOcppMsg_item {tx : TxBuf} {i : Nat} (rxId : List Char) (hi : i < tx.msg.payloadLen) :
    ∃ b pre post, makeOcppMsg tx rxId = pre ++ (encMain tx (tx.msg.payload i) b).1 ++ post ∧
      (post.head? = some ',' ∨ post.head? = some '}') := by
  obtain ⟨ts, b, ts', hts⟩ := encItems_mem (fun i b => encMain tx (tx.msg.payload i) b) hi 0 0
  rw [Nat.zero_add] at hts
  obtain ⟨pre, post, hcommas, hpost⟩ := commas_mem ts (encMain tx (tx.msg.payload i) b).1 ts'
  refine ⟨b, '[' :: encHeader tx.msg rxId ++ [',', '{'] ++ pre, post ++ ['}', ']'], ?_, ?_⟩
  · unfold makeOcppMsg
    rw [hts, hcommas]
    simp only [List.append_assoc, List.cons_append]
  · rcases hpost with rfl | hpost
    · exact .inr rfl
    · cases post with
      | nil => exact absurd hpost (by simp)
      | cons c post => exact .inl hpost

/-- **An integer property is shown as its contents stand**, whatever the entries around it
hold. -/
theorem makeOcppMsg_shows {tx : TxBuf} {i : Nat} (rxId : List Char)
    (hi : i < tx.msg.payloadLen) (hint : (tx.msg.payload i).dataType = .int) :
    Shows (makeOcppMsg tx rxId) (tx.msg.payload i).propertyName
      (cstr (tx.msg.payload i).propertyContants) := by
  obtain ⟨b, pre, post, hframe, hpost⟩ := makeOcppMsg_item rxId hi
  refine ⟨pre, post, ?_, hpost⟩
  rw [hframe]
  unfold encMain
  rw [if_pos hint]
  rfl

/-- An array of one element shows that element. -/
theorem makeOcppMsg_shows_arr (tx : TxBuf) {i : Nat} (rxId : List Char)
    (hi : i < tx.msg.payloadLen) (harr : (tx.msg.payload i).dataType = .arr)
    (hsub : (tx.msg.payload i).subPayload = .tx) (hlen : (tx.msg.payload i).subPayloadLen = 1) :
    cstr (tx.sub 0).propertyContants <:+: makeOcppMsg tx rxId := by
  obtain ⟨b, pre, post, hframe, -⟩ := makeOcppMsg_item rxId hi
  have hitem : (encMain tx (tx.msg.payload i) b).1 = convStr2Str (tx.msg.payload i).propertyName ++
      ':' :: '[' :: cstr (tx.sub 0).propertyContants ++ [']'] := by
    unfold encMain
    rw [if_neg (by simp [harr]), if_pos harr, hlen, hsub]
    simp [commas, TxBuf.subOf, convStr2Int]
  refine ⟨pre ++ convStr2Str (tx.msg.payload i).propertyName ++ [':', '['], [']'] ++ post, ?_⟩
  rw [hframe, hitem]
  simp only [List.append_assoc, List.cons_append, List.nil_append]

end ChargePoint
