import ChargePoint.Lib.Rounding
import ChargePoint.Lib.Search
import ChargePoint.MessageIds

/-!
# The answer to a DataTransfer

Prices and amounts come as JSON inside a string, and the answer is not parsed: its text is searched
for a name, and what stands five characters behind the name is the value. The value is copied into a
local of 8, 10 or 15 bytes, the local is searched for the quote that ends it, and what stands before
the backslash of that quote is copied once more and converted. A value that fills the local has no
quote in it, and the search leaves the local.

`decoded_iff` says when all of this stays in its arrays and gives the amounts of the message.
-/

set_option autoImplicit false

namespace ChargePoint

open CStr Search Rounding

/-! ## The code

Each branch is a row of the same block: `strstr` for the name, a copy of what stands at a fixed
offset into a local, `strstr` for the quote, a second copy, a conversion. The block is
`fieldText`, with the offset and the size of the local as parameters, and each place of it that
leaves an array or follows a null pointer is `none`. -/

/-- `MEM_TYPE`. -/
inductive MemType
  | non | meber | roam | guest | vip
  deriving DecidableEq, Repr

/-- `ChargeAmt`. -/
inductive ChargeAmt
  | non | final
  deriving DecidableEq, Repr

/-- `CARD_AUTH_OK`. -/
def cardAuthOk : Nat := 1

/-- What an answer to a DataTransfer sets in `shmDataAppInfo` and `shmDataIfInfo`. -/
structure DataTransVals where
  finalAmt : UInt32
  billAmt : UInt32
  remainPoint : UInt32
  usedPoint : UInt32
  chargeAmtCheck : ChargeAmt
  memberType : MemType
  /-- a `float` -/
  ocppUnitprice : ℚ
  cardAuth : Nat
  deriving DecidableEq

/-- `sizeof DATATRANS_data`. -/
def dataTransCap : Nat := 1024

/-- `memcpy(tmp, &data[off], len)`, as a string. -/
def memcpyFrom (data : List Char) (off len : Nat) : Option (List Char) :=
  if off + len ≤ dataTransCap then some (cstr ((data.drop off).take len)) else none

/-- `strncpy(tmp, &data[off], len)` into a local that was cleared: it reads up to a zero. -/
def strncpyFrom (data : List Char) (off len : Nat) : Option (List Char) :=
  let s := cstr (data.drop off)
  if off + min len (s.length + 1) ≤ dataTransCap then some (s.take len) else none

/-- `n = strstr(tmp, "\"") - tmp; strncpy(dst, tmp, n - 1)`. Where the string of `tmp` has no quote the
search goes past the array or gives a null pointer, and where the quote comes first the length is
that of all memory. -/
def upToQuote (tmp : List Char) : Option (List Char) :=
  match find ['"'] tmp with
  | some (n + 1) => some (tmp.take n)
  | _ => none

/-- The recurring block: the text behind a name, by way of a local of `cap` bytes. A name that is not
found is a null pointer. -/
def fieldText (data : List Char) (name : String) (off cap : Nat) : Option (List Char) :=
  (find name.toList (cstr data)).bind fun n =>
    (strncpyFrom data (n + off) cap).bind upToQuote

/-- `isspace`. -/
def isSpace (c : Char) : Bool := c == ' ' || (9 ≤ c.toNat && c.toNat ≤ 13)

/-- An optional sign: whether it is a minus, and what follows it. -/
def readSign : List Char → Bool × List Char
  | '-' :: s => (true, s)
  | '+' :: s => (false, s)
  | s => (false, s)

/-- `atoi`. A number that is no `int` is undefined. -/
def atoi (s : List Char) : Option Int :=
  let (minus, s) := readSign (s.dropWhile isSpace)
  let v : Int := decVal (s.takeWhile Char.isDigit)
  let v := if minus then -v else v
  if -2 ^ 31 ≤ v ∧ v < 2 ^ 31 then some v else none

/-- `atof`, before it is rounded. Exponents, hexadecimal numbers, infinities and NaNs are not
followed. -/
def atof (s : List Char) : Option ℚ :=
  let (minus, s) := readSign (s.dropWhile isSpace)
  let whole := s.takeWhile Char.isDigit
  let (frac, rest) := match s.dropWhile Char.isDigit with
    | '.' :: s => (s.takeWhile Char.isDigit, s.dropWhile Char.isDigit)
    | s => ([], s)
  if rest.head?.any (fun c => "eExXiInN".toList.contains c) then none
  else
    let q : ℚ := decVal (whole ++ frac) / 10 ^ frac.length
    some (if minus then -q else q)

/-- What becomes of an amount, an `unsigned int`, and of a price, a `double` and then a `float`. -/
def amountOf (s : List Char) : Option UInt32 := (atoi s).map UInt32.ofInt
def priceOf (s : List Char) : Option ℚ := (atof s).map fun q => roundTo 24 (roundTo 53 q)

def amountField (data : List Char) (name : String) (off cap : Nat) : Option UInt32 :=
  (fieldText data name off cap).bind amountOf

def priceField (data : List Char) (name : String) (off cap : Nat) : Option ℚ :=
  (fieldText data name off cap).bind priceOf

/-- `messageId` is `j1`. -/
def dataTransJ1 (data : List Char) (s : DataTransVals) : Option DataTransVals := do
  let price ← priceField data "unitPrice" 14 8
  return { s with ocppUnitprice := price }

def memTypeOf (s : List Char) : MemType :=
  if s = "member".toList then .meber
  else if s = "roam".toList then .roam
  else if s = "guest".toList then .guest
  else if s = "vip".toList then .vip
  else .non

/-- `status_Cp[10]`: its length is taken from the place of `status` in the message. -/
def statusCp (data : List Char) : Option (List Char) := do
  let n ← find "status".toList (cstr data)
  let tmp ← strncpyFrom data (n + 9) 8
  if 1 ≤ n ∧ n - 1 ≤ 10 then return tmp.take (n - 1) else none

/-- `messageId` is `mbrUntpc`. -/
def dataTransMbrUntpc (data : List Char) (s : DataTransVals) : Option DataTransVals := do
  let status ← statusCp data
  if status = "Accepted".toList then
    let mbrType ← fieldText data "mbrType" 12 10
    let price ← priceField data "untpc" 10 8
    return { s with memberType := memTypeOf mbrType, ocppUnitprice := price, cardAuth := cardAuthOk }
  else return s

/-- `messageId` is `chargeAmt`. -/
def dataTransChargeAmt (data : List Char) (s : DataTransVals) : Option DataTransVals := do
  let finalAmt ← amountField data "finalAmt" 13 8
  let billAmt ← amountField data "billAmt" 12 8
  let usedPoint ← amountField data "usedPoint" 14 15
  let remainPoint ← amountField data "remainPoint" 16 15
  return { s with finalAmt := finalAmt, billAmt := billAmt, usedPoint := usedPoint,
                  remainPoint := remainPoint, chargeAmtCheck := .final }

/-- `memset(DATATRANS_data, 0x00, sizeof DATATRANS_data)`. -/
def RxBuf.clearDataTrans (rx : RxBuf) : RxBuf :=
  { rx with msg := { rx.msg with
      payload := setAt rx.msg.payload 0 { rx.msg.payload 0 with dataTransData := [] } } }

/-- **`DataProcCmd_DataTransCp`.** -/
def dataProcCmdDataTransCp (rx : RxBuf) (s : DataTransVals) : Option (RxBuf × DataTransVals) :=
  let data := (rx.msg.payload 0).dataTransData
  let r := match find "messageId".toList (cstr data) with
    | none => some s
    | some n => do
      let tmp ← memcpyFrom data (n + 14) 12
      let messageId ← upToQuote tmp
      if messageId = "j1".toList then dataTransJ1 data s
      else if messageId = "mbrUntpc".toList then dataTransMbrUntpc data s
      else if messageId = "chargeAmt".toList then dataTransChargeAmt data s
      else return s
  r.map fun s => (rx.clearDataTrans, s)

/-! ## The messages

What a message means is said without the code: a layout with the values of its fields, each of
which stands *somewhere* in the text between its name and a quote. That a field stands first of
its name is a condition of the decoder, not of the message. -/

/-- A quote inside a string, and what stands between a name and its value there. -/
def quote : List Char := ['\\', '"']
def nameEnd : List Char := quote ++ ':' :: quote

/-- The text holds a field, a name with its value, somewhere. -/
def HasField (frame name value : List Char) : Prop :=
  quote ++ name ++ nameEnd ++ value ++ quote <:+: frame

instance (frame name value : List Char) : Decidable (HasField frame name value) :=
  inferInstanceAs (Decidable (_ <:+: _))

/-- The field is the first place of the text where its name stands. -/
def StandsFirst (name value frame : List Char) : Prop :=
  ∃ pre post, First name frame (pre ++ quote) (nameEnd ++ (value ++ (quote ++ post)))

/-- An amount: up to ten digits, of an `int`. -/
structure IsAmount (v : List Char) : Prop where
  digits : Digits v
  length : v.length ≤ 10
  value : decVal v < 2 ^ 31

/-- The layouts, with the values of their fields. -/
inductive Layout
  | j1 (unitPrice : List Char)
  | mbrUntpc (mbrType untpc : List Char)
  | chargeAmt (finalAmt billAmt usedPoint remainPoint : List Char)

namespace Layout

def messageId : Layout → String
  | .j1 _ => "j1"
  | .mbrUntpc _ _ => "mbrUntpc"
  | .chargeAmt _ _ _ _ => "chargeAmt"

/-- The fields that hold amounts. -/
def amounts : Layout → List (String × List Char)
  | .j1 unitPrice => [("unitPrice", unitPrice)]
  | .mbrUntpc _ untpc => [("untpc", untpc)]
  | .chargeAmt finalAmt billAmt usedPoint remainPoint =>
    [("finalAmt", finalAmt), ("billAmt", billAmt), ("usedPoint", usedPoint),
      ("remainPoint", remainPoint)]

/-- What a layout holds beside its amounts: the member's is accepted, and has a type. -/
def Member (frame : List Char) : Layout → Prop
  | .mbrUntpc mbrType _ =>
    "\"status\":\"Accepted\"".toList <:+: frame ∧ HasField frame "mbrType".toList mbrType ∧
      '"' ∉ mbrType
  | _ => True

/-- **The text is a message of this layout**: its first `messageId` says so, and its fields stand
somewhere. -/
structure Stands (l : Layout) (frame : List Char) : Prop where
  text : NulFree frame
  id : StandsFirst "messageId".toList l.messageId.toList frame
  field : ∀ f ∈ l.amounts, HasField frame f.1.toList f.2
  amount : ∀ f ∈ l.amounts, IsAmount f.2
  member : l.Member frame

/-- The amounts that are stored are those of the message. -/
def Stored (s : DataTransVals) : Layout → Prop
  | .j1 unitPrice => s.ocppUnitprice = decVal unitPrice
  | .mbrUntpc _ untpc => s.ocppUnitprice = decVal untpc
  | .chargeAmt finalAmt billAmt usedPoint remainPoint =>
    s.finalAmt.toNat = decVal finalAmt ∧ s.billAmt.toNat = decVal billAmt ∧
      s.usedPoint.toNat = decVal usedPoint ∧ s.remainPoint.toNat = decVal remainPoint

end Layout

/-- The text came in as the answer to the last DataTransfer. -/
def AnswersDataTrans (frame : List Char) (rx : RxBuf) : Prop :=
  frame.length < Client.recvBufCap ∧ ∃ a dt dt',
    parseData a dt clearRxMsgBuff frame = some ⟨false, rx, dt'⟩ ∧ rx.msg.msgType = 3 ∧
      rx.msg.uniqueId = dt

/-- **The answer is decoded right**, whatever was stored before: nothing leaves an array, and the
amounts are stored. -/
def DecodedRight (l : Layout) (rx : RxBuf) : Prop :=
  ∀ s, ∃ rx' s', dataProcCmdDataTransCp rx s = some (rx', s') ∧ l.Stored s'

/-! ## Which of them are decoded right

A field fits if its own place is the first of its name and its value leaves room for a quote in
the local. There is one other way: the name stands earlier, in other data, and what is read there
happens to mean the same number. The condition has to allow it to be exact. -/

/-- What is read behind a name, by way of a local of `cap` bytes. -/
def Reads (cap : Nat) (name frame cut : List Char) : Prop :=
  ∃ pre rest x post, First name frame pre rest ∧ rest.drop 5 = cut ++ x :: '"' :: post ∧
    '"' ∉ cut ∧ x ≠ '"' ∧ cut.length + 2 ≤ cap

/-- **A field fits**: it stands first, and there is room for it and the quote behind it. Where its name
stands earlier in the text, what is read there must happen to mean the same. -/
def FieldFits {β : Type} (val : List Char → Option β) (cap : Nat) (name : String) (value : List Char)
    (b : β) (frame : List Char) : Prop :=
  (StandsFirst name.toList value frame ∧ value.length + 2 ≤ cap) ∨
    (¬ StandsFirst name.toList value frame ∧
      ∃ cut, Reads cap name.toList frame cut ∧ val cut = some b)

/-- Twelve bytes are copied for the `messageId`, and they are in the array. -/
def MessageIdFits (frame : List Char) : Prop :=
  ∃ pre rest, First "messageId".toList frame pre rest ∧ pre.length + 26 ≤ dataTransCap

/-- `status` stands at the ninth to eleventh place of the message, and it is accepted. -/
def StatusFits (frame : List Char) : Prop :=
  ∃ pre rest, First "status".toList frame pre rest ∧ 9 ≤ pre.length ∧ pre.length ≤ 11 ∧
    "Accepted".toList <+: rest.drop 3

namespace Layout

def AmountFits (cap : Nat) (name : String) (v frame : List Char) : Prop :=
  FieldFits amountOf cap name v (UInt32.ofNat (decVal v)) frame

def PriceFits (name : String) (v frame : List Char) : Prop :=
  FieldFits priceOf 8 name v (decVal v : ℚ) frame

/-- The fields of a layout fit. -/
def Fits (frame : List Char) : Layout → Prop
  | .j1 unitPrice => PriceFits "unitPrice" unitPrice frame
  | .mbrUntpc mbrType untpc =>
    StatusFits frame ∧ FieldFits (fun _ => some ()) 10 "mbrType" mbrType () frame ∧
      PriceFits "untpc" untpc frame
  | .chargeAmt finalAmt billAmt usedPoint remainPoint =>
    AmountFits 8 "finalAmt" finalAmt frame ∧ AmountFits 8 "billAmt" billAmt frame ∧
      AmountFits 15 "usedPoint" usedPoint frame ∧ AmountFits 15 "remainPoint" remainPoint frame

end Layout

/-! ## The value of a field -/

section Fields
variable {frame tmp cut value : List Char} {name : String} {off cap : Nat}

/-- What stands before the first quote, but for the character at it. -/
theorem upToQuote_eq_some : upToQuote tmp = some cut ↔
    ∃ x post, tmp = cut ++ x :: '"' :: post ∧ '"' ∉ cut ∧ x ≠ '"' := by
  constructor
  · intro h
    unfold upToQuote at h
    split at h
    · rename_i n hfind
      obtain ⟨pre, rest, hfirst, hlen⟩ := find_eq_some.mp hfind
      obtain ⟨rfl, hpre⟩ := first_singleton.mp hfirst
      have hne : pre ≠ [] := by
        rintro rfl
        cases hlen
      have hsplit := List.dropLast_concat_getLast hne
      have hcut : pre.dropLast = cut := by
        have htake := Option.some.inj h
        rw [List.take_append_of_le_length (by omega)] at htake
        rw [← htake, List.dropLast_eq_take, hlen]
        rfl
      rw [hcut] at hsplit
      refine ⟨pre.getLast hne, rest, ?_, ?_, ?_⟩
      · calc pre ++ '"' :: rest = cut ++ [pre.getLast hne] ++ '"' :: rest :=
              congrArg (· ++ '"' :: rest) hsplit.symm
          _ = cut ++ pre.getLast hne :: '"' :: rest := by simp
      · intro hc
        exact hpre (hsplit ▸ List.mem_append_left _ hc)
      · intro hc
        exact hpre (hc ▸ List.getLast_mem hne)
    · cases h
  · rintro ⟨x, post, rfl, hcut, hx⟩
    have hfirst : First ['"'] (cut ++ x :: '"' :: post) (cut ++ [x]) post := by
      refine first_singleton.mpr ⟨by simp, ?_⟩
      rw [List.mem_append, List.mem_singleton, not_or]
      exact ⟨hcut, Ne.symm hx⟩
    have hlen : (cut ++ [x]).length = cut.length + 1 := by simp
    unfold upToQuote
    rw [find_first hfirst, hlen]
    simp

/-- What `strncpy` copies from inside the text. -/
theorem strncpyFrom_inside (hlen : frame.length < dataTransCap) (hnul : NulFree frame)
    (hoff : off ≤ frame.length) : strncpyFrom frame off cap = some ((frame.drop off).take cap) := by
  have hcstr : cstr (frame.drop off) = frame.drop off :=
    cstr_of_nulFree fun c hc => hnul c (List.mem_of_mem_drop hc)
  unfold strncpyFrom
  dsimp only
  rw [hcstr, if_pos]
  rw [List.length_drop]
  omega

/-- **What the code reads behind a name.** -/
theorem fieldText_eq_some (hlen : frame.length < dataTransCap) (hnul : NulFree frame)
    (hoff : off = name.toList.length + 5) :
    fieldText frame name off cap = some cut ↔ Reads cap name.toList frame cut := by
  unfold fieldText
  rw [cstr_of_nulFree hnul, Option.bind_eq_some_iff]
  constructor
  · rintro ⟨n, hfind, h⟩
    obtain ⟨tmp, hcopy, hquote⟩ := Option.bind_eq_some_iff.mp h
    obtain ⟨pre, rest, hfirst, rfl⟩ := find_eq_some.mp hfind
    obtain ⟨x, post, htmp, hcut, hx⟩ := upToQuote_eq_some.mp hquote
    have hdrop : frame.drop (pre.length + off) = rest.drop 5 := by
      rw [← List.drop_drop, hfirst.drop, hoff, ← List.drop_drop, List.drop_left]
    have hin : pre.length + off ≤ frame.length := by
      -- behind the end of the text nothing is copied, and there is a quote in what was
      by_contra hout
      have hnone : frame.drop (pre.length + off) = [] := List.drop_eq_nil_of_le (by omega)
      unfold strncpyFrom at hcopy
      dsimp only at hcopy
      rw [hnone] at hcopy
      split at hcopy
      · cases hcopy
        simp at htmp
      · cases hcopy
    rw [strncpyFrom_inside hlen hnul hin, hdrop] at hcopy
    obtain rfl := Option.some.inj hcopy
    have hroom := congrArg List.length htmp
    simp only [List.length_take, List.length_append, List.length_cons] at hroom
    refine ⟨pre, rest, x, post ++ (rest.drop 5).drop cap, hfirst, ?_, hcut, hx, by omega⟩
    calc rest.drop 5 = (rest.drop 5).take cap ++ (rest.drop 5).drop cap :=
          (List.take_append_drop cap _).symm
      _ = cut ++ x :: '"' :: (post ++ (rest.drop 5).drop cap) := by
        rw [htmp]
        simp
  · rintro ⟨pre, rest, x, post, hfirst, hrest, hcut, hx, hroom⟩
    have hdrop : frame.drop (pre.length + off) = rest.drop 5 := by
      rw [← List.drop_drop, hfirst.drop, hoff, ← List.drop_drop, List.drop_left]
    have hin : pre.length + off ≤ frame.length := by
      apply Nat.le_of_not_lt
      intro hout
      rw [List.drop_eq_nil_of_le (by omega), hrest] at hdrop
      simp at hdrop
    refine ⟨pre.length, find_first hfirst, ?_⟩
    rw [strncpyFrom_inside hlen hnul hin, hdrop, hrest, Option.bind_some, upToQuote_eq_some]
    refine ⟨x, post.take (cap - (cut.length + 2)), ?_, hcut, hx⟩
    obtain ⟨k, rfl⟩ := Nat.exists_eq_add_of_le hroom
    rw [Nat.add_sub_cancel_left, show cut.length + 2 + k = cut.length + (k + 1 + 1) by omega,
      List.take_length_add_append]
    rfl

/-- A field that stands first is what is read, if there is room. -/
theorem reads_field (hfirst : StandsFirst name.toList value frame) (hvalue : '"' ∉ value) :
    Reads cap name.toList frame cut ↔ cut = value ∧ value.length + 2 ≤ cap := by
  obtain ⟨pre, post, hfirst⟩ := hfirst
  have hdrop : (nameEnd ++ (value ++ (quote ++ post))).drop 5 = value ++ '\\' :: '"' :: post := rfl
  constructor
  · rintro ⟨pre', rest, x, post', hfirst', hrest, hcut, hx, hroom⟩
    obtain ⟨-, rfl⟩ := hfirst.unique hfirst'
    rw [hdrop] at hrest
    -- both are what stands before the first quote
    have hleft : First ['"'] (value ++ '\\' :: '"' :: post) (value ++ ['\\']) post := by
      refine first_singleton.mpr ⟨by simp, ?_⟩
      rw [List.mem_append, List.mem_singleton, not_or]
      exact ⟨hvalue, by decide⟩
    have hright : First ['"'] (value ++ '\\' :: '"' :: post) (cut ++ [x]) post' := by
      rw [hrest]
      refine first_singleton.mpr ⟨by simp, ?_⟩
      rw [List.mem_append, List.mem_singleton, not_or]
      exact ⟨hcut, Ne.symm hx⟩
    obtain ⟨rfl, -⟩ := List.append_inj' (hleft.unique hright).1 rfl
    exact ⟨rfl, hroom⟩
  · rintro ⟨rfl, hroom⟩
    exact ⟨_, _, '\\', post, hfirst, hdrop, hvalue, by decide, hroom⟩

/-- **A field fits exactly when what is read means its value.** -/
theorem fieldFits_iff {β : Type} {val : List Char → Option β} {b : β} (hvalue : '"' ∉ value)
    (hval : value.length + 2 ≤ cap → val value = some b) :
    FieldFits val cap name value b frame ↔
      ∃ cut, Reads cap name.toList frame cut ∧ val cut = some b := by
  unfold FieldFits
  by_cases hfirst : StandsFirst name.toList value frame
  · constructor
    · rintro (⟨-, hroom⟩ | ⟨hnot, -⟩)
      · exact ⟨value, (reads_field hfirst hvalue).mpr ⟨rfl, hroom⟩, hval hroom⟩
      · exact absurd hfirst hnot
    · rintro ⟨cut, hreads, -⟩
      exact .inl ⟨hfirst, ((reads_field hfirst hvalue).mp hreads).2⟩
  · constructor
    · rintro (⟨h, -⟩ | ⟨-, h⟩)
      · exact absurd h hfirst
      · exact h
    · intro h
      exact .inr ⟨hfirst, h⟩

end Fields

/-! ## Numerals -/

section Numbers
variable {v : List Char}

theorem isSpace_digit {c : Char} (h : c.isDigit = true) : isSpace c = false := by
  have hge := digit_ge h
  have hne : c ≠ ' ' := by
    rintro rfl
    cases h
  unfold isSpace
  simp [hne]
  omega

/-- In front of digits there is no white space and no sign. -/
theorem readSign_digits (h : Digits v) : readSign (v.dropWhile isSpace) = (false, v) := by
  cases v with
  | nil => rfl
  | cons c cs =>
    have hc := h.cons.1
    rw [List.dropWhile_cons_of_neg (by rw [isSpace_digit hc]; decide)]
    unfold readSign
    split
    · rename_i heq
      cases heq
      cases hc
    · rename_i heq
      cases heq
      cases hc
    · rfl

theorem takeWhile_digits (h : Digits v) : v.takeWhile Char.isDigit = v :=
  List.takeWhile_eq_self_iff.mpr h

theorem dropWhile_digits (h : Digits v) : v.dropWhile Char.isDigit = [] :=
  List.dropWhile_eq_nil_iff.mpr h

/-- `atoi` reads an amount. -/
theorem amountOf_amount (h : IsAmount v) : amountOf v = some (UInt32.ofNat (decVal v)) := by
  have hfits : (-2 ^ 31 : Int) ≤ decVal v ∧ (decVal v : Int) < 2 ^ 31 := by
    have := h.value
    omega
  unfold amountOf atoi
  rw [readSign_digits h.digits]
  dsimp only
  rw [takeWhile_digits h.digits]
  simp only [Bool.false_eq_true, if_false]
  rw [if_pos hfits]
  have hmod : ((decVal v : Int) % 2 ^ 32).toNat = decVal v := by
    have := h.value
    omega
  show some (UInt32.ofNat ((decVal v : Int) % 2 ^ 32).toNat) = _
  rw [hmod]

/-- `atof` reads a price, and up to six digits a `float` holds it. -/
theorem priceOf_digits (h : Digits v) (hlen : v.length ≤ 6) : priceOf v = some (decVal v : ℚ) := by
  have hval : decVal v < 10 ^ 6 :=
    (decVal_lt h).trans_le (Nat.pow_le_pow_right (by decide) hlen)
  unfold priceOf atof
  rw [readSign_digits h]
  dsimp only
  rw [takeWhile_digits h, dropWhile_digits h]
  simp only [List.head?_nil, Option.any_none, Bool.false_eq_true, if_false, List.append_nil,
    List.length_nil, pow_zero, div_one, Option.map_some]
  rw [roundTo_of_lt (show decVal v < 2 ^ 53 by omega), roundTo_of_lt (show decVal v < 2 ^ 24 by omega)]

theorem quote_not_mem (h : Digits v) : '"' ∉ v := by
  intro hmem
  have hdigit := h _ hmem
  cases hdigit

end Numbers

/-! ## The branches -/

section Branches
variable {frame : List Char} {s : DataTransVals} {name : String} {v : List Char} {off cap : Nat}

/-- An amount is stored where its field fits. -/
theorem amountField_iff (hlen : frame.length < dataTransCap) (hnul : NulFree frame)
    (hoff : off = name.toList.length + 5) (h : IsAmount v) :
    amountField frame name off cap = some (UInt32.ofNat (decVal v)) ↔
      Layout.AmountFits cap name v frame := by
  unfold amountField Layout.AmountFits
  rw [fieldFits_iff (quote_not_mem h.digits) (fun _ => amountOf_amount h), Option.bind_eq_some_iff]
  simp only [fieldText_eq_some hlen hnul hoff]

theorem priceField_iff (hlen : frame.length < dataTransCap) (hnul : NulFree frame)
    (hoff : off = name.toList.length + 5) (h : IsAmount v) :
    priceField frame name off 8 = some (decVal v : ℚ) ↔ Layout.PriceFits name v frame := by
  have hval : v.length + 2 ≤ 8 → priceOf v = some (decVal v : ℚ) :=
    fun hroom => priceOf_digits h.digits (by omega)
  unfold priceField Layout.PriceFits
  rw [fieldFits_iff (quote_not_mem h.digits) hval, Option.bind_eq_some_iff]
  simp only [fieldText_eq_some hlen hnul hoff]

/-- The `status` is accepted where it stands. -/
theorem statusCp_iff (hlen : frame.length < dataTransCap) (hnul : NulFree frame) :
    statusCp frame = some "Accepted".toList ↔ StatusFits frame := by
  unfold statusCp
  rw [cstr_of_nulFree hnul]
  simp only [Option.bind_eq_bind, Option.bind_eq_some_iff, Option.pure_def]
  constructor
  · rintro ⟨n, hfind, tmp, hcopy, h⟩
    obtain ⟨pre, rest, hfirst, rfl⟩ := find_eq_some.mp hfind
    have hdrop : frame.drop (pre.length + 9) = rest.drop 3 := by
      rw [← List.drop_drop, hfirst.drop]
      rfl
    split at h
    · rename_i hlong
      have htake := Option.some.inj h
      -- a name behind the end would leave nothing to copy, and nothing is not the word
      have hin : pre.length + 9 ≤ frame.length := by
        by_contra hout
        have hnone : frame.drop (pre.length + 9) = [] := List.drop_eq_nil_of_le (by omega)
        unfold strncpyFrom at hcopy
        dsimp only at hcopy
        rw [hnone] at hcopy
        split at hcopy
        · cases hcopy
          simp at htake
        · cases hcopy
      rw [strncpyFrom_inside hlen hnul hin, hdrop] at hcopy
      obtain rfl := Option.some.inj hcopy
      have hroom := congrArg List.length htake
      have hword : "Accepted".toList.length = 8 := by decide
      simp only [List.length_take, hword] at hroom
      refine ⟨pre, rest, hfirst, by omega, by omega, ?_⟩
      rw [← htake]
      exact (List.take_prefix _ _).trans (List.take_prefix _ _)
    · cases h
  · rintro ⟨pre, rest, hfirst, hlow, hhigh, hword⟩
    have hdrop : frame.drop (pre.length + 9) = rest.drop 3 := by
      rw [← List.drop_drop, hfirst.drop]
      rfl
    obtain ⟨post, hpost⟩ := hword
    have hin : pre.length + 9 ≤ frame.length := by
      apply Nat.le_of_not_lt
      intro hout
      rw [List.drop_eq_nil_of_le (by omega), ← hpost] at hdrop
      simp at hdrop
    refine ⟨pre.length, find_first hfirst, _, strncpyFrom_inside hlen hnul hin, ?_⟩
    -- the word is the first eight characters behind the name, and the cut keeps all of them
    have height : (rest.drop 3).take 8 = "Accepted".toList := by
      rw [← hpost]
      rfl
    rw [if_pos ⟨by omega, by omega⟩, hdrop, height]
    exact congrArg some (List.take_of_length_le (show 8 ≤ pre.length - 1 by omega))

/-- The `messageId` is read if twelve bytes of it are in the array. -/
theorem messageId_read {id : String} (hnul : NulFree frame)
    (hid : StandsFirst "messageId".toList id.toList frame) (hquote : '"' ∉ id.toList)
    (hroom : id.toList.length + 2 ≤ 12) : ∃ n, find "messageId".toList frame = some n ∧
      (MessageIdFits frame ↔ n + 26 ≤ dataTransCap) ∧
      (memcpyFrom frame (n + 14) 12).bind upToQuote =
        if n + 26 ≤ dataTransCap then some id.toList else none := by
  obtain ⟨pre, post, hfirst⟩ := hid
  refine ⟨_, find_first hfirst, ⟨?_, fun h => ⟨_, _, hfirst, h⟩⟩, ?_⟩
  · rintro ⟨pre', rest', hfirst', h⟩
    rwa [(hfirst.unique hfirst').1]
  · unfold memcpyFrom
    rw [Nat.add_assoc]
    split
    · have hdrop : frame.drop ((pre ++ quote).length + 14) =
          id.toList ++ '\\' :: '"' :: post := by
        rw [← List.drop_drop, hfirst.drop]
        rfl
      rw [Option.bind_some, upToQuote_eq_some, cstr_of_nulFree, hdrop]
      · refine ⟨'\\', post.take (12 - (id.toList.length + 2)), ?_, hquote, by decide⟩
        obtain ⟨k, hk⟩ := Nat.exists_eq_add_of_le hroom
        rw [hk, Nat.add_sub_cancel_left,
          show id.toList.length + 2 + k = id.toList.length + (k + 1 + 1) by omega,
          List.take_length_add_append]
        rfl
      · intro c hc
        exact hnul c (List.mem_of_mem_drop (List.mem_of_mem_take hc))
    · rfl

end Branches

/-! ## The answer as it comes in -/

/-- The header is read into fields of its own. -/
theorem headerLoop_payload {a : CpReqAction} {st : HeaderStep} {temp : List Char} {msg : RxMsg}
    {cs : List Char} {e : HeaderEnd} (h : headerLoop a st temp msg cs = some e) :
    e.msg.payload = msg.payload := by
  fun_induction headerLoop a st temp msg cs
  all_goals first
    | (cases h <;> rfl)
    | (rename_i ih; exact ih h)

theorem parseHeader_payload {a : CpReqAction} {frame : List Char} {msg : RxMsg} {e : HeaderEnd}
    (h : parseHeader a frame msg = some e) : e.msg.payload = msg.payload := by
  unfold parseHeader at h
  split at h
  · exact headerLoop_payload h
  · cases h
    rfl

/-- The text of the answer is kept as it is. -/
theorem AnswersDataTrans.data {frame : List Char} {rx : RxBuf} (h : AnswersDataTrans frame rx) :
    (rx.msg.payload 0).dataTransData = frame := by
  obtain ⟨-, a, dt, dt', hparse, h3, hid⟩ := h
  simp only [parseData, Option.bind_eq_some_iff] at hparse
  obtain ⟨e, he, hparse⟩ := hparse
  split at hparse
  · simp at hparse
  · split at hparse
    · simp only [Option.some.injEq, DataEnd.mk.injEq] at hparse
      obtain ⟨-, rfl, -⟩ := hparse
      show frame ++ ((e.msg.payload 0).dataTransData).drop frame.length = frame
      rw [parseHeader_payload he]
      show frame ++ ([] : List Char).drop frame.length = frame
      rw [List.drop_nil, List.append_nil]
    · rename_i hother
      simp only [Option.map_eq_some_iff, DataEnd.mk.injEq] at hparse
      obtain ⟨⟨err, rx₁⟩, hp, rfl, rfl, rfl⟩ := hparse
      have heq := parsePayload_header hp
      rw [heq.msgType, heq.uniqueId] at *
      exact absurd ⟨h3, hid⟩ hother

/-! ## The layouts

The branches are taken apart into their fields: a branch has a result exactly if every field of
it has one, so the condition of a layout is the conjunction over its fields and, for the member,
the status and the type. -/

section Layouts
variable {frame : List Char} {rx : RxBuf} {l : Layout}

/-- The branch of a layout. -/
def Layout.serve (data : List Char) (s : DataTransVals) : Layout → Option DataTransVals
  | .j1 _ => dataTransJ1 data s
  | .mbrUntpc _ _ => dataTransMbrUntpc data s
  | .chargeAmt _ _ _ _ => dataTransChargeAmt data s

/-- The `messageId` leads to the branch of its layout. -/
theorem dataTransCp_serve (hrx : AnswersDataTrans frame rx) (hl : l.Stands frame) :
    ∃ n, (MessageIdFits frame ↔ n + 26 ≤ dataTransCap) ∧ ∀ s, dataProcCmdDataTransCp rx s =
        (if n + 26 ≤ dataTransCap then l.serve frame s else none).map fun s =>
          (rx.clearDataTrans, s) := by
  have hids : ∀ id ∈ ["j1", "mbrUntpc", "chargeAmt"],
      '"' ∉ id.toList ∧ id.toList.length + 2 ≤ 12 := by decide
  obtain ⟨hquote, hroom⟩ := hids l.messageId (by cases l <;> simp [Layout.messageId])
  obtain ⟨n, hfind, hfits, hread⟩ := messageId_read hl.text hl.id hquote hroom
  refine ⟨n, hfits, fun s => ?_⟩
  unfold dataProcCmdDataTransCp
  dsimp only
  rw [hrx.data, cstr_of_nulFree hl.text, hfind]
  dsimp only [Option.bind_eq_bind]
  rw [← Option.bind_assoc, hread]
  congr 1
  split
  · rw [Option.bind_some]
    cases l with
    | j1 unitPrice => exact if_pos rfl
    | mbrUntpc mbrType untpc =>
      have hj1 : "mbrUntpc".toList ≠ "j1".toList := by decide
      exact (if_neg hj1).trans (if_pos rfl)
    | chargeAmt finalAmt billAmt usedPoint remainPoint =>
      have hj1 : "chargeAmt".toList ≠ "j1".toList := by decide
      have hmbr : "chargeAmt".toList ≠ "mbrUntpc".toList := by decide
      exact (if_neg hj1).trans ((if_neg hmbr).trans (if_pos rfl))
  · rfl

theorem serve_j1 {p : List Char} (hlen : frame.length < dataTransCap)
    (hl : (Layout.j1 p).Stands frame) :
    (∀ s, ∃ s', dataTransJ1 frame s = some s' ∧ Layout.Stored s' (.j1 p)) ↔
      Layout.PriceFits "unitPrice" p frame := by
  have hprice : priceField frame "unitPrice" 14 8 = some (decVal p : ℚ) ↔ _ :=
    priceField_iff hlen hl.text (by decide) (hl.amount ("unitPrice", p) List.mem_cons_self)
  rw [← hprice]
  unfold dataTransJ1
  constructor
  · intro h
    obtain ⟨s', hserve, hstored⟩ := h ⟨0, 0, 0, 0, .non, .non, 0, 0⟩
    simp only [Option.bind_eq_bind, Option.bind_eq_some_iff, Option.pure_def] at hserve
    obtain ⟨q, hq, hs'⟩ := hserve
    obtain rfl := Option.some.inj hs'
    rw [hq]
    exact congrArg some hstored
  · intro h s
    rw [h]
    exact ⟨_, rfl, rfl⟩

theorem serve_mbrUntpc {m p : List Char} (hlen : frame.length < dataTransCap)
    (hl : (Layout.mbrUntpc m p).Stands frame) :
    (∀ s, ∃ s', dataTransMbrUntpc frame s = some s' ∧ Layout.Stored s' (.mbrUntpc m p)) ↔
      Layout.Fits frame (.mbrUntpc m p) := by
  have hprice : priceField frame "untpc" 10 8 = some (decVal p : ℚ) ↔ _ :=
    priceField_iff hlen hl.text (by decide) (hl.amount ("untpc", p) List.mem_cons_self)
  have htype : FieldFits (fun _ => some ()) 10 "mbrType" m () frame ↔
      ∃ cut, fieldText frame "mbrType" 12 10 = some cut := by
    have hread : ∀ cut, fieldText frame "mbrType" 12 10 = some cut ↔ _ :=
      fun _ => fieldText_eq_some hlen hl.text (by decide)
    have hfits : FieldFits (fun _ => some ()) 10 "mbrType" m () frame ↔ _ :=
      fieldFits_iff hl.member.2.2 fun _ => rfl
    rw [hfits]
    simp only [hread, and_true]
  show _ ↔ StatusFits frame ∧ FieldFits (fun _ => some ()) 10 "mbrType" m () frame ∧
    Layout.PriceFits "untpc" p frame
  rw [← hprice, htype, ← statusCp_iff hlen hl.text]
  unfold dataTransMbrUntpc
  constructor
  · intro h
    -- a price that was there before and is another one
    obtain ⟨s', hserve, hstored⟩ := h ⟨0, 0, 0, 0, .non, .non, decVal p + 1, 0⟩
    simp only [Option.bind_eq_bind, Option.bind_eq_some_iff, Option.pure_def] at hserve
    obtain ⟨status, hstatus, hserve⟩ := hserve
    split at hserve
    · rename_i haccepted
      simp only [Option.bind_eq_some_iff] at hserve
      obtain ⟨cut, hcut, q, hq, hs'⟩ := hserve
      obtain rfl := Option.some.inj hs'
      refine ⟨by rw [hstatus, haccepted], ⟨cut, hcut⟩, ?_⟩
      rw [hq]
      exact congrArg some hstored
    · obtain rfl := Option.some.inj hserve
      have hsame : (decVal p : ℚ) + 1 = decVal p := hstored
      linarith
  · rintro ⟨hstatus, ⟨cut, hcut⟩, hq⟩ s
    rw [hstatus, hcut, hq]
    exact ⟨_, rfl, rfl⟩

theorem serve_chargeAmt {f b u r : List Char} (hlen : frame.length < dataTransCap)
    (hl : (Layout.chargeAmt f b u r).Stands frame) :
    (∀ s, ∃ s', dataTransChargeAmt frame s = some s' ∧ Layout.Stored s' (.chargeAmt f b u r)) ↔
      Layout.Fits frame (.chargeAmt f b u r) := by
  have hf := hl.amount ("finalAmt", f) (by simp [Layout.amounts])
  have hb := hl.amount ("billAmt", b) (by simp [Layout.amounts])
  have hu := hl.amount ("usedPoint", u) (by simp [Layout.amounts])
  have hr := hl.amount ("remainPoint", r) (by simp [Layout.amounts])
  have hval : ∀ {x : UInt32} {v : List Char}, IsAmount v →
      (x.toNat = decVal v ↔ x = UInt32.ofNat (decVal v)) := by
    intro x v hv
    have hlt : decVal v < 2 ^ 32 := hv.value.trans (by decide)
    rw [← UInt32.toNat_inj, UInt32.toNat_ofNat_of_lt' hlt]
  have hf' : amountField frame "finalAmt" 13 8 = _ ↔ _ :=
    amountField_iff hlen hl.text (by decide) hf
  have hb' : amountField frame "billAmt" 12 8 = _ ↔ _ :=
    amountField_iff hlen hl.text (by decide) hb
  have hu' : amountField frame "usedPoint" 14 15 = _ ↔ _ :=
    amountField_iff hlen hl.text (by decide) hu
  have hr' : amountField frame "remainPoint" 16 15 = _ ↔ _ :=
    amountField_iff hlen hl.text (by decide) hr
  show _ ↔ Layout.AmountFits 8 "finalAmt" f frame ∧ Layout.AmountFits 8 "billAmt" b frame ∧
    Layout.AmountFits 15 "usedPoint" u frame ∧ Layout.AmountFits 15 "remainPoint" r frame
  rw [← hf', ← hb', ← hu', ← hr']
  unfold dataTransChargeAmt Layout.Stored
  simp only [hval hf, hval hb, hval hu, hval hr]
  constructor
  · intro h
    obtain ⟨s', hserve, h₁, h₂, h₃, h₄⟩ := h ⟨0, 0, 0, 0, .non, .non, 0, 0⟩
    simp only [Option.bind_eq_bind, Option.bind_eq_some_iff, Option.pure_def] at hserve
    obtain ⟨x₁, hx₁, x₂, hx₂, x₃, hx₃, x₄, hx₄, hs'⟩ := hserve
    obtain rfl := Option.some.inj hs'
    rw [hx₁, hx₂, hx₃, hx₄]
    exact ⟨congrArg some h₁, congrArg some h₂, congrArg some h₃, congrArg some h₄⟩
  · rintro ⟨h₁, h₂, h₃, h₄⟩ s
    rw [h₁, h₂, h₃, h₄]
    exact ⟨_, rfl, rfl, rfl, rfl, rfl⟩

/-- **An answer to a DataTransfer is decoded right** exactly when twelve bytes of its `messageId` are
in the array and its fields fit. Where a name of a price stands earlier than its field, and what
follows it there is written with an exponent, in hexadecimal, or as an infinity or a NaN, `atof`
here has no value, and the field does not fit. -/
theorem decoded_iff (hrx : AnswersDataTrans frame rx) (hl : l.Stands frame) :
    DecodedRight l rx ↔ MessageIdFits frame ∧ l.Fits frame := by
  obtain ⟨n, hfits, hserve⟩ := dataTransCp_serve hrx hl
  have hbranch : (∀ s, ∃ s', l.serve frame s = some s' ∧ l.Stored s') ↔ l.Fits frame := by
    cases l with
    | j1 unitPrice => exact serve_j1 hrx.1 hl
    | mbrUntpc mbrType untpc => exact serve_mbrUntpc hrx.1 hl
    | chargeAmt finalAmt billAmt usedPoint remainPoint => exact serve_chargeAmt hrx.1 hl
  rw [hfits, ← hbranch]
  unfold DecodedRight
  simp only [hserve]
  by_cases hn : n + 26 ≤ dataTransCap
  · simp only [if_pos hn]
    constructor
    · intro h
      refine ⟨hn, fun s => ?_⟩
      obtain ⟨rx', s', hs', hstored⟩ := h s
      obtain ⟨t, ht, heq⟩ := Option.map_eq_some_iff.mp hs'
      cases heq
      exact ⟨s', ht, hstored⟩
    · rintro ⟨-, h⟩ s
      obtain ⟨s', hs', hstored⟩ := h s
      refine ⟨rx.clearDataTrans, s', ?_, hstored⟩
      rw [hs']
      rfl
  · simp only [if_neg hn]
    constructor
    · intro h
      obtain ⟨rx', s', hs', -⟩ := h ⟨0, 0, 0, 0, .non, .non, 0, 0⟩
      cases hs'
    · rintro ⟨h, -⟩
      exact absurd h hn

end Layouts

/-! ## Answers as they are written -/

/-- Where the field stands first, it fits if there is room for it. -/
theorem fieldFits_first {β : Type} {val : List Char → Option β} {cap : Nat} {name : String}
    {value frame : List Char} {b : β} (h : StandsFirst name.toList value frame) :
    FieldFits val cap name value b frame ↔ value.length + 2 ≤ cap := by
  unfold FieldFits
  simp [h]

/-- An answer up to its `status`, and up to its data. -/
def beforeStatus (id : List Char) : List Char := "[3,\"".toList ++ id ++ "\",\x7b\"".toList
def answerHead (id : List Char) : List Char :=
  beforeStatus id ++ "status\":\"Accepted\",\"data\":\"\x7b".toList

/-- A `status` in front of the data is found behind the id. -/
theorem statusFits_iff {id : List Char} (hid : 's' ∉ id) (rest : List Char) :
    StatusFits (answerHead id ++ rest) ↔ 1 ≤ id.length ∧ id.length ≤ 3 := by
  have hpre : 's' ∉ beforeStatus id := by
    unfold beforeStatus
    rw [List.mem_append, List.mem_append, not_or, not_or]
    exact ⟨⟨by decide, hid⟩, by decide⟩
  have hfirst : First "status".toList (answerHead id ++ rest) (beforeStatus id)
      ("\":\"Accepted\",\"data\":\"\x7b".toList ++ rest) := by
    unfold answerHead
    rw [List.append_assoc]
    exact .of_not_mem hpre
  have hlen : (beforeStatus id).length = id.length + 8 := by
    unfold beforeStatus
    rw [List.length_append, List.length_append]
    show 4 + id.length + 4 = id.length + 8
    omega
  constructor
  · rintro ⟨pre, rest', hfirst', hlow, hhigh, -⟩
    rw [← (hfirst.unique hfirst').1, hlen] at hlow hhigh
    omega
  · rintro ⟨hlow, hhigh⟩
    refine ⟨_, _, hfirst, by omega, by omega, ⟨"\",\"data\":\"\x7b".toList ++ rest, rfl⟩⟩

/-- A field of the data, and what stands behind the last one. -/
def dataField (name : String) (value : List Char) : List Char :=
  quote ++ name.toList ++ nameEnd ++ value ++ quote

def answerTail : List Char := "\x7d\"\x7d]".toList

/-- An answer with the price of a member. -/
def memberAnswer (id mbrType untpc : List Char) : List Char :=
  answerHead id ++ (dataField "messageId" "mbrUntpc".toList ++ ',' :: (dataField "mbrType" mbrType ++
    ',' :: (dataField "untpc" untpc ++ answerTail)))

/-- And one with the amounts of a session. -/
def chargeAnswer (id finalAmt billAmt usedPoint remainPoint : List Char) : List Char :=
  answerHead id ++ (dataField "messageId" "chargeAmt".toList ++ ',' ::
    (dataField "finalAmt" finalAmt ++ ',' :: (dataField "billAmt" billAmt ++ ',' ::
      (dataField "usedPoint" usedPoint ++ ',' :: (dataField "remainPoint" remainPoint ++ answerTail)))))

/-- It is received as the answer to a DataTransfer of this id. -/
def answersId (frame : List Char) (id : UInt64) : Bool :=
  decide (frame.length < Client.recvBufCap) &&
    (parseData .dataTrans id clearRxMsgBuff frame).any fun d =>
      !d.err && decide (d.rx.msg.msgType = 3) && decide (d.rx.msg.uniqueId = id)

theorem answersId_answers {frame : List Char} {id : UInt64} (h : answersId frame id = true) :
    ∃ rx, AnswersDataTrans frame rx := by
  simp only [answersId, Bool.and_eq_true, decide_eq_true_eq, Option.any_eq_true] at h
  obtain ⟨hlen, ⟨err, rx, dt⟩, hparse, ⟨herr, h3⟩, hid⟩ := h
  obtain rfl : err = false := by simpa using herr
  exact ⟨rx, hlen, _, _, _, hparse, h3, hid⟩

/-- A field is looked for and found first. -/
theorem standsFirst_of_find {name value frame : List Char} {n : Nat} (hfind : find name frame = some n)
    (hquote : quote <:+ frame.take n)
    (hfield : nameEnd ++ (value ++ quote) <+: frame.drop (n + name.length)) :
    StandsFirst name value frame := by
  obtain ⟨pre, rest, hfirst, rfl⟩ := find_eq_some.mp hfind
  have htake : frame.take pre.length = pre := by
    rw [hfirst.split, List.take_left]
  rw [htake] at hquote
  rw [← List.drop_drop, hfirst.drop, List.drop_left] at hfield
  obtain ⟨front, rfl⟩ := hquote
  obtain ⟨post, rfl⟩ := hfield
  refine ⟨front, post, ?_⟩
  rw [List.append_assoc, List.append_assoc] at hfirst
  exact hfirst

/-- A member's price, in the answer to a DataTransfer with a short id. -/
theorem member_price_decoded : ∃ frame rx, AnswersDataTrans frame rx ∧
    (Layout.mbrUntpc "member".toList "250".toList).Stands frame ∧
    DecodedRight (.mbrUntpc "member".toList "250".toList) rx := by
  let frame := memberAnswer "1".toList "member".toList "250".toList
  have hanswers : answersId frame 1 = true := by decide +kernel
  obtain ⟨rx, hrx⟩ := answersId_answers hanswers
  have hid : find "messageId".toList frame = some 39 := by decide +kernel
  have htype : StandsFirst "mbrType".toList "member".toList frame :=
    standsFirst_of_find (n := 66) (by decide +kernel) (by decide +kernel) (by decide +kernel)
  have hprice : StandsFirst "untpc".toList "250".toList frame :=
    standsFirst_of_find (n := 89) (by decide +kernel) (by decide +kernel) (by decide +kernel)
  have hl : (Layout.mbrUntpc "member".toList "250".toList).Stands frame := by
    refine ⟨by decide +kernel, standsFirst_of_find hid (by decide +kernel) (by decide +kernel), ?_, ?_,
      by decide +kernel, by decide +kernel, by decide⟩
    · intro f hf
      rw [List.mem_singleton.mp hf]
      show HasField frame "untpc".toList "250".toList
      decide +kernel
    · intro f hf
      rw [List.mem_singleton.mp hf]
      exact ⟨by decide, by decide, by decide⟩
  refine ⟨frame, rx, hrx, hl, (decoded_iff hrx hl).mpr ⟨?_, ?_, ?_, ?_⟩⟩
  · obtain ⟨pre, rest, hfirst, hlen⟩ := find_eq_some.mp hid
    exact ⟨pre, rest, hfirst, by rw [hlen]; decide⟩
  · exact (statusFits_iff (by decide) _).mpr ⟨by decide, by decide⟩
  · exact (fieldFits_first htype).mpr (by decide)
  · exact (fieldFits_first hprice).mpr (by decide)

/-- An amount of seven digits fills its local, and the search for its end leaves it. -/
theorem million_not_decoded : ∃ frame rx f b u r, AnswersDataTrans frame rx ∧
    (Layout.chargeAmt f b u r).Stands frame ∧ f = "1234567".toList ∧
    ¬ DecodedRight (.chargeAmt f b u r) rx := by
  let frame := chargeAnswer "1700000000000".toList "1234567".toList "1000".toList "0".toList "0".toList
  have hanswers : answersId frame 1700000000000 = true := by decide +kernel
  obtain ⟨rx, hrx⟩ := answersId_answers hanswers
  have hid : StandsFirst "messageId".toList "chargeAmt".toList frame :=
    standsFirst_of_find (n := 51) (by decide +kernel) (by decide +kernel) (by decide +kernel)
  refine ⟨frame, rx, _, "1000".toList, "0".toList, "0".toList, hrx,
    ⟨by decide +kernel, hid, ?_, ?_, trivial⟩,
    rfl, ?_⟩
  · have hall : (Layout.chargeAmt "1234567".toList "1000".toList "0".toList "0".toList).amounts.all
        fun f => decide (HasField frame f.1.toList f.2) := by
      decide +kernel
    intro f hf
    exact of_decide_eq_true (List.all_eq_true.mp hall f hf)
  · have hall : (Layout.chargeAmt "1234567".toList "1000".toList "0".toList "0".toList).amounts.all
        fun f => decide (Digits f.2 ∧ f.2.length ≤ 10 ∧ decVal f.2 < 2 ^ 31) := by
      decide +kernel
    intro f hf
    obtain ⟨hdigits, hlen, hval⟩ := of_decide_eq_true (List.all_eq_true.mp hall f hf)
    exact ⟨hdigits, hlen, hval⟩
  · intro h
    obtain ⟨rx', s', hs', -⟩ := h ⟨0, 0, 0, 0, .non, .non, 0, 0⟩
    have hid : find "messageId".toList frame = some 51 := by decide +kernel
    have hread : (memcpyFrom frame (51 + 14) 12).bind upToQuote = some "chargeAmt".toList := by
      decide +kernel
    have hfull : fieldText frame "finalAmt" 13 8 = none := by decide +kernel
    have hnone : dataProcCmdDataTransCp rx ⟨0, 0, 0, 0, .non, .non, 0, 0⟩ = none := by
      unfold dataProcCmdDataTransCp
      dsimp only
      rw [hrx.data, cstr_of_nulFree (by decide +kernel), hid]
      dsimp only [Option.bind_eq_bind]
      rw [← Option.bind_assoc, hread, Option.bind_some, if_neg (by decide), if_neg (by decide),
        if_pos rfl]
      unfold dataTransChargeAmt amountField
      rw [hfull]
      rfl
    rw [hnone] at hs'
    cases hs'

end ChargePoint
