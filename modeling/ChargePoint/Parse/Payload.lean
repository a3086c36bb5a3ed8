import ChargePoint.Parse.Header

/-!
# `Parse_Payload`

The payload parser: seven states, a depth, a pointer to the table being filled
(`ptmpPayload`), a pointer to the counter of that table (`tempIndx`) and the index of
the next character (`str_index`). It is not a JSON parser: it reacts to single
characters, and what a character means depends on the state alone.

The pointers are the delicate part. `tempIndx` points *into* the message: at
`Payload_len`, or at the `subPayload_len` of the entry that was current when the
nested object was opened. So a counter is named by the entry it sits in (`Ctr`), and
reading or writing it goes through the message.

Every index into a table, every character position and the depth are checked
against the arrays they index. A failed check is `none`.
-/

set_option autoImplicit false

namespace ChargePoint

open CStr

/-- `parsing_step` of `Parse_Payload`, 0 to 6. -/
inductive PayloadStep
  | brace | key | name | colon | value | str | after
  deriving DecidableEq, Repr

/-- `Pars_type[…]`. -/
inductive ParsType
  | obj | arr
  deriving DecidableEq, Repr

/-- What `ptmpPayload` points at. -/
inductive Arr
  | top | sub1 | sub2 | sub3
  deriving DecidableEq, Repr

/-- What `tempIndx` points at: `Payload_len`, or the `subPayload_len` of one entry. -/
inductive Ctr
  | top | ofTop (i : Nat) | ofSub1 (i : Nat) | ofSub2 (i : Nat)
  deriving DecidableEq, Repr

/-! ## Reading and writing the tables -/

def Arr.cap : Arr → Nat
  | .top => payloadCap
  | _ => subPayloadCap

namespace RxBuf

def get (rx : RxBuf) (a : Arr) (i : Nat) : Payload :=
  match a with
  | .top => rx.msg.payload i
  | .sub1 => rx.sub1 i
  | .sub2 => rx.sub2 i
  | .sub3 => rx.sub3 i

def set (rx : RxBuf) (a : Arr) (i : Nat) (p : Payload) : RxBuf :=
  match a with
  | .top => { rx with msg := { rx.msg with payload := setAt rx.msg.payload i p } }
  | .sub1 => { rx with sub1 := setAt rx.sub1 i p }
  | .sub2 => { rx with sub2 := setAt rx.sub2 i p }
  | .sub3 => { rx with sub3 := setAt rx.sub3 i p }

/-- `*tempIndx`. -/
def ctr (rx : RxBuf) : Ctr → Nat
  | .top => rx.msg.payloadLen
  | .ofTop i => (rx.msg.payload i).subPayloadLen
  | .ofSub1 i => (rx.sub1 i).subPayloadLen
  | .ofSub2 i => (rx.sub2 i).subPayloadLen

/-- `*tempIndx = n`. -/
def setCtr (rx : RxBuf) (c : Ctr) (n : Nat) : RxBuf :=
  match c with
  | .top => { rx with msg := { rx.msg with payloadLen := n } }
  | .ofTop i => rx.set .top i { rx.msg.payload i with subPayloadLen := n }
  | .ofSub1 i => rx.set .sub1 i { rx.sub1 i with subPayloadLen := n }
  | .ofSub2 i => rx.set .sub2 i { rx.sub2 i with subPayloadLen := n }

/-- Change the entry `ptmpPayload + i`. -/
def modify (rx : RxBuf) (a : Arr) (i : Nat) (f : Payload → Payload) : Option RxBuf :=
  if i < a.cap then some (rx.set a i (f (rx.get a i))) else none

/-- The table a pointer names, to write through it. -/
def derefArr : SubPtr → Option Arr
  | .sub1 => some .sub1
  | .sub2 => some .sub2
  | .sub3 => some .sub3
  | .null | .tx => none

end RxBuf

/-! ## The parser state -/

structure PayloadSt where
  step : PayloadStep
  /-- `bObjDepth` -/
  depth : Nat
  /-- `str_index` -/
  strIndex : Nat
  /-- `bArrStartFlg` -/
  arrStart : Bool
  /-- `Pars_type[4]` -/
  parsType : Nat → ParsType
  /-- `ptmpPayload` -/
  ptr : Arr
  /-- `tempIndx` -/
  idx : Ctr
  rx : RxBuf

namespace PayloadSt

/-- The entry being filled is `ptmpPayload + *tempIndx`. -/
def cur (s : PayloadSt) : Nat := s.rx.ctr s.idx

def modifyCur (s : PayloadSt) (f : Payload → Payload) : Option PayloadSt :=
  (s.rx.modify s.ptr s.cur f).map fun rx => { s with rx := rx }

/-- `memset` of the name and the contents of the entry being filled. -/
def clearCur (s : PayloadSt) : Option PayloadSt :=
  s.modifyCur fun p => { p with propertyName := [], propertyContants := [] }

/-- `property_contants[str_index] = c; str_index++`. The index is a `uint8_t`, which
`property_contants[1024]` always holds. -/
def putContants (s : PayloadSt) (c : Char) : Option PayloadSt :=
  (s.modifyCur fun p => { p with propertyContants := put p.propertyContants s.strIndex c }).map
    fun s => { s with strIndex := (s.strIndex + 1) % 256 }

/-- `property_name[str_index] = c; str_index++`, within `property_name[60]`. -/
def putName (s : PayloadSt) (c : Char) : Option PayloadSt :=
  if s.strIndex < 60 then
    (s.modifyCur fun p => { p with propertyName := put p.propertyName s.strIndex c }).map
      fun s => { s with strIndex := (s.strIndex + 1) % 256 }
  else none

/-- The comma that ends a property: `(*tempIndx)++` and the new entry is cleared. -/
def nextEntry (s : PayloadSt) : Option PayloadSt :=
  let s := { s with rx := s.rx.setCtr s.idx ((s.cur + 1) % 256) }
  s.modifyCur fun p => { p with propertyName := [], propertyContants := [], subPayloadLen := 0 }

/-- `--bObjDepth` and the pointers of the enclosing level, of which there are three. -/
def leave (s : PayloadSt) : PayloadSt :=
  let pl := s.rx.msg.payloadLen
  let s := { s with depth := s.depth - 1 }
  match s.depth with
  | 0 => { s with ptr := .top, idx := .top }
  | 1 => { s with ptr := .sub1, idx := .ofTop pl }
  | 2 => { s with ptr := .sub2, idx := .ofSub1 (s.rx.msg.payload pl).subPayloadLen }
  | _ => s

/-- Where parsing goes on after leaving a nested object from `key` or `value`. -/
def resume (s : PayloadSt) : PayloadSt :=
  match s.parsType s.depth with
  | .obj => { s with step := .key }
  | .arr => { s with step := .value, strIndex := 0 }

/-- `bObjDepth++`: clear the table of the new level, link it from the entry that holds
it, and point at it. `msg->Payload[…].sub_Payload[…]` is read through the pointers
stored in the message. -/
def enter (s : PayloadSt) : Option PayloadSt :=
  let s := { s with depth := s.depth + 1 }
  let pl := s.rx.msg.payloadLen
  match s.depth with
  | 1 =>
    ({ s.rx with sub1 := fun _ => .zero }.modify .top pl
        fun p => { p with subPayload := .sub1 }).map
      fun rx => { s with rx := rx, ptr := .sub1, idx := .ofTop pl }
  | 2 =>
    if pl < payloadCap then
      let rx := { s.rx with sub2 := fun _ => .zero }
      let p := rx.msg.payload pl
      let j := p.subPayloadLen
      (RxBuf.derefArr p.subPayload).bind fun a =>
        (rx.modify a j fun q => { q with subPayload := .sub2 }).map
          fun rx => { s with rx := rx, ptr := .sub2, idx := .ofSub1 j }
    else none
  | 3 =>
    if pl < payloadCap then
      let rx := { s.rx with sub3 := fun _ => .zero }
      let p := rx.msg.payload pl
      let j := p.subPayloadLen
      if j < subPayloadCap then
        let k := (rx.sub1 j).subPayloadLen
        (RxBuf.derefArr p.subPayload).bind fun a =>
          (RxBuf.derefArr (rx.get a j).subPayload).bind fun b =>
            (rx.modify b k fun q => { q with subPayload := .sub3 }).map
              fun rx => { s with rx := rx, ptr := .sub3, idx := .ofSub2 k }
      else none
    else none
  | _ => none  -- `Pars_type[4]` has no element 4

def setParsType (s : PayloadSt) (t : ParsType) : PayloadSt :=
  { s with parsType := fun d => if d = s.depth then t else s.parsType d }

end PayloadSt

/-! ## One character

A step of the parser takes one character and the one before it, which is looked at for an escape.
The states are the source's; a character that a state has no use for mostly leaves it where it is.
-/

/-- What one character does to the loop. -/
inductive Fed
  | next (s : PayloadSt)
  | stop (s : PayloadSt)

/-- One pass of the loop body on the character `c`; `last` is `buf[*index-1]`. -/
def PayloadSt.feed (s : PayloadSt) (last c : Char) : Option Fed :=
  match s.step with
  | .brace =>
    if c = '{' then
      some (.next { s with parsType := fun d => if d = 0 then .obj else s.parsType d,
                           step := .key })
    else some (.next s)
  | .key =>
    let s := { s with strIndex := 0 }
    if c = '}' then
      if s.depth = 0 then some (.stop s) else some (.next s.leave.resume)
    else if c = '"' then
      (s.clearCur).map fun s => .next { s with step := .name }
    else some (.next s)
  | .name =>
    if c = '"' then some (.next { s with step := .colon })
    else (s.putName c).map .next
  | .colon =>
    if c = ':' then some (.next { s with step := .value, strIndex := 0 })
    else some (.next s)
  | .value =>
    if c = '"' then some (.next { s with step := .str })
    else if c = '}' then
      if s.depth = 0 then some (.stop s) else some (.next s.leave.resume)
    else if c = ']' then
      if s.depth = 0 then some (.stop s) else some (.next s.leave.resume)
    else if c = ',' then
      (s.nextEntry).map fun s => .next { s with step := .key }
    else if c.isDigit then (s.putContants c).map .next
    else if c = '[' then
      (s.enter).map fun s =>
        .next ({ s with step := .value, arrStart := true, strIndex := 0 }.setParsType .arr)
    else if c = '{' then
      (s.enter).map fun s => .next ({ s with step := .key }.setParsType .obj)
    else some (.next s)
  | .str =>
    if c = '"' ∧ last ≠ '\\' then some (.next { s with step := .after })
    else (s.putContants c).map .next
  | .after =>
    if c = ',' then
      (s.nextEntry).map fun s =>
        .next (match s.parsType s.depth with
          | .obj => { s with step := .key }
          | .arr => { s with step := .value, strIndex := 0 })
    else if c = '}' ∨ c = ']' then
      if s.depth = 0 then some (.stop s) else some (.next s.leave)
    else some (.next s)

/-- The loop: to the end of the buffer, to a `]` before any array was opened, or to a
`break`. -/
def payloadLoop : PayloadSt → Char → List Char → Option PayloadSt
  | s, _, [] => some s
  | s, last, c :: cs =>
    if c = ']' ∧ s.arrStart = false then some s
    else
      match s.feed last c with
      | none => none
      | some (.stop s') => some s'
      | some (.next s') => payloadLoop s' c cs

/-- The state in which the loop starts: `Rx_Msg`'s payload and the three tables
cleared. -/
def PayloadSt.start (msg : RxMsg) : PayloadSt where
  step := .brace
  depth := 0
  strIndex := 0
  arrStart := false
  parsType := fun _ => .obj
  ptr := .top
  idx := .top
  rx := { clearRxMsgBuff with msg := { msg with payloadLen := 0, payload := fun _ => .zero } }

/-- The final test: the states in which a payload may end. -/
def PayloadStep.ended : PayloadStep → Bool
  | .key | .value | .after => true
  | _ => false

/-- **`Parse_Payload`**: its return value (`true` is an error) and the receive buffer. -/
def parsePayload (msg : RxMsg) (rest : List Char) : Option (Bool × RxBuf) :=
  (payloadLoop (.start msg) '"' rest).map fun s => (!s.step.ended, s.rx)

/-! ## The header is not touched -/

/-- What `Parse_Header` wrote: `Parse_Payload` leaves it alone. -/
structure HeaderEq (m m' : RxMsg) : Prop where
  msgType : m'.msgType = m.msgType
  uniqueId : m'.uniqueId = m.uniqueId
  uniqueIdChar : m'.uniqueIdChar = m.uniqueIdChar
  actionCode : m'.actionCode = m.actionCode

theorem HeaderEq.refl (m : RxMsg) : HeaderEq m m := ⟨rfl, rfl, rfl, rfl⟩

theorem HeaderEq.trans {m m' m'' : RxMsg} (h : HeaderEq m m') (h' : HeaderEq m' m'') :
    HeaderEq m m'' :=
  ⟨h'.1.trans h.1, h'.2.trans h.2, h'.3.trans h.3, h'.4.trans h.4⟩

section Header
variable {s s' : PayloadSt}

theorem RxBuf.set_header (rx : RxBuf) (a : Arr) (i : Nat) (p : Payload) :
    HeaderEq rx.msg (rx.set a i p).msg := by
  cases a <;> exact ⟨rfl, rfl, rfl, rfl⟩

theorem RxBuf.setCtr_header (rx : RxBuf) (c : Ctr) (n : Nat) :
    HeaderEq rx.msg (rx.setCtr c n).msg := by
  cases c with
  | top => exact ⟨rfl, rfl, rfl, rfl⟩
  | ofTop i => exact RxBuf.set_header rx .top i _
  | ofSub1 i => exact RxBuf.set_header rx .sub1 i _
  | ofSub2 i => exact RxBuf.set_header rx .sub2 i _

theorem RxBuf.modify_header {rx rx' : RxBuf} {a : Arr} {i : Nat} {f : Payload → Payload}
    (h : rx.modify a i f = some rx') : HeaderEq rx.msg rx'.msg := by
  unfold RxBuf.modify at h
  split at h
  · simp only [Option.some.injEq] at h
    exact h ▸ RxBuf.set_header rx a i _
  · exact absurd h (by simp)

theorem PayloadSt.modifyCur_header {f : Payload → Payload} (h : s.modifyCur f = some s') :
    HeaderEq s.rx.msg s'.rx.msg := by
  simp only [modifyCur, Option.map_eq_some_iff] at h
  obtain ⟨rx, hrx, rfl⟩ := h
  exact RxBuf.modify_header hrx

theorem PayloadSt.putContants_header {c : Char} (h : s.putContants c = some s') :
    HeaderEq s.rx.msg s'.rx.msg := by
  simp only [putContants, Option.map_eq_some_iff] at h
  obtain ⟨t, ht, rfl⟩ := h
  exact (modifyCur_header ht :)

theorem PayloadSt.putName_header {c : Char} (h : s.putName c = some s') :
    HeaderEq s.rx.msg s'.rx.msg := by
  unfold putName at h
  split at h
  · rw [Option.map_eq_some_iff] at h
    obtain ⟨t, ht, rfl⟩ := h
    exact (modifyCur_header ht :)
  · exact absurd h (by simp)

theorem PayloadSt.nextEntry_header (h : s.nextEntry = some s') :
    HeaderEq s.rx.msg s'.rx.msg :=
  (RxBuf.setCtr_header s.rx s.idx _).trans (modifyCur_header h)

theorem PayloadSt.leave_rx (s : PayloadSt) : s.leave.rx = s.rx := by
  unfold leave
  dsimp only
  split <;> rfl

theorem PayloadSt.resume_rx (s : PayloadSt) : s.resume.rx = s.rx := by
  unfold resume
  split <;> rfl

theorem PayloadSt.enter_header (h : s.enter = some s') : HeaderEq s.rx.msg s'.rx.msg := by
  unfold enter at h
  dsimp only at h
  split at h
  · rw [Option.map_eq_some_iff] at h
    obtain ⟨rx, hrx, rfl⟩ := h
    exact (RxBuf.modify_header hrx :)
  · split at h
    · rw [Option.bind_eq_some_iff] at h
      obtain ⟨a, _, h⟩ := h
      rw [Option.map_eq_some_iff] at h
      obtain ⟨rx, hrx, rfl⟩ := h
      exact (RxBuf.modify_header hrx :)
    · exact absurd h (by simp)
  · split at h
    · split at h
      · rw [Option.bind_eq_some_iff] at h
        obtain ⟨a, _, h⟩ := h
        rw [Option.bind_eq_some_iff] at h
        obtain ⟨b, _, h⟩ := h
        rw [Option.map_eq_some_iff] at h
        obtain ⟨rx, hrx, rfl⟩ := h
        exact (RxBuf.modify_header hrx :)
      · exact absurd h (by simp)
    · exact absurd h (by simp)
  · exact absurd h (by simp)

/-- The state inside a `Fed`. -/
def Fed.st : Fed → PayloadSt
  | .next s => s
  | .stop s => s

theorem PayloadSt.feed_header {last c : Char} {r : Fed} (h : s.feed last c = some r) :
    HeaderEq s.rx.msg r.st.rx.msg := by
  have hclose : ∀ t : PayloadSt, t.rx = s.rx → HeaderEq s.rx.msg (t.leave.resume).rx.msg := by
    intro t ht
    rw [resume_rx, leave_rx, ht]
    exact .refl _
  unfold feed at h
  split at h
  · split at h <;> · simp only [Option.some.injEq] at h; subst h; exact .refl _
  · dsimp only at h
    split at h
    · split at h
      · simp only [Option.some.injEq] at h; subst h; exact .refl _
      · simp only [Option.some.injEq] at h; subst h; exact hclose _ rfl
    · split at h
      · rw [Option.map_eq_some_iff] at h
        obtain ⟨t, ht, rfl⟩ := h
        exact (modifyCur_header ht :)
      · simp only [Option.some.injEq] at h; subst h; exact .refl _
  · split at h
    · simp only [Option.some.injEq] at h; subst h; exact .refl _
    · rw [Option.map_eq_some_iff] at h
      obtain ⟨t, ht, rfl⟩ := h
      exact putName_header ht
  · split at h <;> · simp only [Option.some.injEq] at h; subst h; exact .refl _
  · split at h
    · simp only [Option.some.injEq] at h; subst h; exact .refl _
    · split at h
      · split at h
        · simp only [Option.some.injEq] at h; subst h; exact .refl _
        · simp only [Option.some.injEq] at h; subst h; exact hclose _ rfl
      · split at h
        · split at h
          · simp only [Option.some.injEq] at h; subst h; exact .refl _
          · simp only [Option.some.injEq] at h; subst h; exact hclose _ rfl
        · split at h
          · rw [Option.map_eq_some_iff] at h
            obtain ⟨t, ht, rfl⟩ := h
            exact (nextEntry_header ht :)
          · split at h
            · rw [Option.map_eq_some_iff] at h
              obtain ⟨t, ht, rfl⟩ := h
              exact putContants_header ht
            · split at h
              · rw [Option.map_eq_some_iff] at h
                obtain ⟨t, ht, rfl⟩ := h
                exact (enter_header ht :)
              · split at h
                · rw [Option.map_eq_some_iff] at h
                  obtain ⟨t, ht, rfl⟩ := h
                  exact (enter_header ht :)
                · simp only [Option.some.injEq] at h; subst h; exact .refl _
  · split at h
    · simp only [Option.some.injEq] at h; subst h; exact .refl _
    · rw [Option.map_eq_some_iff] at h
      obtain ⟨t, ht, rfl⟩ := h
      exact putContants_header ht
  · split at h
    · rw [Option.map_eq_some_iff] at h
      obtain ⟨t, ht, rfl⟩ := h
      have hn := nextEntry_header ht
      dsimp only [Fed.st]
      split <;> exact hn
    · split at h
      · split at h
        · simp only [Option.some.injEq] at h; subst h; exact .refl _
        · simp only [Option.some.injEq] at h
          subst h
          rw [Fed.st, leave_rx]
          exact .refl _
      · simp only [Option.some.injEq] at h; subst h; exact .refl _

theorem payloadLoop_header {last : Char} {cs : List Char} (h : payloadLoop s last cs = some s') :
    HeaderEq s.rx.msg s'.rx.msg := by
  induction cs generalizing s last with
  | nil =>
    simp only [payloadLoop, Option.some.injEq] at h
    exact h ▸ .refl _
  | cons c cs ih =>
    unfold payloadLoop at h
    split at h
    · simp only [Option.some.injEq] at h
      exact h ▸ .refl _
    · split at h
      · exact absurd h (by simp)
      · rename_i t hf
        simp only [Option.some.injEq] at h
        exact h ▸ PayloadSt.feed_header hf
      · rename_i t hf
        exact (PayloadSt.feed_header hf).trans (ih h)

end Header

theorem parsePayload_header {msg : RxMsg} {rest : List Char} {err : Bool} {rx : RxBuf}
    (h : parsePayload msg rest = some (err, rx)) : HeaderEq msg rx.msg := by
  simp only [parsePayload, Option.map_eq_some_iff, Prod.mk.injEq] at h
  obtain ⟨s, hs, -, rfl⟩ := h
  have hstart : HeaderEq msg (PayloadSt.start msg).rx.msg := ⟨rfl, rfl, rfl, rfl⟩
  exact hstart.trans (payloadLoop_header hs)

/-! ## `Parse_Data` -/

/-- What `Parse_Data` returns and leaves: an error flag, the receive buffer and
`DATATRANS_UniqueID`. -/
structure DataEnd where
  err : Bool
  rx : RxBuf
  dataTransId : UInt64

/-- **`Parse_Data`.** The answer to the last DataTransfer is not parsed: its whole text
goes to `Payload[0].DATATRANS_data`. -/
def parseData (callTxAction : CpReqAction) (dataTransId : UInt64) (rx : RxBuf)
    (buf : List Char) : Option DataEnd :=
  (parseHeader callTxAction buf rx.msg).bind fun h =>
    if h.err then some ⟨true, { rx with msg := h.msg }, dataTransId⟩
    else if h.msg.msgType = 3 ∧ h.msg.uniqueId = dataTransId then
      let p := h.msg.payload 0
      let p := { p with dataTransData := buf ++ p.dataTransData.drop buf.length }
      some ⟨false, { rx with msg := { h.msg with payload := setAt h.msg.payload 0 p } }, 0⟩
    else
      (parsePayload h.msg h.rest).map fun r => ⟨r.1, r.2, dataTransId⟩

/-- **A message that was parsed** has an accepted header. -/
theorem parseData_accepted {a : CpReqAction} {dt dt' : UInt64} {rx rx' : RxBuf}
    {frame : List Char} (h : parseData a dt rx frame = some ⟨false, rx', dt'⟩) :
    (rx'.msg.msgType = 3 ∧ rx'.msg.actionCode = .cp a ∧
        rx'.msg.uniqueId = idValue (idText frame)) ∨
      (rx'.msg.msgType = 2 ∧ ∃ cmd, rx'.msg.actionCode = .cs cmd) ∨ rx'.msg.msgType = 4 := by
  simp only [parseData, Option.bind_eq_some_iff] at h
  obtain ⟨e, he, h⟩ := h
  split at h
  · simp at h
  · rename_i herr
    have hacc := parseHeader_accepted he (by simpa using herr)
    split at h
    · simp only [Option.some.injEq, DataEnd.mk.injEq] at h
      obtain ⟨-, rfl, -⟩ := h
      exact hacc
    · simp only [Option.map_eq_some_iff, DataEnd.mk.injEq] at h
      obtain ⟨⟨err, rx₁⟩, hp, rfl, rfl, -⟩ := h
      have heq := parsePayload_header hp
      simpa only [HeaderEnd.Accepted, heq.msgType, heq.actionCode, heq.uniqueId] using hacc

end ChargePoint
