import ChargePoint.Charger

/-!
# `Parse_Header`

`[`, the message type, the id between quotes and, for a CALL, the action between
quotes. Everything between these landmarks is skipped, whatever it is.

**Checked semantics.** `temp_buf` has 30 elements and the parser does not check its
index; a step that would write past it answers `none`, and with it the whole
receive step. A run of the model is therefore a run in which the C program never
left its arrays.

The parser hands on the rest of the buffer: `Parse_Payload` goes on after the quote
that closed the id (or the action).
-/

set_option autoImplicit false

namespace ChargePoint

open CStr

/-- `sizeof temp_buf`. -/
def tempBufCap : Nat := 30

/-- The id of an answer as a number: `Σ (temp_buf[i] - '0') * (uint64_t)pow(10, n-i-1)`,
wrapping. Nothing checks that the characters are digits. Frames are taken to be ASCII: `char` is
signed here, and a byte from 0x80 on would count as a negative one. -/
def idValue : List Char → UInt64
  | [] => 0
  | c :: cs => (UInt64.ofNat c.toNat - 48) * pow10 cs.length + idValue cs

/-- `parsing_step` of `Parse_Header`. -/
inductive HeaderStep
  | type | idOpen | id | actionOpen | action
  deriving DecidableEq, Repr

/-- How `Parse_Header` ends: its return value (`true` is an error), the header it has
written and the characters it has not read. -/
structure HeaderEnd where
  err : Bool
  msg : RxMsg
  rest : List Char

/-- The loop over the buffer. `temp` is `temp_buf[0 .. temp_index)`. -/
def headerLoop (callTxAction : CpReqAction) : HeaderStep → List Char → RxMsg → List Char →
    Option HeaderEnd
  | _, _, msg, [] => some ⟨true, msg, []⟩
  | .type, temp, msg, c :: cs =>
    if c = '2' ∨ c = '3' ∨ c = '4' then
      headerLoop callTxAction .idOpen temp { msg with msgType := c.toNat } cs
    else headerLoop callTxAction .type temp msg cs
  | .idOpen, temp, msg, c :: cs =>
    headerLoop callTxAction (if c = '"' then .id else .idOpen) temp msg cs
  | .id, temp, msg, c :: cs =>
    if c = '"' then
      let msg := { msg with uniqueId := 0 }
      if msg.msgType = '2'.toNat then
        headerLoop callTxAction .actionOpen temp
          { msg with uniqueIdChar := temp, msgType := 2 } cs
      else if msg.msgType = '3'.toNat then
        some ⟨false, { msg with uniqueId := idValue temp, msgType := 3,
                                actionCode := .cp callTxAction }, cs⟩
      else some ⟨false, { msg with msgType := 4 }, cs⟩
    else if temp.length < tempBufCap then
      headerLoop callTxAction .id (temp ++ [c]) msg cs
    else none
  | .actionOpen, temp, msg, c :: cs =>
    if c = '"' then headerLoop callTxAction .action [] msg cs
    else headerLoop callTxAction .actionOpen temp msg cs
  | .action, temp, msg, c :: cs =>
    if c = '"' then
      match csReqMsg.find? (fun e => e.1 = cstr temp) with
      | some e => some ⟨false, { msg with actionCode := .cs e.2 }, cs⟩
      | none => some ⟨true, msg, cs⟩
    else if temp.length < tempBufCap then
      headerLoop callTxAction .action (temp ++ [c]) msg cs
    else none

/-- **`Parse_Header`.** -/
def parseHeader (callTxAction : CpReqAction) (buf : List Char) (msg : RxMsg) :
    Option HeaderEnd :=
  match buf with
  | '[' :: cs => headerLoop callTxAction .type [] msg cs
  | _ => some ⟨true, msg, buf⟩

/-! ## The landmarks of a frame

The loop skips to the next landmark, so what it reads can be said without it: the id stands
between the first two quotes behind the message type, the action between the next two. Each state
of the loop has a lemma that takes it to its landmark. They are proved from the last state to the
first, and `parseHeader_eq` puts them together. -/

/-- Up to the next quote. -/
def toQuote (cs : List Char) : List Char := cs.takeWhile fun c => c ≠ '"'

/-- From the next quote on. -/
def fromQuote (cs : List Char) : List Char := cs.dropWhile fun c => c ≠ '"'

/-- The frame from its message type on. -/
def typeText (frame : List Char) : List Char :=
  frame.tail.dropWhile fun c => ¬(c = '2' ∨ c = '3' ∨ c = '4')

/-- The id as it stands in a frame: between the first two quotes after the message type. -/
def idText (frame : List Char) : List Char :=
  ((((frame.tail).dropWhile fun c => ¬(c = '2' ∨ c = '3' ∨ c = '4')).dropWhile
    fun c => c ≠ '"').tail).takeWhile fun c => c ≠ '"'

/-- The frame from the quote on that closes the id. -/
def afterId (frame : List Char) : List Char := fromQuote (fromQuote (typeText frame)).tail

/-- The action as it stands in the frame of a request. -/
def actionText (frame : List Char) : List Char := toQuote (fromQuote (afterId frame).tail).tail

/-- The frame from the quote on that closes the action. -/
def afterAction (frame : List Char) : List Char := fromQuote (fromQuote (afterId frame).tail).tail

section Landmarks
variable {a : CpReqAction} {temp : List Char} {msg : RxMsg} {c : Char}

theorem toQuote_quote (cs : List Char) : toQuote ('"' :: cs) = [] := by
  simp [toQuote]

theorem fromQuote_quote (cs : List Char) : fromQuote ('"' :: cs) = '"' :: cs := by
  simp [fromQuote]

theorem toQuote_cons (hc : c ≠ '"') (cs : List Char) : toQuote (c :: cs) = c :: toQuote cs :=
  List.takeWhile_cons_of_pos (by simpa using hc)

theorem fromQuote_cons (hc : c ≠ '"') (cs : List Char) : fromQuote (c :: cs) = fromQuote cs :=
  List.dropWhile_cons_of_pos (by simpa using hc)

theorem toQuote_append {cs : List Char} (h : '"' ∉ cs) (rest : List Char) :
    toQuote (cs ++ '"' :: rest) = cs := by
  induction cs with
  | nil => exact toQuote_quote rest
  | cons c cs ih =>
    obtain ⟨hc, hcs⟩ := not_or.mp (mt List.mem_cons.mpr h)
    rw [List.cons_append, toQuote_cons (Ne.symm hc), ih hcs]

theorem fromQuote_append {cs : List Char} (h : '"' ∉ cs) (rest : List Char) :
    fromQuote (cs ++ '"' :: rest) = '"' :: rest := by
  induction cs with
  | nil => exact fromQuote_quote rest
  | cons c cs ih =>
    obtain ⟨hc, hcs⟩ := not_or.mp (mt List.mem_cons.mpr h)
    rw [List.cons_append, fromQuote_cons (Ne.symm hc), ih hcs]

/-- What the action makes of the header. -/
def actionEnd (msg : RxMsg) (action : List Char) : List Char → HeaderEnd
  | [] => ⟨true, msg, []⟩
  | _ :: rest =>
    match csReqMsg.find? (fun e => e.1 = cstr action) with
    | some e => ⟨false, { msg with actionCode := .cs e.2 }, rest⟩
    | none => ⟨true, msg, rest⟩

theorem headerLoop_action (htemp : temp.length ≤ tempBufCap) (cs : List Char) :
    headerLoop a .action temp msg cs =
      if temp.length + (toQuote cs).length ≤ tempBufCap then
        some (actionEnd msg (temp ++ toQuote cs) (fromQuote cs))
      else none := by
  induction cs generalizing temp with
  | nil => exact (if_pos htemp).symm
  | cons c cs ih =>
    rw [headerLoop]
    by_cases hc : c = '"'
    · subst hc
      rw [if_pos rfl, toQuote_quote, fromQuote_quote, List.length_nil, Nat.add_zero, if_pos htemp,
        List.append_nil]
      unfold actionEnd
      split <;> rfl
    · rw [if_neg hc, toQuote_cons hc, fromQuote_cons hc, List.length_cons]
      by_cases hlt : temp.length < tempBufCap
      · have hlen : (temp ++ [c]).length = temp.length + 1 := by simp
        have hsum : temp.length + 1 + (toQuote cs).length =
            temp.length + ((toQuote cs).length + 1) := by omega
        rw [if_pos hlt, ih (by omega), hlen, hsum, List.append_assoc]
        rfl
      · rw [if_neg hlt, if_neg (by omega)]

theorem headerLoop_actionOpen (cs : List Char) :
    headerLoop a .actionOpen temp msg cs =
      match fromQuote cs with
      | [] => some ⟨true, msg, []⟩
      | _ :: rest => headerLoop a .action [] msg rest := by
  induction cs with
  | nil => rfl
  | cons c cs ih =>
    rw [headerLoop]
    by_cases hc : c = '"'
    · subst hc
      rw [if_pos rfl, fromQuote_quote]
    · rw [if_neg hc, fromQuote_cons hc, ih]

/-- What the closing quote of the id makes of the header. -/
def idEnd (a : CpReqAction) (msg : RxMsg) (id : List Char) : List Char → Option HeaderEnd
  | [] => some ⟨true, msg, []⟩
  | _ :: rest =>
    if msg.msgType = '2'.toNat then
      headerLoop a .actionOpen id { msg with uniqueId := 0, uniqueIdChar := id, msgType := 2 } rest
    else if msg.msgType = '3'.toNat then
      some ⟨false, { msg with uniqueId := idValue id, msgType := 3, actionCode := .cp a }, rest⟩
    else some ⟨false, { msg with uniqueId := 0, msgType := 4 }, rest⟩

theorem headerLoop_id (htemp : temp.length ≤ tempBufCap) (cs : List Char) :
    headerLoop a .id temp msg cs =
      if temp.length + (toQuote cs).length ≤ tempBufCap then
        idEnd a msg (temp ++ toQuote cs) (fromQuote cs)
      else none := by
  induction cs generalizing temp with
  | nil => exact (if_pos htemp).symm
  | cons c cs ih =>
    rw [headerLoop]
    by_cases hc : c = '"'
    · subst hc
      rw [if_pos rfl, toQuote_quote, fromQuote_quote, List.length_nil, Nat.add_zero, if_pos htemp,
        List.append_nil]
      rfl
    · rw [if_neg hc, toQuote_cons hc, fromQuote_cons hc, List.length_cons]
      by_cases hlt : temp.length < tempBufCap
      · have hlen : (temp ++ [c]).length = temp.length + 1 := by simp
        have hsum : temp.length + 1 + (toQuote cs).length =
            temp.length + ((toQuote cs).length + 1) := by omega
        rw [if_pos hlt, ih (by omega), hlen, hsum, List.append_assoc]
        rfl
      · rw [if_neg hlt, if_neg (by omega)]

theorem headerLoop_idOpen (cs : List Char) :
    headerLoop a .idOpen temp msg cs =
      match fromQuote cs with
      | [] => some ⟨true, msg, []⟩
      | _ :: rest => headerLoop a .id temp msg rest := by
  induction cs with
  | nil => rfl
  | cons c cs ih =>
    rw [headerLoop]
    by_cases hc : c = '"'
    · subst hc
      rw [if_pos rfl, fromQuote_quote]
    · rw [if_neg hc, fromQuote_cons hc, ih]

theorem headerLoop_type (cs : List Char) :
    headerLoop a .type temp msg cs =
      match cs.dropWhile fun c => ¬(c = '2' ∨ c = '3' ∨ c = '4') with
      | [] => some ⟨true, msg, []⟩
      | c :: rest => headerLoop a .idOpen temp { msg with msgType := c.toNat } rest := by
  induction cs with
  | nil => rfl
  | cons c cs ih =>
    rw [headerLoop]
    by_cases hc : c = '2' ∨ c = '3' ∨ c = '4'
    · rw [if_pos hc, List.dropWhile_cons_of_neg (by simp only [hc, not_true, decide_false]; decide)]
    · rw [if_neg hc, List.dropWhile_cons_of_pos (by simpa using hc), ih]

end Landmarks

/-- **`Parse_Header` by the landmarks of the frame.** -/
theorem parseHeader_eq (a : CpReqAction) (frame : List Char) (msg : RxMsg) :
    parseHeader a frame msg =
      if frame.head? = some '[' then
        match typeText frame with
        | [] => some ⟨true, msg, []⟩
        | c :: _ =>
          if (idText frame).length ≤ tempBufCap then
            idEnd a { msg with msgType := c.toNat } (idText frame) (afterId frame)
          else none
      else some ⟨true, msg, frame⟩ := by
  unfold parseHeader
  split
  · rename_i cs
    rw [if_pos (show ('[' :: cs).head? = some '[' from rfl), headerLoop_type]
    have htype : typeText ('[' :: cs) = cs.dropWhile fun c => ¬(c = '2' ∨ c = '3' ∨ c = '4') := rfl
    rw [← htype]
    cases hcs : typeText ('[' :: cs) with
    | nil => rfl
    | cons c rest =>
      -- the type is a digit, so the quote that opens the id is behind it
      have hc : c ≠ '"' := by
        rintro rfl
        have hhead := List.head?_dropWhile_not (p := fun c =>
          decide ¬(c = '2' ∨ c = '3' ∨ c = '4')) (l := cs)
        rw [← htype, hcs] at hhead
        simp at hhead
      have hid : idText ('[' :: cs) = toQuote (fromQuote rest).tail := by
        show toQuote (fromQuote (typeText ('[' :: cs))).tail = _
        rw [hcs, fromQuote_cons hc]
      have hafter : afterId ('[' :: cs) = fromQuote (fromQuote rest).tail := by
        unfold afterId
        rw [hcs, fromQuote_cons hc]
      dsimp only
      rw [headerLoop_idOpen, hid, hafter]
      cases fromQuote rest with
      | nil => rfl
      | cons q rest' =>
        dsimp only
        rw [headerLoop_id (Nat.zero_le _), List.length_nil, Nat.zero_add, List.nil_append,
          List.tail_cons]
  · rename_i hne
    rw [if_neg]
    intro hhead
    cases frame with
    | nil => exact absurd hhead (by simp)
    | cons c cs =>
      obtain rfl : c = '[' := by simpa using hhead
      exact hne cs rfl

/-! ## What an accepted header is -/

/-- A header that ended without an error. An answer has the action of the CALL that is
waited for, and its id is the value of the id text; a request has an action of its table. -/
def HeaderEnd.Accepted (callTxAction : CpReqAction) (id : List Char) (h : HeaderEnd) : Prop :=
  (h.msg.msgType = 3 ∧ h.msg.actionCode = .cp callTxAction ∧ h.msg.uniqueId = idValue id) ∨
  (h.msg.msgType = 2 ∧ ∃ cmd, h.msg.actionCode = .cs cmd) ∨ h.msg.msgType = 4

theorem actionEnd_accepted {msg : RxMsg} {action rest : List Char}
    (he : (actionEnd msg action rest).err = false) :
    (actionEnd msg action rest).msg.msgType = msg.msgType ∧
      ∃ cmd, (actionEnd msg action rest).msg.actionCode = .cs cmd := by
  unfold actionEnd at he ⊢
  split at he
  · exact absurd he (by simp)
  · split at he
    · rename_i e hfind
      exact ⟨rfl, e.2, rfl⟩
    · exact absurd he (by simp)

/-- **An accepted header.** -/
theorem parseHeader_accepted {a : CpReqAction} {frame : List Char} {msg : RxMsg} {h : HeaderEnd}
    (hp : parseHeader a frame msg = some h) (he : h.err = false) :
    h.Accepted a (idText frame) := by
  rw [parseHeader_eq] at hp
  split at hp
  · split at hp
    · simp only [Option.some.injEq] at hp
      subst hp
      exact absurd he (by simp)
    · split at hp
      · unfold idEnd at hp
        split at hp
        · simp only [Option.some.injEq] at hp
          subst hp
          exact absurd he (by simp)
        · split at hp
          · rw [headerLoop_actionOpen] at hp
            split at hp
            · simp only [Option.some.injEq] at hp
              subst hp
              exact absurd he (by simp)
            · rw [headerLoop_action (Nat.zero_le _)] at hp
              split at hp
              · simp only [Option.some.injEq] at hp
                subst hp
                exact .inr (.inl (actionEnd_accepted he))
              · exact absurd hp (by simp)
          · split at hp
            · simp only [Option.some.injEq] at hp
              subst hp
              exact .inl ⟨rfl, rfl, rfl⟩
            · simp only [Option.some.injEq] at hp
              subst hp
              exact .inr (.inr rfl)
      · exact absurd hp (by simp)
  · simp only [Option.some.injEq] at hp
    subst hp
    exact absurd he (by simp)

end ChargePoint
