import Mathlib.Data.List.Nodup
import ChargePoint.Reply
import ChargePoint.StopRequest

/-!
# What an earlier message leaves in a frame

`Tx_Msg` is never cleared. A builder that writes every entry it counts shows nothing of what
was there before, and that is what `Fills` records, write by write. What it cannot record is
the nested payload of an entry, which no builder but two ever writes: that none is left behind
is an invariant of the runs (`left_plain`), and the one thing `Make_Ocpp_Msg` itself does for
the next message.

Two builders count an entry they do not write, and four requests are answered with nothing
written at all. `frame_fresh_iff` says that these are all there are.
-/

set_option autoImplicit false

namespace ChargePoint

open CStr

/-! ## What is shown of an entry

Two buffers print the same frame if they agree on the header, the number of entries and, for each
of these, on name, contents and type, provided that no entry has a nested payload (`Plain`). -/

/-- What is shown of an entry without a nested payload. -/
structure Field where
  name : List Char
  contants : List Char
  dataType : TypeCode

def Payload.field (p : Payload) : Field := ⟨p.propertyName, p.propertyContants, p.dataType⟩

namespace TxBuf
variable (tx : TxBuf) (i k : Nat)

theorem setName_field (name : List Char) : ((tx.setName i name).msg.payload k).field =
    if k = i then { (tx.msg.payload k).field with name := name } else (tx.msg.payload k).field := by
  by_cases hk : k = i
  · subst hk
    simp [setName, setPayload, Payload.field]
  · simp [setName, setPayload, setAt_ne hk, hk]

theorem setContants_field (val : List Char) : ((tx.setContants i val).msg.payload k).field =
    if k = i then { (tx.msg.payload k).field with contants := val }
    else (tx.msg.payload k).field := by
  by_cases hk : k = i
  · subst hk
    simp [setContants, setPayload, Payload.field]
  · simp [setContants, setPayload, setAt_ne hk, hk]

theorem setType_field (t : TypeCode) : ((tx.setType i t).msg.payload k).field =
    if k = i then { (tx.msg.payload k).field with dataType := t } else (tx.msg.payload k).field := by
  by_cases hk : k = i
  · subst hk
    simp [setType, setPayload, Payload.field]
  · simp [setType, setPayload, setAt_ne hk, hk]

theorem setProp_field (name val : List Char) (t : TypeCode) :
    ((tx.setProp i name val t).msg.payload k).field =
      if k = i then ⟨name, val, t⟩ else (tx.msg.payload k).field := by
  by_cases hk : k = i
  · simp [setProp, setType_field, setContants_field, setName_field, hk]
  · simp [setProp, setType_field, setContants_field, setName_field, hk]

end TxBuf

/-- The text of it. -/
def Field.text (f : Field) : List Char :=
  convStr2Str f.name ++ ':' ::
    (if f.dataType = .int then convStr2Int f.contants
    else if f.dataType = .arr then ['[', ']'] else convStr2Str f.contants)

theorem encMain_field (tx : TxBuf) {p : Payload} (b : Nat) (h : p.subPayloadLen = 0) :
    encMain tx p b = (p.field.text, b) := by
  unfold encMain Field.text
  show _ = (convStr2Str p.propertyName ++ ':' :: (if p.dataType = .int then _ else
    if p.dataType = .arr then _ else _), b)
  by_cases hint : p.dataType = .int
  · rw [if_pos hint, if_pos hint]
    rfl
  · rw [if_neg hint, if_neg hint]
    by_cases harr : p.dataType = .arr
    · rw [if_pos harr, if_pos harr, h]
      simp
    · rw [if_neg harr, if_neg harr, h, if_neg (Nat.lt_irrefl 0)]
      rfl

theorem encItems_congr {enc₁ enc₂ : Nat → Nat → List Char × Nat} {start n : Nat}
    (h : ∀ i, start ≤ i → i < start + n → ∀ b, enc₁ i b = enc₂ i b) (b : Nat) :
    encItems enc₁ start n b = encItems enc₂ start n b := by
  induction n generalizing start b with
  | zero => rfl
  | succ n ih =>
    have hrest : ∀ b, encItems enc₁ (start + 1) n b = encItems enc₂ (start + 1) n b :=
      ih fun i hi hlt => h i (by omega) (by omega)
    unfold encItems
    simp only [h start (Nat.le_refl start) (by omega) b, hrest]

/-- Frames of buffers that print the same header and the same entries. -/
theorem makeOcppMsg_congr {tx₁ tx₂ : TxBuf} {id : List Char}
    (hheader : encHeader tx₁.msg id = encHeader tx₂.msg id)
    (hlen : tx₁.msg.payloadLen = tx₂.msg.payloadLen)
    (h : ∀ i < tx₁.msg.payloadLen, ∀ b,
      encMain tx₁ (tx₁.msg.payload i) b = encMain tx₂ (tx₂.msg.payload i) b) :
    makeOcppMsg tx₁ id = makeOcppMsg tx₂ id := by
  unfold makeOcppMsg
  rw [hheader, ← hlen, encItems_congr fun i _ hi => h i (by omega)]

theorem encItems_plain {enc : Nat → Nat → List Char × Nat} {text : Nat → List Char}
    (h : ∀ i b, enc i b = (text i, b)) (start n b : Nat) :
    encItems enc start n b = ((List.range' start n).map text, b) := by
  induction n generalizing start with
  | zero => rfl
  | succ n ih =>
    unfold encItems
    simp only [h, ih, List.range'_succ, List.map_cons]

/-- **The frame of a buffer without nested payloads.** -/
theorem makeOcppMsg_plain {tx : TxBuf} (h : tx.Plain) (id : List Char) :
    makeOcppMsg tx id = '[' :: encHeader tx.msg id ++ [',', '{'] ++
      commas ((List.range tx.msg.payloadLen).map fun i => (tx.msg.payload i).field.text) ++
      ['}', ']'] := by
  have hitem : ∀ i b, encMain tx (tx.msg.payload i) b = ((tx.msg.payload i).field.text, b) :=
    fun i b => encMain_field tx b (h i)
  unfold makeOcppMsg
  rw [encItems_plain hitem, List.range_eq_range']

/-! ## Builders that fill what they count

`Fills b len n`: the builder counts `len` entries and what is shown of the first `n` of them no
longer depends on the buffer. Each setter moves one of the two numbers, and a builder is fresh
when they meet. -/

/-- The builder decides the header, the number of entries and what is shown of the first `n`,
and leaves no nested payload. -/
structure Fills (b : TxBuf → TxBuf) (len n : Nat) : Prop where
  header : ∀ tx₁ tx₂ id, encHeader (b tx₁).msg id = encHeader (b tx₂).msg id
  len : ∀ tx, (b tx).msg.payloadLen = len
  field : ∀ tx₁ tx₂, ∀ i < n,
    ((b tx₁).msg.payload i).field = ((b tx₂).msg.payload i).field
  plain : ∀ {tx}, tx.Plain → (b tx).Plain

/-- The frame shows nothing of what was in the buffer, and leaves no nested payload. -/
structure Fresh (b : TxBuf → TxBuf) : Prop where
  frame : ∀ {tx₁ tx₂}, tx₁.Plain → tx₂.Plain → ∀ id,
    makeOcppMsg (b tx₁) id = makeOcppMsg (b tx₂) id
  sent : ∀ {tx}, tx.Plain → (afterMakeOcppMsg (b tx)).Plain

section Fills
variable {b : TxBuf → TxBuf} {len n : Nat}

theorem Fills.call (uid : UInt64) (len : Nat) (a : CpReqAction) :
    Fills (fun tx => tx.call uid len a) len 0 :=
  ⟨fun _ _ _ => rfl, fun _ => rfl, fun _ _ _ hi => absurd hi (Nat.not_lt_zero _), fun h => h⟩

theorem Fills.setLen (h : Fills b len n) (m : Nat) : Fills (fun tx => (b tx).setLen m) m n :=
  ⟨h.header, fun _ => rfl, h.field, fun hp => h.plain hp⟩

theorem Fills.setProp (h : Fills b len n) (name val : List Char) (t : TypeCode) :
    Fills (fun tx => (b tx).setProp n name val t) len (n + 1) := by
  refine ⟨h.header, h.len, fun tx₁ tx₂ i hi => ?_, fun hp => (h.plain hp).setProp n name val t⟩
  rw [TxBuf.setProp_field, TxBuf.setProp_field]
  split
  · rfl
  · exact h.field tx₁ tx₂ i (by omega)

/-- All entries are written. -/
theorem Fills.fresh (h : Fills b n n) : Fresh b where
  frame := fun {tx₁ tx₂} hp₁ hp₂ id =>
    makeOcppMsg_congr (h.header tx₁ tx₂ id) ((h.len tx₁).trans (h.len tx₂).symm) fun i hi b' =>
      by
      rw [encMain_field _ b' (h.plain hp₁ i), encMain_field _ b' (h.plain hp₂ i),
        h.field tx₁ tx₂ i (by rwa [h.len] at hi)]
  sent := fun hp => (h.plain hp).sent

/-- All entries but the last are written, and the last is the array of samples. -/
theorem Fills.fresh_samples (h : Fills b (n + 1) n) (name : List Char) (q : Nat → MeterVal) :
    Fresh fun tx => (b tx).setSamples n name q where
  frame := by
    intro tx₁ tx₂ hp₁ hp₂ id
    refine makeOcppMsg_congr (h.header tx₁ tx₂ id) ((h.len tx₁).trans (h.len tx₂).symm)
      fun i hi b' => ?_
    have hi : i < n + 1 := (h.len tx₁) ▸ hi
    have hentry : ∀ tx : TxBuf, ((b tx).setSamples n name q).msg.payload i =
        if i = n then { (b tx).msg.payload n with
          propertyName := name, dataType := .arr, subPayload := .tx, subPayloadLen := 1 }
        else (b tx).msg.payload i := by
      intro tx
      by_cases hin : i = n
      · subst hin
        simp [TxBuf.setSamples, TxBuf.setPayload]
      · simp [TxBuf.setSamples, TxBuf.setPayload, setAt_ne hin, hin]
    rw [hentry, hentry]
    split
    · simp [encMain, TxBuf.subOf, TxBuf.setSamples]
    · rw [encMain_field _ b' (h.plain hp₁ i), encMain_field _ b' (h.plain hp₂ i),
        h.field tx₁ tx₂ i (by omega)]
  sent := by
    intro tx hp
    refine .after fun i => ?_
    by_cases hin : i = n
    · subst hin
      refine .inr ⟨?_, ?_⟩
      · show i < (b tx).msg.payloadLen
        rw [h.len]
        exact Nat.lt_succ_self i
      · simp [TxBuf.setSamples, TxBuf.setPayload]
    · refine .inl ?_
      show (setAt (b tx).msg.payload n _ i).subPayloadLen = 0
      rw [setAt_ne hin]
      exact h.plain hp i

end Fills

/-! ## The builders

In each proof the chain of `Fills` is the chain of assignments of the source. -/

section Builders
variable (c : Charger) (uid : UInt64)

theorem makeDataCmdAuth_fresh : Fresh (makeDataCmdAuth c uid) :=
  ((Fills.call uid 1 .auth).setProp _ _ _).fresh

theorem makeDataCmdBoot_fresh : Fresh (makeDataCmdBoot uid) :=
  ((((Fills.call uid 3 .boot).setProp _ _ _).setProp _ _ _).setProp _ _ _).fresh

theorem makeDataCmdDiagStat_fresh (d : Nat) : Fresh (makeDataCmdDiagStat d uid) :=
  ((Fills.call uid 1 .diagStat).setProp _ _ _).fresh

theorem makeDataCmdFwStat_fresh (u : UpdateStep) : Fresh (makeDataCmdFwStat u uid) :=
  ((Fills.call uid 1 .fwStat).setProp _ _ _).fresh

theorem makeDataCmdHb_fresh : Fresh (makeDataCmdHb uid) where
  frame := fun _ _ _ => rfl
  sent := by
    intro tx hp
    have hcall : (tx.call uid 0 .hb).Plain := hp
    exact (hcall.setType 0 .str).sent

theorem makeDataCmdMeterVal_fresh : Fresh (makeDataCmdMeterVal c) :=
  (((Fills.call (c.meterQ 0).uidMv 3 .meterVal).setProp _ _ _).setProp _ _ _).fresh_samples
    "meterValue".toList c.meterQ

theorem makeDataCmdStartTs_fresh : Fresh (makeDataCmdStartTs c uid) :=
  (((((Fills.call uid 4 .startTs).setProp _ _ _).setProp _ _ _).setProp _ _ _).setProp _ _ _).fresh

theorem setSamples_setLen (tx : TxBuf) (i m : Nat) (name : List Char) (q : Nat → MeterVal) :
    (tx.setSamples i name q).setLen m = (tx.setLen m).setSamples i name q := rfl

theorem makeDataCmdStopTs_fresh (trId : UInt64) : Fresh (makeDataCmdStopTs c trId uid) := by
  let head : TxBuf → TxBuf := fun tx =>
    (((tx.call uid 3 .stopTs).setProp 0 "transactionId".toList (dec trId.toNat) .int).setProp
      1 "timestamp".toList (cstr c.stopTsConfig.timeStamp) .str).setProp
      2 "meterStop".toList (dec (c.stopTsConfig.meterStopVal * 10).toNat) .int
  let card := cstr c.stopTsConfig.idTag
  have hhead : Fills head 3 3 :=
    (((Fills.call uid 3 .stopTs).setProp _ _ _).setProp _ _ _).setProp _ _ _
  cases hreason : stopReasonText c with
  | none =>
    have heq : makeDataCmdStopTs c trId uid = fun tx =>
        (((head tx).setProp 3 "idTag".toList card .str).setLen 5).setSamples
          4 "transactionData".toList c.meterQ := by
      funext tx
      unfold makeDataCmdStopTs
      rw [hreason]
      dsimp only
      rw [setSamples_setLen]
    rw [heq]
    exact ((hhead.setProp _ _ _).setLen 5).fresh_samples _ _
  | some r =>
    have heq : makeDataCmdStopTs c trId uid = fun tx =>
        ((((head tx).setProp 3 "reason".toList r .str).setProp 4 "idTag".toList card .str).setLen
          6).setSamples 5 "transactionData".toList c.meterQ := by
      funext tx
      unfold makeDataCmdStopTs
      rw [hreason]
      dsimp only
      rw [setSamples_setLen]
    rw [heq]
    exact (((hhead.setProp _ _ _).setProp _ _ _).setLen 6).fresh_samples _ _

theorem makeDataCmdDataTrans_fresh (messageId data : List Char) :
    Fresh (makeDataCmdDataTrans messageId data uid) :=
  ((((Fills.call uid 3 .dataTrans).setProp _ _ _).setProp _ _ _).setProp _ _ _).fresh

/-- A status report keeps the nested payloads away, complete or not. -/
theorem makeDataCmdStat_plain (i : Fin 2) (tm : Tm) {tx : TxBuf} (h : tx.Plain) :
    (makeDataCmdStat c i uid tm tx).Plain := by
  have hcall : (tx.call uid 5 .stat).Plain := h
  have hhead : ∀ err vendor : List Char, (((((tx.call uid 5 .stat).setName 2 "status".toList).setProp
      0 "connectorId".toList (dec i.val) .int).setProp 1 "timestamp".toList (getDateTime tm)
      .str).setProp 3 "errorCode".toList err .str |>.setProp 4 "vendorErrorCode".toList vendor
      .str).Plain := fun err vendor =>
    ((((hcall.setName 2 _).setProp 0 _ _ _).setProp 1 _ _ _).setProp 3 _ _ _).setProp 4 _ _ _
  have hlong : ∀ {t : TxBuf}, t.Plain →
      ((t.setLen 6).setProp 6 "info".toList "EV side disconnected".toList .str).Plain :=
    fun {t} ht => by
      have hlen : (t.setLen 6).Plain := ht
      exact hlen.setProp 6 _ _ _
  unfold makeDataCmdStat
  dsimp only
  cases statText (c.cs.bCpStat i) with
  | none =>
    split
    · exact hlong (hhead _ _)
    · exact hhead _ _
  | some t =>
    split
    · exact hlong (((hhead _ _).setContants 2 t).setType 2 .str)
    · exact ((hhead _ _).setContants 2 t).setType 2 .str

theorem makeDataCmdStat_len (i : Fin 2) (tm : Tm) (tx : TxBuf) :
    (makeDataCmdStat c i uid tm tx).msg.payloadLen =
      if c.cs.bCpStat i = .suspendedEv then 6 else 5 := by
  unfold makeDataCmdStat
  dsimp only
  split <;> split <;> split <;> rfl

theorem makeDataCmdStat_header (i : Fin 2) (tm : Tm) (tx₁ tx₂ : TxBuf) (id : List Char) :
    encHeader (makeDataCmdStat c i uid tm tx₁).msg id =
      encHeader (makeDataCmdStat c i uid tm tx₂).msg id := by
  unfold makeDataCmdStat
  dsimp only
  split <;> split <;> split <;> rfl

/-- What a status report shows, entry by entry. -/
theorem makeDataCmdStat_field (i : Fin 2) (tm : Tm) (tx : TxBuf) (k : Nat) :
    let code := c.cs.bCpStat i
    ((makeDataCmdStat c i uid tm tx).msg.payload k).field =
      if code = .suspendedEv ∧ k = 6 then ⟨"info".toList, "EV side disconnected".toList, .str⟩
      else if k = 2 then
        match statText code with
        | some t => ⟨"status".toList, t, .str⟩
        | none => { (tx.msg.payload 2).field with name := "status".toList }
      else if k = 4 then ⟨"vendorErrorCode".toList,
        if code = .fault then chargerVendorErrorCode c.scene.chargerErrCode else [], .str⟩
      else if k = 3 then ⟨"errorCode".toList,
        if code = .fault then chargerErrorCode c.scene.chargerErrCode else "NoError".toList, .str⟩
      else if k = 1 then ⟨"timestamp".toList, getDateTime tm, .str⟩
      else if k = 0 then ⟨"connectorId".toList, dec i.val, .int⟩
      else (tx.msg.payload k).field := by
  dsimp only
  have hhead : ∀ err vendor : List Char, ∀ k, (((((((tx.call uid 5 .stat).setName 2
      "status".toList).setProp 0 "connectorId".toList (dec i.val) .int).setProp 1
      "timestamp".toList (getDateTime tm) .str).setProp 3 "errorCode".toList err .str).setProp 4
      "vendorErrorCode".toList vendor .str).msg.payload k).field =
      if k = 4 then ⟨"vendorErrorCode".toList, vendor, .str⟩
      else if k = 3 then ⟨"errorCode".toList, err, .str⟩
      else if k = 1 then ⟨"timestamp".toList, getDateTime tm, .str⟩
      else if k = 0 then ⟨"connectorId".toList, dec i.val, .int⟩
      else if k = 2 then { (tx.msg.payload k).field with name := "status".toList }
      else (tx.msg.payload k).field := by
    intro err vendor k
    simp only [TxBuf.setProp_field, TxBuf.setName_field]
    rfl
  have hpair : (if c.cs.bCpStat i = .fault then
      (chargerErrorCode c.scene.chargerErrCode, chargerVendorErrorCode c.scene.chargerErrCode)
      else ("NoError".toList, [])) =
      (if c.cs.bCpStat i = .fault then chargerErrorCode c.scene.chargerErrCode
        else "NoError".toList,
      if c.cs.bCpStat i = .fault then chargerVendorErrorCode c.scene.chargerErrCode else []) := by
    split <;> rfl
  unfold makeDataCmdStat
  dsimp only
  rw [hpair]
  dsimp only
  -- a status without a text leaves entry 2 the contents it had
  cases htext : statText (c.cs.bCpStat i) with
  | none =>
    have hev : c.cs.bCpStat i ≠ .suspendedEv := by
      intro hev
      rw [hev] at htext
      exact absurd htext (by simp [statText])
    dsimp only
    have hinfo : ¬ (c.cs.bCpStat i = .suspendedEv ∧ k = 6) := fun h => hev h.1
    rw [if_neg hev, hhead]
    simp only [if_neg hinfo]
    by_cases hk : k = 2
    · subst hk
      rfl
    · simp only [hk, if_false]
  | some t =>
    dsimp only
    by_cases hev : c.cs.bCpStat i = .suspendedEv
    · rw [if_pos hev, TxBuf.setProp_field]
      by_cases hk : k = 6
      · rw [if_pos hk, if_pos ⟨hev, hk⟩]
      · have hinfo : ¬ (c.cs.bCpStat i = .suspendedEv ∧ k = 6) := fun h => hk h.2
        rw [if_neg hk]
        simp only [if_neg hinfo]
        show (((_ : TxBuf).setType 2 .str).msg.payload k).field = _
        rw [TxBuf.setType_field, TxBuf.setContants_field, hhead]
        by_cases hk2 : k = 2
        · subst hk2
          rfl
        · simp only [hk2, if_false]
    · have hinfo : ¬ (c.cs.bCpStat i = .suspendedEv ∧ k = 6) := fun h => hev h.1
      rw [if_neg hev]
      simp only [if_neg hinfo]
      rw [TxBuf.setType_field, TxBuf.setContants_field, hhead]
      by_cases hk2 : k = 2
      · subst hk2
        rfl
      · simp only [hk2, if_false]

/-- A status that has a text and no sixth property. -/
def CpStatus.Reported (code : CpStatus) : Prop := (statText code).isSome = true ∧ code ≠ .suspendedEv

theorem makeDataCmdStat_fresh {i : Fin 2} (tm : Tm) (h : (c.cs.bCpStat i).Reported) :
    Fresh (makeDataCmdStat c i uid tm) := by
  obtain ⟨t, ht⟩ := Option.isSome_iff_exists.mp h.1
  have hlen : ∀ tx, (makeDataCmdStat c i uid tm tx).msg.payloadLen = 5 := by
    intro tx
    rw [makeDataCmdStat_len, if_neg h.2]
  have hfills : Fills (makeDataCmdStat c i uid tm) 5 5 := by
    refine ⟨makeDataCmdStat_header c uid i tm, hlen, fun tx₁ tx₂ k hk => ?_,
      makeDataCmdStat_plain c uid i tm⟩
    have hfield := makeDataCmdStat_field c uid i tm
    dsimp only at hfield
    rw [hfield, hfield, ht]
    obtain rfl | rfl | rfl | rfl | rfl : k = 0 ∨ k = 1 ∨ k = 2 ∨ k = 3 ∨ k = 4 := by omega
    all_goals rfl
  exact hfills.fresh

end Builders

/-! ## Requests -/

/-- Whatever can make the client build a message: a builder, the one that nothing calls among
them, or a request of the central system. -/
inductive Request
  | call (a : Call)
  | batteryInfo
  | serve (cmd : CsReqAction)

/-- The message it builds into `Tx_Msg`. -/
def Request.build (q : Request) (k : Clock) (j : Junk) (rx : RxBuf) (c : Charger) (tx : TxBuf) :
    Option TxBuf :=
  match q with
  | .call a => a.build k c tx
  | .batteryInfo => some (makeDataCmdDataTransBatteryInfo k.uid tx)
  | .serve cmd => (rxCallDataProc cmd j rx c tx).map fun r => r.2

/-- The frame `Make_Ocpp_Msg` makes of it. -/
def Request.frame (q : Request) (k : Clock) (j : Junk) (rx : RxBuf) (c : Charger) (tx : TxBuf) :
    Option (List Char) :=
  (q.build k j rx c tx).map fun tx => makeOcppMsg tx rx.msg.uniqueIdChar

/-- The request writes every property it counts. -/
def Request.Complete (q : Request) (c : Charger) : Prop :=
  match q with
  | .call (.stat i) => (c.cs.bCpStat i).Reported
  | .call .trigStat => (c.cs.bCpStat 1).Reported
  | .serve cmd => ¬ cmd.Silent
  | _ => True

/-- A builder that shows nothing of the buffer is undefined for all contents or for none. -/
inductive Builds (h : TxBuf → Option TxBuf) : Prop
  | undefined (heq : h = fun _ => none)
  | fresh (b : TxBuf → TxBuf) (hb : Fresh b) (heq : h = fun tx => some (b tx))

theorem Builds.of_map {α : Type} {x : Option α} {b : α → TxBuf → TxBuf} (h : ∀ a, Fresh (b a)) :
    Builds fun tx => x.map fun a => b a tx := by
  cases x with
  | none => exact .undefined rfl
  | some a => exact .fresh (b a) (h a) rfl

/-- Every branch but the two status reports shows nothing of the buffer, and these do not
either where the status is one they report. -/
theorem Call.builds {a : Call} (k : Clock) {c : Charger} (h : (Request.call a).Complete c) :
    Builds fun tx => a.build k c tx := by
  cases a with
  | boot => exact .fresh _ (makeDataCmdBoot_fresh k.uid) rfl
  | meterVal | trigMeter => exact .fresh _ (makeDataCmdMeterVal_fresh c) rfl
  | stat i => exact .fresh _ (makeDataCmdStat_fresh c k.uid k.tm h) rfl
  | trigStat => exact .fresh _ (makeDataCmdStat_fresh c k.uid k.tm h) rfl
  | auth => exact .fresh _ (makeDataCmdAuth_fresh c k.uid) rfl
  | startTs => exact .fresh _ (makeDataCmdStartTs_fresh c k.uid) rfl
  | stopTs => exact .of_map fun d => makeDataCmdStopTs_fresh c k.uid (c.cs.bTrId d)
  | chargeAmt => exact .of_map fun d => makeDataCmdDataTrans_fresh k.uid _ _
  | trigDiag | diagStat => exact .fresh _ (makeDataCmdDiagStat_fresh k.uid _) rfl
  | trigFw | fwStat => exact .fresh _ (makeDataCmdFwStat_fresh k.uid _) rfl
  | trigHb | hb => exact .fresh _ (makeDataCmdHb_fresh k.uid) rfl
  | dataTransJ1 | mbrUntpc | q1 | q2 | cpSts =>
    exact .fresh _ (makeDataCmdDataTrans_fresh k.uid _ _) rfl

/-- Whatever is built and sent leaves no nested payload behind. -/
theorem Call.build_sent {a : Call} {k : Clock} {c : Charger} {tx tx' : TxBuf} (h : tx.Plain)
    (hb : a.build k c tx = some tx') : (afterMakeOcppMsg tx').Plain := by
  have hstat : ∀ i, (afterMakeOcppMsg (makeDataCmdStat c i k.uid k.tm tx)).Plain := fun i =>
    (makeDataCmdStat_plain c k.uid i k.tm h).sent
  by_cases hcomplete : (Request.call a).Complete c
  · rcases Call.builds k hcomplete with heq | ⟨b, hfresh, heq⟩
    · exact absurd (hb.symm.trans (congrFun heq tx)) (by simp)
    · obtain rfl := Option.some.inj (hb.symm.trans (congrFun heq tx))
      exact hfresh.sent h
  · cases a with
    | stat i =>
      obtain rfl := Option.some.inj hb
      exact hstat i
    | trigStat =>
      obtain rfl := Option.some.inj hb
      exact hstat 1
    | boot | meterVal | dataTransJ1 | auth | mbrUntpc | startTs | stopTs | chargeAmt | q1 | q2
    | trigDiag | trigFw | trigHb | trigMeter | diagStat | fwStat | hb | cpSts =>
      exact absurd trivial hcomplete

/-! ## What an earlier message can have left

The quantifier of the result is over contents that can be there: `Left` is what `Tx_Msg` holds in
some state of some run. That these have no nested payload is the invariant; it holds although the
samples of a MeterValues are nested, because printing them resets the lengths. -/

theorem Client.dispatchRes_tx {s s' : Client} {frame : List Char} {o : List Obs}
    (h : (if s.expects then s.dispatchRes frame else some (s, [])) = some (s', o)) :
    s'.tx = s.tx := by
  split at h
  · simp only [Client.dispatchRes, Option.map_eq_some_iff, Prod.mk.injEq] at h
    obtain ⟨c, -, rfl, -⟩ := h
    rfl
  · obtain ⟨rfl, -⟩ := Prod.mk.inj (Option.some.inj h)
    rfl

/-- What a received message makes of `Tx_Msg`: a request is served, and only the DataTransfer
that is served before the boot is not sent. -/
theorem Client.recvParsed_tx {s s' : Client} {frame : List Char} {j : Junk} {k : Clock}
    {sendOk : Bool} {o : List Obs} (h : s.recvParsed frame j k sendOk = some (s', o)) :
    s'.tx = s.tx ∨ ∃ cmd c tx, rxCallDataProc cmd j s.rx s.cp s.tx = some (c, tx) ∧
      (s'.tx = afterMakeOcppMsg tx ∨ cmd = .dataTransfer ∧ s'.tx = tx) := by
  unfold recvParsed at h
  split at h
  · obtain ⟨rfl, -⟩ := Prod.mk.inj (Option.some.inj h)
    exact .inl rfl
  · split at h
    · split at h
      · exact .inl (dispatchRes_tx h)
      · split at h
        · simp only [Option.map_eq_some_iff, Prod.mk.injEq] at h
          obtain ⟨r, hr, rfl, -⟩ := h
          exact .inr ⟨_, r.1, r.2, hr, .inr ⟨rfl, rfl⟩⟩
        · obtain ⟨rfl, -⟩ := Prod.mk.inj (Option.some.inj h)
          exact .inl rfl
    · split at h
      · exact .inl (dispatchRes_tx h)
      · split at h
        · split at h
          · simp only [Option.map_eq_some_iff, Prod.mk.injEq] at h
            obtain ⟨r, hr, rfl, -⟩ := h
            refine .inr ⟨_, r.1, r.2, hr, .inl ?_⟩
            unfold tsctCurlWsTrans
            dsimp only
            split
            · split <;> rfl
            · rfl
          · obtain ⟨rfl, -⟩ := Prod.mk.inj (Option.some.inj h)
            exact .inl rfl
        · obtain ⟨rfl, -⟩ := Prod.mk.inj (Option.some.inj h)
          exact .inl rfl

theorem Client.recv_tx {s s' : Client} {frame : List Char} {j : Junk} {k : Clock}
    {sendOk : Bool} {o : List Obs} (h : s.tsctCurlWsRecv frame j k sendOk = some (s', o)) :
    s'.tx = s.tx ∨ ∃ cmd rx c tx, rxCallDataProc cmd j rx s.cp s.tx = some (c, tx) ∧
      (s'.tx = afterMakeOcppMsg tx ∨ cmd = .dataTransfer ∧ s'.tx = tx) := by
  unfold tsctCurlWsRecv at h
  split at h
  · split at h
    · exact absurd h (by simp)
    · dsimp only at h
      split at h
      · obtain ⟨rfl, -⟩ := Prod.mk.inj (Option.some.inj h)
        exact .inl rfl
      · rcases recvParsed_tx h with htx | ⟨cmd, c, tx, hserve, htx⟩
        · exact .inl htx
        · exact .inr ⟨cmd, _, c, tx, hserve, htx⟩
  · exact absurd h (by simp)

/-- Serving a request and sending the answer leaves no nested payload. -/
theorem rxCallDataProc_sent {cmd : CsReqAction} {j : Junk} {rx : RxBuf} {c c' : Charger}
    {tx tx' : TxBuf} (hp : tx.Plain) (h : rxCallDataProc cmd j rx c tx = some (c', tx')) :
    (afterMakeOcppMsg tx').Plain := by
  by_cases hsilent : cmd.Silent
  · cases cmd with
    | none | cancelReseve | getCompositSched | reserve | setChgProfile =>
      obtain ⟨-, rfl⟩ := Prod.mk.inj (Option.some.inj h)
      exact TxBuf.Plain.after fun i => .inl (hp i)
    | changeAvail | changeConfig | clearCache | clearChargProf | dataTransfer | getConfig
    | getDiag | getLocalVer | remoteStart | remoteStop | reset | sndLocalList | triggerMsg
    | unlockConnect | updateFw => exact hsilent.elim
  · obtain ⟨x, hx⟩ := rxCallDataProc_answers j rx c hsilent
    have hreply := h.symm.trans (hx tx)
    cases x with
    | none => exact absurd hreply (by simp)
    | some r =>
      obtain ⟨-, rfl⟩ := Prod.mk.inj (Option.some.inj hreply)
      exact r.2.sent rx hp

/-- A DataTransfer is answered with a status. -/
theorem dataProcCmdDataTransCs_plain {j : Junk} {rx : RxBuf} {c c' : Charger} {tx tx' : TxBuf}
    (hp : tx.Plain) (h : rxCallDataProc .dataTransfer j rx c tx = some (c', tx')) :
    tx'.Plain := by
  have hstatus : ∀ ret : ResType, (makeCallRes ret rx
      { tx with msg := { tx.msg with msgType := msgTypeCallRes } }).Plain := fun ret =>
    TxBuf.Plain.setProp (fun i => hp i) 0 _ _ _
  simp only [rxCallDataProc, dataProcCmdDataTransCs, Option.bind_eq_bind,
    Option.bind_eq_some_iff] at h
  obtain ⟨l, -, h⟩ := h
  split at h <;>
    · obtain ⟨-, rfl⟩ := Prod.mk.inj (Option.some.inj h)
      exact hstatus _

/-- **What is kept of `Tx_Msg`**: what every message that is built and sent keeps, every answer
that is sent, and the answer to a DataTransfer, which may be left there. -/
theorem step_tx {I : TxBuf → Prop} {s s' : Client} {e : Event} {o : List Obs}
    (hcall : ∀ {a : Call} {k : Clock} {c : Charger} {tx tx' : TxBuf}, I tx →
      a.build k c tx = some tx' → I (afterMakeOcppMsg tx'))
    (hserve : ∀ {cmd : CsReqAction} {j : Junk} {rx : RxBuf} {c c' : Charger} {tx tx' : TxBuf},
      I tx → rxCallDataProc cmd j rx c tx = some (c', tx') → I (afterMakeOcppMsg tx'))
    (hdata : ∀ {j : Junk} {rx : RxBuf} {c c' : Charger} {tx tx' : TxBuf},
      I tx → rxCallDataProc .dataTransfer j rx c tx = some (c', tx') → I tx')
    (hp : I s.tx) (h : step s e = some (s', o)) : I s'.tx := by
  cases step_cases h with
  | quiet f rx b hs ho hrun => exact hs ▸ hp
  | raised k he hreq hs ho => exact hs ▸ hp
  | sampled k f ty he hty hdue hs ho => exact hs ▸ hp
  | connected k sendOk he hc hs ho => exact hs ▸ hp
  | ticked k sendOk connectOk he hc ht =>
    cases ht with
    | idle f t v w hs ho hsen => exact hs ▸ hp
    | timeout w hw hs ho => exact hs ▸ hp
    | failed a f t tx d v hw hg hb hs ho hk hsen =>
      subst hs
      exact hcall hp hb
    | called a f t tx d v hw hg hb hs ho hk hsen =>
      subst hs
      exact hcall hp hb
  | received frame j k sendOk he hc hr =>
    subst he
    simp only [step, hc, if_true] at h
    rcases Client.recv_tx h with htx | ⟨cmd, rx, c, tx, hs, htx | ⟨rfl, htx⟩⟩
    · exact htx ▸ hp
    · exact htx ▸ hserve hp hs
    · exact htx ▸ hdata hp hs
  | env w c he hw hs => exact hs ▸ hp

theorem step_plain {s s' : Client} {e : Event} {o : List Obs} (hp : s.tx.Plain)
    (h : step s e = some (s', o)) : s'.tx.Plain :=
  step_tx Call.build_sent rxCallDataProc_sent dataProcCmdDataTransCs_plain hp h

/-- What an earlier message can have left in `Tx_Msg`: what it holds in some state of some
run. -/
def Left (tx : TxBuf) : Prop := ∃ s log, Run s log ∧ s.tx = tx

/-- **No nested payload is ever left behind.** -/
theorem left_plain {tx : TxBuf} (h : Left tx) : tx.Plain := by
  obtain ⟨s, log, ⟨st, now, hrun⟩, rfl⟩ := h
  refine hrun.invariant (I := fun s _ => s.tx.Plain) (fun _ => rfl) ?_
  intro s log e s' o hp _ hstep
  exact step_plain hp hstep

/-! ## Requests that show what was left -/

/-- How long a frame gets depends on each entry. -/
theorem commas_length (pre : List (List Char)) (x : List Char) (post : List (List Char)) :
    (commas (pre ++ x :: post)).length = (commas (pre ++ [] :: post)).length + x.length := by
  cases pre with
  | nil =>
    simp only [List.nil_append, commas_cons, List.length_append]
    omega
  | cons y pre =>
    simp only [List.cons_append, commas_cons, List.flatMap_append, List.flatMap_cons,
      List.length_append, List.length_cons, List.length_nil]
    omega

/-- Frames that differ in one entry at most are of one length only if that entry is. -/
theorem makeOcppMsg_differ {tx₁ tx₂ : TxBuf} (h₁ : tx₁.Plain) (h₂ : tx₂.Plain) {id : List Char}
    (hheader : encHeader tx₁.msg id = encHeader tx₂.msg id)
    (hlen : tx₁.msg.payloadLen = tx₂.msg.payloadLen) {k : Nat} (hk : k < tx₁.msg.payloadLen)
    (hrest : ∀ i < tx₁.msg.payloadLen, i ≠ k →
      (tx₁.msg.payload i).field = (tx₂.msg.payload i).field)
    (h : makeOcppMsg tx₁ id = makeOcppMsg tx₂ id) :
    (tx₁.msg.payload k).field.text.length = (tx₂.msg.payload k).field.text.length := by
  obtain ⟨pre, post, hrange⟩ := List.append_of_mem (List.mem_range.mpr hk)
  have hnodup := List.nodup_range (n := tx₁.msg.payloadLen)
  rw [hrange, List.nodup_middle, List.nodup_cons] at hnodup
  have hsame : ∀ i ∈ pre ++ post, (tx₁.msg.payload i).field.text =
      (tx₂.msg.payload i).field.text := by
    intro i hi
    have hmem : i ∈ List.range tx₁.msg.payloadLen := by
      rw [hrange, List.mem_append, List.mem_cons]
      rcases List.mem_append.mp hi with hpre | hpost
      · exact .inl hpre
      · exact .inr (.inr hpost)
    rw [hrest i (List.mem_range.mp hmem) fun hik => hnodup.1 (hik ▸ hi)]
  have hpre : pre.map (fun i => (tx₁.msg.payload i).field.text) =
      pre.map fun i => (tx₂.msg.payload i).field.text :=
    List.map_congr_left fun i hi => hsame i (List.mem_append_left _ hi)
  have hpost : post.map (fun i => (tx₁.msg.payload i).field.text) =
      post.map fun i => (tx₂.msg.payload i).field.text :=
    List.map_congr_left fun i hi => hsame i (List.mem_append_right _ hi)
  have hlength := congrArg List.length h
  rw [makeOcppMsg_plain h₁, makeOcppMsg_plain h₂, ← hlen, hrange, hheader] at hlength
  simp only [List.map_append, List.map_cons, hpre, hpost] at hlength
  have hc₁ := commas_length (pre.map fun i => (tx₂.msg.payload i).field.text)
    (tx₁.msg.payload k).field.text (post.map fun i => (tx₂.msg.payload i).field.text)
  have hc₂ := commas_length (pre.map fun i => (tx₂.msg.payload i).field.text)
    (tx₂.msg.payload k).field.text (post.map fun i => (tx₂.msg.payload i).field.text)
  simp only [List.length_append, List.length_cons] at hlength
  omega

/-- Contents that some message left: none yet, those of the BootNotification, and those of a
StopTransaction with a reason. -/
theorem left_zero : Left .zero := ⟨Client.init 0 0, [], ⟨0, 0, .start⟩, rfl⟩

set_option maxRecDepth 20000 in
theorem left_boot : ∃ tx, Left tx ∧ tx.msg.payloadLen = 3 ∧
    (tx.msg.payload 2).propertyContants = swVersion ∧ (tx.msg.payload 2).dataType = .str := by
  let p : Client → List Obs → Bool := fun s _ => s.tx.msg.payloadLen = 3 &&
    (s.tx.msg.payload 2).propertyContants = swVersion && (s.tx.msg.payload 2).dataType = .str
  have hrun : (Trace.exec step (fun _ _ _ => true) (Client.init 3 0) [] (bootRun "20")).any
      (fun r => p r.1 r.2) = true := by decide +kernel
  obtain ⟨s, log, h, hp⟩ := exists_run_of_exec (p := p) hrun
  simp only [p, Bool.and_eq_true, decide_eq_true_eq] at hp
  exact ⟨s.tx, ⟨s, log, h, rfl⟩, hp.1.1, hp.1.2, hp.2⟩

set_option maxRecDepth 20000 in
theorem left_stop : ∃ tx, Left tx ∧
    (tx.msg.payload 5).propertyName = "transactionData".toList ∧
    (tx.msg.payload 5).dataType = .arr := by
  let p : Client → List Obs → Bool := fun s _ =>
    (s.tx.msg.payload 5).propertyName = "transactionData".toList &&
    (s.tx.msg.payload 5).dataType = .arr
  have hrun : (Trace.exec step (fun _ _ _ => true) (Client.init 3 0) [] (bootedRun ++
      [.env (.rmtStop true), .env .reqStopTs, .netRun (.reading 14 5) true true])).any
      (fun r => p r.1 r.2) = true := by decide +kernel
  obtain ⟨s, log, h, hp⟩ := exists_run_of_exec (p := p) hrun
  simp only [p, Bool.and_eq_true, decide_eq_true_eq] at hp
  exact ⟨s.tx, ⟨s, log, h, rfl⟩, hp.1, hp.2⟩

/-! ## Exactly when a frame is fresh

For a request that is not complete, two runs are shown that leave different contents where it
leaves a hole, and the frames differ because their lengths do. -/

section Requests
variable {q : Request} {k : Clock} {j : Junk} {rx : RxBuf} {c : Charger}

/-- A complete request shows nothing of the buffer. -/
theorem Request.frame_fresh (h : q.Complete c) {tx₁ tx₂ : TxBuf} (h₁ : tx₁.Plain)
    (h₂ : tx₂.Plain) : q.frame k j rx c tx₁ = q.frame k j rx c tx₂ := by
  cases q with
  | call a =>
    rcases Call.builds k h with heq | ⟨b, hb, heq⟩
    · have hnone : ∀ tx, a.build k c tx = none := fun tx => congrFun heq tx
      unfold Request.frame Request.build
      dsimp only
      rw [hnone, hnone]
    · have hsome : ∀ tx, a.build k c tx = some (b tx) := fun tx => congrFun heq tx
      unfold Request.frame Request.build
      dsimp only
      rw [hsome, hsome]
      exact congrArg some (hb.frame h₁ h₂ _)
  | batteryInfo => exact congrArg some ((makeDataCmdDataTrans_fresh k.uid _ _).frame h₁ h₂ _)
  | serve cmd =>
    obtain ⟨x, hx⟩ := rxCallDataProc_answers j rx c h
    have hserve : ∀ tx, rxCallDataProc cmd j rx c tx = x.map fun r => (r.1, r.2.write rx tx) := hx
    unfold Request.frame Request.build
    dsimp only
    rw [hserve, hserve]
    cases x with
    | none => rfl
    | some r =>
      exact congrArg some ((makeOcppMsg_reply rx h₁ r.2 _).trans (makeOcppMsg_reply rx h₂ r.2 _).symm)

/-- The entry that a status report which is not complete counts and does not write. -/
def CpStatus.holeAt (code : CpStatus) : Nat := if code = .suspendedEv then 5 else 2

/-- What is shown of it. -/
def CpStatus.hole (code : CpStatus) (tx : TxBuf) : Field :=
  if code = .suspendedEv then (tx.msg.payload 5).field
  else { (tx.msg.payload 2).field with name := "status".toList }

theorem statText_none {code : CpStatus} (h : ¬ code.Reported) (hev : code ≠ .suspendedEv) :
    statText code = none := by
  by_contra htext
  exact h ⟨Option.isSome_iff_ne_none.mpr htext, hev⟩

theorem makeDataCmdStat_hole {i : Fin 2} (h : ¬ (c.cs.bCpStat i).Reported) (uid : UInt64) (tm : Tm)
    (tx : TxBuf) : ((makeDataCmdStat c i uid tm tx).msg.payload (c.cs.bCpStat i).holeAt).field =
      (c.cs.bCpStat i).hole tx := by
  have hfield := makeDataCmdStat_field c uid i tm tx
  dsimp only at hfield
  rw [hfield]
  by_cases hev : c.cs.bCpStat i = .suspendedEv
  · simp [CpStatus.holeAt, CpStatus.hole, hev]
  · simp [CpStatus.holeAt, CpStatus.hole, hev, statText_none h hev]

theorem makeDataCmdStat_rest {i : Fin 2} (uid : UInt64) (tm : Tm) (tx₁ tx₂ : TxBuf) {n : Nat}
    (hn : n < (makeDataCmdStat c i uid tm tx₁).msg.payloadLen) (hne : n ≠ (c.cs.bCpStat i).holeAt) :
    ((makeDataCmdStat c i uid tm tx₁).msg.payload n).field =
      ((makeDataCmdStat c i uid tm tx₂).msg.payload n).field := by
  have hfield := makeDataCmdStat_field c uid i tm
  dsimp only at hfield
  rw [makeDataCmdStat_len] at hn
  rw [hfield, hfield]
  by_cases hev : c.cs.bCpStat i = .suspendedEv
  · rw [if_pos hev] at hn
    rw [CpStatus.holeAt, if_pos hev] at hne
    rw [hev]
    obtain rfl | rfl | rfl | rfl | rfl : n = 0 ∨ n = 1 ∨ n = 2 ∨ n = 3 ∨ n = 4 := by omega
    all_goals rfl
  · rw [if_neg hev] at hn
    rw [CpStatus.holeAt, if_neg hev] at hne
    obtain rfl | rfl | rfl | rfl : n = 0 ∨ n = 1 ∨ n = 3 ∨ n = 4 := by omega
    all_goals rfl

/-- Two runs leave entries of two lengths there. -/
theorem CpStatus.hole_differs (code : CpStatus) :
    ∃ tx, Left tx ∧ (code.hole .zero).text.length ≠ (code.hole tx).text.length := by
  by_cases hev : code = .suspendedEv
  · obtain ⟨tx, hleft, hname, htype⟩ := left_stop
    have htext : (code.hole tx).text = convStr2Str "transactionData".toList ++ ":[]".toList := by
      unfold hole
      rw [if_pos hev]
      unfold Field.text Payload.field
      dsimp only
      rw [hname, htype]
      rfl
    have hzero : (code.hole .zero).text = convStr2Str [] ++ ':' :: convStr2Str [] := by
      unfold hole
      rw [if_pos hev]
      rfl
    exact ⟨tx, hleft, by rw [htext, hzero]; decide⟩
  · obtain ⟨tx, hleft, -, hcontants, htype⟩ := left_boot
    have htext : (code.hole tx).text = convStr2Str "status".toList ++ ':' :: convStr2Str swVersion := by
      unfold hole
      rw [if_neg hev]
      unfold Field.text Payload.field
      dsimp only
      rw [hcontants, htype]
      rfl
    have hzero : (code.hole .zero).text = convStr2Str "status".toList ++ ':' :: convStr2Str [] := by
      unfold hole
      rw [if_neg hev]
      rfl
    exact ⟨tx, hleft, by rw [htext, hzero]; decide⟩

/-- A status report that is not complete shows what was left. -/
theorem makeDataCmdStat_stale {i : Fin 2} (h : ¬ (c.cs.bCpStat i).Reported) (uid : UInt64)
    (tm : Tm) (id : List Char) :
    ∃ tx, Left tx ∧ makeOcppMsg (makeDataCmdStat c i uid tm .zero) id ≠
      makeOcppMsg (makeDataCmdStat c i uid tm tx) id := by
  obtain ⟨tx, hleft, hdiffers⟩ := (c.cs.bCpStat i).hole_differs
  refine ⟨tx, hleft, fun heq => hdiffers ?_⟩
  have hlen := makeDataCmdStat_len c uid i tm
  have hat : (c.cs.bCpStat i).holeAt < (makeDataCmdStat c i uid tm .zero).msg.payloadLen := by
    rw [hlen, CpStatus.holeAt]
    split <;> decide
  have hlength := makeOcppMsg_differ (makeDataCmdStat_plain c uid i tm (left_plain left_zero))
    (makeDataCmdStat_plain c uid i tm (left_plain hleft))
    (makeDataCmdStat_header c uid i tm _ _ id) (by rw [hlen, hlen]) hat
    (fun n hn hne => makeDataCmdStat_rest uid tm _ _ hn hne) heq
  rwa [makeDataCmdStat_hole h, makeDataCmdStat_hole h] at hlength

/-- An answer without a handler shows all that was left. -/
theorem silent_stale {cmd : CsReqAction} (h : cmd.Silent) :
    ∃ tx, Left tx ∧ (Request.serve cmd).frame k j rx c .zero ≠
      (Request.serve cmd).frame k j rx c tx := by
  obtain ⟨tx, hleft, hlen, -⟩ := left_boot
  let asRes (tx : TxBuf) : TxBuf := { tx with msg := { tx.msg with msgType := msgTypeCallRes } }
  have hserve : ∀ tx : TxBuf, (Request.serve cmd).frame k j rx c tx =
      some (makeOcppMsg (asRes tx) rx.msg.uniqueIdChar) := by
    intro tx
    cases cmd with
    | none | cancelReseve | getCompositSched | reserve | setChgProfile => rfl
    | changeAvail | changeConfig | clearCache | clearChargProf | dataTransfer | getConfig
    | getDiag | getLocalVer | remoteStart | remoteStop | reset | sndLocalList | triggerMsg
    | unlockConnect | updateFw => exact h.elim
  refine ⟨tx, hleft, fun heq => ?_⟩
  rw [hserve, hserve, Option.some.injEq] at heq
  have hplain : ∀ tx : TxBuf, tx.Plain → (asRes tx).Plain := fun tx hp => hp
  rw [makeOcppMsg_plain (hplain _ (left_plain left_zero)),
    makeOcppMsg_plain (hplain _ (left_plain hleft))] at heq
  have hlength := congrArg List.length heq
  have hheader : ∀ tx : TxBuf, encHeader (asRes tx).msg rx.msg.uniqueIdChar =
      dec 3 ++ ',' :: convStr2Str rx.msg.uniqueIdChar := fun _ => rfl
  have hthree : (asRes tx).msg.payloadLen = 3 := hlen
  rw [hheader, hheader, hthree] at hlength
  have hpos : ∀ f : Field, 0 < f.text.length := fun f => by
    unfold Field.text
    rw [List.length_append, List.length_cons]
    omega
  have hfirst := hpos ((asRes tx).msg.payload 0).field
  have hrange : List.range 3 = [0, 1, 2] := rfl
  rw [hrange] at hlength
  simp only [List.length_append, List.length_cons, List.map_cons, commas_cons] at hlength
  have hzero : (commas (List.map (fun i => ((asRes .zero).msg.payload i).field.text)
      (List.range (asRes .zero).msg.payloadLen))).length = 0 := rfl
  omega

end Requests

/-- **Exactly when a frame is fresh.** The frame of a request is the same for any two contents
that earlier messages can have left, if and only if the request writes every property it
counts. -/
theorem frame_fresh_iff (q : Request) (k : Clock) (j : Junk) (rx : RxBuf) (c : Charger) :
    (∀ tx₁ tx₂, Left tx₁ → Left tx₂ → q.frame k j rx c tx₁ = q.frame k j rx c tx₂) ↔
      q.Complete c := by
  constructor
  · intro hfresh
    by_contra h
    cases q with
    | call a =>
      have hstat : ∀ i, ¬ (c.cs.bCpStat i).Reported → ∃ tx, Left tx ∧
          makeOcppMsg (makeDataCmdStat c i k.uid k.tm .zero) rx.msg.uniqueIdChar ≠
            makeOcppMsg (makeDataCmdStat c i k.uid k.tm tx) rx.msg.uniqueIdChar :=
        fun i hi => makeDataCmdStat_stale hi k.uid k.tm rx.msg.uniqueIdChar
      cases a with
      | stat i =>
        obtain ⟨tx, hleft, hne⟩ := hstat i h
        exact hne (Option.some.inj (hfresh _ _ left_zero hleft))
      | trigStat =>
        obtain ⟨tx, hleft, hne⟩ := hstat 1 h
        exact hne (Option.some.inj (hfresh _ _ left_zero hleft))
      | boot | meterVal | dataTransJ1 | auth | mbrUntpc | startTs | stopTs | chargeAmt | q1 | q2
      | trigDiag | trigFw | trigHb | trigMeter | diagStat | fwStat | hb | cpSts => exact h trivial
    | batteryInfo => exact h trivial
    | serve cmd =>
      obtain ⟨tx, hleft, hne⟩ := silent_stale (Classical.not_not.mp h)
      exact hne (hfresh _ _ left_zero hleft)
  · intro h tx₁ tx₂ hl₁ hl₂
    exact q.frame_fresh h (left_plain hl₁) (left_plain hl₂)

/-- A ReserveNow is answered with whatever was sent last. -/
theorem reserve_shows_last :
    ∃ tx₁ tx₂, Left tx₁ ∧ Left tx₂ ∧
      (Request.serve .reserve).frame (.reading 0 0) .zero clearRxMsgBuff (.init 3) tx₁ ≠
        (Request.serve .reserve).frame (.reading 0 0) .zero clearRxMsgBuff (.init 3) tx₂ := by
  have hsilent : CsReqAction.Silent .reserve := trivial
  obtain ⟨tx, hleft, hne⟩ := silent_stale hsilent
  exact ⟨.zero, tx, left_zero, hleft, hne⟩

end ChargePoint
