import ChargePoint.Orders
import ChargePoint.PropertyOrder
import ChargePoint.StatusReport

/-!
# Connector ids

A connector id comes from the central system as text, is read into 64 bits and narrowed to a
byte, and ends up as an index: of `bCpStat` at once, and of every array through `bDevChannel`
once a remote start was accepted for it.

`Client.indices` collects the indices an event computes. They stay below the arrays' length in
every run whose remote starts name a connector that exists: the one check that is missing.
-/

set_option autoImplicit false

namespace ChargePoint

open CStr Loop

/-! ## The id of a request -/

/-- The text of the `connectorId`, and it is a number. -/
def RxBuf.NamesConnector (rx : RxBuf) (ds : List Char) : Prop :=
  Digits ds ∧ ∃ p, rx.lastNamed "connectorId" = some p ∧ cstr p.propertyContants = ds

/-- The answer that was prepared says Accepted. -/
def AnswersAccepted (tx : TxBuf) : Prop := (tx.msg.payload 0).holds "Accepted" = true

theorem makeCallRes_accepts (ret : ResType) (rx : RxBuf) (tx : TxBuf) :
    AnswersAccepted (makeCallRes ret rx tx) ↔ ret.text = "Accepted".toList := by
  unfold AnswersAccepted Payload.holds
  have htext : ((makeCallRes ret rx tx).msg.payload 0).propertyContants = ret.text := by
    cases ret <;> rfl
  rw [htext, decide_eq_true_eq, cstr_of_nulFree]
  cases ret <;> decide

theorem not_accepts_rejected (rx : RxBuf) (tx : TxBuf) :
    ¬ AnswersAccepted (makeCallRes .rejected rx tx) := by
  rw [makeCallRes_accepts]
  decide

theorem string2Integer_cstr (s : List Char) : string2Integer (cstr s) = string2Integer s := by
  unfold string2Integer
  rw [cstr_cstr]

/-- The number of a text that is below `2^8` survives the narrowing. -/
theorem byte_of_digits {ds : List Char} (h : Digits ds) (hlt : decVal ds < 256) :
    (string2Integer ds).toUInt8.toNat = decVal ds := by
  rw [string2Integer_of_lt h (by omega), UInt64.toNat_toUInt8,
    UInt64.toNat_ofNat_of_lt' (hlt.trans (by decide))]
  exact Nat.mod_eq_of_lt hlt

/-! ## RemoteStartTransaction

`bCntrNo` is a `uint32_t` that starts at 1. It is compared with 0, and nothing compares it with
`MAX_CONECTOR_ID`; where it is looked up and where it is stored it is narrowed to a byte. -/

/-- The locals of `DataProcCmd_RmStart`, and the charger whose card number it replaces. -/
def rmStartProp (p : Payload) (l : Bool × UInt32 × Charger) : Bool × UInt32 × Charger :=
  let l := if p.named "idTag" then
    (true, l.2.1, { l.2.2 with scene :=
      { l.2.2.scene with cardNo := p.propertyContants.take 21 } }) else l
  if p.named "connectorId" then (l.1, (string2Integer p.propertyContants).toUInt32, l.2.2) else l

def rmStartLocals (rx : RxBuf) (c : Charger) : Bool × UInt32 × Charger :=
  rx.props.foldl (fun l p => rmStartProp p l) (false, 1, c)

/-- `bCntrNo`. -/
def RxBuf.cntrNo (rx : RxBuf) : UInt32 :=
  ((rx.lastNamed "connectorId").map fun p => (string2Integer p.propertyContants).toUInt32).getD 1

section RmStart
variable {rx : RxBuf} {c : Charger}

theorem rmStart_eq (hlen : rx.msg.payloadLen < payloadCap) (tx : TxBuf) :
    dataProcCmdRmStart rx c tx =
      (let l := rmStartLocals rx c
       if l.1 then (connIdx l.2.1.toUInt8.toNat).bind fun i =>
         if l.2.2.cs.bCpStat i ≠ .charging ∧ 0 < l.2.1 ∧ l.2.1 < 2147483648 ∧
             l.2.2.scene.appOrder ≤ appOrderKakaoQr then
           some ({ l.2.2 with cs := { l.2.2.cs with bReqRmtStartTsNo := l.2.1.toUInt8.toNat } },
             makeCallRes .accept rx tx)
         else some (l.2.2, makeCallRes .rejected rx tx)
       else some (l.2.2, makeCallRes .rejected rx tx)) := by
  have hloop : forProps rx (fun p l => some (rmStartProp p l)) (false, 1, c) =
      some (rmStartLocals rx c) := by
    rw [forProps_eq, if_pos hlen]
    exact List.foldlM_pure
  unfold rmStartProp at hloop
  unfold dataProcCmdRmStart
  dsimp only at hloop ⊢
  rw [hloop]
  rfl

theorem rmStartProp_cntr (p : Payload) (l : Bool × UInt32 × Charger) : (rmStartProp p l).2.1 =
    if p.named "connectorId" then (string2Integer p.propertyContants).toUInt32 else l.2.1 := by
  unfold rmStartProp
  dsimp only
  split
  · rfl
  · split
    · rfl
    · rfl

theorem rmStartLocals_cntrNo : (rmStartLocals rx c).2.1 = rx.cntrNo :=
  foldl_last _ rmStartProp (fun l => l.2.1) (fun p => (string2Integer p.propertyContants).toUInt32)
    rmStartProp_cntr rx.props (false, 1, c)

theorem rmStart_len {tx : TxBuf} {r : Charger × TxBuf} (h : dataProcCmdRmStart rx c tx = some r) :
    rx.msg.payloadLen < payloadCap := by
  by_contra hlen
  unfold dataProcCmdRmStart at h
  rw [forProps_eq, if_neg hlen] at h
  cases h

/-- What a remote start leaves: the order, and only for a number that is not zero. -/
theorem rmStart_cases {tx : TxBuf} {r : Charger × TxBuf} (h : dataProcCmdRmStart rx c tx = some r) :
    (r.2 = makeCallRes .rejected rx tx ∧ r.1.cs = c.cs) ∨
      (0 < rx.cntrNo ∧ r.1.cs.bReqRmtStartTsNo = rx.cntrNo.toUInt8.toNat) := by
  have hlen := rmStart_len h
  have hcs : (rmStartLocals rx c).2.2.cs = c.cs := by
    have hstep : ∀ p l, (rmStartProp p l).2.2.cs = l.2.2.cs := by
      intro p l
      unfold rmStartProp
      dsimp only
      split
      · split
        · rfl
        · rfl
      · split
        · rfl
        · rfl
    refine List.foldlRecOn (motive := fun l : Bool × UInt32 × Charger => l.2.2.cs = c.cs) rx.props _
      ?_ ?_
    · rfl
    · intro l hl p _
      exact (hstep p l).trans hl
  rw [rmStart_eq hlen] at h
  dsimp only at h
  rw [rmStartLocals_cntrNo] at h
  split at h
  · obtain ⟨i, -, h⟩ := Option.bind_eq_some_iff.mp h
    split at h
    · rename_i hpass
      cases Option.some.inj h
      exact .inr ⟨hpass.2.1, rfl⟩
    · cases Option.some.inj h
      exact .inl ⟨rfl, hcs⟩
  · cases Option.some.inj h
    exact .inl ⟨rfl, hcs⟩

/-- **A remote start for connector 0 is not accepted**, however the 0 is written. -/
theorem rmStart_positive {tx : TxBuf} {r : Charger × TxBuf} {ds : List Char}
    (hds : rx.NamesConnector ds) (h : dataProcCmdRmStart rx c tx = some r)
    (ha : AnswersAccepted r.2) : 1 ≤ decVal ds := by
  obtain ⟨hdigits, p, hlast, hp⟩ := hds
  rcases rmStart_cases h with ⟨hrej, -⟩ | ⟨hpos, -⟩
  · rw [hrej] at ha
    exact absurd ha (not_accepts_rejected rx tx)
  · by_contra hzero
    have hval : decVal ds = 0 := by omega
    have hread : string2Integer p.propertyContants = 0 := by
      rw [← string2Integer_cstr, hp, string2Integer_of_lt hdigits (by omega), hval]
      rfl
    unfold RxBuf.cntrNo at hpos
    rw [hlast, Option.map_some, Option.getD_some, hread] at hpos
    exact absurd hpos (by decide)

end RmStart

/-! ## ChangeAvailability

The verdict on the connector is a local that the loop sets for each `connectorId` and that
nothing initialises. So the statement is about requests that name one, with a number that a byte
holds; one above 255 is judged by its low byte. -/

section ChangeAvail
variable {rx : RxBuf} {c : Charger} {j : Junk} {tx : TxBuf} {r : Charger × TxBuf}

/-- `tmp_cntrId` and the verdict on it, which is taken from whatever the stack holds when the
request names no connector. -/
theorem availLocals_cntrId (j : Junk) (ps : List Payload) : (availLocals j ps).cntrId =
    (((ps.filter fun p => p.named "connectorId").getLast?).map fun p =>
      (string2Integer p.propertyContants).toUInt8).getD j.cntrId := by
  refine foldl_last _ changeAvailProp (fun l => l.cntrId)
    (fun p => (string2Integer p.propertyContants).toUInt8) ?_ ps _
  intro p l
  cases hp : p.named "connectorId" with
  | true => rw [changeAvailProp_connector l hp, if_pos rfl]
  | false =>
    by_cases ht : SetsType p
    · rw [changeAvailProp_type l ht, if_neg (by simp)]
    · rw [changeAvailProp_reject l hp ht, if_neg (by simp)]

theorem availLocals_rejected1 (j : Junk) (ps : List Payload) : (availLocals j ps).rejected1 =
    (((ps.filter fun p => p.named "connectorId").getLast?).map fun p =>
      decide (maxConectorId < (string2Integer p.propertyContants).toUInt8.toNat)).getD j.rejected1 := by
  refine foldl_last _ changeAvailProp (fun l => l.rejected1)
    (fun p => decide (maxConectorId < (string2Integer p.propertyContants).toUInt8.toNat)) ?_ ps _
  intro p l
  cases hp : p.named "connectorId" with
  | true => rw [changeAvailProp_connector l hp, if_pos rfl]
  | false =>
    by_cases ht : SetsType p
    · rw [changeAvailProp_type l ht, if_neg (by simp)]
    · rw [changeAvailProp_reject l hp ht, if_neg (by simp)]

theorem changeAvail_len (h : dataProcCmdChangeAvail j rx c tx = some r) :
    rx.msg.payloadLen < payloadCap := by
  by_contra hlen
  unfold dataProcCmdChangeAvail at h
  rw [forProps_eq, if_neg hlen] at h
  cases h

theorem changeAvail_verdict (h : dataProcCmdChangeAvail j rx c tx = some r)
    (ha : AnswersAccepted r.2) : (availLocals j rx.props).rejected1 = false := by
  rw [changeAvail_eq j (changeAvail_len h)] at h
  dsimp only at h
  split at h
  · cases Option.some.inj h
    exact absurd ha (not_accepts_rejected rx tx)
  · rename_i hpass
    simp only [Bool.or_eq_true, not_or, Bool.not_eq_true] at hpass
    exact hpass.1.1

/-- **A connector that a byte can name is checked.** -/
theorem changeAvail_checked {ds : List Char} (hds : rx.NamesConnector ds) (hlt : decVal ds < 256)
    (h : dataProcCmdChangeAvail j rx c tx = some r) (ha : AnswersAccepted r.2) :
    decVal ds ≤ maxConectorId := by
  obtain ⟨hdigits, p, hlast, hp⟩ := hds
  have hverdict := changeAvail_verdict h ha
  have hlast : (rx.props.filter fun p => p.named "connectorId").getLast? = some p := hlast
  rw [availLocals_rejected1, hlast, Option.map_some, Option.getD_some, decide_eq_false_iff_not,
    ← string2Integer_cstr, hp, byte_of_digits hdigits hlt] at hverdict
  exact Nat.le_of_not_lt hverdict

end ChangeAvail

/-! ## TriggerMessage

The connector is looked at for a StatusNotification and for MeterValues only. The other messages
are about the charge point, and a request for them may name any connector or none. -/

section TriggerMsg
variable {rx : RxBuf} {c : Charger} {tx : TxBuf} {r : Charger × TxBuf}

def triggerMsgProp (p : Payload) (l : TrigMsgStat × UInt8) : TrigMsgStat × UInt8 :=
  if p.named "requestedMessage" then (trigMsgOf p l.1, l.2)
  else if p.named "connectorId" then (l.1, (string2Integer p.propertyContants).toUInt8)
  else l

/-- The message a request asks for. -/
def RxBuf.requested (rx : RxBuf) : TrigMsgStat :=
  (rx.props.foldl (fun l p => triggerMsgProp p l) (.none, 0)).1

/-- The message is one about a connector. -/
def RxBuf.asksConnector (rx : RxBuf) : Prop := rx.requested = .stat ∨ rx.requested = .meter

theorem triggerMsg_body : (fun p (l : TrigMsgStat × UInt8) =>
    if p.named "requestedMessage" then some (trigMsgOf p l.1, l.2)
    else if p.named "connectorId" then some (l.1, (string2Integer p.propertyContants).toUInt8)
    else some l) = fun p l => some (triggerMsgProp p l) := by
  funext p l
  unfold triggerMsgProp
  split
  · rfl
  · split
    · rfl
    · rfl

theorem triggerMsg_cases (h : dataProcCmdTriggerMsg rx c tx = some r) :
    AnswersAccepted r.2 ↔ rx.requested ≠ .none ∧ (rx.asksConnector →
      (((rx.lastNamed "connectorId").map fun p =>
        (string2Integer p.propertyContants).toUInt8).getD 0).toNat ≤ maxConectorId) := by
  unfold dataProcCmdTriggerMsg at h
  rw [triggerMsg_body] at h
  obtain ⟨l, hl, h⟩ := Option.bind_eq_some_iff.mp h
  obtain ⟨-, rfl⟩ := forProps_foldl hl
  -- the loop keeps the connector named last, and no property is both the message and the id
  have hcntr : (rx.props.foldl (fun l p => triggerMsgProp p l) (.none, 0)).2 =
      ((rx.lastNamed "connectorId").map fun p =>
        (string2Integer p.propertyContants).toUInt8).getD 0 := by
    refine foldl_last _ triggerMsgProp (fun l => l.2)
      (fun p => (string2Integer p.propertyContants).toUInt8) ?_ rx.props (.none, 0)
    intro p l
    unfold triggerMsgProp
    cases hreq : p.named "requestedMessage" with
    | true =>
      have hne := named_ne (show "requestedMessage".toList ≠ "connectorId".toList by decide) hreq
      rw [if_pos rfl, hne, if_neg (by simp)]
    | false =>
      rw [if_neg (by simp)]
      split
      · rfl
      · rfl
  rw [← hcntr]
  unfold RxBuf.asksConnector RxBuf.requested
  dsimp only at h
  split at h
  · rename_i hrej
    cases Option.some.inj h
    refine iff_of_false (not_accepts_rejected rx tx) ?_
    rintro ⟨hsome, hle⟩
    rcases hrej with hnone | ⟨hconn, hgt⟩
    · exact hsome hnone
    · exact absurd (hle hconn) (Nat.not_le.mpr hgt)
  · rename_i hpass
    cases Option.some.inj h
    refine iff_of_true ((makeCallRes_accepts _ rx tx).mpr rfl) ?_
    rw [not_or, not_and] at hpass
    exact ⟨hpass.1, fun hconn => Nat.le_of_not_lt (hpass.2 hconn)⟩

theorem triggerMsg_total (hlen : rx.msg.payloadLen < payloadCap) (tx : TxBuf) :
    ∃ r, dataProcCmdTriggerMsg rx c tx = some r := by
  obtain ⟨l, hl⟩ := forProps_map hlen triggerMsgProp (.none, 0)
  unfold dataProcCmdTriggerMsg
  rw [triggerMsg_body, hl]
  dsimp only [Option.bind_eq_bind, Option.bind_some]
  split
  · exact ⟨_, rfl⟩
  · exact ⟨_, rfl⟩

/-- **A message about a connector is about one that a byte can name and that exists.** -/
theorem triggerMsg_checked {ds : List Char} (hds : rx.NamesConnector ds) (hlt : decVal ds < 256)
    (hask : rx.asksConnector) (h : dataProcCmdTriggerMsg rx c tx = some r)
    (ha : AnswersAccepted r.2) : decVal ds ≤ maxConectorId := by
  obtain ⟨hdigits, p, hlast, hp⟩ := hds
  have hle := ((triggerMsg_cases h).mp ha).2 hask
  rw [hlast, Option.map_some, Option.getD_some, ← string2Integer_cstr, hp,
    byte_of_digits hdigits hlt] at hle
  exact hle

/-- Any other message is triggered whatever connector is named. -/
theorem triggerMsg_unchecked (hask : ¬ rx.asksConnector)
    (h : dataProcCmdTriggerMsg rx c tx = some r) : AnswersAccepted r.2 ↔ rx.requested ≠ .none := by
  rw [triggerMsg_cases h]
  exact and_iff_left fun hconn => absurd hconn hask

end TriggerMsg

/-! ## Indices

The model of a handler is `none` where an index leaves its array, and `callIndices` lists the
indices it computes. `rxCallDataProc_isSome` says that the list is complete: a handler whose
indices exist, and whose keys are there to be read, has a result. -/

/-- The indices a handler computes. -/
def callIndices (cmd : CsReqAction) (j : Junk) (rx : RxBuf) (c : Charger) : List Nat :=
  match cmd with
  | .remoteStart => if (rmStartLocals rx c).1 then [rx.cntrNo.toUInt8.toNat] else []
  | .changeAvail =>
    let l := availLocals j rx.props
    if l.rejected1 || l.rejected2 || c.scene.appOrder ≠ appOrderWait then []
    else if l.cntrId = 0 then [0, 1]
    else [l.cntrId.toNat]
  | .remoteStop =>
    if (rx.msg.payload 0).named "transactionId" then [c.bDevChannel.toNat + 1] else []
  | _ => []

/-- The handlers leave their arrays exactly when an index is too large. -/
theorem connIdx_isSome {n : Nat} : (connIdx n).isSome = true ↔ n ≤ maxConectorId := by
  unfold connIdx
  split
  · rename_i hlt
    exact iff_of_true rfl (Nat.le_of_lt_succ hlt)
  · rename_i hge
    exact iff_of_false (by decide) fun hle => hge (Nat.lt_succ_of_le hle)

/-- GetConfiguration reads the names it is asked for behind a pointer, up to the first it does not
know. -/
def RxBuf.HoldsKeys (rx : RxBuf) (c : Charger) : Prop :=
  (rx.msg.payload 0).named "key" = true → ∀ n ≤ (rx.msg.payload 0).subPayloadLen,
    (∀ m < n, ∃ q, rx.deref (rx.msg.payload 0).subPayload m = some q ∧
      (findCfgKey c (cstr q.propertyContants)).isSome = true) →
    (rx.deref (rx.msg.payload 0).subPayload n).isSome = true

/-- What a handler reads is there: the connectors it computes, and the names it is asked for. -/
structure HandlerFits (cmd : CsReqAction) (j : Junk) (rx : RxBuf) (c : Charger) : Prop where
  indices : ∀ i ∈ callIndices cmd j rx c, i ≤ maxConectorId
  keys : cmd = .getConfig → rx.HoldsKeys c

section Fits
variable {j : Junk} {rx : RxBuf} {c : Charger}

/-- The loop over the keys, from key `n` on, of which the ones before are known. -/
theorem getConfigLoop_isSome (k n : Nat) (tx : TxBuf) :
    (getConfigLoop rx c k n tx).isSome = true ↔ ∀ i < k,
      (∀ m < i, ∃ q, rx.deref (rx.msg.payload 0).subPayload (n + m) = some q ∧
        (findCfgKey c (cstr q.propertyContants)).isSome = true) →
      (rx.deref (rx.msg.payload 0).subPayload (n + i)).isSome = true := by
  induction k generalizing n tx with
  | zero => exact iff_of_true rfl fun i hi => absurd hi (Nat.not_lt_zero i)
  | succ k ih =>
    unfold getConfigLoop
    cases hq : rx.deref (rx.msg.payload 0).subPayload n with
    | none =>
      refine iff_of_false (by simp) fun h => ?_
      have hfirst := h 0 (Nat.zero_lt_succ k) fun m hm => absurd hm (Nat.not_lt_zero m)
      rw [Nat.add_zero, hq] at hfirst
      exact absurd hfirst (by simp)
    | some q =>
      dsimp only
      cases hkey : findCfgKey c (cstr q.propertyContants) with
      | none =>
        -- an unknown key ends the loop, so nothing behind it is read
        refine iff_of_true rfl fun i _ hknown => ?_
        cases i with
        | zero => rw [Nat.add_zero, hq]; rfl
        | succ i =>
          obtain ⟨q', hq', hknown⟩ := hknown 0 (Nat.zero_lt_succ i)
          rw [Nat.add_zero, hq, Option.some.injEq] at hq'
          subst hq'
          rw [hkey] at hknown
          exact absurd hknown (by simp)
      | some key =>
        -- the loop goes on one entry further, with one turn less
        have hshift : ∀ m, n + 1 + m = n + (m + 1) := fun m => by omega
        dsimp only
        rw [ih]
        simp only [hshift]
        constructor
        · intro h i hi hknown
          cases i with
          | zero => rw [Nat.add_zero, hq]; rfl
          | succ i => exact h i (by omega) fun m hm => hknown (m + 1) (by omega)
        · intro h i hi hknown
          refine h (i + 1) (by omega) fun m hm => ?_
          cases m with
          | zero => exact ⟨q, hq, by rw [hkey]; rfl⟩
          | succ m => exact hknown m (by omega)

theorem getConfig_isSome (tx : TxBuf) :
    (dataProcCmdGetConfig rx c tx).isSome = true ↔ rx.HoldsKeys c := by
  unfold dataProcCmdGetConfig RxBuf.HoldsKeys
  dsimp only
  split
  · rename_i hempty
    refine iff_of_true rfl fun hnamed => ?_
    rw [Payload.named, hempty] at hnamed
    exact absurd hnamed (by decide)
  · split
    · rename_i hnamed
      rw [Option.isSome_map, getConfigLoop_isSome]
      simp only [hnamed, true_imp_iff, Nat.zero_add, Nat.lt_succ_iff]
    · rename_i hnamed
      exact iff_of_true rfl fun h => absurd h hnamed

/-- A loop over the properties and what follows it, where neither can leave an array. -/
theorem forProps_bind_isSome {σ τ : Type} {body : Payload → σ → Option σ} {f : σ → Option τ}
    (hlen : rx.msg.payloadLen < payloadCap) (hbody : ∀ p s, (body p s).isSome = true)
    (hf : ∀ s, (f s).isSome = true) (s : σ) : ((forProps rx body s).bind f).isSome = true := by
  obtain ⟨s', hs', -⟩ := forProps_total (I := fun _ _ => True) hlen
    (fun i t _ _ => ⟨_, Option.eq_some_of_isSome (hbody (rx.msg.payload i) t), trivial⟩)
    (s := s) trivial
  rw [hs', Option.bind_some]
  exact hf s'

/-- **When the handler of a request leaves no array.** -/
theorem rxCallDataProc_isSome {cmd : CsReqAction} {tx : TxBuf}
    (hlen : rx.msg.payloadLen < payloadCap) :
    (rxCallDataProc cmd j rx c tx).isSome = true ↔ HandlerFits cmd j rx c := by
  have hone : ∀ {n : Nat}, (∀ i ∈ [n], i ≤ maxConectorId) ↔ n ≤ maxConectorId := by
    intro n
    simp
  have hbind : ∀ {α : Type} (n : Nat) (f : Fin 2 → Option α), (∀ i, (f i).isSome = true) →
      (((connIdx n).bind f).isSome = true ↔ n ≤ maxConectorId) := by
    intro α n f hf
    rw [← connIdx_isSome]
    cases connIdx n with
    | none => simp
    | some i => simp [hf i]
  have hfits : cmd ≠ .getConfig →
      (HandlerFits cmd j rx c ↔ ∀ i ∈ callIndices cmd j rx c, i ≤ maxConectorId) := fun hne =>
    ⟨fun h => h.indices, fun h => ⟨h, fun hcmd => absurd hcmd hne⟩⟩
  -- a handler that only reads the properties
  have hreads : cmd ≠ .getConfig → callIndices cmd j rx c = [] →
      (rxCallDataProc cmd j rx c tx).isSome = true →
      ((rxCallDataProc cmd j rx c tx).isSome = true ↔ HandlerFits cmd j rx c) := by
    intro hne hnil hsome
    rw [hfits hne, hnil]
    exact iff_of_true hsome fun i hi => absurd hi List.not_mem_nil
  cases cmd with
  | remoteStart =>
    rw [hfits (by decide)]
    show (dataProcCmdRmStart rx c _).isSome = true ↔ _
    rw [rmStart_eq hlen]
    unfold callIndices
    dsimp only
    split
    · rw [hone, rmStartLocals_cntrNo]
      refine hbind _ _ fun i => ?_
      split
      · rfl
      · rfl
    · simp
  | changeAvail =>
    rw [hfits (by decide)]
    show (dataProcCmdChangeAvail j rx c _).isSome = true ↔ _
    rw [changeAvail_eq j hlen]
    unfold callIndices
    dsimp only
    split
    · simp
    · split
      · simp [maxConectorId]
      · rw [hone]
        exact hbind _ _ fun i => rfl
  | remoteStop =>
    rw [hfits (by decide)]
    show (dataProcCmdRmStopTr rx c _).isSome = true ↔ _
    unfold dataProcCmdRmStopTr callIndices Charger.devConn
    dsimp only
    split
    · rw [hone, Option.isSome_map, connIdx_isSome]
    · simp
  | getConfig =>
    show ((dataProcCmdGetConfig rx c _).map _).isSome = true ↔ _
    rw [Option.isSome_map, getConfig_isSome]
    exact ⟨fun h => ⟨fun i hi => absurd hi List.not_mem_nil, fun _ => h⟩, fun h => h.keys rfl⟩
  | triggerMsg =>
    refine hreads (by decide) rfl ?_
    obtain ⟨r, hr⟩ := triggerMsg_total (c := c) hlen
      { tx with msg := { tx.msg with msgType := msgTypeCallRes } }
    exact Option.isSome_iff_exists.mpr ⟨r, hr⟩
  | dataTransfer =>
    refine hreads (by decide) rfl ?_
    refine forProps_bind_isSome hlen (fun p l => ?_) (fun l => ?_) _
    · split
      · rfl
      · split
        · rfl
        · split
          · rfl
          · rfl
    · dsimp only
      split
      · rfl
      · rfl
  | getDiag =>
    refine hreads (by decide) rfl (forProps_bind_isSome hlen (fun p d => ?_) (fun _ => rfl) _)
    split
    · rfl
    · rfl
  | unlockConnect =>
    refine hreads (by decide) rfl (forProps_bind_isSome hlen (fun p d => ?_) (fun _ => rfl) _)
    split
    · rfl
    · rfl
  | updateFw =>
    exact hreads (by decide) rfl (forProps_bind_isSome hlen (fun _ _ => rfl) (fun _ => rfl) _)
  | none | cancelReseve | changeConfig | clearCache | clearChargProf | getCompositSched
  | getLocalVer | reserve | reset | sndLocalList | setChgProfile =>
    exact hreads (by decide) rfl rfl

end Fits

/-- The indices the handler of an answer computes. -/
def Client.confIndices (s : Client) : CpReqAction → List Nat
  | .stat => [(string2Integer (s.callTxMsg.payload 0).propertyContants).toUInt8.toNat]
  | .startTs | .stopTs => [s.cp.bDevChannel.toNat + 1]
  | _ => []

/-- **The indices an event computes** for `bCpStat`, `bPreCpStat` and `bTrId`: the connector in
use, which every thread reads at any time, and what a message or a screen names. -/
def Client.indices (s : Client) (e : Event) : List Nat :=
  (s.cp.bDevChannel.toNat + 1) ::
    match e with
    | .recv frame j _ _ =>
      match parseData s.callTxMsg.actionCode s.dataTransUniqueId clearRxMsgBuff frame with
      | some ⟨false, rx, _⟩ =>
        match rx.msg.actionCode with
        | .cs cmd => callIndices cmd j rx s.cp
        | .cp a => if s.bWaitResFlg = true ∧ rx.msg.msgType = 3 then s.confIndices a else []
      | _ => []
    | .env (.setCpStatus _ ch) => [ch]
    | _ => []

/-! ## Runs

`bDevChannel` is what carries an id from an accepted request to the rest of the program, long after
the request. The invariant is that it is 0, and that a remote start that waits is for a connector
that exists: the status task turns connector 1 into channel 0 again. -/

/-- What the other threads write of it: `bDevChannel` is 0, or one below the number of an
accepted remote start, as a `bool`; the number is cleared; a screen sets the status of the
charge point, of connector 1 or of the connector in use. -/
def Client.ScreenWrites (s : Client) : Event → Prop
  | .env (.devChannel b) => b = false ∨
      (s.cp.cs.bReqRmtStartTsNo ≠ 0 ∧ b = decide (s.cp.cs.bReqRmtStartTsNo ≠ 1))
  | .env (.rmtStart n) => n = 0
  | .env (.setCpStatus _ ch) => ch ≤ maxConectorId ∨ ch = s.cp.bDevChannel.toNat + 1
  | _ => True

/-- A remote start names no connector above the last, and a change of the availability names
one. -/
def RxBuf.StartsConnector (rx : RxBuf) : Prop :=
  (rx.msg.actionCode = .cs .remoteStart →
    ∀ p, rx.lastNamed "connectorId" = some p →
      (string2Integer p.propertyContants).toNat ≤ maxConectorId) ∧
  (rx.msg.actionCode = .cs .changeAvail → ∃ p, rx.lastNamed "connectorId" = some p)

/-- Such are the requests that are received, and the screens behave. -/
def Client.IdsGiven (s : Client) (e : Event) : Prop :=
  s.ScreenWrites e ∧ ∀ frame j k sendOk, e = .recv frame j k sendOk → ∀ rx dt,
    parseData s.callTxMsg.actionCode s.dataTransUniqueId clearRxMsgBuff frame =
      some ⟨false, rx, dt⟩ → rx.StartsConnector

/-- The invariant: the first channel is in use, and nothing else was ordered. -/
structure FirstChannel (s : Client) : Prop where
  dev : s.cp.bDevChannel = false
  start : s.cp.cs.bReqRmtStartTsNo ≤ maxConectorId
  named : s.awaitsStat = true → ∃ i : Fin 2, (s.callTxMsg.payload 0).propertyContants = dec i.val

/-- A number that is small stays so when it is narrowed. -/
theorem narrow_le {v : UInt64} (h : v.toNat ≤ maxConectorId) :
    v.toUInt32.toUInt8.toNat ≤ maxConectorId ∧ v.toUInt8.toNat ≤ maxConectorId := by
  unfold maxConectorId at *
  rw [UInt32.toNat_toUInt8, UInt64.toNat_toUInt32, UInt64.toNat_toUInt8]
  omega

theorem RxBuf.StartsConnector.cntrNo {rx : RxBuf} (h : rx.StartsConnector)
    (hact : rx.msg.actionCode = .cs .remoteStart) : rx.cntrNo.toUInt8.toNat ≤ maxConectorId := by
  unfold RxBuf.cntrNo
  cases hlast : rx.lastNamed "connectorId" with
  | none => exact Nat.le_refl 1
  | some p => exact (narrow_le (h.1 hact p hlast)).1

theorem firstChannel_step {s s' : Client} {e : Event} {o : List Obs} (hi : FirstChannel s)
    (hok : s.IdsGiven e) (h : step s e = some (s', o)) : FirstChannel s' := by
  have hkept : s'.cp.bDevChannel = s.cp.bDevChannel →
      s'.cp.cs.bReqRmtStartTsNo = s.cp.cs.bReqRmtStartTsNo → FirstChannel s' :=
    fun hdev hstart => ⟨hdev.trans hi.dev, hstart ▸ hi.start, statNamed_step hi.named h⟩
  cases step_cases h with
  | quiet f rx b hs =>
    subst hs
    exact hkept rfl rfl
  | raised k he hreq hs =>
    subst hs
    exact hkept rfl rfl
  | sampled k f ty he hty hdue hs =>
    subst hs
    exact hkept rfl rfl
  | connected k sendOk he hc hs =>
    subst hs
    exact hkept rfl rfl
  | ticked k sendOk connectOk he hc ht => exact hkept ht.remote.2 ht.remote.1
  | received frame j k sendOk he hc hr =>
    subst he
    have hrecv : s.tsctCurlWsRecv frame j k sendOk = some (s', o) := by
      simpa [step, hc] using h
    rcases Client.recv_cp hrecv with hcp | ⟨rx, hconf⟩ | ⟨rx, dt, cmd, tx, hparse, hact, hserve⟩
    · exact hkept (by rw [hcp]) (by rw [hcp])
    · have horders := Charger.orders_eq (rxCallResDataProc_orders hconf)
      exact hkept horders.2.2.2 horders.1
    · have horders := rxCallDataProc_orders hserve
      have hdev : s'.cp.bDevChannel = s.cp.bDevChannel := congrArg Orders.bDevChannel horders
      have hstart : s'.cp.cs.bReqRmtStartTsNo = _ := congrArg Orders.bReqRmtStartTsNo horders
      by_cases hcmd : cmd = .remoteStart
      · subst hcmd
        -- the order is the byte the id was narrowed to
        rcases rmStart_cases (r := (s'.cp, tx)) hserve with ⟨-, hcs⟩ | ⟨-, hno⟩
        · have hcs : s'.cp.cs = s.cp.cs := hcs
          exact hkept hdev (by rw [hcs])
        · have hno : s'.cp.cs.bReqRmtStartTsNo = rx.cntrNo.toUInt8.toNat := hno
          refine ⟨hdev.trans hi.dev, ?_, statNamed_step hi.named h⟩
          rw [hno]
          exact (hok.2 _ _ _ _ rfl rx dt hparse).cntrNo hact
      · rw [if_neg hcmd] at hstart
        exact hkept hdev hstart
  | env w c he hw hs =>
    subst he hs
    cases w with
    | devChannel b =>
      cases Option.some.inj hw
      refine ⟨?_, hi.start, statNamed_step hi.named h⟩
      rcases hok.1 with hfalse | ⟨hne, hone⟩
      · exact hfalse
      · -- the only number that can stand there is 1
        have hstart : s.cp.cs.bReqRmtStartTsNo = 1 := by
          have hle : s.cp.cs.bReqRmtStartTsNo ≤ 1 := hi.start
          omega
        show b = false
        rw [hone, hstart]
        rfl
    | rmtStart n =>
      cases Option.some.inj hw
      refine ⟨hi.dev, ?_, statNamed_step hi.named h⟩
      have hzero : n = 0 := hok.1
      rw [hzero]
      exact Nat.zero_le _
    | setCpStatus code ch =>
      obtain ⟨i, -, hw⟩ := Option.map_eq_some_iff.mp hw
      cases hw
      exact hkept rfl rfl
    | scene | reqStopTs | reqStartTs | reqAuth | scndCardNo | clearParentId | qrEvent | rmtStop
    | diagLogReqStep | updateStep | chargingStatus | stopTsConfig =>
      cases Option.some.inj hw
      exact hkept rfl rfl

/-- With the invariant, the indices of an event exist. -/
theorem FirstChannel.indices {s : Client} (hi : FirstChannel s) {e : Event} (hok : s.IdsGiven e) :
    ∀ i ∈ s.indices e, i ≤ maxConectorId := by
  have hdev : s.cp.bDevChannel.toNat + 1 ≤ maxConectorId := by
    rw [hi.dev]
    exact Nat.le_refl 1
  -- every step uses the channel's own index; the other ones come with the event
  intro i hmem
  rcases List.mem_cons.mp hmem with rfl | hmem
  · exact hdev
  · cases e with
    | recv frame j k sendOk =>
      dsimp only at hmem
      split at hmem
      · rename_i rx dt hparse
        have hgiven := hok.2 _ _ _ _ rfl rx dt hparse
        split at hmem
        · rename_i cmd hact
          cases cmd with
          | remoteStart =>
            unfold callIndices at hmem
            dsimp only at hmem
            split at hmem
            · rw [List.mem_singleton.mp hmem]
              exact hgiven.cntrNo hact
            · exact absurd hmem List.not_mem_nil
          | changeAvail =>
            unfold callIndices at hmem
            dsimp only at hmem
            split at hmem
            · exact absurd hmem List.not_mem_nil
            · rename_i hpass
              simp only [Bool.or_eq_true, not_or, Bool.not_eq_true] at hpass
              split at hmem
              · rcases List.mem_cons.mp hmem with rfl | hmem
                · exact Nat.zero_le _
                · rw [List.mem_singleton.mp hmem]
                  exact Nat.le_refl 1
              · -- the verdict is about the id that is used
                obtain ⟨p, hlast⟩ := hgiven.2 hact
                have hlast : (rx.props.filter fun p => p.named "connectorId").getLast? = some p := hlast
                have hverdict := hpass.1.1
                rw [availLocals_rejected1, hlast, Option.map_some, Option.getD_some,
                  decide_eq_false_iff_not] at hverdict
                rw [List.mem_singleton.mp hmem, availLocals_cntrId, hlast, Option.map_some,
                  Option.getD_some]
                exact Nat.le_of_not_lt hverdict
          | remoteStop =>
            unfold callIndices at hmem
            dsimp only at hmem
            split at hmem
            · rw [List.mem_singleton.mp hmem]
              exact hdev
            · exact absurd hmem List.not_mem_nil
          | none | cancelReseve | changeConfig | clearCache | clearChargProf | dataTransfer
          | getCompositSched | getConfig | getDiag | getLocalVer | reserve | reset | sndLocalList
          | setChgProfile | triggerMsg | unlockConnect | updateFw =>
            exact absurd hmem List.not_mem_nil
        · rename_i a hact
          split at hmem
          · rename_i hwait
            have ha : a = s.callTxMsg.actionCode := by
              rcases parseData_accepted hparse with ⟨-, hcp, -⟩ | ⟨htwo, -⟩ | hfour
              · exact RxAction.cp.inj (hact.symm.trans hcp)
              · exact absurd (htwo.symm.trans hwait.2) (by decide)
              · exact absurd (hfour.symm.trans hwait.2) (by decide)
            -- the answer to a StatusNotification is for the connector that its CALL names
            have hconf : a = .stat → ∀ i ∈ s.confIndices .stat, i ≤ maxConectorId := by
              intro hstat i hmem
              obtain ⟨n, hn⟩ := hi.named (by simp [Client.awaitsStat, hwait.1, ← ha, hstat])
              rw [List.mem_singleton.mp hmem, hn, ← connIdx_isSome, connIdx_dec]
              rfl
            cases a with
            | stat => exact hconf rfl i hmem
            | startTs | stopTs =>
              rw [List.mem_singleton.mp hmem]
              exact hdev
            | none | auth | boot | dataTrans | diagStat | fwStat | hb | meterVal =>
              exact absurd hmem List.not_mem_nil
          · exact absurd hmem List.not_mem_nil
      · exact absurd hmem List.not_mem_nil
    | env w =>
      cases w with
      | setCpStatus code ch =>
        rw [List.mem_singleton.mp hmem]
        rcases hok.1 with hle | heq
        · exact hle
        · rw [heq]
          exact hdev
      | scene | reqStopTs | reqStartTs | reqAuth | scndCardNo | clearParentId | qrEvent | rmtStart
      | rmtStop | diagLogReqStep | updateStep | chargingStatus | devChannel | stopTsConfig =>
        exact absurd hmem List.not_mem_nil
    | raiseStart | sample | linkDown | netDown | netRun | recvFail =>
      exact absurd hmem List.not_mem_nil

/-- **Connector ids.** An accepted request names a connector that exists, as far as the handler
checks it: a remote start not 0, the other two none above the last, among the numbers a byte
holds. And in every run of remote starts for connectors that exist, every index does. -/
theorem connector_ids_in_range :
    (∀ cmd j rx c tx ds r, rx.NamesConnector ds → rxCallDataProc cmd j rx c tx = some r →
      AnswersAccepted r.2 →
        (cmd = .remoteStart → 1 ≤ decVal ds) ∧
        (cmd = .changeAvail → decVal ds < 256 → decVal ds ≤ maxConectorId) ∧
        (cmd = .triggerMsg → rx.asksConnector → decVal ds < 256 → decVal ds ≤ maxConectorId)) ∧
    ∀ s log, RunIf (fun s _ e => s.IdsGiven e) s log →
      ∀ e, s.IdsGiven e → ∀ i ∈ s.indices e, i ≤ maxConectorId := by
  constructor
  · intro cmd j rx c tx ds r hds hserve ha
    refine ⟨?_, ?_, ?_⟩
    · rintro rfl
      exact rmStart_positive hds hserve ha
    · rintro rfl hlt
      exact changeAvail_checked hds hlt hserve ha
    · rintro rfl hask hlt
      exact triggerMsg_checked hds hlt hask hserve ha
  · rintro s log ⟨st, now, hrun⟩ e hok
    have hi : FirstChannel s := hrun.invariant (I := fun s _ => FirstChannel s)
      ⟨rfl, Nat.zero_le _, fun h => absurd h (by simp [Client.init, Client.awaitsStat])⟩
      fun hi hok hstep => firstChannel_step hi hok hstep
    exact hi.indices hok

def startFrame (id : String) : List Char :=
  ("[2,\"1\",\"RemoteStartTransaction\",\x7b\"connectorId\":" ++ id ++
    ",\"idTag\":\"A1\"\x7d]").toList

theorem startFrame_reads (id : String)
    (h : readsProps .remoteStart (startFrame id) [strProp "connectorId" id, strProp "idTag" "A1"] =
      true) (hid : Digits id.toList) :
    ∃ rx, ReadAs (startFrame id) .remoteStart rx ∧ rx.NamesConnector id.toList ∧
      rx.msg.payloadLen < payloadCap ∧ rx.props = [strProp "connectorId" id, strProp "idTag" "A1"] := by
  obtain ⟨rx, hread, hlen, -, hprops⟩ := readsProps_read h
  refine ⟨rx, hread, ⟨hid, strProp "connectorId" id, ?_, cstr_of_nulFree hid.nulFree⟩, hlen, hprops⟩
  unfold RxBuf.lastNamed
  rw [hprops]
  rfl

/-- A remote start on a charger at rest, for a number that passes. -/
theorem startFrame_accepted {rx : RxBuf} {id : String} {n : UInt32} {i : Fin 2} (tx : TxBuf)
    (hlen : rx.msg.payloadLen < payloadCap)
    (hprops : rx.props = [strProp "connectorId" id, strProp "idTag" "A1"])
    (hn : (string2Integer id.toList).toUInt32 = n) (hi : connIdx n.toUInt8.toNat = some i)
    (hpos : 0 < n) (hint : n < 2147483648) :
    ∃ r, rxCallDataProc .remoteStart .zero rx (.init 0) tx = some r ∧ AnswersAccepted r.2 := by
  have hlocals : rmStartLocals rx (.init 0) = (true, n, { Charger.init 0 with scene :=
      { (Charger.init 0).scene with cardNo := ['A', '1'] } }) := by
    unfold rmStartLocals
    rw [hprops, ← hn]
    rfl
  let tx' : TxBuf := { tx with msg := { tx.msg with msgType := msgTypeCallRes } }
  have hserve : ∃ d, dataProcCmdRmStart rx (.init 0) tx' = some (d, makeCallRes .accept rx tx') := by
    rw [rmStart_eq hlen]
    dsimp only
    rw [hlocals]
    dsimp only
    rw [if_pos rfl, hi, Option.bind_some, if_pos ⟨by simp [Charger.init], hpos, hint, Nat.zero_le _⟩]
    exact ⟨_, rfl⟩
  obtain ⟨d, hd⟩ := hserve
  exact ⟨(d, makeCallRes .accept rx tx'), hd, (makeCallRes_accepts .accept rx tx').mpr rfl⟩

/-- A charger at rest takes a remote start for connector 1. -/
theorem connector_ids_in_range_first : ∃ rx r, ReadAs (startFrame "1") .remoteStart rx ∧
    rxCallDataProc .remoteStart .zero rx (.init 0) .zero = some r ∧ AnswersAccepted r.2 ∧
    1 ≤ decVal ['1'] ∧ ∀ k, ∀ i ∈ (Client.init 0 0).indices (.recv (startFrame "1") .zero k true),
      i ≤ maxConectorId := by
  obtain ⟨rx, hread, hnames, hlen, hprops⟩ :=
    startFrame_reads "1" (by decide +kernel) (by decide)
  obtain ⟨r, hserve, ha⟩ := startFrame_accepted (n := 1) (i := 1) .zero hlen hprops (by decide)
    (by decide) (by decide) (by decide)
  refine ⟨rx, r, hread, hserve, ha,
    (connector_ids_in_range.1 _ _ _ _ _ _ _ hnames hserve ha).1 rfl, fun k =>
    connector_ids_in_range.2 _ _ ⟨0, 0, .start⟩ _
      ⟨trivial, fun frame j k sendOk he rx' dt hparse => ?_⟩⟩
  cases he
  obtain ⟨dt', hrx⟩ := hread.parse
  cases Option.some.inj (hrx.symm.trans hparse)
  refine ⟨fun _ p hp => ?_, fun hact => ?_⟩
  · unfold RxBuf.lastNamed at hp
    rw [hprops] at hp
    cases hp
    decide
  · exact absurd (hread.action.symm.trans hact) (by decide)

/-- A heartbeat is triggered for connector 7; and a remote start is taken for connector 257,
which a byte reads as 1. -/
theorem connector_ids_loose :
    (∃ rx r, ReadAs ("[2,\"1\",\"TriggerMessage\",\x7b\"requestedMessage\":\"Heartbeat\"," ++
        "\"connectorId\":7\x7d]").toList .triggerMsg rx ∧ rx.NamesConnector ['7'] ∧
      rxCallDataProc .triggerMsg .zero rx (.init 0) .zero = some r ∧ AnswersAccepted r.2 ∧
      ¬ decVal ['7'] ≤ maxConectorId) ∧
    ∃ rx r, ReadAs (startFrame "257") .remoteStart rx ∧ rx.NamesConnector ['2', '5', '7'] ∧
      rxCallDataProc .remoteStart .zero rx (.init 0) .zero = some r ∧ AnswersAccepted r.2 ∧
      ¬ decVal ['2', '5', '7'] ≤ maxConectorId := by
  constructor
  · have hreads : readsProps .triggerMsg
        ("[2,\"1\",\"TriggerMessage\",\x7b\"requestedMessage\":\"Heartbeat\"," ++
          "\"connectorId\":7\x7d]").toList
        [strProp "requestedMessage" "Heartbeat", strProp "connectorId" "7"] = true := by
      decide +kernel
    obtain ⟨rx, hread, hlen, -, hprops⟩ := readsProps_read hreads
    have hlast : rx.lastNamed "connectorId" = some (strProp "connectorId" "7") := by
      unfold RxBuf.lastNamed
      rw [hprops]
      rfl
    have hhb : rx.requested = .hb := by
      unfold RxBuf.requested
      rw [hprops]
      rfl
    obtain ⟨r, hserve⟩ := triggerMsg_total (c := .init 0) hlen
      { TxBuf.zero with msg := { TxBuf.zero.msg with msgType := msgTypeCallRes } }
    have hask : ¬ rx.asksConnector := by
      unfold RxBuf.asksConnector
      rw [hhb]
      decide
    refine ⟨rx, r, hread, ⟨by decide, _, hlast, rfl⟩, hserve, ?_, by decide⟩
    rw [triggerMsg_unchecked hask hserve, hhb]
    decide
  · obtain ⟨rx, hread, hnames, hlen, hprops⟩ :=
      startFrame_reads "257" (by decide +kernel) (by decide)
    obtain ⟨r, hserve, ha⟩ := startFrame_accepted (n := 257) (i := 1) .zero hlen hprops (by decide)
      (by decide) (by decide) (by decide)
    exact ⟨rx, r, hread, hnames, hserve, ha, by decide⟩

end ChargePoint
