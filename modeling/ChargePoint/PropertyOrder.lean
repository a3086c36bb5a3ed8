import ChargePoint.Config
import ChargePoint.Overrun
import Mathlib.Data.List.Nodup

/-!
# The order of the properties

JSON does not order the properties of an object, and most handlers look for theirs by name: two
passes over properties of different names then commute (`forProps_reordered`). Others look at a
position (ChangeConfiguration, RemoteStopTransaction, Reset, GetConfiguration), keep the verdict of
whatever property came last (ChangeAvailability), or copy one property over another
(UpdateFirmware).

`OrderFree` says for which requests this makes no difference, and `order_irrelevant_iff` that it is
exactly for these. The other direction always needs a request in a chosen order: `exists_first`,
`exists_last`.
-/

set_option autoImplicit false

namespace ChargePoint

open CStr Loop

/-! ## Orders

Two requests are the same up to order if their entries 0 to `Payload_len` are a permutation of
each other and everything else agrees, the nested tables among it. Every permutation of the
entries is such a request (`exists_reordered`), which the other direction of each handler's
equivalence lives on: it picks the order it needs.

What is compared is `outcome`, the charger after the handler together with the frame of its
answer. -/

/-- The same request with its properties in another order. -/
structure Reordered (rx rx' : RxBuf) : Prop where
  props : rx'.props.Perm rx.props
  rest : rx' = { rx with msg := { rx.msg with payload := rx'.msg.payload } }
  behind : ∀ i, rx.msg.payloadLen < i → rx'.msg.payload i = rx.msg.payload i

/-- No name occurs twice. -/
def RxBuf.Distinct (rx : RxBuf) : Prop := (rx.props.map fun p => cstr p.propertyName).Nodup

/-- What a CALL comes to: the charger, and the frame of the answer. -/
def outcome (cmd : CsReqAction) (j : Junk) (rx : RxBuf) (c : Charger) (tx : TxBuf) :
    Option (Charger × List Char) :=
  (rxCallDataProc cmd j rx c tx).map fun r => (r.1, makeOcppMsg r.2 rx.msg.uniqueIdChar)

section Orders
variable {rx rx' : RxBuf}

theorem RxBuf.length_props (rx : RxBuf) : rx.props.length = rx.msg.payloadLen + 1 := by
  simp [RxBuf.props]

theorem RxBuf.props_get {i : Nat} (h : i ≤ rx.msg.payloadLen) :
    rx.props[i]? = some (rx.msg.payload i) := by
  simp [RxBuf.props, Nat.lt_succ_of_le h]

theorem RxBuf.props_zero (rx : RxBuf) : rx.props[0]? = some (rx.msg.payload 0) :=
  RxBuf.props_get (Nat.zero_le _)

theorem RxBuf.payload_mem {i : Nat} (h : i ≤ rx.msg.payloadLen) : rx.msg.payload i ∈ rx.props :=
  List.mem_of_getElem? (RxBuf.props_get h)

theorem Reordered.payloadLen (h : Reordered rx rx') : rx'.msg.payloadLen = rx.msg.payloadLen := by
  rw [h.rest]

theorem Reordered.uniqueIdChar (h : Reordered rx rx') :
    rx'.msg.uniqueIdChar = rx.msg.uniqueIdChar := by
  rw [h.rest]

theorem Reordered.deref (h : Reordered rx rx') (p : SubPtr) (i : Nat) :
    rx'.deref p i = rx.deref p i := by
  rw [h.rest]
  rfl

theorem Reordered.mem (h : Reordered rx rx') {i : Nat} (hi : i ≤ rx.msg.payloadLen) :
    rx'.msg.payload i ∈ rx.props :=
  h.props.mem_iff.mp (RxBuf.payload_mem (by rw [h.payloadLen]; exact hi))

/-- Every order of the properties is that of some request. -/
theorem exists_reordered {ps : List Payload} (h : ps.Perm rx.props) :
    ∃ rx', Reordered rx rx' ∧ rx'.props = ps := by
  have hlen : ps.length = rx.msg.payloadLen + 1 := h.length_eq.trans rx.length_props
  let payload : Nat → Payload :=
    fun i => if i ≤ rx.msg.payloadLen then ps.getD i .zero else rx.msg.payload i
  let rx' : RxBuf := { rx with msg := { rx.msg with payload := payload } }
  have hprops : rx'.props = ps := by
    refine List.ext_getElem? fun i => ?_
    rcases Nat.lt_or_ge rx.msg.payloadLen i with hi | hi
    · rw [List.getElem?_eq_none (by rw [rx'.length_props]; exact hi),
        List.getElem?_eq_none (by rw [hlen]; exact hi)]
    · rw [show rx'.props[i]? = _ from RxBuf.props_get hi]
      show some (if i ≤ rx.msg.payloadLen then ps.getD i .zero else _) = _
      rw [if_pos hi, List.getD_eq_getElem?_getD, List.getElem?_eq_getElem (by omega)]
      rfl
  refine ⟨rx', ⟨by rw [hprops]; exact h, rfl, fun i hi => ?_⟩, hprops⟩
  exact if_neg (by omega)

/-- Any property can come first. -/
theorem exists_first {p : Payload} (h : p ∈ rx.props) :
    ∃ rx', Reordered rx rx' ∧ rx'.msg.payload 0 = p := by
  obtain ⟨rx', hrx', hprops⟩ := exists_reordered (List.perm_cons_erase h).symm
  have hget := rx'.props_zero
  rw [hprops] at hget
  exact ⟨rx', hrx', (Option.some.inj hget).symm⟩

/-- Any property can come last. -/
theorem exists_last {p : Payload} (h : p ∈ rx.props) :
    ∃ rx' ps, Reordered rx rx' ∧ rx'.props = ps ++ [p] := by
  have hperm : (rx.props.erase p ++ [p]).Perm rx.props :=
    List.perm_append_comm.trans (List.perm_cons_erase h).symm
  obtain ⟨rx', hrx', hprops⟩ := exists_reordered hperm
  exact ⟨rx', _, hrx', hprops⟩

/-- And any two can come first. -/
theorem exists_first_two {p q : Payload} (hp : p ∈ rx.props) (hq : q ∈ rx.props) (hne : p ≠ q) :
    ∃ rx', Reordered rx rx' ∧ rx'.msg.payload 0 = p ∧ rx'.msg.payload 1 = q := by
  have hq' : q ∈ rx.props.erase p := (List.mem_erase_of_ne (Ne.symm hne)).mpr hq
  have hperm : (p :: q :: (rx.props.erase p).erase q).Perm rx.props :=
    ((List.perm_cons_erase hq').symm.cons p).trans (List.perm_cons_erase hp).symm
  obtain ⟨rx', hrx', hprops⟩ := exists_reordered hperm
  have hlen : 1 ≤ rx'.msg.payloadLen := by
    have hlen := rx'.length_props
    rw [hprops, List.length_cons, List.length_cons] at hlen
    omega
  have hfst := rx'.props_zero
  have hsnd := RxBuf.props_get hlen
  rw [hprops] at hfst hsnd
  exact ⟨rx', hrx', (Option.some.inj hfst).symm, (Option.some.inj hsnd).symm⟩

/-- A single property has one order. -/
theorem Reordered.single (h : Reordered rx rx') (hone : rx.props.length ≤ 1) : rx' = rx := by
  have hlen := rx.length_props
  obtain ⟨p, hp⟩ := List.length_eq_one_iff.mp (show rx.props.length = 1 by omega)
  have hp' := h.props
  rw [hp, List.perm_singleton] at hp'
  have hpayload : rx'.msg.payload = rx.msg.payload := by
    funext i
    rcases Nat.lt_or_ge rx.msg.payloadLen i with hi | hi
    · exact h.behind i hi
    · have hget := RxBuf.props_get hi
      have hget' : rx'.props[i]? = _ := RxBuf.props_get (by rw [h.payloadLen]; exact hi)
      rw [hp', ← hp, hget] at hget'
      exact (Option.some.inj hget').symm
  rw [h.rest, hpayload]

/-- A loop whose passes commute for properties of different names. -/
theorem forProps_reordered {σ : Type} {g : Payload → σ → σ} (h : Reordered rx rx')
    (hd : rx.Distinct) (hcomm : ∀ x ∈ rx.props, ∀ y ∈ rx.props,
      cstr x.propertyName ≠ cstr y.propertyName → ∀ s, g y (g x s) = g x (g y s)) (s : σ) :
    forProps rx' (fun p s => some (g p s)) s = forProps rx (fun p s => some (g p s)) s := by
  rw [forProps_eq, forProps_eq, h.payloadLen]
  split
  · refine List.foldlM_pure.trans (Eq.trans ?_ List.foldlM_pure.symm)
    refine congrArg some (List.Perm.foldl_eq' h.props ?_ s)
    intro x hx y hy t
    have hx := h.props.mem_iff.mp hx
    have hy := h.props.mem_iff.mp hy
    by_cases hname : cstr x.propertyName = cstr y.propertyName
    · rw [List.inj_on_of_nodup_map hd hx hy hname]
    · exact hcomm x hx y hy hname t
  · rfl

end Orders

/-! ## Handlers that look by name

One pass tests the name and writes a local. Two passes over properties of different names write
different locals, so they commute, and a fold over commuting passes is the same for every
permutation. -/

/-- Properties of different names are not both of one name. -/
theorem named_other {x y : Payload} (h : cstr x.propertyName ≠ cstr y.propertyName) {n : String}
    (hx : x.named n = true) : y.named n = false := by
  simp only [Payload.named, decide_eq_true_eq, decide_eq_false_iff_not] at hx ⊢
  intro hy
  exact h (hx.trans hy.symm)

section ByName
variable {rx rx' : RxBuf} {c : Charger}

theorem Reordered.answer (h : Reordered rx rx') (tx : TxBuf) (n : Nat) :
    tx.answer rx' n = tx.answer rx n := by
  unfold TxBuf.answer
  rw [h.uniqueIdChar]

theorem Reordered.makeCallRes (h : Reordered rx rx') (ret : ResType) (tx : TxBuf) :
    makeCallRes ret rx' tx = makeCallRes ret rx tx := by
  unfold ChargePoint.makeCallRes
  rw [h.answer]

/-- A pass that looks for one name. -/
def byName {σ : Type} (a : String) (f : Payload → σ → σ) (p : Payload) (s : σ) : σ :=
  if p.named a then f p s else s

/-- A pass that looks for two. -/
def byNames {σ : Type} (a : String) (f : Payload → σ → σ) (b : String) (g : Payload → σ → σ)
    (p : Payload) (s : σ) : σ :=
  if p.named a then f p s else byName b g p s

theorem forProps_byName {σ : Type} {a : String} {f : Payload → σ → σ} (h : Reordered rx rx')
    (hd : rx.Distinct) (s : σ) :
    forProps rx' (fun p s => some (byName a f p s)) s =
      forProps rx (fun p s => some (byName a f p s)) s := by
  refine forProps_reordered h hd ?_ s
  intro x _ y _ hname s
  unfold byName
  cases hx : x.named a with
  | true => simp [named_other hname hx]
  | false => simp

/-- Two names that concern different fields. -/
theorem forProps_byNames {σ : Type} {a b : String} {f g : Payload → σ → σ} (h : Reordered rx rx')
    (hd : rx.Distinct) (hfg : ∀ x y s, g y (f x s) = f x (g y s)) (s : σ) :
    forProps rx' (fun p s => some (byNames a f b g p s)) s =
      forProps rx (fun p s => some (byNames a f b g p s)) s := by
  refine forProps_reordered h hd ?_ s
  intro x _ y _ hname s
  unfold byNames byName
  cases hxa : x.named a with
  | true =>
    have hya := named_other hname hxa
    cases hyb : y.named b with
    | true => simp [hya, hfg]
    | false => simp [hya]
  | false =>
    cases hya : y.named a with
    | true =>
      cases hxb : x.named b with
      | true => simp [hfg]
      | false => simp
    | false =>
      cases hxb : x.named b with
      | true => simp [named_other hname hxb]
      | false => simp

theorem remoteStart_reordered (h : Reordered rx rx') (hd : rx.Distinct) (tx : TxBuf) :
    dataProcCmdRmStart rx' c tx = dataProcCmdRmStart rx c tx := by
  let idTag := fun (p : Payload) (l : Bool × UInt32 × Charger) => (true, l.2.1, { l.2.2 with scene :=
    { l.2.2.scene with cardNo := p.propertyContants.take 21 } })
  let cntr := fun (p : Payload) (l : Bool × UInt32 × Charger) =>
    (l.1, (string2Integer p.propertyContants).toUInt32, l.2.2)
  have hbody : ∀ rx : RxBuf, forProps rx (fun p (l : Bool × UInt32 × Charger) =>
      let l := if p.named "idTag" then idTag p l else l
      let l := if p.named "connectorId" then cntr p l else l
      some l) (false, 1, c) =
        forProps rx (fun p l => some (byNames "idTag" idTag "connectorId" cntr p l)) (false, 1, c) := by
    intro rx
    congr 1
    funext p l
    unfold byNames byName
    cases hp : p.named "idTag" with
    | true => simp [named_ne (show "idTag".toList ≠ "connectorId".toList by decide) hp]
    | false => simp
  have hloop := forProps_byNames (a := "idTag") (b := "connectorId") (f := idTag) (g := cntr) h hd
    (fun _ _ _ => rfl) (false, 1, c)
  unfold dataProcCmdRmStart
  rw [hbody rx', hbody rx, hloop]
  simp only [h.makeCallRes]

theorem triggerMsg_reordered (h : Reordered rx rx') (hd : rx.Distinct) (tx : TxBuf) :
    dataProcCmdTriggerMsg rx' c tx = dataProcCmdTriggerMsg rx c tx := by
  let req := fun (p : Payload) (l : TrigMsgStat × UInt8) => (trigMsgOf p l.1, l.2)
  let cntr := fun (p : Payload) (l : TrigMsgStat × UInt8) =>
    (l.1, (string2Integer p.propertyContants).toUInt8)
  have hloop := forProps_byNames (a := "requestedMessage") (b := "connectorId") (f := req)
    (g := cntr) h hd (fun _ _ _ => rfl) (.none, 0)
  unfold dataProcCmdTriggerMsg
  simp only [← apply_ite some]
  simp only [byNames, byName, req, cntr] at hloop
  rw [hloop]
  simp only [h.makeCallRes]

theorem dataTrans_reordered (h : Reordered rx rx') (hd : rx.Distinct) (j : Junk) (tx : TxBuf) :
    dataProcCmdDataTransCs j rx' c tx = dataProcCmdDataTransCs j rx c tx := by
  let mid := fun (p : Payload) (l : Bool × List Char) =>
    (l.1 || p.holds "BatteryInfoConfiguration", l.2)
  let data := fun (p : Payload) (l : Bool × List Char) =>
    (l.1, cstr p.propertyContants ++ l.2.drop (cstr p.propertyContants).length)
  have hbody : ∀ rx : RxBuf, forProps rx (fun p (l : Bool × List Char) =>
      if p.named "vendorId" then some l
      else if p.named "messageId" then
        some (l.1 || p.holds "BatteryInfoConfiguration", l.2)
      else if p.named "data" then
        let d := cstr p.propertyContants
        some (l.1, d ++ l.2.drop d.length)
      else some l) (false, j.str256) =
        forProps rx (fun p l => some (byNames "messageId" mid "data" data p l)) (false, j.str256) := by
    intro rx
    congr 1
    funext p l
    unfold byNames byName
    cases hp : p.named "vendorId" with
    | true => simp [named_ne (show "vendorId".toList ≠ "messageId".toList by decide) hp,
        named_ne (show "vendorId".toList ≠ "data".toList by decide) hp]
    | false =>
      simp only [Bool.false_eq_true, if_false]
      split
      · rfl
      · split <;> rfl
  have hloop := forProps_byNames (a := "messageId") (b := "data") (f := mid) (g := data) h hd
    (fun _ _ _ => rfl) (false, j.str256)
  unfold dataProcCmdDataTransCs
  rw [hbody rx', hbody rx, hloop]
  simp only [h.makeCallRes]

theorem getDiag_reordered (h : Reordered rx rx') (hd : rx.Distinct) (tx : TxBuf) :
    dataProcCmdGetDiag rx' c tx = dataProcCmdGetDiag rx c tx := by
  have hloop := forProps_byName (a := "location") (f := getDiagProp) h hd c
  unfold byName at hloop
  rw [getDiag_eq, getDiag_eq, hloop, h.answer]

theorem unlockConnect_reordered (h : Reordered rx rx') (hd : rx.Distinct) (tx : TxBuf) :
    dataProcCmdUnlockConnect rx' c tx = dataProcCmdUnlockConnect rx c tx := by
  have hloop := forProps_byName (a := "connectorId") (f := unlockConnectProp) h hd c
  unfold byName at hloop
  rw [unlockConnect_eq, unlockConnect_eq, hloop, h.makeCallRes]

end ByName

/-! ## Handlers that look at the first property

Reset, RemoteStopTransaction and GetConfiguration never look further than entry 0. `resetOf`,
`rmStopOf` and `getConfigOf` are what they say of one property; since any property can be put
first, the order is irrelevant exactly if they say the same of all (`indifferent_first`). So there
is one property only, or all of them are answered alike, which with names that differ is how the
handler answers what it was not looking for. -/

/-- The frame of an answer, around what it says. -/
def answerFrame (id text : List Char) : List Char :=
  "[3,".toList ++ convStr2Str id ++ ",\x7b".toList ++ text ++ "\x7d]".toList

theorem answerFrame_inj {id a b : List Char} (h : answerFrame id a = answerFrame id b) : a = b := by
  unfold answerFrame at h
  exact List.append_cancel_left (List.append_cancel_right h)

/-- The outcome of a request does not depend on the order of its properties. -/
def Indifferent (cmd : CsReqAction) (rx : RxBuf) (c : Charger) : Prop :=
  ∀ rx', Reordered rx rx' → ∀ j tx, tx.Plain → outcome cmd j rx' c tx = outcome cmd j rx c tx

section First
variable {rx rx' : RxBuf} {c : Charger} {cmd : CsReqAction}

theorem outcome_reply {j : Junk} {tx : TxBuf} {x : Option (Charger × Reply)} (hplain : tx.Plain)
    (h : rxCallDataProc cmd j rx c tx = x.map fun r => (r.1, r.2.write rx
      { tx with msg := { tx.msg with msgType := msgTypeCallRes } })) :
    outcome cmd j rx c tx = x.map fun r => (r.1, answerFrame rx.msg.uniqueIdChar r.2.text) := by
  have hplain' : TxBuf.Plain { tx with msg := { tx.msg with msgType := msgTypeCallRes } } := hplain
  unfold outcome
  rw [h, Option.map_map]
  congr 1
  funext r
  exact congrArg (Prod.mk r.1) (makeOcppMsg_reply rx hplain' r.2 rx.msg.uniqueIdChar)

theorem txZero_plain : TxBuf.zero.Plain := fun _ => rfl

/-- What is said of the first property decides: the order is irrelevant when all say the same. -/
theorem indifferent_first {w : Payload → Option (Charger × Reply)}
    (hw : ∀ rx', Reordered rx rx' → ∀ j tx, rxCallDataProc cmd j rx' c tx =
      (w (rx'.msg.payload 0)).map fun r => (r.1, r.2.write rx'
        { tx with msg := { tx.msg with msgType := msgTypeCallRes } })) (hrx : Reordered rx rx) :
    Indifferent cmd rx c ↔ ∀ p ∈ rx.props, ∀ q ∈ rx.props,
      (w p).map (fun r => (r.1, r.2.text)) = (w q).map fun r => (r.1, r.2.text) := by
  have hout : ∀ rx', Reordered rx rx' → ∀ j tx, tx.Plain → outcome cmd j rx' c tx =
      ((w (rx'.msg.payload 0)).map fun r => (r.1, r.2.text)).map
        fun r => (r.1, answerFrame rx.msg.uniqueIdChar r.2) := by
    intro rx' h j tx hplain
    rw [outcome_reply hplain (hw rx' h j tx), Option.map_map, h.uniqueIdChar]
    rfl
  constructor
  · intro hindiff p hp q hq
    obtain ⟨rxp, hrxp, rfl⟩ := exists_first hp
    obtain ⟨rxq, hrxq, rfl⟩ := exists_first hq
    have heq := (hindiff rxp hrxp .zero _ txZero_plain).trans
      (hindiff rxq hrxq .zero _ txZero_plain).symm
    rw [hout rxp hrxp .zero _ txZero_plain, hout rxq hrxq .zero _ txZero_plain] at heq
    refine Option.map_injective ?_ heq
    rintro ⟨a, t⟩ ⟨b, u⟩ hab
    obtain ⟨rfl, htu⟩ := Prod.mk.inj hab
    exact congrArg (Prod.mk a) (answerFrame_inj htu)
  · intro hall rx' h j tx hplain
    rw [hout rx' h j tx hplain, hout rx hrx j tx hplain,
      hall _ (h.mem (Nat.zero_le _)) _ (RxBuf.payload_mem (Nat.zero_le _))]

theorem Reordered.refl (rx : RxBuf) : Reordered rx rx := ⟨.refl _, rfl, fun _ _ => rfl⟩

/-- Among several properties there is one of another name. -/
theorem exists_other (hd : rx.Distinct) (hlen : ¬ rx.props.length ≤ 1) {p : Payload}
    (hp : p ∈ rx.props) : ∃ q ∈ rx.props, cstr p.propertyName ≠ cstr q.propertyName := by
  obtain ⟨q, hq⟩ : ∃ q, q ∈ rx.props.erase p := by
    refine List.exists_mem_of_length_pos ?_
    rw [List.length_erase_of_mem hp]
    omega
  refine ⟨q, List.mem_of_mem_erase hq, fun hname => ?_⟩
  obtain rfl := List.inj_on_of_nodup_map hd hp (List.mem_of_mem_erase hq) hname
  exact (List.Nodup.of_map _ hd).not_mem_erase hq

/-- Of a single property there is one. -/
theorem eq_of_single (hlen : rx.props.length ≤ 1) {p q : Payload} (hp : p ∈ rx.props)
    (hq : q ∈ rx.props) : p = q := by
  have hone := rx.length_props
  obtain ⟨r, hr⟩ := List.length_eq_one_iff.mp (show rx.props.length = 1 by omega)
  rw [hr, List.mem_singleton] at hp hq
  exact hp.trans hq.symm

/-- What `DataProcCmd_Reset` says of the first property. -/
def resetOf (c : Charger) (p : Payload) : Option (Charger × Reply) :=
  if p.named "type" ∧ p.holds "Hard" then
    some ({ c with cs := { c.cs with bReqResetNo := 2 } }, ResType.accept.reply)
  else if p.named "type" ∧ p.holds "Soft" then
    some ({ c with cs := { c.cs with bReqResetNo := 1 } }, ResType.accept.reply)
  else some (c, ResType.rejected.reply)

/-- A property that asks for a reset. -/
def AsksReset (p : Payload) : Prop :=
  p.named "type" = true ∧ (p.holds "Hard" = true ∨ p.holds "Soft" = true)

theorem resetOf_asks {p : Payload} (h : AsksReset p) :
    ∃ d, resetOf c p = some (d, ResType.accept.reply) := by
  unfold resetOf
  split
  · exact ⟨_, rfl⟩
  · rename_i hhard
    split
    · exact ⟨_, rfl⟩
    · rename_i hsoft
      rcases h.2 with hh | hh
      · exact absurd ⟨h.1, hh⟩ hhard
      · exact absurd ⟨h.1, hh⟩ hsoft

theorem resetOf_other {p : Payload} (h : ¬ AsksReset p) :
    resetOf c p = some (c, ResType.rejected.reply) := by
  unfold resetOf
  rw [if_neg fun hh => h ⟨hh.1, .inl hh.2⟩, if_neg fun hh => h ⟨hh.1, .inr hh.2⟩]

theorem accept_ne_rejected : ResType.accept.reply.text ≠ ResType.rejected.reply.text := by decide

theorem reset_indifferent (hd : rx.Distinct) : Indifferent .reset rx c ↔
    rx.props.length ≤ 1 ∨ ∀ p ∈ rx.props, ¬ AsksReset p := by
  have hw : ∀ rx', Reordered rx rx' → ∀ j tx, rxCallDataProc .reset j rx' c tx =
      (resetOf c (rx'.msg.payload 0)).map fun r => (r.1, r.2.write rx'
        { tx with msg := { tx.msg with msgType := msgTypeCallRes } }) := by
    intro rx' _ j tx
    simp only [rxCallDataProc, dataProcCmdReset, resetOf]
    split
    · rfl
    · split <;> rfl
  rw [indifferent_first hw (.refl rx)]
  constructor
  · intro hall
    by_cases hlen : rx.props.length ≤ 1
    · exact .inl hlen
    · refine .inr fun p hp hasks => ?_
      obtain ⟨q, hq, hname⟩ := exists_other hd hlen hp
      have hq' : ¬ AsksReset q := by
        intro hbad
        exact absurd ((named_other hname hasks.1).symm.trans hbad.1) (by decide)
      obtain ⟨d, hd⟩ := resetOf_asks (c := c) hasks
      have heq := hall p hp q hq
      rw [hd, resetOf_other hq'] at heq
      exact accept_ne_rejected (Prod.mk.inj (Option.some.inj heq)).2
  · rintro (hlen | hnone) p hp q hq
    · rw [eq_of_single hlen hp hq]
    · rw [resetOf_other (hnone p hp), resetOf_other (hnone q hq)]

/-- What `DataProcCmd_RmStopTr` says of it. -/
def rmStopOf (c : Charger) (p : Payload) : Option (Charger × Reply) :=
  if p.named "transactionId" then
    c.devConn.map fun d =>
      if string2Integer p.propertyContants = c.cs.bTrId d ∧
          (c.cs.bCpStat d = .charging ∨ c.cs.bCpStat d = .suspendedEv) then
        ({ c with cs := { c.cs with bReqRmtStopTsFlg := true } }, ResType.accept.reply)
      else (c, ResType.rejected.reply)
  else some (c, ResType.rejected.reply)

/-- A transaction that is not the running one. -/
def OtherTransaction (c : Charger) (p : Payload) : Prop :=
  ∃ d, c.devConn = some d ∧ ¬ (string2Integer p.propertyContants = c.cs.bTrId d ∧
    (c.cs.bCpStat d = .charging ∨ c.cs.bCpStat d = .suspendedEv))

theorem rmStopOf_rejected {p : Payload} : (rmStopOf c p).map (fun r => (r.1, r.2.text)) =
    some (c, ResType.rejected.reply.text) ↔
      (p.named "transactionId" = true → OtherTransaction c p) := by
  unfold rmStopOf OtherTransaction
  split
  · rename_i hnamed
    cases hdev : c.devConn with
    | none => simp [hnamed]
    | some d =>
      simp only [Option.map_some, Option.some.injEq, exists_eq_left', hnamed, true_imp_iff]
      split
      · rename_i hmatch
        refine ⟨fun h => ?_, fun h => absurd hmatch h⟩
        exact absurd (Prod.mk.inj h).2 accept_ne_rejected
      · rename_i hmatch
        exact ⟨fun _ => hmatch, fun _ => rfl⟩
  · rename_i hnamed
    exact ⟨fun _ h => absurd h hnamed, fun _ => rfl⟩

theorem remoteStop_indifferent (hd : rx.Distinct) : Indifferent .remoteStop rx c ↔
    rx.props.length ≤ 1 ∨ ∀ p ∈ rx.props, p.named "transactionId" = true → OtherTransaction c p := by
  have hw : ∀ rx', Reordered rx rx' → ∀ j tx, rxCallDataProc .remoteStop j rx' c tx =
      (rmStopOf c (rx'.msg.payload 0)).map fun r => (r.1, r.2.write rx'
        { tx with msg := { tx.msg with msgType := msgTypeCallRes } }) := by
    intro rx' _ j tx
    simp only [rxCallDataProc, dataProcCmdRmStopTr, rmStopOf]
    split
    · rw [Option.map_map]
      congr 1
      funext d
      simp only [Function.comp]
      split <;> rfl
    · rfl
  rw [indifferent_first hw (.refl rx)]
  constructor
  · intro hall
    by_cases hlen : rx.props.length ≤ 1
    · exact .inl hlen
    · refine .inr fun p hp hnamed => ?_
      obtain ⟨q, hq, hname⟩ := exists_other hd hlen hp
      have hq' := rmStopOf_rejected (c := c) (p := q).mpr fun hbad =>
        absurd ((named_other hname hnamed).symm.trans hbad) (by decide)
      exact rmStopOf_rejected.mp ((hall p hp q hq).trans hq') hnamed
  · rintro (hlen | hother) p hp q hq
    · rw [eq_of_single hlen hp hq]
    · rw [rmStopOf_rejected.mpr (hother p hp), rmStopOf_rejected.mpr (hother q hq)]

/-! ### GetConfiguration -/

/-- The keys a property asks for, from the `n`-th on. -/
def foundOf (rx : RxBuf) (c : Charger) (p : Payload) : Nat → Nat → Option (List CfgKey × Bool)
  | 0, _ => some ([], true)
  | k + 1, n =>
    match rx.deref p.subPayload n with
    | none => none
    | some q =>
      match findCfgKey c (cstr q.propertyContants) with
      | some key => (foundOf rx c p k (n + 1)).map fun r => (key :: r.1, r.2)
      | none => some ([], false)

theorem foundKeys_foundOf (h : Reordered rx rx') (k n : Nat) :
    foundKeys rx' c k n = foundOf rx c (rx'.msg.payload 0) k n := by
  induction k generalizing n with
  | zero => rfl
  | succ k ih =>
    unfold foundKeys foundOf
    rw [h.deref]
    cases rx.deref (rx'.msg.payload 0).subPayload n with
    | none => rfl
    | some q =>
      dsimp only
      cases findCfgKey c (cstr q.propertyContants) with
      | none => rfl
      | some key =>
        dsimp only
        rw [ih]

/-- Everything that is configured. -/
def allKeys (c : Charger) : List CfgKey := (List.range' 0 maxCfg).map c.cfgKey

/-- What `DataProcCmd_GetConfig` says of the first property. -/
def getConfigOf (rx : RxBuf) (c : Charger) (p : Payload) : Option (Charger × Reply) :=
  if cstr p.propertyName = [] then some (c, .keys (allKeys c))
  else if p.named "key" then
    (foundOf rx c p (p.subPayloadLen + 1) 0).map fun r =>
      (c, if r.2 then .keys r.1 else .unknownAfter r.1)
  else some (c, .unknown)

/-- A property that is answered with `unknownKey`: none that asks for keys, or one that asks for a
key that is not configured. -/
def AsksUnknown (rx : RxBuf) (c : Charger) (p : Payload) : Prop :=
  cstr p.propertyName ≠ [] ∧ (p.named "key" = true →
    ∃ ks, foundOf rx c p (p.subPayloadLen + 1) 0 = some (ks, false))

/-- A property that is answered with everything that is configured. -/
def AsksAll (rx : RxBuf) (c : Charger) (p : Payload) : Prop :=
  cstr p.propertyName = [] ∨ (p.named "key" = true ∧
    ∃ ks, foundOf rx c p (p.subPayloadLen + 1) 0 = some (ks, true) ∧
      (Reply.keys ks).text = (Reply.keys (allKeys c)).text)

theorem keys_ne_unknown (ks : List CfgKey) : (Reply.keys ks).text ≠ Reply.unknown.text := by
  intro h
  have hfst := congrArg (fun t : List Char => t[1]?) h
  exact absurd hfst (by simp [Reply.text, convStr2Str, cstr, nul])

theorem getConfigOf_unknown {p : Payload} : (getConfigOf rx c p).map (fun r => (r.1, r.2.text)) =
    some (c, Reply.unknown.text) ↔ AsksUnknown rx c p := by
  unfold getConfigOf AsksUnknown
  by_cases hname : cstr p.propertyName = []
  · rw [if_pos hname]
    refine ⟨fun h => ?_, fun h => absurd hname h.1⟩
    exact absurd (Prod.mk.inj (Option.some.inj h)).2 (keys_ne_unknown _)
  · rw [if_neg hname]
    split
    · rename_i hkey
      cases hfound : foundOf rx c p (p.subPayloadLen + 1) 0 with
      | none => simp [hkey]
      | some r =>
        obtain ⟨ks, b⟩ := r
        cases b with
        | false => simp [hname, Reply.text]
        | true =>
          refine ⟨fun h => ?_, fun h => ?_⟩
          · exact absurd (Prod.mk.inj (Option.some.inj h)).2 (keys_ne_unknown ks)
          · obtain ⟨ks', hks'⟩ := h.2 hkey
            exact absurd (Prod.mk.inj (Option.some.inj hks')).2 (by decide)
    · rename_i hkey
      exact ⟨fun _ => ⟨hname, fun h => absurd h hkey⟩, fun _ => rfl⟩

theorem getConfigOf_all {p : Payload} (hp : ¬ AsksUnknown rx c p) :
    (getConfigOf rx c p).map (fun r => (r.1, r.2.text)) = some (c, (Reply.keys (allKeys c)).text) ↔
      AsksAll rx c p := by
  unfold getConfigOf AsksAll
  by_cases hname : cstr p.propertyName = []
  · rw [if_pos hname]
    exact ⟨fun _ => .inl hname, fun _ => rfl⟩
  · rw [if_neg hname]
    split
    · rename_i hkey
      cases hfound : foundOf rx c p (p.subPayloadLen + 1) 0 with
      | none => simp [hname]
      | some r =>
        obtain ⟨ks, b⟩ := r
        cases b with
        | false => exact absurd ⟨hname, fun _ => ⟨ks, hfound⟩⟩ hp
        | true => simp [hname, hkey]
    · rename_i hkey
      exact absurd ⟨hname, fun h => absurd h hkey⟩ hp

theorem getConfig_indifferent (hd : rx.Distinct) : Indifferent .getConfig rx c ↔
    rx.props.length ≤ 1 ∨ (∀ p ∈ rx.props, AsksUnknown rx c p) ∨ ∀ p ∈ rx.props, AsksAll rx c p := by
  -- the handler looks at the property that comes first, and at no other
  have hw : ∀ rx', Reordered rx rx' → ∀ j tx, rxCallDataProc .getConfig j rx' c tx =
      (getConfigOf rx c (rx'.msg.payload 0)).map fun r => (r.1, r.2.write rx'
        { tx with msg := { tx.msg with msgType := msgTypeCallRes } }) := by
    intro rx' h j tx
    simp only [rxCallDataProc, dataProcCmdGetConfig, getConfigOf]
    by_cases hname : cstr (rx'.msg.payload 0).propertyName = []
    · simp only [if_pos hname, List.range_eq_range', foldl_writeCfgKey]
      simp [Reply.write, allKeys]
    · simp only [if_neg hname]
      split
      · rw [getConfigLoop_eq, foundKeys_foundOf h, Option.map_map, Option.map_map, Option.map_map]
        congr 1
        funext r
        obtain ⟨ks, b⟩ := r
        cases b with
        | true => simp [Reply.write]
        | false => rfl
      · rfl
  rw [indifferent_first hw (.refl rx)]
  constructor
  · intro hall
    by_cases hlen : rx.props.length ≤ 1
    · exact .inl hlen
    · refine .inr ?_
      by_cases hun : ∃ p ∈ rx.props, AsksUnknown rx c p
      · obtain ⟨p, hp, hpu⟩ := hun
        refine .inl fun q hq => ?_
        rw [← getConfigOf_unknown, ← hall p hp q hq]
        exact getConfigOf_unknown.mpr hpu
      · -- no property is unknown, so one of them is the list of keys and another has no name
        have hnot : ∀ p ∈ rx.props, ¬ AsksUnknown rx c p := fun p hp h => hun ⟨p, hp, h⟩
        have hkind : ∀ p ∈ rx.props, cstr p.propertyName = [] ∨ p.named "key" = true := by
          intro p hp
          by_contra hbad
          rw [not_or] at hbad
          exact hnot p hp ⟨hbad.1, fun h => absurd h hbad.2⟩
        obtain ⟨e, he, hempty⟩ : ∃ e ∈ rx.props, cstr e.propertyName = [] := by
          have hfst : rx.msg.payload 0 ∈ rx.props := RxBuf.payload_mem (Nat.zero_le _)
          rcases hkind _ hfst with h | h
          · exact ⟨_, hfst, h⟩
          · obtain ⟨q, hq, hname⟩ := exists_other hd hlen hfst
            refine ⟨q, hq, (hkind q hq).resolve_right fun hbad => ?_⟩
            exact absurd ((named_other hname h).symm.trans hbad) (by decide)
        refine .inr fun q hq => ?_
        rw [← getConfigOf_all (hnot q hq), ← hall e he q hq, getConfigOf_all (hnot e he)]
        exact .inl hempty
  · rintro (hlen | hun | hkeys) p hp q hq
    · rw [eq_of_single hlen hp hq]
    · rw [getConfigOf_unknown.mpr (hun p hp), getConfigOf_unknown.mpr (hun q hq)]
    · have hnot : ∀ p ∈ rx.props, ¬ AsksUnknown rx c p := by
        rintro p hp ⟨hne, hbad⟩
        rcases hkeys p hp with hempty | ⟨hkey, ks, hks, -⟩
        · exact hne hempty
        · obtain ⟨ks', hks'⟩ := hbad hkey
          rw [hks] at hks'
          exact absurd (Prod.mk.inj (Option.some.inj hks')).2 (by decide)
      rw [(getConfigOf_all (hnot p hp)).mpr (hkeys p hp),
        (getConfigOf_all (hnot q hq)).mpr (hkeys q hq)]

end First

/-! ## ChangeConfiguration

The key has to be entry 0 and the value entry 1, by name as well as by place. With the two
exchanged the request is rejected, so the order is irrelevant only where the right order is
rejected too (`Refuses`). -/

/-- A change that the key refuses. -/
def Refuses (k v : Payload) : Prop :=
  match cfgChange (cstr k.propertyContants) with
  | .int _ => v.propertyContants.head? = some '-'
  | .bool _ | .unstored => v.holds "true" = false ∧ v.holds "false" = false
  | .loose _ => False
  | .refused => k.holds "AuthorizationCacheEnabled" = true ∧ v.holds "true" = false

/-- A key that is refused is the cache, or not known. -/
theorem changeConfigKey_refused {k v : Payload} (c : Charger)
    (h : cfgChange (cstr k.propertyContants) = .refused) : changeConfigKey k v c =
      if k.holds "AuthorizationCacheEnabled" then
        (if v.holds "true" then .notSuppt else .rejected, c) else (.notSuppt, c) := by
  have htable : ∀ e ∈ cfgChanges, cfgChange e.1.toList = e.2 := by decide +kernel
  have hno : ∀ e ∈ cfgChanges, e.2 ≠ .refused → k.holds e.1 = false := by
    intro e he hne
    refine decide_eq_false fun heq => hne ?_
    rw [← htable e he, ← heq]
    exact h
  unfold changeConfigKey
  simp only [hno ("MeterValueSampleInterval", .int 10) (by decide) (by decide),
    hno ("ClockAlignedDataInterval", .int 1) (by decide) (by decide),
    hno ("LocalPreAuthorize", .bool 7) (by decide) (by decide),
    hno ("ConnectionTimeOut", .int 2) (by decide) (by decide),
    hno ("AuthorizeRemoteTxRequests", .loose 0) (by decide) (by decide),
    hno ("UnlockConnectorOnEVSideDisconnect", .loose 20) (by decide) (by decide),
    hno ("StopTransactionOnEVSideDisconnect", .loose 13) (by decide) (by decide),
    hno ("LocalAuthorizeOffline", .bool 6) (by decide) (by decide),
    hno ("LocalAuthListEnabled", .unstored) (by decide) (by decide),
    hno ("AllowOfflineTxForUnknownId", .bool 23) (by decide) (by decide),
    hno ("StopTransactionOnInvalidId", .bool 14) (by decide) (by decide), Bool.false_eq_true, if_false,
    ite_self]

/-- A refused change is rejected and changes nothing; any other is answered otherwise. -/
theorem changeConfigKey_refuses {k v : Payload} (c : Charger) :
    (Refuses k v → changeConfigKey k v c = (.rejected, c)) ∧
    (¬ Refuses k v → (changeConfigKey k v c).1 ≠ .rejected) := by
  have hdoes := changeConfigKey_does k v c
  unfold Refuses
  cases hkey : cfgChange (cstr k.propertyContants) with
  | int n =>
    rw [hkey] at hdoes
    rw [show changeConfigKey k v c = changeInt n v c from hdoes]
    unfold changeInt
    exact ⟨fun h => if_pos h, fun h => by rw [if_neg h]; simp⟩
  | bool n =>
    rw [hkey] at hdoes
    rw [show changeConfigKey k v c = changeBool n v c from hdoes]
    unfold changeBool
    cases v.holds "true" <;> cases v.holds "false" <;> simp
  | loose n =>
    rw [hkey] at hdoes
    rw [show changeConfigKey k v c = changeBoolLoose n v c from hdoes]
    exact ⟨fun h => absurd h id, fun _ => by simp [changeBoolLoose]⟩
  | unstored =>
    rw [hkey] at hdoes
    rw [show changeConfigKey k v c = changeBoolUnstored v c from hdoes]
    unfold changeBoolUnstored
    cases v.holds "true" <;> cases v.holds "false" <;> simp
  | refused =>
    rw [changeConfigKey_refused c hkey]
    cases k.holds "AuthorizationCacheEnabled" <;> cases v.holds "true" <;> simp

section Config
variable {rx rx' : RxBuf} {c : Charger}

theorem outcome_config (h : Reordered rx rx') (j : Junk) {tx : TxBuf} (hplain : tx.Plain) :
    outcome .changeConfig j rx' c tx =
      (let k := rx'.msg.payload 0
       let v := rx'.msg.payload 1
       let r := if k.named "key" ∧ v.named "value" then changeConfigKey k v c else (.rejected, c)
       some (r.2, answerFrame rx.msg.uniqueIdChar r.1.reply.text)) := by
  let x : Option (Charger × Reply) :=
    some (let r := if (rx'.msg.payload 0).named "key" ∧ (rx'.msg.payload 1).named "value" then
      changeConfigKey (rx'.msg.payload 0) (rx'.msg.payload 1) c else (.rejected, c)
      (r.2, r.1.reply))
  have hserve : outcome .changeConfig j rx' c tx =
      x.map fun r => (r.1, answerFrame rx'.msg.uniqueIdChar r.2.text) := outcome_reply hplain rfl
  rw [hserve, h.uniqueIdChar]
  rfl

theorem reply_rejected {ret : ResType} (h : ret.reply.text = ResType.rejected.reply.text) :
    ret = .rejected := by
  revert h
  cases ret <;> decide

theorem changeConfig_indifferent : Indifferent .changeConfig rx c ↔
    ∀ k ∈ rx.props, ∀ v ∈ rx.props, k.named "key" = true → v.named "value" = true → Refuses k v := by
  constructor
  · intro hindiff k hk v hv hkey hvalue
    have hkv : k ≠ v := by
      rintro rfl
      exact absurd ((named_ne (show "key".toList ≠ "value".toList by decide) hkey).symm.trans hvalue)
        (by decide)
    have hvkey : v.named "key" = false :=
      named_ne (show "value".toList ≠ "key".toList by decide) hvalue
    obtain ⟨rx₁, h₁, rfl, rfl⟩ := exists_first_two hk hv hkv
    obtain ⟨rx₂, h₂, hfst⟩ := exists_first hv
    have heq := (hindiff rx₁ h₁ .zero _ txZero_plain).trans
      (hindiff rx₂ h₂ .zero _ txZero_plain).symm
    rw [outcome_config h₁ .zero txZero_plain, outcome_config h₂ .zero txZero_plain] at heq
    dsimp only at heq
    rw [if_pos ⟨hkey, hvalue⟩, hfst, if_neg (by simp [hvkey])] at heq
    by_contra hno
    refine (changeConfigKey_refuses c).2 hno (reply_rejected ?_)
    exact answerFrame_inj (Prod.mk.inj (Option.some.inj heq)).2
  · intro hall rx' h j tx hplain
    rcases Nat.eq_zero_or_pos rx.msg.payloadLen with hlen | hlen
    · rw [h.single (by rw [rx.length_props, hlen])]
    · have hrejected : ∀ rx₁, Reordered rx rx₁ → outcome .changeConfig j rx₁ c tx =
          some (c, answerFrame rx.msg.uniqueIdChar ResType.rejected.reply.text) := by
        intro rx₁ h₁
        rw [outcome_config h₁ j hplain]
        dsimp only
        split
        · rename_i hnamed
          have hrefuses := hall _ (h₁.mem (Nat.zero_le _)) _ (h₁.mem hlen) hnamed.1 hnamed.2
          rw [(changeConfigKey_refuses c).1 hrefuses]
        · rfl
      rw [hrejected rx' h, hrejected rx (.refl rx)]

end Config

/-! ## ChangeAvailability

The loop writes one local for each verdict, and a property of neither name writes that of the
type. Whether a known type is accepted then depends on which of them came last; a connector id
that is too large is remembered by a local of its own and rejects in any order. -/

/-- A type that is known. -/
def SetsType (p : Payload) : Prop :=
  p.named "type" = true ∧ (p.holds "Inoperative" = true ∨ p.holds "Operative" = true)

/-- A property that ChangeAvailability does not know. -/
def Stray (p : Payload) : Prop := p.named "connectorId" = false ∧ p.named "type" = false

/-- A connector id that is too large, as a byte. -/
def OutOfRange (p : Payload) : Prop :=
  p.named "connectorId" = true ∧ maxConectorId < ((string2Integer p.propertyContants).toUInt8).toNat

theorem not_connectorId {p : Payload} (h : p.named "type" = true) : p.named "connectorId" = false :=
  named_ne (show "type".toList ≠ "connectorId".toList by decide) h

/-- What one property does: the connector and its verdict, or the type and its verdict. -/
theorem changeAvailProp_connector {p : Payload} (l : ChangeAvailLocals)
    (h : p.named "connectorId" = true) : changeAvailProp p l =
      { l with cntrId := (string2Integer p.propertyContants).toUInt8
               rejected1 := maxConectorId < ((string2Integer p.propertyContants).toUInt8).toNat } := by
  unfold changeAvailProp
  rw [if_pos h]

theorem changeAvailProp_type {p : Payload} (l : ChangeAvailLocals) (h : SetsType p) :
    changeAvailProp p l = { l with rejected2 := false, setVal := !p.holds "Inoperative" } := by
  obtain ⟨htype, hholds⟩ := h
  unfold changeAvailProp
  rw [if_neg (by simp [not_connectorId htype]), if_pos htype]
  cases hin : p.holds "Inoperative" with
  | true => rfl
  | false =>
    have hop : p.holds "Operative" = true := hholds.resolve_left (by simp [hin])
    rw [if_neg (by simp), if_pos hop]
    rfl

theorem changeAvailProp_reject {p : Payload} (l : ChangeAvailLocals)
    (hc : p.named "connectorId" = false) (ht : ¬ SetsType p) :
    changeAvailProp p l = { l with rejected2 := true } := by
  unfold changeAvailProp
  rw [if_neg (by simp [hc])]
  split
  · rename_i htype
    rw [if_neg fun h => ht ⟨htype, .inl h⟩, if_neg fun h => ht ⟨htype, .inr h⟩]
  · rfl

theorem changeAvailProp_comm {x y : Payload} (hname : cstr x.propertyName ≠ cstr y.propertyName)
    (h : (¬ SetsType x ∧ ¬ SetsType y) ∨ (¬ Stray x ∧ ¬ Stray y)) (l : ChangeAvailLocals) :
    changeAvailProp y (changeAvailProp x l) = changeAvailProp x (changeAvailProp y l) := by
  have hone : ∀ {x y : Payload}, cstr x.propertyName ≠ cstr y.propertyName →
      x.named "connectorId" = true →
      changeAvailProp y (changeAvailProp x l) = changeAvailProp x (changeAvailProp y l) := by
    intro x y hname hx
    have hy := named_other hname hx
    rw [changeAvailProp_connector _ hx, changeAvailProp_connector _ hx]
    by_cases hty : SetsType y
    · rw [changeAvailProp_type _ hty, changeAvailProp_type _ hty]
    · rw [changeAvailProp_reject _ hy hty, changeAvailProp_reject _ hy hty]
  cases hx : x.named "connectorId" with
  | true => exact hone hname hx
  | false =>
    cases hy : y.named "connectorId" with
    | true => exact (hone (Ne.symm hname) hy).symm
    | false =>
      rcases h with ⟨htx, hty⟩ | ⟨hsx, hsy⟩
      · rw [changeAvailProp_reject _ hx htx, changeAvailProp_reject _ hy hty,
          changeAvailProp_reject _ hx htx, changeAvailProp_reject _ hy hty]
      · -- neither is a connector id, so both would be the type
        have htx : x.named "type" = true := by
          by_contra hbad
          exact hsx ⟨hx, by simpa using hbad⟩
        exact absurd ⟨hy, named_other hname htx⟩ hsy

section Avail
variable {rx rx' : RxBuf} {c : Charger}

/-- The locals after the loop. -/
def availLocals (j : Junk) (ps : List Payload) : ChangeAvailLocals :=
  ps.foldl (fun l p => changeAvailProp p l) ⟨j.rejected1, j.rejected2, j.cntrId, j.setVal⟩

theorem changeAvail_eq (j : Junk) (hlen : rx.msg.payloadLen < payloadCap) (tx : TxBuf) :
    dataProcCmdChangeAvail j rx c tx =
      (let l := availLocals j rx.props
       if l.rejected1 || l.rejected2 || c.scene.appOrder ≠ appOrderWait then
         some (c, makeCallRes .rejected rx tx)
       else if l.cntrId = 0 then
         let c := setAvail (setAvail c 0 l.setVal) 1 l.setVal
         let st := if l.setVal then c.chargingStatus ||| 3 else 0
         some ({ c with chargingStatus := st }, makeCallRes .accept rx tx)
       else (connIdx l.cntrId.toNat).bind fun i =>
         let c := setAvail c i l.setVal
         let bit := (1 : UInt32) <<< UInt32.ofNat i.val
         let st := if l.setVal then c.chargingStatus ||| bit else c.chargingStatus &&& ~~~bit
         some ({ c with chargingStatus := st }, makeCallRes .accept rx tx)) := by
  have hloop : forProps rx (fun p l => some (changeAvailProp p l))
      ⟨j.rejected1, j.rejected2, j.cntrId, j.setVal⟩ = some (availLocals j rx.props) := by
    rw [forProps_eq, if_pos hlen]
    exact List.foldlM_pure
  unfold dataProcCmdChangeAvail
  rw [hloop]
  rfl

/-- The request is rejected. -/
theorem changeAvail_rejected {j : Junk} {tx : TxBuf} (hlen : rx.msg.payloadLen < payloadCap)
    (hplain : tx.Plain) (h : ((availLocals j rx.props).rejected1 ||
      (availLocals j rx.props).rejected2 || decide (c.scene.appOrder ≠ appOrderWait)) = true) :
    outcome .changeAvail j rx c tx =
      some (c, answerFrame rx.msg.uniqueIdChar ResType.rejected.reply.text) := by
  refine outcome_reply (x := some (c, ResType.rejected.reply)) hplain ?_
  show dataProcCmdChangeAvail j rx c _ = _
  rw [changeAvail_eq j hlen]
  dsimp only
  rw [if_pos h]
  rfl

/-- The request is accepted. -/
theorem changeAvail_accepted {j : Junk} {tx : TxBuf} (hlen : rx.msg.payloadLen < payloadCap)
    (hplain : tx.Plain) (h : ((availLocals j rx.props).rejected1 ||
      (availLocals j rx.props).rejected2 || decide (c.scene.appOrder ≠ appOrderWait)) = false)
    (hid : (availLocals j rx.props).cntrId.toNat ≤ maxConectorId) :
    ∃ d, outcome .changeAvail j rx c tx =
      some (d, answerFrame rx.msg.uniqueIdChar ResType.accept.reply.text) := by
  have hserve : ∃ d, ∀ tx, dataProcCmdChangeAvail j rx c tx = some (d, makeCallRes .accept rx tx) := by
    have hno : ¬ ((availLocals j rx.props).rejected1 || (availLocals j rx.props).rejected2 ||
        decide (c.scene.appOrder ≠ appOrderWait)) = true := by
      rw [h]
      decide
    have heq := fun tx => changeAvail_eq (c := c) j hlen tx
    by_cases hzero : (availLocals j rx.props).cntrId = 0
    · simp only [if_neg hno, if_pos hzero] at heq
      exact ⟨_, heq⟩
    · obtain ⟨i, hi⟩ : ∃ i, connIdx (availLocals j rx.props).cntrId.toNat = some i :=
        ⟨_, dif_pos (Nat.lt_succ_of_le hid)⟩
      simp only [if_neg hno, if_neg hzero, hi, Option.bind_some] at heq
      exact ⟨_, heq⟩
  obtain ⟨d, hd⟩ := hserve
  exact ⟨d, outcome_reply (x := some (d, ResType.accept.reply)) hplain (hd _)⟩

/-- A connector id that is too large is remembered. -/
theorem outOfRange_rejected {ps : List Payload} {l : ChangeAvailLocals}
    (hall : ∀ p ∈ ps, p.named "connectorId" = true → OutOfRange p)
    (h : l.rejected1 = true ∨ ∃ p ∈ ps, p.named "connectorId" = true) :
    (ps.foldl (fun l p => changeAvailProp p l) l).rejected1 = true := by
  induction ps generalizing l with
  | nil =>
    rcases h with h | ⟨p, hp, -⟩
    · exact h
    · exact absurd hp List.not_mem_nil
  | cons q ps ih =>
    refine ih (l := changeAvailProp q l) (fun p hp => hall p (List.mem_cons_of_mem q hp)) ?_
    cases hq : q.named "connectorId" with
    | true =>
      left
      rw [changeAvailProp_connector l hq]
      exact decide_eq_true (hall q List.mem_cons_self hq).2
    | false =>
      rcases h with h | ⟨p, hp, hnamed⟩
      · left
        by_cases ht : SetsType q
        · rw [changeAvailProp_type l ht]
          exact h
        · rw [changeAvailProp_reject l hq ht]
          exact h
      · rcases List.mem_cons.mp hp with rfl | hp
        · exact absurd (hnamed.symm.trans hq) (by decide)
        · exact .inr ⟨p, hp, hnamed⟩

/-- No connector id is too large: the verdict stays, and the connector exists. -/
theorem inRange_kept {ps : List Payload} {l : ChangeAvailLocals} (hall : ∀ p ∈ ps, ¬ OutOfRange p)
    (h : l.rejected1 = false ∧ l.cntrId.toNat ≤ maxConectorId) :
    (ps.foldl (fun l p => changeAvailProp p l) l).rejected1 = false ∧
      (ps.foldl (fun l p => changeAvailProp p l) l).cntrId.toNat ≤ maxConectorId := by
  induction ps generalizing l with
  | nil => exact h
  | cons q ps ih =>
    refine ih (l := changeAvailProp q l) (fun p hp => hall p (List.mem_cons_of_mem q hp)) ?_
    cases hq : q.named "connectorId" with
    | true =>
      have hle := Nat.le_of_not_lt fun hlt => hall q List.mem_cons_self ⟨hq, hlt⟩
      rw [changeAvailProp_connector l hq]
      exact ⟨decide_eq_false (Nat.not_lt.mpr hle), hle⟩
    | false =>
      by_cases ht : SetsType q
      · rw [changeAvailProp_type l ht]
        exact h
      · rw [changeAvailProp_reject l hq ht]
        exact h

theorem changeAvail_indifferent (hd : rx.Distinct) (hlen : rx.msg.payloadLen < payloadCap) :
    Indifferent .changeAvail rx c ↔ c.scene.appOrder ≠ appOrderWait ∨
      (∀ p ∈ rx.props, ¬ SetsType p) ∨ (∀ p ∈ rx.props, ¬ Stray p) ∨ ∃ p ∈ rx.props, OutOfRange p := by
  constructor
  · intro hindiff
    by_contra hbad
    simp only [not_or, not_forall, not_not, not_exists] at hbad
    obtain ⟨hwait, ⟨t, ht, htype⟩, ⟨q, hq, hstray⟩, hin⟩ := hbad
    have hin : ∀ p ∈ rx.props, ¬ OutOfRange p := fun p hp hout => hin p ⟨hp, hout⟩
    obtain ⟨rx₁, ps₁, h₁, hprops₁⟩ := exists_last ht
    obtain ⟨rx₂, ps₂, h₂, hprops₂⟩ := exists_last hq
    -- with the type last the request is accepted
    have hlocals₁ : availLocals .zero rx₁.props = changeAvailProp t (availLocals .zero ps₁) := by
      rw [hprops₁, availLocals, List.foldl_concat]
      rfl
    have hkept : (availLocals .zero ps₁).rejected1 = false ∧
        (availLocals .zero ps₁).cntrId.toNat ≤ maxConectorId := by
      refine inRange_kept (fun p hp => hin p (h₁.props.mem_iff.mp ?_)) ⟨rfl, Nat.zero_le _⟩
      rw [hprops₁]
      exact List.mem_append_left _ hp
    have hpass : ((availLocals .zero rx₁.props).rejected1 || (availLocals .zero rx₁.props).rejected2 ||
        decide (c.scene.appOrder ≠ appOrderWait)) = false := by
      rw [hlocals₁, changeAvailProp_type _ htype]
      simpa [hwait] using hkept.1
    have hid : (availLocals .zero rx₁.props).cntrId.toNat ≤ maxConectorId := by
      rw [hlocals₁, changeAvailProp_type _ htype]
      exact hkept.2
    obtain ⟨d, hacc⟩ := changeAvail_accepted (by rw [h₁.payloadLen]; exact hlen) txZero_plain hpass hid
    -- with the other one last it is rejected
    have hlocals₂ : availLocals .zero rx₂.props = changeAvailProp q (availLocals .zero ps₂) := by
      rw [hprops₂, availLocals, List.foldl_concat]
      rfl
    have hfail : ((availLocals .zero rx₂.props).rejected1 || (availLocals .zero rx₂.props).rejected2 ||
        decide (c.scene.appOrder ≠ appOrderWait)) = true := by
      rw [hlocals₂,
        changeAvailProp_reject _ hstray.1 fun h => absurd (hstray.2.symm.trans h.1) (by decide)]
      simp
    have hrej := changeAvail_rejected (by rw [h₂.payloadLen]; exact hlen) txZero_plain hfail
    have heq := (hindiff rx₁ h₁ .zero _ txZero_plain).trans
      (hindiff rx₂ h₂ .zero _ txZero_plain).symm
    rw [hacc, hrej, h₁.uniqueIdChar, h₂.uniqueIdChar] at heq
    exact accept_ne_rejected (answerFrame_inj (Prod.mk.inj (Option.some.inj heq)).2)
  · intro hfree rx' h j tx hplain
    have hrejected : (∀ rx₁, Reordered rx rx₁ → ((availLocals j rx₁.props).rejected1 ||
        (availLocals j rx₁.props).rejected2 || decide (c.scene.appOrder ≠ appOrderWait)) = true) →
        outcome .changeAvail j rx' c tx = outcome .changeAvail j rx c tx := by
      intro hall
      rw [changeAvail_rejected (by rw [h.payloadLen]; exact hlen) hplain (hall rx' h),
        changeAvail_rejected hlen hplain (hall rx (.refl rx)), h.uniqueIdChar]
    have hcommutes : (∀ x ∈ rx.props, ∀ y ∈ rx.props,
        (¬ SetsType x ∧ ¬ SetsType y) ∨ (¬ Stray x ∧ ¬ Stray y)) →
        outcome .changeAvail j rx' c tx = outcome .changeAvail j rx c tx := by
      intro hall
      have hloop := forProps_reordered h hd (fun x hx y hy hname l =>
        changeAvailProp_comm hname (hall x hx y hy) l)
        ⟨j.rejected1, j.rejected2, j.cntrId, j.setVal⟩
      have hserve : ∀ tx, dataProcCmdChangeAvail j rx' c tx = dataProcCmdChangeAvail j rx c tx := by
        intro tx
        unfold dataProcCmdChangeAvail
        rw [hloop]
        simp only [h.makeCallRes]
      unfold outcome
      rw [h.uniqueIdChar]
      exact congrArg (Option.map _) (hserve _)
    rcases hfree with hwait | hnone | hstray | ⟨p, hp, hout⟩
    · exact hrejected fun rx₁ _ => by simp [hwait]
    · exact hcommutes fun x hx y hy => .inl ⟨hnone x hx, hnone y hy⟩
    · exact hcommutes fun x hx y hy => .inr ⟨hstray x hx, hstray y hy⟩
    · refine hrejected fun rx₁ h₁ => ?_
      have hall : ∀ q ∈ rx₁.props, q.named "connectorId" = true → OutOfRange q := by
        intro q hq hnamed
        by_cases hname : cstr p.propertyName = cstr q.propertyName
        · rw [← List.inj_on_of_nodup_map hd hp (h₁.props.mem_iff.mp hq) hname]
          exact hout
        · exact absurd ((named_other hname hout.1).symm.trans hnamed) (by decide)
      have hrej : (availLocals j rx₁.props).rejected1 = true :=
        outOfRange_rejected hall (.inr ⟨p, h₁.props.mem_iff.mpr hp, hout.1⟩)
      rw [hrej]
      rfl

end Avail

/-! ## UpdateFirmware

The location is copied with all its 1024 bytes, over the time stamp that lies 70 bytes on
(`Overrun`). If the date comes first it is overwritten, and what is left is the same only if the
location carries that very date there. -/

section UpdateFw
variable {rx rx' : RxBuf} {c : Charger}

/-- What the location leaves where the time stamp lies is the date. Both copies go on behind
`fwUpdateVals`, where no variable of the charger lies: what they leave there is no part of the
state that is compared, and would be the same in both orders if the characters of the location
from 70 on were all of the date's. -/
def OverlapsAlike (l d : Payload) : Prop :=
  (l.propertyContants.drop 70).take 50 = d.propertyContants.take 50

theorem updateFwProp_comm {x y : Payload} (hname : cstr x.propertyName ≠ cstr y.propertyName)
    (hxy : x.named "location" = true → y.named "retrieveDate" = true → OverlapsAlike x y)
    (hyx : y.named "location" = true → x.named "retrieveDate" = true → OverlapsAlike y x)
    (fw : FwUpdate) : updateFwProp y (updateFwProp x fw) = updateFwProp x (updateFwProp y fw) := by
  have hld : "location".toList ≠ "retrieveDate".toList := by decide
  unfold updateFwProp OverlapsAlike at *
  cases hx : x.named "location" with
  | true =>
    cases hy : y.named "retrieveDate" with
    | true => simp [named_other hname hx, named_ne hld hx, hxy hx hy]
    | false => simp [named_other hname hx, named_ne hld hx]
  | false =>
    cases hy : y.named "location" with
    | true =>
      cases hx' : x.named "retrieveDate" with
      | true => simp [named_ne hld hy, hyx hy hx']
      | false => simp [named_ne hld hy]
    | false =>
      cases hx' : x.named "retrieveDate" with
      | true => simp [named_other hname hx']
      | false => cases y.named "retrieveDate" <;> simp

theorem outcome_updateFw (h : Reordered rx rx') (hlen : rx.msg.payloadLen < payloadCap) (j : Junk)
    {tx : TxBuf} (hplain : tx.Plain) : outcome .updateFw j rx' c tx =
      some ({ c with fw := updateFwProps rx'.props c.fw }, answerFrame rx.msg.uniqueIdChar []) := by
  have hloop : forProps rx' (fun p fw => some (updateFwProp p fw)) c.fw =
      some (updateFwProps rx'.props c.fw) := by
    rw [forProps_eq, if_pos (by rw [h.payloadLen]; exact hlen)]
    exact List.foldlM_pure
  have hserve : rxCallDataProc .updateFw j rx' c tx = (forProps rx'
      (fun p fw => some (updateFwProp p fw)) c.fw).bind fun fw =>
        some ({ c with fw := fw }, Reply.write rx'
          { tx with msg := { tx.msg with msgType := msgTypeCallRes } } .empty) := rfl
  rw [hloop] at hserve
  rw [← h.uniqueIdChar]
  exact outcome_reply (x := some ({ c with fw := updateFwProps rx'.props c.fw }, .empty)) hplain hserve

theorem updateFw_indifferent (hd : rx.Distinct) (hlen : rx.msg.payloadLen < payloadCap) :
    Indifferent .updateFw rx c ↔ ∀ l ∈ rx.props, ∀ d ∈ rx.props, l.named "location" = true →
      d.named "retrieveDate" = true → OverlapsAlike l d := by
  constructor
  · intro hindiff l hl d hdate hloc hret
    obtain ⟨rx₁, ps₁, h₁, hprops₁⟩ := exists_last hl
    obtain ⟨rx₂, ps₂, h₂, hprops₂⟩ := exists_last hdate
    have heq := (hindiff rx₁ h₁ .zero _ txZero_plain).trans
      (hindiff rx₂ h₂ .zero _ txZero_plain).symm
    rw [outcome_updateFw h₁ hlen .zero txZero_plain, outcome_updateFw h₂ hlen .zero txZero_plain,
      hprops₁, hprops₂] at heq
    have hstamp := congrArg (fun c : Charger => c.fw.timeStamp) (Prod.mk.inj (Option.some.inj heq)).1
    simp only [updateFwProps, List.foldl_concat] at hstamp
    rw [(updateFwProp_location _ (fun _ => nul) hloc).2.1,
      (updateFwProp_date _ (fun _ => nul) hret).2.1] at hstamp
    exact hstamp
  · intro hall rx' h j tx hplain
    rw [outcome_updateFw h hlen j hplain, outcome_updateFw (.refl rx) hlen j hplain]
    have hfold : updateFwProps rx'.props c.fw = updateFwProps rx.props c.fw := by
      refine List.Perm.foldl_eq' h.props ?_ c.fw
      intro x hx y hy fw
      have hx := h.props.mem_iff.mp hx
      have hy := h.props.mem_iff.mp hy
      by_cases hname : cstr x.propertyName = cstr y.propertyName
      · rw [List.inj_on_of_nodup_map hd hx hy hname]
      · exact updateFwProp_comm hname (hall x hx y hy) (hall y hy x hx) fw
    rw [hfold]

end UpdateFw

/-! ## Every request -/

/-- **The order of the properties is irrelevant** for a request and a charger. -/
def OrderFree (cmd : CsReqAction) (rx : RxBuf) (c : Charger) : Prop :=
  match cmd with
  | .changeAvail => c.scene.appOrder ≠ appOrderWait ∨ (∀ p ∈ rx.props, ¬ SetsType p) ∨
      (∀ p ∈ rx.props, ¬ Stray p) ∨ ∃ p ∈ rx.props, OutOfRange p
  | .changeConfig => ∀ k ∈ rx.props, ∀ v ∈ rx.props, k.named "key" = true →
      v.named "value" = true → Refuses k v
  | .getConfig => rx.props.length ≤ 1 ∨ (∀ p ∈ rx.props, AsksUnknown rx c p) ∨
      ∀ p ∈ rx.props, AsksAll rx c p
  | .remoteStop => rx.props.length ≤ 1 ∨
      ∀ p ∈ rx.props, p.named "transactionId" = true → OtherTransaction c p
  | .reset => rx.props.length ≤ 1 ∨ ∀ p ∈ rx.props, ¬ AsksReset p
  | .updateFw => ∀ l ∈ rx.props, ∀ d ∈ rx.props, l.named "location" = true →
      d.named "retrieveDate" = true → OverlapsAlike l d
  | _ => True

/-- **Property order.** All orders of the properties of a request leave the same charger and the
same answer exactly when `OrderFree` says so. -/
theorem order_irrelevant_iff {rx : RxBuf} (cmd : CsReqAction) (c : Charger) (hd : rx.Distinct)
    (hlen : rx.msg.payloadLen < payloadCap) : Indifferent cmd rx c ↔ OrderFree cmd rx c := by
  have hequal : (∀ rx', Reordered rx rx' → ∀ j tx,
      rxCallDataProc cmd j rx' c tx = rxCallDataProc cmd j rx c tx) → Indifferent cmd rx c := by
    intro hall rx' h j tx _
    unfold outcome
    rw [hall rx' h j tx, h.uniqueIdChar]
  cases cmd with
  | changeAvail => exact changeAvail_indifferent hd hlen
  | changeConfig => exact changeConfig_indifferent
  | getConfig => exact getConfig_indifferent hd
  | remoteStop => exact remoteStop_indifferent hd
  | reset => exact reset_indifferent hd
  | updateFw => exact updateFw_indifferent hd hlen
  | remoteStart => exact iff_of_true (hequal fun _ h _ _ => remoteStart_reordered h hd _) trivial
  | triggerMsg => exact iff_of_true (hequal fun _ h _ _ => triggerMsg_reordered h hd _) trivial
  | dataTransfer => exact iff_of_true (hequal fun _ h j _ => dataTrans_reordered h hd j _) trivial
  | getDiag => exact iff_of_true (hequal fun _ h _ _ => getDiag_reordered h hd _) trivial
  | unlockConnect => exact iff_of_true (hequal fun _ h _ _ => unlockConnect_reordered h hd _) trivial
  | clearCache | clearChargProf | sndLocalList =>
    refine iff_of_true (hequal fun rx' h j tx => ?_) trivial
    simp only [rxCallDataProc, h.makeCallRes]
  | getLocalVer =>
    refine iff_of_true (hequal fun rx' h j tx => ?_) trivial
    simp only [rxCallDataProc, dataProcCmdGetLocalListVer, h.answer]
  | none | cancelReseve | getCompositSched | reserve | setChgProfile =>
    exact iff_of_true (hequal fun _ _ _ _ => rfl) trivial

/-! ## Two requests -/

/-- The parser reads the frame as these properties, in this order, of a request "1". -/
def readsProps (cmd : CsReqAction) (frame : List Char) (ps : List Payload) : Bool :=
  decide (frame.length < Client.recvBufCap) && decide ((typeText frame).head? = some '2') &&
    (parseData .none 0 clearRxMsgBuff frame).any fun d =>
      !d.err && decide (d.rx.msg.actionCode = .cs cmd) &&
        decide (d.rx.msg.payloadLen < payloadCap) && decide (d.rx.msg.uniqueIdChar = ['1']) &&
        decide (d.rx.props = ps)

theorem readsProps_read {cmd : CsReqAction} {frame : List Char} {ps : List Payload}
    (h : readsProps cmd frame ps = true) :
    ∃ rx, ReadAs frame cmd rx ∧ rx.msg.payloadLen < payloadCap ∧ rx.msg.uniqueIdChar = ['1'] ∧
      rx.props = ps := by
  simp only [readsProps, Bool.and_eq_true, decide_eq_true_eq, Option.any_eq_true] at h
  obtain ⟨⟨hlen, htype⟩, ⟨err, rx, dt⟩, hparse, ⟨⟨⟨herr, hact⟩, hcap⟩, hid⟩, hps⟩ := h
  obtain rfl : err = false := by simpa using herr
  exact ⟨rx, ⟨hlen, htype, ⟨dt, hparse⟩, hact⟩, hcap, hid, hps⟩

/-- A property of a string. -/
def strProp (name val : String) : Payload :=
  { Payload.zero with propertyName := name.toList, propertyContants := val.toList }

/-- A remote start lists its properties as it likes. -/
theorem order_irrelevant_start :
    ∃ rx, ReadAs ("[2,\"1\",\"RemoteStartTransaction\",\x7b\"idTag\":\"A1\"," ++
      "\"connectorId\":\"1\"\x7d]").toList .remoteStart rx ∧
      Indifferent .remoteStart rx (.init 0) := by
  have hreads : readsProps .remoteStart ("[2,\"1\",\"RemoteStartTransaction\",\x7b\"idTag\":\"A1\"," ++
      "\"connectorId\":\"1\"\x7d]").toList
      [strProp "idTag" "A1", strProp "connectorId" "1"] = true := by
    decide +kernel
  obtain ⟨rx, hread, hlen, -, hprops⟩ := readsProps_read hreads
  have hd : rx.Distinct := by
    unfold RxBuf.Distinct
    rw [hprops]
    decide
  exact ⟨rx, hread, (order_irrelevant_iff .remoteStart (.init 0) hd hlen).mpr trivial⟩

/-- A change of the configuration does not: with the value first it is rejected. -/
theorem order_matters_config : ∃ rx rx',
    ReadAs ("[2,\"1\",\"ChangeConfiguration\",\x7b\"key\":\"ConnectionTimeOut\"," ++
      "\"value\":\"60\"\x7d]").toList .changeConfig rx ∧
    ReadAs ("[2,\"1\",\"ChangeConfiguration\",\x7b\"value\":\"60\"," ++
      "\"key\":\"ConnectionTimeOut\"\x7d]").toList .changeConfig rx' ∧
    rx'.props.Perm rx.props ∧ rx.Distinct ∧
    ∀ c tx, tx.Plain → (outcome .changeConfig .zero rx' c tx).map Prod.snd ≠
      (outcome .changeConfig .zero rx c tx).map Prod.snd := by
  have hreads₁ : readsProps .changeConfig
      ("[2,\"1\",\"ChangeConfiguration\",\x7b\"key\":\"ConnectionTimeOut\"," ++
        "\"value\":\"60\"\x7d]").toList
      [strProp "key" "ConnectionTimeOut", strProp "value" "60"] = true := by decide +kernel
  have hreads₂ : readsProps .changeConfig
      ("[2,\"1\",\"ChangeConfiguration\",\x7b\"value\":\"60\"," ++
        "\"key\":\"ConnectionTimeOut\"\x7d]").toList
      [strProp "value" "60", strProp "key" "ConnectionTimeOut"] = true := by decide +kernel
  obtain ⟨rx, hread, -, hid, hprops⟩ := readsProps_read hreads₁
  obtain ⟨rx', hread', -, hid', hprops'⟩ := readsProps_read hreads₂
  have hd : rx.Distinct := by
    unfold RxBuf.Distinct
    rw [hprops]
    decide
  refine ⟨rx, rx', hread, hread', ?_, hd, ?_⟩
  · rw [hprops, hprops']
    exact List.Perm.swap _ _ _
  · intro c tx hplain heq
    have hlen : 1 ≤ rx.msg.payloadLen := by
      have hlen := rx.length_props
      rw [hprops] at hlen
      exact (Nat.succ.inj hlen).le
    have hk := rx.props_zero
    have hv := RxBuf.props_get hlen
    have hk' := rx'.props_zero
    rw [hprops] at hk hv
    rw [hprops'] at hk'
    have hvalue : (rx'.msg.payload 0).named "key" = false := by
      rw [← Option.some.inj hk']
      decide
    have hchange : changeConfigKey (rx.msg.payload 0) (rx.msg.payload 1) c =
        (.accept, c.setCfgInt 2 60) := by
      rw [← Option.some.inj hk, ← Option.some.inj hv]
      rfl
    have hnamed : (rx.msg.payload 0).named "key" = true ∧ (rx.msg.payload 1).named "value" = true := by
      rw [← Option.some.inj hk, ← Option.some.inj hv]
      decide
    rw [outcome_config (.refl rx') .zero hplain, outcome_config (.refl rx) .zero hplain, hid,
      hid'] at heq
    dsimp only at heq
    rw [if_neg (by simp [hvalue]), if_pos hnamed, hchange] at heq
    exact accept_ne_rejected (answerFrame_inj (Option.some.inj heq)).symm

end ChargePoint
