import ChargePoint.Charge.Layer
import ChargePoint.Client

/-!
# Cards during a session

A session that was started with an idTag and a parent id is stopped by the card of the idTag, and
by any other card for which the central system answers an Authorize with the same parent id.
Three places decide that together: the listener of the card reader, the handler of the answer, and
the monitoring thread, which compares two buffers of 21 bytes.

`Ledger` says what the decision should be, from what was presented and answered. `SecondCard` is
the invariant that connects it to the buffers. It is kept as long as nothing is left over from one
card to the next, and as long as no answer is a refusal: the handler copies the parent id of a
refusal too, and gives the session another order (`SessionOk`, `session_stops_iff`).
-/

set_option autoImplicit false

namespace ChargePoint

open CStr Loop ChargeLayer

/-! ## Buffers -/

theorem memEq_iff {a b : List Char} {n : Nat} :
    memEq a b n = true ↔ ∀ i < n, a.getD i nul = b.getD i nul := by
  simp [memEq]

/-- `memcmp` of two buffers in which the first holds a whole string. -/
theorem memEq_cstr {a b : List Char} {n : Nat} (ha : (cstr a).length < n)
    (h : memEq a b n = true) : cstr b = cstr a := by
  rw [memEq_iff] at h
  obtain ⟨hin, hend⟩ := (cstr_eq_iff (nulFree_cstr a)).mp rfl
  rw [cstr_eq_iff (nulFree_cstr a)]
  refine ⟨fun i hi => ?_, ?_⟩
  · rw [← h i (by omega)]
    exact hin i hi
  · rw [← h _ ha]
    exact hend

/-- A card as the reader delivers it: sixteen characters. -/
structure Uid (data : List Char) : Prop where
  length : data.length = 16
  nulFree : NulFree data

/-- `memcmp` with a card decides whether the idTag is the card's. -/
theorem memEq_uid {cardNo data : List Char} (hd : Uid data) :
    memEq cardNo data data.length = true ↔ data = idTag16 cardNo := by
  rw [memEq_iff, ← prefix_cstr_iff hd.nulFree, List.prefix_iff_eq_take, hd.length]
  rfl

/-! ## The answer

The answer to an Authorize is walked through property by property, in whatever order they come.
The status is not looked at before the parent id is copied; so what a refusal leaves behind
differs from an acceptance in the order of the session only. -/

/-- One property of the idTagInfo. -/
def authProp (q : Payload) (c : Charger) : Option Charger :=
  if q.named "status" then
    if q.holds "Accepted" then some { c with cs := { c.cs with bReqMemberFlg := true } }
    else some { c with scene := { c.scene with appOrder := appOrderAuthMethod,
                                               cardAuth := cardAuthFaild } }
  else if q.named "parentIdTag" then
    if (cstr q.propertyContants).length < 21 then
      some { c with cs := { c.cs with parentId := copyStr q.propertyContants c.cs.parentId } }
    else none
  else some c

/-- `OCPP_STATUS_ACCEPT`, as a text. -/
def acceptedText : List Char := "Accepted".toList

/-- What one property does to what the session is authorised by. -/
theorem authProp_cases {q : Payload} {c d : Charger} (h : authProp q c = some d) :
    d.scene.cardNo = c.scene.cardNo ∧ d.cs.scndCardNo = c.cs.scndCardNo ∧
    d.scene.appOrder = (if q.named "status" = true ∧ cstr q.propertyContants ≠ acceptedText then
      appOrderAuthMethod else c.scene.appOrder) ∧
    (q.named "parentIdTag" = true → (cstr q.propertyContants).length < 21) ∧
    d.cs.parentId = (if q.named "parentIdTag" = true then copyStr q.propertyContants c.cs.parentId
      else c.cs.parentId) := by
  unfold authProp at h
  split at h
  · rename_i hstatus
    have hother : ¬ q.named "parentIdTag" = true := by
      simp only [Payload.named, decide_eq_true_eq] at hstatus ⊢
      rw [hstatus]
      decide
    rw [if_neg hother]
    split at h
    · rename_i hacc
      have hacc : cstr q.propertyContants = acceptedText := of_decide_eq_true hacc
      obtain rfl := Option.some.inj h
      rw [if_neg fun hbad => hbad.2 hacc]
      exact ⟨rfl, rfl, rfl, fun htag => absurd htag hother, rfl⟩
    · rename_i hacc
      have hacc : cstr q.propertyContants ≠ acceptedText := fun heq => hacc (decide_eq_true heq)
      obtain rfl := Option.some.inj h
      rw [if_pos ⟨hstatus, hacc⟩]
      exact ⟨rfl, rfl, rfl, fun htag => absurd htag hother, rfl⟩
  · rename_i hstatus
    rw [if_neg fun hbad => hstatus hbad.1]
    split at h
    · rename_i htag
      split at h
      · rename_i hlen
        obtain rfl := Option.some.inj h
        rw [if_pos htag]
        exact ⟨rfl, rfl, rfl, fun _ => hlen, rfl⟩
      · cases h
    · rename_i htag
      obtain rfl := Option.some.inj h
      rw [if_neg htag]
      exact ⟨rfl, rfl, rfl, fun h => absurd h htag, rfl⟩

/-- The texts of the properties of a name. -/
def textsOf (name : String) (ps : List Payload) : List (List Char) :=
  (ps.filter fun q => q.named name).map fun q => cstr q.propertyContants

theorem textsOf_cons {name : String} {q : Payload} {ps : List Payload} :
    textsOf name (q :: ps) =
      if q.named name = true then cstr q.propertyContants :: textsOf name ps
      else textsOf name ps := by
  unfold textsOf
  rw [List.filter_cons]
  split <;> rfl

/-- The same for all of them: a refusal counts, and every parent id was copied. -/
theorem authProps_cases {ps : List Payload} {c d : Charger}
    (h : ps.foldlM (fun c q => authProp q c) c = some d) :
    d.scene.cardNo = c.scene.cardNo ∧ d.cs.scndCardNo = c.cs.scndCardNo ∧
    ((∀ t ∈ textsOf "status" ps, t = acceptedText) → d.scene.appOrder = c.scene.appOrder) ∧
    ((∃ t ∈ textsOf "status" ps, t ≠ acceptedText) → d.scene.appOrder = appOrderAuthMethod) ∧
    (∀ t ∈ textsOf "parentIdTag" ps, t.length < 21) ∧
    d.cs.parentId = (textsOf "parentIdTag" ps).foldl (fun b t => copyStr t b) c.cs.parentId := by
  -- property by property: a refusal stays, whatever comes behind it
  induction ps generalizing c with
  | nil =>
    obtain rfl := Option.some.inj h
    refine ⟨rfl, rfl, fun _ => rfl, ?_, ?_, rfl⟩
    · rintro ⟨t, ht, -⟩
      exact absurd ht List.not_mem_nil
    · exact fun t ht => absurd ht List.not_mem_nil
  | cons q ps ih =>
    rw [List.foldlM_cons, Option.bind_eq_bind, Option.bind_eq_some_iff] at h
    obtain ⟨e, he, hrest⟩ := h
    obtain ⟨hcard, hscnd, horder, hlen, hparent⟩ := authProp_cases he
    obtain ⟨hcard', hscnd', hsame, hrefused, hlen', hparent'⟩ := ih hrest
    rw [textsOf_cons, textsOf_cons]
    refine ⟨hcard'.trans hcard, hscnd'.trans hscnd, ?_, ?_, ?_, ?_⟩
    · intro hall
      have hrest : ∀ t ∈ textsOf "status" ps, t = acceptedText := by
        intro t ht
        refine hall t ?_
        split
        · exact List.mem_cons_of_mem _ ht
        · exact ht
      have hhead : ¬ (q.named "status" = true ∧ cstr q.propertyContants ≠ acceptedText) := by
        rintro ⟨hstatus, hne⟩
        rw [if_pos hstatus] at hall
        exact hne (hall _ List.mem_cons_self)
      rw [hsame hrest, horder, if_neg hhead]
    · rintro ⟨t, ht, hne⟩
      -- the refusal is a later property's, or the first one's and the later ones accept
      by_cases hlater : ∃ t ∈ textsOf "status" ps, t ≠ acceptedText
      · exact hrefused hlater
      · have hall : ∀ t ∈ textsOf "status" ps, t = acceptedText :=
          fun t ht => by_contra fun hbad => hlater ⟨t, ht, hbad⟩
        have hhead : q.named "status" = true ∧ cstr q.propertyContants ≠ acceptedText := by
          split at ht
          · rename_i hstatus
            rcases List.mem_cons.mp ht with rfl | ht
            · exact ⟨hstatus, hne⟩
            · exact absurd (hall t ht) hne
          · exact absurd (hall t ht) hne
        rw [hsame hall, horder, if_pos hhead]
    · intro t ht
      split at ht
      · rename_i htag
        rcases List.mem_cons.mp ht with rfl | ht
        · exact hlen htag
        · exact hlen' t ht
      · exact hlen' t ht
    · rw [hparent', hparent]
      split
      · rw [List.foldl_cons]
        congr 1
        unfold copyStr
        rw [cstr_cstr]
      · rfl

/-- **What an Authorize answer does.** -/
structure Authorized (status : List Char) (tag : Option (List Char)) (c c' : Charger) : Prop where
  cardNo : c'.scene.cardNo = c.scene.cardNo
  scndCardNo : c'.cs.scndCardNo = c.cs.scndCardNo
  reqAuthNo : c'.cs.bReqAuthNo = 0
  accepted : status = acceptedText → c'.scene.appOrder = c.scene.appOrder
  refused : status ≠ acceptedText → c'.scene.appOrder = appOrderAuthMethod
  fits : ∀ t ∈ tag, t.length < 21
  parentId : c'.cs.parentId = tag.elim c.cs.parentId fun t => copyStr t c.cs.parentId

/-- **An Authorize answer**: the idTagInfo comes first, with one status and at most one parent
id. -/
structure AuthorizeConf (rx : RxBuf) (status : List Char) (tag : Option (List Char)) : Prop where
  info : (rx.msg.payload 0).named "idTagInfo" = true
  subs : ∃ ps : List Payload, (List.range ((rx.msg.payload 0).subPayloadLen + 1)).map
      (rx.deref (rx.msg.payload 0).subPayload) = ps.map some ∧
    textsOf "status" ps = [status] ∧ textsOf "parentIdTag" ps = tag.toList

theorem dataProcCmdAuth_authorized {rx : RxBuf} {c c' : Charger} {status : List Char}
    {tag : Option (List Char)} (hconf : AuthorizeConf rx status tag)
    (h : dataProcCmdAuth rx c = some c') : Authorized status tag c c' := by
  obtain ⟨hinfo, ps, hps, hstatus, htag⟩ := hconf
  have hloop : forSubProps rx (rx.msg.payload 0) authProp c =
      ps.foldlM (fun c q => authProp q c) c := by
    have hmap : ((List.range ((rx.msg.payload 0).subPayloadLen + 1)).map
        (rx.deref (rx.msg.payload 0).subPayload)).foldlM
          (fun c o => o.bind fun q => authProp q c) c =
        (List.range ((rx.msg.payload 0).subPayloadLen + 1)).foldlM
          (fun c j => (rx.deref (rx.msg.payload 0).subPayload j).bind fun q => authProp q c) c :=
      List.foldlM_map
    rw [hps, List.foldlM_map] at hmap
    unfold forSubProps
    rw [forUpTo_eq]
    exact hmap.symm
  have h : (forSubProps rx (rx.msg.payload 0) authProp c).map
      (fun c => { c with cs := { c.cs with bReqAuthNo := 0 } }) = some c' := by
    unfold dataProcCmdAuth at h
    dsimp only at h
    rw [if_pos hinfo] at h
    exact h
  rw [hloop, Option.map_eq_some_iff] at h
  obtain ⟨d, hd, rfl⟩ := h
  obtain ⟨hcard, hscnd, hsame, hrefused, hlen, hparent⟩ := authProps_cases hd
  rw [hstatus] at hsame hrefused
  rw [htag] at hlen hparent
  refine ⟨hcard, hscnd, rfl, ?_, ?_, ?_, ?_⟩
  · intro hacc
    exact hsame fun t ht => (List.mem_singleton.mp ht).trans hacc
  · intro hne
    exact hrefused ⟨status, List.mem_singleton_self _, hne⟩
  · intro t ht
    exact hlen t (Option.mem_toList.mpr ht)
  · show d.cs.parentId = _
    rw [hparent]
    cases tag <;> rfl

/-! ## What the session should do

The ledger is the specification. It is a fold over what was observed, knows the last second card
and whether its Authorize brought the parent id of the session, and does not look at any buffer. -/

/-- What was presented and answered: the last second card, and whether its Authorize was answered
with the parent id of the session. -/
structure Ledger where
  last : Option (List Char)
  good : Bool

/-- The answer that authorises a second card. -/
def Authorises (parent : List Char) (rx : RxBuf) : Prop :=
  parent ≠ [] ∧ AuthorizeConf rx acceptedText (some parent)

open Classical in
/-- One observation of a session of `idTag` and `parent`. -/
noncomputable def Ledger.observe (idTag parent : List Char) (l : Ledger) : ChargeObs → Ledger
  | .presented data => if data = idTag then l else ⟨some data, false⟩
  | .authorized card rx =>
    if l.last = some card then ⟨l.last, decide (Authorises parent rx)⟩ else l
  | .entered | .stopped _ => l

theorem Ledger.observe_presented {idTag data : List Char} (parent : List Char) (l : Ledger)
    (h : data ≠ idTag) :
    Ledger.observe idTag parent l (.presented data) = ⟨some data, false⟩ := by
  unfold observe
  exact if_neg h

theorem Ledger.observe_authorized (idTag : List Char) {parent card : List Char} {rx : RxBuf}
    {l : Ledger} (h : l.last = some card) :
    (Ledger.observe idTag parent l (.authorized card rx)).good = true ↔ Authorises parent rx := by
  unfold observe
  dsimp only
  rw [if_pos h]
  simp only [decide_eq_true_eq]

noncomputable def ledger (idTag parent : List Char) (log : List ChargeObs) : Ledger :=
  log.foldl (Ledger.observe idTag parent) ⟨none, false⟩

/-- **What stops the session**: the card it was started with, or the monitor, once the last second
card was authorised. -/
inductive Entitled (idTag parent : List Char) (log : List ChargeObs) : ChargeEvent → Prop
  | card : Entitled idTag parent log (.card idTag)
  | second (h : (ledger idTag parent log).good = true) : Entitled idTag parent log .monitor

/-- The card path has not stopped the session yet. -/
def Unstopped (log : List ChargeObs) : Prop := ChargeObs.stopped .card ∉ log

/-- **A session is entered**, with an idTag and a parent id that fit their fields, while no
authorisation is under way. -/
structure Enters (idTag parent : List Char) (s₀ s : ChargeLayer) : Prop where
  enter : ∃ tm, s₀.chargeOnEnter tm = some s
  userAuthNet : s₀.userAuthNet = true
  card : idTag16 s₀.cp.scene.cardNo = idTag
  tag : cstr s₀.cp.cs.parentId = parent
  fits : parent.length < 21
  idle : s₀.cp.cs.bReqAuthNo = 0 ∧ s₀.authInFlight = none

/-- The monitor is about to stop the session. -/
def ChargeLayer.StopDue (s : ChargeLayer) : Prop :=
  s.cp.cs.bReqAuthNo = 0 ∧ memEq s.pIdNo2 s.cp.cs.parentId 21 = true ∧ s.pIdNo2.headD nul ≠ nul

/-- **A step that the card path is prepared for.** Another card is read when nothing is left from
the card before; an answer accepts, and leaves no bytes behind a parent id that matches; no other
thread writes what the session is authorised by. -/
def SessionOk (idTag parent : List Char) (s : ChargeLayer) : ChargeEvent → Prop
  | .card data => Uid data ∧ (data = idTag ∨
      (s.authInFlight = none ∨ s.authInFlight = some data) ∧ ¬ s.StopDue)
  | .authConf rx => ∃ status tag, AuthorizeConf rx status tag ∧
      (status = acceptedText ∨ (s.cp.scene.appOrder = appOrderAuthMethod ∧ tag ≠ some parent)) ∧
      (tag = some parent →
        ∀ i < 21, parent.length < i → s.pIdNo2.getD i nul = s.cp.cs.parentId.getD i nul)
  | .shared c => c.scene.cardNo = s.cp.scene.cardNo ∧ c.cs.scndCardNo = s.cp.cs.scndCardNo ∧
      c.cs.parentId = s.cp.cs.parentId ∧ c.cs.bReqAuthNo = s.cp.cs.bReqAuthNo
  | .enter _ | .leave _ | .finishEnter | .finishLeave => False
  | _ => True

/-! ## The invariant

Between the card and the look of the monitor the authorisation is idle or asked for. In both cases
the invariant says what the ledger has noted and what the buffers hold: when idle, the monitor is
about to stop the session exactly if the last card is good. -/

/-- Where the authorisation of a second card stands. -/
inductive SecondCard (idTag parent : List Char) (s : ChargeLayer) (log : List ChargeObs) : Prop
  | idle (hreq : s.cp.cs.bReqAuthNo = 0) (hflight : s.authInFlight = none)
      (hgood : (ledger idTag parent log).good = true ↔ s.StopDue)
  | asked (data : List Char) (huid : Uid data) (hreq : s.cp.cs.bReqAuthNo = 2)
      (hlast : (ledger idTag parent log).last = some data)
      (hbad : (ledger idTag parent log).good = false)
      (hscnd : cstr s.cp.cs.scndCardNo = data)
      (hflight : s.authInFlight = none ∨ s.authInFlight = some data)
      (hparent : memEq s.pIdNo2 s.cp.cs.parentId 21 = false)
      (hhead : s.pIdNo2.headD nul ≠ nul)

/-- **What a session keeps** until the card path stops it. -/
structure SessionInv (idTag parent : List Char) (s : ChargeLayer) (log : List ChargeObs) :
    Prop where
  userAuthNet : s.userAuthNet = true
  card : idTag16 s.cp.scene.cardNo = idTag
  tag : cstr s.pIdNo2 = parent
  fits : parent.length < 21
  second : SecondCard idTag parent s log

/-- What a session is authorised by. -/
def ChargeLayer.authState (s : ChargeLayer) :
    List Char × List Char × List Char × Nat × List Char × Option (List Char) × Bool :=
  (s.cp.scene.cardNo, s.cp.cs.scndCardNo, s.cp.cs.parentId, s.cp.cs.bReqAuthNo, s.pIdNo2,
    s.authInFlight, s.userAuthNet)

/-- What a step that is none of the card path's does: nothing the path looks at. -/
def Unconcerned (s s' : ChargeLayer) (o : List ChargeObs) : Prop :=
  s'.authState = s.authState ∧ ∀ x ∈ o, ∃ path, path ≠ .card ∧ x = .stopped path

section Steps
variable {idTag parent : List Char} {s s' : ChargeLayer} {log o : List ChargeObs} {e : ChargeEvent}

theorem ledger_append : ledger idTag parent (log ++ o) =
    o.foldl (Ledger.observe idTag parent) (ledger idTag parent log) :=
  List.foldl_append

/-- Stops leave the ledger alone. -/
theorem ledger_stops (h : ∀ x ∈ o, ∃ path, path ≠ .card ∧ x = ChargeObs.stopped path) :
    ledger idTag parent (log ++ o) = ledger idTag parent log := by
  rw [ledger_append]
  induction o with
  | nil => rfl
  | cons x o ih =>
    obtain ⟨path, -, rfl⟩ := h x List.mem_cons_self
    exact ih fun y hy => h y (List.mem_cons_of_mem _ hy)

/-- What the path does not look at, it does not notice. -/
theorem SessionInv.unconcerned (h : SessionInv idTag parent s log) (hs : Unconcerned s s' o) :
    SessionInv idTag parent s' (log ++ o) := by
  obtain ⟨hstate, hstops⟩ := hs
  simp only [authState, Prod.mk.injEq] at hstate
  obtain ⟨hcard, hscnd, hparent, hreq, hpid, hflight, hnet⟩ := hstate
  refine ⟨hnet.trans h.userAuthNet, by rw [hcard]; exact h.card, by rw [hpid]; exact h.tag, h.fits, ?_⟩
  have hdue : s'.StopDue ↔ s.StopDue := by
    unfold StopDue
    rw [hreq, hpid, hparent]
  cases h.second with
  | idle hreq₀ hflight₀ hgood =>
    refine .idle (hreq.trans hreq₀) (hflight.trans hflight₀) ?_
    rw [ledger_stops hstops, hdue]
    exact hgood
  | asked data huid hreq₀ hlast hbad hscnd₀ hflight₀ hparent₀ hhead =>
    refine .asked data huid (hreq.trans hreq₀) ?_ ?_ (by rw [hscnd]; exact hscnd₀) ?_ ?_
      (by rw [hpid]; exact hhead)
    · rw [ledger_stops hstops]
      exact hlast
    · rw [ledger_stops hstops]
      exact hbad
    · rw [hflight]
      exact hflight₀
    · rw [hpid, hparent]
      exact hparent₀

/-! ### The other threads -/

theorem setDevStatus_authState {code : CpStatus} (h : s.setDevStatus code = some s') :
    s'.authState = s.authState := by
  obtain ⟨i, -, rfl⟩ := Option.map_eq_some_iff.mp h
  rfl

theorem Unconcerned.none (h : s'.authState = s.authState) : Unconcerned s s' [] :=
  ⟨h, fun _ hx => absurd hx List.not_mem_nil⟩

theorem Unconcerned.stop {path : StopPath} (h : s'.authState = s.authState) (hp : path ≠ .card) :
    Unconcerned s s' [.stopped path] :=
  ⟨h, fun _ hx => ⟨path, hp, List.mem_singleton.mp hx⟩⟩

theorem cpUnplugged_unconcerned {now : Nat} (h : s.cpUnplugged now = some (s', o)) :
    Unconcerned s s' o := by
  unfold cpUnplugged at h
  split at h
  · obtain ⟨rfl, rfl⟩ := Prod.mk.inj (Option.some.inj h)
    exact .stop rfl (by decide)
  · split at h
    · simp only [Option.map_eq_some_iff, Prod.mk.injEq] at h
      obtain ⟨s₁, hs₁, rfl, rfl⟩ := h
      have hs := setDevStatus_authState hs₁
      exact .none hs
    · obtain ⟨rfl, rfl⟩ := Prod.mk.inj (Option.some.inj h)
      exact .none rfl

theorem cpRequested_authState (h : s.cpRequested = some s') : s'.authState = s.authState := by
  unfold cpRequested at h
  split at h
  · rw [← Option.some.inj h]
  · split at h
    · obtain ⟨s₁, hs₁, rfl⟩ := Option.map_eq_some_iff.mp h
      split at hs₁
      · have hs := setDevStatus_authState hs₁
        exact hs
      · rw [← Option.some.inj hs₁]
        rfl
    · split at h
      · rw [← Option.some.inj h]
        rfl
      · rw [← Option.some.inj h]

theorem ch1CpMonitoring_unconcerned {voltage : CpVoltage} {now : Nat}
    (h : s.ch1CpMonitoring voltage now = some (s', o)) : Unconcerned s s' o := by
  have hkept : ∀ {t : ChargeLayer}, t.authState = s.authState → some (t, ([] : List ChargeObs)) =
      some (s', o) → Unconcerned s s' o := by
    intro t ht heq
    obtain ⟨rfl, rfl⟩ := Prod.mk.inj (Option.some.inj heq)
    exact .none ht
  unfold ch1CpMonitoring at h
  split at h
  · dsimp only at h
    split at h
    · unfold cpListenerOnCharge at h
      split at h
      · exact hkept (by rfl) h
      · split at h
        · exact hkept (by rfl) h
        · obtain ⟨hstate, hstops⟩ := cpUnplugged_unconcerned h
          exact ⟨hstate, hstops⟩
        · split at h
          · exact hkept (by rfl) h
          · exact hkept (by rfl) h
        · simp only [Option.map_eq_some_iff, Prod.mk.injEq] at h
          obtain ⟨s₁, hs₁, rfl, rfl⟩ := h
          have hs := cpRequested_authState hs₁
          exact .none hs
    · exact hkept (by rfl) h
    · exact hkept (by rfl) h
  · exact hkept (by rfl) h

theorem embListenerOnCharge12_unconcerned {pressed : Bool}
    (h : s.embListenerOnCharge12 pressed = (s', o)) : Unconcerned s s' o := by
  unfold embListenerOnCharge12 at h
  split at h
  · obtain ⟨rfl, rfl⟩ := Prod.mk.inj h
    exact .none rfl
  · dsimp only at h
    split at h
    · obtain ⟨rfl, rfl⟩ := Prod.mk.inj h
      exact .none rfl
    · split at h
      · split at h
        · obtain ⟨rfl, rfl⟩ := Prod.mk.inj h
          exact .stop rfl (by decide)
        · obtain ⟨rfl, rfl⟩ := Prod.mk.inj h
          exact .none rfl
      · obtain ⟨rfl, rfl⟩ := Prod.mk.inj h
        exact .none rfl

/-- A step that stops by another path, or does nothing. -/
theorem unconcerned_ite {p : Prop} [Decidable p] {t u : ChargeLayer}
    (h : (if p then (t, [ChargeObs.stopped .stopCharge]) else (u, [])) = (s', o))
    (ht : t.authState = s.authState) (hu : u.authState = s.authState) : Unconcerned s s' o := by
  split at h
  · obtain ⟨rfl, rfl⟩ := Prod.mk.inj h
    exact .stop ht (by decide)
  · obtain ⟨rfl, rfl⟩ := Prod.mk.inj h
    exact .none hu

/-- The events of the card path, and those that begin and end a session. -/
def ChargeEvent.ofCardPath : ChargeEvent → Bool
  | .card _ | .monitor | .authReq | .authConf _ | .shared _ => true
  | .enter _ | .leave _ | .finishEnter | .finishLeave => true
  | _ => false

theorem chargeStep_unconcerned (h : chargeStep s e = some (s', o)) (he : e.ofCardPath = false) :
    Unconcerned s s' o := by
  cases e with
  | card | monitor | authReq | authConf | shared | enter | leave | finishEnter | finishLeave =>
    cases he
  | pilot voltage now => exact ch1CpMonitoring_unconcerned h
  | emergency pressed => exact embListenerOnCharge12_unconcerned (Option.some.inj h)
  | orderSequence now => exact unconcerned_ite (Option.some.inj h) rfl rfl
  | zeroCurrent => exact unconcerned_ite (Option.some.inj h) rfl rfl
  | stopButton => exact unconcerned_ite (Option.some.inj h) rfl rfl
  | chargingStop | stopCharge =>
    obtain ⟨rfl, rfl⟩ := Prod.mk.inj (Option.some.inj h)
    exact .stop rfl (by decide)
  | otherListener | cpPower | admin =>
    obtain ⟨rfl, rfl⟩ := Prod.mk.inj (Option.some.inj h)
    exact .none rfl

/-! ### The card path

The listener, the handler of the answer and the monitor, one lemma each. `memcmp` over 21 bytes
also compares what lies behind the end of both texts; that is where `SessionOk` asks that nothing
is left over. -/

/-- What the listener does with a card. -/
theorem card_cases {data : List Char} (hnet : s.userAuthNet = true) (huid : Uid data)
    (h : chargeStep s (.card data) = some (s', o)) :
    (data = idTag16 s.cp.scene.cardNo ∧ o = [.presented data, .stopped .card]) ∨
    (data ≠ idTag16 s.cp.scene.cardNo ∧ o = [.presented data] ∧
      s'.userAuthNet = true ∧ s'.cp.scene.cardNo = s.cp.scene.cardNo ∧ s'.pIdNo2 = s.pIdNo2 ∧
      s'.cp.cs.parentId = s.cp.cs.parentId ∧ s'.authInFlight = s.authInFlight ∧
      cstr s'.cp.cs.scndCardNo = data ∧
      s'.cp.cs.bReqAuthNo = if s.pIdNo2.headD nul ≠ nul then 2 else s.cp.cs.bReqAuthNo) := by
  have hlen := huid.length
  have hscnd : cstr (data ++ nul :: s.cp.cs.scndCardNo.drop (data.length + 1)) = data := by
    rw [cstr_eq_iff huid.nulFree]
    refine ⟨fun i hi => ?_, ?_⟩
    · rw [List.getD_eq_getElem?_getD, List.getElem?_append_left hi, List.getD_eq_getElem?_getD]
    · rw [List.getD_eq_getElem?_getD, List.getElem?_append_right (Nat.le_refl _), Nat.sub_self]
      rfl
  have hfits : ¬ 21 < data.length := by omega
  have hshort : ¬ data.length = 21 := by omega
  simp only [chargeStep, cardReaderListenerOnCharging, hnet, hfits, hshort, if_true, if_false,
    Option.some.injEq] at h
  split at h
  · rename_i hmatch
    obtain ⟨rfl, rfl⟩ := Prod.mk.inj h
    exact .inl ⟨(memEq_uid huid).mp hmatch, rfl⟩
  · rename_i hmatch
    have hne : data ≠ idTag16 s.cp.scene.cardNo := fun heq => hmatch ((memEq_uid huid).mpr heq)
    split at h
    · rename_i hpid
      obtain ⟨rfl, rfl⟩ := Prod.mk.inj h
      exact .inr ⟨hne, rfl, rfl, rfl, rfl, rfl, rfl, hscnd, (if_pos hpid).symm⟩
    · rename_i hpid
      obtain ⟨rfl, rfl⟩ := Prod.mk.inj h
      exact .inr ⟨hne, rfl, rfl, rfl, rfl, rfl, rfl, hscnd, (if_neg hpid).symm⟩

theorem nulFree_textsOf {name : String} {ps : List Payload} {t : List Char}
    (h : t ∈ textsOf name ps) : NulFree t := by
  obtain ⟨q, -, rfl⟩ := List.mem_map.mp h
  exact nulFree_cstr _

theorem AuthorizeConf.nulFree {rx : RxBuf} {status t : List Char}
    (h : AuthorizeConf rx status (some t)) : NulFree t := by
  obtain ⟨-, ps, -, -, htag⟩ := h
  have hmem : t ∈ textsOf "parentIdTag" ps := by
    rw [htag]
    exact List.mem_singleton_self t
  exact nulFree_textsOf hmem

/-- An answer has one status and one parent id. -/
theorem AuthorizeConf.unique {rx : RxBuf} {status status' : List Char}
    {tag tag' : Option (List Char)} (h : AuthorizeConf rx status tag)
    (h' : AuthorizeConf rx status' tag') : status = status' ∧ tag = tag' := by
  obtain ⟨-, ps, hps, hstatus, htag⟩ := h
  obtain ⟨-, ps', hps', hstatus', htag'⟩ := h'
  obtain rfl : ps = ps' := by
    have heq := hps.symm.trans hps'
    exact List.map_injective_iff.mpr (fun _ _ h => Option.some.inj h) heq
  refine ⟨List.singleton_inj.mp (hstatus.symm.trans hstatus'), ?_⟩
  have heq := htag.symm.trans htag'
  cases tag <;> cases tag' <;> simp_all

/-- The buffer behind a copied parent id compares equal exactly when the parent id is the one
looked for, if what is left behind it agrees. -/
theorem memEq_copyStr {a b t : List Char} (ha : (cstr a).length < 21) (ht : NulFree t)
    (hrest : t = cstr a → ∀ i < 21, (cstr a).length < i → a.getD i nul = b.getD i nul) :
    memEq a (copyStr t b) 21 = true ↔ t = cstr a := by
  have hcopy : copyStr t b = t ++ nul :: b.drop (t.length + 1) := by
    unfold copyStr
    rw [cstr_of_nulFree ht]
  have hend : (copyStr t b).getD t.length nul = nul := by
    rw [hcopy, List.getD_eq_getElem?_getD, List.getElem?_append_right (Nat.le_refl _), Nat.sub_self]
    rfl
  have hin : ∀ i < t.length, (copyStr t b).getD i nul = t.getD i nul := by
    intro i hi
    rw [hcopy, List.getD_eq_getElem?_getD, List.getElem?_append_left hi,
      List.getD_eq_getElem?_getD]
  constructor
  · intro h
    rw [← memEq_cstr ha h]
    exact ((cstr_eq_iff ht).mpr ⟨hin, hend⟩).symm
  · intro heq
    obtain ⟨hain, haend⟩ := (cstr_eq_iff (nulFree_cstr a)).mp rfl
    rw [memEq_iff]
    intro i hi
    rcases Nat.lt_trichotomy i t.length with hlt | rfl | hgt
    · rw [hin i hlt, heq]
      exact hain i (by rw [← heq]; exact hlt)
    · rw [hend, heq]
      exact haend
    · rw [hrest heq i hi (by rw [← heq]; exact hgt), hcopy, List.getD_eq_getElem?_getD,
        List.getD_eq_getElem?_getD, List.getElem?_append_right (by omega),
        show i - t.length = i - t.length - 1 + 1 by omega, List.getElem?_cons_succ,
        List.getElem?_drop]
      congr 2
      omega

/-- The monitor stops the session exactly when that is due. -/
theorem monitor_cases (h : chargeStep s .monitor = some (s', o)) :
    (s.StopDue ∧ o = [.stopped .card]) ∨ (¬ s.StopDue ∧ s' = s ∧ o = []) := by
  simp only [chargeStep, monitorCard, Option.some.injEq] at h
  split at h
  · rename_i hdue
    exact .inl ⟨hdue, (Prod.mk.inj h).2.symm⟩
  · rename_i hdue
    exact .inr ⟨hdue, (Prod.mk.inj h).1.symm, (Prod.mk.inj h).2.symm⟩

theorem cstr_ne_nil {a : List Char} : a.headD nul ≠ nul ↔ cstr a ≠ [] := by
  cases a with
  | nil => simp
  | cons c a => by_cases hc : c = nul <;> simp [cstr, hc]

/-- A second card that is presented. -/
theorem SessionInv.presented {data : List Char} (hinv : SessionInv idTag parent s log)
    (huid : Uid data) (hne : data ≠ idTag)
    (hok : (s.authInFlight = none ∨ s.authInFlight = some data) ∧ ¬ s.StopDue)
    (h : chargeStep s (.card data) = some (s', o)) :
    ChargeObs.stopped .card ∉ o ∧ SessionInv idTag parent s' (log ++ o) := by
  rcases card_cases hinv.userAuthNet huid h with ⟨heq, -⟩ |
    ⟨-, rfl, hnet, hcard, hpid, hparent, hflight, hscnd, hreq⟩
  · exact absurd (heq.trans hinv.card) hne
  · refine ⟨by simp, hnet, by rw [hcard]; exact hinv.card, by rw [hpid]; exact hinv.tag, hinv.fits, ?_⟩
    have hledger : ledger idTag parent (log ++ [.presented data]) = ⟨some data, false⟩ := by
      rw [ledger_append]
      exact Ledger.observe_presented parent _ hne
    by_cases hhead : s.pIdNo2.headD nul ≠ nul
    · rw [if_pos hhead] at hreq
      refine .asked data huid hreq (by rw [hledger]) (by rw [hledger]) hscnd ?_ ?_
        (by rw [hpid]; exact hhead)
      · rw [hflight]
        exact hok.1
      · rw [hpid, hparent]
        cases hinv.second with
        | idle hreq₀ _ _ =>
          exact Bool.eq_false_iff.mpr fun hmem => hok.2 ⟨hreq₀, hmem, hhead⟩
        | asked _ _ _ _ _ _ _ hparent₀ _ => exact hparent₀
    · rw [if_neg hhead] at hreq
      cases hinv.second with
      | idle hreq₀ hflight₀ _ =>
        refine .idle (hreq.trans hreq₀) (hflight.trans hflight₀) ?_
        rw [hledger]
        refine ⟨fun hbad => by simp at hbad, fun hdue => absurd hdue.2.2 ?_⟩
        rw [hpid]
        exact hhead
      | asked _ _ _ _ _ _ _ _ hhead₀ => exact absurd hhead₀ hhead

/-- An answer. -/
theorem SessionInv.answered {rx : RxBuf} (hinv : SessionInv idTag parent s log)
    (hok : SessionOk idTag parent s (.authConf rx))
    (h : chargeStep s (.authConf rx) = some (s', o)) :
    ChargeObs.stopped .card ∉ o ∧ SessionInv idTag parent s' (log ++ o) := by
  -- an answer that nobody waits for changes nothing
  have hidle : s.authInFlight = none → ChargeObs.stopped .card ∉ o ∧
      SessionInv idTag parent s' (log ++ o) := by
    intro hflight
    simp only [chargeStep, authConf, hflight, Option.some.injEq] at h
    obtain ⟨rfl, rfl⟩ := Prod.mk.inj h
    exact ⟨List.not_mem_nil, hinv.unconcerned (.none rfl)⟩
  cases hinv.second with
  | idle _ hflight _ => exact hidle hflight
  | asked data huid hreq hlast hbad hscnd hflight hparent hhead =>
    rcases hflight with hflight | hflight
    · exact hidle hflight
    · obtain ⟨status, tag, hconf, hverdict, hrest⟩ := hok
      simp only [chargeStep, authConf, hflight, Option.map_eq_some_iff, Prod.mk.injEq] at h
      obtain ⟨c, hc, rfl, rfl⟩ := h
      have hauth := dataProcCmdAuth_authorized hconf hc
      refine ⟨by simp, hinv.userAuthNet, ?_, hinv.tag, hinv.fits, .idle hauth.reqAuthNo rfl ?_⟩
      · show idTag16 c.scene.cardNo = idTag
        rw [hauth.cardNo]
        exact hinv.card
      · have hgood : (ledger idTag parent (log ++ [.authorized data rx])).good = true ↔
            Authorises parent rx := by
          rw [ledger_append]
          exact Ledger.observe_authorized idTag hlast
        have hne : parent ≠ [] := by
          rw [← hinv.tag]
          exact cstr_ne_nil.mp hhead
        -- the monitor will stop for this answer exactly if the two parent ids are the same
        have hdue : StopDue { s with cp := c, authInFlight := none } ↔
            memEq s.pIdNo2 c.cs.parentId 21 = true :=
          ⟨fun h => h.2.1, fun h => ⟨hauth.reqAuthNo, h, hhead⟩⟩
        have hright : Authorises parent rx ↔ status = acceptedText ∧ tag = some parent := by
          constructor
          · rintro ⟨-, hacc⟩
            exact hconf.unique hacc
          · rintro ⟨rfl, rfl⟩
            exact ⟨hne, hconf⟩
        rw [hgood, hdue, hright, hauth.parentId]
        -- without a parentIdTag the old one stands, and that is not the session's
        cases tag with
        | none =>
          refine ⟨fun h => by simp at h, fun h => ?_⟩
          exact absurd (h.symm.trans hparent) (by decide)
        | some t =>
          have hiff := memEq_copyStr (b := s.cp.cs.parentId) (by rw [hinv.tag]; exact hinv.fits)
            hconf.nulFree (fun heq i hi hlt => hrest (by rw [heq, hinv.tag]) i hi
              (by rw [← hinv.tag]; exact hlt))
          rw [hinv.tag] at hiff
          show _ ↔ memEq s.pIdNo2 (copyStr t s.cp.cs.parentId) 21 = true
          rw [hiff, Option.some.injEq]
          refine ⟨fun h => h.2, fun heq => ⟨?_, heq⟩⟩
          rcases hverdict with hacc | ⟨-, hother⟩
          · exact hacc
          · exact absurd (congrArg some heq) hother

/-- **One step of a session**: the card path stops it exactly when it is entitled to, and
otherwise keeps the invariant. -/
theorem session_step (hinv : SessionInv idTag parent s log) (hok : SessionOk idTag parent s e)
    (h : chargeStep s e = some (s', o)) :
    (ChargeObs.stopped .card ∈ o ↔ Entitled idTag parent log e) ∧
    (ChargeObs.stopped .card ∉ o → SessionInv idTag parent s' (log ++ o)) := by
  have hquiet : (∀ data, e ≠ .card data) → e ≠ .monitor → ChargeObs.stopped .card ∉ o →
      SessionInv idTag parent s' (log ++ o) →
      (ChargeObs.stopped .card ∈ o ↔ Entitled idTag parent log e) ∧
      (ChargeObs.stopped .card ∉ o → SessionInv idTag parent s' (log ++ o)) := by
    intro hcard hmon ho hinv'
    refine ⟨⟨fun hbad => absurd hbad ho, fun hent => ?_⟩, fun _ => hinv'⟩
    cases hent with
    | card => exact absurd rfl (hcard idTag)
    | second _ => exact absurd rfl hmon
  have hunconcerned : (∀ data, e ≠ .card data) → e ≠ .monitor → Unconcerned s s' o →
      (ChargeObs.stopped .card ∈ o ↔ Entitled idTag parent log e) ∧
      (ChargeObs.stopped .card ∉ o → SessionInv idTag parent s' (log ++ o)) := by
    intro hcard hmon hs
    refine hquiet hcard hmon (fun hbad => ?_) (hinv.unconcerned hs)
    obtain ⟨path, hpath, heq⟩ := hs.2 _ hbad
    exact hpath (ChargeObs.stopped.inj heq).symm
  -- two events can stop the session: its own card, and the monitor after a second one
  cases e with
  | enter | leave | finishEnter | finishLeave => exact absurd hok id
  | card data =>
    obtain ⟨huid, hok⟩ := hok
    by_cases heq : data = idTag
    · subst heq
      rcases card_cases hinv.userAuthNet huid h with ⟨-, rfl⟩ | ⟨hne, -⟩
      · exact ⟨⟨fun _ => .card, fun _ => by simp⟩, fun hbad => absurd (by simp) hbad⟩
      · exact absurd hinv.card.symm hne
    · obtain ⟨ho, hinv'⟩ := hinv.presented huid heq (hok.resolve_left heq) h
      refine ⟨⟨fun hbad => absurd hbad ho, fun hent => ?_⟩, fun _ => hinv'⟩
      cases hent
      exact absurd rfl heq
  | monitor =>
    have hgood : (ledger idTag parent log).good = true ↔ s.StopDue := by
      -- while a second card is being asked about, its verdict is not in yet and no stop is due
      cases hinv.second with
      | idle _ _ hgood => exact hgood
      | asked _ _ hreq _ hbad _ _ _ _ =>
        refine ⟨fun h => absurd (h.symm.trans hbad) (by decide), fun hdue => ?_⟩
        exact absurd (hdue.1.symm.trans hreq) (by decide)
    rcases monitor_cases h with ⟨hdue, rfl⟩ | ⟨hdue, rfl, rfl⟩
    · exact ⟨⟨fun _ => .second (hgood.mpr hdue), fun _ => by simp⟩, fun hbad => absurd (by simp) hbad⟩
    · refine ⟨⟨fun hbad => absurd hbad List.not_mem_nil, fun hent => ?_⟩,
        fun _ => hinv.unconcerned (.none rfl)⟩
      cases hent with
      | second hsecond => exact absurd (hgood.mp hsecond) hdue
  | authReq =>
    obtain ⟨rfl, rfl⟩ := Prod.mk.inj (Option.some.inj h)
    cases hinv.second with
    | idle hreq _ _ =>
      refine hunconcerned (by simp) (by simp) (.none ?_)
      unfold authReq
      rw [if_neg (by simp [hreq])]
    | asked data huid hreq hlast hbad hscnd hflight hparent hhead =>
      refine hquiet (by simp) (by simp) List.not_mem_nil ?_
      have hsent : s.authReq = { s with authInFlight := some data } := by
        have hdata : data.take 21 = data := List.take_of_length_le (by have := huid.length; omega)
        unfold authReq
        rw [if_pos (by rw [hreq]; decide), if_pos hreq, hscnd, hdata]
      rw [hsent, List.append_nil]
      exact ⟨hinv.userAuthNet, hinv.card, hinv.tag, hinv.fits,
        .asked data huid hreq hlast hbad hscnd (.inr rfl) hparent hhead⟩
  | authConf rx =>
    obtain ⟨ho, hinv'⟩ := hinv.answered hok h
    exact hquiet (by simp) (by simp) ho hinv'
  | shared c =>
    obtain ⟨hcard, hscnd, hparent, hreq⟩ := hok
    obtain ⟨rfl, rfl⟩ := Prod.mk.inj (Option.some.inj h)
    refine hunconcerned (by simp) (by simp) (.none ?_)
    simp only [authState, hcard, hscnd, hparent, hreq]
  | pilot | emergency | orderSequence | zeroCurrent | stopButton | chargingStop | stopCharge |
      otherListener | cpPower | admin =>
    exact hunconcerned (by simp) (by simp) (chargeStep_unconcerned h rfl)

end Steps

/-! ## Every session -/

theorem Enters.inv {idTag parent : List Char} {s₀ s : ChargeLayer} (h : Enters idTag parent s₀ s) :
    SessionInv idTag parent s [] := by
  obtain ⟨tm, henter⟩ := h.enter
  obtain ⟨i, -, rfl⟩ := Option.map_eq_some_iff.mp henter
  have hinv : ∀ t : ChargeLayer, t.userAuthNet = s₀.userAuthNet →
      t.cp.scene.cardNo = s₀.cp.scene.cardNo → t.pIdNo2 = s₀.cp.cs.parentId →
      t.cp.cs.parentId = [] → t.cp.cs.bReqAuthNo = s₀.cp.cs.bReqAuthNo →
      t.authInFlight = s₀.authInFlight → SessionInv idTag parent t [] := by
    intro t hnet hcard hpid hparent hreq hflight
    have htag : cstr t.pIdNo2 = parent := by
      rw [hpid]
      exact h.tag
    refine ⟨hnet.trans h.userAuthNet, by rw [hcard]; exact h.card, htag, h.fits,
      .idle (hreq.trans h.idle.1) (hflight.trans h.idle.2) ?_⟩
    refine ⟨fun hbad => by simp [ledger] at hbad, fun hdue => ?_⟩
    have hempty := memEq_cstr (by rw [htag]; exact h.fits) hdue.2.1
    rw [hparent] at hempty
    exact absurd hempty.symm (cstr_ne_nil.mp hdue.2.2)
  dsimp only
  split
  · exact hinv _ rfl rfl rfl rfl rfl rfl
  · exact hinv _ rfl rfl rfl rfl rfl rfl

/-- **Stop authorisation.** In every session whose steps the card path is prepared for, until that
path has stopped it: a step stops it exactly when the session's own card is presented, or when the
monitor runs after the last second card was authorised; and a refused card changes neither the
order of the session nor its card. -/
theorem session_stops_iff {idTag parent : List Char} {s₀ s₁ s s' : ChargeLayer}
    {log o : List ChargeObs} {e : ChargeEvent} (henter : Enters idTag parent s₀ s₁)
    (hrun : ChargeRun (fun s _ e => SessionOk idTag parent s e) s₁ s log) (hlive : Unstopped log)
    (hok : SessionOk idTag parent s e) (hstep : chargeStep s e = some (s', o)) :
    (ChargeObs.stopped .card ∈ o ↔ Entitled idTag parent log e) ∧
    (∀ rx status tag, e = .authConf rx → AuthorizeConf rx status tag → status ≠ acceptedText →
      ChargeObs.stopped .card ∉ o ∧ s'.cp.scene.appOrder = s.cp.scene.appOrder ∧
      s'.cp.scene.cardNo = s.cp.scene.cardNo) := by
  have hinv : Unstopped log → SessionInv idTag parent s log := by
    refine hrun.invariant (I := fun s log => Unstopped log → SessionInv idTag parent s log)
      (fun _ => henter.inv) ?_
    intro s log e s' o hinv hok hstep hlive
    have hlog : Unstopped log := fun hbad => hlive (List.mem_append_left o hbad)
    exact (session_step (hinv hlog) hok hstep).2 fun hbad => hlive (List.mem_append_right log hbad)
  have hright := (session_step (hinv hlive) hok hstep).1
  refine ⟨hright, ?_⟩
  rintro rx status tag rfl hconf hrefused
  refine ⟨?_, ?_⟩
  · intro hbad
    cases hright.mp hbad
  · obtain ⟨status', tag', hconf', hverdict, -⟩ := hok
    obtain ⟨rfl, rfl⟩ := hconf.unique hconf'
    obtain ⟨horder, -⟩ := hverdict.resolve_left hrefused
    simp only [chargeStep, authConf] at hstep
    split at hstep
    · obtain ⟨rfl, -⟩ := Prod.mk.inj (Option.some.inj hstep)
      exact ⟨rfl, rfl⟩
    · simp only [Option.map_eq_some_iff, Prod.mk.injEq] at hstep
      obtain ⟨c, hc, rfl, -⟩ := hstep
      have hauth := dataProcCmdAuth_authorized hconf hc
      exact ⟨(hauth.refused hrefused).trans horder.symm, hauth.cardNo⟩

/-! ## Two sessions -/

/-- A received answer is an Authorize answer with this status and this parent id. -/
def readsConf (status parent : List Char) (rx : RxBuf) : Bool :=
  let p := rx.msg.payload 0
  let js := List.range (p.subPayloadLen + 1)
  let ps := js.filterMap (rx.deref p.subPayload)
  p.named "idTagInfo" && js.all (fun j => (rx.deref p.subPayload j).isSome) &&
    decide (textsOf "status" ps = [status]) && decide (textsOf "parentIdTag" ps = [parent])

theorem readsConf_conf {status parent : List Char} {rx : RxBuf}
    (h : readsConf status parent rx = true) : AuthorizeConf rx status (some parent) := by
  simp only [readsConf, Bool.and_eq_true, decide_eq_true_eq] at h
  obtain ⟨⟨⟨hinfo, hall⟩, hstatus⟩, hparent⟩ := h
  refine ⟨hinfo, _, ?_, hstatus, hparent⟩
  generalize List.range ((rx.msg.payload 0).subPayloadLen + 1) = js at hall ⊢
  induction js with
  | nil => rfl
  | cons j js ih =>
    rw [List.all_cons, Bool.and_eq_true] at hall
    obtain ⟨q, hq⟩ := Option.isSome_iff_exists.mp hall.1
    rw [List.map_cons, List.filterMap_cons_some hq, List.map_cons, hq, ih hall.2]

/-- The answer a frame is parsed as. -/
def confOf (frame : List Char) : RxBuf :=
  ((parseData .auth 0 clearRxMsgBuff frame).map DataEnd.rx).getD clearRxMsgBuff

def confFrame (status : String) : List Char :=
  "[3,\"1\",\x7b\"idTagInfo\":\x7b\"status\":\"".toList ++ status.toList ++
    "\",\"parentIdTag\":\"P1\"\x7d\x7d]".toList

/-- A charge point at which card 1111222233334444, of parent P1, is about to charge. -/
def cardAccepted : ChargeLayer :=
  let c := Charger.init 3
  .init { c with scene := { c.scene with cardNo := "1111222233334444".toList }
                 cs := { c.cs with parentId := "P1".toList } }

def cardSession : ChargeLayer := (cardAccepted.chargeOnEnter ⟨0, 0, 0, 0, 0, 0⟩).getD cardAccepted

theorem cardSession_enters :
    Enters "1111222233334444".toList "P1".toList cardAccepted cardSession where
  enter := ⟨⟨0, 0, 0, 0, 0, 0⟩, rfl⟩
  userAuthNet := rfl
  card := by decide
  tag := by decide
  fits := by decide
  idle := ⟨rfl, rfl⟩

/-- Another card is presented, and its Authorize answered. -/
def secondCard (status : String) : List ChargeEvent :=
  [.card "5555666677778888".toList, .authReq, .authConf (confOf (confFrame status))]

/-- The steps of an accepted card, checked. -/
def sessionCheck (s : ChargeLayer) (_ : List ChargeObs) : ChargeEvent → Bool
  | .card data => decide (data.length = 16) && decide (NulFree data) && s.authInFlight.isNone &&
      !memEq s.pIdNo2 s.cp.cs.parentId 21
  | .authReq => true
  | .authConf rx => readsConf acceptedText "P1".toList rx &&
      (List.range 21).all fun i => s.pIdNo2.getD i nul = s.cp.cs.parentId.getD i nul || i < 3
  | _ => false

theorem sessionCheck_ok {s : ChargeLayer} {log : List ChargeObs} {e : ChargeEvent}
    (h : sessionCheck s log e = true) : SessionOk "1111222233334444".toList "P1".toList s e := by
  cases e with
  | card data =>
    simp only [sessionCheck, Bool.and_eq_true, decide_eq_true_eq, Option.isNone_iff_eq_none,
      Bool.not_eq_true'] at h
    obtain ⟨⟨⟨hlen, hnul⟩, hflight⟩, hmem⟩ := h
    exact ⟨⟨hlen, hnul⟩, .inr ⟨.inl hflight, fun hdue => absurd (hdue.2.1.symm.trans hmem) (by decide)⟩⟩
  | authReq => trivial
  | authConf rx =>
    simp only [sessionCheck, Bool.and_eq_true] at h
    refine ⟨_, _, readsConf_conf h.1, .inl rfl, fun _ i hi hlt => ?_⟩
    have hi' := List.all_eq_true.mp h.2 i (List.mem_range.mpr hi)
    have hlt : ¬ i < 3 := Nat.not_lt.mpr hlt
    simpa only [hlt, decide_false, Bool.or_false, decide_eq_true_eq] using hi'
  | _ => cases h

def isCardStop : ChargeObs → Bool
  | .stopped .card => true
  | _ => false

theorem isCardStop_iff {x : ChargeObs} : isCardStop x = true ↔ x = .stopped .card := by
  constructor
  · intro h
    cases x with
    | stopped path =>
      cases path with
      | card => rfl
      | _ => cases h
    | _ => cases h
  · rintro rfl
    rfl

set_option maxRecDepth 20000 in
/-- The second card has the same parent: the next look of the monitor stops the session. -/
theorem session_stops_second : ∃ s log s' o,
    ChargeRun (fun s _ e => SessionOk "1111222233334444".toList "P1".toList s e) cardSession s log ∧
    Unstopped log ∧ chargeStep s .monitor = some (s', o) ∧ ChargeObs.stopped .card ∈ o ∧
    Entitled "1111222233334444".toList "P1".toList log .monitor := by
  let p : ChargeLayer → List ChargeObs → Bool := fun s log => !log.any isCardStop &&
    (chargeStep s .monitor).any fun r => r.2.any isCardStop
  have hrun : (Trace.exec chargeStep sessionCheck cardSession [] (secondCard "Accepted")).any
      (fun r => p r.1 r.2) = true := by decide +kernel
  obtain ⟨s, log, h, hp⟩ := Trace.exists_reach_of_exec (p := p) hrun
  simp only [p, Bool.and_eq_true, Bool.not_eq_true', Option.any_eq_true] at hp
  obtain ⟨hlive, ⟨s', o⟩, hstep, hstop⟩ := hp
  have hrun : ChargeRun (fun s _ e => SessionOk "1111222233334444".toList "P1".toList s e)
      cardSession s log := h.weaken fun s log e hok => sessionCheck_ok hok
  have hlive : Unstopped log := by
    intro hbad
    exact absurd (List.any_eq_false.mp hlive _ hbad) (by simp [isCardStop])
  obtain ⟨x, hx, hcard⟩ := List.any_eq_true.mp hstop
  obtain rfl := isCardStop_iff.mp hcard
  exact ⟨s, log, s', o, hrun, hlive, hstep, hx,
    (session_stops_iff cardSession_enters hrun hlive (e := .monitor) trivial hstep).1.mp hx⟩

/-- The log of a refused card. -/
def refusedLog : List ChargeObs → Bool
  | [.presented a, .authorized b rx] => decide (a = "5555666677778888".toList) && decide (a = b) &&
      readsConf "Blocked".toList "P1".toList rx
  | _ => false

theorem refusedLog_bad {log : List ChargeObs} (h : refusedLog log = true) :
    Unstopped log ∧ (ledger "1111222233334444".toList "P1".toList log).good = false := by
  unfold refusedLog at h
  split at h
  · rename_i a b rx
    simp only [Bool.and_eq_true, decide_eq_true_eq] at h
    obtain ⟨⟨rfl, rfl⟩, hconf⟩ := h
    have hconf := readsConf_conf hconf
    have hno : ¬ Authorises "P1".toList rx := by
      rintro ⟨-, hacc⟩
      exact absurd (hconf.unique hacc).1 (by decide)
    refine ⟨by simp [Unstopped], ?_⟩
    have hne : ("5555666677778888".toList : List Char) ≠ "1111222233334444".toList := by decide
    unfold ledger
    rw [List.foldl_cons, List.foldl_cons, List.foldl_nil, Ledger.observe_presented _ _ hne,
      Bool.eq_false_iff]
    exact mt (Ledger.observe_authorized _ rfl).mp hno
  · cases h

set_option maxRecDepth 20000 in
/-- The second card is refused: the session gets another order, and the monitor stops it. -/
theorem session_stops_refused : ∃ s log s' o,
    ChargeRun (fun _ _ _ => True) cardSession s log ∧ Unstopped log ∧
    s.cp.scene.appOrder ≠ cardSession.cp.scene.appOrder ∧
    chargeStep s .monitor = some (s', o) ∧ ChargeObs.stopped .card ∈ o ∧
    ¬ Entitled "1111222233334444".toList "P1".toList log .monitor := by
  let p : ChargeLayer → List ChargeObs → Bool := fun s log => refusedLog log &&
    decide (s.cp.scene.appOrder ≠ cardSession.cp.scene.appOrder) &&
    (chargeStep s .monitor).any fun r => r.2.any isCardStop
  have hrun : (Trace.exec chargeStep (fun _ _ _ => true) cardSession []
      (secondCard "Blocked")).any (fun r => p r.1 r.2) = true := by decide +kernel
  obtain ⟨s, log, h, hp⟩ := Trace.exists_reach_of_exec (p := p) hrun
  simp only [p, Bool.and_eq_true, decide_eq_true_eq, Option.any_eq_true] at hp
  obtain ⟨⟨hlog, horder⟩, ⟨s', o⟩, hstep, hstop⟩ := hp
  obtain ⟨hlive, hbad⟩ := refusedLog_bad hlog
  obtain ⟨x, hx, hcard⟩ := List.any_eq_true.mp hstop
  obtain rfl := isCardStop_iff.mp hcard
  refine ⟨s, log, s', o, h.always, hlive, horder, hstep, hx, ?_⟩
  intro hent
  cases hent with
  | second hgood => exact absurd (hgood.symm.trans hbad) (by decide)

end ChargePoint
