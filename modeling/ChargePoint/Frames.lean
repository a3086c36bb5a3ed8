import ChargePoint.Client

/-!
# What each step leaves alone

The invariants of a run are about a handful of fields, and most steps touch none of them.
This file says so once, so that a run proof only looks at the steps that matter.

The charger is seen through two projections:

* `billing` — the requests, the meter queue and the ids that a session is billed by;
* `statuses` — the connector statuses, current and reported.

"Handler `h` leaves the billing alone" is then one equation. The handlers of the central
system's CALLs all do; of the answers, all but StartTransaction, MeterValues and
StopTransaction.

A loop over the properties keeps what every pass keeps (`forProps_inv`), so a handler is a matter of
its body. The order of the branches of a tick is not seen here, `Steps` inverts it.
-/

set_option autoImplicit false

namespace ChargePoint

open CStr Loop

/-! ## 1. Projections

`Billing` and `Statuses` are records of the fields they project, so `c'.billing = c.billing` is
all the fields at once, and `billing_eq` takes them apart again. The setters that write neither
have their equations as simp lemmas. -/

/-- What a session is billed by. -/
structure Billing where
  startTsQ : StartTs
  meterQ : Nat → MeterVal
  bTrId : Fin 2 → UInt64
  bReqStopTsFlg : Bool
  bDevChannel : Bool

def Charger.billing (c : Charger) : Billing :=
  ⟨c.startTsQ, c.meterQ, c.cs.bTrId, c.cs.bReqStopTsFlg, c.bDevChannel⟩

/-- The connector statuses. -/
structure Statuses where
  cur : Fin 2 → CpStatus
  pre : Fin 2 → CpStatus

def Charger.statuses (c : Charger) : Statuses := ⟨c.cs.bCpStat, c.cs.bPreCpStat⟩

theorem Charger.billing_eq {c c' : Charger} (h : c'.billing = c.billing) :
    c'.startTsQ = c.startTsQ ∧ c'.meterQ = c.meterQ ∧ c'.cs.bTrId = c.cs.bTrId ∧
      c'.cs.bReqStopTsFlg = c.cs.bReqStopTsFlg ∧ c'.bDevChannel = c.bDevChannel := by
  simpa [Charger.billing] using h

theorem Charger.statuses_eq {c c' : Charger} (h : c'.statuses = c.statuses) :
    c'.cs.bCpStat = c.cs.bCpStat ∧ c'.cs.bPreCpStat = c.cs.bPreCpStat := by
  simpa [Charger.statuses] using h

@[simp] theorem Charger.setCpStatus_billing (c : Charger) (code : CpStatus) (i : Fin 2) :
    (c.setCpStatus code i).billing = c.billing := rfl

@[simp] theorem Charger.setPreCpStat_billing (c : Charger) (code : CpStatus) (i : Fin 2) :
    (c.setPreCpStat code i).billing = c.billing := rfl

@[simp] theorem Charger.setCfgInt_billing (c : Charger) (n : Nat) (v : UInt32) :
    (c.setCfgInt n v).billing = c.billing := rfl

@[simp] theorem Charger.setCfgInt_statuses (c : Charger) (n : Nat) (v : UInt32) :
    (c.setCfgInt n v).statuses = c.statuses := rfl

@[simp] theorem Charger.setChgFlg_billing (c : Charger) (i : Fin 2) (b : Bool) :
    (c.setChgFlg i b).billing = c.billing := rfl

@[simp] theorem Charger.setChgFlg_statuses (c : Charger) (i : Fin 2) (b : Bool) :
    (c.setChgFlg i b).statuses = c.statuses := rfl

/-! ## 2. Loops over properties -/

/-- A loop over the top-level properties keeps what every pass keeps. -/
theorem forProps_inv {σ : Type} {rx : RxBuf} {body : Payload → σ → Option σ} {P : σ → Prop}
    (keep : ∀ p s s', P s → body p s = some s' → P s') {s s' : σ} (hs : P s)
    (h : forProps rx body s = some s') : P s' := by
  refine forUpTo_inv (fun i t t' ht hb => ?_) hs h
  split at hb
  · exact keep _ _ _ ht hb
  · exact absurd hb (by simp)

/-- The same for the properties nested in one. -/
theorem forSubProps_inv {σ : Type} {rx : RxBuf} {p : Payload} {body : Payload → σ → Option σ}
    {P : σ → Prop} (keep : ∀ q s s', P s → body q s = some s' → P s') {s s' : σ} (hs : P s)
    (h : forSubProps rx p body s = some s') : P s' := by
  refine forUpTo_inv (fun j t t' ht hb => ?_) hs h
  rw [Option.bind_eq_some_iff] at hb
  obtain ⟨q, _, hq⟩ := hb
  exact keep q _ _ ht hq

/-- A loop over properties that ends has run its body on each. -/
theorem forProps_ran {σ : Type} {rx : RxBuf} {body : Payload → σ → Option σ} {P : σ → Prop}
    (keep : ∀ p s s', P s → body p s = some s' → P s') {s s' : σ} (hs : P s)
    (h : forProps rx body s = some s') {i : Nat} (hi : i ≤ rx.msg.payloadLen) :
    ∃ t t', P t ∧ body (rx.msg.payload i) t = some t' := by
  have hkeep : ∀ i s s', P s →
      (if i < payloadCap then body (rx.msg.payload i) s else none) = some s' → P s' := by
    intro i s s' hs hb
    split at hb
    · exact keep _ _ _ hs hb
    · exact absurd hb (by simp)
  obtain ⟨t, t', ht, hb⟩ := forUpTo_ran hkeep hs h (Nat.lt_succ_of_le hi)
  split at hb
  · exact ⟨t, t', ht, hb⟩
  · exact absurd hb (by simp)

/-- A loop over properties that fit the table ends, if its body does. -/
theorem forProps_total {σ : Type} {rx : RxBuf} {body : Payload → σ → Option σ}
    {I : Nat → σ → Prop} (hlen : rx.msg.payloadLen < payloadCap)
    (next : ∀ i t, i ≤ rx.msg.payloadLen → I i t →
      ∃ t', body (rx.msg.payload i) t = some t' ∧ I (i + 1) t') {s : σ} (h : I 0 s) :
    ∃ s', forProps rx body s = some s' ∧ I (rx.msg.payloadLen + 1) s' := by
  refine forUpTo_total (fun i t hi ht => ?_) h
  rw [if_pos (by omega)]
  exact next i t (Nat.le_of_lt_succ hi) ht

theorem forSubProps_total {σ : Type} {rx : RxBuf} {p : Payload} {body : Payload → σ → Option σ}
    {P : σ → Prop} (hsub : ∀ j ≤ p.subPayloadLen, (rx.deref p.subPayload j).isSome)
    (next : ∀ q t, P t → ∃ t', body q t = some t' ∧ P t') {s : σ} (h : P s) :
    ∃ s', forSubProps rx p body s = some s' ∧ P s' := by
  refine forUpTo_total (I := fun _ => P) (fun j t hj ht => ?_) h
  obtain ⟨q, hq⟩ := Option.isSome_iff_exists.mp (hsub j (Nat.le_of_lt_succ hj))
  rw [hq]
  exact next q t ht

/-- The top-level properties of a message. -/
def RxBuf.props (rx : RxBuf) : List Payload :=
  (List.range (rx.msg.payloadLen + 1)).map rx.msg.payload

/-- A loop over the properties that fit the table is a fold over them. -/
theorem forProps_eq {σ : Type} (rx : RxBuf) (body : Payload → σ → Option σ) (s : σ) :
    forProps rx body s = if rx.msg.payloadLen < payloadCap then
      rx.props.foldlM (fun s p => body p s) s else none := by
  let guarded : Nat → σ → Option σ :=
    fun i t => if i < payloadCap then body (rx.msg.payload i) t else none
  have hloop : ∀ k i, ∀ t : σ, i ≤ payloadCap → forFrom guarded i k t =
      if i + k ≤ payloadCap then
        (List.range' i k).foldlM (fun s i => body (rx.msg.payload i) s) t
      else none := by
    intro k
    induction k with
    | zero =>
      intro i t hi
      rw [if_pos (by omega)]
      rfl
    | succ k ih =>
      intro i t hi
      rw [forFrom]
      rcases Nat.lt_or_ge i payloadCap with hlt | hge
      · have hbody : guarded i t = body (rx.msg.payload i) t := if_pos hlt
        rw [hbody, List.range'_succ, List.foldlM_cons, show i + (k + 1) = i + 1 + k by omega]
        cases body (rx.msg.payload i) t with
        | none => simp
        | some t' => exact ih (i + 1) t' hlt
      · have hbody : guarded i t = none := if_neg (by omega)
        rw [hbody, if_neg (by omega)]
  have hmap : ∀ (is : List Nat) (t : σ),
      is.foldlM (fun s i => body (rx.msg.payload i) s) t =
        (is.map rx.msg.payload).foldlM (fun s p => body p s) t := by
    intro is t
    rw [List.foldlM_map]
  unfold forProps RxBuf.props forUpTo
  rw [hloop _ 0 s (Nat.zero_le _), ← List.range_eq_range', hmap, Nat.zero_add]
  rfl

/-- When no pass is undefined. -/
theorem forProps_foldl {σ : Type} {rx : RxBuf} {g : Payload → σ → σ} {s s' : σ}
    (h : forProps rx (fun p s => some (g p s)) s = some s') :
    rx.msg.payloadLen < payloadCap ∧ s' = rx.props.foldl (fun s p => g p s) s := by
  rw [forProps_eq] at h
  split at h
  · rename_i hlen
    exact ⟨hlen, Option.some.inj (h.symm.trans List.foldlM_pure)⟩
  · cases h

/-- A loop that only maps its state comes to an end. -/
theorem forProps_map {σ : Type} {rx : RxBuf} (hlen : rx.msg.payloadLen < payloadCap)
    (g : Payload → σ → σ) (s : σ) : ∃ s', forProps rx (fun p s => some (g p s)) s = some s' := by
  refine ⟨rx.props.foldl (fun s p => g p s) s, ?_⟩
  rw [forProps_eq, if_pos hlen]
  exact List.foldlM_pure

/-! ## 3. The answers

One lemma for each handler that can be called with an answer: what it keeps of the two
projections, and what the one or two fields are that it writes. -/

theorem dataProcCmdAuth_frame {rx : RxBuf} {c c' : Charger} (h : dataProcCmdAuth rx c = some c') :
    c'.billing = c.billing ∧ c'.statuses = c.statuses := by
  simp only [dataProcCmdAuth, Option.map_eq_some_iff] at h
  obtain ⟨c₁, h₁, rfl⟩ := h
  have hc₁ : c₁.billing = c.billing ∧ c₁.statuses = c.statuses := by
    split at h₁
    · refine forSubProps_inv (P := fun d => d.billing = c.billing ∧ d.statuses = c.statuses)
        (fun q d d' hd hb => ?_) ⟨rfl, rfl⟩ h₁
      split at hb
      · split at hb <;> · simp only [Option.some.injEq] at hb; subst hb; exact hd
      · split at hb
        · split at hb
          · simp only [Option.some.injEq] at hb; subst hb; exact hd
          · exact absurd hb (by simp)
        · simp only [Option.some.injEq] at hb; subst hb; exact hd
    · simp only [Option.some.injEq] at h₁; subst h₁; exact ⟨rfl, rfl⟩
  exact hc₁

@[simp] theorem bootAccept_billing (c : Charger) (i : Fin 2) :
    (bootAccept c i).billing = c.billing := by
  unfold bootAccept
  split
  · dsimp only
    split <;> rfl
  · rfl

@[simp] theorem bootHold_billing (c : Charger) (code : CpStatus) :
    (bootHold c code).billing = c.billing := rfl

theorem dataProcCmdBoot_billing {rx : RxBuf} {c c' : Charger}
    (h : dataProcCmdBoot rx c = some c') : c'.billing = c.billing := by
  refine forProps_inv (P := fun d => d.billing = c.billing) (fun p d d' hd hb => ?_) rfl h
  rw [← hd]
  split at hb
  · simp only [Option.some.injEq] at hb
    subst hb; rfl
  · split at hb
    · split at hb
      · split at hb
        · simp only [Option.some.injEq] at hb
          subst hb
          exact (bootAccept_billing _ 1).trans (bootAccept_billing d 0)
        · simp only [Option.some.injEq] at hb
          subst hb; rfl
      · split at hb <;> · simp only [Option.some.injEq] at hb; subst hb; rfl
    · simp only [Option.some.injEq] at hb
      subst hb; rfl

theorem dataProcCmdStat_billing {callConn : List Char} {c c' : Charger}
    (h : dataProcCmdStat callConn c = some c') : c'.billing = c.billing := by
  simp only [dataProcCmdStat, Option.map_eq_some_iff] at h
  obtain ⟨i, _, rfl⟩ := h
  split <;> rfl

/-- The part of `startTsQ` that only a new start request writes. -/
theorem dataProcCmdStartTs_frame {rx : RxBuf} {c c' : Charger}
    (h : dataProcCmdStartTs rx c = some c') :
    c'.statuses = c.statuses ∧ c'.startTsQ.reqStartTsFlg = false ∧
      c'.startTsQ.meterStartVal = c.startTsQ.meterStartVal ∧
      c'.meterQ = c.meterQ ∧ c'.cs.bReqStopTsFlg = c.cs.bReqStopTsFlg ∧
      c'.bDevChannel = c.bDevChannel := by
  let P : Charger → Prop := fun d => d.statuses = c.statuses ∧
    d.startTsQ.reqStartTsFlg = false ∧ d.startTsQ.meterStartVal = c.startTsQ.meterStartVal ∧
    d.meterQ = c.meterQ ∧ d.cs.bReqStopTsFlg = c.cs.bReqStopTsFlg ∧
    d.bDevChannel = c.bDevChannel
  have hstart : P { c with startTsQ := { c.startTsQ with reqStartTsFlg := false } } :=
    ⟨rfl, rfl, rfl, rfl, rfl, rfl⟩
  unfold dataProcCmdStartTs at h
  refine forProps_inv (P := P) (fun p d d' hd hb => ?_) hstart h
  split at hb
  · refine forSubProps_inv (P := P) (fun q e e' he hq => ?_) hd hb
    split at hq
    · simp only [Option.some.injEq] at hq; subst hq; exact he
    · simp only [Option.some.injEq] at hq; subst hq; exact he
  · split at hb
    · rw [Option.map_eq_some_iff] at hb
      obtain ⟨i, _, rfl⟩ := hb
      exact hd
    · simp only [Option.some.injEq] at hb; subst hb; exact hd

@[simp] theorem resetMeterValQ_statuses (c : Charger) :
    (resetMeterValQ c).statuses = c.statuses := rfl

/-- A StopTransaction answer: the queue is reset, the stop request is over. -/
theorem dataProcCmdStopTs_frame {c c' : Charger} (h : dataProcCmdStopTs c = some c') :
    c'.startTsQ = c.startTsQ ∧ c'.meterQ = (resetMeterValQ c).meterQ ∧
      c'.cs.bTrId = c.cs.bTrId ∧ c'.cs.bReqStopTsFlg = false ∧
      c'.bDevChannel = c.bDevChannel ∧ c'.cs.bPreCpStat = c.cs.bPreCpStat := by
  simp only [dataProcCmdStopTs, Option.map_eq_some_iff] at h
  obtain ⟨d, _, rfl⟩ := h
  split
  · exact ⟨rfl, rfl, rfl, rfl, rfl, rfl⟩
  · split <;> exact ⟨rfl, rfl, rfl, rfl, rfl, rfl⟩

/-! ## 4. The central system's CALLs

All handlers keep the billing and what was reported; a current status is moved by
ChangeAvailability alone. `ServeOk` adds what is left in `Tx_Msg`: a CALLRESULT, under the id and
the action of the CALL before, which no handler writes. -/

/-- What serving a CALL leaves: billing and the reported statuses as they were, every
current status as it was or an availability; the answer is a CALLRESULT, and the id and the
action of the last CALL stay in the buffer. -/
structure ServeOk (c c' : Charger) (tx tx' : TxBuf) : Prop where
  billing : c'.billing = c.billing
  pre : c'.cs.bPreCpStat = c.cs.bPreCpStat
  cur : ∀ i, c'.cs.bCpStat i = c.cs.bCpStat i ∨ c'.cs.bCpStat i = .avail ∨
    c'.cs.bCpStat i = .unavail
  /-- the charge point as a whole changes its availability with its connector only -/
  both : c'.cs.bCpStat 0 ≠ c.cs.bCpStat 0 →
    c'.cs.bCpStat 1 = .avail ∨ c'.cs.bCpStat 1 = .unavail
  msgType : tx'.msg.msgType = msgTypeCallRes
  action : tx'.msg.actionCode = tx.msg.actionCode

/-- Nothing but the answer is written. -/
theorem ServeOk.of_frame {c c' : Charger} {tx tx' : TxBuf} (hb : c'.billing = c.billing)
    (hs : c'.statuses = c.statuses) (ht : tx'.msg.msgType = msgTypeCallRes)
    (ha : tx'.msg.actionCode = tx.msg.actionCode) : ServeOk c c' tx tx' where
  billing := hb
  pre := (Charger.statuses_eq hs).2
  cur := fun i => .inl (congrFun (Charger.statuses_eq hs).1 i)
  both := fun hne => absurd (congrFun (Charger.statuses_eq hs).1 0) hne
  msgType := ht
  action := ha

section Answers
variable (ret : ResType) (rx : RxBuf) (tx : TxBuf)

@[simp] theorem makeCallRes_msgType : (makeCallRes ret rx tx).msg.msgType = msgTypeCallRes := rfl

@[simp] theorem makeCallRes_actionCode :
    (makeCallRes ret rx tx).msg.actionCode = tx.msg.actionCode := rfl

end Answers

/-- Marking a status for a second report changes neither projection. -/
theorem markAgain_frame (c : Charger) (i : Fin 2) (code : CpStatus) :
    (if c.cs.bCpStat i = code then c.setChgFlg i true else c).billing = c.billing ∧
      (if c.cs.bCpStat i = code then c.setChgFlg i true else c).statuses = c.statuses := by
  split <;> exact ⟨rfl, rfl⟩

@[simp] theorem setAvail_billing (c : Charger) (i : Fin 2) (b : Bool) :
    (setAvail c i b).billing = c.billing :=
  (markAgain_frame c i _).1

@[simp] theorem setAvail_pre (c : Charger) (i : Fin 2) (b : Bool) :
    (setAvail c i b).cs.bPreCpStat = c.cs.bPreCpStat :=
  (Charger.statuses_eq (markAgain_frame c i _).2).2

theorem setAvail_same (c : Charger) (i : Fin 2) (b : Bool) :
    (setAvail c i b).cs.bCpStat i = .avail ∨ (setAvail c i b).cs.bCpStat i = .unavail := by
  cases b
  · right
    simp [setAvail, Charger.setCpStatus]
  · left
    simp [setAvail, Charger.setCpStatus]

theorem setAvail_ne (c : Charger) {i j : Fin 2} (b : Bool) (hj : j ≠ i) :
    (setAvail c i b).cs.bCpStat j = c.cs.bCpStat j := by
  have hmark := (Charger.statuses_eq (markAgain_frame c i (if b then .avail else .unavail)).2).1
  have hset : (setAvail c i b).cs.bCpStat j =
      (if c.cs.bCpStat i = (if b then .avail else .unavail) then c.setChgFlg i true
        else c).cs.bCpStat j := if_neg hj
  rw [hset, hmark]

theorem dataProcCmdChangeAvail_ok {j : Junk} {rx : RxBuf} {c c' : Charger} {tx tx' : TxBuf}
    (h : dataProcCmdChangeAvail j rx c tx = some (c', tx')) : ServeOk c c' tx tx' := by
  simp only [dataProcCmdChangeAvail, Option.bind_eq_bind, Option.bind_eq_some_iff] at h
  obtain ⟨l, _, h⟩ := h
  split at h
  · simp only [Option.pure_def, Option.some.injEq, Prod.mk.injEq] at h
    obtain ⟨rfl, rfl⟩ := h
    exact .of_frame rfl rfl rfl rfl
  · split at h
    · simp only [Option.pure_def, Option.some.injEq, Prod.mk.injEq] at h
      obtain ⟨rfl, rfl⟩ := h
      have hone := setAvail_same (setAvail c 0 l.setVal) 1 l.setVal
      refine ⟨?_, ?_, fun i => .inr ?_, fun _ => hone, rfl, rfl⟩
      · exact (setAvail_billing _ 1 _).trans (setAvail_billing c 0 _)
      · exact (setAvail_pre _ 1 _).trans (setAvail_pre c 0 _)
      · by_cases hi : i = 1
        · subst hi
          exact hone
        · have hzero : i = 0 := by omega
          subst hzero
          have hkeep := setAvail_ne (setAvail c 0 l.setVal) l.setVal (j := 0) (i := 1) (by decide)
          rw [hkeep]
          exact setAvail_same c 0 l.setVal
    · rename_i hid
      rw [Option.bind_eq_some_iff] at h
      obtain ⟨i, hconn, h⟩ := h
      simp only [Option.pure_def, Option.some.injEq, Prod.mk.injEq] at h
      obtain ⟨rfl, rfl⟩ := h
      refine ⟨setAvail_billing c i _, setAvail_pre c i _, fun k => ?_, fun hne => ?_, rfl, rfl⟩
      · by_cases hk : k = i
        · subst hk
          exact .inr (setAvail_same c k _)
        · exact .inl (setAvail_ne c _ hk)
      · -- connector 0 is the branch above
        have hi : i ≠ 0 := by
          rintro rfl
          unfold connIdx at hconn
          split at hconn
          · have hval := congrArg Fin.val (Option.some.inj hconn)
            exact hid (UInt8.toNat_inj.mp hval)
          · exact absurd hconn (by simp)
        exact absurd (setAvail_ne c _ (Ne.symm hi)) hne

/-- Changing a key changes configuration only. -/
theorem changeConfigKey_frame (k v : Payload) (c : Charger) :
    (changeConfigKey k v c).2.billing = c.billing ∧
      (changeConfigKey k v c).2.statuses = c.statuses := by
  let P : ResType × Charger → Prop := fun r =>
    r.2.billing = c.billing ∧ r.2.statuses = c.statuses
  have hint : ∀ n, P (changeInt n v c) := fun n => by
    unfold changeInt
    split <;> exact ⟨rfl, rfl⟩
  have hbool : ∀ n, P (changeBool n v c) := fun n => by
    unfold changeBool
    split
    · exact ⟨rfl, rfl⟩
    · split <;> exact ⟨rfl, rfl⟩
  have hloose : ∀ n, P (changeBoolLoose n v c) := fun n => ⟨rfl, rfl⟩
  have hunstored : P (changeBoolUnstored v c) := by
    unfold changeBoolUnstored
    split <;> exact ⟨rfl, rfl⟩
  have hkeep : ∀ r, P (r, c) := fun r => ⟨rfl, rfl⟩
  have hite : ∀ {q : Bool} {x y : ResType × Charger}, P x → P y → P (if q then x else y) :=
    fun {q x y} hx hy => by cases q <;> [exact hy; exact hx]
  -- one `hite` per key, in the order of the chain
  exact hite (hint 10) <| hite (hint 1) <| hite (hbool 7) <| hite (hkeep _) <| hite (hint 2) <|
    hite (hloose 0) <| hite (hloose 20) <| hite (hloose 13) <| hite (hkeep _) <|
    hite (hbool 6) <| hite hunstored <| hite (hbool 23) <| hite (hbool 14) (hkeep _)

theorem dataProcCmdDataTransCs_ok {j : Junk} {rx : RxBuf} {c c' : Charger} {tx tx' : TxBuf}
    (h : dataProcCmdDataTransCs j rx c tx = some (c', tx')) : ServeOk c c' tx tx' := by
  simp only [dataProcCmdDataTransCs, Option.bind_eq_bind, Option.bind_eq_some_iff] at h
  obtain ⟨l, _, h⟩ := h
  split at h <;>
    · simp only [Option.pure_def, Option.some.injEq, Prod.mk.injEq] at h
      obtain ⟨rfl, rfl⟩ := h
      exact .of_frame rfl rfl rfl rfl

section Keys
variable (rx : RxBuf) (c : Charger)

theorem getConfigLoop_msg :
    ∀ {k n : Nat} {tx : TxBuf} {r : TxBuf × Option Nat},
      getConfigLoop rx c k n tx = some r → r.1.msg = tx.msg
  | 0, _, _, _, h => by
    simp only [getConfigLoop, Option.some.injEq] at h
    subst h; rfl
  | k + 1, n, tx, r, h => by
    unfold getConfigLoop at h
    split at h
    · exact absurd h (by simp)
    · split at h
      · exact (getConfigLoop_msg h).trans rfl
      · simp only [Option.some.injEq] at h
        subst h; rfl

theorem foldl_writeCfgKey_msg (is : List Nat) (tx : TxBuf) :
    (is.foldl (fun tx i => tx.writeCfgKey i (c.cfgKey i)) tx).msg = tx.msg := by
  induction is generalizing tx with
  | nil => rfl
  | cons i is ih =>
    rw [List.foldl_cons, ih]
    rfl

theorem dataProcCmdGetConfig_msg {tx tx' : TxBuf} (h : dataProcCmdGetConfig rx c tx = some tx') :
    tx'.msg.msgType = msgTypeCallRes ∧ tx'.msg.actionCode = tx.msg.actionCode := by
  unfold dataProcCmdGetConfig at h
  dsimp only at h
  split at h
  · simp only [Option.some.injEq] at h
    subst h
    simp only [TxBuf.keyList, TxBuf.setPayload, foldl_writeCfgKey_msg]
    exact ⟨rfl, rfl⟩
  · split at h
    · rw [Option.map_eq_some_iff] at h
      obtain ⟨r, hr, rfl⟩ := h
      have hmsg := getConfigLoop_msg rx c hr
      split
      · simp only [TxBuf.keyList, TxBuf.setPayload, hmsg]
        exact ⟨rfl, rfl⟩
      · simp only [TxBuf.keyList, TxBuf.unknownKey, TxBuf.setName, TxBuf.setContants,
          TxBuf.setPayload, hmsg]
        exact ⟨rfl, rfl⟩
    · simp only [Option.some.injEq] at h
      subst h
      exact ⟨rfl, rfl⟩

end Keys

theorem dataProcCmdGetDiag_ok {rx : RxBuf} {c c' : Charger} {tx tx' : TxBuf}
    (h : dataProcCmdGetDiag rx c tx = some (c', tx')) : ServeOk c c' tx tx' := by
  simp only [dataProcCmdGetDiag, Option.bind_eq_bind, Option.bind_eq_some_iff] at h
  obtain ⟨d, hd, h⟩ := h
  simp only [Option.pure_def, Option.some.injEq, Prod.mk.injEq] at h
  obtain ⟨rfl, rfl⟩ := h
  have hf : d.billing = c.billing ∧ d.statuses = c.statuses := by
    refine forProps_inv (P := fun d => d.billing = c.billing ∧ d.statuses = c.statuses)
      (fun p e e' he hb => ?_) ⟨rfl, rfl⟩ hd
    split at hb <;> · simp only [Option.some.injEq] at hb; subst hb; exact he
  exact .of_frame hf.1 hf.2 rfl rfl

theorem dataProcCmdUnlockConnect_ok {rx : RxBuf} {c c' : Charger} {tx tx' : TxBuf}
    (h : dataProcCmdUnlockConnect rx c tx = some (c', tx')) : ServeOk c c' tx tx' := by
  simp only [dataProcCmdUnlockConnect, Option.bind_eq_bind, Option.bind_eq_some_iff] at h
  obtain ⟨d, hd, h⟩ := h
  simp only [Option.pure_def, Option.some.injEq, Prod.mk.injEq] at h
  obtain ⟨rfl, rfl⟩ := h
  have hf : d.billing = c.billing ∧ d.statuses = c.statuses := by
    refine forProps_inv (P := fun d => d.billing = c.billing ∧ d.statuses = c.statuses)
      (fun p e e' he hb => ?_) ⟨rfl, rfl⟩ hd
    split at hb <;> · simp only [Option.some.injEq] at hb; subst hb; exact he
  exact .of_frame hf.1 hf.2 rfl rfl

theorem dataProcCmdRmStart_ok {rx : RxBuf} {c c' : Charger} {tx tx' : TxBuf}
    (h : dataProcCmdRmStart rx c tx = some (c', tx')) : ServeOk c c' tx tx' := by
  simp only [dataProcCmdRmStart, Option.bind_eq_bind, Option.bind_eq_some_iff] at h
  obtain ⟨l, hl, h⟩ := h
  have hf : l.2.2.billing = c.billing ∧ l.2.2.statuses = c.statuses := by
    refine forProps_inv
      (P := fun l : Bool × UInt32 × Charger =>
        l.2.2.billing = c.billing ∧ l.2.2.statuses = c.statuses)
      (fun p m m' hm hb => ?_) ⟨rfl, rfl⟩ hl
    simp only [Option.some.injEq] at hb
    subst hb
    split <;> split <;> exact hm
  split at h
  · rw [Option.bind_eq_some_iff] at h
    obtain ⟨i, _, h⟩ := h
    split at h <;>
      · simp only [Option.pure_def, Option.some.injEq, Prod.mk.injEq] at h
        obtain ⟨rfl, rfl⟩ := h
        exact .of_frame hf.1 hf.2 rfl rfl
  · simp only [Option.pure_def, Option.some.injEq, Prod.mk.injEq] at h
    obtain ⟨rfl, rfl⟩ := h
    exact .of_frame hf.1 hf.2 rfl rfl

theorem dataProcCmdRmStopTr_ok {rx : RxBuf} {c c' : Charger} {tx tx' : TxBuf}
    (h : dataProcCmdRmStopTr rx c tx = some (c', tx')) : ServeOk c c' tx tx' := by
  unfold dataProcCmdRmStopTr at h
  dsimp only at h
  split at h
  · rw [Option.map_eq_some_iff] at h
    obtain ⟨d, _, h⟩ := h
    split at h <;>
      · simp only [Prod.mk.injEq] at h
        obtain ⟨rfl, rfl⟩ := h
        exact .of_frame rfl rfl rfl rfl
  · simp only [Option.some.injEq, Prod.mk.injEq] at h
    obtain ⟨rfl, rfl⟩ := h
    exact .of_frame rfl rfl rfl rfl

theorem dataProcCmdReset_ok {rx : RxBuf} {c c' : Charger} {tx tx' : TxBuf}
    (h : dataProcCmdReset rx c tx = (c', tx')) : ServeOk c c' tx tx' := by
  unfold dataProcCmdReset at h
  dsimp only at h
  split at h
  · obtain ⟨rfl, rfl⟩ := Prod.mk.inj h
    exact .of_frame rfl rfl rfl rfl
  · split at h <;>
      · obtain ⟨rfl, rfl⟩ := Prod.mk.inj h
        exact .of_frame rfl rfl rfl rfl

theorem dataProcCmdTriggerMsg_ok {rx : RxBuf} {c c' : Charger} {tx tx' : TxBuf}
    (h : dataProcCmdTriggerMsg rx c tx = some (c', tx')) : ServeOk c c' tx tx' := by
  simp only [dataProcCmdTriggerMsg, Option.bind_eq_bind, Option.bind_eq_some_iff] at h
  obtain ⟨l, _, h⟩ := h
  split at h <;>
    · simp only [Option.pure_def, Option.some.injEq, Prod.mk.injEq] at h
      obtain ⟨rfl, rfl⟩ := h
      exact .of_frame rfl rfl rfl rfl

theorem dataProcCmdUpdateFw_ok {rx : RxBuf} {c c' : Charger} {tx tx' : TxBuf}
    (h : dataProcCmdUpdateFw rx c tx = some (c', tx')) : ServeOk c c' tx tx' := by
  simp only [dataProcCmdUpdateFw, Option.bind_eq_bind, Option.bind_eq_some_iff] at h
  obtain ⟨fw, _, h⟩ := h
  simp only [Option.pure_def, Option.some.injEq, Prod.mk.injEq] at h
  obtain ⟨rfl, rfl⟩ := h
  exact .of_frame rfl rfl rfl rfl

/-- **Serving a CALL** never touches the billing or the reported statuses, and always leaves
a CALLRESULT to send. -/
theorem rxCallDataProc_ok {cmd : CsReqAction} {j : Junk} {rx : RxBuf} {c c' : Charger}
    {tx tx' : TxBuf} (h : rxCallDataProc cmd j rx c tx = some (c', tx')) :
    ServeOk c c' tx tx' := by
  have lift : ∀ {tx₁ : TxBuf}, tx₁.msg.actionCode = tx.msg.actionCode →
      ServeOk c c' tx₁ tx' → ServeOk c c' tx tx' := fun ha k =>
    ⟨k.billing, k.pre, k.cur, k.both, k.msgType, k.action.trans ha⟩
  cases cmd with
  | changeAvail => exact lift rfl (dataProcCmdChangeAvail_ok h)
  | changeConfig =>
    simp only [rxCallDataProc, Option.some.injEq, dataProcCmdChangeConfig, Prod.mk.injEq] at h
    obtain ⟨rfl, rfl⟩ := h
    split
    · exact .of_frame (changeConfigKey_frame _ _ c).1 (changeConfigKey_frame _ _ c).2 rfl rfl
    · exact .of_frame rfl rfl rfl rfl
  | dataTransfer => exact lift rfl (dataProcCmdDataTransCs_ok h)
  | getConfig =>
    simp only [rxCallDataProc, Option.map_eq_some_iff, Prod.mk.injEq] at h
    obtain ⟨t, ht, rfl, rfl⟩ := h
    have hm := dataProcCmdGetConfig_msg rx c ht
    exact .of_frame rfl rfl hm.1 hm.2
  | getDiag => exact lift rfl (dataProcCmdGetDiag_ok h)
  | remoteStart => exact lift rfl (dataProcCmdRmStart_ok h)
  | remoteStop => exact lift rfl (dataProcCmdRmStopTr_ok h)
  | reset => exact lift rfl (dataProcCmdReset_ok (Option.some.inj h))
  | triggerMsg => exact lift rfl (dataProcCmdTriggerMsg_ok h)
  | unlockConnect => exact lift rfl (dataProcCmdUnlockConnect_ok h)
  | updateFw => exact lift rfl (dataProcCmdUpdateFw_ok h)
  | clearCache | clearChargProf | getLocalVer | sndLocalList | none | cancelReseve
  | getCompositSched | reserve | setChgProfile =>
    simp only [rxCallDataProc, Option.some.injEq, Prod.mk.injEq] at h
    obtain ⟨rfl, rfl⟩ := h
    exact .of_frame rfl rfl rfl rfl

end ChargePoint
