import ChargePoint.Serving

/-!
# Configuration keys: changed and read back

A key is accepted by one dispatch (`ChangeConfiguration`) and read by another
(`GetConfiguration`), and the two agree on the table they share, `CfgKeyVal`. They do not agree on
every value: `String2Integer` makes a number of any text and `uint32_t` keeps its low half, three
booleans take every other word for `false`, and `LocalAuthListEnabled` is accepted without a row
in the table. `Storable` says exactly which changes come back as they were accepted
(`config_agrees_iff`).

What lies between the change and the reading is a run. Nothing in it writes `CfgKeyVal` but the
heartbeat interval of a BootNotification answer and another ChangeConfiguration (`step_cfg`).
-/

set_option autoImplicit false

namespace ChargePoint

open CStr Loop

/-! ## Who writes the table

`CfgOnly S` says that of the table only the numbers of the rows in `S` have changed. The answers
need `S` to hold the heartbeat interval, the requests other than ChangeConfiguration need
nothing, and a handler made of branches and binds keeps the table if each of its parts does
(`KeepsCfg`). -/

/-- At most the numbers of the rows in `S` change, and nothing else of the table. -/
def CfgOnly (S : Nat → Prop) (c c' : Charger) : Prop :=
  ∀ i, ∃ v, c'.cfgKey i = { c.cfgKey i with cfgKeyDataInt := v } ∧
    (¬ S i → v = (c.cfgKey i).cfgKeyDataInt)

section CfgOnly
variable {S T : Nat → Prop} {c c' c'' : Charger}

theorem CfgOnly.of_eq (h : c'.cfgKey = c.cfgKey) : CfgOnly S c c' := by
  intro i
  rw [h]
  exact ⟨_, rfl, fun _ => rfl⟩

theorem CfgOnly.trans (h : CfgOnly S c c') (h' : CfgOnly S c' c'') : CfgOnly S c c'' := by
  intro i
  obtain ⟨v, hv, hkeep⟩ := h i
  obtain ⟨w, hw, hkeep'⟩ := h' i
  refine ⟨w, ?_, ?_⟩
  · rw [hw, hv]
  · intro hi
    rw [hkeep' hi, hv]
    exact hkeep hi

theorem CfgOnly.mono (h : CfgOnly S c c') (hST : ∀ i, S i → T i) : CfgOnly T c c' := by
  intro i
  obtain ⟨v, hv, hkeep⟩ := h i
  exact ⟨v, hv, fun hi => hkeep (mt (hST i) hi)⟩

theorem CfgOnly.setCfgInt (c : Charger) (n : Nat) (v : UInt32) :
    CfgOnly (fun i => i = n) c (c.setCfgInt n v) := by
  intro i
  by_cases hi : i = n
  · exact ⟨v, if_pos hi, fun h => absurd hi h⟩
  · exact ⟨_, if_neg hi, fun _ => rfl⟩

/-- A row that is not in `S` stays as it is. -/
theorem CfgOnly.row (h : CfgOnly S c c') {i : Nat} (hi : ¬ S i) : c'.cfgKey i = c.cfgKey i := by
  obtain ⟨v, hv, hkeep⟩ := h i
  rw [hv, hkeep hi]

end CfgOnly

/-- A BootNotification answer sets the heartbeat interval. -/
theorem dataProcCmdBoot_cfg {rx : RxBuf} {c c' : Charger} (h : dataProcCmdBoot rx c = some c') :
    CfgOnly (fun i => i = 5) c c' := by
  refine forProps_inv (P := CfgOnly (fun i => i = 5) c) ?_ (.of_eq rfl) h
  intro p d d' hd hb
  have haccept : ∀ (e : Charger) (i : Fin 2), (bootAccept e i).cfgKey = e.cfgKey := by
    intro e i
    unfold bootAccept
    split
    · dsimp only
      split <;> rfl
    · rfl
  split at hb
  · cases hb
    exact hd.trans (.setCfgInt d 5 _)
  · split at hb
    · split at hb
      · split at hb
        · cases hb
          exact hd.trans (.of_eq ((haccept _ 1).trans (haccept d 0)))
        · cases hb
          exact hd
      · split at hb <;> cases hb <;> exact hd.trans (.of_eq rfl)
    · cases hb
      exact hd

theorem rxCallResDataProc_cfg {rx : RxBuf} {m : TxMsg} {c c' : Charger}
    (h : rxCallResDataProc rx m c = some c') : CfgOnly (fun i => i = 5) c c' := by
  -- only the handler of a BootNotification writes a key
  unfold rxCallResDataProc at h
  split at h
  · simp only [dataProcCmdAuth, Option.map_eq_some_iff] at h
    obtain ⟨d, hd, rfl⟩ := h
    refine .of_eq ?_
    show d.cfgKey = c.cfgKey
    split at hd
    · refine forSubProps_inv (P := fun e => e.cfgKey = c.cfgKey) ?_ rfl hd
      intro q e e' he hq
      split at hq
      · split at hq <;> cases hq <;> exact he
      · split at hq
        · split at hq
          · cases hq
            exact he
          · cases hq
        · cases hq
          exact he
    · cases hd
      rfl
  · exact dataProcCmdBoot_cfg h
  · cases h
    exact .of_eq rfl
  · cases h
    exact .of_eq rfl
  · refine .of_eq (forProps_inv (P := fun e => e.cfgKey = c.cfgKey) ?_ rfl h)
    intro p e e' he hp
    split at hp
    · refine forSubProps_inv (P := fun e => e.cfgKey = c.cfgKey) ?_ he hp
      intro q d d' hd hq
      split at hq <;> cases hq <;> exact hd
    · split at hp
      · simp only [Option.map_eq_some_iff] at hp
        obtain ⟨d, -, rfl⟩ := hp
        exact he
      · cases hp
        exact he
  · simp only [dataProcCmdStat, Option.map_eq_some_iff] at h
    obtain ⟨i, -, rfl⟩ := h
    split <;> exact .of_eq rfl
  · simp only [dataProcCmdStopTs, Option.map_eq_some_iff] at h
    obtain ⟨d, -, rfl⟩ := h
    split
    · exact .of_eq rfl
    · split <;> exact .of_eq rfl
  · cases h
    exact .of_eq rfl
  · cases h
    exact .of_eq rfl
  · cases h
    exact .of_eq rfl
  · cases h
    exact .of_eq rfl
  · cases h
    exact .of_eq rfl

/-- The handler leaves the table alone. -/
def KeepsCfg (c : Charger) (x : Option (Charger × TxBuf)) : Prop :=
  ∀ r, x = some r → r.1.cfgKey = c.cfgKey

section KeepsCfg
variable {c : Charger}

theorem KeepsCfg.pure {r : Charger × TxBuf} (h : r.1.cfgKey = c.cfgKey) :
    KeepsCfg c (some r) := by
  rintro _ ⟨⟩
  exact h

theorem KeepsCfg.ite {p : Prop} [Decidable p] {x y : Option (Charger × TxBuf)}
    (hx : KeepsCfg c x) (hy : KeepsCfg c y) : KeepsCfg c (if p then x else y) := by
  split
  · exact hx
  · exact hy

theorem KeepsCfg.bind {α : Type} {x : Option α} {f : α → Option (Charger × TxBuf)}
    (hf : ∀ a, x = some a → KeepsCfg c (f a)) : KeepsCfg c (x.bind f) := by
  intro r hr
  obtain ⟨a, ha, hr⟩ := Option.bind_eq_some_iff.mp hr
  exact hf a ha r hr

theorem setAvail_cfgKey (c : Charger) (i : Fin 2) (b : Bool) :
    (setAvail c i b).cfgKey = c.cfgKey := by
  unfold setAvail
  dsimp only
  split <;> split <;> rfl

theorem rxCallDataProc_cfg {cmd : CsReqAction} (hcmd : cmd ≠ .changeConfig) (j : Junk) (rx : RxBuf)
    (c : Charger) (tx : TxBuf) : KeepsCfg c (rxCallDataProc cmd j rx c tx) := by
  cases cmd with
  | changeConfig => exact absurd rfl hcmd
  | changeAvail =>
    refine .bind fun l _ => .ite (.pure rfl) (.ite (.pure ?_) (.bind fun i _ => .pure ?_))
    · exact (setAvail_cfgKey _ 1 _).trans (setAvail_cfgKey c 0 _)
    · exact setAvail_cfgKey c i _
  | dataTransfer => exact .bind fun l _ => .ite (.pure rfl) (.pure rfl)
  | getConfig =>
    intro r hr
    simp only [rxCallDataProc, Option.map_eq_some_iff] at hr
    obtain ⟨tx', -, rfl⟩ := hr
    rfl
  | getDiag =>
    refine .bind fun d hd => .pure ?_
    refine forProps_inv (P := fun e => e.cfgKey = c.cfgKey) ?_ rfl hd
    intro p e e' he hp
    split at hp <;> cases hp <;> exact he
  | unlockConnect =>
    refine .bind fun d hd => .pure ?_
    refine forProps_inv (P := fun e => e.cfgKey = c.cfgKey) ?_ rfl hd
    intro p e e' he hp
    split at hp <;> cases hp <;> exact he
  | remoteStart =>
    refine .bind fun l hl => ?_
    have hkeep : l.2.2.cfgKey = c.cfgKey := by
      refine forProps_inv (P := fun l : Bool × UInt32 × Charger => l.2.2.cfgKey = c.cfgKey) ?_ rfl hl
      intro p m m' hm hp
      cases hp
      split <;> split <;> exact hm
    exact .ite (.bind fun i _ => .ite (.pure hkeep) (.pure hkeep)) (.pure hkeep)
  | remoteStop =>
    refine .ite ?_ (.pure rfl)
    intro r hr
    obtain ⟨d, -, rfl⟩ := Option.map_eq_some_iff.mp hr
    split <;> rfl
  | reset =>
    refine .pure ?_
    unfold dataProcCmdReset
    dsimp only
    split
    · rfl
    · split <;> rfl
  | triggerMsg => exact .bind fun l _ => .ite (.pure rfl) (.pure rfl)
  | updateFw => exact .bind fun fw _ => .pure rfl
  | clearCache | clearChargProf | getLocalVer | sndLocalList | none | cancelReseve
  | getCompositSched | reserve | setChgProfile => exact .pure rfl

end KeepsCfg

/-! ## The dispatch of ChangeConfiguration

A chain of comparisons in the source. `cfgChanges` is the chain as a table: the key, and whether it
sets a number, a boolean that refuses other words, one that takes them for `false`, or is accepted
without being stored. `changeConfigKey_does` says that the chain does what the table says;
everything after it is about the table. -/

/-- What a change of a key does: a number or a boolean goes to a row of the table. -/
inductive CfgChange
  | int (n : Nat)
  | bool (n : Nat)
  | loose (n : Nat)
  | unstored
  | refused
  deriving DecidableEq

/-- The keys, in the order of the source. -/
def cfgChanges : List (String × CfgChange) :=
  [ ("MeterValueSampleInterval", .int 10),
    ("ClockAlignedDataInterval", .int 1),
    ("LocalPreAuthorize", .bool 7),
    ("AuthorizationCacheEnabled", .refused),
    ("ConnectionTimeOut", .int 2),
    ("AuthorizeRemoteTxRequests", .loose 0),
    ("UnlockConnectorOnEVSideDisconnect", .loose 20),
    ("StopTransactionOnEVSideDisconnect", .loose 13),
    ("MinimumStatusDuration", .refused),
    ("LocalAuthorizeOffline", .bool 6),
    ("LocalAuthListEnabled", .unstored),
    ("AllowOfflineTxForUnknownId", .bool 23),
    ("StopTransactionOnInvalidId", .bool 14) ]

def cfgLookup (k : List Char) : List (String × CfgChange) → CfgChange
  | [] => .refused
  | e :: es => if k = e.1.toList then e.2 else cfgLookup k es

def cfgChange (k : List Char) : CfgChange := cfgLookup k cfgChanges

theorem cfgLookup_mem (k : List Char) (es : List (String × CfgChange)) :
    cfgLookup k es = .refused ∨ ∃ e ∈ es, k = e.1.toList ∧ cfgLookup k es = e.2 := by
  induction es with
  | nil => exact .inl rfl
  | cons e es ih =>
    unfold cfgLookup
    by_cases hk : k = e.1.toList
    · rw [if_pos hk]
      exact .inr ⟨e, List.mem_cons_self, hk, rfl⟩
    · rw [if_neg hk]
      rcases ih with hnone | ⟨e', he', hk', heq⟩
      · exact .inl hnone
      · exact .inr ⟨e', List.mem_cons_of_mem e he', hk', heq⟩

/-- What every entry of the list has, every key that is not refused has. -/
theorem cfgChange_all {P : List Char → CfgChange → Prop} (h : ∀ e ∈ cfgChanges, P e.1.toList e.2)
    {k : List Char} (hk : cfgChange k ≠ .refused) : P k (cfgChange k) := by
  rcases cfgLookup_mem k cfgChanges with hnone | ⟨e, he, rfl, heq⟩
  · exact absurd hnone hk
  · have hp := h e he
    rw [← heq] at hp
    exact hp

/-- The row a change goes to. -/
def CfgChange.row : CfgChange → Option (Nat × TypeCode)
  | .int n => some (n, .int)
  | .bool n | .loose n => some (n, .bool)
  | .unstored | .refused => none

/-- What a change does to the charger, and whether it is accepted. -/
def CfgChange.Does (v : Payload) (c : Charger) (r : ResType × Charger) : CfgChange → Prop
  | .int n => r = changeInt n v c
  | .bool n => r = changeBool n v c
  | .loose n => r = changeBoolLoose n v c
  | .unstored => r = changeBoolUnstored v c
  | .refused => r.2 = c ∧ r.1.text ≠ "Accepted".toList

/-- The dispatch does what `cfgChange` says. -/
theorem changeConfigKey_does (p v : Payload) (c : Charger) :
    (cfgChange (cstr p.propertyContants)).Does v c (changeConfigKey p v c) := by
  have hite : ∀ {q : String} {x x' : ResType × Charger} {y y' : CfgChange},
      y.Does v c x → y'.Does v c x' →
      (if cstr p.propertyContants = q.toList then y else y').Does v c
        (if p.holds q then x else x') := by
    intro q x x' y y' hx hx'
    unfold Payload.holds
    by_cases hq : cstr p.propertyContants = q.toList
    · rw [if_pos hq, if_pos (by simpa using hq)]
      exact hx
    · rw [if_neg hq, if_neg (by simpa using hq)]
      exact hx'
  have hrefused : ∀ {ret : ResType}, ret.text ≠ "Accepted".toList →
      CfgChange.refused.Does v c (ret, c) := fun hret => ⟨rfl, hret⟩
  have hcache : (if v.holds "true" then ResType.notSuppt else .rejected).text ≠
      "Accepted".toList := by
    split <;> decide
  -- one `hite` per key, in the order of the chain
  exact hite rfl <| hite rfl <| hite rfl <| hite (hrefused hcache) <| hite rfl <| hite rfl <|
    hite rfl <| hite rfl <| hite (hrefused (by decide)) <| hite rfl <| hite rfl <| hite rfl <|
    hite rfl (hrefused (by decide))

/-- The row of a key has its name, can be written, and is stored as a number. -/
def CfgChange.rowOf (k : List Char) (x : CfgChange) : Bool :=
  match x.row with
  | some (n, ty) => n < maxCfg ∧ n ≠ 5 ∧ (initCfgKey n).cfgKeyName = k ∧
      (initCfgKey n).cfgKeyRw = false ∧ (initCfgKey n).cfgKeyType = ty ∧
      (initCfgKey n).cfgKeyDataCha = [] ∧ (ty = .int ∨ ty = .bool)
  | none => true

theorem cfgChange_row {k : List Char} {n : Nat} {ty : TypeCode}
    (h : (cfgChange k).row = some (n, ty)) : n < maxCfg ∧ n ≠ 5 ∧
      initCfgKey n = ⟨k, false, ty, [], (initCfgKey n).cfgKeyDataInt⟩ ∧ (ty = .int ∨ ty = .bool) := by
  have hne : cfgChange k ≠ .refused := by
    intro hk
    rw [hk] at h
    cases h
  have hall : ∀ e ∈ cfgChanges, e.2.rowOf e.1.toList = true := by decide +kernel
  have hrow := cfgChange_all (P := fun k x => x.rowOf k = true) hall hne
  unfold CfgChange.rowOf at hrow
  rw [h] at hrow
  obtain ⟨hlt, h5, hname, hrw, htype, hcha, hty⟩ := of_decide_eq_true hrow
  refine ⟨hlt, h5, ?_, hty⟩
  cases hkey : initCfgKey n with
  | mk name rw' type cha int =>
    rw [hkey] at hname hrw htype hcha
    subst hname hrw htype hcha
    rfl

/-- A row of the table that has the name of the key. -/
def IsRow (k : List Char) (i : Nat) : Prop := (initCfgKey i).cfgKeyName = k

/-- A key leaves everything as it is, or it is accepted and sets the number of its row. -/
theorem changeConfigKey_row (p v : Payload) (c : Charger) :
    (changeConfigKey p v c).2 = c ∨ ((changeConfigKey p v c).1 = .accept ∧ ∃ n ty x,
      (cfgChange (cstr p.propertyContants)).row = some (n, ty) ∧
        (changeConfigKey p v c).2 = c.setCfgInt n x) := by
  have hdoes := changeConfigKey_does p v c
  cases hchange : cfgChange (cstr p.propertyContants) with
  | int n =>
    rw [hchange] at hdoes
    rw [show changeConfigKey p v c = changeInt n v c from hdoes]
    unfold changeInt
    split
    · exact .inl rfl
    · exact .inr ⟨rfl, n, .int, _, rfl, rfl⟩
  | bool n =>
    rw [hchange] at hdoes
    rw [show changeConfigKey p v c = changeBool n v c from hdoes]
    unfold changeBool
    split
    · exact .inr ⟨rfl, n, .bool, _, rfl, rfl⟩
    · split
      · exact .inr ⟨rfl, n, .bool, _, rfl, rfl⟩
      · exact .inl rfl
  | loose n =>
    rw [hchange] at hdoes
    rw [show changeConfigKey p v c = changeBoolLoose n v c from hdoes]
    exact .inr ⟨rfl, n, .bool, _, rfl, rfl⟩
  | unstored =>
    rw [hchange] at hdoes
    rw [show changeConfigKey p v c = changeBoolUnstored v c from hdoes]
    unfold changeBoolUnstored
    split
    · exact .inl rfl
    · exact .inl rfl
  | refused =>
    rw [hchange] at hdoes
    exact .inl hdoes.1

theorem changeConfigKey_cfg (p v : Payload) (c : Charger) :
    CfgOnly (IsRow (cstr p.propertyContants)) c (changeConfigKey p v c).2 := by
  rcases changeConfigKey_row p v c with hsame | ⟨-, n, ty, x, hrow, heq⟩
  · exact .of_eq (congrArg Charger.cfgKey hsame)
  · rw [heq]
    refine (CfgOnly.setCfgInt c n x).mono ?_
    intro i hi
    subst hi
    unfold IsRow
    rw [(cfgChange_row hrow).2.2.1]

/-! ## A step, a run -/

/-- A request to change this key. -/
def RxMsg.Changes (m : RxMsg) (k : List Char) : Prop :=
  m.actionCode = .cs .changeConfig ∧ cstr (m.payload 0).propertyContants = k

/-- A change of the key was served. -/
def Changed (k : List Char) (log : List Obs) : Prop :=
  ∃ frame m, Obs.served frame m ∈ log ∧ m.Changes k

theorem Call.cfgKey (a : Call) (k : Clock) (c : Charger) :
    (a.finish (a.prepare k c)).cfgKey = c.cfgKey := by
  cases a <;> rfl

/-- **A step writes the heartbeat interval at most**, and the row of a key that is changed. -/
theorem step_cfg {s s' : Client} {e : Event} {o : List Obs} (h : step s e = some (s', o)) :
    CfgOnly (fun i => i = 5 ∨ Changed (initCfgKey i).cfgKeyName o) s.cp s'.cp := by
  -- the table is written by the answer to a BootNotification and by ChangeConfiguration
  cases step_cases h with
  | quiet f rx b hs ho hrun =>
    subst hs
    exact .of_eq rfl
  | raised k he hreq hs ho =>
    subst hs
    exact .of_eq rfl
  | sampled k f ty he hty hdue hs ho =>
    subst hs
    exact .of_eq rfl
  | connected k sendOk he hc hs ho =>
    subst hs
    exact .of_eq rfl
  | ticked k sendOk connectOk he hc ht =>
    cases ht with
    | idle f t v w hs ho hsen =>
      subst hs
      exact .of_eq rfl
    | timeout w hw hs ho =>
      subst hs
      exact .of_eq rfl
    | failed a f t tx d v hw hg hb hs ho =>
      subst hs
      exact .of_eq (a.cfgKey k _)
    | called a f t tx d v hw hg hb hs ho =>
      subst hs
      exact .of_eq (a.cfgKey k _)
  | received frame j k sendOk he hc hr =>
    subst he
    simp only [step, if_pos hc] at h
    cases hr with
    | dropped rx d b hs ho =>
      subst hs
      exact .of_eq rfl
    | answered rx d c hw htype hact hid htext hparse hres hs ho =>
      subst hs
      exact (rxCallResDataProc_cfg hres).mono fun i hi => .inl hi
    | served rx d b cmd j' c tx tx' rx' sent hserve htx hs hsent ho =>
      have hmem : Obs.served frame rx.msg ∈ o := by
        rw [ho]
        exact List.mem_cons_self
      obtain ⟨rx₁, cmd₁, c₁, tx₁, hmsg, hact, hserve₁, hcp, -⟩ :=
        (Client.recv_serves h hmem).handler
      rw [hcp]
      -- the observation of a request that was served names the key it sets
      by_cases hcmd : cmd₁ = .changeConfig
      · subst hcmd
        simp only [rxCallDataProc, Option.some.injEq, dataProcCmdChangeConfig, Prod.mk.injEq]
          at hserve₁
        obtain ⟨rfl, -⟩ := hserve₁
        split
        · refine (changeConfigKey_cfg _ _ s.cp).mono ?_
          intro i hi
          exact .inr ⟨frame, rx.msg, hmem, hact, by rw [← hmsg]; exact hi.symm⟩
        · exact .of_eq rfl
      · exact .of_eq (rxCallDataProc_cfg hcmd j rx₁ s.cp s.tx _ hserve₁)
  | env w c he hw hs =>
    subst hs
    refine .of_eq ?_
    cases w with
    | setCpStatus code ch =>
      simp only [EnvWrite.apply, Option.map_eq_some_iff, Prod.mk.injEq] at hw
      obtain ⟨i, -, rfl, -⟩ := hw
      rfl
    | reqStopTs | scene | reqStartTs | reqAuth | scndCardNo | clearParentId | qrEvent
    | rmtStart | rmtStop | diagLogReqStep | updateStep | chargingStatus | devChannel
    | stopTsConfig =>
      simp only [EnvWrite.apply, Option.some.injEq, Prod.mk.injEq] at hw
      obtain ⟨rfl, -⟩ := hw
      rfl

/-- A run that does not change the key keeps its row. -/
theorem run_row {s s' : Client} {log : List Obs} {k : List Char} {n : Nat} {ty : TypeCode}
    (hrow : (cfgChange k).row = some (n, ty)) (h : Trace.Always step s s' log)
    (hkeep : ¬ Changed k log) : s'.cp.cfgKey n = s.cp.cfgKey n := by
  obtain ⟨-, hne, hinit, -⟩ := cfgChange_row hrow
  refine h.invariant (I := fun t l => ¬ Changed k l → t.cp.cfgKey n = s.cp.cfgKey n) ?_ ?_ hkeep
  · intro _
    rfl
  · intro t l e t' o hI _ hstep hnot
    have hl : ¬ Changed k l := by
      rintro ⟨frame, m, hm, hchanges⟩
      exact hnot ⟨frame, m, List.mem_append_left o hm, hchanges⟩
    have ho : ¬ Changed (initCfgKey n).cfgKeyName o := by
      rw [hinit]
      rintro ⟨frame, m, hm, hchanges⟩
      exact hnot ⟨frame, m, List.mem_append_right l hm, hchanges⟩
    rw [(step_cfg hstep).row (by rintro (h5 | hc); exacts [hne h5, ho hc]), hI hl]

/-- The names and types of the table are those of `Init_CfgKey`. -/
def CfgTable (c : Charger) : Prop := ∀ i, ∃ v, c.cfgKey i = { initCfgKey i with cfgKeyDataInt := v }

theorem run_table {s : Client} {log : List Obs} (h : Run s log) : CfgTable s.cp := by
  obtain ⟨st, now, hrun⟩ := h
  have honly : CfgOnly (fun _ => True) (Client.init st now).cp s.cp := by
    refine hrun.invariant (I := fun t _ => CfgOnly (fun _ => True) (Client.init st now).cp t.cp)
      (.of_eq rfl) ?_
    intro t l e t' o hI _ hstep
    exact hI.trans ((step_cfg hstep).mono fun _ _ => trivial)
  intro i
  obtain ⟨v, hv, -⟩ := honly i
  exact ⟨v, hv⟩

/-! ## The dispatch of GetConfiguration

The reading side looks a key up by name among the rows. As the names of `Init_CfgKey` are
different, a key is found in its own row, and an answer to one key shows that row or, if there is
none, `unknownKey`. -/

/-- A request for one key. -/
structure AsksFor (rx : RxBuf) (k : List Char) : Prop where
  key : (rx.msg.payload 0).named "key" = true
  one : (rx.msg.payload 0).subPayloadLen = 0
  item : ∃ q, rx.deref (rx.msg.payload 0).subPayload 0 = some q ∧ cstr q.propertyContants = k

/-- **The answer that shows a value** of a key that can be written. -/
def keyFrame (id k w : List Char) : List Char :=
  "[3,".toList ++ convStr2Str id ++
    ",\x7b\"configurationKey\":[\x7b\"key\":\"".toList ++ k ++
    "\",\"readonly\":false,\"value\":\"".toList ++ w ++ "\"\x7d]\x7d]".toList

/-- The answer to a key that is not in the table. -/
def unknownKeyFrame (id : List Char) : List Char :=
  "[3,".toList ++ convStr2Str id ++ ",\x7b\"unknownKey\":[]\x7d]".toList

theorem keyFrame_inj {id k w w' : List Char} (h : keyFrame id k w = keyFrame id k w') : w = w' := by
  unfold keyFrame at h
  simpa using h

theorem keyFrame_ne_unknownKeyFrame (id k w : List Char) : keyFrame id k w ≠ unknownKeyFrame id := by
  intro h
  unfold keyFrame unknownKeyFrame at h
  simp only [List.append_assoc] at h
  have htail := List.append_cancel_left (List.append_cancel_left h)
  simp at htail

/-- A number as its row shows it. -/
def TypeCode.shows (ty : TypeCode) (x : UInt32) : List Char :=
  match ty with
  | .int => dec x.toNat
  | _ => (if x ≠ 0 then "true" else "false").toList

/-- The text of a row whose key can be written. -/
theorem cstr_cfgKeyText {k : List Char} (hk : NulFree k) {ty : TypeCode} (hty : ty = .int ∨ ty = .bool)
    (x : UInt32) : cstr (cfgKeyText ⟨k, false, ty, [], x⟩) = "\x7b\"key\":\"".toList ++ k ++
      "\",\"readonly\":false,\"value\":\"".toList ++ ty.shows x ++ "\"\x7d".toList := by
  have hshows : NulFree (ty.shows x) := by
    rcases hty with rfl | rfl
    · exact nulFree_dec _
    · unfold TypeCode.shows
      dsimp only
      split <;> decide
  have htext : cfgKeyText ⟨k, false, ty, [], x⟩ = "\x7b\"key\":\"".toList ++ k ++
      "\",\"readonly\":false,\"value\":\"".toList ++ ty.shows x ++ "\"\x7d".toList := by
    unfold cfgKeyText
    dsimp only
    rw [cstr_of_nulFree hk]
    rcases hty with rfl | rfl
    · simp [TypeCode.shows]
    · simp [TypeCode.shows]
  rw [htext]
  refine cstr_of_nulFree ?_
  simp only [nulFree_append]
  exact ⟨⟨⟨⟨by decide, hk⟩, by decide⟩, hshows⟩, by decide⟩

/-- A key is found in its own row: the names are different. -/
theorem findCfgKey_row {c : Charger} (h : CfgTable c) {n : Nat} (hn : n < maxCfg) :
    findCfgKey c (initCfgKey n).cfgKeyName = some (c.cfgKey n) := by
  have hnames : ∀ n < maxCfg, (List.range maxCfg).find? (fun i =>
      decide (cstr (initCfgKey i).cfgKeyName = (initCfgKey n).cfgKeyName)) = some n := by
    decide +kernel
  have hsame : (fun k : CfgKey => decide (cstr k.cfgKeyName = (initCfgKey n).cfgKeyName)) ∘
      c.cfgKey = fun i => decide (cstr (initCfgKey i).cfgKeyName = (initCfgKey n).cfgKeyName) := by
    funext i
    obtain ⟨v, hv⟩ := h i
    simp only [Function.comp_apply, hv]
  unfold findCfgKey
  rw [List.find?_map, hsame, hnames n hn]
  rfl

theorem findCfgKey_none {c : Charger} (h : CfgTable c) {k : List Char}
    (hk : ∀ i < maxCfg, cstr (initCfgKey i).cfgKeyName ≠ k) : findCfgKey c k = none := by
  unfold findCfgKey
  rw [List.find?_eq_none]
  intro key hkey
  obtain ⟨i, hi, rfl⟩ := List.mem_map.mp hkey
  obtain ⟨v, hv⟩ := h i
  rw [hv]
  simpa using hk i (List.mem_range.mp hi)

section GetConfig
variable {s s' : Client} {log : List Obs} {rx : RxBuf} {f k : List Char}

/-- The handler on a request for one key. -/
theorem getConfig_one {j : Junk} {c : Charger} (hask : AsksFor rx k) (tx : TxBuf) :
    rxCallDataProc .getConfig j rx c tx = some (c, Reply.write rx tx (match findCfgKey c k with
      | some key => .keys [key]
      | none => .unknownAfter [])) := by
  obtain ⟨q, hq, hk⟩ := hask.item
  have hname : cstr (rx.msg.payload 0).propertyName ≠ [] := by
    have hkey := hask.key
    simp only [Payload.named, decide_eq_true_eq] at hkey
    rw [hkey]
    decide
  simp only [rxCallDataProc, dataProcCmdGetConfig, if_neg hname, if_pos hask.key, hask.one,
    getConfigLoop_eq, foundKeys, hq, hk]
  cases findCfgKey c k <;> rfl

/-- **What a row shows.** -/
theorem shows_row {n : Nat} {ty : TypeCode} (h : Run s log)
    (hrow : (cfgChange k).row = some (n, ty)) (hx : Exchange s s' .getConfig rx f)
    (hask : AsksFor rx k) :
    f = keyFrame rx.msg.uniqueIdChar k (ty.shows (s.cp.cfgKey n).cfgKeyDataInt) := by
  obtain ⟨hlt, -, hinit, hty⟩ := cfgChange_row hrow
  have htable := run_table h
  have hname : (initCfgKey n).cfgKeyName = k := by rw [hinit]
  have hfind := findCfgKey_row htable hlt
  rw [hname] at hfind
  obtain ⟨j, tx, hserve, rfl, -, -⟩ := hx.serve
  rw [getConfig_one hask, hfind] at hserve
  obtain ⟨-, rfl⟩ := Prod.mk.inj (Option.some.inj hserve)
  rw [makeOcppMsg_reply rx (left_plain ⟨s, log, h, rfl⟩)]
  have hk : NulFree k := by
    have hall : ∀ i < maxCfg, NulFree (initCfgKey i).cfgKeyName := by decide +kernel
    rw [← hname]
    exact hall n hlt
  obtain ⟨x, hkey⟩ := htable n
  have hrow' : s.cp.cfgKey n = ⟨k, false, ty, [], x⟩ := by rw [hkey, hinit]
  have harray : convStr2Str "configurationKey".toList = "\"configurationKey\"".toList := by decide
  have hhead : ",\x7b\"configurationKey\":[\x7b\"key\":\"".toList =
      ",\x7b".toList ++ ("\"configurationKey\"".toList ++ ':' :: '[' :: "\x7b\"key\":\"".toList) := by
    decide
  have htail : "\"\x7d]\x7d]".toList = "\"\x7d".toList ++ (']' :: "\x7d]".toList) := by decide
  unfold keyFrame
  rw [hhead, htail, hrow']
  simp only [Reply.text, List.map_cons, List.map_nil, cstr_cfgKeyText hk hty, harray,
    commas_singleton, List.append_assoc, List.cons_append, List.nil_append]

/-- What a key without a row shows. -/
theorem shows_unknown (h : Run s log) (hk : ∀ i < maxCfg, cstr (initCfgKey i).cfgKeyName ≠ k)
    (hx : Exchange s s' .getConfig rx f) (hask : AsksFor rx k) :
    f = unknownKeyFrame rx.msg.uniqueIdChar := by
  obtain ⟨j, tx, hserve, rfl, -, -⟩ := hx.serve
  rw [getConfig_one hask, findCfgKey_none (run_table h) hk] at hserve
  obtain ⟨-, rfl⟩ := Prod.mk.inj (Option.some.inj hserve)
  have hname : convStr2Str "unknownKey".toList = "\"unknownKey\"".toList := by decide
  rw [makeOcppMsg_reply rx (left_plain ⟨s, log, h, rfl⟩)]
  simp only [Reply.text, hname, unknownKeyFrame]
  simp

end GetConfig

/-! ## Changed, then read

A value is *reported* from a state on if every answer to a GetConfiguration for the key, in every
run from there in which the key is not changed again, shows it. The equivalence is then: reported
exactly if the row shows the same value, and the row shows the same value exactly if it is
storable. -/

/-- A request to set `k` to `v`, in the order the handler wants. -/
structure SetsKey (rx : RxBuf) (k v : List Char) : Prop where
  key : (rx.msg.payload 0).named "key" = true
  value : (rx.msg.payload 1).named "value" = true
  keyText : cstr (rx.msg.payload 0).propertyContants = k
  valueText : cstr (rx.msg.payload 1).propertyContants = v

/-- The answer of a status. -/
def statusFrame (id status : List Char) : List Char :=
  "[3,".toList ++ convStr2Str id ++ ",\x7b\"status\":\"".toList ++ status ++ "\"\x7d]".toList

/-- The same text, or the same number but for leading zeros. -/
def SameValue (v w : List Char) : Prop :=
  v = w ∨ (Digits v ∧ v ≠ [] ∧ Digits w ∧ w ≠ [] ∧ decVal v = decVal w)

/-- **From this state on, `k` is reported as `v`**: in every answer to a GetConfiguration for it,
until it is changed again. -/
def ReportedAs (s : Client) (k v : List Char) : Prop :=
  ∀ s₁ log, Trace.Always step s s₁ log → ¬ Changed k log →
    ∀ s₂ rx f, Exchange s₁ s₂ .getConfig rx f → AsksFor rx k →
      ∃ w, SameValue v w ∧ f = keyFrame rx.msg.uniqueIdChar k w

/-- **A value that comes back as it was accepted**, or is not accepted: a numeral of 32 bits or
something negative for the numbers; a boolean for the keys that take any word; anything at all
where other words are rejected; and nothing `LocalAuthListEnabled` would accept. -/
def Storable (k v : List Char) : Prop :=
  match cfgChange k with
  | .int _ => v.head? = some '-' ∨ (Digits v ∧ v ≠ [] ∧ decVal v < 2 ^ 32)
  | .loose _ => v = "true".toList ∨ v = "false".toList
  | .unstored => v ≠ "true".toList ∧ v ≠ "false".toList
  | .bool _ | .refused => True

/-- What a stored number shows for a value that was a numeral of 32 bits, and only then. -/
theorem sameValue_int (v : List Char) :
    SameValue v (TypeCode.int.shows (string2Integer v).toUInt32) ↔
      Digits v ∧ v ≠ [] ∧ decVal v < 2 ^ 32 := by
  have hlt : ∀ x : UInt32, decVal (dec x.toNat) < 2 ^ 32 := by
    intro x
    rw [decVal_dec]
    exact x.toNat_lt
  have hne : ∀ n, dec n ≠ [] := fun n => Nat.toDigits_ne_nil
  constructor
  · intro h
    unfold TypeCode.shows at h
    dsimp only at h
    rcases h with hv | ⟨hv, hnil, -, -, hval⟩
    · rw [hv]
      exact ⟨dec_digits _, hne _, hlt _⟩
    · rw [hval]
      exact ⟨hv, hnil, hlt _⟩
  · rintro ⟨hv, hnil, hval⟩
    right
    refine ⟨hv, hnil, dec_digits _, hne _, ?_⟩
    have hnum : (string2Integer v).toUInt32.toNat = decVal v := by
      rw [string2Integer_of_lt hv (by omega), UInt64.toNat_toUInt32, UInt64.toNat_ofNat_of_lt'
        (show decVal v < UInt64.size by
          have hsize : UInt64.size = 2 ^ 64 := rfl
          omega)]
      omega
    show decVal v = decVal (dec (string2Integer v).toUInt32.toNat)
    rw [decVal_dec, hnum]

/-- A request for a key, as it is sent. -/
def getConfigFrame (k : List Char) : List Char :=
  "[2,\"1\",\"GetConfiguration\",\x7b\"key\":[\"".toList ++ k ++ "\"]\x7d]".toList

/-- It is read as one. -/
def readsAsk (k : List Char) : Bool :=
  (getConfigFrame k).length < Client.recvBufCap &&
    decide ((typeText (getConfigFrame k)).head? = some '2') &&
    (parseData .none 0 clearRxMsgBuff (getConfigFrame k)).any fun d =>
      !d.err && decide (d.rx.msg.actionCode = .cs .getConfig) && (d.rx.msg.payload 0).named "key" &&
        decide ((d.rx.msg.payload 0).subPayloadLen = 0) &&
        (d.rx.deref (d.rx.msg.payload 0).subPayload 0).any fun q => cstr q.propertyContants = k

/-- Every key that is not refused can be asked for. -/
theorem exists_ask {k : List Char} (hk : cfgChange k ≠ .refused) :
    ∃ rx, ReadAs (getConfigFrame k) .getConfig rx ∧ AsksFor rx k := by
  have hall : ∀ e ∈ cfgChanges, readsAsk e.1.toList = true := by decide +kernel
  have hreads := cfgChange_all (P := fun k _ => readsAsk k = true) hall hk
  simp only [readsAsk, Bool.and_eq_true, decide_eq_true_eq, Option.any_eq_true] at hreads
  obtain ⟨⟨hlen, htype⟩, ⟨err, rx, dt⟩, hparse, ⟨⟨⟨herr, hact⟩, hkey⟩, hone⟩, q, hq, hitem⟩ := hreads
  obtain rfl : err = false := by simpa using herr
  exact ⟨rx, ⟨hlen, htype, ⟨dt, hparse⟩, hact⟩, ⟨hkey, hone, q, hq, hitem⟩⟩

section Agreement
variable {s s' : Client} {log : List Obs} {rx : RxBuf} {f k v : List Char}

/-- A key with a row is reported as what its row shows. -/
theorem reportedAs_iff {n : Nat} {ty : TypeCode} (h : Run s log) (hconn : s.bConnect = true)
    (hboot : s.cp.cs.bCpStat 0 ≠ .none) (hrow : (cfgChange k).row = some (n, ty)) :
    ReportedAs s k v ↔ SameValue v (ty.shows (s.cp.cfgKey n).cfgKeyDataInt) := by
  constructor
  · intro hreported
    have hne : cfgChange k ≠ .refused := by
      intro hk
      rw [hk] at hrow
      cases hrow
    obtain ⟨rx, hread, hask⟩ := exists_ask hne
    obtain ⟨s', hx, -⟩ := exists_exchange (j := .zero) hread hconn hboot (getConfig_one hask s.tx)
    have hnone : ¬ Changed k [] := by
      rintro ⟨frame, m, hm, -⟩
      exact absurd hm List.not_mem_nil
    obtain ⟨w, hw, hf⟩ := hreported s [] .start hnone s' rx _ hx hask
    rw [keyFrame_inj ((shows_row h hrow hx hask).symm.trans hf)]
    exact hw
  · intro hsame s₁ log₁ hrun hkeep s₂ rx f hx hask
    have hshows := shows_row (h.append hrun) hrow hx hask
    rw [run_row hrow hrun hkeep] at hshows
    exact ⟨_, hsame, hshows⟩

/-- A key without one is not reported. -/
theorem not_reportedAs (h : Run s log) (hconn : s.bConnect = true)
    (hboot : s.cp.cs.bCpStat 0 ≠ .none) (hk : cfgChange k = .unstored) : ¬ ReportedAs s k v := by
  intro hreported
  have hne : cfgChange k ≠ .refused := by
    rw [hk]
    decide
  have hall : ∀ e ∈ cfgChanges, e.2 = .unstored →
      ∀ i < maxCfg, cstr (initCfgKey i).cfgKeyName ≠ e.1.toList := by decide +kernel
  have hnames := cfgChange_all (P := fun k x => x = .unstored →
    ∀ i < maxCfg, cstr (initCfgKey i).cfgKeyName ≠ k) hall hne hk
  obtain ⟨rx, hread, hask⟩ := exists_ask hne
  obtain ⟨s', hx, -⟩ := exists_exchange (j := .zero) hread hconn hboot (getConfig_one hask s.tx)
  have hnone : ¬ Changed k [] := by
    rintro ⟨frame, m, hm, -⟩
    exact absurd hm List.not_mem_nil
  obtain ⟨w, -, hf⟩ := hreported s [] .start hnone s' rx _ hx hask
  exact keyFrame_ne_unknownKeyFrame _ _ _ (hf.symm.trans (shows_unknown h hnames hx hask))

/-- The handler on a request to set a key. -/
theorem changeConfig_set (hset : SetsKey rx k v) (c : Charger) (tx : TxBuf) :
    dataProcCmdChangeConfig rx c tx =
      ((changeConfigKey (rx.msg.payload 0) (rx.msg.payload 1) c).2,
        makeCallRes (changeConfigKey (rx.msg.payload 0) (rx.msg.payload 1) c).1 rx tx) := by
  unfold dataProcCmdChangeConfig
  dsimp only
  rw [if_pos ⟨hset.key, hset.value⟩]

theorem statusFrame_inj {id a b : List Char} (h : statusFrame id a = statusFrame id b) : a = b := by
  unfold statusFrame at h
  exact List.append_cancel_left (List.append_cancel_right h)

/-- What `MakeCallRes` sends. -/
theorem makeCallRes_statusFrame {tx : TxBuf} (hplain : tx.Plain) (ret : ResType) (id : List Char) :
    makeOcppMsg (makeCallRes ret rx tx) id = statusFrame id ret.text := by
  have htext : ret.reply.text = "\"status\":\"".toList ++ ret.text ++ "\"".toList := by
    cases ret <;> decide
  rw [makeCallRes_write, makeOcppMsg_reply rx hplain, htext]
  unfold statusFrame
  simp only [List.append_assoc]
  rfl

/-- The answer to a change is that of the dispatch. -/
theorem change_answer (h : Run s log) (hx : Exchange s s' .changeConfig rx f)
    (hset : SetsKey rx k v) :
    s'.cp = (changeConfigKey (rx.msg.payload 0) (rx.msg.payload 1) s.cp).2 ∧
      (f = statusFrame rx.msg.uniqueIdChar "Accepted".toList ↔
        (changeConfigKey (rx.msg.payload 0) (rx.msg.payload 1) s.cp).1.text = "Accepted".toList) := by
  obtain ⟨j, tx, hserve, rfl, -, -⟩ := hx.serve
  have hplain : TxBuf.Plain { s.tx with msg := { s.tx.msg with msgType := msgTypeCallRes } } :=
    fun i => left_plain ⟨s, log, h, rfl⟩ i
  have hdispatch := (changeConfig_set hset s.cp _).symm.trans (Option.some.inj hserve)
  obtain ⟨hcp, rfl⟩ := Prod.mk.inj hdispatch
  rw [makeCallRes_statusFrame hplain]
  refine ⟨hcp.symm, statusFrame_inj, ?_⟩
  intro hret
  rw [hret]

/-- The minus is looked for in the buffer. -/
theorem head?_cstr_minus (b : List Char) : b.head? = some '-' ↔ (cstr b).head? = some '-' := by
  constructor
  · intro h
    cases b with
    | nil => exact absurd h (by simp)
    | cons c cs =>
      obtain rfl : c = '-' := by simpa using h
      rfl
  · exact head?_of_cstr

/-- A number is accepted unless it starts with a minus, whatever it is. -/
theorem change_int (hset : SetsKey rx k v) {n : Nat} (hk : cfgChange k = .int n)
    (hv : v.head? ≠ some '-') (c : Charger) :
    changeConfigKey (rx.msg.payload 0) (rx.msg.payload 1) c =
      (.accept, c.setCfgInt n (string2Integer v).toUInt32) := by
  have hdoes := changeConfigKey_does (rx.msg.payload 0) (rx.msg.payload 1) c
  rw [hset.keyText, hk] at hdoes
  have hminus : (rx.msg.payload 1).propertyContants.head? ≠ some '-' := by
    intro hhead
    rw [head?_cstr_minus, hset.valueText] at hhead
    exact hv hhead
  have hnum : string2Integer (rx.msg.payload 1).propertyContants = string2Integer v := by
    rw [← hset.valueText, string2Integer, string2Integer, cstr_cstr]
  rw [show changeConfigKey (rx.msg.payload 0) (rx.msg.payload 1) c =
    changeInt n (rx.msg.payload 1) c from hdoes, changeInt, if_neg hminus, hnum]

/-- A word is shown as one of the two booleans. -/
theorem sameValue_bool (v : List Char) (x : UInt32) : SameValue v (TypeCode.bool.shows x) ↔
    v = (if x ≠ 0 then "true" else "false").toList := by
  constructor
  · rintro (h | ⟨-, -, hdigits, -, -⟩)
    · exact h
    · have hno : ¬ Digits (TypeCode.bool.shows x) := by
        unfold TypeCode.shows
        dsimp only
        split <;> decide
      exact absurd hdigits hno
  · exact .inl

/-- **ChangeConfiguration and GetConfiguration agree exactly on the storable values**: a change
that was accepted is reported from then on as it was set. -/
theorem config_agrees_iff (h : Run s log) (hx : Exchange s s' .changeConfig rx f)
    (hset : SetsKey rx k v) :
    (f = statusFrame rx.msg.uniqueIdChar "Accepted".toList → ReportedAs s' k v) ↔ Storable k v := by
  obtain ⟨hcp, hf⟩ := change_answer h hx hset
  obtain ⟨-, -, -, -, hboot, hconn⟩ := hx.serve
  obtain ⟨frame, j, clock, o, hstep, -, -⟩ := hx.recv
  have hrun : Run s' (log ++ o) := h.append (.step .start trivial hstep)
  have hboot' : s'.cp.cs.bCpStat 0 ≠ .none := by
    rw [hcp, (Charger.statuses_eq (changeConfigKey_frame _ _ s.cp).2).1]
    exact hboot
  have hreported : ∀ {n : Nat} {ty : TypeCode} {x : UInt32}, (cfgChange k).row = some (n, ty) →
      s'.cp = s.cp.setCfgInt n x → (ReportedAs s' k v ↔ SameValue v (ty.shows x)) := by
    intro n ty x hrow hset
    rw [reportedAs_iff hrun hconn hboot' hrow, hset]
    simp [Charger.setCfgInt]
  have hdoes := changeConfigKey_does (rx.msg.payload 0) (rx.msg.payload 1) s.cp
  have hholds : ∀ w, (rx.msg.payload 1).holds w = true ↔ v = w.toList := by
    intro w
    rw [Payload.holds, hset.valueText, decide_eq_true_eq]
  have haccept : ResType.accept.text = "Accepted".toList := rfl
  have hreject : ResType.rejected.text ≠ "Accepted".toList := by decide
  rw [hset.keyText] at hdoes
  rw [hf]
  unfold Storable
  -- a key is an int, one of three kinds of bool, or refused: each has its own check
  cases hchange : cfgChange k with
  | int n =>
    rw [hchange] at hdoes hreported
    dsimp only
    by_cases hneg : v.head? = some '-'
    · have hminus := (head?_cstr_minus (rx.msg.payload 1).propertyContants).mpr
        (by rw [hset.valueText]; exact hneg)
      rw [show changeConfigKey (rx.msg.payload 0) (rx.msg.payload 1) s.cp =
        changeInt n (rx.msg.payload 1) s.cp from hdoes, changeInt, if_pos hminus]
      exact ⟨fun _ => .inl hneg, fun _ hacc => absurd hacc hreject⟩
    · rw [change_int hset hchange hneg s.cp] at hcp ⊢
      rw [hreported rfl hcp, sameValue_int]
      exact ⟨fun hv => .inr (hv haccept), fun hv _ => hv.resolve_left hneg⟩
  | bool n =>
    rw [hchange] at hdoes hreported
    rw [show changeConfigKey (rx.msg.payload 0) (rx.msg.payload 1) s.cp =
      changeBool n (rx.msg.payload 1) s.cp from hdoes] at hcp ⊢
    unfold changeBool at hcp ⊢
    dsimp only
    refine ⟨fun _ => trivial, ?_⟩
    intro _ hacc
    split at hcp
    · rename_i htrue
      rw [hreported rfl hcp, sameValue_bool]
      exact (hholds _).mp htrue
    · rename_i htrue
      split at hcp
      · rename_i hfalse
        rw [hreported rfl hcp, sameValue_bool]
        exact (hholds _).mp hfalse
      · rename_i hfalse
        rw [if_neg htrue, if_neg hfalse] at hacc
        exact absurd hacc hreject
  | loose n =>
    rw [hchange] at hdoes hreported
    rw [show changeConfigKey (rx.msg.payload 0) (rx.msg.payload 1) s.cp =
      changeBoolLoose n (rx.msg.payload 1) s.cp from hdoes] at hcp ⊢
    unfold changeBoolLoose at hcp ⊢
    dsimp only
    rw [hreported rfl hcp, sameValue_bool]
    by_cases htrue : v = "true".toList
    · rw [if_pos ((hholds _).mpr htrue)]
      exact ⟨fun _ => .inl htrue, fun _ _ => htrue⟩
    · rw [if_neg (mt (hholds _).mp htrue)]
      exact ⟨fun hv => .inr (hv haccept), fun hv _ => hv.resolve_left htrue⟩
  | unstored =>
    rw [hchange] at hdoes
    rw [show changeConfigKey (rx.msg.payload 0) (rx.msg.payload 1) s.cp =
      changeBoolUnstored (rx.msg.payload 1) s.cp from hdoes]
    -- the answer is Accepted, and nothing was stored
    have hnot := not_reportedAs (v := v) hrun hconn hboot' hchange
    unfold changeBoolUnstored
    dsimp only
    simp only [hholds]
    by_cases hword : v = "true".toList ∨ v = "false".toList
    · rw [if_pos hword]
      exact ⟨fun hv => absurd (hv haccept) hnot, fun hv => absurd hword (by simpa using hv)⟩
    · rw [if_neg hword]
      exact ⟨fun _ => not_or.mp hword, fun _ hacc => absurd hacc hreject⟩
  | refused =>
    rw [hchange] at hdoes
    exact ⟨fun _ => trivial, fun _ hacc => absurd hacc hdoes.2⟩

end Agreement

/-- A request to set a key, as it is sent. -/
def setConfigFrame (k v : List Char) : List Char :=
  "[2,\"2\",\"ChangeConfiguration\",\x7b\"key\":\"".toList ++ k ++ "\",\"value\":\"".toList ++ v ++
    "\"\x7d]".toList

def readsSet (k v : List Char) : Bool :=
  (setConfigFrame k v).length < Client.recvBufCap &&
    decide ((typeText (setConfigFrame k v)).head? = some '2') &&
    (parseData .none 0 clearRxMsgBuff (setConfigFrame k v)).any fun d =>
      !d.err && decide (d.rx.msg.actionCode = .cs .changeConfig) &&
        (d.rx.msg.payload 0).named "key" && (d.rx.msg.payload 1).named "value" &&
        decide (cstr (d.rx.msg.payload 0).propertyContants = k) &&
        decide (cstr (d.rx.msg.payload 1).propertyContants = v)

/-- Somewhere, a request that is read is served. -/
theorem exists_change {k v : List Char} (h : readsSet k v = true) : ∃ s log s' rx f, Run s log ∧
    Exchange s s' .changeConfig rx f ∧ SetsKey rx k v := by
  simp only [readsSet, Bool.and_eq_true, decide_eq_true_eq, Option.any_eq_true] at h
  obtain ⟨⟨hlen, htype⟩, ⟨err, rx, dt⟩, hparse, ⟨⟨⟨⟨herr, hact⟩, hkey⟩, hvalue⟩, hk⟩, hv⟩ := h
  obtain rfl : err = false := by simpa using herr
  obtain ⟨s, log, hrun, hconn, hboot⟩ := exists_booted
  have hread : ReadAs (setConfigFrame k v) .changeConfig rx :=
    ⟨hlen, htype, ⟨dt, hparse⟩, hact⟩
  obtain ⟨s', hx, -⟩ := exists_exchange (j := .zero) hread hconn hboot rfl
  exact ⟨s, log, s', rx, _, hrun, hx, hkey, hvalue, hk, hv⟩

/-- An interval of 0060 seconds is accepted, and reported. -/
theorem config_agrees_interval :
    ∃ s log, Run s log ∧ ReportedAs s "MeterValueSampleInterval".toList "0060".toList := by
  obtain ⟨s, log, s', rx, f, h, hx, hset⟩ :=
    exists_change (k := "MeterValueSampleInterval".toList) (v := "0060".toList) (by decide +kernel)
  have haccepted := (change_answer h hx hset).2
  rw [change_int (n := 10) hset (by decide) (by decide)] at haccepted
  have hstorable : Storable "MeterValueSampleInterval".toList "0060".toList := by
    right
    decide
  obtain ⟨frame, j, k, o, hstep, -, -⟩ := hx.recv
  exact ⟨s', log ++ o, h.append (.step .start trivial hstep),
    (config_agrees_iff h hx hset).mpr hstorable (haccepted.mpr rfl)⟩

/-- An interval of `abc` seconds is accepted, and becomes 0. -/
theorem config_accepts_word :
    ∃ s log s' rx f, Run s log ∧ Exchange s s' .changeConfig rx f ∧
      SetsKey rx "MeterValueSampleInterval".toList "abc".toList ∧
      f = statusFrame rx.msg.uniqueIdChar "Accepted".toList ∧
      ¬ ReportedAs s' "MeterValueSampleInterval".toList "abc".toList := by
  obtain ⟨s, log, s', rx, f, h, hx, hset⟩ :=
    exists_change (k := "MeterValueSampleInterval".toList) (v := "abc".toList) (by decide +kernel)
  obtain ⟨hcp, haccepted⟩ := change_answer h hx hset
  rw [change_int (n := 10) hset (by decide) (by decide)] at hcp haccepted
  refine ⟨s, log, s', rx, f, h, hx, hset, haccepted.mpr rfl, ?_⟩
  obtain ⟨-, -, -, -, hboot, hconn⟩ := hx.serve
  obtain ⟨frame, j, k, o, hstep, -, -⟩ := hx.recv
  have hboot' : s'.cp.cs.bCpStat 0 ≠ .none := by
    rw [hcp]
    exact hboot
  have hrow : (cfgChange "MeterValueSampleInterval".toList).row = some (10, .int) := by decide
  rw [reportedAs_iff (h.append (.step .start trivial hstep)) hconn hboot' hrow, hcp]
  simp only [Charger.setCfgInt, if_true]
  rw [sameValue_int]
  rintro ⟨hdigits, -, -⟩
  exact absurd hdigits (by decide)

end ChargePoint
