import ChargePoint.Frames

/-!
# What an answer says

The handlers write their answers into `Tx_Msg`, piece by piece. `Reply` is what they mean to
say, and `Reply.write` the pieces. `rxCallDataProc_answers`: every handler decides its reply
from the request and the charger alone, and then writes it; `Tx_Msg` is written and never
read. `makeOcppMsg_reply` is the text that goes out.

Four actions have no handler and no reply (`CsReqAction.Silent`).
-/

set_option autoImplicit false

namespace ChargePoint

open CStr Loop

/-! ## Replies -/

/-- The properties an answer has. -/
inductive ReplyName
  | status | fileName | listVersion

def ReplyName.text : ReplyName → List Char
  | .status => "status".toList
  | .fileName => "fileName".toList
  | .listVersion => "listVersion".toList

/-- What an answer says. -/
inductive Reply
  | empty
  /-- one property, a number or a string -/
  | prop (name : ReplyName) (val : List Char) (int : Bool)
  /-- `configurationKey`: these keys -/
  | keys (ks : List CfgKey)
  /-- `unknownKey`, after these keys were found -/
  | unknownAfter (ks : List CfgKey)
  /-- `unknownKey`, to a request without keys -/
  | unknown

/-- The reply of `MakeCallRes`. -/
def ResType.reply (ret : ResType) : Reply := .prop .status ret.text false

/-- Consecutive entries of `tx_sub_Payload`, from entry `n` on. -/
def TxBuf.writeCfgKeys (tx : TxBuf) : Nat → List CfgKey → TxBuf
  | _, [] => tx
  | n, k :: ks => (tx.writeCfgKey n k).writeCfgKeys (n + 1) ks

/-- The writes to `Tx_Msg`. -/
def Reply.write (rx : RxBuf) (tx : TxBuf) : Reply → TxBuf
  | .empty => tx.answer rx 0
  | .prop name val int => (tx.answer rx 1).setProp 0 name.text val (if int then .int else .str)
  | .keys ks => (((tx.answer rx 1).setType 0 .arr).writeCfgKeys 0 ks).keyList ks.length
  | .unknownAfter ks =>
    ((((tx.answer rx 1).setType 0 .arr).writeCfgKeys 0 ks).keyList 0).unknownKey
  | .unknown => ((tx.answer rx 1).setType 0 .arr).unknownKey

/-- The property that is printed. An unknown key is not: the array it is to stand in has a
length of 0. -/
def Reply.text : Reply → List Char
  | .empty => []
  | .prop name val int =>
    convStr2Str name.text ++ ':' :: (if int then convStr2Int val else convStr2Str val)
  | .keys ks => convStr2Str "configurationKey".toList ++ ':' :: '[' ::
      commas (ks.map fun k => cstr (cfgKeyText k)) ++ [']']
  | .unknownAfter _ | .unknown => convStr2Str "unknownKey".toList ++ ":[]".toList

theorem makeCallRes_write (ret : ResType) (rx : RxBuf) (tx : TxBuf) :
    makeCallRes ret rx tx = ret.reply.write rx tx := rfl

/-! ## Handlers that answer

A handler *answers* if it is a function of the request and the charger to a reply, with the
writing behind it. Branches, loops and binds of such handlers answer. -/

/-- The handler decides its reply without a look at `Tx_Msg`. -/
def Answers (rx : RxBuf) (h : TxBuf → Option (Charger × TxBuf)) : Prop :=
  ∃ x : Option (Charger × Reply), ∀ tx, h tx = x.map fun r => (r.1, r.2.write rx tx)

section Answers
variable {rx : RxBuf} {h h' : TxBuf → Option (Charger × TxBuf)}

theorem Answers.reply (c : Charger) (r : Reply) :
    Answers rx fun tx => some (c, r.write rx tx) :=
  ⟨some (c, r), fun _ => rfl⟩

theorem Answers.ite {p : Prop} [Decidable p] (hp : Answers rx h) (hn : Answers rx h') :
    Answers rx fun tx => if p then h tx else h' tx := by
  by_cases hc : p
  · simpa only [if_pos hc] using hp
  · simpa only [if_neg hc] using hn

theorem Answers.bind {α : Type} {x : Option α} {f : α → TxBuf → Option (Charger × TxBuf)}
    (hf : ∀ a, Answers rx (f a)) : Answers rx fun tx => x.bind fun a => f a tx := by
  cases x with
  | none => exact ⟨none, fun _ => rfl⟩
  | some a => exact hf a

theorem Answers.map {α : Type} {x : Option α} {f : α → TxBuf → Charger × TxBuf}
    (hf : ∀ a, Answers rx fun tx => some (f a tx)) :
    Answers rx fun tx => x.map fun a => f a tx := by
  cases x with
  | none => exact ⟨none, fun _ => rfl⟩
  | some a => exact hf a

end Answers

/-! ## GetConfiguration

The loop writes an entry for each key while it looks for the next, and the array is renamed when
one is not found. `foundKeys` is what it finds, apart from the writing. -/

/-- The requested keys that are found, from the `n`-th on, and whether all were. -/
def foundKeys (rx : RxBuf) (c : Charger) : Nat → Nat → Option (List CfgKey × Bool)
  | 0, _ => some ([], true)
  | k + 1, n =>
    match rx.deref (rx.msg.payload 0).subPayload n with
    | none => none
    | some q =>
      match findCfgKey c (cstr q.propertyContants) with
      | some key => (foundKeys rx c k (n + 1)).map fun r => (key :: r.1, r.2)
      | none => some ([], false)

/-- The loop writes what is found. -/
theorem getConfigLoop_eq (rx : RxBuf) (c : Charger) (k n : Nat) (tx : TxBuf) :
    getConfigLoop rx c k n tx = (foundKeys rx c k n).map fun r =>
      (tx.writeCfgKeys n r.1, if r.2 then some (n + r.1.length) else none) := by
  induction k generalizing n tx with
  | zero => rfl
  | succ k ih =>
    unfold getConfigLoop foundKeys
    cases rx.deref (rx.msg.payload 0).subPayload n with
    | none => rfl
    | some q =>
      dsimp only
      cases findCfgKey c (cstr q.propertyContants) with
      | none => rfl
      | some key =>
        dsimp only
        rw [ih, Option.map_map]
        congr 1
        funext r
        simp only [Function.comp, TxBuf.writeCfgKeys, List.length_cons]
        rw [Nat.add_right_comm, Nat.add_assoc]

theorem foldl_writeCfgKey (c : Charger) (n m : Nat) (tx : TxBuf) :
    (List.range' n m).foldl (fun tx i => tx.writeCfgKey i (c.cfgKey i)) tx =
      tx.writeCfgKeys n ((List.range' n m).map c.cfgKey) := by
  induction m generalizing n tx with
  | zero => rfl
  | succ m ih => exact ih (n + 1) (tx.writeCfgKey n (c.cfgKey n))

theorem dataProcCmdGetConfig_answers (rx : RxBuf) (c : Charger) :
    Answers rx fun tx => (dataProcCmdGetConfig rx c tx).map fun tx => (c, tx) := by
  unfold dataProcCmdGetConfig
  dsimp only
  by_cases hname : cstr (rx.msg.payload 0).propertyName = []
  · simp only [if_pos hname, List.range_eq_range', foldl_writeCfgKey]
    refine ⟨some (c, .keys ((List.range' 0 maxCfg).map c.cfgKey)), fun tx => ?_⟩
    simp [Reply.write]
  · simp only [if_neg hname]
    by_cases hkey : (rx.msg.payload 0).named "key" = true
    · simp only [if_pos hkey, getConfigLoop_eq, Option.map_map]
      refine Answers.map fun r => ?_
      cases hall : r.2 with
      | true =>
        refine ⟨some (c, .keys r.1), fun tx => ?_⟩
        simp [Reply.write, hall]
      | false =>
        refine ⟨some (c, .unknownAfter r.1), fun tx => ?_⟩
        simp [Reply.write, hall]
    · simp only [if_neg hkey]
      exact ⟨some (c, .unknown), fun tx => rfl⟩

/-! ## Every handler -/

/-- An action without a handler. -/
def CsReqAction.Silent : CsReqAction → Prop
  | .none | .cancelReseve | .getCompositSched | .reserve | .setChgProfile => True
  | _ => False

instance : DecidablePred CsReqAction.Silent := fun cmd => by
  unfold CsReqAction.Silent
  split <;> infer_instance

section Handlers
variable (j : Junk) (rx : RxBuf) (c : Charger)

theorem dataProcCmdChangeAvail_answers :
    Answers rx fun tx => dataProcCmdChangeAvail j rx c tx := by
  refine .bind fun l => .ite (.reply c ResType.rejected.reply) (.ite ?_ (.bind fun i => ?_))
  · exact .reply _ ResType.accept.reply
  · exact .reply _ ResType.accept.reply

theorem dataProcCmdDataTransCs_answers :
    Answers rx fun tx => dataProcCmdDataTransCs j rx c tx := by
  refine .bind fun l => .ite ?_ (.reply c ResType.rejected.reply)
  dsimp only
  split <;> split <;> exact .reply _ (ResType.reply _)

theorem dataProcCmdRmStart_answers : Answers rx fun tx => dataProcCmdRmStart rx c tx := by
  refine .bind fun l => .ite (.bind fun i => .ite ?_ ?_) ?_
  · exact .reply _ ResType.accept.reply
  · exact .reply _ ResType.rejected.reply
  · exact .reply _ ResType.rejected.reply

theorem dataProcCmdRmStopTr_answers : Answers rx fun tx => dataProcCmdRmStopTr rx c tx := by
  refine .ite (.map fun d => ?_) (.reply c ResType.rejected.reply)
  by_cases hd : string2Integer (rx.msg.payload 0).propertyContants = c.cs.bTrId d ∧
      (c.cs.bCpStat d = .charging ∨ c.cs.bCpStat d = .suspendedEv)
  · simp only [if_pos hd]
    exact .reply _ ResType.accept.reply
  · simp only [if_neg hd]
    exact .reply _ ResType.rejected.reply

theorem dataProcCmdReset_answers :
    Answers rx fun tx => some (dataProcCmdReset rx c tx) := by
  unfold dataProcCmdReset
  dsimp only
  split
  · exact .reply _ ResType.accept.reply
  · split
    · exact .reply _ ResType.accept.reply
    · exact .reply _ ResType.rejected.reply

theorem dataProcCmdTriggerMsg_answers : Answers rx fun tx => dataProcCmdTriggerMsg rx c tx := by
  refine .bind fun l => .ite ?_ ?_
  · exact .reply _ ResType.rejected.reply
  · exact .reply _ ResType.accept.reply

/-- **Every handler decides its reply from the request and the charger.** -/
theorem rxCallDataProc_answers {cmd : CsReqAction} (hcmd : ¬ cmd.Silent) :
    Answers rx fun tx => rxCallDataProc cmd j rx c tx := by
  -- the message type that the dispatch writes first is written again by the handler
  have lift : ∀ {h : TxBuf → Option (Charger × TxBuf)}, Answers rx h → Answers rx fun tx =>
      h { tx with msg := { tx.msg with msgType := msgTypeCallRes } } := by
    rintro h ⟨x, hx⟩
    exact ⟨x, fun tx => hx _⟩
  cases cmd with
  | changeAvail => exact lift (dataProcCmdChangeAvail_answers j rx c)
  | changeConfig => exact lift (.reply _ (ResType.reply _))
  | clearCache => exact lift (.reply c ResType.rejected.reply)
  | clearChargProf => exact lift (.reply c ResType.accept.reply)
  | dataTransfer => exact lift (dataProcCmdDataTransCs_answers j rx c)
  | getConfig => exact lift (dataProcCmdGetConfig_answers rx c)
  | getDiag =>
    have hdiag : Answers rx fun tx => dataProcCmdGetDiag rx c tx :=
      .bind fun d => .reply d (.prop .fileName "Cs0000000002_1.txt".toList false)
    exact lift hdiag
  | getLocalVer => exact lift (.reply c (.prop .listVersion "-1".toList true))
  | remoteStart => exact lift (dataProcCmdRmStart_answers rx c)
  | remoteStop => exact lift (dataProcCmdRmStopTr_answers rx c)
  | reset => exact lift (dataProcCmdReset_answers rx c)
  | sndLocalList => exact lift (.reply c ResType.notSuppt.reply)
  | triggerMsg => exact lift (dataProcCmdTriggerMsg_answers rx c)
  | unlockConnect =>
    have hunlock : Answers rx fun tx => dataProcCmdUnlockConnect rx c tx :=
      .bind fun d => .reply d ResType.notSuppt.reply
    exact lift hunlock
  | updateFw =>
    have hupdate : Answers rx fun tx => dataProcCmdUpdateFw rx c tx :=
      .bind fun fw => .reply _ .empty
    exact lift hupdate
  | none | cancelReseve | getCompositSched | reserve | setChgProfile => exact absurd trivial hcmd

end Handlers

/-! ## Nested payloads -/

/-- No entry has a nested payload. -/
def TxBuf.Plain (tx : TxBuf) : Prop := ∀ i, (tx.msg.payload i).subPayloadLen = 0

namespace TxBuf
variable {tx : TxBuf}

theorem Plain.setPayload {p : Payload} (h : tx.Plain) (hp : p.subPayloadLen = 0) (i : Nat) :
    (tx.setPayload i p).Plain := by
  intro k
  by_cases hk : k = i
  · subst hk
    show (setAt tx.msg.payload k p k).subPayloadLen = 0
    rw [setAt_same, hp]
  · show (setAt tx.msg.payload i p k).subPayloadLen = 0
    rw [setAt_ne hk, h k]

theorem Plain.setName (h : tx.Plain) (i : Nat) (name : List Char) : (tx.setName i name).Plain := by
  refine h.setPayload ?_ i
  exact h i

theorem Plain.setContants (h : tx.Plain) (i : Nat) (val : List Char) :
    (tx.setContants i val).Plain := by
  refine h.setPayload ?_ i
  exact h i

theorem Plain.setType (h : tx.Plain) (i : Nat) (t : TypeCode) : (tx.setType i t).Plain := by
  refine h.setPayload ?_ i
  exact h i

theorem Plain.setProp (h : tx.Plain) (i : Nat) (name val : List Char) (t : TypeCode) :
    (tx.setProp i name val t).Plain :=
  ((h.setName i name).setContants i val).setType i t

/-- Sending leaves no nested payload behind: every array that was printed loses its length. -/
theorem Plain.after (h : ∀ i, (tx.msg.payload i).subPayloadLen = 0 ∨
    i < tx.msg.payloadLen ∧ (tx.msg.payload i).dataType = .arr) : (afterMakeOcppMsg tx).Plain := by
  intro i
  unfold afterMakeOcppMsg
  dsimp only
  split
  · rfl
  · rename_i hprinted
    exact (h i).resolve_right hprinted

theorem Plain.sent (h : tx.Plain) : (afterMakeOcppMsg tx).Plain :=
  .after fun i => .inl (h i)

theorem writeCfgKeys_msg (tx : TxBuf) (n : Nat) (ks : List CfgKey) :
    (tx.writeCfgKeys n ks).msg = tx.msg := by
  induction ks generalizing tx n with
  | nil => rfl
  | cons k ks ih => exact ih (tx.writeCfgKey n k) (n + 1)

theorem writeCfgKeys_sub_lt (tx : TxBuf) {i n : Nat} (ks : List CfgKey) (h : i < n) :
    (tx.writeCfgKeys n ks).sub i = tx.sub i := by
  induction ks generalizing tx n with
  | nil => rfl
  | cons k ks ih =>
    refine (ih (tx.writeCfgKey n k) (Nat.lt_succ_of_lt h)).trans ?_
    exact setAt_ne (Nat.ne_of_lt h)

/-- The entries hold the texts of the keys. -/
theorem writeCfgKeys_sub (tx : TxBuf) (n : Nat) (ks : List CfgKey) :
    (List.range' n ks.length).map (fun i => ((tx.writeCfgKeys n ks).sub i).propertyContants) =
      ks.map cfgKeyText := by
  induction ks generalizing tx n with
  | nil => rfl
  | cons k ks ih =>
    rw [List.length_cons, List.range'_succ, List.map_cons, List.map_cons]
    refine congrArg₂ List.cons ?_ (ih (tx.writeCfgKey n k) (n + 1))
    show (((tx.writeCfgKey n k).writeCfgKeys (n + 1) ks).sub n).propertyContants = _
    rw [writeCfgKeys_sub_lt _ ks (Nat.lt_succ_self n)]
    show (setAt tx.sub n _ n).propertyContants = _
    rw [setAt_same]

/-- The array of the keys: entry 0 is the only one with a nested payload. -/
theorem Plain.keyList (h : tx.Plain) (n i : Nat) :
    ((tx.keyList n).msg.payload i).subPayloadLen = if i = 0 then n else 0 := by
  by_cases hi : i = 0
  · subst hi
    rfl
  · rw [if_neg hi]
    show (setAt tx.msg.payload 0 _ i).subPayloadLen = 0
    rw [setAt_ne hi, h i]

theorem Plain.writeCfgKeys (h : tx.Plain) (n : Nat) (ks : List CfgKey) :
    (tx.writeCfgKeys n ks).Plain := by
  intro i
  rw [writeCfgKeys_msg]
  exact h i

end TxBuf

/-! ## The text of a reply

A reply has one property, so its frame is the id and the text of that property, whatever stood in
`Tx_Msg` before. -/

section Text
variable {tx : TxBuf} (rx : RxBuf)

/-- Sending a reply leaves no nested payload behind. -/
theorem Reply.sent (h : tx.Plain) (r : Reply) : (afterMakeOcppMsg (r.write rx tx)).Plain := by
  have hanswer : ∀ n, (tx.answer rx n).Plain := fun _ => h
  have hkeys : ∀ ks, (((tx.answer rx 1).setType 0 .arr).writeCfgKeys 0 ks).Plain := fun ks =>
    ((hanswer 1).setType 0 .arr).writeCfgKeys 0 ks
  cases r with
  | empty => exact (hanswer 0).sent
  | prop name val int => exact ((hanswer 1).setProp 0 name.text val _).sent
  | keys ks =>
    refine .after fun i => ?_
    show (((_ : TxBuf).keyList _).msg.payload i).subPayloadLen = 0 ∨ _
    rw [(hkeys ks).keyList]
    by_cases hi : i = 0
    · subst hi
      right
      simp only [Reply.write, TxBuf.keyList, TxBuf.setPayload, TxBuf.writeCfgKeys_msg, setAt_same]
      exact ⟨Nat.one_pos, rfl⟩
    · exact .inl (if_neg hi)
  | unknownAfter ks =>
    have hlist : ((((tx.answer rx 1).setType 0 .arr).writeCfgKeys 0 ks).keyList 0).Plain := by
      intro i
      rw [(hkeys ks).keyList]
      split <;> rfl
    exact ((hlist.setName 0 _).setContants 0 _).sent
  | unknown => exact ((((hanswer 1).setType 0 .arr).setName 0 _).setContants 0 _).sent

/-- What is printed of an array. -/
theorem encMain_arr (tx : TxBuf) {p : Payload} (b : Nat) (h : p.dataType = .arr) :
    (encMain tx p b).1 = convStr2Str p.propertyName ++ ':' :: '[' ::
      commas ((List.range p.subPayloadLen).map fun i =>
        cstr (tx.subOf p.subPayload i).propertyContants) ++ [']'] := by
  unfold encMain
  rw [if_neg (by simp [h]), if_pos h]
  rfl

/-- An answer of one entry. -/
theorem makeOcppMsg_one {tx : TxBuf} (id : List Char) (htype : tx.msg.msgType = msgTypeCallRes)
    (hlen : tx.msg.payloadLen = 1) :
    makeOcppMsg tx id = "[3,".toList ++ convStr2Str id ++ ",\x7b".toList ++
      (encMain tx (tx.msg.payload 0) 0).1 ++ "\x7d]".toList := by
  unfold makeOcppMsg encHeader
  rw [hlen, htype]
  simp [encItems, commas, msgTypeCall, msgTypeCallRes, dec]
  rfl

/-- **The frame of a reply.** -/
theorem makeOcppMsg_reply (h : tx.Plain) (r : Reply) (id : List Char) :
    makeOcppMsg (r.write rx tx) id =
      "[3,".toList ++ convStr2Str id ++ ",\x7b".toList ++ r.text ++ "\x7d]".toList := by
  cases r with
  | empty =>
    simp [Reply.write, TxBuf.answer, makeOcppMsg, encHeader, encItems, msgTypeCallRes, msgTypeCall,
      dec, Reply.text]
    rfl
  | prop name val int =>
    rw [makeOcppMsg_one id rfl rfl]
    congr 2
    cases int with
    | true => rfl
    | false =>
      have hlen : (tx.msg.payload 0).subPayloadLen = 0 := h 0
      simp [encMain, Reply.write, TxBuf.setProp, TxBuf.setName, TxBuf.setContants, TxBuf.setType,
        TxBuf.setPayload, TxBuf.answer, Reply.text, hlen]
  | keys ks =>
    let tx₁ := ((tx.answer rx 1).setType 0 .arr).writeCfgKeys 0 ks
    have hmsg : tx₁.msg = ((tx.answer rx 1).setType 0 .arr).msg := TxBuf.writeCfgKeys_msg _ 0 ks
    have hitems := TxBuf.writeCfgKeys_sub ((tx.answer rx 1).setType 0 .arr) 0 ks
    have harr : ((tx₁.keyList ks.length).msg.payload 0).dataType = .arr := by
      show (tx₁.msg.payload 0).dataType = .arr
      rw [hmsg]
      rfl
    have htype : (tx₁.keyList ks.length).msg.msgType = msgTypeCallRes :=
      congrArg MsgStruct.msgType hmsg
    have hlen : (tx₁.keyList ks.length).msg.payloadLen = 1 := congrArg MsgStruct.payloadLen hmsg
    show makeOcppMsg (tx₁.keyList ks.length) id = _
    rw [makeOcppMsg_one id htype hlen, encMain_arr _ 0 harr]
    have hcstr : (List.range ks.length).map (fun i => cstr (tx₁.sub i).propertyContants) =
        ks.map fun k => cstr (cfgKeyText k) := by
      have hall := congrArg (List.map cstr) hitems
      rw [List.map_map, List.map_map, ← List.range_eq_range'] at hall
      exact hall
    show _ ++ (_ ++ ':' :: '[' :: commas ((List.range ks.length).map
      fun i => cstr (tx₁.sub i).propertyContants) ++ [']']) ++ _ = _
    rw [hcstr]
    rfl
  | unknownAfter ks =>
    let tx₁ := ((tx.answer rx 1).setType 0 .arr).writeCfgKeys 0 ks
    have hmsg : tx₁.msg = ((tx.answer rx 1).setType 0 .arr).msg := TxBuf.writeCfgKeys_msg _ 0 ks
    have harr : (((tx₁.keyList 0).unknownKey).msg.payload 0).dataType = .arr := by
      show (tx₁.msg.payload 0).dataType = .arr
      rw [hmsg]
      rfl
    have htype : (tx₁.keyList 0).unknownKey.msg.msgType = msgTypeCallRes :=
      congrArg MsgStruct.msgType hmsg
    have hlen : (tx₁.keyList 0).unknownKey.msg.payloadLen = 1 :=
      congrArg MsgStruct.payloadLen hmsg
    show makeOcppMsg (tx₁.keyList 0).unknownKey id = _
    rw [makeOcppMsg_one id htype hlen, encMain_arr _ 0 harr]
    rfl
  | unknown =>
    have hlen : (((Reply.unknown.write rx tx).msg).payload 0).subPayloadLen = 0 := h 0
    rw [makeOcppMsg_one id rfl rfl, encMain_arr _ 0 rfl, hlen]
    rfl

end Text

end ChargePoint
