import ChargePoint.Codec.Nested
import ChargePoint.Config
import ChargePoint.MessageIds

/-!
# GetConfiguration with a list of keys

The loop uses the length of the answer as the index into the request, and at the first key that
is not in the table it gives everything up: the length goes back to 0, the array is renamed to
`unknownKey`, and the text `"Unknow Key"` is written to a field that is not printed of an array.
So the answer is right when all keys are known, and otherwise it names neither the keys that are
known nor those that are not.
-/

set_option autoImplicit false

namespace ChargePoint

open CStr Loop Reading PayloadSt

/-! ## The request -/

/-- The entries that a list of keys fills: an empty list leaves one entry, which is empty. -/
def keyEntries (ks : List (List Char)) : List (List Char) := if ks = [] then [[]] else ks

/-- `Rx_Msg` is a request for these keys. -/
structure Requests (rx : RxBuf) (ks : List (List Char)) : Prop where
  key : (rx.msg.payload 0).named "key" = true
  len : (rx.msg.payload 0).subPayloadLen + 1 = (keyEntries ks).length
  item : ∀ i k, (keyEntries ks)[i]? = some k →
    ∃ q, rx.deref (rx.msg.payload 0).subPayload i = some q ∧ cstr q.propertyContants = k

/-! ## What the parser makes of a list of keys

A list of keys is an array of strings, which the syntax of the payloads in `Codec` does not have:
there an array holds objects. The strings are read by the same parser, each into an entry of its
own, and the induction over the list is done here. -/

/-- The strings of an array, a comma between any two. -/
def stringsText (xs : List Str) : List Char := commas (xs.map fun x => '"' :: (x.chars ++ ['"']))

section Strings
variable {s : PayloadSt} {l : Char} {d c : Nat}

/-- A comma behind a string of an array: the next entry is empty. -/
theorem element_comma (hs : s.Sits d c 0 true .arr) (hstep : s.step = .after)
    (hlt : c + 1 < (Arr.level d).cap) : Parses True s l [','] fun s' =>
      Advanced d c true .arr s s' ∧ s'.step = .value ∧ s'.strIndex = 0 ∧
        (s'.rx.entry d).propertyContants = [] := by
  have hnext := nextEntry_stands hs.stands
  rw [hs.count, if_pos hlt] at hnext
  have hsits := nextSt_sits hs hlt
  have hfeed : s.feed l ',' =
      some (.next { s.nextSt d with step := .value, strIndex := 0 }) := by
    unfold PayloadSt.feed
    rw [hstep]
    dsimp only
    rw [if_pos rfl, hnext, Option.map_some, hsits.stands.depth, hsits.type]
  have hkeeps := nextSt_keeps hs.stands
  have hhalt : ¬ Halts s ',' := fun hc => absurd hc.1 (by decide)
  refine Parses.next hhalt hfeed (Reads.nil ⟨⟨?_, ?_, ?_⟩, rfl, rfl, ?_⟩)
  · exact hsits.restep .value 0
  · exact ⟨hkeeps.path, hkeeps.type, hkeeps.entry⟩
  · intro i hi
    exact nextSt_entry hs.stands (by rwa [hs.count])
  · have hpath := (nextSt_path hs.stands).2.1
    show ((s.nextSt d).rx.get (.level d) ((s.nextSt d).rx.path d)).propertyContants = []
    rw [hpath]
    unfold nextSt
    rw [RxBuf.get_set_same]

/-- **An array of strings**: each has its own entry. -/
theorem strings_read (xs : List Str) (hs : s.Sits d c 0 true .arr) (hstep : s.step = .value)
    (hidx : s.strIndex = 0) (hnil : (s.rx.entry d).propertyContants = [])
    (hlt : c + (xs.length - 1) < (Arr.level d).cap) :
    Parses True s l (stringsText xs) fun s' =>
      s'.Sits d (c + (xs.length - 1)) 0 true .arr ∧ Keeps d s s' ∧
        (s'.step = .after ∨ s'.step = .value) ∧
        (∀ i < c, Same (s'.rx.get (.level d) i) (s.rx.get (.level d) i)) ∧
        ∀ i k, (keyEntries (xs.map fun x => x.chars))[i]? = some k →
          (s'.rx.get (.level d) (c + i)).propertyContants = stored k := by
  -- entry by entry: the string, then the comma that opens the next entry
  induction xs generalizing s l c with
  | nil =>
    refine Reads.nil ⟨hs, .refl d s, .inr hstep, fun _ _ => .refl _, ?_⟩
    intro i k hi
    obtain ⟨rfl, rfl⟩ : i = 0 ∧ k = [] := by
      cases i with
      | zero => exact ⟨rfl, (Option.some.inj hi).symm⟩
      | succ i => cases hi
    rw [RxBuf.entry, hs.count] at hnil
    exact hnil
  | cons x xs ih =>
    have hone := (Json.string_reads (l := l) x hs hstep hidx hnil).congr
      (o := True) ⟨fun _ => trivial, fun _ => .inl rfl⟩
    -- what the first string leaves is not touched by the others
    have hfirst : ∀ {s₁ : PayloadSt},
        Sets d (fun p => { p with propertyContants := stored x.chars }) s s₁ →
        (s₁.rx.get (.level d) c).propertyContants = stored x.chars := by
      intro s₁ hset
      have hentry := hset.entry
      rw [hs.count] at hentry
      exact hentry.contants
    cases xs with
    | nil =>
      have htext : stringsText [x] = '"' :: (x.chars ++ ['"']) := List.append_nil _
      rw [htext]
      refine hone.imp ?_
      rintro s₁ ⟨hs₁, hset, hst⟩
      refine ⟨hs₁, hset.keeps, .inl hst, fun i hi => hset.other i (by rw [hs.count]; omega), ?_⟩
      intro i k hi
      cases i with
      | zero =>
        cases Option.some.inj hi
        exact hfirst hset
      | succ i => cases hi
    | cons y ys =>
      have htext : stringsText (x :: y :: ys) =
          '"' :: (x.chars ++ ['"']) ++ ([','] ++ stringsText (y :: ys)) := commas_cons_cons _ _ _
      have hlen : c + 1 + ((y :: ys).length - 1) = c + ((x :: y :: ys).length - 1) := by
        simp only [List.length_cons]
        omega
      have hroom : c + 1 < (Arr.level d).cap := by
        simp only [List.length_cons] at hlt
        omega
      rw [htext]
      refine Reads.after hone ?_
      rintro s₁ l₁ ⟨hs₁, hset, hst⟩
      refine Reads.after (element_comma hs₁ hst hroom) ?_
      rintro s₂ l₂ ⟨hadv, hst₂, hidx₂, hnil₂⟩
      refine (ih hadv.sits hst₂ hidx₂ hnil₂ (by rwa [hlen])).imp ?_
      rintro s₃ ⟨hs₃, hkeep, hst₃, hbefore, hafter⟩
      rw [hlen] at hs₃
      refine ⟨hs₃, (hset.keeps.trans hadv.keeps).trans hkeep, hst₃, ?_, ?_⟩
      · intro i hi
        have hsame := hbefore i (by omega)
        rw [hadv.other i (by omega)] at hsame
        exact hsame.trans (hset.other i (by rw [hs.count]; omega))
      · intro i k hi
        cases i with
        | zero =>
          cases Option.some.inj hi
          have hsame := hbefore c (Nat.lt_succ_self c)
          rw [hadv.other c (by omega)] at hsame
          exact hsame.contants.trans (hfirst hset)
        | succ i =>
          have hrest := hafter i k hi
          rwa [Nat.add_assoc, Nat.add_comm 1 i] at hrest

end Strings

/-- The property of a request for these keys. -/
def keysText (xs : List Str) : List Char :=
  '"' :: (("key".toList ++ ['"']) ++ [':']) ++ (['['] ++ (stringsText xs ++ [']']))

theorem keyEntries_length (xs : List Str) :
    (keyEntries (xs.map fun x => x.chars)).length = xs.length - 1 + 1 := by
  cases xs with
  | nil => rfl
  | cons x xs => simp [keyEntries]

/-- The object of the request, and what is left of it. -/
theorem parsePayload_keys (xs : List Str) (hlen : xs.length ≤ subPayloadCap) (msg : RxMsg)
    {sep : List Char} (hsep : IsSep sep) (tail : List Char) :
    ∃ rx, parsePayload msg (sep ++ '{' :: (keysText xs ++ '}' :: tail)) = some (false, rx) ∧
      (rx.msg.payload 0).propertyName = "key".toList ∧
      (rx.msg.payload 0).subPayload = .sub1 ∧
      (rx.msg.payload 0).subPayloadLen = xs.length - 1 ∧
      ∀ i k, (keyEntries (xs.map fun x => x.chars))[i]? = some k →
        (rx.sub1 i).propertyContants = stored k := by
  let name : Name := ⟨"key".toList, by decide, by decide⟩
  let s₀ : PayloadSt := (begun msg).filled 0 (Json.named name) 0 .value
  have hnamed : KeepsLen (Json.named name) := fun _ => rfl
  have hs₀ : s₀.Sits 0 0 0 false .obj := (begun_sits msg).filled hnamed
  have hname : (s₀.rx.entry 0).propertyName = "key".toList := by
    show (((begun msg).filled 0 (Json.named name) 0 .value).rx.entry 0).propertyName = _
    rw [filled_entry hnamed]
    rfl
  -- the name, up to its colon
  have hkey : Parses True (begun msg) '{' ('"' :: (("key".toList ++ ['"']) ++ [':']))
      fun s' => s' = s₀ :=
    (Json.key_reads .none name .none (begun_sits msg).stands rfl).congr
      ⟨fun _ => trivial, fun _ => .inr (by decide)⟩
  -- the array, which is empty at first
  let s₁ := s₀.opened 0 .arr
  have hs₁ : s₁.Sits 1 0 0 true .arr := hs₀.opened (by decide) .arr
  have hnil : (s₁.rx.entry 1).propertyContants = [] := by
    rw [RxBuf.entry, hs₁.count, s₀.opened_rx 0 .arr, enterSt_get,
      if_neg (fun h => Arr.level_ne (by decide) (by decide) h.1.symm), if_pos rfl]
    rfl
  have hroom : 0 + (xs.length - 1) < (Arr.level 1).cap := by
    show 0 + (xs.length - 1) < subPayloadCap
    unfold subPayloadCap at hlen ⊢
    omega
  have hall : Parses True (begun msg) '{' (keysText xs) fun s' => s'.Stands 0 ∧
      (s'.step = .after ∨ s'.step = .value ∨ s'.step = .key) ∧
      (s'.rx.msg.payload 0).propertyName = "key".toList ∧
      (s'.rx.msg.payload 0).subPayload = .sub1 ∧
      (s'.rx.msg.payload 0).subPayloadLen = xs.length - 1 ∧
      ∀ i k, (keyEntries (xs.map fun x => x.chars))[i]? = some k →
        (s'.rx.sub1 i).propertyContants = stored k := by
    refine Reads.after hkey ?_
    rintro s l rfl
    refine Reads.after (parses_open hs₀.stands (by decide) rfl .arr) ?_
    rintro s l rfl
    refine Reads.after (strings_read xs hs₁ rfl rfl hnil hroom) ?_
    rintro s₂ l₂ ⟨hs₂, hkeep, hst₂, -, hstored⟩
    refine (parses_close .arr hs₂.stands (fun _ => hs₂.arr)
      (hst₂.imp_right .inl)).imp fun s₃ hclosed => ?_
    obtain ⟨hs₃, hset, hst₃⟩ := hs₀.container (by decide) hkeep hs₂ hclosed
    have hpath : s₃.rx.msg.payloadLen = 0 := hs₃.count
    have hlast : (s₃.rx.msg.payload s₃.rx.msg.payloadLen).subPayloadLen = 0 + (xs.length - 1) :=
      hs₃.sub
    have hentry := hset.entry
    rw [hs₀.count] at hentry
    rw [hpath, Nat.zero_add] at hlast
    refine ⟨hs₃.stands, ?_, hentry.name.trans hname, hentry.link, hlast, ?_⟩
    · rw [hst₃]
      split
      · exact .inl rfl
      · exact .inr (.inr rfl)
    · intro i k hi
      have hrx := hstored i k hi
      rw [Nat.zero_add] at hrx
      rw [hclosed.rx]
      exact hrx
  obtain ⟨s', l', hrun, hs', hst', hfacts⟩ := hall.reads trivial
  refine ⟨s'.rx, ?_, hfacts⟩
  show payloadEnd (.start msg) '"' _ = _
  rw [payloadEnd_sep msg '"' hsep, hrun, payloadEnd_close hs' hst']

/-- A name that is stored whole. -/
structure KeyName (x : Str) : Prop where
  le : x.chars.length ≤ 256
  nulFree : NulFree x.chars

/-- A request for these keys. -/
def keysFrame (id : List Char) (xs : List Str) : List Char :=
  idFrame '2' [] [','] id
    ([','] ++ '"' :: "GetConfiguration".toList ++ '"' :: ([','] ++ '{' :: (keysText xs ++
      '}' :: [']'])))

/-- **Every list of keys that has room in the table is read as it is.** -/
theorem parseData_keys (id : List Char) (xs : List Str) (hid : '"' ∉ id)
    (hfits : id.length ≤ tempBufCap) (hlen : xs.length ≤ subPayloadCap)
    (hname : ∀ x ∈ xs, KeyName x) (a : CpReqAction) (dt : UInt64) :
    ∃ rx, parseData a dt clearRxMsgBuff (keysFrame id xs) = some ⟨false, rx, dt⟩ ∧
      rx.msg.actionCode = .cs .getConfig ∧ Requests rx (xs.map fun x => x.chars) := by
  have hgap : TypeGap [] := by decide
  have hcomma : '"' ∉ [','] := by decide
  have hheader := parseHeader_call (e := ("GetConfiguration".toList, .getConfig)) hgap hcomma hcomma
    hid hfits (by decide) a clearRxMsgBuff.msg ([','] ++ '{' :: (keysText xs ++ '}' :: [']']))
  have hsep : IsSep [','] := by simp [IsSep]
  obtain ⟨rx, hparse, hkey, hlink, hsub, hstored⟩ := parsePayload_keys xs hlen
    { clearRxMsgBuff.msg with
      uniqueId := 0, uniqueIdChar := id, msgType := 2, actionCode := .cs .getConfig } hsep [']']
  refine ⟨rx, ?_, (parsePayload_header hparse).actionCode, ?_, ?_, ?_⟩
  · unfold parseData
    show (parseHeader a (keysFrame id xs) clearRxMsgBuff.msg).bind _ = _
    unfold keysFrame
    rw [hheader, Option.bind_some, if_neg (by simp), if_neg (by simp), hparse]
    rfl
  · unfold Payload.named
    rw [hkey]
    decide
  · rw [keyEntries_length, hsub]
  · intro i k hk
    have hbound : i < subPayloadCap := by
      have hi := (List.getElem?_eq_some_iff.mp hk).1
      rw [keyEntries_length] at hi
      unfold subPayloadCap at hlen ⊢
      omega
    refine ⟨rx.sub1 i, ?_, ?_⟩
    · rw [hlink]
      exact if_pos hbound
    · -- a name of at most 256 characters is stored as it is
      have hplain : k.length ≤ 256 ∧ NulFree k := by
        have hmem := List.mem_of_getElem? hk
        unfold keyEntries at hmem
        split at hmem
        · obtain rfl := List.mem_singleton.mp hmem
          exact ⟨by decide, nulFree_nil⟩
        · obtain ⟨x, hx, rfl⟩ := List.mem_map.mp hmem
          exact ⟨(hname x hx).le, (hname x hx).nulFree⟩
      rw [hstored i k hk, stored_of_le hplain.1, cstr_of_nulFree hplain.2]

/-! ## The answer

Completeness is said of the items that are printed under the two names. `makeOcppMsg_items`
connects them to the frame: they stand between the brackets behind the name. -/

/-- The items that `Make_Ocpp_Msg` prints of the arrays with this name. -/
def TxBuf.items (tx : TxBuf) (name : String) : List (List Char) :=
  (List.range tx.msg.payloadLen).flatMap fun i =>
    let p := tx.msg.payload i
    if p.named name ∧ p.dataType = .arr then
      (List.range p.subPayloadLen).map fun n => cstr (tx.subOf p.subPayload n).propertyContants
    else []

/-- The entry of every requested key that is known stands under `configurationKey`, and under
`unknownKey` stand the names of the others and nothing else. -/
structure TxBuf.Complete (tx : TxBuf) (c : Charger) (ks : List (List Char)) : Prop where
  known : ∀ k ∈ ks, ∀ key, findCfgKey c k = some key →
    cstr (cfgKeyText key) ∈ tx.items "configurationKey"
  unknown : ∀ x, x ∈ tx.items "unknownKey" ↔
    ∃ k ∈ ks, findCfgKey c k = none ∧ x = convStr2Str k

/-- An answer of one array, and the text of it. -/
theorem items_one {tx : TxBuf} (hlen : tx.msg.payloadLen = 1)
    (harr : (tx.msg.payload 0).dataType = .arr) (name : String) : tx.items name =
      if (tx.msg.payload 0).named name then
        (List.range (tx.msg.payload 0).subPayloadLen).map fun n =>
          cstr (tx.subOf (tx.msg.payload 0).subPayload n).propertyContants
      else [] := by
  unfold TxBuf.items
  rw [hlen, List.range_one, List.flatMap_singleton]
  simp [harr]

/-- The frame of such an answer has the items between the brackets behind the name, a comma between
any two. -/
theorem makeOcppMsg_items {tx : TxBuf} (id : List Char) {name : String}
    (hlen : tx.msg.payloadLen = 1) (harr : (tx.msg.payload 0).dataType = .arr)
    (hname : (tx.msg.payload 0).named name = true) :
    '"' :: name.toList ++ '"' :: ':' :: '[' :: commas (tx.items name) ++ [']'] <:+:
      makeOcppMsg tx id := by
  obtain ⟨b, pre, post, hframe, -⟩ := @makeOcppMsg_item tx 0 id (by omega)
  have hprinted : cstr (tx.msg.payload 0).propertyName = name.toList := by
    simpa only [Payload.named, decide_eq_true_eq] using hname
  refine ⟨pre, post, ?_⟩
  rw [hframe, encMain_arr tx b harr, items_one hlen harr, if_pos hname, convStr2Str, hprinted]
  simp only [List.append_assoc, List.cons_append, List.nil_append]

/-! ## The loop

The loop keeps what it has found until the first key that is not in the table, and then nothing
of it. Up to there it is `foundKeys`, of which the answers are made. -/

section Loop
variable {rx : RxBuf} {c : Charger}

/-- The loop finds the keys up to the first that is not known. -/
theorem foundKeys_entries (c : Charger) {es : List (List Char)} (n : Nat)
    (h : ∀ i k, es[i]? = some k → ∃ q, rx.deref (rx.msg.payload 0).subPayload (n + i) = some q ∧
      cstr q.propertyContants = k) :
    ∃ found, foundKeys rx c es.length n =
        some (found, es.all fun k => (findCfgKey c k).isSome) ∧
      ((∀ k ∈ es, (findCfgKey c k).isSome) → found.map some = es.map (findCfgKey c)) := by
  induction es generalizing n with
  | nil => exact ⟨[], rfl, fun _ => rfl⟩
  | cons e es ih =>
    obtain ⟨q, hq, hcontents⟩ := h 0 e rfl
    rw [Nat.add_zero] at hq
    rw [List.length_cons, foundKeys, hq]
    dsimp only
    rw [hcontents, List.all_cons]
    cases hfind : findCfgKey c e with
    | none =>
      refine ⟨[], by simp, fun hall => ?_⟩
      have hknown := hall e List.mem_cons_self
      rw [hfind] at hknown
      exact absurd hknown (by decide)
    | some key =>
      obtain ⟨found, hfound, hmap⟩ := ih (n + 1) fun i k hk => by
        have hnext := h (i + 1) k hk
        rwa [Nat.add_comm i 1, ← Nat.add_assoc] at hnext
      refine ⟨key :: found, ?_, fun hall => ?_⟩
      · dsimp only
        rw [hfound]
        simp
      · rw [List.map_cons, List.map_cons, hfind,
          hmap fun k hk => hall k (List.mem_cons_of_mem e hk)]

/-- The answer: the keys, or an empty array. -/
theorem getConfig_requests {ks : List (List Char)} (h : Requests rx ks) (c : Charger) (tx : TxBuf) :
    ∃ found, dataProcCmdGetConfig rx c tx = some (Reply.write rx tx
        (if (keyEntries ks).all fun k => (findCfgKey c k).isSome then .keys found
          else .unknownAfter found)) ∧
      ((∀ k ∈ keyEntries ks, (findCfgKey c k).isSome) →
        found.map some = (keyEntries ks).map (findCfgKey c)) := by
  have hname : cstr (rx.msg.payload 0).propertyName ≠ [] := by
    have hkey := h.key
    simp only [Payload.named, decide_eq_true_eq] at hkey
    rw [hkey]
    decide
  obtain ⟨found, hfound, hmap⟩ := foundKeys_entries c 0 fun i k hk => by
    rw [Nat.zero_add]
    exact h.item i k hk
  refine ⟨found, ?_, hmap⟩
  unfold dataProcCmdGetConfig
  dsimp only
  rw [if_neg hname, if_pos h.key, h.len, getConfigLoop_eq, hfound]
  cases (keyEntries ks).all fun k => (findCfgKey c k).isSome with
  | true => simp [Reply.write]
  | false => rfl

end Loop

/-! ## What the answer lists -/

section Items
variable (rx : RxBuf) (tx : TxBuf) (ks : List CfgKey)

theorem items_keys : (Reply.write rx tx (.keys ks)).items "configurationKey" =
      ks.map (fun k => cstr (cfgKeyText k)) ∧
    (Reply.write rx tx (.keys ks)).items "unknownKey" = [] := by
  let tx₁ := ((tx.answer rx 1).setType 0 .arr).writeCfgKeys 0 ks
  have hmsg : tx₁.msg = ((tx.answer rx 1).setType 0 .arr).msg := TxBuf.writeCfgKeys_msg _ 0 ks
  have hlen : (tx₁.keyList ks.length).msg.payloadLen = 1 := congrArg MsgStruct.payloadLen hmsg
  have harr : ((tx₁.keyList ks.length).msg.payload 0).dataType = .arr := by
    show (tx₁.msg.payload 0).dataType = .arr
    rw [hmsg]
    rfl
  have hitems := congrArg (List.map cstr)
    (TxBuf.writeCfgKeys_sub ((tx.answer rx 1).setType 0 .arr) 0 ks)
  rw [List.map_map, List.map_map, ← List.range_eq_range'] at hitems
  constructor
  · exact (items_one hlen harr "configurationKey").trans hitems
  · exact items_one hlen harr "unknownKey"

theorem items_unknownAfter (name : String) :
    (Reply.write rx tx (.unknownAfter ks)).items name = [] := by
  let tx₁ := ((tx.answer rx 1).setType 0 .arr).writeCfgKeys 0 ks
  have hmsg : tx₁.msg = ((tx.answer rx 1).setType 0 .arr).msg := TxBuf.writeCfgKeys_msg _ 0 ks
  have hlen : ((tx₁.keyList 0).unknownKey).msg.payloadLen = 1 := congrArg MsgStruct.payloadLen hmsg
  have harr : (((tx₁.keyList 0).unknownKey).msg.payload 0).dataType = .arr := by
    show (tx₁.msg.payload 0).dataType = .arr
    rw [hmsg]
    rfl
  have hone := items_one hlen harr name
  -- the length is 0, whatever the name
  have hsub : (((tx₁.keyList 0).unknownKey).msg.payload 0).subPayloadLen = 0 := rfl
  rw [hsub, List.range_zero, List.map_nil, ite_self] at hone
  exact hone

end Items

/-- The answer is complete if every key that is asked for is known, and otherwise it is not. -/
theorem complete_iff_known {rx : RxBuf} {ks : List (List Char)} (h : Requests rx ks) (c : Charger)
    (tx : TxBuf) : ∃ tx', dataProcCmdGetConfig rx c tx = some tx' ∧
      (tx'.Complete c ks ↔ ∀ k ∈ ks, (findCfgKey c k).isSome) := by
  obtain ⟨found, hserve, hmap⟩ := getConfig_requests h c tx
  refine ⟨_, hserve, ?_⟩
  have hentries : ∀ k ∈ ks, k ∈ keyEntries ks := by
    intro k hk
    unfold keyEntries
    rw [if_neg (List.ne_nil_of_mem hk)]
    exact hk
  by_cases hall : ((keyEntries ks).all fun k => (findCfgKey c k).isSome) = true
  · -- every entry was found, so all keys are known
    rw [if_pos hall]
    have hknown : ∀ k ∈ keyEntries ks, (findCfgKey c k).isSome := by
      simpa using hall
    obtain ⟨hitems, hnone⟩ := items_keys rx tx found
    refine iff_of_true ⟨?_, ?_⟩ fun k hk => hknown k (hentries k hk)
    · intro k hk key hfind
      have hmem : some key ∈ found.map some := by
        rw [hmap hknown, ← hfind]
        exact List.mem_map_of_mem (hentries k hk)
      obtain ⟨key', hkey', heq⟩ := List.mem_map.mp hmem
      cases heq
      rw [hitems]
      exact List.mem_map_of_mem hkey'
    · intro x
      rw [hnone]
      refine iff_of_false List.not_mem_nil ?_
      rintro ⟨k, hk, hfind, -⟩
      have := hknown k (hentries k hk)
      rw [hfind] at this
      exact absurd this (by decide)
  · -- nothing is listed
    rw [if_neg hall]
    constructor
    · intro hcomplete k hk
      cases hfind : findCfgKey c k with
      | some key => rfl
      | none =>
        have hlisted := (hcomplete.unknown (convStr2Str k)).mpr ⟨k, hk, hfind, rfl⟩
        rw [items_unknownAfter] at hlisted
        exact absurd hlisted List.not_mem_nil
    · intro hknown
      refine ⟨?_, ?_⟩
      · intro k hk
        -- an empty list is the only one whose entries are not its keys
        have hks : keyEntries ks = ks := if_neg (List.ne_nil_of_mem hk)
        rw [hks] at hall
        exact absurd (List.all_eq_true.mpr hknown) hall
      · intro x
        rw [items_unknownAfter]
        refine iff_of_false List.not_mem_nil ?_
        rintro ⟨k, hk, hfind, -⟩
        have := hknown k hk
        rw [hfind] at this
        exact absurd this (by decide)

/-- **GetConfiguration is complete if and only if every key is known**, for every list of keys; and
every list that has room in the table of the parser reaches the handler. -/
theorem getConfig_complete (c : Charger) (tx : TxBuf) :
    (∀ (rx : RxBuf) (ks : List (List Char)), Requests rx ks →
      ∃ tx', dataProcCmdGetConfig rx c tx = some tx' ∧
        (tx'.Complete c ks ↔ ∀ k ∈ ks, (findCfgKey c k).isSome)) ∧
    ∀ (id : List Char) (xs : List Str) (a : CpReqAction) (dt : UInt64), '"' ∉ id →
      id.length ≤ tempBufCap → xs.length ≤ subPayloadCap → (∀ x ∈ xs, KeyName x) →
      ∃ rx, parseData a dt clearRxMsgBuff (keysFrame id xs) = some ⟨false, rx, dt⟩ ∧
        rx.msg.actionCode = .cs .getConfig ∧ Requests rx (xs.map fun x => x.chars) := by
  constructor
  · intro rx ks h
    exact complete_iff_known h c tx
  · intro id xs a dt hid hfits hlen hname
    exact parseData_keys id xs hid hfits hlen hname a dt

/-- A known key, and one that is not. -/
def heartbeatKey : Str := ⟨"HeartbeatInterval".toList, by decide⟩
def otherKey : Str := ⟨"Foo".toList, by decide⟩

theorem getConfig_complete_known : ∃ rx tx',
    parseData .none 0 clearRxMsgBuff (keysFrame ['1'] [heartbeatKey]) = some ⟨false, rx, 0⟩ ∧
    dataProcCmdGetConfig rx (.init 0) .zero = some tx' ∧
    tx'.Complete (.init 0) [heartbeatKey.chars] := by
  obtain ⟨hcomplete, hread⟩ := getConfig_complete (.init 0) .zero
  obtain ⟨rx, hparse, -, hreq⟩ := hread ['1'] [heartbeatKey] .none 0 (by decide) (by decide)
    (by decide) fun x hx => by
      obtain rfl := List.mem_singleton.mp hx
      exact ⟨by decide, by decide⟩
  obtain ⟨tx', hserve, hiff⟩ := hcomplete rx _ hreq
  refine ⟨rx, tx', hparse, hserve, hiff.mpr ?_⟩
  decide +kernel

/-- `HeartbeatInterval` is known and `Foo` is not: the answer has neither. -/
theorem known_key_dropped : ∃ rx tx',
    parseData .none 0 clearRxMsgBuff (keysFrame ['1'] [heartbeatKey, otherKey]) =
      some ⟨false, rx, 0⟩ ∧
    dataProcCmdGetConfig rx (.init 0) .zero = some tx' ∧
    makeOcppMsg tx' rx.msg.uniqueIdChar = "[3,\"1\",\x7b\"unknownKey\":[]\x7d]".toList ∧
    ¬ tx'.Complete (.init 0) [heartbeatKey.chars, otherKey.chars] := by
  obtain ⟨rx, hparse, -, hreq⟩ := parseData_keys ['1'] [heartbeatKey, otherKey] (by decide)
    (by decide) (by decide) (fun x hx => by
      rcases List.mem_cons.mp hx with rfl | hx
      · exact ⟨by decide, by decide⟩
      · obtain rfl := List.mem_singleton.mp hx
        exact ⟨by decide, by decide⟩) .none 0
  obtain ⟨found, hserve, -⟩ := getConfig_requests hreq (.init 0) .zero
  obtain ⟨tx', hserve', hiff⟩ := complete_iff_known hreq (.init 0) .zero
  have hunknown : ((keyEntries ([heartbeatKey, otherKey].map fun x => x.chars)).all
      fun k => (findCfgKey (.init 0) k).isSome) = false := by
    decide +kernel
  rw [hunknown, if_neg Bool.false_ne_true] at hserve
  cases hserve.symm.trans hserve'
  have hid : rx.msg.uniqueIdChar = ['1'] := by
    have hrun : (parseData .none 0 clearRxMsgBuff (keysFrame ['1'] [heartbeatKey, otherKey])).map
        (fun d => d.rx.msg.uniqueIdChar) = some ['1'] := by
      decide +kernel
    rw [hparse] at hrun
    exact Option.some.inj hrun
  refine ⟨rx, _, hparse, hserve, ?_, ?_⟩
  · have htext : (Reply.unknownAfter found).text = (Reply.unknownAfter []).text := rfl
    rw [makeOcppMsg_reply rx (fun _ => rfl), hid, htext]
    decide +kernel
  · intro hcomplete
    exact absurd (hiff.mp hcomplete) (by decide +kernel)

end ChargePoint
