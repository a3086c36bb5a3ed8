import ChargePoint.Codec.Reads

/-!
# What is stored of an object

`Parse_Payload` on a whole object, and what its `Payload` table then holds. One defect decides
nearly everything: a nested object or array whose last leaf is an integer, or which is empty,
leaves the parser in the step in which a comma is *not* counted. The property behind it is then
written over the container's own entry.

`nested_stored` is exact for the objects in which every array element but the last ends with a
string. An element that ends otherwise makes the parser take the next `{` of the array for
nothing, and from there the depth is wrong.
-/

set_option autoImplicit false

namespace ChargePoint

open CStr Reading PayloadSt

/-! ## The counters and the members -/

namespace Json

theorem list_of_isEnd {ms : Json .members} (h : ms.isEnd = true) : ms.list = [] := by
  cases ms with
  | noMember => rw [list]
  | member => exact absurd h (by simp [isEnd])

theorem length_pos_of_not_isEnd {ms : Json .members} (h : ms.isEnd = false) :
    0 < ms.list.length := by
  cases ms with
  | noMember => exact absurd h (by simp [isEnd])
  | member => simp [list]

/-- **`Payload_len` is the index of the last member exactly if every comma was counted**, and
smaller otherwise. -/
theorem fill_length {ms : Json .members} {cap c e c' : Nat} (h : ms.fill cap c e = some c') :
    c' ≤ c + (ms.list.length - 1) ∧
      (c' = c + (ms.list.length - 1) ↔ ms.allCounted = true) := by
  match ms with
  | .noMember =>
    obtain rfl : c = c' := by simpa [fill] using h
    simp [list, allCounted]
  | .member w name w₁ v w₂ rest =>
    obtain ⟨e', -, h⟩ : ∃ e', v.fill 0 0 e = some e' ∧
        fillRest v rest cap c e' = some c' := by
      simpa [fill, fillRest, Option.bind_eq_some_iff] using h
    unfold fillRest at h
    by_cases hend : rest.isEnd = true
    · rw [if_pos hend] at h
      obtain rfl : c = c' := by simpa using h
      have hnil := list_of_isEnd hend
      cases rest with
      | noMember => simp [list, allCounted, isEnd]
      | member => exact absurd hend (by simp [isEnd])
    · rw [if_neg hend] at h
      have hpos := length_pos_of_not_isEnd (by simpa using hend)
      have hlen : (Json.member w name w₁ v w₂ rest).list.length - 1 = rest.list.length := by
        simp [list]
      have hall : (Json.member w name w₁ v w₂ rest).allCounted =
          (v.counted && rest.allCounted) := by
        simp [allCounted, hend]
      rw [hlen, hall]
      by_cases hcounted : v.counted = true
      · rw [if_pos hcounted] at h
        split at h
        · obtain ⟨hle, hiff⟩ := fill_length h
          have heq : c' = c + rest.list.length ↔ c' = c + 1 + (rest.list.length - 1) := by omega
          exact ⟨by omega, by rw [heq, hiff, hcounted, Bool.true_and]⟩
        · exact absurd h (by simp)
      · rw [if_neg hcounted] at h
        obtain ⟨hle, -⟩ := fill_length h
        exact ⟨by omega, ⟨fun heq => absurd heq (by omega), fun ha => by simp [hcounted] at ha⟩⟩

/-! ## What should be stored -/

/-- What the entry of a member should hold: its name, and the text of its value, or the link to
the table of its members. -/
def Holds (name : Name) (v : Json .val) (p : Payload) : Prop :=
  p.propertyName = name.chars ∧
    match v with
    | .str _ s => p.propertyContants = s.chars
    | .num _ n => p.propertyContants = n.digits
    | .nested _ | .arr .. => p.propertyContants = [] ∧ p.subPayload = .sub1

/-- **Every member in its own entry**, in order, and no entry beyond. -/
structure Stored (ms : Json .members) (rx : RxBuf) : Prop where
  len : rx.msg.payloadLen = ms.list.length - 1
  entry : ∀ i name v, ms.list[i]? = some (name, v) → Holds name v (rx.msg.payload i)

/-- A string or an integer of at most 256 characters. -/
def fits : Json .val → Prop
  | .str _ s => s.chars.length ≤ 256
  | .num _ n => n.digits.length ≤ 256
  | .nested _ | .arr .. => True

theorem holds_iff {name : Name} {v : Json .val} {p : Payload} (h : Kept 0 name v p) :
    Holds name v p ↔ v.fits := by
  obtain ⟨hname, hv⟩ := h
  cases v with
  | str w s =>
    rw [Holds, hv, and_iff_right hname]
    exact stored_iff s.chars
  | num w n =>
    rw [Holds, hv, and_iff_right hname]
    exact stored_iff n.digits
  | nested o => exact iff_of_true ⟨hname, hv⟩ trivial
  | arr w es w' => exact iff_of_true ⟨hname, hv⟩ trivial

/-- The objects that are stored: no `]` inside a name or a string before the first array, no
table overflows, no member follows a container that ends badly, and no value is too long. -/
structure Clean (ms : Json .members) : Prop where
  early : ms.early = false
  room : (ms.fill payloadCap 0 0).isSome = true
  counted : ms.allCounted = true
  fits : ∀ x ∈ ms.list, x.2.fits

end Json

/-! ## The whole object -/

/-- What stands before the object: neither the brace the parser waits for nor the bracket at
which it gives up. -/
def IsSep (sep : List Char) : Prop := ∀ c ∈ sep, c ≠ '{' ∧ c ≠ ']'

/-- The rest of a frame that carries an object. -/
def objectText (sep : List Char) (ms : Json .members) (w : Blank) (tail : List Char) : List Char :=
  sep ++ '{' :: (ms.text ++ (w.text ++ '}' :: tail))

section Object
variable {sep tail : List Char} {ms : Json .members} {w : Blank} {msg : RxMsg}

/-- The state behind the opening brace. -/
def PayloadSt.begun (msg : RxMsg) : PayloadSt :=
  { PayloadSt.start msg with
    parsType := fun d => if d = 0 then .obj else (PayloadSt.start msg).parsType d, step := .key }

theorem begun_sits (msg : RxMsg) : (begun msg).Sits 0 0 0 false .obj :=
  ⟨⟨Nat.zero_le 3, rfl, rfl, rfl, fun _ h => absurd h (Nat.not_lt_zero _),
    (show (0 : Nat) < payloadCap by decide), fun k hk => by
      obtain rfl : k = 0 := by omega
      show (0 : Nat) < subPayloadCap
      decide⟩, rfl, rfl, rfl, rfl⟩

theorem payloadEnd_sep (msg : RxMsg) (l : Char) (hsep : IsSep sep) (rest : List Char) :
    payloadEnd (.start msg) l (sep ++ '{' :: rest) = payloadEnd (begun msg) '{' rest := by
  induction sep generalizing l with
  | nil => exact payloadEnd_next (fun h => absurd h.1 (by decide)) rfl rest
  | cons c sep ih =>
    obtain ⟨hbrace, hbracket⟩ := hsep c List.mem_cons_self
    have hfeed : (PayloadSt.start msg).feed l c = some (.next (.start msg)) := by
      unfold PayloadSt.feed
      exact if_neg hbrace
    rw [List.cons_append, payloadEnd_next (fun h => hbracket h.1) hfeed]
    exact ih c fun c hc => hsep c (List.mem_cons_of_mem _ hc)

/-- The brace that closes the object ends the loop. -/
theorem payloadEnd_close {s : PayloadSt} {l : Char} (hs : s.Stands 0)
    (hst : s.step = .after ∨ s.step = .value ∨ s.step = .key) (tail : List Char) :
    payloadEnd s l ('}' :: tail) = some (false, s.rx) := by
  have hstop : ∃ u : PayloadSt, s.feed l '}' = some (.stop u) ∧ u.step = s.step ∧ u.rx = s.rx := by
    unfold PayloadSt.feed
    rcases hst with h | h | h
    · exact ⟨s, by rw [h]; exact if_pos hs.depth, rfl, rfl⟩
    · exact ⟨s, by rw [h]; exact if_pos hs.depth, rfl, rfl⟩
    · exact ⟨{ s with strIndex := 0 }, by rw [h]; exact if_pos hs.depth, rfl, rfl⟩
  obtain ⟨u, hfeed, hstep, hrx⟩ := hstop
  have hended : s.step.ended = true := by
    rcases hst with h | h | h <;> (rw [h]; rfl)
  unfold payloadEnd
  rw [payloadLoop, if_neg fun h => absurd h.1 (by decide), hfeed, Option.map_some, hstep, hrx, hended]
  rfl

/-- **`Parse_Payload` on an object**: when it accepts, and what it then leaves. -/
theorem parsePayload_object (w : Blank) (tail : List Char) (msg : RxMsg) (hlev : ms.levels ≤ 3)
    (hal : ms.aligned = true) (hsep : IsSep sep) :
    ((ms.early = false ∧ (ms.fill payloadCap 0 0).isSome = true) →
      ∃ s c' e', parsePayload msg (objectText sep ms w tail) = some (false, s.rx) ∧
        ms.fill payloadCap 0 0 = some c' ∧ s.Sits 0 c' e' ms.hasArr .obj ∧
        Listed 0 0 ms (begun msg) s) ∧
    (¬ (ms.early = false ∧ (ms.fill payloadCap 0 0).isSome = true) →
      ∀ rx, parsePayload msg (objectText sep ms w tail) ≠ some (false, rx)) := by
  have hread := Json.reads ms (s := begun msg) (l := '{') hlev hal (begun_sits msg) rfl
  have hok : ((false = true ∨ ms.early = false) ∧
      (ms.fill (Arr.level 0).cap 0 0).isSome = true) ↔
      ms.early = false ∧ (ms.fill payloadCap 0 0).isSome = true := by
    simp [Arr.level, Arr.cap]
  have hparse : parsePayload msg (objectText sep ms w tail) =
      payloadEnd (begun msg) '{' (ms.text ++ (w.text ++ '}' :: tail)) :=
    payloadEnd_sep msg '"' hsep _
  constructor
  · intro h
    obtain ⟨s, l, hrun, c', e', hfill, hs, -, -, hst, hlist⟩ := hread.reads (hok.mpr h)
    refine ⟨s, c', e', ?_, hfill, ?_, hlist⟩
    · have hname : s.step ≠ .name := by rcases hst with h | h | h <;> (rw [h]; decide)
      have hstr : s.step ≠ .str := by rcases hst with h | h | h <;> (rw [h]; decide)
      rw [hparse, hrun, payloadEnd_blank w.blank hname hstr, payloadEnd_close hs.stands hst]
    · rwa [Bool.false_or] at hs
  · intro h rx heq
    rw [hparse] at heq
    exact hread.fails (fun h' => h (hok.mp h')) _ _ heq rfl

end Object

/-- `Parse_Payload` accepts the text and stores the object. -/
def Stores (msg : RxMsg) (text : List Char) (ms : Json .members) : Prop :=
  ∃ rx, parsePayload msg text = some (false, rx) ∧ ms.Stored rx

/-- **Which objects are stored.** -/
theorem nested_stored (ms : Json .members) (hlev : ms.levels ≤ 3) (hal : ms.aligned = true)
    {sep : List Char} (hsep : IsSep sep) (w : Blank) (tail : List Char) (msg : RxMsg) :
    Stores msg (objectText sep ms w tail) ms ↔ ms.Clean := by
  obtain ⟨haccept, hreject⟩ := parsePayload_object w tail msg hlev hal hsep
  constructor
  · rintro ⟨rx, hparse, hstored⟩
    by_cases hok : ms.early = false ∧ (ms.fill payloadCap 0 0).isSome = true
    · obtain ⟨s, c', e', hrun, hfill, hs, hlist⟩ := haccept hok
      obtain rfl : s.rx = rx := by simpa using hrun.symm.trans hparse
      have hcounted : ms.allCounted = true := by
        rw [← (Json.fill_length hfill).2, ← hs.count, Nat.zero_add]
        exact hstored.len
      refine ⟨hok.1, hok.2, hcounted, fun x hx => ?_⟩
      obtain ⟨i, hi⟩ := List.mem_iff_getElem?.mp hx
      have hkept := hlist.member hcounted i x.1 x.2 hi
      rw [Nat.zero_add] at hkept
      exact (Json.holds_iff hkept).mp (hstored.entry i x.1 x.2 hi)
    · exact absurd hparse (hreject hok rx)
  · intro hclean
    obtain ⟨s, c', e', hrun, hfill, hs, hlist⟩ := haccept ⟨hclean.early, hclean.room⟩
    refine ⟨s.rx, hrun, ?_, fun i name v hi => ?_⟩
    · have hcount := (Json.fill_length hfill).2.mpr hclean.counted
      rw [Nat.zero_add] at hcount
      exact hs.count.trans hcount
    · have hkept := hlist.member hclean.counted i name v hi
      rw [Nat.zero_add] at hkept
      exact (Json.holds_iff hkept).mpr (hclean.fits _ (List.mem_of_getElem? hi))

/-! ## A sibling behind an integer and behind a string -/

/-- `{"a":{"x":v},"b":2}`, without blanks. -/
def siblings (v : Json .val) : Json .members :=
  let no : Blank := .none
  let two : Json .val := .num no ⟨['2'], by decide, by decide⟩
  let inner : Json .val :=
    .nested (.braces no (.member no ⟨['x'], by decide, by decide⟩ no v no .noMember) no)
  .member no ⟨['a'], by decide, by decide⟩ no inner no
    (.member no ⟨['b'], by decide, by decide⟩ no two no .noMember)

theorem nested_stored_string :
    let ms := siblings (.str .none ⟨['1'], by decide⟩)
    Stores .zero (objectText [','] ms .none [']']) ms := by
  intro ms
  refine (nested_stored ms ?_ ?_ (by simp [IsSep]) _ _ _).mpr ⟨?_, ?_, ?_, ?_⟩
  · simp [ms, siblings, Json.levels]
  · simp [ms, siblings, Json.aligned]
  · simp [ms, siblings, Json.early, Json.hasArr]
  · simp [ms, siblings, Json.fill, Json.isEnd, Json.counted, Json.stepAfter, Json.isAfter,
      payloadCap]
  · simp [ms, siblings, Json.allCounted, Json.isEnd, Json.counted, Json.stepAfter, Json.isAfter]
  · simp [ms, siblings, Json.list, Json.fits]

/-- **`{"a":{"x":1},"b":2}`** ends up as one property `b`, in the entry of `a`. -/
theorem sibling_overwrites :
    let ms := siblings (.num .none ⟨['1'], by decide, by decide⟩)
    ms.levels ≤ 3 ∧ ms.list.length = 2 ∧
      objectText [','] ms .none [']'] = ",\x7b\"a\":\x7b\"x\":1\x7d,\"b\":2\x7d]".toList ∧
      (∃ rx, parsePayload .zero (objectText [','] ms .none [']']) = some (false, rx) ∧
        rx.msg.payloadLen = 0 ∧ (rx.msg.payload 0).propertyName = ['b']) ∧
      ¬ Stores .zero (objectText [','] ms .none [']']) ms := by
  intro ms
  have htext : objectText [','] ms .none [']'] = ",\x7b\"a\":\x7b\"x\":1\x7d,\"b\":2\x7d]".toList := by
    simp [objectText, ms, siblings, Json.text, Json.isEnd, Blank.none]
  have hlen : ms.list.length = 2 := by simp [ms, siblings, Json.list]
  have hrun : (parsePayload .zero ",\x7b\"a\":\x7b\"x\":1\x7d,\"b\":2\x7d]".toList).map
      (fun r => (r.1, r.2.msg.payloadLen, (r.2.msg.payload 0).propertyName)) =
        some (false, 0, ['b']) := by decide
  obtain ⟨⟨err, rx⟩, hparse, heq⟩ := Option.map_eq_some_iff.mp hrun
  obtain ⟨rfl, hcount, hname⟩ : err = false ∧ rx.msg.payloadLen = 0 ∧
      (rx.msg.payload 0).propertyName = ['b'] := by simpa using heq
  rw [htext]
  refine ⟨by simp [ms, siblings, Json.levels], hlen, rfl, ⟨rx, hparse, hcount, hname⟩, ?_⟩
  rintro ⟨rx', hparse', hstored⟩
  obtain rfl : rx = rx' := by simpa using hparse.symm.trans hparse'
  have hlast := hstored.len
  rw [hlen, hcount] at hlast
  exact absurd hlast (by decide)

end ChargePoint
