import ChargePoint.Parse.Payload

/-!
# Levels of nesting

Where `Parse_Payload` stands in the four tables. Level 0 fills `Payload`, level `d` fills
`sub_Payload<d>`. At each level one entry is current, and the index of the current entry of
level `d + 1` is the `subPayload_len` *of the current entry of level `d`*: the counters form a
path (`RxBuf.path`) from `Payload_len` down.

`Stands s d` says that the parser is at level `d` and that `ptmpPayload` and `tempIndx` point
where they should for it. Every operation of the parser keeps that, within the arrays:
`modifyCur_stands`, `nextEntry_stands`, `enter_stands`, `leave_stands`. What an operation
leaves alone is said by `Keeps`: everything above its level but the counters that lead to it.
-/

set_option autoImplicit false

namespace ChargePoint

open CStr

/-! ## Tables and paths

The four tables are one family, indexed by the level, and the counters are read and written
through them. `path` is the sequence of the counters from the top, which says where every current
entry is. -/

/-- The table of a level. -/
def Arr.level : Nat → Arr
  | 0 => .top
  | 1 => .sub1
  | 2 => .sub2
  | _ => .sub3

/-- The pointer to the table of a level below the first. -/
def SubPtr.level : Nat → SubPtr
  | 0 | 1 => .sub1
  | 2 => .sub2
  | _ => .sub3

theorem Arr.level_ne {d k : Nat} (hd : d ≤ 3) (hk : k < d) : Arr.level k ≠ Arr.level d := by
  obtain rfl | rfl | rfl : d = 1 ∨ d = 2 ∨ d = 3 := by omega
  · obtain rfl : k = 0 := by omega
    decide
  · obtain rfl | rfl : k = 0 ∨ k = 1 := by omega
    · decide
    · decide
  · obtain rfl | rfl | rfl : k = 0 ∨ k = 1 ∨ k = 2 := by omega
    · decide
    · decide
    · decide

namespace RxBuf

/-- The index of the current entry of level `d`. -/
def path (rx : RxBuf) : Nat → Nat
  | 0 => rx.msg.payloadLen
  | d + 1 => (rx.get (.level d) (rx.path d)).subPayloadLen

/-- The current entry of level `d`. -/
def entry (rx : RxBuf) (d : Nat) : Payload := rx.get (.level d) (rx.path d)

/-- The counter of level `d`. -/
def ctrLevel (rx : RxBuf) : Nat → Ctr
  | 0 => .top
  | 1 => .ofTop (rx.path 0)
  | 2 => .ofSub1 (rx.path 1)
  | _ => .ofSub2 (rx.path 2)

/-- The table of `a` zeroed. -/
def clear (rx : RxBuf) : Arr → RxBuf
  | .top => { rx with msg := { rx.msg with payload := fun _ => .zero } }
  | .sub1 => { rx with sub1 := fun _ => .zero }
  | .sub2 => { rx with sub2 := fun _ => .zero }
  | .sub3 => { rx with sub3 := fun _ => .zero }

theorem get_set (rx : RxBuf) (a b : Arr) (i j : Nat) (p : Payload) :
    (rx.set a i p).get b j = if b = a ∧ j = i then p else rx.get b j := by
  cases a <;> cases b <;> simp [get, set, setAt]

@[simp] theorem get_set_same (rx : RxBuf) (a : Arr) (i : Nat) (p : Payload) :
    (rx.set a i p).get a i = p := by
  rw [get_set, if_pos ⟨rfl, rfl⟩]

theorem get_set_ne (rx : RxBuf) {a b : Arr} {i j : Nat} (p : Payload) (h : ¬ (b = a ∧ j = i)) :
    (rx.set a i p).get b j = rx.get b j := by
  rw [get_set, if_neg h]

theorem set_set (rx : RxBuf) (a : Arr) (i : Nat) (p q : Payload) :
    (rx.set a i p).set a i q = rx.set a i q := by
  have hset : ∀ t : Nat → Payload, setAt (setAt t i p) i q = setAt t i q := by
    intro t
    funext j
    unfold setAt
    split <;> rfl
  cases a <;> simp only [set, hset]

theorem set_get_self (rx : RxBuf) (a : Arr) (i : Nat) : rx.set a i (rx.get a i) = rx := by
  have hset : ∀ t : Nat → Payload, setAt t i (t i) = t := by
    intro t
    funext j
    unfold setAt
    split
    · rename_i hj
      rw [hj]
    · rfl
  cases a <;> simp only [set, get, hset]

@[simp] theorem set_payloadLen (rx : RxBuf) (a : Arr) (i : Nat) (p : Payload) :
    (rx.set a i p).msg.payloadLen = rx.msg.payloadLen := by
  cases a <;> rfl

theorem get_clear (rx : RxBuf) (a b : Arr) (j : Nat) :
    (rx.clear a).get b j = if b = a then .zero else rx.get b j := by
  cases a <;> cases b <;> rfl

@[simp] theorem clear_payloadLen (rx : RxBuf) (a : Arr) :
    (rx.clear a).msg.payloadLen = rx.msg.payloadLen := by
  cases a <;> rfl

/-- The paths of two buffers agree as far down as the entries on them have the same
counters. -/
theorem path_congr {rx rx' : RxBuf} {d : Nat} (htop : rx'.msg.payloadLen = rx.msg.payloadLen)
    (h : ∀ k < d, (rx'.get (.level k) (rx.path k)).subPayloadLen = rx.path (k + 1)) :
    ∀ k ≤ d, rx'.path k = rx.path k := by
  intro k
  induction k with
  | zero => exact fun _ => htop
  | succ k ih =>
    intro hk
    rw [path, ih (Nat.le_of_succ_le hk)]
    exact h k hk

/-- Changing an entry without its counter moves no path. -/
theorem path_set (rx : RxBuf) (a : Arr) (i : Nat) {p : Payload}
    (hp : p.subPayloadLen = (rx.get a i).subPayloadLen) (k : Nat) :
    (rx.set a i p).path k = rx.path k := by
  refine path_congr (rx.set_payloadLen a i p) (fun k _ => ?_) k (Nat.le_refl k)
  rw [get_set]
  split
  · rename_i heq
    rw [hp, path, heq.1, heq.2]
  · rfl

theorem ctr_level (rx : RxBuf) {d : Nat} (hd : d ≤ 3) : rx.ctr (rx.ctrLevel d) = rx.path d := by
  obtain rfl | rfl | rfl | rfl : d = 0 ∨ d = 1 ∨ d = 2 ∨ d = 3 := by omega
  · rfl
  · rfl
  · rfl
  · rfl

theorem ctrLevel_congr {rx rx' : RxBuf} {d : Nat} (h : ∀ k < d, rx'.path k = rx.path k)
    (hd : d ≤ 3) : rx'.ctrLevel d = rx.ctrLevel d := by
  obtain rfl | rfl | rfl | rfl : d = 0 ∨ d = 1 ∨ d = 2 ∨ d = 3 := by omega
  · rfl
  · exact congrArg Ctr.ofTop (h 0 (by omega))
  · exact congrArg Ctr.ofSub1 (h 1 (by omega))
  · exact congrArg Ctr.ofSub2 (h 2 (by omega))

/-- Writing the counter of level `d + 1` writes into the current entry of level `d`. -/
theorem setCtr_succ (rx : RxBuf) {d : Nat} (hd : d ≤ 2) (n : Nat) :
    rx.setCtr (rx.ctrLevel (d + 1)) n =
      rx.set (.level d) (rx.path d) { rx.entry d with subPayloadLen := n } := by
  obtain rfl | rfl | rfl : d = 0 ∨ d = 1 ∨ d = 2 := by omega
  · rfl
  · rfl
  · rfl

end RxBuf

/-! ## Standing at a level

For each operation of the parser: the state after it as an equation, that it stands at the level
it should, and what it keeps. The proofs about phrases use these three and no definition of an
operation. -/

namespace PayloadSt

/-- **The parser is at level `d`**, its pointers with it, within the tables; the entries on
the way there are linked to the tables below them. -/
structure Stands (s : PayloadSt) (d : Nat) : Prop where
  le : d ≤ 3
  depth : s.depth = d
  ptr : s.ptr = .level d
  idx : s.idx = s.rx.ctrLevel d
  link : ∀ k < d, (s.rx.entry k).subPayload = .level (k + 1)
  top : s.rx.path 0 < payloadCap
  sub : ∀ k ≤ d, s.rx.path (k + 1) < subPayloadCap

/-- Two entries with the same name, contents and nested table. -/
structure Same (p q : Payload) : Prop where
  name : p.propertyName = q.propertyName
  contants : p.propertyContants = q.propertyContants
  link : p.subPayload = q.subPayload

theorem Same.refl (p : Payload) : Same p p := ⟨rfl, rfl, rfl⟩

theorem Same.trans {p q r : Payload} (h : Same p q) (h' : Same q r) : Same p r :=
  ⟨h.1.trans h'.1, h.2.trans h'.2, h.3.trans h'.3⟩

/-- **Nothing above level `d` changed**: not the entries, not their kinds, not the path. -/
structure Keeps (d : Nat) (s s' : PayloadSt) : Prop where
  path : ∀ k < d, s'.rx.path k = s.rx.path k
  type : ∀ k < d, s'.parsType k = s.parsType k
  entry : ∀ k < d, ∀ i, Same (s'.rx.get (.level k) i) (s.rx.get (.level k) i)

theorem Keeps.refl (d : Nat) (s : PayloadSt) : Keeps d s s :=
  ⟨fun _ _ => rfl, fun _ _ => rfl, fun _ _ _ => .refl _⟩

theorem Keeps.trans {d : Nat} {s s' s'' : PayloadSt} (h : Keeps d s s') (h' : Keeps d s' s'') :
    Keeps d s s'' :=
  ⟨fun k hk => (h'.path k hk).trans (h.path k hk), fun k hk => (h'.type k hk).trans (h.type k hk),
    fun k hk i => (h'.entry k hk i).trans (h.entry k hk i)⟩

theorem Keeps.mono {d d' : Nat} {s s' : PayloadSt} (h : Keeps d s s') (hle : d' ≤ d) :
    Keeps d' s s' :=
  ⟨fun k hk => h.path k (hk.trans_le hle), fun k hk => h.type k (hk.trans_le hle),
    fun k hk => h.entry k (hk.trans_le hle)⟩

section Operations
variable {s s' : PayloadSt} {d : Nat}

theorem Stands.cur (h : s.Stands d) : s.cur = s.rx.path d := by
  rw [PayloadSt.cur, h.idx, RxBuf.ctr_level _ h.le]

theorem Stands.lt_cap (h : s.Stands d) : s.rx.path d < (Arr.level d).cap := by
  cases d with
  | zero => exact h.top
  | succ d =>
    have hlt := h.sub d (Nat.le_succ d)
    obtain rfl | rfl | rfl : d = 0 ∨ d = 1 ∨ d = 2 := by have := h.le; omega
    · exact hlt
    · exact hlt
    · exact hlt

/-- Standing is a matter of the pointers, the path and the links. -/
theorem Stands.congr (h : s.Stands d) (hdepth : s'.depth = s.depth) (hptr : s'.ptr = s.ptr)
    (hidx : s'.idx = s.idx) (hpath : ∀ k ≤ d, s'.rx.path k = s.rx.path k)
    (hsub : s'.rx.path (d + 1) < subPayloadCap)
    (hlink : ∀ k < d, (s'.rx.entry k).subPayload = (s.rx.entry k).subPayload) : s'.Stands d where
  le := h.le
  depth := hdepth.trans h.depth
  ptr := hptr.trans h.ptr
  idx := by rw [hidx, h.idx, RxBuf.ctrLevel_congr (fun k hk => hpath k hk.le) h.le]
  link := fun k hk => (hlink k hk).trans (h.link k hk)
  top := by
    rw [hpath 0 (Nat.zero_le d)]
    exact h.top
  sub := by
    intro k hk
    rcases Nat.lt_or_eq_of_le hk with hlt | rfl
    · rw [hpath (k + 1) hlt]
      exact h.sub k hk
    · exact hsub

/-- The current entry changed, but for its counter. -/
def Wrote (d : Nat) (p : Payload) (s s' : PayloadSt) : Prop :=
  s'.rx = s.rx.set (.level d) (s.rx.path d) p

theorem Stands.wrote {p : Payload} (h : s.Stands d) (hrx : Wrote d p s s')
    (hp : p.subPayloadLen = (s.rx.entry d).subPayloadLen) (hdepth : s'.depth = s.depth)
    (hptr : s'.ptr = s.ptr) (hidx : s'.idx = s.idx) : s'.Stands d := by
  have hpath : ∀ k, s'.rx.path k = s.rx.path k := by
    intro k
    rw [hrx, RxBuf.path_set _ _ _ hp]
  refine h.congr hdepth hptr hidx (fun k _ => hpath k) ?_ fun k hk => ?_
  · rw [hpath]
    exact h.sub d (Nat.le_refl d)
  · rw [RxBuf.entry, hpath, hrx, RxBuf.get_set_ne _ _ fun heq => Arr.level_ne h.le hk heq.1]
    rfl

theorem Keeps.of_wrote {p : Payload} (hd : d ≤ 3) (hrx : Wrote d p s s')
    (hp : p.subPayloadLen = (s.rx.entry d).subPayloadLen) (htype : s'.parsType = s.parsType) :
    Keeps d s s' where
  path := fun k _ => by rw [hrx, RxBuf.path_set _ _ _ hp]
  type := fun k _ => by rw [htype]
  entry := fun k hk i => by
    rw [hrx, RxBuf.get_set_ne _ _ fun heq => Arr.level_ne hd hk heq.1]
    exact .refl _

/-- Changing the entry being filled. -/
theorem modifyCur_stands (h : s.Stands d) (f : Payload → Payload) :
    s.modifyCur f = some { s with rx := s.rx.set (.level d) (s.rx.path d) (f (s.rx.entry d)) } := by
  unfold modifyCur RxBuf.modify
  rw [h.cur, h.ptr, if_pos h.lt_cap]
  rfl

/-- The state after a counted comma. -/
def nextSt (s : PayloadSt) (d : Nat) : PayloadSt :=
  let rx := s.rx.setCtr (s.rx.ctrLevel d) (s.rx.path d + 1)
  let p := rx.get (.level d) (s.rx.path d + 1)
  let p := { p with propertyName := [], propertyContants := [], subPayloadLen := 0 }
  { s with rx := rx.set (.level d) (s.rx.path d + 1) p }

/-- **The comma that is counted**: the next entry of the level, if there is one. -/
theorem nextEntry_stands (h : s.Stands d) : s.nextEntry =
    if s.rx.path d + 1 < (Arr.level d).cap then some (s.nextSt d) else none := by
  have hcap : (Arr.level d).cap ≤ 30 := by
    obtain rfl | rfl | rfl | rfl : d = 0 ∨ d = 1 ∨ d = 2 ∨ d = 3 := by have := h.le; omega
    · decide
    · decide
    · decide
    · decide
  have hlt := h.lt_cap
  have hmod : (s.rx.path d + 1) % 256 = s.rx.path d + 1 := Nat.mod_eq_of_lt (by omega)
  have hcur : (s.rx.setCtr (s.rx.ctrLevel d) (s.rx.path d + 1)).ctr (s.rx.ctrLevel d) =
      s.rx.path d + 1 := by
    cases d with
    | zero => rfl
    | succ d =>
      obtain rfl | rfl | rfl : d = 0 ∨ d = 1 ∨ d = 2 := by have := h.le; omega
      · exact congrArg Payload.subPayloadLen (setAt_same ..)
      · exact congrArg Payload.subPayloadLen (setAt_same ..)
      · exact congrArg Payload.subPayloadLen (setAt_same ..)
  unfold nextEntry modifyCur RxBuf.modify
  dsimp only
  rw [h.cur, hmod, PayloadSt.cur]
  dsimp only
  rw [h.idx, hcur, h.ptr]
  split
  · rw [Option.map_some, nextSt, ← h.ptr, ← h.idx]
  · rfl

/-- The counter the comma moves is in the entry above, or is `Payload_len`. -/
theorem setCtr_get (h : s.Stands d) (n : Nat) (a : Arr) (i : Nat) :
    Same ((s.rx.setCtr (s.rx.ctrLevel d) n).get a i) (s.rx.get a i) ∧
      (a = .level d → (s.rx.setCtr (s.rx.ctrLevel d) n).get a i = s.rx.get a i) := by
  cases d with
  | zero => cases a <;> exact ⟨.refl _, fun _ => rfl⟩
  | succ d =>
    rw [RxBuf.setCtr_succ _ (by have := h.le; omega), RxBuf.get_set]
    have hne : Arr.level d ≠ .level (d + 1) := Arr.level_ne h.le (Nat.lt_succ_self d)
    split
    · rename_i heq
      refine ⟨?_, fun ha => absurd (heq.1.symm.trans ha) hne⟩
      rw [heq.1, heq.2]
      exact ⟨rfl, rfl, rfl⟩
    · exact ⟨.refl _, fun _ => rfl⟩

theorem setCtr_path (h : s.Stands d) (n : Nat) :
    (∀ k < d, (s.rx.setCtr (s.rx.ctrLevel d) n).path k = s.rx.path k) ∧
      (s.rx.setCtr (s.rx.ctrLevel d) n).path d = n := by
  cases d with
  | zero => exact ⟨fun k hk => absurd hk (Nat.not_lt_zero k), rfl⟩
  | succ d =>
    rw [RxBuf.setCtr_succ _ (by have := h.le; omega)]
    have hbelow : ∀ k ≤ d, (s.rx.set (.level d) (s.rx.path d)
        { s.rx.entry d with subPayloadLen := n }).path k = s.rx.path k := by
      refine RxBuf.path_congr (RxBuf.set_payloadLen ..) fun k hk => ?_
      rw [RxBuf.get_set_ne _ _ fun heq => Arr.level_ne (by have := h.le; omega) hk heq.1]
      rfl
    refine ⟨fun k hk => hbelow k (Nat.le_of_lt_succ hk), ?_⟩
    rw [RxBuf.path, hbelow d (Nat.le_refl d), RxBuf.get_set_same]

/-- The paths after a counted comma. -/
theorem nextSt_path (h : s.Stands d) : (∀ k < d, (s.nextSt d).rx.path k = s.rx.path k) ∧
    (s.nextSt d).rx.path d = s.rx.path d + 1 ∧ (s.nextSt d).rx.path (d + 1) = 0 := by
  obtain ⟨hbelow, hat⟩ := setCtr_path h (s.rx.path d + 1)
  have hpath : ∀ k ≤ d, (s.nextSt d).rx.path k =
      (s.rx.setCtr (s.rx.ctrLevel d) (s.rx.path d + 1)).path k := by
    refine RxBuf.path_congr (by unfold nextSt; exact RxBuf.set_payloadLen ..) fun k hk => ?_
    unfold nextSt
    rw [RxBuf.get_set_ne _ _ fun heq => Arr.level_ne h.le hk heq.1]
    rfl
  refine ⟨fun k hk => (hpath k hk.le).trans (hbelow k hk), (hpath d (Nat.le_refl d)).trans hat, ?_⟩
  rw [RxBuf.path, hpath d (Nat.le_refl d), hat]
  unfold nextSt
  rw [RxBuf.get_set_same]

theorem nextSt_keeps (h : s.Stands d) : Keeps d s (s.nextSt d) where
  path := (nextSt_path h).1
  type := fun _ _ => rfl
  entry := fun k hk i => by
    unfold nextSt
    rw [RxBuf.get_set_ne _ _ fun heq => Arr.level_ne h.le hk heq.1]
    exact (setCtr_get h _ _ _).1

/-- The other entries of the level stay. -/
theorem nextSt_entry (h : s.Stands d) {i : Nat} (hi : i ≠ s.rx.path d + 1) :
    (s.nextSt d).rx.get (.level d) i = s.rx.get (.level d) i := by
  unfold nextSt
  rw [RxBuf.get_set_ne _ _ fun heq => hi heq.2]
  exact (setCtr_get h _ _ _).2 rfl

theorem nextSt_stands (h : s.Stands d) (hlt : s.rx.path d + 1 < (Arr.level d).cap) :
    (s.nextSt d).Stands d := by
  obtain ⟨hbelow, hat, hsub⟩ := nextSt_path h
  refine ⟨h.le, h.depth, h.ptr, ?_, fun k hk => ?_, ?_, fun k hk => ?_⟩
  · rw [RxBuf.ctrLevel_congr hbelow h.le]
    exact h.idx
  · rw [RxBuf.entry, hbelow k hk, ((nextSt_keeps h).entry k hk _).link]
    exact h.link k hk
  · cases d with
    | zero => rw [hat]; exact hlt
    | succ d => rw [hbelow 0 (Nat.succ_pos d)]; exact h.top
  · rcases Nat.lt_or_eq_of_le hk with hk | rfl
    · rcases Nat.lt_or_eq_of_le (Nat.succ_le_of_lt hk) with hk' | rfl
      · rw [hbelow (k + 1) hk']
        exact h.sub k hk.le
      · rw [hat]
        obtain rfl | rfl | rfl : k = 0 ∨ k = 1 ∨ k = 2 := by have := h.le; omega
        · exact hlt
        · exact hlt
        · exact hlt
    · rw [hsub]
      decide

/-- The state after a container is opened. -/
def enterSt (s : PayloadSt) (d : Nat) : PayloadSt :=
  { s with
      depth := d + 1, ptr := .level (d + 1), idx := s.rx.ctrLevel (d + 1)
      rx := (s.rx.clear (.level (d + 1))).set (.level d) (s.rx.path d)
        { s.rx.entry d with subPayload := .level (d + 1) } }

/-- **Opening a container** inside the current entry. -/
theorem enter_stands (h : s.Stands d) (hd : d < 3) : s.enter = some (s.enterSt d) := by
  have htop : s.rx.msg.payloadLen < payloadCap := h.top
  unfold enter
  rw [h.depth]
  obtain rfl | rfl | rfl : d = 0 ∨ d = 1 ∨ d = 2 := by omega
  · exact congrArg (Option.map _) (if_pos htop)
  · have hj : (s.rx.msg.payload s.rx.msg.payloadLen).subPayloadLen < subPayloadCap :=
      h.sub 0 (by omega)
    have hlink : (s.rx.msg.payload s.rx.msg.payloadLen).subPayload = .sub1 := h.link 0 (by omega)
    refine (if_pos htop).trans ?_
    dsimp only
    rw [hlink]
    exact congrArg (Option.map _) (if_pos hj)
  · have hj : (s.rx.msg.payload s.rx.msg.payloadLen).subPayloadLen < subPayloadCap :=
      h.sub 0 (by omega)
    have hlink : (s.rx.msg.payload s.rx.msg.payloadLen).subPayload = .sub1 := h.link 0 (by omega)
    have hk : (s.rx.sub1 (s.rx.msg.payload s.rx.msg.payloadLen).subPayloadLen).subPayloadLen <
        subPayloadCap := h.sub 1 (by omega)
    have hlink' : (s.rx.sub1 (s.rx.msg.payload s.rx.msg.payloadLen).subPayloadLen).subPayload =
        .sub2 := h.link 1 (by omega)
    refine (if_pos htop).trans ((if_pos hj).trans ?_)
    dsimp only
    rw [hlink]
    refine (congrArg (fun q => (RxBuf.derefArr q).bind _) hlink').trans ?_
    exact congrArg (Option.map _) (if_pos hk)

/-- There is no fourth level. -/
theorem enter_full (h : s.Stands 3) : s.enter = none := by
  unfold enter
  rw [h.depth]
  rfl

theorem enterSt_get (s : PayloadSt) (d : Nat) (a : Arr) (i : Nat) :
    (s.enterSt d).rx.get a i = if a = .level d ∧ i = s.rx.path d then
        { s.rx.entry d with subPayload := .level (d + 1) }
      else if a = .level (d + 1) then .zero else s.rx.get a i := by
  unfold enterSt
  rw [RxBuf.get_set, RxBuf.get_clear]

theorem enterSt_path (h : s.Stands d) (hd : d < 3) :
    (∀ k ≤ d + 1, (s.enterSt d).rx.path k = s.rx.path k) ∧ (s.enterSt d).rx.path (d + 2) = 0 := by
  have hne : Arr.level d ≠ .level (d + 1) := Arr.level_ne (by omega) (Nat.lt_succ_self d)
  have hpath : ∀ k ≤ d + 1, (s.enterSt d).rx.path k = s.rx.path k := by
    refine RxBuf.path_congr (by unfold enterSt; simp) fun k hk => ?_
    rw [enterSt_get s d]
    split
    · rename_i heq
      obtain rfl : k = d := by
        by_contra hkd
        exact Arr.level_ne (by omega) (by omega : k < d) heq.1
      rfl
    · rw [if_neg]
      · rfl
      · intro heq
        exact Arr.level_ne (by omega) hk heq
  refine ⟨hpath, ?_⟩
  rw [RxBuf.path, hpath (d + 1) (Nat.le_refl _), enterSt_get s d, if_neg fun heq => hne heq.1.symm,
    if_pos rfl]
  rfl

theorem enterSt_keeps (h : s.Stands d) (hd : d < 3) : Keeps d s (s.enterSt d) where
  path := fun k hk => (enterSt_path h hd).1 k (by omega)
  type := fun _ _ => rfl
  entry := fun k hk i => by
    rw [enterSt_get s d, if_neg fun heq => Arr.level_ne h.le hk heq.1,
      if_neg fun heq => Arr.level_ne (by omega) (hk.trans (Nat.lt_succ_self d)) heq]
    exact .refl _

theorem enterSt_stands (h : s.Stands d) (hd : d < 3) : (s.enterSt d).Stands (d + 1) := by
  obtain ⟨hpath, hsub⟩ := enterSt_path h hd
  refine ⟨hd, rfl, rfl, ?_, fun k hk => ?_, ?_, fun k hk => ?_⟩
  · exact (RxBuf.ctrLevel_congr (fun k hk => hpath k hk.le) hd).symm
  · rw [RxBuf.entry, hpath k hk.le, enterSt_get s d]
    split
    · rename_i heq
      obtain rfl : k = d := by
        by_contra hkd
        exact Arr.level_ne h.le (by omega : k < d) heq.1
      rfl
    · rename_i hne
      have hkd : k < d := by
        by_contra hkd
        obtain rfl : k = d := by omega
        exact hne ⟨rfl, rfl⟩
      rw [if_neg fun heq => Arr.level_ne (by omega) hk heq]
      exact h.link k hkd
  · rw [hpath 0 (Nat.zero_le _)]
    exact h.top
  · rcases Nat.lt_or_eq_of_le hk with hk | rfl
    · rw [hpath (k + 1) (by omega)]
      exact h.sub k (by omega)
    · rw [hsub]
      decide

/-- **Leaving a container**: back to the level around it. -/
theorem leave_stands (h : s.Stands (d + 1)) :
    s.leave = { s with depth := d, ptr := .level d, idx := s.rx.ctrLevel d } := by
  unfold leave
  rw [h.depth]
  obtain rfl | rfl | rfl : d = 0 ∨ d = 1 ∨ d = 2 := by have := h.le; omega
  · rfl
  · rfl
  · rfl

theorem Stands.leave (h : s.Stands (d + 1)) : s.leave.Stands d := by
  rw [leave_stands h]
  exact ⟨by have := h.le; omega, rfl, rfl, rfl, fun k hk => h.link k (by omega), h.top,
    fun k hk => h.sub k (by omega)⟩

end Operations

end PayloadSt

end ChargePoint
