import ChargePoint.Codec.Json

/-!
# What the parser makes of a phrase

`Json.reads` is the induction over the syntax: for each kind of phrase, exactly when
`Parse_Payload` gets through it, and where it stands then. The invariant is `Sits`: the level,
the counters of the level and of the entry in use, whether an array was opened, and the kind
of the level. It is carried from phrase to phrase by the rules of `Tokens.lean`.
-/

set_option autoImplicit false

namespace ChargePoint

open CStr Reading PayloadSt

/-! ## Where the parser sits -/

/-- At level `d`, in entry `c`, whose own counter is `e`; `a`: an array was opened; `t`: the
level is an object or an array. -/
structure PayloadSt.Sits (s : PayloadSt) (d c e : Nat) (a : Bool) (t : ParsType) : Prop where
  stands : s.Stands d
  count : s.rx.path d = c
  sub : s.rx.path (d + 1) = e
  arr : s.arrStart = a
  type : s.parsType d = t

/-- The entry in use was changed by `f`, but for its counter, and nothing else at this level or
above. -/
structure PayloadSt.Sets (d : Nat) (f : Payload → Payload) (s s' : PayloadSt) : Prop where
  keeps : Keeps d s s'
  entry : Same (s'.rx.get (.level d) (s.rx.path d)) (f (s.rx.entry d))
  other : ∀ i, i ≠ s.rx.path d → Same (s'.rx.get (.level d) i) (s.rx.get (.level d) i)

section Rules
variable {s s' s₁ s₂ : PayloadSt} {l : Char} {d c e : Nat} {a : Bool} {t : ParsType}
variable {f : Payload → Payload}

theorem PayloadSt.sets_filled {n : Nat} {q : PayloadStep} (h : s.Stands d) (hf : KeepsLen f) :
    Sets d f s (s.filled d f n q) where
  keeps := filled_keeps h hf
  entry := by
    unfold filled
    rw [RxBuf.get_set_same]
    exact .refl _
  other := fun i hi => by
    unfold filled
    rw [RxBuf.get_set_ne _ _ fun heq => hi heq.2]
    exact .refl _

theorem PayloadSt.Sits.filled {n : Nat} {q : PayloadStep} (h : s.Sits d c e a t)
    (hf : KeepsLen f) : (s.filled d f n q).Sits d c e a t :=
  ⟨h.stands.filled hf, (filled_path hf d).trans h.count, (filled_path hf (d + 1)).trans h.sub,
    h.arr, h.type⟩

/-- The step and `str_index` do not matter to where the parser sits. -/
theorem PayloadSt.Sits.restep (h : s.Sits d c e a t) (q : PayloadStep) (n : Nat) :
    ({ s with step := q, strIndex := n } : PayloadSt).Sits d c e a t :=
  ⟨h.stands.congr rfl rfl rfl (fun _ _ => rfl) (h.stands.sub d (Nat.le_refl d)) (fun _ _ => rfl),
    h.count, h.sub, h.arr, h.type⟩

/-! ## Opening and closing

A bracket takes the parser a level down, to the table below the entry in use, or back up to that
entry. What has been filled in above is untouched by either. -/

/-- The state inside a container of kind `k`. -/
def PayloadSt.opened (s : PayloadSt) (d : Nat) (k : ParsType) : PayloadSt :=
  match k with
  | .obj => ({ s.enterSt d with step := .key }).setParsType .obj
  | .arr => ({ s.enterSt d with step := .value, arrStart := true, strIndex := 0 }).setParsType .arr

/-- The step in which a container of kind `k` begins. -/
def firstStep : ParsType → PayloadStep
  | .obj => .key
  | .arr => .value

/-- The bracket that opens it. -/
def openChar : ParsType → Char
  | .obj => '{'
  | .arr => '['

theorem parses_open (h : s.Stands d) (hd : d < 3) (hstep : s.step = .value) (k : ParsType) :
    Parses True s l [openChar k] fun s' => s' = s.opened d k := by
  have hfeed : s.feed l (openChar k) = some (.next (s.opened d k)) := by
    unfold PayloadSt.feed
    rw [hstep]
    cases k with
    | obj =>
      show Option.map _ s.enter = _
      rw [enter_stands h hd]
      rfl
    | arr =>
      show Option.map _ s.enter = _
      rw [enter_stands h hd]
      rfl
  refine Parses.next (fun hc => ?_) hfeed (Reads.nil rfl)
  cases k <;> exact absurd hc.1 (by decide)

theorem PayloadSt.opened_rx (s : PayloadSt) (d : Nat) (k : ParsType) :
    (s.opened d k).rx = (s.enterSt d).rx := by
  cases k <;> rfl

theorem PayloadSt.opened_step (s : PayloadSt) (d : Nat) (k : ParsType) :
    (s.opened d k).step = firstStep k := by
  cases k <;> rfl

theorem PayloadSt.opened_type (s : PayloadSt) {d i : Nat} (k : ParsType) (hi : i ≤ d) :
    (s.opened d k).parsType i = s.parsType i := by
  have hne : ¬ i = d + 1 := by omega
  cases k <;> exact if_neg hne

/-- **Inside a container.** -/
theorem PayloadSt.Sits.opened (h : s.Sits d c e a t) (hd : d < 3) (k : ParsType) :
    (s.opened d k).Sits (d + 1) e 0 (a || decide (k = .arr)) k := by
  obtain ⟨hpath, hsub⟩ := enterSt_path h.stands hd
  have hrx := s.opened_rx d k
  have hs := enterSt_stands h.stands hd
  refine ⟨hs.congr ?_ ?_ ?_ (fun i _ => by rw [hrx]) ?_ (fun i _ => by rw [hrx]), ?_, ?_, ?_, ?_⟩
  · cases k <;> rfl
  · cases k <;> rfl
  · cases k <;> rfl
  · rw [hrx]
    exact hs.sub (d + 1) (Nat.le_refl _)
  · rw [hrx, hpath (d + 1) (Nat.le_refl _), h.sub]
  · rw [hrx, hsub]
  · rw [← h.arr]
    cases k
    · exact (Bool.or_false _).symm
    · exact (Bool.or_true _).symm
  · cases k <;> exact if_pos rfl

/-- The step after a container in an enclosing level of kind `t` that is closed in a step other
than `after`. -/
def resumeStep : ParsType → PayloadStep
  | .obj => .key
  | .arr => .value

/-- What closing does: back to the level around, nothing else. -/
structure PayloadSt.Closed (d : Nat) (s s' : PayloadSt) : Prop where
  stands : s'.Stands d
  rx : s'.rx = s.rx
  arr : s'.arrStart = s.arrStart
  type : s'.parsType = s.parsType
  step : s'.step = if s.step = .after then .after else resumeStep (s.parsType d)

theorem PayloadSt.Stands.leave_resume (h : s.Stands (d + 1)) (hne : s.step ≠ .after) :
    Closed d s s.leave.resume := by
  have hleave := h.leave
  rw [leave_stands h] at hleave ⊢
  have hresume : ∀ u : PayloadSt, u.Stands d → u.rx = s.rx → u.arrStart = s.arrStart →
      u.parsType = s.parsType → u.depth = d → Closed d s u.resume := by
    intro u hu hrx harr htype hdepth
    have hkeep : ∀ q n, ({ u with step := q, strIndex := n } : PayloadSt).Stands d :=
      fun q n => hu.congr rfl rfl rfl (fun _ _ => rfl) (hu.sub d (Nat.le_refl d)) (fun _ _ => rfl)
    unfold PayloadSt.resume
    split
    · rename_i hobj
      rw [hdepth, htype] at hobj
      exact ⟨hkeep .key u.strIndex, hrx, harr, htype, by rw [if_neg hne, hobj]; rfl⟩
    · rename_i harray
      rw [hdepth, htype] at harray
      exact ⟨hkeep .value 0, hrx, harr, htype, by rw [if_neg hne, harray]; rfl⟩
  exact hresume _ hleave rfl rfl rfl rfl

/-- The bracket that closes a container. -/
def closeChar : ParsType → Char
  | .obj => '}'
  | .arr => ']'

/-- **Closing a container.** -/
theorem parses_close (k : ParsType) (h : s.Stands (d + 1)) (harr : k = .arr → s.arrStart = true)
    (hstep : s.step = .after ∨ s.step = .value ∨ k = .obj ∧ s.step = .key) :
    Parses True s l [closeChar k] fun s' => Closed d s s' := by
  have hdepth : ¬ s.depth = 0 := by
    rw [h.depth]
    exact Nat.succ_ne_zero d
  have hhalt : ¬ Halts s (closeChar k) := by
    rintro ⟨hc, hno⟩
    cases k with
    | obj => exact absurd hc (by decide)
    | arr =>
      rw [harr rfl] at hno
      exact absurd hno (by simp)
  rcases hstep with hafter | hvalue | ⟨rfl, hkey⟩
  · have hfeed : s.feed l (closeChar k) = some (.next s.leave) := by
      unfold PayloadSt.feed
      rw [hafter]
      cases k <;> exact if_neg hdepth
    refine Parses.next hhalt hfeed (Reads.nil ?_)
    have hleave := h.leave
    rw [leave_stands h] at hleave ⊢
    exact ⟨hleave, rfl, rfl, rfl, (if_pos hafter).symm ▸ hafter⟩
  · have hfeed : s.feed l (closeChar k) = some (.next s.leave.resume) := by
      unfold PayloadSt.feed
      rw [hvalue]
      cases k <;> exact if_neg hdepth
    exact Parses.next hhalt hfeed (Reads.nil (h.leave_resume (by rw [hvalue]; decide)))
  · have hkeep : ({ s with strIndex := 0 } : PayloadSt).Stands (d + 1) :=
      h.congr rfl rfl rfl (fun _ _ => rfl) (h.sub _ (Nat.le_refl _)) (fun _ _ => rfl)
    have hfeed : s.feed l (closeChar .obj) =
        some (.next ({ s with strIndex := 0 } : PayloadSt).leave.resume) := by
      unfold PayloadSt.feed
      rw [hkey]
      exact if_neg hdepth
    refine Parses.next hhalt hfeed (Reads.nil ?_)
    have hclosed := hkeep.leave_resume (by rw [hkey]; decide)
    exact ⟨hclosed.stands, hclosed.rx, hclosed.arr, hclosed.type, hclosed.step⟩

/-- The link to the table below. -/
def linked (d : Nat) (p : Payload) : Payload := { p with subPayload := .level (d + 1) }

/-- **A container as a whole**: opened, filled, closed. Its entry is linked, and its counter is
what the container left. -/
theorem PayloadSt.Sits.container {e' e'' : Nat} {a' : Bool} {k : ParsType} (h : s.Sits d c e a t)
    (hd : d < 3) (hin : Keeps (d + 1) (s.opened d k) s₁) (hs₁ : s₁.Sits (d + 1) e' e'' a' k)
    (hclosed : Closed d s₁ s₂) : s₂.Sits d c e' a' t ∧ Sets d (linked d) s s₂ ∧
      s₂.step = if s₁.step = .after then .after else resumeStep t := by
  obtain ⟨hpath, -⟩ := enterSt_path h.stands hd
  have hrx := s.opened_rx d k
  have hpath₁ : ∀ i ≤ d, s₁.rx.path i = s.rx.path i := by
    intro i hi
    rw [hin.path i (by omega), hrx, hpath i (by omega)]
  have htype : s₁.parsType d = t := by
    rw [hin.type d (Nat.lt_succ_self d), s.opened_type k (Nat.le_refl d), h.type]
  have hentry : ∀ i, Same (s₂.rx.get (.level d) i) ((s.enterSt d).rx.get (.level d) i) := by
    intro i
    rw [hclosed.rx, ← hrx]
    exact hin.entry d (Nat.lt_succ_self d) i
  refine ⟨⟨hclosed.stands, ?_, ?_, ?_, ?_⟩, ⟨⟨?_, ?_, ?_⟩, ?_, ?_⟩, ?_⟩
  · rw [hclosed.rx, hpath₁ d (Nat.le_refl d), h.count]
  · rw [hclosed.rx, hs₁.count]
  · rw [hclosed.arr, hs₁.arr]
  · rw [hclosed.type, htype]
  · intro i hi
    rw [hclosed.rx, hpath₁ i hi.le]
  · intro i hi
    rw [hclosed.type, hin.type i (by omega), s.opened_type k hi.le]
  · intro i hi j
    have hkeep := hin.entry i (by omega) j
    rw [hrx] at hkeep
    rw [hclosed.rx]
    exact hkeep.trans ((enterSt_keeps h.stands hd).entry i hi j)
  · have heq := hentry (s.rx.path d)
    rwa [enterSt_get, if_pos ⟨rfl, rfl⟩] at heq
  · intro i hi
    have heq := hentry i
    rwa [enterSt_get, if_neg fun hc => hi hc.2,
      if_neg fun hc => Arr.level_ne (by omega) (Nat.lt_succ_self d) hc] at heq
  · rw [hclosed.step, htype]

/-! ## Commas -/

/-- The step in which the next member or element begins. -/
theorem nextSt_sits (h : s.Sits d c e a t) (hlt : c + 1 < (Arr.level d).cap) :
    (s.nextSt d).Sits d (c + 1) 0 a t := by
  obtain ⟨-, hat, hsub⟩ := nextSt_path h.stands
  refine ⟨nextSt_stands h.stands (by rwa [h.count]), ?_, hsub, h.arr, h.type⟩
  rw [hat, h.count]

/-- What a counted comma leaves: the next entry, the others as they were. -/
structure PayloadSt.Advanced (d c : Nat) (a : Bool) (t : ParsType) (s s' : PayloadSt) : Prop where
  sits : s'.Sits d (c + 1) 0 a t
  keeps : Keeps d s s'
  other : ∀ i, i ≠ c + 1 → s'.rx.get (.level d) i = s.rx.get (.level d) i

/-- **A counted comma**: it needs a next entry. -/
theorem parses_comma (h : s.Sits d c e a t)
    (hstep : s.step = .after ∨ s.step = .value ∧ t = .obj) :
    Parses (c + 1 < (Arr.level d).cap) s l [','] fun s' =>
      Advanced d c a t s s' ∧ s'.step = firstStep t := by
  have hhalt : ¬ Halts s ',' := fun hc => absurd hc.1 (by decide)
  have hnext := nextEntry_stands h.stands
  rw [h.count] at hnext
  by_cases hlt : c + 1 < (Arr.level d).cap
  · rw [if_pos hlt] at hnext
    have hsits := nextSt_sits h hlt
    have hother : ∀ i, i ≠ c + 1 → (s.nextSt d).rx.get (.level d) i = s.rx.get (.level d) i :=
      fun i hi => nextSt_entry h.stands (by rwa [h.count])
    have hkeeps := nextSt_keeps h.stands
    have hadv : ∀ q n, Advanced d c a t s { s.nextSt d with step := q, strIndex := n } :=
      fun q n => ⟨hsits.restep q n, ⟨hkeeps.path, hkeeps.type, hkeeps.entry⟩, hother⟩
    have hdone : ∀ {u : PayloadSt}, s.feed l ',' = some (.next u) → Advanced d c a t s u →
        u.step = firstStep t →
        Parses (c + 1 < (Arr.level d).cap) s l [','] fun s' =>
          Advanced d c a t s s' ∧ s'.step = firstStep t :=
      fun hfeed hu hst => (Parses.next hhalt hfeed (Reads.nil ⟨hu, hst⟩)).congr
        ⟨fun _ => hlt, fun _ => trivial⟩
    -- behind the comma an object goes on with a key, an array with a value
    rcases hstep with hafter | ⟨hvalue, rfl⟩
    · cases t with
      | obj =>
        refine hdone (u := { s.nextSt d with step := .key, strIndex := s.strIndex }) ?_ (hadv _ _) rfl
        unfold PayloadSt.feed
        rw [hafter]
        dsimp only
        rw [if_pos rfl, hnext, Option.map_some, hsits.stands.depth, hsits.type]
        rfl
      | arr =>
        refine hdone (u := { s.nextSt d with step := .value, strIndex := 0 }) ?_ (hadv _ _) rfl
        unfold PayloadSt.feed
        rw [hafter]
        dsimp only
        rw [if_pos rfl, hnext, Option.map_some, hsits.stands.depth, hsits.type]
    · refine hdone (u := { s.nextSt d with step := .key, strIndex := s.strIndex }) ?_ (hadv _ _) rfl
      unfold PayloadSt.feed
      rw [hvalue]
      show Option.map _ s.nextEntry = _
      rw [hnext]
      rfl
  · rw [if_neg hlt] at hnext
    -- there is no entry left in the level, and the parser goes past it
    refine (Parses.undefined hhalt ?_).congr ⟨False.elim, fun h => hlt h⟩
    unfold PayloadSt.feed
    rcases hstep with hafter | ⟨hvalue, -⟩
    · rw [hafter]
      dsimp only
      rw [if_pos rfl, hnext]
      rfl
    · rw [hvalue]
      show Option.map _ s.nextEntry = _
      rw [hnext]
      rfl

/-- **The comma that is not counted.** -/
theorem parses_ignored (hstep : s.step = .key) :
    Parses True s l [','] fun s' => s' = { s with strIndex := 0 } := by
  refine Parses.next (fun hc => absurd hc.1 (by decide)) ?_ (Reads.nil rfl)
  unfold PayloadSt.feed
  rw [hstep]
  rfl

/-! ## Changes in sequence -/

theorem PayloadSt.Keeps.source (h : Keeps d s s') (hrx : s₁.rx = s.rx)
    (htype : s₁.parsType = s.parsType) : Keeps d s₁ s' :=
  ⟨fun i hi => by rw [hrx, h.path i hi], fun i hi => by rw [htype, h.type i hi],
    fun i hi j => by rw [hrx]; exact h.entry i hi j⟩

theorem PayloadSt.Sets.source (h : Sets d f s s') (hrx : s₁.rx = s.rx)
    (htype : s₁.parsType = s.parsType) : Sets d f s₁ s' :=
  ⟨h.keeps.source hrx htype, by rw [hrx]; exact h.entry, fun i hi => by
    rw [hrx] at hi ⊢
    exact h.other i hi⟩

/-- Only what the change makes of the entry at hand matters. -/
theorem PayloadSt.Sets.congr {g : Payload → Payload} (h : Sets d f s s')
    (hfg : f (s.rx.entry d) = g (s.rx.entry d)) : Sets d g s s' :=
  ⟨h.keeps, hfg ▸ h.entry, h.other⟩

/-- Contents stored from the first character on, into an entry that had none. -/
theorem PayloadSt.sets_contents (cs : List Char) {q : PayloadStep} (h : s.Stands d)
    (hnil : (s.rx.entry d).propertyContants = []) (hidx : s.strIndex = 0) :
    Sets d (fun p => { p with propertyContants := stored cs }) s (s.contents d cs q) := by
  have hset := sets_filled (n := (storeFrom [] s.strIndex cs).2) (q := q)
    (f := fun p => { p with
      propertyContants := (storeFrom p.propertyContants s.strIndex cs).1 }) h fun _ => rfl
  refine hset.congr ?_
  show { s.rx.entry d with
    propertyContants := (storeFrom (s.rx.entry d).propertyContants s.strIndex cs).1 } = _
  rw [hnil, hidx]
  rfl

/-- Filling the entry and then changing it again. -/
theorem PayloadSt.Sets.after_filled {g : Payload → Payload} {n : Nat} {q : PayloadStep}
    (h : s.Stands d) (hf : KeepsLen f) (hset : Sets d g (s.filled d f n q) s') :
    Sets d (fun p => g (f p)) s s' := by
  have hfill := sets_filled (n := n) (q := q) h hf
  have hpath := filled_path (s := s) (d := d) (n := n) (q := q) hf d
  refine ⟨hfill.keeps.trans hset.keeps, ?_, fun i hi => ?_⟩
  · have hentry := hset.entry
    rw [hpath, filled_entry hf] at hentry
    exact hentry
  · exact (hset.other i (by rwa [hpath])).trans (hfill.other i hi)

end Rules

/-! ## The induction

`Spec` has a clause for each kind of phrase, and they are not alike. An object or an array starts
with its bracket and ends behind its own; members and elements start with the parser in front of
them and end in front of the closing bracket, with the counter where the last of them left it. -/

/-- Entry `p` at level `d` holds the member: its name, and its contents or the link to its
table. -/
def Kept (d : Nat) (name : Name) (v : Json .val) (p : Payload) : Prop :=
  p.propertyName = name.chars ∧
    match v with
    | .str _ s => p.propertyContants = stored s.chars
    | .num _ n => p.propertyContants = stored n.digits
    | .nested _ | .arr .. => p.propertyContants = [] ∧ p.subPayload = .level (d + 1)

/-- Every value but the last is followed by a comma that is counted. -/
def Json.allCounted : Json .members → Bool
  | .noMember => true
  | .member _ _ _ v _ rest => (rest.isEnd || v.counted) && rest.allCounted

/-- What the table of the level holds after the members: what it held before entry `c`, and
then, if every comma was counted, the members in order. -/
structure Listed (d c : Nat) (ms : Json .members) (s s' : PayloadSt) : Prop where
  before : ∀ i < c, Same (s'.rx.get (.level d) i) (s.rx.get (.level d) i)
  member : ms.allCounted = true → ∀ i name v, ms.list[i]? = some (name, v) →
    Kept d name v (s'.rx.get (.level d) (c + i))

/-- **What the parser makes of a phrase**, by kind. -/
def Json.Spec : {k : Phrase} → Json k → Prop
  | .val, v => ∀ {s : PayloadSt} {l : Char} {d c e : Nat} {a : Bool}, v.levels + d ≤ 3 →
      v.aligned = true → s.Sits d c e a .obj → s.step = .value → s.strIndex = 0 →
      (s.rx.entry d).propertyContants = [] →
      Parses ((a = true ∨ v.early = false) ∧ (v.fill 0 0 e).isSome = true) s l v.text fun s' =>
        ∃ e', v.fill 0 0 e = some e' ∧ s'.Sits d c e' (a || v.hasArr) .obj ∧
          Sets d (v.entry d) s s' ∧ s'.step = v.stepAfter
  | .obj, o => ∀ {s : PayloadSt} {l : Char} {d c e : Nat} {a : Bool} {t : ParsType},
      o.levels + d ≤ 3 → o.aligned = true → s.Sits d c e a t → s.step = .value →
      Parses ((a = true ∨ o.early = false) ∧ (o.fill 0 0 e).isSome = true) s l o.text fun s' =>
        ∃ e', o.fill 0 0 e = some e' ∧ s'.Sits d c e' (a || o.hasArr) t ∧
          Sets d (linked d) s s' ∧ s'.step = if o.isAfter then .after else resumeStep t
  | .members, ms => ∀ {s : PayloadSt} {l : Char} {d c e : Nat} {a : Bool}, ms.levels + d ≤ 3 →
      ms.aligned = true → s.Sits d c e a .obj → s.step = .key →
      Parses ((a = true ∨ ms.early = false) ∧ (ms.fill (Arr.level d).cap c e).isSome = true)
        s l ms.text fun s' =>
          ∃ c' e', ms.fill (Arr.level d).cap c e = some c' ∧ s'.Sits d c' e' (a || ms.hasArr) .obj ∧
            Keeps d s s' ∧ (s'.step = .after ↔ ms.isAfter = true) ∧
            (s'.step = .after ∨ s'.step = .value ∨ s'.step = .key) ∧ Listed d c ms s s'
  | .elems, es => ∀ {s : PayloadSt} {l : Char} {d c : Nat}, es.levels + d ≤ 3 →
      es.aligned = true → s.Sits d c 0 true .arr → s.step = .value →
      Parses ((es.fill (Arr.level d).cap c 0).isSome = true) s l es.text fun s' =>
        ∃ c' e', es.fill (Arr.level d).cap c 0 = some c' ∧ s'.Sits d c' e' true .arr ∧
          Keeps d s s' ∧ (s'.step = .after ↔ es.isAfter = true) ∧
          (s'.step = .after ∨ s'.step = .value)

theorem cap_succ {d : Nat} (hd : d < 3) : (Arr.level (d + 1)).cap = subPayloadCap := by
  obtain rfl | rfl | rfl : d = 0 ∨ d = 1 ∨ d = 2 := by omega
  · rfl
  · rfl
  · rfl

namespace Json

/-- A string between its quotes, in an object or an array. -/
theorem string_reads {s : PayloadSt} {l : Char} {d c e : Nat} {a : Bool} {t : ParsType} (x : Str)
    (hs : s.Sits d c e a t) (hstep : s.step = .value) (hidx : s.strIndex = 0)
    (hnil : (s.rx.entry d).propertyContants = []) :
    Parses (a = true ∨ ']' ∉ x.chars) s l ('"' :: (x.chars ++ ['"'])) fun s' =>
      s'.Sits d c e a t ∧ Sets d (fun p => { p with propertyContants := stored x.chars }) s s' ∧
        s'.step = .after := by
  have hfeed : s.feed l '"' = some (.next { s with step := .str }) := by
    unfold PayloadSt.feed
    rw [hstep]
    rfl
  have hs₁ : ({ s with step := .str } : PayloadSt).Sits d c e a t := hs.restep .str s.strIndex
  have hread := parses_str (l := '"') hs₁.stands rfl (by decide) x.plain
  refine (Parses.next (fun hc => absurd hc.1 (by decide)) hfeed (hread.imp fun s' hs' => ?_)).congr ?_
  · refine ⟨?_, ?_, ?_⟩
    · rw [hs']
      exact hs₁.filled fun _ => rfl
    · have hset := sets_contents x.chars (q := .after) hs₁.stands hnil hidx
      rw [← hs'] at hset
      exact hset.source rfl rfl
    · rw [hs']
      rfl
  · show (s.arrStart = true ∨ _) ↔ _
    rw [hs.arr]

theorem spec_str (w : Blank) (x : Str) : (Json.str w x).Spec := by
  intro s l d c e a _ _ hs hstep hidx hnil
  refine Parses.blank w.blank (by rw [hstep]; decide) (by rw [hstep]; decide)
    (((string_reads x hs hstep hidx hnil).imp ?_).congr ?_)
  · rintro s' ⟨hs', hset, hst⟩
    refine ⟨e, rfl, ?_, hset, hst⟩
    rwa [hasArr, Bool.or_false]
  · simp [early, fill]

theorem spec_num (w : Blank) (x : Numeral) : (Json.num w x).Spec := by
  intro s l d c e a _ _ hs hstep hidx hnil
  obtain ⟨y, ys, hys⟩ := List.exists_cons_of_ne_nil x.ne_nil
  have hread := parses_num (l := l) hs.stands hstep x.isDigit
  rw [hys] at hread
  have hskip := Parses.blank w.blank (by rw [hstep]; decide) (by rw [hstep]; decide) hread
  rw [← hys] at hskip
  refine (hskip.imp fun s' hs' => ?_).congr (by simp [early, fill])
  refine ⟨e, rfl, ?_, ?_, ?_⟩
  · rw [hs', hasArr, Bool.or_false]
    exact hs.filled fun _ => rfl
  · rw [hs']
    exact sets_contents _ hs.stands hnil hidx
  · rw [hs']
    rfl

theorem spec_nested {o : Json .obj} (h : o.Spec) : (Json.nested o).Spec := by
  intro s l d c e a hlev hal hs hstep _ _
  refine (h hlev hal hs hstep).imp ?_
  rintro s' ⟨e', hfill, hs', hset, hst⟩
  exact ⟨e', hfill, hs', hset, hst⟩

/-- A container: its bracket, what is inside, its other bracket. -/
theorem container_reads {s : PayloadSt} {l : Char} {d c e : Nat} {a : Bool} {t : ParsType}
    (k : ParsType) {w v : Blank} {inner : List Char} {ok : Prop} {g : Option Nat} {a' b : Bool}
    (hd : d < 3) (hs : s.Sits d c e a t) (hstep : s.step = .value)
    (ha : k = .arr → a' = true)
    (hin : ∀ l, Parses ok (s.opened d k) l inner fun s₁ => ∃ c' e', g = some c' ∧
      s₁.Sits (d + 1) c' e' a' k ∧ Keeps (d + 1) (s.opened d k) s₁ ∧
      (s₁.step = .after ↔ b = true) ∧
      (s₁.step = .after ∨ s₁.step = .value ∨ k = .obj ∧ s₁.step = .key)) :
    Parses ok s l (w.text ++ openChar k :: (inner ++ (v.text ++ [closeChar k]))) fun s' =>
      ∃ c', g = some c' ∧ s'.Sits d c c' a' t ∧ Sets d (linked d) s s' ∧
        s'.step = if b then .after else resumeStep t := by
  refine Parses.blank w.blank (by rw [hstep]; decide) (by rw [hstep]; decide) ?_
  refine Reads.after (t := [openChar k]) (parses_open hs.stands hd hstep k) fun s₁ l₁ hs₁ => ?_
  subst hs₁
  refine ((hin l₁).append (o := True) fun s₂ l₂ h₂ => ?_).congr (and_iff_left trivial)
  obtain ⟨c', e', hg, hs₂, hkeep, hafter, hst⟩ := h₂
  refine Parses.blank v.blank ?_ ?_ ((parses_close k hs₂.stands (fun hk => hs₂.arr.trans (ha hk))
    hst).imp fun s₃ hclosed => ?_)
  · rcases hst with h | h | ⟨-, h⟩ <;> (rw [h]; decide)
  · rcases hst with h | h | ⟨-, h⟩ <;> (rw [h]; decide)
  · obtain ⟨hs₃, hset, hst₃⟩ := hs.container hd hkeep hs₂ hclosed
    refine ⟨c', hg, hs₃, hset, ?_⟩
    rw [hst₃]
    simp only [hafter]

theorem spec_arr (w : Blank) {es : Json .elems} (w' : Blank) (h : es.Spec) :
    (Json.arr w es w').Spec := by
  intro s l d c e a hlev hal hs hstep _ _
  have hlev : es.levels + 1 + d ≤ 3 := hlev
  have hopen := hs.opened (by omega) .arr
  have hcap : (Arr.level (d + 1)).cap = subPayloadCap := cap_succ (by omega)
  have hin : ∀ l, Parses ((es.fill subPayloadCap e 0).isSome = true) (s.opened d .arr) l es.text
      fun s₁ => ∃ c' e', es.fill subPayloadCap e 0 = some c' ∧ s₁.Sits (d + 1) c' e' true .arr ∧
        Keeps (d + 1) (s.opened d .arr) s₁ ∧ (s₁.step = .after ↔ es.isAfter = true) ∧
        (s₁.step = .after ∨ s₁.step = .value ∨ ParsType.arr = .obj ∧ s₁.step = .key) := by
    intro l
    have ha : (a || decide (ParsType.arr = .arr)) = true := Bool.or_true a
    rw [ha] at hopen
    have hread := h (l := l) (by omega) hal hopen (s.opened_step d .arr)
    rw [hcap] at hread
    refine hread.imp ?_
    rintro s₁ ⟨c', e', hfill, hs₁, hkeep, hafter, hst⟩
    exact ⟨c', e', hfill, hs₁, hkeep, hafter, hst.imp_right .inl⟩
  have hread := container_reads (l := l) (w := w) (v := w') .arr (by omega) hs hstep
    (fun _ => rfl) hin
  refine (hread.imp ?_).congr (by simp [early, fill])
  rintro s' ⟨c', hfill, hs', hset, hst⟩
  exact ⟨c', hfill, by rwa [hasArr, Bool.or_true], hset, hst⟩

theorem spec_braces (w : Blank) {ms : Json .members} (w' : Blank) (h : ms.Spec) :
    (Json.braces w ms w').Spec := by
  intro s l d c e a t hlev hal hs hstep
  have hlev : ms.levels + 1 + d ≤ 3 := hlev
  have hopen := hs.opened (by omega) .obj
  have ha : (a || decide (ParsType.obj = .arr)) = a := Bool.or_false a
  rw [ha] at hopen
  have hcap : (Arr.level (d + 1)).cap = subPayloadCap := cap_succ (by omega)
  refine container_reads .obj (by omega) hs hstep (fun hk => nomatch hk) fun l => ?_
  have hread := h (l := l) (by omega) hal hopen (s.opened_step d .obj)
  rw [hcap] at hread
  refine hread.imp ?_
  rintro s₁ ⟨c', e', hfill, hs₁, hkeep, hafter, hst, -⟩
  exact ⟨c', e', hfill, hs₁, hkeep, hafter, hst.imp_right (.imp_right fun h => ⟨rfl, h⟩)⟩

/-! ### Members

A member is a name, a colon and a value, each with blanks around it. Values leave the parser in
different steps (`stepAfter`): behind a string it waits for a comma, behind a number it is still
reading, and the comma ends the number. -/

/-- What a key does to the entry it goes into. -/
def named (name : Name) (p : Payload) : Payload :=
  { p with propertyName := name.chars, propertyContants := [] }

/-- A key, its quotes and the colon. -/
theorem key_reads {s : PayloadSt} {l : Char} {d : Nat} (w : Blank) (name : Name) (w₁ : Blank)
    (hs : s.Stands d) (hstep : s.step = .key) :
    Parses (s.arrStart = true ∨ ']' ∉ name.chars) s l
      (w.text ++ '"' :: ((name.chars ++ ['"']) ++ (w₁.text ++ [':'])))
      fun s' => s' = s.filled d (named name) 0 .value := by
  have hclear : KeepsLen fun p => { p with propertyName := [], propertyContants := [] } :=
    fun _ => rfl
  have hquote : s.feed l '"' = some (.next (s.filled d
      (fun p => { p with propertyName := [], propertyContants := [] }) 0 .name)) := by
    have hs₀ : ({ s with step := .key, strIndex := 0 } : PayloadSt).Stands d :=
      hs.congr rfl rfl rfl (fun _ _ => rfl) (hs.sub d (Nat.le_refl d)) (fun _ _ => rfl)
    unfold PayloadSt.feed
    rw [hstep]
    show Option.map _ (PayloadSt.clearCur { s with step := .key, strIndex := 0 }) = _
    unfold PayloadSt.clearCur
    rw [modifyCur_stands hs₀]
    rfl
  refine Parses.blank w.blank (by rw [hstep]; decide) (by rw [hstep]; decide)
    (Parses.next (fun hc => absurd hc.1 (by decide)) hquote ?_)
  have hname := parses_name (l := '"') (hs.filled (n := 0) (q := .name) hclear)
    rfl (by rw [filled_entry hclear]; rfl) (by have := name.len; show 0 + _ ≤ 60; omega)
    name.noQuote
  refine (hname.append (o := True) fun s₁ l₁ hs₁ => ?_).congr (and_iff_left trivial)
  rw [filled_filled hclear] at hs₁
  -- between the key and its value only the colon matters
  have hcolon : s₁.feed l₁ ':' = some (.next { s₁ with step := .value, strIndex := 0 }) := by
    rw [hs₁]
    rfl
  have hstep₁ : s₁.step = .colon := by
    rw [hs₁]
    rfl
  refine Parses.blank w₁.blank (by rw [hstep₁]; decide) (by rw [hstep₁]; decide)
    (Parses.next (fun hc => absurd hc.1 (by decide)) hcolon (Reads.nil ?_))
  rw [hs₁]
  rfl

theorem Kept.of_same {d : Nat} {name : Name} {v : Json .val} {p p' : Payload}
    (h : Kept d name v p') (hpq : Same p p') : Kept d name v p := by
  refine ⟨hpq.name.trans h.1, ?_⟩
  have h2 := h.2
  cases v with
  | str => exact hpq.contants.trans h2
  | num => exact hpq.contants.trans h2
  | nested => exact ⟨hpq.contants.trans h2.1, hpq.link.trans h2.2⟩
  | arr => exact ⟨hpq.contants.trans h2.1, hpq.link.trans h2.2⟩

theorem kept_entry (d : Nat) (name : Name) (v : Json .val) (p : Payload) :
    Kept d name v (v.entry d (named name p)) := by
  cases v with
  | str => exact ⟨rfl, rfl⟩
  | num => exact ⟨rfl, rfl⟩
  | nested => exact ⟨rfl, rfl, rfl⟩
  | arr => exact ⟨rfl, rfl, rfl⟩

theorem stepAfter_after (v : Json .val) : v.stepAfter = .after ↔ v.isAfter = true := by
  cases v with
  | str => simp [stepAfter, isAfter]
  | num => simp [stepAfter, isAfter]
  | nested o => cases h : o.isAfter <;> simp [stepAfter, isAfter, h]
  | arr w es w' => cases h : es.isAfter <;> simp [stepAfter, isAfter, h]

theorem stepAfter_cases (v : Json .val) :
    v.stepAfter = .after ∨ v.stepAfter = .value ∨ v.stepAfter = .key := by
  cases v with
  | str => exact .inl rfl
  | num => exact .inr (.inl rfl)
  | nested o => cases h : o.isAfter <;> simp [stepAfter, h]
  | arr w es w' => cases h : es.isAfter <;> simp [stepAfter, h]

/-- The counter after the members that follow a value. -/
def fillRest (v : Json .val) (rest : Json .members) (cap c e : Nat) : Option Nat :=
  if rest.isEnd then some c
  else if v.counted then if c + 1 < cap then rest.fill cap (c + 1) 0 else none
  else rest.fill cap c e

/-- What follows a value: nothing, or a comma and the other members. The entry the value is in
is safe from them if the comma is counted. -/
theorem rest_reads {s : PayloadSt} {l : Char} {d c e : Nat} {a : Bool} {v : Json .val} (w : Blank)
    {rest : Json .members} (h : rest.Spec) (hlev : rest.levels + d ≤ 3)
    (hal : rest.aligned = true) (hs : s.Sits d c e a .obj) (hstep : s.step = v.stepAfter) :
    Parses ((a = true ∨ rest.early = false) ∧
        (fillRest v rest (Arr.level d).cap c e).isSome = true) s l
      (if rest.isEnd then [] else (w.text ++ [',']) ++ rest.text) fun s' =>
        ∃ c' e', fillRest v rest (Arr.level d).cap c e = some c' ∧
          s'.Sits d c' e' (a || rest.hasArr) .obj ∧ Keeps d s s' ∧
          (s'.step = .after ↔ (if rest.isEnd then v.isAfter else rest.isAfter) = true) ∧
          (s'.step = .after ∨ s'.step = .value ∨ s'.step = .key) ∧
          (∀ i < c, Same (s'.rx.get (.level d) i) (s.rx.get (.level d) i)) ∧
          ((rest.isEnd || v.counted) = true →
            Same (s'.rx.get (.level d) c) (s.rx.get (.level d) c)) ∧
          ((rest.isEnd || v.counted) && rest.allCounted → ∀ i name v,
            rest.list[i]? = some (name, v) →
              Kept d name v (s'.rx.get (.level d) (c + 1 + i))) := by
  have hname : s.step ≠ .name := by
    rcases stepAfter_cases v with h | h | h <;> (rw [hstep, h]; decide)
  have hstr : s.step ≠ .str := by
    rcases stepAfter_cases v with h | h | h <;> (rw [hstep, h]; decide)
  -- the value is the last member, or a comma follows
  by_cases hend : rest.isEnd = true
  · rw [if_pos hend]
    refine (Reads.nil ⟨c, e, if_pos hend, ?_, .refl d s, ?_, ?_, fun i _ => .refl _,
      fun _ => .refl _, ?_⟩).congr ?_
    · cases rest with
      | noMember => simp [early, fillRest, isEnd]
      | member => exact absurd hend (by simp [isEnd])
    · cases rest with
      | noMember => rwa [hasArr, Bool.or_false]
      | member => exact absurd hend (by simp [isEnd])
    · rw [if_pos hend, hstep]
      exact stepAfter_after v
    · rw [hstep]
      exact stepAfter_cases v
    · intro _ i name v hi
      cases rest with
      | noMember => exact absurd hi (by simp [list])
      | member => exact absurd hend (by simp [isEnd])
  · rw [if_neg hend]
    have hend' : rest.isEnd = false := by simpa using hend
    -- behind a container whose last leaf is no string the comma is skipped, and not counted
    by_cases hcounted : v.counted = true
    · have hcomma : s.step = .after ∨ s.step = .value ∧ ParsType.obj = .obj := by
        have hne : ¬ v.stepAfter = .key := by simpa [counted] using hcounted
        rw [hstep]
        rcases stepAfter_cases v with h | h | h
        · exact .inl h
        · exact .inr ⟨h, rfl⟩
        · exact absurd h hne
      have hread := Parses.blank w.blank hname hstr (parses_comma (l := l) hs hcomma)
      have hfill : fillRest v rest (Arr.level d).cap c e =
          if c + 1 < (Arr.level d).cap then rest.fill (Arr.level d).cap (c + 1) 0 else none := by
        rw [fillRest, if_neg hend, if_pos hcounted]
      refine (hread.append (u := rest.text)
        (Q := fun s' => ∃ s₁, Advanced d c a .obj s s₁ ∧ ∃ c' e',
          rest.fill (Arr.level d).cap (c + 1) 0 = some c' ∧
          s'.Sits d c' e' (a || rest.hasArr) .obj ∧ Keeps d s₁ s' ∧
          (s'.step = .after ↔ rest.isAfter = true) ∧
          (s'.step = .after ∨ s'.step = .value ∨ s'.step = .key) ∧ Listed d (c + 1) rest s₁ s')
        fun s₁ l₁ h₁ => (h (l := l₁) hlev hal h₁.1.sits h₁.2).imp
          fun s' h' => ⟨s₁, h₁.1, h'⟩).imp_of ?_ |>.congr ?_
      · rintro ⟨hlt, -⟩ s' ⟨s₁, hadv, c', e', hc', hs', hkeep, hafter, hst, hlist⟩
        refine ⟨c', e', ?_, hs', hadv.keeps.trans hkeep, ?_, hst, ?_, ?_, ?_⟩
        · rw [hfill, if_pos hlt, hc']
        · rw [if_neg hend]
          exact hafter
        · intro i hi
          have hsame := hlist.before i (by omega)
          rwa [hadv.other i (by omega)] at hsame
        · intro _
          have hsame := hlist.before c (by omega)
          rwa [hadv.other c (by omega)] at hsame
        · intro hall
          exact hlist.member (by simpa [hend', hcounted] using hall)
      · rw [hfill]
        by_cases hlt : c + 1 < (Arr.level d).cap
        · simp [hlt]
        · simp [hlt]
    · have hkey : s.step = .key := by
        rw [hstep]
        simpa [counted] using hcounted
      have hread := Parses.blank w.blank hname hstr (parses_ignored (l := l) hkey)
      have hfill : fillRest v rest (Arr.level d).cap c e = rest.fill (Arr.level d).cap c e := by
        rw [fillRest, if_neg hend, if_neg hcounted]
      rw [hfill]
      refine hread.after fun s₁ l₁ hs₁ => ?_
      subst hs₁
      refine (h (l := l₁) hlev hal (hs.restep s.step 0) hkey).imp ?_
      rintro s' ⟨c', e', hc', hs', hkeep, hafter, hst, hlist⟩
      refine ⟨c', e', hc', hs', hkeep.source rfl rfl, ?_, hst, hlist.before, ?_, ?_⟩
      · rw [if_neg hend]
        exact hafter
      · intro hc
        exact absurd hc (by simp [hend', hcounted])
      · intro hc
        exact absurd hc (by simp [hend', hcounted])

theorem spec_noMember : Json.noMember.Spec := by
  intro s l d c e a _ _ hs hstep
  refine (Reads.nil ⟨c, e, rfl, ?_, .refl d s, ?_, .inr (.inr hstep), ⟨fun i _ => .refl _, ?_⟩⟩).congr
    (by simp [early, fill])
  · rwa [hasArr, Bool.or_false]
  · simp [hstep, isAfter]
  · intro _ i name v hi
    exact absurd hi (by simp [list])

theorem spec_member (w : Blank) (name : Name) (w₁ : Blank) {v : Json .val} (w₂ : Blank)
    {rest : Json .members} (hv : v.Spec) (hrest : rest.Spec) :
    (Json.member w name w₁ v w₂ rest).Spec := by
  intro s l d c e a hlev hal hs hstep
  have hlevels : max v.levels rest.levels + d ≤ 3 := hlev
  obtain ⟨halv, halr⟩ : v.aligned = true ∧ rest.aligned = true := by simpa [aligned] using hal
  have hkeep : KeepsLen (named name) := fun _ => rfl
  have hkey := key_reads (l := l) w name w₁ hs.stands hstep
  rw [hs.arr] at hkey
  -- the key, the value and what follows, in one step
  have hvalue : ∀ l', Parses ((a = true ∨ v.early = false) ∧ (v.fill 0 0 e).isSome = true)
      (s.filled d (named name) 0 .value) l' v.text fun s' => ∃ e', v.fill 0 0 e = some e' ∧
        s'.Sits d c e' (a || v.hasArr) .obj ∧
        Sets d (fun p => v.entry d (named name p)) s s' ∧ s'.step = v.stepAfter := by
    intro l'
    refine (hv (l := l') (by omega) halv (hs.filled hkeep) rfl rfl ?_).imp ?_
    · rw [filled_entry hkeep]
      rfl
    · rintro s' ⟨e', hfill, hs', hset, hst⟩
      exact ⟨e', hfill, hs', .after_filled hs.stands hkeep hset, hst⟩
  have hread := (hkey.append fun s₁ l₁ hs₁ => hs₁ ▸ hvalue l₁).append
    (o := ∀ e', v.fill 0 0 e = some e' → ((a || v.hasArr) = true ∨ rest.early = false) ∧
      (fillRest v rest (Arr.level d).cap c e').isSome = true)
    (u := if rest.isEnd then [] else (w₂.text ++ [',']) ++ rest.text)
    (Q := fun s' => ∃ c' e', (Json.member w name w₁ v w₂ rest).fill (Arr.level d).cap c e = some c' ∧
      s'.Sits d c' e' (a || (Json.member w name w₁ v w₂ rest).hasArr) .obj ∧ Keeps d s s' ∧
      (s'.step = .after ↔ (Json.member w name w₁ v w₂ rest).isAfter = true) ∧
      (s'.step = .after ∨ s'.step = .value ∨ s'.step = .key) ∧
      Listed d c (.member w name w₁ v w₂ rest) s s') ?_
  · have htext : (Json.member w name w₁ v w₂ rest).text =
        (w.text ++ '"' :: ((name.chars ++ ['"']) ++ (w₁.text ++ [':']))) ++ v.text ++
          if rest.isEnd then [] else (w₂.text ++ [',']) ++ rest.text := by
      simp only [text, List.append_assoc, List.cons_append]
    rw [htext]
    refine hread.congr ?_
    cases hfill : v.fill 0 0 e with
    | none => simp [fill, hfill]
    | some e' =>
      have hmember : (Json.member w name w₁ v w₂ rest).fill (Arr.level d).cap c e =
          fillRest v rest (Arr.level d).cap c e' := by
        simp only [fill, hfill, Option.bind_some, fillRest]
      rw [hmember]
      simp only [early, Option.some.injEq, forall_eq', Option.isSome_some]
      cases a <;> cases v.early <;> cases v.hasArr <;> cases rest.early <;> simp
  · rintro s₁ l₁ ⟨e', hfill, hs₁, hset, hst₁⟩
    have hmember : (Json.member w name w₁ v w₂ rest).fill (Arr.level d).cap c e =
        fillRest v rest (Arr.level d).cap c e' := by
      simp only [fill, hfill, Option.bind_some, fillRest]
    refine ((rest_reads (l := l₁) w₂ hrest (by omega) halr hs₁ hst₁).imp ?_).congr
      (by simp [hfill])
    rintro s₂ ⟨c', e'', hc', hs₂, hkeeps, hafter, hst₂, hbefore, hown, hlist⟩
    refine ⟨c', e'', hmember.trans hc', ?_, hset.keeps.trans hkeeps, ?_, hst₂, ?_, ?_⟩
    · rwa [hasArr, ← Bool.or_assoc]
    · rw [hafter, isAfter]
    · intro i hi
      exact (hbefore i hi).trans (hset.other i (by rw [hs.count]; omega))
    · intro hall i name' v' hi
      obtain ⟨hc, hrest⟩ : (rest.isEnd || v.counted) = true ∧ rest.allCounted = true := by
        simpa [allCounted] using hall
      cases i with
      | zero =>
        obtain ⟨rfl, rfl⟩ : name = name' ∧ v = v' := by simpa [list] using hi
        have hentry := hset.entry
        rw [hs.count] at hentry
        exact Kept.of_same (kept_entry d name v _) ((hown hc).trans hentry)
      | succ i =>
        have hkept := hlist (by simp [hc, hrest]) i name' v' (by simpa [list] using hi)
        rwa [Nat.add_assoc, Nat.add_comm 1 i] at hkept

/-! ### Elements

The elements of an array are objects. Between two of them stands a comma, and the entry it leads
to must be inside the table of the level; `fill` is `none` where it is not. -/

theorem spec_noElem : Json.noElem.Spec := by
  intro s l d c _ _ hs hstep
  refine (Reads.nil ⟨c, 0, rfl, hs, .refl d s, ?_, .inr hstep⟩).congr (by simp [fill])
  simp [hstep, isAfter]

theorem spec_elem {o : Json .obj} (w : Blank) {rest : Json .elems} (ho : o.Spec)
    (hrest : rest.Spec) : (Json.elem o w rest).Spec := by
  intro s l d c hlev hal hs hstep
  have hlevels : max o.levels rest.levels + d ≤ 3 := hlev
  obtain ⟨⟨halo, hlast⟩, halr⟩ :
      (o.aligned = true ∧ (rest.isEnd || o.isAfter) = true) ∧ rest.aligned = true := by
    simpa [aligned] using hal
  have hobj := ho (l := l) (by omega) halo hs hstep
  -- the last element has no comma behind it
  by_cases hend : rest.isEnd = true
  · have htext : (Json.elem o w rest).text = o.text := by
      rw [text, if_pos hend, List.append_nil]
    rw [htext]
    refine (hobj.imp ?_).congr ?_
    · rintro s₁ ⟨e', hfill, hs₁, hset, hst⟩
      refine ⟨c, e', by simp [fill, hfill, hend], hs₁, hset.keeps, ?_, ?_⟩
      · rw [hst, isAfter, if_pos hend]
        cases o.isAfter <;> simp [resumeStep]
      · rw [hst]
        cases o.isAfter <;> simp [resumeStep]
    · cases hfill : o.fill 0 0 0 <;> simp [fill, hfill, hend]
  -- only the last element may end elsewhere than behind its object
  · have hafter : o.isAfter = true := by
      rcases (Bool.or_eq_true _ _ ▸ hlast : rest.isEnd = true ∨ o.isAfter = true) with h | h
      · exact absurd h hend
      · exact h
    have htext : (Json.elem o w rest).text = o.text ++ ((w.text ++ [',']) ++ rest.text) := by
      rw [text, if_neg hend]
    rw [htext]
    refine ((hobj.append (u := (w.text ++ [',']) ++ rest.text)
      (o := c + 1 < (Arr.level d).cap ∧
        (rest.fill (Arr.level d).cap (c + 1) 0).isSome = true)
      (Q := fun s' => ∃ e₁ s₁ s₂, o.fill 0 0 0 = some e₁ ∧ Keeps d s s₁ ∧
        Advanced d c true .arr s₁ s₂ ∧ ∃ c' e',
          rest.fill (Arr.level d).cap (c + 1) 0 = some c' ∧ s'.Sits d c' e' true .arr ∧
          Keeps d s₂ s' ∧ (s'.step = .after ↔ rest.isAfter = true) ∧
          (s'.step = .after ∨ s'.step = .value)) ?_).imp_of ?_).congr ?_
    · rintro s₁ l₁ ⟨e₁, hfill, hs₁, hset, hst⟩
      rw [if_pos hafter] at hst
      have hcomma := Parses.blank w.blank (by rw [hst]; decide) (by rw [hst]; decide)
        (parses_comma (l := l₁) hs₁ (.inl hst))
      refine hcomma.append fun s₂ l₂ h₂ => ?_
      exact (hrest (l := l₂) (by omega) halr h₂.1.sits h₂.2).imp fun s' h' =>
        ⟨e₁, s₁, s₂, hfill, hset.keeps, h₂.1, h'⟩
    · rintro ⟨-, hlt, -⟩ s' ⟨e₁, s₁, s₂, hfill, hkeep, hadv, c', e', hc', hs', hkeep', hiff, hst⟩
      refine ⟨c', e', ?_, hs', (hkeep.trans hadv.keeps).trans hkeep', ?_, hst⟩
      · simp [fill, hfill, hend, hlt, hc']
      · rw [hiff, isAfter, if_neg hend]
    · by_cases hlt : c + 1 < (Arr.level d).cap
      · cases hfill : o.fill 0 0 0 <;> simp [fill, hfill, hend, hlt]
      · cases hfill : o.fill 0 0 0 <;> simp [fill, hfill, hend, hlt]

/-- **What the parser makes of every phrase**, by induction over the syntax. -/
theorem reads {k : Phrase} (j : Json k) : j.Spec := by
  induction j with
  | str w x => exact spec_str w x
  | num w x => exact spec_num w x
  | nested o ho => exact spec_nested ho
  | arr w es w' hes => exact spec_arr w w' hes
  | braces w ms w' hms => exact spec_braces w w' hms
  | noMember => exact spec_noMember
  | member w name w₁ v w₂ rest hv hrest => exact spec_member w name w₁ w₂ hv hrest
  | noElem => exact spec_noElem
  | elem o w rest ho hrest => exact spec_elem w ho hrest

end Json

end ChargePoint
