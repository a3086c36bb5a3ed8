import ChargePoint.Parse.Tokens
import ChargePoint.Client

/-!
# Where an index leaves its array

The parser keeps its counters in the message it fills, behind pointers, and checks none of
them. This module separates what a text *asks for* from what the arrays hold. `Control` is the
parser without its arrays: it reads the same characters and says what each of them asks for
(`Mark`): another character of a name or of a value, the next entry, a level more or less.
`Tally` counts, level by level, and `allowed` says that no count passes the end of its array.

`loopSafe_iff`: a run of `Parse_Payload` uses no index out of range and wraps no counter
exactly if every mark of the text is allowed. The pointers play no part in the condition: that
they always stand where the counts say is the invariant, `Tracks`.
-/

set_option autoImplicit false

namespace ChargePoint

open CStr PayloadSt

/-! ## What a text asks for

`Control` follows the parser's `step` and the kinds of its open containers, and nothing else:
whether a character is taken, and as what, depends on these alone. So the marks of a text are a
function of the text, and every bound of the parser is a statement about a list of marks. -/

/-- One thing a character asks for: a level more or less, the next entry of the level, one more
character of a name or of a value, and the first position again. -/
inductive Mark
  | down | up | comma | name | store | reset
  deriving DecidableEq, Repr

/-- The parser without its arrays. `kinds` are the containers that are open inside the outermost
object, the innermost first. -/
structure Control where
  step : PayloadStep
  kinds : List ParsType
  arr : Bool

namespace Control

def start : Control := ⟨.brace, [], false⟩

/-- A bracket that closes a container in another step than `after`. -/
def close (k : Control) : List Mark × Option Control :=
  match k.kinds with
  | [] => ([], none)
  | _ :: kinds =>
    match kinds.headD .obj with
    | .obj => ([.up], some { k with step := .key, kinds := kinds })
    | .arr => ([.up, .reset], some { k with step := .value, kinds := kinds })

/-- What one character asks for, and how the parser goes on, if it does. -/
def read (k : Control) (last c : Char) : List Mark × Option Control :=
  match k.step with
  | .brace => ([], some (if c = '{' then { k with step := .key } else k))
  | .key =>
    if c = '}' then (.reset :: k.close.1, k.close.2)
    else ([.reset], some (if c = '"' then { k with step := .name } else k))
  | .name => if c = '"' then ([], some { k with step := .colon }) else ([.name], some k)
  | .colon => if c = ':' then ([.reset], some { k with step := .value }) else ([], some k)
  | .value =>
    if c = '"' then ([], some { k with step := .str })
    else if c = '}' ∨ c = ']' then k.close
    else if c = ',' then ([.comma], some { k with step := .key })
    else if c.isDigit then ([.store], some k)
    else if c = '[' then ([.down, .reset], some ⟨.value, .arr :: k.kinds, true⟩)
    else if c = '{' then ([.down], some { k with step := .key, kinds := .obj :: k.kinds })
    else ([], some k)
  | .str =>
    if c = '"' ∧ last ≠ '\\' then ([], some { k with step := .after }) else ([.store], some k)
  | .after =>
    if c = ',' then
      match k.kinds.headD .obj with
      | .obj => ([.comma], some { k with step := .key })
      | .arr => ([.comma, .reset], some { k with step := .value })
    else if c = '}' ∨ c = ']' then
      match k.kinds with
      | [] => ([], none)
      | _ :: kinds => ([.up], some { k with kinds := kinds })
    else ([], some k)

end Control

/-- What a text asks for, up to where the parser stops reading it. -/
def marks : Control → Char → List Char → List Mark
  | _, _, [] => []
  | k, last, c :: cs =>
    if c = ']' ∧ k.arr = false then []
    else (k.read last c).1 ++
      match (k.read last c).2 with
      | none => []
      | some k' => marks k' c cs

/-- The counts: the level, the position in a name or a value, and for each level how many commas
were counted since its table was opened or the entry around it was begun. -/
structure Tally where
  depth : Nat
  index : Nat
  count : Nat → Nat

namespace Tally

def start : Tally := ⟨0, 0, fun _ => 0⟩

def next (t : Tally) : Mark → Tally
  | .down => { t with depth := t.depth + 1,
                      count := fun d => if d = t.depth + 2 then 0 else t.count d }
  | .up => { t with depth := t.depth - 1 }
  | .comma => { t with count := fun d =>
      if d = t.depth then t.count d + 1 else if d = t.depth + 1 then 0 else t.count d }
  | .name | .store => { t with index := t.index + 1 }
  | .reset => { t with index := 0 }

end Tally

/-- There is room for it: `Pars_type[4]`, the tables of the levels, `property_name[60]`, and for a
value the positions a `uint8_t` counts. -/
def Mark.Allowed (t : Tally) : Mark → Prop
  | .down => t.depth < 3
  | .comma => t.count t.depth + 1 < (Arr.level t.depth).cap
  | .name => t.index < 60
  | .store => t.index < 255
  | .up | .reset => True

/-- Every mark is allowed where it stands. -/
def allowed : Tally → List Mark → Prop
  | _, [] => True
  | t, m :: ms => m.Allowed t ∧ allowed (t.next m) ms

theorem allowed_append (t : Tally) (ms ms' : List Mark) :
    allowed t (ms ++ ms') ↔ allowed t ms ∧ allowed (ms.foldl Tally.next t) ms' := by
  induction ms generalizing t with
  | nil => exact (true_and _).symm.to_iff
  | cons m ms ih =>
    show m.Allowed t ∧ allowed (t.next m) (ms ++ ms') ↔ _
    rw [ih]
    exact and_assoc.symm

/-! ## What a run uses

The same walk over the parser itself. A step whose index is out of range is `none` already; what
the steps do not show is the index of a value, a `uint8_t` that goes from 255 to 0 and then
writes over what it has written. `loopSafe` asks for neither to happen. -/

/-- The character goes to the contents of the entry. -/
def PayloadSt.Stores (s : PayloadSt) (last c : Char) : Prop :=
  s.step = .value ∧ c.isDigit = true ∨ s.step = .str ∧ ¬ (c = '"' ∧ last ≠ '\\')

/-- `str_index++` goes from 255 to 0. -/
def PayloadSt.Wraps (s : PayloadSt) (last c : Char) : Prop := s.Stores last c ∧ s.strIndex = 255

/-- **Every index is in range and no counter wraps**, from here to the end of the loop. -/
def loopSafe : PayloadSt → Char → List Char → Prop
  | _, _, [] => True
  | s, last, c :: cs =>
    Halts s c ∨ ¬ s.Wraps last c ∧
      match s.feed last c with
      | none => False
      | some (.stop _) => True
      | some (.next s') => loopSafe s' c cs

/-- A safe run has a result. -/
theorem loopSafe_isSome {s : PayloadSt} {last : Char} {cs : List Char} (h : loopSafe s last cs) :
    (payloadLoop s last cs).isSome = true := by
  induction cs generalizing s last with
  | nil => rfl
  | cons c cs ih =>
    unfold payloadLoop
    by_cases hhalt : Halts s c
    · rw [if_pos (show c = ']' ∧ s.arrStart = false from hhalt)]
      rfl
    · rw [if_neg (show ¬ (c = ']' ∧ s.arrStart = false) from hhalt)]
      obtain ⟨-, h⟩ := h.resolve_left hhalt
      cases hfeed : s.feed last c with
      | none =>
        rw [hfeed] at h
        exact h.elim
      | some r =>
        rw [hfeed] at h
        cases r with
        | next s' => exact ih h
        | stop s' => rfl

/-! ## The invariant

`Tracks` puts the two side by side: the pointers stand for the depth of the control, `Pars_type`
spells its open containers, and the counters behind the pointers are the counts of the tally, up
to the level below the current one, which is where the next bracket will go. -/

/-- `Pars_type` for the open containers. -/
def Kinds (pt : Nat → ParsType) : List ParsType → Prop
  | [] => pt 0 = .obj
  | k :: kinds => pt (kinds.length + 1) = k ∧ Kinds pt kinds

/-- The parser stands where the control and the counts say. -/
structure Tracks (s : PayloadSt) (k : Control) (t : Tally) : Prop where
  stands : s.Stands k.kinds.length
  step : s.step = k.step
  arr : s.arrStart = k.arr
  kinds : Kinds s.parsType k.kinds
  depth : t.depth = k.kinds.length
  index : t.index = s.strIndex
  byte : s.strIndex < 256
  count : ∀ i ≤ k.kinds.length + 1, t.count i = s.rx.path i

section Tracks
variable {s s' : PayloadSt} {k : Control} {t : Tally} {pt pt' : Nat → ParsType}
variable {kinds : List ParsType} {q : PayloadStep} {n : Nat}

theorem Kinds.congr (h : Kinds pt kinds) (heq : ∀ i ≤ kinds.length, pt' i = pt i) :
    Kinds pt' kinds := by
  induction kinds with
  | nil => exact (heq 0 (Nat.le_refl 0)).trans h
  | cons x kinds ih =>
    exact ⟨(heq _ (Nat.le_refl _)).trans h.1, ih h.2 fun i hi => heq i (Nat.le_succ_of_le hi)⟩

theorem Kinds.zero (h : Kinds pt kinds) : pt 0 = .obj := by
  induction kinds with
  | nil => exact h
  | cons x kinds ih => exact ih h.2

/-- The kind of the level. -/
theorem Kinds.head (h : Kinds pt kinds) : pt kinds.length = kinds.headD .obj := by
  cases kinds with
  | nil => exact h
  | cons x kinds => exact h.1

theorem Tracks.reindex (h : Tracks s k t) (hn : n < 256) :
    Tracks { s with strIndex := n } k { t with index := n } :=
  ⟨h.stands.congr rfl rfl rfl (fun _ _ => rfl) (h.stands.sub _ (Nat.le_refl _)) (fun _ _ => rfl),
    h.step, h.arr, h.kinds, h.depth, rfl, hn, h.count⟩

theorem Tracks.stepTo (h : Tracks s k t) (q : PayloadStep) :
    Tracks { s with step := q } { k with step := q } t :=
  ⟨h.stands.congr rfl rfl rfl (fun _ _ => rfl) (h.stands.sub _ (Nat.le_refl _)) (fun _ _ => rfl),
    rfl, h.arr, h.kinds, h.depth, h.index, h.byte, h.count⟩

theorem Tracks.filled {f : Payload → Payload} (h : Tracks s k t) (hf : KeepsLen f)
    (hn : n < 256) :
    Tracks (s.filled k.kinds.length f n q) { k with step := q } { t with index := n } :=
  ⟨h.stands.filled hf, rfl, h.arr, h.kinds, h.depth, rfl, hn, fun i hi => by
    rw [filled_path hf]
    exact h.count i hi⟩

/-- A level more. -/
theorem Tracks.entered (h : Tracks s k t) (hd : k.kinds.length < 3) (x : ParsType) (b : Bool)
    (hn : n < 256) :
    Tracks (({ s.enterSt k.kinds.length with step := q, arrStart := b, strIndex := n }).setParsType x)
      ⟨q, x :: k.kinds, b⟩ { t.next .down with index := n } := by
  obtain ⟨hpath, hsub⟩ := enterSt_path h.stands hd
  have hs := enterSt_stands h.stands hd
  refine ⟨?_, rfl, rfl, ⟨if_pos rfl, h.kinds.congr fun i hi => if_neg ?_⟩, ?_, rfl, hn,
    fun i hi => ?_⟩
  · exact hs.congr rfl rfl rfl (fun _ _ => rfl) (hs.sub _ (Nat.le_refl _)) (fun _ _ => rfl)
  · show ¬ i = k.kinds.length + 1
    omega
  · show t.depth + 1 = k.kinds.length + 1
    rw [h.depth]
  · show (if i = t.depth + 2 then 0 else t.count i) = (s.enterSt k.kinds.length).rx.path i
    have hle : i ≤ k.kinds.length + 2 := hi
    by_cases heq : i = k.kinds.length + 2
    · rw [h.depth, if_pos heq, heq, hsub]
    · rw [h.depth, if_neg heq, hpath i (by omega)]
      exact h.count i (by omega)

/-- A level less. -/
theorem Tracks.left {x : ParsType} (h : Tracks s k t) (hk : k.kinds = x :: kinds) :
    Tracks s.leave { k with kinds := kinds } (t.next .up) := by
  have hlen : k.kinds.length = kinds.length + 1 := by rw [hk, List.length_cons]
  have hs : s.Stands (kinds.length + 1) := hlen ▸ h.stands
  have hleave := hs.leave
  rw [leave_stands hs] at hleave ⊢
  refine ⟨hleave, h.step, h.arr, ?_, ?_, h.index, h.byte,
    fun i hi => h.count i (by rw [hlen]; exact Nat.le_succ_of_le hi)⟩
  · have hkinds := h.kinds
    rw [hk] at hkinds
    exact hkinds.2
  · show t.depth - 1 = kinds.length
    rw [h.depth, hlen]
    rfl

/-- The next entry of the level. -/
theorem Tracks.advanced (h : Tracks s k t)
    (hlt : s.rx.path k.kinds.length + 1 < (Arr.level k.kinds.length).cap) (hn : n < 256) :
    Tracks { s.nextSt k.kinds.length with step := q, strIndex := n } { k with step := q }
      { t.next .comma with index := n } := by
  obtain ⟨hbelow, hat, hsub⟩ := nextSt_path h.stands
  have hs := nextSt_stands h.stands hlt
  refine ⟨?_, rfl, h.arr, h.kinds, h.depth, rfl, hn, fun i hi => ?_⟩
  · exact hs.congr rfl rfl rfl (fun _ _ => rfl) (hs.sub _ (Nat.le_refl _)) (fun _ _ => rfl)
  · show (if i = t.depth then t.count i + 1 else if i = t.depth + 1 then 0 else t.count i) =
      (s.nextSt k.kinds.length).rx.path i
    rw [h.depth]
    have hle : i ≤ k.kinds.length + 1 := hi
    rcases Nat.lt_trichotomy i k.kinds.length with hlt' | rfl | hgt
    · rw [if_neg (by omega), if_neg (by omega), hbelow i hlt']
      exact h.count i (by omega)
    · rw [if_pos rfl, hat, h.count _ (Nat.le_succ _)]
    · obtain rfl : i = k.kinds.length + 1 := by omega
      rw [if_neg (by omega), if_pos rfl, hsub]

theorem Control.allowed_close (k : Control) (t : Tally) : allowed t k.close.1 := by
  unfold close
  split
  · trivial
  · split
    · exact ⟨trivial, trivial⟩
    · exact ⟨trivial, trivial, trivial⟩

/-- Back to the level around, and to the step in which its next member or element begins. -/
theorem Tracks.closed {x : ParsType} (h : Tracks s k t) (hk : k.kinds = x :: kinds) :
    ∃ k', k.close.2 = some k' ∧ Tracks s.leave.resume k' (k.close.1.foldl Tally.next t) := by
  have hleft := h.left hk
  have htype : s.leave.parsType s.leave.depth = kinds.headD .obj := by
    rw [hleft.stands.depth]
    exact hleft.kinds.head
  unfold Control.close PayloadSt.resume
  rw [hk, htype]
  dsimp only
  cases kinds.headD .obj with
  | obj => exact ⟨_, rfl, hleft.stepTo .key⟩
  | arr => exact ⟨_, rfl, (hleft.stepTo .value).reindex (n := 0) (by decide)⟩

end Tracks

/-! ## One character

`Agrees` is what has to hold of one character: its marks are allowed exactly if the parser's step
is defined and wraps nothing, and then the invariant holds again on both sides. -/

/-- What the character asks for is what the step of the parser uses. -/
structure Agrees (s : PayloadSt) (t : Tally) (last c : Char) (r : List Mark × Option Control) :
    Prop where
  fine : allowed t r.1 → ¬ s.Wraps last c ∧
    match r.2 with
    | none => ∃ u, s.feed last c = some (.stop u)
    | some k' => ∃ s', s.feed last c = some (.next s') ∧ Tracks s' k' (r.1.foldl Tally.next t)
  bad : ¬ allowed t r.1 → s.Wraps last c ∨ s.feed last c = none

section Agrees
variable {s s' : PayloadSt} {k k' : Control} {t : Tally} {last c : Char} {ms : List Mark}

/-- A character that is always taken. -/
theorem Agrees.next (hms : allowed t ms) (hw : ¬ s.Wraps last c)
    (hfeed : s.feed last c = some (.next s')) (h : Tracks s' k' (ms.foldl Tally.next t)) :
    Agrees s t last c (ms, some k') :=
  ⟨fun _ => ⟨hw, s', hfeed, h⟩, fun hnot => absurd hms hnot⟩

/-- One that asks for something. -/
theorem Agrees.asks {m : Mark} (hms : allowed (t.next m) ms) (hw : ¬ s.Wraps last c)
    (hyes : m.Allowed t → ∃ s', s.feed last c = some (.next s') ∧
      Tracks s' k' ((m :: ms).foldl Tally.next t))
    (hno : ¬ m.Allowed t → s.feed last c = none) : Agrees s t last c (m :: ms, some k') :=
  ⟨fun hall => ⟨hw, hyes hall.1⟩, fun hnot => .inr (hno fun hm => hnot ⟨hm, hms⟩)⟩

/-- One that closes a container, or ends the loop. -/
theorem Agrees.close {u : PayloadSt} (h : Tracks u k t) (hw : ¬ s.Wraps last c)
    (hfeed : s.feed last c =
      if k.kinds = [] then some (.stop u) else some (.next u.leave.resume)) :
    Agrees s t last c k.close := by
  refine ⟨fun _ => ⟨hw, ?_⟩, fun hnot => absurd (k.allowed_close t) hnot⟩
  cases hk : k.kinds with
  | nil =>
    rw [if_pos hk] at hfeed
    have hclose : k.close = ([], none) := by
      unfold Control.close
      rw [hk]
    rw [hclose]
    exact ⟨u, hfeed⟩
  | cons x kinds =>
    rw [if_neg (by rw [hk]; exact List.cons_ne_nil x kinds)] at hfeed
    obtain ⟨k', hk', htracks⟩ := h.closed hk
    rw [hk']
    exact ⟨_, hfeed, htracks⟩

theorem not_wraps (hvalue : s.step = .value → c.isDigit = false)
    (hstr : s.step = .str → c = '"' ∧ last ≠ '\\') : ¬ s.Wraps last c := by
  rintro ⟨⟨hv, hdigit⟩ | ⟨hs, hc⟩, -⟩
  · rw [hvalue hv] at hdigit
    exact absurd hdigit (by simp)
  · exact hc (hstr hs)

theorem not_wraps_of_step (hvalue : s.step ≠ .value) (hstr : s.step ≠ .str) : ¬ s.Wraps last c :=
  not_wraps (fun h => absurd h hvalue) fun h => absurd h hstr

/-- A character of a value. -/
theorem Agrees.stores (h : Tracks s k t) (hstores : s.Stores last c)
    (hfeed : s.feed last c = (s.putContants c).map .next) :
    Agrees s t last c ([.store], some k) := by
  rw [putContants_filled h.stands] at hfeed
  have hwraps : s.Wraps last c ↔ s.strIndex = 255 := and_iff_right hstores
  refine ⟨fun hall => ?_, fun hnot => ?_⟩
  · have hidx : s.strIndex < 255 := h.index ▸ hall.1
    refine ⟨fun hw => absurd (hwraps.mp hw) (by omega), _, hfeed, ?_⟩
    rw [h.step, Nat.mod_eq_of_lt (by omega)]
    have hfilled := h.filled (n := s.strIndex + 1) (q := k.step)
      (f := fun p => { p with propertyContants := put p.propertyContants s.strIndex c })
      (fun _ => rfl) (by omega)
    show Tracks _ k { t with index := t.index + 1 }
    rw [h.index]
    exact hfilled
  · have hidx : ¬ s.strIndex < 255 := by
      rw [← h.index]
      exact fun hlt => hnot ⟨hlt, trivial⟩
    have hbyte := h.byte
    exact .inl (hwraps.mpr (by omega))

/-! ## The steps

One lemma for each of the seven steps, with the cases of the character in the order of the source.
Opening a container asks for a level, a comma for an entry, a character of a name or a value for a
position; closing a container asks for nothing that could be refused. -/

theorem agrees_brace (h : Tracks s k t) (hk : k.step = .brace) :
    Agrees s t last c (k.read last c) := by
  have hw : ¬ s.Wraps last c :=
    not_wraps_of_step (by rw [h.step, hk]; decide) (by rw [h.step, hk]; decide)
  unfold Control.read
  rw [hk]
  dsimp only
  by_cases hc : c = '{'
  · rw [if_pos hc]
    have hfeed : s.feed last c = some (.next { s with
        parsType := fun d => if d = 0 then .obj else s.parsType d, step := .key }) := by
      unfold PayloadSt.feed
      rw [h.step, hk]
      exact if_pos hc
    have hkey := h.stepTo .key
    refine .next trivial hw hfeed ⟨hkey.stands.congr rfl rfl rfl (fun _ _ => rfl)
      (hkey.stands.sub _ (Nat.le_refl _)) (fun _ _ => rfl), rfl, h.arr, ?_, h.depth, h.index, h.byte,
      h.count⟩
    refine h.kinds.congr fun i _ => ?_
    by_cases hi : i = 0
    · rw [hi]
      exact h.kinds.zero.symm
    · exact if_neg hi
  · rw [if_neg hc]
    have hfeed : s.feed last c = some (.next s) := by
      unfold PayloadSt.feed
      rw [h.step, hk]
      exact if_neg hc
    exact .next trivial hw hfeed h

theorem agrees_key (h : Tracks s k t) (hk : k.step = .key) :
    Agrees s t last c (k.read last c) := by
  have hw : ¬ s.Wraps last c :=
    not_wraps_of_step (by rw [h.step, hk]; decide) (by rw [h.step, hk]; decide)
  have hreset : Tracks { s with strIndex := 0 } k (t.next .reset) := h.reindex (by decide)
  unfold Control.read
  rw [hk]
  dsimp only
  by_cases hclose : c = '}'
  · rw [if_pos hclose]
    have hfeed : s.feed last c = if k.kinds = [] then some (.stop { s with strIndex := 0 })
        else some (.next ({ s with strIndex := 0 } : PayloadSt).leave.resume) := by
      have hdepth : s.depth = 0 ↔ k.kinds = [] := by
        rw [h.stands.depth]
        exact List.length_eq_zero_iff
      unfold PayloadSt.feed
      rw [h.step, hk]
      dsimp only
      rw [if_pos hclose]
      simp only [hdepth]
    have hagrees := Agrees.close hreset hw hfeed
    refine ⟨fun hall => ?_, fun hnot => hagrees.bad fun hall => hnot ⟨trivial, hall⟩⟩
    exact hagrees.fine hall.2
  · rw [if_neg hclose]
    have hstart : s.feed last c = if c = '"' then
          (PayloadSt.clearCur { s with strIndex := 0 }).map fun s => .next { s with step := .name }
        else some (.next { s with strIndex := 0 }) := by
      unfold PayloadSt.feed
      rw [h.step, hk]
      exact if_neg hclose
    by_cases hquote : c = '"'
    · rw [if_pos hquote] at hstart ⊢
      unfold PayloadSt.clearCur at hstart
      rw [modifyCur_stands hreset.stands] at hstart
      have hkeep : KeepsLen fun p => { p with propertyName := [], propertyContants := [] } :=
        fun _ => rfl
      exact .next ⟨trivial, trivial⟩ hw hstart
        (h.filled (n := 0) (q := .name) hkeep (by decide))
    · rw [if_neg hquote] at hstart ⊢
      exact .next ⟨trivial, trivial⟩ hw hstart hreset

theorem agrees_name (h : Tracks s k t) (hk : k.step = .name) :
    Agrees s t last c (k.read last c) := by
  have hw : ¬ s.Wraps last c :=
    not_wraps_of_step (by rw [h.step, hk]; decide) (by rw [h.step, hk]; decide)
  have hfeed : s.feed last c = if c = '"' then some (.next { s with step := .colon })
      else (s.putName c).map .next := by
    unfold PayloadSt.feed
    rw [h.step, hk]
  unfold Control.read
  rw [hk]
  dsimp only
  by_cases hquote : c = '"'
  · rw [if_pos hquote] at hfeed ⊢
    exact .next trivial hw hfeed (h.stepTo .colon)
  · rw [if_neg hquote] at hfeed ⊢
    unfold PayloadSt.putName at hfeed
    rw [modifyCur_stands h.stands] at hfeed
    refine .asks trivial hw (fun hlt => ?_) fun hlt => ?_
    · have hidx : s.strIndex < 60 := by
        rw [← h.index]
        exact hlt
      rw [if_pos hidx] at hfeed
      have hfilled := h.filled (n := s.strIndex + 1) (q := k.step)
        (f := fun p => { p with propertyName := put p.propertyName s.strIndex c })
        (fun _ => rfl) (by omega)
      refine ⟨_, hfeed, ?_⟩
      dsimp only
      rw [Nat.mod_eq_of_lt (show s.strIndex + 1 < 256 by omega), h.step]
      show Tracks _ k { t with index := t.index + 1 }
      rw [h.index]
      exact hfilled
    · have hidx : ¬ s.strIndex < 60 := by
        rw [← h.index]
        exact hlt
      rw [hfeed, if_neg hidx]
      rfl

theorem agrees_colon (h : Tracks s k t) (hk : k.step = .colon) :
    Agrees s t last c (k.read last c) := by
  have hw : ¬ s.Wraps last c :=
    not_wraps_of_step (by rw [h.step, hk]; decide) (by rw [h.step, hk]; decide)
  have hfeed : s.feed last c = if c = ':' then some (.next { s with step := .value, strIndex := 0 })
      else some (.next s) := by
    unfold PayloadSt.feed
    rw [h.step, hk]
  unfold Control.read
  rw [hk]
  dsimp only
  by_cases hc : c = ':'
  · rw [if_pos hc] at hfeed ⊢
    exact .next ⟨trivial, trivial⟩ hw hfeed ((h.stepTo .value).reindex (n := 0) (by decide))
  · rw [if_neg hc] at hfeed ⊢
    exact .next trivial hw hfeed h

theorem agrees_str (h : Tracks s k t) (hk : k.step = .str) :
    Agrees s t last c (k.read last c) := by
  have hstep : s.step = .str := h.step.trans hk
  have hfeed : s.feed last c = if c = '"' ∧ last ≠ '\\' then some (.next { s with step := .after })
      else (s.putContants c).map .next := by
    unfold PayloadSt.feed
    rw [hstep]
  unfold Control.read
  rw [hk]
  dsimp only
  by_cases hc : c = '"' ∧ last ≠ '\\'
  · rw [if_pos hc] at hfeed ⊢
    have hw : ¬ s.Wraps last c :=
      not_wraps (fun hv => absurd (hstep.symm.trans hv) (by decide)) fun _ => hc
    exact .next trivial hw hfeed (h.stepTo .after)
  · rw [if_neg hc] at hfeed ⊢
    exact .stores h (.inr ⟨hstep, hc⟩) hfeed

/-- The comma that is counted, and the step it leads to. -/
theorem Agrees.comma {m : List Mark} {q : PayloadStep} {n : Nat} (h : Tracks s k t)
    (hms : allowed (t.next .comma) m)
    (hw : ¬ s.Wraps last c)
    (hfeed : s.feed last c = s.nextEntry.map fun u => .next { u with step := q, strIndex := n })
    (hn : n < 256) (hindex : m.foldl Tally.next (t.next .comma) = { t.next .comma with index := n }) :
    Agrees s t last c (.comma :: m, some { k with step := q }) := by
  have hcount : t.count t.depth = s.rx.path k.kinds.length := by
    rw [h.depth]
    exact h.count _ (Nat.le_succ _)
  have hallowed : Mark.Allowed t .comma ↔
      s.rx.path k.kinds.length + 1 < (Arr.level k.kinds.length).cap := by
    show t.count t.depth + 1 < (Arr.level t.depth).cap ↔ _
    rw [hcount, h.depth]
  rw [nextEntry_stands h.stands] at hfeed
  refine .asks hms hw (fun hm => ?_) fun hm => ?_
  · have hlt := hallowed.mp hm
    rw [if_pos hlt] at hfeed
    refine ⟨_, hfeed, ?_⟩
    show Tracks _ _ (m.foldl Tally.next (t.next .comma))
    rw [hindex]
    exact h.advanced hlt hn
  · rw [hfeed, if_neg fun hlt => hm (hallowed.mpr hlt)]
    rfl

theorem agrees_after (h : Tracks s k t) (hk : k.step = .after) :
    Agrees s t last c (k.read last c) := by
  have hstep : s.step = .after := h.step.trans hk
  have hw : ¬ s.Wraps last c :=
    not_wraps_of_step (by rw [hstep]; decide) (by rw [hstep]; decide)
  unfold Control.read
  rw [hk]
  dsimp only
  have htype : (s.nextSt k.kinds.length).parsType (s.nextSt k.kinds.length).depth =
      k.kinds.headD .obj := by
    show s.parsType s.depth = _
    rw [h.stands.depth]
    exact h.kinds.head
  -- behind a value: a comma opens an entry, a bracket closes a level, all else is skipped
  by_cases hcomma : c = ','
  · rw [if_pos hcomma]
    have hfeed : s.feed last c = s.nextEntry.map fun u => .next
        (match k.kinds.headD .obj with
          | .obj => { u with step := .key, strIndex := s.strIndex }
          | .arr => { u with step := .value, strIndex := 0 }) := by
      unfold PayloadSt.feed
      rw [hstep]
      dsimp only
      rw [if_pos hcomma, nextEntry_stands h.stands]
      split
      · rw [Option.map_some, Option.map_some, htype]
        cases k.kinds.headD .obj with
        | obj => rfl
        | arr => rfl
      · rfl
    cases hkind : k.kinds.headD .obj with
    | obj =>
      rw [hkind] at hfeed
      refine .comma (m := []) h trivial hw hfeed h.byte ?_
      rw [← h.index]
      rfl
    | arr =>
      rw [hkind] at hfeed
      exact .comma h ⟨trivial, trivial⟩ hw hfeed (by decide) rfl
  · rw [if_neg hcomma]
    by_cases hclose : c = '}' ∨ c = ']'
    · rw [if_pos hclose]
      have hfeed : s.feed last c =
          if s.depth = 0 then some (.stop s) else some (.next s.leave) := by
        unfold PayloadSt.feed
        rw [hstep]
        dsimp only
        rw [if_neg hcomma, if_pos hclose]
      cases hkinds : k.kinds with
      | nil =>
        rw [if_pos (by rw [h.stands.depth, hkinds]; rfl)] at hfeed
        exact ⟨fun _ => ⟨hw, s, hfeed⟩, fun hnot => absurd trivial hnot⟩
      | cons x kinds =>
        rw [if_neg (by rw [h.stands.depth, hkinds]; exact Nat.succ_ne_zero _)] at hfeed
        have hleft := h.left hkinds
        rw [hk] at hleft
        exact .next ⟨trivial, trivial⟩ hw hfeed hleft
    · rw [if_neg hclose]
      have hfeed : s.feed last c = some (.next s) := by
        unfold PayloadSt.feed
        rw [hstep]
        dsimp only
        rw [if_neg hcomma, if_neg hclose]
      exact .next trivial hw hfeed h

/-- A bracket that opens a container, and the step and the index it leads to. -/
theorem Agrees.opens {m : List Mark} {q : PayloadStep} {n : Nat} {b : Bool} {x : ParsType}
    (h : Tracks s k t) (hms : allowed (t.next .down) m) (hw : ¬ s.Wraps last c)
    (hfeed : s.feed last c = s.enter.map fun u =>
      .next ({ u with step := q, arrStart := b, strIndex := n }.setParsType x))
    (hn : n < 256) (hindex : m.foldl Tally.next (t.next .down) = { t.next .down with index := n }) :
    Agrees s t last c (.down :: m, some ⟨q, x :: k.kinds, b⟩) := by
  refine .asks hms hw (fun hm => ?_) fun hm => ?_
  · have hd : k.kinds.length < 3 := by
      rw [← h.depth]
      exact hm
    rw [enter_stands h.stands hd] at hfeed
    refine ⟨_, hfeed, ?_⟩
    show Tracks _ _ (m.foldl Tally.next (t.next .down))
    rw [hindex]
    exact h.entered hd x b hn
  · have hd : k.kinds.length = 3 := by
      have hle := h.stands.le
      have hnot : ¬ k.kinds.length < 3 := by
        rw [← h.depth]
        exact hm
      omega
    have hfull : s.enter = none := enter_full (hd ▸ h.stands)
    rw [hfeed, hfull]
    rfl

theorem agrees_value (h : Tracks s k t) (hk : k.step = .value) :
    Agrees s t last c (k.read last c) := by
  have hstep : s.step = .value := h.step.trans hk
  have hw : c.isDigit = false → ¬ s.Wraps last c := fun hdigit =>
    not_wraps (fun _ => hdigit) fun hs => absurd (hstep.symm.trans hs) (by decide)
  have hdepth : s.depth = 0 ↔ k.kinds = [] := by
    rw [h.stands.depth]
    exact List.length_eq_zero_iff
  -- the branch of the source, with the depth read off the kinds
  have hfeed : s.feed last c =
      if c = '"' then some (.next { s with step := .str })
      else if c = '}' ∨ c = ']' then
        if k.kinds = [] then some (.stop s) else some (.next s.leave.resume)
      else if c = ',' then (s.nextEntry).map fun s => .next { s with step := .key }
      else if c.isDigit then (s.putContants c).map .next
      else if c = '[' then
        (s.enter).map fun s =>
          .next ({ s with step := .value, arrStart := true, strIndex := 0 }.setParsType .arr)
      else if c = '{' then
        (s.enter).map fun s => .next ({ s with step := .key }.setParsType .obj)
      else some (.next s) := by
    unfold PayloadSt.feed
    rw [hstep]
    simp only [hdepth]
    by_cases hbrace : c = '}'
    · simp only [hbrace, true_or, if_true]
    · simp only [hbrace, false_or, if_false]
  unfold Control.read
  rw [hk]
  dsimp only
  -- its tests, in its order
  by_cases hquote : c = '"'
  · rw [if_pos hquote] at hfeed ⊢
    exact .next trivial (hw (by rw [hquote]; rfl)) hfeed (h.stepTo .str)
  rw [if_neg hquote] at hfeed ⊢
  by_cases hclose : c = '}' ∨ c = ']'
  · rw [if_pos hclose] at hfeed ⊢
    exact .close h (hw (by rcases hclose with rfl | rfl <;> rfl)) hfeed
  rw [if_neg hclose] at hfeed ⊢
  by_cases hcomma : c = ','
  · rw [if_pos hcomma] at hfeed ⊢
    have hfeed' : s.feed last c =
        s.nextEntry.map fun u => .next { u with step := .key, strIndex := s.strIndex } := by
      rw [hfeed, nextEntry_stands h.stands]
      split
      · rfl
      · rfl
    refine .comma (m := []) h trivial (hw (by rw [hcomma]; rfl)) hfeed' h.byte ?_
    rw [← h.index]
    rfl
  rw [if_neg hcomma] at hfeed ⊢
  by_cases hdigit : c.isDigit = true
  · rw [if_pos hdigit] at hfeed ⊢
    exact .stores h (.inl ⟨hstep, hdigit⟩) hfeed
  rw [if_neg hdigit] at hfeed ⊢
  have hno : ¬ s.Wraps last c := hw (by simpa using hdigit)
  by_cases hbracket : c = '['
  · rw [if_pos hbracket] at hfeed ⊢
    exact .opens h ⟨trivial, trivial⟩ hno hfeed (by decide) rfl
  rw [if_neg hbracket] at hfeed ⊢
  by_cases hbrace : c = '{'
  · rw [if_pos hbrace] at hfeed ⊢
    have harr : k.arr = s.arrStart := h.arr.symm
    have hfeed' : s.feed last c = s.enter.map fun u => .next
        ({ u with step := .key, arrStart := k.arr, strIndex := s.strIndex }.setParsType .obj) := by
      rw [hfeed, harr]
      by_cases hd : k.kinds.length < 3
      · rw [enter_stands h.stands hd]
        rfl
      · have hle := h.stands.le
        have hthree : k.kinds.length = 3 := by omega
        have hfull : s.enter = none := enter_full (hthree ▸ h.stands)
        rw [hfull]
        rfl
    refine .opens (m := []) h trivial hno hfeed' h.byte ?_
    rw [← h.index]
    rfl
  · rw [if_neg hbrace] at hfeed ⊢
    exact .next trivial hno hfeed h

/-- **One character**: what it asks for is what the parser uses. -/
theorem agrees (h : Tracks s k t) (last c : Char) : Agrees s t last c (k.read last c) := by
  cases hk : k.step with
  | brace => exact agrees_brace h hk
  | key => exact agrees_key h hk
  | name => exact agrees_name h hk
  | colon => exact agrees_colon h hk
  | value => exact agrees_value h hk
  | str => exact agrees_str h hk
  | after => exact agrees_after h hk

end Agrees

/-! ## The whole loop -/

/-- **A run is safe exactly if every mark of its text is allowed.** -/
theorem loopSafe_iff {s : PayloadSt} {k : Control} {t : Tally} (h : Tracks s k t) (last : Char)
    (cs : List Char) : loopSafe s last cs ↔ allowed t (marks k last cs) := by
  induction cs generalizing s k t last with
  | nil => exact Iff.rfl
  | cons c cs ih =>
    unfold loopSafe marks
    have hhalts : Halts s c ↔ c = ']' ∧ k.arr = false := by
      rw [← h.arr]
      exact Iff.rfl
    by_cases hhalt : c = ']' ∧ k.arr = false
    · rw [if_pos hhalt]
      exact iff_of_true (.inl (hhalts.mpr hhalt)) trivial
    · rw [if_neg hhalt, or_iff_right fun hc => hhalt (hhalts.mp hc), allowed_append]
      have hstep := agrees h last c
      by_cases hall : allowed t (k.read last c).1
      · obtain ⟨hw, hnext⟩ := hstep.fine hall
        rw [and_iff_right hw, and_iff_right hall]
        cases hr : (k.read last c).2 with
        | none =>
          rw [hr] at hnext
          obtain ⟨u, hfeed⟩ := hnext
          rw [hfeed]
          exact iff_of_true trivial trivial
        | some k' =>
          rw [hr] at hnext
          obtain ⟨s', hfeed, htracks⟩ := hnext
          rw [hfeed]
          exact ih htracks c
      · refine iff_of_false ?_ fun hc => hall hc.1
        rintro ⟨hw, hrest⟩
        rcases hstep.bad hall with hwraps | hnone
        · exact hw hwraps
        · rw [hnone] at hrest
          exact hrest

theorem tracks_start (msg : RxMsg) : Tracks (.start msg) .start .start := by
  refine ⟨⟨Nat.zero_le 3, rfl, rfl, rfl, fun _ h => absurd h (Nat.not_lt_zero _),
    (show (0 : Nat) < payloadCap by decide), fun k hk => ?_⟩, rfl, rfl, rfl, rfl, rfl,
    (show (0 : Nat) < 256 by decide), fun i hi => ?_⟩
  · obtain rfl : k = 0 := Nat.le_zero.mp hk
    show (0 : Nat) < subPayloadCap
    decide
  · have hle : i ≤ 1 := hi
    obtain rfl | rfl : i = 0 ∨ i = 1 := by omega
    · rfl
    · rfl

/-! ## The header

`Parse_Header` collects the id and then the action in `temp_buf`, and bounds neither. What stands
behind them is the body, and only the frame decides that; whether the body is parsed does depend on
the client, through the id of an answer to a DataTransfer. -/

/-- What stands behind the header, if it is one: behind the id of an answer, and behind the action
of a request, if the action is known. -/
def body (frame : List Char) : Option (List Char) :=
  if frame.head? = some '[' then
    match afterId frame with
    | [] => none
    | _ :: rest =>
      if (typeText frame).head? = some '2' then
        match afterAction frame with
        | [] => none
        | _ :: rest =>
          if csReqMsg.any (fun e => e.1 = cstr (actionText frame)) then some rest else none
      else some rest
  else none

section Header
variable {a : CpReqAction} {frame : List Char} {msg : RxMsg} {h : HeaderEnd}

theorem toNat_eq_iff {c d : Char} : c.toNat = d.toNat ↔ c = d :=
  ⟨fun h => Char.toNat_inj.mp h, fun h => h ▸ rfl⟩

/-- What `idEnd` comes to for a request: the action is read, within `temp_buf`. -/
theorem idEnd_request {id rest : List Char} {q : Char} (htype : msg.msgType = '2'.toNat) :
    idEnd a msg id (q :: rest) =
      if (toQuote (fromQuote rest).tail).length ≤ tempBufCap then
        match fromQuote rest with
        | [] => some ⟨true, { msg with uniqueId := 0, uniqueIdChar := id, msgType := 2 }, []⟩
        | _ :: rest => some (actionEnd { msg with uniqueId := 0, uniqueIdChar := id, msgType := 2 }
            (toQuote rest) (fromQuote rest))
      else none := by
  unfold idEnd
  dsimp only
  rw [if_pos htype, headerLoop_actionOpen]
  cases fromQuote rest with
  | nil => rfl
  | cons q' rest' =>
    dsimp only
    rw [headerLoop_action (Nat.zero_le _), List.length_nil, Nat.zero_add, List.nil_append,
      List.tail_cons]

/-- **When `Parse_Header` stays within `temp_buf`.** -/
theorem parseHeader_isSome : (parseHeader a frame msg).isSome = true ↔
    (frame.head? = some '[' → (idText frame).length ≤ tempBufCap ∧
      ((typeText frame).head? = some '2' → (actionText frame).length ≤ tempBufCap)) := by
  rw [parseHeader_eq]
  by_cases hhead : frame.head? = some '['
  · rw [if_pos hhead]
    simp only [hhead, forall_const]
    cases htype : typeText frame with
    | nil =>
      have hid : idText frame = [] := by
        show toQuote (fromQuote (typeText frame)).tail = []
        rw [htype]
        rfl
      simp [hid, tempBufCap]
    | cons c cs =>
      dsimp only
      by_cases hlen : (idText frame).length ≤ tempBufCap
      · rw [if_pos hlen, and_iff_right hlen, List.head?_cons, Option.some.injEq]
        unfold actionText
        cases hafter : afterId frame with
        | nil => exact iff_of_true rfl fun _ => Nat.zero_le _
        | cons q rest =>
          rw [List.tail_cons]
          by_cases hc : c = '2'
          · rw [idEnd_request (toNat_eq_iff.mpr hc)]
            simp only [hc, forall_const]
            split
            · rename_i hle
              refine iff_of_true ?_ hle
              split <;> rfl
            · rename_i hle
              exact iff_of_false (by simp) hle
          · refine iff_of_true ?_ fun h => absurd h hc
            unfold idEnd
            dsimp only
            rw [if_neg fun h => hc (toNat_eq_iff.mp h)]
            split <;> rfl
      · rw [if_neg hlen]
        exact iff_of_false (by simp) fun h => hlen h.1
  · rw [if_neg hhead]
    exact iff_of_true rfl fun h => absurd h hhead

theorem actionEnd_rest (msg : RxMsg) (action rest : List Char) :
    (if (actionEnd msg action rest).err then none else some (actionEnd msg action rest).rest) =
      match rest with
      | [] => none
      | _ :: rest => if csReqMsg.any (fun e => e.1 = cstr action) then some rest else none := by
  unfold actionEnd
  cases rest with
  | nil => rfl
  | cons q rest =>
    dsimp only
    cases hfind : csReqMsg.find? fun e => decide (e.1 = cstr action) with
    | none =>
      have hany : ¬ csReqMsg.any (fun e => decide (e.1 = cstr action)) = true := by
        rw [List.any_eq_true]
        rintro ⟨e, he, hp⟩
        exact List.find?_eq_none.mp hfind e he hp
      rw [if_neg hany]
      rfl
    | some e =>
      have hany : csReqMsg.any (fun e => decide (e.1 = cstr action)) = true :=
        List.any_eq_true.mpr ⟨e, List.mem_of_find?_eq_some hfind,
          List.find?_some (p := fun e : List Char × CsReqAction => decide (e.1 = cstr action)) hfind⟩
      rw [if_pos hany]
      rfl

/-- **What `Parse_Header` hands on**, and whether it took the frame for an answer. -/
theorem parseHeader_body (hp : parseHeader a frame msg = some h) :
    (if h.err then none else some h.rest) = body frame ∧
      (h.err = false → (h.msg.msgType = 3 ↔ (typeText frame).head? = some '3')) := by
  rw [parseHeader_eq] at hp
  unfold body
  -- the header is looked for by quotes; wherever one is missing there is no payload
  by_cases hhead : frame.head? = some '['
  · rw [if_pos hhead] at hp ⊢
    cases htype : typeText frame with
    | nil =>
      have hafter : afterId frame = [] := by
        unfold afterId
        rw [htype]
        rfl
      rw [htype] at hp
      simp only [Option.some.injEq] at hp
      subst hp
      rw [hafter]
      exact ⟨rfl, fun he => absurd he (by simp)⟩
    | cons c cs =>
      rw [htype] at hp
      dsimp only at hp
      simp only [List.head?_cons, Option.some.injEq]
      split at hp
      · unfold afterAction
        cases hafter : afterId frame with
        | nil =>
          rw [hafter] at hp
          simp only [idEnd, Option.some.injEq] at hp
          subst hp
          exact ⟨rfl, fun he => absurd he (by simp)⟩
        | cons q rest =>
          rw [hafter] at hp
          dsimp only
          rw [List.tail_cons]
          by_cases hc : c = '2'
          · rw [idEnd_request (toNat_eq_iff.mpr hc)] at hp
            rw [if_pos hc]
            split at hp
            · unfold actionText
              rw [hafter, List.tail_cons]
              split at hp
              · rename_i hnil
                simp only [Option.some.injEq] at hp
                subst hp
                rw [hnil]
                exact ⟨rfl, fun he => absurd he (by simp)⟩
              · rename_i q' rest' hcons
                simp only [Option.some.injEq] at hp
                subst hp
                rw [hcons, List.tail_cons]
                refine ⟨actionEnd_rest .., fun he => ?_⟩
                rw [(actionEnd_accepted he).1, hc]
                exact iff_of_false (by simp) (by decide)
            · exact absurd hp (by simp)
          · rw [if_neg hc]
            unfold idEnd at hp
            dsimp only at hp
            rw [if_neg fun h => hc (toNat_eq_iff.mp h)] at hp
            split at hp
            · rename_i hthree
              simp only [Option.some.injEq] at hp
              subst hp
              exact ⟨rfl, fun _ => iff_of_true rfl (toNat_eq_iff.mp hthree)⟩
            · rename_i hthree
              simp only [Option.some.injEq] at hp
              subst hp
              exact ⟨rfl, fun _ => iff_of_false (by simp) fun hc' => hthree (toNat_eq_iff.mpr hc')⟩
      · exact absurd hp (by simp)
  · rw [if_neg hhead] at hp ⊢
    simp only [Option.some.injEq] at hp
    subst hp
    exact ⟨rfl, fun he => absurd he (by simp)⟩

end Header

/-! ## A received buffer -/

/-- **Every index the receive step uses on the bytes it was given is in range, and no counter
wraps**: the terminator behind them, `temp_buf`, and everything `Parse_Payload` indexes, where it
runs. -/
structure IndexSafe (s : Client) (buf : List Char) : Prop where
  terminator : buf.length < Client.recvBufCap
  header : (parseHeader s.callTxMsg.actionCode buf clearRxMsgBuff.msg).isSome = true
  payload : ∀ h, parseHeader s.callTxMsg.actionCode buf clearRxMsgBuff.msg = some h →
    h.err = false → ¬ (h.msg.msgType = 3 ∧ h.msg.uniqueId = s.dataTransUniqueId) →
      loopSafe (.start h.msg) '"' h.rest

/-- A safe buffer is parsed, to an error or to a message. -/
theorem IndexSafe.parseData {s : Client} {buf : List Char} (h : IndexSafe s buf) :
    (parseData s.callTxMsg.actionCode s.dataTransUniqueId clearRxMsgBuff buf).isSome = true := by
  obtain ⟨e, he⟩ := Option.isSome_iff_exists.mp h.header
  unfold ChargePoint.parseData
  rw [he, Option.bind_some]
  split
  · rfl
  · rename_i herr
    split
    · rfl
    · rename_i hdt
      have hloop := loopSafe_isSome (h.payload e he (by simpa using herr) hdt)
      unfold parsePayload
      rw [Option.map_map, Option.isSome_map]
      exact hloop

/-- What fits: less than the whole buffer, an id and an action of at most 30 characters, and a
payload every mark of which is allowed. An action of exactly 30 characters leaves `temp_buf` without
its zero: it is only a log's `%s` that reads on there, and the log is not modelled. -/
structure Fits (dataTransId : UInt64) (buf : List Char) : Prop where
  short : buf.length < Client.recvBufCap
  header : buf.head? = some '[' → (idText buf).length ≤ tempBufCap ∧
    ((typeText buf).head? = some '2' → (actionText buf).length ≤ tempBufCap)
  payload : ∀ rest, body buf = some rest →
    ¬ ((typeText buf).head? = some '3' ∧ idValue (idText buf) = dataTransId) →
      allowed .start (marks .start '"' rest)

/-- **Which buffers are safe.** -/
theorem index_safe_iff (s : Client) (buf : List Char) :
    IndexSafe s buf ↔ Fits s.dataTransUniqueId buf := by
  have hanswer : ∀ h, parseHeader s.callTxMsg.actionCode buf clearRxMsgBuff.msg = some h →
      h.err = false → body buf = some h.rest ∧
        (h.msg.msgType = 3 ∧ h.msg.uniqueId = s.dataTransUniqueId ↔
          (typeText buf).head? = some '3' ∧ idValue (idText buf) = s.dataTransUniqueId) := by
    intro h hp he
    obtain ⟨hbody, htype⟩ := parseHeader_body hp
    rw [he] at hbody
    refine ⟨hbody.symm, ?_⟩
    have hacc := parseHeader_accepted hp he
    rw [← htype he]
    refine and_congr_right fun h3 => ?_
    rcases hacc with ⟨-, -, hid⟩ | ⟨h2, -⟩ | h4
    · rw [hid]
    · exact absurd (h3.symm.trans h2) (by decide)
    · exact absurd (h3.symm.trans h4) (by decide)
  constructor
  · intro hsafe
    refine ⟨hsafe.terminator, parseHeader_isSome.mp hsafe.header, fun rest hrest hdt => ?_⟩
    obtain ⟨h, hp⟩ := Option.isSome_iff_exists.mp hsafe.header
    have he : h.err = false := by
      by_contra herr
      have hbody := (parseHeader_body hp).1
      rw [hrest, if_pos (by simpa using herr)] at hbody
      exact absurd hbody (by simp)
    obtain ⟨hbody, hiff⟩ := hanswer h hp he
    obtain rfl : h.rest = rest := by simpa using hbody.symm.trans hrest
    exact (loopSafe_iff (tracks_start h.msg) '"' h.rest).mp
      (hsafe.payload h hp he fun hc => hdt (hiff.mp hc))
  · intro hfits
    refine ⟨hfits.short, parseHeader_isSome.mpr hfits.header, fun h hp he hdt => ?_⟩
    obtain ⟨hbody, hiff⟩ := hanswer h hp he
    exact (loopSafe_iff (tracks_start h.msg) '"' h.rest).mpr
      (hfits.payload h.rest hbody fun hc => hdt (hiff.mpr hc))

/-- A request whose id is a UUID is written past the end of `temp_buf`. -/
theorem uuid_overruns : ¬ IndexSafe (Client.init 0 0)
    "[2,\"19223201-4cf2-4b1e-a2f5-0c7d1a9b6e3f\",\"Reset\",\x7b\"type\":\"Soft\"\x7d]".toList := by
  intro h
  exact absurd h.header (by decide)

end ChargePoint
