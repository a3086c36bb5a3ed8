import ChargePoint.Lib.Reading
import ChargePoint.Parse.Levels

/-!
# Tokens

`Parse_Payload` on the tokens of a JSON text, one rule for each, in the exact sense of
`Reading.Reads`: under which condition the parser gets through the token, and where it stands
then. Three things can go wrong at this level, and each is a condition here:

* before the first array, a `]` ends the loop — also inside a name or a string
  (`parses_name`, `parses_str`);
* a counted comma needs an entry to go to (`parses_comma`);
* `str_index` is a `uint8_t`: contents of more than 256 characters are written over themselves
  (`stored`).
-/

set_option autoImplicit false

namespace ChargePoint

open CStr Reading

/-! ## The loop as a scanner -/

/-- What `Parse_Payload` returns and leaves, from the middle of its loop. -/
def payloadEnd (s : PayloadSt) (last : Char) (cs : List Char) : Option (Bool × RxBuf) :=
  (payloadLoop s last cs).map fun s => (!s.step.ended, s.rx)

/-- The parser reads `t`, exactly if `ok`. -/
abbrev Parses (ok : Prop) (s : PayloadSt) (l : Char) (t : List Char) (P : PayloadSt → Prop) : Prop :=
  Reads payloadEnd (fun r => r.1 = false) ok s l t P

/-- A `]` before any array ends the loop. -/
def Halts (s : PayloadSt) (c : Char) : Prop := c = ']' ∧ s.arrStart = false

section Loop
variable {s s' : PayloadSt} {l c : Char} {t : List Char} {ok : Prop} {P : PayloadSt → Prop}

theorem payloadEnd_next (hc : ¬ Halts s c) (hf : s.feed l c = some (.next s')) (rest : List Char) :
    payloadEnd s l (c :: rest) = payloadEnd s' c rest := by
  unfold payloadEnd
  rw [payloadLoop, if_neg (show ¬ (c = ']' ∧ s.arrStart = false) from hc), hf]

theorem Parses.next (hc : ¬ Halts s c) (hf : s.feed l c = some (.next s'))
    (h : Parses ok s' c t P) : Parses ok s l (c :: t) P :=
  .cons (payloadEnd_next hc hf) h

/-- A character the loop cannot take. -/
theorem Parses.undefined (hc : ¬ Halts s c) (hf : s.feed l c = none) :
    Parses False s l (c :: t) P := by
  refine .dead fun rest r hr => ?_
  unfold payloadEnd at hr
  rw [payloadLoop, if_neg (show ¬ (c = ']' ∧ s.arrStart = false) from hc), hf] at hr
  exact absurd hr (by simp)

/-- A `]` before any array, in a state in which a payload must not end. -/
theorem Parses.halted (hc : Halts s c) (hs : s.step.ended = false) : Parses False s l (c :: t) P := by
  refine .dead fun rest r hr => ?_
  unfold payloadEnd at hr
  rw [payloadLoop, if_pos (show c = ']' ∧ s.arrStart = false from hc)] at hr
  simp only [Option.map_some, hs, Option.some.injEq] at hr
  rw [← hr]
  simp

/-! ## Blanks -/

/-- JSON white space. -/
def IsBlank (w : List Char) : Prop := ∀ c ∈ w, c = ' ' ∨ c = '\t' ∨ c = '\n' ∨ c = '\r'

/-- Only inside a string does the character before matter. -/
theorem feed_last (hs : s.step ≠ .str) (l' : Char) : s.feed l c = s.feed l' c := by
  unfold PayloadSt.feed
  split
  · rfl
  · rfl
  · rfl
  · rfl
  · rfl
  · rename_i hstr
    exact absurd hstr hs
  · rfl

theorem payloadEnd_last (hs : s.step ≠ .str) (l' : Char) (rest : List Char) :
    payloadEnd s l (c :: rest) = payloadEnd s l' (c :: rest) := by
  unfold payloadEnd
  rw [payloadLoop, payloadLoop, feed_last hs l']

/-- In `key` every character resets `str_index`. -/
theorem payloadEnd_key (hs : s.step = .key) (rest : List Char) :
    payloadEnd { s with strIndex := 0 } l (c :: rest) = payloadEnd s l (c :: rest) := by
  have hfeed : PayloadSt.feed { s with strIndex := 0 } l c = s.feed l c := by
    unfold PayloadSt.feed
    simp only [hs]
  unfold payloadEnd
  rw [payloadLoop, payloadLoop, hfeed]
  dsimp only
  split
  · rfl
  · rfl

/-- **Between two tokens blanks are not noticed.** -/
theorem payloadEnd_blank {w : List Char} (hw : IsBlank w) (hname : s.step ≠ .name)
    (hstr : s.step ≠ .str) (rest : List Char) :
    payloadEnd s l (w ++ c :: rest) = payloadEnd s l (c :: rest) := by
  induction w generalizing l with
  | nil => rfl
  | cons b w ih =>
    have hb : b = ' ' ∨ b = '\t' ∨ b = '\n' ∨ b = '\r' := hw b List.mem_cons_self
    have hw' : IsBlank w := fun c hc => hw c (List.mem_cons_of_mem b hc)
    have hhalt : ¬ Halts s b := by
      rintro ⟨rfl, -⟩
      exact absurd hb (by decide)
    by_cases hkey : s.step = .key
    · have hf : s.feed l b = some (.next { s with strIndex := 0 }) := by
        unfold PayloadSt.feed
        rw [hkey]
        rcases hb with rfl | rfl | rfl | rfl <;> rfl
      rw [List.cons_append, payloadEnd_next hhalt hf]
      -- the rest begins with a character, which resets the index again
      have hreset : payloadEnd { s with strIndex := 0 } b (w ++ c :: rest) =
          payloadEnd s b (w ++ c :: rest) := by
        cases w with
        | nil => exact payloadEnd_key hkey rest
        | cons b' w => exact payloadEnd_key hkey (w ++ c :: rest)
      rw [hreset, ih hw', payloadEnd_last hstr l]
    · have hf : s.feed l b = some (.next s) := by
        unfold PayloadSt.feed
        cases hstep : s.step with
        | key => exact absurd hstep hkey
        | name => exact absurd hstep hname
        | str => exact absurd hstep hstr
        | brace | colon | value | after => rcases hb with rfl | rfl | rfl | rfl <;> rfl
      rw [List.cons_append, payloadEnd_next hhalt hf, ih hw', payloadEnd_last hstr l]

theorem Parses.blank {w : List Char} (hw : IsBlank w) (hname : s.step ≠ .name)
    (hstr : s.step ≠ .str) (h : Parses ok s l (c :: t) P) : Parses ok s l (w ++ c :: t) P :=
  .skip (payloadEnd_blank hw hname hstr) h

end Loop

/-! ## Names and contents -/

/-- The entry being filled changed by `f`; `str_index` and the step are now `n` and `q`. -/
def PayloadSt.filled (s : PayloadSt) (d : Nat) (f : Payload → Payload) (n : Nat)
    (q : PayloadStep) : PayloadSt :=
  { s with step := q, strIndex := n, rx := s.rx.set (.level d) (s.rx.path d) (f (s.rx.entry d)) }

/-- A change of an entry that leaves its counter alone. -/
def KeepsLen (f : Payload → Payload) : Prop := ∀ p, (f p).subPayloadLen = p.subPayloadLen

section Contents
variable {s : PayloadSt} {d n : Nat} {l : Char} {q : PayloadStep} {f g : Payload → Payload}

theorem PayloadSt.filled_path (hf : KeepsLen f) (k : Nat) :
    (s.filled d f n q).rx.path k = s.rx.path k :=
  RxBuf.path_set _ _ _ (hf _) k

theorem PayloadSt.filled_entry (hf : KeepsLen f) :
    (s.filled d f n q).rx.entry d = f (s.rx.entry d) := by
  rw [RxBuf.entry, filled_path hf]
  exact RxBuf.get_set_same ..

theorem PayloadSt.Stands.filled (h : s.Stands d) (hf : KeepsLen f) :
    (s.filled d f n q).Stands d :=
  h.wrote rfl (hf _) rfl rfl rfl

theorem PayloadSt.filled_keeps (h : s.Stands d) (hf : KeepsLen f) :
    Keeps d s (s.filled d f n q) :=
  .of_wrote h.le rfl (hf _) rfl

theorem PayloadSt.filled_filled (hf : KeepsLen f) (m : Nat) (q' : PayloadStep) :
    (s.filled d f n q).filled d g m q' = s.filled d (fun p => g (f p)) m q' := by
  have hentry := filled_entry (s := s) (d := d) (n := n) (q := q) hf
  have hpath := filled_path (s := s) (d := d) (n := n) (q := q) hf d
  rw [filled, hentry, hpath]
  unfold filled
  rw [RxBuf.set_set]

theorem PayloadSt.filled_id (s : PayloadSt) (d : Nat) (q : PayloadStep) :
    s.filled d (fun p => p) s.strIndex q = { s with step := q } := by
  unfold filled RxBuf.entry
  rw [RxBuf.set_get_self]

/-- A character appended to the name. -/
theorem putName_filled (h : s.Stands d) (hlen : (s.rx.entry d).propertyName.length = s.strIndex)
    (hlt : s.strIndex < 60) (c : Char) : s.putName c =
      some (s.filled d (fun p => { p with propertyName := p.propertyName ++ [c] })
        (s.strIndex + 1) s.step) := by
  unfold PayloadSt.putName
  rw [if_pos hlt, PayloadSt.modifyCur_stands h, Option.map_some, put_of_length_eq c hlen.symm]
  dsimp only
  rw [Nat.mod_eq_of_lt (by omega)]
  rfl

/-- **A name**, to its closing quote. -/
theorem parses_name {cs : List Char} (h : s.Stands d) (hstep : s.step = .name)
    (hlen : (s.rx.entry d).propertyName.length = s.strIndex) (hcap : s.strIndex + cs.length ≤ 60)
    (hquote : '"' ∉ cs) :
    Parses (s.arrStart = true ∨ ']' ∉ cs) s l (cs ++ ['"']) fun s' => s' =
      s.filled d (fun p => { p with propertyName := p.propertyName ++ cs })
        (s.strIndex + cs.length) .colon := by
  induction cs generalizing s l with
  | nil =>
    have hfeed : s.feed l '"' = some (.next { s with step := .colon }) := by
      unfold PayloadSt.feed
      rw [hstep]
      rfl
    refine (Parses.next (fun hc => absurd hc.1 (by decide)) hfeed (Reads.nil ?_)).congr
      ⟨fun _ => .inr List.not_mem_nil, fun _ => trivial⟩
    simp only [List.append_nil, List.length_nil, Nat.add_zero]
    exact (s.filled_id d .colon).symm
  | cons c cs ih =>
    obtain ⟨hc, hcs⟩ := not_or.mp (mt List.mem_cons.mpr hquote)
    have hsum : s.strIndex + 1 + cs.length = s.strIndex + (c :: cs).length := by
      rw [List.length_cons]
      omega
    rw [List.cons_append]
    -- a closing bracket outside of an array ends the parser in the middle of the name
    by_cases hhalt : Halts s c
    · refine (Parses.halted hhalt (by rw [hstep]; rfl)).congr ⟨False.elim, ?_⟩
      rintro (harr | hmem)
      · rw [hhalt.2] at harr
        exact absurd harr (by simp)
      · exact hmem (hhalt.1 ▸ List.mem_cons_self)
    · have hfeed : s.feed l c = (s.putName c).map .next := by
        unfold PayloadSt.feed
        rw [hstep]
        exact if_neg (Ne.symm hc)
      rw [putName_filled h hlen (by omega) c] at hfeed
      have hkeep : KeepsLen fun p => { p with propertyName := p.propertyName ++ [c] } :=
        fun _ => rfl
      have hread := ih (l := c) (h.filled (n := s.strIndex + 1) (q := s.step) hkeep) hstep
        (by rw [PayloadSt.filled_entry hkeep]; simp only [List.length_append, hlen]; rfl)
        (hsum ▸ hcap) hcs
      refine (Parses.next hhalt hfeed (hread.imp fun s' hs' => ?_)).congr ?_
      · rw [hs', PayloadSt.filled_filled hkeep]
        simp only [List.append_assoc, List.singleton_append]
        rw [← hsum]
        rfl
      · show (s.arrStart = true ∨ _) ↔ _
        rw [List.mem_cons, not_or]
        by_cases harr : s.arrStart = true
        · simp [harr]
        · have hne : ¬ ']' = c := fun heq => hhalt ⟨heq.symm, by simpa using harr⟩
          simp [hne]

/-- What a buffer and `str_index` become as the characters are stored. -/
def storeFrom : List Char → Nat → List Char → List Char × Nat
  | b, i, [] => (b, i)
  | b, i, c :: cs => storeFrom (put b i c) ((i + 1) % 256) cs

/-- The contents of a value, as stored. -/
def stored (cs : List Char) : List Char := (storeFrom [] 0 cs).1

theorem putContants_filled (h : s.Stands d) (c : Char) : s.putContants c =
    some (s.filled d (fun p => { p with propertyContants := put p.propertyContants s.strIndex c })
      ((s.strIndex + 1) % 256) s.step) := by
  unfold PayloadSt.putContants
  rw [PayloadSt.modifyCur_stands h]
  rfl

/-- The entry with `cs` stored into its contents from `str_index` on. -/
def PayloadSt.contents (s : PayloadSt) (d : Nat) (cs : List Char) (q : PayloadStep) : PayloadSt :=
  s.filled d (fun p => { p with propertyContants := (storeFrom p.propertyContants s.strIndex cs).1 })
    (storeFrom [] s.strIndex cs).2 q

theorem storeFrom_index (b b' : List Char) (i : Nat) (cs : List Char) :
    (storeFrom b i cs).2 = (storeFrom b' i cs).2 := by
  induction cs generalizing b b' i with
  | nil => rfl
  | cons c cs ih => exact ih ..

/-- Storing one character and then the others. -/
theorem PayloadSt.contents_cons (s : PayloadSt) (d : Nat) (c : Char) (cs : List Char)
    (q q' : PayloadStep) :
    (s.filled d (fun p => { p with propertyContants := put p.propertyContants s.strIndex c })
      ((s.strIndex + 1) % 256) q).contents d cs q' = s.contents d (c :: cs) q' := by
  have hkeep : KeepsLen fun p =>
      { p with propertyContants := put p.propertyContants s.strIndex c } := fun _ => rfl
  unfold contents
  rw [filled_filled hkeep, storeFrom_index [] (put [] s.strIndex c)]
  rfl

/-- **A string**, to its closing quote. -/
theorem parses_str {cs : List Char} (h : s.Stands d) (hstep : s.step = .str) (hl : l ≠ '\\')
    (hcs : ∀ c ∈ cs, c ≠ '"' ∧ c ≠ '\\') :
    Parses (s.arrStart = true ∨ ']' ∉ cs) s l (cs ++ ['"'])
      fun s' => s' = s.contents d cs .after := by
  induction cs generalizing s l with
  | nil =>
    have hfeed : s.feed l '"' = some (.next { s with step := .after }) := by
      unfold PayloadSt.feed
      rw [hstep]
      exact if_pos ⟨rfl, hl⟩
    exact (Parses.next (fun hc => absurd hc.1 (by decide)) hfeed
      (Reads.nil (s.filled_id d .after).symm)).congr
        ⟨fun _ => .inr List.not_mem_nil, fun _ => trivial⟩
  | cons c cs ih =>
    obtain ⟨hquote, hback⟩ := hcs c List.mem_cons_self
    rw [List.cons_append]
    by_cases hhalt : Halts s c
    · refine (Parses.halted hhalt (by rw [hstep]; rfl)).congr ⟨False.elim, ?_⟩
      rintro (harr | hmem)
      · rw [hhalt.2] at harr
        exact absurd harr (by simp)
      · exact hmem (hhalt.1 ▸ List.mem_cons_self)
    · have hfeed : s.feed l c = (s.putContants c).map .next := by
        unfold PayloadSt.feed
        rw [hstep]
        exact if_neg fun hc => hquote hc.1
      rw [putContants_filled h] at hfeed
      have hread := ih (l := c) (h.filled (n := (s.strIndex + 1) % 256) (q := s.step)
        (f := fun p => { p with propertyContants := put p.propertyContants s.strIndex c })
        fun _ => rfl) hstep hback fun c hc => hcs c (List.mem_cons_of_mem _ hc)
      refine (Parses.next hhalt hfeed (hread.imp fun s' hs' => ?_)).congr ?_
      · rw [hs', PayloadSt.contents_cons]
      · show (s.arrStart = true ∨ _) ↔ _
        rw [List.mem_cons, not_or]
        by_cases harr : s.arrStart = true
        · simp [harr]
        · have hne : ¬ ']' = c := fun heq => hhalt ⟨heq.symm, by simpa using harr⟩
          simp [hne]

/-- **A number.** -/
theorem parses_num {cs : List Char} (h : s.Stands d) (hstep : s.step = .value)
    (hcs : ∀ c ∈ cs, c.isDigit = true) :
    Parses True s l cs fun s' => s' = s.contents d cs .value := by
  induction cs generalizing s l with
  | nil =>
    refine Reads.nil ?_
    have hid := s.filled_id d .value
    rw [← hstep] at hid
    exact hstep ▸ hid.symm
  | cons c cs ih =>
    have hc := hcs c List.mem_cons_self
    have hne : ∀ x : Char, x.isDigit = false → c ≠ x := by
      rintro x hx rfl
      rw [hc] at hx
      exact absurd hx (by simp)
    have hfeed : s.feed l c = (s.putContants c).map .next := by
      unfold PayloadSt.feed
      rw [hstep]
      simp only [hne '"' (by decide), hne '}' (by decide), hne ']' (by decide),
        hne ',' (by decide), hc, if_false, if_true]
    rw [putContants_filled h] at hfeed
    have hread := ih (l := c) (h.filled (n := (s.strIndex + 1) % 256) (q := s.step)
      (f := fun p => { p with propertyContants := put p.propertyContants s.strIndex c })
      fun _ => rfl) hstep fun c hc => hcs c (List.mem_cons_of_mem _ hc)
    exact Parses.next (fun hh => hne ']' (by decide) hh.1) hfeed
      (hread.imp fun s' hs' => by rw [hs', PayloadSt.contents_cons])

end Contents

/-! ## What is stored of a value -/

theorem storeFrom_of_fits (b cs : List Char) (h : b.length + cs.length ≤ 256) :
    (storeFrom b b.length cs).1 = b ++ cs := by
  induction cs generalizing b with
  | nil => exact (List.append_nil b).symm
  | cons c cs ih =>
    rw [List.length_cons] at h
    rw [storeFrom, put_length]
    cases cs with
    | nil => rfl
    | cons c' cs' =>
      rw [List.length_cons] at h
      have hidx : (b.length + 1) % 256 = (b ++ [c]).length := by
        rw [Nat.mod_eq_of_lt (by omega), List.length_append]
        rfl
      rw [hidx, ih (b ++ [c]) (by rw [List.length_append, List.length_cons]; simp; omega),
        List.append_assoc]
      rfl

/-- Values of up to 256 characters are stored as they are. -/
theorem stored_of_le {cs : List Char} (h : cs.length ≤ 256) : stored cs = cs :=
  storeFrom_of_fits [] cs (by simpa using h)

theorem storeFrom_length (b : List Char) (i : Nat) (cs : List Char) (hb : b.length ≤ 256)
    (hi : i < 256) : (storeFrom b i cs).1.length ≤ 256 := by
  induction cs generalizing b i with
  | nil => exact hb
  | cons c cs ih =>
    refine ih (put b i c) ((i + 1) % 256) ?_ (Nat.mod_lt _ (by decide))
    unfold put
    split
    · rw [List.length_set]
      exact hb
    · simp only [List.length_append, List.length_replicate, List.length_cons, List.length_nil]
      omega

/-- **A value is stored as it is exactly if it has at most 256 characters.** -/
theorem stored_iff (cs : List Char) : stored cs = cs ↔ cs.length ≤ 256 :=
  ⟨fun h => h ▸ storeFrom_length [] 0 cs (Nat.zero_le _) (by decide), stored_of_le⟩

end ChargePoint
