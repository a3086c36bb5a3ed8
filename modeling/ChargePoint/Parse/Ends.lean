import ChargePoint.Parse.Bounds

/-!
# How the payload loop ends

`Parse.Bounds` asks that no index leaves its array *and* that no counter wraps. One counter may
wrap without harm: `str_index` goes from 255 to 0, and what follows overwrites the value from its
first character on. `roomy` is `allowed` without that clause, and `payloadLoop_spec` is what the
loop comes to on any text: it has a result exactly if the text is roomy, it ends in the step
`stops` names, and the entries it counted are in `Payload`.
-/

set_option autoImplicit false

namespace ChargePoint

open CStr PayloadSt

/-- The step in which the parser stops to read. -/
def stops : Control → Char → List Char → PayloadStep
  | k, _, [] => k.step
  | k, last, c :: cs =>
    if c = ']' ∧ k.arr = false then k.step
    else
      match (k.read last c).2 with
      | none => k.step
      | some k' => stops k' c cs

/-- The next count, where the position is a `uint8_t`. -/
def Tally.turn (t : Tally) (m : Mark) : Tally :=
  { t.next m with index := (t.next m).index % 256 }

/-- There is room for it in the arrays. A value of any length has room: `property_contants[1024]`
holds every position a `uint8_t` has. -/
def Mark.Roomy (t : Tally) (m : Mark) : Prop := m = .store ∨ m.Allowed t

/-- Every mark has room where it stands. -/
def roomy : Tally → List Mark → Prop
  | _, [] => True
  | t, m :: ms => m.Roomy t ∧ roomy (t.turn m) ms

theorem roomy_append (t : Tally) (ms ms' : List Mark) :
    roomy t (ms ++ ms') ↔ roomy t ms ∧ roomy (ms.foldl Tally.turn t) ms' := by
  induction ms generalizing t with
  | nil => exact (true_and _).symm.to_iff
  | cons m ms ih =>
    show m.Roomy t ∧ roomy (t.turn m) (ms ++ ms') ↔ _
    rw [ih]
    exact and_assoc.symm

/-! ## Counts that wrap, and counts that do not -/

section Turns
variable {t : Tally} {m : Mark} {ms : List Mark}

/-- Where there is room without a wrap, the two counts agree. -/
theorem Tally.turn_eq (hm : m.Allowed t) (hbyte : t.index < 256) :
    t.turn m = t.next m ∧ (t.next m).index < 256 := by
  have hlt : (t.next m).index < 256 := by
    cases m with
    | down | up | comma => exact hbyte
    | name =>
      have hname : t.index < 60 := hm
      show t.index + 1 < 256
      omega
    | store =>
      have hstore : t.index < 255 := hm
      show t.index + 1 < 256
      omega
    | reset => exact Nat.zero_lt_succ 255
  refine ⟨?_, hlt⟩
  unfold Tally.turn
  rw [Nat.mod_eq_of_lt hlt]

theorem allowed.roomy (h : allowed t ms) (hbyte : t.index < 256) :
    roomy t ms ∧ ms.foldl Tally.turn t = ms.foldl Tally.next t := by
  induction ms generalizing t with
  | nil => exact ⟨trivial, rfl⟩
  | cons m ms ih =>
    obtain ⟨hturn, hlt⟩ := Tally.turn_eq h.1 hbyte
    obtain ⟨hrest, hfold⟩ := ih h.2 hlt
    refine ⟨⟨.inr h.1, ?_⟩, ?_⟩
    · rw [hturn]
      exact hrest
    · rw [List.foldl_cons, List.foldl_cons, hturn, hfold]

/-- Without a character to store, roomy is allowed. -/
theorem roomy.allowed (h : roomy t ms) (hbyte : t.index < 256) (hstore : .store ∉ ms) :
    allowed t ms := by
  induction ms generalizing t with
  | nil => trivial
  | cons m ms ih =>
    obtain ⟨hm, hms⟩ := not_or.mp (mt List.mem_cons.mpr hstore)
    have hall : m.Allowed t := h.1.resolve_left (Ne.symm hm)
    obtain ⟨hturn, hlt⟩ := Tally.turn_eq hall hbyte
    refine ⟨hall, ih ?_ hlt hms⟩
    rw [← hturn]
    exact h.2

end Turns

/-! ## One character -/

section Feed
variable {s s' : PayloadSt} {k : Control} {t : Tally} {last c : Char}

/-- A bracket that ends the loop leaves the step and the message as they are. -/
theorem feed_stop (h : s.feed last c = some (.stop s')) : s'.step = s.step ∧ s'.rx = s.rx := by
  unfold PayloadSt.feed at h
  cases hstep : s.step with
  | brace | name | colon | str =>
    rw [hstep] at h
    dsimp only at h
    split at h <;> simp at h
  | key =>
    rw [hstep] at h
    dsimp only at h
    split at h
    · split at h
      · cases h
        exact ⟨rfl, rfl⟩
      · cases h
    · split at h <;> simp at h
  | value =>
    rw [hstep] at h
    dsimp only at h
    split at h
    · cases h
    · split at h
      · split at h
        · cases h
          exact ⟨hstep, rfl⟩
        · cases h
      · split at h
        · split at h
          · cases h
            exact ⟨hstep, rfl⟩
          · cases h
        · repeat' split at h
          all_goals simp at h
  | after =>
    rw [hstep] at h
    dsimp only at h
    split at h
    · simp at h
    · split at h
      · split at h
        · cases h
          exact ⟨hstep, rfl⟩
        · cases h
      · cases h

/-- A digit is none of the characters a value reacts to. -/
theorem digit_plain (h : c.isDigit = true) : c ≠ '"' ∧ c ≠ '}' ∧ c ≠ ']' ∧ c ≠ ',' := by
  refine ⟨?_, ?_, ?_, ?_⟩ <;>
    · rintro rfl
      exact absurd h (by decide)

/-- A character that is stored. -/
theorem stores_feed (h : s.Stores last c) : s.feed last c = (s.putContants c).map .next := by
  unfold PayloadSt.feed
  rcases h with ⟨hstep, hdigit⟩ | ⟨hstep, hstr⟩
  · obtain ⟨hquote, hbrace, hbracket, hcomma⟩ := digit_plain hdigit
    rw [hstep]
    dsimp only
    rw [if_neg hquote, if_neg hbrace, if_neg hbracket, if_neg hcomma, if_pos hdigit]
  · rw [hstep]
    dsimp only
    rw [if_neg hstr]

theorem stores_read (hk : s.step = k.step) (h : s.Stores last c) :
    k.read last c = ([.store], some k) := by
  unfold Control.read
  rcases h with ⟨hstep, hdigit⟩ | ⟨hstep, hstr⟩
  · obtain ⟨hquote, hbrace, hbracket, hcomma⟩ := digit_plain hdigit
    rw [← hk, hstep]
    dsimp only
    rw [if_neg hquote, if_neg (not_or.mpr ⟨hbrace, hbracket⟩), if_neg hcomma, if_pos hdigit]
  · rw [← hk, hstep]
    dsimp only
    rw [if_neg hstr]

theorem store_not_mem_close (k : Control) : .store ∉ k.close.1 := by
  unfold Control.close
  split
  · exact List.not_mem_nil
  · split <;> simp

/-- Only a character that is stored asks for it. -/
theorem stores_of_mem (hk : s.step = k.step) (h : .store ∈ (k.read last c).1) :
    s.Stores last c := by
  unfold Control.read at h
  cases hstep : k.step with
  | brace => simp [hstep] at h
  | key =>
    rw [hstep] at h
    dsimp only at h
    split at h
    · exact absurd ((List.mem_cons.mp h).resolve_left (by decide)) (store_not_mem_close k)
    · simp at h
  | name | colon =>
    rw [hstep] at h
    dsimp only at h
    split at h <;> simp at h
  | value =>
    rw [hstep] at h
    dsimp only at h
    split at h
    · simp at h
    split at h
    · exact absurd h (store_not_mem_close k)
    split at h
    · simp at h
    split at h
    · rename_i hdigit
      exact .inl ⟨hk.trans hstep, hdigit⟩
    · split at h
      · simp at h
      · split at h <;> simp at h
  | str =>
    rw [hstep] at h
    dsimp only at h
    split at h
    · simp at h
    · rename_i hstr
      exact .inr ⟨hk.trans hstep, hstr⟩
  | after =>
    rw [hstep] at h
    dsimp only at h
    split at h
    · split at h <;> simp at h
    · split at h
      · split at h <;> simp at h
      · simp at h

/-- A stored character, whether the position wraps behind it or not. -/
theorem stores_tracks (h : Tracks s k t) (hstores : s.Stores last c) :
    ∃ s', s.feed last c = some (.next s') ∧ Tracks s' k (t.turn .store) := by
  rw [stores_feed hstores, putContants_filled h.stands]
  have hfilled := h.filled (n := (s.strIndex + 1) % 256) (q := s.step)
    (f := fun p => { p with propertyContants := put p.propertyContants s.strIndex c })
    (fun _ => rfl) (Nat.mod_lt _ (by decide))
  have hk : ({ k with step := s.step } : Control) = k := by rw [h.step]
  rw [hk] at hfilled
  refine ⟨_, rfl, ?_⟩
  show Tracks _ k { t with index := (t.index + 1) % 256 }
  rw [h.index]
  exact hfilled

end Feed

/-! ## The whole loop -/

/-- What the loop comes to. -/
structure LoopSpec (k : Control) (t : Tally) (last : Char) (cs : List Char)
    (r : Option PayloadSt) : Prop where
  runs : r.isSome = true ↔ roomy t (marks k last cs)
  ends : ∀ s', r = some s' → s'.step = stops k last cs ∧ s'.rx.msg.payloadLen < payloadCap

/-- **What the loop comes to on any text.** Where `str_index` wraps, the parser goes on in the
same step. -/
theorem payloadLoop_spec {s : PayloadSt} {k : Control} {t : Tally} (h : Tracks s k t) (last : Char)
    (cs : List Char) : LoopSpec k t last cs (payloadLoop s last cs) := by
  -- character by character; a `]` outside of an array ends the loop
  induction cs generalizing s k t last with
  | nil =>
    refine ⟨iff_of_true rfl trivial, fun s' hs' => ?_⟩
    obtain rfl : s = s' := Option.some.inj hs'
    exact ⟨h.step, h.stands.top⟩
  | cons c cs ih =>
    unfold payloadLoop
    rw [h.arr]
    by_cases hhalt : c = ']' ∧ k.arr = false
    · rw [if_pos hhalt]
      refine ⟨?_, fun s' hs' => ?_⟩
      · unfold marks
        rw [if_pos hhalt]
        exact iff_of_true rfl trivial
      · obtain rfl : s = s' := Option.some.inj hs'
        unfold stops
        rw [if_pos hhalt]
        exact ⟨h.step, h.stands.top⟩
    rw [if_neg hhalt]
    have hmarks : marks k last (c :: cs) = (k.read last c).1 ++
        match (k.read last c).2 with
        | none => []
        | some k' => marks k' c cs := if_neg hhalt
    have hstops : stops k last (c :: cs) =
        match (k.read last c).2 with
        | none => k.step
        | some k' => stops k' c cs := if_neg hhalt
    by_cases hstore : .store ∈ (k.read last c).1
    · -- a value may be longer than the position counts
      have hstores := stores_of_mem h.step hstore
      obtain ⟨s', hfeed, htracks⟩ := stores_tracks h hstores
      have hrest := ih htracks c
      rw [stores_read h.step hstores] at hmarks hstops
      rw [hfeed]
      refine ⟨?_, fun u hu => ?_⟩
      · rw [hmarks, roomy_append]
        exact hrest.runs.trans (and_iff_right ⟨.inl rfl, trivial⟩).symm
      · rw [hstops]
        exact hrest.ends u hu
    · have hbyte : t.index < 256 := h.index ▸ h.byte
      have hstep := agrees h last c
      -- the marks of this character have room, and the loop goes on, or it runs out here
      by_cases hall : allowed t (k.read last c).1
      · obtain ⟨hroomy, hfold⟩ := hall.roomy hbyte
        obtain ⟨-, hnext⟩ := hstep.fine hall
        have hruns : roomy t (marks k last (c :: cs)) ↔
            roomy ((k.read last c).1.foldl Tally.next t)
              (match (k.read last c).2 with
                | none => []
                | some k' => marks k' c cs) := by
          rw [hmarks, roomy_append, hfold]
          exact and_iff_right hroomy
        cases hr : (k.read last c).2 with
        | none =>
          rw [hr] at hnext hruns hstops
          obtain ⟨u, hfeed⟩ := hnext
          rw [hfeed]
          refine ⟨iff_of_true rfl (hruns.mpr trivial), fun s' hs' => ?_⟩
          obtain rfl : u = s' := Option.some.inj hs'
          obtain ⟨hu, hrx⟩ := feed_stop hfeed
          rw [hstops, hu, hrx]
          exact ⟨h.step, h.stands.top⟩
        | some k' =>
          rw [hr] at hnext hruns hstops
          obtain ⟨s', hfeed, htracks⟩ := hnext
          have hrest := ih htracks c
          rw [hfeed]
          refine ⟨hrest.runs.trans hruns.symm, fun u hu => ?_⟩
          rw [hstops]
          exact hrest.ends u hu
      · have hnone : s.feed last c = none := by
          rcases hstep.bad hall with hwraps | hnone
          · rw [stores_read h.step hwraps.1] at hstore
            exact absurd (List.mem_singleton_self _) hstore
          · exact hnone
        rw [hnone]
        refine ⟨iff_of_false (by simp) fun hroomy => ?_, fun s' hs' => absurd hs' (by simp)⟩
        rw [hmarks, roomy_append] at hroomy
        exact hall (hroomy.1.allowed hbyte hstore)

/-- **What `Parse_Payload` comes to.** -/
theorem parsePayload_spec (msg : RxMsg) (rest : List Char) :
    ((parsePayload msg rest).isSome = true ↔ roomy .start (marks .start '"' rest)) ∧
      ∀ err rx, parsePayload msg rest = some (err, rx) →
        err = !(stops .start '"' rest).ended ∧ rx.msg.payloadLen < payloadCap := by
  have hspec := payloadLoop_spec (tracks_start msg) '"' rest
  unfold parsePayload
  rw [Option.isSome_map]
  refine ⟨hspec.runs, fun err rx h => ?_⟩
  obtain ⟨s', hs', heq⟩ := Option.map_eq_some_iff.mp h
  obtain ⟨rfl, rfl⟩ := Prod.mk.inj heq
  obtain ⟨hstep, hlen⟩ := hspec.ends s' hs'
  exact ⟨by rw [hstep], hlen⟩

end ChargePoint
