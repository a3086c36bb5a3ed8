import ChargePoint.Secc.Acceptance

/-!
# How the chunks of a response add up

The first half of `ValidSecc`, and with it the result on runs. `ParsBuf.Holds` says what the
buffer holds: some bytes, and zeros behind them. A chunk that comes first is all the buffer holds,
and the one behind a short chunk is appended to it, so a prefix of a response is kept and the rest
of it completes it.

Nothing is said of what a leftover chunk and the response behind it make. They may even pass for
another response; whatever they are, the buffer is empty afterwards.
-/

set_option autoImplicit false

namespace ChargePoint

/-! ## What the buffer holds -/

/-- These bytes, and zeros behind them. -/
def ParsBuf.Holds (b : ParsBuf) (f : List UInt8) : Prop :=
  b.bytes = f ++ List.replicate (parsBufCap - f.length) 0

theorem ParsBuf.holds_clear : ParsBuf.clear.Holds [] := rfl

/-- What is copied behind the bytes follows them. -/
theorem ParsBuf.Holds.memcpy {b : ParsBuf} {f c : List UInt8} (hb : b.Holds f)
    (h : f.length + c.length ≤ parsBufCap) : (b.memcpy f.length c h).Holds (f ++ c) := by
  have htake : b.bytes.take f.length = f := by
    rw [hb]
    exact List.take_left
  have hdrop : b.bytes.drop (f.length + c.length) =
      List.replicate (parsBufCap - (f ++ c).length) 0 := by
    rw [hb, ← List.drop_drop, List.drop_left, List.drop_replicate, List.length_append,
      Nat.sub_sub]
  unfold ParsBuf.Holds ParsBuf.memcpy
  simp only [htake, hdrop]

theorem ParsBuf.Holds.byte {b : ParsBuf} {f : List UInt8} (hb : b.Holds f) (i : Nat) :
    b.byte i = f.getD i 0 := by
  unfold ParsBuf.byte
  rw [hb, List.getD_eq_getElem?_getD, List.getD_eq_getElem?_getD, List.getElem?_append]
  split
  · rfl
  · rename_i hi
    rw [List.getElem?_replicate, List.getElem?_eq_none (by omega)]
    split <;> rfl

theorem Secc.frame_eq {s : Secc} {f : List UInt8} (hb : s.src.Holds f) :
    s.frame f.length = f := by
  unfold Secc.frame
  rw [hb]
  exact List.take_left

/-! ## The lengths

How long a response is to be stands in its second and third byte. A prefix that ends before them
is judged by the zeros of the buffer, and is too short as well. -/

section Lengths
variable {log : List SeccObs} {b : ParsBuf}

/-- The second byte of a response says which length it has. -/
theorem SeccResponse.code {f : List UInt8} (h : SeccResponse log f) :
    (f.getD 1 0 = fcRead ∧ f.length = (f.getD 2 0).toNat + 5) ∨
      (f.getD 1 0 = fcWrite ∧ f.length = 8) := by
  cases h with
  | @read a n count data hreq hcount hdata =>
    left
    refine ⟨rfl, ?_⟩
    show (withCrc (chrgId :: fcRead :: count :: data)).length = count.toNat + 5
    simp only [withCrc, List.length_append, List.length_cons, crcBytes_length]
    omega
  | @write a n hreq =>
    right
    exact ⟨rfl, rfl⟩

/-- A response is as long as it should be. -/
theorem lenCheck_response {f : List UInt8} (h : SeccResponse log f) (hb : b.Holds f) :
    lenCheck b f.length = .exact := by
  have hcodes : fcWrite ≠ fcRead := by decide
  unfold lenCheck
  rw [hb.byte 1, hb.byte 2]
  rcases h.code with ⟨hcode, hlen⟩ | ⟨hcode, hlen⟩
  · rw [if_pos hcode, if_neg (by omega), if_neg (by omega)]
  · rw [if_neg (by rw [hcode]; exact hcodes), if_pos hcode, if_neg (by omega), if_neg (by omega)]

/-- The first part of one is too short, also when it ends before the byte count: the buffer was
cleared, so a count of 0 stands there. -/
theorem lenCheck_take {p q : List UInt8} (h : SeccResponse log (p ++ q)) (hb : b.Holds p)
    (hp : 2 ≤ p.length) (hq : q ≠ []) : lenCheck b p.length = .short := by
  have hcodes : fcWrite ≠ fcRead := by decide
  have hpos : 0 < q.length := List.length_pos_iff.mpr hq
  have hget : ∀ i, i < p.length → (p ++ q).getD i 0 = p.getD i 0 := by
    intro i hi
    rw [List.getD_eq_getElem?_getD, List.getD_eq_getElem?_getD, List.getElem?_append_left hi]
  have hcode := h.code
  rw [hget 1 (by omega), List.length_append] at hcode
  unfold lenCheck
  rw [hb.byte 1, hb.byte 2]
  rcases hcode with ⟨hcode, hlen⟩ | ⟨hcode, hlen⟩
  · have hshort : p.length < (p.getD 2 0).toNat + 5 := by
      rcases Nat.lt_or_ge 2 p.length with hthird | hthird
      · rw [hget 2 hthird] at hlen
        omega
      · omega
    rw [if_pos hcode, if_pos hshort]
  · rw [if_neg (by rw [hcode]; exact hcodes), if_pos hcode, if_pos (by omega)]

end Lengths

/-! ## What a chunk leaves alone

`ValidSecc` reads the two requests and writes neither. With that, what was asked for last is the
same before and after every chunk. -/

/-- Two states with the same requests. -/
def Secc.SameTx (s t : Secc) : Prop := t.readTx = s.readTx ∧ t.writeTx = s.writeTx

theorem Secc.Linked.sameTx {s t : Secc} {log : List SeccObs} (h : s.Linked log)
    (ht : s.SameTx t) : t.Linked log where
  read := by
    rw [ht.1]
    exact h.read
  write := by
    rw [ht.2]
    exact h.write

/-- The state in what the first half comes to. -/
def Assembled.state : Assembled → Secc
  | .no s => s
  | .whole s _ => s

/-- The first half only writes the buffer and the leftover size. A message is within the buffer,
and empties it. -/
theorem assemble_frame {s : Secc} {chunk : List UInt8} {r : Assembled}
    (h : s.assemble chunk = some r) : s.SameTx r.state ∧
      ∀ t size, r = .whole t size → size ≤ parsBufCap ∧ t.dataContinSize = 0 := by
  unfold Secc.assemble at h
  split at h
  · rename_i hzero
    split at h
    · rename_i hfits
      split at h
      · cases h
        exact ⟨⟨rfl, rfl⟩, by simp⟩
      · dsimp only at h
        split at h <;> cases h
        case h_2.refl =>
          refine ⟨⟨rfl, rfl⟩, ?_⟩
          intro t size heq
          cases heq
          exact ⟨by omega, hzero⟩
        all_goals exact ⟨⟨rfl, rfl⟩, by simp⟩
    · cases h
  · split at h
    · rename_i hfits
      dsimp only at h
      split at h <;> cases h
      case h_1.refl =>
        refine ⟨⟨rfl, rfl⟩, ?_⟩
        intro t size heq
        cases heq
        exact ⟨by omega, rfl⟩
      all_goals exact ⟨⟨rfl, rfl⟩, by simp⟩
    · cases h
      exact ⟨⟨rfl, rfl⟩, by simp⟩

/-- The second half only writes `DataLen`. -/
theorem check_frame (s : Secc) (size : Nat) :
    (s.check size).2 = { s with dataLen := (s.check size).2.dataLen } := by
  unfold Secc.check
  repeat' split
  all_goals rfl

theorem check_sameTx (s : Secc) (size : Nat) : s.SameTx (s.check size).2 := by
  rw [check_frame]
  exact ⟨rfl, rfl⟩

theorem Secc.SameTx.trans {s t u : Secc} (h : s.SameTx t) (h' : t.SameTx u) : s.SameTx u :=
  ⟨h'.1.trans h.1, h'.2.trans h.2⟩

/-- The inversion of a chunk. -/
theorem chunk_cases {s s' : Secc} {chunk : List UInt8} {o : List SeccObs}
    (h : seccStep s (.chunk chunk) = some (s', o)) :
    (s.assemble chunk = some (.no s') ∧ o = []) ∨
      ∃ t size, s.assemble chunk = some (.whole t size) ∧ s' = (t.check size).2 ∧
        o = if (t.check size).1 then [.accepted (s'.frame size)] else [] := by
  simp only [seccStep, Secc.validSecc, Option.map_map, Option.map_eq_some_iff] at h
  obtain ⟨r, hr, heq⟩ := h
  cases r with
  | no t =>
    simp only [Function.comp_apply, Prod.mk.injEq] at heq
    obtain ⟨rfl, rfl⟩ := heq
    exact .inl ⟨hr, rfl⟩
  | whole t size =>
    simp only [Function.comp_apply, Prod.mk.injEq] at heq
    obtain ⟨rfl, rfl⟩ := heq
    exact .inr ⟨t, size, hr, rfl, rfl⟩

theorem chunk_sameTx {s s' : Secc} {chunk : List UInt8} {o : List SeccObs}
    (h : seccStep s (.chunk chunk) = some (s', o)) : s.SameTx s' := by
  rcases chunk_cases h with ⟨hr, -⟩ | ⟨t, size, hr, rfl, -⟩
  · exact (assemble_frame hr).1
  · exact (assemble_frame hr).1.trans (check_sameTx t size)

/-! ## The requests, over a run -/

theorem lastRead_append (log o : List SeccObs) : lastRead (log ++ o) =
    o.foldl (fun r o => match o with
      | .readBuilt a n => some (a, n)
      | .writeBuilt _ _ | .accepted _ => r) (lastRead log) :=
  List.foldl_append

theorem lastWrite_append (log o : List SeccObs) : lastWrite (log ++ o) =
    o.foldl (fun r o => match o with
      | .writeBuilt a n => some (a, n)
      | .readBuilt _ _ | .accepted _ => r) (lastWrite log) :=
  List.foldl_append

/-- A frame that was accepted asks for nothing. -/
theorem last_chunk {s s' : Secc} {o : List SeccObs} {chunk : List UInt8} (log : List SeccObs)
    (h : seccStep s (.chunk chunk) = some (s', o)) :
    lastRead (log ++ o) = lastRead log ∧ lastWrite (log ++ o) = lastWrite log := by
  rw [lastRead_append, lastWrite_append]
  rcases chunk_cases h with ⟨-, rfl⟩ | ⟨t, size, -, -, rfl⟩
  · exact ⟨rfl, rfl⟩
  · split <;> exact ⟨rfl, rfl⟩

theorem linked_step {s s' : Secc} {log o : List SeccObs} {e : SeccEvent} (h : s.Linked log)
    (hstep : seccStep s e = some (s', o)) : s'.Linked (log ++ o) := by
  cases e with
  | makeReadTx a n =>
    cases hstep
    refine ⟨?_, ?_⟩
    · rw [lastRead_append]
      exact ⟨rfl, led2Bed16_led2Bed16 n⟩
    · rw [lastWrite_append]
      exact h.write
  | setData d =>
    cases hstep
    rw [List.append_nil]
    exact ⟨h.read, h.write⟩
  | makeWriteTx a n =>
    simp only [seccStep, makeWriteTx, Option.map_eq_some_iff] at hstep
    obtain ⟨tx, htx, heq⟩ := hstep
    split at htx
    · cases htx
      cases heq
      refine ⟨?_, ?_⟩
      · rw [lastRead_append]
        exact h.read
      · rw [lastWrite_append]
        exact ⟨rfl, rfl, rfl⟩
    · cases htx
  | chunk c =>
    obtain ⟨hread, hwrite⟩ := last_chunk log hstep
    have hsame := h.sameTx (chunk_sameTx hstep)
    refine ⟨?_, ?_⟩
    · rw [hread]
      exact hsame.read
    · rw [hwrite]
      exact hsame.write

theorem SeccRun.linked {s : Secc} {log : List SeccObs} (h : SeccRun s log) : s.Linked log := by
  obtain ⟨src, dataContinSize, hrun⟩ := h
  exact hrun.invariant (I := Secc.Linked) ⟨rfl, rfl⟩ fun hI _ hstep => linked_step hI hstep

/-! ## Responses, chunk by chunk

From an empty buffer: a response that comes whole is accepted, one that comes in two parts is kept
and then accepted, wherever it was cut. From any buffer: a complete response leaves it empty,
accepted or not. -/

/-- The frame was taken: it is all the buffer holds, and nothing is left over. -/
structure Secc.Took (s : Secc) (f : List UInt8) : Prop where
  src : s.src.Holds f
  dataContinSize : s.dataContinSize = 0

section Chunks
variable {s : Secc} {log : List SeccObs}

/-- A whole response in the buffer is accepted. -/
theorem took_of_whole {t : Secc} {chunk f : List UInt8} (hlinked : t.Linked log)
    (hf : SeccResponse log f) (ht : t.Took f)
    (hr : s.assemble chunk = some (.whole t f.length)) :
    ∃ s', seccStep s (.chunk chunk) = some (s', [.accepted f]) ∧ s'.Took f := by
  have hcheck := check_complete hlinked hf (Secc.frame_eq ht.src)
  have hsrc : (t.check f.length).2.src = t.src := by rw [check_frame]
  have hsize : (t.check f.length).2.dataContinSize = t.dataContinSize := by rw [check_frame]
  have hframe : (t.check f.length).2.src.bytes.take f.length = f := by
    rw [hsrc]
    exact Secc.frame_eq ht.src
  refine ⟨(t.check f.length).2, ?_, ⟨?_, ?_⟩⟩
  · simp only [seccStep, Secc.validSecc, hr, Option.map_some, hcheck, if_true, hframe]
  · rw [hsrc]
    exact ht.src
  · rw [hsize]
    exact ht.dataContinSize

/-- **In one chunk.** -/
theorem accepts_whole (hlinked : s.Linked log) (hzero : s.dataContinSize = 0) {f : List UInt8}
    (hf : SeccResponse log f) :
    ∃ s', seccStep s (.chunk f) = some (s', [.accepted f]) ∧ s'.Took f := by
  obtain ⟨hlow, hhigh⟩ := hf.length
  have hfits : 0 + f.length ≤ parsBufCap := by
    unfold parsBufCap
    omega
  have hholds : (ParsBuf.clear.memcpy 0 f hfits).Holds f := ParsBuf.holds_clear.memcpy hfits
  let t : Secc := { s with src := ParsBuf.clear.memcpy 0 f hfits }
  have hr : s.assemble f = some (.whole t f.length) := by
    unfold Secc.assemble
    rw [if_pos hzero, dif_pos hfits, if_neg (by omega)]
    simp only [lenCheck_response hf hholds]
    rfl
  have ht : t.Took f := ⟨hholds, hzero⟩
  have htlinked : t.Linked log := hlinked.sameTx ⟨rfl, rfl⟩
  exact took_of_whole htlinked hf ht hr

/-- The first part of a response is kept. -/
theorem keeps_prefix (hzero : s.dataContinSize = 0) {p q : List UInt8} (hq : q ≠ [])
    (hf : SeccResponse log (p ++ q)) :
    ∃ s', seccStep s (.chunk p) = some (s', []) ∧ s'.src.Holds p ∧ s'.dataContinSize = p.length := by
  obtain ⟨-, hhigh⟩ := hf.length
  rw [List.length_append] at hhigh
  have hfits : 0 + p.length ≤ parsBufCap := by
    unfold parsBufCap
    omega
  have hholds : (ParsBuf.clear.memcpy 0 p hfits).Holds p := ParsBuf.holds_clear.memcpy hfits
  let t : Secc :=
    { s with src := ParsBuf.clear.memcpy 0 p hfits, dataContinSize := p.length }
  have hr : s.assemble p = some (.no t) := by
    unfold Secc.assemble
    rw [if_pos hzero, dif_pos hfits]
    rcases Nat.lt_or_ge p.length 2 with hp | hp
    · rw [if_pos hp]
    · rw [if_neg (by omega)]
      simp only [lenCheck_take hf hholds hp hq]
      rfl
  refine ⟨t, ?_, hholds, rfl⟩
  simp only [seccStep, Secc.validSecc, hr, Option.map_some, Bool.false_eq_true, if_false]

/-- **In two chunks**, wherever it is split. -/
theorem accepts_split (hlinked : s.Linked log) (hzero : s.dataContinSize = 0) {p q : List UInt8}
    (hp : p ≠ []) (hq : q ≠ []) (hf : SeccResponse log (p ++ q)) :
    ∃ s₁ s₂, seccStep s (.chunk p) = some (s₁, []) ∧
      seccStep s₁ (.chunk q) = some (s₂, [.accepted (p ++ q)]) ∧ s₂.Took (p ++ q) := by
  obtain ⟨s₁, hstep, hholds, hsize⟩ := keeps_prefix hzero hq hf
  have hlinked₁ : s₁.Linked log := hlinked.sameTx (chunk_sameTx hstep)
  obtain ⟨-, hhigh⟩ := hf.length
  rw [List.length_append] at hhigh
  have hfits : s₁.dataContinSize + q.length < parsBufCap := by
    unfold parsBufCap
    omega
  have hpos : s₁.dataContinSize ≠ 0 := by
    rw [hsize]
    exact fun h => hp (List.length_eq_zero_iff.mp h)
  let t : Secc :=
    { s₁ with src := s₁.src.memcpy s₁.dataContinSize q (Nat.le_of_lt hfits), dataContinSize := 0 }
  have hholds₁ : t.src.Holds (p ++ q) := by
    show (s₁.src.memcpy s₁.dataContinSize q (Nat.le_of_lt hfits)).Holds (p ++ q)
    simp only [hsize]
    exact hholds.memcpy _
  have hlen : s₁.dataContinSize + q.length = (p ++ q).length := by
    rw [hsize, List.length_append]
  have hr : s₁.assemble q = some (.whole t (p ++ q).length) := by
    unfold Secc.assemble
    rw [if_neg hpos, dif_pos hfits]
    simp only [hlen, lenCheck_response hf hholds₁, t]
  have ht : t.Took (p ++ q) := ⟨hholds₁, rfl⟩
  have htlinked : t.Linked log := hlinked₁.sameTx ⟨rfl, rfl⟩
  obtain ⟨s₂, hstep₂, htook⟩ := took_of_whole htlinked hf ht hr
  exact ⟨s₁, s₂, hstep, hstep₂, htook⟩

/-- **A complete response empties the buffer**, whatever was left over there. -/
theorem whole_empties (hlinked : s.Linked log) {f : List UInt8} (hf : SeccResponse log f) :
    ∃ s' o, seccStep s (.chunk f) = some (s', o) ∧ s'.dataContinSize = 0 := by
  rcases Nat.eq_zero_or_pos s.dataContinSize with hzero | hpos
  · obtain ⟨s', hstep, htook⟩ := accepts_whole hlinked hzero hf
    exact ⟨s', _, hstep, htook.dataContinSize⟩
  · have hempty : ∃ r, s.assemble f = some r ∧ r.state.dataContinSize = 0 := by
      unfold Secc.assemble
      rw [if_neg (by omega)]
      split
      · dsimp only
        split <;> exact ⟨_, rfl, rfl⟩
      · exact ⟨_, rfl, rfl⟩
    obtain ⟨r, hr, hzero⟩ := hempty
    cases r with
    | no t =>
      refine ⟨t, [], ?_, hzero⟩
      simp only [seccStep, Secc.validSecc, hr, Option.map_some, Bool.false_eq_true, if_false]
    | whole t size =>
      have hsize : (t.check size).2.dataContinSize = t.dataContinSize := by rw [check_frame]
      refine ⟨(t.check size).2, if (t.check size).1 then [.accepted ((t.check size).2.frame size)]
        else [], ?_, hsize.trans hzero⟩
      simp only [seccStep, Secc.validSecc, hr, Option.map_some, Secc.frame]

/-- What is accepted is a response, whatever the chunks were. -/
theorem accepted_response (hlinked : s.Linked log) {s' : Secc} {chunk f : List UInt8}
    {o : List SeccObs} (hstep : seccStep s (.chunk chunk) = some (s', o))
    (hf : SeccObs.accepted f ∈ o) : SeccResponse log f ∧ s'.frame f.length = f := by
  rcases chunk_cases hstep with ⟨-, rfl⟩ | ⟨t, size, hr, rfl, rfl⟩
  · simp at hf
  · obtain ⟨hsame, hwhole⟩ := assemble_frame hr
    obtain ⟨hsize, -⟩ := hwhole t size rfl
    have hsrc : (t.check size).2.frame size = t.frame size := by
      unfold Secc.frame
      rw [check_frame]
    split at hf
    · rename_i hcheck
      obtain rfl : f = (t.check size).2.frame size := by simpa using hf
      refine ⟨?_, ?_⟩
      · rw [hsrc]
        exact check_sound (hlinked.sameTx hsame) hsize hcheck
      · rw [frame_length hsize]
    · simp at hf

end Chunks

/-! ## The result -/

/-- Building a request, which does not touch the buffer. -/
def SeccEvent.Builds : SeccEvent → Prop
  | .makeReadTx _ _ | .setData _ | .makeWriteTx _ _ => True
  | .chunk _ => False

theorem builds_dataContinSize {s s' : Secc} {log' : List SeccObs}
    (h : Trace.Reach seccStep (fun _ _ e => e.Builds) s s' log') :
    s'.dataContinSize = s.dataContinSize := by
  refine h.invariant (I := fun t _ => t.dataContinSize = s.dataContinSize) rfl ?_
  intro t log e t' o hI hbuilds hstep
  cases e with
  | makeReadTx a n =>
    cases hstep
    exact hI
  | setData d =>
    cases hstep
    exact hI
  | makeWriteTx a n =>
    simp only [seccStep, Option.map_eq_some_iff] at hstep
    obtain ⟨tx, -, heq⟩ := hstep
    cases heq
    exact hI
  | chunk c => exact hbuilds.elim

theorem linked_reach {ok : Secc → List SeccObs → SeccEvent → Prop} {s s' : Secc}
    {log log' : List SeccObs} (hlinked : s.Linked log)
    (h : Trace.Reach seccStep ok s s' log') : s'.Linked (log ++ log') := by
  refine h.invariant (I := fun t l => t.Linked (log ++ l)) ?_ ?_
  · rw [List.append_nil]
    exact hlinked
  · intro t l e t' o hI _ hstep
    rw [← List.append_assoc]
    exact linked_step hI hstep

/-- **Which responses `ValidSecc` accepts**, in every state that is reached from anything in the
assembly buffer. Whatever the chunks, a frame that is accepted is a response to the last request
of its function. From an empty buffer a response is accepted in one chunk, and in two wherever it
is split; the buffer then holds it and nothing is left over. And once a complete response has
arrived, whatever was left over before it, the next one is accepted. -/
theorem secc_accepts {s : Secc} {log : List SeccObs} (h : SeccRun s log) :
    (∀ chunk s' o f, seccStep s (.chunk chunk) = some (s', o) → SeccObs.accepted f ∈ o →
      SeccResponse log f ∧ s'.frame f.length = f) ∧
    (s.dataContinSize = 0 → ∀ f, SeccResponse log f →
      ∃ s', seccStep s (.chunk f) = some (s', [.accepted f]) ∧ s'.Took f) ∧
    (s.dataContinSize = 0 → ∀ p q, p ≠ [] → q ≠ [] → SeccResponse log (p ++ q) →
      ∃ s₁ s₂, seccStep s (.chunk p) = some (s₁, []) ∧
        seccStep s₁ (.chunk q) = some (s₂, [.accepted (p ++ q)]) ∧ s₂.Took (p ++ q)) ∧
    (∀ f, SeccResponse log f → ∃ s₁ o₁, seccStep s (.chunk f) = some (s₁, o₁) ∧
      ∀ s₂ log₂ g, Trace.Reach seccStep (fun _ _ e => e.Builds) s₁ s₂ log₂ →
        SeccResponse (log ++ o₁ ++ log₂) g →
        ∃ s₃, seccStep s₂ (.chunk g) = some (s₃, [.accepted g]) ∧ s₃.Took g) := by
  have hlinked := h.linked
  refine ⟨?_, ?_, ?_, ?_⟩
  · intro chunk s' o f hstep hf
    exact accepted_response hlinked hstep hf
  · intro hzero f hf
    exact accepts_whole hlinked hzero hf
  · intro hzero p q hp hq hf
    exact accepts_split hlinked hzero hp hq hf
  · intro f hf
    obtain ⟨s₁, o₁, hstep, hzero⟩ := whole_empties hlinked hf
    refine ⟨s₁, o₁, hstep, ?_⟩
    intro s₂ log₂ g hbuilds hg
    have hlinked₂ := linked_reach (linked_step hlinked hstep) hbuilds
    exact accepts_whole hlinked₂ ((builds_dataContinSize hbuilds).trans hzero) hg

/-- The registers 0x7531 to 0x7532 were asked for, and one byte of something is left over: the
first response is taken for the rest of it, the second is accepted. -/
theorem secc_accepts_second :
    let s : Secc := { Secc.init ParsBuf.clear 1 with readTx := makeReadTx 0x7531 2 }
    let f := withCrc [chrgId, fcRead, 4, 0, 1, 0, 2]
    ∃ s₁ o₁ s₂, seccStep s (.chunk f) = some (s₁, o₁) ∧
      seccStep s₁ (.chunk f) = some (s₂, [.accepted f]) ∧ s₂.Took f := by
  intro s f
  have hrun : SeccRun s [.readBuilt 0x7531 2] :=
    ⟨ParsBuf.clear, 1, .step (e := SeccEvent.makeReadTx 0x7531 2) .start trivial rfl⟩
  obtain ⟨-, -, -, hsecond⟩ := secc_accepts hrun
  have hf : SeccResponse [.readBuilt 0x7531 2] f := .read rfl rfl rfl
  obtain ⟨s₁, o₁, hstep, hnext⟩ := hsecond f hf
  have hf₁ : SeccResponse ([.readBuilt 0x7531 2] ++ o₁ ++ []) f := by
    obtain ⟨hread, -⟩ := last_chunk [.readBuilt 0x7531 2] hstep
    rw [List.append_nil]
    exact .read hread rfl rfl
  obtain ⟨s₂, hstep₂, htook⟩ := hnext s₁ [] f .start hf₁
  exact ⟨s₁, o₁, s₂, hstep, hstep₂, htook⟩

end ChargePoint
