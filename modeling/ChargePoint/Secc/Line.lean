import ChargePoint.Secc.Turned

/-!
# The line to the SECC

`SeccRS232ReqTask` has one request on the line at a time: it writes one, waits for the reading
thread to accept a response, and gives the request up at the tenth turn without one. After ten
requests that were given up, with no response since, it switches the SECC off and on.

Both counts are kept in variables the two threads share. `LineInv` says what they count, from what
is seen on the line: `secc_one_request` is the discipline of the requests, and `secc_cycled_iff` is
when the SECC loses its power. A turn of either thread is one step here, as in `Secc.Task`.
-/

set_option autoImplicit false

namespace ChargePoint

open Trace

/-! ## What is seen

The line is observed apart from the registers: a request, a turn that waits, a request that is
given up, a response that was accepted, a power cycle. The steps are those of `Secc.Task`, and
only what they show is another. -/

inductive LineObs
  /-- a request is written -/
  | request
  /-- a turn waits -/
  | waited
  | gaveUp
  /-- `ValidSecc` accepts a response, and one was waited for or not -/
  | response (awaited : Bool)
  /-- the SECC is switched off and on -/
  | cycled
  deriving DecidableEq

/-- What the end of the requesting thread's loop shows. -/
def SeccTurn.lineObs (t : SeccTurn) : List LineObs :=
  let cycled : List LineObs := if t.task.rebootCnt < 10 then [] else [.cycled]
  match t.ret with
  | .asleep => []
  | .none => cycled
  | .read | .write => .request :: cycled

/-- What a step of the threads shows. -/
def SeccTask.lineObs (s : SeccTask) : SeccTaskEvent → List LineObs
  | .tick _ =>
    if s.asleep then []
    else if s.plcRespWaitCnt ≠ 0 then [if 10 < s.plcRespWaitCnt + 1 then .gaveUp else .waited]
    else (s.due.map SeccTurn.lineObs).getD []
  | .wake _ =>
    if s.asleep then
      ((SeccTask.writeTx { s with asleep := false } 40027 4).map SeccTurn.lineObs).getD []
    else []
  | .chunk bytes =>
    match s.secc.validSecc bytes with
    | some r => if r.1.1 then [.response (s.plcRespWaitCnt ≠ 0)] else []
    | none => []
  | .cardWait | .setTx _ | .setEvcc _ => []

/-- **The two threads**, and what is seen on the line. -/
def seccLineStep : Step SeccTask SeccTaskEvent LineObs :=
  fun s e => (seccTaskStep s e).map fun r => (r.1, s.lineObs e)

/-! ## What it comes to -/

/-- A request is on the line. -/
def LineObs.mark (b : Bool) : LineObs → Bool
  | .request => true
  | .gaveUp | .response _ => false
  | .waited | .cycled => b

/-- A request is on the line that has no end yet. -/
def outstanding (log : List LineObs) : Bool := log.foldl LineObs.mark false

def LineObs.isRequest : LineObs → Bool
  | .request => true
  | .waited | .gaveUp | .response _ | .cycled => false

/-- The line is well, or is given a new start. -/
def LineObs.isFresh : LineObs → Bool
  | .response _ | .cycled => true
  | .request | .waited | .gaveUp => false

def LineObs.isGaveUp : LineObs → Bool
  | .gaveUp => true
  | .request | .waited | .response _ | .cycled => false

def LineObs.isWaited : LineObs → Bool
  | .waited => true
  | .request | .gaveUp | .response _ | .cycled => false

/-- The turns that have waited since the last request. -/
def waitedTurns (log : List LineObs) : Nat :=
  (since LineObs.isRequest log).countP LineObs.isWaited

/-- The requests that were given up in a row. -/
def givenUp (log : List LineObs) : Nat := (since LineObs.isFresh log).countP LineObs.isGaveUp

/-- **One request at a time.** What is seen next fits what was seen before: a request goes out when
there is none on the line, it is given up at the tenth turn that waits for it, and a response is
taken for its answer if and only if there is one. -/
def OneRequest (l : List LineObs) : LineObs → Prop
  | .request => outstanding l = false
  | .waited => outstanding l = true ∧ waitedTurns l < 9
  | .gaveUp => outstanding l = true ∧ waitedTurns l = 9
  | .response awaited => awaited = outstanding l
  | .cycled => True

section Counts
variable (log : List LineObs)

theorem outstanding_concat (x : LineObs) : outstanding (log ++ [x]) = x.mark (outstanding log) := by
  unfold outstanding
  rw [List.foldl_append]
  rfl

theorem waitedTurns_concat (x : LineObs) : waitedTurns (log ++ [x]) =
    if x.isRequest then 0 else waitedTurns log + x.isWaited.toNat := by
  unfold waitedTurns
  rw [since_concat]
  by_cases hx : x.isRequest = true
  · rw [if_pos hx, if_pos hx]
    rfl
  · rw [if_neg hx, if_neg hx, List.countP_append]
    cases x <;> rfl

theorem givenUp_concat (x : LineObs) : givenUp (log ++ [x]) =
    if x.isFresh then 0 else givenUp log + x.isGaveUp.toNat := by
  unfold givenUp
  rw [since_concat]
  by_cases hx : x.isFresh = true
  · rw [if_pos hx, if_pos hx]
    rfl
  · rw [if_neg hx, if_neg hx, List.countP_append]
    cases x <;> rfl

end Counts

/-! ## The invariant

`PlcRespWaitCnt` is nonzero exactly if a request is out, and then it is one more than the turns
that have waited; `SeccRebootCnt` is the number of requests given up in a row. The bound between
two turns is what makes the comparison with ten a matter of equality. -/

/-- **What the two counts are.** -/
structure LineCounts (s : SeccTask) (log : List LineObs) : Prop where
  waits : outstanding log = decide (s.plcRespWaitCnt ≠ 0)
  count : s.plcRespWaitCnt ≠ 0 → s.plcRespWaitCnt.toNat = waitedTurns log + 1
  le : s.plcRespWaitCnt.toNat ≤ 10
  given : s.rebootCnt = givenUp log
  room : s.rebootCnt ≤ 10
  /-- Nothing is on the line during the sleep. -/
  awake : s.asleep = true → s.plcRespWaitCnt = 0

/-- Between two turns there is room, behind a request, for one more to be given up. -/
structure LineInv (s : SeccTask) (log : List LineObs) : Prop extends LineCounts s log where
  busy : s.plcRespWaitCnt ≠ 0 → s.rebootCnt ≤ 9

/-- What a step adds to the log fits. -/
def FitsLine (log o : List LineObs) : Prop := Past (fun l => OneRequest (log ++ l)) o

section Inv
variable {s s' : SeccTask} {log o : List LineObs}

theorem fitsLine_nil : FitsLine log [] := Past.nil

/-- One observation more. -/
theorem FitsLine.concat {x : LineObs} (h : FitsLine log o) (hx : OneRequest (log ++ o) x) :
    FitsLine log (o ++ [x]) := past_concat.mpr ⟨h, hx⟩

theorem fitsLine_one {x : LineObs} (h : OneRequest log x) : FitsLine log [x] :=
  fitsLine_nil.concat (by rwa [List.append_nil])

theorem LineCounts.congr (h : LineCounts s log) (hwait : s'.plcRespWaitCnt = s.plcRespWaitCnt)
    (hreboot : s'.rebootCnt = s.rebootCnt) (hasleep : s'.asleep = true → s'.plcRespWaitCnt = 0) :
    LineCounts s' log := by
  constructor
  · rw [hwait]
    exact h.waits
  · rw [hwait]
    exact h.count
  · rw [hwait]
    exact h.le
  · rw [hreboot]
    exact h.given
  · rw [hreboot]
    exact h.room
  · exact hasleep

theorem LineInv.congr (h : LineInv s log) (hwait : s'.plcRespWaitCnt = s.plcRespWaitCnt)
    (hreboot : s'.rebootCnt = s.rebootCnt) (hasleep : s'.asleep = true → s'.plcRespWaitCnt = 0) :
    LineInv s' log := by
  refine ⟨h.toLineCounts.congr hwait hreboot hasleep, ?_⟩
  rw [hwait, hreboot]
  exact h.busy

/-- A request is written. -/
theorem LineCounts.request (h : LineCounts s log) (hwait : s'.plcRespWaitCnt = 1)
    (hreboot : s'.rebootCnt = s.rebootCnt) (hasleep : s'.asleep = false) :
    LineCounts s' (log ++ [.request]) := by
  constructor
  · rw [outstanding_concat, hwait]
    rfl
  · intro _
    rw [waitedTurns_concat, hwait]
    rfl
  · rw [hwait]
    decide
  · rw [givenUp_concat, hreboot, h.given]
    rfl
  · rw [hreboot]
    exact h.room
  · rw [hasleep]
    intro hno
    cases hno

/-- The SECC is switched off and on. -/
theorem LineCounts.cycled (h : LineCounts s log) (hwait : s'.plcRespWaitCnt = s.plcRespWaitCnt)
    (hreboot : s'.rebootCnt = 0) (hasleep : s'.asleep = s.asleep) :
    LineInv s' (log ++ [.cycled]) := by
  refine ⟨⟨?_, ?_, ?_, ?_, ?_, ?_⟩, ?_⟩
  · rw [outstanding_concat, hwait]
    exact h.waits
  · intro hne
    rw [waitedTurns_concat, hwait]
    exact h.count (hwait ▸ hne)
  · rw [hwait]
    exact h.le
  · rw [givenUp_concat, hreboot]
    rfl
  · omega
  · rw [hasleep, hwait]
    exact h.awake
  · intro _
    omega

/-- **The end of the requesting thread's loop.** -/
theorem lineInv_send {t : SeccTurn} (h : LineInv s log) (hidle : s.plcRespWaitCnt = 0)
    (hwait : t.task.plcRespWaitCnt = s.plcRespWaitCnt) (hreboot : t.task.rebootCnt = s.rebootCnt)
    (hasleep : t.task.asleep = decide (t.ret = .asleep)) (junk : ParsBuf) :
    LineInv (SeccTask.send t junk).1 (log ++ t.lineObs) ∧ FitsLine log t.lineObs := by
  have hkept : ∀ {s' : SeccTask}, s'.plcRespWaitCnt = s.plcRespWaitCnt →
      s'.rebootCnt = s.rebootCnt → LineInv s' log := fun hw hr =>
    h.congr hw hr fun _ => hw.trans hidle
  cases hret : t.ret with
  | asleep =>
    simp only [SeccTask.send, SeccTurn.lineObs, hret, List.append_nil]
    exact ⟨hkept hwait hreboot, fitsLine_nil⟩
  | none =>
    simp only [SeccTask.send, SeccTurn.lineObs, hret, SeccTask.reboot]
    split
    · rw [List.append_nil]
      exact ⟨hkept hwait hreboot, fitsLine_nil⟩
    · exact ⟨(hkept hwait hreboot).cycled rfl rfl rfl, fitsLine_one trivial⟩
  | read | write =>
    rw [hret] at hasleep
    have hfirst : FitsLine log [.request] := by
      refine fitsLine_one ?_
      show outstanding log = false
      rw [h.waits, hidle]
      rfl
    have hsent : LineCounts { t.task with plcRespWaitCnt := 1 } (log ++ [.request]) :=
      h.toLineCounts.request rfl hreboot hasleep
    simp only [SeccTask.send, SeccTurn.lineObs, hret, SeccTask.reboot]
    split
    · rename_i hfew
      refine ⟨⟨hsent, fun _ => ?_⟩, hfirst⟩
      show t.task.rebootCnt ≤ 9
      omega
    · refine ⟨?_, hfirst.concat trivial⟩
      rw [List.append_cons]
      exact hsent.cycled rfl rfl rfl

/-- A turn that waits. -/
theorem lineInv_await (h : LineInv s log) (hwait : s.plcRespWaitCnt ≠ 0) :
    LineInv s.await (log ++ [if 10 < s.plcRespWaitCnt + 1 then .gaveUp else .waited]) ∧
      OneRequest log (if 10 < s.plcRespWaitCnt + 1 then .gaveUp else .waited) := by
  have hout : outstanding log = true := by
    rw [h.waits]
    exact decide_eq_true hwait
  have hcount := h.count hwait
  have hle := h.le
  have hbusy := h.busy hwait
  have hnext : (s.plcRespWaitCnt + 1).toNat = s.plcRespWaitCnt.toNat + 1 := by
    rw [UInt16.toNat_add]
    exact Nat.mod_eq_of_lt (by
      show s.plcRespWaitCnt.toNat + 1 < 65536
      omega)
  have hlast : 10 < s.plcRespWaitCnt + 1 ↔ 10 ≤ s.plcRespWaitCnt.toNat := by
    rw [UInt16.lt_iff_toNat_lt, hnext]
    exact Nat.lt_succ_iff
  have hawake : s.asleep = false := by
    by_contra hno
    exact hwait (h.awake (by simpa using hno))
  unfold SeccTask.await
  -- the tenth turn gives the request up
  by_cases hten : 10 < s.plcRespWaitCnt + 1
  · rw [if_pos hten, if_pos hten]
    have hend := hlast.mp hten
    refine ⟨⟨⟨?_, ?_, ?_, ?_, ?_, ?_⟩, ?_⟩, hout, by omega⟩
    · rw [outstanding_concat]
      rfl
    · intro hno
      exact absurd rfl hno
    · exact Nat.zero_le _
    · rw [givenUp_concat]
      exact congrArg (· + 1) h.given
    · exact Nat.succ_le_succ hbusy
    · intro _
      rfl
    · intro hno
      exact absurd rfl hno
  · rw [if_neg hten, if_neg hten]
    have hmore := mt hlast.mpr hten
    have hpos : s.plcRespWaitCnt + 1 ≠ 0 := by
      intro hzero
      rw [hzero] at hnext
      cases hnext
    refine ⟨⟨⟨?_, ?_, ?_, ?_, h.room, ?_⟩, fun _ => hbusy⟩, hout, by omega⟩
    · rw [outstanding_concat]
      exact hout.trans (decide_eq_true hpos).symm
    · intro _
      rw [waitedTurns_concat]
      show (s.plcRespWaitCnt + 1).toNat = waitedTurns log + 1 + 1
      rw [hnext, hcount]
    · show (s.plcRespWaitCnt + 1).toNat ≤ 10
      omega
    · rw [givenUp_concat]
      exact h.given
    · intro hsleep
      rw [hawake] at hsleep
      cases hsleep

/-- What a chunk does to the line. -/
theorem read_line {bytes : List UInt8} {o' : List SeccTaskObs} (h : s.read bytes = some (s', o')) :
    ∃ r, s.secc.validSecc bytes = some r ∧ s'.asleep = s.asleep ∧
      s'.plcRespWaitCnt = (if r.1.1 then 0 else s.plcRespWaitCnt) ∧
      s'.rebootCnt = (if r.1.1 then 0 else s.rebootCnt) := by
  obtain ⟨r, hvalid, hcases⟩ := read_cases h
  refine ⟨r, hvalid, ?_⟩
  rcases hcases with ⟨hno, rfl⟩ | ⟨hok, -, htake⟩ | ⟨hok, -, flag, rfl⟩
  · rw [hno]
    exact ⟨rfl, rfl, rfl⟩
  · obtain ⟨data, rfl⟩ := takeRead_data htake
    rw [hok]
    exact ⟨rfl, rfl, rfl⟩
  · rw [hok]
    exact ⟨rfl, rfl, rfl⟩

/-- A response is accepted. -/
theorem lineInv_response (hwait : s'.plcRespWaitCnt = 0)
    (hreboot : s'.rebootCnt = 0) {awaited : Bool} :
    LineInv s' (log ++ [.response awaited]) := by
  refine ⟨⟨?_, ?_, ?_, ?_, ?_, ?_⟩, ?_⟩
  · rw [outstanding_concat, hwait]
    rfl
  · intro hno
    exact absurd hwait hno
  · rw [hwait]
    exact Nat.zero_le _
  · rw [givenUp_concat, hreboot]
    rfl
  · omega
  · exact fun _ => hwait
  · intro _
    omega

theorem lineObs_tick {t : SeccTurn} {junk : ParsBuf} (hawake : s.asleep = false)
    (hidle : s.plcRespWaitCnt = 0) (hdue : s.due = some t) :
    s.lineObs (.tick junk) = t.lineObs := by
  simp [SeccTask.lineObs, hawake, hidle, hdue]

theorem lineObs_wake {t : SeccTurn} {junk : ParsBuf} (hasleep : s.asleep = true)
    (hwrite : SeccTask.writeTx { s with asleep := false } 40027 4 = some t) :
    s.lineObs (.wake junk) = t.lineObs := by
  simp [SeccTask.lineObs, hasleep, hwrite]

/-- **Every step of the threads** keeps the counts and fits the log. -/
theorem lineInv_step {e : SeccTaskEvent} (h : LineInv s log)
    (hstep : seccLineStep s e = some (s', o)) : LineInv s' (log ++ o) ∧ FitsLine log o := by
  obtain ⟨⟨t, o'⟩, hdo, heq⟩ := Option.map_eq_some_iff.mp hstep
  clear hstep
  obtain ⟨rfl, rfl⟩ := Prod.mk.inj heq
  cases e with
  | tick junk =>
    rcases tick_cases hdo with ⟨hasleep, rfl⟩ | ⟨hawake, hwait, rfl⟩ | ⟨hawake, hidle, u, hdue, rfl⟩
    · have hobs : t.lineObs (.tick junk) = [] := by simp [SeccTask.lineObs, hasleep]
      rw [hobs, List.append_nil]
      exact ⟨h, fitsLine_nil⟩
    · have hobs : s.lineObs (.tick junk) =
          [if 10 < s.plcRespWaitCnt + 1 then .gaveUp else .waited] := by
        simp [SeccTask.lineObs, hawake, hwait]
      obtain ⟨hinv, hfit⟩ := lineInv_await h hwait
      rw [hobs]
      exact ⟨hinv, fitsLine_one hfit⟩
    · have hturned := turns_due s u hdue
      have ha := hturned.asleep
      rw [hawake, Bool.false_or] at ha
      rw [lineObs_tick hawake hidle hdue]
      exact lineInv_send h hidle hturned.wait hturned.reboot ha junk
  | wake junk =>
    rcases wake_cases hdo with ⟨hawake, rfl⟩ | ⟨hasleep, u, hwrite, rfl⟩
    · have hobs : t.lineObs (.wake junk) = [] := by simp [SeccTask.lineObs, hawake]
      rw [hobs, List.append_nil]
      exact ⟨h, fitsLine_nil⟩
    -- nothing is out while the task sleeps
    · have hidle := h.awake hasleep
      have hup : LineInv { s with asleep := false } log := h.congr rfl rfl fun hno => by cases hno
      have hturned := turns_writeTx { s with asleep := false } 40027 4 u hwrite
      rw [lineObs_wake hasleep hwrite]
      exact lineInv_send hup hidle hturned.wait hturned.reboot hturned.asleep junk
  | chunk bytes =>
    have hread : s.read bytes = some (t, o') := hdo
    obtain ⟨q, hvalid, hasleep, hwait, hreboot⟩ := read_line hread
    simp only [SeccTask.lineObs, hvalid]
    by_cases hok : q.1.1 = true
    · rw [if_pos hok] at hwait hreboot ⊢
      refine ⟨lineInv_response hwait hreboot, fitsLine_one ?_⟩
      exact h.waits.symm
    · rw [if_neg hok] at hwait hreboot ⊢
      rw [List.append_nil]
      refine ⟨h.congr hwait hreboot ?_, fitsLine_nil⟩
      rw [hasleep, hwait]
      exact h.awake
  | cardWait | setTx | setEvcc =>
    cases hdo
    simp only [SeccTask.lineObs, List.append_nil]
    exact ⟨h.congr rfl rfl h.awake, fitsLine_nil⟩

end Inv

/-! ## Runs -/

section Runs
variable {s₀ s s' : SeccTask} {log o : List LineObs}

/-- The threads start with nothing on the line. -/
structure LineStart (s : SeccTask) : Prop where
  wait : s.plcRespWaitCnt = 0
  reboot : s.rebootCnt = 0

theorem lineInv_start (h : LineStart s) : LineInv s [] := by
  obtain ⟨hwait, hreboot⟩ := h
  refine ⟨⟨?_, ?_, ?_, hreboot, ?_, fun _ => hwait⟩, ?_⟩
  · rw [hwait]
    rfl
  · intro hno
    exact absurd hwait hno
  · rw [hwait]
    exact Nat.zero_le _
  · omega
  · intro _
    omega

theorem lineInv_run (hstart : LineStart s₀) (h : Always seccLineStep s₀ s log) : LineInv s log :=
  h.invariant (lineInv_start hstart) fun hI _ hstep => (lineInv_step hI hstep).1

/-- The requesting thread comes to the end of its loop in this step. -/
def SeccTask.ends (s : SeccTask) : SeccTaskEvent → Bool
  | .tick _ => !s.asleep && s.plcRespWaitCnt == 0 && s.due.any fun t => t.ret ≠ .asleep
  | .wake _ => s.asleep
  | .chunk _ | .cardWait | .setTx _ | .setEvcc _ => false

theorem cycled_mem_iff (t : SeccTurn) :
    .cycled ∈ t.lineObs ↔ 10 ≤ t.task.rebootCnt ∧ t.ret ≠ .asleep := by
  unfold SeccTurn.lineObs
  by_cases hfew : t.task.rebootCnt < 10
  · rw [if_pos hfew]
    cases hret : t.ret with
    | asleep | none | read | write => simp [hfew]
  · rw [if_neg hfew]
    cases hret : t.ret with
    | asleep | none | read | write => simp [Nat.not_lt.mp hfew]

/-- A power cycle starts the initialisation over. -/
theorem send_cycled {t : SeccTurn} {junk : ParsBuf} (h : .cycled ∈ t.lineObs) :
    (SeccTask.send t junk).1.initStep = .none ∧ (SeccTask.send t junk).1.bPlcConn = false := by
  obtain ⟨hten, hret⟩ := (cycled_mem_iff t).mp h
  have hmany : ¬ t.task.rebootCnt < 10 := Nat.not_lt.mpr hten
  cases hr : t.ret with
  | asleep => exact absurd hr hret
  | none | read | write => simp [SeccTask.send, hr, SeccTask.reboot, hmany, SeccTask.enter]

/-- **When a step switches the SECC off and on.** -/
theorem cycled_step {e : SeccTaskEvent} (h : LineInv s log)
    (hstep : seccLineStep s e = some (s', o)) :
    (.cycled ∈ o ↔ givenUp log = 10 ∧ s.ends e = true) ∧
      (.cycled ∈ o → s'.initStep = .none ∧ s'.bPlcConn = false) := by
  have hgiven := h.given
  have hroom := h.room
  obtain ⟨⟨t, o'⟩, hdo, heq⟩ := Option.map_eq_some_iff.mp hstep
  clear hstep
  obtain ⟨rfl, rfl⟩ := Prod.mk.inj heq
  cases e with
  | tick junk =>
    rcases tick_cases hdo with ⟨hasleep, rfl⟩ | ⟨hawake, hwait, rfl⟩ | ⟨hawake, hidle, u, hdue, rfl⟩
    · simp [SeccTask.lineObs, SeccTask.ends, hasleep]
    · have hnot : LineObs.cycled ∉
          [if 10 < s.plcRespWaitCnt + 1 then LineObs.gaveUp else .waited] := by
        rw [List.mem_singleton]
        split <;> decide
      simp [SeccTask.lineObs, SeccTask.ends, hnot, hawake, hwait]
    · have hr := (turns_due s u hdue).reboot
      rw [lineObs_tick hawake hidle hdue, SeccTask.ends]
      refine ⟨(cycled_mem_iff u).trans ?_, send_cycled⟩
      rw [hdue, hr, hgiven, hawake, hidle]
      simp
      omega
  | wake junk =>
    rcases wake_cases hdo with ⟨hawake, rfl⟩ | ⟨hasleep, u, hwrite, rfl⟩
    · simp [SeccTask.lineObs, SeccTask.ends, hawake]
    · have hr : u.task.rebootCnt = s.rebootCnt :=
        (turns_writeTx { s with asleep := false } 40027 4 u hwrite).reboot
      have hret : u.ret = .write := by
        obtain ⟨tx, -, ht⟩ := writeTx_eq hwrite
        rw [ht]
      rw [lineObs_wake hasleep hwrite, SeccTask.ends]
      refine ⟨(cycled_mem_iff u).trans ?_, send_cycled⟩
      rw [hr, hgiven, hret, hasleep]
      simp
      omega
  | chunk bytes =>
    have hread : s.read bytes = some (t, o') := hdo
    obtain ⟨q, hvalid, -, -, -⟩ := read_line hread
    have hnot : LineObs.cycled ∉ s.lineObs (.chunk bytes) := by
      simp only [SeccTask.lineObs, hvalid]
      split <;> simp
    simp [hnot, SeccTask.ends]
  | cardWait | setTx | setEvcc => simp [SeccTask.lineObs, SeccTask.ends]

end Runs

/-- **One request at a time on the SECC's line.** In every run of the two threads a request goes out
only when the one before was answered or given up, it is given up at the tenth turn that waits for
it and no other, and `PlcRespWaitCnt`, by which a response that `ValidSecc` accepts is taken for the
answer, is not 0 exactly if a request is on the line. -/
theorem secc_one_request {s₀ s : SeccTask} {log : List LineObs} (hstart : LineStart s₀)
    (h : Always seccLineStep s₀ s log) : Past OneRequest log := by
  refine (h.invariant (I := fun s log => LineInv s log ∧ Past OneRequest log)
    ⟨lineInv_start hstart, Past.nil⟩ ?_).2
  intro s log e s' o hI _ hstep
  obtain ⟨hinv, hfit⟩ := lineInv_step hI.1 hstep
  exact ⟨hinv, hI.2.append hfit⟩

/-- A response is waited for and comes. -/
theorem secc_one_request_answered : ∃ s log, Always seccLineStep .zero s log ∧
    log = [.request, .waited, .response true, .request] ∧ Past OneRequest log := by
  let p : SeccTask → List LineObs → Bool := fun _ log =>
    log == [.request, .waited, .response true, .request]
  have hrun : (exec seccLineStep (fun _ _ _ => true) .zero []
      (ticks 2 ++ [readResponse [1]] ++ ticks 2)).any (fun r => p r.1 r.2) = true := by
    decide +kernel
  obtain ⟨s, log, h, hp⟩ := exists_reach_of_exec hrun
  exact ⟨s, log, h.always, beq_iff_eq.mp hp, secc_one_request ⟨rfl, rfl⟩ h.always⟩

/-- **The SECC loses its power** exactly at the end of a turn that finds ten requests given up in a
row, with no response since and no power cycle; never more than ten are. The initialisation starts
over. -/
theorem secc_cycled_iff {s₀ s s' : SeccTask} {log o : List LineObs} {e : SeccTaskEvent}
    (hstart : LineStart s₀) (h : Always seccLineStep s₀ s log)
    (hstep : seccLineStep s e = some (s', o)) :
    (.cycled ∈ o ↔ givenUp log = 10 ∧ s.ends e = true) ∧ givenUp log ≤ 10 ∧
      (.cycled ∈ o → s'.initStep = .none ∧ s'.bPlcConn = false) := by
  have hinv := lineInv_run hstart h
  obtain ⟨hiff, hover⟩ := cycled_step hinv hstep
  have hroom := hinv.room
  rw [hinv.given] at hroom
  exact ⟨hiff, hroom, hover⟩

/-- A SECC that never answers. -/
theorem secc_cycled_iff_silent : ∃ s log s' o, Always seccLineStep .zero s log ∧
    seccLineStep s (.tick .clear) = some (s', o) ∧ .cycled ∈ o ∧ s'.initStep = .none := by
  let p : SeccTask → List LineObs → Bool := fun s log =>
    givenUp log == 10 && s.ends (.tick .clear) && (seccLineStep s (.tick .clear)).isSome
  have hrun : (exec seccLineStep (fun _ _ _ => true) .zero [] (ticks 110)).any
      (fun r => p r.1 r.2) = true := by decide +kernel
  obtain ⟨s, log, h, hp⟩ := exists_reach_of_exec hrun
  simp only [p, Bool.and_eq_true, beq_iff_eq] at hp
  obtain ⟨⟨hten, hends⟩, hdefined⟩ := hp
  obtain ⟨r, hstep⟩ := Option.isSome_iff_exists.mp hdefined
  have hstep' : seccLineStep s (.tick .clear) = some (r.1, r.2) := hstep
  obtain ⟨hiff, -, hover⟩ := secc_cycled_iff ⟨rfl, rfl⟩ h.always hstep'
  have hcycled : .cycled ∈ r.2 := hiff.mpr ⟨hten, hends⟩
  exact ⟨s, log, r.1, r.2, h.always, hstep, hcycled, (hover hcycled).1⟩

end ChargePoint
