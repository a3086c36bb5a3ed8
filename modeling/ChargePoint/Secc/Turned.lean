import ChargePoint.Secc.Initialised

/-!
# What a turn of the requesting thread can do

`InitSecc` and `SeccSenario` decide in many branches what is due, and all of them come to the same
few things: nothing is sent, or a write, or one of a few requests to read, or the thread sleeps
before it builds its request. `turns_due` says so once, with what stays as it was.
-/

set_option autoImplicit false

namespace ChargePoint

/-- What is left alone. The block of the vehicle data that is next may be forgotten. -/
structure SeccTask.Same (s s' : SeccTask) : Prop where
  rx : s'.data.rx = s.data.rx
  vasReadCd : s'.data.vasReadCd = s.data.vasReadCd ∨ s'.data.vasReadCd = 0
  readTx : s'.secc.readTx = s.secc.readTx
  wait : s'.plcRespWaitCnt = s.plcRespWaitCnt
  reboot : s'.rebootCnt = s.rebootCnt

theorem SeccTask.Same.refl (s : SeccTask) : s.Same s := ⟨rfl, .inl rfl, rfl, rfl, rfl⟩

theorem SeccTask.Same.trans {s s' s'' : SeccTask} (h : s.Same s') (h' : s'.Same s'') :
    s.Same s'' := by
  refine ⟨h'.rx.trans h.rx, ?_, h'.readTx.trans h.readTx, h'.wait.trans h.wait,
    h'.reboot.trans h.reboot⟩
  rcases h'.vasReadCd with hkept | hzero
  · rw [hkept]
    exact h.vasReadCd
  · exact .inr hzero

/-- The requests to read: the first register, and how many. -/
def readRequests : List (UInt16 × UInt16) :=
  [(30001, 1), (30002, 6), (30040, 1), (30061, 10), (32001, 10), (32002, 1)]

/-- One of these, or the next block of the vehicle data. -/
def SeccTask.Requests (s : SeccTask) (a n : UInt16) : Prop :=
  (a, n) ∈ readRequests ∨ s.data.vasReadCd ≠ 0 ∧ (a, n) = s.data.readVasData

/-- **What a turn can do.** -/
inductive SeccTask.Turned (s : SeccTask) (t : SeccTurn) : Prop
  | kept (hret : t.ret ≠ .read) (hsame : s.Same t.task)
      (hasleep : t.task.asleep = (s.asleep || t.ret = .asleep))
  | read {s' : SeccTask} {a n : UInt16} (hret : t.ret = .read) (hsame : s.Same s')
      (hasleep : s'.asleep = s.asleep) (hreq : s'.Requests a n)
      (htask : t.task = { s' with secc := { s'.secc with readTx := makeReadTx a n } })

theorem SeccTask.Turned.wait {s : SeccTask} {t : SeccTurn} (h : s.Turned t) :
    t.task.plcRespWaitCnt = s.plcRespWaitCnt := by
  cases h with
  | kept _ hsame => exact hsame.wait
  | read _ hsame _ _ htask =>
    rw [htask]
    exact hsame.wait

theorem SeccTask.Turned.reboot {s : SeccTask} {t : SeccTurn} (h : s.Turned t) :
    t.task.rebootCnt = s.rebootCnt := by
  cases h with
  | kept _ hsame => exact hsame.reboot
  | read _ hsame _ _ htask =>
    rw [htask]
    exact hsame.reboot

theorem SeccTask.Turned.asleep {s : SeccTask} {t : SeccTurn} (h : s.Turned t) :
    t.task.asleep = (s.asleep || t.ret = .asleep) := by
  cases h with
  | kept _ _ hasleep => exact hasleep
  | read hret _ hasleep _ htask =>
    rw [htask, hret]
    exact hasleep.trans (Bool.or_false _).symm

/-! ## The branches -/

/-- Whatever the branch comes to is a turn. -/
def Turns (s : SeccTask) (r : Option SeccTurn) : Prop := ∀ t, r = some t → s.Turned t

section Turns

/-- A turn of a state that is the same. -/
theorem Turns.of {s s' : SeccTask} {r : Option SeccTurn} (h : Turns s' r) (hsame : s.Same s')
    (hasleep : s'.asleep = s.asleep) : Turns s r := by
  intro t ht
  cases h t ht with
  | kept hret hsame' hasleep' => exact .kept hret (hsame.trans hsame') (hasleep ▸ hasleep')
  | read hret hsame' hasleep' hreq htask =>
    exact .read hret (hsame.trans hsame') (hasleep'.trans hasleep) hreq htask

theorem Turns.ite {s : SeccTask} {p : Prop} [Decidable p] {r r' : Option SeccTurn}
    (h : Turns s r) (h' : Turns s r') : Turns s (if p then r else r') := by
  split
  · exact h
  · exact h'

/-- What is observed does not matter. -/
theorem Turns.map {s : SeccTask} {r : Option SeccTurn} (h : Turns s r)
    (f : List SeccTaskObs → List SeccTaskObs) :
    Turns s (r.map fun t => { t with obs := f t.obs }) := by
  intro t ht
  obtain ⟨t', ht', rfl⟩ := Option.map_eq_some_iff.mp ht
  cases h t' ht' with
  | kept hret hsame hasleep => exact .kept hret hsame hasleep
  | read hret hsame hasleep hreq htask => exact .read hret hsame hasleep hreq htask

/-- Nothing is sent. -/
theorem turns_none {s s' : SeccTask} {obs : List SeccTaskObs} (hsame : s.Same s')
    (hasleep : s'.asleep = s.asleep) : Turns s (some ⟨.none, s', obs⟩) := by
  intro t h
  obtain rfl := Option.some.inj h
  exact .kept (by simp) hsame (hasleep.trans (Bool.or_false _).symm)

theorem turns_idle (s : SeccTask) : Turns s s.idle := turns_none (.refl s) rfl

theorem turns_readTx {s : SeccTask} {a n : UInt16} (h : s.Requests a n) :
    Turns s (s.readTx a n) := by
  intro t ht
  obtain rfl := readTx_eq ht
  exact .read rfl (.refl s) rfl h rfl

theorem turns_writeTx (s : SeccTask) (a n : UInt16) : Turns s (s.writeTx a n) := by
  intro t h
  obtain ⟨tx, -, rfl⟩ := writeTx_eq h
  exact .kept (by simp) ⟨rfl, .inl rfl, rfl, rfl, rfl⟩ (Bool.or_false _).symm

theorem turns_setData (s : SeccTask) (ws : List UInt16) (a n : UInt16) :
    Turns s ((s.setData ws).writeTx a n) :=
  (turns_writeTx _ a n).of ⟨rfl, .inl rfl, rfl, rfl, rfl⟩ rfl

theorem turns_sendChrgPrm (s : SeccTask) : Turns s s.sendChrgPrm := by
  intro t h
  obtain rfl := Option.some.inj h
  exact .kept (by simp) ⟨rfl, .inl rfl, rfl, rfl, rfl⟩ (Bool.or_true _).symm

theorem turns_chckSeccStat (s : SeccTask) : Turns s s.chckSeccStat :=
  turns_readTx (.inl (by decide))

theorem turns_awaitWrite {s : SeccTask} {send : Option SeccTurn} {next : SeccInitStep}
    {flag : Bool} (h : Turns s send) : Turns s (s.awaitWrite send next flag) :=
  .ite h (turns_none ⟨rfl, .inl rfl, rfl, rfl, rfl⟩ rfl)

theorem turns_initSecc (s : SeccTask) : Turns s s.initSecc := by
  unfold SeccTask.initSecc
  split
  · exact .ite (turns_readTx (.inl (by decide))) (turns_none ⟨rfl, .inl rfl, rfl, rfl, rfl⟩ rfl)
  · exact turns_awaitWrite (turns_setData _ _ _ _)
  · exact turns_awaitWrite (turns_sendChrgPrm s)
  · exact turns_awaitWrite (turns_setData _ _ _ _)
  · exact turns_awaitWrite (turns_setData _ _ _ _)
  · exact turns_awaitWrite (turns_setData _ _ _ _)
  · exact .ite (turns_readTx (.inl (by decide))) (turns_none ⟨rfl, .inl rfl, rfl, rfl, rfl⟩ rfl)
  · exact turns_awaitWrite (turns_setData _ _ _ _)
  · have hread : Turns s ((s.enter .vaschk).readTx 32002 1) :=
      .of (turns_readTx (.inl (by decide))) ⟨rfl, .inl rfl, rfl, rfl, rfl⟩ rfl
    exact hread.map fun _ => [.entered .vaschk]
  · exact .ite (turns_none ⟨rfl, .inl rfl, rfl, rfl, rfl⟩ rfl)
      (turns_none ⟨rfl, .inl rfl, rfl, rfl, rfl⟩ rfl)
  all_goals exact turns_idle s

/-- The state is read in a state that is the same. -/
theorem turns_stat {s s' : SeccTask} (hsame : s.Same s') (hasleep : s'.asleep = s.asleep) :
    Turns s s'.chckSeccStat := (turns_chckSeccStat s').of hsame hasleep

theorem turns_handsh (s : SeccTask) : Turns s s.handsh := by
  unfold SeccTask.handsh
  refine .ite (.ite (turns_none ⟨rfl, .inl rfl, rfl, rfl, rfl⟩ rfl) (turns_idle s)) ?_
  refine .ite (turns_stat ⟨rfl, .inl rfl, rfl, rfl, rfl⟩ rfl) ?_
  refine .ite (turns_stat ⟨rfl, .inl rfl, rfl, rfl, rfl⟩ rfl) (.ite (turns_chckSeccStat s) ?_)
  refine .ite (turns_stat ⟨rfl, .inl rfl, rfl, rfl, rfl⟩ rfl) ?_
  exact .ite (turns_stat ⟨rfl, .inl rfl, rfl, rfl, rfl⟩ rfl) (turns_chckSeccStat s)

theorem turns_charging (s : SeccTask) : Turns s s.charging := by
  unfold SeccTask.charging
  refine .ite (turns_none ⟨rfl, .inr rfl, rfl, rfl, rfl⟩ rfl) ?_
  -- the count of the ticks is all that was written so far
  have hsame : ∀ n, s.Same { s with chargeCnt := n } := fun n => ⟨rfl, .inl rfl, rfl, rfl, rfl⟩
  dsimp only
  split
  · rename_i hnext
    exact .of (turns_readTx (.inr ⟨hnext, rfl⟩)) (hsame _) rfl
  · refine .ite (.of (turns_readTx (.inl (by decide))) (hsame _) rfl) ?_
    refine .ite (.of (turns_sendChrgPrm _) (hsame _) rfl) ?_
    refine .ite (.of (turns_readTx (.inl (by decide))) (hsame _) rfl) ?_
    exact turns_stat (hsame _) rfl

theorem turns_chrgSwitch (s : SeccTask) : Turns s s.chrgSwitch := by
  unfold SeccTask.chrgSwitch
  split
  · exact turns_none ⟨rfl, .inl rfl, rfl, rfl, rfl⟩ rfl
  · exact .of (turns_readTx (.inl (by decide))) ⟨rfl, .inl rfl, rfl, rfl, rfl⟩ rfl
  · exact .ite (turns_none ⟨rfl, .inl rfl, rfl, rfl, rfl⟩ rfl)
      (turns_none ⟨rfl, .inl rfl, rfl, rfl, rfl⟩ rfl)
  · exact .ite (turns_setData _ _ _ _) (turns_none ⟨rfl, .inl rfl, rfl, rfl, rfl⟩ rfl)
  · exact turns_handsh s
  · exact .ite ((turns_setData _ _ _ _).of ⟨rfl, .inl rfl, rfl, rfl, rfl⟩ rfl)
      (turns_none ⟨rfl, .inl rfl, rfl, rfl, rfl⟩ rfl)
  · exact .ite ((turns_setData _ _ _ _).of ⟨rfl, .inl rfl, rfl, rfl, rfl⟩ rfl)
      (turns_none ⟨rfl, .inl rfl, rfl, rfl, rfl⟩ rfl)
  · exact turns_charging s

theorem turns_chrgSecc (s : SeccTask) : Turns s s.chrgSecc := by
  unfold SeccTask.chrgSecc
  refine .ite (turns_stat ⟨rfl, .inl rfl, rfl, rfl, rfl⟩ rfl) (.ite (turns_setData _ _ _ _) ?_)
  exact .ite (turns_chrgSwitch s) (turns_none ⟨rfl, .inl rfl, rfl, rfl, rfl⟩ rfl)

theorem turns_chrgSenario (s : SeccTask) : Turns s s.chrgSenario := by
  unfold SeccTask.chrgSenario
  refine .ite ?_ (turns_stat ⟨rfl, .inl rfl, rfl, rfl, rfl⟩ rfl)
  intro t h
  obtain ⟨t', ht', ht⟩ := Option.bind_eq_some_iff.mp h
  have hturned := turns_chrgSecc s t' ht'
  -- a step that sends nothing leaves the turn to the state
  split at ht
  · rename_i hnone
    cases hturned with
    | kept _ hsame hasleep =>
      rw [hnone] at hasleep
      exact turns_stat hsame (hasleep.trans (Bool.or_false _)) t ht
    | read hret =>
      rw [hnone] at hret
      cases hret
  · obtain rfl := Option.some.inj ht
    exact hturned

theorem turns_seccSenario (s : SeccTask) : Turns s s.seccSenario := by
  unfold SeccTask.seccSenario
  have hinit : Turns s (s.stopFault.enter .none).initSecc :=
    .of (turns_initSecc _) ⟨rfl, .inl rfl, rfl, rfl, rfl⟩ rfl
  refine .ite (hinit.map fun obs => .entered .none :: obs) ?_
  exact .ite (turns_initSecc s) (turns_chrgSenario s)

/-- **What is due is a turn.** -/
theorem turns_due (s : SeccTask) : Turns s s.due := by
  unfold SeccTask.due
  refine .ite (turns_initSecc s) ?_
  refine .ite ((turns_setData _ _ _ _).of ⟨rfl, .inl rfl, rfl, rfl, rfl⟩ rfl) ?_
  exact .ite ((turns_seccSenario _).of ⟨rfl, .inl rfl, rfl, rfl, rfl⟩ rfl)
    (turns_stat ⟨rfl, .inl rfl, rfl, rfl, rfl⟩ rfl)

end Turns

/-! ## A step of the threads -/

section Steps
variable {s s' : SeccTask} {o : List SeccTaskObs} {junk : ParsBuf} {bytes : List UInt8}

/-- **A turn of the requesting thread**: it sleeps, or it waits, or what is due goes out. -/
theorem tick_cases (h : seccTaskStep s (.tick junk) = some (s', o)) :
    (s.asleep = true ∧ s' = s) ∨
    (s.asleep = false ∧ s.plcRespWaitCnt ≠ 0 ∧ s' = s.await) ∨
    (s.asleep = false ∧ s.plcRespWaitCnt = 0 ∧
      ∃ t, s.due = some t ∧ s' = (SeccTask.send t junk).1) := by
  simp only [seccTaskStep] at h
  by_cases hasleep : s.asleep = true
  · rw [if_pos hasleep] at h
    cases h
    exact .inl ⟨hasleep, rfl⟩
  · have hawake : s.asleep = false := by simpa using hasleep
    rw [if_neg hasleep] at h
    right
    by_cases hwait : s.plcRespWaitCnt ≠ 0
    · rw [if_pos hwait] at h
      cases h
      exact .inl ⟨hawake, hwait, rfl⟩
    · rw [if_neg hwait] at h
      obtain ⟨t, hdue, heq⟩ := Option.map_eq_some_iff.mp h
      exact .inr ⟨hawake, not_not.mp hwait, t, hdue, (congrArg Prod.fst heq).symm⟩

/-- **The thread wakes**, if it sleeps, and its write goes out. -/
theorem wake_cases (h : seccTaskStep s (.wake junk) = some (s', o)) :
    (s.asleep = false ∧ s' = s) ∨
    (s.asleep = true ∧ ∃ t, SeccTask.writeTx { s with asleep := false } 40027 4 = some t ∧
      s' = (SeccTask.send t junk).1) := by
  simp only [seccTaskStep] at h
  by_cases hasleep : s.asleep = true
  · rw [if_pos hasleep] at h
    obtain ⟨t, hwrite, heq⟩ := Option.map_eq_some_iff.mp h
    exact .inr ⟨hasleep, t, hwrite, (congrArg Prod.fst heq).symm⟩
  · rw [if_neg hasleep] at h
    cases h
    exact .inl ⟨by simpa using hasleep, rfl⟩

/-- An accepted response ends the wait. -/
def SeccTask.accept (s : SeccTask) (secc : Secc) : SeccTask :=
  { s with secc := secc, rebootCnt := 0, plcRespWaitCnt := 0 }

/-- **A turn of the reading thread**: the chunk is no response, or one to read is taken apart, or
one to a write may clear the flag. -/
theorem read_cases (h : s.read bytes = some (s', o)) :
    ∃ r, s.secc.validSecc bytes = some r ∧
      ((r.1.1 = false ∧ s' = { s with secc := r.2 }) ∨
      (r.1.1 = true ∧ r.2.src.byte 1 = fcRead ∧ (s.accept r.2).takeRead = some s') ∨
      (r.1.1 = true ∧ r.2.src.byte 1 ≠ fcRead ∧
        ∃ flag, s' = { s.accept r.2 with sendChkFlg := flag })) := by
  obtain ⟨r, hvalid, h⟩ := Option.bind_eq_some_iff.mp h
  refine ⟨r, hvalid, ?_⟩
  dsimp only at h
  split at h
  · rename_i hok
    right
    split at h
    · rename_i hcode
      obtain ⟨s'', htake, heq⟩ := Option.map_eq_some_iff.mp h
      obtain ⟨rfl, -⟩ := Prod.mk.inj heq
      exact .inl ⟨hok, hcode, htake⟩
    · rename_i hcode
      split at h
      all_goals
        obtain ⟨rfl, -⟩ := Prod.mk.inj (Option.some.inj h)
        exact .inr ⟨hok, hcode, _, rfl⟩
  · rename_i hno
    obtain ⟨rfl, -⟩ := Prod.mk.inj (Option.some.inj h)
    exact .inl ⟨by simpa using hno, rfl⟩

theorem takeRead_data (h : s.takeRead = some s') : ∃ data, s' = { s with data := data } := by
  unfold SeccTask.takeRead at h
  dsimp only at h
  split at h
  · obtain ⟨data, -, rfl⟩ := Option.map_eq_some_iff.mp h
    exact ⟨data, rfl⟩
  · cases h

end Steps

end ChargePoint
