import ChargePoint.Secc.Initialised

/-!
# The way into charging

`SeccChrgStep` is set by the ticks of `SeccSenario` and by nothing else. Between two ticks the
registers, the acknowledgements and `status_fault` change as they like, and what one tick has found
the next one need not find again. What remains is the step. Three of its values lie behind the check
of `SECC_CHRG_STEP_HANDSH` (`pastCheck`), and the only way to them from the others is the check.
-/

set_option autoImplicit false

namespace ChargePoint

open Trace

/-! ## Ticks -/

/-- A tick of `SeccSenario`: the state it finds, and the one it leaves. -/
structure ChrgTick where
  before : SeccTask
  after : SeccTask

namespace ChrgTick

/-- The step is none now. -/
def isNone (t : ChrgTick) : Bool := t.after.chrgStep = .none

/-- The tick enters `SECC_CHRG_STEP_CHARGING`. -/
def Enters (t : ChrgTick) : Prop := t.before.chrgStep ≠ .charging ∧ t.after.chrgStep = .charging

/-- **The check**: a tick in `SECC_CHRG_STEP_HANDSH` finds that the vehicle draws current. -/
def Checks (t : ChrgTick) : Prop :=
  t.before.chrgStep = .handsh ∧ t.before.data.rx.stcode = csmStatChrg ∧
    50 ≤ t.before.data.rx.pwmvoltage ∧ t.before.data.rx.pwmvoltage ≤ 70

end ChrgTick

inductive ChrgEvent
  | tick
  /-- the other parts have made this of the state -/
  | others (now : SeccTask)

/-- One event. The others change whatever they like, but for the step. -/
def chrgRun : Step SeccTask ChrgEvent ChrgTick
  | s, .tick => s.seccSenario.map fun t => (t.task, [⟨s, t.task⟩])
  | s, .others now => some ({ now with chrgStep := s.chrgStep }, [])

/-- What a tick that enters charging has behind it: the bit, which is set as it comes and as it
goes, and the check, which was made since the step was none. -/
def Gated (log : List ChrgTick) (t : ChrgTick) : Prop :=
  t.Enters → t.before.fault seccStatCharg = true ∧ t.after.fault seccStatCharg = true ∧
    ∃ u ∈ since ChrgTick.isNone log ++ [t], u.Checks

/-! ## What a tick does to the step

There are four kinds of moves: the step stays, it goes somewhere in front of the check, the check
is made, or it goes on from behind the check to somewhere behind it. All functions of the
scenario are walked through for this once. -/

/-- The steps behind the check. -/
def SeccTask.pastCheck (s : SeccTask) : Bool :=
  match s.chrgStep with
  | .reqid | .chkid | .charging => true
  | .none | .start | .handsh | .authchk | .prmchk => false

/-- **What a tick may do to the step.** -/
inductive ChrgMove (s s' : SeccTask) : Prop
  | stays (hstep : s'.chrgStep = s.chrgStep)
  /-- the step is in front of the check -/
  | before (hcheck : s'.pastCheck = false)
  /-- the check is made -/
  | checks (hcheck : (ChrgTick.mk s s').Checks) (hstep : s'.chrgStep ≠ .none)
      (hcharg : s.fault seccStatCharg = true) (htx : s'.txData = s.txData)
  /-- on the way to charging -/
  | onward (hcheck : s.pastCheck = true) (hstep : s'.chrgStep ≠ .none)
      (hcharg : s.fault seccStatCharg = true) (htx : s'.txData = s.txData)

section Moves
variable {s : SeccTask} {t : SeccTurn}

theorem readTx_chrgStep {a n : UInt16} (h : s.readTx a n = some t) :
    t.task.chrgStep = s.chrgStep := by
  rw [readTx_eq h]

theorem sendChrgReady_chrgStep (h : s.sendChrgReady = some t) : t.task.chrgStep = s.chrgStep := by
  obtain ⟨tx, -, rfl⟩ := writeTx_eq h
  rfl

theorem awaitWrite_chrgStep {send : Option SeccTurn} {next : SeccInitStep} {flag : Bool}
    (hsend : ∀ t, send = some t → t.task.chrgStep = s.chrgStep)
    (h : s.awaitWrite send next flag = some t) : t.task.chrgStep = s.chrgStep := by
  unfold SeccTask.awaitWrite at h
  split at h
  · exact hsend t h
  · obtain rfl := Option.some.inj h
    rfl

/-- **`InitSecc`** has nothing to do with the step. -/
theorem initSecc_chrgStep (h : s.initSecc = some t) : t.task.chrgStep = s.chrgStep := by
  have hwrite : ∀ {ws : List UInt16} {a n : UInt16} (t : SeccTurn),
      (s.setData ws).writeTx a n = some t → t.task.chrgStep = s.chrgStep := by
    intro ws a n t h
    obtain ⟨tx, -, rfl⟩ := writeTx_eq h
    rfl
  have hprm : ∀ t, s.sendChrgPrm = some t → t.task.chrgStep = s.chrgStep := by
    intro t h
    obtain rfl := Option.some.inj h
    rfl
  unfold SeccTask.initSecc at h
  cases hstep : s.initStep with
  | none | init | vaschk =>
    simp only [hstep] at h
    split at h
    · first
        | exact readTx_chrgStep h
        | (obtain rfl := Option.some.inj h; rfl)
    · obtain rfl := Option.some.inj h
      rfl
  | csmr | chrgprm | chrgtype | payopt | vasreq =>
    simp only [hstep] at h
    exact awaitWrite_chrgStep hwrite h
  | evser =>
    simp only [hstep] at h
    exact awaitWrite_chrgStep hprm h
  | vasreadreq =>
    simp only [hstep] at h
    obtain ⟨t', hread, rfl⟩ := Option.map_eq_some_iff.mp h
    have hkept := readTx_chrgStep hread
    exact hkept
  | csmstat | csmerr | pwmduty | pwmvolt | done =>
    simp only [hstep] at h
    obtain rfl := Option.some.inj h
    rfl

/-- A turn that ends in a step in front of the check. -/
theorem chrgMove_before {s' : SeccTask} (hstep : t.task.chrgStep = s'.chrgStep)
    (hcheck : s'.pastCheck = false) : ChrgMove s t.task := by
  refine .before ?_
  unfold SeccTask.pastCheck at hcheck ⊢
  rw [hstep]
  exact hcheck

theorem handsh_move (hstep : s.chrgStep = .handsh) (hcharg : s.fault seccStatCharg = true)
    (h : s.handsh = some t) : ChrgMove s t.task := by
  unfold SeccTask.handsh at h
  dsimp only at h
  split at h
  · rename_i hst
    split at h
    · rename_i hpwm
      obtain rfl := Option.some.inj h
      refine .checks ⟨hstep, hst, hpwm⟩ ?_ hcharg rfl
      dsimp only
      split <;> simp
    · obtain rfl := Option.some.inj h
      exact .stays rfl
  · split at h
    · exact chrgMove_before (readTx_chrgStep h) rfl
    · split at h
      · exact chrgMove_before (readTx_chrgStep h) rfl
      · split at h
        · exact .stays (readTx_chrgStep h)
        · split at h
          · exact chrgMove_before (readTx_chrgStep h) rfl
          · split at h
            · exact chrgMove_before (readTx_chrgStep h) rfl
            · exact .stays (readTx_chrgStep h)

theorem charging_chrgStep (h : s.charging = some t) : t.task.chrgStep = s.chrgStep := by
  unfold SeccTask.charging at h
  dsimp only at h
  split at h
  · obtain rfl := Option.some.inj h
    rfl
  · repeat' split at h
    all_goals
      first
        | exact readTx_chrgStep h
        | (obtain rfl := Option.some.inj h; rfl)

/-- A step that waits for its write and goes back to the handshake. -/
theorem await_move {s' : SeccTask} (hcheck : s'.pastCheck = false)
    (h : (if s'.sendChkFlg then s'.sendChrgReady
      else SeccTask.idle { s' with chrgStep := .handsh }) = some t) : ChrgMove s t.task := by
  split at h
  · exact chrgMove_before (sendChrgReady_chrgStep h) hcheck
  · obtain rfl := Option.some.inj h
    exact .before rfl

theorem chrgSwitch_move (hcharg : s.fault seccStatCharg = true) (h : s.chrgSwitch = some t) :
    ChrgMove s t.task := by
  unfold SeccTask.chrgSwitch at h
  cases hstep : s.chrgStep with
  | none =>
    simp only [hstep] at h
    obtain rfl := Option.some.inj h
    exact .before rfl
  | reqid =>
    simp only [hstep] at h
    obtain rfl := readTx_eq h
    exact .onward (by simp [SeccTask.pastCheck, hstep]) (by simp) hcharg rfl
  | chkid =>
    simp only [hstep] at h
    split at h
    all_goals
      obtain rfl := Option.some.inj h
      exact .onward (by simp [SeccTask.pastCheck, hstep]) (by simp) hcharg rfl
  | start =>
    simp only [hstep] at h
    exact await_move (by simp [SeccTask.pastCheck, hstep]) h
  | handsh =>
    simp only [hstep] at h
    exact handsh_move hstep hcharg h
  | authchk | prmchk =>
    simp only [hstep] at h
    exact await_move (by simp [SeccTask.pastCheck, SeccTask.setFault, hstep]) h
  | charging =>
    simp only [hstep] at h
    exact .stays (charging_chrgStep h)

theorem chrgSecc_move (h : s.chrgSecc = some t) : ChrgMove s t.task := by
  unfold SeccTask.chrgSecc at h
  split at h
  · exact chrgMove_before (readTx_chrgStep h) rfl
  · split at h
    · exact .stays (sendChrgReady_chrgStep h)
    · split at h
      · rename_i hcharg
        exact chrgSwitch_move hcharg h
      · obtain rfl := Option.some.inj h
        exact .before rfl

/-- The move is that of the state it ends in. -/
theorem ChrgMove.of_eq {s s' s'' : SeccTask} (h : ChrgMove s s')
    (hstep : s''.chrgStep = s'.chrgStep) (htx' : s''.txData = s'.txData) : ChrgMove s s'' := by
  cases h with
  | stays hs => exact .stays (hstep.trans hs)
  | before hcheck =>
    refine .before ?_
    unfold SeccTask.pastCheck at hcheck ⊢
    rw [hstep]
    exact hcheck
  | checks hcheck hs hcharg htx =>
    exact .checks hcheck (by rw [hstep]; exact hs) hcharg (htx'.trans htx)
  | onward hcheck hs hcharg htx =>
    exact .onward hcheck (by rw [hstep]; exact hs) hcharg (htx'.trans htx)

/-- **`SeccSenario`**. -/
theorem seccSenario_move (h : s.seccSenario = some t) : ChrgMove s t.task := by
  unfold SeccTask.seccSenario at h
  split at h
  · obtain ⟨t', hinit, rfl⟩ := Option.map_eq_some_iff.mp h
    have hkept := initSecc_chrgStep hinit
    exact .stays hkept
  · split at h
    · exact .stays (initSecc_chrgStep h)
    · unfold SeccTask.chrgSenario at h
      split at h
      · obtain ⟨t', ht', heq⟩ := Option.bind_eq_some_iff.mp h
        have hmove := chrgSecc_move ht'
        split at heq
        · -- nothing to send: the state is read
          obtain rfl := readTx_eq heq
          exact hmove.of_eq rfl rfl
        · obtain rfl := Option.some.inj heq
          exact hmove
      · exact chrgMove_before (readTx_chrgStep h) rfl

end Moves

/-! ## Runs -/

/-- **The invariant**: behind the check, the check was made since the step was none. -/
structure GateInv (s : SeccTask) (log : List ChrgTick) : Prop where
  checked : s.pastCheck = true → ∃ u ∈ since ChrgTick.isNone log, u.Checks
  gated : Past Gated log

theorem SeccTask.ne_none_of_pastCheck {s : SeccTask} (h : s.pastCheck = true) :
    s.chrgStep ≠ .none := by
  intro hstep
  simp [SeccTask.pastCheck, hstep] at h

theorem since_isNone_concat {log : List ChrgTick} {t : ChrgTick} (h : t.after.chrgStep ≠ .none) :
    since ChrgTick.isNone (log ++ [t]) = since ChrgTick.isNone log ++ [t] := by
  rw [since_concat, if_neg]
  simpa [ChrgTick.isNone] using h

/-- **A tick** keeps it. -/
theorem gateInv_tick {s s' : SeccTask} {log : List ChrgTick} (hI : GateInv s log)
    (h : ChrgMove s s') : GateInv s' (log ++ [⟨s, s'⟩]) := by
  -- the fault is read off what is to be sent, so a tick that keeps this keeps the fault
  have hfault : s'.txData = s.txData → s'.fault seccStatCharg = s.fault seccStatCharg := by
    intro htx
    unfold SeccTask.fault
    rw [htx]
  have hpast : Gated log ⟨s, s'⟩ → Past Gated (log ++ [⟨s, s'⟩]) := by
    intro hnew
    exact past_concat.mpr ⟨hI.gated, hnew⟩
  cases h with
  | stays hstep =>
    refine ⟨?_, hpast fun henters => absurd (hstep.symm.trans henters.2) henters.1⟩
    intro hcheck
    have hbefore : s.pastCheck = true := by
      unfold SeccTask.pastCheck at hcheck ⊢
      rw [← hstep]
      exact hcheck
    -- the check lies behind the last idle tick, and this one is not idle
    obtain ⟨u, hu, hchecks⟩ := hI.checked hbefore
    rw [since_isNone_concat (SeccTask.ne_none_of_pastCheck hcheck)]
    exact ⟨u, List.mem_append_left _ hu, hchecks⟩
  | before hcheck =>
    refine ⟨fun h => absurd (hcheck.symm.trans h) (by simp), hpast fun henters => ?_⟩
    have hstep : s'.chrgStep = .charging := henters.2
    simp [SeccTask.pastCheck, hstep] at hcheck
  | checks hcheck hstep hcharg htx =>
    have hmem : ChrgTick.mk s s' ∈ since ChrgTick.isNone log ++ [⟨s, s'⟩] := by simp
    refine ⟨?_, hpast fun _ => ⟨hcharg, (hfault htx).trans hcharg, _, hmem, hcheck⟩⟩
    intro _
    rw [since_isNone_concat hstep]
    exact ⟨_, hmem, hcheck⟩
  | onward hbefore hstep hcharg htx =>
    obtain ⟨u, hu, hchecks⟩ := hI.checked hbefore
    have hmem : u ∈ since ChrgTick.isNone log ++ [⟨s, s'⟩] := List.mem_append_left _ hu
    refine ⟨?_, hpast fun _ => ⟨hcharg, (hfault htx).trans hcharg, u, hmem, hchecks⟩⟩
    intro _
    rw [since_isNone_concat hstep]
    exact ⟨u, hmem, hchecks⟩

theorem gateInv_run {s₀ s : SeccTask} {log : List ChrgTick} (hnone : s₀.chrgStep = .none)
    (h : Always chrgRun s₀ s log) : GateInv s log := by
  refine h.invariant (I := GateInv) ⟨?_, Past.nil⟩ ?_
  · intro hcheck
    exact absurd hnone (SeccTask.ne_none_of_pastCheck hcheck)
  · intro s log e s' o hI _ hstep
    cases e with
    | tick =>
      obtain ⟨t, ht, heq⟩ := Option.map_eq_some_iff.mp hstep
      obtain ⟨rfl, rfl⟩ := Prod.mk.inj heq
      exact gateInv_tick hI (seccSenario_move ht)
    | others now =>
      obtain ⟨rfl, rfl⟩ := Prod.mk.inj (Option.some.inj hstep)
      rw [List.append_nil]
      exact ⟨hI.checked, hI.gated⟩

/-- **Charging is entered behind the check**, with the bit set, whatever happens between the
ticks. -/
theorem charging_gated {s₀ s : SeccTask} {log : List ChrgTick} (hnone : s₀.chrgStep = .none)
    (h : Always chrgRun s₀ s log) : Past Gated log := (gateInv_run hnone h).gated

/-- The vehicle draws current, and the session is on. -/
def drawing : SeccTask :=
  { SeccTask.zero with
    initStep := .done
    txData := { SeccTask.zero.txData with statusFault := seccStatCharg }
    data := { SeccData.zero with
      rx := { SeccData.zero.rx with stcode := csmStatChrg, pwmvoltage := 60 } } }

set_option maxRecDepth 20000 in
theorem charging_gated_once : ∃ s log, Always chrgRun .zero s log ∧ s.chrgStep = .charging ∧
    Past Gated log := by
  let p : SeccTask → List ChrgTick → Bool := fun s _ => decide (s.chrgStep = .charging)
  have hrun : (exec chrgRun (fun _ _ _ => true) .zero []
      [.others drawing, .tick, .others drawing, .tick, .tick]).any
      (fun r => p r.1 r.2) = true := by decide +kernel
  obtain ⟨s, log, hreach, hp⟩ := exists_reach_of_exec hrun
  exact ⟨s, log, hreach.always, of_decide_eq_true hp, charging_gated rfl hreach.always⟩

/-! ## The threads

The runs above leave everything but the step to chance. The two threads of `Secc.Task` are such a
run, so what is proved of these holds of them. -/

section Threads
variable {s₀ s s' : SeccTask} {ticks : List ChrgTick}

theorem reach_others (h : Always chrgRun s₀ s ticks) (hstep : s'.chrgStep = s.chrgStep) :
    Always chrgRun s₀ s' ticks := by
  have hnow : { s' with chrgStep := s.chrgStep } = s' := by
    rw [← hstep]
  have hstep' := h.step (e := .others s') trivial
    (show _ = some (s', []) by rw [chrgRun, hnow])
  rwa [List.append_nil] at hstep'

theorem send_chrgStep (t : SeccTurn) (junk : ParsBuf) :
    (SeccTask.send t junk).1.chrgStep = t.task.chrgStep := by
  have hreboot : ∀ s : SeccTask, (s.reboot junk).1.chrgStep = s.chrgStep := by
    intro s
    unfold SeccTask.reboot
    split <;> rfl
  unfold SeccTask.send
  cases t.ret with
  | asleep => rfl
  | none => exact hreboot _
  | read | write => exact hreboot _

theorem read_chrgStep {chunk : List UInt8} {o : List SeccTaskObs}
    (h : s.read chunk = some (s', o)) : s'.chrgStep = s.chrgStep := by
  obtain ⟨r, -, h⟩ := Option.bind_eq_some_iff.mp h
  dsimp only at h
  split at h
  · split at h
    · obtain ⟨s'', htake, heq⟩ := Option.map_eq_some_iff.mp h
      obtain ⟨rfl, -⟩ := Prod.mk.inj heq
      unfold SeccTask.takeRead at htake
      dsimp only at htake
      split at htake
      · obtain ⟨data, -, rfl⟩ := Option.map_eq_some_iff.mp htake
        rfl
      · cases htake
    · split at h
      all_goals
        obtain ⟨rfl, -⟩ := Prod.mk.inj (Option.some.inj h)
        rfl
  · obtain ⟨rfl, -⟩ := Prod.mk.inj (Option.some.inj h)
    rfl

/-- What is due, of `SeccSenario` or of something that leaves the step alone. -/
theorem reach_due {t : SeccTurn} (h : Always chrgRun s₀ s ticks) (hdue : s.due = some t) :
    ∃ ticks', Always chrgRun s₀ t.task ticks' := by
  unfold SeccTask.due at hdue
  split at hdue
  · exact ⟨ticks, reach_others h (initSecc_chrgStep hdue)⟩
  · extract_lets step at hdue
    split at hdue
    · have hkept := sendChrgReady_chrgStep hdue
      exact ⟨ticks, reach_others h hkept⟩
    · split at hdue
      · have hother : Always chrgRun s₀ { s with seccReqStep := 0 } ticks := reach_others h rfl
        exact ⟨_, hother.step (e := .tick) trivial (by rw [chrgRun, hdue]; rfl)⟩
      · have hkept := readTx_chrgStep hdue
        exact ⟨ticks, reach_others h hkept⟩

/-- **The two threads are such a run**, with the turns of `SeccSenario` as its ticks. -/
theorem threads_ticks {log : List SeccTaskObs} (h : Always seccTaskStep s₀ s log) :
    ∃ ticks, Always chrgRun s₀ s ticks := by
  refine h.invariant (I := fun s _ => ∃ ticks, Always chrgRun s₀ s ticks) ⟨[], .start⟩ ?_
  intro s log e s' o hI _ hstep
  obtain ⟨ticks, hticks⟩ := hI
  cases e with
  | tick junk =>
    simp only [seccTaskStep] at hstep
    split at hstep
    · obtain ⟨rfl, -⟩ := Prod.mk.inj (Option.some.inj hstep)
      exact ⟨ticks, hticks⟩
    · split at hstep
      · obtain ⟨rfl, -⟩ := Prod.mk.inj (Option.some.inj hstep)
        refine ⟨ticks, reach_others hticks ?_⟩
        unfold SeccTask.await
        split <;> rfl
      · obtain ⟨t, hdue, heq⟩ := Option.map_eq_some_iff.mp hstep
        obtain ⟨ticks', hdone⟩ := reach_due hticks hdue
        refine ⟨ticks', reach_others hdone ?_⟩
        rw [← send_chrgStep t junk, heq]
  | wake junk =>
    simp only [seccTaskStep] at hstep
    split at hstep
    · obtain ⟨t, hwrite, heq⟩ := Option.map_eq_some_iff.mp hstep
      obtain ⟨tx, -, rfl⟩ := writeTx_eq hwrite
      refine ⟨ticks, reach_others hticks ?_⟩
      have hsend := send_chrgStep ⟨.write, { s with
        asleep := false, secc := { s.secc with writeTx := tx } }, []⟩ junk
      rwa [heq] at hsend
    · obtain ⟨rfl, -⟩ := Prod.mk.inj (Option.some.inj hstep)
      exact ⟨ticks, hticks⟩
  | chunk bytes => exact ⟨ticks, reach_others hticks (read_chrgStep hstep)⟩
  | cardWait | setTx | setEvcc =>
    obtain ⟨rfl, -⟩ := Prod.mk.inj (Option.some.inj hstep)
    exact ⟨ticks, reach_others hticks rfl⟩

end Threads

/-- When the threads are charging, the check was made since the step was none. -/
theorem threads_charging {s₀ s : SeccTask} {log : List SeccTaskObs} (hnone : s₀.chrgStep = .none)
    (h : Always seccTaskStep s₀ s log) (hstep : s.chrgStep = .charging) :
    ∃ ticks, Always chrgRun s₀ s ticks ∧ ∃ u ∈ since ChrgTick.isNone ticks, u.Checks := by
  obtain ⟨ticks, hticks⟩ := threads_ticks h
  have hcheck : s.pastCheck = true := by
    unfold SeccTask.pastCheck
    rw [hstep]
  exact ⟨ticks, hticks, (gateInv_run hnone hticks).checked hcheck⟩

end ChargePoint
