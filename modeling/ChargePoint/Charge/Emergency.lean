import ChargePoint.Charge.Layer
import ChargePoint.Client

/-!
# The emergency button

The button is polled, and every poll is a sample for `EMBListenerOnCharge12`. The listener acts
on a sample that equals `oldPressed` and then keeps the opposite, so between two samples it acts
on the button has changed. What it keeps at the start is `false`, and that is what it keeps
*after a press*: it waits for a release first.

A sample is counted by an `int`. A step that would count past it is undefined, as any other
step of the layer outside its arrays.
-/

set_option autoImplicit false

namespace ChargePoint

open ChargeLayer

/-- The largest `int`. -/
def intMax : Nat := 2147483647

/-- The samples a step delivers to `EMBListenerOnCharge12`. -/
def ChargeEvent.samples : ChargeEvent → List Bool
  | .emergency pressed => [pressed]
  | _ => []

/-- A step of the layer, as the button sees it. -/
def sampleStep (s : ChargeLayer) (e : ChargeEvent) : Option (ChargeLayer × List Bool) :=
  if e.samples ≠ [] ∧ s.bGloAdminStatus = false ∧ s.emgCount = intMax then none
  else (chargeStep s e).map fun r => (r.1, e.samples)

/-- A run of the layer outside admin mode, with the samples delivered. -/
abbrev SampleRun (c : Charger) : ChargeLayer → List Bool → Prop :=
  Trace.Reach sampleStep (fun _ _ e => e ≠ .admin true) (.init c)

/-- The part of the state that only the listener and the admin screens write. -/
def ChargeLayer.emgState (s : ChargeLayer) : Bool × Nat × Bool × Bool :=
  (s.emgControl, s.emgCount, s.oldPressed, s.bGloAdminStatus)

/-! ## The other steps

The button's part of the state is four members. Each function of the layer leaves them alone, the
listener and the admin screens apart, so that the invariant has only the listener to deal with. -/

section Frames
variable {s s' : ChargeLayer} {o : List ChargeObs} {e : ChargeEvent}

theorem setDevStatus_emgState {code : CpStatus} (h : s.setDevStatus code = some s') :
    s'.emgState = s.emgState := by
  obtain ⟨i, -, rfl⟩ := Option.map_eq_some_iff.mp h
  rfl

theorem cpUnplugged_emgState {now : Nat} (h : s.cpUnplugged now = some (s', o)) :
    s'.emgState = s.emgState := by
  unfold cpUnplugged at h
  split at h
  · cases h
    rfl
  · split at h
    · simp only [Option.map_eq_some_iff, Prod.mk.injEq] at h
      obtain ⟨s₁, hs₁, rfl, -⟩ := h
      have hs := setDevStatus_emgState hs₁
      exact hs
    · cases h
      rfl

theorem cpRequested_emgState (h : s.cpRequested = some s') : s'.emgState = s.emgState := by
  unfold cpRequested at h
  split at h
  · cases h
    rfl
  · split at h
    · obtain ⟨s₁, hs₁, rfl⟩ := Option.map_eq_some_iff.mp h
      split at hs₁
      · have hs := setDevStatus_emgState hs₁
        exact hs
      · cases hs₁
        rfl
    · split at h <;> cases h <;> rfl

theorem ch1CpMonitoring_emgState {voltage : CpVoltage} {now : Nat}
    (h : s.ch1CpMonitoring voltage now = some (s', o)) : s'.emgState = s.emgState := by
  unfold ch1CpMonitoring at h
  split at h
  · dsimp only at h
    split at h
    · unfold cpListenerOnCharge at h
      split at h
      · cases h
        rfl
      · split at h
        · cases h
          rfl
        · have hs := cpUnplugged_emgState h
          exact hs
        · split at h <;> cases h <;> rfl
        · simp only [Option.map_eq_some_iff, Prod.mk.injEq] at h
          obtain ⟨s₁, hs₁, rfl, -⟩ := h
          have hs := cpRequested_emgState hs₁
          exact hs
    · cases h
      rfl
    · cases h
      rfl
  · cases h
    rfl

theorem chargeOnEnter_emgState {tm : Tm} (h : s.chargeOnEnter tm = some s') :
    s'.emgState = s.emgState := by
  obtain ⟨i, -, rfl⟩ := Option.map_eq_some_iff.mp h
  dsimp only
  split <;> rfl

theorem chargeOnLeave_emgState {tm : Tm} (h : s.chargeOnLeave tm = some (s', o)) :
    s'.emgState = s.emgState := by
  simp only [chargeOnLeave, Option.map_eq_some_iff, Prod.mk.injEq] at h
  obtain ⟨i, -, rfl, -⟩ := h
  cases s.sleepOn1chCheck with
  | true => cases hemg : s.emgControl <;> simp [emgState, hemg]
  | false => cases hemg : s.emgControl <;> simp [emgState, stopCharge, magneticContactorOff, hemg]

theorem cardReaderListenerOnCharging_emgState (data : List Char) :
    (s.cardReaderListenerOnCharging data).1.emgState = s.emgState := by
  unfold cardReaderListenerOnCharging
  split
  · split
    · rfl
    · dsimp only
      split
      · rfl
      · split <;> rfl
  · rfl

/-- **Nothing else moves what the button moves.** -/
theorem chargeStep_emgState (h : chargeStep s e = some (s', o)) (hno : e.samples = [])
    (hadmin : ∀ b, e ≠ .admin b) : s'.emgState = s.emgState := by
  cases e with
  | emergency pressed => cases hno
  | admin b => exact absurd rfl (hadmin b)
  | enter tm =>
    simp only [chargeStep, Option.map_eq_some_iff, Prod.mk.injEq] at h
    obtain ⟨s₁, hs₁, rfl, -⟩ := h
    exact chargeOnEnter_emgState hs₁
  | leave tm => exact chargeOnLeave_emgState h
  | pilot voltage now => exact ch1CpMonitoring_emgState h
  | card data =>
    have hs := cardReaderListenerOnCharging_emgState (s := s) data
    rw [chargeStep, Option.some.injEq] at h
    rw [h] at hs
    exact hs
  | authConf rx =>
    simp only [chargeStep, authConf] at h
    split at h
    · cases h
      rfl
    · simp only [Option.map_eq_some_iff, Prod.mk.injEq] at h
      obtain ⟨c, -, rfl, -⟩ := h
      rfl
  | authReq =>
    simp only [chargeStep, authReq, Option.some.injEq, Prod.mk.injEq] at h
    rw [← h.1]
    split <;> rfl
  | orderSequence now =>
    simp only [chargeStep, orderSequenceMonitoring, Option.some.injEq] at h
    split at h <;> cases h <;> rfl
  | stopButton =>
    simp only [chargeStep, chargeStopOnDialog, Option.some.injEq] at h
    split at h <;> cases h <;> rfl
  | zeroCurrent =>
    simp only [chargeStep, checkCurrentIsZero, Option.some.injEq] at h
    split at h <;> cases h <;> rfl
  | monitor =>
    simp only [chargeStep, monitorCard, Option.some.injEq] at h
    split at h <;> cases h <;> rfl
  | finishEnter | finishLeave | chargingStop | stopCharge | otherListener | cpPower | shared =>
    cases h
    rfl

end Frames

/-! ## The listener

The first twenty samples are left out. From then on only a sample equal to `oldPressed` acts, and
turns it round. It starts as `false`, so the first sample to act is a release; from there on the
emergency state is the last sample. -/

/-- The samples behind the twenty that are left out. -/
def afterWarmUp (samples : List Bool) : List Bool := samples.drop 20

/-- What the listener has made of the samples. Until it has seen the button released it takes it
to be pressed, and is not in the emergency state. -/
structure EmgInv (s : ChargeLayer) (samples : List Bool) : Prop where
  admin : s.bGloAdminStatus = false
  count : s.emgCount = samples.length
  waits : false ∉ afterWarmUp samples → s.emgControl = false ∧ s.oldPressed = false
  tracks : false ∈ afterWarmUp samples →
    samples.getLast? = some s.emgControl ∧ s.oldPressed = !s.emgControl

section Listener
variable {s s' : ChargeLayer} {samples : List Bool} {pressed : Bool}

theorem afterWarmUp_concat (h : ¬ samples.length < 20) :
    afterWarmUp (samples ++ [pressed]) = afterWarmUp samples ++ [pressed] :=
  List.drop_append_of_le_length (by omega)

theorem afterWarmUp_early (h : samples.length < 20) : afterWarmUp (samples ++ [pressed]) = [] := by
  apply List.drop_eq_nil_of_le
  rw [List.length_append, List.length_singleton]
  omega

/-- What does not touch the button's part keeps the invariant. -/
theorem EmgInv.frame (h : EmgInv s samples) (heq : s'.emgState = s.emgState) :
    EmgInv s' samples := by
  simp only [emgState, Prod.mk.injEq] at heq
  obtain ⟨hemg, hcount, hold, hadmin⟩ := heq
  refine ⟨hadmin.trans h.admin, hcount.trans h.count, ?_, ?_⟩
  · rw [hemg, hold]
    exact h.waits
  · rw [hemg, hold]
    exact h.tracks

/-- What a sample does to it. -/
theorem embListenerOnCharge12_emgState (pressed : Bool)
    (hadmin : s.bGloAdminStatus = false) :
    (s.embListenerOnCharge12 pressed).1.emgState =
      if s.emgCount < 20 ∨ pressed ≠ s.oldPressed then
        (s.emgControl, s.emgCount + 1, s.oldPressed, false)
      else (pressed, s.emgCount + 1, !pressed, false) := by
  unfold embListenerOnCharge12
  simp only [hadmin, Bool.false_eq_true, if_false]
  by_cases hearly : s.emgCount < 20
  · simp [hearly, emgState]
  · by_cases hact : pressed = s.oldPressed
    · cases pressed with
      | true => simp [hearly, ← hact, emgState, setCompStatus, setChCharging, magneticContactorOff,
          setAppOrder]
      | false => simp [hearly, ← hact, emgState]
    · simp [hearly, hact, emgState]

/-- One sample. -/
theorem EmgInv.sample (h : EmgInv s samples) :
    EmgInv (s.embListenerOnCharge12 pressed).1 (samples ++ [pressed]) := by
  have hlen : (samples ++ [pressed]).length = samples.length + 1 := by simp
  have hnext := embListenerOnCharge12_emgState pressed h.admin
  generalize (s.embListenerOnCharge12 pressed).1 = t at hnext
  rw [h.count] at hnext
  by_cases hearly : samples.length < 20
  · -- still warming up: the sample is counted, and nothing is behind the twenty yet
    rw [if_pos (Or.inl hearly)] at hnext
    simp only [emgState, Prod.mk.injEq] at hnext
    obtain ⟨hemg, hcount, hold, hadmin⟩ := hnext
    have hnone : afterWarmUp samples = [] := List.drop_eq_nil_of_le (by omega)
    refine ⟨hadmin, hcount.trans hlen.symm, fun _ => ?_, ?_⟩
    · rw [hemg, hold]
      exact h.waits (by simp [hnone])
    · rw [afterWarmUp_early hearly]
      exact fun hin => absurd hin List.not_mem_nil
  · by_cases hact : pressed = s.oldPressed
    · -- the listener acts
      rw [if_neg (by simp [hearly, hact])] at hnext
      simp only [emgState, Prod.mk.injEq] at hnext
      obtain ⟨hemg, hcount, hold, hadmin⟩ := hnext
      refine ⟨hadmin, hcount.trans hlen.symm, fun hno => ?_, fun _ => ?_⟩
      · -- it acts on a press after a release only
        rw [afterWarmUp_concat hearly, List.mem_append, not_or] at hno
        have hold₀ := (h.waits hno.1).2
        rw [hold₀] at hact
        exact absurd (by simp [hact]) hno.2
      · rw [hemg, hold]
        exact ⟨List.getLast?_concat, rfl⟩
    · rw [if_pos (Or.inr hact)] at hnext
      simp only [emgState, Prod.mk.injEq] at hnext
      obtain ⟨hemg, hcount, hold, hadmin⟩ := hnext
      refine ⟨hadmin, hcount.trans hlen.symm, fun hno => ?_, fun hin => ?_⟩
      · rw [afterWarmUp_concat hearly, List.mem_append, not_or] at hno
        rw [hemg, hold]
        exact h.waits hno.1
      · by_cases hseen : false ∈ afterWarmUp samples
        · -- the button is as it was
          have hold₀ := (h.tracks hseen).2
          have hsame : pressed = s.emgControl := by
            rw [hold₀] at hact
            exact (Bool.eq_not_of_ne hact).trans (Bool.not_not _)
          rw [hemg, hold, List.getLast?_concat, hsame]
          exact ⟨rfl, hold₀⟩
        · -- a press since the start is no change to the listener
          rw [afterWarmUp_concat hearly, List.mem_append] at hin
          have hfalse : pressed = false := by simpa [hseen] using hin
          exact absurd (hfalse.trans (h.waits hseen).2.symm) hact

end Listener

variable {c : Charger} {s : ChargeLayer} {samples : List Bool}

/-- **Every run.** -/
theorem SampleRun.emgInv (h : SampleRun c s samples) : EmgInv s samples := by
  refine h.invariant ⟨rfl, rfl, fun _ => ⟨rfl, rfl⟩, fun hin => absurd hin List.not_mem_nil⟩ ?_
  intro s samples e s' o hinv hok hstep
  unfold sampleStep at hstep
  split at hstep
  · cases hstep
  · obtain ⟨r, hr, heq⟩ := Option.map_eq_some_iff.mp hstep
    obtain ⟨rfl, rfl⟩ := Prod.mk.inj heq
    cases e with
    | emergency pressed =>
      have hs : (s.embListenerOnCharge12 pressed).1 = r.1 := by rw [Option.some.inj hr]
      rw [← hs]
      exact hinv.sample
    | admin b =>
      cases b with
      | true => exact absurd rfl hok
      | false =>
        cases hr
        simp only [ChargeEvent.samples, List.append_nil]
        exact ⟨rfl, hinv.count, hinv.waits, hinv.tracks⟩
    | _ =>
      simp only [ChargeEvent.samples, List.append_nil]
      exact hinv.frame (chargeStep_emgState hr rfl (by simp))

/-- **The emergency state is the button's last sample from the first release on that came after
the warm-up, and not before.** -/
theorem emergency_tracks_iff (h : SampleRun c s samples) (hlen : 20 < samples.length) :
    samples.getLast? = some s.emgControl ↔ false ∈ afterWarmUp samples := by
  constructor
  · intro hlast
    by_contra hno
    -- the last sample is one of those behind the warm-up, and it was a press
    have hemg := (h.emgInv.waits hno).1
    rw [hemg] at hlast
    apply hno
    have hlast' : (afterWarmUp samples).getLast? = some false := by
      rw [afterWarmUp, List.getLast?_drop, if_neg (by omega)]
      exact hlast
    exact List.mem_of_getLast? hlast'
  · exact fun hin => (h.emgInv.tracks hin).1

/-- Twenty-one samples of a released button, and a press. -/
theorem emergency_tracks_pressed :
    ∃ s samples, samples.getLast? = some true ∧ SampleRun (.init 3) s samples ∧
      (samples.getLast? = some s.emgControl ↔ false ∈ afterWarmUp samples) := by
  let p : ChargeLayer → List Bool → Bool := fun _ samples =>
    decide (20 < samples.length) && samples.getLast? == some true
  have hrun : (Trace.exec sampleStep (fun _ _ e => !e.samples.isEmpty) (.init (.init 3)) []
      (List.replicate 21 (.emergency false) ++ [.emergency true])).any
      (fun r => p r.1 r.2) = true := by decide +kernel
  obtain ⟨s, samples, h, hp⟩ := Trace.exists_reach_of_exec (p := p) hrun
  simp only [p, Bool.and_eq_true, decide_eq_true_eq, beq_iff_eq] at hp
  have hok : SampleRun (.init 3) s samples :=
    h.weaken fun _ _ e he hadmin => by simp [hadmin, ChargeEvent.samples] at he
  exact ⟨s, samples, hp.2, hok, emergency_tracks_iff hok hp.1⟩

/-- The button is pressed from power-up on: the charger never notices. -/
theorem emergency_missed :
    ∃ s samples, SampleRun (.init 3) s samples ∧ 20 < samples.length ∧
      ¬ samples.getLast? = some s.emgControl := by
  let p : ChargeLayer → List Bool → Bool := fun s samples =>
    decide (20 < samples.length) && samples.getLast? != some s.emgControl
  have hrun : (Trace.exec sampleStep (fun _ _ e => !e.samples.isEmpty) (.init (.init 3)) []
      (List.replicate 30 (.emergency true))).any (fun r => p r.1 r.2) = true := by decide +kernel
  obtain ⟨s, samples, h, hp⟩ := Trace.exists_reach_of_exec (p := p) hrun
  simp only [p, Bool.and_eq_true, decide_eq_true_eq, bne_iff_ne] at hp
  refine ⟨s, samples, h.weaken fun _ _ e he hadmin => ?_, hp.1, hp.2⟩
  simp [hadmin, ChargeEvent.samples] at he

end ChargePoint
