import ChargePoint.Ami.Meter
import ChargePoint.Charge.Layer
import ChargePoint.Client

/-!
# The fault monitor

Once a second `ChargeFaultMonitoringTaskFuntion` compares the meter's current and voltage with
their limits. It counts, for each of three faults, the samples that show it, and raises a fault
at the eleventh. Raising one clears all three counters.

The counters are its own. Everything else it reads and writes is shared, and what the other
threads have made of it by the next second is part of that second.
-/

set_option autoImplicit false

namespace ChargePoint

open Ami Rounding

def limitOvVolt : UInt16 := 26400
def limitUdVolt : UInt16 := 19800
def limitOvCurr : UInt16 := 3500

/-- The places of `Fault_Count[3]`. -/
inductive Fault
  | overCurrent | overVoltage | underVoltage
  deriving DecidableEq, Repr

def Fault.errCode : Fault → ErrCode
  | .overCurrent => .ovCurt
  | .overVoltage => .ovVolt
  | .underVoltage => .udVolt

/-- `CST_OUT_OVER_CURRENT`, `CST_OUT_OVER_VOLTAGE` and `CST_IN_UNDER_VOLTAGE`. -/
def Fault.epqBit : Fault → Nat
  | .overCurrent => 11
  | .overVoltage => 10
  | .underVoltage => 26

/-- `CST_COM_WHM` -/
def cstComWhm : Nat := 29

/-- What the monitor shares with the rest. -/
structure Shared where
  layer : ChargeLayer
  /-- the bits of `shmDataAppInfo.eqp_status` -/
  eqpStatus : Nat → Bool

namespace Shared
variable (s : Shared)

/-- `CstSetEpqStatus` -/
def cstSetEpqStatus (nBit : Nat) (bSet : Bool) : Shared :=
  { s with eqpStatus := Function.update s.eqpStatus nBit bSet }

/-- `CstGetEpqStatus`: a bit that is set reads `false`. -/
def cstGetEpqStatus (nBit : Nat) : Bool := !s.eqpStatus nBit

/-- `ShowWhmErrorDialogBox`, of which the dialog is left out. -/
def showWhmErrorDialogBox : Shared :=
  if s.layer.cp.scene.appOrder = appOrderCharging ∨
      s.layer.cp.scene.appOrder = appOrderChargeReady then
    { s with layer := s.layer.tsctChargingStop }
  else s

/-- The look at the meter's line. -/
def checkAmi (bAmiErrChk : Bool) : Shared :=
  if bAmiErrChk ∧ s.cstGetEpqStatus cstComWhm = false then
    (s.cstSetEpqStatus cstComWhm false).showWhmErrorDialogBox
  else s.cstSetEpqStatus cstComWhm true

/-- What is done for a fault. -/
def raiseFault (f : Fault) : Option Shared :=
  let s := { s with layer := s.layer.setCompStatus endErr }
  let s := (s.cstSetEpqStatus f.epqBit false).showWhmErrorDialogBox
  let cp := { s.layer.cp with scene := { s.layer.cp.scene with chargerErrCode := f.errCode } }
  (({ s.layer with cp := cp } : ChargeLayer).setDevStatus .fault).map fun layer =>
    { s with layer := layer }

end Shared

/-- A comparison with a limit. -/
def Fault.test (chkCurrent chkVolt : UInt16) : Fault → Bool
  | .overCurrent => limitOvCurr < chkCurrent
  | .overVoltage => limitOvVolt < chkVolt
  | .underVoltage => chkVolt < limitUdVolt

/-- `Fault_Count[i]++`, or `Fault_Count[i] = 0`. -/
def countFaults (chkCurrent chkVolt : UInt16) (faultCount : Fault → Nat) (f : Fault) : Nat :=
  if f.test chkCurrent chkVolt then (faultCount f + 1) % 256 else 0

/-- The counters, what is shared, and the faults raised so far in this second. -/
abbrev Checked := (Fault → Nat) × Shared × List Fault

/-- `if(Fault_Count[i] > 10)` and what follows it. -/
def checkFault (f : Fault) (r : Checked) : Option Checked :=
  if 10 < r.1 f then (r.2.1.raiseFault f).map fun s => (fun _ => 0, s, r.2.2 ++ [f])
  else some r

/-- **An iteration of `ChargeFaultMonitoringTaskFuntion`.** -/
def chargeFaultMonitoring (bAmiErrChk : Bool) (faultCount : Fault → Nat) (s : Shared) :
    Option Checked :=
  let s := s.checkAmi bAmiErrChk
  let faultCount :=
    countFaults s.layer.cp.scene.amiCurrent s.layer.cp.scene.amiVolt faultCount
  (checkFault .overCurrent (faultCount, s, [])).bind fun r =>
    (checkFault .overVoltage r).bind (checkFault .underVoltage)

/-! ## Runs -/

/-- A second: what is shared by then, and the reading the meter has stored. -/
structure Second where
  shared : Shared
  bAmiErrChk : Bool
  reading : Reading

/-- What is shared, with the reading's values in `gcurrent` and `gvolt`. -/
def Second.stored (x : Second) : Shared :=
  { x.shared with
    layer := { x.shared.layer with cp := { x.shared.layer.cp with
      scene := { x.shared.layer.cp.scene with
        amiCurrent := gcurrentOf x.reading.current, amiVolt := gvoltOf x.reading.volt } } } }

/-- A sample, and the faults raised at it. -/
structure Sample where
  reading : Reading
  raised : List Fault
  deriving DecidableEq, Repr

/-- One second of the monitor. -/
def monitorStep (faultCount : Fault → Nat) (x : Second) :
    Option ((Fault → Nat) × List Sample) :=
  (chargeFaultMonitoring x.bAmiErrChk faultCount x.stored).map fun r =>
    (r.1, [⟨x.reading, r.2.2⟩])

/-! ## What is to be detected

A fault is due at every eleventh sample of a streak. `Undistorted` and `Alone` are the two
conditions: the monitor compares other numbers than the meter's, and a fault that is raised takes
the counts of the others with it. -/

/-- Over 35.00 A, over 264.0 V, under 198.0 V. -/
def Fault.Shows (r : Reading) : Fault → Prop
  | .overCurrent => 3500 < r.current.toNat
  | .overVoltage => 2640 < r.volt.toNat
  | .underVoltage => r.volt.toNat < 1980

instance (r : Reading) (f : Fault) : Decidable (f.Shows r) := by
  cases f <;> unfold Fault.Shows <;> infer_instance

/-- For how many samples the fault has shown now. -/
def streak (f : Fault) (log : List Sample) : Nat :=
  (Trace.since (fun x => decide (¬ f.Shows x.reading)) log).length

/-- The eleventh sample in a row that shows the fault, or the twenty-second, and so on. -/
def Due (f : Fault) (log : List Sample) : Prop := 0 < streak f log ∧ streak f log % 11 = 0

/-- At every sample the faults raised are those that are due. -/
def Detected (log : List Sample) : Prop :=
  Trace.Past (fun before x => ∀ f, f ∈ x.raised ↔ Due f (before ++ [x])) log

/-- The values the monitor compares are on the same side of the limits as the registers. -/
def Undistorted (r : Reading) : Prop :=
  r.current ≠ 3501 ∧ (r.volt.toNat ≤ 6553 ∨ 26400 < r.volt.toNat * 10 % 65536)

/-- When a fault is due, no other one shows. -/
def Alone (log : List Sample) (r : Reading) : Prop :=
  ∀ f g, Due f (log ++ [⟨r, []⟩]) → g.Shows r → g = f

/-! ## The comparisons

The limit of the current is compared with a converted value, which right above it is a hundredth of
an ampere too low; the voltage is multiplied by ten in 16 bits and wraps around above 6553. -/

theorem overCurrent_test (raw : UInt16) : limitOvCurr < gcurrentOf raw ↔ 3501 < raw := by
  constructor
  · intro hlt
    by_contra hle
    have hmono := gcurrentOf_mono (UInt16.not_lt.mp hle)
    rw [gcurrentOf_3501] at hmono
    exact absurd hlt (UInt16.not_lt.mpr hmono)
  · intro hlt
    have hle : (3502 : UInt16) ≤ raw := by
      have := UInt16.lt_iff_toNat_lt.mp hlt
      exact UInt16.le_iff_toNat_le.mpr this
    have hvalue : limitOvCurr < gcurrentOf 3502 := by decide +kernel
    exact UInt16.lt_of_lt_of_le hvalue (gcurrentOf_mono hle)

theorem gvoltOf_toNat (raw : UInt16) : (gvoltOf raw).toNat = raw.toNat * 10 % 65536 := by
  unfold gvoltOf
  rw [UInt16.toNat_mul]
  rfl

/-- **The readings at which all three comparisons are right.** -/
theorem test_iff_undistorted (r : Reading) :
    (∀ f : Fault, f.test (gcurrentOf r.current) (gvoltOf r.volt) = true ↔ f.Shows r) ↔
      Undistorted r := by
  have hcurr : Fault.overCurrent.test (gcurrentOf r.current) (gvoltOf r.volt) = true ↔
      3501 < r.current.toNat := by
    rw [Fault.test, decide_eq_true_eq, overCurrent_test]
    exact UInt16.lt_iff_toNat_lt
  have hover : Fault.overVoltage.test (gcurrentOf r.current) (gvoltOf r.volt) = true ↔
      26400 < r.volt.toNat * 10 % 65536 := by
    rw [Fault.test, decide_eq_true_eq, UInt16.lt_iff_toNat_lt, gvoltOf_toNat]
    rfl
  have hunder : Fault.underVoltage.test (gcurrentOf r.current) (gvoltOf r.volt) = true ↔
      r.volt.toNat * 10 % 65536 < 19800 := by
    rw [Fault.test, decide_eq_true_eq, UInt16.lt_iff_toNat_lt, gvoltOf_toNat]
    rfl
  have hne : r.current ≠ 3501 ↔ r.current.toNat ≠ 3501 := by
    rw [Ne, ← UInt16.toNat_inj]
    rfl
  -- up to 6553 ten times the reading stays inside the sixteen bits of Gvolt
  have hwrap : r.volt.toNat ≤ 6553 → r.volt.toNat * 10 % 65536 = r.volt.toNat * 10 :=
    fun hle => Nat.mod_eq_of_lt (by omega)
  unfold Undistorted
  rw [hne]
  constructor
  · intro hall
    -- the two tests of the voltage look at one product, so one of them is enough here
    have h1 := hcurr.symm.trans (hall .overCurrent)
    have h2 := hover.symm.trans (hall .overVoltage)
    simp only [Fault.Shows] at h1 h2
    generalize r.volt.toNat * 10 % 65536 = chkVolt at h2 ⊢
    omega
  · rintro ⟨h1, h2⟩ f
    cases f with
    | overCurrent =>
      rw [hcurr, Fault.Shows]
      omega
    | overVoltage =>
      rw [hover, Fault.Shows]
      generalize r.volt.toNat * 10 % 65536 = chkVolt at hwrap h2 ⊢
      omega
    | underVoltage =>
      rw [hunder, Fault.Shows]
      generalize r.volt.toNat * 10 % 65536 = chkVolt at hwrap h2 ⊢
      omega

/-! ## One second

The three counters are checked one behind the other, and the first that is over ten clears them
all, so at most one fault is raised in a second. -/

section Steps
variable {s : Shared} {counts counts' : Fault → Nat} {r r' : Checked} {f g : Fault}

/-- A check raises its fault and clears the counters, or does nothing. -/
theorem checkFault_cases (h : checkFault f r = some r') :
    (10 < r.1 f ∧ r'.1 = (fun _ => 0) ∧ r'.2.2 = r.2.2 ++ [f]) ∨ (r.1 f ≤ 10 ∧ r' = r) := by
  unfold checkFault at h
  split at h
  · rename_i hlt
    obtain ⟨s', -, rfl⟩ := Option.map_eq_some_iff.mp h
    exact .inl ⟨hlt, rfl, rfl⟩
  · rename_i hle
    exact .inr ⟨Nat.not_lt.mp hle, (Option.some.inj h).symm⟩

/-- Behind a fault that was raised there is nothing left to raise. -/
theorem checkFault_cleared (h : checkFault f r = some r') (hr : r.1 = fun _ => 0) : r' = r := by
  rcases checkFault_cases h with ⟨hlt, -⟩ | ⟨-, heq⟩
  · rw [hr] at hlt
    exact absurd hlt (Nat.not_lt_zero 10)
  · exact heq

/-- **What a second does to the counters**: nothing is raised, or the first fault whose counter
is over ten. -/
theorem chargeFaultMonitoring_cases {bAmiErrChk : Bool} {c : Fault → Nat}
    (hc : c = countFaults (s.checkAmi bAmiErrChk).layer.cp.scene.amiCurrent
      (s.checkAmi bAmiErrChk).layer.cp.scene.amiVolt counts)
    (h : chargeFaultMonitoring bAmiErrChk counts s = some r) :
    ((∀ f, c f ≤ 10) ∧ r.1 = c ∧ r.2.2 = []) ∨
      ∃ f, 10 < c f ∧ r.1 = (fun _ => 0) ∧ r.2.2 = [f] := by
  unfold chargeFaultMonitoring at h
  dsimp only at h
  rw [← hc] at h
  obtain ⟨r₁, h₁, h⟩ := Option.bind_eq_some_iff.mp h
  obtain ⟨r₂, h₂, h₃⟩ := Option.bind_eq_some_iff.mp h
  rcases checkFault_cases h₁ with ⟨hlt, hzero, hraised⟩ | ⟨hle₁, rfl⟩
  · have heq₂ := checkFault_cleared h₂ hzero
    have heq₃ := checkFault_cleared h₃ (heq₂ ▸ hzero)
    rw [heq₃, heq₂]
    exact .inr ⟨.overCurrent, hlt, hzero, hraised⟩
  · rcases checkFault_cases h₂ with ⟨hlt, hzero, hraised⟩ | ⟨hle₂, rfl⟩
    · have heq₃ := checkFault_cleared h₃ hzero
      rw [heq₃]
      exact .inr ⟨.overVoltage, hlt, hzero, hraised⟩
    · rcases checkFault_cases h₃ with ⟨hlt, hzero, hraised⟩ | ⟨hle₃, rfl⟩
      · exact .inr ⟨.underVoltage, hlt, hzero, hraised⟩
      · refine .inl ⟨fun f => ?_, rfl, rfl⟩
        cases f with
        | overCurrent => exact hle₁
        | overVoltage => exact hle₂
        | underVoltage => exact hle₃

/-- The look at the meter's line leaves its values alone. -/
theorem checkAmi_values (b : Bool) :
    (s.checkAmi b).layer.cp.scene.amiCurrent = s.layer.cp.scene.amiCurrent ∧
      (s.checkAmi b).layer.cp.scene.amiVolt = s.layer.cp.scene.amiVolt := by
  unfold Shared.checkAmi
  split
  · unfold Shared.showWhmErrorDialogBox
    split <;> exact ⟨rfl, rfl⟩
  · exact ⟨rfl, rfl⟩

/-- The same, of the monitor's own step. -/
theorem monitorStep_cases {x : Second} {o : List Sample} {c : Fault → Nat}
    (hc : c = countFaults (gcurrentOf x.reading.current) (gvoltOf x.reading.volt) counts)
    (h : monitorStep counts x = some (counts', o)) :
    ∃ raised, o = [⟨x.reading, raised⟩] ∧
      (((∀ f, c f ≤ 10) ∧ counts' = c ∧ raised = []) ∨
        ∃ f, 10 < c f ∧ counts' = (fun _ => 0) ∧ raised = [f]) := by
  obtain ⟨r, hr, heq⟩ := Option.map_eq_some_iff.mp h
  obtain ⟨rfl, rfl⟩ := Prod.mk.inj heq
  have hvalues := checkAmi_values (s := x.stored) x.bAmiErrChk
  refine ⟨r.2.2, rfl, chargeFaultMonitoring_cases ?_ hr⟩
  rw [hvalues.1, hvalues.2]
  exact hc

end Steps

/-! ## Streaks -/

section Streaks
variable {f g : Fault} {log : List Sample} {x : Sample}

theorem streak_concat : streak f (log ++ [x]) = if f.Shows x.reading then streak f log + 1 else 0 := by
  unfold streak
  rw [Trace.since_concat]
  by_cases hshows : f.Shows x.reading <;> simp [hshows]

/-- A fault that is due shows. -/
theorem Due.shows (h : Due f (log ++ [x])) : f.Shows x.reading := by
  by_contra hno
  have hpos := h.1
  rw [streak_concat, if_neg hno] at hpos
  exact absurd hpos (Nat.lt_irrefl 0)

/-- A reading that shows one fault at most. -/
theorem alone_of_one {r : Reading} (h : ∀ f g : Fault, f.Shows r → g.Shows r → g = f) :
    Alone log r :=
  fun f g hdue hg => h f g hdue.shows hg

/-- **A counter is the streak, anew after every eleven.** -/
def CountsInv (counts : Fault → Nat) (log : List Sample) : Prop :=
  ∀ f, counts f = streak f log % 11

/-- What a counter is before the checks. -/
theorem CountsInv.counted {counts : Fault → Nat} {r : Reading} (raised : List Fault)
    (h : CountsInv counts log) (hr : Undistorted r) (f : Fault) :
    countFaults (gcurrentOf r.current) (gvoltOf r.volt) counts f ≤ 11 ∧
      (countFaults (gcurrentOf r.current) (gvoltOf r.volt) counts f = 11 ↔
        Due f (log ++ [⟨r, raised⟩])) ∧
      (countFaults (gcurrentOf r.current) (gvoltOf r.volt) counts f ≤ 10 →
        countFaults (gcurrentOf r.current) (gvoltOf r.volt) counts f =
          streak f (log ++ [⟨r, raised⟩]) % 11) := by
  have htest := (test_iff_undistorted r).mpr hr f
  have hcount := h f
  unfold Due countFaults
  rw [streak_concat]
  by_cases hshows : f.Shows r
  · rw [if_pos (htest.mpr hshows), if_pos hshows]
    omega
  · rw [if_neg fun ht => hshows (htest.mp ht), if_neg hshows]
    omega

end Streaks

/-- One second of a monitor that has kept count. -/
theorem detected_step {counts counts' : Fault → Nat} {log o : List Sample} {x : Second}
    (hinv : CountsInv counts log) (hdet : Detected log) (hr : Undistorted x.reading)
    (hone : Alone log x.reading) (hstep : monitorStep counts x = some (counts', o)) :
    CountsInv counts' (log ++ o) ∧ Detected (log ++ o) := by
  obtain ⟨raised, rfl, hcases⟩ := monitorStep_cases rfl hstep
  have hcount := fun f => hinv.counted raised hr f
  -- a new sample is the only thing to be shown
  have hnew : (∀ f, f ∈ raised ↔ Due f (log ++ [⟨x.reading, raised⟩])) →
      Detected (log ++ [⟨x.reading, raised⟩]) := by
    intro h
    refine hdet.append fun l y l' heq => ?_
    obtain ⟨rfl, hy⟩ | ⟨rfl, hy⟩ := List.append_eq_singleton_iff.mp heq.symm
    · obtain ⟨rfl, -⟩ := List.cons.inj hy
      rw [List.append_nil]
      exact h
    · exact absurd hy (List.cons_ne_nil y l')
  rcases hcases with ⟨hsmall, rfl, hnone⟩ | ⟨f, hlarge, rfl, hraised⟩
  · refine ⟨fun f => (hcount f).2.2 (hsmall f), hnew fun f => ?_⟩
    have hno : ¬ Due f (log ++ [⟨x.reading, raised⟩]) := by
      intro hdue
      have := (hcount f).2.1.mpr hdue
      have := hsmall f
      omega
    rw [hnone] at hno ⊢
    exact iff_of_false List.not_mem_nil hno
  · have hdue : Due f (log ++ [⟨x.reading, raised⟩]) := by
      have := (hcount f).1
      exact (hcount f).2.1.mp (by omega)
    have hothers : ∀ g, g.Shows x.reading → g = f := by
      intro g hg
      refine hone f g ?_ hg
      simpa only [Due, streak_concat] using hdue
    refine ⟨fun g => ?_, hnew fun g => ?_⟩
    · by_cases hg : g.Shows x.reading
      · rw [hothers g hg, hdue.2]
      · rw [streak_concat, if_neg hg]
    · constructor
      · intro hmem
        rw [hraised] at hmem
        rw [List.mem_singleton.mp hmem]
        exact hdue
      · intro hg
        rw [hothers g hg.shows, hraised]
        exact List.mem_singleton_self f

/-- **The monitor raises what is due, and nothing else**, over every run in which the values it
compares are on the right side of the limits and no other fault shows when one is due. -/
theorem faults_detected {counts : Fault → Nat} {log : List Sample}
    (h : Trace.Reach monitorStep (fun _ log x => Undistorted x.reading ∧ Alone log x.reading)
      (fun _ => 0) counts log) : Detected log := by
  have hinv := h.invariant (I := fun counts log => CountsInv counts log ∧ Detected log)
    ⟨fun _ => rfl, Trace.Past.nil⟩ (fun hinv hok hstep =>
      detected_step hinv.1 hinv.2 hok.1 hok.2 hstep)
  exact hinv.2

/-- A second with nothing else going on. -/
def Second.quiet (r : Reading) : Second :=
  ⟨⟨.init (.init 3), fun _ => true⟩, false, r⟩

/-- Eleven seconds at 36.00 A. -/
theorem faults_detected_current :
    ∃ counts log, (⟨⟨0, 3600, 2200⟩, [.overCurrent]⟩ : Sample) ∈ log ∧ Detected log ∧
      Trace.Reach monitorStep (fun _ log x => Undistorted x.reading ∧ Alone log x.reading)
        (fun _ => 0) counts log := by
  let p : (Fault → Nat) → List Sample → Bool := fun _ log =>
    decide ((⟨⟨0, 3600, 2200⟩, [.overCurrent]⟩ : Sample) ∈ log)
  have hrun : (Trace.exec monitorStep (fun _ _ x => x.reading == ⟨0, 3600, 2200⟩) (fun _ => 0) []
      (List.replicate 11 (Second.quiet ⟨0, 3600, 2200⟩))).any (fun r => p r.1 r.2) = true := by
    decide +kernel
  obtain ⟨counts, log, h, hp⟩ := Trace.exists_reach_of_exec (p := p) hrun
  have hok : Trace.Reach monitorStep
      (fun _ log x => Undistorted x.reading ∧ Alone log x.reading) (fun _ => 0) counts log := by
    refine h.weaken fun counts log x hx => ?_
    have hone : ∀ f : Fault, f.Shows ⟨0, 3600, 2200⟩ → f = .overCurrent := by
      intro f hf
      cases f with
      | overCurrent => rfl
      | overVoltage | underVoltage => exact absurd hf (by decide)
    rw [beq_iff_eq.mp hx]
    exact ⟨⟨by decide, .inl (by decide)⟩,
      alone_of_one fun f g hf hg => (hone g hg).trans (hone f hf).symm⟩
  exact ⟨counts, log, of_decide_eq_true hp, faults_detected hok, hok⟩

/-- Eleven seconds at 36.00 A and 270.0 V: the over-voltage is not raised. -/
theorem fault_lost : ∃ counts log,
    Trace.Reach monitorStep (fun _ _ _ => True) (fun _ => 0) counts log ∧ ¬ Detected log := by
  let p : (Fault → Nat) → List Sample → Bool := fun _ log =>
    log == List.replicate 10 ⟨⟨0, 3600, 2700⟩, []⟩ ++ [⟨⟨0, 3600, 2700⟩, [.overCurrent]⟩]
  have hrun : (Trace.exec monitorStep (fun _ _ _ => true) (fun _ => 0) []
      (List.replicate 11 (Second.quiet ⟨0, 3600, 2700⟩))).any (fun r => p r.1 r.2) = true := by
    decide +kernel
  obtain ⟨counts, log, h, hp⟩ := Trace.exists_reach_of_exec (p := p) hrun
  obtain rfl := beq_iff_eq.mp hp
  refine ⟨counts, _, h.always, fun hdet => ?_⟩
  have hdue : Due .overVoltage
      (List.replicate 10 ⟨⟨0, 3600, 2700⟩, []⟩ ++ [⟨⟨0, 3600, 2700⟩, [.overCurrent]⟩]) := by
    unfold Due
    decide
  exact absurd ((hdet _ _ [] rfl .overVoltage).mpr hdue) (by decide)

end ChargePoint
