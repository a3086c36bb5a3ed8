import ChargePoint.Lib.Rounding
import ChargePoint.Lib.Trace
import ChargePoint.Secc.Crc16
import Mathlib.Tactic.Positivity

/-!
# The watt-hour meter

`ValueMonitoringTask` polls the meter and `RS485ReadTask` collects what comes back. What is
written to the line is the same on every poll, and only what is read matters here.

The values are taken through a `float` and a `double` on their way to an integer. `amiCurrent`
and `gcurrentOf` do their operations exactly and round each result to its format.
-/

set_option autoImplicit false

namespace ChargePoint

namespace Ami

open Rounding

def mbrqSz : Nat := 21

/-- `MBRF_SZ`: the registers, with the head and the check sum. -/
def mbrfSz : Nat := mbrqSz * 2 + 5

def mbCurrentAddr : Nat := 29
def mbVoltageAddr : Nat := 27
def mbAccpwrAddr : Nat := 3

def readQueueSize : Nat := 64

/-- The registers of a response that are used. -/
structure Reading where
  positiveActiveEnergy : UInt32
  /-- in 0.01 A -/
  current : UInt16
  /-- in 0.1 V -/
  volt : UInt16
  deriving DecidableEq, Repr

/-- How a poll ends. -/
inductive Poll
  | success (r : Reading)
  | wrongSize (size : Nat)
  | wrongCrc
  deriving DecidableEq, Repr

/-- `AMIDATA` and the variables around it. -/
structure State where
  sRs485Errors : Nat
  /-- what `sWhmReadQueue` holds -/
  sWhmReadQueue : List UInt8
  bAmiErrChk : Bool
  ipositiveActiveEnergy : UInt32
  gcurrent : UInt16
  gvolt : UInt16
  bootingSet : Bool
  /-- `shmDataAppInfo.eqp_watt` -/
  eqpWatt : UInt32

/-! ## Values -/

/-- `((float)raw) / 100.`, kept in a `float`. -/
def amiCurrent (raw : UInt16) : ℚ := roundTo 24 (roundTo 53 (raw.toNat / 100))

/-- `(uint16_t)(current * 100.0)`. -/
def gcurrentOf (raw : UInt16) : UInt16 := .ofNat ⌊roundTo 53 (amiCurrent raw * 100)⌋₊

/-- `gvolt = volt * 10`. -/
def gvoltOf (raw : UInt16) : UInt16 := raw * 10

/-- A register of 16 bits. -/
def word (responsex : List UInt8) (i : Nat) : UInt16 :=
  (responsex.getD i 0).toUInt16 * 0x100 + (responsex.getD (i + 1) 0).toUInt16

/-- The registers, from a response. -/
def readingOf (responsex : List UInt8) : Reading where
  positiveActiveEnergy := (word responsex mbAccpwrAddr).toUInt32 * 0x10000 +
    (word responsex (mbAccpwrAddr + 2)).toUInt32
  current := word responsex mbCurrentAddr
  volt := word responsex mbVoltageAddr

/-- `crc16`: the loop of `TsctCrc16`, over the same tables. -/
def crc16 (bs : List UInt8) : UInt16 := tsctCrc16 bs

theorem amiCurrent_nonneg (raw : UInt16) : 0 ≤ amiCurrent raw :=
  roundTo_nonneg (by decide) (roundTo_nonneg (by decide) (by positivity))

/-- The current is no smaller for a larger register. -/
theorem amiCurrent_mono {raw raw' : UInt16} (h : raw ≤ raw') : amiCurrent raw ≤ amiCurrent raw' := by
  have hraw : (raw.toNat : ℚ) / 100 ≤ raw'.toNat / 100 :=
    div_le_div_of_nonneg_right (by exact_mod_cast h) (by norm_num)
  exact roundTo_mono (by decide) (roundTo_nonneg (by decide) (by positivity))
    (roundTo_mono (by decide) (by positivity) hraw)

theorem floor_mono {raw raw' : UInt16} (h : raw ≤ raw') :
    ⌊roundTo 53 (amiCurrent raw * 100)⌋₊ ≤ ⌊roundTo 53 (amiCurrent raw' * 100)⌋₊ := by
  apply Nat.floor_le_floor
  apply roundTo_mono (by decide)
  · exact mul_nonneg (amiCurrent_nonneg raw) (by norm_num)
  · exact mul_le_mul_of_nonneg_right (amiCurrent_mono h) (by norm_num)

/-- The conversion to an `uint16_t` is one of a number it holds. -/
theorem gcurrentOf_toNat (raw : UInt16) :
    (gcurrentOf raw).toNat = ⌊roundTo 53 (amiCurrent raw * 100)⌋₊ := by
  have hmax : ⌊roundTo 53 (amiCurrent 65535 * 100)⌋₊ < 65536 := by decide +kernel
  have hle : raw ≤ 65535 := by
    have := raw.toNat_lt
    exact UInt16.le_iff_toNat_le.mpr (by
      show raw.toNat ≤ 65535
      omega)
  rw [gcurrentOf, UInt16.toNat_ofNat']
  exact Nat.mod_eq_of_lt (lt_of_le_of_lt (floor_mono hle) hmax)

theorem gcurrentOf_mono {raw raw' : UInt16} (h : raw ≤ raw') : gcurrentOf raw ≤ gcurrentOf raw' := by
  rw [UInt16.le_iff_toNat_le, gcurrentOf_toNat, gcurrentOf_toNat]
  exact floor_mono h

/-- 35.01 A comes out as 35.00 A. -/
theorem gcurrentOf_3501 : gcurrentOf 3501 = 3500 := by decide +kernel

/-! ## The tasks -/

/-- `ReadQueueEnqueue`: one place of the ring stays free, and what does not fit is lost. -/
def readQueueEnqueue (q : List UInt8) (c : UInt8) : List UInt8 :=
  if q.length + 1 = readQueueSize then q else q ++ [c]

variable (a : State)

/-- What a response of the right length and check sum does. -/
def State.store (r : Reading) : State :=
  { a with
    ipositiveActiveEnergy := r.positiveActiveEnergy
    gcurrent := gcurrentOf r.current
    gvolt := gvoltOf r.volt
    eqpWatt := if a.bootingSet then a.eqpWatt else r.positiveActiveEnergy
    bootingSet := true }

/-- **`RequestValueNew`.** The counter is cleared before the check sum is looked at. A response
of another length leaves it as it is: the line that counts it is commented out. -/
def State.requestValueNew : State × Poll :=
  let responsex := a.sWhmReadQueue.take 200
  let a := { a with sWhmReadQueue := a.sWhmReadQueue.drop 200 }
  if responsex.length = mbrfSz then
    let a := { a with sRs485Errors := 0 }
    if crc16 (responsex.take (mbrfSz - 2)) = word responsex (mbrfSz - 2) then
      (a.store (readingOf responsex), .success (readingOf responsex))
    else ({ a with sRs485Errors := a.sRs485Errors + 1 }, .wrongCrc)
  else (a, .wrongSize responsex.length)

/-- An iteration of `ValueMonitoringTask`. -/
def State.valueMonitoring (bGloAdminStatus : Bool) : State × Poll :=
  let r := a.requestValueNew
  ({ r.1 with bAmiErrChk := !(decide (r.1.sRs485Errors < 10) || bGloAdminStatus) }, r.2)

/-- The head of `ValueMonitoringTask`. -/
def State.startMonitoring : State := { a with sRs485Errors := 10 }

inductive Event
  /-- an iteration of `RS485ReadTask` -/
  | received (buffer : List UInt8)
  | poll (bGloAdminStatus : Bool)

/-- One step, with the polls observed. -/
def step (a : State) : Event → Option (State × List Poll)
  | .received buffer =>
    some ({ a with sWhmReadQueue := buffer.foldl readQueueEnqueue a.sWhmReadQueue }, [])
  | .poll admin => some ((a.valueMonitoring admin).1, [(a.valueMonitoring admin).2])

/-- A run of the tasks outside admin mode. -/
abbrev Run (a : State) : State → List Poll → Prop :=
  Trace.Reach step (fun _ _ e => e ≠ .poll true) a.startMonitoring

/-! ## The failure flag -/

/-- A response of the right length. -/
def Poll.Complete : Poll → Prop
  | .wrongSize _ => False
  | .success _ | .wrongCrc => True

instance (p : Poll) : Decidable p.Complete := by
  cases p <;> unfold Poll.Complete <;> infer_instance

def Poll.Failed : Poll → Prop
  | .success _ => False
  | .wrongSize _ | .wrongCrc => True

/-- The last ten polls, or more, have failed. -/
def TenFailed (polls : List Poll) : Prop :=
  ∃ before failed, polls = before ++ failed ∧ 10 ≤ failed.length ∧ ∀ p ∈ failed, p.Failed

/-- The flag is up when the meter has failed ten times, and down when it has answered. -/
def Detects (bAmiErrChk : Bool) (polls : List Poll) : Prop :=
  (TenFailed polls → bAmiErrChk = true) ∧
    (∀ before r, polls = before ++ [.success r] → bAmiErrChk = false)

/-- The counter and the flag, by the polls. -/
structure ErrorsInv (a : State) (polls : List Poll) : Prop where
  untouched : (∀ p ∈ polls, ¬ p.Complete) → a.sRs485Errors = 10
  cleared : (∃ p ∈ polls, p.Complete) → a.sRs485Errors ≤ 1
  flag : polls ≠ [] → a.bAmiErrChk = decide (10 ≤ a.sRs485Errors)

section Polls
variable {a a' : State} {polls : List Poll} {e : Event} {p : Poll}

/-- **What a poll does to the counter.** -/
theorem requestValueNew_errors (a : State) :
    a.requestValueNew.1.sRs485Errors =
      match a.requestValueNew.2 with
      | .success _ => 0
      | .wrongCrc => 1
      | .wrongSize _ => a.sRs485Errors := by
  unfold State.requestValueNew
  dsimp only
  split
  · split <;> rfl
  · rfl

theorem valueMonitoring_flag (a : State) : (a.valueMonitoring false).1.bAmiErrChk =
    decide (10 ≤ a.requestValueNew.1.sRs485Errors) := by
  simp only [State.valueMonitoring, Bool.or_false]
  rw [← decide_not]
  exact decide_eq_decide.mpr Nat.not_lt

theorem ErrorsInv.poll (h : ErrorsInv a polls) :
    ErrorsInv (a.valueMonitoring false).1 (polls ++ [(a.valueMonitoring false).2]) := by
  have herr := requestValueNew_errors a
  have hlast : ∀ p, p ∈ polls ++ [(a.valueMonitoring false).2] ↔
      p ∈ polls ∨ p = a.requestValueNew.2 := by
    intro p
    rw [List.mem_append, List.mem_singleton]
    rfl
  refine ⟨?_, ?_, fun _ => valueMonitoring_flag a⟩
  · intro hno
    have hp : ¬ a.requestValueNew.2.Complete := hno _ ((hlast _).mpr (.inr rfl))
    cases hpoll : a.requestValueNew.2 with
    | success r | wrongCrc =>
      rw [hpoll] at hp
      exact absurd trivial hp
    | wrongSize n =>
      rw [hpoll] at herr
      exact herr.trans (h.untouched fun p hmem => hno p ((hlast p).mpr (.inl hmem)))
  · rintro ⟨p, hmem, hp⟩
    cases hpoll : a.requestValueNew.2 with
    | success r =>
      rw [hpoll] at herr
      exact herr.le.trans (Nat.zero_le 1)
    | wrongCrc =>
      rw [hpoll] at herr
      exact herr.le
    | wrongSize n =>
      rw [hpoll] at herr
      rcases (hlast p).mp hmem with hold | rfl
      · exact herr.le.trans (h.cleared ⟨p, hold, hp⟩)
      · rw [hpoll] at hp
        exact absurd hp id

/-- **Every run.** -/
theorem Run.errorsInv (h : Run a a' polls) : ErrorsInv a' polls := by
  refine h.invariant ⟨fun _ => rfl, ?_, fun hne => absurd rfl hne⟩ ?_
  · rintro ⟨p, hmem, -⟩
    exact absurd hmem List.not_mem_nil
  · intro a polls e a' o hinv hok hstep
    cases e with
    | received buffer =>
      obtain ⟨rfl, rfl⟩ := Prod.mk.inj (Option.some.inj hstep)
      rw [List.append_nil]
      exact ⟨hinv.untouched, hinv.cleared, hinv.flag⟩
    | poll admin =>
      obtain ⟨rfl, rfl⟩ := Prod.mk.inj (Option.some.inj hstep)
      cases admin with
      | true => exact absurd rfl hok
      | false => exact hinv.poll

/-- Once a response had the right length the flag stays down. -/
theorem Run.flag_iff (h : Run a a' polls) (hne : polls ≠ []) :
    a'.bAmiErrChk = true ↔ ∀ p ∈ polls, ¬ p.Complete := by
  have hinv := h.errorsInv
  rw [hinv.flag hne, decide_eq_true_eq]
  constructor
  · intro herr p hmem hp
    have := hinv.cleared ⟨p, hmem, hp⟩
    omega
  · intro hno
    exact (hinv.untouched hno).ge

theorem TenFailed.ne_nil (h : TenFailed polls) : polls ≠ [] := by
  rintro rfl
  obtain ⟨before, failed, heq, hlen, -⟩ := h
  have hnil := (List.append_eq_nil_iff.mp heq.symm).2
  simp [hnil] at hlen

/-- **The flag tells of a failed meter exactly as long as no response had the right length.** -/
theorem detects_iff (h : Run a a' polls) :
    Detects a'.bAmiErrChk polls ↔ (TenFailed polls → ∀ p ∈ polls, ¬ p.Complete) := by
  constructor
  · intro hdet hten
    exact (h.flag_iff hten.ne_nil).mp (hdet.1 hten)
  · intro hno
    constructor
    · intro hten
      exact (h.flag_iff hten.ne_nil).mpr (hno hten)
    · rintro before r rfl
      have hne : before ++ [Poll.success r] ≠ [] := by simp
      have hflag := h.flag_iff hne
      rw [← Bool.not_eq_true, hflag]
      exact fun hall => hall (.success r) (List.mem_append_right _ List.mem_cons_self) trivial

end Polls

/-! ## Two runs -/

/-- The state the variables are in when the program starts. -/
def State.init : State where
  sRs485Errors := 0
  sWhmReadQueue := []
  bAmiErrChk := true
  ipositiveActiveEnergy := 0
  gcurrent := 0
  gvolt := 0
  bootingSet := false
  eqpWatt := 0

/-- 220.0 V, 10.00 A. -/
def goodResponse : List UInt8 :=
  [1, 3, 42, 0, 0, 0x12, 0x34] ++ List.replicate 20 0 ++ [0x08, 0x98, 0x03, 0xE8] ++
    List.replicate 14 0 ++ [0xfa, 0xbc]

/-- The meter does not answer ten times, and then it does. -/
theorem detects_late_answer :
    ∃ a polls, Run .init a polls ∧ (∃ before r, polls = before ++ [.success r]) ∧
      (Detects a.bAmiErrChk polls ↔ (TenFailed polls → ∀ p ∈ polls, ¬ p.Complete)) := by
  let p : State → List Poll → Bool := fun _ polls =>
    polls == List.replicate 10 (.wrongSize 0) ++ [.success (readingOf goodResponse)]
  have hrun : (Trace.exec step (fun _ _ e => match e with | .poll b => !b | _ => true)
      State.init.startMonitoring []
      (List.replicate 10 (.poll false) ++ [.received goodResponse, .poll false])).any
      (fun r => p r.1 r.2) = true := by decide +kernel
  obtain ⟨a, polls, h, hp⟩ := Trace.exists_reach_of_exec (p := p) hrun
  have hok : Run .init a polls := h.weaken fun _ _ e he hadmin => by simp [hadmin] at he
  exact ⟨a, polls, hok, ⟨_, _, beq_iff_eq.mp hp⟩, detects_iff hok⟩

/-- The meter answers once and then never again: the flag stays down. -/
theorem failure_unnoticed : ∃ a polls, Run .init a polls ∧ ¬ Detects a.bAmiErrChk polls := by
  let p : State → List Poll → Bool := fun a polls => !a.bAmiErrChk &&
    polls == .success (readingOf goodResponse) :: List.replicate 10 (.wrongSize 0)
  have hrun : (Trace.exec step (fun _ _ e => match e with | .poll b => !b | _ => true)
      State.init.startMonitoring []
      ([.received goodResponse, .poll false] ++ List.replicate 10 (.poll false))).any
      (fun r => p r.1 r.2) = true := by decide +kernel
  obtain ⟨a, polls, h, hp⟩ := Trace.exists_reach_of_exec (p := p) hrun
  simp only [p, Bool.and_eq_true, Bool.not_eq_true', beq_iff_eq] at hp
  obtain ⟨hflag, rfl⟩ := hp
  refine ⟨a, _, h.weaken fun _ _ e he hadmin => by simp [hadmin] at he, fun hdet => ?_⟩
  have hten : TenFailed (.success (readingOf goodResponse) :: List.replicate 10 (.wrongSize 0)) :=
    ⟨[.success (readingOf goodResponse)], List.replicate 10 (.wrongSize 0), rfl, by simp,
      fun p hmem => by rw [List.eq_of_mem_replicate hmem]; trivial⟩
  exact absurd (hdet.1 hten) (by simp [hflag])

end Ami
end ChargePoint
