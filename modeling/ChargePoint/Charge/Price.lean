import ChargePoint.Lib.Rounding

/-!
# The energy of a session and its price

The meter's readings are 32-bit counters. The listener passes each through a `float`, which has 24
digits, and keeps the first and the last; the monitor subtracts them and multiplies by the unit price,
all in 32 bits. So the energy is right if both readings lose the same on the way, and the price if the
product fits (`charge_price_iff`).
-/

set_option autoImplicit false

namespace ChargePoint

open Rounding

/-! ## The code

The first reading of a session is kept as the start and the last one beside it; -1 stands for
none. The difference and the product are unsigned and have 32 bits. -/

/-- `gAmiStartWatt` and `gAmiChargeWatt`. -/
structure AmiWatts where
  gAmiStartWatt : UInt32
  gAmiChargeWatt : UInt32
  deriving DecidableEq

/-- `ChargeOnEnter` sets both to -1. -/
def AmiWatts.chargeOnEnter : AmiWatts := ⟨-1, -1⟩

/-- A `float` becomes a `uint32_t`: what is behind the point is dropped, and a number that does not
fit is undefined. -/
def uint32OfFloat (x : ℚ) : Option UInt32 :=
  if 0 ≤ x ∧ x < 2 ^ 32 then some (.ofNat ⌊x⌋₊) else none

/-- **`WHMListenerOnCharge`**, as far as the energy goes. -/
def AmiWatts.listen (s : AmiWatts) (energy : UInt32) : Option AmiWatts :=
  (uint32OfFloat (roundTo 24 energy.toNat)).map fun e =>
    if s.gAmiStartWatt = -1 then ⟨e, e⟩ else { s with gAmiChargeWatt := e }

/-- What **`sChargeMonitoringTaskFuntion`** makes of them: `charge_watt`, which is unsigned and never
below zero, and `charge_price`. The unit price is converted to unsigned for the product. -/
def AmiWatts.chargeWatt (s : AmiWatts) : UInt32 := s.gAmiChargeWatt - s.gAmiStartWatt

def AmiWatts.chargePrice (s : AmiWatts) (iUnitprice : Int32) : Int32 :=
  (s.chargeWatt * iUnitprice.toUInt32 / 100).toInt32

/-- The energy is what was read, and the price is that of the energy, unless it is no `int`. -/
def AmiWatts.Right (s : AmiWatts) (first last : UInt32) (iUnitprice : Int32) : Prop :=
  s.chargeWatt.toNat = last.toNat - first.toNat ∧
    (s.chargeWatt.toNat * iUnitprice.toNatClampNeg / 100 < 2 ^ 31 →
      (s.chargePrice iUnitprice).toInt =
        (s.chargeWatt.toNat * iUnitprice.toNatClampNeg / 100 : Nat))

/-- **The session is charged for what was read.** -/
def ChargedRight (first : UInt32) (rest : List UInt32) (iUnitprice : Int32) : Prop :=
  ∃ s, (first :: rest).foldlM AmiWatts.listen .chargeOnEnter = some s ∧
    s.Right first (rest.getLastD first) iUnitprice

/-! ## The conversion -/

/-- From this reading on it is rounded to `2 ^ 32`, or above. -/
def floatLimit : Nat := 2 ^ 32 - 128

/-- What is kept of a reading. -/
def keptWatt (energy : UInt32) : ℕ := ⌊roundTo 24 energy.toNat⌋₊

theorem roundTo_reading (energy : UInt32) : roundTo 24 energy.toNat = keptWatt energy := by
  obtain ⟨m, hm⟩ := roundTo_natCast 24 energy.toNat
  unfold keptWatt
  rw [hm, Nat.floor_natCast]

theorem keptWatt_mono {r r' : UInt32} (h : r ≤ r') : keptWatt r ≤ keptWatt r' := by
  have hcast : (r.toNat : ℚ) ≤ r'.toNat := by exact_mod_cast UInt32.le_iff_toNat_le.mp h
  have hround := roundTo_mono (p := 24) (by decide) (Nat.cast_nonneg _) hcast
  rw [roundTo_reading, roundTo_reading] at hround
  exact_mod_cast hround

/-- What is kept of a reading below the limit, which is never -1. -/
theorem keptWatt_le {energy : UInt32} (h : energy.toNat < floatLimit) :
    keptWatt energy ≤ 2 ^ 32 - 256 := by
  have hlast : keptWatt (UInt32.ofNat (2 ^ 32 - 129)) = 2 ^ 32 - 256 := by decide +kernel
  rw [← hlast]
  apply keptWatt_mono
  rw [UInt32.le_iff_toNat_le]
  exact Nat.le_of_lt_succ h

theorem uint32OfFloat_reading {energy : UInt32} (h : energy.toNat < floatLimit) :
    uint32OfFloat (roundTo 24 energy.toNat) = some (.ofNat (keptWatt energy)) := by
  have hle := keptWatt_le h
  have hlt : keptWatt energy < 2 ^ 32 := by omega
  unfold uint32OfFloat
  rw [roundTo_reading, if_pos ⟨Nat.cast_nonneg _, by exact_mod_cast hlt⟩, Nat.floor_natCast]

/-- From the limit on the conversion is undefined. -/
theorem uint32OfFloat_over {energy : UInt32} (h : floatLimit ≤ energy.toNat) :
    uint32OfFloat (roundTo 24 energy.toNat) = none := by
  have hfirst : keptWatt (UInt32.ofNat floatLimit) = 2 ^ 32 := by decide +kernel
  have hmono : keptWatt (UInt32.ofNat floatLimit) ≤ keptWatt energy := by
    apply keptWatt_mono
    rw [UInt32.le_iff_toNat_le]
    exact h
  rw [hfirst] at hmono
  unfold uint32OfFloat
  rw [roundTo_reading]
  refine if_neg ?_
  intro hfits
  have hlt : keptWatt energy < 2 ^ 32 := by exact_mod_cast hfits.2
  omega

theorem ofNat_toNat {m : ℕ} (h : m ≤ 2 ^ 32 - 256) : (UInt32.ofNat m).toNat = m :=
  UInt32.toNat_ofNat_of_lt' (show m < 2 ^ 32 by omega)

theorem ofNat_ne_neg_one {m : ℕ} (h : m ≤ 2 ^ 32 - 256) : UInt32.ofNat m ≠ -1 := by
  intro heq
  have hval := congrArg UInt32.toNat heq
  rw [ofNat_toNat h] at hval
  have hmax : (-1 : UInt32).toNat = 2 ^ 32 - 1 := by decide
  omega

/-! ## The listener

By induction over the readings behind the first: the start stays, and the last one is kept. One
reading over the limit, wherever it is, leaves nothing that is defined. -/

section Readings
variable {first : UInt32} {rest : List UInt32}

/-- The readings come in order, so that the last one is the greatest. -/
theorem le_last (h : (first :: rest).Pairwise (· ≤ ·)) :
    ∀ r ∈ first :: rest, r ≤ rest.getLastD first := by
  induction rest generalizing first with
  | nil =>
    intro r hr
    rw [List.mem_singleton.mp hr]
    exact UInt32.le_refl _
  | cons next rest ih =>
    intro r hr
    have hnext := ih h.tail
    rw [List.getLastD_cons]
    cases List.mem_cons.mp hr with
    | inl heq =>
      rw [heq]
      have hle := (List.pairwise_cons.mp h).1 next List.mem_cons_self
      exact UInt32.le_trans hle (hnext next List.mem_cons_self)
    | inr hmem => exact hnext r hmem

/-- The first reading stays, and the last one is kept beside it. -/
theorem listen_rest {start : ℕ} (hstart : start ≤ 2 ^ 32 - 256)
    (hrest : ∀ r ∈ rest, r.toNat < floatLimit) :
    rest.foldlM AmiWatts.listen ⟨.ofNat start, .ofNat (keptWatt first)⟩ =
      some ⟨.ofNat start, .ofNat (keptWatt (rest.getLastD first))⟩ := by
  induction rest generalizing first with
  | nil => rfl
  | cons next rest ih =>
    have hnext : AmiWatts.listen ⟨.ofNat start, .ofNat (keptWatt first)⟩ next =
        some ⟨.ofNat start, .ofNat (keptWatt next)⟩ := by
      unfold AmiWatts.listen
      rw [uint32OfFloat_reading (hrest next List.mem_cons_self), Option.map_some,
        if_neg (ofNat_ne_neg_one hstart)]
    rw [List.foldlM_cons, hnext, List.getLastD_cons]
    exact ih fun r hr => hrest r (List.mem_cons_of_mem _ hr)

/-- **The readings of a session**, all below the limit. -/
theorem listen_readings (h : ∀ r ∈ first :: rest, r.toNat < floatLimit) :
    (first :: rest).foldlM AmiWatts.listen .chargeOnEnter =
      some ⟨.ofNat (keptWatt first), .ofNat (keptWatt (rest.getLastD first))⟩ := by
  have hfirst := h first List.mem_cons_self
  have henter : AmiWatts.chargeOnEnter.listen first =
      some ⟨.ofNat (keptWatt first), .ofNat (keptWatt first)⟩ := by
    unfold AmiWatts.listen
    rw [uint32OfFloat_reading hfirst, Option.map_some,
      if_pos (show AmiWatts.chargeOnEnter.gAmiStartWatt = -1 from rfl)]
  rw [List.foldlM_cons, henter]
  exact listen_rest (keptWatt_le hfirst) fun r hr => h r (List.mem_cons_of_mem _ hr)

/-- One reading over the limit is enough. -/
theorem listen_over {readings : List UInt32} {r : UInt32} (hr : r ∈ readings)
    (hover : floatLimit ≤ r.toNat) (s : AmiWatts) : readings.foldlM AmiWatts.listen s = none := by
  induction readings generalizing s with
  | nil => cases hr
  | cons next readings ih =>
    rw [List.foldlM_cons]
    cases List.mem_cons.mp hr with
    | inl heq =>
      have hnone : s.listen next = none := by
        unfold AmiWatts.listen
        rw [← heq, uint32OfFloat_over hover]
        rfl
      rw [hnone]
      rfl
    | inr hmem =>
      cases s.listen next with
      | none => rfl
      | some s' => exact ih hmem s'

/-! ## The price

The product is taken modulo `2 ^ 32` and divided by 100 after that. A price that is no `int` is
not asked for, so the product may also be so large that not even its hundredth fits. -/

/-- The product is taken modulo `2 ^ 32`. The quotient is right if there is nothing to take off. -/
theorem chargePrice_iff (s : AmiWatts) {iUnitprice : Int32} (hprice : 0 ≤ iUnitprice) :
    (s.chargeWatt.toNat * iUnitprice.toNatClampNeg / 100 < 2 ^ 31 →
      (s.chargePrice iUnitprice).toInt =
        (s.chargeWatt.toNat * iUnitprice.toNatClampNeg / 100 : Nat)) ↔
    s.chargeWatt.toNat * iUnitprice.toNatClampNeg < 2 ^ 32 ∨
      2 ^ 31 ≤ s.chargeWatt.toNat * iUnitprice.toNatClampNeg / 100 := by
  have hcode : (s.chargePrice iUnitprice).toInt =
      (s.chargeWatt.toNat * iUnitprice.toNatClampNeg % 2 ^ 32 / 100 : Nat) := by
    unfold AmiWatts.chargePrice
    have hval : (s.chargeWatt * iUnitprice.toUInt32 / 100).toNat =
        s.chargeWatt.toNat * iUnitprice.toNatClampNeg % 2 ^ 32 / 100 := by
      rw [UInt32.toNat_div, UInt32.toNat_mul, Int32.toNat_toUInt32_of_le hprice]
      rfl
    have hsmall : (s.chargeWatt * iUnitprice.toUInt32 / 100).toNat < 2 ^ 31 := by
      rw [hval]
      omega
    rw [← UInt32.ofNat_toNat (x := s.chargeWatt * iUnitprice.toUInt32 / 100), UInt32.toInt32_ofNat',
      Int32.toInt_ofNat_of_lt hsmall, hval]
  rw [hcode]
  omega

/-- **The session is charged for what was read** exactly if the last reading can be converted, both
readings lose the same in it, and the product fits, or not even the price would. -/
theorem charge_price_iff {iUnitprice : Int32} (hmono : (first :: rest).Pairwise (· ≤ ·))
    (hprice : 0 ≤ iUnitprice) :
    ChargedRight first rest iUnitprice ↔
      (rest.getLastD first).toNat < 2 ^ 32 - 128 ∧
      roundTo 24 (rest.getLastD first).toNat - roundTo 24 first.toNat =
        (rest.getLastD first).toNat - first.toNat ∧
      (((rest.getLastD first).toNat - first.toNat) * iUnitprice.toNatClampNeg < 2 ^ 32 ∨
        2 ^ 31 ≤ ((rest.getLastD first).toNat - first.toNat) * iUnitprice.toNatClampNeg / 100) := by
  have hle := le_last hmono
  have hlast : rest.getLastD first ∈ first :: rest := List.getLastD_mem_cons ..
  by_cases hover : floatLimit ≤ (rest.getLastD first).toNat
  · constructor
    · intro h
      obtain ⟨s, hrun, -⟩ := h
      rw [listen_over hlast hover] at hrun
      cases hrun
    · intro h
      exact absurd h.1 (Nat.not_lt.mpr hover)
  · have hlimit := Nat.not_le.mp hover
    have hall : ∀ r ∈ first :: rest, r.toNat < floatLimit := fun r hr =>
      Nat.lt_of_le_of_lt (UInt32.le_iff_toNat_le.mp (hle r hr)) hlimit
    have hfirst := hall first List.mem_cons_self
    have horder := hle first List.mem_cons_self
    have hkept := keptWatt_mono horder
    have hrun := listen_readings hall
    -- the subtraction does not wrap around
    have hwatt : (UInt32.ofNat (keptWatt (rest.getLastD first)) -
        UInt32.ofNat (keptWatt first)).toNat = keptWatt (rest.getLastD first) - keptWatt first := by
      rw [UInt32.toNat_sub_of_le, ofNat_toNat (keptWatt_le hlimit), ofNat_toNat (keptWatt_le hfirst)]
      rw [UInt32.le_iff_toNat_le, ofNat_toNat (keptWatt_le hlimit), ofNat_toNat (keptWatt_le hfirst)]
      exact hkept
    have hsame : roundTo 24 (rest.getLastD first).toNat - roundTo 24 first.toNat =
          ((rest.getLastD first).toNat : ℚ) - first.toNat ↔
        keptWatt (rest.getLastD first) - keptWatt first =
          (rest.getLastD first).toNat - first.toNat := by
      rw [roundTo_reading, roundTo_reading, ← Nat.cast_sub hkept,
        ← Nat.cast_sub (UInt32.le_iff_toNat_le.mp horder), Nat.cast_inj]
    have hval : (AmiWatts.mk (.ofNat (keptWatt first))
        (.ofNat (keptWatt (rest.getLastD first)))).chargeWatt.toNat =
          keptWatt (rest.getLastD first) - keptWatt first := hwatt
    rw [hsame]
    constructor
    · intro h
      obtain ⟨s, hs, hright⟩ := h
      obtain rfl := Option.some.inj (hrun.symm.trans hs)
      obtain ⟨hread, hpriced⟩ := hright
      rw [chargePrice_iff _ hprice, hread] at hpriced
      exact ⟨hlimit, hval.symm.trans hread, hpriced⟩
    · intro h
      obtain ⟨-, hread, hpriced⟩ := h
      refine ⟨_, hrun, hval.trans hread, ?_⟩
      rw [chargePrice_iff _ hprice, hval.trans hread]
      exact hpriced

end Readings

/-- From 12.34 to 15.00 kWh, at 300 won. -/
theorem charge_price_small : ChargedRight 1234 [1300, 1500] 30000 :=
  (charge_price_iff (by decide) (by decide)).mpr ⟨by decide, by decide +kernel, .inl (by decide)⟩

/-- A first reading of 25 digits loses its last one, and the second one does not. And 1500 kWh at
300 won are more than `2 ^ 32` before the division. -/
theorem charged_wrong : ¬ ChargedRight 16777217 [16777218] 30000 ∧
    ¬ ChargedRight 0 [150000] 30000 := by
  constructor
  · intro h
    obtain ⟨s, hs, hread, -⟩ := h
    have hrun : [16777217, 16777218].foldlM AmiWatts.listen .chargeOnEnter =
        some ⟨16777216, 16777218⟩ := by decide +kernel
    obtain rfl := Option.some.inj (hrun.symm.trans hs)
    exact absurd hread (by decide)
  · intro h
    obtain ⟨s, hs, -, hpriced⟩ := h
    have hrun : [0, 150000].foldlM AmiWatts.listen .chargeOnEnter = some ⟨0, 150000⟩ := by
      decide +kernel
    obtain rfl := Option.some.inj (hrun.symm.trans hs)
    exact absurd (hpriced (by decide)) (by decide)

end ChargePoint
