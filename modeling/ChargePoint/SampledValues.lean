import ChargePoint.MeterSamples
import ChargePoint.Codec.Json

/-!
# The text of the meter queue

`sampledValue_Data` prints every queued entry into a string of its own, puts a comma behind it
unless it is the last one, and concatenates the strings. The run below follows it with an eye on
the memory: `strings` has four elements for a queue of five, and an entry's string is allocated
with room for the entry and its zero, *not for the comma*. So the second entry of a queue is
enough for a write behind an allocation, and the only queues whose text is as it should be are
the empty one and those of a single entry (`sampledValueData_appends`). A triggered sample has
no format; it ends the loop.
-/

set_option autoImplicit false

namespace ChargePoint

open CStr

/-! ## The run

The same loop as in `Cmd.Build`, with every access beside it that is not inside its object. A
fault is kept and the loop goes on, so that all faults of a run can be listed. -/

/-- What `sampledValue_Data` accesses outside its bounds. -/
inductive SampleFault
  /-- `strings[i]` -/
  | strings (i : Nat)
  /-- a byte behind the string allocated for entry `i` -/
  | entry (i : Nat)
  /-- a byte behind `constants[2048]` -/
  | constants
  /-- a byte behind `property_contants[1024]` -/
  | contants
  deriving DecidableEq

/-- The elements of `char *strings[] = {"", "", "", ""}`. -/
def stringsLen : Nat := 4

/-- `sizeof(constants)`. -/
def constantsSize : Nat := 2048

/-- `sizeof(property_contants)`. -/
def contantsSize : Nat := 1024

/-- What has been concatenated, and the faults so far. -/
structure SampledRun where
  constants : List Char
  faults : List SampleFault
  deriving DecidableEq

/-- The string of entry `i` of `count` when the comma has been put behind it. -/
def entryString (count i : Nat) (t : List Char) : List Char :=
  t ++ if i + 1 < count then [','] else []

/-- The faults of entry `i`, whose text is `t`. -/
def entryFaults (count i : Nat) (t constants : List Char) : List SampleFault :=
  -- `malloc(buffer_size)`, where `buffer_size` is `snprintf(NULL, 0, …) + 1`
  let bufferSize := t.length + 1
  let s := entryString count i t
  (if stringsLen ≤ i then [.strings i] else []) ++
    (if bufferSize < s.length + 1 then [.entry i] else []) ++
      if constantsSize < (constants ++ s).length + 1 then [.constants] else []

/-- The second loop of `sampledValue_Data`. -/
def sampledRunLoop (q : Nat → MeterVal) (count : Nat) : Nat → Nat → SampledRun → SampledRun
  | 0, _, r => r
  | k + 1, i, r =>
    match entryText (q i) with
    -- the `else` with the `break`
    | none => r
    | some t => sampledRunLoop q count k (i + 1)
        ⟨r.constants ++ entryString count i t, r.faults ++ entryFaults count i t r.constants⟩

/-- **`sampledValue_Data`**, on a payload that its caller has zeroed. -/
def sampledValueRun (q : Nat → MeterVal) : SampledRun :=
  let r := sampledRunLoop q (meterValCount q) (meterValCount q) 0 ⟨[], []⟩
  { r with faults := r.faults ++
      if contantsSize < r.constants.length + 1 then [.contants] else [] }

/-- The loop appends the text the frame is built from. -/
theorem sampledRunLoop_constants (q : Nat → MeterVal) (count k i : Nat) (r : SampledRun) :
    (sampledRunLoop q count k i r).constants = r.constants ++ sampledLoop q count k i := by
  induction k generalizing i r with
  | zero => exact (List.append_nil _).symm
  | succ k ih =>
    unfold sampledRunLoop sampledLoop
    cases entryText (q i) with
    | none => exact (List.append_nil _).symm
    | some t =>
      dsimp only
      rw [ih, List.append_assoc]
      rfl

/-- **The run prints what the frame carries.** -/
theorem sampledValueRun_constants (q : Nat → MeterVal) :
    (sampledValueRun q).constants = sampledValueData q :=
  sampledRunLoop_constants q _ _ 0 ⟨[], []⟩

/-- A fault stays. -/
theorem mem_faults_sampledRunLoop {q : Nat → MeterVal} {count k i : Nat} {r : SampledRun}
    {f : SampleFault} (h : f ∈ r.faults) : f ∈ (sampledRunLoop q count k i r).faults := by
  induction k generalizing i r with
  | zero => exact h
  | succ k ih =>
    unfold sampledRunLoop
    cases entryText (q i) with
    | none => exact h
    | some t => exact ih (List.mem_append_left _ h)

/-- Every entry with a text that is not the last one is written past its allocation. -/
theorem entry_mem_entryFaults {count i : Nat} (t constants : List Char) (h : i + 1 < count) :
    .entry i ∈ entryFaults count i t constants := by
  have hlen : t.length + 1 < (entryString count i t).length + 1 := by
    unfold entryString
    rw [if_pos h, List.length_append]
    simp
  unfold entryFaults
  dsimp only
  rw [if_pos hlen]
  simp

/-! ## Reachable queues

The length of a text depends on its numbers, which are those of the meter and of the clock. On
queues that `Add_MeterVal_Q` has made, with the members of a `struct tm` within an `int`, there
is a bound. -/

/-- The members of a `struct tm` that `GetDateTime` prints are `int`s. -/
def Tm.IsInt (tm : Tm) : Prop :=
  tm.tmYear + 1900 < 2 ^ 31 ∧ tm.tmMon + 1 < 2 ^ 31 ∧ tm.tmMday < 2 ^ 31 ∧
    tm.tmHour < 2 ^ 31 ∧ tm.tmMin < 2 ^ 31 ∧ tm.tmSec < 2 ^ 31

/-- The types a sample is added with. -/
def sampleTypes : List Nat := [meterValClockType, meterValTransType, meterValTrigType]

/-- The queues that `Add_MeterVal_Q` makes of an empty one. -/
inductive MeterReach : (Nat → MeterVal) → Prop
  | empty {q : Nat → MeterVal} (h : ∀ i < maxQnoMeterVal, (q i).meterValFlg = 0) : MeterReach q
  | add {c : Charger} (k : SampleClock) (ty : Nat) (h : MeterReach c.meterQ) (hk : k.tm.IsInt)
      (hty : ty ∈ sampleTypes) : MeterReach (addMeterValQ c k ty).meterQ

/-- What is known of a queued entry. -/
def EntryOk (v : MeterVal) : Prop :=
  v.meterValFlg ∈ sampleTypes ∧ ∃ tm : Tm, tm.IsInt ∧ v.timeStamp = getDateTime tm

theorem added_head (c : Charger) (k : SampleClock) (ty : Nat) :
    (added c k ty).meterValFlg = ty ∧ (added c k ty).timeStamp = getDateTime k.tm := by
  unfold added
  rcases Nat.lt_or_eq_of_le (qno_le c.meterQ) with hfree | hfull
  · rw [Nat.min_eq_left (Nat.le_sub_one_of_lt hfree), addMeterValQ_free hfree, if_pos rfl]
    exact ⟨rfl, rfl⟩
  · rw [hfull, Nat.min_eq_right (Nat.sub_le _ _), addMeterValQ_full hfull (by decide),
      if_neg (Nat.lt_irrefl _)]
    exact ⟨rfl, rfl⟩

theorem MeterReach.packed_ok {q : Nat → MeterVal} (h : MeterReach q) :
    Packed q ∧ ∀ v ∈ queued q, EntryOk v := by
  induction h with
  | empty h =>
    refine ⟨fun i _ hi => h i hi, fun v hv => ?_⟩
    obtain ⟨i, hi, -⟩ := mem_queued.mp hv
    exact absurd (h i (lt_of_lt_of_le hi (qno_le _))) (used_of_lt_qno hi)
  | @add c k ty _ hk hty ih =>
    obtain ⟨hp, hok⟩ := ih
    have hne : ty ≠ 0 := by
      intro h0
      rw [h0] at hty
      exact absurd hty (by decide)
    refine ⟨packed_add hp hne, fun v hv => ?_⟩
    rw [queued_add hp hne] at hv
    cases DropQueue.mem_of_mem_push hv with
    | inl hold => exact hok v hold
    | inr hnew =>
      obtain ⟨hflg, htime⟩ := added_head c k ty
      rw [hnew]
      refine ⟨?_, k.tm, hk, htime⟩
      rw [hflg]
      exact hty

/-! ## Meter values

What a text should be is said by the syntax of `Codec`: an object with the time and three
measured values. That the formats of the source print such objects is a computation. -/

theorem dec_plain {n : Nat} {c : Char} (h : c ∈ dec n) : c ≠ '"' ∧ c ≠ '\\' := by
  have hdigit := dec_isDigit h
  constructor
  · rintro rfl
    exact absurd hdigit (by decide)
  · rintro rfl
    exact absurd hdigit (by decide)

/-- A member without blanks. -/
def plainMember (name : Name) (v : Json .val) (rest : Json .members) : Json .members :=
  .member .none name .none v .none rest

/-- One measured value: `value`, `measurand`, `context` and `unit`. -/
def measuredObj (value : Nat) (measurand context unit : Str) : Json .obj :=
  .braces .none
    (plainMember ⟨"value".toList, by decide, by decide⟩
        (.str .none ⟨dec value, fun c hc => dec_plain hc⟩)
      (plainMember ⟨"measurand".toList, by decide, by decide⟩ (.str .none measurand)
        (plainMember ⟨"context".toList, by decide, by decide⟩ (.str .none context)
          (plainMember ⟨"unit".toList, by decide, by decide⟩ (.str .none unit) .noMember))))
    .none

/-- A meter value: the time, and the energy, the current and the voltage measured then. -/
def meterValueObj (timestamp context : Str) (energy current volt : Nat) : Json .obj :=
  .braces .none
    (plainMember ⟨"timestamp".toList, by decide, by decide⟩ (.str .none timestamp)
      (plainMember ⟨"sampledValue".toList, by decide, by decide⟩
        (.arr .none
          (.elem (measuredObj energy ⟨"Energy.Active.Import.Register".toList, by decide⟩ context
              ⟨"Wh".toList, by decide⟩) .none
            (.elem (measuredObj current ⟨"Current.Export".toList, by decide⟩ context
                ⟨"A".toList, by decide⟩) .none
              (.elem (measuredObj volt ⟨"Voltage".toList, by decide⟩ context
                ⟨"V".toList, by decide⟩) .none .noElem)))
          .none)
        .noMember))
    .none

/-- `t` is a meter value object that reports entry `v`. -/
def IsMeterValue (v : MeterVal) (t : List Char) : Prop :=
  ∃ timestamp context : Str, timestamp.chars = cstr v.timeStamp ∧
    t = (meterValueObj timestamp context (v.sampledVal * 10).toNat (v.current.toNat / 100)
      (v.volt.toNat / 10)).text

/-- The text of a measured value. -/
theorem measuredObj_text (value : Nat) (measurand context unit : Str) :
    (measuredObj value measurand context unit).text =
      "\x7b\"value\":\"".toList ++ dec value ++ "\",\"measurand\":\"".toList ++ measurand.chars ++
        "\",\"context\":\"".toList ++ context.chars ++ "\",\"unit\":\"".toList ++ unit.chars ++
        "\"\x7d".toList := by
  have hvalue : "\x7b\"value\":\"".toList =
      '{' :: '"' :: ("value".toList ++ ['"', ':', '"']) := by decide
  have hmeasurand : "\",\"measurand\":\"".toList =
      '"' :: ',' :: '"' :: ("measurand".toList ++ ['"', ':', '"']) := by decide
  have hcontext : "\",\"context\":\"".toList =
      '"' :: ',' :: '"' :: ("context".toList ++ ['"', ':', '"']) := by decide
  have hunit : "\",\"unit\":\"".toList =
      '"' :: ',' :: '"' :: ("unit".toList ++ ['"', ':', '"']) := by decide
  have hend : "\"\x7d".toList = ['"', '}'] := by decide
  rw [hvalue, hmeasurand, hcontext, hunit, hend]
  simp only [measuredObj, plainMember, Json.text, Json.isEnd, Blank.none, List.append_assoc,
    List.cons_append, List.nil_append, List.append_nil, if_true, Bool.false_eq_true, if_false]

/-- **The formats print meter values.** -/
theorem isMeterValue_sampleText {v : MeterVal} {context : List Char}
    (ht : ∀ c ∈ cstr v.timeStamp, c ≠ '"' ∧ c ≠ '\\') (hc : ∀ c ∈ context, c ≠ '"' ∧ c ≠ '\\') :
    IsMeterValue v (sampleText context v) := by
  refine ⟨⟨cstr v.timeStamp, ht⟩, ⟨context, hc⟩, rfl, ?_⟩
  have htime : "\x7b\"timestamp\":\"".toList =
      '{' :: '"' :: ("timestamp".toList ++ ['"', ':', '"']) := by decide
  have hsampled : "\",\"sampledValue\":[".toList =
      '"' :: ',' :: '"' :: ("sampledValue".toList ++ ['"', ':', '[']) := by decide
  have hend : "]\x7d".toList = [']', '}'] := by decide
  unfold sampleText meterValueObj
  dsimp only
  rw [htime, hsampled, hend]
  simp only [plainMember, Json.text, Json.isEnd, Blank.none, measuredObj_text, List.append_assoc,
    List.cons_append, List.nil_append, List.append_nil, if_true, Bool.false_eq_true, if_false]

theorem IsMeterValue.ne_nil {v : MeterVal} {t : List Char} (h : IsMeterValue v t) : t ≠ [] := by
  obtain ⟨timestamp, context, -, rfl⟩ := h
  exact List.cons_ne_nil _ _

/-! ## Lengths -/

theorem dec02_length_le {n : Nat} (h : n < 2 ^ 31) : (dec02 n).length ≤ 21 := by
  have hdec := dec_length_le (n := n) (by omega)
  unfold dec02
  split
  · exact Nat.succ_le_succ hdec
  · omega

theorem getDateTime_length_le {tm : Tm} (h : tm.IsInt) : (getDateTime tm).length ≤ 135 := by
  obtain ⟨hyear, hmon, hmday, hhour, hmin, hsec⟩ := h
  have hy := dec_length_le (n := tm.tmYear + 1900) (by omega)
  have hmo := dec02_length_le hmon
  have hd := dec02_length_le hmday
  have hh := dec02_length_le hhour
  have hm := dec02_length_le hmin
  have hs := dec02_length_le hsec
  have hz : ".000Z".toList.length = 5 := by decide
  unfold getDateTime
  simp only [List.length_append, List.length_cons, hz]
  omega

/-- The time a queued entry prints needs no escapes. -/
theorem getDateTime_plain (tm : Tm) {c : Char} (h : c ∈ getDateTime tm) :
    c ≠ '"' ∧ c ≠ '\\' := by
  have hdec02 : ∀ {n : Nat}, c ∈ dec02 n → c ≠ '"' ∧ c ≠ '\\' := by
    intro n hn
    unfold dec02 at hn
    split at hn
    · cases List.mem_cons.mp hn with
      | inl h0 => rw [h0]; decide
      | inr hn => exact dec_plain hn
    · exact dec_plain hn
  have hzone : ∀ c ∈ ".000Z".toList, c ≠ '"' ∧ c ≠ '\\' := by decide
  unfold getDateTime at h
  simp only [List.mem_append, List.mem_cons] at h
  rcases h with (((((h | rfl | h) | rfl | h) | rfl | h) | rfl | h) | rfl | h) | h
  · exact dec_plain h
  · decide
  · exact hdec02 h
  · decide
  · exact hdec02 h
  · decide
  · exact hdec02 h
  · decide
  · exact hdec02 h
  · decide
  · exact hdec02 h
  · exact hzone c h

/-- One entry fits into the payload. -/
theorem sampleText_length_lt {v : MeterVal} {context : List Char}
    (ht : v.timeStamp.length ≤ 135) (hc : context.length ≤ 15) :
    (sampleText context v).length + 1 ≤ contantsSize := by
  have htime : (cstr v.timeStamp).length ≤ 135 :=
    (List.takeWhile_sublist _).length_le.trans ht
  have he := dec_length_le (n := (v.sampledVal * 10).toNat)
    (lt_of_lt_of_le (UInt32.toNat_lt _) (by decide))
  have hi := dec_length_le (n := v.current.toNat / 100)
    (lt_of_le_of_lt (Nat.div_le_self _ _) (lt_of_lt_of_le (UInt16.toNat_lt _) (by decide)))
  have hu := dec_length_le (n := v.volt.toNat / 10)
    (lt_of_le_of_lt (Nat.div_le_self _ _) (lt_of_lt_of_le (UInt16.toNat_lt _) (by decide)))
  -- no literal of the formats is longer than 29
  have hlit : ∀ s ∈ ["\x7b\"timestamp\":\"", "\",\"sampledValue\":[", "\x7b\"value\":\"",
      "\",\"measurand\":\"", "\",\"context\":\"", "\",\"unit\":\"", "\"\x7d", "]\x7d",
      "Energy.Active.Import.Register", "Current.Export", "Voltage", "Wh", "A", "V"],
      String.length s ≤ 29 := by decide
  simp only [List.forall_mem_cons] at hlit
  obtain ⟨h₁, h₂, h₃, h₄, h₅, h₆, h₇, h₈, h₉, h₁₀, h₁₁, h₁₂, h₁₃, h₁₄, -⟩ := hlit
  unfold sampleText contantsSize
  simp only [List.length_append, List.length_cons, String.length_toList]
  omega

/-! ## What is appended -/

/-- No access is out of bounds, and what is appended is one meter value for every queued entry,
in the order of the queue, with a comma between any two. -/
def AppendsMeterValues (q : Nat → MeterVal) : Prop :=
  (sampledValueRun q).faults = [] ∧
    ∃ ts, List.Forall₂ IsMeterValue (queued q) ts ∧ (sampledValueRun q).constants = commas ts

theorem queued_cons {q : Nat → MeterVal} {v : MeterVal} {vs : List MeterVal}
    (h : queued q = v :: vs) : q 0 = v ∧ qno q = vs.length + 1 := by
  have hqno : qno q = vs.length + 1 := by
    rw [← queued_length, h, List.length_cons]
  unfold queued at h
  rw [hqno, List.range_succ_eq_map, List.map_cons] at h
  exact ⟨(List.cons.inj h).1, hqno⟩

/-- Of the three types, only the triggered one has no text. -/
theorem entryText_eq_none {v : MeterVal} (hok : EntryOk v) :
    entryText v = none ↔ v.meterValFlg = meterValTrigType := by
  have htypes := hok.1
  simp only [sampleTypes, List.mem_cons, List.not_mem_nil, or_false] at htypes
  unfold entryText
  rcases htypes with h | h | h
  · rw [if_pos h]
    refine ⟨fun hn => ?_, fun hn => absurd (h.symm.trans hn) (by decide)⟩
    cases hn
  · rw [if_neg (by rw [h]; decide), if_pos h]
    refine ⟨fun hn => ?_, fun hn => absurd (h.symm.trans hn) (by decide)⟩
    cases hn
  · rw [if_neg (by rw [h]; decide), if_neg (by rw [h]; decide)]
    exact ⟨fun _ => h, fun _ => rfl⟩

/-- A text is a meter value, and has room in the payload. -/
theorem entryText_spec {v : MeterVal} {t : List Char} (hok : EntryOk v)
    (h : entryText v = some t) : IsMeterValue v t ∧ t.length + 1 ≤ contantsSize := by
  obtain ⟨-, tm, htm, htime⟩ := hok
  have hlen : v.timeStamp.length ≤ 135 := by
    rw [htime]
    exact getDateTime_length_le htm
  have hplain : ∀ c ∈ cstr v.timeStamp, c ≠ '"' ∧ c ≠ '\\' := by
    intro c hc
    have hmem := (List.takeWhile_sublist _).subset hc
    rw [htime] at hmem
    exact getDateTime_plain tm hmem
  unfold entryText at h
  split at h
  · cases h
    exact ⟨isMeterValue_sampleText hplain (by decide), sampleText_length_lt hlen (by decide)⟩
  · split at h
    · cases h
      exact ⟨isMeterValue_sampleText hplain (by decide), sampleText_length_lt hlen (by decide)⟩
    · cases h

/-- Meter values of a queue that is not empty are not the empty text. -/
theorem commas_ne_nil {v : MeterVal} {vs : List MeterVal} {ts : List (List Char)}
    (h : List.Forall₂ IsMeterValue (v :: vs) ts) : commas ts ≠ [] := by
  cases h with
  | cons hhead _ =>
    intro hnil
    rw [commas_cons] at hnil
    exact hhead.ne_nil (List.append_eq_nil_iff.mp hnil).1

section Run
variable {q : Nat → MeterVal} {v : MeterVal} {vs : List MeterVal}

/-- A triggered sample at the front: nothing is appended. -/
theorem sampledValueRun_none (hp : Packed q) (hq : queued q = v :: vs)
    (ht : entryText v = none) : (sampledValueRun q).constants = [] := by
  obtain ⟨rfl, hn⟩ := queued_cons hq
  rw [sampledValueRun_constants, sampledValueData, meterValCount_eq hp, hn, sampledLoop, ht]

/-- Two entries: the comma behind the first is written past its allocation. -/
theorem sampledValueRun_second {w : MeterVal} {t : List Char} (hp : Packed q)
    (hq : queued q = v :: w :: vs) (ht : entryText v = some t) :
    .entry 0 ∈ (sampledValueRun q).faults := by
  obtain ⟨rfl, hn⟩ := queued_cons hq
  unfold sampledValueRun
  dsimp only
  rw [meterValCount_eq hp, hn, List.length_cons, sampledRunLoop, ht]
  refine List.mem_append_left _ (mem_faults_sampledRunLoop (List.mem_append_right _ ?_))
  exact entry_mem_entryFaults t [] (by omega)

/-- A single entry with a text: exactly that text, and no fault. -/
theorem sampledValueRun_single {t : List Char} (hp : Packed q) (hq : queued q = [v])
    (ht : entryText v = some t) (hlen : t.length + 1 ≤ contantsSize) :
    sampledValueRun q = ⟨t, []⟩ := by
  obtain ⟨rfl, hn⟩ := queued_cons hq
  have hstring : entryString 1 0 t = t := List.append_nil t
  have hfaults : entryFaults 1 0 t [] = [] := by
    have hconst : ¬ constantsSize < t.length + 1 := Nat.not_lt.mpr (hlen.trans (by decide))
    unfold entryFaults
    dsimp only
    rw [hstring, List.nil_append, if_neg hconst, if_neg (Nat.lt_irrefl _)]
    rfl
  have hloop : sampledRunLoop q 1 1 0 ⟨[], []⟩ = ⟨t, []⟩ := by
    rw [sampledRunLoop, ht]
    dsimp only
    rw [hstring, hfaults]
    rfl
  unfold sampledValueRun
  rw [meterValCount_eq hp, hn]
  dsimp only [List.length_nil, Nat.zero_add]
  rw [hloop]
  dsimp only
  rw [if_neg (Nat.not_lt.mpr hlen)]
  rfl

theorem sampledValueRun_empty (hp : Packed q) (hq : queued q = []) :
    sampledValueRun q = ⟨[], []⟩ := by
  have hn : qno q = 0 := by rw [← queued_length, hq, List.length_nil]
  unfold sampledValueRun
  rw [meterValCount_eq hp, hn]
  rfl

end Run

/-- **When the meter values are appended.** Of every queue that samples can make of an empty one,
the text is one meter value for each entry, written within bounds, exactly when the queue is
empty or holds a single entry that was not triggered. -/
theorem sampledValueData_appends {q : Nat → MeterVal} (h : MeterReach q) :
    AppendsMeterValues q ↔
      (queued q).length ≤ 1 ∧ ∀ v ∈ queued q, v.meterValFlg ≠ meterValTrigType := by
  obtain ⟨hp, hok⟩ := h.packed_ok
  unfold AppendsMeterValues
  cases hq : queued q with
  | nil =>
    rw [sampledValueRun_empty hp hq]
    exact ⟨fun _ => ⟨Nat.zero_le _, fun v hv => absurd hv List.not_mem_nil⟩,
      fun _ => ⟨rfl, [], .nil, rfl⟩⟩
  | cons v vs =>
    have hokv : EntryOk v := hok v (hq ▸ List.mem_cons_self)
    cases ht : entryText v with
    | none =>
      have htrig := (entryText_eq_none hokv).mp ht
      constructor
      · rintro ⟨-, ts, hts, htext⟩
        rw [sampledValueRun_none hp hq ht] at htext
        exact absurd htext.symm (commas_ne_nil hts)
      · intro hcond
        exact absurd htrig (hcond.2 v List.mem_cons_self)
    | some t =>
      obtain ⟨hvalue, hlen⟩ := entryText_spec hokv ht
      cases vs with
      | nil =>
        have hne : v.meterValFlg ≠ meterValTrigType := by
          intro htrig
          rw [(entryText_eq_none hokv).mpr htrig] at ht
          cases ht
        rw [sampledValueRun_single hp hq ht hlen]
        refine ⟨fun _ => ⟨le_refl 1, fun w hw => ?_⟩, fun _ => ⟨rfl, [t], ?_, ?_⟩⟩
        · rw [List.mem_singleton.mp hw]
          exact hne
        · exact .cons hvalue .nil
        · exact (List.append_nil t).symm
      | cons w ws =>
        constructor
        · rintro ⟨hfaults, -⟩
          have hmem := sampledValueRun_second hp hq ht
          rw [hfaults] at hmem
          cases hmem
        · rintro ⟨hlen', -⟩
          simp at hlen'

/-- A charger after `n` samples of type `ty`. -/
def sampledTimes (ty : Nat) : Nat → Charger
  | 0 => Charger.init 0
  | n + 1 => addMeterValQ (sampledTimes ty n) ⟨UInt64.ofNat n, ⟨124, 0, 1, 0, n, 0⟩⟩ ty

theorem meterReach_sampledTimes {ty n : Nat} (hty : ty ∈ sampleTypes) (hn : n ≤ 60) :
    MeterReach (sampledTimes ty n).meterQ := by
  induction n with
  | zero => exact .empty fun _ _ => rfl
  | succ n ih =>
    refine .add _ ty (ih (Nat.le_of_succ_le hn)) ?_ hty
    simp only [Tm.IsInt]
    omega

/-- One clock sample. -/
theorem sampledValueData_appends_one :
    AppendsMeterValues (sampledTimes meterValClockType 1).meterQ :=
  (sampledValueData_appends (meterReach_sampledTimes (by decide) (by decide))).mpr (by decide)

set_option maxRecDepth 20000 in
/-- **The comma has no room**: two clock samples. With a full queue the fifth string is stored
behind `strings`, and the text is longer than the payload; and a triggered sample is no meter
value at all. -/
theorem comma_overruns :
    (MeterReach (sampledTimes meterValClockType 2).meterQ ∧
      ¬ AppendsMeterValues (sampledTimes meterValClockType 2).meterQ ∧
      (sampledValueRun (sampledTimes meterValClockType 2).meterQ).faults = [.entry 0]) ∧
    (MeterReach (sampledTimes meterValClockType 5).meterQ ∧
      (sampledValueRun (sampledTimes meterValClockType 5).meterQ).faults =
        [.entry 0, .entry 1, .entry 2, .entry 3, .strings 4, .contants]) ∧
    MeterReach (sampledTimes meterValTrigType 1).meterQ ∧
      (queued (sampledTimes meterValTrigType 1).meterQ).length = 1 ∧
      (sampledValueRun (sampledTimes meterValTrigType 1).meterQ).constants = [] := by
  have htwo : (sampledValueRun (sampledTimes meterValClockType 2).meterQ).faults = [.entry 0] := by
    decide +kernel
  refine ⟨⟨meterReach_sampledTimes (by decide) (by decide), ?_, htwo⟩,
    ⟨meterReach_sampledTimes (by decide) (by decide), by decide +kernel⟩,
    meterReach_sampledTimes (by decide) (by decide), by decide, by decide⟩
  rintro ⟨hfaults, -⟩
  rw [htwo] at hfaults
  cases hfaults

end ChargePoint
