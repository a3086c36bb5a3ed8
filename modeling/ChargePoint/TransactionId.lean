import Mathlib.Tactic.Ring
import ChargePoint.StatusReport

/-!
# The transaction id

The id of a transaction arrives as digits, is stored as a number, is compared with other
digits and is printed again. Three of the four conversions agree on every number below
`2^64`. The one that stores it does not: `DataProcCmd_StartTs` hands `strtoull` the
*length* of the text where the base belongs. Ten digits are read in base 10, twelve in base
12; five digits stop at the first 5.

`IdKept` says for which lengths and numbers the stored number is the one that was sent
(`strtoull_length_iff`), and on exactly these the identity of the transaction survives, from
the answer to the last frame of the session (`transaction_identity_iff`).
-/

set_option autoImplicit false

namespace ChargePoint

open CStr Loop

/-! ## `strtoull`, by length

The base is the number of digits. From eleven digits on each place weighs too much, below ten too
little, and a digit the base does not have ends the number. Apart from ten digits only 0 comes
through, a single digit that the base has, and the largest number, at which a reading that is too
large stops. Above 36 there is no such base, and only 0 does. -/

/-- A digit string of length `l` that writes `n` is stored as `n`. -/
def IdKept (l n : Nat) : Prop :=
  l = 10 ∨ n = 0 ∨ l ≤ 36 ∧ (n ≤ 9 ∧ n < l ∨ n = 2 ^ 64 - 1)

instance (l n : Nat) : Decidable (IdKept l n) := by unfold IdKept; infer_instance

theorem strtoullDigits_cons {c : Char} (hc : c.isDigit = true) (b : Nat) (cs : List Char) (acc : Nat) :
    strtoullDigits b (c :: cs) acc =
      if c.toNat - 48 < b then strtoullDigits b cs (acc * b + (c.toNat - 48)) else acc := by
  rw [strtoullDigits]
  simp [hc]

/-- From base 10 on every digit is one of the base. -/
theorem strtoullDigits_of_le {b : Nat} (hb : 10 ≤ b) {ds : List Char} (h : Digits ds) (acc : Nat) :
    strtoullDigits b ds acc = Nat.ofDigitChars b ds acc := by
  induction ds generalizing acc with
  | nil => rfl
  | cons c cs ih =>
    obtain ⟨hc, hcs⟩ := h.cons
    have hdigit := digit_lt hc
    rw [strtoullDigits_cons hc, if_pos (by omega), ih hcs, Nat.ofDigitChars_cons, Nat.mul_comm]
    rfl

theorem ofDigitChars_acc (b : Nat) (ds : List Char) (acc : Nat) :
    Nat.ofDigitChars b ds acc = acc * b ^ ds.length + Nat.ofDigitChars b ds 0 := by
  induction ds generalizing acc with
  | nil => simp
  | cons c cs ih =>
    rw [Nat.ofDigitChars_cons, Nat.ofDigitChars_cons, ih, ih (b * 0 + _), List.length_cons,
      Nat.pow_succ]
    ring

theorem ofDigitChars_cons_zero (b : Nat) (c : Char) (cs : List Char) :
    Nat.ofDigitChars b (c :: cs) 0 = (c.toNat - 48) * b ^ cs.length + Nat.ofDigitChars b cs 0 := by
  rw [Nat.ofDigitChars_cons, ofDigitChars_acc, Nat.mul_zero, Nat.zero_add]
  rfl

/-- A larger base reads a one-digit number right, and any other too large. -/
theorem ofDigitChars_gt {b : Nat} (hb : 10 < b) {ds : List Char} (h : Digits ds) :
    (decVal ds ≤ 9 → Nat.ofDigitChars b ds 0 = decVal ds) ∧
      (9 < decVal ds → decVal ds < Nat.ofDigitChars b ds 0) := by
  induction ds with
  | nil => exact ⟨fun _ => rfl, fun h => absurd h (by simp [decVal])⟩
  | cons c cs ih =>
    obtain ⟨hc, hcs⟩ := h.cons
    obtain ⟨hsmall, hlarge⟩ := ih hcs
    rw [ofDigitChars_cons_zero, decVal_cons]
    rcases Nat.eq_zero_or_pos (c.toNat - 48) with hzero | hpos
    · rw [hzero, Nat.zero_mul, Nat.zero_mul, Nat.zero_add, Nat.zero_add]
      exact ⟨hsmall, hlarge⟩
    · cases cs with
      | nil =>
        have hdigit := digit_lt hc
        refine ⟨fun _ => rfl, fun hgt => absurd hgt ?_⟩
        simp only [List.length_nil, Nat.pow_zero, Nat.mul_one, decVal, Nat.ofDigitChars_nil]
        omega
      | cons c' cs' =>
        -- the leading digit alone makes the difference
        have hlen : (c' :: cs').length ≠ 0 := by simp
        have hpow : 10 ^ (c' :: cs').length < b ^ (c' :: cs').length :=
          Nat.pow_lt_pow_left hb hlen
        have hten : 10 ≤ 10 ^ (c' :: cs').length := Nat.le_self_pow hlen 10
        have hmul : 10 ^ (c' :: cs').length ≤ (c.toNat - 48) * 10 ^ (c' :: cs').length :=
          Nat.le_mul_of_pos_left _ hpos
        have hlt : (c.toNat - 48) * 10 ^ (c' :: cs').length <
            (c.toNat - 48) * b ^ (c' :: cs').length := Nat.mul_lt_mul_of_pos_left hpow hpos
        have hrest : decVal (c' :: cs') ≤ Nat.ofDigitChars b (c' :: cs') 0 := by
          rcases Nat.lt_or_ge 9 (decVal (c' :: cs')) with hgt | hle
          · exact (hlarge hgt).le
          · exact (hsmall hle).ge
        exact ⟨fun hle => absurd hle (by omega), fun _ => by omega⟩

/-- A smaller base reads what it has a digit for right, and any other number too small: a
digit it does not have ends the reading, and positions weigh less. -/
theorem strtoullDigits_lt {b : Nat} (hpos : 0 < b) (hb : b < 10) {ds : List Char} (h : Digits ds)
    (acc : Nat) :
    strtoullDigits b ds acc ≤ acc * 10 ^ ds.length + decVal ds ∧
      (0 < acc ∧ ds ≠ [] ∨ b ≤ decVal ds →
        strtoullDigits b ds acc < acc * 10 ^ ds.length + decVal ds) ∧
      (acc = 0 → decVal ds < b → strtoullDigits b ds acc = decVal ds) := by
  -- digit by digit; a digit that the base does not have ends the number
  induction ds generalizing acc with
  | nil =>
    have hnil : decVal [] = 0 := rfl
    refine ⟨by simp [strtoullDigits, hnil], fun h => ?_, fun hacc _ => hacc⟩
    rcases h with ⟨-, hne⟩ | hle
    · exact absurd rfl hne
    · rw [hnil] at hle
      omega
  | cons c cs ih =>
    obtain ⟨hc, hcs⟩ := h.cons
    have hten : 0 < 10 ^ cs.length := Nat.pow_pos (by decide)
    rw [strtoullDigits_cons hc, decVal_cons, List.length_cons, Nat.pow_succ]
    generalize hd : c.toNat - 48 = d
    have hdigit : d < 10 := hd ▸ digit_lt hc
    by_cases hlt : d < b
    · rw [if_pos hlt]
      obtain ⟨hle, hstrict, heq⟩ := ih hcs (acc * b + d)
      have hweight : (acc * b + d) * 10 ^ cs.length ≤
            acc * 10 * 10 ^ cs.length + d * 10 ^ cs.length := by
        rw [← Nat.add_mul]
        exact Nat.mul_le_mul_right _ (Nat.add_le_add_right (Nat.mul_le_mul_left _ (by omega)) _)
      have hsum : acc * (10 ^ cs.length * 10) = acc * 10 * 10 ^ cs.length := by ring
      refine ⟨by omega, fun hcase => ?_, fun hacc hval => ?_⟩
      · rcases Nat.eq_zero_or_pos acc with hacc | hacc
        · -- nothing read so far: the number is at least the base
          subst hacc
          have hval : b ≤ d * 10 ^ cs.length + decVal cs :=
            hcase.resolve_left fun h => absurd h.1 (Nat.lt_irrefl 0)
          have hcond : 0 < 0 * b + d ∧ cs ≠ [] ∨ b ≤ decVal cs := by
            rcases Nat.eq_zero_or_pos d with hzero | hdpos
            · right
              rwa [hzero, Nat.zero_mul, Nat.zero_add] at hval
            · left
              refine ⟨by omega, ?_⟩
              rintro rfl
              have hnil : decVal [] = 0 := rfl
              rw [hnil, List.length_nil, Nat.pow_zero] at hval
              omega
          have := hstrict hcond
          omega
        · have hless : (acc * b + d) * 10 ^ cs.length <
              acc * 10 * 10 ^ cs.length + d * 10 ^ cs.length := by
            rw [← Nat.add_mul]
            exact Nat.mul_lt_mul_of_pos_right
              (Nat.add_lt_add_right (Nat.mul_lt_mul_of_pos_left hb hacc) _) hten
          omega
      · subst hacc
        have hzero : d = 0 ∨ cs = [] := by
          by_contra hne
          obtain ⟨hd0, hcs0⟩ := not_or.mp hne
          have hlen : cs.length ≠ 0 := fun h => hcs0 (List.eq_nil_of_length_eq_zero h)
          have hbig : 10 ≤ 10 ^ cs.length := Nat.le_self_pow hlen 10
          have hmul : 10 ^ cs.length ≤ d * 10 ^ cs.length := Nat.le_mul_of_pos_left _ (by omega)
          omega
        rcases hzero with rfl | rfl
        · rw [Nat.zero_mul, Nat.zero_add] at hval heq
          rw [Nat.zero_mul, Nat.zero_add, Nat.zero_mul, Nat.zero_add]
          exact heq rfl hval
        · simp [strtoullDigits, decVal]
    · rw [if_neg hlt]
      have hmul : d ≤ d * 10 ^ cs.length := Nat.le_mul_of_pos_right _ hten
      have hacc : acc ≤ acc * (10 ^ cs.length * 10) := Nat.le_mul_of_pos_right _ (by omega)
      exact ⟨by omega, fun _ => by omega, fun _ hval => absurd hval (by omega)⟩

theorem signOf_digits {ds : List Char} (h : Digits ds) : signOf ds = (false, ds) := by
  unfold signOf
  split
  · exact absurd (h '-' List.mem_cons_self) (by decide)
  · exact absurd (h '+' List.mem_cons_self) (by decide)
  · rfl

theorem hexTail_digits {ds : List Char} (h : Digits ds) : hexTail ds = none := by
  unfold hexTail
  split
  · rename_i x y r
    have hx : x.isDigit = true := h x (by simp)
    rw [if_neg]
    rintro ⟨rfl | rfl, -⟩
    · exact absurd hx (by decide)
    · exact absurd hx (by decide)
  · rfl

/-- No digit is white space. -/
theorem dropWhile_space_digits {ds : List Char} (h : Digits ds) :
    ds.dropWhile (fun c => c = ' ' ∨ ('\t' ≤ c ∧ c ≤ '\r')) = ds := by
  cases ds with
  | nil => rfl
  | cons c cs =>
    refine List.dropWhile_cons_of_neg ?_
    have hlo := digit_ge h.cons.1
    rw [decide_eq_true_eq]
    rintro (rfl | ⟨-, hle⟩)
    · exact absurd hlo (by decide)
    · have hle : c.toNat ≤ 13 := hle
      omega

/-- On digits `strtoull` skips nothing. -/
theorem strtoull_digits {ds : List Char} (h : Digits ds) {b : Nat} (hb : b ≠ 0) :
    strtoull ds b = if b < 2 ∨ 36 < b then 0
      else if 2 ^ 64 ≤ strtoullDigits b ds 0 then UInt64.ofNat (2 ^ 64 - 1)
      else UInt64.ofNat (strtoullDigits b ds 0) := by
  unfold strtoull
  rw [cstr_of_nulFree h.nulFree, dropWhile_space_digits h]
  simp only [signOf_digits h, if_neg hb, hexTail_digits h, Option.getD_none]
  by_cases h16 : b = 16
  · subst h16
    rfl
  · rw [if_neg h16]
    rfl

/-- **When the length, taken for the base, stores the number that was sent.** -/
theorem strtoull_length_iff {ds : List Char} (h : Digits ds) (hne : ds ≠ [])
    (hv : decVal ds < 2 ^ 64) :
    strtoull ds ds.length = UInt64.ofNat (decVal ds) ↔ IdKept ds.length (decVal ds) := by
  have hlen : ds.length ≠ 0 := fun h => hne (List.eq_nil_of_length_eq_zero h)
  have hlt := decVal_lt h
  have hinj : ∀ {a b : Nat}, a < 2 ^ 64 → b < 2 ^ 64 → (UInt64.ofNat a = UInt64.ofNat b ↔ a = b) := by
    intro a b ha hb
    refine ⟨fun heq => ?_, fun heq => by rw [heq]⟩
    have := congrArg UInt64.toNat heq
    rwa [UInt64.toNat_ofNat_of_lt' ha, UInt64.toNat_ofNat_of_lt' hb] at this
  rw [strtoull_digits h hlen]
  generalize hn : decVal ds = n at *
  unfold IdKept
  by_cases hbase : ds.length < 2 ∨ 36 < ds.length
  · -- no base at all: 0 is stored
    rw [if_pos hbase, show (0 : UInt64) = UInt64.ofNat 0 from rfl, hinj (by decide) hv]
    rcases hbase with hone | hlong
    · have hone : ds.length = 1 := by omega
      rw [hone] at hlt ⊢
      omega
    · omega
  · rw [if_neg hbase]
    obtain ⟨htwo, hmax⟩ : 2 ≤ ds.length ∧ ds.length ≤ 36 := by omega
    rcases Nat.lt_trichotomy ds.length 10 with hsmall | hten | hlarge
    · -- a base with too few digits
      obtain ⟨hle, hstrict, heq⟩ := strtoullDigits_lt (by omega) hsmall h 0
      rw [hn, Nat.zero_mul, Nat.zero_add] at hle hstrict
      rw [hn] at heq
      rw [if_neg (by omega), hinj (by omega) hv]
      have hpow : 10 ^ ds.length ≤ 10 ^ 9 := Nat.pow_le_pow_right (by decide) (by omega)
      constructor
      · intro hkept
        by_contra hnot
        have := hstrict (.inr (by omega))
        omega
      · intro hkept
        exact heq rfl (by omega)
    · -- base ten
      rw [strtoullDigits_of_le (le_of_eq hten.symm) h, hten]
      have hdec : Nat.ofDigitChars 10 ds 0 = n := hn
      rw [hdec, if_neg (by omega)]
      simp
    · -- a base with digits to spare
      obtain ⟨hone, hmore⟩ := ofDigitChars_gt hlarge h
      rw [hn] at hone hmore
      rw [strtoullDigits_of_le (by omega) h]
      generalize Nat.ofDigitChars ds.length ds 0 = v at *
      by_cases hsat : 2 ^ 64 ≤ v
      · rw [if_pos hsat, hinj (by decide) hv]
        omega
      · rw [if_neg hsat, hinj (by omega) hv]
        omega

/-! ## The answer to a StartTransaction -/

/-- A received StartTransaction answer whose `transactionId` is the text `ds`: its entries fit
the tables, and the property is there, once or always the same. -/
structure StartConf (rx : RxBuf) (ds : List Char) : Prop where
  len : rx.msg.payloadLen < payloadCap
  nested : ∀ i ≤ rx.msg.payloadLen, (rx.msg.payload i).named "idTagInfo" = true →
    ∀ j ≤ (rx.msg.payload i).subPayloadLen, (rx.deref (rx.msg.payload i).subPayload j).isSome
  has : ∃ i ≤ rx.msg.payloadLen, (rx.msg.payload i).named "transactionId" = true
  only : ∀ i ≤ rx.msg.payloadLen, (rx.msg.payload i).named "transactionId" = true →
    cstr (rx.msg.payload i).propertyContants = ds

/-- `strtoull` sees the string in the buffer. -/
theorem strtoull_cstr (s : List Char) (b : Nat) : strtoull (cstr s) b = strtoull s b := by
  unfold strtoull
  rw [cstr_cstr]

theorem devConn_of_ch1 {c : Charger} (h : c.bDevChannel = false) : c.devConn = some 1 := by
  unfold Charger.devConn
  rw [h]
  rfl

theorem devConn_ch1 {c : Charger} {d : Fin 2} (h : c.devConn = some d) :
    c.bDevChannel = false ∧ d = 1 := by
  cases hch : c.bDevChannel with
  | false =>
    rw [devConn_of_ch1 hch] at h
    exact ⟨rfl, (Option.some.inj h).symm⟩
  | true =>
    unfold Charger.devConn at h
    rw [hch] at h
    exact absurd h (by simp [connIdx])

/-- On the only channel `bTrId` has an element for, the handler ends and stores what
`strtoull` makes of the text. -/
theorem dataProcCmdStartTs_stores {rx : RxBuf} {c : Charger} {ds : List Char}
    (h : StartConf rx ds) (hch : c.bDevChannel = false) :
    ∃ c', dataProcCmdStartTs rx c = some c' ∧ c'.bDevChannel = false ∧
      c'.cs.bTrId 1 = strtoull ds ds.length := by
  let I : Nat → Charger → Prop := fun i d => d.bDevChannel = false ∧
    ((∃ j < i, (rx.msg.payload j).named "transactionId" = true) →
      d.cs.bTrId 1 = strtoull ds ds.length)
  have hstart : I 0 { c with startTsQ := { c.startTsQ with reqStartTsFlg := false } } :=
    ⟨hch, fun ⟨j, hj, _⟩ => absurd hj (Nat.not_lt_zero j)⟩
  -- an entry under another name carries the invariant on
  have hother : ∀ {i : Nat} {t : Charger}, (rx.msg.payload i).named "transactionId" ≠ true →
      I i t → I (i + 1) t := by
    rintro i t hne ⟨hch, hkept⟩
    refine ⟨hch, fun ⟨j, hj, hnamed⟩ => ?_⟩
    rcases Nat.lt_succ_iff_lt_or_eq.mp hj with hlt | rfl
    · exact hkept ⟨j, hlt, hnamed⟩
    · exact absurd hnamed hne
  obtain ⟨c', hc', hkept⟩ : ∃ c', dataProcCmdStartTs rx c = some c' ∧
      I (rx.msg.payloadLen + 1) c' := by
    refine forProps_total h.len (fun i t hi ht => ?_) hstart
    by_cases hinfo : (rx.msg.payload i).named "idTagInfo" = true
    · have hne : (rx.msg.payload i).named "transactionId" ≠ true := by
        intro hid
        simp only [Payload.named, decide_eq_true_eq] at hinfo hid
        exact absurd (hinfo.symm.trans hid) (by decide)
      rw [if_pos hinfo]
      refine forSubProps_total (P := I (i + 1)) (h.nested i hi hinfo) (fun q u hu => ?_)
        (hother hne ht)
      split
      · exact ⟨_, rfl, hu⟩
      · exact ⟨_, rfl, hu⟩
    · rw [if_neg hinfo]
      by_cases hid : (rx.msg.payload i).named "transactionId" = true
      · rw [if_pos hid, devConn_of_ch1 ht.1]
        refine ⟨_, rfl, ht.1, fun _ => ?_⟩
        rw [h.only i hi hid, ← strtoull_cstr, h.only i hi hid]
        rfl
      · rw [if_neg hid]
        exact ⟨t, rfl, hother hid ht⟩
  obtain ⟨i, hi, hid⟩ := h.has
  exact ⟨c', hc', hkept.1, hkept.2 ⟨i, Nat.lt_succ_of_le hi, hid⟩⟩

/-- On the other channel the handler writes past `bTrId`. -/
theorem dataProcCmdStartTs_ch2 {rx : RxBuf} {c c' : Charger} {ds : List Char}
    (h : StartConf rx ds) (hc : dataProcCmdStartTs rx c = some c') : c.bDevChannel = false := by
  obtain ⟨i, hi, hid⟩ := h.has
  have hnot : ¬ (rx.msg.payload i).named "idTagInfo" = true := by
    intro hinfo
    simp only [Payload.named, decide_eq_true_eq] at hinfo hid
    exact absurd (hinfo.symm.trans hid) (by decide)
  have hran := fun keep => forProps_ran (P := fun d => d.bDevChannel = c.bDevChannel) keep rfl hc hi
  obtain ⟨t, t', ht, hb⟩ := hran <| by
    intro p d d' hd hb
    split at hb
    · refine forSubProps_inv (P := fun d => d.bDevChannel = c.bDevChannel) ?_ hd hb
      intro q e e' he hq
      split at hq
      · obtain rfl := Option.some.inj hq
        exact he
      · obtain rfl := Option.some.inj hq
        exact he
    · split at hb
      · obtain ⟨j, _, rfl⟩ := Option.map_eq_some_iff.mp hb
        exact hd
      · obtain rfl := Option.some.inj hb
        exact hd
  rw [if_neg hnot, if_pos hid, Option.map_eq_some_iff] at hb
  obtain ⟨d, hd, -⟩ := hb
  exact ht ▸ (devConn_ch1 hd).1

/-! ## The life of the id

The stored number is compared with the text of a RemoteStopTransaction and is printed in the
frames of the session. Each of these conversions is right on every number below `2 ^ 64`, so the
identity is decided when the number is stored. -/

/-- A session runs on connector `d`. -/
def Charger.session (c : Charger) (d : Fin 2) : Prop :=
  c.cs.bCpStat d = .charging ∨ c.cs.bCpStat d = .suspendedEv

/-- The request is a RemoteStopTransaction for the text `ms`. -/
def NamesTransaction (rq : RxBuf) (ms : List Char) : Prop :=
  (rq.msg.payload 0).named "transactionId" = true ∧
    cstr (rq.msg.payload 0).propertyContants = ms

/-- The handler accepts the request, or rejects it and changes nothing. -/
def Accepts (rq : RxBuf) (c : Charger) (tx : TxBuf) : Prop :=
  dataProcCmdRmStopTr rq c tx =
    some ({ c with cs := { c.cs with bReqRmtStopTsFlg := true } }, makeCallRes .accept rq tx)

def Rejects (rq : RxBuf) (c : Charger) (tx : TxBuf) : Prop :=
  dataProcCmdRmStopTr rq c tx = some (c, makeCallRes .rejected rq tx)

/-- What a stored id is good for: in every later state that still holds it, a remote stop is
accepted for this number while a session runs and rejected for every other, and the frames of
the session print it. -/
structure IdServes (d : Fin 2) (id : UInt64) (n : Nat) : Prop where
  accepts : ∀ c rq tx ms, c.devConn = some d → c.cs.bTrId d = id → NamesTransaction rq ms →
    Digits ms → decVal ms = n → c.session d → Accepts rq c tx
  rejects : ∀ c rq tx ms, c.devConn = some d → c.cs.bTrId d = id → NamesTransaction rq ms →
    Digits ms → decVal ms < 2 ^ 64 → decVal ms ≠ n → Rejects rq c tx
  meterVal : ∀ c tx rxId, c.cs.bTrId d = id →
    Shows (makeOcppMsg (makeDataCmdMeterVal c tx) rxId) "transactionId".toList (dec n)
  stopTs : ∀ c uid tx rxId, c.cs.bTrId d = id →
    Shows (makeOcppMsg (makeDataCmdStopTs c (c.cs.bTrId d) uid tx) rxId) "transactionId".toList (dec n)

/-- **The identity of a transaction**: the handler ends, the number it stores is the number
that was sent, and it serves as that number from then on. -/
def TransactionIdentity (rx : RxBuf) (c : Charger) (n : Nat) : Prop :=
  ∃ c' d, dataProcCmdStartTs rx c = some c' ∧ c'.devConn = some d ∧
    c'.cs.bTrId d = UInt64.ofNat n ∧ IdServes d (c'.cs.bTrId d) n

theorem makeDataCmdMeterVal_shows (c : Charger) (tx : TxBuf) (rxId : List Char) :
    Shows (makeOcppMsg (makeDataCmdMeterVal c tx) rxId) "transactionId".toList
      (dec (c.cs.bTrId 1).toNat) := by
  have hp : (makeDataCmdMeterVal c tx).msg.payload 1 =
      { tx.msg.payload 1 with propertyName := "transactionId".toList,
                              propertyContants := dec (c.cs.bTrId 1).toNat, dataType := .int } := rfl
  have hlen : 1 < (makeDataCmdMeterVal c tx).msg.payloadLen := show 1 < 3 by omega
  have hshows := makeOcppMsg_shows rxId hlen (by rw [hp])
  rw [hp] at hshows
  simpa only [cstr_of_nulFree (nulFree_dec _)] using hshows

theorem makeDataCmdStopTs_shows (c : Charger) (trId uid : UInt64) (tx : TxBuf) (rxId : List Char) :
    Shows (makeOcppMsg (makeDataCmdStopTs c trId uid tx) rxId) "transactionId".toList
      (dec trId.toNat) := by
  have hp : (makeDataCmdStopTs c trId uid tx).msg.payload 0 =
      { tx.msg.payload 0 with propertyName := "transactionId".toList,
                              propertyContants := dec trId.toNat, dataType := .int } := by
    unfold makeDataCmdStopTs
    dsimp only
    split <;> rfl
  have hlen : 0 < (makeDataCmdStopTs c trId uid tx).msg.payloadLen := by
    obtain ⟨t, n, heq⟩ := makeDataCmdStopTs_eq c trId uid tx
    rw [heq]
    exact Nat.succ_pos _
  have hshows := makeOcppMsg_shows rxId hlen (by rw [hp])
  rw [hp] at hshows
  simpa only [cstr_of_nulFree (nulFree_dec _)] using hshows

theorem idServes_of_eq {n : Nat} (hn : n < 2 ^ 64) : IdServes 1 (UInt64.ofNat n) n := by
  have hread : ∀ {rq : RxBuf} {ms : List Char}, NamesTransaction rq ms → Digits ms →
      decVal ms < 2 ^ 64 →
      string2Integer (rq.msg.payload 0).propertyContants = UInt64.ofNat (decVal ms) := by
    intro rq ms hnames hms hlt
    have hcstr : string2Integer (rq.msg.payload 0).propertyContants = string2Integer ms := by
      rw [← hnames.2, string2Integer, string2Integer, cstr_cstr]
    rw [hcstr, string2Integer_of_lt hms hlt]
  have hprint : (UInt64.ofNat n).toNat = n := UInt64.toNat_ofNat_of_lt' hn
  refine ⟨fun c rq tx ms hd hid hnames hms hval hses => ?_,
    fun c rq tx ms hd hid hnames hms hlt hne => ?_, fun c tx rxId hid => ?_,
    fun c uid tx rxId hid => ?_⟩
  · have hr := hread hnames hms (hval ▸ hn)
    unfold Accepts dataProcCmdRmStopTr
    dsimp only
    rw [if_pos hnames.1, hd, Option.map_some, if_pos ⟨by rw [hr, hval, hid], hses⟩]
  · have hr := hread hnames hms hlt
    unfold Rejects dataProcCmdRmStopTr
    dsimp only
    rw [if_pos hnames.1, hd, Option.map_some, if_neg]
    rintro ⟨heq, -⟩
    rw [hr, hid] at heq
    have := congrArg UInt64.toNat heq
    rw [UInt64.toNat_ofNat_of_lt' hlt, hprint] at this
    exact hne this
  · have hshows := makeDataCmdMeterVal_shows c tx rxId
    rwa [hid, hprint] at hshows
  · have hshows := makeDataCmdStopTs_shows c (c.cs.bTrId 1) uid tx rxId
    rw [hid, hprint] at hshows
    rwa [hid]

theorem transactionIdentity_iff {rx : RxBuf} {c : Charger} {ds : List Char} {n : Nat}
    (h : StartConf rx ds) (hn : n < 2 ^ 64) : TransactionIdentity rx c n ↔
      c.bDevChannel = false ∧ strtoull ds ds.length = UInt64.ofNat n := by
  constructor
  · rintro ⟨c', d, hc', hd, hid, -⟩
    have hch := dataProcCmdStartTs_ch2 h hc'
    obtain ⟨c₁, hc₁, hch₁, hstored⟩ := dataProcCmdStartTs_stores h hch
    obtain rfl := Option.some.inj (hc₁.symm.trans hc')
    obtain ⟨-, rfl⟩ := devConn_ch1 hd
    exact ⟨hch, hstored.symm.trans hid⟩
  · rintro ⟨hch, hkept⟩
    obtain ⟨c', hc', hch', hstored⟩ := dataProcCmdStartTs_stores h hch
    have hid : c'.cs.bTrId 1 = UInt64.ofNat n := hstored.trans hkept
    exact ⟨c', 1, hc', devConn_of_ch1 hch', hid, hid ▸ idServes_of_eq hn⟩

/-- **Transaction identity, exactly.** For every StartTransaction answer whose `transactionId`
is a digit string for a number below `2^64`: the number is stored, recognised and printed as
itself if and only if the client is on its first channel and the length of the string, read
as a base, keeps the number. -/
theorem transaction_identity {rx : RxBuf} {c : Charger} {ds : List Char} (h : StartConf rx ds)
    (hds : Digits ds) (hne : ds ≠ []) (hn : decVal ds < 2 ^ 64) :
    TransactionIdentity rx c (decVal ds) ↔
      c.bDevChannel = false ∧ IdKept ds.length (decVal ds) := by
  rw [transactionIdentity_iff h hn, strtoull_length_iff hds hne hn]

/-! ## Two answers -/

/-- An answer with this `transactionId` and nothing else. -/
def startConf (ds : String) : RxBuf :=
  { clearRxMsgBuff with
      msg := { clearRxMsgBuff.msg with payload := fun _ =>
        { Payload.zero with propertyName := "transactionId".toList, propertyContants := ds.toList,
                            dataType := .int } } }

theorem startConf_ok {d : String} (h : NulFree d.toList) : StartConf (startConf d) d.toList where
  len := show 0 < payloadCap by decide
  nested := by
    intro i _ hinfo
    have hname : cstr "transactionId".toList = "idTagInfo".toList := of_decide_eq_true hinfo
    exact absurd hname (by decide)
  has := ⟨0, Nat.le_refl 0, decide_eq_true
    (cstr_of_nulFree (show NulFree "transactionId".toList by decide))⟩
  only := fun _ _ _ => cstr_of_nulFree h

/-- Ten digits keep the identity. -/
theorem transaction_identity_ten :
    TransactionIdentity (startConf "1234567890") (.init 3) 1234567890 := by
  have hiff := transaction_identity (c := .init 3) (startConf_ok (d := "1234567890") (by decide))
    (by decide) (by decide) (by decide)
  have hval : decVal "1234567890".toList = 1234567890 := by decide
  rw [hval] at hiff
  exact hiff.mpr (by decide)

/-- **An id that is lost**: 12345 is read in base 5, up to the 5, and stored as 194. -/
theorem transaction_identity_lost :
    ¬ TransactionIdentity (startConf "12345") (.init 3) 12345 := by
  intro h
  have hstored := ((transactionIdentity_iff (startConf_ok (by decide)) (by decide)).mp h).2
  exact absurd hstored (by decide)

end ChargePoint
