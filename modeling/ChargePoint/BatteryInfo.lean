import ChargePoint.ConnectorIds
import ChargePoint.Lib.Search
import ChargePoint.Numerals

/-!
# BatteryInfoConfiguration

A DataTransfer sets how many battery records go into one message. The handler does not parse the
data: it scans the text for `configCnt`, for a colon, for a digit that is not 0, and takes that digit
and the next. What stands around them it does not look at, and the text is not the data alone: the
data is written over the front of a local that nobody clears. A number above 20 is looked for only
when it has been stored, and becomes 1.

`configures_iff` says when the outcome is right nevertheless.
-/

set_option autoImplicit false

namespace ChargePoint

open CStr Search

/-! ## What the data says

`configCnt` is a member with a number, in a text whose quotes are escaped. What the data says is
stated over the data, before anything is copied. -/

/-- The characters of a JSON number. -/
def isNumeral (c : Char) : Bool :=
  c.isDigit || c == '.' || c == '-' || c == '+' || c == 'e' || c == 'E'

/-- What may stand between a name, its colon and its number: quotes, which the data escapes, and
blanks. -/
def isFiller (c : Char) : Bool := c == '"' || c == '\\' || c == ' '

/-- The number of a member, from behind its name on. -/
def memberNumber (rest : List Char) : Option Nat :=
  match rest.dropWhile isFiller with
  | ':' :: value =>
    let num := (value.dropWhile isFiller).takeWhile isNumeral
    if num ≠ [] ∧ Digits num then some (decVal num) else none
  | _ => none

/-- The text has a member `configCnt` with this number. -/
def HasConfigCnt (text : List Char) (n : Nat) : Prop :=
  ∃ t ∈ text.tails, "configCnt".toList <+: t ∧ memberNumber (t.drop 9) = some n

instance (text : List Char) (n : Nat) : Decidable (HasConfigCnt text n) := by
  unfold HasConfigCnt
  infer_instance

/-- The CALL is a BatteryInfoConfiguration. -/
def RxBuf.AsksBatteryInfo (rx : RxBuf) : Prop :=
  ∃ p ∈ rx.props, p.named "messageId" = true ∧ p.holds "BatteryInfoConfiguration" = true

/-- **The data carries a `configCnt`** with this number. -/
def RxBuf.CarriesCnt (rx : RxBuf) (n : Nat) : Prop :=
  ∃ p ∈ rx.props, p.named "data" = true ∧ HasConfigCnt (cstr p.propertyContants) n

/-- The answer that was prepared says Rejected. -/
def AnswersRejected (tx : TxBuf) : Prop := (tx.msg.payload 0).holds "Rejected" = true

/-- **The CALL is answered right**: accepted and stored if the data carries a number from 1 to 20,
or rejected, and nothing is changed. -/
def ConfiguresRight (j : Junk) (rx : RxBuf) (c : Charger) (tx : TxBuf) : Prop :=
  ∃ c' tx', dataProcCmdDataTransCs j rx c tx = some (c', tx') ∧
    ((AnswersAccepted tx' ∧
        ∃ n, 1 ≤ n ∧ n ≤ 20 ∧ rx.CarriesCnt n ∧ c'.cs.batInfoCfgCnt = n) ∨
      (AnswersRejected tx' ∧ c'.cs.batInfoCfgCnt = c.cs.batInfoCfgCnt))

/-! ## What the scan takes for it -/

/-- A digit the number can start with. -/
def isLead (c : Char) : Bool := c.isDigit && c != '0'

/-- One or two digits are taken, and two if there are two. -/
structure Leads (num post : List Char) : Prop where
  digits : Digits num
  lead : ∃ c cs, num = c :: cs ∧ isLead c = true
  short : num.length ≤ 2
  whole : num.length = 2 ∨ ∀ c ∈ post.head?, c.isDigit = false

/-- **The digits the scan takes**: the first that do not start with 0, behind the first colon, behind
the first `configCnt`. -/
def Taken (text num : List Char) : Prop :=
  ∃ pre mid skip post, First "configCnt".toList text pre (mid ++ ':' :: (skip ++ (num ++ post))) ∧
    ':' ∉ mid ∧ (∀ c ∈ skip, isLead c = false) ∧ Leads num post

/-- The text that is scanned: the data over what the local holds. -/
def writeData (p : Payload) (l : List Char) : List Char :=
  if p.named "data" then cstr p.propertyContants ++ l.drop (cstr p.propertyContants).length else l

def scannedText (j : Junk) (rx : RxBuf) : List Char :=
  cstr (rx.props.foldl (fun l p => writeData p l) j.str256)

theorem isLead_iff {c : Char} : isLead c = true ↔ '0' < c ∧ c ≤ '9' := by
  have hzero : c ≠ '0' ↔ c.val ≠ '0'.val := not_congr ⟨congrArg _, Char.ext⟩
  unfold isLead Char.isDigit
  simp only [Bool.and_eq_true, decide_eq_true_eq, bne_iff_ne, ne_eq, ge_iff_le]
  rw [← ne_eq c '0', hzero]
  show (('0'.val ≤ c.val ∧ c.val ≤ '9'.val) ∧ c.val ≠ '0'.val) ↔ '0'.val < c.val ∧ c.val ≤ '9'.val
  constructor
  · rintro ⟨⟨hlow, hhigh⟩, hne⟩
    exact ⟨UInt32.lt_of_le_of_ne hlow hne.symm, hhigh⟩
  · rintro ⟨hlow, hhigh⟩
    exact ⟨⟨UInt32.le_of_lt hlow, hhigh⟩, fun heq => UInt32.lt_irrefl _ (heq ▸ hlow)⟩

/-! ## The scan

Three steps: a word, a colon, a digit. Each is a loop that goes on where the one before stopped,
so each has a lemma that says where the text is cut: behind the first `configCnt`, behind the
next colon, at the next digit that is not 0. -/

section Scan
variable {c : Char} {cs num num' post post' text : List Char} {n : Nat}

/-- A number that is taken does not depend on where it is cut off. -/
theorem Leads.unique (h : Leads num post) (h' : Leads num' post')
    (heq : num ++ post = num' ++ post') : num = num' := by
  have hlen : ∀ {a b x y : List Char}, Leads a x → Leads b y → a ++ x = b ++ y →
      b.length ≤ a.length := by
    intro a b x y ha hb hab
    obtain ⟨c, t, rfl, -⟩ := ha.lead
    cases ha.whole with
    | inl htwo => rw [htwo]; exact hb.short
    | inr hend =>
      -- `b` is no longer: its next character would be a digit, and `x` starts with none
      apply Nat.le_of_not_lt
      intro hlt
      obtain ⟨u, rfl⟩ : (c :: t) <+: b := List.prefix_of_prefix_length_le ⟨x, hab⟩ ⟨y, rfl⟩ hlt.le
      obtain rfl : x = u ++ y := by
        rw [List.append_assoc] at hab
        exact List.append_cancel_left hab
      cases u with
      | nil =>
        rw [List.append_nil] at hlt
        exact Nat.lt_irrefl _ hlt
      | cons d u =>
        have hdigit := hb.digits d (by simp)
        rw [hend d rfl] at hdigit
        cases hdigit
  exact List.append_inj_left heq (Nat.le_antisymm (hlen h' h heq.symm) (hlen h h' heq))

/-- At the first digit that is not 0 a number is taken. -/
theorem exists_leads (hc : isLead c = true) (cs : List Char) :
    ∃ num post, c :: cs = num ++ post ∧ Leads num post ∧
      cfgCntLoop .digit (c :: cs) = some (decVal num) := by
  have hdigit : c.isDigit = true := by
    unfold isLead at hc
    simp only [Bool.and_eq_true] at hc
    exact hc.1
  have hone : decVal [c] = c.toNat - 48 := by
    rw [decVal_cons, show decVal [] = 0 from rfl]
    simp
  have hsingle : Digits [c] := fun d hd => by rw [List.mem_singleton.mp hd]; exact hdigit
  cases cs with
  | nil =>
    refine ⟨[c], [], rfl, ⟨hsingle, ⟨c, [], rfl, hc⟩, by simp, .inr (by simp)⟩, ?_⟩
    rw [cfgCntLoop, if_pos (isLead_iff.mp hc), hone]
  | cons d rest =>
    cases hd : d.isDigit with
    | false =>
      refine ⟨[c], d :: rest, rfl, ⟨hsingle, ⟨c, [], rfl, hc⟩, by simp, .inr ?_⟩, ?_⟩
      · intro e he
        cases he
        exact hd
      · rw [cfgCntLoop, if_pos (isLead_iff.mp hc), hone]
        simp [hd]
    | true =>
      have htwo : decVal [c, d] = (c.toNat - 48) * 10 + (d.toNat - 48) := by
        rw [decVal_cons, decVal_cons, show decVal [] = 0 from rfl]
        simp
      refine ⟨[c, d], rest, rfl, ⟨?_, ⟨c, [d], rfl, hc⟩, by simp, .inl rfl⟩, ?_⟩
      · intro e he
        cases List.mem_cons.mp he with
        | inl h => rw [h]; exact hdigit
        | inr h => rw [List.mem_singleton.mp h]; exact hd
      · rw [cfgCntLoop, if_pos (isLead_iff.mp hc), htwo]
        simp [hd]

/-- The third step of the scan. -/
theorem cfgCntLoop_digit : cfgCntLoop .digit cs = some n ↔
    ∃ skip num post, cs = skip ++ (num ++ post) ∧ (∀ c ∈ skip, isLead c = false) ∧
      Leads num post ∧ decVal num = n := by
  induction cs with
  | nil =>
    constructor
    · intro h
      cases h
    -- no digit is left for a number to lead with
    · rintro ⟨skip, num, post, hnil, -, hnum, -⟩
      obtain ⟨c, t, rfl, -⟩ := hnum.lead
      simp at hnil
  | cons c cs ih =>
    cases hc : isLead c with
    | true =>
      obtain ⟨num, post, hsplit, hnum, hloop⟩ := exists_leads hc cs
      rw [hloop]
      constructor
      · intro h
        exact ⟨[], num, post, hsplit, by simp, hnum, Option.some.inj h⟩
      · rintro ⟨skip, num', post', hsplit', hskip, hnum', rfl⟩
        cases skip with
        -- the first number is where the characters before the first digit end
        | nil => rw [hnum.unique hnum' (hsplit.symm.trans hsplit')]
        | cons e skip =>
          obtain ⟨rfl, -⟩ := List.cons.inj hsplit'
          rw [hskip c List.mem_cons_self] at hc
          cases hc
    | false =>
      have hnot : ¬ ('0' < c ∧ c ≤ '9') := by
        rw [← isLead_iff, hc]
        decide
      have hstep : cfgCntLoop .digit (c :: cs) = cfgCntLoop .digit cs := if_neg hnot
      rw [hstep, ih]
      constructor
      · rintro ⟨skip, num, post, rfl, hskip, hnum, hval⟩
        refine ⟨c :: skip, num, post, rfl, ?_, hnum, hval⟩
        intro d hd
        cases List.mem_cons.mp hd with
        | inl h => rw [h]; exact hc
        | inr h => exact hskip d h
      · rintro ⟨skip, num, post, hsplit, hskip, hnum, hval⟩
        cases skip with
        | nil =>
          obtain ⟨d, t, rfl, hd⟩ := hnum.lead
          obtain ⟨rfl, -⟩ := List.cons.inj hsplit
          rw [hc] at hd
          cases hd
        | cons d skip =>
          obtain ⟨rfl, rfl⟩ := List.cons.inj hsplit
          exact ⟨skip, num, post, rfl, fun e he => hskip e (List.mem_cons_of_mem _ he), hnum, hval⟩

/-- The second step. -/
theorem cfgCntLoop_colon : cfgCntLoop .colon cs = some n ↔
    ∃ mid rest, cs = mid ++ ':' :: rest ∧ ':' ∉ mid ∧ cfgCntLoop .digit rest = some n := by
  induction cs with
  | nil =>
    constructor
    · intro h
      cases h
    · rintro ⟨mid, rest, hnil, -⟩
      simp at hnil
  | cons c cs ih =>
    rw [cfgCntLoop]
    by_cases hc : c = ':'
    · rw [if_pos hc, hc]
      constructor
      · intro h
        exact ⟨[], cs, rfl, List.not_mem_nil, h⟩
      · rintro ⟨mid, rest, hsplit, hmid, h⟩
        cases mid with
        | nil =>
          obtain ⟨-, rfl⟩ := List.cons.inj hsplit
          exact h
        | cons d mid =>
          obtain ⟨rfl, -⟩ := List.cons.inj hsplit
          exact absurd List.mem_cons_self hmid
    · rw [if_neg hc, ih]
      constructor
      · rintro ⟨mid, rest, rfl, hmid, h⟩
        refine ⟨c :: mid, rest, rfl, ?_, h⟩
        rw [List.mem_cons, not_or]
        exact ⟨Ne.symm hc, hmid⟩
      · rintro ⟨mid, rest, hsplit, hmid, h⟩
        cases mid with
        | nil => exact absurd (List.cons.inj hsplit).1 hc
        | cons d mid =>
          obtain ⟨rfl, rfl⟩ := List.cons.inj hsplit
          exact ⟨mid, rest, rfl, fun hm => hmid (List.mem_cons_of_mem _ hm), h⟩

/-- The first step. -/
theorem cfgCntLoop_word : cfgCntLoop .word text = some n ↔
    ∃ pre rest, First "configCnt".toList text pre rest ∧ cfgCntLoop .colon rest = some n := by
  induction text with
  | nil =>
    constructor
    · intro h
      cases h
    · rintro ⟨pre, rest, hfirst, -⟩
      have hnil := hfirst.split
      simp at hnil
  | cons c cs ih =>
    rw [cfgCntLoop]
    by_cases hpre : "configCnt".toList <+: c :: cs
    · rw [if_pos (List.isPrefixOf_iff_prefix.mpr hpre)]
      obtain ⟨rest, hsplit⟩ := hpre
      -- the scan goes on one character behind the place, and there is no colon in the word
      obtain ⟨-, rfl⟩ : 'c' = c ∧ "onfigCnt".toList ++ rest = cs := List.cons.inj hsplit
      have hskip : cfgCntLoop .colon ("onfigCnt".toList ++ rest) = cfgCntLoop .colon rest := by
        rfl
      have hfirst : First "configCnt".toList (c :: ("onfigCnt".toList ++ rest)) [] rest := by
        rw [← hsplit]
        exact .nil _ _
      rw [hskip]
      constructor
      · intro h
        exact ⟨[], rest, hfirst, h⟩
      · rintro ⟨pre', rest', hfirst', h⟩
        rwa [(hfirst.unique hfirst').2]
    · rw [if_neg (mt List.isPrefixOf_iff_prefix.mp hpre), ih]
      constructor
      · rintro ⟨pre, rest, hfirst, h⟩
        exact ⟨c :: pre, rest, hfirst.cons hpre, h⟩
      · rintro ⟨pre, rest, hfirst, h⟩
        cases pre with
        | nil => exact absurd ⟨rest, hfirst.split.symm⟩ hpre
        | cons d pre => exact ⟨pre, rest, hfirst.of_cons.1, h⟩

/-- **What the scan comes upon.** -/
theorem cfgCntLoop_taken : cfgCntLoop .word text = some n ↔ ∃ num, Taken text num ∧ decVal num = n := by
  rw [cfgCntLoop_word]
  constructor
  · rintro ⟨pre, rest, hfirst, hloop⟩
    obtain ⟨mid, rest, rfl, hmid, hloop⟩ := cfgCntLoop_colon.mp hloop
    obtain ⟨skip, num, post, rfl, hskip, hnum, hval⟩ := cfgCntLoop_digit.mp hloop
    exact ⟨num, ⟨pre, mid, skip, post, hfirst, hmid, hskip, hnum⟩, hval⟩
  · rintro ⟨num, ⟨pre, mid, skip, post, hfirst, hmid, hskip, hnum⟩, hval⟩
    refine ⟨pre, _, hfirst, cfgCntLoop_colon.mpr ⟨mid, _, rfl, hmid, ?_⟩⟩
    exact cfgCntLoop_digit.mpr ⟨skip, num, post, rfl, hskip, hnum, hval⟩

theorem Leads.pos (h : Leads num post) : 1 ≤ decVal num := by
  obtain ⟨c, t, rfl, hc⟩ := h.lead
  have hlt : '0'.toNat < c.toNat := (isLead_iff.mp hc).1
  have hzero : '0'.toNat = 48 := by decide
  have hmul : 1 ≤ (c.toNat - 48) * 10 ^ t.length :=
    Nat.mul_pos (by omega) (Nat.pow_pos (by decide))
  rw [decVal_cons]
  omega

end Scan

/-! ## The handler

The scan is run on a local with the data over its front (`scannedText`), and its outcome is
settled together with the number from before: `settle` is the few lines that store and answer. -/

/-- One property, for the flag and for the local. -/
def dataTransProp (p : Payload) (l : Bool × List Char) : Bool × List Char :=
  (l.1 || (p.named "messageId" && p.holds "BatteryInfoConfiguration"), writeData p l.2)

theorem dataTransProp_foldl (ps : List Payload) (b : Bool) (l : List Char) :
    ps.foldl (fun l p => dataTransProp p l) (b, l) =
      (b || ps.any (fun p => p.named "messageId" && p.holds "BatteryInfoConfiguration"),
        ps.foldl (fun l p => writeData p l) l) := by
  induction ps generalizing b l with
  | nil => simp
  | cons p ps ih =>
    rw [List.foldl_cons, List.foldl_cons, List.any_cons, ← Bool.or_assoc]
    exact ih _ _

/-- What is stored and answered when the scan has come to an end. -/
def settle (found : Option Nat) (cnt : Nat) : Nat × ResType :=
  let r := match found with
    | some n => (n, .accept)
    | none => (cnt, .rejected)
  if 20 < r.1 then (1, .rejected) else r

section Handler
variable {j : Junk} {rx : RxBuf} {c : Charger} {tx : TxBuf}

theorem dataTrans_loop (hlen : rx.msg.payloadLen < payloadCap) :
    forProps rx (fun p (l : Bool × List Char) =>
      if p.named "vendorId" then some l
      else if p.named "messageId" then
        some (l.1 || p.holds "BatteryInfoConfiguration", l.2)
      else if p.named "data" then
        let d := cstr p.propertyContants
        some (l.1, d ++ l.2.drop d.length)
      else some l) (false, j.str256) =
        some (rx.props.any (fun p => p.named "messageId" && p.holds "BatteryInfoConfiguration"),
          rx.props.foldl (fun l p => writeData p l) j.str256) := by
  have hbody : ∀ (p : Payload) (l : Bool × List Char),
      (if p.named "vendorId" then some l
      else if p.named "messageId" then
        some (l.1 || p.holds "BatteryInfoConfiguration", l.2)
      else if p.named "data" then
        let d := cstr p.propertyContants
        some (l.1, d ++ l.2.drop d.length)
      else some l) = some (dataTransProp p l) := by
    intro p l
    unfold dataTransProp writeData
    cases hv : p.named "vendorId" with
    | true => simp [named_ne (show "vendorId".toList ≠ "messageId".toList by decide) hv,
        named_ne (show "vendorId".toList ≠ "data".toList by decide) hv]
    | false =>
      cases hm : p.named "messageId" with
      | true => simp [named_ne (show "messageId".toList ≠ "data".toList by decide) hm]
      | false => cases hd : p.named "data" <;> simp
  rw [forProps_eq, if_pos hlen]
  simp only [hbody]
  refine List.foldlM_pure.trans ?_
  rw [dataTransProp_foldl]
  rfl

theorem asksBatteryInfo_iff : rx.AsksBatteryInfo ↔
    rx.props.any (fun p => p.named "messageId" && p.holds "BatteryInfoConfiguration") = true := by
  unfold RxBuf.AsksBatteryInfo
  simp

/-- A CALL that asks for it. -/
theorem dataTrans_asked (hlen : rx.msg.payloadLen < payloadCap) (hask : rx.AsksBatteryInfo) :
    dataProcCmdDataTransCs j rx c tx =
      let r := settle (cfgCntLoop .word (scannedText j rx)) c.cs.batInfoCfgCnt
      some ({ c with cs := { c.cs with batInfoCfgCnt := r.1 } }, makeCallRes r.2 rx tx) := by
  unfold dataProcCmdDataTransCs
  rw [dataTrans_loop hlen, asksBatteryInfo_iff.mp hask]
  rfl

/-- And one that does not. -/
theorem dataTrans_other (hlen : rx.msg.payloadLen < payloadCap) (hask : ¬ rx.AsksBatteryInfo) :
    dataProcCmdDataTransCs j rx c tx = some (c, makeCallRes .rejected rx tx) := by
  rw [asksBatteryInfo_iff, Bool.not_eq_true] at hask
  unfold dataProcCmdDataTransCs
  rw [dataTrans_loop hlen, hask]
  rfl

theorem makeCallRes_rejects (ret : ResType) (rx : RxBuf) (tx : TxBuf) :
    AnswersRejected (makeCallRes ret rx tx) ↔ ret.text = "Rejected".toList := by
  unfold AnswersRejected Payload.holds
  have htext : ((makeCallRes ret rx tx).msg.payload 0).propertyContants = ret.text := by
    cases ret <;> rfl
  rw [htext, decide_eq_true_eq, cstr_of_nulFree]
  cases ret <;> decide

/-! ## When the outcome is right

The cases follow `settle`. Where nothing is found the number from before is judged once more, which
is right if it is in order. A number above 20 is refused and leaves a 1 behind, which is right only
if it was 1 before. -/

/-- **What is taken fits the data**: nothing, and the number from before is in order; or more than 20,
and the number from before is the 1 that it becomes; or the number the data carries. -/
def CntSettled (j : Junk) (rx : RxBuf) (cnt : Nat) : Prop :=
  ((∀ num, ¬ Taken (scannedText j rx) num) ∧ cnt ≤ 20) ∨
    ∃ num, Taken (scannedText j rx) num ∧
      ((20 < decVal num ∧ cnt = 1) ∨ (decVal num ≤ 20 ∧ rx.CarriesCnt (decVal num)))

theorem settle_none {cnt : Nat} :
    settle none cnt = if 20 < cnt then (1, .rejected) else (cnt, .rejected) := rfl

theorem settle_some {n cnt : Nat} :
    settle (some n) cnt = if 20 < n then (1, .rejected) else (n, .accept) := rfl

/-- A CALL that asks for it is answered right if what is taken fits the data. -/
theorem asked_iff (hlen : rx.msg.payloadLen < payloadCap) (hask : rx.AsksBatteryInfo) :
    ConfiguresRight j rx c tx ↔ CntSettled j rx c.cs.batInfoCfgCnt := by
  have hreject := (makeCallRes_rejects .rejected rx tx).mpr rfl
  have haccept := (makeCallRes_accepts .accept rx tx).mpr rfl
  have hnot : ¬ AnswersRejected (makeCallRes .accept rx tx) := by
    rw [makeCallRes_rejects]
    decide
  unfold ConfiguresRight
  rw [dataTrans_asked hlen hask]
  -- what the scan makes of the text decides: no number, one that is too large, one to store
  cases hscan : cfgCntLoop .word (scannedText j rx) with
  | none =>
    have hnone : ∀ num, ¬ Taken (scannedText j rx) num := by
      intro num hnum
      rw [cfgCntLoop_taken.mpr ⟨num, hnum, rfl⟩] at hscan
      cases hscan
    rw [settle_none]
    -- nothing is read: the count that stands is checked again, and one above 20 becomes 1
    by_cases hcnt : 20 < c.cs.batInfoCfgCnt
    · rw [if_pos hcnt]
      constructor
      · rintro ⟨c', tx', h, hright⟩
        cases h
        rcases hright with ⟨hacc, -⟩ | ⟨-, hkept⟩
        · exact absurd hacc (not_accepts_rejected rx tx)
        · have hone : 1 = c.cs.batInfoCfgCnt := hkept
          omega
      · rintro (⟨-, hle⟩ | ⟨num, hnum, -⟩)
        · omega
        · exact absurd hnum (hnone num)
    · rw [if_neg hcnt]
      constructor
      · intro _
        exact .inl ⟨hnone, Nat.le_of_not_lt hcnt⟩
      · intro _
        exact ⟨_, _, rfl, .inr ⟨hreject, rfl⟩⟩
  | some n =>
    obtain ⟨num, hnum, rfl⟩ := cfgCntLoop_taken.mp hscan
    -- however the text is cut, it is the same number
    have hsame : ∀ num', Taken (scannedText j rx) num' → decVal num' = decVal num := by
      intro num' hnum'
      have hscan' := cfgCntLoop_taken.mpr ⟨num', hnum', rfl⟩
      rw [hscan] at hscan'
      exact (Option.some.inj hscan').symm
    rw [settle_some]
    by_cases hbig : 20 < decVal num
    · rw [if_pos hbig]
      constructor
      · rintro ⟨c', tx', h, hright⟩
        cases h
        rcases hright with ⟨hacc, -⟩ | ⟨-, hkept⟩
        · exact absurd hacc (not_accepts_rejected rx tx)
        · exact .inr ⟨num, hnum, .inl ⟨hbig, hkept.symm⟩⟩
      · rintro (⟨hnone, -⟩ | ⟨num', hnum', ⟨-, hone⟩ | ⟨hle, -⟩⟩)
        · exact absurd hnum (hnone num)
        · exact ⟨_, _, rfl, .inr ⟨hreject, hone.symm⟩⟩
        · rw [hsame num' hnum'] at hle
          omega
    · rw [if_neg hbig]
      constructor
      · rintro ⟨c', tx', h, hright⟩
        cases h
        rcases hright with ⟨-, n, -, -, hcarry, hstored⟩ | ⟨hrej, -⟩
        · have hn : decVal num = n := hstored
          exact .inr ⟨num, hnum, .inr ⟨Nat.le_of_not_lt hbig, hn.symm ▸ hcarry⟩⟩
        · exact absurd hrej hnot
      · rintro (⟨hnone, -⟩ | ⟨num', hnum', ⟨hlt, -⟩ | ⟨hle, hcarry⟩⟩)
        · exact absurd hnum (hnone num)
        · rw [hsame num' hnum'] at hlt
          exact absurd hlt hbig
        · obtain ⟨pre, mid, skip, post, -, -, -, hlead⟩ := hnum
          rw [hsame num' hnum'] at hcarry
          exact ⟨_, _, rfl, .inl ⟨haccept, _, hlead.pos, Nat.le_of_not_lt hbig, hcarry, rfl⟩⟩

/-- **A DataTransfer of the central system is answered right** exactly when its properties fit the
table, and, if it is a BatteryInfoConfiguration, what is taken fits the data. -/
theorem configures_iff (j : Junk) (rx : RxBuf) (c : Charger) (tx : TxBuf) :
    ConfiguresRight j rx c tx ↔ rx.msg.payloadLen < payloadCap ∧
      (rx.AsksBatteryInfo → CntSettled j rx c.cs.batInfoCfgCnt) := by
  by_cases hlen : rx.msg.payloadLen < payloadCap
  · by_cases hask : rx.AsksBatteryInfo
    · rw [asked_iff hlen hask]
      exact ⟨fun h => ⟨hlen, fun _ => h⟩, fun h => h.2 hask⟩
    · refine ⟨fun _ => ⟨hlen, fun h => absurd h hask⟩, fun _ => ?_⟩
      exact ⟨_, _, dataTrans_other hlen hask, .inr ⟨(makeCallRes_rejects _ _ _).mpr rfl, rfl⟩⟩
  · refine ⟨?_, fun h => absurd h.1 hlen⟩
    rintro ⟨c', tx', h, -⟩
    unfold dataProcCmdDataTransCs at h
    rw [forProps_eq, if_neg hlen] at h
    cases h

end Handler

/-! ## A hundred records -/

/-- A BatteryInfoConfiguration as the central system writes it. -/
def batteryInfoFrame (data : List Char) : List Char :=
  "[2,\"1\",\"DataTransfer\",\x7b\"vendorId\":\"kr.or.keco\",\"messageId\":".toList ++
    "\"BatteryInfoConfiguration\",\"data\":\"".toList ++ data ++ "\"\x7d]".toList

/-- The parser reads the frame as these three properties. -/
def readsBatteryInfo (data : List Char) : Bool :=
  let frame := batteryInfoFrame data
  decide (frame.length < Client.recvBufCap) && decide ((typeText frame).head? = some '2') &&
    (parseData .none 0 clearRxMsgBuff frame).any fun d =>
      !d.err && decide (d.rx.msg.actionCode = .cs .dataTransfer) &&
        decide (d.rx.msg.payloadLen = 2) && (d.rx.msg.payload 0).named "vendorId" &&
        (d.rx.msg.payload 1).named "messageId" &&
        (d.rx.msg.payload 1).holds "BatteryInfoConfiguration" &&
        (d.rx.msg.payload 2).named "data" &&
        decide ((d.rx.msg.payload 2).propertyContants = data)

theorem readsBatteryInfo_props {data : List Char} (h : readsBatteryInfo data = true)
    (hdata : NulFree data) : ∃ rx, ReadAs (batteryInfoFrame data) .dataTransfer rx ∧
      rx.msg.payloadLen < payloadCap ∧ rx.AsksBatteryInfo ∧ scannedText .zero rx = data ∧
      ∀ n, rx.CarriesCnt n → HasConfigCnt data n := by
  simp only [readsBatteryInfo, Bool.and_eq_true, decide_eq_true_eq, Option.any_eq_true] at h
  obtain ⟨⟨hlen, htype⟩, ⟨err, rx, dt⟩, hparse,
    ⟨⟨⟨⟨⟨⟨⟨herr, hact⟩, hthree⟩, hvendor⟩, hid⟩, hbattery⟩, hnamed⟩, htext⟩⟩ := h
  obtain rfl : err = false := by simpa using herr
  have hprops : rx.props = [rx.msg.payload 0, rx.msg.payload 1, rx.msg.payload 2] := by
    unfold RxBuf.props
    rw [hthree]
    rfl
  have hvendor' := named_ne (show "vendorId".toList ≠ "data".toList by decide) hvendor
  have hid' := named_ne (show "messageId".toList ≠ "data".toList by decide) hid
  have hcstr : cstr (rx.msg.payload 2).propertyContants = data := by
    rw [htext, cstr_of_nulFree hdata]
  refine ⟨rx, ⟨hlen, htype, ⟨dt, hparse⟩, hact⟩, by rw [hthree]; decide,
    ⟨rx.msg.payload 1, by simp [hprops], hid, hbattery⟩, ?_, ?_⟩
  · have hfold : rx.props.foldl (fun l p => writeData p l) Junk.zero.str256 = data := by
      rw [hprops]
      simp [writeData, hvendor', hid', hnamed, hcstr, Junk.zero]
    unfold scannedText
    rw [hfold, cstr_of_nulFree hdata]
  · rintro n ⟨p, hp, hdatap, hcnt⟩
    rw [hprops] at hp
    simp only [List.mem_cons, List.not_mem_nil, or_false] at hp
    rcases hp with rfl | rfl | rfl
    · rw [hvendor'] at hdatap
      cases hdatap
    · rw [hid'] at hdatap
      cases hdatap
    · rwa [hcstr] at hcnt

/-- A hundred records in one message are too many; ten are accepted in their place. -/
theorem hundred_taken_for_ten : ∃ s log s' rx f, Run s log ∧ Exchange s s' .dataTransfer rx f ∧
    (∀ n, rx.CarriesCnt n → n = 100) ∧ ¬ ConfiguresRight .zero rx s.cp s.tx ∧
    s'.cp.cs.batInfoCfgCnt = 10 := by
  let data := "\x7b\\\"configCnt\\\":100\x7d".toList
  have hreads : readsBatteryInfo data = true := by decide +kernel
  obtain ⟨rx, hread, hlen, hask, htext, hcarry⟩ := readsBatteryInfo_props hreads (by decide)
  obtain ⟨s, log, hrun, hconn, hboot⟩ := exists_booted
  have hscan : cfgCntLoop .word (scannedText .zero rx) = some 10 := by
    rw [htext]
    decide
  have hserve : ∀ tx, dataProcCmdDataTransCs .zero rx s.cp tx = _ :=
    fun tx => dataTrans_asked hlen hask
  rw [hscan] at hserve
  have hhundred : ∀ n, rx.CarriesCnt n → n = 100 := by
    intro n hn
    obtain ⟨t, ht, hword, hnum⟩ := hcarry n hn
    have honly : ∀ t ∈ data.tails, "configCnt".toList <+: t →
        memberNumber (t.drop 9) = some 100 := by decide
    rw [honly t ht hword] at hnum
    exact (Option.some.inj hnum).symm
  obtain ⟨s', hx, hcp⟩ := exists_exchange (j := .zero) hread hconn hboot (hserve _)
  refine ⟨s, log, s', rx, _, hrun, hx, hhundred, ?_, by rw [hcp]; rfl⟩
  rintro ⟨c', tx', h, hright⟩
  rw [hserve] at h
  cases h
  rcases hright with ⟨-, n, -, hle, hn, -⟩ | ⟨hrej, -⟩
  · rw [hhundred n hn] at hle
    omega
  · have hacc : ResType.accept.text = "Rejected".toList := (makeCallRes_rejects _ _ _).mp hrej
    exact absurd hacc (by decide)

end ChargePoint
