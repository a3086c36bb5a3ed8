import Mathlib.Data.Fintype.Basic
import Mathlib.Data.List.FinRange
import Mathlib.Logic.Function.Basic
import ChargePoint.TransactionId

/-!
# The saved configuration

`ConfigSavePublic` prints what must survive a restart into the dictionary `cfgIni`, and
`ConfigInit` reads it back: the record of the last transaction and the local list. Two lists of
keys, written by hand, and they differ. The status of a list entry is set under `ocpp:` and read
under `application:`, and a transaction id of 64 bits is read as an `int`.

Between the two the dictionary is a file. That it comes back as it was is taken for granted here;
what `strtol` makes of a text is not. `long` and `int` have 32 bits. Plain `char` is read as signed
here; read the other way a status is restored in the same cases.
-/

set_option autoImplicit false

namespace ChargePoint

open CStr

/-! ## The dictionary

`cfgIni` maps keys to texts, and the writer of the file and its reader are taken to be inverse to
each other. `strtol` is the one conversion on the way back. -/

/-- `strtol(s, NULL, 0)`. Too large saturates. -/
def strtol (s : List Char) : Int :=
  let s := (cstr s).dropWhile fun c => c = ' ' ∨ ('\t' ≤ c ∧ c ≤ '\r')
  let (neg, s) := signOf s
  let v := match hexTail s with
    | some r => strtoullDigits 16 r 0
    | none => strtoullDigits (if s.head? = some '0' then 8 else 10) s 0
  if neg then max (-2 ^ 31) (-(v : Int)) else min (2 ^ 31 - 1) v

/-- `cfgIni`: what was last set under a key. -/
abbrev Ini := String → Option (List Char)

namespace Ini

/-- `iniparser_set`. -/
def set (ini : Ini) (key : String) (val : List Char) : Ini :=
  Function.update ini key (some (cstr val))

/-- `iniparser_getstring`. -/
def getstring (ini : Ini) (key : String) (notfound : List Char) : List Char :=
  (ini key).getD notfound

/-- `iniparser_getint`. -/
def getint (ini : Ini) (key : String) (notfound : Int) : Int :=
  match ini key with
  | some s => strtol s
  | none => notfound

end Ini

/-! ## What is saved -/

/-- `STOPTSVAL_TYPE`, all of it. -/
structure StopTsVal extends StopTs where
  trId : UInt64
  connectorNo : UInt8

/-- `LOCAL_LIS_VAL`, without the two strings that are neither saved nor loaded. -/
structure LocalLisVal where
  status : Int8
  /-- `Id[21]` -/
  id : List Char

/-- `StopTsConfig`, `LocalListVer` and `LocalListVal[5]`. -/
structure SavedConfig where
  stopTs : StopTsVal
  localListVer : Int32
  localListVal : Fin 5 → LocalLisVal

/-- The strings fit their arrays with a zero behind them, and `Stop_Reason` is an `enum`. -/
structure SavedConfig.Fits (c : SavedConfig) : Prop where
  timeStamp : (cstr c.stopTs.timeStamp).length < 50
  idTag : (cstr c.stopTs.idTag).length < 21
  stopReason : c.stopTs.stopReason < 2 ^ 32
  id : ∀ i, (cstr (c.localListVal i).id).length < 21

/-! ## Saving

Numbers go through a `buf` of twenty characters, so a number with more digits than that is
written past it. The one that can be is the id of the transaction. -/

/-- `sprintf(buf, …)` into `char buf[20]`. A longer text is written past it. -/
def sprintfBuf (text : List Char) : Option (List Char) :=
  if text.length < 20 then some text else none

/-- A number is printed into `buf` and set. -/
def Ini.setNum (ini : Ini) (key : String) (n : Int) : Option Ini :=
  (sprintfBuf (decInt n)).map (ini.set key)

def statusKey : Fin 5 → String
  | 0 => "ocpp:local_list_1_status"
  | 1 => "ocpp:local_list_2_status"
  | 2 => "ocpp:local_list_3_status"
  | 3 => "ocpp:local_list_4_status"
  | 4 => "ocpp:local_list_5_status"

def idKey : Fin 5 → String
  | 0 => "ocpp:local_list_1_id"
  | 1 => "ocpp:local_list_2_id"
  | 2 => "ocpp:local_list_3_id"
  | 3 => "ocpp:local_list_4_id"
  | 4 => "ocpp:local_list_5_id"

/-- `if(LocalListVal[i].Status) iniparser_set(…)`. -/
def Ini.setId (ini : Ini) (i : Fin 5) (v : LocalLisVal) : Ini :=
  if v.status ≠ 0 then ini.set (idKey i) v.id else ini

/-- **`ConfigSavePublic`**, as far as it saves the transaction and the local list. -/
def configSavePublic (ini : Ini) (c : SavedConfig) : Option Ini := do
  let ini ← ini.setNum "application:con_no" c.stopTs.connectorNo.toNat
  -- `%lld` of a `uint64_t`
  let ini ← ini.setNum "application:trid" c.stopTs.trId.toInt64.toInt
  let ini := ini.set "application:time_stamp" c.stopTs.timeStamp
  -- `%ld` of a `uint32_t`
  let ini ← ini.setNum "application:meter_stop" c.stopTs.meterStopVal.toInt32.toInt
  let ini := ini.set "application:idtag" c.stopTs.idTag
  let ini ← ini.setNum "application:stop_reason"
    (UInt32.ofNat c.stopTs.stopReason).toInt32.toInt
  let ini ← ini.setNum "ocpp:local_list_ver" c.localListVer.toInt
  if 0 < c.localListVer.toInt then do
    let ini ← (List.finRange 5).foldlM
      (fun ini i => ini.setNum (statusKey i) (c.localListVal i).status.toInt) ini
    some ((List.finRange 5).foldl (fun ini i => ini.setId i (c.localListVal i)) ini)
  else some ini

/-! ## Loading -/

/-- `strncpy(dst, s, n)` over an array of `n`. -/
def strncpy (s : List Char) (n : Nat) : List Char := (cstr s).take n

/-- The keys the statuses are read under. -/
def loadStatusKey : Fin 5 → String
  | 0 => "application:local_list_1_status"
  | 1 => "application:local_list_2_status"
  | 2 => "application:local_list_3_status"
  | 3 => "application:local_list_4_status"
  | 4 => "application:local_list_5_status"

/-- **`ConfigInit`** on the dictionary that was loaded, as far as it concerns the same. -/
def configInit (ini : Ini) : SavedConfig where
  stopTs :=
    { connectorNo := (Int8.ofInt (ini.getint "application:con_no" 0)).toUInt8
      trId := (Int64.ofInt (ini.getint "application:trid" 0)).toUInt64
      timeStamp := strncpy (ini.getstring "application:time_stamp"
        "2023-10-23T14:05:04.899Z".toList) 50
      meterStopVal := (Int32.ofInt (ini.getint "application:meter_stop" 0)).toUInt32
      idTag := strncpy (ini.getstring "application:idtag" "0000000000000000".toList) 21
      stopReason := (Int32.ofInt (ini.getint "application:stop_reason" 0)).toUInt32.toNat }
  localListVer := Int32.ofInt (ini.getint "ocpp:local_list_ver" 0)
  localListVal i :=
    { status := Int8.ofInt (ini.getint (loadStatusKey i) 0)
      id := strncpy (ini.getstring (idKey i) "00000000000000000000".toList) 21 }

/-! ## Numbers there and back -/

/-- What `strtol` can return. -/
def InLong (n : Int) : Prop := -2 ^ 31 ≤ n ∧ n < 2 ^ 31

instance (n : Int) : Decidable (InLong n) := inferInstanceAs (Decidable (_ ∧ _))

/-- Only 0 is printed with a leading zero. -/
theorem dec_head_zero {n : Nat} (h : (dec n).head? = some '0') : n = 0 := by
  cases hd : dec n with
  | nil => exact absurd hd (dec_ne_nil n)
  | cons c cs =>
    rw [hd, List.head?_cons, Option.some.injEq] at h
    subst h
    have hval : n = decVal cs := by
      rw [← decVal_dec n, hd, decVal_cons]
      exact (congrArg (· + decVal cs) (Nat.zero_mul _)).trans (Nat.zero_add _)
    have hcs : Digits cs := (hd ▸ dec_digits n : Digits ('0' :: cs)).cons.2
    rcases Nat.eq_zero_or_pos cs.length with hnil | hpos
    · rw [List.length_eq_zero_iff.mp hnil] at hval
      exact hval
    · -- `cs` alone would be a shorter numeral of `n`
      have hlt : n < 10 ^ cs.length := hval ▸ decVal_lt hcs
      have hle := (Nat.length_toDigits_le_iff (by decide) hpos).mpr hlt
      have hlen : (dec n).length = cs.length + 1 := by rw [hd, List.length_cons]
      rw [dec] at hlen
      omega

/-- `strtol` after the white space and the sign. -/
theorem strtoullDigits_dec (n : Nat) :
    strtoullDigits (if (dec n).head? = some '0' then 8 else 10) (dec n) 0 = n := by
  by_cases hz : (dec n).head? = some '0'
  · rw [dec_head_zero hz]
    rfl
  · rw [if_neg hz, strtoullDigits_of_le (by decide) (dec_digits n)]
    exact decVal_dec n

/-- Reading a printed number: it comes back, unless it is too large for a `long`. -/
theorem strtol_decInt (n : Int) : strtol (decInt n) = max (-2 ^ 31) (min (2 ^ 31 - 1) n) := by
  cases n with
  | ofNat n =>
    have hd := dec_digits n
    rw [strtol, decInt, cstr_of_nulFree hd.nulFree, dropWhile_space_digits hd, signOf_digits hd]
    simp only [hexTail_digits hd, strtoullDigits_dec, Bool.false_eq_true, if_false]
    have hn := Int.natCast_nonneg n
    rw [Int.ofNat_eq_natCast]
    omega
  | negSucc n =>
    have hd := dec_digits (n + 1)
    have hfree : NulFree ('-' :: dec (n + 1)) := nulFree_cons.mpr ⟨by decide, hd.nulFree⟩
    have hsign : signOf ('-' :: dec (n + 1)) = (true, dec (n + 1)) := rfl
    rw [strtol, decInt, cstr_of_nulFree hfree, List.dropWhile_cons_of_neg (by decide), hsign]
    have hn := Int.natCast_nonneg n
    simp only [hexTail_digits hd, strtoullDigits_dec, if_true, Nat.cast_add, Nat.cast_one]
    rw [Int.negSucc_eq, min_eq_right (show -((n : Int) + 1) ≤ 2 ^ 31 - 1 by omega)]

theorem strtol_decInt_of_inLong {n : Int} (h : InLong n) : strtol (decInt n) = n := by
  obtain ⟨hlo, hhi⟩ := h
  rw [strtol_decInt]
  omega

/-- A text of a `long` fits `buf`. -/
theorem decInt_length_lt {n : Int} (h : -10 ^ 18 < n ∧ n < 10 ^ 18) : (decInt n).length < 20 := by
  obtain ⟨hlo, hhi⟩ := h
  cases n with
  | ofNat n =>
    have hlen : (dec n).length ≤ 18 :=
      (Nat.length_toDigits_le_iff (by decide) (by decide)).mpr
        (by rw [Int.ofNat_eq_natCast] at hhi; omega)
    rw [decInt]
    omega
  | negSucc n =>
    have hlen : (dec (n + 1)).length ≤ 18 :=
      (Nat.length_toDigits_le_iff (by decide) (by decide)).mpr (by rw [Int.negSucc_eq] at hlo; omega)
    rw [decInt, List.length_cons]
    omega

theorem nulFree_decInt (n : Int) : NulFree (decInt n) := by
  cases n with
  | ofNat n => exact nulFree_dec n
  | negSucc n => exact nulFree_cons.mpr ⟨by decide, nulFree_dec (n + 1)⟩

/-! ## A run of writes

Saving is a list of writes of different keys, and what is read under a key afterwards is what was
written there last, or what the dictionary had before. -/

namespace Ini
variable {ini : Ini} {key : String} {ws : List (String × List Char)}

/-- One `iniparser_set` after the other. -/
def sets (ini : Ini) (ws : List (String × List Char)) : Ini :=
  ws.foldl (fun ini w => ini.set w.1 w.2) ini

theorem sets_append (ws us : List (String × List Char)) :
    ini.sets (ws ++ us) = (ini.sets ws).sets us :=
  List.foldl_append

/-- A key that is not set keeps its value. -/
theorem sets_other (h : key ∉ ws.map Prod.fst) : ini.sets ws key = ini key := by
  induction ws generalizing ini with
  | nil => rfl
  | cons w ws ih =>
    rw [List.map_cons, List.mem_cons, not_or] at h
    obtain ⟨hne, hrest⟩ := h
    show (ini.set w.1 w.2).sets ws key = _
    rw [ih hrest]
    exact Function.update_of_ne hne _ _

/-- With every key set once, each has the value it was set to. -/
theorem sets_mem (hnodup : (ws.map Prod.fst).Nodup) {val : List Char} (h : (key, val) ∈ ws) :
    ini.sets ws key = some (cstr val) := by
  induction ws generalizing ini with
  | nil => cases h
  | cons w ws ih =>
    rw [List.map_cons, List.nodup_cons] at hnodup
    obtain ⟨hfresh, hnodup⟩ := hnodup
    rcases List.mem_cons.mp h with rfl | hmem
    · show (ini.set key val).sets ws key = _
      rw [sets_other hfresh]
      exact Function.update_self _ _ _
    · exact ih hnodup hmem

theorem setNum_eq (n : Int) :
    ini.setNum key n = if (decInt n).length < 20 then some (ini.set key (decInt n)) else none := by
  unfold setNum sprintfBuf
  split <;> rfl

theorem setNum_of_inLong {n : Int} (h : InLong n) :
    ini.setNum key n = some (ini.set key (decInt n)) := by
  obtain ⟨hlo, hhi⟩ := h
  rw [setNum_eq, if_pos (decInt_length_lt ⟨by omega, by omega⟩)]

theorem foldlM_setNum {ι : Type} (k : ι → String) {f : ι → Int} (h : ∀ i, InLong (f i))
    (is : List ι) : is.foldlM (fun ini i => ini.setNum (k i) (f i)) ini =
      some (ini.sets (is.map fun i => (k i, decInt (f i)))) := by
  induction is generalizing ini with
  | nil => rfl
  | cons i is ih =>
    rw [List.foldlM_cons, setNum_of_inLong (h i)]
    exact ih

theorem foldl_setId (v : Fin 5 → LocalLisVal) (is : List (Fin 5)) :
    is.foldl (fun ini i => ini.setId i (v i)) ini =
      ini.sets ((is.filter fun i => (v i).status ≠ 0).map fun i => (idKey i, (v i).id)) := by
  induction is generalizing ini with
  | nil => rfl
  | cons i is ih =>
    rw [List.foldl_cons, ih, List.filter_cons]
    unfold setId
    by_cases hstat : (v i).status = 0
    · simp only [hstat, ne_eq, not_true_eq_false, if_false, decide_false, Bool.false_eq_true]
    · simp only [hstat, ne_eq, not_false_eq_true, if_true, decide_true]
      rfl

end Ini

/-! ## What is set -/

namespace SavedConfig
variable (c : SavedConfig)

/-- The record of the transaction and the version of the list. -/
def transactionWrites : List (String × List Char) :=
  [("application:con_no", decInt c.stopTs.connectorNo.toNat),
   ("application:trid", decInt c.stopTs.trId.toInt64.toInt),
   ("application:time_stamp", c.stopTs.timeStamp),
   ("application:meter_stop", decInt c.stopTs.meterStopVal.toInt32.toInt),
   ("application:idtag", c.stopTs.idTag),
   ("application:stop_reason", decInt (UInt32.ofNat c.stopTs.stopReason).toInt32.toInt),
   ("ocpp:local_list_ver", decInt c.localListVer.toInt)]

/-- The entries of the list that are in use. -/
def usedEntries : List (Fin 5) := (List.finRange 5).filter fun i => (c.localListVal i).status ≠ 0

/-- All that `ConfigSavePublic` sets, in order. -/
def writes : List (String × List Char) :=
  c.transactionWrites ++
    ((List.finRange 5).map (fun i => (statusKey i, decInt (c.localListVal i).status.toInt)) ++
      c.usedEntries.map fun i => (idKey i, (c.localListVal i).id))

end SavedConfig

theorem inLong_int32 (x : Int32) : InLong x.toInt := ⟨x.le_toInt, x.toInt_lt⟩

theorem inLong_int8 (x : Int8) : InLong x.toInt := by
  have hlo := x.le_toInt
  have hhi := x.toInt_lt
  exact ⟨by omega, by omega⟩

theorem inLong_uint8 (x : UInt8) : InLong x.toNat := by
  have hlt := x.toNat_lt
  exact ⟨by omega, by omega⟩

/-- With a list to save everything is set, unless the id does not fit `buf`. -/
theorem configSavePublic_eq (ini : Ini) (c : SavedConfig) (hver : 0 < c.localListVer.toInt) :
    configSavePublic ini c =
      if (decInt c.stopTs.trId.toInt64.toInt).length < 20 then some (ini.sets c.writes)
      else none := by
  unfold configSavePublic
  rw [Ini.setNum_of_inLong (inLong_uint8 _)]
  dsimp only [Option.bind_eq_bind, Option.bind_some]
  rw [Ini.setNum_eq]
  split
  · dsimp only [Option.bind_some]
    rw [Ini.setNum_of_inLong (inLong_int32 _)]
    dsimp only [Option.bind_some]
    rw [Ini.setNum_of_inLong (inLong_int32 _)]
    dsimp only [Option.bind_some]
    rw [Ini.setNum_of_inLong (inLong_int32 _)]
    dsimp only [Option.bind_some]
    rw [Ini.foldlM_setNum _ fun i => inLong_int8 (c.localListVal i).status]
    dsimp only [Option.bind_some]
    rw [Ini.foldl_setId]
    unfold SavedConfig.writes
    rw [Ini.sets_append, Ini.sets_append]
    rfl
  · rfl

/-! ## What is read back

The keys that are read are looked up among the keys that are written. All of them are there, except
for those of the statuses, and for the ids of the entries that are not in use. -/

/-- Every key `ConfigSavePublic` may set. -/
def savedKeys : List String :=
  ["application:con_no", "application:trid", "application:time_stamp", "application:meter_stop",
    "application:idtag", "application:stop_reason", "ocpp:local_list_ver"] ++
    ((List.finRange 5).map statusKey ++ (List.finRange 5).map idKey)

theorem nodup_savedKeys : savedKeys.Nodup := by decide

/-- No status is ever set under the key it is read from. -/
theorem loadStatusKey_fresh (i : Fin 5) : loadStatusKey i ∉ savedKeys := by
  revert i
  decide

namespace SavedConfig
variable {c : SavedConfig} {ini : Ini} {key : String}

/-- Only the ids of unused entries are left out. -/
theorem keys_sublist (c : SavedConfig) : (c.writes.map Prod.fst).Sublist savedKeys := by
  unfold writes
  rw [List.map_append, List.map_append, List.map_map, List.map_map]
  exact (List.Sublist.refl _).append
    ((List.Sublist.refl _).append (List.filter_sublist.map idKey))

theorem getstring_writes {val : List Char} (h : (key, val) ∈ c.writes) (notfound : List Char) :
    (ini.sets c.writes).getstring key notfound = cstr val := by
  unfold Ini.getstring
  rw [Ini.sets_mem (nodup_savedKeys.sublist c.keys_sublist) h]
  rfl

theorem getint_writes {n : Int} (h : (key, decInt n) ∈ c.writes) (notfound : Int) :
    (ini.sets c.writes).getint key notfound = strtol (decInt n) := by
  have hval : ini.sets c.writes key = some (cstr (decInt n)) :=
    Ini.sets_mem (nodup_savedKeys.sublist c.keys_sublist) h
  rw [cstr_of_nulFree (nulFree_decInt n)] at hval
  unfold Ini.getint
  rw [hval]

theorem getint_status (i : Fin 5) :
    (ini.sets c.writes).getint (loadStatusKey i) 0 = ini.getint (loadStatusKey i) 0 := by
  unfold Ini.getint
  rw [Ini.sets_other fun h => loadStatusKey_fresh i (c.keys_sublist.subset h)]

theorem mem_writes_id {i : Fin 5} (h : (c.localListVal i).status ≠ 0) :
    (idKey i, (c.localListVal i).id) ∈ c.writes := by
  refine List.mem_append_right _ (List.mem_append_right _ (List.mem_map.mpr ⟨i, ?_, rfl⟩))
  exact List.mem_filter.mpr ⟨List.mem_finRange i, by simpa using h⟩

end SavedConfig

/-- A string that fits comes through `strncpy`. -/
theorem cstr_strncpy {s : List Char} {n : Nat} (h : (cstr s).length < n) :
    cstr (strncpy (cstr s) n) = cstr s := by
  unfold strncpy
  rw [cstr_cstr, List.take_of_length_le h.le, cstr_cstr]

/-- What comes back of an id: itself, if it fits an `int`. -/
theorem trId_back (x : UInt64) :
    (Int64.ofInt (strtol (decInt x.toInt64.toInt))).toUInt64 = x ↔ InLong x.toInt64.toInt := by
  constructor
  · intro h
    rw [strtol_decInt] at h
    have hval : (Int64.ofInt _).toInt = x.toInt64.toInt := congrArg (fun y => y.toInt64.toInt) h
    rw [Int64.toInt_ofInt_of_le (by omega) (by omega)] at hval
    unfold InLong
    omega
  · intro h
    rw [strtol_decInt_of_inLong h, Int64.ofInt_toInt, UInt64.toUInt64_toInt64]

/-! ## Saving and loading -/

/-- The saved configuration `c`, and the one that was loaded. -/
structure Restored (c c' : SavedConfig) : Prop where
  trId : c'.stopTs.trId = c.stopTs.trId
  connectorNo : c'.stopTs.connectorNo = c.stopTs.connectorNo
  timeStamp : cstr c'.stopTs.timeStamp = cstr c.stopTs.timeStamp
  meterStopVal : c'.stopTs.meterStopVal = c.stopTs.meterStopVal
  idTag : cstr c'.stopTs.idTag = cstr c.stopTs.idTag
  stopReason : c'.stopTs.stopReason = c.stopTs.stopReason
  status : ∀ i, (c'.localListVal i).status = (c.localListVal i).status
  id : ∀ i, (c.localListVal i).status ≠ 0 →
    cstr (c'.localListVal i).id = cstr (c.localListVal i).id

/-- Saving succeeds, and loading gives back what was saved. -/
def Restores (ini : Ini) (c : SavedConfig) : Prop :=
  ∃ ini', configSavePublic ini c = some ini' ∧ Restored c (configInit ini')

/-- The id is that of an `int`. -/
def IdFits (trId : UInt64) : Prop := trId.toNat < 2 ^ 31 ∨ 2 ^ 64 - 2 ^ 31 ≤ trId.toNat

instance (trId : UInt64) : Decidable (IdFits trId) := inferInstanceAs (Decidable (_ ∨ _))

theorem idFits_iff (x : UInt64) : IdFits x ↔ InLong x.toInt64.toInt := by
  have hlt := x.toNat_lt
  have hint : x.toInt64.toInt = if 2 * x.toNat < 2 ^ 64 then (x.toNat : Int) else x.toNat - 2 ^ 64 :=
    BitVec.toInt_eq_toNat_cond x.toBitVec
  unfold IdFits InLong
  rw [hint]
  split <;> omega

/-- What is read of the transaction: each number as it was printed, each string as it was set. -/
theorem configInit_writes (ini : Ini) (c : SavedConfig) :
    (configInit (ini.sets c.writes)).stopTs =
      { connectorNo := (Int8.ofInt (strtol (decInt c.stopTs.connectorNo.toNat))).toUInt8
        trId := (Int64.ofInt (strtol (decInt c.stopTs.trId.toInt64.toInt))).toUInt64
        timeStamp := strncpy (cstr c.stopTs.timeStamp) 50
        meterStopVal :=
          (Int32.ofInt (strtol (decInt c.stopTs.meterStopVal.toInt32.toInt))).toUInt32
        idTag := strncpy (cstr c.stopTs.idTag) 21
        stopReason := (Int32.ofInt
          (strtol (decInt (UInt32.ofNat c.stopTs.stopReason).toInt32.toInt))).toUInt32.toNat } := by
  have hmem : ∀ w ∈ c.transactionWrites, w ∈ c.writes := fun w h => List.mem_append_left _ h
  unfold SavedConfig.transactionWrites at hmem
  simp only [List.forall_mem_cons] at hmem
  obtain ⟨hcon, htr, htime, hmeter, htag, hreason, -⟩ := hmem
  unfold configInit
  dsimp only
  rw [SavedConfig.getint_writes hcon, SavedConfig.getint_writes htr,
    SavedConfig.getstring_writes htime, SavedConfig.getint_writes hmeter,
    SavedConfig.getstring_writes htag, SavedConfig.getint_writes hreason]

theorem uint8_back (x : UInt8) : (Int8.ofInt (strtol (decInt x.toNat))).toUInt8 = x := by
  rw [strtol_decInt_of_inLong (inLong_uint8 x)]
  exact UInt8.toBitVec_inj.mp (by simp)

theorem uint32_back (x : UInt32) :
    (Int32.ofInt (strtol (decInt x.toInt32.toInt))).toUInt32 = x := by
  rw [strtol_decInt_of_inLong (inLong_int32 _), Int32.ofInt_toInt, UInt32.toUInt32_toInt32]

/-- All but the id and the statuses comes back whatever it was. -/
theorem restored_iff (ini : Ini) (c : SavedConfig) (hfit : c.Fits) :
    Restored c (configInit (ini.sets c.writes)) ↔ IdFits c.stopTs.trId ∧
      ∀ i, Int8.ofInt (ini.getint (loadStatusKey i) 0) = (c.localListVal i).status := by
  have hstop := configInit_writes ini c
  have hstatus : ∀ i, ((configInit (ini.sets c.writes)).localListVal i).status =
      Int8.ofInt (ini.getint (loadStatusKey i) 0) := by
    intro i
    rw [← SavedConfig.getint_status i]
    rfl
  rw [idFits_iff, ← trId_back]
  constructor
  · intro h
    refine ⟨?_, fun i => ?_⟩
    · have hid := h.trId
      rw [hstop] at hid
      exact hid
    · rw [← hstatus, h.status]
  · rintro ⟨hid, hstat⟩
    -- the other fields come back because they fit
    refine ⟨?_, ?_, ?_, ?_, ?_, ?_, fun i => (hstatus i).trans (hstat i), ?_⟩
    · rw [hstop]
      exact hid
    · rw [hstop]
      exact uint8_back _
    · rw [hstop]
      exact cstr_strncpy hfit.timeStamp
    · rw [hstop]
      exact uint32_back _
    · rw [hstop]
      exact cstr_strncpy hfit.idTag
    · rw [hstop]
      dsimp only
      rw [uint32_back]
      exact UInt32.toNat_ofNat_of_lt' hfit.stopReason
    · intro i hused
      show cstr (strncpy ((ini.sets c.writes).getstring (idKey i) _) 21) = _
      rw [SavedConfig.getstring_writes (SavedConfig.mem_writes_id hused)]
      exact cstr_strncpy (hfit.id i)

theorem Restores.restored {ini : Ini} {c : SavedConfig} (hver : 0 < c.localListVer.toInt)
    (h : Restores ini c) : Restored c (configInit (ini.sets c.writes)) := by
  obtain ⟨ini', hsave, h⟩ := h
  rw [configSavePublic_eq ini c hver] at hsave
  split at hsave
  · cases hsave
    exact h
  · cases hsave

/-- **When saving and loading restores the configuration.** -/
theorem config_restored_iff (ini : Ini) (c : SavedConfig) (hfit : c.Fits)
    (hver : 0 < c.localListVer.toInt) :
    Restores ini c ↔ IdFits c.stopTs.trId ∧
      ∀ i, Int8.ofInt (ini.getint (loadStatusKey i) 0) = (c.localListVal i).status := by
  rw [← restored_iff ini c hfit]
  constructor
  · exact Restores.restored hver
  · intro h
    have hlong := (idFits_iff _).mp ((restored_iff ini c hfit).mp h).1
    obtain ⟨hlo, hhi⟩ := hlong
    refine ⟨_, ?_, h⟩
    rw [configSavePublic_eq ini c hver, if_pos (decInt_length_lt ⟨by omega, by omega⟩)]

/-- A stopped transaction, and one card in the list with the given status. -/
def savedExample (trId : UInt64) (status : Int8) : SavedConfig where
  stopTs :=
    { trId, connectorNo := 1, timeStamp := "2024-05-01T10:20:30.000Z".toList,
      meterStopVal := 0xFFFFFFFF, idTag := "1234567890123456".toList,
      stopReason := stopReasonPower }
  localListVer := 1
  localListVal i := if i = 0 then ⟨status, "04A1B2C3".toList⟩ else ⟨0, []⟩

theorem savedExample_fits (trId : UInt64) (status : Int8) : (savedExample trId status).Fits where
  timeStamp := by
    show (cstr "2024-05-01T10:20:30.000Z".toList).length < 50
    decide
  idTag := by
    show (cstr "1234567890123456".toList).length < 21
    decide
  stopReason := by
    show stopReasonPower < 2 ^ 32
    decide
  id := by
    intro i
    show (cstr (if i = 0 then ⟨status, _⟩ else _ : LocalLisVal).id).length < 21
    split
    · show (cstr "04A1B2C3".toList).length < 21
      decide
    · decide

theorem config_restored_small : Restores (fun _ => none) (savedExample 4711 0) :=
  (config_restored_iff _ _ (savedExample_fits _ _) (by decide)).mpr ⟨by decide, by decide⟩

/-- A card with status 1 comes back with status 0; the transaction 2147483648 as 2147483647. -/
theorem config_lost :
    ¬ Restores (fun _ => none) (savedExample 4711 1) ∧
      ¬ Restores (fun _ => none) (savedExample 2147483648 0) := by
  constructor
  · intro h
    have hstat := ((restored_iff _ _ (savedExample_fits _ _)).mp (h.restored (by decide))).2 0
    exact absurd hstat (by decide)
  · intro h
    have hid := ((restored_iff _ _ (savedExample_fits _ _)).mp (h.restored (by decide))).1
    exact absurd hid (by decide)

end ChargePoint
