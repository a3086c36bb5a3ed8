import ChargePoint.Lib.Memory
import Mathlib.Data.List.Infix

/-!
# The data files

`CstFileSave` puts what it saves between `FilePrefix` and a trailer that names the kind of file;
`CstFileRead` looks for both and hands out what is between them. The trailers are not of one
length, and what is saved may look like any of them. What decides is that no trailer ends in
another one (`trailer_unique`). The file of kind 4 also has a count in front of its trailer.

`malloc`, `fread` and `fwrite` are taken to succeed.
-/

set_option autoImplicit false

namespace ChargePoint

open Memory (Mem copy)

/-- The bytes of an array of characters. -/
def charBytes (cs : List Char) : List UInt8 := cs.map fun c => UInt8.ofNat c.toNat

def filePrefix : List UInt8 := charBytes ['c', 'o', 's', 't', 'e', 'l']
def unitCost : List UInt8 := charBytes ['u', 'n', 'i', 't', 'c', 'o', 's', 't']
def userInfo : List UInt8 := charBytes ['u', 's', 'e', 'r', 'i', 'n', 'f', 'o']
def notSent : List UInt8 := charBytes ['n', 'o', 't', 's', 'e', 'n', 't']
def dayData : List UInt8 := charBytes ['d', 'a', 'y', 'd', 'a', 't', 'a']
def chargEnd : List UInt8 := charBytes ['c', 'h', 'a', 'r', 'e', 'e', 'n', 'd']

/-- The files, and what is kept beside them. -/
structure DataFiles where
  file : String → Option (List UInt8)
  /-- whether `fopen` opens it to write -/
  writable : String → Bool
  /-- `gChargedDataFrame.nCount` -/
  nCount : UInt8

/-- What a call of `CstFileRead` leaves: the value it returns, the memory from `rBuf` on and the
files. -/
structure ReadOutcome where
  ret : Int
  rBuf : Option (Mem UInt8)
  files : DataFiles

/-- `strncmp(a, b, n) == 0`. -/
def strncmpEq : Nat → List UInt8 → List UInt8 → Bool
  | 0, _, _ => true
  | n + 1, a, b =>
    a.headD 0 = b.headD 0 && (a.headD 0 = 0 || strncmpEq n a.tail b.tail)

/-- `memcpy(rBuf, src, n)`. -/
def memcpyTo (rBuf : Mem UInt8) (src : List UInt8) (n : Nat) : Mem UInt8 :=
  copy rBuf 0 n fun i => src.getD i 0

/-! ## Reading -/

/-- The three tests of a case of `CstFileRead`. -/
def isFramed (trailer mem : List UInt8) : Bool :=
  mem.length > filePrefix.length + trailer.length &&
    strncmpEq filePrefix.length mem filePrefix &&
    strncmpEq trailer.length (mem.drop (mem.length - trailer.length)) trailer

/-- The cases 0 to 3. -/
def readCase (d : DataFiles) (rBuf : Mem UInt8) (trailer mem : List UInt8) : ReadOutcome :=
  if isFramed trailer mem then
    let n := mem.length - filePrefix.length - trailer.length
    ⟨n, some (memcpyTo rBuf (mem.drop filePrefix.length) n), d⟩
  else ⟨-1, some rBuf, d⟩

/-- The case 4. -/
def readChargEnd (d : DataFiles) (rBuf : Mem UInt8) (mem : List UInt8) : ReadOutcome :=
  if isFramed chargEnd mem then
    let n := mem.length - filePrefix.length - chargEnd.length - 1
    ⟨n, some (memcpyTo rBuf (mem.drop filePrefix.length) n),
      { d with nCount := mem.getD (mem.length - chargEnd.length - 1) 0 + 1 }⟩
  else ⟨-1, some rBuf, d⟩

/-- **`CstFileRead`.** -/
def cstFileRead (d : DataFiles) (nNo : Int) (rBuf : Option (Mem UInt8)) (sFileName : String) :
    ReadOutcome :=
  match rBuf, d.file sFileName with
  | none, _ => ⟨-1, none, d⟩
  | some rBuf, none => ⟨-1, some rBuf, d⟩
  | some rBuf, some mem =>
    match nNo with
    | 0 => readCase d rBuf unitCost mem
    | 1 => readCase d rBuf userInfo mem
    | 2 => readCase d rBuf notSent mem
    | 3 => readCase d rBuf dayData mem
    | 4 => readChargEnd d rBuf mem
    | _ => ⟨-1, some rBuf, d⟩

/-! ## Saving -/

/-- The cases 0 to 3 of `CstFileSave`: what is in the file afterwards. To add is to start over, as
both modes of `fopen` empty the file; the place before its end that is sought is then negative,
which `fseek` refuses. -/
def saveCase (bAdd : Bool) (trailer wBuf : List UInt8) : List UInt8 :=
  if bAdd then wBuf ++ trailer else filePrefix ++ wBuf ++ trailer

/-- The file is written, and its length returned. -/
def DataFiles.write (d : DataFiles) (sFileName : String) (mem : List UInt8) : Int × DataFiles :=
  (mem.length,
    { d with file := fun name => if name = sFileName then some mem else d.file name })

/-- **`CstFileSave`** of the bytes `wBuf`. Undefined where it seeks in a file that did not open, and
for a kind it does not know, where it frees what it never allocated. -/
def cstFileSave (d : DataFiles) (nNo : Int) (bAdd : Bool) (wBuf : List UInt8)
    (sFileName : String) : Option (Int × DataFiles) :=
  if d.writable sFileName then
    match nNo with
    | 0 => some (d.write sFileName (saveCase bAdd unitCost wBuf))
    | 1 => some (d.write sFileName (saveCase bAdd userInfo wBuf))
    | 2 => some (d.write sFileName (saveCase bAdd notSent wBuf))
    | 3 => some (d.write sFileName (saveCase bAdd dayData wBuf))
    | 4 => some ({ d with nCount := d.nCount + 1 }.write sFileName
        (filePrefix ++ wBuf ++ [d.nCount] ++ chargEnd))
    | _ => none
  else if bAdd then some (-1, d)
  else none

/-! ## Markers -/

/-- The trailer of a kind of file. -/
def fileTrailer (nNo : Int) : Option (List UInt8) :=
  match nNo with
  | 0 => some unitCost
  | 1 => some userInfo
  | 2 => some notSent
  | 3 => some dayData
  | 4 => some chargEnd
  | _ => none

theorem fileTrailer_cases {n : Int} {t : List UInt8} (h : fileTrailer n = some t) :
    n = 0 ∧ t = unitCost ∨ n = 1 ∧ t = userInfo ∨ n = 2 ∧ t = notSent ∨ n = 3 ∧ t = dayData ∨
      n = 4 ∧ t = chargEnd := by
  unfold fileTrailer at h
  split at h <;> simp_all

/-- The trailers, by number. -/
def fileTrailers : List (List UInt8) := [unitCost, userInfo, notSent, dayData, chargEnd]

theorem fileTrailer_mem {n : Int} {t : List UInt8} (h : fileTrailer n = some t) :
    t ∈ fileTrailers := by
  obtain ⟨-, rfl⟩ | ⟨-, rfl⟩ | ⟨-, rfl⟩ | ⟨-, rfl⟩ | ⟨-, rfl⟩ := fileTrailer_cases h <;>
    simp [fileTrailers]

theorem fileTrailer_injective {m n : Int} {t : List UInt8} (hm : fileTrailer m = some t)
    (hn : fileTrailer n = some t) : m = n := by
  rcases fileTrailer_cases hm with ⟨rfl, rfl⟩ | ⟨rfl, rfl⟩ | ⟨rfl, rfl⟩ | ⟨rfl, rfl⟩ | ⟨rfl, rfl⟩ <;>
    rcases fileTrailer_cases hn with ⟨rfl, h⟩ | ⟨rfl, h⟩ | ⟨rfl, h⟩ | ⟨rfl, h⟩ | ⟨rfl, h⟩ <;>
    first
      | rfl
      | exact absurd h (by decide)

/-- **No trailer ends in another one.** -/
theorem trailer_unique : ∀ t ∈ fileTrailers, ∀ t' ∈ fileTrailers, t <:+ t' → t = t' := by
  decide

/-- Neither has a zero in it. -/
theorem marker_ne_zero : 0 ∉ filePrefix ∧ ∀ t ∈ fileTrailers, (0 : UInt8) ∉ t := by
  decide

/-- `strncmp` of the length of a marker asks whether the marker stands there. -/
theorem strncmpEq_iff {a b : List UInt8} (hb : (0 : UInt8) ∉ b) :
    strncmpEq b.length a b = true ↔ b <+: a := by
  induction b generalizing a with
  | nil => simp [strncmpEq]
  | cons c b ih =>
    have hc : c ≠ 0 := fun hzero => hb (hzero ▸ List.mem_cons_self)
    have hrest := ih (a := a.tail) fun hzero => hb (List.mem_cons_of_mem c hzero)
    cases a with
    | nil => simp [strncmpEq, hc.symm]
    | cons x a =>
      rw [List.cons_prefix_cons]
      simp only [strncmpEq, List.length_cons, Bool.and_eq_true, Bool.or_eq_true, decide_eq_true_eq]
      show x = c ∧ (x = 0 ∨ strncmpEq b.length a b = true) ↔ c = x ∧ b <+: a
      rw [List.tail_cons] at hrest
      rw [hrest]
      constructor
      · rintro ⟨heq, hzero | hpre⟩
        · exact absurd (heq ▸ hzero) hc
        · exact ⟨heq.symm, hpre⟩
      · rintro ⟨heq, hpre⟩
        exact ⟨heq.symm, .inr hpre⟩

section Framed
variable {t mem : List UInt8} (ht : t ∈ fileTrailers)
include ht

/-- **A file passes the tests** when it is something between the two markers. -/
theorem isFramed_iff :
    isFramed t mem = true ↔ ∃ data, data ≠ [] ∧ mem = filePrefix ++ data ++ t := by
  have hprefix := strncmpEq_iff (a := mem) marker_ne_zero.1
  have htrailer := strncmpEq_iff (a := mem.drop (mem.length - t.length)) (marker_ne_zero.2 t ht)
  unfold isFramed
  rw [Bool.and_eq_true, Bool.and_eq_true, decide_eq_true_eq, hprefix, htrailer]
  constructor
  · rintro ⟨⟨hlen, rest, rfl⟩, hend⟩
    rw [List.length_append] at hlen
    have hall : (filePrefix ++ rest).drop ((filePrefix ++ rest).length - t.length) = t := by
      refine (hend.eq_of_length ?_).symm
      rw [List.length_drop, List.length_append]
      omega
    have hplace : (filePrefix ++ rest).length - t.length =
        filePrefix.length + (rest.length - t.length) := by
      rw [List.length_append]
      omega
    rw [hplace, List.drop_length_add_append] at hall
    refine ⟨rest.take (rest.length - t.length), ?_, ?_⟩
    · rw [← List.length_pos_iff, List.length_take]
      omega
    · rw [List.append_assoc]
      conv_lhs => rw [← List.take_append_drop (rest.length - t.length) rest, hall]
  · rintro ⟨data, hne, rfl⟩
    have hpos := List.length_pos_iff.mpr hne
    refine ⟨⟨?_, ?_⟩, ?_⟩
    · simp only [List.length_append]
      omega
    · rw [List.append_assoc]
      exact List.prefix_append _ _
    · rw [List.length_append, Nat.add_sub_cancel, List.drop_left]

/-- A file that ends in the trailer of another kind does not pass. -/
theorem not_isFramed {t' : List UInt8} (ht' : t' ∈ fileTrailers) (hne : t ≠ t') (l : List UInt8) :
    isFramed t (l ++ t') = false := by
  rw [Bool.eq_false_iff]
  intro hframed
  obtain ⟨data, -, hmem⟩ := (isFramed_iff ht).mp hframed
  have hown : t <:+ l ++ t' := ⟨filePrefix ++ data, hmem.symm⟩
  rcases List.suffix_or_suffix_of_suffix hown (List.suffix_append l t') with h | h
  · exact hne (trailer_unique t ht t' ht' h)
  · exact hne (trailer_unique t' ht' t ht h).symm

end Framed

/-! ## The round trip -/

section RoundTrip
variable {d : DataFiles} {rBuf : Mem UInt8} {sFileName : String}

/-- What is copied out of a file that continues with `buf`. -/
theorem memcpyTo_append (rBuf : Mem UInt8) (buf rest : List UInt8) (i : Nat) :
    memcpyTo rBuf (buf ++ rest) buf.length i =
      if i < buf.length then buf.getD i 0 else rBuf i := by
  unfold memcpyTo
  split
  · rw [Memory.copy_in (Nat.zero_le i) (by omega), Nat.sub_zero, List.getD_eq_getElem?_getD,
      List.getD_eq_getElem?_getD, List.getElem?_append_left ‹i < buf.length›]
  · exact Memory.copy_out (by omega)

/-- A file of another kind, or of none, is turned down. -/
theorem cstFileRead_other {n m : Int} {t l : List UInt8} (ht : fileTrailer n = some t)
    (hfile : d.file sFileName = some (l ++ t)) (hne : m ≠ n) :
    cstFileRead d m (some rBuf) sFileName = ⟨-1, some rBuf, d⟩ := by
  have hno : ∀ t', fileTrailer m = some t' → isFramed t' (l ++ t) = false := by
    intro t' ht'
    refine not_isFramed (fileTrailer_mem ht') (fileTrailer_mem ht) (fun heq => hne ?_) l
    exact fileTrailer_injective (heq ▸ ht') ht
  unfold cstFileRead
  rw [hfile]
  dsimp only
  split
  · exact if_neg (Bool.eq_false_iff.mp (hno unitCost rfl))
  · exact if_neg (Bool.eq_false_iff.mp (hno userInfo rfl))
  · exact if_neg (Bool.eq_false_iff.mp (hno notSent rfl))
  · exact if_neg (Bool.eq_false_iff.mp (hno dayData rfl))
  · exact if_neg (Bool.eq_false_iff.mp (hno chargEnd rfl))
  · rfl

/-- A case of 0 to 3, on the file that was saved. -/
theorem readCase_saved {t buf : List UInt8} (ht : t ∈ fileTrailers) (hbuf : buf ≠ []) :
    readCase d rBuf t (filePrefix ++ buf ++ t) =
      ⟨buf.length, some (memcpyTo rBuf (buf ++ t) buf.length), d⟩ := by
  have hframed : isFramed t (filePrefix ++ buf ++ t) = true :=
    (isFramed_iff ht).mpr ⟨buf, hbuf, rfl⟩
  have hlen : (filePrefix ++ buf ++ t).length - filePrefix.length - t.length = buf.length := by
    rw [List.length_append, List.length_append]
    omega
  unfold readCase
  rw [if_pos hframed, hlen, List.append_assoc, List.drop_left]

/-- Case 4, on the file that was saved. -/
theorem readChargEnd_saved {buf : List UInt8} (nCount : UInt8) :
    readChargEnd d rBuf (filePrefix ++ buf ++ [nCount] ++ chargEnd) =
      ⟨buf.length, some (memcpyTo rBuf (buf ++ ([nCount] ++ chargEnd)) buf.length),
        { d with nCount := nCount + 1 }⟩ := by
  have hmem : filePrefix ++ buf ++ [nCount] ++ chargEnd =
      filePrefix ++ (buf ++ [nCount]) ++ chargEnd := by simp
  have hframed : isFramed chargEnd (filePrefix ++ buf ++ [nCount] ++ chargEnd) = true :=
    (isFramed_iff (by decide)).mpr ⟨buf ++ [nCount], by simp, hmem⟩
  have hlen : (filePrefix ++ buf ++ [nCount] ++ chargEnd).length - filePrefix.length -
      chargEnd.length - 1 = buf.length := by
    simp only [List.length_append, List.length_singleton]
    omega
  have hplace : (filePrefix ++ buf ++ [nCount] ++ chargEnd).length - chargEnd.length - 1 =
      (filePrefix ++ buf).length := by
    simp only [List.length_append, List.length_singleton]
    omega
  have hcount : (filePrefix ++ buf ++ [nCount] ++ chargEnd).getD (filePrefix ++ buf).length 0 =
      nCount := by
    rw [List.append_assoc, List.getD_eq_getElem?_getD, List.getElem?_append_right (Nat.le_refl _),
      Nat.sub_self]
    rfl
  have hdrop : (filePrefix ++ buf ++ [nCount] ++ chargEnd).drop filePrefix.length =
      buf ++ ([nCount] ++ chargEnd) := by
    rw [List.append_assoc, List.append_assoc, List.drop_left]
  unfold readChargEnd
  rw [if_pos hframed, hlen, hplace, hcount, hdrop]

section Plain
variable {n : Int} {t : List UInt8} (ht : fileTrailer n = some t) (hplain : n ≠ 4)
include ht hplain

/-- The kinds without a count. -/
theorem cstFileSave_plain (hopen : d.writable sFileName = true) (buf : List UInt8) :
    cstFileSave d n false buf sFileName =
      some (d.write sFileName (filePrefix ++ buf ++ t)) := by
  unfold cstFileSave
  rw [if_pos hopen]
  obtain ⟨rfl, rfl⟩ | ⟨rfl, rfl⟩ | ⟨rfl, rfl⟩ | ⟨rfl, rfl⟩ | ⟨rfl, -⟩ := fileTrailer_cases ht
  · rfl
  · rfl
  · rfl
  · rfl
  · exact absurd rfl hplain

theorem cstFileRead_plain {mem : List UInt8} (rBuf : Mem UInt8) (hfile : d.file sFileName = some mem) :
    cstFileRead d n (some rBuf) sFileName = readCase d rBuf t mem := by
  unfold cstFileRead
  rw [hfile]
  obtain ⟨rfl, rfl⟩ | ⟨rfl, rfl⟩ | ⟨rfl, rfl⟩ | ⟨rfl, rfl⟩ | ⟨rfl, -⟩ := fileTrailer_cases ht
  · rfl
  · rfl
  · rfl
  · rfl
  · exact absurd rfl hplain

end Plain

theorem cstFileRead_chargEnd {mem : List UInt8} (rBuf : Mem UInt8)
    (hfile : d.file sFileName = some mem) :
    cstFileRead d 4 (some rBuf) sFileName = readChargEnd d rBuf mem := by
  unfold cstFileRead
  rw [hfile]
  rfl

theorem write_file (d : DataFiles) (sFileName : String) (mem : List UInt8) :
    (d.write sFileName mem).2.file sFileName = some mem := if_pos rfl

end RoundTrip

/-- **What was saved is read back**: the length, the bytes and nothing beyond them, and for kind 4
the count that was saved and one more. Asked for another kind, `CstFileRead` returns -1 and
touches neither the buffer nor the count. -/
theorem dataFile_round_trip (d : DataFiles) (sFileName : String) (n : Int) (hn : 0 ≤ n ∧ n ≤ 4)
    (buf : List UInt8) (hbuf : buf ≠ []) (hopen : d.writable sFileName = true) (rBuf : Mem UInt8) :
    ∃ ret d', cstFileSave d n false buf sFileName = some (ret, d') ∧
      (∃ rBuf' d'', cstFileRead d' n (some rBuf) sFileName = ⟨buf.length, some rBuf', d''⟩ ∧
        (∀ i, rBuf' i = if i < buf.length then buf.getD i 0 else rBuf i) ∧
        (n = 4 → d''.nCount = d.nCount + 1)) ∧
      ∀ m : Int, m ≠ n → cstFileRead d' m (some rBuf) sFileName = ⟨-1, some rBuf, d'⟩ := by
  obtain ⟨t, ht⟩ : ∃ t, fileTrailer n = some t := by
    have hkind : n = 0 ∨ n = 1 ∨ n = 2 ∨ n = 3 ∨ n = 4 := by omega
    obtain rfl | rfl | rfl | rfl | rfl := hkind <;> exact ⟨_, rfl⟩
  by_cases hplain : n = 4
  · subst hplain
    obtain rfl : chargEnd = t := Option.some.inj ht
    have hfile := write_file { d with nCount := d.nCount + 1 } sFileName
      (filePrefix ++ buf ++ [d.nCount] ++ chargEnd)
    have hread := (cstFileRead_chargEnd rBuf hfile).trans (readChargEnd_saved d.nCount)
    exact ⟨_, _, if_pos hopen, ⟨_, _, hread, memcpyTo_append rBuf buf ([d.nCount] ++ chargEnd),
      fun _ => rfl⟩, fun m hm => cstFileRead_other ht hfile hm⟩
  · have hfile := write_file d sFileName (filePrefix ++ buf ++ t)
    have hread := (cstFileRead_plain ht hplain rBuf hfile).trans
      (readCase_saved (fileTrailer_mem ht) hbuf)
    exact ⟨_, _, cstFileSave_plain ht hplain hopen buf, ⟨_, _, hread, memcpyTo_append rBuf buf t,
      fun h => absurd h hplain⟩, fun m hm => cstFileRead_other ht hfile hm⟩

/-- A charge that ended, whose bytes are a trailer. -/
theorem dataFile_round_trip_chargEnd : ∃ ret d',
    cstFileSave ⟨fun _ => none, fun _ => true, 7⟩ 4 false unitCost "chargend.dat" = some (ret, d') ∧
      ∃ rBuf' d'', cstFileRead d' 4 (some fun _ => 0) "chargend.dat" = ⟨8, some rBuf', d''⟩ ∧
        d''.nCount = 8 := by
  obtain ⟨ret, d', hsave, ⟨rBuf', d'', hread, -, hcount⟩, -⟩ := dataFile_round_trip
    ⟨fun _ => none, fun _ => true, 7⟩ "chargend.dat" 4 (by decide) unitCost (by decide) rfl fun _ => 0
  exact ⟨ret, d', hsave, rBuf', d'', hread, hcount rfl⟩

end ChargePoint
