import Mathlib.Algebra.Ring.Nat
import Mathlib.Data.List.TakeWhile

/-!
# Character buffers as C sees them

A `char` array is the list of its leading characters; every position past the list
is zero. So `memset(buf, 0, sizeof buf)` is `[]`, and a write may leave a gap of
zeros behind it (`put`). What `strcat`, `strcmp` and `%s` read of a buffer is the
part before the first zero, `cstr`.

The size of an array is not part of the representation: whoever writes at an index
checks it first, and answers `none` when the array has no such element.
-/

set_option autoImplicit false

namespace CStr

/-- The terminating zero. -/
def nul : Char := Char.ofNat 0

/-- The string a buffer holds: everything before its first zero. -/
def cstr (b : List Char) : List Char := b.takeWhile (fun c => c ≠ nul)

/-- `buf[i] = c`. -/
def put (b : List Char) (i : Nat) (c : Char) : List Char :=
  if i < b.length then b.set i c else b ++ List.replicate (i - b.length) nul ++ [c]

/-- No zero inside: the buffer is its own string. -/
def NulFree (b : List Char) : Prop := ∀ c ∈ b, c ≠ nul

/-- What is asked of the characters of a buffer is decided along the buffer. There is a decision
procedure for all characters, too: it tries a million of them. -/
instance decidableBAllChar (p : Char → Prop) [DecidablePred p] (b : List Char) :
    Decidable (∀ c ∈ b, p c) := List.decidableBAll p b

instance (b : List Char) : Decidable (NulFree b) := by unfold NulFree; infer_instance

@[simp] theorem cstr_nil : cstr [] = [] := rfl

theorem cstr_of_nulFree {b : List Char} (h : NulFree b) : cstr b = b := by
  unfold cstr
  rw [List.takeWhile_eq_self_iff]
  intro c hc
  simpa using h c hc

theorem nulFree_cstr (b : List Char) : NulFree (cstr b) := by
  intro c hc
  have := List.mem_takeWhile_imp hc
  simpa using this

@[simp] theorem nulFree_nil : NulFree [] := by
  intro c hc
  exact absurd hc List.not_mem_nil

@[simp] theorem nulFree_cons {c : Char} {b : List Char} :
    NulFree (c :: b) ↔ c ≠ nul ∧ NulFree b := by
  simp [NulFree]

@[simp] theorem nulFree_append {a b : List Char} :
    NulFree (a ++ b) ↔ NulFree a ∧ NulFree b := by
  simp [NulFree, or_imp, forall_and]

@[simp] theorem cstr_cstr (b : List Char) : cstr (cstr b) = cstr b :=
  cstr_of_nulFree (nulFree_cstr b)

/-- Writing just past the end appends. -/
@[simp] theorem put_length (b : List Char) (c : Char) : put b b.length c = b ++ [c] := by
  simp [put]

theorem put_of_length_eq {b : List Char} {i : Nat} (c : Char) (h : i = b.length) :
    put b i c = b ++ [c] := by
  rw [h, put_length]

/-! ## A buffer byte by byte -/

theorem cstr_cons (c : Char) (b : List Char) :
    cstr (c :: b) = if c = nul then [] else c :: cstr b := by
  by_cases hc : c = nul
  · rw [if_pos hc]
    exact List.takeWhile_cons_of_neg (by simpa using hc)
  · rw [if_neg hc]
    exact List.takeWhile_cons_of_pos (by simpa using hc)

/-- A buffer holds a string when it starts with it, and a zero follows. -/
theorem cstr_eq_iff {a t : List Char} (ht : NulFree t) :
    cstr a = t ↔ (∀ i < t.length, a.getD i nul = t.getD i nul) ∧ a.getD t.length nul = nul := by
  induction t generalizing a with
  | nil =>
    cases a with
    | nil => simp
    | cons d a => by_cases hd : d = nul <;> simp [cstr_cons, hd]
  | cons c t ih =>
    rw [nulFree_cons] at ht
    cases a with
    | nil =>
      refine ⟨fun h => by simp at h, fun h => ?_⟩
      exact absurd (h.1 0 (Nat.zero_lt_succ _)).symm ht.1
    | cons d a =>
      rw [cstr_cons]
      constructor
      · intro h
        split at h
        · cases h
        · obtain ⟨rfl, hrest⟩ := List.cons.inj h
          obtain ⟨hin, hend⟩ := (ih ht.2).mp hrest
          refine ⟨fun i hi => ?_, hend⟩
          cases i with
          | zero => rfl
          | succ i => exact hin i (Nat.lt_of_succ_lt_succ hi)
      · rintro ⟨hin, hend⟩
        obtain rfl : d = c := hin 0 (Nat.zero_lt_succ _)
        rw [if_neg ht.1]
        have hrest := (ih ht.2).mpr ⟨fun i hi => hin (i + 1) (Nat.succ_lt_succ hi), hend⟩
        rw [hrest]

/-- The string of a buffer that starts with a string starts with it. -/
theorem prefix_cstr_iff {a t : List Char} (ht : NulFree t) :
    t <+: cstr a ↔ ∀ i < t.length, a.getD i nul = t.getD i nul := by
  induction t generalizing a with
  | nil => simp
  | cons c t ih =>
    rw [nulFree_cons] at ht
    cases a with
    | nil =>
      refine ⟨fun h => by simp at h, fun h => ?_⟩
      exact absurd (h 0 (Nat.zero_lt_succ _)).symm ht.1
    | cons d a =>
      rw [cstr_cons]
      constructor
      · intro h
        split at h
        · simp at h
        · obtain ⟨rfl, hrest⟩ := List.cons_prefix_cons.mp h
          intro i hi
          cases i with
          | zero => rfl
          | succ i => exact (ih ht.2).mp hrest i (Nat.lt_of_succ_lt_succ hi)
      · intro hin
        obtain rfl : d = c := hin 0 (Nat.zero_lt_succ _)
        rw [if_neg ht.1, List.cons_prefix_cons]
        exact ⟨rfl, (ih ht.2).mpr fun i hi => hin (i + 1) (Nat.succ_lt_succ hi)⟩

/-- Buffers that agree on their first bytes agree on the string as far as it lies there. -/
theorem take_cstr_eq {a b : List Char} {n : Nat} (h : ∀ i < n, a.getD i nul = b.getD i nul) :
    (cstr a).take n = (cstr b).take n := by
  induction n generalizing a b with
  | zero => rw [List.take_zero, List.take_zero]
  | succ n ih =>
    have hhead := h 0 (Nat.succ_pos n)
    cases a with
    | nil =>
      cases b with
      | nil => rfl
      | cons y b =>
        have hy : y = nul := hhead.symm
        rw [cstr_cons, if_pos hy, cstr_nil]
    | cons x a =>
      cases b with
      | nil =>
        have hx : x = nul := hhead
        rw [cstr_cons, if_pos hx, cstr_nil]
      | cons y b =>
        obtain rfl : x = y := hhead
        rw [cstr_cons, cstr_cons]
        split
        · rfl
        · rw [List.take_succ_cons, List.take_succ_cons,
            ih fun i hi => h (i + 1) (Nat.succ_lt_succ hi)]

/-! ## Separators -/

/-- The items one after the other, a comma between any two. -/
def commas : List (List Char) → List Char
  | [] => []
  | x :: xs => x ++ xs.flatMap (fun y => ',' :: y)

@[simp] theorem commas_nil : commas [] = [] := rfl

theorem commas_cons (x : List Char) (xs : List (List Char)) :
    commas (x :: xs) = x ++ xs.flatMap (fun y => ',' :: y) := rfl

theorem commas_singleton (x : List Char) : commas [x] = x := List.append_nil x

theorem commas_cons_cons (x y : List Char) (ys : List (List Char)) :
    commas (x :: y :: ys) = x ++ ',' :: commas (y :: ys) := by
  simp [commas]

/-! ## Numbers -/

/-- `%u`, `%lu`, `%llu`. -/
def dec (n : Nat) : List Char := Nat.toDigits 10 n

/-- `%d`. -/
def decInt : Int → List Char
  | .ofNat n => dec n
  | .negSucc n => '-' :: dec (n + 1)

/-- `%02d` of a non-negative number. -/
def dec02 (n : Nat) : List Char :=
  if n < 10 then '0' :: dec n else dec n

/-- The number a decimal numeral writes. -/
def decVal (ds : List Char) : Nat := Nat.ofDigitChars 10 ds 0

@[simp] theorem decVal_dec (n : Nat) : decVal (dec n) = n := by
  simp [decVal, dec, Nat.ofDigitChars_ten_toDigits]

theorem dec_isDigit {n : Nat} {c : Char} (h : c ∈ dec n) : c.isDigit = true :=
  Nat.isDigit_of_mem_toDigits (by decide) (by decide) h

theorem nulFree_dec (n : Nat) : NulFree (dec n) := by
  intro c hc heq
  have hdigit := dec_isDigit hc
  rw [heq] at hdigit
  exact absurd hdigit (by decide)

theorem dec_ne_nil (n : Nat) : dec n ≠ [] := Nat.toDigits_ne_nil

end CStr
