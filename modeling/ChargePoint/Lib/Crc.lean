import Mathlib.Algebra.Group.Nat.Defs

/-!
# Cyclic redundancy checks

A register of `w` bits takes in a byte at its low end and shifts it out bit by bit, with the
polynomial added whenever a 1 leaves. `shift_split` is why a table of 256 entries is enough:
shifting is linear, and what stands above the byte comes down unchanged.

The second half is the register that takes the byte in at its high end. Read from the other end
it is the first one (`up_reverse`), which is how it inherits everything.
-/

set_option autoImplicit false

namespace Crc

variable {w : Nat} (p : BitVec w)

/-- Shift out one bit. -/
def shift1 (x : BitVec w) : BitVec w := x >>> 1 ^^^ if x.getLsbD 0 then p else 0

/-- Shift out `k` bits. -/
def shift : Nat → BitVec w → BitVec w
  | 0, x => x
  | k + 1, x => shift k (shift1 p x)

/-- Take in one byte. -/
def byte (x : BitVec w) (b : BitVec 8) : BitVec w := shift p 8 (x ^^^ b.setWidth w)

/-- The register after a message. -/
def crc (x : BitVec w) (bs : List (BitVec 8)) : BitVec w := bs.foldl (byte p) x

variable {x y : BitVec w}

theorem shift1_xor (x y : BitVec w) : shift1 p (x ^^^ y) = shift1 p x ^^^ shift1 p y := by
  unfold shift1
  rw [BitVec.ushiftRight_xor_distrib, BitVec.getLsbD_xor]
  cases x.getLsbD 0 with
  | false => simp [BitVec.xor_assoc]
  | true =>
    cases y.getLsbD 0 with
    | false =>
      simp only [Bool.xor_false, if_true, Bool.false_eq_true, if_false]
      ac_rfl
    | true =>
      have hcancel : p ^^^ p = 0 := BitVec.xor_self
      have hassoc : x >>> 1 ^^^ p ^^^ (y >>> 1 ^^^ p) = x >>> 1 ^^^ y >>> 1 ^^^ (p ^^^ p) := by
        ac_rfl
      simp only [Bool.xor_self, if_true, Bool.false_eq_true, if_false]
      rw [hassoc, hcancel]

theorem shift_xor (k : Nat) (x y : BitVec w) :
    shift p k (x ^^^ y) = shift p k x ^^^ shift p k y := by
  induction k generalizing x y with
  | zero => rfl
  | succ k ih =>
    unfold shift
    rw [shift1_xor, ih]

/-- Zeros leave without a trace. -/
theorem shift_zeros {k : Nat} (h : ∀ i < k, x.getLsbD i = false) : shift p k x = x >>> k := by
  induction k generalizing x with
  | zero => rfl
  | succ k ih =>
    have hone : shift1 p x = x >>> 1 := by
      unfold shift1
      rw [h 0 (Nat.succ_pos k)]
      simp
    unfold shift
    rw [hone, ih fun i hi => ?_, ← BitVec.shiftRight_add, Nat.add_comm]
    rw [BitVec.getLsbD_ushiftRight, Nat.add_comm]
    exact h (i + 1) (by omega)

/-- The last byte, taken away. -/
theorem low_cancel (x : BitVec w) :
    ∀ i < 8, (x ^^^ (x.setWidth 8).setWidth w).getLsbD i = false := by
  intro i hi
  rw [BitVec.getLsbD_xor, BitVec.getLsbD_setWidth, BitVec.getLsbD_setWidth]
  by_cases hw : i < w
  · simp [hi, hw]
  · simp [hw, BitVec.getLsbD_of_ge x i (by omega)]

theorem above_low (x : BitVec w) : (x ^^^ (x.setWidth 8).setWidth w) >>> 8 = x >>> 8 := by
  apply BitVec.eq_of_getLsbD_eq
  intro i hi
  simp only [BitVec.getLsbD_ushiftRight, BitVec.getLsbD_xor, BitVec.getLsbD_setWidth]
  have hno : ¬ 8 + i < 8 := by omega
  simp [hno]

/-- A register is what stands above its last byte, and that byte. -/
theorem shift_split (x : BitVec w) :
    shift p 8 x = x >>> 8 ^^^ shift p 8 ((x.setWidth 8).setWidth w) := by
  have hsplit : x = x ^^^ (x.setWidth 8).setWidth w ^^^ (x.setWidth 8).setWidth w := by
    rw [BitVec.xor_assoc, BitVec.xor_self, BitVec.xor_zero]
  calc shift p 8 x = shift p 8 (x ^^^ (x.setWidth 8).setWidth w ^^^ (x.setWidth 8).setWidth w) := by
        rw [← hsplit]
    _ = x >>> 8 ^^^ shift p 8 ((x.setWidth 8).setWidth w) := by
        rw [shift_xor, shift_zeros p (low_cancel x), above_low]

theorem crc_cons (x : BitVec w) (b : BitVec 8) (bs : List (BitVec 8)) :
    crc p x (b :: bs) = crc p (byte p x b) bs := rfl

theorem crc_append (x : BitVec w) (as bs : List (BitVec 8)) :
    crc p x (as ++ bs) = crc p (crc p x as) bs := List.foldl_append

/-! ## Tables -/

section Tables
variable {α β γ : Type} {i : Nat}

/-- A table that is right as a whole is right in every entry. -/
theorem getD_of_map_range {f : Nat → α} {n : Nat} {l : List α} (h : (List.range n).map f = l)
    (d : α) (hi : i < n) : l.getD i d = f i := by
  rw [← h, List.getD_eq_getElem?_getD, List.getElem?_map, List.getElem?_range hi]
  rfl

theorem getD_map (f : α → β) (l : List α) (i : Nat) (d : α) :
    (l.map f).getD i (f d) = f (l.getD i d) := by
  rw [List.getD_eq_getElem?_getD, List.getD_eq_getElem?_getD, List.getElem?_map, Option.getD_map]

/-- Two tables, side by side. -/
theorem getD_zipWith (f : α → β → γ) {l : List α} {l' : List β} (hl : i < l.length)
    (hl' : i < l'.length) (a : α) (b : β) (c : γ) :
    (List.zipWith f l l').getD i c = f (l.getD i a) (l'.getD i b) := by
  rw [List.getD_eq_getElem?_getD, List.getD_eq_getElem?_getD, List.getD_eq_getElem?_getD,
    List.getElem?_zipWith, List.getElem?_eq_getElem hl, List.getElem?_eq_getElem hl']
  rfl

end Tables

/-! ## Its own bytes -/

/-- The bytes of a register, the low one first. -/
def lowBytes : Nat → BitVec w → List (BitVec 8)
  | 0, _ => []
  | k + 1, x => x.setWidth 8 :: lowBytes k (x >>> 8)

/-- A register that takes in its own low byte only moves down. -/
theorem byte_low (x : BitVec w) : byte p x (x.setWidth 8) = x >>> 8 := by
  unfold byte
  rw [shift_zeros p (low_cancel x), above_low]

/-- **A register that takes in its own bytes runs empty.** -/
theorem crc_lowBytes (k : Nat) (x : BitVec w) : crc p x (lowBytes k x) = x >>> (8 * k) := by
  induction k generalizing x with
  | zero => rfl
  | succ k ih =>
    show crc p (byte p x (x.setWidth 8)) (lowBytes k (x >>> 8)) = _
    rw [byte_low, ih, ← BitVec.shiftRight_add, Nat.mul_succ, Nat.add_comm]

/-! ## Telling messages apart -/

/-- Where the polynomial has its last term, a register that empties was empty. -/
theorem eq_zero_of_shift1 (hp : p.msb = true) (h : shift1 p x = 0#w) : x = 0#w := by
  unfold shift1 at h
  cases hbit : x.getLsbD 0 with
  | false =>
    rw [hbit] at h
    have hdown : x >>> 1 = 0#w := by simpa using h
    apply BitVec.eq_of_getLsbD_eq
    intro i hi
    cases i with
    | zero => rw [hbit, BitVec.getLsbD_zero]
    | succ i =>
      have hi' := congrArg (fun y : BitVec w => y.getLsbD i) hdown
      simpa [BitVec.getLsbD_ushiftRight, Nat.add_comm] using hi'
  | true =>
    rw [hbit, if_pos rfl] at h
    have hsame : x >>> 1 = p := BitVec.xor_eq_zero_iff.mp h
    have hmsb : (x >>> 1).msb = false := by simp [BitVec.msb_ushiftRight]
    rw [hsame, hp] at hmsb
    exact absurd hmsb (by decide)

theorem eq_zero_of_shift (hp : p.msb = true) {k : Nat} (h : shift p k x = 0#w) : x = 0#w := by
  induction k generalizing x with
  | zero => exact h
  | succ k ih => exact eq_zero_of_shift1 p hp (ih h)

theorem shift_injective (hp : p.msb = true) {k : Nat} {y : BitVec w}
    (h : shift p k x = shift p k y) : x = y := by
  rw [← BitVec.xor_eq_zero_iff] at h ⊢
  rw [← shift_xor] at h
  exact eq_zero_of_shift p hp h

/-- The same bytes tell two registers apart. -/
theorem crc_injective (hp : p.msb = true) {bs : List (BitVec 8)} {y : BitVec w}
    (h : crc p x bs = crc p y bs) : x = y := by
  induction bs generalizing x y with
  | nil => exact h
  | cons b bs ih =>
    have hsame := shift_injective p hp (ih h)
    exact (BitVec.xor_left_inj (b.setWidth w)).mp hsame

/-- **One byte that is another** changes the check sum. -/
theorem crc_byte_injective (hp : p.msb = true) (hw : 8 ≤ w) {as bs : List (BitVec 8)}
    {a b : BitVec 8} (h : crc p x (as ++ a :: bs) = crc p x (as ++ b :: bs)) : a = b := by
  rw [crc_append, crc_append, crc_cons, crc_cons] at h
  have hbyte := shift_injective p hp (crc_injective p hp h)
  have hwide : a.setWidth w = b.setWidth w := (BitVec.xor_right_inj _).mp hbyte
  have hback := congrArg (BitVec.setWidth 8) hwide
  simpa [BitVec.setWidth_setWidth_of_le _ hw] using hback

/-! ## From the high end -/

/-- Shift out one bit, at the high end. -/
def up1 (x : BitVec w) : BitVec w := x <<< 1 ^^^ if x.msb then p else 0

/-- Shift out `k` bits. -/
def up : Nat → BitVec w → BitVec w
  | 0, x => x
  | k + 1, x => up k (up1 p x)

/-- A byte at the high end. -/
def top (b : BitVec 8) : BitVec w := b.setWidth w <<< (w - 8)

/-- Take in one byte. -/
def upByte (x : BitVec w) (b : BitVec 8) : BitVec w := up p 8 (x ^^^ top b)

/-- The register after a message. -/
def upCrc (x : BitVec w) (bs : List (BitVec 8)) : BitVec w := bs.foldl (upByte p) x

theorem reverse_xor (x y : BitVec w) : (x ^^^ y).reverse = x.reverse ^^^ y.reverse := by
  apply BitVec.eq_of_getLsbD_eq
  intro i _
  rw [BitVec.getLsbD_xor, BitVec.getLsbD_reverse, BitVec.getLsbD_reverse, BitVec.getLsbD_reverse,
    BitVec.getMsbD_xor]

theorem reverse_shiftLeft (x : BitVec w) (k : Nat) : (x <<< k).reverse = x.reverse >>> k := by
  apply BitVec.eq_of_getLsbD_eq
  intro i _
  rw [BitVec.getLsbD_reverse, BitVec.getMsbD_shiftLeft, BitVec.getLsbD_ushiftRight,
    BitVec.getLsbD_reverse, Nat.add_comm]

theorem up1_reverse (x : BitVec w) : (up1 p x).reverse = shift1 p.reverse x.reverse := by
  have hbit : x.reverse.getLsbD 0 = x.msb := BitVec.getLsbD_reverse
  unfold up1 shift1
  rw [reverse_xor, reverse_shiftLeft, hbit]
  cases x.msb with
  | false => exact congrArg (x.reverse >>> 1 ^^^ ·) (BitVec.reverse_eq_zero_iff.mpr rfl)
  | true => rfl

/-- **The two registers are one, read from either end.** -/
theorem up_reverse (k : Nat) (x : BitVec w) : (up p k x).reverse = shift p.reverse k x.reverse := by
  induction k generalizing x with
  | zero => rfl
  | succ k ih =>
    unfold up shift
    rw [ih, up1_reverse]

theorem up_eq (k : Nat) (x : BitVec w) : up p k x = (shift p.reverse k x.reverse).reverse := by
  rw [← up_reverse, BitVec.reverse_reverse_eq]

theorem up_xor (k : Nat) (x y : BitVec w) : up p k (x ^^^ y) = up p k x ^^^ up p k y := by
  rw [up_eq, reverse_xor, shift_xor, reverse_xor, ← up_eq, ← up_eq]

theorem up_zeros {k : Nat} (h : ∀ i < k, x.getMsbD i = false) : up p k x = x <<< k := by
  have hrev : ∀ i < k, x.reverse.getLsbD i = false := by
    intro i hi
    rw [BitVec.getLsbD_reverse]
    exact h i hi
  rw [up_eq, shift_zeros _ hrev, ← reverse_shiftLeft, BitVec.reverse_reverse_eq]

theorem above_top (x : BitVec w) (b : BitVec 8) : (x ^^^ top b) <<< 8 = x <<< 8 := by
  apply BitVec.eq_of_getLsbD_eq
  intro i hi
  have hbelow : i - 8 < w - 8 ∨ i < 8 := by omega
  rw [BitVec.getLsbD_shiftLeft, BitVec.getLsbD_shiftLeft, BitVec.getLsbD_xor, top,
    BitVec.getLsbD_shiftLeft]
  rcases hbelow with hbelow | hbelow <;> simp [hbelow]

/-- A register is what stands below its first byte, and that byte. -/
theorem up_split (h : 8 ≤ w) (x : BitVec w) :
    up p 8 x = x <<< 8 ^^^ up p 8 (top ((x >>> (w - 8)).setWidth 8)) := by
  generalize hb : (x >>> (w - 8)).setWidth 8 = b
  have hbit : ∀ i, b.getLsbD i = (decide (i < 8) && x.getLsbD (w - 8 + i)) := by
    intro i
    rw [← hb, BitVec.getLsbD_setWidth, BitVec.getLsbD_ushiftRight]
  have hsplit : x = x ^^^ top b ^^^ top b := by
    rw [BitVec.xor_assoc, BitVec.xor_self, BitVec.xor_zero]
  have hhigh : ∀ i < 8, (x ^^^ top b).getMsbD i = false := by
    intro i hi
    have hplace : w - 8 + (w - 1 - i - (w - 8)) = w - 1 - i := by omega
    rw [BitVec.getMsbD_eq_getLsbD, BitVec.getLsbD_xor, top, BitVec.getLsbD_shiftLeft,
      BitVec.getLsbD_setWidth, hbit, hplace]
    simp [show w - 1 - i < w by omega, show ¬ w - 1 - i < w - 8 by omega,
      show w - 1 - i - (w - 8) < w by omega, show w - 1 - i - (w - 8) < 8 by omega]
  calc up p 8 x = up p 8 (x ^^^ top b ^^^ top b) := by rw [← hsplit]
    _ = x <<< 8 ^^^ up p 8 (top b) := by rw [up_xor, up_zeros p hhigh, above_top]

theorem up_injective (hp : p.getLsbD 0 = true) {k : Nat} (h : up p k x = up p k y) : x = y := by
  have hrev : p.reverse.msb = true := by rw [BitVec.msb_reverse, hp]
  have hzero : shift p.reverse k (x ^^^ y).reverse = 0#w := by
    rw [← up_reverse, up_xor, h, BitVec.xor_self]
    exact BitVec.reverse_eq_zero_iff.mpr rfl
  exact BitVec.xor_eq_zero_iff.mp
    (BitVec.reverse_eq_zero_iff.mp (eq_zero_of_shift p.reverse hrev hzero))

theorem upCrc_cons (x : BitVec w) (b : BitVec 8) (bs : List (BitVec 8)) :
    upCrc p x (b :: bs) = upCrc p (upByte p x b) bs := rfl

theorem upCrc_append (x : BitVec w) (as bs : List (BitVec 8)) :
    upCrc p x (as ++ bs) = upCrc p (upCrc p x as) bs := List.foldl_append

/-- What follows a difference does not undo it. -/
theorem upCrc_injective (hp : p.getLsbD 0 = true) (bs : List (BitVec 8))
    (h : upCrc p x bs = upCrc p y bs) : x = y := by
  induction bs generalizing x y with
  | nil => exact h
  | cons b bs ih => exact (BitVec.xor_left_inj (top b)).mp (up_injective p hp (ih h))

/-! ## Words -/

/-- The first bytes of a message, as a register that takes them in at once. -/
def word : List (BitVec 8) → BitVec w
  | [] => 0
  | b :: bs => top b ^^^ word bs >>> 8

theorem getLsbD_top (b : BitVec 8) {i : Nat} (h : i < w - 8) :
    (top b : BitVec w).getLsbD i = false := by
  unfold top
  rw [BitVec.getLsbD_shiftLeft]
  simp [h]

/-- A word ends in zeros. -/
theorem getLsbD_word (bs : List (BitVec 8)) {i : Nat} (h : i < w - 8 * bs.length) :
    (word bs : BitVec w).getLsbD i = false := by
  induction bs generalizing i with
  | nil => exact BitVec.getLsbD_zero
  | cons b bs ih =>
    rw [List.length_cons] at h
    unfold word
    rw [BitVec.getLsbD_xor, BitVec.getLsbD_ushiftRight, getLsbD_top b (by omega), ih (by omega)]
    rfl

/-- A word that stands eight places lower comes up unchanged. -/
theorem up_word {bs : List (BitVec 8)} (h : 8 * bs.length + 8 ≤ w) :
    up p 8 (word bs >>> 8) = (word bs : BitVec w) := by
  have hzeros : ∀ i < 8, (word bs >>> 8 : BitVec w).getMsbD i = false := by
    intro i hi
    rw [BitVec.getMsbD_ushiftRight]
    simp [hi]
  rw [up_zeros p hzeros]
  apply BitVec.eq_of_getLsbD_eq
  intro i hi
  rw [BitVec.getLsbD_shiftLeft, BitVec.getLsbD_ushiftRight]
  by_cases hlow : i < 8
  · rw [getLsbD_word bs (show i < w - 8 * bs.length by omega)]
    simp [hlow]
  · have hback : 8 + (i - 8) = i := by omega
    simp [hlow, hi, hback]

/-- **A message no longer than the register** is taken in at once and shifted out. -/
theorem upCrc_word {bs : List (BitVec 8)} (h : 8 * bs.length ≤ w) (x : BitVec w) :
    upCrc p x bs = up p (8 * bs.length) (x ^^^ word bs) := by
  induction bs generalizing x with
  | nil =>
    show x = x ^^^ 0#w
    rw [BitVec.xor_zero]
  | cons b bs ih =>
    rw [List.length_cons] at h
    have hadd : ∀ (j : Nat) (y : BitVec w), up p (8 + j) y = up p j (up p 8 y) := by
      intro j y
      rw [Nat.add_comm]
      rfl
    show upCrc p (up p 8 (x ^^^ top b)) bs = _
    rw [ih (by omega), List.length_cons, Nat.mul_succ, Nat.add_comm (8 * bs.length), hadd, word,
      ← BitVec.xor_assoc, up_xor p 8 (x ^^^ top b), up_word p (by omega)]

/-- A word is its bytes. -/
theorem word_injective {as bs : List (BitVec 8)} (h : 8 * as.length ≤ w)
    (hlen : as.length = bs.length) (hw : (word as : BitVec w) = word bs) : as = bs := by
  induction as generalizing bs with
  | nil => exact (List.length_eq_zero_iff.mp hlen.symm).symm
  | cons a as ih =>
    cases bs with
    | nil => exact absurd hlen (by simp)
    | cons b bs =>
      rw [List.length_cons] at h
      rw [List.length_cons, List.length_cons, Nat.succ_inj] at hlen
      have hdown : ∀ (c : BitVec 8) (cs : List (BitVec 8)),
          (((word (c :: cs) : BitVec w) >>> (w - 8)).setWidth 8) = c := by
        intro c cs
        apply BitVec.eq_of_getLsbD_eq
        intro i hi
        have hplace : w - 8 + i - (w - 8) = i := by omega
        rw [BitVec.getLsbD_setWidth, BitVec.getLsbD_ushiftRight, word, BitVec.getLsbD_xor, top,
          BitVec.getLsbD_shiftLeft, BitVec.getLsbD_setWidth, BitVec.getLsbD_ushiftRight, hplace,
          BitVec.getLsbD_of_ge (word cs : BitVec w) (8 + (w - 8 + i)) (by omega)]
        simp [hi, show w - 8 + i < w by omega, show i < w by omega]
      have hfirst : a = b := by
        rw [← hdown a as, hw, hdown]
      subst hfirst
      have hrest : (word as >>> 8 : BitVec w) = word bs >>> 8 :=
        (BitVec.xor_right_inj (top a)).mp hw
      have hup := congrArg (up (0 : BitVec w) 8) hrest
      rw [up_word _ (by omega), up_word _ (by omega)] at hup
      rw [ih (by omega) hlen hup]

/-- **Two short messages** leave different registers. -/
theorem eq_of_upCrc_eq (hp : p.getLsbD 0 = true) {as bs : List (BitVec 8)} (h : 8 * as.length ≤ w)
    (hlen : as.length = bs.length) (hcrc : upCrc p x as = upCrc p x bs) : as = bs := by
  rw [upCrc_word p h, upCrc_word p (hlen ▸ h), hlen] at hcrc
  exact word_injective h hlen ((BitVec.xor_right_inj x).mp (up_injective p hp hcrc))

/-- What one byte more must hide: the damage to the first byte, shifted out, is the damage to the
others. -/
theorem up_top_of_upCrc_eq (hp : p.getLsbD 0 = true) {a b : BitVec 8} {as bs : List (BitVec 8)}
    (h : 8 * as.length ≤ w) (hlen : as.length = bs.length)
    (hcrc : upCrc p x (a :: as) = upCrc p x (b :: bs)) :
    up p 8 (top a ^^^ top b) = (word as : BitVec w) ^^^ word bs := by
  rw [upCrc_cons, upCrc_cons, upCrc_word p h, upCrc_word p (hlen ▸ h), hlen] at hcrc
  have hword := up_injective p hp hcrc
  have hbytes : up p 8 (top a ^^^ top b) = upByte p x a ^^^ upByte p x b := by
    unfold upByte
    rw [up_xor, up_xor, up_xor]
    have hcancel : up p 8 x ^^^ up p 8 x = 0#w := BitVec.xor_self
    have hassoc : up p 8 x ^^^ up p 8 (top a) ^^^ (up p 8 x ^^^ up p 8 (top b)) =
        up p 8 x ^^^ up p 8 x ^^^ (up p 8 (top a) ^^^ up p 8 (top b)) := by ac_rfl
    rw [hassoc, hcancel, BitVec.zero_xor]
  have hmove : upByte p x a = upByte p x b ^^^ word bs ^^^ word as := by
    rw [← hword, BitVec.xor_assoc, BitVec.xor_self, BitVec.xor_zero]
  have hself : upByte p x b ^^^ upByte p x b = 0#w := BitVec.xor_self
  have hassoc : upByte p x b ^^^ word bs ^^^ word as ^^^ upByte p x b =
      upByte p x b ^^^ upByte p x b ^^^ (word as ^^^ word bs) := by ac_rfl
  rw [hbytes, hmove, hassoc, hself, BitVec.zero_xor]

end Crc
