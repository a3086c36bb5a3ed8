import Mathlib.Data.List.Basic

/-!
# Byte arrays

An array of `n` bytes is a list of that length. `put` is the one way to write to it: it takes the
proof that what it writes lies within the array, and gives back an array of `n` bytes. The rest is
what a reader finds afterwards, before the place, at it and after it.
-/

set_option autoImplicit false

/-- An array of `n` bytes. -/
structure Bytes (n : Nat) where
  bytes : List UInt8
  length_bytes : bytes.length = n

namespace Bytes
variable {n : Nat}

def zero (n : Nat) : Bytes n := ⟨List.replicate n 0, List.length_replicate⟩

def byte (b : Bytes n) (i : Nat) : UInt8 := b.bytes.getD i 0

/-- The `k` bytes from `off` on. -/
def slice (b : Bytes n) (off k : Nat) : List UInt8 := (b.bytes.drop off).take k

/-- `src` is written from `off` on. -/
def put (b : Bytes n) (off : Nat) (src : List UInt8) (h : off + src.length ≤ n) : Bytes n where
  bytes := b.bytes.take off ++ src ++ b.bytes.drop (off + src.length)
  length_bytes := by
    simp only [List.length_append, List.length_take, List.length_drop, b.length_bytes]
    omega

theorem length_slice (b : Bytes n) {off k : Nat} (h : off + k ≤ n) : (b.slice off k).length = k := by
  unfold slice
  rw [List.length_take, List.length_drop, b.length_bytes]
  omega

theorem length_slice_le (b : Bytes n) (off k : Nat) : (b.slice off k).length ≤ k :=
  List.length_take_le k _

section Put
variable {b : Bytes n} {off : Nat} {src : List UInt8} (h : off + src.length ≤ n)
include h

/-- The array up to the end of what was written. -/
theorem put_take : (b.put off src h).bytes.take (off + src.length) = b.bytes.take off ++ src := by
  have hlen : (b.bytes.take off ++ src).length = off + src.length := by
    rw [List.length_append, List.length_take, b.length_bytes]
    omega
  exact List.take_left' hlen

end Put

/-- What was written to the start of the array. -/
theorem put_zero_take {b : Bytes n} {src : List UInt8} {k : Nat} (h : 0 + src.length ≤ n)
    (hk : src.length = k) : (b.put 0 src h).bytes.take k = src := by
  have htake := put_take (b := b) h
  rw [Nat.zero_add, List.take_zero, List.nil_append] at htake
  exact hk ▸ htake

/-- An array that is written all over. -/
theorem put_all {b : Bytes n} {src : List UInt8} (h : 0 + src.length ≤ n) (hn : src.length = n) :
    (b.put 0 src h).bytes = src := by
  have htake := put_zero_take (b := b) h hn
  rw [List.take_of_length_le (Nat.le_of_eq (b.put 0 src h).length_bytes)] at htake
  exact htake

section SameStart
variable {m k : Nat} {a : Bytes n} {b : Bytes m} (h : a.bytes.take k = b.bytes.take k)
include h

/-- Two arrays that start alike. -/
theorem slice_eq_of_take {off j : Nat} (hj : off + j ≤ k) : a.slice off j = b.slice off j := by
  have hcut : ∀ l : List UInt8, (l.drop off).take j = ((l.take k).drop off).take j := by
    intro l
    rw [List.drop_take, List.take_take, Nat.min_eq_left (by omega)]
  unfold slice
  rw [hcut a.bytes, hcut b.bytes, h]

theorem byte_eq_of_take {i : Nat} (hi : i < k) : a.byte i = b.byte i := by
  have hcut : ∀ l : List UInt8, l.getD i 0 = (l.take k).getD i 0 := by
    intro l
    rw [List.getD_eq_getElem?_getD, List.getD_eq_getElem?_getD, List.getElem?_take_of_lt hi]
  unfold byte
  rw [hcut a.bytes, hcut b.bytes, h]

end SameStart

end Bytes
