import Mathlib.Data.List.Basic

/-!
# Structures in memory

A memory is a function from addresses to cells. `fill` and `copy` are `memset` and `memcpy`: they
write where they are told to, and know nothing of what lies there. What a copy does to a field is
read off the field's place, which the order, the sizes and the alignments of the members decide
(`place`).
-/

set_option autoImplicit false

namespace Memory

universe u
variable {β : Type u}

abbrev Mem (β : Type u) := Nat → β

/-! ## Writing -/

/-- `memset`. -/
def fill (m : Mem β) (off n : Nat) (b : β) : Mem β :=
  fun i => if off ≤ i ∧ i < off + n then b else m i

/-- `memcpy`, from a source of its own. -/
def copy (m : Mem β) (off n : Nat) (src : Nat → β) : Mem β :=
  fun i => if off ≤ i ∧ i < off + n then src (i - off) else m i

section Writing
variable {m : Mem β} {off n k i : Nat} {b : β} {src : Nat → β}

theorem copy_in (h : off ≤ i) (h' : i < off + n) : copy m off n src i = src (i - off) :=
  if_pos ⟨h, h'⟩

theorem copy_out (h : i < off ∨ off + n ≤ i) : copy m off n src i = m i :=
  if_neg (by omega)

/-- What is copied over need not have been cleared. -/
theorem copy_fill (h : k ≤ n) : copy (fill m off k b) off n src = copy m off n src := by
  funext i
  unfold copy fill
  split
  · rfl
  · exact if_neg (by omega)

end Writing

/-! ## Placing -/

/-- A member of a structure. -/
structure Member where
  size : Nat
  align : Nat

/-- The first aligned offset from `o` on. -/
def alignUp (o align : Nat) : Nat := (o + align - 1) / align * align

/-- The offsets of the members, in order, from `o` on. -/
def place : Nat → List Member → List Nat
  | _, [] => []
  | o, f :: fs => alignUp o f.align :: place (alignUp o f.align + f.size) fs

end Memory
