import Mathlib.Data.List.Basic

/-!
# List facts shared by the models

The scheduler-level models keep one entry per party in a list (the consumers of a view,
the workers of a pool) and a counter the code keeps by hand. These say how a count over
such a list moves when one entry changes. The `Except` bind rules let `simp` run the
models written in `Except` through a success or a raised error, and take a successful bind
apart.
-/

namespace Charybdis

variable {α : Type} {l : List α} {i : Nat} {a : α}

/-- Replacing entry `i`, `a`, by `b` changes a count by what the two contribute. -/
theorem countP_set_add (p : α → Bool) (b : α) (h : l[i]? = some a) :
    (l.set i b).countP p + (if p a then 1 else 0) = l.countP p + (if p b then 1 else 0) := by
  obtain ⟨hi, rfl⟩ := List.getElem?_eq_some_iff.mp h
  have := List.boole_getElem_le_countP p l i hi
  rw [List.countP_set p l i b hi]
  omega

theorem countP_pos_of_getElem {p : α → Bool} (h : l[i]? = some a) (hp : p a = true) :
    0 < l.countP p :=
  List.countP_pos_iff.mpr ⟨a, List.getElem?_mem h, hp⟩

@[simp] theorem except_ok_bind {ε β : Type} (f : α → Except ε β) (a : α) :
    (Except.ok a >>= f) = f a :=
  rfl

@[simp] theorem except_error_bind {ε β : Type} (f : α → Except ε β) (e : ε) :
    (Except.error e >>= f) = .error e :=
  rfl

/-- A bind succeeds only if its first computation does. -/
theorem except_bind_eq_ok {ε β : Type} {x : Except ε α} {f : α → Except ε β} {b : β} :
    x >>= f = .ok b ↔ ∃ a, x = .ok a ∧ f a = .ok b := by
  cases x <;> simp

end Charybdis
