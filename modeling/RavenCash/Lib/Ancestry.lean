import Mathlib.Tactic

/-!
# Trees as paths

A node of a tree with one root is the list of the labels on the way from it to the root, itself first. Its parent is
the tail, and its ancestors are its suffixes; each is found by its height.
-/

set_option autoImplicit false

namespace Ancestry

variable {α : Type}

/-- The number of steps to the root. -/
def height (p : List α) : Int := p.length - 1

/-- The ancestor of a given height. -/
def ancestor (p : List α) (h : Int) : Option (List α) :=
  if height p < h ∨ h < 0 then none else some (p.drop (p.length - 1 - h.toNat))

theorem height_cons (a : α) (p : List α) : height (a :: p) = height p + 1 := by
  unfold height
  rw [List.length_cons]
  push_cast
  omega

end Ancestry
