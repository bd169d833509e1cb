import Mathlib.Data.List.Basic

/-!
# Accesses that can go wrong

A program that indexes into vectors, follows pointers and loops is an `Except Fault`: an index outside a vector, a null
pointer and a loop that comes back to where it was are faults. `Safe r P` says that `r` indexes nothing outside its
vectors and that what it returns satisfies `P`; the rules follow the program.
-/

set_option autoImplicit false

namespace Faults

inductive Fault where
  | outOfBounds
  | nullPointer
  | endless
  deriving DecidableEq

variable {α β : Type}

/-- `l[i]` -/
def fetch (l : List α) (i : Nat) : Except Fault α :=
  match l[i]? with
  | some x => .ok x
  | none => .error .outOfBounds

/-- `l[i] = x` -/
def store (l : List α) (i : Nat) (x : α) : Except Fault (List α) :=
  if i < l.length then .ok (l.set i x) else .error .outOfBounds

def Safe (r : Except Fault α) (P : α → Prop) : Prop :=
  match r with
  | .ok a => P a
  | .error fault => fault ≠ .outOfBounds

variable {r : Except Fault α} {P : α → Prop}

theorem Safe.of_ok {a : α} (h : Safe r P) (hr : r = .ok a) : P a := by
  rw [hr] at h
  exact h

theorem Safe.ne_outOfBounds (h : Safe r P) : r ≠ .error .outOfBounds := by
  rintro rfl
  exact h rfl

theorem Safe.mono {Q : α → Prop} (h : Safe r P) (hPQ : ∀ a, P a → Q a) : Safe r Q := by
  cases r with
  | ok a => exact hPQ a h
  | error fault => exact h

theorem Safe.bind {f : α → Except Fault β} {Q : β → Prop} (h : Safe r P) (hf : ∀ a, P a → Safe (f a) Q) :
    Safe (r >>= f) Q := by
  cases r with
  | ok a => exact hf a h
  | error fault => exact h

theorem safe_fetch {l : List α} {i : Nat} (h : i < l.length) : Safe (fetch l i) fun x => l[i]? = some x := by
  rw [fetch, List.getElem?_eq_getElem h]
  exact rfl

theorem safe_store {l : List α} {i : Nat} (h : i < l.length) (x : α) : Safe (store l i x) fun l' => l' = l.set i x := by
  rw [store, if_pos h]
  exact rfl

end Faults
