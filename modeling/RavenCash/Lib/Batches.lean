import Mathlib.Algebra.BigOperators.Group.List.Basic
import Mathlib.Data.List.Nodup

/-!
# Batches of a list

A list is cut into batches of one size, the last one shorter. Batches have no element in common, and together they are
the list.
-/

set_option autoImplicit false

namespace Batches

variable {A : Type} {size : Nat} {l : List A} {i : Nat} {a : A}

/-- The batch with the number `i`. -/
def batch (size : Nat) (l : List A) (i : Nat) : List A := (l.drop (i * size)).take size

theorem mem_batch (hsize : 0 < size) : a ∈ batch size l i ↔ ∃ k, l[k]? = some a ∧ k / size = i := by
  rw [batch, List.mem_iff_getElem?]
  constructor
  · rintro ⟨k, hk⟩
    rw [List.getElem?_take] at hk
    split_ifs at hk with hlt
    · rw [List.getElem?_drop] at hk
      refine ⟨i * size + k, hk, ?_⟩
      rw [Nat.mul_comm, Nat.mul_add_div hsize, Nat.div_eq_of_lt hlt, Nat.add_zero]
  · rintro ⟨k, hk, rfl⟩
    refine ⟨k % size, ?_⟩
    rw [List.getElem?_take, if_pos (Nat.mod_lt k hsize), List.getElem?_drop, Nat.mul_comm, Nat.div_add_mod, hk]

theorem batch_map {B : Type} (f : A → B) (l : List A) (i : Nat) : batch size (l.map f) i = (batch size l i).map f := by
  rw [batch, batch, ← List.map_drop, ← List.map_take]

theorem length_batch_le : (batch size l i).length ≤ size := by
  rw [batch, List.length_take]
  omega

theorem batch_eq_nil_iff (hsize : 0 < size) : batch size l i = [] ↔ l.length ≤ i * size := by
  rw [← List.length_eq_zero_iff, batch, List.length_take, List.length_drop]
  omega

/-- One batch more than the length has full ones is empty when they are all full. -/
theorem forall_batch_ne_nil_iff (hsize : 0 < size) :
    (∀ i < l.length / size + 1, batch size l i ≠ []) ↔ l.length % size ≠ 0 := by
  have hdiv := Nat.div_add_mod l.length size
  constructor
  · intro h hzero
    refine h (l.length / size) (Nat.lt_succ_self _) ((batch_eq_nil_iff hsize).mpr ?_)
    rw [Nat.mul_comm]
    omega
  · intro h i hi hnil
    rw [batch_eq_nil_iff hsize] at hnil
    have hle : i * size ≤ l.length / size * size := Nat.mul_le_mul_right size (Nat.le_of_lt_succ hi)
    rw [Nat.mul_comm size] at hdiv
    omega

theorem flatMap_batch (n : Nat) : (List.range n).flatMap (batch size l) = l.take (n * size) := by
  induction n with
  | zero => simp
  | succ n ih =>
    rw [List.range_succ, List.flatMap_append, ih, List.flatMap_singleton, batch, Nat.succ_mul, List.take_add]

/-- The batches are the list. -/
theorem flatMap_all_batches (hsize : 0 < size) : (List.range (l.length / size + 1)).flatMap (batch size l) = l := by
  rw [flatMap_batch]
  refine List.take_of_length_le ?_
  have hdiv := Nat.div_add_mod l.length size
  have hmod := Nat.mod_lt l.length hsize
  rw [Nat.succ_mul, Nat.mul_comm]
  omega

/-- **Different batches of different elements are different.** -/
theorem nodup_flatMap_batch (hsize : 0 < size) (hl : l.Nodup) {indices : List Nat} (hindices : indices.Nodup) :
    (indices.flatMap (batch size l)).Nodup := by
  refine List.nodup_flatMap.mpr ⟨fun i _ => ?_, hindices.imp fun {i j} hij => ?_⟩
  · exact hl.sublist ((List.take_sublist _ _).trans (List.drop_sublist _ _))
  · intro a hi hj
    obtain ⟨k, hk, rfl⟩ := (mem_batch hsize).mp hi
    obtain ⟨k', hk', rfl⟩ := (mem_batch hsize).mp hj
    obtain ⟨hlt, heq⟩ := List.getElem?_eq_some_iff.mp hk
    obtain ⟨hlt', heq'⟩ := List.getElem?_eq_some_iff.mp hk'
    exact hij (congrArg (· / size) (hl.getElem_inj_iff.mp (heq.trans heq'.symm)))

end Batches
