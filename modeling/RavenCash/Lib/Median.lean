import Mathlib.Data.List.GetD
import Mathlib.Tactic

/-!
# The middle of a list

The element in the middle of the sorted list, and how it moves when the list changes: it does not fall if the list does
not get shorter and gains no element below it.
-/

set_option autoImplicit false

namespace Median

variable {α : Type} [LinearOrder α]

/-- The element in the middle of the sorted list; of two, the second one. -/
def middle (l : List α) (d : α) : α :=
  let s := l.insertionSort (· ≤ ·)
  s.getD (s.length / 2) d

/-- In a sorted list only what comes before an element is less than it. -/
theorem countP_lt_le {s : List α} (hs : s.Pairwise (· ≤ ·)) {i : Nat} (hi : i < s.length) :
    s.countP (· < s[i]) ≤ i := by
  have hdrop : (s.drop i).countP (· < s[i]) = 0 := by
    rw [List.countP_eq_zero]
    intro a ha
    obtain ⟨j, hj, rfl⟩ := List.mem_iff_getElem.mp ha
    rw [List.getElem_drop, decide_eq_true_iff, not_lt]
    rcases Nat.eq_zero_or_pos j with rfl | hpos
    · exact le_rfl
    · exact List.pairwise_iff_getElem.mp hs i (i + j) hi _ (by omega)
  calc s.countP (· < s[i]) = (s.take i).countP (· < s[i]) + (s.drop i).countP (· < s[i]) := by
        rw [← List.countP_append, List.take_append_drop]
    _ ≤ i := by
        rw [hdrop]
        exact List.countP_le_length.trans (List.length_take_le i s)

/-- An element that is less has everything before it with it. -/
theorem lt_countP {s : List α} (hs : s.Pairwise (· ≤ ·)) {i : Nat} (hi : i < s.length) {m : α} (hlt : s[i] < m) :
    i < s.countP (· < m) := by
  have hall : (s.take (i + 1)).countP (· < m) = i + 1 := by
    rw [List.countP_eq_length.mpr, List.length_take, min_eq_left hi]
    intro a ha
    obtain ⟨j, hj, rfl⟩ := List.mem_iff_getElem.mp ha
    rw [List.length_take, lt_min_iff] at hj
    rw [List.getElem_take, decide_eq_true_iff]
    refine lt_of_le_of_lt ?_ hlt
    rcases Nat.lt_or_ge j i with hji | hge
    · exact List.pairwise_iff_getElem.mp hs j i hj.2 hi hji
    · obtain rfl : j = i := by omega
      exact le_rfl
  have hle := (List.take_sublist (i + 1) s).countP_le (p := fun a => decide (a < m))
  omega

/-- **The middle does not fall.** -/
theorem middle_le_middle {l l' : List α} {d : α} (hne : l ≠ []) (hlen : l.length ≤ l'.length)
    (hcount : l'.countP (· < middle l d) ≤ l.countP (· < middle l d)) : middle l d ≤ middle l' d := by
  have hpos := List.length_pos_iff.mpr hne
  have hi : (l.insertionSort (· ≤ ·)).length / 2 < (l.insertionSort (· ≤ ·)).length := by
    rw [List.length_insertionSort]
    omega
  have hi' : (l'.insertionSort (· ≤ ·)).length / 2 < (l'.insertionSort (· ≤ ·)).length := by
    rw [List.length_insertionSort]
    omega
  have hmiddle : middle l d = (l.insertionSort (· ≤ ·))[(l.insertionSort (· ≤ ·)).length / 2] :=
    List.getD_eq_getElem _ _ hi
  have hmiddle' : middle l' d = (l'.insertionSort (· ≤ ·))[(l'.insertionSort (· ≤ ·)).length / 2] :=
    List.getD_eq_getElem _ _ hi'
  by_contra hlt
  rw [not_le, hmiddle'] at hlt
  have hmany := lt_countP (List.pairwise_insertionSort _ l') hi' hlt
  have hfew := countP_lt_le (List.pairwise_insertionSort _ l) hi
  rw [← hmiddle, (List.perm_insertionSort _ l).countP_eq, List.length_insertionSort] at hfew
  rw [(List.perm_insertionSort _ l').countP_eq, List.length_insertionSort] at hmany
  omega

end Median
