import Mathlib.Algebra.BigOperators.Ring.List
import Mathlib.Tactic.Ring

/-!
# Hops on a ring

Members of a network are reached in hops. On a ring of `n` places where every place is connected to those at some gaps,
a place is reached in as many hops as gaps add up to the distance. The gaps `1, 2, …, 2 ^ (L - 1)` add up to every
distance below `2 ^ (L + 1)` with at most `L + 2` of them.
-/

set_option autoImplicit false

namespace Hops

variable {α : Type} {E : α → α → Prop} {a b c : α} {j k : Nat}

/-- `b` is reached from `a` in at most so many hops. -/
def Within (E : α → α → Prop) : Nat → α → α → Prop
  | 0, a, b => a = b
  | k + 1, a, b => a = b ∨ ∃ c, E a c ∧ Within E k c b

theorem Within.refl (k : Nat) (a : α) : Within E k a a := by
  cases k with
  | zero => rfl
  | succ k => exact .inl rfl

theorem Within.mono (h : Within E j a b) (hjk : j ≤ k) : Within E k a b := by
  induction j generalizing a k with
  | zero =>
    have hab : a = b := h
    rw [hab]
    exact .refl k b
  | succ j ih =>
    obtain ⟨k, rfl⟩ : ∃ k', k = k' + 1 := ⟨k - 1, by omega⟩
    rcases h with hab | ⟨c, hac, hcb⟩
    · exact .inl hab
    · exact .inr ⟨c, hac, ih hcb (by omega)⟩

/-- A hop that may stay where it is. -/
theorem Within.cons (h : a = c ∨ E a c) (hc : Within E k c b) : Within E (k + 1) a b := by
  rcases h with rfl | hac
  · exact hc.mono (Nat.le_succ k)
  · exact .inr ⟨c, hac, hc⟩

/-- **A walk round the ring**: the place at the sum of the gaps is reached with a hop for each gap. -/
theorem within_ring {n : Nat} (place : Nat → α) {gaps : List Nat}
    (h : ∀ i < n, ∀ g ∈ gaps, place i = place ((i + g) % n) ∨ E (place i) (place ((i + g) % n))) {i : Nat}
        (hi : i < n) :
    Within E gaps.length (place i) (place ((i + gaps.sum) % n)) := by
  induction gaps generalizing i with
  | nil =>
    have heq : (i + [].sum) % n = i := by rw [List.sum_nil, Nat.add_zero, Nat.mod_eq_of_lt hi]
    rw [heq]
    exact .refl _ _
  | cons g gaps ih =>
    have hg := h i hi g List.mem_cons_self
    have hlt : (i + g) % n < n := Nat.mod_lt _ (by omega)
    have hrest := ih (fun i hi g' hg' => h i hi g' (List.mem_cons_of_mem _ hg')) hlt
    have hsum : ((i + g) % n + gaps.sum) % n = (i + (g :: gaps).sum) % n := by
      rw [Nat.mod_add_mod, List.sum_cons, Nat.add_assoc]
    rw [hsum] at hrest
    exact .cons hg hrest

/-- **Powers of two cover**: the powers below `2 ^ L` add up to every number below `2 ^ (L + 1)`. -/
theorem exists_powers {L : Nat} (hL : 1 ≤ L) {d : Nat} (hd : d < 2 ^ (L + 1)) :
    ∃ gaps : List Nat, (∀ g ∈ gaps, ∃ j < L, g = 2 ^ j) ∧ gaps.sum = d ∧ gaps.length ≤ L + 2 := by
  induction L, hL using Nat.le_induction generalizing d with
  | base =>
    refine ⟨List.replicate d 1, fun g hg => ⟨0, by omega, (List.eq_of_mem_replicate hg).trans rfl⟩, ?_, ?_⟩
    · simp
    · simp only [List.length_replicate]
      omega
  | succ L hL ih =>
    -- twice the powers of the half, and a one for an odd number
    have hhalf : d / 2 < 2 ^ (L + 1) := by
      rw [Nat.pow_succ] at hd
      omega
    obtain ⟨gaps, hpow, hsum, hlen⟩ := ih hhalf
    refine ⟨List.replicate (d % 2) 1 ++ gaps.map (2 * ·), fun g hg => ?_, ?_, ?_⟩
    · rcases List.mem_append.mp hg with hone | hdouble
      · exact ⟨0, by omega, (List.eq_of_mem_replicate hone).trans rfl⟩
      · obtain ⟨g', hg', rfl⟩ := List.mem_map.mp hdouble
        obtain ⟨j, hj, rfl⟩ := hpow g' hg'
        exact ⟨j + 1, by omega, by ring⟩
    · have hdouble : (gaps.map (2 * ·)).sum = 2 * gaps.sum := by
        have h := List.sum_map_mul_left gaps id 2
        rwa [List.map_id] at h
      have hone : (List.replicate (d % 2) 1).sum = d % 2 := by simp
      rw [List.sum_append, hdouble, hone, hsum]
      omega
    · simp only [List.length_append, List.length_replicate, List.length_map]
      omega

end Hops
