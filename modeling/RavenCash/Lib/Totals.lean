import RavenCash.Lib.StdMap

/-!
# Totals by key

A `std::map` that adds up values by key, as a loop over entries fills it. The values may be added in
a type whose addition is not exact; what the totals say is stated through a map `val` of the values
into a commutative monoid that respects the addition.
-/

set_option autoImplicit false

namespace StdMap

variable {K V M N : Type} [DecidableEq K]

/-! ## Exact totals -/

/-- The total of the values that a list of entries has at a key. -/
def totalAt [AddCommMonoid M] (val : V → M) (l : List (K × V)) (k : K) : M :=
  ((l.filter (fun e => e.1 = k)).map (fun e => val e.2)).sum

section

variable [AddCommMonoid M] [AddCommMonoid N] (val : V → M)

theorem totalAt_append (l l' : List (K × V)) (k : K) :
    totalAt val (l ++ l') k = totalAt val l k + totalAt val l' k := by
  simp [totalAt]

theorem totalAt_singleton (e : K × V) (k : K) :
    totalAt val [e] k = if e.1 = k then val e.2 else 0 := by
  by_cases h : e.1 = k
  · simp [totalAt, h]
  · simp [totalAt, h]

theorem totalAt_of_notMem {l : List (K × V)} {k : K} (h : k ∉ l.map Prod.fst) :
    totalAt val l k = 0 := by
  have hnil : l.filter (fun e => e.1 = k) = [] := by
    rw [List.filter_eq_nil_iff]
    intro e he heq
    simp only [decide_eq_true_eq] at heq
    exact h (List.mem_map.mpr ⟨e, he, heq⟩)
  simp [totalAt, hnil]

theorem map_totalAt (φ : M →+ N) (l : List (K × V)) (k : K) :
    φ (totalAt val l k) = totalAt (fun v => φ (val v)) l k := by
  rw [totalAt, map_list_sum, List.map_map]
  rfl

end

/-! ## The map of totals -/

/-- `if (m.count(k)) m.at(k) += v; else m.insert({k, v});` -/
def addTotal [Add V] (m : StdMap K V) (k : K) (v : V) : StdMap K V :=
  match m.lookup k with
  | some t => AList.insert k (t + v) m
  | none => AList.insert k v m

theorem lookup_addTotal [Add V] (m : StdMap K V) (k k' : K) (v : V) :
    (m.addTotal k v).lookup k' =
      if k' = k then some ((m.lookup k).elim v (· + v)) else m.lookup k' := by
  unfold addTotal
  cases hk : m.lookup k with
  | none => rw [lookup_assign]; rfl
  | some t => rw [lookup_assign]; rfl

/-- **The map holds the totals of the entries**: its keys are those of the entries, and the value at
a key counts what the entries have there. -/
structure IsTally [AddCommMonoid M] (val : V → M) (l : List (K × V)) (m : StdMap K V) : Prop where
  mem_iff : ∀ k, k ∈ m ↔ k ∈ l.map Prod.fst
  lookup_eq : ∀ k t, m.lookup k = some t → val t = totalAt val l k

namespace IsTally

variable [AddCommMonoid M] {val : V → M} {l : List (K × V)} {m : StdMap K V}

theorem empty : IsTally val ([] : List (K × V)) ∅ where
  mem_iff k := by simp
  lookup_eq k t h := by simp at h

theorem addTotal [Add V] (hadd : ∀ a b, val (a + b) = val a + val b) (h : IsTally val l m) (k : K) (v : V) :
    IsTally val (l ++ [(k, v)]) (m.addTotal k v) where
  mem_iff k' := by
    rw [mem_iff_lookup, lookup_addTotal, List.map_append, List.mem_append, ← h.mem_iff k',
      mem_iff_lookup]
    by_cases hk : k' = k
    · simp [hk]
    · simp [hk]
  lookup_eq k' t ht := by
    rw [lookup_addTotal] at ht
    rw [totalAt_append, totalAt_singleton]
    by_cases hk : k' = k
    · subst hk
      simp only [if_true, Option.some.injEq] at ht ⊢
      cases hlook : m.lookup k' with
      | none =>
          have hnot : k' ∉ l.map Prod.fst := by
            rw [← h.mem_iff k']
            exact AList.lookup_eq_none.mp hlook
          rw [totalAt_of_notMem val hnot, zero_add, ← ht, hlook]
          rfl
      | some s =>
          rw [← h.lookup_eq k' s hlook, ← ht, hlook]
          exact hadd s v
    · rw [if_neg hk] at ht
      rw [if_neg (Ne.symm hk), add_zero]
      exact h.lookup_eq k' t ht

/-- Equal maps of totals mean equal totals. -/
theorem totalAt_eq {l' : List (K × V)} {m' : StdMap K V} (h : IsTally val l m)
    (h' : IsTally val l' m') (k : K) (heq : m.lookup k = m'.lookup k) :
    totalAt val l k = totalAt val l' k := by
  cases hk : m.lookup k with
  | some t => rw [← h.lookup_eq k t hk, ← h'.lookup_eq k t (heq ▸ hk)]
  | none =>
      have hnot : k ∉ l.map Prod.fst := by
        rw [← h.mem_iff k]
        exact AList.lookup_eq_none.mp hk
      have hnot' : k ∉ l'.map Prod.fst := by
        rw [← h'.mem_iff k]
        exact AList.lookup_eq_none.mp (heq ▸ hk)
      rw [totalAt_of_notMem val hnot, totalAt_of_notMem val hnot']

end IsTally

/-! ## Comparing two maps -/

/-- **Two maps of one size agree when the entries of one are in the other.** -/
theorem lookup_eq_of_size_eq {m m' : StdMap K V}
    (hsub : ∀ k t, m.lookup k = some t → m'.lookup k = some t)
    (hsize : m.keys.length = m'.keys.length) (k : K) : m.lookup k = m'.lookup k := by
  have hkeys : m.keys ⊆ m'.keys := by
    intro k hk
    obtain ⟨t, ht⟩ := (mem_iff_lookup m k).mp hk
    exact (mem_iff_lookup m' k).mpr ⟨t, hsub k t ht⟩
  -- keys are distinct, so a subset of equal size is everything
  have hperm : m.keys.Perm m'.keys :=
    (List.subperm_of_subset m.keys_nodup hkeys).perm_of_length_le hsize.symm.le
  cases hk : m.lookup k with
  | some t => rw [hsub k t hk]
  | none =>
      have hnot : k ∉ m' := by
        intro hmem
        exact AList.lookup_eq_none.mp hk (hperm.mem_iff.mpr hmem)
      rw [AList.lookup_eq_none.mpr hnot]

end StdMap
