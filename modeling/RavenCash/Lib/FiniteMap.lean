import Mathlib.Data.Finmap
import Mathlib.Tactic

/-!
# Finite maps

An immutable map (`immer::map`) over Mathlib's finite maps: two maps with the same lookups are equal, so
that what is computed from a map does not depend on how the map was made. A loop over a map takes
the keys in a fixed order, by an injective `rank`.
-/

set_option autoImplicit false

abbrev FiniteMap (K V : Type) := Finmap fun _ : K => V

namespace FiniteMap

variable {K V : Type} [DecidableEq K]

theorem lookup_assign (m : FiniteMap K V) (k k' : K) (v : V) :
    (m.insert k v).lookup k' = if k' = k then some v else m.lookup k' := by
  by_cases h : k' = k
  · rw [if_pos h, h, Finmap.lookup_insert]
  · rw [if_neg h, Finmap.lookup_insert_of_ne m h]

theorem lookup_erase_eq (m : FiniteMap K V) (k k' : K) :
    (m.erase k).lookup k' = if k' = k then none else m.lookup k' := by
  by_cases h : k' = k
  · rw [if_pos h, h, Finmap.lookup_erase]
  · rw [if_neg h, Finmap.lookup_erase_ne h]

/-- `emplace`: an entry that is there stays. -/
def emplace (m : FiniteMap K V) (k : K) (v : V) : FiniteMap K V :=
  if (m.lookup k).isSome then m else m.insert k v

/-- Without the entries of some keys. -/
def eraseAll (m : FiniteMap K V) (ks : List K) : FiniteMap K V :=
  ks.foldl (fun m k => m.erase k) m

theorem lookup_eraseAll (m : FiniteMap K V) (ks : List K) (k : K) :
    (m.eraseAll ks).lookup k = if k ∈ ks then none else m.lookup k := by
  induction ks generalizing m with
  | nil => rfl
  | cons k' ks ih =>
    show (eraseAll (m.erase k') ks).lookup k = _
    rw [ih, lookup_erase_eq]
    by_cases hk : k = k'
    · rw [if_pos hk, ite_self, if_pos (hk ▸ List.mem_cons_self)]
    · rw [if_neg hk]
      exact if_congr (by rw [List.mem_cons, or_iff_right hk]) rfl rfl

theorem lookup_emplace (m : FiniteMap K V) (k k' : K) (v : V) :
    (m.emplace k v).lookup k' = if k' = k then (m.lookup k).or (some v) else m.lookup k' := by
  unfold emplace
  rcases hk : m.lookup k with _ | w
  · rw [Option.isSome_none, if_neg Bool.false_ne_true, lookup_assign, Option.none_or]
  · rw [Option.isSome_some, if_pos rfl, Option.some_or]
    split_ifs with hkey
    · rw [hkey, hk]
    · rfl

theorem lookup_foldl_emplace (m : FiniteMap K V) (ks : List K) (v : V) (k : K) :
    (ks.foldl (fun m k => m.emplace k v) m).lookup k =
      (m.lookup k).or (if k ∈ ks then some v else none) := by
  induction ks generalizing m with
  | nil => exact Option.or_none.symm
  | cons a ks ih =>
    rw [List.foldl_cons, ih, lookup_emplace]
    by_cases hk : k = a
    · rw [if_pos hk, if_pos (List.mem_cons.mpr (.inl hk)), hk]
      cases m.lookup a <;> rfl
    · rw [if_neg hk]
      exact congrArg _ (if_congr (by rw [List.mem_cons, or_iff_right hk]) rfl rfl)

/-- The entries that pass a test. -/
def keep (m : FiniteMap K V) (p : K → V → Bool) : FiniteMap K V :=
  ⟨m.entries.filter fun e => p e.1 e.2,
    Multiset.nodup_keys.mp (Multiset.nodup_of_le (Multiset.map_le_map (Multiset.filter_le _ _))
      (Multiset.nodup_keys.mpr m.nodupKeys))⟩

theorem lookup_keep (m : FiniteMap K V) (p : K → V → Bool) (k : K) :
    (m.keep p).lookup k = (m.lookup k).filter (p k) := by
  refine Option.ext fun v => ?_
  show v ∈ (m.keep p).lookup k ↔ _
  rw [Finmap.mem_lookup_iff, Option.filter_eq_some_iff, ← Option.mem_def, Finmap.mem_lookup_iff]
  exact Multiset.mem_filter

section

variable {m : FiniteMap K V} {k k' : K} {v w : V}

theorem lookup_insert_imp (h : (m.insert k v).lookup k' = some w) :
    k' = k ∧ w = v ∨ m.lookup k' = some w := by
  rw [lookup_assign] at h
  split_ifs at h with hk
  · exact .inl ⟨hk, (Option.some.inj h).symm⟩
  · exact .inr h

theorem lookup_emplace_imp (h : (m.emplace k v).lookup k' = some w) :
    k' = k ∧ w = v ∨ m.lookup k' = some w := by
  unfold emplace at h
  split_ifs at h
  · exact .inr h
  · exact lookup_insert_imp h

end

/-! ## Loops -/

/-- The order of the keys. -/
def keyLe (rank : K ↪ Nat) (p q : Sigma fun _ : K => V) : Prop := rank p.1 ≤ rank q.1

instance (rank : K ↪ Nat) : DecidableRel (keyLe (V := V) rank) :=
  fun p q => inferInstanceAs (Decidable (rank p.1 ≤ rank q.1))

omit [DecidableEq K] in
theorem pairwise_insertionSort (rank : K ↪ Nat) (l : List (Sigma fun _ : K => V)) :
    (l.insertionSort (keyLe rank)).Pairwise (keyLe rank) := by
  have : Std.Total (keyLe (V := V) rank) := ⟨fun p q => le_total (rank p.1) (rank q.1)⟩
  have : IsTrans (Sigma fun _ : K => V) (keyLe rank) :=
    ⟨fun p q r (hpq : rank p.1 ≤ rank q.1) (hqr : rank q.1 ≤ rank r.1) => hpq.trans hqr⟩
  exact List.pairwise_insertionSort _ l

omit [DecidableEq K] in
/-- Entries with different keys have one sorted order. -/
theorem insertionSort_eq_of_perm (rank : K ↪ Nat) {l l' : List (Sigma fun _ : K => V)}
    (hl : l.NodupKeys) (h : l.Perm l') :
    l.insertionSort (keyLe rank) = l'.insertionSort (keyLe rank) := by
  have hperm : (l.insertionSort (keyLe rank)).Perm (l'.insertionSort (keyLe rank)) :=
    (List.perm_insertionSort _ l).trans (h.trans (List.perm_insertionSort _ l').symm)
  refine hperm.eq_of_pairwise ?_ (pairwise_insertionSort rank l) (pairwise_insertionSort rank l')
  intro p q hp hq hpq hqp
  have hp' : p ∈ l := (List.perm_insertionSort _ l).mem_iff.mp hp
  have hq' : q ∈ l := h.mem_iff.mpr ((List.perm_insertionSort _ l').mem_iff.mp hq)
  have hkey : p.1 = q.1 := rank.injective (le_antisymm hpq hqp)
  obtain ⟨k, v⟩ := p
  obtain ⟨k', v'⟩ := q
  obtain rfl : k = k' := hkey
  rw [List.NodupKeys.eq_of_mk_mem hl hp' hq']

/-- The entries in the order of the keys. -/
def toList (rank : K ↪ Nat) (m : FiniteMap K V) : List (Sigma fun _ : K => V) :=
  m.liftOn (fun a => a.entries.insertionSort (keyLe rank)) fun a _ h =>
    insertionSort_eq_of_perm rank a.nodupKeys h

/-- The values in the order of the keys. -/
def values (rank : K ↪ Nat) (m : FiniteMap K V) : List V := (m.toList rank).map Sigma.snd

/-- The number of entries. -/
def size (m : FiniteMap K V) : Nat := m.liftOn (fun a => a.entries.length) fun _ _ h => h.length_eq

theorem mem_toList {rank : K ↪ Nat} {m : FiniteMap K V} {k : K} {v : V} :
    ⟨k, v⟩ ∈ m.toList rank ↔ m.lookup k = some v := by
  induction m using Finmap.induction_on with
  | _ a =>
    rw [toList, Finmap.liftOn_toFinmap, (List.perm_insertionSort _ _).mem_iff,
      Finmap.lookup_toFinmap]
    exact AList.mem_lookup_iff.symm

omit [DecidableEq K] in
theorem card_keys (m : FiniteMap K V) : m.keys.card = m.size := by
  induction m using Finmap.induction_on with
  | _ a =>
    rw [size, Finmap.liftOn_toFinmap]
    exact List.length_map _

theorem lookup_of_size_eq_zero {m : FiniteMap K V} (h : m.size = 0) (k : K) : m.lookup k = none := by
  rw [← card_keys, Finset.card_eq_zero] at h
  rw [Finmap.lookup_eq_none, ← Finmap.mem_keys, h]
  exact Finset.notMem_empty k

end FiniteMap
