import Mathlib.Data.List.AList
import Mathlib.Tactic

/-!
# Associative containers

`std::map` and `std::set` over Mathlib's association lists with distinct keys. A `std::set` whose
comparator only looks at a key of its elements is the map from that key to the element
(`StdSet key`): two elements with one key are equivalent, and `insert` keeps the one already there.

The order in which a container is iterated is not part of the model. What a loop over a container
does at one key is `StdMap.foldl_observe`.
-/

set_option autoImplicit false

/-! ## `std::map` -/

/-- A `std::map`: `lookup` is `find`, `insert` is `m[k] = v`, `erase` is `erase`. -/
abbrev StdMap (K V : Type) := AList (fun _ : K => V)

namespace StdMap

variable {K V S O : Type} [DecidableEq K]

theorem lookup_assign (m : StdMap K V) (k k' : K) (v : V) :
    (m.insert k v).lookup k' = if k' = k then some v else m.lookup k' := by
  by_cases h : k' = k
  · subst h
    simp
  · rw [if_neg h, AList.lookup_insert_ne h]

theorem lookup_erase_eq (m : StdMap K V) (k k' : K) :
    (m.erase k).lookup k' = if k' = k then none else m.lookup k' := by
  by_cases h : k' = k
  · subst h
    simp
  · rw [if_neg h, AList.lookup_erase_ne h]

theorem mem_iff_lookup (m : StdMap K V) (k : K) : k ∈ m ↔ ∃ v, m.lookup k = some v := by
  rw [← AList.lookup_isSome, Option.isSome_iff_exists]

/-- `m.insert({k, v})`: a key that is already present keeps its value. -/
def insertNew (m : StdMap K V) (k : K) (v : V) : StdMap K V :=
  if k ∈ m then m else AList.insert k v m

theorem lookup_insertNew (m : StdMap K V) (k k' : K) (v : V) :
    (m.insertNew k v).lookup k' =
      if k' = k then some ((m.lookup k).getD v) else m.lookup k' := by
  unfold insertNew
  by_cases hk : k ∈ m
  · obtain ⟨w, hw⟩ := (mem_iff_lookup m k).mp hk
    rw [if_pos hk]
    by_cases h : k' = k
    · subst h
      simp [hw]
    · rw [if_neg h]
  · rw [if_neg hk, lookup_assign, AList.lookup_eq_none.mpr hk]
    rfl

theorem foldl_entries_observe (l : List (Sigma fun _ : K => V)) (hl : l.NodupKeys)
    (f : S → K → V → S) (obs : S → O) (upd : V → O → O) (k : K)
    (hne : ∀ s k' v, ⟨k', v⟩ ∈ l → k' ≠ k → obs (f s k' v) = obs s)
    (heq : ∀ s v, ⟨k, v⟩ ∈ l → obs (f s k v) = upd v (obs s)) (s : S) :
    obs (l.foldl (fun r a => f r a.1 a.2) s) =
      (l.dlookup k).elim (obs s) (fun v => upd v (obs s)) := by
  induction l generalizing s with
  | nil => rfl
  | cons e l ih =>
      rcases e with ⟨k', v⟩
      rw [List.nodupKeys_cons] at hl
      rw [List.foldl_cons, ih hl.2 (fun s k'' w h => hne s k'' w (List.mem_cons_of_mem _ h))
        (fun s w h => heq s w (List.mem_cons_of_mem _ h))]
      by_cases h : k = k'
      · subst h
        have hnone : l.dlookup k = none := List.dlookup_eq_none.mpr hl.1
        rw [hnone, List.dlookup_cons_eq]
        exact heq s v List.mem_cons_self
      · rw [List.dlookup_cons_ne _ _ (by simpa using h),
          hne s k' v List.mem_cons_self (Ne.symm h)]

/-- **What a loop over a map does at one key.** If the loop body touches the observation only on
the iteration of key `k`, then the observation after the loop is decided by the value at `k`. -/
theorem foldl_observe (m : StdMap K V) (f : S → K → V → S) (obs : S → O) (upd : V → O → O) (k : K)
    (hne : ∀ s k' v, m.lookup k' = some v → k' ≠ k → obs (f s k' v) = obs s)
    (heq : ∀ s v, m.lookup k = some v → obs (f s k v) = upd v (obs s)) (s : S) :
    obs (m.foldl f s) = (m.lookup k).elim (obs s) (fun v => upd v (obs s)) :=
  foldl_entries_observe m.entries m.nodupKeys f obs upd k
    (fun s k' v h => hne s k' v (AList.mem_lookup_iff.mpr h))
    (fun s v h => heq s v (AList.mem_lookup_iff.mpr h)) s

/-- `for (auto& item : src) dst[item.first] = item.second;` -/
def assignAll (dst src : StdMap K V) : StdMap K V :=
  src.foldl (fun m k v => AList.insert k v m) dst

theorem lookup_assignAll (dst src : StdMap K V) (k : K) :
    (dst.assignAll src).lookup k = (src.lookup k).or (dst.lookup k) := by
  have h := foldl_observe src (fun m k v => AList.insert k v m) (fun m => m.lookup k)
    (fun v _ => some v) k (fun m k' v _ hk => AList.lookup_insert_ne (Ne.symm hk))
    (fun m v _ => AList.lookup_insert m) dst
  rw [assignAll, h]
  cases src.lookup k <;> rfl

end StdMap

/-! ## `std::set` with a key comparator -/

/-- A `std::set` whose elements are compared by `key` alone. -/
structure StdSet {α K : Type} [DecidableEq K] (key : α → K) where
  elems : StdMap K α
  key_eq : ∀ k a, elems.lookup k = some a → key a = k

namespace StdSet

variable {α K S O : Type} [DecidableEq K] {key : α → K}

instance : EmptyCollection (StdSet key) :=
  ⟨⟨∅, fun k a h => by simp at h⟩⟩

/-- `s.find(x)` for any `x` of key `k`. -/
def find? (s : StdSet key) (k : K) : Option α := s.elems.lookup k

/-- `s.count(x)` for any `x` of key `k`. -/
def contains (s : StdSet key) (k : K) : Bool := (s.find? k).isSome

def insert (s : StdSet key) (a : α) : StdSet key where
  elems := s.elems.insertNew (key a) a
  key_eq k b h := by
    rw [StdMap.lookup_insertNew] at h
    by_cases hk : k = key a
    · subst hk
      cases hs : s.elems.lookup (key a) with
      | none => simp [hs] at h; rw [h]
      | some c => simp [hs] at h; rw [← h]; exact s.key_eq _ _ hs
    · rw [if_neg hk] at h
      exact s.key_eq _ _ h

def erase (s : StdSet key) (k : K) : StdSet key where
  elems := AList.erase k s.elems
  key_eq k' b h := by
    rw [StdMap.lookup_erase_eq] at h
    by_cases hk : k' = k
    · simp [hk] at h
    · rw [if_neg hk] at h
      exact s.key_eq _ _ h

/-- `if (s.count(a)) s.erase(a); s.insert(a);` -/
def overwrite (s : StdSet key) (a : α) : StdSet key := (s.erase (key a)).insert a

/-- `for (auto& item : s) …` -/
def foldl (s : StdSet key) (f : S → α → S) (d : S) : S := s.elems.foldl (fun r _ a => f r a) d

def toList (s : StdSet key) : List α := s.elems.entries.map Sigma.snd

@[simp] theorem find?_empty (k : K) : (∅ : StdSet key).find? k = none := rfl

@[simp] theorem contains_empty (k : K) : (∅ : StdSet key).contains k = false := rfl

theorem key_of_find? {s : StdSet key} {k : K} {a : α} (h : s.find? k = some a) : key a = k :=
  s.key_eq k a h

theorem find?_insert (s : StdSet key) (a : α) (k : K) :
    (s.insert a).find? k = if k = key a then some ((s.find? (key a)).getD a) else s.find? k :=
  StdMap.lookup_insertNew s.elems (key a) k a

theorem find?_erase (s : StdSet key) (k k' : K) :
    (s.erase k).find? k' = if k' = k then none else s.find? k' :=
  StdMap.lookup_erase_eq s.elems k k'

theorem find?_overwrite (s : StdSet key) (a : α) (k : K) :
    (s.overwrite a).find? k = if k = key a then some a else s.find? k := by
  rw [overwrite, find?_insert, find?_erase, find?_erase]
  by_cases h : k = key a <;> simp [h]

theorem contains_eq_false {s : StdSet key} {k : K} : s.contains k = false ↔ s.find? k = none := by
  rw [contains, Option.isSome_eq_false_iff, Option.isNone_iff_eq_none]

@[simp] theorem contains_insert (s : StdSet key) (a : α) (k : K) :
    (s.insert a).contains k = (decide (k = key a) || s.contains k) := by
  by_cases h : k = key a <;> simp [contains, find?_insert, h]

@[simp] theorem contains_erase (s : StdSet key) (k k' : K) :
    (s.erase k).contains k' = (!decide (k' = k) && s.contains k') := by
  by_cases h : k' = k <;> simp [contains, find?_erase, h]

/-- The loop rule of maps, for the elements of a set. -/
theorem foldl_observe (s : StdSet key) (f : S → α → S) (obs : S → O) (upd : α → O → O) (k : K)
    (hne : ∀ r a, key a ≠ k → obs (f r a) = obs r)
    (heq : ∀ r a, key a = k → obs (f r a) = upd a (obs r)) (d : S) :
    obs (s.foldl f d) = (s.find? k).elim (obs d) (fun a => upd a (obs d)) :=
  StdMap.foldl_observe s.elems (fun r _ a => f r a) obs upd k
    (fun r k' a h hk => hne r a (by rw [s.key_eq k' a h]; exact hk))
    (fun r a h => heq r a (s.key_eq k a h)) d

end StdSet
