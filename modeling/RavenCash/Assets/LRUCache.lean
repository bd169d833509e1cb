import RavenCash.Lib.StdMap

/-!
# The LRU cache of `assettypes.h`

`CLRUCache` keeps at most `maxSize` items, the most recently used one first. Its list and its index
are one association list here: `insert` moves a key to the front, as `Put` and the `splice` of
`Get` do.
-/

set_option autoImplicit false

namespace RavenCash

structure CLRUCache (K V : Type) where
  items : StdMap K V := ∅
  maxSize : Nat

namespace CLRUCache

variable {K V : Type} [DecidableEq K]

/-- `pop_back` on the items. -/
def popBack (items : StdMap K V) : StdMap K V where
  entries := items.entries.dropLast
  nodupKeys := items.nodupKeys.sublist (List.dropLast_sublist _)

def put (c : CLRUCache K V) (key : K) (value : V) : CLRUCache K V :=
  let items := c.items.insert key value
  { c with items := if c.maxSize < items.entries.length then popBack items else items }

def erase (c : CLRUCache K V) (key : K) : CLRUCache K V := { c with items := c.items.erase key }

/-- `Exists(key)` -/
def contains (c : CLRUCache K V) (key : K) : Bool := decide (key ∈ c.items)

/-- `Get(key)`: the value, and the cache with the item in front. Without the item it throws. -/
def get? (c : CLRUCache K V) (key : K) : Option (V × CLRUCache K V) :=
  (c.items.lookup key).map (fun value => (value, { c with items := c.items.insert key value }))

theorem contains_iff_lookup (c : CLRUCache K V) (key : K) :
    c.contains key = true ↔ ∃ value, c.items.lookup key = some value := by
  rw [contains, decide_eq_true_iff, StdMap.mem_iff_lookup]

theorem lookup_popBack {items : StdMap K V} {k : K} {v : V}
    (h : (popBack items).lookup k = some v) : items.lookup k = some v := by
  have hmem : (⟨k, v⟩ : Sigma fun _ : K => V) ∈ (popBack items).entries :=
    AList.mem_lookup_iff.mp h
  exact AList.mem_lookup_iff.mpr (List.dropLast_subset _ hmem)

theorem lookup_insert_of_put {c : CLRUCache K V} {key k : K} {value v : V}
    (h : (c.put key value).items.lookup k = some v) :
    (c.items.insert key value).lookup k = some v := by
  simp only [put] at h
  split at h
  · exact lookup_popBack h
  · exact h

/-- What a cache holds after `Put` is the new item or an old one. -/
theorem lookup_put {c : CLRUCache K V} {key k : K} {value v : V}
    (h : (c.put key value).items.lookup k = some v) :
    (k = key ∧ v = value) ∨ c.items.lookup k = some v := by
  have hins := lookup_insert_of_put h
  rw [StdMap.lookup_assign] at hins
  by_cases hk : k = key
  · rw [if_pos hk] at hins
    exact Or.inl ⟨hk, (Option.some.inj hins).symm⟩
  · rw [if_neg hk] at hins
    exact Or.inr hins

theorem contains_of_put {c : CLRUCache K V} {key k : K} {value : V} (h : (c.put key value).contains k = true) :
    k = key ∨ c.contains k = true := by
  obtain ⟨v, hv⟩ := (contains_iff_lookup _ _).mp h
  exact (lookup_put hv).imp And.left fun hold => (contains_iff_lookup _ _).mpr ⟨v, hold⟩

theorem contains_of_erase {c : CLRUCache K V} {key k : K} (h : (c.erase key).contains k = true) :
    k ≠ key ∧ c.contains k = true := by
  obtain ⟨v, hv⟩ := (contains_iff_lookup _ _).mp h
  rw [erase, StdMap.lookup_erase_eq] at hv
  split_ifs at hv with hne
  exact ⟨hne, (contains_iff_lookup _ _).mpr ⟨v, hv⟩⟩

/-- `Get` changes the order of the items only. -/
theorem lookup_get? {c c' : CLRUCache K V} {key : K} {value : V}
    (h : c.get? key = some (value, c')) (k : K) : c'.items.lookup k = c.items.lookup k := by
  rw [get?, Option.map_eq_some_iff] at h
  obtain ⟨v, hv, heq⟩ := h
  cases heq
  show (c.items.insert key value).lookup k = _
  rw [StdMap.lookup_assign]
  by_cases hk : k = key
  · rw [if_pos hk, hk, hv]
  · rw [if_neg hk]

end CLRUCache

end RavenCash
