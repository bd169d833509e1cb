import RavenCash.Assets.LRUCache
import RavenCash.Lib.Simulation

/-!
# The list and the map of the LRU cache

`CLRUCache` of `assettypes.h` as it is stored: a `std::list` of the items, the most recently used one first, and a map
with iterators into the list. An iterator is the number of a node, which no later node gets; one that leads to no node
of the list is undefined behaviour, as is the last item of an empty list, and the operations then give `none`.

The cache whose items are one association list (`CLRUCache`) is what this one refines. What a caller can rely on
is said in terms of the calls: `LastPut` is the value of the last `Put` of a key, and `sinceUse` the number
of calls since its last `Put` or `Get`.
-/

set_option autoImplicit false

namespace RavenCash

variable {K V : Type} [DecidableEq K]

namespace CLRUCache

/-- The calls on a cache. -/
inductive Op (K V : Type) where
  | put (key : K) (value : V)
  | get (key : K)
  | contains (key : K)
  | erase (key : K)
  | clear

/-- What they return; `rangeError` is thrown. -/
inductive Answer (V : Type) where
  | done
  | value (value : V)
  | rangeError
  | found (found : Bool)
  deriving DecidableEq

/-- What `Get` returns for an item that is there or is not. -/
def Answer.ofItem {V : Type} : Option V → Answer V
  | none => .rangeError
  | some v => .value v

def step (c : CLRUCache K V) : Op K V → Answer V × CLRUCache K V
  | .put key value => (.done, c.put key value)
  | .get key =>
      match c.get? key with
      | none => (.rangeError, c)
      | some (value, c) => (.value value, c)
  | .contains key => (.found (c.contains key), c)
  | .erase key => (.done, c.erase key)
  | .clear => (.done, { c with items := ∅ })

end CLRUCache

/-! ## The code -/

/-- A node of the list, and the iterator to it. -/
structure CacheNode (K V : Type) where
  iterator : Nat
  key : K
  value : V

structure LinkedCache (K V : Type) where
  cacheItemsList : List (CacheNode K V) := []
  cacheItemsMap : StdMap K Nat := ∅
  maxSize : Nat
  nextIterator : Nat := 0

namespace LinkedCache

open CLRUCache (Op Answer)

/-- `cacheItemsList.erase(it)` -/
def eraseAt? (list : List (CacheNode K V)) (it : Nat) : Option (List (CacheNode K V)) :=
  if list.any (·.iterator = it) then some (list.filter (·.iterator ≠ it)) else none

/-- `*it` -/
def deref? (list : List (CacheNode K V)) (it : Nat) : Option (CacheNode K V) := list.find? (·.iterator = it)

/-- The part of `Put` and `Erase` that takes out the item of a key, if there is one. -/
def unlink? (list : List (CacheNode K V)) (map : StdMap K Nat) (key : K) :
    Option (List (CacheNode K V) × StdMap K Nat) :=
  match map.lookup key with
  | none => some (list, map)
  | some it => (eraseAt? list it).map (·, map.erase key)

def put (s : LinkedCache K V) (key : K) (value : V) : Option (LinkedCache K V) := do
  let list := ⟨s.nextIterator, key, value⟩ :: s.cacheItemsList
  let (list, map) ← unlink? list s.cacheItemsMap key
  let begin ← list.head?
  let map := map.insert key begin.iterator
  if s.maxSize < map.entries.length then
    let last ← list.getLast?
    some { s with
      cacheItemsList := list.dropLast, cacheItemsMap := map.erase last.key, nextIterator := s.nextIterator + 1 }
  else some { s with cacheItemsList := list, cacheItemsMap := map, nextIterator := s.nextIterator + 1 }

def erase (s : LinkedCache K V) (key : K) : Option (LinkedCache K V) := do
  let (list, map) ← unlink? s.cacheItemsList s.cacheItemsMap key
  some { s with cacheItemsList := list, cacheItemsMap := map }

/-- `Get(key)`, with the `splice` of the node to the front. -/
def get (s : LinkedCache K V) (key : K) : Option (Answer V × LinkedCache K V) :=
  match s.cacheItemsMap.lookup key with
  | none => some (.rangeError, s)
  | some it => do
      let node ← deref? s.cacheItemsList it
      let rest ← eraseAt? s.cacheItemsList it
      some (.value node.value, { s with cacheItemsList := node :: rest })

/-- `Exists(key)` -/
def contains (s : LinkedCache K V) (key : K) : Bool := (s.cacheItemsMap.lookup key).isSome

def clear (s : LinkedCache K V) : LinkedCache K V := { s with cacheItemsList := [], cacheItemsMap := ∅ }

def step (s : LinkedCache K V) : Op K V → Option (Answer V × LinkedCache K V)
  | .put key value => (s.put key value).map (.done, ·)
  | .get key => s.get key
  | .contains key => some (.found (s.contains key), s)
  | .erase key => (s.erase key).map (.done, ·)
  | .clear => some (.done, s.clear)

/-- The keys in the list, from the front. -/
def keys (s : LinkedCache K V) : List K := s.cacheItemsList.map CacheNode.key

/-! ## Refinement -/

def entry (n : CacheNode K V) : Sigma fun _ : K => V := ⟨n.key, n.value⟩

/-- The list has the items of the cache, and the map the iterators to them. -/
structure Represents (s : LinkedCache K V) (c : CLRUCache K V) : Prop where
  maxSize : s.maxSize = c.maxSize
  entries : c.items.entries = s.cacheItemsList.map entry
  lt : ∀ n ∈ s.cacheItemsList, n.iterator < s.nextIterator
  distinct : (s.cacheItemsList.map CacheNode.iterator).Nodup
  lookup : ∀ key it, s.cacheItemsMap.lookup key = some it ↔ ∃ n ∈ s.cacheItemsList, n.key = key ∧ n.iterator = it

theorem kerase_eq_filter {l : List (Sigma fun _ : K => V)} (hl : l.NodupKeys) (key : K) :
    l.kerase key = l.filter (·.1 ≠ key) := by
  induction l with
  | nil => rfl
  | cons e l ih =>
      obtain ⟨hnot, hl⟩ := List.nodupKeys_cons.mp hl
      rcases eq_or_ne key e.1 with rfl | hne
      · rw [List.kerase_cons_eq rfl, List.filter_cons_of_neg (by simp), List.filter_eq_self.mpr]
        intro e' he'
        refine decide_eq_true fun h => hnot ?_
        exact h ▸ List.mem_map_of_mem he'
      · rw [List.kerase_cons_ne hne, List.filter_cons_of_pos (by simpa using hne.symm), ih hl]

namespace Represents

variable {s : LinkedCache K V} {c : CLRUCache K V} (h : Represents s c) {key : K} {it : Nat}

include h

theorem keys_eq : s.keys = c.items.keys := by
  rw [AList.keys, List.keys, h.entries, List.map_map]
  rfl

theorem nodup_keys : s.keys.Nodup := h.keys_eq ▸ c.items.keys_nodup

/-- A node is that of the key if and only if it is the one the map leads to. -/
theorem key_eq_iff (hit : s.cacheItemsMap.lookup key = some it) {n : CacheNode K V} (hn : n ∈ s.cacheItemsList) :
    n.key = key ↔ n.iterator = it := by
  obtain ⟨m, hm, rfl, rfl⟩ := (h.lookup key it).mp hit
  constructor
  · exact fun heq => congrArg CacheNode.iterator (List.inj_on_of_nodup_map h.nodup_keys hn hm heq)
  · exact fun heq => congrArg CacheNode.key (List.inj_on_of_nodup_map h.distinct hn hm heq)

theorem mem_keys_iff : key ∈ s.keys ↔ ∃ it, s.cacheItemsMap.lookup key = some it := by
  simp only [keys, List.mem_map, h.lookup]
  exact ⟨fun ⟨n, hn, hkey⟩ => ⟨n.iterator, n, hn, hkey, rfl⟩, fun ⟨_, n, hn, hkey, _⟩ => ⟨n, hn, hkey⟩⟩

theorem keys_perm : s.cacheItemsMap.keys.Perm s.keys := by
  rw [List.perm_ext_iff_of_nodup s.cacheItemsMap.keys_nodup h.nodup_keys]
  intro key
  rw [h.mem_keys_iff, ← AList.mem_keys, StdMap.mem_iff_lookup]

/-- The two sizes are one. -/
theorem length_map : s.cacheItemsMap.entries.length = c.items.entries.length := by
  have hlength := h.keys_perm.length_eq
  rw [h.keys_eq] at hlength
  simpa only [AList.keys, List.keys, List.length_map] using hlength

/-- The map is exact on a list of the same nodes. -/
theorem reorder {list : List (CacheNode K V)} (hperm : list.Perm s.cacheItemsList) {items : StdMap K V}
    (hitems : items.entries = list.map entry) :
    Represents { s with cacheItemsList := list } { c with items := items } where
  maxSize := h.maxSize
  entries := hitems
  lt n hn := h.lt n (hperm.mem_iff.mp hn)
  distinct := (hperm.map CacheNode.iterator).nodup_iff.mpr h.distinct
  lookup key it := by simp only [h.lookup, hperm.mem_iff]

theorem deref?_eq {n : CacheNode K V} (hn : n ∈ s.cacheItemsList) : deref? s.cacheItemsList n.iterator = some n := by
  cases hfind : deref? s.cacheItemsList n.iterator with
  | none => exact absurd (decide_eq_true rfl) (List.find?_eq_none.mp hfind n hn)
  | some m =>
      have hit : m.iterator = n.iterator := by simpa using List.find?_some hfind
      rw [List.inj_on_of_nodup_map h.distinct (List.mem_of_find?_eq_some hfind) hn hit]

/-- The iterator of a key leads to its node, also behind nodes that are new. -/
theorem eraseAt?_eq (front : List (CacheNode K V)) (hfront : ∀ n ∈ front, s.nextIterator ≤ n.iterator)
    (hlookup : s.cacheItemsMap.lookup key = some it) :
    eraseAt? (front ++ s.cacheItemsList) it = some (front ++ s.cacheItemsList.filter (·.key ≠ key)) := by
  obtain ⟨n, hn, hkey, hit⟩ := (h.lookup key it).mp hlookup
  have hany : (front ++ s.cacheItemsList).any (·.iterator = it) = true :=
    List.any_eq_true.mpr ⟨n, List.mem_append_right _ hn, decide_eq_true hit⟩
  have hkept : front.filter (·.iterator ≠ it) = front := by
    refine List.filter_eq_self.mpr fun m hm => decide_eq_true fun heq => ?_
    have := h.lt n hn
    have := hfront m hm
    omega
  have hrest : s.cacheItemsList.filter (·.iterator ≠ it) = s.cacheItemsList.filter (·.key ≠ key) :=
    List.filter_congr fun m hm => decide_eq_decide.mpr (not_congr (h.key_eq_iff hlookup hm).symm)
  rw [eraseAt?, if_pos hany, List.filter_append, hkept, hrest]

/-- The item of a key is taken out. -/
theorem unlink (front : List (CacheNode K V)) (hfront : ∀ n ∈ front, s.nextIterator ≤ n.iterator) (key : K) :
    ∃ map, unlink? (front ++ s.cacheItemsList) s.cacheItemsMap key =
        some (front ++ s.cacheItemsList.filter (·.key ≠ key), map) ∧
      Represents { s with cacheItemsList := s.cacheItemsList.filter (·.key ≠ key), cacheItemsMap := map }
        (c.erase key) := by
  have hentries : (c.erase key).items.entries = (s.cacheItemsList.filter (·.key ≠ key)).map entry := by
    show c.items.entries.kerase key = _
    rw [kerase_eq_filter c.items.nodupKeys, h.entries, List.filter_map]
    rfl
  have hbase : ∀ map : StdMap K Nat, (∀ k, map.lookup k = if k = key then none else s.cacheItemsMap.lookup k) →
      Represents { s with cacheItemsList := s.cacheItemsList.filter (·.key ≠ key), cacheItemsMap := map }
        (c.erase key) := by
    intro map hmap
    refine ⟨h.maxSize, hentries, fun n hn => h.lt n (List.mem_of_mem_filter hn),
      h.distinct.sublist (List.filter_sublist.map _), fun k it => ?_⟩
    dsimp only
    rw [hmap]
    split_ifs with hk
    · refine ⟨fun h => (nomatch h), ?_⟩
      rintro ⟨n, hn, rfl, -⟩
      exact absurd hk (of_decide_eq_true (List.mem_filter.mp hn).2)
    · rw [h.lookup]
      refine exists_congr fun n => ?_
      rw [List.mem_filter, decide_eq_true_iff, and_assoc]
      exact and_congr_right fun _ => ⟨fun ⟨hkey, hit⟩ => ⟨hkey ▸ hk, hkey, hit⟩, And.right⟩
  unfold unlink?
  cases hlookup : s.cacheItemsMap.lookup key with
  | none =>
      have hself : s.cacheItemsList.filter (·.key ≠ key) = s.cacheItemsList := by
        refine List.filter_eq_self.mpr fun n hn => decide_eq_true fun hkey => ?_
        have hsome := (h.lookup key n.iterator).mpr ⟨n, hn, hkey, rfl⟩
        exact nomatch hlookup.symm.trans hsome
      refine ⟨s.cacheItemsMap, by rw [hself], hbase _ fun k => ?_⟩
      split_ifs with hk
      · rw [hk, hlookup]
      · rfl
  | some it =>
      refine ⟨s.cacheItemsMap.erase key, ?_, hbase _ fun k => StdMap.lookup_erase_eq _ _ _⟩
      dsimp only
      rw [h.eraseAt?_eq front hfront hlookup, Option.map_some]

/-- A node is put in front, and the map leads to it. -/
theorem push (hkey : key ∉ c.items) (value : V) :
    Represents
      { s with
        cacheItemsList := ⟨s.nextIterator, key, value⟩ :: s.cacheItemsList
        cacheItemsMap := s.cacheItemsMap.insert key s.nextIterator
        nextIterator := s.nextIterator + 1 }
      { c with items := c.items.insert key value } where
  maxSize := h.maxSize
  entries := by
    dsimp only
    rw [AList.entries_insert_of_notMem hkey, h.entries]
    rfl
  lt := by
    rintro n (_ | ⟨_, hn⟩)
    · exact Nat.lt_succ_self _
    · exact Nat.lt_succ_of_lt (h.lt n hn)
  distinct := by
    refine List.nodup_cons.mpr ⟨?_, h.distinct⟩
    rintro hmem
    obtain ⟨n, hn, heq⟩ := List.mem_map.mp hmem
    exact absurd (h.lt n hn) (heq ▸ lt_irrefl _)
  lookup := by
    intro k it
    dsimp only
    have hnot : ∀ n ∈ s.cacheItemsList, n.key ≠ key := by
      rintro n hn rfl
      exact hkey (AList.mem_keys.mpr (h.keys_eq ▸ List.mem_map_of_mem hn))
    rw [StdMap.lookup_assign, List.exists_mem_cons_iff]
    split_ifs with hk
    · subst hk
      rw [Option.some.injEq]
      refine ⟨fun hit => .inl ⟨rfl, hit⟩, ?_⟩
      rintro (⟨-, hit⟩ | ⟨n, hn, heq, -⟩)
      · exact hit
      · exact absurd heq (hnot n hn)
    · rw [h.lookup]
      exact ⟨.inr, fun h => h.resolve_left fun heq => hk heq.1.symm⟩

theorem pop {last : CacheNode K V} (hlast : s.cacheItemsList.getLast? = some last) :
    Represents
      { s with cacheItemsList := s.cacheItemsList.dropLast, cacheItemsMap := s.cacheItemsMap.erase last.key }
      { c with items := CLRUCache.popBack c.items } where
  maxSize := h.maxSize
  entries := by
    show c.items.entries.dropLast = _
    rw [h.entries, List.map_dropLast]
  lt n hn := h.lt n (List.dropLast_subset _ hn)
  distinct := h.distinct.sublist ((List.dropLast_sublist _).map _)
  lookup := by
    intro k it
    dsimp only
    have hlist : s.cacheItemsList.dropLast ++ [last] = s.cacheItemsList := List.dropLast_append_getLast? last hlast
    have hmem : ∀ n, n ∈ s.cacheItemsList ↔ n ∈ s.cacheItemsList.dropLast ∨ n = last := by
      intro n
      rw [← List.mem_singleton, ← List.mem_append, hlist]
    rw [StdMap.lookup_erase_eq]
    split_ifs with hk
    · refine ⟨fun h => (nomatch h), ?_⟩
      rintro ⟨n, hn, rfl, -⟩
      -- the last key would be there twice
      have hnodup := h.nodup_keys
      rw [keys, ← hlist, List.map_append, List.nodup_append] at hnodup
      exact absurd hk (hnodup.2.2 _ (List.mem_map_of_mem hn) _ (List.mem_singleton.mpr rfl))
    · rw [h.lookup]
      refine exists_congr fun n => and_congr_left ?_
      rintro ⟨rfl, -⟩
      rw [hmem, or_iff_left]
      rintro rfl
      exact hk rfl

theorem lookup_items {n : CacheNode K V} (hn : n ∈ s.cacheItemsList) : c.items.lookup n.key = some n.value := by
  refine AList.mem_lookup_iff.mpr ?_
  rw [h.entries]
  exact List.mem_map_of_mem hn

theorem lookup_items_eq_none (hnone : s.cacheItemsMap.lookup key = none) : c.items.lookup key = none := by
  refine AList.lookup_eq_none.mpr fun hmem => ?_
  rw [AList.mem_keys, ← h.keys_eq, h.mem_keys_iff] at hmem
  obtain ⟨it, hit⟩ := hmem
  exact nomatch hnone.symm.trans hit

/-- `splice` moves the node of the key to the front. -/
theorem get_spec (key : K) :
    ∃ s', s.get key = some ((c.step (.get key)).1, s') ∧ Represents s' (c.step (.get key)).2 := by
  unfold LinkedCache.get CLRUCache.step CLRUCache.get?
  dsimp only
  cases hlookup : s.cacheItemsMap.lookup key with
  | none =>
      rw [h.lookup_items_eq_none hlookup]
      exact ⟨s, rfl, h⟩
  | some it =>
      obtain ⟨n, hn, rfl, rfl⟩ := (h.lookup key it).mp hlookup
      have hunique : ∀ m ∈ s.cacheItemsList, m.key = n.key → m = n := fun m hm heq =>
        List.inj_on_of_nodup_map h.nodup_keys hm hn heq
      have herase := h.eraseAt?_eq [] (by simp) hlookup
      rw [h.lookup_items hn]
      refine ⟨{ s with cacheItemsList := n :: s.cacheItemsList.filter (·.key ≠ n.key) }, ?_, h.reorder ?_ ?_⟩
      · rw [List.nil_append, List.nil_append] at herase
        simp only [h.deref?_eq hn, herase, Option.bind_eq_bind, Option.bind_some, Option.map_some]
      · have hnodup : s.cacheItemsList.Nodup := h.distinct.of_map _
        have hnot : n ∉ s.cacheItemsList.filter (·.key ≠ n.key) := fun hmem =>
          of_decide_eq_true (List.mem_filter.mp hmem).2 rfl
        rw [List.perm_ext_iff_of_nodup (List.nodup_cons.mpr ⟨hnot, hnodup.filter _⟩) hnodup]
        intro m
        rw [List.mem_cons, List.mem_filter, decide_eq_true_iff]
        constructor
        · rintro (rfl | ⟨hm, -⟩)
          · exact hn
          · exact hm
        · exact fun hm => (eq_or_ne m.key n.key).imp (hunique m hm) fun hne => ⟨hm, hne⟩
      · rw [AList.entries_insert, kerase_eq_filter c.items.nodupKeys, h.entries, List.filter_map]
        rfl

theorem put_spec (key : K) (value : V) : ∃ s', s.put key value = some s' ∧ Represents s' (c.put key value) := by
  obtain ⟨map, hunlink, hrest⟩ := h.unlink [⟨s.nextIterator, key, value⟩] (by simp) key
  have hnot : key ∉ (c.erase key).items := by simp [CLRUCache.erase, AList.mem_erase]
  have hpush := hrest.push hnot value
  have hitems : (c.erase key).items.insert key value = c.items.insert key value := by
    refine AList.ext ?_
    show _ :: (c.items.entries.kerase key).kerase key = _ :: c.items.entries.kerase key
    rw [List.kerase_of_notMem_keys (List.notMem_keys_kerase key c.items.nodupKeys)]
  rw [hitems, show (c.erase key).maxSize = s.maxSize from h.maxSize.symm] at hpush
  have hlength := hpush.length_map
  dsimp only at hpush hlength
  simp only [List.singleton_append] at hunlink
  unfold LinkedCache.put CLRUCache.put
  simp only [hunlink, List.head?_cons, Option.bind_eq_bind, Option.bind_some]
  rw [hlength, ← h.maxSize]
  split_ifs with hfull
  · obtain ⟨last, hlast⟩ := Option.isSome_iff_exists.mp (List.getLast?_isSome.mpr (List.cons_ne_nil _ _))
    rw [hlast]
    exact ⟨_, rfl, hpush.pop hlast⟩
  · exact ⟨_, rfl, hpush⟩

theorem erase_spec (key : K) : ∃ s', s.erase key = some s' ∧ Represents s' (c.erase key) := by
  obtain ⟨map, hunlink, hrest⟩ := h.unlink [] (by simp) key
  rw [List.nil_append, List.nil_append] at hunlink
  unfold LinkedCache.erase
  rw [hunlink]
  exact ⟨_, rfl, hrest⟩

theorem contains_eq (key : K) : s.contains key = c.contains key := by
  rw [Bool.eq_iff_iff, CLRUCache.contains, decide_eq_true_iff, AList.mem_keys, ← h.keys_eq, h.mem_keys_iff,
    LinkedCache.contains, Option.isSome_iff_exists]

theorem clear : Represents s.clear { c with items := ∅ } :=
  ⟨h.maxSize, rfl, fun _ hn => (nomatch hn), List.nodup_nil, fun _ _ =>
    ⟨fun h => (nomatch h), fun ⟨_, hn, _⟩ => (nomatch hn)⟩⟩

end Represents

theorem refines : Simulation.Refines (step (K := K) (V := V)) CLRUCache.step (fun _ _ => True) Represents := by
  intro s c op h _
  cases op with
  | put key value =>
      obtain ⟨s', hput, hs'⟩ := h.put_spec key value
      exact ⟨s', by rw [step, hput]; rfl, hs'⟩
  | get key => exact h.get_spec key
  | contains key => exact ⟨s, by rw [step, h.contains_eq]; rfl, h⟩
  | erase key =>
      obtain ⟨s', herase, hs'⟩ := h.erase_spec key
      exact ⟨s', by rw [step, herase]; rfl, hs'⟩
  | clear => exact ⟨s.clear, rfl, h.clear⟩

theorem represents_empty (maxSize : Nat) : Represents { maxSize := maxSize } { maxSize := maxSize : CLRUCache K V } :=
  ⟨rfl, rfl, fun _ hn => (nomatch hn), List.nodup_nil, fun _ _ =>
    ⟨fun h => (nomatch h), fun ⟨_, hn, _⟩ => (nomatch hn)⟩⟩

end LinkedCache

namespace CLRUCache

/-! ## The order of the items -/

/-- A `Put` or `Get` of the key. -/
def Op.uses (key : K) : Op K V → Bool
  | .put k _ => k = key
  | .get k => k = key
  | _ => false

/-- The number of calls since the last `Put` or `Get` of the key. -/
def sinceUse (ops : List (Op K V)) (key : K) : Nat := ops.reverse.findIdx (Op.uses key)

theorem sinceUse_append (ops : List (Op K V)) (op : Op K V) (key : K) :
    sinceUse (ops ++ [op]) key = if op.uses key then 0 else sinceUse ops key + 1 := by
  rw [sinceUse, List.reverse_append, List.reverse_singleton, List.singleton_append, List.findIdx_cons]
  cases op.uses key <;> rfl

/-- The keys are in the order of their last uses. -/
def Ordered (ops : List (Op K V)) (l : List K) : Prop :=
  l.Pairwise fun k k' => sinceUse ops k < sinceUse ops k'

variable {ops : List (Op K V)} {l : List K}

theorem Ordered.sublist (h : Ordered ops l) {l' : List K} (hl : l'.Sublist l) :
    Ordered ops l' := List.Pairwise.sublist hl h

theorem Ordered.unused (h : Ordered ops l) {op : Op K V} (hop : ∀ k ∈ l, op.uses k = false) :
    Ordered (ops ++ [op]) l := by
  refine List.Pairwise.imp_of_mem (fun {k k'} hk hk' hlt => ?_) h
  rw [sinceUse_append, sinceUse_append, hop k hk, hop k' hk']
  exact Nat.succ_lt_succ hlt

/-- The key that is used comes to the front. -/
theorem Ordered.used (h : Ordered ops l) (hl : l.Nodup) {op : Op K V} {key : K}
    (hop : ∀ k, op.uses k = decide (key = k)) :
    Ordered (ops ++ [op]) (key :: l.erase key) := by
  have hother : ∀ k ∈ l.erase key, op.uses k = false := fun k hk => by
    rw [hop, decide_eq_false_iff_not]
    rintro rfl
    exact hl.not_mem_erase hk
  refine List.pairwise_cons.mpr ⟨fun k hk => ?_, (h.sublist List.erase_sublist).unused hother⟩
  rw [sinceUse_append, sinceUse_append, hother k hk, hop, decide_eq_true rfl]
  exact Nat.succ_pos _

omit [DecidableEq K] in
theorem keys_popBack (items : StdMap K V) : (popBack items).keys = items.keys.dropLast := by
  simp only [AList.keys, List.keys, popBack, List.map_dropLast]

theorem ordered_step {c : CLRUCache K V} (h : Ordered ops c.items.keys) (op : Op K V) :
    Ordered (ops ++ [op]) (c.step op).2.items.keys := by
  cases op with
  | put key value =>
      have hfront : Ordered (ops ++ [.put key value]) (c.items.insert key value).keys := by
        rw [AList.keys_insert]
        exact h.used c.items.keys_nodup fun _ => rfl
      simp only [step, put]
      split_ifs
      · rw [keys_popBack]
        exact hfront.sublist (List.dropLast_sublist _)
      · exact hfront
  | get key =>
      simp only [step, get?]
      cases hlookup : c.items.lookup key with
      | none =>
          refine h.unused fun k hk => decide_eq_false ?_
          rintro rfl
          exact AList.lookup_eq_none.mp hlookup (AList.mem_keys.mpr hk)
      | some value =>
          simp only [Option.map_some, AList.keys_insert]
          exact h.used c.items.keys_nodup fun _ => rfl
  | contains key => exact h.unused fun _ _ => rfl
  | erase key =>
      simp only [step, erase, AList.keys_erase]
      exact (h.sublist List.erase_sublist).unused fun _ _ => rfl
  | clear => exact List.Pairwise.nil

/-- The cache after some calls. -/
def after (maxSize : Nat) (ops : List (Op K V)) : CLRUCache K V :=
  Simulation.exec (fun c op => (c.step op).2) { maxSize := maxSize } ops

theorem after_append (maxSize : Nat) (ops : List (Op K V)) (op : Op K V) :
    after maxSize (ops ++ [op]) = ((after maxSize ops).step op).2 := by
  rw [after, Simulation.exec_append]
  rfl

theorem ordered_after (maxSize : Nat) (ops : List (Op K V)) : Ordered ops (after maxSize ops).items.keys := by
  induction ops using List.reverseRecOn with
  | nil => exact List.Pairwise.nil
  | append_singleton ops op ih => exact after_append maxSize ops op ▸ ordered_step ih op

theorem maxSize_step (c : CLRUCache K V) (op : Op K V) : (c.step op).2.maxSize = c.maxSize := by
  cases op with
  | get key =>
      simp only [step, get?]
      cases c.items.lookup key <;> rfl
  | _ => rfl

@[simp] theorem maxSize_after (maxSize : Nat) (ops : List (Op K V)) : (after maxSize ops).maxSize = maxSize := by
  induction ops using List.reverseRecOn with
  | nil => rfl
  | append_singleton ops op ih => rw [after_append, maxSize_step, ih]

omit [DecidableEq K] in
theorem length_keys (items : StdMap K V) : items.keys.length = items.entries.length := List.length_map _

theorem length_step {c : CLRUCache K V} (h : c.items.entries.length ≤ c.maxSize) (op : Op K V) :
    (c.step op).2.items.entries.length ≤ c.maxSize := by
  rw [← length_keys] at h ⊢
  cases op with
  | put key value =>
      have hinsert : (c.items.insert key value).keys.length ≤ c.maxSize + 1 := by
        rw [AList.keys_insert]
        exact Nat.succ_le_succ (List.erase_sublist.length_le.trans h)
      simp only [step, put]
      split_ifs with hfull
      · rw [keys_popBack, List.length_dropLast]
        omega
      · rw [length_keys]
        omega
  | get key =>
      simp only [step, get?]
      cases hlookup : c.items.lookup key with
      | none => exact h
      | some value =>
          have hmem : key ∈ c.items.keys := AList.mem_keys.mp ((StdMap.mem_iff_lookup _ _).mpr ⟨value, hlookup⟩)
          have hpos := List.length_pos_of_mem hmem
          simp only [Option.map_some, AList.keys_insert, List.length_cons, List.length_erase_of_mem hmem]
          omega
  | contains key => exact h
  | erase key =>
      simp only [step, erase, AList.keys_erase]
      exact List.erase_sublist.length_le.trans h
  | clear => exact Nat.zero_le _

theorem length_after (maxSize : Nat) (ops : List (Op K V)) : (after maxSize ops).items.entries.length ≤ maxSize := by
  induction ops using List.reverseRecOn with
  | nil => exact Nat.zero_le _
  | append_singleton ops op ih =>
      have hbound : (after maxSize ops).items.entries.length ≤ (after maxSize ops).maxSize := by rwa [maxSize_after]
      have hstep := length_step hbound op
      rwa [← after_append, maxSize_after] at hstep

theorem lookup_put_iff (c : CLRUCache K V) (key k : K) (value v : V) :
    (c.put key value).items.lookup k = some v ↔
      k ∈ (c.put key value).items ∧ (c.items.insert key value).lookup k = some v := by
  constructor
  · exact fun h => ⟨(StdMap.mem_iff_lookup _ _).mpr ⟨v, h⟩, lookup_insert_of_put h⟩
  · rintro ⟨hmem, h⟩
    obtain ⟨w, hw⟩ := (StdMap.mem_iff_lookup _ _).mp hmem
    rw [hw, ← lookup_insert_of_put hw, h]

/-- A key that is put is one more unless it was there. -/
theorem length_insert (items : StdMap K V) (key : K) (value : V) :
    (items.insert key value).entries.length =
      if key ∈ items then items.entries.length else items.entries.length + 1 := by
  rw [← length_keys, ← length_keys, AList.keys_insert, List.length_cons]
  split_ifs with h
  · have hmem := AList.mem_keys.mp h
    have hpos := List.length_pos_of_mem hmem
    rw [List.length_erase_of_mem hmem]
    omega
  · rw [List.erase_of_not_mem fun hmem => h (AList.mem_keys.mpr hmem)]

/-- An item that is put without the cache being full stays with all the others. -/
theorem mem_put_of_space {c : CLRUCache K V} {key : K} {value : V}
    (h : (c.items.insert key value).entries.length ≤ c.maxSize) (k : K) :
    k ∈ (c.put key value).items ↔ k = key ∨ k ∈ c.items := by
  rw [put]
  dsimp only
  rw [if_neg (Nat.not_lt.mpr h), AList.mem_insert]

/-- **The least recently used key is evicted.** -/
theorem evicted_of_full {c : CLRUCache K V} {key : K} {value : V} (hc : Ordered ops c.items.keys)
    (hfull : c.maxSize < (c.items.insert key value).entries.length) :
    ∃ evicted, (evicted = key ∨ evicted ∈ c.items) ∧
      (∀ k, k ∈ (c.put key value).items ↔ (k = key ∨ k ∈ c.items) ∧ k ≠ evicted) ∧
      ∀ k, (k = key ∨ k ∈ c.items) → k ≠ evicted →
        sinceUse (ops ++ [.put key value]) k < sinceUse (ops ++ [.put key value]) evicted := by
  have hordered : Ordered (ops ++ [.put key value]) (c.items.insert key value).keys := by
    rw [AList.keys_insert]
    exact hc.used c.items.keys_nodup fun _ => rfl
  have hnodup := (c.items.insert key value).keys_nodup
  have hmem : ∀ k, k ∈ (c.items.insert key value).keys ↔ k = key ∨ k ∈ c.items := fun k => by
    rw [← AList.mem_keys, AList.mem_insert]
  obtain ⟨others, evicted, hkeys⟩ : ∃ others evicted, (c.items.insert key value).keys = others ++ [evicted] := by
    refine ⟨_, _, (List.dropLast_append_getLast ?_).symm⟩
    rw [AList.keys_insert]
    exact List.cons_ne_nil _ _
  have hput : (c.put key value).items.keys = others := by
    rw [put]
    dsimp only
    rw [if_pos hfull, keys_popBack, hkeys, List.dropLast_concat]
  rw [Ordered, hkeys, List.pairwise_append] at hordered
  rw [hkeys, List.nodup_append] at hnodup
  simp only [hkeys, List.mem_append, List.mem_singleton] at hmem
  have hothers : ∀ k, k ∈ others → k ≠ evicted := fun k hk => hnodup.2.2 k hk evicted (List.mem_singleton.mpr rfl)
  refine ⟨evicted, (hmem evicted).mp (.inr rfl), fun k => ?_, fun k hk hne => ?_⟩
  · rw [AList.mem_keys, hput, ← hmem]
    exact ⟨fun h => ⟨.inl h, hothers k h⟩, fun h => h.1.resolve_right h.2⟩
  · exact hordered.2.2 k (((hmem k).mpr hk).resolve_right hne) evicted (List.mem_singleton.mpr rfl)

end CLRUCache

namespace LinkedCache

open CLRUCache (Op Answer sinceUse)

/-! ## What the calls before say -/

/-- The cache after some calls, with what they returned. -/
def run (maxSize : Nat) (ops : List (Op K V)) : Option (List (Answer V) × LinkedCache K V) :=
  Simulation.run step { maxSize := maxSize } ops

theorem run_represents (maxSize : Nat) (ops : List (Op K V)) :
    ∃ answers s, run maxSize ops = some (answers, s) ∧ Represents s (CLRUCache.after maxSize ops) := by
  obtain ⟨s, hrun, hs⟩ := refines.run_exec (represents_empty maxSize) ops
  exact ⟨_, s, hrun, hs⟩

/-- The keys in the cache after some calls. -/
def keysAfter (maxSize : Nat) (ops : List (Op K V)) : List K :=
  match run maxSize ops with
  | none => []
  | some (_, s) => s.keys

theorem keysAfter_eq (maxSize : Nat) (ops : List (Op K V)) :
    keysAfter maxSize ops = (CLRUCache.after maxSize ops).items.keys := by
  obtain ⟨answers, s, hrun, hs⟩ := run_represents maxSize ops
  rw [keysAfter, hrun, ← hs.keys_eq]

/-- The call makes the cache drop the key to stay within its size. -/
def Evicts (maxSize : Nat) (before : List (Op K V)) (op : Op K V) (key : K) : Prop :=
  match op with
  | .put k _ => (key = k ∨ key ∈ keysAfter maxSize before) ∧ key ∉ keysAfter maxSize (before ++ [op])
  | _ => False

/-- The last `Put` of the key was of the value, and since then the key was not erased or evicted. -/
inductive LastPut (maxSize : Nat) : List (Op K V) → K → V → Prop
  | put {before : List (Op K V)} {key : K} {value : V} (hkept : ¬ Evicts maxSize before (.put key value) key) :
      LastPut maxSize (before ++ [.put key value]) key value
  | later {before : List (Op K V)} {op : Op K V} {key : K} {value : V} (hlast : LastPut maxSize before key value)
      (hput : ∀ value', op ≠ .put key value') (herase : op ≠ .erase key) (hclear : op ≠ .clear)
      (hkept : ¬ Evicts maxSize before op key) : LastPut maxSize (before ++ [op]) key value

theorem lastPut_append_iff {maxSize : Nat} {before : List (Op K V)} {op : Op K V} {key : K} {value : V} :
    LastPut maxSize (before ++ [op]) key value ↔
      ¬ Evicts maxSize before op key ∧ (op = .put key value ∨
        LastPut maxSize before key value ∧ (∀ value', op ≠ .put key value') ∧ op ≠ .erase key ∧ op ≠ .clear) := by
  constructor
  · intro h
    generalize hops : before ++ [op] = ops at h
    cases h with
    | put hkept =>
        obtain ⟨rfl, hop⟩ := List.append_inj' hops rfl
        obtain rfl := List.singleton_inj.mp hop
        exact ⟨hkept, .inl rfl⟩
    | later hlast hput herase hclear hkept =>
        obtain ⟨rfl, hop⟩ := List.append_inj' hops rfl
        obtain rfl := List.singleton_inj.mp hop
        exact ⟨hkept, .inr ⟨hlast, hput, herase, hclear⟩⟩
  · rintro ⟨hkept, rfl | ⟨hlast, hput, herase, hclear⟩⟩
    · exact .put hkept
    · exact .later hlast hput herase hclear hkept

theorem not_lastPut_nil {maxSize : Nat} {key : K} {value : V} : ¬ LastPut maxSize [] key value := by
  intro h
  generalize hops : ([] : List (Op K V)) = ops at h
  cases h <;> exact List.append_ne_nil_of_right_ne_nil _ (List.cons_ne_nil _ _) hops.symm

/-- The items of the cache are those that were put last. -/
theorem lookup_after_iff (maxSize : Nat) (ops : List (Op K V)) (key : K) (value : V) :
    (CLRUCache.after maxSize ops).items.lookup key = some value ↔ LastPut maxSize ops key value := by
  induction ops using List.reverseRecOn generalizing value with
  | nil => exact ⟨fun h => (nomatch h), fun h => absurd h not_lastPut_nil⟩
  | append_singleton ops op ih =>
      rw [lastPut_append_iff, ← ih, CLRUCache.after_append]
      generalize hc : CLRUCache.after maxSize ops = c
      cases op with
      | put k v =>
          have hevicts : ¬ Evicts maxSize ops (.put k v) key ↔ (key = k ∨ key ∈ c.items → key ∈ (c.put k v).items) := by
            simp only [Evicts, keysAfter_eq, CLRUCache.after_append, ← AList.mem_keys, not_and, not_not, hc]
            rfl
          rw [hevicts, CLRUCache.step, CLRUCache.lookup_put_iff, StdMap.lookup_assign]
          rcases eq_or_ne key k with rfl | hne
          · simp
          · simp only [hne, hne.symm, false_or, Op.put.injEq, false_and, ne_eq, not_false_eq_true, reduceCtorEq,
              implies_true, and_true]
            refine and_congr_left fun hlookup => ?_
            exact ⟨fun h _ => h, fun h => h ((StdMap.mem_iff_lookup _ _).mpr ⟨value, hlookup⟩)⟩
      | get k =>
          have hsame : (c.step (.get k)).2.items.lookup key = c.items.lookup key := by
            cases hget : c.get? k with
            | none => simp only [CLRUCache.step, hget]
            | some r =>
                simp only [CLRUCache.step, hget]
                exact CLRUCache.lookup_get? hget key
          simp [hsame, Evicts]
      | contains k => simp [Evicts, CLRUCache.step]
      | erase k =>
          simp only [CLRUCache.step, CLRUCache.erase, StdMap.lookup_erase_eq]
          rcases eq_or_ne key k with rfl | hne
          · simp
          · simp [Evicts, hne, hne.symm]
      | clear => simp [Evicts, CLRUCache.step]

/-- What the cache is after some calls. -/
structure BoundedMap (maxSize : Nat) (ops : List (Op K V)) (s : LinkedCache K V) : Prop where
  nodup : s.keys.Nodup
  /-- The list and the map have the same keys, and the map leads to the node of each. -/
  same : s.cacheItemsMap.keys.Perm s.keys
  node : ∀ key it, s.cacheItemsMap.lookup key = some it →
    ∃ n, deref? s.cacheItemsList it = some n ∧ n.key = key
  size : s.cacheItemsMap.entries.length ≤ maxSize
  contains : ∀ key, s.contains key = true ↔ ∃ value, LastPut maxSize ops key value
  /-- `Get` gives the value that was put last, and throws if there is none. -/
  get : ∀ key value, (∃ s', s.get key = some (.value value, s')) ↔ LastPut maxSize ops key value
  rangeError : ∀ key, (∃ s', s.get key = some (.rangeError, s')) ↔ ∀ value, ¬ LastPut maxSize ops key value
  /-- `Put` of a new key evicts the least recently used one from a full cache, and else no key is evicted. -/
  put : ∀ key value, ∃ s', s.put key value = some s' ∧
    if key ∉ s.keys ∧ s.cacheItemsMap.entries.length = maxSize then
      ∃ evicted, (evicted = key ∨ evicted ∈ s.keys) ∧
        (∀ k, k ∈ s'.keys ↔ (k = key ∨ k ∈ s.keys) ∧ k ≠ evicted) ∧
        ∀ k, (k = key ∨ k ∈ s.keys) → k ≠ evicted →
          sinceUse (ops ++ [.put key value]) k < sinceUse (ops ++ [.put key value]) evicted
    else ∀ k, k ∈ s'.keys ↔ k = key ∨ k ∈ s.keys

theorem Represents.get_answer {s : LinkedCache K V} {c : CLRUCache K V} (h : Represents s c) (key : K)
    (answer : Answer V) : (∃ s', s.get key = some (answer, s')) ↔ answer = Answer.ofItem (c.items.lookup key) := by
  obtain ⟨s', hget, -⟩ := h.get_spec key
  have hanswer : (c.step (.get key)).1 = Answer.ofItem (c.items.lookup key) := by
    simp only [CLRUCache.step, CLRUCache.get?]
    cases c.items.lookup key <;> rfl
  rw [hget, ← hanswer]
  constructor
  · rintro ⟨_, heq⟩
    exact (Prod.mk.inj (Option.some.inj heq)).1.symm
  · rintro rfl
    exact ⟨s', rfl⟩

/-- **The cache is a bounded map.** No call is undefined, and after any calls the list and the map agree, the size
is within the bound, `Get` gives the value that was put last, and `Put` evicts the least recently used key. -/
theorem cache_bounded_map (maxSize : Nat) (ops : List (Op K V)) :
    ∃ answers s, run maxSize ops = some (answers, s) ∧ BoundedMap maxSize ops s := by
  obtain ⟨answers, s, hrun, hs⟩ := run_represents maxSize ops
  have hlast := lookup_after_iff maxSize ops
  have hordered := CLRUCache.ordered_after maxSize ops
  have hbound := CLRUCache.length_after maxSize ops
  have hmax := CLRUCache.maxSize_after maxSize ops
  generalize CLRUCache.after maxSize ops = c at hs hlast hordered hbound hmax
  have hmem : ∀ k, k ∈ s.keys ↔ k ∈ c.items := fun k => by rw [hs.keys_eq, AList.mem_keys]
  refine ⟨answers, s, hrun, hs.nodup_keys, hs.keys_perm, fun key it hit => ?_, hs.length_map ▸ hbound,
    fun key => ?_, fun key value => ?_, fun key => ?_, fun key value => ?_⟩
  · obtain ⟨n, hn, rfl, rfl⟩ := (hs.lookup key it).mp hit
    exact ⟨n, hs.deref?_eq hn, rfl⟩
  · rw [hs.contains_eq, CLRUCache.contains_iff_lookup]
    exact exists_congr (hlast key)
  · rw [hs.get_answer, ← hlast]
    cases c.items.lookup key <;> simp [Answer.ofItem, eq_comm]
  · rw [hs.get_answer]
    simp only [← hlast]
    cases c.items.lookup key <;> simp [Answer.ofItem]
  · obtain ⟨s', hput, hs'⟩ := hs.put_spec key value
    have hmem' : ∀ k, k ∈ s'.keys ↔ k ∈ (c.put key value).items := fun k => by rw [hs'.keys_eq, AList.mem_keys]
    refine ⟨s', hput, ?_⟩
    have hlength := CLRUCache.length_insert c.items key value
    simp only [hmem, hmem', hs.length_map]
    split_ifs with hfull
    · refine CLRUCache.evicted_of_full hordered ?_
      rw [hlength, if_neg hfull.1]
      omega
    · refine CLRUCache.mem_put_of_space ?_
      rw [hlength]
      split_ifs with hin
      · omega
      · have hspace : c.items.entries.length ≠ maxSize := fun heq => hfull ⟨hin, heq⟩
        omega

-- a `Get` keeps a key from being evicted, `Exists` does not
example : keysAfter 2 [.put 1 "a", .put 2 "b", .get 1, .contains 2, .put 3 "c"] = [3, 1] := by decide

end LinkedCache

end RavenCash
