import RavenCash.Coins.Update

/-!
# The coins cache

`CCoinsViewCache` of `coins.cpp` over the coins of its base. A spent coin stays in the cache as a
cleared entry, to be written to the base later, unless the entry is `FRESH`: then the base has no coin
to overwrite and the entry is erased. For the coins that are unspent the cache is the map `view`, on
which the rest of the model works; a `SpendCoin` on the two differs only at an entry that was cleared
before (`spendCoin_of_unspent`).
-/

set_option autoImplicit false

namespace RavenCash

/-- `CCoinsCacheEntry`; there is no coin once it is cleared. -/
structure CCoinsCacheEntry where
  coin : Option Coin
  dirty : Bool := false
  fresh : Bool := false

/-- `CCoinsViewCache`. The parent view does not have an entry that is `FRESH`. -/
structure CCoinsViewCache where
  base : CCoinsView := ∅
  cacheCoins : StdMap COutPoint CCoinsCacheEntry := ∅
  fresh_absent : ∀ out entry, cacheCoins.lookup out = some entry → entry.fresh = true →
    base.lookup out = none

/-- The output of a cleared coin. -/
def nullOut : CTxOut := ⟨-1, []⟩

namespace CCoinsViewCache

variable (cache : CCoinsViewCache) (out : COutPoint)

/-- `FetchCoin`: the entry, which is put into the cache if the base has the coin. -/
def fetchCoin : Option CCoinsCacheEntry :=
  (cache.cacheCoins.lookup out).or ((cache.base.lookup out).map fun coin => { coin := some coin })

def isFresh : Bool := (cache.fetchCoin out).any CCoinsCacheEntry.fresh

/-- The unspent coins. -/
def view : CCoinsView :=
  cache.cacheCoins.foldl (fun view out entry => entry.coin.elim (view.erase out) (view.insert out)) cache.base

theorem lookup_view : cache.view.lookup out = (cache.fetchCoin out).bind CCoinsCacheEntry.coin := by
  have h := StdMap.foldl_observe cache.cacheCoins
    (fun view out entry => entry.coin.elim (view.erase out) (view.insert out)) (fun view => view.lookup out)
    (fun entry _ => entry.coin) out ?_ ?_ cache.base
  · rw [view, h, fetchCoin]
    cases cache.cacheCoins.lookup out with
    | none => cases cache.base.lookup out <;> rfl
    | some entry => rfl
  · intro view out' entry _ hne
    cases entry.coin with
    | none => exact AList.lookup_erase_ne hne.symm
    | some coin => exact AList.lookup_insert_ne hne.symm
  · intro view entry _
    cases entry.coin with
    | none => exact AList.lookup_erase out view
    | some coin => exact AList.lookup_insert view

/-- What `SpendCoin` leaves of an entry. -/
def spendEntry (entry : CCoinsCacheEntry) : CCoinsViewCache where
  base := cache.base
  cacheCoins := if entry.fresh then cache.cacheCoins.erase out
    else cache.cacheCoins.insert out { coin := none, dirty := true }
  fresh_absent := by
    intro out' entry' hentry hfresh
    refine cache.fresh_absent out' entry' ?_ hfresh
    split_ifs at hentry
    · rw [StdMap.lookup_erase_eq] at hentry
      split_ifs at hentry
      exact hentry
    · rw [StdMap.lookup_assign] at hentry
      split_ifs at hentry
      · cases hentry
        cases hfresh
      · exact hentry

variable {cache out}

/-- An entry that is `FRESH` is gone for the base as well. -/
theorem fetchCoin_spendEntry {entry : CCoinsCacheEntry} (h : cache.fetchCoin out = some entry) (out' : COutPoint) :
    (cache.spendEntry out entry).fetchCoin out' =
      if out' = out then if entry.fresh then none else some { coin := none, dirty := true }
      else cache.fetchCoin out' := by
  by_cases hfresh : entry.fresh = true
  · have hbase : cache.base.lookup out = none := by
      unfold fetchCoin at h
      cases hentry : cache.cacheCoins.lookup out with
      | some entry' =>
        rw [hentry, Option.some_or] at h
        exact cache.fresh_absent out entry (hentry.trans h) hfresh
      | none =>
        -- what is fetched from the base is not fresh
        rw [hentry, Option.none_or] at h
        obtain ⟨coin, -, rfl⟩ := Option.map_eq_some_iff.mp h
        cases hfresh
    simp only [fetchCoin, spendEntry, hfresh, if_true, StdMap.lookup_erase_eq]
    split_ifs with heq
    · rw [heq, hbase]
      rfl
    · rfl
  · rw [Bool.not_eq_true] at hfresh
    simp only [fetchCoin, spendEntry, hfresh, Bool.false_eq_true, if_false, StdMap.lookup_assign]
    split_ifs <;> rfl

section

variable [NodeCrypto]

/-- `SpendCoin` on the cache and the asset cache: its `bool` and the coin it moves out. -/
def spendCoin (g : Globals) (cache : CCoinsViewCache) (assets : CAssetsCache) (out : COutPoint) :
    Bool × Option Coin × CCoinsViewCache × CAssetsCache :=
  match cache.fetchCoin out with
  | none => (false, none, cache, assets)
  | some entry =>
      let (spent, assets) := trySpendCoin g assets (entry.coin.elim nullOut Coin.out)
      (spent, entry.coin, cache.spendEntry out entry, assets)

/-- **On an unspent coin** `SpendCoin` does what it does on the map of unspent coins. -/
theorem spendCoin_of_unspent {g : Globals} {v : View} {coin : Coin} (h : cache.view.lookup out = some coin) :
    ∃ cache', cache.spendCoin g v.cache out = ((trySpendCoin g v.cache coin.out).1, some coin, cache',
        (trySpendCoin g v.cache coin.out).2) ∧
      RavenCash.spendCoin g ⟨cache.view, v⟩ out = ((trySpendCoin g v.cache coin.out).1, some coin,
        ⟨cache.view.erase out, { v with cache := (trySpendCoin g v.cache coin.out).2 }⟩) ∧
      ∀ out', cache'.view.lookup out' = (cache.view.erase out).lookup out' := by
  have hview := h
  rw [lookup_view, Option.bind_eq_some_iff] at hview
  obtain ⟨entry, hentry, hcoin⟩ := hview
  refine ⟨cache.spendEntry out entry, ?_, ?_, fun out' => ?_⟩
  · simp only [spendCoin, hentry, hcoin]
    rfl
  · simp only [RavenCash.spendCoin, h]
  · rw [StdMap.lookup_erase_eq, lookup_view, lookup_view, fetchCoin_spendEntry hentry]
    split_ifs <;> rfl

/-- The loop of `UpdateCoins` over the inputs; a coin that cannot be spent stops the node. -/
def spendInputs (g : Globals) : List CTxIn → CCoinsViewCache → CAssetsCache →
    Option (List (Option Coin) × CCoinsViewCache × CAssetsCache)
  | [], cache, assets => some ([], cache, assets)
  | txin :: vin, cache, assets =>
      match cache.spendCoin g assets txin.prevout with
      | (true, coin, cache, assets) => do
          let (vprevout, cache, assets) ← spendInputs g vin cache assets
          return (coin :: vprevout, cache, assets)
      | (false, _) => none

end

end CCoinsViewCache

end RavenCash
