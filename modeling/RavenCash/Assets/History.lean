import RavenCash.Assets.Uniqueness

/-!
# Asset metadata and the history of an asset

The metadata of an asset should be the replay of its history: the data it was issued with and the
reissues that were not undone, in order. `HistoryRun` is a run of issuances, reissues and their undo
on one view; `metadata_replays_history` proves the law for the runs whose removals are `UndoSafe`.
The removals it leaves out are

* the undo of an issuance while `mapReissuedAssetData` still holds data of the asset: the entry is
  never erased, and it is asked before the sets that say whether the asset exists;
* the undo of a reissue that is not given the old values, or of an asset that was not reissuable.
-/

set_option autoImplicit false

namespace RavenCash

/-! ## Histories -/

/-- What remains of the operations on an asset: the data it was issued with and its reissues, the
latest first. -/
structure History where
  issued : CNewAsset
  reissues : List CReissueAsset
deriving DecidableEq, Repr

/-- The issued data with the reissues applied in order. -/
def History.replay (h : History) : CNewAsset :=
  h.reissues.foldr (fun reissue asset => asset.reissued reissue) h.issued

abbrev Histories := StdString → Option History

/-- **How an operation extends the histories.** A removal undoes the latest operation on the asset
that is not undone. -/
inductive Recorded (hs : Histories) : CacheOp → Histories → Prop where
  | issue (asset : CNewAsset) (address : StdString) (nHeight : Int) (blockHash : UInt256) :
      Recorded hs (.addNewAsset asset address nHeight blockHash)
        (Function.update hs asset.strName (some ⟨asset, []⟩))
  | reissue (r : CReissueAsset) (address : StdString) (out : COutPoint) (h : History)
      (hlast : hs r.strName = some h) :
      Recorded hs (.addReissueAsset r address out)
        (Function.update hs r.strName (some ⟨h.issued, r :: h.reissues⟩))
  | undoReissue (r : CReissueAsset) (address : StdString) (out : COutPoint)
      (vUndoIPFS : List (StdString × CBlockAssetUndo)) (issued : CNewAsset)
      (rs : List CReissueAsset) (hlast : hs r.strName = some ⟨issued, r :: rs⟩) :
      Recorded hs (.removeReissueAsset r address out vUndoIPFS)
        (Function.update hs r.strName (some ⟨issued, rs⟩))
  | undoIssue (asset : CNewAsset) (address : StdString) (issued : CNewAsset)
      (hlast : hs asset.strName = some ⟨issued, []⟩) :
      Recorded hs (.removeNewAsset asset address) (Function.update hs asset.strName none)

/-- **A run of successful operations on one view** from `v₀`, every step of which is `ok`. -/
inductive HistoryRun (g : Globals) (ok : View → Histories → CacheOp → Prop) (v₀ : View)
    (hs₀ : Histories) : View → Histories → Prop where
  | start : HistoryRun g ok v₀ hs₀ v₀ hs₀
  | step {v : View} {hs hs' : Histories} {op : CacheOp} (hrun : HistoryRun g ok v₀ hs₀ v hs)
      (htrue : (op.run g v).1 = true) (hrec : Recorded hs op hs') (hok : ok v hs op) :
      HistoryRun g ok v₀ hs₀ (op.run g v).2 hs'

/-! ## Undoing a reissue -/

/-- The undo item gives back what the reissue changed: it carries the units and the IPFS hash of
`before`, or the reissue left them alone, and the two flags come out right. -/
structure UndoFits (before : CNewAsset) (r : CReissueAsset) (item : Option CBlockAssetUndo) :
    Prop where
  reissuable : before.nReissuable = 1
  units : ∀ i, item = some i → i.fChangedUnits = true → i.nUnits.toInt8 = before.units
  unitsKept : (∀ i, item = some i → i.fChangedUnits = false) →
    r.nUnits = -1 ∨ r.nUnits = before.units
  hash : ∀ i, item = some i → i.fChangedIPFS = true → i.strIPFS = before.strIPFSHash
  hashKept : (∀ i, item = some i → i.fChangedIPFS = false) →
    r.strIPFSHash = [] ∨ r.strIPFSHash = before.strIPFSHash
  noIPFS : item ≠ none → before.strIPFSHash = [] → before.nHasIPFS = 0
  hasIPFS : item = none ∨ before.strIPFSHash ≠ [] → r.strIPFSHash = [] ∨ before.nHasIPFS = 1

theorem reissued_units_of_kept {before : CNewAsset} {r : CReissueAsset}
    (h : r.nUnits = -1 ∨ r.nUnits = before.units) : (before.reissued r).units = before.units := by
  show (if r.nUnits ≠ -1 then r.nUnits else before.units) = before.units
  rcases h with h | h
  · simp [h]
  · rw [h]
    split <;> rfl

theorem reissued_hash_of_kept {before : CNewAsset} {r : CReissueAsset}
    (h : r.strIPFSHash = [] ∨ r.strIPFSHash = before.strIPFSHash) :
    (before.reissued r).strIPFSHash = before.strIPFSHash := by
  show (if r.strIPFSHash ≠ [] then r.strIPFSHash else before.strIPFSHash) = before.strIPFSHash
  rcases h with h | h
  · simp [h]
  · rw [h]
    split <;> rfl

theorem reissued_hasIPFS_of_kept {before : CNewAsset} {r : CReissueAsset}
    (h : r.strIPFSHash = [] ∨ before.nHasIPFS = 1) :
    (before.reissued r).nHasIPFS = before.nHasIPFS := by
  show (if r.strIPFSHash ≠ [] then 1 else before.nHasIPFS) = before.nHasIPFS
  rcases h with h | h
  · simp [h]
  · rw [h]
    split <;> rfl

/-- Undoing a reissue with an undo item, field by field. -/
theorem unreissued_some (asset : CNewAsset) (r : CReissueAsset) (i : CBlockAssetUndo) :
    asset.unreissued r (some i) =
      { asset with
        nAmount := asset.nAmount - r.nAmount
        nReissuable := 1
        units := if i.fChangedUnits then i.nUnits.toInt8 else asset.units
        strIPFSHash := if i.fChangedIPFS then i.strIPFS else asset.strIPFSHash
        nHasIPFS := if (if i.fChangedIPFS then i.strIPFS else asset.strIPFSHash) = [] then 0
          else asset.nHasIPFS } := by
  unfold CNewAsset.unreissued
  by_cases hipfs : i.fChangedIPFS = true
  · by_cases he : i.strIPFS = [] <;> cases hu : i.fChangedUnits <;> simp [hipfs, he, hu]
  · by_cases he : asset.strIPFSHash = [] <;> cases hu : i.fChangedUnits <;> simp [hipfs, he, hu]

/-- **A fitting undo item takes a reissue back.** -/
theorem unreissued_reissued {before : CNewAsset} {r : CReissueAsset}
    {item : Option CBlockAssetUndo} (h : UndoFits before r item) :
    (before.reissued r).unreissued r item = before := by
  have hamount : (before.reissued r).nAmount - r.nAmount = before.nAmount := by
    show before.nAmount + r.nAmount - r.nAmount = before.nAmount
    exact Int64.add_sub_cancel _ _
  cases item with
  | none =>
      apply CNewAsset.ext
      · rfl
      · exact hamount
      · exact reissued_units_of_kept (h.unitsKept (by simp))
      · exact h.reissuable.symm
      · exact reissued_hasIPFS_of_kept (h.hasIPFS (Or.inl rfl))
      · exact reissued_hash_of_kept (h.hashKept (by simp))
  | some i =>
      -- the fields are restored one after the other, the hash before the flag that depends on it
      have hunits : (if i.fChangedUnits then i.nUnits.toInt8 else (before.reissued r).units) =
          before.units := by
        by_cases hc : i.fChangedUnits = true
        · rw [if_pos hc]
          exact h.units i rfl hc
        · rw [if_neg hc]
          exact reissued_units_of_kept (h.unitsKept (by simpa using hc))
      have hhash : (if i.fChangedIPFS then i.strIPFS else (before.reissued r).strIPFSHash) =
          before.strIPFSHash := by
        by_cases hc : i.fChangedIPFS = true
        · rw [if_pos hc]
          exact h.hash i rfl hc
        · rw [if_neg hc]
          exact reissued_hash_of_kept (h.hashKept (by simpa using hc))
      have hflag : (if before.strIPFSHash = [] then 0 else (before.reissued r).nHasIPFS) =
          before.nHasIPFS := by
        by_cases he : before.strIPFSHash = []
        · rw [if_pos he]
          exact (h.noIPFS (by simp) he).symm
        · rw [if_neg he]
          exact reissued_hasIPFS_of_kept (h.hasIPFS (Or.inr he))
      rw [unreissued_some]
      apply CNewAsset.ext
      · rfl
      · exact hamount
      · exact hunits
      · exact h.reissuable.symm
      · show (if (if i.fChangedIPFS then i.strIPFS else (before.reissued r).strIPFSHash) = []
          then 0 else (before.reissued r).nHasIPFS) = _
        rw [hhash]
        exact hflag
      · exact hhash

/-! ## What the layers say about an asset -/

/-- The asset read cache holds what the database holds. -/
def Coherent (g : Globals) (lru : LRUCaches) : Prop :=
  ∀ name data, lru.passetsCache.items.lookup name = some data →
    g.passetsdb.assetData.find? name = some data

/-- The data reissues have left, in the view or in `passets`. -/
def reissuedData (g : Globals) (v : View) (name : StdString) : Option CNewAsset :=
  (v.cache.mapReissuedAssetData.lookup name).or (g.passets.mapReissuedAssetData.lookup name)

/-- The data an asset was issued with, by the pending assets or by the database. -/
def currentAsset (g : Globals) (v : View) (name : StdString) : Option CNewAsset :=
  match pendingAsset g v name with
  | some a => a.map CAssetCacheNewAsset.asset
  | none => (g.passetsdb.assetData.find? name).map CDatabasedAssetData.asset

section Layers

variable {g : Globals} {v : View}

theorem Coherent.put {lru : LRUCaches} (h : Coherent g lru) {name : StdString}
    {data : CDatabasedAssetData} (hdb : g.passetsdb.assetData.find? name = some data) :
    Coherent g { lru with passetsCache := lru.passetsCache.put data.asset.strName data } := by
  intro n d hlook
  rcases CLRUCache.lookup_put hlook with ⟨hn, hd⟩ | hold
  · have hkey : data.name = name := StdSet.key_of_find? hdb
    rw [hn, hd]
    show g.passetsdb.assetData.find? data.name = some data
    rw [hkey]
    exact hdb
  · exact h n d hold

theorem Coherent.checkIfAssetExists (h : Coherent g v.lru) (name : StdString) :
    Coherent g (checkIfAssetExists g v name).2 := by
  rw [checkIfAssetExists_eq]
  split
  · exact h
  · split
    · exact h
    · exact h
    · unfold assetExistsBelow
      split
      · exact h
      · split
        · next hdb => exact h.put hdb
        · exact h

theorem Coherent.getAssetMetaDataIfExists (h : Coherent g v.lru) (name : StdString) :
    Coherent g (getAssetMetaDataIfExists g v name).2 := by
  rw [getAssetMetaDataIfExists_eq]
  split
  · exact h
  · split
    · exact h
    · exact h
    · split
      · next hget =>
          intro n d hlook
          rw [CLRUCache.lookup_get? hget] at hlook
          exact h n d hlook
      · split
        · next hdb => exact h.put hdb
        · exact h

theorem checkIfAssetExists_of_coherent (hre : g.fReindex = false) (h : Coherent g v.lru)
    (name : StdString) :
    (checkIfAssetExists g v name).1 = (currentAsset g v name).isSome := by
  rw [checkIfAssetExists_eq, hre, currentAsset]
  rcases pendingAsset g v name with _ | _ | a
  · show (assetExistsBelow g v.lru name).1 = _
    unfold assetExistsBelow
    by_cases hc : v.lru.passetsCache.contains name = true
    · -- what the read cache holds is in the database
      obtain ⟨data, hdata⟩ := (CLRUCache.contains_iff_lookup _ _).mp hc
      rw [if_pos hc, h name data hdata]
      rfl
    · rw [if_neg hc]
      cases g.passetsdb.assetData.find? name <;> rfl
  · rfl
  · rfl

theorem getAssetMetaDataIfExists_of_coherent (h : Coherent g v.lru) (name : StdString) :
    (getAssetMetaDataIfExists g v name).1.map Prod.fst =
      (reissuedData g v name).or (currentAsset g v name) := by
  rw [getAssetMetaDataIfExists_eq, currentAsset, reissuedData]
  cases (v.cache.mapReissuedAssetData.lookup name).or
    (g.passets.mapReissuedAssetData.lookup name) with
  | some asset => rfl
  | none =>
      rcases pendingAsset g v name with _ | _ | a
      · dsimp only
        cases hget : v.lru.passetsCache.get? name with
        | some p =>
            have hlook : v.lru.passetsCache.items.lookup name = some p.1 := by
              rw [CLRUCache.get?, Option.map_eq_some_iff] at hget
              obtain ⟨data, hdata, rfl⟩ := hget
              exact hdata
            rw [h name p.1 hlook]
            rfl
        | none => cases g.passetsdb.assetData.find? name <;> rfl
      · rfl
      · rfl

end Layers

/-! ## Runs keep metadata and history together -/

/-- **The undo steps that keep metadata and history together.** -/
def UndoSafe (g : Globals) (v : View) (hs : Histories) : CacheOp → Prop
  | .removeNewAsset asset _ => reissuedData g v asset.strName = none
  | .removeReissueAsset r _ _ vUndoIPFS =>
      ∀ issued rs, hs r.strName = some ⟨issued, r :: rs⟩ →
        UndoFits (History.replay ⟨issued, rs⟩) r (undoItemOf vUndoIPFS r.strName)
  | _ => True

/-- The data of every asset known before a run, as the data it was issued with. -/
def startHistories (g : Globals) (v : View) : Histories :=
  fun name => (getAssetMetaDataIfExists g v name).1.map (fun data => ⟨data.1, []⟩)

/-- **A node and view a run can start from**: no reindexing, a coherent read cache, no asset both
added and removed by the view, and reissued data for existing assets only, under their names. -/
structure Consistent (g : Globals) (v : View) : Prop where
  reindex : g.fReindex = false
  coherent : Coherent g v.lru
  disjoint : ∀ name a, v.cache.setNewAssets.toRemove.find? name = some a →
    v.cache.setNewAssets.toAdd.find? name = none
  named : ∀ name data, reissuedData g v name = some data → data.strName = name
  found : ∀ name data, reissuedData g v name = some data → (checkIfAssetExists g v name).1 = true

/-- What a run keeps. -/
structure Replays (g : Globals) (v : View) (hs : Histories) : Prop extends Consistent g v where
  replay : ∀ name data, (reissuedData g v name).or (currentAsset g v name) = some data →
    ∃ h, hs name = some h ∧ data = h.replay

section Step

variable {g : Globals} {v v' : View} {hs : Histories}

theorem reissuedData_congr (h : v'.cache.mapReissuedAssetData = v.cache.mapReissuedAssetData)
    (name : StdString) : reissuedData g v' name = reissuedData g v name := by
  unfold reissuedData
  rw [h]

theorem currentAsset_congr (h : v'.cache.setNewAssets = v.cache.setNewAssets) (name : StdString) :
    currentAsset g v' name = currentAsset g v name := by
  unfold currentAsset pendingAsset
  rw [h]

theorem reissuedData_insert {n : StdString} {data : CNewAsset}
    (h : v'.cache.mapReissuedAssetData = v.cache.mapReissuedAssetData.insert n data)
    (name : StdString) :
    reissuedData g v' name = if name = n then some data else reissuedData g v name := by
  unfold reissuedData
  rw [h, StdMap.lookup_assign]
  by_cases hn : name = n <;> simp [hn]

theorem currentAsset_remove {a : CAssetCacheNewAsset}
    (h : v'.cache.setNewAssets = v.cache.setNewAssets.remove a) (name : StdString) :
    currentAsset g v' name = if name = a.name then none else currentAsset g v name := by
  unfold currentAsset pendingAsset
  rw [h]
  by_cases hn : name = a.name
  · obtain ⟨b, hb⟩ := Pending.layered_remove_self v.cache.setNewAssets g.passets.setNewAssets a
    rw [if_pos hn, hn, hb]
    rfl
  · rw [if_neg hn, Pending.layered_remove_ne (Ne.symm hn)]

/-- After an issuance that found no asset, the asset is the issued one, unless `passets` hides it. -/
theorem currentAsset_add {a : CAssetCacheNewAsset}
    (h : v'.cache.setNewAssets = v.cache.setNewAssets.add a)
    (hadd : v.cache.setNewAssets.toAdd.find? a.name = none ∨
      ∃ b, g.passets.setNewAssets.toRemove.find? a.name = some b) (name : StdString) :
    (name = a.name ∧ (currentAsset g v' name = none ∨ currentAsset g v' name = some a.asset)) ∨
      (name ≠ a.name ∧ currentAsset g v' name = currentAsset g v name) := by
  unfold currentAsset pendingAsset
  rw [h]
  by_cases hn : name = a.name
  · refine Or.inl ⟨hn, ?_⟩
    rw [hn]
    rcases hadd with hadd | ⟨b, hb⟩
    · rw [Pending.layered_add_self hadd]
      cases g.passets.setNewAssets.toRemove.find? a.name with
      | none => exact Or.inr rfl
      | some b => exact Or.inl rfl
    · rw [Pending.layered_of_shared_toRemove (by simp [StdSet.find?_erase]) hb]
      exact Or.inl rfl
  · exact Or.inr ⟨hn, by rw [Pending.layered_add_ne (Ne.symm hn)]⟩

theorem currentAsset_strName {name : StdString} {data : CNewAsset}
    (h : currentAsset g v name = some data) : data.strName = name := by
  unfold currentAsset pendingAsset at h
  rcases hl : Pending.layered false v.cache.setNewAssets g.passets.setNewAssets name with
    _ | ⟨a⟩ | ⟨a⟩ <;> rw [hl] at h
  · obtain ⟨d, hd, rfl⟩ := Option.map_eq_some_iff.mp h
    show d.name = name
    exact StdSet.key_of_find? hd
  · cases h
  · cases h
    show a.name = name
    exact Pending.key_of_layered hl

theorem Consistent.strName (h : Consistent g v) {name : StdString} {data : CNewAsset}
    (hdata : (reissuedData g v name).or (currentAsset g v name) = some data) :
    data.strName = name := by
  rcases hr : reissuedData g v name with _ | d <;> rw [hr] at hdata
  · exact currentAsset_strName hdata
  · cases hdata
    exact h.named name data hr

theorem Consistent.isSome_currentAsset (h : Consistent g v) {name : StdString} {data : CNewAsset}
    (hdata : (reissuedData g v name).or (currentAsset g v name) = some data) :
    (currentAsset g v name).isSome = true := by
  rcases hr : reissuedData g v name with _ | d <;> rw [hr] at hdata
  · rw [show currentAsset g v name = some data from hdata]
    rfl
  · rw [← checkIfAssetExists_of_coherent h.reindex h.coherent]
    exact h.found name d hr

/-- An asset that does not exist has no reissued data, and the view does not list it as added
unless `passets` hides it. -/
theorem Consistent.of_not_exists (h : Consistent g v) {name : StdString}
    (hne : (checkIfAssetExists g v name).1 = false) :
    reissuedData g v name = none ∧
      (v.cache.setNewAssets.toAdd.find? name = none ∨
        ∃ b, g.passets.setNewAssets.toRemove.find? name = some b) := by
  constructor
  · rcases hr : reissuedData g v name with _ | d
    · rfl
    · rw [h.found name d hr] at hne
      cases hne
  · rcases hrem : v.cache.setNewAssets.toRemove.find? name with _ | b
    · rcases hp : g.passets.setNewAssets.toRemove.find? name with _ | b
      · rcases ha : v.cache.setNewAssets.toAdd.find? name with _ | a
        · exact Or.inl rfl
        · rw [checkIfAssetExists_eq, h.reindex, pendingAsset,
            Pending.layered_of_toAdd hrem hp ha] at hne
          cases hne
      · exact Or.inr ⟨b, rfl⟩
    · exact Or.inl (h.disjoint name b hrem)

/-- New reissued data for an existing asset. -/
theorem Replays.setReissued (h : Replays g v hs) {n : StdString} {data : CNewAsset}
    {history : History} (hset : v'.cache.setNewAssets = v.cache.setNewAssets)
    (hmap : v'.cache.mapReissuedAssetData = v.cache.mapReissuedAssetData.insert n data)
    (hlru : Coherent g v'.lru) (hex : (currentAsset g v n).isSome = true)
    (hname : data.strName = n) (hdata : data = history.replay) :
    Replays g v' (Function.update hs n (some history)) where
  reindex := h.reindex
  coherent := hlru
  disjoint := by
    rw [hset]
    exact h.disjoint
  named name d hd := by
    rw [reissuedData_insert hmap] at hd
    split at hd
    · next hn =>
        cases hd
        rw [hname, hn]
    · exact h.named name d hd
  found name d hd := by
    rw [checkIfAssetExists_of_coherent h.reindex hlru, currentAsset_congr hset]
    rw [reissuedData_insert hmap] at hd
    split at hd
    · next hn =>
        rw [hn]
        exact hex
    · rw [← checkIfAssetExists_of_coherent h.reindex h.coherent]
      exact h.found name d hd
  replay name d hd := by
    rw [reissuedData_insert hmap, currentAsset_congr hset] at hd
    split at hd
    · next hn =>
        cases hd
        exact ⟨history, by rw [hn, Function.update_self], hdata⟩
    · next hn =>
        rw [Function.update_of_ne hn]
        exact h.replay name d hd

/-- An issuance of an asset that does not exist. -/
theorem Replays.issue (h : Replays g v hs) {a : CAssetCacheNewAsset}
    (hset : v'.cache.setNewAssets = v.cache.setNewAssets.add a)
    (hmap : v'.cache.mapReissuedAssetData = v.cache.mapReissuedAssetData)
    (hlru : Coherent g v'.lru) (hne : (checkIfAssetExists g v a.name).1 = false) :
    Replays g v' (Function.update hs a.name (some ⟨a.asset, []⟩)) := by
  obtain ⟨hnone, hadd⟩ := h.of_not_exists hne
  have hcur := currentAsset_add hset hadd
  refine ⟨⟨h.reindex, hlru, ?_, ?_, ?_⟩, ?_⟩
  · intro name b hb
    rw [hset] at hb ⊢
    rw [Pending.add_toRemove, StdSet.find?_erase] at hb
    split at hb
    · cases hb
    · next hn =>
        rw [Pending.add_toAdd, Pending.find?_insert_ne (Ne.symm hn)]
        exact h.disjoint name b hb
  · intro name d hd
    rw [reissuedData_congr hmap] at hd
    exact h.named name d hd
  · intro name d hd
    rw [reissuedData_congr hmap] at hd
    rw [checkIfAssetExists_of_coherent h.reindex hlru]
    rcases hcur name with ⟨hn, _⟩ | ⟨_, hsame⟩
    · rw [hn, hnone] at hd
      cases hd
    · rw [hsame, ← checkIfAssetExists_of_coherent h.reindex h.coherent]
      exact h.found name d hd
  · intro name d hd
    rw [reissuedData_congr hmap] at hd
    rcases hcur name with ⟨hn, hnew⟩ | ⟨hn, hsame⟩
    · refine ⟨⟨a.asset, []⟩, by rw [hn, Function.update_self], ?_⟩
      rw [hn, hnone, Option.none_or, ← hn] at hd
      rcases hnew with hnew | hnew <;> rw [hnew] at hd <;> cases hd
      rfl
    · rw [hsame] at hd
      rw [Function.update_of_ne hn]
      exact h.replay name d hd

/-- The undo of an issuance, of an asset without reissued data. -/
theorem Replays.undoIssue (h : Replays g v hs) {a : CAssetCacheNewAsset}
    (hset : v'.cache.setNewAssets = v.cache.setNewAssets.remove a)
    (hmap : v'.cache.mapReissuedAssetData = v.cache.mapReissuedAssetData)
    (hlru : Coherent g v'.lru) (hnone : reissuedData g v a.name = none) :
    Replays g v' (Function.update hs a.name none) := by
  have hcur := currentAsset_remove (g := g) hset
  refine ⟨⟨h.reindex, hlru, ?_, ?_, ?_⟩, ?_⟩
  · intro name b hb
    rw [hset] at hb ⊢
    rw [Pending.remove_toAdd, StdSet.find?_erase]
    split
    · rfl
    · next hn =>
        rw [Pending.remove_toRemove, Pending.find?_insert_ne (Ne.symm hn)] at hb
        exact h.disjoint name b hb
  · intro name d hd
    rw [reissuedData_congr hmap] at hd
    exact h.named name d hd
  · intro name d hd
    rw [reissuedData_congr hmap] at hd
    have hn : name ≠ a.name := by
      rintro rfl
      rw [hnone] at hd
      cases hd
    rw [checkIfAssetExists_of_coherent h.reindex hlru, hcur, if_neg hn,
      ← checkIfAssetExists_of_coherent h.reindex h.coherent]
    exact h.found name d hd
  · intro name d hd
    rw [reissuedData_congr hmap, hcur] at hd
    by_cases hn : name = a.name
    · rw [if_pos hn, hn, hnone] at hd
      cases hd
    · rw [if_neg hn] at hd
      rw [Function.update_of_ne hn]
      exact h.replay name d hd

/-- The data a lookup finds is the replay of the history it has. -/
theorem Replays.of_metadata (h : Replays g v hs) {name : StdString} {asset : CNewAsset}
    {height : Option (Int × UInt256)}
    (hmeta : (getAssetMetaDataIfExists g v name).1 = some (asset, height)) :
    (currentAsset g v name).isSome = true ∧ asset.strName = name ∧
      ∃ history, hs name = some history ∧ asset = history.replay := by
  have hdata := getAssetMetaDataIfExists_of_coherent h.coherent name
  rw [hmeta] at hdata
  exact ⟨h.isSome_currentAsset hdata.symm, h.strName hdata.symm, h.replay name asset hdata.symm⟩

/-- **One operation keeps metadata and history together.** -/
theorem Replays.step {hs' : Histories} {op : CacheOp} (h : Replays g v hs)
    (htrue : (op.run g v).1 = true) (hrec : Recorded hs op hs') (hok : UndoSafe g v hs op) :
    Replays g (op.run g v).2 hs' := by
  cases hrec with
  | issue asset address nHeight blockHash =>
      rcases addNewAsset_cases g v asset address nHeight blockHash with ⟨_, heq⟩ | ⟨hne, m, heq⟩ <;>
        rw [CacheOp.run, heq] at htrue ⊢
      · cases htrue
      · exact h.issue (a := ⟨asset, address, nHeight, blockHash⟩) rfl rfl
          (h.coherent.checkIfAssetExists _) hne
  | undoIssue asset address issued hlast =>
      rcases removeNewAsset_cases g v asset address with ⟨_, heq⟩ | ⟨_, m, heq⟩ <;>
        rw [CacheOp.run, heq] at htrue ⊢
      · cases htrue
      · exact h.undoIssue (a := ⟨asset, address, 0, 0⟩) rfl rfl (h.coherent.checkIfAssetExists _) hok
  | reissue r address out history hlast =>
      rcases addReissueAsset_cases g v r address out with ⟨_, heq⟩ | ⟨asset, height, hmeta, m, heq⟩ <;>
        rw [CacheOp.run, heq] at htrue ⊢
      · cases htrue
      · obtain ⟨hex, hname, history', hsome, hreplay⟩ := h.of_metadata hmeta
        rw [hlast] at hsome
        cases hsome
        refine h.setReissued rfl rfl (h.coherent.getAssetMetaDataIfExists _) hex hname ?_
        rw [hreplay]
        rfl
  | undoReissue r address out vUndoIPFS issued rs hlast =>
      rcases removeReissueAsset_cases g v r address out vUndoIPFS with
        ⟨_, heq⟩ | ⟨asset, height, hmeta, ok, m, heq⟩
      · rw [CacheOp.run, heq] at htrue
        cases htrue
      · obtain ⟨hex, hname, history', hsome, hreplay⟩ := h.of_metadata hmeta
        rw [hlast] at hsome
        cases hsome
        have hundo : asset.unreissued r (undoItemOf vUndoIPFS r.strName) =
            History.replay ⟨issued, rs⟩ := by
          rw [hreplay]
          exact unreissued_reissued (hok issued rs hlast)
        obtain ⟨p, hp, -⟩ := undoVerifier_eq { v.cache with
          mapReissuedAssetData := v.cache.mapReissuedAssetData.insert asset.strName
            (asset.unreissued r (undoItemOf vUndoIPFS r.strName))
          setNewReissue := v.cache.setNewReissue.remove
            ⟨r, address, out, (height.getD (0, 0)).1, (height.getD (0, 0)).2⟩ }
          asset.strName (undoItemOf vUndoIPFS r.strName)
        rw [CacheOp.run, heq, hp, hname]
        exact h.setReissued rfl rfl (h.coherent.getAssetMetaDataIfExists _) hex
          (by rw [unreissued_strName, hname]) hundo

end Step

theorem replays_start {g : Globals} {v : View} (h : Consistent g v) :
    Replays g v (startHistories g v) := by
  refine ⟨h, fun name data hdata => ?_⟩
  rw [← getAssetMetaDataIfExists_of_coherent h.coherent, Option.map_eq_some_iff] at hdata
  obtain ⟨found, hfound, rfl⟩ := hdata
  exact ⟨⟨found.1, []⟩, by rw [startHistories, hfound]; rfl, rfl⟩

theorem replays_run {g : Globals} {v₀ v : View} {hs₀ hs : Histories}
    (hrun : HistoryRun g (UndoSafe g) v₀ hs₀ v hs) (h : Replays g v₀ hs₀) : Replays g v hs := by
  induction hrun with
  | start => exact h
  | step _ htrue hrec hok ih => exact ih.step htrue hrec hok

/-- **Metadata is the replay of the history**, and is found exactly for the assets that exist, in
every state a run of safe steps reaches. -/
theorem metadata_replays_history (g : Globals) (v₀ v : View) (hs : Histories)
    (hstart : Consistent g v₀)
    (hrun : HistoryRun g (UndoSafe g) v₀ (startHistories g v₀) v hs) (name : StdString) :
    (getAssetMetaDataIfExists g v name).1.isSome = (checkIfAssetExists g v name).1 ∧
      ∀ data, (getAssetMetaDataIfExists g v name).1 = some data →
        ∃ h, hs name = some h ∧ data.1 = h.replay := by
  have h := replays_run hrun (replays_start hstart)
  constructor
  · rw [checkIfAssetExists_of_coherent h.reindex h.coherent, Bool.eq_iff_iff]
    have hdata := getAssetMetaDataIfExists_of_coherent h.coherent name
    constructor
    · intro hsome
      obtain ⟨found, hfound⟩ := Option.isSome_iff_exists.mp hsome
      exact (h.of_metadata hfound).1
    · intro hsome
      obtain ⟨asset, hasset⟩ := Option.isSome_iff_exists.mp hsome
      rw [← Option.isSome_map (f := Prod.fst), hdata, hasset]
      cases reissuedData g v name <;> rfl
  · intro data hmeta
    exact (h.of_metadata hmeta).2.2

/-! ## An asset that is reissued and undone -/

/-- A reissue of `COIN` that gives it an IPFS hash. -/
def someReissue : CReissueAsset :=
  { strName := bytes "COIN", nAmount := 500, nUnits := -1, strIPFSHash := bytes "Qm" }

/-- The undo data of that reissue. -/
def someUndo : List (StdString × CBlockAssetUndo) := [(bytes "COIN", { fChangedIPFS := true })]

/-- `COIN` is issued, reissued, and the reissue is undone. -/
def reissueAndUndo : List CacheOp :=
  [.addNewAsset someAsset someAddress 7 1, .addReissueAsset someReissue someAddress ⟨2, 0⟩,
    .removeReissueAsset someReissue someAddress ⟨2, 0⟩ someUndo]

/-- The histories after an issuance, a reissue and its undo. -/
def undoneHistories : Histories :=
  Function.update (Function.update (Function.update (startHistories {} {})
    someAsset.strName (some ⟨someAsset, []⟩))
    someReissue.strName (some ⟨someAsset, [someReissue]⟩))
    someReissue.strName (some ⟨someAsset, []⟩)

theorem consistent_fresh : Consistent {} {} where
  reindex := rfl
  coherent _ _ h := by cases h
  disjoint _ _ h := by cases h
  named _ _ h := by cases h
  found _ _ h := by cases h

theorem undoFits_someUndo :
    UndoFits someAsset someReissue (undoItemOf someUndo someReissue.strName) where
  reissuable := rfl
  units i hi := by
    cases hi
    decide
  unitsKept _ := by decide
  hash i hi := by
    cases hi
    decide
  hashKept h := absurd (h { fChangedIPFS := true } rfl) (by decide)
  noIPFS := by decide
  hasIPFS := by decide

/-- The run, with any condition on steps that its undo step meets. -/
theorem historyRun_reissueAndUndo {ok : View → Histories → CacheOp → Prop}
    (hok : ∀ v hs op, UndoSafe {} v hs op → ok v hs op) :
    HistoryRun {} ok {} (startHistories {} {}) (runOps {} {} reissueAndUndo) undoneHistories := by
  refine .step (.step (.step .start ?_ (.issue someAsset someAddress 7 1) (hok _ _ _ trivial)) ?_
    (.reissue someReissue someAddress ⟨2, 0⟩ ⟨someAsset, []⟩ ?_) (hok _ _ _ trivial)) ?_
    (.undoReissue someReissue someAddress ⟨2, 0⟩ someUndo someAsset [] ?_) (hok _ _ _ ?_)
  · decide
  · decide
  · decide
  · decide
  · decide
  · intro issued rs hlast
    have heq : (⟨someAsset, [someReissue]⟩ : History) = ⟨issued, someReissue :: rs⟩ :=
      Option.some.inj hlast
    cases heq
    exact undoFits_someUndo

theorem metadata_replays_history_reissueAndUndo :
    (getAssetMetaDataIfExists {} (runOps {} {} reissueAndUndo) (bytes "COIN")).1.isSome =
        (checkIfAssetExists {} (runOps {} {} reissueAndUndo) (bytes "COIN")).1 ∧
      ∀ data, (getAssetMetaDataIfExists {} (runOps {} {} reissueAndUndo) (bytes "COIN")).1 =
        some data → ∃ h, undoneHistories (bytes "COIN") = some h ∧ data.1 = h.replay :=
  metadata_replays_history {} {} _ _ consistent_fresh
    (historyRun_reissueAndUndo (fun _ _ _ h => h)) (bytes "COIN")

/-- **Metadata of an asset that does not exist**: `COIN` is issued, reissued, and both are undone,
yet `mapReissuedAssetData` still answers for it. -/
theorem metadata_after_undone_issue :
    HistoryRun {} (fun _ _ _ => True) {} (startHistories {} {})
        (runOps {} {} (reissueAndUndo ++ [.removeNewAsset someAsset someAddress]))
        (Function.update undoneHistories someAsset.strName none) ∧
      (getAssetMetaDataIfExists {}
        (runOps {} {} (reissueAndUndo ++ [.removeNewAsset someAsset someAddress]))
        (bytes "COIN")).1 = some (someAsset, none) ∧
      (checkIfAssetExists {}
        (runOps {} {} (reissueAndUndo ++ [.removeNewAsset someAsset someAddress]))
        (bytes "COIN")).1 = false := by
  refine ⟨.step (historyRun_reissueAndUndo (fun _ _ _ _ => trivial)) ?_
    (.undoIssue someAsset someAddress someAsset ?_) trivial, ?_, ?_⟩
  · decide
  · decide
  · decide
  · decide

end RavenCash
