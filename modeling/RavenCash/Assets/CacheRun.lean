import RavenCash.Assets.Cache

/-!
# Runs of cache operations

`CacheOp` lists the operations a block applies to a view, `CacheOp.run` applies one and `runOps` a
sequence. `run_step` says once what an operation can do to each dirty set that queries read;
invariants of runs are derived from it by `runOps_induction`.
-/

set_option autoImplicit false

namespace RavenCash

inductive CacheOp where
  | addNewAsset (asset : CNewAsset) (address : StdString) (nHeight : Int) (blockHash : UInt256)
  | removeNewAsset (asset : CNewAsset) (address : StdString)
  | addReissueAsset (reissue : CReissueAsset) (address : StdString) (out : COutPoint)
  | removeReissueAsset (reissue : CReissueAsset) (address : StdString) (out : COutPoint)
      (vUndoIPFS : List (StdString × CBlockAssetUndo))
  | addOwnerAsset (assetsName address : StdString)
  | removeOwnerAsset (assetsName address : StdString)
  | addTransferAsset (transfer : CAssetTransfer) (address : StdString) (out : COutPoint)
  | removeTransfer (transfer : CAssetTransfer) (address : StdString) (out : COutPoint)
  | addBackSpentAsset (assetName address : StdString) (nAmount : CAmount)
  | addRestrictedVerifier (assetName verifier : StdString)
  | removeRestrictedVerifier (assetName verifier : StdString) (fUndoingReissue : Bool)
  | addQualifierAddress (assetName address : StdString) (type : QualifierType)
  | removeQualifierAddress (assetName address : StdString) (type : QualifierType)
  | addRestrictedAddress (assetName address : StdString) (type : RestrictedType)
  | removeRestrictedAddress (assetName address : StdString) (type : RestrictedType)
  | addGlobalRestricted (assetName : StdString) (type : RestrictedType)
  | removeGlobalRestricted (assetName : StdString) (type : RestrictedType)
deriving DecidableEq, Repr

/-- One operation on a view: its `bool` and the view it leaves. -/
def CacheOp.run (g : Globals) (v : View) : CacheOp → Bool × View
  | .addNewAsset asset address nHeight blockHash =>
      RavenCash.addNewAsset g v asset address nHeight blockHash
  | .removeNewAsset asset address => RavenCash.removeNewAsset g v asset address
  | .addReissueAsset reissue address out => RavenCash.addReissueAsset g v reissue address out
  | .removeReissueAsset reissue address out vUndoIPFS =>
      RavenCash.removeReissueAsset g v reissue address out vUndoIPFS
  | .addOwnerAsset name address =>
      (true, { v with cache := RavenCash.addOwnerAsset g v.cache name address })
  | .removeOwnerAsset name address =>
      (true, { v with cache := RavenCash.removeOwnerAsset g v.cache name address })
  | .addTransferAsset transfer address out =>
      (true, { v with cache := RavenCash.addTransferAsset g v.cache transfer address out })
  | .removeTransfer transfer address out =>
      let (undone, cache) := RavenCash.removeTransfer g v.cache transfer address out
      (undone, { v with cache := cache })
  | .addBackSpentAsset name address nAmount =>
      (true, { v with cache := RavenCash.addBackSpentAsset g v.cache name address nAmount })
  | .addRestrictedVerifier name verifier =>
      (true, { v with cache := RavenCash.addRestrictedVerifier v.cache name verifier })
  | .removeRestrictedVerifier name verifier fUndoingReissue =>
      (true, { v with
        cache := RavenCash.removeRestrictedVerifier v.cache name verifier fUndoingReissue })
  | .addQualifierAddress name address type =>
      (true, { v with cache := RavenCash.addQualifierAddress v.cache name address type })
  | .removeQualifierAddress name address type =>
      (true, { v with cache := RavenCash.removeQualifierAddress v.cache name address type })
  | .addRestrictedAddress name address type =>
      (true, { v with cache := RavenCash.addRestrictedAddress v.cache name address type })
  | .removeRestrictedAddress name address type =>
      (true, { v with cache := RavenCash.removeRestrictedAddress v.cache name address type })
  | .addGlobalRestricted name type =>
      (true, { v with cache := RavenCash.addGlobalRestricted v.cache name type })
  | .removeGlobalRestricted name type =>
      (true, { v with cache := RavenCash.removeGlobalRestricted v.cache name type })

/-- A sequence of operations on one view. -/
def runOps (g : Globals) (v : View) (ops : List CacheOp) : View :=
  ops.foldl (fun v op => (op.run g v).2) v

@[simp] theorem runOps_nil (g : Globals) (v : View) : runOps g v [] = v := rfl

@[simp] theorem runOps_cons (g : Globals) (v : View) (op : CacheOp) (ops : List CacheOp) :
    runOps g v (op :: ops) = runOps g (op.run g v).2 ops := rfl

/-- **Invariants of runs**: what every admissible step keeps holds after a run of such steps. -/
theorem runOps_induction (g : Globals) {P : View → Prop} {A : CacheOp → Prop}
    (hstep : ∀ v op, P v → A op → P (op.run g v).2) (ops : List CacheOp) (v : View) (hv : P v)
    (hok : ∀ op ∈ ops, A op) : P (runOps g v ops) := by
  induction ops generalizing v with
  | nil => exact hv
  | cons op ops ih =>
      rw [runOps_cons]
      exact ih (op.run g v).2 (hstep v op hv (hok op (by simp)))
        (fun op' h => hok op' (List.mem_cons_of_mem _ h))

/-! ## Bookkeeping of balances touches the balances only -/

section Amounts

variable (g : Globals) (c : CAssetsCache) (assetName address : StdString) (nAmount : CAmount)

theorem assignAmount_eq :
    ∃ m, c.assignAmount g assetName address nAmount = { c with mapAssetsAddressAmount := m } := by
  unfold CAssetsCache.assignAmount
  split
  · exact ⟨_, rfl⟩
  · exact ⟨c.mapAssetsAddressAmount, rfl⟩

theorem getBestAssetAddressAmount_eq :
    ∃ m, (getBestAssetAddressAmount g c assetName address).2 =
      { c with mapAssetsAddressAmount := m } := by
  unfold getBestAssetAddressAmount
  split
  · split
    · exact ⟨c.mapAssetsAddressAmount, rfl⟩
    · split
      · exact ⟨_, rfl⟩
      · split
        · exact ⟨_, rfl⟩
        · exact ⟨c.mapAssetsAddressAmount, rfl⟩
  · exact ⟨c.mapAssetsAddressAmount, rfl⟩

theorem withBestAmount_eq :
    ∃ m, c.withBestAmount g assetName address = { c with mapAssetsAddressAmount := m } := by
  obtain ⟨m, hm⟩ := getBestAssetAddressAmount_eq g c assetName address
  unfold CAssetsCache.withBestAmount
  simp only [hm]
  split
  · exact ⟨m, rfl⟩
  · exact ⟨_, rfl⟩

theorem addAmount_eq :
    ∃ m, c.addAmount g assetName address nAmount = { c with mapAssetsAddressAmount := m } := by
  unfold CAssetsCache.addAmount
  split
  · obtain ⟨m, hm⟩ := withBestAmount_eq g c assetName address
    rw [hm]
    exact assignAmount_eq g { c with mapAssetsAddressAmount := m } assetName address _
  · exact ⟨c.mapAssetsAddressAmount, rfl⟩

theorem addToAssetBalance_eq :
    ∃ m, addToAssetBalance g c assetName address nAmount =
      { c with mapAssetsAddressAmount := m } := by
  unfold addToAssetBalance
  split
  · split
    · obtain ⟨m, hm⟩ := withBestAmount_eq g c assetName address
      rw [hm]
      exact assignAmount_eq g { c with mapAssetsAddressAmount := m } assetName address _
    · exact addAmount_eq g c assetName address nAmount
  · exact ⟨c.mapAssetsAddressAmount, rfl⟩

theorem undoTransfer_eq (transfer : CAssetTransfer) :
    ∃ m, (undoTransfer g c transfer address).2 = { c with mapAssetsAddressAmount := m } := by
  unfold undoTransfer
  split
  · obtain ⟨m, hm⟩ := getBestAssetAddressAmount_eq g c transfer.strName address
    simp only [hm]
    split
    · exact ⟨m, rfl⟩
    · split
      · exact ⟨m, rfl⟩
      · exact assignAmount_eq g { c with mapAssetsAddressAmount := m } transfer.strName address _
  · exact ⟨c.mapAssetsAddressAmount, rfl⟩

theorem undoReissueAmount_eq (reissue : CReissueAsset) :
    ∃ m, (undoReissueAmount g c reissue address).2 = { c with mapAssetsAddressAmount := m } := by
  unfold undoReissueAmount
  split
  · obtain ⟨m, hm⟩ := getBestAssetAddressAmount_eq g c reissue.strName address
    simp only [hm]
    split
    · exact ⟨m, rfl⟩
    · exact assignAmount_eq g { c with mapAssetsAddressAmount := m } reissue.strName address _
  · exact ⟨c.mapAssetsAddressAmount, rfl⟩

end Amounts

/-! ## What each fallible operation does -/

section Cases

variable (g : Globals) (v : View)

theorem addNewAsset_cases (asset : CNewAsset) (address : StdString) (nHeight : Int)
    (blockHash : UInt256) :
    ((checkIfAssetExists g v asset.strName).1 = true ∧
      addNewAsset g v asset address nHeight blockHash =
        (false, { v with lru := (checkIfAssetExists g v asset.strName).2 })) ∨
    ((checkIfAssetExists g v asset.strName).1 = false ∧
      ∃ m, addNewAsset g v asset address nHeight blockHash =
        (true, ⟨{ v.cache with
          setNewAssets := v.cache.setNewAssets.add ⟨asset, address, nHeight, blockHash⟩
          mapAssetsAddressAmount := m }, (checkIfAssetExists g v asset.strName).2⟩)) := by
  unfold addNewAsset
  rcases checkIfAssetExists g v asset.strName with ⟨_ | _, lru⟩
  · obtain ⟨m, hm⟩ := assignAmount_eq g { v.cache with
      setNewAssets := v.cache.setNewAssets.add ⟨asset, address, nHeight, blockHash⟩ }
      asset.strName address asset.nAmount
    exact Or.inr ⟨rfl, m, by rw [← hm]; rfl⟩
  · exact Or.inl ⟨rfl, rfl⟩

theorem removeNewAsset_cases (asset : CNewAsset) (address : StdString) :
    ((checkIfAssetExists g v asset.strName).1 = false ∧
      removeNewAsset g v asset address =
        (false, { v with lru := (checkIfAssetExists g v asset.strName).2 })) ∨
    ((checkIfAssetExists g v asset.strName).1 = true ∧
      ∃ m, removeNewAsset g v asset address =
        (true, ⟨{ v.cache with
          setNewAssets := v.cache.setNewAssets.remove ⟨asset, address, 0, 0⟩
          mapAssetsAddressAmount := m }, (checkIfAssetExists g v asset.strName).2⟩)) := by
  unfold removeNewAsset
  rcases checkIfAssetExists g v asset.strName with ⟨_ | _, lru⟩
  · exact Or.inl ⟨rfl, rfl⟩
  · obtain ⟨m, hm⟩ := assignAmount_eq g { v.cache with
      setNewAssets := v.cache.setNewAssets.remove ⟨asset, address, 0, 0⟩ } asset.strName address 0
    exact Or.inr ⟨rfl, m, by rw [← hm]; rfl⟩

/-- Reissued data of the view is what the view answers. -/
theorem getAssetMetaDataIfExists_of_reissued {name : StdString} {data : CNewAsset}
    (h : v.cache.mapReissuedAssetData.lookup name = some data) :
    getAssetMetaDataIfExists g v name = (some (data, none), v.lru) := by
  simp only [getAssetMetaDataIfExists, h]

/-- The data in the map, when there is one, is the data the lookup has found. -/
theorem recordReissue_of_found {reissue : CReissueAsset} {asset : CNewAsset}
    {height : Option (Int × UInt256)} {lru : LRUCaches}
    (hmeta : getAssetMetaDataIfExists g v reissue.strName = (some (asset, height), lru)) :
    recordReissue v.cache.mapReissuedAssetData asset reissue =
      v.cache.mapReissuedAssetData.insert reissue.strName (asset.reissued reissue) := by
  unfold recordReissue
  cases hlook : v.cache.mapReissuedAssetData.lookup reissue.strName with
  | none => rfl
  | some data =>
      rw [getAssetMetaDataIfExists_of_reissued g v hlook] at hmeta
      simp only [Prod.mk.injEq, Option.some.injEq] at hmeta
      rw [hmeta.1.1]

theorem addReissueAsset_cases (reissue : CReissueAsset) (address : StdString) (out : COutPoint) :
    ((getAssetMetaDataIfExists g v reissue.strName).1 = none ∧
      addReissueAsset g v reissue address out =
        (false, { v with lru := (getAssetMetaDataIfExists g v reissue.strName).2 })) ∨
    ∃ asset height, (getAssetMetaDataIfExists g v reissue.strName).1 = some (asset, height) ∧
      ∃ m, addReissueAsset g v reissue address out =
        (true, ⟨{ v.cache with
          mapReissuedAssetData :=
            v.cache.mapReissuedAssetData.insert reissue.strName (asset.reissued reissue)
          setNewReissue := v.cache.setNewReissue.add
            ⟨reissue, address, out, (height.getD (0, 0)).1, (height.getD (0, 0)).2⟩
          mapAssetsAddressAmount := m },
          (getAssetMetaDataIfExists g v reissue.strName).2⟩) := by
  unfold addReissueAsset
  rcases hmeta : getAssetMetaDataIfExists g v reissue.strName with ⟨_ | ⟨asset, height⟩, lru⟩
  · exact Or.inl ⟨rfl, rfl⟩
  · refine Or.inr ⟨asset, height, rfl, ?_⟩
    rw [← recordReissue_of_found g v hmeta]
    obtain ⟨m, hm⟩ := addAmount_eq g { v.cache with
      mapReissuedAssetData := recordReissue v.cache.mapReissuedAssetData asset reissue
      setNewReissue := v.cache.setNewReissue.add
        ⟨reissue, address, out, (height.getD (0, 0)).1, (height.getD (0, 0)).2⟩ }
      reissue.strName address reissue.nAmount
    exact ⟨m, by rw [← hm]⟩

theorem unreissued_strName (asset : CNewAsset) (reissue : CReissueAsset)
    (item : Option CBlockAssetUndo) : (asset.unreissued reissue item).strName = asset.strName := by
  unfold CNewAsset.unreissued
  cases item with
  | none => rfl
  | some item =>
      dsimp only
      split <;> split <;> split <;> rfl

theorem removeReissueAsset_cases (reissue : CReissueAsset) (address : StdString) (out : COutPoint)
    (vUndoIPFS : List (StdString × CBlockAssetUndo)) :
    ((getAssetMetaDataIfExists g v reissue.strName).1 = none ∧
      removeReissueAsset g v reissue address out vUndoIPFS =
        (false, { v with lru := (getAssetMetaDataIfExists g v reissue.strName).2 })) ∨
    ∃ asset height, (getAssetMetaDataIfExists g v reissue.strName).1 = some (asset, height) ∧
      ∃ ok m, removeReissueAsset g v reissue address out vUndoIPFS =
        (ok, ⟨{ undoVerifier { v.cache with
          mapReissuedAssetData := v.cache.mapReissuedAssetData.insert asset.strName
            (asset.unreissued reissue (undoItemOf vUndoIPFS reissue.strName))
          setNewReissue := v.cache.setNewReissue.remove
            ⟨reissue, address, out, (height.getD (0, 0)).1, (height.getD (0, 0)).2⟩ }
            asset.strName (undoItemOf vUndoIPFS reissue.strName) with
          mapAssetsAddressAmount := m },
          (getAssetMetaDataIfExists g v reissue.strName).2⟩) := by
  unfold removeReissueAsset
  rcases hmeta : getAssetMetaDataIfExists g v reissue.strName with ⟨_ | ⟨asset, height⟩, lru⟩
  · exact Or.inl ⟨rfl, rfl⟩
  · refine Or.inr ⟨asset, height, rfl, ?_⟩
    simp only [unreissued_strName]
    obtain ⟨m, hm⟩ := undoReissueAmount_eq g (undoVerifier { v.cache with
      mapReissuedAssetData := v.cache.mapReissuedAssetData.insert asset.strName
        (asset.unreissued reissue (undoItemOf vUndoIPFS reissue.strName))
      setNewReissue := v.cache.setNewReissue.remove
        ⟨reissue, address, out, (height.getD (0, 0)).1, (height.getD (0, 0)).2⟩ }
        asset.strName (undoItemOf vUndoIPFS reissue.strName)) address reissue
    exact ⟨_, m, by rw [← hm]⟩

end Cases

/-! ## Operations that cannot fail -/

section Total

variable (g : Globals) (c : CAssetsCache)

theorem addOwnerAsset_eq (name address : StdString) :
    ∃ m, addOwnerAsset g c name address = { c with
      setNewOwnerAssets := c.setNewOwnerAssets.add ⟨name, address⟩
      mapAssetsAddressAmount := m } :=
  assignAmount_eq g { c with setNewOwnerAssets := c.setNewOwnerAssets.add ⟨name, address⟩ } name
    address OWNER_ASSET_AMOUNT

theorem removeOwnerAsset_eq (name address : StdString) :
    ∃ m, removeOwnerAsset g c name address = { c with
      setNewOwnerAssets := c.setNewOwnerAssets.remove ⟨name, address⟩
      mapAssetsAddressAmount := m } :=
  assignAmount_eq g { c with setNewOwnerAssets := c.setNewOwnerAssets.remove ⟨name, address⟩ } name
    address 0

theorem addTransferAsset_eq (transfer : CAssetTransfer) (address : StdString) (out : COutPoint) :
    ∃ m, addTransferAsset g c transfer address out = { c with
      setNewTransferAssets := c.setNewTransferAssets.add ⟨transfer, address, out⟩
      mapAssetsAddressAmount := m } := by
  obtain ⟨m, hm⟩ := addToAssetBalance_eq g c transfer.strName address transfer.nAmount
  exact ⟨m, by simp only [addTransferAsset, hm]⟩

theorem addBackSpentAsset_eq (name address : StdString) (nAmount : CAmount) :
    ∃ m u, addBackSpentAsset g c name address nAmount = { c with
      vUndoAssetAmount := u
      mapAssetsAddressAmount := m } := by
  obtain ⟨m, hm⟩ := addAmount_eq g c name address nAmount
  exact ⟨m, _, by simp only [addBackSpentAsset, hm]; rfl⟩

theorem removeTransfer_eq (transfer : CAssetTransfer) (address : StdString) (out : COutPoint) :
    ∃ m t, (removeTransfer g c transfer address out).2 = { c with
      setNewTransferAssets := t
      mapAssetsAddressAmount := m } := by
  obtain ⟨m, hm⟩ := undoTransfer_eq g c address transfer
  simp only [removeTransfer, hm]
  split
  · exact ⟨m, c.setNewTransferAssets, rfl⟩
  · exact ⟨m, _, rfl⟩

/-- Marking a sub qualifier changes the two root qualifier maps only. -/
theorem markRootQualifier_eq (name address : StdString) (present : Bool) :
    ∃ a r, c.markRootQualifier name address present = { c with
      mapRootQualifierAddressesAdd := a
      mapRootQualifierAddressesRemove := r } := by
  unfold CAssetsCache.markRootQualifier
  split
  · dsimp only
    split
    · exact ⟨_, _, rfl⟩
    · exact ⟨_, _, rfl⟩
  · exact ⟨c.mapRootQualifierAddressesAdd, c.mapRootQualifierAddressesRemove, rfl⟩

theorem undoVerifier_eq (name : StdString) (item : Option CBlockAssetUndo) :
    ∃ p, undoVerifier c name item = { c with setNewRestrictedVerifier := p } ∧
      (p = c.setNewRestrictedVerifier ∨ ∃ x, p = c.setNewRestrictedVerifier.remove x) := by
  unfold undoVerifier
  cases item with
  | none => exact ⟨c.setNewRestrictedVerifier, rfl, Or.inl rfl⟩
  | some item =>
      dsimp only
      split
      · exact ⟨_, rfl, Or.inr ⟨_, rfl⟩⟩
      · exact ⟨c.setNewRestrictedVerifier, rfl, Or.inl rfl⟩

end Total

/-! ## What one operation can do to each dirty set -/

/-- **The steps of a run**: how the dirty sets that queries read change from `c` to `c'` when `op`
runs on a view in which existence is answered by `found`. -/
structure CacheStep (found : StdString → Bool) (op : CacheOp) (c c' : CAssetsCache) : Prop where
  assets : c'.setNewAssets = c.setNewAssets ∨
    (∃ asset address nHeight blockHash, op = .addNewAsset asset address nHeight blockHash ∧
      found asset.strName = false ∧
      c'.setNewAssets = c.setNewAssets.add ⟨asset, address, nHeight, blockHash⟩) ∨
    (∃ asset address, op = .removeNewAsset asset address ∧ found asset.strName = true ∧
      c'.setNewAssets = c.setNewAssets.remove ⟨asset, address, 0, 0⟩)
  verifier : c'.setNewRestrictedVerifier = c.setNewRestrictedVerifier ∨
    (∃ name s, op = .addRestrictedVerifier name s ∧
      c'.setNewRestrictedVerifier = c.setNewRestrictedVerifier.add ⟨name, s, false⟩) ∨
    (∃ x, c'.setNewRestrictedVerifier = c.setNewRestrictedVerifier.remove x)
  qualifier : c'.setNewQualifierAddress = c.setNewQualifierAddress ∨
    (∃ name address type, op = .addQualifierAddress name address type ∧
      c'.setNewQualifierAddress = c.setNewQualifierAddress.addOver ⟨name, address, type⟩) ∨
    (∃ x, c'.setNewQualifierAddress = c.setNewQualifierAddress.removeOver x)
  restricted : c'.setNewRestrictedAddress = c.setNewRestrictedAddress ∨
    (∃ name address type, op = .addRestrictedAddress name address type ∧
      c'.setNewRestrictedAddress = c.setNewRestrictedAddress.addOver ⟨name, address, type⟩) ∨
    (∃ x, c'.setNewRestrictedAddress = c.setNewRestrictedAddress.removeOver x)
  globalRestricted : c'.setNewRestrictedGlobal = c.setNewRestrictedGlobal ∨
    (∃ name type, op = .addGlobalRestricted name type ∧
      c'.setNewRestrictedGlobal = c.setNewRestrictedGlobal.addOver ⟨name, type⟩) ∨
    (∃ x, c'.setNewRestrictedGlobal = c.setNewRestrictedGlobal.removeOver x)
  rootRemove : c'.mapRootQualifierAddressesRemove = c.mapRootQualifierAddressesRemove ∨
    (∃ name address, (op = .addQualifierAddress name address .REMOVE_QUALIFIER ∨
      op = .removeQualifierAddress name address .ADD_QUALIFIER) ∧
      isAssetNameASubQualifier name = true) ∨
    (∃ key name, c'.mapRootQualifierAddressesRemove =
      eraseRootQualifier c.mapRootQualifierAddressesRemove key name)

/-- A step that leaves those sets alone. -/
theorem CacheStep.of_unchanged {found : StdString → Bool} {op : CacheOp} {c c' : CAssetsCache}
    (h1 : c'.setNewAssets = c.setNewAssets)
    (h2 : c'.setNewRestrictedVerifier = c.setNewRestrictedVerifier)
    (h3 : c'.setNewQualifierAddress = c.setNewQualifierAddress)
    (h4 : c'.setNewRestrictedAddress = c.setNewRestrictedAddress)
    (h5 : c'.setNewRestrictedGlobal = c.setNewRestrictedGlobal)
    (h6 : c'.mapRootQualifierAddressesRemove = c.mapRootQualifierAddressesRemove) :
    CacheStep found op c c' :=
  ⟨Or.inl h1, Or.inl h2, Or.inl h3, Or.inl h4, Or.inl h5, Or.inl h6⟩

theorem markRootQualifier_remove (c : CAssetsCache) (name address : StdString) (present : Bool) :
    (c.markRootQualifier name address present).mapRootQualifierAddressesRemove =
        c.mapRootQualifierAddressesRemove ∨
      (present = false ∧ isAssetNameASubQualifier name = true) ∨
      (∃ key, (c.markRootQualifier name address present).mapRootQualifierAddressesRemove =
        eraseRootQualifier c.mapRootQualifierAddressesRemove key name) := by
  unfold CAssetsCache.markRootQualifier
  by_cases hsub : isAssetNameASubQualifier name = true
  · cases present with
    | true => exact Or.inr (Or.inr ⟨_, by simp [hsub]; rfl⟩)
    | false => exact Or.inr (Or.inl ⟨rfl, hsub⟩)
  · exact Or.inl (by simp [hsub])

theorem addQualifierAddress_step (found : StdString → Bool) (c : CAssetsCache)
    (name address : StdString) (type : QualifierType) :
    CacheStep found (.addQualifierAddress name address type) c
      (addQualifierAddress c name address type) := by
  have hroot := markRootQualifier_remove c name address (type == .ADD_QUALIFIER)
  obtain ⟨a, r, h⟩ := markRootQualifier_eq c name address (type == .ADD_QUALIFIER)
  unfold addQualifierAddress
  rw [h] at hroot ⊢
  refine ⟨Or.inl rfl, Or.inl rfl, Or.inr (Or.inl ⟨name, address, type, rfl, rfl⟩), Or.inl rfl,
    Or.inl rfl, ?_⟩
  rcases hroot with hr | ⟨ht, hsub⟩ | ⟨key, hr⟩
  · exact Or.inl hr
  · refine Or.inr (Or.inl ⟨name, address, Or.inl ?_, hsub⟩)
    cases type with
    | REMOVE_QUALIFIER => rfl
    | ADD_QUALIFIER => simp at ht
  · exact Or.inr (Or.inr ⟨key, name, hr⟩)

theorem removeQualifierAddress_step (found : StdString → Bool) (c : CAssetsCache)
    (name address : StdString) (type : QualifierType) :
    CacheStep found (.removeQualifierAddress name address type) c
      (removeQualifierAddress c name address type) := by
  have hroot := markRootQualifier_remove c name address (type != .ADD_QUALIFIER)
  obtain ⟨a, r, h⟩ := markRootQualifier_eq c name address (type != .ADD_QUALIFIER)
  unfold removeQualifierAddress
  rw [h] at hroot ⊢
  refine ⟨Or.inl rfl, Or.inl rfl, Or.inr (Or.inr ⟨⟨name, address, type⟩, rfl⟩), Or.inl rfl,
    Or.inl rfl, ?_⟩
  rcases hroot with hr | ⟨ht, hsub⟩ | ⟨key, hr⟩
  · exact Or.inl hr
  · refine Or.inr (Or.inl ⟨name, address, Or.inr ?_, hsub⟩)
    cases type with
    | REMOVE_QUALIFIER => simp at ht
    | ADD_QUALIFIER => rfl
  · exact Or.inr (Or.inr ⟨key, name, hr⟩)

theorem removeReissueAsset_step (found : StdString → Bool) (g : Globals) (v : View)
    (reissue : CReissueAsset) (address : StdString) (out : COutPoint)
    (vUndoIPFS : List (StdString × CBlockAssetUndo)) :
    CacheStep found (.removeReissueAsset reissue address out vUndoIPFS) v.cache
      (removeReissueAsset g v reissue address out vUndoIPFS).2.cache := by
  rcases removeReissueAsset_cases g v reissue address out vUndoIPFS with
    ⟨_, h⟩ | ⟨asset, height, _, ok, m, h⟩
  · rw [h]
    exact CacheStep.of_unchanged rfl rfl rfl rfl rfl rfl
  · obtain ⟨p, hp, hcases⟩ := undoVerifier_eq { v.cache with
      mapReissuedAssetData := v.cache.mapReissuedAssetData.insert asset.strName
        (asset.unreissued reissue (undoItemOf vUndoIPFS reissue.strName))
      setNewReissue := v.cache.setNewReissue.remove
        ⟨reissue, address, out, (height.getD (0, 0)).1, (height.getD (0, 0)).2⟩ }
      asset.strName (undoItemOf vUndoIPFS reissue.strName)
    rw [h, hp]
    refine ⟨Or.inl rfl, ?_, Or.inl rfl, Or.inl rfl, Or.inl rfl, Or.inl rfl⟩
    rcases hcases with hsame | hremove
    · exact Or.inl hsame
    · exact Or.inr (Or.inr hremove)

/-- **What one operation can do.** -/
theorem run_step (g : Globals) (v : View) (op : CacheOp) :
    CacheStep (fun name => (checkIfAssetExists g v name).1) op v.cache (op.run g v).2.cache := by
  cases op with
  | addNewAsset asset address nHeight blockHash =>
      rcases addNewAsset_cases g v asset address nHeight blockHash with ⟨_, h⟩ | ⟨hne, m, h⟩
      · rw [CacheOp.run, h]
        exact CacheStep.of_unchanged rfl rfl rfl rfl rfl rfl
      · rw [CacheOp.run, h]
        exact ⟨Or.inr (Or.inl ⟨asset, address, nHeight, blockHash, rfl, hne, rfl⟩), Or.inl rfl,
          Or.inl rfl, Or.inl rfl, Or.inl rfl, Or.inl rfl⟩
  | removeNewAsset asset address =>
      rcases removeNewAsset_cases g v asset address with ⟨_, h⟩ | ⟨hex, m, h⟩
      · rw [CacheOp.run, h]
        exact CacheStep.of_unchanged rfl rfl rfl rfl rfl rfl
      · rw [CacheOp.run, h]
        exact ⟨Or.inr (Or.inr ⟨asset, address, rfl, hex, rfl⟩), Or.inl rfl, Or.inl rfl, Or.inl rfl,
          Or.inl rfl, Or.inl rfl⟩
  | addReissueAsset reissue address out =>
      rcases addReissueAsset_cases g v reissue address out with ⟨_, h⟩ | ⟨asset, height, _, m, h⟩ <;>
        rw [CacheOp.run, h] <;> exact CacheStep.of_unchanged rfl rfl rfl rfl rfl rfl
  | removeReissueAsset reissue address out vUndoIPFS =>
      exact removeReissueAsset_step _ g v reissue address out vUndoIPFS
  | addOwnerAsset name address =>
      obtain ⟨m, h⟩ := addOwnerAsset_eq g v.cache name address
      rw [CacheOp.run, h]
      exact CacheStep.of_unchanged rfl rfl rfl rfl rfl rfl
  | removeOwnerAsset name address =>
      obtain ⟨m, h⟩ := removeOwnerAsset_eq g v.cache name address
      rw [CacheOp.run, h]
      exact CacheStep.of_unchanged rfl rfl rfl rfl rfl rfl
  | addTransferAsset transfer address out =>
      obtain ⟨m, h⟩ := addTransferAsset_eq g v.cache transfer address out
      rw [CacheOp.run, h]
      exact CacheStep.of_unchanged rfl rfl rfl rfl rfl rfl
  | removeTransfer transfer address out =>
      obtain ⟨m, t, h⟩ := removeTransfer_eq g v.cache transfer address out
      simp only [CacheOp.run, h]
      exact CacheStep.of_unchanged rfl rfl rfl rfl rfl rfl
  | addBackSpentAsset name address nAmount =>
      obtain ⟨m, u, h⟩ := addBackSpentAsset_eq g v.cache name address nAmount
      rw [CacheOp.run, h]
      exact CacheStep.of_unchanged rfl rfl rfl rfl rfl rfl
  | addRestrictedVerifier name verifier =>
      exact ⟨Or.inl rfl, Or.inr (Or.inl ⟨name, verifier, rfl, rfl⟩), Or.inl rfl, Or.inl rfl,
        Or.inl rfl, Or.inl rfl⟩
  | removeRestrictedVerifier name verifier fUndoingReissue =>
      exact ⟨Or.inl rfl, Or.inr (Or.inr ⟨⟨name, verifier, fUndoingReissue⟩, rfl⟩), Or.inl rfl,
        Or.inl rfl, Or.inl rfl, Or.inl rfl⟩
  | addQualifierAddress name address type =>
      exact addQualifierAddress_step _ v.cache name address type
  | removeQualifierAddress name address type =>
      exact removeQualifierAddress_step _ v.cache name address type
  | addRestrictedAddress name address type =>
      exact ⟨Or.inl rfl, Or.inl rfl, Or.inl rfl, Or.inr (Or.inl ⟨name, address, type, rfl, rfl⟩),
        Or.inl rfl, Or.inl rfl⟩
  | removeRestrictedAddress name address type =>
      exact ⟨Or.inl rfl, Or.inl rfl, Or.inl rfl, Or.inr (Or.inr ⟨⟨name, address, type⟩, rfl⟩),
        Or.inl rfl, Or.inl rfl⟩
  | addGlobalRestricted name type =>
      exact ⟨Or.inl rfl, Or.inl rfl, Or.inl rfl, Or.inl rfl,
        Or.inr (Or.inl ⟨name, type, rfl, rfl⟩), Or.inl rfl⟩
  | removeGlobalRestricted name type =>
      exact ⟨Or.inl rfl, Or.inl rfl, Or.inl rfl, Or.inl rfl, Or.inr (Or.inr ⟨⟨name, type⟩, rfl⟩),
        Or.inl rfl⟩

end RavenCash
