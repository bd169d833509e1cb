import RavenCash.Assets.Queries

/-!
# Changes to the dirty cache

The `Add…` and `Remove…` operations of `CAssetsCache` and `Flush`, which merges a view into
`passets`. An operation that can fail returns its `bool` beside the view it leaves; a `false` answer
can leave a changed view, as in the source. Operations that cannot fail return the cache.
-/

set_option autoImplicit false

namespace RavenCash

/-! ## Balances -/

/-- `if (fAssetIndex) mapAssetsAddressAmount[{assetName, address}] = nAmount;` -/
def CAssetsCache.assignAmount (cache : CAssetsCache) (g : Globals) (assetName address : StdString)
    (nAmount : CAmount) : CAssetsCache :=
  if g.fAssetIndex then
    { cache with mapAssetsAddressAmount :=
        cache.mapAssetsAddressAmount.insert (assetName, address) nAmount }
  else cache

/-- The cache with the best known amount of the pair in its map, `0` if none is known:
`if (!GetBestAssetAddressAmount(…)) mapAssetsAddressAmount.insert({pair, 0});` -/
def CAssetsCache.withBestAmount (cache : CAssetsCache) (g : Globals)
    (assetName address : StdString) : CAssetsCache :=
  let (found, cache) := getBestAssetAddressAmount g cache assetName address
  if found then cache
  else { cache with mapAssetsAddressAmount :=
    StdMap.insertNew cache.mapAssetsAddressAmount (assetName, address) 0 }

/-- `mapAssetsAddressAmount[{assetName, address}]`, `0` if absent. -/
def CAssetsCache.amountAt (cache : CAssetsCache) (assetName address : StdString) : CAmount :=
  (cache.mapAssetsAddressAmount.lookup (assetName, address)).getD 0

/-- `map.at(pair) += nAmount` on the best known amount of the pair, with the asset index. -/
def CAssetsCache.addAmount (cache : CAssetsCache) (g : Globals) (assetName address : StdString)
    (nAmount : CAmount) : CAssetsCache :=
  if g.fAssetIndex then
    let cache := cache.withBestAmount g assetName address
    cache.assignAmount g assetName address (cache.amountAt assetName address + nAmount)
  else cache

def addToAssetBalance (g : Globals) (cache : CAssetsCache) (strName address : StdString)
    (nAmount : CAmount) : CAssetsCache :=
  if g.fAssetIndex then
    if isAssetNameAnOwner strName then
      (cache.withBestAmount g strName address).assignAmount g strName address OWNER_ASSET_AMOUNT
    else cache.addAmount g strName address nAmount
  else cache

/-! ## Transfers -/

def addTransferAsset (g : Globals) (cache : CAssetsCache) (transferAsset : CAssetTransfer)
    (address : StdString) (out : COutPoint) : CAssetsCache :=
  let cache := addToAssetBalance g cache transferAsset.strName address transferAsset.nAmount
  { cache with setNewTransferAssets :=
      cache.setNewTransferAssets.add ⟨transferAsset, address, out⟩ }

def undoTransfer (g : Globals) (cache : CAssetsCache) (transfer : CAssetTransfer)
    (address : StdString) : Bool × CAssetsCache :=
  if g.fAssetIndex then
    let (found, cache) := getBestAssetAddressAmount g cache transfer.strName address
    if !found then (false, cache)
    else if cache.amountAt transfer.strName address < transfer.nAmount then (false, cache)
    else (true, cache.assignAmount g transfer.strName address
      (cache.amountAt transfer.strName address - transfer.nAmount))
  else (true, cache)

def removeTransfer (g : Globals) (cache : CAssetsCache) (transfer : CAssetTransfer)
    (address : StdString) (out : COutPoint) : Bool × CAssetsCache :=
  let (undone, cache) := undoTransfer g cache transfer address
  if !undone then (false, cache)
  else (true, { cache with setNewTransferAssets :=
    cache.setNewTransferAssets.remove ⟨transfer, address, out⟩ })

def addBackSpentAsset (g : Globals) (cache : CAssetsCache) (assetName address : StdString)
    (nAmount : CAmount) : CAssetsCache :=
  let cache := cache.addAmount g assetName address nAmount
  { cache with vUndoAssetAmount := cache.vUndoAssetAmount ++ [⟨assetName, address, nAmount⟩] }

/-! ## Issued assets -/

def addNewAsset (g : Globals) (v : View) (asset : CNewAsset) (address : StdString) (nHeight : Int)
    (blockHash : UInt256) : Bool × View :=
  let (found, lru) := checkIfAssetExists g v asset.strName
  if found then (false, { v with lru := lru })
  else
    let cache := { v.cache with
      setNewAssets := v.cache.setNewAssets.add ⟨asset, address, nHeight, blockHash⟩ }
    (true, ⟨cache.assignAmount g asset.strName address asset.nAmount, lru⟩)

def removeNewAsset (g : Globals) (v : View) (asset : CNewAsset) (address : StdString) :
    Bool × View :=
  let (found, lru) := checkIfAssetExists g v asset.strName
  if !found then (false, { v with lru := lru })
  else
    let cache := { v.cache with setNewAssets := v.cache.setNewAssets.remove ⟨asset, address, 0, 0⟩ }
    (true, ⟨cache.assignAmount g asset.strName address 0, lru⟩)

def addOwnerAsset (g : Globals) (cache : CAssetsCache) (assetsName address : StdString) :
    CAssetsCache :=
  { cache with setNewOwnerAssets := cache.setNewOwnerAssets.add ⟨assetsName, address⟩ }.assignAmount
    g assetsName address OWNER_ASSET_AMOUNT

def removeOwnerAsset (g : Globals) (cache : CAssetsCache) (assetsName address : StdString) :
    CAssetsCache :=
  { cache with
    setNewOwnerAssets := cache.setNewOwnerAssets.remove ⟨assetsName, address⟩ }.assignAmount
    g assetsName address 0

/-! ## Verifier strings -/

def addRestrictedVerifier (cache : CAssetsCache) (assetName verifier : StdString) : CAssetsCache :=
  { cache with setNewRestrictedVerifier := cache.setNewRestrictedVerifier.add ⟨assetName, verifier, false⟩ }

def removeRestrictedVerifier (cache : CAssetsCache) (assetName verifier : StdString)
    (fUndoingReissue : Bool := false) : CAssetsCache :=
  { cache with setNewRestrictedVerifier :=
      cache.setNewRestrictedVerifier.remove ⟨assetName, verifier, fUndoingReissue⟩ }

/-! ## Reissues -/

/-- The asset data after a reissue: the amount is added, the flag replaced, units and IPFS hash
replaced when the reissue gives them. -/
def CNewAsset.reissued (asset : CNewAsset) (reissue : CReissueAsset) : CNewAsset :=
  { asset with
    nAmount := asset.nAmount + reissue.nAmount
    nReissuable := reissue.nReissuable
    units := if reissue.nUnits ≠ -1 then reissue.nUnits else asset.units
    nHasIPFS := if reissue.strIPFSHash ≠ [] then 1 else asset.nHasIPFS
    strIPFSHash := if reissue.strIPFSHash ≠ [] then reissue.strIPFSHash else asset.strIPFSHash }

/-- The reissued data with one more reissue of the asset whose current data is `asset`. -/
def recordReissue (m : StdMap StdString CNewAsset) (asset : CNewAsset) (reissue : CReissueAsset) :
    StdMap StdString CNewAsset :=
  match m.lookup reissue.strName with
  | none => m.insert reissue.strName (asset.reissued reissue)
  | some data => m.insert reissue.strName (data.reissued reissue)

def addReissueAsset (g : Globals) (v : View) (reissue : CReissueAsset) (address : StdString)
    (out : COutPoint) : Bool × View :=
  match getAssetMetaDataIfExists g v reissue.strName with
  | (none, lru) => (false, { v with lru := lru })
  | (some (asset, height), lru) =>
      let (nHeight, blockHash) := height.getD (0, 0)
      let cache := { v.cache with
        mapReissuedAssetData := recordReissue v.cache.mapReissuedAssetData asset reissue
        setNewReissue := v.cache.setNewReissue.add ⟨reissue, address, out, nHeight, blockHash⟩ }
      (true, ⟨cache.addAmount g reissue.strName address reissue.nAmount, lru⟩)

/-- The undo item of the asset: the first one of that name. -/
def undoItemOf (vUndoIPFS : List (StdString × CBlockAssetUndo)) (name : StdString) :
    Option CBlockAssetUndo :=
  (vUndoIPFS.find? (fun item => item.1 == name)).map Prod.snd

/-- The asset data after undoing a reissue. -/
def CNewAsset.unreissued (asset : CNewAsset) (reissue : CReissueAsset)
    (undoItem : Option CBlockAssetUndo) : CNewAsset :=
  let assetData := { asset with nAmount := asset.nAmount - reissue.nAmount, nReissuable := 1 }
  match undoItem with
  | none => assetData
  | some item =>
      let assetData := if item.fChangedIPFS then { assetData with strIPFSHash := item.strIPFS }
        else assetData
      let assetData := if item.fChangedUnits then { assetData with units := item.nUnits.toInt8 }
        else assetData
      if assetData.strIPFSHash = [] then { assetData with nHasIPFS := 0 } else assetData

/-- `RemoveRestrictedVerifier` for an undo item that carries an old verifier string. -/
def undoVerifier (cache : CAssetsCache) (assetName : StdString)
    (undoItem : Option CBlockAssetUndo) : CAssetsCache :=
  match undoItem with
  | some item =>
      if item.fChangedVerifierString then
        removeRestrictedVerifier cache assetName item.verifierString true
      else cache
  | none => cache

/-- Takes a reissued amount back from the balance of the address. -/
def undoReissueAmount (g : Globals) (cache : CAssetsCache) (reissue : CReissueAsset)
    (address : StdString) : Bool × CAssetsCache :=
  if g.fAssetIndex then
    let (found, cache) := getBestAssetAddressAmount g cache reissue.strName address
    if !found && reissue.nAmount != 0 then (false, cache)
    else
      let cache := cache.assignAmount g reissue.strName address
        (cache.amountAt reissue.strName address - reissue.nAmount)
      (!decide (cache.amountAt reissue.strName address < 0), cache)
  else (true, cache)

def removeReissueAsset (g : Globals) (v : View) (reissue : CReissueAsset) (address : StdString)
    (out : COutPoint) (vUndoIPFS : List (StdString × CBlockAssetUndo)) : Bool × View :=
  match getAssetMetaDataIfExists g v reissue.strName with
  | (none, lru) => (false, { v with lru := lru })
  | (some (asset, height), lru) =>
      let undoItem := undoItemOf vUndoIPFS reissue.strName
      let assetData := asset.unreissued reissue undoItem
      let (nHeight, blockHash) := height.getD (0, 0)
      let cache := { v.cache with
        mapReissuedAssetData := v.cache.mapReissuedAssetData.insert assetData.strName assetData
        setNewReissue := v.cache.setNewReissue.remove ⟨reissue, address, out, nHeight, blockHash⟩ }
      let cache := undoVerifier cache assetData.strName undoItem
      let (undone, cache) := undoReissueAmount g cache reissue address
      (undone, ⟨cache, lru⟩)

/-! ## Qualifier tags and restrictions -/

/-- `m[key].insert(name);` -/
def insertRootQualifier (m : StdMap CAssetCacheRootQualifierChecker NameSet)
    (key : CAssetCacheRootQualifierChecker) (name : StdString) :
    StdMap CAssetCacheRootQualifierChecker NameSet :=
  m.insert key (((m.lookup key).getD ∅).insert name)

/-- `m[key].erase(name);` -/
def eraseRootQualifier (m : StdMap CAssetCacheRootQualifierChecker NameSet)
    (key : CAssetCacheRootQualifierChecker) (name : StdString) :
    StdMap CAssetCacheRootQualifierChecker NameSet :=
  m.insert key (((m.lookup key).getD ∅).erase name)

/-- The root qualifier maps after a sub qualifier becomes present at the address, or absent. -/
def CAssetsCache.markRootQualifier (cache : CAssetsCache) (assetName address : StdString)
    (present : Bool) : CAssetsCache :=
  if isAssetNameASubQualifier assetName then
    let key : CAssetCacheRootQualifierChecker := ⟨getParentName assetName, address⟩
    if present then
      { cache with
        mapRootQualifierAddressesAdd :=
          insertRootQualifier cache.mapRootQualifierAddressesAdd key assetName
        mapRootQualifierAddressesRemove :=
          eraseRootQualifier cache.mapRootQualifierAddressesRemove key assetName }
    else
      { cache with
        mapRootQualifierAddressesRemove :=
          insertRootQualifier cache.mapRootQualifierAddressesRemove key assetName
        mapRootQualifierAddressesAdd :=
          eraseRootQualifier cache.mapRootQualifierAddressesAdd key assetName }
  else cache

def addQualifierAddress (cache : CAssetsCache) (assetName address : StdString)
    (type : QualifierType) : CAssetsCache :=
  let cache := cache.markRootQualifier assetName address (type == .ADD_QUALIFIER)
  { cache with setNewQualifierAddress :=
      cache.setNewQualifierAddress.addOver ⟨assetName, address, type⟩ }

/-- Undoing an addition makes the tag absent, undoing a removal makes it present. -/
def removeQualifierAddress (cache : CAssetsCache) (assetName address : StdString)
    (type : QualifierType) : CAssetsCache :=
  let cache := cache.markRootQualifier assetName address (type != .ADD_QUALIFIER)
  { cache with setNewQualifierAddress :=
      cache.setNewQualifierAddress.removeOver ⟨assetName, address, type⟩ }

def addRestrictedAddress (cache : CAssetsCache) (assetName address : StdString)
    (type : RestrictedType) : CAssetsCache :=
  { cache with setNewRestrictedAddress :=
      cache.setNewRestrictedAddress.addOver ⟨assetName, address, type⟩ }

def removeRestrictedAddress (cache : CAssetsCache) (assetName address : StdString)
    (type : RestrictedType) : CAssetsCache :=
  { cache with setNewRestrictedAddress :=
      cache.setNewRestrictedAddress.removeOver ⟨assetName, address, type⟩ }

def addGlobalRestricted (cache : CAssetsCache) (assetName : StdString) (type : RestrictedType) :
    CAssetsCache :=
  { cache with setNewRestrictedGlobal := cache.setNewRestrictedGlobal.addOver ⟨assetName, type⟩ }

def removeGlobalRestricted (cache : CAssetsCache) (assetName : StdString) (type : RestrictedType) :
    CAssetsCache :=
  { cache with setNewRestrictedGlobal := cache.setNewRestrictedGlobal.removeOver ⟨assetName, type⟩ }

/-! ## Flush -/

/-- `for (auto& item : src) for (auto asset : item.second) dst[item.first].insert(asset);` -/
def mergeRootQualifiers (dst src : StdMap CAssetCacheRootQualifierChecker NameSet) :
    StdMap CAssetCacheRootQualifierChecker NameSet :=
  src.foldl (fun dst key names => names.foldl (fun dst name => insertRootQualifier dst key name) dst)
    dst

/-- `CAssetsCache::Flush`: the view's cache merged into `passets`. Both root qualifier maps of the
view go into `mapRootQualifierAddressesAdd`. -/
def CAssetsCache.flush (passets cache : CAssetsCache) : CAssetsCache :=
  { passets with
    setNewAssets := passets.setNewAssets.mergeKeep cache.setNewAssets
    mapAssetsAddressAmount :=
      StdMap.assignAll passets.mapAssetsAddressAmount cache.mapAssetsAddressAmount
    mapReissuedAssetData := StdMap.assignAll passets.mapReissuedAssetData cache.mapReissuedAssetData
    setNewOwnerAssets := passets.setNewOwnerAssets.mergeKeep cache.setNewOwnerAssets
    setNewReissue := passets.setNewReissue.mergeKeep cache.setNewReissue
    setNewTransferAssets := passets.setNewTransferAssets.mergeKeep cache.setNewTransferAssets
    vSpentAssets := passets.vSpentAssets ++ cache.vSpentAssets
    vUndoAssetAmount := passets.vUndoAssetAmount ++ cache.vUndoAssetAmount
    setNewQualifierAddress := passets.setNewQualifierAddress.mergeOver cache.setNewQualifierAddress
    setNewRestrictedAddress :=
      passets.setNewRestrictedAddress.mergeOver cache.setNewRestrictedAddress
    setNewRestrictedGlobal := passets.setNewRestrictedGlobal.mergeOver cache.setNewRestrictedGlobal
    setNewRestrictedVerifier :=
      passets.setNewRestrictedVerifier.mergeOver cache.setNewRestrictedVerifier
    mapRootQualifierAddressesAdd :=
      mergeRootQualifiers
        (mergeRootQualifiers passets.mapRootQualifierAddressesAdd cache.mapRootQualifierAddressesAdd)
        cache.mapRootQualifierAddressesRemove }

/-- The node after a view has been flushed. -/
def Globals.flush (g : Globals) (cache : CAssetsCache) : Globals :=
  { g with passets := g.passets.flush cache }

/-- `passets` itself, as the view a query through `passets` goes through. -/
def Globals.passetsView (g : Globals) (lru : LRUCaches) : View := ⟨g.passets, lru⟩

end RavenCash
