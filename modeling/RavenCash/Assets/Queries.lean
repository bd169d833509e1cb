import RavenCash.Assets.Types
import RavenCash.Assets.Names

/-!
# Queries on the asset state

`CheckIfAssetExists`, `GetAssetMetaDataIfExists`, `GetAssetVerifierStringIfExists`,
`CheckForAddressQualifier`, `CheckForAddressRestriction`, `CheckForGlobalRestriction` and
`GetBestAssetAddressAmount`. A query through a view asks the dirty sets of the view and of `passets`,
then a read cache, then a database; what it reads from a database goes into the read cache, so it
returns the read caches beside its answer.
-/

set_option autoImplicit false

namespace RavenCash

/-! ## Assets -/

def checkIfAssetExists (g : Globals) (v : View) (name : StdString)
    (fForceDuplicateCheck : Bool := true) : Bool × LRUCaches :=
  -- while reindexing it is not known which assets exist
  if g.fReindex then (true, v.lru)
  else if v.cache.setNewAssets.toRemove.contains name then (false, v.lru)
  else if g.passets.setNewAssets.toRemove.contains name then (false, v.lru)
  else if v.cache.setNewAssets.toAdd.contains name && fForceDuplicateCheck then (true, v.lru)
  else if g.passets.setNewAssets.toAdd.contains name && fForceDuplicateCheck then (true, v.lru)
  else if v.lru.passetsCache.contains name then (fForceDuplicateCheck, v.lru)
  else
    match g.passetsdb.assetData.find? name with
    | some data =>
        (fForceDuplicateCheck,
          { v.lru with passetsCache := v.lru.passetsCache.put data.asset.strName data })
    | none => (false, v.lru)

/-- The asset a lookup finds, with its height and block hash when the layer that answers has them:
the reissued data has not. -/
abbrev AssetMetaData := CNewAsset × Option (Int × UInt256)

def getAssetMetaDataIfExists (g : Globals) (v : View) (name : StdString) :
    Option AssetMetaData × LRUCaches :=
  match v.cache.mapReissuedAssetData.lookup name with
  | some asset => (some (asset, none), v.lru)
  | none =>
  match g.passets.mapReissuedAssetData.lookup name with
  | some asset => (some (asset, none), v.lru)
  | none =>
  match Pending.layered false v.cache.setNewAssets g.passets.setNewAssets name with
  | some (.removed _) => (none, v.lru)
  | some (.added a) => (some (a.asset, some (a.blockHeight, a.blockHash)), v.lru)
  | none =>
  match v.lru.passetsCache.get? name with
  | some (data, passetsCache) =>
      (some (data.asset, some (data.nHeight, data.blockHash)),
        { v.lru with passetsCache := passetsCache })
  | none =>
  match g.passetsdb.assetData.find? name with
  | some data =>
      (some (data.asset, some (data.nHeight, data.blockHash)),
        { v.lru with passetsCache := v.lru.passetsCache.put data.asset.strName data })
  | none => (none, v.lru)

/-! ## Verifier strings -/

def getAssetVerifierStringIfExists (g : Globals) (v : View) (name : StdString)
    (fSkipTempCache : Bool := false) : Option CNullAssetTxVerifierString × LRUCaches :=
  match Pending.layered fSkipTempCache v.cache.setNewRestrictedVerifier
    g.passets.setNewRestrictedVerifier name with
  | some (.removed a) => (if a.fUndoingRessiue then some ⟨a.verifier⟩ else none, v.lru)
  | some (.added a) => (some ⟨a.verifier⟩, v.lru)
  | none =>
  match v.lru.passetsVerifierCache.get? name with
  | some (verifier, passetsVerifierCache) =>
      (some verifier, { v.lru with passetsVerifierCache := passetsVerifierCache })
  | none =>
  match g.prestricteddb.verifier.lookup name with
  | some verifier =>
      (some ⟨verifier⟩,
        { v.lru with passetsVerifierCache := v.lru.passetsVerifierCache.put name ⟨verifier⟩ })
  | none => (none, v.lru)

/-! ## Qualifiers and restrictions -/

section

variable [NodeCrypto]

/-- `map.count(key) && map[key].size()` -/
def hasRootQualifier (m : StdMap CAssetCacheRootQualifierChecker NameSet)
    (key : CAssetCacheRootQualifierChecker) : Bool :=
  match m.lookup key with
  | some names => !names.toList.isEmpty
  | none => false

def checkForAddressQualifier (g : Globals) (v : View) (qualifier_name address : StdString)
    (fSkipTempCache : Bool := false) : Bool × LRUCaches :=
  match Pending.layered fSkipTempCache v.cache.setNewQualifierAddress
    g.passets.setNewQualifierAddress (qualifier_name, address) with
  | some (.removed a) => (a.type == .REMOVE_QUALIFIER, v.lru)
  | some (.added a) => (a.type == .ADD_QUALIFIER, v.lru)
  | none =>
  if !fSkipTempCache &&
      hasRootQualifier v.cache.mapRootQualifierAddressesAdd ⟨qualifier_name, address⟩ then
    (true, v.lru)
  else if hasRootQualifier g.passets.mapRootQualifierAddressesAdd ⟨qualifier_name, address⟩ then
    (true, v.lru)
  else if v.lru.passetsQualifierCache.contains (addressTagHash qualifier_name address) then
    (true, v.lru)
  else if (g.prestricteddb.addressQualifier.lookup (address, qualifier_name)).isSome then
    (true, { v.lru with passetsQualifierCache :=
      v.lru.passetsQualifierCache.put (addressTagHash qualifier_name address) 1 })
  else (g.prestricteddb.checkForAddressRootQualifier address qualifier_name, v.lru)

def checkForAddressRestriction (g : Globals) (v : View) (restricted_name address : StdString)
    (fSkipTempCache : Bool := false) : Bool × LRUCaches :=
  match Pending.layered fSkipTempCache v.cache.setNewRestrictedAddress
    g.passets.setNewRestrictedAddress (restricted_name, address) with
  | some (.removed a) => (a.type == .UNFREEZE_ADDRESS, v.lru)
  | some (.added a) => (a.type == .FREEZE_ADDRESS, v.lru)
  | none =>
  if v.lru.passetsRestrictionCache.contains (addressTagHash restricted_name address) then
    (true, v.lru)
  else if (g.prestricteddb.restrictedAddress.lookup (address, restricted_name)).isSome then
    (true, { v.lru with passetsRestrictionCache :=
      v.lru.passetsRestrictionCache.put (addressTagHash restricted_name address) 1 })
  else (false, v.lru)

end

def checkForGlobalRestriction (g : Globals) (v : View) (restricted_name : StdString)
    (fSkipTempCache : Bool := false) : Bool × LRUCaches :=
  match Pending.layered fSkipTempCache v.cache.setNewRestrictedGlobal
    g.passets.setNewRestrictedGlobal restricted_name with
  | some (.removed a) => (a.type == .GLOBAL_UNFREEZE, v.lru)
  | some (.added a) => (a.type == .GLOBAL_FREEZE, v.lru)
  | none =>
  if v.lru.passetsGlobalRestrictionCache.contains restricted_name then (true, v.lru)
  else if (g.prestricteddb.globalRestriction.lookup restricted_name).isSome then
    (true, { v.lru with passetsGlobalRestrictionCache :=
      v.lru.passetsGlobalRestrictionCache.put restricted_name 1 })
  else (false, v.lru)

/-! ## Balances -/

/-- `GetBestAssetAddressAmount(cache, assetName, address)`: whether an amount is known, and the
cache with that amount copied into its map. -/
def getBestAssetAddressAmount (g : Globals) (cache : CAssetsCache) (assetName address : StdString) :
    Bool × CAssetsCache :=
  if g.fAssetIndex then
    match cache.mapAssetsAddressAmount.lookup (assetName, address) with
    | some _ => (true, cache)
    | none =>
    match g.passets.mapAssetsAddressAmount.lookup (assetName, address) with
    | some nAmount =>
        (true, { cache with mapAssetsAddressAmount :=
          cache.mapAssetsAddressAmount.insert (assetName, address) nAmount })
    | none =>
    match g.passetsdb.assetAddressQuantity.lookup (assetName, address) with
    | some nDBAmount =>
        (true, { cache with mapAssetsAddressAmount :=
          cache.mapAssetsAddressAmount.insert (assetName, address) nDBAmount })
    | none => (false, cache)
  else (false, cache)

/-- The amount `GetBestAssetAddressAmount` leaves in the map. -/
def assetAddressAmount (g : Globals) (cache : CAssetsCache) (assetName address : StdString) :
    Option CAmount :=
  let (found, cache) := getBestAssetAddressAmount g cache assetName address
  if found then cache.mapAssetsAddressAmount.lookup (assetName, address) else none

end RavenCash
