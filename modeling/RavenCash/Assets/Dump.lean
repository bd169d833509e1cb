import RavenCash.Assets.Cache

/-!
# Writing the dirty cache down

`DumpCacheToDatabase` is the list of the writes it makes, one after the other; each goes to one of the
databases, and the read cache over it is changed beside it. A crash leaves the first writes of the list.
Writes do not fail here: a database error aborts the node.
-/

set_option autoImplicit false

namespace RavenCash

/-- The databases and the read caches over them. -/
structure AssetStores where
  passetsdb : CAssetsDB
  prestricteddb : CRestrictedDB
  lru : LRUCaches

/-- One write to a database. -/
inductive StoreWrite where
  | assets (db : CAssetsDB → CAssetsDB)
      (cache : CLRUCache StdString CDatabasedAssetData → CLRUCache StdString CDatabasedAssetData)
  | verifier (name : StdString) (text : Option StdString) (cached : Bool)
  | tag (name address : StdString) (present : Bool)
  | restriction (name address : StdString) (frozen : Bool)
  | global (name : StdString) (frozen : Bool)

/-- An entry is written, or it is erased. -/
def setEntry {K V : Type} [DecidableEq K] (m : StdMap K V) (key : K) (value : Option V) : StdMap K V :=
  value.elim (m.erase key) (m.insert key)

/-- A flag is put into a read cache, or it is erased. -/
def setFlag {K : Type} [DecidableEq K] (cache : CLRUCache K Int8) (key : K) (set : Bool) : CLRUCache K Int8 :=
  if set then cache.put key 1 else cache.erase key

def StoreWrite.run [NodeCrypto] (s : AssetStores) : StoreWrite → AssetStores
  | assets db cache => { s with passetsdb := db s.passetsdb, lru.passetsCache := cache s.lru.passetsCache }
  | verifier name text cached =>
      { s with
        prestricteddb.verifier := setEntry s.prestricteddb.verifier name text
        lru.passetsVerifierCache :=
          if cached then s.lru.passetsVerifierCache else s.lru.passetsVerifierCache.erase name }
  | tag name address present =>
      { s with
        prestricteddb.addressQualifier :=
          setEntry s.prestricteddb.addressQualifier (address, name) (if present then some () else none)
        lru.passetsQualifierCache := setFlag s.lru.passetsQualifierCache (addressTagHash name address) present }
  | restriction name address frozen =>
      { s with
        prestricteddb.restrictedAddress :=
          setEntry s.prestricteddb.restrictedAddress (address, name) (if frozen then some () else none)
        lru.passetsRestrictionCache := setFlag s.lru.passetsRestrictionCache (addressTagHash name address) frozen }
  | global name frozen =>
      { s with
        prestricteddb.globalRestriction :=
          setEntry s.prestricteddb.globalRestriction name (if frozen then some () else none)
        lru.passetsGlobalRestrictionCache := setFlag s.lru.passetsGlobalRestrictionCache name frozen }

/-- `WriteAssetAddressQuantity` and `WriteAddressAssetQuantity`, or `Erase…` of both. -/
def setQuantity (name address : StdString) (nAmount : Option CAmount) : List StoreWrite :=
  [.assets (fun db => { db with assetAddressQuantity := setEntry db.assetAddressQuantity (name, address) nAmount }) id,
    .assets (fun db => { db with addressAssetQuantity := setEntry db.addressAssetQuantity (address, name) nAmount }) id]

/-- `WriteAssetData` -/
def writeAssetData (data : CDatabasedAssetData) (db : CAssetsDB) : CAssetsDB :=
  { db with assetData := db.assetData.overwrite data }

/-! ## The dump -/

namespace CAssetsCache

variable (c : CAssetsCache)

/-- The amount of a pair that the cache has. -/
def amountOf (name address : StdString) : Option CAmount := c.mapAssetsAddressAmount.lookup (name, address)

/-- A known amount is written. -/
def saveAmount (name address : StdString) : List StoreWrite :=
  (c.amountOf name address).elim [] fun nAmount => setQuantity name address (some nAmount)

/-- A known amount is written if it is positive. -/
def savePositive (name address : StdString) : List StoreWrite :=
  (c.amountOf name address).elim [] fun nAmount =>
    if 0 < nAmount then setQuantity name address (some nAmount) else []

/-- A known amount is written, and zero erased. -/
def saveOrErase (name address : StdString) : List StoreWrite :=
  (c.amountOf name address).elim [] fun nAmount =>
    setQuantity name address (if nAmount = 0 then none else some nAmount)

/-- Issued assets; the read cache of the verifiers is not told that a verifier is erased. -/
def dumpAssets (fAssetIndex : Bool) : List StoreWrite :=
  c.setNewAssets.toRemove.toList.flatMap (fun a =>
    [.assets (fun db => { db with assetData := db.assetData.erase a.name }) (·.erase a.name),
      .verifier a.name none true] ++ if fAssetIndex then setQuantity a.name a.address none else []) ++
  c.setNewAssets.toAdd.toList.flatMap (fun a =>
    let data : CDatabasedAssetData := ⟨a.asset, a.blockHeight, a.blockHash⟩
    .assets (writeAssetData data) (·.put a.name data) ::
      if fAssetIndex then setQuantity a.name a.address (some a.asset.nAmount) else [])

/-- Owner tokens and transfers, with the asset index. -/
def dumpBalances : List StoreWrite :=
  c.setNewOwnerAssets.toRemove.toList.flatMap (fun o => setQuantity o.assetName o.address none) ++
  c.setNewOwnerAssets.toAdd.toList.flatMap (fun o => c.savePositive o.assetName o.address) ++
  c.setNewTransferAssets.toRemove.toList.flatMap (fun t => c.saveOrErase t.transfer.strName t.address) ++
  c.setNewTransferAssets.toAdd.toList.flatMap (fun t => c.saveAmount t.transfer.strName t.address)

/-- The reissued data of an asset. -/
def saveReissued (r : CAssetCacheReissueAsset) (amounts : List StoreWrite) : List StoreWrite :=
  (c.mapReissuedAssetData.lookup r.reissue.strName).elim [] fun asset =>
    .assets (writeAssetData ⟨asset, r.blockHeight, r.blockHash⟩) (·.erase r.reissue.strName) :: amounts

/-- Reissues; those of an asset whose issue is undone are skipped. -/
def dumpReissues (fAssetIndex : Bool) : List StoreWrite :=
  c.setNewReissue.toAdd.toList.flatMap (fun r =>
    c.saveReissued r (if fAssetIndex then c.savePositive r.reissue.strName r.address else [])) ++
  c.setNewReissue.toRemove.toList.flatMap (fun r =>
    if c.setNewAssets.toRemove.contains r.reissue.strName then []
    else c.saveReissued r (if fAssetIndex then c.saveOrErase r.reissue.strName r.address else []))

def dumpVerifiers : List StoreWrite :=
  c.setNewRestrictedVerifier.toAdd.toList.map (fun a => .verifier a.assetName (some a.verifier) false) ++
  c.setNewRestrictedVerifier.toRemove.toList.map (fun a =>
    .verifier a.assetName (if a.fUndoingRessiue then some a.verifier else none) false)

def dumpTags : List StoreWrite :=
  c.setNewQualifierAddress.toAdd.toList.map (fun a => .tag a.assetName a.address (a.type == .ADD_QUALIFIER)) ++
  c.setNewQualifierAddress.toRemove.toList.map (fun a =>
    .tag a.assetName a.address (a.type == .REMOVE_QUALIFIER))

/-- What a command of an address says; the global ones say nothing there. -/
def frozenBy : RestrictedType → Option Bool
  | .FREEZE_ADDRESS => some true
  | .UNFREEZE_ADDRESS => some false
  | _ => none

def frozenGloballyBy : RestrictedType → Option Bool
  | .GLOBAL_FREEZE => some true
  | .GLOBAL_UNFREEZE => some false
  | _ => none

def dumpRestrictions : List StoreWrite :=
  c.setNewRestrictedAddress.toAdd.toList.flatMap (fun a =>
    (frozenBy a.type).toList.map (.restriction a.assetName a.address)) ++
  c.setNewRestrictedAddress.toRemove.toList.flatMap (fun a =>
    (frozenBy a.type).toList.map fun frozen => .restriction a.assetName a.address (!frozen)) ++
  c.setNewRestrictedGlobal.toAdd.toList.flatMap (fun a =>
    (frozenGloballyBy a.type).toList.map (.global a.assetName)) ++
  c.setNewRestrictedGlobal.toRemove.toList.flatMap (fun a =>
    (frozenGloballyBy a.type).toList.map fun frozen => .global a.assetName (!frozen))

def dumpSpends : List StoreWrite :=
  c.vUndoAssetAmount.flatMap (fun u => c.saveAmount u.assetName u.address) ++
  c.vSpentAssets.flatMap (fun s => c.saveOrErase s.assetName s.address)

/-- **`DumpCacheToDatabase`**, as the list of its writes. -/
def dumpCacheToDatabase (fAssetIndex : Bool) : List StoreWrite :=
  c.dumpAssets fAssetIndex ++ (if fAssetIndex then c.dumpBalances else []) ++ c.dumpReissues fAssetIndex ++
    c.dumpVerifiers ++ c.dumpTags ++ c.dumpRestrictions ++ if fAssetIndex then c.dumpSpends else []

end CAssetsCache

/-- The stores after writes. -/
def AssetStores.after [NodeCrypto] (s : AssetStores) (writes : List StoreWrite) : AssetStores :=
  writes.foldl StoreWrite.run s

/-- The databases of a node with its read caches. -/
def Globals.stores (g : Globals) (lru : LRUCaches) : AssetStores := ⟨g.passetsdb, g.prestricteddb, lru⟩

/-- A node over other databases. -/
def Globals.over (g : Globals) (s : AssetStores) : Globals :=
  { g with passetsdb := s.passetsdb, prestricteddb := s.prestricteddb }

end RavenCash
