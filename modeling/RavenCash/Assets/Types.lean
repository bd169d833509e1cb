import RavenCash.Basic.Primitives
import RavenCash.Lib.Pending
import RavenCash.Assets.LRUCache

/-!
# The data of the asset layer

The asset records of `assets/assettypes.h`, the dirty cache `CAssetsCache` of `assets/assets.h`
and the two asset databases. A pair of sets `setNew…ToAdd`, `setNew…ToRemove` of the source is one
`Pending` field whose sets are `toAdd` and `toRemove`; each is ordered by the key its elements'
`operator<` compares.

A database is the typed contents of its key-value store. `Globals` is what a view is layered over
and does not change, `LRUCaches` is what its queries may change. The pointers behind them
(`passets`, `passetsdb`, `passetsCache`, …) are set, as `init.cpp` leaves them.
-/

set_option autoImplicit false

namespace RavenCash

/-! ## Asset records -/

@[ext] structure CNewAsset where
  strName : StdString := []
  nAmount : CAmount := 0
  units : Int8 := 8
  nReissuable : Int8 := 0
  nHasIPFS : Int8 := 0
  strIPFSHash : StdString := []
deriving DecidableEq, Repr

structure CDatabasedAssetData where
  asset : CNewAsset
  nHeight : Int
  blockHash : UInt256
deriving DecidableEq, Repr

structure CAssetTransfer where
  strName : StdString := []
  nAmount : CAmount := 0
  message : StdString := []
  nExpireTime : Int64 := 0
deriving DecidableEq, Repr

structure CReissueAsset where
  strName : StdString := []
  nAmount : CAmount := 0
  nUnits : Int8 := 0
  nReissuable : Int8 := 1
  strIPFSHash : StdString := []
deriving DecidableEq, Repr

structure CNullAssetTxData where
  asset_name : StdString := []
  flag : Int8 := -1
deriving DecidableEq, Repr

structure CNullAssetTxVerifierString where
  verifier_string : StdString := []
deriving DecidableEq, Repr

inductive QualifierType where
  | REMOVE_QUALIFIER
  | ADD_QUALIFIER
deriving DecidableEq, Repr

inductive RestrictedType where
  | UNFREEZE_ADDRESS
  | FREEZE_ADDRESS
  | GLOBAL_UNFREEZE
  | GLOBAL_FREEZE
deriving DecidableEq, Repr

/-- Undo data of one reissue, as a block stores it. -/
structure CBlockAssetUndo where
  fChangedIPFS : Bool := false
  fChangedUnits : Bool := false
  strIPFS : StdString := []
  nUnits : Int32 := 0
  fChangedVerifierString : Bool := false
  verifierString : StdString := []
deriving DecidableEq, Repr

/-! ## Elements of the dirty cache -/

structure CAssetCacheNewAsset where
  asset : CNewAsset
  address : StdString
  blockHeight : Int
  blockHash : UInt256
deriving DecidableEq, Repr

def CAssetCacheNewAsset.name (a : CAssetCacheNewAsset) : StdString := a.asset.strName

@[simp] theorem CAssetCacheNewAsset.name_mk (asset : CNewAsset) (address : StdString)
    (blockHeight : Int) (blockHash : UInt256) :
    CAssetCacheNewAsset.name ⟨asset, address, blockHeight, blockHash⟩ = asset.strName := rfl

structure CAssetCacheReissueAsset where
  reissue : CReissueAsset
  address : StdString
  out : COutPoint
  blockHeight : Int
  blockHash : UInt256
deriving DecidableEq, Repr

structure CAssetCacheNewTransfer where
  transfer : CAssetTransfer
  address : StdString
  out : COutPoint
deriving DecidableEq, Repr

structure CAssetCacheNewOwner where
  assetName : StdString
  address : StdString
deriving DecidableEq, Repr

structure CAssetCacheUndoAssetAmount where
  assetName : StdString
  address : StdString
  nAmount : CAmount
deriving DecidableEq, Repr

structure CAssetCacheSpendAsset where
  assetName : StdString
  address : StdString
  nAmount : CAmount
deriving DecidableEq, Repr

structure CAssetCacheQualifierAddress where
  assetName : StdString
  address : StdString
  type : QualifierType
deriving DecidableEq, Repr

def CAssetCacheQualifierAddress.key (a : CAssetCacheQualifierAddress) : StdString × StdString :=
  (a.assetName, a.address)

structure CAssetCacheRootQualifierChecker where
  rootAssetName : StdString
  address : StdString
deriving DecidableEq, Repr

structure CAssetCacheRestrictedAddress where
  assetName : StdString
  address : StdString
  type : RestrictedType
deriving DecidableEq, Repr

def CAssetCacheRestrictedAddress.key (a : CAssetCacheRestrictedAddress) : StdString × StdString :=
  (a.assetName, a.address)

structure CAssetCacheRestrictedGlobal where
  assetName : StdString
  type : RestrictedType
deriving DecidableEq, Repr

structure CAssetCacheRestrictedVerifiers where
  assetName : StdString
  verifier : StdString
  fUndoingRessiue : Bool := false
deriving DecidableEq, Repr

/-- `GetHash()` of a qualifier or restriction at an address. -/
def addressTagHash [NodeCrypto] (assetName address : StdString) : UInt256 :=
  NodeCrypto.hash (assetName ++ address)

/-! ## The dirty cache -/

/-- A `std::set<std::string>`. -/
abbrev NameSet := StdSet (id : StdString → StdString)

/-- **The dirty asset cache.** -/
structure CAssetsCache where
  mapAssetsAddressAmount : StdMap (StdString × StdString) CAmount := ∅
  mapReissuedAssetData : StdMap StdString CNewAsset := ∅
  vUndoAssetAmount : List CAssetCacheUndoAssetAmount := []
  vSpentAssets : List CAssetCacheSpendAsset := []
  setNewAssets : Pending CAssetCacheNewAsset.name := ∅
  setNewReissue : Pending CAssetCacheReissueAsset.out := ∅
  setNewOwnerAssets : Pending CAssetCacheNewOwner.assetName := ∅
  setNewTransferAssets : Pending CAssetCacheNewTransfer.out := ∅
  setNewQualifierAddress : Pending CAssetCacheQualifierAddress.key := ∅
  setNewRestrictedAddress : Pending CAssetCacheRestrictedAddress.key := ∅
  setNewRestrictedGlobal : Pending CAssetCacheRestrictedGlobal.assetName := ∅
  setNewRestrictedVerifier : Pending CAssetCacheRestrictedVerifiers.assetName := ∅
  mapRootQualifierAddressesAdd : StdMap CAssetCacheRootQualifierChecker NameSet := ∅
  mapRootQualifierAddressesRemove : StdMap CAssetCacheRootQualifierChecker NameSet := ∅

/-! ## Databases -/

def CDatabasedAssetData.name (d : CDatabasedAssetData) : StdString := d.asset.strName

/-- The asset database: asset data by name, quantities by asset and address and by address and
asset, undo data by block. -/
structure CAssetsDB where
  assetData : StdSet CDatabasedAssetData.name := ∅
  assetAddressQuantity : StdMap (StdString × StdString) CAmount := ∅
  blockUndoAssetData : StdMap UInt256 (List (StdString × CBlockAssetUndo)) := ∅
  addressAssetQuantity : StdMap (StdString × StdString) CAmount := ∅

/-- `ReadBlockUndoAssetData`: a block without an entry reads as the empty list. -/
def CAssetsDB.readBlockUndoAssetData (db : CAssetsDB) (blockhash : UInt256) :
    List (StdString × CBlockAssetUndo) :=
  (db.blockUndoAssetData.lookup blockhash).getD []

/-- The restricted database: verifier strings, tagged addresses, frozen addresses and assets. A tag
is stored under `(address, tag)`, a freeze under `(address, asset)`. -/
structure CRestrictedDB where
  verifier : StdMap StdString StdString := ∅
  addressQualifier : StdMap (StdString × StdString) Unit := ∅
  restrictedAddress : StdMap (StdString × StdString) Unit := ∅
  globalRestriction : StdMap StdString Unit := ∅

/-- `CheckForAddressRootQualifier`: some tag at the address is the qualifier or a sub qualifier of
it. Every such tag comes after the seek position, being at least as long. -/
def CRestrictedDB.checkForAddressRootQualifier (db : CRestrictedDB) (address qualifier : StdString) :
    Bool :=
  db.addressQualifier.keys.any (fun k =>
    k.1 == address && (k.2 == qualifier || (qualifier ++ bytes "/").isPrefixOf k.2))

/-! ## The node around a view -/

/-- What a view of the asset state is layered over: `passets`, the databases, the index flags. -/
structure Globals where
  passets : CAssetsCache := {}
  passetsdb : CAssetsDB := {}
  prestricteddb : CRestrictedDB := {}
  fAssetIndex : Bool := true
  fReindex : Bool := false

/-- The read caches over the databases. -/
structure LRUCaches where
  passetsCache : CLRUCache StdString CDatabasedAssetData := { maxSize := 2500 }
  passetsVerifierCache : CLRUCache StdString CNullAssetTxVerifierString := { maxSize := 2500 }
  passetsQualifierCache : CLRUCache UInt256 Int8 := { maxSize := 2500 }
  passetsRestrictionCache : CLRUCache UInt256 Int8 := { maxSize := 2500 }
  passetsGlobalRestrictionCache : CLRUCache StdString Int8 := { maxSize := 2500 }

/-- A view under construction: the dirty cache and the read caches its queries fill. -/
structure View where
  cache : CAssetsCache := {}
  lru : LRUCaches := {}

def OWNER_ASSET_AMOUNT : CAmount := 1 * COIN

def UNIQUE_ASSET_AMOUNT : CAmount := 1 * COIN

end RavenCash
