import RavenCash.Assets.CacheRun
import RavenCash.Coins.Coin
import RavenCash.Consensus.Issue

/-!
# Spending and adding coins

`SpendCoin` with `TrySpendCoin`, `AddCoins` and `UpdateCoins`, and their undo `UndoAssetCoin` and
`ApplyTxInUndo`, on a coins view and a view of the asset state. What `AddCoins` does to the asset
cache is given as the list of cache operations it calls.

The asset cache of the callers is set. An operation on the asset cache that fails is only logged, so
its answer is not used. What a reader that fails leaves in its result is the default value. The
subscription to message channels is left out.
-/

set_option autoImplicit false

namespace RavenCash

/-- The coins and the view of the asset state that a block is applied to. -/
structure ChainState where
  view : CCoinsView := ∅
  assets : View := {}

section

variable [NodeCrypto]

/-! ## Spending -/

/-- Name, address and amount of the asset in a script, as `TrySpendCoin` and `UndoAssetCoin` read
them. -/
def scriptAsset (s : CScript) : Option (StdString × StdString × CAmount) :=
  match s.assetScript with
  | none => none
  | some ⟨.TX_NEW_ASSET, false, _⟩ =>
      (assetFromScript s).map (fun (asset, address) => (asset.strName, address, asset.nAmount))
  | some ⟨.TX_TRANSFER_ASSET, _, _⟩ =>
      (transferAssetFromScript s).map
        (fun (transfer, address) => (transfer.strName, address, transfer.nAmount))
  | some ⟨.TX_NEW_ASSET, true, _⟩ =>
      (ownerAssetFromScript s).map (fun (assetName, address) => (assetName, address, OWNER_ASSET_AMOUNT))
  | some ⟨.TX_REISSUE_ASSET, _, _⟩ =>
      (reissueAssetFromScript s).map
        (fun (reissue, address) => (reissue.strName, address, reissue.nAmount))
  | some _ => none

/-- Takes an amount from the balance of the address, which does not go below zero. -/
def CAssetsCache.spendAmount (cache : CAssetsCache) (g : Globals) (assetName address : StdString)
    (nAmount : CAmount) : CAssetsCache :=
  let (found, cache) := getBestAssetAddressAmount g cache assetName address
  if found then
    let left := cache.amountAt assetName address - nAmount
    let cache := cache.assignAmount g assetName address (if left < 0 then 0 else left)
    { cache with vSpentAssets := cache.vSpentAssets ++ [⟨assetName, address, nAmount⟩] }
  else cache

def trySpendCoin (g : Globals) (cache : CAssetsCache) (txOut : CTxOut) : Bool × CAssetsCache :=
  if !txOut.scriptPubKey.isAssetScript then (true, cache)
  else
    match scriptAsset txOut.scriptPubKey with
    | none => (false, cache)
    | some (assetName, address, nAmount) =>
        if address = [] ∨ assetName = [] then (false, cache)
        else if g.fAssetIndex && decide (0 < nAmount) then
          (true, cache.spendAmount g assetName address nAmount)
        else (true, cache)

/-- `SpendCoin` on the map of unspent coins: its `bool` and the coin it moves out. The coin is gone
even where `TrySpendCoin` fails. The entries that stay in the cache once they are cleared are in
`CCoinsViewCache.spendCoin`, which agrees with this on unspent coins. -/
def spendCoin (g : Globals) (s : ChainState) (outpoint : COutPoint) :
    Bool × Option Coin × ChainState :=
  match s.view.lookup outpoint with
  | none => (false, none, s)
  | some coin =>
      let (spent, cache) := trySpendCoin g s.assets.cache coin.out
      (spent, some coin, ⟨s.view.erase outpoint, { s.assets with cache := cache }⟩)

/-! ## Adding -/

/-- The first output that carries a verifier string. -/
def CTransaction.verifierOut (tx : CTransaction) : Option CTxOut :=
  tx.vout.find? (fun out => out.scriptPubKey.isNullAssetVerifierTxDataScript)

/-- The operations of `AddCoins` for the assets a transaction issues. -/
def CTransaction.issueOps (tx : CTransaction) (nHeight : Int) (blockHash : UInt256) : List CacheOp :=
  let addNew (found : Option (CNewAsset × StdString)) : CacheOp :=
    let (asset, strAddress) := found.getD ({}, [])
    .addNewAsset asset strAddress nHeight blockHash
  match tx.issueKind with
  | .newAsset =>
      let (ownerName, ownerAddress) := (ownerFromTransaction tx).getD ([], [])
      [addNew (assetFromTransaction tx), .addOwnerAsset ownerName ownerAddress]
  | .newUniqueAsset =>
      (tx.vout.filter (fun out => isScriptNewUniqueAsset out.scriptPubKey)).map
        (fun out => addNew (assetFromScript out.scriptPubKey))
  | .newMsgChannelAsset => [addNew (msgChannelAssetFromTransaction tx)]
  | .newQualifierAsset => [addNew (qualifierAssetFromTransaction tx)]
  | .newRestrictedAsset =>
      let (asset, _) := (restrictedAssetFromTransaction tx).getD ({}, [])
      addNew (restrictedAssetFromTransaction tx) ::
        tx.verifierOut.toList.map (fun out =>
          let verifier := (assetNullVerifierDataFromScript out.scriptPubKey).getD {}
          .addRestrictedVerifier asset.strName verifier.verifier_string)
  | .reissueAsset | .none => []

/-- The undo data of a reissue: what it changes, and the old values. The old verifier string is not
stored. -/
def reissueUndo (reissue : CReissueAsset) (asset : CNewAsset) (fVerifierChanged : Bool) :
    Option (StdString × CBlockAssetUndo) :=
  let fIPFSChanged := !reissue.strIPFSHash.isEmpty
  let fUnitsChanged := reissue.nUnits != -1
  if fIPFSChanged || fUnitsChanged || fVerifierChanged then
    some (reissue.strName, {
      fChangedIPFS := fIPFSChanged
      fChangedUnits := fUnitsChanged
      strIPFS := asset.strIPFSHash
      nUnits := asset.units.toInt32 })
  else none

/-- The reissue branch of `AddCoins`, with the undo data. -/
def applyReissue (g : Globals) (v : View) (tx : CTransaction) :
    View × Option (StdString × CBlockAssetUndo) :=
  let (reissue, strAddress) := (reissueAssetFromTransaction tx).getD ({}, [])
  -- the asset before it is changed
  let (found, lru) := getAssetMetaDataIfExists g v reissue.strName
  let asset := (found.map Prod.fst).getD {}
  let v := (addReissueAsset g { v with lru := lru } reissue strAddress
    ⟨tx.hash, UInt32.ofNat (tx.vout.length - 1)⟩).2
  let verifier := if assetTypeOrInvalid asset.strName = .RESTRICTED then
      tx.verifierOut.bind (fun out => assetNullVerifierDataFromScript out.scriptPubKey)
    else none
  match verifier with
  | some verifier =>
      -- the old verifier string is looked up, and not used
      let (_, lru) := getAssetVerifierStringIfExists g v asset.strName
      (⟨addRestrictedVerifier v.cache asset.strName verifier.verifier_string, lru⟩,
        reissueUndo reissue asset true)
  | none => (v, reissueUndo reissue asset false)

/-- The operations of `AddCoins` for one output. -/
def outputOps (out : COutPoint) (txout : CTxOut) : List CacheOp :=
  let transfers := match getAssetData txout.scriptPubKey with
    | some data =>
        if data.type = .TX_TRANSFER_ASSET ∧ 0 < data.nAmount then
          [CacheOp.addTransferAsset ⟨data.assetName, data.nAmount, data.message, data.expireTime⟩
            (NodeCrypto.encodeDestination data.destination) out]
        else []
    | none => []
  let nulls :=
    if txout.scriptPubKey.isNullAssetTxDataScript then
      let (data, address) := (assetNullDataFromScript txout.scriptPubKey).getD ({}, [])
      match assetTypeOrInvalid data.asset_name with
      | .RESTRICTED => [CacheOp.addRestrictedAddress data.asset_name address
          (if data.flag ≠ 0 then .FREEZE_ADDRESS else .UNFREEZE_ADDRESS)]
      | .QUALIFIER | .SUB_QUALIFIER => [CacheOp.addQualifierAddress data.asset_name address
          (if data.flag ≠ 0 then .ADD_QUALIFIER else .REMOVE_QUALIFIER)]
      | _ => []
    else if txout.scriptPubKey.isNullGlobalRestrictionAssetTxDataScript then
      let data := (globalAssetNullDataFromScript txout.scriptPubKey).getD {}
      [CacheOp.addGlobalRestricted data.asset_name
        (if data.flag ≠ 0 then .GLOBAL_FREEZE else .GLOBAL_UNFREEZE)]
    else []
  transfers ++ nulls

/-- The loop of `AddCoins` over the outputs from position `i` on. -/
def addOutputs (g : Globals) (tx : CTransaction) (nHeight : Int) (check : Bool) :
    Nat → List CTxOut → ChainState → Option ChainState
  | _, [], s => some s
  | i, txout :: vout, s => do
      let out : COutPoint := ⟨tx.hash, UInt32.ofNat i⟩
      -- a coinbase may overwrite an earlier one of the same hash
      let overwrite := if check then s.view.haveCoin out else tx.isCoinBase
      let view ← s.view.addCoin out ⟨txout, nHeight, tx.isCoinBase⟩ overwrite
      addOutputs g tx nHeight check (i + 1) vout ⟨view, runOps g s.assets (outputOps out txout)⟩

/-- The part of `AddCoins` before the loop. -/
def applyIssue (g : Globals) (v : View) (tx : CTransaction) (nHeight : Int) (blockHash : UInt256) :
    View × Option (StdString × CBlockAssetUndo) :=
  if tx.issueKind = .reissueAsset then applyReissue g v tx
  else (runOps g v (tx.issueOps nHeight blockHash), none)

/-- `AddCoins`, with the undo data of a reissue. -/
def addCoins (g : Globals) (s : ChainState) (tx : CTransaction) (nHeight : Int)
    (blockHash : UInt256) (check : Bool) :
    Option (ChainState × Option (StdString × CBlockAssetUndo)) := do
  let (assets, undoAssetData) := applyIssue g s.assets tx nHeight blockHash
  let s ← addOutputs g tx nHeight check 0 tx.vout { s with assets := assets }
  return (s, undoAssetData)

/-! ## `UpdateCoins` -/

/-- `CTxUndo`: the coins a transaction has spent. -/
abbrev CTxUndo := List Coin

/-- The loop of `UpdateCoins` over the inputs; a coin that cannot be spent stops the node. -/
def spendInputs (g : Globals) : List CTxIn → ChainState → Option (CTxUndo × ChainState)
  | [], s => some ([], s)
  | txin :: vin, s =>
      match spendCoin g s txin.prevout with
      | (true, some coin, s) => do
          let (vprevout, s) ← spendInputs g vin s
          return (coin :: vprevout, s)
      | _ => none

/-- `UpdateCoins`; `none` where the source throws or asserts. -/
def updateCoins (g : Globals) (s : ChainState) (tx : CTransaction) (nHeight : Int)
    (blockHash : UInt256) :
    Option (CTxUndo × ChainState × Option (StdString × CBlockAssetUndo)) := do
  let (txundo, s) ← if tx.isCoinBase then some ([], s) else spendInputs g tx.vin s
  let (s, undoAssetData) ← addCoins g s tx nHeight blockHash false
  return (txundo, s, undoAssetData)

/-! ## Undoing a spend -/

/-- `UndoAssetCoin` -/
def undoAssetCoin (g : Globals) (cache : CAssetsCache) (coin : Coin) : Bool × CAssetsCache :=
  match scriptAsset coin.out.scriptPubKey with
  | none => (false, cache)
  | some (assetName, strAddress, nAmount) =>
      if assetName = [] ∨ strAddress = [] ∨ nAmount = 0 then (false, cache)
      else (true, addBackSpentAsset g cache assetName strAddress nAmount)

/-- `AccessByTxid`: an unspent coin of the transaction, all of which have the same height. -/
def CCoinsView.accessByTxid (view : CCoinsView) (txid : UInt256) : Option Coin :=
  (view.entries.find? (fun e => e.1.hash == txid)).map Sigma.snd

/-- `ApplyTxInUndo`; `none` is `DISCONNECT_FAILED`, the `Bool` says whether it was clean. -/
def applyTxInUndo (g : Globals) (s : ChainState) (undo : Coin) (out : COutPoint) :
    Option (Bool × ChainState) := do
  let fClean := !s.view.haveCoin out
  -- undo data without height takes it from another output of the transaction
  let coin ← if undo.nHeight = 0 then
      (s.view.accessByTxid out.hash).map (fun alternate =>
        { undo with nHeight := alternate.nHeight, fCoinBase := alternate.fCoinBase })
    else some undo
  let view ← s.view.addCoin out coin (!fClean)
  if undo.isAsset then
    let (added, cache) := undoAssetCoin g s.assets.cache undo
    return (fClean && added, ⟨view, { s.assets with cache := cache }⟩)
  else return (fClean, { s with view := view })

end

end RavenCash
