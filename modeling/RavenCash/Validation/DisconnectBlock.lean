import RavenCash.Validation.ConnectBlock

/-!
# `DisconnectBlock`

`DisconnectBlock` on the coins and on the asset cache it is given. The transactions are undone in
reverse order: the outputs are spent, what the transaction issued, transferred and tagged is taken
out of the asset cache, and the inputs are restored from the undo data.

The outputs are spent with a copy of the asset cache, so that spending them does not change the one
that is given. The undo data of reissues is read from the asset database.

The undo data of the block has been read from its file. Special transactions, the indexes and the
messages are left out.
-/

set_option autoImplicit false

namespace RavenCash

section

variable [NodeCrypto] (g : Globals)

/-! ## Outputs -/

/-- The loop that spends the outputs from position `o` on, with `tempCache` as the asset cache of the
state. The `Bool` is `fClean`. -/
def spendOutputs (tx : CTransaction) (nHeight : Int) :
    Nat → List CTxOut → ChainState × Bool → ChainState × Bool
  | _, [], acc => acc
  | o, txout :: vout, (s, fClean) =>
      if txout.scriptPubKey.isUnspendable then spendOutputs tx nHeight (o + 1) vout (s, fClean)
      else
        let (is_spent, coin, s) := spendCoin g s ⟨tx.hash, UInt32.ofNat o⟩
        spendOutputs tx nHeight (o + 1) vout
          (s, fClean && is_spent && coin == some ⟨txout, nHeight, tx.isCoinBase⟩)

/-- The transfers among the outputs that can be spent, with their positions. -/
def CTransaction.transferOuts (tx : CTransaction) : List (CTxOut × Nat) :=
  tx.vout.zipIdx.filter (fun out =>
    !out.1.scriptPubKey.isUnspendable && (isScriptTransferAsset out.1.scriptPubKey).isSome)

/-- The unspendable outputs with null asset data that is not a verifier string. -/
def CTransaction.nullAssetOuts (tx : CTransaction) : List CTxOut :=
  tx.vout.filter (fun out => out.scriptPubKey.isUnspendable && out.scriptPubKey.isNullAsset &&
    !out.scriptPubKey.isNullAssetVerifierTxDataScript)

/-- The last unspendable output with a verifier string. -/
def CTransaction.lastVerifierOut (tx : CTransaction) : Option CTxOut :=
  (tx.vout.filter (fun out => out.scriptPubKey.isUnspendable &&
    out.scriptPubKey.isNullAsset && out.scriptPubKey.isNullAssetVerifierTxDataScript)).getLast?

/-! ## Undoing what the outputs did to the asset cache -/

/-- An operation whose failure is `DISCONNECT_FAILED`. -/
def CacheOp.runOrFail (op : CacheOp) (v : View) : Option View :=
  match op.run g v with
  | (true, v) => some v
  | (false, _) => none

/-- An operation that is only made for an asset that `ContainsAsset` finds. -/
def undoIfContained (name : StdString) (op : CacheOp) (v : View) : Option View :=
  let (found, lru) := checkIfAssetExists g v name
  let v := { v with lru := lru }
  if found then op.runOrFail g v else some v

/-- `RemoveNewAsset` for an asset that was read from the transaction. -/
def undoNewAsset (found : Option (CNewAsset × StdString)) (v : View) : Option View := do
  let (asset, strAddress) ← found
  undoIfContained g asset.strName (.removeNewAsset asset strAddress) v

/-- Undoes what the transaction issues. -/
def undoIssue (vUndoData : List (StdString × CBlockAssetUndo)) (tx : CTransaction) (v : View) :
    Option View :=
  match tx.issueKind with
  | .newAsset => do
      let v ← undoNewAsset g (assetFromTransaction tx) v
      let (ownerName, ownerAddress) ← ownerFromTransaction tx
      (CacheOp.removeOwnerAsset ownerName ownerAddress).runOrFail g v
  | .reissueAsset => do
      let (reissue, strAddress) ← reissueAssetFromTransaction tx
      undoIfContained g reissue.strName (.removeReissueAsset reissue strAddress
        ⟨tx.hash, UInt32.ofNat (tx.vout.length - 1)⟩ vUndoData) v
  | .newUniqueAsset =>
      (tx.vout.filter (fun out => isScriptNewUniqueAsset out.scriptPubKey)).foldlM
        (fun v out => undoNewAsset g (assetFromScript out.scriptPubKey) v) v
  | .newMsgChannelAsset => undoNewAsset g (msgChannelAssetFromTransaction tx) v
  | .newQualifierAsset => undoNewAsset g (qualifierAssetFromTransaction tx) v
  | .newRestrictedAsset => do
      let v ← undoNewAsset g (restrictedAssetFromTransaction tx) v
      let (asset, _) ← restrictedAssetFromTransaction tx
      let out ← tx.lastVerifierOut
      let verifier ← assetNullVerifierDataFromScript out.scriptPubKey
      (CacheOp.removeRestrictedVerifier asset.strName verifier.verifier_string false).runOrFail g v
  | .none => some v

/-- `RemoveTransfer` for each transfer. -/
def undoTransfers (tx : CTransaction) (v : View) : Option View :=
  tx.transferOuts.foldlM (fun v out => do
    let (transfer, strAddress) ← transferAssetFromScript out.1.scriptPubKey
    (CacheOp.removeTransfer transfer strAddress ⟨tx.hash, UInt32.ofNat out.2⟩).runOrFail g v) v

/-- Takes back what a null asset output did. -/
def undoNullAsset (v : View) (out : CTxOut) : Option View :=
  if out.scriptPubKey.isNullAssetTxDataScript then do
    let (data, address) ← assetNullDataFromScript out.scriptPubKey
    match assetTypeOrInvalid data.asset_name with
    | .QUALIFIER | .SUB_QUALIFIER =>
        (CacheOp.removeQualifierAddress data.asset_name address
          (if data.flag ≠ 0 then .ADD_QUALIFIER else .REMOVE_QUALIFIER)).runOrFail g v
    | .RESTRICTED =>
        (CacheOp.removeRestrictedAddress data.asset_name address
          (if data.flag ≠ 0 then .FREEZE_ADDRESS else .UNFREEZE_ADDRESS)).runOrFail g v
    | _ => some v
  else if out.scriptPubKey.isNullGlobalRestrictionAssetTxDataScript then do
    let data ← globalAssetNullDataFromScript out.scriptPubKey
    (CacheOp.removeGlobalRestricted data.asset_name
      (if data.flag ≠ 0 then .GLOBAL_FREEZE else .GLOBAL_UNFREEZE)).runOrFail g v
  else some v

def undoNullAssets (tx : CTransaction) (v : View) : Option View :=
  tx.nullAssetOuts.foldlM (undoNullAsset g) v

/-! ## Inputs -/

/-- The loop over the inputs and their undo data, from the last input to the first. -/
def restoreInputs (vin : List CTxIn) (vprevout : CTxUndo) (s : ChainState) (fClean : Bool) :
    Option (ChainState × Bool) :=
  (vin.zip vprevout).reverse.foldlM (fun (s, fClean) (txin, undo) => do
    let (clean, s) ← applyTxInUndo g s undo txin.prevout
    return (s, fClean && clean)) (s, fClean)

/-! ## The block -/

/-- What the loop over the transactions changes. -/
structure DisconnectProgress where
  s : ChainState
  tempCache : CAssetsCache
  fClean : Bool := true

/-- One iteration. The coinbase comes without undo data. -/
def disconnectTx (nHeight : Int) (vUndoData : List (StdString × CBlockAssetUndo))
    (p : DisconnectProgress) (tx : CTransaction) (txundo : Option CTxUndo) :
    Option DisconnectProgress := do
  let (temp, fClean) :=
    spendOutputs g tx nHeight 0 tx.vout (⟨p.s.view, ⟨p.tempCache, p.s.assets.lru⟩⟩, p.fClean)
  let assets ← undoIssue g vUndoData tx p.s.assets
  let assets ← undoTransfers g tx assets
  let assets ← undoNullAssets g tx assets
  let s : ChainState := ⟨temp.view, assets⟩
  match txundo with
  | none => return ⟨s, temp.assets.cache, fClean⟩
  | some vprevout =>
      if vprevout.length ≠ tx.vin.length then none
      else
        let (s, fClean) ← restoreInputs g tx.vin vprevout s fClean
        return ⟨s, temp.assets.cache, fClean⟩

/-- `DisconnectBlock`: `none` is `DISCONNECT_FAILED`, the `Bool` distinguishes `DISCONNECT_OK` from
`DISCONNECT_UNCLEAN`. -/
def disconnectBlock (block : CBlock) (nHeight : Int) (vtxundo : List CTxUndo) (s : ChainState) :
    Option (Bool × ChainState) :=
  if vtxundo.length + 1 ≠ block.vtx.length then none
  else do
    let vUndoData := g.passetsdb.readBlockUndoAssetData block.hash
    let p ← (block.vtx.zip (none :: vtxundo.map some)).reverse.foldlM
      (fun p (tx, txundo) => disconnectTx g nHeight vUndoData p tx txundo)
      ⟨s, s.assets.cache, true⟩
    return (p.fClean, p.s)

end

end RavenCash
