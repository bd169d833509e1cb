import RavenCash.Lib.Totals
import RavenCash.Coins.Coin
import RavenCash.Consensus.Contextual

/-!
# `CheckTxAssets`

The checks of `Consensus::CheckTxAssets` on a transaction against the coins it spends and the asset
state. Two loops add up, in `int64`, the assets of the spent coins and of the transfer outputs; the
totals must agree.

The asset cache of the caller is set. What the function collects for the messaging layer and for the
wallet is left out.
-/

set_option autoImplicit false

namespace RavenCash

/-- What accepting transactions to the mempool leaves for later checks: the reissue a transaction of
the mempool made, by transaction and by asset, and the assets it issues. -/
structure MempoolMaps where
  mapReissuedTx : StdMap UInt256 StdString := ∅
  mapReissuedAssets : StdMap StdString UInt256 := ∅
  mapAssetToHash : StdMap StdString UInt256 := ∅

/-- A check of a transaction that asks the asset state. -/
abbrev TxAssetCheck := Checked LRUCaches CValidationError

section

variable [NodeCrypto] (g : Globals) (cache : CAssetsCache)

/-! ## Inputs -/

/-- The failure of `assert(!coin.IsSpent())`, which stops the node. -/
def assertNotSpent : CValidationError := ⟨0, 0, "assert(!coin.IsSpent())", ""⟩

/-- One iteration of the loop over the inputs. -/
def tallyInput (inputs : CCoinsView) (totalInputs : StdMap StdString CAmount) (txin : CTxIn) :
    TxAssetCheck (StdMap StdString CAmount) := do
  let coin ← .lift (orFail (inputs.lookup txin.prevout) assertNotSpent)
  if coin.isAsset then
    let data ← .lift (orFail (getAssetData coin.out.scriptPubKey)
      (badTx "bad-txns-failed-to-get-asset-from-script"))
    if isAssetNameAnRestricted data.assetName then
      let fFrozen ← .ask (fun lru => checkForAddressRestriction g ⟨cache, lru⟩ data.assetName
        (NodeCrypto.encodeDestination data.destination) true)
      .lift (failIf fFrozen (badTx "bad-txns-restricted-asset-transfer-from-frozen-address"))
    return totalInputs.addTotal data.assetName data.nAmount
  else return totalInputs

/-! ## Outputs -/

/-- What the loop over the outputs collects. -/
structure OutputTally where
  totalOutputs : StdMap StdString CAmount := ∅
  vPairReissueAssets : List (StdString × UInt256) := []

def checkNullAssetOut (txout : CTxOut) : TxAssetCheck Unit :=
  if txout.scriptPubKey.isNullAsset then do
    .lift (failIf (!areRestrictedAssetsDeployed)
      (badTx "bad-tx-null-asset-data-before-restricted-assets-activated"))
    if txout.scriptPubKey.isNullAssetTxDataScript then
      (contextualCheckNullAssetTxOut g cache txout).mapError badTx
    else if txout.scriptPubKey.isNullGlobalRestrictionAssetTxDataScript then
      (contextualCheckGlobalAssetTxOut g cache txout).mapError badTx
    else if txout.scriptPubKey.isNullAssetVerifierTxDataScript then
      (contextualCheckVerifierAssetTxOut g cache txout).mapError badTx
    else .lift (.error (badTx "bad-tx-null-asset-data-unknown-type"))
  else pure ()

/-- The amount of a transfer fits the units of its asset. -/
def checkTransferUnits (transfer : CAssetTransfer) : TxAssetCheck Unit :=
  if isAssetNameAnOwner transfer.strName then
    .lift (failIf (transfer.nAmount != OWNER_ASSET_AMOUNT)
      (badTx "bad-txns-transfer-owner-amount-was-not-1"))
  else do
    let found ← .ask (fun lru => getAssetMetaDataIfExists g ⟨cache, lru⟩ transfer.strName)
    let (asset, _) ← .lift (orFail found (badTx "bad-txns-transfer-asset-not-exist"))
    .lift (failIf (asset.strName != transfer.strName) (badTx "bad-txns-asset-database-corrupted"))
    .lift (failIf (!checkAmountWithUnits transfer.nAmount asset.units)
      (badTx "bad-txns-transfer-asset-amount-not-match-units"))

def tallyTransfer (fRunningUnitTests : Bool) (acc : OutputTally) (txout : CTxOut) :
    TxAssetCheck OutputTally := do
  let (transfer, address) ← .lift (orFail (transferAssetFromScript txout.scriptPubKey)
    (badTx "bad-tx-asset-transfer-bad-deserialize"))
  (contextualCheckTransferAsset g cache transfer address).mapError badTx
  if !fRunningUnitTests then checkTransferUnits g cache transfer
  return { acc with totalOutputs := acc.totalOutputs.addTotal transfer.strName transfer.nAmount }

/-- A reissue while the mempool has another one of the same asset is refused. -/
def tallyReissue (maps : MempoolMaps) (tx : CTransaction) (acc : OutputTally) (txout : CTxOut) :
    Except CValidationError OutputTally := do
  let (reissue, _) ← orFail (reissueAssetFromScript txout.scriptPubKey)
    (badTx "bad-tx-asset-reissue-bad-deserialize")
  match maps.mapReissuedAssets.lookup reissue.strName with
  | some hash =>
      failIf (hash != tx.hash) (badTx "bad-tx-reissue-chaining-not-allowed")
      return acc
  | none =>
      return { acc with
        vPairReissueAssets := acc.vPairReissueAssets ++ [(reissue.strName, tx.hash)] }

/-- One iteration of the loop over the outputs. -/
def tallyOutput (maps : MempoolMaps) (tx : CTransaction) (fRunningUnitTests : Bool)
    (acc : OutputTally) (txout : CTxOut) : TxAssetCheck OutputTally := do
  .lift (failIf (txout.scriptPubKey.isAssetScript && !areAssetsDeployed)
    (badTx "bad-txns-is-asset-and-asset-not-active"))
  checkNullAssetOut g cache txout
  let nType := txout.scriptPubKey.assetScript.map AssetScript.nType
  if nType = some .TX_TRANSFER_ASSET then tallyTransfer g cache fRunningUnitTests acc txout
  else if nType = some .TX_REISSUE_ASSET then .lift (tallyReissue maps tx acc txout)
  else return acc

/-! ## What the transaction issues -/

/-- The data of an issue is read, then checked against the asset state. -/
def checkIssuedAsset (maps : MempoolMaps) (fCheckMempool : Bool)
    (found : Option (CNewAsset × StdString)) (unreadable failed : String) :
    TxAssetCheck (CNewAsset × StdString) := do
  let issued ← .lift (orFail found (badTx unreadable))
  (contextualCheckNewAsset g cache maps.mapAssetToHash issued.1 fCheckMempool).mapError
    (fun strError => badTx (failed ++ strError))
  return issued

def checkNewRestricted (maps : MempoolMaps) (tx : CTransaction) (fCheckMempool : Bool) :
    TxAssetCheck Unit := do
  .lift (failIf (!areRestrictedAssetsDeployed)
    (badTx "bad-txns-issue-restricted-before-it-is-active"))
  let (_, strAddress) ← checkIssuedAsset g cache maps fCheckMempool
    (restrictedAssetFromTransaction tx) "bad-txns-issue-restricted-serialzation-failed"
    "bad-txns-issue-restricted-contextual"
  let verifier ← .lift (tx.getVerifierStringFromTx.mapError
    (fun e => badTx ("bad-txns-issue-restricted-verifier-search-" ++ e.strError)))
  (contextualCheckVerifierString g cache verifier.verifier_string strAddress).mapError badTx

def checkReissued (params : CAssetParams) (tx : CTransaction) : TxAssetCheck Unit := do
  let (reissue_asset, _) ← .lift (orFail (reissueAssetFromScript tx.lastScript)
    (badTx "bad-txns-reissue-serialzation-failed"))
  (contextualCheckReissueAsset g cache params reissue_asset tx).mapError
    (fun strError => badTx ("bad-txns-reissue-contextual-" ++ strError))

def checkIssueContext (params : CAssetParams) (maps : MempoolMaps) (tx : CTransaction)
    (fCheckMempool : Bool) : TxAssetCheck Unit :=
  match tx.issueKind with
  | .newAsset => do
      let _ ← checkIssuedAsset g cache maps fCheckMempool (assetFromScript tx.lastScript)
        "bad-txns-issue-serialzation-failed" ""
  | .reissueAsset => checkReissued g cache params tx
  | .newUniqueAsset =>
      (contextualCheckUniqueAssetTx g cache maps.mapAssetToHash tx).mapError
        (fun strError => badTx ("bad-txns-issue-unique-contextual-" ++ strError))
  | .newMsgChannelAsset => do
      .lift (failIf (!areMessagesDeployed)
        (badTx "bad-txns-issue-msgchannel-before-messaging-is-active"))
      let _ ← checkIssuedAsset g cache maps fCheckMempool (msgChannelAssetFromTransaction tx)
        "bad-txns-issue-msgchannel-serialzation-failed" "bad-txns-issue-msgchannel-contextual-"
  | .newQualifierAsset => do
      .lift (failIf (!areRestrictedAssetsDeployed)
        (badTx "bad-txns-issue-qualifier-before-it-is-active"))
      let _ ← checkIssuedAsset g cache maps fCheckMempool (qualifierAssetFromTransaction tx)
        "bad-txns-issue-qualifier-serialzation-failed" "bad-txns-issue-qualfier-contextual"
  | .newRestrictedAsset => checkNewRestricted g cache maps tx fCheckMempool
  | .none =>
      .lift (checkNoIssueTx tx "bad-txns-op-neox-asset-not-in-right-script-location")

/-! ## The totals -/

/-- The two comparisons at the end, over the outputs in the order of the map. -/
def checkTotals (totalInputs totalOutputs : StdMap StdString CAmount) : Check := do
  checkAll (fun name => do
      failIf (totalInputs.lookup name).isNone
        (badTx ("bad-tx-inputs-outputs-mismatch Bad Transaction - Trying to create outpoint for asset that you don't have: "
          ++ text name))
      failIf (totalInputs.lookup name != totalOutputs.lookup name)
        (badTx ("bad-tx-inputs-outputs-mismatch Bad Transaction - Assets would be burnt "
          ++ text name)))
    (totalOutputs.keys.foldl (fun names name => insertInOrder name names) [])
  failIf (totalOutputs.keys.length != totalInputs.keys.length)
    (badTx "bad-tx-asset-inputs-size-does-not-match-outputs-size")

/-! ## `CheckTxAssets` -/

/-- `Consensus::CheckTxAssets`, with `vPairReissueAssets` as its result. -/
def checkTxAssets (params : CAssetParams) (maps : MempoolMaps) (tx : CTransaction)
    (inputs : CCoinsView) (fCheckMempool fRunningUnitTests : Bool) :
    TxAssetCheck (List (StdString × UInt256)) := do
  .lift (failIf (!inputs.haveInputs tx) { badTx "bad-txns-inputs-missing-or-spent" with
    strDebugMessage := "CheckTxAssets: inputs missing/spent" })
  let totalInputs ← Checked.foldChecks (tallyInput g cache inputs) ∅ tx.vin
  let outs ← Checked.foldChecks (tallyOutput g cache maps tx fRunningUnitTests) {} tx.vout
  checkIssueContext g cache params maps tx fCheckMempool
  .lift (checkTotals totalInputs outs.totalOutputs)
  return outs.vPairReissueAssets

end

end RavenCash
