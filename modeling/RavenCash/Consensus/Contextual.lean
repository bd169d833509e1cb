import RavenCash.Assets.Queries
import RavenCash.Consensus.TxCheck

/-!
# Checks against the asset state

The `ContextualCheck…` functions of `assets/assets.cpp`. They ask the asset cache of the caller, so
each is a check in the read caches: `g` and `cache` are what the queries read and do not change.

A `ContextualCheck…` function that returns `false` with `strError` fails with `strError`. Two of them
declare a second `strError` in an inner block; the caller then sees the empty text.
-/

set_option autoImplicit false

namespace RavenCash

/-- A check that asks the asset state. -/
abbrev AssetCheck := Checked LRUCaches String

section

variable [NodeCrypto] (g : Globals) (cache : CAssetsCache)

/-! ## Tags and freezes -/

/-- A change of a status is only let through when it changes the status. -/
def verifyStatusChange (status : LRUCaches → Bool × LRUCaches) (flag : Int8)
    (whenSet whenUnset : String) : AssetCheck Unit := do
  .lift (verifyNullAssetDataFlag flag)
  let fHas ← .ask status
  if flag ≠ 0 then .lift (failIf fHas whenSet)
  else .lift (failIf (!fHas) whenUnset)

def verifyQualifierChange (data : CNullAssetTxData) (address : StdString) : AssetCheck Unit :=
  verifyStatusChange (fun lru => checkForAddressQualifier g ⟨cache, lru⟩ data.asset_name address true)
    data.flag "bad-txns-null-data-add-qualifier-when-already-assigned"
    "bad-txns-null-data-removing-qualifier-when-not-assigned"

def verifyRestrictedAddressChange (data : CNullAssetTxData) (address : StdString) :
    AssetCheck Unit :=
  verifyStatusChange
    (fun lru => checkForAddressRestriction g ⟨cache, lru⟩ data.asset_name address true)
    data.flag "bad-txns-null-data-freeze-address-when-already-frozen"
    "bad-txns-null-data-unfreeze-address-when-not-frozen"

def verifyGlobalRestrictedChange (data : CNullAssetTxData) : AssetCheck Unit :=
  verifyStatusChange (fun lru => checkForGlobalRestriction g ⟨cache, lru⟩ data.asset_name true)
    data.flag "bad-txns-null-data-global-freeze-when-already-frozen"
    "bad-txns-null-data-global-unfreeze-when-not-frozen"

def contextualCheckNullAssetTxOut (txout : CTxOut) : AssetCheck Unit := do
  let (data, address) ← .lift (orFail (assetNullDataFromScript txout.scriptPubKey)
    "bad-txns-null-asset-data-serialization")
  if isAssetNameAQualifier data.asset_name then verifyQualifierChange g cache data address
  else if isAssetNameAnRestricted data.asset_name then
    verifyRestrictedAddressChange g cache data address
  else .lift (.error "bad-txns-null-asset-data-on-non-restricted-or-qualifier-asset")

def contextualCheckGlobalAssetTxOut (txout : CTxOut) : AssetCheck Unit := do
  let data ← .lift (orFail (globalAssetNullDataFromScript txout.scriptPubKey)
    "bad-txns-null-global-asset-data-serialization")
  verifyGlobalRestrictedChange g cache data

/-! ## Verifier strings -/

/-- Whether each qualifier is at the address. -/
def qualifierVals (check_address : StdString) (setFoundQualifiers : List StdString) :
    AssetCheck LibBoolEE.Vals :=
  Checked.foldChecks (fun vals qualifier => do
      let has_qualifier ← .ask (fun lru =>
        checkForAddressQualifier g ⟨cache, lru⟩ (QUALIFIER_CHAR ++ qualifier) check_address true)
      return vals ++ [(qualifier, has_qualifier)])
    [] setFoundQualifiers

def contextualCheckVerifierString (verifier check_address : StdString) : AssetCheck Unit :=
  if verifier = bytes "true" then pure ()
  else do
    let setFoundQualifiers ← .lift (checkVerifierString verifier)
    Checked.forEach (fun qualifier => do
        let fExists ← .ask (fun lru =>
          checkIfAssetExists g ⟨cache, lru⟩ (QUALIFIER_CHAR ++ qualifier) true)
        .lift (failIf (!fExists) "bad-txns-null-verifier-contains-non-issued-qualifier"))
      setFoundQualifiers
    -- without an address only the syntax is checked
    if check_address.isEmpty then pure ()
    else do
      let vals ← qualifierVals g cache check_address setFoundQualifiers
      match LibBoolEE.resolve verifier vals with
      | .ok ret => .lift (failIf (!ret) "bad-txns-null-verifier-address-failed-verification")
      | .error _ => .lift (.error "bad-txns-null-verifier-failed-contexual-syntax-check")

def contextualCheckVerifierAssetTxOut (txout : CTxOut) : AssetCheck Unit := do
  let verifier ← .lift (orFail (assetNullVerifierDataFromScript txout.scriptPubKey)
    "bad-txns-null-verifier-data-serialization")
  (contextualCheckVerifierString g cache verifier.verifier_string []).mapError (fun _ => "")

def CAssetTransfer.contextualCheckAgainstVerifyString (transfer : CAssetTransfer)
    (address : StdString) : AssetCheck Unit := do
  let found ← .ask (fun lru => getAssetVerifierStringIfExists g ⟨cache, lru⟩ transfer.strName true)
  let verifier ← .lift (orFail found
    ("Verifier String doesn't exist for asset: " ++ text transfer.strName))
  contextualCheckVerifierString g cache verifier.verifier_string address

/-! ## Attached data -/

def encodeAssetData (decoded : StdString) : StdString :=
  if decoded.length = 34 then encodeBase58 decoded
  else if decoded.length = 32 then hexStr decoded
  else []

def checkEncoded (hash : StdString) : Except String Unit :=
  let encodedStr := encodeAssetData hash
  failIf (!((encodedStr.take 2 == bytes "Qm" && encodedStr.length == 46) ||
      (areMessagesDeployed && isHex encodedStr && encodedStr.length == 64)))
    "Invalid parameter: ipfs_hash is not valid, or txid hash is not the right length"

/-! ## Transfers -/

def amountError : String := "Invalid parameter: asset amount can't be equal to or less than zero."

def contextualCheckTransferAsset (transfer : CAssetTransfer) (address : StdString) :
    AssetCheck Unit := do
  let assetType ← .lift ((isAssetNameValid transfer.strName).mapError (fun _ => nameError))
  .lift (failIf (decide (transfer.nAmount ≤ 0)) amountError)
  if areMessagesDeployed then
    .lift (failIf (transfer.message.isEmpty && decide (0 < transfer.nExpireTime))
      "Invalid parameter: asset transfer expiration time requires a message to be attached to the transfer")
    .lift (failIf (decide (transfer.nExpireTime < 0))
      "Invalid parameter: expiration time must be a positive value")
    if !transfer.message.isEmpty then .lift (checkEncoded transfer.message)
  .lift (failIf (assetType == .MSGCHANNEL && !areMessagesDeployed)
    "bad-txns-transfer-msgchannel-before-messaging-is-active")
  if assetType = .RESTRICTED then
    .lift (failIf (!areRestrictedAssetsDeployed) "bad-txns-transfer-restricted-before-it-is-active")
    let fFrozen ← .ask (fun lru => checkForGlobalRestriction g ⟨cache, lru⟩ transfer.strName true)
    .lift (failIf fFrozen "bad-txns-transfer-restricted-asset-that-is-globally-restricted")
    (transfer.contextualCheckAgainstVerifyString g cache address).mapError (fun _ => "")
  .lift (failIf ((assetType == .QUALIFIER || assetType == .SUB_QUALIFIER) &&
      !areRestrictedAssetsDeployed)
    "bad-txns-transfer-qualifier-before-it-is-active")

/-! ## Issues and reissues -/

def ipfsError : String :=
  "Invalid parameter: ipfs_hash must be 46 characters. Txid must be valid 64 character hash"

/-- `mapAssetToHash` is that of the mempool. -/
def contextualCheckNewAsset (mapAssetToHash : StdMap StdString UInt256) (asset : CNewAsset)
    (fCheckMempool : Bool := false) : AssetCheck Unit := do
  .lift (failIf (!areAssetsDeployed) "bad-txns-new-asset-when-assets-is-not-active")
  .lift (checkNewAsset asset)
  let fExists ← .ask (fun lru => checkIfAssetExists g ⟨cache, lru⟩ asset.strName true)
  .lift (failIf fExists
    ("Invalid parameter: asset_name '" ++ text asset.strName ++ "' has already been used"))
  .lift (failIf (fCheckMempool && (mapAssetToHash.lookup asset.strName).isSome)
    "Asset with this name is already in the mempool")
  .lift (failIf (asset.nHasIPFS != 0 && asset.strIPFSHash.length != 34 &&
      (!areMessagesDeployed || asset.strIPFSHash.length != 32)) ipfsError)
  if asset.nHasIPFS ≠ 0 then .lift (checkEncoded asset.strIPFSHash)

/-- The verifier string a reissue of a restricted asset must agree with. -/
def checkReissueVerifier (reissue_asset : CReissueAsset) (strAddress : StdString)
    (tx : CTransaction) : AssetCheck Unit :=
  match tx.getVerifierStringFromTx with
  | .error e => do
      .lift (failIf (!e.fNotFound) e.strError)
      if 0 < reissue_asset.nAmount then
        let current ← .ask (fun lru =>
          getAssetVerifierStringIfExists g ⟨cache, lru⟩ reissue_asset.strName)
        let current_verifier ← .lift (orFail current
          "failed to get verifier string from a restricted asset, database is out of sync. Reindex required. Please report this is to development team")
        contextualCheckVerifierString g cache current_verifier.verifier_string strAddress
  | .ok new_verifier =>
      if 0 < reissue_asset.nAmount then
        contextualCheckVerifierString g cache new_verifier.verifier_string strAddress
      else pure ()

/-- The data of the asset before the reissue bounds what the reissue may carry. -/
def checkReissueData (prev_asset : CNewAsset) (reissue_asset : CReissueAsset) : Except String Unit := do
  failIf (prev_asset.nReissuable == 0) "Unable to reissue asset: reissuable is set to false"
  failIf (decide (MAX_MONEY < prev_asset.nAmount + reissue_asset.nAmount))
    ("Unable to reissue asset: asset_name '" ++ text reissue_asset.strName ++
      "' the amount trying to reissue is to large")
  failIf (!checkAmountWithUnits reissue_asset.nAmount prev_asset.units)
    "Unable to reissue asset: amount must be divisible by the smaller unit assigned to the asset"
  failIf (decide (reissue_asset.nUnits < prev_asset.units) && reissue_asset.nUnits != -1)
    "Unable to reissue asset: unit must be larger than current unit selection"
  failIf (!reissue_asset.strIPFSHash.isEmpty && reissue_asset.strIPFSHash.length != 34 &&
      (areMessagesDeployed && reissue_asset.strIPFSHash.length != 32))
    "Invalid parameter: ipfs_hash must be 34 bytes, Txid must be 32 bytes"
  if !reissue_asset.strIPFSHash.isEmpty then checkEncoded reissue_asset.strIPFSHash

/-- `ContextualCheckReissueAsset(assetCache, reissue_asset, strError, tx)` -/
def contextualCheckReissueAsset (params : CAssetParams) (reissue_asset : CReissueAsset)
    (tx : CTransaction) : AssetCheck Unit := do
  let (_, strAddress) ← .lift (orFail (reissueAssetFromTransaction tx)
    "bad-txns-reissue-asset-contextual-check")
  .lift (checkReissueAsset params reissue_asset)
  let prev ← .ask (fun lru => getAssetMetaDataIfExists g ⟨cache, lru⟩ reissue_asset.strName)
  let (prev_asset, _) ← .lift (orFail prev
    ("Unable to reissue asset: asset_name '" ++ text reissue_asset.strName ++
      "' doesn't exist in the database"))
  .lift (checkReissueData prev_asset reissue_asset)
  if isAssetNameAnRestricted reissue_asset.strName then
    checkReissueVerifier g cache reissue_asset strAddress tx

/-- `ContextualCheckUniqueAssetTx`: the mempool is never asked. -/
def contextualCheckUniqueAssetTx (mapAssetToHash : StdMap StdString UInt256) (tx : CTransaction) :
    AssetCheck Unit :=
  Checked.forEach (fun out =>
      if isScriptNewUniqueAsset out.scriptPubKey then do
        let (asset, _) ← .lift (orFail (assetFromScript out.scriptPubKey)
          "bad-txns-issue-unique-serialization-failed")
        contextualCheckNewAsset g cache mapAssetToHash asset
      else pure ())
    tx.vout

end

end RavenCash
