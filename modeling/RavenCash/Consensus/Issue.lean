import RavenCash.Lib.Checks
import RavenCash.Assets.Verifier

/-!
# Transactions that issue or reissue assets

The six predicates of `CTransaction` that say what a transaction issues, and the `Verify…` function
that belongs to each. A transaction is recognised by its last outputs only; the `Verify…` functions
look for the burn output, for a transfer of the token that permits the operation, and count the asset
outputs.

A `Verify…` function that returns `false` with `strError` is `Except.error strError`.
-/

set_option autoImplicit false

namespace RavenCash

section

variable [NodeCrypto]

/-! ## Recognising a transaction -/

/-- The script of `vout[vout.size() - 1]`. -/
def CTransaction.lastScript (tx : CTransaction) : CScript :=
  (tx.vout.getLast?.map CTxOut.scriptPubKey).getD []

/-- The script of `vout[vout.size() - 2]`. -/
def CTransaction.ownerScript (tx : CTransaction) : CScript :=
  (tx.vout.dropLast.getLast?.map CTxOut.scriptPubKey).getD []

def checkIssueDataTx (s : CScript) : Bool := (isScriptNewAsset s).isSome

def checkReissueDataTx (s : CScript) : Bool := (isScriptReissueAsset s).isSome

def checkOwnerDataTx (s : CScript) : Bool := (isScriptOwnerAsset s).isSome

def CTransaction.isNewAsset (tx : CTransaction) : Bool :=
  decide (3 ≤ tx.vout.length) && checkIssueDataTx tx.lastScript && checkOwnerDataTx tx.ownerScript &&
    -- unique and restricted assets have predicates of their own
    !(isScriptNewUniqueAsset tx.lastScript || (isScriptNewRestrictedAsset tx.lastScript).isSome)

def CTransaction.isNewUniqueAsset (tx : CTransaction) : Bool :=
  decide (1 ≤ tx.vout.length) && checkIssueDataTx tx.lastScript &&
    isScriptNewUniqueAsset tx.lastScript

def CTransaction.isNewMsgChannelAsset (tx : CTransaction) : Bool :=
  decide (1 ≤ tx.vout.length) && checkIssueDataTx tx.lastScript &&
    (isScriptNewMsgChannelAsset tx.lastScript).isSome

def CTransaction.isNewQualifierAsset (tx : CTransaction) : Bool :=
  decide (1 ≤ tx.vout.length) && checkIssueDataTx tx.lastScript &&
    (isScriptNewQualifierAsset tx.lastScript).isSome

def CTransaction.isNewRestrictedAsset (tx : CTransaction) : Bool :=
  decide (1 ≤ tx.vout.length) && checkIssueDataTx tx.lastScript &&
    (isScriptNewRestrictedAsset tx.lastScript).isSome

def CTransaction.isReissueAsset (tx : CTransaction) : Bool :=
  decide (1 ≤ tx.vout.length) && checkReissueDataTx tx.lastScript

/-- What a transaction issues. -/
inductive IssueKind where
  | newAsset
  | reissueAsset
  | newUniqueAsset
  | newMsgChannelAsset
  | newQualifierAsset
  | newRestrictedAsset
  | none
deriving DecidableEq, Repr

/-- The first of the predicates that holds, in the order in which `CheckTransaction`,
`CheckTxAssets`, `AddCoins` and `DisconnectBlock` ask them. -/
def CTransaction.issueKind (tx : CTransaction) : IssueKind :=
  if tx.isNewAsset then .newAsset
  else if tx.isReissueAsset then .reissueAsset
  else if tx.isNewUniqueAsset then .newUniqueAsset
  else if tx.isNewMsgChannelAsset then .newMsgChannelAsset
  else if tx.isNewQualifierAsset then .newQualifierAsset
  else if tx.isNewRestrictedAsset then .newRestrictedAsset
  else .none

/-! ## Reading a transaction -/

def assetFromTransaction (tx : CTransaction) : Option (CNewAsset × StdString) :=
  if tx.isNewAsset then assetFromScript tx.lastScript else none

def ownerFromTransaction (tx : CTransaction) : Option (StdString × StdString) :=
  if tx.isNewAsset then ownerAssetFromScript tx.ownerScript else none

def msgChannelAssetFromTransaction (tx : CTransaction) : Option (CNewAsset × StdString) :=
  if tx.isNewMsgChannelAsset then msgChannelAssetFromScript tx.lastScript else none

def qualifierAssetFromTransaction (tx : CTransaction) : Option (CNewAsset × StdString) :=
  if tx.isNewQualifierAsset then qualifierAssetFromScript tx.lastScript else none

def restrictedAssetFromTransaction (tx : CTransaction) : Option (CNewAsset × StdString) :=
  if tx.isNewRestrictedAsset then restrictedAssetFromScript tx.lastScript else none

def reissueAssetFromTransaction (tx : CTransaction) : Option (CReissueAsset × StdString) :=
  if tx.isReissueAsset then reissueAssetFromScript tx.lastScript else none

/-- `strprintf("CTxOut(nValue=%d.%08d, scriptPubKey=%s)", …)` -/
def CTxOut.toString (out : CTxOut) : String :=
  let fraction := ToString.toString (out.nValue % COIN)
  let padding := String.ofList (List.replicate (8 - fraction.length) '0')
  "CTxOut(nValue=" ++ ToString.toString (out.nValue / COIN) ++ "." ++ padding ++ fraction ++
    ", scriptPubKey=" ++ text ((hexStr out.scriptPubKey).take 30) ++ ")"

/-- The failure of `GetVerifierStringFromTx`. -/
structure VerifierError where
  strError : String
  fNotFound : Bool
deriving DecidableEq, Repr

/-- `GetVerifierStringFromTx(verifier, strError, fNotFound)` -/
def CTransaction.getVerifierStringFromTx (tx : CTransaction) :
    Except VerifierError CNullAssetTxVerifierString :=
  match tx.vout.filter (fun out => out.scriptPubKey.isNullAssetVerifierTxDataScript) with
  | [] => .error ⟨"Verifier string not found", true⟩
  | out :: more =>
      match assetNullVerifierDataFromScript out.scriptPubKey with
      | none => .error ⟨"Failed to get verifier string from output: " ++ out.toString, false⟩
      | some verifier =>
          if more.isEmpty then .ok verifier
          else .error ⟨"Multiple verifier strings found in transaction", false⟩

/-! ## Outputs a verification looks for -/

/-- `CheckIssueBurnTx(txOut, type, numberIssued)` -/
def checkIssueBurnTx (params : CAssetParams) (txOut : CTxOut) (type : AssetType)
    (numberIssued : Nat := 1) : Bool :=
  if type = .REISSUE ∨ type = .VOTE ∨ type = .OWNER ∨ type = .INVALID then false
  else
    let destination := extractDestination txOut.scriptPubKey
    txOut.nValue == params.getBurnAmount type * Int64.ofNat numberIssued &&
      isValidDestination destination &&
      NodeCrypto.encodeDestination destination == params.getBurnAddress type

def checkReissueBurnTx (params : CAssetParams) (txOut : CTxOut) : Bool :=
  let destination := extractDestination txOut.scriptPubKey
  txOut.nValue == params.nReissueAssetBurnAmount && isValidDestination destination &&
    NodeCrypto.encodeDestination destination == params.strReissueAssetBurnAddress

/-- The loop that looks for a transfer of an asset among the outputs. -/
def CTransaction.hasTransferOf (tx : CTransaction) (name : StdString) : Bool :=
  tx.vout.any (fun out =>
    match transferAssetFromScript out.scriptPubKey with
    | some (transfer, _) => name == transfer.strName
    | none => false)

def CTransaction.checkAddingTagBurnFee (params : CAssetParams) (tx : CTransaction) (count : Nat) :
    Bool :=
  tx.vout.any (fun out => checkIssueBurnTx params out .NULL_ADD_QUALIFIER count)

/-- The number of outputs of one kind that `GetTxOutAssetTypes` counts. -/
def countAssetOuts (vout : List CTxOut) (nType : TxnOutType) (fIsOwner : Bool) : Nat :=
  vout.countP (fun out => (out.scriptPubKey.assetDataOf nType fIsOwner).isSome)

def nIssues (vout : List CTxOut) : Nat := countAssetOuts vout .TX_NEW_ASSET false

def nOwners (vout : List CTxOut) : Nat := countAssetOuts vout .TX_NEW_ASSET true

def nReissues (vout : List CTxOut) : Nat := countAssetOuts vout .TX_REISSUE_ASSET false

/-- The type `IsAssetNameValid` leaves, also for a name that is not valid. -/
def assetTypeOrInvalid (name : StdString) : AssetType := (assetTypeOf name).getD .INVALID

omit [NodeCrypto] in
theorem assetTypeOrInvalid_eq {name : StdString} {type : AssetType} (hne : type ≠ .INVALID) :
    assetTypeOrInvalid name = type ↔ assetTypeOf name = some type := by
  unfold assetTypeOrInvalid
  cases assetTypeOf name with
  | none => simp [hne.symm]
  | some t => simp

/-! ## `Verify…` -/

def BAD_HASH : UInt256 := 0xe6cdd54445e6bf69710d54e4340a6486167f866575a878eaedecbb345da056ae
def BAD_HASH2 : UInt256 := 0x3ba63518dc12599f9b83449c8b5338e224caf363d0327f5156fa4b6efeca5724

def CTransaction.verifyNewAsset (params : CAssetParams) (tx : CTransaction) : Except String Unit := do
  failIf (decide (tx.vout.length < 3)) "bad-txns-issue-vout-size-to-small"
  failIf (!checkIssueDataTx tx.lastScript) "bad-txns-issue-data-not-found"
  failIf (!checkOwnerDataTx tx.ownerScript) "bad-txns-issue-owner-data-not-found"
  let (asset, _) ← orFail (assetFromScript tx.lastScript) "bad-txns-issue-serialzation-failed"
  let assetType := assetTypeOrInvalid asset.strName
  let (strOwnerName, _) ← orFail (ownerAssetFromScript tx.ownerScript)
    "bad-txns-issue-owner-serialzation-failed"
  failIf (strOwnerName != asset.strName ++ OWNER_TAG) "bad-txns-issue-owner-name-doesn't-match"
  -- two transactions of the chain are let through without a burn
  let fFoundIssueBurnTx := tx.hash == BAD_HASH || tx.hash == BAD_HASH2 ||
    tx.vout.any (fun out => checkIssueBurnTx params out assetType)
  failIf (!fFoundIssueBurnTx) "bad-txns-issue-burn-not-found"
  failIf (assetType == .SUB && !tx.hasTransferOf (getParentName asset.strName ++ OWNER_TAG))
    "bad-txns-issue-new-asset-missing-owner-asset"
  failIf (nOwners tx.vout != 1 || nIssues tx.vout != 1 || decide (0 < nReissues tx.vout))
    "bad-txns-failed-issue-asset-formatting-check"

/-- The loop of `VerifyNewUniqueAsset`: the common root of the unique assets and their names. -/
def uniqueAssetsOf : List CTxOut → StdString → List StdString →
    Except String (StdString × List StdString)
  | [], assetRoot, setUniqueAssets => .ok (assetRoot, setUniqueAssets)
  | out :: vout, assetRoot, setUniqueAssets =>
      if isScriptNewUniqueAsset out.scriptPubKey then do
        let (asset, _) ← orFail (assetFromScript out.scriptPubKey)
          "bad-txns-issue-unique-asset-from-script"
        let root := getParentName asset.strName
        let assetRoot := if assetRoot.isEmpty then root else assetRoot
        failIf (assetRoot != root) "bad-txns-issue-unique-asset-compare-failed"
        failIf (setUniqueAssets.contains asset.strName)
          "bad-txns-issue-unique-duplicate-name-in-same-tx"
        uniqueAssetsOf vout assetRoot (asset.strName :: setUniqueAssets)
      else uniqueAssetsOf vout assetRoot setUniqueAssets

def CTransaction.verifyNewUniqueAsset (params : CAssetParams) (tx : CTransaction) :
    Except String Unit := do
  failIf (decide (tx.vout.length < 3)) "bad-txns-unique-vout-size-to-small"
  let (assetRoot, setUniqueAssets) ← uniqueAssetsOf tx.vout [] []
  let assetOutpointCount := setUniqueAssets.length
  failIf (assetOutpointCount == 0) "bad-txns-issue-unique-asset-bad-outpoint-count"
  failIf (!tx.vout.any (fun out => checkIssueBurnTx params out .UNIQUE assetOutpointCount))
    "bad-txns-issue-unique-asset-burn-outpoints-not-found"
  failIf (!tx.hasTransferOf (assetRoot ++ OWNER_TAG)) "bad-txns-issue-unique-asset-missing-owner-asset"
  failIf (decide (0 < nOwners tx.vout) || decide (0 < nReissues tx.vout) ||
      nIssues tx.vout != assetOutpointCount)
    "bad-txns-failed-unique-asset-formatting-check"

def CTransaction.verifyNewMsgChannelAsset (params : CAssetParams) (tx : CTransaction) :
    Except String Unit := do
  failIf (decide (tx.vout.length < 3)) "bad-txns-issue-msgchannel-vout-size-to-small"
  failIf (!checkIssueDataTx tx.lastScript) "bad-txns-issue-data-not-found"
  let (asset, _) ← orFail (msgChannelAssetFromScript tx.lastScript)
    "bad-txns-issue-msgchannel-serialzation-failed"
  failIf (!tx.vout.any (fun out => checkIssueBurnTx params out .MSGCHANNEL))
    "bad-txns-issue-msgchannel-burn-not-found"
  failIf (!tx.hasTransferOf (getParentName asset.strName ++ OWNER_TAG))
    "bad-txns-issue-msg-channel-asset-bad-owner-asset"
  failIf (nOwners tx.vout != 0 || nIssues tx.vout != 1 || decide (0 < nReissues tx.vout))
    "bad-txns-failed-issue-msgchannel-asset-formatting-check"

/-- The source writes `VerifyNewQualfierAsset`. -/
def CTransaction.verifyNewQualfierAsset (params : CAssetParams) (tx : CTransaction) :
    Except String Unit := do
  failIf (decide (tx.vout.length < 2)) "bad-txns-issue-qualifier-vout-size-to-small"
  failIf (!checkIssueDataTx tx.lastScript) "bad-txns-issue-qualifider-data-not-found"
  let (asset, _) ← orFail (qualifierAssetFromScript tx.lastScript)
    "bad-txns-issue-qualifier-serialzation-failed"
  let assetType := assetTypeOrInvalid asset.strName
  failIf (!tx.vout.any (fun out => checkIssueBurnTx params out assetType))
    "bad-txns-issue-qualifier-burn-not-found"
  -- a sub qualifier is permitted by its parent itself, not by an owner token
  failIf (assetType == .SUB_QUALIFIER && !tx.hasTransferOf (getParentName asset.strName))
    "bad-txns-issue-sub-qualifier-parent-outpoint-not-found"
  failIf (nOwners tx.vout != 0 || nIssues tx.vout != 1 || decide (0 < nReissues tx.vout))
    "bad-txns-failed-issue-asset-formatting-check"

def CTransaction.verifyNewRestrictedAsset (params : CAssetParams) (tx : CTransaction) :
    Except String Unit := do
  failIf (decide (tx.vout.length < 4)) "bad-txns-issue-restricted-vout-size-to-small"
  failIf (!checkIssueDataTx tx.lastScript) "bad-txns-issue-restricted-data-not-found"
  let (asset, _) ← orFail (restrictedAssetFromScript tx.lastScript)
    "bad-txns-issue-restricted-serialization-failed"
  let assetType := assetTypeOrInvalid asset.strName
  failIf (!tx.vout.any (fun out => checkIssueBurnTx params out assetType))
    "bad-txns-issue-restricted-burn-not-found"
  -- `$TOKEN` checks for `TOKEN!`
  let strippedRoot := (getParentName asset.strName).drop 1 ++ OWNER_TAG
  failIf (!tx.hasTransferOf strippedRoot)
    "bad-txns-issue-restricted-root-owner-token-outpoint-not-found"
  let _ ← tx.getVerifierStringFromTx.mapError VerifierError.strError
  failIf (nOwners tx.vout != 0 || nIssues tx.vout != 1 || decide (0 < nReissues tx.vout))
    "bad-txns-failed-issue-asset-formatting-check"

/-- The name whose owner token permits a reissue: a restricted asset loses its `$`. -/
def reissueOwnerName (name : StdString) : StdString :=
  if assetTypeOrInvalid name = .RESTRICTED then name.drop 1 else name

def CTransaction.verifyReissueAsset (params : CAssetParams) (tx : CTransaction) :
    Except String Unit := do
  failIf (decide (tx.vout.length < 3)) "bad-txns-vout-size-to-small"
  failIf (!checkReissueDataTx tx.lastScript) "bad-txns-reissue-data-not-found"
  let (reissue, _) ← orFail (reissueAssetFromScript tx.lastScript)
    "bad-txns-reissue-serialization-failed"
  failIf (!tx.hasTransferOf (reissueOwnerName reissue.strName ++ OWNER_TAG))
    "bad-txns-reissue-owner-outpoint-not-found"
  failIf (!tx.vout.any (checkReissueBurnTx params)) "bad-txns-reissue-burn-outpoint-not-found"
  failIf (decide (0 < nOwners tx.vout) || nReissues tx.vout != 1 || decide (0 < nIssues tx.vout))
    "bad-txns-failed-reissue-asset-formatting-check"

/-- `IsNewOwnerTxValid` -/
def isNewOwnerTxValid (tx : CTransaction) (assetName address : StdString) : Except String Unit := do
  let (ownerName, ownerAddress) ← orFail (ownerFromTransaction tx) "bad-txns-bad-owner"
  failIf (ownerAddress != address) "bad-txns-owner-address-mismatch"
  failIf (decide (ownerName.length < 1 + MIN_ASSET_LENGTH)) "bad-txns-owner-asset-length"
  failIf (ownerName != assetName ++ OWNER_TAG) "bad-txns-owner-name-mismatch"

end

end RavenCash
