import RavenCash.Basic.Validation
import RavenCash.Consensus.Issue

/-!
# `CheckTransaction`

The checks of `consensus/tx_verify.cpp` that need no chain state, with the checks of
`assets/assets.cpp` on issued and reissued data. The loop over the outputs collects what the later
checks read; then the transaction is verified as what it issues.
-/

set_option autoImplicit false

namespace RavenCash

/-! ## Issued data -/

def MAX_UNIT : Int8 := 8
def UNIQUE_ASSET_UNITS : Int8 := 0
def QUALIFIER_ASSET_UNITS : Int8 := 0
def QUALIFIER_ASSET_MIN_AMOUNT : CAmount := 1 * COIN
def QUALIFIER_ASSET_MAX_AMOUNT : CAmount := 10 * COIN

/-- `int64_t(pow(10, MAX_UNIT - nUnits))` -/
def unitDivisor (nUnits : Int8) : Int64 :=
  if nUnits ≤ MAX_UNIT then Int64.ofNat (10 ^ (8 - nUnits.toInt).toNat) else 0

def checkAmountWithUnits (nAmount : CAmount) (nUnits : Int8) : Bool :=
  nAmount % unitDivisor nUnits == 0

def nameError : String :=
  "Invalid parameter: asset_name must only consist of valid characters and have a size between 3 and 30 characters. See help for more details."

/-- The checks on the data of a unique asset or message channel. -/
def checkUniqueData (asset : CNewAsset) : Except String Unit := do
  failIf (asset.units != UNIQUE_ASSET_UNITS) "Invalid parameter: units must be 0"
  failIf (asset.nAmount != UNIQUE_ASSET_AMOUNT)
    ("Invalid parameter: amount must be " ++ toString UNIQUE_ASSET_AMOUNT)
  failIf (asset.nReissuable != 0) "Invalid parameter: reissuable must be 0"

/-- The checks on the data of a qualifier or sub qualifier. -/
def checkQualifierData (asset : CNewAsset) : Except String Unit := do
  failIf (asset.units != QUALIFIER_ASSET_UNITS) "Invalid parameter: units must be 0"
  failIf (decide (asset.nAmount < QUALIFIER_ASSET_MIN_AMOUNT) ||
      decide (QUALIFIER_ASSET_MAX_AMOUNT < asset.nAmount))
    ("Invalid parameter: amount must be between " ++ toString QUALIFIER_ASSET_MIN_AMOUNT ++ " - " ++
      toString QUALIFIER_ASSET_MAX_AMOUNT)
  failIf (asset.nReissuable != 0) "Invalid parameter: reissuable must be 0"

def checkNewAsset (asset : CNewAsset) : Except String Unit := do
  let assetType ← (isAssetNameValid asset.strName).mapError (fun _ => nameError)
  if assetType = .UNIQUE ∨ assetType = .MSGCHANNEL then checkUniqueData asset
  if assetType = .QUALIFIER ∨ assetType = .SUB_QUALIFIER then checkQualifierData asset
  failIf (isAssetNameAnOwner asset.strName)
    "Invalid parameters: asset_name can't have a '!' at the end of it. See help for more details."
  failIf (decide (asset.nAmount ≤ 0))
    "Invalid parameter: asset amount can't be equal to or less than zero."
  failIf (decide (MAX_MONEY < asset.nAmount))
    ("Invalid parameter: asset amount greater than max money: " ++ toString (MAX_MONEY / COIN))
  failIf (decide (asset.units < 0) || decide (8 < asset.units))
    "Invalid parameter: units must be between 0-8."
  failIf (!checkAmountWithUnits asset.nAmount asset.units)
    "Invalid parameter: amount must be divisible by the smaller unit assigned to the asset"
  failIf (asset.nReissuable != 0 && asset.nReissuable != 1)
    "Invalid parameter: reissuable must be 0 or 1"
  failIf (asset.nHasIPFS != 0 && asset.nHasIPFS != 1) "Invalid parameter: has_ipfs must be 0 or 1."

def checkReissueAsset (params : CAssetParams) (asset : CReissueAsset) : Except String Unit := do
  failIf (decide (asset.nAmount < 0) || decide (MAX_MONEY ≤ asset.nAmount))
    "Unable to reissue asset: amount must be 0 or larger"
  failIf (decide (MAX_UNIT < asset.nUnits) || decide (asset.nUnits < -1))
    "Unable to reissue asset: unit must be between 8 and -1"
  -- two blocks of the test network are let through
  let fSkip := params.strNetworkID == "test" &&
    ((asset.strName == bytes "GAMINGWEB" && asset.nReissuable == 109) ||
      (asset.strName == bytes "UINT8" && asset.nReissuable == -47))
  failIf (!fSkip && asset.nReissuable != 0 && asset.nReissuable != 1)
    "Unable to reissue asset: reissuable must be 0 or 1"

/-! ## The outputs -/

/-- What the loop over the outputs collects. The map from asset and address to a count only ever
holds the count `1`; it is the list of its keys. -/
structure OutputScan where
  nValueOut : CAmount := 0
  setAssetTransferNames : List StdString := []
  mapNullDataTxCount : List (StdString × StdString) := []
  setNullGlobalAssetChanges : List StdString := []
  fContainsNullAssetVerifierTx : Bool := false
  nCountAddTagOuts : Nat := 0
deriving DecidableEq, Repr

def verifyNullAssetDataFlag (flag : Int8) : Except String Unit :=
  failIf (flag != 0 && flag != 1) "bad-txns-null-data-flag-must-be-0-or-1"

section

variable [NodeCrypto]

/-- A null asset data output. -/
def scanNullAsset (scan : OutputScan) (txout : CTxOut) : Except CValidationError OutputScan :=
  if txout.scriptPubKey.isNullAssetTxDataScript then do
    let (data, address) ← orFail (assetNullDataFromScript txout.scriptPubKey)
      (badTx "bad-txns-null-asset-data-serialization")
    (verifyNullAssetDataFlag data.flag).mapError badTx
    failIf (scan.mapNullDataTxCount.contains (data.asset_name, address))
      (badTx "bad-txns-null-data-only-one-change-per-asset-address")
    -- each tag that is added costs a burn fee
    let adds := isAssetNameAQualifier data.asset_name && data.flag == 1
    return { scan with
      mapNullDataTxCount := (data.asset_name, address) :: scan.mapNullDataTxCount
      nCountAddTagOuts := scan.nCountAddTagOuts + (if adds then 1 else 0) }
  else if txout.scriptPubKey.isNullGlobalRestrictionAssetTxDataScript then do
    let data ← orFail (globalAssetNullDataFromScript txout.scriptPubKey)
      (badTx "bad-txns-null-global-asset-data-serialization")
    (verifyNullAssetDataFlag data.flag).mapError badTx
    failIf (scan.setNullGlobalAssetChanges.contains data.asset_name)
      (badTx "bad-txns-null-data-only-one-global-change-per-asset-name")
    return { scan with
      setNullGlobalAssetChanges := insertInOrder data.asset_name scan.setNullGlobalAssetChanges }
  else if txout.scriptPubKey.isNullAssetVerifierTxDataScript then do
    (checkVerifierAssetTxOut txout).mapError badTx
    failIf scan.fContainsNullAssetVerifierTx (badTx "bad-txns-null-data-only-one-verifier-per-tx")
    return { scan with fContainsNullAssetVerifierTx := true }
  else .ok scan

/-- A transfer output. -/
def scanTransfer (scan : OutputScan) (txout : CTxOut) : Except CValidationError OutputScan := do
  let (transfer, _) ← orFail (transferAssetFromScript txout.scriptPubKey)
    (badTx "bad-txns-transfer-asset-bad-deserialize")
  let assetType ← (isAssetNameValid transfer.strName).mapError
    (fun _ => badTx "bad-txns-transfer-asset-name-invalid")
  failIf (isAssetNameAnOwner transfer.strName && transfer.nAmount != OWNER_ASSET_AMOUNT)
    (badTx "bad-txns-transfer-owner-amount-was-not-1")
  failIf (assetType == .UNIQUE && transfer.nAmount != UNIQUE_ASSET_AMOUNT)
    (badTx "bad-txns-transfer-unique-amount-was-not-1")
  failIf ((assetType == .QUALIFIER || assetType == .SUB_QUALIFIER) &&
      (decide (transfer.nAmount < QUALIFIER_ASSET_MIN_AMOUNT) ||
        decide (QUALIFIER_ASSET_MAX_AMOUNT < transfer.nAmount)))
    (badTx "bad-txns-transfer-qualifier-amount-must be between 1 - 100")
  failIf (txout.nValue != 0) (badTx "bad-txns-asset-transfer-amount-isn't-zero")
  return { scan with
    setAssetTransferNames := insertInOrder transfer.strName scan.setAssetTransferNames }

/-- An asset output. -/
def scanAsset (fMempoolCheck fBlockCheck : Bool) (scan : OutputScan) (txout : CTxOut) :
    Except CValidationError OutputScan :=
  match txout.scriptPubKey.assetScript with
  | none => .ok scan
  | some a =>
      match a.nType with
      | .TX_TRANSFER_ASSET => scanTransfer scan txout
      | .TX_NEW_ASSET => do
          failIf (txout.nValue != 0) (badTx "bad-txns-asset-issued-amount-isn't-zero")
          return scan
      | .TX_REISSUE_ASSET => do
          failIf (fBlockCheck && txout.nValue != 0)
            (dos 0 "bad-txns-asset-reissued-amount-isn't-zero")
          failIf (fMempoolCheck && txout.nValue != 0)
            (dos 0 "bad-mempool-txns-asset-reissued-amount-isn't-zero")
          return scan
      | _ => .error (dos 0 "bad-asset-type-not-any-of-the-main-three")

def scanOutput (fMempoolCheck fBlockCheck : Bool) (scan : OutputScan) (txout : CTxOut) :
    Except CValidationError OutputScan := do
  failIf (decide (txout.nValue < 0)) (badTx "bad-txns-vout-negative")
  failIf (decide (MAX_MONEY < txout.nValue)) (badTx "bad-txns-vout-toolarge")
  let nValueOut := scan.nValueOut + txout.nValue
  failIf (!moneyRange nValueOut) (badTx "bad-txns-txouttotal-toolarge")
  let scan ← scanNullAsset { scan with nValueOut := nValueOut } txout
  scanAsset fMempoolCheck fBlockCheck scan txout

def scanOutputs (fMempoolCheck fBlockCheck : Bool) : OutputScan → List CTxOut →
    Except CValidationError OutputScan
  | scan, [] => .ok scan
  | scan, txout :: vout => do
      let scan ← scanOutput fMempoolCheck fBlockCheck scan txout
      scanOutputs fMempoolCheck fBlockCheck scan vout

/-- `entry.first.first.front() == RESTRICTED_CHAR` -/
def isRestrictedChar (name : StdString) : Bool := (name.head?.map (isChar '$')).getD false

/-- Every null asset data output comes with a transfer of the token that permits it. -/
def checkNullDataTransfers (scan : OutputScan) : Check := do
  checkAll (fun name =>
      if isRestrictedChar name then
        failIf (!scan.setAssetTransferNames.contains (name.drop 1 ++ OWNER_TAG))
          (badTx "bad-txns-tx-contains-restricted-asset-null-tx-without-asset-transfer")
      else
        failIf (!scan.setAssetTransferNames.contains name)
          (badTx "bad-txns-tx-contains-qualifier-asset-null-tx-without-asset-transfer"))
    (scan.mapNullDataTxCount.foldl (fun names entry => insertInOrder entry.1 names) [])
  checkAll (fun name => do
      failIf name.isEmpty
        (badTx "bad-txns-tx-contains-global-asset-null-tx-with-null-asset-name")
      failIf (!scan.setAssetTransferNames.contains (name.drop 1 ++ OWNER_TAG))
        (badTx "bad-txns-tx-contains-global-asset-null-tx-without-asset-transfer"))
    scan.setNullGlobalAssetChanges

/-! ## The inputs -/

/-- The loop that inserts the spent outpoints into a set. -/
def checkDuplicateInputs : List COutPoint → List CTxIn → Check
  | _, [] => .ok ()
  | vInOutPoints, txin :: vin => do
      failIf (vInOutPoints.contains txin.prevout) (badTx "bad-txns-inputs-duplicate")
      checkDuplicateInputs (txin.prevout :: vInOutPoints) vin

/-- The checks on a coinbase transaction. -/
def checkCoinBase (params : CAssetParams) (tx : CTransaction) (nHeight : Int)
    (blockReward : CAmount) : Check := do
  let minCbSize : Nat := if tx.nType = TRANSACTION_COINBASE then 1 else 2
  let cbSize : Nat := (tx.vin.map (fun txin => txin.scriptSig.length)).headD 0
  failIf (decide (cbSize < minCbSize) || decide (100 < cbSize)) (badTx "bad-cb-length")
  failIf (areCoinbaseCheckAssetsDeployed && tx.vout.any (fun out =>
      out.scriptPubKey.isAssetScript || out.scriptPubKey.isNullAsset))
    (dos 0 "bad-txns-coinbase-contains-asset-txes")
  let founderReward := params.nFounderPayment.getFounderPaymentAmount nHeight blockReward
  let started := decide (params.nFounderPayment.startBlock < nHeight)
  failIf (started && founderReward != 0 &&
      !params.nFounderPayment.isBlockPayeeValid tx nHeight blockReward)
    (badTx "bad-cb-founder-payment-not-found")
  failIf (started && !params.isDIPDIP0003Active nHeight && founderReward != 0 &&
      tx.vout[1]?.map CTxOut.nValue != some founderReward)
    (badTx "bad-cb-community-autonomous-amount")

def checkInputOutPoints (params : CAssetParams) (tx : CTransaction) (nHeight : Int)
    (blockReward : CAmount) : Check :=
  if tx.isCoinBase then checkCoinBase params tx nHeight blockReward
  else failIf (tx.vin.any (fun txin => txin.prevout.isNull)) (dos 10 "bad-txns-prevout-null")

/-! ## What the transaction issues -/

/-- Whether a restricted asset is issued or reissued. -/
structure RestrictedFlags where
  fContainsNewRestrictedAsset : Bool := false
  fContainsRestrictedAssetReissue : Bool := false
deriving DecidableEq, Repr

def checkNewAssetTx (params : CAssetParams) (tx : CTransaction) : Check := do
  (tx.verifyNewAsset params).mapError badTx
  let (asset, strAddress) ← orFail (assetFromTransaction tx)
    (badTx "bad-txns-issue-asset-from-transaction")
  (isNewOwnerTxValid tx asset.strName strAddress).mapError badTx
  (checkNewAsset asset).mapError badTx

def checkReissueAssetTx (params : CAssetParams) (tx : CTransaction) :
    Except CValidationError RestrictedFlags := do
  (tx.verifyReissueAsset params).mapError badTx
  let (reissue, _) ← orFail (reissueAssetFromTransaction tx) (badTx "bad-txns-reissue-asset")
  (checkReissueAsset params reissue).mapError badTx
  if assetTypeOrInvalid reissue.strName = .RESTRICTED then
    match tx.getVerifierStringFromTx with
    | .error e =>
        failIf (!e.fNotFound) (badTx ("bad-txns-reissue-restricted-verifier-" ++ e.strError))
    | .ok _ => pure ()
    return { fContainsRestrictedAssetReissue := true }
  else return {}

def checkNewUniqueAssetTx (params : CAssetParams) (tx : CTransaction) : Check := do
  (tx.verifyNewUniqueAsset params).mapError badTx
  checkAll (fun out =>
      if isScriptNewUniqueAsset out.scriptPubKey then do
        let (asset, _) ← orFail (assetFromScript out.scriptPubKey)
          (badTx "bad-txns-check-transaction-issue-unique-asset-serialization")
        (checkNewAsset asset).mapError (fun e => badTx ("bad-txns-issue-unique" ++ e))
      else .ok ())
    tx.vout

def checkNewMsgChannelAssetTx (params : CAssetParams) (tx : CTransaction) : Check := do
  (tx.verifyNewMsgChannelAsset params).mapError badTx
  let (asset, _) ← orFail (msgChannelAssetFromTransaction tx)
    (badTx "bad-txns-issue-msgchannel-from-transaction")
  (checkNewAsset asset).mapError (fun e => badTx ("bad-txns-issue-msgchannel" ++ e))

def checkNewQualifierAssetTx (params : CAssetParams) (tx : CTransaction) : Check := do
  (tx.verifyNewQualfierAsset params).mapError badTx
  let (asset, _) ← orFail (qualifierAssetFromTransaction tx)
    (badTx "bad-txns-issue-qualifier-from-transaction")
  (checkNewAsset asset).mapError (fun e => badTx ("bad-txns-issue-qualfier" ++ e))

def checkNewRestrictedAssetTx (params : CAssetParams) (tx : CTransaction) :
    Except CValidationError RestrictedFlags := do
  (tx.verifyNewRestrictedAsset params).mapError badTx
  let (asset, _) ← orFail (restrictedAssetFromTransaction tx)
    (badTx "bad-txns-issue-restricted-from-transaction")
  (checkNewAsset asset).mapError (fun e => badTx ("bad-txns-issue-restricted" ++ e))
  let _ ← tx.getVerifierStringFromTx.mapError
    (fun e => badTx ("bad-txns-issue-restricted-verifier-search-" ++ e.strError))
  return { fContainsNewRestrictedAsset := true }

/-- A transaction that issues nothing has transfers as its only asset scripts. -/
def checkNoIssueTx (tx : CTransaction) (misplaced : String) : Check :=
  checkAll (fun out =>
      match out.scriptPubKey.assetScript with
      | some a => failIf (a.nType != .TX_TRANSFER_ASSET) (badTx "bad-txns-bad-asset-transaction")
      | none =>
          failIf (decide (0 < out.scriptPubKey.find OP_RVH_ASSET) &&
              out.scriptPubKey.at 0 != OP_RVH_ASSET)
            (badTx misplaced))
    tx.vout

def checkIssue (params : CAssetParams) (tx : CTransaction) :
    Except CValidationError RestrictedFlags :=
  match tx.issueKind with
  | .newAsset => (checkNewAssetTx params tx).map (fun _ => {})
  | .reissueAsset => checkReissueAssetTx params tx
  | .newUniqueAsset => (checkNewUniqueAssetTx params tx).map (fun _ => {})
  | .newMsgChannelAsset => (checkNewMsgChannelAssetTx params tx).map (fun _ => {})
  | .newQualifierAsset => (checkNewQualifierAssetTx params tx).map (fun _ => {})
  | .newRestrictedAsset => checkNewRestrictedAssetTx params tx
  | .none =>
      (checkNoIssueTx tx "bad-txns-op-RVH-asset-not-in-right-script-location").map (fun _ => {})

/-! ## `CheckTransaction` -/

def MAX_TX_EXTRA_PAYLOAD : Nat := 10000

def checkTransaction (params : CAssetParams) (tx : CTransaction) (nHeight : Int)
    (blockReward : CAmount) (fMempoolCheck : Bool := false) (fBlockCheck : Bool := false) : Check := do
  let allowEmptyTxInOut := tx.nType == TRANSACTION_QUORUM_COMMITMENT
  failIf (!allowEmptyTxInOut && tx.vin.isEmpty) (dos 10 "bad-txns-vin-empty")
  failIf (!allowEmptyTxInOut && tx.vout.isEmpty) (dos 10 "bad-txns-vout-empty")
  failIf (decide (getMaxBlockWeight < tx.serializeSize * WITNESS_SCALE_FACTOR))
    (badTx "bad-txns-oversize")
  failIf (decide (MAX_TX_EXTRA_PAYLOAD < tx.vExtraPayload.length)) (badTx "bad-txns-payload-oversize")
  let scan ← scanOutputs fMempoolCheck fBlockCheck {} tx.vout
  failIf (decide (scan.nCountAddTagOuts ≠ 0) &&
      !tx.checkAddingTagBurnFee params scan.nCountAddTagOuts)
    (badTx "bad-txns-tx-doesn't-contain-required-burn-fee-for-adding-tags")
  checkNullDataTransfers scan
  checkDuplicateInputs [] tx.vin
  checkInputOutPoints params tx nHeight blockReward
  let flags ← checkIssue params tx
  failIf (scan.fContainsNullAssetVerifierTx && !flags.fContainsRestrictedAssetReissue &&
      !flags.fContainsNewRestrictedAsset)
    (badTx "bad-txns-tx-cointains-verifier-string-without-restricted-asset-issuance-or-reissuance")
  failIf (flags.fContainsNewRestrictedAsset && !scan.fContainsNullAssetVerifierTx)
    (badTx "bad-txns-tx-cointains-restricted-asset-issuance-without-verifier")

/-- The parts of a passed `CheckTransaction`. -/
theorem checkTransaction_ok {params : CAssetParams} {tx : CTransaction} {nHeight : Int}
    {blockReward : CAmount} {fMempoolCheck fBlockCheck : Bool}
    (h : checkTransaction params tx nHeight blockReward fMempoolCheck fBlockCheck = .ok ()) :
    ∃ scan flags, scanOutputs fMempoolCheck fBlockCheck {} tx.vout = .ok scan ∧
      checkNullDataTransfers scan = .ok () ∧ checkDuplicateInputs [] tx.vin = .ok () ∧
      checkInputOutPoints params tx nHeight blockReward = .ok () ∧
      checkIssue params tx = .ok flags := by
  unfold checkTransaction at h
  simp only [bind_ok, failIf_ok] at h
  obtain ⟨_, _, _, _, _, _, _, _, scan, hscan, _, _, _, hnull, _, hdup, _, hin, flags, hissue, _⟩ := h
  exact ⟨scan, flags, hscan, hnull, hdup, hin, hissue⟩

end

end RavenCash
