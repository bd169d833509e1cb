import RavenCash.Assets.Types
import RavenCash.Basic.Params

/-!
# Asset data in scripts

How the asset records are serialized (`assets/assettypes.h`), how they are appended to a script
(`ConstructTransaction`) and how they are read back (`AssetFromScript`, `TransferAssetFromScript`, …
of `assets/assets.cpp`). Every reader returns the record and the address of the script; `none` is
its `false`.
-/

set_option autoImplicit false

namespace RavenCash

/-! ## Records -/

def IPFS_SHA2_256 : UInt8 := 0x12
def TXID_NOTIFIER : UInt8 := 0x54
def IPFS_SHA2_256_LEN : UInt8 := 0x20

/-- `ReadWriteAssetHash` when writing. -/
def serializeAssetHash (strIPFSHash : StdString) : List UInt8 :=
  if strIPFSHash.length = 34 then IPFS_SHA2_256 :: serializeString (strIPFSHash.drop 2)
  else if strIPFSHash.length = 32 then TXID_NOTIFIER :: serializeString strIPFSHash
  else []

/-- `ReadWriteAssetHash` when reading: a hash is there if at least 33 bytes are left. -/
def readAssetHash : Reader (Option StdString) := do
  if 33 ≤ (← get).length then
    let _sha2_256 ← readBytes 1
    let hash ← readString
    if _sha2_256 = [IPFS_SHA2_256] then
      return some (IPFS_SHA2_256 :: IPFS_SHA2_256_LEN :: hash.take 32)
    else return some (hash.take 32)
  else return none

def CNewAsset.serialize (asset : CNewAsset) : List UInt8 :=
  serializeString asset.strName ++ serializeInt64 asset.nAmount ++ serializeInt8 asset.units ++
    serializeInt8 asset.nReissuable ++ serializeInt8 asset.nHasIPFS ++
    (if asset.nHasIPFS = 1 then serializeAssetHash asset.strIPFSHash else [])

def readNewAsset : Reader CNewAsset := do
  let strName ← readString
  let nAmount ← readInt64
  let units ← readInt8
  let nReissuable ← readInt8
  let nHasIPFS ← readInt8
  let strIPFSHash ← if nHasIPFS = 1 then readAssetHash else pure none
  return ⟨strName, nAmount, units, nReissuable, nHasIPFS, strIPFSHash.getD []⟩

def CAssetTransfer.serialize (transfer : CAssetTransfer) : List UInt8 :=
  let validIPFS := transfer.message.length = 34 ∨ transfer.message.length = 32
  serializeString transfer.strName ++ serializeInt64 transfer.nAmount ++
    serializeAssetHash transfer.message ++
    (if validIPFS ∧ transfer.nExpireTime ≠ 0 then serializeInt64 transfer.nExpireTime else [])

def readAssetTransfer : Reader CAssetTransfer := do
  let strName ← readString
  let nAmount ← readInt64
  let message ← readAssetHash
  if message.isSome ∧ 8 ≤ (← get).length then
    return ⟨strName, nAmount, message.getD [], ← readInt64⟩
  else return ⟨strName, nAmount, message.getD [], 0⟩

def CReissueAsset.serialize (reissue : CReissueAsset) : List UInt8 :=
  serializeString reissue.strName ++ serializeInt64 reissue.nAmount ++
    serializeInt8 reissue.nUnits ++ serializeInt8 reissue.nReissuable ++
    serializeAssetHash reissue.strIPFSHash

def readReissueAsset : Reader CReissueAsset := do
  let strName ← readString
  let nAmount ← readInt64
  let nUnits ← readInt8
  let nReissuable ← readInt8
  let strIPFSHash ← readAssetHash
  return ⟨strName, nAmount, nUnits, nReissuable, strIPFSHash.getD []⟩

def CNullAssetTxData.serialize (data : CNullAssetTxData) : List UInt8 :=
  serializeString data.asset_name ++ serializeInt8 data.flag

def readNullAssetTxData : Reader CNullAssetTxData := do
  let asset_name ← readString
  let flag ← readInt8
  return ⟨asset_name, flag⟩

def CNullAssetTxVerifierString.serialize (verifier : CNullAssetTxVerifierString) : List UInt8 :=
  serializeString verifier.verifier_string

def readNullAssetTxVerifierString : Reader CNullAssetTxVerifierString := do
  return ⟨← readString⟩

/-! ## Writing scripts -/

/-- `script << OP_RVH_ASSET << vchMessage << OP_DROP` with the marker bytes and the kind in front of
the data. -/
def constructAssetScript (kind : UInt8) (data : List UInt8) (script : CScript) : CScript :=
  ((script.op OP_RVH_ASSET).push ([RVH_N, RVH_E, RVH_X, kind] ++ data)).op OP_DROP

def CNewAsset.constructTransaction (asset : CNewAsset) (script : CScript) : CScript :=
  constructAssetScript RVH_Q asset.serialize script

def CNewAsset.constructOwnerTransaction (asset : CNewAsset) (script : CScript) : CScript :=
  constructAssetScript RVH_O (serializeString (asset.strName ++ OWNER_TAG)) script

def CAssetTransfer.constructTransaction (transfer : CAssetTransfer) (script : CScript) : CScript :=
  constructAssetScript RVH_T transfer.serialize script

def CReissueAsset.constructTransaction (reissue : CReissueAsset) (script : CScript) : CScript :=
  constructAssetScript RVH_N reissue.serialize script

def CNullAssetTxData.constructTransaction (data : CNullAssetTxData) (script : CScript) : CScript :=
  script.push data.serialize

def CNullAssetTxData.constructGlobalRestrictionTransaction (data : CNullAssetTxData)
    (script : CScript) : CScript :=
  (((script.op OP_RVH_ASSET).op OP_RESERVED).op OP_RESERVED).push data.serialize

def CNullAssetTxVerifierString.constructTransaction (verifier : CNullAssetTxVerifierString)
    (script : CScript) : CScript :=
  ((script.op OP_RVH_ASSET).op OP_RESERVED).push verifier.serialize

/-! ## Reading scripts -/

section

variable [NodeCrypto]

/-- The address of a script: `EncodeDestination` of what `ExtractDestination` finds. -/
def scriptAddress (s : CScript) : StdString := NodeCrypto.encodeDestination (extractDestination s)

/-- The record read from position `nStartingIndex` of the script, with the address. -/
def recordFromScript {α : Type} (r : Reader α) (s : CScript) (nStartingIndex : Nat) :
    Option (α × StdString) :=
  (unserialize r (s.drop nStartingIndex)).map (fun a => (a, scriptAddress s))

def assetFromScript (s : CScript) : Option (CNewAsset × StdString) :=
  (isScriptNewAsset s).bind (recordFromScript readNewAsset s)

def ownerAssetFromScript (s : CScript) : Option (StdString × StdString) :=
  (isScriptOwnerAsset s).bind (recordFromScript readString s)

def reissueAssetFromScript (s : CScript) : Option (CReissueAsset × StdString) :=
  (isScriptReissueAsset s).bind (recordFromScript readReissueAsset s)

/-- Before the script size deployment the data was taken from position 31 in every case. -/
def transferAssetFromScript (s : CScript) : Option (CAssetTransfer × StdString) :=
  (isScriptTransferAsset s).bind (fun nStartingIndex =>
    if areTransferScriptsSizeDeployed then recordFromScript readAssetTransfer s nStartingIndex
    else recordFromScript readAssetTransfer s 31)

/-- The type of the name in a new asset script. -/
def newAssetType (s : CScript) : Option AssetType :=
  (assetFromScript s).bind (fun a => assetTypeOf a.1.strName)

/-- The start of the data of a new asset script whose asset is of one of the types. -/
def isScriptNewAssetOf (types : List AssetType) (s : CScript) : Option Nat :=
  match s.assetScript, newAssetType s with
  | some a, some type => if type ∈ types then some a.nStartingIndex else none
  | _, _ => none

def isScriptNewUniqueAsset (s : CScript) : Bool := (isScriptNewAssetOf [.UNIQUE] s).isSome

def isScriptNewMsgChannelAsset (s : CScript) : Option Nat := isScriptNewAssetOf [.MSGCHANNEL] s

def isScriptNewQualifierAsset (s : CScript) : Option Nat :=
  isScriptNewAssetOf [.QUALIFIER, .SUB_QUALIFIER] s

def isScriptNewRestrictedAsset (s : CScript) : Option Nat := isScriptNewAssetOf [.RESTRICTED] s

def msgChannelAssetFromScript (s : CScript) : Option (CNewAsset × StdString) :=
  (isScriptNewMsgChannelAsset s).bind (recordFromScript readNewAsset s)

def qualifierAssetFromScript (s : CScript) : Option (CNewAsset × StdString) :=
  (isScriptNewQualifierAsset s).bind (recordFromScript readNewAsset s)

def restrictedAssetFromScript (s : CScript) : Option (CNewAsset × StdString) :=
  (isScriptNewRestrictedAsset s).bind (recordFromScript readNewAsset s)

def OFFSET_THREE : Nat := 3
def OFFSET_FOUR : Nat := 4
def OFFSET_TWENTY_THREE : Nat := 23

def assetNullDataFromScript (s : CScript) : Option (CNullAssetTxData × StdString) :=
  if s.isNullAssetTxDataScript then recordFromScript readNullAssetTxData s OFFSET_TWENTY_THREE
  else none

end

def globalAssetNullDataFromScript (s : CScript) : Option CNullAssetTxData :=
  if s.isNullGlobalRestrictionAssetTxDataScript then
    unserialize readNullAssetTxData (s.drop OFFSET_FOUR)
  else none

def assetNullVerifierDataFromScript (s : CScript) : Option CNullAssetTxVerifierString :=
  if s.isNullAssetVerifierTxDataScript then
    unserialize readNullAssetTxVerifierString (s.drop OFFSET_THREE)
  else none

/-! ## The asset an output carries -/

/-- What `GetAssetData` fills in. -/
structure CAssetOutputEntry where
  type : TxnOutType
  assetName : StdString
  destination : CTxDestination
  nAmount : CAmount
  message : StdString := []
  expireTime : Int64 := 0
deriving DecidableEq, Repr

section

variable [NodeCrypto]

/-- `GetAssetData`. When `AssetFromScript` fails so do the readers of the other new assets, and their
branches would end in `false` anyway. -/
def getAssetData (script : CScript) : Option CAssetOutputEntry :=
  match script.assetScript with
  | none => none
  | some ⟨.TX_NEW_ASSET, false, _⟩ =>
      (assetFromScript script).map (fun (asset, address) =>
        { type := .TX_NEW_ASSET
          assetName := asset.strName
          destination := NodeCrypto.decodeDestination address
          nAmount := asset.nAmount })
  | some ⟨.TX_TRANSFER_ASSET, _, _⟩ =>
      (transferAssetFromScript script).map (fun (transfer, address) =>
        { type := .TX_TRANSFER_ASSET
          assetName := transfer.strName
          destination := NodeCrypto.decodeDestination address
          nAmount := transfer.nAmount
          message := transfer.message
          expireTime := transfer.nExpireTime })
  | some ⟨.TX_NEW_ASSET, true, _⟩ =>
      (ownerAssetFromScript script).map (fun (assetName, address) =>
        { type := .TX_NEW_ASSET
          assetName := assetName
          destination := NodeCrypto.decodeDestination address
          nAmount := OWNER_ASSET_AMOUNT })
  | some ⟨.TX_REISSUE_ASSET, _, _⟩ =>
      (reissueAssetFromScript script).map (fun (reissue, address) =>
        { type := .TX_REISSUE_ASSET
          assetName := reissue.strName
          destination := NodeCrypto.decodeDestination address
          nAmount := reissue.nAmount })
  | some _ => none

end

/-! ## Unspendable outputs -/

/-- `AmountFromNewAssetScript` -/
def amountFromNewAssetScript (s : CScript) : Option CAmount :=
  (isScriptNewAsset s).bind (fun i => (unserialize readNewAsset (s.drop i)).map CNewAsset.nAmount)

def amountFromTransferScript (s : CScript) : Option CAmount :=
  (isScriptTransferAsset s).bind
    (fun i => (unserialize readAssetTransfer (s.drop i)).map CAssetTransfer.nAmount)

def amountFromReissueScript (s : CScript) : Option CAmount :=
  (isScriptReissueAsset s).bind
    (fun i => (unserialize readReissueAsset (s.drop i)).map CReissueAsset.nAmount)

/-- `GetAssetAmountFromScript` -/
def getAssetAmountFromScript (script : CScript) : Option CAmount :=
  match script.assetScript with
  | none => none
  | some ⟨.TX_NEW_ASSET, false, _⟩ => amountFromNewAssetScript script
  | some ⟨.TX_TRANSFER_ASSET, _, _⟩ => amountFromTransferScript script
  | some ⟨.TX_NEW_ASSET, true, _⟩ => some OWNER_ASSET_AMOUNT
  | some ⟨.TX_REISSUE_ASSET, _, _⟩ => amountFromReissueScript script
  | some _ => none

def CScript.isUnspendable (s : CScript) : Bool :=
  (decide (0 < s.length) && s.at 0 == OP_RETURN) ||
    (decide (0 < s.length) && s.at 0 == OP_RVH_ASSET) ||
    decide (MAX_SCRIPT_SIZE < s.length) ||
    getAssetAmountFromScript s == some 0

end RavenCash
