import RavenCash.Assets.Names
import RavenCash.Script.Standard

/-!
# Deployments and chain parameters

Which soft forks the node takes as active (`AreAssetsDeployed`, … of `validation.cpp`), what it costs
to issue an asset and where that is burned, and the founder payment (`chainparams.cpp`,
`founder_payment.cpp`).
-/

set_option autoImplicit false

namespace RavenCash

/-! ## Deployments

The flags of `consensus/consensus.h` are set from the start and nothing clears them, so none of these
functions comes to ask for the version bits state of its deployment. -/

def fAssetsIsActive : Bool := true
def fRip5IsActive : Bool := true
def fTransferScriptIsActive : Bool := true
def fCheckCoinbaseAssetsIsActive : Bool := true

def areAssetsDeployed : Bool := fAssetsIsActive

def areMessagesDeployed : Bool := fRip5IsActive

def areRestrictedAssetsDeployed : Bool := fRip5IsActive

def areTransferScriptsSizeDeployed : Bool := fTransferScriptIsActive

def areCoinbaseCheckAssetsDeployed : Bool := fCheckCoinbaseAssetsIsActive

@[simp] theorem areAssetsDeployed_eq : areAssetsDeployed = true := rfl

@[simp] theorem areMessagesDeployed_eq : areMessagesDeployed = true := rfl

@[simp] theorem areRestrictedAssetsDeployed_eq : areRestrictedAssetsDeployed = true := rfl

@[simp] theorem areTransferScriptsSizeDeployed_eq : areTransferScriptsSizeDeployed = true := rfl

@[simp] theorem areCoinbaseCheckAssetsDeployed_eq : areCoinbaseCheckAssetsDeployed = true := rfl

/-! ## Founder payment -/

structure FounderRewardStructure where
  blockHeight : Int
  rewardPercentage : Int64
deriving DecidableEq, Repr

structure FounderPayment where
  rewardStructures : List FounderRewardStructure
  startBlock : Int
  founderAddress : StdString := bytes "RJmHAW6A52BucomdgeHaxynLXkSMkdbFov"
deriving DecidableEq, Repr

def INT_MAX : Int := 2 ^ 31 - 1

def FounderPayment.getFounderPaymentAmount (p : FounderPayment) (blockHeight : Int)
    (blockReward : CAmount) : CAmount :=
  if blockHeight < p.startBlock then 0
  else
    match p.rewardStructures.find? (fun r =>
      r.blockHeight == INT_MAX || decide (blockHeight ≤ r.blockHeight)) with
    | some r => blockReward * r.rewardPercentage / 100
    | none => 0

def FounderPayment.isBlockPayeeValid [NodeCrypto] (p : FounderPayment) (txNew : CTransaction)
    (height : Int) (blockReward : CAmount) : Bool :=
  let payee := getScriptForDestination (NodeCrypto.decodeDestination p.founderAddress)
  let founderReward := p.getFounderPaymentAmount height blockReward
  txNew.vout.any (fun out => out.scriptPubKey == payee && decide (founderReward ≤ out.nValue))

/-! ## Burn amounts and addresses -/

/-- The part of `CChainParams` that the checks of transactions and blocks read. -/
structure CAssetParams where
  strNetworkID : String
  hashGenesisBlock : UInt256
  nIssueAssetBurnAmount : CAmount
  nReissueAssetBurnAmount : CAmount
  nIssueSubAssetBurnAmount : CAmount
  nIssueUniqueAssetBurnAmount : CAmount
  nIssueMsgChannelAssetBurnAmount : CAmount
  nIssueQualifierAssetBurnAmount : CAmount
  nIssueSubQualifierAssetBurnAmount : CAmount
  nIssueRestrictedAssetBurnAmount : CAmount
  nAddNullQualifierTagBurnAmount : CAmount
  strIssueAssetBurnAddress : StdString
  strReissueAssetBurnAddress : StdString
  strIssueSubAssetBurnAddress : StdString
  strIssueUniqueAssetBurnAddress : StdString
  strIssueMsgChannelAssetBurnAddress : StdString
  strIssueQualifierAssetBurnAddress : StdString
  strIssueSubQualifierAssetBurnAddress : StdString
  strIssueRestrictedAssetBurnAddress : StdString
  strAddNullQualifierTagBurnAddress : StdString
  nFounderPayment : FounderPayment
  DIP0003Height : Int

/-- `isDIPDIP0003Active(nHeight)` for the height of a block. -/
def CAssetParams.isDIPDIP0003Active (p : CAssetParams) (nHeight : Int) : Bool :=
  decide (p.DIP0003Height ≤ nHeight)

def CAssetParams.getBurnAmount (p : CAssetParams) : AssetType → CAmount
  | .ROOT => p.nIssueAssetBurnAmount
  | .SUB => p.nIssueSubAssetBurnAmount
  | .MSGCHANNEL => p.nIssueMsgChannelAssetBurnAmount
  | .OWNER => 0
  | .UNIQUE => p.nIssueUniqueAssetBurnAmount
  | .VOTE => 0
  | .REISSUE => p.nReissueAssetBurnAmount
  | .QUALIFIER => p.nIssueQualifierAssetBurnAmount
  | .SUB_QUALIFIER => p.nIssueSubQualifierAssetBurnAmount
  | .RESTRICTED => p.nIssueRestrictedAssetBurnAmount
  | .NULL_ADD_QUALIFIER => p.nAddNullQualifierTagBurnAmount
  | .INVALID => 0

def CAssetParams.getBurnAddress (p : CAssetParams) : AssetType → StdString
  | .ROOT => p.strIssueAssetBurnAddress
  | .SUB => p.strIssueSubAssetBurnAddress
  | .MSGCHANNEL => p.strIssueMsgChannelAssetBurnAddress
  | .OWNER => []
  | .UNIQUE => p.strIssueUniqueAssetBurnAddress
  | .VOTE => []
  | .REISSUE => p.strReissueAssetBurnAddress
  | .QUALIFIER => p.strIssueQualifierAssetBurnAddress
  | .SUB_QUALIFIER => p.strIssueSubQualifierAssetBurnAddress
  | .RESTRICTED => p.strIssueRestrictedAssetBurnAddress
  | .NULL_ADD_QUALIFIER => p.strAddNullQualifierTagBurnAddress
  | .INVALID => []

def mainAssetParams : CAssetParams where
  strNetworkID := "main"
  hashGenesisBlock := 0x000504915e6a607b9cc64bae35fb27dd42afe89449cb058572aeedb605adf579
  nIssueAssetBurnAmount := 500 * COIN
  nReissueAssetBurnAmount := 100 * COIN
  nIssueSubAssetBurnAmount := 100 * COIN
  nIssueUniqueAssetBurnAmount := 5 * COIN
  nIssueMsgChannelAssetBurnAmount := 100 * COIN
  nIssueQualifierAssetBurnAmount := 1000 * COIN
  nIssueSubQualifierAssetBurnAmount := 100 * COIN
  nIssueRestrictedAssetBurnAmount := 1500 * COIN
  nAddNullQualifierTagBurnAmount := COIN / 10
  strIssueAssetBurnAddress := bytes "RRSSxyoCq6SNz7DxXwFvZqSinbfPiy2wB1"
  strReissueAssetBurnAddress := bytes "RYUfkfKUH1TEAkoDMZJkpsiswTpDCMjLci"
  strIssueSubAssetBurnAddress := bytes "RH2ppnksCDRA6VNJMgVwfWr1uoCwiNpoUz"
  strIssueUniqueAssetBurnAddress := bytes "RKbhAq9CjaJn7ti5786q67beTBEguXkqQw"
  strIssueMsgChannelAssetBurnAddress := bytes "RQJCqaesLXmsnRhXYidtLj6xMmgqm2H1Wz"
  strIssueQualifierAssetBurnAddress := bytes "RQTueJJ7Edq7gTjUURP2KXemL5GosVs2Jj"
  strIssueSubQualifierAssetBurnAddress := bytes "RW1dWGKtrUeiaCMZ2yn8V64j2oAwWvssY9"
  strIssueRestrictedAssetBurnAddress := bytes "RDoVSboFSUFysWCkg4oVnS2aQURVtVm3MN"
  strAddNullQualifierTagBurnAddress := bytes "RU3cZEGXZjLibrsE92G7UGZbcfxP9X98ty"
  nFounderPayment := ⟨[⟨INT_MAX, 5⟩], 1, bytes "RJmHAW6A52BucomdgeHaxynLXkSMkdbFov"⟩
  DIP0003Height := 1

end RavenCash
