import RavenCash.Basic.Primitives

/-!
# The parameters of the quorums

`Consensus::LLMQParams` with the tables of `chainparams.cpp`, and `CChainParams::UpdateLLMQParams`,
which exchanges the tables for those that fit the number of smartnodes.

The three kinds of quorums are always configured. A kind read from a message can be any byte. The
names of the tables are left out, they are only logged.
-/

set_option autoImplicit false

namespace RavenCash.Evo.Llmq

/-! ## Tables -/

inductive LLMQType where
  | LLMQ_50_60
  | LLMQ_400_60
  | LLMQ_400_85
  | unconfigured (value : UInt8)
deriving DecidableEq, Repr

structure LLMQParams where
  type : LLMQType
  size : Nat
  minSize : Nat
  threshold : Nat
  dkgInterval : Int
  dkgPhaseBlocks : Int
  dkgMiningWindowStart : Int
  dkgMiningWindowEnd : Int
  dkgBadVotesThreshold : Nat
  signingActiveQuorumCount : Nat
  keepOldConnections : Int
deriving DecidableEq, Repr

/-- What the tables for `LLMQ_50_60` have in common. -/
def hourly (size minSize threshold dkgBadVotesThreshold signingActiveQuorumCount : Nat)
    (keepOldConnections : Int) : LLMQParams where
  type := .LLMQ_50_60
  size := size
  minSize := minSize
  threshold := threshold
  dkgInterval := 30
  dkgPhaseBlocks := 2
  dkgMiningWindowStart := 10
  dkgMiningWindowEnd := 18
  dkgBadVotesThreshold := dkgBadVotesThreshold
  signingActiveQuorumCount := signingActiveQuorumCount
  keepOldConnections := keepOldConnections

/-- What the tables for `LLMQ_400_60` have in common. -/
def halfDaily (size minSize threshold dkgBadVotesThreshold : Nat) : LLMQParams where
  type := .LLMQ_400_60
  size := size
  minSize := minSize
  threshold := threshold
  dkgInterval := 30 * 12
  dkgPhaseBlocks := 4
  dkgMiningWindowStart := 20
  dkgMiningWindowEnd := 28
  dkgBadVotesThreshold := dkgBadVotesThreshold
  signingActiveQuorumCount := 4
  keepOldConnections := 5

/-- What the tables for `LLMQ_400_85` have in common. -/
def daily (size minSize threshold dkgBadVotesThreshold : Nat) : LLMQParams where
  type := .LLMQ_400_85
  size := size
  minSize := minSize
  threshold := threshold
  dkgInterval := 30 * 24
  dkgPhaseBlocks := 4
  dkgMiningWindowStart := 20
  dkgMiningWindowEnd := 48
  dkgBadVotesThreshold := dkgBadVotesThreshold
  signingActiveQuorumCount := 4
  keepOldConnections := 5

def llmq200_2 : LLMQParams := hourly 200 2 2 8 2 3
def llmq3_60 : LLMQParams := hourly 3 2 2 8 2 3
def llmq10_60 : LLMQParams := hourly 10 8 7 8 6 7
def llmq50_60 : LLMQParams := hourly 50 40 30 40 24 25
def llmq5_60 : LLMQParams := halfDaily 5 4 3 30
def llmq20_60 : LLMQParams := halfDaily 20 15 12 30
def llmq40_60 : LLMQParams := halfDaily 40 30 24 30
def llmq400_60 : LLMQParams := halfDaily 400 300 240 300
def llmq5_85 : LLMQParams := daily 5 4 3 30
def llmq20_85 : LLMQParams := daily 20 18 17 30
def llmq40_85 : LLMQParams := daily 40 35 34 30
def llmq400_85 : LLMQParams := daily 400 350 340 300

/-- `consensus.llmqs` -/
structure Llmqs where
  llmq_50_60 : LLMQParams
  llmq_400_60 : LLMQParams
  llmq_400_85 : LLMQParams
deriving DecidableEq, Repr

/-- `llmqs.at(type)`, which throws for a kind that is not there. -/
def Llmqs.at (llmqs : Llmqs) : LLMQType → Option LLMQParams
  | .LLMQ_50_60 => some llmqs.llmq_50_60
  | .LLMQ_400_60 => some llmqs.llmq_400_60
  | .LLMQ_400_85 => some llmqs.llmq_400_85
  | .unconfigured _ => none

def Llmqs.all (llmqs : Llmqs) : List LLMQParams :=
  [llmqs.llmq_50_60, llmqs.llmq_400_60, llmqs.llmq_400_85]

theorem Llmqs.mem_all_of_at {llmqs : Llmqs} {type : LLMQType} {params : LLMQParams}
    (h : llmqs.at type = some params) : params ∈ llmqs.all := by
  cases type <;> simp_all [Llmqs.at, Llmqs.all]

def isMiningPhase (params : LLMQParams) (nHeight : Int) : Bool :=
  let phaseIndex := nHeight % params.dkgInterval
  decide (params.dkgMiningWindowStart ≤ phaseIndex) &&
    decide (phaseIndex ≤ params.dkgMiningWindowEnd)

/-! ## The tables of a node -/

inductive Network where
  | main
  | test
  | dev
  | regtest
deriving DecidableEq, Repr

/-- The tables that a chain starts with. -/
def Network.llmqs : Network → Llmqs
  | .main | .test | .regtest => ⟨llmq3_60, llmq20_60, llmq20_85⟩
  | .dev => ⟨llmq50_60, llmq400_60, llmq400_85⟩

/-- The tables with what the last update looked at. A quorum always needs members. -/
structure CChainParams where
  network : Network
  llmqs : Llmqs
  lastCheckMnCount : Nat := 0
  lastCheckHeight : Int := 0
  lastCheckedLowLLMQParams : Bool := false
  positive : ∀ params ∈ llmqs.all, 0 < params.minSize ∧ 0 < params.threshold

/-- The parameters of a chain before the first update. -/
def Network.chainParams (network : Network) : CChainParams where
  network := network
  llmqs := network.llmqs
  positive := by cases network <;> decide

def isLLMQsMiningPhase (llmqs : Llmqs) (nHeight : Int) : Bool := llmqs.all.any (isMiningPhase · nHeight)

/-- The tables for a number of smartnodes. -/
def Network.llmqsFor (network : Network) (totalMnCount : Nat) (lowLLMQParams : Bool) : Llmqs :=
  let llmqs : Llmqs :=
    if totalMnCount < 5 then
      if network = .test then ⟨llmq3_60, llmq5_60, llmq5_85⟩ else ⟨llmq3_60, llmq20_60, llmq20_85⟩
    else if totalMnCount < 100 then ⟨llmq10_60, llmq20_60, llmq20_85⟩
    else if totalMnCount < 600 then ⟨llmq50_60, llmq40_60, llmq40_85⟩
    else ⟨llmq50_60, llmq400_60, llmq400_85⟩
  if lowLLMQParams then { llmqs with llmq_50_60 := llmq200_2 } else llmqs

theorem Network.positive_llmqsFor (network : Network) (totalMnCount : Nat) (lowLLMQParams : Bool) :
    ∀ params ∈ (network.llmqsFor totalMnCount lowLLMQParams).all, 0 < params.minSize ∧ 0 < params.threshold := by
  unfold Network.llmqsFor
  dsimp only
  split_ifs <;> decide

/-- `UpdateLLMQParams`. Outside of the mining phases, or the first time, the tables are exchanged. -/
def CChainParams.updateLLMQParams (chain : CChainParams) (totalMnCount : Nat) (height : Int) (lowLLMQParams : Bool) :
    CChainParams :=
  if chain.lastCheckHeight < height ∧
      (chain.lastCheckMnCount ≠ totalMnCount ∨ chain.lastCheckedLowLLMQParams ≠ lowLLMQParams) ∧
      (isLLMQsMiningPhase chain.llmqs height = false ∨ chain.lastCheckHeight = 0) then
    { network := chain.network
      llmqs := chain.network.llmqsFor totalMnCount lowLLMQParams
      lastCheckMnCount := totalMnCount
      lastCheckHeight := height
      lastCheckedLowLLMQParams := lowLLMQParams
      positive := chain.network.positive_llmqsFor totalMnCount lowLLMQParams }
  else chain

end RavenCash.Evo.Llmq
