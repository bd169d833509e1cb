import RavenCash.Evo.ChainView

/-!
# The commitments in blocks

`CQuorumBlockProcessor` of `llmq/quorums_blockprocessor.cpp`: while the commitment of a quorum is to be
mined, every block has one, which may be null; the first that is not null is written to the database
under the hash of the quorum's first block, and then there are no more. `HasMinedCommitment` remembers
its answers.

A block is processed within a transaction of the database that is committed or dropped; the cache is
not part of it. The pool of commitments that wait to be mined is left out, blocks are accepted without
it. A block is on top of `pprev`, which is the tip of the active chain.
-/

set_option autoImplicit false

namespace RavenCash.Evo.Llmq

/-- The byte that stands for a kind. -/
def LLMQType.value : LLMQType → UInt8
  | .LLMQ_50_60 => 1
  | .LLMQ_400_60 => 2
  | .LLMQ_400_85 => 3
  | .unconfigured value => value

/-- What every table has: the kind it is listed under, a window that begins after the first block of a
session, and active quorums. -/
structure Llmqs.Proper (llmqs : Llmqs) : Prop where
  type : ∀ llmqType params, llmqs.at llmqType = some params → params.type = llmqType
  interval : ∀ params ∈ llmqs.all, 0 < params.dkgInterval
  window : ∀ params ∈ llmqs.all, 0 < params.dkgMiningWindowStart
  active : ∀ params ∈ llmqs.all, 0 < params.signingActiveQuorumCount

theorem Llmqs.proper_mk {a b c : LLMQParams} (htypes : a.type = .LLMQ_50_60 ∧ b.type = .LLMQ_400_60 ∧
      c.type = .LLMQ_400_85)
    (h : ∀ params ∈ [a, b, c], 0 < params.dkgInterval ∧ 0 < params.dkgMiningWindowStart ∧
      0 < params.signingActiveQuorumCount) :
    Llmqs.Proper ⟨a, b, c⟩ := by
  refine ⟨fun llmqType params hat => ?_, fun params hp => (h params hp).1,
    fun params hp => (h params hp).2.1, fun params hp => (h params hp).2.2⟩
  obtain ⟨ha, hb, hc⟩ := htypes
  cases llmqType with
  | LLMQ_50_60 => rw [← Option.some.inj hat, ha]
  | LLMQ_400_60 => rw [← Option.some.inj hat, hb]
  | LLMQ_400_85 => rw [← Option.some.inj hat, hc]
  | unconfigured value => cases hat

theorem proper_llmqs (network : Network) : network.llmqs.Proper := by
  cases network <;> exact Llmqs.proper_mk (by decide) (by decide)

/-! ## The quorum of a height -/

/-- `GetBlockHash` for the chain that ends in `tip`. -/
def getBlockHash (tip : CBlockIndex) (nBlockHeight : Int) : Option UInt256 :=
  if nBlockHeight < -1 ∨ tip.nHeight < nBlockHeight then none
  else if nBlockHeight = -1 then some tip.hash
  else (tip.getAncestor nBlockHeight).map CBlockIndex.hash

def quorumStartHeight (params : LLMQParams) (nHeight : Int) : Int :=
  nHeight - nHeight % params.dkgInterval

/-- Null for the first block of the session: its hash is not known yet. -/
def getQuorumBlockHash (params : LLMQParams) (tip : CBlockIndex) (nHeight : Int) : UInt256 :=
  (getBlockHash tip (quorumStartHeight params nHeight)).getD 0

/-- The height in the keys of `DB_MINED_COMMITMENT_BY_INVERSED_HEIGHT`, for the latest to come first. -/
def inversedHeight (nMinedHeight : Int) : UInt32 := .ofInt (2 ^ 32 - 1 - nMinedHeight)

section

variable [EvoCrypto]

/-! ## The processor -/

/-- The entries of the processor. -/
structure QuorumDb where
  /-- `DB_MINED_COMMITMENT`: the commitment and the block that mined it -/
  mined : FiniteMap (LLMQType × UInt256) (CFinalCommitment × UInt256) := ∅
  /-- `DB_MINED_COMMITMENT_BY_INVERSED_HEIGHT`: the height of the quorum -/
  minedByInversedHeight : FiniteMap (LLMQType × UInt32) Int := ∅
  /-- `DB_BEST_BLOCK_UPGRADE` -/
  bestBlockUpgrade : Option UInt256 := none

structure CQuorumBlockProcessor where
  /-- What the current transaction shows. -/
  evoDb : QuorumDb := {}
  hasMinedCommitmentCache : FiniteMap (LLMQType × UInt256) Bool := ∅

/-- What the processor reads apart from the block. -/
structure ProcessorEnv where
  chain : ChainView
  llmqs : Llmqs
  llmqs_proper : llmqs.Proper
  /-- `CLLMQUtils::GetAllQuorumMembers` -/
  quorumMembers : LLMQType → CBlockIndex → List CDeterministicMN

namespace CQuorumBlockProcessor

/-- The first part of `HasMinedCommitment`, under the lock. -/
def cached (p : CQuorumBlockProcessor) (key : LLMQType × UInt256) : Option Bool :=
  p.hasMinedCommitmentCache.lookup key

/-- The second part. -/
def recordExists (p : CQuorumBlockProcessor) (key : LLMQType × UInt256) : Bool :=
  (p.evoDb.mined.lookup key).isSome

/-- The third part, under the lock again. -/
def remember (p : CQuorumBlockProcessor) (key : LLMQType × UInt256) (ret : Bool) :
    CQuorumBlockProcessor :=
  { p with hasMinedCommitmentCache := p.hasMinedCommitmentCache.emplace key ret }

def hasMinedCommitment (p : CQuorumBlockProcessor) (key : LLMQType × UInt256) :
    Bool × CQuorumBlockProcessor :=
  match p.cached key with
  | some ret => (ret, p)
  | none => (p.recordExists key, p.remember key (p.recordExists key))

def isCommitmentRequired (params : LLMQParams) (tip : CBlockIndex) (nHeight : Int)
    (p : CQuorumBlockProcessor) : Bool × CQuorumBlockProcessor :=
  let quorumHash := getQuorumBlockHash params tip nHeight
  if quorumHash = 0 then (false, p)
  else
    let (hasMinedCommitment, p) := p.hasMinedCommitment (params.type, quorumHash)
    (isMiningPhase params nHeight && !hasMinedCommitment, p)

/-- The two records of a commitment. -/
def writeCommitment (p : CQuorumBlockProcessor) (key : LLMQType × UInt256) (qc : CFinalCommitment)
    (blockHash : UInt256) (nHeight quorumHeight : Int) : CQuorumBlockProcessor :=
  let mined := p.evoDb.mined.insert key (qc, blockHash)
  let minedByInversedHeight :=
    p.evoDb.minedByInversedHeight.insert (key.1, inversedHeight nHeight) quorumHeight
  { p with evoDb :=
    { p.evoDb with mined := mined, minedByInversedHeight := minedByInversedHeight } }

def eraseCommitment (p : CQuorumBlockProcessor) (key : LLMQType × UInt256) (nHeight : Int) :
    CQuorumBlockProcessor :=
  let mined := p.evoDb.mined.erase key
  let minedByInversedHeight := p.evoDb.minedByInversedHeight.erase (key.1, inversedHeight nHeight)
  { p with evoDb :=
    { p.evoDb with mined := mined, minedByInversedHeight := minedByInversedHeight } }

/-- After a change of the records, under the lock. -/
def forget (p : CQuorumBlockProcessor) (key : LLMQType × UInt256) : CQuorumBlockProcessor :=
  { p with hasMinedCommitmentCache := p.hasMinedCommitmentCache.erase key }

def writeBestBlock (p : CQuorumBlockProcessor) (hash : UInt256) : CQuorumBlockProcessor :=
  { p with evoDb := { p.evoDb with bestBlockUpgrade := some hash } }

end CQuorumBlockProcessor

/-! ## Blocks -/

/-- `bad-...` of the processor ends the block with a score of 100. -/
def badQc (reason : String) : Failure := .invalid (badTx reason)

namespace ProcessorEnv

open Checked CQuorumBlockProcessor

variable (env : ProcessorEnv)

/-- One iteration over the transactions of a block. -/
def collectCommitment (ret : List CFinalCommitment) (tx : CTransaction) :
    Except Failure (List CFinalCommitment) :=
  if tx.nType = TRANSACTION_QUORUM_COMMITMENT then do
    let qc ← orFail (env.chain.getTxPayload tx) (badQc "bad-tx-payload")
    -- only one commitment of each kind
    failIf (ret.any fun other => other.llmqType == qc.commitment.llmqType) (badQc "bad-qc-dup")
    return ret ++ [qc.commitment]
  else return ret

/-- The commitments of a block, in the order of their kinds. -/
def getCommitmentsFromBlock (vtx : List CTransaction) (fDIP0003Active : Bool) :
    Except Failure (List CFinalCommitment) := do
  let ret ← vtx.foldlM env.collectCommitment []
  failIf (!fDIP0003Active && !ret.isEmpty) (badQc "bad-qc-premature")
  return ret.insertionSort fun a b => a.llmqType.value ≤ b.llmqType.value

/-- A commitment must be there exactly if it is required. -/
def checkRequired (qcs : List CFinalCommitment) (tip : CBlockIndex) (nHeight : Int)
    (params : LLMQParams) : Checked CQuorumBlockProcessor Failure Unit := do
  let hasCommitmentInNewBlock := qcs.any fun qc => qc.llmqType == params.type
  let isCommitmentRequired ← ask (isCommitmentRequired params tip nHeight)
  lift (failIf (hasCommitmentInNewBlock && !isCommitmentRequired) (badQc "bad-qc-not-allowed"))
  lift (failIf (!hasCommitmentInNewBlock && isCommitmentRequired) (badQc "bad-qc-missing"))

def processCommitment [QuorumCrypto] (tip : CBlockIndex) (nHeight : Int) (blockHash : UInt256)
    (qc : CFinalCommitment) : Checked CQuorumBlockProcessor Failure Unit := do
  let params ← lift (orFail (env.llmqs.at qc.llmqType) (.assertion "llmqs.at"))
  let quorumHash := getQuorumBlockHash params tip nHeight
  lift (failIf (quorumHash == 0 || quorumHash != qc.quorumHash) (badQc "bad-qc-block"))
  if qc.isNull then lift (failIf (!qc.verifyNull env.llmqs) (badQc "bad-qc-invalid-null"))
  else do
    let hasMinedCommitment ← ask fun p => p.hasMinedCommitment (params.type, quorumHash)
    lift (failIf hasMinedCommitment (badQc "bad-qc-dup"))
    lift (failIf (!isMiningPhase params nHeight) (badQc "bad-qc-height"))
    let quorumIndex ← lift (orFail (tip.getAncestor (quorumStartHeight params nHeight))
      (.assertion "mapBlockIndex.at"))
    let members := env.quorumMembers params.type quorumIndex
    lift (failIf (!qc.verify env.llmqs members true) (badQc "bad-qc-invalid"))
    ask fun p => ((), (p.writeCommitment (params.type, quorumHash) qc blockHash nHeight
      quorumIndex.nHeight).forget (params.type, quorumHash))

def processBlock [QuorumCrypto] (hash : UInt256) (vtx : List CTransaction) (pprev : CBlockIndex) :
    Checked CQuorumBlockProcessor Failure Unit :=
  if !env.chain.isActive (.block hash vtx pprev) then ask fun p => ((), p.writeBestBlock hash)
  else do
    let qcs ← lift (env.getCommitmentsFromBlock vtx true)
    forEach (checkRequired qcs pprev (pprev.nHeight + 1)) env.llmqs.all
    forEach (env.processCommitment pprev (pprev.nHeight + 1) hash) qcs
    ask fun p => ((), p.writeBestBlock hash)

end ProcessorEnv

end

end RavenCash.Evo.Llmq
