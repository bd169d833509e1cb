import RavenCash.Evo.List
import RavenCash.Llmq.Params

/-!
# Quorum commitments

`CFinalCommitment` and `CFinalCommitmentTxPayload` of `llmq/quorums_commitment.h` with the checks a
commitment in a transaction has to pass, and the members a quorum has (`GetAllQuorumMembers`).
-/

set_option autoImplicit false

namespace RavenCash.Evo.Llmq

/-- The 96 bytes of a BLS signature. One that was read is valid or all zero. -/
abbrev CBLSSignature := BitVec 768

/-- A BLS key that was read from bytes: bytes that are no key are reset. -/
def ParsedKey [EvoCrypto] : Type :=
  { key : CBLSPublicKey // key = 0 ∨ EvoCrypto.isValid key = true }

instance [EvoCrypto] : DecidableEq ParsedKey := inferInstanceAs (DecidableEq (Subtype _))

def ParsedKey.null [EvoCrypto] : ParsedKey := ⟨0, .inl rfl⟩

/-- `uint256` is compared by its bytes. -/
def hashBytes (hash : UInt256) : List Nat := (serializeUInt256 hash).map UInt8.toNat

theorem hashBytes_inj : Function.Injective hashBytes := by
  intro a b h
  exact serializeUInt256_injective (List.map_injective_iff.mpr (fun _ _ heq => UInt8.toNat_inj.mp heq) h)

/-- What commitments ask of the cryptography. -/
class QuorumCrypto where
  verifyInsecure : CBLSSignature → CBLSPublicKey → UInt256 → Bool
  verifySecureAggregated : CBLSSignature → List CBLSPublicKey → UInt256 → Bool
  buildCommitmentHash : LLMQType → UInt256 → List Bool → CBLSPublicKey → UInt256 → UInt256
  /-- `SerializeHash(make_pair(llmqType, blockHash))` -/
  quorumModifier : LLMQType → UInt256 → UInt256

/-- An instance to evaluate the model on. -/
@[reducible] def plainQuorumCrypto : QuorumCrypto where
  verifyInsecure _ _ _ := true
  verifySecureAggregated _ _ _ := true
  buildCommitmentHash _ quorumHash _ _ _ := quorumHash
  quorumModifier _ blockHash := blockHash

def CURRENT_VERSION : UInt16 := 1

section

variable [EvoCrypto]

structure CFinalCommitment where
  nVersion : UInt16 := CURRENT_VERSION
  llmqType : LLMQType
  quorumHash : UInt256
  signers : List Bool
  validMembers : List Bool
  quorumPublicKey : ParsedKey
  quorumVvecHash : UInt256
  quorumSig : CBLSSignature
  membersSig : CBLSSignature

structure CFinalCommitmentTxPayload where
  commitment : CFinalCommitment

namespace CFinalCommitment

variable (qc : CFinalCommitment)

def countSigners : Nat := qc.signers.count true

def countValidMembers : Nat := qc.validMembers.count true

def isNull : Bool :=
  qc.signers.count true == 0 && qc.validMembers.count true == 0 &&
    !EvoCrypto.isValid qc.quorumPublicKey.1 && qc.quorumVvecHash == 0 && qc.membersSig == 0 &&
      qc.quorumSig == 0

def verifySizes (params : LLMQParams) : Bool :=
  qc.signers.length == params.size && qc.validMembers.length == params.size

def verifyNull (llmqs : Llmqs) : Bool :=
  match llmqs.at qc.llmqType with
  | none => false
  | some params => qc.isNull && qc.verifySizes params

/-- The two signatures over the commitment. -/
def verifySigs [QuorumCrypto] (params : LLMQParams) (members : List CDeterministicMN) : Bool :=
  let commitmentHash := QuorumCrypto.buildCommitmentHash params.type qc.quorumHash qc.validMembers
    qc.quorumPublicKey.1 qc.quorumVvecHash
  let memberPubKeys := (members.zip qc.signers).filterMap fun p =>
    if p.2 then some p.1.pdmnState.pubKeyOperator else none
  QuorumCrypto.verifySecureAggregated qc.membersSig memberPubKeys commitmentHash &&
    QuorumCrypto.verifyInsecure qc.quorumSig qc.quorumPublicKey.1 commitmentHash

def verify [QuorumCrypto] (llmqs : Llmqs) (members : List CDeterministicMN) (checkSigs : Bool) :
    Bool :=
  qc.nVersion != 0 && decide (qc.nVersion ≤ CURRENT_VERSION) &&
    match llmqs.at qc.llmqType with
    | none => false
    | some params =>
        qc.verifySizes params && decide (params.minSize ≤ qc.countValidMembers) &&
          decide (params.minSize ≤ qc.countSigners) && EvoCrypto.isValid qc.quorumPublicKey.1 &&
          qc.quorumVvecHash != 0 && qc.membersSig != 0 && qc.quorumSig != 0 &&
          (qc.validMembers.drop members.length).all (! ·) &&
          (qc.signers.drop members.length).all (! ·) &&
          (!checkSigs || qc.verifySigs params members)

end CFinalCommitment

end

end RavenCash.Evo.Llmq
