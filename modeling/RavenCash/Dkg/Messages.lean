import RavenCash.Llmq.Commitment

/-!
# The messages of a DKG session

The four messages of `quorums_dkgsession.h` with what `PreVerifyMessage` checks of them. All checks but the last one
depend on the quorum and not on the state of the session; they are the functions `check…` here, which give the index of
the sender. A message that is turned down has the text that is logged, and `retBan`.
-/

set_option autoImplicit false

namespace RavenCash.Evo.Llmq

/-! ## Messages -/

/-- The 32 bytes of a BLS key. One that was read is valid or all zero. -/
abbrev CBLSSecretKey := BitVec 256

abbrev BLSVerificationVector := List CBLSPublicKey

structure CBLSIESMultiRecipientBlobs where
  ephemeralPubKey : CBLSPublicKey
  ivSeed : UInt256
  blobs : List (List UInt8)
deriving DecidableEq

structure CDKGContribution where
  llmqType : LLMQType
  quorumHash : UInt256
  proTxHash : UInt256
  vvec : BLSVerificationVector
  contributions : CBLSIESMultiRecipientBlobs
  sig : CBLSSignature
deriving DecidableEq

structure CDKGComplaint where
  llmqType : LLMQType
  quorumHash : UInt256
  proTxHash : UInt256
  badMembers : List Bool
  complainForMembers : List Bool
  sig : CBLSSignature
deriving DecidableEq

structure CDKGJustification where
  llmqType : LLMQType
  quorumHash : UInt256
  proTxHash : UInt256
  contributions : List (UInt32 × CBLSSecretKey)
  sig : CBLSSignature
deriving DecidableEq

structure CDKGPrematureCommitment where
  llmqType : LLMQType
  quorumHash : UInt256
  proTxHash : UInt256
  validMembers : List Bool
  quorumPublicKey : CBLSPublicKey
  quorumVvecHash : UInt256
  quorumSig : CBLSSignature
  sig : CBLSSignature
deriving DecidableEq

def CDKGPrematureCommitment.countValidMembers (qc : CDKGPrematureCommitment) : Nat := qc.validMembers.count true

/-- A message of any kind. -/
inductive DKGMessage where
  | contribution (qc : CDKGContribution)
  | complaint (qc : CDKGComplaint)
  | justification (qj : CDKGJustification)
  | prematureCommitment (qc : CDKGPrematureCommitment)
deriving DecidableEq

namespace DKGMessage

def proTxHash : DKGMessage → UInt256
  | contribution qc => qc.proTxHash
  | complaint qc => qc.proTxHash
  | justification qj => qj.proTxHash
  | prematureCommitment qc => qc.proTxHash

def sig : DKGMessage → CBLSSignature
  | contribution qc => qc.sig
  | complaint qc => qc.sig
  | justification qj => qj.sig
  | prematureCommitment qc => qc.sig

end DKGMessage

/-! ## Quorums -/

/-- The quorum of a session. The session refers to the parameters of the chain, which `UpdateLLMQParams` exchanges, but
its members are those that `Init` got: no more than the size at that time. -/
structure DkgQuorum where
  params : LLMQParams
  quorumHash : UInt256
  mns : List CDeterministicMN
  /-- the other smartnodes at the block of the quorum, by their scores -/
  others : List CDeterministicMN := []
  minSize_pos : 0 < params.minSize
  threshold_pos : 0 < params.threshold
  nodup : ((mns ++ others).map CDeterministicMN.proTxHash).Nodup

/-- A message that was turned down. -/
structure Rejection where
  text : String
  retBan : Bool
deriving DecidableEq, Repr

namespace DkgQuorum

variable (q : DkgQuorum)

/-- The number of members. -/
def n : Nat := q.mns.length

def dmn (i : Fin q.n) : CDeterministicMN := q.mns.get i

/-- A member has the id of its hash. -/
def proTxHash (i : Fin q.n) : UInt256 := (q.dmn i).proTxHash

def getMember (proTxHash : UInt256) : Option (Fin q.n) :=
  (List.finRange q.n).find? fun i => q.proTxHash i == proTxHash

/-- `members[i]` -/
def memberAt (i : Nat) : Option (Fin q.n) := if h : i < q.n then some ⟨i, h⟩ else none

/-- `GetAllQuorumMembers`, for the size of now. -/
def getAllQuorumMembers : List CDeterministicMN := (q.mns ++ q.others).take q.params.size

theorem positive_at (chain : CChainParams) : 0 < ((chain.llmqs.at q.params.type).getD q.params).minSize ∧
    0 < ((chain.llmqs.at q.params.type).getD q.params).threshold := by
  cases hat : chain.llmqs.at q.params.type with
  | none => exact ⟨q.minSize_pos, q.threshold_pos⟩
  | some params => exact chain.positive params (Llmqs.mem_all_of_at hat)

/-- The quorum with the parameters of the chain. -/
abbrev under (chain : CChainParams) : DkgQuorum :=
  { q with
    params := (chain.llmqs.at q.params.type).getD q.params
    minSize_pos := (q.positive_at chain).1
    threshold_pos := (q.positive_at chain).2 }

variable {q}

theorem proTxHash_inj : Function.Injective q.proTxHash := by
  intro i j h
  have hnodup : (q.mns.map CDeterministicMN.proTxHash).Nodup :=
    (List.map_append (f := CDeterministicMN.proTxHash) ▸ q.nodup).of_append_left
  have hmem : ∀ k : Fin q.n, q.dmn k ∈ q.mns := fun k => List.get_mem _ _
  have heq : q.mns.get i = q.mns.get j := List.inj_on_of_nodup_map hnodup (hmem i) (hmem j) h
  exact List.nodup_iff_injective_get.mp (List.Nodup.of_map _ hnodup) heq

theorem getMember_eq_some {proTxHash : UInt256} {i : Fin q.n} :
    q.getMember proTxHash = some i ↔ q.proTxHash i = proTxHash := by
  constructor
  · intro h
    have hbeq := List.find?_some h
    exact beq_iff_eq.mp hbeq
  · rintro rfl
    unfold getMember
    rcases hfind : (List.finRange q.n).find? fun j => q.proTxHash j == q.proTxHash i with _ | j
    · exact absurd (beq_iff_eq.mpr rfl) (List.find?_eq_none.mp hfind i (List.mem_finRange i))
    · have hbeq := List.find?_some hfind
      rw [proTxHash_inj (beq_iff_eq.mp hbeq)]

/-! ## Checks -/

variable (q)

/-- The first two checks of every kind. -/
def checkSender (quorumHash proTxHash : UInt256) (wrongQuorum notMember : String) : Except Rejection (Fin q.n) := do
  failIf (quorumHash != q.quorumHash) ⟨wrongQuorum, false⟩
  orFail (q.getMember proTxHash) ⟨notMember, true⟩

def checkComplaint (qc : CDKGComplaint) : Except Rejection (Fin q.n) := do
  let i ← q.checkSender qc.quorumHash qc.proTxHash "complaint for wrong quorum, rejecting"
    "complainer not a member of this quorum, rejecting complaint"
  failIf (qc.badMembers.length != q.params.size) ⟨"invalid badMembers bitset size", true⟩
  failIf (qc.complainForMembers.length != q.params.size) ⟨"invalid complainForMembers bitset size", true⟩
  return i

/-- The loop over the contributions of a justification. An index that is as large as the number of members passes. -/
def checkIndexes : List UInt32 → List (UInt32 × CBLSSecretKey) → Except Rejection Unit
  | _, [] => .ok ()
  | contributionsSet, p :: contributions => do
      failIf (decide (q.n < p.1.toNat)) ⟨"invalid contribution index", true⟩
      failIf (contributionsSet.contains p.1) ⟨"duplicate contribution index", true⟩
      failIf (p.2 == 0) ⟨"invalid contribution", true⟩
      checkIndexes (p.1 :: contributionsSet) contributions

def checkJustification (qj : CDKGJustification) : Except Rejection (Fin q.n) := do
  let i ← q.checkSender qj.quorumHash qj.proTxHash "justification for wrong quorum, rejecting"
    "justifier not a member of this quorum, rejecting justification"
  failIf qj.contributions.isEmpty ⟨"justification with no contributions", true⟩
  q.checkIndexes [] qj.contributions
  return i

def checkCommitment (qc : CDKGPrematureCommitment) : Except Rejection (Fin q.n) := do
  let i ← q.checkSender qc.quorumHash qc.proTxHash "commitment for wrong quorum, rejecting"
    "committer not a member of this quorum, rejecting premature commitment"
  failIf (qc.validMembers.length != q.params.size) ⟨"invalid validMembers bitset size", true⟩
  failIf (decide (qc.countValidMembers < q.params.minSize)) ⟨"invalid validMembers count. validMembersCount=%d", true⟩
  failIf (qc.sig == 0) ⟨"invalid membersSig", true⟩
  failIf (qc.quorumSig == 0) ⟨"invalid quorumSig", true⟩
  failIf ((qc.validMembers.drop q.n).any id) ⟨"invalid validMembers bitset. bit %d should not be set", true⟩
  return i

variable {q}

theorem checkSender_ok {quorumHash proTxHash : UInt256} {wrongQuorum notMember : String} {i : Fin q.n} :
    q.checkSender quorumHash proTxHash wrongQuorum notMember = .ok i ↔
      quorumHash = q.quorumHash ∧ q.proTxHash i = proTxHash := by
  unfold checkSender
  simp only [bind_ok, failIf_ok, orFail_ok, getMember_eq_some, bne_eq_false_iff_eq]
  constructor
  · rintro ⟨_, hquorum, hmember⟩
    exact ⟨hquorum, hmember⟩
  · rintro ⟨hquorum, hmember⟩
    exact ⟨(), hquorum, hmember⟩

theorem checkComplaint_ok {qc : CDKGComplaint} {i : Fin q.n} (h : q.checkComplaint qc = .ok i) :
    q.proTxHash i = qc.proTxHash ∧ qc.badMembers.length = q.params.size ∧
      qc.complainForMembers.length = q.params.size := by
  unfold checkComplaint at h
  simp only [bind_ok, failIf_ok, pure_ok, checkSender_ok] at h
  obtain ⟨_, hsender, _, hbad, _, hcomplain, rfl⟩ := h
  exact ⟨hsender.2, by simpa using hbad, by simpa using hcomplain⟩

theorem checkJustification_ok {qj : CDKGJustification} {i : Fin q.n} (h : q.checkJustification qj = .ok i) :
    q.proTxHash i = qj.proTxHash ∧ qj.contributions ≠ [] := by
  unfold checkJustification at h
  simp only [bind_ok, failIf_ok, pure_ok, checkSender_ok] at h
  obtain ⟨_, hsender, _, hempty, _, -, rfl⟩ := h
  exact ⟨hsender.2, by simpa using hempty⟩

theorem checkCommitment_ok {qc : CDKGPrematureCommitment} {i : Fin q.n} (h : q.checkCommitment qc = .ok i) :
    q.proTxHash i = qc.proTxHash ∧ qc.quorumHash = q.quorumHash ∧ qc.validMembers.length = q.params.size ∧
      q.params.minSize ≤ qc.countValidMembers ∧ qc.quorumSig ≠ 0 := by
  unfold checkCommitment at h
  simp only [bind_ok, failIf_ok, pure_ok, checkSender_ok] at h
  obtain ⟨_, hsender, _, hlength, _, hcount, _, -, _, hsig, _, -, rfl⟩ := h
  refine ⟨hsender.2, hsender.1, by simpa using hlength, by simpa using hcount, by simpa using hsig⟩

end DkgQuorum

/-! ## Cryptography -/

/-- What the sessions ask of the cryptography. -/
class DkgCrypto where
  /-- `SerializeHash` of a message -/
  hashContribution : CDKGContribution → UInt256
  hashComplaint : CDKGComplaint → UInt256
  hashJustification : CDKGJustification → UInt256
  hashCommitment : CDKGPrematureCommitment → UInt256
  hashKey : CBLSPublicKey → UInt256
  hashVvec : BLSVerificationVector → UInt256
  /-- of the aggregate of the signatures -/
  verifyInsecureAggregated : List CBLSSignature → List (CBLSPublicKey × UInt256) → Bool
  sign : CBLSSecretKey → UInt256 → CBLSSignature
  getPublicKey : CBLSSecretKey → CBLSPublicKey
  /-- the value of the polynomial at an id -/
  publicKeyShare : BLSVerificationVector → UInt256 → Option CBLSPublicKey
  aggregatePublicKeys : List CBLSPublicKey → CBLSPublicKey
  aggregateSecretKeys : List CBLSSecretKey → CBLSSecretKey
  /-- `VerifyContributionShares`, which verifies in batches -/
  verifyContributionShares : UInt256 → List (Option BLSVerificationVector) → List CBLSSecretKey → List Bool
  encrypt : UInt256 → Nat → CBLSPublicKey → CBLSSecretKey → Option (List UInt8)
  decrypt : CBLSIESMultiRecipientBlobs → Nat → CBLSSecretKey → Option CBLSSecretKey

section

variable [EvoCrypto] [QuorumCrypto] [DkgCrypto]

namespace DKGMessage

/-- The hash without the signature. -/
def getSignHash : DKGMessage → UInt256
  | contribution qc => DkgCrypto.hashContribution { qc with sig := 0 }
  | complaint qc => DkgCrypto.hashComplaint { qc with sig := 0 }
  | justification qj => DkgCrypto.hashJustification { qj with sig := 0 }
  | prematureCommitment qc => QuorumCrypto.buildCommitmentHash qc.llmqType qc.quorumHash qc.validMembers
      qc.quorumPublicKey qc.quorumVvecHash

end DKGMessage

/-- `CBLSSignature::VerifyInsecure` -/
def verifyInsecure (sig : CBLSSignature) (pubKey : CBLSPublicKey) (hash : UInt256) : Bool :=
  sig != 0 && EvoCrypto.isValid pubKey && QuorumCrypto.verifyInsecure sig pubKey hash

/-- Valid keys without duplicates. -/
def verifyVerificationVector (vvec : BLSVerificationVector) : Bool :=
  vvec.all EvoCrypto.isValid && decide (vvec.map DkgCrypto.hashKey).Nodup

/-- `AsyncVerifyContributionShare`, which dereferences the vector. -/
def verifyContributionShare (id : UInt256) (vvec : Option BLSVerificationVector) (skContribution : CBLSSecretKey) :
    Option Bool :=
  vvec.map fun vvec => verifyVerificationVector vvec &&
    decide (DkgCrypto.publicKeyShare vvec id = some (DkgCrypto.getPublicKey skContribution))

namespace DkgQuorum

variable {q : DkgQuorum}

def checkContribution (q : DkgQuorum) (qc : CDKGContribution) : Except Rejection (Fin q.n) := do
  let i ← q.checkSender qc.quorumHash qc.proTxHash "contribution for wrong quorum, rejecting"
    "contributor not a member of this quorum, rejecting contribution"
  failIf (qc.contributions.blobs.length != q.n) ⟨"invalid contributions count", true⟩
  failIf (qc.vvec.length != q.params.threshold) ⟨"invalid verification vector length", true⟩
  failIf (!verifyVerificationVector qc.vvec) ⟨"invalid verification vector", true⟩
  return i

omit [QuorumCrypto] in
/-- What a contribution that passed has. -/
theorem checkContribution_ok {qc : CDKGContribution} {i : Fin q.n} (h : q.checkContribution qc = .ok i) :
    q.proTxHash i = qc.proTxHash ∧ qc.vvec.length = q.params.threshold ∧ verifyVerificationVector qc.vvec = true := by
  unfold checkContribution at h
  simp only [bind_ok, failIf_ok, pure_ok, checkSender_ok] at h
  obtain ⟨_, hsender, _, -, _, hlength, _, hvvec, rfl⟩ := h
  exact ⟨hsender.2, by simpa using hlength, by simpa using hvvec⟩

end DkgQuorum

end

end RavenCash.Evo.Llmq
