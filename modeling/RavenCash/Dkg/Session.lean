import RavenCash.Dkg.Messages

/-!
# DKG sessions

`CDKGSession` (llmq/quorums_dkgsession.cpp): the messages that are received, and what a node does at the start of each
phase. The members are indexed by `Fin n`; an index that comes from a message goes through `memberAt`. A step that
would access a vector outside its bounds, or read through a null pointer, gives `none`.

`receivedVvecs` and `receivedSkContributions` are as long as `members`, so their entries are kept with the member. The
relaying of messages and the simulated errors (`ShouldSimulateError`), which are for tests, are left out.
-/

set_option autoImplicit false

namespace RavenCash.Evo.Llmq

/-! ## State -/

structure CDKGMember where
  contributions : Finset UInt256 := ∅
  complaints : Finset UInt256 := ∅
  justifications : Finset UInt256 := ∅
  prematureCommitments : Finset UInt256 := ∅
  badMemberVotes : Finset UInt256 := ∅
  complaintsFromOthers : Finset UInt256 := ∅
  bad : Bool := false
  weComplain : Bool := false
  receivedVvec : Option BLSVerificationVector := none
  receivedSkContribution : CBLSSecretKey := 0

/-- The vote and the complaint of a member about this one. -/
def CDKGMember.addComplaint (m : CDKGMember) (proTxHash : UInt256) (isBad complainFor : Bool) : CDKGMember :=
  { m with
    badMemberVotes := if isBad then insert proTxHash m.badMemberVotes else m.badMemberVotes
    complaintsFromOthers := if complainFor then insert proTxHash m.complaintsFromOthers else m.complaintsFromOthers }

/-- What `CDKGSessionManager` has of the quorum: the database and the cache in front of it. -/
structure DkgDb where
  vvecs : FiniteMap UInt256 BLSVerificationVector := ∅
  skContributions : FiniteMap UInt256 CBLSSecretKey := ∅
  contributionsCache : FiniteMap UInt256 (Option BLSVerificationVector × CBLSSecretKey) := ∅

structure CDKGSession (n : Nat) where
  members : Fin n → CDKGMember := fun _ => {}
  vvecContribution : BLSVerificationVector := []
  skContributions : List CBLSSecretKey := []
  complaints : FiniteMap UInt256 CDKGComplaint := ∅
  /-- with the index of the sender in `membersMap` -/
  prematureCommitments : FiniteMap UInt256 (Fin n × CDKGPrematureCommitment) := ∅
  pendingContributionVerifications : List (Fin n) := []
  validCommitments : Finset UInt256 := ∅
  db : DkgDb := {}
  /-- `cache.vvecCache`, by the indexes of the members -/
  vvecCache : FiniteMap (List Nat) (Option BLSVerificationVector) := ∅
  /-- `cache.secretKeyShareCache` -/
  secretKeyShareCache : FiniteMap (List Nat) CBLSSecretKey := ∅

/-- A node in a quorum: a member, or an observer. -/
structure DkgNode where
  quorum : DkgQuorum
  myIdx : Option (Fin quorum.n)
  blsKeyOperator : CBLSSecretKey

/-- The node with the parameters of the chain. -/
abbrev DkgNode.under (node : DkgNode) (chain : CChainParams) : DkgNode :=
  { node with quorum := node.quorum.under chain }

namespace CDKGSession

variable {n : Nat}

def modifyMember (s : CDKGSession n) (i : Fin n) (f : CDKGMember → CDKGMember) : CDKGSession n :=
  { s with members := Function.update s.members i (f (s.members i)) }

def markBadMember (s : CDKGSession n) (i : Fin n) : CDKGSession n := s.modifyMember i fun m => { m with bad := true }

/-- `MarkBadMember` for every member that a loop finds. -/
def markBadMembers (s : CDKGSession n) (found : Fin n → Bool) : CDKGSession n :=
  { s with members := fun i => { s.members i with bad := (s.members i).bad || found i } }

end CDKGSession

namespace DkgDb

def writeVerifiedVvecContribution (db : DkgDb) (proTxHash : UInt256) (vvec : BLSVerificationVector) : DkgDb :=
  { db with vvecs := db.vvecs.insert proTxHash vvec }

def writeVerifiedSkContribution (db : DkgDb) (proTxHash : UInt256) (skContribution : CBLSSecretKey) : DkgDb :=
  { db with skContributions := db.skContributions.insert proTxHash skContribution }

/-- The entry is cached also if there is no vector. -/
def getVerifiedContribution (db : DkgDb) (proTxHash : UInt256) :
    (Option BLSVerificationVector × CBLSSecretKey) × DkgDb :=
  match db.contributionsCache.lookup proTxHash with
  | some entry => (entry, db)
  | none =>
      let entry := (db.vvecs.lookup proTxHash, (db.skContributions.lookup proTxHash).getD 0)
      (entry, { db with contributionsCache := db.contributionsCache.insert proTxHash entry })

/-- The contributions of the members from place `i` on whose bit is set, with their indexes. -/
def getVerifiedContributions (validMembers : List Bool) :
    Nat → List CDeterministicMN → DkgDb → Option (List (Nat × Option BLSVerificationVector × CBLSSecretKey) × DkgDb)
  | _, [], db => some ([], db)
  | i, dmn :: rest, db =>
      match validMembers[i]? with
      | none => none
      | some false => getVerifiedContributions validMembers (i + 1) rest db
      | some true =>
          let (entry, db) := db.getVerifiedContribution dmn.proTxHash
          (getVerifiedContributions validMembers (i + 1) rest db).map fun r => ((i, entry) :: r.1, r.2)

end DkgDb

section

variable [EvoCrypto] [QuorumCrypto] [DkgCrypto]

/-- `VerifyVerificationVectors`: there, of one size, valid and without duplicates. -/
def verifyVerificationVectors (vvecs : List (Option BLSVerificationVector)) : Bool :=
  vvecs.all Option.isSome &&
    (let vvecs := vvecs.filterMap id
     vvecs.all (fun vvec => vvec.length == (vvecs.headD []).length) && verifyVerificationVector vvecs.flatten)

/-- `BuildQuorumVerificationVector` -/
def buildQuorumVerificationVector (vvecs : List (Option BLSVerificationVector)) : Option BLSVerificationVector :=
  if vvecs.isEmpty || !verifyVerificationVectors vvecs then none
  else
    let vvecs := vvecs.filterMap id
    some ((List.range (vvecs.headD []).length).map fun j =>
      DkgCrypto.aggregatePublicKeys (vvecs.map fun vvec => vvec.getD j 0))

namespace DkgNode

variable (node : DkgNode)

/-- The number of members. -/
abbrev n : Nat := node.quorum.n

def areWeMember : Bool := node.myIdx.isSome

/-- `myProTxHash`, which is also our id -/
def myProTxHash : Option UInt256 := node.myIdx.map node.quorum.proTxHash

/-- The vector and the keys of the members are random. -/
def contribute (s : CDKGSession node.n) (vvec : BLSVerificationVector) (sks : List CBLSSecretKey)
    (ephemeralPubKey : CBLSPublicKey) (ivSeed : UInt256) : Option CDKGContribution × CDKGSession node.n :=
  match node.myIdx with
  | none => (none, s)
  | some myIdx =>
      let s := { s with vvecContribution := vvec, skContributions := sks }
      let qc := ((List.finRange node.n).mapM fun i : Fin node.n =>
        DkgCrypto.encrypt ivSeed i (node.quorum.dmn i).pdmnState.pubKeyOperator (sks.getD i 0)).map fun blobs =>
          let qc : CDKGContribution :=
            { llmqType := node.quorum.params.type, quorumHash := node.quorum.quorumHash
              proTxHash := node.quorum.proTxHash myIdx, vvec := vvec
              contributions := ⟨ephemeralPubKey, ivSeed, blobs⟩, sig := 0 }
          { qc with sig := DkgCrypto.sign node.blsKeyOperator (DKGMessage.contribution qc).getSignHash }
      (qc, s)

/-! ## Contributions -/

/-- The result for one pending contribution. -/
def finishVerification (s : CDKGSession node.n) (p : Fin node.n × Bool) : CDKGSession node.n :=
  if p.2 then
    let skContribution := (s.members p.1).receivedSkContribution
    { s with db := s.db.writeVerifiedSkContribution (node.quorum.proTxHash p.1) skContribution }
  else s.modifyMember p.1 fun m => { m with weComplain := true }

def verifyPendingContributions (s : CDKGSession node.n) : CDKGSession node.n :=
  let pend := s.pendingContributionVerifications
  let s := { s with pendingContributionVerifications := [] }
  match node.myProTxHash with
  | none => s
  | some myId =>
      if pend.isEmpty then s
      else
        let memberIndexes := pend.filter fun i => !((s.members i).bad || (s.members i).weComplain)
        let result := DkgCrypto.verifyContributionShares myId (memberIndexes.map fun i => (s.members i).receivedVvec)
          (memberIndexes.map fun i => (s.members i).receivedSkContribution)
        if result.length != memberIndexes.length then s
        else
          (memberIndexes.zip result).foldl node.finishVerification s

def preVerifyContribution (s : CDKGSession node.n) (qc : CDKGContribution) : Except Rejection Unit := do
  let i ← node.quorum.checkContribution qc
  failIf (decide (2 ≤ (s.members i).contributions.card))
    ⟨"dropping contribution from %s as we already got %d contributions", false⟩

/-- The share that is meant for us. -/
def receiveShare (s : CDKGSession node.n) (i : Fin node.n) (qc : CDKGContribution) (myIdx : Fin node.n) :
    CDKGSession node.n :=
  let s := { s with db := s.db.writeVerifiedVvecContribution qc.proTxHash qc.vvec }
  match DkgCrypto.decrypt qc.contributions myIdx node.blsKeyOperator with
  | none => s.modifyMember i fun m => { m with weComplain := true }
  | some skContribution =>
      let s := s.modifyMember i fun m => { m with receivedSkContribution := skContribution }
      let s := { s with pendingContributionVerifications := s.pendingContributionVerifications ++ [i] }
      if 32 ≤ s.pendingContributionVerifications.length then node.verifyPendingContributions s else s

/-- A contribution of member `i`. -/
def addContribution (s : CDKGSession node.n) (i : Fin node.n) (qc : CDKGContribution) : CDKGSession node.n :=
  if 2 ≤ (s.members i).contributions.card then s
  else
    let s := s.modifyMember i fun m =>
      { m with contributions := insert (DkgCrypto.hashContribution qc) m.contributions }
    if 1 < (s.members i).contributions.card then s.markBadMember i
    else
      let s := s.modifyMember i fun m => { m with receivedVvec := some qc.vvec }
      match node.myIdx with
      | none => s
      | some myIdx => node.receiveShare s i qc myIdx

def receiveContribution (s : CDKGSession node.n) (qc : CDKGContribution) : Option (CDKGSession node.n) :=
  (node.quorum.getMember qc.proTxHash).map fun i => node.addContribution s i qc

/-! ## Complaints -/

/-- A set of `params.size` bits in which the bits of the members are set, if they are within it. -/
def bits (f : Fin node.n → Bool) : Option (List Bool) :=
  if ∀ i, f i = true → (i : Nat) < node.quorum.params.size then
    some (((List.finRange node.n).map f ++ List.replicate (node.quorum.params.size - node.n) false).take
      node.quorum.params.size)
  else none

def sendComplaint (s : CDKGSession node.n) (myIdx : Fin node.n) : Option (Option CDKGComplaint) := do
  let badMembers ← node.bits fun i => (s.members i).bad
  let complainForMembers ← node.bits fun i => !(s.members i).bad && (s.members i).weComplain
  if badMembers.count true = 0 ∧ complainForMembers.count true = 0 then return none
  let qc : CDKGComplaint :=
    { llmqType := node.quorum.params.type, quorumHash := node.quorum.quorumHash
      proTxHash := node.quorum.proTxHash myIdx, badMembers := badMembers
      complainForMembers := complainForMembers, sig := 0 }
  return some { qc with sig := DkgCrypto.sign node.blsKeyOperator (DKGMessage.complaint qc).getSignHash }

/-- The complaint is sent to ourselves too. -/
def verifyAndComplain (s : CDKGSession node.n) : Option (Option CDKGComplaint × CDKGSession node.n) :=
  match node.myIdx with
  | none => some (none, s)
  | some myIdx =>
      let s := node.verifyPendingContributions s
      let s := s.markBadMembers fun i => decide ((s.members i).contributions = ∅)
      (node.sendComplaint s myIdx).map fun qc => (qc, s)

def preVerifyComplaint (s : CDKGSession node.n) (qc : CDKGComplaint) : Except Rejection Unit := do
  let i ← node.quorum.checkComplaint qc
  failIf (decide (2 ≤ (s.members i).complaints.card))
    ⟨"dropping complaint from %s as we already got %d complaints", false⟩

/-- What is noted of a complaint about the members. -/
def noteComplaint (s : CDKGSession node.n) (qc : CDKGComplaint) : CDKGSession node.n :=
  { s with
    members := fun j => (s.members j).addComplaint qc.proTxHash (qc.badMembers.getD j false)
      (qc.complainForMembers.getD j false) }

/-- A complaint of member `i`. The bits of all members are read. -/
def addComplaint (s : CDKGSession node.n) (i : Fin node.n) (qc : CDKGComplaint) : Option (CDKGSession node.n) :=
  if 2 ≤ (s.members i).complaints.card then some s
  else
    let hash := DkgCrypto.hashComplaint qc
    let s := { s with complaints := s.complaints.emplace hash qc }
    let s := s.modifyMember i fun m => { m with complaints := insert hash m.complaints }
    if 1 < (s.members i).complaints.card then some (s.markBadMember i)
    else if node.n ≤ qc.badMembers.length ∧ node.n ≤ qc.complainForMembers.length then some (node.noteComplaint s qc)
    else none

def receiveComplaint (s : CDKGSession node.n) (qc : CDKGComplaint) : Option (CDKGSession node.n) :=
  (node.quorum.getMember qc.proTxHash).bind fun i => node.addComplaint s i qc

/-! ## Justifications -/

/-- The member has one complaint and it is about us. `complaints.at` finds it, as both are written at once. -/
def complainsAbout (s : CDKGSession node.n) (i myIdx : Fin node.n) : Bool :=
  decide ((s.members i).complaints.card = 1) && decide ((s.members i).complaints.filter (fun hash =>
    ((s.complaints.lookup hash).any fun qc => qc.complainForMembers.getD myIdx false) = true) ≠ ∅)

def sendJustification (s : CDKGSession node.n) (myIdx : Fin node.n) (forMembers : Fin node.n → Bool) :
    Option CDKGJustification :=
  if (List.finRange node.n).any forMembers then
    let qj : CDKGJustification :=
      { llmqType := node.quorum.params.type, quorumHash := node.quorum.quorumHash
        proTxHash := node.quorum.proTxHash myIdx
        contributions := ((List.finRange node.n).filter forMembers).map fun i : Fin node.n =>
          (UInt32.ofNat i, s.skContributions.getD i 0)
        sig := 0 }
    some { qj with sig := DkgCrypto.sign node.blsKeyOperator (DKGMessage.justification qj).getSignHash }
  else none

def verifyAndJustify (s : CDKGSession node.n) : Option CDKGJustification × CDKGSession node.n :=
  match node.myIdx with
  | none => (none, s)
  | some myIdx =>
      let s' := s.markBadMembers fun i =>
        decide (node.quorum.params.dkgBadVotesThreshold ≤ (s.members i).badMemberVotes.card) ||
          decide (1 < (s.members i).complaints.card)
      (node.sendJustification s' myIdx fun i => !(s'.members i).bad && node.complainsAbout s i myIdx, s')

def preVerifyJustification (s : CDKGSession node.n) (qj : CDKGJustification) : Except Rejection Unit := do
  let i ← node.quorum.checkJustification qj
  failIf (decide (2 ≤ (s.members i).justifications.card))
    ⟨"dropping justification from %s as we already got %d justifications", false⟩

/-- A justification for ourselves. -/
def takeShare (i : Fin node.n) (s : CDKGSession node.n) (id : UInt256) (skContribution : CBLSSecretKey) :
    CDKGSession node.n :=
  if node.myProTxHash = some id then
    { s.modifyMember i fun m => { m with receivedSkContribution := skContribution, weComplain := false } with
      db := s.db.writeVerifiedSkContribution (node.quorum.proTxHash i) skContribution }
  else s

/-- One contribution of a justification, with the result of its verification. -/
def justify (i : Fin node.n) (s : CDKGSession node.n) (p : (Fin node.n × CBLSSecretKey) × Bool) : CDKGSession node.n :=
  if p.2 then
    let id := node.quorum.proTxHash p.1.1
    (node.takeShare i s id p.1.2).modifyMember i fun m =>
      { m with complaintsFromOthers := m.complaintsFromOthers.erase id }
  else s.markBadMember i

/-- `members[p.first]` for the contributions of a justification. -/
def namedMembers (qj : CDKGJustification) : Option (List (Fin node.n × CBLSSecretKey)) :=
  qj.contributions.mapM fun p => (node.quorum.memberAt p.1.toNat).map fun j => (j, p.2)

/-- The first justification of member `i`. -/
def verifyJustification (s : CDKGSession node.n) (i : Fin node.n) (qj : CDKGJustification) :
    Option (CDKGSession node.n) :=
  match node.namedMembers qj with
  | none => none
  | some contributions =>
      if contributions.any fun p => decide (node.quorum.proTxHash p.1 ∉ (s.members i).complaintsFromOthers) then
        some (s.markBadMember i)
      else
        (contributions.mapM fun p =>
          verifyContributionShare (node.quorum.proTxHash p.1) (s.members i).receivedVvec p.2).map fun futures =>
            (contributions.zip futures).foldl (node.justify i) s

/-- A justification of member `i`. -/
def addJustification (s : CDKGSession node.n) (i : Fin node.n) (qj : CDKGJustification) : Option (CDKGSession node.n) :=
  if 2 ≤ (s.members i).justifications.card then some s
  else
    let s := s.modifyMember i fun m =>
      { m with justifications := insert (DkgCrypto.hashJustification qj) m.justifications }
    if 1 < (s.members i).justifications.card then some (s.markBadMember i)
    else if (s.members i).bad then some s -- we locally determined him to be bad
    else node.verifyJustification s i qj

def receiveJustification (s : CDKGSession node.n) (qj : CDKGJustification) : Option (CDKGSession node.n) :=
  (node.quorum.getMember qj.proTxHash).bind fun i => node.addJustification s i qj

/-! ## Commitments -/

/-- `GetVerifiedContributions` and `cache.BuildQuorumVerificationVector` -/
def quorumVvec (s : CDKGSession node.n) (validMembers : List Bool) :
    Option (Option BLSVerificationVector × List (Nat × Option BLSVerificationVector × CBLSSecretKey) ×
      CDKGSession node.n) := do
  let (entries, db) ← DkgDb.getVerifiedContributions validMembers 0 node.quorum.getAllQuorumMembers s.db
  let memberIndexes := entries.map Prod.fst
  let s := { s with db := db }
  match s.vvecCache.lookup memberIndexes with
  | some vvec => return (vvec, entries, s)
  | none =>
      let vvec := buildQuorumVerificationVector (entries.map fun e => e.2.1)
      return (vvec, entries, { s with vvecCache := s.vvecCache.insert memberIndexes vvec })

def sendCommitment (s : CDKGSession node.n) (myIdx : Fin node.n) :
    Option (Option CDKGPrematureCommitment × CDKGSession node.n) := do
  let validMembers ← node.bits fun i => !(s.members i).bad
  if validMembers.count true < node.quorum.params.minSize then return (none, s)
  let (vvec, entries, s) ← node.quorumVvec s validMembers
  match vvec with
  | none => return (none, s)
  | some vvec =>
      let memberIndexes := entries.map Prod.fst
      let skShare := (s.secretKeyShareCache.lookup memberIndexes).getD
        (DkgCrypto.aggregateSecretKeys (entries.map fun e => e.2.2))
      let s := { s with secretKeyShareCache := s.secretKeyShareCache.insert memberIndexes skShare }
      if skShare = 0 then return (none, s)
      let quorumPublicKey ← vvec.head?
      let quorumVvecHash := DkgCrypto.hashVvec vvec
      let commitmentHash := QuorumCrypto.buildCommitmentHash node.quorum.params.type node.quorum.quorumHash validMembers
        quorumPublicKey quorumVvecHash
      let qc : CDKGPrematureCommitment :=
        { llmqType := node.quorum.params.type, quorumHash := node.quorum.quorumHash
          proTxHash := node.quorum.proTxHash myIdx, validMembers := validMembers
          quorumPublicKey := quorumPublicKey, quorumVvecHash := quorumVvecHash
          quorumSig := DkgCrypto.sign skShare commitmentHash
          sig := DkgCrypto.sign node.blsKeyOperator commitmentHash }
      return (some qc, s)

/-- The members that have open complaints are marked. -/
def verifyOpenComplaints (s : CDKGSession node.n) : CDKGSession node.n :=
  s.markBadMembers fun i => decide ((s.members i).complaintsFromOthers ≠ ∅)

def verifyAndCommit (s : CDKGSession node.n) : Option (Option CDKGPrematureCommitment × CDKGSession node.n) :=
  match node.myIdx with
  | none => some (none, s)
  | some myIdx => node.sendCommitment (node.verifyOpenComplaints s) myIdx

def preVerifyCommitment (s : CDKGSession node.n) (qc : CDKGPrematureCommitment) : Except Rejection Unit := do
  let i ← node.quorum.checkCommitment qc
  failIf (decide (2 ≤ (s.members i).prematureCommitments.card))
    ⟨"dropping commitment from %s as we already got %d commitments", false⟩

/-- The checks of a commitment against the vector of the quorum. -/
def verifyCommitment (i : Fin node.n) (qc : CDKGPrematureCommitment) (vvec : BLSVerificationVector) : Option Bool := do
  let quorumPublicKey ← vvec.head?
  return decide (quorumPublicKey = qc.quorumPublicKey) && decide (qc.quorumVvecHash = DkgCrypto.hashVvec vvec) &&
    (DkgCrypto.publicKeyShare vvec (node.quorum.proTxHash i)).any fun pubKeyShare =>
      verifyInsecure qc.quorumSig pubKeyShare (DKGMessage.prematureCommitment qc).getSignHash

/-- Without the vector nothing is verified: we might be the unlucky one who didn't receive all contributions. -/
def isValidCommitment (i : Fin node.n) (qc : CDKGPrematureCommitment) : Option BLSVerificationVector → Option Bool
  | none => some true
  | some vvec => node.verifyCommitment i qc vvec

/-- A commitment of member `i`. -/
def addCommitment (s : CDKGSession node.n) (i : Fin node.n) (qc : CDKGPrematureCommitment) :
    Option (CDKGSession node.n) := do
  let hash := DkgCrypto.hashCommitment qc
  let s := { s with prematureCommitments := s.prematureCommitments.emplace hash (i, qc) }
  let s := s.modifyMember i fun m => { m with prematureCommitments := insert hash m.prematureCommitments }
  let (vvec, _, s) ← node.quorumVvec s qc.validMembers
  let valid ← node.isValidCommitment i qc vvec
  return if valid then { s with validCommitments := insert hash s.validCommitments } else s

def receiveCommitment (s : CDKGSession node.n) (qc : CDKGPrematureCommitment) : Option (CDKGSession node.n) :=
  (node.quorum.getMember qc.proTxHash).bind fun i => node.addCommitment s i qc

/-! ## Any message -/

def preVerifyMessage (s : CDKGSession node.n) : DKGMessage → Except Rejection Unit
  | .contribution qc => node.preVerifyContribution s qc
  | .complaint qc => node.preVerifyComplaint s qc
  | .justification qj => node.preVerifyJustification s qj
  | .prematureCommitment qc => node.preVerifyCommitment s qc

/-- `ReceiveMessage` never asks for a ban. -/
def receiveMessage (s : CDKGSession node.n) : DKGMessage → Option (CDKGSession node.n)
  | .contribution qc => node.receiveContribution s qc
  | .complaint qc => node.receiveComplaint s qc
  | .justification qj => node.receiveJustification s qj
  | .prematureCommitment qc => node.receiveCommitment s qc

end DkgNode

end

end RavenCash.Evo.Llmq
