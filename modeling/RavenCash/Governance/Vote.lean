import RavenCash.Evo.List

/-!
# Governance votes

`governance-vote.cpp`, `governance-votedb.cpp` and the votes of `governance-object.cpp`: a vote of a smartnode on a
governance object, the votes an object keeps (`CGovernanceObjectVoteFile`) and the current vote of every smartnode and
signal (`mapCurrentMNVotes`).

The two enumerations have no fixed underlying type; their values are read from the network as an `int` and compared
as unsigned numbers. The hash of a vote covers all fields but the signature.
-/

set_option autoImplicit false

namespace RavenCash.Governance

open Evo

/-! ## Votes -/

/-- `vote_outcome_enum_t` -/
abbrev VoteOutcome := UInt32

def VOTE_OUTCOME_NONE : VoteOutcome := 0
def VOTE_OUTCOME_YES : VoteOutcome := 1
def VOTE_OUTCOME_NO : VoteOutcome := 2
def VOTE_OUTCOME_ABSTAIN : VoteOutcome := 3

/-- `vote_signal_enum_t` -/
abbrev VoteSignal := UInt32

def VOTE_SIGNAL_NONE : VoteSignal := 0
def VOTE_SIGNAL_FUNDING : VoteSignal := 1
def VOTE_SIGNAL_VALID : VoteSignal := 2
def VOTE_SIGNAL_DELETE : VoteSignal := 3
def VOTE_SIGNAL_ENDORSED : VoteSignal := 4

def MAX_SUPPORTED_VOTE_SIGNAL : VoteSignal := VOTE_SIGNAL_ENDORSED

def convertSignalToString (nSignal : VoteSignal) : String :=
  if nSignal = VOTE_SIGNAL_FUNDING then "funding"
  else if nSignal = VOTE_SIGNAL_VALID then "valid"
  else if nSignal = VOTE_SIGNAL_DELETE then "delete"
  else if nSignal = VOTE_SIGNAL_ENDORSED then "endorsed"
  else "none"

/-- What `UpdateHash` hashes. -/
structure VoteContent where
  smartnodeOutpoint : COutPoint
  nParentHash : UInt256
  nVoteSignal : Int32
  nVoteOutcome : Int32
  nTime : Int
deriving DecidableEq, Repr

structure CGovernanceVote extends VoteContent where
  vchSig : List UInt8 := []
deriving DecidableEq, Repr

/-- The hash of a vote and the three ways to check a signature. -/
class VoteCrypto where
  hash : VoteContent → UInt256
  signatureHash : CGovernanceVote → UInt256
  verifyHash : UInt256 → CKeyID → List UInt8 → Bool
  verifyMessage : CKeyID → List UInt8 → String → Bool
  verifyInsecure : List UInt8 → CBLSPublicKey → UInt256 → Bool

/-- `uint256::ToString` -/
def hashString (h : UInt256) : String := String.ofList ((Nat.toDigits 16 h.toNat).leftpad 64 '0')

def toStringShort (out : COutPoint) : String := hashString out.hash ++ "-" ++ toString out.n.toNat

/-- What a node knows while it handles a vote: the time, the list at the tip, whether the rate of votes is checked and
whether `SPORK_6_NEW_SIGS` is active. -/
structure Env where
  getAdjustedTime : Int
  getMNByCollateral : COutPoint → Option Evo.CDeterministicMN
  fRateChecksEnabled : Bool
  newSigs : Bool

namespace CGovernanceVote

def getSignal (vote : CGovernanceVote) : VoteSignal := vote.nVoteSignal.toUInt32

def getOutcome (vote : CGovernanceVote) : VoteOutcome := vote.nVoteOutcome.toUInt32

section

variable [VoteCrypto]

def getHash (vote : CGovernanceVote) : UInt256 := VoteCrypto.hash vote.toVoteContent

/-- The text that a signature in the old format signs. -/
def strMessage (vote : CGovernanceVote) : String :=
  toStringShort vote.smartnodeOutpoint ++ "|" ++ hashString vote.nParentHash ++ "|" ++
    toString vote.nVoteSignal ++ "|" ++ toString vote.nVoteOutcome ++ "|" ++ toString vote.nTime

/-- `CheckSignature` for a voting key. -/
def checkSignatureKeyID (env : Env) (vote : CGovernanceVote) (keyID : CKeyID) : Bool :=
  if env.newSigs then
    VoteCrypto.verifyHash (VoteCrypto.signatureHash vote) keyID vote.vchSig ||
      VoteCrypto.verifyMessage keyID vote.vchSig vote.strMessage
  else
    VoteCrypto.verifyMessage keyID vote.vchSig vote.strMessage

/-- `CheckSignature` for an operator key. -/
def checkSignatureOperator (vote : CGovernanceVote) (pubKey : CBLSPublicKey) : Bool :=
  VoteCrypto.verifyInsecure vote.vchSig pubKey (VoteCrypto.signatureHash vote)

def isValid (env : Env) (vote : CGovernanceVote) (useVotingKey : Bool) : Bool :=
  if env.getAdjustedTime + 60 * 60 < vote.nTime then false
  else if 4 < vote.nVoteSignal then false
  else if 3 < vote.nVoteOutcome then false
  else
    match env.getMNByCollateral vote.smartnodeOutpoint with
    | none => false
    | some dmn =>
        if useVotingKey then vote.checkSignatureKeyID env dmn.pdmnState.keyIDVoting
        else vote.checkSignatureOperator dmn.pdmnState.pubKeyOperator

theorem found_of_isValid {env : Env} {vote : CGovernanceVote} {useVotingKey : Bool}
    (h : vote.isValid env useVotingKey = true) : (env.getMNByCollateral vote.smartnodeOutpoint).isNone = false := by
  unfold isValid at h
  cases hmn : env.getMNByCollateral vote.smartnodeOutpoint with
  | none => simp [hmn] at h
  | some dmn => rfl

end

end CGovernanceVote

/-! ## The votes an object keeps -/

/-- An entry of the index points to a vote of the list. -/
structure CGovernanceObjectVoteFile where
  nMemoryVotes : Int := 0
  listVotes : List CGovernanceVote := []
  mapVoteIndex : FiniteMap UInt256 CGovernanceVote := ∅

namespace CGovernanceObjectVoteFile

variable [VoteCrypto]

def hasVote (file : CGovernanceObjectVoteFile) (nHash : UInt256) : Bool := (file.mapVoteIndex.lookup nHash).isSome

/-- The loop of the three removals: every vote that passes the test leaves the list, the index and the count. -/
def removeVotes (file : CGovernanceObjectVoteFile) (test : CGovernanceVote → Bool) : CGovernanceObjectVoteFile where
  nMemoryVotes := file.nMemoryVotes - (file.listVotes.filter test).length
  listVotes := file.listVotes.filter fun vote => !test vote
  mapVoteIndex := file.mapVoteIndex.eraseAll ((file.listVotes.filter test).map CGovernanceVote.getHash)

/-- The votes `RemoveInvalidVotes` removes. -/
def isInvalidVote (env : Env) (outpointSmartnode : COutPoint) (fProposal : Bool) (vote : CGovernanceVote) : Bool :=
  vote.smartnodeOutpoint == outpointSmartnode &&
    !vote.isValid env (fProposal && vote.getSignal == VOTE_SIGNAL_FUNDING)

/-- The hashes of the removed votes, and the file without them. -/
def removeInvalidVotes (env : Env) (file : CGovernanceObjectVoteFile) (outpointSmartnode : COutPoint)
    (fProposal : Bool) : List UInt256 × CGovernanceObjectVoteFile :=
  ((file.listVotes.filter (isInvalidVote env outpointSmartnode fProposal)).map CGovernanceVote.getHash,
    file.removeVotes (isInvalidVote env outpointSmartnode fProposal))

/-- The votes `RemoveOldVotes` removes. -/
def isOldVote (vote other : CGovernanceVote) : Bool :=
  other.smartnodeOutpoint == vote.smartnodeOutpoint && other.nParentHash == vote.nParentHash &&
    other.getSignal == vote.getSignal && decide (other.nTime < vote.nTime)

def removeOldVotes (file : CGovernanceObjectVoteFile) (vote : CGovernanceVote) : CGovernanceObjectVoteFile :=
  file.removeVotes (isOldVote vote)

def addVote (file : CGovernanceObjectVoteFile) (vote : CGovernanceVote) : CGovernanceObjectVoteFile :=
  if file.hasVote vote.getHash then file
  else
    removeOldVotes
      { nMemoryVotes := file.nMemoryVotes + 1
        listVotes := vote :: file.listVotes
        mapVoteIndex := file.mapVoteIndex.emplace vote.getHash vote } vote

/-- The count, the list and the index describe the same votes. -/
structure Indexed (file : CGovernanceObjectVoteFile) : Prop where
  count : file.nMemoryVotes = file.listVotes.length
  nodup : (file.listVotes.map CGovernanceVote.getHash).Nodup
  index : ∀ h vote, file.mapVoteIndex.lookup h = some vote ↔ vote ∈ file.listVotes ∧ vote.getHash = h

variable {file : CGovernanceObjectVoteFile} {vote : CGovernanceVote}

theorem Indexed.hasVote_iff (h : file.Indexed) {nHash : UInt256} :
    file.hasVote nHash = true ↔ ∃ vote ∈ file.listVotes, vote.getHash = nHash := by
  rw [hasVote, Option.isSome_iff_exists]
  simp only [h.index]

theorem Indexed.removeVotes (h : file.Indexed) (test : CGovernanceVote → Bool) : (file.removeVotes test).Indexed where
  count := by
    have hlen := List.length_eq_length_filter_add (l := file.listVotes) test
    show file.nMemoryVotes - _ = _
    rw [h.count, hlen]
    simp only [CGovernanceObjectVoteFile.removeVotes]
    omega
  nodup := h.nodup.sublist (List.filter_sublist.map _)
  index nHash vote := by
    show (file.mapVoteIndex.eraseAll _).lookup nHash = some vote ↔ vote ∈ file.listVotes.filter _ ∧ _
    rw [FiniteMap.lookup_eraseAll, List.mem_filter]
    -- the hashes of the list are different, so an erased hash is that of a removed vote only
    have hsame : ∀ v ∈ file.listVotes, vote ∈ file.listVotes → v.getHash = vote.getHash → v = vote :=
      fun v hv hvote => List.inj_on_of_nodup_map h.nodup hv hvote
    split_ifs with hmem
    · refine ⟨fun hnone => (by cases hnone), ?_⟩
      rintro ⟨⟨hvote, htest⟩, rfl⟩
      obtain ⟨v, hv, hhash⟩ := List.mem_map.mp hmem
      obtain ⟨hv, htrue⟩ := List.mem_filter.mp hv
      rw [hsame v hv hvote hhash] at htrue
      simp [htrue] at htest
    · rw [h.index]
      refine ⟨fun ⟨hvote, hhash⟩ => ⟨⟨hvote, ?_⟩, hhash⟩, fun ⟨⟨hvote, _⟩, hhash⟩ => ⟨hvote, hhash⟩⟩
      by_contra htest
      exact hmem (List.mem_map.mpr ⟨vote, List.mem_filter.mpr ⟨hvote, by simpa using htest⟩, hhash⟩)

theorem Indexed.addVote (h : file.Indexed) (vote : CGovernanceVote) : (file.addVote vote).Indexed := by
  unfold CGovernanceObjectVoteFile.addVote
  split_ifs with hknown
  · exact h
  · have hnew : vote.getHash ∉ file.listVotes.map CGovernanceVote.getHash := by
      intro hmem
      exact hknown (h.hasVote_iff.mpr (List.mem_map.mp hmem))
    have hnone : file.mapVoteIndex.lookup vote.getHash = none :=
      Option.not_isSome_iff_eq_none.mp hknown
    refine @Indexed.removeVotes _ ⟨_, vote :: file.listVotes, _⟩
      ⟨?_, List.nodup_cons.mpr ⟨hnew, h.nodup⟩, fun nHash v => ?_⟩ _
    · simp [h.count]
    · show (file.mapVoteIndex.emplace _ _).lookup nHash = some v ↔ v ∈ vote :: file.listVotes ∧ _
      rw [FiniteMap.lookup_emplace, hnone, Option.none_or, List.mem_cons]
      split_ifs with hkey
      · subst hkey
        constructor
        · rintro ⟨⟩
          exact ⟨.inl rfl, rfl⟩
        · rintro ⟨rfl | hv, hhash⟩
          · rfl
          · exact absurd (List.mem_map.mpr ⟨v, hv, hhash⟩) hnew
      · rw [h.index]
        refine ⟨fun ⟨hv, hhash⟩ => ⟨.inr hv, hhash⟩, ?_⟩
        rintro ⟨rfl | hv, hhash⟩
        · exact absurd hhash.symm hkey
        · exact ⟨hv, hhash⟩

theorem mem_addVote (hnew : file.hasVote vote.getHash = false) {v : CGovernanceVote} :
    v ∈ (file.addVote vote).listVotes ↔ v = vote ∨ v ∈ file.listVotes ∧ isOldVote vote v = false := by
  rw [addVote, hnew, if_neg Bool.false_ne_true]
  show v ∈ (vote :: file.listVotes).filter (fun v => !isOldVote vote v) ↔ _
  have hself : isOldVote vote vote = false := by simp [isOldVote]
  rw [List.mem_filter, List.mem_cons, Bool.not_eq_true']
  constructor
  · rintro ⟨rfl | hv, hold⟩
    · exact .inl rfl
    · exact .inr ⟨hv, hold⟩
  · rintro (rfl | ⟨hv, hold⟩)
    · exact ⟨.inl rfl, hself⟩
    · exact ⟨.inr hv, hold⟩

end CGovernanceObjectVoteFile

/-! ## The current votes -/

/-- `vote_instance_t` -/
structure VoteInstance where
  eOutcome : VoteOutcome := VOTE_OUTCOME_NONE
  nTime : Int := 0
  nCreationTime : Int := 0
deriving DecidableEq, Repr

def GOVERNANCE_OBJECT_PROPOSAL : Int := 1
def GOVERNANCE_OBJECT_TRIGGER : Int := 2

def GOVERNANCE_UPDATE_MIN : Int := 60 * 60

/-- `hash` is the value of `GetHash`, which no vote changes. -/
structure CGovernanceObject where
  hash : UInt256
  nObjectType : Int
  mapCurrentMNVotes : FiniteMap COutPoint (FiniteMap VoteSignal VoteInstance) := ∅
  fileVotes : CGovernanceObjectVoteFile := {}
  fDirtyCache : Bool := true
  fCachedDelete : Bool := false
  fExpired : Bool := false
  nDeletionTime : Int := 0

/-- Why `ProcessVote` returns false. -/
inductive VoteRejection where
  | known
  | smartnodeNotFound
  | signalNone
  | unsupportedSignal
  | obsolete
  | sameTimestamp
  | tooOften (nTimeDelta : Int)
  | invalid
deriving DecidableEq, Repr

/-- `governance_exception_type_enum_t` -/
inductive GovernanceExceptionType where
  | none
  | warning
  | permanentError
  | temporaryError
deriving DecidableEq, Repr

structure CGovernanceException where
  eType : GovernanceExceptionType
  strMessage : String
  nNodePenalty : Int := 0
deriving DecidableEq, Repr

/-- The exception of a rejected vote; the constructor puts the name of the type before the message. -/
def VoteRejection.exception [VoteCrypto] (vote : CGovernanceVote) (nObjectHash : UInt256) :
    VoteRejection → CGovernanceException
  | known => ⟨.none, "CGovernanceObject::ProcessVote -- Already known valid vote", 0⟩
  | smartnodeNotFound =>
      ⟨.permanentError, "CGovernanceObject::ProcessVote -- Smartnode " ++ toStringShort vote.smartnodeOutpoint ++
        " not found", 20⟩
  | signalNone => ⟨.warning, "CGovernanceObject::ProcessVote -- Vote signal: none", 0⟩
  | unsupportedSignal =>
      ⟨.permanentError, "CGovernanceObject::ProcessVote -- Unsupported vote signal: " ++
        convertSignalToString vote.getSignal, 20⟩
  | obsolete => ⟨.none, "CGovernanceObject::ProcessVote -- Obsolete vote", 0⟩
  | sameTimestamp =>
      ⟨.none, "CGovernanceObject::ProcessVote -- Invalid vote, same timestamp for the different outcome, rejected", 0⟩
  | tooOften nTimeDelta =>
      ⟨.temporaryError, "CGovernanceObject::ProcessVote -- Smartnode voting too often, MN outpoint = " ++
        toStringShort vote.smartnodeOutpoint ++ ", governance object hash = " ++ hashString nObjectHash ++
        ", time delta = " ++ toString nTimeDelta, 0⟩
  | invalid =>
      ⟨.permanentError, "CGovernanceObject::ProcessVote -- Invalid vote, MN outpoint = " ++
        toStringShort vote.smartnodeOutpoint ++ ", governance object hash = " ++ hashString nObjectHash ++
        ", vote hash = " ++ hashString vote.getHash, 20⟩

namespace CGovernanceObject

/-- The record of a smartnode for a signal. -/
def voteInstance? (obj : CGovernanceObject) (o : COutPoint) (s : VoteSignal) : Option VoteInstance :=
  (obj.mapCurrentMNVotes.lookup o).bind fun voteRecord => voteRecord.lookup s

/-- The record, or the one `emplace` makes. -/
def voteInstance (obj : CGovernanceObject) (o : COutPoint) (s : VoteSignal) : VoteInstance :=
  (obj.voteInstance? o s).getD {}

/-- `mapCurrentMNVotes.emplace(o, vote_rec_t())` -/
def emplaceRecord (obj : CGovernanceObject) (o : COutPoint) : CGovernanceObject :=
  { obj with mapCurrentMNVotes := obj.mapCurrentMNVotes.emplace o ∅ }

/-- `voteInstanceRef = inst`, in the record of `o`. -/
def setInstance (obj : CGovernanceObject) (o : COutPoint) (s : VoteSignal) (inst : VoteInstance) : CGovernanceObject :=
  { obj with mapCurrentMNVotes :=
      obj.mapCurrentMNVotes.insert o (((obj.mapCurrentMNVotes.lookup o).getD ∅).insert s inst) }

section

variable [VoteCrypto]

/-- `onlyVotingKeyAllowed` -/
def onlyVotingKeyAllowed (obj : CGovernanceObject) (vote : CGovernanceVote) : Bool :=
  obj.nObjectType == GOVERNANCE_OBJECT_PROPOSAL && vote.getSignal == VOTE_SIGNAL_FUNDING

/-- `ProcessVote`: why the vote is rejected, if it is, and the object. `AddGovernanceVote` of the smartnode's metadata
always succeeds. -/
def processVote (env : Env) (obj : CGovernanceObject) (vote : CGovernanceVote) :
    Option VoteRejection × CGovernanceObject :=
  if obj.fileVotes.hasVote vote.getHash then (some .known, obj)
  else if (env.getMNByCollateral vote.smartnodeOutpoint).isNone then (some .smartnodeNotFound, obj)
  else
    let obj := obj.emplaceRecord vote.smartnodeOutpoint
    if vote.getSignal = VOTE_SIGNAL_NONE then (some .signalNone, obj)
    else if MAX_SUPPORTED_VOTE_SIGNAL < vote.getSignal then (some .unsupportedSignal, obj)
    else
      -- `emplace` on the instances of the record
      let inst := obj.voteInstance vote.smartnodeOutpoint vote.getSignal
      let obj := obj.setInstance vote.smartnodeOutpoint vote.getSignal inst
      if vote.nTime < inst.nCreationTime then (some .obsolete, obj)
      else if vote.nTime = inst.nCreationTime ∧ vote.getOutcome < inst.eOutcome then (some .sameTimestamp, obj)
      else if env.fRateChecksEnabled ∧ env.getAdjustedTime - inst.nTime < GOVERNANCE_UPDATE_MIN then
        (some (.tooOften (env.getAdjustedTime - inst.nTime)), obj)
      else if !vote.isValid env (obj.onlyVotingKeyAllowed vote) then (some .invalid, obj)
      else
        let nVoteTimeUpdate := if env.fRateChecksEnabled then env.getAdjustedTime else inst.nTime
        let obj := obj.setInstance vote.smartnodeOutpoint vote.getSignal ⟨vote.getOutcome, nVoteTimeUpdate, vote.nTime⟩
        (none, { obj with fileVotes := obj.fileVotes.addVote vote, fDirtyCache := true })

/-- `ClearSmartnodeVotes`: the records of the smartnodes that left the list go, and their votes. -/
def clearSmartnodeVotes (env : Env) (obj : CGovernanceObject) : CGovernanceObject :=
  let gone o := (env.getMNByCollateral o).isNone
  { obj with
    mapCurrentMNVotes := obj.mapCurrentMNVotes.keep fun o _ => !gone o
    fileVotes := obj.fileVotes.removeVotes fun vote =>
      (obj.mapCurrentMNVotes.lookup vote.smartnodeOutpoint).isSome && gone vote.smartnodeOutpoint
    fDirtyCache := obj.fDirtyCache || decide (∃ o ∈ obj.mapCurrentMNVotes.keys, gone o) }

/-- The content of `tmpVote`, a vote made from a record. -/
def tmpVote (obj : CGovernanceObject) (o : COutPoint) (s : VoteSignal) (inst : VoteInstance) : VoteContent :=
  ⟨o, obj.hash, s.toInt32, inst.eOutcome.toInt32, inst.nCreationTime⟩

/-- `RemoveInvalidVotes`: the hashes of the removed votes, and the object without the records that were made from
one of them. -/
def removeInvalidVotes (env : Env) (obj : CGovernanceObject) (mnOutpoint : COutPoint) :
    List UInt256 × CGovernanceObject :=
  match obj.mapCurrentMNVotes.lookup mnOutpoint with
  | none => ([], obj)
  | some voteRecord =>
      let (removedVotes, fileVotes) := obj.fileVotes.removeInvalidVotes env mnOutpoint
        (obj.nObjectType == GOVERNANCE_OBJECT_PROPOSAL)
      if removedVotes.isEmpty then ([], { obj with fileVotes })
      else
        let voteRecord := voteRecord.keep fun s inst =>
          !removedVotes.contains (VoteCrypto.hash (obj.tmpVote mnOutpoint s inst))
        (removedVotes,
          { obj with
            mapCurrentMNVotes :=
              if voteRecord.size = 0 then obj.mapCurrentMNVotes.erase mnOutpoint
              else obj.mapCurrentMNVotes.insert mnOutpoint voteRecord
            fileVotes
            fDirtyCache := true })

end

def countMatchingVotes (obj : CGovernanceObject) (eVoteSignalIn : VoteSignal) (eVoteOutcomeIn : VoteOutcome) : Int :=
  (obj.mapCurrentMNVotes.keys.filter fun o =>
    (obj.voteInstance? o eVoteSignalIn).map VoteInstance.eOutcome = some eVoteOutcomeIn).card

def getYesCount (obj : CGovernanceObject) (s : VoteSignal) : Int := obj.countMatchingVotes s VOTE_OUTCOME_YES

def getNoCount (obj : CGovernanceObject) (s : VoteSignal) : Int := obj.countMatchingVotes s VOTE_OUTCOME_NO

def getAbstainCount (obj : CGovernanceObject) (s : VoteSignal) : Int := obj.countMatchingVotes s VOTE_OUTCOME_ABSTAIN

end CGovernanceObject

/-! ## What `ProcessVote` does -/

/-- The signals that `ProcessVote` counts. -/
def Supported (s : VoteSignal) : Prop := s ≠ VOTE_SIGNAL_NONE ∧ s ≤ MAX_SUPPORTED_VOTE_SIGNAL

instance (s : VoteSignal) : Decidable (Supported s) := inferInstanceAs (Decidable (_ ∧ _))

/-- Timestamp and outcome, in the order in which votes replace each other. -/
def CGovernanceVote.stamp (vote : CGovernanceVote) : ℤ ×ₗ ℕ := toLex (vote.nTime, vote.getOutcome.toNat)

def VoteInstance.stamp (inst : VoteInstance) : ℤ ×ₗ ℕ := toLex (inst.nCreationTime, inst.eOutcome.toNat)

/-- The content of a vote, by its slot, parent and stamp. -/
theorem CGovernanceVote.content_eq {v w : CGovernanceVote} (ho : v.smartnodeOutpoint = w.smartnodeOutpoint)
    (hs : v.getSignal = w.getSignal) (hparent : v.nParentHash = w.nParentHash) (hstamp : v.stamp = w.stamp) :
    v.toVoteContent = w.toVoteContent := by
  obtain ⟨htime, houtcome⟩ := Prod.mk.inj (toLex.injective hstamp)
  have hsignal : v.nVoteSignal = w.nVoteSignal := by
    simpa [getSignal] using congrArg UInt32.toInt32 hs
  have houtcome' : v.nVoteOutcome = w.nVoteOutcome := by
    simpa [getOutcome] using congrArg UInt32.toInt32 (UInt32.toNat_inj.mp houtcome)
  obtain ⟨⟨_, _, _, _, _⟩, _⟩ := v
  obtain ⟨⟨_, _, _, _, _⟩, _⟩ := w
  simp only at ho hparent hsignal houtcome' htime
  simp only [ho, hparent, hsignal, houtcome', htime]

theorem VoteInstance.stamp_le_iff {inst : VoteInstance} {vote : CGovernanceVote} : inst.stamp ≤ vote.stamp ↔
    ¬ vote.nTime < inst.nCreationTime ∧ ¬ (vote.nTime = inst.nCreationTime ∧ vote.getOutcome < inst.eOutcome) := by
  rw [stamp, CGovernanceVote.stamp, Prod.Lex.toLex_le_toLex, UInt32.lt_iff_toNat_lt]
  dsimp only
  omega

/-- A vote without a record to replace is taken unless its timestamp is negative. -/
theorem stamp_default_le_iff {vote : CGovernanceVote} : VoteInstance.stamp {} ≤ vote.stamp ↔ 0 ≤ vote.nTime := by
  have hzero : (VOTE_OUTCOME_NONE : VoteOutcome).toNat = 0 := rfl
  rw [VoteInstance.stamp, CGovernanceVote.stamp, Prod.Lex.toLex_le_toLex]
  dsimp only
  omega

namespace CGovernanceObject

def hasRecord (obj : CGovernanceObject) (o : COutPoint) : Bool := (obj.mapCurrentMNVotes.lookup o).isSome

/-- The record of the slot is made if it is not there. -/
def touch (obj : CGovernanceObject) (o : COutPoint) (s : VoteSignal) : CGovernanceObject :=
  (obj.emplaceRecord o).setInstance o s (obj.voteInstance o s)

section

variable {obj : CGovernanceObject} {o o' : COutPoint} {s s' : VoteSignal} {inst : VoteInstance}

theorem voteInstance?_emplaceRecord : (obj.emplaceRecord o).voteInstance? o' s = obj.voteInstance? o' s := by
  simp only [voteInstance?, emplaceRecord, FiniteMap.lookup_emplace]
  split_ifs with ho
  · subst ho
    cases obj.mapCurrentMNVotes.lookup o' <;> rfl
  · rfl

theorem voteInstance?_setInstance : (obj.setInstance o s inst).voteInstance? o' s' =
    if o' = o ∧ s' = s then some inst else obj.voteInstance? o' s' := by
  simp only [voteInstance?, setInstance, FiniteMap.lookup_assign]
  by_cases ho : o' = o
  · subst ho
    rw [if_pos rfl, Option.bind_some, FiniteMap.lookup_assign]
    simp only [true_and]
    split_ifs
    · rfl
    · cases obj.mapCurrentMNVotes.lookup o' <;> rfl
  · rw [if_neg ho, if_neg fun h => ho h.1]

theorem voteInstance?_touch : (obj.touch o s).voteInstance? o' s' =
    if o' = o ∧ s' = s then some (obj.voteInstance o s) else obj.voteInstance? o' s' := by
  rw [touch, voteInstance?_setInstance, voteInstance?_emplaceRecord]

theorem hasRecord_emplaceRecord : (obj.emplaceRecord o).hasRecord o' = true ↔ o' = o ∨ obj.hasRecord o' = true := by
  simp only [hasRecord, emplaceRecord, FiniteMap.lookup_emplace]
  split_ifs with ho
  · simp [ho]
  · simp [ho]

theorem hasRecord_setInstance :
    (obj.setInstance o s inst).hasRecord o' = true ↔ o' = o ∨ obj.hasRecord o' = true := by
  simp only [hasRecord, setInstance, FiniteMap.lookup_assign]
  split_ifs with ho
  · simp [ho]
  · simp [ho]

theorem hasRecord_touch : (obj.touch o s).hasRecord o' = true ↔ o' = o ∨ obj.hasRecord o' = true := by
  rw [touch, hasRecord_setInstance, hasRecord_emplaceRecord, ← or_assoc, or_self]

/-- The records of two objects agree. -/
theorem mapCurrentMNVotes_ext {obj' : CGovernanceObject}
    (hrecord : ∀ o, obj.hasRecord o = true ↔ obj'.hasRecord o = true)
    (hinst : ∀ o s, obj.voteInstance? o s = obj'.voteInstance? o s) :
    obj.mapCurrentMNVotes = obj'.mapCurrentMNVotes := by
  refine Finmap.ext_lookup fun o => ?_
  have hsome := hrecord o
  have hslots := hinst o
  unfold hasRecord at hsome
  unfold voteInstance? at hslots
  rcases hl : obj.mapCurrentMNVotes.lookup o with _ | r <;> rcases hl' : obj'.mapCurrentMNVotes.lookup o with _ | r'
  · rfl
  · simp [hl, hl'] at hsome
  · simp [hl, hl'] at hsome
  · rw [hl, hl'] at hslots
    exact congrArg some (Finmap.ext_lookup hslots)

end

section

variable [VoteCrypto]

/-- The checks of `ProcessVote`. -/
structure Accepts (env : Env) (obj : CGovernanceObject) (vote : CGovernanceVote) : Prop where
  unknown : obj.fileVotes.hasVote vote.getHash = false
  supported : Supported vote.getSignal
  newer : (obj.voteInstance vote.smartnodeOutpoint vote.getSignal).stamp ≤ vote.stamp
  rate : env.fRateChecksEnabled = true → GOVERNANCE_UPDATE_MIN ≤
    env.getAdjustedTime - (obj.voteInstance vote.smartnodeOutpoint vote.getSignal).nTime
  valid : vote.isValid env (obj.onlyVotingKeyAllowed vote) = true

/-- What an accepted vote leaves in its slot. -/
def recorded (env : Env) (obj : CGovernanceObject) (vote : CGovernanceVote) : VoteInstance where
  eOutcome := vote.getOutcome
  nTime := if env.fRateChecksEnabled then env.getAdjustedTime
    else (obj.voteInstance vote.smartnodeOutpoint vote.getSignal).nTime
  nCreationTime := vote.nTime

/-- The object after an accepted vote. -/
def accept (env : Env) (obj : CGovernanceObject) (vote : CGovernanceVote) : CGovernanceObject :=
  { (obj.touch vote.smartnodeOutpoint vote.getSignal).setInstance vote.smartnodeOutpoint vote.getSignal
      (obj.recorded env vote) with
    fileVotes := obj.fileVotes.addVote vote
    fDirtyCache := true }

variable {env : Env} {obj : CGovernanceObject} {vote : CGovernanceVote} {o : COutPoint} {s : VoteSignal}

theorem voteInstance?_accept : (obj.accept env vote).voteInstance? o s =
    if o = vote.smartnodeOutpoint ∧ s = vote.getSignal then some (obj.recorded env vote)
    else obj.voteInstance? o s := by
  show CGovernanceObject.voteInstance? (setInstance _ _ _ _) o s = _
  rw [voteInstance?_setInstance, voteInstance?_touch]
  split_ifs <;> rfl

theorem hasRecord_accept :
    (obj.accept env vote).hasRecord o = true ↔ o = vote.smartnodeOutpoint ∨ obj.hasRecord o = true := by
  show hasRecord (setInstance _ _ _ _) o = true ↔ _
  rw [hasRecord_setInstance, hasRecord_touch, ← or_assoc, or_self]

/-- **The outcomes of `ProcessVote`**: a vote that passes the checks replaces the record of its slot; of any other vote
at most an empty record is left. -/
theorem processVote_cases (env : Env) (obj : CGovernanceObject) (vote : CGovernanceVote) :
    obj.fileVotes.hasVote vote.getHash = true ∧ obj.processVote env vote = (some .known, obj) ∨
    (env.getMNByCollateral vote.smartnodeOutpoint).isNone = true ∧
      obj.processVote env vote = (some .smartnodeNotFound, obj) ∨
    ¬ Supported vote.getSignal ∧
      (∃ r, obj.processVote env vote = (some r, obj.emplaceRecord vote.smartnodeOutpoint)) ∨
    (obj.fileVotes.hasVote vote.getHash = false ∧ Supported vote.getSignal ∧ ¬ Accepts env obj vote ∧
      ∃ r, obj.processVote env vote = (some r, obj.touch vote.smartnodeOutpoint vote.getSignal)) ∨
    Accepts env obj vote ∧ obj.processVote env vote = (none, obj.accept env vote) := by
  have hinst : (obj.emplaceRecord vote.smartnodeOutpoint).voteInstance vote.smartnodeOutpoint vote.getSignal =
      obj.voteInstance vote.smartnodeOutpoint vote.getSignal := by
    rw [voteInstance, voteInstance?_emplaceRecord, voteInstance]
  unfold processVote
  dsimp only
  rw [hinst]
  by_cases hknown : obj.fileVotes.hasVote vote.getHash = true
  · exact .inl ⟨hknown, if_pos hknown⟩
  rw [if_neg hknown]
  have hunknown : obj.fileVotes.hasVote vote.getHash = false := Bool.eq_false_iff.mpr hknown
  by_cases hfound : (env.getMNByCollateral vote.smartnodeOutpoint).isNone = true
  · exact .inr (.inl ⟨hfound, if_pos hfound⟩)
  rw [if_neg hfound]
  by_cases hnone : vote.getSignal = VOTE_SIGNAL_NONE
  · exact .inr (.inr (.inl ⟨fun h => h.1 hnone, _, if_pos hnone⟩))
  rw [if_neg hnone]
  by_cases hmax : MAX_SUPPORTED_VOTE_SIGNAL < vote.getSignal
  · exact .inr (.inr (.inl ⟨fun h => absurd h.2 (by simpa using hmax), _, if_pos hmax⟩))
  rw [if_neg hmax]
  have hsupported : Supported vote.getSignal := ⟨hnone, by simpa using hmax⟩
  refine .inr (.inr (.inr ?_))
  -- the four refusals of a supported vote leave the record that was made
  by_cases hobsolete : vote.nTime < (obj.voteInstance vote.smartnodeOutpoint vote.getSignal).nCreationTime
  · exact .inl ⟨hunknown, hsupported, fun h => (VoteInstance.stamp_le_iff.mp h.newer).1 hobsolete, _, if_pos hobsolete⟩
  rw [if_neg hobsolete]
  by_cases hsame : vote.nTime = (obj.voteInstance vote.smartnodeOutpoint vote.getSignal).nCreationTime ∧
      vote.getOutcome < (obj.voteInstance vote.smartnodeOutpoint vote.getSignal).eOutcome
  · exact .inl ⟨hunknown, hsupported, fun h => (VoteInstance.stamp_le_iff.mp h.newer).2 hsame, _, if_pos hsame⟩
  rw [if_neg hsame]
  by_cases hrate : env.fRateChecksEnabled = true ∧ env.getAdjustedTime -
      (obj.voteInstance vote.smartnodeOutpoint vote.getSignal).nTime < GOVERNANCE_UPDATE_MIN
  · refine .inl ⟨hunknown, hsupported, fun h => ?_, _, if_pos hrate⟩
    have hle := h.rate hrate.1
    omega
  rw [if_neg hrate]
  by_cases hvalid : vote.isValid env (obj.onlyVotingKeyAllowed vote) = true
  · refine .inr ⟨⟨hunknown, hsupported, VoteInstance.stamp_le_iff.mpr ⟨hobsolete, hsame⟩, fun hon => ?_, hvalid⟩, ?_⟩
    · by_contra hlt
      exact hrate ⟨hon, by omega⟩
    · have hpass : ¬ (!vote.isValid env (obj.onlyVotingKeyAllowed vote)) = true := by simp [hvalid]
      exact if_neg hpass
  · refine .inl ⟨hunknown, hsupported, fun h => hvalid h.valid, _, if_pos ?_⟩
    exact Bool.not_eq_true' _ ▸ (Bool.eq_false_iff.mpr hvalid)

end

end CGovernanceObject

end RavenCash.Governance
