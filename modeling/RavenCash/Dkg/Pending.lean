import RavenCash.Bls.ContributionVerifier
import RavenCash.Dkg.Safety

/-!
# Waiting for the shares

`VerifyPendingContributions` hands the vectors and shares of the pending members to the worker and waits for the
callback. Members that are bad by now or about which we complain are left out, and then nothing may be left to verify;
and a share that was decrypted may be no valid key.
-/

set_option autoImplicit false

namespace RavenCash.Evo.Llmq

section

variable [EvoCrypto] [QuorumCrypto] [DkgCrypto]

/-- The vectors and shares of a session, for our id. -/
def shareOps (myId : UInt256) : Bls.ShareOps BLSVerificationVector CBLSSecretKey where
  isValid sk := decide (sk ≠ 0)
  addShare a b := DkgCrypto.aggregateSecretKeys [a, b]
  addVvec := List.zipWith fun a b => DkgCrypto.aggregatePublicKeys [a, b]
  isEmpty := List.isEmpty
  verify vvec sk := decide (DkgCrypto.publicKeyShare vvec myId = some (DkgCrypto.getPublicKey sk))

namespace DkgNode

variable (node : DkgNode)

/-- The pending members whose shares are verified. -/
def verified (s : CDKGSession node.n) : List (Fin node.n) :=
  s.pendingContributionVerifications.filter fun i => !((s.members i).bad || (s.members i).weComplain)

/-- What the worker gets; the vectors are there if they are accepted. -/
def pendingShares (s : CDKGSession node.n) : List (BLSVerificationVector × CBLSSecretKey) :=
  (node.verified s).map fun i => ((s.members i).receivedVvec.getD [], (s.members i).receivedSkContribution)

def accepted (s : CDKGSession node.n) : Bool :=
  verifyVerificationVectors ((node.verified s).map fun i => (s.members i).receivedVvec)

/-- **`VerifyPendingContributions` returns**: nothing is pending, or in every schedule of the pool the callback is
called exactly once. -/
def Returns (s : CDKGSession node.n) (myId : UInt256) : Prop :=
  s.pendingContributionVerifications = [] ∨
    ∃ result, Bls.CompletesOnce (shareOps myId) (node.pendingShares s).length
      (Bls.asyncVerifyContributionShares (shareOps myId) (node.accepted s) true (node.pendingShares s)) result

omit [QuorumCrypto] in
theorem returns_iff_verifiable (s : CDKGSession node.n) (myId : UInt256) : node.Returns s myId ↔
    (s.pendingContributionVerifications ≠ [] → node.accepted s = true →
      Bls.Verifiable (shareOps myId) true (node.pendingShares s)) := by
  unfold Returns
  simp only [Bls.completesOnce_iff, exists_and_left, exists_eq, and_true]
  rw [or_iff_not_imp_left]

omit [QuorumCrypto] in
/-- **Waiting for the worker.** In every state of a session, `VerifyPendingContributions` returns if and only if nothing
is pending, or the vectors are refused, or a share is left to verify, the vectors have entries, and the shares of each
batch of two or more are valid keys. -/
theorem returns_iff (s : CDKGSession node.n) (myId : UInt256) : node.Returns s myId ↔
    (s.pendingContributionVerifications ≠ [] → node.accepted s = true →
      (∃ i ∈ (node.verified s).head?, (s.members i).receivedVvec.getD [] ≠ []) ∧
        ∀ l ∈ Bls.batches true (node.pendingShares s), l.length ≤ 1 ∨ ∀ p ∈ l, p.2 ≠ 0) := by
  rw [returns_iff_verifiable]
  refine imp_congr_right fun _ => imp_congr_right fun _ => ?_
  unfold Bls.Verifiable Bls.CanAggregate
  simp only [forall_const, shareOps, decide_eq_true_eq, ← and_assoc]
  refine and_congr_left fun _ => ?_
  unfold pendingShares
  rcases node.verified s with _ | ⟨i, rest⟩
  · exact iff_of_false (fun h => h.1 rfl) nofun
  · simp [Bls.firstEmpty]

end DkgNode

end

/-! ## Two rounds -/

section

attribute [local instance] plainCrypto oneQuorumCrypto

/-- As before, but a blob may hold the zero key. -/
@[reducible] def zeroDkgCrypto : DkgCrypto :=
  { oneDkgCrypto with
    decrypt := fun blobs i _ => (blobs.blobs[i]?).bind fun blob =>
      if blob = [1] then some 1 else if blob = [0] then some 0 else none }

attribute [local instance] zeroDkgCrypto

/-- A contribution with a share for the first member. -/
def contributionOf (proTxHash : UInt256) (vvec : BLSVerificationVector) (share : UInt8) (sig : CBLSSignature) :
    DKGMessage :=
  .contribution { llmqType := .LLMQ_50_60, quorumHash := 100, proTxHash := proTxHash, vvec := vvec
                  contributions := ⟨1, 0, [[share], [1], [1]]⟩, sig := sig }

/-- The state on the main chain after messages. -/
def after (msgs : List DKGMessage) : Option (DkgState sampleNode.n) :=
  (msgs.flatMap DKGMessage.events).foldlM sampleNode.step { chain := Network.main.chainParams }

/-- After the contributions something is pending and accepted, but there is no share left, or a batch of two or more has
the zero key. -/
theorem not_returns_of_run {msgs : List DKGMessage} (h : (after msgs).map (fun st =>
      decide (st.session.pendingContributionVerifications ≠ []) && sampleNode.accepted st.session &&
        ((sampleNode.pendingShares st.session).isEmpty ||
          (Bls.batches true (sampleNode.pendingShares st.session)).any fun l =>
            decide (1 < l.length) && l.any fun p => decide (p.2 = 0))) = some true) :
    ∃ st, after msgs = some st ∧ ¬ sampleNode.Returns st.session 1 := by
  obtain ⟨st, hrun, hbad⟩ := Option.map_eq_some_iff.mp h
  simp only [Bool.and_eq_true, decide_eq_true_eq, Bool.or_eq_true, List.any_eq_true, List.isEmpty_iff] at hbad
  obtain ⟨⟨hpending, haccepted⟩, hbad⟩ := hbad
  refine ⟨st, hrun, fun hreturns => ?_⟩
  obtain ⟨hne, hverifiable⟩ := (sampleNode.returns_iff_verifiable st.session 1).mp hreturns hpending haccepted
  rcases hbad with hnone | ⟨l, hl, hlong, p, hp, hzero⟩
  · exact hne hnone
  · rcases (hverifiable rfl).2 l hl with hshort | hvalid
    · omega
    · exact of_decide_eq_true (hvalid p hp) hzero

/-- Member 2 sends two contributions, and nothing else is pending: the callback is never called. Member 2 sends the zero
key as the share of the first member, whose own contribution is pending too: an assertion fails. -/
theorem verifyPendingContributions_stuck :
    (∃ st, after [contributionOf 2 [3, 4] 1 1, contributionOf 2 [3, 4] 1 2] = some st ∧
      ¬ sampleNode.Returns st.session 1) ∧
    ∃ st, after [contributionOf 1 [1, 2] 1 1, contributionOf 2 [3, 4] 0 1] = some st ∧
      ¬ sampleNode.Returns st.session 1 :=
  ⟨not_returns_of_run (by decide +kernel), not_returns_of_run (by decide +kernel)⟩

end

end RavenCash.Evo.Llmq
