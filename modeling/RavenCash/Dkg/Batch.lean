import RavenCash.Dkg.Session

/-!
# Batches of DKG messages

`ProcessPendingMessageBatch` and `BatchVerifyMessageSigs` (llmq/quorums_dkgsessionhandler.cpp). The signatures of a
batch are verified at once. If that fails, a batch that comes from one peer is that peer's fault, and otherwise the
messages are verified one by one.

The loop that looks for a second peer never clears `first`, so it always ends with the peer of the last message and
with `nodeIdsAllSame`: that peer is blamed, and the others are not looked at (`sameNode_eq`). Signatures that were not
readable are not turned down before, and `AggregateInsecure` asserts that there are none.
-/

set_option autoImplicit false

namespace RavenCash.Evo.Llmq

abbrev NodeId := Int

section

variable [EvoCrypto] [QuorumCrypto] [DkgCrypto]

/-! ## The code -/

/-- What the first loop of `BatchVerifyMessageSigs` collects. -/
structure SigBatch where
  ret : Finset NodeId := ∅
  /-- `aggSig` is the aggregate of these -/
  sigs : List CBLSSignature := []
  /-- with the hashes that they signed -/
  pubKeys : List (CBLSPublicKey × UInt256) := []

namespace SigBatch

/-- `AggregateInsecure`, with its assertion. -/
def aggregate (sigs : List CBLSSignature) (sig : CBLSSignature) : Option (List CBLSSignature) :=
  if sigs = [] then some [sig]
  else if sigs.all (· != 0) && sig != 0 then some (sigs ++ [sig])
  else none

/-- `VerifyInsecureAggregated` -/
def verify (b : SigBatch) : Bool :=
  b.sigs != [] && b.sigs.all (· != 0) && DkgCrypto.verifyInsecureAggregated b.sigs b.pubKeys

/-- The loop, with `revertToSingleVerification`. -/
def collect (q : DkgQuorum) : SigBatch → List (NodeId × DKGMessage) → Option (Bool × SigBatch)
  | b, [] => some (false, b)
  | b, p :: messages =>
      match q.getMember p.2.proTxHash with
      | none => collect q { b with ret := insert p.1 b.ret } messages
      | some i =>
          match aggregate b.sigs p.2.sig with
          | none => none
          | some sigs =>
              if p.2.getSignHash ∈ b.pubKeys.map Prod.snd then some (true, { b with sigs := sigs })
              else
                collect q { b with
                  sigs := sigs
                  pubKeys := b.pubKeys ++ [((q.dmn i).pdmnState.pubKeyOperator, p.2.getSignHash)] } messages

end SigBatch

/-- Are all messages from the same node? The result is `nodeIdsAllSame` and `firstNodeId`. -/
def sameNode : Bool → NodeId → List (NodeId × DKGMessage) → Bool × NodeId
  | _, firstNodeId, [] => (true, firstNodeId)
  | first, firstNodeId, p :: messages =>
      if first then sameNode first p.1 messages
      else if p.1 != firstNodeId then (false, firstNodeId)
      else sameNode false firstNodeId messages

/-- The operator signature verifies. -/
def DkgQuorum.authentic (q : DkgQuorum) (msg : DKGMessage) : Bool :=
  (q.getMember msg.proTxHash).any fun i =>
    verifyInsecure msg.sig (q.dmn i).pdmnState.pubKeyOperator msg.getSignHash

/-- The messages one by one; those of a peer that is bad already are skipped. -/
def verifySingle (q : DkgQuorum) : Finset NodeId → List (NodeId × DKGMessage) → Option (Finset NodeId)
  | ret, [] => some ret
  | ret, p :: messages =>
      if p.1 ∈ ret then verifySingle q ret messages
      else
        match q.getMember p.2.proTxHash with
        | none => none
        | some _ => verifySingle q (if q.authentic p.2 then ret else insert p.1 ret) messages

/-- Returns a set of peers which sent invalid messages. -/
def batchVerifyMessageSigs (q : DkgQuorum) (messages : List (NodeId × DKGMessage)) : Option (Finset NodeId) :=
  if messages.isEmpty then some ∅
  else
    match SigBatch.collect q {} messages with
    | none => none
    | some (true, b) => verifySingle q b.ret messages
    | some (false, b) =>
        if b.verify then some b.ret
        else
          match sameNode true 0 messages with
          | (true, firstNodeId) => some (insert firstNodeId b.ret)
          | (false, _) => verifySingle q b.ret messages

namespace DkgNode

variable (node : DkgNode)

/-- The messages that are left, and the peers that are punished. -/
def preVerifyMessages (s : CDKGSession node.n) :
    List (NodeId × Option DKGMessage) → List (NodeId × DKGMessage) × List NodeId
  | [] => ([], [])
  | (peer, none) :: msgs => -- failed to deserialize message
      let r := preVerifyMessages s msgs
      (r.1, peer :: r.2)
  | (peer, some msg) :: msgs =>
      let r := preVerifyMessages s msgs
      match node.preVerifyMessage s msg with
      | .ok () => ((peer, msg) :: r.1, r.2)
      | .error e => (r.1, if e.retBan then peer :: r.2 else r.2)

/-- The messages that are passed to `ReceiveMessage`. -/
def passedMessages (badNodes : Finset NodeId) (messages : List (NodeId × DKGMessage)) : List DKGMessage :=
  (messages.filter fun p => decide (p.1 ∉ badNodes)).map Prod.snd

/-- The session after a batch of messages, and the peers that are punished. -/
def processPendingMessageBatch (s : CDKGSession node.n) (msgs : List (NodeId × Option DKGMessage)) :
    Option (CDKGSession node.n × List NodeId) := do
  let (messages, misbehaving) := node.preVerifyMessages s msgs
  let badNodes ← batchVerifyMessageSigs node.quorum messages
  let s ← (passedMessages badNodes messages).foldlM node.receiveMessage s
  return (s, misbehaving ++ (messages.map Prod.fst).filter fun peer => decide (peer ∈ badNodes))

end DkgNode

/-! ## What it finds -/

/-- **The assumption.** The aggregate of readable signatures of different hashes verifies if and only if all do. -/
def AggregatesExactly : Prop :=
  ∀ l : List (CBLSSignature × CBLSPublicKey × UInt256), l ≠ [] → (l.map fun x => x.2.2).Nodup →
    (∀ x ∈ l, x.1 ≠ 0) → (DkgCrypto.verifyInsecureAggregated (l.map Prod.fst) (l.map Prod.snd) = true ↔
      ∀ x ∈ l, verifyInsecure x.1 x.2.1 x.2.2 = true)

/-- The messages that the first loop gets to see: those up to the first one whose hash was there before. -/
def upToDuplicate : List UInt256 → List (NodeId × DKGMessage) → List (NodeId × DKGMessage)
  | _, [] => []
  | seen, p :: messages =>
      if p.2.getSignHash ∈ seen then [p] else p :: upToDuplicate (seen ++ [p.2.getSignHash]) messages

/-- **The condition on a batch.** The signatures that are aggregated are readable, and if all hashes are different then
the messages whose signature does not verify are from the peer of the last message. -/
def Checkable (q : DkgQuorum) (messages : List (NodeId × DKGMessage)) : Prop :=
  (messages.length ≤ 1 ∨ ∀ p ∈ upToDuplicate [] messages, p.2.sig ≠ 0) ∧
    ((messages.map fun p => p.2.getSignHash).Nodup →
      ∀ p ∈ messages, q.authentic p.2 = false → messages.getLast?.map Prod.fst = some p.1)

omit [EvoCrypto] [QuorumCrypto] [DkgCrypto] in
/-- The loop ends with the last peer. -/
theorem sameNode_eq (firstNodeId : NodeId) (messages : List (NodeId × DKGMessage)) :
    sameNode true firstNodeId messages = (true, (messages.getLast?.map Prod.fst).getD firstNodeId) := by
  induction messages generalizing firstNodeId with
  | nil => rfl
  | cons p messages ih =>
    unfold sameNode
    rw [if_pos rfl, ih]
    rcases messages with _ | ⟨p', messages⟩
    · rfl
    · rw [List.getLast?_cons_cons]
      rcases hlast : (p' :: messages).getLast? with _ | x
      · rw [List.getLast?_eq_none_iff] at hlast
        cases hlast
      · rfl

theorem mem_verifySingle {q : DkgQuorum} {ret : Finset NodeId} {messages : List (NodeId × DKGMessage)}
    (hknown : ∀ p ∈ messages, (q.getMember p.2.proTxHash).isSome = true) :
    ∃ ret', verifySingle q ret messages = some ret' ∧
      ∀ peer, peer ∈ ret' ↔ peer ∈ ret ∨ ∃ p ∈ messages, p.1 = peer ∧ q.authentic p.2 = false := by
  induction messages generalizing ret with
  | nil => exact ⟨ret, rfl, fun peer => by simp⟩
  | cons p messages ih =>
    have hrest := fun ret => @ih ret fun p' hp' => hknown p' (List.mem_cons_of_mem p hp')
    unfold verifySingle
    by_cases hmem : p.1 ∈ ret
    · rw [if_pos hmem]
      obtain ⟨ret', hrun, hiff⟩ := hrest ret
      refine ⟨ret', hrun, fun peer => (hiff peer).trans ?_⟩
      rw [List.exists_mem_cons_iff]
      constructor
      · exact Or.imp_right .inr
      · rintro (hret | ⟨rfl, -⟩ | hlater)
        · exact .inl hret
        · exact .inl hmem
        · exact .inr hlater
    · obtain ⟨i, hi⟩ := Option.isSome_iff_exists.mp (hknown p List.mem_cons_self)
      rw [if_neg hmem, hi]
      dsimp only
      obtain ⟨ret', hrun, hiff⟩ := hrest (if q.authentic p.2 then ret else insert p.1 ret)
      refine ⟨ret', hrun, fun peer => (hiff peer).trans ?_⟩
      rw [List.exists_mem_cons_iff]
      cases hauth : q.authentic p.2 with
      | true => simp
      | false =>
        rw [if_neg Bool.false_ne_true, Finset.mem_insert, or_left_comm, or_assoc, eq_comm]
        simp

end

/-! ## The first loop -/

namespace SigBatch

variable {q : DkgQuorum} {b : SigBatch} {messages : List (NodeId × DKGMessage)}

/-- The batch holds readable signatures. -/
structure Readable (b : SigBatch) : Prop where
  ne_nil : b.sigs ≠ []
  valid : b.sigs.all (· != 0) = true

theorem Readable.aggregate (h : Readable b) (sig : CBLSSignature) :
    aggregate b.sigs sig = if sig = 0 then none else some (b.sigs ++ [sig]) := by
  unfold SigBatch.aggregate
  rw [if_neg h.ne_nil, h.valid, Bool.true_and]
  by_cases hsig : sig = 0
  · rw [if_pos hsig, if_neg (by simpa using hsig)]
  · rw [if_neg hsig, if_pos (bne_iff_ne.mpr hsig)]

theorem Readable.add (h : Readable b) {sig : CBLSSignature} (hsig : sig ≠ 0)
    (pubKeys : List (CBLSPublicKey × UInt256)) :
    Readable { b with sigs := b.sigs ++ [sig], pubKeys := pubKeys } := by
  refine ⟨List.append_ne_nil_of_left_ne_nil h.ne_nil _, ?_⟩
  rw [List.all_append, h.valid]
  simpa using hsig

theorem readable_start {sig : CBLSSignature} (hsig : sig ≠ 0) (pubKeys : List (CBLSPublicKey × UInt256)) :
    Readable ⟨∅, [sig], pubKeys⟩ :=
  ⟨List.cons_ne_nil _ _, by simpa using hsig⟩

variable [QuorumCrypto] [DkgCrypto]

/-- The key and the hash that a signature is for. -/
def keyOf (q : DkgQuorum) (msg : DKGMessage) : CBLSPublicKey × UInt256 :=
  (((q.getMember msg.proTxHash).map fun i => (q.dmn i).pdmnState.pubKeyOperator).getD 0, msg.getSignHash)

theorem collect_cons {p : NodeId × DKGMessage} (hknown : (q.getMember p.2.proTxHash).isSome = true) :
    collect q b (p :: messages) =
      match aggregate b.sigs p.2.sig with
      | none => none
      | some sigs =>
          if p.2.getSignHash ∈ b.pubKeys.map Prod.snd then some (true, { b with sigs := sigs })
          else collect q { b with sigs := sigs, pubKeys := b.pubKeys ++ [keyOf q p.2] } messages := by
  obtain ⟨i, hi⟩ := Option.isSome_iff_exists.mp hknown
  rw [collect, keyOf, hi]
  rfl

theorem map_snd_concat (pubKeys : List (CBLSPublicKey × UInt256)) (msg : DKGMessage) :
    (pubKeys ++ [keyOf q msg]).map Prod.snd = pubKeys.map Prod.snd ++ [msg.getSignHash] := by
  rw [List.map_append]
  rfl

/-- A signature that is not readable. -/
theorem Readable.collect_none (h : Readable b) (hknown : ∀ p ∈ messages, (q.getMember p.2.proTxHash).isSome = true)
    (hzero : ∃ p ∈ upToDuplicate (b.pubKeys.map Prod.snd) messages, p.2.sig = 0) : collect q b messages = none := by
  induction messages generalizing b with
  | nil =>
    obtain ⟨p, hp, -⟩ := hzero
    exact absurd hp List.not_mem_nil
  | cons p messages ih =>
    rw [collect_cons (hknown p List.mem_cons_self), h.aggregate]
    unfold upToDuplicate at hzero
    by_cases hsig : p.2.sig = 0
    · rw [if_pos hsig]
    · rw [if_neg hsig]
      dsimp only
      split_ifs at hzero ⊢ with hdup
      · obtain ⟨p', hp', hzero⟩ := hzero
        rw [List.mem_singleton.mp hp'] at hzero
        exact absurd hzero hsig
      · rw [List.exists_mem_cons_iff] at hzero
        refine ih (h.add hsig _) (fun p' hp' => hknown p' (List.mem_cons_of_mem p hp')) ?_
        dsimp only
        rw [map_snd_concat]
        exact hzero.resolve_left hsig

/-- A hash that was there before. -/
theorem Readable.collect_dup (h : Readable b) (hknown : ∀ p ∈ messages, (q.getMember p.2.proTxHash).isSome = true)
    (hreadable : ∀ p ∈ upToDuplicate (b.pubKeys.map Prod.snd) messages, p.2.sig ≠ 0)
    (hseen : (b.pubKeys.map Prod.snd).Nodup)
    (hdup : ¬ (b.pubKeys.map Prod.snd ++ messages.map fun p => p.2.getSignHash).Nodup) :
    ∃ b', collect q b messages = some (true, b') ∧ b'.ret = b.ret := by
  induction messages generalizing b with
  | nil =>
    rw [List.map_nil, List.append_nil] at hdup
    exact absurd hseen hdup
  | cons p messages ih =>
    rw [collect_cons (hknown p List.mem_cons_self), h.aggregate]
    unfold upToDuplicate at hreadable
    split_ifs at hreadable with hmem
    · rw [if_neg (hreadable p List.mem_cons_self)]
      dsimp only
      rw [if_pos hmem]
      exact ⟨_, rfl, rfl⟩
    · have hsig := hreadable p List.mem_cons_self
      rw [if_neg hsig]
      dsimp only
      rw [if_neg hmem]
      refine ih (h.add hsig _) (fun p' hp' => hknown p' (List.mem_cons_of_mem p hp')) ?_ ?_ ?_
      · dsimp only
        rw [map_snd_concat]
        exact fun p' hp' => hreadable p' (List.mem_cons_of_mem p hp')
      · dsimp only
        rw [map_snd_concat, List.nodup_append]
        exact ⟨hseen, List.nodup_singleton _, fun a ha b hb => by
          rw [List.mem_singleton.mp hb]; exact fun heq => hmem (heq ▸ ha)⟩
      · dsimp only
        rw [map_snd_concat, List.append_assoc]
        exact hdup

/-- Different hashes. -/
theorem Readable.collect_nodup (h : Readable b) (hknown : ∀ p ∈ messages, (q.getMember p.2.proTxHash).isSome = true)
    (hreadable : ∀ p ∈ messages, p.2.sig ≠ 0)
    (hnodup : (b.pubKeys.map Prod.snd ++ messages.map fun p => p.2.getSignHash).Nodup) :
    collect q b messages = some (false, { b with
      sigs := b.sigs ++ messages.map fun p => p.2.sig
      pubKeys := b.pubKeys ++ messages.map fun p => keyOf q p.2 }) := by
  induction messages generalizing b with
  | nil => simp [collect]
  | cons p messages ih =>
    have hsig := hreadable p List.mem_cons_self
    have hmem : p.2.getSignHash ∉ b.pubKeys.map Prod.snd := fun hmem =>
      (List.nodup_append.mp hnodup).2.2 _ hmem _ List.mem_cons_self rfl
    rw [collect_cons (hknown p List.mem_cons_self), h.aggregate, if_neg hsig]
    dsimp only
    rw [if_neg hmem, ih (h.add hsig _) (fun p' hp' => hknown p' (List.mem_cons_of_mem p hp'))
      (fun p' hp' => hreadable p' (List.mem_cons_of_mem p hp'))]
    · simp
    · dsimp only
      rw [map_snd_concat, List.append_assoc]
      exact hnodup

/-- The loop from its start. -/
theorem collect_start {p : NodeId × DKGMessage} (hknown : (q.getMember p.2.proTxHash).isSome = true) :
    collect q {} (p :: messages) = collect q ⟨∅, [p.2.sig], [keyOf q p.2]⟩ messages := by
  rw [collect_cons hknown]
  rfl

theorem collect_unreadable (hknown : ∀ p ∈ messages, (q.getMember p.2.proTxHash).isSome = true)
    (hlength : 1 < messages.length) (hzero : ∃ p ∈ upToDuplicate [] messages, p.2.sig = 0) :
    collect q {} messages = none := by
  obtain _ | ⟨p, _ | ⟨p', messages⟩⟩ := messages
  · cases hlength
  · simp at hlength
  have hrest := fun p'' hp'' => hknown p'' (List.mem_cons_of_mem p hp'')
  rw [collect_start (hknown p List.mem_cons_self)]
  by_cases hsig : p.2.sig = 0
  · have hnone : aggregate [p.2.sig] p'.2.sig = none := by
      rw [aggregate, if_neg (List.cons_ne_nil _ _), if_neg (by simp [hsig])]
    rw [collect_cons (hrest p' List.mem_cons_self), hnone]
  · refine (readable_start hsig _).collect_none hrest ?_
    rw [upToDuplicate, if_neg List.not_mem_nil, List.exists_mem_cons_iff] at hzero
    exact hzero.resolve_left hsig

theorem collect_duplicate (hknown : ∀ p ∈ messages, (q.getMember p.2.proTxHash).isSome = true)
    (hreadable : ∀ p ∈ upToDuplicate [] messages, p.2.sig ≠ 0)
    (hdup : ¬ (messages.map fun p => p.2.getSignHash).Nodup) :
    ∃ b, collect q {} messages = some (true, b) ∧ b.ret = ∅ := by
  obtain _ | ⟨p, messages⟩ := messages
  · exact absurd List.nodup_nil hdup
  rw [upToDuplicate, if_neg List.not_mem_nil, List.forall_mem_cons] at hreadable
  rw [collect_start (hknown p List.mem_cons_self)]
  exact (readable_start hreadable.1 _).collect_dup (fun p' hp' => hknown p' (List.mem_cons_of_mem p hp'))
    hreadable.2 (List.nodup_singleton _) hdup

theorem collect_different (hknown : ∀ p ∈ messages, (q.getMember p.2.proTxHash).isSome = true)
    (hreadable : messages.length ≤ 1 ∨ ∀ p ∈ messages, p.2.sig ≠ 0)
    (hnodup : (messages.map fun p => p.2.getSignHash).Nodup) :
    collect q {} messages = some (false, ⟨∅, messages.map fun p => p.2.sig, messages.map fun p => keyOf q p.2⟩) := by
  obtain _ | ⟨p, messages⟩ := messages
  · rfl
  rw [collect_start (hknown p List.mem_cons_self)]
  rcases hreadable with hlength | hreadable
  · obtain rfl : messages = [] := by
      rw [List.length_cons] at hlength
      exact List.length_eq_zero_iff.mp (by omega)
    rfl
  · rw [List.forall_mem_cons] at hreadable
    exact (readable_start hreadable.1 _).collect_nodup (fun p' hp' => hknown p' (List.mem_cons_of_mem p hp'))
      hreadable.2 hnodup

end SigBatch

/-! ## The result -/

section

variable [EvoCrypto] [QuorumCrypto] [DkgCrypto]

omit [EvoCrypto] in
theorem upToDuplicate_of_nodup {seen : List UInt256} {messages : List (NodeId × DKGMessage)}
    (h : (seen ++ messages.map fun p => p.2.getSignHash).Nodup) : upToDuplicate seen messages = messages := by
  induction messages generalizing seen with
  | nil => rfl
  | cons p messages ih =>
    have hmem : p.2.getSignHash ∉ seen := fun hmem => (List.nodup_append.mp h).2.2 _ hmem _ List.mem_cons_self rfl
    unfold upToDuplicate
    rw [if_neg hmem, ih]
    rw [List.append_assoc]
    exact h

section

variable {q : DkgQuorum} {messages : List (NodeId × DKGMessage)}

open SigBatch

theorem authentic_eq {msg : DKGMessage} (hknown : (q.getMember msg.proTxHash).isSome = true) :
    q.authentic msg = verifyInsecure msg.sig (keyOf q msg).1 (keyOf q msg).2 := by
  obtain ⟨i, hi⟩ := Option.isSome_iff_exists.mp hknown
  unfold DkgQuorum.authentic keyOf
  rw [hi]
  rfl

/-- The batch is verified by one equation. -/
theorem verify_iff (hagg : AggregatesExactly) (hne : messages ≠ [])
    (hknown : ∀ p ∈ messages, (q.getMember p.2.proTxHash).isSome = true)
    (hnodup : (messages.map fun p => p.2.getSignHash).Nodup) (ret : Finset NodeId) :
    SigBatch.verify ⟨ret, messages.map fun p => p.2.sig, messages.map fun p => keyOf q p.2⟩ = true ↔
      ∀ p ∈ messages, q.authentic p.2 = true := by
  unfold SigBatch.verify
  dsimp only
  have hsigs : (messages.map fun p => p.2.sig) ≠ [] := by simpa using hne
  rw [bne_iff_ne.mpr hsigs, Bool.true_and, Bool.and_eq_true]
  by_cases hread : ∀ p ∈ messages, p.2.sig ≠ 0
  · have hall : (messages.map fun p => p.2.sig).all (· != 0) = true := by simpa using hread
    rw [hall, eq_self, true_and]
    have hl := hagg (messages.map fun p => (p.2.sig, keyOf q p.2)) (by simpa using hne)
      (by rw [List.map_map]; exact hnodup) (List.forall_mem_map.mpr hread)
    rw [List.map_map, List.map_map] at hl
    refine hl.trans ?_
    simp only [List.forall_mem_map]
    exact forall₂_congr fun p hp => by rw [authentic_eq (hknown p hp)]
  · -- a signature that is not readable does not verify
    refine iff_of_false (fun h => hread (by simpa using h.1)) fun h => hread fun p hp hzero => ?_
    have hauth := h p hp
    rw [authentic_eq (hknown p hp), hzero, verifyInsecure] at hauth
    simp at hauth

/-- The result is exact. -/
def Exact (q : DkgQuorum) (messages : List (NodeId × DKGMessage)) (badNodes : Finset NodeId) : Prop :=
  ∀ peer, peer ∈ badNodes ↔ ∃ p ∈ messages, p.1 = peer ∧ q.authentic p.2 = false

theorem Exact.passed {badNodes : Finset NodeId} (h : Exact q messages badNodes) {msg : DKGMessage}
    (hmsg : msg ∈ DkgNode.passedMessages badNodes messages) : q.authentic msg = true := by
  obtain ⟨p, hp, rfl⟩ := List.mem_map.mp hmsg
  rw [List.mem_filter, decide_eq_true_eq] at hp
  refine Bool.eq_false_imp_eq_true.mp (fun hfalse => ?_)
  exact absurd ((h p.1).mpr ⟨p, hp.1, rfl, hfalse⟩) hp.2

/-- The messages of a batch with different hashes: the peer of the last one is blamed. -/
theorem batchVerifyMessageSigs_different (hagg : AggregatesExactly) (hne : messages ≠ [])
    (hknown : ∀ p ∈ messages, (q.getMember p.2.proTxHash).isSome = true)
    (hreadable : messages.length ≤ 1 ∨ ∀ p ∈ messages, p.2.sig ≠ 0)
    (hnodup : (messages.map fun p => p.2.getSignHash).Nodup) :
    batchVerifyMessageSigs q messages = some (if ∀ p ∈ messages, q.authentic p.2 = true then ∅
      else {(messages.getLast hne).1}) := by
  unfold batchVerifyMessageSigs
  rw [if_neg (by simpa using hne), collect_different hknown hreadable hnodup]
  dsimp only
  by_cases hall : ∀ p ∈ messages, q.authentic p.2 = true
  · rw [if_pos ((verify_iff hagg hne hknown hnodup ∅).mpr hall), if_pos hall]
  · rw [if_neg (mt (verify_iff hagg hne hknown hnodup ∅).mp hall), if_neg hall, sameNode_eq,
      List.getLast?_eq_some_getLast hne]
    rfl

/-- One peer is blamed. -/
theorem exact_singleton {peer : NodeId} (h : ¬ ∀ p ∈ messages, q.authentic p.2 = true) :
    Exact q messages {peer} ↔ ∀ p ∈ messages, q.authentic p.2 = false → peer = p.1 := by
  push Not at h
  obtain ⟨p₀, hp₀, hauth₀⟩ := h
  constructor
  · intro hexact p hp hauth
    exact (Finset.mem_singleton.mp ((hexact p.1).mpr ⟨p, hp, rfl, hauth⟩)).symm
  · intro hlast peer'
    rw [Finset.mem_singleton]
    constructor
    · rintro rfl
      have hfalse := Bool.eq_false_iff.mpr hauth₀
      exact ⟨p₀, hp₀, (hlast p₀ hp₀ hfalse).symm, hfalse⟩
    · rintro ⟨p, hp, rfl, hauth⟩
      exact (hlast p hp hauth).symm

/-- **What a batch finds.** -/
theorem batchVerifyMessageSigs_exact (hagg : AggregatesExactly)
    (hknown : ∀ p ∈ messages, (q.getMember p.2.proTxHash).isSome = true) :
    (∃ badNodes, batchVerifyMessageSigs q messages = some badNodes ∧ Exact q messages badNodes) ↔
      Checkable q messages := by
  unfold Checkable
  by_cases hreadable : messages.length ≤ 1 ∨ ∀ p ∈ upToDuplicate [] messages, p.2.sig ≠ 0
  · rw [and_iff_right hreadable]
    by_cases hnodup : (messages.map fun p => p.2.getSignHash).Nodup
    · rw [forall_prop_of_true hnodup]
      by_cases hne : messages = []
      · subst hne
        exact iff_of_true ⟨∅, rfl, fun peer => by simp⟩ fun p hp => absurd hp List.not_mem_nil
      · have hread := hreadable
        rw [upToDuplicate_of_nodup (by simpa using hnodup)] at hread
        rw [batchVerifyMessageSigs_different hagg hne hknown hread hnodup, List.getLast?_eq_some_getLast hne]
        simp only [Option.some.injEq, exists_eq_left', Option.map_some]
        split_ifs with hall
        · -- all verify
          have hfalse : ∀ p ∈ messages, q.authentic p.2 ≠ false := fun p hp => by simp [hall p hp]
          refine iff_of_true (fun peer => ?_) fun p hp hauth => absurd hauth (hfalse p hp)
          exact iff_of_false (Finset.notMem_empty _) fun ⟨p, hp, _, hauth⟩ => hfalse p hp hauth
        · exact exact_singleton hall
    · -- single verification
      have hread : ∀ p ∈ upToDuplicate [] messages, p.2.sig ≠ 0 := hreadable.resolve_left fun hlength => hnodup <| by
        obtain _ | ⟨p, _ | ⟨p', messages⟩⟩ := messages
        · exact List.nodup_nil
        · exact List.nodup_singleton _
        · simp at hlength
      obtain ⟨b, hcollect, hret⟩ := collect_duplicate hknown hread hnodup
      obtain ⟨badNodes, hrun, hexact⟩ := @mem_verifySingle _ _ _ q b.ret _ hknown
      have hne : messages.isEmpty = false := by
        obtain _ | ⟨p, messages⟩ := messages
        · exact absurd List.nodup_nil hnodup
        · rfl
      refine iff_of_true ⟨badNodes, ?_, fun peer => ?_⟩ fun h => absurd h hnodup
      · rw [batchVerifyMessageSigs, hne, if_neg Bool.false_ne_true, hcollect]
        exact hrun
      · rw [hexact, hret]
        simp
  · -- the assertion fails
    rw [not_or, not_le] at hreadable
    refine iff_of_false ?_ fun h => hreadable.2 (h.1.resolve_left (by omega))
    rintro ⟨badNodes, hrun, -⟩
    obtain ⟨hlength, hzero⟩ := hreadable
    push Not at hzero
    have hne : messages.isEmpty = false := by
      obtain _ | ⟨p, messages⟩ := messages
      · cases hlength
      · rfl
    rw [batchVerifyMessageSigs, hne, if_neg Bool.false_ne_true, collect_unreadable hknown hlength hzero] at hrun
    cases hrun

end

/-! ## Batches that are processed -/

namespace DkgNode

variable {node : DkgNode} {s : CDKGSession node.n}

omit [QuorumCrypto] in
theorem known_of_preVerify {msg : DKGMessage} (h : node.preVerifyMessage s msg = .ok ()) :
    (node.quorum.getMember msg.proTxHash).isSome = true := by
  have hsome : ∀ {i : Fin node.n} {proTxHash : UInt256}, node.quorum.proTxHash i = proTxHash →
      (node.quorum.getMember proTxHash).isSome = true := fun hi =>
    Option.isSome_iff_exists.mpr ⟨_, DkgQuorum.getMember_eq_some.mpr hi⟩
  cases msg with
  | contribution qc =>
    obtain ⟨i, hi, -⟩ := bind_ok.mp h
    exact hsome (DkgQuorum.checkContribution_ok hi).1
  | complaint qc =>
    obtain ⟨i, hi, -⟩ := bind_ok.mp h
    exact hsome (DkgQuorum.checkComplaint_ok hi).1
  | justification qj =>
    obtain ⟨i, hi, -⟩ := bind_ok.mp h
    exact hsome (DkgQuorum.checkJustification_ok hi).1
  | prematureCommitment qc =>
    obtain ⟨i, hi, -⟩ := bind_ok.mp h
    exact hsome (DkgQuorum.checkCommitment_ok hi).1

omit [QuorumCrypto] in
theorem mem_preVerifyMessages {msgs : List (NodeId × Option DKGMessage)} {p : NodeId × DKGMessage}
    (hp : p ∈ (node.preVerifyMessages s msgs).1) : node.preVerifyMessage s p.2 = .ok () := by
  induction msgs with
  | nil => exact absurd hp List.not_mem_nil
  | cons m msgs ih =>
    obtain ⟨peer, _ | msg⟩ := m
    · exact ih hp
    · unfold preVerifyMessages at hp
      dsimp only at hp
      split at hp
      · rename_i hok
        rcases List.mem_cons.mp hp with rfl | hp
        · exact hok
        · exact ih hp
      · exact ih hp

/-- **Which messages are processed.** For every batch, `BatchVerifyMessageSigs` returns the peers that sent a message
whose signature does not verify, so that every message that is passed on is authentic, if and only if the batch meets
the condition. -/
theorem processed_authentic_iff (hagg : AggregatesExactly) (s : CDKGSession node.n)
    (msgs : List (NodeId × Option DKGMessage)) :
    let messages := (node.preVerifyMessages s msgs).1
    (∃ badNodes, batchVerifyMessageSigs node.quorum messages = some badNodes ∧
      (∀ peer, peer ∈ badNodes ↔ ∃ p ∈ messages, p.1 = peer ∧ node.quorum.authentic p.2 = false) ∧
      ∀ msg ∈ passedMessages badNodes messages, node.quorum.authentic msg = true) ↔
      Checkable node.quorum messages := by
  intro messages
  have hknown : ∀ p ∈ messages, (node.quorum.getMember p.2.proTxHash).isSome = true := fun p hp =>
    known_of_preVerify (mem_preVerifyMessages hp)
  rw [← batchVerifyMessageSigs_exact hagg hknown]
  constructor
  · rintro ⟨badNodes, hrun, hexact, -⟩
    exact ⟨badNodes, hrun, hexact⟩
  · rintro ⟨badNodes, hrun, hexact⟩
    exact ⟨badNodes, hrun, hexact, fun msg hmsg => Exact.passed hexact hmsg⟩

end DkgNode

end

/-! ## A batch from two peers -/

section

attribute [local instance] plainCrypto

/-- A signature that verifies is `1`. -/
@[reducible] def oneQuorumCrypto : QuorumCrypto where
  verifyInsecure sig _ _ := sig == 1
  verifySecureAggregated _ _ _ := true
  buildCommitmentHash _ quorumHash validMembers quorumPublicKey quorumVvecHash :=
    quorumHash + BitVec.ofNat 256 (validMembers.count true) + quorumPublicKey.setWidth 256 + quorumVvecHash
  quorumModifier _ blockHash := blockHash

/-- The bits as a number. -/
def bitsNat (bits : List Bool) : Nat := bits.foldr (fun b k => 2 * k + b.toNat) 0

/-- An instance to evaluate the model on. A share is the key of the vector. -/
@[reducible] def oneDkgCrypto : DkgCrypto where
  hashContribution qc := qc.proTxHash + qc.contributions.ivSeed + qc.sig.setWidth 256
  hashComplaint qc := qc.proTxHash + BitVec.ofNat 256 (2 ^ 8 * bitsNat qc.badMembers) +
    BitVec.ofNat 256 (2 ^ 16 * bitsNat qc.complainForMembers) + qc.sig.setWidth 256
  hashJustification qj := qj.proTxHash + BitVec.ofNat 256 (2 ^ 8 * qj.contributions.length) + qj.sig.setWidth 256
  hashCommitment qc := qc.proTxHash + BitVec.ofNat 256 (2 ^ 8 * bitsNat qc.validMembers) + qc.quorumVvecHash +
    qc.sig.setWidth 256
  hashKey key := key.setWidth 256
  hashVvec vvec := BitVec.ofNat 256 vvec.length
  verifyInsecureAggregated sigs keys :=
    sigs.all (· == 1) && keys.all fun key => EvoCrypto.isValid key.1
  sign _ _ := 1
  getPublicKey sk := sk.setWidth 384
  publicKeyShare vvec _ := vvec.head?
  aggregatePublicKeys keys := keys.headD 0
  aggregateSecretKeys sks := sks.headD 0
  verifyContributionShares _ vvecs _ := vvecs.map fun _ => true
  encrypt _ _ _ _ := some [1]
  decrypt blobs i _ := (blobs.blobs[i]?).bind fun blob => if blob = [1] then some 1 else none

attribute [local instance] oneQuorumCrypto oneDkgCrypto

theorem aggregatesExactly_one : AggregatesExactly := by
  intro l hne hnodup hread
  show ((l.map Prod.fst).all (· == 1) && (l.map Prod.snd).all fun key => EvoCrypto.isValid key.1) = true ↔ _
  rw [Bool.and_eq_true, List.all_map, List.all_map, List.all_eq_true, List.all_eq_true, ← forall₂_and]
  refine forall₂_congr fun x hx => ?_
  unfold verifyInsecure
  rw [bne_iff_ne.mpr (hread x hx), Bool.true_and, Bool.and_eq_true]
  exact and_comm

/-- Three members with the hashes 1, 2 and 3. -/
def sampleQuorum : DkgQuorum where
  params := llmq3_60
  quorumHash := 100
  mns := [1, 2, 3].map fun hash =>
    { proTxHash := hash, collateralOutpoint := ⟨hash, 0⟩, pdmnState := { pubKeyOperator := 1 } }
  minSize_pos := by decide
  threshold_pos := by decide
  nodup := by decide

/-- The first member. -/
def sampleNode : DkgNode := ⟨sampleQuorum, some ⟨0, by decide⟩, 1⟩

/-- A complaint about nobody. -/
def emptyComplaint (proTxHash : UInt256) (sig : CBLSSignature) : DKGMessage :=
  .complaint
    { llmqType := .LLMQ_50_60, quorumHash := 100, proTxHash := proTxHash, badMembers := [false, false, false]
      complainForMembers := [false, false, false], sig := sig }

/-- Peer 7 sends a complaint of member 2 and peer 8 one of member 3. -/
def peerComplaints (sig sig' : CBLSSignature) : List (NodeId × Option DKGMessage) :=
  [(7, some (emptyComplaint 2 sig)), (8, some (emptyComplaint 3 sig'))]

theorem processed_authentic_twoPeers :
    batchVerifyMessageSigs sampleQuorum (sampleNode.preVerifyMessages {} (peerComplaints 1 2)).1 = some {8} ∧
      ∃ badNodes, batchVerifyMessageSigs sampleQuorum (sampleNode.preVerifyMessages {} (peerComplaints 1 2)).1 =
        some badNodes ∧ ∀ msg ∈ DkgNode.passedMessages badNodes
          (sampleNode.preVerifyMessages {} (peerComplaints 1 2)).1,
          sampleQuorum.authentic msg = true := by
  have hcheckable : Checkable sampleQuorum (sampleNode.preVerifyMessages {} (peerComplaints 1 2)).1 := by
    unfold Checkable
    decide +kernel
  obtain ⟨badNodes, hrun, -, hpassed⟩ :=
    (@DkgNode.processed_authentic_iff _ _ _ sampleNode aggregatesExactly_one {} (peerComplaints 1 2)).mpr hcheckable
  exact ⟨by decide +kernel, badNodes, hrun, hpassed⟩

/-- **The message whose signature does not verify is passed on**, and the other peer is blamed. -/
theorem forged_message_passed :
    batchVerifyMessageSigs sampleQuorum (sampleNode.preVerifyMessages {} (peerComplaints 2 1)).1 = some {8} ∧
      DkgNode.passedMessages {8} (sampleNode.preVerifyMessages {} (peerComplaints 2 1)).1 = [emptyComplaint 2 2] ∧
      sampleQuorum.authentic (emptyComplaint 2 2) = false ∧
      (sampleNode.processPendingMessageBatch {} (peerComplaints 2 1)).isSome = true := by
  decide +kernel

end

end RavenCash.Evo.Llmq
