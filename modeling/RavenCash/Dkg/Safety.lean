import RavenCash.Dkg.Batch
import RavenCash.Dkg.Effects

/-!
# What a session may read

`ReceiveMessage` accesses `members`, bit sets and verification vectors at places that `PreVerifyMessage` has checked, or
that depend on what happened in earlier phases. The states are those that a round can be in: in each phase the messages
of that phase are verified and later received, the node acts once, and at any time the parameters of the chain may be
exchanged.

In such a state a complaint or a commitment that passed before an exchange may have too few bits (`Safe`). The indexes
of a justification may be as large as the number of members, and an observer may not have the vector of its sender.
-/

set_option autoImplicit false

namespace RavenCash.Evo.Llmq

open CDKGSession

/-! ## Rounds as a machine -/

inductive QuorumPhase where
  | Contribute
  | Complain
  | Justify
  | Commit
deriving DecidableEq

/-- The phase in which a message is received. -/
def DKGMessage.phase : DKGMessage → QuorumPhase
  | contribution _ => .Contribute
  | complaint _ => .Complain
  | justification _ => .Justify
  | prematureCommitment _ => .Commit

/-- A session in a phase; `started` says that the node has acted in it. -/
structure DkgState (n : Nat) where
  chain : CChainParams
  phase : QuorumPhase := .Contribute
  started : Bool := false
  session : CDKGSession n := {}
  /-- the messages that passed `PreVerifyMessage` -/
  verified : List DKGMessage := []

inductive DkgEvent where
  | preVerify (msg : DKGMessage)
  | receive (msg : DKGMessage)
  | start (vvec : BLSVerificationVector) (sks : List CBLSSecretKey) (ephemeralPubKey : CBLSPublicKey) (ivSeed : UInt256)
  | nextPhase
  | updateLLMQParams (totalMnCount : Nat) (height : Int) (lowLLMQParams : Bool)

/-- After the last phase nothing more is received. -/
def QuorumPhase.next : QuorumPhase → QuorumPhase
  | .Contribute => .Complain
  | .Complain => .Justify
  | .Justify => .Commit
  | .Commit => .Commit

section

variable [EvoCrypto] [QuorumCrypto] [DkgCrypto]

namespace DkgNode

variable (node : DkgNode)

/-- What the node does at the start of a phase. -/
def startPhase (s : CDKGSession node.n) (vvec : BLSVerificationVector) (sks : List CBLSSecretKey)
    (ephemeralPubKey : CBLSPublicKey) (ivSeed : UInt256) : QuorumPhase → Option (CDKGSession node.n)
  | .Contribute => some (node.contribute s vvec sks ephemeralPubKey ivSeed).2
  | .Complain => (node.verifyAndComplain s).map Prod.snd
  | .Justify => some (node.verifyAndJustify s).2
  | .Commit => (node.verifyAndCommit s).map Prod.snd

/-- Messages of other phases stay pending. A batch is verified before its first message is received, so that between the
two other messages may be received and the parameters exchanged. -/
def step (st : DkgState node.n) : DkgEvent → Option (DkgState node.n)
  | .preVerify msg =>
      some (if msg.phase = st.phase ∧ ((node.under st.chain).preVerifyMessage st.session msg).toBool = true then
        { st with verified := msg :: st.verified } else st)
  | .receive msg =>
      if msg.phase = st.phase ∧ msg ∈ st.verified then
        ((node.under st.chain).receiveMessage st.session msg).map fun s => { st with session := s }
      else some st
  | .start vvec sks ephemeralPubKey ivSeed =>
      if st.started then some st
      else
        ((node.under st.chain).startPhase st.session vvec sks ephemeralPubKey ivSeed st.phase).map fun s =>
          { st with session := s, started := true }
  | .nextPhase => some (if st.started then { st with phase := st.phase.next, started := false } else st)
  | .updateLLMQParams totalMnCount height lowLLMQParams =>
      some { st with chain := st.chain.updateLLMQParams totalMnCount height lowLLMQParams }

/-- What a message of member `i` must be, in a state of the session. -/
def Safe (s : CDKGSession node.n) (i : Fin node.n) : DKGMessage → Prop
  | .contribution _ => True
  | .complaint qc => 1 < (insert (DkgCrypto.hashComplaint qc) (s.members i).complaints).card ∨
      node.n ≤ qc.badMembers.length ∧ node.n ≤ qc.complainForMembers.length
  | .justification qj =>
      1 < (insert (DkgCrypto.hashJustification qj) (s.members i).justifications).card ∨ (s.members i).bad = true ∨
        ∃ named, node.namedMembers qj = some named ∧
          (node.areWeMember = true ∨ (s.members i).receivedVvec.isSome = true ∨
            ∃ p ∈ named, node.quorum.proTxHash p.1 ∉ (s.members i).complaintsFromOthers)
  | .prematureCommitment qc => node.quorum.getAllQuorumMembers.length ≤ qc.validMembers.length

/-- A message of member `i`. -/
def addMessage (s : CDKGSession node.n) (i : Fin node.n) : DKGMessage → Option (CDKGSession node.n)
  | .contribution qc => some (node.addContribution s i qc)
  | .complaint qc => node.addComplaint s i qc
  | .justification qj => node.addJustification s i qj
  | .prematureCommitment qc => node.addCommitment s i qc

variable {node} {s s' : CDKGSession node.n} {st st' : DkgState node.n} {i : Fin node.n} {msg : DKGMessage}

variable (node) in
theorem receiveMessage_eq (hi : node.quorum.getMember msg.proTxHash = some i) (s : CDKGSession node.n) :
    node.receiveMessage s msg = node.addMessage s i msg := by
  cases msg with
  | contribution qc => exact congrArg (Option.map fun i => node.addContribution s i qc) hi
  | complaint qc => exact congrArg (Option.bind · fun i => node.addComplaint s i qc) hi
  | justification qj => exact congrArg (Option.bind · fun i => node.addJustification s i qj) hi
  | prematureCommitment qc => exact congrArg (Option.bind · fun i => node.addCommitment s i qc) hi

/-! ## Acts of the node -/

theorem later_sendCommitment {me : Fin node.n} {qc : Option CDKGPrematureCommitment}
    (h : node.sendCommitment s me = some (qc, s')) : s.Later s' := by
  obtain ⟨validMembers, -, h⟩ := Option.bind_eq_some_iff.mp h
  split_ifs at h
  · cases h
    exact Later.refl s
  · obtain ⟨⟨vvec, entries, s₁⟩, hvvec, h⟩ := Option.bind_eq_some_iff.mp h
    have hlater := (later_quorumVvec hvvec).1
    have hshare : ∀ cache, s₁.Later { s₁ with secretKeyShareCache := cache } :=
      fun _ => later_of_fields rfl rfl rfl
    cases vvec with
    | none =>
      cases h
      exact hlater
    | some vvec =>
      dsimp only at h
      split_ifs at h
      · cases h
        exact hlater.trans (hshare _)
      · obtain ⟨quorumPublicKey, -, h⟩ := Option.bind_eq_some_iff.mp h
        cases h
        exact hlater.trans (hshare _)

omit [EvoCrypto] in
variable (node) in
/-- Members without a contribution are marked. -/
theorem verifyAndComplain_spec {me : Fin node.n} {qc : Option CDKGComplaint} (hme : node.myIdx = some me)
    (h : node.verifyAndComplain s = some (qc, s')) :
    s.Later s' ∧ ∀ i, (s'.members i).bad = false → (s'.members i).contributions ≠ ∅ := by
  unfold verifyAndComplain at h
  rw [hme] at h
  obtain ⟨complaint, -, heq⟩ := Option.map_eq_some_iff.mp h
  obtain ⟨-, rfl⟩ := Prod.mk.inj heq
  refine ⟨(later_verifyPendingContributions s).trans (later_markBadMembers _ _), fun i hbad => ?_⟩
  exact of_decide_eq_false (Bool.or_eq_false_iff.mp hbad).2

variable (node) in
theorem later_startPhase {vvec : BLSVerificationVector} {sks : List CBLSSecretKey} {ephemeralPubKey : CBLSPublicKey}
    {ivSeed : UInt256} {phase : QuorumPhase} (h : node.startPhase s vvec sks ephemeralPubKey ivSeed phase = some s') :
    s.Later s' := by
  cases phase with
  | Contribute =>
    obtain rfl := Option.some.inj h
    unfold contribute
    split
    · exact Later.refl s
    · exact later_of_fields rfl rfl rfl
  | Complain =>
    obtain ⟨⟨qc, s''⟩, hcomplain, rfl⟩ := Option.map_eq_some_iff.mp h
    rcases hme : node.myIdx with _ | me
    · unfold verifyAndComplain at hcomplain
      rw [hme] at hcomplain
      cases hcomplain
      exact Later.refl s
    · exact (node.verifyAndComplain_spec hme hcomplain).1
  | Justify =>
    obtain rfl := Option.some.inj h
    unfold verifyAndJustify
    split
    · exact Later.refl s
    · exact later_markBadMembers s _
  | Commit =>
    obtain ⟨⟨qc, s''⟩, hcommit, rfl⟩ := Option.map_eq_some_iff.mp h
    unfold verifyAndCommit at hcommit
    split at hcommit
    · cases hcommit
      exact Later.refl s
    · exact (later_markBadMembers s _).trans (later_sendCommitment hcommit)

/-! ## States of a round -/

/-- What `PreVerifyMessage` makes sure of, whatever the parameters are. -/
structure Passed (node : DkgNode) (msg : DKGMessage) : Prop where
  known : (node.quorum.getMember msg.proTxHash).isSome = true
  vvec : ∀ qc, msg = .contribution qc → qc.vvec ≠ []
  contributions : ∀ qj, msg = .justification qj → qj.contributions ≠ []

omit [QuorumCrypto] in
theorem passed_of_preVerifyMessage (h : node.preVerifyMessage s msg = .ok ()) : Passed node msg := by
  refine ⟨known_of_preVerify h, ?_, ?_⟩
  · rintro qc rfl
    obtain ⟨i, hcheck, -⟩ := bind_ok.mp h
    have hlength := (DkgQuorum.checkContribution_ok hcheck).2.1
    have hpos := node.quorum.threshold_pos
    exact List.length_pos_iff.mp (by omega)
  · rintro qj rfl
    obtain ⟨i, hcheck, -⟩ := bind_ok.mp h
    exact (DkgQuorum.checkJustification_ok hcheck).2

/-- The node has looked for members without contributions. -/
def LookedAt (st : DkgState node.n) : Prop :=
  st.phase = .Complain ∧ st.started = true ∨ st.phase = .Justify ∨ st.phase = .Commit

/-- What holds in every state of a round. -/
structure Sound (node : DkgNode) (st : DkgState node.n) : Prop where
  received : VvecsReceived st.session
  marked : node.areWeMember = true → LookedAt st → ∀ i, (st.session.members i).bad = false →
    (st.session.members i).contributions ≠ ∅
  nonempty : st.session.VvecsNonempty
  passed : ∀ msg ∈ st.verified, Passed node msg

omit [EvoCrypto] [QuorumCrypto] [DkgCrypto] in
theorem Sound.init (chain : CChainParams) : Sound node { chain := chain } := by
  refine ⟨fun i h => absurd rfl h, fun _ h => ?_, ⟨⟨fun _ _ h => ?_, fun _ _ h => ?_⟩, fun _ _ h => ?_⟩,
    fun _ h => absurd h List.not_mem_nil⟩
  · rcases h with ⟨h, -⟩ | h | h <;> cases h
  · cases h
  · cases h
  · cases h

omit [EvoCrypto] [QuorumCrypto] [DkgCrypto] in
/-- Steps that only mark members. -/
theorem Sound.later {started : Bool} (h : Sound node st) (hlater : st.session.Later s)
    (hstarted : started = st.started ∨ st.phase ≠ .Complain) :
    Sound node { st with session := s, started := started } := by
  refine ⟨h.received.later hlater, fun hmember hpast i hbad => ?_, hlater.nonempty h.nonempty, h.passed⟩
  have hpast' : LookedAt st := by
    rcases hpast with ⟨hphase, hdone⟩ | hrest
    · rcases hstarted with rfl | hother
      · exact .inl ⟨hphase, hdone⟩
      · exact absurd hphase hother
    · exact .inr hrest
  rw [(hlater.members i).contributions]
  refine h.marked hmember hpast' i (Bool.eq_false_iff.mpr fun hold => ?_)
  exact Bool.false_ne_true (hbad.symm.trans ((hlater.members i).bad hold))

theorem Sound.receive (h : Sound node st) (hphase : msg.phase = st.phase) (hmsg : msg ∈ st.verified)
    (hreceive : (node.under st.chain).receiveMessage st.session msg = some s) :
        Sound node { st with session := s } := by
  have hpassed := h.passed msg hmsg
  obtain ⟨i, hi⟩ := Option.isSome_iff_exists.mp hpassed.known
  have hadd := ((node.under st.chain).receiveMessage_eq hi st.session).symm.trans hreceive
  cases msg with
  | contribution qc =>
    obtain rfl := Option.some.inj hadd
    obtain ⟨hreceived, hnonempty⟩ :=
      (node.under st.chain).addContribution_spec (i := i) (hpassed.vvec qc rfl) h.received h.nonempty
    refine ⟨hreceived, fun _ hpast => ?_, hnonempty, h.passed⟩
    rcases hpast with ⟨hother, -⟩ | hother | hother
    all_goals cases hphase.trans hother
  | complaint qc => exact h.later ((node.under st.chain).later_addComplaint hadd) (.inl rfl)
  | justification qj => exact h.later ((node.under st.chain).later_addJustification hadd) (.inl rfl)
  | prematureCommitment qc => exact h.later ((node.under st.chain).later_addCommitment hadd) (.inl rfl)

theorem Sound.start {vvec : BLSVerificationVector} {sks : List CBLSSecretKey} {ephemeralPubKey : CBLSPublicKey}
    {ivSeed : UInt256} (h : Sound node st)
    (hrun : (node.under st.chain).startPhase st.session vvec sks ephemeralPubKey ivSeed st.phase = some s) :
    Sound node { st with session := s, started := true } := by
  have hlater := (node.under st.chain).later_startPhase hrun
  by_cases hphase : st.phase = .Complain
  · refine ⟨h.received.later hlater, fun hmember _ => ?_, hlater.nonempty h.nonempty, h.passed⟩
    -- who did not contribute is marked now
    obtain ⟨me, hme⟩ := Option.isSome_iff_exists.mp hmember
    rw [hphase] at hrun
    obtain ⟨⟨qc, s'⟩, hcomplain, rfl⟩ := Option.map_eq_some_iff.mp hrun
    exact ((node.under st.chain).verifyAndComplain_spec hme hcomplain).2
  · exact h.later hlater (.inr hphase)

theorem Sound.step {event : DkgEvent} (h : Sound node st) (hrun : node.step st event = some st') : Sound node st' := by
  cases event with
  | preVerify msg =>
    obtain rfl := Option.some.inj hrun
    split_ifs with hpass
    · refine ⟨h.received, h.marked, h.nonempty, List.forall_mem_cons.mpr ⟨?_, h.passed⟩⟩
      rcases hverify : (node.under st.chain).preVerifyMessage st.session msg with e | u
      · rw [hverify] at hpass
        cases hpass.2
      · obtain ⟨hknown, hvvec, hcontributions⟩ := passed_of_preVerifyMessage hverify
        exact ⟨hknown, hvvec, hcontributions⟩
    · exact h
  | receive msg =>
    unfold DkgNode.step at hrun
    dsimp only at hrun
    split_ifs at hrun with hmsg
    · obtain ⟨s, hreceive, rfl⟩ := Option.map_eq_some_iff.mp hrun
      exact h.receive hmsg.1 hmsg.2 hreceive
    · cases hrun
      exact h
  | start vvec sks ephemeralPubKey ivSeed =>
    unfold DkgNode.step at hrun
    dsimp only at hrun
    split_ifs at hrun
    · cases hrun
      exact h
    · obtain ⟨s, hstart, rfl⟩ := Option.map_eq_some_iff.mp hrun
      exact h.start hstart
  | nextPhase =>
    obtain rfl := Option.some.inj hrun
    split_ifs with hstarted
    · refine ⟨h.received, fun hmember hpast => h.marked hmember ?_, h.nonempty, h.passed⟩
      rcases hphase : st.phase with _ | _ | _ | _
      · rw [LookedAt, hphase] at hpast
        rcases hpast with ⟨-, hno⟩ | hno | hno
        all_goals cases hno
      · exact .inl ⟨hphase, hstarted⟩
      · exact .inr (.inl hphase)
      · exact .inr (.inr hphase)
    · exact h
  | updateLLMQParams totalMnCount height lowLLMQParams =>
    obtain rfl := Option.some.inj hrun
    exact ⟨h.received, h.marked, h.nonempty, h.passed⟩

/-- **Every state of a round is sound.** -/
theorem sound_of_run {chain : CChainParams} {events : List DkgEvent}
    (hrun : events.foldlM node.step { chain := chain } = some st) : Sound node st :=
  foldlM_keeps (fun _ _ _ _ h hstep => Sound.step h hstep) (Sound.init chain) hrun

/-- **What is read.** In every state of a round, a message of the phase that passed is received without an access out of
bounds or through a null pointer if and only if it is safe with the parameters of now. -/
theorem receiveMessage_isSome_iff {chain : CChainParams} {events : List DkgEvent}
    (hrun : events.foldlM node.step { chain := chain } = some st) (hphase : msg.phase = st.phase)
    (hpass : msg ∈ st.verified) : ∃ i, node.quorum.getMember msg.proTxHash = some i ∧
      (((node.under st.chain).receiveMessage st.session msg).isSome = true ↔
        (node.under st.chain).Safe st.session i msg) := by
  have hsound := sound_of_run hrun
  have hpassed := hsound.passed msg hpass
  obtain ⟨i, hi⟩ := Option.isSome_iff_exists.mp hpassed.known
  have hadd := (node.under st.chain).receiveMessage_eq hi st.session
  refine ⟨i, hi, (iff_of_eq (congrArg (fun s => Option.isSome s = true) hadd)).trans ?_⟩
  cases msg with
  | contribution qc => exact iff_of_true rfl trivial
  | complaint qc => exact (node.under st.chain).isSome_addComplaint
  | prematureCommitment qc => exact (node.under st.chain).isSome_addCommitment hsound.nonempty
  | justification qj =>
    refine ((node.under st.chain).isSome_addJustification (hpassed.contributions qj rfl)).trans ?_
    refine or_congr_right ?_
    constructor
    · rintro (hbad | ⟨named, hnamed, hvvec | hout⟩)
      · exact .inl hbad
      · exact .inr ⟨named, hnamed, .inr (.inl hvvec)⟩
      · exact .inr ⟨named, hnamed, .inr (.inr hout)⟩
    · rintro (hbad | ⟨named, hnamed, hmember | hvvec | hout⟩)
      · exact .inl hbad
      · -- a member has marked those without a vector
        by_cases hbad : (st.session.members i).bad = true
        · exact .inl hbad
        · have hcontributed := hsound.marked hmember (.inr (.inl hphase.symm)) i (Bool.eq_false_iff.mpr hbad)
          exact .inr ⟨named, hnamed, .inl (hsound.received i hcontributed)⟩
      · exact .inr ⟨named, hnamed, .inl hvvec⟩
      · exact .inr ⟨named, hnamed, .inr hout⟩

end DkgNode

end

/-! ## Two rounds -/

section

attribute [local instance] plainCrypto oneQuorumCrypto oneDkgCrypto

/-- A message that is verified and received at once. -/
def DKGMessage.events (msg : DKGMessage) : List DkgEvent := [.preVerify msg, .receive msg]

/-- The contribution of a member of the sample quorum. -/
def sampleContribution (proTxHash : UInt256) : DKGMessage :=
  .contribution { llmqType := .LLMQ_50_60, quorumHash := 100, proTxHash := proTxHash, vvec := [1, 2]
                  contributions := ⟨1, 0, [[1], [1], [1]]⟩, sig := 1 }

/-- A complaint about members. -/
def sampleComplaint (proTxHash : UInt256) (complainForMembers : List Bool) : DKGMessage :=
  .complaint { llmqType := .LLMQ_50_60, quorumHash := 100, proTxHash := proTxHash, badMembers := [false, false, false]
               complainForMembers := complainForMembers, sig := 1 }

/-- A justification of a member. -/
def sampleJustificationOf (proTxHash : UInt256) (i : UInt32) : DKGMessage :=
  .justification { llmqType := .LLMQ_50_60, quorumHash := 100, proTxHash := proTxHash
                   contributions := [(i, 1)], sig := 1 }

/-- A commitment to all three members. -/
def sampleCommitmentOf (proTxHash quorumVvecHash : UInt256) : DKGMessage :=
  .prematureCommitment
    { llmqType := .LLMQ_50_60, quorumHash := 100, proTxHash := proTxHash, validMembers := [true, true, true]
      quorumPublicKey := 1, quorumVvecHash := quorumVvecHash, quorumSig := 1, sig := 1 }

/-- A round up to the justifications. -/
def sampleEvents (contributions complaints : List DKGMessage) : List DkgEvent :=
  contributions.flatMap DKGMessage.events ++ [.start [1, 2] [1, 1, 1] 1 0, .nextPhase] ++
    complaints.flatMap DKGMessage.events ++ [.start [] [] 0 0, .nextPhase]

/-- The round in which a justification has passed. -/
def justifyEvents (contributions complaints : List DKGMessage) (qj : DKGMessage) : List DkgEvent :=
  sampleEvents contributions complaints ++ [.preVerify qj]

/-- An observer of the sample quorum. -/
def sampleObserver : DkgNode := ⟨sampleQuorum, none, 0⟩

/-- The sample quorum is the first three of four smartnodes. -/
def sampleOfFour : DkgNode where
  quorum := { sampleQuorum with
    others := [{ proTxHash := 4, collateralOutpoint := ⟨4, 0⟩, pdmnState := { pubKeyOperator := 1 } }]
    nodup := by decide }
  myIdx := none
  blsKeyOperator := 0

/-- On the main chain, the message is of the phase and has passed after the events, and it is received or not. -/
def Receives (node : DkgNode) (events : List DkgEvent) (msg : DKGMessage) (received : Bool) : Prop :=
  ∃ st, events.foldlM node.step { chain := Network.main.chainParams } = some st ∧ msg.phase = st.phase ∧
    msg ∈ st.verified ∧ ((node.under st.chain).receiveMessage st.session msg).isSome = received

theorem receives_of_eq {node : DkgNode} {events : List DkgEvent} {msg : DKGMessage} {received : Bool}
    (h : (events.foldlM node.step { chain := Network.main.chainParams }).map (fun st =>
      (decide (msg.phase = st.phase ∧ msg ∈ st.verified),
        ((node.under st.chain).receiveMessage st.session msg).isSome)) = some (true, received)) :
    Receives node events msg received := by
  obtain ⟨st, hrun, heq⟩ := Option.map_eq_some_iff.mp h
  obtain ⟨hpass, hreceived⟩ := Prod.mk.inj heq
  obtain ⟨hphase, hverified⟩ := of_decide_eq_true hpass
  exact ⟨st, hrun, hphase, hverified, hreceived⟩

/-- An index that is the number of members passes, and it is read; an observer reads the vector of a member that did not
contribute; a commitment to three members passes, and then there are parameters for ten. -/
theorem message_unsafe :
    Receives sampleNode (justifyEvents [sampleContribution 1, sampleContribution 2, sampleContribution 3] []
        (sampleJustificationOf 2 3)) (sampleJustificationOf 2 3) false ∧
      Receives sampleObserver (justifyEvents [sampleContribution 1, sampleContribution 2]
        [sampleComplaint 2 [false, false, true]] (sampleJustificationOf 3 1)) (sampleJustificationOf 3 1) false ∧
      Receives sampleOfFour (sampleEvents [] [] ++ [.start [] [] 0 0, .nextPhase, .preVerify (sampleCommitmentOf 1 1),
        .updateLLMQParams 5 1 false]) (sampleCommitmentOf 1 1) false :=
  ⟨receives_of_eq (by decide +kernel), receives_of_eq (by decide +kernel), receives_of_eq (by decide +kernel)⟩

theorem receiveMessage_isSome_sample : ∃ st,
    (justifyEvents [sampleContribution 1, sampleContribution 2, sampleContribution 3]
      [sampleComplaint 2 [false, false, true]] (sampleJustificationOf 3 1)).foldlM sampleNode.step
        { chain := Network.main.chainParams } = some st ∧
      ∃ i, (sampleNode.under st.chain).Safe st.session i (sampleJustificationOf 3 1) := by
  have hsample : Receives sampleNode (justifyEvents [sampleContribution 1, sampleContribution 2, sampleContribution 3]
      [sampleComplaint 2 [false, false, true]] (sampleJustificationOf 3 1)) (sampleJustificationOf 3 1) true :=
    receives_of_eq (by decide +kernel)
  obtain ⟨st, hrun, hphase, hpass, hreceived⟩ := hsample
  obtain ⟨i, -, hiff⟩ := DkgNode.receiveMessage_isSome_iff hrun hphase hpass
  exact ⟨st, hrun, i, hiff.mp hreceived⟩

end

end RavenCash.Evo.Llmq
