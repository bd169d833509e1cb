import RavenCash.Governance.Vote
import RavenCash.Lib.Simulation

/-!
# Governance tallies converge

A node processes the valid votes on an object one after the other, in any order and with repetitions. After any such
run the record of every smartnode and signal is that of the greatest vote by timestamp and outcome (`Latest`), so it
depends on the set of votes only. A record starts with the timestamp 0: a vote with a negative timestamp is refused
as obsolete and never counts.
-/

set_option autoImplicit false

namespace RavenCash.Governance

/-- A vote of a smartnode with a signal that counts. -/
structure CGovernanceVote.InSlot (vote : CGovernanceVote) (o : COutPoint) (s : VoteSignal) : Prop where
  outpoint : vote.smartnodeOutpoint = o
  signal : vote.getSignal = s
  supported : Supported s

theorem CGovernanceVote.InSlot.of_content {v w : CGovernanceVote} {o : COutPoint} {s : VoteSignal} (h : v.InSlot o s)
    (hcontent : w.toVoteContent = v.toVoteContent) : w.InSlot o s where
  outpoint := (congrArg VoteContent.smartnodeOutpoint hcontent).trans h.outpoint
  signal := (congrArg (fun c : VoteContent => c.nVoteSignal.toUInt32) hcontent).trans h.signal
  supported := h.supported

theorem CGovernanceVote.stamp_of_content {v w : CGovernanceVote} (hcontent : w.toVoteContent = v.toVoteContent) :
    w.stamp = v.stamp :=
  congrArg (fun c : VoteContent => toLex (c.nTime, c.nVoteOutcome.toUInt32.toNat)) hcontent

/-- The timestamps and outcomes of the votes of a slot. -/
def stamps (votes : Set CGovernanceVote) (o : COutPoint) (s : VoteSignal) : Set (ℤ ×ₗ ℕ) :=
  {t | ∃ v ∈ votes, v.InSlot o s ∧ v.stamp = t}

theorem VoteInstance.eq_of_stamp_eq {inst inst' : VoteInstance} (h : inst.stamp = inst'.stamp)
    (htime : inst.nTime = inst'.nTime) : inst = inst' := by
  have hpair := toLex.injective h
  obtain ⟨hcreation, houtcome⟩ := Prod.mk.inj hpair
  cases inst
  cases inst'
  simp only [UInt32.toNat_inj] at houtcome hcreation htime
  simp only [houtcome, hcreation, htime]

/-- The record of a slot after some votes, with the rate checks off: none before the first vote, and then the greatest
of the votes and the record that `emplace` makes. -/
def Latest (votes : Set CGovernanceVote) (o : COutPoint) (s : VoteSignal) : Option VoteInstance → Prop
  | none => ∀ v ∈ votes, ¬ v.InSlot o s
  | some inst => (∃ v ∈ votes, v.InSlot o s) ∧ inst.nTime = 0 ∧
      IsGreatest (insert (VoteInstance.stamp {}) (stamps votes o s)) inst.stamp

namespace Latest

variable {votes : Set CGovernanceVote} {o : COutPoint} {s : VoteSignal} {r : Option VoteInstance} {v : CGovernanceVote}

theorem unique {r' : Option VoteInstance} (h : Latest votes o s r) (h' : Latest votes o s r') : r = r' := by
  rcases r with _ | inst <;> rcases r' with _ | inst'
  · rfl
  · obtain ⟨⟨v, hv, hslot⟩, -⟩ := h'
    exact absurd hslot (h v hv)
  · obtain ⟨⟨v, hv, hslot⟩, -⟩ := h
    exact absurd hslot (h' v hv)
  · have hstamp := h.2.2.unique h'.2.2
    have htime : inst.nTime = inst'.nTime := h.2.1.trans h'.2.1.symm
    rw [VoteInstance.eq_of_stamp_eq hstamp htime]

/-- The record that a vote meets. -/
theorem getD (h : Latest votes o s r) : (r.getD {}).nTime = 0 ∧
    IsGreatest (insert (VoteInstance.stamp {}) (stamps votes o s)) (r.getD {}).stamp := by
  cases r with
  | none =>
      refine ⟨rfl, Set.mem_insert _ _, ?_⟩
      rintro t (rfl | ⟨v, hv, hslot, -⟩)
      · exact le_rfl
      · exact absurd hslot (h v hv)
  | some inst => exact h.2

theorem of_not_inSlot (h : Latest votes o s r) (hv : ¬ v.InSlot o s) : Latest (insert v votes) o s r := by
  have hmem : ∀ w ∈ insert v votes, w.InSlot o s → w ∈ votes := by
    rintro w (rfl | hw) hslot
    · exact absurd hslot hv
    · exact hw
  cases r with
  | none => exact fun w hw hslot => h w (hmem w hw hslot) hslot
  | some inst =>
      have hstamps : stamps (insert v votes) o s = stamps votes o s := by
        ext t
        exact ⟨fun ⟨w, hw, hslot, ht⟩ => ⟨w, hmem w hw hslot, hslot, ht⟩,
          fun ⟨w, hw, hslot, ht⟩ => ⟨w, Set.mem_insert_of_mem _ hw, hslot, ht⟩⟩
      obtain ⟨⟨w, hw, hslot⟩, htime, hgreatest⟩ := h
      exact ⟨⟨w, Set.mem_insert_of_mem _ hw, hslot⟩, htime, hstamps ▸ hgreatest⟩

/-- A vote of the slot leaves the greater of itself and the record. -/
theorem of_inSlot (h : Latest votes o s r) (hv : v.InSlot o s) {inst : VoteInstance} (htime : inst.nTime = 0)
    (hstamp : inst.stamp = max (r.getD {}).stamp v.stamp) : Latest (insert v votes) o s (some inst) := by
  obtain ⟨-, hmem, hupper⟩ := h.getD
  refine ⟨⟨v, Set.mem_insert _ _, hv⟩, htime, ?_, ?_⟩
  · rw [hstamp]
    rcases max_choice (r.getD {}).stamp v.stamp with hmax | hmax
    · rw [hmax]
      rcases hmem with hmem | ⟨w, hw, hslot, hw'⟩
      · exact .inl hmem
      · exact .inr ⟨w, Set.mem_insert_of_mem _ hw, hslot, hw'⟩
    · rw [hmax]
      exact .inr ⟨v, Set.mem_insert _ _, hv, rfl⟩
  · rw [hstamp]
    rintro t (rfl | ⟨w, rfl | hw, hslot, rfl⟩)
    · exact le_max_of_le_left (hupper (Set.mem_insert _ _))
    · exact le_max_right _ _
    · exact le_max_of_le_left (hupper (Set.mem_insert_of_mem _ ⟨w, hw, hslot, rfl⟩))

end Latest

variable [VoteCrypto]

/-- No two of the votes have the same hash and different contents. -/
def CollisionFree (votes : Set CGovernanceVote) : Prop :=
  ∀ v ∈ votes, ∀ w ∈ votes, v.getHash = w.getHash → v.toVoteContent = w.toVoteContent

/-- A vote that is valid when it is processed, with the rate checks off. -/
structure Delivered (obj : CGovernanceObject) (op : Env × CGovernanceVote) : Prop where
  rate : op.1.fRateChecksEnabled = false
  valid : op.2.isValid op.1 (obj.onlyVotingKeyAllowed op.2) = true

namespace CGovernanceObject

/-- The object after a sequence of calls of `ProcessVote`. -/
def processVotes (obj : CGovernanceObject) (ops : List (Env × CGovernanceVote)) : CGovernanceObject :=
  Simulation.exec (fun obj op => (obj.processVote op.1 op.2).2) obj ops

/-- The votes of a sequence of calls. -/
def votesOf (ops : List (Env × CGovernanceVote)) : Set CGovernanceVote := {v | ∃ op ∈ ops, op.2 = v}

/-- **The object after a set of votes.** -/
structure Tallied (obj : CGovernanceObject) (votes : Set CGovernanceVote) : Prop where
  record : ∀ o, obj.hasRecord o = true ↔ ∃ v ∈ votes, v.smartnodeOutpoint = o
  latest : ∀ o s, Latest votes o s (obj.voteInstance? o s)
  indexed : obj.fileVotes.Indexed
  seen : ∀ v ∈ obj.fileVotes.listVotes, v ∈ votes
  /-- The vote of the record is in the file. -/
  filed : ∀ o s, ∀ v ∈ votes, v.InSlot o s → 0 ≤ v.nTime →
    ∃ w ∈ obj.fileVotes.listVotes, w.InSlot o s ∧ w.stamp = (obj.voteInstance o s).stamp

namespace Tallied

variable {env : Env} {obj : CGovernanceObject} {votes : Set CGovernanceVote} {v : CGovernanceVote}

theorem fresh (hash : UInt256) (nObjectType : Int) : Tallied { hash, nObjectType } ∅ where
  record o := ⟨fun h => (by cases h), fun ⟨_, h, _⟩ => h.elim⟩
  latest o s := fun _ h => h.elim
  indexed := ⟨rfl, List.nodup_nil, fun _ _ => ⟨fun h => (by cases h), fun h => absurd h.1 List.not_mem_nil⟩⟩
  seen v h := absurd h List.not_mem_nil
  filed o s v h := h.elim

/-- A vote that was seen before, but for its signature. -/
theorem twin (h : Tallied obj votes) {w : CGovernanceVote} (hwvotes : w ∈ votes)
    (hcontent : w.toVoteContent = v.toVoteContent) : Tallied obj (insert v votes) := by
  have hstamp := CGovernanceVote.stamp_of_content hcontent
  constructor
  · intro o
    rw [h.record]
    constructor
    · rintro ⟨u, hu, ho⟩
      exact ⟨u, Set.mem_insert_of_mem _ hu, ho⟩
    · rintro ⟨u, rfl | hu, ho⟩
      · exact ⟨w, hwvotes, (congrArg VoteContent.smartnodeOutpoint hcontent).trans ho⟩
      · exact ⟨u, hu, ho⟩
  · intro o s
    by_cases hslot : v.InSlot o s
    · -- the record is already at least the vote's
      have hlatest := h.latest o s
      rcases hr : obj.voteInstance? o s with _ | inst
      · rw [hr] at hlatest
        exact absurd (hslot.of_content hcontent) (hlatest w hwvotes)
      · rw [hr] at hlatest
        refine hlatest.of_inSlot hslot hlatest.2.1 ?_
        have hle : v.stamp ≤ inst.stamp := hlatest.2.2.2 (.inr ⟨w, hwvotes, hslot.of_content hcontent, hstamp⟩)
        exact (max_eq_left hle).symm
    · exact (h.latest o s).of_not_inSlot hslot
  · exact h.indexed
  · exact fun u hu => Set.mem_insert_of_mem _ (h.seen u hu)
  · rintro o s u (rfl | hu) hslot htime
    · exact h.filed o s w hwvotes (hslot.of_content hcontent) ((congrArg VoteContent.nTime hcontent).symm ▸ htime)
    · exact h.filed o s u hu hslot htime

/-- A vote whose hash is in the file was seen before. -/
theorem known (h : Tallied obj votes) (hcf : CollisionFree (insert v votes))
    (hknown : obj.fileVotes.hasVote v.getHash = true) : Tallied obj (insert v votes) := by
  obtain ⟨w, hw, hhash⟩ := h.indexed.hasVote_iff.mp hknown
  have hwvotes := h.seen w hw
  exact h.twin hwvotes (hcf w (Set.mem_insert_of_mem _ hwvotes) v (Set.mem_insert _ _) hhash)

theorem unsupported (h : Tallied obj votes) (hv : ¬ Supported v.getSignal) :
    Tallied (obj.emplaceRecord v.smartnodeOutpoint) (insert v votes) := by
  have hslot : ∀ o s, ¬ v.InSlot o s := fun o s hslot => hv (hslot.signal ▸ hslot.supported)
  constructor
  · intro o
    rw [hasRecord_emplaceRecord, h.record]
    simp [eq_comm]
  · intro o s
    rw [voteInstance?_emplaceRecord]
    exact (h.latest o s).of_not_inSlot (hslot o s)
  · exact h.indexed
  · exact fun u hu => Set.mem_insert_of_mem _ (h.seen u hu)
  · rintro o s u (rfl | hu) huslot htime
    · exact absurd huslot (hslot o s)
    · rw [voteInstance, voteInstance?_emplaceRecord]
      exact h.filed o s u hu huslot htime

/-- A vote that is smaller than the record. -/
theorem refused (h : Tallied obj votes) (hsupported : Supported v.getSignal)
    (hlt : v.stamp < (obj.voteInstance v.smartnodeOutpoint v.getSignal).stamp) :
    Tallied (obj.touch v.smartnodeOutpoint v.getSignal) (insert v votes) := by
  have hsame : ∀ o s, (obj.touch v.smartnodeOutpoint v.getSignal).voteInstance o s = obj.voteInstance o s := by
    intro o s
    rw [voteInstance, voteInstance?_touch]
    split_ifs with hslot
    · rw [hslot.1, hslot.2]
      rfl
    · rfl
  constructor
  · intro o
    rw [hasRecord_touch, h.record]
    simp [eq_comm]
  · intro o s
    rw [voteInstance?_touch]
    split_ifs with hslot
    · obtain ⟨rfl, rfl⟩ := hslot
      exact (h.latest _ _).of_inSlot ⟨rfl, rfl, hsupported⟩ (h.latest _ _).getD.1 (max_eq_left hlt.le).symm
    · exact (h.latest o s).of_not_inSlot fun hv => hslot ⟨hv.outpoint.symm, hv.signal.symm⟩
  · exact h.indexed
  · exact fun u hu => Set.mem_insert_of_mem _ (h.seen u hu)
  · intro o s u hu hslot htime
    rw [hsame]
    rcases hu with rfl | hu
    · -- the record is greater than a vote that counts, so it is the record of a vote
      obtain ⟨rfl, rfl, -⟩ := hslot
      rcases (h.latest u.smartnodeOutpoint u.getSignal).getD.2.1 with hdefault | ⟨w, hw, hwslot, hwstamp⟩
      · exact absurd (stamp_default_le_iff.mpr htime) (not_le.mpr (hdefault ▸ hlt))
      · refine h.filed _ _ w hw hwslot (stamp_default_le_iff.mp ?_)
        have hle := (stamp_default_le_iff.mpr htime).trans hlt.le
        exact hle.trans hwstamp.ge
    · exact h.filed o s u hu hslot htime

theorem accepted (h : Tallied obj votes) (hrate : env.fRateChecksEnabled = false) (hv : Accepts env obj v) :
    Tallied (obj.accept env v) (insert v votes) := by
  constructor
  · intro o
    rw [hasRecord_accept, h.record]
    simp [eq_comm]
  · intro o s
    rw [voteInstance?_accept]
    split_ifs with hslot
    · obtain ⟨rfl, rfl⟩ := hslot
      have htime : (obj.recorded env v).nTime = 0 := by
        simp only [recorded, hrate, Bool.false_eq_true, if_false]
        exact (h.latest v.smartnodeOutpoint v.getSignal).getD.1
      exact (h.latest _ _).of_inSlot ⟨rfl, rfl, hv.supported⟩ htime (max_eq_right hv.newer).symm
    · exact (h.latest o s).of_not_inSlot fun hv => hslot ⟨hv.outpoint.symm, hv.signal.symm⟩
  · exact h.indexed.addVote v
  · intro u hu
    rcases (CGovernanceObjectVoteFile.mem_addVote hv.unknown).mp hu with rfl | ⟨hu, -⟩
    · exact Set.mem_insert _ _
    · exact Set.mem_insert_of_mem _ (h.seen u hu)
  · intro o s u hu hslot htime
    show ∃ w ∈ (obj.fileVotes.addVote v).listVotes, _
    simp only [CGovernanceObjectVoteFile.mem_addVote hv.unknown, voteInstance, voteInstance?_accept]
    by_cases hvslot : v.InSlot o s
    · rw [if_pos ⟨hvslot.outpoint.symm, hvslot.signal.symm⟩]
      exact ⟨v, .inl rfl, hvslot, rfl⟩
    · have hne : ¬ (o = v.smartnodeOutpoint ∧ s = v.getSignal) :=
        fun heq => hvslot ⟨heq.1.symm, heq.2.symm, hslot.supported⟩
      rw [if_neg hne]
      rcases hu with rfl | hu
      · exact absurd hslot hvslot
      · obtain ⟨w, hw, hwslot, hwstamp⟩ := h.filed o s u hu hslot htime
        refine ⟨w, .inr ⟨hw, ?_⟩, hwslot, hwstamp⟩
        -- an old vote is one of the same slot
        by_contra hold
        simp only [CGovernanceObjectVoteFile.isOldVote, Bool.not_eq_false, Bool.and_eq_true, beq_iff_eq,
          decide_eq_true_eq] at hold
        exact hne ⟨hwslot.outpoint.symm.trans hold.1.1.1, hwslot.signal.symm.trans hold.1.2⟩

/-- What one call of `ProcessVote` keeps. -/
theorem processVote (h : Tallied obj votes) (hop : Delivered obj (env, v)) (hcf : CollisionFree (insert v votes)) :
    Tallied (obj.processVote env v).2 (insert v votes) := by
  have hfound := CGovernanceVote.found_of_isValid hop.valid
  rcases processVote_cases env obj v with ⟨hknown, hr⟩ | ⟨hnone, -⟩ | ⟨hv, r, hr⟩ | ⟨hunknown, hsupported, hv, r, hr⟩ |
    ⟨hv, hr⟩
  · rw [hr]
    exact h.known hcf hknown
  · exact absurd hnone (by simp [hfound])
  · rw [hr]
    exact h.unsupported hv
  · rw [hr]
    refine h.refused hsupported (lt_of_not_ge fun hle => hv ⟨hunknown, hsupported, hle, fun hon => ?_, hop.valid⟩)
    exact absurd hon (Bool.eq_false_iff.mp hop.rate)
  · rw [hr]
    exact h.accepted hop.rate hv

end Tallied

/-- What `ProcessVote` leaves as it is. -/
theorem processVote_frame (env : Env) (obj : CGovernanceObject) (v : CGovernanceVote) :
    (obj.processVote env v).2.nObjectType = obj.nObjectType ∧
      ((obj.processVote env v).2.fCachedDelete || (obj.processVote env v).2.fExpired) =
        (obj.fCachedDelete || obj.fExpired) := by
  rcases processVote_cases env obj v with ⟨-, hr⟩ | ⟨-, hr⟩ | ⟨-, r, hr⟩ | ⟨-, -, -, r, hr⟩ | ⟨-, hr⟩ <;> rw [hr] <;>
    exact ⟨rfl, rfl⟩

omit [VoteCrypto] in
theorem union_votesOf_nil (votes : Set CGovernanceVote) : votes ∪ votesOf [] = votes := by
  simp [votesOf]

omit [VoteCrypto] in
theorem union_votesOf_cons (votes : Set CGovernanceVote) (op : Env × CGovernanceVote)
    (ops : List (Env × CGovernanceVote)) : votes ∪ votesOf (op :: ops) = insert op.2 votes ∪ votesOf ops := by
  ext w
  simp only [votesOf, Set.mem_union, Set.mem_ofPred_eq, List.exists_mem_cons_iff, Set.mem_insert_iff]
  tauto

/-- What a run of `ProcessVote` keeps. -/
theorem Tallied.processVotes {obj : CGovernanceObject} {votes : Set CGovernanceVote}
    {ops : List (Env × CGovernanceVote)} (h : Tallied obj votes) (hops : ∀ op ∈ ops, Delivered obj op)
    (hcf : CollisionFree (votes ∪ votesOf ops)) : Tallied (obj.processVotes ops) (votes ∪ votesOf ops) := by
  induction ops generalizing obj votes with
  | nil =>
      rw [union_votesOf_nil]
      exact h
  | cons op ops ih =>
      rw [union_votesOf_cons] at hcf ⊢
      have hstep := h.processVote (hops _ List.mem_cons_self)
        (fun a ha b hb => hcf a (.inl ha) b (.inl hb))
      refine ih hstep (fun op hop => ?_) hcf
      obtain ⟨hrate, hvalid⟩ := hops op (List.mem_cons_of_mem _ hop)
      refine ⟨hrate, ?_⟩
      rw [onlyVotingKeyAllowed, (processVote_frame _ _ _).1]
      exact hvalid

/-- After the valid votes, a slot with a vote that counts has the greatest of them. -/
theorem Tallied.voteInstance?_eq {obj : CGovernanceObject} {votes : Set CGovernanceVote} (h : Tallied obj votes)
    {o : COutPoint} {s : VoteSignal} {v : CGovernanceVote} (hv : v ∈ votes) (hslot : v.InSlot o s) (htime : 0 ≤ v.nTime)
    (hmax : ∀ w ∈ votes, w.InSlot o s → w.stamp ≤ v.stamp) :
    obj.voteInstance? o s = some ⟨v.getOutcome, 0, v.nTime⟩ := by
  refine (h.latest o s).unique ⟨⟨v, hv, hslot⟩, rfl, .inr ⟨v, hv, hslot, rfl⟩, ?_⟩
  rintro t (rfl | ⟨w, hw, hwslot, rfl⟩)
  · exact stamp_default_le_iff.mpr htime
  · exact hmax w hw hwslot

/-- A slot whose votes all have a negative timestamp keeps the record that `emplace` makes. -/
theorem Tallied.voteInstance?_default {obj : CGovernanceObject} {votes : Set CGovernanceVote} (h : Tallied obj votes)
    {o : COutPoint} {s : VoteSignal} (hslot : ∃ v ∈ votes, v.InSlot o s)
    (htime : ∀ w ∈ votes, w.InSlot o s → w.nTime < 0) : obj.voteInstance? o s = some {} := by
  refine (h.latest o s).unique ⟨hslot, rfl, Set.mem_insert _ _, ?_⟩
  rintro t (rfl | ⟨w, hw, hwslot, rfl⟩)
  · exact le_rfl
  · refine le_of_not_ge fun hle => ?_
    exact absurd (stamp_default_le_iff.mp hle) (not_le.mpr (htime w hw hwslot))

/-- **Tallies converge.** Two nodes process the same valid votes on an object, each in its own order and with
repetitions. Both end with the same records. The record of a smartnode and signal that counts is that of the vote
greatest by timestamp and outcome, if its timestamp is not negative, and where all timestamps are negative it stays
the default. The counts are the same. -/
theorem processVotes_converge (hash : UInt256) (nObjectType : Int) (ops ops' : List (Env × CGovernanceVote))
    (hops : ∀ op ∈ ops, Delivered { hash, nObjectType } op) (hops' : ∀ op ∈ ops', Delivered { hash, nObjectType } op)
    (hvotes : ∀ v, v ∈ ops.map Prod.snd ↔ v ∈ ops'.map Prod.snd)
    (hcf : CollisionFree {v | v ∈ ops.map Prod.snd}) :
    let obj := processVotes { hash, nObjectType } ops
    let obj' := processVotes { hash, nObjectType } ops'
    obj.mapCurrentMNVotes = obj'.mapCurrentMNVotes ∧
      (∀ o s, ∀ v ∈ ops.map Prod.snd, v.InSlot o s → 0 ≤ v.nTime →
        (∀ w ∈ ops.map Prod.snd, w.InSlot o s → w.stamp ≤ v.stamp) →
        obj.voteInstance? o s = some ⟨v.getOutcome, 0, v.nTime⟩ ∧
          obj'.voteInstance? o s = some ⟨v.getOutcome, 0, v.nTime⟩) ∧
      (∀ o s, (∃ v ∈ ops.map Prod.snd, v.InSlot o s) → (∀ w ∈ ops.map Prod.snd, w.InSlot o s → w.nTime < 0) →
        obj.voteInstance? o s = some {} ∧ obj'.voteInstance? o s = some {}) ∧
      ∀ s, obj.getYesCount s = obj'.getYesCount s ∧ obj.getNoCount s = obj'.getNoCount s ∧
        obj.getAbstainCount s = obj'.getAbstainCount s := by
  intro obj obj'
  have hset : ∀ l : List (Env × CGovernanceVote), ∅ ∪ votesOf l = {v | v ∈ l.map Prod.snd} := by
    intro l
    ext v
    simp only [votesOf, Set.empty_union, List.mem_map]
  have heq : {v | v ∈ ops'.map Prod.snd} = {v | v ∈ ops.map Prod.snd} := by
    ext v
    exact (hvotes v).symm
  have htally : Tallied obj {v | v ∈ ops.map Prod.snd} := by
    rw [← hset]
    exact (Tallied.fresh hash nObjectType).processVotes hops (hset ops ▸ hcf)
  have htally' : Tallied obj' {v | v ∈ ops.map Prod.snd} := by
    rw [← heq, ← hset]
    refine (Tallied.fresh hash nObjectType).processVotes hops' ?_
    rw [hset, heq]
    exact hcf
  have hmap : obj.mapCurrentMNVotes = obj'.mapCurrentMNVotes :=
    mapCurrentMNVotes_ext (fun o => (htally.record o).trans (htally'.record o).symm)
      fun o s => (htally.latest o s).unique (htally'.latest o s)
  refine ⟨hmap, fun o s v hv hslot htime hmax => ⟨htally.voteInstance?_eq hv hslot htime hmax,
    htally'.voteInstance?_eq hv hslot htime hmax⟩, fun o s hslot htime =>
    ⟨htally.voteInstance?_default hslot htime, htally'.voteInstance?_default hslot htime⟩, fun s => ?_⟩
  have hcount : ∀ outcome, obj.countMatchingVotes s outcome = obj'.countMatchingVotes s outcome := by
    intro outcome
    unfold countMatchingVotes voteInstance?
    rw [hmap]
  exact ⟨hcount _, hcount _, hcount _⟩

end CGovernanceObject

/-! ## Samples -/

omit [VoteCrypto]

/-- Every signature passes and the hash of a vote is made of its timestamp and outcome. -/
@[reducible] def contentHash : VoteCrypto where
  hash c := BitVec.ofInt 256 (4 * c.nTime + c.nVoteOutcome.toInt)
  signatureHash _ := 0
  verifyHash _ _ _ := true
  verifyMessage _ _ _ := true
  verifyInsecure _ _ _ := true

/-- A node of a list with every smartnode, with the rate checks off. -/
def listed : Env := ⟨1000, fun o => some { proTxHash := 1, collateralOutpoint := o }, false, true⟩

/-- A funding vote of one smartnode on the object `1`. -/
def fundingVote (nVoteOutcome : Int32) (nTime : Int) : CGovernanceVote := ⟨⟨⟨1, 0⟩, 1, 1, nVoteOutcome, nTime⟩, []⟩

theorem processVotes_converge_sample :
    let obj := @CGovernanceObject.processVotes contentHash { hash := 1, nObjectType := 2 }
      [(listed, fundingVote 1 5), (listed, fundingVote 2 6), (listed, fundingVote 1 5)]
    let obj' := @CGovernanceObject.processVotes contentHash { hash := 1, nObjectType := 2 }
      [(listed, fundingVote 2 6), (listed, fundingVote 1 5)]
    obj.mapCurrentMNVotes = obj'.mapCurrentMNVotes := by
  let := contentHash
  refine (CGovernanceObject.processVotes_converge 1 2 _ _ ?_ ?_ ?_ ?_).1
  · simp only [List.forall_mem_cons, List.not_mem_nil, false_imp_iff, implies_true, and_true]
    exact ⟨⟨rfl, by decide +kernel⟩, ⟨rfl, by decide +kernel⟩, ⟨rfl, by decide +kernel⟩⟩
  · simp only [List.forall_mem_cons, List.not_mem_nil, false_imp_iff, implies_true, and_true]
    exact ⟨⟨rfl, by decide +kernel⟩, ⟨rfl, by decide +kernel⟩⟩
  · intro v
    simp only [List.map_cons, List.map_nil, List.mem_cons, List.not_mem_nil, or_false]
    tauto
  · have hall : ∀ v ∈ [fundingVote 1 5, fundingVote 2 6, fundingVote 1 5],
        ∀ w ∈ [fundingVote 1 5, fundingVote 2 6, fundingVote 1 5],
        v.getHash = w.getHash → v.toVoteContent = w.toVoteContent := by decide +kernel
    exact hall

/-- A valid vote with the timestamp -1 is the only vote on an object; the outcome stays `VOTE_OUTCOME_NONE`. -/
theorem negative_timestamp_lost :
    letI := contentHash
    let obj := CGovernanceObject.processVotes { hash := 1, nObjectType := 2 } [(listed, fundingVote 1 (-1))]
    Delivered { hash := 1, nObjectType := 2 } (listed, fundingVote 1 (-1)) ∧
      (fundingVote 1 (-1)).getOutcome = VOTE_OUTCOME_YES ∧
      obj.voteInstance? ⟨1, 0⟩ VOTE_SIGNAL_FUNDING = some ⟨VOTE_OUTCOME_NONE, 0, 0⟩ ∧
      obj.getYesCount VOTE_SIGNAL_FUNDING = 0 :=
  ⟨@Delivered.mk contentHash _ _ rfl (by decide +kernel), by decide +kernel, by decide +kernel, by decide +kernel⟩

end RavenCash.Governance
