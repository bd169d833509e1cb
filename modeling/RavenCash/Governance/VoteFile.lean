import RavenCash.Governance.Tally

/-!
# The tally and the vote file

The records of an object and its vote file describe the same votes (`Agrees`) as long as no vote replaces a record
with the timestamp of its own: `RemoveOldVotes` removes only votes with a smaller timestamp, so the vote that lost stays
in the file.
-/

set_option autoImplicit false

namespace RavenCash.Governance

/-- The record is not the one that `emplace` makes. -/
def VoteInstance.IsRecorded (inst : VoteInstance) : Prop := inst.stamp ≠ VoteInstance.stamp {}

instance (inst : VoteInstance) : Decidable inst.IsRecorded :=
  inferInstanceAs (Decidable ((inst.nCreationTime, inst.eOutcome.toNat) ≠ ((0, 0) : ℤ × ℕ)))

variable [VoteCrypto]

/-- What changes the votes of the object `hash`. -/
inductive VoteOp (hash : UInt256) where
  | processVote (env : Env) (vote : CGovernanceVote) (parent : vote.nParentHash = hash)
  | clearSmartnodeVotes (env : Env)
  | removeInvalidVotes (env : Env) (mnOutpoint : COutPoint)

namespace CGovernanceObject

def step {hash : UInt256} (obj : CGovernanceObject) : VoteOp hash → CGovernanceObject
  | .processVote env vote _ => (obj.processVote env vote).2
  | .clearSmartnodeVotes env => obj.clearSmartnodeVotes env
  | .removeInvalidVotes env mnOutpoint => (obj.removeInvalidVotes env mnOutpoint).2

/-- The votes of a smartnode and signal in the file. -/
def votesIn (obj : CGovernanceObject) (o : COutPoint) (s : VoteSignal) : List CGovernanceVote :=
  obj.fileVotes.listVotes.filter fun v => v.smartnodeOutpoint == o && v.getSignal == s

/-- **The tally and the file agree**: a record is that of the only vote of its slot, the file has no other votes, and
its count, list and index describe the same set. -/
structure Agrees (obj : CGovernanceObject) : Prop where
  recorded : ∀ o s inst, obj.voteInstance? o s = some inst → inst.IsRecorded →
    ∃ v, obj.votesIn o s = [v] ∧ v.nTime = inst.nCreationTime ∧ v.getOutcome = inst.eOutcome
  others : ∀ v ∈ obj.fileVotes.listVotes,
    ∃ inst, obj.voteInstance? v.smartnodeOutpoint v.getSignal = some inst ∧ inst.IsRecorded
  indexed : obj.fileVotes.Indexed

/-- A vote that is taken has a greater timestamp than the record of its slot; a slot without a record takes every
vote but one with timestamp 0 and no outcome. -/
def Permitted {hash : UInt256} (obj : CGovernanceObject) : VoteOp hash → Prop
  | .processVote env vote _ => Accepts env obj vote →
      (obj.voteInstance vote.smartnodeOutpoint vote.getSignal).nCreationTime < vote.nTime ∨
        ¬ (obj.voteInstance vote.smartnodeOutpoint vote.getSignal).IsRecorded ∧ vote.stamp ≠ VoteInstance.stamp {}
  | _ => True

/-- What every run keeps. -/
structure Owned (nHash : UInt256) (obj : CGovernanceObject) : Prop where
  hash : obj.hash = nHash
  parent : ∀ v ∈ obj.fileVotes.listVotes, v.nParentHash = nHash
  nonneg : ∀ o s inst, obj.voteInstance? o s = some inst → VoteInstance.stamp {} ≤ inst.stamp

/-- The agreement by the votes of the file: the record of a vote is its own. -/
structure Filed (nHash : UInt256) (obj : CGovernanceObject) : Prop extends Owned nHash obj where
  indexed : obj.fileVotes.Indexed
  current : ∀ v ∈ obj.fileVotes.listVotes, ∃ inst,
    obj.voteInstance? v.smartnodeOutpoint v.getSignal = some inst ∧ inst.IsRecorded ∧ v.stamp = inst.stamp
  held : ∀ o s inst, obj.voteInstance? o s = some inst → inst.IsRecorded →
    ∃ v ∈ obj.fileVotes.listVotes, v.smartnodeOutpoint = o ∧ v.getSignal = s

omit [VoteCrypto] in
theorem mem_votesIn {obj : CGovernanceObject} {o : COutPoint} {s : VoteSignal} {v : CGovernanceVote} :
    v ∈ obj.votesIn o s ↔ v ∈ obj.fileVotes.listVotes ∧ v.smartnodeOutpoint = o ∧ v.getSignal = s := by
  simp [votesIn, List.mem_filter]

/-- `RemoveInvalidVotes` removes votes of the smartnode, and the records of the smartnode whose hash is that of one of
them. -/
theorem removeInvalidVotes_cases {env : Env} {obj obj' : CGovernanceObject} {mnOutpoint : COutPoint}
    (h : (obj.removeInvalidVotes env mnOutpoint).2 = obj') : obj' = obj ∨
    ∃ test : CGovernanceVote → Bool, (∀ v, test v = true → v.smartnodeOutpoint = mnOutpoint) ∧
      obj'.hash = obj.hash ∧ obj'.fileVotes = obj.fileVotes.removeVotes test ∧
      ∀ o s, obj'.voteInstance? o s =
        if o = mnOutpoint then (obj.voteInstance? o s).filter fun inst =>
          VoteCrypto.hash (obj.tmpVote o s inst) ∉ (obj.fileVotes.listVotes.filter test).map CGovernanceVote.getHash
        else obj.voteInstance? o s := by
  unfold CGovernanceObject.removeInvalidVotes at h
  rcases hrecord : obj.mapCurrentMNVotes.lookup mnOutpoint with _ | r
  · rw [hrecord] at h
    exact .inl h.symm
  rw [hrecord] at h
  refine .inr ⟨CGovernanceObjectVoteFile.isInvalidVote env mnOutpoint (obj.nObjectType == GOVERNANCE_OBJECT_PROPOSAL),
    fun v hv => ?_, ?_⟩
  · simp only [CGovernanceObjectVoteFile.isInvalidVote, Bool.and_eq_true, beq_iff_eq] at hv
    exact hv.1
  obtain ⟨removedVotes, fileVotes, hremoved⟩ : ∃ removedVotes fileVotes, obj.fileVotes.removeInvalidVotes env mnOutpoint
      (obj.nObjectType == GOVERNANCE_OBJECT_PROPOSAL) = (removedVotes, fileVotes) := ⟨_, _, rfl⟩
  rw [hremoved] at h
  obtain ⟨hvotes, hfile⟩ := Prod.mk.inj hremoved
  rw [hvotes, hfile]
  dsimp only at h
  by_cases hnone : removedVotes.isEmpty = true
  · rw [if_pos hnone] at h
    subst h
    refine ⟨rfl, rfl, fun o s => ?_⟩
    rw [List.isEmpty_iff.mp hnone]
    have hall : ∀ r : Option VoteInstance, r.filter (fun _ => true) = r := by rintro (_ | _) <;> rfl
    simp [voteInstance?, hall]
  · rw [if_neg hnone] at h
    subst h
    refine ⟨rfl, rfl, fun o s => ?_⟩
    simp only [voteInstance?]
    split_ifs with hempty ho ho
    · -- the record of the smartnode has no entry left and goes
      subst ho
      have hlookup := FiniteMap.lookup_of_size_eq_zero hempty s
      rw [FiniteMap.lookup_keep] at hlookup
      rw [FiniteMap.lookup_erase_eq, if_pos rfl]
      simpa [hrecord] using hlookup.symm
    · rw [FiniteMap.lookup_erase_eq, if_neg ho]
    · subst ho
      rw [hrecord, FiniteMap.lookup_assign, if_pos rfl, Option.bind_some, FiniteMap.lookup_keep]
      simp
    · rw [FiniteMap.lookup_assign, if_neg ho]

section

variable {nHash : UInt256} {obj obj' : CGovernanceObject} {env : Env} {v : CGovernanceVote}

omit [VoteCrypto] in
theorem Owned.default_le (h : Owned nHash obj) (o : COutPoint) (s : VoteSignal) :
    VoteInstance.stamp {} ≤ (obj.voteInstance o s).stamp := by
  unfold voteInstance
  cases hr : obj.voteInstance? o s with
  | none => exact le_rfl
  | some inst => exact h.nonneg o s inst hr

omit [VoteCrypto] in
theorem Owned.touch (h : Owned nHash obj) (o : COutPoint) (s : VoteSignal) : Owned nHash (obj.touch o s) where
  hash := h.hash
  parent := h.parent
  nonneg o' s' inst hinst := by
    rw [voteInstance?_touch] at hinst
    split_ifs at hinst with hslot
    · exact Option.some.inj hinst ▸ h.default_le o s
    · exact h.nonneg o' s' inst hinst

theorem Owned.accept (h : Owned nHash obj) (hv : Accepts env obj v) (hparent : v.nParentHash = nHash) :
    Owned nHash (obj.accept env v) where
  hash := h.hash
  parent w hw := by
    rcases (CGovernanceObjectVoteFile.mem_addVote hv.unknown).mp hw with rfl | ⟨hw, -⟩
    · exact hparent
    · exact h.parent w hw
  nonneg o s inst hinst := by
    rw [voteInstance?_accept] at hinst
    split_ifs at hinst with hslot
    · exact Option.some.inj hinst ▸ (h.default_le _ _).trans hv.newer
    · exact h.nonneg o s inst hinst

/-- Votes and records are removed. -/
theorem Owned.removeVotes (h : Owned nHash obj) {test : CGovernanceVote → Bool} (hhash : obj'.hash = obj.hash)
    (hfile : obj'.fileVotes = obj.fileVotes.removeVotes test)
    (hinst : ∀ o s inst, obj'.voteInstance? o s = some inst → obj.voteInstance? o s = some inst) :
    Owned nHash obj' where
  hash := hhash.trans h.hash
  parent v hv := by
    rw [hfile] at hv
    exact h.parent v (List.mem_of_mem_filter hv)
  nonneg o s inst hi := h.nonneg o s inst (hinst o s inst hi)

theorem voteInstance?_clearSmartnodeVotes (o : COutPoint) (s : VoteSignal) :
    (obj.clearSmartnodeVotes env).voteInstance? o s =
      if (env.getMNByCollateral o).isNone then none else obj.voteInstance? o s := by
  simp only [voteInstance?, CGovernanceObject.clearSmartnodeVotes, FiniteMap.lookup_keep]
  cases obj.mapCurrentMNVotes.lookup o <;> cases (env.getMNByCollateral o).isNone <;> rfl

theorem Owned.step (h : Owned nHash obj) (op : VoteOp nHash) : Owned nHash (obj.step op) := by
  cases op with
  | processVote env v hparent =>
      unfold CGovernanceObject.step
      rcases processVote_cases env obj v with ⟨-, hr⟩ | ⟨-, hr⟩ | ⟨-, r, hr⟩ | ⟨-, -, -, r, hr⟩ | ⟨hv, hr⟩ <;>
        simp only [hr]
      · exact h
      · exact h
      · exact ⟨h.hash, h.parent, fun o s inst hi => h.nonneg o s inst (voteInstance?_emplaceRecord ▸ hi)⟩
      · exact h.touch _ _
      · exact h.accept hv hparent
  | clearSmartnodeVotes env =>
      show Owned nHash (obj.clearSmartnodeVotes env)
      refine h.removeVotes rfl rfl fun o s inst hi => ?_
      rw [voteInstance?_clearSmartnodeVotes] at hi
      split_ifs at hi
      exact hi
  | removeInvalidVotes env mnOutpoint =>
      unfold CGovernanceObject.step
      rcases @removeInvalidVotes_cases _ env obj _ mnOutpoint rfl with hsame | ⟨test, -, hhash, hfile, hlookup⟩
      · simp only [hsame]
        exact h
      · refine h.removeVotes hhash hfile fun o s inst hi => ?_
        rw [hlookup] at hi
        split_ifs at hi
        · exact (Option.filter_eq_some_iff.mp hi).1
        · exact hi

end

namespace Filed

variable {nHash : UInt256} {obj obj' : CGovernanceObject} {v w : CGovernanceVote}

theorem fresh (hash : UInt256) (nObjectType : Int) : Filed hash { hash, nObjectType } where
  hash := rfl
  parent v h := absurd h List.not_mem_nil
  nonneg o s inst h := by cases h
  indexed := (Tallied.fresh hash nObjectType).indexed
  current v h := absurd h List.not_mem_nil
  held o s inst h := by cases h

/-- The file has one vote of a slot. -/
theorem eq_of_slot (h : Filed nHash obj) (hv : v ∈ obj.fileVotes.listVotes) (hw : w ∈ obj.fileVotes.listVotes)
    (ho : v.smartnodeOutpoint = w.smartnodeOutpoint) (hs : v.getSignal = w.getSignal) : v = w := by
  obtain ⟨inst, hinst, -, hstamp⟩ := h.current v hv
  obtain ⟨inst', hinst', -, hstamp'⟩ := h.current w hw
  rw [ho, hs, hinst'] at hinst
  obtain rfl := Option.some.inj hinst
  have hcontent := CGovernanceVote.content_eq ho hs ((h.parent v hv).trans (h.parent w hw).symm)
      (hstamp.trans hstamp'.symm)
  exact List.inj_on_of_nodup_map h.indexed.nodup hv hw (congrArg VoteCrypto.hash hcontent)

theorem agrees (h : Filed nHash obj) : obj.Agrees where
  recorded o s inst hinst hrec := by
    obtain ⟨v, hv, ho, hs⟩ := h.held o s inst hinst hrec
    obtain ⟨inst', hinst', -, hstamp⟩ := h.current v hv
    rw [ho, hs, hinst] at hinst'
    obtain rfl := Option.some.inj hinst'
    obtain ⟨htime, houtcome⟩ := Prod.mk.inj (toLex.injective hstamp)
    refine ⟨v, ?_, htime, UInt32.toNat_inj.mp houtcome⟩
    have hnodup : (obj.votesIn o s).Nodup := (List.Nodup.of_map _ h.indexed.nodup).filter _
    refine List.perm_singleton.mp ((List.perm_ext_iff_of_nodup hnodup (List.nodup_singleton v)).mpr fun w => ?_)
    rw [mem_votesIn, List.mem_singleton]
    constructor
    · rintro ⟨hw, hwo, hws⟩
      exact h.eq_of_slot hw hv (hwo.trans ho.symm) (hws.trans hs.symm)
    · rintro rfl
      exact ⟨hv, ho, hs⟩
  others v hv := by
    obtain ⟨inst, hinst, hrec, -⟩ := h.current v hv
    exact ⟨inst, hinst, hrec⟩
  indexed := h.indexed

/-- A record made from a vote of the file has the vote's content. -/
theorem tmpVote_eq (h : Filed nHash obj) (hv : v ∈ obj.fileVotes.listVotes) {inst : VoteInstance}
    (hinst : obj.voteInstance? v.smartnodeOutpoint v.getSignal = some inst) :
    obj.tmpVote v.smartnodeOutpoint v.getSignal inst = v.toVoteContent := by
  obtain ⟨inst', hinst', -, hstamp⟩ := h.current v hv
  obtain rfl := Option.some.inj (hinst.symm.trans hinst')
  refine CGovernanceVote.content_eq (v := ⟨obj.tmpVote v.smartnodeOutpoint v.getSignal inst, []⟩) rfl ?_ ?_ ?_
  · simp [tmpVote, CGovernanceVote.getSignal]
  · exact h.hash.trans (h.parent v hv).symm
  · rw [hstamp]
    simp [tmpVote, CGovernanceVote.stamp, VoteInstance.stamp, CGovernanceVote.getOutcome]

/-- Votes leave the file together with their records. -/
theorem removeVotes (h : Filed nHash obj) {test : CGovernanceVote → Bool} (howned : Owned nHash obj')
    (hfile : obj'.fileVotes = obj.fileVotes.removeVotes test)
    (hkeep : ∀ v ∈ obj.fileVotes.listVotes, test v = false →
      obj'.voteInstance? v.smartnodeOutpoint v.getSignal = obj.voteInstance? v.smartnodeOutpoint v.getSignal)
    (hgone : ∀ o s inst, obj'.voteInstance? o s = some inst → obj.voteInstance? o s = some inst ∧
      ∀ v ∈ obj.fileVotes.listVotes, v.smartnodeOutpoint = o → v.getSignal = s → test v = false) :
    Filed nHash obj' := by
  have hmem : ∀ v, v ∈ obj'.fileVotes.listVotes ↔ v ∈ obj.fileVotes.listVotes ∧ test v = false := by
    intro v
    rw [hfile]
    show v ∈ obj.fileVotes.listVotes.filter _ ↔ _
    simp [List.mem_filter]
  refine ⟨howned, ?_, ?_, ?_⟩
  · exact hfile ▸ h.indexed.removeVotes test
  · intro v hv
    obtain ⟨hv, htest⟩ := (hmem v).mp hv
    rw [hkeep v hv htest]
    exact h.current v hv
  · intro o s inst hinst hrec
    obtain ⟨hold, htest⟩ := hgone o s inst hinst
    obtain ⟨v, hv, ho, hs⟩ := h.held o s inst hold hrec
    exact ⟨v, (hmem v).mpr ⟨hv, htest v hv ho hs⟩, ho, hs⟩

theorem clearSmartnodeVotes (h : Filed nHash obj) (env : Env) : Filed nHash (obj.clearSmartnodeVotes env) := by
  refine h.removeVotes (h.step (.clearSmartnodeVotes env)) rfl (fun v hv htest => ?_) fun o s inst hinst => ?_
  · -- a vote of the file has a record, so it stays only if its smartnode is listed
    obtain ⟨inst, hinst, -, -⟩ := h.current v hv
    have hsome : (obj.mapCurrentMNVotes.lookup v.smartnodeOutpoint).isSome = true := by
      cases hl : obj.mapCurrentMNVotes.lookup v.smartnodeOutpoint with
      | none => simp [voteInstance?, hl] at hinst
      | some r => rfl
    have hlisted : (env.getMNByCollateral v.smartnodeOutpoint).isNone = false := by simpa [hsome] using htest
    rw [voteInstance?_clearSmartnodeVotes, hlisted, if_neg Bool.false_ne_true]
  · rw [voteInstance?_clearSmartnodeVotes] at hinst
    split_ifs at hinst with hlisted
    refine ⟨hinst, fun v _ ho _ => ?_⟩
    simp [ho, Bool.eq_false_iff.mpr hlisted]

theorem removeInvalidVotes (h : Filed nHash obj) (env : Env) (mnOutpoint : COutPoint) :
    Filed nHash (obj.removeInvalidVotes env mnOutpoint).2 := by
  rcases @removeInvalidVotes_cases _ env obj _ mnOutpoint rfl with hsame | ⟨test, hof, -, hfile, hlookup⟩
  · rw [hsame]
    exact h
  -- the record of a vote is erased with the vote: the two have the same hash
  have hremoved : ∀ v ∈ obj.fileVotes.listVotes, ∀ inst,
      obj.voteInstance? v.smartnodeOutpoint v.getSignal = some inst →
      (VoteCrypto.hash (obj.tmpVote v.smartnodeOutpoint v.getSignal inst) ∈
        (obj.fileVotes.listVotes.filter test).map CGovernanceVote.getHash ↔ test v = true) := by
    intro v hv inst hinst
    rw [h.tmpVote_eq hv hinst, List.mem_map]
    constructor
    · rintro ⟨w, hw, hhash⟩
      obtain ⟨hw, hwtest⟩ := List.mem_filter.mp hw
      rwa [List.inj_on_of_nodup_map h.indexed.nodup hw hv hhash] at hwtest
    · exact fun htest => ⟨v, List.mem_filter.mpr ⟨hv, htest⟩, rfl⟩
  refine h.removeVotes (h.step (.removeInvalidVotes env mnOutpoint)) hfile (fun v hv htest =>
      ?_) fun o s inst hinst => ?_
  · obtain ⟨inst, hinst, -, -⟩ := h.current v hv
    rw [hlookup, hinst]
    split_ifs with ho
    · refine Option.filter_eq_some_iff.mpr ⟨rfl, ?_⟩
      simpa [hremoved v hv inst hinst] using htest
    · rfl
  · rw [hlookup] at hinst
    split_ifs at hinst with ho
    · obtain ⟨hinst, hkept⟩ := Option.filter_eq_some_iff.mp hinst
      refine ⟨hinst, fun v hv hvo hvs => ?_⟩
      subst hvo hvs
      simpa [hremoved v hv inst hinst] using hkept
    · exact ⟨hinst, fun v _ hvo _ => Bool.eq_false_iff.mpr fun htest => ho (hvo ▸ hof v htest)⟩

/-- A vote that leaves at most an empty record. -/
theorem of_voteInstance? (h : Filed nHash obj) (howned : Owned nHash obj') (hfile : obj'.fileVotes = obj.fileVotes)
    (hinst : ∀ o s, obj'.voteInstance? o s = obj.voteInstance? o s ∨
      obj.voteInstance? o s = none ∧ obj'.voteInstance? o s = some {}) : Filed nHash obj' := by
  refine ⟨howned, hfile ▸ h.indexed, ?_, ?_⟩
  · intro v hv
    rw [hfile] at hv
    obtain ⟨inst, hcurrent, hrec⟩ := h.current v hv
    rcases hinst v.smartnodeOutpoint v.getSignal with heq | ⟨hnone, -⟩
    · exact ⟨inst, heq.trans hcurrent, hrec⟩
    · rw [hnone] at hcurrent
      cases hcurrent
  · intro o s inst hcurrent hrec
    rw [hfile]
    rcases hinst o s with heq | ⟨-, hdefault⟩
    · exact h.held o s inst (heq ▸ hcurrent) hrec
    · rw [hdefault] at hcurrent
      obtain rfl := Option.some.inj hcurrent
      exact absurd rfl hrec

theorem touch (h : Filed nHash obj) (o : COutPoint) (s : VoteSignal) : Filed nHash (obj.touch o s) := by
  refine h.of_voteInstance? (h.toOwned.touch o s) rfl fun o' s' => ?_
  rw [voteInstance?_touch]
  split_ifs with hslot
  · obtain ⟨rfl, rfl⟩ := hslot
    cases hr : obj.voteInstance? o' s' with
    | none => exact .inr ⟨rfl, by rw [voteInstance, hr]; rfl⟩
    | some inst => exact .inl (by rw [voteInstance, hr]; rfl)
  · exact .inl rfl

/-- The record that a vote of the file has. -/
theorem stamp_eq (h : Filed nHash obj) (hv : v ∈ obj.fileVotes.listVotes) :
    v.stamp = (obj.voteInstance v.smartnodeOutpoint v.getSignal).stamp := by
  obtain ⟨inst, hinst, -, hstamp⟩ := h.current v hv
  rw [voteInstance, hinst]
  exact hstamp

/-- A vote that is taken keeps the agreement if and only if it is permitted. -/
theorem accept_iff (h : Filed nHash obj) {env : Env} (hv : Accepts env obj v) (hparent : v.nParentHash = nHash) :
    Filed nHash (obj.accept env v) ↔
      (obj.voteInstance v.smartnodeOutpoint v.getSignal).nCreationTime < v.nTime ∨
        ¬ (obj.voteInstance v.smartnodeOutpoint v.getSignal).IsRecorded ∧ v.stamp ≠ VoteInstance.stamp {} := by
  have hmem {w : CGovernanceVote} : w ∈ (obj.accept env v).fileVotes.listVotes ↔
      w = v ∨ w ∈ obj.fileVotes.listVotes ∧ CGovernanceObjectVoteFile.isOldVote v w = false :=
    CGovernanceObjectVoteFile.mem_addVote hv.unknown
  have hself : (obj.accept env v).voteInstance? v.smartnodeOutpoint v.getSignal = some (obj.recorded env v) := by
    rw [voteInstance?_accept, if_pos ⟨rfl, rfl⟩]
  constructor
  · intro h'
    by_contra hnot
    obtain ⟨htime, hrecord⟩ := not_or.mp hnot
    obtain ⟨inst, hinst, hrec, -⟩ := h'.current v (hmem.mpr (.inl rfl))
    obtain rfl := Option.some.inj (hself.symm.trans hinst)
    -- the record of the slot is that of a vote of the file, which is not older and stays
    have hold : (obj.voteInstance v.smartnodeOutpoint v.getSignal).IsRecorded := by
      by_contra hnone
      exact hrecord ⟨hnone, hrec⟩
    obtain ⟨inst, hinst⟩ : ∃ inst, obj.voteInstance? v.smartnodeOutpoint v.getSignal = some inst := by
      cases hr : obj.voteInstance? v.smartnodeOutpoint v.getSignal with
      | none => exact absurd (by rw [voteInstance, hr]; rfl) hold
      | some inst => exact ⟨inst, rfl⟩
    have heq : obj.voteInstance v.smartnodeOutpoint v.getSignal = inst := by rw [voteInstance, hinst]; rfl
    obtain ⟨w, hw, ho, hs⟩ := h.held _ _ inst hinst (heq ▸ hold)
    have hwtime : w.nTime = inst.nCreationTime := by
      have hstamp := h.stamp_eq hw
      rw [ho, hs, heq] at hstamp
      exact (Prod.mk.inj (toLex.injective hstamp)).1
    have hkept : CGovernanceObjectVoteFile.isOldVote v w = false := by
      have hlt : ¬ w.nTime < v.nTime := by
        rw [hwtime, ← heq]
        exact htime
      simp [CGovernanceObjectVoteFile.isOldVote, hlt]
    obtain rfl := h'.eq_of_slot (hmem.mpr (.inr ⟨hw, hkept⟩)) (hmem.mpr (.inl rfl)) ho hs
    have hknown := h.indexed.hasVote_iff.mpr ⟨w, hw, rfl⟩
    rw [hv.unknown] at hknown
    cases hknown
  · intro hcond
    -- no vote of the slot stays beside the new one
    have hother : ∀ w ∈ obj.fileVotes.listVotes, CGovernanceObjectVoteFile.isOldVote v w = false →
        ¬ (w.smartnodeOutpoint = v.smartnodeOutpoint ∧ w.getSignal = v.getSignal) := by
      rintro w hw hkept ⟨ho, hs⟩
      have hstamp := h.stamp_eq hw
      obtain ⟨inst, hinst, hrec, -⟩ := h.current w hw
      rw [ho, hs] at hstamp hinst
      have heq : obj.voteInstance v.smartnodeOutpoint v.getSignal = inst := by rw [voteInstance, hinst]; rfl
      rcases hcond with hlt | ⟨hnone, -⟩
      · have hwtime := (Prod.mk.inj (toLex.injective hstamp)).1
        simp [CGovernanceObjectVoteFile.isOldVote, ho, hs, h.parent w hw, hparent] at hkept
        omega
      · exact hnone (heq ▸ hrec)
    have hrec : v.stamp ≠ VoteInstance.stamp {} := by
      rcases hcond with hlt | ⟨-, hne⟩
      · intro hdefault
        have hle := h.default_le v.smartnodeOutpoint v.getSignal
        have htime : v.nTime = 0 := (Prod.mk.inj (toLex.injective hdefault)).1
        rw [VoteInstance.stamp, VoteInstance.stamp, Prod.Lex.toLex_le_toLex] at hle
        dsimp only at hle
        omega
      · exact hne
    refine ⟨h.toOwned.accept hv hparent, h.indexed.addVote v, fun w hw => ?_, fun o s inst hinst hi => ?_⟩
    · rcases hmem.mp hw with rfl | ⟨hw, hkept⟩
      · exact ⟨_, hself, hrec, rfl⟩
      · rw [voteInstance?_accept, if_neg (hother w hw hkept)]
        exact h.current w hw
    · rw [voteInstance?_accept] at hinst
      split_ifs at hinst with hslot
      · exact ⟨v, hmem.mpr (.inl rfl), hslot.1.symm, hslot.2.symm⟩
      · obtain ⟨w, hw, ho, hs⟩ := h.held o s inst hinst hi
        refine ⟨w, hmem.mpr (.inr ⟨hw, ?_⟩), ho, hs⟩
        by_contra hold
        simp only [CGovernanceObjectVoteFile.isOldVote, Bool.not_eq_false, Bool.and_eq_true, beq_iff_eq] at hold
        exact hslot ⟨ho.symm.trans hold.1.1.1, hs.symm.trans hold.1.2⟩

/-- What one step keeps. -/
theorem step_iff (h : Filed nHash obj) (op : VoteOp nHash) : Filed nHash (obj.step op) ↔ obj.Permitted op := by
  cases op with
  | processVote env v hparent =>
      have hrefused : ¬ Accepts env obj v → obj.Permitted (.processVote env v hparent) := fun hnot hv => absurd hv hnot
      unfold CGovernanceObject.step
      rcases processVote_cases env obj v with ⟨hknown, hr⟩ | ⟨hnone, hr⟩ | ⟨hs, r, hr⟩ | ⟨-, -, hnot, r, hr⟩ |
        ⟨hv, hr⟩ <;>
        simp only [hr]
      · exact iff_of_true h (hrefused fun hv => by simp [hv.unknown] at hknown)
      · exact iff_of_true h (hrefused fun hv => by simp [CGovernanceVote.found_of_isValid hv.valid] at hnone)
      · refine iff_of_true ?_ (hrefused fun hv => hs hv.supported)
        have howned := h.step (.processVote env v hparent)
        simp only [CGovernanceObject.step, hr] at howned
        exact h.of_voteInstance? howned rfl fun o s => .inl voteInstance?_emplaceRecord
      · exact iff_of_true (h.touch _ _) (hrefused hnot)
      · exact (h.accept_iff hv hparent).trans ⟨fun hcond _ => hcond, fun hcond => hcond hv⟩
  | clearSmartnodeVotes env => exact iff_of_true (h.clearSmartnodeVotes env) trivial
  | removeInvalidVotes env mnOutpoint => exact iff_of_true (h.removeInvalidVotes env mnOutpoint) trivial

end Filed

theorem Agrees.filed {nHash : UInt256} {obj : CGovernanceObject} (h : obj.Agrees) (howned : Owned nHash obj) :
    Filed nHash obj := by
  refine ⟨howned, h.indexed, fun v hv => ?_, fun o s inst hinst hrec => ?_⟩
  · obtain ⟨inst, hinst, hrec⟩ := h.others v hv
    obtain ⟨w, hw, htime, houtcome⟩ := h.recorded _ _ inst hinst hrec
    have hmem : v ∈ obj.votesIn v.smartnodeOutpoint v.getSignal := mem_votesIn.mpr ⟨hv, rfl, rfl⟩
    rw [hw, List.mem_singleton] at hmem
    refine ⟨inst, hinst, hrec, ?_⟩
    rw [CGovernanceVote.stamp, VoteInstance.stamp, hmem, htime, houtcome]
  · obtain ⟨w, hw, -, -⟩ := h.recorded o s inst hinst hrec
    have hmem : w ∈ obj.votesIn o s := by rw [hw]; exact List.mem_singleton_self w
    exact ⟨w, mem_votesIn.mp hmem⟩

/-- **The tally and the vote file agree in every state of a run if and only if** every vote that is taken has a greater
timestamp than the record it replaces, or finds no record and leaves one. -/
theorem agrees_iff_permitted (hash : UInt256) (nObjectType : Int) (ops : List (VoteOp hash)) :
    (∀ before after, ops = before ++ after → (Simulation.exec step { hash, nObjectType } before).Agrees) ↔
      Simulation.Throughout step Permitted { hash, nObjectType } ops := by
  have howned : ∀ before : List (VoteOp hash), Owned hash (Simulation.exec step { hash, nObjectType } before) := by
    intro before
    refine @Simulation.exec_invariant _ _ _ (fun _ _ => True) _ (fun obj op h _ => h.step op) _ _
      (Filed.fresh hash nObjectType).toOwned ?_
    exact Simulation.throughout_iff.mpr fun _ _ _ _ => trivial
  rw [← Simulation.invariant_iff (fun obj op h => h.step_iff op) (Filed.fresh hash nObjectType)]
  exact ⟨fun h before after hops => (h before after hops).filed (howned before),
    fun h before after hops => (h before after hops).agrees⟩

end CGovernanceObject

omit [VoteCrypto] in
/-- Two valid votes of a smartnode with the same timestamp and signal: the second replaces the record of the first, and
both are in the file. -/
theorem same_timestamp_both_filed :
    letI := contentHash
    let ops : List (VoteOp 1) := [.processVote listed (fundingVote 1 5) rfl, .processVote listed (fundingVote 2 5) rfl]
    let obj := Simulation.exec CGovernanceObject.step { hash := 1, nObjectType := 2 } ops
    obj.voteInstance? ⟨1, 0⟩ VOTE_SIGNAL_FUNDING = some ⟨VOTE_OUTCOME_NO, 0, 5⟩ ∧
      obj.votesIn ⟨1, 0⟩ VOTE_SIGNAL_FUNDING = [fundingVote 2 5, fundingVote 1 5] ∧ ¬ obj.Agrees := by
  have hinst : (@Simulation.exec _ _ (@CGovernanceObject.step contentHash 1) { hash := 1, nObjectType := 2 }
      [.processVote listed (fundingVote 1 5) rfl, .processVote listed (fundingVote 2 5) rfl]).voteInstance?
      ⟨1, 0⟩ VOTE_SIGNAL_FUNDING = some ⟨VOTE_OUTCOME_NO, 0, 5⟩ := by decide +kernel
  have hvotes : (@Simulation.exec _ _ (@CGovernanceObject.step contentHash 1) { hash := 1, nObjectType := 2 }
      [.processVote listed (fundingVote 1 5) rfl, .processVote listed (fundingVote 2 5) rfl]).votesIn
      ⟨1, 0⟩ VOTE_SIGNAL_FUNDING = [fundingVote 2 5, fundingVote 1 5] := by decide +kernel
  refine ⟨hinst, hvotes, fun h => ?_⟩
  obtain ⟨v, hv, -⟩ := @CGovernanceObject.Agrees.recorded contentHash _ h _ _ _ hinst (by decide +kernel)
  rw [hvotes] at hv
  cases hv

end RavenCash.Governance
