import RavenCash.Governance.Tally

/-!
# Votes that arrive before their object

`CGovernanceManager`: a vote on an unknown object waits in `cmmapOrphanVotes` until `AddGovernanceObject` puts a copy of
the object into `mapObjects` and has `CheckOrphanVotes` process the waiting votes, on the object it was given and not
on the copy. So the stored object has the votes that were delivered after it and no others.
-/

set_option autoImplicit false

namespace RavenCash.Governance

/-! ## The caches -/

def MAX_CACHE_SIZE : Nat := 1000000

/-- The items of a `CacheMap` or `CacheMultiMap`, the newest first, with one more; a full cache loses its oldest. -/
def pushItem {K V : Type} (items : List (K × V)) (key : K) (value : V) : List (K × V) :=
  (key, value) :: if items.length = MAX_CACHE_SIZE then items.dropLast else items

/-- `CacheMap::Insert` -/
def cacheInsert {K V : Type} [DecidableEq K] (items : List (K × V)) (key : K) (value : V) : List (K × V) :=
  if (items.lookup key).isSome then items else pushItem items key value

/-- `operator<` of votes. Each step asks for a field to be smaller and the next one for it to be equal. -/
def CGovernanceVote.lt (vote1 vote2 : CGovernanceVote) : Bool :=
  if !outpointLt vote1.smartnodeOutpoint vote2.smartnodeOutpoint then false
  else
    let fResult := vote1.smartnodeOutpoint == vote2.smartnodeOutpoint
    let fResult := fResult && decide (leBytes 32 vote1.nParentHash.toNat < leBytes 32 vote2.nParentHash.toNat)
    if !fResult then false
    else
      let fResult := fResult && vote1.nParentHash == vote2.nParentHash &&
          decide (vote1.nVoteOutcome < vote2.nVoteOutcome)
      if !fResult then false
      else fResult && vote1.nVoteOutcome == vote2.nVoteOutcome && vote1.nVoteSignal == vote2.nVoteSignal &&
        decide (vote1.nTime < vote2.nTime)

/-- `operator<` of `vote_time_pair_t`, a `std::pair`. -/
def votePairLt (a b : CGovernanceVote × Int) : Bool := a.1.lt b.1 || !b.1.lt a.1 && decide (a.2 < b.2)

abbrev OrphanVotes := List (UInt256 × (CGovernanceVote × Int))

/-- `CacheMultiMap::Insert`: a value that is neither smaller nor greater than one of the key is a duplicate. -/
def OrphanVotes.insert (items : OrphanVotes) (key : UInt256) (value : CGovernanceVote × Int) : OrphanVotes :=
  if items.any fun item => item.1 == key && !votePairLt item.2 value && !votePairLt value item.2 then items
  else pushItem items key value

/-- `CacheMultiMap::GetAll`: the values of a key in their order. -/
def OrphanVotes.getAll (items : OrphanVotes) (key : UInt256) : List (CGovernanceVote × Int) :=
  ((items.filter fun item => item.1 == key).map Prod.snd).insertionSort fun a b => !votePairLt b a

/-- `CacheMultiMap::Erase` -/
def OrphanVotes.eraseValue (items : OrphanVotes) (key : UInt256) (value : CGovernanceVote × Int) : OrphanVotes :=
  items.filter fun item => !(item.1 == key && !votePairLt item.2 value && !votePairLt value item.2)

/-! ## The manager -/

/-- What `AddGovernanceObject` asks of the other components. -/
structure ManagerEnv extends Env where
  isValidLocally : CGovernanceObject → Bool
  addNewTrigger : UInt256 → Bool

/-- A pointer to an object of `mapObjects` is its hash. -/
structure CGovernanceManager where
  mapObjects : FiniteMap UInt256 CGovernanceObject := ∅
  cmapVoteToObject : List (UInt256 × UInt256) := []
  cmapInvalidVotes : List (UInt256 × CGovernanceVote) := []
  cmmapOrphanVotes : OrphanVotes := []

def GOVERNANCE_ORPHAN_EXPIRATION_TIME : Int := 10 * 60

variable [VoteCrypto]

namespace CGovernanceManager

def haveVoteForHash (m : CGovernanceManager) (nHash : UInt256) : Bool :=
  ((m.cmapVoteToObject.lookup nHash).bind fun hash => m.mapObjects.lookup hash).any fun obj =>
      obj.fileVotes.hasVote nHash

/-- `AddInvalidVote`, which `CGovernanceObject::ProcessVote` calls for a vote that is not valid. -/
def addInvalidVote (m : CGovernanceManager) (r : Option VoteRejection) (vote : CGovernanceVote) : CGovernanceManager :=
  if r = some .invalid then { m with cmapInvalidVotes := cacheInsert m.cmapInvalidVotes vote.getHash vote } else m

/-- `cmmapOrphanVotes.Insert` -/
def addOrphanVote (env : Env) (m : CGovernanceManager) (vote : CGovernanceVote) : CGovernanceManager :=
  let pairVote := (vote, env.getAdjustedTime + GOVERNANCE_ORPHAN_EXPIRATION_TIME)
  { m with cmmapOrphanVotes := m.cmmapOrphanVotes.insert vote.nParentHash pairVote }

/-- `ProcessVote`: the exception it sets, its result and the manager. -/
def processVote (env : Env) (m : CGovernanceManager) (vote : CGovernanceVote) :
    Option CGovernanceException × Bool × CGovernanceManager :=
  if (m.cmapVoteToObject.lookup vote.getHash).isSome then (none, false, m)
  else if (m.cmapInvalidVotes.lookup vote.getHash).isSome then
    (some ⟨.permanentError, "CGovernanceManager::ProcessVote -- Old invalid vote , MN outpoint = " ++
      toStringShort vote.smartnodeOutpoint ++ ", governance object hash = " ++ hashString vote.nParentHash, 20⟩,
        false, m)
  else
    match m.mapObjects.lookup vote.nParentHash with
    | none =>
        (some ⟨.warning, "CGovernanceManager::ProcessVote -- Unknown parent object " ++ hashString vote.nParentHash ++
          ", MN outpoint = " ++ toStringShort vote.smartnodeOutpoint, 0⟩, false,
          m.addOrphanVote env vote)
    | some govobj =>
        if govobj.fCachedDelete || govobj.fExpired then (none, false, m)
        else
          let r := govobj.processVote env vote
          let m := { m with mapObjects := m.mapObjects.insert vote.nParentHash r.2 }
          match r.1 with
          | some rejection => (some (rejection.exception vote govobj.hash), false, m.addInvalidVote r.1 vote)
          | none =>
              (none, true, { m with
                cmapVoteToObject := cacheInsert m.cmapVoteToObject vote.getHash vote.nParentHash })

/-- The loop of `CheckOrphanVotes`, with the rate checks off. -/
def processOrphans (env : Env) : CGovernanceManager → CGovernanceObject → List (CGovernanceVote × Int) →
    CGovernanceManager × CGovernanceObject
  | m, govobj, [] => (m, govobj)
  | m, govobj, pairVote :: rest =>
      if pairVote.2 < env.getAdjustedTime then
        processOrphans env { m with cmmapOrphanVotes := m.cmmapOrphanVotes.eraseValue govobj.hash pairVote } govobj rest
      else
        let r := govobj.processVote { env with fRateChecksEnabled := false } pairVote.1
        let m := m.addInvalidVote r.1 pairVote.1
        if r.1.isNone then
          processOrphans env { m with cmmapOrphanVotes := m.cmmapOrphanVotes.eraseValue govobj.hash pairVote } r.2 rest
        else processOrphans env m r.2 rest

/-- `AddGovernanceObject`. `UpdateSentinelVariables` changes nothing here on an object without votes. -/
def addGovernanceObject (env : ManagerEnv) (m : CGovernanceManager) (govobj : CGovernanceObject) : CGovernanceManager :=
  if !env.isValidLocally govobj then m
  else if (m.mapObjects.lookup govobj.hash).isSome then m
  else
    let added := { m with mapObjects := m.mapObjects.insert govobj.hash govobj }
    if govobj.nObjectType == GOVERNANCE_OBJECT_TRIGGER && !env.addNewTrigger govobj.hash then
      -- `PrepareDeletion`
      { m with mapObjects := m.mapObjects.insert govobj.hash { govobj with
          fCachedDelete := true
          nDeletionTime := if govobj.nDeletionTime = 0 then env.getAdjustedTime else govobj.nDeletionTime } }
    else (added.processOrphans env.toEnv govobj (m.cmmapOrphanVotes.getAll govobj.hash)).1

/-- The node after a sequence of votes. -/
def deliver (m : CGovernanceManager) (ops : List (Env × CGovernanceVote)) : CGovernanceManager :=
  Simulation.exec (fun m op => (m.processVote op.1 op.2).2.2) m ops

/-! ## Before the object -/

/-- Votes on an unknown object wait. -/
structure Waiting (votes : Set CGovernanceVote) (m : CGovernanceManager) : Prop where
  objects : m.mapObjects = ∅
  index : m.cmapVoteToObject = []
  invalid : m.cmapInvalidVotes = []
  orphans : ∀ item ∈ m.cmmapOrphanVotes, item.2.1 ∈ votes

omit [VoteCrypto] in
theorem mem_pushItem {K V : Type} {items : List (K × V)} {key : K} {value : V} {item : K × V}
    (h : item ∈ pushItem items key value) : item = (key, value) ∨ item ∈ items := by
  rcases List.mem_cons.mp h with rfl | h
  · exact .inl rfl
  · split_ifs at h
    · exact .inr (List.mem_of_mem_dropLast h)
    · exact .inr h

theorem Waiting.deliver {votes : Set CGovernanceVote} {m : CGovernanceManager} {ops : List (Env × CGovernanceVote)}
    (h : Waiting votes m) (hops : ∀ op ∈ ops, op.2 ∈ votes) : Waiting votes (m.deliver ops) := by
  induction ops generalizing m with
  | nil => exact h
  | cons op ops ih =>
      obtain ⟨hop, hops⟩ := List.forall_mem_cons.mp hops
      refine ih ?_ hops
      have hstep : (m.processVote op.1 op.2).2.2 = m.addOrphanVote op.1 op.2 := by
        simp [processVote, h.objects, h.index, h.invalid]
      show Waiting votes (m.processVote op.1 op.2).2.2
      rw [hstep]
      refine ⟨h.objects, h.index, h.invalid, fun item hitem => ?_⟩
      simp only [addOrphanVote, OrphanVotes.insert] at hitem
      split_ifs at hitem
      · exact h.orphans item hitem
      · rcases mem_pushItem hitem with rfl | hitem
        · exact hop
        · exact h.orphans item hitem

/-! ## The object -/

/-- A valid vote is not refused as invalid. -/
theorem processVote_ne_invalid {env : Env} {obj : CGovernanceObject} {vote : CGovernanceVote}
    (h : vote.isValid env (obj.onlyVotingKeyAllowed vote) = true) : (obj.processVote env vote).1 ≠ some .invalid := by
  have hkey : ∀ o s inst, ((obj.emplaceRecord o).setInstance o s inst).onlyVotingKeyAllowed vote =
      obj.onlyVotingKeyAllowed vote := fun _ _ _ => rfl
  unfold CGovernanceObject.processVote
  dsimp only
  split_ifs <;> simp_all

/-- Waiting votes that are valid change neither the stored objects nor the two indexes. -/
theorem processOrphans_fst {env : Env} (m : CGovernanceManager) (govobj : CGovernanceObject)
    (pairs : List (CGovernanceVote × Int)) (hpairs : ∀ pair ∈ pairs,
      pair.1.isValid { env with fRateChecksEnabled := false } (govobj.onlyVotingKeyAllowed pair.1) = true) :
    (m.processOrphans env govobj pairs).1.mapObjects = m.mapObjects ∧
      (m.processOrphans env govobj pairs).1.cmapVoteToObject = m.cmapVoteToObject ∧
      (m.processOrphans env govobj pairs).1.cmapInvalidVotes = m.cmapInvalidVotes := by
  induction pairs generalizing m govobj with
  | nil => exact ⟨rfl, rfl, rfl⟩
  | cons pair pairs ih =>
      obtain ⟨hpair, hpairs⟩ := List.forall_mem_cons.mp hpairs
      have hnext : ∀ other ∈ pairs, other.1.isValid { env with fRateChecksEnabled := false }
          ((govobj.processVote { env with fRateChecksEnabled := false } pair.1).2.onlyVotingKeyAllowed other.1) =
        true := by
        intro other hother
        rw [CGovernanceObject.onlyVotingKeyAllowed, (CGovernanceObject.processVote_frame _ _ _).1]
        exact hpairs other hother
      have hvalid :
          m.addInvalidVote (govobj.processVote { env with fRateChecksEnabled := false } pair.1).1 pair.1 = m :=
        if_neg (processVote_ne_invalid hpair)
      unfold processOrphans
      dsimp only
      rw [hvalid]
      split_ifs
      · exact ih _ govobj hpairs
      · exact ih _ _ hnext
      · exact ih _ _ hnext

/-! ## After the object -/

/-- The stored object has the votes that were delivered after it, and its file is indexed. -/
structure Tracking (hash : UInt256) (nObjectType : Int) (votes : Set CGovernanceVote) (n : Nat)
    (m : CGovernanceManager) :
    Prop where
  object : ∃ obj, m.mapObjects.lookup hash = some obj ∧ obj.Tallied votes ∧ obj.nObjectType = nObjectType ∧
    (obj.fCachedDelete || obj.fExpired) = false ∧
    ∀ v ∈ obj.fileVotes.listVotes, m.cmapVoteToObject.lookup v.getHash = some hash
  invalid : m.cmapInvalidVotes = []
  index : ∀ h, (m.cmapVoteToObject.lookup h).isSome = true → ∃ v ∈ votes, v.getHash = h
  size : m.cmapVoteToObject.length ≤ n

theorem Tracking.processVote {hash : UInt256} {nObjectType : Int} {votes : Set CGovernanceVote} {n : Nat}
    {m : CGovernanceManager} {env : Env} {v : CGovernanceVote} (h : Tracking hash nObjectType votes n m)
    (hn : n < MAX_CACHE_SIZE) (hop : Delivered { hash, nObjectType } (env, v)) (hparent : v.nParentHash = hash)
    (hcf : CollisionFree (insert v votes)) :
    Tracking hash nObjectType (insert v votes) (n + 1) (m.processVote env v).2.2 := by
  obtain ⟨obj, hobj, htally, htype, hflags, hfile⟩ := h.object
  have hindex : ∀ h', (m.cmapVoteToObject.lookup h').isSome = true → ∃ w ∈ insert v votes, w.getHash = h' := by
    intro h' hsome
    obtain ⟨w, hw, hhash⟩ := h.index h' hsome
    exact ⟨w, Set.mem_insert_of_mem _ hw, hhash⟩
  have hsize : m.cmapVoteToObject.length ≤ n + 1 := h.size.trans (Nat.le_succ n)
  unfold CGovernanceManager.processVote
  by_cases hknown : (m.cmapVoteToObject.lookup v.getHash).isSome = true
  · -- a vote with this hash was counted before
    rw [if_pos hknown]
    obtain ⟨w, hw, hhash⟩ := h.index _ hknown
    have hcontent := hcf w (Set.mem_insert_of_mem _ hw) v (Set.mem_insert _ _) hhash
    exact ⟨⟨obj, hobj, htally.twin hw hcontent, htype, hflags, hfile⟩, h.invalid, hindex, hsize⟩
  have hvalid : v.isValid env (obj.onlyVotingKeyAllowed v) = true := by
    rw [CGovernanceObject.onlyVotingKeyAllowed, htype]
    exact hop.valid
  have htally' := @CGovernanceObject.Tallied.processVote _ env obj votes v htally ⟨hop.rate, hvalid⟩ hcf
  have hframe := CGovernanceObject.processVote_frame env obj v
  rw [if_neg hknown, h.invalid, List.lookup_nil, if_neg (by simp), hparent, hobj]
  simp only [hflags, Bool.false_eq_true, if_false]
  cases hr : (obj.processVote env v).1 with
  | some rejection =>
      have hfiles : (obj.processVote env v).2.fileVotes = obj.fileVotes := by
        rcases CGovernanceObject.processVote_cases env obj v with ⟨-, hc⟩ | ⟨-, hc⟩ | ⟨-, r, hc⟩ | ⟨-, -, -, r, hc⟩ |
          ⟨-, hc⟩ <;> rw [hc] at hr ⊢ <;> first | rfl | cases hr
      have hne : rejection ≠ .invalid := fun heq => processVote_ne_invalid hvalid (hr.trans (congrArg some heq))
      rw [addInvalidVote, if_neg (by simpa using hne)]
      refine ⟨⟨_, Finmap.lookup_insert _, htally', hframe.1.trans htype, ?_, ?_⟩, rfl, hindex, hsize⟩
      · rw [hframe.2]
        exact hflags
      · rw [hfiles]
        exact hfile
  | none =>
      have haccept : CGovernanceObject.Accepts env obj v ∧ (obj.processVote env v).2 = obj.accept env v := by
        rcases CGovernanceObject.processVote_cases env obj v with ⟨-, hc⟩ | ⟨-, hc⟩ | ⟨-, r, hc⟩ | ⟨-, -, -, r, hc⟩ |
          ⟨hv, hc⟩ <;> rw [hc] at hr <;> first | exact ⟨hv, by rw [hc]⟩ | cases hr
      have hinsert : cacheInsert m.cmapVoteToObject v.getHash hash = (v.getHash, hash) :: m.cmapVoteToObject := by
        have hne : m.cmapVoteToObject.length ≠ MAX_CACHE_SIZE := by
          have hle := h.size
          omega
        rw [cacheInsert, if_neg hknown, pushItem, if_neg hne]
      dsimp only
      rw [hinsert]
      refine ⟨⟨_, Finmap.lookup_insert _, htally', hframe.1.trans htype, ?_, ?_⟩, rfl, fun h' hsome => ?_, ?_⟩
      · rw [hframe.2]
        exact hflags
      · intro w hw
        rw [haccept.2] at hw
        rw [List.lookup_cons]
        split
        · rfl
        · next hne =>
          rcases (CGovernanceObjectVoteFile.mem_addVote haccept.1.unknown).mp hw with rfl | ⟨hw, -⟩
          · simp at hne
          · exact hfile w hw
      · rw [List.lookup_cons] at hsome
        split at hsome
        · next heq => exact ⟨v, Set.mem_insert _ _, (beq_iff_eq.mp heq).symm⟩
        · exact hindex h' hsome
      · simp only [List.length_cons]
        have hle := h.size
        omega

theorem Tracking.deliver {hash : UInt256} {nObjectType : Int} {votes : Set CGovernanceVote} {n : Nat}
    {m : CGovernanceManager} {ops : List (Env × CGovernanceVote)} (h : Tracking hash nObjectType votes n m)
    (hn : n + ops.length ≤ MAX_CACHE_SIZE)
    (hops : ∀ op ∈ ops, Delivered { hash, nObjectType } op ∧ op.2.nParentHash = hash)
    (hcf : CollisionFree (votes ∪ CGovernanceObject.votesOf ops)) :
    Tracking hash nObjectType (votes ∪ CGovernanceObject.votesOf ops) (n + ops.length) (m.deliver ops) := by
  induction ops generalizing votes n m with
  | nil =>
      rw [CGovernanceObject.union_votesOf_nil]
      exact h
  | cons op ops ih =>
      obtain ⟨hop, hops⟩ := List.forall_mem_cons.mp hops
      rw [CGovernanceObject.union_votesOf_cons] at hcf ⊢
      rw [List.length_cons] at hn ⊢
      have hstep := h.processVote (by omega) hop.1 hop.2 (fun a ha b hb => hcf a (.inl ha) b (.inl hb))
      have hrest := ih hstep (by omega) hops hcf
      rw [Nat.add_assoc, Nat.add_comm 1] at hrest
      exact hrest

/-! ## The order of object and votes -/

/-- The node after some votes, the object and more votes. -/
def deliverAll (env : ManagerEnv) (govobj : CGovernanceObject) (before after : List (Env × CGovernanceVote)) :
    CGovernanceManager :=
  (addGovernanceObject env (deliver {} before) govobj).deliver after

/-- The stored object has the latest of the votes of every smartnode and signal, found by its hash, and all its votes
are found. -/
def Settled (hash : UInt256) (votes : Set CGovernanceVote) (m : CGovernanceManager) : Prop :=
  ∃ obj, m.mapObjects.lookup hash = some obj ∧
    (∀ o s, ∀ v ∈ votes, v.InSlot o s → 0 ≤ v.nTime → (∀ w ∈ votes, w.InSlot o s → w.stamp ≤ v.stamp) →
      obj.voteInstance? o s = some ⟨v.getOutcome, 0, v.nTime⟩ ∧ m.haveVoteForHash v.getHash = true) ∧
    ∀ h, obj.fileVotes.hasVote h = true → m.haveVoteForHash h = true

/-- An object without votes that is valid and, if it is a trigger, accepted. -/
structure Acceptable (env : ManagerEnv) (hash : UInt256) (nObjectType : Int) : Prop where
  valid : env.isValidLocally { hash, nObjectType } = true
  trigger : (nObjectType == GOVERNANCE_OBJECT_TRIGGER && !env.addNewTrigger hash) = false

section

variable {env : ManagerEnv} {hash : UInt256} {nObjectType : Int} {before after : List (Env × CGovernanceVote)}

/-- The stored object has the votes delivered after it. -/
theorem tracking_deliverAll (henv : Acceptable env hash nObjectType)
    (hbefore : ∀ op ∈ before, op.2.isValid { env.toEnv with fRateChecksEnabled := false }
      (CGovernanceObject.onlyVotingKeyAllowed { hash, nObjectType } op.2) = true)
    (hafter : ∀ op ∈ after, Delivered { hash, nObjectType } op ∧ op.2.nParentHash = hash)
    (hsize : after.length ≤ MAX_CACHE_SIZE) (hcf : CollisionFree (CGovernanceObject.votesOf after)) :
    Tracking hash nObjectType (CGovernanceObject.votesOf after) after.length
      (deliverAll env { hash, nObjectType } before after) := by
  have hwaiting : Waiting (CGovernanceObject.votesOf before) (deliver {} before) :=
    Waiting.deliver ⟨rfl, rfl, rfl, fun _ h => absurd h List.not_mem_nil⟩ fun op hop => ⟨op, hop, rfl⟩
  have hadded : Tracking hash nObjectType ∅ 0 (addGovernanceObject env (deliver {} before) { hash, nObjectType }) := by
    unfold addGovernanceObject
    rw [henv.valid, hwaiting.objects]
    simp only [Bool.not_true, Bool.false_eq_true, if_false, Finmap.lookup_empty, Option.isSome_none, henv.trigger]
    obtain ⟨hobjects, hindex, hinvalid⟩ := @processOrphans_fst _ env.toEnv
      { deliver {} before with mapObjects := Finmap.insert hash { hash, nObjectType } ∅ } { hash, nObjectType }
      ((deliver {} before).cmmapOrphanVotes.getAll hash) (by
        intro pair hpair
        obtain ⟨item, hitem, rfl⟩ := List.mem_map.mp ((List.perm_insertionSort _ _).mem_iff.mp hpair)
        obtain ⟨op, hop, heq⟩ := hwaiting.orphans item (List.mem_of_mem_filter hitem)
        exact heq ▸ hbefore op hop)
    refine ⟨⟨{ hash, nObjectType }, ?_, CGovernanceObject.Tallied.fresh hash nObjectType, rfl, rfl,
      fun v hv => absurd hv List.not_mem_nil⟩, ?_, fun h hsome => ?_, ?_⟩
    · rw [hobjects]
      exact Finmap.lookup_insert _
    · exact hinvalid.trans hwaiting.invalid
    · rw [hindex, hwaiting.index] at hsome
      cases hsome
    · rw [hindex, hwaiting.index]
      exact Nat.le_refl 0
  have h := hadded.deliver (by omega) hafter (by rwa [Set.empty_union])
  rwa [Set.empty_union, Nat.zero_add] at h

/-- **Votes may arrive before their object if and only if** every such vote that counts is delivered again, or a greater
one of its smartnode and signal is, after the object. -/
theorem settled_deliverAll_iff (henv : Acceptable env hash nObjectType)
    (hbefore : ∀ op ∈ before, op.2.isValid { env.toEnv with fRateChecksEnabled := false }
      (CGovernanceObject.onlyVotingKeyAllowed { hash, nObjectType } op.2) = true ∧ op.2.nParentHash = hash)
    (hafter : ∀ op ∈ after, Delivered { hash, nObjectType } op ∧ op.2.nParentHash = hash)
    (hsize : before.length + after.length ≤ MAX_CACHE_SIZE)
    (hcf : CollisionFree (CGovernanceObject.votesOf (before ++ after))) :
    Settled hash (CGovernanceObject.votesOf (before ++ after)) (deliverAll env { hash, nObjectType } before after) ↔
      ∀ op ∈ before, Supported op.2.getSignal → 0 ≤ op.2.nTime →
        ∃ op' ∈ after, op'.2.InSlot op.2.smartnodeOutpoint op.2.getSignal ∧ op.2.stamp ≤ op'.2.stamp := by
  have hsub : CGovernanceObject.votesOf after ⊆ CGovernanceObject.votesOf (before ++ after) :=
    fun v ⟨op, hop, hv⟩ => ⟨op, List.mem_append_right _ hop, hv⟩
  have htrack := tracking_deliverAll henv (fun op hop => (hbefore op hop).1) hafter (by omega)
    (fun v hv w hw => hcf v (hsub hv) w (hsub hw))
  obtain ⟨obj, hobj, htally, -, -, hfile⟩ := htrack.object
  have hparent : ∀ v ∈ CGovernanceObject.votesOf (before ++ after), v.nParentHash = hash := by
    rintro v ⟨op, hop, rfl⟩
    rcases List.mem_append.mp hop with hop | hop
    · exact (hbefore op hop).2
    · exact (hafter op hop).2
  have hfound : ∀ h, obj.fileVotes.hasVote h = true →
      (deliverAll env { hash, nObjectType } before after).haveVoteForHash h = true := by
    intro h hvote
    obtain ⟨v, hv, rfl⟩ := htally.indexed.hasVote_iff.mp hvote
    rw [haveVoteForHash, hfile v hv, Option.bind_some, hobj]
    exact hvote
  constructor
  · rintro ⟨_, -, hlatest, -⟩ op hop hsupported htime
    -- the greatest vote of the slot is found, so it was delivered after the object
    classical
    obtain ⟨g, hg, hmax⟩ := Finset.exists_max_image
      (((before ++ after).map Prod.snd).toFinset.filter fun v =>
        v.InSlot op.2.smartnodeOutpoint op.2.getSignal) CGovernanceVote.stamp
      ⟨op.2, by simpa using ⟨.inl ⟨op.1, hop⟩, ⟨rfl, rfl, hsupported⟩⟩⟩
    have hmem : ∀ v, v ∈ ((before ++ after).map Prod.snd).toFinset ↔
        v ∈ CGovernanceObject.votesOf (before ++ after) := by
      intro v
      rw [List.mem_toFinset, List.mem_map]
      rfl
    obtain ⟨hg, hgslot⟩ := Finset.mem_filter.mp hg
    have hgreatest : ∀ w ∈ CGovernanceObject.votesOf (before ++ after),
        w.InSlot op.2.smartnodeOutpoint op.2.getSignal → w.stamp ≤ g.stamp :=
      fun w hw hwslot => hmax w (Finset.mem_filter.mpr ⟨(hmem w).mpr hw, hwslot⟩)
    have hle := hgreatest op.2 ⟨op, List.mem_append_left _ hop, rfl⟩ ⟨rfl, rfl, hsupported⟩
    have hgtime := stamp_default_le_iff.mp ((stamp_default_le_iff.mpr htime).trans hle)
    obtain ⟨-, hhave⟩ := hlatest _ _ g ((hmem g).mp hg) hgslot hgtime hgreatest
    have hsome : ((deliverAll env { hash, nObjectType } before after).cmapVoteToObject.lookup g.getHash).isSome := by
      unfold haveVoteForHash at hhave
      cases hl : (deliverAll env { hash, nObjectType } before after).cmapVoteToObject.lookup g.getHash with
      | none => simp [hl] at hhave
      | some _ => rfl
    obtain ⟨w, hw, hhash⟩ := htrack.index _ hsome
    have hcontent := hcf w (hsub hw) g ((hmem g).mp hg) hhash
    obtain ⟨op', hop', rfl⟩ := hw
    refine ⟨op', hop', hgslot.of_content hcontent, hle.trans (CGovernanceVote.stamp_of_content hcontent).ge⟩
  · intro hagain
    refine ⟨obj, hobj, fun o s v hv hslot htime hmax => ?_, hfound⟩
    -- a vote with the content of the greatest was delivered after the object
    obtain ⟨w, hw, hcontent⟩ : ∃ w ∈ CGovernanceObject.votesOf after, w.toVoteContent = v.toVoteContent := by
      obtain ⟨op, hop, rfl⟩ := hv
      rcases List.mem_append.mp hop with hop | hop
      · obtain ⟨rfl, rfl, hsupported⟩ := hslot
        obtain ⟨op', hop', hslot', hle⟩ := hagain op hop hsupported htime
        have hle' := hmax op'.2 (hsub ⟨op', hop', rfl⟩) hslot'
        exact ⟨op'.2, ⟨op', hop', rfl⟩, CGovernanceVote.content_eq hslot'.outpoint hslot'.signal
          ((hafter op' hop').2.trans (hbefore op hop).2.symm) (le_antisymm hle' hle)⟩
      · exact ⟨op.2, ⟨op, hop, rfl⟩, rfl⟩
    have hwslot := hslot.of_content hcontent
    have hwtime : 0 ≤ w.nTime := (congrArg VoteContent.nTime hcontent).symm ▸ htime
    have hinst := htally.voteInstance?_eq hw hwslot hwtime fun u hu huslot =>
      (hmax u (hsub hu) huslot).trans (CGovernanceVote.stamp_of_content hcontent).ge
    obtain ⟨u, hu, huslot, hustamp⟩ := htally.filed o s w hw hwslot hwtime
    rw [CGovernanceObject.voteInstance, hinst] at hustamp
    have hucontent : u.toVoteContent = w.toVoteContent :=
      CGovernanceVote.content_eq (huslot.outpoint.trans hwslot.outpoint.symm) (huslot.signal.trans hwslot.signal.symm)
        ((hparent u (hsub (htally.seen u hu))).trans (hparent w (hsub hw)).symm) hustamp
    constructor
    · rw [hinst, CGovernanceVote.getOutcome, CGovernanceVote.getOutcome, hcontent]
    · refine hfound _ (htally.indexed.hasVote_iff.mpr ⟨u, hu, ?_⟩)
      exact congrArg VoteCrypto.hash (hucontent.trans hcontent)

end

end CGovernanceManager

/-! ## Samples -/

omit [VoteCrypto]

/-- A node that accepts every object. -/
def acceptingNode : ManagerEnv := ⟨listed, fun _ => true, fun _ => true⟩

theorem settled_deliverAll_superseded :
    @CGovernanceManager.Settled contentHash 1
      (CGovernanceObject.votesOf ([(listed, fundingVote 1 5)] ++ [(listed, fundingVote 2 6)]))
      (@CGovernanceManager.deliverAll contentHash acceptingNode { hash := 1, nObjectType := 2 }
        [(listed, fundingVote 1 5)] [(listed, fundingVote 2 6)]) := by
  refine (@CGovernanceManager.settled_deliverAll_iff contentHash acceptingNode 1 2 _ _ ⟨rfl, by decide⟩ ?_ ?_
    (by decide +kernel) ?_).mpr ?_
  · simp only [List.forall_mem_singleton]
    exact ⟨by decide +kernel, rfl⟩
  · simp only [List.forall_mem_singleton]
    exact ⟨@Delivered.mk contentHash _ _ rfl (by decide +kernel), rfl⟩
  · rintro v ⟨op, hop, rfl⟩ w ⟨op', hop', rfl⟩
    have hall : ∀ v ∈ [fundingVote 1 5, fundingVote 2 6], ∀ w ∈ [fundingVote 1 5, fundingVote 2 6],
        @CGovernanceVote.getHash contentHash v = @CGovernanceVote.getHash contentHash w →
          v.toVoteContent = w.toVoteContent := by decide +kernel
    exact hall op.2 (List.mem_map_of_mem (f := Prod.snd) hop) op'.2 (List.mem_map_of_mem (f := Prod.snd) hop')
  · simp only [List.mem_singleton]
    rintro op rfl _ _
    refine ⟨_, rfl, ⟨rfl, rfl, by decide⟩, ?_⟩
    rw [CGovernanceVote.stamp, CGovernanceVote.stamp, Prod.Lex.toLex_le_toLex]
    exact .inl (by decide)

/-- The only vote on an object arrives before it. The stored object never gets it. -/
theorem orphan_vote_lost : ¬ @CGovernanceManager.Settled contentHash 1 {fundingVote 1 5}
    (@CGovernanceManager.deliverAll contentHash acceptingNode { hash := 1, nObjectType := 2 }
      [(listed, fundingVote 1 5)] []) := by
  rintro ⟨obj, hobj, hlatest, -⟩
  have hnone : ((@CGovernanceManager.deliverAll contentHash acceptingNode { hash := 1, nObjectType := 2 }
      [(listed, fundingVote 1 5)] []).mapObjects.lookup 1).map (fun obj => obj.voteInstance? ⟨1, 0⟩ 1) = some none := by
    decide +kernel
  rw [hobj, Option.map_some] at hnone
  have hvote := (hlatest ⟨1, 0⟩ 1 (fundingVote 1 5) rfl ⟨rfl, rfl, by decide⟩ (by decide)
    fun w hw _ => le_of_eq (congrArg _ hw)).1
  rw [Option.some.inj hnone] at hvote
  cases hvote

end RavenCash.Governance
