import RavenCash.Dkg.Session

/-!
# What a session keeps

After the contributions no vector is received any more, no mark is taken back, and no empty vector gets into the
database or the caches (`Later`). That is a preorder; a message or an act of the node is a chain of changes each of
which is in it. The last part says which messages are read within bounds.
-/

set_option autoImplicit false

namespace RavenCash.Evo.Llmq

/-! ## Later states -/

/-- No contribution is added, and a mark is not taken back. -/
structure CDKGMember.Later (m m' : CDKGMember) : Prop where
  contributions : m'.contributions = m.contributions
  receivedVvec : m'.receivedVvec = m.receivedVvec
  bad : m.bad = true → m'.bad = true

/-- No stored vector is empty. -/
structure DkgDb.VvecsNonempty (db : DkgDb) : Prop where
  vvecs : ∀ proTxHash vvec, db.vvecs.lookup proTxHash = some vvec → vvec ≠ []
  contributionsCache : ∀ proTxHash entry, db.contributionsCache.lookup proTxHash = some entry → entry.1 ≠ some []

namespace CDKGSession

variable {n : Nat} {s s' s'' : CDKGSession n}

structure VvecsNonempty (s : CDKGSession n) : Prop where
  db : s.db.VvecsNonempty
  vvecCache : ∀ memberIndexes vvec, s.vvecCache.lookup memberIndexes = some (some vvec) → vvec ≠ []

/-- **A later state** of the session. -/
structure Later (s s' : CDKGSession n) : Prop where
  members : ∀ i, (s.members i).Later (s'.members i)
  nonempty : s.VvecsNonempty → s'.VvecsNonempty

theorem Later.refl (s : CDKGSession n) : s.Later s := ⟨fun _ => ⟨rfl, rfl, id⟩, id⟩

theorem Later.trans (h : s.Later s') (h' : s'.Later s'') : s.Later s'' := by
  refine ⟨fun i => ⟨?_, ?_, fun hbad => (h'.members i).bad ((h.members i).bad hbad)⟩, h'.nonempty ∘ h.nonempty⟩
  · exact (h'.members i).contributions.trans (h.members i).contributions
  · exact (h'.members i).receivedVvec.trans (h.members i).receivedVvec

/-- Steps that store no vector. -/
theorem later_of_members (hmembers : ∀ i, (s.members i).Later (s'.members i)) (hvvecs : s'.db.vvecs = s.db.vvecs)
    (hcontributions : s'.db.contributionsCache = s.db.contributionsCache) (hcache : s'.vvecCache = s.vvecCache) :
    s.Later s' := by
  refine ⟨hmembers, fun h => ⟨⟨?_, ?_⟩, ?_⟩⟩
  · rw [hvvecs]
    exact h.db.vvecs
  · rw [hcontributions]
    exact h.db.contributionsCache
  · rw [hcache]
    exact h.vvecCache

/-- Steps on other fields. -/
theorem later_of_fields (hmembers : s'.members = s.members) (hdb : s'.db = s.db) (hcache : s'.vvecCache = s.vvecCache) :
    s.Later s' := by
  refine later_of_members (fun i => ?_) (by rw [hdb]) (by rw [hdb]) hcache
  rw [hmembers]
  exact ⟨rfl, rfl, id⟩

@[simp] theorem members_modifyMember (s : CDKGSession n) (i j : Fin n) (f : CDKGMember → CDKGMember) :
    (s.modifyMember i f).members j = if j = i then f (s.members j) else s.members j := by
  show Function.update s.members i (f (s.members i)) j = _
  rw [Function.update_apply]
  split_ifs with h
  · rw [h]
  · rfl

theorem later_modifyMember {f : CDKGMember → CDKGMember} (hf : ∀ m : CDKGMember, m.Later (f m))
    (s : CDKGSession n) (i : Fin n) :
    s.Later (s.modifyMember i f) := by
  refine later_of_members (fun j => ?_) rfl rfl rfl
  rw [members_modifyMember]
  split_ifs
  · exact hf _
  · exact ⟨rfl, rfl, id⟩

theorem later_markBadMember (s : CDKGSession n) (i : Fin n) : s.Later (s.markBadMember i) := by
  apply later_modifyMember
  exact fun _ => ⟨rfl, rfl, fun _ => rfl⟩

theorem later_markBadMembers (s : CDKGSession n) (found : Fin n → Bool) : s.Later (s.markBadMembers found) :=
  later_of_members (fun _ => ⟨rfl, rfl, fun hbad => (Bool.or_eq_true _ _).mpr (.inl hbad)⟩) rfl rfl rfl

theorem later_foldl {α : Type} {f : CDKGSession n → α → CDKGSession n}
    (hf : ∀ (s : CDKGSession n) (a : α), s.Later (f s a)) (l : List α)
    (s : CDKGSession n) : s.Later (l.foldl f s) := by
  induction l generalizing s with
  | nil => exact Later.refl s
  | cons a l ih => exact (hf s a).trans (ih _)

end CDKGSession

open CDKGSession

/-! ## Stored vectors -/

namespace DkgDb

variable {db db' : DkgDb} {validMembers : List Bool} {i : Nat} {l : List CDeterministicMN}

theorem VvecsNonempty.getVerifiedContribution (h : db.VvecsNonempty) (proTxHash : UInt256) :
    (db.getVerifiedContribution proTxHash).1.1 ≠ some [] ∧ (db.getVerifiedContribution proTxHash).2.VvecsNonempty := by
  unfold DkgDb.getVerifiedContribution
  split
  · rename_i entry hentry
    exact ⟨h.contributionsCache proTxHash entry hentry, h⟩
  · have hnew : db.vvecs.lookup proTxHash ≠ some [] := fun hnil => h.vvecs proTxHash [] hnil rfl
    refine ⟨hnew, h.vvecs, fun proTxHash' entry hentry => ?_⟩
    rcases FiniteMap.lookup_insert_imp hentry with ⟨-, rfl⟩ | hold
    · exact hnew
    · exact h.contributionsCache proTxHash' entry hold

theorem VvecsNonempty.getVerifiedContributions {entries : List (Nat × Option BLSVerificationVector × CBLSSecretKey)}
    (h : db.VvecsNonempty) (hrun : DkgDb.getVerifiedContributions validMembers i l db = some (entries, db')) :
    db'.VvecsNonempty ∧ ∀ e ∈ entries, e.2.1 ≠ some [] := by
  induction l generalizing i db db' entries with
  | nil =>
    cases hrun
    exact ⟨h, fun e he => absurd he List.not_mem_nil⟩
  | cons dmn rest ih =>
    unfold DkgDb.getVerifiedContributions at hrun
    split at hrun
    · cases hrun
    · exact ih h hrun
    · obtain ⟨hnew, hdb⟩ := h.getVerifiedContribution dmn.proTxHash
      obtain ⟨⟨entries', db₁⟩, hrest, heq⟩ := Option.map_eq_some_iff.mp hrun
      obtain ⟨rfl, rfl⟩ := Prod.mk.inj heq
      obtain ⟨hdb', hentries⟩ := ih hdb hrest
      exact ⟨hdb', List.forall_mem_cons.mpr ⟨hnew, hentries⟩⟩

/-- A bit is read for every member of now. -/
theorem isSome_getVerifiedContributions (hi : i ≤ validMembers.length) :
    (getVerifiedContributions validMembers i l db).isSome = true ↔ i + l.length ≤ validMembers.length := by
  induction l generalizing i db with
  | nil => exact iff_of_true rfl hi
  | cons dmn rest ih =>
    rw [List.length_cons]
    unfold getVerifiedContributions
    rcases hi.lt_or_eq with hlt | rfl
    · have hrest : ∀ db, (getVerifiedContributions validMembers (i + 1) rest db).isSome = true ↔
          i + 1 + rest.length ≤ validMembers.length := fun _ => ih hlt
      rw [List.getElem?_eq_getElem hlt]
      cases validMembers[i] with
      | false => rw [hrest]; omega
      | true => rw [Option.isSome_map, hrest]; omega
    · rw [List.getElem?_eq_none le_rfl]
      exact iff_of_false nofun (by omega)

end DkgDb

section

variable [EvoCrypto] [DkgCrypto]

theorem buildQuorumVerificationVector_ne_nil {vvecs : List (Option BLSVerificationVector)}
    {vvec : BLSVerificationVector}
    (hvvecs : ∀ v ∈ vvecs, v ≠ some []) (h : buildQuorumVerificationVector vvecs = some vvec) : vvec ≠ [] := by
  unfold buildQuorumVerificationVector at h
  dsimp only at h
  split_ifs at h with hbad
  rw [Bool.or_eq_true, not_or, Bool.not_eq_true', Bool.not_eq_false, List.isEmpty_iff] at hbad
  obtain ⟨hne, hverify⟩ := hbad
  obtain ⟨v, rest, rfl⟩ := List.exists_cons_of_ne_nil hne
  unfold verifyVerificationVectors at hverify
  have hall := (Bool.and_eq_true _ _ ▸ hverify).1
  rcases v with _ | v
  · exact absurd (List.all_eq_true.mp hall none List.mem_cons_self) Bool.false_ne_true
  · have hv : v ≠ [] := fun hnil => hvvecs (some v) List.mem_cons_self (congrArg some hnil)
    obtain rfl := Option.some.inj h
    rw [ne_eq, List.map_eq_nil_iff, List.range_eq_nil]
    exact fun hzero => hv (List.length_eq_zero_iff.mp hzero)

namespace DkgNode

variable {node : DkgNode} {s s' : CDKGSession node.n} {validMembers : List Bool}

/-- **The vector of the quorum** is not empty. -/
theorem later_quorumVvec {vvec : Option BLSVerificationVector}
    {entries : List (Nat × Option BLSVerificationVector × CBLSSecretKey)}
    (h : node.quorumVvec s validMembers = some (vvec, entries, s')) :
    s.Later s' ∧ (s.VvecsNonempty → vvec ≠ some []) := by
  obtain ⟨⟨entries', db'⟩, hget, h⟩ := Option.bind_eq_some_iff.mp h
  dsimp only at h
  rcases hcache : s.vvecCache.lookup (entries'.map Prod.fst) with _ | cached
  · rw [hcache] at h
    obtain ⟨rfl, -, rfl⟩ := h
    have hnew (hs : s.VvecsNonempty) : buildQuorumVerificationVector (entries.map fun e => e.2.1) ≠ some [] := by
      intro hnil
      refine buildQuorumVerificationVector_ne_nil (fun v hv => ?_) hnil rfl
      obtain ⟨e, he, rfl⟩ := List.mem_map.mp hv
      exact (hs.db.getVerifiedContributions hget).2 e he
    refine ⟨⟨fun _ => ⟨rfl, rfl, id⟩, fun hs => ⟨(hs.db.getVerifiedContributions hget).1, ?_⟩⟩, hnew⟩
    intro memberIndexes vvec hlookup
    rcases FiniteMap.lookup_insert_imp hlookup with ⟨-, hvvec⟩ | hold
    · exact fun hnil => hnew hs (hvvec.symm.trans (congrArg some hnil))
    · exact hs.vvecCache memberIndexes vvec hold
  · rw [hcache] at h
    obtain ⟨rfl, -, rfl⟩ := h
    refine ⟨⟨fun _ => ⟨rfl, rfl, id⟩, fun hs => ⟨(hs.db.getVerifiedContributions hget).1, hs.vvecCache⟩⟩, ?_⟩
    exact fun hs hnil => hs.vvecCache _ [] (hnil ▸ hcache) rfl

theorem isSome_quorumVvec : (node.quorumVvec s validMembers).isSome = true ↔
    node.quorum.getAllQuorumMembers.length ≤ validMembers.length := by
  have hread : (DkgDb.getVerifiedContributions validMembers 0 node.quorum.getAllQuorumMembers s.db).isSome = true ↔ _ :=
    DkgDb.isSome_getVerifiedContributions (Nat.zero_le _)
  rw [Nat.zero_add] at hread
  rw [← hread]
  unfold quorumVvec
  rcases DkgDb.getVerifiedContributions validMembers 0 node.quorum.getAllQuorumMembers s.db with _ | ⟨entries, db⟩
  · rfl
  · dsimp only [Option.bind_eq_bind, Option.bind_some]
    split <;> exact iff_of_true rfl rfl

end DkgNode

end

/-! ## Contributions -/

namespace DkgNode

variable {node : DkgNode}

theorem later_finishVerification (s : CDKGSession node.n) (p : Fin node.n × Bool) :
    s.Later (node.finishVerification s p) := by
  unfold finishVerification
  split_ifs
  · exact later_of_members (fun _ => ⟨rfl, rfl, id⟩) rfl rfl rfl
  · apply later_modifyMember
    exact fun _ => ⟨rfl, rfl, id⟩

variable [DkgCrypto] {s s' : CDKGSession node.n} {i : Fin node.n}

theorem later_verifyPendingContributions (s : CDKGSession node.n) : s.Later (node.verifyPendingContributions s) := by
  have hclear : s.Later { s with pendingContributionVerifications := [] } := later_of_fields rfl rfl rfl
  unfold verifyPendingContributions
  dsimp only
  split
  · exact hclear
  · split_ifs
    · exact hclear
    · exact hclear
    · exact hclear.trans (later_foldl later_finishVerification _ _)

theorem later_receiveShare (s : CDKGSession node.n) (i : Fin node.n) (qc : CDKGContribution) (myIdx : Fin node.n) :
    Later { s with db := s.db.writeVerifiedVvecContribution qc.proTxHash qc.vvec }
      (node.receiveShare s i qc myIdx) := by
  unfold receiveShare
  dsimp only
  split
  · apply later_modifyMember
    exact fun _ => ⟨rfl, rfl, id⟩
  · rename_i skContribution _
    have hadd : Later { s with db := s.db.writeVerifiedVvecContribution qc.proTxHash qc.vvec }
        { modifyMember { s with db := s.db.writeVerifiedVvecContribution qc.proTxHash qc.vvec } i
            (fun m => { m with receivedSkContribution := skContribution }) with
          pendingContributionVerifications := s.pendingContributionVerifications ++ [i] } := by
      refine later_of_members (fun j => ?_) rfl rfl rfl
      rw [members_modifyMember]
      split_ifs <;> exact ⟨rfl, rfl, id⟩
    split_ifs
    · exact hadd.trans (later_verifyPendingContributions _)
    · exact hadd

/-- Of every member that has contributed there is a vector. -/
def VvecsReceived (s : CDKGSession node.n) : Prop :=
  ∀ i, (s.members i).contributions ≠ ∅ → (s.members i).receivedVvec.isSome = true

omit [DkgCrypto] in
theorem VvecsReceived.later (h : VvecsReceived s) (hlater : s.Later s') : VvecsReceived s' := by
  intro i hne
  rw [(hlater.members i).contributions] at hne
  rw [(hlater.members i).receivedVvec]
  exact h i hne

variable (node) in
/-- **A contribution** with a vector that is not empty. -/
theorem addContribution_spec {qc : CDKGContribution} (hvvec : qc.vvec ≠ []) (hreceived : VvecsReceived s)
    (hnonempty : s.VvecsNonempty) :
    VvecsReceived (node.addContribution s i qc) ∧ (node.addContribution s i qc).VvecsNonempty := by
  unfold addContribution
  split_ifs with hfull
  · exact ⟨hreceived, hnonempty⟩
  dsimp only
  rw [members_modifyMember, if_pos rfl]
  split_ifs with hmany
  · -- the second one: there is a first one, and with it the vector
    refine ⟨VvecsReceived.later (fun j hne => ?_) (later_markBadMember _ i),
      (later_markBadMember _ i).nonempty ⟨hnonempty.db, hnonempty.vvecCache⟩⟩
    rw [members_modifyMember] at hne ⊢
    split_ifs at hne ⊢ with hj
    · refine hreceived j fun hnone => ?_
      rw [← hj, hnone] at hmany
      simp at hmany
    · exact hreceived j hne
  · generalize hs₁ : (modifyMember (modifyMember s i fun m =>
      { m with contributions := insert (DkgCrypto.hashContribution qc) m.contributions }) i fun m =>
        { m with receivedVvec := some qc.vvec }) = s₁
    have hreceived₁ : VvecsReceived s₁ := by
      intro j hne
      rw [← hs₁, members_modifyMember, members_modifyMember] at hne ⊢
      split_ifs at hne ⊢
      · rfl
      · exact hreceived j hne
    have hnonempty₁ : s₁.VvecsNonempty := by
      rw [← hs₁]
      exact ⟨hnonempty.db, hnonempty.vvecCache⟩
    cases node.myIdx with
    | none => exact ⟨hreceived₁, hnonempty₁⟩
    | some myIdx =>
      have hlater := later_receiveShare s₁ i qc myIdx
      have hwritten : VvecsReceived { s₁ with db := s₁.db.writeVerifiedVvecContribution qc.proTxHash qc.vvec } :=
        hreceived₁
      refine ⟨hwritten.later hlater, hlater.nonempty ⟨⟨?_, ?_⟩, ?_⟩⟩
      · intro proTxHash vvec hlookup
        rcases FiniteMap.lookup_insert_imp hlookup with ⟨-, rfl⟩ | hold
        · exact hvvec
        · exact hnonempty₁.db.vvecs proTxHash vvec hold
      · exact hnonempty₁.db.contributionsCache
      · exact hnonempty₁.vvecCache

/-! ## Complaints -/

variable (node) in
theorem later_addComplaint {qc : CDKGComplaint} (h : node.addComplaint s i qc = some s') : s.Later s' := by
  have hadd : s.Later (modifyMember { s with complaints := s.complaints.emplace (DkgCrypto.hashComplaint qc) qc } i
      fun m => { m with complaints := insert (DkgCrypto.hashComplaint qc) m.complaints }) := by
    refine Later.trans ?_ (later_modifyMember (fun _ => ?_) _ i)
    · exact later_of_fields rfl rfl rfl
    · exact ⟨rfl, rfl, id⟩
  unfold addComplaint at h
  dsimp only at h
  split_ifs at h <;> cases h
  · exact Later.refl s
  · exact hadd.trans (later_markBadMember _ i)
  · exact hadd.trans (later_of_members (fun _ => ⟨rfl, rfl, id⟩) rfl rfl rfl)

variable (node) in
/-- When a complaint is read within bounds. -/
theorem isSome_addComplaint {qc : CDKGComplaint} : (node.addComplaint s i qc).isSome = true ↔
    1 < (insert (DkgCrypto.hashComplaint qc) (s.members i).complaints).card ∨
      node.n ≤ qc.badMembers.length ∧ node.n ≤ qc.complainForMembers.length := by
  have hgrow := Finset.card_le_card (Finset.subset_insert (DkgCrypto.hashComplaint qc) (s.members i).complaints)
  unfold addComplaint
  dsimp only
  rw [members_modifyMember, if_pos rfl]
  split_ifs with hfull hmany hbits
  · exact iff_of_true rfl (.inl (by omega))
  · exact iff_of_true rfl (.inl hmany)
  · exact iff_of_true rfl (.inr hbits)
  · exact iff_of_false nofun (not_or.mpr ⟨hmany, hbits⟩)

end DkgNode

/-! ## Justifications -/

theorem exists_mapM_of_isSome {α β : Type} {f : α → Option β} {l : List α}
    (h : ∀ a ∈ l, (f a).isSome = true) : ∃ rs, l.mapM f = some rs := by
  induction l with
  | nil => exact ⟨[], rfl⟩
  | cons a l ih =>
    obtain ⟨b, hb⟩ := Option.isSome_iff_exists.mp (h a List.mem_cons_self)
    obtain ⟨rs, hrs⟩ := ih fun a' ha' => h a' (List.mem_cons_of_mem a ha')
    exact ⟨b :: rs, by rw [List.mapM_cons, hb, hrs]; rfl⟩

namespace DkgNode

variable [EvoCrypto] [DkgCrypto] {node : DkgNode} {s s' : CDKGSession node.n} {i : Fin node.n} {qj : CDKGJustification}

omit [EvoCrypto] [DkgCrypto] in
theorem later_justify (i : Fin node.n) (s : CDKGSession node.n) (p : (Fin node.n × CBLSSecretKey) × Bool) :
    s.Later (node.justify i s p) := by
  have htake : s.Later (node.takeShare i s (node.quorum.proTxHash p.1.1) p.1.2) := by
    unfold takeShare
    split_ifs
    · refine later_of_members (fun j => ?_) rfl rfl rfl
      rw [members_modifyMember]
      split_ifs <;> exact ⟨rfl, rfl, id⟩
    · exact Later.refl s
  unfold justify
  split_ifs
  · refine htake.trans (later_modifyMember ?_ _ i)
    exact fun _ => ⟨rfl, rfl, id⟩
  · exact later_markBadMember s i

variable (node) in
theorem later_addJustification (h : node.addJustification s i qj = some s') : s.Later s' := by
  have hadd : s.Later (s.modifyMember i fun m =>
      { m with justifications := insert (DkgCrypto.hashJustification qj) m.justifications }) := by
    apply later_modifyMember
    exact fun _ => ⟨rfl, rfl, id⟩
  unfold addJustification at h
  dsimp only at h
  split_ifs at h
  · cases h
    exact Later.refl s
  · cases h
    exact hadd.trans (later_markBadMember _ i)
  · cases h
    exact hadd
  · unfold verifyJustification at h
    split at h
    · cases h
    · split_ifs at h
      · cases h
        exact hadd.trans (later_markBadMember _ i)
      · obtain ⟨futures, -, rfl⟩ := Option.map_eq_some_iff.mp h
        exact hadd.trans (later_foldl (later_justify i) _ _)

theorem isSome_mapM_verify {l : List (Fin node.n × CBLSSecretKey)} (hne : l ≠ [])
    (vvec : Option BLSVerificationVector) :
    (l.mapM fun p => verifyContributionShare (node.quorum.proTxHash p.1) vvec p.2).isSome = vvec.isSome := by
  cases vvec with
  | none =>
    obtain ⟨p, rest, rfl⟩ := List.exists_cons_of_ne_nil hne
    rw [List.mapM_cons]
    rfl
  | some vvec =>
    rw [Option.isSome_some, Option.isSome_iff_exists]
    exact exists_mapM_of_isSome fun _ _ => rfl

omit [EvoCrypto] [DkgCrypto] in
theorem namedMembers_ne_nil {named : List (Fin node.n × CBLSSecretKey)} (hne : qj.contributions ≠ [])
    (h : node.namedMembers qj = some named) : named ≠ [] := by
  obtain ⟨p, rest, hqj⟩ := List.exists_cons_of_ne_nil hne
  unfold namedMembers at h
  rw [hqj, List.mapM_cons] at h
  obtain ⟨b, -, h⟩ := Option.bind_eq_some_iff.mp h
  obtain ⟨bs, -, h⟩ := Option.bind_eq_some_iff.mp h
  rw [← Option.some.inj h]
  exact List.cons_ne_nil _ _

variable (node) in
/-- When a justification can be read. -/
theorem isSome_addJustification (hne : qj.contributions ≠ []) : (node.addJustification s i qj).isSome = true ↔
    1 < (insert (DkgCrypto.hashJustification qj) (s.members i).justifications).card ∨ (s.members i).bad = true ∨
      ∃ named, node.namedMembers qj = some named ∧ ((s.members i).receivedVvec.isSome = true ∨
        ∃ p ∈ named, node.quorum.proTxHash p.1 ∉ (s.members i).complaintsFromOthers) := by
  have hgrow := Finset.card_le_card
    (Finset.subset_insert (DkgCrypto.hashJustification qj) (s.members i).justifications)
  unfold addJustification
  dsimp only
  rw [members_modifyMember, if_pos rfl]
  dsimp only
  split_ifs with hfull hmany hbad
  · exact iff_of_true rfl (.inl (by omega))
  · exact iff_of_true rfl (.inl hmany)
  · exact iff_of_true rfl (.inr (.inl hbad))
  rw [or_iff_right hmany, or_iff_right hbad]
  unfold verifyJustification
  rcases hnamed : node.namedMembers qj with _ | named
  · exact iff_of_false nofun nofun
  dsimp only
  rw [members_modifyMember, if_pos rfl]
  dsimp only
  split_ifs with hany
  · obtain ⟨p, hp, hout⟩ := List.any_eq_true.mp hany
    exact iff_of_true rfl ⟨named, rfl, .inr ⟨p, hp, of_decide_eq_true hout⟩⟩
  · rw [Option.isSome_map, isSome_mapM_verify (namedMembers_ne_nil hne hnamed)]
    constructor
    · exact fun hvvec => ⟨named, rfl, .inl hvvec⟩
    · rintro ⟨named', heq, hvvec | ⟨p, hp, hout⟩⟩
      · exact hvvec
      · obtain rfl := Option.some.inj heq
        exact absurd (List.any_eq_true.mpr ⟨p, hp, decide_eq_true hout⟩) hany

/-! ## Commitments -/

variable [QuorumCrypto] {qc : CDKGPrematureCommitment}

omit [EvoCrypto] [DkgCrypto] [QuorumCrypto] in
/-- What `addCommitment` does before it looks for the vector. -/
theorem later_storeCommitment (s : CDKGSession node.n) (i : Fin node.n) (hash : UInt256)
    (commitments : FiniteMap UInt256 (Fin node.n × CDKGPrematureCommitment)) :
    s.Later (modifyMember { s with prematureCommitments := commitments } i fun m =>
      { m with prematureCommitments := insert hash m.prematureCommitments }) := by
  refine Later.trans ?_ (later_modifyMember (fun _ => ?_) _ i)
  · exact later_of_fields rfl rfl rfl
  · exact ⟨rfl, rfl, id⟩

variable (node) in
theorem later_addCommitment (h : node.addCommitment s i qc = some s') : s.Later s' := by
  obtain ⟨⟨vvec, entries, s₁⟩, hvvec, h⟩ := Option.bind_eq_some_iff.mp h
  obtain ⟨valid, -, h⟩ := Option.bind_eq_some_iff.mp h
  have hlater := (later_storeCommitment s i _ _).trans (later_quorumVvec hvvec).1
  obtain rfl := Option.some.inj h
  split_ifs
  · exact hlater.trans (later_of_fields rfl rfl rfl)
  · exact hlater

variable (node) in
/-- When a commitment is read within bounds. -/
theorem isSome_addCommitment (hs : s.VvecsNonempty) : (node.addCommitment s i qc).isSome = true ↔
    node.quorum.getAllQuorumMembers.length ≤ qc.validMembers.length := by
  unfold addCommitment
  dsimp only
  generalize hcommitments : s.prematureCommitments.emplace (DkgCrypto.hashCommitment qc) (i, qc) = commitments
  generalize hs₁ : modifyMember { s with prematureCommitments := commitments } i (fun m =>
    { m with prematureCommitments := insert (DkgCrypto.hashCommitment qc) m.prematureCommitments }) = s₁
  have hnonempty : s₁.VvecsNonempty := by
    rw [← hs₁]
    exact (later_storeCommitment s i _ _).nonempty hs
  rw [← isSome_quorumVvec (s := s₁)]
  rcases hvvec : node.quorumVvec s₁ qc.validMembers with _ | ⟨vvec, entries, s₂⟩
  · rfl
  -- the vector has a first key to compare with
  obtain ⟨valid, hvalid⟩ : ∃ valid, node.isValidCommitment i qc vvec = some valid := by
    rcases vvec with _ | vvec
    · exact ⟨true, rfl⟩
    · have hne := (later_quorumVvec hvvec).2 hnonempty
      obtain ⟨key, rest, rfl⟩ := List.exists_cons_of_ne_nil fun hnil => hne (congrArg some hnil)
      exact ⟨_, rfl⟩
  dsimp only [Option.bind_eq_bind, Option.bind_some]
  rw [hvalid]
  exact iff_of_true rfl rfl

end DkgNode

end RavenCash.Evo.Llmq
