import RavenCash.Llmq.MinedCache

/-!
# Commitments that wait to be mined

`minableCommitments` and `minableCommitmentsByQuorum` of `CQuorumBlockProcessor`. A commitment arrives in a message or
is made by the node itself. The filter of the message handler lets a commitment pass only if it has fewer signers than
the one that is known, and the replacement erases the hash of the new commitment instead of that of the old one. So of
all commitments of a quorum the first one stays.

`SerializeHash` and the index of the blocks are given; a failed `at` is `none`.
-/

set_option autoImplicit false

namespace RavenCash.Evo.Llmq

section

variable [EvoCrypto]

structure MinablePool where
  minableCommitmentsByQuorum : FiniteMap (LLMQType × UInt256) UInt256 := ∅
  minableCommitments : FiniteMap UInt256 CFinalCommitment := ∅

/-- What the processor reads when a commitment arrives. -/
structure PoolEnv extends ProcessorEnv where
  serializeHash : CFinalCommitment → UInt256
  mapBlockIndex : UInt256 → Option CBlockIndex
  tip : CBlockIndex

/-- The quorum of a commitment. -/
def CFinalCommitment.quorum (qc : CFinalCommitment) : LLMQType × UInt256 := (qc.llmqType, qc.quorumHash)

namespace PoolEnv

variable (env : PoolEnv)

def addMinableCommitment (pool : MinablePool) (fqc : CFinalCommitment) : Option MinablePool :=
  let commitmentHash := env.serializeHash fqc
  let k := fqc.quorum
  match pool.minableCommitmentsByQuorum.lookup k with
  | none => some
      { minableCommitmentsByQuorum := pool.minableCommitmentsByQuorum.insert k commitmentHash
        minableCommitments := pool.minableCommitments.emplace commitmentHash fqc }
  | some known => do
      let oldFqc ← pool.minableCommitments.lookup known
      if oldFqc.countSigners < fqc.countSigners then
        -- the entry has the new hash when the old commitment is erased
        return {
          minableCommitmentsByQuorum := pool.minableCommitmentsByQuorum.insert k commitmentHash
          minableCommitments := FiniteMap.emplace (pool.minableCommitments.erase commitmentHash) commitmentHash fqc }
      else return pool

/-- The block of the quorum is in the active chain; `none` where it is not, and whether it begins a session. -/
def quorumIndex (qc : CFinalCommitment) (params : LLMQParams) : Option (CBlockIndex × Bool) := do
  let pquorumIndex ← env.mapBlockIndex qc.quorumHash
  if env.tip.getAncestor pquorumIndex.nHeight = some pquorumIndex then
    return (pquorumIndex, decide (quorumStartHeight params pquorumIndex.nHeight = pquorumIndex.nHeight))
  else none

/-- Whether a better commitment is known, as the handler sees it. -/
def betterKnown (pool : MinablePool) (qc : CFinalCommitment) : Bool :=
  match (pool.minableCommitmentsByQuorum.lookup qc.quorum).bind fun known => pool.minableCommitments.lookup known with
  | some known => decide (known.countSigners ≤ qc.countSigners)
  | none => false

/-- `ProcessMessage` for a `QFCOMMITMENT`: the score of the peer, and the pool. -/
def processMessage [QuorumCrypto] (pool : MinablePool) (qc : CFinalCommitment) : Option (Nat × MinablePool) :=
  if qc.isNull then some (100, pool)
  else match env.llmqs.at qc.llmqType with
    | none => some (100, pool)
    | some params =>
        match env.quorumIndex qc params with
        | none => some (0, pool)
        | some (_, false) => some (100, pool)
        | some (pquorumIndex, true) =>
            if betterKnown pool qc then some (0, pool)
            else if !qc.verify env.llmqs (env.quorumMembers qc.llmqType pquorumIndex) true then some (100, pool)
            else (env.addMinableCommitment pool qc).map fun pool => (0, pool)

/-- `GetMinableCommitment`; the inner `none` where it returns `false`. -/
def getMinableCommitment (params : LLMQParams) (nHeight : Int) (p : CQuorumBlockProcessor) (pool : MinablePool) :
    Option (Option CFinalCommitment) :=
  if (p.isCommitmentRequired params env.tip nHeight).1 then
    let quorumHash := getQuorumBlockHash params env.tip nHeight
    match pool.minableCommitmentsByQuorum.lookup (params.type, quorumHash) with
    | none => some (some
        { llmqType := params.type, quorumHash, signers := List.replicate params.size false
          validMembers := List.replicate params.size false, quorumPublicKey := .null, quorumVvecHash := 0
          quorumSig := 0, membersSig := 0 })
    | some known => (pool.minableCommitments.lookup known).map some
  else some none

/-- A valid final commitment: nothing but what is known already keeps the handler from taking it. -/
structure Valid [QuorumCrypto] (qc : CFinalCommitment) : Prop where
  isNull : qc.isNull = false
  taken : ∃ params pquorumIndex, env.llmqs.at qc.llmqType = some params ∧
    env.quorumIndex qc params = some (pquorumIndex, true) ∧
    qc.verify env.llmqs (env.quorumMembers qc.llmqType pquorumIndex) true = true

/-- A commitment of the node itself, or one in a message. -/
inductive Arrival
  | own (qc : CFinalCommitment)
  | message (qc : CFinalCommitment)

def Arrival.commitment : Arrival → CFinalCommitment
  | .own qc => qc
  | .message qc => qc

def arrive [QuorumCrypto] (pool : MinablePool) : Arrival → Option MinablePool
  | .own qc => env.addMinableCommitment pool qc
  | .message qc => (env.processMessage pool qc).map Prod.snd

end PoolEnv

/-- **The two maps go together**: every key points to a commitment of its quorum, and every commitment is the one
that its quorum's key points to. -/
structure MinablePool.Matched (pool : MinablePool) : Prop where
  pointed : ∀ k hash, pool.minableCommitmentsByQuorum.lookup k = some hash →
    ∃ qc, pool.minableCommitments.lookup hash = some qc ∧ qc.quorum = k
  single : ∀ hash qc, pool.minableCommitments.lookup hash = some qc →
    pool.minableCommitmentsByQuorum.lookup qc.quorum = some hash

theorem MinablePool.Matched.empty : ({} : MinablePool).Matched where
  pointed k hash hk := by
    rw [Finmap.lookup_empty] at hk
    cases hk
  single hash qc hqc := by
    rw [Finmap.lookup_empty] at hqc
    cases hqc

/-! ## The commitments of one quorum -/

section

variable [QuorumCrypto] {env : PoolEnv} {pool : MinablePool} {first qc : CFinalCommitment}

/-- The first commitment of its quorum. -/
def PoolEnv.withFirst (env : PoolEnv) (pool : MinablePool) (first : CFinalCommitment) : MinablePool where
  minableCommitmentsByQuorum := pool.minableCommitmentsByQuorum.insert first.quorum (env.serializeHash first)
  minableCommitments := pool.minableCommitments.insert (env.serializeHash first) first

/-- The pool still has the first commitment: for its quorum, or beside a better one. -/
inductive PoolEnv.Stuck (env : PoolEnv) (pool : MinablePool) (first : CFinalCommitment) : MinablePool → Prop
  | same : Stuck env pool first (env.withFirst pool first)
  | stale {pool' : MinablePool} {better : CFinalCommitment}
      (hkey : pool'.minableCommitmentsByQuorum.lookup first.quorum = some (env.serializeHash better))
      (hbetter : pool'.minableCommitments.lookup (env.serializeHash better) = some better)
      (hfirst : pool'.minableCommitments.lookup (env.serializeHash first) = some first)
      (hmore : first.countSigners < better.countSigners)
      (hne : env.serializeHash better ≠ env.serializeHash first) : Stuck env pool first pool'

/-- A valid commitment in a message is added unless a better one is known. -/
theorem PoolEnv.Valid.arrive_message (h : env.Valid qc) (pool : MinablePool) :
    env.arrive pool (.message qc) =
      if PoolEnv.betterKnown pool qc then some pool else env.addMinableCommitment pool qc := by
  obtain ⟨params, pquorumIndex, hparams, hindex, hverify⟩ := h.taken
  simp only [PoolEnv.arrive, PoolEnv.processMessage, h.isNull, hparams, hindex, hverify]
  cases PoolEnv.betterKnown pool qc with
  | true => rfl
  | false =>
    cases env.addMinableCommitment pool qc with
    | none => rfl
    | some pool' => rfl

omit [QuorumCrypto] in
theorem lookup_withFirst (env : PoolEnv) (pool : MinablePool) (first : CFinalCommitment) :
    (env.withFirst pool first).minableCommitmentsByQuorum.lookup first.quorum = some (env.serializeHash first) ∧
      (env.withFirst pool first).minableCommitments.lookup (env.serializeHash first) = some first := by
  constructor
  · exact (FiniteMap.lookup_assign _ _ _ _).trans (if_pos rfl)
  · exact (FiniteMap.lookup_assign _ _ _ _).trans (if_pos rfl)

omit [QuorumCrypto] in
/-- A commitment for a quorum that is known. -/
theorem addMinableCommitment_known {known : UInt256} {oldFqc : CFinalCommitment}
    (hkey : pool.minableCommitmentsByQuorum.lookup qc.quorum = some known)
    (hold : pool.minableCommitments.lookup known = some oldFqc) :
    env.addMinableCommitment pool qc =
      if oldFqc.countSigners < qc.countSigners then some
        { minableCommitmentsByQuorum := pool.minableCommitmentsByQuorum.insert qc.quorum (env.serializeHash qc)
          minableCommitments := FiniteMap.emplace (pool.minableCommitments.erase (env.serializeHash qc))
            (env.serializeHash qc) qc }
      else some pool := by
  simp only [PoolEnv.addMinableCommitment, hkey, hold, Option.bind_eq_bind, Option.bind_some]
  split_ifs <;> rfl

omit [QuorumCrypto] in
theorem betterKnown_eq {known : UInt256} {oldFqc : CFinalCommitment}
    (hkey : pool.minableCommitmentsByQuorum.lookup qc.quorum = some known)
    (hold : pool.minableCommitments.lookup known = some oldFqc) :
    PoolEnv.betterKnown pool qc = decide (oldFqc.countSigners ≤ qc.countSigners) := by
  simp only [PoolEnv.betterKnown, hkey, Option.bind_some, hold]

omit [QuorumCrypto] in
/-- The pool that a commitment with more signers leaves has the old one too. -/
theorem stuck_replaced {known : CFinalCommitment} (hquorum : qc.quorum = first.quorum)
    {pool' : MinablePool} (hfirst : pool'.minableCommitments.lookup (env.serializeHash first) = some first)
    (hknown : first.countSigners ≤ known.countSigners) (hmore : known.countSigners < qc.countSigners)
    (hhash : env.serializeHash qc = env.serializeHash first → qc = first) :
    env.Stuck pool first
      { minableCommitmentsByQuorum := pool'.minableCommitmentsByQuorum.insert qc.quorum (env.serializeHash qc)
        minableCommitments := FiniteMap.emplace (pool'.minableCommitments.erase (env.serializeHash qc))
          (env.serializeHash qc) qc } := by
  have hne : env.serializeHash qc ≠ env.serializeHash first := by
    intro heq
    rw [hhash heq] at hmore
    omega
  refine .stale ?_ ?_ ?_ (by omega) hne
  · rw [FiniteMap.lookup_assign, if_pos hquorum.symm]
  · rw [FiniteMap.lookup_emplace, if_pos rfl, FiniteMap.lookup_erase_eq, if_pos rfl]
    rfl
  · rw [FiniteMap.lookup_emplace, if_neg hne.symm, FiniteMap.lookup_erase_eq, if_neg hne.symm, hfirst]

/-- **The first commitment stays** with every commitment of its quorum that arrives. -/
theorem stuck_arrive {pool' : MinablePool} (h : env.Stuck pool first pool') {a : PoolEnv.Arrival}
    (hvalid : env.Valid a.commitment) (hquorum : a.commitment.quorum = first.quorum)
    (hhash : env.serializeHash a.commitment = env.serializeHash first → a.commitment = first) :
    ∃ pool'', env.arrive pool' a = some pool'' ∧ env.Stuck pool first pool'' := by
  obtain ⟨known, hkey, hold, hfirst, hknown⟩ : ∃ known,
      pool'.minableCommitmentsByQuorum.lookup first.quorum = some (env.serializeHash known) ∧
      pool'.minableCommitments.lookup (env.serializeHash known) = some known ∧
      pool'.minableCommitments.lookup (env.serializeHash first) = some first ∧
      first.countSigners ≤ known.countSigners := by
    cases h with
    | same =>
      obtain ⟨hkey, hlookup⟩ := lookup_withFirst env pool first
      exact ⟨first, hkey, hlookup, hlookup, le_rfl⟩
    | stale hkey hbetter hfirst hmore _ => exact ⟨_, hkey, hbetter, hfirst, hmore.le⟩
  rw [← hquorum] at hkey
  cases a with
  | own qc =>
    simp only [PoolEnv.Arrival.commitment] at hvalid hquorum hhash hkey
    show ∃ pool'', env.addMinableCommitment pool' qc = some pool'' ∧ _
    rw [addMinableCommitment_known hkey hold]
    split_ifs with hmore
    · exact ⟨_, rfl, stuck_replaced hquorum hfirst hknown hmore hhash⟩
    · exact ⟨_, rfl, h⟩
  | message qc =>
    simp only [PoolEnv.Arrival.commitment] at hvalid hquorum hhash hkey
    rw [PoolEnv.Valid.arrive_message hvalid, betterKnown_eq hkey hold, addMinableCommitment_known hkey hold]
    -- what passes the filter has fewer signers and is not added
    split_ifs with hbetter hmore
    · exact ⟨_, rfl, h⟩
    · rw [decide_eq_true_eq] at hbetter
      exact absurd hmore.le hbetter
    · exact ⟨_, rfl, h⟩

/-- Commitments with no more signers change nothing. -/
theorem arrive_withFirst {a : PoolEnv.Arrival} (hvalid : env.Valid a.commitment)
    (hquorum : a.commitment.quorum = first.quorum) (hle : a.commitment.countSigners ≤ first.countSigners) :
    env.arrive (env.withFirst pool first) a = some (env.withFirst pool first) := by
  obtain ⟨hkey, hold⟩ := lookup_withFirst env pool first
  rw [← hquorum] at hkey
  cases a with
  | own qc =>
    simp only [PoolEnv.Arrival.commitment] at hvalid hkey hle
    show env.addMinableCommitment _ qc = _
    rw [addMinableCommitment_known hkey hold, if_neg (Nat.not_lt.mpr hle)]
  | message qc =>
    simp only [PoolEnv.Arrival.commitment] at hvalid hkey hle
    rw [PoolEnv.Valid.arrive_message hvalid, addMinableCommitment_known hkey hold, if_neg (Nat.not_lt.mpr hle),
      ite_self]

theorem arrive_first {a : PoolEnv.Arrival} (hvalid : env.Valid a.commitment)
    (hnew : pool.minableCommitmentsByQuorum.lookup a.commitment.quorum = none)
    (hfresh : pool.minableCommitments.lookup (env.serializeHash a.commitment) = none) :
    env.arrive pool a = some (env.withFirst pool a.commitment) := by
  have hadd : env.addMinableCommitment pool a.commitment = some (env.withFirst pool a.commitment) := by
    simp only [PoolEnv.addMinableCommitment, hnew, PoolEnv.withFirst, FiniteMap.emplace, hfresh, Option.isSome_none,
      Bool.false_eq_true, if_false]
  cases a with
  | own qc => exact hadd
  | message qc =>
    simp only [PoolEnv.Arrival.commitment] at hvalid hadd
    have hbetter : PoolEnv.betterKnown pool qc = false := by
      simp only [PoolEnv.betterKnown, show pool.minableCommitmentsByQuorum.lookup qc.quorum = none from hnew,
        Option.bind_none]
    rw [PoolEnv.Valid.arrive_message hvalid, hbetter]
    exact hadd

omit [QuorumCrypto] in
theorem matched_withFirst (hmatched : pool.Matched)
    (hnew : pool.minableCommitmentsByQuorum.lookup first.quorum = none)
    (hfresh : pool.minableCommitments.lookup (env.serializeHash first) = none) :
        (env.withFirst pool first).Matched := by
  refine ⟨fun k hash hk => ?_, fun hash qc hqc => ?_⟩
  · rcases FiniteMap.lookup_insert_imp hk with ⟨rfl, rfl⟩ | hk
    · exact ⟨first, (lookup_withFirst env pool first).2, rfl⟩
    · obtain ⟨qc, hqc, hquorum⟩ := hmatched.pointed k hash hk
      refine ⟨qc, ?_, hquorum⟩
      have hne : hash ≠ env.serializeHash first := by
        rintro rfl
        rw [hfresh] at hqc
        cases hqc
      exact (FiniteMap.lookup_assign _ _ _ _).trans ((if_neg hne).trans hqc)
  · rcases FiniteMap.lookup_insert_imp hqc with ⟨rfl, rfl⟩ | hqc
    · exact (lookup_withFirst env pool qc).1
    · have hkey := hmatched.single hash qc hqc
      have hne : qc.quorum ≠ first.quorum := by
        intro heq
        rw [heq, hnew] at hkey
        cases hkey
      exact (FiniteMap.lookup_assign _ _ _ _).trans ((if_neg hne).trans hkey)

omit [QuorumCrypto] in
theorem getMinable_withFirst {params : LLMQParams} {nHeight : Int} {p : CQuorumBlockProcessor}
    (hrequired : (p.isCommitmentRequired params env.tip nHeight).1 = true)
    (hquorum : (params.type, getQuorumBlockHash params env.tip nHeight) = first.quorum) :
    env.getMinableCommitment params nHeight p (env.withFirst pool first) = some (some first) := by
  obtain ⟨hkey, hold⟩ := lookup_withFirst env pool first
  rw [← hquorum] at hkey
  simp only [PoolEnv.getMinableCommitment, hrequired, if_true, hkey, hold, Option.map_some]

/-- **The best commitment is mined exactly when it is the first to arrive**: for the commitments of one quorum, in
messages or of the node itself, `GetMinableCommitment` gives one with the most signers and the two maps go together
if and only if no later commitment has more signers than the first. -/
theorem bestMinable_iff (env : PoolEnv) (pool : MinablePool) (first : PoolEnv.Arrival) (rest : List PoolEnv.Arrival)
    (params : LLMQParams) (nHeight : Int) (p : CQuorumBlockProcessor) (hmatched : pool.Matched)
    (hvalid : ∀ a ∈ first :: rest, env.Valid a.commitment)
    (hquorum : ∀ a ∈ rest, a.commitment.quorum = first.commitment.quorum)
    (hhash : ∀ a ∈ rest, env.serializeHash a.commitment = env.serializeHash first.commitment →
      a.commitment = first.commitment)
    (hnew : pool.minableCommitmentsByQuorum.lookup first.commitment.quorum = none)
    (hfresh : pool.minableCommitments.lookup (env.serializeHash first.commitment) = none)
    (hrequired : (p.isCommitmentRequired params env.tip nHeight).1 = true)
    (hasked : (params.type, getQuorumBlockHash params env.tip nHeight) = first.commitment.quorum) :
    ∃ pool', (first :: rest).foldlM env.arrive pool = some pool' ∧
      (((∃ a ∈ first :: rest, env.getMinableCommitment params nHeight p pool' = some (some a.commitment) ∧
          ∀ b ∈ first :: rest, b.commitment.countSigners ≤ a.commitment.countSigners) ∧ pool'.Matched) ↔
        ∀ a ∈ rest, a.commitment.countSigners ≤ first.commitment.countSigners) := by
  obtain ⟨hfirst, hrest⟩ := List.forall_mem_cons.mp hvalid
  rw [List.foldlM_cons, arrive_first hfirst hnew hfresh]
  show ∃ pool', rest.foldlM env.arrive _ = some pool' ∧ _
  by_cases hle : ∀ a ∈ rest, a.commitment.countSigners ≤ first.commitment.countSigners
  · have hrun : rest.foldlM env.arrive (env.withFirst pool first.commitment) =
        some (env.withFirst pool first.commitment) := by
      clear hvalid hhash
      induction rest with
      | nil => rfl
      | cons a rest ih =>
        obtain ⟨hvalid, hrest⟩ := List.forall_mem_cons.mp hrest
        obtain ⟨hquorum, hquorums⟩ := List.forall_mem_cons.mp hquorum
        obtain ⟨hle, hles⟩ := List.forall_mem_cons.mp hle
        rw [List.foldlM_cons, arrive_withFirst hvalid hquorum hle]
        exact ih hquorums hrest hles
    refine ⟨_, hrun, iff_of_true ⟨⟨first, List.mem_cons_self, getMinable_withFirst hrequired hasked, ?_⟩,
      matched_withFirst hmatched hnew hfresh⟩ hle⟩
    exact List.forall_mem_cons.mpr ⟨le_rfl, hle⟩
  · have hrun : ∀ (l : List PoolEnv.Arrival) (pool' : MinablePool), env.Stuck pool first.commitment pool' →
        (∀ a ∈ l, a ∈ rest) → ∃ pool'', l.foldlM env.arrive pool' = some pool'' ∧
          env.Stuck pool first.commitment pool'' := by
      intro l
      induction l with
      | nil => exact fun pool' h _ => ⟨pool', rfl, h⟩
      | cons a l ih =>
        intro pool' h hsub
        obtain ⟨ha, hl⟩ := List.forall_mem_cons.mp hsub
        obtain ⟨pool'', harrive, h'⟩ := stuck_arrive h (hrest a ha) (hquorum a ha) (hhash a ha)
        rw [List.foldlM_cons, harrive]
        exact ih pool'' h' hl
    obtain ⟨pool', hfold, hstuck⟩ := hrun rest _ .same fun a ha => ha
    refine ⟨pool', hfold, iff_of_false (fun hbest => ?_) hle⟩
    obtain ⟨⟨a, -, hget, hmax⟩, hmatched'⟩ := hbest
    cases hstuck with
    | same =>
      rw [getMinable_withFirst hrequired hasked] at hget
      rw [← Option.some.inj (Option.some.inj hget)] at hmax
      exact hle fun b hb => hmax b (List.mem_cons_of_mem _ hb)
    | stale hkey _ hlookup _ hne =>
      have hpointed := hmatched'.single _ _ hlookup
      rw [hkey] at hpointed
      exact hne (Option.some.inj hpointed)

end

end

section

attribute [local instance] plainCrypto plainQuorumCrypto

/-- A chain of empty blocks on the block of the quorum. -/
def emptyChain : Nat → CBlockIndex
  | 0 => .genesis 100
  | n + 1 => .block (BitVec.ofNat 256 (101 + n)) [] (emptyChain n)

/-- The node waits for the block at height `11`. -/
def poolEnv : PoolEnv :=
  { activeProcessor with
    serializeHash := fun qc => BitVec.ofNat 256 qc.countSigners
    mapBlockIndex := fun hash => if hash = 100 then some (.genesis 100) else none
    tip := emptyChain 10 }

def testParams : LLMQParams := ((Network.llmqs .test).at .LLMQ_50_60).getD llmq3_60

/-- The commitments with two signers and with three. -/
def twoSigners : CFinalCommitment := sampleCommitment (commitmentBlockTx 3)

def threeSigners : CFinalCommitment := sampleCommitment (commitmentBlockTx 2)

theorem poolEnv_valid {qc : CFinalCommitment} (hnull : qc.isNull = false)
    (hparams : poolEnv.llmqs.at qc.llmqType = some testParams)
    (hindex : poolEnv.quorumIndex qc testParams = some (.genesis 100, true))
    (hverify : qc.verify poolEnv.llmqs (poolEnv.quorumMembers qc.llmqType (.genesis 100)) true = true) :
    poolEnv.Valid qc :=
  ⟨hnull, testParams, .genesis 100, hparams, hindex, hverify⟩

theorem valid_twoSigners : poolEnv.Valid twoSigners :=
  poolEnv_valid (by decide +kernel) (by decide +kernel) (by decide +kernel) (by decide +kernel)

theorem valid_threeSigners : poolEnv.Valid threeSigners :=
  poolEnv_valid (by decide +kernel) (by decide +kernel) (by decide +kernel) (by decide +kernel)

/-- The commitment with three signers comes first. -/
theorem bestMinable_iff_threeSigners :
    ∃ pool', [PoolEnv.Arrival.message threeSigners, .message twoSigners].foldlM poolEnv.arrive {} = some pool' ∧
      (((∃ a ∈ [PoolEnv.Arrival.message threeSigners, .message twoSigners],
          poolEnv.getMinableCommitment testParams 11 {} pool' = some (some a.commitment) ∧
          ∀ b ∈ [PoolEnv.Arrival.message threeSigners, .message twoSigners],
            b.commitment.countSigners ≤ a.commitment.countSigners) ∧ pool'.Matched) ↔
        ∀ a ∈ [PoolEnv.Arrival.message twoSigners], a.commitment.countSigners ≤ threeSigners.countSigners) := by
  refine bestMinable_iff poolEnv {} (.message threeSigners) [.message twoSigners] testParams 11 {}
    .empty ?_ ?_ ?_ (Finmap.lookup_empty _) (Finmap.lookup_empty _) (by decide +kernel) (by decide +kernel)
  · simp only [List.forall_mem_cons, PoolEnv.Arrival.commitment]
    exact ⟨valid_threeSigners, valid_twoSigners, fun a ha => absurd ha List.not_mem_nil⟩
  · simp only [List.forall_mem_singleton, PoolEnv.Arrival.commitment]
    decide +kernel
  · simp only [List.forall_mem_singleton, PoolEnv.Arrival.commitment]
    intro heq
    exact absurd heq (by decide +kernel)

/-- **The better commitment is dropped**: a message with three signers after one with two. -/
theorem betterCommitment_dropped :
    poolEnv.Valid twoSigners ∧ poolEnv.Valid threeSigners ∧
      (([PoolEnv.Arrival.message twoSigners, .message threeSigners].foldlM poolEnv.arrive {}).bind
          (poolEnv.getMinableCommitment testParams 11 {})).map (Option.map CFinalCommitment.countSigners) =
              some (some 2) ∧
      twoSigners.countSigners = 2 ∧ threeSigners.countSigners = 3 :=
  ⟨valid_twoSigners, valid_threeSigners, by decide +kernel, by decide +kernel, by decide +kernel⟩

end

end RavenCash.Evo.Llmq
