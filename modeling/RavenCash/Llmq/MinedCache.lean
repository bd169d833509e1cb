import RavenCash.Lib.Simulation
import RavenCash.Llmq.BlockProcessor

/-!
# The cache of mined commitments under several threads

`HasMinedCommitment` looks into the cache under the lock, then into the database without it, then takes
the lock again to remember what it found. The database shows what the block in process has written so
far. The thread that processes the block writes a record first and takes the lock to clear its answer
afterwards, and it does not clear anything when the block is dropped.

So an answer can outlive what it was read from in two ways: a query that has read before the record was
written stores after the answer was cleared, and one that reads while the block is in process stores an
answer that is wrong once the block is dropped. `Permitted` excludes both, and nothing else does.
-/

set_option autoImplicit false

namespace RavenCash.Evo.Llmq

open Checked CQuorumBlockProcessor

section

variable [EvoCrypto]

/-! ## Threads -/

/-- What a thread with a query is about to do. -/
inductive QueryThread where
  | idle
  /-- A query that found nothing in the cache. -/
  | looked (key : LLMQType × UInt256)
  /-- A query that has read the database. -/
  | read (key : LLMQType × UInt256) (ret : Bool)
deriving DecidableEq, Repr

/-- What the thread with the blocks does. -/
inductive BlockThread where
  | idle
  /-- It is within a transaction. -/
  | processing
  /-- It has changed a record and has yet to clear the answer. -/
  | changed (key : LLMQType × UInt256)
deriving DecidableEq, Repr

/-- The next part of a call that a thread runs. -/
inductive MinedEvent (T : Type) where
  | hasStart (t : T) (key : LLMQType × UInt256)
  | hasRead (t : T)
  | hasStore (t : T)
  | begin
  | write (key : LLMQType × UInt256) (qc : CFinalCommitment) (blockHash : UInt256)
      (nHeight quorumHeight : Int)
  | erase (key : LLMQType × UInt256) (nHeight : Int)
  | forget
  | writeBestBlock (hash : UInt256)
  | commit
  | rollback

structure MinedThreads (T : Type) where
  /-- The processor, with the database as the current transaction shows it. -/
  processor : CQuorumBlockProcessor
  /-- The database without the current transaction. -/
  committed : QuorumDb
  block : BlockThread := .idle
  threads : T → QueryThread := fun _ => .idle

namespace MinedThreads

variable {T : Type}

/-- A node that has just started. -/
def start (T : Type) (db : QuorumDb) : MinedThreads T := { processor := { evoDb := db }, committed := db }

/-- What `HasMinedCommitment` answers to a call that nothing overtakes. -/
def hasMinedCommitment (s : MinedThreads T) (key : LLMQType × UInt256) : Bool :=
  (s.processor.hasMinedCommitment key).1

/-- The record is in the database without the current transaction. -/
def committedExists (s : MinedThreads T) (key : LLMQType × UInt256) : Bool :=
  (s.committed.mined.lookup key).isSome

/-- Between blocks the answers are those of the committed database. -/
def Coherent (s : MinedThreads T) : Prop :=
  s.block = .idle → ∀ key, s.hasMinedCommitment key = s.committedExists key

variable [DecidableEq T]

/-- A part that the thread is not about to run changes nothing. -/
def step (s : MinedThreads T) : MinedEvent T → MinedThreads T
  | .hasStart t key =>
      match s.threads t, s.processor.cached key with
      | .idle, none => { s with threads := Function.update s.threads t (.looked key) }
      | _, _ => s
  | .hasRead t =>
      match s.threads t with
      | .looked key =>
        { s with threads := Function.update s.threads t (.read key (s.processor.recordExists key)) }
      | _ => s
  | .hasStore t =>
      match s.threads t with
      | .read key ret =>
        { s with
          processor := s.processor.remember key ret
          threads := Function.update s.threads t .idle }
      | _ => s
  | .begin =>
      match s.block with
      | .idle => { s with block := .processing }
      | _ => s
  | .write key qc blockHash nHeight quorumHeight =>
      match s.block with
      | .processing =>
        { s with
          processor := s.processor.writeCommitment key qc blockHash nHeight quorumHeight
          block := .changed key }
      | _ => s
  | .erase key nHeight =>
      match s.block with
      | .processing =>
        { s with processor := s.processor.eraseCommitment key nHeight, block := .changed key }
      | _ => s
  | .forget =>
      match s.block with
      | .changed key => { s with processor := s.processor.forget key, block := .processing }
      | _ => s
  | .writeBestBlock hash =>
      match s.block with
      | .processing => { s with processor := s.processor.writeBestBlock hash }
      | _ => s
  | .commit =>
      match s.block with
      | .processing => { s with committed := s.processor.evoDb, block := .idle }
      | _ => s
  | .rollback =>
      match s.block with
      | .processing =>
        { s with processor := { s.processor with evoDb := s.committed }, block := .idle }
      | _ => s

/-- No query is in the way of the block. -/
def Permitted (s : MinedThreads T) : MinedEvent T → Prop
  -- none that has read the record before it changed has yet to store
  | .forget => ∀ key, s.block = .changed key → ∀ t ret, s.threads t = .read key ret →
      ret = s.processor.recordExists key
  -- none has stored, or has yet to store, what only the dropped block has brought about
  | .rollback => s.block = .processing → ∀ key, s.processor.recordExists key = s.committedExists key ∨
      (s.processor.cached key = none ∧ ∀ t ret, s.threads t ≠ .read key ret)
  | _ => True

/-! ## What holds throughout -/

/-- Answers are those of the current transaction, except about a record that has just changed. -/
structure Sound (s : MinedThreads T) : Prop where
  idle : s.block = .idle → s.processor.evoDb = s.committed
  cache : ∀ key b, s.block ≠ .changed key → s.processor.cached key = some b →
    b = s.processor.recordExists key
  reads : ∀ t key ret, s.block ≠ .changed key → s.threads t = .read key ret →
    ret = s.processor.recordExists key

variable {s : MinedThreads T} {e : MinedEvent T}

omit [DecidableEq T] in
theorem sound_start (db : QuorumDb) : (start T db).Sound :=
  ⟨fun _ => rfl, fun _ _ _ h => (by cases h), fun _ _ _ _ h => (by cases h)⟩

omit [DecidableEq T] in
theorem ne_changed_of_idle (h : s.block = .idle) (key : LLMQType × UInt256) : s.block ≠ .changed key := by
  rw [h]
  exact nofun

omit [DecidableEq T] in
theorem ne_changed_of_processing (h : s.block = .processing) (key : LLMQType × UInt256) :
    s.block ≠ .changed key := by
  rw [h]
  exact nofun

omit [DecidableEq T] in
theorem hasMinedCommitment_of_cached {key : LLMQType × UInt256} {b : Bool}
    (h : s.processor.cached key = some b) : s.hasMinedCommitment key = b := by
  unfold hasMinedCommitment CQuorumBlockProcessor.hasMinedCommitment
  rw [h]

omit [DecidableEq T] in
theorem hasMinedCommitment_of_none {key : LLMQType × UInt256}
    (h : s.processor.cached key = none) : s.hasMinedCommitment key = s.processor.recordExists key := by
  unfold hasMinedCommitment CQuorumBlockProcessor.hasMinedCommitment
  rw [h]

omit [DecidableEq T] in
theorem Sound.coherent (h : s.Sound) : s.Coherent := by
  intro hidle key
  have hexists : s.processor.recordExists key = s.committedExists key := by
    unfold recordExists committedExists
    rw [h.idle hidle]
  cases hcached : s.processor.cached key with
  | none => exact (hasMinedCommitment_of_none hcached).trans hexists
  | some b =>
    rw [hasMinedCommitment_of_cached hcached, h.cache key b (ne_changed_of_idle hidle key) hcached]
    exact hexists

/-- A query that moves on. -/
theorem Sound.update (h : s.Sound) (t : T) (next : QueryThread)
    (hnext : ∀ key ret, next = .read key ret → ret = s.processor.recordExists key) :
    { s with threads := Function.update s.threads t next }.Sound := by
  refine ⟨h.idle, h.cache, fun t' key ret hne hread => ?_⟩
  by_cases ht : t' = t
  · subst ht
    exact hnext key ret (Function.update_self t' next s.threads ▸ hread)
  · exact h.reads t' key ret hne (Function.update_of_ne ht next s.threads ▸ hread)

omit [DecidableEq T] in
/-- A record changes. -/
theorem Sound.change (h : s.Sound) {p : CQuorumBlockProcessor} {key : LLMQType × UInt256}
    (hblock : s.block = .processing)
    (hcache : p.hasMinedCommitmentCache = s.processor.hasMinedCommitmentCache)
    (hmined : ∀ k, k ≠ key → p.evoDb.mined.lookup k = s.processor.evoDb.mined.lookup k) :
    { s with processor := p, block := .changed key }.Sound := by
  have hother : ∀ k, BlockThread.changed key ≠ .changed k →
      p.recordExists k = s.processor.recordExists k := by
    intro k hk
    unfold recordExists
    rw [hmined k fun heq => hk (by rw [heq])]
  refine ⟨nofun, fun k b hk hb => ?_, fun t k ret hk hread => ?_⟩
  · rw [hother k hk]
    unfold cached at hb
    rw [hcache] at hb
    exact h.cache k b (ne_changed_of_processing hblock k) hb
  · rw [hother k hk]
    exact h.reads t k ret (ne_changed_of_processing hblock k) hread

theorem Sound.store (h : s.Sound) {t : T} {key : LLMQType × UInt256} {ret : Bool}
    (hread : s.threads t = .read key ret) : (s.step (.hasStore t)).Sound := by
  have hidle := h.update t .idle nofun
  dsimp only [MinedThreads.step]
  rw [hread]
  refine ⟨hidle.idle, fun k b hne hb => ?_, hidle.reads⟩
  rcases FiniteMap.lookup_emplace_imp hb with ⟨rfl, rfl⟩ | hold
  · exact h.reads t k b hne hread
  · exact h.cache k b hne hold

theorem Sound.forget (h : s.Sound) {key : LLMQType × UInt256} (hblock : s.block = .changed key)
    (he : s.Permitted .forget) : (s.step .forget).Sound := by
  dsimp only [MinedThreads.step]
  rw [hblock]
  have hold : ∀ {k}, k ≠ key → s.block ≠ .changed k := by
    intro k hk heq
    rw [hblock] at heq
    cases heq
    exact hk rfl
  refine ⟨nofun, fun k b _ hb => ?_, fun t k ret _ hread => ?_⟩
  · have hb' : (s.processor.hasMinedCommitmentCache.erase key).lookup k = some b := hb
    rw [FiniteMap.lookup_erase_eq] at hb'
    split_ifs at hb' with hk
    exact h.cache k b (hold hk) hb'
  · by_cases hk : k = key
    · subst hk
      exact he k hblock t ret hread
    · exact h.reads t k ret (hold hk) hread

theorem Sound.rollback (h : s.Sound) (hblock : s.block = .processing) (he : s.Permitted .rollback) :
    (s.step .rollback).Sound := by
  dsimp only [MinedThreads.step]
  rw [hblock]
  have hold := ne_changed_of_processing hblock
  refine ⟨fun _ => rfl, fun k b _ hb => ?_, fun t k ret _ hread => ?_⟩
  · rcases he hblock k with hsame | ⟨hnone, -⟩
    · exact (h.cache k b (hold k) hb).trans hsame
    · exact absurd (hnone.symm.trans hb) nofun
  · rcases he hblock k with hsame | ⟨-, hnone⟩
    · exact (h.reads t k ret (hold k) hread).trans hsame
    · exact absurd hread (hnone t ret)

theorem Sound.step (h : s.Sound) (he : s.Permitted e) : (s.step e).Sound := by
  cases e with
  | hasStart t key =>
    dsimp only [MinedThreads.step]
    split
    · exact h.update t (.looked key) nofun
    · exact h
  | hasRead t =>
    dsimp only [MinedThreads.step]
    cases s.threads t with
    | looked key =>
      refine h.update t (.read key (s.processor.recordExists key)) fun k ret heq => ?_
      cases heq
      rfl
    | _ => exact h
  | hasStore t =>
    cases hthread : s.threads t with
    | read key ret => exact h.store hthread
    | _ =>
      dsimp only [MinedThreads.step]
      rw [hthread]
      exact h
  | begin =>
    dsimp only [MinedThreads.step]
    cases hblock : s.block with
    | idle =>
      have hold := ne_changed_of_idle hblock
      exact ⟨nofun, fun k b _ => h.cache k b (hold k), fun t k ret _ => h.reads t k ret (hold k)⟩
    | _ => exact h
  | write key qc blockHash nHeight quorumHeight =>
    dsimp only [MinedThreads.step]
    cases hblock : s.block with
    | processing =>
      exact h.change hblock rfl fun k hk => (FiniteMap.lookup_assign _ _ _ _).trans (if_neg hk)
    | _ => exact h
  | erase key nHeight =>
    dsimp only [MinedThreads.step]
    cases hblock : s.block with
    | processing =>
      exact h.change hblock rfl fun k hk => (FiniteMap.lookup_erase_eq _ _ _).trans (if_neg hk)
    | _ => exact h
  | forget =>
    cases hblock : s.block with
    | changed key => exact h.forget hblock he
    | _ =>
      dsimp only [MinedThreads.step]
      rw [hblock]
      exact h
  | writeBestBlock hash =>
    dsimp only [MinedThreads.step]
    cases hblock : s.block with
    | processing =>
      have hold := ne_changed_of_processing hblock
      exact ⟨nofun, fun k b _ => h.cache k b (hold k), fun t k ret _ => h.reads t k ret (hold k)⟩
    | _ => exact h
  | commit =>
    dsimp only [MinedThreads.step]
    cases hblock : s.block with
    | processing =>
      have hold := ne_changed_of_processing hblock
      exact ⟨fun _ => rfl, fun k b _ => h.cache k b (hold k), fun t k ret _ => h.reads t k ret (hold k)⟩
    | _ => exact h
  | rollback =>
    cases hblock : s.block with
    | processing => exact h.rollback hblock he
    | _ =>
      dsimp only [MinedThreads.step]
      rw [hblock]
      exact h

/-! ## What a query in the way does -/

omit [DecidableEq T] in
theorem incoherent_of {key : LLMQType × UInt256} {b : Bool} (hblock : s.block = .idle)
    (hcached : s.processor.cached key = some b) (hne : b ≠ s.committedExists key) : ¬ s.Coherent := by
  intro h
  rw [← h hblock key, hasMinedCommitment_of_cached hcached] at hne
  exact hne rfl

theorem cached_remember {p : CQuorumBlockProcessor} {key : LLMQType × UInt256} (h : p.cached key = none)
    (ret : Bool) : (p.remember key ret).cached key = some ret := by
  unfold cached at h
  unfold remember cached FiniteMap.emplace
  rw [if_neg (by rw [h]; exact nofun)]
  exact Finmap.lookup_insert _

/-- The old answer is stored, and then the block is connected. -/
theorem exists_incoherent_forget (he : ¬ s.Permitted .forget) :
    ∃ more, ¬ (Simulation.exec MinedThreads.step (s.step .forget) more).Coherent := by
  simp only [Permitted, not_forall] at he
  obtain ⟨key, hblock, t, ret, hread, hne⟩ := he
  refine ⟨[.hasStore t, .commit], ?_⟩
  dsimp only [Simulation.exec, MinedThreads.step]
  rw [hblock, hread]
  have hnone : (s.processor.forget key).cached key = none :=
    (FiniteMap.lookup_erase_eq _ _ _).trans (if_pos rfl)
  exact incoherent_of rfl (cached_remember hnone ret) hne

/-- The block is dropped, and the answer is there or comes. -/
theorem exists_incoherent_rollback (h : s.Sound) (he : ¬ s.Permitted .rollback) :
    ∃ more, ¬ (Simulation.exec MinedThreads.step (s.step .rollback) more).Coherent := by
  simp only [Permitted, not_forall, not_or, not_and_or, not_not] at he
  obtain ⟨hblock, key, hne, hquery⟩ := he
  have hold := ne_changed_of_processing hblock
  cases hcached : s.processor.cached key with
  | some b =>
    refine ⟨[], ?_⟩
    dsimp only [Simulation.exec, MinedThreads.step]
    rw [hblock]
    exact incoherent_of rfl hcached (h.cache key b (hold key) hcached ▸ hne)
  | none =>
    obtain ⟨t, ret, hread⟩ := hquery.resolve_left fun hsome => hsome hcached
    refine ⟨[.hasStore t], ?_⟩
    dsimp only [Simulation.exec, MinedThreads.step]
    rw [hblock, hread]
    exact incoherent_of rfl (cached_remember hcached ret) (h.reads t key ret (hold key) hread ▸ hne)

theorem exists_incoherent (h : s.Sound) (he : ¬ s.Permitted e) :
    ∃ more, ¬ (Simulation.exec MinedThreads.step (s.step e) more).Coherent := by
  cases e with
  | forget => exact exists_incoherent_forget he
  | rollback => exact exists_incoherent_rollback h he
  | _ => exact absurd trivial he

/-! ## The parts of a block -/

/-- A part that the thread with the blocks runs for a block. -/
def MinedEvent.ofBlock (t : T) : MinedEvent T → Bool
  | .hasStart t' _ | .hasRead t' | .hasStore t' => decide (t' = t)
  | .write _ _ _ _ _ | .erase _ _ | .forget | .writeBestBlock _ => true
  | .begin | .commit | .rollback => false

/-- The thread `t` processes a block and no other thread has a query. -/
def alone (T : Type) (committed : QuorumDb) (p : CQuorumBlockProcessor) : MinedThreads T :=
  { processor := p, committed := committed, block := .processing }

/-- The thread `t` gets from one state of the processor to another by parts of a block. -/
def Reaches (t : T) (committed : QuorumDb) (p p' : CQuorumBlockProcessor) : Prop :=
  ∃ events : List (MinedEvent T), (∀ e ∈ events, MinedEvent.ofBlock t e = true) ∧
    Simulation.exec MinedThreads.step (alone T committed p) events = alone T committed p'

variable {t : T} {committed : QuorumDb} {p q q' : CQuorumBlockProcessor}

theorem Reaches.refl (p : CQuorumBlockProcessor) : Reaches t committed p p :=
  ⟨[], fun _ he => absurd he List.not_mem_nil, rfl⟩

theorem Reaches.append (h : Reaches t committed p q) (more : List (MinedEvent T))
    (hmore : ∀ e ∈ more, MinedEvent.ofBlock t e = true)
    (hexec : Simulation.exec MinedThreads.step (alone T committed q) more = alone T committed q') :
    Reaches t committed p q' := by
  obtain ⟨events, hof, hrun⟩ := h
  refine ⟨events ++ more, fun e he => (List.mem_append.mp he).elim (hof e) (hmore e), ?_⟩
  rw [Simulation.exec_append, hrun, hexec]

theorem Reaches.hasMinedCommitment (h : Reaches t committed p q) (key : LLMQType × UInt256) :
    Reaches t committed p (q.hasMinedCommitment key).2 := by
  unfold CQuorumBlockProcessor.hasMinedCommitment
  cases hcached : q.cached key with
  | some ret => exact h
  | none =>
    refine h.append [.hasStart t key, .hasRead t, .hasStore t] (by simp [MinedEvent.ofBlock]) ?_
    simp [Simulation.exec, MinedThreads.step, alone, hcached]

theorem Reaches.writeBestBlock (h : Reaches t committed p q) (hash : UInt256) :
    Reaches t committed p (q.writeBestBlock hash) :=
  h.append [.writeBestBlock hash] (by simp [MinedEvent.ofBlock]) rfl

theorem keeps_reaches_checkRequired (qcs : List CFinalCommitment)
    (tip : CBlockIndex) (nHeight : Int) (params : LLMQParams) :
    Keeps (Reaches t committed p) (ProcessorEnv.checkRequired qcs tip nHeight params) := by
  refine keeps_bind (keeps_ask fun q hq => ?_) fun _ => keeps_bind (keeps_lift _) fun _ => keeps_lift _
  unfold isCommitmentRequired
  dsimp only
  split_ifs
  · exact hq
  · exact hq.hasMinedCommitment _

theorem keeps_reaches_processCommitment [QuorumCrypto] (env : ProcessorEnv)
    (tip : CBlockIndex) (nHeight : Int) (blockHash : UInt256) (qc : CFinalCommitment) :
    Keeps (Reaches t committed p) (env.processCommitment tip nHeight blockHash qc) := by
  unfold ProcessorEnv.processCommitment
  refine keeps_bind (keeps_lift _) fun _ => keeps_bind (keeps_lift _) fun _ => ?_
  split_ifs
  · exact keeps_lift _
  · refine keeps_bind (keeps_ask fun q hq => hq.hasMinedCommitment _) fun _ => ?_
    refine keeps_bind (keeps_lift _) fun _ => keeps_bind (keeps_lift _) fun _ => ?_
    refine keeps_bind (keeps_lift _) fun quorumIndex => keeps_bind (keeps_lift _) fun _ => ?_
    exact keeps_ask fun q hq =>
      hq.append [.write _ qc blockHash nHeight quorumIndex.nHeight, .forget] (by simp [MinedEvent.ofBlock]) rfl

/-- **Processing a block is a run of the parts.** -/
theorem reaches_processBlock [QuorumCrypto] (env : ProcessorEnv) (hash : UInt256)
    (vtx : List CTransaction) (pprev : CBlockIndex) (p : CQuorumBlockProcessor) :
    Reaches t committed p (env.processBlock hash vtx pprev p).2 := by
  have hkeeps : Keeps (Reaches t committed p) (env.processBlock hash vtx pprev) := by
    unfold ProcessorEnv.processBlock
    split_ifs
    · exact keeps_ask fun q hq => hq.writeBestBlock hash
    · refine keeps_bind (keeps_lift _) fun qcs => ?_
      refine keeps_bind (keeps_forEach (keeps_reaches_checkRequired qcs _ _) _) fun _ => ?_
      refine keeps_bind (keeps_forEach (keeps_reaches_processCommitment env _ _ _) _) fun _ => ?_
      exact keeps_ask fun q hq => hq.writeBestBlock hash
  exact hkeeps p (.refl p)

/-- **Between blocks the answers are those of the committed database** as long as no query gets in the
way of a block; a query that does can make a later answer wrong. -/
theorem coherent_of_permitted {db : QuorumDb} {events : List (MinedEvent T)}
    (h : Simulation.Throughout MinedThreads.step Permitted (start T db) events) :
    (Simulation.exec MinedThreads.step (start T db) events).Coherent ∧
      ∀ e, ¬ (Simulation.exec MinedThreads.step (start T db) events).Permitted e →
        ∃ more, ¬ (Simulation.exec MinedThreads.step (start T db) (events ++ e :: more)).Coherent := by
  have hsound : (Simulation.exec MinedThreads.step (start T db) events).Sound :=
    Simulation.exec_invariant (fun _ _ hs he => hs.step he) (sound_start db) h
  refine ⟨hsound.coherent, fun e he => ?_⟩
  obtain ⟨more, hmore⟩ := exists_incoherent hsound he
  refine ⟨more, ?_⟩
  rw [Simulation.exec_append]
  exact hmore

end MinedThreads

end

section

attribute [local instance] plainCrypto plainQuorumCrypto

def sampleKey : ParsedKey :=
  if h : (1 : CBLSPublicKey) = 0 then ⟨0, .inl rfl⟩ else ⟨1, .inr (bne_iff_ne.mpr h)⟩

/-- The first transaction has a null commitment of the quorum of the block `100`, the others have one
that two or three members signed. -/
def sampleCommitment (tx : CTransaction) : CFinalCommitment :=
  if tx.hash = 1 then
    { llmqType := .LLMQ_50_60, quorumHash := 100, signers := [false, false, false]
      validMembers := [false, false, false], quorumPublicKey := ⟨0, .inl rfl⟩, quorumVvecHash := 0
      quorumSig := 0, membersSig := 0 }
  else
    { llmqType := .LLMQ_50_60, quorumHash := 100, signers := [true, true, tx.hash == 2]
      validMembers := [true, true, true], quorumPublicKey := sampleKey, quorumVvecHash := 1
      quorumSig := 1, membersSig := 1 }

def sampleProcessor (dip0003Height : Int) (h : 0 < dip0003Height) : ProcessorEnv where
  chain :=
    { getTxPayload := fun tx => some { commitment := sampleCommitment tx }
      dip0003Height := dip0003Height
      dip0003Height_pos := h }
  llmqs := Network.llmqs .test
  llmqs_proper := proper_llmqs .test
  quorumMembers _ _ := List.replicate 3 { proTxHash := 1, collateralOutpoint := ⟨1, 0⟩ }

def commitmentBlockTx (hash : UInt256) : CTransaction :=
  { hash := hash, vin := [], vout := [], nVersion := 3, nType := TRANSACTION_QUORUM_COMMITMENT }

/-- The blocks `101` to `110` on the block `100`; the last one has a null commitment. -/
def sampleTip : CBlockIndex :=
  .block 110 [commitmentBlockTx 1]
    ((List.range 9).foldl (fun pprev i => .block (BitVec.ofNat 256 (101 + i)) [] pprev) (.genesis 100))

def activeProcessor : ProcessorEnv := sampleProcessor 1 (by decide)

/-- A block with a commitment is dropped; then it is asked for. -/
def askAfterwards : List (MinedEvent Bool) :=
  [.begin, .write (.LLMQ_50_60, 100) (sampleCommitment (commitmentBlockTx 2)) 111 11 0, .forget, .rollback,
    .hasStart true (.LLMQ_50_60, 100), .hasRead true, .hasStore true]

theorem coherent_of_permitted_askAfterwards :
    let s := Simulation.exec MinedThreads.step (.start Bool {}) askAfterwards
    s.processor.cached (.LLMQ_50_60, 100) = some false ∧ s.Coherent := by
  have hpermitted : Simulation.Throughout MinedThreads.step MinedThreads.Permitted (.start Bool {})
      askAfterwards := by
    refine ⟨trivial, trivial, fun _ _ _ _ hread => (by cases hread), fun _ key => .inr ⟨?_, nofun⟩,
      trivial, trivial, trivial, trivial⟩
    refine (FiniteMap.lookup_erase_eq _ _ _).trans ?_
    split_ifs <;> rfl
  exact ⟨by decide +kernel, (MinedThreads.coherent_of_permitted hpermitted).1⟩

/-- Another thread asks while the block is in process. -/
def askMeanwhile : List (MinedEvent Bool) :=
  [.begin, .write (.LLMQ_50_60, 100) (sampleCommitment (commitmentBlockTx 2)) 111 11 0, .forget,
    .writeBestBlock 111, .hasStart true (.LLMQ_50_60, 100), .hasRead true, .hasStore true, .rollback]

/-- The parts are those of a block that is accepted and only checked. Afterwards the commitment counts as
mined, and the database does not have it. -/
theorem askMeanwhile_incoherent :
    let s := Simulation.exec MinedThreads.step (.start Bool {}) askMeanwhile
    (activeProcessor.processBlock 111 [commitmentBlockTx 2] sampleTip {}).1.isOk = true ∧
      s.block = .idle ∧ s.hasMinedCommitment (.LLMQ_50_60, 100) = true ∧
      s.committedExists (.LLMQ_50_60, 100) = false := by
  decide +kernel

end

end RavenCash.Evo.Llmq
