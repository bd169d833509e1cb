import RavenCash.Basic.Primitives
import RavenCash.Lib.Ancestry
import RavenCash.Lib.FiniteMap
import RavenCash.Lib.Simulation

/-!
# ChainLocks

`CChainLocksHandler` (llmq/quorums_chainlocks.cpp) keeps the best ChainLock that it has seen and the block it is
for. A block is given by the hashes from it down to the genesis block, so that its ancestors are the suffixes.

`ProcessNewChainLock` compares the height of a new lock with that of the best one in one critical section, verifies
the signature, and stores the lock in another one. The second section only looks for a conflict with the block of the
best lock, which is none for a lock of another branch that is higher, nor for one of an ancestor. `Regressless` is
what one section has to keep, and `regressless_step_iff` says which sections keep it.
-/

set_option autoImplicit false

namespace RavenCash.Evo.Llmq

open Ancestry

/-- A `CBlockIndex*`: the hash of the block and those of its ancestors. -/
abbrev BlockPath := List UInt256

structure CChainLockSig (G : Type) where
  nHeight : Int := -1
  blockHash : UInt256 := 0
  sig : Option G := none

def CChainLockSig.isNull {G : Type} (clsig : CChainLockSig G) : Bool :=
  clsig.nHeight == -1 && clsig.blockHash == 0

/-- `VerifyRecoveredSig` for the height, the block and the signature of a lock. -/
def CChainLockSig.verified {G : Type} (clsig : CChainLockSig G) (verifyRecoveredSig : Int → UInt256 → Option G → Bool) :
    Bool :=
  verifyRecoveredSig clsig.nHeight clsig.blockHash clsig.sig

/-- The fields of the handler that decide which ChainLock is the best one. -/
structure CChainLocksHandler (G : Type) where
  isSporkActive : Bool := false
  isEnforced : Bool := false
  bestChainLockHash : UInt256 := 0
  bestChainLock : CChainLockSig G := {}
  bestChainLockWithKnownBlock : CChainLockSig G := {}
  bestChainLockBlockIndex : Option BlockPath := none
  lastNotifyChainLockBlockIndex : Option BlockPath := none
  seenChainLocks : FiniteMap UInt256 Int := ∅

variable {G : Type}

namespace CChainLocksHandler

/-- `InternalHasConflictingChainLock`. There is an ancestor of every height that is not negative, as the source
asserts. -/
def hasConflictingChainLock (c : CChainLocksHandler G) (nHeight : Int) (blockHash : UInt256) : Bool :=
  if !c.isEnforced then false
  else
    match c.bestChainLockBlockIndex with
    | none => false
    | some pindex =>
        if height pindex < nHeight then false
        else (ancestor pindex nHeight).all fun pAncestor => pAncestor.head? != some blockHash

/-- The first critical section of `ProcessNewChainLock`: whether the call goes on. -/
def testChainLock (c : CChainLocksHandler G) (clsig : CChainLockSig G) (hash : UInt256) (now : Int) :
    Bool × CChainLocksHandler G :=
  if (c.seenChainLocks.lookup hash).isSome then (false, c)
  else
    let c := { c with seenChainLocks := c.seenChainLocks.insert hash now }
    -- no need to process/relay older CLSIGs
    (!(!c.bestChainLock.isNull && decide (clsig.nHeight ≤ c.bestChainLock.nHeight)), c)

/-- The last critical section of `ProcessNewChainLock`; `find` looks a hash up in `mapBlockIndex`. -/
def updateChainLock (c : CChainLocksHandler G) (find : UInt256 → Option BlockPath)
    (clsig : CChainLockSig G) (hash : UInt256) : CChainLocksHandler G :=
  if c.hasConflictingChainLock clsig.nHeight clsig.blockHash then c
  else
    let c := { c with bestChainLockHash := hash, bestChainLock := clsig }
    match find clsig.blockHash with
    -- when the block or the header later comes in, we will enforce the correct chain
    | none => c
    | some pindex =>
        if height pindex ≠ clsig.nHeight then c
        else { c with bestChainLockWithKnownBlock := clsig, bestChainLockBlockIndex := some pindex }

def acceptedBlockHeader (c : CChainLocksHandler G) (pindexNew : BlockPath) : CChainLocksHandler G :=
  if pindexNew.head? = some c.bestChainLock.blockHash then
    if c.bestChainLock.nHeight ≠ height pindexNew then c
    else
      { c with
        bestChainLockWithKnownBlock := c.bestChainLock
        bestChainLockBlockIndex := some pindexNew }
  else c

/-- `CheckActiveState`, with what it finds of the spork and of the enforcement. -/
def checkActiveState (c : CChainLocksHandler G) (sporkActive enforced : Bool) : CChainLocksHandler G :=
  let c' := { c with isSporkActive := sporkActive, isEnforced := enforced }
  if !c.isEnforced && enforced then
    -- ChainLocks got activated just recently, but it's possible that it was already running before, leaving
    -- us with some stale values which we should not try to enforce anymore
    { c' with
      bestChainLockHash := 0
      bestChainLock := {}
      bestChainLockWithKnownBlock := {}
      bestChainLockBlockIndex := none
      lastNotifyChainLockBlockIndex := none }
  else c'

end CChainLocksHandler

/-! ## Threads -/

/-- The handler, the block index and the calls of `ProcessNewChainLock` that are between their two sections, by
thread. -/
structure ChainLockThreads (G : Type) where
  handler : CChainLocksHandler G := {}
  mapBlockIndex : FiniteMap UInt256 BlockPath := ∅
  calls : FiniteMap Nat (CChainLockSig G × UInt256) := ∅

namespace ChainLockThreads

inductive Op (G : Type)
  /-- a thread enters `ProcessNewChainLock` -/
  | test (thread : Nat) (clsig : CChainLockSig G) (hash : UInt256) (now : Int)
  /-- a thread verifies the signature and goes through the last section -/
  | update (thread : Nat)
  /-- `AcceptBlockHeader`, for a header that is right but for a conflict with a ChainLock -/
  | acceptBlockHeader (hash hashPrevBlock : UInt256)
  | checkActiveState (sporkActive enforced : Bool)

/-- One section of a thread. -/
def step (verifyRecoveredSig : Int → UInt256 → Option G → Bool) (s : ChainLockThreads G) : Op G → ChainLockThreads G
  | .test thread clsig hash now =>
      -- a thread is in one call at a time
      if (s.calls.lookup thread).isSome then s
      else
        match s.handler.testChainLock clsig hash now with
        | (false, c) => { s with handler := c }
        | (true, c) => { s with handler := c, calls := s.calls.insert thread (clsig, hash) }
  | .update thread =>
      match s.calls.lookup thread with
      | none => s
      | some (clsig, hash) =>
          { s with
            handler :=
              if clsig.verified verifyRecoveredSig then
                s.handler.updateChainLock (s.mapBlockIndex.lookup ·) clsig hash
              else s.handler
            calls := s.calls.erase thread }
  | .acceptBlockHeader hash hashPrevBlock =>
      match s.mapBlockIndex.lookup hash, s.mapBlockIndex.lookup hashPrevBlock with
      | none, some pindexPrev =>
          { s with
            mapBlockIndex := s.mapBlockIndex.insert hash (hash :: pindexPrev)
            handler :=
              if s.handler.hasConflictingChainLock (height pindexPrev + 1) hash then s.handler
              else s.handler.acceptedBlockHeader (hash :: pindexPrev) }
      | _, _ => s
  | .checkActiveState sporkActive enforced => { s with handler := s.handler.checkActiveState sporkActive enforced }

/-- From one state to the next the height of the best ChainLock does not decrease, and its block, if there is one,
only moves to a descendant. -/
def Regressless (c c' : CChainLocksHandler G) : Prop :=
  c.bestChainLock.nHeight ≤ c'.bestChainLock.nHeight ∧
    ∀ pindex, c.bestChainLockBlockIndex = some pindex →
      ∃ pindex', c'.bestChainLockBlockIndex = some pindex' ∧ pindex <:+ pindex'

/-- The block that becomes the one of the best ChainLock descends from the one before. -/
def Extends (c : CChainLocksHandler G) (pindexNew : BlockPath) : Prop :=
  ∀ pindex, c.bestChainLockBlockIndex = some pindex → pindex <:+ pindexNew

/-- **The condition on a section.** A lock that is stored is not lower than the best one, and its block, if it is
known, descends from the block of the best one; so does the block of a header that the best lock waits for. -/
def Permitted (verifyRecoveredSig : Int → UInt256 → Option G → Bool) (s : ChainLockThreads G) : Op G → Prop
  | .update thread => ∀ clsig hash, s.calls.lookup thread = some (clsig, hash) →
      clsig.verified verifyRecoveredSig = true →
      s.handler.hasConflictingChainLock clsig.nHeight clsig.blockHash = true ∨
      s.handler.bestChainLock.nHeight ≤ clsig.nHeight ∧
        ∀ pindex, s.mapBlockIndex.lookup clsig.blockHash = some pindex → height pindex = clsig.nHeight →
          Extends s.handler pindex
  | .acceptBlockHeader hash hashPrevBlock =>
      s.mapBlockIndex.lookup hash = none → ∀ pindexPrev, s.mapBlockIndex.lookup hashPrevBlock = some pindexPrev →
        s.handler.bestChainLock.blockHash = hash → s.handler.bestChainLock.nHeight = height pindexPrev + 1 →
        s.handler.hasConflictingChainLock (height pindexPrev + 1) hash = true ∨
          Extends s.handler (hash :: pindexPrev)
  | _ => True

theorem Regressless.refl (c : CChainLocksHandler G) : Regressless c c :=
  ⟨le_rfl, fun pindex h => ⟨pindex, h, List.suffix_rfl⟩⟩

/-- A new block is the only change. -/
theorem regressless_setIndex {c c' : CChainLocksHandler G} {pindexNew : BlockPath}
    (hheight : c.bestChainLock.nHeight ≤ c'.bestChainLock.nHeight)
    (hindex : c'.bestChainLockBlockIndex = some pindexNew) : Regressless c c' ↔ Extends c pindexNew := by
  unfold Regressless Extends
  rw [and_iff_right hheight, hindex]
  refine forall₂_congr fun pindex _ => ?_
  exact ⟨fun ⟨_, heq, hsuffix⟩ => Option.some.inj heq ▸ hsuffix, fun hsuffix => ⟨pindexNew, rfl, hsuffix⟩⟩

theorem bestChainLock_updateChainLock {c : CChainLocksHandler G} {clsig : CChainLockSig G}
    (hconflict : ¬ c.hasConflictingChainLock clsig.nHeight clsig.blockHash = true)
    (find : UInt256 → Option BlockPath) (hash : UInt256) :
    (c.updateChainLock find clsig hash).bestChainLock = clsig := by
  unfold CChainLocksHandler.updateChainLock
  rw [if_neg hconflict]
  dsimp only
  split
  · rfl
  · split_ifs <;> rfl

/-- **The last section of a call.** -/
theorem regressless_updateChainLock_iff (c : CChainLocksHandler G) (find : UInt256 → Option BlockPath)
    (clsig : CChainLockSig G) (hash : UInt256) :
    Regressless c (c.updateChainLock find clsig hash) ↔
      c.hasConflictingChainLock clsig.nHeight clsig.blockHash = true ∨
      c.bestChainLock.nHeight ≤ clsig.nHeight ∧
        ∀ pindex, find clsig.blockHash = some pindex → height pindex = clsig.nHeight → Extends c pindex := by
  by_cases hconflict : c.hasConflictingChainLock clsig.nHeight clsig.blockHash = true
  · unfold CChainLocksHandler.updateChainLock
    rw [if_pos hconflict]
    exact iff_of_true (.refl c) (.inl hconflict)
  rw [or_iff_right hconflict]
  have hbest := bestChainLock_updateChainLock hconflict find hash
  by_cases hheight : c.bestChainLock.nHeight ≤ clsig.nHeight
  swap
  · -- a lower lock becomes the best one whether its block is known or not
    refine iff_of_false (fun h => hheight ?_) fun h => hheight h.1
    exact hbest ▸ h.1
  rw [and_iff_right hheight]
  unfold CChainLocksHandler.updateChainLock
  rw [if_neg hconflict]
  dsimp only
  rcases find clsig.blockHash with _ | pindex
  · exact iff_of_true ⟨hheight, fun pindex h => ⟨pindex, h, List.suffix_rfl⟩⟩ nofun
  · dsimp only
    by_cases hmatch : height pindex = clsig.nHeight
    · rw [if_neg (not_not.mpr hmatch), regressless_setIndex hheight rfl]
      exact ⟨fun h pindex' heq _ => Option.some.inj heq ▸ h, fun h => h pindex rfl hmatch⟩
    · rw [if_pos hmatch]
      refine iff_of_true ⟨hheight, fun pindex h => ⟨pindex, h, List.suffix_rfl⟩⟩ fun pindex' heq hmatch' => ?_
      exact absurd (Option.some.inj heq ▸ hmatch') hmatch

theorem regressless_acceptedBlockHeader_iff (c : CChainLocksHandler G) (hash : UInt256) (pindexPrev : BlockPath) :
    Regressless c (c.acceptedBlockHeader (hash :: pindexPrev)) ↔
      (c.bestChainLock.blockHash = hash → c.bestChainLock.nHeight = height pindexPrev + 1 →
        Extends c (hash :: pindexPrev)) := by
  unfold CChainLocksHandler.acceptedBlockHeader
  rw [List.head?_cons, height_cons]
  by_cases hhash : c.bestChainLock.blockHash = hash
  · rw [if_pos (congrArg some hhash.symm)]
    by_cases hheight : c.bestChainLock.nHeight = height pindexPrev + 1
    · rw [if_neg (not_not.mpr hheight)]
      refine (regressless_setIndex (by exact le_rfl) rfl).trans ?_
      exact ⟨fun h _ _ => h, fun h => h hhash hheight⟩
    · rw [if_pos hheight]
      exact iff_of_true (.refl c) fun _ h => absurd h hheight
  · rw [if_neg fun h => hhash (Option.some.inj h).symm]
    exact iff_of_true (.refl c) fun h => absurd h hhash

/-- What `CheckActiveState` forgets, it forgets when the enforcement begins. -/
theorem regressless_checkActiveState (c : CChainLocksHandler G) (sporkActive enforced : Bool)
    (h : c.isEnforced = true) : Regressless c (c.checkActiveState sporkActive enforced) := by
  unfold CChainLocksHandler.checkActiveState
  dsimp only
  rw [h]
  exact ⟨le_rfl, fun pindex hindex => ⟨pindex, hindex, List.suffix_rfl⟩⟩

theorem regressless_step_iff (verifyRecoveredSig : Int → UInt256 → Option G → Bool) (s : ChainLockThreads G) (op : Op G)
    (henforced : s.handler.isEnforced = true) :
    Regressless s.handler (step verifyRecoveredSig s op).handler ↔ Permitted verifyRecoveredSig s op := by
  cases op with
  | test thread clsig hash now =>
    refine iff_of_true ?_ trivial
    unfold step CChainLocksHandler.testChainLock
    dsimp only
    split_ifs
    · exact .refl _
    · exact .refl _
    · split <;> rename_i heq <;> obtain ⟨-, rfl⟩ := Prod.mk.inj heq <;> exact .refl _
  | update thread =>
    unfold step Permitted
    dsimp only
    rcases s.calls.lookup thread with _ | ⟨clsig, hash⟩
    · exact iff_of_true (.refl _) nofun
    · dsimp only
      by_cases hsig : clsig.verified verifyRecoveredSig = true
      · rw [if_pos hsig, regressless_updateChainLock_iff]
        constructor
        · rintro h clsig' hash' heq -
          obtain ⟨rfl, rfl⟩ := Prod.mk.inj (Option.some.inj heq)
          exact h
        · exact fun h => h clsig hash rfl hsig
      · rw [if_neg hsig]
        refine iff_of_true (.refl _) fun clsig' hash' heq hsig' => ?_
        obtain ⟨rfl, rfl⟩ := Prod.mk.inj (Option.some.inj heq)
        exact absurd hsig' hsig
  | acceptBlockHeader hash hashPrevBlock =>
    unfold step Permitted
    dsimp only
    rcases s.mapBlockIndex.lookup hash with _ | known
    · rcases s.mapBlockIndex.lookup hashPrevBlock with _ | pindexPrev
      · exact iff_of_true (.refl _) nofun
      · dsimp only
        by_cases hconflict : s.handler.hasConflictingChainLock (height pindexPrev + 1) hash = true
        · rw [if_pos hconflict]
          refine iff_of_true (.refl _) ?_
          rintro - pindexPrev' heq - -
          obtain rfl := Option.some.inj heq
          exact .inl hconflict
        · rw [if_neg hconflict, regressless_acceptedBlockHeader_iff]
          constructor
          · rintro h - pindexPrev' heq hhash hheight
            obtain rfl := Option.some.inj heq
            exact .inr (h hhash hheight)
          · exact fun h hhash hheight => (h rfl pindexPrev rfl hhash hheight).resolve_left hconflict
    · exact iff_of_true (.refl _) nofun
  | checkActiveState sporkActive enforced =>
    exact iff_of_true (regressless_checkActiveState _ sporkActive enforced henforced) trivial

/-- **The best ChainLock over whole interleavings.** While ChainLocks are enforced, no section lowers the best
ChainLock or moves its block to one that is no descendant, if and only if every section meets its condition. -/
theorem regressless_throughout_iff {G : Type} (verifyRecoveredSig : Int → UInt256 → Option G → Bool)
    (s : ChainLockThreads G)
    (ops : List (Op G)) :
    (∀ before op after, ops = before ++ op :: after →
      (Simulation.exec (step verifyRecoveredSig) s before).handler.isEnforced = true →
      Regressless (Simulation.exec (step verifyRecoveredSig) s before).handler
        (Simulation.exec (step verifyRecoveredSig) s (before ++ [op])).handler) ↔
    Simulation.Throughout (step verifyRecoveredSig)
      (fun s op => s.handler.isEnforced = true → Permitted verifyRecoveredSig s op) s ops := by
  rw [Simulation.throughout_iff]
  refine forall₃_congr fun before op after => forall_congr' fun _ => forall_congr' fun henforced => ?_
  rw [Simulation.exec_append]
  exact regressless_step_iff verifyRecoveredSig _ op henforced

/-- The blocks 2, 3 on the genesis block 1 and the fork 4, 5, 6. -/
def forkedIndex : ChainLockThreads Unit where
  handler := { isEnforced := true }
  mapBlockIndex := [[1], [2, 1], [3, 2, 1], [4, 1], [5, 4, 1], [6, 5, 4, 1]].foldl
    (fun index pindex => index.insert (pindex.headD 0) pindex) (∅ : FiniteMap UInt256 BlockPath)

/-- Two threads have passed the test of the height when the higher lock is stored first: the lower one replaces it and
the block moves to an ancestor. Without any overlap, a lock of a higher block of another branch is taken. -/
theorem overtaken_lock_regresses :
    let early : CChainLockSig Unit := { nHeight := 1, blockHash := 2 }
    let late : CChainLockSig Unit := { nHeight := 2, blockHash := 3 }
    let other : CChainLockSig Unit := { nHeight := 3, blockHash := 6 }
    let before := Simulation.exec (step fun _ _ _ => true) forkedIndex [.test 0 early 10 0, .test 1 late 11 0,
        .update 1]
    let after := step (fun _ _ _ => true) before (.update 0)
    let forked := Simulation.exec (step fun _ _ _ => true) before [.test 1 other 12 0, .update 1]
    (before.handler.bestChainLock.nHeight = 2 ∧ before.handler.bestChainLockBlockIndex = some [3, 2, 1]) ∧
      (after.handler.bestChainLock.nHeight = 1 ∧ after.handler.bestChainLockBlockIndex = some [2, 1]) ∧
      forked.handler.bestChainLockBlockIndex = some [6, 5, 4, 1] := by
  decide +kernel

end ChainLockThreads

end RavenCash.Evo.Llmq
