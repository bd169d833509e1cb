import RavenCash.Lib.Simulation
import RavenCash.Llmq.Commitment

/-!
# The transactions that are not locked

`CInstantSendManager` (llmq/quorums_instantsend.cpp) tracks the transactions that are neither locked by
InstantSend nor by a ChainLock. An entry holds the transaction, the block it was mined in and the tracked
transactions that spend its outputs; an entry may also be there for its children alone. A second map leads from
a spent outpoint to the transaction that spends it, and with it `ResolveBlockConflicts` finds what conflicts
with a new lock.

The second map is filled only when the entry is new. A transaction that comes after one of its children finds an
entry and is left out of it, and a removed transaction leaves its children without their parent's entry: these
are the two ways out of `Tracking` (`tracking_throughout_iff`).
-/

set_option autoImplicit false

namespace RavenCash.Evo.Llmq

/-- `sig` is the signature as a point; `none` if the bytes are none. -/
structure CInstantSendLock (G : Type) where
  inputs : List COutPoint
  txid : UInt256
  sig : Option G

structure NonLockedTxInfo (B : Type) where
  pindexMined : Option B := none
  tx : Option CTransaction := none
  children : Finset UInt256 := ∅

/-- The fields of `CInstantSendManager` that the tracking uses; `B` stands for the pointers to blocks. -/
structure NonLockedTxs (B : Type) where
  nonLockedTxs : FiniteMap UInt256 (NonLockedTxInfo B) := ∅
  nonLockedTxsByOutpoints : FiniteMap COutPoint UInt256 := ∅
  pendingRetryTxs : Finset UInt256 := ∅
  inputRequestIds : Finset UInt256 := ∅

/-- The outpoints that a transaction spends. -/
def prevouts (tx : CTransaction) : List COutPoint := tx.vin.map CTxIn.prevout

/-- The transactions whose outputs it spends. -/
def parents (tx : CTransaction) : List UInt256 := (prevouts tx).map COutPoint.hash

variable {B : Type}

namespace NonLockedTxs

/-! ## The code -/

/-- `nonLockedTxs[parent].children.emplace(child)` -/
def addChild (child : UInt256) (txs : FiniteMap UInt256 (NonLockedTxInfo B)) (parent : UInt256) :
    FiniteMap UInt256 (NonLockedTxInfo B) :=
  let info := (txs.lookup parent).getD {}
  txs.insert parent { info with children := insert child info.children }

def addNonLockedTx (d : NonLockedTxs B) (tx : CTransaction) (pindexMined : Option B) : NonLockedTxs B :=
  let found := d.nonLockedTxs.lookup tx.hash
  let info := { found.getD {} with pindexMined := pindexMined }
  { d with
    nonLockedTxs :=
      if info.tx.isNone then
        (parents tx).foldl (addChild tx.hash) (d.nonLockedTxs.insert tx.hash { info with tx := some tx })
      else d.nonLockedTxs.insert tx.hash info
    nonLockedTxsByOutpoints :=
      if found.isNone then
        (prevouts tx).foldl (fun outs out => outs.emplace out tx.hash) d.nonLockedTxsByOutpoints
      else d.nonLockedTxsByOutpoints }

/-- The entry of a parent loses a child, and goes if it was there for this child only. -/
def removeChild (child : UInt256) (txs : FiniteMap UInt256 (NonLockedTxInfo B)) (parent : UInt256) :
    FiniteMap UInt256 (NonLockedTxInfo B) :=
  match txs.lookup parent with
  | none => txs
  | some info =>
      if info.tx = none ∧ info.children.erase child = ∅ then txs.erase parent
      else txs.insert parent { info with children := info.children.erase child }

def removeNonLockedTx (d : NonLockedTxs B) (txid : UInt256) (retryChildren : Bool) : NonLockedTxs B :=
  match d.nonLockedTxs.lookup txid with
  | none => d
  | some info =>
      { d with
        -- TX got locked, so we can retry locking children
        pendingRetryTxs := if retryChildren then d.pendingRetryTxs ∪ info.children else d.pendingRetryTxs
        nonLockedTxs := ((info.tx.elim [] parents).foldl (removeChild txid) d.nonLockedTxs).erase txid
        nonLockedTxsByOutpoints := d.nonLockedTxsByOutpoints.eraseAll (info.tx.elim [] prevouts) }

/-- `requestId` is the hash of the prefix `inlock` with the input. -/
def removeConflictedTx (requestId : CTxIn → UInt256) (d : NonLockedTxs B) (tx : CTransaction) : NonLockedTxs B :=
  let d := d.removeNonLockedTx tx.hash false
  { d with inputRequestIds := tx.vin.foldl (fun ids txin => ids.erase (requestId txin)) d.inputRequestIds }

/-- What the loop of `ResolveBlockConflicts` finds for one input of the lock: the block, the identifier and the
transaction. -/
def conflictAt (d : NonLockedTxs B) (txid : UInt256) (out : COutPoint) : Option (B × UInt256 × CTransaction) :=
  match d.nonLockedTxsByOutpoints.lookup out with
  | none => none
  | some conflictTxid =>
      if conflictTxid = txid then none
      else
        match d.nonLockedTxs.lookup conflictTxid with
        | none => none
        | some info =>
            match info.pindexMined, info.tx with
            | some pindexMined, some tx => some (pindexMined, conflictTxid, tx)
            | _, _ => none

section

variable [DecidableEq B]

/-- `conflicts[pindexMined].emplace(conflictTxid, tx)` -/
def addConflict (conflicts : FiniteMap B (FiniteMap UInt256 CTransaction)) (c : B × UInt256 × CTransaction) :
    FiniteMap B (FiniteMap UInt256 CTransaction) :=
  conflicts.insert c.1 (((conflicts.lookup c.1).getD ∅).emplace c.2.1 c.2.2)

/-- All non-locked TXs which conflict with the given ISLOCK, by the block they were mined in. -/
def conflicts (d : NonLockedTxs B) (txid : UInt256) (inputs : List COutPoint) :
    FiniteMap B (FiniteMap UInt256 CTransaction) :=
  (inputs.filterMap (d.conflictAt txid)).foldl addConflict ∅

/-- What becomes of a lock in `ResolveBlockConflicts`. -/
inductive Resolution (B : Type)
  /-- a conflict has a ChainLock, `RemoveChainLockConflictingLock` is called -/
  | removeLock
  /-- the blocks are invalidated, and the best chain is activated if there are any -/
  | invalidate (blocks : List B)

/-- `ResolveBlockConflicts`; the blocks and the transactions of a block come in some order. -/
def resolveBlockConflicts {G : Type} (requestId : CTxIn → UInt256) (blockOrder : B ↪ Nat) (txOrder : UInt256 ↪ Nat)
    (hasChainLock : B → Bool) (d : NonLockedTxs B) (islock : CInstantSendLock G) :
    Resolution B × NonLockedTxs B :=
  let found := (d.conflicts islock.txid islock.inputs).toList blockOrder
  if found.any fun p => hasChainLock p.1 then (.removeLock, d)
  else
    (.invalidate (found.map Sigma.fst),
      found.foldl (fun d p => (p.2.values txOrder).foldl (removeConflictedTx requestId) d) d)

end

inductive Op (B : Type)
  | addNonLockedTx (tx : CTransaction) (pindexMined : Option B)
  | removeNonLockedTx (txid : UInt256) (retryChildren : Bool)
  | removeConflictedTx (tx : CTransaction)

def step (requestId : CTxIn → UInt256) (d : NonLockedTxs B) : Op B → NonLockedTxs B
  | .addNonLockedTx tx pindexMined => d.addNonLockedTx tx pindexMined
  | .removeNonLockedTx txid retryChildren => d.removeNonLockedTx txid retryChildren
  | .removeConflictedTx tx => d.removeConflictedTx requestId tx

/-! ## What is tracked -/

/-- The tracked transaction with the identifier. -/
def txAt (d : NonLockedTxs B) (id : UInt256) : Option CTransaction :=
  (d.nonLockedTxs.lookup id).bind NonLockedTxInfo.tx

def childrenAt (d : NonLockedTxs B) (id : UInt256) : Finset UInt256 :=
  (d.nonLockedTxs.lookup id).elim ∅ NonLockedTxInfo.children

/-- An outpoint leads to the tracked transaction that spends it and the children of an entry are the tracked
transactions that spend an output of it, and nothing else is recorded; so every tracked transaction that was
mined and conflicts with a lock is found. -/
structure Tracking [DecidableEq B] (d : NonLockedTxs B) : Prop where
  hash : ∀ id tx, d.txAt id = some tx → tx.hash = id
  outpoints : ∀ out id, d.nonLockedTxsByOutpoints.lookup out = some id ↔
    ∃ tx, d.txAt id = some tx ∧ out ∈ prevouts tx
  children : ∀ parent child, child ∈ d.childrenAt parent ↔ ∃ tx, d.txAt child = some tx ∧ parent ∈ parents tx
  placeholders : ∀ id, id ∈ d.nonLockedTxs → d.txAt id = none → d.childrenAt id ≠ ∅
  conflicts : ∀ txid inputs id info pindexMined tx, d.nonLockedTxs.lookup id = some info →
    info.pindexMined = some pindexMined → info.tx = some tx → id ≠ txid → (∃ out ∈ inputs, out ∈ prevouts tx) →
    ((d.conflicts txid inputs).lookup pindexMined).bind (fun m => m.lookup id) = some tx

/-- **The condition on a step.** A transaction with inputs is added before its children and when no tracked
transaction has an input of it, and one is removed only after its children. -/
def Permitted (d : NonLockedTxs B) : Op B → Prop
  | .addNonLockedTx tx _ =>
      (d.txAt tx.hash).isSome = true ∨ tx.vin = [] ∨
      ∀ other otherTx, d.txAt other = some otherTx →
        tx.hash ∉ parents otherTx ∧ ∀ out ∈ prevouts tx, out ∉ prevouts otherTx
  | .removeNonLockedTx txid _ =>
      ∀ other otherTx, d.txAt other = some otherTx → other ≠ txid → txid ∉ parents otherTx
  | .removeConflictedTx tx =>
      ∀ other otherTx, d.txAt other = some otherTx → other ≠ tx.hash → tx.hash ∉ parents otherTx

/-! ## The entries after each loop -/

variable {d : NonLockedTxs B}

theorem lookup_foldl_addChild (child : UInt256) (l : List UInt256) (txs : FiniteMap UInt256 (NonLockedTxInfo B))
    (id : UInt256) :
    (l.foldl (addChild child) txs).lookup id =
      if id ∈ l then some { (txs.lookup id).getD {} with
        children := insert child ((txs.lookup id).getD {}).children } else txs.lookup id := by
  induction l generalizing txs with
  | nil => rfl
  | cons a l ih =>
    rw [List.foldl_cons, ih]
    unfold addChild
    rw [FiniteMap.lookup_assign]
    by_cases hid : id = a
    · -- a parent that comes again gets nothing new
      subst hid
      rw [if_pos rfl, if_pos List.mem_cons_self, Option.getD_some, Finset.insert_idem, ite_self]
    · rw [if_neg hid]
      exact if_congr (by rw [List.mem_cons, or_iff_right hid]) rfl rfl

/-- What `removeChild` leaves of an entry. -/
def withoutChild (child : UInt256) (info : NonLockedTxInfo B) : Option (NonLockedTxInfo B) :=
  if info.tx = none ∧ info.children.erase child = ∅ then none
  else some { info with children := info.children.erase child }

theorem lookup_foldl_removeChild (child : UInt256) (l : List UInt256)
    (txs : FiniteMap UInt256 (NonLockedTxInfo B)) (id : UInt256) :
    (l.foldl (removeChild child) txs).lookup id =
      if id ∈ l then (txs.lookup id).bind (withoutChild child) else txs.lookup id := by
  have hone : ∀ (txs : FiniteMap UInt256 (NonLockedTxInfo B)) (parent id : UInt256),
      (removeChild child txs parent).lookup id =
        if id = parent then (txs.lookup parent).bind (withoutChild child) else txs.lookup id := by
    intro txs parent id
    unfold removeChild
    rcases hparent : txs.lookup parent with _ | info
    · split_ifs with hid
      · rw [hid, hparent]
        rfl
      · rfl
    · dsimp only [Option.bind_some, withoutChild]
      split_ifs with hempty hid hid
      · rw [FiniteMap.lookup_erase_eq, if_pos hid]
      · rw [FiniteMap.lookup_erase_eq, if_neg hid]
      · rw [FiniteMap.lookup_assign, if_pos hid]
      · rw [FiniteMap.lookup_assign, if_neg hid]
  have htwice : ∀ info : NonLockedTxInfo B,
      (withoutChild child info).bind (withoutChild child) = withoutChild child info := by
    intro info
    unfold withoutChild
    split_ifs with hempty
    · rfl
    · rw [Option.bind_some, Finset.erase_idem, if_neg hempty]
  induction l generalizing txs with
  | nil => rfl
  | cons a l ih =>
    rw [List.foldl_cons, ih, hone]
    by_cases hid : id = a
    · subst hid
      rw [if_pos rfl, if_pos List.mem_cons_self, Option.bind_assoc]
      split_ifs
      · exact Option.bind_congr fun info _ => htwice info
      · rfl
    · rw [if_neg hid]
      exact if_congr (by rw [List.mem_cons, or_iff_right hid]) rfl rfl

/-! ## The conflicts of a lock -/

section Conflicts

variable [DecidableEq B]

/-- The transaction that is recorded as a conflict. -/
def conflictTx (found : FiniteMap B (FiniteMap UInt256 CTransaction)) (pindexMined : B) (id : UInt256) :
    Option CTransaction :=
  (found.lookup pindexMined).bind fun m => m.lookup id

theorem conflictTx_addConflict (found : FiniteMap B (FiniteMap UInt256 CTransaction))
    (c : B × UInt256 × CTransaction) (pindexMined : B) (id : UInt256) :
    conflictTx (addConflict found c) pindexMined id =
      if pindexMined = c.1 ∧ id = c.2.1 then (conflictTx found pindexMined id).or (some c.2.2)
      else conflictTx found pindexMined id := by
  unfold conflictTx addConflict
  rw [FiniteMap.lookup_assign]
  by_cases hblock : pindexMined = c.1
  · subst hblock
    rw [if_pos rfl, Option.bind_some, FiniteMap.lookup_emplace]
    have hempty : ∀ id, ((found.lookup c.1).getD ∅).lookup id = (found.lookup c.1).bind fun m => m.lookup id := by
      intro id
      cases found.lookup c.1 <;> rfl
    rw [hempty, hempty]
    by_cases hid : id = c.2.1
    · rw [if_pos hid, if_pos ⟨rfl, hid⟩, hid]
    · rw [if_neg hid, if_neg fun h => hid h.2]
  · rw [if_neg hblock, if_neg fun h => hblock h.1]

/-- Conflicts that agree on each identifier are all recorded. -/
theorem conflictTx_foldl (l : List (B × UInt256 × CTransaction)) (txOf : UInt256 → Option CTransaction)
    (hl : ∀ c ∈ l, txOf c.2.1 = some c.2.2) (found : FiniteMap B (FiniteMap UInt256 CTransaction))
    (hfound : ∀ b id tx, conflictTx found b id = some tx → txOf id = some tx) {c : B × UInt256 × CTransaction}
    (hc : c ∈ l ∨ conflictTx found c.1 c.2.1 = some c.2.2) :
    conflictTx (l.foldl addConflict found) c.1 c.2.1 = some c.2.2 := by
  induction l generalizing found with
  | nil => exact hc.resolve_left List.not_mem_nil
  | cons a l ih =>
    obtain ⟨ha, hl⟩ := List.forall_mem_cons.mp hl
    refine ih hl _ (fun b id tx htx => ?_) ?_
    · rw [conflictTx_addConflict] at htx
      split_ifs at htx with hkey
      · rcases Option.or_eq_some_iff.mp htx with hold | ⟨-, hnew⟩
        · exact hfound b id tx hold
        · rw [hkey.2, ha, hnew]
      · exact hfound b id tx htx
    · rw [conflictTx_addConflict]
      rcases hc with hc | hc
      · rcases List.mem_cons.mp hc with rfl | hmem
        · refine .inr ?_
          rw [if_pos ⟨rfl, rfl⟩]
          rcases hold : conflictTx found c.1 c.2.1 with _ | tx
          · rfl
          · exact (hfound _ _ tx hold).symm.trans ha
        · exact .inl hmem
      · refine .inr ?_
        rw [hc, Option.some_or, ite_self]

end Conflicts

/-- `Tracking` without the conflicts, which follow. -/
structure Links (d : NonLockedTxs B) : Prop where
  hash : ∀ id tx, d.txAt id = some tx → tx.hash = id
  outpoints : ∀ out id, d.nonLockedTxsByOutpoints.lookup out = some id ↔
    ∃ tx, d.txAt id = some tx ∧ out ∈ prevouts tx
  children : ∀ parent child, child ∈ d.childrenAt parent ↔ ∃ tx, d.txAt child = some tx ∧ parent ∈ parents tx
  placeholders : ∀ id, id ∈ d.nonLockedTxs → d.txAt id = none → d.childrenAt id ≠ ∅

theorem txAt_of_lookup {id : UInt256} {info : NonLockedTxInfo B} (h : d.nonLockedTxs.lookup id = some info) :
    d.txAt id = info.tx := by
  unfold txAt
  rw [h]
  rfl

theorem txAt_of_conflictAt {txid : UInt256} {out : COutPoint} {c : B × UInt256 × CTransaction}
    (h : d.conflictAt txid out = some c) : d.txAt c.2.1 = some c.2.2 := by
  unfold conflictAt at h
  split at h
  · cases h
  split_ifs at h
  split at h
  · cases h
  split at h
  · rename_i hlookup _ _ _ tx _ htx
    obtain rfl := Option.some.inj h
    rw [txAt_of_lookup hlookup, htx]
  · cases h

theorem Links.conflictAt (h : Links d) {txid id : UInt256} {info : NonLockedTxInfo B} {pindexMined : B}
    {tx : CTransaction} {out : COutPoint} (hlookup : d.nonLockedTxs.lookup id = some info)
    (hmined : info.pindexMined = some pindexMined) (htx : info.tx = some tx) (hid : id ≠ txid)
    (hout : out ∈ prevouts tx) : d.conflictAt txid out = some (pindexMined, id, tx) := by
  have hentry := (h.outpoints out id).mpr ⟨tx, (txAt_of_lookup hlookup).trans htx, hout⟩
  unfold NonLockedTxs.conflictAt
  rw [hentry]
  dsimp only
  rw [if_neg hid, hlookup]
  dsimp only
  rw [hmined, htx]

theorem tracking_iff [DecidableEq B] : Tracking d ↔ Links d := by
  refine ⟨fun h => ⟨h.hash, h.outpoints, h.children, h.placeholders⟩, fun h => ?_⟩
  refine ⟨h.hash, h.outpoints, h.children, h.placeholders, ?_⟩
  rintro txid inputs id info pindexMined tx hlookup hmined htx hid ⟨out, hinput, hout⟩
  refine conflictTx_foldl _ d.txAt (fun c hc => ?_) ∅ (fun b id tx htx => (by cases htx)) (.inl ?_)
    (c := (pindexMined, id, tx))
  · obtain ⟨out, -, hfound⟩ := List.mem_filterMap.mp hc
    exact txAt_of_conflictAt hfound
  · exact List.mem_filterMap.mpr ⟨out, hinput, h.conflictAt hlookup hmined htx hid hout⟩

/-! ## A transaction is added -/

section Add

variable {tx : CTransaction} (pindexMined : Option B)

/-- A tracked transaction only gets its block. -/
theorem addNonLockedTx_of_tracked (h : (d.txAt tx.hash).isSome = true) :
    (∀ id, (d.addNonLockedTx tx pindexMined).txAt id = d.txAt id) ∧
    (∀ id, (d.addNonLockedTx tx pindexMined).childrenAt id = d.childrenAt id) ∧
    (∀ id, id ∈ (d.addNonLockedTx tx pindexMined).nonLockedTxs → id ∈ d.nonLockedTxs) ∧
    (d.addNonLockedTx tx pindexMined).nonLockedTxsByOutpoints = d.nonLockedTxsByOutpoints := by
  obtain ⟨stored, hstored⟩ := Option.isSome_iff_exists.mp h
  obtain ⟨info, hinfo, htx⟩ := Option.bind_eq_some_iff.mp hstored
  have hlookup : ∀ id, (d.addNonLockedTx tx pindexMined).nonLockedTxs.lookup id =
      if id = tx.hash then some { info with pindexMined := pindexMined } else d.nonLockedTxs.lookup id := by
    intro id
    unfold addNonLockedTx
    dsimp only
    rw [hinfo, Option.getD_some, htx, Option.isNone_some, if_neg Bool.false_ne_true, FiniteMap.lookup_assign]
  refine ⟨fun id => ?_, fun id => ?_, fun id hid => ?_, ?_⟩
  · unfold txAt
    rw [hlookup]
    split_ifs with hid
    · rw [hid, hinfo]
      rfl
    · rfl
  · unfold childrenAt
    rw [hlookup]
    split_ifs with hid
    · rw [hid, hinfo]
      rfl
    · rfl
  · rw [← Finmap.lookup_isSome, hlookup] at hid
    rw [← Finmap.lookup_isSome]
    split_ifs at hid with hid'
    · rw [hid', hinfo]
      rfl
    · exact hid
  · unfold addNonLockedTx
    dsimp only
    rw [hinfo, Option.isNone_some, if_neg Bool.false_ne_true]

/-- A transaction that was not tracked becomes a child of its parents. -/
theorem addNonLockedTx_of_untracked (h : d.txAt tx.hash = none) :
    (∀ id, (d.addNonLockedTx tx pindexMined).txAt id = if id = tx.hash then some tx else d.txAt id) ∧
    (∀ parent child, child ∈ (d.addNonLockedTx tx pindexMined).childrenAt parent ↔
      parent ∈ parents tx ∧ child = tx.hash ∨ child ∈ d.childrenAt parent) ∧
    (∀ id, id ∈ (d.addNonLockedTx tx pindexMined).nonLockedTxs →
      id ∈ d.nonLockedTxs ∨ id = tx.hash ∨ id ∈ parents tx) ∧
    ∀ out, (d.addNonLockedTx tx pindexMined).nonLockedTxsByOutpoints.lookup out =
      (d.nonLockedTxsByOutpoints.lookup out).or
        (if tx.hash ∉ d.nonLockedTxs ∧ out ∈ prevouts tx then some tx.hash else none) := by
  have htx : ((d.nonLockedTxs.lookup tx.hash).getD {}).tx = none := by
    unfold txAt at h
    rcases hlookup : d.nonLockedTxs.lookup tx.hash with _ | info
    · rfl
    · rw [hlookup] at h
      exact h
  -- the entry with the transaction, before the children are recorded
  obtain ⟨info, hinfoTx, hinfoChildren, hadd⟩ : ∃ info : NonLockedTxInfo B, info.tx = some tx ∧
      info.children = d.childrenAt tx.hash ∧ ∀ id, (d.addNonLockedTx tx pindexMined).nonLockedTxs.lookup id =
        ((parents tx).foldl (addChild tx.hash) (d.nonLockedTxs.insert tx.hash info)).lookup id := by
    refine ⟨{ (d.nonLockedTxs.lookup tx.hash).getD {} with pindexMined := pindexMined, tx := some tx }, rfl, ?_,
      fun id => ?_⟩
    · unfold childrenAt
      cases d.nonLockedTxs.lookup tx.hash <;> rfl
    · unfold addNonLockedTx
      dsimp only
      rw [htx, Option.isNone_none, if_pos rfl]
  simp only [lookup_foldl_addChild, FiniteMap.lookup_assign] at hadd
  refine ⟨fun id => ?_, fun parent child => ?_, fun id hid => ?_, fun out => ?_⟩
  · unfold txAt
    rw [hadd]
    by_cases hid : id = tx.hash
    · rw [if_pos hid, if_pos hid, Option.getD_some]
      split_ifs
      · exact hinfoTx
      · exact hinfoTx
    · rw [if_neg hid, if_neg hid]
      split_ifs
      · cases d.nonLockedTxs.lookup id <;> rfl
      · rfl
  · unfold childrenAt at hinfoChildren ⊢
    rw [hadd]
    by_cases hid : parent = tx.hash
    · subst hid
      rw [if_pos rfl, ← hinfoChildren]
      split_ifs with hparent
      · simp [hparent]
      · simp [hparent]
    · rw [if_neg hid]
      split_ifs with hparent
      · cases d.nonLockedTxs.lookup parent <;> simp [hparent]
      · simp [hparent]
  · rw [← Finmap.lookup_isSome, hadd] at hid
    rw [← Finmap.lookup_isSome]
    by_cases hparent : id ∈ parents tx
    · exact .inr (.inr hparent)
    · rw [if_neg hparent] at hid
      split_ifs at hid with hhash
      · exact .inr (.inl hhash)
      · exact .inl hid
  · unfold addNonLockedTx
    dsimp only
    by_cases hnew : tx.hash ∈ d.nonLockedTxs
    · have hsome : (d.nonLockedTxs.lookup tx.hash).isNone ≠ true := by
        obtain ⟨info, hinfo⟩ := Finmap.mem_iff.mp hnew
        rw [hinfo]
        exact Bool.false_ne_true
      rw [if_neg hsome, if_neg fun hout => hout.1 hnew, Option.or_none]
    · rw [Finmap.lookup_eq_none.mpr hnew, Option.isNone_none, if_pos rfl, FiniteMap.lookup_foldl_emplace]
      exact congrArg _ (if_congr (and_iff_right hnew).symm rfl rfl)

/-- The links but for the outpoints are always kept. -/
theorem links_addNonLockedTx_of_untracked (h : Links d) (huntracked : d.txAt tx.hash = none) :
    Links (d.addNonLockedTx tx pindexMined) ↔
      ∀ out id, (d.addNonLockedTx tx pindexMined).nonLockedTxsByOutpoints.lookup out = some id ↔
        id = tx.hash ∧ out ∈ prevouts tx ∨ d.nonLockedTxsByOutpoints.lookup out = some id := by
  obtain ⟨htx, hchildren, hmem, -⟩ := addNonLockedTx_of_untracked pindexMined huntracked
  have hspends : ∀ {α : Type} (spent : CTransaction → List α) (a : α) (id : UInt256),
      (∃ tx', (d.addNonLockedTx tx pindexMined).txAt id = some tx' ∧ a ∈ spent tx') ↔
        id = tx.hash ∧ a ∈ spent tx ∨ ∃ tx', d.txAt id = some tx' ∧ a ∈ spent tx' := by
    intro α spent a id
    rw [htx]
    by_cases hid : id = tx.hash
    · subst hid
      rw [if_pos rfl, huntracked]
      constructor
      · rintro ⟨tx', heq, ha⟩
        exact .inl ⟨rfl, Option.some.inj heq ▸ ha⟩
      · rintro (⟨-, ha⟩ | ⟨_, hnone, -⟩)
        · exact ⟨tx, rfl, ha⟩
        · cases hnone
    · rw [if_neg hid, or_iff_right fun hnew => hid hnew.1]
  constructor
  · intro h' out id
    rw [h'.outpoints, hspends, ← h.outpoints]
  · intro houtpoints
    refine ⟨fun id tx' hid => ?_, fun out id => ?_, fun parent child => ?_, fun id hid htxid => ?_⟩
    · rw [htx] at hid
      split_ifs at hid with hhash
      · rw [← Option.some.inj hid, hhash]
      · exact h.hash id tx' hid
    · rw [houtpoints, hspends, ← h.outpoints]
    · rw [hchildren, hspends, ← h.children, and_comm]
    · rw [htx] at htxid
      split_ifs at htxid with hhash
      rw [← Finset.nonempty_iff_ne_empty]
      rcases hmem id hid with hold | hnew | hparent
      · obtain ⟨child, hchild⟩ := Finset.nonempty_iff_ne_empty.mpr (h.placeholders id hold htxid)
        exact ⟨child, (hchildren id child).mpr (.inr hchild)⟩
      · exact absurd hnew hhash
      · exact ⟨tx.hash, (hchildren id tx.hash).mpr (.inl ⟨hparent, rfl⟩)⟩

/-- An entry that is not of a tracked transaction is there for a child. -/
theorem Links.mem_iff (h : Links d) {id : UInt256} (huntracked : d.txAt id = none) :
    id ∈ d.nonLockedTxs ↔ ∃ other otherTx, d.txAt other = some otherTx ∧ id ∈ parents otherTx := by
  constructor
  · intro hid
    obtain ⟨other, hother⟩ := Finset.nonempty_iff_ne_empty.mpr (h.placeholders id hid huntracked)
    exact ⟨other, (h.children id other).mp hother⟩
  · rintro ⟨other, htx⟩
    have hchild := (h.children id other).mpr htx
    by_contra hid
    unfold childrenAt at hchild
    rw [Finmap.lookup_eq_none.mpr hid] at hchild
    exact absurd hchild (Finset.notMem_empty other)

/-- **A transaction is added.** -/
theorem links_addNonLockedTx_iff (h : Links d) :
    Links (d.addNonLockedTx tx pindexMined) ↔ Permitted d (.addNonLockedTx tx pindexMined) := by
  unfold Permitted
  dsimp only
  by_cases htracked : (d.txAt tx.hash).isSome = true
  · obtain ⟨htx, hchildren, hmem, houts⟩ := addNonLockedTx_of_tracked pindexMined htracked
    refine iff_of_true ⟨?_, ?_, ?_, ?_⟩ (.inl htracked)
    · simpa only [htx] using h.hash
    · simpa only [htx, houts] using h.outpoints
    · simpa only [htx, hchildren] using h.children
    · intro id hid
      rw [htx, hchildren]
      exact h.placeholders id (hmem id hid)
  have huntracked : d.txAt tx.hash = none := Option.not_isSome_iff_eq_none.mp htracked
  obtain ⟨-, -, -, houts⟩ := addNonLockedTx_of_untracked pindexMined huntracked
  rw [or_iff_right htracked, links_addNonLockedTx_of_untracked pindexMined h huntracked]
  simp only [houts]
  constructor
  · intro houtpoints
    rcases hprevouts : prevouts tx with _ | ⟨first, rest⟩
    · exact .inl (List.map_eq_nil_iff.mp hprevouts)
    -- each outpoint was free and the entry is new
    have hentry : ∀ out ∈ prevouts tx,
        d.nonLockedTxsByOutpoints.lookup out = none ∧ tx.hash ∉ d.nonLockedTxs := by
      intro out hout
      rcases Option.or_eq_some_iff.mp ((houtpoints out tx.hash).mpr (.inl ⟨rfl, hout⟩)) with hold | ⟨hnone, hnew⟩
      · obtain ⟨_, htx, -⟩ := (h.outpoints out tx.hash).mp hold
        rw [huntracked] at htx
        cases htx
      · split_ifs at hnew with hif
        exact ⟨hnone, hif.1⟩
    have hfirst := hentry first (hprevouts ▸ List.mem_cons_self)
    refine .inr fun other otherTx hother => ⟨fun hparent => ?_, fun out hout hout' => ?_⟩
    · exact hfirst.2 ((h.mem_iff huntracked).mpr ⟨other, otherTx, hother, hparent⟩)
    · have hspent := (h.outpoints out other).mpr ⟨otherTx, hother, hout'⟩
      rw [(hentry out (hprevouts ▸ hout)).1] at hspent
      cases hspent
  · rintro (hvin | hfree) out id
    · have hprevouts : prevouts tx = [] := List.map_eq_nil_iff.mpr hvin
      simp [hprevouts]
    · have hnew : tx.hash ∉ d.nonLockedTxs := by
        rw [h.mem_iff huntracked]
        rintro ⟨other, otherTx, hother, hparent⟩
        exact (hfree other otherTx hother).1 hparent
      rcases hold : d.nonLockedTxsByOutpoints.lookup out with _ | first
      · simp [hnew, and_comm, eq_comm]
      · obtain ⟨firstTx, hfirst, hout⟩ := (h.outpoints out first).mp hold
        have hnot : out ∉ prevouts tx := fun hout' => (hfree first firstTx hfirst).2 out hout' hout
        simp [hnot]

end Add

/-! ## A transaction is removed -/

section Remove

variable (txid : UInt256) (retryChildren : Bool)

theorem tx_withoutChild (child : UInt256) (info : NonLockedTxInfo B) :
    (withoutChild child info).bind NonLockedTxInfo.tx = info.tx := by
  unfold withoutChild
  split_ifs with hempty
  · exact hempty.1.symm
  · rfl

theorem mem_withoutChild {child c : UInt256} {info : NonLockedTxInfo B} :
    c ∈ (withoutChild child info).elim ∅ NonLockedTxInfo.children ↔ c ≠ child ∧ c ∈ info.children := by
  rw [← Finset.mem_erase]
  unfold withoutChild
  split_ifs with hempty
  · rw [hempty.2]
    rfl
  · rfl

theorem exists_child_of_withoutChild {child : UInt256} {info : NonLockedTxInfo B}
    (h : (withoutChild child info).isSome = true) (htx : info.tx = none) : ∃ c ≠ child, c ∈ info.children := by
  have hne : info.children.erase child ≠ ∅ := by
    intro herase
    unfold withoutChild at h
    rw [if_pos ⟨htx, herase⟩] at h
    cases h
  obtain ⟨c, hc⟩ := Finset.nonempty_iff_ne_empty.mpr hne
  exact ⟨c, Finset.mem_erase.mp hc⟩

/-- The entry of the transaction goes, and it is no child any more. -/
theorem removeNonLockedTx_links (h : Links d) :
    (∀ id, (d.removeNonLockedTx txid retryChildren).txAt id = if id = txid then none else d.txAt id) ∧
    (∀ parent child, child ∈ (d.removeNonLockedTx txid retryChildren).childrenAt parent ↔
      parent ≠ txid ∧ child ≠ txid ∧ child ∈ d.childrenAt parent) ∧
    (∀ id, id ∈ (d.removeNonLockedTx txid retryChildren).nonLockedTxs →
      id ≠ txid ∧ (d.txAt id = none → ∃ child ≠ txid, child ∈ d.childrenAt id)) ∧
    ∀ out id, (d.removeNonLockedTx txid retryChildren).nonLockedTxsByOutpoints.lookup out = some id ↔
      id ≠ txid ∧ d.nonLockedTxsByOutpoints.lookup out = some id := by
  -- where the transaction is recorded
  have hchild : ∀ parent, txid ∈ d.childrenAt parent ↔ parent ∈ (d.txAt txid).elim [] parents := by
    intro parent
    rw [h.children]
    cases d.txAt txid <;> simp
  have hout : ∀ out, d.nonLockedTxsByOutpoints.lookup out = some txid ↔
      out ∈ (d.txAt txid).elim [] prevouts := by
    intro out
    rw [h.outpoints]
    cases d.txAt txid <;> simp
  have hlookup : ∀ id, (d.removeNonLockedTx txid retryChildren).nonLockedTxs.lookup id =
      if id = txid then none
      else if id ∈ (d.txAt txid).elim [] parents then (d.nonLockedTxs.lookup id).bind (withoutChild txid)
      else d.nonLockedTxs.lookup id := by
    intro id
    unfold removeNonLockedTx
    rcases hinfo : d.nonLockedTxs.lookup txid with _ | info
    · have htx : d.txAt txid = none := by
        unfold txAt
        rw [hinfo]
        rfl
      have hnil : id ∉ (none : Option CTransaction).elim [] parents := List.not_mem_nil
      rw [htx, if_neg hnil]
      dsimp only
      split_ifs with hid
      · rw [hid, hinfo]
      · rfl
    · rw [txAt_of_lookup hinfo, ← lookup_foldl_removeChild]
      exact FiniteMap.lookup_erase_eq _ _ _
  have houts : ∀ out, (d.removeNonLockedTx txid retryChildren).nonLockedTxsByOutpoints.lookup out =
      if out ∈ (d.txAt txid).elim [] prevouts then none else d.nonLockedTxsByOutpoints.lookup out := by
    intro out
    unfold removeNonLockedTx
    rcases hinfo : d.nonLockedTxs.lookup txid with _ | info
    · have htx : d.txAt txid = none := by
        unfold txAt
        rw [hinfo]
        rfl
      rw [htx]
      rfl
    · rw [txAt_of_lookup hinfo]
      exact FiniteMap.lookup_eraseAll _ _ _
  refine ⟨fun id => ?_, fun parent child => ?_, fun id hid => ?_, fun out id => ?_⟩
  · unfold txAt
    rw [hlookup]
    split_ifs
    · rfl
    · rw [Option.bind_assoc]
      exact Option.bind_congr fun info _ => tx_withoutChild txid info
    · rfl
  · have hrecorded := hchild parent
    unfold childrenAt at hrecorded ⊢
    rw [hlookup]
    split_ifs with hparent hmem
    · exact iff_of_false (Finset.notMem_empty child) fun hne => hne.1 hparent
    · rw [and_iff_right hparent]
      rcases d.nonLockedTxs.lookup parent with _ | info
      · exact iff_of_false (Finset.notMem_empty child) fun hne => Finset.notMem_empty child hne.2
      · exact mem_withoutChild
    · rw [and_iff_right hparent]
      refine ⟨fun hc => ⟨?_, hc⟩, And.right⟩
      rintro rfl
      exact hmem (hrecorded.mp hc)
  · rw [← Finmap.lookup_isSome, hlookup] at hid
    split_ifs at hid with hne hmem
    · cases hid
    · refine ⟨hne, fun htx => ?_⟩
      obtain ⟨left, hleft⟩ := Option.isSome_iff_exists.mp hid
      obtain ⟨info, hinfo, hleft⟩ := Option.bind_eq_some_iff.mp hleft
      rw [txAt_of_lookup hinfo] at htx
      have hchildren : d.childrenAt id = info.children := by
        unfold childrenAt
        rw [hinfo]
        rfl
      rw [hchildren]
      exact exists_child_of_withoutChild (Option.isSome_iff_exists.mpr ⟨left, hleft⟩) htx
    · refine ⟨hne, fun htx => ?_⟩
      obtain ⟨child, hc⟩ := Finset.nonempty_iff_ne_empty.mpr (h.placeholders id (Finmap.lookup_isSome.mp hid) htx)
      refine ⟨child, ?_, hc⟩
      rintro rfl
      exact hmem ((hchild id).mp hc)
  · rw [houts]
    split_ifs with hmem
    · refine iff_of_false nofun fun hne => hne.1 ?_
      exact Option.some.inj (hne.2.symm.trans ((hout out).mpr hmem))
    · refine ⟨fun hid => ⟨?_, hid⟩, And.right⟩
      rintro rfl
      exact hmem ((hout out).mp hid)

/-- **A transaction is removed.** -/
theorem links_removeNonLockedTx_iff (h : Links d) :
    Links (d.removeNonLockedTx txid retryChildren) ↔ Permitted d (.removeNonLockedTx txid retryChildren) := by
  obtain ⟨htx, hchildren, hmem, houts⟩ := removeNonLockedTx_links txid retryChildren h
  unfold Permitted
  dsimp only
  have hspends : ∀ {α : Type} (spent : CTransaction → List α) (a : α) (id : UInt256),
      (∃ tx, (d.removeNonLockedTx txid retryChildren).txAt id = some tx ∧ a ∈ spent tx) ↔
        id ≠ txid ∧ ∃ tx, d.txAt id = some tx ∧ a ∈ spent tx := by
    intro α spent a id
    rw [htx]
    by_cases hid : id = txid
    · rw [if_pos hid]
      constructor
      · rintro ⟨_, hnone, -⟩
        cases hnone
      · exact fun hne => absurd hid hne.1
    · rw [if_neg hid]
      exact (and_iff_right hid).symm
  constructor
  · intro h' other otherTx hother hne hparent
    have hchild := (h'.children txid other).mpr ((hspends parents txid other).mpr ⟨hne, otherTx, hother, hparent⟩)
    exact ((hchildren txid other).mp hchild).1 rfl
  · intro hlast
    refine ⟨fun id tx hid => ?_, fun out id => ?_, fun parent child => ?_, fun id hid htxid => ?_⟩
    · rw [htx] at hid
      split_ifs at hid
      exact h.hash id tx hid
    · rw [houts, hspends, h.outpoints]
    · rw [hchildren, hspends, h.children]
      constructor
      · exact And.right
      · rintro ⟨hne, tx, hchild, hparent⟩
        refine ⟨?_, hne, tx, hchild, hparent⟩
        rintro rfl
        exact hlast child tx hchild hne hparent
    · obtain ⟨hne, hchild⟩ := hmem id hid
      rw [htx, if_neg hne] at htxid
      obtain ⟨child, hne', hchild⟩ := hchild htxid
      exact Finset.ne_empty_of_mem ((hchildren id child).mpr ⟨hne, hne', hchild⟩)

end Remove

/-! ## Runs -/

section

variable [DecidableEq B]

theorem step_tracking_iff (requestId : CTxIn → UInt256) (op : Op B) (h : Tracking d) :
    Tracking (step requestId d op) ↔ Permitted d op := by
  rw [tracking_iff] at h ⊢
  cases op with
  | addNonLockedTx tx pindexMined => exact links_addNonLockedTx_iff pindexMined h
  | removeNonLockedTx txid retryChildren => exact links_removeNonLockedTx_iff txid retryChildren h
  | removeConflictedTx tx =>
    refine Iff.trans ?_ (links_removeNonLockedTx_iff tx.hash false h)
    -- the request identifiers are no links
    exact ⟨fun h' => ⟨h'.hash, h'.outpoints, h'.children, h'.placeholders⟩,
      fun h' => ⟨h'.hash, h'.outpoints, h'.children, h'.placeholders⟩⟩

theorem tracking_empty : Tracking ({} : NonLockedTxs B) := by
  rw [tracking_iff]
  refine ⟨fun _ _ h => (by cases h), fun _ _ => iff_of_false nofun ?_, fun _ _ => iff_of_false ?_ ?_, ?_⟩
  · rintro ⟨_, h, -⟩
    cases h
  · exact Finset.notMem_empty _
  · rintro ⟨_, h, -⟩
    cases h
  · exact fun id h => absurd h Finmap.notMem_empty

/-- **The tracking of transactions over whole runs.** The outpoints and children that are recorded are those of
the tracked transactions, and every mined conflict of a lock is found, in every state of a run if and only if
transactions with inputs are added before their children and do not share an input, and are removed after their
children. -/
theorem tracking_throughout_iff (requestId : CTxIn → UInt256) (ops : List (Op B)) :
    (∀ before after, ops = before ++ after → Tracking (Simulation.exec (step requestId) {} before)) ↔
    Simulation.Throughout (step requestId) Permitted {} ops :=
  Simulation.invariant_iff (fun _ op h => step_tracking_iff requestId op h) tracking_empty

/-- A block with a ChainLock apart, the blocks of all tracked transactions that conflict with a lock are
invalidated. -/
theorem Tracking.invalidated {G : Type} (h : Tracking d) {requestId : CTxIn → UInt256} {blockOrder : B ↪ Nat}
    {txOrder : UInt256 ↪ Nat} {hasChainLock : B → Bool} {islock : CInstantSendLock G} {blocks : List B}
    (hresolve : (resolveBlockConflicts requestId blockOrder txOrder hasChainLock d islock).1 = .invalidate blocks)
    {id : UInt256} {info : NonLockedTxInfo B} {pindexMined : B} {tx : CTransaction}
    (hlookup : d.nonLockedTxs.lookup id = some info) (hmined : info.pindexMined = some pindexMined)
    (htx : info.tx = some tx) (hid : id ≠ islock.txid) (hspent : ∃ out ∈ islock.inputs, out ∈ prevouts tx) :
    pindexMined ∈ blocks := by
  have hfound := h.conflicts islock.txid islock.inputs id info pindexMined tx hlookup hmined htx hid hspent
  obtain ⟨found, hblock, -⟩ := Option.bind_eq_some_iff.mp hfound
  unfold resolveBlockConflicts at hresolve
  dsimp only at hresolve
  split_ifs at hresolve
  obtain rfl := Resolution.invalidate.inj hresolve
  exact List.mem_map.mpr ⟨⟨pindexMined, found⟩, FiniteMap.mem_toList.mpr hblock, rfl⟩

end

end NonLockedTxs

open NonLockedTxs in
/-- Transaction 2 spends an output of transaction 1 and comes first; transaction 1, which spends the coin `9:0`,
was mined in block 7. A lock of the coin for another transaction does not find it. -/
theorem late_parent_not_found :
    let parent : CTransaction := { hash := 1, vin := [{ prevout := ⟨9, 0⟩ }], vout := [] }
    let child : CTransaction := { hash := 2, vin := [{ prevout := ⟨1, 0⟩ }], vout := [] }
    let d : NonLockedTxs Nat := Simulation.exec (step fun _ => 0) {}
      [.addNonLockedTx child none, .addNonLockedTx parent (some 7)]
    (d.nonLockedTxs.lookup 1).map (fun info => (info.pindexMined, info.tx)) = some (some 7, some parent) ∧
      d.nonLockedTxsByOutpoints.lookup ⟨9, 0⟩ = none ∧ (d.conflicts 3 [⟨9, 0⟩]).lookup 7 = none ∧ ¬ Tracking d := by
  intro parent child d
  have hstored : (d.nonLockedTxs.lookup 1).map (fun info => (info.pindexMined, info.tx)) =
      some (some 7, some parent) := by decide +kernel
  have hout : d.nonLockedTxsByOutpoints.lookup ⟨9, 0⟩ = none := by decide +kernel
  refine ⟨hstored, hout, by decide +kernel, fun h => ?_⟩
  obtain ⟨info, hinfo, hfields⟩ := Option.map_eq_some_iff.mp hstored
  have htx : d.txAt 1 = some parent := (txAt_of_lookup hinfo).trans (congrArg Prod.snd hfields)
  have hentry := (h.outpoints ⟨9, 0⟩ 1).mpr ⟨parent, htx, List.mem_singleton_self _⟩
  rw [hout] at hentry
  cases hentry

end RavenCash.Evo.Llmq
