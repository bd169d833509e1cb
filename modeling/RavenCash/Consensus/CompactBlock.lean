import RavenCash.Basic.Primitives
import RavenCash.Consensus.Merkle
import RavenCash.Lib.Faults

/-!
# Compact blocks

`blockencodings.cpp`: a block is sent as its header, short ids of its transactions and the coinbase. `InitData` looks
for transactions with these short ids in the mempool and among extra transactions, `FillBlock` takes what is missing
from the peer and checks the block.

A transaction is what is serialized without its witness, and the witness. Its `GetHash` covers the former only, and so
does the merkle root that `CheckBlock` compares. The short ids are 48 bits of a keyed hash of `GetWitnessHash`. The hash
functions and the checks of `CheckBlock` that come after the merkle root, none of which reads a witness, are parameters.

Positions are found again from differential indexes and from the order of the short ids, in part with 16 bits.
-/

set_option autoImplicit false

namespace RavenCash.CompactBlock

open Faults

/-! ## Transactions and blocks -/

structure CTransaction (Body Witness : Type) where
  body : Body
  witness : Option Witness
  deriving DecidableEq

structure CBlock (Header Body Witness : Type) where
  header : Header
  vtx : List (CTransaction Body Witness)

/-- What the rest of the program provides. -/
structure Context (H Header Body Witness : Type) where
  hashPair : H → H → H
  zero : H
  hashBody : Body → H
  hashAll : Body → Witness → H
  /-- `vin.empty() && vout.empty()` -/
  isNullBody : Body → Bool
  isNullHeader : Header → Bool
  hashMerkleRoot : Header → H
  /-- `SipHashUint256` under the keys that `FillShortTxIDSelector` derives from the header and the nonce. -/
  sipHash : Header → Nat → H → Nat
  checkBlockHeader : Header → Bool
  /-- The size limits, the coinbase, `CheckTransaction` and the signature operations. -/
  checkTransactions : Header → List Body → Bool
  /-- `bucket_size(bucket(key))` of an `unordered_map` that was made for so many elements and has these keys. -/
  bucketSize : Nat → List Nat → Nat → Nat

variable {H Header Body Witness : Type} (ctx : Context H Header Body Witness)

def getHash (tx : CTransaction Body Witness) : H := ctx.hashBody tx.body

def getWitnessHash (tx : CTransaction Body Witness) : H :=
  match tx.witness with
  | none => getHash ctx tx
  | some witness => ctx.hashAll tx.body witness

/-- All but `READ_STATUS_OK`. -/
inductive ReadStatus where
  | invalid
  | failed
  | checkblockFailed
  deriving DecidableEq

/-- `CheckBlock` of a block that has not been checked; a failure that may be due to corruption is `failed`. -/
def checkBlock [DecidableEq H] (block : CBlock Header Body Witness) : Except Fault (Except ReadStatus Unit) :=
  if !ctx.checkBlockHeader block.header then .ok (.error .checkblockFailed)
  else
    match MerkleTree.computeMerkleRoot ctx.hashPair ctx.zero (block.vtx.map (getHash ctx)) with
    | none => .error .outOfBounds
    | some (hashMerkleRoot2, mutated) =>
        if ctx.hashMerkleRoot block.header ≠ hashMerkleRoot2 then .ok (.error .failed)
        else if mutated then .ok (.error .failed)
        else if block.vtx.isEmpty || !ctx.checkTransactions block.header (block.vtx.map CTransaction.body) then
          .ok (.error .checkblockFailed)
        else .ok (.ok ())

/-! ## The compact form -/

structure PrefilledTransaction (Body Witness : Type) where
  index : UInt16
  tx : CTransaction Body Witness

structure CBlockHeaderAndShortTxIDs (Header Body Witness : Type) where
  header : Header
  nonce : Nat
  shorttxids : List Nat
  prefilledtxn : List (PrefilledTransaction Body Witness)

def getShortID (header : Header) (nonce : Nat) (txhash : H) : Nat := ctx.sipHash header nonce txhash % 2 ^ 48

/-- The constructor, for a block with a coinbase. -/
def compactForm (block : CBlock Header Body Witness) (nonce : Nat) (fUseWTXID : Bool) :
    Option (CBlockHeaderAndShortTxIDs Header Body Witness) :=
  match block.vtx with
  | [] => none
  | coinbase :: vtx =>
      some
        { header := block.header
          nonce := nonce
          shorttxids := vtx.map fun tx =>
            getShortID ctx block.header nonce (if fUseWTXID then getWitnessHash ctx tx else getHash ctx tx)
          prefilledtxn := [⟨0, coinbase⟩] }

/-! ## `InitData` -/

def minSerializableTransactionWeight : Nat := 4 * 10

/-- The loop over the prefilled transactions; `none` is `READ_STATUS_INVALID`. -/
def placePrefilled (shorttxids : Nat) : List (PrefilledTransaction Body Witness) → Nat → Int →
    List (Option (CTransaction Body Witness)) → Except Fault (Option (List (Option (CTransaction Body Witness))))
  | [], _, _, txn_available => .ok (some txn_available)
  | prefilled :: prefilledtxn, i, lastprefilledindex, txn_available =>
      if ctx.isNullBody prefilled.tx.body then .ok none
      else
        let lastprefilledindex := lastprefilledindex + (prefilled.index.toNat + 1)
        if 0xffff < lastprefilledindex then .ok none
        else if shorttxids + i < lastprefilledindex.toNat then .ok none
        else do
          let txn_available ← store txn_available lastprefilledindex.toNat (some prefilled.tx)
          placePrefilled shorttxids prefilledtxn (i + 1) lastprefilledindex txn_available

/-- `while (txn_available[i + index_offset]) index_offset++`, with 16 bits. After `2 ^ 16` steps every offset has been
tried. -/
def skipAvailable (txn_available : List (Option (CTransaction Body Witness))) (i : Nat) : Nat → Nat → Except Fault Nat
  | 0, _ => .error .endless
  | fuel + 1, index_offset => do
      let tx ← fetch txn_available (i + index_offset)
      if tx.isSome then skipAvailable txn_available i fuel ((index_offset + 1) % 2 ^ 16) else .ok index_offset

/-- `shorttxids[shortid] = position` of a map as a list of its pairs. -/
def assign (shorttxids : List (Nat × Nat)) (shortid position : Nat) : List (Nat × Nat) :=
  (shortid, position) :: shorttxids.filter fun entry => entry.1 ≠ shortid

/-- The loop over the short ids; `none` is `READ_STATUS_FAILED`. -/
def indexShortIds (size : Nat) (txn_available : List (Option (CTransaction Body Witness))) :
    List Nat → Nat → Nat → List (Nat × Nat) → Except Fault (Option (List (Nat × Nat)))
  | [], _, _, shorttxids => .ok (some shorttxids)
  | shortid :: rest, i, index_offset, shorttxids => do
      let index_offset ← skipAvailable txn_available i (2 ^ 16) index_offset
      let shorttxids := assign shorttxids shortid ((i + index_offset) % 2 ^ 16)
      if 12 < ctx.bucketSize size (shorttxids.map Prod.fst) shortid then .ok none
      else indexShortIds size txn_available rest (i + 1) index_offset shorttxids

/-- What the two searches change; `extra_count` is only logged. -/
structure Search (Body Witness : Type) where
  txn_available : List (Option (CTransaction Body Witness))
  have_txn : List Bool
  mempool_count : Nat

/-- The first transaction for a short id is taken. -/
def Search.take (s : Search Body Witness) (position : Nat) (tx : Option (CTransaction Body Witness)) :
    Except Fault (Search Body Witness) := do
  let txn_available ← store s.txn_available position tx
  let have_txn ← store s.have_txn position true
  .ok ⟨txn_available, have_txn, s.mempool_count + 1⟩

/-- It is given up when there is another. -/
def Search.reset (s : Search Body Witness) (position : Nat) : Except Fault (Search Body Witness) := do
  let txn_available ← store s.txn_available position none
  .ok { s with txn_available := txn_available, mempool_count := s.mempool_count - 1 }

/-- The body of the loop over the mempool, whose `vTxHashes` has the witness hashes. -/
def offerPool (idOf : H → Nat) (shorttxids : List (Nat × Nat)) (s : Search Body Witness)
    (tx : CTransaction Body Witness) :
    Except Fault (Search Body Witness) :=
  match shorttxids.lookup (idOf (getWitnessHash ctx tx)) with
  | none => .ok s
  | some position => do
      let taken ← fetch s.have_txn position
      if !taken then s.take position (some tx)
      else
        let old ← fetch s.txn_available position
        if old.isSome then s.reset position else .ok s

/-- The body of the loop over the extra transactions. The ring buffer has null pointers where nothing was stored yet. -/
def offerExtra [DecidableEq H] (idOf : H → Nat) (shorttxids : List (Nat × Nat)) (s : Search Body Witness)
    (extra : H × Option (CTransaction Body Witness)) : Except Fault (Search Body Witness) :=
  match shorttxids.lookup (idOf extra.1) with
  | none => .ok s
  | some position => do
      let taken ← fetch s.have_txn position
      if !taken then s.take position extra.2
      else
        let old ← fetch s.txn_available position
        match old, extra.2 with
        | none, _ => .ok s
        | some _, none => .error .nullPointer
        | some old, some tx => if getWitnessHash ctx old ≠ getWitnessHash ctx tx then s.reset position else .ok s

/-- A loop that ends early once there is a transaction for every short id. -/
def searchLoop {α : Type} (size : Nat) (body : Search Body Witness → α → Except Fault (Search Body Witness)) :
    List α → Search Body Witness → Except Fault (Search Body Witness)
  | [], s => .ok s
  | a :: rest, s => do
      let s ← body s a
      if s.mempool_count = size then .ok s else searchLoop size body rest s

structure PartiallyDownloadedBlock (Header Body Witness : Type) where
  header : Header
  txn_available : List (Option (CTransaction Body Witness))

/-- The mempool and the extra transactions. -/
structure Pools (H Body Witness : Type) where
  vTxHashes : List (CTransaction Body Witness)
  extra_txn : List (H × Option (CTransaction Body Witness))

/-- The two searches. -/
def searchPools [DecidableEq H] (idOf : H → Nat) (pools : Pools H Body Witness) (shorttxids : List (Nat × Nat))
    (txn_available : List (Option (CTransaction Body Witness))) : Except Fault (Search Body Witness) := do
  let s ← searchLoop shorttxids.length (offerPool ctx idOf shorttxids) pools.vTxHashes
    ⟨txn_available, List.replicate txn_available.length false, 0⟩
  searchLoop shorttxids.length (offerExtra ctx idOf shorttxids) pools.extra_txn s

def initData [DecidableEq H] (cmpctblock : CBlockHeaderAndShortTxIDs Header Body Witness)
    (pools : Pools H Body Witness) :
    Except Fault (Except ReadStatus (PartiallyDownloadedBlock Header Body Witness)) :=
  let size := cmpctblock.shorttxids.length
  let blockTxCount := size + cmpctblock.prefilledtxn.length
  if ctx.isNullHeader cmpctblock.header || blockTxCount = 0 then .ok (.error .invalid)
  else if getMaxBlockWeight / minSerializableTransactionWeight < blockTxCount then .ok (.error .invalid)
  else do
    match ← placePrefilled ctx size cmpctblock.prefilledtxn 0 (-1) (List.replicate blockTxCount none) with
    | none => .ok (.error .invalid)
    | some txn_available =>
        match ← indexShortIds ctx size txn_available cmpctblock.shorttxids 0 0 [] with
        | none => .ok (.error .failed)
        | some shorttxids =>
            if shorttxids.length ≠ size then .ok (.error .failed)
            else do
              let s ← searchPools ctx (getShortID ctx cmpctblock.header cmpctblock.nonce) pools shorttxids txn_available
              .ok (.ok ⟨cmpctblock.header, s.txn_available⟩)

/-! ## `FillBlock` -/

/-- The loop over the positions, from `tx_missing_offset` on; `none` is `READ_STATUS_INVALID`. -/
def fillTransactions (vtx_missing : List (CTransaction Body Witness)) :
    List (Option (CTransaction Body Witness)) → Nat → Except Fault (Option (List (CTransaction Body Witness) × Nat))
  | [], tx_missing_offset => .ok (some ([], tx_missing_offset))
  | some tx :: rest, tx_missing_offset => do
      let filled ← fillTransactions vtx_missing rest tx_missing_offset
      .ok (filled.map fun (vtx, offset) => (tx :: vtx, offset))
  | none :: rest, tx_missing_offset =>
      if vtx_missing.length ≤ tx_missing_offset then .ok none
      else do
        let tx ← fetch vtx_missing tx_missing_offset
        let filled ← fillTransactions vtx_missing rest (tx_missing_offset + 1)
        .ok (filled.map fun (vtx, offset) => (tx :: vtx, offset))

def fillBlock [DecidableEq H] (partialBlock : PartiallyDownloadedBlock Header Body Witness)
    (vtx_missing : List (CTransaction Body Witness)) :
    Except Fault (Except ReadStatus (CBlock Header Body Witness)) := do
  match ← fillTransactions vtx_missing partialBlock.txn_available 0 with
  | none => .ok (.error .invalid)
  | some (vtx, tx_missing_offset) =>
      if vtx_missing.length ≠ tx_missing_offset then .ok (.error .invalid)
      else do
        let block : CBlock Header Body Witness := ⟨partialBlock.header, vtx⟩
        let checked ← checkBlock ctx block
        .ok (checked.map fun _ => block)

/-- The transactions of a block at the positions where none is available. -/
def missingFrom : List (CTransaction Body Witness) → List (Option (CTransaction Body Witness)) →
    List (CTransaction Body Witness)
  | tx :: vtx, none :: rest => tx :: missingFrom vtx rest
  | _ :: vtx, some _ :: rest => missingFrom vtx rest
  | _, _ => []

/-! ## The prefilled transactions -/

section Init

variable {ctx}

/-- The number of positions with a transaction. -/
def available (txn_available : List (Option (CTransaction Body Witness))) : Nat := txn_available.countP Option.isSome

/-- Where the differential indexes put the prefilled transactions. -/
def Placed : Int → List (PrefilledTransaction Body Witness) → Nat → CTransaction Body Witness → Prop
  | _, [], _, _ => False
  | last, prefilled :: prefilledtxn, position, tx =>
      let last := last + (prefilled.index.toNat + 1)
      position = last.toNat ∧ tx = prefilled.tx ∨ Placed last prefilledtxn position tx

theorem available_set_le (l : List (Option (CTransaction Body Witness))) (i : Nat)
    (x : Option (CTransaction Body Witness)) :
    available (l.set i x) ≤ available l + 1 := by
  have hcons : ∀ (a : Option (CTransaction Body Witness)) l,
      available (a :: l) = available l + if a.isSome then 1 else 0 := fun a l => List.countP_cons
  induction l generalizing i with
  | nil => exact Nat.zero_le _
  | cons a l ih =>
      cases i with
      | zero =>
          rw [List.set_cons_zero, hcons, hcons]
          split_ifs <;> omega
      | succ i =>
          have h := ih i
          rw [List.set_cons_succ, hcons, hcons]
          omega

theorem placePrefilled_safe {size i : Nat} {last : Int} {prefilledtxn : List (PrefilledTransaction Body Witness)}
    {txn_available : List (Option (CTransaction Body Witness))}
    (hlen : txn_available.length = size + i + prefilledtxn.length) :
    Safe (placePrefilled ctx size prefilledtxn i last txn_available) fun r => ∀ placed, r = some placed →
      placed.length = txn_available.length ∧ available placed ≤ available txn_available + prefilledtxn.length ∧
      ∀ j tx, placed[j]? = some (some tx) → txn_available[j]? = some (some tx) ∨ Placed last prefilledtxn j tx := by
  induction prefilledtxn generalizing i last txn_available with
  | nil =>
      rintro placed ⟨⟩
      exact ⟨rfl, le_rfl, fun j tx h => .inl h⟩
  | cons prefilled prefilledtxn ih =>
      rw [List.length_cons] at hlen
      rw [placePrefilled]
      dsimp only
      split_ifs with hnull hlarge hfar
      · rintro _ ⟨⟩
      · rintro _ ⟨⟩
      · rintro _ ⟨⟩
      · refine (safe_store (by omega) (some prefilled.tx)).bind ?_
        rintro _ rfl
        refine (ih (by rw [List.length_set]; omega)).mono ?_
        intro r hr placed hplaced
        obtain ⟨hlength, havail, hfrom⟩ := hr placed hplaced
        have hset := available_set_le txn_available (last + (prefilled.index.toNat + 1)).toNat (some prefilled.tx)
        refine ⟨hlength.trans List.length_set, by rw [List.length_cons]; omega, fun j tx hj => ?_⟩
        rcases hfrom j tx hj with hold | hplace
        · rw [List.getElem?_set] at hold
          split_ifs at hold with hj
          · rw [Option.some.injEq, Option.some.injEq] at hold
            exact .inr (.inl ⟨hj.symm, hold.symm⟩)
          · exact .inl hold
        · exact .inr (.inr hplace)

/-! ## The positions of the short ids -/

/-- All positions before are free ones that were passed or prefilled ones that were skipped, as long as the 16 bits
of the offset are enough. -/
def OffsetOk (txn_available : List (Option (CTransaction Body Witness))) (i index_offset : Nat) : Prop :=
  index_offset < 2 ^ 16 ∧
    (available (txn_available.take (i + index_offset)) = index_offset ∨ 2 ^ 16 ≤ available txn_available)

variable {txn_available : List (Option (CTransaction Body Witness))}

/-- While there is a short id without a position there is a position. -/
theorem OffsetOk.lt_length {i index_offset size : Nat} (h : OffsetOk txn_available i index_offset) (hi : i < size)
    (hsize : size + available txn_available ≤ txn_available.length) : i + index_offset < txn_available.length := by
  obtain ⟨hoffset, hcount | hmany⟩ := h
  · by_contra hge
    rw [List.take_of_length_le (not_lt.mp hge)] at hcount
    omega
  · omega

theorem available_take_succ {k : Nat} {x : Option (CTransaction Body Witness)} (h : txn_available[k]? = some x) :
    available (txn_available.take (k + 1)) = available (txn_available.take k) + if x.isSome then 1 else 0 := by
  rw [List.take_add_one, h, available, List.countP_append]
  simp [available]

theorem skipAvailable_safe {i size fuel index_offset : Nat} (hi : i < size)
    (hsize : size + available txn_available ≤ txn_available.length) (h : OffsetOk txn_available i index_offset) :
    Safe (skipAvailable txn_available i fuel index_offset) fun offset =>
      OffsetOk txn_available i offset ∧ txn_available[i + offset]? = some none := by
  induction fuel generalizing index_offset with
  | zero => exact fun h => nomatch h
  | succ fuel ih =>
      rw [skipAvailable]
      refine (safe_fetch (h.lt_length hi hsize)).bind fun tx htx => ?_
      split_ifs with hsome
      · refine ih ?_
        obtain ⟨hoffset, hcount⟩ := h
        refine ⟨Nat.mod_lt _ (by decide), ?_⟩
        rcases hcount with hcount | hmany
        · have hnext := available_take_succ htx
          rw [if_pos hsome, hcount] at hnext
          rcases Nat.lt_or_ge (index_offset + 1) (2 ^ 16) with hsmall | hlarge
          · rw [Nat.mod_eq_of_lt hsmall]
            exact .inl hnext
          · -- the offset wraps around only where so many positions were skipped
            have hsub : available (txn_available.take (i + index_offset + 1)) ≤ available txn_available :=
              (List.take_sublist _ _).countP_le
            exact .inr (by omega)
        · exact .inr hmany
      · refine ⟨h, ?_⟩
        rw [htx, Option.not_isSome_iff_eq_none.mp hsome]

theorem OffsetOk.next {i index_offset : Nat} (h : OffsetOk txn_available i index_offset)
    (hfree : txn_available[i + index_offset]? = some none) : OffsetOk txn_available (i + 1) index_offset := by
  refine ⟨h.1, h.2.imp_left fun hcount => ?_⟩
  rw [Nat.add_right_comm, available_take_succ hfree, hcount]
  rfl

theorem mem_assign {shorttxids : List (Nat × Nat)} {shortid position : Nat} {entry : Nat × Nat}
    (h : entry ∈ assign shorttxids shortid position) : entry = (shortid, position) ∨ entry ∈ shorttxids := by
  rcases List.mem_cons.mp h with h | h
  · exact .inl h
  · exact .inr (List.mem_of_mem_filter h)

theorem indexShortIds_safe {shortids : List Nat} {size i index_offset : Nat} {shorttxids : List (Nat × Nat)}
    (hsize : i + shortids.length + available txn_available ≤ txn_available.length)
    (h : OffsetOk txn_available i index_offset) :
    Safe (indexShortIds ctx size txn_available shortids i index_offset shorttxids) fun r =>
      ∀ positions, r = some positions →
      ∀ entry ∈ positions, entry ∈ shorttxids ∨ entry.1 ∈ shortids ∧ entry.2 < txn_available.length := by
  induction shortids generalizing i index_offset shorttxids with
  | nil =>
      rintro positions ⟨⟩ entry hentry
      exact .inl hentry
  | cons shortid rest ih =>
      rw [List.length_cons] at hsize
      rw [indexShortIds]
      refine (skipAvailable_safe (Nat.lt_succ_self i) (by omega) h).bind ?_
      rintro offset ⟨hoffset, hfree⟩
      dsimp only
      split_ifs with hcrowded
      · rintro _ ⟨⟩
      · refine (ih (by omega) (hoffset.next hfree)).mono ?_
        intro r hr positions hpositions entry hentry
        obtain ⟨hlt, -⟩ := List.getElem?_eq_some_iff.mp hfree
        rcases hr positions hpositions entry hentry with hold | ⟨hid, hpos⟩
        · rcases mem_assign hold with rfl | hold
          · exact .inr ⟨List.mem_cons_self, (Nat.mod_le _ _).trans_lt hlt⟩
          · exact .inl hold
        · exact .inr ⟨List.mem_cons_of_mem _ hid, hpos⟩

/-! ## The searches -/

/-- The vectors have their sizes, and what is available at a position may be there. -/
structure Search.Ok (n : Nat) (Allowed : Nat → CTransaction Body Witness → Prop) (s : Search Body Witness) : Prop where
  available : s.txn_available.length = n
  taken : s.have_txn.length = n
  allowed : ∀ j tx, s.txn_available[j]? = some (some tx) → Allowed j tx

variable {n : Nat} {Allowed : Nat → CTransaction Body Witness → Prop} {s : Search Body Witness}

theorem Search.Ok.allowed_set (hs : s.Ok n Allowed) {position : Nat} {tx : Option (CTransaction Body Witness)}
    (htx : ∀ t, tx = some t → Allowed position t) (j : Nat) (t : CTransaction Body Witness)
    (hj : (s.txn_available.set position tx)[j]? = some (some t)) : Allowed j t := by
  rw [List.getElem?_set] at hj
  split_ifs at hj with heq
  · obtain rfl : position = j := heq
    exact htx t (Option.some.inj hj)
  · exact hs.allowed j t hj

theorem Search.Ok.take (hs : s.Ok n Allowed) {position : Nat} (hposition : position < n)
    {tx : Option (CTransaction Body Witness)} (htx : ∀ t, tx = some t → Allowed position t) :
    Safe (s.take position tx) (Search.Ok n Allowed) := by
  refine (safe_store (by rw [hs.available]; exact hposition) tx).bind ?_
  rintro _ rfl
  refine (safe_store (by rw [hs.taken]; exact hposition) true).bind ?_
  rintro _ rfl
  exact ⟨List.length_set.trans hs.available, List.length_set.trans hs.taken, hs.allowed_set htx⟩

theorem Search.Ok.reset (hs : s.Ok n Allowed) {position : Nat} (hposition : position < n) :
    Safe (s.reset position) (Search.Ok n Allowed) := by
  refine (safe_store (by rw [hs.available]; exact hposition) none).bind ?_
  rintro _ rfl
  exact ⟨List.length_set.trans hs.available, hs.taken, hs.allowed_set fun _ h => nomatch h⟩

theorem mem_of_lookup {shorttxids : List (Nat × Nat)} {shortid position : Nat}
    (h : shorttxids.lookup shortid = some position) : (shortid, position) ∈ shorttxids := by
  induction shorttxids with
  | nil => exact nomatch h
  | cons entry rest ih =>
      rw [List.lookup_cons] at h
      split at h
      · rename_i heq
        obtain rfl : shortid = entry.1 := beq_iff_eq.mp heq
        obtain rfl : entry.2 = position := Option.some.inj h
        exact List.mem_cons_self
      · exact List.mem_cons_of_mem _ (ih h)

/-- Every position of the map is one of the block. -/
abbrev Positions (n : Nat) (shorttxids : List (Nat × Nat)) : Prop := ∀ entry ∈ shorttxids, entry.2 < n

variable {idOf : H → Nat} {shorttxids : List (Nat × Nat)}

theorem offerPool_safe (hs : s.Ok n Allowed) (hpositions : Positions n shorttxids) {tx : CTransaction Body Witness}
    (htx : idOf (getWitnessHash ctx tx) ∈ shorttxids.map Prod.fst → ∀ position, Allowed position tx) :
    Safe (offerPool ctx idOf shorttxids s tx) (Search.Ok n Allowed) := by
  rw [offerPool]
  cases hlookup : shorttxids.lookup (idOf (getWitnessHash ctx tx)) with
  | none => exact hs
  | some position =>
      have hmem := mem_of_lookup hlookup
      have hlt : position < n := hpositions _ hmem
      have hallowed := htx (List.mem_map_of_mem hmem) position
      refine (safe_fetch (by rw [hs.taken]; exact hlt)).bind fun taken _ => ?_
      split_ifs
      · exact hs.take hlt fun t ht => Option.some.inj ht ▸ hallowed
      · refine (safe_fetch (by rw [hs.available]; exact hlt)).bind fun old _ => ?_
        split_ifs
        · exact hs.reset hlt
        · exact hs

theorem offerExtra_safe [DecidableEq H] (hs : s.Ok n Allowed) (hpositions : Positions n shorttxids)
    {extra : H × Option (CTransaction Body Witness)}
    (htx : idOf extra.1 ∈ shorttxids.map Prod.fst → ∀ tx, extra.2 = some tx → ∀ position, Allowed position tx) :
    Safe (offerExtra ctx idOf shorttxids s extra) (Search.Ok n Allowed) := by
  rw [offerExtra]
  cases hlookup : shorttxids.lookup (idOf extra.1) with
  | none => exact hs
  | some position =>
      have hmem := mem_of_lookup hlookup
      have hlt : position < n := hpositions _ hmem
      have hallowed := htx (List.mem_map_of_mem hmem)
      refine (safe_fetch (by rw [hs.taken]; exact hlt)).bind fun taken _ => ?_
      split_ifs
      · exact hs.take hlt fun t ht => hallowed t ht position
      · refine (safe_fetch (by rw [hs.available]; exact hlt)).bind fun old _ => ?_
        split
        · exact hs
        · exact fun h => nomatch h
        · split_ifs
          · exact hs.reset hlt
          · exact hs

theorem searchLoop_safe {α : Type} {size : Nat} {body : Search Body Witness → α → Except Fault (Search Body Witness)}
    {I : Search Body Witness → Prop} {l : List α} (hbody : ∀ s, I s → ∀ a ∈ l, Safe (body s a) I)
      {s : Search Body Witness}
    (hs : I s) : Safe (searchLoop size body l s) I := by
  induction l generalizing s with
  | nil => exact hs
  | cons a rest ih =>
      refine (hbody s hs a List.mem_cons_self).bind fun s' hs' => ?_
      split_ifs
      · exact hs'
      · exact ih (fun s hs b hb => hbody s hs b (List.mem_cons_of_mem a hb)) hs'

/-- A transaction of the pools that is listed under one of the short ids. -/
def Offered (ctx : Context H Header Body Witness) (idOf : H → Nat) (shortids : List Nat) (pools : Pools H Body Witness)
    (tx : CTransaction Body Witness) : Prop :=
  (tx ∈ pools.vTxHashes ∧ idOf (getWitnessHash ctx tx) ∈ shortids) ∨
    ∃ hash, (hash, some tx) ∈ pools.extra_txn ∧ idOf hash ∈ shortids

theorem searchPools_safe [DecidableEq H] {pools : Pools H Body Witness} {shortids : List Nat}
    (hpositions : ∀ entry ∈ shorttxids, entry.1 ∈ shortids ∧ entry.2 < txn_available.length)
    (hplaced : ∀ j tx, txn_available[j]? = some (some tx) → Allowed j tx)
    (hoffered : ∀ tx, Offered ctx idOf shortids pools tx → ∀ j, Allowed j tx) :
    Safe (searchPools ctx idOf pools shorttxids txn_available) (Search.Ok txn_available.length Allowed) := by
  have hkeys : ∀ {shortid}, shortid ∈ shorttxids.map Prod.fst → shortid ∈ shortids := by
    intro shortid h
    obtain ⟨entry, hentry, rfl⟩ := List.mem_map.mp h
    exact (hpositions entry hentry).1
  have hpos : Positions txn_available.length shorttxids := fun entry hentry => (hpositions entry hentry).2
  have hstart : Search.Ok txn_available.length Allowed ⟨txn_available, List.replicate txn_available.length false, 0⟩ :=
    ⟨rfl, List.length_replicate, hplaced⟩
  refine (searchLoop_safe (fun s hs tx htx => offerPool_safe hs hpos ?_) hstart).bind fun s hs =>
    searchLoop_safe (fun s hs extra hextra => offerExtra_safe hs hpos ?_) hs
  · exact fun hid => hoffered tx (.inl ⟨htx, hkeys hid⟩)
  · rintro hid tx heq
    exact hoffered tx (.inr ⟨extra.1, by rw [← heq]; exact hextra, hkeys hid⟩)

/-- **`InitData`** indexes only inside its vectors. What is available after it was prefilled at its place or offered
under a short id. -/
theorem initData_safe [DecidableEq H] (cmpctblock : CBlockHeaderAndShortTxIDs Header Body Witness)
    (pools : Pools H Body Witness) :
    Safe (initData ctx cmpctblock pools) fun r => ∀ partialBlock, r = .ok partialBlock →
      partialBlock.header = cmpctblock.header ∧
      partialBlock.txn_available.length = cmpctblock.shorttxids.length + cmpctblock.prefilledtxn.length ∧
      partialBlock.txn_available.length ≤ getMaxBlockWeight / minSerializableTransactionWeight ∧
      ∀ j tx, partialBlock.txn_available[j]? = some (some tx) → Placed (-1) cmpctblock.prefilledtxn j tx ∨
        Offered ctx (getShortID ctx cmpctblock.header cmpctblock.nonce) cmpctblock.shorttxids pools tx := by
  rw [initData]
  split_ifs with hnull hmany
  · exact fun _ h => nomatch h
  · exact fun _ h => nomatch h
  set count := cmpctblock.shorttxids.length + cmpctblock.prefilledtxn.length with hcount
  have hempty : available (List.replicate count (none : Option (CTransaction Body Witness))) = 0 := by
    simp [available, List.countP_replicate]
  refine (placePrefilled_safe (by rw [List.length_replicate]; omega)).bind fun r hr => ?_
  cases r with
  | none => exact fun _ h => nomatch h
  | some placed =>
      obtain ⟨hlength, havail, hplaced⟩ := hr placed rfl
      rw [List.length_replicate] at hlength
      rw [hempty] at havail
      have hoffset : OffsetOk placed 0 0 := ⟨by decide, .inl (by simp [available])⟩
      refine (indexShortIds_safe (by omega) hoffset).bind fun r hr => ?_
      cases r with
      | none => exact fun _ h => nomatch h
      | some shorttxids =>
          have hpositions : ∀ entry ∈ shorttxids, entry.1 ∈ cmpctblock.shorttxids ∧ entry.2 < placed.length :=
            fun entry hentry => (hr shorttxids rfl entry hentry).resolve_left (List.not_mem_nil)
          dsimp only
          split_ifs with hsize
          · exact fun _ h => nomatch h
          · let Allowed (j : Nat) (tx : CTransaction Body Witness) : Prop := Placed (-1) cmpctblock.prefilledtxn j tx ∨
              Offered ctx (getShortID ctx cmpctblock.header cmpctblock.nonce) cmpctblock.shorttxids pools tx
            have hallowed : ∀ j tx, placed[j]? = some (some tx) → Allowed j tx := by
              intro j tx hj
              refine .inl ((hplaced j tx hj).resolve_left ?_)
              rw [List.getElem?_replicate]
              split_ifs <;> exact fun h => nomatch h
            refine (searchPools_safe hpositions hallowed fun tx htx _ => .inr htx).bind fun s hs => ?_
            rintro _ ⟨⟩
            exact ⟨rfl, hs.available.trans hlength, by rw [hs.available]; omega, hs.allowed⟩

end Init

/-! ## Filling a block -/

section Fill

variable {ctx}

theorem fillTransactions_safe (vtx_missing : List (CTransaction Body Witness))
    (txn_available : List (Option (CTransaction Body Witness))) (tx_missing_offset : Nat) :
    Safe (fillTransactions vtx_missing txn_available tx_missing_offset) fun r => ∀ vtx offset, r = some (vtx, offset) →
      vtx.length = txn_available.length := by
  induction txn_available generalizing tx_missing_offset with
  | nil =>
      rintro _ _ ⟨⟩
      rfl
  | cons tx rest ih =>
      have hcons : ∀ (tx : CTransaction Body Witness) (r : Option (List (CTransaction Body Witness) × Nat)),
          (∀ vtx offset, r = some (vtx, offset) → vtx.length = rest.length) →
          ∀ vtx offset, r.map (fun (vtx, offset) => (tx :: vtx, offset)) = some (vtx, offset) →
            vtx.length = rest.length + 1 := by
        intro tx r hr vtx offset h
        obtain ⟨⟨vtx', offset'⟩, rfl, heq⟩ := Option.map_eq_some_iff.mp h
        obtain ⟨rfl, -⟩ := Prod.mk.inj heq
        rw [List.length_cons, hr vtx' offset' rfl]
      cases tx with
      | some tx => exact (ih tx_missing_offset).bind fun r hr => hcons tx r hr
      | none =>
          rw [fillTransactions]
          split_ifs with hmissing
          · rintro _ _ ⟨⟩
          · refine (safe_fetch (by omega)).bind fun tx _ => ?_
            exact (ih (tx_missing_offset + 1)).bind fun r hr => hcons tx r hr

/-- The transactions that are available, and those of the block elsewhere. -/
def complete (vtx : List (CTransaction Body Witness)) (txn_available : List (Option (CTransaction Body Witness))) :
    List (CTransaction Body Witness) :=
  List.zipWith (fun tx available => available.getD tx) vtx txn_available

/-- The missing transactions of a block, behind any others, complete it. -/
theorem fillTransactions_missingFrom {vtx : List (CTransaction Body Witness)}
    {txn_available : List (Option (CTransaction Body Witness))} (hlen : vtx.length = txn_available.length)
    (before : List (CTransaction Body Witness)) :
    fillTransactions (before ++ missingFrom vtx txn_available) txn_available before.length =
      .ok (some (complete vtx txn_available, (before ++ missingFrom vtx txn_available).length)) := by
  induction txn_available generalizing vtx before with
  | nil =>
      obtain rfl := List.length_eq_zero_iff.mp hlen
      simp [fillTransactions, missingFrom, complete]
  | cons available rest ih =>
      obtain ⟨tx, vtx, rfl⟩ := List.exists_cons_of_length_eq_add_one hlen
      have hlen' : vtx.length = rest.length := Nat.succ.inj hlen
      cases available with
      | some old =>
          rw [missingFrom, fillTransactions, ih hlen' before]
          rfl
      | none =>
          have hrest := ih hlen' (before ++ [tx])
          rw [List.append_assoc, List.singleton_append, List.length_append, List.length_singleton] at hrest
          have hfetch : fetch (before ++ tx :: missingFrom vtx rest) before.length = .ok tx := by
            rw [fetch, List.getElem?_append_right le_rfl, Nat.sub_self]
            rfl
          rw [missingFrom, fillTransactions, if_neg (by simp), hfetch]
          show (fillTransactions _ rest (before.length + 1)).bind _ = _
          rw [hrest]
          rfl

variable [DecidableEq H]

theorem checkBlock_safe {block : CBlock Header Body Witness} (hlen : block.vtx.length < 2 ^ 31) :
    Safe (checkBlock ctx block) fun r => r = .ok () →
      MerkleTree.computeMerkleRoot ctx.hashPair ctx.zero (block.vtx.map (getHash ctx)) =
        some (ctx.hashMerkleRoot block.header, false) ∧ block.vtx ≠ [] := by
  have hroot : ∃ found, MerkleTree.computeMerkleRoot ctx.hashPair ctx.zero (block.vtx.map (getHash ctx)) =
      some found := by
    cases hvtx : block.vtx with
    | nil => exact ⟨(ctx.zero, false), rfl⟩
    | cons tx vtx =>
        have hne : block.vtx.map (getHash ctx) ≠ [] := by simp [hvtx]
        obtain ⟨mutated, hroot, -⟩ := MerkleTree.computeMerkleRoot_eq ctx.hashPair ctx.zero hne
          (by rwa [List.length_map])
        exact ⟨_, hvtx ▸ hroot⟩
  obtain ⟨⟨hashMerkleRoot2, mutated⟩, hroot⟩ := hroot
  rw [checkBlock, hroot]
  cases hheader : ctx.checkBlockHeader block.header with
  | false => exact fun h => nomatch h
  | true =>
    rw [if_neg (by decide)]
    dsimp only
    split_ifs with hmismatch hmutated hrest
    · exact fun h => nomatch h
    · exact fun h => nomatch h
    · exact fun h => nomatch h
    · intro _
      rw [not_ne_iff] at hmismatch
      rw [Bool.or_eq_true, not_or] at hrest
      refine ⟨by rw [hmismatch, Bool.eq_false_of_not_eq_true hmutated], ?_⟩
      simpa using hrest.1

/-- **`FillBlock`** indexes only inside its vectors. -/
theorem fillBlock_safe {partialBlock : PartiallyDownloadedBlock Header Body Witness}
    (hlen : partialBlock.txn_available.length < 2 ^ 31) (vtx_missing : List (CTransaction Body Witness)) :
    Safe (fillBlock ctx partialBlock vtx_missing) fun _ => True := by
  refine (fillTransactions_safe vtx_missing partialBlock.txn_available 0).bind fun r hr => ?_
  cases r with
  | none => trivial
  | some filled =>
      obtain ⟨vtx, offset⟩ := filled
      dsimp only
      split_ifs
      · trivial
      · refine (checkBlock_safe ?_).bind fun _ _ => trivial
        rw [hr vtx offset rfl]
        exact hlen

/-- A block filled with the missing transactions is the completed one, and has been checked. -/
theorem fillBlock_missingFrom {partialBlock : PartiallyDownloadedBlock Header Body Witness}
    {vtx : List (CTransaction Body Witness)} (hlen : vtx.length = partialBlock.txn_available.length)
    {filled : CBlock Header Body Witness}
    (h : fillBlock ctx partialBlock (missingFrom vtx partialBlock.txn_available) = .ok (.ok filled)) :
    filled = ⟨partialBlock.header, complete vtx partialBlock.txn_available⟩ ∧ checkBlock ctx filled = .ok (.ok ()) := by
  have hfill := fillTransactions_missingFrom hlen []
  rw [List.nil_append, List.length_nil] at hfill
  rw [fillBlock, hfill] at h
  cases hcheck : checkBlock ctx ⟨partialBlock.header, complete vtx partialBlock.txn_available⟩ with
  | error fault =>
      simp [bind, Except.bind, hcheck] at h
  | ok checked =>
      simp [bind, Except.bind, hcheck] at h
      cases checked with
      | error status => exact nomatch h
      | ok u =>
          obtain rfl : _ = filled := Except.ok.inj h
          exact ⟨rfl, hcheck⟩

end Fill

/-! ## The whole reconstruction -/

section Whole

variable [DecidableEq H] {ctx}

/-- Two blocks of one length that pass the check under one header have the same transaction hashes. -/
theorem map_getHash_eq {block filled : CBlock Header Body Witness} (hheader : filled.header = block.header)
    (hlength : filled.vtx.length = block.vtx.length) (hlen : block.vtx.length < 2 ^ 31)
    (hblock : checkBlock ctx block = .ok (.ok ())) (hfilled : checkBlock ctx filled = .ok (.ok ()))
    (hcollision : Merkle.NoCollision ctx.hashPair (fun i => (block.vtx.map (getHash ctx)).getD i ctx.zero)
      (fun i => (filled.vtx.map (getHash ctx)).getD i ctx.zero) block.vtx.length) :
    filled.vtx.map (getHash ctx) = block.vtx.map (getHash ctx) := by
  obtain ⟨hroot, hne⟩ := (checkBlock_safe hlen).of_ok hblock rfl
  obtain ⟨hroot', hne'⟩ := (checkBlock_safe (hlength ▸ hlen)).of_ok hfilled rfl
  have hnode : ∀ {b : CBlock Header Body Witness}, b.vtx ≠ [] → b.vtx.length = block.vtx.length →
      MerkleTree.computeMerkleRoot ctx.hashPair ctx.zero (b.vtx.map (getHash ctx)) =
        some (ctx.hashMerkleRoot b.header, false) →
      ctx.hashMerkleRoot b.header = Merkle.node ctx.hashPair (fun i => (b.vtx.map (getHash ctx)).getD i ctx.zero)
        block.vtx.length (Nat.clog 2 block.vtx.length) 0 := by
    intro b hb hblen hbroot
    have hleaves : b.vtx.map (getHash ctx) ≠ [] := by simpa using hb
    obtain ⟨mutated, hcomp, -⟩ := MerkleTree.computeMerkleRoot_eq ctx.hashPair ctx.zero hleaves
      (by rw [List.length_map, hblen]; exact hlen)
    rw [hbroot, Option.some.injEq, Prod.mk.injEq] at hcomp
    rw [hcomp.1, Merkle.root_eq_node ctx.zero hleaves, List.length_map, hblen]
  have hsame := (hnode hne rfl hroot).symm.trans
    ((congrArg ctx.hashMerkleRoot hheader.symm).trans (hnode hne' hlength hroot'))
  have hfit := Nat.le_pow_clog Nat.one_lt_two block.vtx.length
  refine List.ext_getElem (by rw [List.length_map, List.length_map, hlength]) fun i hi hi' => ?_
  rw [List.length_map] at hi hi'
  have hleaf := Merkle.leaf_of_node hcollision hsame (i := i) (by omega) (by omega) hi'
  simpa [hi, hi'] using hleaf.symm

/-- What is available is the transaction of the block at its place, if nothing else with its hash was offered. -/
theorem complete_eq {vtx : List (CTransaction Body Witness)} {txn_available : List (Option (CTransaction Body Witness))}
    (hlen : vtx.length = txn_available.length)
    (h : ∀ (j : Nat) tx, txn_available[j]? = some (some tx) → vtx[j]? = some tx) :
        complete vtx txn_available = vtx := by
  refine List.ext_getElem? fun j => ?_
  rw [complete, List.getElem?_zipWith]
  rcases Nat.lt_or_ge j vtx.length with hlt | hge
  · have hlt' : j < txn_available.length := hlen ▸ hlt
    cases havail : txn_available[j] with
    | none => rw [List.getElem?_eq_getElem hlt, List.getElem?_eq_getElem hlt', havail]; rfl
    | some tx =>
        rw [List.getElem?_eq_getElem hlt', havail, h j tx (by rw [List.getElem?_eq_getElem hlt', havail])]
        rfl
  · rw [List.getElem?_eq_none hge]

/-- What a reconstruction makes of a valid block. -/
theorem fillBlock_initData {block : CBlock Header Body Witness} {nonce : Nat} {fUseWTXID : Bool}
    {cmpctblock : CBlockHeaderAndShortTxIDs Header Body Witness} {pools : Pools H Body Witness}
    {partialBlock : PartiallyDownloadedBlock Header Body Witness} {filled : CBlock Header Body Witness}
    (hvalid : checkBlock ctx block = .ok (.ok ())) (hform : compactForm ctx block nonce fUseWTXID = some cmpctblock)
    (hinit : initData ctx cmpctblock pools = .ok (.ok partialBlock))
    (hfill : fillBlock ctx partialBlock (missingFrom block.vtx partialBlock.txn_available) = .ok (.ok filled))
    (hcollision : Merkle.NoCollision ctx.hashPair (fun i => (block.vtx.map (getHash ctx)).getD i ctx.zero)
      (fun i => (filled.vtx.map (getHash ctx)).getD i ctx.zero) block.vtx.length) :
    filled.header = block.header ∧ filled.vtx.map (getHash ctx) = block.vtx.map (getHash ctx) ∧
      ((∀ tx, Offered ctx (getShortID ctx block.header nonce) cmpctblock.shorttxids pools tx →
        ∀ own ∈ block.vtx, getHash ctx tx = getHash ctx own → tx = own) → filled = block) := by
  obtain ⟨hheader, hlength, hlimit, hfrom⟩ := (initData_safe cmpctblock pools).of_ok hinit _ rfl
  obtain ⟨header, vtx⟩ := block
  cases vtx with
  | nil => exact nomatch hform
  | cons coinbase vtx =>
      obtain rfl := Option.some.inj hform
      rw [List.length_map, List.length_singleton] at hlength
      have hlen : (coinbase :: vtx).length = partialBlock.txn_available.length := hlength.symm
      obtain ⟨rfl, hchecked⟩ := fillBlock_missingFrom hlen hfill
      have hcomplete : (complete (coinbase :: vtx) partialBlock.txn_available).length = (coinbase :: vtx).length := by
        rw [complete, List.length_zipWith, hlen, Nat.min_self]
      have hbound : (coinbase :: vtx).length < 2 ^ 31 := (hlen.trans_le hlimit).trans_lt (by decide)
      have hhashes := map_getHash_eq hheader hcomplete hbound hvalid hchecked hcollision
      refine ⟨hheader, hhashes, fun hoffered => ?_⟩
      have hsame : complete (coinbase :: vtx) partialBlock.txn_available = coinbase :: vtx := by
        refine complete_eq hlen fun j tx hj => ?_
        obtain ⟨hlt, hget⟩ := List.getElem?_eq_some_iff.mp hj
        rw [List.getElem?_eq_getElem (hlen ▸ hlt), Option.some.injEq]
        rcases hfrom j tx hj with (⟨rfl, rfl⟩ | hfalse) | hoffer
        · rfl
        · exact hfalse.elim
        · -- the hash of what was offered is the one that the block has at this place
          refine (hoffered tx hoffer _ (List.getElem_mem _) ?_).symm
          have hj' := congrArg (fun l => l[j]?) hhashes
          simp only [List.getElem?_map, complete, List.getElem?_zipWith, hj,
            List.getElem?_eq_getElem (hlen ▸ hlt)] at hj'
          exact Option.some.inj hj'
      exact congrArg₂ CBlock.mk hheader hsame

end Whole

/-- **Compact blocks.** A block that was reconstructed from the compact form of a valid block, with the missing
transactions of that block, has its header and its transaction hashes, if no two nodes of the merkle trees collide.
It is that block if no transaction of the pools has one of the short ids and the hash of a transaction of the block
without being it; the hash does not cover the witness. And no compact block makes the functions index outside their
vectors. -/
theorem compact_blocks {H Header Body Witness : Type} [DecidableEq H] (ctx : Context H Header Body Witness) :
    (∀ (block : CBlock Header Body Witness) (nonce : Nat) (fUseWTXID : Bool)
      (cmpctblock : CBlockHeaderAndShortTxIDs Header Body Witness) (pools : Pools H Body Witness)
      (partialBlock : PartiallyDownloadedBlock Header Body Witness) (filled : CBlock Header Body Witness),
      checkBlock ctx block = .ok (.ok ()) → compactForm ctx block nonce fUseWTXID = some cmpctblock →
      initData ctx cmpctblock pools = .ok (.ok partialBlock) →
      fillBlock ctx partialBlock (missingFrom block.vtx partialBlock.txn_available) = .ok (.ok filled) →
      Merkle.NoCollision ctx.hashPair (fun i => (block.vtx.map (getHash ctx)).getD i ctx.zero)
        (fun i => (filled.vtx.map (getHash ctx)).getD i ctx.zero) block.vtx.length →
      filled.header = block.header ∧ filled.vtx.map (getHash ctx) = block.vtx.map (getHash ctx) ∧
        ((∀ tx, Offered ctx (getShortID ctx block.header nonce) cmpctblock.shorttxids pools tx →
          ∀ own ∈ block.vtx, getHash ctx tx = getHash ctx own → tx = own) → filled = block)) ∧
    (∀ (cmpctblock : CBlockHeaderAndShortTxIDs Header Body Witness) (pools : Pools H Body Witness),
      initData ctx cmpctblock pools ≠ .error .outOfBounds ∧
      ∀ partialBlock, initData ctx cmpctblock pools = .ok (.ok partialBlock) →
        ∀ vtx_missing, fillBlock ctx partialBlock vtx_missing ≠ .error .outOfBounds) := by
  refine ⟨fun block nonce fUseWTXID cmpctblock pools partialBlock filled hvalid hform hinit hfill hcollision =>
    fillBlock_initData hvalid hform hinit hfill hcollision, fun cmpctblock pools => ⟨?_, ?_⟩⟩
  · exact (initData_safe cmpctblock pools).ne_outOfBounds
  · intro partialBlock hinit vtx_missing
    obtain ⟨-, -, hlimit, -⟩ := (initData_safe cmpctblock pools).of_ok hinit _ rfl
    exact (fillBlock_safe (hlimit.trans_lt (by decide)) vtx_missing).ne_outOfBounds

/-- Small numbers for hashes; the short id is the lower part of the hash, and the witness goes into the upper part. -/
def sampleContext : Context Nat Nat Nat Nat where
  hashPair a b := 100 * a + b
  zero := 0
  hashBody body := body
  hashAll body witness := body + 2 ^ 48 * witness
  isNullBody body := body = 0
  isNullHeader header := header = 0
  hashMerkleRoot header := header
  sipHash _ _ hash := hash
  checkBlockHeader _ := true
  checkTransactions _ _ := true
  bucketSize _ _ _ := 1

def sampleBlock : CBlock Nat Nat Nat := ⟨102, [⟨1, none⟩, ⟨2, some 1⟩]⟩

def sampleCompact : CBlockHeaderAndShortTxIDs Nat Nat Nat := ⟨102, 7, [2], [⟨0, ⟨1, none⟩⟩]⟩

theorem compact_blocks_sample :
    initData sampleContext sampleCompact ⟨[⟨2, some 1⟩], []⟩ = .ok (.ok ⟨102, [some ⟨1, none⟩, some ⟨2, some 1⟩]⟩) ∧
      sampleBlock.vtx.map (getHash sampleContext) = [1, 2] :=
  ⟨rfl, ((compact_blocks sampleContext).1 sampleBlock 7 true sampleCompact ⟨[⟨2, some 1⟩], []⟩
    ⟨102, [some ⟨1, none⟩, some ⟨2, some 1⟩]⟩ sampleBlock rfl rfl rfl rfl fun _ _ _ => ⟨rfl, rfl⟩).2.1⟩

/-- A transaction of the mempool with another witness and the same short id gets into the block. -/
theorem not_faithful_otherWitness :
    ∃ (pools : Pools Nat Nat Nat) (partialBlock : PartiallyDownloadedBlock Nat Nat Nat) (filled : CBlock Nat Nat Nat),
      checkBlock sampleContext sampleBlock = .ok (.ok ()) ∧
      compactForm sampleContext sampleBlock 7 true = some sampleCompact ∧
      initData sampleContext sampleCompact pools = .ok (.ok partialBlock) ∧
      fillBlock sampleContext partialBlock (missingFrom sampleBlock.vtx partialBlock.txn_available) = .ok (.ok filled) ∧
      Merkle.NoCollision sampleContext.hashPair
        (fun i => (sampleBlock.vtx.map (getHash sampleContext)).getD i 0)
        (fun i => (filled.vtx.map (getHash sampleContext)).getD i 0) sampleBlock.vtx.length ∧
      filled.vtx ≠ sampleBlock.vtx :=
  ⟨⟨[⟨2, some 2⟩], []⟩, ⟨102, [some ⟨1, none⟩, some ⟨2, some 2⟩]⟩, ⟨102, [⟨1, none⟩, ⟨2, some 2⟩]⟩, rfl, rfl, rfl, rfl,
    fun _ _ _ => ⟨rfl, rfl⟩, by decide⟩

end RavenCash.CompactBlock
