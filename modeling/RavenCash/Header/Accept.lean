import RavenCash.Header.Pow
import RavenCash.Basic.Validation
import RavenCash.Basic.MainnetCodec

/-!
# Accepting a header

`CheckBlockHeader`, `ContextualCheckBlockHeader`, `AddToBlockIndex` and `AcceptBlockHeader` of
`validation.cpp`. The first chooses between two proof-of-work checks by the height the header
claims, before its parent is known, and nothing later compares that height with the real one.
`meetsRealPow_iff` says for which headers the proof of work of the real height is guaranteed.
-/

set_option autoImplicit false

namespace RavenCash

/-- The chain parameters the header checks read; checkpoints by increasing height. -/
structure CChainParams where
  consensus : ConsensusParams
  mapCheckpoints : List (Int × UInt256)

/-- What the checks read besides: the checkpoint flag, the adjusted time, the chainlocks. -/
structure HeaderContext where
  fCheckpointsEnabled : Bool := true
  nAdjustedTime : Int
  hasConflictingChainLock : Int → UInt256 → Bool := fun _ _ => false

def MAX_FUTURE_BLOCK_TIME : Int := 15 * 60

/-- `Checkpoints::GetLastCheckpoint`: the highest checkpoint that is in the tree. -/
def getLastCheckpoint (tree : BlockTree) (chainparams : CChainParams) : Option CBlockIndex :=
  chainparams.mapCheckpoints.reverse.findSome? (fun i => tree.find i.2)

section

variable [NodeCrypto]

/-! ## The checks -/

/-- `pcheckpoint && block.nHeight <= (uint32_t)pcheckpoint->nHeight` -/
def claimsCheckpointed (tree : BlockTree) (chainparams : CChainParams) (block : CBlockHeader) :
    Bool :=
  match getLastCheckpoint tree chainparams with
  | some pcheckpoint => decide (block.nHeight ≤ UInt32.ofInt pcheckpoint.nHeight)
  | none => false

def checkBlockHeader (mix : HashMix) (chainparams : CChainParams) (tree : BlockTree)
    (block : CBlockHeader) (fCheckPOW : Bool := true) : Check :=
  if fCheckPOW && decide (KAWPOW_TIME ≤ block.nTime) && claimsCheckpointed tree chainparams block then
    failIf (!checkProofOfWork block.getHash block.nBits chainparams.consensus)
      ⟨50, REJECT_INVALID, "high-hash", "proof of work failed with mix_hash only check"⟩
  else do
    failIf (fCheckPOW && !checkProofOfWork (block.getHashFull mix).1 block.nBits
      chainparams.consensus) ⟨50, REJECT_INVALID, "high-hash", "proof of work failed"⟩
    failIf (fCheckPOW && decide (KAWPOW_TIME ≤ block.nTime) &&
      (block.getHashFull mix).2 != block.mix_hash)
      ⟨50, REJECT_INVALID, "invalid-mix-hash", "mix_hash validity failed"⟩

/-- `none` where `GetNextWorkRequired` fails an assertion. -/
def contextualCheckBlockHeader (ctx : HeaderContext) (chainparams : CChainParams) (tree : BlockTree)
    (block : CBlockHeader) (pindexPrev : CBlockIndex) : Option Check :=
  let nHeight := pindexPrev.nHeight + 1
  let blockTime : Int := block.nTime.toNat
  let medianTimePast := tree.getMedianTimePast pindexPrev
  let latest := ctx.nAdjustedTime + MAX_FUTURE_BLOCK_TIME
  (getNextWorkRequired tree chainparams.consensus pindexPrev block).map fun nBits => do
    failIf (block.nBits != nBits)
      ⟨100, REJECT_INVALID, "bad-diffbits", s!"incorrect proof of work at {nHeight}"⟩
    failIf (ctx.fCheckpointsEnabled && (getLastCheckpoint tree chainparams).any
        (fun pcheckpoint => decide (nHeight < pcheckpoint.nHeight)))
      ⟨100, REJECT_CHECKPOINT, "bad-fork-prior-to-checkpoint", ""⟩
    failIf (decide (blockTime ≤ medianTimePast))
      ⟨0, REJECT_INVALID, "time-too-old",
        s!"block's timestamp is too early {blockTime} {medianTimePast}"⟩
    failIf (decide (latest < blockTime))
      ⟨0, REJECT_INVALID, "time-too-new",
        s!"block timestamp too far in the future {blockTime} {latest}"⟩

/-! ## The tree after a header -/

/-- The new entry, linked to its parent if that is known. -/
def newBlockIndex (tree : BlockTree) (block : CBlockHeader) (hash : UInt256) : CBlockIndex :=
  let pindexNew := CBlockIndex.ofHeader block hash
  match tree.find block.hashPrevBlock with
  | some pprev =>
      let pindexNew := tree.buildSkip { pindexNew with
        pprev := some block.hashPrevBlock
        nHeight := pprev.nHeight + 1 }
      { pindexNew with
        nTimeMax := max pprev.nTimeMax block.nTime
        nChainWork := pprev.nChainWork + getBlockProof block.nBits }
  | none => { pindexNew with nTimeMax := block.nTime, nChainWork := getBlockProof block.nBits }

/-- The best header after `pindexNew` came in. -/
def bestHeader (tree : BlockTree) (pindexNew : CBlockIndex) : Option UInt256 :=
  match tree.pindexBestHeader.bind tree.find with
  | some best => if best.nChainWork < pindexNew.nChainWork then some pindexNew.phashBlock
      else tree.pindexBestHeader
  | none => some pindexNew.phashBlock

/-- The validity an entry is added with. -/
def CBlockIndex.withStatus (pindexNew : CBlockIndex) (nStatus : UInt32) : CBlockIndex :=
  if nStatus &&& BLOCK_VALID_MASK ≠ 0 then pindexNew.raiseValidity nStatus
  else
    let raised := pindexNew.raiseValidity BLOCK_VALID_TREE
    { raised with nStatus := raised.nStatus ||| nStatus }

/-- The tree with a new entry for the header. -/
def BlockTree.insertHeader (tree : BlockTree) (block : CBlockHeader) (nStatus : UInt32) :
    BlockTree :=
  let hash := block.getHash
  let pindexNew := (newBlockIndex tree block hash).withStatus nStatus
  { tree.setDirty hash with
    mapBlockIndex := tree.mapBlockIndex.insert hash pindexNew
    pindexBestHeader := if nStatus &&& BLOCK_VALID_MASK ≠ 0 then bestHeader tree pindexNew
      else tree.pindexBestHeader
    mapPrevBlockIndex := match pindexNew.pprev with
      | some prev => tree.mapPrevBlockIndex ++ [(prev, hash)]
      | none => tree.mapPrevBlockIndex }

def BlockTree.addToBlockIndex (tree : BlockTree) (block : CBlockHeader) (nStatus : UInt32) :
    BlockTree :=
  if (tree.find block.getHash).isSome then tree else tree.insertHeader block nStatus

/-- The first failed block that `pindexPrev` descends from. -/
def failedAncestor (tree : BlockTree) (pindexPrev : CBlockIndex) : Option CBlockIndex :=
  tree.g_failed_blocks.findSome? (fun hash =>
    (tree.find hash).bind (fun failedit =>
      if (tree.getAncestor pindexPrev failedit.nHeight).map CBlockIndex.phashBlock =
          some failedit.phashBlock then some failedit else none))

/-- Marks the entries from `invalid_walk` down to the failed block. -/
def markFailedChild (failedit : CBlockIndex) : Nat → BlockTree → CBlockIndex → BlockTree
  | 0, tree, _ => tree
  | fuel + 1, tree, invalid_walk =>
      if invalid_walk.phashBlock = failedit.phashBlock then tree
      else
        let marked := { invalid_walk with nStatus := invalid_walk.nStatus ||| BLOCK_FAILED_CHILD }
        let tree := { tree.setDirty invalid_walk.phashBlock with
          mapBlockIndex := tree.mapBlockIndex.insert invalid_walk.phashBlock marked }
        match tree.prev invalid_walk with
        | some p => markFailedChild failedit fuel tree p
        | none => tree

/-- The rest of `AcceptBlockHeader`, once the header has passed `CheckBlockHeader`. -/
def acceptCheckedHeader (ctx : HeaderContext) (chainparams : CChainParams) (tree : BlockTree)
    (block : CBlockHeader) : Option (Except CValidationError UInt256 × BlockTree) :=
  let hash := block.getHash
  match tree.find block.hashPrevBlock with
  | none => some (.error ⟨10, 0, "prev-blk-not-found", ""⟩, tree)
  | some pindexPrev =>
      if pindexPrev.nStatus &&& BLOCK_FAILED_MASK ≠ 0 then
        some (.error ⟨100, REJECT_INVALID, "bad-prevblk", ""⟩, tree)
      else if pindexPrev.nStatus &&& BLOCK_CONFLICT_CHAINLOCK ≠ 0 then
        some (.error ⟨10, REJECT_INVALID, "bad-prevblk-chainlock", ""⟩, tree)
      else
        match contextualCheckBlockHeader ctx chainparams tree block pindexPrev with
        | none => none
        | some (.error e) => some (.error e, tree)
        | some (.ok _) =>
            match if pindexPrev.isValid BLOCK_VALID_SCRIPTS then none
                else failedAncestor tree pindexPrev with
            | some failedit =>
                some (.error ⟨100, REJECT_INVALID, "bad-prevblk", ""⟩,
                  markFailedChild failedit (pindexPrev.nHeight.toNat + 1) tree pindexPrev)
            | none =>
                if ctx.hasConflictingChainLock (pindexPrev.nHeight + 1) hash then
                  some (.error ⟨10, REJECT_INVALID, "bad-chainlock", ""⟩,
                    tree.addToBlockIndex block BLOCK_CONFLICT_CHAINLOCK)
                else some (.ok hash, tree.addToBlockIndex block BLOCK_VALID_TREE)

/-- `AcceptBlockHeader`: the index entry or the error, and the tree it leaves. -/
def acceptBlockHeader (mix : HashMix) (ctx : HeaderContext) (chainparams : CChainParams)
    (tree : BlockTree) (block : CBlockHeader) :
    Option (Except CValidationError UInt256 × BlockTree) :=
  let hash := block.getHash
  if hash = chainparams.consensus.hashGenesisBlock then
    some (.ok hash, tree.addToBlockIndex block BLOCK_VALID_TREE)
  else
    match tree.find hash with
    | some pindex =>
        if pindex.nStatus &&& BLOCK_FAILED_MASK ≠ 0 then some (.error ⟨0, 0, "duplicate", ""⟩, tree)
        else some (.ok hash, tree)
    | none =>
        match checkBlockHeader mix chainparams tree block with
        | .error e => some (.error e, tree)
        | .ok _ => acceptCheckedHeader ctx chainparams tree block

/-! ## The proof of work of the real height -/

/-- The KAWPOW hash of the header at `height` meets the target of its `nBits`, and the mix hash is
the one the header carries. -/
def MeetsPow (mix : HashMix) (params : ConsensusParams) (block : CBlockHeader) (height : Int) :
    Prop :=
  checkProofOfWork (block.kawpowHashAt mix height).1 block.nBits params = true ∧
    (block.kawpowHashAt mix height).2 = block.mix_hash

/-- **The proof of work cannot be bypassed**: above the last checkpoint, the header meets the proof
of work of its real height, one more than the height of its parent. -/
def MeetsRealPow (mix : HashMix) (chainparams : CChainParams) (tree : BlockTree)
    (block : CBlockHeader) : Prop :=
  ∀ pindexPrev, tree.find block.hashPrevBlock = some pindexPrev →
    (∀ pcheckpoint, getLastCheckpoint tree chainparams = some pcheckpoint →
      pcheckpoint.nHeight < pindexPrev.nHeight + 1) →
    MeetsPow mix chainparams.consensus block (pindexPrev.nHeight + 1)

/-- `AcceptBlockHeader` adds the header to the block index. -/
def NewlyAdded (mix : HashMix) (ctx : HeaderContext) (chainparams : CChainParams)
    (tree : BlockTree) (block : CBlockHeader) : Prop :=
  tree.find block.getHash = none ∧ ∃ result tree',
    acceptBlockHeader mix ctx chainparams tree block = some (result, tree') ∧
      (tree'.find block.getHash).isSome = true

variable {mix : HashMix} {ctx : HeaderContext} {chainparams : CChainParams} {tree : BlockTree}
  {block : CBlockHeader}

/-- A KAWPOW hash reads the block number through its period. -/
theorem kawpowHashAt_of_period {m n : Int} (h : periodNumber m = periodNumber n) :
    block.kawpowHashAt mix m = block.kawpowHashAt mix n := by
  have hepoch : getEpochNumber m = getEpochNumber n := by
    rw [getEpochNumber_eq, getEpochNumber_eq, h]
  unfold CBlockHeader.kawpowHashAt ProgPow.hash
  rw [hepoch, h]

/-- With the mix hash of the header, the KAWPOW hash is the hash of the block. -/
theorem kawpowHashAt_fst {n : Int} (h : (block.kawpowHashAt mix n).2 = block.mix_hash) :
    (block.kawpowHashAt mix n).1 = block.kawpowHash_OnlyMix := by
  show ProgPow.hash_no_verify n block.getKAWPOWHeaderHash (block.kawpowHashAt mix n).2
    block.nNonce64 = _
  rw [h]
  rfl

theorem getHash_of_kawpow (hkaw : KAWPOW_TIME ≤ block.nTime) :
    block.getHash = block.kawpowHash_OnlyMix := by
  unfold CBlockHeader.getHash
  rw [if_neg (UInt32.not_lt.mpr hkaw)]

/-- A KAWPOW header that claims a checkpointed height is held to its hash only. -/
theorem checkBlockHeader_of_claims (hkaw : KAWPOW_TIME ≤ block.nTime)
    (hclaims : claimsCheckpointed tree chainparams block = true) :
    checkBlockHeader mix chainparams tree block = .ok () ↔
      checkProofOfWork block.getHash block.nBits chainparams.consensus = true := by
  unfold checkBlockHeader
  simp [hkaw, hclaims]

/-- Every other KAWPOW header is held to the proof of work of the height it claims. -/
theorem checkBlockHeader_of_not_claims (hkaw : KAWPOW_TIME ≤ block.nTime)
    (hclaims : claimsCheckpointed tree chainparams block = false) :
    checkBlockHeader mix chainparams tree block = .ok () ↔
      MeetsPow mix chainparams.consensus block block.blockNumber := by
  have hfull : block.getHashFull mix = block.kawpowHashAt mix block.blockNumber := by
    unfold CBlockHeader.getHashFull
    rw [if_neg (UInt32.not_lt.mpr hkaw)]
    rfl
  unfold checkBlockHeader
  simp [hkaw, hclaims, hfull, bind_ok, MeetsPow]

/-- A header that is added has passed the context-free check; the rest does not depend on the
mix. -/
theorem newlyAdded_iff (hgen : block.getHash ≠ chainparams.consensus.hashGenesisBlock) :
    NewlyAdded mix ctx chainparams tree block ↔
      checkBlockHeader mix chainparams tree block = .ok () ∧ tree.find block.getHash = none ∧
        ∃ result tree', acceptCheckedHeader ctx chainparams tree block = some (result, tree') ∧
          (tree'.find block.getHash).isSome = true := by
  unfold NewlyAdded acceptBlockHeader
  rw [if_neg hgen]
  constructor
  · rintro ⟨hnone, result, tree', hacc, hadd⟩
    rw [hnone] at hacc
    cases hcheck : checkBlockHeader mix chainparams tree block with
    | error e =>
        rw [hcheck] at hacc
        cases hacc
        rw [hnone] at hadd
        cases hadd
    | ok u =>
        rw [hcheck] at hacc
        exact ⟨rfl, hnone, result, tree', hacc, hadd⟩
  · rintro ⟨hcheck, hnone, hrest⟩
    refine ⟨hnone, ?_⟩
    rw [hnone, hcheck]
    exact hrest

theorem find_addToBlockIndex (tree : BlockTree) (block : CBlockHeader) (nStatus : UInt32) :
    ((tree.addToBlockIndex block nStatus).find block.getHash).isSome = true := by
  unfold BlockTree.addToBlockIndex
  by_cases hfind : (tree.find block.getHash).isSome = true
  · rw [if_pos hfind]
    exact hfind
  · rw [if_neg hfind]
    show ((tree.mapBlockIndex.insert block.getHash _).lookup block.getHash).isSome = true
    rw [AList.lookup_insert]
    rfl

/-- A header that passes every check on a valid parent is added. -/
theorem NewlyAdded.of_checks (pindexPrev : CBlockIndex)
    (hgen : block.getHash ≠ chainparams.consensus.hashGenesisBlock)
    (hnone : tree.find block.getHash = none)
    (hcheck : checkBlockHeader mix chainparams tree block = .ok ())
    (hprev : tree.find block.hashPrevBlock = some pindexPrev)
    (hfailed : pindexPrev.nStatus &&& BLOCK_FAILED_MASK = 0)
    (hconflict : pindexPrev.nStatus &&& BLOCK_CONFLICT_CHAINLOCK = 0)
    (hcontext : contextualCheckBlockHeader ctx chainparams tree block pindexPrev = some (.ok ()))
    (hvalid : pindexPrev.isValid BLOCK_VALID_SCRIPTS = true) :
    NewlyAdded mix ctx chainparams tree block := by
  refine (newlyAdded_iff hgen).mpr ⟨hcheck, hnone, ?_⟩
  have hrest : acceptCheckedHeader ctx chainparams tree block =
      if ctx.hasConflictingChainLock (pindexPrev.nHeight + 1) block.getHash then
        some (.error ⟨10, REJECT_INVALID, "bad-chainlock", ""⟩,
          tree.addToBlockIndex block BLOCK_CONFLICT_CHAINLOCK)
      else some (.ok block.getHash, tree.addToBlockIndex block BLOCK_VALID_TREE) := by
    simp only [acceptCheckedHeader, hprev, hfailed, hconflict, hcontext, hvalid, ne_eq,
      not_true_eq_false, if_false, if_true]
  rw [hrest]
  split
  · exact ⟨_, _, rfl, find_addToBlockIndex ..⟩
  · exact ⟨_, _, rfl, find_addToBlockIndex ..⟩

/-- The mix of the header for every period but one, in which it differs. -/
def otherMix (block : CBlockHeader) (period : Int) : HashMix :=
  fun _ p _ _ => if p = period then block.mix_hash + 1 else block.mix_hash

theorem not_meetsPow_otherMix (params : ConsensusParams) (height : Int) :
    ¬ MeetsPow (otherMix block (periodNumber height)) params block height := by
  rintro ⟨_, hmix⟩
  have hother : (block.kawpowHashAt (otherMix block (periodNumber height)) height).2 =
      block.mix_hash + 1 := by
    show (if periodNumber height = periodNumber height then block.mix_hash + 1
      else block.mix_hash) = _
    rw [if_pos rfl]
  rw [hother] at hmix
  generalize block.mix_hash = x at hmix
  bv_omega

/-- In another period that mix is the mix of the header. -/
theorem meetsPow_otherMix {period height : Int} {params : ConsensusParams}
    (hne : periodNumber height ≠ period)
    (hpow : checkProofOfWork block.kawpowHash_OnlyMix block.nBits params = true) :
    MeetsPow (otherMix block period) params block height := by
  have hmix : (block.kawpowHashAt (otherMix block period) height).2 = block.mix_hash := by
    show (if periodNumber height = period then block.mix_hash + 1 else block.mix_hash) = _
    rw [if_neg hne]
  refine ⟨?_, hmix⟩
  rw [kawpowHashAt_fst hmix]
  exact hpow

/-- **A KAWPOW header is held to the proof of work of its real height, whatever the mix function,
exactly when the height it claims lies above the last checkpoint and in the ProgPoW period of the
real height.** -/
theorem meetsRealPow_iff (ctx : HeaderContext) (chainparams : CChainParams) (tree : BlockTree)
    (block : CBlockHeader) (pindexPrev : CBlockIndex)
    (hgen : block.getHash ≠ chainparams.consensus.hashGenesisBlock)
    (hkaw : KAWPOW_TIME ≤ block.nTime)
    (hprev : tree.find block.hashPrevBlock = some pindexPrev)
    (habove : ∀ pcheckpoint, getLastCheckpoint tree chainparams = some pcheckpoint →
      pcheckpoint.nHeight < pindexPrev.nHeight + 1)
    (hadded : ∃ mix, NewlyAdded mix ctx chainparams tree block) :
    (∀ mix, NewlyAdded mix ctx chainparams tree block → MeetsRealPow mix chainparams tree block) ↔
      claimsCheckpointed tree chainparams block = false ∧
        periodNumber block.blockNumber = periodNumber (pindexPrev.nHeight + 1) := by
  constructor
  · intro hall
    obtain ⟨mix, hmix⟩ := hadded
    obtain ⟨hcheck, hrest⟩ := (newlyAdded_iff hgen).mp hmix
    -- a header that the other mix lets in contradicts the guarantee
    have hother : ¬ checkBlockHeader (otherMix block (periodNumber (pindexPrev.nHeight + 1)))
        chainparams tree block = .ok () := by
      intro h
      exact not_meetsPow_otherMix _ _
        (hall _ ((newlyAdded_iff hgen).mpr ⟨h, hrest⟩) pindexPrev hprev habove)
    cases hclaims : claimsCheckpointed tree chainparams block with
    | true =>
        rw [checkBlockHeader_of_claims hkaw hclaims] at hcheck hother
        exact absurd hcheck hother
    | false =>
        rw [checkBlockHeader_of_not_claims hkaw hclaims] at hcheck hother
        refine ⟨rfl, ?_⟩
        by_contra hne
        have hpow : checkProofOfWork block.kawpowHash_OnlyMix block.nBits chainparams.consensus =
            true := by
          rw [← kawpowHashAt_fst hcheck.2]
          exact hcheck.1
        exact hother (meetsPow_otherMix hne hpow)
  · rintro ⟨hclaims, hperiod⟩ mix hmix pindexPrev' hprev' _
    have hcheck := ((newlyAdded_iff hgen).mp hmix).1
    rw [checkBlockHeader_of_not_claims hkaw hclaims] at hcheck
    have hsame : pindexPrev = pindexPrev' := by
      rw [hprev] at hprev'
      exact Option.some.inj hprev'
    subst hsame
    unfold MeetsPow
    rw [← kawpowHashAt_of_period hperiod]
    exact hcheck

end

/-! ## Two headers after the mainnet genesis block -/

section Mainnet

attribute [local instance] mainnetCrypto

def mainnetParams : CChainParams where
  consensus :=
    { hashGenesisBlock := 0x000504915e6a607b9cc64bae35fb27dd42afe89449cb058572aeedb605adf579
      powLimit := 0x00ffffffffffffffffffffffffffffffffffffffffffffffffffffffffffffff
      nPowTargetTimespan := 2016 * 60
      nPowTargetSpacing := 60
      fPowAllowMinDifficultyBlocks := false
      fPowNoRetargeting := false
      nPowDGWHeight := 1 }
  mapCheckpoints := [(0, 0x000504915e6a607b9cc64bae35fb27dd42afe89449cb058572aeedb605adf579)]

/-- The index entry of the mainnet genesis block. -/
def mainnetGenesis : CBlockIndex where
  phashBlock := 0x000504915e6a607b9cc64bae35fb27dd42afe89449cb058572aeedb605adf579
  nHeight := 0
  nChainWork := getBlockProof 0x20001fff
  nStatus := 29
  nVersion := 4
  hashMerkleRoot := 0x5025b8fe5dcbecec88e58eeedc77bf15240a2676f0a1ca89161bc769c9f2c251
  nTime := 1724271490
  nBits := 0x20001fff
  nNonce := 5183
  nNonce64 := 5183
  mix_hash := 0x9e450c056eb59554c61c4f05285451a2a1a18e2dc53de6015442c06a0f0cfcad
  nTimeMax := 1724271490

/-- The block tree of a mainnet node that has the genesis block only. -/
def genesisTree : BlockTree where
  mapBlockIndex := AList.insert mainnetGenesis.phashBlock mainnetGenesis ∅
  pindexBestHeader := some mainnetGenesis.phashBlock

def mainnetContext : HeaderContext where
  nAdjustedTime := 1724271550

/-- ProgPoW mixes of the first period of mainnet, by the seed words. -/
def mainnetMix : HashMix := fun epoch_number period seed0 seed1 =>
  if epoch_number = 0 ∧ period = 0 then
    if seed0 = 170871927 ∧ seed1 = 1601149604 then
      0x79dc598f3543c8371b69d8b1f143a56ab22a2684d183007e491d02bc6196df17
    else if seed0 = 3062944563 ∧ seed1 = 4264894944 then
      0x752a4f65becd548e622af3473160e87b46379212755b6a4b40130cbe8c339d04
    else 0
  else 0

/-- A mined header for height `1`. -/
def minedHeader : CBlockHeader where
  nVersion := 0x20000000
  hashPrevBlock := mainnetGenesis.phashBlock
  hashMerkleRoot := 1
  nTime := 1724271550
  nBits := 0x2000ffff
  nHeight := 1
  nNonce64 := 0x80
  mix_hash := 0x79dc598f3543c8371b69d8b1f143a56ab22a2684d183007e491d02bc6196df17

/-- A header for height `1` that claims height `0`, with a mix hash that was not mined. -/
def forgedHeader : CBlockHeader :=
  { minedHeader with nHeight := 0, nNonce64 := 0x15, mix_hash := 0 }

theorem find_genesisTree {hash : UInt256} (h : hash ≠ mainnetGenesis.phashBlock) :
    genesisTree.find hash = none := by
  unfold BlockTree.find genesisTree
  rw [AList.lookup_insert_ne h]
  rfl

/-- ProgPoW of the mined header: its seed words and its hash. -/
theorem progPow_minedHeader :
    ProgPow.seedState 0x4d836a83d273e4bf36e67bd6fa4f7e1ba7a7cb7509830272917081ea9478c650 minedHeader.nNonce64 =
        [170871927, 1601149604, 2111996286, 6138510, 2017101664, 3898765822, 1715065271, 11355606] ∧
      ProgPow.hash_no_verify minedHeader.blockNumber
          0x4d836a83d273e4bf36e67bd6fa4f7e1ba7a7cb7509830272917081ea9478c650 minedHeader.mix_hash
          minedHeader.nNonce64 =
        0x004f4c89edb53728302192362c24f415062ec8ae55c534e1cde5251a31bb6f34 := by
  decide +kernel

/-- ProgPoW of the forged header. -/
theorem progPow_forgedHeader :
    ProgPow.seedState 0x480c90382ce12751293c09f849059596af032a30a0a4e2956af34d0ed02260f4 forgedHeader.nNonce64 =
        [3062944563, 4264894944, 2571913884, 1084289816, 4040753352, 2083746534, 3867477757, 1765485473] ∧
      ProgPow.hash_no_verify forgedHeader.blockNumber
          0x480c90382ce12751293c09f849059596af032a30a0a4e2956af34d0ed02260f4 forgedHeader.mix_hash
          forgedHeader.nNonce64 =
        0x00d25c7319a4933f562fc74cfb107e574c8969c414b9b5b717ade6a08b41acee := by
  decide +kernel

theorem headerHash_minedHeader : minedHeader.getKAWPOWHeaderHash =
    0x4d836a83d273e4bf36e67bd6fa4f7e1ba7a7cb7509830272917081ea9478c650 := by
  decide

theorem headerHash_forgedHeader : forgedHeader.getKAWPOWHeaderHash =
    0x480c90382ce12751293c09f849059596af032a30a0a4e2956af34d0ed02260f4 := by
  decide

theorem getHash_minedHeader : minedHeader.getHash =
    0x004f4c89edb53728302192362c24f415062ec8ae55c534e1cde5251a31bb6f34 := by
  rw [getHash_of_kawpow (by decide), CBlockHeader.kawpowHash_OnlyMix, headerHash_minedHeader]
  exact progPow_minedHeader.2

theorem getHash_forgedHeader : forgedHeader.getHash =
    0x00d25c7319a4933f562fc74cfb107e574c8969c414b9b5b717ade6a08b41acee := by
  rw [getHash_of_kawpow (by decide), CBlockHeader.kawpowHash_OnlyMix, headerHash_forgedHeader]
  exact progPow_forgedHeader.2

theorem newlyAdded_minedHeader :
    NewlyAdded mainnetMix mainnetContext mainnetParams genesisTree minedHeader := by
  have hgen : minedHeader.getHash ≠ mainnetGenesis.phashBlock := by
    rw [getHash_minedHeader]
    decide
  have hpow : MeetsPow mainnetMix mainnetParams.consensus minedHeader minedHeader.blockNumber := by
    have hmix : (minedHeader.kawpowHashAt mainnetMix minedHeader.blockNumber).2 =
        minedHeader.mix_hash := by
      rw [CBlockHeader.kawpowHashAt, headerHash_minedHeader, ProgPow.hash, progPow_minedHeader.1]
      decide
    refine ⟨?_, hmix⟩
    rw [kawpowHashAt_fst hmix, ← getHash_of_kawpow (by decide), getHash_minedHeader]
    decide
  exact NewlyAdded.of_checks mainnetGenesis hgen (find_genesisTree hgen)
    ((checkBlockHeader_of_not_claims (by decide) (by decide)).mpr hpow)
    (by decide) (by decide) (by decide) (by decide)
    (by decide)

theorem newlyAdded_forgedHeader :
    NewlyAdded mainnetMix mainnetContext mainnetParams genesisTree forgedHeader := by
  have hgen : forgedHeader.getHash ≠ mainnetGenesis.phashBlock := by
    rw [getHash_forgedHeader]
    decide
  have hpow : checkProofOfWork forgedHeader.getHash forgedHeader.nBits mainnetParams.consensus =
      true := by
    rw [getHash_forgedHeader]
    decide
  exact NewlyAdded.of_checks mainnetGenesis hgen (find_genesisTree hgen)
    ((checkBlockHeader_of_claims (by decide) (by decide)).mpr hpow)
    (by decide) (by decide) (by decide) (by decide)
    (by decide)

theorem meetsRealPow_minedHeader :
    (∀ mix, NewlyAdded mix mainnetContext mainnetParams genesisTree minedHeader →
      MeetsRealPow mix mainnetParams genesisTree minedHeader) ↔
      claimsCheckpointed genesisTree mainnetParams minedHeader = false ∧
        periodNumber minedHeader.blockNumber = periodNumber (mainnetGenesis.nHeight + 1) :=
  meetsRealPow_iff mainnetContext mainnetParams genesisTree minedHeader mainnetGenesis
    (by rw [getHash_minedHeader]; decide) (by decide) (by decide) (by decide)
    ⟨mainnetMix, newlyAdded_minedHeader⟩

/-- **A header without ProgPoW work is added to the block index**: it claims the height of the
genesis checkpoint and carries a mix hash of its own choice. -/
theorem forgedHeader_added :
    NewlyAdded mainnetMix mainnetContext mainnetParams genesisTree forgedHeader ∧
      ¬ MeetsRealPow mainnetMix mainnetParams genesisTree forgedHeader := by
  refine ⟨newlyAdded_forgedHeader, fun h => ?_⟩
  have hmix := (h mainnetGenesis (by decide) (by decide)).2
  rw [CBlockHeader.kawpowHashAt, headerHash_forgedHeader, ProgPow.hash, progPow_forgedHeader.1] at hmix
  revert hmix
  decide

end Mainnet

end RavenCash
