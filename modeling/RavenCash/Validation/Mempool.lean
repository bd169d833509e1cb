import RavenCash.Validation.Tip

/-!
# The mempool and the validity of blocks

Accepting a transaction to the mempool records the assets it reissues, and `CheckTxAssets` refuses a
reissue of a recorded asset by another transaction. `ConnectBlock` makes the same check, with the
records of this node's mempool: a block is accepted when it passes without any record and no record
is in the way of its reissues.
-/

set_option autoImplicit false

namespace RavenCash

/-- What `AcceptToMemoryPoolWorker` records of the reissues that `CheckTxAssets` found. -/
def MempoolMaps.recordReissues (maps : MempoolMaps) (vReissueAssets : List (StdString × UInt256)) :
    MempoolMaps :=
  vReissueAssets.foldl (fun maps out =>
    { maps with
      mapReissuedAssets := maps.mapReissuedAssets.insertNew out.1 out.2
      mapReissuedTx := maps.mapReissuedTx.insertNew out.2 out.1 }) maps

section

variable [NodeCrypto] {g : Globals} {cache : CAssetsCache} {params : CAssetParams}
  {maps maps' : MempoolMaps} {tx : CTransaction} {inputs : CCoinsView} {fUnit : Bool}
  {lru lru' : LRUCaches}

/-! ## Reissues that no record is in the way of -/

/-- The output reissues no asset that is recorded for another transaction. -/
def reissueUnclaimed (maps : MempoolMaps) (tx : CTransaction) (txout : CTxOut) : Bool :=
  (reissueAssetFromScript txout.scriptPubKey).all (fun reissue =>
    (maps.mapReissuedAssets.lookup reissue.1.strName).all (· == tx.hash))

def CTransaction.reissuesUnclaimed (maps : MempoolMaps) (tx : CTransaction) : Bool :=
  tx.vout.all (reissueUnclaimed maps tx)

/-- No transaction of the block reissues an asset that is recorded for another transaction. The
coinbase, and the genesis block, are not checked. -/
def CBlock.reissuesUnclaimed (params : CAssetParams) (maps : MempoolMaps) (block : CBlock) : Bool :=
  block.hash == params.hashGenesisBlock ||
    block.vtx.all (fun tx => tx.isCoinBase || tx.reissuesUnclaimed maps)

theorem reissueUnclaimed_empty (tx : CTransaction) (txout : CTxOut) :
    reissueUnclaimed {} tx txout = true := by
  unfold reissueUnclaimed
  cases reissueAssetFromScript txout.scriptPubKey with
  | none => rfl
  | some reissue => rfl

theorem CTransaction.reissuesUnclaimed_empty (tx : CTransaction) :
    tx.reissuesUnclaimed {} = true := by
  rw [CTransaction.reissuesUnclaimed, List.all_eq_true]
  intro txout _
  exact reissueUnclaimed_empty tx txout

/-! ## One output -/

theorem tallyReissue_unclaimed {acc r : OutputTally} {txout : CTxOut}
    (h : tallyReissue maps tx acc txout = .ok r) : reissueUnclaimed maps tx txout = true := by
  unfold tallyReissue at h
  rw [bind_ok] at h
  obtain ⟨⟨reissue, address⟩, hread, h⟩ := h
  rw [orFail_ok] at hread
  rw [reissueUnclaimed, hread]
  show (maps.mapReissuedAssets.lookup reissue.strName).all (· == tx.hash) = true
  cases hlookup : maps.mapReissuedAssets.lookup reissue.strName with
  | none => rfl
  | some hash =>
      simp only [hlookup] at h
      rw [bind_ok] at h
      obtain ⟨_, hsame, _⟩ := h
      rw [failIf_ok, bne_eq_false_iff_eq] at hsame
      rw [Option.all_some, hsame, beq_self_eq_true]

/-- A reissue that passed passes under any records that are not in its way. -/
theorem tallyReissue_of_unclaimed {acc r : OutputTally} {txout : CTxOut}
    (h : tallyReissue maps tx acc txout = .ok r) (hclear : reissueUnclaimed maps' tx txout = true)
    (acc' : OutputTally) :
    ∃ r', tallyReissue maps' tx acc' txout = .ok r' := by
  unfold tallyReissue at h
  rw [bind_ok] at h
  obtain ⟨⟨reissue, address⟩, hread, _⟩ := h
  rw [orFail_ok] at hread
  rw [reissueUnclaimed, hread] at hclear
  simp only [Option.all_some] at hclear
  unfold tallyReissue
  simp only [bind_ok, orFail_ok, hread]
  cases hlookup : maps'.mapReissuedAssets.lookup reissue.strName with
  | none => exact ⟨_, _, rfl, by simp only [hlookup]; rfl⟩
  | some hash =>
      have hsame : hash = tx.hash := by simpa [hlookup] using hclear
      refine ⟨acc', _, rfl, ?_⟩
      simp only [hlookup, bind_ok, failIf_ok, bne_eq_false_iff_eq]
      exact ⟨(), hsame, rfl⟩

/-- What a transfer output adds does not depend on what is accumulated. -/
theorem tallyTransfer_from {acc acc' r : OutputTally} {txout : CTxOut}
    (h : tallyTransfer g cache fUnit acc txout lru = (.ok r, lru')) :
    ∃ r', tallyTransfer g cache fUnit acc' txout lru = (.ok r', lru') := by
  unfold tallyTransfer at h ⊢
  rw [Checked.lift_bind_ok] at h
  obtain ⟨⟨transfer, address⟩, hread, h⟩ := h
  simp only at h
  rw [Checked.bind_ok] at h
  obtain ⟨_, t, hcontext, h⟩ := h
  refine ⟨{ acc' with
    totalOutputs := acc'.totalOutputs.addTotal transfer.strName transfer.nAmount }, ?_⟩
  rw [Checked.lift_bind_ok]
  refine ⟨(transfer, address), hread, ?_⟩
  simp only
  rw [Checked.bind_ok]
  refine ⟨(), t, hcontext, ?_⟩
  split_ifs at h ⊢ with hunit
  · rw [Checked.bind_ok] at h ⊢
    obtain ⟨_, t', hunits, h⟩ := h
    exact ⟨(), t', hunits, Checked.pure_ok.mpr ⟨rfl, (Checked.pure_ok.mp h).2⟩⟩
  · exact Checked.pure_ok.mpr ⟨rfl, (Checked.pure_ok.mp h).2⟩

/-- **One output under two mempools.** -/
theorem tallyOutput_of_unclaimed {acc acc' r : OutputTally} {txout : CTxOut}
    (htotals : acc.totalOutputs = acc'.totalOutputs)
    (h : tallyOutput g cache maps tx fUnit acc txout lru = (.ok r, lru'))
    (hclear : reissueUnclaimed maps' tx txout = true) :
    ∃ r', tallyOutput g cache maps' tx fUnit acc' txout lru = (.ok r', lru') ∧
      r.totalOutputs = r'.totalOutputs := by
  suffices hpass : ∃ r', tallyOutput g cache maps' tx fUnit acc' txout lru = (.ok r', lru') by
    obtain ⟨r', h'⟩ := hpass
    exact ⟨r', h', by rw [tallyOutput_ok h, tallyOutput_ok h', htotals]⟩
  unfold tallyOutput at h ⊢
  simp only [Checked.lift_bind_ok] at h ⊢
  obtain ⟨_, hactive, h⟩ := h
  rw [Checked.bind_ok] at h
  obtain ⟨_, t, hnull, h⟩ := h
  -- only the branch of a reissue looks at the records
  have hbranch : ∃ r', (if txout.scriptPubKey.assetScript.map AssetScript.nType =
        some .TX_TRANSFER_ASSET then tallyTransfer g cache fUnit acc' txout
      else if txout.scriptPubKey.assetScript.map AssetScript.nType = some .TX_REISSUE_ASSET then
        .lift (tallyReissue maps' tx acc' txout)
      else return acc') t = (.ok r', lru') := by
    split_ifs at h ⊢ with htransfer hreissue
    · exact tallyTransfer_from h
    · rw [Checked.lift_ok] at h
      obtain ⟨r', h'⟩ := tallyReissue_of_unclaimed h.1 hclear acc'
      exact ⟨r', Checked.lift_ok.mpr ⟨h', h.2⟩⟩
    · exact ⟨acc', Checked.pure_ok.mpr ⟨rfl, (Checked.pure_ok.mp h).2⟩⟩
  obtain ⟨r', hr'⟩ := hbranch
  refine ⟨r', (), hactive, ?_⟩
  rw [Checked.bind_ok]
  exact ⟨(), t, hnull, hr'⟩

theorem nType_of_reissueAssetFromScript {s : CScript} {r : CReissueAsset × StdString}
    (h : reissueAssetFromScript s = some r) :
    s.assetScript.map AssetScript.nType = some .TX_REISSUE_ASSET := by
  rw [reissueAssetFromScript, Option.bind_eq_some_iff] at h
  obtain ⟨i, hi, _⟩ := h
  rw [CScript.assetDataOf_eq_some.mp hi]
  rfl

theorem tallyOutput_unclaimed {acc r : OutputTally} {txout : CTxOut}
    (h : tallyOutput g cache maps tx fUnit acc txout lru = (.ok r, lru')) :
    reissueUnclaimed maps tx txout = true := by
  unfold tallyOutput at h
  simp only [Checked.lift_bind_ok] at h
  obtain ⟨_, _, h⟩ := h
  rw [Checked.bind_ok] at h
  obtain ⟨_, t, _, h⟩ := h
  cases hread : reissueAssetFromScript txout.scriptPubKey with
  | none => rw [reissueUnclaimed, hread, Option.all_none]
  | some reissue =>
      have htype := nType_of_reissueAssetFromScript hread
      rw [htype, if_neg (by decide), if_pos rfl, Checked.lift_ok] at h
      exact tallyReissue_unclaimed h.1

/-! ## One transaction -/

theorem checkIssueContext_mempool (maps maps' : MempoolMaps) :
    checkIssueContext g cache params maps tx false =
      checkIssueContext g cache params maps' tx false := by
  unfold checkIssueContext
  cases tx.issueKind <;> rfl

theorem checkTxAssets_unclaimed {vPair : List (StdString × UInt256)}
    (h : checkTxAssets g cache params maps tx inputs false fUnit lru = (.ok vPair, lru')) :
    tx.reissuesUnclaimed maps = true := by
  obtain ⟨_, _, outs, t₁, t₂, _, hout, _⟩ := checkTxAssets_ok.mp h
  rw [CTransaction.reissuesUnclaimed, List.all_eq_true]
  refine Checked.foldChecks_induction (R := fun seen _ => ∀ txout ∈ seen,
    reissueUnclaimed maps tx txout = true) (by simp) ?_ hout
  intro seen txout acc acc' t t' _ hseen hstep
  rw [List.forall_mem_append, List.forall_mem_singleton]
  exact ⟨hseen, tallyOutput_unclaimed hstep⟩

/-- **One transaction under two mempools.** -/
theorem checkTxAssets_of_unclaimed {vPair : List (StdString × UInt256)}
    (h : checkTxAssets g cache params maps tx inputs false fUnit lru = (.ok vPair, lru'))
    (hclear : tx.reissuesUnclaimed maps' = true) :
    ∃ vPair', checkTxAssets g cache params maps' tx inputs false fUnit lru = (.ok vPair', lru') := by
  obtain ⟨hhave, totalInputs, outs, t₁, t₂, hin, hout, hissue, htotals, _⟩ := checkTxAssets_ok.mp h
  rw [CTransaction.reissuesUnclaimed, List.all_eq_true] at hclear
  obtain ⟨outs', hout', heq⟩ := Checked.foldChecks_simulation
    (tallyOutput g cache maps' tx fUnit)
    (R := fun acc acc' : OutputTally => acc.totalOutputs = acc'.totalOutputs)
    (fun acc acc' r txout t t' hmem hR hstep =>
      tallyOutput_of_unclaimed hR hstep (hclear txout hmem)) rfl hout
  refine ⟨outs'.vPairReissueAssets, checkTxAssets_ok.mpr ⟨hhave, totalInputs, outs', t₁, t₂, hin,
    hout', ?_, ?_, rfl⟩⟩
  · rw [checkIssueContext_mempool maps' maps]
    exact hissue
  · rw [← heq]
    exact htotals

/-! ## One block -/

variable {s s' : ChainState} {nHeight : Int} {block : CBlock}

/-- **One connected transaction under two mempools.** -/
theorem connectTx_of_unclaimed {blockHash : UInt256} {acc r : BlockProgress}
    (h : connectTx params maps g nHeight blockHash acc tx s = (.ok r, s'))
    (hclear : (tx.isCoinBase || tx.reissuesUnclaimed maps') = true) :
    connectTx params maps' g nHeight blockHash acc tx s = (.ok r, s') := by
  rw [connectTx_ok] at h ⊢
  obtain ⟨nFees, t, txundo, undo, hchecks, hupdate, hr⟩ := h
  refine ⟨nFees, t, txundo, undo, ?_, hupdate, hr⟩
  rw [checkConnecting_ok] at hchecks ⊢
  split_ifs at hchecks ⊢ with hcoinbase
  · exact hchecks
  · obtain ⟨txfee, hinputs, hfees, hassets, hnFees⟩ := hchecks
    obtain ⟨vPair, lru, hpassed, ht⟩ := checkTxAssetsIn_ok.mp hassets
    rw [Bool.or_eq_true, or_iff_right hcoinbase] at hclear
    obtain ⟨vPair', hpassed'⟩ := checkTxAssets_of_unclaimed hpassed hclear
    exact ⟨txfee, hinputs, hfees, checkTxAssetsIn_ok.mpr ⟨vPair', lru, hpassed', ht⟩, hnFees⟩

theorem connectTx_unclaimed {blockHash : UInt256} {acc r : BlockProgress}
    (h : connectTx params maps g nHeight blockHash acc tx s = (.ok r, s')) :
    (tx.isCoinBase || tx.reissuesUnclaimed maps) = true := by
  obtain ⟨nFees, t, _, _, hchecks, _⟩ := connectTx_ok.mp h
  rw [checkConnecting_ok] at hchecks
  split_ifs at hchecks with hcoinbase
  · rw [hcoinbase, Bool.true_or]
  · obtain ⟨_, _, _, hassets, _⟩ := hchecks
    obtain ⟨vPair, lru, hpassed, _⟩ := checkTxAssetsIn_ok.mp hassets
    rw [checkTxAssets_unclaimed hpassed, Bool.or_true]

/-- A block that is connected is connected, with the same result, under any records that are not in
the way of its reissues. -/
theorem connectBlock_of_unclaimed {vtxundo : List CTxUndo}
    (h : connectBlock params maps g block nHeight s = (.ok vtxundo, s'))
    (hclear : block.reissuesUnclaimed params maps' = true) :
    connectBlock params maps' g block nHeight s = (.ok vtxundo, s') := by
  rw [connectBlock_ok] at h ⊢
  refine ⟨h.1, ?_⟩
  have hloop := h.2
  split_ifs at hloop ⊢ with hgenesis
  · exact hloop
  · obtain ⟨progress, hfold, hundo⟩ := hloop
    rw [CBlock.reissuesUnclaimed, Bool.or_eq_true, or_iff_right (by simpa using hgenesis),
      List.all_eq_true] at hclear
    -- the loops run through the same states with the same accumulator
    obtain ⟨_, hfold', rfl⟩ := Checked.foldChecks_simulation
      (connectTx params maps' g nHeight block.hash) (R := Eq)
      (fun acc acc' r tx t t' hmem heq hstep =>
        ⟨r, heq ▸ connectTx_of_unclaimed hstep (hclear tx hmem), rfl⟩) rfl hfold
    exact ⟨progress, hfold', hundo⟩

theorem connectBlock_unclaimed {vtxundo : List CTxUndo}
    (h : connectBlock params maps g block nHeight s = (.ok vtxundo, s')) :
    block.reissuesUnclaimed params maps = true := by
  rw [connectBlock_ok] at h
  have hloop := h.2
  rw [CBlock.reissuesUnclaimed, Bool.or_eq_true, List.all_eq_true]
  split_ifs at hloop with hgenesis
  · exact .inl (beq_iff_eq.mpr hgenesis)
  · obtain ⟨progress, hfold, _⟩ := hloop
    refine .inr (Checked.foldChecks_induction (R := fun seen _ => ∀ tx ∈ seen,
      (tx.isCoinBase || tx.reissuesUnclaimed maps) = true) (by simp) ?_ hfold)
    intro seen tx acc acc' t t' _ hseen hstep
    rw [List.forall_mem_append, List.forall_mem_singleton]
    exact ⟨hseen, connectTx_unclaimed hstep⟩

theorem CBlock.reissuesUnclaimed_empty (params : CAssetParams) (block : CBlock) :
    block.reissuesUnclaimed params {} = true := by
  rw [CBlock.reissuesUnclaimed, Bool.or_eq_true, List.all_eq_true]
  refine .inr (fun tx _ => ?_)
  rw [CTransaction.reissuesUnclaimed_empty, Bool.or_true]

/-- `ConnectBlock` accepts the block. -/
def acceptsBlock (params : CAssetParams) (maps : MempoolMaps) (g : Globals) (s : ChainState)
    (block : CBlock) (nHeight : Int) : Bool :=
  (connectBlock params maps g block nHeight s).1.isOk

theorem acceptsBlock_iff :
    acceptsBlock params maps g s block nHeight = true ↔
      ∃ vtxundo s', connectBlock params maps g block nHeight s = (.ok vtxundo, s') := by
  unfold acceptsBlock
  rcases connectBlock params maps g block nHeight s with ⟨e | vtxundo, s'⟩
  · simp [Except.isOk, Except.toBool]
  · simp [Except.isOk, Except.toBool]

/-- **What the mempool decides**: a block is accepted when it is without records, and no record is in
the way of its reissues. -/
theorem acceptsBlock_eq (params : CAssetParams) (maps : MempoolMaps) (g : Globals) (s : ChainState)
    (block : CBlock) (nHeight : Int) :
    acceptsBlock params maps g s block nHeight =
      (acceptsBlock params {} g s block nHeight && block.reissuesUnclaimed params maps) := by
  rw [Bool.eq_iff_iff, Bool.and_eq_true, acceptsBlock_iff, acceptsBlock_iff]
  constructor
  · rintro ⟨vtxundo, s', h⟩
    exact ⟨⟨vtxundo, s', connectBlock_of_unclaimed h (block.reissuesUnclaimed_empty params)⟩,
      connectBlock_unclaimed h⟩
  · rintro ⟨⟨vtxundo, s', h⟩, hclear⟩
    exact ⟨vtxundo, s', connectBlock_of_unclaimed h hclear⟩

/-- **Two mempools.** Two nodes with the same coins and the same asset state agree on a block exactly
when it is refused even without any record, or records are in the way of its reissues on both nodes
or on none. -/
theorem acceptsBlock_agree_iff (params : CAssetParams) (maps maps' : MempoolMaps) (g : Globals)
    (s : ChainState) (block : CBlock) (nHeight : Int) :
    acceptsBlock params maps g s block nHeight = acceptsBlock params maps' g s block nHeight ↔
      (acceptsBlock params {} g s block nHeight = true →
        block.reissuesUnclaimed params maps = block.reissuesUnclaimed params maps') := by
  rw [acceptsBlock_eq params maps, acceptsBlock_eq params maps']
  cases acceptsBlock params {} g s block nHeight <;> simp

end

/-! ## Two reissues of one asset -/

section

attribute [local instance] mainnetCrypto

/-- The owner of `COIN` reissues an amount of it. -/
def reissueTx (hash : UInt256) (nAmount : CAmount) : CTransaction where
  hash := hash
  vin := [{ prevout := ⟨3, 0⟩ }, { prevout := ⟨3, 1⟩ }]
  vout := [
    ⟨100 * COIN, getScriptForDestination (NodeCrypto.decodeDestination
      mainAssetParams.strReissueAssetBurnAddress)⟩,
    transferOut (bytes "COIN!") OWNER_ASSET_AMOUNT,
    ⟨0, CReissueAsset.constructTransaction
      { strName := bytes "COIN", nAmount := nAmount, nUnits := -1 } payScript⟩]

/-- **A split.** A node whose mempool took the reissue `6` refuses the block with the reissue `7` of the
same asset; a node that did not see the first one accepts it. -/
theorem reissue_splits_nodes :
    checkTransaction mainAssetParams (reissueTx 6 1) 0 0 = .ok () ∧
      (checkTxAssets coinGlobals {} mainAssetParams {} (reissueTx 6 1) ownerCoins true false {}).1 =
        .ok [(bytes "COIN", 6)] ∧
      acceptsBlock mainAssetParams (MempoolMaps.recordReissues {} [(bytes "COIN", 6)]) coinGlobals
        ⟨ownerCoins, {}⟩ ⟨9, [coinbaseTx 8, reissueTx 7 2]⟩ 200 = false ∧
      acceptsBlock mainAssetParams {} coinGlobals ⟨ownerCoins, {}⟩
        ⟨9, [coinbaseTx 8, reissueTx 7 2]⟩ 200 = true := by
  refine ⟨?_, ?_, ?_, ?_⟩
  · decide +kernel
  · decide +kernel
  · decide +kernel
  · decide +kernel

end

end RavenCash
