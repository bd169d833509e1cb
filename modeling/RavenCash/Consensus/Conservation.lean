import RavenCash.Consensus.TxAssets

/-!
# Conservation of assets

What a transaction that passed `CheckTxAssets` moves. The assets its inputs spend and the assets its
transfer outputs carry have the same names, and their totals are equal as `int64` sums, that is
modulo `2 ^ 64`. The exact totals are equal when they wrap around the same number of times.
-/

set_option autoImplicit false

namespace RavenCash

/-! ## The comparison of the totals -/

theorem checkTotals_ok {totalInputs totalOutputs : StdMap StdString CAmount}
    (h : checkTotals totalInputs totalOutputs = .ok ()) (name : StdString) :
    totalOutputs.lookup name = totalInputs.lookup name := by
  unfold checkTotals at h
  rw [bind_ok] at h
  obtain ⟨_, hall, hsize⟩ := h
  rw [checkAll_ok] at hall
  rw [failIf_ok, bne_eq_false_iff_eq] at hsize
  refine StdMap.lookup_eq_of_size_eq ?_ hsize name
  intro k t hk
  have hmem : k ∈ totalOutputs.keys := (StdMap.mem_iff_lookup totalOutputs k).mpr ⟨t, hk⟩
  have hkey := hall k ((mem_foldl_insertInOrder totalOutputs.keys []).mpr (.inl hmem))
  rw [bind_ok] at hkey
  obtain ⟨_, _, heq⟩ := hkey
  rw [failIf_ok, bne_eq_false_iff_eq] at heq
  rw [heq, hk]

section

variable [NodeCrypto] {g : Globals} {cache : CAssetsCache} {params : CAssetParams}
  {maps : MempoolMaps} {tx : CTransaction} {inputs : CCoinsView} {fCheckMempool fUnit : Bool}
  {lru lru' : LRUCaches}

/-! ## What is spent and what is transferred -/

/-- The asset of the coin an input spends. -/
def spentAsset (inputs : CCoinsView) (txin : CTxIn) : Option CAssetOutputEntry :=
  (inputs.lookup txin.prevout).bind (fun coin => getAssetData coin.out.scriptPubKey)

/-- Names and amounts of the assets the inputs spend. -/
def spentAssets (inputs : CCoinsView) (tx : CTransaction) : List (StdString × CAmount) :=
  tx.vin.filterMap (fun txin =>
    (spentAsset inputs txin).map (fun data => (data.assetName, data.nAmount)))

/-- Name and amount of a transfer output. -/
def transferredAsset (txout : CTxOut) : Option (StdString × CAmount) :=
  (transferAssetFromScript txout.scriptPubKey).map (fun t => (t.1.strName, t.1.nAmount))

def transferredAssets (tx : CTransaction) : List (StdString × CAmount) :=
  tx.vout.filterMap transferredAsset

/-- The exact total of an asset over the spent coins. -/
def spentTotal (inputs : CCoinsView) (tx : CTransaction) (name : StdString) : Int :=
  StdMap.totalAt Int64.toInt (spentAssets inputs tx) name

/-- The exact total of an asset over the transfer outputs. -/
def transferredTotal (tx : CTransaction) (name : StdString) : Int :=
  StdMap.totalAt Int64.toInt (transferredAssets tx) name

/-! ## The steps of the loops -/

theorem nType_of_transferAssetFromScript {s : CScript} {t : CAssetTransfer × StdString}
    (h : transferAssetFromScript s = some t) :
    s.assetScript.map AssetScript.nType = some .TX_TRANSFER_ASSET := by
  rw [transferAssetFromScript, Option.bind_eq_some_iff] at h
  obtain ⟨i, hi, _⟩ := h
  rw [CScript.assetDataOf_eq_some.mp hi]
  rfl

theorem getAssetData_eq_none_of_not_isAssetScript {s : CScript} (h : s.isAssetScript = false) :
    getAssetData s = none := by
  have hnone : s.assetScript = none := by simpa [CScript.isAssetScript] using h
  rw [getAssetData, hnone]

theorem tallyInput_ok {acc acc' : StdMap StdString CAmount} {txin : CTxIn}
    (h : tallyInput g cache inputs acc txin lru = (.ok acc', lru')) :
    acc' = (spentAsset inputs txin).elim acc
      (fun data => acc.addTotal data.assetName data.nAmount) := by
  unfold tallyInput at h
  simp only [Checked.lift_bind_ok, orFail_ok] at h
  obtain ⟨coin, hcoin, h⟩ := h
  rw [spentAsset, hcoin, Option.bind_some]
  by_cases hasset : coin.isAsset
  · simp only [hasset, if_true, Checked.lift_bind_ok, orFail_ok] at h
    obtain ⟨data, hdata, h⟩ := h
    rw [hdata]
    -- the frozen addresses are asked but do not enter the total
    split_ifs at h with hrestricted
    · simp only [Checked.ask_bind_ok, Checked.lift_bind_ok, Checked.pure_ok] at h
      obtain ⟨_, _, hacc, _⟩ := h
      exact hacc.symm
    · rw [Checked.pure_ok] at h
      exact h.1.symm
  · rw [Bool.not_eq_true] at hasset
    simp only [hasset, Bool.false_eq_true, if_false, Checked.pure_ok] at h
    rw [getAssetData_eq_none_of_not_isAssetScript hasset]
    exact h.1.symm

theorem tallyTransfer_ok {acc acc' : OutputTally} {txout : CTxOut}
    (h : tallyTransfer g cache fUnit acc txout lru = (.ok acc', lru')) :
    ∃ transfer address, transferAssetFromScript txout.scriptPubKey = some (transfer, address) ∧
      acc'.totalOutputs = acc.totalOutputs.addTotal transfer.strName transfer.nAmount := by
  unfold tallyTransfer at h
  simp only [Checked.lift_bind_ok, orFail_ok] at h
  obtain ⟨⟨transfer, address⟩, htransfer, h⟩ := h
  rw [Checked.bind_ok] at h
  obtain ⟨_, t, _, h⟩ := h
  refine ⟨transfer, address, htransfer, ?_⟩
  split_ifs at h
  · rw [Checked.bind_ok] at h
    obtain ⟨_, t', _, h⟩ := h
    rw [Checked.pure_ok] at h
    rw [← h.1]
  · rw [Checked.pure_ok] at h
    rw [← h.1]

theorem tallyReissue_ok {acc acc' : OutputTally} {txout : CTxOut}
    (h : tallyReissue maps tx acc txout = .ok acc') : acc'.totalOutputs = acc.totalOutputs := by
  unfold tallyReissue at h
  rw [bind_ok] at h
  obtain ⟨⟨reissue, address⟩, _, h⟩ := h
  simp only at h
  split at h
  · rw [bind_ok] at h
    obtain ⟨_, _, h⟩ := h
    rw [← pure_ok.mp h]
  · rw [← pure_ok.mp h]

theorem tallyOutput_ok {acc acc' : OutputTally} {txout : CTxOut}
    (h : tallyOutput g cache maps tx fUnit acc txout lru = (.ok acc', lru')) :
    acc'.totalOutputs = (transferredAsset txout).elim acc.totalOutputs
      (fun e => acc.totalOutputs.addTotal e.1 e.2) := by
  unfold tallyOutput at h
  simp only [Checked.lift_bind_ok] at h
  obtain ⟨_, _, h⟩ := h
  rw [Checked.bind_ok] at h
  obtain ⟨_, t, _, h⟩ := h
  -- an output that is not a transfer has no entry
  have hnone (hne : txout.scriptPubKey.assetScript.map AssetScript.nType ≠ some .TX_TRANSFER_ASSET) :
      transferredAsset txout = none := by
    rw [transferredAsset, Option.map_eq_none_iff, Option.eq_none_iff_forall_ne_some]
    intro e he
    exact hne (nType_of_transferAssetFromScript he)
  split_ifs at h with htransfer hreissue
  · obtain ⟨transfer, address, hread, htotal⟩ := tallyTransfer_ok h
    rw [htotal, transferredAsset, hread]
    rfl
  · rw [Checked.lift_ok] at h
    rw [hnone htransfer, tallyReissue_ok h.1]
    rfl
  · rw [Checked.pure_ok] at h
    rw [hnone htransfer, ← h.1]
    rfl

/-! ## The loops -/

theorem isTally_inputs {M : Type} [AddCommMonoid M] {val : CAmount → M}
    (hadd : ∀ a b, val (a + b) = val a + val b) {totalInputs : StdMap StdString CAmount}
    (h : Checked.foldChecks (tallyInput g cache inputs) ∅ tx.vin lru = (.ok totalInputs, lru')) :
    StdMap.IsTally val (spentAssets inputs tx) totalInputs := by
  refine Checked.foldChecks_induction (R := fun (seen : List CTxIn) acc =>
    StdMap.IsTally val (seen.filterMap (fun txin =>
      (spentAsset inputs txin).map (fun data => (data.assetName, data.nAmount)))) acc)
    StdMap.IsTally.empty ?_ h
  intro seen txin acc acc' t t' _ hseen hstep
  rw [tallyInput_ok hstep, List.filterMap_append]
  cases hspent : spentAsset inputs txin with
  | none => simpa [hspent] using hseen
  | some data => simpa [hspent] using hseen.addTotal hadd data.assetName data.nAmount

theorem isTally_outputs {M : Type} [AddCommMonoid M] {val : CAmount → M}
    (hadd : ∀ a b, val (a + b) = val a + val b) {outs : OutputTally}
    (h : Checked.foldChecks (tallyOutput g cache maps tx fUnit) {} tx.vout lru = (.ok outs, lru')) :
    StdMap.IsTally val (transferredAssets tx) outs.totalOutputs := by
  refine Checked.foldChecks_induction (R := fun (seen : List CTxOut) acc =>
    StdMap.IsTally val (seen.filterMap transferredAsset) acc.totalOutputs)
    StdMap.IsTally.empty ?_ h
  intro seen txout acc acc' t t' _ hseen hstep
  rw [tallyOutput_ok hstep, List.filterMap_append]
  cases hout : transferredAsset txout with
  | none => simpa [hout] using hseen
  | some e => simpa [hout] using hseen.addTotal hadd e.1 e.2

/-! ## `CheckTxAssets` -/

/-- The parts of a passed `CheckTxAssets`. -/
theorem checkTxAssets_ok {vPair : List (StdString × UInt256)} :
    checkTxAssets g cache params maps tx inputs fCheckMempool fUnit lru = (.ok vPair, lru') ↔
      inputs.haveInputs tx = true ∧ ∃ totalInputs outs t₁ t₂,
        Checked.foldChecks (tallyInput g cache inputs) ∅ tx.vin lru = (.ok totalInputs, t₁) ∧
        Checked.foldChecks (tallyOutput g cache maps tx fUnit) {} tx.vout t₁ = (.ok outs, t₂) ∧
        checkIssueContext g cache params maps tx fCheckMempool t₂ = (.ok (), lru') ∧
        checkTotals totalInputs outs.totalOutputs = .ok () ∧
        outs.vPairReissueAssets = vPair := by
  unfold checkTxAssets
  constructor
  · intro h
    rw [Checked.lift_bind_ok] at h
    obtain ⟨_, hhave, h⟩ := h
    rw [failIf_ok, Bool.not_eq_false'] at hhave
    rw [Checked.bind_ok] at h
    obtain ⟨totalInputs, t₁, hin, h⟩ := h
    rw [Checked.bind_ok] at h
    obtain ⟨outs, t₂, hout, h⟩ := h
    rw [Checked.bind_ok] at h
    obtain ⟨_, t₃, hissue, h⟩ := h
    rw [Checked.lift_bind_ok] at h
    obtain ⟨_, htotals, h⟩ := h
    obtain ⟨hpair, rfl⟩ := Checked.pure_ok.mp h
    exact ⟨hhave, totalInputs, outs, t₁, t₂, hin, hout, hissue, htotals, hpair⟩
  · rintro ⟨hhave, totalInputs, outs, t₁, t₂, hin, hout, hissue, htotals, hpair⟩
    rw [Checked.lift_bind_ok]
    refine ⟨(), by rw [failIf_ok, hhave]; rfl, ?_⟩
    rw [Checked.bind_ok]
    refine ⟨totalInputs, t₁, hin, ?_⟩
    rw [Checked.bind_ok]
    refine ⟨outs, t₂, hout, ?_⟩
    rw [Checked.bind_ok]
    refine ⟨(), lru', hissue, ?_⟩
    rw [Checked.lift_bind_ok]
    exact ⟨(), htotals, Checked.pure_ok.mpr ⟨hpair, rfl⟩⟩

/-! ## Exact totals -/

/-- An amount as a residue. -/
def amountMod (a : CAmount) : ZMod (2 ^ 64) := (a.toInt : ZMod (2 ^ 64))

omit [NodeCrypto] in
theorem amountMod_add (a b : CAmount) : amountMod (a + b) = amountMod a + amountMod b := by
  have hmod : (a + b).toInt ≡ a.toInt + b.toInt [ZMOD (2 ^ 64 : Nat)] := by
    rw [Int64.toInt_add]
    exact Int.bmod_emod
  rw [amountMod, (ZMod.intCast_eq_intCast_iff _ _ _).mpr hmod, Int.cast_add]
  rfl

omit [NodeCrypto] in
theorem totalAt_amountMod (l : List (StdString × CAmount)) (name : StdString) :
    StdMap.totalAt amountMod l name = ((StdMap.totalAt Int64.toInt l name : Int) : ZMod (2 ^ 64)) :=
  (StdMap.map_totalAt Int64.toInt (Int.castAddHom (ZMod (2 ^ 64))) l name).symm

/-- **The totals agree as `int64` sums.** -/
theorem spentTotal_modEq {vPair : List (StdString × UInt256)}
    (h : checkTxAssets g cache params maps tx inputs fCheckMempool fUnit lru = (.ok vPair, lru'))
    (name : StdString) :
    spentTotal inputs tx name ≡ transferredTotal tx name [ZMOD 2 ^ 64] := by
  obtain ⟨_, totalInputs, outs, t₁, t₂, hin, hout, _, htotals, _⟩ := checkTxAssets_ok.mp h
  have hspent := isTally_inputs amountMod_add hin
  have htransferred := isTally_outputs amountMod_add hout
  have heq := hspent.totalAt_eq htransferred name (checkTotals_ok htotals name).symm
  rw [totalAt_amountMod, totalAt_amountMod] at heq
  exact (ZMod.intCast_eq_intCast_iff _ _ _).mp heq

/-- **The assets that are spent are the assets that are transferred.** -/
theorem mem_spentAssets_iff {vPair : List (StdString × UInt256)}
    (h : checkTxAssets g cache params maps tx inputs fCheckMempool fUnit lru = (.ok vPair, lru'))
    (name : StdString) :
    name ∈ (spentAssets inputs tx).map Prod.fst ↔
      name ∈ (transferredAssets tx).map Prod.fst := by
  obtain ⟨_, totalInputs, outs, t₁, t₂, hin, hout, _, htotals, _⟩ := checkTxAssets_ok.mp h
  rw [← (isTally_inputs amountMod_add hin).mem_iff, ← (isTally_outputs amountMod_add hout).mem_iff,
    StdMap.mem_iff_lookup, StdMap.mem_iff_lookup, checkTotals_ok htotals name]

/-- How many times an exact total has left the range of `int64`: `0` for a total that fits. -/
def wraps (total : Int) : Int := (total + 2 ^ 63) / 2 ^ 64

omit [NodeCrypto] in
theorem eq_iff_wraps_eq {a b : Int} (h : a ≡ b [ZMOD 2 ^ 64]) : a = b ↔ wraps a = wraps b := by
  have hmod : a % 2 ^ 64 = b % 2 ^ 64 := h
  unfold wraps
  constructor
  · rintro rfl
    rfl
  · intro hwraps
    omega

/-- **Conservation.** A transaction that passed `CheckTxAssets` moves each asset without a change of
its total exactly when the totals of each asset over its inputs and over its transfer outputs leave
the range of `int64` equally often. -/
theorem transfer_conserves_iff (g : Globals) (cache : CAssetsCache) (params : CAssetParams)
    (maps : MempoolMaps) (tx : CTransaction) (inputs : CCoinsView)
    (fCheckMempool fRunningUnitTests : Bool) (lru : LRUCaches)
    (vPairReissueAssets : List (StdString × UInt256))
    (h : (checkTxAssets g cache params maps tx inputs fCheckMempool fRunningUnitTests lru).1 =
      .ok vPairReissueAssets) :
    (∀ name, spentTotal inputs tx name = transferredTotal tx name) ↔
      ∀ name, wraps (spentTotal inputs tx name) = wraps (transferredTotal tx name) := by
  have hrun : checkTxAssets g cache params maps tx inputs fCheckMempool fRunningUnitTests lru =
      (.ok vPairReissueAssets,
        (checkTxAssets g cache params maps tx inputs fCheckMempool fRunningUnitTests lru).2) := by
    rw [← h]
  exact forall_congr' (fun name => eq_iff_wraps_eq (spentTotal_modEq hrun name))

end

/-! ## Two transfers -/

section

attribute [local instance] mainnetCrypto

/-- An output that transfers an amount to the key of twenty zero bytes. -/
def transferOut (name : StdString) (nAmount : CAmount) : CTxOut where
  nValue := 0
  scriptPubKey := CAssetTransfer.constructTransaction { strName := name, nAmount := nAmount }
    (getScriptForDestination (.keyID (List.replicate 20 0)))

/-- An asset `COIN` of eight decimals. -/
def coinAsset : CDatabasedAssetData where
  asset := { strName := bytes "COIN", nAmount := 5, units := 8, nReissuable := 1 }
  nHeight := 1
  blockHash := 7

/-- A node whose database has the asset. -/
def coinGlobals : Globals where
  passetsdb := { assetData := (∅ : StdSet CDatabasedAssetData.name).insert coinAsset }

/-- The coin of `5` units of `COIN`. -/
def fiveCoins : CCoinsView :=
  (∅ : CCoinsView).insert ⟨1, 0⟩ ⟨transferOut (bytes "COIN") 5, 1, false⟩

/-- A transfer of `COIN` in outputs of the given amounts. -/
def transferTx (amounts : List CAmount) : CTransaction where
  hash := 2
  vin := [{ prevout := ⟨1, 0⟩ }]
  vout := amounts.map (transferOut (bytes "COIN"))

theorem transfer_conserves_iff_split :
    (∀ name, spentTotal fiveCoins (transferTx [2, 3]) name =
        transferredTotal (transferTx [2, 3]) name) ↔
      ∀ name, wraps (spentTotal fiveCoins (transferTx [2, 3]) name) =
        wraps (transferredTotal (transferTx [2, 3]) name) :=
  transfer_conserves_iff coinGlobals {} mainAssetParams {} (transferTx [2, 3]) fiveCoins false false
    {} [] (by decide +kernel)

/-- **Units from nothing**: from a coin of `5` units the outputs `2 ^ 63 - 1`, `2 ^ 63 - 1` and `7`
pass all checks. -/
theorem transfer_creates_units :
    checkTransaction mainAssetParams
        (transferTx [9223372036854775807, 9223372036854775807, 7]) 100 0 = .ok () ∧
      (checkTxAssets coinGlobals {} mainAssetParams {}
        (transferTx [9223372036854775807, 9223372036854775807, 7]) fiveCoins false false {}).1 =
          .ok [] ∧
      spentTotal fiveCoins (transferTx [9223372036854775807, 9223372036854775807, 7])
        (bytes "COIN") = 5 ∧
      transferredTotal (transferTx [9223372036854775807, 9223372036854775807, 7])
        (bytes "COIN") = 5 + 2 ^ 64 := by
  refine ⟨?_, ?_, ?_, ?_⟩
  · decide +kernel
  · decide +kernel
  · decide +kernel
  · decide +kernel

end

end RavenCash
