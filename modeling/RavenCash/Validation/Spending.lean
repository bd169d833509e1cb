import RavenCash.Coins.AssetReaders
import RavenCash.Coins.Cache
import RavenCash.Consensus.Conservation
import RavenCash.Validation.ConnectBlock

/-!
# Spending the inputs of a checked transaction

`UpdateCoins` asserts that every `SpendCoin` succeeds. A `SpendCoin` fails when the cache has no entry
of the outpoint, and when `TrySpendCoin` cannot read an asset out of its script. `CheckTxAssets` reads
every input with the same readers; an asset without a name gets past them, but it would have to be
transferred to some output, and `ContextualCheckTransferAsset` refuses an empty name. What is left is
an outpoint that is spent twice, which only `CheckTransaction` looks for: a second `SpendCoin` finds
the cleared entry of the first, except where the entry was `FRESH` and is gone.
-/

set_option autoImplicit false

namespace RavenCash

section

variable [NodeCrypto] {g : Globals} {cache : CAssetsCache} {params : CAssetParams}
  {maps : MempoolMaps} {tx : CTransaction} {inputs : CCoinsView} {fCheckMempool fUnit : Bool}
  {lru lru' : LRUCaches}

/-! ## Readable scripts -/

/-- What `GetAssetData` reads, `TrySpendCoin` reads as well, with the address of the script. -/
theorem scriptAsset_of_getAssetData {s : CScript} {data : CAssetOutputEntry}
    (h : getAssetData s = some data) :
    scriptAsset s = some (data.assetName, scriptAddress s, data.nAmount) := by
  have hdecoded : decodedAsset s = some (data.assetName, data.nAmount) := by
    rw [← getAssetInfoFromScript_eq, getAssetInfoFromScript, h]
    rfl
  rw [scriptAsset_eq, hdecoded]
  rfl

theorem scriptAddress_ne_nil {s : CScript} (h : s.isAssetScript = true) : scriptAddress s ≠ [] := by
  obtain ⟨a, ha⟩ := Option.isSome_iff_exists.mp h
  rw [scriptAddress, extractDestination_assetScript ha, Ne, NodeCrypto.encode_eq_nil]
  exact CTxDestination.noConfusion

/-- A coin that `TrySpendCoin` does not refuse, whatever the balances are: no asset, or one that can
be read and has a name. -/
def Coin.Readable (coin : Coin) : Prop :=
  coin.isAsset = true →
    ∃ data, getAssetData coin.out.scriptPubKey = some data ∧ data.assetName ≠ []

theorem Coin.Readable.trySpendCoin {coin : Coin} (h : coin.Readable) (g : Globals)
    (cache : CAssetsCache) : (trySpendCoin g cache coin.out).1 = true := by
  unfold RavenCash.trySpendCoin
  by_cases hasset : coin.out.scriptPubKey.isAssetScript = true
  · obtain ⟨data, hdata, hname⟩ := h hasset
    rw [hasset, scriptAsset_of_getAssetData hdata]
    simp only [Bool.not_true, Bool.false_eq_true, if_false, scriptAddress_ne_nil hasset, hname,
      or_self]
    split_ifs <;> rfl
  · rw [Bool.not_eq_true] at hasset
    rw [hasset]
    rfl

/-! ## The loop of `UpdateCoins` -/

/-- Distinct coins that are there and can be read are spent one after the other. -/
theorem spendInputs_isSome {vin : List CTxIn} {s : ChainState}
    (hread : ∀ txin ∈ vin, ∃ coin, s.view.lookup txin.prevout = some coin ∧ coin.Readable)
    (hnodup : (vin.map CTxIn.prevout).Nodup) : (spendInputs g vin s).isSome = true := by
  induction vin generalizing s with
  | nil => rfl
  | cons txin vin ih =>
    obtain ⟨coin, hcoin, hreadable⟩ := hread txin List.mem_cons_self
    rw [List.map_cons, List.nodup_cons] at hnodup
    have hspent := hreadable.trySpendCoin g s.assets.cache
    simp only [spendInputs, spendCoin, hcoin, hspent]
    obtain ⟨out, hout⟩ := Option.isSome_iff_exists.mp (ih (s := ⟨s.view.erase txin.prevout, _⟩)
      (fun txin' hmem => by
        obtain ⟨coin', hcoin', hreadable'⟩ := hread txin' (List.mem_cons_of_mem _ hmem)
        have hne : txin'.prevout ≠ txin.prevout := fun heq => hnodup.1 (heq ▸ List.mem_map_of_mem hmem)
        exact ⟨coin', (AList.lookup_erase_ne hne).trans hcoin', hreadable'⟩) hnodup.2)
    rw [hout]
    rfl

namespace CCoinsViewCache

variable {coins : CCoinsViewCache} {assets : CAssetsCache}

/-- A coin that can be read is spent, and so is an entry that was cleared before. -/
theorem spendCoin_of_readable {out : COutPoint} {entry : CCoinsCacheEntry}
    (hentry : coins.fetchCoin out = some entry) (hread : ∀ coin, entry.coin = some coin → coin.Readable) :
    ∃ assets', coins.spendCoin g assets out = (true, entry.coin, coins.spendEntry out entry, assets') := by
  refine ⟨(trySpendCoin g assets (entry.coin.elim nullOut Coin.out)).2, ?_⟩
  have hspent : (trySpendCoin g assets (entry.coin.elim nullOut Coin.out)).1 = true := by
    cases hcoin : entry.coin with
    | none => rfl
    | some coin => exact (hread coin hcoin).trySpendCoin g assets
  simp only [spendCoin, hentry]
  rw [hspent]

/-- Coins that can be read are spent one after the other as long as the cache has an entry of them,
which it loses with the first spend if the entry is `FRESH`. -/
theorem spendInputs_isSome_iff {vin : List CTxIn}
    (hread : ∀ txin ∈ vin, ∀ coin, coins.view.lookup txin.prevout = some coin → coin.Readable) :
    (coins.spendInputs g vin assets).isSome = true ↔
      (∀ txin ∈ vin, (coins.fetchCoin txin.prevout).isSome = true) ∧
        ((vin.map CTxIn.prevout).filter coins.isFresh).Nodup := by
  induction vin generalizing coins assets with
  | nil => simp [spendInputs]
  | cons txin vin ih =>
    cases hentry : coins.fetchCoin txin.prevout with
    | none => simp [spendInputs, spendCoin, hentry]
    | some entry =>
      obtain ⟨assets', hspend⟩ : ∃ assets', coins.spendCoin g assets txin.prevout =
          (true, entry.coin, coins.spendEntry txin.prevout entry, assets') := by
        refine spendCoin_of_readable hentry fun coin hcoin => ?_
        exact hread txin List.mem_cons_self coin (by rw [lookup_view, hentry]; exact hcoin)
      have hfetch := fetchCoin_spendEntry hentry
      have hrest : ∀ txin' ∈ vin, ∀ coin,
          (coins.spendEntry txin.prevout entry).view.lookup txin'.prevout = some coin → coin.Readable := by
        intro txin' hmem coin hcoin
        rw [lookup_view, hfetch] at hcoin
        refine hread txin' (List.mem_cons_of_mem _ hmem) coin ?_
        split_ifs at hcoin with heq hfresh
        · cases hcoin
        · cases hcoin
        · exact (lookup_view _ _).trans hcoin
      have hstep : (coins.spendInputs g (txin :: vin) assets).isSome =
          ((coins.spendEntry txin.prevout entry).spendInputs g vin assets').isSome := by
        rw [spendInputs, hspend]
        dsimp only
        cases spendInputs g vin (coins.spendEntry txin.prevout entry) assets' <;> rfl
      have hfresh : coins.isFresh txin.prevout = entry.fresh := by
        rw [isFresh, hentry]
        rfl
      rw [hstep, ih hrest, List.forall_mem_cons, hentry, and_iff_right (Option.isSome_some), List.map_cons]
      cases hentryFresh : entry.fresh with
      | false =>
        -- the cleared entry is found again and is not fresh either
        rw [hentryFresh] at hfresh
        have hsame : (coins.spendEntry txin.prevout entry).isFresh = coins.isFresh := by
          funext out
          rw [isFresh, hfetch, hentryFresh, if_neg Bool.false_ne_true]
          split_ifs with heq
          · rw [heq, hfresh]
            rfl
          · rfl
        rw [hsame, List.filter_cons_of_neg (by simp [hfresh])]
        refine and_congr_left fun _ => forall₂_congr fun txin' _ => ?_
        rw [hfetch, hentryFresh, if_neg Bool.false_ne_true]
        split_ifs with heq
        · simp [heq, hentry]
        · rfl
      | true =>
        rw [hentryFresh] at hfresh
        rw [List.filter_cons_of_pos hfresh, List.nodup_cons, List.mem_filter, and_iff_left hfresh]
        simp only [hfetch, hentryFresh, if_true]
        -- the other inputs have to find their coins without the first
        have hfound : (∀ txin' ∈ vin, (if txin'.prevout = txin.prevout then none
              else coins.fetchCoin txin'.prevout).isSome = true) ↔
            (∀ txin' ∈ vin, (coins.fetchCoin txin'.prevout).isSome = true) ∧
              txin.prevout ∉ vin.map CTxIn.prevout := by
          rw [List.mem_map, not_exists, ← forall_and]
          refine forall_congr' fun txin' => ?_
          by_cases heq : txin'.prevout = txin.prevout <;> simp [heq, hentry]
        rw [hfound, and_assoc]
        refine and_congr_right fun _ => and_congr_right fun hnot => ?_
        have hfilter : (vin.map CTxIn.prevout).filter (coins.spendEntry txin.prevout entry).isFresh =
            (vin.map CTxIn.prevout).filter coins.isFresh := by
          refine List.filter_congr fun out hout => ?_
          rw [isFresh, hfetch, if_neg (fun heq : out = txin.prevout => hnot (heq ▸ hout))]
          rfl
        rw [hfilter]

end CCoinsViewCache

/-! ## What the checks have read -/

/-- The inputs that passed the first loop of `CheckTxAssets` are there and can be read. -/
theorem tallyInput_readable {acc acc' : StdMap StdString CAmount} {txin : CTxIn}
    (h : tallyInput g cache inputs acc txin lru = (.ok acc', lru')) :
    ∃ coin, inputs.lookup txin.prevout = some coin ∧
      (coin.isAsset = true → ∃ data, getAssetData coin.out.scriptPubKey = some data) := by
  unfold tallyInput at h
  simp only [Checked.lift_bind_ok, orFail_ok] at h
  obtain ⟨coin, hcoin, h⟩ := h
  refine ⟨coin, hcoin, fun hasset => ?_⟩
  simp only [hasset, if_true, Checked.lift_bind_ok, orFail_ok] at h
  obtain ⟨data, hdata, _⟩ := h
  exact ⟨data, hdata⟩

omit [NodeCrypto] in
/-- No valid name is empty. -/
theorem ne_nil_of_isAssetNameValid {name : StdString} {type : AssetType}
    (h : isAssetNameValid name = .ok type) : name ≠ [] := by
  rintro rfl
  revert h
  cases type <;> decide

/-- A transfer that passed the second loop has a name. -/
theorem tallyOutput_name_ne_nil {acc acc' : OutputTally} {txout : CTxOut} {name : StdString}
    {nAmount : CAmount} (h : tallyOutput g cache maps tx fUnit acc txout lru = (.ok acc', lru'))
    (hout : transferredAsset txout = some (name, nAmount)) : name ≠ [] := by
  obtain ⟨⟨transfer, address⟩, hread, heq⟩ := Option.map_eq_some_iff.mp hout
  obtain ⟨rfl, rfl⟩ := Prod.mk.injEq .. ▸ heq
  unfold tallyOutput at h
  simp only [Checked.lift_bind_ok] at h
  obtain ⟨_, _, h⟩ := h
  rw [Checked.bind_ok] at h
  obtain ⟨_, t, _, h⟩ := h
  rw [if_pos (nType_of_transferAssetFromScript hread)] at h
  unfold tallyTransfer at h
  simp only [Checked.lift_bind_ok, orFail_ok, hread, Option.some.injEq] at h
  obtain ⟨_, rfl, h⟩ := h
  rw [Checked.bind_ok] at h
  obtain ⟨_, _, hcheck, _⟩ := h
  rw [Checked.mapError_ok, contextualCheckTransferAsset, Checked.lift_bind_ok] at hcheck
  obtain ⟨type, hname, _⟩ := hcheck
  exact ne_nil_of_isAssetNameValid (mapError_ok.mp hname)

/-- **Every input of a transaction that passed `CheckTxAssets` is there and can be read**, whatever
bytes its script has. -/
theorem checkTxAssets_readable {vPair : List (StdString × UInt256)}
    (h : checkTxAssets g cache params maps tx inputs fCheckMempool fUnit lru = (.ok vPair, lru')) :
    ∀ txin ∈ tx.vin, ∃ coin, inputs.lookup txin.prevout = some coin ∧ coin.Readable := by
  obtain ⟨_, totalInputs, outs, t₁, t₂, hin, hout, _, _, _⟩ := checkTxAssets_ok.mp h
  have hinputs : ∀ txin ∈ tx.vin, ∃ coin, inputs.lookup txin.prevout = some coin ∧
      (coin.isAsset = true → ∃ data, getAssetData coin.out.scriptPubKey = some data) := by
    refine Checked.foldChecks_induction (R := fun (seen : List CTxIn) _ =>
      ∀ txin ∈ seen, ∃ coin, inputs.lookup txin.prevout = some coin ∧
        (coin.isAsset = true → ∃ data, getAssetData coin.out.scriptPubKey = some data))
      (by simp) ?_ hin
    intro seen txin acc acc' t t' _ hseen hstep
    rw [List.forall_mem_append, List.forall_mem_singleton]
    exact ⟨hseen, tallyInput_readable hstep⟩
  have hnames : ∀ entry ∈ transferredAssets tx, entry.1 ≠ [] := by
    refine Checked.foldChecks_induction (R := fun (seen : List CTxOut) _ =>
      ∀ entry ∈ seen.filterMap transferredAsset, entry.1 ≠ []) (by simp) ?_ hout
    intro seen txout acc acc' t t' _ hseen hstep
    rw [List.filterMap_append, List.forall_mem_append]
    refine ⟨hseen, fun entry hentry => ?_⟩
    simp only [List.mem_filterMap, List.mem_singleton, exists_eq_left] at hentry
    exact tallyOutput_name_ne_nil hstep hentry
  intro txin hmem
  obtain ⟨coin, hcoin, hread⟩ := hinputs txin hmem
  refine ⟨coin, hcoin, fun hasset => ?_⟩
  obtain ⟨data, hdata⟩ := hread hasset
  refine ⟨data, hdata, ?_⟩
  -- what is spent has to be transferred, and a transfer has a name
  have hspent : data.assetName ∈ (spentAssets inputs tx).map Prod.fst := by
    refine List.mem_map.mpr ⟨(data.assetName, data.nAmount),
      List.mem_filterMap.mpr ⟨txin, hmem, ?_⟩, rfl⟩
    rw [spentAsset, hcoin, Option.bind_some, hdata]
    rfl
  obtain ⟨entry, hentry, heq⟩ := List.mem_map.mp ((mem_spentAssets_iff h data.assetName).mp hspent)
  rw [← heq]
  exact hnames entry hentry

/-- **`UpdateCoins` spends what was checked**: for a transaction that passed `CheckTxInputs` and
`CheckTxAssets` on the coins and the asset cache it is applied to, every `SpendCoin` succeeds exactly
when no outpoint with a `FRESH` entry is spent twice. -/
theorem updateCoins_spends_iff (g : Globals) (coins : CCoinsViewCache) (assets : View)
    (params : CAssetParams) (maps : MempoolMaps) (tx : CTransaction) (nSpendHeight : Int)
    (fCheckMempool fRunningUnitTests : Bool) (txfee : CAmount)
    (_hinputs : checkTxInputs tx coins.view nSpendHeight = .ok txfee)
    (vPairReissueAssets : List (StdString × UInt256))
    (hassets : (checkTxAssets g assets.cache params maps tx coins.view fCheckMempool
      fRunningUnitTests assets.lru).1 = .ok vPairReissueAssets) :
    (coins.spendInputs g tx.vin assets.cache).isSome = true ↔
      ((tx.vin.map CTxIn.prevout).filter coins.isFresh).Nodup := by
  have hread := checkTxAssets_readable (Prod.ext hassets rfl)
  rw [CCoinsViewCache.spendInputs_isSome_iff]
  · refine and_iff_right fun txin hmem => ?_
    obtain ⟨coin, hcoin, -⟩ := hread txin hmem
    rw [CCoinsViewCache.lookup_view, Option.bind_eq_some_iff] at hcoin
    obtain ⟨entry, hentry, -⟩ := hcoin
    rw [hentry, Option.isSome_some]
  · intro txin hmem coin hcoin
    obtain ⟨coin', hcoin', hreadable⟩ := hread txin hmem
    rw [hcoin, Option.some.injEq] at hcoin'
    rwa [hcoin']

omit [NodeCrypto] in
/-- The set `CheckTransaction` fills with the outpoints. -/
theorem checkDuplicateInputs_ok {vin : List CTxIn} {vInOutPoints : List COutPoint}
    (hnodup : vInOutPoints.Nodup) (h : checkDuplicateInputs vInOutPoints vin = .ok ()) :
    (vin.map CTxIn.prevout).Nodup ∧ ∀ txin ∈ vin, txin.prevout ∉ vInOutPoints := by
  induction vin generalizing vInOutPoints with
  | nil => simp
  | cons txin vin ih =>
    rw [checkDuplicateInputs, bind_ok] at h
    obtain ⟨_, hnew, hrest⟩ := h
    rw [failIf_ok, List.contains_eq_mem, decide_eq_false_iff_not] at hnew
    obtain ⟨hvin, hdisjoint⟩ := ih (List.nodup_cons.mpr ⟨hnew, hnodup⟩) hrest
    simp only [List.mem_cons, not_or] at hdisjoint
    rw [List.map_cons, List.nodup_cons, List.forall_mem_cons, List.mem_map]
    refine ⟨⟨?_, hvin⟩, hnew, fun txin' hmem => (hdisjoint txin' hmem).2⟩
    rintro ⟨txin', hmem, heq⟩
    exact (hdisjoint txin' hmem).1 heq

/-- With `CheckTransaction` the inputs are distinct, and `UpdateCoins` cannot fail to spend them. -/
theorem spendInputs_isSome_of_checked {s : ChainState} {nHeight : Int} {blockReward : CAmount}
    {fMempoolCheck fBlockCheck : Bool} {vPair : List (StdString × UInt256)}
    (htx : checkTransaction params tx nHeight blockReward fMempoolCheck fBlockCheck = .ok ())
    (hassets : checkTxAssets g s.assets.cache params maps tx s.view fCheckMempool fUnit lru =
      (.ok vPair, lru')) : (spendInputs g tx.vin s).isSome = true := by
  obtain ⟨_, _, _, _, hdup, _⟩ := checkTransaction_ok htx
  exact spendInputs_isSome (checkTxAssets_readable hassets) (checkDuplicateInputs_ok List.nodup_nil hdup).1

end

section

attribute [local instance] mainnetCrypto

/-- The coin of `5` units of `COIN` as `AddCoin` leaves it in the cache. -/
def freshCoins : CCoinsViewCache where
  cacheCoins := fiveCoins.foldl
    (fun m out coin => m.insert out { coin := some coin, dirty := true, fresh := true }) ∅
  fresh_absent := fun _ _ _ _ => rfl

theorem updateCoins_spends_iff_transfer :
    (freshCoins.spendInputs coinGlobals (transferTx [2, 3]).vin {}).isSome = true ↔
      (((transferTx [2, 3]).vin.map CTxIn.prevout).filter freshCoins.isFresh).Nodup :=
  updateCoins_spends_iff coinGlobals freshCoins {} mainAssetParams {} (transferTx [2, 3]) 1
    false false 0 (by decide +kernel) [] (by decide +kernel)

theorem spendInputs_isSome_transfer :
    (spendInputs coinGlobals (transferTx [2, 3]).vin { view := fiveCoins }).isSome = true := by
  have htx : checkTransaction mainAssetParams (transferTx [2, 3]) 100 0 = .ok () := by decide +kernel
  have hassets : (checkTxAssets coinGlobals {} mainAssetParams {} (transferTx [2, 3]) fiveCoins false false {}).1 =
      .ok [] := by decide +kernel
  exact spendInputs_isSome_of_checked htx (Prod.ext hassets rfl)

/-- A transaction that spends the coin of `5` units of `COIN` twice. -/
def twiceTx : CTransaction where
  hash := 2
  vin := [{ prevout := ⟨1, 0⟩ }, { prevout := ⟨1, 0⟩ }]
  vout := [transferOut (bytes "COIN") 10]

/-- **The two checks do not see a coin that is spent twice**; `CheckTransaction` does. -/
theorem twiceTx_not_spent :
    checkTxInputs twiceTx freshCoins.view 1 = .ok 0 ∧
      (checkTxAssets coinGlobals {} mainAssetParams {} twiceTx freshCoins.view false false {}).1 =
        .ok [] ∧
      freshCoins.spendInputs coinGlobals twiceTx.vin {} = none ∧
      checkTransaction mainAssetParams twiceTx 100 0 =
        .error (badTx "bad-txns-inputs-duplicate") := by
  refine ⟨?_, ?_, ?_, ?_⟩
  · decide +kernel
  · decide +kernel
  · rw [← Option.isNone_iff_eq_none]
    decide +kernel
  · decide +kernel

end

end RavenCash
