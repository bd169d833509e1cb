import RavenCash.Consensus.Authority

/-!
# Authority over tags and freezes

An output with null asset data tags an address with a qualifier, freezes an address for a restricted
asset, or freezes the asset everywhere. `CheckTransaction` collects the names in a loop over the
outputs and then looks for a transfer of the token that permits each change; `CheckTxAssets` makes
the transferred assets the spent ones.

The token of a global change is found by cutting the first byte of the name, whatever that byte is,
and no function asks for the type of the name.
-/

set_option autoImplicit false

namespace RavenCash

section

variable [NodeCrypto]

/-- **Authority over restrictions**: a global change is of a restricted asset `$X` and the
transaction spends `X!`; a freeze of an address for `$X` comes with `X!`, a tag with its qualifier. -/
structure RestrictionAuthorised (inputs : CCoinsView) (tx : CTransaction) : Prop where
  restrictsGlobally : ∀ out ∈ tx.vout, ∀ data,
    globalAssetNullDataFromScript out.scriptPubKey = some data →
    assetTypeOf data.asset_name = some .RESTRICTED ∧
      Spends inputs tx (data.asset_name.drop 1 ++ OWNER_TAG)
  restrictsAddress : ∀ out ∈ tx.vout, ∀ data address,
    assetNullDataFromScript out.scriptPubKey = some (data, address) →
    isAssetNameAnRestricted data.asset_name = true →
    Spends inputs tx (data.asset_name.drop 1 ++ OWNER_TAG)
  tagsAddress : ∀ out ∈ tx.vout, ∀ data address,
    assetNullDataFromScript out.scriptPubKey = some (data, address) →
    isAssetNameAQualifier data.asset_name = true → Spends inputs tx data.asset_name

/-- The name of every global change starts with `$` and has no slash. -/
def GlobalNamesRestricted (tx : CTransaction) : Prop :=
  ∀ out ∈ tx.vout, ∀ data, globalAssetNullDataFromScript out.scriptPubKey = some data →
    data.asset_name.head? = some '$'.toNat.toUInt8 ∧ '/'.toNat.toUInt8 ∉ data.asset_name

/-! ## What the loop over the outputs collects -/

/-- The scan of the outputs `vout` has seen every change, and every name it has taken for transferred
is valid and that of a transfer. -/
structure Scanned (vout : List CTxOut) (scan : OutputScan) : Prop where
  transfers : ∀ name ∈ scan.setAssetTransferNames, isNameValid name = true ∧
    ∃ out ∈ vout, ∃ t, transferAssetFromScript out.scriptPubKey = some t ∧ t.1.strName = name
  addressChanges : ∀ out ∈ vout, ∀ data address,
    assetNullDataFromScript out.scriptPubKey = some (data, address) →
    (data.asset_name, address) ∈ scan.mapNullDataTxCount
  globalChanges : ∀ out ∈ vout, ∀ data, globalAssetNullDataFromScript out.scriptPubKey = some data →
    data.asset_name ∈ scan.setNullGlobalAssetChanges

theorem scanned_nil : Scanned [] {} where
  transfers _ h := by cases h
  addressChanges _ h := by cases h
  globalChanges _ h := by cases h

omit [NodeCrypto] in
theorem not_nullAssetTxData_of_global {s : CScript}
    (h : s.isNullGlobalRestrictionAssetTxDataScript = true) : s.isNullAssetTxDataScript = false := by
  simp only [CScript.isNullGlobalRestrictionAssetTxDataScript, Bool.and_eq_true, beq_iff_eq] at h
  rw [CScript.isNullAssetTxDataScript, h.1.2]
  simp [OP_RESERVED]

/-- What one null asset data output adds to the scan. -/
theorem scanNullAsset_ok {scan scan' : OutputScan} {txout : CTxOut}
    (h : scanNullAsset scan txout = .ok scan') :
    scan'.setAssetTransferNames = scan.setAssetTransferNames ∧
      scan.mapNullDataTxCount ⊆ scan'.mapNullDataTxCount ∧
      scan.setNullGlobalAssetChanges ⊆ scan'.setNullGlobalAssetChanges ∧
      (∀ data address, assetNullDataFromScript txout.scriptPubKey = some (data, address) →
        (data.asset_name, address) ∈ scan'.mapNullDataTxCount) ∧
      (∀ data, globalAssetNullDataFromScript txout.scriptPubKey = some data →
        data.asset_name ∈ scan'.setNullGlobalAssetChanges) := by
  unfold scanNullAsset at h
  by_cases htx : txout.scriptPubKey.isNullAssetTxDataScript = true
  · rw [if_pos htx] at h
    simp only [bind_ok, orFail_ok, mapError_ok, failIf_ok, pure_ok] at h
    obtain ⟨⟨data, address⟩, hread, _, _, _, _, rfl⟩ := h
    refine ⟨rfl, List.subset_cons_self _ _, List.Subset.refl _, ?_, ?_⟩
    · intro data' address' hread'
      rw [hread, Option.some.injEq, Prod.mk.injEq] at hread'
      obtain ⟨rfl, rfl⟩ := hread'
      exact List.mem_cons_self
    · intro data' hread'
      unfold globalAssetNullDataFromScript at hread'
      split_ifs at hread' with hglobal
      rw [not_nullAssetTxData_of_global hglobal] at htx
      cases htx
  · rw [if_neg htx] at h
    have hnone : ∀ data address,
        assetNullDataFromScript txout.scriptPubKey ≠ some (data, address) := by
      intro data address hread
      rw [assetNullDataFromScript, if_neg htx] at hread
      cases hread
    by_cases hglobal : txout.scriptPubKey.isNullGlobalRestrictionAssetTxDataScript = true
    · rw [if_pos hglobal] at h
      simp only [bind_ok, orFail_ok, mapError_ok, failIf_ok, pure_ok] at h
      obtain ⟨data, hread, _, _, _, _, rfl⟩ := h
      refine ⟨rfl, List.Subset.refl _, ?_, ?_, ?_⟩
      · intro name hname
        exact mem_insertInOrder.mpr (.inr hname)
      · intro data' address' hread'
        exact absurd hread' (hnone data' address')
      · intro data' hread'
        rw [hread, Option.some.injEq] at hread'
        subst hread'
        exact mem_insertInOrder.mpr (.inl rfl)
    · rw [if_neg hglobal] at h
      have hsame : scan'.setAssetTransferNames = scan.setAssetTransferNames ∧
          scan'.mapNullDataTxCount = scan.mapNullDataTxCount ∧
          scan'.setNullGlobalAssetChanges = scan.setNullGlobalAssetChanges := by
        by_cases hverifier : txout.scriptPubKey.isNullAssetVerifierTxDataScript = true
        · rw [if_pos hverifier] at h
          simp only [bind_ok, mapError_ok, failIf_ok, pure_ok] at h
          obtain ⟨_, _, _, _, rfl⟩ := h
          exact ⟨rfl, rfl, rfl⟩
        · rw [if_neg hverifier, Except.ok.injEq] at h
          rw [h]
          exact ⟨rfl, rfl, rfl⟩
      obtain ⟨htransfers, hchanges, hglobals⟩ := hsame
      refine ⟨htransfers, hchanges ▸ List.Subset.refl _, hglobals ▸ List.Subset.refl _, ?_, ?_⟩
      · intro data' address' hread'
        exact absurd hread' (hnone data' address')
      · intro data' hread'
        rw [globalAssetNullDataFromScript, if_neg hglobal] at hread'
        cases hread'

theorem scanTransfer_ok {scan scan' : OutputScan} {txout : CTxOut}
    (h : scanTransfer scan txout = .ok scan') :
    ∃ t, transferAssetFromScript txout.scriptPubKey = some t ∧ isNameValid t.1.strName = true ∧
      scan' = { scan with
        setAssetTransferNames := insertInOrder t.1.strName scan.setAssetTransferNames } := by
  unfold scanTransfer at h
  simp only [bind_ok, orFail_ok, mapError_ok, failIf_ok, pure_ok] at h
  obtain ⟨t, hread, type, hvalid, _, _, _, _, _, _, _, _, rfl⟩ := h
  refine ⟨t, hread, ?_, rfl⟩
  simp [isNameValid, assetTypeOf, hvalid, Except.toOption]

/-- What one asset output adds to the scan. -/
theorem scanAsset_ok {fMempoolCheck fBlockCheck : Bool} {scan scan' : OutputScan} {txout : CTxOut}
    (h : scanAsset fMempoolCheck fBlockCheck scan txout = .ok scan') :
    scan'.mapNullDataTxCount = scan.mapNullDataTxCount ∧
      scan'.setNullGlobalAssetChanges = scan.setNullGlobalAssetChanges ∧
      ∀ name ∈ scan'.setAssetTransferNames, name ∈ scan.setAssetTransferNames ∨
        isNameValid name = true ∧
          ∃ t, transferAssetFromScript txout.scriptPubKey = some t ∧ t.1.strName = name := by
  have hkept : scan' = scan → scan'.mapNullDataTxCount = scan.mapNullDataTxCount ∧
      scan'.setNullGlobalAssetChanges = scan.setNullGlobalAssetChanges ∧
      ∀ name ∈ scan'.setAssetTransferNames, name ∈ scan.setAssetTransferNames ∨
        isNameValid name = true ∧
          ∃ t, transferAssetFromScript txout.scriptPubKey = some t ∧ t.1.strName = name := by
    rintro rfl
    exact ⟨rfl, rfl, fun name hname => .inl hname⟩
  unfold scanAsset at h
  split at h
  · exact hkept (Except.ok.inj h).symm
  · split at h
    · obtain ⟨t, hread, hvalid, rfl⟩ := scanTransfer_ok h
      refine ⟨rfl, rfl, ?_⟩
      intro name hname
      rcases mem_insertInOrder.mp hname with rfl | hname
      · exact .inr ⟨hvalid, t, hread, rfl⟩
      · exact .inl hname
    · simp only [bind_ok, failIf_ok, pure_ok] at h
      obtain ⟨_, _, hsame⟩ := h
      exact hkept hsame.symm
    · simp only [bind_ok, failIf_ok, pure_ok] at h
      obtain ⟨_, _, _, _, hsame⟩ := h
      exact hkept hsame.symm
    · cases h

/-- One iteration of the loop over the outputs. -/
theorem Scanned.step {fMempoolCheck fBlockCheck : Bool} {vout : List CTxOut} {txout : CTxOut}
    {scan scan' : OutputScan} (hscan : Scanned vout scan)
    (h : scanOutput fMempoolCheck fBlockCheck scan txout = .ok scan') :
    Scanned (vout ++ [txout]) scan' := by
  unfold scanOutput at h
  simp only [bind_ok, failIf_ok] at h
  obtain ⟨_, _, _, _, _, _, mid, hnull, hasset⟩ := h
  obtain ⟨htransfers, hchanges, hglobals, hchange, hglobal⟩ := scanNullAsset_ok hnull
  obtain ⟨hcount, hset, hnames⟩ := scanAsset_ok hasset
  constructor
  · intro name hname
    rcases hnames name hname with hold | ⟨hvalid, t, hread, ht⟩
    · rw [htransfers] at hold
      obtain ⟨hvalid, out, hout, t, hread, ht⟩ := hscan.transfers name hold
      exact ⟨hvalid, out, List.mem_append_left _ hout, t, hread, ht⟩
    · exact ⟨hvalid, txout, by simp, t, hread, ht⟩
  · intro out hout data address hread
    rw [hcount]
    rcases List.mem_append.mp hout with hout | hout
    · exact hchanges (hscan.addressChanges out hout data address hread)
    · rw [List.mem_singleton] at hout
      subst hout
      exact hchange data address hread
  · intro out hout data hread
    rw [hset]
    rcases List.mem_append.mp hout with hout | hout
    · exact hglobals (hscan.globalChanges out hout data hread)
    · rw [List.mem_singleton] at hout
      subst hout
      exact hglobal data hread

/-- The whole loop: the outputs left are scanned after those that are. -/
theorem Scanned.run {fMempoolCheck fBlockCheck : Bool} {vout rest : List CTxOut}
    {scan scan' : OutputScan} (hscan : Scanned vout scan)
    (h : scanOutputs fMempoolCheck fBlockCheck scan rest = .ok scan') :
    Scanned (vout ++ rest) scan' := by
  induction rest generalizing vout scan with
  | nil =>
      rw [scanOutputs, Except.ok.injEq] at h
      rw [List.append_nil, ← h]
      exact hscan
  | cons txout rest ih =>
      rw [scanOutputs, bind_ok] at h
      obtain ⟨mid, hone, hrest⟩ := h
      have hall := ih (hscan.step hone) hrest
      rwa [List.append_assoc, List.singleton_append] at hall

theorem hasTransferOf_of_scanned {tx : CTransaction} {scan : OutputScan}
    (hscan : Scanned tx.vout scan) {name : StdString} (h : name ∈ scan.setAssetTransferNames) :
    tx.hasTransferOf name = true ∧ isNameValid name = true := by
  obtain ⟨hvalid, out, hout, t, hread, rfl⟩ := hscan.transfers name h
  refine ⟨?_, hvalid⟩
  rw [CTransaction.hasTransferOf, List.any_eq_true]
  exact ⟨out, hout, by simp [hread]⟩

/-! ## The tokens that `CheckTransaction` looks for -/

omit [NodeCrypto] in
theorem isRestrictedChar_of_restricted {name : StdString}
    (h : isAssetNameAnRestricted name = true) : isRestrictedChar name = true := by
  rw [isAssetNameAnRestricted, Bool.and_eq_true] at h
  cases name with
  | nil => cases h.2
  | cons b name =>
      have hind := h.2
      rw [restrictedIndicator, restrictedNameCharacters, Bool.and_eq_true] at hind
      exact hind.1

omit [NodeCrypto] in
theorem not_isRestrictedChar_of_qualifier {name : StdString}
    (h : isAssetNameAQualifier name = true) : isRestrictedChar name = false := by
  have hind : qualifierIndicator name = true ∨ subQualifierIndicator name = true := by
    simp only [isAssetNameAQualifier, Bool.false_eq_true, if_false, Bool.and_eq_true,
      Bool.or_eq_true] at h
    exact h.2
  cases name with
  | nil => rfl
  | cons b name =>
      have hsharp : isChar '#' b = true := by
        rcases hind with hind | hind
        · rw [qualifierIndicator, qualifierNameCharacters, Bool.and_eq_true] at hind
          exact hind.1
        · rw [subQualifierIndicator, Bool.and_eq_true] at hind
          by_cases hslash : isChar '/' b = true
          · rw [List.takeWhile_cons_of_neg (by simp [hslash])] at hind
            cases hind.1
          · rw [List.takeWhile_cons_of_pos (by simp [hslash]), subQualifierNameCharacters,
              Bool.and_eq_true] at hind
            exact hind.1.1
      rw [isChar, beq_iff_eq] at hsharp
      subst hsharp
      rfl

omit [NodeCrypto] in
/-- Which transfers a passed `CheckTransaction` has found for the changes. -/
theorem checkNullDataTransfers_ok {scan : OutputScan} (h : checkNullDataTransfers scan = .ok ()) :
    (∀ name address, (name, address) ∈ scan.mapNullDataTxCount →
      (if isRestrictedChar name then name.drop 1 ++ OWNER_TAG else name) ∈
        scan.setAssetTransferNames) ∧
    ∀ name ∈ scan.setNullGlobalAssetChanges,
      name.drop 1 ++ OWNER_TAG ∈ scan.setAssetTransferNames := by
  unfold checkNullDataTransfers at h
  rw [bind_ok] at h
  obtain ⟨_, haddress, hglobal⟩ := h
  rw [checkAll_ok] at haddress hglobal
  constructor
  · intro name address hmem
    have hname : name ∈ scan.mapNullDataTxCount.foldl
        (fun names entry => insertInOrder entry.1 names) [] := by
      rw [← List.foldl_map (f := Prod.fst) (g := fun names name => insertInOrder name names),
        mem_foldl_insertInOrder]
      exact .inl (List.mem_map.mpr ⟨_, hmem, rfl⟩)
    have hcheck := haddress name hname
    split_ifs at hcheck ⊢
    · simpa using hcheck
    · simpa using hcheck
  · intro name hname
    have hcheck := hglobal name hname
    simp only [bind_ok, failIf_ok] at hcheck
    obtain ⟨_, _, hfound⟩ := hcheck
    simpa using hfound

/-- **Authority over restrictions.** A transaction accepted by `CheckTransaction` and `CheckTxAssets`
spends the token of every tag and freeze, and its global changes are of restricted assets exactly
when their names start with `$` and have no slash. -/
theorem restrictionAuthorised_iff (g : Globals) (cache : CAssetsCache) (params : CAssetParams)
    (maps : MempoolMaps) (tx : CTransaction) (inputs : CCoinsView) (nHeight : Int)
    (blockReward : CAmount) (fMempoolCheck fBlockCheck fCheckMempool fRunningUnitTests : Bool)
    (lru : LRUCaches) (vPairReissueAssets : List (StdString × UInt256))
    (htx : checkTransaction params tx nHeight blockReward fMempoolCheck fBlockCheck = .ok ())
    (hassets : (checkTxAssets g cache params maps tx inputs fCheckMempool fRunningUnitTests lru).1 =
      .ok vPairReissueAssets) :
    RestrictionAuthorised inputs tx ↔ GlobalNamesRestricted tx := by
  have hrun : checkTxAssets g cache params maps tx inputs fCheckMempool fRunningUnitTests lru =
      (.ok vPairReissueAssets,
        (checkTxAssets g cache params maps tx inputs fCheckMempool fRunningUnitTests lru).2) := by
    rw [← hassets]
  obtain ⟨scan, _, hscan, hnull, _⟩ := checkTransaction_ok htx
  have hscanned : Scanned tx.vout scan := scanned_nil.run hscan
  obtain ⟨haddress, hglobal⟩ := checkNullDataTransfers_ok hnull
  -- a token that was found is spent, and its name is valid
  have hspends : ∀ name ∈ scan.setAssetTransferNames, Spends inputs tx name := fun name hname =>
    (spends_iff_hasTransferOf hrun name).mpr (hasTransferOf_of_scanned hscanned hname).1
  have hrestricted : ∀ out ∈ tx.vout, ∀ data,
      globalAssetNullDataFromScript out.scriptPubKey = some data →
      (assetTypeOf data.asset_name = some .RESTRICTED ↔
        data.asset_name.head? = some '$'.toNat.toUInt8 ∧ '/'.toNat.toUInt8 ∉ data.asset_name) := by
    intro out hout data hread
    have htoken := hglobal _ (hscanned.globalChanges out hout data hread)
    exact assetTypeOf_eq_restricted_iff (hasTransferOf_of_scanned hscanned htoken).2
  constructor
  · intro hauth out hout data hread
    exact (hrestricted out hout data hread).mp (hauth.restrictsGlobally out hout data hread).1
  · intro hnames
    constructor
    · intro out hout data hread
      exact ⟨(hrestricted out hout data hread).mpr (hnames out hout data hread),
        hspends _ (hglobal _ (hscanned.globalChanges out hout data hread))⟩
    · intro out hout data address hread hname
      have htoken := haddress _ _ (hscanned.addressChanges out hout data address hread)
      rw [if_pos (isRestrictedChar_of_restricted hname)] at htoken
      exact hspends _ htoken
    · intro out hout data address hread hname
      have htoken := haddress _ _ (hscanned.addressChanges out hout data address hread)
      rw [not_isRestrictedChar_of_qualifier hname, if_neg Bool.false_ne_true] at htoken
      exact hspends _ htoken

end

/-! ## Two global freezes -/

section

attribute [local instance] mainnetCrypto

/-- The owner of `COIN` freezes a name globally. -/
def freezeTx (name : StdString) : CTransaction where
  hash := 6
  vin := [{ prevout := ⟨3, 0⟩ }, { prevout := ⟨3, 1⟩ }]
  vout := [transferOut (bytes "COIN!") OWNER_ASSET_AMOUNT,
    ⟨0, CNullAssetTxData.constructGlobalRestrictionTransaction ⟨name, 1⟩ []⟩]

theorem restrictionAuthorised_iff_freezeTx :
    RestrictionAuthorised ownerCoins (freezeTx (bytes "$COIN")) ↔
      GlobalNamesRestricted (freezeTx (bytes "$COIN")) :=
  restrictionAuthorised_iff coinGlobals {} mainAssetParams {} (freezeTx (bytes "$COIN")) ownerCoins
    100 0 false false false false {} [] (by decide +kernel) (by decide +kernel)

/-- **A global freeze of no restricted asset**: with the owner token of `COIN` the name `#COIN`, a
qualifier, is frozen. -/
theorem freezeTx_not_restricted :
    checkTransaction mainAssetParams (freezeTx (bytes "#COIN")) 100 0 = .ok () ∧
      (checkTxAssets coinGlobals {} mainAssetParams {} (freezeTx (bytes "#COIN")) ownerCoins false
        false {}).1 = .ok [] ∧
      ¬ RestrictionAuthorised ownerCoins (freezeTx (bytes "#COIN")) := by
  refine ⟨by decide +kernel, by decide +kernel, ?_⟩
  intro hauth
  have htype := (hauth.restrictsGlobally
    ⟨0, CNullAssetTxData.constructGlobalRestrictionTransaction ⟨bytes "#COIN", 1⟩ []⟩
    (by simp [freezeTx]) ⟨bytes "#COIN", 1⟩ (by decide +kernel)).1
  exact absurd htype (by decide +kernel)

end

end RavenCash
