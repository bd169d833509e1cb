import RavenCash.Assets.NameParents
import RavenCash.Consensus.Conservation

/-!
# Authority over issues and reissues

Which token a transaction must spend to issue or reissue an asset, and what `CheckTransaction` with
`CheckTxAssets` enforce of it. Each `Verify…` function looks for a transfer of the token among the
outputs; `CheckTxAssets` makes the transferred assets the spent ones.

`VerifyNewAsset` looks for the owner token of a sub asset only. A message channel or a sub qualifier
is verified by it, and not by its own function, when an owner output stands before the issue.
-/

set_option autoImplicit false

namespace RavenCash

/-! ## The tokens -/

/-- The token that permits the issue of a name: the owner token of the parent, of the asset under a
restricted asset, or the qualifier above a sub qualifier. -/
def issueToken (name : StdString) : Option StdString :=
  match assetTypeOf name with
  | some .SUB | some .UNIQUE | some .MSGCHANNEL => some (getParentName name ++ OWNER_TAG)
  | some .RESTRICTED => some (name.drop 1 ++ OWNER_TAG)
  | some .SUB_QUALIFIER => some (getParentName name)
  | _ => none

/-- The token that permits the reissue of a name. -/
def reissueToken (name : StdString) : StdString := reissueOwnerName name ++ OWNER_TAG

section

variable [NodeCrypto]

/-- The assets a transaction issues. -/
def issuedAssets (tx : CTransaction) : List CNewAsset :=
  tx.vout.filterMap (fun out => (assetFromScript out.scriptPubKey).map Prod.fst)

def reissuedAssets (tx : CTransaction) : List CReissueAsset :=
  tx.vout.filterMap (fun out => (reissueAssetFromScript out.scriptPubKey).map Prod.fst)

/-- The transaction has an input that spends a coin of the asset. -/
def Spends (inputs : CCoinsView) (tx : CTransaction) (name : StdString) : Prop :=
  ∃ txin ∈ tx.vin, ∃ data, spentAsset inputs txin = some data ∧ data.assetName = name

/-- **Authority**: the transaction spends the token of everything it issues and reissues. -/
structure Authorised (inputs : CCoinsView) (tx : CTransaction) : Prop where
  issue : ∀ asset ∈ issuedAssets tx, ∀ token ∈ issueToken asset.strName, Spends inputs tx token
  reissue : ∀ reissue ∈ reissuedAssets tx, Spends inputs tx (reissueToken reissue.strName)

/-- A message channel or sub qualifier that stands after an owner output comes with a transfer of its
token. -/
def ChannelTokenMoved (tx : CTransaction) : Prop :=
  tx.isNewAsset = true → ∀ asset address, assetFromScript tx.lastScript = some (asset, address) →
    assetTypeOf asset.strName = some .MSGCHANNEL ∨ assetTypeOf asset.strName = some .SUB_QUALIFIER →
    ∀ token ∈ issueToken asset.strName, tx.hasTransferOf token = true

/-! ## Outputs and names -/

theorem hasTransferOf_iff {tx : CTransaction} {name : StdString} :
    tx.hasTransferOf name = true ↔ name ∈ (transferredAssets tx).map Prod.fst := by
  simp only [CTransaction.hasTransferOf, List.any_eq_true, transferredAssets, List.mem_map,
    List.mem_filterMap, transferredAsset, Option.map_eq_some_iff]
  constructor
  · rintro ⟨out, hout, h⟩
    cases hread : transferAssetFromScript out.scriptPubKey with
    | none => simp [hread] at h
    | some t =>
        simp only [hread, beq_iff_eq] at h
        exact ⟨(t.1.strName, t.1.nAmount), ⟨out, hout, t, hread, rfl⟩, h.symm⟩
  · rintro ⟨e, ⟨out, hout, t, hread, rfl⟩, rfl⟩
    exact ⟨out, hout, by simp [hread]⟩

theorem spends_iff {inputs : CCoinsView} {tx : CTransaction} {name : StdString} :
    Spends inputs tx name ↔ name ∈ (spentAssets inputs tx).map Prod.fst := by
  simp only [Spends, spentAssets, List.mem_map, List.mem_filterMap, Option.map_eq_some_iff]
  constructor
  · rintro ⟨txin, htxin, data, hdata, rfl⟩
    exact ⟨(data.assetName, data.nAmount), ⟨txin, htxin, data, hdata, rfl⟩, rfl⟩
  · rintro ⟨e, ⟨txin, htxin, data, hdata, rfl⟩, rfl⟩
    exact ⟨txin, htxin, data, hdata, rfl⟩

/-- A transaction that passed spends what it transfers. -/
theorem spends_iff_hasTransferOf {g : Globals} {cache : CAssetsCache} {params : CAssetParams}
    {maps : MempoolMaps} {tx : CTransaction} {inputs : CCoinsView} {fCheckMempool fUnit : Bool}
    {lru lru' : LRUCaches} {vPair : List (StdString × UInt256)}
    (h : checkTxAssets g cache params maps tx inputs fCheckMempool fUnit lru = (.ok vPair, lru'))
    (name : StdString) : Spends inputs tx name ↔ tx.hasTransferOf name = true := by
  rw [spends_iff, hasTransferOf_iff, mem_spentAssets_iff h]

theorem isSome_isScriptNewAsset {s : CScript} {a : CNewAsset × StdString}
    (h : assetFromScript s = some a) : (isScriptNewAsset s).isSome = true := by
  rw [assetFromScript, Option.bind_eq_some_iff] at h
  obtain ⟨i, hi, _⟩ := h
  rw [hi]
  rfl

/-- A reader of a new asset of some types reads what `AssetFromScript` reads. -/
theorem assetFromScript_of_newAssetOf {types : List AssetType} {s : CScript}
    {a : CNewAsset × StdString}
    (h : (isScriptNewAssetOf types s).bind (recordFromScript readNewAsset s) = some a) :
    assetFromScript s = some a ∧ ∃ type ∈ types, assetTypeOf a.1.strName = some type := by
  rw [Option.bind_eq_some_iff] at h
  obtain ⟨i, hi, hread⟩ := h
  unfold isScriptNewAssetOf newAssetType at hi
  cases hscript : s.assetScript with
  | none => simp [hscript] at hi
  | some script =>
      cases hasset : assetFromScript s with
      | none => simp [hscript, hasset] at hi
      | some b =>
          cases htype : assetTypeOf b.1.strName with
          | none => simp [hscript, hasset, htype] at hi
          | some type =>
              simp only [hscript, hasset, htype, Option.bind_some, Option.ite_none_right_eq_some,
                Option.some.injEq] at hi
              obtain ⟨hmem, rfl⟩ := hi
              -- both readers start where the asset script says
              have hsame : assetFromScript s = recordFromScript readNewAsset s script.nStartingIndex := by
                rw [assetFromScript, Option.bind_eq_some_iff] at hasset
                obtain ⟨j, hj, _⟩ := hasset
                rw [assetFromScript, hj, Option.bind_some]
                have hj' := CScript.assetDataOf_eq_some.mp hj
                rw [hscript, Option.some.injEq] at hj'
                rw [hj']
              have hab : b = a := by
                rw [← Option.some.injEq, ← hasset, hsame, hread]
              subst hab
              exact ⟨rfl, type, hmem, htype⟩

/-! ## Counting issues -/

omit [NodeCrypto] in
/-- When one output is of a kind and the last one is, every output of the kind is the last. -/
theorem script_eq_lastScript {p : CScript → Bool} {tx : CTransaction} (hnil : p [] = false)
    (hcount : tx.vout.countP (fun out => p out.scriptPubKey) = 1) (hlast : p tx.lastScript = true)
    {out : CTxOut} (hout : out ∈ tx.vout) (hp : p out.scriptPubKey = true) :
    out.scriptPubKey = tx.lastScript := by
  rw [List.countP_eq_length_filter, List.length_eq_one_iff] at hcount
  obtain ⟨only, honly⟩ := hcount
  have heq : ∀ o ∈ tx.vout, p o.scriptPubKey = true → o = only := by
    intro o ho hpo
    have hmem : o ∈ tx.vout.filter (fun out => p out.scriptPubKey) :=
      List.mem_filter.mpr ⟨ho, hpo⟩
    rw [honly] at hmem
    exact List.mem_singleton.mp hmem
  unfold CTransaction.lastScript at hlast ⊢
  cases hvout : tx.vout.getLast? with
  | none =>
      rw [hvout] at hlast
      exact absurd (hnil.symm.trans hlast) (by decide)
  | some last =>
      rw [hvout] at hlast
      have hlast' : last = only := heq last (List.mem_of_getLast? hvout) hlast
      rw [heq out hout hp, ← hlast']
      rfl

section

variable {α : Type} {read : CScript → Option α} {p : CScript → Bool} {tx : CTransaction}

omit [NodeCrypto] in
theorem readOuts_eq (hread : ∀ s a, read s = some a → p s = true) (hnil : p [] = false)
    (hcount : tx.vout.countP (fun out => p out.scriptPubKey) = 1) {a : α}
    (hlast : read tx.lastScript = some a) :
    ∀ b ∈ tx.vout.filterMap (fun out => read out.scriptPubKey), b = a := by
  intro b hb
  rw [List.mem_filterMap] at hb
  obtain ⟨out, hout, hb⟩ := hb
  have hscript := script_eq_lastScript hnil hcount (hread _ _ hlast) hout (hread _ _ hb)
  rw [hscript, hlast, Option.some.injEq] at hb
  exact hb.symm

omit [NodeCrypto] in
theorem readOuts_eq_nil (hread : ∀ s a, read s = some a → p s = true)
    (hcount : tx.vout.countP (fun out => p out.scriptPubKey) = 0) :
    tx.vout.filterMap (fun out => read out.scriptPubKey) = [] := by
  rw [List.countP_eq_zero] at hcount
  rw [List.filterMap_eq_nil_iff]
  intro out hout
  rw [Option.eq_none_iff_forall_ne_some]
  intro a ha
  exact hcount out hout (hread _ _ ha)

end

theorem isScriptNewAsset_of_issued (s : CScript) (a : CNewAsset)
    (h : (assetFromScript s).map Prod.fst = some a) : (isScriptNewAsset s).isSome = true := by
  rw [Option.map_eq_some_iff] at h
  obtain ⟨b, hb, _⟩ := h
  exact isSome_isScriptNewAsset hb

theorem isScriptReissueAsset_of_reissued (s : CScript) (r : CReissueAsset)
    (h : (reissueAssetFromScript s).map Prod.fst = some r) :
    (isScriptReissueAsset s).isSome = true := by
  rw [Option.map_eq_some_iff] at h
  obtain ⟨b, hb, _⟩ := h
  rw [reissueAssetFromScript, Option.bind_eq_some_iff] at hb
  obtain ⟨i, hi, _⟩ := hb
  rw [hi]
  rfl

theorem issued_eq {tx : CTransaction} {a : CNewAsset × StdString} (hcount : nIssues tx.vout = 1)
    (hread : assetFromScript tx.lastScript = some a) : ∀ asset ∈ issuedAssets tx, asset = a.1 :=
  readOuts_eq isScriptNewAsset_of_issued (by decide) hcount (by rw [hread]; rfl)

theorem issued_eq_nil {tx : CTransaction} (hcount : nIssues tx.vout = 0) : issuedAssets tx = [] :=
  readOuts_eq_nil isScriptNewAsset_of_issued hcount

theorem reissued_eq {tx : CTransaction} {r : CReissueAsset × StdString}
    (hcount : nReissues tx.vout = 1) (hread : reissueAssetFromScript tx.lastScript = some r) :
    ∀ reissue ∈ reissuedAssets tx, reissue = r.1 :=
  readOuts_eq isScriptReissueAsset_of_reissued (by decide) hcount (by rw [hread]; rfl)

theorem reissued_eq_nil {tx : CTransaction} (hcount : nReissues tx.vout = 0) :
    reissuedAssets tx = [] :=
  readOuts_eq_nil isScriptReissueAsset_of_reissued hcount

/-! ## What the verifications establish -/

omit [NodeCrypto] in
/-- The check of the formatting at the end of a verification: one issue, or one reissue, and none of the other. -/
theorem counts_of_formatted {owners : Bool} {one none : Nat} (h : (owners || one != 1 || decide (0 < none)) = false) :
    one = 1 ∧ none = 0 := by
  simp only [Bool.or_eq_false_iff, bne_eq_false_iff_eq, decide_eq_false_iff_not, not_lt, Nat.le_zero] at h
  exact ⟨h.1.2, h.2⟩

theorem verifyNewAsset_ok {params : CAssetParams} {tx : CTransaction}
    (h : tx.verifyNewAsset params = .ok ()) :
    ∃ asset address, assetFromScript tx.lastScript = some (asset, address) ∧
      (assetTypeOf asset.strName = some .SUB →
        tx.hasTransferOf (getParentName asset.strName ++ OWNER_TAG) = true) ∧
      nIssues tx.vout = 1 ∧ nReissues tx.vout = 0 := by
  unfold CTransaction.verifyNewAsset at h
  simp only [bind_ok, failIf_ok, orFail_ok] at h
  obtain ⟨_, _, _, _, _, _, ⟨asset, address⟩, hread, _, _, _, _, _, _, _, hsub, hcount⟩ := h
  refine ⟨asset, address, hread, fun htype => ?_, counts_of_formatted hcount⟩
  have hty := (assetTypeOrInvalid_eq (by decide)).mpr htype
  simpa [hty] using hsub

theorem verifyReissueAsset_ok {params : CAssetParams} {tx : CTransaction}
    (h : tx.verifyReissueAsset params = .ok ()) :
    ∃ reissue address, reissueAssetFromScript tx.lastScript = some (reissue, address) ∧
      tx.hasTransferOf (reissueToken reissue.strName) = true ∧
      nReissues tx.vout = 1 ∧ nIssues tx.vout = 0 := by
  unfold CTransaction.verifyReissueAsset at h
  simp only [bind_ok, failIf_ok, orFail_ok] at h
  obtain ⟨_, _, _, _, ⟨reissue, address⟩, hread, _, htoken, _, _, hcount⟩ := h
  rw [Bool.not_eq_false'] at htoken
  exact ⟨reissue, address, hread, htoken, counts_of_formatted hcount⟩

theorem verifyNewMsgChannelAsset_ok {params : CAssetParams} {tx : CTransaction}
    (h : tx.verifyNewMsgChannelAsset params = .ok ()) :
    ∃ asset address, msgChannelAssetFromScript tx.lastScript = some (asset, address) ∧
      tx.hasTransferOf (getParentName asset.strName ++ OWNER_TAG) = true ∧
      nIssues tx.vout = 1 ∧ nReissues tx.vout = 0 := by
  unfold CTransaction.verifyNewMsgChannelAsset at h
  simp only [bind_ok, failIf_ok, orFail_ok] at h
  obtain ⟨_, _, _, _, ⟨asset, address⟩, hread, _, _, _, htoken, hcount⟩ := h
  rw [Bool.not_eq_false'] at htoken
  exact ⟨asset, address, hread, htoken, counts_of_formatted hcount⟩

theorem verifyNewQualfierAsset_ok {params : CAssetParams} {tx : CTransaction}
    (h : tx.verifyNewQualfierAsset params = .ok ()) :
    ∃ asset address, qualifierAssetFromScript tx.lastScript = some (asset, address) ∧
      (assetTypeOf asset.strName = some .SUB_QUALIFIER →
        tx.hasTransferOf (getParentName asset.strName) = true) ∧
      nIssues tx.vout = 1 ∧ nReissues tx.vout = 0 := by
  unfold CTransaction.verifyNewQualfierAsset at h
  simp only [bind_ok, failIf_ok, orFail_ok] at h
  obtain ⟨_, _, _, _, ⟨asset, address⟩, hread, _, _, _, htoken, hcount⟩ := h
  refine ⟨asset, address, hread, fun htype => ?_, counts_of_formatted hcount⟩
  have hty := (assetTypeOrInvalid_eq (by decide)).mpr htype
  simpa [hty] using htoken

theorem verifyNewRestrictedAsset_ok {params : CAssetParams} {tx : CTransaction}
    (h : tx.verifyNewRestrictedAsset params = .ok ()) :
    ∃ asset address, restrictedAssetFromScript tx.lastScript = some (asset, address) ∧
      tx.hasTransferOf ((getParentName asset.strName).drop 1 ++ OWNER_TAG) = true ∧
      nIssues tx.vout = 1 ∧ nReissues tx.vout = 0 := by
  unfold CTransaction.verifyNewRestrictedAsset at h
  simp only [bind_ok, failIf_ok, orFail_ok] at h
  obtain ⟨_, _, _, _, ⟨asset, address⟩, hread, _, _, _, htoken, _, _, hcount⟩ := h
  rw [Bool.not_eq_false'] at htoken
  exact ⟨asset, address, hread, htoken, counts_of_formatted hcount⟩

/-! ### Unique assets -/

theorem unique_of_isScriptNewUniqueAsset {s : CScript} (h : isScriptNewUniqueAsset s = true) :
    ∃ a, assetFromScript s = some a ∧ assetTypeOf a.1.strName = some .UNIQUE := by
  unfold isScriptNewUniqueAsset isScriptNewAssetOf newAssetType at h
  cases hscript : s.assetScript with
  | none => simp [hscript] at h
  | some script =>
      cases hasset : assetFromScript s with
      | none => simp [hscript, hasset] at h
      | some a =>
          cases htype : assetTypeOf a.1.strName with
          | none => simp [hscript, hasset, htype] at h
          | some type =>
              simp only [hscript, hasset, htype, Option.bind_some, List.mem_singleton] at h
              split_ifs at h with heq
              · exact ⟨a, rfl, heq ▸ htype⟩
              · simp at h

/-- The loop of `VerifyNewUniqueAsset`: every unique asset has the root it returns, and it counts
them. -/
theorem uniqueAssetsOf_ok {vout : List CTxOut} {root₀ root : StdString}
    {names₀ names : List StdString} (h : uniqueAssetsOf vout root₀ names₀ = .ok (root, names)) :
    (root₀ ≠ [] → root = root₀) ∧
      names.length = names₀.length + vout.countP (fun out => isScriptNewUniqueAsset out.scriptPubKey) ∧
      ∀ out ∈ vout, isScriptNewUniqueAsset out.scriptPubKey = true →
        ∃ a, assetFromScript out.scriptPubKey = some a ∧ getParentName a.1.strName = root := by
  induction vout generalizing root₀ names₀ with
  | nil =>
      rw [uniqueAssetsOf, Except.ok.injEq, Prod.mk.injEq] at h
      obtain ⟨rfl, rfl⟩ := h
      simp
  | cons out vout ih =>
      unfold uniqueAssetsOf at h
      by_cases hunique : isScriptNewUniqueAsset out.scriptPubKey
      · rw [if_pos hunique] at h
        simp only [bind_ok, orFail_ok, failIf_ok] at h
        obtain ⟨a, hread, _, hroot, _, _, hrest⟩ := h
        obtain ⟨b, hb, htype⟩ := unique_of_isScriptNewUniqueAsset hunique
        rw [hread, Option.some.injEq] at hb
        subst hb
        have hparent : getParentName a.1.strName ≠ [] := getParentName_unique_ne_nil htype
        rw [bne_eq_false_iff_eq] at hroot
        rw [hroot] at hrest
        obtain ⟨hkeep, hlen, hall⟩ := ih hrest
        refine ⟨?_, ?_, ?_⟩
        · intro hne
          rw [hkeep hparent, ← hroot, if_neg (by simpa using hne)]
        · have hcons := List.countP_cons_of_pos
            (p := fun out : CTxOut => isScriptNewUniqueAsset out.scriptPubKey) (l := vout) hunique
          rw [hlen, hcons, List.length_cons]
          omega
        · intro o ho ho'
          rcases List.mem_cons.mp ho with rfl | ho
          · exact ⟨a, hread, (hkeep hparent).symm⟩
          · exact hall o ho ho'
      · rw [if_neg hunique] at h
        obtain ⟨hkeep, hlen, hall⟩ := ih h
        refine ⟨hkeep, ?_, ?_⟩
        · have hcons := List.countP_cons_of_neg
            (p := fun out : CTxOut => isScriptNewUniqueAsset out.scriptPubKey) (l := vout) hunique
          rw [hlen, hcons]
        · intro o ho ho'
          rcases List.mem_cons.mp ho with rfl | ho
          · exact absurd ho' hunique
          · exact hall o ho ho'

omit [NodeCrypto] in
/-- If one predicate implies another and both count the same, they agree on the list. -/
theorem of_countP_eq {α : Type} {p q : α → Bool} {l : List α} (hpq : ∀ a, p a = true → q a = true)
    (hcount : l.countP q = l.countP p) : ∀ a ∈ l, q a = true → p a = true := by
  induction l with
  | nil => simp
  | cons b l ih =>
      have hle : l.countP p ≤ l.countP q := List.countP_mono_left (fun a _ ha => hpq a ha)
      intro a ha hqa
      by_cases hp : p b = true
      · rw [List.countP_cons_of_pos hp, List.countP_cons_of_pos (hpq b hp)] at hcount
        rcases List.mem_cons.mp ha with rfl | ha
        · exact hp
        · exact ih (by omega) a ha hqa
      · rw [List.countP_cons_of_neg hp] at hcount
        by_cases hq : q b = true
        · rw [List.countP_cons_of_pos hq] at hcount
          omega
        · rw [List.countP_cons_of_neg hq] at hcount
          rcases List.mem_cons.mp ha with rfl | ha
          · exact absurd hqa hq
          · exact ih hcount a ha hqa

theorem verifyNewUniqueAsset_ok {params : CAssetParams} {tx : CTransaction}
    (h : tx.verifyNewUniqueAsset params = .ok ()) :
    (∀ asset ∈ issuedAssets tx, assetTypeOf asset.strName = some .UNIQUE ∧
        tx.hasTransferOf (getParentName asset.strName ++ OWNER_TAG) = true) ∧
      nOwners tx.vout = 0 ∧ nReissues tx.vout = 0 := by
  unfold CTransaction.verifyNewUniqueAsset at h
  simp only [bind_ok, failIf_ok] at h
  obtain ⟨_, _, ⟨root, names⟩, hloop, _, _, _, _, _, htoken, hcount⟩ := h
  simp only [Bool.or_eq_false_iff, bne_eq_false_iff_eq, decide_eq_false_iff_not, not_lt,
    Nat.le_zero] at hcount
  rw [Bool.not_eq_false'] at htoken
  obtain ⟨_, hlen, hall⟩ := uniqueAssetsOf_ok hloop
  refine ⟨?_, hcount.1.1, hcount.1.2⟩
  intro asset hasset
  rw [issuedAssets, List.mem_filterMap] at hasset
  obtain ⟨out, hout, hread⟩ := hasset
  rw [Option.map_eq_some_iff] at hread
  obtain ⟨a, hread, rfl⟩ := hread
  -- as many issues as unique assets: every issue is of a unique asset
  have hissue : nIssues tx.vout =
      tx.vout.countP (fun out => isScriptNewUniqueAsset out.scriptPubKey) := by
    rw [hcount.2, hlen, List.length_nil, Nat.zero_add]
  have himp : ∀ o : CTxOut, isScriptNewUniqueAsset o.scriptPubKey = true →
      (isScriptNewAsset o.scriptPubKey).isSome = true := by
    intro o ho
    obtain ⟨b, hb, _⟩ := unique_of_isScriptNewUniqueAsset ho
    exact isSome_isScriptNewAsset hb
  have hunique := of_countP_eq himp hissue out hout (isSome_isScriptNewAsset hread)
  obtain ⟨b, hb, htype⟩ := unique_of_isScriptNewUniqueAsset hunique
  obtain ⟨c, hc, hparent⟩ := hall out hout hunique
  rw [hread, Option.some.injEq] at hb hc
  subst hb hc
  exact ⟨htype, by rw [hparent]; exact htoken⟩

/-! ## Authority -/

theorem isSome_isScriptNewAssetOf {types : List AssetType} {s : CScript} {a : CNewAsset × StdString}
    {type : AssetType} (hread : assetFromScript s = some a)
    (htype : assetTypeOf a.1.strName = some type) (hmem : type ∈ types) :
    (isScriptNewAssetOf types s).isSome = true := by
  have hnew := hread
  rw [assetFromScript, Option.bind_eq_some_iff] at hnew
  obtain ⟨i, hi, _⟩ := hnew
  unfold isScriptNewAssetOf newAssetType
  rw [CScript.assetDataOf_eq_some.mp hi, hread, Option.bind_some, htype]
  simp [hmem]

/-- What `IsNewAsset` accepts is neither a unique nor a restricted asset. -/
theorem type_ne_of_isNewAsset {tx : CTransaction} {a : CNewAsset × StdString}
    (hnew : tx.isNewAsset = true) (hread : assetFromScript tx.lastScript = some a) :
    assetTypeOf a.1.strName ≠ some .UNIQUE ∧ assetTypeOf a.1.strName ≠ some .RESTRICTED := by
  simp only [CTransaction.isNewAsset, Bool.and_eq_true, Bool.not_eq_true', Bool.or_eq_false_iff] at hnew
  obtain ⟨_, hunique, hrestricted⟩ := hnew
  constructor
  · intro htype
    have hsome : isScriptNewUniqueAsset tx.lastScript = true :=
      isSome_isScriptNewAssetOf hread htype (by simp)
    rw [hsome] at hunique
    cases hunique
  · intro htype
    have hsome : (isScriptNewRestrictedAsset tx.lastScript).isSome = true :=
      isSome_isScriptNewAssetOf hread htype (by simp)
    rw [hsome] at hrestricted
    cases hrestricted

theorem issueKind_eq_newAsset {tx : CTransaction} : tx.issueKind = .newAsset ↔ tx.isNewAsset = true := by
  unfold CTransaction.issueKind
  by_cases hnew : tx.isNewAsset
  · simp [hnew]
  · rw [if_neg hnew]
    constructor
    · intro h
      repeat' split at h
      all_goals cases h
    · intro h
      exact absurd h hnew

theorem mem_issuedAssets {tx : CTransaction} {a : CNewAsset × StdString}
    (hread : assetFromScript tx.lastScript = some a) : a.1 ∈ issuedAssets tx := by
  unfold CTransaction.lastScript at hread
  cases hvout : tx.vout.getLast? with
  | none =>
      rw [hvout] at hread
      have hsome := isSome_isScriptNewAsset hread
      exact absurd hsome (by decide)
  | some last =>
      rw [hvout] at hread
      exact List.mem_filterMap.mpr ⟨last, List.mem_of_getLast? hvout, by
        rw [Option.map_eq_some_iff]
        exact ⟨a, hread, rfl⟩⟩

section

variable {tx : CTransaction} {inputs : CCoinsView}

/-- Authority of a transaction that issues one asset and reissues none. -/
theorem authorised_of_issue {a : CNewAsset × StdString} (hissues : nIssues tx.vout = 1)
    (hreissues : nReissues tx.vout = 0) (hread : assetFromScript tx.lastScript = some a)
    (htoken : ∀ token ∈ issueToken a.1.strName, Spends inputs tx token) : Authorised inputs tx where
  issue asset hasset := by
    rw [issued_eq hissues hread asset hasset]
    exact htoken
  reissue reissue hreissue := by
    rw [reissued_eq_nil hreissues] at hreissue
    cases hreissue

/-- The new asset branch: the owner token of a sub asset is looked for, those of a message channel
and of a sub qualifier are not. -/
theorem authorised_newAsset {params : CAssetParams} (hnew : tx.isNewAsset = true)
    (hverify : tx.verifyNewAsset params = .ok ())
    (hspends : ∀ name, Spends inputs tx name ↔ tx.hasTransferOf name = true) :
    Authorised inputs tx ↔ ChannelTokenMoved tx := by
  obtain ⟨asset, address, hread, hsub, hissues, hreissues⟩ := verifyNewAsset_ok hverify
  constructor
  · intro hauth _ asset' address' hread' _ token htoken
    rw [hread, Option.some.injEq, Prod.mk.injEq] at hread'
    obtain ⟨rfl, rfl⟩ := hread'
    exact (hspends token).mp (hauth.issue asset (mem_issuedAssets hread) token htoken)
  · intro hmoved
    refine authorised_of_issue hissues hreissues hread ?_
    intro token htoken
    rw [hspends]
    obtain ⟨hunique, hrestricted⟩ := type_ne_of_isNewAsset hnew hread
    by_cases hchannel : assetTypeOf asset.strName = some .MSGCHANNEL ∨
        assetTypeOf asset.strName = some .SUB_QUALIFIER
    · exact hmoved hnew asset address hread hchannel token htoken
    · by_cases hty : assetTypeOf asset.strName = some .SUB
      · rw [issueToken, hty, Option.mem_some_iff] at htoken
        rw [← htoken]
        exact hsub hty
      · -- the other types need no token
        rw [not_or] at hchannel
        unfold issueToken at htoken
        split at htoken
        · contradiction
        · contradiction
        · exact absurd (by assumption) hchannel.1
        · contradiction
        · exact absurd (by assumption) hchannel.2
        · cases htoken

theorem authorised_reissue {params : CAssetParams} (hverify : tx.verifyReissueAsset params = .ok ())
    (hspends : ∀ name, Spends inputs tx name ↔ tx.hasTransferOf name = true) :
    Authorised inputs tx := by
  obtain ⟨r, address, hread, htoken, hreissues, hissues⟩ := verifyReissueAsset_ok hverify
  constructor
  · intro asset hasset
    rw [issued_eq_nil hissues] at hasset
    cases hasset
  · intro reissue hreissue
    rw [reissued_eq hreissues hread reissue hreissue, hspends]
    exact htoken

theorem authorised_newUnique {params : CAssetParams} (hverify : tx.verifyNewUniqueAsset params = .ok ())
    (hspends : ∀ name, Spends inputs tx name ↔ tx.hasTransferOf name = true) :
    Authorised inputs tx := by
  obtain ⟨hall, _, hreissues⟩ := verifyNewUniqueAsset_ok hverify
  constructor
  · intro asset hasset token htoken
    obtain ⟨htype, hmoved⟩ := hall asset hasset
    rw [issueToken, htype, Option.mem_some_iff] at htoken
    rw [← htoken, hspends]
    exact hmoved
  · intro reissue hreissue
    rw [reissued_eq_nil hreissues] at hreissue
    cases hreissue

theorem authorised_newMsgChannel {params : CAssetParams}
    (hverify : tx.verifyNewMsgChannelAsset params = .ok ())
    (hspends : ∀ name, Spends inputs tx name ↔ tx.hasTransferOf name = true) :
    Authorised inputs tx := by
  obtain ⟨asset, address, hread, hmoved, hissues, hreissues⟩ := verifyNewMsgChannelAsset_ok hverify
  obtain ⟨hread, type, hmem, htype⟩ := assetFromScript_of_newAssetOf hread
  rw [List.mem_singleton] at hmem
  subst hmem
  refine authorised_of_issue hissues hreissues hread ?_
  intro token htoken
  rw [issueToken, htype, Option.mem_some_iff] at htoken
  rw [← htoken, hspends]
  exact hmoved

theorem authorised_newQualifier {params : CAssetParams}
    (hverify : tx.verifyNewQualfierAsset params = .ok ())
    (hspends : ∀ name, Spends inputs tx name ↔ tx.hasTransferOf name = true) :
    Authorised inputs tx := by
  obtain ⟨asset, address, hread, hmoved, hissues, hreissues⟩ := verifyNewQualfierAsset_ok hverify
  obtain ⟨hread, type, hmem, htype⟩ := assetFromScript_of_newAssetOf hread
  refine authorised_of_issue hissues hreissues hread ?_
  intro token htoken
  rw [List.mem_cons, List.mem_singleton] at hmem
  rcases hmem with rfl | rfl
  · rw [issueToken, htype] at htoken
    cases htoken
  · rw [issueToken, htype, Option.mem_some_iff] at htoken
    rw [← htoken, hspends]
    exact hmoved htype

theorem authorised_newRestricted {params : CAssetParams}
    (hverify : tx.verifyNewRestrictedAsset params = .ok ())
    (hspends : ∀ name, Spends inputs tx name ↔ tx.hasTransferOf name = true) :
    Authorised inputs tx := by
  obtain ⟨asset, address, hread, hmoved, hissues, hreissues⟩ := verifyNewRestrictedAsset_ok hverify
  obtain ⟨hread, type, hmem, htype⟩ := assetFromScript_of_newAssetOf hread
  rw [List.mem_singleton] at hmem
  subst hmem
  refine authorised_of_issue hissues hreissues hread ?_
  intro token htoken
  -- a restricted asset is its own parent
  have hparent : getParentName asset.strName = asset.strName := by
    rw [getParentName, htype]
  rw [issueToken, htype, Option.mem_some_iff] at htoken
  rw [← htoken, hspends, ← hparent]
  exact hmoved

omit [NodeCrypto] in
/-- A transaction without issue has no asset outputs but transfers. -/
theorem countAssetOuts_noIssue {tx : CTransaction} {misplaced : String}
    (hcheck : checkNoIssueTx tx misplaced = .ok ()) {nType : TxnOutType}
    (hne : nType ≠ .TX_TRANSFER_ASSET) (fIsOwner : Bool) :
    countAssetOuts tx.vout nType fIsOwner = 0 := by
  rw [checkNoIssueTx, checkAll_ok] at hcheck
  rw [countAssetOuts, List.countP_eq_zero]
  intro out hout hsome
  rw [Option.isSome_iff_exists] at hsome
  obtain ⟨i, hi⟩ := hsome
  have h := hcheck out hout
  rw [CScript.assetDataOf_eq_some.mp hi] at h
  exact hne (by simpa using h)

theorem authorised_noIssue {misplaced : String} (hcheck : checkNoIssueTx tx misplaced = .ok ()) :
    Authorised inputs tx := by
  constructor
  · intro asset hasset
    rw [issued_eq_nil (countAssetOuts_noIssue hcheck (by decide) false)] at hasset
    cases hasset
  · intro reissue hreissue
    rw [reissued_eq_nil (countAssetOuts_noIssue hcheck (by decide) false)] at hreissue
    cases hreissue

end

/-- **Authority.** A transaction accepted by `CheckTransaction` and `CheckTxAssets` spends the token
of everything it issues and reissues exactly when it does not issue a message channel or sub
qualifier after an owner output without moving the token. -/
theorem authorised_iff (g : Globals) (cache : CAssetsCache) (params : CAssetParams)
    (maps : MempoolMaps) (tx : CTransaction) (inputs : CCoinsView) (nHeight : Int)
    (blockReward : CAmount) (fMempoolCheck fBlockCheck fCheckMempool fRunningUnitTests : Bool)
    (lru : LRUCaches) (vPairReissueAssets : List (StdString × UInt256))
    (htx : checkTransaction params tx nHeight blockReward fMempoolCheck fBlockCheck = .ok ())
    (hassets : (checkTxAssets g cache params maps tx inputs fCheckMempool fRunningUnitTests lru).1 =
      .ok vPairReissueAssets) :
    Authorised inputs tx ↔ ChannelTokenMoved tx := by
  have hrun : checkTxAssets g cache params maps tx inputs fCheckMempool fRunningUnitTests lru =
      (.ok vPairReissueAssets,
        (checkTxAssets g cache params maps tx inputs fCheckMempool fRunningUnitTests lru).2) := by
    rw [← hassets]
  have hspends := spends_iff_hasTransferOf hrun
  obtain ⟨_, flags, _, _, _, _, hissue⟩ := checkTransaction_ok htx
  by_cases hnew : tx.isNewAsset = true
  · rw [checkIssue, issueKind_eq_newAsset.mpr hnew] at hissue
    obtain ⟨_, hcheck, _⟩ := map_ok.mp hissue
    simp only [checkNewAssetTx, bind_ok, mapError_ok] at hcheck
    obtain ⟨_, hverify, _⟩ := hcheck
    exact authorised_newAsset hnew hverify hspends
  · -- every other verification looks for the token
    refine iff_of_true ?_ (fun h => absurd h hnew)
    unfold checkIssue at hissue
    cases hkind : tx.issueKind with
    | newAsset => exact absurd (issueKind_eq_newAsset.mp hkind) hnew
    | reissueAsset =>
        simp only [hkind, checkReissueAssetTx, bind_ok, mapError_ok] at hissue
        obtain ⟨_, hverify, _⟩ := hissue
        exact authorised_reissue hverify hspends
    | newUniqueAsset =>
        simp only [hkind, map_ok, checkNewUniqueAssetTx, bind_ok, mapError_ok] at hissue
        obtain ⟨_, ⟨_, hverify, _⟩, _⟩ := hissue
        exact authorised_newUnique hverify hspends
    | newMsgChannelAsset =>
        simp only [hkind, map_ok, checkNewMsgChannelAssetTx, bind_ok, mapError_ok] at hissue
        obtain ⟨_, ⟨_, hverify, _⟩, _⟩ := hissue
        exact authorised_newMsgChannel hverify hspends
    | newQualifierAsset =>
        simp only [hkind, map_ok, checkNewQualifierAssetTx, bind_ok, mapError_ok] at hissue
        obtain ⟨_, ⟨_, hverify, _⟩, _⟩ := hissue
        exact authorised_newQualifier hverify hspends
    | newRestrictedAsset =>
        simp only [hkind, checkNewRestrictedAssetTx, bind_ok, mapError_ok] at hissue
        obtain ⟨_, hverify, _⟩ := hissue
        exact authorised_newRestricted hverify hspends
    | none =>
        simp only [hkind, map_ok] at hissue
        obtain ⟨_, hcheck, _⟩ := hissue
        exact authorised_noIssue hcheck

end

/-! ## Two message channels -/

section

attribute [local instance] mainnetCrypto

/-- The script that pays to the key of twenty zero bytes. -/
def payScript : CScript := getScriptForDestination (.keyID (List.replicate 20 0))

/-- The burn output for a message channel. -/
def channelBurnOut : CTxOut where
  nValue := 100 * COIN
  scriptPubKey := getScriptForDestination (NodeCrypto.decodeDestination
    mainAssetParams.strIssueMsgChannelAssetBurnAddress)

/-- The message channel `COIN~NEWS`. -/
def newsChannel : CNewAsset where
  strName := bytes "COIN~NEWS"
  nAmount := UNIQUE_ASSET_AMOUNT
  units := 0

/-- A coin without assets, and the owner token of `COIN`. -/
def ownerCoins : CCoinsView :=
  ((∅ : CCoinsView).insert ⟨3, 0⟩ ⟨⟨200 * COIN, payScript⟩, 1, false⟩).insert ⟨3, 1⟩
    ⟨transferOut (bytes "COIN!") OWNER_ASSET_AMOUNT, 1, false⟩

/-- The owner of `COIN` issues the channel. -/
def channelTx : CTransaction where
  hash := 4
  vin := [{ prevout := ⟨3, 0⟩ }, { prevout := ⟨3, 1⟩ }]
  vout := [channelBurnOut, transferOut (bytes "COIN!") OWNER_ASSET_AMOUNT,
    ⟨0, newsChannel.constructTransaction payScript⟩]

/-- Someone else issues the channel, with an owner output in front of the issue. -/
def hijackTx : CTransaction where
  hash := 5
  vin := [{ prevout := ⟨3, 0⟩ }]
  vout := [channelBurnOut, ⟨0, newsChannel.constructOwnerTransaction payScript⟩,
    ⟨0, newsChannel.constructTransaction payScript⟩]

theorem authorised_iff_channelTx :
    Authorised ownerCoins channelTx ↔ ChannelTokenMoved channelTx :=
  authorised_iff coinGlobals {} mainAssetParams {} channelTx ownerCoins 100 0 false false false false
    {} [] (by decide +kernel) (by decide +kernel)

/-- **A channel without its owner**: the transaction passes all checks, issues `COIN~NEWS` and spends
no asset. -/
theorem hijackTx_not_authorised :
    checkTransaction mainAssetParams hijackTx 100 0 = .ok () ∧
      (checkTxAssets coinGlobals {} mainAssetParams {} hijackTx ownerCoins false false {}).1 =
        .ok [] ∧
      issuedAssets hijackTx = [newsChannel] ∧ ¬ Authorised ownerCoins hijackTx := by
  have hissued : issuedAssets hijackTx = [newsChannel] := by decide +kernel
  refine ⟨?_, ?_, hissued, ?_⟩
  · decide +kernel
  · decide +kernel
  · intro hauth
    have htoken : bytes "COIN!" ∈ issueToken newsChannel.strName := by decide +kernel
    have hspends := hauth.issue newsChannel (by rw [hissued]; exact List.mem_singleton_self _) _ htoken
    rw [spends_iff] at hspends
    exact absurd hspends (by decide +kernel)

end

end RavenCash
