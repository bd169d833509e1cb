import RavenCash.Coins.Update

/-!
# The readers of asset scripts

Five functions read the asset in a script, each with its own code: `GetAssetData` and
`GetAssetInfoFromScript` on top of it, `ParseAssetScript`, `TrySpendCoin`, `UndoAssetCoin` and
`GetAssetAmountFromScript`. They find the same payload and decode it with the same records
(`decodedAsset`), and differ in what they do with the result: `TrySpendCoin` refuses an empty name,
`UndoAssetCoin` also an amount of zero, and `GetAssetAmountFromScript` does not decode the name of an
owner token at all. On every other script they agree.
-/

set_option autoImplicit false

namespace RavenCash

/-- Name and amount in the payload of an asset script. -/
def decodedAsset (s : CScript) : Option (StdString × CAmount) :=
  match s.assetScript with
  | some ⟨.TX_NEW_ASSET, false, i⟩ =>
      (unserialize readNewAsset (s.drop i)).map (fun asset => (asset.strName, asset.nAmount))
  | some ⟨.TX_TRANSFER_ASSET, false, i⟩ =>
      (unserialize readAssetTransfer (s.drop i)).map (fun transfer => (transfer.strName, transfer.nAmount))
  | some ⟨.TX_NEW_ASSET, true, i⟩ =>
      (unserialize readString (s.drop i)).map (fun assetName => (assetName, OWNER_ASSET_AMOUNT))
  | some ⟨.TX_REISSUE_ASSET, false, i⟩ =>
      (unserialize readReissueAsset (s.drop i)).map (fun reissue => (reissue.strName, reissue.nAmount))
  | _ => none

section

variable [NodeCrypto]

/-! ## The readers -/

def getAssetInfoFromScript (scriptPubKey : CScript) : Option (StdString × CAmount) :=
  (getAssetData scriptPubKey).map (fun data => (data.assetName, data.nAmount))

/-- `ParseAssetScript`: the hash of the destination, the name and the amount. -/
def parseAssetScript (scriptPubKey : CScript) : Option (List UInt8 × StdString × CAmount) :=
  let asset : Option (StdString × CAmount) :=
    match scriptPubKey.assetScript with
    | some ⟨.TX_NEW_ASSET, true, _⟩ =>
        (ownerAssetFromScript scriptPubKey).map (fun (assetName, _) => (assetName, OWNER_ASSET_AMOUNT))
    | some ⟨.TX_NEW_ASSET, false, _⟩ =>
        (assetFromScript scriptPubKey).map (fun (asset, _) => (asset.strName, asset.nAmount))
    | some ⟨.TX_REISSUE_ASSET, _, _⟩ =>
        (reissueAssetFromScript scriptPubKey).map (fun (asset, _) => (asset.strName, asset.nAmount))
    | some ⟨.TX_TRANSFER_ASSET, _, _⟩ =>
        (transferAssetFromScript scriptPubKey).map (fun (asset, _) => (asset.strName, asset.nAmount))
    | some _ => none
    | none => none
  asset.map (fun (assetName, assetAmount) => (scriptPubKey.slice 3 23, assetName, assetAmount))

/-- The name, the address and the amount that `TrySpendCoin` goes on with. -/
def spentCoinAsset (s : CScript) : Option (StdString × StdString × CAmount) :=
  (scriptAsset s).bind (fun (assetName, address, nAmount) =>
    if address = [] ∨ assetName = [] then none else some (assetName, address, nAmount))

/-- The name, the address and the amount that `UndoAssetCoin` goes on with. -/
def undoneAsset (s : CScript) : Option (StdString × StdString × CAmount) :=
  (scriptAsset s).bind (fun (assetName, strAddress, nAmount) =>
    if assetName = [] ∨ strAddress = [] ∨ nAmount = 0 then none
    else some (assetName, strAddress, nAmount))

theorem trySpendCoin_eq_spent (g : Globals) (cache : CAssetsCache) (txOut : CTxOut) :
    trySpendCoin g cache txOut =
      match spentCoinAsset txOut.scriptPubKey with
      | none => (!txOut.scriptPubKey.isAssetScript, cache)
      | some (assetName, address, nAmount) =>
          (true, if g.fAssetIndex && decide (0 < nAmount) then cache.spendAmount g assetName address nAmount
            else cache) := by
  unfold trySpendCoin spentCoinAsset
  cases hasset : txOut.scriptPubKey.isAssetScript with
  | false =>
      have hnone : scriptAsset txOut.scriptPubKey = none := by
        rw [CScript.isAssetScript, Option.isSome_eq_false_iff, Option.isNone_iff_eq_none] at hasset
        rw [scriptAsset, hasset]
      rw [hnone]
      rfl
  | true =>
      rcases scriptAsset txOut.scriptPubKey with _ | ⟨assetName, address, nAmount⟩
      · rfl
      · by_cases hempty : address = [] ∨ assetName = []
        · simp [hempty]
        · simp only [Option.bind_some, if_neg hempty, Bool.not_true, Bool.false_eq_true, if_false]
          split <;> rfl

theorem undoAssetCoin_eq (g : Globals) (cache : CAssetsCache) (coin : Coin) :
    undoAssetCoin g cache coin =
      match undoneAsset coin.out.scriptPubKey with
      | none => (false, cache)
      | some (assetName, strAddress, nAmount) =>
          (true, addBackSpentAsset g cache assetName strAddress nAmount) := by
  unfold undoAssetCoin undoneAsset
  rcases scriptAsset coin.out.scriptPubKey with _ | ⟨assetName, strAddress, nAmount⟩
  · rfl
  · by_cases hempty : assetName = [] ∨ strAddress = [] ∨ nAmount = 0
    · simp [hempty]
    · simp [hempty]

/-! ## What they decode -/

theorem scriptAsset_eq (s : CScript) :
    scriptAsset s = (decodedAsset s).map (fun (assetName, nAmount) => (assetName, scriptAddress s, nAmount)) := by
  unfold scriptAsset decodedAsset
  rcases hs : s.assetScript with _ | ⟨type, owner, i⟩
  · rfl
  · cases type <;> cases owner <;>
      simp [assetFromScript, ownerAssetFromScript, reissueAssetFromScript, transferAssetFromScript,
        isScriptNewAsset, isScriptOwnerAsset, isScriptReissueAsset, isScriptTransferAsset,
        CScript.assetDataOf, hs, recordFromScript, Option.map_map, Function.comp_def]

theorem getAssetData_eq (s : CScript) :
    (getAssetData s).map (fun data => (data.assetName, data.nAmount, data.destination)) =
      (scriptAsset s).map (fun (assetName, address, nAmount) =>
        (assetName, nAmount, NodeCrypto.decodeDestination address)) := by
  unfold getAssetData scriptAsset
  rcases s.assetScript with _ | ⟨type, owner, i⟩
  · rfl
  · cases type <;> cases owner <;> simp [Option.map_map, Function.comp_def]

theorem parseAssetScript_eq (s : CScript) : parseAssetScript s =
    (scriptAsset s).map (fun (assetName, _, nAmount) => (s.slice 3 23, assetName, nAmount)) := by
  unfold parseAssetScript scriptAsset
  rcases s.assetScript with _ | ⟨type, owner, i⟩
  · rfl
  · cases type <;> cases owner <;> simp [Option.map_map, Function.comp_def]

theorem getAssetInfoFromScript_eq (s : CScript) : getAssetInfoFromScript s = decodedAsset s := by
  have hdata := congrArg (Option.map (fun d : StdString × CAmount × CTxDestination => (d.1, d.2.1)))
    (getAssetData_eq s)
  rw [scriptAsset_eq, Option.map_map, Option.map_map, Option.map_map] at hdata
  exact hdata.trans Option.map_id_apply

end

/-- The amount of an owner token is reported without its name. -/
theorem getAssetAmountFromScript_eq (s : CScript) : getAssetAmountFromScript s =
    if (isScriptOwnerAsset s).isSome then some OWNER_ASSET_AMOUNT else (decodedAsset s).map Prod.snd := by
  unfold getAssetAmountFromScript decodedAsset isScriptOwnerAsset CScript.assetDataOf
  rcases hs : s.assetScript with _ | ⟨type, owner, i⟩
  · rfl
  · cases type <;> cases owner <;>
      simp [amountFromNewAssetScript, amountFromTransferScript, amountFromReissueScript, isScriptNewAsset,
        isScriptReissueAsset, isScriptTransferAsset, CScript.assetDataOf, hs, Option.map_map,
        Function.comp_def]

theorem snd_of_owner {s : CScript} {data : StdString × CAmount} (h : decodedAsset s = some data)
    (howner : (isScriptOwnerAsset s).isSome = true) : data.2 = OWNER_ASSET_AMOUNT := by
  obtain ⟨i, hi⟩ := Option.isSome_iff_exists.mp howner
  rw [decodedAsset, CScript.assetDataOf_eq_some.mp hi] at h
  obtain ⟨assetName, -, rfl⟩ := Option.map_eq_some_iff.mp h
  rfl

theorem assetScript_of_decodedAsset {s : CScript} {data : StdString × CAmount}
    (h : decodedAsset s = some data) : ∃ a, s.assetScript = some a := by
  rw [← Option.ne_none_iff_exists']
  intro hnone
  rw [decodedAsset, hnone] at h
  cases h

/-! ## Where they agree -/

section

variable [NodeCrypto]

/-- All readers report this asset, or none reports one. -/
structure ReadersReport (s : CScript) (asset : Option (StdString × CAmount × List UInt8)) : Prop where
  getAssetData : (getAssetData s).map (fun data => (data.assetName, data.nAmount, data.destination)) =
    asset.map (fun (assetName, nAmount, hash) => (assetName, nAmount, .keyID hash))
  getAssetInfo : getAssetInfoFromScript s = asset.map (fun (assetName, nAmount, _) => (assetName, nAmount))
  parseAssetScript : parseAssetScript s =
    asset.map (fun (assetName, nAmount, hash) => (hash, assetName, nAmount))
  trySpendCoin : ∀ g cache txOut, txOut.scriptPubKey = s → trySpendCoin g cache txOut =
    match asset with
    | none => (!s.isAssetScript, cache)
    | some (assetName, nAmount, hash) =>
        (true, if g.fAssetIndex && decide (0 < nAmount) then
          cache.spendAmount g assetName (NodeCrypto.encodeDestination (.keyID hash)) nAmount else cache)
  undoAssetCoin : ∀ g cache coin, coin.out.scriptPubKey = s → undoAssetCoin g cache coin =
    match asset with
    | none => (false, cache)
    | some (assetName, nAmount, hash) =>
        (true, addBackSpentAsset g cache assetName (NodeCrypto.encodeDestination (.keyID hash)) nAmount)
  getAssetAmount : getAssetAmountFromScript s = asset.map (fun (_, nAmount, _) => nAmount)

/-- The readers on a script that does not decode. -/
theorem readersReport_none {s : CScript} (h : decodedAsset s = none) :
    ReadersReport s none ↔ isScriptOwnerAsset s = none := by
  have hasset : scriptAsset s = none := by rw [scriptAsset_eq, h]; rfl
  have hdata : getAssetData s = none := by
    have heq := getAssetData_eq s
    rw [hasset] at heq
    exact Option.map_eq_none_iff.mp heq
  have hamount := getAssetAmountFromScript_eq s
  rw [h] at hamount
  constructor
  · intro hreport
    rw [hreport.getAssetAmount] at hamount
    cases howner : isScriptOwnerAsset s with
    | none => rfl
    | some i => simp [howner] at hamount
  · intro howner
    refine ⟨by rw [hdata]; rfl, by rw [getAssetInfoFromScript, hdata]; rfl, ?_, ?_, ?_, ?_⟩
    · rw [parseAssetScript_eq, hasset]; rfl
    · rintro g cache txOut rfl
      rw [trySpendCoin_eq_spent, spentCoinAsset, hasset]
      rfl
    · rintro g cache coin rfl
      rw [undoAssetCoin_eq, undoneAsset, hasset]
      rfl
    · simpa [howner] using hamount

/-- The readers on a script that decodes. -/
theorem readersReport_some {s : CScript} {assetName : StdString} {nAmount : CAmount}
    (h : decodedAsset s = some (assetName, nAmount)) :
    ReadersReport s (some (assetName, nAmount, s.slice 3 23)) ↔ assetName ≠ [] ∧ nAmount ≠ 0 := by
  obtain ⟨a, ha⟩ := assetScript_of_decodedAsset h
  have haddress : scriptAddress s = NodeCrypto.encodeDestination (.keyID (s.slice 3 23)) := by
    rw [scriptAddress, extractDestination_assetScript ha]
  have hne : NodeCrypto.encodeDestination (.keyID (s.slice 3 23)) ≠ [] := by
    rw [Ne, NodeCrypto.encode_eq_nil]
    exact CTxDestination.noConfusion
  have hasset : scriptAsset s =
      some (assetName, NodeCrypto.encodeDestination (.keyID (s.slice 3 23)), nAmount) := by
    rw [scriptAsset_eq, h, haddress]
    rfl
  have hdecode : NodeCrypto.decodeDestination (NodeCrypto.encodeDestination (.keyID (s.slice 3 23))) =
      .keyID (s.slice 3 23) :=
    NodeCrypto.decode_encode _ (by simp [CTxDestination.sized, length_slice_of_assetScript ha])
  have hdata : (getAssetData s).map (fun data => (data.assetName, data.nAmount, data.destination)) =
      some (assetName, nAmount, .keyID (s.slice 3 23)) := by
    rw [getAssetData_eq, hasset]
    exact congrArg (fun dest => some (assetName, nAmount, dest)) hdecode
  constructor
  · intro hreport
    have hundone := hreport.undoAssetCoin {} {} ⟨⟨0, s⟩, 1, false⟩ rfl
    rw [undoAssetCoin_eq, undoneAsset, hasset] at hundone
    by_contra hempty
    have hrefused : assetName = [] ∨
        NodeCrypto.encodeDestination (.keyID (s.slice 3 23)) = [] ∨ nAmount = 0 := by tauto
    simp [hrefused] at hundone
  · rintro ⟨hname, hamount⟩
    refine ⟨hdata, ?_, ?_, ?_, ?_, ?_⟩
    · rw [getAssetInfoFromScript_eq, h]
      rfl
    · rw [parseAssetScript_eq, hasset]
      rfl
    · rintro g cache txOut rfl
      simp [trySpendCoin_eq_spent, spentCoinAsset, hasset, hne, hname]
    · rintro g cache coin rfl
      simp [undoAssetCoin_eq, undoneAsset, hasset, hne, hname, hamount]
    · rw [getAssetAmountFromScript_eq, h]
      split
      · next howner => simp [← snd_of_owner h howner]
      · rfl

/-- **The readers agree on a script** exactly when it decodes to a name and an amount that is not zero, or
does not decode and is no owner token. -/
theorem readersAgree_iff (s : CScript) : (∃ asset, ReadersReport s asset) ↔
    match decodedAsset s with
    | none => isScriptOwnerAsset s = none
    | some (assetName, nAmount) => assetName ≠ [] ∧ nAmount ≠ 0 := by
  cases hdecoded : decodedAsset s with
  | none =>
      refine Iff.trans ⟨?_, fun h => ⟨none, h⟩⟩ (readersReport_none hdecoded)
      rintro ⟨_ | asset, hreport⟩
      · exact hreport
      · have hinfo := hreport.getAssetInfo
        rw [getAssetInfoFromScript_eq, hdecoded] at hinfo
        cases hinfo
  | some data =>
      refine Iff.trans ⟨?_, fun h => ⟨_, h⟩⟩ (readersReport_some hdecoded)
      rintro ⟨_ | ⟨assetName, nAmount, hash⟩, hreport⟩
      · have hinfo := hreport.getAssetInfo
        rw [getAssetInfoFromScript_eq, hdecoded] at hinfo
        cases hinfo
      · have hparse := hreport.parseAssetScript
        rw [parseAssetScript_eq, scriptAsset_eq, hdecoded] at hparse
        obtain ⟨rfl, hasset⟩ := Prod.mk.inj (Option.some.inj hparse)
        cases hasset
        exact hreport

end

/-! ## An owner token without its name -/

section

attribute [local instance] mainnetCrypto

/-- An owner token script whose payload is cut off in the name. -/
def cutOwnerScript : CScript :=
  constructAssetScript RVH_O [10, 67, 79] (getScriptForDestination (.keyID (List.replicate 20 7)))

theorem not_readersAgree_cutOwnerScript : ¬ ∃ asset, ReadersReport cutOwnerScript asset := by
  rintro ⟨asset, hreport⟩
  have hamount : getAssetAmountFromScript cutOwnerScript = some OWNER_ASSET_AMOUNT := by decide +kernel
  have hinfo : getAssetInfoFromScript cutOwnerScript = none := by decide +kernel
  rw [hreport.getAssetInfo, Option.map_eq_none_iff] at hinfo
  rw [hreport.getAssetAmount, hinfo] at hamount
  cases hamount

end

end RavenCash
