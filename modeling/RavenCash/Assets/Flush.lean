import RavenCash.Assets.CacheRun
import RavenCash.Basic.MainnetCodec

/-!
# Flushing a view

`AnswersAgree` compares all asset queries through two views. A view built over `passets` and then
changed by a run of operations should answer as `passets` does after the view is flushed; this
holds for the runs whose steps are `CacheOp.flushSafe` (`flush_transparent`), because such a run
keeps `FlushSettled`. The three kinds of steps it leaves out are

* an addition for a key that `passets` lists as removed: lookups ask the removals of `passets`
  before the additions of the view, while `Flush` erases those removals;
* an issuance of a name that `passets` lists as added: `Flush` keeps the older element;
* a step that marks a sub qualifier as absent: `Flush` merges `mapRootQualifierAddressesRemove` into
  `mapRootQualifierAddressesAdd`.
-/

set_option autoImplicit false

namespace RavenCash

/-! ## Queries through two views -/

/-- **Every asset query has one answer** through `v` over `g` and through `v'` over `g'`. -/
structure AnswersAgree [NodeCrypto] (g : Globals) (v : View) (g' : Globals) (v' : View) : Prop where
  assetExists : ∀ name, (checkIfAssetExists g v name).1 = (checkIfAssetExists g' v' name).1
  metaData : ∀ name,
    (getAssetMetaDataIfExists g v name).1 = (getAssetMetaDataIfExists g' v' name).1
  verifier : ∀ name,
    (getAssetVerifierStringIfExists g v name).1 = (getAssetVerifierStringIfExists g' v' name).1
  qualifier : ∀ name address,
    (checkForAddressQualifier g v name address).1 = (checkForAddressQualifier g' v' name address).1
  restriction : ∀ name address, (checkForAddressRestriction g v name address).1 =
    (checkForAddressRestriction g' v' name address).1
  globalRestriction : ∀ name,
    (checkForGlobalRestriction g v name).1 = (checkForGlobalRestriction g' v' name).1
  amount : ∀ name address,
    assetAddressAmount g v.cache name address = assetAddressAmount g' v'.cache name address

/-- What a lookup in the pending assets comes to: `some none` for a removal. -/
def pendingAsset (g : Globals) (v : View) (name : StdString) :
    Option (Option CAssetCacheNewAsset) :=
  (Pending.layered false v.cache.setNewAssets g.passets.setNewAssets name).map Pending.Hit.added?

/-- Existence of an asset that no dirty set mentions. -/
def assetExistsBelow (g : Globals) (lru : LRUCaches) (name : StdString) : Bool × LRUCaches :=
  if lru.passetsCache.contains name then (true, lru)
  else
    match g.passetsdb.assetData.find? name with
    | some data =>
        (true, { lru with passetsCache := lru.passetsCache.put data.asset.strName data })
    | none => (false, lru)

theorem checkIfAssetExists_eq (g : Globals) (v : View) (name : StdString) :
    checkIfAssetExists g v name =
      if g.fReindex then (true, v.lru)
      else
        match pendingAsset g v name with
        | some none => (false, v.lru)
        | some (some _) => (true, v.lru)
        | none => assetExistsBelow g v.lru name := by
  unfold checkIfAssetExists pendingAsset Pending.layered StdSet.contains
  by_cases hre : g.fReindex = true
  · simp [hre]
  · cases v.cache.setNewAssets.toRemove.find? name with
    | some a => simp [hre, Pending.Hit.added?]
    | none =>
        cases g.passets.setNewAssets.toRemove.find? name with
        | some a => simp [hre, Pending.Hit.added?]
        | none =>
            cases v.cache.setNewAssets.toAdd.find? name with
            | some a => simp [hre, Pending.Hit.added?]
            | none =>
                cases g.passets.setNewAssets.toAdd.find? name with
                | some a => simp [hre, Pending.Hit.added?]
                | none => simp [hre]; rfl

theorem getAssetMetaDataIfExists_eq (g : Globals) (v : View) (name : StdString) :
    (getAssetMetaDataIfExists g v name) =
      match (v.cache.mapReissuedAssetData.lookup name).or
        (g.passets.mapReissuedAssetData.lookup name) with
      | some asset => (some (asset, none), v.lru)
      | none =>
          match pendingAsset g v name with
          | some none => (none, v.lru)
          | some (some a) => (some (a.asset, some (a.blockHeight, a.blockHash)), v.lru)
          | none =>
              match v.lru.passetsCache.get? name with
              | some (data, passetsCache) =>
                  (some (data.asset, some (data.nHeight, data.blockHash)),
                    { v.lru with passetsCache := passetsCache })
              | none =>
                  match g.passetsdb.assetData.find? name with
                  | some data =>
                      (some (data.asset, some (data.nHeight, data.blockHash)),
                        { v.lru with
                          passetsCache := v.lru.passetsCache.put data.asset.strName data })
                  | none => (none, v.lru) := by
  unfold getAssetMetaDataIfExists pendingAsset
  cases v.cache.mapReissuedAssetData.lookup name with
  | some asset => rfl
  | none =>
      cases g.passets.mapReissuedAssetData.lookup name with
      | some asset => rfl
      | none =>
          rcases Pending.layered false v.cache.setNewAssets g.passets.setNewAssets name with
            _ | ⟨a⟩ | ⟨a⟩ <;> rfl

/-- A balance comes from the view, from `passets` or from the database. -/
theorem assetAddressAmount_eq (g : Globals) (c : CAssetsCache) (name address : StdString) :
    assetAddressAmount g c name address =
      if g.fAssetIndex then
        ((c.mapAssetsAddressAmount.lookup (name, address)).or
          (g.passets.mapAssetsAddressAmount.lookup (name, address))).or
          (g.passetsdb.assetAddressQuantity.lookup (name, address))
      else none := by
  unfold assetAddressAmount getBestAssetAddressAmount
  by_cases hidx : g.fAssetIndex = true
  · cases hc : c.mapAssetsAddressAmount.lookup (name, address) <;>
      cases g.passets.mapAssetsAddressAmount.lookup (name, address) <;>
        cases g.passetsdb.assetAddressQuantity.lookup (name, address) <;> simp [hidx, hc]
  · simp [hidx]

/-! ## Root qualifiers -/

/-- The sub qualifiers a root qualifier map holds at a key. -/
def namesAt (m : StdMap CAssetCacheRootQualifierChecker NameSet)
    (key : CAssetCacheRootQualifierChecker) : NameSet :=
  (m.lookup key).getD ∅

theorem toList_isEmpty_iff (s : NameSet) :
    s.toList.isEmpty = false ↔ ∃ name, s.contains name = true := by
  rcases s with ⟨⟨entries, hnodup⟩, hkey⟩
  cases entries with
  | nil =>
      simp [StdSet.toList, StdSet.contains, StdSet.find?, AList.lookup]
  | cons e l =>
      refine ⟨fun _ => ⟨e.1, ?_⟩, fun _ => rfl⟩
      rcases e with ⟨k, a⟩
      simp [StdSet.contains, StdSet.find?, AList.lookup, List.dlookup_cons_eq]

theorem hasRootQualifier_iff (m : StdMap CAssetCacheRootQualifierChecker NameSet)
    (key : CAssetCacheRootQualifierChecker) :
    hasRootQualifier m key = true ↔ ∃ name, (namesAt m key).contains name = true := by
  unfold hasRootQualifier namesAt
  cases m.lookup key with
  | none => simp
  | some names =>
      rw [Option.getD_some, ← toList_isEmpty_iff, Bool.not_eq_true']

theorem namesAt_insertRootQualifier (m : StdMap CAssetCacheRootQualifierChecker NameSet)
    (k key : CAssetCacheRootQualifierChecker) (a name : StdString) :
    (namesAt (insertRootQualifier m k a) key).contains name =
      ((decide (key = k) && decide (name = a)) || (namesAt m key).contains name) := by
  unfold namesAt insertRootQualifier
  rw [StdMap.lookup_assign]
  by_cases hk : key = k
  · subst hk
    simp
  · simp [hk]

theorem namesAt_eraseRootQualifier {m : StdMap CAssetCacheRootQualifierChecker NameSet}
    {k key : CAssetCacheRootQualifierChecker} {a name : StdString}
    (h : (namesAt m key).contains name = false) :
    (namesAt (eraseRootQualifier m k a) key).contains name = false := by
  unfold namesAt eraseRootQualifier at *
  rw [StdMap.lookup_assign]
  by_cases hk : key = k
  · subst hk
    simp [h]
  · rw [if_neg hk]
    exact h

/-- A merged root qualifier map holds the names of both. -/
theorem namesAt_mergeRootQualifiers (dst src : StdMap CAssetCacheRootQualifierChecker NameSet)
    (key : CAssetCacheRootQualifierChecker) (name : StdString) :
    (namesAt (mergeRootQualifiers dst src) key).contains name =
      ((namesAt src key).contains name || (namesAt dst key).contains name) := by
  -- one iteration of the outer loop, by the inner loop over the names
  have hinner : ∀ (names : NameSet) (k : CAssetCacheRootQualifierChecker) m,
      (namesAt (names.foldl (fun m a => insertRootQualifier m k a) m) key).contains name =
        ((decide (key = k) && names.contains name) || (namesAt m key).contains name) := by
    intro names k m
    rw [StdSet.foldl_observe names (fun m a => insertRootQualifier m k a)
      (fun m => (namesAt m key).contains name) (fun _ b => decide (key = k) || b) name]
    · unfold StdSet.contains
      cases names.find? name <;> simp
    · intro m a ha
      rw [namesAt_insertRootQualifier]
      simp [show ¬ name = a from fun h => ha h.symm]
    · intro m a ha
      rw [namesAt_insertRootQualifier]
      simp [show name = a from ha.symm]
  unfold mergeRootQualifiers
  rw [StdMap.foldl_observe src _ (fun m => (namesAt m key).contains name)
    (fun names b => names.contains name || b) key]
  · unfold namesAt
    cases src.lookup key <;> simp
  · intro m k names _ hk
    rw [hinner]
    simp [Ne.symm hk]
  · intro m names _
    rw [hinner]
    simp

theorem hasRootQualifier_merge (dst src : StdMap CAssetCacheRootQualifierChecker NameSet)
    (key : CAssetCacheRootQualifierChecker) :
    hasRootQualifier (mergeRootQualifiers dst src) key =
      (hasRootQualifier src key || hasRootQualifier dst key) := by
  rw [Bool.eq_iff_iff, Bool.or_eq_true, hasRootQualifier_iff, hasRootQualifier_iff,
    hasRootQualifier_iff]
  simp only [namesAt_mergeRootQualifiers, Bool.or_eq_true]
  exact exists_or

/-! ## Settled views -/

/-- **What a run of safe steps keeps**: no addition of the view is hidden by a removal in `passets`,
no issuance meets another one there, and no sub qualifier is marked as absent. -/
structure FlushSettled (g : Globals) (c : CAssetsCache) : Prop where
  assets : Pending.Unhidden c.setNewAssets g.passets.setNewAssets
  assetsOnce : Pending.Unclashing c.setNewAssets g.passets.setNewAssets
  verifier : Pending.Unhidden c.setNewRestrictedVerifier g.passets.setNewRestrictedVerifier
  qualifier : Pending.Unhidden c.setNewQualifierAddress g.passets.setNewQualifierAddress
  restricted : Pending.Unhidden c.setNewRestrictedAddress g.passets.setNewRestrictedAddress
  globalRestricted : Pending.Unhidden c.setNewRestrictedGlobal g.passets.setNewRestrictedGlobal
  rootRemove : ∀ key name, (namesAt c.mapRootQualifierAddressesRemove key).contains name = false

/-- **Steps that flush faithfully.** -/
def CacheOp.flushSafe (g : Globals) : CacheOp → Bool
  | .addNewAsset asset _ _ _ =>
      !g.passets.setNewAssets.toRemove.contains asset.strName &&
        !g.passets.setNewAssets.toAdd.contains asset.strName
  | .addRestrictedVerifier name _ =>
      !g.passets.setNewRestrictedVerifier.toRemove.contains name
  | .addQualifierAddress name address type =>
      !g.passets.setNewQualifierAddress.toRemove.contains (name, address) &&
        !(isAssetNameASubQualifier name && type == .REMOVE_QUALIFIER)
  | .removeQualifierAddress name _ type =>
      !(isAssetNameASubQualifier name && type == .ADD_QUALIFIER)
  | .addRestrictedAddress name address _ =>
      !g.passets.setNewRestrictedAddress.toRemove.contains (name, address)
  | .addGlobalRestricted name _ => !g.passets.setNewRestrictedGlobal.toRemove.contains name
  | _ => true

/-- A view as the node makes one: default constructed, or copied from `passets`. -/
def BuiltOver (g : Globals) (c : CAssetsCache) : Prop := c = {} ∨ c = g.passets

theorem flushSettled_of_builtOver {g : Globals} {c : CAssetsCache} (h : BuiltOver g c)
    (hroot : ∀ key name, (namesAt c.mapRootQualifierAddressesRemove key).contains name = false) :
    FlushSettled g c := by
  rcases h with rfl | rfl
  · exact ⟨Pending.unhidden_empty _, Pending.unclashing_empty _, Pending.unhidden_empty _,
      Pending.unhidden_empty _, Pending.unhidden_empty _, Pending.unhidden_empty _, hroot⟩
  · exact ⟨Pending.unhidden_self _, Pending.unclashing_self _, Pending.unhidden_self _,
      Pending.unhidden_self _, Pending.unhidden_self _, Pending.unhidden_self _, hroot⟩

section Step

variable {g : Globals} {c c' : CAssetsCache} {op : CacheOp} {found : StdString → Bool}

theorem FlushSettled.assets_step (h : FlushSettled g c) (hstep : CacheStep found op c c')
    (hop : op.flushSafe g = true) :
    Pending.Unhidden c'.setNewAssets g.passets.setNewAssets ∧
      Pending.Unclashing c'.setNewAssets g.passets.setNewAssets := by
  rcases hstep.assets with heq | ⟨asset, address, nHeight, blockHash, rfl, _, heq⟩ |
    ⟨asset, address, rfl, _, heq⟩ <;> rw [heq]
  · exact ⟨h.assets, h.assetsOnce⟩
  · simp only [CacheOp.flushSafe, Bool.and_eq_true, Bool.not_eq_true',
      StdSet.contains_eq_false] at hop
    exact ⟨h.assets.add hop.1, h.assetsOnce.add hop.2⟩
  · exact ⟨h.assets.remove, h.assetsOnce.remove⟩

theorem FlushSettled.rootRemove_step (h : FlushSettled g c) (hstep : CacheStep found op c c')
    (hop : op.flushSafe g = true) :
    ∀ key name, (namesAt c'.mapRootQualifierAddressesRemove key).contains name = false := by
  intro key name
  rcases hstep.rootRemove with heq | ⟨n, address, rfl | rfl, hsub⟩ | ⟨k, n, heq⟩
  · rw [heq]
    exact h.rootRemove key name
  · simp [CacheOp.flushSafe, hsub] at hop
  · simp [CacheOp.flushSafe, hsub] at hop
  · rw [heq]
    exact namesAt_eraseRootQualifier (h.rootRemove key name)

theorem FlushSettled.step (h : FlushSettled g c) (hstep : CacheStep found op c c')
    (hop : op.flushSafe g = true) : FlushSettled g c' := by
  refine ⟨(h.assets_step hstep hop).1, (h.assets_step hstep hop).2, ?_, ?_, ?_, ?_,
    h.rootRemove_step hstep hop⟩
  · rcases hstep.verifier with heq | ⟨name, s, rfl, heq⟩ | ⟨x, heq⟩ <;> rw [heq]
    · exact h.verifier
    · simp only [CacheOp.flushSafe, Bool.not_eq_true', StdSet.contains_eq_false] at hop
      exact h.verifier.add hop
    · exact h.verifier.remove
  · rcases hstep.qualifier with heq | ⟨name, address, type, rfl, heq⟩ | ⟨x, heq⟩ <;> rw [heq]
    · exact h.qualifier
    · simp only [CacheOp.flushSafe, Bool.and_eq_true, Bool.not_eq_true',
        StdSet.contains_eq_false] at hop
      exact h.qualifier.addOver hop.1
    · exact h.qualifier.removeOver
  · rcases hstep.restricted with heq | ⟨name, address, type, rfl, heq⟩ | ⟨x, heq⟩ <;> rw [heq]
    · exact h.restricted
    · simp only [CacheOp.flushSafe, Bool.not_eq_true', StdSet.contains_eq_false] at hop
      exact h.restricted.addOver hop
    · exact h.restricted.removeOver
  · rcases hstep.globalRestricted with heq | ⟨name, type, rfl, heq⟩ | ⟨x, heq⟩ <;> rw [heq]
    · exact h.globalRestricted
    · simp only [CacheOp.flushSafe, Bool.not_eq_true', StdSet.contains_eq_false] at hop
      exact h.globalRestricted.addOver hop
    · exact h.globalRestricted.removeOver

end Step

theorem flushSettled_runOps {g : Globals} {v : View} (h : FlushSettled g v.cache)
    (ops : List CacheOp) (hops : ∀ op ∈ ops, op.flushSafe g = true) :
    FlushSettled g (runOps g v ops).cache :=
  runOps_induction g (P := fun v => FlushSettled g v.cache) (A := fun op => op.flushSafe g = true)
    (fun v op hv hop => hv.step (run_step g v op) hop) ops v h hops

/-! ## A settled view flushes transparently -/

section Transparent

variable {g : Globals} {c : CAssetsCache}

theorem pendingAsset_flush (h : FlushSettled g c) (lru : LRUCaches) (name : StdString) :
    pendingAsset (g.flush c) ((g.flush c).passetsView lru) name = pendingAsset g ⟨c, lru⟩ name :=
  Pending.layered_mergeKeep h.assets h.assetsOnce name

theorem checkIfAssetExists_flush (h : FlushSettled g c) (lru : LRUCaches) (name : StdString) :
    checkIfAssetExists (g.flush c) ((g.flush c).passetsView lru) name =
      checkIfAssetExists g ⟨c, lru⟩ name := by
  rw [checkIfAssetExists_eq, checkIfAssetExists_eq, pendingAsset_flush h]
  rfl

theorem getAssetMetaDataIfExists_flush (h : FlushSettled g c) (lru : LRUCaches) (name : StdString) :
    getAssetMetaDataIfExists (g.flush c) ((g.flush c).passetsView lru) name =
      getAssetMetaDataIfExists g ⟨c, lru⟩ name := by
  have hreissued : ((g.flush c).passets.mapReissuedAssetData.lookup name).or
      ((g.flush c).passets.mapReissuedAssetData.lookup name) =
        (c.mapReissuedAssetData.lookup name).or (g.passets.mapReissuedAssetData.lookup name) := by
    show ((StdMap.assignAll g.passets.mapReissuedAssetData c.mapReissuedAssetData).lookup name).or
      ((StdMap.assignAll g.passets.mapReissuedAssetData c.mapReissuedAssetData).lookup name) = _
    rw [StdMap.lookup_assignAll, Option.or_self]
  rw [getAssetMetaDataIfExists_eq, getAssetMetaDataIfExists_eq, pendingAsset_flush h]
  show (match ((g.flush c).passets.mapReissuedAssetData.lookup name).or
    ((g.flush c).passets.mapReissuedAssetData.lookup name) with | some _ => _ | none => _) = _
  rw [hreissued]
  rfl

theorem getAssetVerifierStringIfExists_flush (h : FlushSettled g c) (lru : LRUCaches)
    (name : StdString) :
    getAssetVerifierStringIfExists (g.flush c) ((g.flush c).passetsView lru) name =
      getAssetVerifierStringIfExists g ⟨c, lru⟩ name := by
  have hl : Pending.layered false ((g.flush c).passetsView lru).cache.setNewRestrictedVerifier
      (g.flush c).passets.setNewRestrictedVerifier name =
      Pending.layered false c.setNewRestrictedVerifier g.passets.setNewRestrictedVerifier name :=
        Pending.layered_mergeOver h.verifier name
  unfold getAssetVerifierStringIfExists
  rw [hl]
  rfl

theorem checkForAddressRestriction_flush [NodeCrypto] (h : FlushSettled g c) (lru : LRUCaches)
    (name address : StdString) :
    checkForAddressRestriction (g.flush c) ((g.flush c).passetsView lru) name address =
      checkForAddressRestriction g ⟨c, lru⟩ name address := by
  have hl : Pending.layered false ((g.flush c).passetsView lru).cache.setNewRestrictedAddress
      (g.flush c).passets.setNewRestrictedAddress (name, address) =
      Pending.layered false c.setNewRestrictedAddress g.passets.setNewRestrictedAddress (name, address) :=
        Pending.layered_mergeOver h.restricted (name, address)
  unfold checkForAddressRestriction
  rw [hl]
  rfl

theorem checkForGlobalRestriction_flush (h : FlushSettled g c) (lru : LRUCaches)
    (name : StdString) :
    checkForGlobalRestriction (g.flush c) ((g.flush c).passetsView lru) name =
      checkForGlobalRestriction g ⟨c, lru⟩ name := by
  have hl : Pending.layered false ((g.flush c).passetsView lru).cache.setNewRestrictedGlobal
      (g.flush c).passets.setNewRestrictedGlobal name =
      Pending.layered false c.setNewRestrictedGlobal g.passets.setNewRestrictedGlobal name :=
        Pending.layered_mergeOver h.globalRestricted name
  unfold checkForGlobalRestriction
  rw [hl]
  rfl

/-- The flushed root qualifier map holds what the view and `passets` held. -/
theorem hasRootQualifier_flush (h : FlushSettled g c) (key : CAssetCacheRootQualifierChecker) :
    hasRootQualifier (g.flush c).passets.mapRootQualifierAddressesAdd key =
      (hasRootQualifier c.mapRootQualifierAddressesAdd key ||
        hasRootQualifier g.passets.mapRootQualifierAddressesAdd key) := by
  have hrem : hasRootQualifier c.mapRootQualifierAddressesRemove key = false := by
    by_contra hne
    rw [Bool.not_eq_false, hasRootQualifier_iff] at hne
    obtain ⟨name, hname⟩ := hne
    rw [h.rootRemove key name] at hname
    cases hname
  show hasRootQualifier (mergeRootQualifiers (mergeRootQualifiers _ _) _) key = _
  rw [hasRootQualifier_merge, hasRootQualifier_merge, hrem, Bool.false_or]

theorem checkForAddressQualifier_flush [NodeCrypto] (h : FlushSettled g c) (lru : LRUCaches)
    (name address : StdString) :
    checkForAddressQualifier (g.flush c) ((g.flush c).passetsView lru) name address =
      checkForAddressQualifier g ⟨c, lru⟩ name address := by
  have hl : Pending.layered false ((g.flush c).passetsView lru).cache.setNewQualifierAddress
      (g.flush c).passets.setNewQualifierAddress (name, address) =
      Pending.layered false c.setNewQualifierAddress g.passets.setNewQualifierAddress (name, address) :=
        Pending.layered_mergeOver h.qualifier (name, address)
  have hroot := hasRootQualifier_flush h ⟨name, address⟩
  unfold checkForAddressQualifier
  rw [hl]
  rcases Pending.layered false c.setNewQualifierAddress g.passets.setNewQualifierAddress
    (name, address) with _ | ⟨a⟩ | ⟨a⟩
  · -- both root qualifier tests of the flushed view read one map
    show (if !false && hasRootQualifier (g.flush c).passets.mapRootQualifierAddressesAdd _ then _
      else if hasRootQualifier (g.flush c).passets.mapRootQualifierAddressesAdd _ then _ else _) = _
    rw [hroot]
    cases hasRootQualifier c.mapRootQualifierAddressesAdd ⟨name, address⟩ <;>
      cases hasRootQualifier g.passets.mapRootQualifierAddressesAdd ⟨name, address⟩ <;> rfl
  · rfl
  · rfl

theorem assetAddressAmount_flush (name address : StdString) :
    assetAddressAmount (g.flush c) (g.flush c).passets name address =
      assetAddressAmount g c name address := by
  have hmap : (g.flush c).passets.mapAssetsAddressAmount.lookup (name, address) =
      (c.mapAssetsAddressAmount.lookup (name, address)).or
        (g.passets.mapAssetsAddressAmount.lookup (name, address)) :=
    StdMap.lookup_assignAll g.passets.mapAssetsAddressAmount c.mapAssetsAddressAmount (name, address)
  rw [assetAddressAmount_eq, assetAddressAmount_eq, hmap, Option.or_self]
  rfl

theorem answersAgree_flush [NodeCrypto] (h : FlushSettled g c) (lru : LRUCaches) :
    AnswersAgree g ⟨c, lru⟩ (g.flush c) ((g.flush c).passetsView lru) where
  assetExists name := by rw [checkIfAssetExists_flush h]
  metaData name := by rw [getAssetMetaDataIfExists_flush h]
  verifier name := by rw [getAssetVerifierStringIfExists_flush h]
  qualifier name address := by rw [checkForAddressQualifier_flush h]
  restriction name address := by rw [checkForAddressRestriction_flush h]
  globalRestriction name := by rw [checkForGlobalRestriction_flush h]
  amount name address := (assetAddressAmount_flush name address).symm

end Transparent

/-- **A flush is transparent after every run of safe steps.** -/
theorem flush_transparent [NodeCrypto] (g : Globals) (v : View) (ops : List CacheOp)
    (hbuilt : BuiltOver g v.cache)
    (hroot : ∀ key name,
      (namesAt v.cache.mapRootQualifierAddressesRemove key).contains name = false)
    (hops : ∀ op ∈ ops, op.flushSafe g = true) :
    AnswersAgree g (runOps g v ops) (g.flush (runOps g v ops).cache)
      ((g.flush (runOps g v ops).cache).passetsView (runOps g v ops).lru) :=
  answersAgree_flush (flushSettled_runOps (flushSettled_of_builtOver hbuilt hroot) ops hops)
    (runOps g v ops).lru

/-! ## Runs that are safe, and one that is not -/

section Mainnet

attribute [local instance] mainnetCrypto

/-- An address of the examples. -/
def someAddress : StdString := bytes "R9HC5WtHbpoa51NCUAz86XLCmGTbkf45NT"

/-- An issuance, a tag with a sub qualifier and a freeze. -/
def safeOps : List CacheOp :=
  [.addNewAsset { strName := bytes "COIN", nAmount := 1000 } someAddress 7 1,
    .addQualifierAddress (bytes "#TAG/#SUB") someAddress .ADD_QUALIFIER,
    .addRestrictedAddress (bytes "$COIN") someAddress .FREEZE_ADDRESS]

theorem flush_transparent_safeOps :
    AnswersAgree {} (runOps {} {} safeOps) (Globals.flush {} (runOps {} {} safeOps).cache)
      ((Globals.flush {} (runOps {} {} safeOps).cache).passetsView (runOps {} {} safeOps).lru) :=
  flush_transparent {} {} safeOps (Or.inl rfl) (fun _ _ => rfl) (by decide)

/-- A sub qualifier given to an address and taken from it in one view. -/
def tagAndUntag : List CacheOp :=
  [.addQualifierAddress (bytes "#TAG/#SUB") someAddress .ADD_QUALIFIER,
    .addQualifierAddress (bytes "#TAG/#SUB") someAddress .REMOVE_QUALIFIER]

/-- **Flushing gives back a tag that was taken away**: through the view the address has no `#TAG`,
through `passets` after the flush it has. -/
theorem flush_not_transparent_tagAndUntag :
    ¬ AnswersAgree {} (runOps {} {} tagAndUntag) (Globals.flush {} (runOps {} {} tagAndUntag).cache)
      ((Globals.flush {} (runOps {} {} tagAndUntag).cache).passetsView
        (runOps {} {} tagAndUntag).lru) := by
  intro h
  have hq := h.qualifier (bytes "#TAG") someAddress
  revert hq
  decide

end Mainnet

end RavenCash
