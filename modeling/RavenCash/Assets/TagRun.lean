import RavenCash.Assets.Dump
import RavenCash.Assets.NameParents
import RavenCash.Assets.TagUndo

/-!
# Tags in the views of a node

`AssetNode.step` lists what happens to a view, to `passets`, to the databases and to the read caches. What
all of it keeps is `TagsCoherent`: a pending tag of a sub qualifier in `passets` has its name in the root
qualifier map there, since `Flush` puts the names of both maps of a view into it; a view says the same of
such a tag in its sets and in its map, unless `passets` has the name; and the read cache has only tags of
the database. So a change of status and its undo leave every status as it was.
-/

set_option autoImplicit false

namespace RavenCash

/-! ## The node -/

/-- The asset state of a node and the view in use. -/
structure AssetNode where
  g : Globals
  v : View

/-- A node that has been started, over any databases. -/
def AssetNode.start (g : Globals) : AssetNode := ⟨{ g with passets := {} }, {}⟩

/-- The names whose tags `AddCoins` and `DisconnectBlock` change. -/
def isQualifierName (name : StdString) : Bool :=
  assetTypeOf name == some .QUALIFIER || assetTypeOf name == some .SUB_QUALIFIER

/-- The callers change the tags of qualifiers only. -/
def CacheOp.made : CacheOp → Bool
  | .addQualifierAddress name _ _ => isQualifierName name
  | .removeQualifierAddress name _ _ => isQualifierName name
  | _ => true

inductive NodeEvent where
  | run (op : CacheOp)
  | checkForAddressQualifier (cache : CAssetsCache) (name address : StdString) (fSkipTempCache : Bool)
  | checkForAddressRestriction (cache : CAssetsCache) (name address : StdString) (fSkipTempCache : Bool)
  | checkForGlobalRestriction (cache : CAssetsCache) (name : StdString) (fSkipTempCache : Bool)
  | newView
  | copyPassets
  | flush
  | dump

section

variable [NodeCrypto]

/-- A view is empty or a copy of `passets` at first and is flushed at most once. No view is in use when the
cache is written down. The queries may go through any cache. -/
def AssetNode.step (n : AssetNode) : NodeEvent → AssetNode
  | .run op => if op.made then { n with v := (op.run n.g n.v).2 } else n
  | .checkForAddressQualifier cache name address fSkipTempCache =>
      { n with v.lru := (RavenCash.checkForAddressQualifier n.g ⟨cache, n.v.lru⟩ name address fSkipTempCache).2 }
  | .checkForAddressRestriction cache name address fSkipTempCache =>
      { n with v.lru := (RavenCash.checkForAddressRestriction n.g ⟨cache, n.v.lru⟩ name address fSkipTempCache).2 }
  | .checkForGlobalRestriction cache name fSkipTempCache =>
      { n with v.lru := (RavenCash.checkForGlobalRestriction n.g ⟨cache, n.v.lru⟩ name fSkipTempCache).2 }
  | .newView => { n with v.cache := {} }
  | .copyPassets => { n with v.cache := n.g.passets }
  | .flush => ⟨n.g.flush n.v.cache, { n.v with cache := {} }⟩
  | .dump =>
      let s := (n.g.stores n.v.lru).after (n.g.passets.dumpCacheToDatabase n.g.fAssetIndex)
      ⟨{ n.g.over s with passets := {} }, ⟨{}, s.lru⟩⟩

/-! ## The read cache -/

/-- Every hash in the read cache is that of a tag in the database. -/
def TagsCached (s : AssetStores) : Prop :=
  ∀ hash, s.lru.passetsQualifierCache.contains hash = true → ∃ name address,
    (s.prestricteddb.addressQualifier.lookup (address, name)).isSome = true ∧ addressTagHash name address = hash

/-- Only the writes of tags touch what the cache and the database say of them. -/
theorem TagsCached.run {s : AssetStores} (h : TagsCached s) (write : StoreWrite) : TagsCached (write.run s) := by
  cases write with
  | assets db cache => exact h
  | verifier name verifier cached => exact h
  | restriction name address frozen => exact h
  | global name frozen => exact h
  | tag name address present =>
    intro hash hcached
    cases present with
    | true =>
      rcases CLRUCache.contains_of_put hcached with rfl | hold
      · exact ⟨name, address, by simp [StoreWrite.run, setEntry], rfl⟩
      · obtain ⟨name', address', hdb, hhash⟩ := h hash hold
        refine ⟨name', address', ?_, hhash⟩
        simp only [StoreWrite.run, setEntry, if_true, Option.elim_some, StdMap.lookup_assign]
        split_ifs
        · rfl
        · exact hdb
    | false =>
      obtain ⟨hne, hold⟩ := CLRUCache.contains_of_erase hcached
      obtain ⟨name', address', hdb, hhash⟩ := h hash hold
      refine ⟨name', address', ?_, hhash⟩
      simp only [StoreWrite.run, setEntry, Bool.false_eq_true, if_false, Option.elim_none, StdMap.lookup_erase_eq]
      rw [if_neg]
      · exact hdb
      · rintro heq
        obtain ⟨rfl, rfl⟩ := Prod.mk.inj heq
        exact hne hhash.symm

/-- A query puts a tag into the cache that it has read. -/
theorem TagsCached.query {g : Globals} {lru : LRUCaches} (h : TagsCached (g.stores lru)) (cache : CAssetsCache)
    (name address : StdString) (skip : Bool) :
    TagsCached (g.stores (checkForAddressQualifier g ⟨cache, lru⟩ name address skip).2) := by
  unfold checkForAddressQualifier
  dsimp only
  split
  · exact h
  · exact h
  split_ifs with _ _ _ hread
  · exact h
  · exact h
  · exact h
  · intro hash hcached
    rcases CLRUCache.contains_of_put hcached with rfl | hold
    · exact ⟨name, address, hread, rfl⟩
    · exact h hash hold
  · exact h

/-! ## What an operation does to the tags -/

/-- What the tags of a view rest on. -/
def View.tagState (v : View) := (v.cache.setNewQualifierAddress, v.cache.mapRootQualifierAddressesAdd,
  v.cache.mapRootQualifierAddressesRemove, v.lru.passetsQualifierCache)

/-- What the pending entries of the view say about a tag. -/
def ownTag (c : CAssetsCache) (name address : StdString) : Bool :=
  answer (·.type == .REMOVE_QUALIFIER) (·.type == .ADD_QUALIFIER) false
    (Pending.layered false c.setNewQualifierAddress ∅ (name, address))

omit [NodeCrypto] in
/-- The lookups of assets fill another read cache. -/
theorem tagState_lookups (g : Globals) (v : View) (name : StdString) :
    (checkIfAssetExists g v name).2.passetsQualifierCache = v.lru.passetsQualifierCache ∧
      (getAssetMetaDataIfExists g v name).2.passetsQualifierCache = v.lru.passetsQualifierCache := by
  constructor
  · unfold checkIfAssetExists
    split_ifs <;> try rfl
    split <;> rfl
  · rw [getAssetMetaDataIfExists_eq]
    repeat' split
    all_goals rfl

/-- The operation changes a tag. -/
def CacheOp.ofTag : CacheOp → Option (StdString × StdString × Bool)
  | .addQualifierAddress name address type => some (name, address, type == .ADD_QUALIFIER)
  | .removeQualifierAddress name address type => some (name, address, type != .ADD_QUALIFIER)
  | _ => none

omit [NodeCrypto] in
theorem tagState_run (g : Globals) (v : View) (op : CacheOp) (h : op.ofTag = none) :
    (op.run g v).2.tagState = v.tagState := by
  unfold View.tagState
  cases op with
  | addNewAsset asset address nHeight blockHash =>
    have hlru := (tagState_lookups g v asset.strName).1
    rcases addNewAsset_cases g v asset address nHeight blockHash with ⟨-, hrun⟩ | ⟨-, m, hrun⟩
    all_goals rw [CacheOp.run, hrun, hlru]
  | removeNewAsset asset address =>
    have hlru := (tagState_lookups g v asset.strName).1
    rcases removeNewAsset_cases g v asset address with ⟨-, hrun⟩ | ⟨-, m, hrun⟩
    all_goals rw [CacheOp.run, hrun, hlru]
  | addReissueAsset reissue address out =>
    have hlru := (tagState_lookups g v reissue.strName).2
    rcases addReissueAsset_cases g v reissue address out with ⟨-, hrun⟩ | ⟨asset, height, -, m, hrun⟩
    all_goals rw [CacheOp.run, hrun, hlru]
  | removeReissueAsset reissue address out vUndoIPFS =>
    have hlru := (tagState_lookups g v reissue.strName).2
    rcases removeReissueAsset_cases g v reissue address out vUndoIPFS with ⟨-, hrun⟩ | ⟨asset, height, -, ok, m, hrun⟩
    · rw [CacheOp.run, hrun, hlru]
    · rw [CacheOp.run, hrun, hlru]
      unfold undoVerifier
      split
      · split_ifs <;> rfl
      · rfl
  | addOwnerAsset name address =>
    obtain ⟨m, hrun⟩ := addOwnerAsset_eq g v.cache name address
    rw [CacheOp.run, hrun]
  | removeOwnerAsset name address =>
    obtain ⟨m, hrun⟩ := removeOwnerAsset_eq g v.cache name address
    rw [CacheOp.run, hrun]
  | addTransferAsset transfer address out =>
    obtain ⟨m, hrun⟩ := addTransferAsset_eq g v.cache transfer address out
    rw [CacheOp.run, hrun]
  | removeTransfer transfer address out =>
    obtain ⟨m, t, hrun⟩ := removeTransfer_eq g v.cache transfer address out
    simp only [CacheOp.run, hrun]
  | addBackSpentAsset name address nAmount =>
    obtain ⟨m, u, hrun⟩ := addBackSpentAsset_eq g v.cache name address nAmount
    rw [CacheOp.run, hrun]
  | addQualifierAddress name address type => cases h
  | removeQualifierAddress name address type => cases h
  | _ => rfl

/-- What an operation on a tag does. -/
structure TagStep (c c' : CAssetsCache) (name address : StdString) (present : Bool) : Prop where
  off : ∃ entry, CAssetCacheQualifierAddress.key entry = (name, address) ∧
    Pending.AgreeOff entry c'.setNewQualifierAddress c.setNewQualifierAddress
  own : ownTag c' name address = present
  rootAdd : c'.mapRootQualifierAddressesAdd =
    (c.markRootQualifier name address present).mapRootQualifierAddressesAdd
  rootRemove : c'.mapRootQualifierAddressesRemove =
    (c.markRootQualifier name address present).mapRootQualifierAddressesRemove

omit [NodeCrypto] in
theorem tagStep_run (g : Globals) (v : View) {op : CacheOp} {name address : StdString} {present : Bool}
    (h : op.ofTag = some (name, address, present)) :
    TagStep v.cache (op.run g v).2.cache name address present ∧ (op.run g v).2.lru = v.lru := by
  cases op <;> try cases h
  case addQualifierAddress type =>
    obtain ⟨a, r, hmark⟩ := markRootQualifier_eq v.cache name address (type == .ADD_QUALIFIER)
    refine ⟨⟨⟨⟨name, address, type⟩, rfl, ?_⟩, ?_, rfl, rfl⟩, rfl⟩
    · simp only [CacheOp.run, addQualifierAddress, hmark]
      exact Pending.agreeOff_addOver _ _
    · simp only [CacheOp.run, addQualifierAddress, hmark, ownTag]
      rw [Pending.layered_of_toAdd (a := ⟨name, address, type⟩) (Pending.find?_erase_self _ _) rfl
        (by rw [Pending.addOver_toAdd, StdSet.find?_overwrite]; exact if_pos rfl)]
      rfl
  case removeQualifierAddress type =>
    obtain ⟨a, r, hmark⟩ := markRootQualifier_eq v.cache name address (type != .ADD_QUALIFIER)
    refine ⟨⟨⟨⟨name, address, type⟩, rfl, ?_⟩, ?_, rfl, rfl⟩, rfl⟩
    · simp only [CacheOp.run, removeQualifierAddress, hmark]
      exact Pending.agreeOff_removeOver _ _
    · simp only [CacheOp.run, removeQualifierAddress, hmark, ownTag]
      rw [Pending.layered_of_toRemove (a := ⟨name, address, type⟩)
        (by rw [Pending.removeOver_toRemove, StdSet.find?_overwrite]; exact if_pos rfl)]
      cases type <;> rfl

/-! ## Coherent tags -/

/-- The root qualifier map has only sub qualifiers, under their parents. -/
def OnlySubs (m : StdMap CAssetCacheRootQualifierChecker NameSet) : Prop :=
  ∀ key name, (namesAt m key).contains name = true →
    assetTypeOf name = some .SUB_QUALIFIER ∧ key.rootAssetName = getParentName name

def CAssetsCache.OnlySubs (c : CAssetsCache) : Prop :=
  RavenCash.OnlySubs c.mapRootQualifierAddressesAdd ∧ RavenCash.OnlySubs c.mapRootQualifierAddressesRemove

/-- **What holds in every state of a node.** -/
structure TagsCoherent (n : AssetNode) : Prop where
  shared : ∀ name address, assetTypeOf name = some .SUB_QUALIFIER →
    n.g.passets.setNewQualifierAddress.Holds (name, address) →
    markedIn n.g.passets.mapRootQualifierAddressesAdd name address = true
  own : ∀ name address, assetTypeOf name = some .SUB_QUALIFIER →
    n.v.cache.setNewQualifierAddress.Holds (name, address) →
    markedIn n.v.cache.mapRootQualifierAddressesAdd name address = true ∨
      markedIn n.v.cache.mapRootQualifierAddressesRemove name address = true
  settled : ∀ name address, assetTypeOf name = some .SUB_QUALIFIER →
    markedIn n.g.passets.mapRootQualifierAddressesAdd name address = true ∨
      markedIn n.v.cache.mapRootQualifierAddressesAdd name address = ownTag n.v.cache name address
  sharedSubs : n.g.passets.OnlySubs
  ownSubs : n.v.cache.OnlySubs
  cached : TagsCached (n.g.stores n.v.lru)

omit [NodeCrypto] in
theorem isAssetNameASubQualifier_iff {name : StdString} (h : isQualifierName name = true) :
    isAssetNameASubQualifier name = true ↔ assetTypeOf name = some .SUB_QUALIFIER := by
  have hindicates := indicates_indicatedType name
  rw [isQualifierName, Bool.or_eq_true, beq_iff_eq, beq_iff_eq] at h
  rcases h with h | h
  · rw [(assetTypeOf_iff_indicated.mp h).2.1, indicates, Bool.and_eq_true, Bool.not_eq_true'] at hindicates
    rw [h, hindicates.2]
    simp
  · rw [(assetTypeOf_iff_indicated.mp h).2.1] at hindicates
    exact iff_of_true hindicates h

omit [NodeCrypto] in
theorem onlySubs_empty : CAssetsCache.OnlySubs {} :=
  ⟨fun _ _ h => absurd h Bool.false_ne_true, fun _ _ h => absurd h Bool.false_ne_true⟩

/-- A node without a view. -/
theorem TagsCoherent.newView {n : AssetNode} (h : TagsCoherent n) : TagsCoherent { n with v.cache := {} } where
  shared := h.shared
  own _ _ _ hholds := absurd hholds (Pending.not_holds_empty _)
  settled _ _ _ := .inr rfl
  sharedSubs := h.sharedSubs
  ownSubs := onlySubs_empty
  cached := h.cached

theorem TagsCoherent.start (g : Globals) : TagsCoherent (.start g) where
  shared _ _ _ hholds := absurd hholds (Pending.not_holds_empty _)
  own _ _ _ hholds := absurd hholds (Pending.not_holds_empty _)
  settled _ _ _ := .inr rfl
  sharedSubs := onlySubs_empty
  ownSubs := onlySubs_empty
  cached _ hcached := absurd hcached Bool.false_ne_true

/-- A copy of `passets` has the names that `passets` has. -/
theorem TagsCoherent.copyPassets {n : AssetNode} (h : TagsCoherent n) :
    TagsCoherent { n with v.cache := n.g.passets } where
  shared := h.shared
  own name address hsub hholds := .inl (h.shared name address hsub hholds)
  settled name address hsub := by
    by_cases hmarked : markedIn n.g.passets.mapRootQualifierAddressesAdd name address = true
    · exact .inl hmarked
    · refine .inr ((Bool.eq_false_iff.mpr hmarked).trans ?_)
      obtain ⟨hadd, hremove⟩ := Pending.find?_of_not_holds fun hholds => hmarked (h.shared name address hsub hholds)
      simp [ownTag, Pending.layered, hadd, hremove, answer]
  sharedSubs := h.sharedSubs
  ownSubs := h.sharedSubs
  cached := h.cached

omit [NodeCrypto] in
theorem onlySubs_merge {dst src : StdMap CAssetCacheRootQualifierChecker NameSet} (h : OnlySubs dst)
    (h' : OnlySubs src) : OnlySubs (mergeRootQualifiers dst src) := by
  intro key name hname
  rw [namesAt_mergeRootQualifiers, Bool.or_eq_true] at hname
  exact hname.elim (h' key name) (h key name)

omit [NodeCrypto] in
theorem markedIn_flush (g : Globals) (c : CAssetsCache) (name address : StdString) :
    markedIn (g.flush c).passets.mapRootQualifierAddressesAdd name address =
      (markedIn c.mapRootQualifierAddressesRemove name address ||
        (markedIn c.mapRootQualifierAddressesAdd name address ||
          markedIn g.passets.mapRootQualifierAddressesAdd name address)) := by
  unfold markedIn
  rw [← namesAt_mergeRootQualifiers, ← namesAt_mergeRootQualifiers]
  rfl

/-- **A flush** puts every name of the view into the map of `passets`. -/
theorem TagsCoherent.flush {n : AssetNode} (h : TagsCoherent n) :
    TagsCoherent ⟨n.g.flush n.v.cache, { n.v with cache := {} }⟩ where
  shared name address hsub hholds := by
    rw [markedIn_flush, Bool.or_eq_true, Bool.or_eq_true]
    rcases Pending.Holds.of_mergeOver hholds with hown | hshared
    · rcases h.own name address hsub hown with hadd | hremove
      · exact .inr (.inl hadd)
      · exact .inl hremove
    · exact .inr (.inr (h.shared name address hsub hshared))
  own _ _ _ hholds := absurd hholds (Pending.not_holds_empty _)
  settled _ _ _ := .inr rfl
  sharedSubs := ⟨onlySubs_merge (onlySubs_merge h.sharedSubs.1 h.ownSubs.1) h.ownSubs.2, h.sharedSubs.2⟩
  ownSubs := onlySubs_empty
  cached := h.cached

omit [NodeCrypto] in
/-- A mark keeps the maps to sub qualifiers. -/
theorem onlySubs_markRootQualifier {c : CAssetsCache} {name address : StdString} {present : Bool}
    (h : c.OnlySubs) (hname : isQualifierName name = true) :
    (c.markRootQualifier name address present).OnlySubs := by
  constructor
  · intro key n hn
    rw [(namesAt_markRootQualifier c name address present key n).1] at hn
    split_ifs at hn with hmark
    · obtain ⟨hsub, rfl, rfl⟩ := hmark
      exact ⟨(isAssetNameASubQualifier_iff hname).mp hsub, rfl⟩
    · exact h.1 key n hn
  · intro key n hn
    rw [(namesAt_markRootQualifier c name address present key n).2] at hn
    split_ifs at hn with hmark
    · obtain ⟨hsub, rfl, rfl⟩ := hmark
      exact ⟨(isAssetNameASubQualifier_iff hname).mp hsub, rfl⟩
    · exact h.2 key n hn

/-- **A change of a tag** is said by the sets and by the maps alike. -/
theorem TagsCoherent.tagStep {n : AssetNode} {c' : CAssetsCache} {name address : StdString} {present : Bool}
    (h : TagsCoherent n) (hstep : TagStep n.v.cache c' name address present) (hname : isQualifierName name = true) :
    TagsCoherent { n with v.cache := c' } where
  shared := h.shared
  own name' address' hsub hholds := by
    unfold markedIn
    rw [hstep.rootAdd, hstep.rootRemove, (namesAt_markRootQualifier _ _ _ _ _ _).1,
      (namesAt_markRootQualifier _ _ _ _ _ _).2]
    split_ifs with hmark
    · cases present <;> simp
    · refine h.own name' address' hsub ?_
      obtain ⟨entry, hkey, hoff⟩ := hstep.off
      refine hoff.holds (fun heq => hmark ?_) hholds
      obtain ⟨rfl, rfl⟩ := Prod.mk.inj (hkey.symm.trans heq)
      exact ⟨(isAssetNameASubQualifier_iff hname).mpr hsub, rfl, rfl⟩
  settled name' address' hsub := by
    refine (h.settled name' address' hsub).imp_right fun hsettled => ?_
    unfold markedIn at hsettled ⊢
    rw [hstep.rootAdd, (namesAt_markRootQualifier _ _ _ _ _ _).1]
    split_ifs with hmark
    · obtain ⟨-, hkey, rfl⟩ := hmark
      obtain ⟨-, rfl⟩ := CAssetCacheRootQualifierChecker.mk.inj hkey
      exact hstep.own.symm
    · refine hsettled.trans ?_
      obtain ⟨entry, hkey, hoff⟩ := hstep.off
      unfold ownTag
      rw [hoff.layered]
      rintro heq
      obtain ⟨rfl, rfl⟩ := Prod.mk.inj (hkey.symm.trans heq)
      exact hmark ⟨(isAssetNameASubQualifier_iff hname).mpr hsub, rfl, rfl⟩
  sharedSubs := h.sharedSubs
  ownSubs := by
    obtain ⟨hadd, hremove⟩ : (n.v.cache.markRootQualifier name address present).OnlySubs :=
      onlySubs_markRootQualifier h.ownSubs hname
    rw [← hstep.rootAdd] at hadd
    rw [← hstep.rootRemove] at hremove
    exact ⟨hadd, hremove⟩
  cached := h.cached

/-- Steps that leave alone what the tags rest on. -/
theorem TagsCoherent.congr {g : Globals} {v v' : View} (h : TagsCoherent ⟨g, v⟩) (hstate : v'.tagState = v.tagState) :
    TagsCoherent ⟨g, v'⟩ := by
  simp only [View.tagState, Prod.mk.injEq] at hstate
  obtain ⟨hset, hadd, hremove, hlru⟩ := hstate
  refine ⟨h.shared, ?_, ?_, h.sharedSubs, ?_, ?_⟩
  · simpa only [hset, hadd, hremove] using h.own
  · simpa only [ownTag, hset, hadd] using h.settled
  · simpa only [CAssetsCache.OnlySubs, hadd, hremove] using h.ownSubs
  · simpa only [TagsCached, Globals.stores, hlru] using h.cached

theorem TagsCoherent.step {n : AssetNode} (h : TagsCoherent n) (event : NodeEvent) :
    TagsCoherent (n.step event) := by
  cases event with
  | run op =>
    unfold AssetNode.step
    dsimp only
    split_ifs with hmade
    · rcases hop : op.ofTag with _ | ⟨name, address, present⟩
      · exact h.congr (tagState_run n.g n.v op hop)
      · obtain ⟨hstep, hlru⟩ := tagStep_run n.g n.v hop
        have hname : isQualifierName name = true := by
          cases op <;> cases hop <;> exact hmade
        refine (h.tagStep hstep hname).congr ?_
        rw [View.tagState, hlru]
        rfl
    · exact h
  | checkForAddressQualifier cache name address skip =>
    exact { h with cached := h.cached.query cache name address skip }
  | checkForAddressRestriction cache name address skip =>
    refine h.congr ?_
    unfold RavenCash.checkForAddressRestriction
    dsimp only
    repeat' split
    all_goals rfl
  | checkForGlobalRestriction cache name skip =>
    refine h.congr ?_
    unfold RavenCash.checkForGlobalRestriction
    dsimp only
    repeat' split
    all_goals rfl
  | newView => exact h.newView
  | copyPassets => exact h.copyPassets
  | flush => exact h.flush
  | dump =>
    have hcached := List.foldlRecOn (n.g.passets.dumpCacheToDatabase n.g.fAssetIndex) StoreWrite.run h.cached
      fun _ hs write _ => hs.run write
    exact { TagsCoherent.start n.g with cached := hcached }

/-- **Tags are coherent in every state of a node.** -/
theorem tagsCoherent_of_run (g : Globals) (events : List NodeEvent) :
    TagsCoherent (events.foldl AssetNode.step (.start g)) :=
  List.foldlRecOn _ _ (TagsCoherent.start g) fun _ h event _ => h.step event

/-! ## Undone changes -/

/-- The callers make the change. -/
def TagChange.made : TagChange → Bool
  | qualifier name _ _ => isQualifierName name
  | restriction _ _ _ => true
  | global _ _ => true

/-- Another tag in the database has the hash of the tag. -/
def TagChange.Collides (g : Globals) : TagChange → Prop
  | qualifier name address _ => ∃ name' address', (name', address') ≠ (name, address) ∧
      (g.prestricteddb.addressQualifier.lookup (address', name')).isSome = true ∧
      addressTagHash name' address' = addressTagHash name address
  | restriction _ _ _ => False
  | global _ _ => False

omit [NodeCrypto] in
/-- A tag of a sub qualifier, or of one below it, in the database answers for its root qualifier. -/
theorem checkForAddressRootQualifier_parent {db : CRestrictedDB} {name address tag : StdString}
    (hsub : assetTypeOf name = some .SUB_QUALIFIER) (hdb : (address, tag) ∈ db.addressQualifier.keys)
    (htag : tag = name ∨ (name ++ bytes "/").isPrefixOf tag = true) :
    db.checkForAddressRootQualifier address (getParentName name) = true := by
  obtain ⟨root, sub, hname, hparent, -⟩ := getParentName_subQualifier hsub
  have hprefix : bytes "#" ++ root ++ bytes "/" <+: tag := by
    have hslash : bytes "#" ++ root ++ bytes "/" <+: name :=
      ⟨bytes "#" ++ sub, by rw [hname]; simp [bytes, List.append_assoc]⟩
    rcases htag with rfl | htag
    · exact hslash
    · exact hslash.trans ((List.prefix_append _ _).trans (List.isPrefixOf_iff_prefix.mp htag))
  unfold CRestrictedDB.checkForAddressRootQualifier
  rw [List.any_eq_true]
  refine ⟨(address, tag), hdb, ?_⟩
  rw [hparent, List.isPrefixOf_iff_prefix.mpr hprefix, Bool.or_true, Bool.and_true, beq_self_eq_true]

omit [NodeCrypto] in
/-- A sub qualifier is nobody's root qualifier. -/
theorem OnlySubs.hasRootQualifier {m : StdMap CAssetCacheRootQualifierChecker NameSet} (h : OnlySubs m)
    {name : StdString} (hsub : assetTypeOf name = some .SUB_QUALIFIER) (address : StdString) :
    hasRootQualifier m ⟨name, address⟩ = false := by
  refine Bool.eq_false_iff.mpr fun hhas => ?_
  obtain ⟨n, hn⟩ := (hasRootQualifier_iff m _).mp hhas
  obtain ⟨hn, hparent⟩ := h _ _ hn
  obtain ⟨-, -, -, -, htype⟩ := getParentName_subQualifier hn
  rw [← hparent, hsub] at htype
  cases htype

/-- **What is said of a sub qualifier below the view** is said of its root qualifier too. -/
theorem TagsCoherent.taggedBelow_parent {n : AssetNode} (h : TagsCoherent n) {name address : StdString}
    (hsub : assetTypeOf name = some .SUB_QUALIFIER) (htagged : taggedBelow n.g n.v.lru name address = true)
    (flag : Bool) : taggedBelow n.g n.v.lru (getParentName name) address = true ∨
      (TagChange.qualifier name address flag).Collides n.g := by
  unfold taggedBelow at htagged ⊢
  rw [h.sharedSubs.1.hasRootQualifier hsub, Bool.false_or, Bool.or_eq_true, Bool.or_eq_true] at htagged
  have hread : ∀ {tag}, (n.g.prestricteddb.addressQualifier.lookup (address, tag)).isSome = true →
      (address, tag) ∈ n.g.prestricteddb.addressQualifier.keys := fun htag =>
          AList.mem_keys.mpr (AList.lookup_isSome.mp htag)
  have hroot {tag : StdString} (hdb : (address, tag) ∈ n.g.prestricteddb.addressQualifier.keys)
      (htag : tag = name ∨ (name ++ bytes "/").isPrefixOf tag = true) : _ :=
    checkForAddressRootQualifier_parent hsub hdb htag
  rcases htagged with (hcached | hdb) | hbelow
  · obtain ⟨name', address', hdb, hhash⟩ := h.cached _ hcached
    by_cases hsame : (name', address') = (name, address)
    · obtain ⟨rfl, rfl⟩ := Prod.mk.inj hsame
      exact .inl (by rw [hroot (hread hdb) (.inl rfl), Bool.or_true])
    · exact .inr ⟨name', address', hsame, hdb, hhash⟩
  · exact .inl (by rw [hroot (hread hdb) (.inl rfl), Bool.or_true])
  · unfold CRestrictedDB.checkForAddressRootQualifier at hbelow
    obtain ⟨⟨address', tag⟩, hdb, htag⟩ := List.any_eq_true.mp hbelow
    rw [Bool.and_eq_true, beq_iff_eq, Bool.or_eq_true, beq_iff_eq] at htag
    obtain ⟨rfl, htag⟩ := htag
    exact .inl (by rw [hroot hdb htag, Bool.or_true])

theorem TagsCoherent.rootSettled {n : AssetNode} (h : TagsCoherent n) (change : TagChange)
    (hmade : change.made = true) (hstatus : change.status n.g n.v = !change.flag) :
    change.RootSettled n.g n.v ∨ change.Collides n.g := by
  cases change with
  | restriction name address flag => exact .inl trivial
  | global name flag => exact .inl trivial
  | qualifier name address flag =>
    by_cases hroot : taggedBelow n.g n.v.lru (getParentName name) address = true
    · exact .inl fun _ => .inl hroot
    by_cases hsub : assetTypeOf name = some .SUB_QUALIFIER
    swap
    · exact .inl fun hname => absurd ((isAssetNameASubQualifier_iff hmade).mp hname) hsub
    -- nothing in `passets` is about the tag, and the view says one thing
    have hshared : ¬ markedIn n.g.passets.mapRootQualifierAddressesAdd name address = true := fun hmarked =>
      hroot (by rw [taggedBelow, hasRootQualifier_of_markedIn hmarked]; rfl)
    have hown := (h.settled name address hsub).resolve_left hshared
    have hstatus : (checkForAddressQualifier n.g n.v name address).1 = !flag := hstatus
    rw [checkForAddressQualifier_fst, Pending.layered_of_not_holds
      (fun hholds => hshared (h.shared name address hsub hholds))] at hstatus
    unfold ownTag at hown
    rcases hhit : Pending.layered false n.v.cache.setNewQualifierAddress ∅ (name, address) with _ | hit
    · rw [hhit] at hstatus hown
      cases flag with
      | true => exact .inl fun _ => .inr hown
      | false =>
        -- the tag is set below the view
        have htagged : taggedBelow n.g n.v.lru name address = true := by
          simpa [answer, h.ownSubs.1.hasRootQualifier hsub] using hstatus
        exact (h.taggedBelow_parent hsub htagged false).imp_left fun hparent => absurd hparent hroot
    · refine .inl fun _ => .inr ?_
      rw [hhit] at hstatus hown
      rw [hown, ← hstatus]
      cases hit <;> rfl

/-- **Undone changes.** In every state of a node, a change of a tag, a restriction or a global restriction that
alters the status, followed by its undo, leaves every status as it was; unless the hash of the tag is that of
another one in the database. -/
theorem undo_restores (g : Globals) (events : List NodeEvent) (n : AssetNode)
    (hrun : events.foldl AssetNode.step (.start g) = n) (change : TagChange) (hmade : change.made = true)
    (hstatus : change.status n.g n.v = !change.flag) :
    SameStatus n.g n.v (change.undone n.v) ∨ change.Collides n.g := by
  subst hrun
  refine ((tagsCoherent_of_run g events).rootSettled change hmade hstatus).imp_left fun hroot => ?_
  exact change.sameStatus_undone _ _ hstatus hroot

end

section Mainnet

attribute [local instance] mainnetCrypto

/-- A sub qualifier is given to an address, flushed, written down and read. -/
def tagEvents : List NodeEvent :=
  [.run (.addQualifierAddress (bytes "#TAG/#SUB") someAddress .ADD_QUALIFIER), .flush, .dump,
    .checkForAddressQualifier {} (bytes "#TAG/#SUB") someAddress false]

/-- The node after that. -/
def taggedNode : AssetNode := tagEvents.foldl AssetNode.step (.start {})

/-- The tag is taken back. -/
def takeSub : TagChange := .qualifier (bytes "#TAG/#SUB") someAddress false

theorem undo_restores_takeSub : takeSub.status taggedNode.g taggedNode.v = true ∧
    SameStatus taggedNode.g taggedNode.v (takeSub.undone taggedNode.v) := by
  have hstatus : takeSub.status taggedNode.g taggedNode.v = true := by decide
  refine ⟨hstatus, (undo_restores {} tagEvents taggedNode rfl takeSub (by decide) hstatus).resolve_right ?_⟩
  rintro ⟨name, address, hne, hdb, -⟩
  have hkeys : taggedNode.g.prestricteddb.addressQualifier.keys = [(someAddress, bytes "#TAG/#SUB")] := by decide
  have hmem := AList.mem_keys.mp (AList.lookup_isSome.mp hdb)
  rw [hkeys, List.mem_singleton] at hmem
  obtain ⟨rfl, rfl⟩ := Prod.mk.inj hmem
  exact hne rfl

end Mainnet

end RavenCash
