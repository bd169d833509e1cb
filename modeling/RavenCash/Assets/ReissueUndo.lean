import RavenCash.Assets.History

/-!
# Undoing the reissues of a block

A block reissues one asset several times, and each reissue has a complete undo entry, more than
`AddCoins` writes. The block is undone by `RemoveReissueAsset` for its reissues from the last to the
first. Each call takes the first entry of the asset, so only what the first reissue of the block has
changed is set back. The rest stays as the block left it.
-/

set_option autoImplicit false

namespace RavenCash

/-! ## Connecting and undoing -/

/-- A reissue in a block, with the verifier string its transaction changes, if it does. -/
structure BlockReissue where
  reissue : CReissueAsset
  address : StdString
  out : COutPoint
  verifier : Option StdString := none
deriving DecidableEq, Repr

/-- The complete undo entry of a reissue: the old values and what the reissue changes. -/
def undoEntry (reissue : CReissueAsset) (asset : CNewAsset) (strOldVerifier : Option StdString) :
    StdString × CBlockAssetUndo :=
  (reissue.strName, {
    fChangedIPFS := !reissue.strIPFSHash.isEmpty
    fChangedUnits := reissue.nUnits != -1
    strIPFS := asset.strIPFSHash
    nUnits := asset.units.toInt32
    fChangedVerifierString := strOldVerifier.isSome
    verifierString := strOldVerifier.getD [] })

/-- What the reissue branch of `AddCoins` does to the view, with a complete undo entry. The branch itself
writes an entry only where the hash or the units change, and never the old verifier string. -/
def BlockReissue.connect (g : Globals) (v : View) (r : BlockReissue) :
    View × (StdString × CBlockAssetUndo) :=
  -- the asset before it is changed
  let (found, lru) := getAssetMetaDataIfExists g v r.reissue.strName
  let asset := (found.map Prod.fst).getD {}
  let v := (addReissueAsset g { v with lru := lru } r.reissue r.address r.out).2
  match r.verifier with
  | some verifier =>
      let (oldVerifier, lru) := getAssetVerifierStringIfExists g v asset.strName
      (⟨addRestrictedVerifier v.cache asset.strName verifier, lru⟩,
        undoEntry r.reissue asset (some (oldVerifier.getD {}).verifier_string))
  | none => (v, undoEntry r.reissue asset none)

/-- The reissues of a block, with the undo entries in block order. -/
def connectReissues (g : Globals) : View → List BlockReissue → View × List (StdString × CBlockAssetUndo)
  | v, [] => (v, [])
  | v, r :: rs =>
      let (v, entry) := r.connect g v
      let (v, entries) := connectReissues g v rs
      (v, entry :: entries)

/-- `RemoveReissueAsset` for each of the reissues. -/
def undoReissues (g : Globals) (vUndoIPFS : List (StdString × CBlockAssetUndo)) (v : View)
    (rs : List BlockReissue) : View :=
  rs.foldl (fun v r => (removeReissueAsset g v r.reissue r.address r.out vUndoIPFS).2) v

/-- The node after the block: its view is flushed. -/
def afterReissues (g : Globals) (lru : LRUCaches) (rs : List BlockReissue) : Globals × LRUCaches :=
  let v := (connectReissues g ⟨{}, lru⟩ rs).1
  (g.flush v.cache, v.lru)

/-- The view that has undone the block, over the node after the block. -/
def undoneReissues (g : Globals) (lru : LRUCaches) (vUndoIPFS : List (StdString × CBlockAssetUndo))
    (rs : List BlockReissue) : View :=
  let (g, lru) := afterReissues g lru rs
  undoReissues g vUndoIPFS ⟨{}, lru⟩ rs.reverse

/-- The values of the asset are the same through two views, each over its node. -/
def SameValues (name : StdString) (g : Globals) (v : View) (g' : Globals) (v' : View) : Prop :=
  ∃ asset asset', (getAssetMetaDataIfExists g v name).1.map Prod.fst = some asset ∧
    (getAssetMetaDataIfExists g' v' name).1.map Prod.fst = some asset' ∧
    asset'.nAmount = asset.nAmount ∧ asset'.units = asset.units ∧
    asset'.strIPFSHash = asset.strIPFSHash ∧ asset'.nReissuable = asset.nReissuable ∧
    (getAssetVerifierStringIfExists g' v' name).1 = (getAssetVerifierStringIfExists g v name).1

/-! ## The data of the asset -/

section Data

/-- The data of the asset after reissues. -/
def reissuedBy (asset : CNewAsset) (rs : List BlockReissue) : CNewAsset :=
  rs.foldl (fun asset r => asset.reissued r.reissue) asset

/-- The data after undoing reissues with one undo item. -/
def unreissuedBy (item : CBlockAssetUndo) (asset : CNewAsset) (rs : List BlockReissue) : CNewAsset :=
  rs.foldl (fun asset r => asset.unreissued r.reissue (some item)) asset

theorem strName_reissuedBy (asset : CNewAsset) (rs : List BlockReissue) :
    (reissuedBy asset rs).strName = asset.strName := by
  induction rs generalizing asset with
  | nil => rfl
  | cons r rs ih => exact ih (asset.reissued r.reissue)

theorem unreissuedBy_concat (item : CBlockAssetUndo) (asset : CNewAsset) (rs : List BlockReissue)
    (r : BlockReissue) : unreissuedBy item asset (rs ++ [r]) =
      (unreissuedBy item asset rs).unreissued r.reissue (some item) := by
  rw [unreissuedBy, List.foldl_append]
  rfl

/-- The amounts come off again. -/
theorem nAmount_unreissuedBy (item : CBlockAssetUndo) (asset : CNewAsset) (rs : List BlockReissue) :
    (unreissuedBy item (reissuedBy asset rs) rs.reverse).nAmount = asset.nAmount := by
  induction rs generalizing asset with
  | nil => rfl
  | cons r rs ih =>
      rw [List.reverse_cons, unreissuedBy_concat, unreissued_some]
      show (unreissuedBy item (reissuedBy (asset.reissued r.reissue) rs) rs.reverse).nAmount -
        r.reissue.nAmount = asset.nAmount
      rw [ih]
      exact Int64.add_sub_cancel _ _

/-- The units and the hash are those of the item, or stay. -/
theorem kept_unreissuedBy (item : CBlockAssetUndo) (asset : CNewAsset) (rs : List BlockReissue)
    (r : BlockReissue) :
    (unreissuedBy item asset (rs ++ [r])).units =
        (if item.fChangedUnits then item.nUnits.toInt8 else asset.units) ∧
      (unreissuedBy item asset (rs ++ [r])).strIPFSHash =
        (if item.fChangedIPFS then item.strIPFS else asset.strIPFSHash) ∧
      (unreissuedBy item asset (rs ++ [r])).nReissuable = 1 := by
  induction rs using List.reverseRecOn generalizing r with
  | nil =>
      rw [unreissuedBy_concat, unreissued_some]
      exact ⟨rfl, rfl, rfl⟩
  | append_singleton rs last ih =>
      obtain ⟨hunits, hhash, -⟩ := ih last
      rw [unreissuedBy_concat, unreissued_some]
      refine ⟨?_, ?_, rfl⟩
      · show (if item.fChangedUnits then item.nUnits.toInt8 else _) = _
        rw [hunits]
        split <;> rfl
      · show (if item.fChangedIPFS then item.strIPFS else _) = _
        rw [hhash]
        split <;> rfl

end Data

/-! ## Connecting -/

section Connect

variable (g : Globals)

/-- Asking for an asset twice gives the same answer: what the first query puts into the read cache is what
it has found. -/
theorem getAssetMetaDataIfExists_again (v : View) (name : StdString) :
    (getAssetMetaDataIfExists g { v with lru := (getAssetMetaDataIfExists g v name).2 } name).1 =
      (getAssetMetaDataIfExists g v name).1 := by
  rw [getAssetMetaDataIfExists_eq g v name]
  cases hmap : (v.cache.mapReissuedAssetData.lookup name).or
      (g.passets.mapReissuedAssetData.lookup name) with
  | some asset => rw [getAssetMetaDataIfExists_eq, hmap]
  | none =>
      cases hpending : pendingAsset g v name with
      | some a =>
          have hpending' : ∀ lru, pendingAsset g { v with lru := lru } name = some a := fun _ => hpending
          cases a <;> rw [getAssetMetaDataIfExists_eq, hmap, hpending']
      | none =>
          have hpending' : ∀ lru, pendingAsset g { v with lru := lru } name = none := fun _ => hpending
          rw [getAssetMetaDataIfExists_eq, hmap, hpending']
          cases hget : v.lru.passetsCache.get? name with
          | some hit =>
              obtain ⟨data, cache⟩ := hit
              have hlook := CLRUCache.lookup_get? hget name
              rw [CLRUCache.get?, Option.map_eq_some_iff] at hget
              obtain ⟨value, hvalue, heq⟩ := hget
              cases heq
              simp only [CLRUCache.get?, hlook, hvalue, Option.map_some]
          | none =>
              cases hdb : g.passetsdb.assetData.find? name with
              | none => simp only [hget]
              | some data =>
                  dsimp only
                  cases hagain : (v.lru.passetsCache.put data.asset.strName data).get? name with
                  | none => rfl
                  | some hit =>
                      rw [CLRUCache.get?, Option.map_eq_some_iff] at hagain
                      obtain ⟨value, hvalue, rfl⟩ := hagain
                      rcases CLRUCache.lookup_put hvalue with ⟨-, rfl⟩ | hold
                      · rfl
                      · rw [CLRUCache.get?, hold] at hget
                        cases hget

/-- A lookup of an asset leaves the read cache of verifier strings alone. -/
theorem getAssetMetaDataIfExists_verifierCache (v : View) (name : StdString) :
    (getAssetMetaDataIfExists g v name).2.passetsVerifierCache = v.lru.passetsVerifierCache := by
  rw [getAssetMetaDataIfExists_eq]
  split
  · rfl
  · split
    · rfl
    · rfl
    · split
      · rfl
      · split <;> rfl

/-- What connecting a reissue of an asset leaves in the view. -/
structure Connected (v : View) (asset : CNewAsset) (r : BlockReissue) (v' : View) : Prop where
  data : v'.cache.mapReissuedAssetData.lookup asset.strName = some (asset.reissued r.reissue)
  verifiers : v'.cache.setNewRestrictedVerifier = (match r.verifier with
    | some verifier => v.cache.setNewRestrictedVerifier.add ⟨asset.strName, verifier, false⟩
    | none => v.cache.setNewRestrictedVerifier)
  verifierCache : r.verifier = none → v'.lru.passetsVerifierCache = v.lru.passetsVerifierCache

/-- Verifier strings are asked from the pending strings, the read cache and the database. -/
theorem getAssetVerifierStringIfExists_congr {g g' : Globals} {v v' : View} (name : StdString)
    (hlayered : Pending.layered false v'.cache.setNewRestrictedVerifier
      g'.passets.setNewRestrictedVerifier name = Pending.layered false v.cache.setNewRestrictedVerifier
        g.passets.setNewRestrictedVerifier name)
    (hlru : v'.lru.passetsVerifierCache = v.lru.passetsVerifierCache)
    (hdb : g'.prestricteddb = g.prestricteddb) :
    (getAssetVerifierStringIfExists g' v' name).1 = (getAssetVerifierStringIfExists g v name).1 := by
  unfold getAssetVerifierStringIfExists
  rw [hlayered, hlru, hdb]
  repeat' split
  all_goals rfl

theorem BlockReissue.connect_spec {v : View} {asset : CNewAsset} {height : Option (Int × UInt256)}
    (hasset : (getAssetMetaDataIfExists g v asset.strName).1 = some (asset, height)) (r : BlockReissue)
    (hname : r.reissue.strName = asset.strName) :
    Connected v asset r (r.connect g v).1 ∧
      (r.connect g v).2 = undoEntry r.reissue asset (r.verifier.map fun _ =>
        ((getAssetVerifierStringIfExists g v asset.strName).1.getD {}).verifier_string) := by
  rcases hmeta : getAssetMetaDataIfExists g v r.reissue.strName with ⟨found, lru⟩
  obtain rfl : found = some (asset, height) := by
    rw [← hasset, ← hname, hmeta]
  have hagain := getAssetMetaDataIfExists_again g v r.reissue.strName
  rw [hmeta] at hagain
  rcases addReissueAsset_cases g { v with lru := lru } r.reissue r.address r.out with
    ⟨hnone, -⟩ | ⟨_, _, hsome, m, hadd⟩
  · cases hagain.symm.trans hnone
  · cases hagain.symm.trans hsome
    -- neither lookup of the asset touches the read cache of verifier strings
    have hlru : (getAssetMetaDataIfExists g { v with lru := lru }
        r.reissue.strName).2.passetsVerifierCache = v.lru.passetsVerifierCache := by
      have hfirst := getAssetMetaDataIfExists_verifierCache g v r.reissue.strName
      rw [hmeta] at hfirst
      exact (getAssetMetaDataIfExists_verifierCache g _ _).trans hfirst
    have hdata : (v.cache.mapReissuedAssetData.insert r.reissue.strName
        (asset.reissued r.reissue)).lookup asset.strName = some (asset.reissued r.reissue) := by
      rw [hname, StdMap.lookup_assign, if_pos rfl]
    unfold BlockReissue.connect
    rw [hmeta]
    dsimp only [Option.map_some, Option.getD_some]
    rw [hadd]
    cases hverifier : r.verifier with
    | none => exact ⟨⟨hdata, by rw [hverifier], fun _ => hlru⟩, rfl⟩
    | some verifier =>
        refine ⟨⟨hdata, by rw [hverifier]; rfl, fun h => by rw [hverifier] at h; cases h⟩, ?_⟩
        refine congrArg (fun old => undoEntry r.reissue asset (some (Option.getD old {}).verifier_string))
          (getAssetVerifierStringIfExists_congr asset.strName ?_ ?_ rfl)
        · rfl
        · exact hlru

/-- The first verifier string that reissues change is the one the view keeps. -/
theorem find?_foldl_add (name : StdString) (verifiers : List StdString)
    (p : Pending CAssetCacheRestrictedVerifiers.assetName) (h : p.toRemove.find? name = none) :
    (verifiers.foldl (fun p w => p.add ⟨name, w, false⟩) p).toAdd.find? name =
        (p.toAdd.find? name).or (verifiers.head?.map (⟨name, ·, false⟩)) ∧
      (verifiers.foldl (fun p w => p.add ⟨name, w, false⟩) p).toRemove.find? name = none := by
  induction verifiers generalizing p with
  | nil => exact ⟨by simp, h⟩
  | cons w verifiers ih =>
      obtain ⟨hadd, hremove⟩ := ih (p.add ⟨name, w, false⟩) (by simp [StdSet.find?_erase])
      refine ⟨?_, hremove⟩
      rw [List.foldl_cons, hadd]
      cases hfind : p.toAdd.find? name <;> simp [StdSet.find?_insert, hfind]

/-- What connecting the reissues of an asset leaves in the view. -/
structure ConnectedAll (v : View) (asset : CNewAsset) (rs : List BlockReissue) (v' : View) : Prop where
  data : v'.cache.mapReissuedAssetData.lookup asset.strName = some (reissuedBy asset rs)
  verifiers : v'.cache.setNewRestrictedVerifier = (rs.filterMap BlockReissue.verifier).foldl
    (fun p w => p.add ⟨asset.strName, w, false⟩) v.cache.setNewRestrictedVerifier
  verifierCache : rs.findSome? BlockReissue.verifier = none →
    v'.lru.passetsVerifierCache = v.lru.passetsVerifierCache

theorem ConnectedAll.cons {v v' v'' : View} {asset : CNewAsset} {r : BlockReissue}
    {rs : List BlockReissue} (hstep : Connected v asset r v')
    (hrest : ConnectedAll v' (asset.reissued r.reissue) rs v'') :
    ConnectedAll v asset (r :: rs) v'' where
  data := hrest.data
  verifiers := by
    rw [hrest.verifiers, hstep.verifiers]
    cases hverifier : r.verifier <;> simp [hverifier, CNewAsset.reissued]
  verifierCache := by
    intro hnone
    rw [List.findSome?_cons] at hnone
    cases hverifier : r.verifier with
    | some verifier => rw [hverifier] at hnone; cases hnone
    | none =>
        rw [hverifier] at hnone
        exact (hrest.verifierCache hnone).trans (hstep.verifierCache hverifier)

/-- A run of reissues over data that the view has. -/
theorem connectReissues_spec {v : View} {asset : CNewAsset}
    (hdata : v.cache.mapReissuedAssetData.lookup asset.strName = some asset) (rs : List BlockReissue)
    (hnames : ∀ r ∈ rs, r.reissue.strName = asset.strName) :
    ConnectedAll v asset rs (connectReissues g v rs).1 := by
  induction rs generalizing v asset with
  | nil => exact ⟨hdata, rfl, fun _ => rfl⟩
  | cons r rs ih =>
      have hasset : (getAssetMetaDataIfExists g v asset.strName).1 = some (asset, none) := by
        rw [getAssetMetaDataIfExists_of_reissued g v hdata]
      obtain ⟨hstep, -⟩ := r.connect_spec g hasset (hnames r (by simp))
      exact ConnectedAll.cons hstep (ih hstep.data (fun r' hr' => hnames r' (List.mem_cons_of_mem _ hr')))

/-- The first reissue finds the asset as it was, and its entry is the first. -/
theorem connectReissues_cons_spec {v : View} {asset : CNewAsset} {height : Option (Int × UInt256)}
    (hasset : (getAssetMetaDataIfExists g v asset.strName).1 = some (asset, height))
    (first : BlockReissue) (rest : List BlockReissue)
    (hnames : ∀ r ∈ first :: rest, r.reissue.strName = asset.strName) :
    ConnectedAll v asset (first :: rest) (connectReissues g v (first :: rest)).1 ∧
      (connectReissues g v (first :: rest)).2.head? =
        some (undoEntry first.reissue asset (first.verifier.map fun _ =>
          ((getAssetVerifierStringIfExists g v asset.strName).1.getD {}).verifier_string)) := by
  obtain ⟨hstep, hentry⟩ := first.connect_spec g hasset (hnames first (by simp))
  refine ⟨ConnectedAll.cons hstep (connectReissues_spec g hstep.data rest
    (fun r' hr' => hnames r' (List.mem_cons_of_mem _ hr'))), ?_⟩
  rw [← hentry]
  rfl

end Connect

/-! ## Undoing -/

section Undo

variable (g : Globals) {vUndoIPFS : List (StdString × CBlockAssetUndo)} {asset : CNewAsset}
  {item : CBlockAssetUndo}

/-- The pending verifier strings after an undo with the item. -/
def undoneVerifiers (item : CBlockAssetUndo) (name : StdString)
    (p : Pending CAssetCacheRestrictedVerifiers.assetName) :
    Pending CAssetCacheRestrictedVerifiers.assetName :=
  if item.fChangedVerifierString then p.remove ⟨name, item.verifierString, true⟩ else p

/-- What undoing reissues of an asset leaves in the view. -/
structure Undone (item : CBlockAssetUndo) (v : View) (asset : CNewAsset) (rs : List BlockReissue)
    (v' : View) : Prop where
  data : reissuedData g v' asset.strName = some (unreissuedBy item asset rs)
  verifiers : v'.cache.setNewRestrictedVerifier =
    (undoneVerifiers item asset.strName)^[rs.length] v.cache.setNewRestrictedVerifier
  lru : v'.lru = v.lru

theorem removeReissueAsset_undone {v : View} (hdata : reissuedData g v asset.strName = some asset)
    (hitem : undoItemOf vUndoIPFS asset.strName = some item) (r : BlockReissue)
    (hname : r.reissue.strName = asset.strName) :
    Undone g item v asset [r]
      (removeReissueAsset g v r.reissue r.address r.out vUndoIPFS).2 := by
  have hmeta : getAssetMetaDataIfExists g v r.reissue.strName = (some (asset, none), v.lru) := by
    rw [hname, getAssetMetaDataIfExists_eq, show (v.cache.mapReissuedAssetData.lookup asset.strName).or
      (g.passets.mapReissuedAssetData.lookup asset.strName) = some asset from hdata]
  rcases removeReissueAsset_cases g v r.reissue r.address r.out vUndoIPFS with
    ⟨hnone, -⟩ | ⟨_, _, hsome, ok, m, hremove⟩
  · rw [hmeta] at hnone
    cases hnone
  · rw [hmeta] at hsome
    cases hsome
    rw [hremove, hmeta, hname, hitem]
    refine ⟨?_, ?_, rfl⟩
    · have hlook : (v.cache.mapReissuedAssetData.insert asset.strName
          (asset.unreissued r.reissue (some item))).lookup asset.strName =
          some (asset.unreissued r.reissue (some item)) := by
        rw [StdMap.lookup_assign, if_pos rfl]
      unfold undoVerifier reissuedData
      by_cases hchanged : item.fChangedVerifierString = true <;>
        simp [hchanged, removeRestrictedVerifier, hlook, unreissuedBy]
    · unfold undoVerifier
      by_cases hchanged : item.fChangedVerifierString = true <;>
        simp [hchanged, removeRestrictedVerifier, undoneVerifiers]

/-- **A run of undos** takes every reissue back with the one item. -/
theorem undoReissues_undone {v : View} (hdata : reissuedData g v asset.strName = some asset)
    (hitem : undoItemOf vUndoIPFS asset.strName = some item) (rs : List BlockReissue)
    (hnames : ∀ r ∈ rs, r.reissue.strName = asset.strName) :
    Undone g item v asset rs (undoReissues g vUndoIPFS v rs) := by
  induction rs generalizing v asset with
  | nil => exact ⟨hdata, rfl, rfl⟩
  | cons r rs ih =>
      have hstep := removeReissueAsset_undone g hdata hitem r (hnames r (by simp))
      have hname : (asset.unreissued r.reissue (some item)).strName = asset.strName :=
        unreissued_strName _ _ _
      have hrest : Undone g item _ (asset.unreissued r.reissue (some item)) rs
          (undoReissues g vUndoIPFS v (r :: rs)) :=
        ih (by rw [hname]; exact hstep.data) (by rw [hname]; exact hitem)
          (fun r' hr' => by rw [hname]; exact hnames r' (List.mem_cons_of_mem _ hr'))
      refine ⟨?_, ?_, hrest.lru.trans hstep.lru⟩
      · rw [← hname]
        exact hrest.data
      · have hverifiers := hrest.verifiers
        rw [hname, hstep.verifiers] at hverifiers
        exact hverifiers

/-- The view keeps the string of the item, however often it is put back. -/
theorem find?_undoneVerifiers (hchanged : item.fChangedVerifierString = true) (name : StdString)
    (n : Nat) : ((undoneVerifiers item name)^[n + 1] ∅).toRemove.find? name =
      some ⟨name, item.verifierString, true⟩ := by
  induction n with
  | zero => simp [undoneVerifiers, hchanged, StdSet.find?_insert]
  | succ n ih =>
      rw [Function.iterate_succ_apply', undoneVerifiers, if_pos hchanged, Pending.remove_toRemove,
        StdSet.find?_insert, if_pos rfl, ih]
      rfl

end Undo

/-! ## The whole block -/

section Block

variable (g : Globals) (lru : LRUCaches) {asset : CNewAsset} {height : Option (Int × UInt256)}
  (first : BlockReissue) (rest : List BlockReissue)
  {vUndoIPFS : List (StdString × CBlockAssetUndo)}

/-- The verifier string before the block. -/
def verifierBefore (name : StdString) : Option CNullAssetTxVerifierString :=
  (getAssetVerifierStringIfExists g ⟨{}, lru⟩ name).1

/-- The item that every undo of the block uses. -/
def firstItem (asset : CNewAsset) : CBlockAssetUndo :=
  (undoEntry first.reissue asset (first.verifier.map fun _ =>
    ((verifierBefore g lru asset.strName).getD {}).verifier_string)).2

/-- **What the first undo entry can set back**: the values that the first reissue changes are restored
from it, and what it does not change must be as before when the block ends. -/
structure FirstEntrySuffices (asset : CNewAsset) : Prop where
  reissuable : asset.nReissuable = 1
  units : first.reissue.nUnits ≠ -1 ∨ (reissuedBy asset (first :: rest)).units = asset.units
  hash : first.reissue.strIPFSHash ≠ [] ∨
    (reissuedBy asset (first :: rest)).strIPFSHash = asset.strIPFSHash
  verifier : match first.verifier with
    | some _ => (verifierBefore g lru asset.strName).isSome
    | none => ∀ verifier, rest.findSome? BlockReissue.verifier = some verifier →
        verifierBefore g lru asset.strName = some ⟨verifier⟩

/-- The undo of the block, by what connecting the block has left. -/
theorem undoneReissues_undone
    (hasset : (getAssetMetaDataIfExists g ⟨{}, lru⟩ asset.strName).1 = some (asset, height))
    (hnames : ∀ r ∈ first :: rest, r.reissue.strName = asset.strName)
    (hundo : vUndoIPFS.filter (fun item => item.1 == asset.strName) =
      (connectReissues g ⟨{}, lru⟩ (first :: rest)).2) :
    Undone (afterReissues g lru (first :: rest)).1 (firstItem g lru first asset)
      ⟨{}, (afterReissues g lru (first :: rest)).2⟩ (reissuedBy asset (first :: rest))
      (first :: rest).reverse (undoneReissues g lru vUndoIPFS (first :: rest)) := by
  obtain ⟨hall, hhead⟩ := connectReissues_cons_spec g hasset first rest hnames
  have hname := strName_reissuedBy asset (first :: rest)
  refine undoReissues_undone _ ?_ ?_ _ (fun r hr => ?_)
  · rw [hname, reissuedData, afterReissues]
    show Option.or none ((StdMap.assignAll _ _).lookup asset.strName) = _
    rw [StdMap.lookup_assignAll, hall.data]
    rfl
  · rw [hname, undoItemOf, ← List.head?_filter, hundo, hhead]
    rfl
  · rw [hname]
    exact hnames r (List.mem_reverse.mp hr)

/-- The verifier string after the block: the first one it changes to, or the one before. -/
theorem verifier_afterReissues {rs : List BlockReissue}
    (hall : ConnectedAll ⟨{}, lru⟩ asset rs (connectReissues g ⟨{}, lru⟩ rs).1) :
    (getAssetVerifierStringIfExists (afterReissues g lru rs).1 ⟨{}, (afterReissues g lru rs).2⟩
      asset.strName).1 = ((rs.findSome? BlockReissue.verifier).map (⟨·⟩)).or
        (verifierBefore g lru asset.strName) := by
  generalize hview : (connectReissues g ⟨{}, lru⟩ rs).1 = view at hall
  obtain ⟨hadd, hremove⟩ : view.cache.setNewRestrictedVerifier.toAdd.find? asset.strName =
        (rs.findSome? BlockReissue.verifier).map (⟨asset.strName, ·, false⟩) ∧
      view.cache.setNewRestrictedVerifier.toRemove.find? asset.strName = none := by
    rw [hall.verifiers, ← List.head?_filterMap]
    exact find?_foldl_add asset.strName (rs.filterMap BlockReissue.verifier) ∅ rfl
  have hmergedRemove := Pending.mergeOver_toRemove g.passets.setNewRestrictedVerifier
    view.cache.setNewRestrictedVerifier asset.strName
  have hmergedAdd := Pending.mergeOver_toAdd g.passets.setNewRestrictedVerifier
    view.cache.setNewRestrictedVerifier asset.strName
  rw [StdSet.contains, hadd, hremove] at hmergedRemove
  rw [StdSet.contains, hadd, hremove] at hmergedAdd
  have hlayered : Pending.layered false ∅ (Pending.mergeOver g.passets.setNewRestrictedVerifier
      view.cache.setNewRestrictedVerifier) asset.strName =
      ((rs.findSome? BlockReissue.verifier).map (fun w => .added ⟨asset.strName, w, false⟩)).or
        (Pending.layered false ∅ g.passets.setNewRestrictedVerifier asset.strName) := by
    unfold Pending.layered
    rw [hmergedRemove, hmergedAdd]
    cases rs.findSome? BlockReissue.verifier <;> simp
  cases hfind : rs.findSome? BlockReissue.verifier with
  | some verifier =>
      rw [hfind] at hlayered
      unfold getAssetVerifierStringIfExists afterReissues
      rw [hview]
      simp only [Globals.flush, CAssetsCache.flush, hlayered, Option.map_some, Option.some_or]
  | none =>
      rw [hfind] at hlayered
      refine getAssetVerifierStringIfExists_congr asset.strName ?_ ?_ rfl
      · rw [afterReissues, hview]
        exact hlayered
      · rw [afterReissues, hview]
        exact hall.verifierCache hfind

/-- The verifier string after the undo: that of the first entry, or the first one of the block, or the one
before the block. -/
theorem verifier_undoneReissues
    (hasset : (getAssetMetaDataIfExists g ⟨{}, lru⟩ asset.strName).1 = some (asset, height))
    (hnames : ∀ r ∈ first :: rest, r.reissue.strName = asset.strName)
    (hundo : vUndoIPFS.filter (fun item => item.1 == asset.strName) =
      (connectReissues g ⟨{}, lru⟩ (first :: rest)).2) :
    (getAssetVerifierStringIfExists (afterReissues g lru (first :: rest)).1
      (undoneReissues g lru vUndoIPFS (first :: rest)) asset.strName).1 =
      match first.verifier with
      | some _ => some ((verifierBefore g lru asset.strName).getD {})
      | none => ((rest.findSome? BlockReissue.verifier).map (⟨·⟩)).or
          (verifierBefore g lru asset.strName) := by
  have hundone := undoneReissues_undone g lru first rest hasset hnames hundo
  obtain ⟨hall, -⟩ := connectReissues_cons_spec g hasset first rest hnames
  have hset := hundone.verifiers
  rw [strName_reissuedBy] at hset
  cases hverifier : first.verifier with
  | some verifier =>
      have hchanged : (firstItem g lru first asset).fChangedVerifierString = true := by
        simp [firstItem, undoEntry, hverifier]
      have hstring : (firstItem g lru first asset).verifierString =
          ((verifierBefore g lru asset.strName).getD {}).verifier_string := by
        simp [firstItem, undoEntry, hverifier]
      have hfind := find?_undoneVerifiers hchanged asset.strName rest.length
      rw [List.length_reverse, List.length_cons] at hset
      rw [← show _ = (undoneVerifiers (firstItem g lru first asset) asset.strName)^[rest.length + 1] ∅
        from hset] at hfind
      unfold getAssetVerifierStringIfExists
      rw [Pending.layered_of_toRemove hfind, hstring]
      rfl
  | none =>
      have hchanged : (firstItem g lru first asset).fChangedVerifierString = false := by
        simp [firstItem, undoEntry, hverifier]
      have hid : undoneVerifiers (firstItem g lru first asset) asset.strName = id := by
        funext p
        simp [undoneVerifiers, hchanged]
      rw [hid, Function.iterate_id] at hset
      have hafter := verifier_afterReissues g lru hall
      rw [List.findSome?_cons, hverifier] at hafter
      rw [← hafter]
      refine getAssetVerifierStringIfExists_congr asset.strName ?_ (congrArg _ hundone.lru) rfl
      rw [hset]
      rfl

/-- **The block's values are restored exactly when its first undo entry suffices.** -/
theorem restored_iff
    (hasset : (getAssetMetaDataIfExists g ⟨{}, lru⟩ asset.strName).1 = some (asset, height))
    (hnames : ∀ r ∈ first :: rest, r.reissue.strName = asset.strName)
    (hundo : vUndoIPFS.filter (fun item => item.1 == asset.strName) =
      (connectReissues g ⟨{}, lru⟩ (first :: rest)).2) :
    SameValues asset.strName g ⟨{}, lru⟩ (afterReissues g lru (first :: rest)).1
        (undoneReissues g lru vUndoIPFS (first :: rest)) ↔
      FirstEntrySuffices g lru first rest asset := by
  have hundone := undoneReissues_undone g lru first rest hasset hnames hundo
  have hverifier := verifier_undoneReissues g lru first rest hasset hnames hundo
  have hamount := nAmount_unreissuedBy (firstItem g lru first asset) asset (first :: rest)
  obtain ⟨hunits, hhash, hreissuable⟩ := kept_unreissuedBy (firstItem g lru first asset)
    (reissuedBy asset (first :: rest)) rest.reverse first
  rw [← List.reverse_cons] at hunits hhash hreissuable
  generalize hdata : unreissuedBy (firstItem g lru first asset) (reissuedBy asset (first :: rest))
    (first :: rest).reverse = data at *
  have hbefore : (getAssetMetaDataIfExists g ⟨{}, lru⟩ asset.strName).1.map Prod.fst = some asset := by
    rw [hasset]
    rfl
  have hafter : (getAssetMetaDataIfExists (afterReissues g lru (first :: rest)).1
      (undoneReissues g lru vUndoIPFS (first :: rest)) asset.strName).1.map Prod.fst = some data := by
    have hfound := hundone.data
    rw [strName_reissuedBy, hdata, reissuedData] at hfound
    rw [getAssetMetaDataIfExists_eq, hfound]
    rfl
  have hunits_iff : data.units = asset.units ↔ first.reissue.nUnits ≠ -1 ∨
      (reissuedBy asset (first :: rest)).units = asset.units := by
    rw [hunits]
    by_cases hset : first.reissue.nUnits = -1 <;> simp [firstItem, undoEntry, hset]
  have hhash_iff : data.strIPFSHash = asset.strIPFSHash ↔ first.reissue.strIPFSHash ≠ [] ∨
      (reissuedBy asset (first :: rest)).strIPFSHash = asset.strIPFSHash := by
    rw [hhash]
    by_cases hset : first.reissue.strIPFSHash = [] <;> simp [firstItem, undoEntry, hset]
  have hverifier_iff : (getAssetVerifierStringIfExists (afterReissues g lru (first :: rest)).1
      (undoneReissues g lru vUndoIPFS (first :: rest)) asset.strName).1 =
      verifierBefore g lru asset.strName ↔ (match first.verifier with
        | some _ => (verifierBefore g lru asset.strName).isSome
        | none => ∀ verifier, rest.findSome? BlockReissue.verifier = some verifier →
            verifierBefore g lru asset.strName = some ⟨verifier⟩) := by
    rw [hverifier]
    cases first.verifier with
    | some verifier => cases verifierBefore g lru asset.strName <;> simp
    | none => cases rest.findSome? BlockReissue.verifier <;> simp [eq_comm]
  constructor
  · rintro ⟨old, new, hold, hnew, -, hu, hh, hr, hv⟩
    obtain rfl : asset = old := Option.some.inj (hbefore.symm.trans hold)
    obtain rfl : data = new := Option.some.inj (hafter.symm.trans hnew)
    exact ⟨hr.symm.trans hreissuable, hunits_iff.mp hu, hhash_iff.mp hh, hverifier_iff.mp hv⟩
  · intro h
    exact ⟨asset, data, hbefore, hafter, hamount, hunits_iff.mpr h.units, hhash_iff.mpr h.hash,
      hreissuable.trans h.reissuable.symm, hverifier_iff.mpr h.verifier⟩

end Block

def plainCoin : CNewAsset := { strName := bytes "COIN", nAmount := 1000, units := 0, nReissuable := 1 }

/-- A node whose database has the asset `COIN`. -/
def coinNode : Globals := { passetsdb := { assetData := StdSet.insert ∅ ⟨plainCoin, 1, 7⟩ } }

def reissueCoin (nUnits : Int8) (strIPFSHash : StdString) (n : UInt32) : BlockReissue :=
  ⟨⟨bytes "COIN", 5, nUnits, 1, strIPFSHash⟩, bytes "address", ⟨3, n⟩, none⟩

/-- Two reissues that change the units. -/
def twoUnits : List BlockReissue := [reissueCoin 2 [] 0, reissueCoin 4 [] 1]

theorem restored_units_first :
    SameValues (bytes "COIN") coinNode ⟨{}, {}⟩ (afterReissues coinNode {} twoUnits).1
      (undoneReissues coinNode {} (connectReissues coinNode ⟨{}, {}⟩ twoUnits).2 twoUnits) :=
  (@restored_iff coinNode {} plainCoin (some (1, 7)) (reissueCoin 2 [] 0) [reissueCoin 4 [] 1] _ rfl
    (by decide) (by decide)).mpr
    ⟨by decide, Or.inl (by decide), Or.inr (by decide), fun _ h => by cases h⟩

def sampleHash : StdString := [0x12, 0x20] ++ List.replicate 32 7

/-- A reissue that changes the hash, then one that changes the units. -/
def hashThenUnits : List BlockReissue := [reissueCoin (-1) sampleHash 0, reissueCoin 4 [] 1]

/-- The first reissue keeps the units and the second changes them: the undo leaves them changed. -/
theorem not_restored_units_second :
    (connectReissues coinNode ⟨{}, {}⟩ hashThenUnits).2 =
        [(bytes "COIN", { fChangedIPFS := true, nUnits := 0 }),
          (bytes "COIN", { fChangedUnits := true, strIPFS := sampleHash, nUnits := 0 })] ∧
      ¬ SameValues (bytes "COIN") coinNode ⟨{}, {}⟩ (afterReissues coinNode {} hashThenUnits).1
        (undoneReissues coinNode {} (connectReissues coinNode ⟨{}, {}⟩ hashThenUnits).2 hashThenUnits) := by
  refine ⟨by decide, ?_⟩
  rintro ⟨old, new, hold, hnew, -, hunits, -⟩
  have hbefore : ((getAssetMetaDataIfExists coinNode ⟨{}, {}⟩ (bytes "COIN")).1.map Prod.fst).map
      CNewAsset.units = some 0 := by decide
  have hafter : ((getAssetMetaDataIfExists (afterReissues coinNode {} hashThenUnits).1
      (undoneReissues coinNode {} (connectReissues coinNode ⟨{}, {}⟩ hashThenUnits).2 hashThenUnits)
      (bytes "COIN")).1.map Prod.fst).map CNewAsset.units = some 4 := by decide
  rw [hold, Option.map_some, Option.some.injEq] at hbefore
  rw [hnew, Option.map_some, Option.some.injEq] at hafter
  rw [hbefore, hafter] at hunits
  exact absurd hunits (by decide)

end RavenCash
