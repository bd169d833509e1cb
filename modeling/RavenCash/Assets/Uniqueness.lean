import RavenCash.Assets.Flush

/-!
# One issuance per name

An asset added to a view should exist through that view until it is removed from it. It does exactly
when `passets` does not list its name as removed (`exists_until_removed_iff`): the removals of
`passets` are asked before the additions of the view.
-/

set_option autoImplicit false

namespace RavenCash

/-- The operation is the removal of the asset `name`. -/
def CacheOp.removesAsset (name : StdString) : CacheOp → Bool
  | .removeNewAsset asset _ => asset.strName == name
  | _ => false

/-- The view lists the asset as added, and not as removed. -/
def Listed (name : StdString) (c : CAssetsCache) : Prop :=
  c.setNewAssets.toAdd.contains name = true ∧ c.setNewAssets.toRemove.contains name = false

theorem listed_add (c : CAssetsCache) (a : CAssetCacheNewAsset) :
    (c.setNewAssets.add a).toAdd.contains a.name = true ∧
      (c.setNewAssets.add a).toRemove.contains a.name = false := by
  simp

theorem Listed.step {name : StdString} {g : Globals} {v : View} {op : CacheOp}
    (h : Listed name v.cache) (hop : op.removesAsset name = false) :
    Listed name (op.run g v).2.cache := by
  unfold Listed at *
  rcases (run_step g v op).assets with heq | ⟨asset, address, nHeight, blockHash, rfl, _, heq⟩ |
    ⟨asset, address, rfl, _, heq⟩ <;> rw [heq]
  · exact h
  · by_cases hn : name = asset.strName
    · subst hn
      exact listed_add v.cache ⟨asset, address, nHeight, blockHash⟩
    · simp [h.1, h.2]
  · have hn : asset.strName ≠ name := by
      simpa [CacheOp.removesAsset] using hop
    simp [Ne.symm hn, h.1, h.2]

theorem listed_runOps {name : StdString} {g : Globals} {v : View} (h : Listed name v.cache)
    (ops : List CacheOp) (hops : ∀ op ∈ ops, op.removesAsset name = false) :
    Listed name (runOps g v ops).cache :=
  runOps_induction g (P := fun v => Listed name v.cache)
    (A := fun op => op.removesAsset name = false) (fun _ _ hv hop => hv.step hop) ops v h hops

/-- A listed asset exists unless `passets` lists it as removed. -/
theorem checkIfAssetExists_of_listed {name : StdString} {g : Globals} {v : View}
    (h : Listed name v.cache) (hre : g.fReindex = false) :
    (checkIfAssetExists g v name).1 = !g.passets.setNewAssets.toRemove.contains name := by
  unfold checkIfAssetExists
  rw [hre, h.1, h.2]
  cases g.passets.setNewAssets.toRemove.contains name <;> rfl

theorem addNewAsset_fst (g : Globals) (v : View) (asset : CNewAsset) (address : StdString)
    (nHeight : Int) (blockHash : UInt256) :
    (addNewAsset g v asset address nHeight blockHash).1 =
      !(checkIfAssetExists g v asset.strName).1 := by
  rcases addNewAsset_cases g v asset address nHeight blockHash with ⟨hex, h⟩ | ⟨hne, m, h⟩
  · rw [h, hex]
    rfl
  · rw [h, hne]
    rfl

/-- A successful issuance lists its asset, and the node is not reindexing. -/
theorem listed_of_addNewAsset {g : Globals} {v : View} {asset : CNewAsset} {address : StdString}
    {nHeight : Int} {blockHash : UInt256}
    (h : (addNewAsset g v asset address nHeight blockHash).1 = true) :
    g.fReindex = false ∧
      Listed asset.strName (addNewAsset g v asset address nHeight blockHash).2.cache := by
  rcases addNewAsset_cases g v asset address nHeight blockHash with ⟨_, heq⟩ | ⟨hne, m, heq⟩
  · rw [heq] at h
    cases h
  · constructor
    · by_contra hre
      rw [Bool.not_eq_false] at hre
      simp [checkIfAssetExists, hre] at hne
    · rw [heq]
      exact listed_add v.cache ⟨asset, address, nHeight, blockHash⟩

/-- **An issued asset exists until it is removed, and cannot be issued again before, exactly when
`passets` does not list its name as removed.** -/
theorem exists_until_removed_iff (g : Globals) (v : View) (asset : CNewAsset) (address : StdString)
    (nHeight : Int) (blockHash : UInt256)
    (hadd : (addNewAsset g v asset address nHeight blockHash).1 = true) :
    (∀ ops : List CacheOp, (∀ op ∈ ops, op.removesAsset asset.strName = false) →
      (checkIfAssetExists g (runOps g (addNewAsset g v asset address nHeight blockHash).2 ops)
        asset.strName).1 = true ∧
      ∀ asset' address' nHeight' blockHash', asset'.strName = asset.strName →
        (addNewAsset g (runOps g (addNewAsset g v asset address nHeight blockHash).2 ops)
          asset' address' nHeight' blockHash').1 = false) ↔
    g.passets.setNewAssets.toRemove.contains asset.strName = false := by
  obtain ⟨hre, hlisted⟩ := listed_of_addNewAsset hadd
  constructor
  · intro h
    have hex := (h [] (by simp)).1
    rw [runOps_nil, checkIfAssetExists_of_listed hlisted hre] at hex
    simpa using hex
  · intro hrem ops hops
    have hex := checkIfAssetExists_of_listed (listed_runOps (g := g) hlisted ops hops) hre
    rw [hrem] at hex
    refine ⟨hex, fun asset' address' nHeight' blockHash' hname => ?_⟩
    rw [addNewAsset_fst, hname, hex]
    rfl

/-- An asset for the examples. -/
def someAsset : CNewAsset := { strName := bytes "COIN", nAmount := 1000, nReissuable := 1 }

theorem exists_until_removed_someAsset :
    (∀ ops : List CacheOp, (∀ op ∈ ops, op.removesAsset someAsset.strName = false) →
      (checkIfAssetExists {} (runOps {} (addNewAsset {} {} someAsset someAddress 7 1).2 ops)
        someAsset.strName).1 = true ∧
      ∀ asset' address' nHeight' blockHash', asset'.strName = someAsset.strName →
        (addNewAsset {} (runOps {} (addNewAsset {} {} someAsset someAddress 7 1).2 ops)
          asset' address' nHeight' blockHash').1 = false) ↔
    ({} : Globals).passets.setNewAssets.toRemove.contains someAsset.strName = false :=
  exists_until_removed_iff {} {} someAsset someAddress 7 1 (by decide)

/-- A node whose database holds `COIN`, and whose `passets` has taken it back. -/
def reorganised : Globals :=
  let g : Globals := { passetsdb := { assetData := StdSet.insert ∅ ⟨someAsset, 7, 1⟩ } }
  g.flush (removeNewAsset g {} someAsset someAddress).2.cache

/-- **`COIN` is issued twice in one view** after it was issued, undone and issued again. -/
theorem issued_twice_reorganised :
    (addNewAsset reorganised {} someAsset someAddress 8 2).1 = true ∧
    (checkIfAssetExists reorganised (addNewAsset reorganised {} someAsset someAddress 8 2).2
      someAsset.strName).1 = false ∧
    (addNewAsset reorganised (addNewAsset reorganised {} someAsset someAddress 8 2).2
      someAsset someAddress 8 2).1 = true := by
  decide

end RavenCash
