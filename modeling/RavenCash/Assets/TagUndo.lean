import RavenCash.Assets.Flush

/-!
# Undoing tags and restrictions

A change of a tag, a restriction or a global restriction writes one pending entry, and undoing it writes
the opposite one, so the query of the changed status is answered as before. A tag of a sub qualifier is
also recorded in the root qualifier map of its address. The undo leaves the name out of that map, or in
it, whether the map had it before or not; so the map has to say what the status says, or something below
the view has to answer for the root qualifier (`RootSettled`).

That every view of a node is settled is shown in `Assets/TagRun`.
-/

set_option autoImplicit false

namespace RavenCash

/-! ## One pending entry -/

section Entry

variable {α K : Type} [DecidableEq K] {key : α → K}

/-- A change and its undo leave the other lookups as they are. -/
theorem layered_undone_ne (v p : Pending key) (a : α) {k : K} (hk : k ≠ key a) (skip : Bool) :
    Pending.layered skip ((v.addOver a).removeOver a) p k = Pending.layered skip v p k := by
  simp [Pending.layered, StdSet.find?_overwrite, StdSet.find?_erase, hk]

theorem layered_undone_self (v p : Pending key) (a : α) :
    Pending.layered false ((v.addOver a).removeOver a) p (key a) = some (.removed a) :=
  Pending.layered_of_toRemove (by simp [StdSet.find?_overwrite])

/-- The answer to a query: from the pending entry, or from what is below. -/
def answer (onRemoved onAdded : α → Bool) (below : Bool) (hit : Option (Pending.Hit α)) : Bool :=
  match hit with
  | some (.removed a) => onRemoved a
  | some (.added a) => onAdded a
  | none => below

/-- **An undone change leaves the answers as they are**, when its undo gives the answer from before. -/
theorem answer_undone {onRemoved onAdded : α → Bool} (below : K → Bool) {v p : Pending key} (a : α)
    (h : answer onRemoved onAdded (below (key a)) (Pending.layered false v p (key a)) = onRemoved a)
    (k : K) (skip : Bool) :
    answer onRemoved onAdded (below k) (Pending.layered skip ((v.addOver a).removeOver a) p k) =
      answer onRemoved onAdded (below k) (Pending.layered skip v p k) := by
  by_cases hk : k = key a
  · subst hk
    cases skip with
    | true => rfl
    | false => rw [layered_undone_self, h, answer]
  · rw [layered_undone_ne v p a hk skip]

end Entry

/-! ## Changes -/

/-- A change of status in the null data of a block: the flag sets it or takes it back. -/
inductive TagChange where
  | qualifier (name address : StdString) (flag : Bool)
  | restriction (name address : StdString) (flag : Bool)
  | global (name : StdString) (flag : Bool)
deriving DecidableEq, Repr

namespace TagChange

/-- What `ConnectBlock` calls. -/
def connect (cache : CAssetsCache) : TagChange → CAssetsCache
  | qualifier name address flag =>
      addQualifierAddress cache name address (if flag then .ADD_QUALIFIER else .REMOVE_QUALIFIER)
  | restriction name address flag =>
      addRestrictedAddress cache name address (if flag then .FREEZE_ADDRESS else .UNFREEZE_ADDRESS)
  | global name flag =>
      addGlobalRestricted cache name (if flag then .GLOBAL_FREEZE else .GLOBAL_UNFREEZE)

/-- What `DisconnectBlock` calls. -/
def disconnect (cache : CAssetsCache) : TagChange → CAssetsCache
  | qualifier name address flag =>
      removeQualifierAddress cache name address (if flag then .ADD_QUALIFIER else .REMOVE_QUALIFIER)
  | restriction name address flag =>
      removeRestrictedAddress cache name address (if flag then .FREEZE_ADDRESS else .UNFREEZE_ADDRESS)
  | global name flag =>
      removeGlobalRestricted cache name (if flag then .GLOBAL_FREEZE else .GLOBAL_UNFREEZE)

def flag : TagChange → Bool
  | qualifier _ _ flag => flag
  | restriction _ _ flag => flag
  | global _ flag => flag

variable [NodeCrypto]

/-- The status the change is about. -/
def status (g : Globals) (v : View) : TagChange → Bool
  | qualifier name address _ => (checkForAddressQualifier g v name address).1
  | restriction name address _ => (checkForAddressRestriction g v name address).1
  | global name _ => (checkForGlobalRestriction g v name).1

/-- The view after the change and its undo. -/
def undone (v : View) (change : TagChange) : View :=
  ⟨change.disconnect (change.connect v.cache), v.lru⟩

end TagChange

section

variable [NodeCrypto]

/-- The queries of tags and restrictions are answered alike. -/
structure SameStatus (g : Globals) (v v' : View) : Prop where
  qualifier : ∀ name address skip, (checkForAddressQualifier g v' name address skip).1 =
    (checkForAddressQualifier g v name address skip).1
  restriction : ∀ name address skip, (checkForAddressRestriction g v' name address skip).1 =
    (checkForAddressRestriction g v name address skip).1
  global : ∀ name skip, (checkForGlobalRestriction g v' name skip).1 =
    (checkForGlobalRestriction g v name skip).1

/-! ## Tags -/

/-- What answers for a tag below the pending entries and the root qualifiers of the view. -/
def taggedBelow (g : Globals) (lru : LRUCaches) (name address : StdString) : Bool :=
  hasRootQualifier g.passets.mapRootQualifierAddressesAdd ⟨name, address⟩ ||
    lru.passetsQualifierCache.contains (addressTagHash name address) ||
    (g.prestricteddb.addressQualifier.lookup (address, name)).isSome ||
    g.prestricteddb.checkForAddressRootQualifier address name

theorem checkForAddressQualifier_fst (g : Globals) (v : View) (name address : StdString)
    (skip : Bool) : (checkForAddressQualifier g v name address skip).1 =
      answer (·.type == .REMOVE_QUALIFIER) (·.type == .ADD_QUALIFIER)
        ((!skip && hasRootQualifier v.cache.mapRootQualifierAddressesAdd ⟨name, address⟩) ||
          taggedBelow g v.lru name address)
        (Pending.layered skip v.cache.setNewQualifierAddress g.passets.setNewQualifierAddress
          (name, address)) := by
  unfold checkForAddressQualifier taggedBelow
  cases Pending.layered skip v.cache.setNewQualifierAddress g.passets.setNewQualifierAddress
    (name, address) with
  | some hit => cases hit <;> rfl
  | none => split_ifs <;> simp_all [answer]

theorem checkForAddressRestriction_fst (g : Globals) (v : View) (name address : StdString)
    (skip : Bool) : (checkForAddressRestriction g v name address skip).1 =
      answer (·.type == .UNFREEZE_ADDRESS) (·.type == .FREEZE_ADDRESS)
        (v.lru.passetsRestrictionCache.contains (addressTagHash name address) ||
          (g.prestricteddb.restrictedAddress.lookup (address, name)).isSome)
        (Pending.layered skip v.cache.setNewRestrictedAddress g.passets.setNewRestrictedAddress
          (name, address)) := by
  unfold checkForAddressRestriction
  cases Pending.layered skip v.cache.setNewRestrictedAddress g.passets.setNewRestrictedAddress
    (name, address) with
  | some hit => cases hit <;> rfl
  | none => split_ifs <;> simp_all [answer]

omit [NodeCrypto] in
theorem checkForGlobalRestriction_fst (g : Globals) (v : View) (name : StdString) (skip : Bool) :
    (checkForGlobalRestriction g v name skip).1 =
      answer (·.type == .GLOBAL_UNFREEZE) (·.type == .GLOBAL_FREEZE)
        (v.lru.passetsGlobalRestrictionCache.contains name ||
          (g.prestricteddb.globalRestriction.lookup name).isSome)
        (Pending.layered skip v.cache.setNewRestrictedGlobal g.passets.setNewRestrictedGlobal
          name) := by
  unfold checkForGlobalRestriction
  cases Pending.layered skip v.cache.setNewRestrictedGlobal g.passets.setNewRestrictedGlobal name with
  | some hit => cases hit <;> rfl
  | none => split_ifs <;> simp_all [answer]

omit [NodeCrypto] in
theorem namesAt_erase (m : StdMap CAssetCacheRootQualifierChecker NameSet)
    (k key : CAssetCacheRootQualifierChecker) (a n : StdString) :
    (namesAt (eraseRootQualifier m k a) key).contains n =
      (!(decide (key = k) && decide (n = a)) && (namesAt m key).contains n) := by
  unfold namesAt eraseRootQualifier
  rw [StdMap.lookup_assign]
  by_cases hk : key = k
  · subst hk
    simp
  · simp [hk]

omit [NodeCrypto] in
/-- A mark of a sub qualifier puts its name into one map and takes it out of the other. -/
theorem namesAt_markRootQualifier (cache : CAssetsCache) (name address : StdString) (present : Bool)
    (key : CAssetCacheRootQualifierChecker) (n : StdString) :
    (namesAt (cache.markRootQualifier name address present).mapRootQualifierAddressesAdd key).contains n =
        (if isAssetNameASubQualifier name = true ∧ key = ⟨getParentName name, address⟩ ∧ n = name then present
        else (namesAt cache.mapRootQualifierAddressesAdd key).contains n) ∧
      (namesAt (cache.markRootQualifier name address present).mapRootQualifierAddressesRemove key).contains n =
        if isAssetNameASubQualifier name = true ∧ key = ⟨getParentName name, address⟩ ∧ n = name then !present
        else (namesAt cache.mapRootQualifierAddressesRemove key).contains n := by
  unfold CAssetsCache.markRootQualifier
  by_cases hsub : isAssetNameASubQualifier name = true
  · by_cases hkey : key = ⟨getParentName name, address⟩ ∧ n = name
    · cases present <;> simp [hsub, hkey.1, hkey.2, namesAt_erase, namesAt_insertRootQualifier]
    · have hnot : (decide (key = ⟨getParentName name, address⟩) && decide (n = name)) = false := by
        simpa using hkey
      cases present <;> simp [hsub, hkey, hnot, namesAt_erase, namesAt_insertRootQualifier]
  · simp [hsub]

/-- The name is in the root qualifier map of its address. -/
def markedIn (m : StdMap CAssetCacheRootQualifierChecker NameSet) (name address : StdString) : Bool :=
  (namesAt m ⟨getParentName name, address⟩).contains name

omit [NodeCrypto] in
theorem hasRootQualifier_of_markedIn {m : StdMap CAssetCacheRootQualifierChecker NameSet}
    {name address : StdString} (h : markedIn m name address = true) :
    hasRootQualifier m ⟨getParentName name, address⟩ = true :=
  (hasRootQualifier_iff m _).mpr ⟨name, h⟩

omit [NodeCrypto] in
/-- Where the map said what the undo leaves in it, the root qualifiers are as before. -/
theorem hasRootQualifier_undone (cache : CAssetsCache) (name address : StdString) (flag : Bool)
    (key : CAssetCacheRootQualifierChecker) (h : isAssetNameASubQualifier name = true →
      key = ⟨getParentName name, address⟩ → markedIn cache.mapRootQualifierAddressesAdd name address = !flag) :
    hasRootQualifier ((cache.markRootQualifier name address flag).markRootQualifier name address
      (!flag)).mapRootQualifierAddressesAdd key = hasRootQualifier cache.mapRootQualifierAddressesAdd key := by
  rw [Bool.eq_iff_iff, hasRootQualifier_iff, hasRootQualifier_iff]
  refine exists_congr fun n => ?_
  rw [(namesAt_markRootQualifier _ name address (!flag) key n).1,
    (namesAt_markRootQualifier cache name address flag key n).1]
  split_ifs with hmark
  · obtain ⟨hsub, hkey, rfl⟩ := hmark
    rw [← h hsub hkey, hkey]
    rfl
  · rfl

namespace TagChange

/-- Something below the view answers for the root qualifier of the tag, or the root qualifier map of the
view says what the undo says. -/
def RootSettled (g : Globals) (v : View) : TagChange → Prop
  | qualifier name address flag => isAssetNameASubQualifier name = true →
      taggedBelow g v.lru (getParentName name) address = true ∨
        markedIn v.cache.mapRootQualifierAddressesAdd name address = !flag
  | restriction _ _ _ => True
  | global _ _ => True

variable (g : Globals) (v : View) {name address : StdString} {flag : Bool}

/-- Undoing a change of a tag leaves the restrictions alone, and the other way round. -/
theorem restriction_undone (h : (checkForAddressRestriction g v name address).1 = !flag)
    (name' address' : StdString) (skip : Bool) :
    (checkForAddressRestriction g (undone v (restriction name address flag)) name' address' skip).1 =
      (checkForAddressRestriction g v name' address' skip).1 := by
  let entry : CAssetCacheRestrictedAddress :=
    ⟨name, address, if flag then .FREEZE_ADDRESS else .UNFREEZE_ADDRESS⟩
  have hentry : (!flag) = (entry.type == .UNFREEZE_ADDRESS) := by cases flag <;> rfl
  rw [checkForAddressRestriction_fst] at h ⊢
  rw [checkForAddressRestriction_fst]
  exact answer_undone (fun k => v.lru.passetsRestrictionCache.contains (addressTagHash k.1 k.2) ||
    (g.prestricteddb.restrictedAddress.lookup (k.2, k.1)).isSome) entry (h.trans hentry)
    (name', address') skip

omit [NodeCrypto] in
theorem global_undone (h : (checkForGlobalRestriction g v name).1 = !flag) (name' : StdString)
    (skip : Bool) : (checkForGlobalRestriction g (undone v (global name flag)) name' skip).1 =
      (checkForGlobalRestriction g v name' skip).1 := by
  let entry : CAssetCacheRestrictedGlobal :=
    ⟨name, if flag then .GLOBAL_FREEZE else .GLOBAL_UNFREEZE⟩
  have hentry : (!flag) = (entry.type == .GLOBAL_UNFREEZE) := by cases flag <;> rfl
  rw [checkForGlobalRestriction_fst] at h ⊢
  rw [checkForGlobalRestriction_fst]
  exact answer_undone (fun name => v.lru.passetsGlobalRestrictionCache.contains name ||
    (g.prestricteddb.globalRestriction.lookup name).isSome) entry (h.trans hentry) name' skip

omit [NodeCrypto] in
/-- What a change of a tag and its undo write. -/
theorem qualifier_undone_cache (name address : StdString) (flag : Bool) :
    (undone v (qualifier name address flag)).cache.setNewQualifierAddress =
      (v.cache.setNewQualifierAddress.addOver
        ⟨name, address, if flag then .ADD_QUALIFIER else .REMOVE_QUALIFIER⟩).removeOver
          ⟨name, address, if flag then .ADD_QUALIFIER else .REMOVE_QUALIFIER⟩ ∧
    (undone v (qualifier name address flag)).cache.mapRootQualifierAddressesAdd =
      ((v.cache.markRootQualifier name address flag).markRootQualifier name address
        (!flag)).mapRootQualifierAddressesAdd ∧
    (undone v (qualifier name address flag)).cache.setNewRestrictedAddress =
      v.cache.setNewRestrictedAddress ∧
    (undone v (qualifier name address flag)).cache.setNewRestrictedGlobal =
      v.cache.setNewRestrictedGlobal := by
  unfold undone connect disconnect addQualifierAddress removeQualifierAddress
    CAssetsCache.markRootQualifier
  by_cases hsub : isAssetNameASubQualifier name = true
  · cases flag <;> simp [hsub]
  · simp [hsub]

/-- The tags that a change of a tag and its undo leave as they were. -/
theorem qualifier_undone (name address : StdString) (flag : Bool)
    (h : (checkForAddressQualifier g v name address).1 = !flag)
    (hroot : (qualifier name address flag).RootSettled g v) (name' address' : StdString) (skip : Bool) :
    (checkForAddressQualifier g (undone v (qualifier name address flag)) name' address' skip).1 =
      (checkForAddressQualifier g v name' address' skip).1 := by
  let entry : CAssetCacheQualifierAddress :=
    ⟨name, address, if flag then .ADD_QUALIFIER else .REMOVE_QUALIFIER⟩
  have hentry : (!flag) = (entry.type == .REMOVE_QUALIFIER) := by cases flag <;> rfl
  obtain ⟨hset, hmap, -, -⟩ := qualifier_undone_cache v name address flag
  rw [checkForAddressQualifier_fst] at h
  simp only [checkForAddressQualifier_fst, hset, hmap]
  cases skip with
  | true => rfl
  | false =>
    by_cases hkey : (name', address') = (name, address)
    · obtain ⟨rfl, rfl⟩ := Prod.mk.inj hkey
      rw [h]
      exact (congrArg (answer _ _ _) (layered_undone_self v.cache.setNewQualifierAddress
        g.passets.setNewQualifierAddress entry)).trans hentry.symm
    · rw [layered_undone_ne v.cache.setNewQualifierAddress _ entry hkey]
      cases Pending.layered false v.cache.setNewQualifierAddress g.passets.setNewQualifierAddress
          (name', address') with
      | some hit => cases hit <;> rfl
      | none =>
        simp only [answer, Bool.not_false, Bool.true_and]
        -- the root qualifiers of the view change only where something below is asked too
        by_cases hbelow : taggedBelow g v.lru name' address' = true
        · rw [show taggedBelow g (undone v (qualifier name address flag)).lru name' address' = true from hbelow,
            hbelow, Bool.or_true, Bool.or_true]
        · refine congrArg (· || _) (hasRootQualifier_undone v.cache name address flag _ fun hsub heq => ?_)
          obtain ⟨rfl, rfl⟩ := CAssetCacheRootQualifierChecker.mk.inj heq
          exact (hroot hsub).resolve_left hbelow

/-- **A change of status and its undo leave every status as it was**, when the root qualifier of the tag is
settled. -/
theorem sameStatus_undone (change : TagChange) (h : change.status g v = !change.flag)
    (hroot : change.RootSettled g v) : SameStatus g v (change.undone v) := by
  cases change with
  | qualifier name address flag =>
    obtain ⟨-, -, hrestricted, hglobal⟩ := qualifier_undone_cache v name address flag
    refine ⟨qualifier_undone g v name address flag h hroot, ?_, ?_⟩
    · intro name' address' skip
      rw [checkForAddressRestriction_fst, checkForAddressRestriction_fst, hrestricted]
      rfl
    · intro name' skip
      rw [checkForGlobalRestriction_fst, checkForGlobalRestriction_fst, hglobal]
      rfl
  | restriction name address flag => exact ⟨fun _ _ _ => rfl, restriction_undone g v h, fun _ _ => rfl⟩
  | global name flag => exact ⟨fun _ _ _ => rfl, fun _ _ _ => rfl, global_undone g v h⟩

end TagChange

end

end RavenCash
