import RavenCash.Consensus.Merkle
import RavenCash.Evo.List

/-!
# Simplified smartnode lists

What a light client keeps of a smartnode list (`evo/simplifiedmns.h`), and the difference it is sent. A list is iterated
in an order of its own, here any injective `rank` of the keys; the entries are sorted by their hashes afterwards, which
are all different, so the order does not matter. The quorums and the coinbase of the difference are left out.
-/

set_option autoImplicit false

namespace RavenCash

/-- `CHash256` of two hashes one after the other. -/
def hashPair [NodeCrypto] (a b : UInt256) : UInt256 := NodeCrypto.hash (serializeUInt256 a ++ serializeUInt256 b)

namespace Evo

/-! ## Entries -/

structure CSimplifiedMNListEntry where
  proRegTxHash : UInt256
  confirmedHash : UInt256
  service : CService
  pubKeyOperator : CBLSPublicKey
  keyIDVoting : CKeyID
  isValid : Bool
deriving DecidableEq, Repr

namespace CSimplifiedMNListEntry

/-- `CSimplifiedMNListEntry(dmn)` -/
def ofMN (dmn : CDeterministicMN) : CSimplifiedMNListEntry where
  proRegTxHash := dmn.proTxHash
  confirmedHash := dmn.pdmnState.confirmedHash
  service := dmn.pdmnState.addr
  pubKeyOperator := dmn.pdmnState.pubKeyOperator
  keyIDVoting := dmn.pdmnState.keyIDVoting
  isValid := dmn.pdmnState.nPoSeBanHeight == -1

def calcHash [NodeCrypto] (e : CSimplifiedMNListEntry) : UInt256 :=
  NodeCrypto.hash (serializeUInt256 e.proRegTxHash ++ serializeUInt256 e.confirmedHash ++
    -- the port is written in network order
    (leBytes 16 e.service.ip.toNat ++ (leBytes 2 e.service.port.toNat).reverse) ++
    leBytes 48 e.pubKeyOperator.toNat ++ leBytes 20 e.keyIDVoting.toNat ++ [if e.isValid then 1 else 0])

/-- `a->proRegTxHash.Compare(b->proRegTxHash) <= 0`, which compares the bytes. -/
def Le (a b : CSimplifiedMNListEntry) : Prop := serializeUInt256 a.proRegTxHash ≤ serializeUInt256 b.proRegTxHash

instance : DecidableRel Le := fun a b =>
  inferInstanceAs (Decidable (serializeUInt256 a.proRegTxHash ≤ serializeUInt256 b.proRegTxHash))

end CSimplifiedMNListEntry

/-! ## Lists -/

/-- The smartnodes in the order of the map (`ForEachMN(false, ...)`). -/
def CDeterministicMNList.mns (list : CDeterministicMNList) (rank : UInt256 ↪ Nat) : List CDeterministicMN :=
  list.mnMap.values rank

structure CSimplifiedMNList where
  mnList : List CSimplifiedMNListEntry
deriving DecidableEq, Repr

namespace CSimplifiedMNList

/-- `CSimplifiedMNList(smlEntries)` -/
def ofEntries (smlEntries : List CSimplifiedMNListEntry) : CSimplifiedMNList :=
  ⟨smlEntries.insertionSort CSimplifiedMNListEntry.Le⟩

/-- `CSimplifiedMNList(dmnList)` -/
def ofList (dmnList : CDeterministicMNList) (rank : UInt256 ↪ Nat) : CSimplifiedMNList :=
  ofEntries ((dmnList.mns rank).map CSimplifiedMNListEntry.ofMN)

/-- The root, and whether it is mutated. -/
def calcMerkleRoot [NodeCrypto] (list : CSimplifiedMNList) : Option (UInt256 × Bool) :=
  MerkleTree.computeMerkleRoot hashPair 0 (list.mnList.map CSimplifiedMNListEntry.calcHash)

end CSimplifiedMNList

structure CSimplifiedMNListDiff where
  baseBlockHash : UInt256
  blockHash : UInt256
  deletedMNs : List UInt256
  mnList : List CSimplifiedMNListEntry

def CDeterministicMNList.buildSimplifiedDiff (list other : CDeterministicMNList) (rank otherRank : UInt256 ↪ Nat) :
    CSimplifiedMNListDiff where
  baseBlockHash := list.blockHash
  blockHash := other.blockHash
  mnList := (other.mns otherRank).filterMap fun toPtr =>
    match list.getMN toPtr.proTxHash with
    | none => some (.ofMN toPtr)
    | some fromPtr =>
        if CSimplifiedMNListEntry.ofMN toPtr ≠ CSimplifiedMNListEntry.ofMN fromPtr then some (.ofMN toPtr) else none
  deletedMNs := (list.mns rank).filterMap fun fromPtr =>
    if (other.getMN fromPtr.proTxHash).isNone then some fromPtr.proTxHash else none

/-- What a light client does with a difference: the deleted entries go, those of `mnList` replace others or are
added. -/
def CSimplifiedMNListDiff.apply (diff : CSimplifiedMNListDiff) (entries : List CSimplifiedMNListEntry) :
    List CSimplifiedMNListEntry :=
  (entries.filter fun e => e.proRegTxHash ∉ diff.deletedMNs ∧
    e.proRegTxHash ∉ diff.mnList.map CSimplifiedMNListEntry.proRegTxHash) ++ diff.mnList

/-! ## The order of the entries -/

/-- Entries with different hashes have one order. -/
theorem ofEntries_eq_of_perm {l l' : List CSimplifiedMNListEntry}
    (hnodup : (l.map CSimplifiedMNListEntry.proRegTxHash).Nodup) (h : l.Perm l') :
    CSimplifiedMNList.ofEntries l = CSimplifiedMNList.ofEntries l' := by
  have htotal : Std.Total CSimplifiedMNListEntry.Le := ⟨fun a b => List.le_total _ _⟩
  have htrans : IsTrans CSimplifiedMNListEntry CSimplifiedMNListEntry.Le := ⟨fun a b c hab hbc => List.le_trans hab hbc⟩
  have hperm := (List.perm_insertionSort CSimplifiedMNListEntry.Le l).trans
    (h.trans (List.perm_insertionSort CSimplifiedMNListEntry.Le l').symm)
  refine congrArg CSimplifiedMNList.mk (hperm.eq_of_pairwise ?_ (List.pairwise_insertionSort _ l)
    (List.pairwise_insertionSort _ l'))
  intro a b ha hb hab hba
  have ha' : a ∈ l := (List.perm_insertionSort _ l).mem_iff.mp ha
  have hb' : b ∈ l := h.mem_iff.mpr ((List.perm_insertionSort _ l').mem_iff.mp hb)
  exact List.inj_on_of_nodup_map hnodup ha' hb' (serializeUInt256_injective (List.le_antisymm hab hba))

/-! ## What a list and a difference hold -/

/-- A smartnode is kept under its hash. -/
def CDeterministicMNList.Keyed (list : CDeterministicMNList) : Prop :=
  ∀ proTxHash dmn, list.getMN proTxHash = some dmn → dmn.proTxHash = proTxHash

/-- The entry of a hash. -/
def CDeterministicMNList.entry (list : CDeterministicMNList) (proTxHash : UInt256) : Option CSimplifiedMNListEntry :=
  (list.getMN proTxHash).map .ofMN

namespace CDeterministicMNList

variable {list other : CDeterministicMNList} {rank otherRank : UInt256 ↪ Nat}

theorem mem_mns (h : list.Keyed) {dmn : CDeterministicMN} : dmn ∈ list.mns rank ↔
    list.getMN dmn.proTxHash = some dmn := by
  rw [mns, FiniteMap.values, List.mem_map]
  constructor
  · rintro ⟨⟨hash, dmn'⟩, hmem, rfl⟩
    have hget : list.getMN hash = some dmn' := FiniteMap.mem_toList.mp hmem
    show list.getMN dmn'.proTxHash = some dmn'
    rw [h hash dmn' hget]
    exact hget
  · exact fun hget => ⟨⟨dmn.proTxHash, dmn⟩, FiniteMap.mem_toList.mpr hget, rfl⟩

theorem mem_entries (h : list.Keyed) {e : CSimplifiedMNListEntry} :
    e ∈ (list.mns rank).map CSimplifiedMNListEntry.ofMN ↔ list.entry e.proRegTxHash = some e := by
  rw [List.mem_map, entry, Option.map_eq_some_iff]
  constructor
  · rintro ⟨dmn, hmem, rfl⟩
    exact ⟨dmn, (mem_mns h).mp hmem, rfl⟩
  · rintro ⟨dmn, hget, heq⟩
    refine ⟨dmn, (mem_mns h).mpr ?_, heq⟩
    rw [h _ dmn hget]
    exact hget

theorem nodup_proTxHash (h : list.Keyed) : ((list.mns rank).map CDeterministicMN.proTxHash).Nodup := by
  have hkeys : (list.mns rank).map CDeterministicMN.proTxHash = (list.mnMap.toList rank).map Sigma.fst := by
    rw [mns, FiniteMap.values, List.map_map]
    refine List.map_congr_left fun e he => ?_
    exact h e.1 e.2 (FiniteMap.mem_toList.mp he)
  rw [hkeys]
  induction list.mnMap using Finmap.induction_on with
  | _ a =>
    rw [FiniteMap.toList, Finmap.liftOn_toFinmap]
    exact ((List.perm_insertionSort _ a.entries).map Sigma.fst).nodup_iff.mpr a.nodupKeys

theorem nodup_entries (h : list.Keyed) :
    (((list.mns rank).map CSimplifiedMNListEntry.ofMN).map CSimplifiedMNListEntry.proRegTxHash).Nodup := by
  rw [List.map_map]
  exact nodup_proTxHash h

/-- An entry is sent if the other list has it and this one does not. -/
theorem mem_mnList_diff (hother : other.Keyed) {e : CSimplifiedMNListEntry} :
    e ∈ (list.buildSimplifiedDiff other rank otherRank).mnList ↔
      other.entry e.proRegTxHash = some e ∧ list.entry e.proRegTxHash ≠ some e := by
  have hsent : ∀ toPtr : CDeterministicMN, (match list.getMN toPtr.proTxHash with
      | none => some (.ofMN toPtr)
      | some fromPtr =>
          if CSimplifiedMNListEntry.ofMN toPtr ≠ CSimplifiedMNListEntry.ofMN fromPtr then some (.ofMN toPtr)
          else none) =
      if list.entry toPtr.proTxHash = some (.ofMN toPtr) then none else some (CSimplifiedMNListEntry.ofMN toPtr) := by
    intro toPtr
    unfold entry
    cases list.getMN toPtr.proTxHash with
    | none => rfl
    | some fromPtr => simp [eq_comm]
  rw [← @mem_entries other otherRank hother e, List.mem_map]
  show e ∈ (other.mns otherRank).filterMap _ ↔ _
  simp only [hsent, List.mem_filterMap, Option.ite_none_left_eq_some, Option.some.injEq]
  constructor
  · rintro ⟨toPtr, hmem, hne, rfl⟩
    exact ⟨⟨toPtr, hmem, rfl⟩, hne⟩
  · rintro ⟨⟨toPtr, hmem, rfl⟩, hne⟩
    exact ⟨toPtr, hmem, hne, rfl⟩

theorem mem_deletedMNs_diff (h : list.Keyed) {proTxHash : UInt256} :
    proTxHash ∈ (list.buildSimplifiedDiff other rank otherRank).deletedMNs ↔
      list.entry proTxHash ≠ none ∧ other.entry proTxHash = none := by
  show proTxHash ∈ (list.mns rank).filterMap _ ↔ _
  simp only [List.mem_filterMap, Option.ite_none_right_eq_some, Option.some.injEq, entry, ne_eq, Option.map_eq_none_iff,
    Option.isNone_iff_eq_none]
  constructor
  · rintro ⟨fromPtr, hmem, hnone, rfl⟩
    rw [mem_mns h] at hmem
    exact ⟨by simp [hmem], hnone⟩
  · rintro ⟨hsome, hnone⟩
    obtain ⟨fromPtr, hget⟩ := Option.ne_none_iff_exists'.mp hsome
    obtain rfl := h _ fromPtr hget
    exact ⟨fromPtr, (mem_mns h).mpr hget, hnone, rfl⟩

theorem nodup_mnList_diff (hother : other.Keyed) :
    ((list.buildSimplifiedDiff other rank otherRank).mnList.map CSimplifiedMNListEntry.proRegTxHash).Nodup := by
  refine (@nodup_entries other otherRank hother).sublist (List.Sublist.map _ ?_)
  show ((other.mns otherRank).filterMap _).Sublist _
  generalize other.mns otherRank = l
  induction l with
  | nil => exact List.Sublist.slnil
  | cons toPtr l ih =>
    rw [List.filterMap_cons]
    split
    · exact ih.cons _
    · next e he =>
      have heq : e = .ofMN toPtr := by
        split at he
        · exact (Option.some.inj he).symm
        · split_ifs at he
          exact (Option.some.inj he).symm
      rw [heq]
      exact ih.cons_cons _

/-- An entry of the rebuilt list is one of the other list. -/
theorem mem_apply_diff (h : list.Keyed) (hother : other.Keyed) {entries : List CSimplifiedMNListEntry}
    (hentries : ∀ e, e ∈ entries ↔ list.entry e.proRegTxHash = some e) {e : CSimplifiedMNListEntry} :
    e ∈ (list.buildSimplifiedDiff other rank otherRank).apply entries ↔ other.entry e.proRegTxHash = some e := by
  have hsent : e.proRegTxHash ∈ (list.buildSimplifiedDiff other rank otherRank).mnList.map
      CSimplifiedMNListEntry.proRegTxHash ↔
        ∃ e', other.entry e.proRegTxHash = some e' ∧ list.entry e.proRegTxHash ≠ some e' := by
    simp only [List.mem_map, mem_mnList_diff hother]
    constructor
    · rintro ⟨e', hmem, heq⟩
      exact ⟨e', heq ▸ hmem⟩
    · rintro ⟨e', hget, hne⟩
      obtain ⟨dmn, hdmn, rfl⟩ := Option.map_eq_some_iff.mp hget
      have hhash : (CSimplifiedMNListEntry.ofMN dmn).proRegTxHash = e.proRegTxHash := hother _ dmn hdmn
      exact ⟨_, by rw [hhash]; exact ⟨hget, hne⟩, hhash⟩
  rw [CSimplifiedMNListDiff.apply, List.mem_append, List.mem_filter, decide_eq_true_eq, hentries, hsent,
    mem_deletedMNs_diff h, mem_mnList_diff hother]
  constructor
  · rintro (⟨hlist, hdeleted, hkept⟩ | ⟨hget, -⟩)
    · -- the entry was neither deleted nor replaced
      cases hother : other.entry e.proRegTxHash with
      | none => exact absurd ⟨by simp [hlist], hother⟩ hdeleted
      | some e' =>
        by_contra hne
        refine hkept ⟨e', hother, fun hlist' => hne ?_⟩
        rw [← hlist', hlist]
    · exact hget
  · intro hget
    by_cases hlist : list.entry e.proRegTxHash = some e
    · refine .inl ⟨hlist, fun hdeleted => ?_, ?_⟩
      · rw [hget] at hdeleted
        cases hdeleted.2
      · rintro ⟨e', hget', hne⟩
        rw [hget] at hget'
        exact hne (hget' ▸ hlist)
    · exact .inr ⟨hget, hlist⟩

/-- **A difference is sufficient**: a client that has the simplified entries of a list, in any order, and applies the
difference to another list has exactly the simplified entries of the other list, and its merkle root. -/
theorem simplifiedDiff_sufficient [NodeCrypto] (list other : CDeterministicMNList) (rank otherRank : UInt256 ↪ Nat)
    (h : list.Keyed) (hother : other.Keyed) (entries : List CSimplifiedMNListEntry)
    (hentries : entries.Perm (CSimplifiedMNList.ofList list rank).mnList) :
    ((list.buildSimplifiedDiff other rank otherRank).apply entries).Perm
        ((other.mns otherRank).map CSimplifiedMNListEntry.ofMN) ∧
      CSimplifiedMNList.ofEntries ((list.buildSimplifiedDiff other rank otherRank).apply entries) =
        CSimplifiedMNList.ofList other otherRank ∧
      (CSimplifiedMNList.ofEntries ((list.buildSimplifiedDiff other rank otherRank).apply entries)).calcMerkleRoot =
        (CSimplifiedMNList.ofList other otherRank).calcMerkleRoot := by
  have hclient := hentries.trans (List.perm_insertionSort _ _)
  have hnodup : (((list.buildSimplifiedDiff other rank otherRank).apply entries).map
      CSimplifiedMNListEntry.proRegTxHash).Nodup := by
    rw [CSimplifiedMNListDiff.apply, List.map_append, List.nodup_append]
    refine ⟨?_, nodup_mnList_diff hother, ?_⟩
    · have hentries' := (hclient.map CSimplifiedMNListEntry.proRegTxHash).nodup_iff.mpr (nodup_entries h)
      exact hentries'.sublist (List.filter_sublist.map _)
    · rintro _ ha b hb rfl
      obtain ⟨e, he, rfl⟩ := List.mem_map.mp ha
      exact (of_decide_eq_true (List.mem_filter.mp he).2).2 hb
  have hperm : ((list.buildSimplifiedDiff other rank otherRank).apply entries).Perm
      ((other.mns otherRank).map CSimplifiedMNListEntry.ofMN) := by
    rw [List.perm_ext_iff_of_nodup hnodup.of_map (nodup_entries hother).of_map]
    intro e
    rw [mem_apply_diff h hother (fun e => hclient.mem_iff.trans (mem_entries h)), mem_entries hother]
  have hsame := ofEntries_eq_of_perm hnodup hperm
  exact ⟨hperm, hsame, congrArg CSimplifiedMNList.calcMerkleRoot hsame⟩

/-- A list of smartnodes. -/
def ofMNs (mns : List CDeterministicMN) : CDeterministicMNList where
  mnMap := mns.foldr (fun dmn mnMap => mnMap.insert dmn.proTxHash dmn) ∅

theorem keyed_ofMNs (mns : List CDeterministicMN) : (ofMNs mns).Keyed := by
  induction mns with
  | nil =>
    intro proTxHash dmn hget
    rw [getMN, ofMNs, List.foldr_nil, Finmap.lookup_empty] at hget
    cases hget
  | cons mn mns ih =>
    intro proTxHash dmn hget
    rcases FiniteMap.lookup_insert_imp hget with ⟨rfl, rfl⟩ | hrest
    · rfl
    · exact ih proTxHash dmn hrest

def plainRank : UInt256 ↪ Nat := ⟨BitVec.toNat, fun _ _ => BitVec.eq_of_toNat_eq⟩

def sampleMN (proTxHash : UInt256) (nPoSeBanHeight : Int) : CDeterministicMN :=
  ⟨proTxHash, ⟨proTxHash, 0⟩, { nPoSeBanHeight }⟩

/-- Smartnode 5 is banned, 6 is deleted and 8 is added. -/
theorem simplifiedDiff_sufficient_sample :
    let list := ofMNs [sampleMN 5 (-1), sampleMN 6 (-1), sampleMN 7 (-1)]
    let other := ofMNs [sampleMN 5 9, sampleMN 7 (-1), sampleMN 8 (-1)]
    CSimplifiedMNList.ofEntries ((list.buildSimplifiedDiff other plainRank plainRank).apply
      (CSimplifiedMNList.ofList list plainRank).mnList) = CSimplifiedMNList.ofList other plainRank :=
  (@simplifiedDiff_sufficient mainnetCrypto _ _ plainRank plainRank (keyed_ofMNs _) (keyed_ofMNs _) _
    (List.Perm.refl _)).2.1

end CDeterministicMNList

end Evo

end RavenCash
