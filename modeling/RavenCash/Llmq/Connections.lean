import RavenCash.Evo.Simplified
import RavenCash.Lib.Hops

/-!
# The connections of a quorum

`CalculateQuorum` chooses the members of a quorum, and `GetQuorumConnections` the members that each of them connects to:
the members stand on a ring, and the one at `i` connects to those at the distances `1, 2, 4, …`.

`CalculateQuorum` sorts, so the order in which the smartnodes are iterated does not matter; here it is any injective
`rank`. A quorum has at most `params.size` members, so no `int` of the loop overflows.
-/

set_option autoImplicit false

namespace RavenCash.Evo

/-! ## Members -/

/-- The order that `CalculateQuorum` sorts with, the best score last. -/
def scoreLt (a b : UInt256 × CDeterministicMN) : Bool :=
  if a.1 = b.1 then outpointLt a.2.collateralOutpoint b.2.collateralOutpoint else decide (a.1 < b.1)

namespace CDeterministicMNList

variable (list : CDeterministicMNList)

/-- `isPayableCollateral` is that of the collaterals of the network. -/
def isMNValid (isPayableCollateral : Int → CAmount → Bool) (dmn : CDeterministicMN) : Bool :=
  dmn.pdmnState.nPoSeBanHeight == -1 && isPayableCollateral list.nHeight dmn.pdmnState.nCollateralAmount

section

variable [EvoCrypto]

def calculateScores (isPayableCollateral : Int → CAmount → Bool) (rank : UInt256 ↪ Nat) (modifier : UInt256) :
    List (UInt256 × CDeterministicMN) :=
  ((list.mns rank).filter (list.isMNValid isPayableCollateral)).filterMap fun dmn =>
    if dmn.pdmnState.confirmedHash = 0 then none
    else some (EvoCrypto.sha256 dmn.pdmnState.confirmedHashWithProRegTxHash modifier, dmn)

/-- The best scores come first. -/
def calculateQuorum (isPayableCollateral : Int → CAmount → Bool) (rank : UInt256 ↪ Nat) (maxSize : Nat)
    (modifier : UInt256) : List CDeterministicMN :=
  let scores := list.calculateScores isPayableCollateral rank modifier
  ((scores.insertionSort fun a b => scoreLt a b = false).take maxSize).map Prod.snd

end

end CDeterministicMNList

namespace Llmq

/-! ## Connections -/

/-- The `while` loop of `GetQuorumConnections`; `gap_max` is halved before every test. -/
def connectionsLoop (mns : List CDeterministicMN) (i : Nat) (dmn : CDeterministicMN) (gap gapMax k : Nat)
    (result : Finset UInt256) : Finset UInt256 :=
  if gapMax / 2 ≠ 0 ∨ k ≤ 1 then
    let result :=
      match mns[(i + gap) % mns.length]? with
      | none => result
      | some otherDmn => if otherDmn = dmn then result else insert otherDmn.proTxHash result
    connectionsLoop mns i dmn (gap * 2) (gapMax / 2) (k + 1) result
  else result
termination_by gapMax + (2 - k)

def getQuorumConnections (mns : List CDeterministicMN) (forMember : UInt256) : Finset UInt256 :=
  match mns.findIdx? (fun dmn => dmn.proTxHash == forMember) with
  | none => ∅
  | some i =>
      match mns[i]? with
      | none => ∅
      | some dmn => connectionsLoop mns i dmn 1 (mns.length - 1) 0 ∅

/-- The number of iterations that are left. -/
def rounds (gapMax k : Nat) : Nat := max (2 - k) (Nat.log2 gapMax)

theorem rounds_succ {gapMax k : Nat} (h : gapMax / 2 ≠ 0 ∨ k ≤ 1) :
    rounds gapMax k = rounds (gapMax / 2) (k + 1) + 1 := by
  have hlog : Nat.log2 gapMax = if 2 ≤ gapMax then Nat.log2 (gapMax / 2) + 1 else 0 := Nat.log2_def gapMax
  have hsmall : gapMax < 2 → Nat.log2 (gapMax / 2) = 0 := by
    intro hlt
    have hzero : gapMax / 2 = 0 := by omega
    rw [hzero]
    rfl
  unfold rounds
  split_ifs at hlog with hge
  · omega
  · have := hsmall (by omega)
    omega

theorem rounds_eq_zero {gapMax k : Nat} (h : ¬(gapMax / 2 ≠ 0 ∨ k ≤ 1)) : rounds gapMax k = 0 := by
  have hlog : Nat.log2 gapMax = if 2 ≤ gapMax then Nat.log2 (gapMax / 2) + 1 else 0 := Nat.log2_def gapMax
  rw [if_neg (by omega)] at hlog
  unfold rounds
  omega

section

variable {mns : List CDeterministicMN} {i : Nat} {dmn : CDeterministicMN}

/-- The member at a distance. -/
def atGap (mns : List CDeterministicMN) (i gap : Nat) : Option CDeterministicMN := mns[(i + gap) % mns.length]?

/-- **What the loop connects to**: the members at the distances `gap, 2 * gap, …`, one for each iteration. -/
theorem mem_connectionsLoop {gap gapMax k : Nat} {result : Finset UInt256} {hash : UInt256} :
    hash ∈ connectionsLoop mns i dmn gap gapMax k result ↔
      hash ∈ result ∨ ∃ j < rounds gapMax k, ∃ other, atGap mns i (gap * 2 ^ j) = some other ∧ other ≠ dmn ∧
        other.proTxHash = hash := by
  fun_induction connectionsLoop mns i dmn gap gapMax k result with
  | case1 gap gapMax k result h result' ih =>
    rw [ih, rounds_succ h]
    have hresult : hash ∈ result' ↔ hash ∈ result ∨ ∃ other, atGap mns i gap = some other ∧ other ≠ dmn ∧
        other.proTxHash = hash := by
      unfold atGap
      rcases hget : mns[(i + gap) % mns.length]? with _ | other
      · simp [result', hget]
      · simp only [result', hget, Option.some.injEq]
        split_ifs with heq
        · simp [heq]
        · simp [heq, Finset.mem_insert, or_comm, eq_comm]
    rw [hresult, or_assoc]
    refine or_congr_right ⟨?_, ?_⟩
    · rintro (hzero | ⟨j, hj, hother⟩)
      · exact ⟨0, by omega, by simpa using hzero⟩
      · refine ⟨j + 1, by omega, ?_⟩
        rwa [Nat.pow_succ', ← Nat.mul_assoc]
    · rintro ⟨j, hj, hother⟩
      cases j with
      | zero => exact .inl (by simpa using hother)
      | succ j =>
        refine .inr ⟨j, by omega, ?_⟩
        rwa [Nat.mul_assoc, ← Nat.pow_succ']
  | case2 gap gapMax k result h =>
    rw [rounds_eq_zero h]
    simp

/-- One more member with each iteration. -/
theorem card_connectionsLoop_le {gap gapMax k : Nat} {result : Finset UInt256} :
    (connectionsLoop mns i dmn gap gapMax k result).card ≤ result.card + rounds gapMax k := by
  fun_induction connectionsLoop mns i dmn gap gapMax k result with
  | case1 gap gapMax k result h result' ih =>
    have hresult : result'.card ≤ result.card + 1 := by
      simp only [result']
      split
      · omega
      · split_ifs
        · omega
        · exact Finset.card_insert_le _ _
    rw [rounds_succ h]
    omega
  | case2 gap gapMax k result h => omega

/-! ## The ring -/

theorem getQuorumConnections_member (hnodup : (mns.map CDeterministicMN.proTxHash).Nodup) (hget : mns[i]? = some dmn) :
    getQuorumConnections mns dmn.proTxHash = connectionsLoop mns i dmn 1 (mns.length - 1) 0 ∅ := by
  obtain ⟨hi, heq⟩ := List.getElem?_eq_some_iff.mp hget
  have hfind : mns.findIdx? (fun other => other.proTxHash == dmn.proTxHash) = some i := by
    refine List.findIdx?_eq_some_iff_getElem.mpr ⟨hi, by simp [heq], fun j hj hsame => ?_⟩
    -- two members with one hash are at one place
    have hsame : mns[j].proTxHash = mns[i].proTxHash := by simpa [heq] using hsame
    have hmember := List.inj_on_of_nodup_map hnodup (List.getElem_mem (hj.trans hi)) (List.getElem_mem hi) hsame
    exact hj.ne ((List.Nodup.of_map _ hnodup).getElem_inj_iff.mp hmember)
  simp only [getQuorumConnections, hfind, hget]

/-- The hash of the member at a place. -/
def place (mns : List CDeterministicMN) (i : Nat) : UInt256 := (mns[i]?.map CDeterministicMN.proTxHash).getD 0

theorem place_eq (hget : mns[i]? = some dmn) : place mns i = dmn.proTxHash := by
  rw [place, hget]
  rfl

/-- A member is connected to those at the powers of two. -/
theorem connected_at_power (hnodup : (mns.map CDeterministicMN.proTxHash).Nodup) (hi : i < mns.length) {j : Nat}
    (hj : j < rounds (mns.length - 1) 0) :
    place mns i = place mns ((i + 2 ^ j) % mns.length) ∨
      place mns ((i + 2 ^ j) % mns.length) ∈ getQuorumConnections mns (place mns i) := by
  have hget : mns[i]? = some mns[i] := List.getElem?_eq_getElem hi
  have hlt : (i + 2 ^ j) % mns.length < mns.length := Nat.mod_lt _ (by omega)
  have hother : atGap mns i (2 ^ j) = some mns[(i + 2 ^ j) % mns.length] := List.getElem?_eq_getElem hlt
  rw [place_eq hget, place_eq hother]
  by_cases hself : mns[(i + 2 ^ j) % mns.length] = mns[i]
  · exact .inl (congrArg _ hself.symm)
  · rw [getQuorumConnections_member hnodup hget, mem_connectionsLoop]
    refine .inr (.inr ⟨j, hj, _, ?_, hself, rfl⟩)
    rwa [Nat.one_mul]

/-- A member reaches every other one. -/
theorem within_of_nodup (hnodup : (mns.map CDeterministicMN.proTxHash).Nodup) (hi : i < mns.length) {i' : Nat}
    (hi' : i' < mns.length) :
    Hops.Within (fun x y => y ∈ getQuorumConnections mns x) (rounds (mns.length - 1) 0 + 2) (place mns i)
      (place mns i') := by
  have hrounds : 1 ≤ rounds (mns.length - 1) 0 := by
    unfold rounds
    omega
  -- the way from `i` to `i'` in the direction of the connections
  have hdistance : (i' + mns.length - i) % mns.length < 2 ^ (rounds (mns.length - 1) 0 + 1) := by
    have hlt : (i' + mns.length - i) % mns.length < mns.length := Nat.mod_lt _ (by omega)
    have hlog : mns.length - 1 < 2 ^ (Nat.log2 (mns.length - 1) + 1) := Nat.lt_log2_self
    have hpow : 2 ^ (Nat.log2 (mns.length - 1) + 1) ≤ 2 ^ (rounds (mns.length - 1) 0 + 1) :=
      Nat.pow_le_pow_right (by omega) (Nat.succ_le_succ (Nat.le_max_right _ _))
    omega
  obtain ⟨gaps, hpowers, hsum, hlength⟩ := Hops.exists_powers hrounds hdistance
  have hwalk := Hops.within_ring (E := fun x y => y ∈ getQuorumConnections mns x) (n := mns.length) (place mns)
    (fun i hi g hg => by
      obtain ⟨j, hj, rfl⟩ := hpowers g hg
      exact connected_at_power hnodup hi hj) hi
  have harrive : (i + gaps.sum) % mns.length = i' := by
    rw [hsum, Nat.add_mod_mod, show i + (i' + mns.length - i) = i' + mns.length by omega, Nat.add_mod_right,
      Nat.mod_eq_of_lt hi']
  rw [harrive] at hwalk
  exact hwalk.mono hlength

end

/-! ## The members of a quorum -/

section

variable [EvoCrypto] {list : CDeterministicMNList} {isPayableCollateral : Int → CAmount → Bool} {rank : UInt256 ↪ Nat}
  {maxSize : Nat} {modifier : UInt256}

theorem calculateScores_sublist :
    ((list.calculateScores isPayableCollateral rank modifier).map Prod.snd).Sublist (list.mns rank) := by
  rw [CDeterministicMNList.calculateScores, List.map_filterMap]
  have hfilter : (fun dmn : CDeterministicMN => Option.map Prod.snd (if dmn.pdmnState.confirmedHash = 0 then none
      else some (EvoCrypto.sha256 dmn.pdmnState.confirmedHashWithProRegTxHash modifier, dmn))) =
      Option.guard fun dmn => decide (dmn.pdmnState.confirmedHash ≠ 0) := by
    funext dmn
    by_cases hnull : dmn.pdmnState.confirmedHash = 0
    · simp [Option.guard, hnull]
    · rw [if_neg hnull]
      simp only [Option.map_some, Option.guard, ne_eq, hnull, not_false_eq_true, decide_true, if_true]
  rw [hfilter, List.filterMap_eq_filter]
  exact List.filter_sublist.trans List.filter_sublist

/-- No two members of a quorum have one hash. -/
theorem nodup_calculateQuorum (hkeyed : list.Keyed) :
    ((list.calculateQuorum isPayableCollateral rank maxSize modifier).map CDeterministicMN.proTxHash).Nodup := by
  have hscores : (((list.calculateScores isPayableCollateral rank modifier).map Prod.snd).map
      CDeterministicMN.proTxHash).Nodup :=
    (CDeterministicMNList.nodup_proTxHash hkeyed).sublist (calculateScores_sublist.map _)
  have hperm := ((List.perm_insertionSort (fun a b => scoreLt a b = false)
    (list.calculateScores isPayableCollateral rank modifier)).map Prod.snd).map CDeterministicMN.proTxHash
  exact (hperm.nodup_iff.mpr hscores).sublist (((List.take_sublist _ _).map _).map _)

/-- **The members of a quorum are connected**: with `n` members each one connects to at most `max 2 (log2 (n - 1))`
others, and reaches every member in at most two hops more than that. -/
theorem quorumConnections_overlay (list : CDeterministicMNList) (isPayableCollateral : Int → CAmount → Bool)
    (rank : UInt256 ↪ Nat) (maxSize : Nat) (modifier : UInt256) (hkeyed : list.Keyed) :
    let mns := list.calculateQuorum isPayableCollateral rank maxSize modifier
    let connections := getQuorumConnections mns
    ∀ dmn ∈ mns, (connections dmn.proTxHash).card ≤ max 2 (Nat.log2 (mns.length - 1)) ∧
      (∀ hash ∈ connections dmn.proTxHash, ∃ other ∈ mns, other ≠ dmn ∧ other.proTxHash = hash) ∧
      ∀ other ∈ mns, Hops.Within (fun x y => y ∈ connections x) (max 2 (Nat.log2 (mns.length - 1)) + 2)
        dmn.proTxHash other.proTxHash := by
  intro mns connections dmn hdmn
  have hnodup : (mns.map CDeterministicMN.proTxHash).Nodup := nodup_calculateQuorum hkeyed
  obtain ⟨i, hget⟩ := List.mem_iff_getElem?.mp hdmn
  obtain ⟨hi, -⟩ := List.getElem?_eq_some_iff.mp hget
  have hloop : connections dmn.proTxHash = connectionsLoop mns i dmn 1 (mns.length - 1) 0 ∅ :=
    getQuorumConnections_member hnodup hget
  refine ⟨?_, fun hash hhash => ?_, fun other hother => ?_⟩
  · rw [hloop]
    exact card_connectionsLoop_le.trans (Nat.zero_add _).le
  · rw [hloop, mem_connectionsLoop] at hhash
    obtain hempty | ⟨j, -, other, hat, hne, rfl⟩ := hhash
    · exact absurd hempty (Finset.notMem_empty hash)
    · exact ⟨other, List.mem_of_getElem? hat, hne, rfl⟩
  · obtain ⟨i', hget'⟩ := List.mem_iff_getElem?.mp hother
    obtain ⟨hi', -⟩ := List.getElem?_eq_some_iff.mp hget'
    have hwithin := within_of_nodup hnodup hi hi'
    rwa [place_eq hget, place_eq hget'] at hwithin

end

section

attribute [local instance] plainCrypto

/-- Two confirmed smartnodes. -/
def pairMN (proTxHash : UInt256) : CDeterministicMN where
  proTxHash := proTxHash
  collateralOutpoint := ⟨proTxHash, 0⟩
  pdmnState := { confirmedHash := 1, confirmedHashWithProRegTxHash := proTxHash }

def pairList : CDeterministicMNList where
  mnMap := ((∅ : FiniteMap UInt256 CDeterministicMN).insert 5 (pairMN 5)).insert 6 (pairMN 6)

theorem keyed_pairList : pairList.Keyed := by
  intro proTxHash dmn hget
  rcases FiniteMap.lookup_insert_imp hget with ⟨rfl, rfl⟩ | hget
  · rfl
  · rcases FiniteMap.lookup_insert_imp hget with ⟨rfl, rfl⟩ | hempty
    · rfl
    · rw [Finmap.lookup_empty] at hempty
      cases hempty

/-- The first of the two reaches the second. -/
theorem quorumConnections_overlay_pair :
    let mns := pairList.calculateQuorum (fun _ _ => true) CDeterministicMNList.plainRank 50 9
    mns = [pairMN 6, pairMN 5] ∧ (getQuorumConnections mns 6).card ≤ 2 ∧
      Hops.Within (fun x y => y ∈ getQuorumConnections mns x) 4 6 5 := by
  intro mns
  have hmns : mns = [pairMN 6, pairMN 5] := by decide +kernel
  have h := quorumConnections_overlay pairList (fun _ _ => true) CDeterministicMNList.plainRank 50 9 keyed_pairList
  rw [show pairList.calculateQuorum _ _ 50 9 = [pairMN 6, pairMN 5] from hmns] at h
  obtain ⟨hcard, -, hreach⟩ := h (pairMN 6) List.mem_cons_self
  rw [hmns]
  exact ⟨rfl, hcard, hreach (pairMN 5) (by simp)⟩

end

end Llmq

end RavenCash.Evo
