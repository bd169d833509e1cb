import RavenCash.Header.Ancestors

/-!
# The active chain

`CChain` keeps the branch of its tip as a vector indexed by heights. `SetTip` resizes the vector, so that entries of
another branch may be left in it, and follows `pprev` from the new tip until it meets an entry that is already there.
That the rest below is right rests on what was in the vector before (`Coherent`).

`GetLocator` picks hashes of a branch, in growing steps, from the vector where it can and over the skip pointers
otherwise. Another node looks for the first of them in its own chain (`FindForkInGlobalIndex`).
-/

set_option autoImplicit false

namespace RavenCash

open BlockTree

/-- A pointer to an entry of the block index is the key of the entry. -/
structure CChain where
  vChain : List (Option UInt256) := []

namespace CChain

/-! ## The functions -/

section

variable (tree : BlockTree) (chain : CChain)

/-- `operator[]` -/
def entryAt (nHeight : Int) : Option UInt256 :=
  if nHeight < 0 ∨ chain.vChain.length ≤ nHeight then none else chain.vChain[nHeight.toNat]?.join

def height : Int := chain.vChain.length - 1

def genesis : Option UInt256 := chain.vChain[0]?.join

def tip : Option UInt256 := chain.vChain[chain.vChain.length - 1]?.join

def contains (pindex : CBlockIndex) : Bool := chain.entryAt pindex.nHeight == some pindex.phashBlock

/-- `vChain.resize(n)` -/
def resize (v : List (Option UInt256)) (n : Nat) : List (Option UInt256) :=
  v.take n ++ List.replicate (n - v.length) none

/-- The loop of `SetTip`. It goes down one height at a time. -/
def linkBack : Nat → Option CBlockIndex → List (Option UInt256) → List (Option UInt256)
  | fuel + 1, some pindex, v =>
      if v[pindex.nHeight.toNat]? = some (some pindex.phashBlock) then v
      else linkBack fuel (tree.prev pindex) (v.set pindex.nHeight.toNat (some pindex.phashBlock))
  | _, _, v => v

/-- `SetTip(pindex)` -/
def setTip : Option CBlockIndex → CChain
  | none => {}
  | some pindex =>
      ⟨linkBack tree (pindex.nHeight.toNat + 1) (some pindex) (resize chain.vChain (pindex.nHeight.toNat + 1))⟩

/-- The loop of `GetLocator`, with the size of `vHave`: what it appends. Every turn goes down by one height at least. -/
def locatorFrom : Nat → Nat → Nat → Option CBlockIndex → List UInt256
  | fuel + 1, nStep, size, some pindex =>
      if pindex.nHeight = 0 then [pindex.phashBlock]
      else
        let nHeight := max (pindex.nHeight - nStep) 0
        let next :=
          if chain.contains pindex then (chain.entryAt nHeight).bind tree.find else tree.getAncestor pindex nHeight
        pindex.phashBlock :: locatorFrom fuel (if 10 < size + 1 then nStep * 2 else nStep) (size + 1) next
  | _, _, _, _ => []

/-- `GetLocator(pindex)`; a null pointer stands for the tip. -/
def getLocator (pindex : Option CBlockIndex) : List UInt256 :=
  let start := pindex.or (chain.tip.bind tree.find)
  locatorFrom tree chain (start.elim 0 fun p => p.nHeight.toNat + 1) 1 0 start

/-- The entry of a hash, if it is in the chain. -/
def findInChain (hash : UInt256) : Option CBlockIndex := (tree.find hash).filter chain.contains

/-- `FindForkInGlobalIndex(chain, locator)` -/
def findForkInGlobalIndex (vHave : List UInt256) : Option CBlockIndex :=
  (vHave.findSome? (findInChain tree chain)).or (chain.genesis.bind tree.find)

end

/-! ## The vector and the branch -/

/-- The block has its entry. -/
def In (v : List (Option UInt256)) (p : CBlockIndex) : Prop := v[p.nHeight.toNat]? = some (some p.phashBlock)

/-- Up to a height, a block that has its entry has its whole branch. -/
def Coherent (tree : BlockTree) (nHeight : Int) (v : List (Option UInt256)) : Prop :=
  ∀ q, tree.Has q → q.nHeight ≤ nHeight → In v q → ∀ a, tree.IsAncestor a q → In v a

/-- The vector holds the branch of the tip and nothing else. -/
structure IsBranch (tree : BlockTree) (v : List (Option UInt256)) (tip : CBlockIndex) : Prop where
  has : tree.Has tip
  length : v.length = tip.nHeight + 1
  entry : ∀ a, tree.IsAncestor a tip → In v a

variable {tree : BlockTree} {chain : CChain} {p q a tip : CBlockIndex} {v : List (Option UInt256)}

theorem entryAt_eq_some {nHeight : Int} {hash : UInt256} (h0 : 0 ≤ nHeight) :
    chain.entryAt nHeight = some hash ↔ chain.vChain[nHeight.toNat]? = some (some hash) := by
  unfold entryAt
  split_ifs with hout
  · rw [List.getElem?_eq_none (by omega)]
    simp
  · exact Option.join_eq_some_iff

theorem contains_eq_true (h : Linked tree) (hp : tree.Has p) : chain.contains p = true ↔ In chain.vChain p := by
  rw [contains, beq_iff_eq, entryAt_eq_some (h.height hp), In]

/-- An ancestor is the block itself or one of its parent. -/
theorem isAncestor_cases (h : tree.IsAncestor a p) : a = p ∨ ∃ q, tree.prev p = some q ∧ tree.IsAncestor a q := by
  obtain ⟨k, hk⟩ := h
  cases k with
  | zero => exact .inl (Option.some.inj hk).symm
  | succ k =>
      obtain ⟨q, hq, ha⟩ := Option.bind_eq_some_iff.mp hk
      exact .inr ⟨q, hq, k, ha⟩

theorem IsBranch.in_iff (h : Linked tree) (hv : IsBranch tree v tip) (hp : tree.Has p) :
    In v p ↔ tree.IsAncestor p tip := by
  refine ⟨fun hin => ?_, hv.entry p⟩
  obtain ⟨hlt, -⟩ := List.getElem?_eq_some_iff.mp hin
  have hlength := hv.length
  obtain ⟨a, -, ha, hhas, hheight⟩ := h.exists_getAncestor hv.has (h.height hp) (by omega)
  have hin' := hv.entry a ⟨_, ha⟩
  rw [In, hheight, hin] at hin'
  obtain rfl := h.eq_of_key hp hhas (Option.some.inj (Option.some.inj hin'))
  exact ⟨_, ha⟩

theorem IsBranch.coherent (h : Linked tree) (hv : IsBranch tree v tip) (nHeight : Int) : Coherent tree nHeight v :=
  fun _ hq _ hin a ha => hv.entry a (ha.trans ((hv.in_iff h hq).mp hin))

/-! ## `SetTip` -/

theorem in_resize {n : Nat} (hn : p.nHeight.toNat < n) : In (resize v n) p ↔ In v p := by
  rw [In, In, resize, List.getElem?_append, List.length_take]
  split_ifs with hlt
  · rw [List.getElem?_take_of_lt hn]
  · rw [List.getElem?_replicate, List.getElem?_eq_none (by omega : v.length ≤ p.nHeight.toNat)]
    split_ifs <;> simp

/-- The loop leaves the entries above alone, and has the branch below: it has written it down to the entry where it
stops, and the rest was there. -/
theorem linkBack_spec (h : Linked tree) {fuel : Nat} (hp : tree.Has p) (hfuel : p.nHeight < fuel)
    (hlength : p.nHeight < v.length) (hv : Coherent tree p.nHeight v) :
    (linkBack tree fuel (some p) v).length = v.length ∧
      (∀ a, tree.IsAncestor a p → In (linkBack tree fuel (some p) v) a) ∧
      ∀ i : Nat, p.nHeight < i → (linkBack tree fuel (some p) v)[i]? = v[i]? := by
  have hpos := h.height hp
  induction fuel generalizing p v with
  | zero => omega
  | succ fuel ih =>
      rw [linkBack]
      by_cases hin : v[p.nHeight.toNat]? = some (some p.phashBlock)
      · rw [if_pos hin]
        exact ⟨rfl, hv p hp le_rfl hin, fun _ _ => rfl⟩
      · rw [if_neg hin]
        have hset : In (v.set p.nHeight.toNat (some p.phashBlock)) p := List.getElem?_set_self (by omega)
        have hother : ∀ i : Nat, (i : Int) ≠ p.nHeight → (v.set p.nHeight.toNat (some p.phashBlock))[i]? = v[i]? :=
          fun i hi => List.getElem?_set_ne (by omega)
        cases hprev : tree.prev p with
        | none =>
            rw [show ∀ w, linkBack tree fuel none w = w from fun w => by cases fuel <;> rfl]
            refine ⟨List.length_set, fun a ha => ?_, fun i hi => hother i (by omega)⟩
            obtain rfl | ⟨q, hq, -⟩ := isAncestor_cases ha
            · exact hset
            · exact absurd (hprev.symm.trans hq) (by simp)
        | some q =>
            obtain ⟨hhas, hheight⟩ := h.has_prev hp hprev
            have hcoherent : Coherent tree q.nHeight (v.set p.nHeight.toNat (some p.phashBlock)) := by
              intro r hr hle hin' a ha
              have hrpos := h.height hr
              have hale := (h.prevs_of_isAncestor hr ha).1
              rw [In, hother _ (by omega)] at hin' ⊢
              exact hv r hr (by omega) hin' a ha
            obtain ⟨hsize, hbranch, habove⟩ := ih hhas (by push_cast at hfuel; omega) (by rw [List.length_set]; omega)
              hcoherent (h.height hhas)
            refine ⟨hsize.trans List.length_set, fun a ha => ?_,
              fun i hi => (habove i (by omega)).trans (hother i (by omega))⟩
            obtain rfl | ⟨q', hq', ha'⟩ := isAncestor_cases ha
            · exact (habove _ (by omega)).trans hset
            · cases hprev.symm.trans hq'
              exact hbranch a ha'

theorem isBranch_setTip (h : Linked tree) (hv : ∀ nHeight, Coherent tree nHeight chain.vChain) (hp : tree.Has p) :
    IsBranch tree (chain.setTip tree (some p)).vChain p := by
  have hpos := h.height hp
  have hcoherent : Coherent tree p.nHeight (resize chain.vChain (p.nHeight.toNat + 1)) := by
    intro q hq hle hin a ha
    have hqpos := h.height hq
    have hale := (h.prevs_of_isAncestor hq ha).1
    rw [in_resize (by omega)] at hin ⊢
    exact hv _ q hq hle hin a ha
  have hlength : (resize chain.vChain (p.nHeight.toNat + 1)).length = p.nHeight.toNat + 1 := by
    rw [resize, List.length_append, List.length_take, List.length_replicate]
    omega
  obtain ⟨hsize, hbranch, -⟩ := linkBack_spec h hp (show p.nHeight < (p.nHeight.toNat + 1 : Nat) by omega)
    (by omega) hcoherent
  exact ⟨hp, by rw [setTip, hsize]; omega, hbranch⟩

/-- The genesis block is on every branch. -/
theorem isAncestor_of_height_zero (h : Linked tree) (hp : tree.Has p) (hzero : p.nHeight = 0) (htip : tree.Has tip) :
    tree.IsAncestor p tip := by
  obtain ⟨c, -, ⟨k, hk⟩, hright, -⟩ := h.lastCommonAncestor hp htip
  obtain ⟨hhas, hheight⟩ := h.of_prevs hp hk
  have hpos := h.height hhas
  obtain rfl : k = 0 := by omega
  exact (Option.some.inj hk).symm ▸ hright

/-! ## `GetLocator` -/

/-- The index and the skip pointers lead to the same block. -/
theorem next_spec (h : Linked tree) (hv : ∀ nHeight, Coherent tree nHeight chain.vChain) (hq : tree.Has q)
    {nHeight : Int} (h0 : 0 ≤ nHeight) (hle : nHeight ≤ q.nHeight) :
    ∃ a, (if chain.contains q then (chain.entryAt nHeight).bind tree.find else tree.getAncestor q nHeight) = some a ∧
      tree.IsAncestor a q ∧ a.nHeight = nHeight := by
  obtain ⟨a, hget, hprevs, hhas, hheight⟩ := h.exists_getAncestor hq h0 hle
  refine ⟨a, ?_, ⟨_, hprevs⟩, hheight⟩
  split_ifs with hcontains
  · have hin := hv _ q hq le_rfl ((contains_eq_true h hq).mp hcontains) a ⟨_, hprevs⟩
    rw [In, hheight, ← entryAt_eq_some h0] at hin
    rw [hin]
    exact hhas
  · exact hget

/-- `r` is at most twice as far below `p` as any common ancestor of `p` and the tip. -/
def Near (tree : BlockTree) (tip p r : CBlockIndex) : Prop :=
  ∀ a, tree.IsAncestor a p → tree.IsAncestor a tip → p.nHeight - r.nHeight ≤ 2 * (p.nHeight - a.nHeight)

/-- What the search through a locator finds in the chain of another tip. The steps of the locator are never longer than
the way that lies behind them. -/
theorem findSome?_locatorFrom (h : Linked tree) (hv : ∀ nHeight, Coherent tree nHeight chain.vChain) {chain' : CChain}
    (hv' : IsBranch tree chain'.vChain tip) (hp : tree.Has p) {fuel nStep size : Nat} (hq : tree.IsAncestor q p)
    (hfuel : q.nHeight < fuel) (hpos : 0 < nStep) (hstep : q.nHeight = 0 ∨ nStep ≤ max 1 (p.nHeight - q.nHeight))
    (hsize : size ≤ p.nHeight - q.nHeight) (hnear : Near tree tip p q) :
    ∃ r, (locatorFrom tree chain fuel nStep size (some q)).findSome? (findInChain tree chain') = some r ∧
      tree.IsAncestor r p ∧ tree.IsAncestor r tip ∧ Near tree tip p r := by
  obtain ⟨hqp, hprevs⟩ := h.prevs_of_isAncestor hp hq
  have hhas := (h.of_prevs hp hprevs).1
  have hq0 := h.height hhas
  induction fuel generalizing q nStep size with
  | zero => omega
  | succ fuel ih =>
      have hfind : tree.find q.phashBlock = some q := hhas
      have hcontains := (contains_eq_true h hhas).trans (hv'.in_iff h hhas)
      rw [locatorFrom]
      by_cases hon : tree.IsAncestor q tip
      · have hfound : findInChain tree chain' q.phashBlock = some q :=
          Option.filter_eq_some_iff.mpr ⟨hfind, hcontains.mpr hon⟩
        refine ⟨q, ?_, hq, hon, hnear⟩
        split_ifs <;> rw [List.findSome?_cons, hfound]
      · have hnone : findInChain tree chain' q.phashBlock = none := by
          rw [findInChain, hfind, Option.filter_some, if_neg (mt hcontains.mp hon)]
        have hne : q.nHeight ≠ 0 := fun hzero => hon (isAncestor_of_height_zero h hhas hzero hv'.has)
        obtain ⟨r, hnext, hr, hheight⟩ := next_spec h hv hhas (le_max_right (q.nHeight - nStep) 0) (by omega)
        obtain ⟨hrp, hprevs'⟩ := h.prevs_of_isAncestor hp (hr.trans hq)
        rw [if_neg hne]
        dsimp only
        rw [hnext, List.findSome?_cons, hnone]
        refine ih (hr.trans hq) (by push_cast at hfuel; omega) (by split_ifs <;> omega) (by split_ifs <;> omega)
          (by omega) (fun a ha hatip => ?_) hrp hprevs' (h.of_prevs hp hprevs').1 (by omega)
        -- the common ancestors lie below `q`
        have hlow : a.nHeight < q.nHeight := by
          by_contra hhigh
          exact hon ((h.isAncestor_of_le hp hq ha (by omega)).trans hatip)
        omega

/-! ## Runs -/

/-- The chain after calls of `SetTip`, each with an entry of the index or a null pointer. -/
def afterTips (tree : BlockTree) (tips : List (Option CBlockIndex)) : CChain := tips.foldl (setTip tree) {}

/-- The pointers are null or lead to entries of the index. -/
def InTree (tree : BlockTree) (tips : List (Option CBlockIndex)) : Prop := ∀ tip ∈ tips, ∀ p ∈ tip, tree.Has p

theorem coherent_afterTips (h : Linked tree) {tips : List (Option CBlockIndex)} (htips : InTree tree tips)
    (nHeight : Int) : Coherent tree nHeight (afterTips tree tips).vChain := by
  have hempty : ∀ n, Coherent tree n ({} : CChain).vChain := fun _ _ _ _ hin => (nomatch hin)
  unfold afterTips
  generalize ({} : CChain) = chain at hempty ⊢
  induction tips generalizing chain with
  | nil => exact hempty nHeight
  | cons tip tips ih =>
      refine ih (fun t ht => htips t (List.mem_cons_of_mem tip ht)) _ fun n => ?_
      cases tip with
      | none => exact fun _ _ _ hin => (nomatch hin)
      | some p => exact (isBranch_setTip h hempty (htips _ List.mem_cons_self p rfl)).coherent h n

/-- **The active chain is the branch of its tip**, whatever tips were set before: it is as high as the tip, it has at
every height the block that `GetAncestor` finds, and it contains the ancestors of the tip and no other block. -/
theorem chain_is_branch_of_tip (h : Linked tree) {tips : List (Option CBlockIndex)} (htips : InTree tree tips)
    (htip : tree.Has tip) :
    let chain := (afterTips tree tips).setTip tree (some tip)
    chain.height = tip.nHeight ∧
      (∀ nHeight : Int, chain.entryAt nHeight = (tree.getAncestor tip nHeight).map CBlockIndex.phashBlock) ∧
      ∀ p, tree.Has p → (chain.contains p = true ↔ tree.IsAncestor p tip) := by
  intro chain
  have hv : IsBranch tree chain.vChain tip := isBranch_setTip h (coherent_afterTips h htips) htip
  have hlength := hv.length
  refine ⟨by rw [height, hlength, add_sub_cancel_right], fun nHeight => ?_, fun p hp => ?_⟩
  · by_cases hrange : 0 ≤ nHeight ∧ nHeight ≤ tip.nHeight
    · obtain ⟨a, hget, hprevs, -, hheight⟩ := h.exists_getAncestor htip hrange.1 hrange.2
      rw [hget, Option.map_some, entryAt_eq_some hrange.1, ← hheight]
      exact hv.entry a ⟨_, hprevs⟩
    · rw [entryAt, if_pos (by omega), getAncestor, if_pos (by omega), Option.map_none]
  · rw [contains_eq_true h hp, hv.in_iff h hp]

/-- The branches of `forkEvents`. -/
def leftTip : CBlockIndex := { linkedEntry 2 (some 1) 1 with pskip := some 1 }
def rightTip : CBlockIndex := linkedEntry 3 (some 1) 1

theorem inTree_leftTip : InTree (grown forkEvents) [some leftTip] := by
  rintro _ (_ | ⟨_, ⟨⟩⟩) _ ⟨⟩
  rfl

theorem has_rightTip : (grown forkEvents).Has rightTip := rfl

theorem chain_is_branch_of_fork :
    ((afterTips (grown forkEvents) [some leftTip]).setTip (grown forkEvents) (some rightTip)).height = 1 :=
  (chain_is_branch_of_tip (.grown throughout_forkEvents) inTree_leftTip has_rightTip).1

/-- **A locator finds the fork.** A locator that was made for a block `p` is looked up when other tips have been set. A
block is found that is an ancestor of `p` and of the tip, and for every common ancestor, the last one included, it is at
most twice as far below `p`. -/
theorem locator_finds_fork (h : Linked tree) {tips tips' : List (Option CBlockIndex)} (htips : InTree tree tips)
    (htips' : InTree tree tips') (htip : tree.Has tip) (hp : tree.Has p) :
    ∃ r, ((afterTips tree tips').setTip tree (some tip)).findForkInGlobalIndex tree
        ((afterTips tree tips).getLocator tree (some p)) = some r ∧
      tree.IsAncestor r p ∧ tree.IsAncestor r tip ∧
      ∀ a, tree.IsAncestor a p → tree.IsAncestor a tip → p.nHeight - r.nHeight ≤ 2 * (p.nHeight - a.nHeight) := by
  have hpos := h.height hp
  have hnear : Near tree tip p p := fun a ha _ => by
    have hle := (h.prevs_of_isAncestor hp ha).1
    omega
  obtain ⟨r, hfind, hr⟩ := findSome?_locatorFrom h (coherent_afterTips h htips)
    (isBranch_setTip h (coherent_afterTips h htips') htip) hp ⟨0, rfl⟩
    (show p.nHeight < (p.nHeight.toNat + 1 : Nat) by omega) one_pos (.inr (le_max_left _ _))
    (show ((0 : Nat) : Int) ≤ _ by simp) hnear
  refine ⟨r, ?_, hr⟩
  rw [findForkInGlobalIndex, getLocator, Option.some_or, Option.elim_some, hfind, Option.some_or]

/-- The branch that was left, looked up in the one that was taken. -/
theorem locator_finds_fork_of_fork :
    ∃ r, (grown forkEvents).IsAncestor r leftTip ∧ (grown forkEvents).IsAncestor r rightTip := by
  have hleft : (grown forkEvents).Has leftTip := rfl
  obtain ⟨r, -, hr, hrtip, -⟩ := locator_finds_fork (.grown throughout_forkEvents) inTree_leftTip inTree_leftTip
    has_rightTip hleft
  exact ⟨r, hr, hrtip⟩

end CChain

end RavenCash
