import RavenCash.Header.BlockIndex
import RavenCash.Lib.Simulation

/-!
# Skip pointers

`GetAncestor` of `chain.cpp` walks over `pprev` and `pskip` and keeps the height it is at in a variable of its own;
which pointer it follows is decided by heights alone. `LastCommonAncestor` brings two entries to one height and then
follows `pprev` from both.

A tree grows by entries that are linked to their parents, and `BuildSkip` is called on entries. `AddToBlockIndex` does
the one right after the other, the loader of the block index links all entries first. Here both come in any order. The
invariant (`Linked`) says that a skip pointer, where there is one, leads to the ancestor of the height that
`GetSkipHeight` gives.
-/

set_option autoImplicit false

namespace RavenCash.BlockTree

/-! ## The functions -/

/-- `pprev`, followed `k` times. -/
def prevs (tree : BlockTree) : Nat → CBlockIndex → Option CBlockIndex
  | 0, pindex => some pindex
  | k + 1, pindex => (tree.prev pindex).bind (tree.prevs k)

/-- The loop of `LastCommonAncestor`: `while (pa != pb && pa && pb)`. Entries are compared by their keys. -/
def meet (tree : BlockTree) : Nat → Option CBlockIndex → Option CBlockIndex →
    Option CBlockIndex × Option CBlockIndex
  | fuel + 1, some pa, some pb =>
      if pa.phashBlock = pb.phashBlock then (some pa, some pb)
      else tree.meet fuel (tree.prev pa) (tree.prev pb)
  | _, pa, pb => (pa, pb)

/-- `LastCommonAncestor(pa, pb)`; `none` where the assertion fails. The loop goes down one height at a time. -/
def lastCommonAncestor (tree : BlockTree) (pa pb : CBlockIndex) : Option (Option CBlockIndex) :=
  let a := if pb.nHeight < pa.nHeight then tree.getAncestor pa pb.nHeight else some pa
  let b := if pa.nHeight < pb.nHeight then tree.getAncestor pb pa.nHeight else some pb
  let (a, b) := tree.meet (pa.nHeight.toNat + 1) a b
  if a.map CBlockIndex.phashBlock = b.map CBlockIndex.phashBlock then some a else none

/-- The entry in the map under its key. -/
def put (tree : BlockTree) (pindex : CBlockIndex) : BlockTree :=
  { tree with mapBlockIndex := tree.mapBlockIndex.insert pindex.phashBlock pindex }

/-- What is done to a tree: an entry with its `pprev` and `nHeight` is added, `BuildSkip` is called on an entry. -/
inductive Event where
  | link (pindex : CBlockIndex)
  | buildSkip (hash : UInt256)

def step (tree : BlockTree) : Event → BlockTree
  | .link pindex => tree.put pindex
  | .buildSkip hash =>
      match tree.find hash with
      | some pindex => tree.put (tree.buildSkip pindex)
      | none => tree

/-- A new entry is one higher than its parent, which is in the tree; the first entry is the genesis block. `BuildSkip`
may be called at any time. -/
def Permitted (tree : BlockTree) : Event → Prop
  | .link pindex =>
      tree.find pindex.phashBlock = none ∧ pindex.pskip = none ∧
        match pindex.pprev with
        | some hash => ∃ parent, tree.find hash = some parent ∧ pindex.nHeight = parent.nHeight + 1
        | none => tree.mapBlockIndex = ∅ ∧ pindex.nHeight = 0
  | .buildSkip _ => True

/-- The tree after the events. -/
def grown (events : List Event) : BlockTree := Simulation.exec step {} events

/-! ## The heights of the skip pointers -/

theorem invertLowestOne_le (n : Nat) : invertLowestOne n ≤ n - 1 := Nat.and_le_right

theorem getSkipHeight_lt {n : Nat} (h : 0 < n) : getSkipHeight n < n := by
  unfold getSkipHeight
  have hinner := invertLowestOne_le (n - 1)
  have houter := invertLowestOne_le (invertLowestOne (n - 1))
  have heven := invertLowestOne_le n
  split_ifs <;> omega

theorem le_of_followSkip {height heightWalk : Nat} (h : followSkip height heightWalk = true) :
    height ≤ getSkipHeight heightWalk := by
  unfold followSkip at h
  rw [Bool.or_eq_true, Bool.and_eq_true, beq_iff_eq, decide_eq_true_iff] at h
  rcases h with heq | ⟨hlt, -⟩
  · exact heq.ge
  · exact hlt.le

/-! ## Following `pprev` -/

variable {tree tree' : BlockTree} {p q : CBlockIndex}

theorem prevs_succ (tree : BlockTree) (k : Nat) (p : CBlockIndex) :
    tree.prevs (k + 1) p = (tree.prev p).bind (tree.prevs k) := rfl

theorem prevs_add (tree : BlockTree) (m n : Nat) (p : CBlockIndex) :
    tree.prevs (m + n) p = (tree.prevs m p).bind (tree.prevs n) := by
  induction m generalizing p with
  | zero => rw [Nat.zero_add]; rfl
  | succ m ih =>
      rw [Nat.succ_add, prevs_succ, prevs_succ, Option.bind_assoc]
      exact congrArg ((tree.prev p).bind ·) (funext ih)

theorem find_put (tree : BlockTree) (p : CBlockIndex) (hash : UInt256) :
    (tree.put p).find hash = if hash = p.phashBlock then some p else tree.find hash :=
  StdMap.lookup_assign _ _ _ _

/-- The entries of one tree are in the other one, with the same links. -/
def SameLinks (tree tree' : BlockTree) : Prop :=
  ∀ hash p, tree.find hash = some p → ∃ p', tree'.find hash = some p' ∧ p'.phashBlock = p.phashBlock ∧
    p'.pprev = p.pprev ∧ p'.nHeight = p.nHeight

theorem SameLinks.prevs (h : SameLinks tree tree') {k : Nat} {p p' a : CBlockIndex}
    (hkey : p'.phashBlock = p.phashBlock) (hprev : p'.pprev = p.pprev) (ha : tree.prevs k p = some a) :
    ∃ a', tree'.prevs k p' = some a' ∧ a'.phashBlock = a.phashBlock := by
  induction k generalizing p p' with
  | zero => exact ⟨p', rfl, (Option.some.inj ha) ▸ hkey⟩
  | succ k ih =>
      obtain ⟨q, hq, ha⟩ := Option.bind_eq_some_iff.mp ha
      obtain ⟨hash, hhash, hfind⟩ := Option.bind_eq_some_iff.mp hq
      obtain ⟨q', hfind', hkey', hprev', -⟩ := h hash q hfind
      obtain ⟨a', ha', heq⟩ := ih hkey' hprev' ha
      refine ⟨a', ?_, heq⟩
      rw [prevs_succ, BlockTree.prev, hprev, hhash, Option.bind_some, hfind', Option.bind_some, ha']

/-! ## The invariant -/

/-- What holds of a tree whose entries were linked to their parents. -/
structure Linked (tree : BlockTree) : Prop where
  key : ∀ {hash p}, tree.find hash = some p → p.phashBlock = hash
  parent : ∀ {hash p prev}, tree.find hash = some p → p.pprev = some prev →
    ∃ parent, tree.find prev = some parent ∧ p.nHeight = parent.nHeight + 1
  height : ∀ {hash p}, tree.find hash = some p → 0 ≤ p.nHeight
  genesis : ∀ {hash p}, tree.find hash = some p → p.pprev = none → p.nHeight = 0
  /-- There is one genesis block. -/
  single : ∀ {hash hash' p p'}, tree.find hash = some p → tree.find hash' = some p' → p.pprev = none →
    p'.pprev = none → hash = hash'
  /-- A skip pointer leads to the ancestor of its height. -/
  skip : ∀ {hash p s}, tree.find hash = some p → p.pskip = some s →
    ∃ a, tree.prevs (p.nHeight.toNat - getSkipHeight p.nHeight.toNat) p = some a ∧ a.phashBlock = s

/-- The entry is in the tree. -/
def Has (tree : BlockTree) (p : CBlockIndex) : Prop := tree.find p.phashBlock = some p

theorem Linked.has (h : Linked tree) {hash : UInt256} (hfind : tree.find hash = some p) : tree.Has p := by
  rw [Has, h.key hfind]
  exact hfind

theorem Linked.has_prev (h : Linked tree) (hp : tree.Has p) (hq : tree.prev p = some q) :
    tree.Has q ∧ p.nHeight = q.nHeight + 1 := by
  obtain ⟨hash, hhash, hfind⟩ := Option.bind_eq_some_iff.mp hq
  obtain ⟨parent, hparent, hheight⟩ := h.parent hp hhash
  rw [hfind] at hparent
  cases hparent
  exact ⟨h.has hfind, hheight⟩

/-- Above the genesis block there is a parent. -/
theorem Linked.exists_prev (h : Linked tree) (hp : tree.Has p) (hpos : 0 < p.nHeight) : ∃ q, tree.prev p = some q := by
  cases hprev : p.pprev with
  | none => exact absurd (h.genesis hp hprev) hpos.ne'
  | some hash =>
      obtain ⟨q, hq, -⟩ := h.parent hp hprev
      exact ⟨q, by rw [BlockTree.prev, hprev]; exact hq⟩

/-- Every height below has its ancestor. -/
theorem Linked.exists_prevs (h : Linked tree) (hp : tree.Has p) {k : Nat} (hk : (k : Int) ≤ p.nHeight) :
    ∃ a, tree.prevs k p = some a ∧ tree.Has a ∧ a.nHeight = p.nHeight - k := by
  induction k generalizing p with
  | zero => exact ⟨p, rfl, hp, (sub_zero _).symm⟩
  | succ k ih =>
      push_cast at hk
      obtain ⟨q, hq⟩ := h.exists_prev hp (by omega)
      obtain ⟨hhas, hheight⟩ := h.has_prev hp hq
      obtain ⟨a, ha, hahas, haheight⟩ := ih hhas (by omega)
      refine ⟨a, ?_, hahas, by push_cast; omega⟩
      rw [prevs_succ, hq]
      exact ha

theorem Linked.of_prevs (h : Linked tree) (hp : tree.Has p) {k : Nat} {a : CBlockIndex}
    (ha : tree.prevs k p = some a) : tree.Has a ∧ a.nHeight = p.nHeight - k := by
  induction k generalizing p with
  | zero =>
      cases ha
      exact ⟨hp, (sub_zero _).symm⟩
  | succ k ih =>
      obtain ⟨q, hq, ha⟩ := Option.bind_eq_some_iff.mp ha
      obtain ⟨hhas, hheight⟩ := h.has_prev hp hq
      obtain ⟨hahas, haheight⟩ := ih hhas ha
      exact ⟨hahas, by push_cast; omega⟩

/-! ## `GetAncestor` -/

/-- The walk, whichever pointers it follows, ends where `pprev` leads. -/
theorem Linked.walkTo (h : Linked tree) (hp : tree.Has p) {height fuel heightWalk : Nat}
    (hheight : p.nHeight = heightWalk) (hle : height ≤ heightWalk) (hfuel : heightWalk - height ≤ fuel) :
    tree.walkTo height fuel heightWalk p = tree.prevs (heightWalk - height) p := by
  induction fuel generalizing p heightWalk with
  | zero =>
      rw [show heightWalk - height = 0 by omega]
      rfl
  | succ fuel ih =>
      rw [BlockTree.walkTo]
      split_ifs with hdone hskip
      · rw [show heightWalk - height = 0 by omega]
        rfl
      · obtain ⟨hsome, hfollow⟩ := (Bool.and_eq_true _ _).mp hskip
        obtain ⟨s, hs⟩ := Option.isSome_iff_exists.mp hsome
        obtain ⟨a, ha, hkey⟩ := h.skip hp hs
        have hlow := le_of_followSkip hfollow
        have hlt := getSkipHeight_lt (n := heightWalk) (by omega)
        rw [hheight, Int.toNat_natCast] at ha
        obtain ⟨hhas, haheight⟩ := h.of_prevs hp ha
        rw [hs, Option.bind_some, ← hkey, hhas, Option.bind_some, ih hhas (by omega) hlow (by omega),
          show heightWalk - height = (heightWalk - getSkipHeight heightWalk) +
              (getSkipHeight heightWalk - height) by omega,
          prevs_add, ha, Option.bind_some]
      · obtain ⟨q, hq⟩ := h.exists_prev hp (by omega)
        obtain ⟨hhas, hqheight⟩ := h.has_prev hp hq
        rw [hq, Option.bind_some, ih hhas (by omega) (by omega) (by omega),
          show heightWalk - height = (heightWalk - 1 - height) + 1 by omega, prevs_succ, hq, Option.bind_some]

theorem Linked.getAncestor (h : Linked tree) (hp : tree.Has p) {height : Int} (h0 : 0 ≤ height)
    (hle : height ≤ p.nHeight) : tree.getAncestor p height = tree.prevs (p.nHeight - height).toNat p := by
  rw [BlockTree.getAncestor, if_neg (by omega), h.walkTo hp (by omega) (by omega) (by omega)]
  congr 1
  omega

/-! ## What the events keep -/

theorem sameLinks_put (h : ∀ old, tree.find p.phashBlock = some old → p.pprev = old.pprev ∧ p.nHeight = old.nHeight)
    (hkey : ∀ {hash q}, tree.find hash = some q → q.phashBlock = hash) : SameLinks tree (tree.put p) := by
  intro hash old hold
  rw [find_put]
  split_ifs with heq
  · subst heq
    exact ⟨p, rfl, (hkey hold).symm, h old hold⟩
  · exact ⟨old, hold, rfl, rfl, rfl⟩

/-- An entry is put into a tree, as a new one or in the place of one with the same links. -/
theorem Linked.put (h : Linked tree)
    (hold : ∀ old, tree.find p.phashBlock = some old → p.pprev = old.pprev ∧ p.nHeight = old.nHeight)
    (hparent : ∀ prev, p.pprev = some prev →
      ∃ parent, tree.find prev = some parent ∧ p.nHeight = parent.nHeight + 1)
    (hgenesis : p.pprev = none → p.nHeight = 0 ∧
      ∀ hash q, tree.find hash = some q → q.pprev = none → hash = p.phashBlock)
    (hskip : ∀ s, p.pskip = some s →
      ∃ a, tree.prevs (p.nHeight.toNat - getSkipHeight p.nHeight.toNat) p = some a ∧ a.phashBlock = s) :
    Linked (tree.put p) := by
  have hsame := sameLinks_put hold h.key
  -- an entry of the new tree is `p` or an old one
  have hcases : ∀ {hash q}, (tree.put p).find hash = some q →
      hash = p.phashBlock ∧ q = p ∨ hash ≠ p.phashBlock ∧ tree.find hash = some q := by
    intro hash q hq
    rw [find_put] at hq
    split_ifs at hq with heq
    · exact .inl ⟨heq, (Option.some.inj hq).symm⟩
    · exact .inr ⟨heq, hq⟩
  have hparent' : ∀ {prev parent : _} {n : Int}, tree.find prev = some parent → n = parent.nHeight + 1 →
      ∃ parent', (tree.put p).find prev = some parent' ∧ n = parent'.nHeight + 1 := by
    intro prev parent n hfind hn
    obtain ⟨parent', hfind', -, -, hheight⟩ := hsame prev parent hfind
    exact ⟨parent', hfind', by rw [hheight]; exact hn⟩
  have hskip' : ∀ {q : CBlockIndex} {s k}, (∃ a, tree.prevs k q = some a ∧ a.phashBlock = s) →
      ∃ a, (tree.put p).prevs k q = some a ∧ a.phashBlock = s := by
    rintro q s k ⟨a, ha, hs⟩
    obtain ⟨a', ha', heq⟩ := hsame.prevs rfl rfl ha
    exact ⟨a', ha', heq.trans hs⟩
  constructor
  · intro hash q hq
    obtain ⟨rfl, rfl⟩ | ⟨-, hq⟩ := hcases hq
    · rfl
    · exact h.key hq
  · intro hash q prev hq hprev
    obtain ⟨-, rfl⟩ | ⟨-, hq⟩ := hcases hq
    · obtain ⟨parent, hfind, hn⟩ := hparent prev hprev
      exact hparent' hfind hn
    · obtain ⟨parent, hfind, hn⟩ := h.parent hq hprev
      exact hparent' hfind hn
  · intro hash q hq
    obtain ⟨-, rfl⟩ | ⟨-, hq⟩ := hcases hq
    · cases hprev : q.pprev with
      | none => exact (hgenesis hprev).1.ge
      | some prev =>
          obtain ⟨parent, hfind, hn⟩ := hparent prev hprev
          have hpos := h.height hfind
          omega
    · exact h.height hq
  · intro hash q hq hprev
    obtain ⟨-, rfl⟩ | ⟨-, hq⟩ := hcases hq
    · exact (hgenesis hprev).1
    · exact h.genesis hq hprev
  · intro hash hash' q q' hq hq' hprev hprev'
    obtain ⟨rfl, rfl⟩ | ⟨-, hfind⟩ := hcases hq
    · obtain ⟨rfl, rfl⟩ | ⟨-, hfind'⟩ := hcases hq'
      · rfl
      · exact ((hgenesis hprev).2 hash' q' hfind' hprev').symm
    · obtain ⟨rfl, rfl⟩ | ⟨-, hfind'⟩ := hcases hq'
      · exact (hgenesis hprev').2 hash q hfind hprev
      · exact h.single hfind hfind' hprev hprev'
  · intro hash q s hq hs
    obtain ⟨-, rfl⟩ | ⟨-, hq⟩ := hcases hq
    · exact hskip' (hskip s hs)
    · exact hskip' (h.skip hq hs)

theorem Linked.empty : Linked {} := by
  constructor <;> intros <;> contradiction

/-- The skip pointer that `BuildSkip` sets. -/
theorem Linked.pskip_buildSkip (h : Linked tree) (hp : tree.Has p) {s : UInt256}
    (hs : (tree.buildSkip p).pskip = some s) (hq : tree.prev p = some q) :
    ∃ a, tree.prevs (p.nHeight.toNat - getSkipHeight p.nHeight.toNat) p = some a ∧ a.phashBlock = s := by
  obtain ⟨hhas, hheight⟩ := h.has_prev hp hq
  have hpos := h.height hhas
  have hlt := getSkipHeight_lt (n := p.nHeight.toNat) (by omega)
  unfold buildSkip at hs
  rw [hq] at hs
  simp only at hs
  rw [h.getAncestor hhas (by omega) (by omega)] at hs
  obtain ⟨a, ha, hkey⟩ := Option.map_eq_some_iff.mp hs
  refine ⟨a, ?_, hkey⟩
  rw [show p.nHeight.toNat - getSkipHeight p.nHeight.toNat =
    (q.nHeight - (getSkipHeight p.nHeight.toNat : Int)).toNat + 1 by omega, prevs_succ, hq]
  exact ha

/-- `BuildSkip` changes the skip pointer only, and only if there is a parent. -/
theorem buildSkip_cases (tree : BlockTree) (p : CBlockIndex) :
    tree.buildSkip p = p ∨ ∃ q s, tree.prev p = some q ∧ tree.buildSkip p = { p with pskip := s } := by
  unfold buildSkip
  cases hq : tree.prev p with
  | none => exact .inl rfl
  | some q => exact .inr ⟨q, _, rfl, rfl⟩

theorem Linked.put_buildSkip (h : Linked tree) (hp : tree.Has p) : Linked (tree.put (tree.buildSkip p)) := by
  -- an entry with the links of `p`
  have hput : ∀ p' : CBlockIndex, p'.phashBlock = p.phashBlock → p'.pprev = p.pprev → p'.nHeight = p.nHeight →
      (∀ s, p'.pskip = some s →
        ∃ a, tree.prevs (p'.nHeight.toNat - getSkipHeight p'.nHeight.toNat) p' = some a ∧ a.phashBlock = s) →
      Linked (tree.put p') := by
    intro p' hkey hprev hheight hskip
    refine h.put (fun old hold => ?_) (fun prev hp' => ?_) (fun hnone => ?_) hskip
    · rw [hkey, hp] at hold
      cases hold
      exact ⟨hprev, hheight⟩
    · rw [hheight]
      exact h.parent hp (hprev ▸ hp')
    · rw [hprev] at hnone
      refine ⟨hheight ▸ h.genesis hp hnone, fun hash q hq hqnone => ?_⟩
      rw [hkey]
      exact h.single hq hp hqnone hnone
  rcases buildSkip_cases tree p with hsame | ⟨q, s, hq, hset⟩
  · rw [hsame]
    exact hput p rfl rfl rfl fun s hs => h.skip hp hs
  · rw [hset]
    refine hput _ rfl rfl rfl fun s' hs' => ?_
    obtain ⟨a, ha, hkey⟩ := h.pskip_buildSkip hp (s := s') (by rw [hset]; exact hs') hq
    have hself : SameLinks tree tree := fun _ q hq => ⟨q, hq, rfl, rfl, rfl⟩
    -- the skip pointer of `p` itself is not on the way
    obtain ⟨a', ha', heq⟩ : ∃ a', tree.prevs _ { p with pskip := s } = some a' ∧ a'.phashBlock = a.phashBlock :=
      hself.prevs (p := p) rfl rfl ha
    exact ⟨a', ha', heq.trans hkey⟩

theorem Linked.step (h : Linked tree) {event : Event} (hevent : tree.Permitted event) : Linked (tree.step event) := by
  cases event with
  | link pindex =>
      obtain ⟨hnew, hskip, hprev⟩ := hevent
      refine h.put (fun old hold => absurd (hnew.symm.trans hold) (by simp)) ?_ ?_
        (fun s hs => absurd (hskip.symm.trans hs) (by simp))
      · intro prev hprev'
        rw [hprev'] at hprev
        exact hprev
      · intro hnone
        rw [hnone] at hprev
        refine ⟨hprev.2, fun hash q hq _ => ?_⟩
        rw [BlockTree.find, hprev.1] at hq
        cases hq
  | buildSkip hash =>
      show Linked (match tree.find hash with
        | some pindex => tree.put (tree.buildSkip pindex)
        | none => tree)
      cases hfind : tree.find hash with
      | none => exact h
      | some p => exact h.put_buildSkip (h.has hfind)

theorem Linked.grown {events : List Event} (hevents : Simulation.Throughout BlockTree.step Permitted {} events) :
    Linked (BlockTree.grown events) :=
  Simulation.exec_invariant (fun _ _ h hevent => h.step hevent) Linked.empty hevents

/-! ## `LastCommonAncestor` -/

/-- `a` is `p` or reached from it by `pprev`. -/
def IsAncestor (tree : BlockTree) (a p : CBlockIndex) : Prop := ∃ k, tree.prevs k p = some a

theorem Linked.eq_of_key (_h : Linked tree) (hp : tree.Has p) (hq : tree.Has q) (hkey : p.phashBlock = q.phashBlock) :
    p = q := by
  unfold Has at hp hq
  rw [hkey, hq] at hp
  exact (Option.some.inj hp).symm

/-- An ancestor is where its height says. -/
theorem Linked.prevs_of_isAncestor (h : Linked tree) (hp : tree.Has p) {a : CBlockIndex} (ha : tree.IsAncestor a p) :
    a.nHeight ≤ p.nHeight ∧ tree.prevs (p.nHeight - a.nHeight).toNat p = some a := by
  obtain ⟨k, hk⟩ := ha
  obtain ⟨-, hheight⟩ := h.of_prevs hp hk
  refine ⟨by omega, ?_⟩
  rw [show (p.nHeight - a.nHeight).toNat = k by omega]
  exact hk

theorem IsAncestor.trans {a : CBlockIndex} (ha : tree.IsAncestor a q) (hq : tree.IsAncestor q p) :
    tree.IsAncestor a p := by
  obtain ⟨m, hm⟩ := ha
  obtain ⟨n, hn⟩ := hq
  refine ⟨n + m, ?_⟩
  rw [prevs_add, hn]
  exact hm

/-- The ancestors that are not higher than an ancestor are its ancestors. -/
theorem Linked.isAncestor_of_le (h : Linked tree) (hp : tree.Has p) {a : CBlockIndex} (ha : tree.IsAncestor a p)
    (hq : tree.IsAncestor q p) (hle : a.nHeight ≤ q.nHeight) : tree.IsAncestor a q := by
  obtain ⟨hqle, hqprevs⟩ := h.prevs_of_isAncestor hp hq
  obtain ⟨hale, haprevs⟩ := h.prevs_of_isAncestor hp ha
  refine ⟨(q.nHeight - a.nHeight).toNat, ?_⟩
  rw [show (p.nHeight - a.nHeight).toNat = (p.nHeight - q.nHeight).toNat + (q.nHeight - a.nHeight).toNat by omega,
    prevs_add, hqprevs] at haprevs
  exact haprevs

/-- `c` is the highest block that is an ancestor of both. -/
structure IsLastCommon (tree : BlockTree) (c pa pb : CBlockIndex) : Prop where
  left : tree.IsAncestor c pa
  right : tree.IsAncestor c pb
  highest : ∀ d, tree.IsAncestor d pa → tree.IsAncestor d pb → d.nHeight ≤ c.nHeight

/-- The loop, from two blocks of one height. -/
theorem Linked.meet (h : Linked tree) {fuel : Nat} {pa pb : CBlockIndex} (ha : tree.Has pa) (hb : tree.Has pb)
    (hheight : pa.nHeight = pb.nHeight) (hfuel : pa.nHeight < fuel) :
    ∃ c, tree.meet fuel (some pa) (some pb) = (some c, some c) ∧ tree.IsLastCommon c pa pb := by
  induction fuel generalizing pa pb with
  | zero =>
      have hpos := h.height ha
      omega
  | succ fuel ih =>
      rw [BlockTree.meet]
      split_ifs with hkey
      · obtain rfl := h.eq_of_key ha hb hkey
        exact ⟨pa, rfl, ⟨0, rfl⟩, ⟨0, rfl⟩, fun d hd _ => (h.prevs_of_isAncestor ha hd).1⟩
      · -- two genesis blocks would be one
        have hpos : 0 < pa.nHeight := by
          refine lt_of_le_of_ne (h.height ha) fun hzero => hkey ?_
          refine h.single ha hb ?_ ?_
          · by_contra hsome
            obtain ⟨prev, hprev⟩ := Option.ne_none_iff_exists'.mp hsome
            obtain ⟨parent, hfind, hn⟩ := h.parent ha hprev
            have hparent := h.height hfind
            omega
          · by_contra hsome
            obtain ⟨prev, hprev⟩ := Option.ne_none_iff_exists'.mp hsome
            obtain ⟨parent, hfind, hn⟩ := h.parent hb hprev
            have hparent := h.height hfind
            omega
        obtain ⟨qa, hqa⟩ := h.exists_prev ha hpos
        obtain ⟨qb, hqb⟩ := h.exists_prev hb (hheight ▸ hpos)
        obtain ⟨hhasa, hna⟩ := h.has_prev ha hqa
        obtain ⟨hhasb, hnb⟩ := h.has_prev hb hqb
        obtain ⟨c, hmeet, hca, hcb, hhighest⟩ := ih hhasa hhasb (by omega) (by push_cast at hfuel; omega)
        have haa : tree.IsAncestor qa pa := ⟨1, by rw [prevs_succ, hqa]; rfl⟩
        have hbb : tree.IsAncestor qb pb := ⟨1, by rw [prevs_succ, hqb]; rfl⟩
        rw [hqa, hqb]
        refine ⟨c, hmeet, hca.trans haa, hcb.trans hbb, fun d hda hdb => ?_⟩
        -- a common ancestor is below both
        have hlow : d.nHeight < pa.nHeight := by
          obtain ⟨hle, hda'⟩ := h.prevs_of_isAncestor ha hda
          refine lt_of_le_of_ne hle fun heq => hkey ?_
          obtain ⟨-, hdb'⟩ := h.prevs_of_isAncestor hb hdb
          rw [heq, sub_self] at hda'
          rw [heq, hheight, sub_self] at hdb'
          rw [Option.some.inj hda', Option.some.inj hdb']
        exact hhighest d (h.isAncestor_of_le ha hda haa (by omega)) (h.isAncestor_of_le hb hdb hbb (by omega))

/-- A block brought down to the height of a lower one has the same common ancestors. -/
theorem Linked.isLastCommon_of_lowered (h : Linked tree) {c pa pb a : CBlockIndex} (ha : tree.Has pa) (hb : tree.Has pb)
    (haa : tree.IsAncestor a pa) (hheight : a.nHeight = pb.nHeight) (hc : tree.IsLastCommon c a pb) :
    tree.IsLastCommon c pa pb := by
  refine ⟨hc.left.trans haa, hc.right, fun d hda hdb => hc.highest d ?_ hdb⟩
  exact h.isAncestor_of_le ha hda haa (hheight ▸ (h.prevs_of_isAncestor hb hdb).1)

theorem IsLastCommon.symm {c pa pb : CBlockIndex} (h : tree.IsLastCommon c pa pb) : tree.IsLastCommon c pb pa :=
  ⟨h.right, h.left, fun d hb ha => h.highest d ha hb⟩

/-- The ancestor that `GetAncestor` finds at the height of a lower block. -/
theorem Linked.exists_getAncestor (h : Linked tree) (hp : tree.Has p) {height : Int} (h0 : 0 ≤ height)
    (hle : height ≤ p.nHeight) : ∃ a, tree.getAncestor p height = some a ∧
      tree.prevs (p.nHeight - height).toNat p = some a ∧ tree.Has a ∧ a.nHeight = height := by
  obtain ⟨a, ha, hhas, hheight⟩ := h.exists_prevs hp (k := (p.nHeight - height).toNat) (by omega)
  exact ⟨a, (h.getAncestor hp h0 hle).trans ha, ha, hhas, by omega⟩

theorem Linked.lastCommonAncestor (h : Linked tree) {pa pb : CBlockIndex} (ha : tree.Has pa) (hb : tree.Has pb) :
    ∃ c, tree.lastCommonAncestor pa pb = some (some c) ∧ tree.IsLastCommon c pa pb := by
  unfold BlockTree.lastCommonAncestor
  have hposa := h.height ha
  have hposb := h.height hb
  have hfuel : pa.nHeight < (pa.nHeight.toNat + 1 : Nat) := by omega
  rcases lt_trichotomy pa.nHeight pb.nHeight with hlt | heq | hgt
  · obtain ⟨b, hget, hprevs, hhas, hheight⟩ := h.exists_getAncestor hb hposa hlt.le
    obtain ⟨c, hmeet, hc⟩ := h.meet ha hhas hheight.symm hfuel
    refine ⟨c, ?_, (h.isLastCommon_of_lowered hb ha ⟨_, hprevs⟩ hheight hc.symm).symm⟩
    simp only [if_neg hlt.not_gt, if_pos hlt, hget, hmeet, if_true]
  · obtain ⟨c, hmeet, hc⟩ := h.meet ha hb heq hfuel
    refine ⟨c, ?_, hc⟩
    simp only [if_neg heq.not_lt, if_neg heq.not_gt, hmeet, if_true]
  · obtain ⟨a, hget, hprevs, hhas, hheight⟩ := h.exists_getAncestor ha hposb hgt.le
    obtain ⟨c, hmeet, hc⟩ := h.meet hhas hb hheight (hheight.trans_lt (hgt.trans hfuel))
    refine ⟨c, ?_, h.isLastCommon_of_lowered ha hb ⟨_, hprevs⟩ hheight hc⟩
    simp only [if_pos hgt, if_neg hgt.not_gt, hget, hmeet, if_true]

/-- **Ancestors.** In every tree that was built from the genesis block, whenever `BuildSkip` was called, `GetAncestor`
finds the block that `pprev` leads to, at every height from the genesis block to the block itself, and
`LastCommonAncestor` the highest block that is an ancestor of both. No assertion fails. -/
theorem ancestors_of_grown {events : List Event} (hevents : Simulation.Throughout BlockTree.step Permitted {} events) :
    (∀ b, (BlockTree.grown events).Has b → ∀ height : Int, 0 ≤ height → height ≤ b.nHeight →
      ∃ a, (BlockTree.grown events).getAncestor b height = some a ∧
        (BlockTree.grown events).prevs (b.nHeight - height).toNat b = some a ∧ a.nHeight = height) ∧
    ∀ pa pb, (BlockTree.grown events).Has pa → (BlockTree.grown events).Has pb →
      ∃ c, (BlockTree.grown events).lastCommonAncestor pa pb = some (some c) ∧
        (BlockTree.grown events).IsLastCommon c pa pb := by
  have h := Linked.grown hevents
  refine ⟨fun b hb height h0 hle => ?_, fun pa pb ha hb => h.lastCommonAncestor ha hb⟩
  obtain ⟨a, hget, hprevs, -, hheight⟩ := h.exists_getAncestor hb h0 hle
  exact ⟨a, hget, hprevs, hheight⟩

/-- An entry of the block index with nothing but its links. -/
def linkedEntry (hash : UInt256) (pprev : Option UInt256) (nHeight : Int) : CBlockIndex where
  phashBlock := hash
  pprev := pprev
  nHeight := nHeight
  nVersion := 1
  hashMerkleRoot := 0
  nTime := 0
  nBits := 0
  nNonce := 0
  nNonce64 := 0
  mix_hash := 0

/-- A genesis block with two children, of which one has its skip pointer. -/
def forkEvents : List Event :=
  [.link (linkedEntry 1 none 0), .link (linkedEntry 2 (some 1) 1), .buildSkip 2, .link (linkedEntry 3 (some 1) 1)]

theorem throughout_forkEvents : Simulation.Throughout BlockTree.step Permitted {} forkEvents :=
  ⟨⟨rfl, rfl, rfl, rfl⟩, ⟨rfl, rfl, _, rfl, rfl⟩, trivial, ⟨rfl, rfl, _, rfl, rfl⟩, trivial⟩

theorem ancestors_of_fork :
    Simulation.Throughout BlockTree.step Permitted {} forkEvents ∧
      ∃ c, (BlockTree.grown forkEvents).lastCommonAncestor
          { linkedEntry 2 (some 1) 1 with pskip := some 1 } (linkedEntry 3 (some 1) 1) = some (some c) ∧
        (BlockTree.grown forkEvents).IsLastCommon c
          { linkedEntry 2 (some 1) 1 with pskip := some 1 } (linkedEntry 3 (some 1) 1) :=
  ⟨throughout_forkEvents, (ancestors_of_grown throughout_forkEvents).2 _ _ rfl rfl⟩

end RavenCash.BlockTree
