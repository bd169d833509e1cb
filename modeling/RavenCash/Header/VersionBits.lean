import RavenCash.Header.Ancestors
import RavenCash.Lib.Median

/-!
# Deployments

The states of a soft fork (`versionbits.cpp`) change at the ends of periods. `GetStateFor` walks back over the last
blocks of the periods until it meets one whose state is in the cache or whose median time is before the start, and then
forward again, filling the cache. What it should find is the state machine of BIP9, run period by period from the
genesis block (`machine`).

Where the walk stops before the start it takes the state to be DEFINED. The machine agrees only if the timeout has not
passed by then: `independent_iff`.
-/

set_option autoImplicit false

namespace RavenCash

inductive ThresholdState where
  | DEFINED
  | STARTED
  | LOCKED_IN
  | ACTIVE
  | FAILED
deriving DecidableEq, Repr

/-- `ThresholdConditionCache`; the key of `nullptr` is `none`. -/
abbrev ThresholdConditionCache := StdMap (Option UInt256) ThresholdState

/-- `AbstractThresholdConditionChecker`: the fields are its virtual functions. -/
structure ThresholdConditionChecker where
  condition : CBlockIndex → Bool
  beginTime : Int
  endTime : Int
  period : Nat
  period_pos : 0 < period
  threshold : Int

namespace ThresholdConditionChecker

variable (c : ThresholdConditionChecker) (tree : BlockTree)

/-! ## `GetStateFor` -/

/-- The loop that counts the signalling blocks; `none` where it dereferences `nullptr`. -/
def count : Nat → Option CBlockIndex → Option Nat
  | 0, _ => some 0
  | _ + 1, none => none
  | n + 1, some pindexCount =>
      (count n (tree.prev pindexCount)).map fun count => if c.condition pindexCount then count + 1 else count

/-- One iteration of the walk forward. -/
def stateNext (state : ThresholdState) (pindexPrev : CBlockIndex) : Option ThresholdState :=
  match state with
  | .DEFINED =>
      if c.endTime ≤ tree.getMedianTimePast pindexPrev then some .FAILED
      else if c.beginTime ≤ tree.getMedianTimePast pindexPrev then some .STARTED
      else some .DEFINED
  | .STARTED =>
      if c.endTime ≤ tree.getMedianTimePast pindexPrev then some .FAILED
      else (c.count tree c.period (some pindexPrev)).map fun (count : Nat) =>
        if c.threshold ≤ count then .LOCKED_IN else .STARTED
  | .LOCKED_IN => some .ACTIVE
  | .FAILED => some .FAILED
  | .ACTIVE => some .ACTIVE

def cacheKey (pindexPrev : Option CBlockIndex) : Option UInt256 := pindexPrev.map CBlockIndex.phashBlock

/-- The walk back in steps of a period; the last element of `vToCompute` is the first of the list. -/
def walkBack : Nat → ThresholdConditionCache → Option CBlockIndex → List CBlockIndex →
    ThresholdConditionCache × Option CBlockIndex × List CBlockIndex
  | 0, cache, pindexPrev, vToCompute => (cache, pindexPrev, vToCompute)
  | fuel + 1, cache, pindexPrev, vToCompute =>
      if (cache.lookup (cacheKey pindexPrev)).isSome then (cache, pindexPrev, vToCompute)
      else
        match pindexPrev with
        | none => (cache.insert none .DEFINED, none, vToCompute)
        | some pindex =>
            if tree.getMedianTimePast pindex < c.beginTime then
              (cache.insert (some pindex.phashBlock) .DEFINED, some pindex, vToCompute)
            else walkBack fuel cache (tree.getAncestor pindex (pindex.nHeight - c.period)) (pindex :: vToCompute)

def walkForward : ThresholdConditionCache → ThresholdState → List CBlockIndex →
    Option (ThresholdState × ThresholdConditionCache)
  | cache, state, [] => some (state, cache)
  | cache, state, pindexPrev :: vToCompute =>
      (c.stateNext tree state pindexPrev).bind fun state =>
        walkForward (cache.insert (some pindexPrev.phashBlock) state) state vToCompute

/-- The walk back and forward; `none` where the assertion fails. -/
def walk (fuel : Nat) (cache : ThresholdConditionCache) (pindexPrev : Option CBlockIndex)
    (vToCompute : List CBlockIndex) : Option (ThresholdState × ThresholdConditionCache) :=
  let (cache, pindexPrev, vToCompute) := c.walkBack tree fuel cache pindexPrev vToCompute
  (cache.lookup (cacheKey pindexPrev)).bind fun state => c.walkForward tree cache state vToCompute

/-- The last block of the period before the one of the block after `pindexPrev`. -/
def periodParent (pindexPrev : CBlockIndex) : Option CBlockIndex :=
  tree.getAncestor pindexPrev (pindexPrev.nHeight - (pindexPrev.nHeight + 1) % c.period)

/-- `GetStateFor`. Every step back is to a lower block, so that the walk ends. -/
def getStateFor (pindexPrev : Option CBlockIndex) (cache : ThresholdConditionCache) :
    Option (ThresholdState × ThresholdConditionCache) :=
  c.walk tree (((pindexPrev.map CBlockIndex.nHeight).getD 0).toNat + 2) cache (pindexPrev.bind (c.periodParent tree)) []

/-! ## `GetStateSinceHeightFor` -/

def sinceLoop (initialState : ThresholdState) : Nat → CBlockIndex → ThresholdConditionCache →
    Option (Int × ThresholdConditionCache)
  | 0, _, _ => none
  | fuel + 1, pindexPrev, cache =>
      match tree.getAncestor pindexPrev (pindexPrev.nHeight - c.period) with
      | none => some (pindexPrev.nHeight + 1, cache)
      | some previousPeriodParent =>
          (c.getStateFor tree (some previousPeriodParent) cache).bind fun (state, cache) =>
            if state = initialState then sinceLoop initialState fuel previousPeriodParent cache
            else some (pindexPrev.nHeight + 1, cache)

def getStateSinceHeightFor (pindexPrev : Option CBlockIndex) (cache : ThresholdConditionCache) :
    Option (Int × ThresholdConditionCache) :=
  (c.getStateFor tree pindexPrev cache).bind fun (initialState, cache) =>
    if initialState = .DEFINED then some (0, cache)
    else
      pindexPrev.bind fun pindexPrev =>
        (c.periodParent tree pindexPrev).bind fun pindexPrev =>
          c.sinceLoop tree initialState (pindexPrev.nHeight.toNat + 1) pindexPrev cache

/-! ## Version bits -/

structure BIP9Deployment where
  bit : Nat
  nStartTime : Int
  nTimeout : Int
  nWindowSize : Int := 0
  nThreshold : Int := 0

def VERSIONBITS_TOP_BITS : UInt32 := 0x20000000
def VERSIONBITS_TOP_MASK : UInt32 := 0xE0000000

/-- `VersionBitsConditionChecker`; a window and a threshold of its own are used if they are not zero. -/
def versionBitsConditionChecker (deployment : BIP9Deployment)
    (nMinerConfirmationWindow nRuleChangeActivationThreshold : Int)
    (hwindow : 0 < if deployment.nWindowSize ≠ 0 then deployment.nWindowSize else nMinerConfirmationWindow) :
    ThresholdConditionChecker where
  condition := fun pindex =>
    pindex.nVersion.toUInt32 &&& VERSIONBITS_TOP_MASK == VERSIONBITS_TOP_BITS &&
      pindex.nVersion.toUInt32 &&& (1 <<< deployment.bit.toUInt32) != 0
  beginTime := deployment.nStartTime
  endTime := deployment.nTimeout
  period := (if deployment.nWindowSize ≠ 0 then deployment.nWindowSize else nMinerConfirmationWindow).toNat
  period_pos := Int.pos_iff_toNat_pos.mp hwindow
  threshold := if deployment.nThreshold ≠ 0 then deployment.nThreshold else nRuleChangeActivationThreshold

/-! ## The state machine of BIP9 -/

/-- A transition, by the median time and the number of signalling blocks of the period that ends. -/
def bip9Next (state : ThresholdState) (medianTime : Int) (signalling : Nat) : ThresholdState :=
  match state with
  | .DEFINED =>
      if c.endTime ≤ medianTime then .FAILED else if c.beginTime ≤ medianTime then .STARTED else .DEFINED
  | .STARTED => if c.endTime ≤ medianTime then .FAILED else if c.threshold ≤ signalling then .LOCKED_IN else .STARTED
  | .LOCKED_IN => .ACTIVE
  | .ACTIVE => .ACTIVE
  | .FAILED => .FAILED

/-- The transition at the last block of a period. -/
def nextAt (state : ThresholdState) (b : CBlockIndex) : ThresholdState :=
  c.bip9Next state (tree.getMedianTimePast b) ((tree.chainOf c.period b).countP c.condition)

/-- The state after the first `k` periods of the chain of `p`. -/
def machine (p : CBlockIndex) : Nat → ThresholdState
  | 0 => .DEFINED
  | k + 1 =>
      match tree.prevs (p.nHeight + 1 - (k + 1 : Nat) * c.period).toNat p with
      | some b => c.nextAt tree (machine p k) b
      | none => .DEFINED

/-- The state of the block after `pindexPrev`. -/
def stateAfter : Option CBlockIndex → ThresholdState
  | none => .DEFINED
  | some p => c.machine tree p ((p.nHeight + 1).toNat / c.period)

end ThresholdConditionChecker

/-! ## Median times -/

namespace BlockTree

variable {tree : BlockTree} {p q : CBlockIndex}

/-- The time of a block is later than the median time of its parent (`time-too-old`). -/
def TimesOk (tree : BlockTree) : Prop :=
  ∀ p q, tree.Has p → tree.prev p = some q → tree.getMedianTimePast q < p.getBlockTime

theorem chainOf_succ (tree : BlockTree) (n : Nat) (p : CBlockIndex) :
    tree.chainOf (n + 1) p = p :: ((tree.prev p).map (tree.chainOf n)).getD [] := by
  rw [chainOf]
  cases tree.prev p <;> rfl

theorem length_chainOf_le (tree : BlockTree) (n : Nat) (p : CBlockIndex) : (tree.chainOf n p).length ≤ n := by
  induction n generalizing p with
  | zero => exact le_rfl
  | succ n ih =>
      rw [chainOf_succ, List.length_cons]
      cases tree.prev p with
      | none => exact Nat.succ_le_succ (Nat.zero_le n)
      | some q => exact Nat.succ_le_succ (ih q)

theorem chainOf_eq_take (tree : BlockTree) (n : Nat) (p : CBlockIndex) :
    tree.chainOf n p = (tree.chainOf (n + 1) p).take n := by
  induction n generalizing p with
  | zero => rfl
  | succ n ih =>
      rw [chainOf_succ, chainOf_succ tree (n + 1), List.take_succ_cons]
      cases tree.prev p with
      | none => exact congrArg (p :: ·) List.take_nil.symm
      | some q => exact congrArg (p :: ·) (ih q)

/-- The median time does not fall from parent to child. -/
theorem getMedianTimePast_prev_le (hp : tree.getMedianTimePast q < p.getBlockTime) (hq : tree.prev p = some q) :
    tree.getMedianTimePast q ≤ tree.getMedianTimePast p := by
  have htimes : (tree.chainOf nMedianTimeSpan p).map CBlockIndex.getBlockTime =
      p.getBlockTime :: ((tree.chainOf nMedianTimeSpan q).map CBlockIndex.getBlockTime).take 10 := by
    rw [← List.map_take, nMedianTimeSpan, ← chainOf_eq_take, chainOf_succ, hq]
    rfl
  have hspan := length_chainOf_le tree nMedianTimeSpan q
  show Median.middle _ _ ≤ Median.middle ((tree.chainOf nMedianTimeSpan p).map CBlockIndex.getBlockTime) 0
  rw [htimes]
  refine Median.middle_le_middle ?_ ?_ ?_
  · rw [nMedianTimeSpan, chainOf_succ]
    exact List.cons_ne_nil _ _
  · rw [List.length_cons, List.length_take, List.length_map]
    rw [nMedianTimeSpan] at hspan ⊢
    omega
  · -- the new time is above the old median, and the oldest one goes
    rw [List.countP_cons_of_neg (by rw [decide_eq_true_iff]; exact not_lt.mpr hp.le)]
    exact (List.take_sublist 10 _).countP_le

theorem getMedianTimePast_le (h : Linked tree) (ht : tree.TimesOk) (hp : tree.Has p) (hq : tree.IsAncestor q p) :
    tree.getMedianTimePast q ≤ tree.getMedianTimePast p := by
  obtain ⟨k, hk⟩ := hq
  induction k generalizing p with
  | zero => exact (congrArg tree.getMedianTimePast (Option.some.inj hk)).ge
  | succ k ih =>
      obtain ⟨r, hr, hk⟩ := Option.bind_eq_some_iff.mp hk
      obtain ⟨hhas, -⟩ := h.has_prev hp hr
      exact (ih hhas hk).trans (getMedianTimePast_prev_le (ht p r hp hr) hr)

end BlockTree

namespace ThresholdConditionChecker

open BlockTree

variable {c : ThresholdConditionChecker} {tree : BlockTree} {p q b : CBlockIndex}

/-! ## One transition -/

theorem count_eq (h : Linked tree) (hp : tree.Has p) {n : Nat} (hn : (n : Int) ≤ p.nHeight + 1) :
    c.count tree n (some p) = some ((tree.chainOf n p).countP c.condition) := by
  induction n generalizing p with
  | zero => rfl
  | succ n ih =>
      rw [count, chainOf_succ, List.countP_cons]
      push_cast at hn
      cases hprev : tree.prev p with
      | none =>
          -- this is the genesis block
          have hzero : n = 0 := by
            by_contra hpos
            obtain ⟨q, hq⟩ := h.exists_prev hp (by omega)
            rw [hprev] at hq
            cases hq
          subst hzero
          simp only [count, Option.map_some, Option.map_none, Option.getD_none, List.countP_nil]
          split_ifs <;> rfl
      | some q =>
          obtain ⟨hhas, hheight⟩ := h.has_prev hp hprev
          rw [ih hhas (by omega)]
          simp only [Option.map_some, Option.getD_some]
          split_ifs <;> rfl

/-- At a block that ends a period the code makes the transition of BIP9. -/
theorem stateNext_eq (h : Linked tree) (hb : tree.Has b) (hperiod : (c.period : Int) ≤ b.nHeight + 1)
    (state : ThresholdState) : c.stateNext tree state b = some (c.nextAt tree state b) := by
  unfold stateNext nextAt bip9Next
  cases state with
  | DEFINED => split_ifs <;> rfl
  | STARTED =>
      simp only [count_eq h hb hperiod, Option.map_some]
      split_ifs <;> rfl
  | LOCKED_IN => rfl
  | ACTIVE => rfl
  | FAILED => rfl

/-! ## The ends of the periods -/

/-- The block ends the `k`-th period; before the first one there is none. -/
def EndOf (c : ThresholdConditionChecker) (tree : BlockTree) (k : Nat) : Option CBlockIndex → Prop
  | none => k = 0
  | some b => tree.Has b ∧ 0 < k ∧ b.nHeight + 1 = k * c.period

/-- The machine looks at the ancestors only. -/
theorem machine_of_isAncestor (h : Linked tree) (hp : tree.Has p) (hq : tree.IsAncestor q p) {k : Nat}
    (hk : (k : Int) * c.period ≤ q.nHeight + 1) : c.machine tree q k = c.machine tree p k := by
  obtain ⟨hle, hprevs⟩ := h.prevs_of_isAncestor hp hq
  induction k with
  | zero => rfl
  | succ k ih =>
      have hless : (k : Int) * c.period ≤ (k + 1 : Nat) * c.period := by
        push_cast
        nlinarith [Int.natCast_nonneg c.period]
      rw [machine, machine, ih (hless.trans hk),
        show (p.nHeight + 1 - (k + 1 : Nat) * c.period).toNat =
          (p.nHeight - q.nHeight).toNat + (q.nHeight + 1 - (k + 1 : Nat) * c.period).toNat by omega,
        prevs_add, hprevs, Option.bind_some]

theorem stateAfter_endOf {k : Nat} (hb : c.EndOf tree k (some b)) :
    c.stateAfter tree (some b) = c.machine tree b k := by
  obtain ⟨-, -, hheight⟩ := hb
  have hcast : ((k : Int) * c.period).toNat = k * c.period := by
    rw [← Nat.cast_mul]
    exact Int.toNat_natCast _
  rw [stateAfter, hheight, hcast, Nat.mul_div_cancel _ c.period_pos]

/-- The step from the end of a period to the end of the one before. -/
theorem endOf_prev (h : Linked tree) {k : Nat} (hb : c.EndOf tree (k + 1) (some b)) :
    c.EndOf tree k (tree.getAncestor b (b.nHeight - c.period)) ∧
      (∀ a, tree.getAncestor b (b.nHeight - c.period) = some a → tree.IsAncestor a b ∧ a.nHeight < b.nHeight) ∧
      c.stateAfter tree (some b) =
        c.nextAt tree (c.stateAfter tree (tree.getAncestor b (b.nHeight - c.period))) b := by
  have hstate := stateAfter_endOf hb
  obtain ⟨hhas, -, hheight⟩ := hb
  have hpos := c.period_pos
  push_cast at hheight
  have hself : tree.prevs (b.nHeight + 1 - (k + 1 : Nat) * c.period).toNat b = some b := by
    rw [show (b.nHeight + 1 - (k + 1 : Nat) * c.period).toNat = 0 by push_cast; omega]
    rfl
  rw [machine, hself] at hstate
  rcases Nat.eq_zero_or_pos k with rfl | hk
  · rw [BlockTree.getAncestor, if_pos (.inr (by push_cast at hheight; omega))]
    exact ⟨rfl, fun a ha => (Option.some_ne_none a ha.symm).elim, hstate⟩
  · have hlow : (0 : Int) ≤ b.nHeight - c.period := by
      have : (1 : Int) * c.period ≤ k * c.period := by
        apply mul_le_mul_of_nonneg_right
        · exact_mod_cast hk
        · exact Int.natCast_nonneg _
      linarith
    obtain ⟨a, hget, hprevs, hahas, haheight⟩ := h.exists_getAncestor hhas hlow (by omega)
    have hend : c.EndOf tree k (some a) := ⟨hahas, hk, by rw [haheight]; linarith⟩
    have hanc : tree.IsAncestor a b := ⟨_, hprevs⟩
    rw [hget]
    refine ⟨hend, fun a' ha' => ?_, ?_⟩
    · cases ha'
      exact ⟨hanc, by omega⟩
    · rw [hstate, stateAfter_endOf hend, machine_of_isAncestor h hhas hanc (by rw [hend.2.2])]

/-- The period before the one of the next block, and its state. -/
theorem endOf_periodParent (h : Linked tree) (hp : tree.Has p) :
    c.EndOf tree ((p.nHeight + 1).toNat / c.period) (c.periodParent tree p) ∧
      (∀ a, c.periodParent tree p = some a → tree.IsAncestor a p) ∧
      c.stateAfter tree (c.periodParent tree p) = c.stateAfter tree (some p) := by
  have hheight := h.height hp
  obtain ⟨n, hn⟩ : ∃ n : Nat, p.nHeight + 1 = n := ⟨(p.nHeight + 1).toNat, by omega⟩
  have hmod : p.nHeight - (p.nHeight + 1) % c.period = (n / c.period : Nat) * (c.period : Int) - 1 := by
    have hdiv := Nat.div_add_mod' n c.period
    rw [hn, ← Int.natCast_mod]
    have : ((n / c.period : Nat) : Int) * c.period + (n % c.period : Nat) = n := by exact_mod_cast hdiv
    omega
  rw [periodParent, hmod, hn, Int.toNat_natCast]
  rcases Nat.eq_zero_or_pos (n / c.period) with hzero | hpos
  · rw [hzero, BlockTree.getAncestor, if_pos (.inr (by push_cast; omega))]
    refine ⟨rfl, fun a ha => (Option.some_ne_none a ha.symm).elim, ?_⟩
    rw [stateAfter, stateAfter, hn, Int.toNat_natCast, hzero]
    rfl
  · have hone : (1 : Int) ≤ (n / c.period : Nat) * (c.period : Int) := by
      exact_mod_cast Nat.mul_pos hpos c.period_pos
    have hle : ((n / c.period : Nat) : Int) * c.period ≤ n := by exact_mod_cast Nat.div_mul_le_self n c.period
    have hlow : 0 ≤ (n / c.period : Nat) * (c.period : Int) - 1 := by omega
    obtain ⟨a, hget, hprevs, hahas, haheight⟩ := h.exists_getAncestor hp hlow (by omega)
    have hend : c.EndOf tree (n / c.period) (some a) := ⟨hahas, hpos, by omega⟩
    have hanc : tree.IsAncestor a p := ⟨_, hprevs⟩
    rw [hget]
    refine ⟨hend, fun a' ha' => by cases ha'; exact hanc, ?_⟩
    rw [stateAfter_endOf hend, machine_of_isAncestor h hp hanc hend.2.2.ge, stateAfter, hn, Int.toNat_natCast]

/-! ## Before the start -/

/-- At no end of a period has the timeout passed and the start has not. -/
def StartsFirst (c : ThresholdConditionChecker) (tree : BlockTree) : Prop :=
  ∀ b k, c.EndOf tree k (some b) → tree.getMedianTimePast b < c.beginTime → tree.getMedianTimePast b < c.endTime

/-- Before the start a deployment is defined until the timeout passes. -/
theorem stateAfter_early (h : Linked tree) (ht : tree.TimesOk) {k : Nat} (hb : c.EndOf tree k (some b))
    (hearly : tree.getMedianTimePast b < c.beginTime) :
    c.stateAfter tree (some b) = if c.endTime ≤ tree.getMedianTimePast b then .FAILED else .DEFINED := by
  induction k generalizing b with
  | zero => exact absurd hb.2.1 (lt_irrefl 0)
  | succ k ih =>
      obtain ⟨hend, hanc, hstate⟩ := endOf_prev h hb
      have hdefined : c.nextAt tree .DEFINED b =
          if c.endTime ≤ tree.getMedianTimePast b then .FAILED else .DEFINED := by
        rw [nextAt, bip9Next, if_neg (not_le.mpr hearly)]
      rw [hstate]
      cases hprev : tree.getAncestor b (b.nHeight - c.period) with
      | none => exact hdefined
      | some a =>
          rw [hprev] at hend
          have hle := getMedianTimePast_le h ht hb.1 (hanc a hprev).1
          rw [ih hend (hle.trans_lt hearly)]
          split_ifs with hpast hnow hnow
          · rfl
          · exact absurd (hpast.trans hle) hnow
          · rw [hdefined, if_pos hnow]
          · rw [hdefined, if_neg hnow]

/-- The state that the walk back takes for granted. -/
theorem stateAfter_defined (h : Linked tree) (ht : tree.TimesOk) (hfirst : c.StartsFirst tree) {k : Nat}
    (hb : c.EndOf tree k (some b)) (hearly : tree.getMedianTimePast b < c.beginTime) :
    c.stateAfter tree (some b) = .DEFINED := by
  rw [stateAfter_early h ht hb hearly, if_neg (not_le.mpr (hfirst b k hb hearly))]

/-! ## The cache -/

/-- Every entry is the state after the end of a period. -/
def CacheOk (c : ThresholdConditionChecker) (tree : BlockTree) (cache : ThresholdConditionCache) : Prop :=
  ∀ key state, cache.lookup key = some state →
    ∃ k cur, c.EndOf tree k cur ∧ cacheKey cur = key ∧ state = c.stateAfter tree cur

theorem cacheOk_empty : c.CacheOk tree ∅ := fun _ _ h => by cases h

variable {cache : ThresholdConditionCache} {cur : Option CBlockIndex} {k : Nat}

theorem CacheOk.lookup (hcache : c.CacheOk tree cache) (hcur : c.EndOf tree k cur) {state : ThresholdState}
    (hfind : cache.lookup (cacheKey cur) = some state) : state = c.stateAfter tree cur := by
  obtain ⟨j, other, hother, hkey, hstate⟩ := hcache _ _ hfind
  rw [hstate]
  cases cur with
  | none =>
      cases other with
      | none => rfl
      | some b => cases hkey
  | some a =>
      cases other with
      | none => cases hkey
      | some b =>
          have hfound : tree.find a.phashBlock = some b := Option.some.inj hkey ▸ hother.1
          rw [hcur.1] at hfound
          rw [Option.some.inj hfound]

theorem CacheOk.insert (hcache : c.CacheOk tree cache) (hcur : c.EndOf tree k cur) :
    c.CacheOk tree (cache.insert (cacheKey cur) (c.stateAfter tree cur)) := by
  intro key state hfind
  rw [StdMap.lookup_assign] at hfind
  split_ifs at hfind with hkey
  · exact ⟨k, cur, hcur, hkey.symm, (Option.some.inj hfind).symm⟩
  · exact hcache key state hfind

/-! ## The walk -/

variable {fuel : Nat} {vToCompute : List CBlockIndex}

theorem walk_known {state : ThresholdState} (hfind : cache.lookup (cacheKey cur) = some state) :
    c.walk tree (fuel + 1) cache cur vToCompute = c.walkForward tree cache state vToCompute := by
  have hback : c.walkBack tree (fuel + 1) cache cur vToCompute = (cache, cur, vToCompute) := by
    cases cur <;> rw [walkBack, hfind] <;> rfl
  rw [walk, hback]
  show (cache.lookup (cacheKey cur)).bind _ = _
  rw [hfind, Option.bind_some]

theorem walk_null (hnew : cache.lookup (cacheKey none) = none) :
    c.walk tree (fuel + 1) cache none vToCompute =
      c.walkForward tree (cache.insert none .DEFINED) .DEFINED vToCompute := by
  have hback : c.walkBack tree (fuel + 1) cache none vToCompute = (cache.insert none .DEFINED, none, vToCompute) := by
    rw [walkBack, hnew]
    rfl
  rw [walk, hback]
  show ((cache.insert none .DEFINED).lookup none).bind _ = _
  rw [AList.lookup_insert, Option.bind_some]

theorem walk_early (hnew : cache.lookup (cacheKey (some b)) = none)
    (hearly : tree.getMedianTimePast b < c.beginTime) :
    c.walk tree (fuel + 1) cache (some b) vToCompute =
      c.walkForward tree (cache.insert (cacheKey (some b)) .DEFINED) .DEFINED vToCompute := by
  have hback : c.walkBack tree (fuel + 1) cache (some b) vToCompute =
      (cache.insert (cacheKey (some b)) .DEFINED, some b, vToCompute) := by
    rw [walkBack, hnew, Option.isSome_none, if_neg Bool.false_ne_true, if_pos hearly]
    rfl
  rw [walk, hback]
  show ((cache.insert (cacheKey (some b)) .DEFINED).lookup (cacheKey (some b))).bind _ = _
  rw [AList.lookup_insert, Option.bind_some]

theorem walk_later (hnew : cache.lookup (cacheKey (some b)) = none)
    (hlate : ¬ tree.getMedianTimePast b < c.beginTime) :
    c.walk tree (fuel + 1) cache (some b) vToCompute =
      c.walk tree fuel cache (tree.getAncestor b (b.nHeight - c.period)) (b :: vToCompute) := by
  rw [walk, walk, walkBack, hnew, Option.isSome_none, if_neg Bool.false_ne_true, if_neg hlate]

/-- **The walk** back and forward comes to the state after its block, for the blocks that are still to be computed. -/
theorem walk_eq (h : Linked tree) (ht : tree.TimesOk) (hfirst : c.StartsFirst tree) (hfuel : k < fuel)
    (hcache : c.CacheOk tree cache) (hcur : c.EndOf tree k cur) :
    ∃ cache', c.CacheOk tree cache' ∧
      c.walk tree fuel cache cur vToCompute = c.walkForward tree cache' (c.stateAfter tree cur) vToCompute := by
  induction fuel generalizing cur k vToCompute with
  | zero => exact absurd hfuel (Nat.not_lt_zero k)
  | succ fuel ih =>
      cases hfind : cache.lookup (cacheKey cur) with
      | some state =>
          rw [walk_known hfind, hcache.lookup hcur hfind]
          exact ⟨cache, hcache, rfl⟩
      | none =>
          cases cur with
          | none =>
              rw [walk_null hfind]
              exact ⟨_, hcache.insert hcur, rfl⟩
          | some b =>
              by_cases hearly : tree.getMedianTimePast b < c.beginTime
              · have hdefined := stateAfter_defined h ht hfirst hcur hearly
                rw [walk_early hfind hearly, ← hdefined]
                exact ⟨_, hcache.insert hcur, rfl⟩
              · -- the block waits until the states before it are known
                obtain ⟨k, rfl⟩ : ∃ j, k = j + 1 := ⟨k - 1, by have hpos := hcur.2.1; omega⟩
                obtain ⟨hend, -, hstate⟩ := endOf_prev h hcur
                obtain ⟨cache', hcache', hwalk⟩ := @ih _ k (b :: vToCompute) (by omega) hend
                have hperiod : (c.period : Int) ≤ b.nHeight + 1 := by
                  rw [hcur.2.2]
                  push_cast
                  nlinarith [Int.natCast_nonneg k, Int.natCast_nonneg c.period]
                rw [walk_later hfind hearly, hwalk, walkForward, stateNext_eq h hcur.1 hperiod, ← hstate]
                exact ⟨_, hcache'.insert hcur, rfl⟩

/-- **`GetStateFor`** finds the state of the machine, whatever the cache holds. -/
theorem getStateFor_eq (h : Linked tree) (ht : tree.TimesOk) (hfirst : c.StartsFirst tree)
    (hcache : c.CacheOk tree cache) (tip : Option CBlockIndex) (htip : ∀ p, tip = some p → tree.Has p) :
    ∃ cache', c.CacheOk tree cache' ∧ c.getStateFor tree tip cache = some (c.stateAfter tree tip, cache') := by
  cases tip with
  | none => exact walk_eq h ht hfirst (k := 0) (by omega) hcache rfl
  | some p =>
      have hp := htip p rfl
      obtain ⟨hend, -, hstate⟩ := endOf_periodParent (c := c) h hp
      rw [← hstate]
      refine walk_eq h ht hfirst ?_ hcache hend
      have hheight := h.height hp
      have hle := Nat.div_le_self (p.nHeight + 1).toNat c.period
      simp only [Option.map_some, Option.getD_some]
      omega

/-! ## States do not come back -/

def rank : ThresholdState → Nat
  | .DEFINED => 0
  | .STARTED => 1
  | .LOCKED_IN => 2
  | .ACTIVE => 3
  | .FAILED => 4

theorem rank_injective : Function.Injective rank := by
  intro s t h
  cases s <;> cases t <;> first | rfl | cases h

theorem rank_le_nextAt (state : ThresholdState) (b : CBlockIndex) : rank state ≤ rank (c.nextAt tree state b) := by
  unfold nextAt bip9Next
  cases state <;> simp only
  · exact Nat.zero_le _
  · split_ifs <;> decide
  all_goals decide

/-- The periods of a chain one after the other. -/
theorem machine_succ (h : Linked tree) (hp : tree.Has p) {k : Nat}
    (hk : ((k + 1 : Nat) : Int) * c.period ≤ p.nHeight + 1) :
    ∃ b, c.machine tree p (k + 1) = c.nextAt tree (c.machine tree p k) b := by
  have hpos : (1 : Int) ≤ (k + 1 : Nat) * c.period := by
    exact_mod_cast Nat.mul_pos (Nat.succ_pos k) c.period_pos
  obtain ⟨b, hb, -⟩ := h.exists_prevs hp (k := (p.nHeight + 1 - (k + 1 : Nat) * c.period).toNat) (by omega)
  refine ⟨b, ?_⟩
  rw [machine, hb]

/-- What every transition keeps, the chain keeps. -/
theorem machine_keeps (h : Linked tree) (hp : tree.Has p) {P : ThresholdState → Prop}
    (hP : ∀ state b, P state → P (c.nextAt tree state b)) {j k : Nat} (hjk : j ≤ k)
    (hk : (k : Int) * c.period ≤ p.nHeight + 1) (hj : P (c.machine tree p j)) : P (c.machine tree p k) := by
  induction k, hjk using Nat.le_induction with
  | base => exact hj
  | succ k hjk ih =>
      obtain ⟨b, hb⟩ := machine_succ h hp hk
      rw [hb]
      refine hP _ b (ih (le_trans ?_ hk))
      push_cast
      nlinarith [Int.natCast_nonneg c.period]

theorem rank_machine_le (h : Linked tree) (hp : tree.Has p) {j k : Nat} (hjk : j ≤ k)
    (hk : (k : Int) * c.period ≤ p.nHeight + 1) : rank (c.machine tree p j) ≤ rank (c.machine tree p k) :=
  machine_keeps h hp (P := fun state => rank (c.machine tree p j) ≤ rank state)
    (fun state b hle => hle.trans (rank_le_nextAt state b)) hjk hk le_rfl

theorem div_period_le {n : Int} (hn : 0 ≤ n) : ((n.toNat / c.period : Nat) : Int) * c.period ≤ n := by
  have hle : (n.toNat / c.period) * c.period ≤ n.toNat := Nat.div_mul_le_self _ _
  have hcast : ((n.toNat / c.period : Nat) : Int) * c.period ≤ n.toNat := by exact_mod_cast hle
  omega

/-- The state of an ancestor, by the machine of the whole chain. -/
theorem stateAfter_of_isAncestor (h : Linked tree) (hp : tree.Has p) (hq : tree.IsAncestor q p) :
    c.stateAfter tree (some q) = c.machine tree p ((q.nHeight + 1).toNat / c.period) := by
  have hqhas := (h.of_prevs hp hq.choose_spec).1
  exact machine_of_isAncestor h hp hq (div_period_le (by have hpos := h.height hqhas; omega))

/-! ## The first height of a state -/

/-- The height of the block after the tip. -/
def nextHeight (tip : Option CBlockIndex) : Int := (tip.map fun p => p.nHeight + 1).getD 0

/-- The first height on the chain of the tip with the state that the next block has. -/
def FirstHeight (c : ThresholdConditionChecker) (tree : BlockTree) (tip : Option CBlockIndex) (height : Int) : Prop :=
  IsLeast {n : Int | 0 ≤ n ∧ n ≤ nextHeight tip ∧
    c.stateAfter tree (tip.bind fun p => tree.getAncestor p (n - 1)) = c.stateAfter tree tip} height

theorem stateAfter_height (h : Linked tree) (hp : tree.Has p) {n : Int} (hn : 0 ≤ n) (hle : n ≤ p.nHeight + 1) :
    c.stateAfter tree (tree.getAncestor p (n - 1)) = c.machine tree p (n.toNat / c.period) := by
  rcases hn.eq_or_lt with rfl | hpos
  · rw [BlockTree.getAncestor, if_pos (.inr (by decide))]
    show ThresholdState.DEFINED = c.machine tree p (0 / c.period)
    rw [Nat.zero_div]
    rfl
  · have hlow : 0 ≤ n - 1 := by omega
    obtain ⟨a, hget, hprevs, -, hheight⟩ := h.exists_getAncestor hp hlow (by omega)
    rw [hget, stateAfter_of_isAncestor h hp ⟨_, hprevs⟩, hheight, sub_add_cancel]

/-- The state of the tip begins with a period where the machine came to it. -/
theorem firstHeight_of_change (h : Linked tree) (hp : tree.Has p) {j : Nat}
    (hj : j < (p.nHeight + 1).toNat / c.period) (hsame : c.machine tree p (j + 1) = c.stateAfter tree (some p))
    (hother : c.machine tree p j ≠ c.stateAfter tree (some p)) :
    c.FirstHeight tree (some p) ((j + 1 : Nat) * (c.period : Int)) := by
  have hpos := h.height hp
  have hle := div_period_le (c := c) (n := p.nHeight + 1) (by omega)
  have hnext : ((j + 1 : Nat) : Int) * c.period ≤ p.nHeight + 1 :=
    le_trans (by exact_mod_cast Nat.mul_le_mul_right c.period hj) hle
  have hfrom : (j : Int) * c.period ≤ p.nHeight + 1 :=
    le_trans (by exact_mod_cast Nat.mul_le_mul_right c.period hj.le) hle
  refine ⟨⟨by exact_mod_cast Nat.zero_le _, hnext, ?_⟩, fun n hn => ?_⟩
  · rw [Option.bind_some, stateAfter_height h hp (by exact_mod_cast Nat.zero_le _) hnext, ← Nat.cast_mul,
      Int.toNat_natCast, Nat.mul_div_cancel _ c.period_pos, hsame]
  · -- an earlier height with the state would make the period before have it too
    obtain ⟨hn0, hnle, hn⟩ := hn
    by_contra hlt
    rw [not_le] at hlt
    rw [Option.bind_some, stateAfter_height h hp hn0 hnle] at hn
    have hdiv : n.toNat / c.period ≤ j := by
      refine Nat.lt_succ_iff.mp ((Nat.div_lt_iff_lt_mul c.period_pos).mpr ?_)
      have hcast : (n.toNat : Int) < ((j + 1) * c.period : Nat) := by
        push_cast at hlt ⊢
        omega
      exact_mod_cast hcast
    have hlow := rank_machine_le h hp hdiv hfrom
    have hhigh := rank_machine_le h hp (Nat.le_succ j) hnext
    rw [hn] at hlow
    rw [hsame] at hhigh
    exact hother (rank_injective (le_antisymm hhigh hlow))

/-- The loop goes back to the first period of the state. -/
theorem sinceLoop_eq (h : Linked tree) (ht : tree.TimesOk) (hfirst : c.StartsFirst tree) (hp : tree.Has p)
    {state : ThresholdState} (hstate : state ≠ .DEFINED) (hcache : c.CacheOk tree cache)
    (hb : c.EndOf tree k (some b)) (hanc : tree.IsAncestor b p) (hk : c.machine tree p k = state) (hfuel : k ≤ fuel) :
    ∃ j cache', c.sinceLoop tree state fuel b cache = some ((j + 1 : Nat) * (c.period : Int), cache') ∧ j < k ∧
      c.machine tree p (j + 1) = state ∧ c.machine tree p j ≠ state := by
  induction fuel generalizing k b cache with
  | zero => exact absurd (hb.2.1.trans_le hfuel) (lt_irrefl 0)
  | succ fuel ih =>
      obtain ⟨k, rfl⟩ : ∃ j, k = j + 1 := ⟨k - 1, by have hpos := hb.2.1; omega⟩
      obtain ⟨hend, hancs, -⟩ := endOf_prev h hb
      rw [sinceLoop]
      cases hprev : tree.getAncestor b (b.nHeight - c.period) with
      | none =>
          rw [hprev] at hend
          obtain rfl : k = 0 := hend
          refine ⟨0, cache, ?_, Nat.zero_lt_one, hk, Ne.symm hstate⟩
          simp only [hb.2.2]
      | some a =>
          rw [hprev] at hend
          have haanc := (hancs a hprev).1.trans hanc
          obtain ⟨cache', hcache', hget⟩ := getStateFor_eq h ht hfirst hcache (some a)
            (fun a' ha' => Option.some.inj ha' ▸ hend.1)
          have hmachine : c.stateAfter tree (some a) = c.machine tree p k := by
            rw [stateAfter_endOf hend, machine_of_isAncestor h hp haanc hend.2.2.ge]
          simp only [hget, Option.bind_some, hmachine]
          split_ifs with heq
          · obtain ⟨j, cache'', hloop, hj, hj'⟩ := ih hcache' hend haanc heq (by omega)
            exact ⟨j, cache'', hloop, by omega, hj'⟩
          · exact ⟨k, cache', by rw [hb.2.2], Nat.lt_succ_self k, hk, heq⟩

theorem getStateSinceHeightFor_eq (h : Linked tree) (ht : tree.TimesOk) (hfirst : c.StartsFirst tree)
    (hcache : c.CacheOk tree cache) (tip : Option CBlockIndex) (htip : ∀ p, tip = some p → tree.Has p) :
    ∃ height cache', c.getStateSinceHeightFor tree tip cache = some (height, cache') ∧
      c.FirstHeight tree tip height := by
  obtain ⟨cache', hcache', hget⟩ := getStateFor_eq h ht hfirst hcache tip htip
  unfold getStateSinceHeightFor
  simp only [hget, Option.bind_some]
  split_ifs with hdefined
  · refine ⟨0, cache', rfl, ⟨le_rfl, ?_, ?_⟩, fun n hn => hn.1⟩
    · cases tip with
      | none => exact le_rfl
      | some p =>
          have hpos := h.height (htip p rfl)
          show (0 : Int) ≤ p.nHeight + 1
          omega
    · rw [hdefined]
      cases tip with
      | none => rfl
      | some p =>
          rw [Option.bind_some, BlockTree.getAncestor, if_pos (.inr (by decide))]
          rfl
  · cases tip with
    | none => exact absurd rfl hdefined
    | some p =>
        have hp := htip p rfl
        have hpos := h.height hp
        obtain ⟨hend, hanc, hstate⟩ := endOf_periodParent (c := c) h hp
        rw [Option.bind_some]
        cases hparent : c.periodParent tree p with
        | none =>
            rw [hparent] at hstate
            exact absurd hstate.symm hdefined
        | some b =>
            rw [hparent] at hend hanc
            have hfuel : (p.nHeight + 1).toNat / c.period ≤ b.nHeight.toNat + 1 := by
              have hheight := hend.2.2
              have hle := Nat.le_mul_of_pos_right ((p.nHeight + 1).toNat / c.period) c.period_pos
              have hcast : (((p.nHeight + 1).toNat / c.period : Nat) : Int) ≤
                  ((p.nHeight + 1).toNat / c.period : Nat) * (c.period : Int) := by exact_mod_cast hle
              omega
            obtain ⟨j, cache'', hloop, hj, hsame, hother⟩ := sinceLoop_eq h ht hfirst hp hdefined hcache' hend
              (hanc b rfl) rfl hfuel
            exact ⟨_, cache'', hloop, firstHeight_of_change h hp hj hsame hother⟩

/-! ## Independence of the cache -/

/-- The tip is `nullptr` or a block of the tree. -/
def InTree (tree : BlockTree) (tip : Option CBlockIndex) : Prop := ∀ p, tip = some p → tree.Has p

/-- The cache after a sequence of calls of `GetStateFor`. -/
def cacheAfter (c : ThresholdConditionChecker) (tree : BlockTree) (tips : List (Option CBlockIndex)) :
    Option ThresholdConditionCache :=
  tips.foldlM (fun cache tip => (c.getStateFor tree tip cache).map Prod.snd) ∅

/-- What the functions find with a cache. -/
structure Independent (c : ThresholdConditionChecker) (tree : BlockTree) (cache : ThresholdConditionCache) : Prop where
  /-- The state of the machine. -/
  state : ∀ tip, InTree tree tip → (c.getStateFor tree tip cache).map Prod.fst = some (c.stateAfter tree tip)
  /-- One state within a period. -/
  constant : ∀ p q, tree.Has p → tree.IsAncestor q p →
    (p.nHeight + 1).toNat / c.period = (q.nHeight + 1).toNat / c.period →
    (c.getStateFor tree (some p) cache).map Prod.fst = (c.getStateFor tree (some q) cache).map Prod.fst
  /-- ACTIVE and FAILED are final. -/
  final : ∀ p q, tree.Has p → tree.IsAncestor q p → ∀ state, state = .ACTIVE ∨ state = .FAILED →
    (c.getStateFor tree (some q) cache).map Prod.fst = some state →
    (c.getStateFor tree (some p) cache).map Prod.fst = some state
  /-- The first height of the state. -/
  since : ∀ tip, InTree tree tip → ∃ height cache',
    c.getStateSinceHeightFor tree tip cache = some (height, cache') ∧ c.FirstHeight tree tip height

theorem CacheOk.independent (h : Linked tree) (ht : tree.TimesOk) (hfirst : c.StartsFirst tree)
    (hcache : c.CacheOk tree cache) : c.Independent tree cache := by
  have hstate : ∀ tip, InTree tree tip →
      (c.getStateFor tree tip cache).map Prod.fst = some (c.stateAfter tree tip) := by
    intro tip htip
    obtain ⟨cache', -, hget⟩ := getStateFor_eq h ht hfirst hcache tip htip
    rw [hget]
    rfl
  have hin : ∀ {p}, tree.Has p → InTree tree (some p) := fun hp p' hp' => Option.some.inj hp' ▸ hp
  refine ⟨hstate, fun p q hp hq hsame => ?_, fun p q hp hq state hfinal hget => ?_,
    getStateSinceHeightFor_eq h ht hfirst hcache⟩
  · have hqhas := (h.of_prevs hp hq.choose_spec).1
    rw [hstate _ (hin hp), hstate _ (hin hqhas), stateAfter_of_isAncestor h hp hq, ← hsame]
    rfl
  · obtain ⟨hqhas, hqheight⟩ := h.of_prevs hp hq.choose_spec
    have hpos := h.height hp
    rw [hstate _ (hin hqhas), stateAfter_of_isAncestor h hp hq, Option.some.injEq] at hget
    rw [hstate _ (hin hp)]
    refine congrArg some (machine_keeps h hp (P := fun s => s = state) ?_ (Nat.div_le_div_right (by omega))
      (div_period_le (by omega)) hget)
    rintro s b rfl
    rcases hfinal with rfl | rfl
    · rfl
    · rfl

theorem cacheOk_cacheAfter (h : Linked tree) (ht : tree.TimesOk) (hfirst : c.StartsFirst tree)
    {tips : List (Option CBlockIndex)} (htips : ∀ tip ∈ tips, InTree tree tip) :
    ∃ cache, c.cacheAfter tree tips = some cache ∧ c.CacheOk tree cache := by
  unfold cacheAfter
  generalize hstart : (∅ : ThresholdConditionCache) = start
  have hok : c.CacheOk tree start := hstart ▸ cacheOk_empty
  clear hstart
  induction tips generalizing start with
  | nil => exact ⟨start, rfl, hok⟩
  | cons tip tips ih =>
      obtain ⟨cache', hcache', hget⟩ := getStateFor_eq h ht hfirst hok tip (htips tip List.mem_cons_self)
      obtain ⟨cache, hrest, hcache⟩ := ih (fun t ht => htips t (List.mem_cons_of_mem tip ht)) cache' hcache'
      refine ⟨cache, ?_, hcache⟩
      rw [List.foldlM_cons, hget]
      exact hrest

/-- Before the start an empty cache gives DEFINED. -/
theorem getStateFor_early (h : Linked tree) (hb : c.EndOf tree k (some b))
    (hearly : tree.getMedianTimePast b < c.beginTime) :
    (c.getStateFor tree (some b) ∅).map Prod.fst = some .DEFINED := by
  have hself : c.periodParent tree b = some b := by
    have hmod : (b.nHeight + 1) % (c.period : Int) = 0 := by
      rw [hb.2.2]
      exact Int.mul_emod_left _ _
    rw [periodParent, hmod, sub_zero, h.getAncestor hb.1 (h.height hb.1) le_rfl, sub_self]
    rfl
  rw [getStateFor, Option.bind_some, hself, walk_early rfl hearly]
  rfl

/-- **Deployments.** After every sequence of calls on one cache the functions find the state of BIP9's machine, with all
that follows for periods, final states and first heights, if and only if at no end of a period the timeout has passed
before the start. -/
theorem independent_iff (c : ThresholdConditionChecker) (tree : BlockTree) (h : Linked tree) (ht : tree.TimesOk) :
    (∀ tips, (∀ tip ∈ tips, InTree tree tip) →
      ∃ cache, c.cacheAfter tree tips = some cache ∧ c.Independent tree cache) ↔ c.StartsFirst tree := by
  constructor
  · intro hall b k hb hearly
    obtain ⟨cache, hcache, hind⟩ := hall [] (fun tip htip => absurd htip List.not_mem_nil)
    obtain rfl : ∅ = cache := Option.some.inj hcache
    have hstate := hind.state (some b) (fun p hp => Option.some.inj hp ▸ hb.1)
    rw [getStateFor_early h hb hearly, stateAfter_early h ht hb hearly, Option.some.injEq] at hstate
    by_contra hpast
    rw [if_pos (not_lt.mp hpast)] at hstate
    cases hstate
  · intro hfirst tips htips
    obtain ⟨cache, hcache, hok⟩ := cacheOk_cacheAfter h ht hfirst htips
    exact ⟨cache, hcache, hok.independent h ht hfirst⟩

/-! ## Four periods of two blocks -/

/-- A block of a chain with a minute between blocks; all signal the deployment of bit 28. -/
def minuteBlock (height : Nat) : CBlockIndex :=
  let pprev := if height = 0 then none else some (BitVec.ofNat 256 height)
  { linkedEntry (BitVec.ofNat 256 (height + 1)) pprev height with
    nVersion := 0x30000000
    nTime := 1653004800 + 60 * height.toUInt32 }

def fourPeriods : BlockTree := BlockTree.grown (((List.range 8).map minuteBlock).map .link)

theorem linked_fourPeriods : Linked fourPeriods := by
  refine Linked.grown ⟨⟨rfl, rfl, rfl, rfl⟩, ?_⟩
  repeat refine ⟨⟨rfl, rfl, _, rfl, rfl⟩, ?_⟩
  exact trivial

/-- The entries of a tree are those that were linked. -/
theorem mem_of_find_links {blocks : List CBlockIndex} {tree : BlockTree} {hash : UInt256} {p : CBlockIndex}
    (h : (Simulation.exec BlockTree.step tree (blocks.map .link)).find hash = some p) :
    p ∈ blocks ∨ tree.find hash = some p := by
  induction blocks generalizing tree with
  | nil => exact .inr h
  | cons b blocks ih =>
      rcases ih h with hmem | hfind
      · exact .inl (List.mem_cons_of_mem b hmem)
      · rw [BlockTree.step, find_put] at hfind
        split_ifs at hfind
        · cases hfind
          exact .inl List.mem_cons_self
        · exact .inr hfind

theorem exists_of_has_fourPeriods {p : CBlockIndex} (h : fourPeriods.Has p) : ∃ height < 8, p = minuteBlock height := by
  rcases mem_of_find_links h with hmem | hnone
  · obtain ⟨height, hlt, rfl⟩ := List.mem_map.mp hmem
    exact ⟨height, List.mem_range.mp hlt, rfl⟩
  · cases hnone

theorem timesOk_fourPeriods : fourPeriods.TimesOk := by
  have hall : ∀ height < 8, ∀ q ∈ fourPeriods.prev (minuteBlock height),
      fourPeriods.getMedianTimePast q < (minuteBlock height).getBlockTime := by decide +kernel
  intro p q hp hq
  obtain ⟨height, hlt, rfl⟩ := exists_of_has_fourPeriods hp
  exact hall height hlt q hq

/-- The deployment of bit 28 with a window of two blocks. -/
def shortDeployment (nStartTime nTimeout : Int) : ThresholdConditionChecker :=
  versionBitsConditionChecker ⟨28, nStartTime, nTimeout, 2, 2⟩ 144 108
    (show (0 : Int) < if (2 : Int) ≠ 0 then 2 else 144 by decide)

theorem startsFirst_fourPeriods : (shortDeployment 1653004900 1653008400).StartsFirst fourPeriods := by
  have hall : ∀ height < 8, fourPeriods.getMedianTimePast (minuteBlock height) < 1653008400 := by decide +kernel
  intro b k hb _
  obtain ⟨height, hlt, rfl⟩ := exists_of_has_fourPeriods hb.1
  exact hall height hlt

/-- A start within the second period: the deployment goes through all states. -/
theorem independent_iff_fourPeriods :
    (List.range 8).map (fun height =>
        (shortDeployment 1653004900 1653008400).stateAfter fourPeriods (some (minuteBlock height))) =
      [.DEFINED, .DEFINED, .DEFINED, .STARTED, .STARTED, .LOCKED_IN, .LOCKED_IN, .ACTIVE] ∧
    ∀ tips, (∀ tip ∈ tips, InTree fourPeriods tip) →
      ∃ cache, (shortDeployment 1653004900 1653008400).cacheAfter fourPeriods tips = some cache ∧
        (shortDeployment 1653004900 1653008400).Independent fourPeriods cache :=
  ⟨by decide +kernel, (independent_iff _ _ linked_fourPeriods timesOk_fourPeriods).mpr startsFirst_fourPeriods⟩

/-- With the timeout before the start, and a block between them, the code says DEFINED and the machine FAILED. -/
theorem not_independent_timeoutFirst :
    ((shortDeployment 2000000000 1000000000).getStateFor fourPeriods (some (minuteBlock 1)) ∅).map Prod.fst =
        some .DEFINED ∧
      (shortDeployment 2000000000 1000000000).stateAfter fourPeriods (some (minuteBlock 1)) = .FAILED ∧
      ¬ ∀ tips, (∀ tip ∈ tips, InTree fourPeriods tip) →
        ∃ cache, (shortDeployment 2000000000 1000000000).cacheAfter fourPeriods tips = some cache ∧
          (shortDeployment 2000000000 1000000000).Independent fourPeriods cache := by
  have hcode : ((shortDeployment 2000000000 1000000000).getStateFor fourPeriods (some (minuteBlock 1)) ∅).map
      Prod.fst = some .DEFINED := by decide +kernel
  have hmachine : (shortDeployment 2000000000 1000000000).stateAfter fourPeriods (some (minuteBlock 1)) =
      .FAILED := by decide +kernel
  refine ⟨hcode, hmachine, fun hall => ?_⟩
  obtain ⟨cache, hcache, hind⟩ := hall [] (fun tip htip => absurd htip List.not_mem_nil)
  obtain rfl : ∅ = cache := Option.some.inj hcache
  have hstate := hind.state (some (minuteBlock 1)) (fun p hp => Option.some.inj hp ▸ rfl)
  rw [hcode, hmachine] at hstate
  cases hstate

end ThresholdConditionChecker

end RavenCash
