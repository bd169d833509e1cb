import RavenCash.Lib.Merkle

/-!
# `MerkleComputation`

The root and the branches of `consensus/merkle.cpp`, over any type of hashes with a pair hash. `count` leaves have been
taken; where its bit `level` is set, `inner[level]` is the hash of the complete subtree of `2 ^ level` leaves that ends
there. A new leaf climbs as a carry does. At the end a sweep along the right edge combines the last node of an odd level
with itself and counts as if there had been two.

The array `inner` has 32 places and `count` has 32 bits; the loops are `none` where they would leave the array. With
fewer than `2 ^ 31` leaves neither happens.
-/

set_option autoImplicit false

namespace RavenCash.MerkleTree

variable {H : Type} (hash : H → H → H) (zero : H)

/-- What the loops change as they climb: the hash, whether it depends on the wanted leaf, and the results so far. -/
structure Carry (H : Type) where
  h : H
  matchh : Bool
  mutated : Bool
  pbranch : List H

/-- `for (; !(count & (1 << level)); level++) step`, within the 32 levels. -/
def climb (count : Nat) (step : Nat → Carry H → Carry H) : Nat → Nat → Carry H → Option (Nat × Carry H)
  | 0, _, _ => none
  | fuel + 1, level, s =>
      if count.testBit level then some (level, s) else climb count step fuel (level + 1) (step level s)

/-- The body of both loops that climb: the branch gets the other child, and the children are hashed. -/
def join (fBranch : Bool) (inner : Nat → H) (matchlevel : Option Nat) (level : Nat) (s : Carry H) : Carry H :=
  let s :=
    if fBranch then
      if s.matchh then { s with pbranch := s.pbranch ++ [inner level] }
      else if matchlevel = some level then { s with pbranch := s.pbranch ++ [s.h], matchh := true }
      else s
    else s
  { s with h := hash (inner level) s.h }

@[simp] theorem join_h (fBranch : Bool) (inner : Nat → H) (matchlevel : Option Nat) (level : Nat) (s : Carry H) :
    (join hash fBranch inner matchlevel level s).h = hash (inner level) s.h := by
  unfold join
  split_ifs <;> rfl

@[simp] theorem join_mutated (fBranch : Bool) (inner : Nat → H) (matchlevel : Option Nat) (level : Nat) (s : Carry H) :
    (join hash fBranch inner matchlevel level s).mutated = s.mutated := by
  unfold join
  split_ifs <;> rfl

/-- The same for a new leaf, where two equal children are a mutation. -/
def joinLeaf [DecidableEq H] (fBranch : Bool) (inner : Nat → H) (matchlevel : Option Nat) (level : Nat)
    (s : Carry H) : Carry H :=
  { join hash fBranch inner matchlevel level s with mutated := s.mutated || decide (inner level = s.h) }

/-- The variables of the loop over the leaves; a `matchlevel` of `-1` is `none`. -/
structure Progress (H : Type) where
  inner : Nat → H
  count : Nat := 0
  matchlevel : Option Nat := none
  mutated : Bool := false
  pbranch : List H := []

/-- One leaf. -/
def addLeaf [DecidableEq H] (fBranch : Bool) (branchpos : Nat) (s : Progress H) (leaf : H) : Option (Progress H) :=
  let start : Carry H := ⟨leaf, decide (s.count = branchpos), s.mutated, s.pbranch⟩
  (climb (s.count + 1) (joinLeaf hash fBranch s.inner s.matchlevel) 32 0 start).map fun (level, t) =>
    { inner := Function.update s.inner level t.h
      count := s.count + 1
      matchlevel := if t.matchh then some level else s.matchlevel
      mutated := t.mutated
      pbranch := t.pbranch }

/-- The last node of an odd level is hashed with itself. -/
def joinSelf (fBranch : Bool) (s : Carry H) : Carry H :=
  let s := if fBranch && s.matchh then { s with pbranch := s.pbranch ++ [s.h] } else s
  { s with h := hash s.h s.h }

@[simp] theorem joinSelf_h (fBranch : Bool) (s : Carry H) : (joinSelf hash fBranch s).h = hash s.h s.h := by
  unfold joinSelf
  split_ifs <;> rfl

@[simp] theorem joinSelf_mutated (fBranch : Bool) (s : Carry H) : (joinSelf hash fBranch s).mutated = s.mutated := by
  unfold joinSelf
  split_ifs <;> rfl

/-- The sweep: `while (count != (1 << level))`. -/
def sweep (fBranch : Bool) (inner : Nat → H) (matchlevel : Option Nat) : Nat → Nat → Nat → Carry H → Option (Carry H)
  | 0, _, _, _ => none
  | fuel + 1, count, level, s =>
      if count = 2 ^ level then some s
      else
        -- the value `count` would have if two entries at this level had existed
        let count := count + 2 ^ level
        (climb count (join hash fBranch inner matchlevel) (31 - level) (level + 1) (joinSelf hash fBranch s)).bind
          fun (level, s) => sweep fBranch inner matchlevel fuel count level s

/-- `MerkleComputation`: the root, whether it is mutated, and the branch. -/
def merkleComputation [DecidableEq H] (leaves : List H) (fBranch : Bool) (branchpos : Nat) :
    Option (H × Bool × List H) :=
  if leaves.isEmpty then some (zero, false, [])
  else
    (leaves.foldlM (addLeaf hash fBranch branchpos) { inner := fun _ => zero }).bind fun p =>
      -- the lowest bit of `count`
      (climb p.count (fun _ s => s) 32 0 ⟨zero, false, p.mutated, p.pbranch⟩).bind fun (level, s) =>
        (sweep hash fBranch p.inner p.matchlevel 33 p.count level
          { s with h := p.inner level, matchh := decide (p.matchlevel = some level) }).map fun s =>
            (s.h, s.mutated, s.pbranch)

/-- `ComputeMerkleRoot(leaves, &mutated)`; the position `-1` is no leaf's. -/
def computeMerkleRoot [DecidableEq H] (leaves : List H) : Option (H × Bool) :=
  (merkleComputation hash zero leaves false 0xffffffff).map fun (root, mutated, _) => (root, mutated)

def computeMerkleBranch [DecidableEq H] (leaves : List H) (position : Nat) : Option (List H) :=
  (merkleComputation hash zero leaves true position).map fun (_, _, branch) => branch

def computeMerkleRootFromBranch (leaf : H) : List H → Nat → H
  | [], _ => leaf
  | h :: vMerkleBranch, nIndex =>
      computeMerkleRootFromBranch (if nIndex &&& 1 ≠ 0 then hash h leaf else hash leaf h) vMerkleBranch (nIndex >>> 1)

/-! ## The loops that climb -/

section Climb

variable {hash} {leaf : Nat → H} {n : Nat}

/-- A loop that climbs ends with what its body keeps, at the lowest set bit from the level where it starts. -/
theorem climb_of_invariant {I : Nat → Carry H → Prop} {count depth : Nat} {step : Nat → Carry H → Carry H}
    (hstep : ∀ level s, I level s → ¬ count.testBit level → I (level + 1) (step level s))
    (hdepth : ∀ level s, I level s → level < depth) {fuel level : Nat} {s : Carry H} (hfuel : level + fuel = depth)
    (hs : I level s) :
    ∃ level' t, climb count step fuel level s = some (level', t) ∧ I level' t ∧ count.testBit level' ∧
      level ≤ level' := by
  induction fuel generalizing level s with
  | zero => exact absurd (hdepth level s hs) (by omega)
  | succ fuel ih =>
      rw [climb]
      split_ifs with hbit
      · exact ⟨level, s, rfl, hs, hbit, le_rfl⟩
      · obtain ⟨level', t, hclimb, ht, hbit', hle⟩ := ih (by omega) (hstep level s hs hbit)
        exact ⟨level', t, hclimb, ht, hbit', by omega⟩

theorem testBit_iff_odd {m level : Nat} : m.testBit level ↔ m / 2 ^ level % 2 = 1 := by
  rw [Nat.testBit_eq_decide_div_mod_eq, decide_eq_true_iff]

theorem div_pow_succ (m level : Nat) : m / 2 ^ (level + 1) = m / 2 ^ level / 2 := by
  rw [pow_succ, Nat.div_div_eq_div_mul]

/-- The places in `inner` that count hold the last complete nodes of their levels. -/
def InnerOk (hash : H → H → H) (leaf : Nat → H) (n m : Nat) (inner : Nat → H) : Prop :=
  ∀ level, m.testBit level → inner level = Merkle.node hash leaf n level (m / 2 ^ level - 1)

/-- Where a climb is: `count` stands for a whole number of nodes of the level, one more than `m` has. -/
structure Climbing (n m count level : Nat) : Prop where
  dvd : 2 ^ level ∣ count
  quot : m / 2 ^ level + 1 = count / 2 ^ level
  le : count / 2 ^ level ≤ Merkle.width n level
  depth : level ≤ Nat.clog 2 n

namespace Climbing

variable {m count level : Nat} (at_ : Climbing n m count level)

include at_

/-- Where the bit is not set there are two nodes to hash: the one in `inner` and the one that comes up. -/
theorem pair (hbit : ¬ count.testBit level) :
    ∃ q, count / 2 ^ level = 2 * q + 2 ∧ m / 2 ^ level = 2 * q + 1 ∧ 2 * q + 1 < Merkle.width n level := by
  rw [testBit_iff_odd] at hbit
  have hquot := at_.quot
  have hle := at_.le
  exact ⟨m / 2 ^ level / 2, by omega, by omega, by omega⟩

theorem succ (hbit : ¬ count.testBit level) : Climbing n m count (level + 1) := by
  obtain ⟨q, hcount, hm, hq⟩ := at_.pair hbit
  have hcount' : count / 2 ^ (level + 1) = q + 1 := by
    rw [div_pow_succ]
    omega
  have hm' : m / 2 ^ (level + 1) = q := by
    rw [div_pow_succ]
    omega
  refine ⟨?_, by omega, ?_, ?_⟩
  · rw [pow_succ]
    exact Nat.mul_dvd_of_dvd_div at_.dvd ⟨q + 1, by omega⟩
  · rw [hcount', Merkle.width_succ]
    omega
  · have hlt := Merkle.lt_width.mp hq
    have hpos : 0 < 2 ^ level := Nat.two_pow_pos level
    exact (Nat.lt_clog_iff_pow_lt Nat.one_lt_two).mpr (by nlinarith)

theorem lt_of_lt (hn : n < 2 ^ 31) : level < 32 := by
  have hclog : Nat.clog 2 n ≤ 31 := Nat.clog_le_of_le_pow hn.le
  have hdepth := at_.depth
  omega

/-- The bit is not set in `m` where the climb ends, and above it nothing changes. -/
theorem div_eq (hbit : count.testBit level) {above : Nat} (hlt : level < above) :
    count / 2 ^ above = m / 2 ^ above := by
  obtain ⟨k, rfl⟩ := Nat.exists_eq_add_of_lt hlt
  rw [testBit_iff_odd] at hbit
  have hquot := at_.quot
  rw [show level + k + 1 = level + 1 + k by omega, pow_add, ← Nat.div_div_eq_div_mul, ← Nat.div_div_eq_div_mul,
    div_pow_succ, div_pow_succ]
  congr 1
  omega

theorem not_testBit_of_lt {below : Nat} (hlt : below < level) : ¬ count.testBit below := by
  obtain ⟨k, hk⟩ := at_.dvd
  obtain ⟨d, rfl⟩ := Nat.exists_eq_add_of_lt hlt
  rw [testBit_iff_odd, hk, show below + d + 1 = below + (d + 1) by omega, pow_add, Nat.mul_assoc,
    Nat.mul_div_cancel_left _ (Nat.two_pow_pos below), pow_succ', Nat.mul_assoc, Nat.mul_mod_right]
  exact Nat.zero_ne_one

/-- The hash that comes up is that of the next node, one level up. -/
theorem hash_succ {inner : Nat → H} (hinner : InnerOk hash leaf n m inner) (hbit : ¬ count.testBit level) {h : H}
    (hh : h = Merkle.node hash leaf n level (count / 2 ^ level - 1)) :
    hash (inner level) h = Merkle.node hash leaf n (level + 1) (count / 2 ^ (level + 1) - 1) := by
  obtain ⟨q, hcount, hm, hq⟩ := at_.pair hbit
  have hset : m.testBit level := testBit_iff_odd.mpr (by omega)
  rw [div_pow_succ, hh, hinner level hset, hcount, hm, show (2 * q + 2) / 2 - 1 = q by omega, Merkle.node_succ_of_lt hq]
  rfl

end Climbing

/-! ### The mutation -/

/-- A pair of equal complete nodes among the nodes hashed so far: those that end before `count`, and those that end
there below the level. -/
def Seen (hash : H → H → H) (leaf : Nat → H) (n count level : Nat) : Prop :=
  ∃ l q, ((2 * q + 2) * 2 ^ l < count ∨ (2 * q + 2) * 2 ^ l = count ∧ l < level) ∧
    Merkle.node hash leaf n l (2 * q) = Merkle.node hash leaf n l (2 * q + 1)

theorem Climbing.seen_succ {m count level : Nat} (at_ : Climbing n m count level) {inner : Nat → H}
    (hinner : InnerOk hash leaf n m inner) (hbit : ¬ count.testBit level) {h : H}
    (hh : h = Merkle.node hash leaf n level (count / 2 ^ level - 1)) :
    Seen hash leaf n count (level + 1) ↔ Seen hash leaf n count level ∨ inner level = h := by
  obtain ⟨q, hcount, hm, hq⟩ := at_.pair hbit
  have hset : m.testBit level := testBit_iff_odd.mpr (by omega)
  have hend : (2 * q + 2) * 2 ^ level = count := by rw [← hcount, Nat.div_mul_cancel at_.dvd]
  rw [hh, hinner level hset, hcount, hm]
  constructor
  · rintro ⟨l, r, hlt | ⟨heq, hl⟩, hnode⟩
    · exact .inl ⟨l, r, .inl hlt, hnode⟩
    · rcases Nat.lt_succ_iff_lt_or_eq.mp hl with hl | rfl
      · exact .inl ⟨l, r, .inr ⟨heq, hl⟩, hnode⟩
      · -- at this level the pair is the one that is hashed
        have hr := Nat.eq_of_mul_eq_mul_right (Nat.two_pow_pos l) (heq.trans hend.symm)
        obtain rfl : r = q := by omega
        exact .inr hnode
  · rintro (⟨l, r, hlt | ⟨heq, hl⟩, hnode⟩ | hnode)
    · exact ⟨l, r, .inl hlt, hnode⟩
    · exact ⟨l, r, .inr ⟨heq, hl.trans (Nat.lt_succ_self level)⟩, hnode⟩
    · exact ⟨level, q, .inr ⟨hend, Nat.lt_succ_self level⟩, hnode⟩

/-- At the end of the climb all pairs that end at `count` have been hashed. -/
theorem seen_of_testBit {count level : Nat} (hbit : count.testBit level) :
    Seen hash leaf n count level ↔ Seen hash leaf n (count + 1) 0 := by
  constructor
  · rintro ⟨l, q, hlt | ⟨heq, -⟩, hnode⟩
    · exact ⟨l, q, .inl (by omega), hnode⟩
    · exact ⟨l, q, .inl (by omega), hnode⟩
  · rintro ⟨l, q, hlt | ⟨-, hl⟩, hnode⟩
    · rcases Nat.lt_succ_iff_lt_or_eq.mp hlt with hlt | heq
      · exact ⟨l, q, .inl hlt, hnode⟩
      · refine ⟨l, q, .inr ⟨heq, ?_⟩, hnode⟩
        -- higher up, a pair that ends at `count` would leave the bit clear
        by_contra hge
        obtain ⟨d, rfl⟩ := Nat.exists_eq_add_of_le (not_lt.mp hge)
        rw [testBit_iff_odd, ← heq, pow_add, Nat.mul_left_comm, Nat.mul_div_cancel_left _ (Nat.two_pow_pos level),
          show (2 * q + 2) * 2 ^ d = 2 * ((q + 1) * 2 ^ d) by ring, Nat.mul_mod_right] at hbit
        exact Nat.zero_ne_one hbit
    · exact absurd hl (Nat.not_lt_zero l)

theorem seen_iff_repeated : Seen hash leaf n (n + 1) 0 ↔ Merkle.Repeated hash leaf n := by
  constructor
  · rintro ⟨l, q, hlt | ⟨-, hl⟩, hnode⟩
    · exact ⟨l, q, Nat.lt_succ_iff.mp hlt, hnode⟩
    · exact absurd hl (Nat.not_lt_zero l)
  · rintro ⟨l, q, hle, hnode⟩
    exact ⟨l, q, .inl (Nat.lt_succ_iff.mpr hle), hnode⟩

/-! ### The branch -/

/-- The other child of the parent of the node above the leaf `i`. -/
def sibling (hash : H → H → H) (leaf : Nat → H) (n i level : Nat) : H :=
  let pos := i / 2 ^ level
  if pos % 2 = 1 then Merkle.node hash leaf n level (pos - 1)
  else if pos + 1 < Merkle.width n level then Merkle.node hash leaf n level (pos + 1)
  else Merkle.node hash leaf n level pos

def siblings (hash : H → H → H) (leaf : Nat → H) (n i level : Nat) : List H :=
  (List.range level).map (sibling hash leaf n i)

theorem siblings_succ (i level : Nat) :
    siblings hash leaf n i (level + 1) = siblings hash leaf n i level ++ [sibling hash leaf n i level] := by
  rw [siblings, List.range_succ, List.map_append]
  rfl

/-- Where the leaf `i` of the first `m` is: its subtree waits in `inner` at `matchlevel`. -/
def Waiting (hash : H → H → H) (leaf : Nat → H) (n i m level : Nat) (matchlevel : Option Nat)
    (pbranch : List H) : Prop :=
  ∃ t, level ≤ t ∧ matchlevel = some t ∧ m.testBit t ∧ i / 2 ^ t + 1 = m / 2 ^ t ∧ pbranch = siblings hash leaf n i t

/-- The leaf is below the hash that comes up, or its subtree waits, or it has not come yet. -/
def Tracked (hash : H → H → H) (leaf : Nat → H) (n i m count level : Nat) (matchlevel : Option Nat)
    (s : Carry H) : Prop :=
  (s.matchh = true ∧ i / 2 ^ level + 1 = count / 2 ^ level ∧ s.pbranch = siblings hash leaf n i level) ∨
    s.matchh = false ∧
      (Waiting hash leaf n i m level matchlevel s.pbranch ∨ count ≤ i ∧ matchlevel = none ∧ s.pbranch = [])

theorem Climbing.tracked_succ {i m count level : Nat} (at_ : Climbing n m count level) {inner : Nat → H}
    (hinner : InnerOk hash leaf n m inner) (hbit : ¬ count.testBit level) {matchlevel : Option Nat} {s : Carry H}
    (hh : s.h = Merkle.node hash leaf n level (count / 2 ^ level - 1))
    (hs : Tracked hash leaf n i m count level matchlevel s) :
    Tracked hash leaf n i m count (level + 1) matchlevel (join hash true inner matchlevel level s) := by
  obtain ⟨q, hcount, hm, hq⟩ := at_.pair hbit
  have hset : m.testBit level := testBit_iff_odd.mpr (by omega)
  have hinner := hinner level hset
  rw [hm] at hinner
  rw [hcount] at hh
  rw [Tracked, div_pow_succ, div_pow_succ, siblings_succ]
  rcases hs with ⟨hmatch, hpos, hbranch⟩ | ⟨hmatch, ⟨t, hle, hlevel, ht, hpos, hbranch⟩ | ⟨hlater, hnone, hbranch⟩⟩
  · -- a right child: the left one is in `inner`
    have hsib : sibling hash leaf n i level = inner level := by
      rw [sibling, if_pos (by omega), hinner, show i / 2 ^ level - 1 = 2 * q + 1 - 1 by omega]
    refine .inl ⟨by simp [join, hmatch], by omega, ?_⟩
    simp [join, hmatch, hbranch, hsib]
  · rcases Nat.eq_or_lt_of_le hle with rfl | hlt
    · -- a left child that waited: the right one comes up
      have hsib : sibling hash leaf n i level = s.h := by
        rw [sibling, if_neg (by omega), if_pos (by omega), hh, show i / 2 ^ level + 1 = 2 * q + 2 - 1 by omega]
      refine .inl ⟨by simp [join, hmatch, hlevel], by omega, ?_⟩
      simp [join, hmatch, hlevel, hbranch, hsib]
    · have hne : matchlevel ≠ some level := by
        rw [hlevel, Ne, Option.some.injEq]
        omega
      have hjoin : join hash true inner matchlevel level s = { s with h := hash (inner level) s.h } := by
        simp [join, hmatch, hne]
      rw [hjoin]
      exact .inr ⟨hmatch, .inl ⟨t, hlt, hlevel, ht, hpos, hbranch⟩⟩
  · have hjoin : join hash true inner matchlevel level s = { s with h := hash (inner level) s.h } := by
      simp [join, hmatch, hnone]
    rw [hjoin]
    exact .inr ⟨hmatch, .inr ⟨hlater, hnone, hbranch⟩⟩

/-! ### A climb -/

/-- What holds at every level of a climb. -/
structure Rising (hash : H → H → H) (leaf : Nat → H) (n i m count : Nat) (fBranch : Bool) (matchlevel : Option Nat)
    (level : Nat) (s : Carry H) : Prop where
  place : Climbing n m count level
  h : s.h = Merkle.node hash leaf n level (count / 2 ^ level - 1)
  tracked : fBranch = true → Tracked hash leaf n i m count level matchlevel s

theorem Rising.join {i m count level : Nat} {fBranch : Bool} {matchlevel : Option Nat} {inner : Nat → H} {s : Carry H}
    (hs : Rising hash leaf n i m count fBranch matchlevel level s) (hinner : InnerOk hash leaf n m inner)
    (hbit : ¬ count.testBit level) :
    Rising hash leaf n i m count fBranch matchlevel (level + 1) (join hash fBranch inner matchlevel level s) where
  place := hs.place.succ hbit
  h := by rw [join_h, hs.place.hash_succ hinner hbit hs.h]
  tracked hb := by
    subst hb
    exact hs.place.tracked_succ hinner hbit hs.h (hs.tracked rfl)

/-- Where a climb ends, the subtree of the leaf `i` is at that level or above it. -/
theorem Rising.waiting_lt {i m count level : Nat} {fBranch : Bool} {matchlevel : Option Nat} {s : Carry H}
    (hs : Rising hash leaf n i m count fBranch matchlevel level s) (hbit : count.testBit level)
    (h : Waiting hash leaf n i m level matchlevel s.pbranch) :
    Waiting hash leaf n i m (level + 1) matchlevel s.pbranch := by
  obtain ⟨t, hle, hlevel, ht, hpos, hbranch⟩ := h
  have hquot := hs.place.quot
  have hne : level ≠ t := by
    rintro rfl
    rw [testBit_iff_odd] at hbit ht
    omega
  exact ⟨t, by omega, hlevel, ht, hpos, hbranch⟩

end Climb

/-! ## The loop over the leaves -/

section Leaves

variable {hash} {leaf : Nat → H} {n : Nat}

/-- What holds after `m` leaves. -/
structure Progress.Ok (hash : H → H → H) (leaf : Nat → H) (n i m : Nat) (fBranch : Bool) (p : Progress H) : Prop where
  count : p.count = m
  inner : InnerOk hash leaf n m p.inner
  mutated : p.mutated = true ↔ Seen hash leaf n (m + 1) 0
  tracked : fBranch = true → Waiting hash leaf n i m 0 p.matchlevel p.pbranch ∨
    m ≤ i ∧ p.matchlevel = none ∧ p.pbranch = []

variable {i m : Nat} {fBranch : Bool} {p : Progress H}

/-- A leaf starts a climb. -/
theorem Progress.Ok.start (hp : p.Ok hash leaf n i m fBranch) (hm : m < n) :
    Rising hash leaf n i m (m + 1) fBranch p.matchlevel 0 ⟨leaf m, decide (p.count = i), p.mutated, p.pbranch⟩ where
  place := ⟨by simp, by simp, by rw [Merkle.width_zero, pow_zero, Nat.div_one]; exact hm, Nat.zero_le _⟩
  h := by simp [Merkle.node]
  tracked hb := by
    rw [hp.count]
    by_cases hi : m = i
    · subst hi
      rcases hp.tracked hb with ⟨t, -, -, ht, hpos, -⟩ | ⟨-, -, hbranch⟩
      · -- the leaf has not come before
        omega
      · exact .inl ⟨by simp, by simp, hbranch⟩
    · refine .inr ⟨by simpa using hi, (hp.tracked hb).imp id ?_⟩
      rintro ⟨hle, hrest⟩
      exact ⟨by omega, hrest⟩

/-- Where the climb ends, its hash is put into `inner`. -/
theorem Rising.finish {level : Nat} {inner : Nat → H} {matchlevel : Option Nat} {s : Carry H}
    (hs : Rising hash leaf n i m (m + 1) fBranch matchlevel level s) (hinner : InnerOk hash leaf n m inner)
    (hmutated : s.mutated = true ↔ Seen hash leaf n (m + 1) level) (hbit : (m + 1).testBit level) :
    Progress.Ok hash leaf n i (m + 1) fBranch
      { inner := Function.update inner level s.h
        count := m + 1
        matchlevel := if s.matchh then some level else matchlevel
        mutated := s.mutated
        pbranch := s.pbranch } where
  count := rfl
  inner := by
    intro l hl
    rcases Nat.lt_trichotomy l level with hlt | rfl | hlt
    · exact absurd hl (hs.place.not_testBit_of_lt hlt)
    · exact (Function.update_self ..).trans hs.h
    · have hsame := hs.place.div_eq hbit hlt
      show Function.update inner level s.h l = _
      rw [Function.update_of_ne (by omega), hsame]
      refine hinner l ?_
      rwa [testBit_iff_odd, ← hsame, ← testBit_iff_odd]
  mutated := hmutated.trans (seen_of_testBit hbit)
  tracked hb := by
    rcases hs.tracked hb with ⟨hmatch, hpos, hbranch⟩ | ⟨hmatch, hwait | ⟨hlater, hnone, hbranch⟩⟩
    · exact .inl ⟨level, Nat.zero_le _, by simp [hmatch], hbit, hpos, hbranch⟩
    · obtain ⟨t, hlt, hlevel, ht, hpos, hbranch⟩ := hs.waiting_lt hbit hwait
      have hsame := hs.place.div_eq hbit hlt
      refine .inl ⟨t, Nat.zero_le _, by simp [hmatch, hlevel], ?_, hpos.trans hsame.symm, hbranch⟩
      rwa [testBit_iff_odd, hsame, ← testBit_iff_odd]
    · exact .inr ⟨hlater, by simp [hmatch, hnone], hbranch⟩

variable [DecidableEq H]

/-- **One leaf.** -/
theorem Progress.Ok.addLeaf (hp : p.Ok hash leaf n i m fBranch) (hn : n < 2 ^ 31) (hm : m < n) :
    ∃ p', addLeaf hash fBranch i p (leaf m) = some p' ∧ p'.Ok hash leaf n i (m + 1) fBranch := by
  let I (level : Nat) (s : Carry H) : Prop := Rising hash leaf n i m (m + 1) fBranch p.matchlevel level s ∧
    (s.mutated = true ↔ Seen hash leaf n (m + 1) level)
  have hstep : ∀ level s, I level s → ¬ (m + 1).testBit level →
      I (level + 1) (joinLeaf hash fBranch p.inner p.matchlevel level s) := by
    rintro level s ⟨hs, hmutated⟩ hbit
    have hup := hs.join hp.inner hbit
    refine ⟨⟨hup.place, hup.h, hup.tracked⟩, ?_⟩
    rw [hs.place.seen_succ hp.inner hbit hs.h, ← hmutated]
    simp [joinLeaf]
  obtain ⟨level, s, hclimb, ⟨hs, hmutated⟩, hbit, -⟩ :=
    climb_of_invariant hstep (fun level s h => h.1.place.lt_of_lt hn) (Nat.zero_add 32) ⟨hp.start hm, hp.mutated⟩
  refine ⟨_, ?_, hs.finish hp.inner hmutated hbit⟩
  rw [hp.count] at hclimb
  rw [MerkleTree.addLeaf, hp.count, hclimb]
  rfl

/-- **All leaves.** -/
theorem Progress.Ok.addLeaves (hp : p.Ok hash leaf n i m fBranch) (hn : n < 2 ^ 31) {l : List H}
    (hl : ∀ j (hj : j < l.length), l[j] = leaf (m + j)) (hlen : m + l.length = n) :
    ∃ p', l.foldlM (MerkleTree.addLeaf hash fBranch i) p = some p' ∧ p'.Ok hash leaf n i n fBranch := by
  induction l generalizing m p with
  | nil =>
      obtain rfl : m = n := hlen
      exact ⟨p, rfl, hp⟩
  | cons x l ih =>
      rw [List.length_cons] at hlen
      obtain rfl : x = leaf m := hl 0 (by simp)
      obtain ⟨p₁, hadd, hp₁⟩ := hp.addLeaf hn (by omega)
      obtain ⟨p', hfold, hp'⟩ := ih hp₁ (fun j hj => by
        rw [show m + 1 + j = m + (j + 1) by omega, ← hl (j + 1) (by rw [List.length_cons]; omega),
          List.getElem_cons_succ])
        (by omega)
      refine ⟨p', ?_, hp'⟩
      rw [List.foldlM_cons, hadd]
      exact hfold

end Leaves

/-! ## The sweep -/

section Sweep

variable {hash} {leaf : Nat → H} {n i : Nat} {fBranch : Bool} {inner : Nat → H} {matchlevel : Option Nat}

/-- What holds at every level of the sweep: `count` stands for all nodes of the level, an odd number. -/
structure Sweeping (hash : H → H → H) (leaf : Nat → H) (n i : Nat) (fBranch : Bool) (matchlevel : Option Nat)
    (count level : Nat) (s : Carry H) : Prop where
  count : count = Merkle.width n level * 2 ^ level
  odd : Merkle.width n level % 2 = 1
  depth : level ≤ Nat.clog 2 n
  h : s.h = Merkle.node hash leaf n level (Merkle.width n level - 1)
  tracked : fBranch = true →
    (s.matchh = true ∧ i / 2 ^ level + 1 = Merkle.width n level ∧ s.pbranch = siblings hash leaf n i level) ∨
      s.matchh = false ∧ Waiting hash leaf n i n (level + 1) matchlevel s.pbranch

/-- Where a climb of the sweep ends the sweep goes on. -/
theorem Rising.sweeping {count level : Nat} {s : Carry H} (hs : Rising hash leaf n i n count fBranch matchlevel level s)
    (hbit : count.testBit level) (hi : fBranch = true → i < count) :
    Sweeping hash leaf n i fBranch matchlevel count level s := by
  have hwidth : count / 2 ^ level = Merkle.width n level := by
    have hle := hs.place.le
    have hquot := hs.place.quot
    have hdiv := (Merkle.div_le_width n level).2
    omega
  refine ⟨?_, ?_, hs.place.depth, ?_, fun hb => ?_⟩
  · rw [← hwidth, Nat.div_mul_cancel hs.place.dvd]
  · rwa [testBit_iff_odd, hwidth] at hbit
  · rw [hs.h, hwidth]
  · rcases hs.tracked hb with ⟨hmatch, hpos, hbranch⟩ | ⟨hmatch, hwait | ⟨hlater, -, -⟩⟩
    · exact .inl ⟨hmatch, hpos.trans hwidth, hbranch⟩
    · exact .inr ⟨hmatch, hs.waiting_lt hbit hwait⟩
    · exact absurd (hi hb) (by omega)

theorem Sweeping.le_count {count level : Nat} {s : Carry H}
    (hs : Sweeping hash leaf n i fBranch matchlevel count level s) : n ≤ count := by
  rw [hs.count]
  exact not_lt.mp fun h => (Merkle.lt_width.mpr h).false

/-- The last node of the level is hashed with itself. -/
theorem Sweeping.double {count level : Nat} {s : Carry H}
    (hs : Sweeping hash leaf n i fBranch matchlevel count level s) (hne : count ≠ 2 ^ level) :
    Rising hash leaf n i n (count + 2 ^ level) fBranch matchlevel (level + 1) (joinSelf hash fBranch s) := by
  have hodd := hs.odd
  have hpos : 0 < 2 ^ level := Nat.two_pow_pos level
  have hcount : (count + 2 ^ level) / 2 ^ (level + 1) = (Merkle.width n level + 1) / 2 := by
    rw [div_pow_succ, hs.count, Nat.add_div_right _ hpos, Nat.mul_div_cancel _ hpos]
  have hmany : 1 < Merkle.width n level := by
    have hone : Merkle.width n level ≠ 1 := by
      intro h
      exact hne (by rw [hs.count, h, Nat.one_mul])
    omega
  refine ⟨⟨?_, ?_, ?_, ?_⟩, ?_, fun hb => ?_⟩
  · refine ⟨(Merkle.width n level + 1) / 2, ?_⟩
    rw [hs.count, pow_succ, Nat.mul_assoc, show 2 * ((Merkle.width n level + 1) / 2) =
      Merkle.width n level + 1 by omega]
    ring
  · have hdiv := Merkle.div_le_width n level
    rw [hcount, div_pow_succ]
    omega
  · rw [hcount, Merkle.width_succ]
  · have hlt := Merkle.lt_width.mp hmany
    exact (Nat.lt_clog_iff_pow_lt Nat.one_lt_two).mpr (by omega)
  · rw [joinSelf_h, hcount, Merkle.node_succ_of_not_lt (by omega), hs.h,
      show 2 * ((Merkle.width n level + 1) / 2 - 1) = Merkle.width n level - 1 by omega]
  · subst hb
    rcases hs.tracked rfl with ⟨hmatch, hlast, hbranch⟩ | ⟨hmatch, hwait⟩
    · have hsib : sibling hash leaf n i level = s.h := by
        rw [sibling, if_neg (by omega), if_neg (by omega), hs.h, ← hlast, Nat.add_sub_cancel]
      refine .inl ⟨by simp [joinSelf, hmatch], ?_, ?_⟩
      · rw [hcount, div_pow_succ]
        omega
      · rw [siblings_succ, hsib, ← hbranch]
        simp [joinSelf, hmatch]
    · exact .inr ⟨by simp [joinSelf, hmatch], .inl (by simpa [joinSelf, hmatch] using hwait)⟩

/-- **The sweep** ends at the root. -/
theorem Sweeping.sweep {count level fuel : Nat} {s : Carry H} (hn : n < 2 ^ 31) (hi : fBranch = true → i < n)
    (hinner : InnerOk hash leaf n n inner) (hs : Sweeping hash leaf n i fBranch matchlevel count level s)
    (hfuel : 32 < level + fuel) :
    ∃ t, sweep hash fBranch inner matchlevel fuel count level s = some t ∧
      t.h = Merkle.node hash leaf n (Nat.clog 2 n) 0 ∧ t.mutated = s.mutated ∧
        (fBranch = true → t.pbranch = siblings hash leaf n i (Nat.clog 2 n)) := by
  have hclog : Nat.clog 2 n ≤ 31 := Nat.clog_le_of_le_pow hn.le
  induction fuel generalizing count level s with
  | zero =>
      have hdepth := hs.depth
      omega
  | succ fuel ih =>
      rw [MerkleTree.sweep]
      split_ifs with htop
      · have hone : Merkle.width n level = 1 := by
          refine Nat.eq_of_mul_eq_mul_right (Nat.two_pow_pos level) ?_
          rw [← hs.count, htop, Nat.one_mul]
        have hfit : n ≤ 2 ^ level := Merkle.width_le_one.mp hone.le
        obtain rfl : level = Nat.clog 2 n := le_antisymm hs.depth (Nat.clog_le_of_le_pow hfit)
        refine ⟨s, rfl, by rw [hs.h, hone], rfl, fun hb => ?_⟩
        rcases hs.tracked hb with ⟨-, -, hbranch⟩ | ⟨-, t, hlt, -, ht, -⟩
        · exact hbranch
        · -- nothing waits above the top
          have hge := Nat.ge_two_pow_of_testBit ht
          have hpow := Nat.pow_lt_pow_right Nat.one_lt_two hlt
          omega
      · let I (l : Nat) (t : Carry H) : Prop :=
          Rising hash leaf n i n (count + 2 ^ level) fBranch matchlevel l t ∧ t.mutated = s.mutated
        have hstep : ∀ l t, I l t → ¬ (count + 2 ^ level).testBit l →
            I (l + 1) (join hash fBranch inner matchlevel l t) :=
          fun l t h hbit => ⟨h.1.join hinner hbit, by rw [join_mutated, h.2]⟩
        have hlevel : level + 1 + (31 - level) = 32 := by
          have hdepth := hs.depth
          omega
        obtain ⟨level', t, hclimb, ⟨ht, hmutated⟩, hbit, hup⟩ := climb_of_invariant hstep
          (fun l t h => h.1.place.lt_of_lt hn) hlevel ⟨hs.double htop, joinSelf_mutated hash fBranch s⟩
        have hle : n ≤ count + 2 ^ level := hs.le_count.trans (Nat.le_add_right ..)
        obtain ⟨u, hsweep, hroot, hu, hbranch⟩ := ih (ht.sweeping hbit fun hb => (hi hb).trans_le hle) (by omega)
        refine ⟨u, ?_, hroot, hu.trans hmutated, hbranch⟩
        show Option.bind _ _ = _
        rw [hclimb]
        exact hsweep

/-- The lowest bit of the number of leaves starts the sweep. -/
theorem Progress.Ok.sweeping {p : Progress H} (hp : p.Ok hash leaf n i n fBranch) (hi : fBranch = true → i < n)
    {level : Nat}
    (hdvd : 2 ^ level ∣ n) (hbit : n.testBit level) (mutated : Bool) :
    Sweeping hash leaf n i fBranch p.matchlevel n level
      ⟨p.inner level, decide (p.matchlevel = some level), mutated, p.pbranch⟩ := by
  have hpos : 0 < 2 ^ level := Nat.two_pow_pos level
  obtain ⟨k, hk⟩ := hdvd
  have hdiv : n / 2 ^ level = k := by rw [hk, Nat.mul_div_cancel_left _ hpos]
  have hwidth : Merkle.width n level = k := by
    refine eq_of_forall_lt_iff fun q => ?_
    rw [Merkle.lt_width, hk, Nat.mul_comm, Nat.mul_lt_mul_left hpos]
  refine ⟨?_, ?_, ?_, ?_, fun hb => ?_⟩
  · rw [hwidth, hk, Nat.mul_comm]
  · rwa [hwidth, ← hdiv, ← testBit_iff_odd]
  · exact (Nat.pow_le_pow_iff_right Nat.one_lt_two).mp
      ((Nat.ge_two_pow_of_testBit hbit).trans (Nat.le_pow_clog Nat.one_lt_two n))
  · rw [hwidth, ← hdiv]
    exact hp.inner level hbit
  · rcases hp.tracked hb with ⟨t, -, hlevel, ht, hplace, hbranch⟩ | ⟨hlater, -, -⟩
    · rcases Nat.lt_trichotomy t level with hlt | rfl | hlt
      · -- below, the bits are not set
        obtain ⟨d, rfl⟩ := Nat.exists_eq_add_of_lt hlt
        rw [testBit_iff_odd, hk, Nat.add_assoc, pow_add, Nat.mul_assoc,
          Nat.mul_div_cancel_left _ (Nat.two_pow_pos t), pow_succ', Nat.mul_assoc, Nat.mul_mod_right] at ht
        exact absurd ht Nat.zero_ne_one
      · exact .inl ⟨by simp [hlevel], by rw [hwidth, ← hdiv, hplace], hbranch⟩
      · refine .inr ⟨?_, t, hlt, hlevel, ht, hplace, hbranch⟩
        simp only [hlevel, Option.some.injEq, decide_eq_false_iff_not]
        omega
    · exact absurd (hi hb) (by omega)

end Sweep

/-! ## The whole computation -/

section Computation

variable {leaves : List H}

/-- **`MerkleComputation`** finds the root of the tree, tells whether two complete subtrees under one node are equal,
and lists the siblings on the way up from a leaf. -/
theorem merkleComputation_eq [DecidableEq H] (hne : leaves ≠ []) (hn : leaves.length < 2 ^ 31) {i : Nat}
    {fBranch : Bool}
    (hi : fBranch = true → i < leaves.length) :
    ∃ mutated branch, merkleComputation hash zero leaves fBranch i =
        some (Merkle.root hash zero leaves, mutated, branch) ∧
      (mutated = true ↔ Merkle.Repeated hash (fun j => leaves.getD j zero) leaves.length) ∧
      (fBranch = true → branch =
        siblings hash (fun j => leaves.getD j zero) leaves.length i (Nat.clog 2 leaves.length)) := by
  set leaf : Nat → H := fun j => leaves.getD j zero
  have hlen : 0 < leaves.length := List.length_pos_iff.mpr hne
  have hstart : Progress.Ok hash leaf leaves.length i 0 fBranch { inner := fun _ => zero } := by
    refine ⟨rfl, fun level h => ?_, ?_, fun _ => .inr ⟨Nat.zero_le i, rfl, rfl⟩⟩
    · rw [Nat.zero_testBit] at h
      exact absurd h Bool.false_ne_true
    · refine ⟨fun h => absurd h Bool.false_ne_true, ?_⟩
      rintro ⟨l, q, hlt | ⟨-, hl⟩, -⟩
      · have hpos : 0 < (2 * q + 2) * 2 ^ l := Nat.mul_pos (by omega) (Nat.two_pow_pos l)
        omega
      · exact absurd hl (Nat.not_lt_zero l)
  have hleaf : ∀ j (hj : j < leaves.length), leaves[j] = leaf (0 + j) := by
    intro j hj
    simp [leaf, hj]
  obtain ⟨p, hfold, hp⟩ := hstart.addLeaves hn hleaf (Nat.zero_add _)
  -- the lowest bit
  have hstep : ∀ level (s : Carry H), 2 ^ level ∣ p.count ∧ s = ⟨zero, false, p.mutated, p.pbranch⟩ →
      ¬ p.count.testBit level → 2 ^ (level + 1) ∣ p.count ∧ s = ⟨zero, false, p.mutated, p.pbranch⟩ := by
    rintro level s ⟨hdvd, hs⟩ hbit
    rw [testBit_iff_odd] at hbit
    rw [pow_succ]
    exact ⟨Nat.mul_dvd_of_dvd_div hdvd (Nat.dvd_of_mod_eq_zero (by omega)), hs⟩
  have hdepth : ∀ level (s : Carry H), 2 ^ level ∣ p.count ∧ s = ⟨zero, false, p.mutated, p.pbranch⟩ → level < 32 := by
    rintro level s ⟨hdvd, -⟩
    have hle := Nat.le_of_dvd (by rw [hp.count]; omega) hdvd
    rw [hp.count] at hle
    exact (Nat.pow_lt_pow_iff_right Nat.one_lt_two).mp (by omega)
  obtain ⟨level, s, hclimb, ⟨hdvd, rfl⟩, hbit, -⟩ := climb_of_invariant hstep hdepth (Nat.zero_add 32)
    ⟨by rw [pow_zero]; exact one_dvd _, rfl⟩
  rw [hp.count] at hdvd hbit
  have hfuel : 32 < level + 33 := by omega
  obtain ⟨t, hsweep, hroot, hmutated, hbranch⟩ := (hp.sweeping hi hdvd hbit p.mutated).sweep hn hi hp.inner hfuel
  refine ⟨t.mutated, t.pbranch, ?_, ?_, hbranch⟩
  · rw [merkleComputation, if_neg (by simpa using hne), hfold, Option.bind_some, hclimb, Option.bind_some, hp.count]
    simp only [hsweep, Option.map_some, Merkle.root_eq_node zero hne, hroot, leaf]
  · rw [hmutated, hp.mutated, seen_iff_repeated]

variable {hash zero}

/-- A branch that is longer by one hash joins it to what the shorter one gives. -/
theorem computeMerkleRootFromBranch_append (x leaf : H) (branch : List H) (nIndex : Nat) :
    computeMerkleRootFromBranch hash leaf (branch ++ [x]) nIndex =
      if nIndex / 2 ^ branch.length % 2 = 1 then hash x (computeMerkleRootFromBranch hash leaf branch nIndex)
      else hash (computeMerkleRootFromBranch hash leaf branch nIndex) x := by
  induction branch generalizing leaf nIndex with
  | nil =>
      rw [List.nil_append, computeMerkleRootFromBranch, computeMerkleRootFromBranch, computeMerkleRootFromBranch,
        List.length_nil, pow_zero, Nat.div_one, Nat.and_one_is_mod]
      exact if_congr (by omega) rfl rfl
  | cons h branch ih =>
      rw [List.cons_append, computeMerkleRootFromBranch, ih, computeMerkleRootFromBranch, List.length_cons,
        Nat.shiftRight_one, Nat.div_div_eq_div_mul, pow_succ']

variable (hash) in
/-- **From a leaf to the root**: level by level the siblings give the nodes above the leaf. -/
theorem computeMerkleRootFromBranch_siblings (leaf : Nat → H) {n i : Nat} (hi : i < n) (level : Nat) :
    computeMerkleRootFromBranch hash (leaf i) (siblings hash leaf n i level) i =
      Merkle.node hash leaf n level (i / 2 ^ level) := by
  induction level with
  | zero => rw [pow_zero, Nat.div_one]; rfl
  | succ level ih =>
      have hlen : (siblings hash leaf n i level).length = level := by simp [siblings]
      have hpos : i / 2 ^ level < Merkle.width n level :=
        Merkle.lt_width.mpr ((Nat.div_mul_le_self i (2 ^ level)).trans_lt hi)
      rw [siblings_succ, computeMerkleRootFromBranch_append, hlen, ih, div_pow_succ, sibling]
      generalize i / 2 ^ level = pos at hpos ⊢
      split_ifs with hodd hright
      · rw [Merkle.node_succ_of_lt (by omega), show 2 * (pos / 2) = pos - 1 by omega, Nat.sub_add_cancel (by omega)]
      · rw [Merkle.node_succ_of_lt (by omega), show 2 * (pos / 2) = pos by omega]
      · rw [Merkle.node_succ_of_not_lt (by omega), show 2 * (pos / 2) = pos by omega]

variable [DecidableEq H]

variable (hash zero) in
theorem computeMerkleRoot_eq (hne : leaves ≠ []) (hn : leaves.length < 2 ^ 31) :
    ∃ mutated, computeMerkleRoot hash zero leaves = some (Merkle.root hash zero leaves, mutated) ∧
      (mutated = true ↔ Merkle.Repeated hash (fun j => leaves.getD j zero) leaves.length) := by
  obtain ⟨mutated, branch, hcomp, hmutated, -⟩ := merkleComputation_eq hash zero hne hn
    (fun h => absurd h Bool.false_ne_true)
  exact ⟨mutated, by rw [computeMerkleRoot, hcomp]; rfl, hmutated⟩

theorem computeMerkleBranch_eq (hn : leaves.length < 2 ^ 31) {i : Nat} (hi : i < leaves.length) :
    computeMerkleBranch hash zero leaves i =
      some (siblings hash (fun j => leaves.getD j zero) leaves.length i (Nat.clog 2 leaves.length)) := by
  have hne : leaves ≠ [] := List.length_pos_iff.mp (Nat.zero_lt_of_lt hi)
  obtain ⟨mutated, branch, hcomp, -, hbranch⟩ := merkleComputation_eq hash zero hne hn (fun _ => hi)
  rw [computeMerkleBranch, hcomp, ← hbranch rfl]
  rfl

/-- **Roots tell lists apart** that have trees of one depth, if both are reported unmutated. -/
theorem eq_of_computeMerkleRoot (hinj : Merkle.Injective hash) {l l' : List H} (hl : l ≠ []) (hl' : l' ≠ [])
    (hn : l.length < 2 ^ 31) (hn' : l'.length < 2 ^ 31) (hdepth : Nat.clog 2 l.length = Nat.clog 2 l'.length) {root : H}
    (hroot : computeMerkleRoot hash zero l = some (root, false))
    (hroot' : computeMerkleRoot hash zero l' = some (root, false)) : l = l' := by
  -- the shorter list, if there is one, cannot have the root of the longer one
  have hlonger : ∀ {a b : List H}, a ≠ [] → b ≠ [] → b.length < 2 ^ 31 → Nat.clog 2 a.length = Nat.clog 2 b.length →
      Merkle.root hash zero a = Merkle.root hash zero b → computeMerkleRoot hash zero b = some (root, false) →
      ¬ a.length < b.length := by
    intro a b ha hb hlen hsame heq hcomp hlt
    obtain ⟨mutated, hb', hmutated⟩ := computeMerkleRoot_eq hash zero hb hlen
    rw [Merkle.root_eq_node zero ha, Merkle.root_eq_node zero hb, hsame] at heq
    have hfit := Nat.le_pow_clog Nat.one_lt_two b.length
    have hpos := List.length_pos_iff.mpr ha
    have hrep := Merkle.repeated_of_node hinj hlt (by omega) (by omega) heq
    rw [hcomp, Option.some.injEq, Prod.mk.injEq] at hb'
    exact Bool.false_ne_true (hb'.2.trans (hmutated.mpr hrep))
  obtain ⟨_, hc, -⟩ := computeMerkleRoot_eq hash zero hl hn
  obtain ⟨_, hc', -⟩ := computeMerkleRoot_eq hash zero hl' hn'
  have heq : Merkle.root hash zero l = Merkle.root hash zero l' := by
    rw [hroot, Option.some.injEq, Prod.mk.injEq] at hc
    rw [hroot', Option.some.injEq, Prod.mk.injEq] at hc'
    exact hc.1.symm.trans hc'.1
  have hlen : l.length = l'.length :=
    le_antisymm (not_lt.mp (hlonger hl' hl hn hdepth.symm heq.symm hroot))
      (not_lt.mp (hlonger hl hl' hn' hdepth heq hroot'))
  rw [Merkle.root_eq_node zero hl, Merkle.root_eq_node zero hl', hlen] at heq
  have hfit := Nat.le_pow_clog Nat.one_lt_two l'.length
  refine List.ext_getElem hlen fun j hj hj' => ?_
  have hleaf := Merkle.leaf_of_node (hinj.noCollision _ _ _) heq (i := j) (by omega) (by omega) hj'
  simpa [hj, hj'] using hleaf

end Computation

/-- **The merkle computation**: the root is that of the definition level by level, every branch leads from its leaf
to it, and with an injective pair hash an unmutated list is known by its root among the lists of its depth. -/
theorem merkle_roots_and_branches {H : Type} [DecidableEq H] (hash : H → H → H) (zero : H) (leaves : List H)
    (hne : leaves ≠ []) (hn : leaves.length < 2 ^ 31) :
    (computeMerkleRoot hash zero leaves).map Prod.fst = some (Merkle.root hash zero leaves) ∧
    (∀ i (hi : i < leaves.length), ∃ branch, computeMerkleBranch hash zero leaves i = some branch ∧
      computeMerkleRootFromBranch hash leaves[i] branch i = Merkle.root hash zero leaves) ∧
    (Merkle.Injective hash → ∀ others : List H, others ≠ [] → others.length < 2 ^ 31 →
      Nat.clog 2 leaves.length = Nat.clog 2 others.length → ∀ root,
      computeMerkleRoot hash zero leaves = some (root, false) →
      computeMerkleRoot hash zero others = some (root, false) → leaves = others) := by
  refine ⟨?_, fun i hi => ?_, ?_⟩
  · obtain ⟨mutated, hroot, -⟩ := computeMerkleRoot_eq hash zero hne hn
    rw [hroot]
    rfl
  · refine ⟨_, computeMerkleBranch_eq hn hi, ?_⟩
    have hup := computeMerkleRootFromBranch_siblings hash (fun j => leaves.getD j zero) hi (Nat.clog 2 leaves.length)
    have hfit := Nat.le_pow_clog Nat.one_lt_two leaves.length
    rw [Nat.div_eq_of_lt (hi.trans_le hfit), ← Merkle.root_eq_node zero hne] at hup
    simpa [hi] using hup
  · intro hinj others hothers hlen hdepth root hroot hroot'
    exact eq_of_computeMerkleRoot hinj hne hothers hn hlen hdepth hroot hroot'

theorem merkle_roots_and_branches_three :
    computeMerkleBranch Nat.pair 0 [1, 2, 3] 2 = some [3, Nat.pair 1 2] ∧
      (computeMerkleRoot Nat.pair 0 [1, 2, 3]).map Prod.fst = some (Merkle.root Nat.pair 0 [1, 2, 3]) :=
  ⟨by decide, (merkle_roots_and_branches Nat.pair 0 [1, 2, 3] (by decide) (by decide)).1⟩

end RavenCash.MerkleTree
