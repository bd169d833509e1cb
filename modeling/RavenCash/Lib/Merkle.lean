import Mathlib.Tactic

/-!
# Hash trees

A list of hashes is reduced level by level: neighbours are hashed together, and the last one of an odd level with
itself. `node` is the hash at a place of the tree, found by going down from it. The two meet in `root_eq_node`.

With an injective pair hash a node tells the leaves below it (`leaf_of_node`), so that two lists of one length with one
root are equal. Lists of different lengths can have one root if the longer one repeats what the padding of the shorter
one repeats; then two complete subtrees under one node are equal (`repeated_of_node`).
-/

set_option autoImplicit false

namespace Merkle

variable {H : Type} (hash : H → H → H)

/-! ## Level by level -/

def levelUp : List H → List H
  | a :: b :: rest => hash a b :: levelUp rest
  | [a] => [hash a a]
  | [] => []

theorem length_levelUp (l : List H) : (levelUp hash l).length = (l.length + 1) / 2 := by
  induction l using levelUp.induct with
  | case1 a b rest ih =>
      rw [levelUp, List.length_cons, ih, List.length_cons, List.length_cons]
      omega
  | case2 a => simp [levelUp]
  | case3 => simp [levelUp]

/-- The root, level by level until one hash is left; `zero` for no hashes at all. -/
def root (zero : H) : List H → H
  | [] => zero
  | [a] => a
  | a :: b :: rest => root zero (levelUp hash (a :: b :: rest))
termination_by l => l.length
decreasing_by
  rw [length_levelUp, List.length_cons, List.length_cons]
  omega

/-! ## Nodes -/

/-- The number of nodes at a level of a tree with `n` leaves. -/
def width (n level : Nat) : Nat := (n + 2 ^ level - 1) / 2 ^ level

/-- The hash at a place; a right child that does not exist is a copy of the left one. -/
def node (leaf : Nat → H) (n : Nat) : Nat → Nat → H
  | 0, pos => leaf pos
  | level + 1, pos =>
      hash (node leaf n level (2 * pos))
        (if 2 * pos + 1 < width n level then node leaf n level (2 * pos + 1) else node leaf n level (2 * pos))

variable {hash}

theorem width_zero (n : Nat) : width n 0 = n := by
  rw [width, pow_zero, Nat.div_one, Nat.add_sub_cancel]

theorem lt_width {n level pos : Nat} : pos < width n level ↔ pos * 2 ^ level < n := by
  have hpos : 0 < 2 ^ level := Nat.two_pow_pos level
  rw [width, Nat.lt_iff_add_one_le, Nat.le_div_iff_mul_le hpos, Nat.add_mul, Nat.one_mul]
  omega

theorem width_succ (n level : Nat) : width n (level + 1) = (width n level + 1) / 2 := by
  -- the same positions are below both
  refine eq_of_forall_lt_iff fun pos => ?_
  have hhalf : pos < (width n level + 1) / 2 ↔ 2 * pos < width n level := by omega
  rw [hhalf, lt_width, lt_width, pow_succ]
  ring_nf

theorem width_le_one {n level : Nat} : width n level ≤ 1 ↔ n ≤ 2 ^ level := by
  have h : 1 < width n level ↔ 1 * 2 ^ level < n := lt_width
  rw [Nat.one_mul] at h
  omega

/-- The quotient is the width, or one less if there is an incomplete node. -/
theorem div_le_width (n level : Nat) : n / 2 ^ level ≤ width n level ∧ width n level ≤ n / 2 ^ level + 1 := by
  have hpos : 0 < 2 ^ level := Nat.two_pow_pos level
  refine ⟨Nat.div_le_div_right (by omega), ?_⟩
  rw [width, ← Nat.add_div_right n hpos]
  exact Nat.div_le_div_right (by omega)

variable {leaf leaf' : Nat → H} {n : Nat}

theorem node_succ_of_lt {level pos : Nat} (h : 2 * pos + 1 < width n level) :
    node hash leaf n (level + 1) pos = hash (node hash leaf n level (2 * pos))
      (node hash leaf n level (2 * pos + 1)) := by
  rw [node, if_pos h]

theorem node_succ_of_not_lt {level pos : Nat} (h : ¬ 2 * pos + 1 < width n level) :
    node hash leaf n (level + 1) pos = hash (node hash leaf n level (2 * pos)) (node hash leaf n level (2 * pos)) := by
  rw [node, if_neg h]

theorem getD_levelUp (l : List H) (zero : H) {pos : Nat} (hpos : 2 * pos < l.length) :
    (levelUp hash l).getD pos zero =
      hash (l.getD (2 * pos) zero)
        (if 2 * pos + 1 < l.length then l.getD (2 * pos + 1) zero else l.getD (2 * pos) zero) := by
  induction l using levelUp.induct generalizing pos with
  | case1 a b rest ih =>
      cases pos with
      | zero => simp [levelUp]
      | succ pos =>
          rw [List.length_cons, List.length_cons] at hpos ⊢
          rw [levelUp, List.getD_cons_succ, ih (by omega), show 2 * (pos + 1) = 2 * pos + 1 + 1 by ring]
          simp only [List.getD_cons_succ]
          exact congrArg _ (if_congr (by omega) rfl rfl)
  | case2 a =>
      rw [List.length_singleton] at hpos
      obtain rfl : pos = 0 := by omega
      rfl
  | case3 => exact absurd hpos (Nat.not_lt_zero _)

/-- One level up, the nodes move down one level. -/
theorem node_levelUp (l : List H) (zero : H) {level pos : Nat} (hpos : pos < width l.length (level + 1)) :
    node hash (fun i => (levelUp hash l).getD i zero) (levelUp hash l).length level pos =
      node hash (fun i => l.getD i zero) l.length (level + 1) pos := by
  induction level generalizing pos with
  | zero =>
      rw [lt_width, pow_one] at hpos
      rw [node, getD_levelUp l zero (by omega), node, width_zero]
      rfl
  | succ level ih =>
      have hwidth : ∀ j, width (levelUp hash l).length j = width l.length (j + 1) := by
        intro j
        refine eq_of_forall_lt_iff fun k => ?_
        rw [lt_width, lt_width, length_levelUp, pow_succ, ← Nat.mul_assoc]
        omega
      rw [width_succ] at hpos
      rw [node, node, hwidth, ih (by omega)]
      split_ifs with hright
      · rw [ih hright]
      · rfl

/-- **The two definitions of the root.** -/
theorem root_eq_node (zero : H) {l : List H} (hne : l ≠ []) :
    root hash zero l = node hash (fun i => l.getD i zero) l.length (Nat.clog 2 l.length) 0 := by
  induction l using root.induct hash with
  | case1 => exact absurd rfl hne
  | case2 a =>
      rw [root, List.length_singleton, Nat.clog_one_right]
      rfl
  | case3 a b rest ih =>
      have hlen : 2 ≤ (a :: b :: rest).length := by
        rw [List.length_cons, List.length_cons]
        omega
      have hup := length_levelUp hash (a :: b :: rest)
      rw [root, ih (by intro h; rw [h, List.length_nil] at hup; omega), Nat.clog_of_two_le Nat.one_lt_two hlen, hup,
        show ((a :: b :: rest).length + 2 - 1) / 2 = ((a :: b :: rest).length + 1) / 2 from rfl, ← hup]
      exact node_levelUp _ zero (lt_width.mpr (by omega))

/-! ## Injectivity -/

/-- The right child, or the copy of the left one. -/
def rightChild (hash : H → H → H) (leaf : Nat → H) (n level pos : Nat) : H :=
  if 2 * pos + 1 < width n level then node hash leaf n level (2 * pos + 1) else node hash leaf n level (2 * pos)

/-- No two nodes of the trees at one place have one hash and different children. -/
def NoCollision (hash : H → H → H) (leaf leaf' : Nat → H) (n : Nat) : Prop :=
  ∀ level pos, node hash leaf n (level + 1) pos = node hash leaf' n (level + 1) pos →
    node hash leaf n level (2 * pos) = node hash leaf' n level (2 * pos) ∧
      rightChild hash leaf n level pos = rightChild hash leaf' n level pos

/-- Two pairs with one hash are equal. -/
def Injective (hash : H → H → H) : Prop := ∀ a b c d, hash a b = hash c d → a = c ∧ b = d

theorem Injective.noCollision (h : Injective hash) (leaf leaf' : Nat → H) (n : Nat) : NoCollision hash leaf leaf' n :=
  fun _ _ heq => h _ _ _ _ heq

/-- **A node tells its leaves.** -/
theorem leaf_of_node (h : NoCollision hash leaf leaf' n) {level pos : Nat}
    (heq : node hash leaf n level pos = node hash leaf' n level pos) {i : Nat} (hlow : pos * 2 ^ level ≤ i)
    (hhigh : i < (pos + 1) * 2 ^ level) (hi : i < n) : leaf i = leaf' i := by
  induction level generalizing pos with
  | zero =>
      rw [pow_zero, Nat.mul_one] at hlow hhigh
      obtain rfl : i = pos := by omega
      exact heq
  | succ level ih =>
      obtain ⟨hleft, hright⟩ := h level pos heq
      rw [pow_succ'] at hlow hhigh
      rcases Nat.lt_or_ge i ((2 * pos + 1) * 2 ^ level) with hlt | hge
      · exact ih hleft (by nlinarith) hlt
      · have hexists : 2 * pos + 1 < width n level := lt_width.mpr (hge.trans_lt hi)
        rw [rightChild, rightChild, if_pos hexists, if_pos hexists] at hright
        exact ih hright hge (by nlinarith)

/-- A node tells the first of its leaves, wherever it is. -/
theorem first_leaf_of_node (h : Injective hash) {n' level pos pos' : Nat}
    (heq : node hash leaf n level pos = node hash leaf' n' level pos') :
    leaf (pos * 2 ^ level) = leaf' (pos' * 2 ^ level) := by
  induction level generalizing pos pos' with
  | zero => simpa [node] using heq
  | succ level ih =>
      have hdouble : ∀ p, p * 2 ^ (level + 1) = 2 * p * 2 ^ level := fun p => by ring
      rw [hdouble, hdouble]
      exact ih (h _ _ _ _ heq).1

/-- Two complete subtrees under one node are equal. -/
def Repeated (hash : H → H → H) (leaf : Nat → H) (n : Nat) : Prop :=
  ∃ level q, (2 * q + 2) * 2 ^ level ≤ n ∧ node hash leaf n level (2 * q) = node hash leaf n level (2 * q + 1)

/-- A complete node that equals an incomplete one has two equal subtrees. -/
theorem repeated_of_incomplete (h : Injective hash) {level pos pos' : Nat} (hcomplete : (pos + 1) * 2 ^ level ≤ n)
    (hlow : pos' * 2 ^ level < n) (hhigh : n < (pos' + 1) * 2 ^ level)
    (heq : node hash leaf n level pos = node hash leaf n level pos') : Repeated hash leaf n := by
  induction level generalizing pos pos' with
  | zero =>
      rw [pow_zero] at hlow hhigh
      omega
  | succ level ih =>
      obtain ⟨hleft, hright⟩ := h _ _ _ _ heq
      rw [pow_succ'] at hcomplete hlow hhigh
      have hpos : 2 * pos + 1 < width n level := lt_width.mpr (by have := Nat.two_pow_pos level; nlinarith)
      rw [if_pos hpos] at hright
      split_ifs at hright with hpos'
      · exact ih (by nlinarith) (lt_width.mp hpos') (by nlinarith) hright
      · -- the incomplete node has one child, twice
        exact ⟨level, pos, by nlinarith, hleft.trans hright.symm⟩

/-- **Lists of different lengths** under one hash: the longer one repeats itself. -/
theorem repeated_of_node {n' : Nat} (h : Injective hash) (hlt : n < n') {level pos : Nat} (hlow : pos * 2 ^ level < n)
    (hhigh : n < (pos + 1) * 2 ^ level) (heq : node hash leaf n level pos = node hash leaf' n' level pos) :
    Repeated hash leaf' n' := by
  induction level generalizing pos with
  | zero =>
      rw [pow_zero] at hlow hhigh
      omega
  | succ level ih =>
      obtain ⟨hleft, hright⟩ := h _ _ _ _ heq
      rw [pow_succ'] at hlow hhigh
      have hmono : 2 * pos + 1 < width n level → 2 * pos + 1 < width n' level := fun hw =>
        lt_width.mpr ((lt_width.mp hw).trans hlt)
      by_cases hw : 2 * pos + 1 < width n level
      · -- both go on to the right
        rw [if_pos hw, if_pos (hmono hw)] at hright
        exact ih (lt_width.mp hw) (by nlinarith) hright
      · rw [if_neg hw] at hright
        rw [lt_width, not_lt] at hw
        split_ifs at hright with hw'
        · -- the longer list has the copy as leaves, all of it or a part
          have hsame := hleft.symm.trans hright
          rcases Nat.lt_or_ge n' ((2 * pos + 2) * 2 ^ level) with hpart | hall
          · exact repeated_of_incomplete h (lt_width.mp hw').le (lt_width.mp hw') hpart hsame
          · exact ⟨level, pos, hall, hsame⟩
        · rw [lt_width, not_lt] at hw'
          exact ih (by nlinarith) (hlt.trans_le hw') hleft

end Merkle
