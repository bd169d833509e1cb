import RavenCash.Basic.Primitives
import RavenCash.Lib.Merkle

/-!
# `CPartialMerkleTree`

The part of a merkle tree that shows chosen transactions, of `merkleblock.cpp`. The builder goes down the tree and
writes a bit for every node, whether a chosen transaction is below it, and a hash where it goes no further. The reader
goes down the same way and takes the bits and hashes as they come.

The reader refuses more transactions than a block can have, so that `unsigned int` is enough for its positions. It also
refuses two children with one hash, since a list that repeats its end has the root of the shorter list. Where it refuses
it returns the hash zero.
-/

set_option autoImplicit false

namespace RavenCash.PartialMerkle

variable {H : Type} (hash : H → H → H) (zero : H)

/-! ## The tree -/

structure CPartialMerkleTree (H : Type) where
  nTransactions : Nat := 0
  vBits : List Bool := []
  vHash : List H := []
  fBad : Bool := true

def minTransactionWeight : Nat := 4 * 60

def calcTreeWidth (nTransactions height : Nat) : Nat := (nTransactions + (1 <<< height) - 1) >>> height

/-- `while (CalcTreeWidth(nHeight) > 1) nHeight++`, at most 32 times. -/
def treeHeight (nTransactions : Nat) : Nat → Nat → Nat
  | 0, nHeight => nHeight
  | fuel + 1, nHeight =>
      if 1 < calcTreeWidth nTransactions nHeight then treeHeight nTransactions fuel (nHeight + 1) else nHeight

def calcHash (nTransactions : Nat) (vTxid : List H) : Nat → Nat → H
  | 0, pos => vTxid.getD pos zero
  | height + 1, pos =>
      let left := calcHash nTransactions vTxid height (pos * 2)
      let right :=
        if pos * 2 + 1 < calcTreeWidth nTransactions height then calcHash nTransactions vTxid height (pos * 2 + 1)
        else left
      hash left right

/-- The positions of the leaves below a node: `p = pos << height; p < (pos+1) << height && p < nTransactions`. -/
def leavesBelow (nTransactions height pos : Nat) : List Nat :=
  List.range' (pos <<< height) (min ((pos + 1) <<< height) nTransactions - pos <<< height)

/-- `TraverseAndBuild`, with the two members it writes. -/
def traverseAndBuild (nTransactions : Nat) (vTxid : List H) (vMatch : List Bool) :
    Nat → Nat → List Bool × List H → List Bool × List H
  | 0, pos, (vBits, vHash) =>
      let fParentOfMatch := (leavesBelow nTransactions 0 pos).any fun p => vMatch.getD p false
      (vBits ++ [fParentOfMatch], vHash ++ [calcHash hash zero nTransactions vTxid 0 pos])
  | height + 1, pos, (vBits, vHash) =>
      let fParentOfMatch := (leavesBelow nTransactions (height + 1) pos).any fun p => vMatch.getD p false
      let vBits := vBits ++ [fParentOfMatch]
      if !fParentOfMatch then (vBits, vHash ++ [calcHash hash zero nTransactions vTxid (height + 1) pos])
      else
        let out := traverseAndBuild nTransactions vTxid vMatch height (pos * 2) (vBits, vHash)
        if pos * 2 + 1 < calcTreeWidth nTransactions height then
          traverseAndBuild nTransactions vTxid vMatch height (pos * 2 + 1) out
        else out

/-- The constructor. -/
def build (vTxid : List H) (vMatch : List Bool) : CPartialMerkleTree H :=
  let nHeight := treeHeight vTxid.length 32 0
  let (vBits, vHash) := traverseAndBuild hash zero vTxid.length vTxid vMatch nHeight 0 ([], [])
  { nTransactions := vTxid.length, vBits := vBits, vHash := vHash, fBad := false }

@[simp] theorem nTransactions_build (vTxid : List H) (vMatch : List Bool) :
    (build hash zero vTxid vMatch).nTransactions = vTxid.length := rfl

/-- What `TraverseAndExtract` changes. -/
structure Reading (H : Type) where
  nBitsUsed : Nat := 0
  nHashUsed : Nat := 0
  vMatch : List H := []
  vnIndex : List Nat
  fBad : Bool

/-- A hash is taken from the tree; at height 0 with its bit set it is a match. -/
def takeHash (tree : CPartialMerkleTree H) (isMatch : Bool) (pos : Nat) (s : Reading H) : H × Reading H :=
  match tree.vHash[s.nHashUsed]? with
  -- overflowed the hash array
  | none => (zero, { s with fBad := true })
  | some h =>
      let s := { s with nHashUsed := s.nHashUsed + 1 }
      (h, if isMatch then { s with vMatch := s.vMatch ++ [h], vnIndex := s.vnIndex ++ [pos] } else s)

/-- The right child, read where there is one; it must differ from the left one. -/
def joinRight [DecidableEq H] (left : H) (right : H × Reading H) : H × Reading H :=
  (hash left right.1, if right.1 = left then { right.2 with fBad := true } else right.2)

def traverseAndExtract [DecidableEq H] (tree : CPartialMerkleTree H) : Nat → Nat → Reading H → H × Reading H
  | 0, pos, s =>
      match tree.vBits[s.nBitsUsed]? with
      -- overflowed the bits array
      | none => (zero, { s with fBad := true })
      | some fParentOfMatch => takeHash zero tree fParentOfMatch pos { s with nBitsUsed := s.nBitsUsed + 1 }
  | height + 1, pos, s =>
      match tree.vBits[s.nBitsUsed]? with
      | none => (zero, { s with fBad := true })
      | some false => takeHash zero tree false pos { s with nBitsUsed := s.nBitsUsed + 1 }
      | some true =>
          let (left, s) := traverseAndExtract tree height (pos * 2) { s with nBitsUsed := s.nBitsUsed + 1 }
          if pos * 2 + 1 < calcTreeWidth tree.nTransactions height then
            joinRight hash left (traverseAndExtract tree height (pos * 2 + 1) s)
          else (hash left left, s)

/-- `ExtractMatches(vMatch, vnIndex)`: the root or zero, and the two vectors, of which only the first is cleared. -/
def extractMatches [DecidableEq H] (tree : CPartialMerkleTree H) (vnIndex : List Nat) : H × List H × List Nat :=
  if tree.nTransactions = 0 then (zero, [], vnIndex)
  else if getMaxBlockWeight / minTransactionWeight < tree.nTransactions then (zero, [], vnIndex)
  else if tree.nTransactions < tree.vHash.length then (zero, [], vnIndex)
  else if tree.vBits.length < tree.vHash.length then (zero, [], vnIndex)
  else
    let nHeight := treeHeight tree.nTransactions 32 0
    let (hashMerkleRoot, s) := traverseAndExtract hash zero tree nHeight 0 { vnIndex := vnIndex, fBad := tree.fBad }
    let refused := s.fBad ∨ (s.nBitsUsed + 7) / 8 ≠ (tree.vBits.length + 7) / 8 ∨ s.nHashUsed ≠ tree.vHash.length
    (if refused then zero else hashMerkleRoot, s.vMatch, s.vnIndex)

/-! ## The shape of the tree -/

section Shape

variable {n height pos : Nat}

theorem calcTreeWidth_eq (n height : Nat) : calcTreeWidth n height = Merkle.width n height := by
  rw [calcTreeWidth, Nat.shiftRight_eq_div_pow, Nat.shiftLeft_eq, Nat.one_mul, Merkle.width]

/-- The height of the tree, where 32 levels are enough. -/
theorem treeHeight_eq {fuel nHeight : Nat} (hlow : nHeight ≤ Nat.clog 2 n) (hhigh : Nat.clog 2 n ≤ nHeight + fuel) :
    treeHeight n fuel nHeight = Nat.clog 2 n := by
  induction fuel generalizing nHeight with
  | zero => exact le_antisymm hlow hhigh
  | succ fuel ih =>
      have hone : 1 < calcTreeWidth n nHeight ↔ nHeight < Nat.clog 2 n := by
        rw [calcTreeWidth_eq, ← not_le, Merkle.width_le_one, not_le, Nat.lt_clog_iff_pow_lt Nat.one_lt_two]
      rw [treeHeight]
      split_ifs with h
      · exact ih (hone.mp h) (by omega)
      · exact le_antisymm hlow (not_lt.mp (hone.not.mp h))

theorem calcHash_eq (n : Nat) (vTxid : List H) (height pos : Nat) :
    calcHash hash zero n vTxid height pos = Merkle.node hash (fun i => vTxid.getD i zero) n height pos := by
  induction height generalizing pos with
  | zero => rfl
  | succ height ih =>
      rw [calcHash, Merkle.node, Nat.mul_comm pos 2, calcTreeWidth_eq]
      simp only [ih]

theorem leavesBelow_eq (n height pos : Nat) :
    leavesBelow n height pos = List.range' (pos * 2 ^ height) (min ((pos + 1) * 2 ^ height) n - pos * 2 ^ height) := by
  rw [leavesBelow, Nat.shiftLeft_eq, Nat.shiftLeft_eq]

theorem leavesBelow_zero (h : pos < n) : leavesBelow n 0 pos = [pos] := by
  rw [leavesBelow_eq, pow_zero, Nat.mul_one, Nat.mul_one, show min (pos + 1) n - pos = 1 by omega]
  rfl

/-- The leaves below a node are those below its children. -/
theorem leavesBelow_succ (h : pos * 2 < Merkle.width n height) :
    leavesBelow n (height + 1) pos = leavesBelow n height (pos * 2) ++
      if pos * 2 + 1 < Merkle.width n height then leavesBelow n height (pos * 2 + 1) else [] := by
  have hpow := Nat.two_pow_pos height
  have hlow : pos * (2 * 2 ^ height) = pos * 2 * 2 ^ height := (Nat.mul_assoc ..).symm
  have hmid : (pos * 2 + 1) * 2 ^ height = pos * 2 * 2 ^ height + 2 ^ height := Nat.succ_mul ..
  have hhigh : (pos * 2 + 1 + 1) * 2 ^ height = pos * 2 * 2 ^ height + 2 ^ height + 2 ^ height := by ring
  have hend : (pos + 1) * (2 * 2 ^ height) = pos * 2 * 2 ^ height + 2 ^ height + 2 ^ height := by ring
  rw [Merkle.lt_width] at h
  simp only [leavesBelow_eq, pow_succ', Merkle.lt_width, hlow, hmid, hhigh, hend]
  split_ifs with hright
  · rw [Nat.min_eq_left hright.le, Nat.add_sub_cancel_left, List.range'_append_1]
    congr 1
    omega
  · rw [List.append_nil]
    congr 1
    omega

theorem length_leavesBelow (n height pos : Nat) :
    (leavesBelow n height pos).length = min ((pos + 1) * 2 ^ height) n - pos * 2 ^ height := by
  rw [leavesBelow_eq, List.length_range']

end Shape

/-! ## What the builder writes -/

section Build

variable (vTxid : List H) (vMatch : List Bool)

/-- The bits and hashes of one node. -/
def written (height pos : Nat) : List Bool × List H :=
  traverseAndBuild hash zero vTxid.length vTxid vMatch height pos ([], [])

/-- The chosen positions below a node. -/
def chosen (n height pos : Nat) : List Nat := (leavesBelow n height pos).filter fun p => vMatch.getD p false

/-- The builder only appends. -/
theorem traverseAndBuild_append (height pos : Nat) (out : List Bool × List H) :
    traverseAndBuild hash zero vTxid.length vTxid vMatch height pos out =
      (out.1 ++ (written hash zero vTxid vMatch height pos).1,
          out.2 ++ (written hash zero vTxid vMatch height pos).2) := by
  induction height generalizing pos out with
  | zero => rfl
  | succ height ih =>
      rw [written, traverseAndBuild, traverseAndBuild]
      split_ifs
      · rfl
      · simp [ih]
      · simp [ih]

theorem written_zero (pos : Nat) (hpos : pos < vTxid.length) :
    written hash zero vTxid vMatch 0 pos = ([vMatch.getD pos false], [vTxid.getD pos zero]) := by
  rw [written, traverseAndBuild, leavesBelow_zero hpos]
  simp [calcHash]

/-- What a right child adds, where there is one. -/
def writtenRight (height pos : Nat) : List Bool × List H :=
  if pos * 2 + 1 < Merkle.width vTxid.length height then written hash zero vTxid vMatch height
    (pos * 2 + 1) else ([], [])

theorem any_leavesBelow (n height pos : Nat) : ((leavesBelow n height pos).any fun p => vMatch.getD p false) =
    !decide (chosen vMatch n height pos = []) := by
  rw [Bool.eq_iff_iff]
  simp [chosen]

/-- A node with nothing chosen below it is a hash. -/
theorem written_of_chosen_nil {height pos : Nat} (h : chosen vMatch vTxid.length (height + 1) pos = []) :
    written hash zero vTxid vMatch (height + 1) pos =
      ([false], [Merkle.node hash (fun i => vTxid.getD i zero) vTxid.length (height + 1) pos]) := by
  rw [written, traverseAndBuild, any_leavesBelow, calcHash_eq]
  simp [h]

/-- Any other node is its children. -/
theorem written_of_chosen_ne_nil {height pos : Nat} (h : chosen vMatch vTxid.length (height + 1) pos ≠ []) :
    written hash zero vTxid vMatch (height + 1) pos =
      (true :: ((written hash zero vTxid vMatch height (pos * 2)).1 ++
          (writtenRight hash zero vTxid vMatch height pos).1),
        (written hash zero vTxid vMatch height (pos * 2)).2 ++ (writtenRight hash zero vTxid vMatch height pos).2) := by
  rw [written, traverseAndBuild, any_leavesBelow, calcTreeWidth_eq, writtenRight]
  by_cases hright : pos * 2 + 1 < Merkle.width vTxid.length height
  · simp [traverseAndBuild_append, h, hright]
  · simp [traverseAndBuild_append, h, hright]

theorem chosen_succ {n height pos : Nat} (h : pos * 2 < Merkle.width n height) :
    chosen vMatch n (height + 1) pos = chosen vMatch n height (pos * 2) ++
      if pos * 2 + 1 < Merkle.width n height then chosen vMatch n height (pos * 2 + 1) else [] := by
  rw [chosen, leavesBelow_succ h, List.filter_append]
  split_ifs <;> rfl

/-- There are at least as many bits as hashes. -/
theorem length_written_le (height pos : Nat) :
    (written hash zero vTxid vMatch height pos).2.length ≤ (written hash zero vTxid vMatch height pos).1.length := by
  induction height generalizing pos with
  | zero => exact le_rfl
  | succ height ih =>
      by_cases hnone : chosen vMatch vTxid.length (height + 1) pos = []
      · rw [written_of_chosen_nil hash zero vTxid vMatch hnone]
        exact le_rfl
      · have hright : (writtenRight hash zero vTxid vMatch height pos).2.length ≤
            (writtenRight hash zero vTxid vMatch height pos).1.length := by
          rw [writtenRight]
          split_ifs
          · exact ih _
          · exact le_rfl
        rw [written_of_chosen_ne_nil hash zero vTxid vMatch hnone, List.length_append, List.length_cons,
          List.length_append]
        have hleft := ih (pos * 2)
        omega

/-- There are at most as many hashes as leaves. -/
theorem length_hashes_le {height pos : Nat} (hpos : pos < Merkle.width vTxid.length height) :
    (written hash zero vTxid vMatch height pos).2.length ≤ (leavesBelow vTxid.length height pos).length := by
  induction height generalizing pos with
  | zero =>
      rw [Merkle.width_zero] at hpos
      rw [written_zero hash zero vTxid vMatch pos hpos, leavesBelow_zero hpos]
      exact le_rfl
  | succ height ih =>
      have hchild : pos * 2 < Merkle.width vTxid.length height := by
        rw [Merkle.width_succ] at hpos
        omega
      by_cases hnone : chosen vMatch vTxid.length (height + 1) pos = []
      · have hlow := Merkle.lt_width.mp hpos
        have hpow := Nat.two_pow_pos (height + 1)
        rw [written_of_chosen_nil hash zero vTxid vMatch hnone, List.length_singleton, length_leavesBelow, Nat.succ_mul]
        omega
      · rw [written_of_chosen_ne_nil hash zero vTxid vMatch hnone, leavesBelow_succ hchild, writtenRight,
          List.length_append, List.length_append]
        split_ifs with hright
        · exact Nat.add_le_add (ih hchild) (ih hright)
        · exact ih hchild

end Build

/-! ## What the reader finds -/

section Extract

variable {hash zero} {vTxid : List H} {vMatch : List Bool}

/-- The state after the bits and hashes of a node and the chosen positions below it. -/
def Reading.after (zero : H) (vTxid : List H) (s : Reading H) (out : List Bool × List H) (positions : List Nat) :
    Reading H :=
  { s with
    nBitsUsed := s.nBitsUsed + out.1.length
    nHashUsed := s.nHashUsed + out.2.length
    vMatch := s.vMatch ++ positions.map fun p => vTxid.getD p zero
    vnIndex := s.vnIndex ++ positions }

/-- The tree has the bits and hashes of a node where the reader is. -/
structure Reading.Faces (s : Reading H) (tree : CPartialMerkleTree H) (out : List Bool × List H) : Prop where
  bits : out.1 <+: tree.vBits.drop s.nBitsUsed
  hashes : out.2 <+: tree.vHash.drop s.nHashUsed

/-- No two children have one hash. -/
def SiblingsDiffer (hash : H → H → H) (zero : H) (vTxid : List H) : Prop :=
  ∀ level pos, pos * 2 + 1 < Merkle.width vTxid.length level →
    Merkle.node hash (fun i => vTxid.getD i zero) vTxid.length level (pos * 2 + 1) ≠
      Merkle.node hash (fun i => vTxid.getD i zero) vTxid.length level (pos * 2)

theorem getElem?_of_isPrefix_drop {α : Type} {l : List α} {k : Nat} {x : α} {rest : List α}
    (h : x :: rest <+: l.drop k) :
    l[k]? = some x := by
  obtain ⟨tail, htail⟩ := h
  have h0 := congrArg (fun l => l[0]?) htail
  simpa using h0.symm

theorem isPrefix_drop_of_append {α : Type} {l a b : List α} {k : Nat} (h : a ++ b <+: l.drop k) :
    a <+: l.drop k ∧ b <+: l.drop (k + a.length) := by
  obtain ⟨tail, htail⟩ := h
  refine ⟨⟨b ++ tail, by rw [← List.append_assoc, htail]⟩, tail, ?_⟩
  rw [← List.drop_drop, ← htail, List.append_assoc, List.drop_left]

variable [DecidableEq H]

/-- **The reader finds what the builder wrote**, if no two children have one hash. -/
theorem traverseAndExtract_written (hdiffer : SiblingsDiffer hash zero vTxid) {tree : CPartialMerkleTree H}
    (hn : tree.nTransactions = vTxid.length) {height pos : Nat} (hpos : pos < Merkle.width vTxid.length height)
    {s : Reading H} (hs : s.Faces tree (written hash zero vTxid vMatch height pos)) :
    traverseAndExtract hash zero tree height pos s =
      (Merkle.node hash (fun i => vTxid.getD i zero) vTxid.length height pos,
        s.after zero vTxid (written hash zero vTxid vMatch height pos) (chosen vMatch vTxid.length height pos)) := by
  induction height generalizing pos s with
  | zero =>
      rw [Merkle.width_zero] at hpos
      obtain ⟨hbits, hhashes⟩ := hs
      rw [written_zero hash zero vTxid vMatch pos hpos] at hbits hhashes ⊢
      rw [traverseAndExtract, getElem?_of_isPrefix_drop hbits]
      simp only [takeHash, getElem?_of_isPrefix_drop hhashes, chosen, leavesBelow_zero hpos, Merkle.node]
      cases hchosen : vMatch.getD pos false with
      | false => simp [Reading.after, hchosen, -List.getD_eq_getElem?_getD]
      | true => simp [Reading.after, hchosen, -List.getD_eq_getElem?_getD]
  | succ height ih =>
      have hchild : pos * 2 < Merkle.width vTxid.length height := by
        rw [Merkle.width_succ] at hpos
        omega
      obtain ⟨hbits, hhashes⟩ := hs
      by_cases hnone : chosen vMatch vTxid.length (height + 1) pos = []
      · rw [written_of_chosen_nil hash zero vTxid vMatch hnone] at hbits hhashes ⊢
        rw [traverseAndExtract, getElem?_of_isPrefix_drop hbits]
        simp only [takeHash, getElem?_of_isPrefix_drop hhashes, hnone]
        simp [Reading.after]
      · rw [written_of_chosen_ne_nil hash zero vTxid vMatch hnone] at hbits hhashes ⊢
        rw [traverseAndExtract, getElem?_of_isPrefix_drop hbits, chosen_succ vMatch hchild]
        -- the bit of the node, its left child, its right child
        obtain ⟨-, hbits⟩ := isPrefix_drop_of_append (a := [true]) hbits
        obtain ⟨hbitsL, hbitsR⟩ := isPrefix_drop_of_append hbits
        obtain ⟨hhashesL, hhashesR⟩ := isPrefix_drop_of_append hhashes
        have hleft := ih hchild (s := { s with nBitsUsed := s.nBitsUsed + 1 }) ⟨hbitsL, hhashesL⟩
        simp only [hleft, hn, calcTreeWidth_eq, Merkle.node, Nat.mul_comm 2 pos]
        split_ifs with hexists
        · rw [writtenRight, if_pos hexists] at hbitsR hhashesR ⊢
          rw [ih hexists ⟨hbitsR, hhashesR⟩, joinRight, if_neg (hdiffer height pos hexists)]
          simp [Reading.after, Nat.add_assoc, Nat.add_comm 1]
        · rw [writtenRight, if_neg hexists]
          simp [Reading.after, Nat.add_assoc, Nat.add_comm 1]

/-- The positions that the match vector chooses, in order. -/
def matched (vMatch : List Bool) (n : Nat) : List Nat := (List.range n).filter fun p => vMatch.getD p false

/-- What the constructor makes, read whole. -/
theorem extractMatches_build (hne : vTxid ≠ []) (hlen : vTxid.length ≤ getMaxBlockWeight / minTransactionWeight)
    (hdiffer : SiblingsDiffer hash zero vTxid) (vnIndex : List Nat) :
    extractMatches hash zero (build hash zero vTxid vMatch) vnIndex =
      (Merkle.root hash zero vTxid, (matched vMatch vTxid.length).map fun p => vTxid.getD p zero,
        vnIndex ++ matched vMatch vTxid.length) := by
  have hpos : 0 < vTxid.length := List.length_pos_iff.mpr hne
  have hclog : Nat.clog 2 vTxid.length ≤ 32 := Nat.clog_le_of_le_pow (hlen.trans (by decide))
  have hheight : treeHeight vTxid.length 32 0 = Nat.clog 2 vTxid.length :=
    treeHeight_eq (Nat.zero_le _) (by omega)
  have hfit := Nat.le_pow_clog Nat.one_lt_two vTxid.length
  have hwidth : 0 < Merkle.width vTxid.length (Nat.clog 2 vTxid.length) := Merkle.lt_width.mpr (by omega)
  have hall : leavesBelow vTxid.length (Nat.clog 2 vTxid.length) 0 = List.range vTxid.length := by
    rw [leavesBelow_eq, Nat.zero_add, Nat.one_mul, Nat.zero_mul, Nat.min_eq_right hfit, Nat.sub_zero,
      List.range_eq_range']
  have hhashes := length_hashes_le hash zero vTxid vMatch hwidth
  have hbits := length_written_le hash zero vTxid vMatch (Nat.clog 2 vTxid.length) 0
  rw [hall, List.length_range] at hhashes
  set out := written hash zero vTxid vMatch (Nat.clog 2 vTxid.length) 0
  have hbuild : build hash zero vTxid vMatch = ⟨vTxid.length, out.1, out.2, false⟩ := by
    rw [build, hheight]
    rfl
  have hfaces : Reading.Faces { vnIndex := vnIndex, fBad := false } ⟨vTxid.length, out.1, out.2, false⟩ out :=
    ⟨by simp, by simp⟩
  have hread := traverseAndExtract_written hdiffer rfl hwidth hfaces
  rw [hbuild, extractMatches, if_neg hpos.ne', if_neg (not_lt.mpr hlen), if_neg (not_lt.mpr hhashes),
    if_neg (not_lt.mpr hbits)]
  simp only [hheight, hread, ← Merkle.root_eq_node zero hne, matched, Reading.after, chosen, hall]
  simp [out]

/-! ## Trees from anywhere -/

omit [DecidableEq H] in
theorem takeHash_fBad (tree : CPartialMerkleTree H) (isMatch : Bool) (pos : Nat) {s : Reading H} (hs : s.fBad = true) :
    (takeHash zero tree isMatch pos s).2.fBad = true := by
  rw [takeHash]
  split
  · rfl
  · cases isMatch <;> exact hs

variable (hash zero) in
/-- What has gone wrong stays so. -/
theorem traverseAndExtract_fBad (tree : CPartialMerkleTree H) (height pos : Nat) {s : Reading H} (hs : s.fBad = true) :
    (traverseAndExtract hash zero tree height pos s).2.fBad = true := by
  induction height generalizing pos s with
  | zero =>
      rw [traverseAndExtract]
      split
      · rfl
      · exact takeHash_fBad tree _ pos hs
  | succ height ih =>
      rw [traverseAndExtract]
      split
      · rfl
      · exact takeHash_fBad tree _ pos hs
      · have hleft := ih (pos * 2) (s := { s with nBitsUsed := s.nBitsUsed + 1 }) hs
        dsimp only
        split_ifs
        · have hright := ih (pos * 2 + 1) hleft
          rw [joinRight]
          split_ifs
          · rfl
          · exact hright
        · exact hleft

/-- The reader has added these positions, all of them of the list. -/
def Reading.Adds (zero : H) (vTxid : List H) (s s' : Reading H) : Prop :=
  ∃ positions : List Nat, (∀ p ∈ positions, p < vTxid.length) ∧
    s'.vMatch = s.vMatch ++ positions.map (fun p => vTxid.getD p zero) ∧ s'.vnIndex = s.vnIndex ++ positions

omit [DecidableEq H] in
theorem Reading.Adds.trans {s₁ s₂ s₃ : Reading H} (h : s₁.Adds zero vTxid s₂) (h' : s₂.Adds zero vTxid s₃) :
    s₁.Adds zero vTxid s₃ := by
  obtain ⟨l, hl, hmatch, hindex⟩ := h
  obtain ⟨l', hl', hmatch', hindex'⟩ := h'
  refine ⟨l ++ l', fun p hp => (List.mem_append.mp hp).elim (hl p) (hl' p), ?_, ?_⟩
  · rw [hmatch', hmatch, List.map_append, List.append_assoc]
  · rw [hindex', hindex, List.append_assoc]

/-- If all went well and the hash of the node was found, no other transactions than those of the list were added. -/
def Reading.Finds (hash : H → H → H) (zero : H) (vTxid : List H) (height pos : Nat) (s : Reading H)
    (found : H × Reading H) : Prop :=
  found.2.fBad = false → found.1 = Merkle.node hash (fun i => vTxid.getD i zero) vTxid.length height pos →
    s.Adds zero vTxid found.2

omit [DecidableEq H] in
/-- A hash is a transaction only at height zero, where the node is the transaction itself. -/
theorem takeHash_finds (tree : CPartialMerkleTree H) {isMatch : Bool} {height pos : Nat} {s s' : Reading H}
    (hs : s.vMatch = s'.vMatch ∧ s.vnIndex = s'.vnIndex) (hmatch : isMatch = true → height = 0 ∧ pos < vTxid.length) :
    s.Finds hash zero vTxid height pos (takeHash zero tree isMatch pos s') := by
  rw [takeHash]
  cases tree.vHash[s'.nHashUsed]? with
  | none => exact fun hbad => nomatch hbad
  | some h =>
      intro hbad hnode
      cases isMatch with
      | false => exact ⟨[], by simp, by simp [hs.1], by simp [hs.2]⟩
      | true =>
          obtain ⟨rfl, hpos⟩ := hmatch rfl
          obtain rfl : h = vTxid.getD pos zero := hnode
          exact ⟨[pos], by simpa using hpos, by simp [hs.1], by simp [hs.2]⟩

variable (zero) in
/-- **A reader that finds the hash of a node** has added no other transactions than those of the list. -/
theorem traverseAndExtract_finds (hinj : Merkle.Injective hash) {tree : CPartialMerkleTree H}
    (hn : tree.nTransactions = vTxid.length) {height pos : Nat} (hpos : pos < Merkle.width vTxid.length height)
    (s : Reading H) : s.Finds hash zero vTxid height pos (traverseAndExtract hash zero tree height pos s) := by
  induction height generalizing pos s with
  | zero =>
      rw [traverseAndExtract]
      cases tree.vBits[s.nBitsUsed]? with
      | none => exact fun hbad => nomatch hbad
      | some isMatch => exact takeHash_finds tree ⟨rfl, rfl⟩ fun _ => ⟨rfl, by rwa [Merkle.width_zero] at hpos⟩
  | succ height ih =>
      have hchild : pos * 2 < Merkle.width vTxid.length height := by
        rw [Merkle.width_succ] at hpos
        omega
      rw [traverseAndExtract]
      match tree.vBits[s.nBitsUsed]? with
      | none => exact fun hbad => nomatch hbad
      | some false => exact takeHash_finds tree ⟨rfl, rfl⟩ fun h => absurd h Bool.false_ne_true
      | some true =>
          set left := traverseAndExtract hash zero tree height (pos * 2) { s with nBitsUsed := s.nBitsUsed + 1 }
          have hadds : left.2.fBad = false → left.1 = _ → s.Adds zero vTxid left.2 := ih hchild _
          show s.Finds hash zero vTxid (height + 1) pos
            (if pos * 2 + 1 < calcTreeWidth tree.nTransactions height then
              joinRight hash left.1 (traverseAndExtract hash zero tree height (pos * 2 + 1) left.2)
            else (hash left.1 left.1, left.2))
          rw [hn, calcTreeWidth_eq]
          intro hbad hnode
          split_ifs at hbad hnode ⊢ with hexists
          · set right := traverseAndExtract hash zero tree height (pos * 2 + 1) left.2
            rw [Merkle.node_succ_of_lt (by omega), joinRight] at hnode
            obtain ⟨hl, hr⟩ := hinj _ _ _ _ hnode
            rw [joinRight] at hbad ⊢
            have hne : right.1 ≠ left.1 := by
              intro h
              rw [if_pos h] at hbad
              exact Bool.false_ne_true hbad.symm
            rw [if_neg hne] at hbad ⊢
            -- nothing had gone wrong before
            have hbadL : left.2.fBad = false := by
              by_contra h
              have hstays := traverseAndExtract_fBad hash zero tree height (pos * 2 + 1)
                  (Bool.eq_true_of_not_eq_false h)
              exact Bool.false_ne_true (hbad.symm.trans hstays)
            rw [Nat.mul_comm 2] at hl hr
            exact (hadds hbadL hl).trans (ih hexists _ hbad hr)
          · rw [Merkle.node_succ_of_not_lt (by omega)] at hnode
            obtain ⟨hl, -⟩ := hinj _ _ _ _ hnode
            rw [Nat.mul_comm 2] at hl
            exact hadds hbad hl

/-- What was read from any tree under the root of the list is of the list. -/
theorem extractMatches_adds (hinj : Merkle.Injective hash) (hroot : Merkle.root hash zero vTxid ≠ zero)
    {tree : CPartialMerkleTree H} (hn : tree.nTransactions = vTxid.length) {vnIndex : List Nat}
    (h : (extractMatches hash zero tree vnIndex).1 = Merkle.root hash zero vTxid) :
    ∃ positions : List Nat, (∀ p ∈ positions, p < vTxid.length) ∧ (extractMatches hash zero tree vnIndex).2 =
      (positions.map fun p => vTxid.getD p zero, vnIndex ++ positions) := by
  have hne : vTxid ≠ [] := by
    rintro rfl
    exact hroot (by rw [Merkle.root])
  have hpos : 0 < vTxid.length := List.length_pos_iff.mpr hne
  rw [extractMatches] at h ⊢
  split_ifs at h ⊢ with h0 hmany hhashes hbits
  all_goals try exact absurd h.symm hroot
  rw [hn, not_lt] at hmany
  have hclog : Nat.clog 2 vTxid.length ≤ 32 := Nat.clog_le_of_le_pow (hmany.trans (by decide))
  have hheight : treeHeight vTxid.length 32 0 = Nat.clog 2 vTxid.length := treeHeight_eq (Nat.zero_le _) (by omega)
  have hwidth : 0 < Merkle.width vTxid.length (Nat.clog 2 vTxid.length) := Merkle.lt_width.mpr (by omega)
  have hfinds := traverseAndExtract_finds zero hinj hn hwidth { vnIndex := vnIndex, fBad := tree.fBad }
  simp only [hn, hheight] at h ⊢
  split_ifs at h with hrefused
  · exact absurd h.symm hroot
  · rw [not_or] at hrefused
    rw [Merkle.root_eq_node zero hne] at h
    obtain ⟨positions, hlt, hmatch, hindex⟩ := hfinds (Bool.eq_false_of_not_eq_true hrefused.1) h
    exact ⟨positions, hlt, by rw [hmatch, hindex]; rfl⟩

omit [DecidableEq H] in
/-- Distinct transactions have distinct siblings everywhere, if the pair hash is injective. -/
theorem siblingsDiffer_of_nodup (hinj : Merkle.Injective hash) (hnodup : vTxid.Nodup) :
    SiblingsDiffer hash zero vTxid := by
  intro level pos hpos heq
  have hleaf := Merkle.first_leaf_of_node hinj heq
  have hlt := Merkle.lt_width.mp hpos
  have hlow : pos * 2 * 2 ^ level < (pos * 2 + 1) * 2 ^ level :=
    Nat.mul_lt_mul_of_pos_right (Nat.lt_succ_self _) (Nat.two_pow_pos level)
  have hsame : vTxid[(pos * 2 + 1) * 2 ^ level] = vTxid[pos * 2 * 2 ^ level] := by
    simpa [hlt, hlow.trans hlt] using hleaf
  exact hlow.ne' ((hnodup.getElem_inj_iff).mp hsame)

end Extract

/-- **Partial merkle trees.** For a list that a block can have, in whose tree no two siblings have one hash, the tree
that was built gives back the root and the chosen transactions with their positions. Distinct transactions under an
injective pair hash are such a list. And under an injective pair hash any tree that gives the root of a list, if that
is not the zero that stands for a failure, gives only transactions of the list at their positions. -/
theorem partialMerkleTree_sound_complete {H : Type} [DecidableEq H] (hash : H → H → H) (zero : H) (vTxid : List H) :
    (vTxid ≠ [] → vTxid.length ≤ getMaxBlockWeight / minTransactionWeight → SiblingsDiffer hash zero vTxid →
      ∀ vMatch : List Bool, vMatch.length = vTxid.length → ∀ vnIndex,
        extractMatches hash zero (build hash zero vTxid vMatch) vnIndex =
          (Merkle.root hash zero vTxid, (matched vMatch vTxid.length).map fun p => vTxid.getD p zero,
            vnIndex ++ matched vMatch vTxid.length)) ∧
    (Merkle.Injective hash → vTxid.Nodup → SiblingsDiffer hash zero vTxid) ∧
    (Merkle.Injective hash → Merkle.root hash zero vTxid ≠ zero → ∀ tree : CPartialMerkleTree H,
      tree.nTransactions = vTxid.length → ∀ vnIndex,
        (extractMatches hash zero tree vnIndex).1 = Merkle.root hash zero vTxid →
        ∃ positions : List Nat, (∀ p ∈ positions, p < vTxid.length) ∧ (extractMatches hash zero tree vnIndex).2 =
          (positions.map fun p => vTxid.getD p zero, vnIndex ++ positions)) := by
  refine ⟨?_, siblingsDiffer_of_nodup, ?_⟩
  · intro hne hlen hdiffer vMatch _ vnIndex
    exact extractMatches_build hne hlen hdiffer vnIndex
  · intro hinj hroot tree hn vnIndex h
    exact extractMatches_adds hinj hroot hn h

/-- An injective pair hash that is never zero. -/
def pairHash (a b : Nat) : Nat := Nat.pair a b + 1

theorem pairHash_injective : Merkle.Injective pairHash := fun _ _ _ _ h => Nat.pair_eq_pair.mp (Nat.succ_injective h)

theorem partialMerkleTree_sound_complete_three :
    extractMatches pairHash 0 (build pairHash 0 [5, 6, 7] [false, true, true]) [] =
      (Merkle.root pairHash 0 [5, 6, 7], [6, 7], [1, 2]) :=
  have h := partialMerkleTree_sound_complete pairHash 0 [5, 6, 7]
  h.1 (by decide) (by decide) (h.2.1 pairHash_injective (by decide)) [false, true, true] rfl []

/-- A list longer than a block can be: the reader refuses what the builder made of it. -/
theorem not_complete_of_many :
    ∃ (vTxid : List Nat) (vMatch : List Bool), vTxid ≠ [] ∧ vTxid.Nodup ∧ vMatch.length = vTxid.length ∧
      Merkle.Injective pairHash ∧
      (extractMatches pairHash 0 (build pairHash 0 vTxid vMatch) []).1 ≠ Merkle.root pairHash 0 vTxid := by
  have hlen : (List.range 33334).length = 33334 := List.length_range
  have hne : List.range 33334 ≠ [] := List.length_pos_iff.mp (by rw [hlen]; decide)
  refine ⟨List.range 33334, List.replicate 33334 false, hne, List.nodup_range,
    List.length_replicate.trans hlen.symm, pairHash_injective, ?_⟩
  have hrefused : (extractMatches pairHash 0
      (build pairHash 0 (List.range 33334) (List.replicate 33334 false)) []).1 = 0 := by
    rw [extractMatches, nTransactions_build, hlen, if_neg (by decide), if_pos (by decide)]
  obtain ⟨height, hheight⟩ := Nat.exists_eq_succ_of_ne_zero (Nat.clog_pos Nat.one_lt_two (show 2 ≤ 33334 by decide)).ne'
  rw [hrefused, Merkle.root_eq_node 0 hne, hlen, hheight, Merkle.node]
  exact (Nat.succ_ne_zero _).symm

end RavenCash.PartialMerkle
