import RavenCash.Basic.VarInt
import RavenCash.Lib.Faults

/-!
# Bit sets

The four codecs for a `std::vector<bool>` of `serialize.h`. `CFixedBitSet` packs eight bits in a byte, lowest first, and
`CDynamicBitSet` has the size in front. `CFixedVarIntsBitSet` has the distances between the set bits, with a zero at the
end. `CAutoBitSet` takes the shorter of the first and the third.

The reader of the distances adds an `int32_t` and a `uint32_t` and compares the sum, as an `int32_t`, with a `size_t`.
What it reads is `.ok none` where it throws; an index outside the vector and a loop that does not end are faults.
-/

set_option autoImplicit false

namespace RavenCash

open Faults

/-! ## The codecs -/

/-- `vBytes[p / 8] |= vec[p] << (p % 8)` -/
def packBit (vec : List Bool) (vBytes : List UInt8) (p : Nat) : List UInt8 :=
  vBytes.modify (p / 8) fun byte => byte ||| ((vec.getD p false).toNat <<< (p % 8)).toUInt8

def writeFixedBitSet (vec : List Bool) (size : Nat) : List UInt8 :=
  (List.range (min size vec.length)).foldl (packBit vec) (List.replicate ((size + 7) / 8) 0)

/-- `~(uint8_t)(0xff >> rem)` -/
def outOfRangeMask (rem : Nat) : UInt8 := ~~~ ((0xff : UInt8) >>> rem.toUInt8)

def readFixedBitSet (size : Nat) : Reader (List Bool) := do
  let vBytes ← readBytes ((size + 7) / 8)
  let vec := (List.range size).map fun p => (vBytes.getD (p / 8) 0).toNat.testBit (p % 8)
  if vBytes.length * 8 ≠ size ∧
      vBytes.getD (vBytes.length - 1) 0 &&& outOfRangeMask (vBytes.length * 8 - size) ≠ 0 then
    failure
  else return vec

def writeDynamicBitSet (vec : List Bool) : List UInt8 :=
  writeCompactSize vec.length ++ writeFixedBitSet vec vec.length

def readDynamicBitSet : Reader (List Bool) := do
  readFixedBitSet (← readCompactSize)

/-- The loop of `CFixedVarIntsBitSet::Serialize`, from the bit `i` on. -/
def writeVarIntsFrom : List Bool → Int → Int → List UInt8
  | [], _, _ => writeVarInt 0
  | bit :: vec, i, last =>
      if bit then writeVarInt ((i - last) % 2 ^ 32).toNat ++ writeVarIntsFrom vec (i + 1) i
      else writeVarIntsFrom vec (i + 1) last

def writeVarIntsBitSet (vec : List Bool) : List UInt8 := writeVarIntsFrom vec 0 (-1)

/-- The loop of `CFixedVarIntsBitSet::Unserialize`. -/
def readVarIntsFrom (size : Nat) : Nat → Int → List Bool → List UInt8 → Except Fault (Option (List Bool × List UInt8))
  | 0, _, _, _ => .error .endless
  | fuel + 1, last, vec, s =>
      match readVarInt 0xffffffff s with
      | none => .ok none
      | some (offset, s) =>
          if offset = 0 then .ok (some (vec, s))
          else
            -- the sum has 32 bits without a sign, and is read with one
            let idx := Int.bmod (last + offset) (2 ^ 32)
            -- the comparison has 64 bits without a sign
            if size ≤ (idx % 2 ^ 64).toNat then .ok none
            else if last ≠ -1 ∧ idx ≤ last then .ok none
            else do
              let vec ← store vec idx.toNat true
              readVarIntsFrom size fuel idx vec s

/-- `CFixedVarIntsBitSet::Unserialize`, in so many turns; no vector has `2 ^ 63` elements. -/
def readVarIntsBitSet (turns size : Nat) (s : List UInt8) : Except Fault (Option (List Bool × List UInt8)) :=
  if 2 ^ 63 ≤ size then .ok none else readVarIntsFrom size turns (-1) (List.replicate size false) s

/-- `CAutoBitSet::Serialize` of a vector that has its size. -/
def writeAutoBitSet (vec : List Bool) : List UInt8 :=
  let size1 := (writeFixedBitSet vec vec.length).length
  let size2 := (writeVarIntsBitSet vec).length
  if size1 < size2 then 0 :: writeFixedBitSet vec vec.length else 1 :: writeVarIntsBitSet vec

def readAutoBitSet (turns size : Nat) : List UInt8 → Except Fault (Option (List Bool × List UInt8))
  | [] => .ok none
  | isVarInts :: s =>
      if isVarInts ≠ 0 ∧ isVarInts ≠ 1 then .ok none
      else if isVarInts = 0 then
        if 2 ^ 63 ≤ size then .ok none else .ok (readFixedBitSet size s)
      else readVarIntsBitSet turns size s

/-! ## Packed bits -/

theorem getD_packBit (vec : List Bool) (vBytes : List UInt8) (p k : Nat) (hk : k < vBytes.length) :
    (packBit vec vBytes p).getD k 0 =
      if p / 8 = k then vBytes.getD k 0 ||| ((vec.getD p false).toNat <<< (p % 8)).toUInt8 else vBytes.getD k 0 := by
  have hlen : k < (packBit vec vBytes p).length := by rwa [packBit, List.length_modify]
  simp only [List.getD_eq_getElem?_getD, List.getElem?_eq_getElem hk, List.getElem?_eq_getElem hlen, Option.getD_some]
  simp only [packBit, List.getElem_modify, List.getD_eq_getElem?_getD]

theorem testBit_bit (b : Bool) {r j : Nat} (hr : r < 8) : (b.toNat <<< r).toUInt8.toNat.testBit j =
    (b && decide (r = j)) := by
  have hlt : b.toNat <<< r < 256 := by
    rw [Nat.shiftLeft_eq]
    have hb : b.toNat ≤ 1 := Bool.toNat_le b
    have hpow : 2 ^ r ≤ 2 ^ 7 := Nat.pow_le_pow_right (by decide) (by omega)
    nlinarith
  rw [Nat.toUInt8_eq, UInt8.toNat_ofNat', Nat.mod_eq_of_lt hlt, Nat.shiftLeft_eq]
  cases b with
  | false => simp
  | true => simp [Nat.testBit_two_pow]

theorem length_foldl_packBit (vec : List Bool) (l : List Nat) (vBytes : List UInt8) :
    (l.foldl (packBit vec) vBytes).length = vBytes.length := by
  induction l generalizing vBytes with
  | nil => rfl
  | cons p l ih => rw [List.foldl_cons, ih, packBit, List.length_modify]

/-- After `m` turns the first `m` bits are in the bytes and no others. -/
theorem testBit_foldl_packBit (vec : List Bool) (bytes m k j : Nat) (hk : k < bytes) (hj : j < 8) :
    (((List.range m).foldl (packBit vec) (List.replicate bytes 0)).getD k 0).toNat.testBit j =
      (decide (8 * k + j < m) && vec.getD (8 * k + j) false) := by
  induction m with
  | zero => simp [hk]
  | succ m ih =>
      rw [List.range_succ, List.foldl_append, List.foldl_cons, List.foldl_nil,
        getD_packBit _ _ _ _ (by rw [length_foldl_packBit, List.length_replicate]; exact hk)]
      split_ifs with hbyte
      · rw [UInt8.toNat_or, Nat.testBit_or, ih, testBit_bit _ (Nat.mod_lt m (by decide))]
        by_cases hbit : m % 8 = j
        · obtain rfl : m = 8 * k + j := by omega
          simp [hbit]
        · have hne : 8 * k + j ≠ m := by omega
          simp only [hbit, decide_false, Bool.and_false, Bool.or_false]
          congr 2
          rw [eq_iff_iff]
          omega
      · rw [ih]
        congr 2
        rw [eq_iff_iff]
        omega

theorem length_writeFixedBitSet (vec : List Bool) (size : Nat) : (writeFixedBitSet vec size).length =
    (size + 7) / 8 := by
  rw [writeFixedBitSet, length_foldl_packBit, List.length_replicate]

theorem and_outOfRangeMask {byte : UInt8} {rem : Nat} (hrem : rem < 8) (hbyte : byte.toNat < 2 ^ (8 - rem)) :
    byte &&& outOfRangeMask rem = 0 := by
  have hall : ∀ r : Fin 8, ∀ b : Fin 256, b.val < 2 ^ (8 - r.val) →
      (UInt8.ofNat b.val) &&& outOfRangeMask r.val = 0 := by decide +kernel
  have h := hall ⟨rem, hrem⟩ ⟨byte.toNat, byte.toNat_lt⟩ hbyte
  rwa [UInt8.ofNat_toNat] at h

/-- **The packed bits are read back.** -/
theorem readFixedBitSet_write (vec : List Bool) (rest : List UInt8) :
    readFixedBitSet vec.length (writeFixedBitSet vec vec.length ++ rest) = some (vec, rest) := by
  set vBytes := writeFixedBitSet vec vec.length with hbytes
  have hlen : vBytes.length = (vec.length + 7) / 8 := length_writeFixedBitSet vec vec.length
  have hbit : ∀ k j, k < vBytes.length → j < 8 → (vBytes.getD k 0).toNat.testBit j =
      (decide (8 * k + j < vec.length) && vec.getD (8 * k + j) false) := by
    intro k j hk hj
    have h := testBit_foldl_packBit vec ((vec.length + 7) / 8) vec.length k j (hlen ▸ hk) hj
    rw [hbytes, writeFixedBitSet, Nat.min_self]
    exact h
  have hvec : ((List.range vec.length).map fun p => (vBytes.getD (p / 8) 0).toNat.testBit (p % 8)) = vec := by
    refine List.ext_getElem (by simp) fun p hp hp' => ?_
    rw [List.getElem_map, List.getElem_range, hbit _ _ (by omega) (Nat.mod_lt p (by decide)), Nat.div_add_mod]
    simp [hp']
  have hread : (readBytes ((vec.length + 7) / 8)).run (vBytes ++ rest) = some (vBytes, rest) :=
    readBytes_append hlen rest
  show ((readFixedBitSet vec.length).run (vBytes ++ rest)) = _
  rw [readFixedBitSet, StateT.run_bind, hread]
  have hfine : ¬ (vBytes.length * 8 ≠ vec.length ∧
      vBytes.getD (vBytes.length - 1) 0 &&& outOfRangeMask (vBytes.length * 8 - vec.length) ≠ 0) := by
    rintro ⟨hpart, hmask⟩
    refine hmask (and_outOfRangeMask (by omega) ?_)
    refine Nat.lt_pow_two_of_testBit _ fun j hj => ?_
    rcases Nat.lt_or_ge j 8 with hsmall | hlarge
    · rw [hbit _ _ (by omega) hsmall, decide_eq_false (by omega), Bool.false_and]
    · exact Nat.testBit_lt_two_pow ((UInt8.toNat_lt _).trans_le (Nat.pow_le_pow_right (by decide) hlarge))
  rw [Option.bind_eq_bind, Option.bind_some, if_neg hfine]
  exact congrArg (fun v => some (v, rest)) hvec

/-- A vector that was read has the size that was asked for. -/
theorem length_of_readFixedBitSet {size : Nat} {s rest : List UInt8} {vec : List Bool}
    (h : readFixedBitSet size s = some (vec, rest)) : vec.length = size := by
  replace h : (readFixedBitSet size).run s = some (vec, rest) := h
  rw [readFixedBitSet, StateT.run_bind] at h
  obtain ⟨⟨vBytes, left⟩, -, h⟩ := Option.bind_eq_some_iff.mp h
  dsimp only at h
  split_ifs at h
  · exact nomatch h
  · obtain ⟨rfl, -⟩ := Prod.mk.inj (Option.some.inj h)
    rw [List.length_map, List.length_range]

/-! ## Distances -/

/-- What one turn of the reader does: it is over, it throws, or a bit behind the last one is set. -/
theorem readVarIntsFrom_succ {size fuel : Nat} (hsize : size < 2 ^ 63) {last : Int} (hlast : -1 ≤ last)
    {vec : List Bool} (hvec : vec.length = size) (s : List UInt8) :
    readVarIntsFrom size (fuel + 1) last vec s = .ok none ∨
      (∃ rest, readVarInt 0xffffffff s = some (0, rest) ∧
        readVarIntsFrom size (fuel + 1) last vec s = .ok (some (vec, rest))) ∨
      ∃ (offset idx : Nat) (rest : List UInt8), readVarInt 0xffffffff s = some (offset, rest) ∧ last < idx ∧
        idx < size ∧
        readVarIntsFrom size (fuel + 1) last vec s = readVarIntsFrom size fuel idx (vec.set idx true) rest := by
  rw [readVarIntsFrom]
  cases hread : readVarInt 0xffffffff s with
  | none => exact .inl rfl
  | some found =>
      obtain ⟨offset, rest⟩ := found
      dsimp only
      split_ifs with hstop hlarge hback
      · exact .inr (.inl ⟨rest, by rw [hstop], rfl⟩)
      · exact .inl rfl
      · exact .inl rfl
      · -- the index is not negative: as a `size_t` it would be too large
        have hrange := Int.le_bmod (x := last + offset) (m := 2 ^ 32) (by decide)
        have hidx : 0 ≤ Int.bmod (last + offset) (2 ^ 32) := by
          by_contra hneg
          have : (Int.bmod (last + offset) (2 ^ 32) % 2 ^ 64) = Int.bmod (last + offset) (2 ^ 32) + 2 ^ 64 := by
            rw [← Int.add_emod_right, Int.emod_eq_of_lt (by omega) (by omega)]
          omega
        obtain ⟨idx, hidx⟩ := Int.eq_ofNat_of_zero_le hidx
        rw [hidx] at hlarge hback ⊢
        have hlt : idx < size := by
          have hbound := Int.bmod_lt (x := last + offset) (m := 2 ^ 32) (by decide)
          rw [Int.emod_eq_of_lt (by omega) (by omega)] at hlarge
          omega
        refine .inr (.inr ⟨offset, idx, rest, rfl, by omega, hlt, ?_⟩)
        rw [Int.toNat_natCast, store, if_pos (by rw [hvec]; exact hlt)]
        rfl

/-- **Any bytes**: the reader throws or gives a vector of the size, and takes at most as many turns as there are
places. -/
theorem readVarIntsFrom_ok {size : Nat} (hsize : size < 2 ^ 63) {fuel : Nat} {last : Int} (hlast : -1 ≤ last)
    (hlast' : last < size) {vec : List Bool} (hvec : vec.length = size) (hfuel : (size : Int) < last + 1 + fuel)
    (s : List UInt8) :
    ∃ found, readVarIntsFrom size fuel last vec s = .ok found ∧
      ∀ vec' rest, found = some (vec', rest) → vec'.length = size ∧ s.length ≤ rest.length + 5 * fuel := by
  induction fuel generalizing last vec s with
  | zero => omega
  | succ fuel ih =>
      rcases readVarIntsFrom_succ hsize hlast hvec s with
        hthrow | ⟨rest, hread, hstop⟩ | ⟨offset, idx, rest, hread, hlt, hidx, hnext⟩
      · exact ⟨none, hthrow, fun _ _ h => nomatch h⟩
      · refine ⟨_, hstop, ?_⟩
        rintro _ _ ⟨⟩
        have hbytes := length_of_readVarInt hread
        exact ⟨hvec, by omega⟩
      · obtain ⟨found, hfound, hspec⟩ := ih (show -1 ≤ (idx : Int) by omega) (by omega) (List.length_set.trans hvec)
          (by omega) rest
        refine ⟨found, hnext.trans hfound, fun vec' rest' h => ?_⟩
        obtain ⟨hlen, hrest⟩ := hspec vec' rest' h
        have hbytes := length_of_readVarInt hread
        exact ⟨hlen, by omega⟩

/-- The bits that are still to come are clear in the vector that is being filled. -/
theorem readVarIntsFrom_write (before vec : List Bool) (fuel : Nat) (last : Int) (hlast : -1 ≤ last)
    (hlast' : last < before.length) (hsize : before.length + vec.length < 2 ^ 31) (hfuel : vec.length < fuel)
    (rest : List UInt8) :
    readVarIntsFrom (before.length + vec.length) fuel last (before ++ List.replicate vec.length false)
      (writeVarIntsFrom vec before.length last ++ rest) = .ok (some (before ++ vec, rest)) := by
  induction vec generalizing before fuel last with
  | nil =>
      obtain ⟨fuel, rfl⟩ := Nat.exists_eq_succ_of_ne_zero (Nat.pos_iff_ne_zero.mp hfuel)
      rw [readVarIntsFrom, writeVarIntsFrom, readVarInt_writeVarInt (by decide)]
      simp
  | cons bit vec ih =>
      obtain ⟨fuel, rfl⟩ := Nat.exists_eq_succ_of_ne_zero (Nat.ne_zero_of_lt hfuel)
      rw [List.length_cons] at hsize hfuel ⊢
      have hbefore : ∀ b : Bool, (before ++ [b]).length = before.length + 1 := fun b => by simp
      have hshift : before.length + (vec.length + 1) = before.length + 1 + vec.length := by omega
      rw [writeVarIntsFrom]
      cases bit with
      | false =>
          rw [if_neg Bool.false_ne_true, List.replicate_succ]
          have hnext := ih (before ++ [false]) (fuel + 1) last hlast (by rw [hbefore]; push_cast; omega)
            (by rw [hbefore]; omega) (by omega)
          rw [hbefore, List.append_assoc, List.append_assoc, ← hshift] at hnext
          push_cast at hnext
          exact hnext
      | true =>
          have hoffset : ((before.length - last : Int) % 2 ^ 32) = before.length - last :=
            Int.emod_eq_of_lt (by omega) (by omega)
          obtain ⟨offset, hoff⟩ := Int.eq_ofNat_of_zero_le (show (0 : Int) ≤ before.length - last by omega)
          have hbmod : Int.bmod (last + offset) (2 ^ 32) = before.length := by
            rw [← hoff, Int.bmod_eq_of_le (by omega) (by omega)]
            omega
          rw [if_pos rfl, hoffset, hoff, Int.toNat_natCast, List.append_assoc, readVarIntsFrom,
            readVarInt_writeVarInt (by omega)]
          dsimp only
          rw [if_neg (by omega), hbmod, Int.emod_eq_of_lt (by omega) (by omega), Int.toNat_natCast, if_neg (by omega),
            if_neg (by omega), store, if_pos (by simp)]
          have hnext := ih (before ++ [true]) fuel before.length (by omega)
            (by rw [hbefore]; push_cast; omega) (by rw [hbefore]; omega) (by omega)
          rw [hbefore, List.append_assoc, List.append_assoc, ← hshift] at hnext
          push_cast at hnext
          rw [List.replicate_succ, List.set_append_right _ _ le_rfl, Nat.sub_self, List.set_cons_zero]
          exact hnext

theorem readVarIntsBitSet_write {vec : List Bool} (hsize : vec.length < 2 ^ 31) {turns : Nat}
    (hturns : vec.length < turns)
    (rest : List UInt8) :
    readVarIntsBitSet turns vec.length (writeVarIntsBitSet vec ++ rest) = .ok (some (vec, rest)) := by
  have h := readVarIntsFrom_write [] vec turns (-1) (by omega) (by simp) (by simpa using hsize) hturns rest
  rw [readVarIntsBitSet, if_neg (by omega), writeVarIntsBitSet]
  simpa using h

theorem readVarIntsBitSet_ok (size : Nat) (s : List UInt8) : ∃ found, readVarIntsBitSet (size + 1) size s = .ok found ∧
    ∀ vec rest, found = some (vec, rest) → vec.length = size ∧ s.length ≤ rest.length + 5 * (size + 1) := by
  rw [readVarIntsBitSet]
  split_ifs with hlarge
  · exact ⟨none, rfl, fun _ _ h => nomatch h⟩
  · exact readVarIntsFrom_ok (not_le.mp hlarge) le_rfl (by omega) List.length_replicate (by push_cast; omega) s

/-! ## The automatic choice -/

theorem readAutoBitSet_write {vec : List Bool} (hsize : vec.length < 2 ^ 31) (rest : List UInt8) :
    readAutoBitSet (vec.length + 1) vec.length (writeAutoBitSet vec ++ rest) = .ok (some (vec, rest)) := by
  rw [writeAutoBitSet]
  split_ifs
  · rw [List.cons_append, readAutoBitSet, if_neg (by decide), if_pos rfl, if_neg (by omega), readFixedBitSet_write]
  · rw [List.cons_append, readAutoBitSet, if_neg (by decide), if_neg (by decide)]
    exact readVarIntsBitSet_write hsize (Nat.lt_succ_self _) rest

theorem readAutoBitSet_ok (size : Nat) (s : List UInt8) : ∃ found, readAutoBitSet (size + 1) size s = .ok found ∧
    ∀ vec rest, found = some (vec, rest) → vec.length = size := by
  cases s with
  | nil => exact ⟨none, rfl, fun _ _ h => nomatch h⟩
  | cons isVarInts s =>
      rw [readAutoBitSet]
      split_ifs
      · exact ⟨none, rfl, fun _ _ h => nomatch h⟩
      · exact ⟨none, rfl, fun _ _ h => nomatch h⟩
      · exact ⟨_, rfl, fun vec rest h => length_of_readFixedBitSet h⟩
      · obtain ⟨found, hfound, hspec⟩ := readVarIntsBitSet_ok size s
        exact ⟨found, hfound, fun vec rest h => (hspec vec rest h).1⟩

/-! ## With the size in front -/

theorem readDynamicBitSet_write {vec : List Bool} (hsize : vec.length ≤ MAX_SIZE) (rest : List UInt8) :
    readDynamicBitSet (writeDynamicBitSet vec ++ rest) = some (vec, rest) := by
  show readDynamicBitSet.run _ = _
  rw [readDynamicBitSet, StateT.run_bind, writeDynamicBitSet, List.append_assoc, readCompactSize_append hsize]
  exact readFixedBitSet_write vec rest

theorem readDynamicBitSet_of_large {vec : List Bool} (hlarge : MAX_SIZE < vec.length) (hsize : vec.length < 256 ^ 8)
    (rest : List UInt8) : readDynamicBitSet (writeDynamicBitSet vec ++ rest) = none := by
  show readDynamicBitSet.run _ = _
  rw [readDynamicBitSet, StateT.run_bind, writeDynamicBitSet, List.append_assoc, readCompactSize_of_large hlarge hsize]
  rfl

/-- **Bit sets.** Each codec reads back the vector it wrote and takes exactly those bytes, `CDynamicBitSet` up to the
largest size that is ever read; and the readers of `CFixedVarIntsBitSet` and `CAutoBitSet` throw or give a vector of
the expected size for any bytes, without an index outside it, in at most one turn more than it has places, each of at
most five bytes. -/
theorem bitSet_codecs :
    (∀ (vec : List Bool) (rest : List UInt8), vec.length < 2 ^ 31 →
      readFixedBitSet vec.length (writeFixedBitSet vec vec.length ++ rest) = some (vec, rest) ∧
      readVarIntsBitSet (vec.length + 1) vec.length (writeVarIntsBitSet vec ++ rest) = .ok (some (vec, rest)) ∧
      (vec.length ≤ MAX_SIZE → readDynamicBitSet (writeDynamicBitSet vec ++ rest) = some (vec, rest)) ∧
      readAutoBitSet (vec.length + 1) vec.length (writeAutoBitSet vec ++ rest) = .ok (some (vec, rest))) ∧
    ∀ (size : Nat) (s : List UInt8),
      (∃ found, readVarIntsBitSet (size + 1) size s = .ok found ∧
        ∀ vec rest, found = some (vec, rest) → vec.length = size ∧ s.length ≤ rest.length + 5 * (size + 1)) ∧
      ∃ found, readAutoBitSet (size + 1) size s = .ok found ∧ ∀ vec rest, found = some (vec, rest) →
        vec.length = size := by
  refine ⟨fun vec rest hsize => ⟨?_, ?_, ?_, ?_⟩, fun size s => ⟨?_, ?_⟩⟩
  · exact readFixedBitSet_write vec rest
  · exact readVarIntsBitSet_write hsize (Nat.lt_succ_self _) rest
  · exact fun hmax => readDynamicBitSet_write hmax rest
  · exact readAutoBitSet_write hsize rest
  · exact readVarIntsBitSet_ok size s
  · exact readAutoBitSet_ok size s

theorem bitSet_codecs_sample :
    readAutoBitSet 4 3 (writeAutoBitSet [true, false, true] ++ [7]) = .ok (some ([true, false, true], [7])) :=
  (bitSet_codecs.1 [true, false, true] [7] (by decide)).2.2.2

/-- A vector that is longer than any size that is read. -/
theorem not_readDynamicBitSet_write :
    ∃ vec : List Bool, vec.length < 2 ^ 31 ∧ readDynamicBitSet (writeDynamicBitSet vec ++ []) ≠ some (vec, []) := by
  have hlen : (List.replicate 33554433 true).length = 33554433 := List.length_replicate
  refine ⟨List.replicate 33554433 true, by rw [hlen]; decide, ?_⟩
  rw [readDynamicBitSet_of_large (by rw [hlen]; decide) (by rw [hlen]; decide)]
  exact fun h => nomatch h

end RavenCash
