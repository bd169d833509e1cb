import Mathlib.Data.Nat.Bitwise
import RavenCash.Header.Accept

/-!
# `DarkGravityWave` against the unbounded computation

The running average stays below `powLimit`, so the loop never leaves 256 bits. The product with the timespan does: the
limit of the main network has 248 bits and a timespan up to 15, so for easy targets `bnNew *= nActualTimespan` wraps. A
wrapped product loses at least `2 ^ 256 / nTargetTimespan`, which is far more than a compact target rounds away, so the
bits are then always wrong.
-/

set_option autoImplicit false

namespace RavenCash

/-! ## Compact encodings -/

/-- The size byte: one bit is kept free for the sign. -/
def compactSize (n : Nat) : Nat := if n = 0 then 0 else (Nat.log2 n + 1) / 8 + 1

theorem and_signBit {m : Nat} (h : m < 2 ^ 24) : m.toUInt32 &&& 0x00800000 ≠ 0 ↔ 2 ^ 23 ≤ m := by
  have hand : (m.toUInt32 &&& 0x00800000).toNat = m &&& 2 ^ 23 := by
    simp only [UInt32.toNat_and, Nat.toUInt32, UInt32.toNat_ofNat']
    rw [Nat.mod_eq_of_lt (by omega)]
    rfl
  rw [Ne, ← UInt32.toNat_inj, hand, Nat.and_two_pow, Nat.testBit_eq_decide_div_mod_eq]
  simp
  omega

/-- The three leading bytes of a number of `size` bytes. -/
def leadingBytes (n size : Nat) : Nat := if size ≤ 3 then n <<< (8 * (3 - size)) else n >>> (8 * (size - 3))

theorem leadingBytes_lt {n size : Nat} (h : n < 2 ^ (8 * size)) : leadingBytes n size < 2 ^ 24 := by
  unfold leadingBytes
  split_ifs with hsize
  · rw [Nat.shiftLeft_eq, show 24 = 8 * size + 8 * (3 - size) by omega, Nat.pow_add]
    exact Nat.mul_lt_mul_of_pos_right h (Nat.two_pow_pos _)
  · rw [Nat.shiftRight_eq_div_pow, Nat.div_lt_iff_lt_mul (Nat.two_pow_pos _), ← Nat.pow_add]
    rw [show 24 + 8 * (size - 3) = 8 * size by omega]
    exact h

theorem signBit_leadingBytes {n size : Nat} (hpos : 1 ≤ size) :
    2 ^ 23 ≤ leadingBytes n size ↔ 2 ^ (8 * size - 1) ≤ n := by
  unfold leadingBytes
  split_ifs with hsize
  · rw [Nat.shiftLeft_eq, show 23 = 8 * size - 1 + 8 * (3 - size) by omega, Nat.pow_add]
    exact Nat.mul_le_mul_right_iff (Nat.two_pow_pos _)
  · rw [Nat.shiftRight_eq_div_pow, Nat.le_div_iff_mul_le (Nat.two_pow_pos _), ← Nat.pow_add]
    rw [show 23 + 8 * (size - 3) = 8 * size - 1 by omega]

theorem toNat_packed {m size : Nat} (hm : m < 2 ^ 24) (hsize : size < 2 ^ 8) :
    (m.toUInt32 ||| (size.toUInt32 <<< 24)).toNat = m + 2 ^ 24 * size := by
  have hm' : m.toUInt32.toNat = m := by
    rw [Nat.toUInt32, UInt32.toNat_ofNat', Nat.mod_eq_of_lt (by omega)]
  have hsize' : (size.toUInt32 <<< 24).toNat = size <<< 24 := by
    rw [UInt32.toNat_shiftLeft, Nat.toUInt32, UInt32.toNat_ofNat', Nat.mod_eq_of_lt (by omega : size < 2 ^ 32)]
    simp [Nat.shiftLeft_eq]
    omega
  rw [UInt32.toNat_or, hm', hsize', Nat.or_comm, ← Nat.shiftLeft_add_eq_or_of_lt hm, Nat.shiftLeft_eq]
  omega

/-- A compact encoding is the size byte over the bytes of the target that are kept. -/
theorem getCompact_toNat (x : UInt256) : ∃ m < 2 ^ 24, (getCompact x).toNat = m + 2 ^ 24 * compactSize x.toNat ∧
    (3 < compactSize x.toNat → m = x.toNat / 2 ^ (8 * (compactSize x.toNat - 3))) := by
  by_cases hx : x.toNat = 0
  · refine ⟨0, by decide, ?_, fun h => ?_⟩
    · have hzero : x = 0 := BitVec.eq_of_toNat_eq hx
      subst hzero
      rfl
    · simp [compactSize, hx] at h
  have hx0 : x ≠ 0 := fun h => hx (by rw [h]; rfl)
  have hsize : compactSize x.toNat = (Nat.log2 x.toNat + 1) / 8 + 1 := if_neg hx
  have hlog : Nat.log2 x.toNat < 256 := (Nat.log2_lt hx).mpr x.isLt
  obtain ⟨size, hdef⟩ : ∃ size, size = (Nat.log2 x.toNat + 1 + 7) / 8 := ⟨_, rfl⟩
  have hlt : x.toNat < 2 ^ (8 * size) := (Nat.log2_lt hx).mp (by omega)
  have hlead := leadingBytes_lt hlt
  have hsign : 2 ^ 23 ≤ leadingBytes x.toNat size ↔ 8 * size - 1 ≤ Nat.log2 x.toNat := by
    rw [signBit_leadingBytes (by omega), Nat.le_log2 hx]
  have hcompact : getCompact x =
      if (leadingBytes x.toNat size).toUInt32 &&& 0x00800000 ≠ 0 then
        (leadingBytes x.toNat size).toUInt32 >>> 8 ||| ((size + 1).toUInt32 <<< 24)
      else (leadingBytes x.toNat size).toUInt32 ||| (size.toUInt32 <<< 24) := by
    simp only [getCompact, if_neg hx0, ← hdef, leadingBytes]
    split_ifs <;> rfl
  rw [hcompact]
  by_cases hneg : 2 ^ 23 ≤ leadingBytes x.toNat size
  · -- the sign bit is taken, so one more byte is dropped
    have hnext : compactSize x.toNat = size + 1 := by
      have := hsign.mp hneg
      omega
    have hshift : (leadingBytes x.toNat size).toUInt32 >>> 8 = (leadingBytes x.toNat size / 2 ^ 8).toUInt32 := by
      rw [← UInt32.toNat_inj, UInt32.toNat_shiftRight]
      simp only [Nat.toUInt32, UInt32.toNat_ofNat']
      rw [Nat.mod_eq_of_lt (by omega : leadingBytes x.toNat size < 2 ^ 32),
        Nat.mod_eq_of_lt (by omega : leadingBytes x.toNat size / 2 ^ 8 < 2 ^ 32)]
      exact Nat.shiftRight_eq_div_pow _ 8
    rw [if_pos ((and_signBit hlead).mpr hneg), hshift, hnext]
    refine ⟨leadingBytes x.toNat size / 2 ^ 8, by omega, toNat_packed (by omega) (by omega), fun h3 => ?_⟩
    unfold leadingBytes
    split_ifs with h
    · have hthree : size = 3 := by omega
      subst hthree
      rfl
    · rw [Nat.shiftRight_eq_div_pow, Nat.div_div_eq_div_mul, ← Nat.pow_add]
      congr 2
      omega
  · have hsame : compactSize x.toNat = size := by
      have := mt hsign.mpr hneg
      omega
    rw [if_neg (mt (and_signBit hlead).mp hneg), hsame]
    refine ⟨leadingBytes x.toNat size, hlead, toNat_packed hlead (by omega), fun h3 => ?_⟩
    rw [leadingBytes, if_neg (by omega), Nat.shiftRight_eq_div_pow]

/-- Equal encodings keep the same bytes. -/
theorem div_eq_of_getCompact_eq {x y : UInt256} (h : getCompact x = getCompact y) (hsize : 3 < compactSize y.toNat) :
    x.toNat / 2 ^ (8 * (compactSize y.toNat - 3)) = y.toNat / 2 ^ (8 * (compactSize y.toNat - 3)) := by
  obtain ⟨m, hm, hx, hbytes⟩ := getCompact_toNat x
  obtain ⟨m', hm', hy, hbytes'⟩ := getCompact_toNat y
  have heq := congrArg UInt32.toNat h
  rw [hx, hy] at heq
  have hsame : compactSize x.toNat = compactSize y.toNat := by omega
  have hkept : m = m' := by omega
  rw [← hbytes' hsize, ← hkept, hbytes (by omega), hsame]

theorem compactSize_eq {n k : Nat} (hlo : 2 ^ (8 * k) ≤ 2 * n) (hhi : 2 * n < 2 ^ (8 * (k + 1))) (hk : 1 ≤ k) :
    compactSize n = k + 1 := by
  have hn : n ≠ 0 := by
    rintro rfl
    exact absurd hlo (Nat.not_le.mpr (Nat.two_pow_pos _))
  have hhalf : ∀ j, 1 ≤ j → 2 ^ (8 * j) = 2 * 2 ^ (8 * j - 1) := by
    intro j hj
    rw [← Nat.pow_succ']
    congr 1
    omega
  rw [hhalf k hk] at hlo
  rw [hhalf (k + 1) (by omega)] at hhi
  have hlo' : 8 * k - 1 ≤ Nat.log2 n := (Nat.le_log2 hn).mpr (by omega)
  have hhi' : Nat.log2 n < 8 * (k + 1) - 1 := (Nat.log2_lt hn).mpr (by omega)
  rw [compactSize, if_neg hn]
  omega

/-! ## The unbounded computation -/

def powLimitNat : Nat := 2 ^ 248 - 1

theorem toNat_powLimit : mainnetParams.consensus.powLimit.toNat = powLimitNat := rfl

/-- `nPastBlocks` blocks at the spacing of the main network. -/
def targetTimespan : Nat := nPastBlocks * 60

/-- `averageStep` over unbounded integers. -/
def averageStepExact (s : Nat × Nat) (pindex : CBlockIndex) : Nat × Nat :=
  let nCountBlocks := s.1 + 1
  let bnTarget := (setCompact pindex.nBits).1.toNat
  (nCountBlocks, if nCountBlocks = 1 then bnTarget else (s.2 * nCountBlocks + bnTarget) / (nCountBlocks + 1))

/-- The running target average over the last blocks. -/
def exactAverage (past : List CBlockIndex) : Nat := (past.foldl averageStepExact (0, 0)).2

/-- The measured timespan, between a third and three times the target timespan. -/
def clampedTimespan (pindexLast pindex : CBlockIndex) : Nat :=
  (max (targetTimespan / 3 : Int) (min (pindexLast.getBlockTime - pindex.getBlockTime) (targetTimespan * 3))).toNat

/-- The next target over unbounded integers, from the average and the timespan. -/
def exactTarget (average timespan : Nat) : Nat := min powLimitNat (average * timespan / targetTimespan)

theorem averageStep_exact {s : Nat × UInt256} {e : Nat × Nat} {pindex : CBlockIndex} (hcount : s.1 = e.1)
    (havg : s.2.toNat = e.2) (hle : e.2 ≤ powLimitNat) (hsteps : e.1 < nPastBlocks)
    (htarget : (setCompact pindex.nBits).1.toNat ≤ powLimitNat) :
    (averageStep s pindex).1 = (averageStepExact e pindex).1 ∧
      (averageStep s pindex).2.toNat = (averageStepExact e pindex).2 ∧ (averageStepExact e pindex).2 ≤ powLimitNat := by
  obtain ⟨count, avg⟩ := s
  obtain ⟨count', avg'⟩ := e
  simp only at hcount havg hle hsteps
  subst hcount havg
  refine ⟨rfl, ?_, ?_⟩
  · simp only [averageStep, averageStepExact]
    split_ifs
    · rfl
    -- the sum of `nCountBlocks + 1` targets has at most 256 bits
    have hprod : avg.toNat * (count + 1) ≤ powLimitNat * nPastBlocks := Nat.mul_le_mul hle (by omega)
    simp only [powLimitNat, nPastBlocks] at hprod htarget hsteps
    have hc : (BitVec.ofNat 256 (count + 1)).toNat = count + 1 := by
      rw [BitVec.toNat_ofNat, Nat.mod_eq_of_lt (by omega)]
    have hc' : (BitVec.ofNat 256 (count + 1 + 1)).toNat = count + 1 + 1 := by
      rw [BitVec.toNat_ofNat, Nat.mod_eq_of_lt (by omega)]
    rw [BitVec.toNat_udiv, BitVec.toNat_add, BitVec.toNat_mul, hc, hc', Nat.mod_eq_of_lt (a := _ * _) (by omega),
      Nat.mod_eq_of_lt (by omega)]
  · simp only [averageStepExact]
    split_ifs
    · exact htarget
    · refine Nat.div_le_of_le_mul ?_
      calc avg.toNat * (count + 1) + (setCompact pindex.nBits).1.toNat
          ≤ powLimitNat * (count + 1) + powLimitNat := Nat.add_le_add (Nat.mul_le_mul_right _ hle) htarget
        _ = (count + 1 + 1) * powLimitNat := by ring

/-- The loop computes the average, which is at most the limit. -/
theorem average_exact {past : List CBlockIndex} (hlen : past.length ≤ nPastBlocks)
    (htargets : ∀ p ∈ past, (setCompact p.nBits).1.toNat ≤ powLimitNat) :
    (past.foldl averageStep (0, 0)).2.toNat = exactAverage past ∧ exactAverage past ≤ powLimitNat := by
  have hloop : ∀ (l : List CBlockIndex) (s : Nat × UInt256) (e : Nat × Nat), s.1 = e.1 → s.2.toNat = e.2 →
      e.2 ≤ powLimitNat → e.1 + l.length ≤ nPastBlocks → (∀ p ∈ l, (setCompact p.nBits).1.toNat ≤ powLimitNat) →
      (l.foldl averageStep s).2.toNat = (l.foldl averageStepExact e).2 ∧ (l.foldl averageStepExact e).2 ≤
          powLimitNat := by
    intro l
    induction l with
    | nil => exact fun s e _ havg hle _ _ => ⟨havg, hle⟩
    | cons p l ih =>
      intro s e hcount havg hle hsteps htargets
      rw [List.length_cons] at hsteps
      obtain ⟨hhead, htail⟩ := List.forall_mem_cons.mp htargets
      obtain ⟨hcount', havg', hle'⟩ := averageStep_exact hcount havg hle (by omega) hhead
      have hnext : (averageStepExact e p).1 = e.1 + 1 := rfl
      exact ih _ _ hcount' havg' hle' (by omega) htail
  exact hloop past (0, 0) (0, 0) rfl rfl (by decide) (by omega) htargets

theorem clampTimespan_eq (t : Int) :
    clampTimespan ((targetTimespan : Int).tdiv 3) (targetTimespan * 3) t =
      max (targetTimespan / 3 : Int) (min t (targetTimespan * 3)) := by
  have hdiv : (targetTimespan : Int).tdiv 3 = 3600 := by decide
  have hdiv' : (targetTimespan : Int) / 3 = 3600 := by decide
  have hmul : (targetTimespan : Int) * 3 = 32400 := by decide
  rw [hdiv, hdiv', hmul, clampTimespan]
  split_ifs <;> omega

theorem clampedTimespan_bounds (pindexLast pindex : CBlockIndex) :
    3600 ≤ clampedTimespan pindexLast pindex ∧ clampedTimespan pindexLast pindex ≤ 32400 := by
  have hdiv : (targetTimespan : Int) / 3 = 3600 := by decide
  have hmul : (targetTimespan : Int) * 3 = 32400 := by decide
  unfold clampedTimespan
  rw [hdiv, hmul]
  omega

/-- `retarget` wraps at `2 ^ 256` and is exact otherwise. -/
theorem retarget_eq (bnNew : UInt256) {timespan : Nat} (h : timespan < 2 ^ 32) :
    retarget mainnetParams.consensus bnNew timespan targetTimespan =
      getCompact (BitVec.ofNat 256 (min powLimitNat (bnNew.toNat * timespan % 2 ^ 256 / targetTimespan))) := by
  show getCompact _ = getCompact _
  congr 1
  apply BitVec.eq_of_toNat_eq
  have hquot : (bnNew * BitVec.ofNat 256 ((timespan : Int).toNat % 2 ^ 32) /
      BitVec.ofInt 256 (targetTimespan : Int)).toNat = bnNew.toNat * timespan % 2 ^ 256 / targetTimespan := by
    have hspan : (BitVec.ofInt 256 (targetTimespan : Int)).toNat = targetTimespan := by decide
    rw [BitVec.toNat_udiv, BitVec.toNat_mul, hspan, Int.toNat_natCast, Nat.mod_eq_of_lt h, BitVec.toNat_ofNat,
      Nat.mul_mod_mod]
  have hmin : min powLimitNat (bnNew.toNat * timespan % 2 ^ 256 / targetTimespan) < 2 ^ 256 :=
    lt_of_le_of_lt (min_le_left _ _) (by decide)
  rw [BitVec.toNat_ofNat, Nat.mod_eq_of_lt hmin]
  split_ifs with hlt
  · rw [BitVec.lt_def, toNat_powLimit, hquot] at hlt
    rw [toNat_powLimit, min_eq_left hlt.le]
  · rw [BitVec.lt_def, toNat_powLimit, hquot, Nat.not_lt] at hlt
    rw [hquot, min_eq_right hlt]

/-- Encodings of targets with at least 242 bits differ when the targets do by much. -/
theorem getCompact_ne {x y : Nat} (hy : y ≤ powLimitNat) (hbig : 2 ^ 242 ≤ y) (hfar : x + 2 ^ 232 ≤ y) :
    getCompact (BitVec.ofNat 256 x) ≠ getCompact (BitVec.ofNat 256 y) := by
  intro heq
  simp only [powLimitNat] at hy
  have htoNat : ∀ n ≤ y, (BitVec.ofNat 256 n).toNat = n := fun n hn => by
    rw [BitVec.toNat_ofNat, Nat.mod_eq_of_lt (by omega)]
  have hdiv := div_eq_of_getCompact_eq heq
  rw [htoNat x (by omega), htoNat y le_rfl] at hdiv
  by_cases hsplit : 2 * y < 2 ^ 248
  · rw [compactSize_eq (k := 30) (by omega) (by omega) (by omega)] at hdiv
    have := hdiv (by omega)
    omega
  · rw [compactSize_eq (k := 31) (by omega) (by omega) (by omega)] at hdiv
    have := hdiv (by omega)
    omega

/-- The encoding of the wrapped quotient is the exact one only where nothing wraps. -/
theorem wrapped_iff {average timespan : Nat} :
    getCompact (BitVec.ofNat 256 (min powLimitNat (average * timespan % 2 ^ 256 / targetTimespan))) =
      getCompact (BitVec.ofNat 256 (exactTarget average timespan)) ↔ average * timespan < 2 ^ 256 := by
  generalize hprod : average * timespan = p
  constructor
  · intro h
    by_contra hwrap
    refine getCompact_ne (min_le_left _ _) ?_ ?_ h
    · simp only [hprod, powLimitNat, targetTimespan, nPastBlocks]
      omega
    · simp only [hprod, powLimitNat, targetTimespan, nPastBlocks]
      omega
  · intro h
    rw [exactTarget, hprod, Nat.mod_eq_of_lt h]

/-- The encoding of the limit is that of every target whose leading bytes are all ones. -/
theorem getCompact_powLimit_iff {y : Nat} (hy : y ≤ powLimitNat) :
    getCompact mainnetParams.consensus.powLimit = getCompact (BitVec.ofNat 256 y) ↔ 0xffff * 2 ^ 232 ≤ y := by
  have htoNat : (BitVec.ofNat 256 y).toNat = y := by
    rw [BitVec.toNat_ofNat, Nat.mod_eq_of_lt (lt_of_le_of_lt hy (by decide))]
  simp only [powLimitNat] at hy
  have hsize : compactSize mainnetParams.consensus.powLimit.toNat = 31 + 1 :=
    compactSize_eq (by rw [toNat_powLimit]; decide) (by rw [toNat_powLimit]; decide) (by omega)
  constructor
  · intro h
    have hdiv := div_eq_of_getCompact_eq h.symm
    rw [hsize, htoNat, toNat_powLimit] at hdiv
    have := hdiv (by omega)
    simp only [powLimitNat] at this
    omega
  · intro h
    have hsize' : compactSize y = 31 + 1 := compactSize_eq (by omega) (by omega) (by omega)
    obtain ⟨m, -, hx, hbytes⟩ := getCompact_toNat mainnetParams.consensus.powLimit
    obtain ⟨m', -, hy', hbytes'⟩ := getCompact_toNat (BitVec.ofNat 256 y)
    rw [hsize, toNat_powLimit] at hbytes
    rw [htoNat, hsize'] at hbytes'
    have hm := hbytes (by omega)
    have hm' := hbytes' (by omega)
    simp only [powLimitNat] at hm
    rw [← UInt32.toNat_inj, hx, hy', htoNat, hsize, hsize']
    omega

/-! ## `DarkGravityWave` -/

/-- **`DarkGravityWave` is exact while the product has 256 bits**: over a chain of more than `nPastBlocks` headers
whose targets are at most the limit, the bits are those of the unbounded computation exactly when the average times
the timespan does not wrap. For a KAWPOW block with older blocks behind it the limit is returned, whatever the
targets are. -/
theorem darkGravityWave_exact_iff (tree : BlockTree) (pindexLast first : CBlockIndex) (past : List CBlockIndex)
    (block : CBlockHeader) (hheight : nPastBlocks ≤ pindexLast.nHeight)
    (hpast : tree.chainOf nPastBlocks pindexLast = past) (hlen : past.length = nPastBlocks)
    (hfirst : past.getLast? = some first)
    (htargets : ∀ p ∈ past, 1 ≤ (setCompact p.nBits).1.toNat ∧ (setCompact p.nBits).1.toNat ≤ powLimitNat) :
    darkGravityWave tree mainnetParams.consensus pindexLast block =
        some (getCompact (BitVec.ofNat 256 (exactTarget (exactAverage past) (clampedTimespan pindexLast first)))) ↔
      if KAWPOW_TIME ≤ block.nTime ∧ ∃ p ∈ past, p.nTime < KAWPOW_TIME then
        0xffff * 2 ^ 232 * targetTimespan ≤ exactAverage past * clampedTimespan pindexLast first
      else exactAverage past * clampedTimespan pindexLast first < 2 ^ 256 := by
  obtain ⟨havg, -⟩ := average_exact hlen.le fun p hp => (htargets p hp).2
  have hkawpow : (past.filter fun p => decide (KAWPOW_TIME ≤ p.nTime)).length ≠ nPastBlocks ↔
      ∃ p ∈ past, p.nTime < KAWPOW_TIME := by
    rw [← hlen, Ne, List.length_filter_eq_length_iff]
    simp
  have hspan : clampTimespan ((nPastBlocks * mainnetParams.consensus.nPowTargetSpacing : Int).tdiv 3)
      (nPastBlocks * mainnetParams.consensus.nPowTargetSpacing * 3)
      (pindexLast.getBlockTime - first.getBlockTime) = (clampedTimespan pindexLast first : Int) := by
    have hclamp := clampTimespan_eq (pindexLast.getBlockTime - first.getBlockTime)
    have hpos : (0 : Int) ≤ max (targetTimespan / 3 : Int)
        (min (pindexLast.getBlockTime - first.getBlockTime) (targetTimespan * 3)) :=
      le_trans (by decide) (le_max_left _ _)
    rw [clampedTimespan, Int.toNat_of_nonneg hpos]
    exact hclamp
  have hmin : ¬ (mainnetParams.consensus.fPowAllowMinDifficultyBlocks &&
      mainnetParams.consensus.fPowNoRetargeting) = true := by decide
  unfold darkGravityWave
  rw [if_neg (by omega), if_neg hmin]
  simp only [hpast, hfirst, hlen, lt_irrefl, if_false, hkawpow]
  split_ifs with hrule
  · have hpow : 0xffff * 2 ^ 232 ≤ powLimitNat := by decide
    rw [Option.some.injEq, exactTarget, getCompact_powLimit_iff (min_le_left _ _), le_min_iff,
      Nat.le_div_iff_mul_le (by decide)]
    simp only [hpow, true_and]
  · rw [Option.some.injEq, hspan]
    have hbound := (clampedTimespan_bounds pindexLast first).2
    have hretarget := retarget_eq (past.foldl averageStep (0, 0)).2
      (lt_of_le_of_lt hbound (by decide : 32400 < 2 ^ 32))
    rw [havg] at hretarget
    have hcompact : retarget mainnetParams.consensus (past.foldl averageStep (0, 0)).2
        (clampedTimespan pindexLast first) (nPastBlocks * mainnetParams.consensus.nPowTargetSpacing) =
        getCompact (BitVec.ofNat 256 (min powLimitNat
          (exactAverage past * clampedTimespan pindexLast first % 2 ^ 256 / targetTimespan))) := hretarget
    rw [hcompact]
    exact wrapped_iff

/-! ## A chain at the difficulty of the genesis block -/

/-- The header of this height, mined on time with these bits. -/
def steadyEntry (nBits : UInt32) (height : Nat) : CBlockIndex :=
  { mainnetGenesis with
    phashBlock := BitVec.ofNat 256 height
    pprev := if height = 0 then none else some (BitVec.ofNat 256 (height - 1))
    nHeight := height
    nBits := nBits
    nTime := 1724271490 + 60 * height.toUInt32 }

/-- Headers of heights below `count`. -/
def steadyTree (nBits : UInt32) (count : Nat) : BlockTree where
  mapBlockIndex := (List.range count).foldl
    (fun m height => AList.insert (BitVec.ofNat 256 height) (steadyEntry nBits height) m) ∅

/-- The last `nPastBlocks` before this height, the newest first. -/
def steadyPast (nBits : UInt32) (height : Nat) : List CBlockIndex :=
  (List.range nPastBlocks).map fun i => steadyEntry nBits (height - i)

theorem find_steadyTree (nBits : UInt32) {height count : Nat} (h : height < count) (hcount : count < 2 ^ 256) :
    (steadyTree nBits count).find (BitVec.ofNat 256 height) = some (steadyEntry nBits height) := by
  induction count with
  | zero => omega
  | succ count ih =>
    show AList.lookup _ ((List.range (count + 1)).foldl _ ∅) = _
    rw [List.range_succ, List.foldl_append, List.foldl_cons, List.foldl_nil, StdMap.lookup_assign]
    by_cases hlast : height = count
    · rw [if_pos (congrArg _ hlast), hlast]
    · have hne : BitVec.ofNat 256 height ≠ BitVec.ofNat 256 count := by
        intro heq
        have := congrArg BitVec.toNat heq
        rw [BitVec.toNat_ofNat, BitVec.toNat_ofNat, Nat.mod_eq_of_lt (by omega), Nat.mod_eq_of_lt (by omega)] at this
        exact hlast this
      rw [if_neg hne]
      exact ih (by omega) (by omega)

theorem chainOf_steadyTree (nBits : UInt32) {height count : Nat} (h : height < count) (hcount : count < 2 ^ 256)
    {fuel : Nat} (hfuel : fuel ≤ height) : (steadyTree nBits count).chainOf fuel (steadyEntry nBits height) =
      (List.range fuel).map fun i => steadyEntry nBits (height - i) := by
  induction fuel generalizing height with
  | zero => rfl
  | succ fuel ih =>
    have hprev : (steadyTree nBits count).prev (steadyEntry nBits height) = some (steadyEntry nBits (height - 1)) := by
      rw [BlockTree.prev, steadyEntry, if_neg (by omega)]
      exact find_steadyTree nBits (by omega) hcount
    rw [BlockTree.chainOf, hprev, List.range_succ_eq_map, List.map_cons, List.map_map]
    refine congrArg _ ((ih (by omega) (by omega)).trans (List.map_congr_left fun i _ => ?_))
    simp only [Function.comp, Nat.sub_sub, Nat.add_comm 1]

/-- The bits of the genesis block. -/
def genesisBits : UInt32 := 0x20001fff

theorem chainOf_genesisBits : (steadyTree genesisBits (nPastBlocks + 1)).chainOf nPastBlocks
    (steadyEntry genesisBits nPastBlocks) = steadyPast genesisBits nPastBlocks :=
  chainOf_steadyTree genesisBits (by decide) (by decide) le_rfl

/-- **The target of a chain that runs on time changes**: after blocks at the difficulty of the genesis block, a
minute apart, the next bits are not those of the exact computation. -/
theorem darkGravityWave_wraps :
    darkGravityWave (steadyTree genesisBits (nPastBlocks + 1)) mainnetParams.consensus
        (steadyEntry genesisBits nPastBlocks) minedHeader ≠
      some (getCompact (BitVec.ofNat 256 (exactTarget (exactAverage (steadyPast genesisBits nPastBlocks))
        (clampedTimespan (steadyEntry genesisBits nPastBlocks) (steadyEntry genesisBits 1))))) := by
  unfold darkGravityWave
  rw [chainOf_genesisBits]
  decide +kernel

theorem darkGravityWave_exact_iff_steady :
    darkGravityWave (steadyTree 0x1d00ffff (nPastBlocks + 1)) mainnetParams.consensus
        (steadyEntry 0x1d00ffff nPastBlocks) minedHeader =
      some (getCompact (BitVec.ofNat 256 (exactTarget (exactAverage (steadyPast 0x1d00ffff nPastBlocks))
        (clampedTimespan (steadyEntry 0x1d00ffff nPastBlocks) (steadyEntry 0x1d00ffff 1))))) := by
  have hpast : (steadyTree 0x1d00ffff (nPastBlocks + 1)).chainOf nPastBlocks (steadyEntry 0x1d00ffff nPastBlocks) =
      steadyPast 0x1d00ffff nPastBlocks := chainOf_steadyTree 0x1d00ffff (by decide) (by decide) le_rfl
  have htargets : ∀ p ∈ steadyPast 0x1d00ffff nPastBlocks,
      1 ≤ (setCompact p.nBits).1.toNat ∧ (setCompact p.nBits).1.toNat ≤ powLimitNat := by
    intro p hp
    obtain ⟨i, -, rfl⟩ := List.mem_map.mp hp
    show 1 ≤ (setCompact 0x1d00ffff).1.toNat ∧ (setCompact 0x1d00ffff).1.toNat ≤ powLimitNat
    decide +kernel
  exact (darkGravityWave_exact_iff _ _ _ _ minedHeader le_rfl hpast (by simp [steadyPast]) (by decide +kernel)
    htargets).mpr (by decide +kernel)

end RavenCash
