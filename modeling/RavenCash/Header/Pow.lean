import RavenCash.Header.BlockIndex

/-!
# Targets

`pow.cpp` and the compact encoding of `arith_uint256`. An `arith_uint256` wraps at `2 ^ 256` as a
`UInt256` does. `getNextWorkRequired` is `none` where the source fails an assertion.
-/

set_option autoImplicit false

namespace RavenCash

/-- The fields of `Consensus::Params` the header checks read. -/
structure ConsensusParams where
  hashGenesisBlock : UInt256
  powLimit : UInt256
  nPowTargetTimespan : Int
  nPowTargetSpacing : Int
  fPowAllowMinDifficultyBlocks : Bool
  fPowNoRetargeting : Bool
  nPowDGWHeight : Int
  nMinimumDifficultyBlocks : Int := 0
deriving DecidableEq, Repr

def ConsensusParams.difficultyAdjustmentInterval (params : ConsensusParams) : Int :=
  params.nPowTargetTimespan.tdiv params.nPowTargetSpacing

/-! ## Compact targets -/

/-- `SetCompact`: the target, whether it is negative and whether it overflows. -/
def setCompact (nCompact : UInt32) : UInt256 × Bool × Bool :=
  let nSize := (nCompact >>> 24).toNat
  let nWord := nCompact &&& 0x007fffff
  let nWord := if nSize ≤ 3 then nWord >>> (8 * (3 - nSize)).toUInt32 else nWord
  let target := BitVec.ofNat 256 nWord.toNat
  (if nSize ≤ 3 then target else target <<< (8 * (nSize - 3)),
    nWord != 0 && nCompact &&& 0x00800000 != 0,
    nWord != 0 && (decide (34 < nSize) || (decide (0xff < nWord) && decide (33 < nSize)) ||
      (decide (0xffff < nWord) && decide (32 < nSize))))

/-- `GetCompact()` of a nonnegative number. -/
def getCompact (x : UInt256) : UInt32 :=
  let bits := if x = 0 then 0 else Nat.log2 x.toNat + 1
  let nSize := (bits + 7) / 8
  let nCompact := if nSize ≤ 3 then (x.toNat <<< (8 * (3 - nSize))).toUInt32
    else (x.toNat >>> (8 * (nSize - 3))).toUInt32
  -- the bit 0x00800000 denotes the sign
  let (nCompact, nSize) := if nCompact &&& 0x00800000 ≠ 0 then (nCompact >>> 8, nSize + 1)
    else (nCompact, nSize)
  nCompact ||| (nSize.toUInt32 <<< 24)

def checkProofOfWork (hash : UInt256) (nBits : UInt32) (params : ConsensusParams) : Bool :=
  let (bnTarget, fNegative, fOverflow) := setCompact nBits
  if fNegative || bnTarget == 0 || fOverflow || decide (params.powLimit < bnTarget) then false
  else if bnTarget < hash then false
  else true

def getBlockProof (nBits : UInt32) : UInt256 :=
  let (bnTarget, fNegative, fOverflow) := setCompact nBits
  if fNegative || fOverflow || bnTarget == 0 then 0
  else ~~~ bnTarget / (bnTarget + 1) + 1

/-! ## The required target -/

section

variable (tree : BlockTree) (params : ConsensusParams)

/-- The last entry that was not mined under the special minimum-difficulty rule. -/
def lastRegularBits (nProofOfWorkLimit : UInt32) : Nat → CBlockIndex → UInt32
  | 0, pindex => pindex.nBits
  | fuel + 1, pindex =>
      match tree.prev pindex with
      | some p =>
          if pindex.nHeight.tmod params.difficultyAdjustmentInterval ≠ 0 ∧
              pindex.nBits = nProofOfWorkLimit then
            lastRegularBits nProofOfWorkLimit fuel p
          else pindex.nBits
      | none => pindex.nBits

/-- The rule for chains that allow minimum-difficulty blocks. -/
def minDifficultyBits (pindexLast : CBlockIndex) (block : CBlockHeader) : UInt32 :=
  let nProofOfWorkLimit := getCompact params.powLimit
  if (block.nTime.toNat : Int) > pindexLast.getBlockTime + params.nPowTargetSpacing * 2 then
    nProofOfWorkLimit
  else lastRegularBits tree params nProofOfWorkLimit (pindexLast.nHeight.toNat + 1) pindexLast

/-- `std::max(lo, std::min(t, hi))` as the source clamps a timespan. -/
def clampTimespan (lo hi t : Int) : Int :=
  let t := if t < lo then lo else t
  if t > hi then hi else t

/-- `bnNew *= nActualTimespan; bnNew /= nTargetTimespan;`, at most the limit, as compact bits. -/
def retarget (bnNew : UInt256) (nActualTimespan nTargetTimespan : Int) : UInt32 :=
  let bnNew := bnNew * BitVec.ofNat 256 (nActualTimespan.toNat % 2 ^ 32) /
    BitVec.ofInt 256 nTargetTimespan
  getCompact (if params.powLimit < bnNew then params.powLimit else bnNew)

def nPastBlocks : Nat := 180

/-- One step of the running average over past targets. -/
def averageStep (s : Nat × UInt256) (pindex : CBlockIndex) : Nat × UInt256 :=
  let nCountBlocks := s.1 + 1
  let bnTarget := (setCompact pindex.nBits).1
  (nCountBlocks, if nCountBlocks = 1 then bnTarget
    else (s.2 * BitVec.ofNat 256 nCountBlocks + bnTarget) / BitVec.ofNat 256 (nCountBlocks + 1))

def darkGravityWave (pindexLast : CBlockIndex) (block : CBlockHeader) : Option UInt32 :=
  if pindexLast.nHeight < nPastBlocks then some (getCompact params.powLimit)
  else if params.fPowAllowMinDifficultyBlocks && params.fPowNoRetargeting then
    some (minDifficultyBits tree params pindexLast block)
  else
    let past := tree.chainOf nPastBlocks pindexLast
    match past.getLast? with
    | none => none
    | some pindex =>
        let nKAWPOWBlocksFound := (past.filter (fun p => decide (KAWPOW_TIME ≤ p.nTime))).length
        -- assert(pindex->pprev)
        if past.length < nPastBlocks then none
        else if KAWPOW_TIME ≤ block.nTime ∧ nKAWPOWBlocksFound ≠ nPastBlocks then
          some (getCompact params.powLimit)
        else
          let bnPastTargetAvg := (past.foldl averageStep (0, 0)).2
          let nTargetTimespan := nPastBlocks * params.nPowTargetSpacing
          let nActualTimespan := clampTimespan (nTargetTimespan.tdiv 3) (nTargetTimespan * 3)
            (pindexLast.getBlockTime - pindex.getBlockTime)
          some (retarget params bnPastTargetAvg nActualTimespan nTargetTimespan)

def calculateNextWorkRequired (pindexLast : CBlockIndex) (nFirstBlockTime : Int) : UInt32 :=
  if params.fPowNoRetargeting then pindexLast.nBits
  else
    let nActualTimespan := clampTimespan (params.nPowTargetTimespan.tdiv 4)
      (params.nPowTargetTimespan * 4) (pindexLast.getBlockTime - nFirstBlockTime)
    retarget params (setCompact pindexLast.nBits).1 nActualTimespan params.nPowTargetTimespan

def getNextWorkRequiredBTC (pindexLast : CBlockIndex) (block : CBlockHeader) : Option UInt32 :=
  if (pindexLast.nHeight + 1).tmod params.difficultyAdjustmentInterval ≠ 0 then
    if params.fPowAllowMinDifficultyBlocks then
      some (minDifficultyBits tree params pindexLast block)
    else some pindexLast.nBits
  else
    let nHeightFirst := pindexLast.nHeight - (params.difficultyAdjustmentInterval - 1)
    if nHeightFirst < 0 then none
    else (tree.getAncestor pindexLast nHeightFirst).map (fun pindexFirst =>
      calculateNextWorkRequired params pindexLast pindexFirst.getBlockTime)

def getNextWorkRequired (pindexLast : CBlockIndex) (block : CBlockHeader) : Option UInt32 :=
  if pindexLast.nHeight < params.nMinimumDifficultyBlocks then some (getCompact params.powLimit)
  else if pindexLast.nHeight + 1 < params.nPowDGWHeight then
    getNextWorkRequiredBTC tree params pindexLast block
  else darkGravityWave tree params pindexLast block

end

end RavenCash
