import RavenCash.Header.KawPow
import RavenCash.Lib.StdMap

/-!
# Headers and the block tree

`CBlockHeader` of `primitives/block.h` and `CBlockIndex` of `chain.h`. A pointer to an index entry
is the hash of its block: `BlockTree` holds `mapBlockIndex`, and `pprev`, `pskip` are followed by
looking a hash up in it. A walk that the source bounds by heights takes that bound as fuel.
-/

set_option autoImplicit false

namespace RavenCash

/-! ## Headers -/

structure CBlockHeader where
  nVersion : Int32
  hashPrevBlock : UInt256
  hashMerkleRoot : UInt256
  nTime : UInt32
  nBits : UInt32
  nNonce : UInt32 := 0
  nHeight : UInt32
  nNonce64 : UInt64
  mix_hash : UInt256
deriving DecidableEq, Repr

/-- The `nTime` from which headers are mined with KAWPOW. -/
def KAWPOW_TIME : UInt32 := 1651444217

namespace CBlockHeader

variable [NodeCrypto]

/-- The fields `CKAWPOWInput` serializes: all but the nonce and the mix hash. -/
def kawpowInput (block : CBlockHeader) : StdString :=
  serializeUInt32 block.nVersion.toUInt32 ++ serializeUInt256 block.hashPrevBlock ++
    serializeUInt256 block.hashMerkleRoot ++ serializeUInt32 block.nTime ++
    serializeUInt32 block.nBits ++ serializeUInt32 block.nHeight

def getKAWPOWHeaderHash (block : CBlockHeader) : UInt256 := NodeCrypto.hash block.kawpowInput

/-- `nHeight` as the `int` that `progpow::hash` is called with. -/
def blockNumber (block : CBlockHeader) : Int := block.nHeight.toInt32.toInt

/-- `KAWPOWHash` for a block number. -/
def kawpowHashAt (mix : HashMix) (block : CBlockHeader) (block_number : Int) : UInt256 × UInt256 :=
  let result := ProgPow.hash mix (getEpochNumber block_number) block_number
    block.getKAWPOWHeaderHash block.nNonce64
  (result.final_hash, result.mix_hash)

/-- `KAWPOWHash`: the hash, and the mix hash it hands out. -/
def kawpowHash (mix : HashMix) (block : CBlockHeader) : UInt256 × UInt256 :=
  block.kawpowHashAt mix block.blockNumber

def kawpowHash_OnlyMix (block : CBlockHeader) : UInt256 :=
  ProgPow.hash_no_verify block.blockNumber block.getKAWPOWHeaderHash block.mix_hash block.nNonce64

/-- `HashX16R(BEGIN(nVersion), END(nNonce), hashPrevBlock)` -/
def getX16RHash (block : CBlockHeader) : UInt256 :=
  NodeCrypto.hashX16R (serializeUInt32 block.nVersion.toUInt32 ++
    serializeUInt256 block.hashPrevBlock ++ serializeUInt256 block.hashMerkleRoot ++
    serializeUInt32 block.nTime ++ serializeUInt32 block.nBits ++ serializeUInt32 block.nNonce)
    block.hashPrevBlock

def getHash (block : CBlockHeader) : UInt256 :=
  if block.nTime < KAWPOW_TIME then block.getX16RHash else block.kawpowHash_OnlyMix

/-- `GetHashFull(mix_hash)`; before KAWPOW the mix hash stays as it was, null. -/
def getHashFull (mix : HashMix) (block : CBlockHeader) : UInt256 × UInt256 :=
  if block.nTime < KAWPOW_TIME then (block.getX16RHash, 0) else block.kawpowHash mix

end CBlockHeader

/-! ## Index entries -/

def BLOCK_VALID_TREE : UInt32 := 2
def BLOCK_VALID_SCRIPTS : UInt32 := 5
def BLOCK_VALID_MASK : UInt32 := 7
def BLOCK_FAILED_VALID : UInt32 := 32
def BLOCK_FAILED_CHILD : UInt32 := 64
def BLOCK_FAILED_MASK : UInt32 := BLOCK_FAILED_VALID ||| BLOCK_FAILED_CHILD
def BLOCK_CONFLICT_CHAINLOCK : UInt32 := 256

/-- An entry of the block index; `phashBlock` is the key it is found under. -/
structure CBlockIndex where
  phashBlock : UInt256
  pprev : Option UInt256 := none
  pskip : Option UInt256 := none
  nHeight : Int
  nChainWork : UInt256 := 0
  nStatus : UInt32 := 0
  nVersion : Int32
  hashMerkleRoot : UInt256
  nTime : UInt32
  nBits : UInt32
  nNonce : UInt32
  nNonce64 : UInt64
  mix_hash : UInt256
  nSequenceId : Int32 := 0
  nTimeMax : UInt32 := 0
deriving DecidableEq, Repr

namespace CBlockIndex

/-- `CBlockIndex(block)`, to be stored under `hash`. -/
def ofHeader (block : CBlockHeader) (hash : UInt256) : CBlockIndex :=
  { phashBlock := hash
    nHeight := block.blockNumber
    nVersion := block.nVersion
    hashMerkleRoot := block.hashMerkleRoot
    nTime := block.nTime
    nBits := block.nBits
    nNonce := block.nNonce
    nNonce64 := block.nNonce64
    mix_hash := block.mix_hash }

def getBlockTime (pindex : CBlockIndex) : Int := pindex.nTime.toNat

def isValid (pindex : CBlockIndex) (nUpTo : UInt32) : Bool :=
  if pindex.nStatus &&& BLOCK_FAILED_MASK ≠ 0 then false
  else decide (nUpTo ≤ pindex.nStatus &&& BLOCK_VALID_MASK)

def raiseValidity (pindex : CBlockIndex) (nUpTo : UInt32) : CBlockIndex :=
  if pindex.nStatus &&& BLOCK_FAILED_MASK ≠ 0 then pindex
  else if pindex.nStatus &&& BLOCK_VALID_MASK < nUpTo then
    { pindex with nStatus := (pindex.nStatus &&& ~~~ BLOCK_VALID_MASK) ||| nUpTo }
  else pindex

end CBlockIndex

/-! ## The tree -/

/-- **The block tree**: `mapBlockIndex` and what is kept beside it. -/
structure BlockTree where
  mapBlockIndex : StdMap UInt256 CBlockIndex := ∅
  mapPrevBlockIndex : List (UInt256 × UInt256) := []
  pindexBestHeader : Option UInt256 := none
  g_failed_blocks : List UInt256 := []
  setDirtyBlockIndex : List UInt256 := []

namespace BlockTree

def find (tree : BlockTree) (hash : UInt256) : Option CBlockIndex := tree.mapBlockIndex.lookup hash

def prev (tree : BlockTree) (pindex : CBlockIndex) : Option CBlockIndex :=
  pindex.pprev.bind tree.find

def setDirty (tree : BlockTree) (hash : UInt256) : BlockTree :=
  { tree with setDirtyBlockIndex :=
      if tree.setDirtyBlockIndex.contains hash then tree.setDirtyBlockIndex
      else tree.setDirtyBlockIndex ++ [hash] }

/-- The entry and its ancestors, `fuel` entries at most. -/
def chainOf (tree : BlockTree) : Nat → CBlockIndex → List CBlockIndex
  | 0, _ => []
  | fuel + 1, pindex =>
      pindex :: (match tree.prev pindex with
        | some p => tree.chainOf fuel p
        | none => [])

def nMedianTimeSpan : Nat := 11

/-- `GetMedianTimePast()` -/
def getMedianTimePast (tree : BlockTree) (pindex : CBlockIndex) : Int :=
  let times := ((tree.chainOf nMedianTimeSpan pindex).map CBlockIndex.getBlockTime).insertionSort
    (· ≤ ·)
  times.getD (times.length / 2) 0

/-- `n & (n - 1)` on a nonnegative `int`. -/
def invertLowestOne (n : Nat) : Nat := n &&& (n - 1)

def getSkipHeight (height : Nat) : Nat :=
  if height < 2 then 0
  else if height &&& 1 ≠ 0 then invertLowestOne (invertLowestOne (height - 1)) + 1
  else invertLowestOne height

/-- Whether the walk to `height` follows `pskip` from `heightWalk`. -/
def followSkip (height heightWalk : Nat) : Bool :=
  let heightSkip := getSkipHeight heightWalk
  let heightSkipPrev := getSkipHeight (heightWalk - 1)
  heightSkip == height || (decide (height < heightSkip) &&
    !(decide (heightSkipPrev + 2 < heightSkip) && decide (height ≤ heightSkipPrev)))

/-- The walk of `GetAncestor`; `none` where `pprev` or `pskip` leads nowhere. -/
def walkTo (tree : BlockTree) (height : Nat) :
    (fuel heightWalk : Nat) → CBlockIndex → Option CBlockIndex
  | 0, _, pindexWalk => some pindexWalk
  | fuel + 1, heightWalk, pindexWalk =>
      if heightWalk ≤ height then some pindexWalk
      else if pindexWalk.pskip.isSome && followSkip height heightWalk then
        (pindexWalk.pskip.bind tree.find).bind (tree.walkTo height fuel (getSkipHeight heightWalk))
      else (tree.prev pindexWalk).bind (tree.walkTo height fuel (heightWalk - 1))

/-- `GetAncestor(height)`. Every step of the walk lowers its height, so `nHeight` steps suffice. -/
def getAncestor (tree : BlockTree) (pindex : CBlockIndex) (height : Int) : Option CBlockIndex :=
  if pindex.nHeight < height ∨ height < 0 then none
  else tree.walkTo height.toNat pindex.nHeight.toNat pindex.nHeight.toNat pindex

/-- `BuildSkip()` -/
def buildSkip (tree : BlockTree) (pindex : CBlockIndex) : CBlockIndex :=
  match tree.prev pindex with
  | some p => { pindex with
      pskip := (tree.getAncestor p (getSkipHeight pindex.nHeight.toNat)).map
        CBlockIndex.phashBlock }
  | none => pindex

end BlockTree

end RavenCash
