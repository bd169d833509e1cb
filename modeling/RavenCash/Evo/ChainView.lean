import RavenCash.Llmq.Commitment

/-!
# Blocks and their payloads

The chain as the processing of special transactions sees it: a block with the blocks before it, the payloads of its
transactions and the height from which they count.
-/

set_option autoImplicit false

namespace RavenCash.Evo

open Llmq

/-- A block with the blocks before it. -/
inductive CBlockIndex where
  | genesis (hash : UInt256)
  | block (hash : UInt256) (vtx : List CTransaction) (pprev : CBlockIndex)
deriving DecidableEq, Repr

namespace CBlockIndex

def hash : CBlockIndex → UInt256
  | genesis hash => hash
  | block hash _ _ => hash

def nHeight : CBlockIndex → Int
  | genesis _ => 0
  | block _ _ pprev => pprev.nHeight + 1

def getAncestor : CBlockIndex → Int → Option CBlockIndex
  | genesis hash, height => if height = 0 then some (genesis hash) else none
  | block hash vtx pprev, height =>
      if height = pprev.nHeight + 1 then some (block hash vtx pprev) else pprev.getAncestor height

end CBlockIndex

section

variable [EvoCrypto]

/-- What the network and the chain fix for every node. -/
structure ChainView where
  /-- `GetTxPayload` for commitments -/
  getTxPayload : CTransaction → Option CFinalCommitmentTxPayload
  dip0003Height : Int
  dip0003Height_pos : 0 < dip0003Height

namespace ChainView

variable (chain : ChainView)

/-- `isDIPDIP0003Active` -/
def isActive (pindex : CBlockIndex) : Bool := decide (chain.dip0003Height ≤ pindex.nHeight)

end ChainView

end

end RavenCash.Evo
