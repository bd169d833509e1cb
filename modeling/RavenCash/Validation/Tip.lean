import RavenCash.Consensus.Authority
import RavenCash.Validation.DisconnectBlock

/-!
# The state at the tip

`ConnectTip` and `DisconnectTip` give the block a fresh asset cache and flush the coins view.
`ConnectTip` also flushes the asset cache into `passets`; `DisconnectTip` lets it go.
`FlushStateToDisk` is taken to find that memory does not force a write to the databases.
-/

set_option autoImplicit false

namespace RavenCash

/-- The state that the tip functions change: the asset state with its read caches, and `pcoinsTip`. -/
structure NodeState where
  g : Globals := {}
  lru : LRUCaches := {}
  pcoinsTip : CCoinsView := ∅

/-- `DisconnectTip`; `none` where it returns `false`. The asset cache is not flushed. -/
def disconnectTip [NodeCrypto] (n : NodeState) (block : CBlock) (nHeight : Int) (vtxundo : List CTxUndo) :
    Option NodeState :=
  match disconnectBlock n.g block nHeight vtxundo ⟨n.pcoinsTip, ⟨{}, n.lru⟩⟩ with
  | some (true, s) => some { n with lru := s.assets.lru, pcoinsTip := s.view }
  | _ => none

section

attribute [local instance] mainnetCrypto

/-- A coinbase that pays the founder. -/
def coinbaseTx (hash : UInt256) : CTransaction where
  hash := hash
  vin := [{ prevout := ⟨0, 4294967295⟩, scriptSig := [1, 1] }]
  vout := [⟨95 * COIN, payScript⟩, ⟨5 * COIN, getScriptForDestination
    (NodeCrypto.decodeDestination mainAssetParams.nFounderPayment.founderAddress)⟩]

end

end RavenCash
