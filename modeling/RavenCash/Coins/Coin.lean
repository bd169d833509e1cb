import RavenCash.Assets.Codec

/-!
# Coins

`Coin` of `coins.h` and a coins view as the map from outpoints to unspent coins: `HaveCoin` is
membership and `AccessCoin` is lookup. The layers of `CCoinsViewCache` are one such map here.
-/

set_option autoImplicit false

namespace RavenCash

structure Coin where
  out : CTxOut
  nHeight : Int
  fCoinBase : Bool
deriving DecidableEq, Repr

def Coin.isAsset (coin : Coin) : Bool := coin.out.scriptPubKey.isAssetScript

/-- The unspent coins. -/
abbrev CCoinsView := StdMap COutPoint Coin

def CCoinsView.haveCoin (view : CCoinsView) (outpoint : COutPoint) : Bool :=
  (view.lookup outpoint).isSome

def CCoinsView.haveInputs (view : CCoinsView) (tx : CTransaction) : Bool :=
  tx.isCoinBase || tx.vin.all (fun txin => view.haveCoin txin.prevout)

/-- `AddCoin`: an unspendable output is not added. The exception of a coin that would replace an
unspent one is `none`. -/
def CCoinsView.addCoin (view : CCoinsView) (outpoint : COutPoint) (coin : Coin)
    (possible_overwrite : Bool) : Option CCoinsView :=
  if coin.out.scriptPubKey.isUnspendable then some view
  else if !possible_overwrite && view.haveCoin outpoint then none
  else some (view.insert outpoint coin)

end RavenCash
