import RavenCash.Lib.FiniteMap
import RavenCash.Validation.Payments

/-!
# The deterministic smartnode list

`CDeterministicMNState`, `CDeterministicMN` and `CDeterministicMNList` of `evo/deterministicmns.h`.
A failed `assert` stops the node; it is a result of its own, apart from the rejection of a block.

A lazily read operator key is its bytes, the all-zero bytes being no key.
-/

set_option autoImplicit false

namespace RavenCash.Evo

/-! ## Values -/

abbrev CKeyID := BitVec 160

structure CService where
  ip : BitVec 128 := 0
  port : UInt16 := 0
deriving DecidableEq, Repr

/-- The 48 bytes of a BLS public key. -/
abbrev CBLSPublicKey := BitVec 384

/-- **What the list asks of the cryptography**: whether bytes are a key (`IsValid`), and the single
SHA-256 of two hashes one after the other. -/
class EvoCrypto where
  isValid : CBLSPublicKey → Bool
  sha256 : UInt256 → UInt256 → UInt256
  not_isValid_zero : isValid 0 = false

/-- An instance to evaluate the model on. -/
@[reducible] def plainCrypto : EvoCrypto where
  isValid key := key != 0
  sha256 a b := a ^^^ b
  not_isValid_zero := bne_self_eq_false _

structure CDeterministicMNState where
  nPoSeBanHeight : Int := -1
  confirmedHash : UInt256 := 0
  confirmedHashWithProRegTxHash : UInt256 := 0
  nCollateralAmount : CAmount := 0
  pubKeyOperator : CBLSPublicKey := 0
  keyIDVoting : CKeyID := 0
  addr : CService := {}
deriving DecidableEq, Repr

structure CDeterministicMN where
  proTxHash : UInt256
  collateralOutpoint : COutPoint
  pdmnState : CDeterministicMNState := {}
deriving DecidableEq, Repr

/-! ## The list -/

structure CDeterministicMNList where
  blockHash : UInt256 := 0
  nHeight : Int := -1
  mnMap : FiniteMap UInt256 CDeterministicMN := ∅

/-- How an operation on a list ends early: the condition of an `assert` is false, or the block is
rejected. -/
inductive Failure where
  | assertion (condition : String)
  | invalid (e : CValidationError)
deriving DecidableEq, Repr

namespace CDeterministicMNList

variable (list : CDeterministicMNList)

def getMN (proTxHash : UInt256) : Option CDeterministicMN := list.mnMap.lookup proTxHash

end CDeterministicMNList

end RavenCash.Evo
