import Mathlib.Tactic

/-!
# Amounts, outpoints and transactions

The primitive types of `amount.h`, `uint256.h` and `primitives/transaction.h` that the asset code
reads. A `std::string` and a `CScript` are byte lists, a `uint256` is a 256-bit vector whose
numeral is `GetHex()`, a `CAmount` is a wrapping 64-bit integer. A transaction carries its hash as
a field.
-/

set_option autoImplicit false

namespace RavenCash

/-- A `std::string`. -/
abbrev StdString := List UInt8

/-- The bytes of an ASCII literal of the source. -/
def bytes (s : String) : StdString := s.toList.map (fun c => c.toNat.toUInt8)

abbrev CScript := List UInt8

abbrev UInt256 := BitVec 256

instance : LawfulBEq StdString := inferInstance

instance : LawfulBEq UInt256 := inferInstance

abbrev CAmount := Int64

def COIN : CAmount := 100000000

def MAX_MONEY : CAmount := 200609375 * COIN

def moneyRange (nValue : CAmount) : Bool := decide (0 ≤ nValue) && decide (nValue ≤ MAX_MONEY)

/-! ## Block weight (`consensus/consensus.h`) -/

def WITNESS_SCALE_FACTOR : Nat := 4

def MAX_BLOCK_WEIGHT_RIP2 : Nat := 8000000

def getMaxBlockWeight : Nat := MAX_BLOCK_WEIGHT_RIP2

/-! ## Transactions -/

/-- An outpoint: a transaction hash and an index into its `vout`. -/
structure COutPoint where
  hash : UInt256
  n : UInt32
deriving DecidableEq, Repr

def COutPoint.isNull (out : COutPoint) : Bool := out.hash == 0 && out.n == 0xffffffff

structure CTxIn where
  prevout : COutPoint
  scriptSig : CScript := []
  nSequence : UInt32 := 0xffffffff
deriving DecidableEq, Repr

structure CTxOut where
  nValue : CAmount
  scriptPubKey : CScript
deriving DecidableEq, Repr

def TRANSACTION_NORMAL : Int16 := 0
def TRANSACTION_COINBASE : Int16 := 5
def TRANSACTION_QUORUM_COMMITMENT : Int16 := 6

structure CTransaction where
  hash : UInt256
  vin : List CTxIn
  vout : List CTxOut
  nVersion : Int16 := 2
  nType : Int16 := TRANSACTION_NORMAL
  nLockTime : UInt32 := 0
  vExtraPayload : List UInt8 := []
deriving DecidableEq, Repr

def CTransaction.isCoinBase (tx : CTransaction) : Bool :=
  match tx.vin with
  | [txin] => txin.prevout.isNull
  | _ => false

/-! ## Hashes and addresses -/

/-- `boost::variant<CNoDestination, CKeyID, CScriptID>`, the two hashes as their 20 bytes. -/
inductive CTxDestination where
  | noDestination
  | keyID (id : List UInt8)
  | scriptID (id : List UInt8)
deriving DecidableEq, Repr

def isValidDestination (dest : CTxDestination) : Bool := dest != .noDestination

/-- The two hashes are of 20 bytes, as a `uint160` is. -/
def CTxDestination.sized : CTxDestination → Bool
  | .noDestination => true
  | .keyID id => id.length == 20
  | .scriptID id => id.length == 20

/-- **The hashes and the address codec the node calls**: `Hash`, `Hash160` and `HashX16R` of `hash.h`
and `EncodeDestination`, `DecodeDestination` of `base58.cpp`. The laws are those of Base58Check: no
destination encodes to the empty string, and only that one; an address decodes to what it
encodes. -/
class NodeCrypto where
  hash : StdString → UInt256
  hash160 : StdString → List UInt8
  hashX16R : StdString → UInt256 → UInt256
  encodeDestination : CTxDestination → StdString
  decodeDestination : StdString → CTxDestination
  length_hash160 : ∀ s, (hash160 s).length = 20
  encode_eq_nil : ∀ dest, encodeDestination dest = [] ↔ dest = .noDestination
  decode_encode : ∀ dest, dest.sized = true →
    decodeDestination (encodeDestination dest) = dest

/-! ## `int64` sums

Amounts are compared as integers through `toInt`; an addition is exact when the exact sum fits. -/

theorem toInt_add_of_bounds {a b : CAmount} (hlo : -2 ^ 63 ≤ a.toInt + b.toInt)
    (hhi : a.toInt + b.toInt < 2 ^ 63) : (a + b).toInt = a.toInt + b.toInt := by
  rw [Int64.toInt_add, Int.bmod_eq_of_le (by omega) (by omega)]

end RavenCash
