import RavenCash.Basic.Primitives

/-!
# Serialization

`leBytes k n` writes `n` in `k` little-endian bytes, as `ser_writedata…` of `serialize.h` does, and
`leNat` reads such bytes back. A `uint256` is written as its 32 bytes, a string as its compact size
and its bytes.

A `CDataStream` that is read is the list of bytes left in it; a reader that throws is `none`.
-/

set_option autoImplicit false

namespace RavenCash

/-- The `k` low bytes of `n`, lowest first. -/
def leBytes : Nat → Nat → List UInt8
  | 0, _ => []
  | k + 1, n => (n % 256).toUInt8 :: leBytes k (n / 256)

/-- The number with these bytes, lowest first. -/
def leNat : List UInt8 → Nat
  | [] => 0
  | b :: bs => b.toNat + 256 * leNat bs

@[simp] theorem length_leBytes (k n : Nat) : (leBytes k n).length = k := by
  induction k generalizing n with
  | zero => rfl
  | succ k ih =>
      show (leBytes k (n / 256)).length + 1 = k + 1
      rw [ih]

theorem leNat_leBytes (k n : Nat) : leNat (leBytes k n) = n % 256 ^ k := by
  induction k generalizing n with
  | zero =>
      show 0 = n % 1
      omega
  | succ k ih =>
      have hbyte : (n % 256).toUInt8.toNat = n % 256 := by
        rw [Nat.toUInt8_eq, UInt8.toNat_ofNat']
        omega
      show (n % 256).toUInt8.toNat + 256 * leNat (leBytes k (n / 256)) = n % 256 ^ (k + 1)
      rw [ih, hbyte, pow_succ, Nat.mul_comm (256 ^ k) 256, Nat.mod_mul]

def serializeUInt32 (x : UInt32) : List UInt8 := leBytes 4 x.toNat

def serializeUInt256 (x : UInt256) : List UInt8 := leBytes 32 x.toNat

theorem serializeUInt256_injective : Function.Injective serializeUInt256 := by
  intro a b h
  have hnat := congrArg leNat h
  rw [serializeUInt256, serializeUInt256, leNat_leBytes, leNat_leBytes] at hnat
  refine BitVec.eq_of_toNat_eq ?_
  have ha : a.toNat < 256 ^ 32 := a.isLt
  have hb : b.toNat < 256 ^ 32 := b.isLt
  rwa [Nat.mod_eq_of_lt ha, Nat.mod_eq_of_lt hb] at hnat

/-- `COutPoint::operator<`; hashes are compared byte by byte. -/
def outpointLt (a b : COutPoint) : Bool :=
  decide (serializeUInt256 a.hash < serializeUInt256 b.hash) || a.hash == b.hash && decide (a.n < b.n)

def serializeInt8 (x : Int8) : List UInt8 := [x.toUInt8]

def serializeInt64 (x : Int64) : List UInt8 := leBytes 8 x.toUInt64.toNat

def MAX_SIZE : Nat := 0x02000000

def writeCompactSize (nSize : Nat) : List UInt8 :=
  if nSize < 253 then leBytes 1 nSize
  else if nSize ≤ 0xffff then 253 :: leBytes 2 nSize
  else if nSize ≤ 0xffffffff then 254 :: leBytes 4 nSize
  else 255 :: leBytes 8 nSize

def serializeString (s : StdString) : List UInt8 := writeCompactSize s.length ++ s

/-! ## Reading a stream -/

/-- A function that reads from a `CDataStream`. -/
abbrev Reader := StateT (List UInt8) Option

def readBytes (nSize : Nat) : Reader (List UInt8) := fun s =>
  if s.length < nSize then none else some (s.take nSize, s.drop nSize)

/-- A number of `k` little-endian bytes. -/
def readLE (k : Nat) : Reader Nat := do
  return leNat (← readBytes k)

def readInt8 : Reader Int8 := do
  return Int8.ofNat (← readLE 1)

def readInt64 : Reader Int64 := do
  return Int64.ofNat (← readLE 8)

/-- The size a compact size announces, which must be in its shortest form. -/
def readShortestSize : Reader Nat := do
  let chSize ← readLE 1
  if chSize < 253 then return chSize
  else if chSize = 253 then
    let nSizeRet ← readLE 2
    if nSizeRet < 253 then failure else return nSizeRet
  else if chSize = 254 then
    let nSizeRet ← readLE 4
    if nSizeRet < 0x10000 then failure else return nSizeRet
  else
    let nSizeRet ← readLE 8
    if nSizeRet < 0x100000000 then failure else return nSizeRet

def readCompactSize : Reader Nat := do
  let nSizeRet ← readShortestSize
  if MAX_SIZE < nSizeRet then failure else return nSizeRet

def readString : Reader StdString := do
  readBytes (← readCompactSize)

/-- The value read from the start of the bytes, if the reader does not throw. -/
def unserialize {α : Type} (r : Reader α) (s : List UInt8) : Option α := (r.run s).map Prod.fst

/-! ## Reading what was written -/

theorem readBytes_append {nSize : Nat} {bs : List UInt8} (h : bs.length = nSize)
    (rest : List UInt8) : (readBytes nSize).run (bs ++ rest) = some (bs, rest) := by
  show (if (bs ++ rest).length < nSize then none
    else some ((bs ++ rest).take nSize, (bs ++ rest).drop nSize)) = some (bs, rest)
  rw [if_neg (by rw [List.length_append]; omega), List.take_left' h, List.drop_left' h]

theorem readLE_append (k : Nat) {n : Nat} (h : n < 256 ^ k) (rest : List UInt8) :
    (readLE k).run (leBytes k n ++ rest) = some (n, rest) := by
  rw [readLE, StateT.run_bind, readBytes_append (length_leBytes k n)]
  show some (leNat (leBytes k n), rest) = some (n, rest)
  rw [leNat_leBytes, Nat.mod_eq_of_lt h]

/-- The shortest form is read back. -/
theorem readShortestSize_append {n : Nat} (hn : n < 256 ^ 8) (rest : List UInt8) :
    readShortestSize.run (writeCompactSize n ++ rest) = some (n, rest) := by
  have hmark : ∀ (mark : UInt8) (s : List UInt8), (readLE 1).run (mark :: s) = some (mark.toNat, s) := by
    intro mark s
    have hbyte : (readBytes 1).run (mark :: s) = some ([mark], s) :=
      readBytes_append (List.length_singleton (a := mark)) s
    rw [readLE, StateT.run_bind, hbyte]
    rfl
  rw [writeCompactSize, readShortestSize, StateT.run_bind]
  split_ifs with h1 h2 h4
  · rw [readLE_append 1 (by omega)]
    simp [h1]
  · rw [List.cons_append, hmark]
    simp [readLE_append 2 (show n < 256 ^ 2 by omega), h1]
  · rw [List.cons_append, hmark]
    simp [readLE_append 4 (show n < 256 ^ 4 by omega), show ¬ n < 0x10000 by omega]
  · rw [List.cons_append, hmark]
    simp [readLE_append 8 hn, show ¬ n < 0x100000000 by omega]

theorem readCompactSize_append {n : Nat} (hn : n ≤ MAX_SIZE) (rest : List UInt8) :
    readCompactSize.run (writeCompactSize n ++ rest) = some (n, rest) := by
  have hsize : n < 256 ^ 8 := hn.trans_lt (by decide)
  rw [readCompactSize, StateT.run_bind, readShortestSize_append hsize]
  simp [not_lt.mpr hn]

/-- A size that is too large is refused. -/
theorem readCompactSize_of_large {n : Nat} (hn : MAX_SIZE < n) (hsize : n < 256 ^ 8) (rest : List UInt8) :
    readCompactSize.run (writeCompactSize n ++ rest) = none := by
  rw [readCompactSize, StateT.run_bind, readShortestSize_append hsize]
  simp [hn]

/-! ## Sizes -/

def getSizeOfCompactSize (nSize : Nat) : Nat := (writeCompactSize nSize).length

/-- `GetSerializeSize` of a string or script. -/
def stringSerializeSize (s : List UInt8) : Nat := getSizeOfCompactSize s.length + s.length

/-- `GetSerializeSize(tx, SER_NETWORK, PROTOCOL_VERSION | SERIALIZE_TRANSACTION_NO_WITNESS)` -/
def CTransaction.serializeSize (tx : CTransaction) : Nat :=
  -- outpoint, script and sequence of an input; value and script of an output
  let vinSize := (tx.vin.map (fun txin => 36 + stringSerializeSize txin.scriptSig + 4)).sum
  let voutSize := (tx.vout.map (fun txout => 8 + stringSerializeSize txout.scriptPubKey)).sum
  let payloadSize := if tx.nVersion = 3 ∧ tx.nType ≠ TRANSACTION_NORMAL then
    stringSerializeSize tx.vExtraPayload else 0
  4 + getSizeOfCompactSize tx.vin.length + vinSize + getSizeOfCompactSize tx.vout.length + voutSize +
    4 + payloadSize

end RavenCash
