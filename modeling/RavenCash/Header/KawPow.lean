import RavenCash.Basic.Serialize

/-!
# KAWPOW

`progpow::hash` and `progpow::hash_no_verify` of `crypto/ethash`. Both absorb the header hash and
the nonce with Keccak-f[800] and absorb a mix hash with it again; they differ in where the mix hash
comes from. The mix itself, `hash_mix` over the dataset of an epoch, is the parameter `HashMix`: it
reads the block number through the epoch and the ProgPoW period only.
-/

set_option autoImplicit false

namespace RavenCash

/-! ## Keccak-f[800] -/

namespace Keccak

def rol (x s : UInt32) : UInt32 := (x <<< s) ||| (x >>> (32 - s))

def round_constants : List UInt32 :=
  [0x00000001, 0x00008082, 0x0000808A, 0x80008000, 0x0000808B, 0x80000001, 0x80008081, 0x00008009,
    0x0000008A, 0x00000088, 0x80008009, 0x8000000A, 0x8000808B, 0x0000008B, 0x00008089, 0x00008003,
    0x00008002, 0x00000080, 0x0000800A, 0x8000000A, 0x80008081, 0x00008080]

/-- The rotation of lane `x + 5 * y`. -/
def rotations : List UInt32 :=
  [0, 1, 30, 28, 27, 4, 12, 6, 23, 20, 3, 10, 11, 25, 7, 9, 13, 15, 21, 8, 18, 2, 29, 24, 14]

def lane (state : List UInt32) (i : Nat) : UInt32 := state.getD i 0

/-- The column parities `Ba … Bu`. -/
def parities (state : List UInt32) : List UInt32 :=
  (List.range 5).map (fun x => lane state x ^^^ lane state (x + 5) ^^^ lane state (x + 10) ^^^
    lane state (x + 15) ^^^ lane state (x + 20))

/-- The column corrections `Da … Du`. -/
def corrections (c : List UInt32) : List UInt32 :=
  (List.range 5).map (fun x => lane c ((x + 4) % 5) ^^^ rol (lane c ((x + 1) % 5)) 1)

def theta (state : List UInt32) : List UInt32 :=
  let d := corrections (parities state)
  (List.range 25).map (fun i => lane state i ^^^ lane d (i % 5))

def rho (state : List UInt32) : List UInt32 := List.zipWith rol state rotations

def pi (state : List UInt32) : List UInt32 :=
  (List.range 25).map (fun i => lane state ((i % 5 + 3 * (i / 5)) % 5 + 5 * (i % 5)))

def chi (state : List UInt32) : List UInt32 :=
  (List.range 25).map (fun i =>
    let y := 5 * (i / 5)
    lane state i ^^^ (~~~ lane state ((i + 1) % 5 + y) &&& lane state ((i + 2) % 5 + y)))

def iota (rc : UInt32) : List UInt32 → List UInt32
  | [] => []
  | a :: state => (a ^^^ rc) :: state

end Keccak

open Keccak in
/-- `ethash_keccakf800` -/
def keccakf800 (state : List UInt32) : List UInt32 :=
  round_constants.foldl (fun state rc => iota rc (chi (pi (rho (theta state))))) state

/-! ## Hashes as words -/

/-- The words of four bytes each. -/
def wordsOf : List UInt8 → List UInt32
  | a :: b :: c :: d :: rest => (leNat [a, b, c, d]).toUInt32 :: wordsOf rest
  | _ => []

/-- `word32s` of a `hash256`. A `hash256` is the `uint256` of its hexadecimal text, which is how the
source converts between the two; its first byte is the most significant one. -/
def word32s (h : UInt256) : List UInt32 := wordsOf (serializeUInt256 h).reverse

/-- The `hash256` of eight words. -/
def ofWord32s (words : List UInt32) : UInt256 :=
  BitVec.ofNat 256 (leNat (words.flatMap serializeUInt32).reverse)

/-! ## ProgPoW -/

def period_length : Int := 3

def epoch_length : Int := 7500

def getEpochNumber (block_number : Int) : Int := block_number.tdiv epoch_length

/-- `block_number / period_length` -/
def periodNumber (block_number : Int) : Int := block_number.tdiv period_length

/-- **The ProgPoW mix** of an epoch's dataset, a period and the two seed words. -/
abbrev HashMix := (epoch_number period : Int) → UInt32 → UInt32 → UInt256

def ravencashcoin_kawpow : List UInt32 :=
  [0x72, 0x41, 0x56, 0x45, 0x4E, 0x43, 0x4F, 0x49, 0x4E, 0x4B, 0x41, 0x57, 0x50, 0x4F, 0x57]

namespace ProgPow

/-- The first absorb phase: header hash, nonce and input constraints. -/
def seedState (header_hash : UInt256) (nonce : UInt64) : List UInt32 :=
  (keccakf800 (word32s header_hash ++ [nonce.toUInt32, (nonce >>> 32).toUInt32] ++
    ravencashcoin_kawpow)).take 8

/-- The last absorb phase: the carried words, the mix hash and input constraints. -/
def finalHash (state2 : List UInt32) (mix_hash : UInt256) : UInt256 :=
  ofWord32s ((keccakf800 (state2 ++ word32s mix_hash ++ ravencashcoin_kawpow.take 9)).take 8)

structure Result where
  final_hash : UInt256
  mix_hash : UInt256
deriving DecidableEq, Repr

def hash (mix : HashMix) (epoch_number block_number : Int) (header_hash : UInt256)
    (nonce : UInt64) : Result :=
  let state2 := seedState header_hash nonce
  let mix_hash := mix epoch_number (periodNumber block_number) (Keccak.lane state2 0)
    (Keccak.lane state2 1)
  ⟨finalHash state2 mix_hash, mix_hash⟩

def hash_no_verify (_block_number : Int) (header_hash mix_hash : UInt256) (nonce : UInt64) :
    UInt256 :=
  finalHash (seedState header_hash nonce) mix_hash

end ProgPow

theorem tdiv_epoch_of_nonneg {n : Int} (h : 0 ≤ n) : n.tdiv 7500 = (n.tdiv 3).tdiv 2500 := by
  have hperiod : 0 ≤ n / 3 := by omega
  rw [Int.tdiv_eq_ediv_of_nonneg h, Int.tdiv_eq_ediv_of_nonneg h,
    Int.tdiv_eq_ediv_of_nonneg hperiod]
  omega

/-- An epoch is made of whole periods. -/
theorem getEpochNumber_eq (block_number : Int) :
    getEpochNumber block_number = (periodNumber block_number).tdiv 2500 := by
  show block_number.tdiv 7500 = (block_number.tdiv 3).tdiv 2500
  rcases Int.le_total 0 block_number with h | h
  · exact tdiv_epoch_of_nonneg h
  · -- both divisions round towards zero, so a sign can be moved out
    have hneg := tdiv_epoch_of_nonneg (n := -block_number) (by omega)
    rw [Int.neg_tdiv, Int.neg_tdiv, Int.neg_tdiv] at hneg
    omega

end RavenCash
