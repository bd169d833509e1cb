import RavenCash.Basic.Serialize

/-!
# Base58 and hexadecimal

`EncodeBase58` of `base58.cpp` and `HexStr`, `IsHex` of `utilstrencodings`. The digit vector that
`EncodeBase58` builds byte by byte is the base 58 notation of the big-endian number.
-/

set_option autoImplicit false

namespace RavenCash

def pszBase58 : StdString := bytes "123456789ABCDEFGHJKLMNPQRSTUVWXYZabcdefghijkmnopqrstuvwxyz"

/-- At most `size` digits of `n` in the base, highest first, in front of `digits`. -/
def digitsBE (base : Nat) : Nat → Nat → List Nat → List Nat
  | 0, _, digits => digits
  | size + 1, n, digits =>
      if n = 0 then digits else digitsBE base size (n / base) (n % base :: digits)

def encodeBase58 (vch : List UInt8) : StdString :=
  let zeroes := (vch.takeWhile (fun b => b == 0)).length
  let rest := vch.dropWhile (fun b => b == 0)
  let b58 := digitsBE 58 (rest.length * 138 / 100 + 1) (leNat rest.reverse) []
  List.replicate zeroes (pszBase58.getD 0 0) ++ b58.map (fun d => pszBase58.getD d 0)

def hexmap : StdString := bytes "0123456789abcdef"

def hexStr (s : List UInt8) : StdString :=
  s.flatMap (fun b => [hexmap.getD (b.toNat / 16) 0, hexmap.getD (b.toNat % 16) 0])

def isHexDigit (b : UInt8) : Bool := (bytes "0123456789abcdefABCDEF").contains b

def isHex (str : StdString) : Bool :=
  str.all isHexDigit && decide (0 < str.length) && decide (str.length % 2 = 0)

end RavenCash
