import Mathlib.Data.List.TakeWhile
import RavenCash.Basic.Encoding

/-!
# Reading base58 and hexadecimal

`DecodeBase58` of `base58.cpp` and `ParseHex` of `utilstrencodings`. Both pass over white space, and
`ParseHex` takes digits of either case, so a text need not be the one that is written for its bytes.
What `DecodeBase58` has decoded is written as the text without the white space.
-/

set_option autoImplicit false

namespace RavenCash

/-! ## Base58 -/

def isSpace (c : UInt8) : Bool := c == 32 || (9 ≤ c && c ≤ 13)

/-- What a `c_str` shows of a string. -/
def cString (str : StdString) : StdString := str.takeWhile fun c => c != 0

/-- The place of a character in the alphabet, by `strchr`. -/
def base58Digit (c : UInt8) : Option Nat :=
  if pszBase58.contains c then some (pszBase58.idxOf c) else none

def decodeBase58 (str : StdString) : Option (List UInt8) :=
  let psz := (cString str).dropWhile isSpace
  let zeroes := (psz.takeWhile fun c => c == 49).length
  let text := psz.dropWhile fun c => c == 49
  let size := text.length * 733 / 1000 + 1
  match (text.takeWhile fun c => !isSpace c).mapM base58Digit with
  | none => none
  | some digits =>
    if (text.dropWhile fun c => !isSpace c).dropWhile isSpace ≠ [] then none
    else
      let b256 := digitsBE 256 size (digits.foldl (fun n ch => n * 58 + ch) 0) []
      some (List.replicate zeroes 0 ++ b256.map Nat.toUInt8)

theorem digitsBE_eq {base : Nat} (hbase : 1 < base) {size n : Nat} (h : (Nat.digits base n).length ≤ size)
    (l : List Nat) : digitsBE base size n l = (Nat.digits base n).reverse ++ l := by
  induction size generalizing n l with
  | zero => rw [digitsBE, List.length_eq_zero_iff.mp (Nat.le_zero.mp h), List.reverse_nil, List.nil_append]
  | succ size ih =>
    rw [digitsBE]
    split
    · next hn => rw [hn, Nat.digits_zero, List.reverse_nil, List.nil_append]
    · next hn =>
      have hdigits := Nat.digits_def' hbase (Nat.pos_of_ne_zero hn)
      rw [hdigits, List.length_cons] at h
      rw [ih (Nat.le_of_succ_le_succ h), hdigits, List.reverse_cons, List.append_assoc, List.singleton_append]

theorem leNat_eq_ofDigits (l : List UInt8) : leNat l = Nat.ofDigits 256 (l.map UInt8.toNat) := by
  induction l with
  | nil => rfl
  | cons b l ih => rw [leNat, ih, List.map_cons, Nat.ofDigits_cons]

theorem map_toNat_toUInt8 {l : List Nat} (h : ∀ d ∈ l, d < 256) : (l.map Nat.toUInt8).map UInt8.toNat = l := by
  rw [List.map_map]
  conv_rhs => rw [← List.map_id l]
  refine List.map_congr_left fun d hd => ?_
  show (d.toUInt8).toNat = d
  rw [Nat.toUInt8_eq, UInt8.toNat_ofNat', Nat.mod_eq_of_lt (h d hd)]

theorem foldl_digits (digits : List Nat) :
    digits.foldl (fun n ch => n * 58 + ch) 0 = Nat.ofDigits 58 digits.reverse := by
  rw [Nat.ofDigits_eq_foldr, List.foldr_reverse]
  congr 1
  funext n ch
  rw [Nat.cast_id, Nat.add_comm, Nat.mul_comm]

theorem base58Digit_spec {c : UInt8} {d : Nat} (h : base58Digit c = some d) :
    d < 58 ∧ pszBase58.getD d 0 = c := by
  rw [base58Digit] at h
  split at h
  · next hmem =>
    have hlt := List.idxOf_lt_length_iff.mpr (List.contains_iff_mem.mp hmem)
    cases h
    refine ⟨hlt, ?_⟩
    rw [List.getD_eq_getElem?_getD, List.getElem?_eq_getElem hlt, List.getElem_idxOf hlt, Option.getD_some]
  · cases h

theorem mapM_base58Digit {word : StdString} {digits : List Nat} (h : word.mapM base58Digit = some digits) :
    digits.map (fun d => pszBase58.getD d 0) = word ∧ ∀ d ∈ digits, d < 58 := by
  induction word generalizing digits with
  | nil =>
    cases h
    exact ⟨rfl, nofun⟩
  | cons c word ih =>
    rw [List.mapM_cons] at h
    obtain ⟨d, hd, h⟩ := Option.bind_eq_some_iff.mp h
    obtain ⟨ds, hds, h⟩ := Option.bind_eq_some_iff.mp h
    cases h
    obtain ⟨hlt, hc⟩ := base58Digit_spec hd
    exact ⟨by rw [List.map_cons, hc, (ih hds).1], List.forall_mem_cons.mpr ⟨hlt, (ih hds).2⟩⟩

/-- Zero bytes in front are counted, and the rest is the number in base 58. -/
theorem encodeBase58_replicate (zeroes n : Nat) (hsize : (Nat.digits 58 n).length ≤
      (Nat.digits 256 n).length * 138 / 100 + 1) :
    encodeBase58 (List.replicate zeroes 0 ++ (Nat.digits 256 n).reverse.map Nat.toUInt8) =
      List.replicate zeroes 49 ++ (Nat.digits 58 n).reverse.map (fun d => pszBase58.getD d 0) := by
  have hbytes : ∀ d ∈ Nat.digits 256 n, d < 256 := fun d hd => Nat.digits_lt_base (by norm_num) hd
  -- the first byte of the number is not zero
  have hhead : ∀ b ∈ ((Nat.digits 256 n).reverse.map Nat.toUInt8).head?, (b == 0) = false := by
    intro b hb
    rw [Option.mem_def, List.head?_map, List.head?_reverse, Option.map_eq_some_iff] at hb
    obtain ⟨d, hd, rfl⟩ := hb
    have hne : n ≠ 0 := by
      rintro rfl
      cases hd
    have hlast := Nat.getLast_digit_ne_zero 256 hne
    rw [List.getLast?_eq_some_getLast (Nat.digits_ne_nil_iff_ne_zero.mpr hne), Option.some.injEq] at hd
    rw [hd] at hlast
    have hlt : d < 256 := hbytes d (hd ▸ List.getLast_mem _)
    rw [beq_eq_false_iff_ne]
    intro hzero
    have := congrArg UInt8.toNat hzero
    rw [Nat.toUInt8_eq, UInt8.toNat_ofNat', Nat.mod_eq_of_lt hlt] at this
    exact hlast this
  generalize hD : (Nat.digits 256 n).reverse.map Nat.toUInt8 = D at hhead
  have hones : ∀ b ∈ List.replicate zeroes (0 : UInt8), (b == 0) = true := fun b hb => by
    rw [List.eq_of_mem_replicate hb]; rfl
  have htake : (List.replicate zeroes 0 ++ D).takeWhile (fun b => b == 0) = List.replicate zeroes 0 := by
    rw [List.takeWhile_append_of_pos hones]
    cases D with
    | nil => simp
    | cons b D => rw [List.takeWhile_cons_of_neg (by simp [hhead b rfl]), List.append_nil]
  have hdrop : (List.replicate zeroes 0 ++ D).dropWhile (fun b => b == 0) = D := by
    rw [List.dropWhile_append_of_pos hones]
    cases D with
    | nil => rfl
    | cons b D => exact List.dropWhile_cons_of_neg (by simp [hhead b rfl])
  have hvalue : leNat D.reverse = n := by
    rw [leNat_eq_ofDigits, ← hD, ← List.map_reverse, List.reverse_reverse, map_toNat_toUInt8 hbytes,
      Nat.ofDigits_digits]
  have hlen : D.length = (Nat.digits 256 n).length := by rw [← hD, List.length_map, List.length_reverse]
  rw [encodeBase58]
  simp only [htake, hdrop, hvalue, hlen, List.length_replicate]
  rw [digitsBE_eq (by norm_num) hsize, List.append_nil]
  rfl

theorem pow_58_le {k : Nat} (h : k ≤ 46) : 58 ^ k ≤ 256 ^ (k * 733 / 1000 + 1) :=
  (by decide +kernel : ∀ k ≤ 46, 58 ^ k ≤ 256 ^ (k * 733 / 1000 + 1)) k h

theorem pow_256_le {k : Nat} (h : k ≤ 34) : 256 ^ k ≤ 58 ^ (k * 138 / 100 + 1) :=
  (by decide +kernel : ∀ k ≤ 34, 256 ^ k ≤ 58 ^ (k * 138 / 100 + 1)) k h

/-- What a text of no more than 46 characters is decoded to is written as the text without the white
space around it. -/
theorem encodeBase58_decodeBase58 {str : StdString} {vch : List UInt8} (h : decodeBase58 str = some vch)
    (hlen : str.length ≤ 46) : (encodeBase58 vch).Sublist str := by
  simp only [decodeBase58] at h
  generalize hpsz : (cString str).dropWhile isSpace = psz at h
  generalize htext : psz.dropWhile (fun c => c == 49) = text at h
  split at h
  · cases h
  next digits hdigits =>
  split at h
  · cases h
  cases h
  obtain ⟨hword, hlt⟩ := mapM_base58Digit hdigits
  have hstr : psz.Sublist str := by
    rw [← hpsz]
    exact (List.dropWhile_sublist _).trans (List.takeWhile_sublist _)
  have htextlen : text.length ≤ 46 := by
    rw [← htext]
    exact (List.dropWhile_sublist _).length_le.trans (hstr.length_le.trans hlen)
  have hwordlen : digits.length ≤ text.length := by
    have hlength := congrArg List.length hword
    rw [List.length_map] at hlength
    rw [hlength]
    exact (List.takeWhile_sublist _).length_le
  -- the text does not begin with the digit zero, so its digits are those of the number
  have hhead : ∀ hne : digits.reverse ≠ [], digits.reverse.getLast hne ≠ 0 := by
    intro hne hzero
    obtain ⟨d, ds, rfl⟩ := List.exists_cons_of_ne_nil (List.reverse_ne_nil_iff.mp hne)
    obtain rfl : d = 0 := by simpa using hzero
    have hfirst := List.head?_dropWhile_not (fun c : UInt8 => c == 49) psz
    rw [htext] at hfirst
    cases text with
    | nil => cases hword
    | cons c text =>
      rw [List.takeWhile_cons] at hword
      split at hword
      · rw [List.map_cons, List.cons.injEq] at hword
        rw [List.head?_cons, ← hword.1] at hfirst
        cases hfirst
      · cases hword
  have hcanon := Nat.digits_ofDigits 58 (by norm_num) digits.reverse
    (fun d hd => hlt d (List.mem_reverse.mp hd)) hhead
  rw [foldl_digits]
  generalize Nat.ofDigits 58 digits.reverse = n at hcanon
  have hn : n < 58 ^ digits.length := by
    rw [← Nat.digits_length_le_iff (by norm_num), hcanon, List.length_reverse]
  have hbytes : (Nat.digits 256 n).length ≤ text.length * 733 / 1000 + 1 := by
    rw [Nat.digits_length_le_iff (by norm_num)]
    calc n < 58 ^ digits.length := hn
      _ ≤ 58 ^ text.length := Nat.pow_le_pow_right (by norm_num) hwordlen
      _ ≤ 256 ^ (text.length * 733 / 1000 + 1) := pow_58_le htextlen
  have hsize : (Nat.digits 58 n).length ≤ (Nat.digits 256 n).length * 138 / 100 + 1 := by
    rw [Nat.digits_length_le_iff (by norm_num)]
    calc n < 256 ^ (Nat.digits 256 n).length := Nat.lt_base_pow_length_digits (by norm_num)
      _ ≤ 58 ^ ((Nat.digits 256 n).length * 138 / 100 + 1) := pow_256_le (by omega)
  rw [digitsBE_eq (by norm_num) hbytes, List.append_nil, encodeBase58_replicate _ _ hsize, hcanon,
    List.reverse_reverse, hword]
  have hones : List.replicate (psz.takeWhile fun c => c == 49).length 49 = psz.takeWhile fun c => c == 49 :=
    (List.eq_replicate_iff.mpr ⟨rfl, fun c hc =>
      eq_of_beq (List.mem_takeWhile_imp (p := fun c : UInt8 => c == 49) hc)⟩).symm
  rw [hones]
  refine ((List.Sublist.refl _).append (List.takeWhile_sublist _)).trans ?_
  rw [← htext, List.takeWhile_append_dropWhile]
  exact hstr

/-! ## Hexadecimal -/

def hexDigit (c : UInt8) : Option Nat :=
  if 48 ≤ c && c ≤ 57 then some (c.toNat - 48)
  else if 97 ≤ c && c ≤ 102 then some (c.toNat - 87)
  else if 65 ≤ c && c ≤ 70 then some (c.toNat - 55)
  else none

def parseHex : StdString → List UInt8
  | [] => []
  | c :: str =>
    if isSpace c then parseHex str
    else
      match str with
      | [] => []
      | c' :: str =>
        match hexDigit c, hexDigit c' with
        | some hi, some lo => (16 * hi + lo).toUInt8 :: parseHex str
        | _, _ => []

def isUpperHex (c : UInt8) : Bool := 65 ≤ c && c ≤ 70

/-- The digit that `HexStr` writes for it. -/
def lowerHex (c : UInt8) : UInt8 := if isUpperHex c then c + 32 else c

theorem hexDigit_spec {c : UInt8} (h : isHexDigit c = true) :
    isSpace c = false ∧ ∃ d < 16, hexDigit c = some d ∧ hexmap.getD d 0 = lowerHex c := by
  rw [isHexDigit, List.contains_iff_mem] at h
  revert c
  decide +kernel

/-- Hexadecimal digits are read and written back in lower case. -/
theorem hexStr_parseHex (str : StdString) (hall : ∀ c ∈ str, isHexDigit c = true) (heven : str.length % 2 = 0) :
    hexStr (parseHex str) = str.map lowerHex ∧ 2 * (parseHex str).length = str.length := by
  match str with
  | [] => exact ⟨rfl, rfl⟩
  | [c] => simp at heven
  | c :: c' :: str =>
    simp only [List.forall_mem_cons] at hall
    obtain ⟨hspace, hi, hhi, hc, hmap⟩ := hexDigit_spec hall.1
    obtain ⟨-, lo, hlo, hc', hmap'⟩ := hexDigit_spec hall.2.1
    have ih := hexStr_parseHex str hall.2.2 (by simp at heven; omega)
    have hbyte : (16 * hi + lo).toUInt8.toNat = 16 * hi + lo := by
      rw [Nat.toUInt8_eq, UInt8.toNat_ofNat', Nat.mod_eq_of_lt (by omega)]
    have hparse : parseHex (c :: c' :: str) = (16 * hi + lo).toUInt8 :: parseHex str := by
      rw [parseHex, hspace]
      simp [hc, hc']
    rw [hparse]
    constructor
    · rw [hexStr, List.flatMap_cons, ← hexStr, ih.1, hbyte, List.map_cons, List.map_cons, ← hmap, ← hmap',
        show (16 * hi + lo) / 16 = hi by omega, show (16 * hi + lo) % 16 = lo by omega]
      rfl
    · rw [List.length_cons, List.length_cons, List.length_cons]
      omega

theorem lowerHex_eq_iff {c : UInt8} : lowerHex c = c ↔ isUpperHex c = false := by
  rw [lowerHex]
  cases isUpperHex c with
  | false => simp
  | true =>
    simp only [↓reduceIte, Bool.true_eq_false, iff_false]
    intro h
    have hnat := congrArg UInt8.toNat h
    rw [UInt8.toNat_add] at hnat
    have hlt := c.toNat_lt
    have h32 : (32 : UInt8).toNat = 32 := rfl
    omega

theorem map_lowerHex_eq_iff {str : StdString} :
    str.map lowerHex = str ↔ ∀ c ∈ str, isUpperHex c = false := by
  induction str with
  | nil => simp
  | cons c str ih => rw [List.map_cons, List.cons.injEq, ih, lowerHex_eq_iff, List.forall_mem_cons]

end RavenCash
