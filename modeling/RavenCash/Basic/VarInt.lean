import RavenCash.Basic.Serialize

/-!
# Variable-length integers

`WriteVarInt` and `ReadVarInt` of `serialize.h`: digits of base 128, highest first, with the high bit set in all but the
last byte and one subtracted from all but the last digit, so that every number has one form.

A type of 32 or 64 bits is given by its largest value. The writer's buffer has room for `(bits + 6) / 7` bytes, which is
enough (`length_writeVarInt_le`).
-/

set_option autoImplicit false

namespace RavenCash

/-- `(n & 0x7F) | (len ? 0x80 : 0x00)` -/
def varIntDigit (more : Bool) (n : Nat) : UInt8 := (n % 128 + if more then 128 else 0).toUInt8

/-- The bytes of the buffer `tmp` from some place on; `more` says whether there are bytes before it. -/
def varIntDigits (more : Bool) (n : Nat) : List UInt8 :=
  if n ≤ 0x7F then [varIntDigit more n] else varIntDigit more n :: varIntDigits true (n / 128 - 1)
termination_by n
decreasing_by omega

def writeVarInt (n : Nat) : List UInt8 := (varIntDigits false n).reverse

/-- The loop of `ReadVarInt`, for a type with this largest value. -/
def readVarIntFrom (max : Nat) : Nat → List UInt8 → Option (Nat × List UInt8)
  | _, [] => none
  | n, chData :: s =>
      if max / 128 < n then none
      else
        let n := n * 128 + chData.toNat % 128
        if 128 ≤ chData.toNat then
          if n = max then none else readVarIntFrom max (n + 1) s
        else some (n, s)

def readVarInt (max : Nat) : Reader Nat := readVarIntFrom max 0

theorem toNat_varIntDigit (more : Bool) (n : Nat) : (varIntDigit more n).toNat = n % 128 + if more then 128 else 0 := by
  rw [varIntDigit, Nat.toUInt8_eq, UInt8.toNat_ofNat']
  cases more <;> simp <;> omega

/-- A byte is the digit of every number that ends in its lower bits. -/
theorem varIntDigit_eq {chData : UInt8} {more : Bool} (hmore : more = true ↔ 128 ≤ chData.toNat) (n : Nat) :
    varIntDigit more (n * 128 + chData.toNat % 128) = chData := by
  have hbyte := chData.toNat_lt
  refine UInt8.toNat_inj.mp ?_
  rw [toNat_varIntDigit]
  split_ifs with h
  · have := hmore.mp h
    omega
  · have := hmore.not.mp h
    omega

/-- The bytes of the higher digits `n`, if there are any. -/
def varIntLead (n : Nat) : List UInt8 := if n = 0 then [] else varIntDigits true (n - 1)

theorem varIntDigits_eq (more : Bool) (n : Nat) : varIntDigits more n = varIntDigit more n :: varIntLead (n / 128) := by
  rw [varIntDigits, varIntLead]
  by_cases hlast : n ≤ 0x7F
  · rw [if_pos hlast, if_pos (by omega)]
  · rw [if_neg hlast, if_neg (by omega)]

theorem varIntLead_succ (n : Nat) : varIntLead (n + 1) = varIntDigit true n :: varIntLead (n / 128) := by
  rw [varIntLead, if_neg (Nat.succ_ne_zero n), Nat.add_sub_cancel, varIntDigits_eq]

/-! ## What is written is read back -/

variable {max : Nat}

/-- A byte with the high bit goes on, with one more. -/
theorem readVarIntFrom_more {n m : Nat} (hn : n = m / 128) (hm : m < max) (s : List UInt8) :
    readVarIntFrom max n (varIntDigit true m :: s) = readVarIntFrom max (m + 1) s := by
  have hfit := Nat.div_le_div_right (c := 128) hm.le
  rw [readVarIntFrom, toNat_varIntDigit, if_pos rfl, if_neg (by omega)]
  dsimp only
  rw [if_pos (by omega), show n * 128 + (m % 128 + 128) % 128 = m by omega, if_neg (by omega)]

/-- A byte without it is the last. -/
theorem readVarIntFrom_last {n m : Nat} (hn : n = m / 128) (hm : m ≤ max) (s : List UInt8) :
    readVarIntFrom max n (varIntDigit false m :: s) = some (m, s) := by
  have hfit := Nat.div_le_div_right (c := 128) hm
  rw [readVarIntFrom, toNat_varIntDigit, if_neg Bool.false_ne_true, if_neg (by omega)]
  dsimp only
  rw [if_neg (by omega), show n * 128 + (m % 128 + 0) % 128 = m by omega]

/-- The bytes before the last one lead to their number. -/
theorem readVarIntFrom_lead {n : Nat} (hn : n ≤ max) (s : List UInt8) :
    readVarIntFrom max 0 ((varIntLead n).reverse ++ s) = readVarIntFrom max n s := by
  induction n using Nat.strongRecOn generalizing s with
  | ind n ih =>
      cases n with
      | zero => rfl
      | succ n =>
          rw [varIntLead_succ, List.reverse_cons, List.append_assoc, ih _ (by omega) (by omega)]
          exact readVarIntFrom_more rfl hn s

/-- **Round trip**, with any bytes behind. -/
theorem readVarInt_writeVarInt {n : Nat} (hn : n ≤ max) (s : List UInt8) :
    readVarInt max (writeVarInt n ++ s) = some (n, s) := by
  rw [readVarInt, writeVarInt, varIntDigits_eq, List.reverse_cons, List.append_assoc, readVarIntFrom_lead (by omega)]
  exact readVarIntFrom_last rfl hn s

/-! ## What is read was written so -/

/-- What one byte does, if the loop does not throw. -/
theorem readVarIntFrom_cons {n m : Nat} {chData : UInt8} {s rest : List UInt8}
    (h : readVarIntFrom max n (chData :: s) = some (m, rest)) : n ≤ max / 128 ∧
      (128 ≤ chData.toNat ∧ readVarIntFrom max (n * 128 + chData.toNat % 128 + 1) s = some (m, rest) ∨
        ¬ 128 ≤ chData.toNat ∧ m = n * 128 + chData.toNat % 128 ∧ rest = s) := by
  rw [readVarIntFrom] at h
  split_ifs at h with hlarge hmore
  · refine ⟨by omega, .inl ⟨hmore, ?_⟩⟩
    dsimp only at h
    split_ifs at h
    exact h
  · obtain ⟨rfl, rfl⟩ := Prod.mk.inj (Option.some.inj h)
    exact ⟨by omega, .inr ⟨hmore, rfl, rfl⟩⟩

/-- **One form for every number**: whatever is read are the bytes that are written for the number. -/
theorem eq_of_readVarIntFrom {n m : Nat} {s rest : List UInt8} (h : readVarIntFrom max n s = some (m, rest)) :
    (varIntLead n).reverse ++ s = writeVarInt m ++ rest := by
  induction s generalizing n with
  | nil => exact nomatch h
  | cons chData s ih =>
      have hdiv : (n * 128 + chData.toNat % 128) / 128 = n := by omega
      obtain ⟨-, ⟨hmore, hnext⟩ | ⟨hlast, rfl, rfl⟩⟩ := readVarIntFrom_cons h
      · rw [← ih hnext, varIntLead_succ, hdiv, varIntDigit_eq (iff_of_true rfl hmore), List.reverse_cons,
          List.append_assoc]
        rfl
      · rw [writeVarInt, varIntDigits_eq, hdiv, varIntDigit_eq (iff_of_false Bool.false_ne_true hlast),
          List.reverse_cons,
          List.append_assoc]
        rfl

theorem eq_of_readVarInt {m : Nat} {s rest : List UInt8} (h : readVarInt max s = some (m, rest)) :
    s = writeVarInt m ++ rest :=
  eq_of_readVarIntFrom h

theorem le_of_readVarIntFrom (hmax : max % 128 = 127) {n m : Nat} {s rest : List UInt8}
    (h : readVarIntFrom max n s = some (m, rest)) : m ≤ max := by
  induction s generalizing n with
  | nil => exact nomatch h
  | cons chData s ih =>
      obtain ⟨hfit, ⟨-, hnext⟩ | ⟨-, rfl, -⟩⟩ := readVarIntFrom_cons h
      · exact ih hnext
      · omega

/-- **One code for every number** of an unsigned type: it is read from the bytes that are written for it and from no
others, whatever follows. -/
theorem readVarInt_eq_some_iff {w : Nat} (hw : 7 ≤ w) {m : Nat} {s rest : List UInt8} :
    readVarInt (2 ^ w - 1) s = some (m, rest) ↔ m < 2 ^ w ∧ s = writeVarInt m ++ rest := by
  have hpow : 2 ^ w = 128 * 2 ^ (w - 7) := by rw [← Nat.pow_add 2 7, Nat.add_sub_cancel' hw]
  have hpos : 0 < 2 ^ (w - 7) := Nat.two_pow_pos _
  constructor
  · intro h
    have hle := le_of_readVarIntFrom (by omega) h
    exact ⟨by omega, eq_of_readVarInt h⟩
  · rintro ⟨hm, rfl⟩
    exact readVarInt_writeVarInt (by omega) rest

theorem bytes_of_300 : 300 < 2 ^ 64 ∧ [0x81, 0x2c, 5] = writeVarInt 300 ++ [5] :=
  (readVarInt_eq_some_iff (show 7 ≤ 64 by decide)).mp (by decide)

/-! ## Sizes -/

theorem length_varIntDigits_le {more : Bool} {n k : Nat} (hn : n < 128 ^ (k + 1)) :
    (varIntDigits more n).length ≤ k + 1 := by
  induction k generalizing n more with
  | zero =>
      rw [varIntDigits, if_pos (by omega)]
      exact le_rfl
  | succ k ih =>
      rw [varIntDigits]
      split_ifs
      · rw [List.length_singleton]
        omega
      · have hsmaller := Nat.div_lt_of_lt_mul (by rwa [pow_succ'] at hn)
        rw [List.length_cons]
        exact Nat.succ_le_succ (ih (by omega))

/-- Five bytes are enough for 32 bits, ten for 64. -/
theorem length_writeVarInt_le {n k : Nat} (hn : n < 128 ^ (k + 1)) : (writeVarInt n).length ≤ k + 1 := by
  rw [writeVarInt, List.length_reverse]
  exact length_varIntDigits_le hn

/-- A number of 32 bits takes at most five bytes from the stream. -/
theorem length_of_readVarInt {m : Nat} {s rest : List UInt8} (h : readVarInt 0xffffffff s = some (m, rest)) :
    s.length ≤ rest.length + 5 := by
  have hm : m ≤ 0xffffffff := le_of_readVarIntFrom (by decide) h
  have hlen : (writeVarInt m).length ≤ 4 + 1 := length_writeVarInt_le (hm.trans_lt (by decide))
  rw [eq_of_readVarInt h, List.length_append]
  omega

end RavenCash
