import RavenCash.Basic.Primitives

/-!
# Numbers as decimal text

What `std::to_string` gives for an integer.
-/

set_option autoImplicit false

namespace RavenCash

def decimal (n : Nat) : StdString :=
  if n = 0 then [48] else ((Nat.digits 10 n).map fun d => (48 + d).toUInt8).reverse

/-- `std::to_string` of an `int`. -/
def toStdString (n : Int) : StdString := if n < 0 then 45 :: decimal n.natAbs else decimal n.natAbs

def isDigit (c : UInt8) : Bool := 48 ≤ c && c ≤ 57

theorem isDigit_of_mem_decimal {n : Nat} {c : UInt8} (h : c ∈ decimal n) : isDigit c = true := by
  rw [decimal] at h
  split at h
  · rw [List.mem_singleton.mp h]
    rfl
  · obtain ⟨d, hd, rfl⟩ := List.mem_map.mp (List.mem_reverse.mp h)
    have hlt := Nat.digits_lt_base (by norm_num) hd
    interval_cases d <;> rfl

theorem ofDigits_decimal (n : Nat) :
    Nat.ofDigits 10 ((decimal n).reverse.map fun c => c.toNat - 48) = n := by
  rw [decimal]
  split
  · next h => rw [h]; rfl
  · rw [List.reverse_reverse, List.map_map]
    have hid : ∀ d ∈ Nat.digits 10 n, ((fun c : UInt8 => c.toNat - 48) ∘ fun d => (48 + d).toUInt8) d = id d := by
      intro d hd
      have hlt := Nat.digits_lt_base (by norm_num) hd
      interval_cases d <;> rfl
    rw [List.map_congr_left hid, List.map_id, Nat.ofDigits_digits]

end RavenCash
