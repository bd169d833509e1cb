import RavenCash.Validation.Payments

/-!
# The coins the block subsidies create

`GetBlockSubsidy` pays in stages of a million blocks, and after the last of them a tail of
`0.01` coins for ever. The stages add up to `MAX_MONEY` to the last satoshi, so the tail is what the
supply has in excess of it.
-/

namespace RavenCash

/-- The subsidies of the blocks at the heights `1` to `H`, added up without wrapping. -/
def blockSupply (H : Nat) : Int :=
  ((List.range H).map fun nPrevHeight => (getBlockSubsidy (nPrevHeight : Int)).toInt).sum

theorem blockSupply_zero : blockSupply 0 = 0 := rfl

theorem blockSupply_succ (H : Nat) :
    blockSupply (H + 1) = blockSupply H + (getBlockSubsidy (H : Int)).toInt := by
  simp [blockSupply, List.range_succ]

/-- Every block creates coins, so the supply has no last value. -/
theorem blockSupply_strictMono : StrictMono blockSupply := by
  refine strictMono_nat_of_lt_succ fun H => ?_
  have hpos := (getBlockSubsidy_range (H : Int)).1
  rw [blockSupply_succ]
  omega

/-- A stage of `n` blocks that all pay `reward` adds `n * reward`. -/
theorem blockSupply_stage (start : Nat) {reward : Int} (n : Nat)
    (hstage : ∀ nPrevHeight : Nat, start ≤ nPrevHeight → nPrevHeight < start + n →
      (getBlockSubsidy (nPrevHeight : Int)).toInt = reward) :
    blockSupply (start + n) = blockSupply start + n * reward := by
  induction n with
  | zero => simp
  | succ n ih =>
    have hfirst : blockSupply (start + n) = blockSupply start + n * reward :=
      ih fun nPrevHeight hle hlt => hstage nPrevHeight hle (by omega)
    have hlast : (getBlockSubsidy ((start + n : Nat) : Int)).toInt = reward :=
      hstage (start + n) (by omega) (by omega)
    calc blockSupply (start + (n + 1))
        = blockSupply (start + n) + (getBlockSubsidy ((start + n : Nat) : Int)).toInt :=
          blockSupply_succ (start + n)
      _ = blockSupply start + n * reward + reward := by rw [hfirst, hlast]
      _ = blockSupply start + (n + 1 : Nat) * reward := by push_cast; ring

/-- The subsidy halves every million blocks, nine stages long. -/
theorem getBlockSubsidy_halving {k : Nat} (hk : k < 9) {nPrevHeight : Int}
    (hlo : k * 1000000 < nPrevHeight) (hhi : nPrevHeight ≤ (k + 1) * 1000000) :
    (getBlockSubsidy nPrevHeight).toInt = 10000000000 / 2 ^ k := by
  unfold getBlockSubsidy
  interval_cases k <;> push_cast at hlo hhi
  -- the tests of the stages before fail, and that of the stage itself does not
  all_goals
    repeat rw [if_neg (by omega)]
    rw [if_pos (by omega)]
    decide

/-- The supply after `k` stages: the premine and the geometric sum of the rewards. -/
theorem blockSupply_stages {k : Nat} (hk : k ≤ 9) :
    blockSupply (k * 1000000 + 1) =
      100000000000000 + 1000000 * (20000000000 - 20000000000 / 2 ^ k) := by
  induction k with
  | zero => rw [blockSupply_succ, Nat.zero_mul, blockSupply_zero]; decide
  | succ k ih =>
    have hstage := blockSupply_stage (k * 1000000 + 1) 1000000 fun nPrevHeight hle hlt =>
      getBlockSubsidy_halving (show k < 9 by omega)
        (show (k * 1000000 : Int) < nPrevHeight by omega) (by omega)
    rw [show (k + 1) * 1000000 + 1 = k * 1000000 + 1 + 1000000 by ring, hstage, ih (by omega)]
    have hk' : k < 9 := by omega
    interval_cases k <;> norm_num

/-- The premine and the nine stages together create `MAX_MONEY`, to the last satoshi. -/
theorem blockSupply_last_stage : blockSupply 9000001 = MAX_MONEY.toInt := by
  rw [toInt_MAX_MONEY]
  exact blockSupply_stages (k := 9) le_rfl

/-- The subsidies keep below `MAX_MONEY` as long as the stages last, and no longer: the constant is
the sanity bound on one amount, and the tail goes on past it. -/
theorem blockSupply_le_MAX_MONEY_iff (H : Nat) :
    blockSupply H ≤ MAX_MONEY.toInt ↔ H ≤ 9000001 := by
  rw [← blockSupply_last_stage]
  exact blockSupply_strictMono.le_iff_le

/-- The first block of the tail exceeds `MAX_MONEY`. -/
theorem blockSupply_tail_exceeds : ¬ blockSupply 9000002 ≤ MAX_MONEY.toInt := by
  rw [← blockSupply_last_stage, not_le]
  exact blockSupply_strictMono (by decide)

end RavenCash
