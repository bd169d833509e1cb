import RavenCash.Validation.ConnectBlock

/-!
# Payments and their limits

The parameters of the payments to smartnodes, the founder and superblocks, the limits of a superblock, and the
exact meaning of `GetValueOut` (`getValueOut_ok`).
-/

set_option autoImplicit false

namespace RavenCash

/-! ## Parameters -/

structure Collateral where
  height : Int
  amount : CAmount
deriving DecidableEq, Repr

structure RewardPercentage where
  height : Int
  percentage : Int64
deriving DecidableEq, Repr

structure SmartnodeCollaterals where
  collaterals : List Collateral := []
  rewardPercentages : List RewardPercentage := []
deriving DecidableEq, Repr

/-- **The parameters of the payments.** The shares of the founder and of the smartnode leave the miner
a part that is not negative, and superblocks do not start before the premine is spent. -/
structure CPaymentParams where
  params : CAssetParams
  nCollaterals : SmartnodeCollaterals
  nBudgetPaymentsStartBlock : Int
  nBudgetPaymentsCycleBlocks : Int
  nBudgetPaymentsWindowBlocks : Int
  nSuperblockStartBlock : Int
  nSuperblockCycle : Int
  founder_range : ∀ r ∈ params.nFounderPayment.rewardStructures,
    0 ≤ r.rewardPercentage.toInt ∧ r.rewardPercentage.toInt ≤ 100
  smartnode_range : ∀ it ∈ nCollaterals.rewardPercentages,
    0 ≤ it.percentage.toInt ∧ it.percentage.toInt ≤ 100
  balanced : ∀ r ∈ params.nFounderPayment.rewardStructures, ∀ it ∈ nCollaterals.rewardPercentages,
    r.rewardPercentage.toInt + it.percentage.toInt ≤ 100
  superblock_start : 2 ≤ nSuperblockStartBlock
  superblock_cycle : 0 ≤ nSuperblockCycle ∧ nSuperblockCycle ≤ 100000000

def mainPaymentParams : CPaymentParams where
  params := mainAssetParams
  nCollaterals := ⟨[⟨INT_MAX, 65000 * COIN⟩], [⟨125, 0⟩, ⟨INT_MAX, 65⟩]⟩
  nBudgetPaymentsStartBlock := 99999999
  nBudgetPaymentsCycleBlocks := 99999999
  nBudgetPaymentsWindowBlocks := 100
  nSuperblockStartBlock := 99999999
  nSuperblockCycle := 99999999
  founder_range := by decide
  smartnode_range := by decide
  balanced := by decide
  superblock_start := by decide
  superblock_cycle := by decide

/-! ## Superblocks -/

def CPaymentParams.isValidBlockHeight (p : CPaymentParams) (nBlockHeight : Int) : Bool :=
  decide (p.nSuperblockStartBlock ≤ nBlockHeight) && nBlockHeight % p.nSuperblockCycle == 0

def CPaymentParams.getPaymentsLimit (p : CPaymentParams) (nBlockHeight : Int) : CAmount :=
  if p.isValidBlockHeight nBlockHeight then
    getBlockSubsidy (nBlockHeight - 1) * Int64.ofInt p.nSuperblockCycle
  else 0

/-! ## The schedules -/

theorem getBlockSubsidy_range (nPrevHeight : Int) :
    0 < (getBlockSubsidy nPrevHeight).toInt ∧
      (getBlockSubsidy nPrevHeight).toInt ≤ 100000000000000 := by
  unfold getBlockSubsidy
  split_ifs <;> decide

/-! ## The outputs -/

theorem toInt_MAX_MONEY : MAX_MONEY.toInt = 20060937500000000 := by decide

theorem moneyRange_iff {nValue : CAmount} :
    moneyRange nValue = true ↔ 0 ≤ nValue.toInt ∧ nValue.toInt ≤ 20060937500000000 := by
  have hzero : (0 : Int64).toInt = 0 := rfl
  rw [moneyRange, Bool.and_eq_true, decide_eq_true_eq, decide_eq_true_eq, Int64.le_iff_toInt_le,
    Int64.le_iff_toInt_le, toInt_MAX_MONEY, hzero]

/-- **`GetValueOut` is the exact sum**, and does not throw exactly when values and sum are in range. -/
theorem getValueOut_ok {vout : List CTxOut} {nValueOut r : CAmount}
    (hacc : moneyRange nValueOut = true) :
    getValueOut nValueOut vout = .ok r ↔
      (∀ out ∈ vout, 0 ≤ out.nValue.toInt) ∧
        r.toInt = nValueOut.toInt + (vout.map (fun out => out.nValue.toInt)).sum ∧
        moneyRange r = true := by
  induction vout generalizing nValueOut with
  | nil =>
      simp only [getValueOut, Except.ok.injEq, List.map_nil, List.sum_nil, Int.add_zero,
        Int64.toInt_inj]
      constructor
      · rintro rfl
        exact ⟨fun _ h => (by cases h), rfl, hacc⟩
      · rintro ⟨_, rfl, _⟩
        rfl
  | cons out vout ih =>
      rw [List.forall_mem_cons, List.map_cons, List.sum_cons, getValueOut, bind_ok]
      simp only [failIf_ok, Bool.or_eq_false_iff, Bool.not_eq_false', exists_and_left, exists_const]
      have haccRange := moneyRange_iff.mp hacc
      constructor
      · rintro ⟨⟨hout, hsum⟩, h⟩
        have houtRange := moneyRange_iff.mp hout
        have hadd : (nValueOut + out.nValue).toInt = nValueOut.toInt + out.nValue.toInt :=
          toInt_add_of_bounds (by omega) (by omega)
        obtain ⟨hrest, hr, hrange⟩ := (ih hsum).mp h
        exact ⟨⟨houtRange.1, hrest⟩, by rw [hr, hadd]; omega, hrange⟩
      · rintro ⟨⟨hout, hrest⟩, hr, hrange⟩
        have hsum : 0 ≤ (vout.map (fun out => out.nValue.toInt)).sum := by
          apply List.sum_nonneg
          intro v hv
          obtain ⟨other, hother, rfl⟩ := List.mem_map.mp hv
          exact hrest other hother
        have hrRange := moneyRange_iff.mp hrange
        have hadd : (nValueOut + out.nValue).toInt = nValueOut.toInt + out.nValue.toInt :=
          toInt_add_of_bounds (by omega) (by omega)
        have hpartial : moneyRange (nValueOut + out.nValue) = true :=
          moneyRange_iff.mpr (by rw [hadd]; omega)
        refine ⟨⟨moneyRange_iff.mpr (by omega), hpartial⟩, (ih hpartial).mpr ⟨hrest, ?_, hrange⟩⟩
        rw [hr, hadd]
        omega

end RavenCash
