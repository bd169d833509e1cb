import Mathlib.Data.List.Destutter
import RavenCash.Validation.Payments

/-!
# Superblocks pay everybody

`CSuperblock` of `governance-classes.cpp`. The payments of a trigger are the outputs a superblock has to have.
`IsValid` looks for them one after the other, but starts each search at the output it found last: equal payments that
follow each other are all found at one output. So what is checked is that the payments without such repetitions
(`List.destutter`) are outputs in this order.
-/

set_option autoImplicit false

namespace RavenCash.Governance

/-! ## The schedule -/

section

variable [NodeCrypto] (parseFixedPoint : StdString → Nat → Option CAmount)

/-- `SplitBy(s, "|")`: the parts that are not empty. -/
def splitByBar (s : StdString) : List StdString := (s.splitOn 124).filter fun part => !part.isEmpty

def parsePaymentAmount (strAmount : StdString) : Except String CAmount := do
  failIf strAmount.isEmpty "ParsePaymentAmount: Amount is empty"
  failIf (decide (20 < strAmount.length)) "ParsePaymentAmount: Amount string too long"
  failIf (!strAmount.all fun c => (bytes "0123456789.").contains c)
    "ParsePaymentAmount: Amount string contains invalid character"
  failIf (strAmount.head? == some 46)
    "ParsePaymentAmount: Invalid amount string, leading decimal point not allowed"
  failIf (decide (1 < strAmount.count 46)) "ParsePaymentAmount: Invalid amount string, too many decimal points"
  let nAmount ← orFail (parseFixedPoint strAmount 8)
    ("ParsePaymentAmount: ParseFixedPoint failed for string: " ++ text strAmount)
  failIf (!moneyRange nAmount) "ParsePaymentAmount: Invalid amount string, value outside of valid money range"
  return nAmount

/-- The loop of `ParsePaymentSchedule`; a payment is the output it asks for. -/
def parsePayments : List (StdString × StdString) → Except String (List CTxOut)
  | [] => .ok []
  | (strAddress, strAmount) :: rest => do
      let address := NodeCrypto.decodeDestination strAddress
      failIf (!isValidDestination address)
        ("CSuperblock::ParsePaymentSchedule -- Invalid RavenCash Address : " ++ text strAddress)
      failIf (match address with | .scriptID _ => true | _ => false)
        ("CSuperblock::ParsePaymentSchedule -- Script addresses are not supported yet : " ++ text strAddress)
      let nAmount ← parsePaymentAmount parseFixedPoint strAmount
      let vecPayments ← parsePayments rest
      return ⟨nAmount, getScriptForDestination address⟩ :: vecPayments

def parsePaymentSchedule (strPaymentAddresses strPaymentAmounts : StdString) : Except String (List CTxOut) := do
  let vecParsed1 := splitByBar strPaymentAddresses
  let vecParsed2 := splitByBar strPaymentAmounts
  failIf (vecParsed1.length != vecParsed2.length)
    "CSuperblock::ParsePaymentSchedule -- Mismatched payments and amounts"
  failIf vecParsed1.isEmpty "CSuperblock::ParsePaymentSchedule -- Error no payments"
  parsePayments parseFixedPoint (vecParsed1.zip vecParsed2)

/-- A payment of a schedule has an amount in range and a script. -/
theorem parsePayments_ok {parts : List (StdString × StdString)} {payments : List CTxOut}
    (h : parsePayments parseFixedPoint parts = .ok payments) :
    ∀ payment ∈ payments, 0 ≤ payment.nValue.toInt ∧ payment.scriptPubKey ≠ [] := by
  induction parts generalizing payments with
  | nil =>
      cases h
      exact fun _ hp => absurd hp List.not_mem_nil
  | cons part parts ih =>
      obtain ⟨strAddress, strAmount⟩ := part
      simp only [parsePayments, bind_ok, failIf_ok, pure_ok] at h
      obtain ⟨_, hvalid, _, hscript, nAmount, hamount, rest, hrest, rfl⟩ := h
      refine List.forall_mem_cons.mpr ⟨⟨?_, ?_⟩, ih hrest⟩
      · simp only [parsePaymentAmount, bind_ok, failIf_ok, orFail_ok, pure_ok] at hamount
        obtain ⟨_, -, _, -, _, -, _, -, _, -, nAmount', -, _, hrange, rfl⟩ := hamount
        exact (moneyRange_iff.mp (by simpa using hrange)).1
      · cases hdest : NodeCrypto.decodeDestination strAddress with
        | noDestination => simp [hdest, isValidDestination] at hvalid
        | scriptID id => simp [hdest] at hscript
        | keyID id => simp [getScriptForDestination, CScript.op]

end

/-! ## The check of a coinbase -/

def getPaymentsTotalAmount (payments : List CTxOut) : CAmount :=
  payments.foldl (fun total payment => total + payment.nValue) 0

/-- The search for the payments from an output on. The next search starts at the output that was found. -/
def findPayments : List CTxOut → List CTxOut → Bool
  | _, [] => true
  | vout, payment :: payments =>
      match vout.dropWhile (· != payment) with
      | [] => false
      | found :: rest => findPayments (found :: rest) payments

/-- `CSuperblock::IsValid`; `GetValueOut` may throw. -/
def isValidSuperblock (p : CPaymentParams) (payments vout : List CTxOut) (nBlockHeight : Int) (blockReward : CAmount) :
    Except CValidationError Bool :=
  if !p.isValidBlockHeight nBlockHeight then return false
  else if (vout.length : Int) - payments.length < 0 then return false
  else if p.getPaymentsLimit nBlockHeight < getPaymentsTotalAmount payments then return false
  else do
    let nBlockValue ← getValueOut 0 vout
    if blockReward + getPaymentsTotalAmount payments < nBlockValue then return false
    else return findPayments vout payments

/-- The exact sum of some outputs. -/
def amountOf (outs : List CTxOut) : Int := (outs.map fun out => out.nValue.toInt).sum

/-- **The superblock pays everybody**: the payments are different outputs in this order, their exact sum is within the
limit, and the other outputs are within the reward. -/
def PaysEverybody (p : CPaymentParams) (payments vout : List CTxOut) (nBlockHeight : Int) (blockReward : CAmount) :
    Prop :=
  (∃ f : Fin payments.length ↪o Fin vout.length, (∀ i, payments.get i = vout.get (f i)) ∧
    ∑ j ∈ (Finset.univ.map f.toEmbedding)ᶜ, (vout.get j).nValue.toInt ≤ blockReward.toInt) ∧
  amountOf payments ≤ (p.getPaymentsLimit nBlockHeight).toInt

section

variable {payments vout l : List CTxOut} {payment : CTxOut}

/-- A list that starts with another element is not found sooner. -/
theorem cons_sublist_cons_of_ne {out : CTxOut} {t : List CTxOut} (hout : out ≠ payment) :
    (payment :: t).Sublist (out :: l) ↔ (payment :: t).Sublist l := by
  constructor
  · intro h
    cases h with
    | cons _ h => exact h
    | cons_cons _ h => exact absurd rfl hout
  · exact fun h => h.cons _

theorem cons_sublist_dropWhile {t : List CTxOut} :
    (payment :: t).Sublist l ↔ (payment :: t).Sublist (l.dropWhile (· != payment)) := by
  induction l with
  | nil => rfl
  | cons out l ih =>
      rw [List.dropWhile_cons]
      by_cases hout : out = payment
      · rw [if_neg (by simp [hout])]
      · rw [if_pos (by simp [hout]), ← ih, cons_sublist_cons_of_ne hout]

theorem exists_destutter'_eq (payment : CTxOut) (payments : List CTxOut) :
    ∃ t, payments.destutter' (· ≠ ·) payment = payment :: t := by
  induction payments with
  | nil => exact ⟨[], rfl⟩
  | cons next payments ih =>
      rw [List.destutter'_cons]
      split_ifs
      · exact ⟨_, rfl⟩
      · exact ih

theorem findPayments_cons (payment : CTxOut) (payments vout : List CTxOut) :
    findPayments vout (payment :: payments) = true ↔ (payments.destutter' (· ≠ ·) payment).Sublist vout := by
  induction payments generalizing payment vout with
  | nil =>
      rw [List.destutter'_nil, cons_sublist_dropWhile]
      unfold findPayments
      cases hfound : vout.dropWhile (· != payment) with
      | nil => simp
      | cons found rest =>
          have hhead := List.dropWhile_get_zero_not (· != payment) vout (by rw [hfound]; simp)
          simp_all [findPayments]
  | cons next payments ih =>
      obtain ⟨t, ht⟩ := exists_destutter'_eq payment (next :: payments)
      obtain ⟨t', ht'⟩ := exists_destutter'_eq next payments
      rw [ht, cons_sublist_dropWhile, ← ht]
      unfold findPayments
      cases hfound : vout.dropWhile (· != payment) with
      | nil => simp [ht]
      | cons found rest =>
          obtain rfl : found = payment := by
            have hhead := List.dropWhile_get_zero_not (· != payment) vout (by rw [hfound]; simp)
            simpa [hfound] using hhead
          show findPayments (found :: rest) (next :: payments) = true ↔ _
          rw [ih]
          by_cases hsame : next = found
          · -- an equal payment is found at the same output
            subst hsame
            rw [List.destutter'_cons_neg _ (by simp)]
          · rw [List.destutter'_cons_pos _ (by simpa using Ne.symm hsame), List.cons_sublist_cons, ht',
              cons_sublist_cons_of_ne (Ne.symm hsame)]

/-- **What the search finds**: the payments without repetitions are outputs in this order. -/
theorem findPayments_iff : findPayments vout payments = true ↔ (payments.destutter (· ≠ ·)).Sublist vout := by
  cases payments with
  | nil => simp [findPayments]
  | cons payment payments => exact findPayments_cons payment payments vout

theorem amountOf_le_of_sublist (h : l.Sublist vout) (hpos : ∀ out ∈ vout, 0 ≤ out.nValue.toInt) :
    amountOf l ≤ amountOf vout := by
  refine (h.map _).sum_le_sum fun v hv => ?_
  obtain ⟨out, hout, rfl⟩ := List.mem_map.mp hv
  exact hpos out hout

/-- The outputs that are not assigned. -/
theorem sum_unassigned (f : Fin payments.length ↪o Fin vout.length) (hf : ∀ i, payments.get i = vout.get (f i)) :
    ∑ j ∈ (Finset.univ.map f.toEmbedding)ᶜ, (vout.get j).nValue.toInt = amountOf vout - amountOf payments := by
  have hall := Finset.sum_compl_add_sum (Finset.univ.map f.toEmbedding) fun j => (vout.get j).nValue.toInt
  have hvout : ∑ j, (vout.get j).nValue.toInt = amountOf vout :=
    Fin.sum_univ_fun_getElem vout fun out => out.nValue.toInt
  have hpayments : ∑ j ∈ Finset.univ.map f.toEmbedding, (vout.get j).nValue.toInt = amountOf payments := by
    rw [Finset.sum_map]
    calc ∑ i, (vout.get (f i)).nValue.toInt = ∑ i, (payments.get i).nValue.toInt := by simp only [hf]
      _ = amountOf payments := Fin.sum_univ_fun_getElem payments fun out => out.nValue.toInt
  omega

/-- The total is exact where the exact sum is in range. -/
theorem toInt_getPaymentsTotalAmount (hpos : ∀ out ∈ payments, 0 ≤ out.nValue.toInt)
    (hsum : amountOf payments < 2 ^ 63) :
    (getPaymentsTotalAmount payments).toInt = amountOf payments := by
  have hfold : ∀ total : CAmount, 0 ≤ total.toInt → total.toInt + amountOf payments < 2 ^ 63 →
      (payments.foldl (fun total payment => total + payment.nValue) total).toInt = total.toInt + amountOf payments := by
    clear hsum
    induction payments with
    | nil => simp [amountOf]
    | cons payment payments ih =>
        intro total htotal hsum
        obtain ⟨hp, hps⟩ := List.forall_mem_cons.mp hpos
        have hcons : amountOf (payment :: payments) = payment.nValue.toInt + amountOf payments := rfl
        have hrest : 0 ≤ amountOf payments := amountOf_le_of_sublist (List.nil_sublist payments) hps
        have hadd : (total + payment.nValue).toInt = total.toInt + payment.nValue.toInt :=
          toInt_add_of_bounds (by omega) (by omega)
        rw [List.foldl_cons, ih hps _ (by omega) (by omega)]
        omega
  have hzero : (0 : CAmount).toInt = 0 := rfl
  have h := hfold 0 (by omega) (by omega)
  rw [getPaymentsTotalAmount, h, hzero, Int.zero_add]

end

section

variable {p : CPaymentParams} {payments vout : List CTxOut} {nBlockHeight : Int} {blockReward : CAmount}

/-- Some coinbase is accepted: the height is that of a superblock, the computed total is within the limit, and the
outputs that are looked for are within the range of money and the reward with that total. -/
structure Payable (p : CPaymentParams) (payments : List CTxOut) (nBlockHeight : Int) (blockReward : CAmount) :
    Prop where
  height : p.isValidBlockHeight nBlockHeight = true
  limit : getPaymentsTotalAmount payments ≤ p.getPaymentsLimit nBlockHeight
  range : amountOf (payments.destutter (· ≠ ·)) ≤ MAX_MONEY.toInt
  reward : amountOf (payments.destutter (· ≠ ·)) ≤ (blockReward + getPaymentsTotalAmount payments).toInt

theorem isValidSuperblock_iff :
    isValidSuperblock p payments vout nBlockHeight blockReward = .ok true ↔
      p.isValidBlockHeight nBlockHeight = true ∧ payments.length ≤ vout.length ∧
      getPaymentsTotalAmount payments ≤ p.getPaymentsLimit nBlockHeight ∧
      (∀ out ∈ vout, 0 ≤ out.nValue.toInt) ∧ amountOf vout ≤ MAX_MONEY.toInt ∧
      amountOf vout ≤ (blockReward + getPaymentsTotalAmount payments).toInt ∧
      (payments.destutter (· ≠ ·)).Sublist vout := by
  have hmax : MAX_MONEY.toInt = 20060937500000000 := toInt_MAX_MONEY
  have hzero : (0 : CAmount).toInt = 0 := rfl
  unfold isValidSuperblock
  by_cases hheight : p.isValidBlockHeight nBlockHeight = true
  swap
  · simp [hheight, pure, Except.pure]
  by_cases hlength : payments.length ≤ vout.length
  swap
  · have hneg : (vout.length : Int) - payments.length < 0 := by omega
    simp [hheight, hneg, hlength, pure, Except.pure]
  by_cases hlimit : getPaymentsTotalAmount payments ≤ p.getPaymentsLimit nBlockHeight
  swap
  · have hlt : p.getPaymentsLimit nBlockHeight < getPaymentsTotalAmount payments := by simpa using hlimit
    have hneg : ¬ (vout.length : Int) - payments.length < 0 := by omega
    simp [hheight, hneg, hlt, hlimit, pure, Except.pure]
  have hneg : ¬ (vout.length : Int) - payments.length < 0 := by omega
  have hle : ¬ p.getPaymentsLimit nBlockHeight < getPaymentsTotalAmount payments := by simpa using hlimit
  rw [hheight, Bool.not_true, if_neg Bool.false_ne_true, if_neg hneg, if_neg hle, bind_ok]
  constructor
  · rintro ⟨nBlockValue, hvalue, h⟩
    obtain ⟨hpos, hsum, hrange⟩ := (getValueOut_ok (by decide)).mp hvalue
    have hvalue : nBlockValue.toInt = amountOf vout := by rw [hsum, hzero, Int.zero_add]; rfl
    split_ifs at h with hreward
    · cases h
    · have hfound : findPayments vout payments = true := Except.ok.inj h
      rw [Int64.not_lt, Int64.le_iff_toInt_le] at hreward
      have hmoney := (moneyRange_iff.mp hrange).2
      exact ⟨rfl, hlength, hlimit, hpos, by omega, by omega, findPayments_iff.mp hfound⟩
  · rintro ⟨-, -, -, hpos, hmoney, hreward, hfound⟩
    have hnonneg : 0 ≤ amountOf vout := amountOf_le_of_sublist (List.nil_sublist vout) hpos
    have hexact : (Int64.ofInt (amountOf vout)).toInt = amountOf vout :=
      Int64.toInt_ofInt_of_le (by omega) (by omega)
    refine ⟨Int64.ofInt (amountOf vout), (getValueOut_ok (by decide)).mpr ⟨hpos, ?_, moneyRange_iff.mpr (by omega)⟩, ?_⟩
    · rw [hexact, hzero, Int.zero_add]
      rfl
    · have hnot : ¬ blockReward + getPaymentsTotalAmount payments < Int64.ofInt (amountOf vout) := by
        rw [Int64.not_lt, Int64.le_iff_toInt_le]
        omega
      rw [if_neg hnot, findPayments_iff.mpr hfound]
      rfl

/-- An accepted coinbase shows that one is. -/
theorem payable_of_isValid (h : isValidSuperblock p payments vout nBlockHeight blockReward = .ok true) :
    Payable p payments nBlockHeight blockReward := by
  obtain ⟨hheight, -, hlimit, hpos, hmoney, hreward, hfound⟩ := isValidSuperblock_iff.mp h
  have hle := amountOf_le_of_sublist hfound hpos
  exact ⟨hheight, hlimit, by omega, by omega⟩

/-- Without equal neighbours every payment has an output of its own. -/
theorem paysEverybody_of_isChain (hpos : ∀ out ∈ payments, 0 ≤ out.nValue.toInt) (hchain : payments.IsChain (· ≠ ·))
    (h : isValidSuperblock p payments vout nBlockHeight blockReward = .ok true) :
    PaysEverybody p payments vout nBlockHeight blockReward := by
  obtain ⟨-, -, hlimit, hvout, hmoney, hreward, hfound⟩ := isValidSuperblock_iff.mp h
  rw [List.destutter_of_isChain _ _ hchain] at hfound
  have hmax : MAX_MONEY.toInt = 20060937500000000 := toInt_MAX_MONEY
  have hle := amountOf_le_of_sublist hfound hvout
  have hnonneg : 0 ≤ amountOf payments := amountOf_le_of_sublist (List.nil_sublist payments) hpos
  have htotal := toInt_getPaymentsTotalAmount hpos (by omega)
  rw [Int64.le_iff_toInt_le, htotal] at hlimit
  obtain ⟨f, hf⟩ := List.sublist_iff_exists_fin_orderEmbedding_get_eq.mp hfound
  refine ⟨⟨f, hf, ?_⟩, hlimit⟩
  rw [sum_unassigned f hf]
  -- a reward so great that its sum with the total wraps is greater than all money
  by_cases hwrap : blockReward.toInt + amountOf payments < 2 ^ 63
  · have hlo := Int64.le_toInt blockReward
    rw [toInt_add_of_bounds (by omega) (by omega), htotal] at hreward
    omega
  · omega

/-- With equal neighbours, a coinbase with one output for them is accepted. -/
theorem exists_unpaid (hpayments : ∀ out ∈ payments, 0 ≤ out.nValue.toInt ∧ out.scriptPubKey ≠ [])
    (hpayable : Payable p payments nBlockHeight blockReward) (hchain : ¬ payments.IsChain (· ≠ ·)) :
    ∃ vout, isValidSuperblock p payments vout nBlockHeight blockReward = .ok true ∧
      ¬ PaysEverybody p payments vout nBlockHeight blockReward := by
  have hsub := List.destutter_sublist (· ≠ ·) payments
  have hamount : amountOf (payments.destutter (· ≠ ·) ++ List.replicate payments.length ⟨0, []⟩) =
      amountOf (payments.destutter (· ≠ ·)) := by
    have hzero : (0 : CAmount).toInt = 0 := rfl
    simp [amountOf, hzero]
  refine ⟨payments.destutter (· ≠ ·) ++ List.replicate payments.length ⟨0, []⟩,
    isValidSuperblock_iff.mpr ⟨hpayable.height, by simp, hpayable.limit, fun out hout => ?_, hamount ▸ hpayable.range,
      hamount ▸ hpayable.reward, List.sublist_append_left _ _⟩, ?_⟩
  · rcases List.mem_append.mp hout with hout | hout
    · exact (hpayments out (hsub.subset hout)).1
    · rw [(List.mem_replicate.mp hout).2]
      exact le_rfl
  · rintro ⟨⟨f, hf, -⟩, -⟩
    obtain ⟨l₁, l₂, hl, h₁, h₂⟩ := List.sublist_append_iff.mp
      (List.sublist_iff_exists_fin_orderEmbedding_get_eq.mpr ⟨f, hf⟩)
    -- no payment is one of the empty outputs
    obtain rfl : l₂ = [] := by
      refine List.eq_nil_iff_forall_not_mem.mpr fun out hout => ?_
      have hempty := (List.mem_replicate.mp (h₂.subset hout)).2
      exact (hpayments out (hl ▸ List.mem_append_right _ hout)).2 (by rw [hempty])
    rw [List.append_nil] at hl
    subst hl
    exact hchain ((List.destutter_eq_self_iff _ _).mp (hsub.antisymm h₁))

end

/-- **An accepted superblock pays everybody if and only if** no two neighbours of the schedule are equal, or no coinbase
is accepted at all. -/
theorem isValidSuperblock_pays_iff [NodeCrypto] (parseFixedPoint : StdString → Nat → Option CAmount)
    (p : CPaymentParams) (strPaymentAddresses strPaymentAmounts : StdString) (payments : List CTxOut)
    (hparse : parsePaymentSchedule parseFixedPoint strPaymentAddresses strPaymentAmounts = .ok payments)
    (nBlockHeight : Int) (blockReward : CAmount) :
    (∀ vout, isValidSuperblock p payments vout nBlockHeight blockReward = .ok true →
      PaysEverybody p payments vout nBlockHeight blockReward) ↔
    payments.IsChain (· ≠ ·) ∨ ¬ Payable p payments nBlockHeight blockReward := by
  simp only [parsePaymentSchedule, bind_ok, failIf_ok] at hparse
  obtain ⟨_, -, _, -, hparse⟩ := hparse
  have hpayments := parsePayments_ok parseFixedPoint hparse
  constructor
  · intro h
    by_contra hnot
    obtain ⟨hchain, hpayable⟩ := not_or.mp hnot
    obtain ⟨vout, hvalid, hunpaid⟩ := exists_unpaid hpayments (not_not.mp hpayable) hchain
    exact hunpaid (h vout hvalid)
  · rintro (hchain | hnot) vout hvalid
    · exact paysEverybody_of_isChain (fun out hout => (hpayments out hout).1) hchain hvalid
    · exact absurd (payable_of_isValid hvalid) hnot

/-! ## Samples -/

/-- `ParseFixedPoint` on the amount of the samples. -/
def fiveCoins (s : StdString) (_ : Nat) : Option CAmount := if s == bytes "5" then some (5 * COIN) else none

/-- Five coins to the key id of twenty bytes `b`. -/
def payTo (b : UInt8) : CTxOut := ⟨5 * COIN, getScriptForDestination (.keyID (List.replicate 20 b))⟩

theorem isValidSuperblock_pays_two :
    PaysEverybody mainPaymentParams [payTo 0, payTo 1] [⟨COIN, []⟩, payTo 0, payTo 1] 99999999 COIN :=
  (@isValidSuperblock_pays_iff mainnetCrypto fiveCoins mainPaymentParams
    (bytes "R9HC5WtHbpoa51NCUAz86XLCmGTbkf45NT|R9NVxTj2ewfiTUzAfn7FSsq9kxNt6fjaaZ") (bytes "5|5") _
    (by decide +kernel) 99999999 COIN).mpr (.inl (by decide +kernel)) _ (by decide +kernel)

/-- A trigger pays an address five coins twice. A coinbase that pays it once is accepted. -/
theorem repeated_payment_unpaid :
    @parsePaymentSchedule mainnetCrypto fiveCoins
      (bytes "R9HC5WtHbpoa51NCUAz86XLCmGTbkf45NT|R9HC5WtHbpoa51NCUAz86XLCmGTbkf45NT") (bytes "5|5") =
        .ok [payTo 0, payTo 0] ∧
      isValidSuperblock mainPaymentParams [payTo 0, payTo 0] [⟨6 * COIN, []⟩, payTo 0] 99999999 COIN = .ok true ∧
      ¬ PaysEverybody mainPaymentParams [payTo 0, payTo 0] [⟨6 * COIN, []⟩, payTo 0] 99999999 COIN := by
  refine ⟨by decide +kernel, by decide +kernel, ?_⟩
  rintro ⟨⟨f, hf, -⟩, -⟩
  have hsub := List.sublist_iff_exists_fin_orderEmbedding_get_eq.mpr ⟨f, hf⟩
  exact absurd hsub (by decide +kernel)

end RavenCash.Governance
