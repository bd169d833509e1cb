import RavenCash.Basic.Primitives
import RavenCash.Lib.Batches
import RavenCash.Lib.FiniteMap
import RavenCash.Lib.Simulation

/-!
# Distribution of rewards

`DistributeRewardSnapshot` pays the owners of an asset in transactions of at most `MAX_PAYMENTS_PER_TRANSACTION`
payments. It is called for every block. Each call computes the payments anew, from the owners at the height of the
snapshot and the units that the distributed asset has now, and pays the batches that have no recorded transaction.

`long double` is rounded by any function `rnd`. The status of a distribution is left out: nothing here reads it.
-/

set_option autoImplicit false

namespace RavenCash.Rewards

def MAX_PAYMENTS_PER_TRANSACTION : Nat := 1000

structure OwnerAndAmount where
  address : StdString
  amount : CAmount
deriving DecidableEq, Repr

/-! ## The payments -/

structure CRewardSnapshot where
  strOwnershipAsset : StdString
  strDistributionAsset : StdString
  strExceptionAddresses : StdString := []
  nDistributionAmount : CAmount
  nHeight : UInt32

/-- The owners in the order of the set. An address has one amount of an asset. -/
structure CAssetSnapshotDBEntry where
  ownersAndAmounts : List (StdString × CAmount)
  nodup : (ownersAndAmounts.map Prod.fst).Nodup

/-- What does not change between the calls. -/
structure RewardEnv where
  rnd : ℚ → ℚ
  isBurnAddress : StdString → Bool
  retrieveOwnershipSnapshot : StdString → UInt32 → Option CAssetSnapshotDBEntry

/-- The units of the assets that exist. -/
abbrev MetaData := StdString → Option Nat

/-- A conversion to an integer. -/
def truncate (q : ℚ) : CAmount := .ofInt (q.num.tdiv q.den)

def unitDivisor (units : Nat) : CAmount := .ofNat (10 ^ (8 - units))

def CRewardSnapshot.isRVH (p : CRewardSnapshot) : Bool := p.strDistributionAsset == bytes "RVH"

def RewardEnv.rewardAmt (env : RewardEnv) (units : Nat) (modifiedPaymentInAssetUnits totalAmtOwned amount : CAmount) :
    CAmount :=
  let percent := env.rnd (amount.toInt / totalAmtOwned.toInt)
  let rewardAmt := truncate
    (env.rnd (env.rnd (percent * modifiedPaymentInAssetUnits.toInt) * (unitDivisor units).toInt))
  rewardAmt / unitDivisor units * unitDivisor units

/-- `insert` into the set, which is ordered by the addresses as the owners are. -/
def insertOwner (owners : List OwnerAndAmount) (o : StdString × CAmount) : List OwnerAndAmount :=
  if o.1 ∈ owners.map OwnerAndAmount.address then owners else owners ++ [⟨o.1, o.2⟩]

section

variable (env : RewardEnv) (p : CRewardSnapshot)

/-- Exception and burn addresses are not paid. -/
def isPaid (address : StdString) : Bool :=
  !(p.strExceptionAddresses.splitOn 44).contains address && !env.isBurnAddress address

/-- The units of what is distributed; `RVH` has those of a default `CNewAsset`. -/
def distributionUnits (metadata : MetaData) : Option Nat :=
  if p.isRVH then some 8 else metadata p.strDistributionAsset

def modifiedPayment (units : Nat) : CAmount :=
  if p.isRVH then p.nDistributionAmount else p.nDistributionAmount / unitDivisor units

def generateDistributionList (metadata : MetaData) : Option (List OwnerAndAmount) := do
  let units ← distributionUnits p metadata
  let _ownershipAsset ← metadata p.strOwnershipAsset
  let snapshotEntry ← env.retrieveOwnershipSnapshot p.strOwnershipAsset p.nHeight
  let paid := snapshotEntry.ownersAndAmounts.filter fun o => isPaid env p o.1
  let nonExceptionOwnerships := paid.foldl insertOwner []
  let totalAmtOwned := (paid.map Prod.snd).sum
  if nonExceptionOwnerships.isEmpty then none
  else return nonExceptionOwnerships.filterMap fun ownership =>
    let rewardAmt := env.rewardAmt units (modifiedPayment p units) totalAmtOwned ownership.amount
    if 0 < rewardAmt then some ⟨ownership.address, rewardAmt⟩ else none

end

/-! ## Transactions -/

/-- What a call sees of the wallet. `createTransaction` is `none` where no transaction can be made, and `getDepth` where
the wallet does not have the transaction. `stops` is the batch after whose transaction the process is stopped. -/
structure WalletView where
  isLocked : Bool := false
  isInitialBlockDownload : Bool := false
  networkMissing : Bool := false
  balance : CAmount
  assetBalance : CAmount
  createTransaction : List OwnerAndAmount → Option UInt256
  getDepth : UInt256 → Option Int
  stops : Option Nat := none

/-- What is stored, and the transactions that were committed. -/
structure RewardNode where
  metadata : MetaData
  distributeTransactions : FiniteMap Nat UInt256 := ∅
  committed : List (List OwnerAndAmount) := []

section

variable (env : RewardEnv) (p : CRewardSnapshot)

/-- The wallet makes no transaction without a recipient. -/
def buildTransaction (w : WalletView) (pendingPayments : List OwnerAndAmount) (i : Nat) :
    Option (UInt256 × List OwnerAndAmount) :=
  let payments := Batches.batch MAX_PAYMENTS_PER_TRANSACTION pendingPayments i
  let totalPaymentAmt := (payments.map OwnerAndAmount.amount).sum
  if p.isRVH && w.networkMissing then none
  else if (if p.isRVH then w.balance else w.assetBalance) < totalPaymentAmt then none
  else if payments.isEmpty then none
  else (w.createTransaction payments).map fun txid => (txid, payments)

/-- The loop over the batches that are left. -/
def distributeLoop (w : WalletView) (paymentDetails : List OwnerAndAmount) : List Nat → RewardNode → RewardNode
  | [], s => s
  | i :: rest, s =>
      match s.distributeTransactions.lookup i with
      | some txid =>
          match w.getDepth txid with
          | some depth => if depth ≤ 0 then s else distributeLoop w paymentDetails rest s
          | none => distributeLoop w paymentDetails rest s
      | none =>
          match buildTransaction p w paymentDetails i with
          | none => s
          | some (retTxid, payments) =>
              let s := { s with committed := s.committed ++ [payments] }
              -- the wallet has the transaction, it is not recorded yet
              if w.stops = some i then s
              else distributeLoop w paymentDetails rest
                { s with distributeTransactions := s.distributeTransactions.insert i retTxid }

def numberOfTransactions (paymentDetails : List OwnerAndAmount) : Nat :=
  paymentDetails.length / MAX_PAYMENTS_PER_TRANSACTION + 1

def distributeRewardSnapshot (w : WalletView) (s : RewardNode) : RewardNode :=
  if w.isLocked || w.isInitialBlockDownload then s
  else match generateDistributionList env p s.metadata with
    | none => s
    | some paymentDetails => distributeLoop p w paymentDetails (List.range (numberOfTransactions paymentDetails)) s

/-- A call, a block that changes assets, or a restart, which loads what is stored. -/
inductive RewardOp where
  | distribute (w : WalletView)
  | block (metadata : MetaData)
  | restart

def step (s : RewardNode) : RewardOp → RewardNode
  | .distribute w => distributeRewardSnapshot env p w s
  | .block metadata => { s with metadata }
  | .restart => s

/-! ## Exactly once -/

/-- **Every owner is paid exactly once**: no address is in two committed transactions, all are paid when every batch
has a transaction, and the batches are a partition of the payments into slices that are not empty. -/
structure ExactlyOnce (s : RewardNode) : Prop where
  once : (s.committed.flatMap fun payments => payments.map OwnerAndAmount.address).Nodup
  complete : ∀ paymentDetails, generateDistributionList env p s.metadata = some paymentDetails →
    (∀ i < numberOfTransactions paymentDetails, (s.distributeTransactions.lookup i).isSome) →
    ∀ o ∈ paymentDetails, ∃ payments ∈ s.committed, o.address ∈ payments.map OwnerAndAmount.address
  batches : ∀ paymentDetails, generateDistributionList env p s.metadata = some paymentDetails →
    (∀ i < numberOfTransactions paymentDetails,
      Batches.batch MAX_PAYMENTS_PER_TRANSACTION paymentDetails i ≠ [] ∧
        (Batches.batch MAX_PAYMENTS_PER_TRANSACTION paymentDetails i).length ≤ MAX_PAYMENTS_PER_TRANSACTION) ∧
      (List.range (numberOfTransactions paymentDetails)).flatMap
        (Batches.batch MAX_PAYMENTS_PER_TRANSACTION paymentDetails) = paymentDetails

/-- The process is not stopped between a transaction and its record, and a block leaves the units of what is
distributed. -/
def Permitted (s : RewardNode) : RewardOp → Prop
  | .distribute w => w.stops = none
  | .block metadata => distributionUnits p metadata = distributionUnits p s.metadata
  | .restart => True

/-- The owners that get a positive reward. -/
def rewardedOwners (metadata : MetaData) : List (StdString × CAmount) :=
  match distributionUnits p metadata, env.retrieveOwnershipSnapshot p.strOwnershipAsset p.nHeight with
  | some units, some snapshotEntry =>
      let paid := snapshotEntry.ownersAndAmounts.filter fun o => isPaid env p o.1
      paid.filter fun o => decide (0 < env.rewardAmt units (modifiedPayment p units) (paid.map Prod.snd).sum o.2)
  | _, _ => []

end

/-! ## The list of payments -/

section

variable {env : RewardEnv} {p : CRewardSnapshot} {metadata : MetaData} {paymentDetails : List OwnerAndAmount}

theorem foldl_insertOwner {owners : List OwnerAndAmount} {l : List (StdString × CAmount)}
    (h : (owners.map OwnerAndAmount.address ++ l.map Prod.fst).Nodup) :
    l.foldl insertOwner owners = owners ++ l.map fun o => ⟨o.1, o.2⟩ := by
  induction l generalizing owners with
  | nil => exact (List.append_nil _).symm
  | cons o l ih =>
    have hnew : o.1 ∉ owners.map OwnerAndAmount.address := by
      intro hmem
      exact List.disjoint_of_nodup_append h hmem (List.mem_map_of_mem List.mem_cons_self)
    have hinsert : insertOwner owners o = owners ++ [⟨o.1, o.2⟩] := if_neg hnew
    rw [List.foldl_cons, hinsert, ih, List.append_assoc]
    · rfl
    · rwa [List.map_append, List.append_assoc]

/-- What the owners of `l` are paid. -/
def paymentsOf (reward : CAmount → CAmount) (l : List (StdString × CAmount)) : List OwnerAndAmount :=
  l.filterMap fun o => if 0 < reward o.2 then some ⟨o.1, reward o.2⟩ else none

theorem map_address_paymentsOf (reward : CAmount → CAmount) (l : List (StdString × CAmount)) :
    (paymentsOf reward l).map OwnerAndAmount.address = (l.filter fun o => decide (0 < reward o.2)).map Prod.fst := by
  induction l with
  | nil => rfl
  | cons o l ih =>
    by_cases hpos : 0 < reward o.2
    · rw [List.filter_cons_of_pos (by simpa using hpos), List.map_cons, ← ih]
      simp only [paymentsOf, List.filterMap_cons, hpos, if_true, List.map_cons]
    · rw [List.filter_cons_of_neg (by simpa using hpos), ← ih]
      simp only [paymentsOf, List.filterMap_cons, hpos, if_false]

theorem generateDistributionList_eq (h : generateDistributionList env p metadata = some paymentDetails) :
    ∃ units snapshotEntry, distributionUnits p metadata = some units ∧
      env.retrieveOwnershipSnapshot p.strOwnershipAsset p.nHeight = some snapshotEntry ∧
      paymentDetails =
        let paid := snapshotEntry.ownersAndAmounts.filter fun o => isPaid env p o.1
        paymentsOf (env.rewardAmt units (modifiedPayment p units) (paid.map Prod.snd).sum) paid := by
  simp only [generateDistributionList, Option.bind_eq_bind, Option.bind_eq_some_iff] at h
  obtain ⟨units, hunits, _, -, entry, hentry, h⟩ := h
  have hnodup : ((entry.ownersAndAmounts.filter fun o => isPaid env p o.1).map Prod.fst).Nodup :=
    entry.nodup.sublist (List.filter_sublist.map _)
  have hfold := @foldl_insertOwner [] _ hnodup
  rw [hfold] at h
  split_ifs at h
  obtain rfl := Option.some.inj h
  refine ⟨units, entry, hunits, hentry, ?_⟩
  rw [List.nil_append, List.filterMap_map]
  rfl

/-- **The payments are those of the rewarded owners.** -/
theorem map_address_paymentDetails (h : generateDistributionList env p metadata = some paymentDetails) :
    paymentDetails.map OwnerAndAmount.address = (rewardedOwners env p metadata).map Prod.fst := by
  obtain ⟨units, entry, hunits, hentry, rfl⟩ := generateDistributionList_eq h
  simp only [rewardedOwners, hunits, hentry]
  exact map_address_paymentsOf _ _

theorem length_paymentDetails (h : generateDistributionList env p metadata = some paymentDetails) :
    paymentDetails.length = (rewardedOwners env p metadata).length := by
  have hlength := congrArg List.length (map_address_paymentDetails h)
  rwa [List.length_map, List.length_map] at hlength

theorem nodup_address (h : generateDistributionList env p metadata = some paymentDetails) :
    (paymentDetails.map OwnerAndAmount.address).Nodup := by
  obtain ⟨units, entry, -, -, rfl⟩ := generateDistributionList_eq h
  rw [map_address_paymentsOf]
  exact entry.nodup.sublist ((List.filter_sublist.trans List.filter_sublist).map _)

/-- The payments depend on the units only. -/
theorem paymentDetails_unique {metadata' : MetaData} {paymentDetails' : List OwnerAndAmount}
    (h : generateDistributionList env p metadata = some paymentDetails)
    (h' : generateDistributionList env p metadata' = some paymentDetails')
    (hunits : distributionUnits p metadata' = distributionUnits p metadata) : paymentDetails' = paymentDetails := by
  obtain ⟨units, entry, hu, hentry, rfl⟩ := generateDistributionList_eq h
  obtain ⟨units', entry', hu', hentry', rfl⟩ := generateDistributionList_eq h'
  obtain rfl : units' = units := Option.some.inj (hu'.symm.trans (hunits.trans hu))
  obtain rfl : entry' = entry := Option.some.inj (hentry'.symm.trans hentry)
  rfl

/-! ## Runs -/

/-- The committed transactions are the batches that are recorded, once each. -/
def Recorded (paymentDetails : List OwnerAndAmount) (s : RewardNode) : Prop :=
  ∃ indices : List Nat, indices.Nodup ∧
    s.committed = indices.map (Batches.batch MAX_PAYMENTS_PER_TRANSACTION paymentDetails) ∧
    ∀ i, (s.distributeTransactions.lookup i).isSome ↔ i ∈ indices

variable {w : WalletView} {s : RewardNode}

theorem Recorded.record {i : Nat} (h : Recorded paymentDetails s) (hnone : s.distributeTransactions.lookup i = none)
    (txid : UInt256) :
    Recorded paymentDetails
      { s with
        committed := s.committed ++ [Batches.batch MAX_PAYMENTS_PER_TRANSACTION paymentDetails i]
        distributeTransactions := s.distributeTransactions.insert i txid } := by
  obtain ⟨indices, hnodup, hcommitted, hrecorded⟩ := h
  have hnew : i ∉ indices := by
    rw [← hrecorded, hnone]
    exact Bool.false_ne_true
  refine ⟨indices ++ [i], ?_, ?_, fun j => ?_⟩
  · exact List.nodup_append.mpr ⟨hnodup, List.nodup_singleton i, fun a ha b hb heq =>
      hnew (List.mem_singleton.mp hb ▸ heq ▸ ha)⟩
  · rw [List.map_append, hcommitted]
    rfl
  · show (Finmap.lookup j (s.distributeTransactions.insert i txid)).isSome ↔ _
    rw [FiniteMap.lookup_assign, List.mem_append, List.mem_singleton, ← hrecorded]
    split_ifs with heq
    · simp [heq]
    · simp [heq]

theorem distributeLoop_spec (hstops : w.stops = none) (indices : List Nat) (h : Recorded paymentDetails s) :
    Recorded paymentDetails (distributeLoop p w paymentDetails indices s) ∧
      (distributeLoop p w paymentDetails indices s).metadata = s.metadata := by
  induction indices generalizing s with
  | nil => exact ⟨h, rfl⟩
  | cons i rest ih =>
    rw [distributeLoop]
    split
    · split
      · split_ifs
        · exact ⟨h, rfl⟩
        · exact ih h
      · exact ih h
    · next hnone =>
      split
      · exact ⟨h, rfl⟩
      · next retTxid payments hbuild =>
        have hpayments : payments = Batches.batch MAX_PAYMENTS_PER_TRANSACTION paymentDetails i := by
          simp only [buildTransaction] at hbuild
          split_ifs at hbuild
          all_goals
            obtain ⟨txid, -, heq⟩ := Option.map_eq_some_iff.mp hbuild
            exact (Prod.mk.inj heq).2.symm
        rw [hstops, if_neg nofun, hpayments]
        exact ih (h.record hnone retTxid)

/-- A permitted operation keeps the record. -/
theorem step_recorded {op : RewardOp} (hlist : generateDistributionList env p metadata = some paymentDetails)
    (h : Recorded paymentDetails s ∧ distributionUnits p s.metadata = distributionUnits p metadata)
    (hop : Permitted p s op) :
    Recorded paymentDetails (step env p s op) ∧
      distributionUnits p (step env p s op).metadata = distributionUnits p metadata := by
  cases op with
  | distribute w =>
    show Recorded _ (distributeRewardSnapshot env p w s) ∧ distributionUnits p
        (distributeRewardSnapshot env p w s).metadata = _
    unfold distributeRewardSnapshot
    split_ifs
    · exact h
    · split
      · exact h
      · next paymentDetails' hlist' =>
        obtain rfl := paymentDetails_unique hlist hlist' h.2
        obtain ⟨hrecorded, hmetadata⟩ := distributeLoop_spec (p := p) (w := w) hop
          (List.range (numberOfTransactions paymentDetails')) h.1
        rw [hmetadata]
        exact ⟨hrecorded, h.2⟩
  | block metadata' => exact ⟨h.1, Eq.trans hop h.2⟩
  | restart => exact h

theorem MAX_PAYMENTS_PER_TRANSACTION_pos : 0 < MAX_PAYMENTS_PER_TRANSACTION := by decide

theorem Recorded.exactlyOnce (hlist : generateDistributionList env p metadata = some paymentDetails)
    (h : Recorded paymentDetails s) (hunits : distributionUnits p s.metadata = distributionUnits p metadata)
    (hmod : paymentDetails.length % MAX_PAYMENTS_PER_TRANSACTION ≠ 0) : ExactlyOnce env p s := by
  obtain ⟨indices, hnodup, hcommitted, hrecorded⟩ := h
  have hsame : ∀ paymentDetails', generateDistributionList env p s.metadata = some paymentDetails' →
      paymentDetails' = paymentDetails := fun _ hlist' => paymentDetails_unique hlist hlist' hunits
  refine ⟨?_, fun paymentDetails' hlist' hall o ho => ?_, fun paymentDetails' hlist' => ?_⟩
  · rw [hcommitted, List.flatMap_map]
    simp only [← Batches.batch_map]
    exact Batches.nodup_flatMap_batch MAX_PAYMENTS_PER_TRANSACTION_pos (nodup_address hlist) hnodup
  · obtain rfl := hsame _ hlist'
    obtain ⟨k, hk⟩ := List.mem_iff_getElem?.mp ho
    obtain ⟨hlt, -⟩ := List.getElem?_eq_some_iff.mp hk
    have hindex : k / MAX_PAYMENTS_PER_TRANSACTION ∈ indices :=
      (hrecorded _).mp (hall _ (Nat.lt_succ_of_le (Nat.div_le_div_right hlt.le)))
    refine ⟨Batches.batch MAX_PAYMENTS_PER_TRANSACTION paymentDetails' (k / MAX_PAYMENTS_PER_TRANSACTION), ?_, ?_⟩
    · rw [hcommitted]
      exact List.mem_map_of_mem hindex
    · exact List.mem_map_of_mem ((Batches.mem_batch MAX_PAYMENTS_PER_TRANSACTION_pos).mpr ⟨k, hk, rfl⟩)
  · obtain rfl := hsame _ hlist'
    have hbatches := (Batches.forall_batch_ne_nil_iff MAX_PAYMENTS_PER_TRANSACTION_pos).mpr hmod
    exact ⟨fun i hi => ⟨hbatches i hi, Batches.length_batch_le⟩,
      Batches.flatMap_all_batches MAX_PAYMENTS_PER_TRANSACTION_pos⟩

/-- **When rewards are paid exactly once**: in all runs in which the process is not stopped between a transaction and
its record and no block changes the units of what is distributed, if and only if the number of rewarded owners is not
a multiple of the payments in a transaction. -/
theorem exactlyOnce_iff (env : RewardEnv) (p : CRewardSnapshot) (metadata : MetaData)
    (hlist : (generateDistributionList env p metadata).isSome) :
    (∀ ops, Simulation.Throughout (step env p) (Permitted p) { metadata } ops →
      ExactlyOnce env p (Simulation.exec (step env p) { metadata } ops)) ↔
      (rewardedOwners env p metadata).length % MAX_PAYMENTS_PER_TRANSACTION ≠ 0 := by
  obtain ⟨paymentDetails, hlist⟩ := Option.isSome_iff_exists.mp hlist
  rw [← length_paymentDetails hlist]
  constructor
  · intro h
    have hbatches := (h [] trivial).batches paymentDetails hlist
    exact (Batches.forall_batch_ne_nil_iff MAX_PAYMENTS_PER_TRANSACTION_pos).mp fun i hi => (hbatches.1 i hi).1
  · intro hmod ops hops
    have hstart : Recorded paymentDetails { metadata } := by
      refine ⟨[], List.nodup_nil, rfl, fun i => ?_⟩
      show (Finmap.lookup i ∅).isSome ↔ _
      rw [Finmap.lookup_empty]
      simp
    obtain ⟨hrecorded, hunits⟩ := Simulation.exec_invariant
      (I := fun s => Recorded paymentDetails s ∧ distributionUnits p s.metadata = distributionUnits p metadata)
      (fun s op h hop => step_recorded hlist h hop) ⟨hstart, rfl⟩ hops
    exact hrecorded.exactlyOnce hlist hunits hmod

end

/-! ## Small distributions -/

/-- Two owners, one with a small share. -/
def pairEnv : RewardEnv where
  rnd q := q
  isBurnAddress _ := false
  retrieveOwnershipSnapshot _ _ := some ⟨[(bytes "RFew", 1), (bytes "RMany", 3)], by decide +kernel⟩

/-- `amount` hundred-millionths of an asset are distributed. -/
def pairSnapshot (amount : CAmount) : CRewardSnapshot where
  strOwnershipAsset := bytes "SHARES"
  strDistributionAsset := bytes "COUPON"
  nDistributionAmount := amount
  nHeight := 100

/-- Both assets have these units. -/
def withUnits (units : Nat) : MetaData := fun _ => some units

/-- A wallet that has enough; the transactions are in blocks at the next call. -/
def wallet (stops : Option Nat) : WalletView where
  balance := MAX_MONEY
  assetBalance := MAX_MONEY
  createTransaction _ := some 7
  getDepth _ := some 1
  stops := stops

/-- One coupon for each share. -/
theorem exactlyOnce_iff_pair :
    (∀ ops, Simulation.Throughout (step pairEnv (pairSnapshot 400000000)) (Permitted (pairSnapshot 400000000))
        { metadata := withUnits 0 } ops →
      ExactlyOnce pairEnv (pairSnapshot 400000000)
        (Simulation.exec (step pairEnv (pairSnapshot 400000000)) { metadata := withUnits 0 } ops)) ↔
      (rewardedOwners pairEnv (pairSnapshot 400000000) (withUnits 0)).length % MAX_PAYMENTS_PER_TRANSACTION ≠ 0 :=
  exactlyOnce_iff pairEnv (pairSnapshot 400000000) (withUnits 0) (by decide +kernel)

/-- Between two calls the asset is reissued with more units. -/
def reissued : RewardNode :=
  Simulation.exec (step pairEnv (pairSnapshot 300000000)) { metadata := withUnits 0 }
    [.distribute (wallet none), .block (withUnits 8), .distribute (wallet none)]

/-- **Not exactly once.** One coupon that cannot be divided among the owners: the only batch is empty. A stop between
the transaction and its record: the next call pays the owners again. Three coupons and a reissue with more units
between two calls: every batch has its transaction, and the smaller owner has a reward and is not paid. -/
theorem not_exactlyOnce :
    (generateDistributionList pairEnv (pairSnapshot 100000000) (withUnits 0) = some [] ∧ numberOfTransactions [] = 1) ∧
    ((Simulation.exec (step pairEnv (pairSnapshot 400000000)) { metadata := withUnits 0 }
        [.distribute (wallet (some 0)), .restart, .distribute (wallet none)]).committed.map fun payments =>
          payments.map OwnerAndAmount.address) =
      [[bytes "RFew", bytes "RMany"], [bytes "RFew", bytes "RMany"]] ∧
    (generateDistributionList pairEnv (pairSnapshot 300000000) reissued.metadata).map
        (fun payments => payments.map OwnerAndAmount.address) = some [bytes "RFew", bytes "RMany"] ∧
      reissued.committed.map (fun payments => payments.map OwnerAndAmount.address) = [[bytes "RMany"]] ∧
      (reissued.distributeTransactions.lookup 0).isSome := by
  refine ⟨?_, ?_, ?_⟩
  · decide +kernel
  · decide +kernel
  · decide +kernel

end RavenCash.Rewards
