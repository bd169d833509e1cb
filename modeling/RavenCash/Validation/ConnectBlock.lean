import RavenCash.Coins.Update
import RavenCash.Consensus.TxAssets

/-!
# `ConnectBlock`

`CheckTxInputs`, the part of `CheckBlock` that looks at transactions, and `ConnectBlock` on the coins
and the asset state. The checks that read neither (the header, scripts, lock times, signature
operations, special transactions, payees) can only refuse a block, and the indexes are not read by
any of this; both are left out.

`ConnectBlock` keeps the undo data of the coins. The undo data of reissues that `UpdateCoins` fills
in is a local variable of the loop and is dropped.
-/

set_option autoImplicit false

namespace RavenCash

/-- A block: its hash and its transactions. -/
structure CBlock where
  hash : UInt256
  vtx : List CTransaction
deriving DecidableEq, Repr

/-- `uint256::GetHex` -/
def getHex (h : UInt256) : String := text (hexStr (leBytes 32 h.toNat).reverse)

/-! ## Coin values -/

def COINBASE_MATURITY : Int := 100

/-- `DoS(100, …, REJECT_INVALID, reason, false, debug)` -/
def badBlock (reason debug : String) : CValidationError := { badTx reason with strDebugMessage := debug }

/-- `FormatMoney`: at least two decimals, no further zeros at the end. -/
def formatMoney (n : CAmount) : String :=
  let n_abs := n.toInt.natAbs
  let remainder := Nat.toDigits 10 (n_abs % COIN.toInt.toNat)
  let decimals := List.replicate (8 - remainder.length) '0' ++ remainder
  String.ofList ((if n < 0 then ['-'] else []) ++ Nat.toDigits 10 (n_abs / COIN.toInt.toNat) ++
    '.' :: decimals.take 2 ++ ((decimals.drop 2).reverse.dropWhile (· == '0')).reverse)

/-- `GetValueOut`, which throws when a value or the sum is out of range. -/
def getValueOut : CAmount → List CTxOut → Except CValidationError CAmount
  | nValueOut, [] => .ok nValueOut
  | nValueOut, txout :: vout => do
      let nValueOut := nValueOut + txout.nValue
      failIf (!moneyRange txout.nValue || !moneyRange nValueOut)
        ⟨0, 0, "GetValueOut: value out of range", ""⟩
      getValueOut nValueOut vout

/-- The loop of `CheckTxInputs`. -/
def sumInputs (inputs : CCoinsView) (nSpendHeight : Int) :
    CAmount → List CTxIn → Except CValidationError CAmount
  | nValueIn, [] => .ok nValueIn
  | nValueIn, txin :: vin => do
      let coin ← orFail (inputs.lookup txin.prevout) assertNotSpent
      let depth := nSpendHeight - coin.nHeight
      failIf (coin.fCoinBase && decide (depth < COINBASE_MATURITY))
        { dos 0 "bad-txns-premature-spend-of-coinbase" with
          strDebugMessage := "tried to spend coinbase at depth " ++ toString depth }
      let nValueIn := nValueIn + coin.out.nValue
      failIf (!moneyRange coin.out.nValue || !moneyRange nValueIn)
        (badTx "bad-txns-inputvalues-outofrange")
      sumInputs inputs nSpendHeight nValueIn vin

/-- `Consensus::CheckTxInputs`, with the fee. -/
def checkTxInputs (tx : CTransaction) (inputs : CCoinsView) (nSpendHeight : Int) :
    Except CValidationError CAmount := do
  failIf (!inputs.haveInputs tx)
    (badBlock "bad-txns-inputs-missingorspent" "CheckTxInputs: inputs missing/spent")
  let nValueIn ← sumInputs inputs nSpendHeight 0 tx.vin
  let value_out ← getValueOut 0 tx.vout
  failIf (decide (nValueIn < value_out)) (badBlock "bad-txns-in-belowout"
    ("value in (" ++ formatMoney nValueIn ++ ") < value out (" ++ formatMoney value_out ++ ")"))
  let txfee := nValueIn - value_out
  failIf (!moneyRange txfee) (badTx "bad-txns-fee-outofrange")
  -- no special fee is ever set
  failIf (decide (txfee < 0)) (badBlock "bad-txns-fee-too-low"
    ("fee (" ++ formatMoney txfee ++ "), special tx fee (" ++ formatMoney 0 ++ ")"))
  return txfee

section

variable [NodeCrypto]

/-! ## `CheckBlock` -/

/-- `GetBlockSubsidy`. The source multiplies a `double` by `COIN`; every product is exact. -/
def getBlockSubsidy (nPrevHeight : Int) : CAmount :=
  if nPrevHeight = 0 then 1000000 * COIN
  else if nPrevHeight ≤ 1000000 then 100 * COIN
  else if nPrevHeight ≤ 2000000 then 50 * COIN
  else if nPrevHeight ≤ 3000000 then 25 * COIN
  else if nPrevHeight ≤ 4000000 then 1250000000
  else if nPrevHeight ≤ 5000000 then 625000000
  else if nPrevHeight ≤ 6000000 then 312500000
  else if nPrevHeight ≤ 7000000 then 156250000
  else if nPrevHeight ≤ 8000000 then 78125000
  else if nPrevHeight ≤ 9000000 then 39062500
  else 1000000

/-- The checks of `CheckBlock` on the transactions. -/
def checkBlock (params : CAssetParams) (block : CBlock) (nHeight : Int) : Check := do
  failIf block.vtx.isEmpty (badBlock "bad-blk-length" "size limits failed")
  failIf (!(block.vtx.head?.map CTransaction.isCoinBase).getD false)
    (badBlock "bad-cb-missing" "first tx is not coinbase")
  failIf ((block.vtx.drop 1).any CTransaction.isCoinBase)
    (badBlock "bad-cb-multiple" "more than one coinbase")
  let blockReward := getBlockSubsidy (nHeight - 1)
  checkAll (fun tx =>
      (checkTransaction params tx (nHeight - 1) blockReward false true).mapError (fun e =>
        { e with strDebugMessage := "Transaction check failed (tx hash " ++ getHex tx.hash ++ ") " ++
          e.strDebugMessage }))
    block.vtx

/-! ## The loop over the transactions -/

/-- What the loop accumulates: the fees, and the spent coins of each transaction. -/
structure BlockProgress where
  nFees : CAmount := 0
  vtxundo : List CTxUndo := []

variable (params : CAssetParams) (maps : MempoolMaps) (g : Globals)

/-- `CheckTxAssets` on the coins and the asset cache of the block, with its read caches. -/
def checkTxAssetsIn (tx : CTransaction) : Checked ChainState CValidationError Unit := fun s =>
  let (result, lru) := checkTxAssets g s.assets.cache params maps tx s.view false false s.assets.lru
  (result.map (fun _ => ()), { s with assets := { s.assets with lru := lru } })

/-- The checks of a transaction that is not a coinbase, with the fees so far. -/
def checkConnecting (nHeight : Int) (nFees : CAmount) (tx : CTransaction) :
    Checked ChainState CValidationError CAmount :=
  if tx.isCoinBase then return nFees
  else do
    let view ← .ask (fun s => (s.view, s))
    let txfee ← .lift (checkTxInputs tx view nHeight)
    .lift (failIf (!moneyRange (nFees + txfee)) (badTx "bad-txns-accumulated-fee-outofrange"))
    checkTxAssetsIn params maps g tx
    return nFees + txfee

/-- The failure of an assertion or exception in `UpdateCoins`, which stops the node. -/
def updateCoinsAborts : CValidationError := ⟨0, 0, "UpdateCoins", ""⟩

/-- `UpdateCoins` on the state of the block. The undo data of a reissue ends here. -/
def updateCoinsIn (nHeight : Int) (blockHash : UInt256) (tx : CTransaction) :
    Checked ChainState CValidationError CTxUndo := fun s =>
  match updateCoins g s tx nHeight blockHash with
  | some (txundo, s', _) => (.ok txundo, s')
  | none => (.error updateCoinsAborts, s)

/-- One iteration of the loop of `ConnectBlock`. -/
def connectTx (nHeight : Int) (blockHash : UInt256) (acc : BlockProgress) (tx : CTransaction) :
    Checked ChainState CValidationError BlockProgress := do
  let nFees ← checkConnecting params maps g nHeight acc.nFees tx
  let txundo ← updateCoinsIn g nHeight blockHash tx
  return ⟨nFees, acc.vtxundo ++ [txundo]⟩

/-- `ConnectBlock` after its `CheckBlock`, with the undo data it writes: the spent coins of every
transaction but the coinbase. The transactions of the genesis block are not connected. -/
def connectChecked (block : CBlock) (nHeight : Int) :
    Checked ChainState CValidationError (List CTxUndo) :=
  if block.hash = params.hashGenesisBlock then return []
  else do
    let progress ← Checked.foldChecks (connectTx params maps g nHeight block.hash) {} block.vtx
    return progress.vtxundo.drop 1

def connectBlock (block : CBlock) (nHeight : Int) :
    Checked ChainState CValidationError (List CTxUndo) := do
  .lift (checkBlock params block nHeight)
  connectChecked params maps g block nHeight

/-! ## What a connected block has passed -/

variable {params maps g}

theorem checkTxAssetsIn_ok {tx : CTransaction} {u : Unit} {s s' : ChainState} :
    checkTxAssetsIn params maps g tx s = (.ok u, s') ↔
      ∃ vPair lru, checkTxAssets g s.assets.cache params maps tx s.view false false s.assets.lru =
          (.ok vPair, lru) ∧
        s' = { s with assets := { s.assets with lru := lru } } := by
  unfold checkTxAssetsIn
  rcases checkTxAssets g s.assets.cache params maps tx s.view false false s.assets.lru with ⟨r, lru⟩
  simp only [Prod.mk.injEq, map_ok]
  constructor
  · rintro ⟨⟨vPair, hpair, _⟩, hs⟩
    exact ⟨vPair, lru, ⟨hpair, rfl⟩, hs.symm⟩
  · rintro ⟨vPair, _, ⟨hpair, rfl⟩, hs⟩
    exact ⟨⟨vPair, hpair, trivial⟩, hs.symm⟩

theorem checkConnecting_ok {nHeight : Int} {nFees r : CAmount} {tx : CTransaction}
    {s s' : ChainState} :
    checkConnecting params maps g nHeight nFees tx s = (.ok r, s') ↔
      if tx.isCoinBase then r = nFees ∧ s' = s
      else ∃ txfee, checkTxInputs tx s.view nHeight = .ok txfee ∧ moneyRange (nFees + txfee) = true ∧
        checkTxAssetsIn params maps g tx s = (.ok (), s') ∧ r = nFees + txfee := by
  unfold checkConnecting
  by_cases hcoinbase : tx.isCoinBase = true
  · rw [if_pos hcoinbase, if_pos hcoinbase, Checked.pure_ok, eq_comm, @eq_comm _ s]
  rw [if_neg hcoinbase, if_neg hcoinbase, Checked.ask_bind_ok, Checked.lift_bind_ok]
  refine exists_congr (fun txfee => and_congr_right (fun _ => ?_))
  rw [Checked.lift_bind_ok]
  constructor
  · rintro ⟨_, hfees, h⟩
    rw [Checked.bind_ok] at h
    obtain ⟨_, t, hassets, h⟩ := h
    obtain ⟨hr, rfl⟩ := Checked.pure_ok.mp h
    rw [failIf_ok, Bool.not_eq_false'] at hfees
    exact ⟨hfees, hassets, hr.symm⟩
  · rintro ⟨hfees, hassets, hr⟩
    refine ⟨(), by rw [failIf_ok, hfees]; rfl, ?_⟩
    rw [Checked.bind_ok]
    exact ⟨(), s', hassets, Checked.pure_ok.mpr ⟨hr.symm, rfl⟩⟩

theorem updateCoinsIn_ok {nHeight : Int} {blockHash : UInt256} {tx : CTransaction}
    {txundo : CTxUndo} {s s' : ChainState} :
    updateCoinsIn g nHeight blockHash tx s = (.ok txundo, s') ↔
      ∃ undo, updateCoins g s tx nHeight blockHash = some (txundo, s', undo) := by
  unfold updateCoinsIn
  cases hupdate : updateCoins g s tx nHeight blockHash with
  | none => simp
  | some r => simp [Prod.ext_iff]

/-- **One connected transaction**: its checks, unless it is a coinbase, then `UpdateCoins`. -/
theorem connectTx_ok {nHeight : Int} {blockHash : UInt256} {acc r : BlockProgress}
    {tx : CTransaction} {s s' : ChainState} :
    connectTx params maps g nHeight blockHash acc tx s = (.ok r, s') ↔
      ∃ nFees t txundo undo, checkConnecting params maps g nHeight acc.nFees tx s = (.ok nFees, t) ∧
        updateCoins g t tx nHeight blockHash = some (txundo, s', undo) ∧
        r = ⟨nFees, acc.vtxundo ++ [txundo]⟩ := by
  unfold connectTx
  rw [Checked.bind_ok]
  refine exists_congr (fun nFees => exists_congr (fun t => ?_))
  rw [Checked.bind_ok]
  constructor
  · rintro ⟨hpassed, txundo, t', hupdate, h⟩
    obtain ⟨hr, rfl⟩ := Checked.pure_ok.mp h
    obtain ⟨undo, hundo⟩ := updateCoinsIn_ok.mp hupdate
    exact ⟨txundo, undo, hpassed, hundo, hr.symm⟩
  · rintro ⟨txundo, undo, hpassed, hundo, hr⟩
    exact ⟨hpassed, txundo, s', updateCoinsIn_ok.mpr ⟨undo, hundo⟩,
      Checked.pure_ok.mpr ⟨hr.symm, rfl⟩⟩

/-- **A connected block** has passed `CheckBlock` and, unless it is the genesis block, the loop. -/
theorem connectBlock_ok {block : CBlock} {nHeight : Int}
    {vtxundo : List CTxUndo} {s s' : ChainState} :
    connectBlock params maps g block nHeight s = (.ok vtxundo, s') ↔
      checkBlock params block nHeight = .ok () ∧
        if block.hash = params.hashGenesisBlock then vtxundo = [] ∧ s' = s
        else ∃ progress, Checked.foldChecks (connectTx params maps g nHeight block.hash) {} block.vtx s =
          (.ok progress, s') ∧ vtxundo = progress.vtxundo.drop 1 := by
  unfold connectBlock
  rw [Checked.lift_bind_ok]
  have hunit (p : Unit → Prop) : (∃ u, p u) ↔ p () := ⟨fun ⟨_, h⟩ => h, fun h => ⟨(), h⟩⟩
  rw [hunit]
  refine and_congr_right (fun _ => ?_)
  unfold connectChecked
  split_ifs
  · rw [Checked.pure_ok, eq_comm, @eq_comm _ s]
  · rw [Checked.bind_ok]
    refine exists_congr (fun progress => ?_)
    constructor
    · rintro ⟨t, hloop, h⟩
      obtain ⟨hundo, rfl⟩ := Checked.pure_ok.mp h
      exact ⟨hloop, hundo.symm⟩
    · rintro ⟨hloop, hundo⟩
      exact ⟨s', hloop, Checked.pure_ok.mpr ⟨hundo.symm, rfl⟩⟩

end

end RavenCash
