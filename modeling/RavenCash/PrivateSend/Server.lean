import RavenCash.Evo.List
import RavenCash.Lib.Simulation

/-!
# The mixing server

`CPrivateSendServer` of a synced smartnode: the messages `dsa` (a participant joins), `dsi` (an entry with inputs and
outputs) and `dss` (signed inputs), the timeouts and the maintenance. The queues announced to the network, the status
messages and the collaterals that are charged do not change the session and are left out.

Two fields are not of the source: `accepted` are the entries of the session as `AddEntry` took them, with the coins that
`IsValidInOuts` saw, and `finalized` are the transactions that `CreateFinalTransaction` built, with what was accepted
then.
-/

set_option autoImplicit false

namespace RavenCash.PrivateSend

open Evo (CService)

/-! ## Denominations -/

def vecStandardDenominations : List CAmount :=
  [10000 * COIN + 10000, 1000 * COIN + 1000, 100 * COIN + 100, 10 * COIN + 10, 1 * COIN + 1]

/-- `GetDenominations` without a random choice: the bits of the denominations of the outputs, none if an output has no
denomination. -/
def getDenominations (vecTxOut : List CTxOut) : Nat :=
  if vecTxOut.all fun txout => vecStandardDenominations.contains txout.nValue then
    (vecStandardDenominations.zipIdx.map fun s =>
      if vecTxOut.any fun txout => txout.nValue == s.1 then 2 ^ s.2 else 0).sum
  else 0

/-- `GetDenominationsBits` -/
def getDenominationsBits (nDenom : Int32) : Option (List Nat) :=
  if 2 ^ vecStandardDenominations.length ≤ nDenom.toInt then none
  else
    let vecBits := (List.range vecStandardDenominations.length).filter fun i => nDenom.toBitVec.getLsbD i
    if vecBits.isEmpty then none else some vecBits

/-! ## Entries -/

inductive PoolMessage where
  | ERR_ALREADY_HAVE
  | ERR_DENOM
  | ERR_ENTRIES_FULL
  | ERR_FEES
  | ERR_INVALID_COLLATERAL
  | ERR_INVALID_INPUT
  | ERR_INVALID_SCRIPT
  | ERR_MAXIMUM
  | ERR_MISSING_TX
  | ERR_SIZE_MISMATCH
deriving DecidableEq, Repr

inductive PoolState where
  | POOL_STATE_IDLE
  | POOL_STATE_QUEUE
  | POOL_STATE_ACCEPTING_ENTRIES
  | POOL_STATE_SIGNING
deriving DecidableEq, Repr

/-- `prevPubKey` and `fHasSig` are not serialized. -/
structure CTxDSIn extends CTxIn where
  prevPubKey : CScript := []
  fHasSig : Bool := false
deriving DecidableEq, Repr

structure CPrivateSendEntry where
  vecTxDSIn : List CTxDSIn
  vecTxOut : List CTxOut
  txCollateral : CTransaction
  addr : CService
deriving DecidableEq, Repr

/-- An entry as `AddEntry` took it, with the coins of its inputs. -/
structure AcceptedEntry where
  vecTxIn : List CTxIn
  vecTxOut : List CTxOut
  coins : List CTxOut
deriving DecidableEq, Repr

def nPoolMinParticipants : Nat := 3
def nPoolMaxParticipants : Nat := 5
def PRIVATESEND_ENTRY_MAX_SIZE : Nat := 9
def PRIVATESEND_QUEUE_TIMEOUT : Int := 30
def PRIVATESEND_SIGNING_TIMEOUT : Int := 15
def MEMPOOL_HEIGHT : Int := 0x7FFFFFFF

/-- `VerifyScript` with `SCRIPT_VERIFY_P2SH | SCRIPT_VERIFY_STRICTENC` on an input of a transaction. A script that
pushes one byte leaves it on the stack: to an empty script it is true, unless it is a zero, and one that pays to a
key hash fails on it, since `OP_CHECKSIG` needs two items. -/
class ScriptVerifier where
  verifyScript : CScript → CScript → List CTxIn → List CTxOut → Nat → Bool
  verify_push : ∀ b vin vout nIn, b ≠ 0 → b ≠ 0x80 → verifyScript [0x01, b] [] vin vout nIn = true
  verify_push_pubKeyHash : ∀ b script vin vout nIn, CScript.isPayToPublicKeyHash script = true →
    verifyScript [0x01, b] script vin vout nIn = false

/-- What the server asks of the node: the time, the unspent coins of the chain and the mempool, which transactions
are locked, which collaterals are valid, which peers are connected, whether it is listed and has opened a queue too
recently, and random numbers. -/
structure MixingEnv where
  getTime : Int
  getCoin : COutPoint → Option Coin
  isLocked : UInt256 → Bool
  isCollateralValid : CTransaction → Bool
  isConnected : CService → Bool
  isListed : Bool
  isRecent : Bool
  getRandInt : Nat → Nat
  getRandInt_lt : ∀ nMax, 0 < nMax → getRandInt nMax < nMax

/-- The lambda of `IsValidInOuts`, with the scripts seen before. An error says whether the collateral is consumed. -/
def checkTxOut (nSessionDenom : Int32) (setScripPubKeys : List CScript) (txout : CTxOut) :
    Except (PoolMessage × Bool) (List CScript) := do
  failIf ((getDenominations [txout] : Int) != nSessionDenom.toInt) (.ERR_DENOM, true)
  failIf (!CScript.isPayToPublicKeyHash txout.scriptPubKey) (.ERR_INVALID_SCRIPT, true)
  failIf (setScripPubKeys.contains txout.scriptPubKey) (.ERR_ALREADY_HAVE, true)
  return txout.scriptPubKey :: setScripPubKeys

/-- The loop over the outputs: the scripts and the fees after it. -/
def checkOutputs (nSessionDenom : Int32) : List CScript → CAmount → List CTxOut →
    Except (PoolMessage × Bool) (List CScript × CAmount)
  | scripts, nFees, [] => .ok (scripts, nFees)
  | scripts, nFees, txout :: vout => do
      let scripts ← checkTxOut nSessionDenom scripts txout
      checkOutputs nSessionDenom scripts (nFees - txout.nValue) vout

/-- The loop over the inputs: the fees after it and the coins that are spent. -/
def checkInputs (env : MixingEnv) (nSessionDenom : Int32) : List CScript → CAmount → List CTxIn →
    Except (PoolMessage × Bool) (CAmount × List CTxOut)
  | _, nFees, [] => .ok (nFees, [])
  | scripts, nFees, txin :: vin => do
      failIf txin.prevout.isNull (.ERR_INVALID_INPUT, true)
      let coin ← orFail (env.getCoin txin.prevout) (.ERR_MISSING_TX, false)
      failIf (coin.nHeight == MEMPOOL_HEIGHT && !env.isLocked txin.prevout.hash) (.ERR_MISSING_TX, false)
      let scripts ← checkTxOut nSessionDenom scripts coin.out
      let (nFees, coins) ← checkInputs env nSessionDenom scripts (nFees + coin.out.nValue) vin
      return (nFees, coin.out :: coins)

/-- `IsValidInOuts`, with the coins it saw. -/
def isValidInOuts (env : MixingEnv) (nSessionDenom : Int32) (vin : List CTxIn) (vout : List CTxOut) :
    Except (PoolMessage × Bool) (List CTxOut) := do
  failIf (vin.length != vout.length) (.ERR_SIZE_MISMATCH, true)
  let (scripts, nFees) ← checkOutputs nSessionDenom [] 0 vout
  let (nFees, coins) ← checkInputs env nSessionDenom scripts nFees vin
  failIf (nFees != 0) (.ERR_FEES, false)
  return coins

/-! ## The session -/

/-- A transaction that `CreateFinalTransaction` built, with the denomination and the accepted entries of the session. -/
structure Finalized where
  vin : List CTxIn
  vout : List CTxOut
  nSessionDenom : Int32
  accepted : List AcceptedEntry

/-- `finalVin` and `finalVout` are those of `finalMutableTransaction`. -/
structure CPrivateSendServer where
  nState : PoolState := .POOL_STATE_IDLE
  nTimeLastSuccessfulStep : Int := 0
  nSessionID : Int := 0
  nSessionDenom : Int32 := 0
  nSessionMaxParticipants : Nat := 0
  vecSessionCollaterals : List CTransaction := []
  vecEntries : List CPrivateSendEntry := []
  finalVin : List CTxIn := []
  finalVout : List CTxOut := []
  accepted : List AcceptedEntry := []
  finalized : List Finalized := []

/-- `CompareInputBIP69`, not greater. -/
def inputLe (a b : CTxIn) : Bool :=
  decide (a.prevout.hash < b.prevout.hash) || a.prevout.hash == b.prevout.hash && decide (a.prevout.n ≤ b.prevout.n)

/-- The order of `prevector`, not greater: a shorter script comes first. -/
def scriptLe (a b : CScript) : Bool :=
  decide (a.length < b.length) || a.length == b.length && decide (a ≤ b)

/-- `CompareOutputBIP69`, not greater. -/
def outputLe (a b : CTxOut) : Bool :=
  decide (a.nValue < b.nValue) || a.nValue == b.nValue && scriptLe a.scriptPubKey b.scriptPubKey

namespace CPrivateSendServer

def isSessionReady (s : CPrivateSendServer) : Bool :=
  s.nSessionMaxParticipants != 0 && decide (s.nSessionMaxParticipants ≤ s.vecSessionCollaterals.length)

def setNull (env : MixingEnv) (s : CPrivateSendServer) : CPrivateSendServer :=
  { finalized := s.finalized, nTimeLastSuccessfulStep := env.getTime }

def setState (env : MixingEnv) (s : CPrivateSendServer) (nStateNew : PoolState) : CPrivateSendServer :=
  { s with nState := nStateNew, nTimeLastSuccessfulStep := env.getTime }

/-- `RelayStatus`: the session ends when no participant is connected any more. -/
def relayStatus (env : MixingEnv) (s : CPrivateSendServer) : CPrivateSendServer :=
  let nDisconnected := (s.vecEntries.filter fun entry => !env.isConnected entry.addr).length
  if nDisconnected = 0 then s
  else if nDisconnected = s.vecEntries.length then s.setNull env
  else s

/-- `RelayFinalTransaction` sends a status if some participant is not connected. -/
def relayFinalTransaction (env : MixingEnv) (s : CPrivateSendServer) : CPrivateSendServer :=
  if s.vecEntries.all fun entry => env.isConnected entry.addr then s else s.relayStatus env

/-- The inputs of the entries in their order. -/
def inputs (entries : List CPrivateSendEntry) : List CTxIn :=
  entries.flatMap fun entry => entry.vecTxDSIn.map CTxDSIn.toCTxIn

/-- The outputs of the entries in their order. -/
def outputs (entries : List CPrivateSendEntry) : List CTxOut := entries.flatMap CPrivateSendEntry.vecTxOut

def createFinalTransaction (env : MixingEnv) (s : CPrivateSendServer) : CPrivateSendServer :=
  let vin := (inputs s.vecEntries).insertionSort fun a b => inputLe a b
  let vout := (outputs s.vecEntries).insertionSort fun a b => outputLe a b
  let s := { s with
    finalVin := vin
    finalVout := vout
    finalized := ⟨vin, vout, s.nSessionDenom, s.accepted⟩ :: s.finalized }
  (s.setState env .POOL_STATE_SIGNING).relayFinalTransaction env

def isSignaturesComplete (s : CPrivateSendServer) : Bool :=
  s.vecEntries.all fun entry => entry.vecTxDSIn.all CTxDSIn.fHasSig

/-- `CheckPool`. `CommitFinalTransaction` ends the session whether the transaction is accepted or not. -/
def checkPool (env : MixingEnv) (s : CPrivateSendServer) : CPrivateSendServer :=
  if s.nState = .POOL_STATE_ACCEPTING_ENTRIES ∧ s.nSessionMaxParticipants ≤ s.vecEntries.length then
    s.createFinalTransaction env
  else if s.nState = .POOL_STATE_SIGNING ∧ s.isSignaturesComplete then s.setNull env
  else s

/-- `AddEntry`. -/
def addEntry (env : MixingEnv) (s : CPrivateSendServer) (addr : CService) (vecTxIn : List CTxIn)
    (vecTxOut : List CTxOut)
    (txCollateral : CTransaction) : Except (PoolMessage × Bool) CPrivateSendServer := do
  failIf (decide (s.nSessionMaxParticipants ≤ s.vecEntries.length)) (.ERR_ENTRIES_FULL, false)
  failIf (!env.isCollateralValid txCollateral) (.ERR_INVALID_COLLATERAL, false)
  failIf (decide (PRIVATESEND_ENTRY_MAX_SIZE < vecTxIn.length)) (.ERR_MAXIMUM, true)
  failIf (vecTxIn.any fun txin => (inputs s.vecEntries).any fun txdsin => txdsin.prevout == txin.prevout)
    (.ERR_ALREADY_HAVE, false)
  let coins ← isValidInOuts env s.nSessionDenom vecTxIn vecTxOut
  return { s with
    vecEntries := s.vecEntries ++ [⟨vecTxIn.map fun txin => ⟨txin, [], false⟩, vecTxOut, txCollateral, addr⟩]
    accepted := s.accepted ++ [⟨vecTxIn, vecTxOut, coins⟩] }

/-! ## Signatures -/

/-- `CPrivateSendEntry::AddScriptSig` on the inputs of an entry; `none` is false. -/
def addSigToInputs (txin : CTxIn) : List CTxDSIn → Option (List CTxDSIn)
  | [] => none
  | txdsin :: rest =>
      if txdsin.prevout = txin.prevout ∧ txdsin.nSequence = txin.nSequence then
        if txdsin.fHasSig then none
        else some ({ txdsin with scriptSig := txin.scriptSig, fHasSig := true } :: rest)
      else (addSigToInputs txin rest).map (txdsin :: ·)

/-- The first entry that takes the signature. -/
def addSigToEntries (txin : CTxIn) : List CPrivateSendEntry → Option (List CPrivateSendEntry)
  | [] => none
  | entry :: rest =>
      match addSigToInputs txin entry.vecTxDSIn with
      | some vecTxDSIn => some ({ entry with vecTxDSIn } :: rest)
      | none => (addSigToEntries txin rest).map (entry :: ·)

/-- The position and script of the last input of the entries with this outpoint. -/
def findInput (prevout : COutPoint) (entries : List CPrivateSendEntry) : Option (Nat × CScript) :=
  ((entries.flatMap CPrivateSendEntry.vecTxDSIn).zipIdx.reverse.find? fun p => p.1.prevout == prevout).map
    fun p => (p.2, p.1.prevPubKey)

/-- The loop of `AddScriptSig` over `finalMutableTransaction.vin`. -/
def setFinalSig (s : CPrivateSendServer) (txinNew : CTxIn) : CPrivateSendServer :=
  { s with finalVin := s.finalVin.map fun txin =>
      if txin.prevout = txinNew.prevout ∧ txin.nSequence = txinNew.nSequence then
        { txin with scriptSig := txinNew.scriptSig }
      else txin }

section

variable [ScriptVerifier]

def isInputScriptSigValid (s : CPrivateSendServer) (txin : CTxIn) : Bool :=
  match findInput txin.prevout s.vecEntries with
  | none => false
  | some (nTxInIndex, sigPubKey) =>
      let vin := (inputs s.vecEntries).modify nTxInIndex fun input => { input with scriptSig := txin.scriptSig }
      ScriptVerifier.verifyScript txin.scriptSig sigPubKey vin (outputs s.vecEntries) nTxInIndex

/-- `AddScriptSig`: its result and the session. The final transaction takes the signature before the entries do. -/
def addScriptSig (s : CPrivateSendServer) (txinNew : CTxIn) : Bool × CPrivateSendServer :=
  if (inputs s.vecEntries).any fun txdsin => txdsin.scriptSig == txinNew.scriptSig then (false, s)
  else if !s.isInputScriptSigValid txinNew then (false, s)
  else
    match addSigToEntries txinNew s.vecEntries with
    | some vecEntries => (true, { s.setFinalSig txinNew with vecEntries })
    | none => (false, s.setFinalSig txinNew)

/-- The loop of `dss`. -/
def addScriptSigs (env : MixingEnv) : CPrivateSendServer → List CTxIn → CPrivateSendServer
  | s, [] => s.checkPool env
  | s, txin :: vecTxIn =>
      match s.addScriptSig txin with
      | (true, s) => addScriptSigs env s vecTxIn
      | (false, s) => s.relayStatus env

end

/-! ## Messages and maintenance -/

/-- `IsAcceptableDSA` -/
def isAcceptableDSA (env : MixingEnv) (nDenom : Int32) (txCollateral : CTransaction) : Bool :=
  (getDenominationsBits nDenom).isSome && env.isCollateralValid txCollateral

/-- `CreateNewSession` -/
def createNewSession (env : MixingEnv) (s : CPrivateSendServer) (nDenom : Int32) (txCollateral : CTransaction) :
    CPrivateSendServer :=
  if s.nState ≠ .POOL_STATE_IDLE then s
  else if !isAcceptableDSA env nDenom txCollateral then s
  else
    let s := { s with
      nSessionID := env.getRandInt 999999 + 1
      nSessionDenom := nDenom
      nSessionMaxParticipants := nPoolMinParticipants +
        env.getRandInt (nPoolMaxParticipants - nPoolMinParticipants + 1) }
    let s := s.setState env .POOL_STATE_QUEUE
    { s with vecSessionCollaterals := s.vecSessionCollaterals ++ [txCollateral] }

/-- `AddUserToExistingSession` -/
def addUserToExistingSession (env : MixingEnv) (s : CPrivateSendServer) (nDenom : Int32) (txCollateral : CTransaction) :
    CPrivateSendServer :=
  if s.isSessionReady then s
  else if !isAcceptableDSA env nDenom txCollateral then s
  else if s.nState ≠ .POOL_STATE_QUEUE then s
  else if nDenom ≠ s.nSessionDenom then s
  else { s with vecSessionCollaterals := s.vecSessionCollaterals ++ [txCollateral] }

/-- `dsa` -/
def dsAccept (env : MixingEnv) (s : CPrivateSendServer) (nDenom : Int32) (txCollateral : CTransaction) :
    CPrivateSendServer :=
  if s.isSessionReady then s
  else if !env.isListed then s
  else if s.vecSessionCollaterals.isEmpty && env.isRecent then s
  else if s.nSessionID = 0 then s.createNewSession env nDenom txCollateral
  else s.addUserToExistingSession env nDenom txCollateral

/-- `dsi` -/
def dsVin (env : MixingEnv) (s : CPrivateSendServer) (addr : CService) (vecTxIn : List CTxIn) (vecTxOut : List CTxOut)
    (txCollateral : CTransaction) : CPrivateSendServer :=
  if !s.isSessionReady then s
  else
    match s.addEntry env addr vecTxIn vecTxOut txCollateral with
    | .error _ => s
    | .ok s => (s.checkPool env).relayStatus env

def checkTimeout (env : MixingEnv) (s : CPrivateSendServer) : CPrivateSendServer :=
  if s.nState = .POOL_STATE_IDLE then s
  else
    let nTimeout := if s.nState = .POOL_STATE_SIGNING then PRIVATESEND_SIGNING_TIMEOUT else PRIVATESEND_QUEUE_TIMEOUT
    if env.getTime - s.nTimeLastSuccessfulStep < nTimeout then s
    else if s.nState = .POOL_STATE_QUEUE ∧ nPoolMinParticipants ≤ s.vecSessionCollaterals.length then
      { s with nSessionMaxParticipants := s.vecSessionCollaterals.length }
    else if s.nState = .POOL_STATE_ACCEPTING_ENTRIES ∧ nPoolMinParticipants ≤ s.vecEntries.length then
      { s with nSessionMaxParticipants := s.vecEntries.length }.checkPool env
    else s.setNull env

def checkForCompleteQueue (env : MixingEnv) (s : CPrivateSendServer) : CPrivateSendServer :=
  if s.nState = .POOL_STATE_QUEUE ∧ s.isSessionReady then s.setState env .POOL_STATE_ACCEPTING_ENTRIES else s

end CPrivateSendServer

/-- What reaches the server. -/
inductive MixingOp where
  | dsAccept (nDenom : Int32) (txCollateral : CTransaction)
  | dsVin (addr : CService) (vecTxIn : List CTxIn) (vecTxOut : List CTxOut) (txCollateral : CTransaction)
  | dsSignFinalTx (vecTxIn : List CTxIn)
  | checkTimeout
  | checkForCompleteQueue

def CPrivateSendServer.step [ScriptVerifier] (s : CPrivateSendServer) (op : MixingEnv × MixingOp) :
    CPrivateSendServer :=
  match op.2 with
  | .dsAccept nDenom txCollateral => s.dsAccept op.1 nDenom txCollateral
  | .dsVin addr vecTxIn vecTxOut txCollateral => s.dsVin op.1 addr vecTxIn vecTxOut txCollateral
  | .dsSignFinalTx vecTxIn => s.addScriptSigs op.1 vecTxIn
  | .checkTimeout => s.checkTimeout op.1
  | .checkForCompleteQueue => s.checkForCompleteQueue op.1

end RavenCash.PrivateSend
