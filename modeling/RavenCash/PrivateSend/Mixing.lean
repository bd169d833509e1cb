import RavenCash.PrivateSend.Server

/-!
# A mixing transaction takes nothing from its participants

The checks of `IsValidInOuts` are per entry: as many inputs as outputs, all of the denomination of the session. They add
up to the final transaction because a session never changes its denomination while it has entries, and because no
outpoint is taken twice: within an entry the script of the coin would repeat, and across entries `AddEntry` looks for
it.
-/

set_option autoImplicit false

namespace RavenCash.PrivateSend

open Simulation

/-- The standard denomination that a session with this bit mixes. -/
def IsDenomination (nDenom : Int32) (nValue : CAmount) : Prop :=
  ∃ i, vecStandardDenominations[i]? = some nValue ∧ nDenom.toInt = 2 ^ i

/-- What identifies an input, whatever its signature. -/
def spends (txin : CTxIn) : COutPoint × UInt32 := (txin.prevout, txin.nSequence)

/-- An entry that `AddEntry` lets into a session. -/
structure AcceptedEntry.Checked (nDenom : Int32) (a : AcceptedEntry) : Prop where
  inputs_le : a.vecTxIn.length ≤ PRIVATESEND_ENTRY_MAX_SIZE
  length_vecTxOut : a.vecTxOut.length = a.vecTxIn.length
  length_coins : a.coins.length = a.vecTxIn.length
  denomination_vecTxOut : ∀ txout ∈ a.vecTxOut, IsDenomination nDenom txout.nValue
  denomination_coins : ∀ coin ∈ a.coins, IsDenomination nDenom coin.nValue
  pubKeyHash_coins : ∀ coin ∈ a.coins, CScript.isPayToPublicKeyHash coin.scriptPubKey = true

/-- The inputs of the accepted entries. -/
def acceptedInputs (accepted : List AcceptedEntry) : List CTxIn := accepted.flatMap AcceptedEntry.vecTxIn

def acceptedOutputs (accepted : List AcceptedEntry) : List CTxOut := accepted.flatMap AcceptedEntry.vecTxOut

def acceptedCoins (accepted : List AcceptedEntry) : List CTxOut := accepted.flatMap AcceptedEntry.coins

/-- The exact sum, which no `CAmount` bounds. -/
def totalValue (vout : List CTxOut) : Int := (vout.map fun txout => txout.nValue.toInt).sum

/-- The final transaction is what the participants agreed to: nothing is lost, and all of it has one denomination. -/
structure Finalized.Sound (f : Finalized) : Prop where
  length_vin : f.vin.length = f.vout.length
  length_coins : (acceptedCoins f.accepted).length = f.vin.length
  distinct : (f.vin.map CTxIn.prevout).Nodup
  denomination_vout : ∀ txout ∈ f.vout, IsDenomination f.nSessionDenom txout.nValue
  denomination_coins : ∀ coin ∈ acceptedCoins f.accepted, IsDenomination f.nSessionDenom coin.nValue
  total : totalValue (acceptedCoins f.accepted) = totalValue f.vout
  inputs : (f.vin.map spends).Perm ((acceptedInputs f.accepted).map spends)
  outputs : f.vout.Perm (acceptedOutputs f.accepted)

/-! ## The checks of an entry -/

theorem isDenomination_of_getDenominations {nDenom : Int32} {txout : CTxOut} (hne : nDenom ≠ 0)
    (h : (getDenominations [txout] : Int) = nDenom.toInt) : IsDenomination nDenom txout.nValue := by
  have hzero : getDenominations [txout] ≠ 0 := by
    intro hd
    rw [hd] at h
    exact hne (Int32.toInt_inj.mp h.symm)
  have hmem : txout.nValue ∈ vecStandardDenominations := by
    by_contra hmem
    exact hzero (by simp [getDenominations, hmem])
  obtain ⟨i, hi, hv⟩ := List.mem_iff_getElem.mp hmem
  refine ⟨i, hv ▸ List.getElem?_eq_getElem hi, ?_⟩
  rw [← h]
  simp only [getDenominations, List.all_cons, List.all_nil, Bool.and_true, List.any_cons, List.any_nil, Bool.or_false,
    ← hv]
  -- only the bit of the value is set
  clear hv
  revert i
  decide

theorem IsDenomination.unique {nDenom : Int32} {v w : CAmount} (hv : IsDenomination nDenom v)
    (hw : IsDenomination nDenom w) : v = w := by
  obtain ⟨i, hi, hbit⟩ := hv
  obtain ⟨j, hj, hbit'⟩ := hw
  have hpow : (2 : Int) ^ i = 2 ^ j := hbit.symm.trans hbit'
  have : i = j := Nat.pow_right_injective (le_refl 2) (by exact_mod_cast hpow)
  subst this
  simpa [hi] using hj

/-- As many coins of one denomination are worth as much. -/
theorem totalValue_eq {nDenom : Int32} {l l' : List CTxOut} (hlen : l.length = l'.length)
    (hl : ∀ txout ∈ l, IsDenomination nDenom txout.nValue) (hl' : ∀ txout ∈ l', IsDenomination nDenom txout.nValue) :
    totalValue l = totalValue l' := by
  induction l generalizing l' with
  | nil => rw [List.length_eq_zero_iff.mp hlen.symm]
  | cons txout l ih =>
    cases l' with
    | nil => cases hlen
    | cons txout' l' =>
      have hvalue := (hl txout List.mem_cons_self).unique (hl' txout' List.mem_cons_self)
      have hrest := ih (Nat.succ.inj hlen) (fun o h => hl o (List.mem_cons_of_mem _ h))
        (fun o h => hl' o (List.mem_cons_of_mem _ h))
      simp only [totalValue, List.map_cons, List.sum_cons] at hrest ⊢
      rw [hvalue, hrest]

theorem checkTxOut_ok {nDenom : Int32} {scripts scripts' : List CScript} {txout : CTxOut} :
    checkTxOut nDenom scripts txout = .ok scripts' ↔
      (getDenominations [txout] : Int) = nDenom.toInt ∧ CScript.isPayToPublicKeyHash txout.scriptPubKey = true ∧
        txout.scriptPubKey ∉ scripts ∧ txout.scriptPubKey :: scripts = scripts' := by
  simp only [checkTxOut, bind_ok, failIf_ok, pure_ok]
  simp

theorem checkOutputs_ok {nDenom : Int32} {vout : List CTxOut} {scripts scripts' : List CScript} {nFees nFees' : CAmount}
    (h : checkOutputs nDenom scripts nFees vout = .ok (scripts', nFees')) :
    ∀ txout ∈ vout, (getDenominations [txout] : Int) = nDenom.toInt := by
  induction vout generalizing scripts nFees with
  | nil => simp
  | cons txout vout ih =>
    simp only [checkOutputs, bind_ok, checkTxOut_ok] at h
    obtain ⟨next, ⟨hd, -, -, -⟩, hrest⟩ := h
    exact List.forall_mem_cons.mpr ⟨hd, ih hrest⟩

/-- A repeated outpoint would be the same coin, so its script would be among those seen. -/
theorem checkInputs_ok {env : MixingEnv} {nDenom : Int32} {vin : List CTxIn} {scripts : List CScript}
    {nFees nFees' : CAmount} {coins : List CTxOut} (h : checkInputs env nDenom scripts nFees vin =
      .ok (nFees', coins)) :
    coins.length = vin.length ∧
      (∀ coin ∈ coins, (getDenominations [coin] : Int) = nDenom.toInt ∧
        CScript.isPayToPublicKeyHash coin.scriptPubKey = true) ∧
      (∀ txin ∈ vin, ∀ coin, env.getCoin txin.prevout = some coin → coin.out.scriptPubKey ∉ scripts) ∧
      (vin.map CTxIn.prevout).Nodup := by
  induction vin generalizing scripts nFees nFees' coins with
  | nil =>
    simp only [checkInputs, Except.ok.injEq, Prod.mk.injEq] at h
    simp [← h.2]
  | cons txin vin ih =>
    simp only [checkInputs, bind_ok, checkTxOut_ok, failIf_ok, orFail_ok, pure_ok] at h
    obtain ⟨-, -, coin, hcoin, -, -, -, ⟨hd, hscript, hnew, rfl⟩, ⟨nFees₁, rest⟩, hrest, heq⟩ := h
    simp only [Prod.mk.injEq] at heq
    obtain ⟨rfl, rfl⟩ := heq
    obtain ⟨hlen, hcoins, hseen, hnodup⟩ := ih hrest
    refine ⟨by simp [hlen], List.forall_mem_cons.mpr ⟨⟨hd, hscript⟩, hcoins⟩, ?_, ?_⟩
    · intro txin' hmem coin' hcoin'
      rcases List.mem_cons.mp hmem with rfl | hmem
      · rw [hcoin] at hcoin'
        cases hcoin'
        exact hnew
      · exact fun hin => hseen txin' hmem coin' hcoin' (List.mem_cons_of_mem _ hin)
    · rw [List.map_cons, List.nodup_cons]
      refine ⟨fun hmem => ?_, hnodup⟩
      obtain ⟨txin', hmem, heq⟩ := List.mem_map.mp hmem
      exact hseen txin' hmem coin (heq ▸ hcoin) List.mem_cons_self

theorem isValidInOuts_ok {env : MixingEnv} {nDenom : Int32} {vin : List CTxIn} {vout coins : List CTxOut}
    (hne : nDenom ≠ 0) (hle : vin.length ≤ PRIVATESEND_ENTRY_MAX_SIZE)
    (h : isValidInOuts env nDenom vin vout = .ok coins) :
    AcceptedEntry.Checked nDenom ⟨vin, vout, coins⟩ ∧ (vin.map CTxIn.prevout).Nodup := by
  simp only [isValidInOuts, bind_ok, failIf_ok, pure_ok] at h
  obtain ⟨-, hsize, ⟨scripts, nFees⟩, hout, ⟨nFees', coins'⟩, hin, -, -, rfl⟩ := h
  obtain ⟨hlen, hcoins, -, hnodup⟩ := checkInputs_ok hin
  have hsize : vin.length = vout.length := by simpa using hsize
  refine ⟨⟨hle, hsize.symm, hlen, ?_, ?_, fun coin hmem => (hcoins coin hmem).2⟩, hnodup⟩
  · exact fun txout hmem => isDenomination_of_getDenominations hne (checkOutputs_ok hout txout hmem)
  · exact fun coin hmem => isDenomination_of_getDenominations hne (hcoins coin hmem).1

/-! ## The session -/

/-- An entry of the session next to the entry as it was accepted: only its signatures may have changed. -/
structure CPrivateSendEntry.Matches (entry : CPrivateSendEntry) (a : AcceptedEntry) : Prop where
  spends : entry.vecTxDSIn.map (fun txdsin => spends txdsin.toCTxIn) = a.vecTxIn.map spends
  vecTxOut : entry.vecTxOut = a.vecTxOut
  prevPubKey : ∀ txdsin ∈ entry.vecTxDSIn, txdsin.prevPubKey = []

namespace CPrivateSendServer

/-- The invariant of a session: its entries passed the checks for its denomination, and an idle server has none. -/
structure Valid (s : CPrivateSendServer) : Prop where
  idle : s.nState = .POOL_STATE_IDLE →
    s.nSessionMaxParticipants = 0 ∧ s.vecSessionCollaterals = [] ∧ s.accepted = []
  active : s.nState ≠ .POOL_STATE_IDLE → s.nSessionDenom ≠ 0 ∧ s.nSessionMaxParticipants ≠ 0
  participants : s.nSessionMaxParticipants ≤ nPoolMaxParticipants ∧
    s.vecSessionCollaterals.length ≤ nPoolMaxParticipants ∧ s.accepted.length ≤ nPoolMaxParticipants
  entries : List.Forall₂ CPrivateSendEntry.Matches s.vecEntries s.accepted
  checked : ∀ a ∈ s.accepted, a.Checked s.nSessionDenom
  distinct : ((acceptedInputs s.accepted).map CTxIn.prevout).Nodup
  finalized : ∀ f ∈ s.finalized, f.Sound

theorem inputs_spends {entries : List CPrivateSendEntry} {accepted : List AcceptedEntry}
    (h : List.Forall₂ CPrivateSendEntry.Matches entries accepted) :
    (inputs entries).map spends = (acceptedInputs accepted).map spends := by
  induction h with
  | nil => rfl
  | @cons entry a entries accepted hmatch _ ih =>
    simp only [inputs, acceptedInputs, List.flatMap_cons, List.map_append, List.map_map] at ih ⊢
    rw [ih, ← hmatch.spends]
    rfl

theorem outputs_eq {entries : List CPrivateSendEntry} {accepted : List AcceptedEntry}
    (h : List.Forall₂ CPrivateSendEntry.Matches entries accepted) : outputs entries = acceptedOutputs accepted := by
  induction h with
  | nil => rfl
  | @cons entry a entries accepted hmatch _ ih =>
    simp only [outputs, acceptedOutputs, List.flatMap_cons] at ih ⊢
    rw [ih, hmatch.vecTxOut]

theorem map_prevout {l l' : List CTxIn} (h : l.map spends = l'.map spends) :
    l.map CTxIn.prevout = l'.map CTxIn.prevout := by
  simpa [spends, Function.comp_def] using congrArg (List.map Prod.fst) h

/-! ## What checked entries add up to -/

theorem length_accepted {nDenom : Int32} {accepted : List AcceptedEntry} (h : ∀ a ∈ accepted, a.Checked nDenom) :
    (acceptedOutputs accepted).length = (acceptedInputs accepted).length ∧
      (acceptedCoins accepted).length = (acceptedInputs accepted).length := by
  induction accepted with
  | nil => exact ⟨rfl, rfl⟩
  | cons a accepted ih =>
    have hrest := ih fun a' hmem => h a' (List.mem_cons_of_mem _ hmem)
    have ha := h a List.mem_cons_self
    simp only [acceptedOutputs, acceptedInputs, acceptedCoins, List.flatMap_cons, List.length_append] at hrest ⊢
    rw [ha.length_vecTxOut, ha.length_coins]
    omega

theorem denomination_accepted {nDenom : Int32} {accepted : List AcceptedEntry} (h : ∀ a ∈ accepted, a.Checked nDenom) :
    (∀ txout ∈ acceptedOutputs accepted, IsDenomination nDenom txout.nValue) ∧
      ∀ coin ∈ acceptedCoins accepted, IsDenomination nDenom coin.nValue := by
  constructor
  · intro txout hmem
    obtain ⟨a, ha, hmem⟩ := List.mem_flatMap.mp hmem
    exact (h a ha).denomination_vecTxOut txout hmem
  · intro coin hmem
    obtain ⟨a, ha, hmem⟩ := List.mem_flatMap.mp hmem
    exact (h a ha).denomination_coins coin hmem

theorem totalValue_perm {l l' : List CTxOut} (h : l.Perm l') : totalValue l = totalValue l' := (h.map _).sum_eq

theorem Valid.sound {s : CPrivateSendServer} (hs : s.Valid) :
    Finalized.Sound ⟨(inputs s.vecEntries).insertionSort fun a b => inputLe a b,
      (outputs s.vecEntries).insertionSort fun a b => outputLe a b, s.nSessionDenom, s.accepted⟩ := by
  have hin := List.perm_insertionSort (fun a b => inputLe a b) (inputs s.vecEntries)
  have hout := List.perm_insertionSort (fun a b => outputLe a b) (outputs s.vecEntries)
  rw [outputs_eq hs.entries] at hout ⊢
  have hspends := inputs_spends hs.entries
  have hlength : (inputs s.vecEntries).length = (acceptedInputs s.accepted).length := by
    simpa using congrArg List.length hspends
  obtain ⟨hlenOut, hlenCoins⟩ := length_accepted hs.checked
  obtain ⟨hdenOut, hdenCoins⟩ := denomination_accepted hs.checked
  exact
    { length_vin := by rw [hin.length_eq, hout.length_eq, hlength, hlenOut]
      length_coins := by rw [hin.length_eq, hlength, hlenCoins]
      distinct := by
        rw [(hin.map _).nodup_iff, map_prevout hspends]
        exact hs.distinct
      denomination_vout := fun txout hmem => hdenOut txout (hout.mem_iff.mp hmem)
      denomination_coins := hdenCoins
      total := by rw [totalValue_perm hout, totalValue_eq (hlenCoins.trans hlenOut.symm) hdenCoins hdenOut]
      inputs := hspends ▸ hin.map _
      outputs := hout }

/-! ## The steps keep the invariant -/

section

variable {env : MixingEnv} {s : CPrivateSendServer}

theorem Valid.setNull (hs : s.Valid) : (s.setNull env).Valid :=
  ⟨fun _ => ⟨rfl, rfl, rfl⟩, fun h => absurd rfl h, ⟨Nat.zero_le _, Nat.zero_le _, Nat.zero_le _⟩, .nil,
    fun _ h => absurd h List.not_mem_nil, List.nodup_nil, hs.finalized⟩

theorem Valid.setState {nState : PoolState} (hs : s.Valid) (hold : s.nState ≠ .POOL_STATE_IDLE)
    (hnew : nState ≠ .POOL_STATE_IDLE) : (s.setState env nState).Valid :=
  ⟨fun h => absurd h hnew, fun _ => hs.active hold, hs.participants, hs.entries, hs.checked, hs.distinct, hs.finalized⟩

theorem Valid.relayStatus (hs : s.Valid) : (s.relayStatus env).Valid := by
  simp only [CPrivateSendServer.relayStatus]
  split_ifs
  · exact hs
  · exact hs.setNull
  · exact hs

theorem Valid.createFinalTransaction (hs : s.Valid) (hactive : s.nState ≠ .POOL_STATE_IDLE) :
    (s.createFinalTransaction env).Valid := by
  have hsigning : PoolState.POOL_STATE_SIGNING ≠ .POOL_STATE_IDLE := by decide
  simp only [CPrivateSendServer.createFinalTransaction, CPrivateSendServer.relayFinalTransaction]
  have hfinal : ∀ f ∈ Finalized.mk ((inputs s.vecEntries).insertionSort fun a b => inputLe a b)
      ((outputs s.vecEntries).insertionSort fun a b => outputLe a b) s.nSessionDenom s.accepted :: s.finalized,
      f.Sound := by
    intro f hf
    rcases List.mem_cons.mp hf with rfl | hf
    · exact hs.sound
    · exact hs.finalized f hf
  have hnext : Valid (CPrivateSendServer.setState env { s with
      finalVin := (inputs s.vecEntries).insertionSort fun a b => inputLe a b
      finalVout := (outputs s.vecEntries).insertionSort fun a b => outputLe a b
      finalized := ⟨(inputs s.vecEntries).insertionSort fun a b => inputLe a b,
        (outputs s.vecEntries).insertionSort fun a b => outputLe a b, s.nSessionDenom, s.accepted⟩ :: s.finalized }
      .POOL_STATE_SIGNING) :=
    ⟨fun h => absurd h hsigning, fun _ => hs.active hactive, hs.participants, hs.entries, hs.checked,
      hs.distinct, hfinal⟩
  split_ifs
  · exact hnext
  · exact hnext.relayStatus

theorem Valid.checkPool (hs : s.Valid) : (s.checkPool env).Valid := by
  simp only [CPrivateSendServer.checkPool]
  split_ifs with haccepting
  · exact hs.createFinalTransaction (by simp [haccepting.1])
  · exact hs.setNull
  · exact hs

theorem Valid.addEntry {t : CPrivateSendServer} {addr : Evo.CService} {vin : List CTxIn} {vout : List CTxOut}
    {txCollateral : CTransaction} (hs : s.Valid) (h : s.addEntry env addr vin vout txCollateral = .ok t) : t.Valid := by
  simp only [CPrivateSendServer.addEntry, bind_ok, failIf_ok, pure_ok, decide_eq_false_iff_not, not_le, not_lt] at h
  obtain ⟨-, hroom, -, -, -, hle, -, hnew, coins, hvalid, rfl⟩ := h
  have hactive : s.nState ≠ .POOL_STATE_IDLE := by
    intro hidle
    have := (hs.idle hidle).1
    omega
  obtain ⟨hchecked, hnodup⟩ := isValidInOuts_ok (hs.active hactive).1 hle hvalid
  have hlength := hs.entries.length_eq
  have hmax := hs.participants.1
  refine ⟨fun h => absurd h hactive, hs.active, ⟨hs.participants.1, hs.participants.2.1, ?_⟩, ?_, ?_, ?_, hs.finalized⟩
  · simp only [List.length_append, List.length_singleton]
    omega
  · refine List.rel_append hs.entries (.cons ⟨?_, rfl, ?_⟩ .nil)
    · simp [Function.comp_def]
    · simp
  · intro a hmem
    rcases List.mem_append.mp hmem with hmem | hmem
    · exact hs.checked a hmem
    · rw [List.mem_singleton.mp hmem]
      exact hchecked
  · -- an outpoint of the new entry is in no entry, and the entries have those of the accepted ones
    simp only [acceptedInputs, List.flatMap_append, List.flatMap_cons, List.flatMap_nil, List.append_nil,
      List.map_append]
    refine List.Nodup.append hs.distinct hnodup fun prevout hold hmem => ?_
    rw [← acceptedInputs, ← map_prevout (inputs_spends hs.entries)] at hold
    obtain ⟨txdsin, hdsin, hprevout⟩ := List.mem_map.mp hold
    obtain ⟨txin, htxin, heq⟩ := List.mem_map.mp hmem
    have := (List.any_eq_false.mp hnew) txin htxin
    simp only [List.any_eq_true, beq_iff_eq, not_exists, not_and] at this
    exact this txdsin hdsin (hprevout.trans heq.symm)

theorem addSigToInputs_spends {txin : CTxIn} {l l' : List CTxDSIn} (h : addSigToInputs txin l = some l') :
    l'.map (fun txdsin => spends txdsin.toCTxIn) = l.map (fun txdsin => spends txdsin.toCTxIn) ∧
      l'.map CTxDSIn.prevPubKey = l.map CTxDSIn.prevPubKey := by
  induction l generalizing l' with
  | nil => cases h
  | cons txdsin l ih =>
    simp only [addSigToInputs] at h
    split_ifs at h with hmatch hsig
    · cases h
      exact ⟨rfl, rfl⟩
    · obtain ⟨rest, hrest, rfl⟩ := Option.map_eq_some_iff.mp h
      simp [ih hrest]

theorem addSigToEntries_matches {txin : CTxIn} {entries entries' : List CPrivateSendEntry}
    {accepted : List AcceptedEntry}
    (hmatch : List.Forall₂ CPrivateSendEntry.Matches entries accepted)
    (h : addSigToEntries txin entries = some entries') : List.Forall₂ CPrivateSendEntry.Matches entries' accepted := by
  induction hmatch generalizing entries' with
  | nil => cases h
  | @cons entry a entries accepted hentry hrest ih =>
    simp only [addSigToEntries] at h
    split at h
    · rename_i vecTxDSIn hsig
      cases h
      obtain ⟨hspends, hkeys⟩ := addSigToInputs_spends hsig
      refine .cons ⟨hspends.trans hentry.spends, hentry.vecTxOut, fun txdsin hmem => ?_⟩ hrest
      have hkey : txdsin.prevPubKey ∈ entry.vecTxDSIn.map CTxDSIn.prevPubKey :=
        hkeys ▸ List.mem_map_of_mem hmem
      obtain ⟨old, hold, heq⟩ := List.mem_map.mp hkey
      exact heq ▸ hentry.prevPubKey old hold
    · obtain ⟨next, hnext, rfl⟩ := Option.map_eq_some_iff.mp h
      exact .cons hentry (ih hnext)

theorem Valid.addScriptSig [ScriptVerifier] {txin : CTxIn} (hs : s.Valid) : (s.addScriptSig txin).2.Valid := by
  simp only [CPrivateSendServer.addScriptSig]
  split_ifs
  · exact hs
  · exact hs
  · split
    · rename_i entries hsig
      exact ⟨hs.idle, hs.active, hs.participants, addSigToEntries_matches hs.entries hsig, hs.checked, hs.distinct,
        hs.finalized⟩
    · exact ⟨hs.idle, hs.active, hs.participants, hs.entries, hs.checked, hs.distinct, hs.finalized⟩

theorem Valid.addScriptSigs [ScriptVerifier] {vecTxIn : List CTxIn}
    (hs : s.Valid) : (s.addScriptSigs env vecTxIn).Valid := by
  induction vecTxIn generalizing s with
  | nil => exact hs.checkPool
  | cons txin vecTxIn ih =>
    have hnext := @Valid.addScriptSig s _ txin hs
    simp only [CPrivateSendServer.addScriptSigs]
    split
    · rename_i t heq
      rw [heq] at hnext
      exact ih hnext
    · rename_i t heq
      rw [heq] at hnext
      exact hnext.relayStatus

theorem ne_zero_of_getDenominationsBits {nDenom : Int32} (h : (getDenominationsBits nDenom).isSome = true) :
    nDenom ≠ 0 := by
  rintro rfl
  revert h
  decide

/-- A new session: an idle server has no entries, so none were checked for another denomination. -/
theorem Valid.createNewSession {nDenom : Int32} {txCollateral : CTransaction} (hs : s.Valid) :
    (s.createNewSession env nDenom txCollateral).Valid := by
  simp only [CPrivateSendServer.createNewSession]
  split_ifs with hidle hacceptable
  · exact hs
  · exact hs
  · rw [not_not] at hidle
    obtain ⟨-, hcollaterals, haccepted⟩ := hs.idle hidle
    have hrand := env.getRandInt_lt (nPoolMaxParticipants - nPoolMinParticipants + 1) (by decide)
    simp only [isAcceptableDSA, Bool.not_eq_true', Bool.not_eq_false, Bool.and_eq_true] at hacceptable
    have hdenom := ne_zero_of_getDenominationsBits hacceptable.1
    refine ⟨fun h => (by cases h), fun _ => ⟨hdenom, ?_⟩, ⟨?_, ?_, hs.participants.2.2⟩, hs.entries, ?_, hs.distinct,
      hs.finalized⟩
    · show nPoolMinParticipants + _ ≠ 0
      simp [nPoolMinParticipants]
    · show nPoolMinParticipants + _ ≤ _
      simp only [nPoolMinParticipants, nPoolMaxParticipants] at hrand ⊢
      omega
    · simp [CPrivateSendServer.setState, hcollaterals, nPoolMaxParticipants]
    · show ∀ a ∈ s.accepted, _
      simp [haccepted]

/-- Another participant: there was room for one. -/
theorem Valid.addUserToExistingSession {nDenom : Int32} {txCollateral : CTransaction} (hs : s.Valid) :
    (s.addUserToExistingSession env nDenom txCollateral).Valid := by
  simp only [CPrivateSendServer.addUserToExistingSession]
  split_ifs with hready hacceptable hqueue hdenom
  · exact hs
  · exact hs
  · exact hs
  · exact hs
  · rw [not_not] at hqueue
    have hactive : s.nState ≠ .POOL_STATE_IDLE := by simp [hqueue]
    have hmax := (hs.active hactive).2
    have hle := hs.participants.1
    have hroom : s.vecSessionCollaterals.length < s.nSessionMaxParticipants := by
      simpa [isSessionReady, hmax] using hready
    refine ⟨fun h => absurd h hactive, hs.active, ⟨hle, ?_, hs.participants.2.2⟩, hs.entries, hs.checked, hs.distinct,
      hs.finalized⟩
    simp only [List.length_append, List.length_singleton]
    omega

theorem Valid.dsAccept {nDenom : Int32} {txCollateral : CTransaction} (hs : s.Valid) :
    (s.dsAccept env nDenom txCollateral).Valid := by
  simp only [CPrivateSendServer.dsAccept]
  split_ifs
  · exact hs
  · exact hs
  · exact hs
  · exact hs.createNewSession
  · exact hs.addUserToExistingSession

theorem Valid.dsVin {addr : Evo.CService} {vin : List CTxIn} {vout : List CTxOut} {txCollateral : CTransaction}
    (hs : s.Valid) : (s.dsVin env addr vin vout txCollateral).Valid := by
  simp only [CPrivateSendServer.dsVin]
  split_ifs
  · exact hs
  · split
    · exact hs
    · rename_i t hadd
      exact (hs.addEntry hadd).checkPool.relayStatus

theorem Valid.setMaxParticipants {n : Nat} (hs : s.Valid) (hactive : s.nState ≠ .POOL_STATE_IDLE)
    (hmin : nPoolMinParticipants ≤ n) (hmax : n ≤ nPoolMaxParticipants) :
    Valid { s with nSessionMaxParticipants := n } := by
  refine ⟨fun h => absurd h hactive, fun h => ⟨(hs.active h).1, ?_⟩, ⟨hmax, hs.participants.2⟩, hs.entries, hs.checked,
    hs.distinct, hs.finalized⟩
  simp only [nPoolMinParticipants] at hmin
  show n ≠ 0
  omega

theorem Valid.checkTimeout (hs : s.Valid) : (s.checkTimeout env).Valid := by
  by_cases hidle : s.nState = .POOL_STATE_IDLE
  · rwa [CPrivateSendServer.checkTimeout, if_pos hidle]
  simp only [CPrivateSendServer.checkTimeout, if_neg hidle]
  split_ifs with _ _ hqueue haccepting _ hqueue haccepting
  · exact hs
  · exact hs.setMaxParticipants hidle hqueue.2 hs.participants.2.1
  · exact (hs.setMaxParticipants hidle haccepting.2 (hs.entries.length_eq ▸ hs.participants.2.2)).checkPool
  · exact hs.setNull
  · exact hs
  · exact hs.setMaxParticipants hidle hqueue.2 hs.participants.2.1
  · exact (hs.setMaxParticipants hidle haccepting.2 (hs.entries.length_eq ▸ hs.participants.2.2)).checkPool
  · exact hs.setNull

theorem Valid.checkForCompleteQueue (hs : s.Valid) : (s.checkForCompleteQueue env).Valid := by
  simp only [CPrivateSendServer.checkForCompleteQueue]
  split_ifs with hqueue
  · exact hs.setState (by simp [hqueue.1]) (by decide)
  · exact hs

end

section

variable [ScriptVerifier]

theorem Valid.step {s : CPrivateSendServer} (hs : s.Valid) (op : MixingEnv × MixingOp) : (s.step op).Valid := by
  obtain ⟨env, op⟩ := op
  cases op with
  | dsAccept nDenom txCollateral => exact hs.dsAccept
  | dsVin addr vecTxIn vecTxOut txCollateral => exact hs.dsVin
  | dsSignFinalTx vecTxIn => exact hs.addScriptSigs
  | checkTimeout => exact hs.checkTimeout
  | checkForCompleteQueue => exact hs.checkForCompleteQueue

theorem valid_exec (ops : List (MixingEnv × MixingOp)) : (exec step ({} : CPrivateSendServer) ops).Valid := by
  have hinit : Valid ({} : CPrivateSendServer) :=
    ⟨fun _ => ⟨rfl, rfl, rfl⟩, fun h => absurd rfl h, ⟨Nat.zero_le _, Nat.zero_le _, Nat.zero_le _⟩, .nil,
      fun _ h => absurd h List.not_mem_nil, List.nodup_nil, fun _ h => absurd h List.not_mem_nil⟩
  generalize ({} : CPrivateSendServer) = s at hinit
  induction ops generalizing s with
  | nil => exact hinit
  | cons op ops ih => exact ih _ (hinit.step op)

/-- Every final transaction of every run spends and pays what its participants put in, in the one denomination. -/
theorem finalized_sound (ops : List (MixingEnv × MixingOp)) :
    ∀ f ∈ (exec step ({} : CPrivateSendServer) ops).finalized, f.Sound :=
  (valid_exec ops).finalized

end

/-! ## A session of three -/

/-- A verifier of pushed bytes: a key is its own hash, and every signature is good. -/
@[reducible] def pushVerifier : ScriptVerifier where
  verifyScript scriptSig script _ _ _ :=
    match scriptSig, script with
    | [0x01, b], [] => b != 0 && b != 0x80
    | 0x01 :: _ :: 0x14 :: key, script => script.drop 3 |>.take 20 |> (· == key)
    | _, _ => false
  verify_push := by
    intro b vin vout nIn hzero hnegZero
    simp [hzero, hnegZero]
  verify_push_pubKeyHash := by
    intro b script vin vout nIn hscript
    cases script with
    | nil => simp [CScript.isPayToPublicKeyHash] at hscript
    | cons op script => rfl

def payTo (k : UInt8) : CScript := [0x76, 0xa9, 0x14] ++ List.replicate 20 k ++ [0x88, 0xac]

/-- The coin of the first output of transaction `n` pays one denominated coin to key `n`. -/
def mixingEnv : MixingEnv where
  getTime := 0
  getCoin out := some ⟨⟨COIN + 1, payTo (UInt8.ofNat out.hash.toNat)⟩, 1, false⟩
  isLocked _ := false
  isCollateralValid _ := true
  isConnected _ := true
  isListed := true
  isRecent := false
  getRandInt _ := 0
  getRandInt_lt _ h := h

/-- Three participants, each with the coin of key `k`, to be paid to key `k + 10`. -/
def mixingSession : List (MixingEnv × MixingOp) :=
  let collateral : CTransaction := ⟨7, [], [], 2, 0, 0, []⟩
  let entry (k : Nat) : MixingOp :=
    .dsVin {} [⟨⟨k, 0⟩, [], 0xffffffff⟩] [⟨COIN + 1, payTo (UInt8.ofNat (k + 10))⟩] collateral
  [.dsAccept 16 collateral, .dsAccept 16 collateral, .dsAccept 16 collateral, .checkForCompleteQueue,
    entry 1, entry 2, entry 3].map fun op => (mixingEnv, op)

section

attribute [local instance] pushVerifier

/-- The session makes one final transaction. -/
theorem finalized_sound_mixingSession :
    ∃ f, (exec step ({} : CPrivateSendServer) mixingSession).finalized.head? = some f ∧ f.Sound := by
  have hsome : (exec step ({} : CPrivateSendServer) mixingSession).finalized.head?.isSome = true := by
    decide +kernel
  obtain ⟨f, hf⟩ := Option.isSome_iff_exists.mp hsome
  exact ⟨f, hf, finalized_sound mixingSession f (List.mem_of_head? hf)⟩

end

end CPrivateSendServer

end RavenCash.PrivateSend
