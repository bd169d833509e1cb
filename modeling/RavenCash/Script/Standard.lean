import RavenCash.Basic.MainnetCodec
import RavenCash.Script.Script

/-!
# Standard scripts and destinations

`Solver` and `ExtractDestination` of `script/standard.cpp`, which find the address a script pays to,
and the scripts for a destination.

The templates are matched against the list of opcodes with their data. A template position
`OP_PUBKEYHASH` takes any opcode with 20 bytes of data, `OP_PUBKEY` any with 33 to 65 bytes.
-/

set_option autoImplicit false

namespace RavenCash

/-! ## Templates -/

def isPubKeyData (vch : List UInt8) : Bool := decide (33 ≤ vch.length) && decide (vch.length ≤ 65)

/-- The number of a small integer opcode. -/
def smallInteger (opcode : UInt8) : Option UInt8 :=
  if opcode = OP_0 then some 0
  else if OP_1 ≤ opcode ∧ opcode ≤ OP_16 then some (opcode - (OP_1 - 1))
  else none

/-- `OP_PUBKEY OP_CHECKSIG` -/
def matchPubKey : List (UInt8 × List UInt8) → Option (List (List UInt8))
  | [(_, vch), (op, [])] => if isPubKeyData vch ∧ op = OP_CHECKSIG then some [vch] else none
  | _ => none

/-- `OP_DUP OP_HASH160 OP_PUBKEYHASH OP_EQUALVERIFY OP_CHECKSIG` -/
def matchPubKeyHash : List (UInt8 × List UInt8) → Option (List (List UInt8))
  | [(op1, []), (op2, []), (_, vch), (op4, []), (op5, [])] =>
      if op1 = OP_DUP ∧ op2 = OP_HASH160 ∧ vch.length = 20 ∧ op4 = OP_EQUALVERIFY ∧
          op5 = OP_CHECKSIG then
        some [vch]
      else none
  | _ => none

/-- `OP_SMALLINTEGER OP_PUBKEYS OP_SMALLINTEGER OP_CHECKMULTISIG`: the solutions, before the two
numbers are checked. -/
def matchMultisig : List (UInt8 × List UInt8) → Option (List (List UInt8))
  | [] => none
  | (op1, _) :: ops =>
      let pubkeys := ops.takeWhile (fun o => isPubKeyData o.2)
      match smallInteger op1, ops.dropWhile (fun o => isPubKeyData o.2) with
      | some m, [(op3, _), (op4, [])] =>
          match smallInteger op3 with
          | some n =>
              if op4 = OP_CHECKMULTISIG then some ([m] :: pubkeys.map Prod.snd ++ [[n]]) else none
          | none => none
      | _, _ => none

/-- The type and the solutions of the first template that matches. -/
def matchTemplates (ops : List (UInt8 × List UInt8)) : Option (TxnOutType × List (List UInt8)) :=
  match matchPubKey ops with
  | some vSolutions => some (.TX_PUBKEY, vSolutions)
  | none =>
  match matchPubKeyHash ops with
  | some vSolutions => some (.TX_PUBKEYHASH, vSolutions)
  | none =>
  match matchMultisig ops with
  | some vSolutions =>
      let m := (vSolutions.headD []).headD 0
      let n := (vSolutions.getLastD []).headD 0
      if m < 1 ∨ n < 1 ∨ n < m ∨ vSolutions.length - 2 ≠ n.toNat then none
      else some (.TX_MULTISIG, vSolutions)
  | none => none

/-! ## `Solver` -/

/-- The type and the solutions of a standard script. -/
def solver (scriptPubKey : CScript) : Option (TxnOutType × List (List UInt8)) :=
  if scriptPubKey.isPayToScriptHash then some (.TX_SCRIPTHASH, [scriptPubKey.slice 2 22])
  else
  match scriptPubKey.assetScript with
  | some a => some (a.nType, [scriptPubKey.slice 3 23])
  | none =>
  match scriptPubKey.isWitnessProgram with
  | some (witnessversion, witnessprogram) =>
      if witnessversion = 0 ∧ witnessprogram.length = 20 then
        some (.TX_WITNESS_V0_KEYHASH, [witnessprogram])
      else if witnessversion = 0 ∧ witnessprogram.length = 32 then
        some (.TX_WITNESS_V0_SCRIPTHASH, [witnessprogram])
      else none
  | none =>
  -- prunable outputs that carry data
  if 1 ≤ scriptPubKey.length ∧ scriptPubKey.at 0 = OP_RETURN ∧ isPushOnly (scriptPubKey.drop 1) then
    some (.TX_NULL_DATA, [])
  else if 1 ≤ scriptPubKey.length ∧ scriptPubKey.at 0 = OP_RVH_ASSET ∧
      isPushOnly (scriptPubKey.drop 1) then
    if 23 ≤ scriptPubKey.length ∧ scriptPubKey.at 1 ≠ OP_RESERVED then
      some (.TX_RESTRICTED_ASSET_DATA, [scriptPubKey.slice 2 22])
    else some (.TX_RESTRICTED_ASSET_DATA, [])
  else
    let (ops, clean) := scriptPubKey.ops
    if clean then matchTemplates ops else none

/-! ## Destinations -/

/-- `CPubKey::IsValid` of a key set from these bytes: the first byte tells the length. -/
def isValidPubKey (vch : List UInt8) : Bool :=
  match vch.head? with
  | some b =>
      if b = 2 ∨ b = 3 then vch.length == 33
      else if b = 4 ∨ b = 6 ∨ b = 7 then vch.length == 65
      else false
  | none => false

/-- `ExtractDestination`: `noDestination` is what the caller's variable still holds after a `false`
answer. -/
def extractDestination [NodeCrypto] (scriptPubKey : CScript) : CTxDestination :=
  match solver scriptPubKey with
  | some (.TX_PUBKEY, vch :: _) =>
      if isValidPubKey vch then .keyID (NodeCrypto.hash160 vch) else .noDestination
  | some (.TX_PUBKEYHASH, hash :: _) => .keyID hash
  | some (.TX_SCRIPTHASH, hash :: _) => .scriptID hash
  | some (.TX_NEW_ASSET, hash :: _) => .keyID hash
  | some (.TX_REISSUE_ASSET, hash :: _) => .keyID hash
  | some (.TX_TRANSFER_ASSET, hash :: _) => .keyID hash
  | some (.TX_RESTRICTED_ASSET_DATA, hash :: _) => .keyID hash
  | _ => .noDestination

/-- `GetScriptForDestination` -/
def getScriptForDestination : CTxDestination → CScript
  | .noDestination => []
  | .keyID keyID =>
      ((((CScript.op [] OP_DUP).op OP_HASH160).push keyID).op OP_EQUALVERIFY).op OP_CHECKSIG
  | .scriptID scriptID => ((CScript.op [] OP_HASH160).push scriptID).op OP_EQUAL

theorem length_of_assetScript {s : CScript} {a : AssetScript} (h : s.assetScript = some a) :
    31 < s.length := by
  unfold CScript.assetScript at h
  split at h
  · rename_i hs
    exact hs.1
  · simp at h

/-- An asset script pays to the key id in its bytes 3 to 22, whatever stands around them. -/
theorem extractDestination_assetScript [NodeCrypto] {s : CScript} {a : AssetScript}
    (h : s.assetScript = some a) : extractDestination s = .keyID (s.slice 3 23) := by
  have hlen := length_of_assetScript h
  have hp2sh : s.isPayToScriptHash = false := by
    have hne : (s.length == 23) = false := by
      rw [beq_eq_false_iff_ne]
      omega
    simp [CScript.isPayToScriptHash, hne]
  have htype : a.nType = .TX_NEW_ASSET ∨ a.nType = .TX_REISSUE_ASSET ∨
      a.nType = .TX_TRANSFER_ASSET := by
    unfold CScript.assetScript at h
    grind
  have hsolver : solver s = some (a.nType, [s.slice 3 23]) := by
    unfold solver
    rw [hp2sh, h]
    rfl
  unfold extractDestination
  rw [hsolver]
  obtain ht | ht | ht := htype <;> rw [ht]

theorem length_slice_of_assetScript {s : CScript} {a : AssetScript} (h : s.assetScript = some a) :
    (s.slice 3 23).length = 20 := by
  have hlen := length_of_assetScript h
  simp only [CScript.slice, List.length_take, List.length_drop]
  omega

/-! ## Who controls an asset script -/

def CScript.isPayToPublicKeyHash (s : CScript) : Bool :=
  s.length == 25 && s.at 0 == OP_DUP && s.at 1 == OP_HASH160 && s.at 2 == 0x14 &&
    s.at 23 == OP_EQUALVERIFY && s.at 24 == OP_CHECKSIG

theorem CScript.drop_eq_at_cons {s : CScript} {i : Nat} (h : i < s.length) :
    s.drop i = s.at i :: s.drop (i + 1) := by
  rw [List.drop_eq_getElem_cons h, CScript.at, List.getD_eq_getElem?_getD,
    List.getElem?_eq_getElem h, Option.getD_some]

/-- The first 25 bytes: three bytes, the 20 bytes that are taken for a key id, and two bytes. -/
theorem CScript.take_eq_frame {s : CScript} (h : 25 ≤ s.length) :
    s.take 25 = [s.at 0, s.at 1, s.at 2] ++ s.slice 3 23 ++ [s.at 23, s.at 24] := by
  have hhead : s.take 3 = [s.at 0, s.at 1, s.at 2] := by
    rw [← List.drop_zero (l := s), CScript.drop_eq_at_cons (by omega : 0 < s.length),
      CScript.drop_eq_at_cons (by omega : 1 < s.length),
      CScript.drop_eq_at_cons (by omega : 2 < s.length)]
    rfl
  have htail : (s.drop 23).take 2 = [s.at 23, s.at 24] := by
    rw [CScript.drop_eq_at_cons (by omega : 23 < s.length),
      CScript.drop_eq_at_cons (by omega : 24 < s.length)]
    rfl
  calc s.take 25 = s.take 3 ++ (s.drop 3).take 22 := by rw [← List.take_add]
    _ = s.take 3 ++ ((s.drop 3).take 20 ++ (s.drop 23).take 2) := by
        rw [show 22 = 20 + 2 from rfl, List.take_add, List.drop_drop]
    _ = [s.at 0, s.at 1, s.at 2] ++ s.slice 3 23 ++ [s.at 23, s.at 24] := by
        rw [hhead, htail, CScript.slice, List.append_assoc]

theorem getScriptForDestination_keyID {keyID : List UInt8} (h : keyID.length = 20) :
    getScriptForDestination (.keyID keyID) =
      [OP_DUP, OP_HASH160, 0x14] ++ keyID ++ [OP_EQUALVERIFY, OP_CHECKSIG] := by
  have hsmall : 20 < OP_PUSHDATA1.toNat := by decide
  simp only [getScriptForDestination, CScript.op, CScript.push, h, hsmall, if_true]
  simp [leBytes]

/-- `IsPayToPublicKeyHash` of the first 25 bytes, read off the whole script. -/
theorem CScript.isPayToPublicKeyHash_take {s : CScript} (h : 25 ≤ s.length) :
    CScript.isPayToPublicKeyHash (s.take 25) = true ↔
      [s.at 0, s.at 1, s.at 2] = [OP_DUP, OP_HASH160, 0x14] ∧
        [s.at 23, s.at 24] = [OP_EQUALVERIFY, OP_CHECKSIG] := by
  have hat : ∀ i < 25, CScript.at (s.take 25) i = s.at i := by
    intro i hi
    have hlt : i < s.length := by omega
    simp [CScript.at, List.getD, hi]
  have hlen : (s.take 25).length = 25 := by
    rw [List.length_take]
    omega
  simp only [CScript.isPayToPublicKeyHash, hlen, hat 0 (by omega), hat 1 (by omega),
    hat 2 (by omega), hat 23 (by omega), hat 24 (by omega), Bool.and_eq_true, beq_iff_eq,
    List.cons.injEq, and_true, true_and, and_assoc]

/-- **An asset script is locked by the key it is attributed to** exactly when its first 25 bytes are a
pay-to-public-key-hash script. -/
theorem assetScript_locked_iff [NodeCrypto] (s : CScript) (h : s.isAssetScript = true) :
    (∃ keyID, extractDestination s = .keyID keyID ∧
        s.take 25 = getScriptForDestination (.keyID keyID)) ↔
      CScript.isPayToPublicKeyHash (s.take 25) = true := by
  obtain ⟨a, ha⟩ := Option.isSome_iff_exists.mp h
  have hlen : 25 ≤ s.length := by
    have := length_of_assetScript ha
    omega
  have hkey := length_slice_of_assetScript ha
  rw [CScript.isPayToPublicKeyHash_take hlen, extractDestination_assetScript ha]
  simp only [CTxDestination.keyID.injEq, exists_eq_left']
  rw [getScriptForDestination_keyID hkey, CScript.take_eq_frame hlen]
  constructor
  · intro heq
    obtain ⟨hfront, hback⟩ := List.append_inj heq (by simp)
    exact ⟨(List.append_inj hfront rfl).1, hback⟩
  · rintro ⟨hhead, htail⟩
    rw [hhead, htail]

section

attribute [local instance] mainnetCrypto

/-- A transfer of one `COIN` behind a script. -/
def coinTransferScript (script : CScript) : CScript :=
  ((script.op OP_RVH_ASSET).push ([RVH_N, RVH_E, RVH_X, RVH_T, 4] ++ bytes "COIN" ++
    leBytes 8 100000000)).op OP_DROP

theorem assetScript_locked_iff_coinTransfer :
    ∃ keyID, extractDestination (coinTransferScript (getScriptForDestination
          (.keyID (List.replicate 20 7)))) = .keyID keyID ∧
      (coinTransferScript (getScriptForDestination (.keyID (List.replicate 20 7)))).take 25 =
        getScriptForDestination (.keyID keyID) :=
  (assetScript_locked_iff (coinTransferScript (getScriptForDestination
    (.keyID (List.replicate 20 7)))) (by decide +kernel)).mpr (by decide +kernel)

/-- A push of 24 bytes, among them a key id. -/
def pushedKeyScript : CScript :=
  CScript.push [] ([1, 1] ++ List.replicate 20 7 ++ [1, 1])

/-- **A transfer to a key that anybody can spend**: the script only pushes the key id, and no opcode
asks for a signature. -/
theorem pushedKey_transfer_not_locked :
    (coinTransferScript pushedKeyScript).isAssetScript = true ∧
      extractDestination (coinTransferScript pushedKeyScript) = .keyID (List.replicate 20 7) ∧
      (coinTransferScript pushedKeyScript).take 25 ≠
        getScriptForDestination (.keyID (List.replicate 20 7)) ∧
      (coinTransferScript pushedKeyScript).ops.1.map Prod.fst = [24, OP_RVH_ASSET] := by
  decide +kernel

end

end RavenCash
