import RavenCash.Basic.Serialize

/-!
# Scripts

The part of `script/script.h` and `script/script.cpp` that the asset code reads: building a script
with `<<`, stepping through it with `GetOp`, and the tests that recognise asset scripts and null
asset data by fixed byte positions.

A script position `pc` is the list of bytes from there to the end. A test that reads `(*this)[i]`
does so behind a size check; `at` is that read.
-/

set_option autoImplicit false

namespace RavenCash

/-! ## Opcodes -/

def OP_0 : UInt8 := 0x00
def OP_PUSHDATA1 : UInt8 := 0x4c
def OP_PUSHDATA2 : UInt8 := 0x4d
def OP_PUSHDATA4 : UInt8 := 0x4e
def OP_RESERVED : UInt8 := 0x50
def OP_1 : UInt8 := 0x51
def OP_16 : UInt8 := 0x60
def OP_RETURN : UInt8 := 0x6a
def OP_DROP : UInt8 := 0x75
def OP_DUP : UInt8 := 0x76
def OP_EQUAL : UInt8 := 0x87
def OP_EQUALVERIFY : UInt8 := 0x88
def OP_HASH160 : UInt8 := 0xa9
def OP_CHECKSIG : UInt8 := 0xac
def OP_CHECKMULTISIG : UInt8 := 0xae
def OP_RVH_ASSET : UInt8 := 0xc0

def MAX_SCRIPT_SIZE : Nat := 10000

/-! ## Building -/

/-- `script << opcode` -/
def CScript.op (s : CScript) (opcode : UInt8) : CScript := s ++ [opcode]

/-- `script << b` for a byte vector. -/
def CScript.push (s : CScript) (b : List UInt8) : CScript :=
  let header :=
    if b.length < OP_PUSHDATA1.toNat then leBytes 1 b.length
    else if b.length ≤ 0xff then OP_PUSHDATA1 :: leBytes 1 b.length
    else if b.length ≤ 0xffff then OP_PUSHDATA2 :: leBytes 2 b.length
    else OP_PUSHDATA4 :: leBytes 4 b.length
  s ++ header ++ b

/-! ## Stepping -/

/-- The operand of `k` size bytes and as many data bytes as they say. -/
def sizedOperand (k : Nat) (pc : List UInt8) : Option (List UInt8 × List UInt8) :=
  if pc.length < k then none
  else
    let nSize := leNat (pc.take k)
    let pc := pc.drop k
    if pc.length < nSize then none else some (pc.take nSize, pc.drop nSize)

/-- `GetOp2`: the opcode at `pc`, its data and the position after it. -/
def getOp : List UInt8 → Option (UInt8 × List UInt8 × List UInt8)
  | [] => none
  | opcode :: pc =>
      if opcode < OP_PUSHDATA1 then
        let nSize := opcode.toNat
        if pc.length < nSize then none else some (opcode, pc.take nSize, pc.drop nSize)
      else if opcode = OP_PUSHDATA1 then (sizedOperand 1 pc).map (fun r => (opcode, r))
      else if opcode = OP_PUSHDATA2 then (sizedOperand 2 pc).map (fun r => (opcode, r))
      else if opcode = OP_PUSHDATA4 then (sizedOperand 4 pc).map (fun r => (opcode, r))
      -- everything behind the asset opcode is its data
      else if opcode = OP_RVH_ASSET then some (opcode, pc, [])
      else some (opcode, [], pc)

/-- The opcodes with their data that `n` calls of `GetOp` read from `pc`, and whether the end was
reached without a failure. Every call moves `pc`, so the length of the script is enough for `n`. -/
def opsFrom : Nat → List UInt8 → List (UInt8 × List UInt8) × Bool
  | 0, pc => ([], pc.isEmpty)
  | n + 1, pc =>
      if pc.isEmpty then ([], true)
      else
        match getOp pc with
        | none => ([], false)
        | some (opcode, vch, pc) =>
            let (ops, clean) := opsFrom n pc
            ((opcode, vch) :: ops, clean)

def CScript.ops (s : CScript) : List (UInt8 × List UInt8) × Bool := opsFrom s.length s

/-- `IsPushOnly(pc)`, which counts `OP_RESERVED` among the pushes. -/
def isPushOnly (pc : CScript) : Bool := pc.ops.2 && pc.ops.1.all (fun o => decide (o.1 ≤ OP_16))

/-- The number of times `GetOp` reads the opcode. -/
def CScript.find (s : CScript) (op : UInt8) : Nat := s.ops.1.countP (fun o => o.1 == op)

/-! ## Recognised scripts -/

/-- `(*this)[i]` -/
def CScript.at (s : CScript) (i : Nat) : UInt8 := s.getD i 0

/-- `begin() + lo` to `begin() + hi` -/
def CScript.slice (s : CScript) (lo hi : Nat) : List UInt8 := (s.drop lo).take (hi - lo)

def CScript.isPayToScriptHash (s : CScript) : Bool :=
  s.length == 23 && s.at 0 == OP_HASH160 && s.at 1 == 0x14 && s.at 22 == OP_EQUAL

/-- The version and the program of a witness program. -/
def CScript.isWitnessProgram (s : CScript) : Option (Nat × List UInt8) :=
  if s.length < 4 ∨ 42 < s.length then none
  else if s.at 0 ≠ OP_0 ∧ (s.at 0 < OP_1 ∨ OP_16 < s.at 0) then none
  else if (s.at 1).toNat + 2 = s.length then
    let version := if s.at 0 = OP_0 then 0 else (s.at 0).toNat - (OP_1.toNat - 1)
    some (version, s.drop 2)
  else none

/-! ### Asset scripts -/

inductive TxnOutType where
  | TX_NONSTANDARD
  | TX_PUBKEY
  | TX_PUBKEYHASH
  | TX_SCRIPTHASH
  | TX_MULTISIG
  | TX_NULL_DATA
  | TX_WITNESS_V0_SCRIPTHASH
  | TX_WITNESS_V0_KEYHASH
  | TX_NEW_ASSET
  | TX_REISSUE_ASSET
  | TX_TRANSFER_ASSET
  | TX_RESTRICTED_ASSET_DATA
deriving DecidableEq, Repr

def RVH_N : UInt8 := 114
def RVH_E : UInt8 := 118
def RVH_X : UInt8 := 110
def RVH_Q : UInt8 := 113
def RVH_T : UInt8 := 116
def RVH_O : UInt8 := 111

/-- What `IsAssetScript` finds out about a script. -/
structure AssetScript where
  nType : TxnOutType
  fIsOwner : Bool
  nStartingIndex : Nat
deriving DecidableEq, Repr

/-- The position of the byte that tells the kind of asset script: the three marker bytes stand
behind a one-byte or a two-byte push of the data. -/
def CScript.assetIndex (s : CScript) : Option Nat :=
  if s.at 27 = RVH_N then
    if s.at 28 = RVH_E ∧ s.at 29 = RVH_X then some 30 else none
  else if s.at 28 = RVH_N ∧ s.at 29 = RVH_E ∧ s.at 30 = RVH_X then some 31 else none

/-- `IsAssetScript(nType, fIsOwner, nStartingIndex)`. Nothing is asked of the bytes before the asset
opcode. -/
def CScript.assetScript (s : CScript) : Option AssetScript :=
  if 31 < s.length ∧ s.at 25 = OP_RVH_ASSET then
    match s.assetIndex with
    | none => none
    | some index =>
        let nStartingIndex := index + 1
        if s.at index = RVH_T then some ⟨.TX_TRANSFER_ASSET, false, nStartingIndex⟩
        else if s.at index = RVH_Q ∧ 39 < s.length then some ⟨.TX_NEW_ASSET, false, nStartingIndex⟩
        else if s.at index = RVH_O then some ⟨.TX_NEW_ASSET, true, nStartingIndex⟩
        else if s.at index = RVH_N then some ⟨.TX_REISSUE_ASSET, false, nStartingIndex⟩
        else none
  else none

def CScript.isAssetScript (s : CScript) : Bool := s.assetScript.isSome

/-- Where the data of an asset script of this kind starts, if the script is one. -/
def CScript.assetDataOf (s : CScript) (nType : TxnOutType) (fIsOwner : Bool) : Option Nat :=
  match s.assetScript with
  | some a => if a.nType = nType ∧ a.fIsOwner = fIsOwner then some a.nStartingIndex else none
  | none => none

theorem CScript.assetDataOf_eq_some {s : CScript} {nType : TxnOutType} {fIsOwner : Bool} {i : Nat} :
    s.assetDataOf nType fIsOwner = some i ↔ s.assetScript = some ⟨nType, fIsOwner, i⟩ := by
  unfold CScript.assetDataOf
  cases hs : s.assetScript with
  | none => simp
  | some a =>
      rcases a with ⟨type, owner, start⟩
      by_cases h : type = nType ∧ owner = fIsOwner
      · obtain ⟨rfl, rfl⟩ := h
        simp
      · simp only [h, if_false, reduceCtorEq, false_iff, Option.some.injEq, AssetScript.mk.injEq]
        tauto

/-- `IsScriptNewAsset(scriptPubKey, nStartingIndex)` -/
def isScriptNewAsset (s : CScript) : Option Nat := s.assetDataOf .TX_NEW_ASSET false

def isScriptOwnerAsset (s : CScript) : Option Nat := s.assetDataOf .TX_NEW_ASSET true

def isScriptReissueAsset (s : CScript) : Option Nat := s.assetDataOf .TX_REISSUE_ASSET false

def isScriptTransferAsset (s : CScript) : Option Nat := s.assetDataOf .TX_TRANSFER_ASSET false

/-! ### Null asset data -/

/-- A tag or a freeze of an address: the asset opcode and a push of 20 bytes. -/
def CScript.isNullAssetTxDataScript (s : CScript) : Bool :=
  decide (23 < s.length) && s.at 0 == OP_RVH_ASSET && s.at 1 == 0x14

/-- A global freeze: the asset opcode and two reserved opcodes. -/
def CScript.isNullGlobalRestrictionAssetTxDataScript (s : CScript) : Bool :=
  decide (6 < s.length) && s.at 0 == OP_RVH_ASSET && s.at 1 == OP_RESERVED && s.at 2 == OP_RESERVED

/-- A verifier string: the asset opcode and one reserved opcode. -/
def CScript.isNullAssetVerifierTxDataScript (s : CScript) : Bool :=
  decide (3 < s.length) && s.at 0 == OP_RVH_ASSET && s.at 1 == OP_RESERVED && s.at 2 != OP_RESERVED

def CScript.isNullAsset (s : CScript) : Bool :=
  s.isNullAssetTxDataScript || s.isNullGlobalRestrictionAssetTxDataScript ||
    s.isNullAssetVerifierTxDataScript

end RavenCash
