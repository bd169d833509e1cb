import RavenCash.Assets.RoundTrip
import RavenCash.Assets.NameClasses
import RavenCash.Assets.Verifier

/-!
# Null data scripts read back

The readers of tags, global restrictions and verifier strings take the data from fixed positions, 23, 4
and 3, behind a push of one size byte. A valid name is short enough for that push. A verifier string of
75 bytes or more is not: its push has the opcode `OP_PUSHDATA1` in front of the size, and the reader then
takes the size of the push for the size of the string.
-/

set_option autoImplicit false

namespace RavenCash

/-- `GetScriptForNullAssetDataDestination` -/
def getScriptForNullAssetDataDestination : CTxDestination → CScript
  | .noDestination => []
  | .keyID keyID => (CScript.op [] OP_RVH_ASSET).push keyID
  | .scriptID scriptID => (CScript.op [] OP_RVH_ASSET).push scriptID

/-! ## Valid names -/

theorem Path.starts {root name : StdString} {subs : List StdString} (h : Path root subs name) :
    ∃ rest, name = root ++ rest := by
  cases subs with
  | nil => exact ⟨[], by simpa [List.intercalate] using h.1⟩
  | cons sub subs =>
      refine ⟨bytes "/" ++ (bytes "/").intercalate (sub :: subs), ?_⟩
      rw [h.1, List.intercalate_cons_cons, List.append_assoc]

/-- A valid name has three name characters at its start, or behind its first byte. -/
theorem Accepted.starts {type : AssetType} {s : StdString} (h : Accepted type s) :
    s.length ≤ MAX_NAME_LENGTH ∧
      ∃ lead root rest, s = lead ++ root ++ rest ∧ lead.length ≤ 1 ∧ Chars 3 root := by
  cases type with
  | ROOT => exact ⟨h.2.le, [], s, [], by simp, by decide, h.1.1.1⟩
  | SUB =>
      obtain ⟨root, sub, subs, hpath, hlen⟩ := h
      obtain ⟨rest, rfl⟩ := hpath.starts
      exact ⟨hlen.le, [], root, rest, by simp, by decide, hpath.2.1.1.1⟩
  | UNIQUE =>
      obtain ⟨root, subs, name, tag, rfl, hpath, -, -, -, hlen⟩ := h
      obtain ⟨rest, rfl⟩ := hpath.starts
      exact ⟨hlen, [], root, rest ++ bytes "#" ++ tag, by simp, by decide, hpath.2.1.1.1⟩
  | MSGCHANNEL =>
      obtain ⟨root, subs, name, tag, rfl, hpath, -, -, -, -, hlen⟩ := h
      obtain ⟨rest, rfl⟩ := hpath.starts
      exact ⟨hlen, [], root, rest ++ bytes "~" ++ tag, by simp, by decide, hpath.2.1.1.1⟩
  | OWNER =>
      obtain ⟨root, subs, name, rfl, hpath, hlen⟩ := h
      obtain ⟨rest, rfl⟩ := hpath.starts
      exact ⟨hlen, [], root, rest ++ bytes "!", by simp, by decide, hpath.2.1.1.1⟩
  | VOTE =>
      obtain ⟨root, subs, name, tag, rfl, hpath, -, hlen⟩ := h
      obtain ⟨rest, rfl⟩ := hpath.starts
      exact ⟨hlen, [], root, rest ++ bytes "^" ++ tag, by simp, by decide, hpath.2.1.1.1⟩
  | QUALIFIER =>
      obtain ⟨root, rfl, hroot, hlen⟩ := h
      exact ⟨hlen, bytes "#", root, [], by simp, by decide, hroot.1.1⟩
  | SUB_QUALIFIER =>
      obtain ⟨root, sub, rfl, hroot, -, hlen⟩ := h
      exact ⟨hlen, bytes "#", root, bytes "/#" ++ sub, by simp, by decide, hroot.1.1⟩
  | RESTRICTED =>
      obtain ⟨root, rfl, hroot, hlen⟩ := h
      exact ⟨hlen, bytes "$", root, [], by simp, by decide, hroot.1⟩
  | _ => exact h.elim

/-- What the scripts need of a valid name: it is short, and its second byte is a name character. -/
theorem isNameValid_bounds {s : StdString} (h : isNameValid s = true) :
    s.length ≤ 31 ∧ ∃ a b c rest, s = a :: b :: c :: rest ∧ isNameChar b = true := by
  obtain ⟨type, htype⟩ := Option.isSome_iff_exists.mp h
  obtain ⟨hlen, lead, root, rest, rfl, hlead, hroot⟩ := (assetTypeOf_eq_some_iff.mp htype).starts
  refine ⟨hlen, ?_⟩
  obtain ⟨a, b, c, tail, rfl⟩ : ∃ a b c tail, root = a :: b :: c :: tail := by
    match root, hroot.2 with
    | a :: b :: c :: tail, _ => exact ⟨a, b, c, tail, rfl⟩
  match lead, hlead with
  | [], _ => exact ⟨a, b, c, tail ++ rest, rfl, hroot.1 b (by simp)⟩
  | [l], _ => exact ⟨l, a, b, c :: tail ++ rest, rfl, hroot.1 a (by simp)⟩

/-! ## Pushes -/

theorem toNat_toUInt8_of_lt {n : Nat} (h : n < 256) : n.toUInt8.toNat = n := by
  rw [Nat.toUInt8_eq, UInt8.toNat_ofNat', Nat.mod_eq_of_lt h]

theorem serializeString_short {s : StdString} (h : s.length < 253) :
    serializeString s = s.length.toUInt8 :: s := by
  rw [serializeString, writeCompactSize, if_pos h, leBytes_one, Nat.mod_eq_of_lt (by omega)]
  rfl

theorem CScript.push_short {p b : List UInt8} (h : b.length < 76) :
    CScript.push p b = p ++ b.length.toUInt8 :: b := by
  rw [CScript.push_eq (by omega), if_pos (show b.length < OP_PUSHDATA1.toNat from h)]
  simp

/-- `GetOp` reads a short push back. -/
theorem getOp_push {b : List UInt8} (h : b.length < 76) (rest : List UInt8) :
    getOp (b.length.toUInt8 :: (b ++ rest)) = some (b.length.toUInt8, b, rest) := by
  have hsize := toNat_toUInt8_of_lt (n := b.length) (by omega)
  have hlt : b.length.toUInt8 < OP_PUSHDATA1 := by
    rw [UInt8.lt_iff_toNat_lt, hsize]
    exact h
  simp [getOp, hlt, hsize]

theorem opsFrom_push {b : List UInt8} (h : b.length < 76) (rest : List UInt8) (n : Nat) :
    opsFrom (n + 1) (b.length.toUInt8 :: (b ++ rest)) =
      ((b.length.toUInt8, b) :: (opsFrom n rest).1, (opsFrom n rest).2) := by
  simp [opsFrom, getOp_push h]

/-- Two short pushes are push only. -/
theorem isPushOnly_push_push {b c : List UInt8} (hb : b.length < 76) (hc : c.length < 76) :
    isPushOnly (b.length.toUInt8 :: (b ++ (c.length.toUInt8 :: c))) = true := by
  have hfuel : CScript.ops (b.length.toUInt8 :: (b ++ (c.length.toUInt8 :: c))) =
      ([(b.length.toUInt8, b), (c.length.toUInt8, c)], true) := by
    have hsecond := opsFrom_push hc [] (b.length + c.length)
    rw [List.append_nil] at hsecond
    rw [CScript.ops, show List.length (b.length.toUInt8 :: (b ++ (c.length.toUInt8 :: c))) =
      b.length + c.length + 1 + 1 by simp; omega, opsFrom_push hb, hsecond]
    cases b.length + c.length <;> rfl
  have hsmall : ∀ {n : Nat}, n < 76 → n.toUInt8 ≤ OP_16 := by
    intro n hn
    rw [UInt8.le_iff_toNat_le, toNat_toUInt8_of_lt (by omega)]
    exact (by omega : n ≤ 96)
  simp [isPushOnly, hfuel, hsmall hb, hsmall hc]

/-! ## Reading back -/

/-- Exactly one of the three predicates on null data holds. -/
def CScript.OneNullKind (s : CScript) : Prop :=
  [s.isNullAssetTxDataScript, s.isNullGlobalRestrictionAssetTxDataScript,
    s.isNullAssetVerifierTxDataScript].count true = 1

/-- The tag or restriction of the address reads back, with the address. -/
def TagReadsBack [NodeCrypto] (keyID : List UInt8) (data : CNullAssetTxData) : Prop :=
  let script := data.constructTransaction (getScriptForNullAssetDataDestination (.keyID keyID))
  script.OneNullKind ∧
    assetNullDataFromScript script = some (data, NodeCrypto.encodeDestination (.keyID keyID))

def GlobalReadsBack (data : CNullAssetTxData) : Prop :=
  let script := data.constructGlobalRestrictionTransaction []
  script.OneNullKind ∧ globalAssetNullDataFromScript script = some data

def VerifierReadsBack (verifier : CNullAssetTxVerifierString) : Prop :=
  let script := verifier.constructTransaction []
  script.OneNullKind ∧ assetNullVerifierDataFromScript script = some verifier

section

variable {data : CNullAssetTxData}

theorem CNullAssetTxData.length_serialize (hname : data.asset_name.length ≤ 31) :
    data.serialize.length = data.asset_name.length + 2 := by
  rw [CNullAssetTxData.serialize, List.length_append, length_serializeString (by omega),
    length_serializeInt8]

theorem unserialize_nullAssetTxData (hname : data.asset_name.length ≤ 31) :
    unserialize readNullAssetTxData data.serialize = some data := by
  have hflag := readInt8_append data.flag []
  rw [List.append_nil] at hflag
  rw [unserialize, CNullAssetTxData.serialize, readNullAssetTxData, StateT.run_bind,
    readString_append (by omega)]
  show ((do let flag ← readInt8; return ⟨data.asset_name, flag⟩ : Reader CNullAssetTxData).run
    (serializeInt8 data.flag)).map Prod.fst = some data
  rw [StateT.run_bind, hflag]
  rfl

theorem globalReadsBack (hname : isNameValid data.asset_name = true) : GlobalReadsBack data := by
  obtain ⟨hlen, a, b, c, rest, hbytes, -⟩ := isNameValid_bounds hname
  have hser := CNullAssetTxData.length_serialize hlen
  have hscript : data.constructGlobalRestrictionTransaction [] =
      OP_RVH_ASSET :: OP_RESERVED :: OP_RESERVED :: data.serialize.length.toUInt8 :: data.serialize := by
    rw [CNullAssetTxData.constructGlobalRestrictionTransaction, CScript.push_short (by omega)]
    rfl
  have hlong : 6 < (data.constructGlobalRestrictionTransaction []).length := by
    rw [hscript, List.length_cons, List.length_cons, List.length_cons, List.length_cons, hser, hbytes]
    simp only [List.length_cons]
    omega
  have hglobal : (data.constructGlobalRestrictionTransaction
      []).isNullGlobalRestrictionAssetTxDataScript = true := by
    rw [CScript.isNullGlobalRestrictionAssetTxDataScript, decide_eq_true hlong, hscript]
    rfl
  refine ⟨?_, ?_⟩
  · have htag : (data.constructGlobalRestrictionTransaction []).isNullAssetTxDataScript = false := by
      rw [CScript.isNullAssetTxDataScript, hscript]
      exact Bool.and_false _
    have hverifier :
        (data.constructGlobalRestrictionTransaction []).isNullAssetVerifierTxDataScript = false := by
      rw [CScript.isNullAssetVerifierTxDataScript, hscript]
      exact Bool.and_false _
    unfold CScript.OneNullKind
    rw [htag, hglobal, hverifier]
    rfl
  · rw [globalAssetNullDataFromScript, if_pos hglobal, hscript]
    exact unserialize_nullAssetTxData hlen

/-- The bytes of a tag script: the opcode, the push of the key id and the push of the data. -/
theorem tagScript_eq {keyID : List UInt8} (hkey : keyID.length = 20)
    (hname : data.asset_name.length ≤ 31) :
    data.constructTransaction (getScriptForNullAssetDataDestination (.keyID keyID)) =
      OP_RVH_ASSET :: keyID.length.toUInt8 ::
        (keyID ++ (data.serialize.length.toUInt8 :: data.serialize)) := by
  have hser := CNullAssetTxData.length_serialize hname
  rw [CNullAssetTxData.constructTransaction, getScriptForNullAssetDataDestination,
    CScript.push_short (by omega), CScript.push_short (by omega)]
  simp [CScript.op]

/-- A tag script is no asset script: the byte at the place of the opcode is a character of the name. -/
theorem assetScript_tagScript {keyID : List UInt8} (hkey : keyID.length = 20)
    (hname : isNameValid data.asset_name = true) :
    (data.constructTransaction (getScriptForNullAssetDataDestination (.keyID keyID))).assetScript =
      none := by
  obtain ⟨hlen, a, b, c, rest, hbytes, hb⟩ := isNameValid_bounds hname
  have hat : (data.constructTransaction
      (getScriptForNullAssetDataDestination (.keyID keyID))).at 25 = b := by
    rw [tagScript_eq hkey hlen, CNullAssetTxData.serialize, serializeString_short (by omega), hbytes]
    exact CScript.at_append (n := 22) (p := OP_RVH_ASSET :: keyID.length.toUInt8 :: keyID)
      (by simp [hkey]) _ 3
  have hne : b ≠ OP_RVH_ASSET := by
    rintro rfl
    exact absurd hb (by decide)
  rw [CScript.assetScript, if_neg (fun h => hne (hat.symm.trans h.2))]

theorem extractDestination_tagScript [NodeCrypto] {keyID : List UInt8} (hkey : keyID.length = 20)
    (hname : isNameValid data.asset_name = true) :
    extractDestination (data.constructTransaction
      (getScriptForNullAssetDataDestination (.keyID keyID))) = .keyID keyID := by
  have hlen := (isNameValid_bounds hname).1
  have hser := CNullAssetTxData.length_serialize hlen
  have hasset := assetScript_tagScript hkey hname
  have hscript := tagScript_eq hkey hlen
  generalize data.constructTransaction (getScriptForNullAssetDataDestination (.keyID keyID)) =
    script at hasset hscript ⊢
  have hfirst : script.at 0 = OP_RVH_ASSET := by rw [hscript]; rfl
  have hsecond : script.at 1 = 0x14 := by rw [hscript, hkey]; rfl
  have hlong : 23 ≤ script.length := by
    rw [hscript]
    simp only [List.length_cons, List.length_append]
    omega
  have hwitness : script.isWitnessProgram = none := by
    have hversion : script.at 0 ≠ OP_0 ∧ (script.at 0 < OP_1 ∨ OP_16 < script.at 0) := by
      rw [hfirst]
      decide
    simp [CScript.isWitnessProgram, hversion]
  have hpush : isPushOnly (List.tail script) = true := by
    rw [hscript]
    exact isPushOnly_push_push (by omega) (by omega)
  have hsolver : solver script = some (.TX_RESTRICTED_ASSET_DATA, [keyID]) := by
    have hslice : script.slice 2 22 = keyID := by
      rw [hscript]
      simp [CScript.slice, ← hkey]
    have hhash : (OP_RVH_ASSET == OP_HASH160) = false := by decide
    have hreturn : OP_RVH_ASSET ≠ OP_RETURN := by decide
    have hreserved : (0x14 : UInt8) ≠ OP_RESERVED := by decide
    have hone : 1 ≤ script.length := by omega
    simp [solver, CScript.isPayToScriptHash, hasset, hwitness, hfirst, hsecond, hlong, hpush, hslice,
      hhash, hreturn, hreserved, hone]
  rw [extractDestination, hsolver]

theorem tagReadsBack [NodeCrypto] {keyID : List UInt8} (hkey : keyID.length = 20)
    (hname : isNameValid data.asset_name = true) : TagReadsBack keyID data := by
  have hlen := (isNameValid_bounds hname).1
  have hser := CNullAssetTxData.length_serialize hlen
  have haddress := extractDestination_tagScript hkey hname
  have hscript := tagScript_eq hkey hlen
  unfold TagReadsBack
  generalize data.constructTransaction (getScriptForNullAssetDataDestination (.keyID keyID)) =
    script at haddress hscript ⊢
  have hsecond : script.at 1 = 0x14 := by rw [hscript, hkey]; rfl
  have htag : script.isNullAssetTxDataScript = true := by
    have hlong : 23 < script.length := by
      rw [hscript]
      simp only [List.length_cons, List.length_append]
      omega
    rw [CScript.isNullAssetTxDataScript, decide_eq_true hlong, hsecond, hscript]
    rfl
  refine ⟨?_, ?_⟩
  · have hreserved : ((0x14 : UInt8) == OP_RESERVED) = false := by decide
    simp [CScript.OneNullKind, htag, CScript.isNullGlobalRestrictionAssetTxDataScript,
      CScript.isNullAssetVerifierTxDataScript, hsecond, hreserved]
  · have hdrop : script.drop OFFSET_TWENTY_THREE = data.serialize := by
      rw [hscript]
      show (keyID ++ ([data.serialize.length.toUInt8] ++ data.serialize)).drop 21 = data.serialize
      rw [← List.append_assoc]
      exact List.drop_left' (by simp [hkey])
    rw [assetNullDataFromScript, if_pos htag, recordFromScript, hdrop, unserialize_nullAssetTxData hlen,
      scriptAddress, haddress]
    rfl

end

/-! ## Verifier strings -/

section

variable (verifier : CNullAssetTxVerifierString)

theorem unserialize_nullAssetTxVerifierString (hlen : verifier.verifier_string.length ≤ 81) :
    unserialize readNullAssetTxVerifierString verifier.serialize = some verifier := by
  have hread := readString_append (s := verifier.verifier_string) (by omega) []
  rw [List.append_nil] at hread
  rw [unserialize, CNullAssetTxVerifierString.serialize, readNullAssetTxVerifierString,
    StateT.run_bind, hread]
  rfl

/-- Whatever the verifier string is, its script is that of a verifier string. -/
theorem oneNullKind_verifierScript (hlen : verifier.verifier_string.length ≤ 80) :
    (verifier.constructTransaction []).OneNullKind ∧
      (verifier.constructTransaction []).isNullAssetVerifierTxDataScript = true := by
  have hser : verifier.serialize.length = verifier.verifier_string.length + 1 :=
    length_serializeString (by omega)
  obtain ⟨size, tail, hscript, hsize⟩ : ∃ size tail, verifier.constructTransaction [] =
      OP_RVH_ASSET :: OP_RESERVED :: size :: tail ∧ size ≠ OP_RESERVED ∧ tail ≠ [] := by
    rw [CNullAssetTxVerifierString.constructTransaction, CScript.push_eq (by omega)]
    by_cases hshort : verifier.serialize.length < OP_PUSHDATA1.toNat
    · rw [if_pos hshort]
      refine ⟨_, _, rfl, fun heq => ?_, fun hnil => ?_⟩
      · have hnat := congrArg UInt8.toNat heq
        rw [toNat_toUInt8_of_lt (by omega)] at hnat
        have : OP_PUSHDATA1.toNat = 76 := rfl
        have : OP_RESERVED.toNat = 80 := rfl
        omega
      · have hnil' : verifier.serialize = [] := hnil
        simp [hnil'] at hser
    · rw [if_neg hshort]
      exact ⟨_, _, rfl, by decide, by simp⟩
  have hlong : 3 < (verifier.constructTransaction []).length := by
    have := List.length_pos_of_ne_nil hsize.2
    rw [hscript]
    simp only [List.length_cons]
    omega
  have hverifier : (verifier.constructTransaction []).isNullAssetVerifierTxDataScript = true := by
    rw [CScript.isNullAssetVerifierTxDataScript, decide_eq_true hlong, hscript]
    exact bne_iff_ne.mpr hsize.1
  refine ⟨?_, hverifier⟩
  have htag : (verifier.constructTransaction []).isNullAssetTxDataScript = false := by
    rw [CScript.isNullAssetTxDataScript, hscript]
    exact Bool.and_false _
  have hglobal : (verifier.constructTransaction []).isNullGlobalRestrictionAssetTxDataScript =
      false := by
    have hne : (size == OP_RESERVED) = false := beq_eq_false_iff_ne.mpr hsize.1
    rw [CScript.isNullGlobalRestrictionAssetTxDataScript, hscript]
    exact (congrArg (_ && ·) hne).trans (Bool.and_false _)
  unfold CScript.OneNullKind
  rw [htag, hglobal, hverifier]
  rfl

/-- With the long push the size byte of the string is read as its first byte. -/
theorem assetNullVerifierDataFromScript_long (hlen : verifier.verifier_string.length ≤ 80)
    (hlong : 75 ≤ verifier.verifier_string.length) :
    assetNullVerifierDataFromScript (verifier.constructTransaction []) =
      some ⟨verifier.verifier_string.length.toUInt8 :: verifier.verifier_string⟩ := by
  have hser : verifier.serialize.length = verifier.verifier_string.length + 1 :=
    length_serializeString (by omega)
  let longer : CNullAssetTxVerifierString :=
    ⟨verifier.verifier_string.length.toUInt8 :: verifier.verifier_string⟩
  have hdrop : (verifier.constructTransaction []).drop OFFSET_THREE = longer.serialize := by
    rw [CNullAssetTxVerifierString.constructTransaction, CScript.push_eq (by omega), if_neg (by
      rw [hser]
      exact not_lt.mpr (Nat.succ_le_succ hlong))]
    show verifier.serialize.length.toUInt8 :: verifier.serialize = longer.serialize
    rw [hser, CNullAssetTxVerifierString.serialize, CNullAssetTxVerifierString.serialize,
      serializeString_short (by omega), serializeString_short (by rw [List.length_cons]; omega)]
    rfl
  rw [assetNullVerifierDataFromScript, if_pos (oneNullKind_verifierScript verifier hlen).2, hdrop]
  exact unserialize_nullAssetTxVerifierString longer (Nat.succ_le_succ hlen)

theorem verifierReadsBack_iff (hlen : verifier.verifier_string.length ≤ 80) :
    VerifierReadsBack verifier ↔ verifier.verifier_string.length < 75 := by
  constructor
  · rintro ⟨-, hread⟩
    by_contra hlong
    rw [assetNullVerifierDataFromScript_long verifier hlen (not_lt.mp hlong), Option.some.injEq] at hread
    have hbytes := congrArg (fun v => v.verifier_string.length) hread
    simp at hbytes
  · intro hshort
    refine ⟨(oneNullKind_verifierScript verifier hlen).1, ?_⟩
    have hser : verifier.serialize.length = verifier.verifier_string.length + 1 :=
      length_serializeString (by omega)
    rw [assetNullVerifierDataFromScript, if_pos (oneNullKind_verifierScript verifier hlen).2,
      CNullAssetTxVerifierString.constructTransaction, CScript.push_short (by omega)]
    exact unserialize_nullAssetTxVerifierString verifier (by omega)

end

/-- **Null data scripts read back** exactly when the verifier string fits a push with one size byte. -/
theorem nullData_roundTrip_iff [NodeCrypto] (keyID : List UInt8) (hkey : keyID.length = 20)
    (data : CNullAssetTxData) (hname : isNameValid data.asset_name = true)
    (verifier : CNullAssetTxVerifierString) (hlen : verifier.verifier_string.length ≤ 80) :
    TagReadsBack keyID data ∧ GlobalReadsBack data ∧ VerifierReadsBack verifier ↔
      verifier.verifier_string.length < 75 := by
  rw [← verifierReadsBack_iff verifier hlen]
  exact ⟨fun h => h.2.2, fun h => ⟨tagReadsBack hkey hname, globalReadsBack hname, h⟩⟩

section Mainnet

attribute [local instance] mainnetCrypto

theorem nullData_roundTrip_true :
    TagReadsBack (List.replicate 20 7) ⟨bytes "$ABC", 1⟩ ∧ GlobalReadsBack ⟨bytes "$ABC", 1⟩ ∧
      VerifierReadsBack ⟨bytes "true"⟩ :=
  (nullData_roundTrip_iff (List.replicate 20 7) (by decide) ⟨bytes "$ABC", 1⟩ (by decide)
    ⟨bytes "true"⟩ (by decide)).mpr (by decide)

/-- `AAA|AAA|…|AAA` with 75 bytes. -/
def nineteenTags : StdString := (bytes "|").intercalate (List.replicate 19 (bytes "AAA"))

/-- A stripped verifier string of 75 bytes comes back as `KAAA|AAA|…|AAA`. -/
theorem not_verifierReadsBack_nineteenTags :
    getStrippedVerifierString nineteenTags = nineteenTags ∧ nineteenTags.length = 75 ∧
      assetNullVerifierDataFromScript (CNullAssetTxVerifierString.constructTransaction ⟨nineteenTags⟩ []) =
        some ⟨bytes "K" ++ nineteenTags⟩ ∧
      ¬ (TagReadsBack (List.replicate 20 7) ⟨bytes "$ABC", 1⟩ ∧ GlobalReadsBack ⟨bytes "$ABC", 1⟩ ∧
        VerifierReadsBack ⟨nineteenTags⟩) := by
  refine ⟨by decide, by decide, ?_, ?_⟩
  · exact assetNullVerifierDataFromScript_long ⟨nineteenTags⟩ (by decide) (by decide)
  · intro h
    exact absurd ((verifierReadsBack_iff ⟨nineteenTags⟩ (by decide)).mp h.2.2) (by decide)

end Mainnet

end RavenCash
