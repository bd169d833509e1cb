import RavenCash.Assets.Codec

/-!
# Asset scripts read back

A reader is complete for a writer when, on the written bytes with anything behind them, it returns
the value and leaves exactly what was behind. The fields of a record compose that way; the hash is
the exception, since it is optional and its presence is guessed from how much is left. In a script
only the final `OP_DROP` is left behind the record, and that is too short for a hash or an expire
time.
-/

set_option autoImplicit false

namespace RavenCash

/-! ## Fields -/

theorem readInt8_append (x : Int8) (rest : List UInt8) :
    readInt8.run (serializeInt8 x ++ rest) = some (x, rest) := by
  have hbyte : serializeInt8 x = leBytes 1 x.toUInt8.toNat := by
    have hlt := x.toUInt8.toNat_lt
    simp only [serializeInt8, leBytes, List.cons.injEq, and_true]
    rw [Nat.mod_eq_of_lt hlt, Nat.toUInt8_eq, UInt8.ofNat_toNat]
  rw [hbyte, readInt8, StateT.run_bind, readLE_append 1 x.toUInt8.toNat_lt]
  show some (Int8.ofNat x.toUInt8.toNat, rest) = some (x, rest)
  rw [← UInt8.toInt8_ofNat', UInt8.ofNat_toNat, Int8.toInt8_toUInt8]

theorem readInt64_append (x : Int64) (rest : List UInt8) :
    readInt64.run (serializeInt64 x ++ rest) = some (x, rest) := by
  rw [serializeInt64, readInt64, StateT.run_bind, readLE_append 8 x.toUInt64.toNat_lt]
  show some (Int64.ofNat x.toUInt64.toNat, rest) = some (x, rest)
  rw [← UInt64.toInt64_ofNat', UInt64.ofNat_toNat, Int64.toInt64_toUInt64]

/-- A string of less than 253 bytes has one size byte in front. -/
theorem readString_append {s : StdString} (h : s.length < 253) (rest : List UInt8) :
    readString.run (serializeString s ++ rest) = some (s, rest) := by
  have hmax : s.length ≤ MAX_SIZE := by
    rw [MAX_SIZE]
    omega
  rw [serializeString, List.append_assoc, readString, StateT.run_bind,
    readCompactSize_append hmax]
  exact readBytes_append rfl rest

/-! ## The optional hash -/

/-- The hashes `ReadWriteAssetHash` can carry: none, an IPFS hash or a transaction id. -/
def IsAssetHash (hash : StdString) : Prop :=
  hash = [] ∨ (hash.length = 34 ∧ hash.take 2 = [IPFS_SHA2_256, IPFS_SHA2_256_LEN]) ∨
    hash.length = 32

instance (hash : StdString) : Decidable (IsAssetHash hash) := by
  unfold IsAssetHash
  infer_instance

theorem length_serializeString {s : StdString} (h : s.length < 253) :
    (serializeString s).length = s.length + 1 := by
  rw [serializeString, writeCompactSize, if_pos h, List.length_append, length_leBytes]
  omega

theorem length_serializeAssetHash_le {hash : StdString} (h : IsAssetHash hash) :
    (serializeAssetHash hash).length ≤ 34 := by
  obtain rfl | ⟨hlen, -⟩ | hlen := h
  · decide
  · rw [serializeAssetHash, if_pos hlen, List.length_cons,
      length_serializeString (by rw [List.length_drop]; omega), List.length_drop]
    omega
  · rw [serializeAssetHash, if_neg (by omega), if_pos hlen, List.length_cons,
      length_serializeString (by omega)]
    omega

/-- A marker byte and 32 bytes of hash are read whatever stands behind them. -/
theorem readAssetHash_marked (marker : UInt8) {hash : StdString} (h : hash.length = 32)
    (rest : List UInt8) :
    readAssetHash.run (marker :: serializeString hash ++ rest) =
      some (if marker = IPFS_SHA2_256 then some (IPFS_SHA2_256 :: IPFS_SHA2_256_LEN :: hash)
        else some hash, rest) := by
  have hsize : 33 ≤ (marker :: serializeString hash ++ rest).length := by
    rw [List.length_append, List.length_cons, length_serializeString (by omega)]
    omega
  have hmarker : (readBytes 1).run (marker :: serializeString hash ++ rest) =
      some ([marker], serializeString hash ++ rest) :=
    readBytes_append (show [marker].length = 1 from rfl) _
  have htake : hash.take 32 = hash := List.take_of_length_le (by omega)
  rw [readAssetHash, StateT.run_bind, StateT.run_get]
  show StateT.run (if 33 ≤ (marker :: serializeString hash ++ rest).length then _ else _) _ = _
  rw [if_pos hsize]
  have hhash := readString_append (s := hash) (by omega) rest
  simp only [StateT.run_bind, hmarker, hhash, Option.bind_eq_bind, Option.bind_some, htake,
    List.cons.injEq, and_true]
  split_ifs <;> rfl

/-- Less than 33 bytes are no hash. -/
theorem readAssetHash_short {rest : List UInt8} (h : rest.length < 33) :
    readAssetHash.run rest = some (none, rest) := by
  rw [readAssetHash, StateT.run_bind, StateT.run_get]
  show StateT.run (if 33 ≤ rest.length then _ else _) rest = _
  rw [if_neg (by omega)]
  rfl

/-- A hash that is there reads back whatever stands behind it. -/
theorem readAssetHash_present {hash : StdString} (h : IsAssetHash hash) (hne : hash ≠ [])
    (rest : List UInt8) :
    readAssetHash.run (serializeAssetHash hash ++ rest) = some (some hash, rest) := by
  obtain rfl | ⟨hlen, hhead⟩ | hlen := h
  · exact absurd rfl hne
  · have hcons : IPFS_SHA2_256 :: IPFS_SHA2_256_LEN :: hash.drop 2 = hash := by
      conv_rhs => rw [← List.take_append_drop 2 hash, hhead]
      rfl
    rw [serializeAssetHash, if_pos hlen, readAssetHash_marked _ (by rw [List.length_drop]; omega),
      if_pos rfl, hcons]
  · rw [serializeAssetHash, if_neg (by omega), if_pos hlen, readAssetHash_marked _ hlen,
      if_neg (by decide)]

/-- The optional hash reads back when too little for a hash stands behind it. -/
theorem readAssetHash_append {hash : StdString} (h : IsAssetHash hash) {rest : List UInt8}
    (hrest : rest.length < 33) :
    ∃ read : Option StdString, readAssetHash.run (serializeAssetHash hash ++ rest) =
      some (read, rest) ∧ read.getD [] = hash := by
  by_cases hne : hash = []
  · subst hne
    exact ⟨none, readAssetHash_short hrest, rfl⟩
  · exact ⟨some hash, readAssetHash_present h hne rest, rfl⟩

/-! ## Records -/

theorem length_serializeInt64 (x : Int64) : (serializeInt64 x).length = 8 := length_leBytes 8 _

theorem length_serializeInt8 (x : Int8) : (serializeInt8 x).length = 1 := rfl

/-- A new asset takes at most 77 bytes, and never less than its amount does. -/
theorem CNewAsset.length_serialize {asset : CNewAsset} (hname : asset.strName.length ≤ 31)
    (hhash : IsAssetHash asset.strIPFSHash) :
    8 ≤ asset.serialize.length ∧ asset.serialize.length ≤ 77 := by
  have hhashLen := length_serializeAssetHash_le hhash
  simp only [CNewAsset.serialize, List.length_append, length_serializeInt64, length_serializeInt8,
    length_serializeString (show asset.strName.length < 253 by omega)]
  split_ifs
  · omega
  · rw [List.length_nil]
    omega

theorem CAssetTransfer.length_serialize_le {transfer : CAssetTransfer}
    (hname : transfer.strName.length ≤ 31) (hhash : IsAssetHash transfer.message) :
    transfer.serialize.length ≤ 82 := by
  have hhashLen := length_serializeAssetHash_le hhash
  simp only [CAssetTransfer.serialize, List.length_append, length_serializeInt64,
    length_serializeString (show transfer.strName.length < 253 by omega)]
  split_ifs
  · rw [length_serializeInt64]
    omega
  · rw [List.length_nil]
    omega

theorem CReissueAsset.length_serialize_le {reissue : CReissueAsset}
    (hname : reissue.strName.length ≤ 31) (hhash : IsAssetHash reissue.strIPFSHash) :
    reissue.serialize.length ≤ 76 := by
  have hhashLen := length_serializeAssetHash_le hhash
  simp only [CReissueAsset.serialize, List.length_append, length_serializeInt64,
    length_serializeInt8, length_serializeString (show reissue.strName.length < 253 by omega)]
  omega

theorem readNewAsset_append {asset : CNewAsset} (hname : asset.strName.length < 253)
    (hhash : IsAssetHash asset.strIPFSHash) (hflag : asset.strIPFSHash ≠ [] → asset.nHasIPFS = 1)
    {rest : List UInt8} (hrest : rest.length < 33) :
    readNewAsset.run (asset.serialize ++ rest) = some (asset, rest) := by
  rcases asset with ⟨strName, nAmount, units, nReissuable, nHasIPFS, strIPFSHash⟩
  simp only [CNewAsset.serialize, List.append_assoc, readNewAsset, StateT.run_bind,
    readString_append hname, readInt64_append, readInt8_append, Option.bind_eq_bind,
    Option.bind_some]
  by_cases hone : nHasIPFS = 1
  · obtain ⟨read, hread, hget⟩ := readAssetHash_append hhash hrest
    simp only [if_pos hone, StateT.run_bind, hread, Option.bind_eq_bind, Option.bind_some,
      StateT.run_pure, Option.pure_def, hget]
  · have hempty : strIPFSHash = [] := by
      by_contra hne
      exact hone (hflag hne)
    simp [hone, hempty]

theorem readReissueAsset_append {reissue : CReissueAsset} (hname : reissue.strName.length < 253)
    (hhash : IsAssetHash reissue.strIPFSHash) {rest : List UInt8} (hrest : rest.length < 33) :
    readReissueAsset.run (reissue.serialize ++ rest) = some (reissue, rest) := by
  rcases reissue with ⟨strName, nAmount, nUnits, nReissuable, strIPFSHash⟩
  obtain ⟨read, hread, hget⟩ := readAssetHash_append hhash hrest
  simp only [CReissueAsset.serialize, List.append_assoc, readReissueAsset, StateT.run_bind,
    readString_append hname, readInt64_append, readInt8_append, hread, Option.bind_eq_bind,
    Option.bind_some, StateT.run_pure, Option.pure_def, hget]

/-- The expire time is written behind a message only. -/
theorem readAssetTransfer_append {transfer : CAssetTransfer}
    (hname : transfer.strName.length < 253) (hhash : IsAssetHash transfer.message)
    (htime : transfer.message = [] → transfer.nExpireTime = 0) {rest : List UInt8}
    (hrest : rest.length < 8) :
    readAssetTransfer.run (transfer.serialize ++ rest) = some (transfer, rest) := by
  rcases transfer with ⟨strName, nAmount, message, nExpireTime⟩
  simp only [CAssetTransfer.serialize, List.append_assoc, readAssetTransfer, StateT.run_bind,
    readString_append hname, readInt64_append, Option.bind_eq_bind, Option.bind_some]
  by_cases hne : message = []
  · obtain rfl := htime hne
    subst hne
    have hshort := readAssetHash_short (show rest.length < 33 by omega)
    simp [serializeAssetHash, hshort]
  · have hlen : message.length = 34 ∨ message.length = 32 := by
      obtain h | ⟨h, -⟩ | h := hhash
      · exact absurd h hne
      · exact .inl h
      · exact .inr h
    rw [readAssetHash_present hhash hne]
    by_cases hzero : nExpireTime = 0
    · have hshort : ¬ 8 ≤ rest.length := by omega
      simp [hzero, hshort]
    · have hlong : 8 ≤ (serializeInt64 nExpireTime ++ rest).length := by
        rw [List.length_append, serializeInt64, length_leBytes]
        omega
      simp [hlen, hzero, hlong, readInt64_append nExpireTime rest, -List.length_append]

/-! ## Scripts -/

theorem CScript.at_append {p : CScript} {n : Nat} (h : p.length = n) (l : List UInt8) (i : Nat) :
    CScript.at (p ++ l) (n + i) = CScript.at l i := by
  subst h
  rw [CScript.at, CScript.at, List.getD_eq_getElem?_getD, List.getD_eq_getElem?_getD,
    List.getElem?_append_right (Nat.le_add_right _ _), Nat.add_sub_cancel_left]

theorem leBytes_one (n : Nat) : leBytes 1 n = [(n % 256).toUInt8] := rfl

/-- The header and the bytes a push of at most 255 bytes appends. -/
theorem CScript.push_eq {p : CScript} {b : List UInt8} (h : b.length ≤ 255) :
    p.push b = p ++ (if b.length < OP_PUSHDATA1.toNat then [b.length.toUInt8]
      else [OP_PUSHDATA1, b.length.toUInt8]) ++ b := by
  have hmod : b.length % 256 = b.length := Nat.mod_eq_of_lt (by omega)
  simp only [CScript.push, leBytes_one, hmod, if_pos h]

/-- What `ConstructTransaction` appends to a script: the opcode, the size of the push in one byte or
two, the marker bytes, the kind and the data. -/
theorem constructAssetScript_eq {p : CScript} (kind : UInt8) {data : List UInt8}
    (hdata : data.length + 4 ≤ 255) :
    constructAssetScript kind data p = p ++ (OP_RVH_ASSET ::
      (if data.length + 4 < OP_PUSHDATA1.toNat then [(data.length + 4).toUInt8]
        else [OP_PUSHDATA1, (data.length + 4).toUInt8]) ++
      (RVH_N :: RVH_E :: RVH_X :: kind :: (data ++ [OP_DROP]))) := by
  have hlen : ([RVH_N, RVH_E, RVH_X, kind] ++ data).length = data.length + 4 := by simp
  rw [constructAssetScript, CScript.push_eq (by rw [hlen]; exact hdata), hlen]
  simp [CScript.op]

/-- Behind a script of 25 bytes the marker bytes are found and the data follows them, for the short
and for the long push: the size byte of the long one is never taken for the first marker byte. -/
theorem assetIndex_constructAssetScript {p : CScript} (hp : p.length = 25) (kind : UInt8)
    {data : List UInt8} (hdata : data.length + 4 < RVH_N.toNat) :
    ∃ index, CScript.assetIndex (constructAssetScript kind data p) = some index ∧
      CScript.at (constructAssetScript kind data p) index = kind ∧
      (constructAssetScript kind data p).drop (index + 1) = data ++ [OP_DROP] := by
  have hN : RVH_N.toNat = 114 := rfl
  rw [constructAssetScript_eq kind (by omega)]
  split_ifs with hshort
  · have hat := CScript.at_append hp (OP_RVH_ASSET :: [(data.length + 4).toUInt8] ++
      (RVH_N :: RVH_E :: RVH_X :: kind :: (data ++ [OP_DROP])))
    refine ⟨30, ?_, hat 5, ?_⟩
    · rw [CScript.assetIndex, hat 2, hat 3, hat 4]
      rfl
    · rw [show 30 + 1 = 25 + 6 from rfl, ← List.drop_drop, List.drop_left' hp]
      rfl
  · have hsize : (data.length + 4).toUInt8 ≠ RVH_N := by
      intro heq
      have := congrArg UInt8.toNat heq
      rw [Nat.toUInt8_eq, UInt8.toNat_ofNat_of_lt' (by rw [UInt8.size]; omega)] at this
      omega
    have hat := CScript.at_append hp (OP_RVH_ASSET :: [OP_PUSHDATA1, (data.length + 4).toUInt8] ++
      (RVH_N :: RVH_E :: RVH_X :: kind :: (data ++ [OP_DROP])))
    refine ⟨31, ?_, hat 6, ?_⟩
    · rw [CScript.assetIndex, hat 2, hat 3, hat 4, hat 5]
      exact if_neg hsize
    · rw [show 31 + 1 = 25 + 7 from rfl, ← List.drop_drop, List.drop_left' hp]
      rfl

/-- The type and the owner flag behind the kind byte. -/
def assetKind (kind : UInt8) : Option (TxnOutType × Bool) :=
  if kind = RVH_T then some (.TX_TRANSFER_ASSET, false)
  else if kind = RVH_Q then some (.TX_NEW_ASSET, false)
  else if kind = RVH_O then some (.TX_NEW_ASSET, true)
  else if kind = RVH_N then some (.TX_REISSUE_ASSET, false)
  else none

/-- `IsAssetScript` of a constructed script. A new asset needs the size of its amount. -/
theorem assetScript_constructAssetScript {p : CScript} (hp : p.length = 25) {kind : UInt8}
    {nType : TxnOutType} {fIsOwner : Bool} (hkind : assetKind kind = some (nType, fIsOwner))
    {data : List UInt8} (hdata : data.length + 4 < RVH_N.toNat)
    (hmin : kind = RVH_Q → 8 ≤ data.length) :
    ∃ nStartingIndex,
      (constructAssetScript kind data p).drop nStartingIndex = data ++ [OP_DROP] ∧
      CScript.assetScript (constructAssetScript kind data p) =
        some ⟨nType, fIsOwner, nStartingIndex⟩ := by
  obtain ⟨index, hindex, hat, hdrop⟩ := assetIndex_constructAssetScript hp kind hdata
  have hN : RVH_N.toNat = 114 := rfl
  have hcons := constructAssetScript_eq (p := p) kind (show data.length + 4 ≤ 255 by omega)
  have hopcode : CScript.at (constructAssetScript kind data p) 25 = OP_RVH_ASSET := by
    rw [hcons]
    exact CScript.at_append hp _ 0
  have hlen : 31 + data.length < (constructAssetScript kind data p).length := by
    rw [hcons]
    split_ifs <;> simp [hp] <;> omega
  refine ⟨index + 1, hdrop, ?_⟩
  unfold CScript.assetScript
  rw [if_pos ⟨by omega, hopcode⟩, hindex]
  simp only [hat]
  unfold assetKind at hkind
  grind

section

variable [NodeCrypto] {keyID : List UInt8} {data : List UInt8} {kind : UInt8}

theorem scriptAddress_constructAssetScript (hkey : keyID.length = 20) {a : AssetScript}
    (hdata : data.length + 4 < RVH_N.toNat)
    (h : CScript.assetScript (constructAssetScript kind data
      (getScriptForDestination (.keyID keyID))) = some a) :
    scriptAddress (constructAssetScript kind data (getScriptForDestination (.keyID keyID))) =
      NodeCrypto.encodeDestination (.keyID keyID) := by
  have hN : RVH_N.toNat = 114 := rfl
  have hslice : CScript.slice (constructAssetScript kind data
      (getScriptForDestination (.keyID keyID))) 3 23 = keyID := by
    rw [constructAssetScript_eq kind (by omega), getScriptForDestination_keyID hkey]
    simp [CScript.slice, hkey]
  rw [scriptAddress, extractDestination_assetScript h, hslice]

/-- A record whose reader is complete reads back from the script it was written to. -/
theorem recordFromScript_constructAssetScript {α : Type} {r : Reader α} {a : α}
    (hkey : keyID.length = 20) {nType : TxnOutType} {fIsOwner : Bool}
    (hkind : assetKind kind = some (nType, fIsOwner)) (hdata : data.length + 4 < RVH_N.toNat)
    (hmin : kind = RVH_Q → 8 ≤ data.length)
    (hread : r.run (data ++ [OP_DROP]) = some (a, [OP_DROP])) :
    ∃ nStartingIndex,
      CScript.assetScript (constructAssetScript kind data
          (getScriptForDestination (.keyID keyID))) = some ⟨nType, fIsOwner, nStartingIndex⟩ ∧
        recordFromScript r (constructAssetScript kind data
          (getScriptForDestination (.keyID keyID))) nStartingIndex =
          some (a, NodeCrypto.encodeDestination (.keyID keyID)) := by
  have hp : (getScriptForDestination (.keyID keyID)).length = 25 := by
    rw [getScriptForDestination_keyID hkey]
    simp [hkey]
  obtain ⟨nStartingIndex, hdrop, hscript⟩ := assetScript_constructAssetScript hp hkind hdata hmin
  refine ⟨nStartingIndex, hscript, ?_⟩
  rw [recordFromScript, hdrop, unserialize, hread, scriptAddress_constructAssetScript hkey hdata
    hscript]
  rfl

/-- What reading a constructed script gives: its type and owner flag, and the record with the
address it was constructed for. -/
def ReadsBack {α : Type} (fromScript : CScript → Option (α × StdString)) (script : CScript)
    (nType : TxnOutType) (fIsOwner : Bool) (record : α) (keyID : List UInt8) : Prop :=
  (∃ nStartingIndex, script.assetScript = some ⟨nType, fIsOwner, nStartingIndex⟩) ∧
    fromScript script = some (record, NodeCrypto.encodeDestination (.keyID keyID))

/-- A reader that asks for the kind of the script and reads the record behind it. -/
theorem ReadsBack.intro {α : Type} {fromScript : CScript → Option (α × StdString)} {r : Reader α}
    {script : CScript} {nType : TxnOutType} {fIsOwner : Bool} {record : α}
    (hfrom : fromScript script = (script.assetDataOf nType fIsOwner).bind (recordFromScript r script))
    (h : ∃ nStartingIndex, script.assetScript = some ⟨nType, fIsOwner, nStartingIndex⟩ ∧
      recordFromScript r script nStartingIndex =
        some (record, NodeCrypto.encodeDestination (.keyID keyID))) :
    ReadsBack fromScript script nType fIsOwner record keyID := by
  obtain ⟨nStartingIndex, hscript, hrecord⟩ := h
  refine ⟨⟨nStartingIndex, hscript⟩, ?_⟩
  rw [hfrom, CScript.assetDataOf_eq_some.mpr hscript, Option.bind_some, hrecord]

/-- **Asset scripts read back.** A new asset, its owner token, a transfer and a reissue, constructed
behind a pay-to-public-key-hash script, are recognised as what they are and read back with the
address. The flag `nHasIPFS` and the expire time belong to a hash that is there. -/
theorem assetScript_roundTrip (keyID : List UInt8) (hkey : keyID.length = 20) (strName : StdString)
    (hname : strName.length ≤ 31) (nAmount : CAmount) (units nReissuable nHasIPFS : Int8)
    (hash : StdString) (hhash : IsAssetHash hash) (hflag : hash ≠ [] → nHasIPFS = 1)
    (nExpireTime : Int64) (htime : hash = [] → nExpireTime = 0) :
    let script := getScriptForDestination (.keyID keyID)
    let asset : CNewAsset := ⟨strName, nAmount, units, nReissuable, nHasIPFS, hash⟩
    let transfer : CAssetTransfer := ⟨strName, nAmount, hash, nExpireTime⟩
    let reissue : CReissueAsset := ⟨strName, nAmount, units, nReissuable, hash⟩
    ReadsBack assetFromScript (asset.constructTransaction script) .TX_NEW_ASSET false asset keyID ∧
      ReadsBack ownerAssetFromScript (asset.constructOwnerTransaction script) .TX_NEW_ASSET true
        (strName ++ OWNER_TAG) keyID ∧
      ReadsBack transferAssetFromScript (transfer.constructTransaction script) .TX_TRANSFER_ASSET
        false transfer keyID ∧
      ReadsBack reissueAssetFromScript (reissue.constructTransaction script) .TX_REISSUE_ASSET
        false reissue keyID := by
  intro script asset transfer reissue
  have hN : RVH_N.toNat = 114 := rfl
  have hdrop : [OP_DROP].length < 8 := by decide
  have hnameLen : strName.length < 253 := by omega
  refine ⟨?_, ?_, ?_, ?_⟩
  · obtain ⟨hmin, hmax⟩ := @CNewAsset.length_serialize asset hname hhash
    exact ReadsBack.intro rfl (recordFromScript_constructAssetScript hkey rfl (by omega)
      (fun _ => hmin) (readNewAsset_append hnameLen hhash hflag (by omega)))
  · have howner : (asset.strName ++ OWNER_TAG).length = strName.length + 1 := by
      rw [List.length_append]
      rfl
    have hlen := length_serializeString (s := asset.strName ++ OWNER_TAG) (by omega)
    exact ReadsBack.intro rfl (recordFromScript_constructAssetScript hkey rfl (by omega)
      (fun h => absurd h (by decide)) (readString_append (by omega) _))
  · have hlen := @CAssetTransfer.length_serialize_le transfer hname hhash
    exact ReadsBack.intro rfl (recordFromScript_constructAssetScript hkey rfl (by omega)
      (fun h => absurd h (by decide)) (readAssetTransfer_append hnameLen hhash htime hdrop))
  · have hlen := @CReissueAsset.length_serialize_le reissue hname hhash
    exact ReadsBack.intro rfl (recordFromScript_constructAssetScript hkey rfl (by omega)
      (fun h => absurd h (by decide)) (readReissueAsset_append hnameLen hhash (by omega)))

end

section

attribute [local instance] mainnetCrypto

/-- An asset and a transfer of it with an IPFS hash, whose data needs the long push. -/
theorem assetScript_roundTrip_ipfs :
    ReadsBack assetFromScript
        (CNewAsset.constructTransaction
          ⟨List.replicate 31 65, 500000000, 2, 1, 1, 0x12 :: 0x20 :: List.replicate 32 9⟩
          (getScriptForDestination (.keyID (List.replicate 20 7))))
        .TX_NEW_ASSET false
        ⟨List.replicate 31 65, 500000000, 2, 1, 1, 0x12 :: 0x20 :: List.replicate 32 9⟩
        (List.replicate 20 7) ∧
      ReadsBack transferAssetFromScript
        (CAssetTransfer.constructTransaction
          ⟨List.replicate 31 65, 500000000, 0x12 :: 0x20 :: List.replicate 32 9, 1700000000⟩
          (getScriptForDestination (.keyID (List.replicate 20 7))))
        .TX_TRANSFER_ASSET false
        ⟨List.replicate 31 65, 500000000, 0x12 :: 0x20 :: List.replicate 32 9, 1700000000⟩
        (List.replicate 20 7) := by
  have h := assetScript_roundTrip (List.replicate 20 7) (by decide) (List.replicate 31 65)
    (by decide) 500000000 2 1 1 (0x12 :: 0x20 :: List.replicate 32 9) (by decide) (fun _ => rfl)
    1700000000 (fun h => absurd h (by decide))
  exact ⟨h.1, h.2.2.1⟩

end

end RavenCash
