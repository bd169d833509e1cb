import RavenCash.Assets.RoundTrip
import RavenCash.Basic.Decoding
import RavenCash.Consensus.Contextual

/-!
# Attached hashes as text

The wallet takes the hash that is attached to an asset or to a message as text, 46 characters of base58 or
64 hexadecimal digits; `DecodeAssetData` turns it into bytes and `CheckEncoded` looks at the text that
these bytes would give. `ReadWriteAssetHash` writes an IPFS hash without its first two bytes and puts
`0x12 0x20` there when it reads it. Most texts of 46 characters with `Qm` in front have these two bytes,
but not all; and a text that is accepted need not be the one its bytes give.
-/

set_option autoImplicit false

namespace RavenCash

def decodeAssetData (encoded : StdString) : StdString :=
  if encoded.length = 46 then (decodeBase58 encoded).getD []
  else if encoded.length = 64 ∧ isHex encoded = true then parseHex encoded
  else []

/-- The decoded bytes read back as they were written, and give the text. -/
structure SurvivesSerialization (encoded : StdString) : Prop where
  read : readAssetHash.run (serializeAssetHash (decodeAssetData encoded)) =
    some (some (decodeAssetData encoded), [])
  text : encodeAssetData (decodeAssetData encoded) = encoded

theorem readAssetHash_ipfs_iff {hash : StdString} (hlen : hash.length = 34) :
    readAssetHash.run (serializeAssetHash hash) = some (some hash, []) ↔
      hash.take 2 = [IPFS_SHA2_256, IPFS_SHA2_256_LEN] := by
  constructor
  · intro h
    -- the two bytes were put there when the hash was read
    have hdrop : (hash.drop 2).length = 32 := by rw [List.length_drop, hlen]
    have hread := readAssetHash_marked IPFS_SHA2_256 hdrop []
    rw [List.append_nil, if_pos rfl] at hread
    rw [serializeAssetHash, if_pos hlen, hread] at h
    simp only [Option.some.injEq, Prod.mk.injEq, and_true] at h
    rw [← h]
    rfl
  · intro h
    have hpresent := readAssetHash_present (.inr (.inl ⟨hlen, h⟩)) (by rintro rfl; cases hlen) []
    rwa [List.append_nil] at hpresent

theorem readAssetHash_txid {hash : StdString} (hlen : hash.length = 32) :
    readAssetHash.run (serializeAssetHash hash) = some (some hash, []) := by
  have hpresent := readAssetHash_present (.inr (.inr hlen)) (by rintro rfl; cases hlen) []
  rwa [List.append_nil] at hpresent

theorem length_hexStr (s : List UInt8) : (hexStr s).length = 2 * s.length := by
  rw [hexStr, List.length_flatMap]
  simp [Nat.mul_comm]

theorem checkEncoded_ok_iff {hash : StdString} : checkEncoded hash = .ok () ↔
    (encodeAssetData hash).take 2 = bytes "Qm" ∧ (encodeAssetData hash).length = 46 ∨
      isHex (encodeAssetData hash) = true ∧ (encodeAssetData hash).length = 64 := by
  simp [checkEncoded, failIf, or_iff_not_imp_left]

theorem length_of_checkEncoded {hash : StdString} (h : checkEncoded hash = .ok ()) :
    hash.length = 34 ∨ hash.length = 32 := by
  by_contra! hlen
  have hnil : encodeAssetData hash = [] := by rw [encodeAssetData, if_neg hlen.1, if_neg hlen.2]
  rw [checkEncoded_ok_iff, hnil] at h
  simp at h

/-- A text of 46 characters that is accepted with 34 bytes is the one these bytes give. -/
theorem encodeAssetData_decodeBase58 {encoded : StdString} (hencoded : encoded.length = 46)
    (haccept : checkEncoded (decodeAssetData encoded) = .ok ()) (hlen : (decodeAssetData encoded).length = 34) :
    encodeAssetData (decodeAssetData encoded) = encoded := by
  rw [checkEncoded_ok_iff] at haccept
  rw [encodeAssetData, if_pos hlen] at haccept ⊢
  rw [decodeAssetData, if_pos hencoded] at haccept hlen ⊢
  cases hdecode : decodeBase58 encoded with
  | none =>
    rw [hdecode] at hlen
    cases hlen
  | some vch =>
    have hsub := encodeBase58_decodeBase58 hdecode hencoded.le
    rw [hdecode, Option.getD_some] at haccept
    refine hsub.eq_of_length ?_
    obtain ⟨-, h⟩ | ⟨-, h⟩ := haccept
    · rw [h, hencoded]
    · have hle := hsub.length_le
      omega

theorem encodeAssetData_parseHex {encoded : StdString} (hlen : encoded.length = 64) (hhex : isHex encoded = true) :
    (parseHex encoded).length = 32 ∧ encodeAssetData (parseHex encoded) = encoded.map lowerHex := by
  rw [isHex, Bool.and_eq_true, Bool.and_eq_true, List.all_eq_true] at hhex
  obtain ⟨hmap, hlength⟩ := hexStr_parseHex encoded hhex.1.1 (by omega)
  have h32 : (parseHex encoded).length = 32 := by omega
  exact ⟨h32, by rw [encodeAssetData, if_neg (by omega), if_pos h32, hmap]⟩

/-- A text that is accepted survives if and only if it is base58 of 34 bytes, the first two `0x12 0x20`,
or has no hexadecimal digit in upper case. -/
theorem survivesSerialization_iff {encoded : StdString}
    (haccept : checkEncoded (decodeAssetData encoded) = .ok ()) :
    SurvivesSerialization encoded ↔
      (encoded.length = 46 ∧ (decodeAssetData encoded).length = 34 ∧
          (decodeAssetData encoded).take 2 = [IPFS_SHA2_256, IPFS_SHA2_256_LEN]) ∨
        (encoded.length = 64 ∧ ∀ c ∈ encoded, isUpperHex c = false) := by
  by_cases h46 : encoded.length = 46
  · rw [or_iff_left (by omega), and_iff_right h46]
    obtain hlen | hlen := length_of_checkEncoded haccept
    · rw [and_iff_right hlen, ← readAssetHash_ipfs_iff hlen]
      exact ⟨fun h => h.read, fun h => ⟨h, encodeAssetData_decodeBase58 h46 haccept hlen⟩⟩
    · -- 32 bytes are written as 64 digits
      refine iff_of_false (fun h => ?_) (by omega)
      have hlength := congrArg List.length h.text
      rw [encodeAssetData, if_neg (by omega), if_pos hlen, length_hexStr] at hlength
      omega
  · by_cases h64 : encoded.length = 64 ∧ isHex encoded = true
    · have hdecode : decodeAssetData encoded = parseHex encoded := by
        rw [decodeAssetData, if_neg h46, if_pos h64]
      obtain ⟨h32, hencode⟩ := encodeAssetData_parseHex h64.1 h64.2
      rw [or_iff_right (fun h => h46 h.1), and_iff_right h64.1, ← map_lowerHex_eq_iff, ← hencode]
      constructor
      · intro h
        rw [← hdecode, h.text]
      · intro h
        refine ⟨readAssetHash_txid (hdecode ▸ h32), ?_⟩
        rw [hdecode, h]
    · have hdecode : decodeAssetData encoded = [] := by rw [decodeAssetData, if_neg h46, if_neg h64]
      have hlength := length_of_checkEncoded haccept
      rw [hdecode] at hlength
      simp at hlength

theorem survivesSerialization_ipfs :
    checkEncoded (decodeAssetData (bytes "QmTqu3Lk3gmTsQVtjU7rYYM37EAW4xNmbuEAp2Mjr4AV7E")) = .ok () ∧
      SurvivesSerialization (bytes "QmTqu3Lk3gmTsQVtjU7rYYM37EAW4xNmbuEAp2Mjr4AV7E") := by
  have haccept : checkEncoded (decodeAssetData (bytes "QmTqu3Lk3gmTsQVtjU7rYYM37EAW4xNmbuEAp2Mjr4AV7E")) = .ok () := by
    decide +kernel
  exact ⟨haccept, (survivesSerialization_iff haccept).mpr (.inl (by decide +kernel))⟩

/-- A text that is accepted and whose bytes begin with `0x12 0x22`. -/
theorem not_survivesSerialization_otherHead :
    checkEncoded (decodeAssetData (bytes "Qmzzzzzzzzzzzzzzzzzzzzzzzzzzzzzzzzzzzzzzzzzzzz")) = .ok () ∧
      ¬ SurvivesSerialization (bytes "Qmzzzzzzzzzzzzzzzzzzzzzzzzzzzzzzzzzzzzzzzzzzzz") := by
  refine ⟨by decide +kernel, fun h => ?_⟩
  have htwo := (readAssetHash_ipfs_iff (by decide +kernel)).mp h.read
  exact absurd htwo (by decide +kernel)

end RavenCash
