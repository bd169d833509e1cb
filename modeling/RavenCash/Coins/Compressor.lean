import RavenCash.Basic.VarInt
import RavenCash.Script.Script

/-!
# Compressed outputs

`compressor.cpp`, which the coin database stores its outputs with. An amount is written by its digits and its trailing
zeros in one number. Six forms of scripts have one byte in place of their length: a payment to a key hash, to a script
hash, and to a key of either kind and sign; every other script comes after its length and six.

Arithmetic of `uint64_t` is exact arithmetic modulo `2 ^ 64`. The curve is a parameter.
-/

set_option autoImplicit false

namespace RavenCash.Compressor

open CScript (slice)

/-! ## Amounts -/

/-- `while (((n % 10) == 0) && e < 9) { n /= 10; e++; }`, with the turns that are left. -/
def stripZeros : Nat → Nat → Nat → Nat × Nat
  | 0, e, n => (n, e)
  | turns + 1, e, n => if n % 10 = 0 then stripZeros turns (e + 1) (n / 10) else (n, e)

/-- The value of `CompressAmount` in exact arithmetic. -/
def compressExact (n : Nat) : Nat :=
  if n = 0 then 0
  else
    let (n, e) := stripZeros 9 0 n
    if e < 9 then
      let d := n % 10
      let n := n / 10
      1 + (n * 9 + d - 1) * 10 + e
    else 1 + (n - 1) * 10 + 9

def compressAmount (n : Nat) : Nat := compressExact n % 2 ^ 64

/-- `while (e) { n *= 10; e--; }` -/
def timesTen : Nat → Nat → Nat
  | 0, n => n
  | e + 1, n => timesTen e (n * 10)

/-- The value of `DecompressAmount` in exact arithmetic. -/
def decompressExact (x : Nat) : Nat :=
  if x = 0 then 0
  else
    let x := x - 1
    let e := x % 10
    let x := x / 10
    let n := if e < 9 then x / 9 * 10 + (x % 9 + 1) else x + 1
    timesTen e n

def decompressAmount (x : Nat) : Nat := decompressExact x % 2 ^ 64

theorem timesTen_eq (e n : Nat) : timesTen e n = n * 10 ^ e := by
  induction e generalizing n with
  | zero => rw [timesTen, pow_zero, Nat.mul_one]
  | succ e ih => rw [timesTen, ih, pow_succ', Nat.mul_assoc]

/-- The zeros that are stripped, and what is left: no further zero, or all turns were used. -/
theorem stripZeros_spec (turns : Nat) {n : Nat} (hn : n ≠ 0) (e : Nat) :
    ∃ k, (stripZeros turns e n).2 = e + k ∧ (stripZeros turns e n).1 * 10 ^ k = n ∧
      (k < turns ∧ (stripZeros turns e n).1 % 10 ≠ 0 ∨ k = turns) := by
  induction turns generalizing n e with
  | zero => exact ⟨0, rfl, Nat.mul_one n, .inr rfl⟩
  | succ turns ih =>
      rw [stripZeros]
      split_ifs with hzero
      · obtain ⟨k, hexp, hval, hstop⟩ := ih (show n / 10 ≠ 0 by omega) (e + 1)
        refine ⟨k + 1, by omega, ?_, hstop.imp (fun h => ⟨by omega, h.2⟩) (by omega)⟩
        rw [pow_succ, ← Nat.mul_assoc, hval]
        omega
      · exact ⟨0, rfl, Nat.mul_one n, .inl ⟨Nat.succ_pos turns, hzero⟩⟩

/-- **The exact functions are inverse** on all numbers. -/
theorem decompressExact_compressExact (n : Nat) : decompressExact (compressExact n) = n := by
  by_cases hn : n = 0
  · subst hn
    rfl
  obtain ⟨k, hexp, hval, hstop⟩ := stripZeros_spec 9 hn 0
  rw [compressExact, if_neg hn]
  generalize hstrip : stripZeros 9 0 n = stripped at hexp hval hstop
  obtain ⟨m, e⟩ := stripped
  obtain rfl : e = k := hexp.trans (Nat.zero_add k)
  dsimp only at hval hstop ⊢
  rcases hstop with ⟨hlt, hdigit⟩ | rfl
  · -- the last digit is not zero
    rw [if_pos hlt, decompressExact, if_neg (by omega)]
    dsimp only
    rw [show (1 + (m / 10 * 9 + m % 10 - 1) * 10 + e - 1) % 10 = e by omega,
      show (1 + (m / 10 * 9 + m % 10 - 1) * 10 + e - 1) / 10 = m / 10 * 9 + (m % 10 - 1) by omega, if_pos hlt,
      show (m / 10 * 9 + (m % 10 - 1)) / 9 * 10 + ((m / 10 * 9 + (m % 10 - 1)) % 9 + 1) = m by omega, timesTen_eq, hval]
  · have hm : m ≠ 0 := by
      rintro rfl
      omega
    rw [if_neg (by omega), decompressExact, if_neg (by omega)]
    dsimp only
    rw [show (1 + (m - 1) * 10 + 9 - 1) % 10 = 9 by omega, show (1 + (m - 1) * 10 + 9 - 1) / 10 = m - 1 by omega,
      if_neg (by omega), Nat.sub_add_cancel (by omega), timesTen_eq, hval]

theorem compressExact_le (n : Nat) : compressExact n ≤ 9 * n + 10 := by
  by_cases hn : n = 0
  · subst hn
    exact Nat.zero_le _
  obtain ⟨k, hexp, hval, hstop⟩ := stripZeros_spec 9 hn 0
  rw [compressExact, if_neg hn]
  generalize hstrip : stripZeros 9 0 n = stripped at hexp hval hstop
  obtain ⟨m, e⟩ := stripped
  dsimp only at hexp hval hstop ⊢
  have hle : m ≤ n := hval ▸ Nat.le_mul_of_pos_right m (Nat.pow_pos (by decide))
  split_ifs with he
  · omega
  · -- nine zeros were stripped
    have hk : k = 9 := by omega
    subst hk
    omega

/-! ## Scripts -/

/-- `CPubKey::IsFullyValid` and `CPubKey::Decompress`. -/
structure Curve where
  isFullyValid : List UInt8 → Bool
  decompress : List UInt8 → Option (List UInt8)

variable (curve : Curve)

def isToKeyID (script : CScript) : Option (List UInt8) :=
  if script.length = 25 ∧ script.at 0 = OP_DUP ∧ script.at 1 = OP_HASH160 ∧ script.at 2 = 20 ∧
      script.at 23 = OP_EQUALVERIFY ∧ script.at 24 = OP_CHECKSIG then
    some (slice script 3 23)
  else none

def isToScriptID (script : CScript) : Option (List UInt8) :=
  if script.length = 23 ∧ script.at 0 = OP_HASH160 ∧ script.at 1 = 20 ∧ script.at 22 = OP_EQUAL then
    some (slice script 2 22)
  else none

def isToPubKey (script : CScript) : Option (List UInt8) :=
  if script.length = 35 ∧ script.at 0 = 33 ∧ script.at 34 = OP_CHECKSIG ∧ (script.at 1 = 0x02 ∨ script.at 1 = 0x03) then
    some (slice script 1 34)
  else if script.length = 67 ∧ script.at 0 = 65 ∧ script.at 66 = OP_CHECKSIG ∧ script.at 1 = 0x04 then
    let pubkey := slice script 1 66
    if curve.isFullyValid pubkey then some pubkey else none
  else none

/-- `CScriptCompressor::Compress`; `none` is `false`. -/
def compress (script : CScript) : Option (List UInt8) :=
  match isToKeyID script with
  | some keyID => some (0x00 :: keyID)
  | none =>
      match isToScriptID script with
      | some scriptID => some (0x01 :: scriptID)
      | none =>
          match isToPubKey curve script with
          | none => none
          | some pubkey =>
              let first := pubkey.getD 0 0
              let rest := (pubkey.drop 1).take 32
              if first = 0x02 ∨ first = 0x03 then some (first :: rest)
              else if first = 0x04 then some ((0x04 ||| (pubkey.getD 64 0 &&& 0x01)) :: rest)
              else none

def nSpecialScripts : Nat := 6

def getSpecialSize (nSize : Nat) : Nat :=
  if nSize = 0 ∨ nSize = 1 then 20
  else if nSize = 2 ∨ nSize = 3 ∨ nSize = 4 ∨ nSize = 5 then 32
  else 0

/-- `CScriptCompressor::Decompress`; `none` is `false`. -/
def decompress (nSize : Nat) (vch : List UInt8) : Option CScript :=
  if nSize = 0x00 then some ([OP_DUP, OP_HASH160, 20] ++ vch ++ [OP_EQUALVERIFY, OP_CHECKSIG])
  else if nSize = 0x01 then some ([OP_HASH160, 20] ++ vch ++ [OP_EQUAL])
  else if nSize = 0x02 ∨ nSize = 0x03 then some ([33, nSize.toUInt8] ++ vch ++ [OP_CHECKSIG])
  else if nSize = 0x04 ∨ nSize = 0x05 then
    (curve.decompress ((nSize - 2).toUInt8 :: vch)).map fun pubkey => [65] ++ pubkey ++ [OP_CHECKSIG]
  else none

def serializeScript (script : CScript) : List UInt8 :=
  match compress curve script with
  | some compr => compr
  | none => writeVarInt ((script.length + nSpecialScripts) % 2 ^ 32) ++ script

/-- `CScriptCompressor::Unserialize` into a script, which is kept where `Decompress` fails. -/
def unserializeScript (script : CScript) : Reader CScript := do
  let nSize ← readVarInt 0xffffffff
  if nSize < nSpecialScripts then
    let vch ← readBytes (getSpecialSize nSize)
    return (decompress curve nSize vch).getD script
  else
    let nSize := nSize - nSpecialScripts
    if MAX_SCRIPT_SIZE < nSize then
      -- an overly long script is replaced by a short invalid one
      let _ ← readBytes nSize
      return script.op OP_RETURN
    else readBytes nSize

/-! ## What is written is read back -/

/-- Decompression inverts compression on fully valid keys: the sign of the second coordinate is its lowest bit. -/
def Curve.Inverts : Prop :=
  ∀ pubkey : List UInt8, pubkey.length = 65 → pubkey.getD 0 0 = 0x04 → curve.isFullyValid pubkey = true →
    curve.decompress ((0x02 ||| (pubkey.getD 64 0 &&& 0x01)) :: (pubkey.drop 1).take 32) = some pubkey

/-- Bytes that are known by their places. -/
theorem slice_eq (script : CScript) {first last : Nat} (h : last ≤ script.length) :
    slice script first last = (List.range' first (last - first)).map script.at := by
  refine List.ext_getElem ?_ fun i hi hi' => ?_
  · rw [slice, List.length_take, List.length_drop, List.length_map, List.length_range']
    omega
  · rw [List.length_map, List.length_range'] at hi'
    simp [slice, CScript.at, show first + i < script.length by omega]

/-- A script is its front, its middle and its end. -/
theorem eq_slices (script : CScript) {first last : Nat} (h : first ≤ last) :
    slice script 0 first ++ slice script first last ++ slice script last script.length = script := by
  have hdrop : script.drop last = (script.drop first).drop (last - first) := by
    rw [List.drop_drop, Nat.add_sub_cancel' h]
  have hall : slice script last script.length = script.drop last := by
    rw [slice, List.take_of_length_le (by rw [List.length_drop])]
  rw [hall, hdrop, List.append_assoc, slice, slice, List.take_append_drop, List.drop_zero, Nat.sub_zero,
    List.take_append_drop]

theorem length_slice (script : CScript) {first last : Nat} (h : last ≤ script.length) :
    (slice script first last).length = last - first := by
  rw [slice_eq script h, List.length_map, List.length_range']

variable {curve}

/-- The special forms: a byte below six and as many bytes as belong to it. -/
theorem unserializeScript_special {nSize : UInt8} (hsize : nSize.toNat < nSpecialScripts) {vch : List UInt8}
    (hlen : vch.length = getSpecialSize nSize.toNat) (script : CScript) (rest : List UInt8) :
    unserializeScript curve script (nSize :: (vch ++ rest)) =
      some ((decompress curve nSize.toNat vch).getD script, rest) := by
  have hread : readVarInt 0xffffffff (nSize :: (vch ++ rest)) = some (nSize.toNat, vch ++ rest) := by
    rw [nSpecialScripts] at hsize
    rw [readVarInt, readVarIntFrom, if_neg (Nat.not_lt_zero _)]
    dsimp only
    rw [if_neg (by omega), Nat.zero_mul, Nat.zero_add, Nat.mod_eq_of_lt (by omega)]
  have hbytes : readBytes (getSpecialSize nSize.toNat) (vch ++ rest) = some (vch, rest) :=
    readBytes_append hlen rest
  simp only [unserializeScript, bind, StateT.bind, hread, if_pos hsize, hbytes, Option.bind_some]
  rfl

/-- Every other script. -/
theorem unserializeScript_plain {written : CScript} (hlen : written.length ≤ MAX_SCRIPT_SIZE) (script : CScript)
    (rest : List UInt8) :
    unserializeScript curve script (writeVarInt ((written.length + nSpecialScripts) % 2 ^ 32) ++ written ++ rest) =
      some (written, rest) := by
  rw [MAX_SCRIPT_SIZE] at hlen
  have hsmall : (written.length + nSpecialScripts) % 2 ^ 32 = written.length + nSpecialScripts := by
    rw [nSpecialScripts]
    omega
  have hread : readVarInt 0xffffffff (writeVarInt (written.length + nSpecialScripts) ++ (written ++ rest)) =
      some (written.length + nSpecialScripts, written ++ rest) :=
    readVarInt_writeVarInt (by rw [nSpecialScripts]; omega) _
  rw [hsmall, List.append_assoc]
  simp only [unserializeScript, bind, StateT.bind, hread, Option.bind_some, Nat.add_sub_cancel]
  rw [if_neg (by omega), if_neg (by rw [MAX_SCRIPT_SIZE]; omega)]
  exact readBytes_append rfl rest

/-- A script with known bytes before and after a slice. -/
theorem frame_slice {script : CScript} {first last : Nat} (hle : first ≤ last) (hlast : last ≤ script.length)
    {lead trail : List UInt8} (hlead : (List.range' 0 first).map script.at = lead)
    (htrail : (List.range' last (script.length - last)).map script.at = trail) :
    (slice script first last).length = last - first ∧ lead ++ slice script first last ++ trail = script := by
  have hparts := eq_slices script hle
  rw [slice_eq script (hle.trans hlast), slice_eq script le_rfl, Nat.sub_zero, hlead, htrail] at hparts
  exact ⟨length_slice script hlast, hparts⟩

theorem isToKeyID_eq {script : CScript} {keyID : List UInt8} (h : isToKeyID script = some keyID) :
    keyID.length = 20 ∧ [OP_DUP, OP_HASH160, 20] ++ keyID ++ [OP_EQUALVERIFY, OP_CHECKSIG] = script := by
  rw [isToKeyID] at h
  split_ifs at h with hform
  obtain ⟨hlen, h0, h1, h2, h23, h24⟩ := hform
  obtain rfl := Option.some.inj h
  refine frame_slice (by decide) (by omega) ?_ ?_
  · rw [← h0, ← h1, ← h2]
    rfl
  · rw [hlen, ← h23, ← h24]
    rfl

theorem isToScriptID_eq {script : CScript} {scriptID : List UInt8} (h : isToScriptID script = some scriptID) :
    scriptID.length = 20 ∧ [OP_HASH160, 20] ++ scriptID ++ [OP_EQUAL] = script := by
  rw [isToScriptID] at h
  split_ifs at h with hform
  obtain ⟨hlen, h0, h1, h22⟩ := hform
  obtain rfl := Option.some.inj h
  refine frame_slice (by decide) (by omega) ?_ ?_
  · rw [← h0, ← h1]
    rfl
  · rw [hlen, ← h22]
    rfl

/-- A script of one byte, a key and `OP_CHECKSIG`. -/
theorem slice_pubkey {script : CScript} {size : Nat} {first : UInt8} (hlen : script.length = size + 2)
    (h0 : script.at 0 = first) (hlast : script.at (size + 1) = OP_CHECKSIG) :
    (slice script 1 (size + 1)).length = size ∧ [first] ++ slice script 1 (size + 1) ++ [OP_CHECKSIG] = script := by
  refine frame_slice (by omega) (by omega) ?_ ?_
  · rw [← h0]
    rfl
  · rw [hlen, ← hlast, show size + 2 - (size + 1) = 1 by omega]
    rfl

theorem isToPubKey_eq {script : CScript} {pubkey : List UInt8} (h : isToPubKey curve script = some pubkey) :
    (pubkey.length = 33 ∧ (pubkey.getD 0 0 = 0x02 ∨ pubkey.getD 0 0 = 0x03) ∧ [33] ++ pubkey ++ [OP_CHECKSIG] =
        script) ∨
      (pubkey.length = 65 ∧ pubkey.getD 0 0 = 0x04 ∧ curve.isFullyValid pubkey = true ∧
        [65] ++ pubkey ++ [OP_CHECKSIG] = script) := by
  have hfirst : ∀ last, 1 < last → last ≤ script.length → (slice script 1 last).getD 0 0 = script.at 1 := by
    intro last hlast hlen
    rw [slice_eq script hlen, show last - 1 = last - 2 + 1 by omega, List.range'_succ]
    rfl
  rw [isToPubKey] at h
  dsimp only at h
  split_ifs at h with hshort hlong hvalid
  · obtain ⟨hlen, h0, hlast, h1⟩ := hshort
    obtain rfl := Option.some.inj h
    obtain ⟨hkey, hscript⟩ := slice_pubkey hlen h0 hlast
    exact .inl ⟨hkey, by rwa [hfirst 34 (by decide) (by omega)], hscript⟩
  · obtain ⟨hlen, h0, hlast, h1⟩ := hlong
    obtain rfl := Option.some.inj h
    obtain ⟨hkey, hscript⟩ := slice_pubkey hlen h0 hlast
    exact .inr ⟨hkey, by rwa [hfirst 66 (by decide) (by omega)], hvalid, hscript⟩

/-- The two special forms of a long key, by its sign. -/
theorem sign_cases (y : UInt8) :
    (0x04 ||| (y &&& 0x01) : UInt8).toNat = 0x04 ∧ (0x02 ||| (y &&& 0x01) : UInt8) = 0x02 ∨
      (0x04 ||| (y &&& 0x01) : UInt8).toNat = 0x05 ∧ (0x02 ||| (y &&& 0x01) : UInt8) = 0x03 := by
  have hbit : y &&& 0x01 = 0 ∨ y &&& 0x01 = 1 := by
    have hmod : (y &&& 0x01).toNat = y.toNat % 2 := by rw [UInt8.toNat_and]; exact Nat.and_one_is_mod _
    rcases Nat.mod_two_eq_zero_or_one y.toNat with h | h
    · exact .inl (UInt8.toNat_inj.mp (hmod.trans h))
    · exact .inr (UInt8.toNat_inj.mp (hmod.trans h))
  rcases hbit with h | h
  · rw [h]
    exact .inl ⟨rfl, rfl⟩
  · rw [h]
    exact .inr ⟨rfl, rfl⟩

/-- A special form that leads back to a script. -/
def LeadsBack (curve : Curve) (script : CScript) (compr : List UInt8) : Prop :=
  ∃ (nSize : UInt8) (vch : List UInt8), compr = nSize :: vch ∧ nSize.toNat < nSpecialScripts ∧
    vch.length = getSpecialSize nSize.toNat ∧ decompress curve nSize.toNat vch = some script

theorem leadsBack_shortKey {first : UInt8} (hfirst : first = 0x02 ∨ first = 0x03) {rest : List UInt8}
    (hrest : rest.length = 32) :
    LeadsBack curve ([33] ++ (first :: rest) ++ [OP_CHECKSIG]) (first :: rest) := by
  refine ⟨first, rest, rfl, ?_⟩
  rcases hfirst with rfl | rfl
  · exact ⟨by decide, hrest, rfl⟩
  · exact ⟨by decide, hrest, rfl⟩

theorem leadsBack_longKey (hcurve : curve.Inverts) {pubkey : List UInt8} (hlen : pubkey.length = 65)
    (hfirst : pubkey.getD 0 0 = 0x04) (hvalid : curve.isFullyValid pubkey = true) :
    LeadsBack curve ([65] ++ pubkey ++ [OP_CHECKSIG])
      ((0x04 ||| (pubkey.getD 64 0 &&& 0x01)) :: (pubkey.drop 1).take 32) := by
  have hinv := hcurve pubkey hlen hfirst hvalid
  have hrest : ((pubkey.drop 1).take 32).length = 32 := by
    rw [List.length_take, List.length_drop]
    omega
  refine ⟨_, _, rfl, ?_⟩
  rcases sign_cases (pubkey.getD 64 0) with ⟨hsize, hsign⟩ | ⟨hsize, hsign⟩
  · rw [hsign] at hinv
    rw [hsize]
    exact ⟨by decide, hrest, congrArg (Option.map _) hinv⟩
  · rw [hsign] at hinv
    rw [hsize]
    exact ⟨by decide, hrest, congrArg (Option.map _) hinv⟩

/-- Every special form leads back to its script. -/
theorem leadsBack_compress (hcurve : curve.Inverts) {script : CScript} {compr : List UInt8}
    (h : compress curve script = some compr) : LeadsBack curve script compr := by
  rw [compress] at h
  cases hkey : isToKeyID script with
  | some keyID =>
      rw [hkey] at h
      obtain rfl := Option.some.inj h
      obtain ⟨hlen, hscript⟩ := isToKeyID_eq hkey
      exact ⟨0x00, keyID, rfl, by decide, hlen, congrArg some hscript⟩
  | none =>
  cases hid : isToScriptID script with
  | some scriptID =>
      rw [hkey, hid] at h
      obtain rfl := Option.some.inj h
      obtain ⟨hlen, hscript⟩ := isToScriptID_eq hid
      exact ⟨0x01, scriptID, rfl, by decide, hlen, congrArg some hscript⟩
  | none =>
  cases hpub : isToPubKey curve script with
  | none =>
      rw [hkey, hid, hpub] at h
      exact nomatch h
  | some pubkey =>
      rw [hkey, hid, hpub] at h
      dsimp only at h
      rcases isToPubKey_eq hpub with ⟨hlen, hfirst, rfl⟩ | ⟨hlen, hfirst, hvalid, rfl⟩
      · -- the first byte of the key is its special form
        rw [if_pos hfirst] at h
        obtain rfl := Option.some.inj h
        obtain ⟨first, rest, rfl⟩ := List.exists_cons_of_length_eq_add_one hlen
        have hrest : rest.length = 32 := Nat.succ.inj hlen
        rw [List.drop_one, List.tail_cons, List.take_of_length_le hrest.le]
        exact leadsBack_shortKey hfirst hrest
      · have hnot : ¬ (pubkey.getD 0 0 = 0x02 ∨ pubkey.getD 0 0 = 0x03) := by
          rw [hfirst]
          decide
        rw [if_neg hnot, if_pos hfirst] at h
        obtain rfl := Option.some.inj h
        exact leadsBack_longKey hcurve hlen hfirst hvalid

/-- **Scripts are read back**, over whatever script was there and with any bytes behind. -/
theorem unserializeScript_serializeScript (hcurve : curve.Inverts) {written : CScript}
    (hlen : written.length ≤ MAX_SCRIPT_SIZE) (script : CScript) (rest : List UInt8) :
    unserializeScript curve script (serializeScript curve written ++ rest) = some (written, rest) := by
  rw [serializeScript]
  cases hcompr : compress curve written with
  | none => exact unserializeScript_plain hlen script rest
  | some compr =>
      obtain ⟨nSize, vch, rfl, hsize, hvch, hback⟩ := leadsBack_compress hcurve hcompr
      show unserializeScript curve script (nSize :: (vch ++ rest)) = _
      rw [unserializeScript_special hsize hvch, hback]
      rfl

theorem maxMoney_eq : MAX_MONEY.toInt.toNat = 20060937500000000 := by decide

theorem compressAmount_eq {n : Nat} (hn : n ≤ MAX_MONEY.toInt.toNat) : compressAmount n = compressExact n := by
  have hle := compressExact_le n
  rw [maxMoney_eq] at hn
  exact Nat.mod_eq_of_lt (by omega)

theorem decompressAmount_compressAmount {n : Nat} (hn : n ≤ MAX_MONEY.toInt.toNat) :
    decompressAmount (compressAmount n) = n := by
  rw [compressAmount_eq hn, decompressAmount, decompressExact_compressExact]
  rw [maxMoney_eq] at hn
  exact Nat.mod_eq_of_lt (by omega)

/-- **Coin compression is lossless**: for amounts in range both functions compute what exact arithmetic gives, the
second undoes the first, no two amounts have one compressed form, and every script up to the largest size is read
back. -/
theorem coin_compression_lossless (curve : Curve) (hcurve : curve.Inverts) :
    (∀ n : Nat, n ≤ MAX_MONEY.toInt.toNat → compressAmount n = compressExact n ∧
      decompressAmount (compressAmount n) = decompressExact (compressAmount n) ∧
      decompressAmount (compressAmount n) = n) ∧
    (∀ n m : Nat, n ≤ MAX_MONEY.toInt.toNat → m ≤ MAX_MONEY.toInt.toNat → compressAmount n = compressAmount m → n = m) ∧
    ∀ written : CScript, written.length ≤ MAX_SCRIPT_SIZE → ∀ (script : CScript) (rest : List UInt8),
      unserializeScript curve script (serializeScript curve written ++ rest) = some (written, rest) := by
  refine ⟨fun n hn => ?_, fun n m hn hm h => ?_, fun written hlen => unserializeScript_serializeScript hcurve hlen⟩
  · have hback := decompressAmount_compressAmount hn
    refine ⟨compressAmount_eq hn, ?_, hback⟩
    rw [hback, compressAmount_eq hn, decompressExact_compressExact]
  · rw [← decompressAmount_compressAmount hn, h, decompressAmount_compressAmount hm]

/-! The curve of secp256k1, of which the generator and its inverse are known. -/

def fieldSize : Nat := 2 ^ 256 - 2 ^ 32 - 977

def generatorX : Nat := 0x79BE667EF9DCBBAC55A06295CE870B07029BFCDB2DCE28D959F2815B16F81798

def generatorY : Nat := 0x483ADA7726A3C4655DA4FBFC0E1108A8FD17B448A68554199C47D08FFB10D4B8

example : generatorY ^ 2 % fieldSize = (generatorX ^ 3 + 7) % fieldSize := by decide

/-- The uncompressed key of the point above `generatorX` with second coordinate `y`. -/
def generatorKey (y : Nat) : List UInt8 := 0x04 :: ((leBytes 32 generatorX).reverse ++ (leBytes 32 y).reverse)

def sampleCurve : Curve where
  isFullyValid pubkey := pubkey = generatorKey generatorY ∨ pubkey = generatorKey (fieldSize - generatorY)
  decompress vch :=
    if vch = 0x02 :: (leBytes 32 generatorX).reverse then some (generatorKey generatorY)
    else if vch = 0x03 :: (leBytes 32 generatorX).reverse then some (generatorKey (fieldSize - generatorY))
    else none

theorem sampleCurve_inverts : sampleCurve.Inverts := by
  intro pubkey _ _ hvalid
  rcases of_decide_eq_true hvalid with rfl | rfl
  · decide
  · decide

theorem coin_compression_lossless_sample :
    serializeScript sampleCurve ([65] ++ generatorKey generatorY ++ [OP_CHECKSIG]) =
        0x04 :: (leBytes 32 generatorX).reverse ∧
      unserializeScript sampleCurve []
          (serializeScript sampleCurve ([65] ++ generatorKey generatorY ++ [OP_CHECKSIG]) ++ []) =
        some ([65] ++ generatorKey generatorY ++ [OP_CHECKSIG], []) :=
  ⟨by decide, (coin_compression_lossless sampleCurve sampleCurve_inverts).2.2
    ([65] ++ generatorKey generatorY ++ [OP_CHECKSIG]) (by decide) [] []⟩

end RavenCash.Compressor
