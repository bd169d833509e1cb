import RavenCash.Basic.Decimal
import RavenCash.Basic.MainnetCodec
import RavenCash.Lib.StdMap

/-!
# The spork cache after a restart

The sporks come back from a file, signed by the keys that were configured when it was written.
`CSporkManager::CheckAndRemove` walks the active sporks, signer by signer, and erases while it walks; then
it goes over the sporks by hash. Two things are in its way. Where the signer is not configured any more it
goes on without having advanced, so the walk never ends. And it takes the sporks it erases also out of the
map by hash, where they may be good under another key.

Recovering the key of a signature is given; a signature is good for a key if that is the key recovered.
The maps are walked in the order of their entries, whatever it is.
-/

set_option autoImplicit false

namespace RavenCash.Spork

abbrev SporkId := Int32
abbrev CKeyID := List UInt8

/-- `CPubKey::RecoverCompact` and the id of the key. -/
class KeyRecovery where
  recoverCompact : UInt256 → List UInt8 → Option CKeyID

structure CSporkMessage where
  nSporkID : SporkId
  nValue : Int64
  nTimeSigned : Int64
  vchSig : List UInt8
deriving DecidableEq

def strMessageMagic : StdString := bytes "RavenCash Signed Message:\n"

section

variable [NodeCrypto] [KeyRecovery]

/-! ## Signatures -/

def verifyHash (hash : UInt256) (keyID : CKeyID) (vchSig : List UInt8) : Bool :=
  KeyRecovery.recoverCompact hash vchSig == some keyID

def verifyMessage (keyID : CKeyID) (vchSig : List UInt8) (strMessage : StdString) : Bool :=
  verifyHash (NodeCrypto.hash (serializeString strMessageMagic ++ serializeString strMessage)) keyID vchSig

namespace CSporkMessage

def signedBytes (spork : CSporkMessage) : List UInt8 :=
  serializeUInt32 spork.nSporkID.toUInt32 ++ serializeInt64 spork.nValue ++ serializeInt64 spork.nTimeSigned

def getHash (spork : CSporkMessage) : UInt256 :=
  NodeCrypto.hash (spork.signedBytes ++ serializeString spork.vchSig)

def getSignatureHash (spork : CSporkMessage) : UInt256 := NodeCrypto.hash spork.signedBytes

/-- The old format is the text of the three numbers; where it fails, the new one may do. -/
def checkSignature (spork : CSporkMessage) (pubKeyId : CKeyID) (fSporkSixActive : Bool) : Bool :=
  if fSporkSixActive then verifyHash spork.getSignatureHash pubKeyId spork.vchSig
  else
    let strMessage := toStdString spork.nSporkID.toInt ++ toStdString spork.nValue.toInt ++
      toStdString spork.nTimeSigned.toInt
    verifyMessage pubKeyId spork.vchSig strMessage || verifyHash spork.getSignatureHash pubKeyId spork.vchSig

/-- In either format. -/
def verifies (spork : CSporkMessage) (key : CKeyID) : Bool :=
  spork.checkSignature key false || spork.checkSignature key true

end CSporkMessage

/-! ## The clean-up -/

abbrev ByHash := StdMap UInt256 CSporkMessage
abbrev Signers := StdMap CKeyID CSporkMessage

structure CSporkManager where
  mapSporksByHash : ByHash := ∅
  mapSporksActive : StdMap SporkId Signers := ∅
  setSporkPubKeyIDs : List CKeyID := []

/-- The inner loop, with the iterator as the entries from it on; `none` when the fuel is used up. -/
def sweepSigners (keys : List CKeyID) :
    Nat → List (Sigma fun _ : CKeyID => CSporkMessage) → Signers × ByHash → Option (Signers × ByHash)
  | 0, _, _ => none
  | _ + 1, [], s => some s
  | fuel + 1, ⟨signer, spork⟩ :: rest, (signers, byHash) =>
    if signer ∉ keys then
      -- the iterator stays where it is
      sweepSigners keys fuel (⟨signer, spork⟩ :: rest) (signers, byHash.erase spork.getHash)
    else if !spork.checkSignature signer false && !spork.checkSignature signer true then
      sweepSigners keys fuel rest (signers.erase signer, byHash.erase spork.getHash)
    else sweepSigners keys fuel rest (signers, byHash)

/-- The outer loop. -/
def sweepActive (keys : List CKeyID) :
    Nat → List (Sigma fun _ : SporkId => Signers) → StdMap SporkId Signers × ByHash →
      Option (StdMap SporkId Signers × ByHash)
  | 0, _, _ => none
  | _ + 1, [], s => some s
  | fuel + 1, ⟨sporkId, signers⟩ :: rest, (active, byHash) =>
    match sweepSigners keys fuel signers.entries (signers, byHash) with
    | none => none
    | some (signers', byHash') =>
      if signers'.entries.isEmpty then sweepActive keys fuel rest (active.erase sporkId, byHash')
      else sweepActive keys fuel rest (active.insert sporkId signers', byHash')

/-- The last loop. -/
def removeUnverified (keys : List CKeyID) (byHash : ByHash) : ByHash :=
  byHash.foldl (fun m hash spork => if keys.any spork.verifies then m else m.erase hash) byHash

/-- `none` for a failed assertion or a run that is not over. -/
def checkAndRemove (fuel : Nat) (m : CSporkManager) : Option CSporkManager :=
  if m.setSporkPubKeyIDs.isEmpty then none
  else
    (sweepActive m.setSporkPubKeyIDs fuel m.mapSporksActive.entries (m.mapSporksActive, m.mapSporksByHash)).map
      fun s =>
        { m with
          mapSporksActive := s.1
          mapSporksByHash := removeUnverified m.setSporkPubKeyIDs s.2 }

/-! ## What the loops leave -/

/-- One round of the inner loop for a configured signer. -/
def sweepSigner (s : Signers × ByHash) (e : Sigma fun _ : CKeyID => CSporkMessage) : Signers × ByHash :=
  if e.2.verifies e.1 then s else (s.1.erase e.1, s.2.erase e.2.getHash)

/-- One round of the outer loop. -/
def sweepSpork (s : StdMap SporkId Signers × ByHash) (e : Sigma fun _ : SporkId => Signers) :
    StdMap SporkId Signers × ByHash :=
  let r := e.2.entries.foldl sweepSigner (e.2, s.2)
  (if r.1.entries.isEmpty then s.1.erase e.1 else s.1.insert e.1 r.1, r.2)

theorem sweepSigners_succ_cons (keys : List CKeyID) (fuel : Nat) (e : Sigma fun _ : CKeyID => CSporkMessage)
    (rest : List (Sigma fun _ : CKeyID => CSporkMessage)) (s : Signers × ByHash) :
    sweepSigners keys (fuel + 1) (e :: rest) s =
      if e.1 ∉ keys then sweepSigners keys fuel (e :: rest) (s.1, s.2.erase e.2.getHash)
      else sweepSigners keys fuel rest (sweepSigner s e) := by
  obtain ⟨signer, spork⟩ := e
  rw [sweepSigners, sweepSigner, CSporkMessage.verifies]
  by_cases hkey : signer ∈ keys
  · cases spork.checkSignature signer false <;> cases spork.checkSignature signer true <;> simp [hkey]
  · simp [hkey]

/-- The inner loop ends only where every signer is configured. -/
theorem of_sweepSigners_eq_some {keys : List CKeyID} {fuel : Nat}
    {it : List (Sigma fun _ : CKeyID => CSporkMessage)} {s r : Signers × ByHash}
    (h : sweepSigners keys fuel it s = some r) :
    (∀ e ∈ it, e.1 ∈ keys) ∧ r = it.foldl sweepSigner s := by
  induction fuel generalizing it s with
  | zero => cases h
  | succ fuel ih =>
    cases it with
    | nil =>
      cases h
      exact ⟨nofun, rfl⟩
    | cons e rest =>
      rw [sweepSigners_succ_cons] at h
      by_cases hkey : e.1 ∈ keys
      · rw [if_neg (not_not.mpr hkey)] at h
        exact ⟨List.forall_mem_cons.mpr ⟨hkey, (ih h).1⟩, (ih h).2⟩
      · rw [if_pos hkey] at h
        exact absurd ((ih h).1 e List.mem_cons_self) hkey

theorem sweepSigners_eq_some {keys : List CKeyID} {it : List (Sigma fun _ : CKeyID => CSporkMessage)}
    (hkeys : ∀ e ∈ it, e.1 ∈ keys) {fuel : Nat} (hfuel : it.length < fuel) (s : Signers × ByHash) :
    sweepSigners keys fuel it s = some (it.foldl sweepSigner s) := by
  induction it generalizing fuel s with
  | nil =>
    cases fuel with
    | zero => cases hfuel
    | succ fuel => rfl
  | cons e rest ih =>
    cases fuel with
    | zero => cases hfuel
    | succ fuel =>
      rw [List.forall_mem_cons] at hkeys
      rw [sweepSigners_succ_cons, if_neg (not_not.mpr hkeys.1), List.foldl_cons]
      exact ih hkeys.2 (Nat.lt_of_succ_lt_succ hfuel) _

theorem sweepActive_succ_cons (keys : List CKeyID) (fuel : Nat) (e : Sigma fun _ : SporkId => Signers)
    (rest : List (Sigma fun _ : SporkId => Signers)) (s : StdMap SporkId Signers × ByHash) :
    sweepActive keys (fuel + 1) (e :: rest) s =
      (sweepSigners keys fuel e.2.entries (e.2, s.2)).bind fun r => sweepActive keys fuel rest
        (if r.1.entries.isEmpty then s.1.erase e.1 else s.1.insert e.1 r.1, r.2) := by
  obtain ⟨sporkId, signers⟩ := e
  rw [sweepActive]
  cases sweepSigners keys fuel signers.entries (signers, s.2) with
  | none => rfl
  | some r =>
    simp only [Option.bind_some]
    split <;> rfl

theorem of_sweepActive_eq_some {keys : List CKeyID} {fuel : Nat}
    {it : List (Sigma fun _ : SporkId => Signers)} {s r : StdMap SporkId Signers × ByHash}
    (h : sweepActive keys fuel it s = some r) :
    (∀ e ∈ it, ∀ e' ∈ e.2.entries, e'.1 ∈ keys) ∧ r = it.foldl sweepSpork s := by
  induction fuel generalizing it s with
  | zero => cases h
  | succ fuel ih =>
    cases it with
    | nil =>
      cases h
      exact ⟨nofun, rfl⟩
    | cons e rest =>
      rw [sweepActive_succ_cons] at h
      obtain ⟨inner, hinner, hrest⟩ := Option.bind_eq_some_iff.mp h
      obtain ⟨hkeys, rfl⟩ := of_sweepSigners_eq_some hinner
      exact ⟨List.forall_mem_cons.mpr ⟨hkeys, (ih hrest).1⟩, (ih hrest).2⟩

theorem sweepActive_eq_some {keys : List CKeyID} {it : List (Sigma fun _ : SporkId => Signers)}
    (hkeys : ∀ e ∈ it, ∀ e' ∈ e.2.entries, e'.1 ∈ keys) {fuel : Nat}
    (hfuel : it.length < fuel) (hinner : ∀ e ∈ it, e.2.entries.length + it.length < fuel)
    (s : StdMap SporkId Signers × ByHash) :
    sweepActive keys fuel it s = some (it.foldl sweepSpork s) := by
  induction it generalizing fuel s with
  | nil =>
    cases fuel with
    | zero => cases hfuel
    | succ fuel => rfl
  | cons e rest ih =>
    cases fuel with
    | zero => cases hfuel
    | succ fuel =>
      rw [List.forall_mem_cons] at hkeys hinner
      rw [List.length_cons] at hfuel hinner
      rw [sweepActive_succ_cons, sweepSigners_eq_some hkeys.1 (by omega), Option.bind_some, List.foldl_cons]
      exact ih hkeys.2 (by omega) (fun e he => by have := hinner.2 e he; omega) _

/-! ## Exactness -/

theorem lookup_sweepSigner (signers : Signers) (byHash : ByHash) (signer : CKeyID) :
    (signers.entries.foldl sweepSigner (signers, byHash)).1.lookup signer =
      (signers.lookup signer).filter fun spork => spork.verifies signer := by
  have h := StdMap.foldl_entries_observe signers.entries signers.nodupKeys
    (fun s k v => sweepSigner s ⟨k, v⟩) (fun s => s.1.lookup signer)
    (fun spork o => if spork.verifies signer then o else none) signer ?_ ?_ (signers, byHash)
  · rw [h]
    show (signers.lookup signer).elim _ _ = _
    cases signers.lookup signer with
    | none => rfl
    | some spork => rfl
  · intro s k v _ hk
    simp only [sweepSigner]
    split
    · rfl
    · exact AList.lookup_erase_ne (Ne.symm hk)
  · intro s v _
    simp only [sweepSigner]
    split
    · rfl
    · exact AList.lookup_erase signer s.1

/-- The hashes of the sporks that are erased with their signers. -/
def erasedHashes (signers : List (Sigma fun _ : CKeyID => CSporkMessage)) : List UInt256 :=
  signers.filterMap fun e => if e.2.verifies e.1 then none else some e.2.getHash

theorem mem_erasedHashes {signers : List (Sigma fun _ : CKeyID => CSporkMessage)} {hash : UInt256} :
    hash ∈ erasedHashes signers ↔ ∃ e ∈ signers, e.2.verifies e.1 = false ∧ e.2.getHash = hash := by
  simp [erasedHashes, List.mem_filterMap]

theorem lookup_byHash_sweepSigner (l : List (Sigma fun _ : CKeyID => CSporkMessage)) (s : Signers × ByHash)
    (hash : UInt256) :
    (l.foldl sweepSigner s).2.lookup hash = if hash ∈ erasedHashes l then none else s.2.lookup hash := by
  induction l generalizing s with
  | nil => rfl
  | cons e l ih =>
    have hcons : hash ∈ erasedHashes (e :: l) ↔
        e.2.verifies e.1 = false ∧ e.2.getHash = hash ∨ hash ∈ erasedHashes l := by
      simp only [mem_erasedHashes, List.mem_cons, exists_eq_or_imp]
    rw [List.foldl_cons, ih, sweepSigner, if_congr hcons rfl rfl]
    cases hv : e.2.verifies e.1 with
    | true => simp
    | false =>
      by_cases hhash : hash = e.2.getHash
      · simp [StdMap.lookup_erase_eq, hhash]
      · simp [hhash, Ne.symm hhash]

theorem lookup_byHash_sweepSpork (l : List (Sigma fun _ : SporkId => Signers))
    (s : StdMap SporkId Signers × ByHash) (hash : UInt256) :
    (l.foldl sweepSpork s).2.lookup hash =
      if hash ∈ l.flatMap fun e => erasedHashes e.2.entries then none else s.2.lookup hash := by
  induction l generalizing s with
  | nil => rfl
  | cons e l ih =>
    rw [List.foldl_cons, ih, sweepSpork, lookup_byHash_sweepSigner, List.flatMap_cons]
    by_cases hrest : hash ∈ l.flatMap fun e => erasedHashes e.2.entries <;>
      by_cases he : hash ∈ erasedHashes e.2.entries <;> simp [hrest, he]

/-- The signers whose signatures are good. -/
def keptSigners (signers : Signers) : Signers := (signers.entries.foldl sweepSigner (signers, ∅)).1

theorem fst_foldl_sweepSigner (l : List (Sigma fun _ : CKeyID => CSporkMessage)) (signers : Signers)
    (byHash byHash' : ByHash) :
    (l.foldl sweepSigner (signers, byHash)).1 = (l.foldl sweepSigner (signers, byHash')).1 := by
  induction l generalizing signers byHash byHash' with
  | nil => rfl
  | cons e l ih =>
    simp only [List.foldl_cons, sweepSigner]
    split
    · exact ih signers byHash byHash'
    · exact ih _ _ _

theorem lookup_sweepSpork (active : StdMap SporkId Signers) (byHash : ByHash) (sporkId : SporkId) :
    (active.entries.foldl sweepSpork (active, byHash)).1.lookup sporkId =
      ((active.lookup sporkId).map keptSigners).filter fun signers => !signers.entries.isEmpty := by
  have h := StdMap.foldl_entries_observe active.entries active.nodupKeys
    (fun s k v => sweepSpork s ⟨k, v⟩) (fun s => s.1.lookup sporkId)
    (fun signers _ => if (keptSigners signers).entries.isEmpty then none else some (keptSigners signers))
    sporkId ?_ ?_ (active, byHash)
  · rw [h]
    show (active.lookup sporkId).elim (active.lookup sporkId) _ = _
    cases active.lookup sporkId with
    | none => rfl
    | some signers =>
      rw [Option.map_some, Option.filter_some, Option.elim_some]
      cases (keptSigners signers).entries.isEmpty <;> rfl
  · intro s k v _ hk
    simp only [sweepSpork]
    split
    · exact AList.lookup_erase_ne (Ne.symm hk)
    · exact AList.lookup_insert_ne (Ne.symm hk)
  · intro s v _
    simp only [sweepSpork, fst_foldl_sweepSigner _ _ s.2 ∅]
    rw [← keptSigners]
    split
    · exact AList.lookup_erase sporkId s.1
    · exact AList.lookup_insert s.1

theorem lookup_removeUnverified (keys : List CKeyID) (byHash : ByHash) (hash : UInt256) :
    (removeUnverified keys byHash).lookup hash =
      (byHash.lookup hash).filter fun spork => keys.any spork.verifies := by
  rw [removeUnverified, StdMap.foldl_observe byHash _ (fun m => m.lookup hash)
    (fun spork o => if keys.any spork.verifies then o else none) hash ?_ ?_ byHash]
  · cases byHash.lookup hash with
    | none => rfl
    | some spork => rfl
  · intro m k v _ hk
    split
    · rfl
    · exact AList.lookup_erase_ne (Ne.symm hk)
  · intro m v _
    split
    · rfl
    · exact AList.lookup_erase hash m

/-- The active spork of a signer. -/
def CSporkManager.active (m : CSporkManager) (sporkId : SporkId) (signer : CKeyID) : Option CSporkMessage :=
  (m.mapSporksActive.lookup sporkId).bind fun signers => signers.lookup signer

/-- What the clean-up is for. -/
structure Cleaned (m m' : CSporkManager) : Prop where
  active : ∀ sporkId signer spork, m'.active sporkId signer = some spork ↔
    m.active sporkId signer = some spork ∧ signer ∈ m.setSporkPubKeyIDs ∧ spork.verifies signer = true
  nonempty : ∀ sporkId signers, m'.mapSporksActive.lookup sporkId = some signers → signers.entries ≠ []
  byHash : ∀ hash spork, m'.mapSporksByHash.lookup hash = some spork ↔
    m.mapSporksByHash.lookup hash = some spork ∧ ∃ key ∈ m.setSporkPubKeyIDs, spork.verifies key = true

/-- Every signer of an active spork is configured. -/
def SignersConfigured (m : CSporkManager) : Prop :=
  ∀ sporkId signer spork, m.active sporkId signer = some spork → signer ∈ m.setSporkPubKeyIDs

/-- What has the hash of a spork that is not good under its signer is good under no configured key. -/
def NoneLost (m : CSporkManager) : Prop :=
  ∀ sporkId signer spork, m.active sporkId signer = some spork → spork.verifies signer = false →
    ∀ stored, m.mapSporksByHash.lookup spork.getHash = some stored →
      ∀ key ∈ m.setSporkPubKeyIDs, stored.verifies key = false

omit [NodeCrypto] [KeyRecovery] in
theorem active_eq_some_iff {m : CSporkManager} {sporkId : SporkId} {signer : CKeyID} {spork : CSporkMessage} :
    m.active sporkId signer = some spork ↔
      ∃ e ∈ m.mapSporksActive.entries, ∃ e' ∈ e.2.entries, e.1 = sporkId ∧ e' = ⟨signer, spork⟩ := by
  rw [CSporkManager.active, Option.bind_eq_some_iff]
  constructor
  · rintro ⟨signers, hsigners, hspork⟩
    exact ⟨⟨sporkId, signers⟩, AList.mem_lookup_iff.mp hsigners, ⟨signer, spork⟩,
      AList.mem_lookup_iff.mp hspork, rfl, rfl⟩
  · rintro ⟨⟨sporkId', signers⟩, he, e', he', rfl, rfl⟩
    exact ⟨signers, AList.mem_lookup_iff.mpr he, AList.mem_lookup_iff.mpr he'⟩

omit [NodeCrypto] [KeyRecovery] in
theorem signersConfigured_iff {m : CSporkManager} : SignersConfigured m ↔
    ∀ e ∈ m.mapSporksActive.entries, ∀ e' ∈ e.2.entries, e'.1 ∈ m.setSporkPubKeyIDs := by
  constructor
  · intro h e he e' he'
    exact h e.1 e'.1 e'.2 (active_eq_some_iff.mpr ⟨e, he, e', he', rfl, rfl⟩)
  · intro h sporkId signer spork hactive
    obtain ⟨e, he, e', he', -, rfl⟩ := active_eq_some_iff.mp hactive
    exact h e he _ he'

/-- The state after the loops, if they end. -/
def swept (m : CSporkManager) : CSporkManager :=
  let s := m.mapSporksActive.entries.foldl sweepSpork (m.mapSporksActive, m.mapSporksByHash)
  { m with
    mapSporksActive := s.1
    mapSporksByHash := removeUnverified m.setSporkPubKeyIDs s.2 }

/-- **The clean-up ends** if and only if every signer is configured, and then with `swept`. -/
theorem checkAndRemove_iff {m m' : CSporkManager} :
    (∃ fuel, checkAndRemove fuel m = some m') ↔
      m.setSporkPubKeyIDs ≠ [] ∧ SignersConfigured m ∧ m' = swept m := by
  rw [signersConfigured_iff]
  constructor
  · rintro ⟨fuel, h⟩
    rw [checkAndRemove] at h
    split at h
    · cases h
    · next hkeys =>
      obtain ⟨s, hs, rfl⟩ := Option.map_eq_some_iff.mp h
      obtain ⟨hconfigured, rfl⟩ := of_sweepActive_eq_some hs
      exact ⟨fun hnil => hkeys (by rw [hnil]; rfl), hconfigured, rfl⟩
  · rintro ⟨hkeys, hconfigured, rfl⟩
    -- enough for the outer loop and, at each of its rounds, for the inner one
    let fuel := (m.mapSporksActive.entries.map fun e => e.2.entries.length).sum +
      m.mapSporksActive.entries.length + 1
    have hinner : ∀ e ∈ m.mapSporksActive.entries,
        e.2.entries.length + m.mapSporksActive.entries.length < fuel := by
      intro e he
      have hle := List.le_sum_of_mem (List.mem_map_of_mem (f := fun e => e.2.entries.length) he)
      omega
    refine ⟨fuel, ?_⟩
    rw [checkAndRemove, if_neg (by simpa using hkeys),
      sweepActive_eq_some hconfigured (by omega) hinner]
    rfl

theorem active_swept (m : CSporkManager) (sporkId : SporkId) (signer : CKeyID) :
    (swept m).active sporkId signer = (m.active sporkId signer).filter fun spork => spork.verifies signer := by
  rw [CSporkManager.active, swept, lookup_sweepSpork, CSporkManager.active]
  cases m.mapSporksActive.lookup sporkId with
  | none => rfl
  | some signers =>
    rw [Option.map_some, Option.bind_some, ← lookup_sweepSigner signers ∅, ← keptSigners]
    cases hempty : (keptSigners signers).entries with
    | nil =>
      have hnone : (keptSigners signers).lookup signer = none := by
        rw [AList.lookup, hempty]
        rfl
      simp [Option.filter, hempty, hnone]
    | cons e l => simp [Option.filter, hempty]

/-- The hashes of all sporks that are erased with their signers. -/
def hashesErased (m : CSporkManager) : List UInt256 :=
  m.mapSporksActive.entries.flatMap fun e => erasedHashes e.2.entries

theorem mem_hashesErased {m : CSporkManager} {hash : UInt256} : hash ∈ hashesErased m ↔
    ∃ sporkId signer spork, m.active sporkId signer = some spork ∧ spork.verifies signer = false ∧
      spork.getHash = hash := by
  simp only [hashesErased, List.mem_flatMap, mem_erasedHashes]
  constructor
  · rintro ⟨e, he, e', he', hbad, hhash⟩
    exact ⟨e.1, e'.1, e'.2, active_eq_some_iff.mpr ⟨e, he, e', he', rfl, rfl⟩, hbad, hhash⟩
  · rintro ⟨sporkId, signer, spork, hactive, hbad, hhash⟩
    obtain ⟨e, he, e', he', -, rfl⟩ := active_eq_some_iff.mp hactive
    exact ⟨e, he, _, he', hbad, hhash⟩

theorem lookup_byHash_swept (m : CSporkManager) (hash : UInt256) :
    (swept m).mapSporksByHash.lookup hash =
      if hash ∈ hashesErased m then none
      else (m.mapSporksByHash.lookup hash).filter fun spork => m.setSporkPubKeyIDs.any spork.verifies := by
  rw [swept, lookup_removeUnverified, lookup_byHash_sweepSpork, ← hashesErased]
  split <;> rfl

/-- The clean-up ends with exactly the good sporks if and only if there are keys, every signer is among
them, and no spork that is erased with its signer is good under another. -/
theorem checkAndRemove_cleaned_iff (m : CSporkManager) :
    (∃ fuel m', checkAndRemove fuel m = some m' ∧ Cleaned m m') ↔
      m.setSporkPubKeyIDs ≠ [] ∧ SignersConfigured m ∧ NoneLost m := by
  constructor
  · rintro ⟨fuel, m', hrun, hclean⟩
    obtain ⟨hkeys, hconfigured, rfl⟩ := checkAndRemove_iff.mp ⟨fuel, hrun⟩
    refine ⟨hkeys, hconfigured, fun sporkId signer spork hactive hbad stored hstored key hkey => ?_⟩
    by_contra hgood
    have hkept := (hclean.byHash _ stored).mpr ⟨hstored, key, hkey, Bool.eq_true_of_not_eq_false hgood⟩
    rw [lookup_byHash_swept, if_pos (mem_hashesErased.mpr ⟨sporkId, signer, spork, hactive, hbad, rfl⟩)] at hkept
    cases hkept
  · rintro ⟨hkeys, hconfigured, hlost⟩
    obtain ⟨fuel, hrun⟩ := checkAndRemove_iff.mpr ⟨hkeys, hconfigured, rfl⟩
    refine ⟨fuel, swept m, hrun, ?_, ?_, ?_⟩
    · intro sporkId signer spork
      rw [active_swept, Option.filter_eq_some_iff]
      exact ⟨fun h => ⟨h.1, hconfigured sporkId signer spork h.1, h.2⟩, fun h => ⟨h.1, h.2.2⟩⟩
    · intro sporkId signers h hnil
      rw [swept, lookup_sweepSpork, Option.filter_eq_some_iff] at h
      simp [hnil] at h
    · intro hash spork
      rw [lookup_byHash_swept]
      by_cases herased : hash ∈ hashesErased m
      · obtain ⟨sporkId, signer, spork', hactive, hbad, rfl⟩ := mem_hashesErased.mp herased
        rw [if_pos herased]
        refine ⟨nofun, ?_⟩
        rintro ⟨hstored, key, hkey, hgood⟩
        rw [hlost sporkId signer spork' hactive hbad spork hstored key hkey] at hgood
        cases hgood
      · rw [if_neg herased, Option.filter_eq_some_iff, List.any_eq_true]

end

section

/-- A key that is no longer configured signed a spork of the cache. -/
def staleSigner : CSporkManager where
  mapSporksActive := AList.singleton 10001
    (AList.singleton (List.replicate 20 1) ⟨10001, 0, 1600000000, List.replicate 65 7⟩)
  setSporkPubKeyIDs := [List.replicate 20 2]

attribute [local instance] mainnetCrypto

local instance recoverOld : KeyRecovery where
  recoverCompact _ _ := some (List.replicate 20 1)

/-- No number of rounds is enough. -/
theorem not_checkAndRemove_cleaned_staleSigner :
    staleSigner.setSporkPubKeyIDs ≠ [] ∧
      ¬ ∃ fuel m', checkAndRemove fuel staleSigner = some m' ∧ Cleaned staleSigner m' := by
  refine ⟨by decide, ?_⟩
  rintro ⟨fuel, m', hrun, -⟩
  have hkey := (checkAndRemove_iff.mp ⟨fuel, hrun⟩).2.1 10001 (List.replicate 20 1)
    ⟨10001, 0, 1600000000, List.replicate 65 7⟩ (by decide +kernel)
  exact absurd hkey (by decide)

end

end RavenCash.Spork
