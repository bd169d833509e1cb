import RavenCash.Assets.Directory
import RavenCash.Assets.Names
import RavenCash.Basic.Decimal
import RavenCash.Basic.MainnetCodec
import RavenCash.Lib.FlatKeys

/-!
# Snapshots of ownership

`CAssetSnapshotDB` keeps the owners of an asset at a height, `CSnapshotRequestDB` the requests for such
snapshots. Both have as the key of an entry one string, the height in decimal digits with the name of the
asset directly behind it. Names may begin with digits, so one string can be made from several pairs: what
is stored for one pair is found, overwritten and removed under another.
-/

set_option autoImplicit false

namespace RavenCash.Snapshots

open FlatKeys

/-! ## Keys -/

/-- The asset and the height, in the order of the functions' arguments. -/
abbrev AssetAtHeight := StdString × Int

def heightAndName (p : AssetAtHeight) : StdString := toStdString p.2 ++ p.1

/-- The name begins with something else than a digit. -/
def NoDigitFirst (name : StdString) : Prop := (name.takeWhile isDigit) = []

theorem takeWhile_heightAndName {p : AssetAtHeight} (hheight : 0 ≤ p.2) (hname : NoDigitFirst p.1) :
    (heightAndName p).takeWhile isDigit = decimal p.2.natAbs := by
  rw [heightAndName, toStdString, if_neg (by omega),
    List.takeWhile_append_of_pos fun c hc => isDigit_of_mem_decimal hc, hname, List.append_nil]

/-- Without digits in front of the names the key tells the height and the name apart. -/
theorem heightAndName_inj {p q : AssetAtHeight} (hp : 0 ≤ p.2) (hq : 0 ≤ q.2) (hpn : NoDigitFirst p.1)
    (hqn : NoDigitFirst q.1) (h : heightAndName p = heightAndName q) : p = q := by
  have hdecimal : decimal p.2.natAbs = decimal q.2.natAbs := by
    rw [← takeWhile_heightAndName hp hpn, ← takeWhile_heightAndName hq hqn, h]
  have habs : p.2.natAbs = q.2.natAbs := by
    rw [← ofDigits_decimal p.2.natAbs, hdecimal, ofDigits_decimal]
  have hheight : p.2 = q.2 := by omega
  rw [heightAndName, heightAndName, hheight] at h
  exact Prod.ext (List.append_cancel_left h) hheight

/-! ## The two stores -/

structure CAssetSnapshotDBEntry where
  height : Int
  assetName : StdString
  ownersAndAmounts : List (StdString × CAmount)
  heightAndName : StdString
deriving DecidableEq

structure CSnapshotRequestDBEntry where
  assetName : StdString
  heightForSnapshot : Int
  heightAndName : StdString
deriving DecidableEq

def assetSnapshotDBEntry (p : AssetAtHeight) (ownersAndAmounts : List (StdString × CAmount)) :
    CAssetSnapshotDBEntry :=
  ⟨p.2, p.1, ownersAndAmounts, heightAndName p⟩

def snapshotRequestDBEntry (p : AssetAtHeight) : CSnapshotRequestDBEntry := ⟨p.1, p.2, heightAndName p⟩

structure SnapshotDbs where
  pAssetSnapshotDb : StdMap StdString CAssetSnapshotDBEntry := ∅
  pSnapshotRequestDb : StdMap StdString CSnapshotRequestDBEntry := ∅

section

variable [NodeCrypto]

def MAX_RETRIEVAL_COUNT : Nat := 100

/-- The owners of the asset, retrieved in batches, without the addresses that are not valid. -/
def ownersAndAmounts (passetsdb : AssetsTable) (assetName : StdString) : List (StdString × CAmount) :=
  let totalEntryCount := assetAddressTotal passetsdb assetName
  let batches := (totalEntryCount + MAX_RETRIEVAL_COUNT - 1) / MAX_RETRIEVAL_COUNT
  let retrieved := (List.range batches).flatMap fun i =>
    assetAddressDir passetsdb assetName MAX_RETRIEVAL_COUNT (i * MAX_RETRIEVAL_COUNT : Nat)
  retrieved.filter fun owner => isValidDestination (NodeCrypto.decodeDestination owner.1)

/-- Without an owner nothing is written. -/
def addAssetOwnershipSnapshot (passetsdb : AssetsTable) (p : AssetAtHeight) (dbs : SnapshotDbs) : SnapshotDbs :=
  let owners := ownersAndAmounts passetsdb p.1
  if owners.isEmpty then dbs
  else
    { dbs with pAssetSnapshotDb := dbs.pAssetSnapshotDb.insert (heightAndName p) (assetSnapshotDBEntry p owners) }

def retrieveOwnershipSnapshot (dbs : SnapshotDbs) (p : AssetAtHeight) : Option CAssetSnapshotDBEntry :=
  dbs.pAssetSnapshotDb.lookup (heightAndName p)

def removeOwnershipSnapshot (p : AssetAtHeight) (dbs : SnapshotDbs) : SnapshotDbs :=
  { dbs with pAssetSnapshotDb := dbs.pAssetSnapshotDb.erase (heightAndName p) }

def scheduleSnapshot (p : AssetAtHeight) (dbs : SnapshotDbs) : SnapshotDbs :=
  { dbs with
    pSnapshotRequestDb := dbs.pSnapshotRequestDb.insert (heightAndName p) (snapshotRequestDBEntry p) }

def retrieveSnapshotRequest (dbs : SnapshotDbs) (p : AssetAtHeight) : Option CSnapshotRequestDBEntry :=
  dbs.pSnapshotRequestDb.lookup (heightAndName p)

def removeSnapshotRequest (p : AssetAtHeight) (dbs : SnapshotDbs) : SnapshotDbs :=
  { dbs with pSnapshotRequestDb := dbs.pSnapshotRequestDb.erase (heightAndName p) }

/-! ## Histories -/

/-- A call; a snapshot is taken of what the asset database holds then. -/
inductive Call where
  | addAssetOwnershipSnapshot (passetsdb : AssetsTable) (p : AssetAtHeight)
  | removeOwnershipSnapshot (p : AssetAtHeight)
  | scheduleSnapshot (p : AssetAtHeight)
  | removeSnapshotRequest (p : AssetAtHeight)

def step (dbs : SnapshotDbs) : Call → SnapshotDbs
  | .addAssetOwnershipSnapshot passetsdb p => addAssetOwnershipSnapshot passetsdb p dbs
  | .removeOwnershipSnapshot p => removeOwnershipSnapshot p dbs
  | .scheduleSnapshot p => scheduleSnapshot p dbs
  | .removeSnapshotRequest p => removeSnapshotRequest p dbs

def run (calls : List Call) : SnapshotDbs := calls.foldl step {}

/-- What a call writes or removes among the snapshots. -/
def snapshotWrite : Call → Option (AssetAtHeight × Option CAssetSnapshotDBEntry)
  | .addAssetOwnershipSnapshot passetsdb p =>
    let owners := ownersAndAmounts passetsdb p.1
    if owners.isEmpty then none else some (p, some (assetSnapshotDBEntry p owners))
  | .removeOwnershipSnapshot p => some (p, none)
  | .scheduleSnapshot _ => none
  | .removeSnapshotRequest _ => none

def requestWrite : Call → Option (AssetAtHeight × Option CSnapshotRequestDBEntry)
  | .addAssetOwnershipSnapshot _ _ => none
  | .removeOwnershipSnapshot _ => none
  | .scheduleSnapshot p => some (p, some (snapshotRequestDBEntry p))
  | .removeSnapshotRequest p => some (p, none)

/-- What the last write or removal for the very pair has left. -/
def lastFor {E : Type} (writes : List (AssetAtHeight × Option E)) (p : AssetAtHeight) : Option E :=
  leaves (lastAt (fun q => q = p) writes)

/-- Both stores answer for the pair as it was last written or removed. -/
structure KeyedByPair (calls : List Call) (p : AssetAtHeight) : Prop where
  snapshot : retrieveOwnershipSnapshot (run calls) p = lastFor (calls.filterMap snapshotWrite) p
  request : retrieveSnapshotRequest (run calls) p = lastFor (calls.filterMap requestWrite) p

theorem retrieveOwnershipSnapshot_run (calls : List Call) (p : AssetAtHeight) :
    retrieveOwnershipSnapshot (run calls) p =
      leaves (lastAt (fun q => heightAndName q = heightAndName p) (calls.filterMap snapshotWrite)) := by
  refine lookup_foldl (fun (dbs : SnapshotDbs) k => dbs.pAssetSnapshotDb.lookup k) ?_ ?_
    (fun _ => rfl) calls _
  · intro dbs call w hw k
    cases call with
    | addAssetOwnershipSnapshot passetsdb q =>
      simp only [snapshotWrite] at hw
      split at hw <;> cases hw
      next howners => simp [step, addAssetOwnershipSnapshot, howners, StdMap.lookup_assign, eq_comm]
    | removeOwnershipSnapshot q =>
      cases hw
      simp [step, removeOwnershipSnapshot, StdMap.lookup_erase_eq, eq_comm]
    | scheduleSnapshot q => cases hw
    | removeSnapshotRequest q => cases hw
  · intro dbs call hw k
    cases call with
    | addAssetOwnershipSnapshot passetsdb q =>
      simp only [snapshotWrite] at hw
      split at hw
      next howners => simp [step, addAssetOwnershipSnapshot, howners]
      next => cases hw
    | removeOwnershipSnapshot q => cases hw
    | scheduleSnapshot q => rfl
    | removeSnapshotRequest q => rfl

theorem retrieveSnapshotRequest_run (calls : List Call) (p : AssetAtHeight) :
    retrieveSnapshotRequest (run calls) p =
      leaves (lastAt (fun q => heightAndName q = heightAndName p) (calls.filterMap requestWrite)) := by
  refine lookup_foldl (fun (dbs : SnapshotDbs) k => dbs.pSnapshotRequestDb.lookup k) ?_ ?_
    (fun _ => rfl) calls _
  · intro dbs call w hw k
    cases call with
    | addAssetOwnershipSnapshot passetsdb q => cases hw
    | removeOwnershipSnapshot q => cases hw
    | scheduleSnapshot q =>
      cases hw
      simp [step, scheduleSnapshot, StdMap.lookup_assign, eq_comm]
    | removeSnapshotRequest q =>
      cases hw
      simp [step, removeSnapshotRequest, StdMap.lookup_erase_eq, eq_comm]
  · intro dbs call hw k
    cases call with
    | addAssetOwnershipSnapshot passetsdb q =>
      simp only [step, addAssetOwnershipSnapshot]
      split <;> rfl
    | removeOwnershipSnapshot q => rfl
    | scheduleSnapshot q => cases hw
    | removeSnapshotRequest q => cases hw

/-- The pair that a call is about. -/
def Call.pair : Call → AssetAtHeight
  | .addAssetOwnershipSnapshot _ p => p
  | .removeOwnershipSnapshot p => p
  | .scheduleSnapshot p => p
  | .removeSnapshotRequest p => p

/-- A call writes for its pair, and the entry names it. -/
theorem of_snapshotWrite {call : Call} {w : AssetAtHeight × Option CAssetSnapshotDBEntry}
    (h : snapshotWrite call = some w) : w.1 = call.pair ∧ ∀ e, w.2 = some e → (e.assetName, e.height) = w.1 := by
  cases call with
  | addAssetOwnershipSnapshot passetsdb q =>
    simp only [snapshotWrite] at h
    split at h <;> cases h
    exact ⟨rfl, fun e he => Option.some.inj he ▸ rfl⟩
  | removeOwnershipSnapshot q => cases h; exact ⟨rfl, nofun⟩
  | scheduleSnapshot q => cases h
  | removeSnapshotRequest q => cases h

omit [NodeCrypto] in
theorem of_requestWrite {call : Call} {w : AssetAtHeight × Option CSnapshotRequestDBEntry}
    (h : requestWrite call = some w) :
    w.1 = call.pair ∧ ∀ e, w.2 = some e → (e.assetName, e.heightForSnapshot) = w.1 := by
  cases call with
  | addAssetOwnershipSnapshot passetsdb q => cases h
  | removeOwnershipSnapshot q => cases h
  | scheduleSnapshot q => cases h; exact ⟨rfl, fun e he => Option.some.inj he ▸ rfl⟩
  | removeSnapshotRequest q => cases h; exact ⟨rfl, nofun⟩

theorem snapshot_iff (calls : List Call) (p : AssetAtHeight) :
    retrieveOwnershipSnapshot (run calls) p = lastFor (calls.filterMap snapshotWrite) p ↔
      Undisturbed heightAndName (calls.filterMap snapshotWrite) p := by
  have hplace : ∀ w ∈ calls.filterMap snapshotWrite, ∀ e, w.2 = some e → (e.assetName, e.height) = w.1 := by
    intro w hw
    obtain ⟨call, -, hcall⟩ := List.mem_filterMap.mp hw
    exact (of_snapshotWrite hcall).2
  rw [retrieveOwnershipSnapshot_run]
  exact leaves_eq_iff hplace p

theorem request_iff (calls : List Call) (p : AssetAtHeight) :
    retrieveSnapshotRequest (run calls) p = lastFor (calls.filterMap requestWrite) p ↔
      Undisturbed heightAndName (calls.filterMap requestWrite) p := by
  have hplace : ∀ w ∈ calls.filterMap requestWrite, ∀ e, w.2 = some e → (e.assetName, e.heightForSnapshot) = w.1 := by
    intro w hw
    obtain ⟨call, -, hcall⟩ := List.mem_filterMap.mp hw
    exact (of_requestWrite hcall).2
  rw [retrieveSnapshotRequest_run]
  exact leaves_eq_iff hplace p

/-- The stores answer for a pair as it was last written or removed if and only if the last call whose
height and name give the same string was for the pair itself, or removed what the pair did not have. -/
theorem keyedByPair_iff (calls : List Call) (p : AssetAtHeight) :
    KeyedByPair calls p ↔
      Undisturbed heightAndName (calls.filterMap snapshotWrite) p ∧
        Undisturbed heightAndName (calls.filterMap requestWrite) p := by
  constructor
  · intro h
    exact ⟨(snapshot_iff calls p).mp h.snapshot, (request_iff calls p).mp h.request⟩
  · rintro ⟨hsnapshot, hrequest⟩
    exact ⟨(snapshot_iff calls p).mpr hsnapshot, (request_iff calls p).mpr hrequest⟩

/-- As long as no name begins with a digit, the stores are keyed by the pair. -/
theorem keyedByPair_of_noDigitFirst {calls : List Call} {p : AssetAtHeight}
    (hcalls : ∀ call ∈ calls, 0 ≤ call.pair.2 ∧ NoDigitFirst call.pair.1) (hheight : 0 ≤ p.2)
    (hname : NoDigitFirst p.1) : KeyedByPair calls p := by
  refine ⟨(snapshot_iff calls p).mpr (undisturbed_of_inj fun w hw h => ?_),
    (request_iff calls p).mpr (undisturbed_of_inj fun w hw h => ?_)⟩
  · obtain ⟨call, hmem, hcall⟩ := List.mem_filterMap.mp hw
    rw [(of_snapshotWrite hcall).1] at h ⊢
    exact heightAndName_inj (hcalls call hmem).1 hheight (hcalls call hmem).2 hname h
  · obtain ⟨call, hmem, hcall⟩ := List.mem_filterMap.mp hw
    rw [(of_requestWrite hcall).1] at h ⊢
    exact heightAndName_inj (hcalls call hmem).1 hheight (hcalls call hmem).2 hname h

end

section

attribute [local instance] mainnetCrypto

/-- Requests and snapshots of two assets, of which some are removed again. -/
def letterCalls : List Call :=
  [.scheduleSnapshot (bytes "ABC", 12), .addAssetOwnershipSnapshot singleHolder (bytes "ABC", 12),
    .scheduleSnapshot (bytes "BC", 12), .addAssetOwnershipSnapshot singleHolder (bytes "ABC", 1),
    .removeSnapshotRequest (bytes "ABC", 12), .removeOwnershipSnapshot (bytes "ABC", 1)]

theorem keyedByPair_of_letters :
    KeyedByPair letterCalls (bytes "ABC", 12) ∧
      (retrieveOwnershipSnapshot (run letterCalls) (bytes "ABC", 12)).isSome = true ∧
      retrieveSnapshotRequest (run letterCalls) (bytes "ABC", 12) = none := by
  have hcalls : ∀ call ∈ letterCalls, 0 ≤ call.pair.2 ∧ call.pair.1.takeWhile isDigit = [] := by decide +kernel
  exact ⟨keyedByPair_of_noDigitFirst hcalls (by decide) rfl, by decide +kernel, by decide +kernel⟩

/-- A request for `ABC` at height 12345678 is found as one for `8ABC` at height 1234567: both have the
key `12345678ABC`. -/
theorem not_keyedByPair_digits :
    isNameValid (bytes "ABC") = true ∧ isNameValid (bytes "8ABC") = true ∧
      ¬ KeyedByPair [.scheduleSnapshot (bytes "ABC", 12345678)] (bytes "8ABC", 1234567) := by
  refine ⟨by decide +kernel, by decide +kernel, fun h => ?_⟩
  have hfound : retrieveSnapshotRequest (run [.scheduleSnapshot (bytes "ABC", 12345678)]) (bytes "8ABC", 1234567) =
      some ⟨bytes "ABC", 12345678, bytes "12345678ABC"⟩ := by decide +kernel
  have hown : lastFor ([Call.scheduleSnapshot (bytes "ABC", 12345678)].filterMap requestWrite)
      (bytes "8ABC", 1234567) = none := by decide +kernel
  have hrequest := h.request
  rw [hfound, hown] at hrequest
  cases hrequest

end

end RavenCash.Snapshots
