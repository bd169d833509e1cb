import RavenCash.Assets.Cache

/-!
# Verifier strings written one after the other

`AddRestrictedVerifier` and `RemoveRestrictedVerifier` keep the entry of the asset that is already in the
set they insert into. After a sequence of calls the view holds the entry of the call that opened the last
run of calls of one kind, or the entry that this call found (`runCalls_spec`), and
`GetAssetVerifierStringIfExists` asks the shared removals before the additions of the view.
-/

set_option autoImplicit false

namespace RavenCash

/-- A change of the verifier string of an asset: a new string from a block, or the old one while a reissue
is undone. -/
inductive VerifierCall where
  | add (verifier : StdString)
  | undo (verifier : StdString)
deriving DecidableEq, Repr

namespace VerifierCall

def verifier : VerifierCall → StdString
  | add verifier => verifier
  | undo verifier => verifier

def isUndo : VerifierCall → Bool
  | add _ => false
  | undo _ => true

def run (name : StdString) (cache : CAssetsCache) : VerifierCall → CAssetsCache
  | add verifier => addRestrictedVerifier cache name verifier
  | undo verifier => removeRestrictedVerifier cache name verifier true

/-- What the call inserts. -/
def entry (name : StdString) (call : VerifierCall) : CAssetCacheRestrictedVerifiers :=
  ⟨name, call.verifier, call.isUndo⟩

/-- The call that opened the run of calls of one kind that ends in `call`; the calls before it are given
from the last to the first. -/
def opener (call : VerifierCall) : List VerifierCall → VerifierCall
  | [] => call
  | previous :: before => if previous.isUndo = call.isUndo then opener previous before else call

/-- The entries of the kind of the call. -/
def pending (p : Pending CAssetCacheRestrictedVerifiers.assetName) (call : VerifierCall) :
    StdSet CAssetCacheRestrictedVerifiers.assetName :=
  if call.isUndo then p.toRemove else p.toAdd

/-- The entry that is held after `call`: when all calls are of one kind, that of the view before them if
it has one. -/
def held (p : Pending CAssetCacheRestrictedVerifiers.assetName) (name : StdString) (call : VerifierCall)
    (before : List VerifierCall) : CAssetCacheRestrictedVerifiers :=
  if before.all (fun previous => previous.isUndo == call.isUndo) then
    ((pending p call).find? name).getD ((opener call before).entry name)
  else (opener call before).entry name

end VerifierCall

open VerifierCall

def runCalls (cache : CAssetsCache) (name : StdString) (calls : List VerifierCall) : CAssetsCache :=
  calls.foldl (run name) cache

/-- The view holds the entry in the set of the kind of the last call, and none in the other. -/
def Holds (p : Pending CAssetCacheRestrictedVerifiers.assetName) (name : StdString)
    (call : VerifierCall) (entry : CAssetCacheRestrictedVerifiers) : Prop :=
  (if call.isUndo then p.toRemove else p.toAdd).find? name = some entry ∧
    (if call.isUndo then p.toAdd else p.toRemove).find? name = none

theorem holds_run (cache : CAssetsCache) (name : StdString) (call : VerifierCall) :
    Holds (run name cache call).setNewRestrictedVerifier name call
      (((pending cache.setNewRestrictedVerifier call).find? name).getD (call.entry name)) := by
  cases call with
  | add verifier =>
      simp [Holds, run, addRestrictedVerifier, pending, isUndo, entry,
        VerifierCall.verifier, StdSet.find?_insert, StdSet.find?_erase]
  | undo verifier =>
      simp [Holds, run, removeRestrictedVerifier, pending, isUndo, entry,
        VerifierCall.verifier, StdSet.find?_insert, StdSet.find?_erase]

/-- **What the view holds after a sequence of calls.** -/
theorem runCalls_spec (cache : CAssetsCache) (name : StdString) (call : VerifierCall)
    (before : List VerifierCall) :
    Holds (runCalls cache name (before.reverse ++ [call])).setNewRestrictedVerifier name call
      (held cache.setNewRestrictedVerifier name call before) := by
  induction before generalizing call with
  | nil => exact holds_run cache name call
  | cons previous before ih =>
      have hprev := ih previous
      rw [List.reverse_cons, runCalls, List.foldl_append, ← runCalls]
      have hstep := holds_run (runCalls cache name (before.reverse ++ [previous])) name call
      obtain ⟨hfound, hnone⟩ := hprev
      by_cases hkind : previous.isUndo = call.isUndo
      · -- the entry of the call before it stays
        rw [pending, ← hkind, hfound, Option.getD_some] at hstep
        have hheld : held cache.setNewRestrictedVerifier name call (previous :: before) =
            held cache.setNewRestrictedVerifier name previous before := by
          simp [held, opener, pending, hkind]
        rw [hheld]
        exact hstep
      · have hother : (pending (runCalls cache name
            (before.reverse ++ [previous])).setNewRestrictedVerifier call).find? name = none := by
          rw [pending]
          revert hnone hkind
          cases previous.isUndo <;> cases call.isUndo <;> simp
        rw [hother, Option.getD_none] at hstep
        have hheld : held cache.setNewRestrictedVerifier name call (previous :: before) =
            call.entry name := by
          simp [held, opener, hkind]
        rw [hheld]
        exact hstep

/-- The string of the last call is the one that is found. -/
def LastCallWins (g : Globals) (v : View) (name : StdString) (calls : List VerifierCall)
    (call : VerifierCall) : Prop :=
  (getAssetVerifierStringIfExists g ⟨runCalls v.cache name (calls ++ [call]), v.lru⟩ name).1 =
    some ⟨call.verifier⟩

/-- **The last call wins exactly when the entry it leaves has its string and is not hidden**: after an
undo the entry that is held is one of an undo, and after an addition the shared cache holds no removal
of the asset but an undo with the same string. -/
theorem lastCallWins_iff (g : Globals) (v : View) (name : StdString) (calls : List VerifierCall)
    (call : VerifierCall) :
    LastCallWins g v name calls call ↔
      if call.isUndo then
        (held v.cache.setNewRestrictedVerifier name call calls.reverse).verifier = call.verifier ∧
          (held v.cache.setNewRestrictedVerifier name call calls.reverse).fUndoingRessiue = true
      else
        match g.passets.setNewRestrictedVerifier.toRemove.find? name with
        | some a => a.verifier = call.verifier ∧ a.fUndoingRessiue = true
        | none => (held v.cache.setNewRestrictedVerifier name call calls.reverse).verifier =
            call.verifier := by
  have hspec := runCalls_spec v.cache name call calls.reverse
  rw [List.reverse_reverse] at hspec
  obtain ⟨hfound, hnone⟩ := hspec
  unfold LastCallWins getAssetVerifierStringIfExists
  cases hundo : call.isUndo with
  | true =>
      rw [hundo, if_pos rfl] at hfound
      rw [Pending.layered_of_toRemove hfound, if_pos rfl]
      cases hflag : (held v.cache.setNewRestrictedVerifier name call calls.reverse).fUndoingRessiue <;>
        simp [hflag]
  | false =>
      rw [hundo, if_neg Bool.false_ne_true] at hfound hnone
      rw [if_neg Bool.false_ne_true]
      cases hshared : g.passets.setNewRestrictedVerifier.toRemove.find? name with
      | some a =>
          rw [Pending.layered_of_shared_toRemove hnone hshared]
          cases hflag : a.fUndoingRessiue <;> simp [hflag]
      | none =>
          rw [Pending.layered_of_toAdd hnone hshared hfound]
          simp

/-- Of two strings added one after the other, the first stays. -/
theorem not_lastCallWins_add_add :
    ¬ LastCallWins {} {} (bytes "$COIN") [.add (bytes "AAA")] (.add (bytes "BBB")) := by
  rw [LastCallWins]
  decide

end RavenCash
