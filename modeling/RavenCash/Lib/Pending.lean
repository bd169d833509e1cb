import RavenCash.Lib.StdMap

/-!
# Pending changes in two layers

A write-back cache keeps the elements to add and the elements to remove until they are written
down. A view `v` of such a cache is layered over the shared one `p`: a lookup asks the removals of
both layers before the additions of both, and flushing the view merges it into `p`.

* `Pending.layered` is the lookup through both layers.
* `Pending.mergeKeep` and `Pending.mergeOver` are the two ways of merging a view.
* `Pending.Unhidden` and `Pending.Unclashing` say when a lookup through the layers is the lookup
  after the merge (`layered_mergeOver`, `layered_mergeKeep`); each change has a lemma that keeps
  them.
-/

set_option autoImplicit false

/-- Changes that are not written down yet. -/
structure Pending {α K : Type} [DecidableEq K] (key : α → K) where
  toAdd : StdSet key := ∅
  toRemove : StdSet key := ∅

namespace Pending

variable {α K : Type} [DecidableEq K] {key : α → K}

instance : EmptyCollection (Pending key) := ⟨{}⟩

@[simp] theorem empty_toAdd : (∅ : Pending key).toAdd = ∅ := rfl

@[simp] theorem empty_toRemove : (∅ : Pending key).toRemove = ∅ := rfl

/-! ## One change -/

/-- `toRemove.erase(a); toAdd.insert(a);` — an equivalent element already in `toAdd` stays. -/
def add (p : Pending key) (a : α) : Pending key where
  toAdd := p.toAdd.insert a
  toRemove := p.toRemove.erase (key a)

/-- `toAdd.erase(a); toRemove.insert(a);` — an equivalent element already in `toRemove` stays. -/
def remove (p : Pending key) (a : α) : Pending key where
  toAdd := p.toAdd.erase (key a)
  toRemove := p.toRemove.insert a

/-- `toRemove.erase(a); toAdd.erase(a); toAdd.insert(a);` -/
def addOver (p : Pending key) (a : α) : Pending key where
  toAdd := p.toAdd.overwrite a
  toRemove := p.toRemove.erase (key a)

/-- `toAdd.erase(a); toRemove.erase(a); toRemove.insert(a);` -/
def removeOver (p : Pending key) (a : α) : Pending key where
  toAdd := p.toAdd.erase (key a)
  toRemove := p.toRemove.overwrite a

@[simp] theorem add_toAdd (p : Pending key) (a : α) : (p.add a).toAdd = p.toAdd.insert a := rfl

@[simp] theorem add_toRemove (p : Pending key) (a : α) :
    (p.add a).toRemove = p.toRemove.erase (key a) := rfl

@[simp] theorem remove_toAdd (p : Pending key) (a : α) :
    (p.remove a).toAdd = p.toAdd.erase (key a) := rfl

@[simp] theorem remove_toRemove (p : Pending key) (a : α) :
    (p.remove a).toRemove = p.toRemove.insert a := rfl

@[simp] theorem addOver_toAdd (p : Pending key) (a : α) :
    (p.addOver a).toAdd = p.toAdd.overwrite a := rfl

@[simp] theorem addOver_toRemove (p : Pending key) (a : α) :
    (p.addOver a).toRemove = p.toRemove.erase (key a) := rfl

@[simp] theorem removeOver_toAdd (p : Pending key) (a : α) :
    (p.removeOver a).toAdd = p.toAdd.erase (key a) := rfl

@[simp] theorem removeOver_toRemove (p : Pending key) (a : α) :
    (p.removeOver a).toRemove = p.toRemove.overwrite a := rfl

/-! ## Lookup through the layers -/

/-- Where a lookup through the layers ends. -/
inductive Hit (α : Type) where
  | removed (a : α)
  | added (a : α)
deriving DecidableEq, Repr

/-- The element of a hit among the additions. -/
def Hit.added? : Hit α → Option α
  | removed _ => none
  | added a => some a

/-- **Lookup through the layers**: the view's removals, the shared removals, the view's additions,
the shared additions. With `skip` the view's own sets are passed over. -/
def layered (skip : Bool) (v p : Pending key) (k : K) : Option (Hit α) :=
  ((if skip then none else v.toRemove.find? k).map Hit.removed).or
    (((p.toRemove.find? k).map Hit.removed).or
      (((if skip then none else v.toAdd.find? k).map Hit.added).or
        ((p.toAdd.find? k).map Hit.added)))

theorem layered_of_toRemove {v p : Pending key} {k : K} {a : α} (h : v.toRemove.find? k = some a) :
    layered false v p k = some (.removed a) := by
  simp [layered, h]

theorem layered_of_shared_toRemove {v p : Pending key} {k : K} {a : α}
    (hv : v.toRemove.find? k = none) (h : p.toRemove.find? k = some a) :
    layered false v p k = some (.removed a) := by
  simp [layered, hv, h]

theorem layered_of_toAdd {v p : Pending key} {k : K} {a : α} (hv : v.toRemove.find? k = none)
    (hp : p.toRemove.find? k = none) (h : v.toAdd.find? k = some a) :
    layered false v p k = some (.added a) := by
  simp [layered, hv, hp, h]

theorem key_of_layered {v p : Pending key} {k : K} {a : α}
    (h : layered false v p k = some (.added a)) : key a = k := by
  unfold layered at h
  rcases hr : v.toRemove.find? k with _ | b
  · rcases hs : p.toRemove.find? k with _ | b
    · rcases ha : v.toAdd.find? k with _ | b
      · rcases hp : p.toAdd.find? k with _ | b
        · simp [hr, hs, ha, hp] at h
        · simp only [hr, hs, ha, hp] at h
          cases h
          exact StdSet.key_of_find? hp
      · simp only [hr, hs, ha] at h
        cases h
        exact StdSet.key_of_find? ha
    · simp [hr, hs] at h
  · simp [hr] at h

/-- A lookup through the shared layer alone. -/
theorem layered_self (p : Pending key) (k : K) :
    layered false p p k =
      ((p.toRemove.find? k).map Hit.removed).or ((p.toAdd.find? k).map Hit.added) := by
  simp only [layered]
  cases p.toRemove.find? k <;> cases p.toAdd.find? k <;> rfl

/-! ## Merging a view into the shared layer -/

/-- Merge with `insert`: the additions first, then the removals. -/
def mergeKeep (p v : Pending key) : Pending key :=
  v.toRemove.foldl remove (v.toAdd.foldl add p)

/-- Merge with erase and `insert`: the additions first, then the removals. -/
def mergeOver (p v : Pending key) : Pending key :=
  v.toRemove.foldl removeOver (v.toAdd.foldl addOver p)

theorem find?_foldl (side : Pending key → StdSet key) (f : Pending key → α → Pending key)
    (upd : α → Option α → Option α) (hne : ∀ q a k, key a ≠ k → (side (f q a)).find? k = (side q).find? k)
    (heq : ∀ q a, (side (f q a)).find? (key a) = upd a ((side q).find? (key a)))
    (s : StdSet key) (p : Pending key) (k : K) :
    (side (s.foldl f p)).find? k = (s.find? k).elim ((side p).find? k) (fun a => upd a ((side p).find? k)) :=
  StdSet.foldl_observe s f (fun q => (side q).find? k) upd k (fun q a h => hne q a k h)
    (fun q a h => by subst h; exact heq q a) p

/-- An insertion at one key, seen from another key. -/
theorem find?_insert_ne {s : StdSet key} {a : α} {k : K} (h : key a ≠ k) :
    (s.insert a).find? k = s.find? k := by
  rw [StdSet.find?_insert, if_neg (Ne.symm h)]

theorem find?_overwrite_ne {s : StdSet key} {a : α} {k : K} (h : key a ≠ k) :
    (s.overwrite a).find? k = s.find? k := by
  rw [StdSet.find?_overwrite, if_neg (Ne.symm h)]

theorem find?_erase_ne {s : StdSet key} {k' k : K} (h : k' ≠ k) :
    (s.erase k').find? k = s.find? k := by
  rw [StdSet.find?_erase, if_neg (Ne.symm h)]

theorem mergeKeep_toAdd (p v : Pending key) (k : K) :
    (mergeKeep p v).toAdd.find? k =
      if v.toRemove.contains k then none else (p.toAdd.find? k).or (v.toAdd.find? k) := by
  rw [mergeKeep, find?_foldl toAdd remove (fun _ _ => none) (fun q a k h => find?_erase_ne h)
    (fun q a => by simp [StdSet.find?_erase]),
    find?_foldl toAdd add (fun a o => some (o.getD a)) (fun q a k h => find?_insert_ne h)
      (fun q a => by simp [StdSet.find?_insert])]
  cases hr : v.toRemove.find? k <;> cases v.toAdd.find? k <;>
    cases p.toAdd.find? k <;> simp [StdSet.contains, hr]

theorem mergeKeep_toRemove (p v : Pending key) (k : K) :
    (mergeKeep p v).toRemove.find? k =
      (if v.toAdd.contains k then none else p.toRemove.find? k).or (v.toRemove.find? k) := by
  rw [mergeKeep, find?_foldl toRemove remove (fun a o => some (o.getD a))
    (fun q a k h => find?_insert_ne h) (fun q a => by simp [StdSet.find?_insert]),
    find?_foldl toRemove add (fun _ _ => none) (fun q a k h => find?_erase_ne h)
      (fun q a => by simp [StdSet.find?_erase])]
  cases v.toRemove.find? k <;> cases ha : v.toAdd.find? k <;>
    cases p.toRemove.find? k <;> simp [StdSet.contains, ha]

theorem mergeOver_toAdd (p v : Pending key) (k : K) :
    (mergeOver p v).toAdd.find? k =
      if v.toRemove.contains k then none else (v.toAdd.find? k).or (p.toAdd.find? k) := by
  rw [mergeOver, find?_foldl toAdd removeOver (fun _ _ => none) (fun q a k h => find?_erase_ne h)
    (fun q a => by simp [StdSet.find?_erase]),
    find?_foldl toAdd addOver (fun a _ => some a) (fun q a k h => find?_overwrite_ne h)
      (fun q a => by simp [StdSet.find?_overwrite])]
  cases hr : v.toRemove.find? k <;> cases v.toAdd.find? k <;>
    cases p.toAdd.find? k <;> simp [StdSet.contains, hr]

theorem mergeOver_toRemove (p v : Pending key) (k : K) :
    (mergeOver p v).toRemove.find? k =
      (v.toRemove.find? k).or (if v.toAdd.contains k then none else p.toRemove.find? k) := by
  rw [mergeOver, find?_foldl toRemove removeOver (fun a _ => some a)
    (fun q a k h => find?_overwrite_ne h) (fun q a => by simp [StdSet.find?_overwrite]),
    find?_foldl toRemove addOver (fun _ _ => none) (fun q a k h => find?_erase_ne h)
      (fun q a => by simp [StdSet.find?_erase])]
  cases v.toRemove.find? k <;> cases ha : v.toAdd.find? k <;>
    cases p.toRemove.find? k <;> simp [StdSet.contains, ha]

/-! ## Lookup after one change -/

theorem layered_add_ne {v p : Pending key} {a : α} {k : K} (h : key a ≠ k) :
    layered false (v.add a) p k = layered false v p k := by
  simp only [layered, add_toRemove, add_toAdd, find?_erase_ne h, find?_insert_ne h]

theorem layered_remove_ne {v p : Pending key} {a : α} {k : K} (h : key a ≠ k) :
    layered false (v.remove a) p k = layered false v p k := by
  simp only [layered, remove_toRemove, remove_toAdd, find?_erase_ne h, find?_insert_ne h]

/-- A new addition is found, unless the shared layer removes its key. -/
theorem layered_add_self {v p : Pending key} {a : α} (hadd : v.toAdd.find? (key a) = none) :
    layered false (v.add a) p (key a) =
      some (((p.toRemove.find? (key a)).map Hit.removed).getD (.added a)) := by
  simp only [layered, add_toRemove, add_toAdd, StdSet.find?_erase, StdSet.find?_insert, hadd]
  cases p.toRemove.find? (key a) <;> rfl

theorem layered_remove_self (v p : Pending key) (a : α) :
    ∃ b, layered false (v.remove a) p (key a) = some (.removed b) :=
  ⟨_, layered_of_toRemove (by rw [remove_toRemove, StdSet.find?_insert, if_pos rfl])⟩

/-! ## When a lookup survives the merge -/

/-- No addition of the view is hidden by a shared removal. -/
def Unhidden (v p : Pending key) : Prop :=
  ∀ k a, v.toRemove.find? k = none → v.toAdd.find? k = some a → p.toRemove.find? k = none

/-- No addition of the view meets a different shared addition. -/
def Unclashing (v p : Pending key) : Prop :=
  ∀ k a b, v.toRemove.find? k = none → v.toAdd.find? k = some a → p.toAdd.find? k = some b → b = a

theorem unhidden_empty (p : Pending key) : Unhidden ∅ p := by
  intro k a _ h
  simp at h

theorem unhidden_self (p : Pending key) : Unhidden p p := fun _ _ hr _ => hr

theorem unclashing_empty (p : Pending key) : Unclashing ∅ p := by
  intro k a b _ h
  simp at h

theorem unclashing_self (p : Pending key) : Unclashing p p := by
  intro k a b _ ha hb
  rw [ha] at hb
  exact (Option.some.inj hb).symm

section Steps

variable {v p : Pending key} {a : α}

/-- Two views that agree away from the key of `a`. -/
def AgreeOff (a : α) (v' v : Pending key) : Prop :=
  ∀ k, key a ≠ k → v'.toRemove.find? k = v.toRemove.find? k ∧ v'.toAdd.find? k = v.toAdd.find? k

theorem agreeOff_add (v : Pending key) (a : α) : AgreeOff a (v.add a) v :=
  fun _ hk => ⟨find?_erase_ne hk, find?_insert_ne hk⟩

theorem agreeOff_addOver (v : Pending key) (a : α) : AgreeOff a (v.addOver a) v :=
  fun _ hk => ⟨find?_erase_ne hk, find?_overwrite_ne hk⟩

theorem agreeOff_remove (v : Pending key) (a : α) : AgreeOff a (v.remove a) v :=
  fun _ hk => ⟨find?_insert_ne hk, find?_erase_ne hk⟩

theorem agreeOff_removeOver (v : Pending key) (a : α) : AgreeOff a (v.removeOver a) v :=
  fun _ hk => ⟨find?_overwrite_ne hk, find?_erase_ne hk⟩

theorem find?_erase_self (s : StdSet key) (k : K) : (s.erase k).find? k = none := by
  rw [StdSet.find?_erase, if_pos rfl]

/-- A view that is changed at one key stays unhidden if it adds nothing there, or the shared layer removes
nothing there. -/
theorem Unhidden.of_agreeOff {v' : Pending key} (h : Unhidden v p) (hoff : AgreeOff a v' v)
    (hkey : p.toRemove.find? (key a) = none ∨ v'.toAdd.find? (key a) = none) : Unhidden v' p := by
  intro k b hr hb
  by_cases hk : key a = k
  · subst hk
    exact hkey.resolve_right fun hnone => nomatch hnone.symm.trans hb
  · exact h k b ((hoff k hk).1.symm.trans hr) ((hoff k hk).2.symm.trans hb)

theorem Unhidden.add (h : Unhidden v p) (hp : p.toRemove.find? (key a) = none) : Unhidden (v.add a) p :=
  h.of_agreeOff (agreeOff_add v a) (.inl hp)

theorem Unhidden.addOver (h : Unhidden v p) (hp : p.toRemove.find? (key a) = none) : Unhidden (v.addOver a) p :=
  h.of_agreeOff (agreeOff_addOver v a) (.inl hp)

theorem Unhidden.remove (h : Unhidden v p) : Unhidden (v.remove a) p :=
  h.of_agreeOff (agreeOff_remove v a) (.inr (find?_erase_self _ _))

theorem Unhidden.removeOver (h : Unhidden v p) : Unhidden (v.removeOver a) p :=
  h.of_agreeOff (agreeOff_removeOver v a) (.inr (find?_erase_self _ _))

theorem Unclashing.of_agreeOff {v' : Pending key} (h : Unclashing v p) (hoff : AgreeOff a v' v)
    (hkey : p.toAdd.find? (key a) = none ∨ v'.toAdd.find? (key a) = none) : Unclashing v' p := by
  intro k b c hr hb hc
  by_cases hk : key a = k
  · subst hk
    rcases hkey with hnone | hnone
    · exact nomatch hnone.symm.trans hc
    · exact nomatch hnone.symm.trans hb
  · exact h k b c ((hoff k hk).1.symm.trans hr) ((hoff k hk).2.symm.trans hb) hc

theorem Unclashing.add (h : Unclashing v p) (hp : p.toAdd.find? (key a) = none) : Unclashing (v.add a) p :=
  h.of_agreeOff (agreeOff_add v a) (.inl hp)

theorem Unclashing.remove (h : Unclashing v p) : Unclashing (v.remove a) p :=
  h.of_agreeOff (agreeOff_remove v a) (.inr (find?_erase_self _ _))

theorem AgreeOff.layered {v' : Pending key} (h : AgreeOff a v' v) {k : K} (hk : key a ≠ k) (skip : Bool)
    (p : Pending key) : layered skip v' p k = layered skip v p k := by
  unfold Pending.layered
  rw [(h k hk).1, (h k hk).2]

end Steps

/-! ## Keys with a change -/

/-- There is a change of the key. -/
def Holds (p : Pending key) (k : K) : Prop := p.toAdd.contains k = true ∨ p.toRemove.contains k = true

theorem not_holds_empty (k : K) : ¬ (∅ : Pending key).Holds k := by
  rintro (h | h)
  all_goals cases h

theorem AgreeOff.holds {v v' : Pending key} {a : α} (h : AgreeOff a v' v) {k : K} (hk : key a ≠ k)
    (hholds : v'.Holds k) : v.Holds k := by
  unfold Holds StdSet.contains at *
  rwa [(h k hk).1, (h k hk).2] at hholds

theorem Holds.of_mergeOver {v p : Pending key} {k : K} (h : (mergeOver p v).Holds k) : v.Holds k ∨ p.Holds k := by
  unfold Holds StdSet.contains at *
  rw [mergeOver_toAdd, mergeOver_toRemove] at h
  cases hr : v.toRemove.find? k <;> cases ha : v.toAdd.find? k <;> simp_all [StdSet.contains]

theorem find?_of_not_holds {p : Pending key} {k : K} (h : ¬ p.Holds k) :
    p.toAdd.find? k = none ∧ p.toRemove.find? k = none := by
  obtain ⟨hadd, hremove⟩ := not_or.mp h
  exact ⟨StdSet.contains_eq_false.mp (Bool.eq_false_iff.mpr hadd),
    StdSet.contains_eq_false.mp (Bool.eq_false_iff.mpr hremove)⟩

/-- Without a shared change of the key a lookup ends in the view. -/
theorem layered_of_not_holds {p : Pending key} {k : K} (h : ¬ p.Holds k) (skip : Bool) (v : Pending key) :
    layered skip v p k = layered skip v ∅ k := by
  obtain ⟨hadd, hremove⟩ := find?_of_not_holds h
  unfold layered
  rw [hadd, hremove, empty_toAdd, empty_toRemove, StdSet.find?_empty]

/-- **Merging with overwrite is transparent** for a view that hides nothing. -/
theorem layered_mergeOver {v p : Pending key} (h : Unhidden v p) (k : K) :
    layered false (mergeOver p v) (mergeOver p v) k = layered false v p k := by
  rw [layered_self, mergeOver_toRemove, mergeOver_toAdd]
  cases hr : v.toRemove.find? k with
  | some a =>
      simp [layered, hr]
  | none =>
      cases ha : v.toAdd.find? k with
      | some a =>
          have hp := h k a hr ha
          simp [layered, StdSet.contains, hr, ha, hp]
      | none =>
          simp [layered, StdSet.contains, hr, ha]

/-- **Merging with `insert` is transparent** for a view that hides nothing and clashes with
nothing, up to which of two equivalent removed elements is kept. -/
theorem layered_mergeKeep {v p : Pending key} (h : Unhidden v p) (hc : Unclashing v p) (k : K) :
    (layered false (mergeKeep p v) (mergeKeep p v) k).map Hit.added? =
      (layered false v p k).map Hit.added? := by
  rw [layered_self, mergeKeep_toRemove, mergeKeep_toAdd]
  cases hr : v.toRemove.find? k with
  | some a =>
      -- whichever removal is kept, the hit is a removal
      cases hp : (if v.toAdd.contains k then none else p.toRemove.find? k) <;>
        simp [layered, hr, Hit.added?]
  | none =>
      cases ha : v.toAdd.find? k with
      | some a =>
          have hp := h k a hr ha
          cases hb : p.toAdd.find? k with
          | none => simp [layered, StdSet.contains, hr, ha, hp, hb]
          | some b =>
              have hba := hc k a b hr ha hb
              simp [layered, StdSet.contains, hr, ha, hp, hba]
      | none =>
          simp [layered, StdSet.contains, hr, ha]

end Pending
