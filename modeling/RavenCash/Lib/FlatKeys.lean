import Mathlib.Data.List.Induction

/-!
# Stores under flattened keys

Entries belong to places, and a store keeps them under keys made from the places. A history is the list
of writes, each an entry or a removal at a place. If several places have one key, the store answers for a
place with the last write under its key, and that is the last write at the place itself only under a
condition.
-/

set_option autoImplicit false

namespace FlatKeys

variable {P K E : Type}

/-- The last write at a place that is hit. -/
def lastAt (hit : P → Bool) (ws : List (P × Option E)) : Option (P × Option E) :=
  (ws.filter fun w => hit w.1).getLast?

/-- What a last write leaves: nothing if there was none or if it was a removal. -/
def leaves (w : Option (P × Option E)) : Option E := w.bind Prod.snd

theorem lastAt_concat (hit : P → Bool) (ws : List (P × Option E)) (w : P × Option E) :
    lastAt hit (ws ++ [w]) = if hit w.1 then some w else lastAt hit ws := by
  by_cases h : hit w.1 <;> simp [lastAt, List.filter_append, h]

theorem hit_of_lastAt {hit : P → Bool} {ws : List (P × Option E)} {w : P × Option E}
    (h : lastAt hit ws = some w) : w ∈ ws ∧ hit w.1 = true := by
  have hmem := List.mem_of_getLast? h
  simpa using hmem

/-- A last write is also the last one of those at fewer places, if it is at one of these. -/
theorem lastAt_of_imp {hit hit' : P → Bool} (himp : ∀ p, hit' p = true → hit p = true)
    {ws : List (P × Option E)} {w : P × Option E} (h : lastAt hit ws = some w) (hw : hit' w.1 = true) :
    lastAt hit' ws = some w := by
  induction ws using List.reverseRecOn with
  | nil => cases h
  | append_singleton ws x ih =>
    rw [lastAt_concat] at h ⊢
    by_cases hx : hit x.1 = true
    · rw [if_pos hx] at h
      cases h
      rw [if_pos hw]
    · rw [if_neg hx] at h
      rw [if_neg (fun hx' => hx (himp x.1 hx')), ih h]

theorem lastAt_eq_none_of_imp {hit hit' : P → Bool} (himp : ∀ p, hit' p = true → hit p = true)
    {ws : List (P × Option E)} (h : lastAt hit ws = none) : lastAt hit' ws = none := by
  cases hw : lastAt hit' ws with
  | none => rfl
  | some w =>
    obtain ⟨hmem, hhit⟩ := hit_of_lastAt hw
    rw [lastAt, List.getLast?_eq_none_iff, List.filter_eq_nil_iff] at h
    exact absurd (himp w.1 hhit) (h w hmem)

/-- **A store answers with the last write under the key.** -/
theorem lookup_foldl {S Op : Type} [DecidableEq K] {step : S → Op → S} (lookup : S → K → Option E)
    {write : Op → Option (P × Option E)} {flat : P → K}
    (hwrite : ∀ s op w, write op = some w →
      ∀ k, lookup (step s op) k = if flat w.1 = k then w.2 else lookup s k)
    (hskip : ∀ s op, write op = none → ∀ k, lookup (step s op) k = lookup s k) {s : S}
    (hempty : ∀ k, lookup s k = none) (ops : List Op) (k : K) :
    lookup (ops.foldl step s) k = leaves (lastAt (fun p => flat p = k) (ops.filterMap write)) := by
  induction ops using List.reverseRecOn with
  | nil => exact hempty k
  | append_singleton ops op ih =>
    rw [List.foldl_append, List.foldl_cons, List.foldl_nil, List.filterMap_append]
    cases hw : write op with
    | none =>
      rw [hskip _ op hw, ih, List.filterMap_cons_none hw, List.filterMap_nil, List.append_nil]
    | some w =>
      rw [hwrite _ op w hw, ih, List.filterMap_cons_some hw, List.filterMap_nil, lastAt_concat]
      by_cases h : flat w.1 = k <;> simp [h, leaves]

/-- No other place got in the way: the last write under the key was at the place itself, or it removed
what was not there anyway. -/
def Undisturbed [DecidableEq P] [DecidableEq K] (flat : P → K) (ws : List (P × Option E)) (p : P) : Prop :=
  ∀ w, lastAt (fun q => flat q = flat p) ws = some w →
    w.1 = p ∨ w.2 = none ∧ leaves (lastAt (fun q => q = p) ws) = none

/-- If an entry tells its place, the store answers for a place as the place's own last write would if and
only if no other place got in the way. -/
theorem leaves_eq_iff [DecidableEq P] [DecidableEq K] {flat : P → K} {place : E → P}
    {ws : List (P × Option E)} (hplace : ∀ w ∈ ws, ∀ e, w.2 = some e → place e = w.1) (p : P) :
    leaves (lastAt (fun q => flat q = flat p) ws) = leaves (lastAt (fun q => q = p) ws) ↔
      Undisturbed flat ws p := by
  have himp : ∀ q, decide (q = p) = true → decide (flat q = flat p) = true := by
    intro q hq
    rw [of_decide_eq_true hq, decide_eq_true_iff]
  cases hlast : lastAt (fun q => flat q = flat p) ws with
  | none => simp [Undisturbed, hlast, lastAt_eq_none_of_imp himp hlast]
  | some w =>
    by_cases hw : w.1 = p
    · simp [Undisturbed, hlast, hw, lastAt_of_imp himp hlast (by simpa using hw)]
    · -- the entry of another place is not one of this place
      have hne : ∀ e, w.2 = some e → leaves (lastAt (fun q => q = p) ws) ≠ some e := by
        intro e he hown
        obtain ⟨w', hw', he'⟩ := Option.bind_eq_some_iff.mp hown
        obtain ⟨hmem', hp⟩ := hit_of_lastAt hw'
        rw [← hplace w (hit_of_lastAt hlast).1 e he, hplace w' hmem' e he'] at hw
        exact hw (of_decide_eq_true hp)
      rw [Undisturbed, hlast]
      generalize leaves (lastAt (fun q => q = p) ws) = own at hne
      cases hv : w.2 with
      | none => simpa [leaves, hv, hw] using eq_comm
      | some e => simpa [leaves, hv, hw] using (hne e hv).symm

/-- Places with keys of their own are never disturbed. -/
theorem undisturbed_of_inj [DecidableEq P] [DecidableEq K] {flat : P → K} {ws : List (P × Option E)} {p : P}
    (hinj : ∀ w ∈ ws, flat w.1 = flat p → w.1 = p) : Undisturbed flat ws p := by
  intro w hw
  obtain ⟨hmem, hhit⟩ := hit_of_lastAt hw
  exact .inl (hinj w hmem (of_decide_eq_true hhit))

end FlatKeys
