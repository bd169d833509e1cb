import Mathlib.Algebra.Order.BigOperators.Group.List
import Mathlib.Algebra.Order.Group.Nat

/-!
# Paging with a cursor over ordered keys

A table is a list of records in the order of their keys. A listing seeks to a key, skips some rows and
reads up to a limit; it stops at the first record that is not one of its rows. That finds all of its rows
if these are the records with a certain key prefix and the cursor does not stand before them: between two
keys with one prefix there are only keys with that prefix.

`slice` is what a page should be: a part of the list of all rows, given by its length and by where it
starts, counted from the front or from the end.
-/

set_option autoImplicit false

namespace Cursor

variable {α β : Type}

/-! ## The loop -/

/-- The rows at the front of the records. -/
def rows (row : α → Option β) : List α → List β
  | [] => []
  | r :: rest =>
    match row r with
    | none => []
    | some b => b :: rows row rest

/-- Reads a page: rows that are not kept are passed over, the first `skip` of the others too, and of
what follows at most `limit` are loaded. -/
def readPage (row : α → Option β) (keep : β → Bool) (limit skip : Nat) : Nat → Nat → List α → List β
  | _, _, [] => []
  | loaded, offset, r :: rest =>
    if limit ≤ loaded then []
    else
      match row r with
      | none => []
      | some b =>
        if keep b then
          if offset < skip then readPage row keep limit skip loaded (offset + 1) rest
          else b :: readPage row keep limit skip (loaded + 1) offset rest
        else readPage row keep limit skip loaded offset rest

theorem readPage_eq (row : α → Option β) (keep : β → Bool) (limit skip : Nat) (l : List α) :
    ∀ loaded offset, readPage row keep limit skip loaded offset l =
      (((rows row l).filter keep).drop (skip - offset)).take (limit - loaded) := by
  induction l with
  | nil => intro loaded offset; simp [readPage, rows]
  | cons r rest ih =>
    intro loaded offset
    rw [readPage, rows]
    by_cases hfull : limit ≤ loaded
    · rw [if_pos hfull, Nat.sub_eq_zero_of_le hfull, List.take_zero]
    rw [if_neg hfull]
    cases row r with
    | none => simp
    | some b =>
      by_cases hkeep : keep b = true
      · simp only [hkeep, ↓reduceIte, List.filter_cons_of_pos]
        by_cases hskip : offset < skip
        · obtain ⟨n, hn⟩ : ∃ n, skip - offset = n + 1 := ⟨skip - offset - 1, by omega⟩
          rw [if_pos hskip, ih, hn, List.drop_succ_cons, show skip - (offset + 1) = n by omega]
        · obtain ⟨n, hn⟩ : ∃ n, limit - loaded = n + 1 := ⟨limit - loaded - 1, by omega⟩
          have hdone : skip - offset = 0 := by omega
          rw [if_neg hskip, ih, hdone, hn, List.drop_zero, List.drop_zero, List.take_succ_cons,
            show limit - (loaded + 1) = n by omega]
      · simp only [hkeep, Bool.false_eq_true, ↓reduceIte, not_false_eq_true, List.filter_cons_of_neg]
        exact ih loaded offset

/-! ## Key prefixes -/

section

variable {κ : Type} [LT κ]

/-- Only a key with the prefix lies between two keys with the prefix. -/
theorem prefix_of_between {p a b k : List κ} (hlo : ¬ k < p ++ a) (hhi : k < p ++ b) : p <+: k := by
  induction p generalizing k with
  | nil => exact List.nil_prefix
  | cons c p ih =>
    cases k with
    | nil => exact absurd (List.nil_lt_cons c (p ++ a)) hlo
    | cons d k =>
      rw [List.cons_append, List.cons_lt_cons_iff] at hlo hhi
      obtain hlt | ⟨rfl, hhi⟩ := hhi
      · exact absurd (Or.inl hlt) hlo
      · exact List.cons_prefix_cons.mpr ⟨rfl, ih (fun h => hlo (Or.inr ⟨rfl, h⟩)) hhi⟩

/-- The rows of `row` are the records whose key has the prefix. -/
def RowsHavePrefix (key : α → List κ) (row : α → Option β) (p : List κ) (l : List α) : Prop :=
  ∀ r ∈ l, (row r).isSome ↔ p <+: key r

variable {key : α → List κ} {row : α → Option β} {p z : List κ} {l : List α}

theorem rows_eq_filterMap (hsorted : l.Pairwise fun r s => key r < key s)
    (hrow : RowsHavePrefix key row p l) (hge : ∀ r ∈ l, ¬ key r < p ++ z) :
    rows row l = l.filterMap row := by
  induction l with
  | nil => rfl
  | cons r rest ih =>
    rw [List.forall_mem_cons] at hge
    obtain ⟨hbefore, hsorted⟩ := List.pairwise_cons.mp hsorted
    have hrest := ih hsorted (fun s hs => hrow s (List.mem_cons_of_mem r hs)) hge.2
    cases hr : row r with
    | some b => rw [rows, hr, List.filterMap_cons_some hr, ← hrest]
    | none =>
      -- a row behind `r` would put `r` between two keys with the prefix
      have hnone : ∀ s ∈ rest, row s = none := by
        intro s hs
        by_contra hne
        obtain ⟨b, hb⟩ := (hrow s (List.mem_cons_of_mem r hs)).mp (Option.isSome_iff_ne_none.mpr hne)
        have hr' := (hrow r List.mem_cons_self).mpr
          (prefix_of_between hge.1 (hb ▸ hbefore s hs))
        rw [hr] at hr'
        exact absurd hr' (by simp)
      rw [rows, hr, List.filterMap_cons_none hr, List.filterMap_eq_nil_iff.mpr hnone]

/-- From the first record on, if that is a row. -/
theorem rows_of_head [Std.Asymm (fun a b : List κ => a < b)] [Std.Irrefl (fun a b : List κ => a < b)]
    (hsorted : l.Pairwise fun r s => key r < key s) (hrow : RowsHavePrefix key row p l)
    (hhead : ((l.head?).bind row).isSome) : rows row l = l.filterMap row := by
  cases l with
  | nil => rfl
  | cons r rest =>
    obtain ⟨z, hz⟩ := (hrow r List.mem_cons_self).mp hhead
    refine rows_eq_filterMap (z := z) hsorted hrow fun s hs => ?_
    rw [hz]
    obtain rfl | hs := List.mem_cons.mp hs
    · exact Std.Irrefl.irrefl (r := fun a b : List κ => a < b) _
    · exact Std.Asymm.asymm (r := fun a b : List κ => a < b) _ _ ((List.pairwise_cons.mp hsorted).1 s hs)

theorem rows_of_not_head (hhead : ¬ ((l.head?).bind row).isSome) : rows row l = [] := by
  cases l with
  | nil => rfl
  | cons r rest =>
    have hr : row r = none := by simpa using hhead
    rw [rows, hr]

/-! ## Seeking -/

variable [DecidableEq κ] [DecidableLT κ]

/-- The records from the first one on whose key is not below `k`. -/
def seek (key : α → List κ) (k : List κ) (l : List α) : List α :=
  l.dropWhile fun r => key r < k

theorem not_lt_of_mem_seek [IsTrans (List κ) (fun a b => a < b)] {k : List κ}
    (hsorted : l.Pairwise fun r s => key r < key s) : ∀ r ∈ seek key k l, ¬ key r < k := by
  induction l with
  | nil => exact nofun
  | cons r rest ih =>
    obtain ⟨hbefore, hrest⟩ := List.pairwise_cons.mp hsorted
    by_cases hlt : key r < k
    · rw [seek, List.dropWhile_cons_of_pos (by simpa using hlt)]
      exact ih hrest
    · rw [seek, List.dropWhile_cons_of_neg (by simpa using hlt), List.forall_mem_cons]
      exact ⟨hlt, fun s hs hs' =>
        hlt (IsTrans.trans (r := fun a b : List κ => a < b) _ _ _ (hbefore s hs) hs')⟩

/-- Seeking to a key that is not above that of any row passes over no row. -/
theorem filterMap_seek {k : List κ} (hleast : ∀ r ∈ l, (row r).isSome → ¬ key r < k) :
    (seek key k l).filterMap row = l.filterMap row := by
  induction l with
  | nil => rfl
  | cons r rest ih =>
    by_cases hlt : key r < k
    · have hr : row r = none := by
        by_contra hne
        exact hleast r List.mem_cons_self (Option.isSome_iff_ne_none.mpr hne) hlt
      rw [seek, List.dropWhile_cons_of_pos (by simpa using hlt), List.filterMap_cons_none hr]
      exact ih fun s hs => hleast s (List.mem_cons_of_mem r hs)
    · rw [seek, List.dropWhile_cons_of_neg (by simpa using hlt)]

theorem rows_seek [IsTrans (List κ) (fun a b => a < b)] (hsorted : l.Pairwise fun r s => key r < key s)
    (hrow : RowsHavePrefix key row p l) (hleast : ∀ r ∈ l, (row r).isSome → ¬ key r < p ++ z) :
    rows row (seek key (p ++ z) l) = l.filterMap row := by
  have hsub : (seek key (p ++ z) l).Sublist l := List.dropWhile_sublist _
  rw [rows_eq_filterMap (hsorted.sublist hsub) (fun r hr => hrow r (hsub.subset hr))
    (not_lt_of_mem_seek hsorted), filterMap_seek hleast]

end

/-! ## Pages as slices -/

/-- `count` entries from index `start` on, a negative index counting from the end. -/
def slice (entries : List β) (count : Nat) (start : Int) : List β :=
  (entries.drop (if 0 ≤ start then start.toNat else entries.length - start.natAbs)).take count

theorem slice_eq_nil_iff_of_neg (entries : List β) (count : Nat) {start : Int} (h : start < 0) :
    slice entries count start = [] ↔ count = 0 ∨ entries.length = 0 := by
  rw [slice, if_neg (by omega), List.take_eq_nil_iff, List.drop_eq_nil_iff]
  omega

/-- Consecutive pages, each cut off at `cap`. -/
def cappedPages (entries : List β) (count cap k : Nat) : List β :=
  (List.range k).flatMap fun i => (entries.drop (i * count)).take (min count cap)

theorem take_pages (entries : List β) (count k : Nat) :
    ((List.range k).flatMap fun i => (entries.drop (i * count)).take count) = entries.take (k * count) := by
  induction k with
  | zero => simp
  | succ k ih =>
    rw [List.range_succ, List.flatMap_append, ih, List.flatMap_singleton, Nat.succ_mul, List.take_add]

/-- The pages make up the whole list unless the cap cuts a page. -/
theorem cappedPages_eq_iff (entries : List β) (count cap : Nat) :
    (∀ k, entries.length ≤ k * count → cappedPages entries count cap k = entries) ↔
      count ≤ cap ∨ entries.length ≤ cap := by
  have hwhole : ∀ k, entries.length ≤ k * count →
      ((List.range k).flatMap fun i => (entries.drop (i * count)).take count) = entries := by
    intro k hk
    rw [take_pages, List.take_of_length_le hk]
  constructor
  · intro h
    by_contra! hcut
    have hk : entries.length ≤ entries.length * count := Nat.le_mul_of_pos_right _ (by omega)
    -- the first page is cut and no page is longer than it should be
    have hlt : (cappedPages entries count cap entries.length).length < entries.length := by
      conv_rhs => rw [← hwhole entries.length hk]
      rw [cappedPages, List.length_flatMap, List.length_flatMap]
      refine List.sum_lt_sum _ _ (fun i _ => ?_) ⟨0, List.mem_range.mpr (by omega), ?_⟩
      · rw [List.length_take, List.length_take]
        omega
      · rw [List.length_take, List.length_take, List.length_drop]
        omega
    rw [h _ hk] at hlt
    exact absurd hlt (Nat.lt_irrefl _)
  · rintro h k hk
    rw [← hwhole k hk, cappedPages, hwhole k hk]
    refine Eq.trans (congrArg (fun f => (List.range k).flatMap f) (funext fun i => ?_)) (hwhole k hk)
    rw [List.take_eq_take_iff, List.length_drop]
    omega

end Cursor
