import Mathlib.Tactic

/-!
# Sequences of checks

A function that makes one check after another and returns at the first that fails is a `do` block in
`Except`. `failIf b e` is the check `if (b) return e;`. The lemmas invert a block that passed: a
bind into its two parts, a check into its condition, a loop into its iterations.

Checks that ask a component with a state of its own (a read cache) are `do` blocks in `Checked S E`:
the state goes on after a failed check, and a block that passed inverts in the same way.
-/

set_option autoImplicit false

namespace RavenCash

section

variable {E α β : Type}

/-- `if (b) return e;` -/
def failIf (b : Bool) (e : E) : Except E Unit := if b then .error e else .ok ()

@[simp] theorem failIf_ok {b : Bool} {e : E} {u : Unit} : failIf b e = .ok u ↔ b = false := by
  cases b <;> simp [failIf]

theorem bind_ok {x : Except E α} {f : α → Except E β} {r : β} :
    (x >>= f) = .ok r ↔ ∃ a, x = .ok a ∧ f a = .ok r := by
  cases x with
  | error e => simp [bind, Except.bind]
  | ok a => simp [bind, Except.bind]

theorem pure_ok {a b : α} : (pure a : Except E α) = .ok b ↔ a = b := by
  simp [pure, Except.pure]

/-- `if (!f(…, a)) return e;` for a function that yields `a`. -/
def orFail (x : Option α) (e : E) : Except E α :=
  match x with
  | some a => .ok a
  | none => .error e

@[simp] theorem orFail_ok {x : Option α} {e : E} {a : α} : orFail x e = .ok a ↔ x = some a := by
  cases x <;> simp [orFail]

/-- `for (a : l) { check }` -/
def checkAll (check : α → Except E Unit) : List α → Except E Unit
  | [] => .ok ()
  | a :: l => do
      check a
      checkAll check l

/-- A loop of checks passes when every iteration does. -/
theorem checkAll_ok {check : α → Except E Unit} {l : List α} {u : Unit} :
    checkAll check l = .ok u ↔ ∀ a ∈ l, check a = .ok () := by
  induction l with
  | nil => simp [checkAll]
  | cons a l ih =>
      rw [checkAll, bind_ok, List.forall_mem_cons, ← ih]
      constructor
      · rintro ⟨v, ha, hl⟩
        exact ⟨ha, hl⟩
      · rintro ⟨ha, hl⟩
        exact ⟨(), ha, hl⟩

theorem map_ok {f : α → β} {x : Except E α} {b : β} :
    x.map f = .ok b ↔ ∃ a, x = .ok a ∧ f a = b := by
  cases x <;> simp [Except.map]

@[simp] theorem mapError_ok {E' : Type} {f : E → E'} {x : Except E α} {a : α} :
    x.mapError f = .ok a ↔ x = .ok a := by
  cases x <;> simp [Except.mapError]

/-- A loop that can fail keeps what every iteration that does not fail keeps. -/
theorem foldlM_keeps {P : β → Prop} {step : β → α → Option β} {l : List α}
    (hstep : ∀ b a b', a ∈ l → P b → step b a = some b' → P b') {b b' : β} (hb : P b)
    (h : l.foldlM step b = some b') : P b' := by
  induction l generalizing b with
  | nil =>
      rw [List.foldlM_nil, Option.pure_def, Option.some.injEq] at h
      rw [← h]
      exact hb
  | cons a l ih =>
      rw [List.foldlM_cons, Option.bind_eq_bind, Option.bind_eq_some_iff] at h
      obtain ⟨b₁, ha, hrest⟩ := h
      exact ih (fun b a' b' hmem => hstep b a' b' (List.mem_cons_of_mem a hmem))
        (hstep b a b₁ List.mem_cons_self hb ha) hrest

end

/-! ## Checks with a state -/

/-- A check that runs in a state `S` and fails with an `E`. -/
def Checked (S E α : Type) : Type := S → Except E α × S

namespace Checked

variable {S E α β : Type}

instance : Monad (Checked S E) where
  pure a := fun s => (.ok a, s)
  bind x f := fun s =>
    match x s with
    | (.ok a, s) => f a s
    | (.error e, s) => (.error e, s)

/-- A check that does not look at the state. -/
def lift (x : Except E α) : Checked S E α := fun s => (x, s)

/-- A question to the component that has the state. -/
def ask (q : S → α × S) : Checked S E α := fun s => (.ok (q s).1, (q s).2)

theorem bind_ok {x : Checked S E α} {f : α → Checked S E β} {s s' : S} {r : β} :
    (x >>= f) s = (.ok r, s') ↔ ∃ a t, x s = (.ok a, t) ∧ f a t = (.ok r, s') := by
  show (match x s with
    | (.ok a, s) => f a s
    | (.error e, s) => (.error e, s)) = (.ok r, s') ↔ _
  rcases hx : x s with ⟨e | a, t⟩
  · simp
  · constructor
    · intro h
      exact ⟨a, t, rfl, h⟩
    · rintro ⟨a', t', heq, h⟩
      simp only [Prod.mk.injEq, Except.ok.injEq] at heq
      obtain ⟨rfl, rfl⟩ := heq
      exact h

theorem bind_of_ok {x : Checked S E α} {f : α → Checked S E β} {s t : S} {a : α} (h : x s = (.ok a, t)) :
    (x >>= f) s = f a t := by
  show (match x s with
    | (.ok a, s) => f a s
    | (.error e, s) => (.error e, s)) = f a t
  rw [h]

theorem bind_of_error {x : Checked S E α} {f : α → Checked S E β} {s : S} {e : E} (h : (x s).1 = .error e) :
    ((x >>= f) s).1 = .error e := by
  show (match x s with
    | (.ok a, s) => f a s
    | (.error e, s) => (.error e, s)).1 = .error e
  rcases hx : x s with ⟨r, t⟩
  rw [hx] at h
  obtain rfl : r = .error e := h
  rfl

@[simp] theorem pure_ok {a b : α} {s s' : S} :
    (pure a : Checked S E α) s = (.ok b, s') ↔ a = b ∧ s = s' := by
  show ((Except.ok a : Except E α), s) = (.ok b, s') ↔ _
  simp

@[simp] theorem lift_ok {x : Except E α} {a : α} {s s' : S} :
    lift x s = (.ok a, s') ↔ x = .ok a ∧ s = s' := by
  simp [lift]

/-- The same check under another error. -/
def mapError {E' : Type} (f : E → E') (x : Checked S E α) : Checked S E' α :=
  fun s => ((x s).1.mapError f, (x s).2)

@[simp] theorem mapError_ok {E' : Type} {f : E → E'} {x : Checked S E α} {a : α} {s s' : S} :
    mapError f x s = (.ok a, s') ↔ x s = (.ok a, s') := by
  simp only [mapError, Prod.ext_iff, RavenCash.mapError_ok]

theorem ask_ok {q : S → α × S} {a : α} {s s' : S} :
    (ask q : Checked S E α) s = (.ok a, s') ↔ q s = (a, s') := by
  simp [ask, Prod.ext_iff]

/-- A check that does not look at the state, followed by others. -/
@[simp] theorem lift_bind_ok {x : Except E α} {f : α → Checked S E β} {s s' : S} {r : β} :
    (lift x >>= f) s = (.ok r, s') ↔ ∃ a, x = .ok a ∧ f a s = (.ok r, s') := by
  rw [bind_ok]
  constructor
  · rintro ⟨a, t, hx, hf⟩
    obtain ⟨ha, rfl⟩ := lift_ok.mp hx
    exact ⟨a, ha, hf⟩
  · rintro ⟨a, ha, hf⟩
    exact ⟨a, s, lift_ok.mpr ⟨ha, rfl⟩, hf⟩

/-- A question, followed by checks of the answer. -/
@[simp] theorem ask_bind_ok {q : S → α × S} {f : α → Checked S E β} {s s' : S} {r : β} :
    (ask q >>= f) s = (.ok r, s') ↔ f (q s).1 (q s).2 = (.ok r, s') := by
  rw [bind_ok]
  constructor
  · rintro ⟨a, t, hq, hf⟩
    rw [ask_ok.mp hq]
    exact hf
  · intro hf
    exact ⟨(q s).1, (q s).2, ask_ok.mpr rfl, hf⟩

/-- `for (a : l) { acc = step(acc, a); }` -/
def foldChecks (step : β → α → Checked S E β) : β → List α → Checked S E β
  | acc, [] => pure acc
  | acc, a :: l => do
      let acc ← step acc a
      foldChecks step acc l

/-- **What a loop of checks keeps**: if every iteration on an element of the list that passes keeps
the relation between the elements seen, the accumulator and the state, so does the loop. -/
theorem foldChecks_run {step : β → α → Checked S E β} {R : List α → β → S → Prop} {l : List α}
    {init r : β} {s s' : S} (hinit : R [] init s)
    (hstep : ∀ seen a acc acc' t t', a ∈ l → R seen acc t → step acc a t = (.ok acc', t') →
      R (seen ++ [a]) acc' t')
    (h : foldChecks step init l s = (.ok r, s')) : R l r s' := by
  -- the statement for a loop that has already seen some elements
  suffices hgen : ∀ (rest seen : List α) (acc : β) (t : S), rest ⊆ l → R seen acc t →
      foldChecks step acc rest t = (.ok r, s') → R (seen ++ rest) r s' by
    simpa using hgen l [] init s (List.Subset.refl l) hinit h
  intro rest
  induction rest with
  | nil =>
      intro seen acc t _ hR hrun
      rw [foldChecks, pure_ok] at hrun
      obtain ⟨rfl, rfl⟩ := hrun
      rw [List.append_nil]
      exact hR
  | cons a rest ih =>
      intro seen acc t hsub hR hrun
      rw [foldChecks, bind_ok] at hrun
      obtain ⟨acc', t', ha, hrest⟩ := hrun
      have ha_mem : a ∈ l := hsub List.mem_cons_self
      have hR' := hstep seen a acc acc' t t' ha_mem hR ha
      have hrec := ih (seen ++ [a]) acc' t'
        (fun x hx => hsub (List.mem_cons_of_mem a hx)) hR' hrest
      rw [List.append_assoc] at hrec
      exact hrec

/-- What a loop of checks keeps of the accumulator. -/
theorem foldChecks_induction {step : β → α → Checked S E β} {R : List α → β → Prop} {l : List α}
    {init r : β} {s s' : S} (hinit : R [] init)
    (hstep : ∀ seen a acc acc' t t', a ∈ l → R seen acc → step acc a t = (.ok acc', t') →
      R (seen ++ [a]) acc')
    (h : foldChecks step init l s = (.ok r, s')) : R l r :=
  foldChecks_run (R := fun seen acc _ => R seen acc) hinit hstep h

/-- **Two loops side by side**: if each iteration of the first that passes is one of the second from
a related accumulator, and leaves related ones, so is the whole loop. -/
theorem foldChecks_simulation {γ : Type} {step : β → α → Checked S E β}
    (step' : γ → α → Checked S E γ) {R : β → γ → Prop} {l : List α}
    (hstep : ∀ acc acc' r a t t', a ∈ l → R acc acc' → step acc a t = (.ok r, t') →
      ∃ r', step' acc' a t = (.ok r', t') ∧ R r r')
    {init r : β} {init' : γ} {s s' : S} (hinit : R init init')
    (h : foldChecks step init l s = (.ok r, s')) :
    ∃ r', foldChecks step' init' l s = (.ok r', s') ∧ R r r' := by
  induction l generalizing init init' s with
  | nil =>
      rw [foldChecks, pure_ok] at h
      obtain ⟨rfl, rfl⟩ := h
      exact ⟨init', rfl, hinit⟩
  | cons a l ih =>
      rw [foldChecks, bind_ok] at h
      obtain ⟨acc, t, ha, hrest⟩ := h
      obtain ⟨acc', ha', hR⟩ := hstep init init' acc a s t List.mem_cons_self hinit ha
      obtain ⟨r', hrest', hRr⟩ := ih
        (fun acc acc' r b t t' hb => hstep acc acc' r b t t' (List.mem_cons_of_mem a hb)) hR hrest
      refine ⟨r', ?_, hRr⟩
      rw [foldChecks, bind_ok]
      exact ⟨acc', t, ha', hrest'⟩

/-- **What a check keeps of the state**, whether it passes or not. -/
def Keeps (P : S → Prop) (x : Checked S E α) : Prop := ∀ s, P s → P (x s).2

section Keeps

variable {P : S → Prop}

theorem keeps_pure (a : α) : Keeps P (pure a : Checked S E α) := fun _ h => h

theorem keeps_lift (x : Except E α) : Keeps P (lift x) := fun _ h => h

theorem keeps_ask {q : S → α × S} (h : ∀ s, P s → P (q s).2) :
    Keeps P (ask q : Checked S E α) := h

theorem keeps_bind {x : Checked S E α} {f : α → Checked S E β} (hx : Keeps P x)
    (hf : ∀ a, Keeps P (f a)) : Keeps P (x >>= f) := by
  intro s hs
  show P (match x s with
    | (.ok a, s) => f a s
    | (.error e, s) => (.error e, s)).2
  have hafter := hx s hs
  rcases hrun : x s with ⟨e | a, t⟩
  · rw [hrun] at hafter
    exact hafter
  · rw [hrun] at hafter
    exact hf a t hafter

theorem keeps_foldChecks {step : β → α → Checked S E β}
    (hstep : ∀ acc a, Keeps P (step acc a)) (init : β) (l : List α) :
    Keeps P (foldChecks step init l) := by
  induction l generalizing init with
  | nil => exact keeps_pure init
  | cons a l ih => exact keeps_bind (hstep init a) ih

end Keeps

/-- `for (a : l) { check }` -/
def forEach (check : α → Checked S E Unit) (l : List α) : Checked S E Unit :=
  foldChecks (fun _ a => check a) () l

theorem keeps_forEach {P : S → Prop} {check : α → Checked S E Unit}
    (h : ∀ a, Keeps P (check a)) (l : List α) : Keeps P (forEach check l) :=
  keeps_foldChecks (fun _ a => h a) () l

end Checked

end RavenCash
