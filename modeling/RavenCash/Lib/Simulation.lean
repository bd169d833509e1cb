import Mathlib.Data.List.Basic

/-!
# Runs and simulation

A machine takes one operation at a time; it may fail, and otherwise answers and moves on. A
specification answers every operation. If one step of the machine gives the answer of the
specification and keeps the two states related, so does every run of operations that the callers are
allowed to make.

For a machine that never stops, what one step keeps under a condition holds after every run whose
steps all meet the condition.
-/

set_option autoImplicit false

namespace Simulation

variable {S A Op Ans : Type}

/-- The answers to a sequence of operations and the state after it; `none` when one fails. -/
def run (step : S → Op → Option (Ans × S)) : S → List Op → Option (List Ans × S)
  | s, [] => some ([], s)
  | s, op :: ops =>
      match step s op with
      | none => none
      | some (ans, s) => (run step s ops).map (fun r => (ans :: r.1, r.2))

/-- What the specification answers, and its state after the operations. -/
def specRun (spec : A → Op → Ans × A) : A → List Op → List Ans × A
  | a, [] => ([], a)
  | a, op :: ops =>
      let r := specRun spec (spec a op).2 ops
      ((spec a op).1 :: r.1, r.2)

/-- Every operation is one the callers may make in the state it is made in. -/
def Allowed (spec : A → Op → Ans × A) (allowed : A → Op → Prop) : A → List Op → Prop
  | _, [] => True
  | a, op :: ops => allowed a op ∧ Allowed spec allowed (spec a op).2 ops

/-- One step of the machine simulates one step of the specification. -/
def Refines (step : S → Op → Option (Ans × S)) (spec : A → Op → Ans × A) (allowed : A → Op → Prop)
    (R : S → A → Prop) : Prop :=
  ∀ s a op, R s a → allowed a op → ∃ s', step s op = some ((spec a op).1, s') ∧ R s' (spec a op).2

/-- **A simulation of steps is one of runs**: no operation fails, the answers agree and the final
states are related. -/
theorem Refines.run {step : S → Op → Option (Ans × S)} {spec : A → Op → Ans × A}
    {allowed : A → Op → Prop} {R : S → A → Prop} (h : Refines step spec allowed R) {s : S} {a : A}
    {ops : List Op} (hR : R s a) (hops : Allowed spec allowed a ops) :
    ∃ s', run step s ops = some ((specRun spec a ops).1, s') ∧ R s' (specRun spec a ops).2 := by
  induction ops generalizing s a with
  | nil => exact ⟨s, rfl, hR⟩
  | cons op ops ih =>
      obtain ⟨hop, hops⟩ := hops
      obtain ⟨s₁, hstep, hR₁⟩ := h s a op hR hop
      obtain ⟨s', hrun, hR'⟩ := ih hR₁ hops
      refine ⟨s', ?_, hR'⟩
      rw [Simulation.run, hstep]
      simp only [hrun, Option.map_some]
      rfl

/-! ## Invariants -/

/-- The state after a sequence of operations of a machine that never stops. -/
def exec (step : S → Op → S) : S → List Op → S
  | s, [] => s
  | s, op :: ops => exec step (step s op) ops

/-- A simulation of all operations, with the specification as a machine that never stops. -/
theorem Refines.run_exec {step : S → Op → Option (Ans × S)} {spec : A → Op → Ans × A} {R : S → A → Prop}
    (h : Refines step spec (fun _ _ => True) R) {s : S} {a : A} (hR : R s a) (ops : List Op) :
    ∃ s', Simulation.run step s ops = some ((specRun spec a ops).1, s') ∧
      R s' (exec (fun a op => (spec a op).2) a ops) := by
  have hallowed : Allowed spec (fun _ _ => True) a ops := by
    clear hR
    induction ops generalizing a with
    | nil => trivial
    | cons op ops ih => exact ⟨trivial, ih⟩
  have hexec : (specRun spec a ops).2 = exec (fun a op => (spec a op).2) a ops := by
    clear hR hallowed
    induction ops generalizing a with
    | nil => rfl
    | cons op ops ih => exact ih
  exact hexec ▸ h.run hR hallowed

/-- Every operation meets the condition in the state it is made in. -/
def Throughout (step : S → Op → S) (cond : S → Op → Prop) : S → List Op → Prop
  | _, [] => True
  | s, op :: ops => cond s op ∧ Throughout step cond (step s op) ops

instance decidableThroughout (step : S → Op → S) (cond : S → Op → Prop)
    [∀ s op, Decidable (cond s op)] : ∀ s ops, Decidable (Throughout step cond s ops)
  | _, [] => inferInstanceAs (Decidable True)
  | s, op :: ops =>
      have := decidableThroughout step cond (step s op) ops
      inferInstanceAs (Decidable (cond s op ∧ Throughout step cond (step s op) ops))

theorem exec_append (step : S → Op → S) (s : S) (before after : List Op) :
    exec step s (before ++ after) = exec step (exec step s before) after := by
  induction before generalizing s with
  | nil => rfl
  | cons op before ih => exact ih (step s op)

theorem throughout_append {step : S → Op → S} {cond : S → Op → Prop} {s : S}
    {before after : List Op} : Throughout step cond s (before ++ after) ↔
      Throughout step cond s before ∧ Throughout step cond (exec step s before) after := by
  induction before generalizing s with
  | nil => exact ⟨fun h => ⟨trivial, h⟩, And.right⟩
  | cons op before ih =>
      show cond s op ∧ Throughout step cond (step s op) (before ++ after) ↔ _
      rw [ih, ← and_assoc]
      rfl

/-- A condition on every operation of a run, by the states the operations are made in. -/
theorem throughout_iff {step : S → Op → S} {cond : S → Op → Prop} {s : S} {ops : List Op} :
    Throughout step cond s ops ↔
      ∀ before op after, ops = before ++ op :: after → cond (exec step s before) op := by
  constructor
  · rintro h before op after rfl
    exact (throughout_append.mp h).2.1
  · induction ops generalizing s with
    | nil => exact fun _ => trivial
    | cons op ops ih =>
      intro h
      refine ⟨h [] op ops rfl, ih fun before op' after hops => ?_⟩
      exact h (op :: before) op' after (congrArg (op :: ·) hops)

/-- **What a step keeps, a run keeps.** -/
theorem exec_invariant {step : S → Op → S} {cond : S → Op → Prop} {I : S → Prop}
    (hstep : ∀ s op, I s → cond s op → I (step s op)) {s : S} {ops : List Op} (hs : I s)
    (hops : Throughout step cond s ops) : I (exec step s ops) := by
  induction ops generalizing s with
  | nil => exact hs
  | cons op ops ih =>
      obtain ⟨hop, hrest⟩ := hops
      exact ih (hstep s op hs hop) hrest

/-- **Two machines side by side.** What one can see of them agrees after every part of a run if and only if every
step meets the condition, where an invariant gives the agreement, a step that meets the condition keeps the invariant,
and one that does not ends the agreement. -/
theorem agree_iff {step : S → Op → S} {spec : A → Op → A} {cond : S → Op → Prop} {I P : S → A → Prop}
    (hagree : ∀ s a, I s a → P s a) (hstep : ∀ s a op, I s a → cond s op → I (step s op) (spec a op))
    (hcond : ∀ s a op, I s a → P (step s op) (spec a op) → cond s op) {s : S} {a : A} {ops : List Op} (hs : I s a) :
    (∀ before after, ops = before ++ after → P (exec step s before) (exec spec a before)) ↔
      Throughout step cond s ops := by
  induction ops generalizing s a with
  | nil =>
      refine ⟨fun _ => trivial, fun _ before after h => ?_⟩
      obtain rfl : before = [] := (List.append_eq_nil_iff.mp h.symm).1
      exact hagree s a hs
  | cons op ops ih =>
      constructor
      · intro h
        have hop := hcond s a op hs (h [op] ops rfl)
        exact ⟨hop, (ih (hstep s a op hs hop)).mp fun before after hops =>
          h (op :: before) after (congrArg (op :: ·) hops)⟩
      · rintro ⟨hop, hrest⟩ before after hops
        cases before with
        | nil => exact hagree s a hs
        | cons op' before =>
            obtain ⟨rfl, htail⟩ := List.cons.inj hops
            exact (ih (hstep s a op hs hop)).mpr hrest before after htail

/-- Where a step keeps the invariant if and only if it meets the condition, the invariant holds in every
state of a run if and only if every step meets it. -/
theorem invariant_iff {step : S → Op → S} {cond : S → Op → Prop} {I : S → Prop}
    (hstep : ∀ s op, I s → (I (step s op) ↔ cond s op)) {s : S} {ops : List Op} (hs : I s) :
    (∀ before after, ops = before ++ after → I (exec step s before)) ↔ Throughout step cond s ops :=
  -- beside a machine that does nothing
  @agree_iff S Unit Op step (fun _ _ => ()) cond (fun s _ => I s) (fun s _ => I s) (fun _ _ h => h)
    (fun s _ op h hop => (hstep s op h).mpr hop) (fun s _ op h h' => (hstep s op h).mp h') s () ops hs

end Simulation
