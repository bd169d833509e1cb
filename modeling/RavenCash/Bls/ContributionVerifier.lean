import RavenCash.Lib.Checks

/-!
# Verification of contribution shares

`ContributionVerifier` of `bls/bls_worker.cpp`. The inputs are cut into batches of eight. The vectors and the shares of
a batch are aggregated by two tasks of the worker pool; the second one to finish has the aggregate verified, and if that
fails the entries are verified one by one. Every verification adds to a counter, and the callback is called when the
counter reaches the number of inputs.

A task of the pool is one step, and a schedule is any order of them. An aggregation of at most eight inputs is a single
task in `Aggregator`; the tasks for the entries of a vector are taken as one.
-/

set_option autoImplicit false

namespace RavenCash.Bls

/-- What is asked of vectors and shares, for one id. -/
structure ShareOps (V S : Type) where
  /-- `CBLSSecretKey::IsValid` -/
  isValid : S → Bool
  /-- `AggregateInsecure` -/
  addShare : S → S → S
  /-- entry by entry -/
  addVvec : V → V → V
  isEmpty : V → Bool
  /-- The share matches the vector. -/
  verify : V → S → Bool

inductive Task where
  | aggVvec
  | aggSkShare
  | verifyBatch
  | verifyOne (i : Nat)
deriving DecidableEq, Repr

/-- A batch with its inputs, and with its tasks in the pool. -/
structure BatchState (V S : Type) where
  inputs : List (V × S)
  vvec : Option V := none
  skShare : Option S := none
  aggDone : Nat := 0
  verifyResults : List Bool
  queue : List Task := []

structure Verifier (V S : Type) where
  batchStates : List (BatchState V S) := []
  verifyDoneCount : Nat := 0
  /-- The results the callback was called with. -/
  done : List (List Bool) := []

/-- The aggregate of a list that has an element. -/
def syncAggregate {α : Type} (add : α → α → α) : List α → Option α
  | [] => none
  | a :: l => some (l.foldl add a)

section

variable {V S : Type} (ops : ShareOps V S)

namespace BatchState

/-- Verification one by one is started. -/
def asyncVerifyBatchOneByOne (st : BatchState V S) : BatchState V S :=
  { st with
    verifyResults := List.replicate st.inputs.length false
    queue := st.queue ++ (List.range st.inputs.length).map Task.verifyOne }

/-- The number is what is added to `verifyDoneCount`. -/
def handleAggDone (st : BatchState V S) : BatchState V S × Nat :=
  match st.vvec, st.skShare with
  | some vvec, some skShare =>
      if ops.isEmpty vvec || !ops.isValid skShare then
        ({ st with verifyResults := List.replicate st.inputs.length false }, st.inputs.length)
      else ({ st with queue := st.queue ++ [.verifyBatch] }, 0)
  | _, _ => ({ st with verifyResults := List.replicate st.inputs.length false }, st.inputs.length)

/-- One of the two aggregations has finished. -/
def handleAgg (st : BatchState V S) : BatchState V S × Nat :=
  let st := { st with aggDone := st.aggDone + 1 }
  if st.aggDone = 2 then st.handleAggDone ops else (st, 0)

/-- A task is run; `none` if an assertion fails: two shares are only added if both are valid. -/
def run (st : BatchState V S) : Task → Option (BatchState V S × Nat)
  | .aggVvec => some (handleAgg ops { st with vvec := syncAggregate ops.addVvec (st.inputs.map Prod.fst) })
  | .aggSkShare =>
      if decide (st.inputs.length ≤ 1) || st.inputs.all fun p => ops.isValid p.2 then
        some (handleAgg ops { st with skShare := syncAggregate ops.addShare (st.inputs.map Prod.snd) })
      else none
  | .verifyBatch =>
      match st.vvec, st.skShare with
      | some vvec, some skShare =>
          if ops.verify vvec skShare then
            some ({ st with verifyResults := List.replicate st.inputs.length true }, st.inputs.length)
          else some (st.asyncVerifyBatchOneByOne, 0)
      | _, _ => some (st.asyncVerifyBatchOneByOne, 0)
  | .verifyOne i =>
      some ({ st with verifyResults := st.verifyResults.set i ((st.inputs[i]?).any fun p => ops.verify p.1 p.2) }, 1)

end BatchState

namespace Verifier

/-- The result is put together from those of the batches. -/
def handleVerifyDone (verifyCount count : Nat) (v : Verifier V S) : Verifier V S :=
  if count = 0 then v
  else
    let v := { v with verifyDoneCount := v.verifyDoneCount + count }
    if v.verifyDoneCount = verifyCount then
      { v with done := v.done ++ [v.batchStates.flatMap BatchState.verifyResults] }
    else v

/-- A worker takes a task of a batch, if there is one at this place. -/
def step (verifyCount : Nat) (v : Verifier V S) (p : Nat × Nat) : Option (Verifier V S) :=
  match v.batchStates[p.1]? with
  | none => some v
  | some st =>
      match st.queue[p.2]? with
      | none => some v
      | some task =>
          (BatchState.run ops { st with queue := st.queue.eraseIdx p.2 } task).map fun r =>
            handleVerifyDone verifyCount r.2 { v with batchStates := v.batchStates.set p.1 r.1 }

end Verifier

/-- The inputs of the batches. Without aggregation all inputs are one large batch. -/
def batches (aggregated : Bool) (inputs : List (V × S)) : List (List (V × S)) :=
  if aggregated then (List.range ((inputs.length + 8 - 1) / 8)).map fun i => (inputs.drop (i * 8)).take 8 else [inputs]

/-- The first vector has no entries. -/
def firstEmpty (inputs : List (V × S)) : Bool := inputs.head?.any fun p => ops.isEmpty p.1

/-- `ContributionVerifier::Start`. `VectorAggregator` starts a task for each entry of the first vector, and only the
last of them calls back. -/
def start (aggregated : Bool) (inputs : List (V × S)) : Verifier V S where
  batchStates := (batches aggregated inputs).map fun l =>
    let st : BatchState V S := { inputs := l, verifyResults := List.replicate l.length false }
    if aggregated then
      { st with queue := if firstEmpty ops inputs then [.aggSkShare] else [.aggVvec, .aggSkShare] }
    else st.asyncVerifyBatchOneByOne

/-- `accepted` is whether the id and the vectors pass. -/
def asyncVerifyContributionShares (accepted aggregated : Bool) (inputs : List (V × S)) : Verifier V S :=
  if accepted then start ops aggregated inputs else { done := [inputs.map fun _ => false] }

/-! ## What the callback gets -/

def verifyEach (l : List (V × S)) : List Bool := l.map fun p => ops.verify p.1 p.2

/-- The results of a batch. -/
def batchResults (l : List (V × S)) : List Bool :=
  match syncAggregate ops.addVvec (l.map Prod.fst), syncAggregate ops.addShare (l.map Prod.snd) with
  | some vvec, some skShare =>
      if ops.isEmpty vvec || !ops.isValid skShare then List.replicate l.length false
      else if ops.verify vvec skShare then List.replicate l.length true
      else verifyEach ops l
  | _, _ => List.replicate l.length false

def verifyContributionShares (accepted aggregated : Bool) (inputs : List (V × S)) : List Bool :=
  if accepted then
    (batches aggregated inputs).flatMap fun l => if aggregated then batchResults ops l else verifyEach ops l
  else inputs.map fun _ => false

/-- The shares of each batch that has two can be added. -/
def CanAggregate (l : List (V × S)) : Prop := l.length ≤ 1 ∨ ∀ p ∈ l, ops.isValid p.2 = true

/-- The weight of a task and of those that follow from it. -/
def Task.weight (count : Nat) : Task → Nat
  | aggVvec | aggSkShare => count + 2
  | verifyBatch => count + 1
  | verifyOne _ => 1

def BatchState.work (st : BatchState V S) : Nat := (st.queue.map (Task.weight st.inputs.length)).sum

def Verifier.work (v : Verifier V S) : Nat := (v.batchStates.map BatchState.work).sum

/-- **The callback is called exactly once in every schedule**: no assertion fails, the callback is called at most once,
every task leaves less work, and when there is none left the callback has been called. -/
structure CompletesOnce (verifyCount : Nat) (v₀ : Verifier V S) (result : List Bool) : Prop where
  alive : ∀ schedule, (List.foldlM (Verifier.step ops verifyCount) v₀ schedule).isSome = true
  once : ∀ schedule v, List.foldlM (Verifier.step ops verifyCount) v₀ schedule = some v →
    v.done = [] ∨ v.done = [result]
  ends : ∀ schedule v p v', List.foldlM (Verifier.step ops verifyCount) v₀ schedule = some v →
    (∃ st ∈ v.batchStates[p.1]?, p.2 < st.queue.length) → v.step ops verifyCount p = some v' → v'.work < v.work
  called : ∀ schedule v, List.foldlM (Verifier.step ops verifyCount) v₀ schedule = some v →
    (∀ st ∈ v.batchStates, st.queue = []) → v.done = [result]

/-! ## Batches -/

variable {ops}

theorem batches_nil : batches true ([] : List (V × S)) = [] := by
  simp [batches]

theorem batches_of_ne_nil {inputs : List (V × S)} (h : inputs ≠ []) :
    batches true inputs = inputs.take 8 :: batches true (inputs.drop 8) := by
  have hpos := List.length_pos_iff.mpr h
  have hcount : (inputs.length + 8 - 1) / 8 = ((inputs.drop 8).length + 8 - 1) / 8 + 1 := by
    rw [List.length_drop]
    omega
  simp only [batches, if_true]
  rw [hcount, List.range_succ_eq_map, List.map_cons, List.map_map]
  refine congrArg₂ _ (by simp) (List.map_congr_left fun i _ => ?_)
  simp only [Function.comp_apply, List.drop_drop]
  congr 2
  omega

theorem flatten_batches (aggregated : Bool) (inputs : List (V × S)) : (batches aggregated inputs).flatten = inputs := by
  cases aggregated with
  | false => simp [batches]
  | true =>
    induction hn : inputs.length using Nat.strong_induction_on generalizing inputs with
    | _ n ih =>
      by_cases hnil : inputs = []
      · rw [hnil, batches_nil]
        rfl
      · have hpos := List.length_pos_iff.mpr hnil
        rw [batches_of_ne_nil hnil, List.flatten_cons,
          ih (inputs.drop 8).length (by rw [List.length_drop]; omega) _ rfl, List.take_append_drop]

/-- No batch is empty. -/
theorem ne_nil_of_mem_batches {aggregated : Bool} {inputs l : List (V × S)} (h : inputs ≠ [])
    (hl : l ∈ batches aggregated inputs) : l ≠ [] := by
  cases aggregated with
  | false => rwa [List.mem_singleton.mp hl]
  | true =>
    obtain ⟨i, hi, rfl⟩ := List.mem_map.mp hl
    have hlt := List.mem_range.mp hi
    intro hnil
    have hlength := congrArg List.length hnil
    rw [List.length_take, List.length_drop, List.length_nil] at hlength
    omega

/-! ## One batch -/

def Task.isVerifyOne : Task → Bool
  | verifyOne _ => true
  | _ => false

/-- What a batch still adds to the counter. -/
def BatchState.owed (st : BatchState V S) : Nat :=
  if st.queue.all Task.isVerifyOne then st.queue.length else st.inputs.length

/-- How far a batch is. -/
inductive Phase (ops : ShareOps V S) (spec : List (V × S) → List Bool) : BatchState V S → Prop
  | start (l : List (V × S)) (r : List Bool) (hcan : CanAggregate ops l) (hspec : spec l = batchResults ops l) :
      Phase ops spec ⟨l, none, none, 0, r, [.aggVvec, .aggSkShare]⟩
  | vvecDone (l : List (V × S)) (r : List Bool) (hcan : CanAggregate ops l) (hspec : spec l = batchResults ops l) :
      Phase ops spec ⟨l, syncAggregate ops.addVvec (l.map Prod.fst), none, 1, r, [.aggSkShare]⟩
  | skShareDone (l : List (V × S)) (r : List Bool) (hspec : spec l = batchResults ops l) :
      Phase ops spec ⟨l, none, syncAggregate ops.addShare (l.map Prod.snd), 1, r, [.aggVvec]⟩
  | verifying (l : List (V × S)) (r : List Bool) (vvec : V) (skShare : S)
      (hspec : spec l = if ops.verify vvec skShare then List.replicate l.length true else verifyEach ops l) :
      Phase ops spec ⟨l, some vvec, some skShare, 2, r, [.verifyBatch]⟩
  | oneByOne (l : List (V × S)) (vvec : Option V) (skShare : Option S) (aggDone : Nat) (r : List Bool) (left : List Nat)
      (hnodup : left.Nodup) (hleft : ∀ i ∈ left, i < l.length) (hlength : r.length = l.length)
      (hr : ∀ i, i ∉ left → r[i]? = (verifyEach ops l)[i]?) (hspec : spec l = verifyEach ops l) :
      Phase ops spec ⟨l, vvec, skShare, aggDone, r, left.map .verifyOne⟩
  | done (l : List (V × S)) (vvec : Option V) (skShare : Option S) (aggDone : Nat) :
      Phase ops spec ⟨l, vvec, skShare, aggDone, spec l, []⟩

variable {spec : List (V × S) → List Bool} {st : BatchState V S}

theorem length_verifyEach (l : List (V × S)) : (verifyEach ops l).length = l.length := List.length_map _

theorem all_map_verifyOne (left : List Nat) : (left.map Task.verifyOne).all Task.isVerifyOne = true := by
  simp [Task.isVerifyOne]

theorem sum_map_weight_verifyOne (count : Nat) (left : List Nat) :
    ((left.map Task.verifyOne).map (Task.weight count)).sum = left.length := by
  induction left with
  | nil => rfl
  | cons i left ih =>
    simp only [List.map_cons, List.sum_cons, ih, List.length_cons, Task.weight]
    omega

theorem canAggregate_iff {l : List (V × S)} :
    CanAggregate ops l ↔ (decide (l.length ≤ 1) || l.all fun p => ops.isValid p.2) = true := by
  rw [CanAggregate, Bool.or_eq_true, decide_eq_true_iff, List.all_eq_true]

/-- A batch that owes nothing is done. -/
theorem Phase.of_owed_eq_zero (h : Phase ops spec st) (hne : st.inputs ≠ []) (howed : st.owed = 0) :
    st.queue = [] ∧ st.verifyResults = spec st.inputs := by
  have hpos := List.length_pos_iff.mpr hne
  cases h with
  | oneByOne l vvec skShare aggDone r left hnodup hleft hlength hr hspec =>
    unfold BatchState.owed at howed
    rw [if_pos (all_map_verifyOne left), List.length_map, List.length_eq_zero_iff] at howed
    subst howed
    refine ⟨rfl, ?_⟩
    show r = spec l
    rw [hspec]
    exact List.ext_getElem? fun i => hr i List.not_mem_nil
  | done => exact ⟨rfl, rfl⟩
  | _ =>
    simp only [BatchState.owed, List.all_cons, Task.isVerifyOne, Bool.false_and, Bool.false_eq_true,
      if_false] at howed hpos
    omega

/-- Both aggregates of a batch are there. -/
theorem phase_handleAggDone {l : List (V × S)} (hne : l ≠ []) (r : List Bool) (hspec : spec l = batchResults ops l) :
    ∃ out, BatchState.handleAggDone ops ⟨l, syncAggregate ops.addVvec (l.map Prod.fst),
        syncAggregate ops.addShare (l.map Prod.snd), 2, r, []⟩ = out ∧
      Phase ops spec out.1 ∧ out.1.inputs = l ∧ l.length = out.2 + out.1.owed ∧ out.1.work < l.length + 2 := by
  obtain ⟨p, l, rfl⟩ := List.exists_cons_of_ne_nil hne
  refine ⟨_, rfl, ?_⟩
  simp only [BatchState.handleAggDone, List.map_cons, syncAggregate]
  simp only [batchResults, List.map_cons, syncAggregate] at hspec
  split_ifs with hbad
  · rw [if_pos hbad] at hspec
    rw [← hspec]
    exact ⟨.done _ _ _ _, rfl, rfl, by simp [BatchState.work]⟩
  · rw [if_neg hbad] at hspec
    exact ⟨.verifying _ _ _ _ hspec, rfl, by simp [BatchState.owed, Task.isVerifyOne],
      by simp [BatchState.work, Task.weight]⟩

/-- **A task of a batch**: the batch goes on, it has less work, and what it adds to the counter it no longer owes. -/
theorem Phase.run {task : Task} {k : Nat} (h : Phase ops spec st) (hne : st.inputs ≠ [])
    (htask : st.queue[k]? = some task) :
    ∃ out, BatchState.run ops { st with queue := st.queue.eraseIdx k } task = some out ∧ Phase ops spec out.1 ∧
      out.1.inputs = st.inputs ∧ st.owed = out.2 + out.1.owed ∧ out.1.work < st.work := by
  cases h with
  | start l r hcan hspec =>
    rcases k with _ | _ | k
    · obtain rfl := Option.some.inj htask
      exact ⟨(⟨l, _, none, 1, r, _⟩, 0), rfl, .vvecDone l r hcan hspec,
        rfl, by simp [BatchState.owed, Task.isVerifyOne],
        by simp [BatchState.work, Task.weight]⟩
    · obtain rfl := Option.some.inj htask
      exact ⟨(⟨l, none, _, 1, r, _⟩, 0), if_pos (canAggregate_iff.mp hcan), .skShareDone l r hspec, rfl,
        by simp [BatchState.owed, Task.isVerifyOne], by simp [BatchState.work, Task.weight]⟩
    · cases htask
  | vvecDone l r hcan hspec =>
    rcases k with _ | k
    · obtain rfl := Option.some.inj htask
      obtain ⟨out, hout, hphase, hinputs, howed, hwork⟩ := phase_handleAggDone hne r hspec
      refine ⟨out, (if_pos (canAggregate_iff.mp hcan)).trans (congrArg some hout), hphase, hinputs, howed, ?_⟩
      simpa [BatchState.work, Task.weight] using hwork
    · cases htask
  | skShareDone l r hspec =>
    rcases k with _ | k
    · obtain rfl := Option.some.inj htask
      obtain ⟨out, hout, hphase, hinputs, howed, hwork⟩ := phase_handleAggDone hne r hspec
      refine ⟨out, congrArg some hout, hphase, hinputs, howed, ?_⟩
      simpa [BatchState.work, Task.weight] using hwork
    · cases htask
  | verifying l r vvec skShare hspec =>
    rcases k with _ | k
    · obtain rfl := Option.some.inj htask
      simp only [BatchState.run]
      split_ifs with hverify
      · rw [if_pos hverify] at hspec
        rw [← hspec]
        exact ⟨_, rfl, .done _ _ _ _, rfl, rfl, by simp [BatchState.work, Task.weight]⟩
      · rw [if_neg hverify] at hspec
        refine ⟨_, rfl, .oneByOne l _ _ _ _ _ List.nodup_range (fun i hi => List.mem_range.mp hi) List.length_replicate
          (fun i hi => ?_) hspec, rfl, ?_, ?_⟩
        · rw [List.mem_range, not_lt] at hi
          rw [List.getElem?_eq_none (by rw [List.length_replicate]; exact hi),
            List.getElem?_eq_none (by rw [length_verifyEach]; exact hi)]
        · simp [BatchState.owed, BatchState.asyncVerifyBatchOneByOne, Task.isVerifyOne]
        · have hsum := sum_map_weight_verifyOne l.length (List.range l.length)
          rw [List.length_range] at hsum
          simp only [BatchState.work, BatchState.asyncVerifyBatchOneByOne, List.eraseIdx_zero, List.tail_cons,
            List.nil_append, hsum]
          simp [Task.weight]
    · cases htask
  | oneByOne l vvec skShare aggDone r left hnodup hleft hlength hr hspec =>
    obtain ⟨i, hi, rfl⟩ := Option.map_eq_some_iff.mp ((List.getElem?_map ..).symm.trans htask)
    obtain ⟨hk, hget⟩ := List.getElem?_eq_some_iff.mp hi
    have hmem : i ∈ left := List.mem_of_getElem? hi
    have hlt := hleft i hmem
    have hqueue : (left.map Task.verifyOne).eraseIdx k = (left.eraseIdx k).map Task.verifyOne := List.eraseIdx_map _ _ _
    have hcount : (left.eraseIdx k).length + 1 = left.length := List.length_eraseIdx_add_one hk
    have hothers : ∀ j, j ∉ left.eraseIdx k → j = i ∨ j ∉ left := by
      intro j hj
      by_contra hno
      rw [not_or, not_not] at hno
      rw [List.mem_eraseIdx_iff_getElem?] at hj
      obtain ⟨m, hm⟩ := List.getElem?_of_mem hno.2
      refine hj ⟨m, fun hmk => hno.1 ?_, hm⟩
      rw [hmk, hi] at hm
      exact (Option.some.inj hm).symm
    refine ⟨(⟨l, vvec, skShare, aggDone, r.set i _, _⟩, 1), rfl, ?_, rfl, ?_, ?_⟩
    · rw [hqueue]
      refine .oneByOne l _ _ _ _ _ (hnodup.eraseIdx k) (fun j hj => hleft j (List.mem_of_mem_eraseIdx hj))
        (by rw [List.length_set, hlength]) (fun j hj => ?_) hspec
      rcases eq_or_ne j i with rfl | hne
      · simp [verifyEach, hlength, hlt]
      · rw [List.getElem?_set_ne hne.symm]
        exact hr j ((hothers j hj).resolve_left hne)
    · simp only [BatchState.owed, hqueue, all_map_verifyOne, if_true, List.length_map]
      omega
    · simp only [BatchState.work, hqueue, sum_map_weight_verifyOne]
      omega
  | done l vvec skShare aggDone => cases htask

/-! ## All batches -/

/-- What holds of the verifier in every schedule; `ls` are the inputs of the batches. -/
structure Inv (ops : ShareOps V S) (spec : List (V × S) → List Bool) (ls : List (List (V × S))) (v : Verifier V S) :
    Prop where
  phase : ∀ st ∈ v.batchStates, Phase ops spec st
  inputs : v.batchStates.map BatchState.inputs = ls
  count : v.verifyDoneCount + (v.batchStates.map BatchState.owed).sum = ls.flatten.length
  done : v.done = if v.verifyDoneCount = ls.flatten.length then [ls.flatMap spec] else []

theorem exists_append_of_getElem? {α : Type} {l : List α} {i : Nat} {a : α} (h : l[i]? = some a) :
    ∃ pre post, l = pre ++ a :: post ∧ ∀ b, l.set i b = pre ++ b :: post := by
  obtain ⟨hi, rfl⟩ := List.getElem?_eq_some_iff.mp h
  refine ⟨l.take i, l.drop (i + 1), ?_, fun b => List.set_eq_take_append_cons_drop.trans (if_pos hi)⟩
  rw [List.getElem_cons_drop, List.take_append_drop]

variable {ls : List (List (V × S))} {v : Verifier V S} {p : Nat × Nat}

/-- When nothing is owed, the results of the batches are there. -/
theorem Inv.results (h : Inv ops spec ls v) (hls : ∀ l ∈ ls, l ≠ [])
    (howed : (v.batchStates.map BatchState.owed).sum = 0) :
    (∀ st ∈ v.batchStates, st.queue = []) ∧ v.batchStates.flatMap BatchState.verifyResults = ls.flatMap spec := by
  have hst : ∀ st ∈ v.batchStates, st.queue = [] ∧ st.verifyResults = spec st.inputs := by
    intro st hmem
    refine (h.phase st hmem).of_owed_eq_zero (hls _ (h.inputs ▸ List.mem_map_of_mem hmem)) ?_
    exact List.sum_eq_zero_iff.mp howed _ (List.mem_map_of_mem hmem)
  refine ⟨fun st hmem => (hst st hmem).1, ?_⟩
  rw [← h.inputs, List.flatMap_map]
  exact List.flatMap_congr fun st hmem => (hst st hmem).2

/-- **A step of the pool.** -/
theorem Inv.step (h : Inv ops spec ls v) (hls : ∀ l ∈ ls, l ≠ []) :
    ∃ v', v.step ops ls.flatten.length p = some v' ∧ Inv ops spec ls v' ∧
      ((∃ st ∈ v.batchStates[p.1]?, p.2 < st.queue.length) → v'.work < v.work) := by
  unfold Verifier.step
  rcases hst : v.batchStates[p.1]? with _ | st
  · exact ⟨v, rfl, h, fun ⟨_, hno, _⟩ => absurd hno (Option.not_mem_none _)⟩
  dsimp only
  rcases htask : st.queue[p.2]? with _ | task
  · refine ⟨v, rfl, h, fun ⟨st', hmem, hlt⟩ => ?_⟩
    obtain rfl := Option.some.inj hmem
    exact absurd hlt (not_lt.mpr (List.getElem?_eq_none_iff.mp htask))
  obtain ⟨pre, post, hsplit, hset⟩ := exists_append_of_getElem? hst
  have hmem : st ∈ v.batchStates := List.mem_of_getElem? hst
  have hne : st.inputs ≠ [] := hls _ (h.inputs ▸ List.mem_map_of_mem hmem)
  obtain ⟨⟨st', count⟩, hrun, hphase, hinputs, howed, hwork⟩ := (h.phase st hmem).run hne htask
  dsimp only at hphase hinputs howed hwork
  -- the verifier before the counter is changed
  have hcount := h.count
  have hmap := h.inputs
  rw [hsplit] at hcount hmap
  simp only [List.map_append, List.map_cons, List.sum_append, List.sum_cons] at hcount hmap
  have hphase' : ∀ x ∈ pre ++ st' :: post, Phase ops spec x := by
    intro x hx
    rcases List.mem_append.mp hx with hx | hx
    · exact h.phase x (hsplit ▸ List.mem_append_left _ hx)
    · rcases List.mem_cons.mp hx with rfl | hx
      · exact hphase
      · exact h.phase x (hsplit ▸ List.mem_append_right _ (List.mem_cons_of_mem _ hx))
  have hmap' : (pre ++ st' :: post).map BatchState.inputs = ls := by
    rw [List.map_append, List.map_cons, hinputs, ← hmap]
  have hdrop : ∀ d c, (Verifier.mk (pre ++ st' :: post) d c).work < v.work := by
    intro d c
    unfold Verifier.work
    rw [hsplit]
    simp only [List.map_append, List.map_cons, List.sum_append, List.sum_cons]
    omega
  simp only [hrun, hset, Option.map_some]
  refine ⟨_, rfl, ?_, fun _ => ?_⟩
  · unfold Verifier.handleVerifyDone
    dsimp only
    by_cases hzero : count = 0
    · rw [if_pos hzero]
      refine ⟨hphase', hmap', ?_, h.done⟩
      simp only [List.map_append, List.map_cons, List.sum_append, List.sum_cons]
      omega
    · -- before this step something was owed, so that the callback has not been called
      have hlt : v.verifyDoneCount ≠ ls.flatten.length := by omega
      have hdone := h.done
      rw [if_neg hlt] at hdone
      have hcount' : v.verifyDoneCount + count + ((pre ++ st' :: post).map BatchState.owed).sum =
          ls.flatten.length := by
        simp only [List.map_append, List.map_cons, List.sum_append, List.sum_cons]
        omega
      rw [if_neg hzero]
      split_ifs with hall
      · have hpart : Inv ops spec ls ⟨pre ++ st' :: post, v.verifyDoneCount + count, [ls.flatMap spec]⟩ :=
          ⟨hphase', hmap', hcount', (if_pos hall).symm⟩
        obtain ⟨-, hresults⟩ := hpart.results hls (by dsimp only; omega)
        refine ⟨hphase', hmap', hcount', ?_⟩
        rw [if_pos hall, hdone, ← hresults]
        rfl
      · exact ⟨hphase', hmap', hcount', hdone.trans (if_neg hall).symm⟩
  · unfold Verifier.handleVerifyDone
    dsimp only
    split_ifs
    all_goals exact hdrop _ _

/-- **Every schedule.** -/
theorem Inv.run (h : Inv ops spec ls v) (hls : ∀ l ∈ ls, l ≠ []) (schedule : List (Nat × Nat)) :
    ∃ v', List.foldlM (Verifier.step ops ls.flatten.length) v schedule = some v' ∧ Inv ops spec ls v' := by
  induction schedule generalizing v with
  | nil => exact ⟨v, rfl, h⟩
  | cons p schedule ih =>
    obtain ⟨v₁, hstep, h₁, -⟩ := h.step (p := p) hls
    obtain ⟨v', hrun, h'⟩ := ih h₁
    refine ⟨v', ?_, h'⟩
    rw [List.foldlM_cons, hstep]
    exact hrun

theorem Inv.completesOnce (h : Inv ops spec ls v) (hls : ∀ l ∈ ls, l ≠ []) :
    CompletesOnce ops ls.flatten.length v (ls.flatMap spec) := by
  have hinv : ∀ schedule v', List.foldlM (Verifier.step ops ls.flatten.length) v schedule = some v' →
      Inv ops spec ls v' := by
    intro schedule v' hrun
    obtain ⟨v'', hrun', h'⟩ := h.run hls schedule
    rwa [← Option.some.inj (hrun'.symm.trans hrun)]
  refine ⟨fun schedule => ?_, fun schedule v' hrun => ?_, fun schedule v' p v'' hrun henabled hstep => ?_,
    fun schedule v' hrun hidle => ?_⟩
  · obtain ⟨v', hrun, -⟩ := h.run hls schedule
    rw [hrun]
    rfl
  · rw [(hinv schedule v' hrun).done]
    split_ifs
    · exact .inr rfl
    · exact .inl rfl
  · obtain ⟨w, hw, -, hwork⟩ := (hinv schedule v' hrun).step (p := p) hls
    rw [← Option.some.inj (hw.symm.trans hstep)]
    exact hwork henabled
  · have h' := hinv schedule v' hrun
    have howed : (v'.batchStates.map BatchState.owed).sum = 0 := by
      rw [List.sum_eq_zero_iff]
      intro x hx
      obtain ⟨st, hst, rfl⟩ := List.mem_map.mp hx
      rw [BatchState.owed, hidle st hst]
      rfl
    have hcount := h'.count
    rw [howed, Nat.add_zero] at hcount
    rw [h'.done, if_pos hcount]

theorem Inv.start {aggregated : Bool} {inputs : List (V × S)} (hne : inputs ≠ [])
    (hcan : aggregated = true → firstEmpty ops inputs = false ∧ ∀ l ∈ batches true inputs, CanAggregate ops l) :
    Inv ops (fun l => if aggregated then batchResults ops l else verifyEach ops l) (batches aggregated inputs)
      (start ops aggregated inputs) := by
  have hpos := List.length_pos_iff.mpr hne
  have hflat := flatten_batches aggregated inputs
  have hqueue : aggregated = true → (if firstEmpty ops inputs then [Task.aggSkShare] else [.aggVvec, .aggSkShare]) =
      [.aggVvec, .aggSkShare] := fun hagg => by rw [(hcan hagg).1]; rfl
  refine ⟨fun st hst => ?_, ?_, ?_, ?_⟩
  · obtain ⟨l, hl, rfl⟩ := List.mem_map.mp hst
    cases aggregated with
    | true =>
      rw [hqueue rfl]
      exact .start l _ ((hcan rfl).2 l hl) rfl
    | false =>
      refine .oneByOne l _ _ _ _ _ List.nodup_range (fun i hi => List.mem_range.mp hi) List.length_replicate
        (fun i hi => ?_) rfl
      rw [List.mem_range, not_lt] at hi
      rw [List.getElem?_eq_none (by rw [List.length_replicate]; exact hi),
        List.getElem?_eq_none (by rw [length_verifyEach]; exact hi)]
  · cases aggregated <;> simp [Bls.start, BatchState.asyncVerifyBatchOneByOne, Function.comp_def]
  · have howed : (Bls.start ops aggregated inputs).batchStates.map BatchState.owed =
        (batches aggregated inputs).map List.length := by
      cases aggregated with
      | true => simp [Bls.start, hqueue, BatchState.owed, Task.isVerifyOne, Function.comp_def]
      | false =>
        simp [Bls.start, BatchState.owed, BatchState.asyncVerifyBatchOneByOne, Task.isVerifyOne, Function.comp_def]
    rw [howed, List.length_flatten]
    exact Nat.zero_add _
  · rw [hflat]
    exact (if_neg (show ¬ 0 = inputs.length by omega)).symm

/-! ## When the callback is not called -/

/-- The vectors are not aggregated, so that no batch gets further. -/
structure Stuck (v : Verifier V S) : Prop where
  batch : ∀ st ∈ v.batchStates, st.queue = [.aggSkShare] ∧ st.aggDone = 0 ∨ st.queue = []
  done : v.done = []

theorem Stuck.step {verifyCount : Nat} {v' : Verifier V S} (h : Stuck v) (hstep : v.step ops verifyCount p = some v') :
    Stuck v' := by
  unfold Verifier.step at hstep
  rcases hst : v.batchStates[p.1]? with _ | st
  · rw [hst] at hstep
    exact Option.some.inj hstep ▸ h
  rw [hst] at hstep
  dsimp only at hstep
  rcases htask : st.queue[p.2]? with _ | task
  · rw [htask] at hstep
    exact Option.some.inj hstep ▸ h
  rw [htask] at hstep
  obtain ⟨⟨st', count⟩, hrun, rfl⟩ := Option.map_eq_some_iff.mp hstep
  rcases h.batch st (List.mem_of_getElem? hst) with ⟨hqueue, hdone⟩ | hqueue
  · -- the only task is to add the shares, after which one aggregate is missing
    rw [hqueue] at htask hrun
    rcases hk : p.2 with _ | k
    · rw [hk] at htask hrun
      obtain rfl := Option.some.inj htask
      have hfirst : ∀ skShare, BatchState.handleAgg ops { st with skShare := skShare, queue := [] } =
          ({ st with skShare := skShare, queue := [], aggDone := 1 }, 0) := fun skShare => by
        simp [BatchState.handleAgg, hdone]
      simp only [BatchState.run, List.eraseIdx_zero, List.tail_cons, hfirst] at hrun
      split_ifs at hrun
      obtain ⟨rfl, rfl⟩ := Prod.mk.inj (Option.some.inj hrun)
      refine ⟨fun x hx => ?_, h.done⟩
      rcases List.mem_or_eq_of_mem_set hx with hx | rfl
      · exact h.batch x hx
      · exact .inr rfl
    · rw [hk] at htask
      cases htask
  · rw [hqueue] at htask
    cases htask

variable {verifyCount : Nat} {v₀ : Verifier V S} {result : List Bool}

/-- There is a schedule that leaves no work. -/
theorem CompletesOnce.exists_idle (h : CompletesOnce ops verifyCount v₀ result) :
    ∃ schedule v, List.foldlM (Verifier.step ops verifyCount) v₀ schedule = some v ∧ ∀ st ∈ v.batchStates,
      st.queue = [] := by
  suffices hgo : ∀ n schedule v, v.work = n → List.foldlM (Verifier.step ops verifyCount) v₀ schedule = some v →
      ∃ schedule v, List.foldlM (Verifier.step ops verifyCount) v₀ schedule = some v ∧ ∀ st ∈ v.batchStates,
        st.queue = [] from
    hgo _ [] v₀ rfl rfl
  intro n
  induction n using Nat.strong_induction_on with
  | _ n ih =>
    rintro schedule v rfl hrun
    by_cases hidle : ∀ st ∈ v.batchStates, st.queue = []
    · exact ⟨schedule, v, hrun, hidle⟩
    · push Not at hidle
      obtain ⟨st, hst, hqueue⟩ := hidle
      obtain ⟨i, hi⟩ := List.getElem?_of_mem hst
      have hsplit : List.foldlM (Verifier.step ops verifyCount) v₀ (schedule ++ [(i, 0)]) =
          v.step ops verifyCount (i, 0) := by
        rw [List.foldlM_append, hrun]
        simp
      have halive := h.alive (schedule ++ [(i, 0)])
      rw [hsplit] at halive
      obtain ⟨v', hstep⟩ := Option.isSome_iff_exists.mp halive
      exact ih _ (h.ends schedule v (i, 0) v' hrun ⟨st, hi, List.length_pos_iff.mpr hqueue⟩ hstep)
        (schedule ++ [(i, 0)]) v' rfl (hsplit.trans hstep)

theorem CompletesOnce.unique {result' : List Bool} (h : CompletesOnce ops verifyCount v₀ result)
    (h' : CompletesOnce ops verifyCount v₀ result') : result = result' := by
  obtain ⟨schedule, v, hrun, hidle⟩ := h.exists_idle
  exact List.singleton_inj.mp ((h.called schedule v hrun hidle).symm.trans (h'.called schedule v hrun hidle))

theorem CompletesOnce.not_stuck (h : CompletesOnce ops verifyCount v₀ result) : ¬ Stuck v₀ := by
  intro hstuck
  obtain ⟨schedule, v, hrun, hidle⟩ := h.exists_idle
  have hstuck' : Stuck v := foldlM_keeps (fun _ _ _ _ hs hstep => hs.step hstep) hstuck hrun
  have hdone := hstuck'.done.symm.trans (h.called schedule v hrun hidle)
  cases hdone

/-- The callback of inputs that are not accepted. -/
theorem completesOnce_of_done (verifyCount : Nat) (result : List Bool) :
    CompletesOnce ops verifyCount ({ done := [result] } : Verifier V S) result := by
  have hrun : ∀ schedule, List.foldlM (Verifier.step ops verifyCount) ({ done := [result] } : Verifier V S) schedule =
      some { done := [result] } := by
    intro schedule
    induction schedule with
    | nil => rfl
    | cons p schedule ih => exact ih
  refine ⟨fun schedule => ?_, fun schedule v h => ?_, fun schedule v p v' h => ?_, fun schedule v h _ => ?_⟩
  all_goals rw [hrun] at *
  · rfl
  · exact .inr (by rw [← Option.some.inj h])
  · rw [← Option.some.inj h]
    rintro ⟨st, hno, -⟩
    exact absurd hno (Option.not_mem_none _)
  · rw [← Option.some.inj h]

/-- What the inputs must be. -/
def Verifiable (ops : ShareOps V S) (aggregated : Bool) (inputs : List (V × S)) : Prop :=
  inputs ≠ [] ∧ (aggregated = true → firstEmpty ops inputs = false ∧ ∀ l ∈ batches true inputs, CanAggregate ops l)

theorem CompletesOnce.verifiable {aggregated : Bool} {inputs : List (V × S)}
    (h : CompletesOnce ops inputs.length (start ops aggregated inputs) result) : Verifiable ops aggregated inputs := by
  have hne : inputs ≠ [] := by
    rintro rfl
    refine h.not_stuck ⟨?_, rfl⟩
    cases aggregated <;> simp [start, batches, BatchState.asyncVerifyBatchOneByOne]
  refine ⟨hne, fun hagg => ?_⟩
  subst hagg
  have hfirst : firstEmpty ops inputs = false := by
    by_contra hempty
    rw [Bool.not_eq_false] at hempty
    refine h.not_stuck ⟨fun st hst => ?_, rfl⟩
    obtain ⟨l, hl, rfl⟩ := List.mem_map.mp hst
    exact .inl (by simp [hempty])
  refine ⟨hfirst, fun l hl => ?_⟩
  by_contra hno
  -- the task that adds the shares of this batch is run first
  obtain ⟨i, hi⟩ := List.getElem?_of_mem hl
  have halive := h.alive [(i, 1)]
  rw [canAggregate_iff] at hno
  simp [start, Verifier.step, hi, BatchState.run, hno, hfirst] at halive

/-- **When the callback is called exactly once**, and with what. -/
theorem completesOnce_iff (accepted aggregated : Bool) (inputs : List (V × S)) :
    CompletesOnce ops inputs.length (asyncVerifyContributionShares ops accepted aggregated inputs) result ↔
      (accepted = true → Verifiable ops aggregated inputs) ∧
        result = verifyContributionShares ops accepted aggregated inputs := by
  unfold asyncVerifyContributionShares verifyContributionShares
  cases accepted with
  | false =>
    constructor
    · exact fun h => ⟨nofun, h.unique (completesOnce_of_done _ _)⟩
    · rintro ⟨-, rfl⟩
      exact completesOnce_of_done _ _
  | true =>
    simp only [if_true, forall_const]
    have hmpr : Verifiable ops aggregated inputs → CompletesOnce ops inputs.length (start ops aggregated inputs)
        ((batches aggregated inputs).flatMap fun l => if aggregated then batchResults ops l else verifyEach ops l) := by
      rintro ⟨hne, hcan⟩
      have hcompletes := (Inv.start hne hcan).completesOnce fun l hl => ne_nil_of_mem_batches hne hl
      rwa [flatten_batches aggregated inputs] at hcompletes
    constructor
    · exact fun h => ⟨h.verifiable, h.unique (hmpr h.verifiable)⟩
    · rintro ⟨hverifiable, rfl⟩
      exact hmpr hverifiable

end

end RavenCash.Bls
