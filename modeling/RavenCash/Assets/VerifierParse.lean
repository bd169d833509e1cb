import RavenCash.Assets.NameClasses
import RavenCash.Assets.Verifier
import RavenCash.Lib.Checks

/-!
# How a formula is split

`singleParse` keeps the position where an operand starts. `Scan` keeps the bytes of the operand
instead, and `singleParse_eq` says that this is the same. A formula that splits into operands is what
was skipped in front of the first operand followed by the operands, with the operator between them
(`singleParse_ok`). Outside of parentheses no operand has the operator.
-/

set_option autoImplicit false

namespace RavenCash

namespace LibBoolEE

/-! ## Parities -/

/-- What a byte adds to the number of open parentheses. -/
def weight (c : UInt8) : Int := if isChar ')' c then -1 else if isChar '(' c then 1 else 0

def parity (s : StdString) : Int := (s.map weight).sum

@[simp] theorem parity_nil : parity [] = 0 := rfl

@[simp] theorem parity_cons (c : UInt8) (s : StdString) : parity (c :: s) = weight c + parity s :=
  List.sum_cons

@[simp] theorem parity_append (s t : StdString) : parity (s ++ t) = parity s + parity t := by
  rw [parity, List.map_append, List.sum_append]
  rfl

/-- A byte that starts an operand or is part of a name. -/
def inName (c : UInt8) : Bool := belongsToName c || isChar '!' c

/-- With `k` parentheses open in front of it, the string has no `op` outside of parentheses. -/
def noTop (op : Char) : Int → StdString → Bool
  | _, [] => true
  | k, c :: s => !(decide (k = 0) && isChar op c) && noTop op (k + weight c) s

theorem noTop_append (op : Char) (k : Int) (s t : StdString) :
    noTop op k (s ++ t) = (noTop op k s && noTop op (k + parity s) t) := by
  induction s generalizing k with
  | nil => simp [noTop]
  | cons c s ih =>
      rw [List.cons_append, noTop, noTop, ih, parity_cons, Bool.and_assoc, Int.add_assoc]

/-- The two operators. -/
def IsOp (op : Char) : Prop := op = '|' ∨ op = '&'

theorem IsOp.isChar_false {op : Char} (h : IsOp op) {c : UInt8} (hc : isChar op c = true) :
    isChar ')' c = false ∧ isChar '(' c = false ∧ inName c = false := by
  obtain rfl : c = op.toNat.toUInt8 := by simpa [isChar] using hc
  rcases h with rfl | rfl <;> decide

/-! ## Scanning without positions -/

/-- The variables of `singleParse`, with the operand that has started in place of its position. -/
structure Scan where
  operand : Option StdString := none
  depth : Int := 0
  operands : List StdString := []

namespace Scan

def step (formula : StdString) (op : Char) (st : Scan) (c : UInt8) : Except BoolError Scan :=
  if isChar ')' c then .ok { st with operand := st.operand.map (· ++ [c]), depth := st.depth - 1 }
  else if isChar '(' c then
    .ok { st with operand := some (st.operand.getD [] ++ [c]), depth := st.depth + 1 }
  else if st.depth = 0 then
    match st.operand with
    | none => .ok (if inName c then { st with operand := some [c] } else st)
    | some operand =>
        if inName c then .ok { st with operand := some (operand ++ [c]) }
        else if isChar op c then
          .ok { st with operand := some [], operands := st.operands ++ [operand] }
        else if anyOf "&|" c then .ok { st with operand := some (operand ++ [c]) }
        else .error (.unknownOperator c formula)
  else .ok { st with operand := st.operand.map (· ++ [c]) }

/-- The scan of a parse that has seen the bytes. -/
def ofParse (seen : StdString) (st : ParseState) : Scan :=
  ⟨st.start_pos.map seen.drop, st.parity_count, st.subexpressions⟩

/-- The start of an operand is not behind what was seen. -/
def Started (seen : StdString) (st : ParseState) : Prop := ∀ start ∈ st.start_pos, start ≤ seen.length

theorem map_drop_concat {seen : StdString} {st : ParseState} (h : Started seen st) (c : UInt8) :
    st.start_pos.map (seen ++ [c]).drop = (st.start_pos.map seen.drop).map (· ++ [c]) := by
  cases hstart : st.start_pos with
  | none => rfl
  | some start => simp [List.drop_append_of_le_length (h start hstart)]

theorem parseStep_eq {seen : StdString} {st : ParseState} (h : Started seen st) (op : Char)
    (c : UInt8) (rest : StdString) :
    (parseStep (seen ++ c :: rest) op st seen.length c).map (ofParse (seen ++ [c])) =
      step (seen ++ c :: rest) op (ofParse seen st) c := by
  have hdrop := map_drop_concat h c
  unfold parseStep step
  by_cases hclose : isChar ')' c = true
  · simp only [if_pos hclose, Except.map, ofParse, hdrop]
  rw [if_neg hclose, if_neg hclose]
  by_cases hopen : isChar '(' c = true
  · cases hstart : st.start_pos with
    | none => simp [hopen, Except.map, ofParse, hstart]
    | some start =>
        rw [hstart] at hdrop
        simp only [Option.map_some, Option.some.injEq] at hdrop
        simp [hopen, Except.map, ofParse, hstart, hdrop]
  rw [if_neg hopen, if_neg hopen]
  by_cases hzero : st.parity_count = 0
  · rw [if_pos hzero, if_pos (show (ofParse seen st).depth = 0 from hzero)]
    cases hstart : st.start_pos with
    | none =>
        cases hname : inName c with
        | true =>
            simp [show (belongsToName c || isChar '!' c) = true from hname, Except.map, ofParse, hstart]
        | false =>
            simp [show (belongsToName c || isChar '!' c) = false from hname, Except.map, ofParse,
              hstart]
    | some start =>
        rw [hstart] at hdrop
        simp only [Option.map_some, Option.some.injEq] at hdrop
        have hle := h start hstart
        have hpiece : ((seen ++ c :: rest).drop start).take (seen.length - start) = seen.drop start := by
          rw [List.drop_append_of_le_length hle, List.take_append_of_le_length (by simp),
            List.take_of_length_le (by simp)]
        simp only [ofParse, hstart, Option.map_some]
        rw [show (belongsToName c || isChar '!' c) = inName c from rfl]
        split_ifs <;> simp [Except.map, ofParse, hstart, hdrop, hpiece]
  · rw [if_neg hzero, if_neg (show (ofParse seen st).depth ≠ 0 from hzero)]
    simp only [Except.map, ofParse, hdrop]

theorem started_parseStep {formula seen : StdString} {st st' : ParseState} (h : Started seen st)
    {op : Char} {c : UInt8} (hstep : parseStep formula op st seen.length c = .ok st') :
    Started (seen ++ [c]) st' := by
  have hlen : (seen ++ [c]).length = seen.length + 1 := by simp
  have hpos : st'.start_pos = st.start_pos ∨ st'.start_pos = some seen.length ∨
      st'.start_pos = some (seen.length + 1) := by
    unfold parseStep at hstep
    cases hstart : st.start_pos with
    | none =>
        simp only [hstart] at hstep
        split_ifs at hstep <;> cases hstep <;> simp [hstart]
    | some start =>
        simp only [hstart] at hstep
        split_ifs at hstep <;> cases hstep <;> simp [hstart]
  intro start hmem
  rcases hpos with hpos | hpos | hpos
  · have := h start (hpos ▸ hmem)
    omega
  · obtain rfl := Option.some.inj (hpos.symm.trans hmem)
    omega
  · obtain rfl := Option.some.inj (hpos.symm.trans hmem)
    omega

/-- The loop of `singleParse` is the scan. -/
theorem parseLoop_eq (op : Char) (rest : StdString) {seen : StdString} {st : ParseState}
    (h : Started seen st) :
    (parseLoop (seen ++ rest) op seen.length rest st).map (ofParse (seen ++ rest)) =
      rest.foldlM (step (seen ++ rest) op) (ofParse seen st) := by
  induction rest generalizing seen st with
  | nil => simp [parseLoop, Except.map, pure, Except.pure]
  | cons c rest ih =>
      have hstep := parseStep_eq h op c rest
      rw [List.foldlM_cons, ← hstep, parseLoop]
      cases hparse : parseStep (seen ++ c :: rest) op st seen.length c with
      | error e => rfl
      | ok st' =>
          have hrest := ih (started_parseStep h hparse)
          rw [List.append_assoc, List.singleton_append, List.length_append] at hrest
          exact hrest

/-- What is left of a scan at the end of the formula. -/
def finish (formula : StdString) (st : Scan) : Except BoolError (List StdString) :=
  if st.depth ≠ 0 then .error (.parenthesisParity formula)
  else .ok (st.operands ++ st.operand.toList)

end Scan

theorem singleParse_eq (formula : StdString) (op : Char) : singleParse formula op =
    formula.foldlM (Scan.step formula op) {} >>= Scan.finish formula := by
  have hloop := @Scan.parseLoop_eq op formula [] {} (by simp [Scan.Started])
  simp only [List.nil_append, List.length_nil] at hloop
  rw [show ({} : Scan) = Scan.ofParse [] {} from rfl, ← hloop, singleParse]
  cases parseLoop formula op 0 formula {} with
  | error e => rfl
  | ok st =>
      show _ = Scan.finish formula (Scan.ofParse formula st)
      cases hstart : st.start_pos with
      | none => simp [Scan.finish, Scan.ofParse, bind, Except.bind, hstart]
      | some start => simp [Scan.finish, Scan.ofParse, bind, Except.bind, hstart]

/-! ## What a scan splits -/

namespace Scan

variable {formula : StdString} {op : Char}

/-- A byte is part of the operand, or it is the operator outside of parentheses and ends it. -/
theorem step_some (hop : IsOp op) {p : StdString} {k : Int} {out : List StdString} {c : UInt8}
    {st : Scan} (h : step formula op ⟨some p, k, out⟩ c = .ok st) :
    (st = ⟨some (p ++ [c]), k + weight c, out⟩ ∧ (decide (k = 0) && isChar op c) = false) ∨
      (st = ⟨some [], 0, out ++ [p]⟩ ∧ k = 0 ∧ isChar op c = true) := by
  cases hc : isChar op c with
  | true =>
      obtain ⟨hclose, hopen, hname⟩ := hop.isChar_false hc
      simp only [step, hclose, hopen, hname, hc, Bool.false_eq_true, if_false, if_true] at h
      by_cases hzero : k = 0
      · rw [if_pos hzero, Except.ok.injEq] at h
        subst hzero
        exact Or.inr ⟨h.symm, rfl, rfl⟩
      · rw [if_neg hzero, Except.ok.injEq] at h
        exact Or.inl ⟨by simp [← h, weight, hclose, hopen], by simp [hzero]⟩
  | false =>
      refine Or.inl ⟨?_, by simp⟩
      simp only [step, hc, Bool.false_eq_true, if_false] at h
      split_ifs at h with hclose hopen hzero hname hother <;> cases h <;>
        simp_all [weight, Int.sub_eq_add_neg]

/-- In front of the first operand a byte is skipped, or it starts the operand. -/
theorem step_none {k : Int} {out : List StdString} {c : UInt8} {st : Scan}
    (h : step formula op ⟨none, k, out⟩ c = .ok st) :
    (st = ⟨none, k + weight c, out⟩ ∧ isChar '(' c = false ∧ (k = 0 → inName c = false)) ∨
      (st = ⟨some [c], k + weight c, out⟩ ∧ (isChar '(' c = true ∨ inName c = true)) := by
  simp only [step, Option.map_none, Option.getD_none, List.nil_append] at h
  split_ifs at h with hclose hopen hzero hname
  · obtain rfl : c = 41 := by simpa [isChar] using hclose
    cases h
    exact Or.inl ⟨rfl, by decide, fun _ => by decide⟩
  · cases h
    exact Or.inr ⟨by simp [weight, hclose, hopen], Or.inl hopen⟩
  · cases h
    exact Or.inr ⟨by simp [weight, hclose, hopen], Or.inr hname⟩
  · cases h
    exact Or.inl ⟨by simp [weight, hclose, hopen], by simpa using hopen, fun _ => by simpa using hname⟩
  · cases h
    exact Or.inl ⟨by simp [weight, hclose, hopen], by simpa using hopen, fun hk => absurd hk hzero⟩

/-- **What a scan splits** once an operand has started: the operands are what was read, with the
operator between them, and outside of parentheses none of them has it. -/
theorem run_some (hop : IsOp op) (s : StdString) {p : StdString} {k : Int} {out : List StdString}
    {st : Scan} (h : s.foldlM (step formula op) ⟨some p, k, out⟩ = .ok st) :
    ∃ ps last, st = ⟨some last, k + parity s, out ++ ps⟩ ∧
      p ++ s = [op.toNat.toUInt8].intercalate (ps ++ [last]) ∧
      (k = parity p → noTop op 0 p = true → ∀ x ∈ ps ++ [last], noTop op 0 x = true) := by
  induction s generalizing p k out with
  | nil =>
      cases h
      exact ⟨[], p, by simp, by simp [List.intercalate], fun _ hp => by simpa using hp⟩
  | cons c s ih =>
      rw [List.foldlM_cons, bind_ok] at h
      obtain ⟨st₁, hstep, hrest⟩ := h
      rcases step_some hop hstep with ⟨rfl, htop⟩ | ⟨rfl, rfl, hc⟩
      · obtain ⟨ps, last, rfl, heq, hall⟩ := ih hrest
        refine ⟨ps, last, by rw [parity_cons, Int.add_assoc], by simpa using heq, fun hk hp => ?_⟩
        refine hall (by simp [hk]) ?_
        rw [noTop_append, hp, Int.zero_add, ← hk, noTop, htop]
        rfl
      · obtain ⟨ps, last, rfl, heq, hall⟩ := ih hrest
        obtain ⟨hclose, hopen, -⟩ := hop.isChar_false hc
        obtain rfl : c = op.toNat.toUInt8 := by simpa [isChar] using hc
        refine ⟨p :: ps, last, by simp [weight, hclose, hopen], ?_, fun hk hp => ?_⟩
        · cases hlist : ps ++ [last] with
          | nil => simp at hlist
          | cons x xs =>
              rw [hlist] at heq
              rw [List.cons_append, hlist, List.intercalate_cons_cons, ← heq]
              simp
        · intro x hx
          rcases List.mem_cons.mp hx with rfl | hx
          · exact hp
          · exact hall rfl rfl x hx

/-- What a scan skips in front of the first operand. -/
theorem run_none (hop : IsOp op) (s : StdString) {k : Int} {st : Scan}
    (h : s.foldlM (step formula op) ⟨none, k, []⟩ = .ok st) :
    st = ⟨none, k + parity s, []⟩ ∨ ∃ junk ps last, st = ⟨some last, k + parity s, ps⟩ ∧
      s = junk ++ [op.toNat.toUInt8].intercalate (ps ++ [last]) ∧
      (∀ c ∈ junk, isChar '(' c = false) ∧
      (k = 0 → (∀ c ∈ junk, isChar ')' c = false) → ∀ c ∈ junk, inName c = false) ∧
      (k = 0 → ∀ c ∈ junk.head?, inName c = false) ∧
      (k = 0 → junk = [] → ∀ x ∈ ps ++ [last], noTop op 0 x = true) := by
  induction s generalizing k with
  | nil =>
      cases h
      exact Or.inl (by simp)
  | cons c s ih =>
      rw [List.foldlM_cons, bind_ok] at h
      obtain ⟨st₁, hstep, hrest⟩ := h
      rcases step_none hstep with ⟨rfl, hopen, hname⟩ | ⟨rfl, hstart⟩
      · rcases ih hrest with rfl | ⟨junk, ps, last, rfl, heq, hjunk, hskip, -, -⟩
        · exact Or.inl (by rw [parity_cons, Int.add_assoc])
        · refine Or.inr ⟨c :: junk, ps, last, by rw [parity_cons, Int.add_assoc], by rw [heq]; rfl,
            ?_, ?_, ?_, ?_⟩
          · intro d hd
            rcases List.mem_cons.mp hd with rfl | hd
            · exact hopen
            · exact hjunk d hd
          · intro hk hclose d hd
            have hweight : k + weight c = 0 := by
              simp [weight, hk, hopen, hclose c (List.mem_cons_self ..)]
            rcases List.mem_cons.mp hd with rfl | hd
            · exact hname hk
            · exact hskip hweight (fun e he => hclose e (List.mem_cons_of_mem _ he)) d hd
          · intro hk d hd
            cases hd
            exact hname hk
          · intro _ hnil
            cases hnil
      · obtain ⟨ps, last, rfl, heq, hall⟩ := run_some hop s hrest
        refine Or.inr ⟨[], ps, last, by rw [parity_cons, Int.add_assoc, List.nil_append],
          by simpa using heq, by simp, by simp, by simp, fun hk _ => ?_⟩
        refine hall (by simp [hk]) ?_
        have hc : isChar op c = false := by
          by_contra hc
          obtain ⟨-, hopen, hname⟩ := hop.isChar_false (by simpa using hc)
          simp [hopen, hname] at hstart
        rw [noTop, hc, Bool.and_false]
        rfl

end Scan

/-- `s` is what was skipped followed by operands. -/
structure Split (op : Char) (s junk : StdString) (ps : List StdString) : Prop where
  eq : s = junk ++ [op.toNat.toUInt8].intercalate ps
  noOpen : ∀ c ∈ junk, isChar '(' c = false
  skipped : (∀ c ∈ junk, isChar ')' c = false) → ∀ c ∈ junk, inName c = false
  head : ∀ c ∈ junk.head?, inName c = false
  noTop : junk = [] → ∀ p ∈ ps, noTop op 0 p = true

/-- **A formula that splits is what was skipped followed by its operands.** -/
theorem singleParse_ok {op : Char} (hop : IsOp op) {s : StdString} {ps : List StdString}
    (h : singleParse s op = .ok ps) : parity s = 0 ∧ (ps ≠ [] → ∃ junk, Split op s junk ps) := by
  rw [singleParse_eq, bind_ok] at h
  obtain ⟨st, hrun, hfinish⟩ := h
  unfold Scan.finish at hfinish
  split_ifs at hfinish with hdepth
  obtain rfl := Except.ok.inj hfinish
  rw [not_not] at hdepth
  rcases Scan.run_none hop s hrun with rfl | ⟨junk, ps, last, rfl, heq, hopen, hskip, hhead, htop⟩
  · exact ⟨by simpa using hdepth, fun hne => absurd rfl hne⟩
  · exact ⟨by simpa using hdepth, fun _ =>
      ⟨junk, heq, hopen, hskip rfl, hhead rfl, htop rfl⟩⟩

theorem parity_intercalate {op : Char} (hop : IsOp op) {ps : List StdString}
    (h : ∀ p ∈ ps, parity p = 0) : parity ([op.toNat.toUInt8].intercalate ps) = 0 := by
  have hweight : weight op.toNat.toUInt8 = 0 := by rcases hop with rfl | rfl <;> decide
  induction ps with
  | nil => rfl
  | cons p ps ih =>
      cases ps with
      | nil => simpa [List.intercalate] using h p (by simp)
      | cons q ps =>
          rw [List.intercalate_cons_cons, parity_append, parity_append,
            ih (fun x hx => h x (List.mem_cons_of_mem _ hx)), h p (by simp)]
          simp [hweight]

/-- Where no parenthesis opens, the parity only falls. -/
theorem parity_nonpos {s : StdString} (h : ∀ c ∈ s, isChar '(' c = false) : parity s ≤ 0 := by
  induction s with
  | nil => exact Int.le_refl 0
  | cons c s ih =>
      have hrest := ih (fun d hd => h d (List.mem_cons_of_mem _ hd))
      have hc : weight c ≤ 0 := by
        rw [weight, h c (List.mem_cons_self ..), if_neg (by decide : ¬ false = true)]
        split_ifs <;> decide
      rw [parity_cons]
      omega

theorem noClose_of_parity {s : StdString} (h : ∀ c ∈ s, isChar '(' c = false) (hs : parity s = 0) :
    ∀ c ∈ s, isChar ')' c = false := by
  intro c hc
  obtain ⟨front, back, rfl⟩ := List.append_of_mem hc
  have hfront := parity_nonpos (fun d hd => h d (List.mem_append_left _ hd))
  have hback := parity_nonpos
    (fun d hd => h d (List.mem_append_right _ (List.mem_cons_of_mem c hd)))
  by_contra hclose
  rw [parity_append, parity_cons, weight, if_pos (by simpa using hclose)] at hs
  omega

namespace Split

variable {op : Char} {s junk : StdString} {ps : List StdString}

/-- With no parenthesis open at the end of any operand, none was closed in what was skipped. -/
theorem noClose (h : Split op s junk ps) (hop : IsOp op) (hs : parity s = 0)
    (hps : ∀ p ∈ ps, parity p = 0) : ∀ c ∈ junk, isChar ')' c = false := by
  refine noClose_of_parity h.noOpen ?_
  have heq := congrArg parity h.eq
  rw [hs, parity_append, parity_intercalate hop hps] at heq
  omega

theorem mem (h : Split op s junk ps) {p : StdString} (hp : p ∈ ps) {c : UInt8} (hc : c ∈ p) :
    c ∈ s := by
  rw [h.eq]
  refine List.mem_append_right _ ?_
  clear h
  induction ps with
  | nil => cases hp
  | cons q ps ih =>
      cases ps with
      | nil =>
          obtain rfl := List.mem_singleton.mp hp
          simpa [List.intercalate] using hc
      | cons r ps =>
          rw [List.intercalate_cons_cons]
          rcases List.mem_cons.mp hp with rfl | hp
          · exact List.mem_append_left _ (List.mem_append_left _ hc)
          · exact List.mem_append_right _ (ih hp)

/-- Nothing is skipped of a formula that starts with an operand. -/
theorem junk_eq_nil (h : Split op s junk ps) {c : UInt8} (hc : c ∈ s.head?)
    (hstart : isChar '(' c = true ∨ inName c = true) : junk = [] := by
  cases junk with
  | nil => rfl
  | cons d junk =>
      obtain rfl : d = c := by
        rw [h.eq] at hc
        exact Option.some.inj hc
      rcases hstart with hopen | hname
      · simp [h.noOpen d (List.mem_cons_self ..)] at hopen
      · simp [h.head d rfl] at hname

end Split

/-! ## What the evaluator accepts -/

/-- The strings that evaluate, with the parts that are evaluated. -/
inductive Resolves (valuation : Vals) : StdString → Prop
  | split {op : Char} {s : StdString} {ps : List StdString} (hop : IsOp op)
      (hparse : singleParse s op = .ok ps) (hlen : 1 < ps.length)
      (hor : op = '&' → ∃ p, singleParse s '|' = .ok [p]) (hps : ∀ p ∈ ps, Resolves valuation p) :
      Resolves valuation s
  | not {s p q : StdString} (hor : singleParse (33 :: s) '|' = .ok [p])
      (hand : singleParse (33 :: s) '&' = .ok [q]) (hs : Resolves valuation s) :
      Resolves valuation (33 :: s)
  | paren {s p q : StdString} (hor : singleParse (40 :: s) '|' = .ok [p])
      (hand : singleParse (40 :: s) '&' = .ok [q]) (hs : Resolves valuation (s.take (s.length - 1))) :
      Resolves valuation (40 :: s)
  | value {s : StdString} {p : StdString} (hor : singleParse s '|' = .ok [p])
      (hs : s = bytes "1" ∨ s = bytes "0" ∨ (valuation.lookup s).isSome = true) :
      Resolves valuation s

theorem removeWhitespaces_eq {s : StdString} (h : ∀ c ∈ s, isSpace c = false) :
    removeWhitespaces s = s :=
  List.filter_eq_self.mpr (fun c hc => by rw [h c hc]; rfl)

/-- A loop over operands that passes evaluates each of them. -/
theorem resolveAll_ok {resolve : StdString → Except BoolError Bool} {combine : Bool → Bool → Bool}
    {ps : List StdString} {r b : Bool} (h : resolveAll resolve combine r ps = .ok b) :
    ∀ p ∈ ps, ∃ b, resolve p = .ok b := by
  induction ps generalizing r with
  | nil => simp
  | cons p ps ih =>
      rw [resolveAll, bind_ok] at h
      obtain ⟨c, hp, hrest⟩ := h
      intro q hq
      rcases List.mem_cons.mp hq with rfl | hq
      · exact ⟨c, hp⟩
      · exact ih hrest q hq

/-- A formula that is one operand. -/
def resolveOperand (resolve : StdString → Except BoolError Bool) (valuation : Vals)
    (source : StdString) : Except BoolError Bool :=
  if (source.head?.map (isChar '!')).getD false then do
    let r ← resolve (source.drop 1)
    return !r
  else if (source.head?.map (isChar '(')).getD false then
    resolve ((source.drop 1).take (source.length - 2))
  else if source = bytes "1" then .ok true
  else if source = bytes "0" then .ok false
  else
    match valuation.lookup source with
    | some b => .ok b
    | none => .error (.variableNotFound source)

/-- A formula with its conjuncts. -/
def resolveConjuncts (resolve : StdString → Except BoolError Bool) (valuation : Vals)
    (source : StdString) : List StdString → Except BoolError Bool
  | [] => .error (.notAFormula source)
  | [_] => resolveOperand resolve valuation source
  | subexpressions => resolveAll resolve (· && ·) true subexpressions

theorem resolveRec_succ (valuation : Vals) (depth : Nat) (source : StdString) :
    resolveRec valuation (depth + 1) source =
      if source.isEmpty then .error .emptySubExpression
      else singleParse source '|' >>= fun disjuncts =>
        if 1 < disjuncts.length then
          resolveAll (fun s => resolveRec valuation depth (removeWhitespaces s)) (· || ·) false disjuncts
        else (if disjuncts.length = 1 then singleParse source '&' else .ok disjuncts) >>=
          resolveConjuncts (fun s => resolveRec valuation depth (removeWhitespaces s)) valuation
            source := by
  rw [resolveRec]
  by_cases hempty : source.isEmpty = true
  · rw [if_pos hempty, if_pos hempty]
  rw [if_neg hempty, if_neg hempty]
  cases singleParse source '|' with
  | error e => rfl
  | ok disjuncts =>
      rcases disjuncts with _ | ⟨p, _ | ⟨q, ps⟩⟩
      · rfl
      · cases hand : singleParse source '&' with
        | error e => simp [bind, Except.bind]
        | ok conjuncts =>
            rcases conjuncts with _ | ⟨p', _ | ⟨q, ps⟩⟩ <;> simp only [bind, Except.bind] <;> rfl
      · rfl

/-- **What evaluates is split into parts that evaluate.** -/
theorem resolves_of_ok {valuation : Vals} {depth : Nat} {s : StdString} {b : Bool}
    (hspace : ∀ c ∈ s, isSpace c = false) (h : resolveRec valuation depth s = .ok b) :
    Resolves valuation s := by
  induction depth generalizing s b with
  | zero => cases h
  | succ depth ih =>
      have hpart {p : StdString} (hp : ∀ c ∈ p, c ∈ s) {b : Bool}
          (h : resolveRec valuation depth (removeWhitespaces p) = .ok b) : Resolves valuation p := by
        have hspace' : ∀ c ∈ p, isSpace c = false := fun c hc => hspace c (hp c hc)
        rw [removeWhitespaces_eq hspace'] at h
        exact ih hspace' h
      have hparts {op : Char} (hop : IsOp op) {ps : List StdString} (hparse : singleParse s op = .ok ps)
          (hall : ∀ p ∈ ps, ∃ b, resolveRec valuation depth (removeWhitespaces p) = .ok b) :
          ∀ p ∈ ps, Resolves valuation p := by
        intro p hp
        obtain ⟨junk, hsplit⟩ := (singleParse_ok hop hparse).2 (List.ne_nil_of_mem hp)
        obtain ⟨b, hb⟩ := hall p hp
        exact hpart (fun c hc => hsplit.mem hp hc) hb
      rw [resolveRec_succ] at h
      split_ifs at h with hempty
      rw [bind_ok] at h
      obtain ⟨disjuncts, hor, h⟩ := h
      rcases disjuncts with _ | ⟨p, _ | ⟨p', disjuncts⟩⟩
      · cases h
      · rw [if_neg (by simp), if_pos List.length_singleton, bind_ok] at h
        obtain ⟨conjuncts, hand, h⟩ := h
        rcases conjuncts with _ | ⟨q, _ | ⟨q', conjuncts⟩⟩
        · cases h
        · rw [resolveConjuncts, resolveOperand] at h
          cases s with
          | nil => exact absurd rfl hempty
          | cons c s =>
              split_ifs at h with hnot hopen hone hzero
              · obtain rfl : c = 33 := by simpa [isChar] using hnot
                rw [bind_ok] at h
                obtain ⟨r, hr, -⟩ := h
                exact .not hor hand (hpart (fun d hd => List.mem_cons_of_mem _ hd) hr)
              · obtain rfl : c = 40 := by simpa [isChar] using hopen
                refine .paren hor hand (hpart (fun d hd => ?_) h)
                exact List.mem_cons_of_mem _ (List.mem_of_mem_take hd)
              · exact .value hor (Or.inl hone)
              · exact .value hor (Or.inr (Or.inl hzero))
              · refine .value hor (Or.inr (Or.inr ?_))
                cases hlookup : valuation.lookup (c :: s) with
                | none => simp [hlookup] at h
                | some b => rfl
        · exact .split (Or.inr rfl) hand (by simp) (fun _ => ⟨p, hor⟩)
            (hparts (Or.inr rfl) hand (resolveAll_ok h))
      · rw [if_pos (by simp)] at h
        exact .split (Or.inl rfl) hor (by simp) (fun h => absurd h (by decide))
          (hparts (Or.inl rfl) hor (resolveAll_ok h))

theorem Resolves.parity_eq_zero {valuation : Vals} {s : StdString} (h : Resolves valuation s) :
    parity s = 0 := by
  cases h with
  | split hop hparse => exact (singleParse_ok hop hparse).1
  | not hor => exact (singleParse_ok (Or.inl rfl) hor).1
  | paren hor => exact (singleParse_ok (Or.inl rfl) hor).1
  | value hor => exact (singleParse_ok (Or.inl rfl) hor).1

end LibBoolEE

end RavenCash
