import RavenCash.Assets.VerifierSyntax
import RavenCash.Consensus.Contextual

/-!
# The meaning of verifier strings

The evaluator visits every operand, so whether it throws does not depend on the values of the qualifiers
(`outcome_resolveRec`). A formula printed with parentheses around its compound parts evaluates to its
value (`resolveRec_print`). `ContextualCheckVerifierString` also asks that every qualifier of the string is
issued, and passes without the address when it has none.
-/

set_option autoImplicit false

namespace RavenCash

open LibBoolEE

/-! ## Errors do not depend on values -/

/-- What is left of an evaluation without its value. -/
def outcome {E : Type} (x : Except E Bool) : Except E Unit := x.map (fun _ => ())

theorem outcome_bind {E : Type} {x x' : Except E Bool} {f f' : Bool → Except E Bool}
    (hx : outcome x = outcome x') (hf : ∀ b b', outcome (f b) = outcome (f' b')) :
    outcome (x >>= f) = outcome (x' >>= f') := by
  cases x with
  | error e =>
      cases x' with
      | error e' => exact hx
      | ok b' => cases hx
  | ok b =>
      cases x' with
      | error e' => cases hx
      | ok b' => exact hf b b'

theorem outcome_resolveAll {resolve resolve' : StdString → Except BoolError Bool}
    {combine : Bool → Bool → Bool} (h : ∀ s, outcome (resolve s) = outcome (resolve' s))
    (ps : List StdString) (r r' : Bool) :
    outcome (resolveAll resolve combine r ps) = outcome (resolveAll resolve' combine r' ps) := by
  induction ps generalizing r r' with
  | nil => rfl
  | cons p ps ih => exact outcome_bind (h p) (fun b b' => ih (combine r b) (combine r' b'))

section Outcome

variable {v v' : Vals} (hkeys : ∀ n, (v.lookup n).isSome = (v'.lookup n).isSome)

include hkeys

theorem outcome_resolveOperand {resolve resolve' : StdString → Except BoolError Bool}
    (h : ∀ s, outcome (resolve s) = outcome (resolve' s)) (s : StdString) :
    outcome (resolveOperand resolve v s) = outcome (resolveOperand resolve' v' s) := by
  unfold resolveOperand
  split_ifs
  · exact outcome_bind (h _) (fun _ _ => rfl)
  · exact h _
  · rfl
  · rfl
  · have hs := hkeys s
    cases hv : v.lookup s with
    | none =>
        cases hv' : v'.lookup s with
        | none => rfl
        | some b' => simp [hv, hv'] at hs
    | some b =>
        cases hv' : v'.lookup s with
        | none => simp [hv, hv'] at hs
        | some b' => rfl

/-- **Two valuations of the same names fail in the same way, or not at all.** -/
theorem outcome_resolveRec (depth : Nat) (s : StdString) :
    outcome (resolveRec v depth s) = outcome (resolveRec v' depth s) := by
  induction depth generalizing s with
  | zero => rfl
  | succ depth ih =>
      have hparts (s : StdString) : outcome (resolveRec v depth (removeWhitespaces s)) =
          outcome (resolveRec v' depth (removeWhitespaces s)) := ih _
      rw [resolveRec_succ, resolveRec_succ]
      split_ifs with hempty
      · rfl
      cases singleParse s '|' with
      | error e => rfl
      | ok disjuncts =>
          rcases disjuncts with _ | ⟨p, _ | ⟨p', disjuncts⟩⟩
          · rfl
          · cases singleParse s '&' with
            | error e => rfl
            | ok conjuncts =>
                rcases conjuncts with _ | ⟨q, _ | ⟨q', conjuncts⟩⟩
                · rfl
                · exact outcome_resolveOperand hkeys hparts s
                · exact outcome_resolveAll hparts _ true true
          · exact outcome_resolveAll hparts _ false false

end Outcome

/-! ## Formulas -/

/-- A formula over names of qualifiers. -/
inductive Formula where
  | name (n : StdString)
  | not (φ : Formula)
  | and (φ ψ : Formula)
  | or (φ ψ : Formula)

namespace Formula

/-- The boolean meaning, for the tags of an address. -/
def eval (tag : StdString → Bool) : Formula → Bool
  | name n => tag n
  | not φ => !φ.eval tag
  | and φ ψ => φ.eval tag && ψ.eval tag
  | or φ ψ => φ.eval tag || ψ.eval tag

def names : Formula → List StdString
  | name n => [n]
  | not φ => φ.names
  | and φ ψ => φ.names ++ ψ.names
  | or φ ψ => φ.names ++ ψ.names

/-- A printed formula as a part of another: in parentheses unless it is a name. -/
def enclose : Formula → StdString → StdString
  | name _, s => s
  | _, s => bytes "(" ++ s ++ bytes ")"

def print : Formula → StdString
  | name n => n
  | not φ => bytes "!" ++ φ.enclose φ.print
  | and φ ψ => φ.enclose φ.print ++ bytes "&" ++ ψ.enclose ψ.print
  | or φ ψ => φ.enclose φ.print ++ bytes "|" ++ ψ.enclose ψ.print

end Formula

/-! ## Scanning a printed formula -/

/-- The bytes of a printed formula. -/
def printChar (c : UInt8) : Bool := isNameChar c || anyOf "!&|()" c

/-- A string that reads as one part of a formula inside of parentheses. -/
structure Closed (s : StdString) : Prop where
  chars : ∀ c ∈ s, printChar c = true
  start : ∃ c ∈ s.head?, isChar '(' c = true ∨ inName c = true
  parity : parity s = 0
  deep : ∀ op, IsOp op → ∀ k : Int, 0 < k → noTop op k s = true

/-- And outside of them. -/
structure Part (s : StdString) : Prop extends Closed s where
  top : ∀ op, IsOp op → noTop op 0 s = true

theorem noTop_of_notMem {op : Char} {s : StdString} (h : ∀ c ∈ s, isChar op c = false) (k : Int) :
    noTop op k s = true := by
  induction s generalizing k with
  | nil => rfl
  | cons c s ih =>
      rw [noTop, h c (List.mem_cons_self ..), ih (fun d hd => h d (List.mem_cons_of_mem _ hd)),
        Bool.and_false]
      rfl

theorem Part.name {n : StdString} (h : QualifierName n) : Part n := by
  obtain ⟨hne, hbytes⟩ := h.bytes
  have hchars := (qualifierName_iff.mp h).1.1.1
  have hop {op : Char} (hop : IsOp op) : ∀ c ∈ n, isChar op c = false := by
    intro c hc
    by_contra hcop
    obtain ⟨-, -, hname⟩ := hop.isChar_false (by simpa using hcop)
    simp [inName, hbytes c hc] at hname
  have hweight : ∀ c ∈ n, weight c = 0 := by
    intro c hc
    have hclose : isChar ')' c = false := by
      by_contra hclose
      obtain rfl : c = 41 := by simpa [isChar] using hclose
      exact absurd (hchars 41 hc) (by decide)
    have hopen : isChar '(' c = false := by
      by_contra hopen
      obtain rfl : c = 40 := by simpa [isChar] using hopen
      exact absurd (hchars 40 hc) (by decide)
    simp [weight, hclose, hopen]
  refine ⟨⟨fun c hc => by simp [printChar, hchars c hc], ?_, ?_, fun op h k _ =>
    noTop_of_notMem (hop h) k⟩, fun op h => noTop_of_notMem (hop h) 0⟩
  · obtain ⟨c, n, rfl⟩ := List.exists_cons_of_ne_nil hne
    exact ⟨c, rfl, Or.inr (by simp [inName, hbytes c (List.mem_cons_self ..)])⟩
  · exact List.sum_eq_zero (by simpa using hweight)

theorem Part.paren {s : StdString} (h : Closed s) : Part (bytes "(" ++ s ++ bytes ")") := by
  have hkeep {op : Char} (hop : IsOp op) {k : Int} (hk : 0 ≤ k) :
      noTop op k (bytes "(" ++ s ++ bytes ")") = true := by
    have hopen : isChar op 40 = false := by rcases hop with rfl | rfl <;> decide
    have hclose : isChar op 41 = false := by rcases hop with rfl | rfl <;> decide
    have hinner := h.deep op hop (k + weight 40) (by rw [show weight 40 = 1 by decide]; omega)
    rw [show bytes "(" = [40] from rfl, show bytes ")" = [41] from rfl, noTop_append, noTop_append]
    simp [noTop, hopen, hclose, hinner]
  refine ⟨⟨?_, ⟨40, rfl, Or.inl (by decide)⟩, ?_, fun op hop k hk => hkeep hop hk.le⟩,
    fun op hop => hkeep hop le_rfl⟩
  · intro c hc
    rw [List.mem_append, List.mem_append] at hc
    rcases hc with (hc | hc) | hc
    · obtain rfl := List.mem_singleton.mp hc
      decide
    · exact h.chars c hc
    · obtain rfl := List.mem_singleton.mp hc
      decide
  · rw [parity_append, parity_append, h.parity]
    decide

theorem Part.not {s : StdString} (h : Part s) : Part (bytes "!" ++ s) := by
  have hkeep {op : Char} (hop : IsOp op) {k : Int} (hs : noTop op k s = true) :
      noTop op k (bytes "!" ++ s) = true := by
    have hmark : isChar op 33 = false := by rcases hop with rfl | rfl <;> decide
    rw [show bytes "!" = [33] from rfl, List.singleton_append, noTop, hmark, Bool.and_false,
      show weight 33 = 0 by decide, Int.add_zero, hs]
    rfl
  refine ⟨⟨?_, ⟨33, rfl, Or.inr (by decide)⟩, ?_, fun op hop k hk => hkeep hop (h.deep op hop k hk)⟩,
    fun op hop => hkeep hop (h.top op hop)⟩
  · intro c hc
    rcases List.mem_append.mp hc with hc | hc
    · obtain rfl := List.mem_singleton.mp hc
      decide
    · exact h.chars c hc
  · rw [parity_append, h.parity]
    decide

theorem noTop_binary {op sep : Char} (hop : IsOp op) (hsep : IsOp sep) {s t : StdString} {k : Int}
    (hs : noTop op k s = true) (hzero : parity s = 0) (ht : noTop op k t = true)
    (hk : k ≠ 0 ∨ op ≠ sep) : noTop op k (s ++ sep.toNat.toUInt8 :: t) = true := by
  have hweight : weight sep.toNat.toUInt8 = 0 := by rcases hsep with rfl | rfl <;> decide
  have hchar : (decide (k = 0) && isChar op sep.toNat.toUInt8) = false := by
    rcases hk with hk | hne
    · simp [hk]
    · have hother : isChar op sep.toNat.toUInt8 = false := by
        rcases hop with rfl | rfl <;> rcases hsep with rfl | rfl <;>
          first | exact absurd rfl hne | decide
      rw [hother, Bool.and_false]
  rw [noTop_append, hs, hzero, Int.add_zero, noTop, hchar, hweight, Int.add_zero, ht]
  rfl

theorem Closed.binary {sep : Char} (hsep : IsOp sep) {s t : StdString} (hs : Part s) (ht : Part t) :
    Closed (s ++ sep.toNat.toUInt8 :: t) := by
  refine ⟨?_, ?_, ?_, fun op hop k hk => ?_⟩
  · intro c hc
    rw [List.mem_append, List.mem_cons] at hc
    rcases hc with hc | rfl | hc
    · exact hs.chars c hc
    · rcases hsep with rfl | rfl <;> decide
    · exact ht.chars c hc
  · obtain ⟨c, hc, hstart⟩ := hs.start
    refine ⟨c, ?_, hstart⟩
    rw [List.head?_append]
    simp [Option.mem_def.mp hc]
  · have hweight : weight sep.toNat.toUInt8 = 0 := by rcases hsep with rfl | rfl <;> decide
    rw [parity_append, parity_cons, hs.parity, ht.parity, hweight]
    rfl
  · exact noTop_binary hop hsep (hs.deep op hop k hk) hs.parity (ht.deep op hop k hk)
      (Or.inl hk.ne')

namespace LibBoolEE.Scan

variable {formula : StdString} {op : Char}

/-- A printed byte is read into the operand, unless it is the operator outside of parentheses. -/
theorem step_printed {p : StdString} {k : Int} {out : List StdString} {c : UInt8}
    (hc : printChar c = true) (htop : (decide (k = 0) && isChar op c) = false) :
    step formula op ⟨some p, k, out⟩ c = .ok ⟨some (p ++ [c]), k + weight c, out⟩ := by
  have hkind : isChar ')' c = true ∨ isChar '(' c = true ∨ inName c = true ∨ anyOf "&|" c = true := by
    simp only [printChar, anyOf, Bool.or_eq_true, List.contains_iff_mem] at hc
    rcases hc with hc | hc
    · exact Or.inr (Or.inr (Or.inl (by simp [inName, belongsToName_of_isNameChar hc])))
    · fin_cases hc <;> decide
  unfold step weight
  cases hclose : isChar ')' c with
  | true => rfl
  | false =>
      cases hopen : isChar '(' c with
      | true => rfl
      | false =>
          simp only [hclose, hopen, Bool.false_eq_true, false_or, if_false, Int.add_zero] at hkind ⊢
          by_cases hzero : k = 0
          · have hop : isChar op c = false := by simpa [hzero] using htop
            rw [if_pos hzero, hop]
            cases hname : inName c with
            | true => rfl
            | false =>
                simp only [hname, Bool.false_eq_true, false_or] at hkind
                simp [hkind]
          · rw [if_neg hzero]
            rfl

theorem step_start {c : UInt8} (hc : isChar '(' c = true ∨ inName c = true) :
    step formula op {} c = .ok ⟨some [c], weight c, []⟩ := by
  unfold step weight
  cases hclose : isChar ')' c with
  | true =>
      obtain rfl : c = 41 := by simpa [isChar] using hclose
      exact absurd hc (by decide)
  | false =>
      cases hopen : isChar '(' c with
      | true => rfl
      | false =>
          have hname : inName c = true := hc.resolve_left (by simp [hopen])
          simp [hname]

/-- **A printed part is read as a whole.** -/
theorem run_printed (s : StdString) {p : StdString} {k : Int} {out : List StdString}
    (hs : ∀ c ∈ s, printChar c = true) (htop : noTop op k s = true) :
    s.foldlM (step formula op) ⟨some p, k, out⟩ = .ok ⟨some (p ++ s), k + parity s, out⟩ := by
  induction s generalizing p k with
  | nil => simp [pure, Except.pure]
  | cons c s ih =>
      rw [noTop, Bool.and_eq_true, Bool.not_eq_true'] at htop
      rw [List.foldlM_cons, step_printed (hs c (List.mem_cons_self ..)) htop.1]
      refine (ih (fun d hd => hs d (List.mem_cons_of_mem _ hd)) htop.2).trans ?_
      rw [List.append_assoc, List.singleton_append, Int.add_assoc, parity_cons]

/-- From the start as well. -/
theorem run_start {s : StdString} (hs : Closed s) (htop : noTop op 0 s = true) :
    s.foldlM (step formula op) {} = .ok ⟨some s, 0, []⟩ := by
  obtain ⟨c, hc, hstart⟩ := hs.start
  obtain ⟨s, rfl⟩ := List.head?_eq_some_iff.mp hc
  rw [noTop, Bool.and_eq_true, Int.zero_add] at htop
  rw [List.foldlM_cons, step_start hstart]
  refine (run_printed s (fun d hd => hs.chars d (List.mem_cons_of_mem _ hd)) htop.2).trans ?_
  rw [← parity_cons, hs.parity]
  rfl

end LibBoolEE.Scan

theorem singleParse_one {op : Char} {s : StdString} (hs : Closed s) (htop : noTop op 0 s = true) :
    singleParse s op = .ok [s] := by
  rw [singleParse_eq, Scan.run_start hs htop]
  rfl

theorem singleParse_two {op : Char} (hop : IsOp op) {s t : StdString} (hs : Part s) (ht : Part t) :
    singleParse (s ++ op.toNat.toUInt8 :: t) op = .ok [s, t] := by
  have hstep (formula : StdString) : Scan.step formula op ⟨some s, 0, []⟩ op.toNat.toUInt8 =
      .ok ⟨some [], 0, [s]⟩ := by
    rcases hop with rfl | rfl <;> rfl
  rw [singleParse_eq, List.foldlM_append, Scan.run_start hs.toClosed (hs.top op hop)]
  show (Scan.step _ op ⟨some s, 0, []⟩ op.toNat.toUInt8 >>= t.foldlM (Scan.step _ op)) >>= _ = _
  rw [hstep]
  show t.foldlM (Scan.step _ op) _ >>= _ = _
  rw [Scan.run_printed t ht.chars (ht.top op hop), ht.parity]
  rfl

/-! ## Evaluating a printed formula -/

theorem isSpace_of_printChar {c : UInt8} (h : printChar c = true) : LibBoolEE.isSpace c = false := by
  have hlow : 32 < c.toNat := by
    simp only [printChar, isNameChar, inRange, anyOf, Bool.or_eq_true, Bool.and_eq_true,
      decide_eq_true_eq, UInt8.le_iff_toNat_le, List.contains_iff_mem] at h
    rcases h with ((h | h) | h) | h
    · exact Nat.lt_of_lt_of_le (by decide) h.1
    · exact Nat.lt_of_lt_of_le (by decide) h.1
    · fin_cases h <;> decide
    · fin_cases h <;> decide
  have hne : c ≠ 32 := by
    rintro rfl
    exact absurd hlow (by decide)
  have hhigh : ¬ c ≤ 13 := by
    rw [UInt8.le_iff_toNat_le]
    exact Nat.not_le.mpr (Nat.lt_trans (by decide) hlow)
  simp [LibBoolEE.isSpace, hne, hhigh]

theorem Closed.removeWhitespaces {s : StdString} (h : Closed s) : removeWhitespaces s = s :=
  removeWhitespaces_eq (fun c hc => isSpace_of_printChar (h.chars c hc))

theorem Closed.isEmpty {s : StdString} (h : Closed s) : ¬ s.isEmpty = true := by
  obtain ⟨c, hc, -⟩ := h.start
  obtain ⟨s, rfl⟩ := List.head?_eq_some_iff.mp hc
  exact Bool.false_ne_true

section Eval

variable {valuation : Vals} {depth : Nat} {s t : StdString} {x y : Bool}

theorem resolveRec_part (hs : Part s) : resolveRec valuation (depth + 1) s =
    resolveOperand (fun s => resolveRec valuation depth (removeWhitespaces s)) valuation s := by
  rw [resolveRec_succ, if_neg hs.isEmpty, singleParse_one hs.toClosed (hs.top '|' (Or.inl rfl)),
    singleParse_one hs.toClosed (hs.top '&' (Or.inr rfl))]
  rfl

theorem resolveRec_name (hs : QualifierName s) (h : valuation.lookup s = some x) :
    resolveRec valuation (depth + 1) s = .ok x := by
  have hchars := (qualifierName_iff.mp hs).1.1
  have hhead {c : Char} (hc : isNameChar c.toNat.toUInt8 = false) :
      ¬ (s.head?.map (isChar c)).getD false = true := by
    intro hmark
    cases s with
    | nil => cases hmark
    | cons b s =>
        obtain rfl : b = c.toNat.toUInt8 := by simpa [isChar] using hmark
        simp [hchars.1 _ (List.mem_cons_self ..)] at hc
  rw [resolveRec_part (.name hs), resolveOperand, if_neg (hhead (by decide)),
    if_neg (hhead (by decide)), if_neg, if_neg, h]
  · rintro rfl
    exact absurd hchars.2 (by decide)
  · rintro rfl
    exact absurd hchars.2 (by decide)

theorem resolveRec_paren (hs : Closed s) :
    resolveRec valuation (depth + 1) (bytes "(" ++ s ++ bytes ")") = resolveRec valuation depth s := by
  have hinner : ((bytes "(" ++ s ++ bytes ")").drop 1).take ((bytes "(" ++ s ++ bytes ")").length - 2) =
      s := by
    simp [bytes]
  rw [resolveRec_part (.paren hs), resolveOperand, if_neg (by simp [bytes, isChar]),
    if_pos (by simp [bytes, isChar]), hinner, hs.removeWhitespaces]

theorem resolveRec_not (hs : Part s) (h : resolveRec valuation depth s = .ok x) :
    resolveRec valuation (depth + 1) (bytes "!" ++ s) = .ok (!x) := by
  rw [resolveRec_part hs.not, resolveOperand, if_pos (by simp [bytes, isChar]),
    show (bytes "!" ++ s).drop 1 = s from rfl, hs.removeWhitespaces, h]
  rfl

theorem resolveAll_two {resolve : StdString → Except BoolError Bool} {combine : Bool → Bool → Bool}
    {r : Bool} (hx : resolve s = .ok x) (hy : resolve t = .ok y) :
    resolveAll resolve combine r [s, t] = .ok (combine (combine r x) y) := by
  simp only [resolveAll, hx, hy]
  rfl

theorem resolveRec_or (hs : Part s) (ht : Part t) (hx : resolveRec valuation depth s = .ok x)
    (hy : resolveRec valuation depth t = .ok y) :
    resolveRec valuation (depth + 1) (s ++ bytes "|" ++ t) = .ok (x || y) := by
  rw [List.append_assoc]
  show resolveRec valuation (depth + 1) (s ++ '|'.toNat.toUInt8 :: t) = _
  rw [resolveRec_succ, if_neg (Closed.binary (Or.inl rfl) hs ht).isEmpty,
    singleParse_two (Or.inl rfl) hs ht]
  exact (resolveAll_two (by rw [hs.removeWhitespaces, hx]) (by rw [ht.removeWhitespaces, hy])).trans
    (by rw [Bool.false_or])

theorem resolveRec_and (hs : Part s) (ht : Part t) (hx : resolveRec valuation depth s = .ok x)
    (hy : resolveRec valuation depth t = .ok y) :
    resolveRec valuation (depth + 1) (s ++ bytes "&" ++ t) = .ok (x && y) := by
  rw [List.append_assoc]
  show resolveRec valuation (depth + 1) (s ++ '&'.toNat.toUInt8 :: t) = _
  have hclosed := Closed.binary (Or.inr rfl) hs ht
  have hbar : noTop '|' 0 (s ++ '&'.toNat.toUInt8 :: t) = true :=
    noTop_binary (Or.inl rfl) (Or.inr rfl) (hs.top _ (Or.inl rfl)) hs.parity (ht.top _ (Or.inl rfl))
      (Or.inr (by decide))
  rw [resolveRec_succ, if_neg hclosed.isEmpty, singleParse_one hclosed hbar,
    singleParse_two (Or.inr rfl) hs ht]
  exact (resolveAll_two (by rw [hs.removeWhitespaces, hx]) (by rw [ht.removeWhitespaces, hy])).trans
    (by rw [Bool.true_and])

end Eval

namespace Formula

variable {φ : Formula}

theorem enclose_part (hprint : Closed φ.print) (hvalid : ∀ n ∈ φ.names, QualifierName n) :
    Part (φ.enclose φ.print) := by
  cases φ with
  | name n => exact .name (hvalid n (List.mem_singleton_self n))
  | not φ => exact .paren hprint
  | and φ ψ => exact .paren hprint
  | or φ ψ => exact .paren hprint

theorem print_closed (hvalid : ∀ n ∈ φ.names, QualifierName n) : Closed φ.print := by
  induction φ with
  | name n => exact (Part.name (hvalid n (List.mem_singleton_self n))).toClosed
  | not φ ih => exact (enclose_part (ih hvalid) hvalid).not.toClosed
  | and φ ψ ihφ ihψ =>
      rw [names, List.forall_mem_append] at hvalid
      rw [print, List.append_assoc]
      exact .binary (Or.inr rfl) (enclose_part (ihφ hvalid.1) hvalid.1)
        (enclose_part (ihψ hvalid.2) hvalid.2)
  | or φ ψ ihφ ihψ =>
      rw [names, List.forall_mem_append] at hvalid
      rw [print, List.append_assoc]
      exact .binary (Or.inl rfl) (enclose_part (ihφ hvalid.1) hvalid.1)
        (enclose_part (ihψ hvalid.2) hvalid.2)

theorem part (hvalid : ∀ n ∈ φ.names, QualifierName n) : Part (φ.enclose φ.print) :=
  enclose_part (print_closed hvalid) hvalid

variable {valuation : Vals} {tag : StdString → Bool}

theorem resolveRec_enclose {depth : Nat} (hvalid : ∀ n ∈ φ.names, QualifierName n)
    (h : ∀ depth, φ.print.length < depth → resolveRec valuation depth φ.print = .ok (φ.eval tag))
    (hdepth : (φ.enclose φ.print).length < depth) :
    resolveRec valuation depth (φ.enclose φ.print) = .ok (φ.eval tag) := by
  have hparen {s : StdString} (hs : Closed s) {r : Except BoolError Bool}
      (h : ∀ depth, s.length < depth → resolveRec valuation depth s = r)
      (hdepth : (bytes "(" ++ s ++ bytes ")").length < depth) :
      resolveRec valuation depth (bytes "(" ++ s ++ bytes ")") = r := by
    obtain ⟨d, rfl⟩ := Nat.exists_eq_succ_of_ne_zero (Nat.ne_zero_of_lt hdepth)
    rw [resolveRec_paren hs]
    refine h d ?_
    have hmarks : (bytes "(").length = 1 ∧ (bytes ")").length = 1 := ⟨rfl, rfl⟩
    simp only [List.length_append] at hdepth
    omega
  cases φ with
  | name n => exact h depth hdepth
  | not φ => exact hparen (print_closed hvalid) h hdepth
  | and φ ψ => exact hparen (print_closed hvalid) h hdepth
  | or φ ψ => exact hparen (print_closed hvalid) h hdepth

/-- **A printed formula evaluates to its meaning.** -/
theorem resolveRec_print (hvalid : ∀ n ∈ φ.names, QualifierName n)
    (htag : ∀ n ∈ φ.names, valuation.lookup n = some (tag n)) :
    ∀ depth, φ.print.length < depth → resolveRec valuation depth φ.print = .ok (φ.eval tag) := by
  induction φ with
  | name n =>
      intro depth hdepth
      obtain ⟨d, rfl⟩ := Nat.exists_eq_succ_of_ne_zero (Nat.ne_zero_of_lt hdepth)
      exact resolveRec_name (hvalid n (List.mem_singleton_self n)) (htag n (List.mem_singleton_self n))
  | not φ ih =>
      intro depth hdepth
      obtain ⟨d, rfl⟩ := Nat.exists_eq_succ_of_ne_zero (Nat.ne_zero_of_lt hdepth)
      simp only [print, List.length_append] at hdepth
      have hpart : (φ.enclose φ.print).length < d := by
        have : (bytes "!").length = 1 := rfl
        omega
      exact resolveRec_not (part hvalid) (resolveRec_enclose hvalid (ih hvalid htag) hpart)
  | and φ ψ ihφ ihψ =>
      intro depth hdepth
      obtain ⟨d, rfl⟩ := Nat.exists_eq_succ_of_ne_zero (Nat.ne_zero_of_lt hdepth)
      rw [names, List.forall_mem_append] at hvalid htag
      simp only [print, List.length_append] at hdepth
      have hsep : (bytes "&").length = 1 := rfl
      exact resolveRec_and (part hvalid.1) (part hvalid.2)
        (resolveRec_enclose hvalid.1 (ihφ hvalid.1 htag.1) (by omega))
        (resolveRec_enclose hvalid.2 (ihψ hvalid.2 htag.2) (by omega))
  | or φ ψ ihφ ihψ =>
      intro depth hdepth
      obtain ⟨d, rfl⟩ := Nat.exists_eq_succ_of_ne_zero (Nat.ne_zero_of_lt hdepth)
      rw [names, List.forall_mem_append] at hvalid htag
      simp only [print, List.length_append] at hdepth
      have hsep : (bytes "|").length = 1 := rfl
      exact resolveRec_or (part hvalid.1) (part hvalid.2)
        (resolveRec_enclose hvalid.1 (ihφ hvalid.1 htag.1) (by omega))
        (resolveRec_enclose hvalid.2 (ihψ hvalid.2 htag.2) (by omega))

/-- The two ways to print a whole formula. -/
def Prints (φ : Formula) (s : StdString) : Prop :=
  s = φ.print ∨ s = bytes "(" ++ φ.print ++ bytes ")"

/-- The names of a formula as a `std::set`. -/
def qualifiers (φ : Formula) : List StdString :=
  φ.names.foldl (fun qualifiers str => insertInOrder str qualifiers) []

theorem nameRuns_name {n run : StdString} (hn : ∀ c ∈ n, isNameChar c = true) (hne : run ++ n ≠ []) :
    nameRuns run n = [run ++ n] := by
  induction n generalizing run with
  | nil =>
      rw [List.append_nil] at hne ⊢
      rw [nameRuns, if_neg (by simpa using hne)]
  | cons c n ih =>
      rw [nameRuns, if_pos (hn c (List.mem_cons_self ..)),
        ih (fun d hd => hn d (List.mem_cons_of_mem _ hd)) (by simp), List.append_assoc,
        List.singleton_append]

theorem nameRuns_paren (s : StdString) : nameRuns [] (bytes "(" ++ s ++ bytes ")") = nameRuns [] s := by
  rw [List.append_assoc, ← List.nil_append (bytes "(" ++ _)]
  show nameRuns [] ([] ++ 40 :: (s ++ 41 :: [])) = _
  rw [nameRuns_append (by decide), nameRuns_append (by decide)]
  simp [nameRuns]

theorem nameRuns_enclose : nameRuns [] (φ.enclose φ.print) = nameRuns [] φ.print := by
  cases φ with
  | name n => rfl
  | not φ => exact nameRuns_paren _
  | and φ ψ => exact nameRuns_paren _
  | or φ ψ => exact nameRuns_paren _

theorem nameRuns_print (hvalid : ∀ n ∈ φ.names, QualifierName n) : nameRuns [] φ.print = φ.names := by
  induction φ with
  | name n =>
      have hn := hvalid n (List.mem_singleton_self n)
      exact nameRuns_name (qualifierName_iff.mp hn).1.1.1 hn.bytes.1
  | not φ ih =>
      rw [names, ← ih hvalid, ← nameRuns_enclose (φ := φ)]
      rfl
  | and φ ψ ihφ ihψ =>
      rw [names, List.forall_mem_append] at hvalid
      rw [names, print, List.append_assoc, ← ihφ hvalid.1, ← ihψ hvalid.2, ← nameRuns_enclose (φ := φ),
        ← nameRuns_enclose (φ := ψ)]
      exact nameRuns_append (by decide) [] _ _
  | or φ ψ ihφ ihψ =>
      rw [names, List.forall_mem_append] at hvalid
      rw [names, print, List.append_assoc, ← ihφ hvalid.1, ← ihψ hvalid.2, ← nameRuns_enclose (φ := φ),
        ← nameRuns_enclose (φ := ψ)]
      exact nameRuns_append (by decide) [] _ _

namespace Prints

variable {s : StdString}

theorem closed (h : Prints φ s) (hvalid : ∀ n ∈ φ.names, QualifierName n) : Closed s := by
  rcases h with rfl | rfl
  · exact print_closed hvalid
  · exact (Part.paren (print_closed hvalid)).toClosed

theorem resolve (h : Prints φ s) (hvalid : ∀ n ∈ φ.names, QualifierName n)
    (htag : ∀ n ∈ φ.names, valuation.lookup n = some (tag n)) :
    LibBoolEE.resolve s valuation = .ok (φ.eval tag) := by
  rw [LibBoolEE.resolve, (h.closed hvalid).removeWhitespaces]
  rcases h with rfl | rfl
  · exact resolveRec_print hvalid htag _ (Nat.lt_succ_self _)
  · rw [resolveRec_paren (print_closed hvalid)]
    refine resolveRec_print hvalid htag _ ?_
    have hmarks : (bytes "(").length = 1 ∧ (bytes ")").length = 1 := ⟨rfl, rfl⟩
    simp only [List.length_append]
    omega

theorem stripped (h : Prints φ s) (hvalid : ∀ n ∈ φ.names, QualifierName n) :
    getStrippedVerifierString s = s := by
  rw [getStrippedVerifierString, (h.closed hvalid).removeWhitespaces]
  refine List.filter_eq_self.mpr (fun c hc => ?_)
  rw [Bool.not_eq_true']
  by_contra hsharp
  obtain rfl : c = 35 := by simpa [isChar] using hsharp
  exact absurd ((h.closed hvalid).chars 35 hc) (by decide)

theorem extracted (h : Prints φ s) (hvalid : ∀ n ∈ φ.names, QualifierName n) :
    extractVerifierStringQualifiers s = φ.qualifiers := by
  rw [extractVerifierStringQualifiers, qualifiers, ← nameRuns_print hvalid]
  rcases h with rfl | rfl
  · rfl
  · rw [nameRuns_paren]

theorem mem_qualifiers {n : StdString} : n ∈ φ.qualifiers ↔ n ∈ φ.names := by
  rw [qualifiers, mem_foldl_insertInOrder]
  simp

theorem ne_true (h : Prints φ s) (hvalid : ∀ n ∈ φ.names, QualifierName n) : s ≠ bytes "true" := by
  rintro rfl
  exact absurd ((h.closed hvalid).chars 116 (by decide)) (by decide)

/-- A printed formula passes the check. -/
theorem checkVerifierString (h : Prints φ s) (hvalid : ∀ n ∈ φ.names, QualifierName n)
    (hlen : s.length ≤ 80) : RavenCash.checkVerifierString s = .ok φ.qualifiers := by
  rw [checkVerifierString_ok (h.ne_true hvalid), h.stripped hvalid, h.extracted hvalid]
  refine ⟨fun hnil => (h.closed hvalid).isEmpty (by simp [hnil]), hlen, rfl,
    fun n hn => hvalid n (mem_qualifiers.mp hn), φ.eval (fun _ => true), ?_⟩
  exact h.resolve hvalid (fun n hn => List.lookup_graph (fun _ => true) (mem_qualifiers.mpr hn))

end Prints

end Formula

/-! ## The check against the asset state -/

/-- The answers to one question for each of the names, asked in order. -/
def askAll (q : StdString → LRUCaches → Bool × LRUCaches) :
    List StdString → LRUCaches → Vals × LRUCaches
  | [], lru => ([], lru)
  | name :: names, lru =>
      let (answer, lru) := q name lru
      let (vals, lru) := askAll q names lru
      ((name, answer) :: vals, lru)

theorem askAll_names (q : StdString → LRUCaches → Bool × LRUCaches) (names : List StdString)
    (lru : LRUCaches) : (askAll q names lru).1.map Prod.fst = names := by
  induction names generalizing lru with
  | nil => rfl
  | cons name names ih => exact congrArg (name :: ·) (ih (q name lru).2)

section Contextual

variable [NodeCrypto] (g : Globals) (cache : CAssetsCache)

/-- Whether the qualifier of the name is issued. -/
def qualifierIssued (name : StdString) (lru : LRUCaches) : Bool × LRUCaches :=
  checkIfAssetExists g ⟨cache, lru⟩ (QUALIFIER_CHAR ++ name) true

/-- Whether the address has the tag of the name. -/
def hasTag (address name : StdString) (lru : LRUCaches) : Bool × LRUCaches :=
  checkForAddressQualifier g ⟨cache, lru⟩ (QUALIFIER_CHAR ++ name) address true

theorem qualifierVals_eq (address : StdString) (names : List StdString) (lru : LRUCaches) :
    qualifierVals g cache address names lru =
      (.ok (askAll (hasTag g cache address) names lru).1,
        (askAll (hasTag g cache address) names lru).2) := by
  -- the loop goes on from the values it already has
  suffices hgen : ∀ (names : List StdString) (vals : Vals) (lru : LRUCaches),
      Checked.foldChecks (fun vals qualifier => do
          let has_qualifier ← .ask (hasTag g cache address qualifier)
          return vals ++ [(qualifier, has_qualifier)]) vals names lru =
        ((.ok (vals ++ (askAll (hasTag g cache address) names lru).1),
          (askAll (hasTag g cache address) names lru).2) : Except String Vals × LRUCaches) from
    hgen names [] lru
  intro names
  induction names with
  | nil =>
      intro vals lru
      rw [askAll, List.append_nil]
      rfl
  | cons name names ih =>
      intro vals lru
      refine (ih (vals ++ [(name, (hasTag g cache address name lru).1)])
        (hasTag g cache address name lru).2).trans ?_
      rw [List.append_assoc]
      rfl

/-- The check of one qualifier. -/
def issuedCheck (qualifier : StdString) : AssetCheck Unit := do
  let fExists ← .ask (qualifierIssued g cache qualifier)
  .lift (failIf (!fExists) "bad-txns-null-verifier-contains-non-issued-qualifier")

/-- The answers are all yes. -/
def AllIssued (names : List StdString) (lru : LRUCaches) : Prop :=
  ∀ answer ∈ (askAll (qualifierIssued g cache) names lru).1, answer.2 = true

omit [NodeCrypto] in
/-- The loop over the qualifiers passes exactly when all of them are issued. -/
theorem forEach_issuedCheck (names : List StdString) (lru : LRUCaches) :
    (AllIssued g cache names lru ∧ Checked.forEach (issuedCheck g cache) names lru =
      (.ok (), (askAll (qualifierIssued g cache) names lru).2)) ∨
    (¬ AllIssued g cache names lru ∧ (Checked.forEach (issuedCheck g cache) names lru).1 =
      .error "bad-txns-null-verifier-contains-non-issued-qualifier") := by
  induction names generalizing lru with
  | nil => exact Or.inl ⟨by simp [AllIssued, askAll], rfl⟩
  | cons name names ih =>
      have hall : AllIssued g cache (name :: names) lru ↔
          (qualifierIssued g cache name lru).1 = true ∧
            AllIssued g cache names (qualifierIssued g cache name lru).2 := List.forall_mem_cons
      have hstep : issuedCheck g cache name lru =
          (failIf (!(qualifierIssued g cache name lru).1)
            "bad-txns-null-verifier-contains-non-issued-qualifier",
            (qualifierIssued g cache name lru).2) := rfl
      cases hname : (qualifierIssued g cache name lru).1 with
      | false =>
          rw [hname] at hstep hall
          refine Or.inr ⟨fun h => Bool.false_ne_true (hall.mp h).1, ?_⟩
          exact Checked.bind_of_error (congrArg Prod.fst hstep)
      | true =>
          rw [hname] at hstep hall
          have hrun : Checked.forEach (issuedCheck g cache) (name :: names) lru =
              Checked.forEach (issuedCheck g cache) names (qualifierIssued g cache name lru).2 :=
            Checked.bind_of_ok hstep
          rcases ih (qualifierIssued g cache name lru).2 with ⟨hrest, hok⟩ | ⟨hrest, herr⟩
          · exact Or.inl ⟨hall.mpr ⟨rfl, hrest⟩, hrun.trans hok⟩
          · exact Or.inr ⟨fun h => hrest (hall.mp h).2, hrun ▸ herr⟩

/-- What `ContextualCheckVerifierString` finds for a string that passes `CheckVerifierString`. -/
theorem contextualCheckVerifierString_cases {verifier : StdString} (htrue : verifier ≠ bytes "true")
    {found : List StdString} (hcheck : checkVerifierString verifier = .ok found)
    (address : StdString) (lru : LRUCaches) :
    (¬ AllIssued g cache found lru ∧ (contextualCheckVerifierString g cache verifier address lru).1 =
      .error "bad-txns-null-verifier-contains-non-issued-qualifier") ∨
    (AllIssued g cache found lru ∧ (contextualCheckVerifierString g cache verifier address lru).1 =
      if address.isEmpty then .ok ()
      else match resolve verifier (askAll (hasTag g cache address) found
          (askAll (qualifierIssued g cache) found lru).2).1 with
        | .ok ret => failIf (!ret) "bad-txns-null-verifier-address-failed-verification"
        | .error _ => .error "bad-txns-null-verifier-failed-contexual-syntax-check") := by
  have hbody : contextualCheckVerifierString g cache verifier address lru =
      (Checked.forEach (issuedCheck g cache) found >>= fun _ =>
        if address.isEmpty then pure ()
        else do
          let vals ← qualifierVals g cache address found
          match resolve verifier vals with
          | .ok ret => .lift (failIf (!ret) "bad-txns-null-verifier-address-failed-verification")
          | .error _ => .lift (.error "bad-txns-null-verifier-failed-contexual-syntax-check")) lru := by
    rw [contextualCheckVerifierString, if_neg htrue, hcheck]
    rfl
  rw [hbody]
  rcases forEach_issuedCheck g cache found lru with ⟨hall, hok⟩ | ⟨hall, herr⟩
  · refine Or.inr ⟨hall, ?_⟩
    rw [Checked.bind_of_ok hok]
    by_cases haddress : address.isEmpty = true
    · rw [if_pos haddress, if_pos haddress]
      rfl
    · rw [if_neg haddress, if_neg haddress, Checked.bind_of_ok (qualifierVals_eq g cache address found _)]
      cases resolve verifier (askAll (hasTag g cache address) found
        (askAll (qualifierIssued g cache) found lru).2).1 <;> rfl
  · exact Or.inl ⟨hall, Checked.bind_of_error herr⟩

end Contextual

theorem lookup_isSome (v : Vals) (n : StdString) :
    (v.lookup n).isSome = (v.map Prod.fst).contains n := by
  induction v with
  | nil => rfl
  | cons p v ih =>
      obtain ⟨name, b⟩ := p
      rw [List.lookup_cons, List.map_cons, List.contains_cons]
      cases hn : n == name with
      | true => rfl
      | false => simpa using ih

/-- **A string that passes the syntax check evaluates under every valuation of its qualifiers**, so the
check against the asset state never fails on its syntax. -/
theorem evaluates_of_checkVerifierString [NodeCrypto] {verifier : StdString} {found : List StdString}
    (hcheck : checkVerifierString verifier = .ok found) :
    (verifier ≠ bytes "true" → ∀ vals : Vals, vals.map Prod.fst = found →
      ∃ b, resolve verifier vals = .ok b) ∧
    ∀ (g : Globals) (cache : CAssetsCache) (address : StdString) (lru : LRUCaches),
      (contextualCheckVerifierString g cache verifier address lru).1 ≠
        .error "bad-txns-null-verifier-failed-contexual-syntax-check" := by
  have heval : verifier ≠ bytes "true" → ∀ vals : Vals, vals.map Prod.fst = found →
      ∃ b, resolve verifier vals = .ok b := by
    intro htrue vals hkeys
    obtain ⟨-, -, -, -, b, hb⟩ := (checkVerifierString_ok htrue).mp hcheck
    have hsame : outcome (resolve verifier vals) =
        outcome (resolve verifier (found.map (fun q => (q, true)))) := by
      refine outcome_resolveRec (fun n => ?_) _ _
      rw [lookup_isSome, lookup_isSome, hkeys, List.map_map]
      simp [Function.comp_def]
    rw [hb] at hsame
    obtain ⟨b', hb', -⟩ := map_ok.mp hsame
    exact ⟨b', hb'⟩
  refine ⟨heval, fun g cache address lru => ?_⟩
  by_cases htrue : verifier = bytes "true"
  · rw [contextualCheckVerifierString, if_pos htrue]
    exact fun h => by cases h
  rcases contextualCheckVerifierString_cases g cache htrue hcheck address lru with
    ⟨-, herr⟩ | ⟨-, hrun⟩
  · rw [herr]
    decide
  · rw [hrun]
    obtain ⟨b, hb⟩ := heval htrue _ (askAll_names (hasTag g cache address) found _)
    rw [hb]
    split_ifs
    · exact fun h => by cases h
    · cases b <;> decide

section

attribute [local instance] mainnetCrypto

/-- `AAA|!BBB` evaluates whatever the tags are, and the check does not fail on its syntax. -/
theorem evaluates_or_not :
    checkVerifierString (bytes "AAA|!BBB") = .ok [bytes "AAA", bytes "BBB"] ∧
      (contextualCheckVerifierString {} {} (bytes "AAA|!BBB") (bytes "address") {}).1 ≠
        .error "bad-txns-null-verifier-failed-contexual-syntax-check" := by
  have hcheck : checkVerifierString (bytes "AAA|!BBB") = .ok [bytes "AAA", bytes "BBB"] := by
    decide +kernel
  exact ⟨hcheck, (evaluates_of_checkVerifierString hcheck).2 {} {} (bytes "address") {}⟩

end

/-- The value of a name among the answers. -/
def tagAmong (vals : Vals) (name : StdString) : Bool := (vals.lookup name).getD false

/-- **`ContextualCheckVerifierString` passes a printed formula exactly when all its qualifiers are issued
and, with an address, the formula is true under the tags of the address.** -/
theorem contextualCheckVerifierString_prints [NodeCrypto] {φ : Formula} {s : StdString}
    (hprint : φ.Prints s) (hvalid : ∀ n ∈ φ.names, QualifierName n) (hlen : s.length ≤ 80)
    (g : Globals) (cache : CAssetsCache) (address : StdString) (lru : LRUCaches) :
    (contextualCheckVerifierString g cache s address lru).1 = .ok () ↔
      AllIssued g cache φ.qualifiers lru ∧ (address = [] ∨
        φ.eval (tagAmong (askAll (hasTag g cache address) φ.qualifiers
          (askAll (qualifierIssued g cache) φ.qualifiers lru).2).1) = true) := by
  have hcheck := hprint.checkVerifierString hvalid hlen
  rcases contextualCheckVerifierString_cases g cache (hprint.ne_true hvalid) hcheck address lru with
    ⟨hall, herr⟩ | ⟨hall, hrun⟩
  · rw [herr]
    exact ⟨fun h => (by cases h), fun h => absurd h.1 hall⟩
  · generalize htags : (askAll (hasTag g cache address) φ.qualifiers
      (askAll (qualifierIssued g cache) φ.qualifiers lru).2).1 = tags at hrun ⊢
    have hlookup : ∀ n ∈ φ.names, tags.lookup n = some (tagAmong tags n) := by
      intro n hn
      have hsome : (tags.lookup n).isSome = true := by
        rw [lookup_isSome, ← htags, askAll_names, List.contains_iff_mem, Formula.Prints.mem_qualifiers]
        exact hn
      obtain ⟨b, hb⟩ := Option.isSome_iff_exists.mp hsome
      rw [tagAmong, hb]
      rfl
    rw [hrun, hprint.resolve hvalid hlookup, and_iff_right hall]
    cases address with
    | nil => simp
    | cons c address => simp

theorem qualifierName_aaa : ∀ n ∈ (Formula.not (.name (bytes "AAA"))).names, QualifierName n := by
  rw [Formula.names, Formula.names, List.forall_mem_singleton, QualifierName]
  decide

section

attribute [local instance] mainnetCrypto

/-- While nothing is known of the assets, `!AAA` passes for an address without the tag. -/
theorem contextualCheckVerifierString_not_reindexing :
    (Formula.not (.name (bytes "AAA"))).Prints (bytes "!AAA") ∧
      (contextualCheckVerifierString { fReindex := true } {} (bytes "!AAA") (bytes "address") {}).1 =
        .ok () := by
  have hprint : (Formula.not (.name (bytes "AAA"))).Prints (bytes "!AAA") := Or.inl rfl
  refine ⟨hprint, (contextualCheckVerifierString_prints hprint qualifierName_aaa (by decide)
    { fReindex := true } {} (bytes "address") {}).mpr ⟨?_, Or.inr ?_⟩⟩
  · simp [AllIssued, Formula.qualifiers, Formula.names, insertInOrder, askAll, qualifierIssued,
      checkIfAssetExists]
  · rfl

/-- `!AAA` is true for an address without the tag, and fails when `#AAA` is not issued. -/
theorem contextualCheckVerifierString_not_issued :
    (Formula.not (.name (bytes "AAA"))).Prints (bytes "!AAA") ∧
      (Formula.not (.name (bytes "AAA"))).eval
        (fun name => (hasTag {} {} (bytes "address") name {}).1) = true ∧
      (contextualCheckVerifierString {} {} (bytes "!AAA") (bytes "address") {}).1 ≠ .ok () := by
  have hprint : (Formula.not (.name (bytes "AAA"))).Prints (bytes "!AAA") := Or.inl rfl
  refine ⟨hprint, rfl, ?_⟩
  have hcheck := hprint.checkVerifierString qualifierName_aaa (by decide)
  rcases contextualCheckVerifierString_cases {} {} (hprint.ne_true qualifierName_aaa) hcheck
    (bytes "address") {} with ⟨-, herr⟩ | ⟨hall, -⟩
  · rw [herr]
    decide
  · exact absurd (hall (bytes "AAA", false) (List.mem_singleton_self _)) Bool.false_ne_true

end

end RavenCash
