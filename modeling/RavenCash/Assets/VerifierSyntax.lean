import RavenCash.Assets.VerifierParse

/-!
# The syntax of verifier strings

`Derives` is the grammar `E := T ('|' T)*`, `T := F ('&' F)*`, `F := '!' F | '(' E ')' | name`. A string
that passes `CheckVerifierString` need not be one of its formulas: in front of the first of several
operands the evaluator skips what does not start an operand. `opsFollow` says that nothing is skipped.
-/

set_option autoImplicit false

namespace RavenCash

open LibBoolEE

/-! ## The grammar -/

/-- A formula, a disjunct and a conjunct. -/
inductive Level where
  | E
  | T
  | F
deriving DecidableEq, Repr

inductive Derives (Name : StdString → Prop) : Level → StdString → Prop
  | expr {ts : List StdString} (hne : ts ≠ []) (hts : ∀ t ∈ ts, Derives Name .T t) :
      Derives Name .E ((bytes "|").intercalate ts)
  | term {fs : List StdString} (hne : fs ≠ []) (hfs : ∀ f ∈ fs, Derives Name .F f) :
      Derives Name .T ((bytes "&").intercalate fs)
  | not {f : StdString} (hf : Derives Name .F f) : Derives Name .F (bytes "!" ++ f)
  | paren {e : StdString} (he : Derives Name .E e) : Derives Name .F (bytes "(" ++ e ++ bytes ")")
  | name {n : StdString} (hn : Name n) : Derives Name .F n

/-- The name of a qualifier without its `#`. -/
def QualifierName (n : StdString) : Prop := isQualifierNameValid (QUALIFIER_CHAR ++ n) = true

theorem qualifierName_iff {n : StdString} : QualifierName n ↔ RootName n := by
  rw [QualifierName, isQualifierNameValid_iff]
  constructor
  · rintro ⟨root, heq, hroot⟩
    obtain rfl : n = root := List.append_cancel_left heq
    exact hroot
  · exact fun h => ⟨n, rfl, h⟩

theorem belongsToName_of_isNameChar {c : UInt8} (h : isNameChar c = true) : belongsToName c = true := by
  simp only [isNameChar, anyOf, belongsToName, Bool.or_eq_true, List.contains_iff_mem] at h ⊢
  rcases h with (h | h) | h
  · exact Or.inl (Or.inl (Or.inr h))
  · exact Or.inl (Or.inr h)
  · refine Or.inr ?_
    fin_cases h <;> decide

theorem QualifierName.bytes {n : StdString} (h : QualifierName n) :
    n ≠ [] ∧ ∀ c ∈ n, belongsToName c = true := by
  obtain ⟨⟨hchars, hlen⟩, -⟩ := (qualifierName_iff.mp h).1
  refine ⟨?_, fun c hc => belongsToName_of_isNameChar (hchars c hc)⟩
  rintro rfl
  exact absurd hlen (by decide)

theorem Derives.ofFactor {Name : StdString → Prop} {s : StdString} (h : Derives Name .F s) :
    Derives Name .T s := by
  simpa [List.intercalate] using Derives.term (List.cons_ne_nil s []) (by simpa using h)

theorem Derives.ofTerm {Name : StdString → Prop} {s : StdString} (h : Derives Name .T s) :
    Derives Name .E s := by
  simpa [List.intercalate] using Derives.expr (List.cons_ne_nil s []) (by simpa using h)

/-! ## Operators that follow an operand -/

/-- A byte that ends an operand. -/
def closes (c : UInt8) : Bool := belongsToName c || isChar ')' c

/-- Every byte that is not part of a name, `!` or a parenthesis directly follows the end of an operand;
`prev` is whether the byte in front of the string ends one. -/
def opsFollow : Bool → StdString → Bool
  | _, [] => true
  | prev, c :: s => (prev || inName c || isChar '(' c || isChar ')' c) && opsFollow (closes c) s

/-- Whether an operand ends at the end of the string. -/
def endsOperand (prev : Bool) (s : StdString) : Bool := (s.getLast?.map closes).getD prev

theorem opsFollow_append (prev : Bool) (s t : StdString) :
    opsFollow prev (s ++ t) = (opsFollow prev s && opsFollow (endsOperand prev s) t) := by
  induction s generalizing prev with
  | nil => simp [opsFollow, endsOperand]
  | cons c s ih =>
      have hend : endsOperand prev (c :: s) = endsOperand (closes c) s := by
        cases s <;> simp [endsOperand, List.getLast?_cons]
      rw [List.cons_append, opsFollow, opsFollow, ih, hend, Bool.and_assoc]

theorem endsOperand_append (prev : Bool) (s t : StdString) :
    endsOperand prev (s ++ t) = endsOperand (endsOperand prev s) t := by
  cases t using List.reverseRecOn with
  | nil => simp [endsOperand]
  | append_singleton t c => simp [endsOperand, ← List.append_assoc]

section

variable {Name : StdString → Prop}

/-- Operands with operators between them. -/
theorem opsFollow_intercalate {op : UInt8} (hop : closes op = false) {ts : List StdString}
    (hne : ts ≠ []) (h : ∀ t ∈ ts, opsFollow false t = true ∧ endsOperand false t = true) :
    opsFollow false ([op].intercalate ts) = true ∧ endsOperand false ([op].intercalate ts) = true := by
  induction ts with
  | nil => exact absurd rfl hne
  | cons t ts ih =>
      obtain ⟨ht, hend⟩ := h t (List.mem_cons_self ..)
      cases ts with
      | nil => simpa [List.intercalate] using ⟨ht, hend⟩
      | cons u ts =>
          obtain ⟨hrest, hrestEnd⟩ :=
            ih (List.cons_ne_nil _ _) (fun x hx => h x (List.mem_cons_of_mem _ hx))
          rw [List.intercalate_cons_cons, opsFollow_append, opsFollow_append, ht, hend,
            endsOperand_append, endsOperand_append]
          refine ⟨?_, ?_⟩
          · simpa [opsFollow, endsOperand, hop] using hrest
          · simpa [endsOperand, hop] using hrestEnd

theorem Derives.opsFollow (hName : ∀ n, Name n → n ≠ [] ∧ ∀ c ∈ n, belongsToName c = true)
    {level : Level} {s : StdString} (h : Derives Name level s) :
    RavenCash.opsFollow false s = true ∧ endsOperand false s = true := by
  induction h with
  | expr hne hts ih => exact opsFollow_intercalate (by decide) hne ih
  | term hne hfs ih => exact opsFollow_intercalate (by decide) hne ih
  | not hf ih =>
      rw [opsFollow_append, endsOperand_append]
      exact ih
  | paren he ih =>
      rw [opsFollow_append, opsFollow_append, endsOperand_append, endsOperand_append]
      have hopen : endsOperand false (bytes "(") = false := by decide
      rw [hopen, ih.1, ih.2]
      exact ⟨by decide, rfl⟩
  | @name n hn =>
      obtain ⟨hne, hall⟩ := hName n hn
      constructor
      · clear hne hn
        -- a name follows anything
        suffices hprev : ∀ prev, RavenCash.opsFollow prev n = true from hprev false
        induction n with
        | nil => exact fun _ => rfl
        | cons c n ih =>
            intro prev
            have hc := hall c (List.mem_cons_self ..)
            rw [RavenCash.opsFollow, ih (fun d hd => hall d (List.mem_cons_of_mem _ hd))]
            simp [inName, hc]
      · rw [endsOperand, List.getLast?_eq_some_getLast hne]
        simp [closes, hall _ (List.getLast_mem hne)]

end

/-! ## Parts of a formula -/

theorem opsFollow_of_intercalate {op : UInt8} (hop : closes op = false) {ts : List StdString}
    (h : opsFollow false ([op].intercalate ts) = true) : ∀ t ∈ ts, opsFollow false t = true := by
  induction ts with
  | nil => simp
  | cons t ts ih =>
      cases ts with
      | nil => simpa [List.intercalate] using h
      | cons u ts =>
          rw [List.intercalate_cons_cons, opsFollow_append, opsFollow_append, endsOperand_append,
            Bool.and_eq_true, Bool.and_eq_true] at h
          intro x hx
          rcases List.mem_cons.mp hx with rfl | hx
          · exact h.1.1
          · exact ih (by simpa [endsOperand, hop] using h.2) x hx

theorem noTop_of_intercalate {op : Char} {sep : UInt8} (hsep : weight sep = 0) {ps : List StdString}
    (hps : ∀ p ∈ ps, parity p = 0) (h : noTop op 0 ([sep].intercalate ps) = true) :
    ∀ p ∈ ps, noTop op 0 p = true := by
  induction ps with
  | nil => simp
  | cons p ps ih =>
      cases ps with
      | nil => simpa [List.intercalate] using h
      | cons q ps =>
          rw [List.intercalate_cons_cons, noTop_append, noTop_append, parity_append,
            hps p (List.mem_cons_self ..), Bool.and_eq_true, Bool.and_eq_true] at h
          intro x hx
          rcases List.mem_cons.mp hx with rfl | hx
          · exact h.1.1
          · exact ih (fun y hy => hps y (List.mem_cons_of_mem _ hy)) (by simpa [hsep] using h.2) x hx

/-- More than one operand has the operator between them. -/
theorem noTop_intercalate_eq_false {op : Char} {ps : List StdString} (hlen : 1 < ps.length)
    (hps : ∀ p ∈ ps, parity p = 0) :
    noTop op 0 ([op.toNat.toUInt8].intercalate ps) = false := by
  rcases ps with _ | ⟨p, _ | ⟨q, ps⟩⟩
  · simp at hlen
  · simp at hlen
  · rw [List.intercalate_cons_cons, noTop_append, noTop_append, hps p (List.mem_cons_self ..)]
    simp [noTop, isChar]

theorem nameRuns_append {c : UInt8} (hc : isNameChar c = false) (run s t : StdString) :
    nameRuns run (s ++ c :: t) = nameRuns run s ++ nameRuns [] t := by
  induction s generalizing run with
  | nil =>
      rw [List.nil_append, nameRuns, nameRuns, hc]
      cases run <;> rfl
  | cons b s ih =>
      rw [List.cons_append, nameRuns, nameRuns, ih, ih]
      split_ifs <;> rfl

theorem mem_nameRuns_intercalate {sep : UInt8} (hsep : isNameChar sep = false) {ps : List StdString}
    {p n : StdString} (hp : p ∈ ps) (hn : n ∈ nameRuns [] p) :
    n ∈ nameRuns [] ([sep].intercalate ps) := by
  induction ps with
  | nil => cases hp
  | cons q ps ih =>
      cases ps with
      | nil =>
          obtain rfl := List.mem_singleton.mp hp
          simpa [List.intercalate] using hn
      | cons r ps =>
          rw [List.intercalate_cons_cons, List.append_assoc, List.singleton_append,
            nameRuns_append hsep]
          rcases List.mem_cons.mp hp with rfl | hp
          · exact List.mem_append_left _ hn
          · exact List.mem_append_right _ (ih hp)

/-! ## What evaluates -/

/-- A formula in parentheses ends in one. -/
theorem eq_concat_close {s : StdString} (hs : parity (40 :: s) = 0)
    (hinner : parity (s.take (s.length - 1)) = 0) : s = s.take (s.length - 1) ++ [41] := by
  cases s using List.reverseRecOn with
  | nil => exact absurd hs (by decide)
  | append_singleton s c =>
      have htake : (s ++ [c]).take ((s ++ [c]).length - 1) = s := by simp
      rw [htake] at hinner ⊢
      have hweight : weight c = -1 := by
        have hopen : weight 40 = 1 := by decide
        rw [parity_cons, parity_append, parity_cons, parity_nil, hinner, hopen] at hs
        omega
      obtain rfl : c = 41 := by
        by_contra hne
        have hclose : isChar ')' c = false := by simpa [isChar] using hne
        rw [weight, hclose] at hweight
        split_ifs at hweight <;> omega
      rfl

namespace LibBoolEE.Resolves

variable {valuation : Vals} (hnames : ∀ n, (valuation.lookup n).isSome = true → RootName n)

include hnames

/-- What evaluates is not empty, does not start with `)` and has no `#`. -/
theorem wellFormed {s : StdString} (h : Resolves valuation s) :
    s ≠ [] ∧ (∀ c ∈ s.head?, isChar ')' c = false) ∧ (35 : UInt8) ∉ s := by
  induction h with
  | @split op s ps hop hparse hlen hor hps ih =>
      obtain ⟨hzero, hsplit⟩ := singleParse_ok hop hparse
      obtain ⟨junk, hsplit⟩ := hsplit (by rintro rfl; simp at hlen)
      have hclose := hsplit.noClose hop hzero (fun p hp => (hps p hp).parity_eq_zero)
      obtain ⟨p, q, rest, rfl⟩ : ∃ p q rest, ps = p :: q :: rest := by
        rcases ps with _ | ⟨p, _ | ⟨q, rest⟩⟩
        · simp at hlen
        · simp at hlen
        · exact ⟨p, q, rest, rfl⟩
      obtain ⟨c, p', rfl⟩ := List.exists_cons_of_ne_nil (ih p (List.mem_cons_self ..)).1
      have hsharp : (35 : UInt8) ∉ s := by
        rw [hsplit.eq, List.mem_append, not_or]
        refine ⟨fun hmem => absurd (hsplit.skipped hclose 35 hmem) (by decide), fun hmem => ?_⟩
        rcases mem_of_mem_intercalate hmem with heq | ⟨x, hx, hmem⟩
        · rcases hop with rfl | rfl <;> exact absurd heq (by decide)
        · exact (ih x hx).2.2 hmem
      refine ⟨?_, ?_, hsharp⟩
      · rw [hsplit.eq, List.intercalate_cons_cons]
        simp
      · rw [hsplit.eq, List.intercalate_cons_cons]
        cases junk with
        | nil => exact (ih _ (List.mem_cons_self ..)).2.1
        | cons d junk =>
            intro e he
            obtain rfl := Option.some.inj he
            exact hclose d (List.mem_cons_self ..)
  | not hor hand hs ih =>
      exact ⟨List.cons_ne_nil _ _, by simp [isChar], by simpa using ih.2.2⟩
  | @paren s p q hor hand hs ih =>
      have hconcat := eq_concat_close (singleParse_ok (Or.inl rfl) hor).1 hs.parity_eq_zero
      refine ⟨List.cons_ne_nil _ _, by simp [isChar], ?_⟩
      rw [hconcat]
      simpa using ih.2.2
  | value hor hs =>
      rcases hs with rfl | rfl | hs
      · exact ⟨by decide, by rintro c ⟨⟩; rfl, by decide⟩
      · exact ⟨by decide, by rintro c ⟨⟩; rfl, by decide⟩
      · obtain ⟨⟨hchars, hlen⟩, -⟩ := (hnames _ hs).1
        refine ⟨?_, ?_, fun hmem => absurd (hchars 35 hmem) (by decide)⟩
        · rintro rfl
          exact absurd hlen (by decide)
        · intro c hc
          by_contra hclose
          obtain rfl : c = 41 := by simpa [isChar] using hclose
          exact absurd (hchars 41 (List.mem_of_mem_head? hc)) (by decide)

/-- A formula with no operator out of place starts with an operand. -/
theorem starts {s : StdString} (h : Resolves valuation s) (hops : opsFollow false s = true) :
    ∃ c ∈ s.head?, isChar '(' c = true ∨ inName c = true := by
  obtain ⟨hne, hclose, -⟩ := h.wellFormed hnames
  obtain ⟨c, s, rfl⟩ := List.exists_cons_of_ne_nil hne
  refine ⟨c, rfl, ?_⟩
  rw [opsFollow, hclose c rfl] at hops
  simp only [Bool.false_or, Bool.or_false, Bool.and_eq_true, Bool.or_eq_true] at hops
  exact hops.1.symm

/-- **What evaluates is a formula of the grammar**, when every operator follows an operand: without the
operator of a level outside of parentheses, of the next one. -/
theorem derives {s : StdString} (h : Resolves valuation s) (hruns : ∀ n ∈ nameRuns [] s, RootName n)
    (hops : opsFollow false s = true) : Derives QualifierName .E s ∧
      (noTop '|' 0 s = true → Derives QualifierName .T s) ∧
      (noTop '|' 0 s = true → noTop '&' 0 s = true → Derives QualifierName .F s) := by
  -- nothing is skipped when a formula is split
  have hwhole {op : Char} (hop : IsOp op) {s : StdString} {ps : List StdString}
      (hres : Resolves valuation s) (hops : opsFollow false s = true)
      (hparse : singleParse s op = .ok ps) (hne : ps ≠ []) :
      s = [op.toNat.toUInt8].intercalate ps ∧ ∀ p ∈ ps, noTop op 0 p = true := by
    obtain ⟨junk, hsplit⟩ := (singleParse_ok hop hparse).2 hne
    obtain ⟨c, hc, hstart⟩ := hres.starts hnames hops
    obtain rfl := hsplit.junk_eq_nil hc hstart
    exact ⟨hsplit.eq, hsplit.noTop rfl⟩
  have hsingle {op : Char} (hop : IsOp op) {s p : StdString} (hres : Resolves valuation s)
      (hops : opsFollow false s = true) (hparse : singleParse s op = .ok [p]) :
      noTop op 0 s = true := by
    obtain ⟨rfl, htop⟩ := hwhole hop hres hops hparse (List.cons_ne_nil _ _)
    simpa [List.intercalate] using htop
  have hfactor {s : StdString} (hF : Derives QualifierName .F s) : Derives QualifierName .E s ∧
      (noTop '|' 0 s = true → Derives QualifierName .T s) ∧
      (noTop '|' 0 s = true → noTop '&' 0 s = true → Derives QualifierName .F s) :=
    ⟨hF.ofFactor.ofTerm, fun _ => hF.ofFactor, fun _ _ => hF⟩
  induction h with
  | @split op s ps hop hparse hlen hor hps ih =>
      have hres : Resolves valuation s := .split hop hparse hlen hor hps
      have hne : ps ≠ [] := by rintro rfl; simp at hlen
      obtain ⟨heq, htop⟩ := hwhole hop hres hops hparse hne
      have hzero : ∀ p ∈ ps, parity p = 0 := fun p hp => (hps p hp).parity_eq_zero
      have hnot : noTop op 0 s = false := by
        rw [heq]
        exact noTop_intercalate_eq_false hlen hzero
      have hpart : ∀ p ∈ ps, _ := fun p hp => ih p hp
        (fun n hn => hruns n (heq ▸ mem_nameRuns_intercalate
          (by rcases hop with rfl | rfl <;> decide) hp hn))
        (opsFollow_of_intercalate (by rcases hop with rfl | rfl <;> decide) (heq ▸ hops) p hp)
      rcases hop with rfl | rfl
      · have hE : Derives QualifierName .E s := by
          rw [heq]
          exact .expr hne (fun p hp => (hpart p hp).2.1 (htop p hp))
        exact ⟨hE, fun h => absurd h (by simp [hnot]), fun h => absurd h (by simp [hnot])⟩
      · obtain ⟨q, hq⟩ := hor rfl
        have hbar := hsingle (Or.inl rfl) hres hops hq
        rw [heq] at hbar
        have hT : Derives QualifierName .T s := by
          rw [heq]
          exact .term hne (fun p hp => (hpart p hp).2.2
            (noTop_of_intercalate (by decide) hzero hbar p hp) (htop p hp))
        exact ⟨hT.ofTerm, fun _ => hT, fun _ h => absurd h (by simp [hnot])⟩
  | @not s p q hor hand hs ih =>
      have hres : Resolves valuation (33 :: s) := .not hor hand hs
      have hbar := hsingle (Or.inl rfl) hres hops hor
      have hamp := hsingle (Or.inr rfl) hres hops hand
      have hrest : opsFollow false s = true := by
        rw [opsFollow, Bool.and_eq_true] at hops
        exact hops.2
      exact hfactor (.not ((ih hruns hrest).2.2 hbar hamp))
  | @paren s p q hor hand hs ih =>
      have hconcat := eq_concat_close (singleParse_ok (Or.inl rfl) hor).1 hs.parity_eq_zero
      generalize s.take (s.length - 1) = inner at hconcat hs ih
      subst hconcat
      have hinner : opsFollow false inner = true := by
        rw [opsFollow, opsFollow_append, Bool.and_eq_true, Bool.and_eq_true] at hops
        exact hops.2.1
      have hsub : ∀ n ∈ nameRuns [] inner, n ∈ nameRuns [] (40 :: (inner ++ [41])) := by
        intro n hn
        rw [← List.nil_append (40 :: _), nameRuns_append (by decide), nameRuns_append (by decide)]
        exact List.mem_append_right _ (List.mem_append_left _ hn)
      exact hfactor (.paren (ih (fun n hn => hruns n (hsub n hn)) hinner).1)
  | @value s p hor hs =>
      rcases hs with rfl | rfl | hs
      · exact absurd (hruns _ (List.mem_singleton_self _)).1.1.2 (by decide)
      · exact absurd (hruns _ (List.mem_singleton_self _)).1.1.2 (by decide)
      · exact hfactor (.name (qualifierName_iff.mpr (hnames s hs)))

end LibBoolEE.Resolves

/-! ## Accepted verifier strings -/

theorem firstInvalidQualifier_eq_none {qualifiers : List StdString} :
    firstInvalidQualifier qualifiers = none ↔ ∀ q ∈ qualifiers, QualifierName q := by
  simp [firstInvalidQualifier, QualifierName]

/-- What `CheckVerifierString` checks of a string other than `true`. -/
theorem checkVerifierString_ok {verifier : StdString} (htrue : verifier ≠ bytes "true")
    {found : List StdString} : checkVerifierString verifier = .ok found ↔
      verifier ≠ [] ∧ (getStrippedVerifierString verifier).length ≤ 80 ∧
      extractVerifierStringQualifiers (getStrippedVerifierString verifier) = found ∧
      (∀ q ∈ found, QualifierName q) ∧
      ∃ b, resolve verifier (found.map (fun q => (q, true))) = .ok b := by
  rw [checkVerifierString, if_neg htrue]
  generalize hex : extractVerifierStringQualifiers (getStrippedVerifierString verifier) = qualifiers
  by_cases hempty : verifier.isEmpty = true
  · rw [if_pos hempty]
    simp [List.isEmpty_iff.mp hempty]
  rw [if_neg hempty]
  have hne : verifier ≠ [] := fun h => hempty (List.isEmpty_iff.mpr h)
  by_cases hlen : 80 < (getStrippedVerifierString verifier).length
  · simp [hlen, hne, Nat.not_le.mpr hlen]
  · simp only [if_neg hlen, hne, Nat.le_of_not_lt hlen, hex, ne_eq, not_false_eq_true, true_and]
    cases hfirst : firstInvalidQualifier qualifiers with
    | some q =>
        have hnot : ¬ ∀ q ∈ qualifiers, QualifierName q := by
          rw [← firstInvalidQualifier_eq_none, hfirst]
          simp
        constructor
        · rintro ⟨⟩
        · rintro ⟨rfl, hall, -⟩
          exact absurd hall hnot
    | none =>
        have hall := firstInvalidQualifier_eq_none.mp hfirst
        cases hres : resolve verifier (qualifiers.map (fun q => (q, true))) with
        | error e =>
            constructor
            · rintro ⟨⟩
            · rintro ⟨rfl, -, b, hb⟩
              rw [hres] at hb
              cases hb
        | ok b =>
            constructor
            · intro h
              obtain rfl := Except.ok.inj h
              exact ⟨rfl, hall, b, hres⟩
            · rintro ⟨rfl, -⟩
              rfl

/-- What an accepted verifier string other than `true` evaluates to is found among its qualifiers. -/
theorem resolves_of_checkVerifierString {verifier : StdString} {found : List StdString}
    (h : checkVerifierString verifier = .ok found) (htrue : verifier ≠ bytes "true") :
    Resolves (found.map (fun q => (q, true))) (removeWhitespaces verifier) := by
  obtain ⟨-, -, -, -, b, hres⟩ := (checkVerifierString_ok htrue).mp h
  exact resolves_of_ok (fun c hc => by simpa using (List.mem_filter.mp hc).2) hres

theorem lookup_map_const {l : List StdString} {n : StdString}
    (h : ((l.map (fun q => (q, true))).lookup n).isSome = true) : n ∈ l := by
  induction l with
  | nil => cases h
  | cons q l ih =>
      rw [List.map_cons, List.lookup_cons] at h
      split at h
      · next heq =>
          obtain rfl : n = q := by simpa using heq
          exact List.mem_cons_self ..
      · exact List.mem_cons_of_mem _ (ih h)

/-- **An accepted verifier string is, stripped, a formula of the grammar exactly when every operator in it
follows an operand.** -/
theorem derives_iff_opsFollow {verifier : StdString} {found : List StdString}
    (h : checkVerifierString verifier = .ok found) (htrue : verifier ≠ bytes "true") :
    Derives QualifierName .E (getStrippedVerifierString verifier) ↔
      opsFollow false (getStrippedVerifierString verifier) = true := by
  obtain ⟨-, -, hfound, hvalid, -⟩ := (checkVerifierString_ok htrue).mp h
  have hres := resolves_of_checkVerifierString h htrue
  have hroots : ∀ n ∈ found, RootName n := fun n hn => qualifierName_iff.mp (hvalid n hn)
  have hnames : ∀ n, ((found.map (fun q => (q, true))).lookup n).isSome = true → RootName n :=
    fun n hn => hroots n (lookup_map_const hn)
  -- the string that is evaluated has no `#` to strip
  have hstripped : getStrippedVerifierString verifier = removeWhitespaces verifier := by
    refine List.filter_eq_self.mpr (fun c hc => ?_)
    rw [Bool.not_eq_true', isChar, beq_eq_false_iff_ne]
    rintro rfl
    exact (hres.wellFormed hnames).2.2 hc
  constructor
  · intro hder
    exact (hder.opsFollow (fun n hn => hn.bytes)).1
  · intro hops
    rw [hstripped] at hops ⊢
    refine (hres.derives hnames (fun n hn => hroots n ?_) hops).1
    rw [← hfound, hstripped, extractVerifierStringQualifiers, mem_foldl_insertInOrder]
    exact Or.inl hn

/-- `!AAA|BBB` is a formula. -/
theorem derives_not_or : opsFollow false (getStrippedVerifierString (bytes "!AAA|BBB")) = true ∧
    Derives QualifierName .E (getStrippedVerifierString (bytes "!AAA|BBB")) := by
  have hops : opsFollow false (getStrippedVerifierString (bytes "!AAA|BBB")) = true := by decide
  have hcheck : checkVerifierString (bytes "!AAA|BBB") = .ok [bytes "AAA", bytes "BBB"] := by
    decide +kernel
  exact ⟨hops, (derives_iff_opsFollow hcheck (by decide)).mpr hops⟩

/-- `&AAA|BBB` is accepted, and is no formula. -/
theorem accepted_not_derives : checkVerifierString (bytes "&AAA|BBB") = .ok [bytes "AAA", bytes "BBB"] ∧
    ¬ Derives QualifierName .E (getStrippedVerifierString (bytes "&AAA|BBB")) := by
  refine ⟨by decide +kernel, fun hder => ?_⟩
  exact absurd (hder.opsFollow (fun n hn => hn.bytes)).1 (by decide)

end RavenCash
