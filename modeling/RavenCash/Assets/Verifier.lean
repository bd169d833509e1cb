import RavenCash.Assets.Codec
import RavenCash.Basic.Encoding

/-!
# Verifier strings

`LibBoolEE`, the evaluator of boolean expressions over qualifier names, and the checks of
`assets/assets.cpp` on a verifier string that need no asset state. An exception of `LibBoolEE` is a
`BoolError`; its text is only logged.

`resolveRec` calls itself on strictly shorter strings, so the length of the string bounds the depth
of the recursion.
-/

set_option autoImplicit false

namespace RavenCash

/-- The characters of a byte string, for an error text. -/
def text (s : StdString) : String := String.ofList (s.map (fun b => Char.ofNat b.toNat))

/-! ## `LibBoolEE` -/

namespace LibBoolEE

/-- What `LibBoolEE` throws. -/
inductive BoolError where
  | unknownOperator (c : UInt8) (formula : StdString)
  | parenthesisParity (formula : StdString)
  | emptySubExpression
  | notAFormula (source : StdString)
  | variableNotFound (source : StdString)
deriving DecidableEq, Repr

def isSpace (b : UInt8) : Bool := b == 32 || (decide (9 ≤ b) && decide (b ≤ 13))

def belongsToName (b : UInt8) : Bool :=
  inRange 'a' 'z' b || inRange 'A' 'Z' b || inRange '0' '9' b || anyOf "_#." b

def removeWhitespaces (source : StdString) : StdString := source.filter (fun b => !isSpace b)

def removeCharacter (source : StdString) (ch : Char) : StdString :=
  source.filter (fun b => !isChar ch b)

/-- The variables of the loop of `singleParse`. -/
structure ParseState where
  start_pos : Option Nat := none
  parity_count : Int := 0
  subexpressions : List StdString := []
deriving DecidableEq, Repr

/-- One iteration of `singleParse`, at position `i`. -/
def parseStep (formula : StdString) (op : Char) (st : ParseState) (i : Nat) (c : UInt8) :
    Except BoolError ParseState :=
  if isChar ')' c then .ok { st with parity_count := st.parity_count - 1 }
  else if isChar '(' c then
    .ok { st with parity_count := st.parity_count + 1, start_pos := st.start_pos.or (some i) }
  else if st.parity_count = 0 then
    let inName := belongsToName c || isChar '!' c
    match st.start_pos with
    | none => .ok (if inName then { st with start_pos := some i } else st)
    | some start =>
        if inName then .ok st
        else if isChar op c then
          .ok { st with
            subexpressions := st.subexpressions ++ [(formula.drop start).take (i - start)]
            start_pos := some (i + 1) }
        else if anyOf "&|" c then .ok st
        else .error (.unknownOperator c formula)
  else .ok st

def parseLoop (formula : StdString) (op : Char) : Nat → StdString → ParseState →
    Except BoolError ParseState
  | _, [], st => .ok st
  | i, c :: rest, st => do
      let st ← parseStep formula op st i c
      parseLoop formula op (i + 1) rest st

/-- The operands of `op` at the top level of the formula. -/
def singleParse (formula : StdString) (op : Char) : Except BoolError (List StdString) := do
  let st ← parseLoop formula op 0 formula {}
  let subexpressions := match st.start_pos with
    | some start => st.subexpressions ++ [formula.drop start]
    | none => st.subexpressions
  if st.parity_count ≠ 0 then .error (.parenthesisParity formula) else .ok subexpressions

/-- A valuation of qualifier names. -/
abbrev Vals := List (StdString × Bool)

/-- Every operand is evaluated, also after the result is decided. -/
def resolveAll (resolve : StdString → Except BoolError Bool) (combine : Bool → Bool → Bool) :
    Bool → List StdString → Except BoolError Bool
  | result, [] => .ok result
  | result, s :: rest => do
      let r ← resolve s
      resolveAll resolve combine (combine result r) rest

def resolveRec (valuation : Vals) : Nat → StdString → Except BoolError Bool
  | 0, _ => .error .emptySubExpression
  | depth + 1, source => do
      let resolve s := resolveRec valuation depth (removeWhitespaces s)
      if source.isEmpty then .error .emptySubExpression
      else
        let disjuncts ← singleParse source '|'
        if 1 < disjuncts.length then resolveAll resolve (· || ·) false disjuncts
        else
          let subexpressions ← if disjuncts.length = 1 then singleParse source '&' else .ok disjuncts
          match subexpressions with
          | [] => .error (.notAFormula source)
          | [_] =>
              if (source.head?.map (isChar '!')).getD false then do
                let r ← resolve (source.drop 1)
                return !r
              else if (source.head?.map (isChar '(')).getD false then
                resolve ((source.drop 1).take (source.length - 2))
              else if source = bytes "1" then .ok true
              else if source = bytes "0" then .ok false
              else
                match valuation.lookup source with
                | some b => .ok b
                | none => .error (.variableNotFound source)
          | _ => resolveAll resolve (· && ·) true subexpressions

/-- `LibBoolEE::resolve`: the value of the formula under the valuation. -/
def resolve (source : StdString) (valuation : Vals) : Except BoolError Bool :=
  resolveRec valuation (source.length + 1) (removeWhitespaces source)

end LibBoolEE

/-! ## Checks without asset state -/

/-- The order of `std::string`. -/
def stdLess : StdString → StdString → Bool
  | [], [] => false
  | [], _ :: _ => true
  | _ :: _, [] => false
  | a :: s, b :: t => decide (a < b) || (a == b && stdLess s t)

/-- `set.insert(str)` for a `std::set<std::string>` given by its elements in order. -/
def insertInOrder (str : StdString) : List StdString → List StdString
  | [] => [str]
  | q :: set =>
      if str = q then q :: set
      else if stdLess str q then str :: q :: set
      else q :: insertInOrder str set

@[simp] theorem mem_insertInOrder {str x : StdString} {set : List StdString} :
    x ∈ insertInOrder str set ↔ x = str ∨ x ∈ set := by
  induction set with
  | nil => simp [insertInOrder]
  | cons q set ih =>
      unfold insertInOrder
      by_cases heq : str = q
      · subst heq
        simp
      · rw [if_neg heq]
        by_cases hless : stdLess str q
        · rw [if_pos hless]
          simp
        · rw [if_neg hless, List.mem_cons, ih, List.mem_cons]
          tauto

theorem mem_foldl_insertInOrder {x : StdString} (l acc : List StdString) :
    x ∈ l.foldl (fun names name => insertInOrder name names) acc ↔ x ∈ l ∨ x ∈ acc := by
  induction l generalizing acc with
  | nil => simp
  | cons a l ih =>
      rw [List.foldl_cons, ih, mem_insertInOrder, List.mem_cons]
      tauto

/-- The matches of `[A-Z0-9_.]+`, one after the other; `run` is the match being read. -/
def nameRuns : StdString → StdString → List StdString
  | run, [] => if run.isEmpty then [] else [run]
  | run, b :: s =>
      if isNameChar b then nameRuns (run ++ [b]) s
      else if run.isEmpty then nameRuns [] s
      else run :: nameRuns [] s

def extractVerifierStringQualifiers (verifier : StdString) : List StdString :=
  (nameRuns [] verifier).foldl (fun qualifiers str => insertInOrder str qualifiers) []

def getStrippedVerifierString (verifier : StdString) : StdString :=
  LibBoolEE.removeCharacter (LibBoolEE.removeWhitespaces verifier) '#'

def QUALIFIER_CHAR : StdString := bytes "#"

def firstInvalidQualifier (qualifiers : List StdString) : Option StdString :=
  qualifiers.find? (fun qualifier => !isQualifierNameValid (QUALIFIER_CHAR ++ qualifier))

/-- `CheckVerifierString`: the qualifiers found in the string. -/
def checkVerifierString (verifier : StdString) : Except String (List StdString) :=
  if verifier = bytes "true" then .ok []
  else if verifier.isEmpty then
    .error "Verifier string can not be empty. To default to true, use \"true\""
  else
    let strippedVerifier := getStrippedVerifierString verifier
    if 80 < strippedVerifier.length then
      .error "Verifier string has length greater than 80 after whitespaces and '#' are removed"
    else
      let setFoundQualifiers := extractVerifierStringQualifiers strippedVerifier
      match firstInvalidQualifier setFoundQualifiers with
      | some qualifier => .error ("bad-txns-null-verifier-invalid-asset-name-" ++ text qualifier)
      | none =>
          match LibBoolEE.resolve verifier (setFoundQualifiers.map (fun q => (q, true))) with
          | .ok _ => .ok setFoundQualifiers
          | .error _ => .error "bad-txns-null-verifier-failed-syntax-check"

def checkVerifierAssetTxOut (txout : CTxOut) : Except String Unit :=
  match assetNullVerifierDataFromScript txout.scriptPubKey with
  | none => .error "bad-txns-null-verifier-data-serialization"
  | some verifier =>
      if verifier.verifier_string.any (isChar ' ') then
        .error "bad-txns-null-verifier-data-contained-whitespaces"
      else if verifier.verifier_string.any (isChar '#') then
        .error "bad-txns-null-verifier-data-contained-qualifier-character-#"
      else (checkVerifierString verifier.verifier_string).map (fun _ => ())

end RavenCash
