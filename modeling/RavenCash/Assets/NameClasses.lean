import RavenCash.Assets.Names

/-!
# The grammar of asset names

`InClass type s` is the documented grammar: words of name characters without leading, trailing or
doubled punctuation, put together with `/`, a tag or a mark, no reserved root, and the length counted
with everything. `Accepted type s` is the grammar that `IsAssetNameValid` implements
(`assetTypeOf_eq_some_iff`). They differ in four places:

* `LEADING_PUNCTUATION` and `RAVENCASH_NAMES` are matched against the whole of `$NAME`, where they never
  apply;
* `LEADING_PUNCTUATION` is matched against the whole of the sub qualifier `#NAME`;
* the tag of a vote is taken behind the last `^`, and only its characters are checked;
* only the characters of a unique tag are checked.
-/

set_option autoImplicit false

namespace RavenCash

/-! ## Words -/

/-- No two punctuation marks in a row and none at the end. -/
def Ended (s : StdString) : Prop :=
  hasDoublePunctuation s = false ∧ s.getLast?.any isPunctuation = false

/-- No punctuation at the start, at the end or twice in a row. -/
def Tidy (s : StdString) : Prop := Ended s ∧ s.head?.any isPunctuation = false

/-- At least `n` name characters. -/
def Chars (n : Nat) (s : StdString) : Prop := (∀ b ∈ s, isNameChar b = true) ∧ n ≤ s.length

def Word (n : Nat) (s : StdString) : Prop := Chars n s ∧ Tidy s

def reservedRoots : List StdString :=
  [bytes "RVN", bytes "RAVEN", bytes "RAVENCOIN", bytes "RVH", bytes "RAVENCASH",
    bytes "RAVENCASHCOIN"]

def RootName (s : StdString) : Prop := Word 3 s ∧ s ∉ reservedRoots

/-- A root name and the names below it, with slashes between them. -/
def Path (root : StdString) (subs : List StdString) (s : StdString) : Prop :=
  s = (bytes "/").intercalate (root :: subs) ∧ RootName root ∧ ∀ sub ∈ subs, Word 1 sub

def uniqueTagChar (b : UInt8) : Bool :=
  inRange 'A' 'Z' b || inRange 'a' 'z' b || inRange '0' '9' b || anyOf "-@$%&*()[]\x7b\x7d_.?:" b

def msgChannelTagChar (b : UInt8) : Bool :=
  inRange 'A' 'Z' b || inRange 'a' 'z' b || inRange '0' '9' b || isChar '_' b

/-! ## Classes -/

/-- The names of each type, given what may stand behind `#` and `^`, and below `#NAME/#` and `$`. -/
def NameClass (uniqueTag voteTag subQualifier restricted : StdString → Prop) (type : AssetType)
    (s : StdString) : Prop :=
  match type with
  | .ROOT => RootName s ∧ s.length < MAX_NAME_LENGTH
  | .SUB => ∃ root sub subs, Path root (sub :: subs) s ∧ s.length < MAX_NAME_LENGTH
  | .UNIQUE => ∃ root subs name tag, s = name ++ bytes "#" ++ tag ∧ Path root subs name ∧ tag ≠ [] ∧
      (∀ b ∈ tag, uniqueTagChar b = true) ∧ uniqueTag tag ∧ s.length ≤ MAX_NAME_LENGTH
  | .MSGCHANNEL => ∃ root subs name tag, s = name ++ bytes "~" ++ tag ∧ Path root subs name ∧
      tag ≠ [] ∧ (∀ b ∈ tag, msgChannelTagChar b = true) ∧ Tidy tag ∧
      tag.length ≤ MAX_CHANNEL_NAME_LENGTH ∧ s.length ≤ MAX_NAME_LENGTH
  | .OWNER => ∃ root subs name, s = name ++ bytes "!" ∧ Path root subs name ∧
      s.length ≤ MAX_NAME_LENGTH
  | .VOTE => ∃ root subs name tag, s = name ++ bytes "^" ++ tag ∧ Path root subs name ∧ voteTag tag ∧
      s.length ≤ MAX_NAME_LENGTH
  | .QUALIFIER => ∃ root, s = bytes "#" ++ root ∧ RootName root ∧ s.length ≤ MAX_NAME_LENGTH
  | .SUB_QUALIFIER => ∃ root sub, s = bytes "#" ++ root ++ bytes "/#" ++ sub ∧ RootName root ∧
      subQualifier sub ∧ s.length ≤ MAX_NAME_LENGTH
  | .RESTRICTED => ∃ root, s = bytes "$" ++ root ∧ restricted root ∧ s.length ≤ MAX_NAME_LENGTH
  | _ => False

/-- **The documented grammar of asset names.** -/
def InClass : AssetType → StdString → Prop := NameClass Tidy (Word 1) (Word 1) RootName

/-- A tag of a vote as the source takes it: characters that no other tag has, and name characters
behind the last `^`. -/
def LaxVoteTag (tag : StdString) : Prop :=
  (∀ b ∈ tag, anyOf "~#!/" b = false) ∧ Chars 1 ((splitAt '^' tag).getLastD [])

/-- **The grammar of asset names the source accepts.** -/
def Accepted : AssetType → StdString → Prop :=
  NameClass (fun _ => True) LaxVoteTag (fun sub => Chars 1 sub ∧ Ended sub)
    (fun root => Chars 3 root ∧ Ended root)

/-! ## Punctuation -/

/-- A byte of a class is none of the bytes of a string that has none of the class. -/
theorem anyOf_eq_false {p : UInt8 → Bool} {cs : String} (hcs : (bytes cs).all (fun b => !p b) = true)
    {b : UInt8} (hb : p b = true) : anyOf cs b = false := by
  by_contra hmem
  rw [Bool.not_eq_false, anyOf, List.contains_iff_mem] at hmem
  have hnot := List.all_eq_true.mp hcs b hmem
  rw [hb] at hnot
  cases hnot

/-- A byte in front of a name is not one of two adjacent punctuation marks. -/
theorem hasDoublePunctuation_cons {b : UInt8} (hb : isPunctuation b = false) (s : StdString) :
    hasDoublePunctuation (b :: s) = hasDoublePunctuation s := by
  cases s with
  | nil => rfl
  | cons c s => rw [hasDoublePunctuation, hb, Bool.false_and, Bool.false_or]

theorem isDot_of_isNameChar {b : UInt8} (h : isNameChar b = true) : isDot b = true := by
  rw [isDot, anyOf_eq_false (by decide) h]
  rfl

section Dots

variable {s : StdString} (hdots : ∀ b ∈ s, isDot b = true)

include hdots

theorem doublePunctuation_eq : doublePunctuation s = hasDoublePunctuation s := by
  rw [doublePunctuation, List.all_eq_true.mpr hdots, Bool.true_and]

theorem leadingPunctuation_eq : leadingPunctuation s = s.head?.any isPunctuation := by
  cases s with
  | nil => rfl
  | cons b s =>
      have hall : s.all isDot = true :=
        List.all_eq_true.mpr (fun c hc => hdots c (List.mem_cons_of_mem _ hc))
      rw [leadingPunctuation, hall, Bool.and_true]
      rfl

theorem trailingPunctuation_eq : trailingPunctuation s = s.getLast?.any isPunctuation := by
  rw [trailingPunctuation, leadingPunctuation_eq (s := s.reverse), List.head?_reverse]
  intro b hb
  exact hdots b (List.mem_reverse.mp hb)

/-- The three punctuation checks of the source. -/
theorem tidy_iff : Tidy s ↔ doublePunctuation s = false ∧ leadingPunctuation s = false ∧
    trailingPunctuation s = false := by
  rw [doublePunctuation_eq hdots, leadingPunctuation_eq hdots, trailingPunctuation_eq hdots, Tidy,
    Ended]
  tauto

end Dots

theorem Chars.dots {n : Nat} {s : StdString} (h : Chars n s) : ∀ b ∈ s, isDot b = true :=
  fun b hb => isDot_of_isNameChar (h.1 b hb)

/-- A mark in front of a word leaves its punctuation as it is. -/
theorem Chars.ended_iff {n : Nat} {s : StdString} (h : Chars n s) (hn : 0 < n) {m : UInt8}
    (hm : isDot m = true) (hmark : isPunctuation m = false) :
    Ended s ↔ doublePunctuation (m :: s) = false ∧ trailingPunctuation (m :: s) = false := by
  have hall : ∀ b ∈ m :: s, isDot b = true := by
    intro b hb
    rcases List.mem_cons.mp hb with rfl | hb
    · exact hm
    · exact h.dots b hb
  rw [doublePunctuation_eq hall, trailingPunctuation_eq hall, hasDoublePunctuation_cons hmark,
    List.getLast?_cons, Ended]
  cases hlast : s.getLast? with
  | none =>
      have hlen := h.2
      rw [List.getLast?_eq_none_iff.mp hlast, List.length_nil] at hlen
      omega
  | some b => rfl

theorem rootNameCharacters_iff {s : StdString} : rootNameCharacters s = true ↔ Chars 3 s := by
  rw [rootNameCharacters, Bool.and_eq_true, List.all_eq_true, decide_eq_true_eq]
  rfl

theorem subNameCharacters_iff {s : StdString} : subNameCharacters s = true ↔ Chars 1 s := by
  rw [subNameCharacters, Bool.and_eq_true, List.all_eq_true, decide_eq_true_eq]
  rfl

/-! ## The validators -/

theorem isRootNameValid_iff {s : StdString} : isRootNameValid s = true ↔ RootName s := by
  simp only [isRootNameValid, Bool.and_eq_true, Bool.not_eq_true', rootNameCharacters_iff, and_assoc]
  refine and_congr_right (fun hchars => ?_) |>.trans and_assoc.symm
  rw [tidy_iff hchars.dots, and_assoc, and_assoc]
  refine and_congr_right (fun _ => and_congr_right (fun _ => and_congr_right (fun _ => ?_)))
  -- the reserved names with `#` are not made of name characters
  have hsharp : (35 : UInt8) ∉ s := fun h => absurd (hchars.1 35 h) (by decide)
  rw [← Bool.not_eq_true, not_iff_not, ravencashNames, List.contains_iff_mem]
  constructor
  · intro h
    simp only [List.mem_cons, List.not_mem_nil, or_false] at h
    rcases h with h | h | h | h | h | h | h | h | h | h | h | h | h
    all_goals first
      | exact absurd (h ▸ (by decide : (35 : UInt8) ∈ _)) hsharp
      | (rw [h]; decide)
  · intro h
    simp only [reservedRoots, List.mem_cons, List.not_mem_nil, or_false] at h
    rcases h with h | h | h | h | h | h
    all_goals
      rw [h]
      decide

theorem isSubNameValid_iff {s : StdString} : isSubNameValid s = true ↔ Word 1 s := by
  simp only [isSubNameValid, Bool.and_eq_true, Bool.not_eq_true', subNameCharacters_iff, and_assoc]
  exact and_congr_right (fun hchars => (tidy_iff hchars.dots).symm)

theorem ravencashNames_sharp (root : StdString) :
    ravencashNames (35 :: root) = true ↔ root ∈ reservedRoots := by
  simp [ravencashNames, reservedRoots, bytes]

theorem isQualifierNameValid_iff {s : StdString} :
    isQualifierNameValid s = true ↔ ∃ root, s = bytes "#" ++ root ∧ RootName root := by
  cases s with
  | nil => simp [isQualifierNameValid, qualifierNameCharacters, bytes]
  | cons m root =>
      simp only [isQualifierNameValid, qualifierNameCharacters, Bool.and_eq_true, Bool.not_eq_true',
        rootNameCharacters_iff, qualifierLeadingPunctuation]
      constructor
      · rintro ⟨⟨⟨⟨⟨hm, hchars⟩, hdouble⟩, hleading⟩, htrailing⟩, hname⟩
        obtain rfl : m = 35 := by simpa [isChar] using hm
        refine ⟨root, rfl, ⟨hchars, (hchars.ended_iff (by decide) (by decide) (by decide)).mpr
          ⟨hdouble, htrailing⟩, ?_⟩, ?_⟩
        · rw [← leadingPunctuation_eq hchars.dots]
          simpa [anyOf, bytes] using hleading
        · rw [← ravencashNames_sharp, hname]
          simp
      · rintro ⟨root', hs, ⟨hchars, hended, hleading⟩, hname⟩
        obtain ⟨rfl, rfl⟩ : m = 35 ∧ root = root' := List.cons.inj hs
        rw [hchars.ended_iff (m := 35) (by decide) (by decide) (by decide)] at hended
        rw [← leadingPunctuation_eq hchars.dots] at hleading
        rw [← ravencashNames_sharp, Bool.not_eq_true] at hname
        exact ⟨⟨⟨⟨⟨by decide, hchars⟩, hended.1⟩, by rw [hleading, Bool.and_false]⟩, hended.2⟩, hname⟩

/-- `LEADING_PUNCTUATION` does not see what stands behind the mark. -/
theorem isSubQualifierNameValid_iff {s : StdString} :
    isSubQualifierNameValid s = true ↔ ∃ sub, s = bytes "#" ++ sub ∧ Chars 1 sub ∧ Ended sub := by
  cases s with
  | nil => simp [isSubQualifierNameValid, subQualifierNameCharacters, bytes]
  | cons m sub =>
      simp only [isSubQualifierNameValid, subQualifierNameCharacters, Bool.and_eq_true,
        Bool.not_eq_true', subNameCharacters_iff]
      constructor
      · rintro ⟨⟨⟨⟨hm, hchars⟩, hdouble⟩, -⟩, htrailing⟩
        obtain rfl : m = 35 := by simpa [isChar] using hm
        exact ⟨sub, rfl, hchars, (hchars.ended_iff (by decide) (by decide) (by decide)).mpr
          ⟨hdouble, htrailing⟩⟩
      · rintro ⟨sub', hs, hchars, hended⟩
        obtain ⟨rfl, rfl⟩ : m = 35 ∧ sub = sub' := List.cons.inj hs
        rw [hchars.ended_iff (m := 35) (by decide) (by decide) (by decide)] at hended
        exact ⟨⟨⟨⟨by decide, hchars⟩, hended.1⟩, rfl⟩, hended.2⟩

/-- Neither `LEADING_PUNCTUATION` nor `RAVENCASH_NAMES` sees what stands behind the mark. -/
theorem isRestrictedNameValid_iff {s : StdString} :
    isRestrictedNameValid s = true ↔ ∃ root, s = bytes "$" ++ root ∧ Chars 3 root ∧ Ended root := by
  cases s with
  | nil => simp [isRestrictedNameValid, restrictedNameCharacters, bytes]
  | cons m root =>
      simp only [isRestrictedNameValid, restrictedNameCharacters, Bool.and_eq_true,
        Bool.not_eq_true', rootNameCharacters_iff]
      constructor
      · rintro ⟨⟨⟨⟨⟨hm, hchars⟩, hdouble⟩, -⟩, htrailing⟩, -⟩
        obtain rfl : m = 36 := by simpa [isChar] using hm
        exact ⟨root, rfl, hchars, (hchars.ended_iff (by decide) (by decide) (by decide)).mpr
          ⟨hdouble, htrailing⟩⟩
      · rintro ⟨root', hs, hchars, hended⟩
        obtain ⟨rfl, rfl⟩ : m = 36 ∧ root = root' := List.cons.inj hs
        rw [hchars.ended_iff (m := 36) (by decide) (by decide) (by decide)] at hended
        exact ⟨⟨⟨⟨⟨by decide, hchars⟩, hended.1⟩, rfl⟩, hended.2⟩, by simp [ravencashNames, bytes]⟩

theorem isMsgChannelTagValid_iff {tag : StdString} : isMsgChannelTagValid tag = true ↔
    tag ≠ [] ∧ (∀ b ∈ tag, msgChannelTagChar b = true) ∧ Tidy tag := by
  have hchars : msgChannelTagCharacters tag = true ↔
      tag ≠ [] ∧ ∀ b ∈ tag, msgChannelTagChar b = true := by
    rw [msgChannelTagCharacters, Bool.and_eq_true, List.all_eq_true, decide_eq_true_eq,
      Nat.succ_le_iff, List.length_pos_iff, and_comm]
    rfl
  simp only [isMsgChannelTagValid, Bool.and_eq_true, Bool.not_eq_true', hchars, and_assoc]
  refine and_congr_right (fun _ => and_congr_right (fun htag => (tidy_iff ?_).symm))
  intro b hb
  have hchar := htag b hb
  rw [isDot, Bool.not_eq_true', ← Bool.not_eq_true]
  intro hline
  rw [anyOf, List.contains_iff_mem] at hline
  exact absurd hchar (by
    rcases List.mem_cons.mp hline with rfl | hline
    · decide
    · rw [List.mem_singleton.mp hline]
      decide)

theorem isUniqueTagValid_iff {tag : StdString} :
    isUniqueTagValid tag = true ↔ tag ≠ [] ∧ ∀ b ∈ tag, uniqueTagChar b = true := by
  rw [isUniqueTagValid, uniqueTagCharacters, Bool.and_eq_true, List.all_eq_true, decide_eq_true_eq,
    Nat.succ_le_iff, List.length_pos_iff, and_comm]
  rfl

/-! ## Paths -/

theorem mem_of_mem_intercalate {a b : UInt8} {parts : List StdString}
    (h : a ∈ [b].intercalate parts) : a = b ∨ ∃ part ∈ parts, a ∈ part := by
  induction parts with
  | nil => simp [List.intercalate] at h
  | cons part parts ih =>
      cases parts with
      | nil =>
          right
          exact ⟨part, by simp, by simpa [List.intercalate] using h⟩
      | cons next parts =>
          have hsplit : [b].intercalate (part :: next :: parts) =
              part ++ b :: [b].intercalate (next :: parts) := by
            simp [List.intercalate]
          rw [hsplit, List.mem_append, List.mem_cons] at h
          rcases h with h | h | h
          · exact .inr ⟨part, by simp, h⟩
          · exact .inl h
          · rcases ih h with h | ⟨p, hp, h⟩
            · exact .inl h
            · exact .inr ⟨p, List.mem_cons_of_mem _ hp, h⟩

theorem Chars.slash_notMem {n : Nat} {s : StdString} (h : Chars n s) : (47 : UInt8) ∉ s :=
  fun hmem => absurd (h.1 47 hmem) (by decide)

namespace Path

variable {root s : StdString} {subs : List StdString}

theorem splitAt (h : Path root subs s) : splitAt '/' s = root :: subs := by
  obtain ⟨rfl, hroot, hsubs⟩ := h
  refine List.splitOn_intercalate 47 ?_ (List.cons_ne_nil _ _)
  intro part hpart
  rcases List.mem_cons.mp hpart with rfl | hpart
  · exact hroot.1.1.slash_notMem
  · exact (hsubs part hpart).1.slash_notMem

theorem ne_nil (h : Path root subs s) : s ≠ [] := by
  rintro rfl
  have hsplit := h.splitAt
  rw [show RavenCash.splitAt '/' [] = [[]] from rfl] at hsplit
  obtain ⟨rfl, -⟩ := List.cons.inj hsplit
  exact absurd h.2.1.1.1.2 (by decide)

theorem isNameChar_or (h : Path root subs s) {b : UInt8} (hb : b ∈ s) :
    isNameChar b = true ∨ b = 47 := by
  rw [h.1] at hb
  rcases mem_of_mem_intercalate hb with hslash | ⟨part, hpart, hmem⟩
  · exact Or.inr hslash
  · rcases List.mem_cons.mp hpart with rfl | hsub
    · exact Or.inl (h.2.1.1.1.1 b hmem)
    · exact Or.inl ((h.2.2 part hsub).1.1 b hmem)

/-- A path has none of the bytes that mark a type. -/
theorem plain (h : Path root subs s) {cs : String}
    (hcs : (bytes cs).all (fun b => !isNameChar b && b != 47) = true) {b : UInt8} (hb : b ∈ s) :
    anyOf cs b = false := by
  by_contra hmem
  rw [Bool.not_eq_false, anyOf, List.contains_iff_mem] at hmem
  have hnot := List.all_eq_true.mp hcs b hmem
  rcases h.isNameChar_or hb with hchar | rfl
  · simp [hchar] at hnot
  · simp at hnot

end Path

theorem isNameValidBeforeTag_iff {s : StdString} :
    isNameValidBeforeTag s = true ↔ ∃ root subs, Path root subs s := by
  constructor
  · intro h
    simp only [isNameValidBeforeTag, Bool.and_eq_true, List.all_eq_true] at h
    cases hsplit : splitAt '/' s with
    | nil => exact absurd hsplit (List.splitOn_ne_nil _ _)
    | cons root subs =>
        rw [hsplit] at h
        refine ⟨root, subs, ?_, isRootNameValid_iff.mp h.1,
          fun sub hsub => isSubNameValid_iff.mp (h.2 sub hsub)⟩
        rw [← hsplit]
        exact (List.intercalate_splitOn 47).symm
  · rintro ⟨root, subs, h⟩
    simp only [isNameValidBeforeTag, h.splitAt, Bool.and_eq_true, List.all_eq_true]
    exact ⟨isRootNameValid_iff.mpr h.2.1, fun sub hsub => isSubNameValid_iff.mpr (h.2.2 sub hsub)⟩

theorem isAssetNameASubasset_iff {root s : StdString} {subs : List StdString} (h : Path root subs s) :
    isAssetNameASubasset s = true ↔ subs ≠ [] := by
  simp only [isAssetNameASubasset, h.splitAt, Bool.and_eq_true, decide_eq_true_eq, List.headD_cons,
    isRootNameValid_iff.mpr h.2.1, true_and, List.length_cons]
  rw [Nat.lt_add_left_iff_pos, List.length_pos_iff]

/-! ## Indicators -/

/-- The part in front of a byte that marks a type. -/
theorem beforeIndicator_append {name tag : StdString} {d : UInt8}
    (hname : ∀ b ∈ name, anyOf "^~#!" b = false) (hd : anyOf "^~#!" d = true) :
    beforeIndicator (name ++ d :: tag) = (name, d :: tag) := by
  have hall : ∀ b ∈ name, (!anyOf "^~#!" b) = true := fun b hb => by rw [hname b hb]; rfl
  rw [beforeIndicator, List.takeWhile_append_of_pos hall, List.dropWhile_append_of_pos hall,
    List.takeWhile_cons_of_neg (by simp [hd]), List.dropWhile_cons_of_neg (by simp [hd]),
    List.append_nil]

theorem beforeIndicator_plain {s : StdString} (h : ∀ b ∈ s, anyOf "^~#!" b = false) :
    beforeIndicator s = (s, []) := by
  have hall : ∀ b ∈ s, (!anyOf "^~#!" b) = true := fun b hb => by rw [h b hb]; rfl
  rw [beforeIndicator, List.takeWhile_eq_self_iff.mpr hall, List.dropWhile_eq_nil_iff.mpr hall]

theorem beforeIndicator_spec (s : StdString) :
    s = (beforeIndicator s).1 ++ (beforeIndicator s).2 ∧
      ∀ b ∈ (beforeIndicator s).1, anyOf "^~#!" b = false :=
  ⟨List.takeWhile_append_dropWhile.symm, fun b hb => by simpa using List.mem_takeWhile_imp hb⟩

/-- A name with a tag behind the delimiter. -/
theorem tagIndicator_iff {delim : Char} (hd : anyOf "^~#!" delim.toNat.toUInt8 = true)
    {s : StdString} : tagIndicator delim s = true ↔ ∃ name tag,
      s = name ++ delim.toNat.toUInt8 :: tag ∧ name ≠ [] ∧ (∀ b ∈ name, anyOf "^~#!" b = false) ∧
      tag ≠ [] ∧ ∀ b ∈ tag, anyOf "~#!/" b = false := by
  constructor
  · intro h
    obtain ⟨hs, hname⟩ := beforeIndicator_spec s
    unfold tagIndicator at h
    split at h
    · next name b tag heq =>
        simp only [heq] at hs hname
        simp only [Bool.and_eq_true, decide_eq_true_eq, List.all_eq_true, Bool.not_eq_true',
          Nat.succ_le_iff, List.length_pos_iff, isChar, beq_iff_eq] at h
        obtain ⟨⟨⟨hne, rfl⟩, htag⟩, hnetag⟩ := h
        exact ⟨name, tag, hs, hne, hname, hnetag, htag⟩
    · cases h
  · rintro ⟨name, tag, rfl, hne, hname, hnetag, htag⟩
    simp only [tagIndicator, beforeIndicator_append hname hd, Bool.and_eq_true, decide_eq_true_eq,
      List.all_eq_true, Bool.not_eq_true', Nat.succ_le_iff, List.length_pos_iff, isChar, beq_iff_eq]
    exact ⟨⟨⟨hne, trivial⟩, htag⟩, hnetag⟩

theorem ownerIndicator_iff {s : StdString} : ownerIndicator s = true ↔ ∃ name,
    s = name ++ bytes "!" ∧ name ≠ [] ∧ ∀ b ∈ name, anyOf "^~#!" b = false := by
  constructor
  · intro h
    obtain ⟨hs, hname⟩ := beforeIndicator_spec s
    unfold ownerIndicator at h
    split at h
    · next name b heq =>
        simp only [heq] at hs hname
        simp only [Bool.and_eq_true, decide_eq_true_eq, Nat.succ_le_iff, List.length_pos_iff, isChar,
          beq_iff_eq] at h
        obtain ⟨hne, rfl⟩ := h
        exact ⟨name, hs, hne, hname⟩
    · cases h
  · rintro ⟨name, rfl, hne, hname⟩
    rw [ownerIndicator, show bytes "!" = [33] from rfl, beforeIndicator_append hname (by decide)]
    simp only [Bool.and_eq_true, decide_eq_true_eq, Nat.succ_le_iff, List.length_pos_iff]
    exact ⟨hne, rfl⟩

/-! ## The type of a name -/

/-- The type the indicators give a name, valid or not. -/
def indicatedType (name : StdString) : AssetType :=
  if uniqueIndicator name then .UNIQUE
  else if msgChannelIndicator name then .MSGCHANNEL
  else if ownerIndicator name then .OWNER
  else if voteIndicator name then .VOTE
  else if qualifierIndicator name then
    if isAssetNameASubQualifier name then .SUB_QUALIFIER else .QUALIFIER
  else if subQualifierIndicator name then
    if isAssetNameASubQualifier name then .SUB_QUALIFIER else .INVALID
  else if restrictedIndicator name then .RESTRICTED
  else if isAssetNameASubasset name then .SUB
  else .ROOT

theorem toOption_map_const {E β : Type} {x : Except E Unit} {b c : β} :
    (x.map (fun _ => b)).toOption = some c ↔ b = c ∧ x = .ok () := by
  cases x with
  | error e => simp [Except.map, Except.toOption]
  | ok a => simp [Except.map, Except.toOption]

/-- The type a name of the indicated type is checked as. -/
def checkedAs : AssetType → AssetType
  | .INVALID => .SUB_QUALIFIER
  | type => type

/-- The indicators give the type, and the name is checked against it. -/
theorem isAssetNameValid_eq (s : StdString) : isAssetNameValid s =
    if 40 < s.length then .error ""
    else (isTypeCheckNameValid (checkedAs (indicatedType s)) s).map (fun _ => indicatedType s) := by
  have hpush := fun (c : Prop) [Decidable c] => apply_ite
    (fun type => (isTypeCheckNameValid (checkedAs type) s).map (fun _ => type)) c
  simp only [isAssetNameValid, indicatedType, hpush]
  -- the indicators are asked in the same order on both sides
  repeat' apply if_congr Iff.rfl
  all_goals first | rfl | (split_ifs <;> rfl)

theorem assetTypeOf_iff_indicated {s : StdString} {type : AssetType} : assetTypeOf s = some type ↔
    s.length ≤ 40 ∧ indicatedType s = type ∧ isTypeCheckNameValid (checkedAs type) s = .ok () := by
  rw [assetTypeOf, isAssetNameValid_eq]
  split_ifs with hlen
  · simp [Except.toOption, hlen]
  · rw [toOption_map_const, and_iff_right (Nat.le_of_not_lt hlen)]
    constructor
    · rintro ⟨rfl, h⟩
      exact ⟨rfl, h⟩
    · rintro ⟨rfl, h⟩
      exact ⟨rfl, h⟩

/-- Which indicator speaks for the indicated type. -/
def indicates (s : StdString) : AssetType → Bool
  | .UNIQUE => uniqueIndicator s
  | .MSGCHANNEL => msgChannelIndicator s
  | .OWNER => ownerIndicator s
  | .VOTE => voteIndicator s
  | .QUALIFIER => qualifierIndicator s && !isAssetNameASubQualifier s
  | .SUB_QUALIFIER => isAssetNameASubQualifier s
  | .RESTRICTED => restrictedIndicator s
  | .SUB => isAssetNameASubasset s
  | .ROOT => !isAssetNameASubasset s
  | .INVALID => subQualifierIndicator s && !isAssetNameASubQualifier s
  | _ => false

theorem indicates_indicatedType (s : StdString) : indicates s (indicatedType s) = true := by
  unfold indicatedType
  split_ifs <;> simp only [indicates, *] <;> rfl

/-! ## Splitting at a tag -/

section Tag

variable (delim : Char) {name tag : StdString}

theorem splitAt_ne_nil (s : StdString) : splitAt delim s ≠ [] := List.splitOn_ne_nil _ _

/-- A tag without the delimiter is one part. -/
theorem splitAt_of_notMem (h : delim.toNat.toUInt8 ∉ tag) : splitAt delim tag = [tag] :=
  List.splitOn_eq_singleton h

theorem splitAt_append (h : delim.toNat.toUInt8 ∉ name) :
    splitAt delim (name ++ delim.toNat.toUInt8 :: tag) = name :: splitAt delim tag :=
  List.splitOn_append_cons_self_of_not_mem h tag

variable (hname : ∀ b ∈ name, anyOf "^~#!" b = false)
  (hd : anyOf "^~#!" delim.toNat.toUInt8 = true)

include hname hd

theorem headD_splitAt_tag :
    (splitAt delim (name ++ delim.toNat.toUInt8 :: tag)).headD [] = name := by
  rw [splitAt_append delim (fun hmem => by simp [hname _ hmem] at hd), List.headD_cons]

theorem getLastD_splitAt_tag : (splitAt delim (name ++ delim.toNat.toUInt8 :: tag)).getLastD [] =
    (splitAt delim tag).getLastD [] := by
  rw [splitAt_append delim (fun hmem => by simp [hname _ hmem] at hd)]
  cases h : splitAt delim tag with
  | nil => exact absurd h (splitAt_ne_nil delim tag)
  | cons part parts => rfl

theorem getLastD_splitAt_of_notMem (htag : delim.toNat.toUInt8 ∉ tag) :
    (splitAt delim (name ++ delim.toNat.toUInt8 :: tag)).getLastD [] = tag := by
  rw [getLastD_splitAt_tag delim hname hd, splitAt_of_notMem delim htag]
  rfl

theorem tagIndicator_other (delim' : Char) (hne : isChar delim' delim.toNat.toUInt8 = false) :
    tagIndicator delim' (name ++ delim.toNat.toUInt8 :: tag) = false := by
  simp only [tagIndicator, beforeIndicator_append hname hd, hne, Bool.and_false, Bool.false_and]

end Tag

/-- A string with a slash has more than one part. -/
theorem one_lt_length_splitAt {s : StdString} (h : (47 : UInt8) ∈ s) :
    1 < (splitAt '/' s).length := by
  obtain ⟨front, back, rfl⟩ := List.append_of_mem h
  have hsplit : splitAt '/' (front ++ 47 :: back) = splitAt '/' front ++ splitAt '/' back :=
    List.splitOn_append_cons_self front back
  have hfront := List.length_pos_iff.mpr (splitAt_ne_nil '/' front)
  have hback := List.length_pos_iff.mpr (splitAt_ne_nil '/' back)
  rw [hsplit, List.length_append]
  omega

/-! ## The source accepts its grammar -/

theorem RootName.path {s : StdString} (h : RootName s) : Path s [] s :=
  ⟨by simp [List.intercalate], h, by simp⟩

/-- **What `IsAssetNameValid` accepts is of the class it answers.** -/
theorem accepted_of_assetTypeOf {s : StdString} {type : AssetType} (h : assetTypeOf s = some type) :
    Accepted type s := by
  obtain ⟨-, hind, hcheck⟩ := assetTypeOf_iff_indicated.mp h
  have hspeaks := indicates_indicatedType s
  rw [hind] at hspeaks
  cases type
  case UNIQUE =>
    obtain ⟨name, tag, rfl, -, hplain, -, htag⟩ := (tagIndicator_iff (by decide)).mp hspeaks
    simp only [checkedAs, isTypeCheckNameValid, headD_splitAt_tag '#' hplain (by decide),
      getLastD_splitAt_tag '#' hplain (by decide)] at hcheck
    split_ifs at hcheck with hlen hvalid
    rw [splitAt_of_notMem '#' (fun hmem => absurd (htag _ hmem) (by decide)), Bool.and_eq_true,
      isNameValidBeforeTag_iff] at hvalid
    obtain ⟨⟨root, subs, hpath⟩, hunique⟩ := hvalid
    obtain ⟨hne, hchars⟩ := isUniqueTagValid_iff.mp hunique
    exact ⟨root, subs, name, tag, by simp [bytes], hpath, hne, hchars, trivial, Nat.le_of_not_lt hlen⟩
  case MSGCHANNEL =>
    obtain ⟨name, tag, rfl, -, hplain, -, htag⟩ := (tagIndicator_iff (by decide)).mp hspeaks
    simp only [checkedAs, isTypeCheckNameValid, headD_splitAt_tag '~' hplain (by decide),
      getLastD_splitAt_tag '~' hplain (by decide),
      splitAt_of_notMem '~' (fun hmem => absurd (htag _ hmem) (by decide))] at hcheck
    split_ifs at hcheck with hlen hchannel hvalid
    rw [Bool.and_eq_true, isNameValidBeforeTag_iff] at hvalid
    obtain ⟨⟨root, subs, hpath⟩, hmsg⟩ := hvalid
    obtain ⟨hne, hchars, htidy⟩ := isMsgChannelTagValid_iff.mp hmsg
    exact ⟨root, subs, name, tag, by simp [bytes], hpath, hne, hchars, htidy,
      Nat.le_of_not_lt hchannel, Nat.le_of_not_lt hlen⟩
  case OWNER =>
    obtain ⟨name, rfl, -, -⟩ := ownerIndicator_iff.mp hspeaks
    have htake : (name ++ bytes "!").take ((name ++ bytes "!").length - 1) = name := by
      simp [bytes]
    simp only [checkedAs, isTypeCheckNameValid, htake] at hcheck
    split_ifs at hcheck with hlen hvalid
    obtain ⟨root, subs, hpath⟩ := isNameValidBeforeTag_iff.mp hvalid
    exact ⟨root, subs, name, rfl, hpath, Nat.le_of_not_lt hlen⟩
  case VOTE =>
    obtain ⟨name, tag, rfl, -, hplain, -, htag⟩ := (tagIndicator_iff (by decide)).mp hspeaks
    simp only [checkedAs, isTypeCheckNameValid, headD_splitAt_tag '^' hplain (by decide),
      getLastD_splitAt_tag '^' hplain (by decide)] at hcheck
    split_ifs at hcheck with hlen hvalid
    rw [Bool.and_eq_true, isNameValidBeforeTag_iff] at hvalid
    obtain ⟨⟨root, subs, hpath⟩, hvote⟩ := hvalid
    exact ⟨root, subs, name, tag, by simp [bytes], hpath, ⟨htag, subNameCharacters_iff.mp hvote⟩,
      Nat.le_of_not_lt hlen⟩
  case QUALIFIER =>
    simp only [checkedAs, isTypeCheckNameValid] at hcheck
    split_ifs at hcheck with hlen hvalid
    simp only [isQualifierNameValidBeforeTag, Bool.and_eq_true] at hvalid
    have hslash : ¬ 1 < (splitAt '/' s).length := by
      simp only [indicates, isAssetNameASubQualifier, hvalid.1.1, Bool.and_eq_true, Bool.true_and,
        Bool.not_eq_true', decide_eq_false_iff_not] at hspeaks
      exact hspeaks.2
    rw [splitAt_of_notMem '/' (fun hmem => hslash (one_lt_length_splitAt hmem))] at hvalid
    obtain ⟨root, hs, hroot⟩ := isQualifierNameValid_iff.mp hvalid.1.1
    exact ⟨root, hs, hroot, Nat.le_of_not_lt hlen⟩
  case SUB_QUALIFIER =>
    simp only [checkedAs, isTypeCheckNameValid] at hcheck
    split_ifs at hcheck with hlen hvalid
    simp only [isQualifierNameValidBeforeTag, Bool.and_eq_true, Bool.not_eq_true',
      decide_eq_false_iff_not, List.all_eq_true] at hvalid
    simp only [indicates, isAssetNameASubQualifier, Bool.and_eq_true, decide_eq_true_eq] at hspeaks
    obtain ⟨q, sq, hsplit⟩ := List.length_eq_two.mp
      (show (splitAt '/' s).length = 2 by omega)
    have hs : s = q ++ 47 :: sq := by
      rw [← @List.intercalate_splitOn _ s _ _ 47, show s.splitOn 47 = [q, sq] from hsplit]
      simp [List.intercalate]
    rw [hsplit] at hvalid
    obtain ⟨root, rfl, hroot⟩ := isQualifierNameValid_iff.mp hvalid.1.1
    obtain ⟨sub, rfl, hsub⟩ := isSubQualifierNameValid_iff.mp (hvalid.2 sq (by simp))
    exact ⟨root, sub, by simp [hs, bytes], hroot, hsub, Nat.le_of_not_lt hlen⟩
  case RESTRICTED =>
    simp only [checkedAs, isTypeCheckNameValid] at hcheck
    split_ifs at hcheck with hlen hvalid
    obtain ⟨root, hs, hroot⟩ := isRestrictedNameValid_iff.mp hvalid
    exact ⟨root, hs, hroot, Nat.le_of_not_lt hlen⟩
  case SUB =>
    simp only [checkedAs, isTypeCheckNameValid] at hcheck
    split_ifs at hcheck with hlen hmin hvalid
    obtain ⟨root, subs, hpath⟩ := isNameValidBeforeTag_iff.mp hvalid
    obtain ⟨sub, subs, rfl⟩ := List.exists_cons_of_ne_nil ((isAssetNameASubasset_iff hpath).mp hspeaks)
    exact ⟨root, sub, subs, hpath, Nat.lt_of_le_of_lt (Nat.le_of_not_lt hlen) (by decide)⟩
  case ROOT =>
    simp only [checkedAs, isTypeCheckNameValid] at hcheck
    split_ifs at hcheck with hlen hmin hvalid
    obtain ⟨root, subs, hpath⟩ := isNameValidBeforeTag_iff.mp hvalid
    have hsubs : subs = [] := by
      by_contra hne
      rw [indicates, (isAssetNameASubasset_iff hpath).mpr hne] at hspeaks
      cases hspeaks
    subst hsubs
    obtain rfl : s = root := by simpa [List.intercalate] using hpath.1
    exact ⟨hpath.2.1, Nat.lt_of_le_of_lt (Nat.le_of_not_lt hlen) (by decide)⟩
  case INVALID =>
    -- what has a sub qualifier behind the slash is taken for one
    simp only [checkedAs, isTypeCheckNameValid] at hcheck
    split_ifs at hcheck with hlen hvalid
    simp only [isQualifierNameValidBeforeTag, Bool.and_eq_true] at hvalid
    simp only [indicates, isAssetNameASubQualifier, hvalid.1.1, Bool.and_eq_true, Bool.true_and,
      Bool.not_eq_true', decide_eq_false_iff_not, subQualifierIndicator] at hspeaks
    refine absurd (one_lt_length_splitAt ?_) hspeaks.2
    by_contra hslash
    have hnil : s.dropWhile (fun b => !isChar '/' b) = [] := by
      rw [List.dropWhile_eq_nil_iff]
      intro b hb
      simp only [isChar, Bool.not_eq_true', beq_eq_false_iff_ne]
      rintro rfl
      exact hslash hb
    rw [hnil] at hspeaks
    exact absurd hspeaks.1.2 (by decide)
  case REISSUE => cases hspeaks
  case NULL_ADD_QUALIFIER => cases hspeaks

/-! ## The source accepts all of its grammar -/

theorem tagIndicator_plain {s : StdString} (h : ∀ b ∈ s, anyOf "^~#!" b = false) (delim : Char) :
    tagIndicator delim s = false := by
  rw [tagIndicator, beforeIndicator_plain h]

theorem ownerIndicator_plain {s : StdString} (h : ∀ b ∈ s, anyOf "^~#!" b = false) :
    ownerIndicator s = false := by
  rw [ownerIndicator, beforeIndicator_plain h]

/-- A marked name is asked for the mark that follows its path. -/
theorem indicatedType_tag {name tag : StdString} (hname : ∀ b ∈ name, anyOf "^~#!" b = false)
    (hne : name ≠ []) (htag : ∀ b ∈ tag, anyOf "~#!/" b = false) (hnetag : tag ≠ []) :
    indicatedType (name ++ 35 :: tag) = .UNIQUE ∧ indicatedType (name ++ 126 :: tag) = .MSGCHANNEL ∧
      indicatedType (name ++ 94 :: tag) = .VOTE := by
  have hunique : uniqueIndicator (name ++ 35 :: tag) = true :=
    (tagIndicator_iff (by decide)).mpr ⟨name, tag, rfl, hne, hname, hnetag, htag⟩
  have hchannel : msgChannelIndicator (name ++ 126 :: tag) = true :=
    (tagIndicator_iff (by decide)).mpr ⟨name, tag, rfl, hne, hname, hnetag, htag⟩
  have hvote : voteIndicator (name ++ 94 :: tag) = true :=
    (tagIndicator_iff (by decide)).mpr ⟨name, tag, rfl, hne, hname, hnetag, htag⟩
  have hsharp : uniqueIndicator (name ++ 126 :: tag) = false :=
    tagIndicator_other '~' hname (by decide) '#' (by decide)
  have hsharp' : uniqueIndicator (name ++ 94 :: tag) = false :=
    tagIndicator_other '^' hname (by decide) '#' (by decide)
  have htilde : msgChannelIndicator (name ++ 94 :: tag) = false :=
    tagIndicator_other '^' hname (by decide) '~' (by decide)
  have howner : ownerIndicator (name ++ 94 :: tag) = false := by
    rw [ownerIndicator, beforeIndicator_append hname (by decide)]
    cases tag with
    | nil => exact absurd rfl hnetag
    | cons b tag => rfl
  refine ⟨?_, ?_, ?_⟩
  · simp only [indicatedType, hunique, if_true]
  · simp only [indicatedType, hsharp, hchannel, Bool.false_eq_true, if_false, if_true]
  · simp only [indicatedType, hsharp', htilde, howner, hvote, Bool.false_eq_true, if_false, if_true]

theorem indicatedType_owner {name : StdString} (hname : ∀ b ∈ name, anyOf "^~#!" b = false)
    (hne : name ≠ []) : indicatedType (name ++ bytes "!") = .OWNER := by
  have howner := ownerIndicator_iff.mpr ⟨name, rfl, hne, hname⟩
  have hsharp : uniqueIndicator (name ++ bytes "!") = false :=
    tagIndicator_other '!' hname (by decide) '#' (by decide)
  have htilde : msgChannelIndicator (name ++ bytes "!") = false :=
    tagIndicator_other '!' hname (by decide) '~' (by decide)
  simp only [indicatedType, hsharp, htilde, howner, Bool.false_eq_true, if_false, if_true]

theorem indicatedType_plain {s : StdString} (h : ∀ b ∈ s, anyOf "^~#!" b = false) :
    indicatedType s = if restrictedIndicator s then .RESTRICTED
      else if isAssetNameASubasset s then .SUB else .ROOT := by
  -- what a mark `#` starts is not plain
  have hsharp : ∀ b ∈ s.head?, isChar '#' b = false := by
    intro b hb
    by_contra hsharp
    obtain rfl : b = 35 := by simpa [isChar] using hsharp
    exact absurd (h 35 (List.mem_of_mem_head? hb)) (by decide)
  have hqualifier : qualifierIndicator s = false := by
    cases s with
    | nil => rfl
    | cons b s => simp [qualifierIndicator, qualifierNameCharacters, hsharp b rfl]
  have hsub : subQualifierIndicator s = false := by
    cases s with
    | nil => rfl
    | cons b s =>
        by_cases hslash : isChar '/' b = true
        · simp [subQualifierIndicator, hslash, subQualifierNameCharacters]
        · simp [subQualifierIndicator, hslash, subQualifierNameCharacters, hsharp b rfl]
  simp only [indicatedType, uniqueIndicator, msgChannelIndicator, voteIndicator,
    tagIndicator_plain h, ownerIndicator_plain h, hqualifier, hsub, Bool.false_eq_true, if_false]

theorem Path.restrictedIndicator {root s : StdString} {subs : List StdString} (h : Path root subs s) :
    restrictedIndicator s = false := by
  cases s with
  | nil => rfl
  | cons b s =>
      have hb : isChar '$' b = false := by
        by_contra hdollar
        obtain rfl : b = 36 := by simpa [isChar] using hdollar
        exact absurd (h.isNameChar_or (List.mem_cons_self ..)) (by decide)
      rw [RavenCash.restrictedIndicator, restrictedNameCharacters, hb, Bool.false_and]

/-- What `#` starts is asked for a qualifier and for a sub qualifier. -/
theorem indicatedType_sharp {s : StdString}
    (h : qualifierIndicator (35 :: s) = true ∨ subQualifierIndicator (35 :: s) = true)
    (hsub : qualifierIndicator (35 :: s) = true ∨ isAssetNameASubQualifier (35 :: s) = true) :
    indicatedType (35 :: s) =
      if isAssetNameASubQualifier (35 :: s) then .SUB_QUALIFIER else .QUALIFIER := by
  have htag (delim : Char) : tagIndicator delim (35 :: s) = false := rfl
  have howner : ownerIndicator (35 :: s) = false := by cases s <;> rfl
  simp only [indicatedType, uniqueIndicator, msgChannelIndicator, voteIndicator, htag, howner,
    Bool.false_eq_true, if_false]
  cases hqualifier : qualifierIndicator (35 :: s) with
  | true => rfl
  | false =>
      rw [hqualifier] at h hsub
      simp only [h.resolve_left Bool.false_ne_true, hsub.resolve_left Bool.false_ne_true,
        Bool.false_eq_true, if_false, if_true]

/-- **All of its grammar is accepted.** -/
theorem assetTypeOf_of_accepted {s : StdString} {type : AssetType} (h : Accepted type s) :
    assetTypeOf s = some type := by
  rw [assetTypeOf_iff_indicated]
  cases type
  case UNIQUE =>
    obtain ⟨root, subs, name, tag, rfl, hpath, hne, hchars, -, hlen⟩ := h
    have hplain : ∀ b ∈ name, anyOf "^~#!" b = false := fun b hb => hpath.plain (by decide) hb
    have htag : ∀ b ∈ tag, anyOf "~#!/" b = false :=
      fun b hb => anyOf_eq_false (by decide) (hchars b hb)
    rw [List.append_assoc, show bytes "#" ++ tag = 35 :: tag from rfl] at hlen ⊢
    refine ⟨hlen.trans (by decide), (indicatedType_tag hplain hpath.ne_nil htag hne).1, ?_⟩
    have hhead : (splitAt '#' (name ++ 35 :: tag)).headD [] = name :=
      headD_splitAt_tag '#' hplain (by decide)
    have hlast : (splitAt '#' (name ++ 35 :: tag)).getLastD [] = tag :=
      getLastD_splitAt_of_notMem '#' hplain (by decide)
        (fun hmem => absurd (htag _ hmem) (by decide))
    simp only [checkedAs, isTypeCheckNameValid, if_neg (Nat.not_lt.mpr hlen), hhead, hlast]
    rw [if_pos]
    rw [Bool.and_eq_true]
    exact ⟨isNameValidBeforeTag_iff.mpr ⟨root, subs, hpath⟩, isUniqueTagValid_iff.mpr ⟨hne, hchars⟩⟩
  case MSGCHANNEL =>
    obtain ⟨root, subs, name, tag, rfl, hpath, hne, hchars, htidy, hchannel, hlen⟩ := h
    have hplain : ∀ b ∈ name, anyOf "^~#!" b = false := fun b hb => hpath.plain (by decide) hb
    have htag : ∀ b ∈ tag, anyOf "~#!/" b = false :=
      fun b hb => anyOf_eq_false (by decide) (hchars b hb)
    rw [List.append_assoc, show bytes "~" ++ tag = 126 :: tag from rfl] at hlen ⊢
    refine ⟨hlen.trans (by decide), (indicatedType_tag hplain hpath.ne_nil htag hne).2.1, ?_⟩
    have hhead : (splitAt '~' (name ++ 126 :: tag)).headD [] = name :=
      headD_splitAt_tag '~' hplain (by decide)
    have hlast : (splitAt '~' (name ++ 126 :: tag)).getLastD [] = tag :=
      getLastD_splitAt_of_notMem '~' hplain (by decide)
        (fun hmem => absurd (htag _ hmem) (by decide))
    simp only [checkedAs, isTypeCheckNameValid, if_neg (Nat.not_lt.mpr hlen), hhead, hlast]
    rw [if_neg (Nat.not_lt.mpr hchannel), if_pos]
    rw [Bool.and_eq_true]
    exact ⟨isNameValidBeforeTag_iff.mpr ⟨root, subs, hpath⟩,
      isMsgChannelTagValid_iff.mpr ⟨hne, hchars, htidy⟩⟩
  case OWNER =>
    obtain ⟨root, subs, name, rfl, hpath, hlen⟩ := h
    have htake : (name ++ bytes "!").take ((name ++ bytes "!").length - 1) = name := by
      simp [bytes]
    refine ⟨hlen.trans (by decide),
      indicatedType_owner (fun b hb => hpath.plain (by decide) hb) hpath.ne_nil, ?_⟩
    simp only [checkedAs, isTypeCheckNameValid, if_neg (Nat.not_lt.mpr hlen), htake]
    rw [if_pos (isNameValidBeforeTag_iff.mpr ⟨root, subs, hpath⟩)]
  case VOTE =>
    obtain ⟨root, subs, name, tag, rfl, hpath, ⟨htag, hlast⟩, hlen⟩ := h
    have hplain : ∀ b ∈ name, anyOf "^~#!" b = false := fun b hb => hpath.plain (by decide) hb
    have hne : tag ≠ [] := by
      rintro rfl
      exact absurd hlast.2 (by decide)
    rw [List.append_assoc, show bytes "^" ++ tag = 94 :: tag from rfl] at hlen ⊢
    refine ⟨hlen.trans (by decide), (indicatedType_tag hplain hpath.ne_nil htag hne).2.2, ?_⟩
    have hhead : (splitAt '^' (name ++ 94 :: tag)).headD [] = name :=
      headD_splitAt_tag '^' hplain (by decide)
    have hback : (splitAt '^' (name ++ 94 :: tag)).getLastD [] = (splitAt '^' tag).getLastD [] :=
      getLastD_splitAt_tag '^' hplain (by decide)
    simp only [checkedAs, isTypeCheckNameValid, if_neg (Nat.not_lt.mpr hlen), hhead, hback]
    rw [if_pos]
    rw [Bool.and_eq_true]
    exact ⟨isNameValidBeforeTag_iff.mpr ⟨root, subs, hpath⟩, subNameCharacters_iff.mpr hlast⟩
  case QUALIFIER =>
    obtain ⟨root, rfl, hroot, hlen⟩ := h
    rw [show bytes "#" ++ root = 35 :: root from rfl] at hlen ⊢
    have hsplit : splitAt '/' (35 :: root) = [35 :: root] :=
      splitAt_of_notMem '/' (by simpa using hroot.1.1.slash_notMem)
    have hvalid : isQualifierNameValid (35 :: root) = true :=
      isQualifierNameValid_iff.mpr ⟨root, rfl, hroot⟩
    have hqualifier : qualifierIndicator (35 :: root) = true := by
      rw [qualifierIndicator, qualifierNameCharacters, rootNameCharacters_iff.mpr hroot.1.1]
      rfl
    have hsub : isAssetNameASubQualifier (35 :: root) = false := by
      simp [isAssetNameASubQualifier, hsplit]
    refine ⟨hlen.trans (by decide), ?_, ?_⟩
    · rw [indicatedType_sharp (Or.inl hqualifier) (Or.inl hqualifier), hsub]
      rfl
    · simp only [checkedAs, isTypeCheckNameValid, if_neg (Nat.not_lt.mpr hlen)]
      rw [if_pos (by simp [isQualifierNameValidBeforeTag, hsplit, hvalid])]
  case SUB_QUALIFIER =>
    obtain ⟨root, sub, rfl, hroot, hsubName, hlen⟩ := h
    rw [show bytes "#" ++ root ++ bytes "/#" ++ sub = 35 :: (root ++ 47 :: 35 :: sub) by
      simp [bytes]] at hlen ⊢
    have hfront : (47 : UInt8) ∉ 35 :: root := by simpa using hroot.1.1.slash_notMem
    have hback : (47 : UInt8) ∉ 35 :: sub := by simpa using hsubName.1.slash_notMem
    have hsplit : splitAt '/' (35 :: (root ++ 47 :: 35 :: sub)) = [35 :: root, 35 :: sub] :=
      (splitAt_append '/' hfront).trans (congrArg _ (splitAt_of_notMem '/' hback))
    have hvalid : isQualifierNameValid (35 :: root) = true :=
      isQualifierNameValid_iff.mpr ⟨root, rfl, hroot⟩
    have hvalid' : isSubQualifierNameValid (35 :: sub) = true :=
      isSubQualifierNameValid_iff.mpr ⟨sub, rfl, hsubName⟩
    have hindicator : subQualifierIndicator (35 :: (root ++ 47 :: 35 :: sub)) = true := by
      have hall : ∀ b ∈ 35 :: root, (!isChar '/' b) = true := by
        intro b hb
        rw [Bool.not_eq_true', isChar, beq_eq_false_iff_ne]
        rintro rfl
        exact hfront hb
      rw [subQualifierIndicator, ← List.cons_append, List.takeWhile_append_of_pos hall,
        List.dropWhile_append_of_pos hall, List.takeWhile_cons_of_neg (by decide),
        List.dropWhile_cons_of_neg (by decide), List.append_nil, Bool.and_eq_true]
      exact ⟨subNameCharacters_iff.mpr ⟨hroot.1.1.1, Nat.le_trans (by decide) hroot.1.1.2⟩,
        subNameCharacters_iff.mpr hsubName.1⟩
    have hsub : isAssetNameASubQualifier (35 :: (root ++ 47 :: 35 :: sub)) = true := by
      simp [isAssetNameASubQualifier, hsplit, hvalid]
    refine ⟨hlen.trans (by decide), ?_, ?_⟩
    · rw [indicatedType_sharp (Or.inr hindicator) (Or.inr hsub), hsub]
      rfl
    · simp only [checkedAs, isTypeCheckNameValid, if_neg (Nat.not_lt.mpr hlen)]
      rw [if_pos (by simp [isQualifierNameValidBeforeTag, hsplit, hvalid, hvalid'])]
  case RESTRICTED =>
    obtain ⟨root, rfl, hroot, hlen⟩ := h
    have hplain : ∀ b ∈ bytes "$" ++ root, anyOf "^~#!" b = false := by
      intro b hb
      rcases List.mem_append.mp hb with hb | hb
      · obtain rfl := List.mem_singleton.mp hb
        decide
      · exact anyOf_eq_false (by decide) (hroot.1.1 b hb)
    have hindicator : restrictedIndicator (bytes "$" ++ root) = true :=
      rootNameCharacters_iff.mpr hroot.1
    refine ⟨hlen.trans (by decide), by rw [indicatedType_plain hplain, if_pos hindicator], ?_⟩
    simp only [checkedAs, isTypeCheckNameValid, if_neg (Nat.not_lt.mpr hlen)]
    rw [if_pos (isRestrictedNameValid_iff.mpr ⟨root, rfl, hroot⟩)]
  case SUB =>
    obtain ⟨root, sub, subs, hpath, hlen⟩ := h
    have hsub := (isAssetNameASubasset_iff hpath).mpr (List.cons_ne_nil _ _)
    refine ⟨hlen.le.trans (by decide), ?_, ?_⟩
    · rw [indicatedType_plain (fun b hb => hpath.plain (by decide) hb), hpath.restrictedIndicator,
        hsub]
      rfl
    · simp only [checkedAs, isTypeCheckNameValid, hsub]
      rw [if_neg (Nat.not_lt.mpr (Nat.le_sub_one_of_lt hlen)), if_neg (by simp),
        if_pos (isNameValidBeforeTag_iff.mpr ⟨root, _, hpath⟩)]
  case ROOT =>
    obtain ⟨hroot, hlen⟩ := h
    have hpath := hroot.path
    have hmin : ¬ s.length < MIN_ASSET_LENGTH := Nat.not_lt.mpr hroot.1.1.2
    have hsub : isAssetNameASubasset s = false := by
      rw [Bool.eq_false_iff, Ne, isAssetNameASubasset_iff hpath]
      simp
    refine ⟨hlen.le.trans (by decide), ?_, ?_⟩
    · rw [indicatedType_plain (fun b hb => hpath.plain (by decide) hb), hpath.restrictedIndicator,
        hsub]
      rfl
    · simp only [checkedAs, isTypeCheckNameValid, hsub]
      rw [if_neg (Nat.not_lt.mpr (Nat.le_sub_one_of_lt hlen)),
        if_neg (by rw [decide_eq_false hmin]; decide),
        if_pos (isNameValidBeforeTag_iff.mpr ⟨s, _, hpath⟩)]
  all_goals exact h.elim

/-! ## The documented grammar and the accepted one -/

theorem assetTypeOf_eq_some_iff {s : StdString} {type : AssetType} :
    assetTypeOf s = some type ↔ Accepted type s :=
  ⟨accepted_of_assetTypeOf, assetTypeOf_of_accepted⟩

/-- What stands behind the first delimiter. -/
def behind (delim : Char) (s : StdString) : StdString :=
  (s.dropWhile (fun b => !isChar delim b)).drop 1

theorem behind_append (delim : Char) {name : StdString} (h : delim.toNat.toUInt8 ∉ name)
    (tag : StdString) : behind delim (name ++ delim.toNat.toUInt8 :: tag) = tag := by
  have hall : ∀ b ∈ name, (!isChar delim b) = true := by
    intro b hb
    rw [Bool.not_eq_true', isChar, beq_eq_false_iff_ne]
    rintro rfl
    exact h hb
  rw [behind, List.dropWhile_append_of_pos hall, List.dropWhile_cons_of_neg (by simp [isChar])]
  rfl

/-- What the source does not check of a name of the type. -/
def Unchecked (type : AssetType) (s : StdString) : Prop :=
  match type with
  | .UNIQUE => Tidy (behind '#' s)
  | .VOTE => Word 1 (behind '^' s)
  | .SUB_QUALIFIER => Tidy ((behind '/' s).drop 1)
  | .RESTRICTED => RootName (s.drop 1)
  | _ => True

/-- A name of the documented grammar is an accepted one with the rest checked. -/
theorem inClass_iff {type : AssetType} {s : StdString} :
    InClass type s ↔ Accepted type s ∧ Unchecked type s := by
  cases type
  case UNIQUE =>
    have hbehind {root name tag : StdString} {subs : List StdString} (hpath : Path root subs name) :
        behind '#' (name ++ bytes "#" ++ tag) = tag := by
      rw [List.append_assoc]
      exact behind_append '#' (fun hmem => absurd (hpath.isNameChar_or hmem) (by decide)) tag
    constructor
    · rintro ⟨root, subs, name, tag, rfl, hpath, hne, hchars, htidy, hlen⟩
      refine ⟨⟨root, subs, name, tag, rfl, hpath, hne, hchars, trivial, hlen⟩, ?_⟩
      rw [Unchecked, hbehind hpath]
      exact htidy
    · rintro ⟨⟨root, subs, name, tag, rfl, hpath, hne, hchars, -, hlen⟩, htidy⟩
      rw [Unchecked, hbehind hpath] at htidy
      exact ⟨root, subs, name, tag, rfl, hpath, hne, hchars, htidy, hlen⟩
  case VOTE =>
    have hbehind {root name tag : StdString} {subs : List StdString} (hpath : Path root subs name) :
        behind '^' (name ++ bytes "^" ++ tag) = tag := by
      rw [List.append_assoc]
      exact behind_append '^' (fun hmem => absurd (hpath.isNameChar_or hmem) (by decide)) tag
    constructor
    · rintro ⟨root, subs, name, tag, rfl, hpath, hword, hlen⟩
      have hlast : (splitAt '^' tag).getLastD [] = tag := by
        rw [splitAt_of_notMem '^' (fun hmem => absurd (hword.1.1 _ hmem) (by decide))]
        rfl
      refine ⟨⟨root, subs, name, tag, rfl, hpath,
        ⟨fun b hb => anyOf_eq_false (by decide) (hword.1.1 b hb), hlast.symm ▸ hword.1⟩, hlen⟩, ?_⟩
      rw [Unchecked, hbehind hpath]
      exact hword
    · rintro ⟨⟨root, subs, name, tag, rfl, hpath, -, hlen⟩, hword⟩
      rw [Unchecked, hbehind hpath] at hword
      exact ⟨root, subs, name, tag, rfl, hpath, hword, hlen⟩
  case SUB_QUALIFIER =>
    have hbehind {root sub : StdString} (hroot : RootName root) :
        (behind '/' (bytes "#" ++ root ++ bytes "/#" ++ sub)).drop 1 = sub := by
      have hfront : (47 : UInt8) ∉ bytes "#" ++ root := by
        simpa [bytes] using hroot.1.1.slash_notMem
      rw [List.append_assoc, show bytes "/#" ++ sub = 47 :: 35 :: sub from rfl]
      exact congrArg (List.drop 1) (behind_append '/' hfront (35 :: sub))
    constructor
    · rintro ⟨root, sub, rfl, hroot, hword, hlen⟩
      refine ⟨⟨root, sub, rfl, hroot, ⟨hword.1, hword.2.1⟩, hlen⟩, ?_⟩
      rw [Unchecked, hbehind hroot]
      exact hword.2
    · rintro ⟨⟨root, sub, rfl, hroot, hsub, hlen⟩, htidy⟩
      rw [Unchecked, hbehind hroot] at htidy
      exact ⟨root, sub, rfl, hroot, ⟨hsub.1, htidy⟩, hlen⟩
  case RESTRICTED =>
    constructor
    · rintro ⟨root, rfl, hroot, hlen⟩
      exact ⟨⟨root, rfl, ⟨hroot.1.1, hroot.1.2.1⟩, hlen⟩, hroot⟩
    · rintro ⟨⟨root, rfl, -, hlen⟩, hroot⟩
      exact ⟨root, rfl, hroot, hlen⟩
  all_goals exact (and_iff_left trivial).symm

/-- The class of a name is the type the source gives it, and no other class has the name. -/
def RecognisedByClass (s : StdString) : Prop :=
  (∀ type, assetTypeOf s = some type ↔ InClass type s) ∧
    ∀ type type', InClass type s → InClass type' s → type = type'

/-- **The recogniser implements the documented grammar on exactly the strings that have, in each
shape of name with which the source is content (`Accepted`), the parts in order that it leaves
unchecked.** -/
theorem recognisedByClass_iff (s : StdString) :
    RecognisedByClass s ↔ ∀ type, Accepted type s → Unchecked type s := by
  have hsound {type : AssetType} (h : InClass type s) : assetTypeOf s = some type :=
    assetTypeOf_eq_some_iff.mpr (inClass_iff.mp h).1
  constructor
  · rintro ⟨hclass, -⟩ type haccepted
    exact (inClass_iff.mp ((hclass type).mp (assetTypeOf_eq_some_iff.mpr haccepted))).2
  · intro hrest
    refine ⟨fun type => ⟨fun htype => ?_, hsound⟩, fun type type' h h' => ?_⟩
    · have haccepted := assetTypeOf_eq_some_iff.mp htype
      exact inClass_iff.mpr ⟨haccepted, hrest type haccepted⟩
    · exact Option.some.inj ((hsound h).symm.trans (hsound h'))

/-- `$.AB` is accepted as the name of a restricted asset. -/
theorem not_recognisedByClass_dollar_dot : ¬ RecognisedByClass (bytes "$.AB") := by
  rintro ⟨hclass, -⟩
  obtain ⟨-, hroot⟩ := inClass_iff.mp ((hclass .RESTRICTED).mp (by decide))
  exact absurd hroot.1.2.2 (by decide)

end RavenCash
