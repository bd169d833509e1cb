import RavenCash.Assets.NameClasses

/-!
# Parents and owners of valid names

`GetParentName` cuts a valid name at its last delimiter, which leaves the path in front of it. The owner
token of that path is a valid name. `RestrictedNameToOwnerName` cuts the `$` off instead, and what stands
behind it need not be a root name.
-/

set_option autoImplicit false

namespace RavenCash

theorem beforeLast_append (delim : Char) (name : StdString) {tag : StdString}
    (h : delim.toNat.toUInt8 ∉ tag) : beforeLast delim (name ++ delim.toNat.toUInt8 :: tag) = name := by
  have hfind : (name ++ delim.toNat.toUInt8 :: tag).reverse.findIdx? (isChar delim) =
      some tag.length := by
    have hnone : tag.reverse.findIdx? (isChar delim) = none := by
      rw [List.findIdx?_eq_none_iff]
      intro b hb
      rw [isChar, beq_eq_false_iff_ne]
      rintro rfl
      exact h (List.mem_reverse.mp hb)
    rw [List.reverse_append, List.reverse_cons, List.append_assoc, List.findIdx?_append, hnone,
      List.singleton_append, List.findIdx?_cons, if_pos (by simp [isChar])]
    simp
  have hlen : (name ++ delim.toNat.toUInt8 :: tag).length - 1 - tag.length = name.length := by
    rw [List.length_append, List.length_cons]
    omega
  rw [beforeLast, hfind]
  simp only [hlen, List.take_left]

/-! ## Paths -/

theorem intercalate_concat (b : UInt8) (part : StdString) (parts : List StdString)
    (last : StdString) : [b].intercalate (part :: parts ++ [last]) =
      [b].intercalate (part :: parts) ++ b :: last := by
  induction parts generalizing part with
  | nil => simp [List.intercalate]
  | cons next parts ih =>
      have hnext := ih next
      simp only [List.cons_append] at hnext ⊢
      rw [List.intercalate_cons_cons, List.intercalate_cons_cons, hnext, List.append_assoc,
        List.append_assoc, List.append_assoc]

namespace Path

variable {root name : StdString} {subs : List StdString}

theorem assetTypeOf (h : Path root subs name) (hlen : name.length < MAX_NAME_LENGTH) :
    assetTypeOf name = some (if subs = [] then .ROOT else .SUB) := by
  rw [assetTypeOf_eq_some_iff]
  cases subs with
  | nil =>
      obtain rfl : name = root := by simpa [List.intercalate] using h.1
      exact ⟨h.2.1, hlen⟩
  | cons sub subs => exact ⟨root, sub, subs, h, hlen⟩

/-- Without a slash a path is its root. -/
theorem rootName (h : Path root subs name) (hslash : (47 : UInt8) ∉ name) : RootName name := by
  have hsplit := h.splitAt
  rw [splitAt_of_notMem '/' hslash] at hsplit
  obtain ⟨rfl, -⟩ := List.cons.inj hsplit
  exact h.2.1

theorem owner (h : Path root subs name) (hlen : name.length < MAX_NAME_LENGTH) :
    RavenCash.assetTypeOf (name ++ OWNER_TAG) = some .OWNER := by
  rw [assetTypeOf_eq_some_iff]
  refine ⟨root, subs, name, rfl, h, ?_⟩
  rw [List.length_append]
  exact hlen

/-- The last name of a path comes off with the slash in front of it. -/
theorem concat {last : StdString} (h : Path root (subs ++ [last]) name) :
    ∃ parent, name = parent ++ 47 :: last ∧ Path root subs parent ∧ (47 : UInt8) ∉ last := by
  have hname : name = (bytes "/").intercalate (root :: subs) ++ 47 :: last :=
    h.1.trans (intercalate_concat 47 root subs last)
  refine ⟨_, hname, ⟨rfl, h.2.1, fun sub hsub => h.2.2 sub (List.mem_append_left _ hsub)⟩, ?_⟩
  exact (h.2.2 last (by simp)).1.slash_notMem

theorem getParentName_concat {last : StdString} (h : Path root (subs ++ [last]) name)
    (hlen : name.length < MAX_NAME_LENGTH) : ∃ parent, getParentName name = parent ∧
      parent.length < name.length ∧ Path root subs parent := by
  obtain ⟨parent, rfl, hparent, hslash⟩ := h.concat
  refine ⟨parent, ?_, ?_, hparent⟩
  · rw [getParentName, h.assetTypeOf hlen, if_neg (by simp)]
    exact beforeLast_append '/' parent hslash
  · rw [List.length_append, List.length_cons]
    omega

/-- Parent after parent, a path reaches its root. -/
theorem reaches_root (h : Path root subs name) (hlen : name.length < MAX_NAME_LENGTH) :
    ∃ n, RavenCash.assetTypeOf (getParentName^[n] name) = some .ROOT := by
  induction subs using List.reverseRecOn generalizing name with
  | nil => exact ⟨0, h.assetTypeOf hlen⟩
  | append_singleton subs last ih =>
      obtain ⟨parent, hparent, hshorter, hpath⟩ := h.getParentName_concat hlen
      obtain ⟨n, hn⟩ := ih hpath (hshorter.trans hlen)
      exact ⟨n + 1, by rw [Function.iterate_succ_apply, hparent, hn]⟩

end Path

/-! ## Parents -/

/-- The parent of a name is a shorter name of one of the types, and parent after parent there is a name
of the type at the top. -/
structure HasParent (parents : List AssetType) (top : AssetType) (name : StdString) : Prop where
  shorter : (getParentName name).length < name.length
  valid : ∃ type ∈ parents, assetTypeOf (getParentName name) = some type
  reaches : ∃ n, assetTypeOf (getParentName^[n] name) = some top

/-- A name whose parent is a path below the length limit. -/
theorem HasParent.of_path {root name : StdString} {subs : List StdString}
    (h : Path root subs (getParentName name)) (hshorter : (getParentName name).length < name.length)
    (hlen : (getParentName name).length < MAX_NAME_LENGTH) : HasParent [.ROOT, .SUB] .ROOT name where
  shorter := hshorter
  valid := by
    refine ⟨_, ?_, h.assetTypeOf hlen⟩
    split_ifs <;> simp
  reaches := by
    obtain ⟨n, hn⟩ := h.reaches_root hlen
    exact ⟨n + 1, by rw [Function.iterate_succ_apply, hn]⟩

/-- What the parent or the owner token of a name of the type is. -/
def ParentLaw (name : StdString) : AssetType → Prop
  | .SUB | .UNIQUE | .MSGCHANNEL => HasParent [.ROOT, .SUB] .ROOT name ∧
      assetTypeOf (getParentName name ++ OWNER_TAG) = some .OWNER
  | .SUB_QUALIFIER => HasParent [.QUALIFIER] .QUALIFIER name
  | .RESTRICTED => assetTypeOf (restrictedNameToOwnerName name) = some .OWNER
  | _ => True

/-- The parent of a name with a tag is the path in front of the tag. -/
theorem parentLaw_tag (delim : Char) {root name tag : StdString} {subs : List StdString}
    (hpath : Path root subs name) (hlen : (name ++ delim.toNat.toUInt8 :: tag).length ≤ MAX_NAME_LENGTH)
    (hparent : getParentName (name ++ delim.toNat.toUInt8 :: tag) = name) :
    HasParent [.ROOT, .SUB] .ROOT (name ++ delim.toNat.toUInt8 :: tag) ∧
      assetTypeOf (getParentName (name ++ delim.toNat.toUInt8 :: tag) ++ OWNER_TAG) = some .OWNER := by
  have hshorter : name.length < (name ++ delim.toNat.toUInt8 :: tag).length := by
    rw [List.length_append, List.length_cons]
    omega
  have hmax := Nat.lt_of_lt_of_le hshorter hlen
  have hup : Path root subs (getParentName (name ++ delim.toNat.toUInt8 :: tag)) := by
    rw [hparent]
    exact hpath
  refine ⟨.of_path hup ?_ ?_, ?_⟩ <;> rw [hparent]
  · exact hshorter
  · exact hmax
  · exact hpath.owner hmax

theorem restrictedNameToOwnerName_eq {root : StdString}
    (h : assetTypeOf (bytes "$" ++ root) = some .RESTRICTED) :
    restrictedNameToOwnerName (bytes "$" ++ root) = root ++ OWNER_TAG := by
  obtain ⟨-, hind, -⟩ := assetTypeOf_iff_indicated.mp h
  have hspeaks := indicates_indicatedType (bytes "$" ++ root)
  rw [hind] at hspeaks
  rw [restrictedNameToOwnerName, if_pos]
  · rfl
  · rw [isAssetNameAnRestricted, isNameValid, h, show restrictedIndicator _ = true from hspeaks]
    rfl

theorem getParentName_unique_ne_nil {name : StdString} (h : assetTypeOf name = some .UNIQUE) :
    getParentName name ≠ [] := by
  obtain ⟨root, subs, path, tag, rfl, hpath, -, hchars, -, -⟩ := assetTypeOf_eq_some_iff.mp h
  have hsharp : '#'.toNat.toUInt8 ∉ tag := fun hmem => absurd (hchars _ hmem) (by decide)
  rw [List.append_assoc, show bytes "#" ++ tag = '#'.toNat.toUInt8 :: tag from rfl] at h ⊢
  rw [getParentName, h, beforeLast_append '#' path hsharp]
  exact hpath.ne_nil

/-- The parent of a sub qualifier is the qualifier in front of the slash. -/
theorem getParentName_subQualifier {name : StdString} (h : assetTypeOf name = some .SUB_QUALIFIER) :
    ∃ root sub, name = bytes "#" ++ root ++ bytes "/#" ++ sub ∧ getParentName name = bytes "#" ++ root ∧
      assetTypeOf (getParentName name) = some .QUALIFIER := by
  obtain ⟨root, sub, rfl, hroot, hsub, hlen⟩ := assetTypeOf_eq_some_iff.mp h
  have hparent : getParentName (bytes "#" ++ root ++ bytes "/#" ++ sub) = bytes "#" ++ root := by
    have hslash : (47 : UInt8) ∉ 35 :: sub := by simpa using hsub.1.slash_notMem
    rw [getParentName, h, List.append_assoc]
    exact beforeLast_append '/' _ hslash
  refine ⟨root, sub, rfl, hparent, ?_⟩
  rw [hparent, assetTypeOf_eq_some_iff]
  refine ⟨root, rfl, hroot, ?_⟩
  simp only [List.length_append] at hlen ⊢
  omega

/-- **The parents of valid names and the owner tokens of the parents are valid, and the owner token of
a restricted asset is when the name behind the `$` is that of a root asset.** -/
theorem parentLaw_iff (name : StdString) :
    (∀ type, assetTypeOf name = some type → ParentLaw name type) ↔
      (assetTypeOf name = some .RESTRICTED → RootName (name.drop 1)) := by
  constructor
  · intro hlaw hname
    obtain ⟨root, rfl, hchars, -⟩ := assetTypeOf_eq_some_iff.mp hname
    have howner := hlaw .RESTRICTED hname
    rw [ParentLaw, restrictedNameToOwnerName_eq hname, assetTypeOf_eq_some_iff] at howner
    obtain ⟨root', subs, name', heq, hpath, -⟩ := howner
    obtain ⟨rfl, -⟩ := List.append_inj' heq rfl
    exact hpath.rootName hchars.1.slash_notMem
  · intro hroot type hname
    have haccepted := assetTypeOf_eq_some_iff.mp hname
    cases type
    case SUB =>
      obtain ⟨root, sub, subs, hpath, hlen⟩ := haccepted
      obtain ⟨init, last, hsubs⟩ := List.eq_nil_or_concat (sub :: subs) |>.resolve_left (by simp)
      rw [hsubs, List.concat_eq_append] at hpath
      obtain ⟨parent, hparent, hshorter, hup⟩ := hpath.getParentName_concat hlen
      subst hparent
      have hmax := hshorter.trans hlen
      exact ⟨.of_path hup hshorter hmax, hup.owner hmax⟩
    case UNIQUE =>
      obtain ⟨root, subs, path, tag, rfl, hpath, -, hchars, -, hlen⟩ := haccepted
      rw [List.append_assoc, show bytes "#" ++ tag = '#'.toNat.toUInt8 :: tag from rfl]
        at hname hlen ⊢
      refine parentLaw_tag '#' hpath hlen ?_
      rw [getParentName, hname]
      exact beforeLast_append '#' path (fun hmem => absurd (hchars _ hmem) (by decide))
    case MSGCHANNEL =>
      obtain ⟨root, subs, path, tag, rfl, hpath, -, hchars, -, -, hlen⟩ := haccepted
      rw [List.append_assoc, show bytes "~" ++ tag = '~'.toNat.toUInt8 :: tag from rfl]
        at hname hlen ⊢
      refine parentLaw_tag '~' hpath hlen ?_
      rw [getParentName, hname]
      exact beforeLast_append '~' path (fun hmem => absurd (hchars _ hmem) (by decide))
    case SUB_QUALIFIER =>
      obtain ⟨root, sub, rfl, hparent, htype⟩ := getParentName_subQualifier hname
      refine ⟨?_, ⟨_, List.mem_singleton_self _, htype⟩, 1, htype⟩
      rw [hparent]
      simp only [List.length_append]
      exact Nat.lt_of_lt_of_le (Nat.lt_add_of_pos_right (by decide)) (Nat.le_add_right _ _)
    case RESTRICTED =>
      obtain ⟨root, rfl, -, hlen⟩ := haccepted
      rw [ParentLaw, restrictedNameToOwnerName_eq hname]
      exact (hroot hname).path.owner (by simpa [bytes] using hlen)
    all_goals trivial

/-- `RVN!` is not the name of an owner token. -/
theorem not_parentLaw_rvn : assetTypeOf (bytes "$RVN") = some .RESTRICTED ∧
    ¬ ParentLaw (bytes "$RVN") .RESTRICTED := by
  refine ⟨by decide, ?_⟩
  rw [ParentLaw]
  decide

/-! ## Owner tokens and restricted names -/

/-- Only the names of owner tokens have a `!`. -/
theorem Accepted.eq_owner {type : AssetType} {s : StdString} (h : Accepted type s)
    (hmem : (33 : UInt8) ∈ s) : type = .OWNER := by
  have hword {n : Nat} {s : StdString} (h : Chars n s) : (33 : UInt8) ∉ s :=
    fun hmem => absurd (h.1 33 hmem) (by decide)
  have hpath {root name : StdString} {subs : List StdString} (h : Path root subs name) :
      (33 : UInt8) ∉ name := fun hmem => absurd (h.isNameChar_or hmem) (by decide)
  cases type
  case OWNER => rfl
  case ROOT => exact absurd hmem (hword h.1.1.1)
  case SUB =>
    obtain ⟨root, sub, subs, h, -⟩ := h
    exact absurd hmem (hpath h)
  case UNIQUE =>
    obtain ⟨root, subs, name, tag, rfl, h, -, hchars, -⟩ := h
    simp only [List.mem_append, hpath h, false_or] at hmem
    exact absurd (hmem.resolve_left (by decide)) (fun hmem => absurd (hchars 33 hmem) (by decide))
  case MSGCHANNEL =>
    obtain ⟨root, subs, name, tag, rfl, h, -, hchars, -⟩ := h
    simp only [List.mem_append, hpath h, false_or] at hmem
    exact absurd (hmem.resolve_left (by decide)) (fun hmem => absurd (hchars 33 hmem) (by decide))
  case VOTE =>
    obtain ⟨root, subs, name, tag, rfl, h, htag, -⟩ := h
    simp only [List.mem_append, hpath h, false_or] at hmem
    exact absurd (hmem.resolve_left (by decide)) (fun hmem => absurd (htag.1 33 hmem) (by decide))
  case QUALIFIER =>
    obtain ⟨root, rfl, hroot, -⟩ := h
    simp [bytes, hword hroot.1.1] at hmem
  case SUB_QUALIFIER =>
    obtain ⟨root, sub, rfl, hroot, hsub, -⟩ := h
    simp [bytes, hword hroot.1.1, hword hsub.1] at hmem
  case RESTRICTED =>
    obtain ⟨root, rfl, hroot, -⟩ := h
    simp [bytes, hword hroot.1] at hmem
  all_goals exact h.elim

/-- With the owner token of the name behind its first byte valid, a name is that of a restricted asset
exactly when it starts with `$` and has no slash. -/
theorem assetTypeOf_eq_restricted_iff {name : StdString}
    (h : isNameValid (name.drop 1 ++ OWNER_TAG) = true) :
    assetTypeOf name = some .RESTRICTED ↔
      name.head? = some '$'.toNat.toUInt8 ∧ '/'.toNat.toUInt8 ∉ name := by
  constructor
  · intro htype
    obtain ⟨root, rfl, hroot, -⟩ := assetTypeOf_eq_some_iff.mp htype
    refine ⟨rfl, ?_⟩
    simpa [bytes] using hroot.1.slash_notMem
  · rintro ⟨hhead, hslash⟩
    obtain ⟨root, rfl⟩ : ∃ root, name = '$'.toNat.toUInt8 :: root :=
      List.head?_eq_some_iff.mp hhead
    obtain ⟨type, htype⟩ := Option.isSome_iff_exists.mp h
    have haccepted := assetTypeOf_eq_some_iff.mp htype
    obtain rfl := haccepted.eq_owner (List.mem_append_right _ (by decide))
    obtain ⟨root', subs, name', heq, hpath, hlen⟩ := haccepted
    obtain ⟨rfl, -⟩ := List.append_inj' heq rfl
    have hroot := hpath.rootName (fun hmem => hslash (List.mem_cons_of_mem _ hmem))
    exact assetTypeOf_eq_some_iff.mpr
      ⟨root, rfl, ⟨hroot.1.1, hroot.1.2.1⟩, by simpa [OWNER_TAG, bytes] using hlen⟩

end RavenCash
