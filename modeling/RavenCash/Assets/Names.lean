import Mathlib.Data.List.TakeWhile
import RavenCash.Basic.Primitives

/-!
# Asset names

The regular expressions at the head of `assets/assets.cpp` as predicates on byte strings, the name
validators built from them, `IsAssetNameValid` with the asset type it finds and its error texts,
and `GetParentName`.

Every expression is used with `regex_match`, so it describes the whole string. The classes in front
of a delimiter exclude the delimiter, so the longest run of the class is the only way to match, and
`.` stands for any byte that is not a line terminator.
-/

set_option autoImplicit false

namespace RavenCash

inductive AssetType where
  | ROOT
  | SUB
  | UNIQUE
  | MSGCHANNEL
  | QUALIFIER
  | SUB_QUALIFIER
  | RESTRICTED
  | VOTE
  | REISSUE
  | OWNER
  | NULL_ADD_QUALIFIER
  | INVALID
deriving DecidableEq, Repr

def MAX_NAME_LENGTH : Nat := 31
def MAX_CHANNEL_NAME_LENGTH : Nat := 12
def MIN_ASSET_LENGTH : Nat := 3

/-- The name of the owner token of an asset ends in this tag. -/
def OWNER_TAG : StdString := bytes "!"

/-! ## Character classes -/

def isChar (c : Char) (b : UInt8) : Bool := b == c.toNat.toUInt8

def inRange (lo hi : Char) (b : UInt8) : Bool :=
  decide (lo.toNat.toUInt8 ≤ b) && decide (b ≤ hi.toNat.toUInt8)

def anyOf (cs : String) (b : UInt8) : Bool := (bytes cs).contains b

/-- `[A-Z0-9._]` -/
def isNameChar (b : UInt8) : Bool := inRange 'A' 'Z' b || inRange '0' '9' b || anyOf "._" b

/-- `[._]` -/
def isPunctuation (b : UInt8) : Bool := anyOf "._" b

/-- `.` -/
def isDot (b : UInt8) : Bool := !anyOf "\n\r" b

/-! ## The regular expressions -/

/-- `^[A-Z0-9._]{3,}$` -/
def rootNameCharacters (s : StdString) : Bool := s.all isNameChar && decide (3 ≤ s.length)

/-- `^[A-Z0-9._]+$` -/
def subNameCharacters (s : StdString) : Bool := s.all isNameChar && decide (1 ≤ s.length)

/-- `^[-A-Za-z0-9@$%&*()[\]{}_.?:]+$` -/
def uniqueTagCharacters (s : StdString) : Bool :=
  s.all (fun b => inRange 'A' 'Z' b || inRange 'a' 'z' b || inRange '0' '9' b ||
    anyOf "-@$%&*()[]\x7b\x7d_.?:" b) && decide (1 ≤ s.length)

/-- `^[A-Za-z0-9_]+$` -/
def msgChannelTagCharacters (s : StdString) : Bool :=
  s.all (fun b => inRange 'A' 'Z' b || inRange 'a' 'z' b || inRange '0' '9' b || isChar '_' b) &&
    decide (1 ≤ s.length)

/-- `^[A-Z0-9._]+$` -/
def voteTagCharacters (s : StdString) : Bool := s.all isNameChar && decide (1 ≤ s.length)

/-- `#[A-Z0-9._]{3,}$` -/
def qualifierNameCharacters : StdString → Bool
  | [] => false
  | b :: s => isChar '#' b && rootNameCharacters s

/-- `#[A-Z0-9._]+$` -/
def subQualifierNameCharacters : StdString → Bool
  | [] => false
  | b :: s => isChar '#' b && subNameCharacters s

/-- `\$[A-Z0-9._]{3,}$` -/
def restrictedNameCharacters : StdString → Bool
  | [] => false
  | b :: s => isChar '$' b && rootNameCharacters s

/-- Two adjacent bytes of `[._]`. -/
def hasDoublePunctuation : StdString → Bool
  | b :: c :: s => (isPunctuation b && isPunctuation c) || hasDoublePunctuation (c :: s)
  | _ => false

/-- `^.*[._]{2,}.*$` -/
def doublePunctuation (s : StdString) : Bool := s.all isDot && hasDoublePunctuation s

/-- `^[._].*$` -/
def leadingPunctuation : StdString → Bool
  | [] => false
  | b :: s => isPunctuation b && s.all isDot

/-- `^.*[._]$` -/
def trailingPunctuation (s : StdString) : Bool := leadingPunctuation s.reverse

/-- `^[#\$][._].*$` -/
def qualifierLeadingPunctuation : StdString → Bool
  | [] => false
  | b :: s => anyOf "#$" b && leadingPunctuation s

/-- `^[^^~#!]+` up to the delimiter, then the rest. -/
def beforeIndicator (s : StdString) : StdString × StdString :=
  (s.takeWhile (fun b => !anyOf "^~#!" b), s.dropWhile (fun b => !anyOf "^~#!" b))

/-- `^[^^~#!]+D[^~#!\/]+$` for the delimiter `D`. -/
def tagIndicator (delim : Char) (s : StdString) : Bool :=
  match beforeIndicator s with
  | (name, b :: tag) =>
      decide (1 ≤ name.length) && isChar delim b && tag.all (fun b => !anyOf "~#!/" b) &&
        decide (1 ≤ tag.length)
  | (_, []) => false

def uniqueIndicator (s : StdString) : Bool := tagIndicator '#' s

def msgChannelIndicator (s : StdString) : Bool := tagIndicator '~' s

def voteIndicator (s : StdString) : Bool := tagIndicator '^' s

/-- `^[^^~#!]+!$` -/
def ownerIndicator (s : StdString) : Bool :=
  match beforeIndicator s with
  | (name, [b]) => decide (1 ≤ name.length) && isChar '!' b
  | _ => false

/-- `^[#][A-Z0-9._]{3,}$` -/
def qualifierIndicator (s : StdString) : Bool := qualifierNameCharacters s

/-- `^#[A-Z0-9._]+\/#[A-Z0-9._]+$` -/
def subQualifierIndicator (s : StdString) : Bool :=
  subQualifierNameCharacters (s.takeWhile (fun b => !isChar '/' b)) &&
    subQualifierNameCharacters ((s.dropWhile (fun b => !isChar '/' b)).drop 1)

/-- `^[\$][A-Z0-9._]{3,}$` -/
def restrictedIndicator (s : StdString) : Bool := restrictedNameCharacters s

def ravencashNames (s : StdString) : Bool :=
  [bytes "RVN", bytes "RAVEN", bytes "RAVENCOIN", bytes "#RVN", bytes "#RAVEN", bytes "#RAVENCOIN",
    bytes "RVH", bytes "RVH", bytes "RAVENCASH", bytes "RAVENCASHCOIN", bytes "#RVH",
    bytes "#RAVENCASH", bytes "#RAVENCASHCOIN"].contains s

/-! ## Validators -/

def isRootNameValid (name : StdString) : Bool :=
  rootNameCharacters name && !doublePunctuation name && !leadingPunctuation name &&
    !trailingPunctuation name && !ravencashNames name

def isQualifierNameValid (name : StdString) : Bool :=
  qualifierNameCharacters name && !doublePunctuation name && !qualifierLeadingPunctuation name &&
    !trailingPunctuation name && !ravencashNames name

def isRestrictedNameValid (name : StdString) : Bool :=
  restrictedNameCharacters name && !doublePunctuation name && !leadingPunctuation name &&
    !trailingPunctuation name && !ravencashNames name

def isSubQualifierNameValid (name : StdString) : Bool :=
  subQualifierNameCharacters name && !doublePunctuation name && !leadingPunctuation name &&
    !trailingPunctuation name

def isSubNameValid (name : StdString) : Bool :=
  subNameCharacters name && !doublePunctuation name && !leadingPunctuation name &&
    !trailingPunctuation name

def isUniqueTagValid (tag : StdString) : Bool := uniqueTagCharacters tag

def isVoteTagValid (tag : StdString) : Bool := voteTagCharacters tag

def isMsgChannelTagValid (tag : StdString) : Bool :=
  msgChannelTagCharacters tag && !doublePunctuation tag && !leadingPunctuation tag &&
    !trailingPunctuation tag

/-- `boost::split` at every occurrence of one delimiter. -/
def splitAt (delim : Char) (s : StdString) : List StdString := s.splitOn delim.toNat.toUInt8

def isNameValidBeforeTag (name : StdString) : Bool :=
  let parts := splitAt '/' name
  isRootNameValid (parts.headD []) && (parts.drop 1).all isSubNameValid

/-- Qualifiers have at most one sub qualifier under them. -/
def isQualifierNameValidBeforeTag (name : StdString) : Bool :=
  let parts := splitAt '/' name
  isQualifierNameValid (parts.headD []) && !decide (2 < parts.length) &&
    (parts.drop 1).all isSubQualifierNameValid

def isAssetNameASubasset (name : StdString) : Bool :=
  let parts := splitAt '/' name
  isRootNameValid (parts.headD []) && decide (1 < parts.length)

def isAssetNameASubQualifier (name : StdString) : Bool :=
  let parts := splitAt '/' name
  isQualifierNameValid (parts.headD []) && decide (1 < parts.length)

/-! ## Names and their types -/

def lengthError (max : Nat) : String := "Name is greater than max length of " ++ toString max

/-- The check of a name against an asset type, with the text left in `error`. -/
def isTypeCheckNameValid (type : AssetType) (name : StdString) : Except String Unit :=
  match type with
  | .UNIQUE =>
      if MAX_NAME_LENGTH < name.length then .error (lengthError MAX_NAME_LENGTH)
      else
        let parts := splitAt '#' name
        if isNameValidBeforeTag (parts.headD []) && isUniqueTagValid (parts.getLastD []) then .ok ()
        else .error "Unique name contains invalid characters (Valid characters are: A-Z a-z 0-9 @ $ % & * ( ) [ ] \x7b \x7d _ . ? : -)"
  | .MSGCHANNEL =>
      if MAX_NAME_LENGTH < name.length then .error (lengthError MAX_NAME_LENGTH)
      else
        let parts := splitAt '~' name
        if MAX_CHANNEL_NAME_LENGTH < (parts.getLastD []).length then
          .error ("Channel name is greater than max length of " ++ toString MAX_CHANNEL_NAME_LENGTH)
        else if isNameValidBeforeTag (parts.headD []) && isMsgChannelTagValid (parts.getLastD []) then
          .ok ()
        else .error "Message Channel name contains invalid characters (Valid characters are: A-Z 0-9 _ .) (special characters can't be the first or last characters)"
  | .OWNER =>
      if MAX_NAME_LENGTH < name.length then .error (lengthError MAX_NAME_LENGTH)
      else if isNameValidBeforeTag (name.take (name.length - 1)) then .ok ()
      else .error "Owner name contains invalid characters (Valid characters are: A-Z 0-9 _ .) (special characters can't be the first or last characters)"
  | .VOTE =>
      if MAX_NAME_LENGTH < name.length then .error (lengthError MAX_NAME_LENGTH)
      else
        let parts := splitAt '^' name
        if isNameValidBeforeTag (parts.headD []) && isVoteTagValid (parts.getLastD []) then .ok ()
        else .error "Vote name contains invalid characters (Valid characters are: A-Z 0-9 _ .) (special characters can't be the first or last characters)"
  | .QUALIFIER | .SUB_QUALIFIER =>
      if MAX_NAME_LENGTH < name.length then .error (lengthError MAX_NAME_LENGTH)
      else if isQualifierNameValidBeforeTag name then .ok ()
      else .error "Qualifier name contains invalid characters (Valid characters are: A-Z 0-9 _ .) (# must be the first character, _ . special characters can't be the first or last characters)"
  | .RESTRICTED =>
      if MAX_NAME_LENGTH < name.length then .error (lengthError MAX_NAME_LENGTH)
      else if isRestrictedNameValid name then .ok ()
      else .error "Restricted name contains invalid characters (Valid characters are: A-Z 0-9 _ .) ($ must be the first character, _ . special characters can't be the first or last characters)"
  | _ =>
      -- assets and sub-assets leave one character for the owner tag
      if MAX_NAME_LENGTH - 1 < name.length then .error (lengthError (MAX_NAME_LENGTH - 1))
      else if !isAssetNameASubasset name && decide (name.length < MIN_ASSET_LENGTH) then
        .error ("Name must be contain " ++ toString MIN_ASSET_LENGTH ++ " characters")
      else if isNameValidBeforeTag name then .ok ()
      else if isAssetNameASubasset name && decide (name.length < 3) then
        .error "Name must have at least 3 characters (Valid characters are: A-Z 0-9 _ .)"
      else .error "Name contains invalid characters (Valid characters are: A-Z 0-9 _ .) (special characters can't be the first or last characters)"

/-- `IsAssetNameValid(name, assetType, error)`: the asset type of a valid name. A name of more than
40 bytes fails before `error` is written. -/
def isAssetNameValid (name : StdString) : Except String AssetType :=
  if 40 < name.length then .error ""
  else if uniqueIndicator name then (isTypeCheckNameValid .UNIQUE name).map (fun _ => .UNIQUE)
  else if msgChannelIndicator name then
    (isTypeCheckNameValid .MSGCHANNEL name).map (fun _ => .MSGCHANNEL)
  else if ownerIndicator name then (isTypeCheckNameValid .OWNER name).map (fun _ => .OWNER)
  else if voteIndicator name then (isTypeCheckNameValid .VOTE name).map (fun _ => .VOTE)
  else if qualifierIndicator name then
    (isTypeCheckNameValid .QUALIFIER name).map
      (fun _ => if isAssetNameASubQualifier name then .SUB_QUALIFIER else .QUALIFIER)
  else if subQualifierIndicator name then
    (isTypeCheckNameValid .SUB_QUALIFIER name).map
      (fun _ => if isAssetNameASubQualifier name then .SUB_QUALIFIER else .INVALID)
  else if restrictedIndicator name then
    (isTypeCheckNameValid .RESTRICTED name).map (fun _ => .RESTRICTED)
  else if isAssetNameASubasset name then (isTypeCheckNameValid .SUB name).map (fun _ => .SUB)
  else (isTypeCheckNameValid .ROOT name).map (fun _ => .ROOT)

/-- The type of a valid name. -/
def assetTypeOf (name : StdString) : Option AssetType := (isAssetNameValid name).toOption

/-- `IsAssetNameValid(name)` -/
def isNameValid (name : StdString) : Bool := (assetTypeOf name).isSome

def isAssetNameAnOwner (name : StdString) : Bool := isNameValid name && ownerIndicator name

def isAssetNameAnRestricted (name : StdString) : Bool :=
  isNameValid name && restrictedIndicator name

def isAssetNameAQualifier (name : StdString) (fOnlyQualifiers : Bool := false) : Bool :=
  if fOnlyQualifiers then isNameValid name && qualifierIndicator name
  else isNameValid name && (qualifierIndicator name || subQualifierIndicator name)

/-- `$NAME` gives `NAME!`. -/
def restrictedNameToOwnerName (name : StdString) : StdString :=
  if isAssetNameAnRestricted name then name.drop 1 ++ OWNER_TAG else []

/-- `name.substr(0, name.find_last_of(delim))`, or the whole name without the delimiter. -/
def beforeLast (delim : Char) (name : StdString) : StdString :=
  match name.reverse.findIdx? (isChar delim) with
  | some i => name.take (name.length - 1 - i)
  | none => name

def getParentName (name : StdString) : StdString :=
  match assetTypeOf name with
  | none => []
  | some .SUB => beforeLast '/' name
  | some .UNIQUE => beforeLast '#' name
  | some .MSGCHANNEL => beforeLast '~' name
  | some .VOTE => beforeLast '^' name
  | some .SUB_QUALIFIER => beforeLast '/' name
  | some _ => name

end RavenCash
