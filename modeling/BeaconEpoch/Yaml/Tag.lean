import BeaconEpoch.Hex
import BeaconEpoch.Yaml.Character

/-!
# Tags

Names for kinds of nodes. A tag in a text is a handle and the rest of the name; a directive may say
what a handle stands for.

## Main definitions

* `Tag`: a name, as octets.
* `Tag.octets?`: the octets at the start of a text, some of which may be written as numbers.
* `Tag.Shorthand`, `Tag.Shorthand.read?`: a tag as it is written.
* `Handles`, `Tag.Shorthand.resolve?`: what handles stand for, and the tag that is meant.
* `Directive`, `Directive.read?`: the lines that start with a percent sign.

## Design notes

* **A tag consists of octets.** They need not be text, because each may be written as two
  hexadecimal digits. A zero octet ends the tag.
-/

namespace BeaconEpoch.Yaml

/-- A name for a kind of nodes. -/
structure Tag where
  octets : List UInt8
deriving DecidableEq, Repr

namespace Tag

/-- The octets of a text. -/
def octetsOf (text : String) : List UInt8 := text.toUTF8.toList

/-- The exclamation mark, with which local tags start. -/
def bang : UInt8 := 0x21

/-- An exclamation mark alone. -/
def bare : Tag := ⟨[bang]⟩

/-- The tag of a kind that every document knows. -/
def standard (kind : String) : Tag := ⟨octetsOf ("tag:yaml.org,2002:" ++ kind)⟩

/-- Whether a tag has its meaning only in one place. -/
def isLocal (tag : Tag) : Bool := tag.octets.head? == some bang

/-- The name that a local tag gives: what follows the exclamation mark, or the mark if it stands
alone. A tag that is no text gives none. -/
def name? (tag : Tag) : Option String :=
  match tag.octets with
  | [] => none
  | first :: rest =>
    if first = bang then String.fromUTF8? ⟨(if rest.isEmpty then [bang] else rest).toArray⟩
    else none

/-! ## Octets -/

/-- The octet of two hexadecimal digits. -/
def octet? (high low : Char) : Option UInt8 := do
  return UInt8.ofNat (16 * (← Hex.value? high) + (← Hex.value? low))

/-- How many octets have to follow one that starts a character. -/
def following? (octet : UInt8) : Option Nat :=
  if octet < 0x80 then some 0
  else if 0xc0 ≤ octet ∧ octet < 0xe0 then some 1
  else if 0xe0 ≤ octet ∧ octet < 0xf0 then some 2
  else if 0xf0 ≤ octet ∧ octet < 0xf8 then some 3
  else none

/-- Whether an octet may follow the first one of a character. -/
def follows (octet : UInt8) : Bool := 0x80 ≤ octet && octet < 0xc0

/-- Whether a character may stand in a tag. Within angle brackets and in directives there are
more. -/
def isTagChar (isVerbatim : Bool) (c : Char) : Bool :=
  isNameChar c || [';', '/', '?', ':', '@', '&', '=', '+', '$', '.', '!', '~', '*', '\'', '(',
    ')'].contains c || (isVerbatim && [',', '[', ']'].contains c)

/-- The octets at the start of a text, of which the first `missing` end a character, and what
follows them. -/
def octetsIn (isVerbatim : Bool) : (missing : Nat) → List Char → Option (List UInt8 × List Char)
  | missing, '%' :: high :: low :: rest => do
    let octet ← octet? high low
    let missing ← match missing with
      | 0 => following? octet
      | missing + 1 => if follows octet then some missing else none
    (octetsIn isVerbatim missing rest).map fun (octets, rest) => (octet :: octets, rest)
  | 0, c :: rest =>
    if isTagChar isVerbatim c then
      (octetsIn isVerbatim 0 rest).map fun (octets, rest) => (UInt8.ofNat c.toNat :: octets, rest)
    else if c == '%' then none
    else some ([], c :: rest)
  | 0, [] => some ([], [])
  | _, _ => none

/-- The octets at the start of a text, and what follows them. -/
def octets? (isVerbatim : Bool) (text : List Char) : Option (List UInt8 × List Char) :=
  octetsIn isVerbatim 0 text

/-- Octets up to the first zero. -/
def untilZero (octets : List UInt8) : List UInt8 := octets.takeWhile (· ≠ 0)

/-! ## Shorthands -/

/-- A tag as it is written. -/
structure Shorthand where
  /-- What stands for the start of the tag, or nothing. -/
  handle : String
  /-- The rest of the tag. -/
  suffix : List UInt8
deriving DecidableEq, Repr

/-- The handle between two exclamation marks, the first of which has been read, and what follows
it. -/
def handle? (text : List Char) : Option (String × List Char) :=
  let name := text.takeWhile isNameChar
  match text.drop name.length with
  | '!' :: rest => some (String.ofList ('!' :: name ++ ['!']), rest)
  | _ => none

/-- The tag whose exclamation mark has been read, and what follows it. -/
def Shorthand.read? : List Char → Option (Shorthand × List Char)
  | '<' :: text => do
    match ← octets? true text with
    | ([], _) => none
    | (octets, '>' :: rest) => some ({ handle := "", suffix := untilZero octets }, rest)
    | _ => none
  | text =>
    match handle? text with
    | some (handle, text) => do
      match ← octets? false text with
      | ([], _) => none
      | (octets, rest) => some ({ handle, suffix := untilZero octets }, rest)
    | none => do
      let (octets, rest) ← octets? false text
      if (untilZero octets).isEmpty then some ({ handle := "", suffix := [bang] }, rest)
      else some ({ handle := "!", suffix := untilZero octets }, rest)

end Tag

/-- What handles stand for. -/
abbrev Handles := List (String × List UInt8)

/-- What handles stand for unless a directive says something else. -/
def Handles.standard : Handles := [("!", [Tag.bang]), ("!!", (Tag.standard "").octets)]

/-- The tag that is meant. A handle that is not known means none. -/
def Tag.Shorthand.resolve? (handles : Handles) (shorthand : Shorthand) : Option Tag :=
  if shorthand.handle.isEmpty then some ⟨shorthand.suffix⟩
  else (handles.lookup shorthand.handle).map fun start => ⟨start ++ shorthand.suffix⟩

/-! ## Directives -/

/-- What a line with a percent sign says about the document below. -/
inductive Directive
  /-- The version of the format. -/
  | version (major minor : Nat)
  /-- What a handle stands for. -/
  | handle (name : String) (start : List UInt8)
deriving DecidableEq, Repr

namespace Directive

/-- The number of at most nine digits at the start of a text, and what follows it. -/
def number? (text : List Char) : Option (Nat × List Char) :=
  let digits := text.takeWhile Char.isDigit
  if digits.isEmpty || 9 < digits.length then none
  else some (digits.foldl (fun n c => 10 * n + (c.toNat - '0'.toNat)) 0, text.drop digits.length)

/-- The version at the start of a text, and what follows it. -/
def version? (text : List Char) : Option (Directive × List Char) := do
  match ← number? text with
  | (major, '.' :: rest) =>
    let (minor, rest) ← number? rest
    return (version major minor, rest)
  | _ => none

/-- The handle at the start of a text with what it stands for, and what follows them. -/
def handle? : List Char → Option (Directive × List Char)
  | '!' :: text => do
    let (name, text) := (Tag.handle? text).getD ("!", text)
    if text.head?.any isBlank then
      match ← Tag.octets? true (text.dropWhile isBlank) with
      | ([], _) => none
      | (octets, rest) =>
        if atGap rest then some (handle name (Tag.untilZero octets), rest) else none
    else none
  | _ => none

/-- The directive whose percent sign has been read, and what follows it. -/
def read? (text : List Char) : Option (Directive × List Char) :=
  let name := text.takeWhile isNameChar
  let rest := text.drop name.length
  if !atGap rest then none
  else match String.ofList name with
    | "YAML" => version? (rest.dropWhile isBlank)
    | "TAG" => handle? (rest.dropWhile isBlank)
    | _ => none

end Directive

end BeaconEpoch.Yaml
