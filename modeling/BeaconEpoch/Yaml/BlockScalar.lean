import BeaconEpoch.Yaml.Gap

/-!
# Block scalars

Scalars that are the lines below a sign, without what stands in front of them.

## Main definitions

* `BlockScalar.Ending`, `BlockScalar.header?`: which breaks at the end count, and what the line with
  the sign says.
* `BlockScalar.depth?`, `BlockScalar.strip`: how deep the lines are, and the lines without their
  indentation.
* `BlockScalar.fold`, `BlockScalar.finish`: the lines as text.
* `BlockScalar.read?`: the scalar behind a sign.
-/

namespace BeaconEpoch.Yaml.BlockScalar

/-- Which of the breaks after the last line count. -/
inductive Ending
  | none
  | first
  | all
deriving DecidableEq, Repr

namespace Ending

/-- The ending that a sign asks for. -/
def ofSign? : Char → Option Ending
  | '-' => some none
  | '+' => some all
  | _ => .none

/-- The breaks that count, of those after the last line. -/
def keep : Ending → List Char → List Char
  | none, _ => []
  | first, breaks => breaks.take 1
  | all, breaks => breaks

end Ending

/-- The number that a digit asks for as depth. Zero is refused. -/
def depthOfDigit? (c : Char) : Option Nat :=
  if '1' ≤ c ∧ c ≤ '9' then some (c.toNat - '0'.toNat) else none

/-- The ending and the depth that some characters ask for, in either order, and what follows
them. -/
def request : List Char → (Ending × Option Nat) × List Char
  | [] => ((.first, none), [])
  | a :: rest =>
    match Ending.ofSign? a, depthOfDigit? a with
    | some ending, _ =>
      match rest with
      | b :: more =>
        match depthOfDigit? b with
        | some depth => ((ending, some depth), more)
        | none => ((ending, none), rest)
      | [] => ((ending, none), rest)
    | none, some depth =>
      match rest with
      | b :: more =>
        match Ending.ofSign? b with
        | some ending => ((ending, some depth), more)
        | none => ((.first, some depth), rest)
      | [] => ((.first, some depth), rest)
    | none, none => ((.first, none), a :: rest)

/-- What is left of a line behind blanks and a comment, with the lines below. The comment may touch
what stands before it. -/
def afterRemark (text : List Char) : List Char :=
  let text := text.dropWhile isBlank
  if text.head? == some '#' then text.dropWhile (!isBreak ·) else text

/-- What the line with the sign asks for, and the lines below it. -/
def header? (text : List Char) : Option ((Ending × Option Nat) × List Char) :=
  let (asked, rest) := request text
  match afterRemark rest with
  | [] => some (asked, [])
  | c :: below => if isBreak c then some (asked, below) else none

/-- How deep the first line that says something is, or a line of spaces before it if that is deeper.
A tab must not stand in front of the line. -/
def depth? : (column deepest : Nat) → List Char → Option Nat
  | column, deepest, [] => some (max column deepest)
  | column, deepest, c :: rest =>
    if c == ' ' then depth? (column + 1) deepest rest
    else if c == '\t' then none
    else if isBreak c then depth? 0 (max column deepest) rest
    else some (max column deepest)

/-- The lines that are as deep as they have to be, without their indentation, and what follows them.
Reading stands at a column of the indentation, or behind it. -/
def strip (indent : Nat) : (margin : Option Nat) → List Char → Option (List Char × List Char)
  | _, [] => some ([], [])
  | none, c :: rest =>
    (strip indent (if isBreak c then some 0 else none) rest).map fun (lines, rest) =>
      (c :: lines, rest)
  | some column, c :: rest =>
    if isBreak c then (strip indent (some 0) rest).map fun (lines, rest) => (c :: lines, rest)
    else if column = indent then
      (strip indent none rest).map fun (lines, rest) => (c :: lines, rest)
    else if c == ' ' then strip indent (some (column + 1)) rest
    else if c == '\t' then none
    else some ([], c :: rest)

/-- Lines with the breaks between them folded, except next to a line that starts with a blank. -/
def foldIn (startsBlank : Bool) (breaks : List Char) : List Char → List Char
  | [] => []
  | c :: rest =>
    if isBreak c then foldIn startsBlank (breaks ++ [c]) rest
    else if breaks.isEmpty then c :: foldIn startsBlank [] rest
    else (if startsBlank || isBlank c then breaks else foldBreaks breaks) ++
      c :: foldIn (isBlank c) [] rest

/-- Lines with the breaks between them folded. The breaks before the first line all count. -/
def fold (lines : List Char) : List Char :=
  let first := lines.dropWhile isBreak
  lines.takeWhile isBreak ++ foldIn (first.head?.any isBlank) [] first

/-- Lines as text: the breaks between them as they are or folded, and at the end those that
count. -/
def finish (isFolded : Bool) (ending : Ending) (lines : List Char) : List Char :=
  let body := (lines.reverse.dropWhile isBreak).reverse
  let breaks := lines.drop body.length
  if body.isEmpty then if ending = .all then breaks else []
  else (if isFolded then fold body else body) ++ ending.keep breaks

/-- The scalar whose sign has been read, and what follows it. Its lines are deeper than `base`: by
as much as the header asks for, or else as deep as the first of them. -/
def read? (isFolded : Bool) (base : Nat) (text : List Char) :
    Option (List Char × List Char) := do
  let ((ending, asked), below) ← header? text
  let indent ← match asked with
    | some depth => some (base + depth)
    | none => (depth? 0 0 below).map (max · (base + 1))
  let (lines, rest) ← strip indent (some 0) below
  return (finish isFolded ending lines, rest)

end BeaconEpoch.Yaml.BlockScalar
