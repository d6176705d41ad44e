import BeaconEpoch.Json.Token

/-!
# JSON text

Values as tokens, and as text.

## Main definitions

* `Json.tokens`, `Json.render`: a value as tokens and as text.
* `Frame`, `Nesting`, `Nesting.step`: the open arrays and objects, what may come next, and one more
  token.
* `Json.ofTokens?`, `Json.parse?`: the value of some tokens and of a text.

Reading gives back what was written (`Json.ofTokens?_tokens`).

## Design notes

* **Reading goes through the tokens once.** The open arrays and objects are kept in a list, so that
  no depth of nesting needs a deeper recursion.
-/

namespace BeaconEpoch.Json

/-! ## Writing -/

mutual

/-- A value as tokens. -/
def tokens : Json → List Token
  | .scalar v => [.scalar v]
  | .array [] => [.mark .openArray, .mark .closeArray]
  | .array (item :: items) => .mark .openArray :: (item.tokens ++ itemTokens items)
  | .object [] => [.mark .openObject, .mark .closeObject]
  | .object ((name, head) :: entries) =>
    .mark .openObject :: .scalar (.text name) :: .mark .colon ::
      (head.tokens ++ entryTokens entries)

/-- The items after the first one, and the end of the array. -/
def itemTokens : List Json → List Token
  | [] => [.mark .closeArray]
  | item :: items => .mark .comma :: (item.tokens ++ itemTokens items)

/-- The entries after the first one, and the end of the object. -/
def entryTokens : List (String × Json) → List Token
  | [] => [.mark .closeObject]
  | (key, value) :: entries =>
    .mark .comma :: .scalar (.text key) :: .mark .colon :: (value.tokens ++ entryTokens entries)

end

/-- A value as text, without blanks. -/
def render (json : Json) : String := String.ofList (json.tokens.flatMap Token.characters)

/-! ## Reading -/

/-- An array or object that is open: what it holds so far, last part first, and the key that waits
for its value. -/
inductive Frame
  | array (items : List Json)
  | object (entries : List (String × Json)) (key : String)
deriving Inhabited

/-- What may come next, and the arrays and objects that are open, innermost first. -/
inductive Nesting
  /-- A value. -/
  | value (frames : List Frame)
  /-- The first item of an array, or its end. -/
  | item (frames : List Frame)
  /-- The first key of an object, or its end. -/
  | entry (frames : List Frame)
  /-- A key, after the entries before it. -/
  | key (entries : List (String × Json)) (frames : List Frame)
  /-- The colon after a key. -/
  | colon (entries : List (String × Json)) (key : String) (frames : List Frame)
  /-- What follows a value. -/
  | after (value : Json) (frames : List Frame)
deriving Inhabited

/-- The key that a scalar is. A key with half a character in it can stand only in a value that is
itself a part of another, where it is the key of nothing. -/
def Scalar.key? (frames : List Frame) : Scalar → Option String
  | .text name => some name
  | .unpaired written => if frames.isEmpty then none else some written
  | _ => none

namespace Nesting

/-- Reads the first token of a value. -/
def first (frames : List Frame) : Token → Option Nesting
  | .scalar v => some (after (.scalar v) frames)
  | .mark .openArray => some (item frames)
  | .mark .openObject => some (entry frames)
  | .mark _ => none

/-- Reads what follows a value inside an array or object. -/
def next (value : Json) (frames : List Frame) : Frame → Token → Option Nesting
  | .array items, .mark .comma => some (Nesting.value (.array (value :: items) :: frames))
  | .array items, .mark .closeArray => some (after (.array (value :: items).reverse) frames)
  | .object entries name, .mark .comma => some (key ((name, value) :: entries) frames)
  | .object entries name, .mark .closeObject =>
    some (after (.object ((name, value) :: entries).reverse) frames)
  | _, _ => none

/-- Reads one more token. -/
def step : Nesting → Token → Option Nesting
  | value frames, token => first frames token
  | item frames, .mark .closeArray => some (after (.array []) frames)
  | item frames, token => first (.array [] :: frames) token
  | entry frames, .mark .closeObject => some (after (.object []) frames)
  | entry frames, .scalar v => (v.key? frames).map (colon [] · frames)
  | entry _, _ => none
  | key entries frames, .scalar v => (v.key? frames).map (colon entries · frames)
  | key _ _, _ => none
  | colon entries name frames, .mark .colon => some (value (.object entries name :: frames))
  | colon _ _ _, _ => none
  | after v (frame :: frames), token => next v frames frame token
  | after _ [], _ => none

end Nesting

/-- The value of some tokens. -/
def ofTokens? (tokens : List Token) : Option Json := do
  match ← tokens.foldlM Nesting.step (.value []) with
  | .after value [] => some value
  | _ => none

/-- The value of a text. -/
def parse? (text : String) : Option Json := (Token.scan? text.toList).bind ofTokens?

/-! ## Small laws -/

/-- The first token of a value is never the end of an array. -/
theorem foldlM_item (frames : List Frame) (json : Json) (rest : List Token) :
    (json.tokens ++ rest).foldlM Nesting.step (.item frames) =
      (json.tokens ++ rest).foldlM Nesting.step (.value (.array [] :: frames)) := by
  match json with
  | .scalar _ => rfl
  | .array [] => rfl
  | .array (_ :: _) => simp only [tokens, List.cons_append, List.foldlM_cons]; rfl
  | .object [] => rfl
  | .object (_ :: _) => simp only [tokens, List.cons_append, List.foldlM_cons]; rfl

mutual

theorem foldlM_tokens (frames : List Frame) (json : Json) (rest : List Token) :
    (json.tokens ++ rest).foldlM Nesting.step (.value frames) =
      rest.foldlM Nesting.step (.after json frames) := by
  match json with
  | .scalar _ => simp [tokens]; rfl
  | .array [] => simp [tokens]; rfl
  | .array (head :: items) =>
    have first : (head.tokens ++ (itemTokens items ++ rest)).foldlM Nesting.step
        (.item frames) = (itemTokens items ++ rest).foldlM Nesting.step
          (.after head (.array [] :: frames)) := by
      rw [← foldlM_tokens (.array [] :: frames) head (itemTokens items ++ rest)]
      exact foldlM_item frames head _
    simp only [tokens, List.cons_append, List.append_assoc, List.foldlM_cons]
    change (head.tokens ++ (itemTokens items ++ rest)).foldlM Nesting.step (.item frames) = _
    rw [first, foldlM_itemTokens frames [] head items rest]
    rfl
  | .object [] => simp [tokens]; rfl
  | .object ((name, head) :: entries) =>
    simp only [tokens, List.cons_append, List.append_assoc, List.foldlM_cons]
    change (head.tokens ++ (entryTokens entries ++ rest)).foldlM Nesting.step
      (.value (.object [] name :: frames)) = _
    rw [foldlM_tokens, foldlM_entryTokens frames [] name head entries rest]
    rfl

/-- Items are read one by one into the array that is open, by induction along with the values
themselves. -/
theorem foldlM_itemTokens (frames : List Frame) (done : List Json) (value : Json)
    (items : List Json) (rest : List Token) :
    (itemTokens items ++ rest).foldlM Nesting.step (.after value (.array done :: frames)) =
      rest.foldlM Nesting.step (.after (.array (done.reverse ++ value :: items)) frames) := by
  match items with
  | [] =>
    simp only [itemTokens, List.cons_append, List.nil_append, List.foldlM_cons]
    change rest.foldlM Nesting.step (.after (.array (value :: done).reverse) frames) = _
    simp
  | item :: items =>
    simp only [itemTokens, List.cons_append, List.append_assoc, List.foldlM_cons]
    change (item.tokens ++ (itemTokens items ++ rest)).foldlM Nesting.step
      (.value (.array (value :: done) :: frames)) = _
    rw [foldlM_tokens, foldlM_itemTokens frames (value :: done) item items rest]
    simp

theorem foldlM_entryTokens (frames : List Frame) (done : List (String × Json)) (name : String)
    (value : Json) (entries : List (String × Json)) (rest : List Token) :
    (entryTokens entries ++ rest).foldlM Nesting.step
        (.after value (.object done name :: frames)) =
      rest.foldlM Nesting.step (.after (.object (done.reverse ++ (name, value) :: entries)) frames)
    := by
  match entries with
  | [] =>
    simp only [entryTokens, List.cons_append, List.nil_append, List.foldlM_cons]
    change rest.foldlM Nesting.step (.after (.object ((name, value) :: done).reverse) frames) = _
    simp
  | (key, item) :: entries =>
    simp only [entryTokens, List.cons_append, List.append_assoc, List.foldlM_cons]
    change (item.tokens ++ (entryTokens entries ++ rest)).foldlM Nesting.step
      (.value (.object ((name, value) :: done) key :: frames)) = _
    rw [foldlM_tokens, foldlM_entryTokens frames ((name, value) :: done) key item entries rest]
    simp

end

/-- A value is read back from its tokens. -/
theorem ofTokens?_tokens (json : Json) : ofTokens? json.tokens = some json := by
  have := foldlM_tokens [] json []
  simp only [List.append_nil] at this
  simp [ofTokens?, this]

end BeaconEpoch.Json
