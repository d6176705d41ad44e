import BeaconEpoch.Json.Tree

/-!
# JSON text is read back

A value that is written as text and read again is the same value.

## Main definitions

* `Json.Scalar.Word`: the scalars that are written without quotes.
* `Json.Plain`: values whose scalars are what a document is made of.
* `Json.Scan.Stands`: reading has come to the end of some tokens, of which a word may still be open.

## Main statements

* `Json.Scan.step_of_endsWord`: an open word is as good as a token, if the next character ends it.
* `Json.reads_tokens`: the tokens of a value, one after another.
* `Json.scan?_tokens`, `Json.parse?_render`: the text of a value.

## Design notes

* **Words end late.** The end of a literal or a number shows only in the character that follows it.
  So what is said about the end of a value leaves its last word open, and every token that may
  follow a value starts with a character that ends a word.
* **Numbers with a sign or a fraction are not considered,** nor texts with half a character in them:
  nothing that is written here contains them.
-/

namespace BeaconEpoch.Json

/-! ## Words -/

/-- The scalars that are written without quotes: null, truth values and natural numbers. -/
inductive Scalar.Word : Scalar → Prop
  | null : Word .null
  | bool (value : Bool) : Word (.bool value)
  | nat (value : Nat) : Word (.nat value)

namespace Scan

theorem not_endsWord_of_isDigit {c : Char} (digit : c.isDigit = true) : endsWord c = false := by
  rw [Bool.eq_false_iff]
  intro ends
  simp only [endsWord, isBlank, Bool.or_eq_true, beq_iff_eq] at ends
  rcases ends with ((((rfl | rfl) | rfl) | rfl) | rfl) | marked
  · cases digit
  · cases digit
  · cases digit
  · cases digit
  · cases digit
  · obtain ⟨mark, found⟩ := Option.isSome_iff_exists.mp marked
    have same : mark.character = c := by simpa using List.find?_some found
    subst same
    cases mark <;> cases digit

end Scan

namespace Scalar.Word

variable {v : Scalar}

theorem ofWord?_characters (word : Word v) : ofWord? v.characters = some v := by
  cases word with
  | null => decide
  | bool value => cases value <;> decide
  | nat value => rw [ofWord?, characters, Numeral.decimal?_toDigits]

/-- No character of a word ends a word. -/
theorem not_endsWord (word : Word v) : ∀ c ∈ v.characters, Scan.endsWord c = false := by
  have inside : v.characters.all (!Scan.endsWord ·) = true := by
    cases word with
    | null => decide
    | bool value => cases value <;> decide
    | nat value =>
      refine List.all_eq_true.mpr fun c listed => ?_
      rw [Scan.not_endsWord_of_isDigit
        (Nat.isDigit_of_mem_toDigits (by decide) (by decide) listed)]
      rfl
  intro c listed
  have here := List.all_eq_true.mp inside c listed
  rwa [Bool.not_eq_true'] at here

theorem characters_ne_nil (word : Word v) : v.characters ≠ [] := by
  cases word with
  | null => decide
  | bool value => cases value <;> decide
  | nat value => exact Nat.toDigits_ne_nil

end Scalar.Word

/-! ## Tokens -/

namespace Scan

variable {p q : Progress} {done : List Token} {read : List Char} {c : Char} {v : Scalar}

/-- Reading stands after some tokens, last one first: between two tokens, or in a word that is the
last of them. -/
inductive Stands : Progress → List Token → Prop
  | blank (done : List Token) : Stands (blank, done) done
  | word {read : List Char} {v : Scalar} (found : Scalar.ofWord? read.reverse = some v)
    (done : List Token) : Stands (word read, done) (.scalar v :: done)

/-- A character that ends a word is read like one between two tokens. -/
theorem step_of_endsWord (stands : Stands p done) (ends : endsWord c = true) :
    step p c = some (start done c) := by
  cases stands with
  | blank => rfl
  | word found done => simp [step, ends, found]

/-- A scan that stands between two tokens may end there. -/
theorem finish_of_stands (stands : Stands p done) : finish p = some done.reverse := by
  cases stands with
  | blank => rfl
  | word found done => simp [finish, found]

/-- A mark may follow any token. -/
theorem read_mark (stands : Stands p done) (mark : Mark) :
    (Token.mark mark).characters.foldlM step p = some (blank, .mark mark :: done) := by
  have marked := Mark.ofChar?_character mark
  have ends : endsWord mark.character = true := by simp [endsWord, marked]
  rw [Token.characters, List.foldlM_cons, step_of_endsWord stands ends]
  cases mark <;> rfl

/-! ### Words -/

theorem read_word_rest {word : List Char} (inside : ∀ c ∈ word, endsWord c = false) :
    word.foldlM step (.word read, done) = some (.word (word.reverse ++ read), done) := by
  induction word generalizing read with
  | nil => rfl
  | cons c word ih =>
    have here : step (.word read, done) c = some (.word (c :: read), done) := by
      simp [step, inside c List.mem_cons_self]
    rw [List.foldlM_cons, here]
    show word.foldlM step (.word (c :: read), done) = _
    rw [ih fun c listed => inside c (List.mem_cons_of_mem _ listed)]
    simp

/-- A word between two tokens is read to its end and stays open. -/
theorem read_word (done : List Token) (word : v.Word) :
    ∃ p, v.characters.foldlM step (.blank, done) = some p ∧ Stands p (.scalar v :: done) := by
  have inside := word.not_endsWord
  have found := word.ofWord?_characters
  cases written : v.characters with
  | nil => exact absurd written word.characters_ne_nil
  | cons c rest =>
    rw [written] at inside found
    have first : start done c = (.word [c], done) := by
      have here := inside c List.mem_cons_self
      simp only [endsWord, Bool.or_eq_false_iff, beq_eq_false_iff_ne, ne_eq,
        Option.isSome_eq_false_iff, Option.isNone_iff_eq_none] at here
      simp [start, here.1.1, here.1.2, here.2]
    refine ⟨(.word (rest.reverse ++ [c]), done), ?_, ?_⟩
    · rw [List.foldlM_cons]
      show rest.foldlM step (start done c) = _
      rw [first]
      exact read_word_rest fun c listed => inside c (List.mem_cons_of_mem _ listed)
    · refine .word ?_ done
      simpa using found

/-! ### Texts -/

/-- The digits of an escape are neither quotes nor backslashes. -/
theorem digit_ne : ∀ n < 16, Hex.digit n ≠ '"' ∧ Hex.digit n ≠ '\\' := by decide

/-- An escaped character does not end a text, and reading goes on after it in the text. -/
theorem read_encodeChar (c : Char) :
    (Escape.encodeChar c).foldlM step (.text read, done) =
      some (.text ((Escape.encodeChar c).reverse ++ read), done) := by
  unfold Escape.encodeChar
  split
  · -- after a backslash even a quote is part of the text
    rfl
  · rename_i plain
    rw [not_or] at plain
    split
    · rename_i control
      obtain ⟨high, high'⟩ := digit_ne (c.toNat / 16) (by omega)
      obtain ⟨low, low'⟩ := digit_ne (c.toNat % 16) (by omega)
      simp [List.foldlM_cons, step, high, high', low, low']
    · simp [List.foldlM_cons, step, plain.1, plain.2]

/-- Inside a text, an encoded text is read character by character. -/
theorem read_encode (text : List Char) :
    (Escape.encode text).foldlM step (.text read, done) =
      some (.text ((Escape.encode text).reverse ++ read), done) := by
  induction text generalizing read with
  | nil => rfl
  | cons c text ih =>
    rw [Escape.encode, List.flatMap_cons, List.foldlM_append, read_encodeChar]
    show (Escape.encode text).foldlM step _ = _
    rw [ih]
    simp [Escape.encode]

/-- A text may follow any token. -/
theorem read_text (stands : Stands p done) (text : String) :
    (Token.scalar (.text text)).characters.foldlM step p =
      some (blank, .scalar (.text text) :: done) := by
  have opened : step p '"' = some (.text [], done) := step_of_endsWord stands (by decide)
  have closed : step (.text ((Escape.encode text.toList).reverse ++ []), done) '"' =
      some (blank, .scalar (.text text) :: done) := by
    simp [step, Scalar.ofWritten?, Escape.decode?_encode]
  show List.foldlM step p ('"' :: Escape.encode text.toList ++ ['"']) = _
  rw [List.cons_append, List.foldlM_cons, opened]
  show List.foldlM step (.text [], done) (Escape.encode text.toList ++ ['"']) = _
  rw [List.foldlM_append, read_encode]
  show List.foldlM step _ ['"'] = _
  rw [List.foldlM_cons, closed]
  rfl

/-! ### Tokens in a row -/

/-- Some tokens are read one after another, and reading stands after them. -/
def Reads (p : Progress) (tokens done : List Token) : Prop :=
  ∃ q, (tokens.flatMap Token.characters).foldlM step p = some q ∧ Stands q (tokens.reverse ++ done)

namespace Reads

theorem nil (stands : Stands p done) : Reads p [] done := ⟨p, rfl, stands⟩

theorem cons {token : Token} {tokens : List Token}
    (first : token.characters.foldlM step p = some q) (rest : Reads q tokens (token :: done)) :
    Reads p (token :: tokens) done := by
  obtain ⟨r, ran, stands⟩ := rest
  refine ⟨r, ?_, ?_⟩
  · rw [List.flatMap_cons, List.foldlM_append, first]
    exact ran
  · rw [List.reverse_cons, List.append_assoc]
    exact stands

/-- What reads one list of tokens and then, from wherever that has ended, another one, reads both.
-/
theorem append {tokens more : List Token} (first : Reads p tokens done)
    (rest : ∀ q, Stands q (tokens.reverse ++ done) → Reads q more (tokens.reverse ++ done)) :
    Reads p (tokens ++ more) done := by
  obtain ⟨q, ran, stands⟩ := first
  obtain ⟨r, ran', stands'⟩ := rest q stands
  refine ⟨r, ?_, ?_⟩
  · rw [List.flatMap_append, List.foldlM_append, ran]
    exact ran'
  · rw [List.reverse_append, List.append_assoc]
    exact stands'

end Reads

end Scan

/-! ## Values -/

/-- A value whose scalars are null, truth values, natural numbers and texts. -/
inductive Plain : Json → Prop
  | word {v : Scalar} (word : v.Word) : Plain (.scalar v)
  | text (text : String) : Plain (.scalar (.text text))
  | array {items : List Json} (each : ∀ item ∈ items, Plain item) : Plain (.array items)
  | object {entries : List (String × Json)} (each : ∀ entry ∈ entries, Plain entry.2) :
    Plain (.object entries)

namespace Plain

theorem items {list : List Json} (plain : Plain (.array list)) : ∀ item ∈ list, Plain item := by
  cases plain with
  | array each => exact each

theorem entries {list : List (String × Json)} (plain : Plain (.object list)) :
    ∀ entry ∈ list, Plain entry.2 := by
  cases plain with
  | object each => exact each

end Plain

section Builders

@[simp] theorem plain_ofNat (n : Nat) : (ofNat n).Plain := .word (.nat n)

@[simp] theorem plain_ofBool (b : Bool) : (ofBool b).Plain := .word (.bool b)

@[simp] theorem plain_ofText (text : String) : (ofText text).Plain := .text text

@[simp] theorem plain_ofList {α : Type} {write : α → Json} (each : ∀ a, (write a).Plain)
    (xs : List α) : (ofList write xs).Plain := by
  refine .array ?_
  intro item listed
  obtain ⟨a, -, rfl⟩ := List.mem_map.mp listed
  exact each a

theorem plain_record {names : List String} {values : List Json}
    (each : ∀ value ∈ values, Plain value) : (record names values).Plain := by
  refine .object ?_
  intro entry listed
  exact each entry.2 (List.of_mem_zip listed).2

end Builders

open Scan

mutual

/-- A value is read between two tokens. The induction is on the value and leaves its last word
open, which the mark after it closes. -/
theorem reads_tokens (done : List Token) (json : Json) (plain : json.Plain) :
    Reads (.blank, done) json.tokens done := by
  match json with
  | .scalar v =>
    cases plain with
    | word word =>
      obtain ⟨q, ran, stands⟩ := read_word done word
      exact .cons ran (.nil stands)
    | text text => exact .cons (read_text (.blank done) text) (.nil (.blank _))
  | .array [] =>
    exact .cons (read_mark (.blank done) _) (.cons (read_mark (.blank _) _) (.nil (.blank _)))
  | .array (item :: items) =>
    have each := plain.items
    refine .cons (read_mark (.blank done) .openArray) (.append ?_ ?_)
    · exact reads_tokens _ item (each item List.mem_cons_self)
    · intro q stands
      exact reads_itemTokens stands items fun item listed =>
        each item (List.mem_cons_of_mem _ listed)
  | .object [] =>
    exact .cons (read_mark (.blank done) _) (.cons (read_mark (.blank _) _) (.nil (.blank _)))
  | .object ((name, head) :: entries) =>
    have each := plain.entries
    refine .cons (read_mark (.blank done) .openObject) (.cons (read_text (.blank _) name) ?_)
    refine .cons (read_mark (.blank _) .colon) (.append ?_ ?_)
    · exact reads_tokens _ head (each (name, head) List.mem_cons_self)
    · intro q stands
      exact reads_entryTokens stands entries fun entry listed =>
        each entry (List.mem_cons_of_mem _ listed)

theorem reads_itemTokens {p : Progress} {done : List Token} (stands : Stands p done)
    (items : List Json) (plain : ∀ item ∈ items, Plain item) :
    Reads p (itemTokens items) done := by
  match items with
  | [] => exact .cons (read_mark stands _) (.nil (.blank _))
  | item :: items =>
    refine .cons (read_mark stands .comma) (.append ?_ ?_)
    · exact reads_tokens _ item (plain item List.mem_cons_self)
    · intro q stands
      exact reads_itemTokens stands items fun item listed =>
        plain item (List.mem_cons_of_mem _ listed)

theorem reads_entryTokens {p : Progress} {done : List Token} (stands : Stands p done)
    (entries : List (String × Json)) (plain : ∀ entry ∈ entries, Plain entry.2) :
    Reads p (entryTokens entries) done := by
  match entries with
  | [] => exact .cons (read_mark stands _) (.nil (.blank _))
  | (key, value) :: entries =>
    refine .cons (read_mark stands .comma) (.cons (read_text (.blank _) key) ?_)
    refine .cons (read_mark (.blank _) .colon) (.append ?_ ?_)
    · exact reads_tokens _ value (plain (key, value) List.mem_cons_self)
    · intro q stands
      exact reads_entryTokens stands entries fun entry listed =>
        plain entry (List.mem_cons_of_mem _ listed)

end

/-- The tokens of a value are found in its text. -/
theorem scan?_tokens {json : Json} (plain : json.Plain) :
    Token.scan? (json.tokens.flatMap Token.characters) = some json.tokens := by
  obtain ⟨q, ran, stands⟩ := reads_tokens [] json plain
  rw [List.append_nil] at stands
  rw [Token.scan?, ran]
  show Scan.finish q = _
  rw [finish_of_stands stands, List.reverse_reverse]

/-- **Text is read back.** -/
theorem parse?_render {json : Json} (plain : json.Plain) : parse? json.render = some json := by
  rw [parse?, render, String.toList_ofList, scan?_tokens plain]
  exact ofTokens?_tokens json

end BeaconEpoch.Json
