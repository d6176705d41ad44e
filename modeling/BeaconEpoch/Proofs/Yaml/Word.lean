import BeaconEpoch.Yaml.Kind
import BeaconEpoch.Yaml.Plain

/-!
# Words

Texts that can be written without quotes, because nothing in them is a gap or a sign.

## Main definitions

* `isWordChar`, `IsWord`: characters that mean nothing but themselves, and texts of them.

## Main statements

* `Plain.readIn_word`, `Plain.starts_word`: a word is read as a plain scalar.
* `isWordChar_of_isNameChar`, `isWord_toString`: letters, digits, hyphens and underscores make
  words, and so do decimal numerals.
* `numeral?_toDigits`, `not_isWide_toDigits`: a numeral is read as its number, and that of a machine
  word is not too wide for one.

## Design notes

* **More texts than words can be written without quotes.** Signs are excluded wherever they stand,
  although most of them mean something only at the start of a scalar or next to a gap. Hyphens and
  points are not excluded: as signs they need a gap, and there is none in a word.
-/

namespace BeaconEpoch.Yaml

/-! ## Words -/

/-- Whether a character means nothing but itself wherever it stands. A hyphen does not count as a
sign here: it means something only if a gap follows it. -/
def isWordChar (c : Char) : Bool :=
  isPrintable c && !isBlank c && !isBreak c &&
    !(Plain.startSigns ++ ['?', ':', '\ufeff']).contains c

/-- A text without gaps and signs. -/
structure IsWord (text : List Char) : Prop where
  ne_nil : text ≠ []
  inside : ∀ c ∈ text, isWordChar c = true

/-- Letters, digits, hyphens and underscores mean nothing but themselves. -/
theorem isWordChar_of_isNameChar {c : Char} (named : isNameChar c = true) :
    isWordChar c = true := by
  have range : 0x20 ≤ c.toNat ∧ c.toNat ≤ 0x7e := by
    have ranges : (decide ('A'.val ≤ c.val ∧ c.val ≤ 'Z'.val) ||
        ('a'.val ≤ c.val && c.val ≤ 'z'.val) || ('0'.val ≤ c.val && c.val ≤ '9'.val) ||
        c == '-' || c == '_') = true := named
    simp only [Bool.or_eq_true, Bool.and_eq_true, decide_eq_true_eq, beq_iff_eq,
      UInt32.le_iff_toNat_le] at ranges
    show 0x20 ≤ c.val.toNat ∧ c.val.toNat ≤ 0x7e
    rcases ranges with (((upper | lower) | digit) | rfl) | rfl
    · exact ⟨Nat.le_trans (by decide) upper.1, Nat.le_trans upper.2 (by decide)⟩
    · exact ⟨Nat.le_trans (by decide) lower.1, Nat.le_trans lower.2 (by decide)⟩
    · exact ⟨Nat.le_trans (by decide) digit.1, Nat.le_trans digit.2 (by decide)⟩
    · decide
    · decide
  have other {sign : Char} (unnamed : isNameChar sign = false) : c ≠ sign := by
    rintro rfl
    rw [named] at unnamed
    cases unnamed
  simp only [isWordChar, isPrintable, range, isBlank, isBreak, Plain.startSigns, Plain.bracketSigns]
  simp
  and_intros <;> exact other rfl

theorem IsWord.of_isNameChar {text : List Char} (filled : text ≠ [])
    (named : ∀ c ∈ text, isNameChar c = true) : IsWord text :=
  ⟨filled, fun c listed => isWordChar_of_isNameChar (named c listed)⟩

theorem IsWord.of_all {text : List Char} (filled : text ≠ [])
    (named : text.all isNameChar = true) : IsWord text :=
  .of_isNameChar filled (List.all_eq_true.mp named)

section Characters

variable {c : Char} (inWord : isWordChar c = true)

include inWord

theorem isPrintable_of_isWordChar : isPrintable c = true := by
  simp only [isWordChar, Bool.and_eq_true] at inWord
  exact inWord.1.1.1

theorem not_isBlank_of_isWordChar : isBlank c = false := by
  simp only [isWordChar, Bool.and_eq_true, Bool.not_eq_true'] at inWord
  exact inWord.1.1.2

theorem not_isBreak_of_isWordChar : isBreak c = false := by
  simp only [isWordChar, Bool.and_eq_true, Bool.not_eq_true'] at inWord
  exact inWord.1.2

/-- A character of a word is none of those that no word has. -/
theorem ne_of_isWordChar (sign : Char) (other : isWordChar sign = false) : c ≠ sign := by
  rintro rfl
  rw [inWord] at other
  cases other

theorem not_mem_startSigns_of_isWordChar : c ∉ Plain.startSigns := by
  simp only [isWordChar, Bool.and_eq_true, Bool.not_eq_true', List.contains_eq_mem,
    decide_eq_false_iff_not, List.mem_append, not_or] at inWord
  exact inWord.2.1

/-- In front of a character of a word there is no gap. -/
theorem not_atGap_of_isWordChar (rest : List Char) : atGap (c :: rest) = false := by
  simp [atGap, not_isBlank_of_isWordChar inWord, not_isBreak_of_isWordChar inWord]

end Characters

namespace Plain

variable {indent : Nat}

/-- The characters of a word are read one by one. -/
theorem readIn_word {text : List Char} (inside : ∀ c ∈ text, isWordChar c = true)
    (after : List Char) :
    readIn false indent {} (text ++ after) =
      (readIn false indent {} after).map fun (more, isBroken, rest) =>
        (text ++ more, isBroken, rest) := by
  induction text with
  | nil => simp
  | cons c text ih =>
    have inWord := inside c List.mem_cons_self
    have colon := ne_of_isWordChar inWord ':' rfl
    have tab := ne_of_isWordChar inWord '\t' rfl
    have clash : clashes false (c :: (text ++ after)) = false := by
      unfold clashes
      split <;> rfl
    rw [List.cons_append, readIn, ih fun d listed => inside d (List.mem_cons_of_mem _ listed)]
    simp [tab, not_isBlank_of_isWordChar inWord, not_isBreak_of_isWordChar inWord, Gap.isEmpty,
      clash, endsWord, colon, Gap.text, Function.comp_def]

/-- A colon in front of a blank ends a word. -/
theorem readIn_colon (rest : List Char) :
    readIn false indent {} (':' :: ' ' :: rest) = some ([], false, ':' :: ' ' :: rest) := rfl

/-- The end of a line ends a word, if the next line is not as deep as it would have to be. -/
theorem readIn_break (deep : 0 < indent) {next : List Char}
    (starts : next.head?.all isWordChar = true) :
    readIn false indent {} ('\n' :: next) = some ([], true, next) := by
  show readIn false indent { breaks := ['\n'] } next = _
  cases next with
  | nil => rfl
  | cons c next =>
    have inWord : isWordChar c = true := by simpa using starts
    have tab := ne_of_isWordChar inWord '\t' rfl
    rw [readIn]
    simp [tab, not_isBlank_of_isWordChar inWord, not_isBreak_of_isWordChar inWord, Gap.isEmpty,
      Gap.isBroken, endsAfter, deep]

/-- A plain scalar starts with a word, unless the word is a hyphen in front of a gap. -/
theorem starts_word {text after : List Char} (word : IsWord text)
    (touched : text = ['-'] → atGap after = false) : starts false (text ++ after) = true := by
  obtain ⟨c, rest, rfl⟩ := List.exists_cons_of_ne_nil word.ne_nil
  have inWord := word.inside c List.mem_cons_self
  rw [List.cons_append, starts]
  split
  · rename_i hyphen
    obtain rfl : c = '-' := by simpa using hyphen
    cases rest with
    | nil => simp [touched rfl]
    | cons d rest => simp [not_atGap_of_isWordChar (word.inside d (by simp))]
  · simp [ne_of_isWordChar inWord '?' rfl, ne_of_isWordChar inWord ':' rfl,
      not_isBlank_of_isWordChar inWord, not_isBreak_of_isWordChar inWord,
      not_mem_startSigns_of_isWordChar inWord]

end Plain

/-! ## Numerals -/

/-- What is no digit stands in no decimal numeral. -/
theorem not_mem_toDigits {n : Nat} {c : Char} (other : c.isDigit = false) :
    c ∉ Nat.toDigits 10 n := by
  intro listed
  rw [Nat.isDigit_of_mem_toDigits (by decide) (by decide) listed] at other
  cases other

theorem isNameChar_of_isDigit {c : Char} (digit : c.isDigit = true) : isNameChar c = true := by
  rw [isNameChar, Char.isAlphanum, digit, Bool.or_true, Bool.true_or, Bool.true_or]

theorem isWord_toString (n : Nat) : IsWord (toString n).toList := by
  show IsWord (Nat.repr n).toList
  rw [Nat.toList_repr]
  refine .of_isNameChar Nat.toDigits_ne_nil fun c listed => ?_
  exact isNameChar_of_isDigit (Nat.isDigit_of_mem_toDigits (by decide) (by decide) listed)

theorem toString_ne_hyphen (n : Nat) : toString n ≠ "-" := by
  intro same
  refine not_mem_toDigits (n := n) (c := '-') rfl ?_
  rw [← Nat.toList_repr]
  show '-' ∈ (toString n).toList
  rw [same]
  decide

/-- A decimal numeral has neither a sign nor a base in front. -/
theorem numeral?_toDigits (n : Nat) : numeral? (Nat.toDigits 10 n) = some n := by
  unfold numeral?
  split
  · rename_i same
    exact absurd (by simp [same]) (not_mem_toDigits (n := n) (c := '+') rfl)
  · unfold magnitude?
    split
    · rename_i same
      exact absurd (by simp [same]) (not_mem_toDigits (n := n) (c := 'x') rfl)
    · rename_i same
      exact absurd (by simp [same]) (not_mem_toDigits (n := n) (c := 'o') rfl)
    · rename_i same
      exact absurd (by simp [same]) (not_mem_toDigits (n := n) (c := 'b') rfl)
    · exact Numeral.decimal?_toDigits n

/-- No word of the machine is too wide for one. -/
theorem not_isWide_toDigits (w : UInt64) : isWide (Nat.toDigits 10 w.toNat) = false := by
  unfold isWide
  split
  · rename_i same
    exact absurd (by simp [same]) (not_mem_toDigits (n := w.toNat) (c := '-') rfl)
  · have small : w.toNat < 2 ^ 64 := w.toNat_lt
    rw [numeral?_toDigits]
    simp only [Option.any_some, Bool.and_eq_false_iff, decide_eq_false_iff_not]
    exact .inl (by omega)

end BeaconEpoch.Yaml
