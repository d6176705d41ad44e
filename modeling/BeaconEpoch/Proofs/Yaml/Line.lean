import BeaconEpoch.Proofs.Yaml.Word
import BeaconEpoch.Yaml.Layout

/-!
# Lines of a block mapping

A line `key: value` of words is read in three steps, and a text of such lines becomes the tokens of
a block mapping.

## Main definitions

* `lineCharacters`, `lineTokens`, `mappingTokens`: an entry as text, and what it is read as.
* `IsLine`, `AreShort`: entries of words, and keys that are not too long.
* `Layout.atLine`, `Layout.atColon`, `Layout.atValue`: where reading stands at the start of a line,
  behind its key, and behind its colon.

## Main statements

* `Layout.step_key`, `Layout.step_colon`, `Layout.step_value`: the three steps.
* `Layout.readIn_line`, `Layout.readIn_lines`: one line, and all lines, by induction on the entries.
* `Token.ofText?_lines`: the tokens of a text of lines.
* `Layout.step_colon_long`, `Token.ofText?_lines_long`: with a key of more than 1024 characters
  there are none.

## Design notes

* **Where reading stands determines what comes.** Nothing is pending at the start of a line: the
  only thing that one line leaves to the next is that the block is open. So the induction on the
  lines needs no more than that and the column.
* **The first line is different.** Its colon opens the block, so its key is not required to be one,
  and the token of the mapping stands in front of it.
-/

namespace BeaconEpoch.Yaml

/-! ## Places -/

namespace Position

theorem past_append (position : Position) (text more : List Char) :
    position.past (text ++ more) = (position.past text).past more :=
  List.foldl_append

/-- Reading goes on along the line over the characters of a word. -/
theorem past_word {text : List Char} (inside : ∀ c ∈ text, isWordChar c = true)
    (position : Position) :
    position.past text = { position with
      index := position.index + text.length
      column := position.column + text.length } := by
  induction text generalizing position with
  | nil => rfl
  | cons c text ih =>
    have here := not_isBreak_of_isWordChar (inside c List.mem_cons_self)
    show (position.next c).past text = _
    rw [ih fun d listed => inside d (List.mem_cons_of_mem _ listed)]
    simp [next, here, Nat.add_comm, Nat.add_left_comm]

end Position

/-! ## Lines -/

namespace Layout

variable {layout : Layout}

theorem moveTo_append {passed rest : List Char} (split : layout.rest = passed ++ rest) :
    layout.moveTo rest = { layout with rest, position := layout.position.past passed } := by
  have taken : layout.rest.take (layout.rest.length - rest.length) = passed := by
    rw [split, List.length_append, Nat.add_sub_cancel, List.take_left]
  rw [moveTo, taken]

theorem skip_one {c : Char} {rest : List Char} (split : layout.rest = c :: rest) :
    layout.skip 1 = { layout with rest, position := layout.position.past [c] } := by
  rw [skip, split]
  exact moveTo_append split

/-- A gap in which no key may begin that could not begin before is only passed over. -/
theorem skipGap_of_gapIn (passed : List Char) {rest : List Char}
    (split : layout.rest = passed ++ rest)
    (gap : gapIn layout.inBrackets (layout.position.column == 0) layout.mayStartKey false
      layout.rest = (rest, layout.mayStartKey)) :
    layout.skipGap = { layout with rest, position := layout.position.past passed } := by
  rw [skipGap, gap]
  show { layout.moveTo rest with mayStartKey := layout.mayStartKey } = _
  rw [moveTo_append split]

/-- In front of a word there is no gap. -/
theorem gapIn_word {text : List Char} (word : IsWord text) (after : List Char)
    (inBrackets atStart mayStartKey : Bool) :
    gapIn inBrackets atStart mayStartKey false (text ++ after) = (text ++ after, mayStartKey) := by
  obtain ⟨c, rest, rfl⟩ := List.exists_cons_of_ne_nil word.ne_nil
  have inWord := word.inside c List.mem_cons_self
  simp [gapIn, not_isBreak_of_isWordChar inWord, ne_of_isWordChar inWord '#' rfl,
    ne_of_isWordChar inWord ' ' rfl, ne_of_isWordChar inWord '\t' rfl,
    ne_of_isWordChar inWord '\ufeff' rfl]

/-- No block that starts with its line is closed at a place of its line. -/
theorem closeBlocks_some (flat : ∀ block ∈ layout.blocks, block = 0) (column : Nat) :
    layout.closeBlocks (some column) = layout := by
  have kept : layout.blocks.takeWhile (fun block => decide (column < block)) = [] := by
    cases blocks : layout.blocks with
    | nil => rfl
    | cons block rest =>
      obtain rfl := flat block (by simp [blocks])
      rfl
  rw [closeBlocks]
  split
  · rfl
  · simp [kept]

/-- Outside of brackets, where nothing is pending, a word is read as a plain scalar. -/
theorem step_word {text : List Char} (word : IsWord text) (after : List Char)
    (split : layout.rest = text ++ after)
    (touched : text = ['-'] → atGap after = false)
    (unmarked : layout.position.column = 0 →
      atMarker '-' layout.rest = false ∧ atMarker '.' layout.rest = false)
    (settled : layout.candidate = none) (outside : layout.outer = [])
    (flat : ∀ block ∈ layout.blocks, block = 0) : layout.step? = layout.plain? := by
  have kept : layout.keepCandidates? = some layout := by
    simp [keepCandidates?, Candidate.keep?, settled, outside]
    cases layout
    simp_all
  have brackets : layout.inBrackets = false := by simp [inBrackets, outside]
  have starts : Plain.starts false layout.rest = true := split ▸ Plain.starts_word word touched
  obtain ⟨c, rest, rfl⟩ := List.exists_cons_of_ne_nil word.ne_nil
  have inWord := word.inside c List.mem_cons_self
  rw [List.cons_append] at split
  have item : (c == '-' && atGap (rest ++ after)) = false := by
    rw [split, Plain.starts] at starts
    split at starts <;> simp_all
  rw [step?, kept]
  simp only [bind, Option.bind_some, closeBlocks_some flat]
  rw [split] at unmarked starts ⊢
  by_cases start : layout.position.column = 0
  · simp [start, unmarked start, item, starts, brackets, ne_of_isWordChar inWord '%' rfl,
      ne_of_isWordChar inWord '?' rfl, ne_of_isWordChar inWord ':' rfl]
  · simp [start, item, starts, brackets, ne_of_isWordChar inWord '?' rfl,
      ne_of_isWordChar inWord ':' rfl]

/-- A plain scalar becomes a token once it is clear whether a key may begin with it. -/
theorem plain?_of_read {saved : Layout} {text rest : List Char} {isBroken : Bool}
    (passed : List Char) (save : layout.saveCandidate? = some saved)
    (split : saved.rest = passed ++ rest)
    (read : Plain.read? saved.inBrackets saved.indent saved.rest = some (text, isBroken, rest)) :
    layout.plain? = some { saved with
      rest
      position := saved.position.past passed
      tokens := .scalar .plain (String.ofList text) :: saved.tokens
      mayStartKey := isBroken } := by
  rw [plain?, save]
  simp only [bind, Option.bind_some, read, pure]
  have moved : (saved.push (.scalar .plain (String.ofList text))).moveTo rest = _ :=
    moveTo_append split
  rw [moved]
  rfl

/-! ### Keys and values -/

/-- The layout at the start of a line outside of brackets, where nothing is pending. The block of
the mapping is open unless this is the first line. -/
def atLine (isOpen : Bool) (position : Position) (tokens : List Token) (rest : List Char) :
    Layout :=
  { rest, position, tokens, blocks := if isOpen then [0] else [] }

/-- The layout at the colon behind a key. -/
def atColon (isOpen : Bool) (position : Position) (tokens : List Token) (key rest : List Char) :
    Layout :=
  { rest
    position := position.past key
    tokens := .scalar .plain (String.ofList key) :: tokens
    blocks := if isOpen then [0] else []
    candidate := some { tokens := tokens.length, position, isRequired := isOpen }
    mayStartKey := false }

/-- The layout behind the colon. -/
def atValue (position : Position) (tokens : List Token) (rest : List Char) : Layout :=
  { rest, position, tokens := .value :: tokens, blocks := [0], mayStartKey := false }

/-- No key is a marker, since its colon touches it. -/
theorem not_atMarker_key {key : List Char} (word : IsWord key) {sign : Char} (noColon : sign ≠ ':')
    (rest : List Char) : atMarker sign (key ++ ':' :: rest) = false := by
  have colon : ':' ≠ sign := noColon.symm
  match key, word with
  | [], word => exact absurd rfl word.ne_nil
  | [_], _ => cases rest <;> simp [atMarker, colon]
  | [_, _], _ => simp [atMarker, colon]
  | [_, _, _], _ => simp [atMarker, atGap, isBlank, isBreak]
  | _ :: _ :: _ :: d :: key, word =>
    have inWord := word.inside d (by simp)
    simp [atMarker, not_atGap_of_isWordChar inWord]

section Step

variable {isOpen : Bool} {position : Position} {tokens : List Token} {key value rest : List Char}

/-- A key is read up to its colon, and remembered as one that may begin there. -/
theorem step_key (word : IsWord key) (start : position.column = 0) :
    (atLine isOpen position tokens (key ++ ':' :: ' ' :: rest)).skipGap.step? =
      some (atColon isOpen position tokens key (':' :: ' ' :: rest)) := by
  have stays : (atLine isOpen position tokens (key ++ ':' :: ' ' :: rest)).skipGap =
      atLine isOpen position tokens (key ++ ':' :: ' ' :: rest) :=
    skipGap_of_gapIn [] rfl (gapIn_word word ..)
  have save : (atLine isOpen position tokens (key ++ ':' :: ' ' :: rest)).saveCandidate? =
      some { atLine isOpen position tokens (key ++ ':' :: ' ' :: rest) with
        candidate := some { tokens := tokens.length, position, isRequired := isOpen } } := by
    cases isOpen
    · rfl
    · simp [saveCandidate?, atLine, dropCandidate?, Candidate.drop?, inBrackets, start]
  have read (indent : Nat) : Plain.read? false indent (key ++ ':' :: ' ' :: rest) =
      some (key, false, ':' :: ' ' :: rest) := by
    rw [Plain.read?, Plain.readIn_word word.inside, Plain.readIn_colon]
    simp
  rw [stays, step_word word (':' :: ' ' :: rest) rfl (fun _ => rfl)
    (fun _ => ⟨not_atMarker_key word (by decide) _, not_atMarker_key word (by decide) _⟩) rfl rfl
    (by cases isOpen <;> simp [atLine]), plain?_of_read key save rfl (read _)]
  rfl

/-- A colon in front of a blank is read as the sign of a value, once it is clear whether what may be
a key still may be one. -/
theorem step_atColon {layout kept : Layout} (keep : layout.keepCandidates? = some kept)
    (sign : kept.rest = ':' :: ' ' :: rest) (flat : ∀ block ∈ kept.blocks, block = 0) :
    layout.step? = kept.value? := by
  rw [step?, keep]
  simp only [bind, Option.bind_some, closeBlocks_some flat]
  simp [sign, atMarker, atGap, isBlank]

theorem skipGap_atColon :
    (atColon isOpen position tokens key (':' :: rest)).skipGap =
      atColon isOpen position tokens key (':' :: rest) :=
  skipGap_of_gapIn [] rfl rfl

/-- The colon of a key that is short enough shows that it was one. -/
theorem step_colon (short : key.length ≤ Candidate.maxLength)
    (inside : ∀ c ∈ key, isWordChar c = true) (start : position.column = 0) :
    (atColon isOpen position tokens key (':' :: ' ' :: rest)).skipGap.step? =
      some (atValue ((position.past key).past [':'])
        (.scalar .plain (String.ofList key) :: .key ::
          if isOpen then tokens else .mappingBlock :: tokens) (' ' :: rest)) := by
  have kept : (atColon isOpen position tokens key (':' :: ' ' :: rest)).keepCandidates? =
      some (atColon isOpen position tokens key (':' :: ' ' :: rest)) := by
    have near : ¬position.index + Candidate.maxLength < position.index + key.length := by omega
    simp [keepCandidates?, Candidate.keep?, atColon, Candidate.isPassed,
      Position.past_word inside, near]
  have shown : (atColon isOpen position tokens key (':' :: ' ' :: rest)).insertKey
        { tokens := tokens.length, position, isRequired := isOpen } =
      { atColon isOpen position tokens key (':' :: ' ' :: rest) with
        tokens := .scalar .plain (String.ofList key) :: .key ::
          if isOpen then tokens else .mappingBlock :: tokens
        blocks := [0] } := by
    cases isOpen <;> simp [insertKey, atColon, startsBlock, inBrackets, start]
  rw [skipGap_atColon, step_atColon kept rfl (by cases isOpen <;> simp [atColon]), value?]
  show some { (((atColon isOpen position tokens key (':' :: ' ' :: rest)).insertKey
    { tokens := tokens.length, position, isRequired := isOpen }).push .value).skip 1 with
      candidate := none, mayStartKey := false } = _
  rw [shown, skip_one rfl]
  rfl

/-- The colon of a key that is too long is out of place. -/
theorem step_colon_long (long : Candidate.maxLength < key.length)
    (inside : ∀ c ∈ key, isWordChar c = true) :
    (atColon isOpen position tokens key (':' :: ' ' :: rest)).skipGap.step? = none := by
  have far : position.index + Candidate.maxLength < position.index + key.length := by omega
  rw [skipGap_atColon]
  -- On the first line the key is given up, so the colon has none. On the others a key is required
  -- and cannot be given up.
  cases isOpen with
  | true =>
    have stuck :
        (atColon true position tokens key (':' :: ' ' :: rest)).keepCandidates? = none := by
      simp [keepCandidates?, Candidate.keep?, Candidate.drop?, atColon, Candidate.isPassed,
        Position.past_word inside, far]
    rw [step?, stuck]
    rfl
  | false =>
    have dropped : (atColon false position tokens key (':' :: ' ' :: rest)).keepCandidates? =
        some { atColon false position tokens key (':' :: ' ' :: rest) with candidate := none } := by
      simp [keepCandidates?, Candidate.keep?, Candidate.drop?, atColon, Candidate.isPassed,
        Position.past_word inside, far]
    rw [step_atColon dropped rfl (by simp [atColon])]
    rfl

/-- A value is read to the end of its line. -/
theorem step_value (word : IsWord value) (noItem : value ≠ ['-']) {next : List Char}
    (starts : next.head?.all isWordChar = true) :
    (atValue position tokens (' ' :: (value ++ '\n' :: next))).skipGap.step? =
      some (atLine true (position.past (' ' :: (value ++ ['\n'])))
        (.scalar .plain (String.ofList value) :: .value :: tokens) next) := by
  have gap : (atValue position tokens (' ' :: (value ++ '\n' :: next))).skipGap =
      atValue (position.past [' ']) tokens (value ++ '\n' :: next) := by
    refine skipGap_of_gapIn [' '] rfl ?_
    exact gapIn_word word ..
  have read : Plain.read? false 1 (value ++ '\n' :: next) = some (value, true, next) := by
    rw [Plain.read?, Plain.readIn_word word.inside, Plain.readIn_break (by decide) starts]
    simp
  have save : (atValue (position.past [' ']) tokens (value ++ '\n' :: next)).saveCandidate? =
      some (atValue (position.past [' ']) tokens (value ++ '\n' :: next)) := rfl
  rw [gap, step_word word ('\n' :: next) rfl (absurd · noItem)
    (by simp [atValue, Position.past, Position.next, isBreak]) rfl rfl (by simp [atValue]),
    plain?_of_read (value ++ ['\n']) save (by simp [atValue]) read]
  rfl

end Step

end Layout

/-! ## Entries -/

/-- The characters of the line of an entry. -/
def lineCharacters (entry : String × String) : List Char :=
  entry.1.toList ++ ':' :: ' ' :: (entry.2.toList ++ ['\n'])

/-- The tokens of the line of an entry. -/
def lineTokens (entry : String × String) : List Token :=
  [.key, .scalar .plain entry.1, .value, .scalar .plain entry.2]

/-- The tokens of a block mapping of some entries. -/
def mappingTokens (entries : List (String × String)) : List Token :=
  .mappingBlock :: entries.flatMap lineTokens ++ [.blockEnd]

/-- An entry whose key and value are words. A hyphen alone is no value, since the end of its line
makes a sign of it. -/
structure IsLine (entry : String × String) : Prop where
  key : IsWord entry.1.toList
  value : IsWord entry.2.toList
  noItem : entry.2 ≠ "-"

/-- The keys of some entries are short enough to be told from other text. -/
def AreShort (entries : List (String × String)) : Prop :=
  ∀ entry ∈ entries, entry.1.length ≤ Candidate.maxLength

/-- There are enough characters for the steps that their lines take. -/
theorem three_mul_length_le (entries : List (String × String)) :
    3 * entries.length ≤ (entries.flatMap lineCharacters).length := by
  induction entries with
  | nil => exact Nat.le_refl 0
  | cons entry entries ih =>
    have line : 3 ≤ (lineCharacters entry).length := by
      simp [lineCharacters]
      omega
    rw [List.flatMap_cons, List.length_append, List.length_cons]
    omega

theorem length_flatMap_lineTokens (entries : List (String × String)) :
    (entries.flatMap lineTokens).length = 4 * entries.length := by
  induction entries with
  | nil => rfl
  | cons entry entries ih =>
    rw [List.flatMap_cons, List.length_append, ih, List.length_cons, lineTokens]
    simp only [List.length_cons, List.length_nil]
    omega

theorem head?_lines {entries : List (String × String)} (lines : ∀ entry ∈ entries, IsLine entry) :
    (entries.flatMap lineCharacters).head?.all isWordChar = true := by
  cases entries with
  | nil => rfl
  | cons entry entries =>
    have word := (lines entry List.mem_cons_self).key
    obtain ⟨c, rest, split⟩ := List.exists_cons_of_ne_nil word.ne_nil
    simpa [lineCharacters, split] using word.inside c (by simp [split])

namespace Layout

variable {isOpen : Bool} {position : Position} {tokens : List Token} {entry : String × String}
  {next : List Char} {steps : Nat}

/-- Behind the line of an entry a new line starts. -/
theorem column_past_line (position : Position) (entry : String × String) :
    (position.past (lineCharacters entry)).column = 0 := by
  have split : lineCharacters entry =
      (entry.1.toList ++ ':' :: ' ' :: entry.2.toList) ++ ['\n'] := by
    simp [lineCharacters]
  rw [split, Position.past_append]
  rfl

/-- Where a token is read, the text goes on. -/
theorem rest_ne_nil_of_step {layout next : Layout} (token : layout.step? = some next) :
    layout.rest ≠ [] := by
  intro atEnd
  rw [step?] at token
  obtain ⟨kept, keeps, token⟩ := Option.bind_eq_some_iff.mp token
  obtain ⟨candidate, -, keeps⟩ := Option.bind_eq_some_iff.mp keeps
  obtain ⟨outer, -, keeps⟩ := Option.bind_eq_some_iff.mp keeps
  obtain rfl := Option.some.inj keeps
  have same (kept : Layout) (column : Option Nat) :
      (kept.closeBlocks column).rest = kept.rest := by
    rw [closeBlocks]
    split <;> rfl
  simp only [same, atEnd] at token
  cases token

theorem readIn_succ {layout next : Layout} (steps : Nat)
    (token : layout.skipGap.step? = some next) :
    readIn (steps + 1) layout = readIn steps next := by
  rw [readIn]
  simp only [List.isEmpty_iff, rest_ne_nil_of_step token, if_false, token, Option.bind_some]

theorem readIn_atEnd {layout : Layout} (atEnd : layout.skipGap.rest = []) :
    readIn steps layout = layout.skipGap.finish? := by
  cases steps <;> simp [readIn, atEnd]

theorem readIn_eq_none {layout : Layout} (more : layout.skipGap.rest ≠ [])
    (stuck : steps = 0 ∨ layout.skipGap.step? = none) : readIn steps layout = none := by
  cases steps with
  | zero => simp [readIn, more]
  | succ steps => simp [readIn, more, stuck.resolve_left]

/-- The line of an entry is read in three steps. -/
theorem readIn_line (line : IsLine entry) (short : entry.1.length ≤ Candidate.maxLength)
    (start : position.column = 0) (starts : next.head?.all isWordChar = true) :
    readIn (steps + 3) (atLine isOpen position tokens (lineCharacters entry ++ next)) =
      readIn steps (atLine true (position.past (lineCharacters entry))
        ((lineTokens entry).reverse ++ if isOpen then tokens else .mappingBlock :: tokens)
        next) := by
  have text : lineCharacters entry ++ next =
      entry.1.toList ++ ':' :: ' ' :: (entry.2.toList ++ '\n' :: next) := by
    simp [lineCharacters]
  have noItem : entry.2.toList ≠ ['-'] := fun same => line.noItem (String.toList_inj.mp same)
  rw [← String.length_toList] at short
  rw [text, readIn_succ _ (step_key line.key start),
    readIn_succ _ (step_colon short line.key.inside start),
    readIn_succ _ (step_value line.value noItem starts)]
  simp only [lineCharacters, Position.past_append, String.ofList_toList]
  rfl

/-- A line with too long a key is not read. -/
theorem readIn_line_long (line : IsLine entry) (long : Candidate.maxLength < entry.1.length)
    (start : position.column = 0) :
    readIn steps (atLine isOpen position tokens (lineCharacters entry ++ next)) = none := by
  have text : lineCharacters entry ++ next =
      entry.1.toList ++ ':' :: ' ' :: (entry.2.toList ++ '\n' :: next) := by
    simp [lineCharacters]
  rw [← String.length_toList] at long
  rw [text]
  have key : (atLine isOpen position tokens
      (entry.1.toList ++ ':' :: ' ' :: (entry.2.toList ++ '\n' :: next))).skipGap.step? = some _ :=
    step_key line.key start
  cases steps with
  | zero => exact readIn_eq_none (rest_ne_nil_of_step key) (.inl rfl)
  | succ steps =>
    rw [readIn_succ _ key]
    refine readIn_eq_none ?_ (.inr (step_colon_long long line.key.inside))
    rw [skipGap_atColon]
    exact List.cons_ne_nil _ _

/-- The lines of some entries are read one by one. -/
theorem readIn_lines {entries : List (String × String)} (lines : ∀ entry ∈ entries, IsLine entry)
    (short : AreShort entries) (start : position.column = 0) (enough : 3 * entries.length ≤ steps) :
    readIn steps (atLine true position tokens (entries.flatMap lineCharacters)) =
      some (tokens.reverse ++ entries.flatMap lineTokens ++ [.blockEnd]) := by
  induction entries generalizing steps position tokens with
  | nil =>
    have stays : (atLine true position tokens []).skipGap = atLine true position tokens [] :=
      skipGap_of_gapIn [] rfl rfl
    show readIn steps (atLine true position tokens []) = _
    rw [readIn_atEnd (stays ▸ rfl), stays]
    simp [atLine, finish?, keepCandidates?, Candidate.keep?, dropCandidate?, Candidate.drop?,
      closeBlocks, inBrackets]
  | cons entry entries ih =>
    obtain ⟨line, lines⟩ := List.forall_mem_cons.mp lines
    obtain ⟨here, short⟩ := List.forall_mem_cons.mp short
    rw [List.length_cons] at enough
    obtain ⟨left, rfl⟩ := Nat.exists_eq_add_of_le' (show 3 ≤ steps by omega)
    rw [List.flatMap_cons, readIn_line line here start (head?_lines lines),
      ih lines short (column_past_line position entry) (by omega)]
    simp

/-- If one of the keys is too long, nothing is read. -/
theorem readIn_lines_long {entries : List (String × String)}
    (lines : ∀ entry ∈ entries, IsLine entry) (long : ¬AreShort entries)
    (start : position.column = 0) (enough : 3 * entries.length ≤ steps) :
    readIn steps (atLine isOpen position tokens (entries.flatMap lineCharacters)) = none := by
  induction entries generalizing steps isOpen position tokens with
  | nil => exact absurd (fun _ listed => nomatch listed) long
  | cons entry entries ih =>
    obtain ⟨line, lines⟩ := List.forall_mem_cons.mp lines
    rw [List.length_cons] at enough
    rw [List.flatMap_cons]
    by_cases here : entry.1.length ≤ Candidate.maxLength
    · have long : ¬AreShort entries := fun short => long (List.forall_mem_cons.mpr ⟨here, short⟩)
      obtain ⟨left, rfl⟩ := Nat.exists_eq_add_of_le' (show 3 ≤ steps by omega)
      rw [readIn_line line here start (head?_lines lines)]
      exact ih lines long (column_past_line position entry) (by omega)
    · exact readIn_line_long line (Nat.lt_of_not_le here) start

end Layout

namespace Token

variable {entries : List (String × String)}

/-- The tokens of the lines of some entries are those of a block mapping. -/
theorem ofText?_lines (lines : ∀ entry ∈ entries, IsLine entry) (short : AreShort entries)
    (filled : entries ≠ []) :
    ofText? (entries.flatMap lineCharacters) = some (mappingTokens entries) := by
  obtain ⟨entry, entries, rfl⟩ := List.exists_cons_of_ne_nil filled
  have enough := three_mul_length_le (entry :: entries)
  obtain ⟨line, lines⟩ := List.forall_mem_cons.mp lines
  obtain ⟨here, short⟩ := List.forall_mem_cons.mp short
  have three : 3 ≤ 3 * (entry :: entries).length := by
    rw [List.length_cons]
    omega
  obtain ⟨left, steps⟩ := Nat.exists_eq_add_of_le' (Nat.le_trans three enough)
  rw [steps, List.length_cons] at enough
  rw [ofText?, steps]
  show Layout.readIn (left + 3) (.atLine false {} [] _) = _
  rw [List.flatMap_cons, Layout.readIn_line line here rfl (head?_lines lines),
    Layout.readIn_lines lines short (Layout.column_past_line ..) (by omega)]
  simp [mappingTokens, lineTokens]

theorem ofText?_lines_long (lines : ∀ entry ∈ entries, IsLine entry) (long : ¬AreShort entries) :
    ofText? (entries.flatMap lineCharacters) = none := by
  show Layout.readIn _ (.atLine false {} [] _) = none
  exact Layout.readIn_lines_long lines long rfl (three_mul_length_le entries)

end Token

end BeaconEpoch.Yaml
