import BeaconEpoch.Proofs.Yaml.Line
import BeaconEpoch.Yaml.Document

/-!
# Texts of a block mapping

A text of lines `key: value` of words is the document of a mapping with these entries.

## Main definitions

* `Node.plain`, `Node.ofLine`: the node of a word, and those of an entry.
* `blockText`: the text of some entries.

## Main statements

* `Node.readEntries_lines`, `Node.ofTokens?_mappingTokens`: the entries are read off their tokens,
  by induction on them.
* `Document.parse?_of_areShort`, `Document.parse?_of_not_areShort`: the document of a text of lines,
  if all keys are short, and that there is none otherwise.
-/

namespace BeaconEpoch.Yaml

/-! ## Nodes -/

namespace Node

/-- The node of a text that stands without quotes, tag and number. -/
def plain (text : String) : Node := scalar {} .plain text

/-- The nodes of an entry of words. -/
def ofLine (entry : String × String) : Node × Node := (plain entry.1, plain entry.2)

variable {handles : Handles} {rest : List Token} {entries : List (String × String)} {steps : Nat}

/-- An entry is read off its tokens, and the others after it. -/
theorem readEntries_line (entry : String × String) :
    readEntries handles (steps + 2) (lineTokens entry ++ rest) =
      (readEntries handles (steps + 1) rest).bind fun (entries, rest) =>
        some (ofLine entry :: entries, rest) :=
  rfl

/-- The entries of a block are read up to its end. -/
theorem readEntries_lines (enough : entries.length < steps) :
    readEntries handles steps (entries.flatMap lineTokens ++ .blockEnd :: rest) =
      some (entries.map ofLine, rest) := by
  induction entries generalizing steps with
  | nil =>
    obtain ⟨left, rfl⟩ := Nat.exists_eq_add_of_lt enough
    rfl
  | cons entry entries ih =>
    rw [List.length_cons] at enough
    obtain ⟨left, rfl⟩ := Nat.exists_eq_add_of_le' (show 2 ≤ steps by omega)
    rw [List.flatMap_cons, List.append_assoc, readEntries_line, ih (by omega)]
    rfl

/-- The tokens of a block mapping are read as one. -/
theorem ofTokens?_mappingTokens (entries : List (String × String)) :
    ofTokens? handles (mappingTokens entries) = some (mapping {} (entries.map ofLine), []) := by
  have enough : entries.length < 2 * (mappingTokens entries).length + 1 := by
    rw [mappingTokens, List.length_append, List.length_cons, length_flatMap_lineTokens]
    omega
  show (readEntries handles (2 * (mappingTokens entries).length + 1)
      (entries.flatMap lineTokens ++ [Token.blockEnd])).bind
    (fun (entries, rest) => some (mapping {} entries, rest)) = _
  rw [readEntries_lines enough]
  rfl

end Node

/-! ## Documents -/

/-- The text of some entries: a line for each of them. -/
def blockText (entries : List (String × String)) : String :=
  String.join (entries.map fun entry => entry.1 ++ ": " ++ entry.2 ++ "\n")

theorem toList_blockText (entries : List (String × String)) :
    (blockText entries).toList = entries.flatMap lineCharacters := by
  rw [blockText, String.toList_join, List.flatMap_map]
  congr 1
  funext entry
  simp [lineCharacters]

/-- What has line feeds as its only breaks is left as it is. -/
theorem unifyBreaks_eq_self {text : List Char} (single : ∀ c ∈ text, c ≠ '\r' ∧ c ≠ '\x85') :
    unifyBreaks text = text := by
  induction text with
  | nil => rfl
  | cons c rest ih =>
    obtain ⟨⟨notReturn, notNext⟩, single⟩ := List.forall_mem_cons.mp single
    rw [unifyBreaks, ih single]
    · simp [notReturn, notNext]
    · exact fun _ same => absurd same notReturn

/-- A character of a line is one of a word, a sign, or the end of the line. -/
theorem mem_lineCharacters {entry : String × String} (line : IsLine entry) {c : Char}
    (listed : c ∈ lineCharacters entry) : isWordChar c = true ∨ c ∈ [':', ' ', '\n'] := by
  simp only [lineCharacters, List.mem_append, List.mem_cons] at listed
  rcases listed with inKey | rfl | rfl | inValue | rfl | none
  · exact .inl (line.key.inside c inKey)
  · exact .inr (by simp)
  · exact .inr (by simp)
  · exact .inl (line.value.inside c inValue)
  · exact .inr (by simp)
  · cases none

namespace Document

variable {entries : List (String × String)}

theorem ofTokens?_mappingTokens (entries : List (String × String)) :
    ofTokens? (mappingTokens entries) = some (ofRoot (.mapping {} (entries.map Node.ofLine))) := by
  -- There are neither directives nor markers, so all of the tokens are content.
  have directives : directives? false [] (mappingTokens entries) =
      some ([], mappingTokens entries) := rfl
  rw [ofTokens?, directives]
  simp only [bind, Option.bind_some, if_true]
  show (Node.ofTokens? ([] ++ Handles.standard) (mappingTokens entries)).bind _ = _
  rw [Node.ofTokens?_mappingTokens]
  rfl

/-- The text is read as its characters stand there. -/
theorem parse?_blockText (lines : ∀ entry ∈ entries, IsLine entry) :
    parse? (blockText entries) =
      (Token.ofText? (entries.flatMap lineCharacters)).bind ofTokens? := by
  have kinds : ∀ c ∈ entries.flatMap lineCharacters,
      isWordChar c = true ∨ c ∈ [':', ' ', '\n'] := by
    intro c listed
    obtain ⟨entry, among, listed⟩ := List.mem_flatMap.mp listed
    exact mem_lineCharacters (lines entry among) listed
  have printable : (entries.flatMap lineCharacters).all isPrintable = true := by
    refine List.all_eq_true.mpr fun c listed => ?_
    rcases kinds c listed with inWord | sign
    · exact isPrintable_of_isWordChar inWord
    · simp at sign
      rcases sign with rfl | rfl | rfl <;> rfl
  have single : ∀ c ∈ entries.flatMap lineCharacters, c ≠ '\r' ∧ c ≠ '\x85' := by
    intro c listed
    rcases kinds c listed with inWord | sign
    · exact ⟨ne_of_isWordChar inWord '\r' rfl, ne_of_isWordChar inWord '\x85' rfl⟩
    · simp at sign
      rcases sign with rfl | rfl | rfl <;> decide
  rw [parse?, toList_blockText, if_pos printable, unifyBreaks_eq_self single]

/-- A text of lines with short keys is a document with the mapping of their entries. -/
theorem parse?_of_areShort (lines : ∀ entry ∈ entries, IsLine entry) (short : AreShort entries)
    (filled : entries ≠ []) :
    parse? (blockText entries) = some (ofRoot (.mapping {} (entries.map Node.ofLine))) := by
  rw [parse?_blockText lines, Token.ofText?_lines lines short filled]
  exact ofTokens?_mappingTokens entries

/-- A text of lines is no document if one of the keys is too long. -/
theorem parse?_of_not_areShort (lines : ∀ entry ∈ entries, IsLine entry)
    (long : ¬AreShort entries) : parse? (blockText entries) = none := by
  rw [parse?_blockText lines, Token.ofText?_lines_long lines long]
  rfl

end Document

end BeaconEpoch.Yaml
