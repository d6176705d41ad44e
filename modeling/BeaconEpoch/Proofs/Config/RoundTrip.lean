import BeaconEpoch.Config.Document
import BeaconEpoch.Proofs.Yaml.Mapping

/-!
# Configurations are read back

A configuration without fault is written as a text that is read as the same configuration. Numbers
under other keys set nothing and are listed, and the order of the lines means nothing.

## Main definitions

* `Config.valueEntries`, `Config.numberEntries`: what is written of a configuration, and numbers
  under other keys.
* `Config.AreUnknown`: numbers whose keys may stand besides those of a configuration.

## Main statements

* `Config.word?_toString`, `Config.positive?_toString`, `Config.preset?_name`,
  `Config.adjustment?_name`: every value is read back, each kind in its own way.
* `Config.lookup?_of_mem`, `Config.ofEntries?_lines`: the entries of a configuration set it,
  whatever else is given and in whatever order.
* `Config.parse_lines`, `Config.parse_lines_long`: a text with short keys only, and one with a key
  of more than 1024 characters.
* `Config.parse_roundTrip`, `Config.not_roundTrip_paddedKey`: the round trip with short keys, and
  that it fails with a long one.

## Design notes

* **Order is given up early.** Nothing is asked of the lines of a text but that they are those of
  the configuration and of the other numbers, arranged in some way. Values are looked up, and
  unknown keys are sorted, so there is no induction on the arrangement.
* **The limit on keys is not that of configurations.** A key shows itself only by the colon behind
  it, and reading does not look for it farther than 1024 characters.
-/

namespace BeaconEpoch

namespace Config

/-! ## Values -/

/-- A word is read off its numeral. -/
theorem word?_toString (w : UInt64) : word? (.plain (toString w.toNat)) = some w := by
  show (Yaml.numeral? (Nat.repr w.toNat).toList).bind Numeral.word? = some w
  rw [Nat.toList_repr, Yaml.numeral?_toDigits]
  exact Numeral.word?_toNat w

theorem positive?_toString (w : PositiveWord) :
    positive? (.plain (toString w.val.toNat)) = some w := by
  rw [positive?, word?_toString]
  exact dif_pos w.property

theorem preset?_name (preset : Preset) : preset? (.plain preset.name) = some preset :=
  preset.ofName?_name

theorem adjustment?_name (adjustment : Adjustment) :
    adjustment? (.plain adjustment.name) = some adjustment :=
  adjustment.ofName?_name

/-! ## Entries -/

/-- The entries of a configuration, in the order in which they are written. -/
def valueEntries (config : Config) : List (String × String) :=
  Key.all.map fun key => (key.name, config.valueText key)

theorem blockText_valueEntries (config : Config) :
    Yaml.blockText config.valueEntries = config.render := rfl

/-- Numbers under some keys, as entries of a text. -/
def numberEntries (numbers : List (String × UInt64)) : List (String × String) :=
  numbers.map fun (key, n) => (key, toString n.toNat)

theorem map_fst_valueEntries (config : Config) :
    config.valueEntries.map (·.1) = Key.all.map Key.name := rfl

theorem map_fst_numberEntries (numbers : List (String × UInt64)) :
    (numberEntries numbers).map (·.1) = numbers.map (·.1) := by
  rw [numberEntries, List.map_map]
  rfl

/-- Some numbers may stand in a configuration text besides the values of a configuration. -/
structure AreUnknown (numbers : List (String × UInt64)) : Prop where
  /-- Their keys have neither gaps nor signs. -/
  word : ∀ entry ∈ numbers, Yaml.IsWord entry.1.toList
  /-- No two of them have the same key. -/
  nodup : (numbers.map (·.1)).Nodup
  /-- None of them has a key of a configuration. -/
  unused : ∀ entry ∈ numbers, Key.isName entry.1 = false

/-- The keys of some numbers, in order. -/
def sortedKeys (numbers : List (String × UInt64)) : List String :=
  (numbers.map (·.1)).mergeSort (· ≤ ·)

theorem Key.isWord_name (key : Key) : Yaml.IsWord key.name.toList := by
  refine .of_all ?_ ?_
  · cases key <;> decide
  · cases key <;> decide +kernel

theorem Key.length_name_le (key : Key) : key.name.length ≤ Yaml.Candidate.maxLength := by
  cases key <;> decide

theorem Key.isName_name (key : Key) : isName key.name = true := by
  cases key <;> decide

theorem isNameChar_of_isNameCharacter {c : Char} (legal : isNameCharacter c = true) :
    Yaml.isNameChar c = true := by
  simp only [isNameCharacter, Bool.or_eq_true, Bool.and_eq_true, decide_eq_true_eq, beq_iff_eq,
    Char.le_def] at legal
  rcases legal with (⟨low, high⟩ | ⟨low, high⟩) | rfl
  · have lower : c.isLower = true :=
      Bool.and_eq_true_iff.mpr ⟨decide_eq_true low, decide_eq_true high⟩
    show (c.isUpper || c.isLower || c.isDigit || c == '-' || c == '_') = true
    rw [lower, Bool.or_true, Bool.true_or, Bool.true_or, Bool.true_or]
  · exact Yaml.isNameChar_of_isDigit
      (Bool.and_eq_true_iff.mpr ⟨decide_eq_true low, decide_eq_true high⟩)
  · rfl

/-- The lines of a configuration without fault can be read, unless its name is a sign. -/
theorem isLine_valueEntries {config : Config} (valid : config.validate = .ok ())
    (noSign : config.name ≠ "-") : ∀ entry ∈ config.valueEntries, Yaml.IsLine entry := by
  obtain ⟨filled, legal, -⟩ := validate_eq_ok_iff.mp valid
  have number (n : Nat) : Yaml.IsWord (toString n).toList ∧ toString n ≠ "-" :=
    ⟨Yaml.isWord_toString n, Yaml.toString_ne_hyphen n⟩
  have value (key : Key) :
      Yaml.IsWord (config.valueText key).toList ∧ config.valueText key ≠ "-" := by
    cases key with
    | configName =>
      exact ⟨.of_isNameChar filled fun c listed => isNameChar_of_isNameCharacter (legal c listed),
        noSign⟩
    | presetBase =>
      show Yaml.IsWord config.presetBase.name.toList ∧ config.presetBase.name ≠ "-"
      cases config.presetBase <;> exact ⟨.of_all (by decide) (by decide), by decide⟩
    | baseRewardAdjustment =>
      show Yaml.IsWord config.adjustment.name.toList ∧ config.adjustment.name ≠ "-"
      cases config.adjustment <;> exact ⟨.of_all (by decide) (by decide), by decide⟩
    | _ => exact number _
  intro entry listed
  obtain ⟨key, -, rfl⟩ := List.mem_map.mp listed
  exact ⟨key.isWord_name, (value key).1, (value key).2⟩

theorem isLine_numberEntries {numbers : List (String × UInt64)} (unknown : AreUnknown numbers) :
    ∀ entry ∈ numberEntries numbers, Yaml.IsLine entry := by
  intro entry listed
  obtain ⟨number, among, rfl⟩ := List.mem_map.mp listed
  exact ⟨unknown.word number among, Yaml.isWord_toString _, Yaml.toString_ne_hyphen _⟩

/-! ## Reading -/

/-- An entry of words as it is read. -/
def readLine (entry : String × String) : String × Yaml.Node := (entry.1, .plain entry.2)

/-- If keys do not repeat, an entry is the only one with its key. -/
theorem filter_key_of_mem {lines : List (String × String)} {line : String × String}
    (nodup : (lines.map (·.1)).Nodup) (given : line ∈ lines) :
    lines.filter (·.1 == line.1) = [line] := by
  induction lines with
  | nil => cases given
  | cons first lines ih =>
    obtain ⟨fresh, nodup⟩ := List.nodup_cons.mp nodup
    rcases List.mem_cons.mp given with rfl | given
    · have others : lines.filter (·.1 == line.1) = [] :=
        List.filter_eq_nil_iff.mpr fun other listed same =>
          fresh (List.mem_map.mpr ⟨other, listed, beq_iff_eq.mp same⟩)
      rw [List.filter_cons, if_pos (beq_self_eq_true _), others]
    · have other : first.1 ≠ line.1 := fun same =>
        fresh (List.mem_map.mpr ⟨line, given, same.symm⟩)
      rw [List.filter_cons_of_neg (by simpa using other), ih nodup given]

/-- A key that is given once has the value that is given. -/
theorem lookup?_of_mem {α : Type} {lines : List (String × String)} {key : Key} {value : String}
    (nodup : (lines.map (·.1)).Nodup) (given : (key.name, value) ∈ lines)
    (read : Yaml.Node → Option α) (fallback : α) :
    lookup? (lines.map readLine) key read fallback = read (.plain value) := by
  have once : (lines.map readLine).filter (·.1 == key.name) = [(key.name, .plain value)] := by
    rw [List.filter_map]
    exact congrArg (List.map readLine) (filter_key_of_mem nodup given)
  rw [lookup?, once]

theorem eraseDups_of_nodup {keys : List String} (nodup : keys.Nodup) : keys.eraseDups = keys := by
  induction keys with
  | nil => rfl
  | cons key keys ih =>
    obtain ⟨fresh, nodup⟩ := List.nodup_cons.mp nodup
    have kept : keys.filter (fun other => !other == key) = keys := by
      refine List.filter_eq_self.mpr fun other listed => ?_
      simp only [Bool.not_eq_true', beq_eq_false_iff_ne]
      rintro rfl
      exact fresh listed
    rw [List.eraseDups_cons, kept, ih nodup]

/-- The order in which keys stand in a text does not show in their list. -/
theorem mergeSort_of_perm {keys others : List String} (perm : keys.Perm others) :
    keys.mergeSort (· ≤ ·) = others.mergeSort (· ≤ ·) := by
  have sorted (keys : List String) : (keys.mergeSort (· ≤ ·)).Pairwise (· ≤ ·) := by
    refine (List.pairwise_mergeSort ?_ ?_ keys).imp of_decide_eq_true
    · intro a b c first second
      simp only [decide_eq_true_eq] at first second ⊢
      exact String.le_trans first second
    · intro a b
      simpa using String.le_total a b
  refine List.Perm.eq_of_pairwise (fun a b _ _ => String.le_antisymm) (sorted _) (sorted _) ?_
  exact (List.mergeSort_perm ..).trans (perm.trans (List.mergeSort_perm ..).symm)

section Lines

variable {lines : List (String × String)}

/-- Entries of words can be gone over if no unknown one has a number that is too wide. They follow
no references, so what may still be followed stays the same from each entry to the next. -/
theorem canPass_lines (document : Yaml.Document)
    (narrow : ∀ line ∈ lines, Key.isName line.1 = true ∨ Yaml.isWide line.2.toList = false) :
    document.canPass (lines.map Yaml.Node.ofLine) = true := by
  have pass (left : Nat) :
      (lines.map Yaml.Node.ofLine).foldlM document.passEntry? left = some left := by
    induction lines with
    | nil => rfl
    | cons line lines ih =>
      obtain ⟨here, narrow⟩ := List.forall_mem_cons.mp narrow
      have value (free : Yaml.isWide line.2.toList = false) :
          document.pass? (Yaml.Document.maxDepth - 1) left (.plain line.2) = some left := by
        have held : Yaml.Properties.isValue {} .plain line.2 = true := by
          simp [Yaml.Properties.isValue, free]
        show (if Yaml.Properties.isValue {} .plain line.2 then some left else none) = some left
        rw [if_pos held]
      have entry : document.passEntry? left (Yaml.Node.ofLine line) = some left := by
        show (if Key.isName line.1 then some left
          else document.pass? (Yaml.Document.maxDepth - 1) left (.plain line.2)) = some left
        split
        · rfl
        · rename_i unknown
          exact value (here.resolve_left unknown)
      rw [List.map_cons, List.foldlM_cons, entry]
      exact ih narrow
  rw [Yaml.Document.canPass, pass]
  rfl

theorem mapM_entry?_lines (document : Yaml.Document) :
    ((lines.map Yaml.Node.ofLine).mapM fun (key, value) => entry? document key value) =
      some (lines.map readLine) := by
  induction lines with
  | nil => rfl
  | cons line lines ih =>
    rw [List.map_cons, List.mapM_cons, ih]
    rfl

/-- The document of some lines sets what their entries set. -/
theorem ofDocument?_lines
    (narrow : ∀ line ∈ lines, Key.isName line.1 = true ∨ Yaml.isWide line.2.toList = false) :
    ofDocument? (.ofRoot (.mapping {} (lines.map Yaml.Node.ofLine))) =
      ofEntries? (lines.map readLine) := by
  rw [ofDocument?]
  show (do
    guard (Yaml.Document.canPass _ (lines.map Yaml.Node.ofLine))
    ofEntries? (← (lines.map Yaml.Node.ofLine).mapM fun (key, value) => entry? _ key value)) = _
  rw [canPass_lines _ narrow, mapM_entry?_lines]
  rfl

variable {config : Config} {numbers : List (String × UInt64)}

/-- The keys of a configuration and some unknown ones are all different. -/
theorem nodup_keys (unknown : AreUnknown numbers)
    (arranged : lines.Perm (config.valueEntries ++ numberEntries numbers)) :
    (lines.map (·.1)).Nodup := by
  rw [(arranged.map _).nodup_iff, List.map_append, map_fst_valueEntries, map_fst_numberEntries,
    List.nodup_append]
  refine ⟨by decide, unknown.nodup, ?_⟩
  rintro _ known _ listed rfl
  obtain ⟨key, -, rfl⟩ := List.mem_map.mp known
  obtain ⟨number, among, same⟩ := List.mem_map.mp listed
  have unused := unknown.unused number among
  rw [same, key.isName_name] at unused
  cases unused

theorem unknownKeys_lines (unknown : AreUnknown numbers)
    (arranged : lines.Perm (config.valueEntries ++ numberEntries numbers)) :
    unknownKeys (lines.map readLine) = sortedKeys numbers := by
  have keys : (lines.map readLine).map (·.1) = lines.map (·.1) := by
    rw [List.map_map]
    rfl
  have known : (Key.all.map Key.name).filter (!Key.isName ·) = [] := by decide
  have others : (numbers.map (·.1)).filter (!Key.isName ·) = numbers.map (·.1) :=
    List.filter_eq_self.mpr <| List.forall_mem_map.mpr fun number listed => by
      rw [unknown.unused number listed]
      rfl
  have left : ((lines.map (·.1)).filter (!Key.isName ·)).Perm (numbers.map (·.1)) := by
    have perm := (arranged.map (·.1)).filter (!Key.isName ·)
    rwa [List.map_append, map_fst_valueEntries, map_fst_numberEntries, List.filter_append, known,
      others, List.nil_append] at perm
  rw [unknownKeys, keys, eraseDups_of_nodup (left.nodup_iff.mpr unknown.nodup)]
  exact mergeSort_of_perm left

/-- The entries of a configuration and some unknown ones set it. -/
theorem ofEntries?_lines (unknown : AreUnknown numbers)
    (arranged : lines.Perm (config.valueEntries ++ numberEntries numbers)) :
    ofEntries? (lines.map readLine) =
      some { config with unknown := sortedKeys numbers } := by
  have nodup := nodup_keys unknown arranged
  have given (key : Key) : (key.name, config.valueText key) ∈ lines := by
    refine arranged.mem_iff.mpr (List.mem_append_left _ (List.mem_map.mpr ⟨key, ?_, rfl⟩))
    cases key <;> decide
  have value {α : Type} (key : Key) (read : Yaml.Node → Option α) (fallback : α) :
      lookup? (lines.map readLine) key read fallback = read (.plain (config.valueText key)) :=
    lookup?_of_mem nodup (given key) read fallback
  rw [ofEntries?]
  simp only [value, valueText, word?_toString, positive?_toString, preset?_name, adjustment?_name,
    unknownKeys_lines unknown arranged, bind, Option.bind_some, pure]
  rfl

/-! ### Texts -/

/-- Every line of a configuration and of some unknown numbers can be read. -/
theorem isLine_lines (valid : config.validate = .ok ()) (noSign : config.name ≠ "-")
    (unknown : AreUnknown numbers)
    (arranged : lines.Perm (config.valueEntries ++ numberEntries numbers)) :
    ∀ line ∈ lines, Yaml.IsLine line := by
  intro line listed
  rcases List.mem_append.mp (arranged.mem_iff.mp listed) with own | other
  · exact isLine_valueEntries valid noSign line own
  · exact isLine_numberEntries unknown line other

/-- The keys of a configuration are short, so it is up to the unknown ones. -/
theorem areShort_lines (arranged : lines.Perm (config.valueEntries ++ numberEntries numbers)) :
    Yaml.AreShort lines ↔ ∀ entry ∈ numbers, entry.1.length ≤ Yaml.Candidate.maxLength := by
  have own : Yaml.AreShort config.valueEntries :=
    List.forall_mem_map.mpr fun key _ => key.length_name_le
  have others : Yaml.AreShort (numberEntries numbers) ↔
      ∀ entry ∈ numbers, entry.1.length ≤ Yaml.Candidate.maxLength := List.forall_mem_map
  have both : Yaml.AreShort (config.valueEntries ++ numberEntries numbers) ↔
      Yaml.AreShort config.valueEntries ∧ Yaml.AreShort (numberEntries numbers) :=
    List.forall_mem_append
  have same : Yaml.AreShort lines ↔ Yaml.AreShort (config.valueEntries ++ numberEntries numbers) :=
    forall_congr' fun entry => imp_congr_left arranged.mem_iff
  rw [same, both, others, and_iff_right own]

/-- **A configuration is read back from its lines, in whatever order they stand.** The keys of other
numbers are listed. -/
theorem parse_lines (valid : config.validate = .ok ()) (noSign : config.name ≠ "-")
    (unknown : AreUnknown numbers)
    (short : ∀ entry ∈ numbers, entry.1.length ≤ Yaml.Candidate.maxLength)
    (arranged : lines.Perm (config.valueEntries ++ numberEntries numbers)) :
    parse (Yaml.blockText lines) =
      .ok { config with unknown := sortedKeys numbers } := by
  have filled : lines ≠ [] := by
    rintro rfl
    cases arranged.nil_eq
  have narrow : ∀ line ∈ lines,
      Key.isName line.1 = true ∨ Yaml.isWide line.2.toList = false := by
    intro line listed
    rcases List.mem_append.mp (arranged.mem_iff.mp listed) with own | other
    · obtain ⟨key, -, rfl⟩ := List.mem_map.mp own
      exact .inl key.isName_name
    · obtain ⟨⟨key, n⟩, -, rfl⟩ := List.mem_map.mp other
      refine .inr ?_
      show Yaml.isWide (Nat.repr n.toNat).toList = false
      rw [Nat.toList_repr, Yaml.not_isWide_toDigits]
  have document := Yaml.Document.parse?_of_areShort
    (isLine_lines valid noSign unknown arranged) ((areShort_lines arranged).mpr short) filled
  rw [parse, document, Option.bind_some, ofDocument?_lines narrow,
    ofEntries?_lines unknown arranged]
  have valid' : validate { config with unknown := sortedKeys numbers } = .ok () := valid
  simp only [valid']

/-- **A key that is too long spoils the text.** -/
theorem parse_lines_long (valid : config.validate = .ok ()) (noSign : config.name ≠ "-")
    (unknown : AreUnknown numbers)
    (long : ∃ entry ∈ numbers, Yaml.Candidate.maxLength < entry.1.length)
    (arranged : lines.Perm (config.valueEntries ++ numberEntries numbers)) :
    parse (Yaml.blockText lines) = .error .malformed := by
  obtain ⟨number, listed, long⟩ := long
  have spoiled : ¬Yaml.AreShort lines := fun short =>
    absurd ((areShort_lines arranged).mp short number listed) (Nat.not_le.mpr long)
  have lines := isLine_lines valid noSign unknown arranged
  rw [parse, Yaml.Document.parse?_of_not_areShort lines spoiled]
  rfl

end Lines

/-! ## The round trip -/

/-- The lines of a configuration with those of some numbers behind them. -/
theorem render_append (config : Config) (numbers : List (String × UInt64)) :
    config.render ++ Yaml.blockText (numberEntries numbers) =
      Yaml.blockText (config.valueEntries ++ numberEntries numbers) := by
  refine String.toList_inj.mp ?_
  rw [← blockText_valueEntries, String.toList_append]
  simp only [Yaml.toList_blockText, List.flatMap_append]

/-- **A configuration without fault comes back from its own text.** Numbers under other keys, of at
most 1024 characters each, are listed and set nothing, and the order of the lines means nothing. Of
the name nothing is asked but that it is no hyphen alone, and of a number that it is a word. -/
theorem parse_roundTrip (config : Config) (numbers : List (String × UInt64))
    (valid : config.validate = .ok ()) (noSign : config.name ≠ "-")
    (unknown : AreUnknown numbers)
    (short : ∀ entry ∈ numbers, entry.1.length ≤ Yaml.Candidate.maxLength) :
    parse config.render = .ok { config with unknown := [] } ∧
    parse (config.render ++ Yaml.blockText (numberEntries numbers)) =
      .ok { config with unknown := sortedKeys numbers } ∧
    ∀ lines : List (String × String), lines.Perm (config.valueEntries ++ numberEntries numbers) →
      parse (Yaml.blockText lines) =
        parse (config.render ++ Yaml.blockText (numberEntries numbers)) := by
  have own : parse config.render = .ok { config with unknown := [] } := by
    have alone : AreUnknown [] :=
      ⟨List.forall_mem_nil _, List.nodup_nil, List.forall_mem_nil _⟩
    have arranged : config.valueEntries.Perm (config.valueEntries ++ numberEntries []) := by
      rw [numberEntries, List.map_nil, List.append_nil]
    rw [← blockText_valueEntries, parse_lines valid noSign alone (List.forall_mem_nil _) arranged,
      sortedKeys, List.map_nil, List.mergeSort_nil]
  have behind := parse_lines valid noSign unknown short
    (.refl (config.valueEntries ++ numberEntries numbers))
  rw [render_append]
  refine ⟨own, behind, fun lines arranged => ?_⟩
  rw [behind, parse_lines valid noSign unknown short arranged]

/-- Two numbers behind the lines of a configuration, one of them the largest. -/
theorem parse_roundTrip_pulseChain :
    pulseChain.validate = .ok () ∧ pulseChain.name ≠ "-" ∧
      AreUnknown [("MIN_GENESIS_TIME", 1683776400), ("GENESIS_DELAY", 18446744073709551615)] ∧
      parse (pulseChain.render ++
          "MIN_GENESIS_TIME: 1683776400\nGENESIS_DELAY: 18446744073709551615\n") =
        .ok { pulseChain with unknown := ["GENESIS_DELAY", "MIN_GENESIS_TIME"] } := by
  have valid : pulseChain.validate = .ok () := by rfl
  have unknown : AreUnknown
      [("MIN_GENESIS_TIME", 1683776400), ("GENESIS_DELAY", 18446744073709551615)] := by
    refine ⟨?_, by decide, by decide⟩
    simp only [List.forall_mem_cons]
    exact ⟨.of_all (by decide) (by decide), .of_all (by decide) (by decide), nofun⟩
  have sorted : sortedKeys
      [("MIN_GENESIS_TIME", 1683776400), ("GENESIS_DELAY", 18446744073709551615)] =
        ["GENESIS_DELAY", "MIN_GENESIS_TIME"] := by
    show ["MIN_GENESIS_TIME", "GENESIS_DELAY"].mergeSort (· ≤ ·) = _
    rw [mergeSort_of_perm (.swap ..)]
    exact List.mergeSort_of_pairwise (by decide)
  refine ⟨valid, by decide, unknown, ?_⟩
  rw [← sorted]
  exact (parse_roundTrip pulseChain _ valid (by decide) unknown (by decide)).2.1

/-! ## Long keys -/

/-- A key of capital letters with an underscore, as long as desired. -/
def paddedKey (padding : Nat) : String :=
  String.ofList ('A' :: '_' :: List.replicate padding 'A')

theorem length_paddedKey (padding : Nat) : (paddedKey padding).length = padding + 2 := by
  rw [paddedKey, String.length_ofList]
  simp

theorem mem_paddedKey {padding : Nat} {c : Char} (listed : c ∈ (paddedKey padding).toList) :
    c = 'A' ∨ c = '_' := by
  rw [paddedKey, String.toList_ofList, List.mem_cons, List.mem_cons, List.mem_replicate] at listed
  rcases listed with letter | underscore | ⟨-, letter⟩
  · exact .inl letter
  · exact .inr underscore
  · exact .inl letter

theorem isWord_paddedKey (padding : Nat) : Yaml.IsWord (paddedKey padding).toList := by
  refine .of_isNameChar ?_ fun c listed => ?_
  · rw [paddedKey, String.toList_ofList]
    exact List.cons_ne_nil _ _
  · rcases mem_paddedKey listed with rfl | rfl <;> decide

/-- A key that is too long is none of a configuration. -/
theorem Key.not_isName_of_length {text : String}
    (long : Yaml.Candidate.maxLength < text.length) : isName text = false := by
  refine List.any_eq_false.mpr fun key _ same => ?_
  have short := key.length_name_le
  rw [beq_iff_eq.mp same] at short
  omega

/-- A configuration does not come back with a number under a key of 1025 characters behind it. -/
theorem not_roundTrip_paddedKey :
    default.validate = .ok () ∧ default.name = "default" ∧ AreUnknown [(paddedKey 1023, 1)] ∧
      (∀ c ∈ (paddedKey 1023).toList, c = 'A' ∨ c = '_') ∧ '_' ∈ (paddedKey 1023).toList ∧
      parse (default.render ++ Yaml.blockText (numberEntries [(paddedKey 1023, 1)])) ≠
        .ok { default with unknown := [paddedKey 1023] } := by
  have valid : default.validate = .ok () := by rfl
  have long : Yaml.Candidate.maxLength < (paddedKey 1023).length := by
    rw [length_paddedKey]
    decide
  have unknown : AreUnknown [(paddedKey 1023, 1)] := {
    word := List.forall_mem_singleton.mpr (isWord_paddedKey 1023)
    nodup := List.pairwise_singleton _ _
    unused := List.forall_mem_singleton.mpr (Key.not_isName_of_length long) }
  have underscore : '_' ∈ (paddedKey 1023).toList := by
    rw [paddedKey, String.toList_ofList]
    exact List.mem_cons_of_mem _ List.mem_cons_self
  refine ⟨valid, rfl, unknown, fun _ => mem_paddedKey, underscore, ?_⟩
  rw [render_append, parse_lines_long valid (by decide) unknown
    ⟨_, List.mem_singleton_self _, long⟩ (.refl _)]
  nofun

end Config

end BeaconEpoch
