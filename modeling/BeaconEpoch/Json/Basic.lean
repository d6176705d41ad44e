import BeaconEpoch.Numeral

/-!
# JSON values

## Main definitions

* `Json.Scalar`: a value without parts.
* `Json`: a value. The entries of an object keep their order and may repeat a key.
* `Json.nat?`, `Json.word?`, `Json.byte?`, `Json.bool?`, `Json.text?`, `Json.list?`: what a value
  is, without any conversion.
* `Json.record`, `Json.fields?`: objects with a fixed set of keys.

## Design notes

* **Numbers are naturals.** A number with a sign, a fraction or an exponent is kept as it was
  written and is never taken for a natural number, not even when its value is one.
* **Half a character is no text.** A text that escapes one half of a pair alone may stand wherever
  nothing is read from it; every reading refuses it.
-/

namespace BeaconEpoch

/-- A value without parts. -/
inductive Json.Scalar
  | null
  | bool (value : Bool)
  /-- A number of decimal digits only. -/
  | nat (value : Nat)
  /-- Any other number, as written. -/
  | number (written : String)
  | text (value : String)
  /-- A text with half a character in it, which no text can hold, as written. -/
  | unpaired (written : String)
deriving DecidableEq, Repr, Inhabited

/-- A value. -/
inductive Json
  | scalar (value : Json.Scalar)
  | array (items : List Json)
  | object (entries : List (String × Json))
deriving Inhabited

namespace Json

/-! ## Scalars and lists -/

/-- The value that is a natural number. -/
def ofNat (n : Nat) : Json := .scalar (.nat n)

/-- The value that is a truth value. -/
def ofBool (b : Bool) : Json := .scalar (.bool b)

/-- The value that is a text. -/
def ofText (text : String) : Json := .scalar (.text text)

/-- The value that lists what is written for the members of a list. -/
def ofList {α : Type} (write : α → Json) (xs : List α) : Json := .array (xs.map write)

/-- The natural number that a value is. -/
def nat? : Json → Option Nat
  | .scalar (.nat n) => some n
  | _ => none

/-- The word that a value is. -/
def word? (json : Json) : Option UInt64 := json.nat?.bind Numeral.word?

/-- The byte that a value is. -/
def byte? (json : Json) : Option UInt8 :=
  json.nat?.bind fun n => if n < 2 ^ 8 then some (UInt8.ofNat n) else none

/-- The truth value that a value is. -/
def bool? : Json → Option Bool
  | .scalar (.bool b) => some b
  | _ => none

/-- The text that a value is. -/
def text? : Json → Option String
  | .scalar (.text text) => some text
  | _ => none

/-- The list that a value is, if each of its items can be read. -/
def list? {α : Type} (read : Json → Option α) : Json → Option (List α)
  | .array items => items.mapM read
  | _ => none

theorem word?_ofNat (w : UInt64) : (ofNat w.toNat).word? = some w := Numeral.word?_toNat w

theorem byte?_ofNat (b : UInt8) : (ofNat b.toNat).byte? = some b := by
  simp [byte?, ofNat, nat?, b.toNat_lt]

/-- A list is read back if each of its entries is. -/
theorem list?_ofList {α : Type} {write : α → Json} {read : Json → Option α}
    (inverse : ∀ a, read (write a) = some a) (xs : List α) :
    (ofList write xs).list? read = some xs := by
  simp only [ofList, list?]
  induction xs with
  | nil => rfl
  | cons x xs ih => simp [List.mapM_cons, inverse, ih]

/-! ## Records -/

/-- The object with these keys and values. -/
def record (names : List String) (values : List Json) : Json := .object (names.zip values)

/-- The value of the first entry with a key. -/
def lookup? (entries : List (String × Json)) (name : String) : Option Json :=
  (entries.find? (·.1 == name)).map (·.2)

/-- The values of a record, in the order of the names. A record is an object that has each of these
keys once and no other, in any order, or a list of the values alone. -/
def fields? (names : List String) : Json → Option (List Json)
  | .object entries =>
    if entries.length = names.length then names.mapM (lookup? entries) else none
  | .array values => if values.length = names.length then some values else none
  | .scalar _ => none

theorem mapM_lookup?_zip {names : List String} (distinct : names.Nodup) {values : List Json}
    (length : values.length = names.length) (more : List (String × Json))
    (fresh : ∀ entry ∈ more, entry.1 ∉ names) :
    names.mapM (lookup? (more ++ names.zip values)) = some values := by
  induction names generalizing values more with
  | nil => simp_all
  | cons name names ih =>
    obtain _ | ⟨value, values⟩ := values
    · cases length
    · rw [List.nodup_cons] at distinct
      have skip : more.find? (·.1 == name) = none := by
        rw [List.find?_eq_none]
        intro entry mem eq
        exact fresh entry mem (by simp_all)
      have here : lookup? (more ++ (name, value) :: names.zip values) name = some value := by
        simp [lookup?, List.find?_append, skip]
      have fresh' : ∀ entry ∈ more ++ [(name, value)], entry.1 ∉ names := by
        intro entry mem
        rw [List.mem_append, List.mem_singleton] at mem
        rcases mem with mem | rfl
        · exact fun h => fresh entry mem (List.mem_cons_of_mem _ h)
        · exact distinct.1
      have rest : names.mapM (lookup? (more ++ [(name, value)] ++ names.zip values)) =
          some values := ih distinct.2 (by simpa using length) _ fresh'
      rw [List.append_assoc, List.singleton_append] at rest
      simp [List.zip_cons_cons, List.mapM_cons, here, rest]

/-- The values of a record are read back by its keys, provided that these differ. -/
theorem fields?_record {names : List String} (distinct : names.Nodup) {values : List Json}
    (length : values.length = names.length) :
    (record names values).fields? names = some values := by
  rw [record, fields?, if_pos (by simp [length])]
  exact mapM_lookup?_zip distinct length [] (by simp)

end Json

end BeaconEpoch
