import TypeBundle.Json.Number
/-!
# JSON values and their texts

A value keeps the fields of an object in the order in which they are written. `Value.write` is its
text, compact or with two blanks of indentation; strings are escaped only where JSON requires it.
-/

namespace TypeBundle.Json

/-- A JSON value. -/
inductive Value where
  | null
  | bool (value : Bool)
  | number (value : Number)
  | string (value : String)
  | array (items : List Value)
  | object (fields : List (String × Value))

instance : Inhabited Value := ⟨.null⟩

namespace Value

/-! ## Equality -/

mutual
/-- Whether two values are equal, fields in the same order. -/
def same : Value → Value → Bool
  | null, null => true
  | bool a, bool b => a == b
  | number a, number b => a == b
  | string a, string b => a == b
  | array as, array bs => sameItems as bs
  | object as, object bs => sameFields as bs
  | _, _ => false

def sameItems : List Value → List Value → Bool
  | [], [] => true
  | a :: as, b :: bs => same a b && sameItems as bs
  | _, _ => false

def sameFields : List (String × Value) → List (String × Value) → Bool
  | [], [] => true
  | a :: as, b :: bs => sameField a b && sameFields as bs
  | _, _ => false

def sameField : String × Value → String × Value → Bool
  | (j, a), (k, b) => j == k && same a b
end

mutual
theorem eq_of_same : ∀ {a b : Value}, same a b = true → a = b
  | null, b, h => by cases b <;> simp_all [same]
  | bool _, b, h => by cases b <;> simp_all [same]
  | number _, b, h => by cases b <;> simp_all [same]
  | string _, b, h => by cases b <;> simp_all [same]
  | array as, b, h => by
    cases b with
    | array bs => rw [@eq_of_sameItems as bs (by simpa [same] using h)]
    | _ => simp_all [same]
  | object as, b, h => by
    cases b with
    | object bs => rw [@eq_of_sameFields as bs (by simpa [same] using h)]
    | _ => simp_all [same]

theorem eq_of_sameItems : ∀ {as bs : List Value}, sameItems as bs = true → as = bs
  | [], bs, h => by cases bs <;> simp_all [sameItems]
  | a :: as, bs, h => by
    cases bs with
    | nil => simp_all [sameItems]
    | cons b bs =>
      simp only [sameItems, Bool.and_eq_true] at h
      rw [eq_of_same h.1, eq_of_sameItems h.2]

theorem eq_of_sameFields : ∀ {as bs : List (String × Value)}, sameFields as bs = true → as = bs
  | [], bs, h => by cases bs <;> simp_all [sameFields]
  | a :: as, bs, h => by
    cases bs with
    | nil => simp_all [sameFields]
    | cons b bs =>
      simp only [sameFields, Bool.and_eq_true] at h
      rw [eq_of_sameField h.1, eq_of_sameFields h.2]

theorem eq_of_sameField : ∀ {a b : String × Value}, sameField a b = true → a = b
  | (j, a), (k, b), h => by
    simp only [sameField, Bool.and_eq_true, beq_iff_eq] at h
    rw [h.1, eq_of_same h.2]
end

mutual
theorem same_refl : ∀ a : Value, same a a = true
  | null => by simp [same]
  | bool _ => by simp [same]
  | number _ => by simp [same]
  | string _ => by simp [same]
  | array as => by simpa [same] using sameItems_refl as
  | object as => by simpa [same] using sameFields_refl as

theorem sameItems_refl : ∀ as : List Value, sameItems as as = true
  | [] => by simp [sameItems]
  | a :: as => by simp [sameItems, same_refl a, sameItems_refl as]

theorem sameFields_refl : ∀ as : List (String × Value), sameFields as as = true
  | [] => by simp [sameFields]
  | a :: as => by simp [sameFields, sameField_refl a, sameFields_refl as]

theorem sameField_refl : ∀ a : String × Value, sameField a a = true
  | (_, a) => by simp [sameField, same_refl a]
end

instance : DecidableEq Value := fun a b =>
  if h : same a b = true then isTrue (eq_of_same h)
  else isFalse fun e => h (e ▸ same_refl a)

/-! ## Canonical values -/

/-- Puts a field into a list of fields with ascending names; a field of that name gives way. -/
def insertField (name : String) (value : Value) : List (String × Value) → List (String × Value)
  | [] => [(name, value)]
  | (n, v) :: fields =>
    if name < n then (name, value) :: (n, v) :: fields
    else if name = n then (name, value) :: fields
    else (n, v) :: insertField name value fields

mutual
/-- The value with the fields of every object in ascending order of names; of fields with one name
the last stays. -/
def canonical : Value → Value
  | array items => array (canonicalItems items)
  | object fields => object (canonicalFields [] fields)
  | v => v

def canonicalItems : List Value → List Value
  | [] => []
  | v :: vs => canonical v :: canonicalItems vs

/-- Adds the fields to those that are in order already. -/
def canonicalFields (done : List (String × Value)) : List (String × Value) → List (String × Value)
  | [] => done
  | field :: fields => canonicalFields (canonicalField done field) fields

def canonicalField (done : List (String × Value)) : String × Value → List (String × Value)
  | (name, v) => insertField name (canonical v) done
end

/-! ## Texts -/

/-- A character inside a JSON string. -/
def escape (c : Char) : List Char :=
  if c = '\x22' then ['\\', '\x22']
  else if c = '\\' then ['\\', '\\']
  else if c = '\x08' then ['\\', 'b']
  else if c = '\x0c' then ['\\', 'f']
  else if c = '\n' then ['\\', 'n']
  else if c = '\r' then ['\\', 'r']
  else if c = '\t' then ['\\', 't']
  else if c.toNat < 0x20 then
    ['\\', 'u', '0', '0', (c.toNat / 16).digitChar, (c.toNat % 16).digitChar]
  else [c]

/-- A string between quotes. -/
def writeString (s : String) : List Char := '\x22' :: (s.toList.flatMap escape ++ ['\x22'])

/-- How values are laid out. -/
inductive Style where
  | compact
  | pretty
deriving DecidableEq, Repr

namespace Style

/-- The style that a `pretty` switch asks for. -/
def ofPretty (pretty : Bool) : Style := if pretty then .pretty else .compact

/-- What stands before an item at this depth. -/
def newline : Style → Nat → List Char
  | compact, _ => []
  | pretty, depth => '\n' :: List.replicate (2 * depth) ' '

/-- What stands between the name and the value of a field. -/
def colon : Style → List Char
  | compact => [':']
  | pretty => [':', ' ']

end Style

mutual
/-- Writes a value that stands at this depth of indentation in front of `rest`. -/
def writeAt (style : Style) (depth : Nat) : Value → List Char → List Char
  | null, rest => 'n' :: 'u' :: 'l' :: 'l' :: rest
  | bool true, rest => 't' :: 'r' :: 'u' :: 'e' :: rest
  | bool false, rest => 'f' :: 'a' :: 'l' :: 's' :: 'e' :: rest
  | number n, rest => n.write ++ rest
  | string s, rest => writeString s ++ rest
  | array [], rest => '[' :: ']' :: rest
  | array (item :: items), rest =>
    '[' :: (style.newline (depth + 1) ++ writeAt style (depth + 1) item
      (writeItems style (depth + 1) items (style.newline depth ++ ']' :: rest)))
  | object [], rest => '\x7b' :: '\x7d' :: rest
  | object (field :: fields), rest =>
    '\x7b' :: (style.newline (depth + 1) ++ writeField style (depth + 1) field
      (writeFields style (depth + 1) fields (style.newline depth ++ '\x7d' :: rest)))

/-- Writes the items of an array after the first. -/
def writeItems (style : Style) (depth : Nat) : List Value → List Char → List Char
  | [], rest => rest
  | item :: items, rest =>
    ',' :: (style.newline depth ++ writeAt style depth item (writeItems style depth items rest))

/-- Writes the fields of an object after the first. -/
def writeFields (style : Style) (depth : Nat) : List (String × Value) → List Char → List Char
  | [], rest => rest
  | field :: fields, rest =>
    ',' :: (style.newline depth ++ writeField style depth field (writeFields style depth fields rest))

def writeField (style : Style) (depth : Nat) : String × Value → List Char → List Char
  | (name, v), rest => writeString name ++ (style.colon ++ writeAt style depth v rest)
end

/-- The text of a value. -/
def write (style : Style) (v : Value) : String := String.ofList (writeAt style 0 v [])

/-! ## Objects -/

/-- An object without the fields that have no value. -/
def objectOf (fields : List (String × Option Value)) : Value :=
  .object (fields.filterMap fun (name, v?) => v?.map fun v => (name, v))

/-- A count as a value. -/
def count (n : Nat) : Value := .number (.ofCount n)

/-- A value, or `null` if there is none. -/
def orNull : Option Value → Value
  | some v => v
  | none => .null

end Value

end TypeBundle.Json
