import TypeBundle.Outline
import TypeBundle.Yaml.Style
/-!
# Writing YAML

A document in block style. The items of a list stand at the column of the name before it, and the fields
of an object at the column of its first field; only lists and objects without content are flow
collections. Names of fields are plain words.
-/

namespace TypeBundle.Yaml

/-- The text of a literal up to the end of its last line. -/
def writeLiteral (column : Nat) : Literal → List Char
  | .boolean b => (if b then ['t', 'r', 'u', 'e'] else ['f', 'a', 'l', 's', 'e']) ++ ['\n']
  | .number x => NumberLayout.yaml.write x ++ ['\n']
  | .string s => scalar column s.toList

/-- What stands between the name of a field at `column` and its value. -/
def separator (column : Nat) : Outline → List Char
  | .list (_ :: _) => '\n' :: spaces column
  | .object (_ :: _) => '\n' :: spaces (column + 2)
  | _ => [' ']

/-- The column of the value of a field at `column`. -/
def valueColumn (column : Nat) : Outline → Nat
  | .list (_ :: _) => column
  | _ => column + 2

mutual
/-- The text of a document from `column` on, where its first line is already indented. -/
def writeAt (column : Nat) : Outline → List Char
  | .word n => Text.decimal n.toNat ++ ['\n']
  | .string s => scalar column s.toList
  | .literal l => writeLiteral column l
  | .list [] => ['[', ']', '\n']
  | .list (o :: os) => '-' :: ' ' :: (writeAt (column + 2) o ++ writeItems column os)
  | .object [] => ['\x7b', '\x7d', '\n']
  | .object (field :: fields) => writeField column field ++ writeFields column fields

/-- The items after the first. -/
def writeItems (column : Nat) : List Outline → List Char
  | [] => []
  | o :: os => spaces column ++ '-' :: ' ' :: (writeAt (column + 2) o ++ writeItems column os)

/-- The fields after the first. -/
def writeFields (column : Nat) : List (String × Outline) → List Char
  | [] => []
  | field :: fields => spaces column ++ (writeField column field ++ writeFields column fields)

def writeField (column : Nat) : String × Outline → List Char
  | (name, o) => name.toList ++ ':' :: (separator column o ++ writeAt (valueColumn column o) o)
end

/-- The text of a document. -/
def write (o : Outline) : String := String.ofList (writeAt 0 o)

end TypeBundle.Yaml
