import TypeBundle.Flags.Basic
/-!
# Flag texts

A set is written as the names of its flags in bit order, joined by bars, with the bits that have no
name last as one hexadecimal number: `OBJECT | 0x80000000`. Reading takes the parts in any order and
any number of times; the first bad part decides the fault.
-/

namespace TypeBundle

/-- Why a flag text is refused. -/
inductive FlagFault where
  | emptyPart
  | badHex (digits : String)
  | unknownName (name : String)
deriving DecidableEq, Repr

/-- The wording of a fault. -/
def FlagFault.message : FlagFault → String
  | emptyPart => "encountered empty flag"
  | badHex digits => "invalid hex flag `" ++ digits ++ "`"
  | unknownName name => "unrecognized named flag `" ++ name ++ "`"

namespace Flags

variable {v : Vocabulary}

/-- The parts of the text of a set. -/
def parts (a : Flags v) : List String :=
  v.names.zipIdx.filterMap (fun (name, bit) => if a.has bit then some name else none) ++
    if a.unnamed = 0 then [] else ["0x" ++ String.ofList (Text.digits 16 a.unnamed)]

/-- The text of a set. -/
def text (a : Flags v) : String := " | ".intercalate a.parts

/-- The set as messages show it, with its vocabulary. -/
def debug (a : Flags v) : String :=
  v.label ++ "(" ++ (if a.isEmpty then "0x0" else a.text) ++ ")"

/-- The flag or flags that one part of a text names. -/
def ofPart (part : List Char) : Except FlagFault (Flags v) :=
  match part with
  | [] => .error .emptyPart
  | '0' :: 'x' :: digits =>
    match Text.readSigned? 16 digits with
    | some n => if n < 0x100000000 then .ok ⟨n.toUInt32⟩ else .error (.badHex (String.ofList digits))
    | none => .error (.badHex (String.ofList digits))
  | _ =>
    match v.names.findIdx? (· == String.ofList part) with
    | some bit => .ok (.single bit.toUInt32)
    | none => .error (.unknownName (String.ofList part))

/-- The set that a text names. -/
def parse (text : String) : Except FlagFault (Flags v) :=
  let cs := Text.trim text.toList
  if cs = [] then .ok empty
  else (Text.pieces '|' cs).foldlM (fun a part => return a ||| (← ofPart (Text.trim part))) empty

end Flags

end TypeBundle
