import TypeBundle.Yaml.Character
import TypeBundle.Yaml.Plain
/-!
# Styles of scalars

How a string is written as a scalar. Plain if it reads back as itself; else between single quotes; else
between double quotes, where every character can be escaped. A string with line feeds is a literal block
if its lines allow it. `Style.of` chooses, and `scalar` writes.
-/

namespace TypeBundle.Yaml

inductive Style where
  | plain
  | single
  | double
  | literal
deriving DecidableEq, Repr

namespace Style

/-- The characters with which no plain scalar begins. -/
def isIndicator (c : Char) : Bool :=
  isFlowIndicator c || ['#', '&', '*', '!', '|', '>', '\'', '\x22', '%', '@', '`'].contains c

/-- Whether no space stands before a break. -/
def noSpaceBeforeBreak : List Char → Bool
  | c :: d :: cs => !(c == ' ' && isBreak d) && noSpaceBeforeBreak (d :: cs)
  | _ => true

/-- Whether no space stands after a break. -/
def noSpaceAfterBreak : List Char → Bool
  | c :: d :: cs => !(isBreak c && d == ' ') && noSpaceAfterBreak (d :: cs)
  | _ => true

/-- Whether the text goes on without a comment or the end of a key, after a character that is a
space or not. -/
def flows (afterSpace : Bool) : List Char → Bool
  | [] => true
  | c :: cs =>
    !(c == ':' && endsWord cs) && !(c == '#' && afterSpace) && !isBreak c && isPrintable c &&
      flows (c == ' ') cs

/-- Whether a scalar may begin like this without quotes. -/
def beginsPlain : List Char → Bool
  | [] => false
  | '-' :: '-' :: '-' :: _ => false
  | '.' :: '.' :: '.' :: _ => false
  | c :: cs =>
    c != ' ' && !isIndicator c && !((c == '-' || c == '?' || c == ':') && endsWord cs)

/-- Whether a plain scalar can show the text. -/
def showsPlain (text : List Char) : Bool :=
  beginsPlain text && text.getLast? != some ' ' && flows false text

/-- Whether single quotes can show the text. -/
def showsSingle (text : List Char) : Bool :=
  text.all isPrintable && noSpaceBeforeBreak text && noSpaceAfterBreak text

/-- Whether a literal block can show the text. -/
def showsLiteral (text : List Char) : Bool :=
  text.all isPrintable && noSpaceBeforeBreak text && text.getLast? != some ' '

/-- Whether a plain scalar with this text is a string without doubt. Digits with a leading zero are
one, but not to every reader. -/
def isPlainString (text : List Char) : Bool :=
  Plain.meaning text == .string && !Plain.hasLeadingZero text

/-- The style of a string. -/
def of (text : List Char) : Style :=
  if text.contains '\n' then (if showsLiteral text then literal else double)
  else if isPlainString text && showsPlain text then plain
  else if showsSingle text then single
  else double

end Style

/-! ## Writing -/

def spaces (n : Nat) : List Char := List.replicate n ' '

/-- The text with `column` spaces before every line that is not empty; `fresh` tells whether a line
begins with the first character. -/
def indentLines (column : Nat) (fresh : Bool) : List Char → List Char
  | [] => []
  | c :: cs =>
    if isBreak c then c :: indentLines column true cs
    else (if fresh then spaces column else []) ++ c :: indentLines column false cs

/-- Whether the last character is a break. -/
def endsWithBreak (text : List Char) : Bool := text.getLast?.any isBreak

/-- The text between single quotes, where a quote is written twice. -/
def single (column : Nat) (text : List Char) : List Char :=
  let doubled := text.flatMap fun c => if c = '\'' then ['\'', '\''] else [c]
  '\'' :: (indentLines column false doubled ++
    ((if endsWithBreak text then spaces column else []) ++ ['\'']))

/-- The letter of a one-letter escape. -/
def escapeLetter? (c : Char) : Option Char :=
  [('\x00', '0'), ('\x07', 'a'), ('\x08', 'b'), ('\t', 't'), ('\n', 'n'), ('\x0b', 'v'), ('\x0c', 'f'),
    ('\r', 'r'), ('\x1b', 'e'), ('\x22', '\x22'), ('\\', '\\'), ('\u0085', 'N'), ('\u2028', 'L'),
    ('\u2029', 'P')].lookup c

/-- The hexadecimal digits of a number in capital letters, at least `width` of them. -/
def hexDigits (width n : Nat) : List Char :=
  let digits := (Text.digits 16 n).map Char.toUpper
  List.replicate (width - digits.length) '0' ++ digits

/-- A character between double quotes. -/
def escaped (c : Char) : List Char :=
  match escapeLetter? c with
  | some letter => ['\\', letter]
  | none =>
    if isPrintable c then [c]
    else if c.toNat ≤ 0xFF then '\\' :: 'x' :: hexDigits 2 c.toNat
    else if c.toNat ≤ 0xFFFF then '\\' :: 'u' :: hexDigits 4 c.toNat
    else '\\' :: 'U' :: hexDigits 8 c.toNat

/-- The text between double quotes. -/
def double (text : List Char) : List Char := '\x22' :: (text.flatMap escaped ++ ['\x22'])

/-- The sign in the header of a literal block that says what becomes of the breaks at its end. -/
def chompingSign (text : List Char) : List Char :=
  match text.reverse with
  | [] => ['-']
  | c :: cs =>
    if isBreak c then
      match cs with
      | [] => ['+']
      | d :: _ => if isBreak d then ['+'] else []
    else ['-']

/-- The header of a literal block. Its indentation is given if its first line does not show it. -/
def literalHeader (text : List Char) : List Char :=
  '|' :: ((if text.head?.any (fun c => c == ' ' || isBreak c) then ['2'] else []) ++ chompingSign text)

/-- The text as a literal block with its lines at `column`, up to the end of its last line. -/
def literal (column : Nat) (text : List Char) : List Char :=
  literalHeader text ++ '\n' :: (indentLines column true text ++
    if endsWithBreak text then [] else ['\n'])

/-- A string as a scalar up to the end of its last line, with further lines at `column`. -/
def scalar (column : Nat) (text : List Char) : List Char :=
  match Style.of text with
  | .plain => text ++ ['\n']
  | .single => single column text ++ ['\n']
  | .double => double text ++ ['\n']
  | .literal => literal column text

end TypeBundle.Yaml
