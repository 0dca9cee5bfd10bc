import TypeBundle.Document
import TypeBundle.Yaml.Plain
import TypeBundle.Yaml.Token
/-!
# Nodes of YAML

The structure of a document: scalars, sequences and mappings. `Node.ofTokens?` feeds the tokens to a
stack of collections that are still open; the top of the stack says what may come next. Where an
item, a key or a value is missing an empty scalar takes its place, and a sequence that is not indented
under its key ends where no other item follows.

As a document, a plain scalar without text is also a list without items and an object without fields.
-/

namespace TypeBundle.Yaml

inductive Node where
  | scalar (plain : Bool) (text : String)
  | sequence (items : List Node)
  | mapping (entries : List (Node × Node))

namespace Node

/-- The scalar that takes the place of a missing node. -/
def empty : Node := scalar true ""

instance : Inhabited Node := ⟨empty⟩

/-! ## Structure -/

/-- How a sequence shows where it ends. -/
inductive SequenceStyle where
  | block
  /-- A block sequence that is not indented under its key. -/
  | unindented
  | flow
deriving DecidableEq, Repr

/-- How a mapping shows where it ends. -/
inductive MappingStyle where
  | block
  | flow
  /-- One entry of a flow sequence. -/
  | single
deriving DecidableEq, Repr

/-- What is open, with what it holds so far, the last first. -/
inductive Frame where
  /-- Before the document. -/
  | start
  /-- The node of the document is awaited. -/
  | document
  | complete (n : Node)
  /-- Between the items of a sequence. -/
  | sequence (style : SequenceStyle) (items : List Node)
  /-- An item is awaited. -/
  | item (style : SequenceStyle) (items : List Node)
  /-- Between the entries of a mapping. -/
  | mapping (style : MappingStyle) (entries : List (Node × Node))
  /-- A key is awaited. -/
  | key (style : MappingStyle) (entries : List (Node × Node))
  /-- In a flow mapping, a key or a node that has no value is awaited. -/
  | lone (entries : List (Node × Node))
  /-- A value may follow the key. -/
  | named (style : MappingStyle) (entries : List (Node × Node)) (name : Node)
  /-- The value of a key is awaited. -/
  | value (style : MappingStyle) (entries : List (Node × Node)) (name : Node)

namespace Frame

/-- Puts a complete node where it is awaited. -/
def deliver (n : Node) : List Frame → Option (List Frame)
  | document :: frames => some (complete n :: frames)
  | item style items :: frames => some (sequence style (n :: items) :: frames)
  | key style entries :: frames => some (named style entries n :: frames)
  | lone entries :: frames => some (mapping .flow ((n, Node.empty) :: entries) :: frames)
  | value .single entries name :: frames =>
    deliver (Node.mapping ((name, n) :: entries).reverse) frames
  | value style entries name :: frames => some (mapping style ((name, n) :: entries) :: frames)
  | _ => none

/-- Whether the token ends what is awaited in a sequence. -/
def endsItem (style : SequenceStyle) (t : Token) : Bool :=
  match style with
  | .block => t == .entry || t == .blockEnd
  | .unindented => t == .entry || t == .key || t == .value || t == .blockEnd
  | .flow => false

/-- Whether the token ends what is awaited in a mapping. The end of a flow collection or a comma comes
after a missing value. -/
def endsValue (style : MappingStyle) (t : Token) : Bool :=
  match style with
  | .block => t == .key || t == .value || t == .blockEnd
  | .flow => t == .comma || t == .flowMappingEnd
  | .single => t == .comma || t == .flowSequenceEnd

/-- Whether the token ends a key that is awaited. -/
def endsKey (style : MappingStyle) (t : Token) : Bool :=
  t == .value || endsValue style t

/-- Supplies one missing node, or ends one sequence that is not indented, if the token asks for it. -/
def supply (t : Token) (frames : List Frame) : Option (List Frame) :=
  match frames with
  | document :: _ => if t = .documentStart ∨ t = .documentEnd then deliver .empty frames else some frames
  | sequence .unindented items :: outer =>
    if t = .entry then some frames else deliver (Node.sequence items.reverse) outer
  | item style _ :: _ => if endsItem style t then deliver .empty frames else some frames
  | key style _ :: _ => if endsKey style t then deliver .empty frames else some frames
  | named style entries name :: outer =>
    if t = .value then some frames else deliver .empty (value style entries name :: outer)
  | value style _ _ :: _ => if endsValue style t then deliver .empty frames else some frames
  | _ => some frames

/-- Begins a node. A dash begins a sequence only where it may be unindented. -/
def begin? (block unindented : Bool) (t : Token) (frames : List Frame) : Option (List Frame) :=
  match t with
  | .scalar plain text => deliver (.scalar plain text) frames
  | .flowSequence => some (item .flow [] :: frames)
  | .flowMapping => some (lone [] :: frames)
  | .blockSequence => if block then some (sequence .block [] :: frames) else none
  | .blockMapping => if block then some (mapping .block [] :: frames) else none
  | .entry => if unindented then some (item .unindented [] :: frames) else none
  | _ => none

/-- Takes a token when nothing is missing before it. -/
def take (t : Token) (frames : List Frame) : Option (List Frame) :=
  match frames with
  | [] => none
  | start :: outer =>
    if t = .documentStart then some (document :: outer) else begin? true false t (document :: outer)
  | document :: _ => begin? true false t frames
  | complete _ :: _ => if t = .documentEnd then some frames else none
  | sequence .block items :: outer =>
    if t = .entry then some (item .block items :: outer)
    else if t = .blockEnd then deliver (.sequence items.reverse) outer
    else none
  | sequence .unindented items :: outer =>
    if t = .entry then some (item .unindented items :: outer) else none
  | sequence .flow items :: outer =>
    if t = .comma then some (item .flow items :: outer)
    else if t = .flowSequenceEnd then deliver (.sequence items.reverse) outer
    else none
  | item .flow items :: outer =>
    if t = .flowSequenceEnd then deliver (.sequence items.reverse) outer
    else if t = .key then some (key .single [] :: frames)
    else begin? false false t frames
  | item _ _ :: _ => begin? true false t frames
  | mapping .block entries :: outer =>
    if t = .key then some (key .block entries :: outer)
    else if t = .blockEnd then deliver (.mapping entries.reverse) outer
    else none
  | mapping .flow entries :: outer =>
    if t = .comma then some (lone entries :: outer)
    else if t = .flowMappingEnd then deliver (.mapping entries.reverse) outer
    else none
  | mapping .single _ :: _ => none
  | lone entries :: outer =>
    if t = .flowMappingEnd then deliver (.mapping entries.reverse) outer
    else if t = .key then some (key .flow entries :: outer)
    else begin? false false t frames
  | key .block _ :: _ => begin? true true t frames
  | key _ _ :: _ => begin? false false t frames
  | named style entries name :: outer =>
    if t = .value then some (value style entries name :: outer) else none
  | value .block _ _ :: _ => begin? true true t frames
  | value _ _ _ :: _ => begin? false false t frames

/-- Reads one more token. At most four steps come before it: an item, the end of its sequence, and the
value of the key that the sequence was. -/
def feed (frames : List Frame) (t : Token) : Option (List Frame) := do
  let frames ← supply t frames
  let frames ← supply t frames
  let frames ← supply t frames
  let frames ← supply t frames
  take t frames

/-- The node of the document, if it may end here. A stream without documents has an empty one. -/
def finish (frames : List Frame) : Option Node :=
  match frames with
  | [start] => some .empty
  | [document] => some .empty
  | [complete n] => some n
  | _ => none

end Frame

/-- The node that the tokens of a document describe. -/
def ofTokens? (tokens : List Token) : Option Node :=
  (tokens.foldlM Frame.feed [.start]).bind Frame.finish

/-- Reads a document. -/
def read? (text : String) : Option Node := (Token.ofText? text.toList).bind ofTokens?

/-! ## Documents -/

/-- A structure names its fields here. -/
instance : Document Node where
  fields?
    | mapping entries => entries.mapM fun
      | (scalar _ name, n) => some (name, n)
      | _ => none
    | scalar true "" => some []
    | _ => none
  items?
    | sequence items => some items
    | scalar true "" => some []
    | _ => none
  unnamed? _ := none
  isNull
    | scalar true text => Plain.isNull text.toList
    | _ => false
  nat?
    | scalar true text => Plain.natural? text.toList
    | _ => none
  bool?
    | scalar true text => Plain.bool? text.toList
    | _ => none
  string?
    | scalar _ text => some text
    | _ => none
  literal?
    | scalar true text => Plain.literal? text
    | scalar false text => some (.string text)
    | _ => none

end Node

end TypeBundle.Yaml
