import TypeBundle.Proofs.Yaml.Text
import TypeBundle.Yaml.Node
/-!
# Outlines are nodes of their documents

From its tokens an outline is built as the node with its scalars, sequences and mappings (`Node.ofOutline`), at every
place where a node is awaited (`builds_of_writable`). So the text of an object is read as its node (`read?_write`).
-/

namespace TypeBundle.Yaml

namespace Node

def ofString (s : String) : Node := .scalar (Style.of s.toList == .plain) s

def ofLiteral : Literal → Node
  | .boolean b => .scalar true (if b then "true" else "false")
  | .number x => .scalar true (String.ofList (NumberLayout.yaml.write x))
  | .string s => ofString s

mutual
/-- The node of an outline. -/
def ofOutline : Outline → Node
  | .word n => .scalar true (String.ofList (Text.decimal n.toNat))
  | .string s => ofString s
  | .literal l => ofLiteral l
  | .list items => .sequence (ofItems items)
  | .object fields => .mapping (ofFields fields)

def ofItems : List Outline → List Node
  | [] => []
  | o :: os => ofOutline o :: ofItems os

def ofFields : List (String × Outline) → List (Node × Node)
  | [] => []
  | field :: fields => ofField field :: ofFields fields

def ofField : String × Outline → Node × Node
  | (name, o) => (.scalar true name, ofOutline o)
end

namespace Frame

/-- Reads more tokens. -/
def feedAll (frames : List Frame) (ts : List Token) : Option (List Frame) := ts.foldlM feed frames

variable {frames outer : List Frame} {after : Node → List Frame} {ts : List Token} {t : Token}

theorem feedAll_cons (frames : List Frame) (t : Token) (ts : List Token) :
    feedAll frames (t :: ts) = (feed frames t).bind (feedAll · ts) := rfl

theorem feedAll_of_feed {frames' : List Frame} (h : feed frames t = some frames') :
    feedAll frames (t :: ts) = feedAll frames' ts := by
  rw [feedAll_cons, h, Option.bind_some]

/-! ## Where a node is awaited -/

/-- A node of any kind is awaited, and the frames are `after` it when it is complete. -/
inductive Awaits : List Frame → (Node → List Frame) → Prop
  | document : Awaits [document] fun n => [complete n]
  | item (items : List Node) (outer : List Frame) :
    Awaits (item .unindented items :: outer) fun n => sequence .unindented (n :: items) :: outer
  | value (entries : List (Node × Node)) (name : Node) (outer : List Frame) :
    Awaits (value .block entries name :: outer) fun n => mapping .block ((name, n) :: entries) :: outer

theorem Awaits.deliver (h : Awaits frames after) (n : Node) : Frame.deliver n frames = some (after n) := by
  cases h <;> rfl

theorem Awaits.feed_scalar (h : Awaits frames after) (plain : Bool) (text : String) :
    feed frames (.scalar plain text) = some (after (.scalar plain text)) := by
  cases h <;> rfl

theorem Awaits.feed_flowSequence (h : Awaits frames after) :
    feed frames .flowSequence = some (Frame.item .flow [] :: frames) := by
  cases h <;> rfl

theorem Awaits.feed_blockMapping (h : Awaits frames after) :
    feed frames .blockMapping = some (mapping .block [] :: frames) := by
  cases h <;> rfl

/-- The outline is built where a node is awaited. -/
def Builds (o : Outline) : Prop := ∀ ⦃frames after⦄, Awaits frames after → ∀ ts,
  feedAll frames (tokensOf o ++ ts) = feedAll (after (ofOutline o)) ts

/-- What may come after a field: another one, or the end of the mapping. -/
def EndsField (t : Token) : Prop := t = .key ∨ t = .blockEnd

/-- The outline is built at the value of a field. A sequence ends only with what comes next. -/
def BuildsValue (o : Outline) : Prop := ∀ entries name outer t ts, EndsField t →
  feedAll (value .block entries name :: outer) (tokensOf o ++ t :: ts) =
    feedAll (mapping .block ((name, ofOutline o) :: entries) :: outer) (t :: ts)

theorem Builds.value {o : Outline} (h : Builds o) : BuildsValue o := fun entries name outer t ts _ =>
  h (.value entries name outer) (t :: ts)

theorem builds_scalar {o : Outline} {plain : Bool} {text : String} (htokens : tokensOf o = [.scalar plain text])
    (hnode : ofOutline o = .scalar plain text) : Builds o := fun frames after h ts => by
  rw [htokens, hnode, List.singleton_append, feedAll_of_feed (h.feed_scalar plain text)]

theorem builds_literal (l : Literal) : Builds (.literal l) := by
  cases l <;> exact builds_scalar rfl rfl

/-! ## Lists -/

theorem builds_noItems : Builds (.list []) := fun frames after h ts => by
  have hend : feed (item .flow [] :: frames) .flowSequenceEnd = some (after (.sequence [])) := h.deliver _
  rw [tokensOf, List.cons_append, feedAll_of_feed h.feed_flowSequence, List.singleton_append, feedAll_of_feed hend]
  rfl

theorem feedAll_items {items : List Outline} (hitems : ∀ o ∈ items, Builds o) (built : List Node) (ts : List Token) :
    feedAll (sequence .unindented built :: outer) (itemTokens items ++ ts) =
      feedAll (sequence .unindented ((ofItems items).reverse ++ built) :: outer) ts := by
  induction items generalizing built with
  | nil => rfl
  | cons o os ih =>
    rw [List.forall_mem_cons] at hitems
    have hentry : feed (sequence .unindented built :: outer) .entry = some (item .unindented built :: outer) := rfl
    rw [itemTokens, List.cons_append, List.append_assoc, feedAll_of_feed hentry, hitems.1 (.item built outer),
      ih hitems.2, ofItems, List.reverse_cons, List.append_assoc, List.singleton_append]

/-- A sequence at the column of its field ends before the next field. -/
theorem feed_endsField {entries : List (Node × Node)} {name : Node} {built : List Node} (ht : EndsField t) :
    feed (sequence .unindented built :: value .block entries name :: outer) t =
      feed (mapping .block ((name, .sequence built.reverse) :: entries) :: outer) t := by
  rcases ht with rfl | rfl <;> rfl

theorem buildsValue_list {items : List Outline} (hitems : ∀ o ∈ items, Builds o) : BuildsValue (.list items) := by
  cases items with
  | nil => exact builds_noItems.value
  | cons o os =>
    intro entries name outer t ts ht
    -- the first dash begins the sequence
    have hfirst : feed (value .block entries name :: outer) .entry =
      feed (sequence .unindented [] :: value .block entries name :: outer) .entry := rfl
    have hbegin : feedAll (value .block entries name :: outer) (itemTokens (o :: os) ++ t :: ts) =
        feedAll (sequence .unindented [] :: value .block entries name :: outer) (itemTokens (o :: os) ++ t :: ts) := by
      rw [itemTokens, List.cons_append, feedAll_cons, hfirst, ← feedAll_cons]
    rw [tokensOf, ← itemTokens, hbegin, feedAll_items hitems, feedAll_cons, List.append_nil, feed_endsField ht,
      List.reverse_reverse, ← feedAll_cons, ofOutline]

/-! ## Objects -/

theorem endsField_fieldTokens (fields : List (String × Outline)) (ts : List Token) :
    ∃ t ts', EndsField t ∧ fieldTokens fields ++ .blockEnd :: ts = t :: ts' := by
  cases fields with
  | nil => exact ⟨.blockEnd, ts, .inr rfl, rfl⟩
  | cons field fields =>
    obtain ⟨name, o⟩ := field
    exact ⟨.key, _, .inl rfl, rfl⟩

theorem feedAll_fields {fields : List (String × Outline)} (hvalues : ∀ f ∈ fields, BuildsValue f.2)
    (entries : List (Node × Node)) (ts : List Token) :
    feedAll (mapping .block entries :: outer) (fieldTokens fields ++ .blockEnd :: ts) =
      feedAll (mapping .block ((ofFields fields).reverse ++ entries) :: outer) (.blockEnd :: ts) := by
  induction fields generalizing entries with
  | nil => rfl
  | cons field fields ih =>
    obtain ⟨name, o⟩ := field
    rw [List.forall_mem_cons] at hvalues
    have hkey : feed (mapping .block entries :: outer) .key = some (key .block entries :: outer) := rfl
    have hname : feed (key .block entries :: outer) (.scalar true name) =
      some (named .block entries (.scalar true name) :: outer) := rfl
    have hcolon : feed (named .block entries (.scalar true name) :: outer) .value =
      some (value .block entries (.scalar true name) :: outer) := rfl
    obtain ⟨t, ts', ht, hnext⟩ := endsField_fieldTokens fields ts
    rw [fieldTokens, oneFieldTokens, List.append_assoc, List.cons_append, List.cons_append, List.cons_append,
      feedAll_of_feed hkey, feedAll_of_feed hname, feedAll_of_feed hcolon, hnext, hvalues.1 _ _ _ t ts' ht, ← hnext,
      ih hvalues.2, ofFields, ofField, List.reverse_cons, List.append_assoc, List.singleton_append]

theorem builds_object {fields : List (String × Outline)} (hvalues : ∀ f ∈ fields, BuildsValue f.2) :
    Builds (.object fields) := fun frames after h ts => by
  have hend (entries : List (Node × Node)) :
      feed (mapping .block entries :: frames) .blockEnd = some (after (.mapping entries.reverse)) := h.deliver _
  rw [tokensOf, List.cons_append, List.append_assoc, List.singleton_append, feedAll_of_feed h.feed_blockMapping,
    feedAll_fields hvalues, feedAll_of_feed (hend _), List.append_nil, List.reverse_reverse, ofOutline]

/-! ## Outlines -/

/-- An outline is built at the value of a field, and if it is no list wherever a node is awaited. -/
theorem builds_of_writable {o : Outline} (ho : Writable o) : BuildsValue o ∧ (isList o = false → Builds o) := by
  induction ho with
  | word n => exact ⟨(builds_scalar rfl rfl).value, fun _ => builds_scalar rfl rfl⟩
  | string s => exact ⟨(builds_scalar rfl rfl).value, fun _ => builds_scalar rfl rfl⟩
  | literal l => exact ⟨(builds_literal l).value, fun _ => builds_literal l⟩
  | list _ hlists ih => exact ⟨buildsValue_list fun o ho => (ih o ho).2 (hlists o ho), nofun⟩
  | object _ _ _ ih =>
    have hobject := builds_object fun f hf => (ih f hf).1
    exact ⟨hobject.value, fun _ => hobject⟩

end Frame

/-- The text of an object is read as its node. -/
theorem read?_write {fields : List (String × Outline)} (ho : Writable (.object fields)) :
    read? (write (.object fields)) = some (ofOutline (.object fields)) := by
  have hbuilds := (Frame.builds_of_writable ho).2 rfl .document []
  have hstart : Frame.feedAll [.start] (tokensOf (.object fields)) =
      Frame.feedAll [.document] (tokensOf (.object fields)) := rfl
  rw [List.append_nil, ← hstart] at hbuilds
  rw [read?, ofText?_write ho, Option.bind_some, ofTokens?]
  exact congrArg (Option.bind · Frame.finish) hbuilds

end Node

end TypeBundle.Yaml
