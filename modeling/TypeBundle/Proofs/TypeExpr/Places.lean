import TypeBundle.Proofs.Bundle.Wire
/-!
# Records that a text names

The text of an expression can be read for the records that it names, without reading the expression: what a place of the
text stands for follows from the form of the object around it and the name of the field (`Role.field`). Read from left
to right, the places that name records name the references of the expression, in order and as often
(`references_of_text`).
-/

namespace TypeBundle

open Json (Tree Value spelled)

/-- What a place of a text stands for. -/
inductive Role where
  | expression
  /-- The id of a record that is applied to arguments. -/
  | target
  | signature
  | generic
  | parameter
  | member
  /-- An object with a member for each name. -/
  | members
  | list (item : Role)
  /-- Nothing that names a record. -/
  | other

namespace Role

/-- The items of a list. -/
def item : Role → Role
  | list role => role
  | _ => other

/-- The fields of an expression of this form in which records may be named. -/
def fieldsOfForm : String → List (String × Role)
  | "union" | "intersection" => [("members", list expression)]
  | "tuple" => [("member", list expression)]
  | "index" => [("keyOf", expression)]
  | "index-access" => [("object", expression), ("index", expression), ("constraint", expression)]
  | "interface" =>
    [("bases", list expression), ("callSignatures", list signature), ("constructionSignatures", list signature),
      ("properties", members)]
  | "ref" => [("targetId", target), ("typeArguments", list expression)]
  | _ => []

/-- The fields of an object with this role in which records may be named; only expressions come in several forms. -/
def fields (form? : Option String) : Role → List (String × Role)
  | expression => (form?.map fieldsOfForm).getD []
  | signature => [("typeParameters", list generic), ("parameters", list parameter), ("returnType", expression)]
  | generic => [("constraint", expression)]
  | parameter | member => [("type", expression)]
  | _ => []

def field (form? : Option String) (role : Role) (name : String) : Role :=
  match role with
  | members => member
  | _ => ((role.fields form?).lookup name).getD other

/-- The form that an object has if it is an expression: its type, unless it is a primitive. -/
def form? (fields : List (Option String × Tree)) : Option String :=
  if fields.any (·.1 == some "kind") then none
  else (fields.find? (·.1 == some "type")).bind fun field => Document.string? field.2

end Role

namespace Json.Tree

mutual
/-- The records that are named at a place with this role, from left to right. -/
def named (role : Role) : Tree → List BundleId
  | null | bool _ | string _ => []
  | number t =>
    match role with
    | .expression | .target => (TypeExpr.id? (number t)).toList
    | _ => []
  | array items => namedInItems role.item items
  | object fields => namedInFields (role.field (Role.form? fields)) fields

def namedInItems (role : Role) : List Tree → List BundleId
  | [] => []
  | t :: ts => named role t ++ namedInItems role ts

def namedInFields (role : String → Role) : List (Option String × Tree) → List BundleId
  | [] => []
  | field :: fields => namedInField role field ++ namedInFields role fields

def namedInField (role : String → Role) : Option String × Tree → List BundleId
  | (some name, t) => named (role name) t
  | (none, _) => []
end

variable {role : Role}

theorem named_array (items : List Value) :
    (spelled (.array items)).named role = items.flatMap fun v => (spelled v).named role.item := by
  rw [spelled, ofValue, Reading.ofValues_eq, named]
  induction items with
  | nil => simp [namedInItems]
  | cons v vs ih => simp [namedInItems, ih]

theorem namedInFields_spelled (f : String → Role) (fields : List (String × Value)) :
    namedInFields f (fields.map (ofField Number.numeral)) =
      fields.flatMap fun field => (spelled field.2).named (f field.1) := by
  induction fields with
  | nil => simp [namedInFields]
  | cons field fields ih =>
    obtain ⟨name, v⟩ := field
    simp [namedInFields, ofField, namedInField, ih]

theorem named_object (fields : List (String × Value)) :
    (spelled (.object fields)).named role = fields.flatMap fun field =>
      (spelled field.2).named (role.field (Role.form? (fields.map (ofField Number.numeral))) field.1) := by
  rw [spelled, ofValue, Reading.ofFields_eq, named, namedInFields_spelled]

/-- Where nothing is expected to name a record nothing does. -/
theorem named_other (v : Value) : (spelled v).named .other = [] := by
  induction v using Value.itemInduction with
  | null | bool b | number n | string s => simp [ofValue, named]
  | array items ih => simpa [named_array, Role.item] using ih
  | object fields ih => simpa [named_object, Role.field, Role.fields, List.lookup_cons] using ih

theorem form?_kind (v : Value) (fields : List (String × Value)) :
    Role.form? ((("kind", v) :: fields).map (ofField Number.numeral)) = none := by
  simp [Role.form?, ofField]

theorem form?_type {form : String} {fields : List (String × Value)} (h : ∀ field ∈ fields, field.1 ≠ "kind") :
    Role.form? ((("type", .string form) :: fields).map (ofField Number.numeral)) = some form := by
  have hkind : fields.any (fun field => (ofField Number.numeral field).1 == some "kind") = false := by
    rw [List.any_eq_false]
    rintro ⟨name, v⟩ hfield
    simpa [ofField] using h _ hfield
  simp [Role.form?, ofField, ofValue, Document.string?, hkind, Function.comp_def]

/-- An object with a kind is a primitive and names no record. -/
theorem named_primitive (v : Value) (fields : List (String × Value)) :
    (spelled (.object (("kind", v) :: fields))).named .expression = [] := by
  rw [named_object, form?_kind]
  simp [Role.field, Role.fields, named_other]

/-- An object with a type names what its other fields name. -/
theorem named_tagged {form : String} {fields : List (String × Value)} (h : ∀ field ∈ fields, field.1 ≠ "kind") :
    (spelled (.object (("type", .string form) :: fields))).named .expression =
      fields.flatMap fun field => (spelled field.2).named (((Role.fieldsOfForm form).lookup field.1).getD .other) := by
  have htype : ((Role.fieldsOfForm form).lookup "type").getD .other = .other := by
    unfold Role.fieldsOfForm
    split <;> rfl
  rw [named_object, form?_type h, List.flatMap_cons]
  simp [Role.field, Role.fields, htype, named_other]

end Json.Tree

namespace TypeExpr

open Json.Tree

theorem named_encodeId {role : Role} (h : role = .expression ∨ role = .target) (id : BundleId) :
    (spelled (encodeId id)).named role = [id] := by
  have hid := id?_spelled id
  rw [encodeId, spelled, ofValue] at hid ⊢
  rcases h with rfl | rfl <;> simp [named, hid]

/-- The records that the text of the expression names where an expression stands are its references. -/
def NamesReferences (e : TypeExpr) : Prop := (spelled e.encode).named .expression = e.references

theorem named_list {α : Type} {make : α → Value} {role : Role} {names : α → List BundleId} {as : List α}
    (h : ∀ a ∈ as, (spelled (make a)).named role = names a) :
    (spelled (.array (as.map make))).named (.list role) = as.flatMap names := by
  rw [named_array, List.flatMap_map]
  exact List.flatMap_congr h

theorem named_encodeList {es : List TypeExpr} (h : ∀ e ∈ es, e.NamesReferences) :
    (spelled (.array (encodeList es))).named (.list .expression) = es.flatMap references := by
  rw [encodeList_eq]
  exact named_list h

theorem named_generic {g : Generic TypeExpr} (h : ∀ c ∈ g.constraint?, c.NamesReferences) :
    (spelled (encodeGeneric g)).named .generic = g.constraint?.toList.flatMap references := by
  obtain ⟨id, constraint?⟩ := g
  cases constraint? with
  | none => simp [encodeGeneric, encodeConstraint, named_object, Role.field, Role.fields, List.lookup_cons, named_other]
  | some c =>
    have hc : (spelled c.encode).named .expression = c.references := h c rfl
    simp [encodeGeneric, encodeConstraint, named_object, Role.field, Role.fields, List.lookup_cons, named_other, hc]

theorem named_parameter {p : Parameter TypeExpr} (h : p.type.NamesReferences) :
    (spelled (encodeParameter p)).named .parameter = p.type.references := by
  obtain ⟨name, type, optional⟩ := p
  have htype : (spelled type.encode).named .expression = type.references := h
  simp [encodeParameter, named_object, Role.field, Role.fields, List.lookup_cons, named_other, htype]

theorem named_member {m : Member TypeExpr} (h : m.type.NamesReferences) :
    (spelled (encodeMember m).2).named .member = m.type.references := by
  obtain ⟨name, type, optional, readonly⟩ := m
  have htype : (spelled type.encode).named .expression = type.references := h
  simp [encodeMember, named_object, Role.field, Role.fields, List.lookup_cons, named_other, htype]

theorem named_signature {s : Signature TypeExpr} (h : ∀ c ∈ s.parts, c.NamesReferences) :
    (spelled (encodeSignature s)).named .signature = s.parts.flatMap references := by
  obtain ⟨generics, parameters, returnType⟩ := s
  obtain ⟨hgenerics, hparameters, hreturn⟩ := Signature.forall_parts.1 h
  have hgenericList : (spelled (.array (encodeGenerics generics))).named (.list .generic) =
      (generics.filterMap (·.constraint?)).flatMap references := by
    rw [encodeGenerics_eq, List.filterMap_eq_flatMap_toList, List.flatMap_assoc]
    exact named_list fun g hg => named_generic (hgenerics g hg)
  have hparameterList : (spelled (.array (encodeParameters parameters))).named (.list .parameter) =
      (parameters.map (·.type)).flatMap references := by
    rw [encodeParameters_eq, List.flatMap_map]
    exact named_list fun p hp => named_parameter (hparameters p hp)
  have hreturn : (spelled returnType.encode).named .expression = returnType.references := hreturn
  simp [encodeSignature, named_object, Role.field, Role.fields, List.lookup_cons, Signature.parts, hgenericList,
    hparameterList, hreturn]

theorem named_shape {s : Shape TypeExpr} (h : ∀ c ∈ s.parts, c.NamesReferences) :
    (spelled (shape s).encode).named .expression = s.parts.flatMap references := by
  obtain ⟨isClass, bases, calls, constructs, members⟩ := s
  obtain ⟨hbases, hcalls, hconstructs, hmembers⟩ := Shape.forall_parts.1 h
  have hbaseList := named_encodeList hbases
  have hsignatureList {ss : List (Signature TypeExpr)} (hss : ∀ s ∈ ss, ∀ c ∈ s.parts, c.NamesReferences) :
      (spelled (.array (encodeSignatures ss))).named (.list .signature) =
        (ss.flatMap Signature.parts).flatMap references := by
    rw [encodeSignatures_eq, List.flatMap_assoc]
    exact named_list fun s hs => named_signature (hss s hs)
  have hmemberList : (spelled (.object (encodeMembers members))).named .members =
      (members.map (·.type)).flatMap references := by
    rw [encodeMembers_eq, named_object, List.flatMap_map, List.flatMap_map]
    exact List.flatMap_congr fun m hm => named_member (hmembers m hm)
  rw [encode, named_tagged (by simp [encodeShape])]
  simp [encodeShape, Role.fieldsOfForm, List.lookup_cons, Shape.parts, named_other, hbaseList, hsignatureList hcalls,
    hsignatureList hconstructs, hmemberList]

/-- The text of an expression names its references. -/
theorem namesReferences (e : TypeExpr) : e.NamesReferences := by
  induction e using childInduction with
  | h e ih =>
    rw [NamesReferences, references_eq]
    cases e with
    | record id => simp [encode, named_encodeId, target?, children]
    | primitive kind literal? => cases literal? <;> simp [encode, named_primitive, target?, children]
    | union ms | intersection ms | tuple ms =>
      have hlist : (spelled (.array (encodeList ms))).named (.list .expression) = ms.flatMap references :=
        named_encodeList ih
      simp [encode, named_tagged, Role.fieldsOfForm, List.lookup_cons, target?, children, hlist]
    | keyOf operand =>
      have hoperand : (spelled operand.encode).named .expression = operand.references := ih operand (by simp [children])
      simp [encode, named_tagged, Role.fieldsOfForm, List.lookup_cons, target?, children, hoperand]
    | indexedAccess object index constraint? =>
      have hobject : (spelled object.encode).named .expression = object.references := ih object (by simp [children])
      have hindex : (spelled index.encode).named .expression = index.references := ih index (by simp [children])
      cases constraint? with
      | none =>
        simp [encode, encodeConstraint, named_tagged, Role.fieldsOfForm, List.lookup_cons, target?, children, hobject,
          hindex]
      | some c =>
        have hc : (spelled c.encode).named .expression = c.references := ih c (by simp [children])
        simp [encode, encodeConstraint, named_tagged, Role.fieldsOfForm, List.lookup_cons, target?, children, hobject,
          hindex, hc]
    | shape s =>
      rw [named_shape ih]
      rfl
    | parameter id => simp [encode, named_tagged, Role.fieldsOfForm, target?, children, named_other]
    | application id args =>
      have hlist : (spelled (.array (encodeList args))).named (.list .expression) = args.flatMap references :=
        named_encodeList ih
      simp [encode, named_tagged, Role.fieldsOfForm, List.lookup_cons, target?, children, named_encodeId, hlist]

/-- Whoever reads the text of an expression from left to right, and knows of each place what may stand there, finds the
references of the expression, in order and as often: ids that stand for types, and ids of records that are applied,
before their arguments; no number in the literal of a primitive, and no id of a type parameter. -/
theorem references_of_text (e : TypeExpr) (style : Value.Style) :
    ∃ t, Tree.read? (e.encode.write style) = some t ∧ t.named .expression = e.references :=
  ⟨_, Tree.read?_write Json.Number.spells_numeral style e.encode, e.namesReferences⟩

end TypeExpr

end TypeBundle
