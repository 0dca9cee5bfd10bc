import TypeBundle.Proofs.Document
import TypeBundle.Proofs.Json.Value
import TypeBundle.Proofs.TypeExpr.Children
import TypeBundle.Proofs.TypeExpr.Members
import TypeBundle.TypeExpr.Wire
/-!
# Type expressions are read as they were written

Texts stand for expressions whose members are in order and whose literals are values other than `null`, with their
fields in order. Such an expression is read from its own value (`decode?_encode`), and whatever is read is such an
expression (`decode?_sound`).
-/

namespace TypeBundle

open Json (Value)
open Document

namespace TypeExpr

/-! ## Objects -/

@[simp] theorem fieldsOf?_object (names : List String) (fields : List (String × Value)) :
    fieldsOf? names (Value.object fields) = some fields :=
  fieldsOf?_of_fields? rfl

theorem Form.of?_tag (form : Form) : Form.of? (Value.string form.tag) = some form := by
  cases form <;> rfl

/-! ## Written lists -/

section Lists

theorem encodeList_eq (es : List TypeExpr) : encodeList es = es.map encode := by
  induction es with
  | nil => simp [encodeList]
  | cons e es ih => simp [encodeList, ih]

theorem encodeSignatures_eq (ss : List (Signature TypeExpr)) : encodeSignatures ss = ss.map encodeSignature := by
  induction ss with
  | nil => simp [encodeSignatures]
  | cons s ss ih => simp [encodeSignatures, ih]

theorem encodeGenerics_eq (gs : List (Generic TypeExpr)) : encodeGenerics gs = gs.map encodeGeneric := by
  induction gs with
  | nil => simp [encodeGenerics]
  | cons g gs ih => simp [encodeGenerics, ih]

theorem encodeParameters_eq (ps : List (Parameter TypeExpr)) : encodeParameters ps = ps.map encodeParameter := by
  induction ps with
  | nil => simp [encodeParameters]
  | cons p ps ih => simp [encodeParameters, ih]

theorem encodeMembers_eq (ms : List (Member TypeExpr)) : encodeMembers ms = ms.map encodeMember := by
  induction ms with
  | nil => simp [encodeMembers]
  | cons m ms ih => simp [encodeMembers, ih]

end Lists

/-! ## Readable expressions -/

/-- Members are in order, and a literal is a value other than `null` with its fields in order. -/
def OwnReadable : TypeExpr → Prop
  | primitive _ literal? => ∀ v ∈ literal?, v ≠ .null ∧ v.InOrder
  | shape s => Member.Ascending s.members
  | _ => True

/-- The expression is one that a text can stand for. -/
def Readable (e : TypeExpr) : Prop := ∀ c ∈ e.subterms, c.OwnReadable

theorem readable_iff {e : TypeExpr} : e.Readable ↔ e.OwnReadable ∧ ∀ c ∈ e.children, c.Readable := by
  simp only [Readable, subterms_eq e, List.forall_mem_cons, List.mem_flatMap, forall_exists_index, and_imp]
  exact and_congr_right fun _ => ⟨fun h c hc d hd => h d c hc hd, fun h d c hc hd => h c hc d hd⟩

/-! ## Reading what was written -/

@[simp] theorem id?_encodeId (id : BundleId) : id? (encodeId id) = some id := by
  obtain ⟨n⟩ := id
  have hn := n.toNat_lt
  simp [encodeId, id?, word32?, Document.nat?, Json.Number.ofUInt32, Json.Number.toNat?, hn]

theorem isNull_encode (e : TypeExpr) : isNull e.encode = false := by
  cases e with
  | primitive kind literal? => cases literal? <;> simp [encode, isNull]
  | _ => simp [encode, encodeId, isNull]

section Parts

variable {read : Value → Option TypeExpr}

theorem generic?_encode {g : Generic TypeExpr} (h : ∀ c ∈ g.constraint?, read c.encode = some c) :
    generic? read (encodeGeneric g) = some g := by
  obtain ⟨id, constraint?⟩ := g
  cases constraint? with
  | none => simp [generic?, encodeGeneric, encodeConstraint, required, Document.optional, lookup?]
  | some c =>
    have hc := h c rfl
    simp [generic?, encodeGeneric, encodeConstraint, required, Document.optional, lookup?, isNull_encode, hc]

theorem parameter?_encode {p : Parameter TypeExpr} (h : read p.type.encode = some p.type) :
    parameter? read (encodeParameter p) = some p := by
  obtain ⟨name, type, optional⟩ := p
  simp [parameter?, encodeParameter, required, lookup?, string?, bool?, h]

theorem list?_encode {α : Type} {make : α → Value} {of? : Value → Option α} {as : List α}
    (h : ∀ a ∈ as, of? (make a) = some a) : list? of? (Value.array (as.map make)) = some as := by
  simpa [list?, items?] using mapM_map (f := id) h

theorem list?_encodeList {es : List TypeExpr} (h : ∀ e ∈ es, read e.encode = some e) :
    list? read (.array (encodeList es)) = some es := by
  rw [encodeList_eq]
  exact list?_encode h

theorem signature?_encode {s : Signature TypeExpr} (h : ∀ c ∈ s.parts, read c.encode = some c) :
    signature? read (encodeSignature s) = some s := by
  obtain ⟨generics, parameters, returnType⟩ := s
  obtain ⟨hgenerics, hparameters, hreturn⟩ := Signature.forall_parts.1 h
  have hlist : list? (generic? read) (.array (generics.map encodeGeneric)) = some generics :=
    list?_encode fun g hg => generic?_encode (hgenerics g hg)
  have hlist' : list? (parameter? read) (.array (parameters.map encodeParameter)) = some parameters :=
    list?_encode fun p hp => parameter?_encode (hparameters p hp)
  simp [signature?, encodeSignature, required, lookup?, encodeGenerics_eq, encodeParameters_eq, hlist, hlist',
    hreturn]

theorem member?_encode {m : Member TypeExpr} (h : read m.type.encode = some m.type) :
    member? read (encodeMember m).1 (encodeMember m).2 = some m := by
  obtain ⟨name, type, optional, readonly⟩ := m
  simp [member?, encodeMember, required, lookup?, bool?, h]

theorem members?_encode {ms : List (Member TypeExpr)} (hms : Member.Ascending ms)
    (h : ∀ m ∈ ms, read m.type.encode = some m.type) :
    members? read (.object (ms.map encodeMember)) = some ms := by
  unfold members?
  simp only [fields?, Option.bind_eq_bind, Option.bind_some]
  rw [mapM_map (f := id) fun m hm => member?_encode (h m hm)]
  simp [Member.insertAll_of_ascending hms]

theorem shapeOf?_encode {s : Shape TypeExpr} (hs : Member.Ascending s.members)
    (h : ∀ c ∈ s.parts, read c.encode = some c) :
    shapeOf? read (("type", .string "interface") :: encodeShape s) = some s := by
  obtain ⟨isClass, bases, calls, constructs, members⟩ := s
  obtain ⟨hbases, hcalls, hconstructs, hmembers⟩ := Shape.forall_parts.1 h
  have hbaseList : list? read (.array (encodeList bases)) = some bases := list?_encodeList hbases
  have hcallList : list? (signature? read) (.array (calls.map encodeSignature)) = some calls :=
    list?_encode fun s hs => signature?_encode (hcalls s hs)
  have hconstructList : list? (signature? read) (.array (constructs.map encodeSignature)) = some constructs :=
    list?_encode fun s hs => signature?_encode (hconstructs s hs)
  have hmemberList : members? read (.object (members.map encodeMember)) = some members := members?_encode hs hmembers
  simp [shapeOf?, encodeShape, required, lookup?, bool?, encodeSignatures_eq, encodeMembers_eq, hbaseList, hcallList,
    hconstructList, hmemberList]

end Parts

/-! ## Nesting -/

section Nesting

open Json.Value

variable {k : Nat}

theorem nesting_generic {g : Generic TypeExpr} (h : (encodeGeneric g).nesting ≤ k) :
    ∀ c ∈ g.constraint?, c.encode.nesting ≤ k := by
  obtain ⟨id, constraint?⟩ := g
  rintro c hc
  cases hc
  exact nesting_field_le h ("constraint", c.encode) (by simp [encodeConstraint])

theorem nesting_signature {s : Signature TypeExpr} (h : (encodeSignature s).nesting ≤ k) :
    ∀ c ∈ s.parts, c.encode.nesting ≤ k := by
  obtain ⟨generics, parameters, returnType⟩ := s
  have hfields := nesting_field_le h
  simp only [List.forall_mem_cons, encodeGenerics_eq, encodeParameters_eq] at hfields
  obtain ⟨hgenerics, hparameters, hreturn, -⟩ := hfields
  have hgeneric := nesting_item_le hgenerics
  have hparameter := nesting_item_le hparameters
  simp only [List.forall_mem_map] at hgeneric hparameter
  refine Signature.forall_parts.2 ⟨fun g hg => nesting_generic (hgeneric g hg), fun p hp => ?_, hreturn⟩
  obtain ⟨name, type, optional⟩ := p
  exact nesting_field_le (hparameter _ hp) ("type", type.encode) (by simp)

theorem nesting_shape {s : Shape TypeExpr} (h : ∀ field ∈ encodeShape s, field.2.nesting ≤ k) :
    ∀ c ∈ s.parts, c.encode.nesting ≤ k := by
  obtain ⟨isClass, bases, calls, constructs, members⟩ := s
  simp only [encodeShape, List.forall_mem_cons, encodeList_eq, encodeSignatures_eq, encodeMembers_eq] at h
  obtain ⟨-, hbases, hcalls, hconstructs, hmembers, -⟩ := h
  have hbase := nesting_item_le hbases
  have hcall := nesting_item_le hcalls
  have hconstruct := nesting_item_le hconstructs
  have hmember := nesting_field_le hmembers
  simp only [List.forall_mem_map] at hbase hcall hconstruct hmember
  refine Shape.forall_parts.2 ⟨hbase, fun s hs => nesting_signature (hcall s hs),
    fun s hs => nesting_signature (hconstruct s hs), fun m hm => ?_⟩
  obtain ⟨name, type, optional, readonly⟩ := m
  exact nesting_field_le (hmember _ hm) ("type", type.encode) (by simp)

/-- What an expression is made of is written inside it. -/
theorem nesting_child {e c : TypeExpr} (hc : c ∈ e.children) (h : e.encode.nesting ≤ k + 1) : c.encode.nesting ≤ k := by
  cases e with
  | record _ | primitive _ _ | parameter _ => cases hc
  | union ms | intersection ms | tuple ms | application _ ms =>
    have hfields := nesting_object_le.1 h
    simp only [List.forall_mem_cons, encodeList_eq] at hfields
    have hitems := nesting_item_le (by first | exact hfields.2.1 | exact hfields.2.2.1)
    exact hitems c.encode (List.mem_map_of_mem hc)
  | keyOf operand =>
    obtain rfl := List.mem_singleton.1 hc
    exact nesting_object_le.1 h ("keyOf", c.encode) (by simp)
  | indexedAccess object index constraint? =>
    simp only [encode] at h
    have hfields := nesting_object_le.1 h
    simp only [children, List.mem_cons, Option.mem_toList] at hc
    rcases hc with rfl | rfl | rfl
    · exact hfields ("object", c.encode) (by simp)
    · exact hfields ("index", c.encode) (by simp)
    · exact hfields ("constraint", c.encode) (by simp [encodeConstraint])
  | shape s =>
    rw [encode] at h
    have hfields : ∀ field ∈ encodeShape s, field.2.nesting ≤ k :=
      fun field hfield => nesting_object_le.1 h field (List.mem_cons_of_mem _ hfield)
    exact nesting_shape hfields c hc

end Nesting

/-- An object is read as a primitive, or else by its type. -/
theorem decode?_object (depth : Nat) (fields : List (String × Value)) :
    decode? (depth + 1) (.object fields) =
      (primitive? (.object fields)).or (tagged? (decode? depth) (.object fields)) := by
  have hid : id? (Value.object fields) = none := rfl
  simp only [decode?, hid]
  cases primitive? (.object fields) <;> rfl

theorem decode?_tagged {fields : List (String × Value)} (hkind : lookup? fields "kind" = some none) (depth : Nat) :
    decode? (depth + 1) (.object fields) = tagged? (decode? depth) (.object fields) := by
  simp [decode?_object, primitive?, required, hkind]

theorem primitive?_encode {kind : PrimitiveKind} {literal? : Option Value} (h : (primitive kind literal?).OwnReadable) :
    primitive? (primitive kind literal?).encode = some (primitive kind literal?) := by
  cases literal? with
  | none => simp [encode, primitive?, required, Document.optional, lookup?, bareName?, string?, PrimitiveKind.ofName?_name]
  | some v =>
    obtain ⟨hnull, horder⟩ := h v rfl
    have hisNull : isNull v = false := by cases v <;> simp_all [isNull]
    simp [encode, primitive?, required, Document.optional, lookup?, bareName?, string?, PrimitiveKind.ofName?_name,
      hisNull, horder.canonical_eq]

/-- An object with the tag of a form is read as the form. -/
theorem tagged?_object {read : Value → Option TypeExpr} (form : Form) {fields : List (String × Value)}
    (h : lookup? fields "type" = some (some (.string form.tag))) :
    tagged? read (.object fields) = formOf? read form fields := by
  have htype : type? (Value.object fields) = some (.string form.tag) := by simp [type?, fields?, required, h]
  simp [tagged?, htype, Form.of?_tag]

/-- An expression that is neither an id nor a primitive is written with the tag of a form, which is read from the
fields, if the parts of the expression are read from their own values. -/
theorem exists_form {read : Value → Option TypeExpr} {e : TypeExpr} (hown : e.OwnReadable)
    (hread : ∀ c ∈ e.children, read c.encode = some c) (hrecord : ∀ id, e ≠ record id)
    (hprimitive : ∀ kind literal?, e ≠ primitive kind literal?) :
    ∃ (form : Form) (fields : List (String × Value)), e.encode = .object fields ∧ lookup? fields "kind" = some none ∧
      lookup? fields "type" = some (some (.string form.tag)) ∧ formOf? read form fields = some e := by
  cases e with
  | record id => exact absurd rfl (hrecord id)
  | primitive kind literal? => exact absurd rfl (hprimitive kind literal?)
  | union ms =>
    have hlist : list? read (.array (encodeList ms)) = some ms := list?_encodeList hread
    exact ⟨.union, _, by rw [encode], by simp [lookup?], rfl, by simp [formOf?, required, lookup?, hlist]⟩
  | intersection ms =>
    have hlist : list? read (.array (encodeList ms)) = some ms := list?_encodeList hread
    exact ⟨.intersection, _, by rw [encode], by simp [lookup?], rfl, by simp [formOf?, required, lookup?, hlist]⟩
  | tuple ms =>
    have hlist : list? read (.array (encodeList ms)) = some ms := list?_encodeList hread
    exact ⟨.tuple, _, by rw [encode], by simp [lookup?], rfl, by simp [formOf?, required, lookup?, hlist]⟩
  | keyOf operand =>
    have hoperand := hread operand (by simp [children])
    exact ⟨.keyOf, _, by rw [encode], by simp [lookup?], rfl, by simp [formOf?, required, lookup?, hoperand]⟩
  | indexedAccess object index constraint? =>
    have hobject := hread object (by simp [children])
    have hindex := hread index (by simp [children])
    cases constraint? with
    | none =>
      refine ⟨.indexedAccess, _, by rw [encode], by simp [lookup?, encodeConstraint], rfl, ?_⟩
      simp [formOf?, required, Document.optional, lookup?, encodeConstraint, hobject, hindex]
    | some constraint =>
      have hconstraint := hread constraint (by simp [children])
      refine ⟨.indexedAccess, _, by rw [encode], by simp [lookup?, encodeConstraint], rfl, ?_⟩
      simp [formOf?, required, Document.optional, lookup?, encodeConstraint, isNull_encode, hobject, hindex, hconstraint]
  | shape s =>
    have hshape : shapeOf? read (("type", .string "interface") :: encodeShape s) = some s := shapeOf?_encode hown hread
    obtain ⟨isClass, bases, calls, constructs, members⟩ := s
    exact ⟨.shape, _, by rw [encode], by simp [lookup?, encodeShape], rfl, by simp [formOf?, hshape]⟩
  | parameter id =>
    exact ⟨.parameter, _, by rw [encode], by simp [lookup?], rfl, by simp [formOf?, required, lookup?]⟩
  | application id args =>
    have hlist : list? read (.array (encodeList args)) = some args := list?_encodeList hread
    exact ⟨.application, _, by rw [encode], by simp [lookup?], rfl, by simp [formOf?, required, lookup?, hlist]⟩

/-- A readable expression is read from its own value. -/
theorem decode?_encode {e : TypeExpr} (he : e.Readable) {depth : Nat} (h : e.encode.nesting ≤ depth) :
    decode? depth e.encode = some e := by
  induction e using childInduction generalizing depth with
  | h e ih =>
    obtain ⟨hown, hchildren⟩ := readable_iff.1 he
    cases depth with
    | zero =>
      -- only the id of a record is not an object
      cases e with
      | record id => simp [encode, decode?]
      | primitive kind literal? => cases literal? <;> simp [encode] at h
      | _ => simp [encode] at h
    | succ depth =>
      have hread : ∀ c ∈ e.children, decode? depth c.encode = some c :=
        fun c hc => ih c hc (hchildren c hc) (nesting_child hc h)
      cases e with
      | record id => simp [encode, decode?]
      | primitive kind literal? =>
        have hprimitive := primitive?_encode hown
        cases literal? <;> simp only [encode] at hprimitive ⊢ <;> simp [decode?_object, hprimitive]
      | _ =>
        obtain ⟨form, fields, hfields, hkind, htype, hform⟩ := exists_form hown hread (by simp) (by simp)
        rw [hfields, decode?_tagged hkind, tagged?_object form htype, hform]

/-! ## What is read -/

theorem eq_object {v : Value} {fields : List (String × Value)} (h : fields? v = some fields) : v = .object fields := by
  cases v <;> simp_all [fields?]

theorem eq_array {v : Value} {items : List Value} (h : items? v = some items) : v = .array items := by
  cases v <;> simp_all [items?]

/-- What is written of the fields of a structure nests no deeper than the structure, whether it names them or not. -/
theorem nesting_object_le_of_fieldsOf? {names : List String} {v : Value} {fields ws : List (String × Value)}
    (h : fieldsOf? names v = some fields) (hle : ∀ w ∈ ws, ∃ field ∈ fields, w.2.nesting ≤ field.2.nesting) :
    (Value.object ws).nesting ≤ v.nesting := by
  rcases fields_of_fieldsOf? h with hfields | ⟨vs, hvs, rfl⟩
  · rw [eq_object hfields]
    exact Value.nesting_object_le_object hle
  · rw [eq_array hvs]
    refine Value.nesting_object_le_array fun w hw => ?_
    obtain ⟨⟨_, item⟩, hmem, hle⟩ := hle w hw
    exact ⟨item, (List.of_mem_zip hmem).2, hle⟩

/-- What is read is readable, and nests no deeper than what it is read of. -/
def Sound (read : Value → Option TypeExpr) : Prop :=
  ∀ v e, read v = some e → e.Readable ∧ e.encode.nesting ≤ v.nesting

section Sound

open Json.Value

variable {read : Value → Option TypeExpr} {v : Value}

/-! ### Fields -/

section Fields

variable {fields : List (String × Value)} {name : String}

/-- A scalar nests no deeper than the field that it is read of. -/
theorem scalarField_sound {α : Type} {of? : Value → Option α} {a : α} {w : Value} (hw : w.nesting = 0)
    (h : required fields name of? = some a) : ∃ field ∈ fields, w.nesting ≤ field.2.nesting := by
  obtain ⟨v, hv, -⟩ := exists_of_required h
  exact ⟨_, hv, hw ▸ Nat.zero_le _⟩

theorem idField_sound {id : BundleId} (h : required fields name id? = some id) :
    ∃ field ∈ fields, (encodeId id).nesting ≤ field.2.nesting :=
  scalarField_sound (nesting_number _) h

theorem boolField_sound {b : Bool} (h : required fields name bool? = some b) :
    ∃ field ∈ fields, (Value.bool b).nesting ≤ field.2.nesting :=
  scalarField_sound (nesting_bool b) h

theorem field_sound (hread : Sound read) {e : TypeExpr} (h : required fields name read = some e) :
    e.Readable ∧ ∃ field ∈ fields, e.encode.nesting ≤ field.2.nesting := by
  obtain ⟨w, hw, h⟩ := exists_of_required h
  exact ⟨(hread w e h).1, _, hw, (hread w e h).2⟩

/-- What holds of whatever is read of an item holds of a list that is read of a field. -/
theorem listField_sound {α : Type} {of? : Value → Option α} {make : α → Value} {P : α → Prop} {as : List α}
    (h : required fields name (list? of?) = some as)
    (hof : ∀ w a, of? w = some a → P a ∧ (make a).nesting ≤ w.nesting) :
    (∀ a ∈ as, P a) ∧ ∃ field ∈ fields, (Value.array (as.map make)).nesting ≤ field.2.nesting := by
  obtain ⟨v, hv, h⟩ := exists_of_required h
  obtain ⟨items, hitems, has⟩ := exists_of_list h
  obtain rfl : v = .array items := eq_array hitems
  refine ⟨fun a ha => ?_, _, hv, nesting_array_le_array ?_⟩
  · obtain ⟨w, -, hwa⟩ := has a ha
    exact (hof w a hwa).1
  · simp only [List.forall_mem_map]
    intro a ha
    obtain ⟨w, hw, hwa⟩ := has a ha
    exact ⟨w, hw, (hof w a hwa).2⟩

theorem exprsField_sound (hread : Sound read) {es : List TypeExpr} (h : required fields name (list? read) = some es) :
    (∀ e ∈ es, e.Readable) ∧ ∃ field ∈ fields, (Value.array (encodeList es)).nesting ≤ field.2.nesting := by
  rw [encodeList_eq]
  exact listField_sound h hread

theorem constraintField_sound (hread : Sound read) {c? : Option TypeExpr}
    (h : Document.optional fields name read = some c?) :
    (∀ c ∈ c?, c.Readable) ∧ ∀ w ∈ encodeConstraint c?, ∃ field ∈ fields, w.2.nesting ≤ field.2.nesting := by
  have hall := exists_of_optional h
  cases c? with
  | none => simp [encodeConstraint]
  | some c =>
    obtain ⟨w, hw, -, hwc⟩ := hall c rfl
    simp only [Option.mem_some_iff, forall_eq', encodeConstraint, List.forall_mem_cons]
    exact ⟨(hread w c hwc).1, ⟨_, hw, (hread w c hwc).2⟩, by simp⟩

end Fields

/-! ### Parts -/

theorem generic?_sound (hread : Sound read) (v : Value) (g : Generic TypeExpr) (h : generic? read v = some g) :
    (∀ c ∈ g.constraint?, c.Readable) ∧ (encodeGeneric g).nesting ≤ v.nesting := by
  simp only [generic?, Option.bind_eq_bind, Option.bind_eq_some_iff, Option.pure_def, Option.some.injEq] at h
  obtain ⟨fields, hfields, id, hid, constraint?, hconstraint, rfl⟩ := h
  obtain ⟨hreadable, hnesting⟩ := constraintField_sound hread hconstraint
  exact ⟨hreadable, nesting_object_le_of_fieldsOf? hfields (List.forall_mem_cons.2 ⟨idField_sound hid, hnesting⟩)⟩

theorem parameter?_sound (hread : Sound read) (v : Value) (p : Parameter TypeExpr) (h : parameter? read v = some p) :
    p.type.Readable ∧ (encodeParameter p).nesting ≤ v.nesting := by
  simp only [parameter?, Option.bind_eq_bind, Option.bind_eq_some_iff, Option.pure_def, Option.some.injEq] at h
  obtain ⟨fields, hfields, name, hname, type, htype, optional, hoptional, rfl⟩ := h
  obtain ⟨hreadable, hnesting⟩ := field_sound hread htype
  refine ⟨hreadable, nesting_object_le_of_fieldsOf? hfields ?_⟩
  simp only [List.forall_mem_cons]
  exact ⟨scalarField_sound (nesting_string name) hname, hnesting, boolField_sound hoptional, by simp⟩

theorem signature?_sound (hread : Sound read) (v : Value) (s : Signature TypeExpr) (h : signature? read v = some s) :
    (∀ c ∈ s.parts, c.Readable) ∧ (encodeSignature s).nesting ≤ v.nesting := by
  simp only [signature?, Option.bind_eq_bind, Option.bind_eq_some_iff, Option.pure_def, Option.some.injEq] at h
  obtain ⟨fields, hfields, generics, hgenerics, parameters, hparameters, returnType, hreturn, rfl⟩ := h
  obtain ⟨hgeneric, hgenericNesting⟩ := listField_sound hgenerics (generic?_sound hread)
  obtain ⟨hparameter, hparameterNesting⟩ := listField_sound hparameters (parameter?_sound hread)
  obtain ⟨hreturn, hreturnNesting⟩ := field_sound hread hreturn
  refine ⟨Signature.forall_parts.2 ⟨hgeneric, hparameter, hreturn⟩, nesting_object_le_of_fieldsOf? hfields ?_⟩
  simp only [List.forall_mem_cons, encodeGenerics_eq, encodeParameters_eq]
  exact ⟨hgenericNesting, hparameterNesting, hreturnNesting, by simp⟩

theorem member?_sound (hread : Sound read) {name : String} {m : Member TypeExpr} (h : member? read name v = some m) :
    m.type.Readable ∧ (encodeMember m).2.nesting ≤ v.nesting := by
  simp only [member?, Option.bind_eq_bind, Option.bind_eq_some_iff, Option.pure_def, Option.some.injEq] at h
  obtain ⟨fields, hfields, type, htype, optional, hoptional, readonly, hreadonly, rfl⟩ := h
  obtain ⟨hreadable, hnesting⟩ := field_sound hread htype
  refine ⟨hreadable, nesting_object_le_of_fieldsOf? hfields ?_⟩
  simp only [List.forall_mem_cons]
  exact ⟨hnesting, boolField_sound hoptional, boolField_sound hreadonly, by simp⟩

/-- The members that are read are in order, and each is read of a field. -/
theorem members?_sound (hread : Sound read) {ms : List (Member TypeExpr)} (h : members? read v = some ms) :
    Member.Ascending ms ∧ (∀ m ∈ ms, m.type.Readable) ∧
      (Value.object (ms.map encodeMember)).nesting ≤ v.nesting := by
  simp only [members?, Option.bind_eq_bind, Option.bind_eq_some_iff, Option.pure_def, Option.some.injEq] at h
  obtain ⟨fields, hfields, all, hall, rfl⟩ := h
  have hlast := Member.lastOf_insertAll all
  have hread' : ∀ m ∈ all.foldl (fun done m => m.insert done) [], ∃ field ∈ fields,
      m.type.Readable ∧ (encodeMember m).2.nesting ≤ field.2.nesting := by
    intro m hm
    have hmem : m ∈ all := by simpa using List.mem_of_find?_eq_some ((hlast.mem m).1 hm)
    obtain ⟨field, hfield, hm⟩ := exists_of_mapM hall m hmem
    exact ⟨field, hfield, member?_sound hread hm⟩
  rw [eq_object hfields]
  refine ⟨hlast.ascending, fun m hm => ?_, nesting_object_le_object ?_⟩
  · obtain ⟨field, -, hm, -⟩ := hread' m hm
    exact hm
  · simp only [List.forall_mem_map]
    intro m hm
    obtain ⟨field, hfield, -, hle⟩ := hread' m hm
    exact ⟨field, hfield, hle⟩

theorem shapeOf?_sound (hread : Sound read) {fields : List (String × Value)} {s : Shape TypeExpr}
    (h : shapeOf? read fields = some s) :
    Member.Ascending s.members ∧ (∀ c ∈ s.parts, c.Readable) ∧
      ∀ field ∈ encodeShape s, ∃ w ∈ fields, field.2.nesting ≤ w.2.nesting := by
  simp only [shapeOf?, Option.bind_eq_bind, Option.bind_eq_some_iff, Option.pure_def, Option.some.injEq] at h
  obtain ⟨isClass, hclass, bases, hbases, calls, hcalls, constructs, hconstructs, members, hmembers, rfl⟩ := h
  obtain ⟨hbase, hbaseNesting⟩ := exprsField_sound hread hbases
  obtain ⟨hcall, hcallNesting⟩ := listField_sound hcalls (signature?_sound hread)
  obtain ⟨hconstruct, hconstructNesting⟩ := listField_sound hconstructs (signature?_sound hread)
  obtain ⟨w, hw, hmembers⟩ := exists_of_required hmembers
  obtain ⟨hascending, hmember, hmemberNesting⟩ := members?_sound hread hmembers
  refine ⟨hascending, Shape.forall_parts.2 ⟨hbase, hcall, hconstruct, hmember⟩, ?_⟩
  simp only [encodeShape, List.forall_mem_cons, encodeSignatures_eq, encodeMembers_eq]
  exact ⟨boolField_sound hclass, hbaseNesting, hcallNesting, hconstructNesting, ⟨_, hw, hmemberNesting⟩, by simp⟩

/-! ### Expressions -/

theorem primitive?_sound {e : TypeExpr} (h : primitive? v = some e) : e.Readable ∧ e.encode.nesting ≤ v.nesting := by
  simp only [primitive?, Option.bind_eq_bind, Option.bind_eq_some_iff, Option.pure_def, Option.some.injEq] at h
  obtain ⟨fields, hfields, kind, hkind, literal?, hliteral, rfl⟩ := h
  have hkindNesting := scalarField_sound (nesting_string kind.name) hkind
  have hall := exists_of_optional hliteral
  constructor
  · refine readable_iff.2 ⟨fun literal hmem => ?_, by simp [children]⟩
    obtain ⟨w, -, hnull, hcanonical⟩ := hall literal hmem
    obtain rfl := Option.some.inj hcanonical
    refine ⟨?_, inOrder_canonical w⟩
    cases w <;> simp_all [isNull, canonical]
  · cases literal? with
    | none =>
      refine nesting_object_le_of_fieldsOf? hfields ?_
      simp only [List.forall_mem_cons]
      exact ⟨hkindNesting, by simp⟩
    | some literal =>
      obtain ⟨w, hw, -, hcanonical⟩ := hall literal rfl
      obtain rfl := Option.some.inj hcanonical
      refine nesting_object_le_of_fieldsOf? hfields ?_
      simp only [List.forall_mem_cons]
      exact ⟨hkindNesting, ⟨_, hw, nesting_canonical_le le_rfl⟩, by simp⟩

/-- The `type` is one of the fields of a form. -/
theorem mem_of_type? {names : List String} {fields : List (String × Value)} {tag : Value} (htag : type? v = some tag)
    (hfields : fieldsOf? ("type" :: names) v = some fields) : ("type", tag) ∈ fields := by
  unfold type? at htag
  split at htag
  · -- the fields have names, and are those of any form
    rename_i own hown
    obtain rfl := Option.some.inj ((fieldsOf?_of_fields? hown).symm.trans hfields)
    obtain ⟨w, hw, htag⟩ := exists_of_required htag
    exact Option.some.inj htag ▸ hw
  · -- the first value takes the first name
    rename_i hown
    obtain ⟨vs, hvs, hhead⟩ := Option.bind_eq_some_iff.1 htag
    obtain ⟨rest, rfl⟩ := List.head?_eq_some_iff.1 hhead
    obtain hfields | ⟨vs, hvs', rfl⟩ := fields_of_fieldsOf? hfields
    · exact absurd (hown.symm.trans hfields) (by simp)
    · obtain rfl := Option.some.inj (hvs.symm.trans hvs')
      exact List.mem_cons_self

/-- A form is written with its tag and fields that nest no deeper than those it is read of. -/
theorem formOf?_sound (hread : Sound read) {form : Form} {fields : List (String × Value)} {e : TypeExpr}
    (h : formOf? read form fields = some e) :
    e.Readable ∧ ∃ ws, e.encode = .object (("type", .string form.tag) :: ws) ∧
      ∀ w ∈ ws, ∃ field ∈ fields, w.2.nesting ≤ field.2.nesting := by
  cases form with
  | union | intersection | tuple =>
    obtain ⟨ms, hms, h⟩ := Option.bind_eq_some_iff.1 h
    cases h
    obtain ⟨hms, hnesting⟩ := exprsField_sound hread hms
    refine ⟨readable_iff.2 ⟨trivial, hms⟩, _, by rw [encode]; rfl, ?_⟩
    simp only [List.forall_mem_cons]
    exact ⟨hnesting, by simp⟩
  | keyOf =>
    obtain ⟨operand, hoperand, h⟩ := Option.bind_eq_some_iff.1 h
    cases h
    obtain ⟨hoperand, hnesting⟩ := field_sound hread hoperand
    refine ⟨readable_iff.2 ⟨trivial, by simpa [children] using hoperand⟩, _, by rw [encode]; rfl, ?_⟩
    simp only [List.forall_mem_cons]
    exact ⟨hnesting, by simp⟩
  | indexedAccess =>
    obtain ⟨object, hobject, h⟩ := Option.bind_eq_some_iff.1 h
    obtain ⟨index, hindex, h⟩ := Option.bind_eq_some_iff.1 h
    obtain ⟨constraint?, hconstraint, h⟩ := Option.bind_eq_some_iff.1 h
    cases h
    obtain ⟨hobject, hobjectNesting⟩ := field_sound hread hobject
    obtain ⟨hindex, hindexNesting⟩ := field_sound hread hindex
    obtain ⟨hconstraint, hconstraintNesting⟩ := constraintField_sound hread hconstraint
    refine ⟨readable_iff.2 ⟨trivial, ?_⟩, _, by rw [encode]; rfl, ?_⟩
    · simp only [children, List.forall_mem_cons, Option.mem_toList]
      exact ⟨hobject, hindex, hconstraint⟩
    · exact List.forall_mem_cons.2 ⟨hobjectNesting, List.forall_mem_cons.2 ⟨hindexNesting, hconstraintNesting⟩⟩
  | shape =>
    obtain ⟨s, hs, h⟩ := Option.bind_eq_some_iff.1 h
    cases h
    obtain ⟨hascending, hparts, hnesting⟩ := shapeOf?_sound hread hs
    exact ⟨readable_iff.2 ⟨hascending, hparts⟩, _, by rw [encode]; rfl, hnesting⟩
  | parameter =>
    obtain ⟨id, hid, h⟩ := Option.bind_eq_some_iff.1 h
    cases h
    refine ⟨readable_iff.2 ⟨trivial, by simp [children]⟩, _, by rw [encode]; rfl, ?_⟩
    simp only [List.forall_mem_cons]
    exact ⟨idField_sound hid, by simp⟩
  | application =>
    obtain ⟨id, hid, h⟩ := Option.bind_eq_some_iff.1 h
    obtain ⟨args, hargs, h⟩ := Option.bind_eq_some_iff.1 h
    cases h
    obtain ⟨hargs, hnesting⟩ := exprsField_sound hread hargs
    refine ⟨readable_iff.2 ⟨trivial, hargs⟩, _, by rw [encode]; rfl, ?_⟩
    simp only [List.forall_mem_cons]
    exact ⟨idField_sound hid, hnesting, by simp⟩

theorem tagged?_sound (hread : Sound read) {e : TypeExpr} (h : tagged? read v = some e) :
    e.Readable ∧ e.encode.nesting ≤ v.nesting := by
  obtain ⟨form, hform, h⟩ := Option.bind_eq_some_iff.1 h
  obtain ⟨fields, hfields, h⟩ := Option.bind_eq_some_iff.1 h
  obtain ⟨tag, htag, -⟩ := Option.bind_eq_some_iff.1 hform
  have htype : (Value.string form.tag).nesting ≤ tag.nesting := Nat.zero_le _
  obtain ⟨hreadable, ws, hwritten, hnesting⟩ := formOf?_sound hread h
  rw [hwritten]
  refine ⟨hreadable, nesting_object_le_of_fieldsOf? hfields (List.forall_mem_cons.2 ⟨?_, hnesting⟩)⟩
  exact ⟨_, mem_of_type? htag hfields, htype⟩

/-- Whatever is read is readable, and nests no deeper than what it is read of. -/
theorem decode?_sound (depth : Nat) : Sound (decode? depth) := by
  have hrecord (id : BundleId) (v : Value) :
      (record id).Readable ∧ (record id).encode.nesting ≤ v.nesting :=
    ⟨readable_iff.2 ⟨trivial, by simp [children]⟩, by simp [encode, encodeId]⟩
  intro v e h
  induction depth generalizing v e with
  | zero =>
    simp only [decode?] at h
    split at h
    · cases h
      exact hrecord _ v
    · cases h
  | succ depth ih =>
    simp only [decode?] at h
    split at h
    · cases h
      exact hrecord _ v
    · split at h
      · rename_i hprimitive
        cases h
        exact primitive?_sound hprimitive
      · exact tagged?_sound ih h

end Sound

end TypeExpr

end TypeBundle
