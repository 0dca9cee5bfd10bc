import TypeBundle.Bundle.Basic
/-!
# Expressions and their parts

An expression is made of its children; its subterms are itself and theirs (`subterms_eq`). What holds of an
expression when it holds of its children holds of every expression (`childInduction`).

Ids of records are mentioned by references, ids of type parameters by occurrences and declarations; both also
in the constraints of the type parameters of records.
-/

namespace TypeBundle

/-- The expressions of a signature, in the order in which they are written. -/
def Signature.parts (s : Signature TypeExpr) : List TypeExpr :=
  s.typeParameters.filterMap (·.constraint?) ++ s.parameters.map (·.type) ++ [s.returnType]

/-- The expressions of a shape, in the order in which they are written. -/
def Shape.parts (s : Shape TypeExpr) : List TypeExpr :=
  s.bases ++ s.callSignatures.flatMap Signature.parts ++ s.constructSignatures.flatMap Signature.parts ++
    s.members.map (·.type)

theorem Signature.forall_parts {P : TypeExpr → Prop} {s : Signature TypeExpr} : (∀ c ∈ s.parts, P c) ↔
    (∀ g ∈ s.typeParameters, ∀ c ∈ g.constraint?, P c) ∧ (∀ p ∈ s.parameters, P p.type) ∧ P s.returnType := by
  simp only [parts, List.forall_mem_append, List.mem_filterMap, List.forall_mem_map, List.forall_mem_singleton,
    forall_exists_index, and_imp, and_assoc, Option.mem_def]
  exact and_congr_left' ⟨fun h g hg c hc => h c g hg hc, fun h c g hg hc => h g hg c hc⟩

theorem Shape.forall_parts {P : TypeExpr → Prop} {s : Shape TypeExpr} : (∀ c ∈ s.parts, P c) ↔
    (∀ b ∈ s.bases, P b) ∧ (∀ g ∈ s.callSignatures, ∀ c ∈ g.parts, P c) ∧
      (∀ g ∈ s.constructSignatures, ∀ c ∈ g.parts, P c) ∧ ∀ m ∈ s.members, P m.type := by
  have hsignatures (gs : List (Signature TypeExpr)) :
      (∀ c ∈ gs.flatMap Signature.parts, P c) ↔ ∀ g ∈ gs, ∀ c ∈ g.parts, P c := List.forall_mem_flatMap
  simp only [parts, List.forall_mem_append, hsignatures, List.forall_mem_map, and_assoc]

/-- The signatures of a shape. -/
def Shape.signatures {α : Type} (s : Shape α) : List (Signature α) := s.callSignatures ++ s.constructSignatures

/-! ## Parts in place of others -/

section Map

variable {α β : Type}

def Generic.map (f : α → β) (g : Generic α) : Generic β := ⟨g.id, g.constraint?.map f⟩

def Parameter.map (f : α → β) (p : Parameter α) : Parameter β := ⟨p.name, f p.type, p.optional⟩

def Signature.map (f : α → β) (s : Signature α) : Signature β :=
  ⟨s.typeParameters.map (·.map f), s.parameters.map (·.map f), f s.returnType⟩

def Member.map (f : α → β) (m : Member α) : Member β := ⟨m.name, f m.type, m.optional, m.readonly⟩

def Shape.map (f : α → β) (s : Shape α) : Shape β :=
  { isClass := s.isClass
    bases := s.bases.map f
    callSignatures := s.callSignatures.map (·.map f)
    constructSignatures := s.constructSignatures.map (·.map f)
    members := s.members.map (·.map f) }

end Map

theorem Signature.parts_map (f : TypeExpr → TypeExpr) (s : Signature TypeExpr) : (s.map f).parts = s.parts.map f := by
  have hconstraints : s.typeParameters.filterMap (fun g => g.constraint?.map f) =
      (s.typeParameters.filterMap (·.constraint?)).map f := List.map_filterMap.symm
  simp [parts, map, Generic.map, Parameter.map, List.filterMap_map, Function.comp_def, hconstraints]

theorem Shape.parts_map (f : TypeExpr → TypeExpr) (s : Shape TypeExpr) : (s.map f).parts = s.parts.map f := by
  simp [parts, map, Member.map, List.flatMap_map, List.map_flatMap, Signature.parts_map, Function.comp_def]

namespace TypeExpr

/-- The expressions of which an expression is made. -/
def children : TypeExpr → List TypeExpr
  | record _ => []
  | primitive _ _ => []
  | union ms => ms
  | intersection ms => ms
  | keyOf operand => [operand]
  | indexedAccess object index constraint? => object :: index :: constraint?.toList
  | shape s => s.parts
  | tuple ms => ms
  | parameter _ => []
  | application _ args => args

theorem subtermsOfOption_eq (e? : Option TypeExpr) : subtermsOfOption e? = e?.toList.flatMap subterms := by
  cases e? <;> simp [subtermsOfOption]

theorem subtermsOfGenerics_eq (gs : List (Generic TypeExpr)) :
    subtermsOfGenerics gs = (gs.filterMap (·.constraint?)).flatMap subterms := by
  induction gs with
  | nil => simp [subtermsOfGenerics]
  | cons g gs ih =>
    obtain ⟨id, constraint?⟩ := g
    cases constraint? <;> simp [subtermsOfGenerics, subtermsOfGeneric, subtermsOfOption, ih]

theorem subtermsOfParameters_eq (ps : List (Parameter TypeExpr)) :
    subtermsOfParameters ps = (ps.map (·.type)).flatMap subterms := by
  induction ps with
  | nil => simp [subtermsOfParameters]
  | cons p ps ih =>
    obtain ⟨name, type, optional⟩ := p
    simp [subtermsOfParameters, subtermsOfParameter, ih]

theorem subtermsOfMembers_eq (ms : List (Member TypeExpr)) :
    subtermsOfMembers ms = (ms.map (·.type)).flatMap subterms := by
  induction ms with
  | nil => simp [subtermsOfMembers]
  | cons m ms ih =>
    obtain ⟨name, type, optional, readonly⟩ := m
    simp [subtermsOfMembers, subtermsOfMember, ih]

theorem subtermsOfSignatures_eq (ss : List (Signature TypeExpr)) :
    subtermsOfSignatures ss = (ss.flatMap Signature.parts).flatMap subterms := by
  induction ss with
  | nil => simp [subtermsOfSignatures]
  | cons s ss ih =>
    obtain ⟨typeParameters, parameters, returnType⟩ := s
    simp [subtermsOfSignatures, subtermsOfSignature, Signature.parts, subtermsOfGenerics_eq, subtermsOfParameters_eq, ih]

/-- The subterms of an expression are itself and those of its children. -/
theorem subterms_eq (e : TypeExpr) : e.subterms = e :: e.children.flatMap subterms := by
  cases e with
  | shape s =>
    obtain ⟨isClass, bases, calls, constructs, members⟩ := s
    simp [subterms, children, subtermsOfShape, Shape.parts, subtermsOfList_eq, subtermsOfSignatures_eq,
      subtermsOfMembers_eq]
  | _ => simp [subterms, children, subtermsOfList_eq, subtermsOfOption_eq]

/-- The references of an expression are what it names itself and those of its children. -/
theorem references_eq (e : TypeExpr) : e.references = e.target?.toList ++ e.children.flatMap references := by
  rw [references, subterms_eq, List.filterMap_cons, List.filterMap_flatMap]
  cases e.target? <;> rfl

/-! ## Induction on children -/

theorem sizeOf_signature_part {s : Signature TypeExpr} {c : TypeExpr} (h : c ∈ s.parts) : sizeOf c < sizeOf s := by
  obtain ⟨typeParameters, parameters, returnType⟩ := s
  simp only [Signature.parts, List.mem_append, List.mem_filterMap, List.mem_map, List.mem_singleton] at h
  simp only [Signature.mk.sizeOf_spec]
  rcases h with (⟨⟨id, constraint?⟩, hg, hc⟩ | ⟨⟨name, type, optional⟩, hp, rfl⟩) | rfl
  · obtain rfl : constraint? = some c := hc
    have hlt := List.sizeOf_lt_of_mem hg
    simp only [Generic.mk.sizeOf_spec, Option.some.sizeOf_spec] at hlt
    omega
  · have hlt := List.sizeOf_lt_of_mem hp
    simp only [Parameter.mk.sizeOf_spec] at hlt ⊢
    omega
  · omega

theorem sizeOf_shape_part {s : Shape TypeExpr} {c : TypeExpr} (h : c ∈ s.parts) : sizeOf c < sizeOf s := by
  obtain ⟨isClass, bases, calls, constructs, members⟩ := s
  simp only [Shape.parts, List.mem_append, List.mem_flatMap, List.mem_map] at h
  simp only [Shape.mk.sizeOf_spec]
  rcases h with ((hb | ⟨g, hg, hc⟩) | ⟨g, hg, hc⟩) | ⟨⟨name, type, optional, readonly⟩, hm, rfl⟩
  · have hlt := List.sizeOf_lt_of_mem hb
    omega
  · have hlt := List.sizeOf_lt_of_mem hg
    have hpart := sizeOf_signature_part hc
    omega
  · have hlt := List.sizeOf_lt_of_mem hg
    have hpart := sizeOf_signature_part hc
    omega
  · have hlt := List.sizeOf_lt_of_mem hm
    simp only [Member.mk.sizeOf_spec] at hlt ⊢
    omega

theorem sizeOf_child {e c : TypeExpr} (h : c ∈ e.children) : sizeOf c < sizeOf e := by
  cases e with
  | record _ | primitive _ _ | parameter _ => cases h
  | union ms | intersection ms | tuple ms | application _ ms =>
    have hlt : sizeOf c < sizeOf ms := List.sizeOf_lt_of_mem h
    simp only [union.sizeOf_spec, intersection.sizeOf_spec, tuple.sizeOf_spec, application.sizeOf_spec]
    omega
  | keyOf operand =>
    obtain rfl := List.mem_singleton.1 h
    simp only [keyOf.sizeOf_spec]
    omega
  | indexedAccess object index constraint? =>
    simp only [children, List.mem_cons, Option.mem_toList] at h
    simp only [indexedAccess.sizeOf_spec]
    rcases h with rfl | rfl | rfl
    · omega
    · omega
    · simp only [Option.some.sizeOf_spec]
      omega
  | shape s =>
    have hpart := sizeOf_shape_part h
    simp only [shape.sizeOf_spec]
    omega

/-- What holds of an expression when it holds of its children holds of every expression. -/
theorem childInduction {P : TypeExpr → Prop} (h : ∀ e, (∀ c ∈ e.children, P c) → P e) (e : TypeExpr) : P e :=
  h e fun c _ => childInduction h c
termination_by sizeOf e
decreasing_by exact sizeOf_child ‹_›

/-- What holds of an expression and goes from expressions to their children holds of every subterm. -/
theorem forall_subterms {P : TypeExpr → Prop} (h : ∀ e, P e → ∀ c ∈ e.children, P c) {e : TypeExpr} (he : P e) :
    ∀ c ∈ e.subterms, P c := by
  induction e using childInduction with
  | h e ih =>
    intro c hc
    rw [subterms_eq, List.mem_cons, List.mem_flatMap] at hc
    rcases hc with rfl | ⟨d, hd, hc⟩
    · exact he
    · exact ih d hd (h e he d hd) c hc

end TypeExpr

/-! ## What a bundle mentions -/

namespace TypeExpr

/-- The type parameters that an expression itself mentions or declares. -/
def ownParameters : TypeExpr → List BundleId
  | parameter id => [id]
  | shape s => s.signatures.flatMap fun g => g.typeParameters.map (·.id)
  | _ => []

/-- The type parameters that an expression mentions or declares anywhere. -/
def parameters (e : TypeExpr) : List BundleId := e.subterms.flatMap ownParameters

end TypeExpr

/-- The type parameters that a record declares. -/
def Record.generics (r : Record) : List (Generic TypeExpr) :=
  r.aliasTypeParameters?.getD [] ++ r.typeParameters?.getD []

namespace Bundle

/-- The expressions of a bundle: its roots, and the constraints of its records' type parameters. -/
def expressions (b : Bundle) : List TypeExpr :=
  b.roots ++ b.records.flatMap fun r => r.generics.filterMap (·.constraint?)

/-- The records that a bundle mentions anywhere. -/
def references (b : Bundle) : List BundleId := b.expressions.flatMap (·.references)

/-- The type parameters that a bundle mentions or declares anywhere. -/
def parameters (b : Bundle) : List BundleId :=
  b.expressions.flatMap (·.parameters) ++ b.records.flatMap fun r => r.generics.map (·.id)

end Bundle

end TypeBundle
