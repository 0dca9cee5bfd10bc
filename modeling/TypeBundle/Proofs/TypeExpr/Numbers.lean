import TypeBundle.Proofs.TypeExpr.Wire
/-!
# Expressions with other numbers

The literals of an expression may hold numbers. With others in their place the expression is made of the same parts
(`children_mapNumbers`), is written as its value with these numbers (`encode_mapNumbers`), and is as readable as before
(`Readable.mapNumbers`).
-/

namespace TypeBundle

open Json (Number Value)

theorem Member.Ascending.map {f : TypeExpr → TypeExpr} {ms : List (Member TypeExpr)} (h : Ascending ms) :
    Ascending (ms.map (·.map f)) := by
  simpa [Ascending, Member.map, Function.comp_def] using h

namespace TypeExpr

variable (f : Number → Number)

mutual
/-- The expression with other numbers in its literals. -/
def mapNumbers : TypeExpr → TypeExpr
  | record id => record id
  | primitive kind literal? => primitive kind (literal?.map (·.mapNumbers f))
  | union ms => union (mapNumbersOfList ms)
  | intersection ms => intersection (mapNumbersOfList ms)
  | keyOf operand => keyOf (mapNumbers operand)
  | indexedAccess object index constraint? =>
    indexedAccess (mapNumbers object) (mapNumbers index) (mapNumbersOfOption constraint?)
  | shape s => shape (mapNumbersOfShape s)
  | tuple ms => tuple (mapNumbersOfList ms)
  | parameter id => parameter id
  | application id args => application id (mapNumbersOfList args)

def mapNumbersOfList : List TypeExpr → List TypeExpr
  | [] => []
  | e :: es => mapNumbers e :: mapNumbersOfList es

def mapNumbersOfOption : Option TypeExpr → Option TypeExpr
  | none => none
  | some e => some (mapNumbers e)

def mapNumbersOfShape : Shape TypeExpr → Shape TypeExpr
  | ⟨isClass, bases, calls, constructs, members⟩ =>
    ⟨isClass, mapNumbersOfList bases, mapNumbersOfSignatures calls, mapNumbersOfSignatures constructs,
      mapNumbersOfMembers members⟩

def mapNumbersOfSignatures : List (Signature TypeExpr) → List (Signature TypeExpr)
  | [] => []
  | s :: ss => mapNumbersOfSignature s :: mapNumbersOfSignatures ss

def mapNumbersOfSignature : Signature TypeExpr → Signature TypeExpr
  | ⟨generics, parameters, returnType⟩ =>
    ⟨mapNumbersOfGenerics generics, mapNumbersOfParameters parameters, mapNumbers returnType⟩

def mapNumbersOfGenerics : List (Generic TypeExpr) → List (Generic TypeExpr)
  | [] => []
  | g :: gs => mapNumbersOfGeneric g :: mapNumbersOfGenerics gs

def mapNumbersOfGeneric : Generic TypeExpr → Generic TypeExpr
  | ⟨id, constraint?⟩ => ⟨id, mapNumbersOfOption constraint?⟩

def mapNumbersOfParameters : List (Parameter TypeExpr) → List (Parameter TypeExpr)
  | [] => []
  | p :: ps => mapNumbersOfParameter p :: mapNumbersOfParameters ps

def mapNumbersOfParameter : Parameter TypeExpr → Parameter TypeExpr
  | ⟨name, type, optional⟩ => ⟨name, mapNumbers type, optional⟩

def mapNumbersOfMembers : List (Member TypeExpr) → List (Member TypeExpr)
  | [] => []
  | m :: ms => mapNumbersOfMember m :: mapNumbersOfMembers ms

def mapNumbersOfMember : Member TypeExpr → Member TypeExpr
  | ⟨name, type, optional, readonly⟩ => ⟨name, mapNumbers type, optional, readonly⟩
end

theorem mapNumbersOfList_eq (es : List TypeExpr) : mapNumbersOfList f es = es.map (mapNumbers f) := by
  induction es with
  | nil => simp [mapNumbersOfList]
  | cons e es ih => simp [mapNumbersOfList, ih]

theorem mapNumbersOfOption_eq (e? : Option TypeExpr) : mapNumbersOfOption f e? = e?.map (mapNumbers f) := by
  cases e? <;> simp [mapNumbersOfOption]

theorem mapNumbersOfGenerics_eq (gs : List (Generic TypeExpr)) :
    mapNumbersOfGenerics f gs = gs.map (·.map (mapNumbers f)) := by
  induction gs with
  | nil => simp [mapNumbersOfGenerics]
  | cons g gs ih =>
    obtain ⟨id, constraint?⟩ := g
    simp [mapNumbersOfGenerics, mapNumbersOfGeneric, mapNumbersOfOption_eq, Generic.map, ih]

theorem mapNumbersOfParameters_eq (ps : List (Parameter TypeExpr)) :
    mapNumbersOfParameters f ps = ps.map (·.map (mapNumbers f)) := by
  induction ps with
  | nil => simp [mapNumbersOfParameters]
  | cons p ps ih =>
    obtain ⟨name, type, optional⟩ := p
    simp [mapNumbersOfParameters, mapNumbersOfParameter, Parameter.map, ih]

theorem mapNumbersOfSignatures_eq (ss : List (Signature TypeExpr)) :
    mapNumbersOfSignatures f ss = ss.map (·.map (mapNumbers f)) := by
  induction ss with
  | nil => simp [mapNumbersOfSignatures]
  | cons s ss ih =>
    obtain ⟨generics, parameters, returnType⟩ := s
    simp [mapNumbersOfSignatures, mapNumbersOfSignature, mapNumbersOfGenerics_eq, mapNumbersOfParameters_eq,
      Signature.map, ih]

theorem mapNumbersOfMembers_eq (ms : List (Member TypeExpr)) :
    mapNumbersOfMembers f ms = ms.map (·.map (mapNumbers f)) := by
  induction ms with
  | nil => simp [mapNumbersOfMembers]
  | cons m ms ih =>
    obtain ⟨name, type, optional, readonly⟩ := m
    simp [mapNumbersOfMembers, mapNumbersOfMember, Member.map, ih]

theorem mapNumbersOfShape_eq (s : Shape TypeExpr) : mapNumbersOfShape f s = s.map (mapNumbers f) := by
  obtain ⟨isClass, bases, calls, constructs, members⟩ := s
  simp [mapNumbersOfShape, mapNumbersOfList_eq, mapNumbersOfSignatures_eq, mapNumbersOfMembers_eq, Shape.map]

/-! ## What the numbers do not change -/

@[simp] theorem target?_mapNumbers (e : TypeExpr) : (e.mapNumbers f).target? = e.target? := by
  cases e <;> simp [mapNumbers, target?]

theorem children_mapNumbers (e : TypeExpr) : (e.mapNumbers f).children = e.children.map (mapNumbers f) := by
  cases e with
  | indexedAccess object index constraint? =>
    cases constraint? <;> simp [mapNumbers, children, mapNumbersOfOption_eq]
  | shape s => simp [mapNumbers, children, mapNumbersOfShape_eq, Shape.parts_map]
  | _ => simp [mapNumbers, children, mapNumbersOfList_eq]

theorem subterms_mapNumbers (e : TypeExpr) : (e.mapNumbers f).subterms = e.subterms.map (mapNumbers f) := by
  induction e using childInduction with
  | h e ih =>
    have hchildren : (e.children.map (mapNumbers f)).flatMap subterms =
        (e.children.flatMap subterms).map (mapNumbers f) := by
      rw [List.flatMap_map, List.map_flatMap]
      exact List.flatMap_congr ih
    rw [subterms_eq (mapNumbers f e), children_mapNumbers, hchildren, subterms_eq e, List.map_cons]

/-- The same records are named. -/
@[simp] theorem references_mapNumbers (e : TypeExpr) : (e.mapNumbers f).references = e.references := by
  simp [references, subterms_mapNumbers, List.filterMap_map]

theorem OwnReadable.mapNumbers {e : TypeExpr} (h : e.OwnReadable) : (e.mapNumbers f).OwnReadable := by
  cases e with
  | primitive kind literal? =>
    rw [TypeExpr.mapNumbers]
    simp only [OwnReadable, Option.mem_def, Option.map_eq_some_iff, forall_exists_index, and_imp]
    rintro _ v hv rfl
    obtain ⟨hnull, horder⟩ := h v hv
    refine ⟨?_, horder.mapNumbers⟩
    cases v <;> simp_all [Value.mapNumbers]
  | shape s =>
    rw [TypeExpr.mapNumbers, mapNumbersOfShape_eq]
    exact Member.Ascending.map h
  | _ => simp [TypeExpr.mapNumbers, OwnReadable]

theorem Readable.mapNumbers {e : TypeExpr} (h : e.Readable) : (e.mapNumbers f).Readable := by
  intro c hc
  rw [subterms_mapNumbers] at hc
  obtain ⟨d, hd, rfl⟩ := List.mem_map.1 hc
  exact (h d hd).mapNumbers f

/-! ## How they are written -/

section Encode

variable {f} {g : TypeExpr → TypeExpr} (hf : ∀ n, f (.ofUInt32 n) = .ofUInt32 n)
include hf

theorem mapNumbers_encodeId (id : BundleId) : (encodeId id).mapNumbers f = encodeId id := by simp [encodeId, hf]

theorem encodeGeneric_map {x : Generic TypeExpr} (h : ∀ c ∈ x.constraint?, (g c).encode = c.encode.mapNumbers f) :
    encodeGeneric (x.map g) = (encodeGeneric x).mapNumbers f := by
  obtain ⟨id, constraint?⟩ := x
  cases constraint? with
  | none => simp [Generic.map, encodeGeneric, encodeConstraint, mapNumbers_encodeId hf]
  | some c => simp [Generic.map, encodeGeneric, encodeConstraint, mapNumbers_encodeId hf, h c rfl]

theorem encodeSignature_map {s : Signature TypeExpr} (h : ∀ c ∈ s.parts, (g c).encode = c.encode.mapNumbers f) :
    encodeSignature (s.map g) = (encodeSignature s).mapNumbers f := by
  obtain ⟨generics, parameters, returnType⟩ := s
  obtain ⟨hgenerics, hparameters, hreturn⟩ := Signature.forall_parts.1 h
  have hgeneric : ∀ x ∈ generics, encodeGeneric (x.map g) = (encodeGeneric x).mapNumbers f :=
    fun x hx => encodeGeneric_map hf (hgenerics x hx)
  have hparameter : ∀ p ∈ parameters, encodeParameter (p.map g) = (encodeParameter p).mapNumbers f := by
    rintro ⟨name, type, optional⟩ hp
    simpa [Parameter.map, encodeParameter] using hparameters _ hp
  simpa [Signature.map, encodeSignature, encodeGenerics_eq, encodeParameters_eq, hreturn] using ⟨hgeneric, hparameter⟩

theorem encodeShape_map {s : Shape TypeExpr} (h : ∀ c ∈ s.parts, (g c).encode = c.encode.mapNumbers f) :
    encodeShape (s.map g) = (encodeShape s).map fun field => (field.1, field.2.mapNumbers f) := by
  obtain ⟨isClass, bases, calls, constructs, members⟩ := s
  obtain ⟨hbases, hcalls, hconstructs, hmembers⟩ := Shape.forall_parts.1 h
  have hcall : ∀ s ∈ calls, encodeSignature (s.map g) = (encodeSignature s).mapNumbers f :=
    fun s hs => encodeSignature_map hf (hcalls s hs)
  have hconstruct : ∀ s ∈ constructs, encodeSignature (s.map g) = (encodeSignature s).mapNumbers f :=
    fun s hs => encodeSignature_map hf (hconstructs s hs)
  have hmember : ∀ m ∈ members, encodeMember (m.map g) = ((encodeMember m).1, (encodeMember m).2.mapNumbers f) := by
    rintro ⟨name, type, optional, readonly⟩ hm
    simpa [Member.map, encodeMember] using hmembers _ hm
  simpa [Shape.map, encodeShape, encodeList_eq, encodeSignatures_eq, encodeMembers_eq] using
    ⟨hbases, hcall, hconstruct, hmember⟩

/-- An expression with other numbers is written as its value with these numbers. -/
theorem encode_mapNumbers (e : TypeExpr) : (e.mapNumbers f).encode = e.encode.mapNumbers f := by
  induction e using childInduction with
  | h e ih =>
    cases e with
    | record id | parameter id => simp [mapNumbers, encode, mapNumbers_encodeId hf]
    | primitive kind literal? => cases literal? <;> simp [mapNumbers, encode]
    | union ms | intersection ms | tuple ms => simpa [mapNumbers, encode, mapNumbersOfList_eq, encodeList_eq, children] using ih
    | application id ms =>
      simpa [mapNumbers, encode, mapNumbersOfList_eq, encodeList_eq, mapNumbers_encodeId hf, children] using ih
    | keyOf operand => simpa [mapNumbers, encode, children] using ih
    | indexedAccess object index constraint? =>
      cases constraint? <;> simpa [mapNumbers, encode, mapNumbersOfOption_eq, encodeConstraint, children] using ih
    | shape s => simp [mapNumbers, encode, mapNumbersOfShape_eq, encodeShape_map hf ih]

end Encode

end TypeExpr

end TypeBundle
