import TypeBundle.Proofs.Bundle.Wire
import TypeBundle.Proofs.TypeExpr.Members
/-!
# Expressions without some marks

A member that is left out says nothing about its type, but it still says whether it can be assigned. `unmark` takes
that mark off the members with a hidden name, wherever they stand; two expressions that are the same without it differ
in nothing else. If no name is hidden nothing is taken off (`Bundle.unmark_noName`).
-/

namespace TypeBundle

/-- No name is hidden. -/
def noName (_ : String) : Bool := false

namespace TypeExpr

variable (hidden : String → Bool)

mutual
/-- The expression without the mark of being never assigned on members with a hidden name. -/
def unmark : TypeExpr → TypeExpr
  | record id => record id
  | primitive kind literal? => primitive kind literal?
  | union ms => union (unmarkOfList ms)
  | intersection ms => intersection (unmarkOfList ms)
  | keyOf operand => keyOf (unmark operand)
  | indexedAccess object index constraint? =>
    indexedAccess (unmark object) (unmark index) (unmarkOfOption constraint?)
  | shape s => shape (unmarkOfShape s)
  | tuple ms => tuple (unmarkOfList ms)
  | parameter id => parameter id
  | application id args => application id (unmarkOfList args)

def unmarkOfList : List TypeExpr → List TypeExpr
  | [] => []
  | e :: es => unmark e :: unmarkOfList es

def unmarkOfOption : Option TypeExpr → Option TypeExpr
  | none => none
  | some e => some (unmark e)

def unmarkOfShape : Shape TypeExpr → Shape TypeExpr
  | ⟨isClass, bases, calls, constructs, members⟩ =>
    ⟨isClass, unmarkOfList bases, unmarkOfSignatures calls, unmarkOfSignatures constructs, unmarkOfMembers members⟩

def unmarkOfSignatures : List (Signature TypeExpr) → List (Signature TypeExpr)
  | [] => []
  | s :: ss => unmarkOfSignature s :: unmarkOfSignatures ss

def unmarkOfSignature : Signature TypeExpr → Signature TypeExpr
  | ⟨generics, parameters, returnType⟩ =>
    ⟨unmarkOfGenerics generics, unmarkOfParameters parameters, unmark returnType⟩

def unmarkOfGenerics : List (Generic TypeExpr) → List (Generic TypeExpr)
  | [] => []
  | g :: gs => unmarkOfGeneric g :: unmarkOfGenerics gs

def unmarkOfGeneric : Generic TypeExpr → Generic TypeExpr
  | ⟨id, constraint?⟩ => ⟨id, unmarkOfOption constraint?⟩

def unmarkOfParameters : List (Parameter TypeExpr) → List (Parameter TypeExpr)
  | [] => []
  | p :: ps => unmarkOfParameter p :: unmarkOfParameters ps

def unmarkOfParameter : Parameter TypeExpr → Parameter TypeExpr
  | ⟨name, type, optional⟩ => ⟨name, unmark type, optional⟩

def unmarkOfMembers : List (Member TypeExpr) → List (Member TypeExpr)
  | [] => []
  | m :: ms => unmarkOfMember m :: unmarkOfMembers ms

def unmarkOfMember : Member TypeExpr → Member TypeExpr
  | ⟨name, type, optional, readonly⟩ => ⟨name, unmark type, optional, readonly && !hidden name⟩
end

end TypeExpr

section Parts

variable (hidden : String → Bool)

def Member.unmark (m : Member TypeExpr) : Member TypeExpr :=
  ⟨m.name, m.type.unmark hidden, m.optional, m.readonly && !hidden m.name⟩

def Shape.unmark (s : Shape TypeExpr) : Shape TypeExpr :=
  { s.map (·.unmark hidden) with members := s.members.map (·.unmark hidden) }

def Record.unmark (r : Record) : Record := r.map (·.unmark hidden)

def Bundle.unmark (b : Bundle) : Bundle := b.map (·.unmark hidden)

end Parts

namespace TypeExpr

variable (hidden : String → Bool)

theorem unmarkOfList_eq (es : List TypeExpr) : unmarkOfList hidden es = es.map (unmark hidden) := by
  induction es with
  | nil => rfl
  | cons e es ih => exact congrArg (unmark hidden e :: ·) ih

theorem unmarkOfOption_eq (e? : Option TypeExpr) : unmarkOfOption hidden e? = e?.map (unmark hidden) := by
  cases e? <;> rfl

theorem unmarkOfGenerics_eq (gs : List (Generic TypeExpr)) :
    unmarkOfGenerics hidden gs = gs.map (·.map (unmark hidden)) := by
  induction gs with
  | nil => rfl
  | cons g gs ih =>
    obtain ⟨id, constraint?⟩ := g
    exact congrArg₂ List.cons (congrArg (Generic.mk id) (unmarkOfOption_eq hidden constraint?)) ih

theorem unmarkOfParameters_eq (ps : List (Parameter TypeExpr)) :
    unmarkOfParameters hidden ps = ps.map (·.map (unmark hidden)) := by
  induction ps with
  | nil => rfl
  | cons p ps ih =>
    obtain ⟨name, type, optional⟩ := p
    exact congrArg (⟨name, type.unmark hidden, optional⟩ :: ·) ih

theorem unmarkOfSignatures_eq (ss : List (Signature TypeExpr)) :
    unmarkOfSignatures hidden ss = ss.map (·.map (unmark hidden)) := by
  induction ss with
  | nil => rfl
  | cons s ss ih =>
    obtain ⟨generics, parameters, returnType⟩ := s
    refine congrArg₂ List.cons ?_ ih
    exact congrArg₂ (Signature.mk · · (returnType.unmark hidden)) (unmarkOfGenerics_eq hidden generics)
      (unmarkOfParameters_eq hidden parameters)

theorem unmarkOfMembers_eq (ms : List (Member TypeExpr)) :
    unmarkOfMembers hidden ms = ms.map (·.unmark hidden) := by
  induction ms with
  | nil => rfl
  | cons m ms ih =>
    obtain ⟨name, type, optional, readonly⟩ := m
    exact congrArg (Member.unmark hidden ⟨name, type, optional, readonly⟩ :: ·) ih

theorem unmarkOfShape_eq (s : Shape TypeExpr) : unmarkOfShape hidden s = s.unmark hidden := by
  obtain ⟨isClass, bases, calls, constructs, members⟩ := s
  rw [Shape.unmark, Shape.map, ← unmarkOfList_eq, ← unmarkOfSignatures_eq, ← unmarkOfSignatures_eq, ← unmarkOfMembers_eq]
  rfl

@[simp] theorem unmark_record (id : BundleId) : (record id).unmark hidden = record id := rfl

@[simp] theorem unmark_union (ms : List TypeExpr) : (union ms).unmark hidden = union (ms.map (unmark hidden)) :=
  congrArg union (unmarkOfList_eq hidden ms)

@[simp] theorem unmark_intersection (ms : List TypeExpr) :
    (intersection ms).unmark hidden = intersection (ms.map (unmark hidden)) :=
  congrArg intersection (unmarkOfList_eq hidden ms)

@[simp] theorem unmark_keyOf (e : TypeExpr) : (keyOf e).unmark hidden = keyOf (e.unmark hidden) := rfl

@[simp] theorem unmark_indexedAccess (object index : TypeExpr) (constraint? : Option TypeExpr) :
    (indexedAccess object index constraint?).unmark hidden =
      indexedAccess (object.unmark hidden) (index.unmark hidden) (constraint?.map (unmark hidden)) :=
  congrArg (indexedAccess (object.unmark hidden) (index.unmark hidden)) (unmarkOfOption_eq hidden constraint?)

@[simp] theorem unmark_shape (s : Shape TypeExpr) : (shape s).unmark hidden = shape (s.unmark hidden) :=
  congrArg shape (unmarkOfShape_eq hidden s)

@[simp] theorem unmark_tuple (ms : List TypeExpr) : (tuple ms).unmark hidden = tuple (ms.map (unmark hidden)) :=
  congrArg tuple (unmarkOfList_eq hidden ms)

@[simp] theorem unmark_application (id : BundleId) (args : List TypeExpr) :
    (application id args).unmark hidden = application id (args.map (unmark hidden)) :=
  congrArg (application id) (unmarkOfList_eq hidden args)

end TypeExpr

/-! ## Nothing is hidden -/

theorem Signature.map_congr {f g : TypeExpr → TypeExpr} {s : Signature TypeExpr} (h : ∀ c ∈ s.parts, f c = g c) :
    s.map f = s.map g := by
  obtain ⟨generics, parameters, returnType⟩ := s
  simp only [parts, List.forall_mem_append, List.mem_filterMap, List.forall_mem_map, List.forall_mem_singleton,
    forall_exists_index, and_imp] at h
  obtain ⟨⟨hgenerics, hparameters⟩, hreturn⟩ := h
  have hgeneric : ∀ x ∈ generics, x.map f = x.map g := by
    rintro ⟨id, constraint?⟩ hx
    cases constraint? with
    | none => rfl
    | some c => simp [Generic.map, hgenerics c _ hx rfl]
  have hparameter : ∀ p ∈ parameters, p.map f = p.map g := fun p hp => by simp [Parameter.map, hparameters p hp]
  simp only [map, List.map_congr_left hgeneric, List.map_congr_left hparameter, hreturn]

theorem Shape.map_congr {f g : TypeExpr → TypeExpr} {s : Shape TypeExpr} (h : ∀ c ∈ s.parts, f c = g c) :
    s.map f = s.map g := by
  obtain ⟨isClass, bases, calls, constructs, members⟩ := s
  simp only [parts, List.forall_mem_append, List.mem_flatMap, List.forall_mem_map, forall_exists_index, and_imp] at h
  obtain ⟨⟨⟨hbases, hcalls⟩, hconstructs⟩, hmembers⟩ := h
  have hcall : ∀ x ∈ calls, x.map f = x.map g := fun x hx => Signature.map_congr fun c hc => hcalls c x hx hc
  have hconstruct : ∀ x ∈ constructs, x.map f = x.map g := fun x hx =>
    Signature.map_congr fun c hc => hconstructs c x hx hc
  have hmember : ∀ m ∈ members, m.map f = m.map g := fun m hm => by simp [Member.map, hmembers m hm]
  simp only [map, List.map_congr_left hbases, List.map_congr_left hcall, List.map_congr_left hconstruct,
    List.map_congr_left hmember]

theorem Shape.map_id (s : Shape TypeExpr) : s.map id = s := by
  have hsignatures : ∀ gs : List (Signature TypeExpr), gs.map (·.map id) = gs := fun gs => by
    simp [Signature.map, Generic.map, Parameter.map]
  simp [map, hsignatures, Member.map]

theorem Shape.unmark_noName (s : Shape TypeExpr) : s.unmark noName = s.map (·.unmark noName) := by
  simp [unmark, map, Member.unmark, Member.map, noName]

theorem TypeExpr.unmark_noName (e : TypeExpr) : e.unmark noName = e := by
  induction e using childInduction with
  | h e ih =>
    have hlist : ∀ {es : List TypeExpr}, (∀ c ∈ es, c.unmark noName = c) → es.map (unmark noName) = es := fun h =>
      (List.map_congr_left h).trans (List.map_id' _)
    cases e with
    | record _ | primitive _ _ | parameter _ => rfl
    | union ms | intersection ms | tuple ms | application _ ms => simpa [children] using hlist ih
    | keyOf operand => simpa [children] using ih
    | indexedAccess object index constraint? => cases constraint? <;> simpa [children] using ih
    | shape s => rw [unmark_shape, Shape.unmark_noName, Shape.map_congr (g := id) ih, Shape.map_id]

theorem Bundle.unmark_noName (b : Bundle) : b.unmark noName = b := by
  have h : (fun e : TypeExpr => e.unmark noName) = id := funext TypeExpr.unmark_noName
  rw [unmark, h, map_id]

/-! ## Members in their places -/

theorem Member.insert_map {α β : Type} {f : Member α → Member β} (hf : ∀ m, (f m).name = m.name) (m : Member α)
    (ns : List (Member α)) : (m.insert ns).map f = (f m).insert (ns.map f) := by
  induction ns with
  | nil => rfl
  | cons n ns ih =>
    simp only [insert, List.map_cons, hf]
    split
    · rfl
    · split
      · rfl
      · rw [List.map_cons, ih]

theorem Member.insertAll_map {α β : Type} {f : Member α → Member β} (hf : ∀ m, (f m).name = m.name)
    (ms done : List (Member α)) : (ms.foldl (fun done m => m.insert done) done).map f =
      (ms.map f).foldl (fun done m => m.insert done) (done.map f) := by
  induction ms generalizing done with
  | nil => rfl
  | cons m ms ih => rw [List.foldl_cons, ih, insert_map hf, List.map_cons, List.foldl_cons]

end TypeBundle
