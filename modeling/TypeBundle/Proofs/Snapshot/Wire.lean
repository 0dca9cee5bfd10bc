import TypeBundle.Proofs.Flags
import TypeBundle.Proofs.Outline
import TypeBundle.Snapshot.Wire
/-!
# Snapshots are read as they are shown

From a document that shows the outline of a snapshot the snapshot is read again, field by field: what was left out is
what is read where there is no field. Only literals are read as the format has them (`of?_shown`).
-/

namespace TypeBundle.Snapshot

open Document

/-- The type with its literal as it is read again. -/
def rereadType (reread : Literal → Option Literal) (e : TypeEntry) : TypeEntry :=
  { e with facts := { e.facts with literal? := e.facts.literal?.bind reread } }

/-- The snapshot with the literals as they are read again. -/
def reread (reread : Literal → Option Literal) (s : Snapshot) : Snapshot :=
  { s with types := s.types.map (rereadType reread) }

/-- If each literal is read as it is, so is the snapshot. -/
theorem reread_eq_self {reread : Literal → Option Literal} {s : Snapshot}
    (h : ∀ e ∈ s.types, e.facts.literal?.bind reread = e.facts.literal?) : s.reread reread = s := by
  have htypes : s.types.map (rereadType reread) = s.types.map id := by
    refine List.map_congr_left fun e he => ?_
    rw [rereadType, h e he]
    rfl
  rw [Snapshot.reread, htypes, List.map_id]

variable {ν : Type} [Document ν] {shown : Outline → ν} {reread : Literal → Option Literal} (h : Shows shown reread)
include h

theorem flags?_shown {w : Vocabulary} (a : Flags w) : flags? (shown (.string a.text)) = some a := by
  rw [flags?, h.string, Option.bind_some, Flags.parse_text]
  rfl

omit h in
theorem typeId_mk (i : TypeId) : TypeId.mk i.val = i := rfl

omit h in
theorem symbolId_mk (i : SymbolId) : SymbolId.mk i.val = i := rfl

omit h in
theorem signatureId_mk (i : SignatureId) : SignatureId.mk i.val = i := rfl

/-! ## Types -/

/-- The fields of a type, those without a value as well. -/
def typeFields (id : TypeId) (t : HostType) : List (String × Option Outline) :=
  [("id", some (typeWord id)),
    ("flags", some (.string t.flags.text)),
    ("objectFlags", if t.objectFlags.isEmpty then none else some (.string t.objectFlags.text)),
    ("literal", t.literal?.map .literal),
    ("symbol", t.symbol?.map symbolWord),
    ("aliasSymbol", t.alias?.map symbolWord),
    ("aliasTypeArguments", typeList? t.aliasArguments),
    ("target", t.target?.map typeWord),
    ("typeArguments", typeList? t.typeArguments),
    ("typeParameters", typeList? t.typeParameters),
    ("types", typeList? t.constituents),
    ("indexOperand", t.keyOperand?.map typeWord),
    ("objectType", t.accessObject?.map typeWord),
    ("indexType", t.accessIndex?.map typeWord),
    ("constraint", t.constraint?.map typeWord),
    ("baseTypes", typeList? t.bases),
    ("callSignatures", signatureList? t.callSignatures),
    ("constructSignatures", signatureList? t.constructSignatures),
    ("declaredProperties", t.declaredMembers?.map symbolList),
    ("properties", if t.members.isEmpty then none else some (symbolList t.members))]

theorem typeEntry?_shown (e : TypeEntry) : typeEntry? (shown (outlineType e)) = some (rereadType reread e) := by
  obtain ⟨i, t⟩ := e
  have htype {name : String} {i? : Option TypeId}
      (hfield : (typeFields i t).filter (·.1 == name) = [(name, i?.map typeWord)]) :
      optional (shownFields shown (typeFields i t)) name typeId? = some i? := h.optionalId typeId_mk hfield
  have hsymbol {name : String} {i? : Option SymbolId}
      (hfield : (typeFields i t).filter (·.1 == name) = [(name, i?.map symbolWord)]) :
      optional (shownFields shown (typeFields i t)) name symbolId? = some i? := h.optionalId symbolId_mk hfield
  have htypes {name : String} {is : List TypeId}
      (hfield : (typeFields i t).filter (·.1 == name) = [(name, typeList? is)]) :
      defaulted (shownFields shown (typeFields i t)) name [] (list? typeId?) = some is := h.idList typeId_mk hfield
  have hsignatures {name : String} {is : List SignatureId}
      (hfield : (typeFields i t).filter (·.1 == name) = [(name, signatureList? is)]) :
      defaulted (shownFields shown (typeFields i t)) name [] (list? signatureId?) = some is :=
    h.idList signatureId_mk hfield
  have hid : required (shownFields shown (typeFields i t)) "id" typeId? = some i :=
    required_shown rfl (h.id typeId_mk i)
  have hflags : required (shownFields shown (typeFields i t)) "flags" flags? = some t.flags :=
    required_shown rfl (flags?_shown h _)
  have hobjectFlags : defaulted (shownFields shown (typeFields i t)) "objectFlags" .empty flags? =
      some t.objectFlags :=
    defaulted_unless rfl (flags?_shown h _) fun hempty => (Flags.eq_empty hempty).symm
  have hliteral : optional (shownFields shown (typeFields i t)) "literal" literal? = some (t.literal?.bind reread) :=
    h.optionalLiteral rfl
  have hdeclared : optional (shownFields shown (typeFields i t)) "declaredProperties" (list? symbolId?) =
      some (t.declaredMembers?.map id) :=
    optional_shown rfl (fun _ => h.listPresent _) fun ids _ => h.ids symbolId_mk ids
  rw [Option.map_id] at hdeclared
  have hmembers : defaulted (shownFields shown (typeFields i t)) "properties" [] (list? symbolId?) = some t.members :=
    defaulted_unless rfl (h.ids symbolId_mk _) fun hempty => (List.isEmpty_iff.1 hempty).symm
  refine bind_of_some (h.objectOf (typeFields i t) _) ?_
  exact bind_of_some hid <| bind_of_some hflags <| bind_of_some hobjectFlags <|
    bind_of_some hliteral <| bind_of_some (hsymbol rfl) <| bind_of_some (hsymbol rfl) <| bind_of_some (htypes rfl) <|
    bind_of_some (htype rfl) <| bind_of_some (htypes rfl) <| bind_of_some (htypes rfl) <| bind_of_some (htypes rfl) <|
    bind_of_some (htype rfl) <| bind_of_some (htype rfl) <| bind_of_some (htype rfl) <| bind_of_some (htype rfl) <|
    bind_of_some (htypes rfl) <| bind_of_some (hsignatures rfl) <| bind_of_some (hsignatures rfl) <|
    bind_of_some hdeclared <| bind_of_some hmembers rfl

/-! ## Symbols and signatures -/

def declarationFields (d : Declaration) : List (String × Option Outline) :=
  [("file", some (.string d.file)), ("modifiers", some (.string d.modifiers.text))]

theorem declaration?_shown (d : Declaration) : declaration? (shown (outlineDeclaration d)) = some d := by
  have hmodifiers : defaulted (shownFields shown (declarationFields d)) "modifiers" .empty flags? = some d.modifiers :=
    defaulted_shown rfl (fun _ hv => Option.some.inj hv ▸ flags?_shown h _) fun hnone => by cases hnone
  refine bind_of_some (h.objectOf (declarationFields d) _) ?_
  exact bind_of_some (required_shown rfl (h.string _)) <| bind_of_some hmodifiers rfl

/-- The fields of a symbol, those without a value as well. -/
def symbolFields (id : SymbolId) (x : HostSymbol) : List (String × Option Outline) :=
  [("id", some (symbolWord id)),
    ("name", some (.string x.name)),
    ("qualifiedName", x.qualifiedName?.map .string),
    ("flags", some (.string x.flags.text)),
    ("declarations",
      if x.declarations.isEmpty then none else some (.list (x.declarations.map outlineDeclaration))),
    ("type", x.type?.map typeWord),
    ("declaredType", x.declaredType?.map typeWord),
    ("aliasTypeParameters", typeList? x.aliasParameters)]

theorem symbolEntry?_shown (e : SymbolEntry) : symbolEntry? (shown (outlineSymbol e)) = some e := by
  obtain ⟨i, x⟩ := e
  have hname : required (shownFields shown (symbolFields i x)) "name" string? = some x.name :=
    required_shown rfl (h.string _)
  have hqualified : optional (shownFields shown (symbolFields i x)) "qualifiedName" string? =
      some (x.qualifiedName?.map id) :=
    optional_shown rfl (fun _ => h.stringPresent _) fun name _ => h.string name
  rw [Option.map_id] at hqualified
  have hflags : defaulted (shownFields shown (symbolFields i x)) "flags" .empty flags? = some x.flags :=
    defaulted_shown rfl (fun _ hv => Option.some.inj hv ▸ flags?_shown h _) fun hnone => by cases hnone
  have hdeclarations : defaulted (shownFields shown (symbolFields i x)) "declarations" [] (list? declaration?) =
      some x.declarations := by
    refine defaulted_unless rfl ?_ fun hempty => (List.isEmpty_iff.1 hempty).symm
    simpa using h.items (f := id) fun d _ => declaration?_shown h d
  refine bind_of_some (h.objectOf (symbolFields i x) _) ?_
  exact bind_of_some (required_shown rfl (h.id symbolId_mk i)) <| bind_of_some hname <|
    bind_of_some hqualified <| bind_of_some hflags <| bind_of_some hdeclarations <|
    bind_of_some (h.optionalId typeId_mk rfl) <| bind_of_some (h.optionalId typeId_mk rfl) <|
    bind_of_some (h.idList typeId_mk rfl) rfl

/-- The fields of a signature, those without a value as well. -/
def signatureFields (id : SignatureId) (g : HostSignature) : List (String × Option Outline) :=
  [("id", some (.word id.val)),
    ("typeParameters", typeList? g.typeParameters),
    ("parameters", some (symbolList g.parameters)),
    ("returnType", some (typeWord g.returnType))]

theorem signatureEntry?_shown (e : SignatureEntry) : signatureEntry? (shown (outlineSignature e)) = some e := by
  obtain ⟨i, g⟩ := e
  have hparameters : defaulted (shownFields shown (signatureFields i g)) "parameters" [] (list? symbolId?) =
      some g.parameters :=
    defaulted_shown rfl (fun _ hv => Option.some.inj hv ▸ h.ids symbolId_mk _) fun hnone => by cases hnone
  refine bind_of_some (h.objectOf (signatureFields i g) _) ?_
  exact bind_of_some (required_shown rfl (h.id signatureId_mk i)) <|
    bind_of_some (h.idList typeId_mk rfl) <| bind_of_some hparameters <|
    bind_of_some (required_shown rfl (h.id typeId_mk _)) rfl

/-! ## Snapshots -/

/-- The fields of a snapshot, those without a value as well. -/
def fields (s : Snapshot) : List (String × Option Outline) :=
  [("types", some (.list (s.types.map outlineType))),
    ("symbols", some (.list (s.symbols.map outlineSymbol))),
    ("signatures", some (.list (s.signatures.map outlineSignature))),
    ("global", s.global?.map symbolWord),
    ("ambientModules", some (symbolList s.ambientModules))]

/-- A document that shows a snapshot is read as the snapshot with its literals as the format has them. -/
theorem of?_shown (s : Snapshot) : of? (shown s.outline) = some (s.reread reread) := by
  have htable {α β : Type} {name : String} {items : List α} {make : α → Outline} {read : ν → Option β} {f : α → β}
      (hfield : s.fields.filter (·.1 == name) = [(name, some (.list (items.map make)))])
      (hread : ∀ a, read (shown (make a)) = some (f a)) :
      defaulted (shownFields shown s.fields) name [] (list? read) = some (items.map f) :=
    defaulted_shown hfield (fun _ hv => Option.some.inj hv ▸ h.items fun a _ => hread a) fun hnone => by cases hnone
  have hsymbols : defaulted (shownFields shown s.fields) "symbols" [] (list? symbolEntry?) = some (s.symbols.map id) :=
    htable rfl (symbolEntry?_shown h)
  have hsignatures : defaulted (shownFields shown s.fields) "signatures" [] (list? signatureEntry?) =
      some (s.signatures.map id) := htable rfl (signatureEntry?_shown h)
  have hmodules : defaulted (shownFields shown s.fields) "ambientModules" [] (list? symbolId?) =
      some (s.ambientModules.map id) := htable rfl (h.id symbolId_mk)
  rw [List.map_id] at hsymbols hsignatures hmodules
  refine bind_of_some (h.objectOf s.fields _) ?_
  exact bind_of_some (htable rfl (typeEntry?_shown h)) <| bind_of_some hsymbols <|
    bind_of_some hsignatures <| bind_of_some (h.optionalId symbolId_mk rfl) <| bind_of_some hmodules rfl

end TypeBundle.Snapshot
