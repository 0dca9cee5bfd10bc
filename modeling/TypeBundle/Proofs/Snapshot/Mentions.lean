import TypeBundle.Snapshot.Load
/-!
# Mentions, field by field

Whatever is asked of everything that an entry mentions is asked of each of its fields (`forall_typeMentions_iff`), so
that an entry that differs from another in a few fields has to be looked at in these only.
-/

namespace TypeBundle.Snapshot

/-- Everything that is said about a type satisfies the property. -/
structure TypeWithin (P : Mention → Prop) (t : HostType) : Prop where
  symbol : ∀ id ∈ t.symbol?, P (.symbol id)
  alias_ : ∀ id ∈ t.alias?, P (.symbol id)
  aliasArguments : ∀ id ∈ t.aliasArguments, P (.type id)
  target : ∀ id ∈ t.target?, P (.type id)
  typeArguments : ∀ id ∈ t.typeArguments, P (.type id)
  typeParameters : ∀ id ∈ t.typeParameters, P (.type id)
  constituents : ∀ id ∈ t.constituents, P (.type id)
  keyOperand : ∀ id ∈ t.keyOperand?, P (.type id)
  accessObject : ∀ id ∈ t.accessObject?, P (.type id)
  accessIndex : ∀ id ∈ t.accessIndex?, P (.type id)
  constraint : ∀ id ∈ t.constraint?, P (.type id)
  bases : ∀ id ∈ t.bases, P (.type id)
  callSignatures : ∀ id ∈ t.callSignatures, P (.signature id)
  constructSignatures : ∀ id ∈ t.constructSignatures, P (.signature id)
  declaredMembers : ∀ ids ∈ t.declaredMembers?, ∀ id ∈ ids, P (.symbol id)
  members : ∀ id ∈ t.members, P (.symbol id)

/-- Everything that is said about a symbol satisfies the property. -/
structure SymbolWithin (P : Mention → Prop) (x : HostSymbol) : Prop where
  type : ∀ id ∈ x.type?, P (.type id)
  declaredType : ∀ id ∈ x.declaredType?, P (.type id)
  aliasParameters : ∀ id ∈ x.aliasParameters, P (.type id)

/-- Everything that is said about a signature satisfies the property. -/
structure SignatureWithin (P : Mention → Prop) (g : HostSignature) : Prop where
  typeParameters : ∀ id ∈ g.typeParameters, P (.type id)
  parameters : ∀ id ∈ g.parameters, P (.symbol id)
  returnType : P (.type g.returnType)

variable {P : Mention → Prop}

theorem forall_typeMentions_iff {t : HostType} : (∀ m ∈ typeMentions t, P m) ↔ TypeWithin P t := by
  simp only [typeMentions, List.map_append, List.mem_append, List.mem_map, or_imp, forall_and, forall_exists_index,
    and_imp, forall_apply_eq_imp_iff₂, Option.mem_toList]
  constructor
  · rintro ⟨⟨h, ⟨⟨hmembers, hdeclared⟩, hsymbol⟩, halias⟩, hcalls, hconstructs⟩
    obtain ⟨⟨⟨⟨⟨⟨⟨⟨⟨haliasArguments, harguments⟩, hparameters⟩, hconstituents⟩, hbases⟩, htarget⟩, hkey⟩, hobject⟩, hindex⟩,
      hconstraint⟩ := h
    refine ⟨hsymbol, halias, haliasArguments, htarget, harguments, hparameters, hconstituents, hkey, hobject, hindex,
      hconstraint, hbases, hcalls, hconstructs, ?_, hmembers⟩
    intro ids hids id hid
    exact hdeclared id (by rwa [Option.mem_def.1 hids])
  · intro h
    refine ⟨⟨⟨⟨⟨⟨⟨⟨⟨⟨⟨h.aliasArguments, h.typeArguments⟩, h.typeParameters⟩, h.constituents⟩, h.bases⟩, h.target⟩,
      h.keyOperand⟩, h.accessObject⟩, h.accessIndex⟩, h.constraint⟩, ⟨⟨h.members, ?_⟩, h.symbol⟩, h.alias_⟩,
      h.callSignatures, h.constructSignatures⟩
    intro id hid
    cases hd : t.declaredMembers? with
    | none => simp [hd] at hid
    | some ids => exact h.declaredMembers ids hd id (by simpa [hd] using hid)

theorem forall_symbolMentions_iff {x : HostSymbol} : (∀ m ∈ symbolMentions x, P m) ↔ SymbolWithin P x := by
  simp only [symbolMentions, List.map_append, List.mem_append, List.mem_map, or_imp, forall_and, forall_exists_index,
    and_imp, forall_apply_eq_imp_iff₂, Option.mem_toList]
  constructor
  · rintro ⟨⟨hparameters, htype⟩, hdeclared⟩
    exact ⟨htype, hdeclared, hparameters⟩
  · exact fun h => ⟨⟨h.aliasParameters, h.type⟩, h.declaredType⟩

theorem forall_signatureMentions_iff {g : HostSignature} :
    (∀ m ∈ signatureMentions g, P m) ↔ SignatureWithin P g := by
  simp only [signatureMentions, List.map_append, List.map_cons, List.map_nil, List.mem_append, List.mem_map,
    List.mem_singleton, or_imp, forall_and, forall_exists_index, and_imp, forall_apply_eq_imp_iff₂, forall_eq]
  constructor
  · rintro ⟨⟨htypes, hreturn⟩, hparameters⟩
    exact ⟨htypes, hparameters, hreturn⟩
  · exact fun h => ⟨⟨h.typeParameters, h.returnType⟩, h.parameters⟩

theorem TypeWithin.empty : TypeWithin P default := by
  constructor <;> simp [default]

theorem SymbolWithin.empty : SymbolWithin P default := by
  constructor <;> simp [default]

variable {Q : Mention → Prop} (hPQ : ∀ m, P m → Q m)
include hPQ

theorem TypeWithin.mono {t : HostType} (h : TypeWithin P t) : TypeWithin Q t :=
  forall_typeMentions_iff.1 fun m hm => hPQ m (forall_typeMentions_iff.2 h m hm)

theorem SymbolWithin.mono {x : HostSymbol} (h : SymbolWithin P x) : SymbolWithin Q x :=
  forall_symbolMentions_iff.1 fun m hm => hPQ m (forall_symbolMentions_iff.2 h m hm)

theorem SignatureWithin.mono {g : HostSignature} (h : SignatureWithin P g) : SignatureWithin Q g :=
  forall_signatureMentions_iff.1 fun m hm => hPQ m (forall_signatureMentions_iff.2 h m hm)

end TypeBundle.Snapshot
