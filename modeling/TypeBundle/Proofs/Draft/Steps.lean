import TypeBundle.Proofs.Draft.Ranges
/-!
# Every step of drafting is safe

One lemma for each step, put together from those for entries: given ids that the draft has, a step comes to an end and
answers ids that the draft then has. The steps that make a scope known stand apart, since they change more than entries.
-/

namespace TypeBundle.Draft

open Snapshot

variable {known : List Mention}

theorem flatMap_typeIds (ts : List TypeId) : ts.flatMap typeIds = ts.map Mention.type := List.map_eq_flatMap.symm

theorem flatMap_symbolIds (xs : List SymbolId) : xs.flatMap symbolIds = xs.map Mention.symbol :=
  List.map_eq_flatMap.symm

/-! ## Symbols -/

theorem symbol_safe (qualified : String) (flags : SymbolFlags) : Safe known (symbol qualified flags) symbolIds :=
  .bind .declarationHere fun _ => .addSymbol { SymbolWithin.empty with }

theorem redeclare_safe {id : SymbolId} (h : .symbol id ∈ known) : Safe known (redeclare id) noIds :=
  .bind .declarationHere fun _ => .changeSymbol h fun _ _ _ hs => { hs with }

theorem symbolOf_safe {id : TypeId} (h : .type id ∈ known) :
    Safe known (symbolOf id) fun s? => s?.toList.map .symbol := by
  refine .bind (.typeEntry h) fun t => .pure fun m hm => ?_
  have ht : TypeWithin (· ∈ typeMentions t) t := forall_typeMentions_iff.1 fun _ hm => hm
  simp only [List.mem_map, Option.mem_toList] at hm
  obtain ⟨s, hs, rfl⟩ := hm
  exact List.mem_append_left _ (ht.symbol s hs)

/-! ## Types -/

theorem raw_safe (flags : TypeFlags) (objectFlags : ObjectFlags) : Safe known (raw flags objectFlags) typeIds :=
  .addType { TypeWithin.empty with }

theorem literal_safe (flags : TypeFlags) (value : Literal) : Safe known (literal flags value) typeIds :=
  .addType { TypeWithin.empty with }

/-- The symbol and the type mention each other. -/
theorem nominal_safe (qualified : String) (symbolFlags : SymbolFlags) (objectFlags : ObjectFlags) :
    Safe known (nominal qualified symbolFlags objectFlags) typeIds := by
  refine .bind (symbol_safe _ _) fun s => .bind (.addType ?_) fun id => .bind (.changeSymbol ?_ ?_) fun _ => .pure ?_
  · exact { TypeWithin.empty with
      symbol := by simp [symbolIds]
      declaredMembers := by simp }
  · simp [symbolIds]
  · exact fun P hP x hx => { hx with declaredType := by simpa using hP _ (by simp [typeIds]) }
  · simp [typeIds]

theorem typeParameter_safe (name : String) : Safe known (typeParameter name) typeIds :=
  .bind (symbol_safe _ _) fun _ => .addType { TypeWithin.empty with symbol := by simp [symbolIds] }

/-- What an answer of a type with its parameters hands out. -/
def genericIds (answer : TypeId × List TypeId) : List Mention := .type answer.1 :: answer.2.map .type

theorem makeGeneric_safe {id : TypeId} (h : .type id ∈ known) (parameters : List String) :
    Safe known (makeGeneric id parameters) genericIds := by
  refine .bind (.mapM fun name _ => typeParameter_safe name) fun ps => ?_
  rw [flatMap_typeIds]
  have hid : .type id ∈ ps.map Mention.type ++ known := List.mem_append_right _ h
  refine .bind (.changeType hid fun P hP t ht => ?_) fun _ => .pure ?_
  · have hps : ∀ p ∈ ps, P (.type p) := fun p hp => hP _ (by simp [hp])
    exact { ht with
      target := by simpa using hP _ hid
      typeArguments := hps
      typeParameters := hps }
  · simp [genericIds, h]

theorem generic_safe {declare : Drafting TypeId} (h : Safe known declare typeIds) (parameters : List String) :
    Safe known (declare >>= fun id => makeGeneric id parameters) genericIds :=
  .bind h fun _ => makeGeneric_safe (by simp [typeIds]) parameters

theorem constrain_safe {id constraint : TypeId} (h : .type id ∈ known) (hc : .type constraint ∈ known) :
    Safe known (constrain id constraint) noIds :=
  .changeType h fun _ hP _ ht => { ht with constraint := by simpa using hP _ hc }

/-- An instantiation is named like its target. -/
theorem instantiate_safe {target : TypeId} {args : List TypeId} (h : .type target ∈ known)
    (hargs : ∀ a ∈ args, .type a ∈ known) : Safe known (instantiate target args) typeIds := by
  refine .bind (.typeEntry h) fun t => .addType ?_
  have ht : TypeWithin (· ∈ typeMentions t) t := forall_typeMentions_iff.1 fun _ hm => hm
  exact { TypeWithin.empty with
    symbol := fun s hs => List.mem_append_left _ (ht.symbol s hs)
    target := by simp [h]
    typeArguments := fun a ha => List.mem_append_right _ (hargs a ha) }

theorem tuple_safe {elements : List TypeId} (h : ∀ e ∈ elements, .type e ∈ known) :
    Safe known (tuple elements) typeIds :=
  .bind (raw_safe _ _) fun _ => .addType { TypeWithin.empty with
    target := by simp [typeIds]
    typeArguments := fun e he => List.mem_append_right _ (h e he) }

theorem objectLiteral_safe : Safe known objectLiteral typeIds :=
  .bind (symbol_safe _ _) fun _ => .addType { TypeWithin.empty with symbol := by simp [symbolIds] }

theorem union_safe {members : List TypeId} (h : ∀ m ∈ members, .type m ∈ known) : Safe known (union members) typeIds :=
  .addType { TypeWithin.empty with constituents := h }

theorem intersection_safe {members : List TypeId} (h : ∀ m ∈ members, .type m ∈ known) :
    Safe known (intersection members) typeIds :=
  .addType { TypeWithin.empty with constituents := h }

theorem keyOf_safe {operand : TypeId} (h : .type operand ∈ known) : Safe known (keyOf operand) typeIds :=
  .addType { TypeWithin.empty with keyOperand := by simp [h] }

theorem indexedAccess_safe {object index : TypeId} (ho : .type object ∈ known) (hi : .type index ∈ known) :
    Safe known (indexedAccess object index) typeIds :=
  .addType { TypeWithin.empty with
    accessObject := by simp [ho]
    accessIndex := by simp [hi] }

theorem enumeration_safe (qualified : String) (values : List Binary64) :
    Safe known (enumeration qualified values) typeIds := by
  refine .bind (symbol_safe _ _) fun s => .bind (.mapM fun x _ => literal_safe _ _) fun literals => .addType ?_
  rw [flatMap_typeIds]
  exact { TypeWithin.empty with
    symbol := by simp [symbolIds]
    constituents := fun t ht => by simp [ht] }

theorem extend_safe {id base : TypeId} (h : .type id ∈ known) (hb : .type base ∈ known) :
    Safe known (extend id base) noIds := by
  refine .changeType h fun P hP t ht => { ht with bases := ?_ }
  simpa [or_imp, forall_and] using ⟨ht.bases, hP _ hb⟩

/-! ## Members and signatures -/

theorem member_safe {owner : TypeId} {spec : MemberSpec} (h : .type owner ∈ known) (ht : .type spec.type ∈ known) :
    Safe known (member owner spec) symbolIds := by
  refine .bind .declarationHere fun here => .bind (symbol_safe _ _) fun s => .bind (.changeSymbol ?_ ?_) fun _ =>
    .bind (.changeType ?_ ?_) fun _ => .pure ?_
  · simp [symbolIds]
  · intro P hP x hx
    exact { hx with type := by simpa using hP _ (by simp [noIds, ht]) }
  · simp [h]
  · intro P hP t htype
    have hs : P (.symbol s) := hP _ (by simp [symbolIds, noIds])
    exact { htype with
      declaredMembers := by
        intro ids hids id hid
        obtain ⟨declared, hdeclared, rfl⟩ := Option.map_eq_some_iff.1 hids
        rcases List.mem_append.1 hid with hid | hid
        · exact htype.declaredMembers declared hdeclared id hid
        · rwa [List.mem_singleton.1 hid]
      members := by simpa [or_imp, forall_and] using ⟨htype.members, hs⟩ }
  · simp [symbolIds, noIds]

theorem parameter_safe {spec : ParameterSpec} (h : .type spec.type ∈ known) :
    Safe known (parameter spec) symbolIds := by
  refine .bind (symbol_safe _ _) fun s => .bind (.changeSymbol (by simp [symbolIds]) ?_) fun _ => .pure ?_
  · intro P hP x hx
    exact { hx with type := by simpa using hP _ (by simp [h]) }
  · simp [symbolIds, noIds]

theorem signature_safe {typeParameters : List TypeId} {parameters : List ParameterSpec} {returnType : TypeId}
    (hts : ∀ t ∈ typeParameters, .type t ∈ known) (hps : ∀ p ∈ parameters, .type p.type ∈ known)
    (hr : .type returnType ∈ known) :
    Safe known (signature typeParameters parameters returnType) fun id => [.signature id] := by
  refine .bind (.mapM fun p hp => parameter_safe (hps p hp)) fun ps => .addSignature ?_
  rw [flatMap_symbolIds]
  exact {
    typeParameters := fun t ht => List.mem_append_right _ (hts t ht)
    parameters := fun p hp => by simp [hp]
    returnType := List.mem_append_right _ hr }

theorem callSignature_safe {owner : TypeId} {g : SignatureId} (h : .type owner ∈ known) (hg : .signature g ∈ known) :
    Safe known (callSignature owner g) noIds := by
  refine .changeType h fun P hP t ht => { ht with callSignatures := ?_ }
  simpa [or_imp, forall_and] using ⟨ht.callSignatures, hP _ hg⟩

theorem constructSignature_safe {owner : TypeId} {g : SignatureId} (h : .type owner ∈ known)
    (hg : .signature g ∈ known) : Safe known (constructSignature owner g) noIds := by
  refine .changeType h fun P hP t ht => { ht with constructSignatures := ?_ }
  simpa [or_imp, forall_and] using ⟨ht.constructSignatures, hP _ hg⟩

theorem function_safe {parameters : List ParameterSpec} {returnType : TypeId}
    (hps : ∀ p ∈ parameters, .type p.type ∈ known) (hr : .type returnType ∈ known) :
    Safe known (function parameters returnType) typeIds := by
  refine .bind objectLiteral_safe fun id => .bind (signature_safe ?_ ?_ ?_) fun g =>
    .bind (callSignature_safe ?_ ?_) fun _ => .pure ?_
  · simp
  · exact fun p hp => List.mem_append_right _ (hps p hp)
  · exact List.mem_append_right _ hr
  · simp [typeIds]
  · simp
  · simp [typeIds]

/-! ## Aliases -/

theorem typeAlias_safe (qualified : String) (parameters : List String) :
    Safe known (typeAlias qualified parameters) fun (s, ps) => .symbol s :: ps.map .type := by
  refine .bind (symbol_safe _ _) fun s => .bind (.mapM fun name _ => typeParameter_safe name) fun ps => ?_
  rw [flatMap_typeIds]
  refine .bind (.changeSymbol (by simp [symbolIds]) fun P hP x hx => ?_) fun _ => .pure ?_
  · exact { hx with aliasParameters := fun p hp => hP _ (by simp [hp]) }
  · simp [symbolIds]

theorem aliasBody_safe {s : SymbolId} {body : TypeId} (hs : .symbol s ∈ known) (hb : .type body ∈ known) :
    Safe known (aliasBody s body) noIds := by
  refine .bind (.symbolEntry hs) fun x => .bind (.changeSymbol (by simp [hs]) ?_) fun _ => .changeType (by simp [hb]) ?_
  · intro P hP y hy
    exact { hy with declaredType := by simpa using hP _ (by simp [hb]) }
  · intro P hP t ht
    have hx : SymbolWithin (· ∈ symbolMentions x) x := forall_symbolMentions_iff.1 fun _ hm => hm
    exact { ht with
      alias_ := by simpa using hP _ (by simp [hs])
      aliasArguments := fun p hp => hP _ (by simp [hx.aliasParameters p hp]) }

theorem aliasTarget_safe {s : SymbolId} {id : TypeId} (hs : .symbol s ∈ known) (h : .type id ∈ known) :
    Safe known (aliasTarget s id) noIds :=
  .changeSymbol hs fun _ hP _ hx => { hx with declaredType := by simpa using hP _ h }

/-- The body that is copied mentions what is in range. -/
theorem aliasInstance_safe {s : SymbolId} {args : List TypeId} (hs : .symbol s ∈ known)
    (hargs : ∀ a ∈ args, .type a ∈ known) : Safe known (aliasInstance s args) typeIds := by
  refine .bind (.symbolEntry hs) fun x => ?_
  have hx : SymbolWithin (· ∈ symbolMentions x) x := forall_symbolMentions_iff.1 fun _ hm => hm
  have hcopy : ∀ body : HostType, Safe (typeMentions body ++ (symbolMentions x ++ known))
      (addType { body with alias? := some s, aliasArguments := args }) typeIds := fun body =>
    have hbody : TypeWithin (· ∈ typeMentions body) body := forall_typeMentions_iff.1 fun _ hm => hm
    .addType { hbody.mono fun m hm => List.mem_append_left _ hm with
      alias_ := by simp [hs]
      aliasArguments := fun a ha => by simp [hargs a ha] }
  cases hd : x.declaredType? with
  | none => exact .bind (.pure (by simp [typeMentions])) hcopy
  | some id => exact .bind (.typeEntry (List.mem_append_left _ (hx.declaredType id hd))) hcopy

/-! ## Scopes -/

theorem scope_safe (name : String) : Safe known (scope name) fun (s, id) => [.symbol s, .type id] := by
  refine .bind (symbol_safe _ _) fun s => .bind (.addType ?_) fun id => .bind (.changeSymbol ?_ ?_) fun _ => .pure ?_
  · exact { TypeWithin.empty with symbol := by simp [symbolIds] }
  · simp [symbolIds]
  · exact fun P hP x hx => { hx with type := by simpa using hP _ (by simp [typeIds]) }
  · simp [symbolIds, typeIds]

theorem ambientModule_safe (name : String) : Safe known (ambientModule name) typeIds :=
  .bind (scope_safe _) fun _ => .bind (.addModule List.mem_cons_self) fun _ => .pure (by simp [typeIds, noIds])

end TypeBundle.Draft
