import TypeBundle.Pass.Run
import TypeBundle.Proofs.Host.Kind
import TypeBundle.Proofs.Walk.Expanding
/-!
# What a walk keeps

`Keeps I E w`: the walk `w` keeps the property `I` of the progress, however it ends, and it stops only
for reasons in `E`. First the rules for sequences and lists, then one lemma for each rule of a walk:
what the walk of the types inside keeps, the rule keeps. A rule that begins a record may keep a
stronger property `J` until the record is finished.
-/

namespace TypeBundle.Walk

variable {α β : Type}

/-- The walk keeps a property of the progress and stops only for certain reasons. -/
def Keeps (I : Progress → Prop) (E : Stop → Prop) (w : Walk α) : Prop :=
  ∀ p, I p → match w p with
    | .ok _ q => I q
    | .error e q => I q ∧ E e

namespace Keeps

variable {I J : Progress → Prop} {E : Stop → Prop}

/-! ## Sequences and lists -/

theorem mono {E' : Stop → Prop} {w : Walk α} (hE : ∀ e, E e → E' e) (hw : Keeps I E w) : Keeps I E' w := by
  intro p hp
  have h := hw p hp
  cases hr : w p with
  | ok a q =>
    rw [hr] at h
    exact h
  | error e q =>
    rw [hr] at h
    exact ⟨h.1, hE e h.2⟩

theorem pure (a : α) : Keeps I E (Pure.pure a : Walk α) := fun _ h => h

theorem bind {w : Walk α} {f : α → Walk β} (hw : Keeps I E w) (hf : ∀ a, Keeps I E (f a)) :
    Keeps I E (w >>= f) := by
  intro p hp
  have h := hw p hp
  rw [seq_apply]
  cases hr : w p with
  | ok a q =>
    rw [hr] at h
    exact hf a q h
  | error e q =>
    rw [hr] at h
    exact h

theorem map {w : Walk α} {f : α → β} (hw : Keeps I E w) : Keeps I E (f <$> w) := by
  rw [map_eq_pure_bind]
  exact bind hw fun _ => pure _

theorem mapM {f : α → Walk β} {as : List α} (h : ∀ a ∈ as, Keeps I E (f a)) : Keeps I E (as.mapM f) := by
  induction as with
  | nil => exact pure _
  | cons a as ih =>
    rw [List.mapM_cons]
    refine bind (h a List.mem_cons_self) fun _ => bind (ih ?_) fun _ => pure _
    intro b hb
    exact h b (List.mem_cons_of_mem _ hb)

theorem fail {failure : Failure} (h : E (.failed failure)) : Keeps I E (Walk.fail failure : Walk α) :=
  fun _ hp => ⟨hp, h⟩

/-- What is missing is a reason to stop; what is there is gone on with. -/
theorem orUnexpected_bind {what : Unexpected} {a? : Option α} {f : α → Walk β}
    (hnone : a? = none → E (.failed (.unexpected what))) (hsome : ∀ a, a? = some a → Keeps I E (f a)) :
    Keeps I E (Walk.orUnexpected what a? >>= f) := by
  cases a? with
  | none => exact fun _ hp => ⟨hp, hnone rfl⟩
  | some a => exact hsome a rfl

theorem expanding {key : Identity} {again : BundleId → α} {first : BundleId → Walk (Record × α)}
    (hopen : ∀ p, I p → p.registry.get? key = none → J (p.open_ key)) (hfirst : ∀ id, Keeps J E (first id))
    (hclose : ∀ p record, J p → I (p.close record)) (hJ : ∀ p, J p → I p) :
    Keeps I E (Walk.expanding key again first) := by
  intro p hp
  cases hk : p.registry.get? key with
  | some id =>
    rw [expanding_of_some hk]
    exact hp
  | none =>
    have h := hfirst p.registry.next (p.open_ key) (hopen p hp hk)
    rw [expanding_of_none hk]
    cases hr : first p.registry.next (p.open_ key) with
    | ok r q =>
      rw [hr] at h
      exact hclose q r.1 h
    | error e q =>
      -- the record is left under construction
      rw [hr] at h
      exact ⟨hJ q h.1, h.2⟩

end Keeps

/-! ## The rules for one type -/

section Rules

variable {host : Host} {settings : Settings} {resolve : TypeId → Walk TypeExpr}
variable {I J : Progress → Prop} {E : Stop → Prop}

theorem refer_keeps {record : BundleId} {args : List TypeId} (h : ∀ t ∈ args, Keeps I E (resolve t)) :
    Keeps I E (refer resolve record args) := by
  unfold refer
  split
  · exact .pure _
  · exact .bind (.mapM h) fun _ => .pure _

theorem resolveOption_keeps {t? : Option TypeId} (h : ∀ t ∈ t?, Keeps I E (resolve t)) :
    Keeps I E (resolveOption resolve t?) := by
  cases t? with
  | none => exact .pure _
  | some t => exact .map (h t rfl)

theorem generics_keeps {ps : List TypeId} (hparameter : ∀ t ∈ ps, Keeps I E (reserve (.type t)))
    (hpart : ∀ t ∈ host.constraints ps, Keeps I E (resolve t)) : Keeps I E (generics host resolve ps) := by
  refine .bind (.mapM fun t ht => .bind (hparameter t ht) fun _ => .pure _) fun ids => .mapM ?_
  rintro ⟨id, t⟩ ht
  refine .bind (resolveOption_keeps fun c hc => hpart c ?_) fun _ => .pure _
  exact List.mem_filterMap.2 ⟨t, (List.of_mem_zip ht).2, hc⟩

theorem parameter_keeps {s : SymbolId} (hflaw : ∀ f, host.parameterFlaw? s = some f → E (.failed f))
    (hpart : ∀ t ∈ (host.symbol s).type?, Keeps I E (resolve t)) : Keeps I E (parameter host resolve s) :=
  .orUnexpected_bind (fun h => hflaw _ (by simp [Host.parameterFlaw?, h])) fun t ht =>
    .bind (hpart t ht) fun _ => .pure _

theorem signature_keeps {s : SignatureId}
    (hflaw : ∀ x ∈ (host.signature s).parameters, ∀ f, host.parameterFlaw? x = some f → E (.failed f))
    (hparameter : ∀ t ∈ (host.signature s).typeParameters, Keeps I E (reserve (.type t)))
    (hpart : ∀ t ∈ host.signatureParts s, Keeps I E (resolve t)) : Keeps I E (signature host resolve s) := by
  simp only [Host.signatureParts, List.mem_append, or_imp, forall_and, List.mem_singleton, forall_eq,
    List.mem_filterMap] at hpart
  obtain ⟨⟨hconstraint, htype⟩, hreturn⟩ := hpart
  refine .bind (generics_keeps hparameter hconstraint) fun _ => .bind (.mapM ?_) fun _ => .bind hreturn fun _ => .pure _
  intro x hx
  apply parameter_keeps (hflaw x hx)
  intro t ht
  exact htype t ⟨x, hx, ht⟩

theorem member_keeps {owner? : Option String} {s : SymbolId}
    (hflaw : ∀ f, host.memberFlaw? settings owner? s = some f → E (.failed f))
    (hpart : ∀ t ∈ host.memberParts settings owner? s, Keeps I E (resolve t)) :
    Keeps I E (member host settings resolve owner? s) := by
  simp only [member, isReadonly_eq]
  split
  · rename_i hd
    exact fun _ hp => ⟨hp, hflaw _ (by simp [Host.memberFlaw?, hd])⟩
  · rename_i hd
    refine .bind (.pure _) fun readonly => ?_
    split
    · exact .pure _
    · rename_i hx
      simp only [Host.memberParts, hx] at hpart
      refine .orUnexpected_bind (fun h => hflaw _ ?_) fun t ht => .bind (hpart t (by simp [ht])) fun _ => .pure _
      simp [Host.memberFlaw?, hd, hx, h]

theorem shape_keeps {t : TypeId} {owner? : Option SymbolId}
    (hflaw : ∀ f ∈ host.shapeFlaws settings t owner?, E (.failed f))
    (hparameter : ∀ s ∈ host.signatures t, ∀ x ∈ (host.signature s).typeParameters, Keeps I E (reserve (.type x)))
    (hpart : ∀ c ∈ host.shapeParts settings t owner?, Keeps I E (resolve c)) :
    Keeps I E (shape host settings resolve t owner?) := by
  simp only [Host.shapeFlaws, Host.shapeParts, List.mem_append, or_imp, forall_and, List.mem_flatMap,
    List.mem_filterMap, forall_exists_index, and_imp] at hflaw hpart
  obtain ⟨⟨hbase, hmember⟩, hsignaturePart⟩ := hpart
  have hmembers : ∀ s ∈ selectedMembers settings (host.type t),
      Keeps I E (member host settings resolve (host.ownerName owner?) s) := by
    intro s hs
    apply member_keeps
    · intro f hf
      exact hflaw.1 f s hs hf
    · intro c hc
      exact hmember c s hs hc
  have hsignature : ∀ s ∈ host.signatures t, Keeps I E (signature host resolve s) := by
    intro s hs
    apply signature_keeps
    · intro x hx f hf
      exact hflaw.2 f s hs x hx hf
    · exact hparameter s hs
    · intro c hc
      exact hsignaturePart c s hs hc
  simp only [Host.signatures, List.mem_append, or_imp, forall_and] at hsignature
  rw [shape, expand_bind]
  exact .bind (.mapM hbase) fun _ => .bind (.mapM hmembers) fun _ => .bind (.mapM hsignature.1) fun _ =>
    .bind (.mapM hsignature.2) fun _ => .pure _

theorem declaration_keeps {t : TypeId}
    (hopen : ∀ p, I p → p.registry.get? (.type t) = none → J (p.open_ (.type t)))
    (hclose : ∀ p record, J p → I (p.close record)) (hJ : ∀ p, J p → I p)
    (hparameter : ∀ x ∈ (host.type t).typeParameters, Keeps J E (reserve (.type x)))
    (hpart : ∀ c ∈ host.constraints (host.type t).typeParameters, Keeps J E (resolve c))
    (hshape : Keeps J E (shape host settings resolve t (host.type t).symbol?)) :
    Keeps I E (declaration host settings resolve t) := by
  rw [declaration]
  exact .expanding hopen (fun _ => .bind (generics_keeps hparameter hpart) fun _ => .bind hshape fun _ => .pure _)
    hclose hJ

theorem objectLiteral_keeps {t : TypeId}
    (hopen : ∀ p, I p → p.registry.get? (.type t) = none → J (p.open_ (.type t)))
    (hclose : ∀ p record, J p → I (p.close record)) (hJ : ∀ p, J p → I p)
    (hshape : Keeps J E (shape host settings resolve t (host.type t).symbol?)) :
    Keeps I E (objectLiteral host settings resolve t) := by
  rw [objectLiteral]
  exact .expanding hopen (fun _ => .bind hshape fun _ => .pure _) hclose hJ

/-- A literal type either has its form or is flawed. -/
theorem literal_keeps {t : TypeId} {kind : Kind} (hk : (host.type t).kind = .ok kind)
    (hl : kind = .booleanLiteral ∨ kind = .stringLiteral ∨ kind = .numberLiteral)
    (hflaw : ∀ f, host.typeFlaw? t = some f → E (.failed f)) : Keeps I E (literal host t kind) := by
  unfold literal
  rcases hl with rfl | rfl | rfl <;> cases hv : (host.type t).literal? with
  | none => exact .fail (hflaw _ (by simp [Host.typeFlaw?, hk, hv]))
  | some l =>
    cases l with
    | boolean b => first | exact .pure _ | exact .fail (hflaw _ (by simp [Host.typeFlaw?, hk, hv]))
    | string b => first | exact .pure _ | exact .fail (hflaw _ (by simp [Host.typeFlaw?, hk, hv]))
    | number x =>
      first
      | exact .fail (hflaw _ (by simp [Host.typeFlaw?, hk, hv]))
      | exact .orUnexpected_bind (fun h => hflaw _ (by simp [Host.typeFlaw?, hk, hv, h])) fun _ _ => .pure _

theorem structural_keeps {t : TypeId} (hflaw : ∀ f, host.typeFlaw? t = some f → E (.failed f))
    (hpart : ∀ c ∈ (host.type t).parts, Keeps I E (resolve c))
    (hparameter : (host.type t).kind = .ok .typeParameter → Keeps I E (reserve (.type t)))
    (htarget : ∀ u, (host.type t).kind = .ok .reference → (host.type t).target? = some u → ¬host.IsTuple u →
      Keeps I E (declaration host settings resolve u))
    (hnominal : (host.type t).kind = .ok .nominal → Keeps I E (declaration host settings resolve t))
    (hliteral : (host.type t).kind = .ok .anonymous → Keeps I E (objectLiteral host settings resolve t)) :
    Keeps I E (structural host settings resolve t) := by
  cases hk : (host.type t).kind with
  | error fault =>
    simp only [structural, hk]
    exact .fail (hflaw _ (by simp only [Host.typeFlaw?, hk]))
  | ok kind =>
    cases kind with
    | any | boolean | number | string | undefined | null | never | void | symbol | nonPrimitive =>
      simp only [structural, hk]
      exact .pure _
    | booleanLiteral | stringLiteral | numberLiteral =>
      simp only [structural, hk]
      exact literal_keeps hk (by simp) hflaw
    | typeParameter =>
      simp only [structural, hk]
      exact .bind (.bind (hparameter hk) fun _ => .pure _) fun _ => .pure _
    | union | intersection =>
      simp only [HostType.parts, hk] at hpart
      simp only [structural, hk]
      exact .bind (.mapM hpart) fun _ => .pure _
    | index =>
      simp only [HostType.parts, hk] at hpart
      simp only [structural, hk]
      refine .orUnexpected_bind (fun h => hflaw _ (by simp [Host.typeFlaw?, hk, h])) fun c hc => ?_
      exact .bind (hpart c (by simp [hc])) fun _ => .pure _
    | indexedAccess =>
      simp only [HostType.parts, hk] at hpart
      simp only [structural, hk]
      refine .orUnexpected_bind (fun h => hflaw _ (by simp [Host.typeFlaw?, hk, h])) fun parts hparts => ?_
      obtain ⟨object, index⟩ := parts
      simp only [hparts, List.mem_cons, forall_eq_or_imp] at hpart
      exact .bind hpart.1 fun _ => .bind hpart.2.1 fun _ =>
        .bind (resolveOption_keeps fun c hc => hpart.2.2 c (by simpa using hc)) fun _ => .pure _
    | conditional | enum =>
      simp only [structural, hk]
      exact .fail (hflaw _ (by simp only [Host.typeFlaw?, hk]))
    | reference =>
      simp only [HostType.parts, hk] at hpart
      simp only [structural, hk, instantiation]
      refine .orUnexpected_bind (fun h => hflaw _ (by simp [Host.typeFlaw?, hk, h])) fun u hu => ?_
      split
      · exact .bind (.mapM hpart) fun _ => .pure _
      · rename_i htuple
        exact .bind (htarget u hk hu htuple) fun _ => refer_keeps hpart
    | nominal =>
      simp only [structural, hk]
      exact .bind (hnominal hk) fun _ => .pure _
    | anonymous =>
      simp only [structural, hk]
      exact hliteral hk

theorem aliasBody_keeps {record : BundleId} {s : SymbolId} {d : TypeId}
    (hother : host.NamesOther s d → Keeps I E (resolve d))
    (hshare : ¬host.NamesOther s d → isObjectLiteral (host.type d) = true → ∀ p, I p →
      I (p.share (.type d) record))
    (hshape : ¬host.NamesOther s d → isObjectLiteral (host.type d) = true →
      Keeps I E (shape host settings resolve d (some s)))
    (hbody : ¬host.NamesOther s d → (host.type d).kind ≠ .ok .anonymous →
      Keeps I E (structural host settings resolve d)) :
    Keeps I E (aliasBody host settings resolve record s d) := by
  by_cases hother' : host.NamesOther s d
  · rw [aliasBody_of_other hother']
    exact hother hother'
  intro p hp
  by_cases hk : (host.type d).kind = .ok .anonymous
  · have hl := isObjectLiteral_of_anonymous hk
    cases hd : p.registry.get? (.type d) with
    | some id =>
      rw [aliasBody_of_started hother' hk hd]
      exact hp
    | none =>
      rw [aliasBody_of_literal hother' hl hd]
      exact (hshape hother' hl).map _ (hshare hother' hl p hp)
  · by_cases hl : isObjectLiteral (host.type d) = true ∧ p.registry.get? (.type d) = none
    · rw [aliasBody_of_literal hother' hl.1 hl.2]
      exact (hshape hother' hl.1).map _ (hshare hother' hl.1 p hp)
    · rw [aliasBody_of_body hother' fun h hn => hl ⟨h, hn⟩]
      exact hbody hother' hk p hp

theorem aliasRecord_keeps {record : BundleId} {s : SymbolId}
    (hflaw : ∀ f, host.aliasFlaw? s = some f → E (.failed f))
    (hparameter : ∀ x ∈ (host.symbol s).aliasParameters, Keeps I E (reserve (.type x)))
    (hpart : ∀ c ∈ host.constraints (host.symbol s).aliasParameters, Keeps I E (resolve c))
    (hbody : ∀ d, (host.symbol s).declaredType? = some d → Keeps I E (aliasBody host settings resolve record s d)) :
    Keeps I E (aliasRecord host settings resolve record s) := by
  rw [aliasRecord, expand_bind]
  refine .bind (generics_keeps hparameter hpart) fun _ => ?_
  refine .orUnexpected_bind (fun h => hflaw _ (by simp [Host.aliasFlaw?, h])) fun d hd => ?_
  exact .bind (hbody d hd) fun _ => .pure _

theorem step_keeps {t : TypeId}
    (hopen : ∀ s, (host.type t).alias? = some s → ∀ p, I p → p.registry.get? (.alias_ s) = none →
      J (p.open_ (.alias_ s)))
    (hclose : ∀ p record, J p → I (p.close record)) (hJ : ∀ p, J p → I p)
    (halias : ∀ s, (host.type t).alias? = some s → ∀ record, Keeps J E (aliasRecord host settings resolve record s))
    (hargument : ∀ s, (host.type t).alias? = some s → ∀ a ∈ (host.type t).aliasArguments, Keeps I E (resolve a))
    (hbare : (host.type t).alias? = none → Keeps I E (structural host settings resolve t)) :
    Keeps I E (step host settings resolve t) := by
  cases ha : (host.type t).alias? with
  | none =>
    simp only [step, ha]
    exact hbare ha
  | some s =>
    simp only [step, ha, aliasOccurrence]
    refine .bind (.expanding (hopen s ha) ?_ hclose hJ) fun _ => refer_keeps (hargument s ha)
    intro record
    exact .map (halias s ha record)

end Rules

/-! ## Whole passes -/

/-- The roots of a pass, walked in order. -/
def roots (host : Host) (settings : Settings) (depth : Nat) (global : SymbolId) (modules : List SymbolId) :
    Walk (TypeExpr × List AmbientModule) := do
  let globalType ← root host settings depth .globalWithoutType global
  return (globalType, ← modules.mapM (ambientModule host settings depth))

section Pass

variable {host : Host} {settings : Settings} {depth : Nat} {I : Progress → Prop} {E : Stop → Prop}
variable {global : SymbolId} {modules : List SymbolId}

theorem bundle_eq : bundle host settings depth global modules =
    roots host settings depth global modules >>= fun x => return ⟨x.1, x.2, ← freeze⟩ := by
  simp only [bundle, roots, bind_assoc, pure_bind]

theorem root_keeps {missing : String → Unexpected} {s : SymbolId}
    (hmissing : (host.symbol s).type? = none → E (.failed (.unexpected (missing (host.symbol s).name))))
    (hres : ∀ t, (host.symbol s).type? = some t → Keeps I E (resolve host settings depth t)) :
    Keeps I E (root host settings depth missing s) := .orUnexpected_bind hmissing hres

theorem freeze_apply (p : Progress) : freeze p = match p.table.freeze with
    | .ok records => .ok records p
    | .error id => .error (.failed (.incompleteRecord id)) p := by
  change (match p.table.freeze with
    | .ok records => (Pure.pure records : Walk (List Record))
    | .error id => fail (.incompleteRecord id)) p = _
  cases p.table.freeze <;> rfl

theorem freeze_keeps (h : ∀ id, E (.failed (.incompleteRecord id))) : Keeps I E freeze := by
  intro p hp
  rw [freeze_apply]
  cases p.table.freeze with
  | ok records => exact hp
  | error id => exact ⟨hp, h id⟩

theorem roots_keeps (hglobal : Keeps I E (root host settings depth .globalWithoutType global))
    (hmodule : ∀ s ∈ modules, Keeps I E (root host settings depth .moduleWithoutType s)) :
    Keeps I E (roots host settings depth global modules) :=
  .bind hglobal fun _ => .bind (.mapM fun s hs => .bind (hmodule s hs) fun _ => .pure _) fun _ => .pure _

theorem bundle_keeps (hroots : Keeps I E (roots host settings depth global modules)) (hfreeze : Keeps I E freeze) :
    Keeps I E (bundle host settings depth global modules) := by
  rw [bundle_eq]
  exact .bind hroots fun _ => .bind hfreeze fun _ => .pure _

end Pass

end TypeBundle.Walk
