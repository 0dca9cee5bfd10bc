import TypeBundle.Pass.Run
import TypeBundle.Proofs.Host.Kind
import TypeBundle.Proofs.Host.Rename
import TypeBundle.Proofs.Walk.Keeps
/-!
# Two walks in step

`Mirrors lax R w w'`: from related progresses the walks `w` and `w'` end alike, with the same value and
related progresses, or for reasons of the same kind; where `lax` holds nothing is asked of `w'` if `w` stops
for the depth. First the rules for sequences and lists, then one lemma for each rule of a walk, over a host
and the same host under other ids: if the walks of the types inside are in step, so are the walks of the
type.
-/

namespace TypeBundle

/-- The kinds of failures. -/
inductive Failure.Variant where
  | unsupported
  | unexpected
  | missingDeclaration
  | incompleteRecord
deriving DecidableEq, Repr

def Failure.variant : Failure → Variant
  | unsupported _ => .unsupported
  | unexpected _ => .unexpected
  | missingDeclaration _ => .missingDeclaration
  | incompleteRecord _ => .incompleteRecord

/-- The kind of the failure for which a walk stops; none if it stops for the depth. -/
def Stop.variant? : Stop → Option Failure.Variant
  | failed failure => some failure.variant
  | tooDeep => none

namespace Walk

open Snapshot

variable {α β : Type}

/-- Two walks end alike. -/
inductive Alike (lax : Prop) (R : Progress → Progress → Prop) :
    EStateM.Result Stop Progress α → EStateM.Result Stop Progress α → Prop
  | ok {a q q'} : R q q' → Alike lax R (.ok a q) (.ok a q')
  | error {e e' q q'} : e'.variant? = e.variant? → Alike lax R (.error e q) (.error e' q')
  | spared {q r} : lax → Alike lax R (.error .tooDeep q) r

/-- The walks are in step from related progresses. -/
def Mirrors (lax : Prop) (R : Progress → Progress → Prop) (w w' : Walk α) : Prop :=
  ∀ p p', R p p' → Alike lax R (w p) (w' p')

namespace Mirrors

variable {lax : Prop} {R : Progress → Progress → Prop}

/-! ## Sequences and lists -/

theorem pure (a : α) : Mirrors lax R (Pure.pure a : Walk α) (Pure.pure a) := fun _ _ h => .ok h

theorem fail {failure failure' : Failure} (h : failure'.variant = failure.variant) :
    Mirrors lax R (Walk.fail failure : Walk α) (Walk.fail failure') :=
  fun _ _ _ => .error (congrArg some h)

theorem bind {w w' : Walk α} {k k' : α → Walk β} (hw : Mirrors lax R w w') (hk : ∀ a, Mirrors lax R (k a) (k' a)) :
    Mirrors lax R (w >>= k) (w' >>= k') := by
  intro p p' hp
  have h := hw p p' hp
  rw [seq_apply, seq_apply]
  generalize w p = r at h
  generalize w' p' = r' at h
  cases h with
  | ok hq => exact hk _ _ _ hq
  | error he => exact .error he
  | spared hlax => exact .spared hlax

theorem map {w w' : Walk α} {g : α → β} (hw : Mirrors lax R w w') : Mirrors lax R (g <$> w) (g <$> w') := by
  simp only [map_eq_pure_bind]
  exact bind hw fun _ => pure _

theorem mapM {γ : Type} {w : α → Walk β} {w' : γ → Walk β} {g : α → γ} {as : List α}
    (h : ∀ a ∈ as, Mirrors lax R (w a) (w' (g a))) : Mirrors lax R (as.mapM w) ((as.map g).mapM w') := by
  induction as with
  | nil => exact pure _
  | cons a as ih =>
    simp only [List.map_cons, List.mapM_cons]
    refine bind (h a List.mem_cons_self) fun _ => bind (ih ?_) fun _ => pure _
    intro b hb
    exact h b (List.mem_cons_of_mem _ hb)

/-- What is missing for one walk is missing for the other. -/
theorem orUnexpected_bind {γ : Type} {what what' : Unexpected} {a? : Option α} {c? : Option γ} {g : α → γ}
    (hc : c? = a?.map g) {k : α → Walk β} {k' : γ → Walk β} (h : ∀ a ∈ a?, Mirrors lax R (k a) (k' (g a))) :
    Mirrors lax R (Walk.orUnexpected what a? >>= k) (Walk.orUnexpected what' c? >>= k') := by
  subst hc
  cases a? with
  | none => exact fun _ _ _ => .error rfl
  | some a => exact h a rfl

end Mirrors

/-! ## Related progresses -/

/-- Related progresses have the same ids for what is known, under its other names, and what walks do to both
keeps them related. -/
structure Tracks (f : Renaming) (Known : Mention → Prop) (R : Progress → Progress → Prop) : Prop where
  get? : ∀ {p p'}, R p p' → ∀ key : Identity, Known key.mention →
    p'.registry.get? (f.identity key) = p.registry.get? key
  next : ∀ {p p'}, R p p' → p'.registry.next = p.registry.next
  reserve : ∀ {p p'}, R p p' → ∀ key : Identity, Known key.mention → p.registry.get? key = none →
    R { p with registry := (p.registry.reserve key).2 } { p' with registry := (p'.registry.reserve (f.identity key)).2 }
  begin_ : ∀ {p p'}, R p p' → ∀ id, R { p with table := p.table.reserve id } { p' with table := p'.table.reserve id }
  close : ∀ {p p'}, R p p' → ∀ record, R (p.close record) (p'.close record)
  share : ∀ {p p'}, R p p' → ∀ key : Identity, Known key.mention → p.registry.get? key = none → ∀ id,
    R (p.share key id) (p'.share (f.identity key) id)

section Rules

variable {f : Renaming} {Known : Mention → Prop} {host host' : Host} {settings : Settings}
variable {lax : Prop} {R : Progress → Progress → Prop} {resolve resolve' : TypeId → Walk TypeExpr}

theorem Mirrors.reserve (hR : Tracks f Known R) (key : Identity) (hkey : Known key.mention) :
    Mirrors lax R (Walk.reserve key) (Walk.reserve (f.identity key)) := by
  intro p p' hp
  have hget := hR.get? hp key hkey
  cases hk : p.registry.get? key with
  | some id =>
    rw [reserve_of_some hk, reserve_of_some (hget.trans hk)]
    exact .ok hp
  | none =>
    rw [reserve_of_none hk, reserve_of_none (hget.trans hk), hR.next hp]
    exact .ok (hR.reserve hp key hkey hk)

theorem Mirrors.open_ (hR : Tracks f Known R) (key : Identity) (hkey : Known key.mention) :
    Mirrors lax R (Ledger.open_ key) (Ledger.open_ (f.identity key)) := by
  refine .bind (.reserve hR key hkey) fun reserved => ?_
  obtain ⟨id, started⟩ := reserved
  cases started with
  | true => exact .pure _
  | false => exact .bind (fun _ _ hp => .ok (hR.begin_ hp id)) fun _ => .pure _

theorem Mirrors.expanding (hR : Tracks f Known R) (key : Identity) (hkey : Known key.mention) {again : BundleId → α}
    {first first' : BundleId → Walk (Record × α)} (h : ∀ id, Mirrors lax R (first id) (first' id)) :
    Mirrors lax R (Walk.expanding key again first) (Walk.expanding (f.identity key) again first') := by
  refine .bind (.open_ hR key hkey) fun opened => ?_
  obtain ⟨id, started⟩ := opened
  cases started with
  | true => exact .pure _
  | false => exact .bind (h id) fun result => .bind (fun _ _ hp => .ok (hR.close hp result.1)) fun _ => .pure _

/-! ## The rules for one type -/

theorem resolveOption_mirrors {t? : Option TypeId} (h : ∀ t ∈ t?, Mirrors lax R (resolve t) (resolve' (f.type t))) :
    Mirrors lax R (resolveOption resolve t?) (resolveOption resolve' (t?.map f.type)) := by
  cases t? with
  | none => exact .pure _
  | some t => exact .map (h t rfl)

theorem refer_mirrors {record : BundleId} {args : List TypeId}
    (h : ∀ t ∈ args, Mirrors lax R (resolve t) (resolve' (f.type t))) :
    Mirrors lax R (refer resolve record args) (refer resolve' record (args.map f.type)) := by
  simp only [refer, List.isEmpty_map]
  split
  · exact .pure _
  · exact .bind (.mapM h) fun _ => .pure _

/-- Literal types hold no ids. -/
theorem literal_mirrors (hf : f.Carries Known host host') {t : TypeId} (ht : Known (.type t)) {kind : Kind}
    (hl : kind = .booleanLiteral ∨ kind = .stringLiteral ∨ kind = .numberLiteral) :
    Mirrors lax R (literal host t kind) (literal host' (f.type t) kind) := by
  simp only [literal, hf.type t ht, HostType.rename_literal?]
  rcases hl with rfl | rfl | rfl <;> cases (host.type t).literal? with
  | none => exact .fail rfl
  | some l =>
    cases l with
    | boolean b => first | exact .pure _ | exact .fail rfl
    | string b => first | exact .pure _ | exact .fail rfl
    | number x =>
      first
      | exact .fail rfl
      | exact .orUnexpected_bind Option.map_id'.symm fun _ _ => .pure _

variable (hf : f.Carries Known host host') (hR : Tracks f Known R)
variable (hres : ∀ t, Known (.type t) → Mirrors lax R (resolve t) (resolve' (f.type t)))
include hf hR hres

theorem generics_mirrors {ps : List TypeId} (hps : ∀ t ∈ ps, Known (.type t)) :
    Mirrors lax R (generics host resolve ps) (generics host' resolve' (ps.map f.type)) := by
  refine .bind (.mapM fun t ht => .bind (.reserve hR (.type t) (hps t ht)) fun _ => .pure _) fun ids => ?_
  rw [List.zip_map_right]
  refine .mapM ?_
  rintro ⟨id, t⟩ hmem
  have ht := hps t (List.of_mem_zip hmem).2
  simp only [Prod.map, hf.type t ht, HostType.rename_constraint?]
  refine .bind (resolveOption_mirrors fun c hc => hres c ?_) fun _ => .pure _
  exact hf.ofType t ht _ (by simp [typeMentions, Option.mem_def.1 hc])

omit hR in
theorem parameter_mirrors {s : SymbolId} (hs : Known (.symbol s)) :
    Mirrors lax R (parameter host resolve s) (parameter host' resolve' (f.symbol s)) := by
  simp only [parameter, hf.symbol s hs, HostSymbol.rename_name, HostSymbol.rename_type?, HostSymbol.rename_flags]
  refine .orUnexpected_bind rfl fun c hc => .bind (hres c ?_) fun _ => .pure _
  exact hf.ofSymbol s hs _ (by simp [symbolMentions, Option.mem_def.1 hc])

theorem signature_mirrors {g : SignatureId} (hg : Known (.signature g)) :
    Mirrors lax R (signature host resolve g) (signature host' resolve' (f.signature g)) := by
  have hmentions := hf.ofSignature g hg
  simp only [signature, hf.signature g hg, HostSignature.rename_typeParameters, HostSignature.rename_parameters,
    HostSignature.rename_returnType]
  refine .bind (generics_mirrors hf hR hres fun t ht => ?_) fun _ => .bind (.mapM fun x hx => ?_) fun _ =>
    .bind (hres _ ?_) fun _ => .pure _
  · exact hmentions _ (by simp [signatureMentions, ht])
  · exact parameter_mirrors hf hres (hmentions _ (by simp [signatureMentions, hx]))
  · exact hmentions _ (by simp [signatureMentions])

omit hR in
theorem member_mirrors (owner? : Option String) {s : SymbolId} (hs : Known (.symbol s)) :
    Mirrors lax R (member host settings resolve owner? s) (member host' settings resolve' owner? (f.symbol s)) := by
  simp only [member, isReadonly_eq, hf.symbol s hs, HostSymbol.isUndeclared_rename, HostSymbol.isReadonly_rename,
    HostSymbol.rename_name, HostSymbol.rename_type?, HostSymbol.rename_flags]
  split
  · exact fun _ _ _ => .error rfl
  · refine .bind (.pure _) fun readonly => ?_
    split
    · exact .pure _
    · refine .orUnexpected_bind rfl fun c hc => .bind (hres c ?_) fun _ => .pure _
      exact hf.ofSymbol s hs _ (by simp [symbolMentions, Option.mem_def.1 hc])

theorem shape_mirrors {t : TypeId} (ht : Known (.type t)) {owner? : Option SymbolId}
    (howner : ∀ s ∈ owner?, Known (.symbol s)) :
    Mirrors lax R (shape host settings resolve t owner?)
      (shape host' settings resolve' (f.type t) (owner?.map f.symbol)) := by
  have hmentions := hf.ofType t ht
  have hname : (owner?.map f.symbol).map (fun s => (host'.symbol s).qualifiedName) =
      owner?.map fun s => (host.symbol s).qualifiedName := hf.ownerName_eq howner
  simp only [shape, expand_bind, hf.type t ht, hname, HostType.selectedMembers_rename, HostType.rename_bases,
    HostType.rename_callSignatures, HostType.rename_constructSignatures, HostType.rename_objectFlags]
  refine .bind (.mapM fun c hc => hres c ?_) fun _ => .bind (.mapM fun s hs => ?_) fun _ =>
    .bind (.mapM fun g hg => ?_) fun _ => .bind (.mapM fun g hg => ?_) fun _ => .pure _
  · exact hmentions _ (by simp [typeMentions, hc])
  · exact member_mirrors hf hres _ (hmentions _ (mem_typeMentions_of_selected hs))
  · exact signature_mirrors hf hR hres (hmentions _ (by simp [typeMentions, hg]))
  · exact signature_mirrors hf hR hres (hmentions _ (by simp [typeMentions, hg]))

theorem declaration_mirrors {t : TypeId} (ht : Known (.type t)) :
    Mirrors lax R (declaration host settings resolve t) (declaration host' settings resolve' (f.type t)) := by
  have hmentions := hf.ofType t ht
  have howner : ∀ s ∈ (host.type t).symbol?, Known (.symbol s) := fun s hs =>
    hmentions _ (by simp [typeMentions, Option.mem_def.1 hs])
  simp only [declaration]
  refine .expanding hR (.type t) ht fun id => ?_
  simp only [declarationRecord, hf.type t ht, HostType.rename_typeParameters, HostType.rename_symbol?]
  refine .bind (generics_mirrors hf hR hres fun x hx => hmentions _ (by simp [typeMentions, hx])) fun _ => ?_
  refine .bind (shape_mirrors hf hR hres ht howner) fun _ => ?_
  cases hs : (host.type t).symbol? with
  | none => exact .pure _
  | some s =>
    simp only [Option.map_some, hf.symbol s (howner s hs), HostSymbol.rename_name, HostSymbol.qualifiedName_rename,
      HostSymbol.originFiles_rename]
    exact .pure _

theorem objectLiteral_mirrors {t : TypeId} (ht : Known (.type t)) :
    Mirrors lax R (objectLiteral host settings resolve t) (objectLiteral host' settings resolve' (f.type t)) := by
  simp only [objectLiteral]
  refine .expanding hR (.type t) ht fun id => ?_
  simp only [literalRecord, hf.type t ht, HostType.rename_symbol?]
  refine .bind (shape_mirrors hf hR hres ht fun s hs => ?_) fun _ => .pure _
  exact hf.ofType t ht _ (by simp [typeMentions, Option.mem_def.1 hs])

theorem structural_mirrors {t : TypeId} (ht : Known (.type t)) :
    Mirrors lax R (structural host settings resolve t) (structural host' settings resolve' (f.type t)) := by
  have hpart : ∀ c ∈ (host.type t).parts, Mirrors lax R (resolve c) (resolve' (f.type c)) := fun c hc =>
    hres c (hf.ofType t ht _ (mem_typeMentions_of_parts hc))
  simp only [structural, hf.type t ht, HostType.kind_rename]
  cases hk : (host.type t).kind with
  | error fault => exact .fail rfl
  | ok kind =>
    cases kind with
    | any | boolean | number | string | undefined | null | never | void | symbol | nonPrimitive => exact .pure _
    | booleanLiteral | numberLiteral | stringLiteral => exact literal_mirrors hf ht (by simp)
    | typeParameter => exact .bind (.bind (.reserve hR (.type t) ht) fun _ => .pure _) fun _ => .pure _
    | union | intersection =>
      simp only [HostType.parts, hk] at hpart
      exact .bind (.mapM hpart) fun _ => .pure _
    | index =>
      simp only [HostType.parts, hk] at hpart
      exact .orUnexpected_bind rfl fun c hc => .bind (hpart c (by simpa using hc)) fun _ => .pure _
    | indexedAccess =>
      simp only [HostType.parts, hk] at hpart
      refine .orUnexpected_bind (HostType.accessParts?_rename f _) fun parts hparts => ?_
      simp only [Option.mem_def.1 hparts, List.mem_cons, forall_eq_or_imp] at hpart
      exact .bind hpart.1 fun _ => .bind hpart.2.1 fun _ =>
        .bind (resolveOption_mirrors fun c hc => hpart.2.2 c (by simpa using hc)) fun _ => .pure _
    | conditional | enum => exact .fail rfl
    | reference =>
      simp only [HostType.parts, hk] at hpart
      simp only [instantiation, hf.type t ht, HostType.rename_target?, HostType.rename_typeArguments]
      refine .orUnexpected_bind rfl fun u hu => ?_
      have hu : Known (.type u) := hf.ofType t ht _ (by simp [typeMentions, Option.mem_def.1 hu])
      simp only [hf.type u hu, HostType.rename_objectFlags]
      split
      · exact .bind (.mapM hpart) fun _ => .pure _
      · exact .bind (declaration_mirrors hf hR hres hu) fun _ => refer_mirrors hpart
    | nominal => exact .bind (declaration_mirrors hf hR hres ht) fun _ => .pure _
    | anonymous => exact objectLiteral_mirrors hf hR hres ht

theorem aliasBody_mirrors (record : BundleId) {s : SymbolId} (hs : Known (.symbol s)) {d : TypeId}
    (hd : Known (.type d)) :
    Mirrors lax R (aliasBody host settings resolve record s d)
      (aliasBody host' settings resolve' record (f.symbol s) (f.type d)) := by
  by_cases hother : host.NamesOther s d
  · rw [aliasBody_of_other hother, aliasBody_of_other ((hf.namesOther_iff hs hd).2 hother)]
    exact hres d hd
  · have hother' : ¬host'.NamesOther (f.symbol s) (f.type d) := mt (hf.namesOther_iff hs hd).1 hother
    intro p p' hp
    have hget := hR.get? hp (.type d) hd
    have hliteral : isObjectLiteral (host'.type (f.type d)) = isObjectLiteral (host.type d) := by
      rw [hf.type d hd, HostType.isObjectLiteral_rename]
    by_cases hl : isObjectLiteral (host.type d) = true ∧ p.registry.get? (.type d) = none
    · have hshape : Mirrors lax R (shape host settings resolve d (some s))
          (shape host' settings resolve' (f.type d) (some (f.symbol s))) := shape_mirrors hf hR hres hd (by simpa using hs)
      rw [aliasBody_of_literal hother hl.1 hl.2, aliasBody_of_literal hother' (hliteral.trans hl.1) (hget.trans hl.2)]
      exact Mirrors.map hshape _ _ (hR.share hp (.type d) hd hl.2 record)
    · rw [aliasBody_of_body hother fun h hn => hl ⟨h, hn⟩,
        aliasBody_of_body hother' fun h hn => hl ⟨hliteral ▸ h, hget ▸ hn⟩]
      exact structural_mirrors hf hR hres hd p p' hp

theorem aliasRecord_mirrors (record : BundleId) {s : SymbolId} (hs : Known (.symbol s)) :
    Mirrors lax R (aliasRecord host settings resolve record s)
      (aliasRecord host' settings resolve' record (f.symbol s)) := by
  have hmentions := hf.ofSymbol s hs
  simp only [aliasRecord, expand_bind, hf.symbol s hs, HostSymbol.rename_aliasParameters,
    HostSymbol.rename_declaredType?, HostSymbol.rename_name, HostSymbol.qualifiedName_rename, HostSymbol.originFiles_rename]
  refine .bind (generics_mirrors hf hR hres fun x hx => hmentions _ (by simp [symbolMentions, hx])) fun _ => ?_
  refine .orUnexpected_bind rfl fun d hd => ?_
  exact .bind (aliasBody_mirrors hf hR hres record hs (hmentions _ (by simp [symbolMentions, Option.mem_def.1 hd]))) fun _ => .pure _

theorem step_mirrors {t : TypeId} (ht : Known (.type t)) :
    Mirrors lax R (step host settings resolve t) (step host' settings resolve' (f.type t)) := by
  simp only [step, hf.type t ht, HostType.rename_alias?]
  cases ha : (host.type t).alias? with
  | none => exact structural_mirrors hf hR hres ht
  | some s =>
    have hs : Known (.symbol s) := hf.ofType t ht _ (by simp [typeMentions, ha])
    simp only [Option.map_some, aliasOccurrence, hf.type t ht, HostType.rename_aliasArguments]
    refine .bind (.expanding hR (.alias_ s) hs fun record => ?_) fun _ => refer_mirrors fun a ha => hres a ?_
    · exact .map (aliasRecord_mirrors hf hR hres record hs)
    · exact hf.ofType t ht _ (by simp [typeMentions, ha])

end Rules

/-! ## Whole walks -/

section Pass

variable {f : Renaming} {Known : Mention → Prop} {host host' : Host} {settings : Settings}
variable {lax : Prop} {R : Progress → Progress → Prop} {depth depth' : Nat}

/-- Walks of a host and of the same host under other ids are in step, to any depth. -/
theorem resolve_mirrors (hf : f.Carries Known host host') (hR : Tracks f Known R) (depth : Nat) :
    ∀ t, Known (.type t) → Mirrors lax R (resolve host settings depth t) (resolve host' settings depth (f.type t)) := by
  induction depth with
  | zero => exact fun _ _ _ _ _ => .error rfl
  | succ depth ih => exact fun t ht => step_mirrors hf hR ih ht

variable (hf : f.Carries Known host host')
variable (hres : ∀ t, Known (.type t) →
  Mirrors lax R (resolve host settings depth t) (resolve host' settings depth' (f.type t)))
include hf hres

theorem root_mirrors (missing : String → Unexpected) {s : SymbolId} (hs : Known (.symbol s)) :
    Mirrors lax R (root host settings depth missing s) (root host' settings depth' missing (f.symbol s)) := by
  simp only [root, hf.symbol s hs, HostSymbol.rename_type?]
  exact .orUnexpected_bind rfl fun t ht => hres t (hf.ofSymbol s hs _ (by simp [symbolMentions, Option.mem_def.1 ht]))

theorem roots_mirrors {global : SymbolId} (hglobal : Known (.symbol global)) {modules : List SymbolId}
    (hmodules : ∀ s ∈ modules, Known (.symbol s)) :
    Mirrors lax R (roots host settings depth global modules)
      (roots host' settings depth' (f.symbol global) (modules.map f.symbol)) := by
  refine .bind (root_mirrors hf hres _ hglobal) fun _ => .bind (.mapM fun s hs => ?_) fun _ => .pure _
  simp only [ambientModule, hf.symbol s (hmodules s hs), HostSymbol.rename_name]
  exact .bind (root_mirrors hf hres _ (hmodules s hs)) fun _ => .pure _

omit hf hres in
theorem freeze_mirrors (htable : ∀ p p', R p p' → p'.table = p.table) : Mirrors lax R freeze freeze := by
  intro p p' hp
  rw [freeze_apply, freeze_apply, htable p p' hp]
  cases p.table.freeze with
  | ok records => exact .ok hp
  | error id => exact .error rfl

theorem bundle_mirrors (htable : ∀ p p', R p p' → p'.table = p.table) {global : SymbolId}
    (hglobal : Known (.symbol global)) {modules : List SymbolId} (hmodules : ∀ s ∈ modules, Known (.symbol s)) :
    Mirrors lax R (bundle host settings depth global modules)
      (bundle host' settings depth' (f.symbol global) (modules.map f.symbol)) := by
  simp only [bundle_eq]
  exact .bind (roots_mirrors hf hres hglobal hmodules) fun _ => .bind (freeze_mirrors htable) fun _ => .pure _

end Pass

end Walk

end TypeBundle
