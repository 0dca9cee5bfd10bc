import TypeBundle.Proofs.Host.Regular
import TypeBundle.Proofs.Pass.Finished
/-!
# What a finished pass covers

A finished pass over a regular host has something to say about every spot that it can be led to
(`covered_of_leads`), and nothing is wrong with the host at such a spot (`not_flawed_of_covered`). It does not
matter which of several ways a walk took to a spot, nor which it left out because it had been there.
-/

namespace TypeBundle

section

variable {host : Host} {settings : Settings} {q : Progress}

theorem exists_of_rel {α β : Type} {R : α → β → Prop} {a : α} {b? : Option β} (h : Option.Rel R (some a) b?) :
    ∃ b, R a b := by
  cases h with
  | some h => exact ⟨_, h⟩

theorem exists_of_mem_constraints {ps : List TypeId} {gs : List (Generic TypeExpr)}
    (h : List.Forall₂ (RepresentsGeneric host q) ps gs) : ∀ c ∈ host.constraints ps, ∃ e, Represents host q .written c e := by
  intro c hc
  obtain ⟨t, ht, hconstraint⟩ := List.mem_filterMap.1 hc
  obtain ⟨g, -, hg⟩ := exists_of_mem_left h t ht
  have hrel := hg.constraint
  rw [hconstraint] at hrel
  exact exists_of_rel hrel

theorem exists_of_mem_types {ts : List TypeId} {es : List TypeExpr}
    (h : List.Forall₂ (Represents host q .written) ts es) : ∀ c ∈ ts, ∃ e, Represents host q .written c e :=
  fun c hc => (exists_of_mem_left h c hc).imp fun _ => And.right

theorem parts_of_constant {t : HostType} {e : TypeExpr} (h : t.constant? = some e) : t.parts = [] := by
  unfold HostType.parts
  split
  case h_6 => rfl
  all_goals
    rename_i hk
    simp [HostType.constant?, hk] at h

/-- The types inside a type that is represented are represented. -/
theorem exists_of_mem_parts {t : TypeId} {e : TypeExpr} (h : Represents host q .bare t e) :
    ∀ c ∈ (host.type t).parts, ∃ e, Represents host q .written c e := by
  unfold HostType.parts
  cases h with
  | constant hc =>
    rw [← HostType.parts, parts_of_constant hc]
    exact fun _ hc => absurd hc List.not_mem_nil
  | parameter hk _ => simp only [hk]; exact fun _ hc => absurd hc List.not_mem_nil
  | union hk hes => simp only [hk]; exact exists_of_mem_types hes
  | intersection hk hes => simp only [hk]; exact exists_of_mem_types hes
  | keyOf hk hc hx => simp only [hk, hc, Option.toList_some, List.mem_singleton, forall_eq]; exact ⟨_, hx⟩
  | indexedAccess hk hparts hx hy hz =>
    simp only [hk, hparts, List.mem_cons, Option.mem_toList, forall_eq_or_imp]
    refine ⟨⟨_, hx⟩, ⟨_, hy⟩, fun c hc => ?_⟩
    rw [hc] at hz
    exact exists_of_rel hz
  | tuple hk _ _ hes => simp only [hk]; exact exists_of_mem_types hes
  | instantiation hk _ _ _ hes => simp only [hk]; exact exists_of_mem_types hes
  | nominal hk _ => simp only [hk]; exact fun _ hc => absurd hc List.not_mem_nil
  | literalMention hk _ => simp only [hk]; exact fun _ hc => absurd hc List.not_mem_nil
  | literalShape hk _ _ _ => simp only [hk]; exact fun _ hc => absurd hc List.not_mem_nil

theorem signature_of_mem {t : TypeId} {owner? : Option SymbolId} {s : Shape TypeExpr}
    (h : RepresentsShape host settings q t owner? s) : ∀ g ∈ host.signatures t, ∃ y, RepresentsSignature host q g y := by
  intro g hg
  rcases List.mem_append.1 hg with hg | hg
  · exact (exists_of_mem_left h.callSignatures g hg).imp fun _ => And.right
  · exact (exists_of_mem_left h.constructSignatures g hg).imp fun _ => And.right

/-! ## What has been started -/

theorem registered_of_literal {t : TypeId} {e : TypeExpr} (h : Represents host q .bare t e)
    (hk : (host.type t).kind = .ok .anonymous) : ∃ id, q.registry.get? (.type t) = some id := by
  cases h with
  | literalMention _ hid => exact ⟨_, hid⟩
  | literalShape _ hid _ _ => exact ⟨_, hid⟩
  | constant hc => simp [HostType.constant?, hk] at hc
  | _ => simp_all

theorem registered_of_nominal {t : TypeId} {e : TypeExpr} (h : Represents host q .bare t e)
    (hk : (host.type t).kind = .ok .nominal) : ∃ id, q.registry.get? (.type t) = some id := by
  cases h with
  | nominal _ hid => exact ⟨_, hid⟩
  | constant hc => simp [HostType.constant?, hk] at hc
  | _ => simp_all

theorem registered_of_target {t u : TypeId} {e : TypeExpr} (h : Represents host q .bare t e)
    (hk : (host.type t).kind = .ok .reference) (hu : (host.type t).target? = some u) (hn : ¬host.IsTuple u) :
    ∃ id, q.registry.get? (.type u) = some id := by
  cases h with
  | instantiation _ hu' _ hid _ =>
    obtain rfl := Option.some.inj (hu.symm.trans hu')
    exact ⟨_, hid⟩
  | tuple _ hu' htuple _ =>
    obtain rfl := Option.some.inj (hu.symm.trans hu')
    exact absurd htuple hn
  | constant hc => simp [HostType.constant?, hk] at hc
  | _ => simp_all

/-! ## Shapes -/

/-- The types that a shape mentions are represented. -/
theorem exists_of_mem_shapeParts {t : TypeId} {owner? : Option SymbolId} {s : Shape TypeExpr}
    (h : RepresentsShape host settings q t owner? s) :
    ∀ c ∈ host.shapeParts settings t owner?, ∃ e, Represents host q .written c e := by
  simp only [Host.shapeParts, List.mem_append, List.mem_flatMap]
  rintro c ((hc | ⟨x, hx, hc⟩) | ⟨g, hg, hc⟩)
  · exact exists_of_mem_types h.bases c hc
  · obtain ⟨ms, hms, -⟩ := h.members
    obtain ⟨m, -, hm⟩ := exists_of_mem_left hms x hx
    have htype := hm.type
    unfold Host.memberParts at hc
    split at hc
    · cases hc
    · rename_i hexcluded
      rw [if_neg hexcluded] at htype
      obtain ⟨t', ht', hrep⟩ := htype
      rw [ht'] at hc
      obtain rfl := List.mem_singleton.1 hc
      exact ⟨_, hrep⟩
  · obtain ⟨y, hy⟩ := signature_of_mem h g hg
    simp only [Host.signatureParts, List.mem_append, List.mem_filterMap, List.mem_singleton] at hc
    rcases hc with (hc | ⟨x, hx, hc⟩) | rfl
    · exact exists_of_mem_constraints hy.typeParameters c hc
    · obtain ⟨z, -, hz⟩ := exists_of_mem_left hy.parameters x hx
      obtain ⟨t', ht', hrep⟩ := hz.type
      rw [ht'] at hc
      cases hc
      exact ⟨_, hrep⟩
    · exact ⟨_, hy.returnType⟩

/-! ## Flaws -/

theorem typeFlaw_of_constant {id : TypeId} {e : TypeExpr} (h : (host.type id).constant? = some e) :
    host.typeFlaw? id = none := by
  cases hk : (host.type id).kind with
  | error fault => simp [HostType.constant?, hk] at h
  | ok kind =>
    cases kind with
    | booleanLiteral | stringLiteral | numberLiteral =>
      cases hl : (host.type id).literal? with
      | none => simp [HostType.constant?, hk, hl] at h
      | some v =>
        cases v with
        | number x =>
          cases hx : Json.Number.ofLiteral? x <;> simp_all [HostType.constant?, Host.typeFlaw?]
        | _ => simp_all [HostType.constant?, Host.typeFlaw?]
    | conditional | enum | index | indexedAccess | reference => simp [HostType.constant?, hk] at h
    | _ => simp only [Host.typeFlaw?, hk]

theorem typeFlaw_of_represents {t : TypeId} {e : TypeExpr} (h : Represents host q .bare t e) :
    host.typeFlaw? t = none := by
  cases h with
  | constant hc => exact typeFlaw_of_constant hc
  | parameter hk _ | union hk _ | intersection hk _ | nominal hk _ | literalMention hk _ | literalShape hk _ _ _ =>
    simp only [Host.typeFlaw?, hk]
  | keyOf hk hc _ => simp only [Host.typeFlaw?, hk, hc, Option.isSome_some, if_true]
  | indexedAccess hk hparts _ _ _ => simp only [Host.typeFlaw?, hk, hparts, Option.isSome_some, if_true]
  | tuple hk hu _ _ => simp only [Host.typeFlaw?, hk, hu, Option.isSome_some, if_true]
  | instantiation hk hu _ _ _ => simp only [Host.typeFlaw?, hk, hu, Option.isSome_some, if_true]

theorem shapeFlaws_of_represents {t : TypeId} {owner? : Option SymbolId} {s : Shape TypeExpr}
    (h : RepresentsShape host settings q t owner? s) : host.shapeFlaws settings t owner? = [] := by
  refine List.eq_nil_iff_forall_not_mem.2 fun f hf => ?_
  simp only [Host.shapeFlaws, List.mem_append, List.mem_filterMap, List.mem_flatMap] at hf
  rcases hf with ⟨x, hx, hf⟩ | ⟨g, hg, x, hx, hf⟩
  · obtain ⟨ms, hms, -⟩ := h.members
    obtain ⟨m, -, hm⟩ := exists_of_mem_left hms x hx
    have htype := hm.type
    unfold Host.memberFlaw? at hf
    simp only [hm.declared, Bool.false_eq_true, if_false] at hf
    split at htype
    · rename_i hexcluded
      simp [hexcluded] at hf
    · obtain ⟨t', ht', -⟩ := htype
      simp [ht'] at hf
  · obtain ⟨y, hy⟩ := signature_of_mem h g hg
    obtain ⟨z, -, hz⟩ := exists_of_mem_left hy.parameters x hx
    obtain ⟨t', ht', -⟩ := hz.type
    simp [Host.parameterFlaw?, ht'] at hf

end

/-! ## Spots that are covered -/

/-- The record was made for the identity and represents it. -/
structure MadeFor (host : Host) (settings : Settings) (q : Progress) (key : Identity) (record : Record) : Prop where
  id : q.registry.get? key = some record.id
  represents : RepresentsRecord host settings q key record

/-- A record of the bundle was made for the identity. -/
def Recorded (host : Host) (settings : Settings) (q : Progress) (b : Bundle) (key : Identity) : Prop :=
  ∃ record ∈ b.records, MadeFor host settings q key record

/-- A finished pass has something to say about the spot. -/
def Covered (host : Host) (settings : Settings) (q : Progress) (b : Bundle) : Spot → Prop
  | .written t => ∃ e, Represents host q .written t e
  | .bare t => (∃ e, Represents host q .bare t e) ∧
      ((host.type t).kind = .ok .anonymous → (host.type t).alias? = none)
  | .declared t => host.IsDeclared t ∧ Recorded host settings q b (.type t)
  | .shape t owner? => ∃ s, RepresentsShape host settings q t owner? s
  | .alias_ s => Recorded host settings q b (.alias_ s)

/-- Nothing is wrong with the host where a finished pass has something to say. -/
theorem not_flawed_of_covered {host : Host} {settings : Settings} {q : Progress} {b : Bundle} {x : Spot} {f : Failure}
    (hx : Covered host settings q b x) : ¬host.Flawed settings x f := by
  intro hf
  cases hf with
  | type hf =>
    obtain ⟨⟨e, he⟩, -⟩ := hx
    rw [typeFlaw_of_represents he] at hf
    cases hf
  | shape hf =>
    obtain ⟨s, hs⟩ := hx
    rw [shapeFlaws_of_represents hs] at hf
    cases hf
  | alias_ hf =>
    obtain ⟨record, -, -, hrep⟩ := hx
    cases hrep with
    | alias_ hd _ _ => simp [Host.aliasFlaw?, hd] at hf

namespace Host.Regular

variable {host : Host} {settings : Settings} {q : Progress} {t : TypeId} {record : Record} (hr : host.Regular)
include hr

theorem declaration_of_represents (hd : host.IsDeclared t) (h : RepresentsRecord host settings q (.type t) record) :
    ∃ id gs b, record = host.recordOfType t id gs b ∧
      List.Forall₂ (RepresentsGeneric host q) (host.type t).typeParameters gs ∧
        RepresentsShape host settings q t (host.type t).symbol? b := by
  cases h with
  | declaration _ hgs hb => exact ⟨_, _, _, rfl, hgs, hb⟩
  | literal hk _ _ => exact absurd hk (hr.kind_ne_of_declared hd)
  | shared hl _ _ => exact absurd (hr.kind_of_literalOf hl) (hr.kind_ne_of_declared hd)

theorem literal_of_represents (ha : (host.type t).alias? = none) (hk : (host.type t).kind = .ok .anonymous)
    (h : RepresentsRecord host settings q (.type t) record) :
    ∃ id b, record = .anonymous id (.shape b) ∧ RepresentsShape host settings q t (host.type t).symbol? b := by
  cases h with
  | declaration hd _ _ => exact absurd hk (hr.kind_ne_of_declared hd)
  | literal _ _ hb => exact ⟨_, _, rfl, hb⟩
  | shared hl _ _ =>
    rw [hr.alias_of_literalOf hl] at ha
    cases ha

end Host.Regular

namespace Finished

variable {host : Host} {settings : Settings} {global : SymbolId} {modules : List SymbolId} {q : Progress} {b : Bundle}
variable (h : Finished host settings global modules q b)
include h

theorem recorded_alias {s : SymbolId} {id : BundleId} (hid : q.registry.get? (.alias_ s) = some id) :
    Recorded host settings q b (.alias_ s) := by
  rcases h.settled hid with ⟨-, t, ht, -⟩ | ⟨record, hrecord, rfl, hrep⟩
  · cases ht
  · exact ⟨record, hrecord, hid, hrep⟩

theorem recorded_type (hr : host.Regular) {t : TypeId} {id : BundleId} (hid : q.registry.get? (.type t) = some id)
    (ht : host.IsDeclared t ∨ (host.type t).kind = .ok .anonymous) : Recorded host settings q b (.type t) := by
  rcases h.settled hid with ⟨-, u, hu, hparameter⟩ | ⟨record, hrecord, rfl, hrep⟩
  · cases hu
    rcases ht with hd | hk
    · exact absurd hd (hr.parametersApart.not_declared hparameter)
    · rw [hr.parametersApart.kind_eq hparameter] at hk
      cases hk
  · exact ⟨record, hrecord, hid, hrep⟩

/-- An object literal that an alias names shares the record of the alias. -/
theorem get?_literalOf (hr : host.Regular) {s : SymbolId} {d : TypeId} {id : BundleId} (hl : host.IsLiteralOf s d)
    (hid : q.registry.get? (.type d) = some id) : q.registry.get? (.alias_ s) = some id := by
  obtain ⟨record, -, hid', hrep⟩ := h.recorded_type hr hid (.inr (hr.kind_of_literalOf hl))
  cases hrep with
  | declaration hd _ _ => exact absurd (hr.kind_of_literalOf hl) (hr.kind_ne_of_declared hd)
  | literal _ ha _ =>
    rw [hr.alias_of_literalOf hl] at ha
    cases ha
  | shared hl' hshared _ =>
    obtain rfl := Option.some.inj ((hr.alias_of_literalOf hl).symm.trans (hr.alias_of_literalOf hl'))
    exact hshared.trans hid

/-- Where a walk may be led from what is covered is covered. -/
theorem covered_of_leads (hr : host.Regular) {x y : Spot} (hl : host.Leads settings x y)
    (hx : Covered host settings q b x) : Covered host settings q b y := by
  cases hl with
  | alias_ ha =>
    obtain ⟨e, he⟩ := hx
    cases he with
    | alias_ ha' hid _ =>
      obtain rfl := Option.some.inj (ha.symm.trans ha')
      exact h.recorded_alias hid
    | bare ha' _ =>
      rw [ha] at ha'
      cases ha'
  | aliasArgument ha hc =>
    obtain ⟨e, he⟩ := hx
    cases he with
    | alias_ _ _ hes => exact exists_of_mem_types hes _ hc
    | bare ha' _ =>
      rw [ha] at ha'
      cases ha'
  | bare ha =>
    obtain ⟨e, he⟩ := hx
    cases he with
    | alias_ ha' _ _ =>
      rw [ha] at ha'
      cases ha'
    | bare _ hrep => exact ⟨⟨_, hrep⟩, fun _ => ha⟩
  | aliasConstraint hc =>
    obtain ⟨record, -, -, hrep⟩ := hx
    cases hrep with
    | alias_ _ hgs _ => exact exists_of_mem_constraints hgs _ hc
  | otherAlias hd hnames =>
    obtain ⟨record, -, -, hrep⟩ := hx
    exact ⟨_, (hrep.body hd).of_namesOther hnames⟩
  | @aliasLiteral s d hd hnames hlit =>
    obtain ⟨record, -, hid, hrep⟩ := hx
    rcases (hrep.body hd).of_not_namesOther hnames with ⟨-, -, _, -, hb⟩ | ⟨hne, hrep⟩
    · exact ⟨_, hb⟩
    · -- a literal that is named has an id only together with its alias
      have hl : host.IsLiteralOf s d := ⟨hd, hnames, hlit⟩
      obtain ⟨k, hk⟩ := registered_of_literal hrep (hr.kind_of_literalOf hl)
      have hshared := (h.get?_literalOf hr hl hk).symm.trans hid
      exact absurd (hk.trans hshared) (hne hl)
  | aliasBody hd hnames hk =>
    obtain ⟨record, -, -, hrep⟩ := hx
    rcases (hrep.body hd).of_not_namesOther hnames with ⟨hl, -⟩ | ⟨-, hrep⟩
    · exact absurd (hr.kind_of_literalOf hl) hk
    · exact ⟨⟨_, hrep⟩, fun ha => absurd ha hk⟩
  | part hc =>
    obtain ⟨⟨e, he⟩, -⟩ := hx
    exact exists_of_mem_parts he _ hc
  | @target t u hk hu htuple =>
    obtain ⟨⟨e, he⟩, -⟩ := hx
    have hd : host.IsDeclared u := .inr ⟨t, hk, hu, htuple⟩
    obtain ⟨id, hid⟩ := registered_of_target he hk hu htuple
    exact ⟨hd, h.recorded_type hr hid (.inl hd)⟩
  | nominal hk =>
    obtain ⟨⟨e, he⟩, -⟩ := hx
    obtain ⟨id, hid⟩ := registered_of_nominal he hk
    exact ⟨.inl hk, h.recorded_type hr hid (.inl (.inl hk))⟩
  | literal hk =>
    obtain ⟨⟨e, he⟩, ha⟩ := hx
    obtain ⟨id, hid⟩ := registered_of_literal he hk
    obtain ⟨record, -, -, hrep⟩ := h.recorded_type hr hid (.inr hk)
    obtain ⟨_, _, -, hb⟩ := hr.literal_of_represents (ha hk) hk hrep
    exact ⟨_, hb⟩
  | constraint hc =>
    obtain ⟨hd, record, -, -, hrep⟩ := hx
    obtain ⟨_, _, _, -, hgs, -⟩ := hr.declaration_of_represents hd hrep
    exact exists_of_mem_constraints hgs _ hc
  | declaredShape =>
    obtain ⟨hd, record, -, -, hrep⟩ := hx
    obtain ⟨_, _, _, -, -, hb⟩ := hr.declaration_of_represents hd hrep
    exact ⟨_, hb⟩
  | shapePart hc =>
    obtain ⟨s, hs⟩ := hx
    exact exists_of_mem_shapeParts hs _ hc

end Finished

end TypeBundle
