import TypeBundle.Proofs.Pass.Finished
import TypeBundle.Proofs.Snapshot.Regular
import TypeBundle.Proofs.TypeExpr.Children
/-!
# Ids of records and ids of type parameters

If type parameters are flagged as such and as nothing else, the ids that a pass hands out are of two kinds:
those of records, each of exactly one record, and those of type parameters, which have none. Whatever a
bundle refers to is of the first kind, and whatever it declares or mentions as a type parameter of the second
(`bundle_partition`).
-/

namespace TypeBundle

/-- The id was handed out for a type parameter. -/
def Progress.IsParameterId (host : Host) (q : Progress) (id : BundleId) : Prop :=
  ∃ t, host.IsParameter t ∧ q.registry.get? (.type t) = some id

/-- The ids of a pass are those of records and those of type parameters. -/
structure Partitioned (host : Host) (q : Progress) (b : Bundle) : Prop where
  /-- Every id that was handed out is of one of two kinds. -/
  split : ∀ id : BundleId, id.val.toNat < q.registry.issued →
    b.ids.count id = 1 ∧ ¬q.IsParameterId host id ∨ b.ids.count id = 0 ∧ q.IsParameterId host id
  issued : ∀ id ∈ b.ids, id.val.toNat < q.registry.issued
  references : ∀ id ∈ b.references, b.ids.count id = 1 ∧ ¬q.IsParameterId host id
  parameters : ∀ id ∈ b.parameters, b.ids.count id = 0 ∧ q.IsParameterId host id
  ascending : b.ids.Pairwise (· < ·)

/-! ## What stands in a bundle -/

section

variable {host : Host} {settings : Settings} {q : Progress}

/-- The expression says something about a type of the host, or stands for a member that is left out. -/
def Meaningful (host : Host) (q : Progress) (e : TypeExpr) : Prop :=
  e = .any ∨ ∃ view t, Represents host q view t e

/-- A record of this identity can be referred to. -/
def Host.IsRecorded (host : Host) : Identity → Prop
  | .alias_ _ => True
  | .type t => host.IsDeclared t ∨ (host.type t).kind = .ok .anonymous

theorem meaningful_of_forall₂ {ts : List TypeId} {es : List TypeExpr} (h : List.Forall₂ (Represents host q .written) ts es) :
    ∀ e ∈ es, Meaningful host q e := by
  intro e he
  obtain ⟨t, -, ht⟩ := exists_of_mem_right h e he
  exact .inr ⟨_, t, ht⟩

theorem meaningful_of_rel {t? : Option TypeId} {e? : Option TypeExpr} (h : Option.Rel (Represents host q .written) t? e?) :
    ∀ e ∈ e?, Meaningful host q e := by
  rintro e rfl
  cases h with
  | some h => exact .inr ⟨_, _, h⟩

theorem RepresentsSignature.meaningful {g : SignatureId} {s : Signature TypeExpr} (h : RepresentsSignature host q g s) :
    ∀ c ∈ s.parts, Meaningful host q c := by
  refine Signature.forall_parts.2 ⟨fun x hx => ?_, fun x hx => ?_, .inr ⟨_, _, h.returnType⟩⟩
  · obtain ⟨t, -, ht⟩ := exists_of_mem_right h.typeParameters x hx
    exact meaningful_of_rel ht.constraint
  · obtain ⟨y, -, hy⟩ := exists_of_mem_right h.parameters x hx
    obtain ⟨t, -, ht⟩ := hy.type
    exact .inr ⟨_, t, ht⟩

theorem RepresentsShape.meaningful {t : TypeId} {owner? : Option SymbolId} {s : Shape TypeExpr}
    (h : RepresentsShape host settings q t owner? s) : ∀ c ∈ s.parts, Meaningful host q c := by
  refine Shape.forall_parts.2 ⟨meaningful_of_forall₂ h.bases, fun g hg => ?_, fun g hg => ?_, fun m hm => ?_⟩
  · obtain ⟨_, -, hs⟩ := exists_of_mem_right h.callSignatures g hg
    exact hs.meaningful
  · obtain ⟨_, -, hs⟩ := exists_of_mem_right h.constructSignatures g hg
    exact hs.meaningful
  · obtain ⟨ms, hms, hlast⟩ := h.members
    have hmem : m ∈ ms := List.mem_reverse.1 (List.mem_of_find?_eq_some ((hlast.mem m).1 hm))
    obtain ⟨x, -, hx⟩ := exists_of_mem_right hms m hmem
    have htype := hx.type
    split at htype
    · exact .inl htype
    · obtain ⟨t, -, ht⟩ := htype
      exact .inr ⟨_, t, ht⟩

/-- A shape declares type parameters of the host. -/
theorem RepresentsShape.parameter {t : TypeId} {owner? : Option SymbolId} {s : Shape TypeExpr}
    (h : RepresentsShape host settings q t owner? s) :
    ∀ g ∈ s.signatures, ∀ x ∈ g.typeParameters, q.IsParameterId host x.id := by
  intro g hg x hx
  have hsignature : ∃ i, RepresentsSignature host q i g := by
    rcases List.mem_append.1 hg with hg | hg
    · exact (exists_of_mem_right h.callSignatures g hg).imp fun _ => And.right
    · exact (exists_of_mem_right h.constructSignatures g hg).imp fun _ => And.right
  obtain ⟨i, hi⟩ := hsignature
  obtain ⟨u, hu, hgeneric⟩ := exists_of_mem_right hi.typeParameters x hx
  exact ⟨u, .inl (.inr (.inr ⟨i, hu⟩)), hgeneric.id⟩

/-- The expression is made of meaningful ones, refers to records and names type parameters of the host. -/
structure Grounded (host : Host) (q : Progress) (e : TypeExpr) : Prop where
  children : ∀ c ∈ e.children, Meaningful host q c
  target : ∀ id, e.target? = some id → ∃ key, q.registry.get? key = some id ∧ host.IsRecorded key
  parameters : ∀ id ∈ e.ownParameters, q.IsParameterId host id

theorem Grounded.compound {e : TypeExpr} (hc : ∀ c ∈ e.children, Meaningful host q c) (ht : e.target? = none)
    (hp : e.ownParameters = []) : Grounded host q e := by
  constructor
  · exact hc
  · intro id hid
    rw [ht] at hid
    cases hid
  · intro id hid
    rw [hp] at hid
    cases hid

theorem Grounded.mention {key : Identity} {id : BundleId} {es : List TypeExpr} (hid : q.registry.get? key = some id)
    (hkey : host.IsRecorded key) (hes : ∀ e ∈ es, Meaningful host q e) : Grounded host q (.mention id es) := by
  have htarget : (TypeExpr.mention id es).target? = some id := by cases es <;> rfl
  constructor
  · intro c hc
    apply hes
    cases es <;> exact hc
  · intro id' hid'
    rw [htarget] at hid'
    cases hid'
    exact ⟨key, hid, hkey⟩
  · intro id' hid'
    cases es <;> cases hid'

theorem Grounded.record {key : Identity} {id : BundleId} (hid : q.registry.get? key = some id)
    (hkey : host.IsRecorded key) : Grounded host q (.record id) :=
  .mention hid hkey fun e (he : e ∈ []) => absurd he List.not_mem_nil

theorem Grounded.shape {t : TypeId} {owner? : Option SymbolId} {s : Shape TypeExpr}
    (h : RepresentsShape host settings q t owner? s) : Grounded host q (.shape s) := by
  constructor
  · exact h.meaningful
  · intro id hid
    cases hid
  · simp only [TypeExpr.ownParameters, List.mem_flatMap, List.mem_map]
    rintro _ ⟨g, hg, x, hx, rfl⟩
    exact h.parameter g hg x hx

end

/-! ## Finished passes -/

namespace Finished

variable {host : Host} {settings : Settings} {global : SymbolId} {modules : List SymbolId} {q : Progress} {b : Bundle}
variable (h : Finished host settings global modules q b)
include h

theorem shape_of_body {t : TypeId} {id : BundleId} {record : Record} {s : Shape TypeExpr}
    (hid : q.registry.get? (.type t) = some id) (hrecord : q.table.get? id = some record)
    (hbody : record.body = .shape s) : ∃ owner?, RepresentsShape host settings q t owner? s := by
  obtain rfl : record.id = id := h.consistent.keyed id record (RecordTable.get?_eq_some.1 hrecord)
  obtain ⟨owner?, s', hs', hrep⟩ := (h.represents ((h.mem_records record).2 hrecord) hid).shape hid
  obtain rfl : s = s' := by simpa [hbody] using hs'
  exact ⟨owner?, hrep⟩

theorem grounded_of_bare {t : TypeId} {e : TypeExpr} (hrep : Represents host q .bare t e) : Grounded host q e := by
  cases hrep with
  | constant hc =>
    obtain ⟨kind, literal?, rfl⟩ := HostType.constant_eq hc
    exact .compound (fun _ hc => absurd hc List.not_mem_nil) rfl rfl
  | parameter hk hid =>
    constructor
    · intro c hc
      cases hc
    · intro id' hid'
      cases hid'
    · simp only [TypeExpr.ownParameters, List.mem_singleton, forall_eq]
      exact ⟨t, .inr hk, hid⟩
  | union _ hes | intersection _ hes | tuple _ _ _ hes => exact .compound (meaningful_of_forall₂ hes) rfl rfl
  | keyOf _ _ hx =>
    refine .compound ?_ rfl rfl
    simp only [TypeExpr.children, List.mem_singleton, forall_eq]
    exact .inr ⟨_, _, hx⟩
  | indexedAccess _ _ hx hy hz =>
    refine .compound ?_ rfl rfl
    simp only [TypeExpr.children, List.mem_cons, Option.mem_toList, forall_eq_or_imp]
    exact ⟨.inr ⟨_, _, hx⟩, .inr ⟨_, _, hy⟩, meaningful_of_rel hz⟩
  | instantiation hk ht hn hid hes => exact .mention hid (.inl (.inr ⟨t, hk, ht, hn⟩)) (meaningful_of_forall₂ hes)
  | nominal hk hid => exact .record hid (.inl (.inl hk))
  | literalMention hk hid => exact .record hid (.inr hk)
  | literalShape hk hid hrecord hbody =>
    -- what the shape says about the literal is said by the record, which represents it
    obtain ⟨owner?, hs⟩ := h.shape_of_body hid hrecord hbody
    exact .shape hs

theorem grounded {e : TypeExpr} (he : Meaningful host q e) : Grounded host q e := by
  rcases he with rfl | ⟨view, t, hrep⟩
  · exact .compound (fun _ hc => absurd hc List.not_mem_nil) rfl rfl
  · cases view with
    | bare => exact h.grounded_of_bare hrep
    | written =>
      cases hrep with
      | alias_ ha hid hes => exact .mention hid trivial (meaningful_of_forall₂ hes)
      | bare _ hrep => exact h.grounded_of_bare hrep

/-- Every subterm of a meaningful expression is meaningful. -/
theorem meaningful_subterm {e : TypeExpr} (he : Meaningful host q e) : ∀ c ∈ e.subterms, Meaningful host q c :=
  TypeExpr.forall_subterms (P := Meaningful host q) (fun _ he => (h.grounded he).children) he

/-- The type parameters of a record are those of the host. -/
theorem generic {record : Record} (hr : record ∈ b.records) :
    ∀ g ∈ record.generics, ∃ t, host.IsParameter t ∧ RepresentsGeneric host q t g := by
  obtain ⟨key, hkey⟩ := h.exists_identity hr
  have halias : ∀ {s}, RepresentsRecord host settings q (.alias_ s) record →
      ∀ g ∈ record.generics, ∃ t, host.IsParameter t ∧ RepresentsGeneric host q t g := by
    intro s hrep g hg
    cases hrep with
    | alias_ _ hgs _ =>
      rw [Host.generics_recordOfAlias] at hg
      obtain ⟨t, ht, hgeneric⟩ := exists_of_mem_right hgs g hg
      exact ⟨t, .inl (.inr (.inl ⟨s, ht⟩)), hgeneric⟩
  intro g hg
  cases h.represents hr hkey with
  | alias_ hd hgs hbody => exact halias (.alias_ hd hgs hbody) g hg
  | shared _ _ hrep => exact halias hrep g hg
  | literal _ _ _ => cases hg
  | @declaration t id gs s _ hgs _ =>
    rw [Host.generics_recordOfType] at hg
    obtain ⟨u, hu, hgeneric⟩ := exists_of_mem_right hgs g hg
    exact ⟨u, .inl (.inl ⟨t, hu⟩), hgeneric⟩

/-- The body of a record is a shape of the host, or meaningful by itself. -/
theorem shape_or_meaningful {record : Record} (hr : record ∈ b.records) :
    (∃ t owner? s, record.body = .shape s ∧ RepresentsShape host settings q t owner? s) ∨
      Meaningful host q record.body := by
  obtain ⟨key, hkey⟩ := h.exists_identity hr
  have hrep := h.represents hr hkey
  cases key with
  | type t => exact .inl ⟨t, hrep.shape hkey⟩
  | alias_ s =>
    obtain ⟨t, -, hbody⟩ := hrep.exists_body
    by_cases hnames : host.NamesOther s t
    · exact .inr (.inr ⟨_, t, hbody.of_namesOther hnames⟩)
    · rcases hbody.of_not_namesOther hnames with ⟨-, -, hshape⟩ | ⟨-, hrep⟩
      · exact .inl ⟨t, _, hshape⟩
      · exact .inr (.inr ⟨_, t, hrep⟩)

theorem grounded_body {record : Record} (hr : record ∈ b.records) : Grounded host q record.body := by
  rcases h.shape_or_meaningful hr with ⟨t, owner?, s, hs, hshape⟩ | hbody
  · rw [hs]
    exact .shape hshape
  · exact h.grounded hbody

/-- A bundle is made of meaningful expressions and of the bodies of its records. -/
theorem meaningful_or_body {e c : TypeExpr} (he : e ∈ b.expressions) (hc : c ∈ e.subterms) :
    Meaningful host q c ∨ ∃ record ∈ b.records, c = record.body := by
  have hroot : ∀ {s e}, RepresentsRoot host q s e → Meaningful host q e := fun ⟨t, _, hrep⟩ => .inr ⟨_, t, hrep⟩
  simp only [Bundle.expressions, Bundle.roots, List.cons_append, List.mem_cons, List.mem_append, List.mem_map,
    List.mem_flatMap, List.mem_filterMap] at he
  rcases he with rfl | (⟨m, hm, rfl⟩ | ⟨record, hr, rfl⟩) | ⟨record, hr, g, hg, he⟩
  · exact .inl (h.meaningful_subterm (hroot h.global) c hc)
  · obtain ⟨s, -, hs⟩ := exists_of_mem_right h.modules m hm
    exact .inl (h.meaningful_subterm (hroot hs.type) c hc)
  · rw [TypeExpr.subterms_eq, List.mem_cons, List.mem_flatMap] at hc
    rcases hc with rfl | ⟨d, hd, hc⟩
    · exact .inr ⟨record, hr, rfl⟩
    · exact .inl (h.meaningful_subterm ((h.grounded_body hr).children d hd) c hc)
  · obtain ⟨t, -, hgeneric⟩ := h.generic hr g hg
    exact .inl (h.meaningful_subterm (meaningful_of_rel hgeneric.constraint e he) c hc)

/-- Everything that a bundle is made of is grounded. -/
theorem grounded_expressions {e c : TypeExpr} (he : e ∈ b.expressions) (hc : c ∈ e.subterms) : Grounded host q c := by
  rcases h.meaningful_or_body he hc with hmeaningful | ⟨record, hr, rfl⟩
  · exact h.grounded hmeaningful
  · exact h.grounded_body hr

/-- An id is that of one record or of none. -/
theorem count_ids (id : BundleId) : b.ids.count id = if id ∈ b.ids then 1 else 0 := h.ids_nodup.count

section Apart

variable (hapart : host.ParametersApart)
include hapart

/-- What may be referred to has a record. -/
theorem mem_ids {key : Identity} {id : BundleId} (hid : q.registry.get? key = some id) (hkey : host.IsRecorded key) :
    id ∈ b.ids := by
  rcases h.settled hid with ⟨-, t, rfl, ht⟩ | ⟨record, hr, rfl, -⟩
  · rcases hkey with hd | hk
    · exact absurd hd (hapart.not_declared ht)
    · rw [hapart.kind_eq ht] at hk
      cases hk
  · exact List.mem_map_of_mem hr

/-- A type parameter has no record. -/
theorem not_mem_ids {id : BundleId} (hid : q.IsParameterId host id) : id ∉ b.ids := by
  obtain ⟨t, ht, hkey⟩ := hid
  intro hmem
  obtain ⟨record, hr, rfl⟩ := List.mem_map.1 hmem
  exact hapart.not_represented ht (h.represents hr hkey)

end Apart

end Finished

/-! ## The theorem -/

variable {host : Host} {settings : Settings} {global : SymbolId} {modules : List SymbolId}

/-- The ids that a pass hands out are those of records and those of type parameters; what a bundle refers to
is a record, and what it declares or mentions as a type parameter is none. -/
theorem bundle_partition {depth : Nat} {q : Progress} {b : Bundle} (hapart : host.ParametersApart)
    (hrun : Walk.runFrom .start (Walk.bundle host settings depth global modules) = (.ok b, q))
    (hn : q.registry.issued < 2 ^ 32) : Partitioned host q b := by
  have h := Walk.finished_of_run hrun (Nat.le_of_lt hn)
  have hrecord : ∀ {id}, id ∈ b.ids → b.ids.count id = 1 ∧ ¬q.IsParameterId host id := by
    intro id hid
    rw [h.count_ids, if_pos hid]
    exact ⟨rfl, fun hp => h.not_mem_ids hapart hp hid⟩
  have hparameter : ∀ {id}, q.IsParameterId host id → b.ids.count id = 0 ∧ q.IsParameterId host id := by
    intro id hp
    rw [h.count_ids, if_neg (h.not_mem_ids hapart hp)]
    exact ⟨rfl, hp⟩
  constructor
  · intro id hid
    obtain ⟨key, hkey⟩ := h.consistent.numbered.used hid
    rcases h.settled hkey with ⟨-, t, rfl, ht⟩ | ⟨record, hr, rfl, -⟩
    · exact .inr (hparameter ⟨t, ht, hkey⟩)
    · exact .inl (hrecord (List.mem_map_of_mem hr))
  · intro id hid
    obtain ⟨record, hr, rfl⟩ := List.mem_map.1 hid
    obtain ⟨key, hkey⟩ := h.exists_identity hr
    exact h.consistent.numbered.lt hkey
  · intro id hid
    simp only [Bundle.references, TypeExpr.references, List.mem_flatMap, List.mem_filterMap] at hid
    obtain ⟨e, he, c, hc, htarget⟩ := hid
    obtain ⟨key, hkey, hrecorded⟩ := (h.grounded_expressions he hc).target id htarget
    exact hrecord (h.mem_ids hapart hkey hrecorded)
  · intro id hid
    simp only [Bundle.parameters, TypeExpr.parameters, List.mem_append, List.mem_flatMap, List.mem_map] at hid
    rcases hid with ⟨e, he, c, hc, hid⟩ | ⟨record, hr, g, hg, rfl⟩
    · exact hparameter ((h.grounded_expressions he hc).parameters id hid)
    · obtain ⟨t, ht, hgeneric⟩ := h.generic hr g hg
      exact hparameter ⟨t, ht, hgeneric.id⟩
  · exact h.ids_ascending

/-- A generic interface whose method has a type parameter of its own. -/
theorem bundle_partition_genericContainer : ∃ l b q, Sample.genericContainer.loaded? = some l ∧
    Walk.runFrom .start (Walk.bundle l.host default l.depth l.global []) = (.ok b, q) ∧ Partitioned l.host q b := by
  obtain ⟨s, l, b, q, hl, hload, hr, hn⟩ := Sample.exists_run (rfl : Sample.genericContainer.resolves = true)
  have hcheck : Sample.genericContainer.loaded?.all (·.isRegular) = true := by decide +kernel
  rw [hl] at hcheck
  have hapart := (Snapshot.regular_of_isRegular hload hcheck).parametersApart
  exact ⟨l, b, q, hl, hr, bundle_partition hapart hr hn⟩

end TypeBundle
