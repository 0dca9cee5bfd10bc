import TypeBundle.Pass.Run
import TypeBundle.Proofs.Pass.RecordTable
import TypeBundle.Proofs.Pass.Represents
import TypeBundle.Proofs.TypeExpr.Marks
import TypeBundle.Proofs.Walk.Expanding
import TypeBundle.Proofs.Walk.Keeps
/-!
# Walks of hosts that are alike

Two hosts can differ in answers that a pass never asks for, or asks for and makes little of. `Host.Akin` says where
they may differ, `Leeway` what may come of it: marks on members with a hidden name, and reasons for which one of two
walks may stop where the other goes on. `Walk.Akin` relates two walks: up to the leeway they go on alike. First the
rules for sequences and lists, then one lemma for each rule of a walk: if the walks of the types inside are akin, so are
the walks of the type. Without leeway akin walks have the same answer (`Walk.Akin.answer_eq`).
-/

namespace TypeBundle

/-- What two walks may differ in. -/
structure Leeway where
  /-- Members with such a name may be never assigned for one walk only. -/
  hidden : String → Bool
  /-- For this the first walk may stop, whatever the second does. -/
  first : Stop → Prop
  /-- For this the second walk may stop, whatever the first does. -/
  second : Stop → Prop

/-- The walks must not differ. -/
def Leeway.none : Leeway := ⟨noName, fun _ => False, fun _ => False⟩

/-! ## Progresses -/

/-- The same ids have been handed out, and the slots hold the same, apart from marks. -/
structure Progress.Akin (hidden : String → Bool) (p p' : Progress) : Prop where
  registry : p'.registry = p.registry
  slot? : ∀ id, (p'.table.slot? id).map (·.map (·.unmark hidden)) = (p.table.slot? id).map (·.map (·.unmark hidden))

namespace Progress.Akin

variable {hidden : String → Bool} {p p' : Progress}

theorem refl (hidden : String → Bool) (p : Progress) : p.Akin hidden p := ⟨rfl, fun _ => rfl⟩

/-- A record is finished for both or for none. -/
theorem get?_eq_none_iff (h : p.Akin hidden p') (id : BundleId) : p'.table.get? id = none ↔ p.table.get? id = none := by
  have hget : ∀ t : RecordTable, (t.get? id).map (·.unmark hidden) = ((t.slot? id).map (·.map (·.unmark hidden))).join :=
    fun t => by rw [Option.join_map_eq_map_join]; rfl
  rw [← Option.map_eq_none_iff (f := (·.unmark hidden)), hget, h.slot?, ← hget, Option.map_eq_none_iff]

theorem reserve (h : p.Akin hidden p') (key : Identity) :
    Progress.Akin hidden { p with registry := (p.registry.reserve key).2 }
      { p' with registry := (p'.registry.reserve key).2 } :=
  ⟨congrArg (fun r : Registry => (r.reserve key).2) h.registry, h.slot?⟩

theorem begin_ (h : p.Akin hidden p') (id : BundleId) :
    Progress.Akin hidden { p with table := p.table.reserve id } { p' with table := p'.table.reserve id } := by
  refine ⟨h.registry, fun other => ?_⟩
  simp only [RecordTable.slot?_reserve]
  split
  · have hslot := h.slot? id
    revert hslot
    cases p.table.slot? id <;> cases p'.table.slot? id <;> simp
  · exact h.slot? other

theorem close (h : p.Akin hidden p') {record record' : Record} (hrecord : record'.unmark hidden = record.unmark hidden) :
    (p.close record).Akin hidden (p'.close record') := by
  have hid : record'.id = record.id := congrArg (·.id) hrecord
  refine ⟨h.registry, fun other => ?_⟩
  simp only [Progress.close, RecordTable.slot?_fill, hid, h.get?_eq_none_iff]
  split
  · simp [hrecord]
  · exact h.slot? other

theorem share (h : p.Akin hidden p') (key : Identity) (id : BundleId) :
    (p.share key id).Akin hidden (p'.share key id) :=
  ⟨congrArg (fun r : Registry => r.bind key id) h.registry, h.slot?⟩

theorem freeze (h : p.Akin hidden p') :
    p'.table.freeze.map (·.map (·.unmark hidden)) = p.table.freeze.map (·.map (·.unmark hidden)) := by
  rw [← RecordTable.freeze_map, ← RecordTable.freeze_map]
  exact RecordTable.freeze_congr fun id => by simp only [RecordTable.slot?_map, h.slot?]

end Progress.Akin

/-! ## Hosts -/

/-- What two hosts say about a member of a type whose owner has the name `owner?`. -/
structure HostSymbol.Akin (y : Leeway) (settings : Settings) (owner? : Option String) (s s' : HostSymbol) : Prop where
  /-- A member that only one host declares stops the walk of the other. -/
  first : s.isUndeclared = true → s'.isUndeclared = false → y.first (.failed (.missingDeclaration s.name))
  second : s.isUndeclared = false → s'.isUndeclared = true → y.second (.failed (.missingDeclaration s.name))
  readonly : y.hidden s.name = false → s'.isReadonly = s.isReadonly
  /-- The type of a member matters unless the member is left out. -/
  type? : settings.excludes owner? s.name = false → s'.type? = s.type?

/-- A member of which the hosts say the same. -/
theorem HostSymbol.Akin.refl {y : Leeway} {settings : Settings} {owner? : Option String} (s : HostSymbol) :
    s.Akin y settings owner? s :=
  ⟨fun h h' => by simp [h] at h', fun h h' => by simp [h] at h', fun _ => rfl, fun _ => rfl⟩

namespace Host

/-- The members of the type can be left out under the name of this owner: its own symbol, or an alias that stands for
the type. -/
def IsOwner (host : Host) (t : TypeId) (owner? : Option SymbolId) : Prop :=
  owner? = (host.type t).symbol? ∨ ∃ s, owner? = some s ∧ host.IsLiteralOf s t

/-- Two hosts that differ at most in what a pass does not see: the structure of types that are only written by an
alias, and types and declarations of symbols where they do not matter. The types whose structure can be seen are
`Seen`. -/
structure Akin (y : Leeway) (settings : Settings) (Seen : TypeId → Prop) (host host' : Host) : Prop where
  signature : host'.signature = host.signature
  type : ∀ t, Seen t → host'.type t = host.type t
  alias? : ∀ t, (host'.type t).alias? = (host.type t).alias?
  aliasArguments : ∀ t, (host'.type t).aliasArguments = (host.type t).aliasArguments
  /-- Where a type is looked at, whatever alias it is written by. -/
  seen_bare : ∀ t, (host.type t).alias? = none → Seen t
  seen_declared : ∀ s t, (host.symbol s).declaredType? = some t → ¬host.NamesOther s t → Seen t
  seen_target : ∀ t u, Seen t → (host.type t).target? = some u → Seen u
  seen_parameter : ∀ t, host.InParameterList t → Seen t
  symbol : ∀ s, host'.symbol s = { host.symbol s with
    type? := (host'.symbol s).type?
    declarations := (host'.symbol s).declarations }
  /-- The symbols of records keep their places of declaration. -/
  alias_files : ∀ t s, (host.type t).alias? = some s → (host'.symbol s).originFiles = (host.symbol s).originFiles
  symbol_files : ∀ t s, Seen t → (host.type t).symbol? = some s →
    (host'.symbol s).originFiles = (host.symbol s).originFiles
  parameter : ∀ g, ∀ s ∈ (host.signature g).parameters, (host'.symbol s).type? = (host.symbol s).type?
  member : ∀ t owner?, Seen t → host.IsOwner t owner? → ∀ s ∈ Walk.selectedMembers settings (host.type t),
    (host.symbol s).Akin y settings (host.ownerName owner?) (host'.symbol s)

namespace Akin

variable {y : Leeway} {settings : Settings} {Seen : TypeId → Prop} {host host' : Host}

section

variable (h : host.Akin y settings Seen host') (s : SymbolId)
include h

theorem name : (host'.symbol s).name = (host.symbol s).name := by rw [h.symbol]

theorem qualifiedName : (host'.symbol s).qualifiedName = (host.symbol s).qualifiedName := by
  rw [h.symbol]
  rfl

theorem flags : (host'.symbol s).flags = (host.symbol s).flags := by rw [h.symbol]

theorem declaredType? : (host'.symbol s).declaredType? = (host.symbol s).declaredType? := by rw [h.symbol]

theorem aliasParameters : (host'.symbol s).aliasParameters = (host.symbol s).aliasParameters := by rw [h.symbol]

theorem ownerName (owner? : Option SymbolId) : host'.ownerName owner? = host.ownerName owner? := by
  simp only [Host.ownerName, h.qualifiedName]

theorem namesOther_iff (s : SymbolId) (t : TypeId) : host'.NamesOther s t ↔ host.NamesOther s t := by
  unfold NamesOther
  rw [h.alias?]

end

end Akin

end Host

/-! ## Walks -/

namespace Walk

variable {α β : Type}

/-- Two walks end alike: with the same value as `view` shows it, or for the same reason, or one of them for a reason
that is its own. -/
inductive AlikeUpTo (y : Leeway) (view : α → β) :
    EStateM.Result Stop Progress α → EStateM.Result Stop Progress α → Prop
  | ok {a a' q q'} : view a' = view a → q.Akin y.hidden q' → AlikeUpTo y view (.ok a q) (.ok a' q')
  | error {e q q'} : AlikeUpTo y view (.error e q) (.error e q')
  | first {e q r} : y.first e → AlikeUpTo y view (.error e q) r
  | second {r e q} : y.second e → AlikeUpTo y view r (.error e q)

/-- From akin progresses the walks go on alike. -/
def Akin (y : Leeway) (view : α → β) (w w' : Walk α) : Prop :=
  ∀ p p' : Progress, p.Akin y.hidden p' → AlikeUpTo y view (w p) (w' p')

namespace Akin

variable {y : Leeway} {γ δ : Type} {view : α → β} {view' : γ → δ}

/-! ### Sequences and lists -/

theorem pure {a a' : α} (h : view a' = view a) : Akin y view (Pure.pure a) (Pure.pure a') := fun _ _ hp => .ok h hp

theorem fail (failure : Failure) : Akin y view (Walk.fail failure) (Walk.fail failure) := fun _ _ _ => .error

theorem bind {w w' : Walk α} {k k' : α → Walk γ} (hw : Akin y view w w')
    (hk : ∀ a a', view a' = view a → Akin y view' (k a) (k' a')) : Akin y view' (w >>= k) (w' >>= k') := by
  intro p p' hp
  have h := hw p p' hp
  rw [seq_apply, seq_apply]
  generalize w p = r at h
  generalize w' p' = r' at h
  cases h with
  | ok hview hq => exact hk _ _ hview _ _ hq
  | error => exact .error
  | first he => exact .first he
  | second he =>
    -- Whatever the first walk does, the second has stopped.
    exact .second he

/-- A walk whose value is shown as it is. -/
theorem bind_same {w w' : Walk α} {k k' : α → Walk γ} (hw : Akin y id w w') (hk : ∀ a, Akin y view' (k a) (k' a)) :
    Akin y view' (w >>= k) (w' >>= k') :=
  bind hw fun a a' (h : a' = a) => h ▸ hk a'

theorem map {w w' : Walk α} {g : α → γ} (hw : Akin y view w w')
    (hg : ∀ a a', view a' = view a → view' (g a') = view' (g a)) : Akin y view' (g <$> w) (g <$> w') := by
  simp only [map_eq_pure_bind]
  exact bind hw fun a a' h => pure (hg a a' h)

theorem mapM {w w' : α → Walk γ} {as : List α} (h : ∀ a ∈ as, Akin y view' (w a) (w' a)) :
    Akin y (List.map view') (as.mapM w) (as.mapM w') := by
  induction as with
  | nil => exact pure rfl
  | cons a as ih =>
    simp only [List.mapM_cons]
    refine bind (h a List.mem_cons_self) fun x x' hx =>
      bind (ih fun b hb => h b (List.mem_cons_of_mem _ hb)) fun xs xs' hxs => pure ?_
    rw [List.map_cons, List.map_cons, hx, hxs]

theorem orUnexpected {what : Unexpected} {a? : Option α} {k k' : α → Walk γ} (h : ∀ a ∈ a?, Akin y view' (k a) (k' a)) :
    Akin y view' (Walk.orUnexpected what a? >>= k) (Walk.orUnexpected what a? >>= k') := by
  cases a? with
  | none => exact fun _ _ _ => .error
  | some a => exact h a rfl

theorem reserve (key : Identity) : Akin y id (Walk.reserve key) (Walk.reserve key) := by
  intro p p' hp
  rw [reserve_apply, reserve_apply]
  exact .ok (by rw [hp.registry]) (hp.reserve key)

theorem open_ (key : Identity) : Akin y id (Ledger.open_ key) (Ledger.open_ key) := by
  refine .bind_same (.reserve key) fun reserved => ?_
  obtain ⟨id, started⟩ := reserved
  cases started with
  | true => exact .pure rfl
  | false => exact .bind_same (fun _ _ hp => .ok rfl (hp.begin_ id)) fun _ => .pure rfl

theorem expanding {key : Identity} {again : BundleId → α} {first first' : BundleId → Walk (Record × α)}
    (h : ∀ id, Akin y (Prod.map (·.unmark y.hidden) view) (first id) (first' id)) :
    Akin y view (Walk.expanding key again first) (Walk.expanding key again first') := by
  refine .bind_same (.open_ key) fun opened => ?_
  obtain ⟨id, started⟩ := opened
  cases started with
  | true => exact .pure rfl
  | false =>
    refine .bind (h id) fun result result' hresult => ?_
    obtain ⟨hrecord, hvalue⟩ := Prod.mk.inj hresult
    exact .bind_same (fun _ _ hp => .ok rfl (hp.close hrecord)) fun _ => .pure hvalue

end Akin

/-! ## The rules for one type -/

section Rules

variable {y : Leeway} {settings : Settings} {Seen : TypeId → Prop} {host host' : Host}
variable {resolve resolve' : TypeId → Walk TypeExpr}

theorem keepGenerics_map {f : TypeExpr → TypeExpr} {gs gs' : List (Generic TypeExpr)}
    (h : gs'.map (·.map f) = gs.map (·.map f)) :
    (keepGenerics gs').map (·.map (·.map f)) = (keepGenerics gs).map (·.map (·.map f)) := by
  cases gs <;> cases gs' <;> simp_all [keepGenerics]

/-- A literal type holds no other types. -/
theorem literal_akin (h : host.Akin y settings Seen host') {t : TypeId} (ht : Seen t) (kind : Kind) :
    Akin y (·.unmark y.hidden) (literal host t kind) (literal host' t kind) := by
  simp only [literal, h.type t ht]
  split
  · exact .pure rfl
  · exact .pure rfl
  · exact .orUnexpected fun _ _ => .pure rfl
  all_goals exact .fail _

theorem resolveOption_akin {t? : Option TypeId} (h : ∀ t ∈ t?, Akin y (·.unmark y.hidden) (resolve t) (resolve' t)) :
    Akin y (·.map (·.unmark y.hidden)) (resolveOption resolve t?) (resolveOption resolve' t?) := by
  cases t? with
  | none => exact .pure rfl
  | some t => exact .map (h t rfl) fun _ _ he => congrArg some he

variable (hres : ∀ t, Akin y (·.unmark y.hidden) (resolve t) (resolve' t))
include hres

theorem mapM_akin (ts : List TypeId) :
    Akin y (·.map (·.unmark y.hidden)) (ts.mapM resolve) (ts.mapM resolve') := .mapM fun t _ => hres t

theorem refer_akin (record : BundleId) (args : List TypeId) :
    Akin y (·.unmark y.hidden) (refer resolve record args) (refer resolve' record args) := by
  unfold refer
  split
  · exact .pure rfl
  · exact .bind (mapM_akin hres args) fun _ _ hargs => .pure (by simp [hargs])

variable (h : host.Akin y settings Seen host')
include h

theorem generics_akin {ps : List TypeId} (hps : ∀ t ∈ ps, host.InParameterList t) :
    Akin y (·.map (·.map (·.unmark y.hidden))) (generics host resolve ps) (generics host' resolve' ps) := by
  have hids : Akin y (List.map id) (ps.mapM Ledger.issue) (ps.mapM Ledger.issue) :=
    .mapM fun t _ => .bind_same (.reserve (.type t)) fun _ => .pure rfl
  refine .bind hids fun ids ids' hsame => ?_
  obtain rfl : ids' = ids := by simpa using hsame
  refine .mapM ?_
  rintro ⟨id, t⟩ hmem
  simp only [h.type t (h.seen_parameter t (hps t (List.of_mem_zip hmem).2))]
  exact .bind (resolveOption_akin fun c _ => hres c) fun _ _ hc => .pure (by simp [Generic.map, hc])

theorem parameter_akin {g : SignatureId} {s : SymbolId} (hs : s ∈ (host.signature g).parameters) :
    Akin y (·.map (·.unmark y.hidden)) (parameter host resolve s) (parameter host' resolve' s) := by
  simp only [parameter, h.name, h.flags, h.parameter g s hs]
  exact .orUnexpected fun t _ => .bind (hres t) fun _ _ he => .pure (by simp [Parameter.map, he])

theorem signature_akin (g : SignatureId) :
    Akin y (·.map (·.unmark y.hidden)) (signature host resolve g) (signature host' resolve' g) := by
  simp only [signature, h.signature]
  refine .bind (generics_akin hres h fun t ht => .inr (.inr ⟨g, ht⟩)) fun _ _ hgenerics => ?_
  refine .bind (.mapM fun s hs => parameter_akin hres h hs) fun _ _ hparameters => ?_
  exact .bind (hres _) fun _ _ hreturn => .pure (by simp [Signature.map, hgenerics, hparameters, hreturn])

omit h in
theorem member_akin {owner? : Option String} {s : SymbolId} (hname : (host'.symbol s).name = (host.symbol s).name)
    (hflags : (host'.symbol s).flags = (host.symbol s).flags)
    (hs : (host.symbol s).Akin y settings owner? (host'.symbol s)) :
    Akin y (·.unmark y.hidden) (member host settings resolve owner? s) (member host' settings resolve' owner? s) := by
  simp only [member, isReadonly_eq, hname, hflags]
  cases hundeclared : (host.symbol s).isUndeclared with
  | true =>
    cases hundeclared' : (host'.symbol s).isUndeclared with
    | true => exact fun _ _ _ => .error
    | false => exact fun _ _ _ => .first (hs.first hundeclared hundeclared')
  | false =>
    cases hundeclared' : (host'.symbol s).isUndeclared with
    | true => exact fun _ _ _ => .second (hs.second hundeclared hundeclared')
    | false =>
      -- The mark of the member is shown where its name is not hidden.
      have hmark : ((host'.symbol s).isReadonly && !y.hidden (host.symbol s).name) =
          ((host.symbol s).isReadonly && !y.hidden (host.symbol s).name) := by
        cases hhidden : y.hidden (host.symbol s).name with
        | true => simp
        | false => simp [hs.readonly hhidden]
      simp only [Bool.false_eq_true, if_false, pure_bind]
      cases hexcluded : settings.excludes owner? (host.symbol s).name with
      | true => exact .pure (by simp [Member.unmark, hmark])
      | false =>
        simp only [Bool.false_eq_true, if_false, hs.type? hexcluded]
        exact .orUnexpected fun t _ => .bind (hres t) fun _ _ he => .pure (by simp [Member.unmark, he, hmark])

theorem shape_akin {t : TypeId} (ht : Seen t) {owner? : Option SymbolId} (howner : host.IsOwner t owner?) :
    Akin y (·.unmark y.hidden) (shape host settings resolve t owner?) (shape host' settings resolve' t owner?) := by
  have hname : owner?.map (fun s => (host'.symbol s).qualifiedName) = owner?.map fun s => (host.symbol s).qualifiedName :=
    h.ownerName owner?
  simp only [shape, expand_bind, h.type t ht, hname]
  refine .bind (mapM_akin hres _) fun _ _ hbases => ?_
  refine .bind (.mapM fun s hs => member_akin hres (h.name s) (h.flags s) (h.member t owner? ht howner s hs))
    fun ms ms' hmembers => ?_
  refine .bind (.mapM fun g _ => signature_akin hres h g) fun _ _ hcalls => ?_
  refine .bind (.mapM fun g _ => signature_akin hres h g) fun _ _ hconstructs => .pure ?_
  have hplaced := fun ns : List (Member TypeExpr) =>
    Member.insertAll_map (f := (·.unmark y.hidden)) (fun m => rfl) ns []
  simp only [Shape.unmark, Shape.map, hbases, hcalls, hconstructs, hplaced, hmembers]

theorem declaration_akin {t : TypeId} (ht : Seen t) :
    Akin y id (declaration host settings resolve t) (declaration host' settings resolve' t) := by
  simp only [declaration]
  refine .expanding fun id => ?_
  simp only [declarationRecord, h.type t ht]
  refine .bind (generics_akin hres h fun c hc => .inl ⟨t, hc⟩) fun gs gs' hgenerics => ?_
  refine .bind (shape_akin hres h ht (.inl rfl)) fun body body' hbody => .pure ?_
  -- What the record says besides comes from the symbol, which keeps its names and files.
  have hsymbol : ∀ {β : Type} {part : HostSymbol → β},
      (∀ s, (host.type t).symbol? = some s → part (host'.symbol s) = part (host.symbol s)) →
      ((host.type t).symbol?.map host'.symbol).map part = ((host.type t).symbol?.map host.symbol).map part := by
    intro β part hpart
    cases hs : (host.type t).symbol? with
    | none => rfl
    | some s => exact congrArg some (hpart s hs)
  simp only [Prod.map, Record.unmark, Record.map, Record.anonymous, hsymbol fun s _ => h.name s,
    hsymbol fun s _ => h.qualifiedName s, hsymbol (h.symbol_files t · ht), keepGenerics_map hgenerics,
    TypeExpr.unmark_shape, hbody, Option.map_none]

theorem objectLiteral_akin {t : TypeId} (ht : Seen t) :
    Akin y (·.unmark y.hidden) (objectLiteral host settings resolve t) (objectLiteral host' settings resolve' t) := by
  simp only [objectLiteral]
  refine .expanding fun id => ?_
  simp only [literalRecord, h.type t ht]
  exact .bind (shape_akin hres h ht (.inl rfl)) fun _ _ hbody =>
    .pure (by simp [Record.unmark, Record.map, Record.anonymous, hbody])

theorem structural_akin {t : TypeId} (ht : Seen t) :
    Akin y (·.unmark y.hidden) (structural host settings resolve t) (structural host' settings resolve' t) := by
  simp only [structural, h.type t ht]
  cases hk : (host.type t).kind with
  | error fault => exact .fail _
  | ok kind =>
    cases kind with
    | any | boolean | number | string | undefined | null | never | void | symbol | nonPrimitive => exact .pure rfl
    | booleanLiteral | numberLiteral | stringLiteral => exact literal_akin h ht _
    | typeParameter => exact .bind_same (.bind_same (.reserve _) fun _ => .pure rfl) fun _ => .pure rfl
    | union | intersection => exact .bind (mapM_akin hres _) fun _ _ hparts => .pure (by simp [hparts])
    | index => exact .orUnexpected fun c _ => .bind (hres c) fun _ _ he => .pure (by simp [he])
    | indexedAccess =>
      refine .orUnexpected fun parts _ => .bind (hres parts.1) fun _ _ hobject => .bind (hres parts.2) fun _ _ hindex => ?_
      exact .bind (resolveOption_akin fun c _ => hres c) fun _ _ hc => .pure (by simp [hobject, hindex, hc])
    | conditional => exact .fail _
    | enum =>
      have hname : nameOf host' t = nameOf host t := by
        simp only [nameOf, h.type t ht, h.qualifiedName]
      rw [hname]
      exact .fail _
    | reference =>
      simp only [instantiation, h.type t ht]
      refine .orUnexpected fun u hu => ?_
      have hu : Seen u := h.seen_target t u ht hu
      simp only [h.type u hu]
      split
      · exact .bind (mapM_akin hres _) fun _ _ hargs => .pure (by simp [hargs])
      · exact .bind_same (declaration_akin hres h hu) fun _ => refer_akin hres _ _
    | nominal => exact .bind_same (declaration_akin hres h ht) fun _ => .pure rfl
    | anonymous => exact objectLiteral_akin hres h ht

theorem aliasBody_akin (record : BundleId) {s : SymbolId} {d : TypeId} (hd : (host.symbol s).declaredType? = some d) :
    Akin y (·.unmark y.hidden) (aliasBody host settings resolve record s d)
      (aliasBody host' settings resolve' record s d) := by
  by_cases hother : host.NamesOther s d
  · rw [aliasBody_of_other hother, aliasBody_of_other ((h.namesOther_iff s d).2 hother)]
    exact hres d
  · have hother' : ¬host'.NamesOther s d := mt (h.namesOther_iff s d).1 hother
    have hseen : Seen d := h.seen_declared s d hd hother
    have htype := h.type d hseen
    intro p p' hp
    by_cases hl : isObjectLiteral (host.type d) = true ∧ p.registry.get? (.type d) = none
    · have hshape : Akin y (·.unmark y.hidden) (TypeExpr.shape <$> shape host settings resolve d (some s))
          (TypeExpr.shape <$> shape host' settings resolve' d (some s)) :=
        .map (shape_akin hres h hseen (.inr ⟨s, rfl, hd, hother, hl.1⟩)) fun _ _ he => by simp [he]
      rw [aliasBody_of_literal hother hl.1 hl.2,
        aliasBody_of_literal hother' (htype ▸ hl.1) (hp.registry ▸ hl.2)]
      exact hshape _ _ (hp.share (.type d) record)
    · rw [aliasBody_of_body hother fun h hn => hl ⟨h, hn⟩,
        aliasBody_of_body hother' fun h hn => hl ⟨htype ▸ h, hp.registry ▸ hn⟩]
      exact structural_akin hres h hseen p p' hp

theorem aliasRecord_akin (record : BundleId) {t : TypeId} {s : SymbolId} (hs : (host.type t).alias? = some s) :
    Akin y (·.unmark y.hidden) (aliasRecord host settings resolve record s)
      (aliasRecord host' settings resolve' record s) := by
  simp only [aliasRecord, expand_bind, h.name, h.qualifiedName, h.aliasParameters, h.declaredType?, h.alias_files t s hs]
  refine .bind (generics_akin hres h fun c hc => .inr (.inl ⟨s, hc⟩)) fun gs gs' hgenerics => ?_
  refine .orUnexpected fun d hd => .bind (aliasBody_akin hres h record hd) fun _ _ hbody => .pure ?_
  simp only [Record.unmark, Record.map, Record.anonymous, keepGenerics_map hgenerics, hbody, Option.map_none]

theorem step_akin (t : TypeId) :
    Akin y (·.unmark y.hidden) (step host settings resolve t) (step host' settings resolve' t) := by
  simp only [step, h.alias?]
  cases ha : (host.type t).alias? with
  | none => exact structural_akin hres h (h.seen_bare t ha)
  | some s =>
    simp only [aliasOccurrence, h.aliasArguments]
    refine .bind_same (.expanding fun record => ?_) fun record => refer_akin hres record _
    exact .map (aliasRecord_akin hres h record ha) fun _ _ he => by simp [Prod.map, he]

end Rules

/-! ## Whole passes -/

section Pass

variable {y : Leeway} {settings : Settings} {Seen : TypeId → Prop} {host host' : Host}

theorem resolve_akin (h : host.Akin y settings Seen host') (depth : Nat) :
    ∀ t, Akin y (·.unmark y.hidden) (resolve host settings depth t) (resolve host' settings depth t) := by
  induction depth with
  | zero => exact fun _ _ _ _ => .error
  | succ depth ih => exact fun t => step_akin ih h t

theorem root_akin (h : host.Akin y settings Seen host') (depth : Nat) (missing : String → Unexpected) {s : SymbolId}
    (hs : (host'.symbol s).type? = (host.symbol s).type?) :
    Akin y (·.unmark y.hidden) (root host settings depth missing s) (root host' settings depth missing s) := by
  simp only [root, h.name, hs]
  exact .orUnexpected fun t _ => resolve_akin h depth t

theorem freeze_akin : Akin y (·.map (·.unmark y.hidden)) freeze freeze := by
  intro p p' hp
  have hfreeze := hp.freeze
  rw [freeze_apply, freeze_apply]
  cases hf : p.table.freeze with
  | ok records =>
    cases hf' : p'.table.freeze with
    | ok records' => exact .ok (by simpa [hf, hf', Except.map] using hfreeze) hp
    | error id => simp [hf, hf', Except.map] at hfreeze
  | error id =>
    cases hf' : p'.table.freeze with
    | ok records' => simp [hf, hf', Except.map] at hfreeze
    | error id' =>
      obtain rfl : id' = id := by simpa [hf, hf', Except.map] using hfreeze
      exact .error

/-- Passes over hosts that are alike, where the roots have the same types, go on alike. -/
theorem bundle_akin (h : host.Akin y settings Seen host') (depth : Nat) {global : SymbolId} {modules : List SymbolId}
    (hglobal : (host'.symbol global).type? = (host.symbol global).type?)
    (hmodules : ∀ s ∈ modules, (host'.symbol s).type? = (host.symbol s).type?) :
    Akin y (·.unmark y.hidden) (bundle host settings depth global modules)
      (bundle host' settings depth global modules) := by
  have hmodule : ∀ s ∈ modules, Akin y (·.map (·.unmark y.hidden)) (ambientModule host settings depth s)
      (ambientModule host' settings depth s) := by
    intro s hs
    simp only [ambientModule, h.name]
    exact .bind (root_akin h depth _ (hmodules s hs)) fun _ _ he => .pure (by simp [AmbientModule.map, he])
  refine .bind (root_akin h depth _ hglobal) fun _ _ hroot => .bind (.mapM hmodule) fun _ _ hmembers => ?_
  exact .bind freeze_akin fun _ _ hrecords => .pure (by simp_all [Bundle.unmark, Bundle.map, Record.unmark])

end Pass

/-! ## Answers -/

section Answers

variable {α β : Type} {y : Leeway} {view : α → β} {w w' : Walk α}

/-- How the answers of akin walks compare. -/
theorem Akin.answer (h : Akin y view w w') :
    (∃ a a', answer w = .ok a ∧ answer w' = .ok a' ∧ view a' = view a) ∨
      (∃ e, answer w = .error e ∧ answer w' = .error e) ∨ (∃ e, answer w = .error e ∧ y.first e) ∨
        ∃ e, answer w' = .error e ∧ y.second e := by
  have hrun := h .start .start (.refl y.hidden .start)
  simp only [Walk.answer, runFrom, EStateM.run]
  generalize w .start = r at hrun
  generalize w' .start = r' at hrun
  cases hrun with
  | ok hview _ => exact .inl ⟨_, _, rfl, rfl, hview⟩
  | error => exact .inr (.inl ⟨_, rfl, rfl⟩)
  | first he => exact .inr (.inr (.inl ⟨_, rfl, he⟩))
  | second he => exact .inr (.inr (.inr ⟨_, rfl, he⟩))

/-- Passes that must not differ have the same answer. -/
theorem Akin.answer_eq {w w' : Walk Bundle} (h : Akin .none (·.unmark noName) w w') : Walk.answer w' = Walk.answer w := by
  obtain ⟨b, b', hw, hw', hsame⟩ | ⟨e, hw, hw'⟩ | ⟨e, -, he⟩ | ⟨e, -, he⟩ := h.answer
  · rw [Bundle.unmark_noName, Bundle.unmark_noName] at hsame
    rw [hw, hw', hsame]
  · rw [hw, hw']
  · exact he.elim
  · exact he.elim

end Answers

end Walk

end TypeBundle
