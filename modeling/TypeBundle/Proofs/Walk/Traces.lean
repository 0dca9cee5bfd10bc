import TypeBundle.Proofs.Walk.History
/-!
# Journaled walks keep orderly journals

`Traces w' w`: the journaled walk `w'` does what the walk `w` does, the events that it notes are orderly, and it
leaves certain tasks. A walk of types finishes every record that it begins, so it leaves the tasks that it finds;
where it stops, the records that it was in the middle of are left on top of these.

First the rules for sequences, lists and records, then one lemma for each rule of a walk.
-/

namespace TypeBundle

/-- The walk stops before it freezes the table. -/
def Stop.IsEarly (e : Stop) : Prop := ∀ id, e ≠ .failed (.incompleteRecord id)

/-- The journaled walk does after the events of `past` what the walk does. The tasks that it leaves satisfy `post`, and
are at least the tasks `base` if it stops. -/
def TracesFrom {α : Type} (host : Host) (base : List Task) (past : List Event) (w' : Journaled α) (w : Walk α)
    (post : α → List Task → Prop) : Prop :=
  match w' past with
  | .ok a es => w (replay past) = .ok a (replay es) ∧ past <:+ es ∧ ∃ left, Orderly host es left ∧ post a left
  | .error e es => w (replay past) = .error e (replay es) ∧ past <:+ es ∧
      (∃ left, Orderly host es left ∧ base <:+ left) ∧ e.IsEarly

/-- The journaled walk does what the walk does, wherever it finds the tasks `found`. -/
def Traces {α : Type} (host : Host) (base found : List Task) (w' : Journaled α) (w : Walk α)
    (post : α → List Task → Prop) : Prop :=
  ∀ past, Orderly host past found → TracesFrom host base past w' w post

/-- The journaled walk does what the walk does, and leaves the tasks that it finds. -/
def Follows {α : Type} (host : Host) (w' : Journaled α) (w : Walk α) : Prop :=
  ∀ tasks, Traces host tasks tasks w' w fun _ left => left = tasks

variable {α β : Type} {host : Host}

/-! ## Sequences and lists -/

/-- Both walks begin with an event, and go on as others do. -/
theorem TracesFrom.shift {base : List Task} {past past' : List Event} {w' v' : Journaled α} {w v : Walk α}
    {post : α → List Task → Prop} (h : TracesFrom host base past' v' v post) (hpast : past <:+ past')
    (hw' : w' past = v' past') (hw : w (replay past) = v (replay past')) : TracesFrom host base past w' w post := by
  unfold TracesFrom at h ⊢
  rw [hw', hw]
  cases hr : v' past' with
  | ok a es =>
    rw [hr] at h
    exact ⟨h.1, hpast.trans h.2.1, h.2.2⟩
  | error e es =>
    rw [hr] at h
    exact ⟨h.1, hpast.trans h.2.1, h.2.2⟩

namespace Traces

variable {base found : List Task}

theorem mono {w' : Journaled α} {w : Walk α} {base' : List Task} {P Q : α → List Task → Prop}
    (h : Traces host base found w' w P) (hbase : base' <:+ base) (hPQ : ∀ a left, P a left → Q a left) :
    Traces host base' found w' w Q := by
  intro past hpast
  have htrace := h past hpast
  unfold TracesFrom at htrace ⊢
  cases hr : w' past with
  | ok a es =>
    rw [hr] at htrace
    obtain ⟨hw, hsuffix, left, hleft, hpost⟩ := htrace
    exact ⟨hw, hsuffix, left, hleft, hPQ a left hpost⟩
  | error e es =>
    rw [hr] at htrace
    obtain ⟨hw, hsuffix, ⟨left, hleft, hkept⟩, he⟩ := htrace
    exact ⟨hw, hsuffix, ⟨left, hleft, hbase.trans hkept⟩, he⟩

theorem pure {a : α} {post : α → List Task → Prop} (h : post a found) :
    Traces host base found (Pure.pure a) (Pure.pure a) post :=
  fun past hpast => ⟨rfl, List.suffix_refl past, found, hpast, h⟩

theorem bind {w' : Journaled α} {w : Walk α} {f' : α → Journaled β} {f : α → Walk β} {P : α → List Task → Prop}
    {Q : β → List Task → Prop} (hw : Traces host base found w' w P)
    (hf : ∀ a left, P a left → Traces host base left (f' a) (f a) Q) :
    Traces host base found (w' >>= f') (w >>= f) Q := by
  intro past hpast
  have htrace := hw past hpast
  unfold TracesFrom at htrace
  cases hr : w' past with
  | error e es =>
    rw [hr] at htrace
    obtain ⟨hw, hrest⟩ := htrace
    rw [TracesFrom, Walk.seq_apply, Walk.seq_apply, hr, hw]
    exact ⟨rfl, hrest⟩
  | ok a es =>
    rw [hr] at htrace
    obtain ⟨hw, hsuffix, left, hleft, hpost⟩ := htrace
    refine (hf a left hpost es hleft).shift hsuffix ?_ ?_
    · rw [Walk.seq_apply, hr]
    · rw [Walk.seq_apply, hw]

theorem map {w' : Journaled α} {w : Walk α} {f : α → β} {P : α → List Task → Prop} {Q : β → List Task → Prop}
    (hw : Traces host base found w' w P) (hPQ : ∀ a left, P a left → Q (f a) left) :
    Traces host base found (f <$> w') (f <$> w) Q := by
  simp only [map_eq_pure_bind]
  exact bind hw fun a left hleft => pure (hPQ a left hleft)

end Traces

namespace Follows

variable {tasks : List Task}

theorem from_ {w' : Journaled α} {w : Walk α} {base : List Task} (h : Follows host w' w) (hbase : base <:+ tasks) :
    Traces host base tasks w' w fun _ left => left = tasks := (h tasks).mono hbase fun _ _ hleft => hleft

/-- What goes on after a walk of types goes on from the same tasks. -/
theorem bind_from {w' : Journaled α} {w : Walk α} {f' : α → Journaled β} {f : α → Walk β} {base : List Task}
    {post : β → List Task → Prop} (h : Follows host w' w) (hbase : base <:+ tasks)
    (hf : ∀ a, Traces host base tasks (f' a) (f a) post) : Traces host base tasks (w' >>= f') (w >>= f) post := by
  refine .bind (h.from_ hbase) fun a left hleft => ?_
  rw [hleft]
  exact hf a

theorem pure (a : α) : Follows host (Pure.pure a) (Pure.pure a) := fun _ => .pure rfl

theorem bind {w' : Journaled α} {w : Walk α} {f' : α → Journaled β} {f : α → Walk β} (hw : Follows host w' w)
    (hf : ∀ a, Follows host (f' a) (f a)) : Follows host (w' >>= f') (w >>= f) :=
  fun tasks => hw.bind_from (List.suffix_refl tasks) fun a => hf a tasks

theorem map {w' : Journaled α} {w : Walk α} {f : α → β} (hw : Follows host w' w) : Follows host (f <$> w') (f <$> w) := by
  simp only [map_eq_pure_bind]
  exact bind hw fun _ => pure _

theorem mapM {f' : α → Journaled β} {f : α → Walk β} {as : List α} (h : ∀ a, Follows host (f' a) (f a)) :
    Follows host (as.mapM f') (as.mapM f) := by
  induction as with
  | nil => exact pure _
  | cons a as ih =>
    simp only [List.mapM_cons]
    exact bind (h a) fun _ => bind ih fun _ => pure _

theorem fail {failure : Failure} (h : ∀ id, failure ≠ .incompleteRecord id) :
    Follows host (Walk.fail failure : Journaled α) (Walk.fail failure) := fun tasks past hpast =>
  ⟨rfl, List.suffix_refl past, ⟨tasks, hpast, List.suffix_refl tasks⟩, fun id he => h id (Stop.failed.inj he)⟩

theorem unexpected (what : Unexpected) : Follows host (Walk.unexpected what : Journaled α) (Walk.unexpected what) :=
  fail fun _ h => by cases h

theorem orUnexpected (what : Unexpected) (a? : Option α) :
    Follows host (Walk.orUnexpected what a?) (Walk.orUnexpected what a?) := by
  cases a? with
  | none => exact unexpected what
  | some a => exact pure a

theorem ite {c : Prop} [Decidable c] {w₁ w₂ : Journaled α} {v₁ v₂ : Walk α} (h₁ : Follows host w₁ v₁)
    (h₂ : Follows host w₂ v₂) : Follows host (if c then w₁ else w₂) (if c then v₁ else v₂) := by
  split
  · exact h₁
  · exact h₂

end Follows

/-- What goes on after a value that may be missing goes on with it. -/
theorem Traces.orUnexpected_bind {base found : List Task} {what : Unexpected} {a? : Option α} {f' : α → Journaled β}
    {f : α → Walk β} {post : β → List Task → Prop} (hbase : base <:+ found)
    (h : ∀ a, a? = some a → Traces host base found (f' a) (f a) post) :
    Traces host base found (Walk.orUnexpected what a? >>= f') (Walk.orUnexpected what a? >>= f) post := by
  cases a? with
  | none => exact fun past hpast => ⟨rfl, List.suffix_refl past, ⟨found, hpast, hbase⟩, fun _ h => by cases h⟩
  | some a => exact h a rfl

/-! ## Records -/

theorem issue_follows (t : TypeId) : Follows host (Ledger.issue t) (Ledger.issue t) := by
  intro tasks past hpast
  unfold TracesFrom
  cases hk : (replay past).registry.get? (.type t) with
  | some id =>
    rw [Journaled.issue_of_some hk, Walk.issue_of_some hk]
    exact ⟨rfl, List.suffix_refl past, tasks, hpast, rfl⟩
  | none =>
    rw [Journaled.issue_of_none hk, Walk.issue_of_none hk]
    exact ⟨rfl, List.suffix_cons _ past, tasks, .issued hpast hk, rfl⟩

/-- The identity that is next is expanded, before its shape or record is walked. -/
theorem Traces.expanded_bind {base tasks : List Task} {x : Task} {key : Identity} {w' : Journaled α} {w : Walk α}
    {post : α → List Task → Prop} (hx : x.due? = some key) (h : Traces host base (x.advance :: tasks) w' w post) :
    Traces host base (x :: tasks) (Ledger.expand key >>= fun _ => w') (Ledger.expand key >>= fun _ => w) post :=
  fun _ hpast => (h _ (.expanded hpast hx)).shift (List.suffix_cons _ _) rfl rfl

/-- The record that is next is finished. -/
theorem Traces.close_bind {base tasks : List Task} {x : Task} {record : Record} {w' : Journaled α} {w : Walk α}
    {post : α → List Task → Prop} (hid : record.id = x.id) (h : Traces host base tasks w' w post) :
    Traces host base (x :: tasks) (Ledger.close record >>= fun _ => w') (Ledger.close record >>= fun _ => w) post :=
  fun _ hpast => (h _ (.ended hpast hid)).shift (List.suffix_cons _ _) rfl rfl

/-- The rule for records: the record is put on top of the tasks, is walked, and is taken off. -/
theorem expanding_follows {key : Identity} {again : BundleId → α} {first' : BundleId → Journaled (Record × α)}
    {first : BundleId → Walk (Record × α)}
    (h : ∀ id tasks, Traces host tasks (⟨key, id, .begun⟩ :: tasks) (first' id) (first id) fun r left =>
      r.1.id = id ∧ ∃ stage, left = ⟨key, id, stage⟩ :: tasks) :
    Follows host (Walk.expanding key again first') (Walk.expanding key again first) := by
  intro tasks past hpast
  cases hk : (replay past).registry.get? key with
  | some id =>
    have hagain : Follows host (Pure.pure (again id)) (Pure.pure (again id)) := .pure _
    refine (hagain tasks past hpast).shift (List.suffix_refl past) ?_ (Walk.expanding_of_some hk)
    rw [Walk.expanding, Walk.seq_apply, Journaled.open_of_some hk]
    rfl
  | none =>
    -- whatever stage the walk leaves the record in, its last event takes it off the tasks
    have hrecord (id : BundleId) : Traces host tasks (⟨key, id, .begun⟩ :: tasks)
        (first' id >>= fun r => Ledger.close r.1 >>= fun _ => Pure.pure r.2)
        (first id >>= fun r => Ledger.close r.1 >>= fun _ => Pure.pure r.2) fun _ left => left = tasks := by
      refine .bind (h id tasks) ?_
      rintro r _ ⟨hid, stage, rfl⟩
      exact .close_bind hid (.pure rfl)
    refine (hrecord _ _ (.began hpast hk)).shift (List.suffix_cons _ past) ?_ ?_
    · rw [Walk.expanding, Walk.seq_apply, Journaled.open_of_none hk]
      rfl
    · rw [Walk.expanding, Walk.seq_apply, Walk.open_of_none hk]
      rfl

/-! ## The rules for one type -/

theorem isReadonly_follows (s : HostSymbol) : Follows host (Walk.isReadonly s) (Walk.isReadonly s) := by
  simp only [Walk.isReadonly_eq]
  exact .ite (.fail fun _ h => by cases h) (.pure _)

theorem literal_follows (t : TypeId) (kind : Kind) : Follows host (Walk.literal host t kind) (Walk.literal host t kind) := by
  simp only [Walk.literal]
  split
  · exact .pure _
  · exact .pure _
  · exact .bind (.orUnexpected _ _) fun _ => .pure _
  · exact .unexpected _
  · exact .unexpected _
  · exact .unexpected _

section Rules

variable {settings : Settings} {resolve' : TypeId → Journaled TypeExpr} {resolve : TypeId → Walk TypeExpr}
variable (h : ∀ t, Follows host (resolve' t) (resolve t))
include h

theorem resolveOption_follows (t? : Option TypeId) :
    Follows host (Walk.resolveOption resolve' t?) (Walk.resolveOption resolve t?) := by
  cases t? with
  | none => exact .pure _
  | some t => exact (h t).map

theorem refer_follows (record : BundleId) (args : List TypeId) :
    Follows host (Walk.refer resolve' record args) (Walk.refer resolve record args) :=
  .ite (.pure _) (.bind (.mapM h) fun _ => .pure _)

theorem generics_follows (ps : List TypeId) :
    Follows host (Walk.generics host resolve' ps) (Walk.generics host resolve ps) :=
  .bind (.mapM issue_follows) fun _ => .mapM fun _ => .bind (resolveOption_follows h _) fun _ => .pure _

theorem parameter_follows (s : SymbolId) :
    Follows host (Walk.parameter host resolve' s) (Walk.parameter host resolve s) :=
  .bind (.orUnexpected _ _) fun _ => .bind (h _) fun _ => .pure _

theorem signature_follows (s : SignatureId) :
    Follows host (Walk.signature host resolve' s) (Walk.signature host resolve s) :=
  .bind (generics_follows h _) fun _ => .bind (.mapM (parameter_follows h)) fun _ => .bind (h _) fun _ => .pure _

theorem member_follows (owner? : Option String) (s : SymbolId) :
    Follows host (Walk.member host settings resolve' owner? s) (Walk.member host settings resolve owner? s) := by
  refine .bind (isReadonly_follows _) fun _ => .ite (.bind (.pure _) fun _ => .pure _) ?_
  exact .bind (.orUnexpected _ _) fun _ => .bind (h _) fun _ => .pure _

/-- A shape is walked where it is next. -/
theorem shape_traces {tasks : List Task} {x : Task} {t : TypeId} (hx : x.due? = some (.type t))
    (owner? : Option SymbolId) :
    Traces host tasks (x :: tasks) (Walk.shape host settings resolve' t owner?)
      (Walk.shape host settings resolve t owner?) fun _ left => left = x.advance :: tasks := by
  refine .expanded_bind hx (Follows.from_ ?_ (List.suffix_cons _ _))
  exact .bind (.mapM h) fun _ => .bind (.mapM (member_follows h _)) fun _ => .bind (.mapM (signature_follows h)) fun _ =>
    .bind (.mapM (signature_follows h)) fun _ => .pure _

theorem declaration_follows (t : TypeId) :
    Follows host (Walk.declaration host settings resolve' t) (Walk.declaration host settings resolve t) := by
  rw [Walk.declaration, Walk.declaration]
  apply expanding_follows
  intro id tasks
  refine (generics_follows h _).bind_from (List.suffix_cons _ _) fun _ => ?_
  refine .bind (shape_traces h rfl _) ?_
  rintro _ left rfl
  exact .pure ⟨rfl, _, rfl⟩

theorem objectLiteral_follows (t : TypeId) :
    Follows host (Walk.objectLiteral host settings resolve' t) (Walk.objectLiteral host settings resolve t) := by
  rw [Walk.objectLiteral, Walk.objectLiteral]
  apply expanding_follows
  intro id tasks
  refine .bind (shape_traces h rfl _) ?_
  rintro _ left rfl
  exact .pure ⟨rfl, _, rfl⟩

theorem instantiation_follows (t : TypeId) :
    Follows host (Walk.instantiation host settings resolve' t) (Walk.instantiation host settings resolve t) :=
  .bind (.orUnexpected _ _) fun _ => .ite (.bind (.mapM h) fun _ => .pure _)
    (.bind (declaration_follows h _) fun _ => refer_follows h _ _)

theorem structural_follows (t : TypeId) :
    Follows host (Walk.structural host settings resolve' t) (Walk.structural host settings resolve t) := by
  cases hk : (host.type t).kind with
  | error fault =>
    simp only [Walk.structural, hk]
    exact .unexpected _
  | ok kind =>
    cases kind with
    | any | boolean | number | string | undefined | null | never | void | symbol | nonPrimitive =>
      simp only [Walk.structural, hk]
      exact .pure _
    | booleanLiteral | stringLiteral | numberLiteral =>
      simp only [Walk.structural, hk]
      exact literal_follows t _
    | conditional | enum =>
      simp only [Walk.structural, hk]
      exact .fail fun _ h => by cases h
    | typeParameter =>
      simp only [Walk.structural, hk]
      exact .bind (issue_follows t) fun _ => .pure _
    | union | intersection =>
      simp only [Walk.structural, hk]
      exact .bind (.mapM h) fun _ => .pure _
    | index =>
      simp only [Walk.structural, hk]
      exact .bind (.orUnexpected _ _) fun _ => .bind (h _) fun _ => .pure _
    | indexedAccess =>
      simp only [Walk.structural, hk]
      exact .bind (.orUnexpected _ _) fun _ => .bind (h _) fun _ => .bind (h _) fun _ =>
        .bind (resolveOption_follows h _) fun _ => .pure _
    | reference =>
      simp only [Walk.structural, hk]
      exact instantiation_follows h t
    | nominal =>
      simp only [Walk.structural, hk]
      exact .bind (declaration_follows h t) fun _ => .pure _
    | anonymous =>
      simp only [Walk.structural, hk]
      exact objectLiteral_follows h t

/-! ## Aliases -/

section Alias

variable {tasks : List Task} {id : BundleId} {s : SymbolId} {d : TypeId}

/-- The id of an alias goes to its literal if that has none, and the shape of the literal is next. -/
theorem aliasBody_traces (hd : (host.symbol s).declaredType? = some d) :
    Traces host tasks (⟨.alias_ s, id, .expanded⟩ :: tasks) (Walk.aliasBody host settings resolve' id s d)
      (Walk.aliasBody host settings resolve id s d) fun _ left => ∃ stage, left = ⟨.alias_ s, id, stage⟩ :: tasks := by
  -- the other walks leave the task as it is
  have hfollows : ∀ {w' : Journaled TypeExpr} {w : Walk TypeExpr}, Follows host w' w →
      Traces host tasks (⟨.alias_ s, id, .expanded⟩ :: tasks) w' w fun _ left =>
        ∃ stage, left = ⟨.alias_ s, id, stage⟩ :: tasks :=
    fun hw => (hw.from_ (List.suffix_cons _ _)).mono (List.suffix_refl _) fun _ _ hleft => ⟨_, hleft⟩
  have hshape : Traces host tasks (⟨.alias_ s, id, .sharing d⟩ :: tasks)
      (TypeExpr.shape <$> Walk.shape host settings resolve' d (some s))
      (TypeExpr.shape <$> Walk.shape host settings resolve d (some s)) fun _ left =>
        ∃ stage, left = ⟨.alias_ s, id, stage⟩ :: tasks :=
    (shape_traces h rfl (some s)).map fun _ _ hleft => ⟨_, hleft⟩
  intro past hpast
  by_cases hn : host.NamesOther s d
  · rw [Walk.aliasBody_of_other hn, Walk.aliasBody_of_other hn]
    exact hfollows (h d) past hpast
  · by_cases hl : Walk.isObjectLiteral (host.type d) = true ∧ (replay past).registry.get? (.type d) = none
    · refine (hshape _ (.bound hpast ⟨hd, hn, hl.1⟩ hl.2)).shift (List.suffix_cons _ _) ?_ ?_
      · rw [Walk.aliasBody_apply hn rfl, if_pos (by simp [hl])]
        rfl
      · exact Walk.aliasBody_of_literal hn hl.1 hl.2
    · have hbody : Follows host (Walk.structural host settings resolve' d)
          (Walk.structural host settings resolve d) := structural_follows h d
      refine (hfollows hbody past hpast).shift (List.suffix_refl _) ?_ ?_
      · rw [Walk.aliasBody_apply hn rfl, if_neg]
        simpa using hl
      · exact Walk.aliasBody_of_body hn fun hliteral hnone => hl ⟨hliteral, hnone⟩

theorem aliasRecord_traces :
    Traces host tasks (⟨.alias_ s, id, .begun⟩ :: tasks) (Walk.aliasRecord host settings resolve' id s)
      (Walk.aliasRecord host settings resolve id s) fun r left =>
        r.id = id ∧ ∃ stage, left = ⟨.alias_ s, id, stage⟩ :: tasks := by
  refine .expanded_bind rfl ((generics_follows h _).bind_from (List.suffix_cons _ _) fun _ => ?_)
  refine .orUnexpected_bind (List.suffix_cons _ _) fun d hd => ?_
  exact .bind (aliasBody_traces h hd) fun _ _ hleft => .pure ⟨rfl, hleft⟩

end Alias

theorem step_follows (t : TypeId) :
    Follows host (Walk.step host settings resolve' t) (Walk.step host settings resolve t) := by
  cases ha : (host.type t).alias? with
  | none =>
    simp only [Walk.step, ha]
    exact structural_follows h t
  | some s =>
    simp only [Walk.step, Walk.aliasOccurrence, ha]
    refine .bind (expanding_follows fun id tasks => ?_) fun _ => refer_follows h _ _
    exact (aliasRecord_traces h).map fun _ _ hleft => hleft

end Rules

/-! ## Whole walks -/

/-- The journal of a walk to any depth is orderly, and says what the walk does. -/
theorem Walk.resolve_traces (settings : Settings) (depth : Nat) (t : TypeId) :
    Follows host (Walk.resolve host settings depth t) (Walk.resolve host settings depth t) := by
  induction depth generalizing t with
  | zero => exact fun tasks past hpast =>
      ⟨rfl, List.suffix_refl past, ⟨tasks, hpast, List.suffix_refl tasks⟩, fun _ h => by cases h⟩
  | succ depth ih => exact step_follows ih t

end TypeBundle
