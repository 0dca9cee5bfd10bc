import TypeBundle.Proofs.Walk.Rules
/-!
# Walking a type again

When a type has been walked, everything in it has been started. Walked again, at any later time, it changes nothing,
and every object literal that was spelled out is now a reference to its record (`TypeExpr.Abridges`).

`Repeats R w w'`: if `w` succeeds then `w'` succeeds from every later progress, leaves it as it is, and always has the
same value, which `R` relates to that of `w`. First the rules for sequences, lists and records, then one lemma for each
rule of a walk. The records themselves are not walked again, so nothing is said about shapes.
-/

namespace TypeBundle

/-! ## References in place of shapes -/

/-- The second expression is the first with references in place of its outermost shapes. -/
inductive TypeExpr.Abridges (P : Shape TypeExpr → BundleId → Prop) : TypeExpr → TypeExpr → Prop
  | shape {s id} : P s id → Abridges P (.shape s) (.record id)
  | record {id} : Abridges P (.record id) (.record id)
  | primitive {kind literal?} : Abridges P (.primitive kind literal?) (.primitive kind literal?)
  | parameter {id} : Abridges P (.parameter id) (.parameter id)
  | union {es fs} : List.Forall₂ (Abridges P) es fs → Abridges P (.union es) (.union fs)
  | intersection {es fs} : List.Forall₂ (Abridges P) es fs → Abridges P (.intersection es) (.intersection fs)
  | tuple {es fs} : List.Forall₂ (Abridges P) es fs → Abridges P (.tuple es) (.tuple fs)
  | application {id es fs} : List.Forall₂ (Abridges P) es fs → Abridges P (.application id es) (.application id fs)
  | keyOf {e f} : Abridges P e f → Abridges P (.keyOf e) (.keyOf f)
  | indexedAccess {x y z? x' y' z'?} : Abridges P x x' → Abridges P y y' → Option.Rel (Abridges P) z? z'? →
      Abridges P (.indexedAccess x y z?) (.indexedAccess x' y' z'?)

namespace TypeExpr

/-- A list whose members are related only to themselves is related only to itself. -/
theorem eq_of_forall₂ {R : TypeExpr → TypeExpr → Prop} {es fs : List TypeExpr} (h : List.Forall₂ R es fs)
    (heq : ∀ e ∈ es, ∀ f, R e f → f = e) : fs = es := by
  induction h with
  | nil => rfl
  | @cons e f es fs hef _ ih =>
    rw [heq e List.mem_cons_self f hef, ih fun e' he' => heq e' (List.mem_cons_of_mem _ he')]

/-- Where nothing is spelled out nothing is abridged. -/
theorem Abridges.eq_of_no_shape {P : Shape TypeExpr → BundleId → Prop} {a b : TypeExpr} (h : Abridges P a b)
    (hs : ∀ s, .shape s ∉ a.subterms) : b = a := by
  induction a using childInduction generalizing b with
  | h a ih =>
    have hchild : ∀ c ∈ a.children, ∀ d, Abridges P c d → d = c := by
      intro c hc d hcd
      refine ih c hc hcd fun s hmem => hs s ?_
      rw [subterms_eq]
      exact List.mem_cons_of_mem _ (List.mem_flatMap.2 ⟨c, hc, hmem⟩)
    cases h with
    | shape _ => exact absurd (mem_subterms_self _) (hs _)
    | record | primitive | parameter => rfl
    | union h | intersection h | tuple h | application h => rw [eq_of_forall₂ h hchild]
    | keyOf h => rw [hchild _ List.mem_cons_self _ h]
    | indexedAccess hx hy hz =>
      rw [hchild _ List.mem_cons_self _ hx, hchild _ (List.mem_cons_of_mem _ List.mem_cons_self) _ hy]
      cases hz with
      | none => rfl
      | some hz => rw [hchild _ (by simp [children]) _ hz]

end TypeExpr

/-- The id is that of an object literal, whose record has no name and the shape as its body. -/
structure Progress.Unnamed (host : Host) (p : Progress) (s : Shape TypeExpr) (id : BundleId) : Prop where
  literal : ∃ t, (host.type t).kind = .ok .anonymous ∧ (host.type t).alias? = none ∧ p.registry.get? (.type t) = some id
  /-- The record of another identity has the id if the ids have run out. -/
  record : p.registry.issued ≤ 2 ^ 32 → p.table.get? id = some (.anonymous id (.shape s))

/-- The second expression is the first with the ids of unnamed records in place of what is spelled out. -/
def Progress.Abridges (host : Host) (p : Progress) : TypeExpr → TypeExpr → Prop := TypeExpr.Abridges (p.Unnamed host)

/-- The progress is consistent as long as there are ids to hand out, whatever is under construction. -/
def Progress.IsConsistent (host : Host) (settings : Settings) (p : Progress) : Prop :=
  p.registry.issued ≤ 2 ^ 32 → ∃ o, Consistent host settings o p

namespace Walk

variable {α β : Type} {host : Host} {settings : Settings}

/-- What is known of a result, wherever the walk starts. -/
def Returns (post : α → Prop) (w : Walk α) : Prop := ∀ p a q, w p = .ok a q → post a

theorem Returns.pure {post : α → Prop} {a : α} (h : post a) : Returns post (Pure.pure a : Walk α) := by
  intro p b q hb
  cases hb
  exact h

theorem Returns.bind {post : β → Prop} {w : Walk α} {k : α → Walk β} (hk : ∀ a, Returns post (k a)) :
    Returns post (w >>= k) := by
  intro p b q h
  obtain ⟨a, q', -, h⟩ := seq_eq_ok.1 h
  exact hk a q' b q h

/-- Consistent progress stays so, also where a walk stops. -/
theorem Yields.keeps {w : Walk α} {post : Progress → α → Prop} (hw : Yields host settings w post) :
    Keeps (Progress.IsConsistent host settings) (fun _ => True) w := by
  intro p hp
  cases hr : w p with
  | ok a q =>
    intro hq
    obtain ⟨o, ho⟩ := hp (Nat.le_trans (hw.grows.ok hr).issued hq)
    have h := hw.from_ ho
    rw [YieldsFrom, hr] at h
    exact ⟨o, (h hq).1⟩
  | error e q =>
    refine ⟨fun hq => ?_, trivial⟩
    obtain ⟨o, ho⟩ := hp (Nat.le_trans (hw.grows.error hr).issued hq)
    have h := hw.from_ ho
    rw [YieldsFrom, hr] at h
    obtain ⟨o', -, ho'⟩ := h hq
    exact ⟨o', ho'⟩

/-- After the first walk has succeeded, the second one repeats it at any later time. -/
def Repeats (host : Host) (settings : Settings) (R : Progress → α → α → Prop) (w w' : Walk α) : Prop :=
  ∀ p a q, p.IsConsistent host settings → w p = .ok a q →
    q.IsConsistent host settings ∧ p.Extends q ∧ ∃ b, ∀ r, q.Extends r → w' r = .ok b r ∧ R r a b

/-! ## Sequences and lists -/

namespace Repeats

theorem pure {R : Progress → α → α → Prop} {a b : α} (h : ∀ r, R r a b) :
    Repeats host settings R (Pure.pure a) (Pure.pure b) := by
  intro p c q hp hc
  cases hc
  exact ⟨hp, .refl p, b, fun r _ => ⟨rfl, h r⟩⟩

theorem fail {R : Progress → α → α → Prop} {failure : Failure} {w' : Walk α} :
    Repeats host settings R (Walk.fail failure) w' := by
  intro p a q _ h
  cases h

theorem weaken {P Q : Progress → α → α → Prop} {w w' : Walk α} (h : Repeats host settings P w w')
    (hPQ : ∀ r a b, P r a b → Q r a b) : Repeats host settings Q w w' := by
  intro p a q hp ha
  obtain ⟨hq, hpq, b, hb⟩ := h p a q hp ha
  exact ⟨hq, hpq, b, fun r hr => ⟨(hb r hr).1, hPQ r a b (hb r hr).2⟩⟩

/-- How the second walks go on depends on the values, which are related at some time. -/
theorem bind {P : Progress → α → α → Prop} {Q : Progress → β → β → Prop} {w w' : Walk α} {k k' : α → Walk β}
    (hw : Repeats host settings P w w')
    (hk : ∀ a b, (∃ r, P r a b) → Repeats host settings (fun r c d => P r a b → Q r c d) (k a) (k' b)) :
    Repeats host settings Q (w >>= k) (w' >>= k') := by
  intro p c q' hp hc
  obtain ⟨a, q, ha, hc⟩ := seq_eq_ok.1 hc
  obtain ⟨hq, hpq, b, hb⟩ := hw p a q hp ha
  obtain ⟨hq', hqq', d, hd⟩ := hk a b ⟨q, (hb q (.refl q)).2⟩ q c q' hq hc
  refine ⟨hq', hpq.trans hqq', d, fun r hr => ?_⟩
  obtain ⟨hbr, hP⟩ := hb r (hqq'.trans hr)
  obtain ⟨hdr, hQ⟩ := hd r hr
  rw [seq_apply, hbr]
  exact ⟨hdr, hQ hP⟩

theorem map {P : Progress → α → α → Prop} {Q : Progress → β → β → Prop} {w w' : Walk α} {f : α → β}
    (hw : Repeats host settings P w w') (hPQ : ∀ r a b, P r a b → Q r (f a) (f b)) :
    Repeats host settings Q (f <$> w) (f <$> w') := by
  simp only [map_eq_pure_bind]
  exact bind hw fun a b _ => pure fun r => hPQ r a b

theorem orUnexpected_bind {Q : Progress → β → β → Prop} {what : Unexpected} {a? : Option α} {k k' : α → Walk β}
    (h : ∀ a, a? = some a → Repeats host settings Q (k a) (k' a)) :
    Repeats host settings Q (Walk.orUnexpected what a? >>= k) (Walk.orUnexpected what a? >>= k') := by
  cases a? with
  | none => exact fail
  | some a => exact h a rfl

theorem mapM {R : Progress → β → β → Prop} {f : α → Walk β} {as : List α}
    (h : ∀ a ∈ as, Repeats host settings R (f a) (f a)) :
    Repeats host settings (fun r => List.Forall₂ (R r)) (as.mapM f) (as.mapM f) := by
  induction as with
  | nil => exact pure fun _ => .nil
  | cons a as ih =>
    rw [List.mapM_cons]
    refine bind (h a List.mem_cons_self) fun b c _ => ?_
    refine bind (ih fun x hx => h x (List.mem_cons_of_mem _ hx)) fun bs cs _ => ?_
    exact pure fun r hbs hb => .cons hb hbs

/-! ## Records -/

/-- A record that is walked once is referred to ever after. -/
theorem expanding {key : Identity} {again : BundleId → α} {first : BundleId → Walk (Record × α)}
    {R : Progress → α → α → Prop} {Q : BundleId → α → Prop} {post : Progress → α → Prop}
    (hyields : Yields host settings (Walk.expanding key again first) post) (hgrows : ∀ id, Grows (first id))
    (hreturns : ∀ id, Returns (fun x => Q id x.2) (first id))
    (hagain : ∀ r id, r.registry.get? key = some id → R r (again id) (again id))
    (hfirst : ∀ r id a, Q id a → r.registry.get? key = some id → (r.registry.issued ≤ 2 ^ 32 → post r a) →
      R r a (again id)) :
    Repeats host settings R (Walk.expanding key again first) (Walk.expanding key again first) := by
  intro p a q hp h
  have hq := hyields.keeps p hp
  have hpq := hyields.grows.ok h
  rw [h] at hq
  have hpost : ∀ r, q.Extends r → r.registry.issued ≤ 2 ^ 32 → post r a := by
    intro r hr hn
    have hn' := Nat.le_trans hr.issued hn
    obtain ⟨o, ho⟩ := hp (Nat.le_trans hpq.issued hn')
    have hfrom := hyields.from_ ho
    rw [YieldsFrom, h] at hfrom
    exact (hfrom hn').2.2.2 r hr
  cases hk : p.registry.get? key with
  | some id =>
    rw [expanding_of_some hk] at h
    cases h
    refine ⟨hq, hpq, again id, fun r hr => ?_⟩
    have hid := hr.ids (hpq.ids hk)
    exact ⟨expanding_of_some hid, hagain r id hid⟩
  | none =>
    rw [expanding_of_none hk] at h
    cases hx : first p.registry.next (p.open_ key) with
    | error e q' =>
      rw [hx] at h
      cases h
    | ok x q' =>
      rw [hx] at h
      cases h
      have hopen : (p.open_ key).registry.get? key = some p.registry.next := by
        rw [Progress.open_, Registry.get?_reserve_of_none hk, if_pos rfl]
      refine ⟨hq, hpq, again p.registry.next, fun r hr => ?_⟩
      have hid : r.registry.get? key = some p.registry.next := hr.ids (((hgrows _).ok hx).ids hopen)
      exact ⟨expanding_of_some hid, hfirst r _ _ (hreturns _ _ _ _ hx) hid (hpost r hr)⟩

end Repeats

/-- A type parameter has the id that it has got. -/
theorem issue_repeats {t : TypeId} (ht : host.IsParameter t) :
    Repeats host settings (fun _ a b => b = a) (Ledger.issue t) (Ledger.issue t) := by
  intro p a q hp h
  have hyields : Yields host settings _ _ := issue_yields ht
  have hq := hyields.keeps p hp
  have hpq := hyields.grows.ok h
  rw [h] at hq
  have ha : q.registry.get? (.type t) = some a := by
    cases h
    exact Registry.get?_reserve_self _ _
  exact ⟨hq, hpq, a, fun r hr => ⟨issue_of_some (hr.ids ha), rfl⟩⟩

/-! ## The rules for one type -/

section Rules

variable {resolve : TypeId → Walk TypeExpr}
variable (hyields : ∀ t, Yields host settings (resolve t) fun r e => Represents host r .written t e)
variable (hres : ∀ t, Repeats host settings (Progress.Abridges host) (resolve t) (resolve t))

section
include hres

theorem resolveOption_repeats (t? : Option TypeId) :
    Repeats host settings (fun r => Option.Rel (r.Abridges host)) (resolveOption resolve t?)
      (resolveOption resolve t?) := by
  cases t? with
  | none => exact .pure fun _ => .none
  | some t => exact .map (hres t) fun _ _ _ => .some

theorem types_repeats (ts : List TypeId) :
    Repeats host settings (fun r => List.Forall₂ (r.Abridges host)) (ts.mapM resolve) (ts.mapM resolve) :=
  .mapM fun t _ => hres t

theorem refer_repeats (id : BundleId) (args : List TypeId) :
    Repeats host settings (Progress.Abridges host) (refer resolve id args) (refer resolve id args) := by
  cases args with
  | nil => exact .pure fun _ => .record
  | cons t ts => exact .bind (types_repeats hres (t :: ts)) fun _ _ _ => .pure fun _ => .application

end

section
include hyields

theorem declaration_repeats {t : TypeId} (ht : host.IsDeclared t) :
    Repeats host settings (fun _ a b => b = a) (declaration host settings resolve t)
      (declaration host settings resolve t) := by
  have hdeclaration := declaration_yields hyields ht
  rw [declaration] at hdeclaration ⊢
  exact .expanding (Q := fun id a => a = id) hdeclaration (fun id => (declarationRecord_yields hyields ht id).grows)
    (fun _ => .bind fun _ => .bind fun _ => .pure rfl) (fun _ _ _ => rfl) fun _ _ _ hid _ _ => hid.symm

/-- An object literal is spelled out once, and its record has no name. -/
theorem objectLiteral_repeats {t : TypeId} (hk : (host.type t).kind = .ok .anonymous)
    (ha : (host.type t).alias? = none) :
    Repeats host settings (Progress.Abridges host) (objectLiteral host settings resolve t)
      (objectLiteral host settings resolve t) := by
  have hunnamed : Yields host settings (objectLiteral host settings resolve t) fun r e =>
      ∀ b id, e = .shape b → r.registry.get? (.type t) = some id →
        r.table.get? id = some (.anonymous id (.shape b)) := by
    apply objectLiteral_expanding hyields hk ha
    · intro id r _ b id' h
      cases h
    · intro id r b hid hrecord b' id' hb hid'
      cases hb
      obtain rfl := Option.some.inj (hid.symm.trans hid')
      exact hrecord
  rw [objectLiteral] at hunnamed ⊢
  refine .expanding (Q := fun _ a => ∃ b, a = .shape b) hunnamed (fun id => (literalRecord_yields hyields hk ha id).grows)
    (fun id => .bind fun b => .pure ⟨b, rfl⟩) (fun _ _ _ => .record) ?_
  rintro r id _ ⟨b, rfl⟩ hid hrecord
  exact .shape ⟨⟨t, hk, ha, hid⟩, fun hn => hrecord hn b id rfl hid⟩

end

/-- A literal type has its form. -/
theorem literal_repeats (t : TypeId) (kind : Kind) :
    Repeats host settings (Progress.Abridges host) (literal host t kind) (literal host t kind) := by
  unfold literal
  generalize (host.type t).literal? = found?
  dsimp only
  split
  · exact .pure fun _ => .primitive
  · exact .pure fun _ => .primitive
  · exact .orUnexpected_bind fun _ _ => .pure fun _ => .primitive
  · exact .fail
  · exact .fail
  · exact .fail

include hyields hres

/-- A type without an alias, by its own structure. -/
theorem structural_repeats {t : TypeId} (ha : (host.type t).alias? = none) :
    Repeats host settings (Progress.Abridges host) (structural host settings resolve t)
      (structural host settings resolve t) := by
  cases hk : (host.type t).kind with
  | error fault =>
    simp only [structural, hk]
    exact .fail
  | ok kind =>
    cases kind with
    | any | boolean | number | string | undefined | null | never | void | symbol | nonPrimitive =>
      simp only [structural, hk]
      exact .pure fun _ => .primitive
    | booleanLiteral | stringLiteral | numberLiteral =>
      simp only [structural, hk]
      exact literal_repeats t _
    | typeParameter =>
      simp only [structural, hk]
      refine .bind (issue_repeats (.inr hk)) ?_
      rintro _ id ⟨-, rfl⟩
      exact .pure fun _ _ => .parameter
    | union =>
      simp only [structural, hk]
      exact .bind (types_repeats hres _) fun _ _ _ => .pure fun _ => .union
    | intersection =>
      simp only [structural, hk]
      exact .bind (types_repeats hres _) fun _ _ _ => .pure fun _ => .intersection
    | index =>
      simp only [structural, hk]
      exact .orUnexpected_bind fun c _ => .bind (hres c) fun _ _ _ => .pure fun _ => .keyOf
    | indexedAccess =>
      simp only [structural, hk]
      refine .orUnexpected_bind fun parts _ => .bind (hres parts.1) fun x x' _ => ?_
      refine .bind (hres parts.2) fun y y' _ => .bind (resolveOption_repeats hres _) fun z? z'? _ => ?_
      exact .pure fun _ hz hy hx => .indexedAccess hx hy hz
    | conditional | enum =>
      simp only [structural, hk]
      exact .fail
    | reference =>
      simp only [structural, hk, instantiation]
      refine .orUnexpected_bind fun u hu => ?_
      split
      · exact .bind (types_repeats hres _) fun _ _ _ => .pure fun _ => .tuple
      · rename_i htuple
        refine .bind (declaration_repeats hyields (.inr ⟨t, hk, hu, htuple⟩)) ?_
        rintro _ id ⟨-, rfl⟩
        exact (refer_repeats hres id _).weaken fun _ _ _ h _ => h
    | nominal =>
      simp only [structural, hk]
      refine .bind (declaration_repeats hyields (.inl hk)) ?_
      rintro _ id ⟨-, rfl⟩
      exact .pure fun _ _ => .record
    | anonymous =>
      simp only [structural, hk]
      exact objectLiteral_repeats hyields hk ha

theorem step_repeats (t : TypeId) :
    Repeats host settings (Progress.Abridges host) (step host settings resolve t) (step host settings resolve t) := by
  cases ha : (host.type t).alias? with
  | none =>
    simp only [step, ha]
    exact structural_repeats hyields hres ha
  | some s =>
    simp only [step, ha, aliasOccurrence]
    have hid : Repeats host settings (fun _ a b => b = a) (expanding (.alias_ s) (fun id => id)
        fun id => (·, id) <$> aliasRecord host settings resolve id s) (expanding (.alias_ s) (fun id => id)
        fun id => (·, id) <$> aliasRecord host settings resolve id s) := by
      refine .expanding (Q := fun id a => a = id) (aliasId_yields hyields s)
        (fun id p => .map (aliasRecord_grows hyields p)) (fun id => ?_) (fun _ _ _ => rfl) fun _ _ _ h _ _ => h.symm
      rw [map_eq_pure_bind]
      exact .bind fun _ => .pure rfl
    refine .bind hid ?_
    rintro _ id ⟨-, rfl⟩
    exact (refer_repeats hres id _).weaken fun _ _ _ h _ => h

end Rules

/-! ## Whole walks -/

theorem resolve_repeats (depth : Nat) (t : TypeId) :
    Repeats host settings (Progress.Abridges host) (resolve host settings depth t) (resolve host settings depth t) := by
  induction depth generalizing t with
  | zero =>
    intro p a q _ h
    cases h
  | succ depth ih => exact step_repeats (resolve_yields depth) ih t

end Walk

end TypeBundle
