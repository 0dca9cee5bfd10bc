import TypeBundle.Proofs.Walk.Yields
/-!
# What a walk says is true of the host

Every rule of a walk yields an expression or a record that represents what the rule is about, if the walk
of the types inside does (`hres`). So does the walk to any depth (`resolve_yields`).
-/

namespace TypeBundle.Walk

/-- A relation between the elements of two lists, from what the elements have to do with those of a third. -/
theorem forall₂_of_zip {α β γ : Type} {P : α → β → Prop} {Q : β × α → γ → Prop} {R : α → γ → Prop}
    (h : ∀ a b c, P a b → Q (b, a) c → R a c) {as : List α} {bs : List β} {cs : List γ} (hP : List.Forall₂ P as bs)
    (hQ : List.Forall₂ Q (bs.zip as) cs) : List.Forall₂ R as cs := by
  induction hP generalizing cs with
  | nil => cases hQ; exact .nil
  | cons hab _ ih =>
    cases hQ with
    | cons hbc hrest => exact .cons (h _ _ _ hab hbc) (ih hrest)

section Rules

variable {host : Host} {settings : Settings} {resolve : TypeId → Walk TypeExpr}
variable (hres : ∀ t, Yields host settings (resolve t) fun r e => Represents host r .written t e)
include hres

theorem resolveOption_yields (t? : Option TypeId) :
    Yields host settings (resolveOption resolve t?) fun r e? => Option.Rel (Represents host r .written) t? e? := by
  cases t? with
  | none => exact .pure fun _ => .none
  | some t => exact .map (hres t) fun _ _ => .some

theorem types_yields (ts : List TypeId) :
    Yields host settings (ts.mapM resolve) fun r es => List.Forall₂ (Represents host r .written) ts es :=
  .mapM fun t _ => hres t

theorem refer_yields (id : BundleId) (args : List TypeId) :
    Yields host settings (refer resolve id args) fun r e =>
      ∃ es, e = .mention id es ∧ List.Forall₂ (Represents host r .written) args es := by
  cases args with
  | nil => exact .pure fun _ => ⟨[], rfl, .nil⟩
  | cons t ts =>
    refine .bind (types_yields hres (t :: ts)) ?_
    intro es
    refine .pure fun r h => ⟨es, ?_, h⟩
    cases h
    rfl

theorem generics_yields {ps : List TypeId} (hps : ∀ t ∈ ps, host.IsParameter t) :
    Yields host settings (generics host resolve ps) fun r gs => List.Forall₂ (RepresentsGeneric host r) ps gs := by
  refine .bind (.mapM fun t ht => issue_yields (hps t ht)) ?_
  intro ids
  have hdeclaration : ∀ x : BundleId × TypeId, Yields host settings
      (do return (⟨x.1, ← resolveOption resolve (host.type x.2).constraint?⟩ : Generic TypeExpr)) fun r g =>
      g.id = x.1 ∧ Option.Rel (Represents host r .written) (host.type x.2).constraint? g.constraint? :=
    fun x => .bind (resolveOption_yields hres _) fun _ => .pure fun _ hc => ⟨rfl, hc⟩
  -- ids and declarations come from two lists, one behind the other
  apply (Yields.mapM fun x _ => hdeclaration x).weaken
  intro r gs hgs hids
  refine forall₂_of_zip ?_ hids hgs
  rintro t id g hid ⟨rfl, hc⟩
  exact ⟨hid, hc⟩

theorem parameter_yields (s : SymbolId) :
    Yields host settings (parameter host resolve s) fun r x => RepresentsParameter host r s x :=
  .orUnexpected_bind fun t ht => .bind (hres t) fun _ => .pure fun _ h => ⟨rfl, ⟨t, ht, h⟩, rfl⟩

theorem signature_yields (g : SignatureId) :
    Yields host settings (signature host resolve g) fun r s => RepresentsSignature host r g s := by
  refine .bind (generics_yields hres fun t ht => .inl (.inr (.inr ⟨g, ht⟩))) fun _ => ?_
  refine .bind (.mapM fun x _ => parameter_yields hres x) fun _ => .bind (hres _) fun _ => .pure ?_
  intro r hreturn hparameters hgenerics
  exact ⟨hgenerics, hparameters, hreturn⟩

theorem member_yields (owner? : Option String) (s : SymbolId) :
    Yields host settings (member host settings resolve owner? s) fun r m =>
      RepresentsMember host settings r owner? s m := by
  simp only [member, isReadonly_eq]
  split
  · exact .fail
  · rename_i hd
    simp only [Bool.not_eq_true] at hd
    refine .bind (P := fun _ b => b = (host.symbol s).isReadonly) (.pure fun _ => rfl) fun readonly => ?_
    split
    · rename_i hx
      refine .bind (P := fun _ e => e = .any) (.pure fun _ => rfl) fun e => .pure fun r he hr => ⟨rfl, ?_, rfl, hd, hr⟩
      rw [if_pos hx]
      exact he
    · rename_i hx
      refine .orUnexpected_bind fun t ht => .bind (hres t) fun _ => .pure fun r h hr => ⟨rfl, ?_, rfl, hd, hr⟩
      rw [if_neg hx]
      exact ⟨t, ht, h⟩

theorem shape_yields (t : TypeId) (owner? : Option SymbolId) :
    Yields host settings (shape host settings resolve t owner?) fun r b =>
      RepresentsShape host settings r t owner? b := by
  rw [shape, expand_bind]
  refine .bind (types_yields hres _) fun bases => .bind (.mapM fun s _ => member_yields hres _ s) fun members => ?_
  refine .bind (.mapM fun g _ => signature_yields hres g) fun calls => ?_
  refine .bind (.mapM fun g _ => signature_yields hres g) fun constructs => .pure ?_
  intro r hconstructs hcalls hmembers hbases
  exact ⟨rfl, hbases, hcalls, hconstructs, members, hmembers, Member.lastOf_insertAll members⟩

theorem declarationRecord_yields {t : TypeId} (ht : host.IsDeclared t) (id : BundleId) :
    Yields host settings (declarationRecord host settings resolve t id) fun r x =>
      x.1.id = id ∧ RepresentsRecord host settings r (.type t) x.1 ∧ x.2 = id := by
  refine .bind (generics_yields hres fun x hx => .inl (.inl ⟨t, hx⟩)) fun gs => ?_
  exact .bind (shape_yields hres t _) fun b => .pure fun r hb hgs => ⟨rfl, .declaration ht hgs hb, rfl⟩

theorem declaration_yields {t : TypeId} (ht : host.IsDeclared t) :
    Yields host settings (declaration host settings resolve t) fun r id => r.registry.get? (.type t) = some id := by
  rw [declaration]
  apply Yields.expanding
  · intro id r hid
    exact hid
  · intro id
    exact (declarationRecord_yields hres ht id).grows
  · intro o p id hp _ _ _
    apply ((declarationRecord_yields hres ht id).from_ hp).weaken
    rintro r x _ ⟨hid, hrep, hx⟩
    refine ⟨hid, hrep, fun hkey _ => ?_⟩
    rw [hx]
    exact hkey

/-- The record of an object literal has no name, and its body is what is spelled out. -/
theorem literalRecord_yields {t : TypeId} (hk : (host.type t).kind = .ok .anonymous)
    (ha : (host.type t).alias? = none) (id : BundleId) :
    Yields host settings (literalRecord host settings resolve t id) fun r x =>
      RepresentsRecord host settings r (.type t) x.1 ∧ ∃ b, x = (.anonymous id (.shape b), .shape b) :=
  .bind (shape_yields hres t _) fun b => .pure fun _ hb => ⟨.literal hk ha hb, b, rfl⟩

/-- Whatever holds where an object literal is mentioned, and where it is spelled out as its record is. -/
theorem objectLiteral_expanding {t : TypeId} (hk : (host.type t).kind = .ok .anonymous)
    (ha : (host.type t).alias? = none) {post : Progress → TypeExpr → Prop}
    (hagain : ∀ id r, r.registry.get? (.type t) = some id → post r (.record id))
    (hfirst : ∀ id r b, r.registry.get? (.type t) = some id → r.table.get? id = some (.anonymous id (.shape b)) →
      post r (.shape b)) :
    Yields host settings (objectLiteral host settings resolve t) post := by
  rw [objectLiteral]
  refine Yields.expanding hagain (fun id => (literalRecord_yields hres hk ha id).grows) ?_
  intro o p id hp _ _ _
  apply ((literalRecord_yields hres hk ha id).from_ hp).weaken
  rintro r _ _ ⟨hrep, b, rfl⟩
  exact ⟨rfl, hrep, hfirst id r b⟩

theorem objectLiteral_yields {t : TypeId} (hk : (host.type t).kind = .ok .anonymous)
    (ha : (host.type t).alias? = none) :
    Yields host settings (objectLiteral host settings resolve t) fun r e => Represents host r .bare t e := by
  apply objectLiteral_expanding hres hk ha
  · intro id r hid
    exact .literalMention hk hid
  · intro id r b hid hrecord
    exact .literalShape hk hid hrecord rfl

omit hres in
/-- A literal type either has its form or stops the walk. -/
theorem literal_yields {t : TypeId} {kind : Kind} (hk : (host.type t).kind = .ok kind)
    (hl : kind = .booleanLiteral ∨ kind = .stringLiteral ∨ kind = .numberLiteral) :
    Yields host settings (literal host t kind) fun r e => Represents host r .bare t e := by
  unfold literal
  rcases hl with rfl | rfl | rfl <;> cases hv : (host.type t).literal? with
  | none => exact .fail
  | some l =>
    cases l with
    | boolean b => first | exact .fail | exact .pure fun _ => .constant (by simp [HostType.constant?, hk, hv])
    | string b => first | exact .fail | exact .pure fun _ => .constant (by simp [HostType.constant?, hk, hv])
    | number x =>
      first
      | exact .fail
      | exact .orUnexpected_bind fun n hn => .pure fun _ => .constant (by simp [HostType.constant?, hk, hv, hn])

/-- An object literal is walked by its own structure only where no alias writes it. -/
theorem structural_yields {t : TypeId} (h : (host.type t).alias? = none ∨ (host.type t).kind ≠ .ok .anonymous) :
    Yields host settings (structural host settings resolve t) fun r e => Represents host r .bare t e := by
  cases hk : (host.type t).kind with
  | error fault =>
    simp only [structural, hk]
    exact .fail
  | ok kind =>
    cases kind with
    | any | boolean | number | string | undefined | null | never | void | symbol | nonPrimitive =>
      simp only [structural, hk]
      exact .pure fun _ => .constant (by simp [HostType.constant?, hk])
    | booleanLiteral | stringLiteral | numberLiteral =>
      simp only [structural, hk]
      exact literal_yields hk (by simp)
    | typeParameter =>
      simp only [structural, hk]
      exact .bind (issue_yields (.inr hk)) fun _ => .pure fun _ => .parameter hk
    | union =>
      simp only [structural, hk]
      exact .bind (types_yields hres _) fun _ => .pure fun _ => .union hk
    | intersection =>
      simp only [structural, hk]
      exact .bind (types_yields hres _) fun _ => .pure fun _ => .intersection hk
    | index =>
      simp only [structural, hk]
      exact .orUnexpected_bind fun c hc => .bind (hres c) fun _ => .pure fun _ => .keyOf hk hc
    | indexedAccess =>
      simp only [structural, hk]
      refine .orUnexpected_bind fun parts hparts => .bind (hres parts.1) fun x => .bind (hres parts.2) fun y => ?_
      exact .bind (resolveOption_yields hres _) fun z? => .pure fun _ hz hy hx => .indexedAccess hk hparts hx hy hz
    | conditional | enum =>
      simp only [structural, hk]
      exact .fail
    | reference =>
      simp only [structural, hk, instantiation]
      refine .orUnexpected_bind fun u hu => ?_
      split
      · rename_i htuple
        exact .bind (types_yields hres _) fun _ => .pure fun _ => .tuple hk hu htuple
      · rename_i htuple
        refine .bind (declaration_yields hres (.inr ⟨t, hk, hu, htuple⟩)) fun id => ?_
        refine (refer_yields hres id _).weaken ?_
        rintro r e ⟨es, rfl, hes⟩ hid
        exact .instantiation hk hu htuple hid hes
    | nominal =>
      simp only [structural, hk]
      exact .bind (declaration_yields hres (.inl hk)) fun _ => .pure fun _ => .nominal hk
    | anonymous =>
      simp only [structural, hk]
      exact objectLiteral_yields hres hk (h.resolve_right fun hn => hn hk)

/-! ## Aliases -/

section Alias

variable {o : BundleId → Prop} {p : Progress} {id : BundleId} {s : SymbolId} {d : TypeId}

theorem aliasBody_grows : Grows (aliasBody host settings resolve id s d) := by
  intro p
  apply aliasBody_keeps
  · intro _
    exact (hres d).grows p
  · intro _ _ q hq
    exact hq.trans (.share _ _ _)
  · intro _ _
    exact (shape_yields hres d _).grows p
  · intro _ hk
    exact (structural_yields hres (.inr hk)).grows p

/-- An object literal that has not been started shares the record of the alias. -/
theorem aliasLiteral_yields (hp : Consistent host settings o p) (ho : o id)
    (hs : p.registry.get? (.alias_ s) = some id) (honly : ∀ other, p.registry.get? other = some id → other = .alias_ s)
    (hl : host.IsLiteralOf s d) (hn : p.registry.get? (.type d) = none) :
    YieldsFrom host settings (some id) o p (aliasBody host settings resolve id s d) fun r e =>
      RepresentsAlias host settings r id s d e := by
  have hbody : Yields host settings (TypeExpr.shape <$> shape host settings resolve d (some s)) fun r e =>
      ∃ b, e = .shape b ∧ RepresentsShape host settings r d (some s) b :=
    .map (shape_yields hres d (some s)) fun _ b hb => ⟨b, rfl, hb⟩
  have h := hbody.from_ (hp.share ho hn hs honly hl)
  unfold YieldsFrom at h ⊢
  rw [aliasBody_of_literal hl.2.1 hl.2.2 hn]
  cases hr : (TypeExpr.shape <$> shape host settings resolve d (some s)) (p.share (.type d) id) with
  | error e q =>
    rw [hr] at h
    exact h
  | ok e q =>
    rw [hr] at h
    intro hq
    obtain ⟨hc, hshare, hapart, hpost⟩ := h hq
    have hd : (p.share (.type d) id).registry.get? (.type d) = some id := by
      rw [Progress.share, Registry.get?_bind, if_pos rfl, hn]
      rfl
    refine ⟨hc, (Progress.Extends.share p _ _).trans hshare, ?_, ?_⟩
    · intro other k hother hlt
      have hlt' : k.val.toNat < (p.share (.type d) id).registry.issued :=
        Nat.lt_of_lt_of_le hlt (Progress.Extends.share p _ _).issued
      have hget := (hapart other k hother hlt').resolve_right (by simp)
      rw [Progress.share, Registry.get?_bind] at hget
      split at hget
      · rw [hn] at hget
        exact .inr hget
      · exact .inl hget
    · intro r hqr
      obtain ⟨b, rfl, hb⟩ := hpost r hqr
      exact .literal hl (hqr.ids (hshare.ids hd)) hb

theorem aliasBody_yields (hd : (host.symbol s).declaredType? = some d) (hp : Consistent host settings o p) (ho : o id)
    (hs : p.registry.get? (.alias_ s) = some id) (honly : ∀ other, p.registry.get? other = some id → other = .alias_ s) :
    YieldsFrom host settings (some id) o p (aliasBody host settings resolve id s d) fun r e =>
      RepresentsAlias host settings r id s d e := by
  -- a literal that has an id has not that of the alias
  have hother : ∀ {r k}, p.Extends r → p.registry.get? (.type d) = some k → r.registry.get? (.type d) ≠ some id := by
    intro r k hr hk hid
    rw [hr.ids hk] at hid
    cases hid
    exact absurd (honly _ hk) (by simp)
  by_cases hnames : host.NamesOther s d
  · unfold YieldsFrom
    rw [aliasBody_of_other hnames]
    exact ((hres d).from_ hp).weaken fun r e _ => .other hnames
  · cases hn : p.registry.get? (.type d) with
    | none =>
      by_cases hl : isObjectLiteral (host.type d) = true
      · exact aliasLiteral_yields hres hp ho hs honly ⟨hd, hnames, hl⟩ hn
      · have hk : (host.type d).kind ≠ .ok .anonymous := fun hk => hl (isObjectLiteral_of_anonymous hk)
        unfold YieldsFrom
        rw [aliasBody_of_body hnames fun h => absurd h hl]
        apply ((structural_yields hres (.inr hk)).from_ hp).weaken
        intro r e _ hrep
        exact .body hnames (fun hl' => absurd hl'.2.2 hl) hrep
    | some k =>
      unfold YieldsFrom
      by_cases hk : (host.type d).kind = .ok .anonymous
      · rw [aliasBody_of_started hnames hk hn]
        intro _
        refine ⟨hp, .refl p, .refl p, ?_⟩
        intro r hr
        exact .body hnames (fun _ => hother hr hn) (.literalMention hk (hr.ids hn))
      · rw [aliasBody_of_body hnames fun _ => by simp [hn]]
        apply ((structural_yields hres (.inr hk)).from_ hp).weaken
        intro r e hr hrep
        exact .body hnames (fun _ => hother hr hn) hrep

theorem aliasRecord_grows : Grows (aliasRecord host settings resolve id s) := by
  intro p
  apply aliasRecord_keeps
  · intro f _
    trivial
  · intro x _ q hq
    exact hq.trans (.reserve q (.type x))
  · intro c _
    exact (hres c).grows p
  · intro d _
    exact aliasBody_grows hres p

theorem aliasRecord_yields (hp : Consistent host settings o p) (ho : o id)
    (hs : p.registry.get? (.alias_ s) = some id) (honly : ∀ other, p.registry.get? other = some id → other = .alias_ s) :
    YieldsFrom host settings (some id) o p (aliasRecord host settings resolve id s) fun r record =>
      record.id = id ∧ RepresentsRecord host settings r (.alias_ s) record := by
  have hgenerics : Yields host settings (generics host resolve (host.symbol s).aliasParameters) fun r gs =>
      List.Forall₂ (RepresentsGeneric host r) (host.symbol s).aliasParameters gs :=
    generics_yields hres fun x hx => .inl (.inr (.inl ⟨s, hx⟩))
  rw [aliasRecord, expand_bind]
  apply YieldsFrom.bind (.inl rfl) (hgenerics.from_ hp)
  · intro gs q
    exact .orUnexpected_bind (fun _ => trivial) fun d _ => .bind (aliasBody_grows hres q) fun _ => .pure _
  · intro gs q hq hpq hapart
    cases hd : (host.symbol s).declaredType? with
    | none => exact .fail hq
    | some d =>
      -- the walk of the type parameters has not shared the id of the alias
      have honly' : ∀ other, q.registry.get? other = some id → other = .alias_ s := by
        intro other hother
        exact honly other ((hapart other id hother (hp.numbered.lt hs)).resolve_right (by simp))
      simp only [orUnexpected, pure_bind]
      refine .bind (.inr rfl) (aliasBody_yields hres hd hq ho (hpq.ids hs) honly') (fun _ _ => .pure _) ?_
      intro e q' hq' _ _
      exact .pure hq' fun r _ hbody hgs => ⟨rfl, .alias_ hd hgs hbody⟩

end Alias

/-- An alias gets its id, with its record where it is met first. -/
theorem aliasId_yields (s : SymbolId) :
    Yields host settings (expanding (.alias_ s) (fun id => id)
      fun id => (·, id) <$> aliasRecord host settings resolve id s) fun r id =>
        r.registry.get? (.alias_ s) = some id := by
  apply Yields.expanding
  · intro id r hid
    exact hid
  · intro id p
    exact .map (aliasRecord_grows hres p)
  · intro o p id hp ho hs honly
    rw [map_eq_pure_bind]
    refine .bind (.inr rfl) (aliasRecord_yields hres hp ho hs honly) (fun _ _ => .pure _) ?_
    intro record q hq _ _
    exact .pure hq fun r _ h => ⟨h.1, h.2, fun hkey _ => hkey⟩

theorem step_yields (t : TypeId) :
    Yields host settings (step host settings resolve t) fun r e => Represents host r .written t e := by
  cases ha : (host.type t).alias? with
  | none =>
    simp only [step, ha]
    exact (structural_yields hres (.inl ha)).weaken fun _ _ => .bare ha
  | some s =>
    simp only [step, ha, aliasOccurrence]
    refine .bind (aliasId_yields hres s) fun id => (refer_yields hres id _).weaken ?_
    rintro r e ⟨es, rfl, hes⟩ hid
    exact .alias_ ha hid hes

end Rules

/-! ## Whole walks -/

variable {host : Host} {settings : Settings}

theorem resolve_yields (depth : Nat) (t : TypeId) :
    Yields host settings (resolve host settings depth t) fun r e => Represents host r .written t e := by
  induction depth generalizing t with
  | zero => exact ⟨fun _ _ hp => ⟨hp, trivial⟩, fun hp _ => ⟨_, fun _ h => h, hp⟩⟩
  | succ depth ih => exact step_yields ih t

end TypeBundle.Walk
