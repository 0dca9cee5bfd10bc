import TypeBundle.Pass.Run
import TypeBundle.Proofs.Walk.Expanding
/-!
# The same walk unless it stops

`Unless E w w'`: the walk `w'` does what `w` does, except where `w` stops for a reason in `E`. First the rules for
sequences and lists, then one lemma for each rule of a walk, and for whole passes: if the walks of the types inside
do the same unless they stop, so do the walks of the type.
-/

namespace TypeBundle.Walk

variable {α β : Type}

/-- The second walk does what the first does, unless that one stops for one of these reasons. -/
def Unless (E : Stop → Prop) (w w' : Walk α) : Prop := ∀ p, (∃ e q, E e ∧ w p = .error e q) ∨ w' p = w p

namespace Unless

variable {E : Stop → Prop}

theorem refl (w : Walk α) : Unless E w w := fun _ => .inr rfl

theorem stop {w w' : Walk α} {e : Stop} (he : E e) (h : ∀ p, ∃ q, w p = .error e q) : Unless E w w' := by
  intro p
  obtain ⟨q, hq⟩ := h p
  exact .inl ⟨e, q, he, hq⟩

theorem trans {w₁ w₂ w₃ : Walk α} (h₁ : Unless E w₁ w₂) (h₂ : Unless E w₂ w₃) : Unless E w₁ w₃ := by
  intro p
  rcases h₁ p with h | h
  · exact .inl h
  · rcases h₂ p with h' | h'
    · exact .inl (h ▸ h')
    · exact .inr (h'.trans h)

theorem bind {w w' : Walk α} {f f' : α → Walk β} (hw : Unless E w w') (hf : ∀ a, Unless E (f a) (f' a)) :
    Unless E (w >>= f) (w' >>= f') := by
  intro p
  rw [seq_apply, seq_apply]
  rcases hw p with ⟨e, q, he, h⟩ | h
  · exact .inl ⟨e, q, he, by rw [h]⟩
  · rw [h]
    cases hr : w p with
    | ok a q => exact hf a q
    | error e q => exact .inr rfl

theorem map {w w' : Walk α} {f : α → β} (hw : Unless E w w') : Unless E (f <$> w) (f <$> w') := by
  simp only [map_eq_pure_bind]
  exact bind hw fun _ => refl _

theorem mapM {f f' : α → Walk β} {as : List α} (h : ∀ a, Unless E (f a) (f' a)) :
    Unless E (as.mapM f) (as.mapM f') := by
  induction as with
  | nil => exact refl _
  | cons a as ih =>
    simp only [List.mapM_cons]
    exact bind (h a) fun _ => bind ih fun _ => refl _

theorem ite {c : Prop} [Decidable c] {w₁ w₁' w₂ w₂' : Walk α} (h₁ : Unless E w₁ w₁') (h₂ : Unless E w₂ w₂') :
    Unless E (if c then w₁ else w₂) (if c then w₁' else w₂') := by
  split
  · exact h₁
  · exact h₂

theorem expanding {key : Identity} {again : BundleId → α} {first first' : BundleId → Walk (Record × α)}
    (h : ∀ id, Unless E (first id) (first' id)) :
    Unless E (Walk.expanding key again first) (Walk.expanding key again first') :=
  bind (refl _) fun _ => ite (refl _) (bind (h _) fun _ => refl _)

/-- What the second walk gives from the start, if the first does not stop. -/
theorem answer {w w' : Walk α} (h : Unless E w w') :
    (∃ e, E e ∧ Walk.answer w = .error e) ∨ Walk.answer w' = Walk.answer w := by
  rcases h .start with ⟨e, q, he, hq⟩ | h
  · exact .inl ⟨e, he, by rw [Walk.answer, runFrom, EStateM.run, hq]⟩
  · exact .inr (by rw [Walk.answer, Walk.answer, runFrom, runFrom, EStateM.run, EStateM.run, h])

end Unless

/-! ## The rules for one type -/

section Rules

variable {E : Stop → Prop} {host : Host} {settings : Settings} {resolve resolve' : TypeId → Walk TypeExpr}
variable (h : ∀ t, Unless E (resolve t) (resolve' t))

include h

theorem resolveOption_unless (t? : Option TypeId) :
    Unless E (resolveOption resolve t?) (resolveOption resolve' t?) := by
  cases t? with
  | none => exact .refl _
  | some t => exact (h t).map

theorem refer_unless (record : BundleId) (args : List TypeId) :
    Unless E (refer resolve record args) (refer resolve' record args) :=
  .ite (.refl _) (.bind (.mapM h) fun _ => .refl _)

theorem generics_unless (ps : List TypeId) : Unless E (generics host resolve ps) (generics host resolve' ps) :=
  .bind (.refl _) fun _ => .mapM fun _ => .bind (resolveOption_unless h _) fun _ => .refl _

theorem parameter_unless (s : SymbolId) : Unless E (parameter host resolve s) (parameter host resolve' s) :=
  .bind (.refl _) fun _ => .bind (h _) fun _ => .refl _

theorem signature_unless (s : SignatureId) : Unless E (signature host resolve s) (signature host resolve' s) :=
  .bind (generics_unless h _) fun _ => .bind (.mapM (parameter_unless h)) fun _ => .bind (h _) fun _ => .refl _

theorem member_unless (owner? : Option String) (s : SymbolId) :
    Unless E (member host settings resolve owner? s) (member host settings resolve' owner? s) :=
  .bind (.refl _) fun _ => .ite (.refl _) (.bind (.refl _) fun _ => .bind (h _) fun _ => .refl _)

theorem shape_unless (t : TypeId) (owner? : Option SymbolId) :
    Unless E (shape host settings resolve t owner?) (shape host settings resolve' t owner?) :=
  .bind (.refl _) fun _ => .bind (.mapM h) fun _ => .bind (.mapM (member_unless h _)) fun _ =>
    .bind (.mapM (signature_unless h)) fun _ => .bind (.mapM (signature_unless h)) fun _ => .refl _

theorem declaration_unless (t : TypeId) :
    Unless E (declaration host settings resolve t) (declaration host settings resolve' t) := by
  simp only [declaration]
  exact .expanding fun _ => .bind (generics_unless h _) fun _ => .bind (shape_unless h _ _) fun _ => .refl _

theorem objectLiteral_unless (t : TypeId) :
    Unless E (objectLiteral host settings resolve t) (objectLiteral host settings resolve' t) := by
  simp only [objectLiteral]
  exact .expanding fun _ => .bind (shape_unless h _ _) fun _ => .refl _

theorem instantiation_unless (t : TypeId) :
    Unless E (instantiation host settings resolve t) (instantiation host settings resolve' t) :=
  .bind (.refl _) fun _ => .ite (.bind (.mapM h) fun _ => .refl _)
    (.bind (declaration_unless h _) fun _ => refer_unless h _ _)

theorem structural_unless (t : TypeId) :
    Unless E (structural host settings resolve t) (structural host settings resolve' t) := by
  simp only [structural]
  split
  · exact .refl _
  · rename_i kind _
    cases kind with
    | union | intersection => exact .bind (.mapM h) fun _ => .refl _
    | index => exact .bind (.refl _) fun _ => .bind (h _) fun _ => .refl _
    | indexedAccess =>
      exact .bind (.refl _) fun _ => .bind (h _) fun _ => .bind (h _) fun _ => .bind (resolveOption_unless h _) fun _ =>
        .refl _
    | reference => exact instantiation_unless h t
    | nominal => exact .bind (declaration_unless h t) fun _ => .refl _
    | anonymous => exact objectLiteral_unless h t
    | _ => exact .refl _

theorem aliasBody_unless (record : BundleId) (s : SymbolId) (d : TypeId) :
    Unless E (aliasBody host settings resolve record s d) (aliasBody host settings resolve' record s d) :=
  .ite (h _) (.bind (.refl _) fun _ => .ite (.bind (.refl _) fun _ => .bind (shape_unless h _ _) fun _ => .refl _)
    (structural_unless h _))

theorem aliasRecord_unless (record : BundleId) (s : SymbolId) :
    Unless E (aliasRecord host settings resolve record s) (aliasRecord host settings resolve' record s) :=
  .bind (.refl _) fun _ => .bind (generics_unless h _) fun _ => .bind (.refl _) fun _ =>
    .bind (aliasBody_unless h _ _ _) fun _ => .refl _

theorem step_unless (t : TypeId) : Unless E (step host settings resolve t) (step host settings resolve' t) := by
  simp only [step]
  split
  · simp only [aliasOccurrence]
    exact .bind (.expanding fun _ => (aliasRecord_unless h _ _).map) fun _ => refer_unless h _ _
  · exact structural_unless h t

end Rules

/-! ## Whole passes -/

theorem bundle_unless {E : Stop → Prop} {host host' : Host} {settings : Settings} {depth depth' : Nat}
    (hsymbol : host'.symbol = host.symbol)
    (h : ∀ t, Unless E (resolve host settings depth t) (resolve host' settings depth' t)) (global : SymbolId)
    (modules : List SymbolId) :
    Unless E (bundle host settings depth global modules) (bundle host' settings depth' global modules) := by
  have hroot : ∀ missing s, Unless E (root host settings depth missing s) (root host' settings depth' missing s) := by
    intro missing s
    simp only [root, hsymbol]
    exact .bind (.refl _) fun _ => h _
  refine .bind (hroot _ _) fun _ => .bind (.mapM fun s => ?_) fun _ => .refl _
  simp only [ambientModule, hsymbol]
  exact .bind (hroot _ _) fun _ => .refl _

end TypeBundle.Walk
