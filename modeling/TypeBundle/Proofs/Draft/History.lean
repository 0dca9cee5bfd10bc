import TypeBundle.Proofs.Draft.Steps
/-!
# Histories that use their own ids

A history uses its own ids if each step is given only ids that steps before it answered (`OwnIds`). Every step of such
a history comes to an end and keeps all mentions in range, and there is a global scope once one was asked for
(`ofHistory_of_ownIds`).
-/

namespace TypeBundle.Draft

open Snapshot

/-- The ids that a step is given. -/
def Operation.given : Operation → List Mention
  | .inFile _ | .raw _ _ | .literal _ | .boolean | .symbol _ _ | .interface _ | .class_ _ | .genericInterface _ _
  | .genericClass _ _ | .typeParameter _ | .objectLiteral | .enumeration _ _ | .typeAlias _ _ | .global
  | .ambientModule _ => []
  | .redeclare s => [.symbol s]
  | .symbolOf id => [.type id]
  | .constrain id constraint => [.type id, .type constraint]
  | .instantiate target args => .type target :: args.map .type
  | .tuple ids | .union ids | .intersection ids => ids.map .type
  | .keyOf operand => [.type operand]
  | .indexedAccess object index => [.type object, .type index]
  | .extend id base => [.type id, .type base]
  | .member owner spec => [.type owner, .type spec.type]
  | .signature ts ps returnType => .type returnType :: (ts.map .type ++ ps.map fun p => .type p.type)
  | .callSignature owner g | .constructSignature owner g => [.type owner, .signature g]
  | .function ps returnType => .type returnType :: ps.map fun p => .type p.type
  | .aliasBody s id | .aliasTarget s id => [.symbol s, .type id]
  | .aliasInstance s args => .symbol s :: args.map .type

/-- The ids that are handed out with an answer. -/
def Answer.ids : Answer → List Mention
  | .nothing => []
  | .type id => [.type id]
  | .symbol id => [.symbol id]
  | .symbolOption id? => id?.toList.map .symbol
  | .signature id => [.signature id]
  | .typeWith id ps => .type id :: ps.map .type
  | .aliasWith s ps => .symbol s :: ps.map .type

/-- From the draft on, each step is given only ids that are known, or that a step before it answered. -/
def OwnIdsFrom : List Mention → Draft → List Operation → Prop
  | _, _, [] => True
  | known, d, o :: history => (∀ m ∈ o.given, m ∈ known) ∧
    match (perform o).run d with
    | some (answer, d') => OwnIdsFrom (answer.ids ++ known) d' history
    | none => True

instance decidableOwnIdsFrom : ∀ known d history, Decidable (OwnIdsFrom known d history)
  | _, _, [] => .isTrue trivial
  | known, d, o :: history =>
    have : Decidable (match (perform o).run d with
        | some (answer, d') => OwnIdsFrom (answer.ids ++ known) d' history
        | none => True) :=
      match (perform o).run d with
      | some (answer, d') => decidableOwnIdsFrom (answer.ids ++ known) d' history
      | none => .isTrue trivial
    inferInstanceAs (Decidable ((∀ m ∈ o.given, m ∈ known) ∧ _))

/-- Each step of the history is given only ids that a step before it answered. -/
def OwnIds (history : List Operation) : Prop := OwnIdsFrom [] empty history

instance (history : List Operation) : Decidable (OwnIds history) := decidableOwnIdsFrom [] empty history

/-! ## Steps -/

section Steps

variable {known : List Mention} {d : Draft} {o : Operation}

/-- All steps but the one for the global scope leave it as it is. -/
theorem perform_safe (ho : o ≠ .global) (h : ∀ m ∈ o.given, m ∈ known) : Safe known (perform o) Answer.ids := by
  cases o <;> simp only [Operation.given, List.mem_cons, List.not_mem_nil, List.mem_append, List.mem_map,
    or_imp, forall_and, forall_exists_index, and_imp, forall_apply_eq_imp_iff₂, or_false, forall_eq] at h
  case global => exact absurd rfl ho
  case inFile file => exact .map (.inFile file) fun _ => rfl
  case raw => exact .map (raw_safe _ _) fun _ => rfl
  case literal => exact .map (literal_safe _ _) fun _ => rfl
  case boolean => exact .map (raw_safe _ _) fun _ => rfl
  case symbol => exact .map (symbol_safe _ _) fun _ => rfl
  case redeclare => exact .map (redeclare_safe h) fun _ => rfl
  case symbolOf => exact .map (symbolOf_safe h) fun _ => rfl
  case interface => exact .map (nominal_safe _ _ _) fun _ => rfl
  case class_ => exact .map (nominal_safe _ _ _) fun _ => rfl
  case genericInterface => exact .map (generic_safe (nominal_safe _ _ _) _) fun _ => rfl
  case genericClass => exact .map (generic_safe (nominal_safe _ _ _) _) fun _ => rfl
  case typeParameter => exact .map (typeParameter_safe _) fun _ => rfl
  case constrain => exact .map (constrain_safe h.1 h.2) fun _ => rfl
  case instantiate => exact .map (instantiate_safe h.1 h.2) fun _ => rfl
  case tuple => exact .map (tuple_safe h) fun _ => rfl
  case objectLiteral => exact .map objectLiteral_safe fun _ => rfl
  case union => exact .map (union_safe h) fun _ => rfl
  case intersection => exact .map (intersection_safe h) fun _ => rfl
  case keyOf => exact .map (keyOf_safe h) fun _ => rfl
  case indexedAccess => exact .map (indexedAccess_safe h.1 h.2) fun _ => rfl
  case enumeration => exact .map (enumeration_safe _ _) fun _ => rfl
  case extend => exact .map (extend_safe h.1 h.2) fun _ => rfl
  case member => exact .map (member_safe h.1 h.2) fun _ => rfl
  case signature => exact .map (signature_safe h.2.1 h.2.2 h.1) fun _ => rfl
  case callSignature => exact .map (callSignature_safe h.1 h.2) fun _ => rfl
  case constructSignature => exact .map (constructSignature_safe h.1 h.2) fun _ => rfl
  case function => exact .map (function_safe h.2 h.1) fun _ => rfl
  case typeAlias => exact .map (typeAlias_safe _ _) fun _ => rfl
  case aliasBody => exact .map (aliasBody_safe h.1 h.2) fun _ => rfl
  case aliasTarget => exact .map (aliasTarget_safe h.1 h.2) fun _ => rfl
  case aliasInstance => exact .map (aliasInstance_safe h.1 h.2) fun _ => rfl
  case ambientModule => exact .map (ambientModule_safe _) fun _ => rfl

/-- What a step leaves behind in a draft that has the ids it is given. -/
structure Stepped (d : Draft) (o : Operation) (answer : Answer) (d' : Draft) : Prop where
  inRange : d'.InRange
  keeps : ∀ m, d.Has m → d'.Has m
  hands : ∀ m ∈ answer.ids, d'.Has m
  global : d'.global? ≠ none ↔ d.global? ≠ none ∨ o = .global

theorem global_of_some {id : TypeId} (h : d.globalType? = some id) : global.run d = some (id, d) := by
  simp [global, h]

theorem global_of_none {s : SymbolId} {id : TypeId} {d' : Draft} (h : d.globalType? = none)
    (hscope : scope "global" d = some ((s, id), d')) :
    global.run d = some (id, { d' with global? := some s, globalType? := some id }) := by
  have hscope : (scope "global").run d = some ((s, id), d') := hscope
  simp [global, h, hscope]

/-- The global scope is made when it is asked for first; the symbol and the type of it are made together. -/
theorem global_spec (hd : d.InRange) : ∃ id d', global.run d = some (id, d') ∧ Stepped d .global (.type id) d' := by
  cases ht : d.globalType? with
  | some id =>
    obtain ⟨hid, hglobal⟩ := hd.globalType id ht
    exact ⟨id, d, global_of_some ht, hd, fun _ h => h, by simpa [Answer.ids] using hid, by simp [hglobal]⟩
  | none =>
    obtain ⟨⟨s, id⟩, d', hscope, hd', hext, hids⟩ := (scope_safe "global" : Safe [] _ _) d hd (by simp)
    simp only [List.mem_cons, List.not_mem_nil, or_false, forall_eq_or_imp, forall_eq] at hids
    obtain ⟨hs, hid⟩ := hids
    refine ⟨id, _, global_of_none ht hscope, ?_, fun m hm => ?_, ?_, by simp⟩
    · refine ⟨hd'.types, hd'.symbols, hd'.signatures, hd'.ambientModules, ?_, ?_⟩
      · rintro _ ⟨⟩
        exact hs
      · rintro _ ⟨⟩
        exact ⟨hid, Option.some_ne_none s⟩
    · exact hext.has hm
    · intro m hm
      obtain rfl := List.mem_singleton.1 hm
      exact hid

theorem perform_spec (hd : d.InRange) (h : ∀ m ∈ o.given, d.Has m) :
    ∃ a d', (perform o).run d = some (a, d') ∧ Stepped d o a d' := by
  by_cases ho : o = .global
  · subst ho
    obtain ⟨id, d', hglobal, hstep⟩ := global_spec hd
    exact ⟨.type id, d', by simp [perform, hglobal], hstep⟩
  · obtain ⟨a, d', hperform, hd', hext, ha⟩ := perform_safe ho (fun _ hm => hm) d hd h
    exact ⟨a, d', hperform, hd', fun _ => hext.has, ha, by simp [hext.global, ho]⟩

end Steps

/-! ## Histories -/

theorem inRange_empty : InRange empty := by
  constructor <;> simp [empty]

/-- Induction on the history: the draft that the rest starts from has all the ids that are known. -/
theorem foldlM_of_ownIdsFrom {known : List Mention} {d : Draft} {history : List Operation} (hd : d.InRange)
    (hknown : ∀ m ∈ known, d.Has m) (h : OwnIdsFrom known d history) :
    ∃ d', history.foldlM (fun d o => ((perform o).run d).map (·.2)) d = some d' ∧ d'.InRange ∧
      (d'.global? ≠ none ↔ d.global? ≠ none ∨ .global ∈ history) := by
  induction history generalizing known d with
  | nil => exact ⟨d, rfl, hd, by simp⟩
  | cons o history ih =>
    obtain ⟨hgiven, hrest⟩ := h
    obtain ⟨answer, d', hperform, hstep⟩ := perform_spec hd fun m hm => hknown m (hgiven m hm)
    rw [hperform] at hrest
    obtain ⟨d'', hrun, hd'', hglobal⟩ := ih hstep.inRange
      (fun m hm => (List.mem_append.1 hm).elim (hstep.hands m) fun hm => hstep.keeps m (hknown m hm)) hrest
    refine ⟨d'', by simp [hperform, hrun], hd'', ?_⟩
    rw [hglobal, hstep.global, List.mem_cons, or_assoc, eq_comm]

/-- A history that uses its own ids comes to an end, with all mentions in range, and with a global scope just if one
was asked for. -/
theorem ofHistory_of_ownIds {history : List Operation} (h : OwnIds history) :
    ∃ d, ofHistory? history = some d ∧ d.InRange ∧ (d.global? ≠ none ↔ .global ∈ history) := by
  obtain ⟨d, hrun, hd, hglobal⟩ := foldlM_of_ownIdsFrom inRange_empty (by simp) h
  exact ⟨d, hrun, hd, by simpa [empty] using hglobal⟩

end TypeBundle.Draft
