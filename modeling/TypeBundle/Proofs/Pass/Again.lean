import TypeBundle.Proofs.Pass.Session
import TypeBundle.Proofs.Walk.Repeats
/-!
# Asking for a type again

After any requests, a type that has been walked with success can be asked for again, also after other requests and as
often as one likes: nothing changes any more, and the answer is always the same. It is the first answer with the ids of
unnamed records in place of the object literals that were spelled out (`answer_again`).
-/

namespace TypeBundle

section

variable {host : Host} {settings : Settings} {requests : List Request} {r : Request} {a : TypeExpr}

/-- What requests leave is consistent, also if some of them have failed. -/
theorem Session.isConsistent (requests : List Request) :
    (Session.progress host settings requests).IsConsistent host settings := by
  induction requests with
  | nil => exact fun _ => ⟨_, .start⟩
  | cons r earlier ih =>
    have h := (Walk.resolve_yields r.depth r.type).keeps _ ih
    simp only [Session.progress, Walk.runFrom, EStateM.run]
    cases hr : Walk.resolve host settings r.depth r.type (Session.progress host settings earlier) with
    | ok a q =>
      rw [hr] at h
      exact h
    | error e q =>
      rw [hr] at h
      exact h.1

theorem Session.answer_eq_ok : Session.answer host settings r requests = .ok a ↔
    Walk.resolve host settings r.depth r.type (Session.progress host settings requests) =
      .ok a (Session.progress host settings (r :: requests)) := by
  simp only [Session.answer, Session.progress, Walk.runFrom, EStateM.run]
  cases Walk.resolve host settings r.depth r.type (Session.progress host settings requests) <;> simp

/-- A request that has succeeded can be made again at any time: each time it changes nothing and gets the same answer,
which has the ids of unnamed records in place of the object literals of the first. -/
theorem answer_again (h : Session.answer host settings r requests = .ok a) :
    ∃ b, (∀ later, Session.answer host settings r (later ++ r :: requests) = .ok b ∧
        Session.progress host settings (r :: later ++ r :: requests) =
          Session.progress host settings (later ++ r :: requests)) ∧
      (Session.progress host settings (r :: requests)).Abridges host a b ∧ ((∀ s, .shape s ∉ a.subterms) → b = a) := by
  have hfirst := Session.answer_eq_ok.1 h
  obtain ⟨-, -, b, hb⟩ := Walk.resolve_repeats _ _ _ _ _ (Session.isConsistent requests) hfirst
  have habridges := (hb _ (.refl _)).2
  refine ⟨b, fun later => ?_, habridges, habridges.eq_of_no_shape⟩
  have hagain := (hb _ (Session.progress_extends (List.suffix_append later _))).1
  constructor
  · simp only [Session.answer, Walk.runFrom, EStateM.run, hagain]
  · rw [List.cons_append, Session.progress]
    simp only [Walk.runFrom, EStateM.run, hagain]

/-- A union of an object literal with itself. -/
def literalTwice : Snapshot where
  types := [
    ⟨⟨1⟩, { flags := TypeFlags.union, constituents := [⟨2⟩, ⟨2⟩] }⟩,
    ⟨⟨2⟩, { flags := TypeFlags.object, objectFlags := ObjectFlags.anonymous }⟩]
  symbols := [⟨⟨0⟩, { name := "globalThis", type? := some ⟨1⟩ }⟩]
  signatures := []
  global? := some ⟨0⟩
  ambientModules := []

/-- The literal is spelled out once. -/
theorem answer_again_literalTwice : ∃ l a b s, literalTwice.load = .ok l ∧
    Session.answer l.host default ⟨⟨1⟩, l.depth⟩ [] = .ok a ∧ .shape s ∈ a.subterms ∧
      (∀ later, Session.answer l.host default ⟨⟨1⟩, l.depth⟩ (later ++ [⟨⟨1⟩, l.depth⟩]) = .ok b ∧
        Session.progress l.host default (⟨⟨1⟩, l.depth⟩ :: later ++ [⟨⟨1⟩, l.depth⟩]) =
          Session.progress l.host default (later ++ [⟨⟨1⟩, l.depth⟩])) ∧
      (Session.progress l.host default [⟨⟨1⟩, l.depth⟩]).Abridges l.host a b := by
  have hanswer : (literalTwice.load.toOption.any fun l =>
      (Session.answer l.host default ⟨⟨1⟩, l.depth⟩ []).toOption.any fun a =>
        a.subterms.any fun e => e.shape?.isSome) = true := by
    decide +kernel
  cases hl : literalTwice.load with
  | error e =>
    rw [hl] at hanswer
    cases hanswer
  | ok l =>
    rw [hl] at hanswer
    cases ha : Session.answer l.host default ⟨⟨1⟩, l.depth⟩ [] with
    | error e =>
      simp only [Except.toOption, Option.any_some, ha] at hanswer
      cases hanswer
    | ok a =>
      simp only [Except.toOption, Option.any_some, ha, List.any_eq_true] at hanswer
      obtain ⟨e, he, hshape⟩ := hanswer
      cases e with
      | shape s =>
        obtain ⟨b, hagain, habridges, -⟩ := answer_again ha
        exact ⟨l, a, b, s, rfl, ha, he, hagain, habridges⟩
      | _ => cases hshape

end

end TypeBundle
