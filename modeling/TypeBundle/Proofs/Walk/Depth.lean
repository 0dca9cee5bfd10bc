import TypeBundle.Proofs.Walk.Unless
/-!
# More depth keeps an answer

A walk that may go deeper answers as before, unless it was stopped for the depth. So what a pass gives
at some depth it gives at every greater one (`bundle_mono`).
-/

namespace TypeBundle.Walk

variable {α : Type}

/-- The second walk does what the first does, unless that one is stopped for the depth. -/
def Below (w w' : Walk α) : Prop := ∀ p, (∃ q, w p = .error .tooDeep q) ∨ w' p = w p

theorem below_iff_unless {w w' : Walk α} : Below w w' ↔ Unless (· = .tooDeep) w w' := by
  simp only [Below, Unless, exists_and_left, exists_eq_left]

variable {host : Host} {settings : Settings} {depth depth' : Nat}

theorem resolve_succ (depth : Nat) (t : TypeId) :
    Unless (· = .tooDeep) (resolve host settings depth t) (resolve host settings (depth + 1) t) := by
  induction depth generalizing t with
  | zero => exact .stop rfl fun p => ⟨p, rfl⟩
  | succ depth ih => exact step_unless ih t

theorem resolve_mono (h : depth ≤ depth') (t : TypeId) :
    Below (resolve host settings depth t) (resolve host settings depth' t) := by
  rw [below_iff_unless]
  induction h with
  | refl => exact .refl _
  | step _ ih => exact ih.trans (resolve_succ _ t)

theorem bundle_mono (h : depth ≤ depth') (global : SymbolId) (modules : List SymbolId) :
    Below (bundle host settings depth global modules) (bundle host settings depth' global modules) :=
  below_iff_unless.2 (bundle_unless rfl (fun t => below_iff_unless.1 (resolve_mono h t)) global modules)

end TypeBundle.Walk
