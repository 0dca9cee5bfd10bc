import TypeBundle.Proofs.Host.Parts
/-!
# Records begin and end

The rules for a class or interface, for an object literal and for an alias are of one form, `expanding`:
an identity that has been started is left alone; one that has not gets an id and a slot, its record is
walked, and the slot is filled. What an alias stands for is walked in one of four ways, told apart here
by the progress before the walk.
-/

namespace TypeBundle

namespace Walk

variable {σ α β : Type}

/-! ## Steps on the progress -/

theorem seq_apply (w : WalkIn σ α) (f : α → WalkIn σ β) (p : σ) : (w >>= f) p = match w p with
    | .ok a q => f a q
    | .error e q => .error e q := by
  simp only [Bind.bind, EStateM.bind]
  cases w p <;> rfl

/-- A sequence of walks comes to an end if both do. -/
theorem seq_eq_ok {w : Walk α} {k : α → Walk β} {p r : Progress} {b : β} :
    (w >>= k) p = .ok b r ↔ ∃ a q, w p = .ok a q ∧ k a q = .ok b r := by
  rw [seq_apply]
  cases w p with
  | ok a q =>
    constructor
    · exact fun h => ⟨a, q, rfl, h⟩
    · rintro ⟨_, _, ⟨⟩, h⟩
      exact h
  | error e q => simp

theorem reserve_apply (key : Identity) (p : Progress) :
    reserve key p = .ok (p.registry.reserve key).1 { p with registry := (p.registry.reserve key).2 } := rfl

/-- The progress takes no note of expansions. -/
theorem expand_bind (key : Identity) (f : Unit → Walk α) : (Ledger.expand key : Walk Unit) >>= f = f () := pure_bind () f

/-! ## Records -/

section

variable {key : Identity} {again : BundleId → α} {first : BundleId → Walk (Record × α)} {p : Progress}

theorem reserve_of_some {id : BundleId} (h : p.registry.get? key = some id) :
    reserve key p = .ok (id, true) p := by
  rw [reserve_apply, Registry.reserve_of_some h]

theorem reserve_of_none (h : p.registry.get? key = none) :
    reserve key p = .ok (p.registry.next, false) { p with registry := (p.registry.reserve key).2 } := by
  simp [reserve_apply, Registry.reserve, h]

theorem issue_of_some {t : TypeId} {id : BundleId} (h : p.registry.get? (.type t) = some id) :
    (Ledger.issue t : Walk BundleId) p = .ok id p := by
  change (reserve (.type t) >>= _) p = _
  rw [seq_apply, reserve_of_some h]
  rfl

theorem issue_of_none {t : TypeId} (h : p.registry.get? (.type t) = none) :
    (Ledger.issue t : Walk BundleId) p =
      .ok p.registry.next { p with registry := (p.registry.reserve (.type t)).2 } := by
  change (reserve (.type t) >>= _) p = _
  rw [seq_apply, reserve_of_none h]
  rfl

theorem open_of_some {id : BundleId} (h : p.registry.get? key = some id) :
    (Ledger.open_ key : Walk (BundleId × Bool)) p = .ok (id, true) p := by
  change (reserve key >>= _) p = _
  rw [seq_apply, reserve_of_some h]
  rfl

theorem open_of_none (h : p.registry.get? key = none) :
    (Ledger.open_ key : Walk (BundleId × Bool)) p = .ok (p.registry.next, false) (p.open_ key) := by
  change (reserve key >>= _) p = _
  rw [seq_apply, reserve_of_none h]
  rfl

theorem expanding_of_some {id : BundleId} (h : p.registry.get? key = some id) :
    expanding key again first p = .ok (again id) p := by
  rw [expanding, seq_apply, open_of_some h]
  rfl

theorem expanding_of_none (h : p.registry.get? key = none) :
    expanding key again first p = match first p.registry.next (p.open_ key) with
      | .ok (record, a) q => .ok a (q.close record)
      | .error e q => .error e q := by
  rw [expanding, seq_apply, open_of_none h]
  change (first p.registry.next >>= _) (p.open_ key) = _
  rw [seq_apply]
  cases first p.registry.next (p.open_ key) <;> rfl

end

/-! ## What an alias stands for -/

section Rules

variable {host : Host} {settings : Settings} {record : BundleId} {s : SymbolId} {d : TypeId} {p : Progress}

section

variable [Ledger σ] {resolve : TypeId → WalkIn σ TypeExpr}

theorem aliasBody_of_other (h : host.NamesOther s d) :
    aliasBody host settings resolve record s d = resolve d := by
  unfold Host.NamesOther at h
  simp only [aliasBody, h, if_true]

theorem aliasBody_apply (h : ¬host.NamesOther s d) {q : σ} {registered : Bool}
    (hq : Ledger.isRegistered d q = .ok registered q) : aliasBody host settings resolve record s d q =
      (if isObjectLiteral (host.type d) && !registered then
        Ledger.share d record >>= fun _ => TypeExpr.shape <$> shape host settings resolve d (some s)
      else structural host settings resolve d) q := by
  unfold Host.NamesOther at h
  simp only [aliasBody, h, map_eq_pure_bind, Bool.false_eq_true, if_false]
  rw [seq_apply, hq]

end

variable {resolve : TypeId → Walk TypeExpr}

theorem aliasBody_of_literal (h : ¬host.NamesOther s d) (hl : isObjectLiteral (host.type d) = true)
    (hp : p.registry.get? (.type d) = none) :
    aliasBody host settings resolve record s d p =
      (TypeExpr.shape <$> shape host settings resolve d (some s)) (p.share (.type d) record) := by
  rw [aliasBody_apply h rfl, if_pos (by simp [hl, hp]), seq_apply]
  rfl

theorem aliasBody_of_body (h : ¬host.NamesOther s d)
    (hl : isObjectLiteral (host.type d) = true → p.registry.get? (.type d) ≠ none) :
    aliasBody host settings resolve record s d p = structural host settings resolve d p := by
  rw [aliasBody_apply h rfl, if_neg]
  simp only [Bool.and_eq_true, Bool.not_eq_true', Option.isSome_eq_false_iff, Option.isNone_iff_eq_none, not_and]
  exact hl

/-- An object literal that has been started is mentioned. -/
theorem aliasBody_of_started {id : BundleId} (h : ¬host.NamesOther s d) (hk : (host.type d).kind = .ok .anonymous)
    (hp : p.registry.get? (.type d) = some id) :
    aliasBody host settings resolve record s d p = .ok (.record id) p := by
  rw [aliasBody_of_body h fun _ => by simp [hp]]
  simp only [structural, hk, objectLiteral, expanding_of_some hp]

end Rules

end Walk

end TypeBundle
