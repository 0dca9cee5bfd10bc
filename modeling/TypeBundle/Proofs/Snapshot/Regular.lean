import TypeBundle.Proofs.Host.Regular
import TypeBundle.Proofs.Snapshot.Loading
/-!
# Checking that a snapshot is regular

The host of a loaded snapshot has nothing to say about a type, symbol or signature without an entry, so
whether its flags agree can be found out from the entries (`regular_of_isRegular`).
-/

namespace TypeBundle.Snapshot

namespace Loaded

variable (l : Loaded)

/-- Whether all types of a list are flagged as type parameters. -/
def areParameters (ts : List TypeId) : Bool :=
  ts.all fun t => (l.host.type t).flags.contains TypeFlags.typeParameter

/-- Whether a type may be instantiated. -/
def isTarget (u : TypeId) : Bool :=
  (l.host.type u).flags.contains TypeFlags.object &&
    ((l.host.type u).objectFlags.contains ObjectFlags.class_ ||
      ((l.host.type u).objectFlags.contains ObjectFlags.interface ||
        (l.host.type u).objectFlags.contains ObjectFlags.tuple))

/-- Whether the flags of a type agree with one another and with the types that it mentions. -/
def isRegularType (t : HostType) : Bool :=
  (!t.flags.contains TypeFlags.object || t.flags = TypeFlags.object) &&
    (!t.flags.contains TypeFlags.typeParameter || t.flags = TypeFlags.typeParameter) &&
    (!t.objectFlags.contains ObjectFlags.anonymous ||
      (!t.objectFlags.contains ObjectFlags.class_ && !t.objectFlags.contains ObjectFlags.interface)) &&
    l.areParameters t.typeParameters && (t.kind ≠ .ok .reference || t.target?.all l.isTarget)

/-- Whether the types that an alias mentions are what they should be. -/
def isRegularSymbol (s : HostSymbol) : Bool :=
  l.areParameters s.aliasParameters &&
    s.declaredType?.all fun d => !Walk.isObjectLiteral (l.host.type d) || (l.host.type d).alias?.isSome

/-- Whether the flags of a loaded snapshot exclude one another where they should. -/
def isRegular : Bool :=
  l.snapshot.types.all (l.isRegularType ·.facts) && l.snapshot.symbols.all (l.isRegularSymbol ·.facts) &&
    l.snapshot.signatures.all (l.areParameters ·.facts.typeParameters)

end Loaded

variable {s : Snapshot} {l : Loaded}

theorem regular_of_isRegular (h : s.load = .ok l) (hcheck : l.isRegular = true) : l.host.Regular := by
  obtain ⟨rfl, -⟩ := load_spec h
  simp only [Loaded.isRegular, Bool.and_eq_true, List.all_eq_true] at hcheck
  obtain ⟨⟨htypes, hsymbols⟩, hsignatures⟩ := hcheck
  have htype : ∀ t, l.isRegularType (l.host.type t) = true := fun t =>
    forall_type (P := fun _ a => l.isRegularType a = true) h (fun _ => rfl) htypes t
  have hsymbol : ∀ x, l.isRegularSymbol (l.host.symbol x) = true := fun x =>
    forall_symbol (P := fun _ a => l.isRegularSymbol a = true) h (fun _ => rfl) hsymbols x
  have hsignature : ∀ g, l.areParameters (l.host.signature g).typeParameters = true := fun g =>
    forall_signature (P := fun _ a => l.areParameters a.typeParameters = true) h (fun _ _ => rfl) hsignatures g
  simp only [Loaded.isRegularType, Bool.and_eq_true, Bool.or_eq_true, Bool.not_eq_true', decide_eq_true_eq] at htype
  simp only [Loaded.isRegularSymbol, Bool.and_eq_true] at hsymbol
  constructor
  · exact fun t ho => (htype t).1.1.1.1.resolve_left (by simp [ho])
  · exact fun t hp => (htype t).1.1.1.2.resolve_left (by simp [hp])
  · exact fun t ha => (htype t).1.1.2.resolve_left (by simp [ha])
  · rintro t (⟨u, hu⟩ | ⟨x, hx⟩ | ⟨g, hg⟩)
    · exact List.all_eq_true.1 (htype u).1.2 t hu
    · exact List.all_eq_true.1 (hsymbol x).1 t hx
    · exact List.all_eq_true.1 (hsignature g) t hg
  · intro t u hk hu
    have htarget := (htype t).2.resolve_left (by simp [hk])
    simpa [hu, Loaded.isTarget, Host.IsTuple] using htarget
  · intro x d hd hl
    have hliteral := (hsymbol x).2
    simp only [hd, Option.all_some, hl, Bool.not_true, Bool.false_or] at hliteral
    exact Option.isSome_iff_ne_none.1 hliteral

end TypeBundle.Snapshot
