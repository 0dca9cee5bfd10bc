import TypeBundle.Proofs.Bundle.Reread
import TypeBundle.Proofs.Pass.Validity
/-!
# Does the bundle of a pass check once it is read again?

A pass leaves expressions that a text can stand for, since members stand in order and literals are booleans, strings
and numbers. So the text of its bundle is read again and passes the check, unless it nests deeper than a text may
(`bundle_reread`). A walk goes as deep as the types of the host nest, and nothing keeps its bundle from nesting deeper
(`bundle_reread_fails`).
-/

namespace TypeBundle

open Json (Value)

/-! ## The expressions of a pass are readable -/

theorem ownReadable_literal {kind : PrimitiveKind} {v : Value} (hnull : v ≠ .null) (horder : v.InOrder) :
    (TypeExpr.primitive kind (some v)).OwnReadable := by
  intro w hw
  obtain rfl : v = w := Option.some.inj hw
  exact ⟨hnull, horder⟩

theorem HostType.ownReadable_constant {t : HostType} {e : TypeExpr} (h : t.constant? = some e) : e.OwnReadable := by
  unfold HostType.constant? at h
  split at h
  case h_11 | h_12 =>
    cases h
    exact ownReadable_literal Value.noConfusion (by constructor)
  case h_13 =>
    obtain ⟨n, -, rfl⟩ := Option.map_eq_some_iff.1 h
    exact ownReadable_literal Value.noConfusion (.number n)
  case h_14 => cases h
  all_goals
    cases h
    exact fun _ hv => nomatch hv

section

variable {host : Host} {settings : Settings} {q : Progress}

theorem RepresentsShape.ownReadable {t : TypeId} {owner? : Option SymbolId} {s : Shape TypeExpr}
    (h : RepresentsShape host settings q t owner? s) : (TypeExpr.shape s).OwnReadable := by
  obtain ⟨ms, -, hlast⟩ := h.members
  exact hlast.ascending

theorem ownReadable_mention (id : BundleId) (es : List TypeExpr) : (TypeExpr.mention id es).OwnReadable := by
  cases es <;> trivial

end

namespace Finished

variable {host : Host} {settings : Settings} {global : SymbolId} {modules : List SymbolId} {q : Progress} {b : Bundle}
variable (h : Finished host settings global modules q b)
include h

theorem ownReadable_of_bare {t : TypeId} {e : TypeExpr} (hrep : Represents host q .bare t e) : e.OwnReadable := by
  cases hrep with
  | constant hc => exact HostType.ownReadable_constant hc
  | instantiation _ _ _ _ _ => exact ownReadable_mention _ _
  | literalShape _ hid hrecord hbody =>
    obtain ⟨owner?, hs⟩ := h.shape_of_body hid hrecord hbody
    exact hs.ownReadable
  | _ => trivial

theorem ownReadable {e : TypeExpr} (he : Meaningful host q e) : e.OwnReadable := by
  rcases he with rfl | ⟨view, t, hrep⟩
  · exact fun _ hv => nomatch hv
  · cases view with
    | bare => exact h.ownReadable_of_bare hrep
    | written =>
      cases hrep with
      | alias_ _ _ _ => exact ownReadable_mention _ _
      | bare _ hrep => exact h.ownReadable_of_bare hrep

theorem ownReadable_body {record : Record} (hr : record ∈ b.records) : record.body.OwnReadable := by
  rcases h.shape_or_meaningful hr with ⟨t, owner?, s, hs, hshape⟩ | hbody
  · rw [hs]
    exact hshape.ownReadable
  · exact h.ownReadable hbody

/-- A text can stand for every expression of a bundle. -/
theorem readable : ∀ e ∈ b.expressions, e.Readable := by
  intro e he c hc
  rcases h.meaningful_or_body he hc with hmeaningful | ⟨record, hr, rfl⟩
  · exact h.ownReadable hmeaningful
  · exact h.ownReadable_body hr

end Finished

/-! ## The theorem -/

variable {host : Host} {settings : Settings} {depth : Nat} {global : SymbolId} {modules : List SymbolId} {q : Progress}
variable {b : Bundle}

/-- Where type parameters are nothing else, the text of the bundle of a pass is read again just if it nests no deeper
than a text may, and what is read passes the check. -/
theorem bundle_reread (hapart : host.ParametersApart)
    (hrun : Walk.runFrom .start (Walk.bundle host settings depth global modules) = (.ok b, q))
    (hn : q.registry.issued < 2 ^ 32) (pretty : Bool) :
    Bundle.read? (b.write pretty) = (if b.encode.nesting ≤ nestingLimit then some b.reread else none) ∧
      b.reread.check = .ok () := by
  have hfinished := Walk.finished_of_run hrun (Nat.le_of_lt hn)
  obtain ⟨-, hcheck⟩ := sound_of_run hapart hrun hn
  exact ⟨Bundle.read?_write_eq hfinished.readable pretty, by rw [Bundle.check_reread, hcheck]⟩

/-- A slice of an environment with classes, namespaces and modules. -/
theorem bundle_reread_nodeLike : ∃ l b q, Sample.nodeLike.loaded? = some l ∧
    Walk.runFrom .start (Walk.bundle l.host default l.depth l.global []) = (.ok b, q) ∧ ∀ pretty,
      Bundle.read? (b.write pretty) = (if b.encode.nesting ≤ nestingLimit then some b.reread else none) ∧
        b.reread.check = .ok () := by
  obtain ⟨s, l, b, q, hl, hload, hr, hn⟩ := Sample.exists_run (rfl : Sample.nodeLike.resolves = true)
  have hcheck : Sample.nodeLike.loaded?.all (·.isRegular) = true := by decide +kernel
  rw [hl] at hcheck
  have hregular := Snapshot.regular_of_isRegular hload hcheck
  exact ⟨l, b, q, hl, hr, bundle_reread hregular.parametersApart hr hn⟩

namespace Snapshot

/-- Intersections inside one another, 63 of them, and a string in the last one. -/
def nestedIntersections : Snapshot where
  types := (List.range 63).map (fun i =>
      ⟨⟨.ofNat (i + 1)⟩, { flags := TypeFlags.intersection, constituents := [⟨.ofNat (i + 2)⟩] }⟩) ++
    [⟨⟨64⟩, { flags := TypeFlags.string }⟩]
  symbols := [⟨⟨10⟩, {
    name := "global", flags := SymbolFlags.property, declarations := [⟨"lib.d.ts", .empty⟩], type? := some ⟨1⟩ }⟩]
  signatures := []
  global? := some ⟨10⟩
  ambientModules := []

/-- A snapshot can load and have a bundle of which no text is read again, though it has no type parameters at all. -/
theorem bundle_reread_fails : ∃ l b, nestedIntersections.load = .ok l ∧ l.host.ParametersApart ∧
    l.bundle default = .ok b ∧ b.check = .ok () ∧ ∀ pretty, Bundle.read? (b.write pretty) = none := by
  have hrun : (match nestedIntersections.load with
      | .ok l => match l.bundle default with
        | .ok b => l.isRegular && decide (b.check = .ok ()) && decide (nestingLimit < b.encode.nesting)
        | .error _ => false
      | .error _ => false) = true := by
    decide +kernel
  split at hrun
  · rename_i l hl
    split at hrun
    · rename_i b hb
      simp only [Bool.and_eq_true, decide_eq_true_eq] at hrun
      obtain ⟨⟨hregular, hcheck⟩, hnesting⟩ := hrun
      exact ⟨l, b, hl, (regular_of_isRegular hl hregular).parametersApart, hb, hcheck,
        fun pretty => Bundle.read?_write_eq_none hnesting pretty⟩
    · cases hrun
  · cases hrun

end Snapshot

end TypeBundle
