import TypeBundle.Proofs.Bundle.Check
import TypeBundle.Proofs.Pass.Partition
/-!
# Does the bundle of a pass check?

An id is all that a walk looks at to see whether a record has been begun, and a type parameter has an id
without a record. Where the host lists a type as a type parameter that is a class, an interface or an object
literal as well, the walk may refer to a record that is never begun. This is the only fault that a bundle can
have (`bundle_check`), and some snapshots that load have it (`bundle_check_fails`).
-/

namespace TypeBundle

/-- The type is walked both as a type parameter, which has no record, and as a type that is referred to. -/
structure Host.HasTwoRoles (host : Host) (t : TypeId) : Prop where
  parameter : host.IsParameter t
  recorded : host.IsRecorded (.type t)

theorem Host.ParametersApart.not_hasTwoRoles {host : Host} (hapart : host.ParametersApart) (t : TypeId) :
    ¬host.HasTwoRoles t := by
  rintro ⟨hp, hd | hk⟩
  · exact hapart.not_declared hp hd
  · rw [hapart.kind_eq hp] at hk
    cases hk

namespace Finished

variable {host : Host} {settings : Settings} {global : SymbolId} {modules : List SymbolId} {q : Progress} {b : Bundle}
variable (h : Finished host settings global modules q b)
include h

/-- What a bundle names has a record, or is a type parameter that is referred to as well. -/
theorem named {id : BundleId} (hid : id ∈ b.references) :
    id ∈ b.ids ∨ ∃ t, host.HasTwoRoles t ∧ q.registry.get? (.type t) = some id ∧ q.table.slot? id = none := by
  simp only [Bundle.references, TypeExpr.references, List.mem_flatMap, List.mem_filterMap] at hid
  obtain ⟨e, he, c, hc, htarget⟩ := hid
  obtain ⟨key, hkey, hrecorded⟩ := (h.grounded_expressions he hc).target id htarget
  rcases h.settled hkey with ⟨hslot, t, rfl, hp⟩ | ⟨record, hr, rfl, -⟩
  · exact .inr ⟨t, ⟨hp, hrecorded⟩, hkey, hslot⟩
  · exact .inl (List.mem_map_of_mem hr)

/-- A bundle is sound if no type has two roles. -/
theorem sound (hroles : ∀ t, ¬host.HasTwoRoles t) : b.Sound := by
  refine ⟨h.ids_nodup, fun id hid => ?_⟩
  rcases h.named (Bundle.mem_references.2 hid) with hmem | ⟨t, ht, -⟩
  · exact hmem
  · exact absurd ht (hroles t)

end Finished

variable {host : Host} {settings : Settings} {depth : Nat} {global : SymbolId} {modules : List SymbolId} {q : Progress}
variable {b : Bundle}

/-- Where type parameters are nothing else a pass gives a sound bundle. -/
theorem sound_of_run (hapart : host.ParametersApart)
    (hrun : Walk.runFrom .start (Walk.bundle host settings depth global modules) = (.ok b, q))
    (hn : q.registry.issued < 2 ^ 32) : b.Sound ∧ b.check = .ok () := by
  have hsound := (Walk.finished_of_run hrun (Nat.le_of_lt hn)).sound hapart.not_hasTwoRoles
  obtain ⟨hnodup, hroots, -⟩ := Bundle.sound_iff.1 hsound
  exact ⟨hsound, Bundle.check_eq_ok.2 ⟨hnodup, hroots⟩⟩

/-- A bundle checks, or a type with two roles is referred to and has no record. -/
theorem bundle_check
    (hrun : Walk.runFrom .start (Walk.bundle host settings depth global modules) = (.ok b, q))
    (hn : q.registry.issued < 2 ^ 32) :
    b.check = .ok () ∨ ∃ t id, b.check = .error (.danglingReference id) ∧ host.HasTwoRoles t ∧
      q.registry.get? (.type t) = some id ∧ q.table.slot? id = none := by
  have h := Walk.finished_of_run hrun (Nat.le_of_lt hn)
  rcases b.check_cases with ⟨hok, -⟩ | ⟨id, -, hrepeated⟩ | ⟨id, herror, -, hmissing⟩
  · exact .inl hok
  · exact absurd h.ids_nodup hrepeated.not_nodup
  · have hnames := hmissing.names
    obtain ⟨-, -, -, hid, -⟩ := hmissing
    obtain ⟨t, ht, hkey, hslot⟩ := (h.named (Bundle.mem_references.2 hnames)).resolve_left hid
    exact .inr ⟨t, id, herror, ht, hkey, hslot⟩

/-- A slice of an environment with classes, namespaces and modules. -/
theorem bundle_check_nodeLike : ∃ l b q, Sample.nodeLike.loaded? = some l ∧
    Walk.runFrom .start (Walk.bundle l.host default l.depth l.global []) = (.ok b, q) ∧
      (b.check = .ok () ∨ ∃ t id, b.check = .error (.danglingReference id) ∧ l.host.HasTwoRoles t ∧
        q.registry.get? (.type t) = some id ∧ q.table.slot? id = none) := by
  obtain ⟨s, l, b, q, hl, -, hr, hn⟩ := Sample.exists_run (rfl : Sample.nodeLike.resolves = true)
  exact ⟨l, b, q, hl, hr, bundle_check hr hn⟩

namespace Snapshot

/-- An interface `Box` as the global scope, with a type parameter that is the interface `Item`, and with a member
`item` of that type. -/
def interfaceAsParameter : Snapshot where
  types := [
    ⟨⟨1⟩, {
      flags := TypeFlags.object, objectFlags := ObjectFlags.interface
      symbol? := some ⟨1⟩, typeParameters := [⟨2⟩], members := [⟨3⟩] }⟩,
    ⟨⟨2⟩, { flags := TypeFlags.object, objectFlags := ObjectFlags.interface, symbol? := some ⟨2⟩ }⟩]
  symbols := [
    ⟨⟨0⟩, { name := "globalThis", type? := some ⟨1⟩ }⟩,
    ⟨⟨1⟩, { name := "Box" }⟩,
    ⟨⟨2⟩, { name := "Item" }⟩,
    ⟨⟨3⟩, {
      name := "item", flags := SymbolFlags.property, declarations := [⟨"lib.d.ts", .empty⟩], type? := some ⟨2⟩ }⟩]
  signatures := []
  global? := some ⟨0⟩
  ambientModules := []

/-- A snapshot can load and have a bundle that does not check: the member refers to the interface by the id that it
has as a type parameter. -/
theorem bundle_check_fails : ∃ l b, interfaceAsParameter.load = .ok l ∧ l.bundle default = .ok b ∧
    b.check = .error (.danglingReference ⟨1⟩) := by
  have hrun : (match interfaceAsParameter.load with
      | .ok l => match l.bundle default with
        | .ok b => decide (b.check = .error (.danglingReference ⟨1⟩))
        | .error _ => false
      | .error _ => false) = true := by
    decide +kernel
  split at hrun
  · rename_i l hl
    split at hrun
    · rename_i b hb
      exact ⟨l, b, hl, hb, of_decide_eq_true hrun⟩
    · cases hrun
  · cases hrun

end Snapshot

end TypeBundle
