import Std.Data.TreeMap
import TypeBundle.Host.Basic
import TypeBundle.TypeExpr.Basic
/-!
# Identities and their ids

During a pass every class, interface, object literal, alias and type parameter of the host gets an id
when it is met first, before anything inside it is looked at. An identity that has an id already has
been started; this is what ends cycles. An id can also be shared: `bind` gives an identity the id of
another.
-/

namespace TypeBundle

/-- What an id is handed out for. -/
inductive Identity where
  | type (id : TypeId)
  | alias_ (id : SymbolId)
deriving DecidableEq, Repr

/-- The ids handed out so far. -/
structure Registry where
  types : Std.TreeMap UInt64 BundleId
  aliases : Std.TreeMap UInt64 BundleId
  /-- How many ids have been handed out. -/
  issued : Nat

namespace Registry

def empty : Registry := ⟨∅, ∅, 0⟩

instance : Inhabited Registry := ⟨empty⟩

/-- The next id to hand out. -/
def next (r : Registry) : BundleId := ⟨.ofNat r.issued⟩

/-- The id of an identity. -/
def get? (r : Registry) : Identity → Option BundleId
  | .type id => r.types[id.val]?
  | .alias_ id => r.aliases[id.val]?

/-- Gives an identity an id, unless it has one. -/
def bind (r : Registry) (key : Identity) (id : BundleId) : Registry :=
  match key with
  | .type t => { r with types := r.types.insertIfNew t.val id }
  | .alias_ s => { r with aliases := r.aliases.insertIfNew s.val id }

/-- The id of an identity, a new one if it has none, and whether it had been started. -/
def reserve (r : Registry) (key : Identity) : (BundleId × Bool) × Registry :=
  match r.get? key with
  | some id => ((id, true), r)
  | none => ((r.next, false), { r.bind key r.next with issued := r.issued + 1 })

/-- How many identities have an id. -/
def size (r : Registry) : Nat := r.types.size + r.aliases.size

/-! ## What the operations do to the ids -/

theorem get?_bind (r : Registry) (key other : Identity) (id : BundleId) :
    (r.bind key id).get? other = if other = key then some ((r.get? key).getD id) else r.get? other := by
  cases key <;> cases other <;>
    simp only [bind, get?, Std.TreeMap.getElem?_insertIfNew, Identity.type.injEq, Identity.alias_.injEq,
      reduceCtorEq, if_false, Std.LawfulEqCmp.compare_eq_iff_eq]
  all_goals
    rename_i a b
    by_cases h : b = a
    · subst h
      simp only [if_true]
      by_cases hm : b.val ∈ r.types <;> by_cases hn : b.val ∈ r.aliases <;>
        simp [hm, hn]
    · have : a.val ≠ b.val := fun e => h (by cases a; cases b; simp_all)
      simp [h, this]

theorem reserve_of_some {r : Registry} {key : Identity} {id : BundleId} (h : r.get? key = some id) :
    r.reserve key = ((id, true), r) := by
  simp [reserve, h]

theorem get?_reserve_of_none {r : Registry} {key : Identity} (h : r.get? key = none) (other : Identity) :
    (r.reserve key).2.get? other = if other = key then some r.next else r.get? other := by
  have := get?_bind r key other r.next
  simp only [h, Option.getD_none] at this
  simp only [reserve, h]
  rw [← this]
  cases other <;> rfl

end Registry

end TypeBundle
