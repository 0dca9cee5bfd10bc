import TypeBundle.Proofs.Walk.Expanding
/-!
# The journal of a walk

A journal lists what a walk has done: the ids that it has handed out, the records that it has begun and
finished, the ids that it has let others share, and the types and aliases of which it has begun the expansion.
The progress of the walk can be read off the journal (`replay`).

A journal is a ledger as well, so the rules of a walk can be followed with a journal in place of the progress.
`resolve_traces` says that this makes no difference.
-/

namespace TypeBundle

/-- What happens in a walk. -/
inductive Event where
  /-- A type parameter gets an id. -/
  | issued (t : TypeId) (id : BundleId)
  /-- An identity gets an id, and a slot for its record. -/
  | began (key : Identity) (id : BundleId)
  /-- The expansion of an identity begins: of a type its shape, of an alias its record. -/
  | expanded (key : Identity)
  /-- A literal gets the id of the alias that names it. -/
  | bound (t : TypeId) (id : BundleId)
  /-- A record is put in its slot. -/
  | ended (record : Record)

namespace Event

/-- The identity that the event gives an id and a slot. -/
def begun? : Event → Option Identity
  | began key _ => some key
  | _ => none

/-- The identity that the event gives an id, its own or a shared one. -/
def registered? : Event → Option Identity
  | issued t _ => some (.type t)
  | began key _ => some key
  | bound t _ => some (.type t)
  | _ => none

/-- The identity whose expansion begins. -/
def expanded? : Event → Option Identity
  | expanded key => some key
  | _ => none

/-- The id of the record that the event puts in its slot. -/
def ended? : Event → Option BundleId
  | ended record => some record.id
  | _ => none

end Event

/-- The progress after an event. -/
def Progress.after (p : Progress) : Event → Progress
  | .issued t _ => { p with registry := (p.registry.reserve (.type t)).2 }
  | .began key _ => p.open_ key
  | .expanded _ => p
  | .bound t id => p.share (.type t) id
  | .ended record => p.close record

/-- The progress after the events of a journal, the latest of which comes first. -/
def replay : List Event → Progress
  | [] => .start
  | e :: past => (replay past).after e

/-- A walk that keeps a journal. -/
abbrev Journaled (α : Type) := WalkIn (List Event) α

namespace Journaled

/-- Notes an event. -/
def note (e : Event) : Journaled Unit := modify fun past => e :: past

/-- Who has which id is read off the journal. -/
instance : Ledger (List Event) where
  issue t past :=
    let registry := (replay past).registry
    match registry.get? (.type t) with
    | some id => .ok id past
    | none => .ok registry.next (.issued t registry.next :: past)
  open_ key past :=
    let registry := (replay past).registry
    match registry.get? key with
    | some id => .ok (id, true) past
    | none => .ok (registry.next, false) (.began key registry.next :: past)
  isRegistered t past := .ok ((replay past).registry.get? (.type t)).isSome past
  share t id := note (.bound t id)
  expand key := note (.expanded key)
  close record := note (.ended record)

section

variable {past : List Event} {t : TypeId} {key : Identity} {id : BundleId}

theorem issue_of_some (h : (replay past).registry.get? (.type t) = some id) :
    (Ledger.issue t : Journaled BundleId) past = .ok id past := by
  simp only [Ledger.issue, h]

theorem issue_of_none (h : (replay past).registry.get? (.type t) = none) :
    (Ledger.issue t : Journaled BundleId) past =
      .ok (replay past).registry.next (.issued t (replay past).registry.next :: past) := by
  simp only [Ledger.issue, h]

theorem open_of_some (h : (replay past).registry.get? key = some id) :
    (Ledger.open_ key : Journaled (BundleId × Bool)) past = .ok (id, true) past := by
  simp only [Ledger.open_, h]

theorem open_of_none (h : (replay past).registry.get? key = none) :
    (Ledger.open_ key : Journaled (BundleId × Bool)) past =
      .ok ((replay past).registry.next, false) (.began key (replay past).registry.next :: past) := by
  simp only [Ledger.open_, h]

end

end Journaled

end TypeBundle
