import TypeBundle.Proofs.Pass.Closure
import TypeBundle.Proofs.Walk.Revise
/-!
# What a pass leaves behind of what it refuses

A pass refuses types without a kind, conditional types and enums where it looks at them by their own structure: a pass
that gives a bundle has resolved no such type (`bundle_failsFast`). It does not look at the kind of what is
instantiated, nor of an object literal that an alias names, before it walks their shapes. These are told by flags of
their own, and a type that has such flags besides those of a conditional type is recorded as an interface
(`bundle_records_conditional`).
-/

namespace TypeBundle

namespace HostType

/-- Bundles have a form for types of this kind. -/
def IsSupported (t : HostType) : Prop := ∃ kind, t.kind = .ok kind ∧ kind ≠ .conditional ∧ kind ≠ .enum

/-- The type is a class, an interface, an instantiation or an object literal. -/
def IsObject (t : HostType) : Prop := t.kind = .ok .nominal ∨ t.kind = .ok .reference ∨ t.kind = .ok .anonymous

theorem IsObject.isSupported {t : HostType} (h : t.IsObject) : t.IsSupported := by
  rcases h with h | h | h <;> exact ⟨_, h, by decide⟩

end HostType

namespace Host

variable (host : Host)

/-- A pass resolves the type by its own structure: if the type is made a conditional type, the pass fails for it. -/
def Resolves (settings : Settings) (depth : Nat) (global : SymbolId) (modules : List SymbolId) (t : TypeId) : Prop :=
  (Walk.runFrom .start (Walk.bundle (host.trap (· = t)) settings depth global modules)).1 =
    .error (.failed (.unsupported (.conditional t)))

/-- The type is instantiated, and not as a tuple. -/
def IsTarget (t : TypeId) : Prop :=
  ∃ u, (host.type u).kind = .ok .reference ∧ (host.type u).target? = some t ∧ ¬host.IsTuple t

/-- The record with the id is that of the type, or that of an alias that stands for the type as it is. -/
def HasRecord (q : Progress) (t : TypeId) (id : BundleId) : Prop :=
  q.registry.get? (.type t) = some id ∨
    ∃ s, q.registry.get? (.alias_ s) = some id ∧ (host.symbol s).declaredType? = some t ∧ ¬host.NamesOther s t

/-- The types whose shapes are walked without a look at their kind are objects. -/
structure ExpandsObjects : Prop where
  targets : ∀ t, host.IsTarget t → (host.type t).IsObject
  literals : ∀ s t, host.IsLiteralOf s t → (host.type t).IsObject

end Host

/-- What a bundle has to say of types that bundles have no form for. -/
structure FailsFast (host : Host) (settings : Settings) (depth : Nat) (global : SymbolId) (modules : List SymbolId)
    (q : Progress) (b : Bundle) : Prop where
  /-- No such type has been resolved by its own structure. -/
  resolved : ∀ t, host.Resolves settings depth global modules t → (host.type t).IsSupported
  /-- An alias stands for no such type, unless it names it as an object literal and shares its record with it. -/
  aliases : ∀ s id t, q.registry.get? (.alias_ s) = some id → (host.symbol s).declaredType? = some t →
    ¬host.NamesOther s t →
      (host.type t).IsSupported ∨ host.IsLiteralOf s t ∧ q.registry.get? (.type t) = some id
  /-- A record with a shape is that of an object, of a type that is instantiated, or of a literal that an alias
  names. -/
  shapes : ∀ record ∈ b.records, ∀ shape, record.body = .shape shape → (∃ t, host.HasRecord q t record.id) ∧
    ∀ t, host.HasRecord q t record.id → (host.type t).IsObject ∨ host.IsTarget t ∨ ∃ s, host.IsLiteralOf s t
  /-- If the latter are objects as well, aliases stand for no such type and shapes are only those of objects. -/
  objects : host.ExpandsObjects →
    (∀ s id t, q.registry.get? (.alias_ s) = some id → (host.symbol s).declaredType? = some t →
      ¬host.NamesOther s t → (host.type t).IsSupported) ∧
    ∀ record ∈ b.records, ∀ shape, record.body = .shape shape →
      ∀ t, host.HasRecord q t record.id → (host.type t).IsObject

variable {host : Host} {settings : Settings} {depth : Nat} {global : SymbolId} {modules : List SymbolId}
variable {q : Progress} {b : Bundle}

/-! ## Types that are resolved -/

/-- A type that bundles have no form for has a flaw. -/
theorem Host.isSupported_of_typeFlaw {t : TypeId} (h : host.typeFlaw? t = none) : (host.type t).IsSupported := by
  cases hk : (host.type t).kind with
  | error fault => simp [typeFlaw?, hk] at h
  | ok kind =>
    refine ⟨kind, hk, ?_, ?_⟩
    · rintro rfl
      simp [typeFlaw?, hk] at h
    · rintro rfl
      simp [typeFlaw?, hk] at h

/-- A pass that resolves a type fails if there is something wrong with it. -/
theorem Host.Resolves.typeFlaw?_eq_none {t : TypeId} (h : host.Resolves settings depth global modules t)
    (hrun : Walk.runFrom .start (Walk.bundle host settings depth global modules) = (.ok b, q)) :
    host.typeFlaw? t = none := by
  by_contra hflaw
  have hbad : ∀ u, u = t → host.typeFlaw? u ≠ none := by
    rintro u rfl
    exact hflaw
  have hok := Walk.runFrom_eq_ok hrun
  rcases Walk.bundle_trap hbad settings depth global modules .start with ⟨e, q', -, herror⟩ | heq
  · rw [hok] at herror
    cases herror
  · rw [hok] at heq
    simp [Resolves, Walk.runFrom, EStateM.run, heq] at h

/-! ## Records with a shape -/

theorem TypeExpr.mention_ne_shape (id : BundleId) (es : List TypeExpr) (shape : Shape TypeExpr) :
    mention id es ≠ .shape shape := by
  unfold mention
  split <;> simp

/-- A type that is written by an alias is mentioned. -/
theorem Represents.alias_eq_none {t : TypeId} {shape : Shape TypeExpr}
    (h : Represents host q .written t (.shape shape)) : (host.type t).alias? = none := by
  generalize he : TypeExpr.shape shape = e at h
  cases h with
  | alias_ _ _ _ => exact absurd he.symm (TypeExpr.mention_ne_shape _ _ _)
  | bare ha _ => exact ha

/-- By its own structure only an object literal is a shape. -/
theorem Represents.kind_of_shape {t : TypeId} {shape : Shape TypeExpr} (h : Represents host q .bare t (.shape shape)) :
    (host.type t).kind = .ok .anonymous := by
  generalize he : TypeExpr.shape shape = e at h
  cases h with
  | constant hc =>
    obtain ⟨_, _, rfl⟩ := HostType.constant_eq hc
    cases he
  | instantiation _ _ _ _ _ => exact absurd he.symm (TypeExpr.mention_ne_shape _ _ _)
  | literalShape hk _ _ _ => exact hk
  | _ => cases he

namespace Finished

variable (h : Finished host settings global modules q b) {record : Record} (hrecord : record ∈ b.records)
include h

theorem isSupported_of_alias {s : SymbolId} {id : BundleId} {t : TypeId} (hs : q.registry.get? (.alias_ s) = some id)
    (ht : (host.symbol s).declaredType? = some t) (hnames : ¬host.NamesOther s t) :
    (host.type t).IsSupported ∨ host.IsLiteralOf s t ∧ q.registry.get? (.type t) = some id := by
  obtain ⟨record, -, hid, hrep⟩ := h.recorded_alias hs
  obtain rfl : id = record.id := Option.some.inj (hs.symm.trans hid)
  rcases (hrep.body ht).of_not_namesOther hnames with ⟨hl, hshared, -⟩ | ⟨-, hrep⟩
  · exact .inr ⟨hl, hshared⟩
  · exact .inl (Host.isSupported_of_typeFlaw (typeFlaw_of_represents hrep))

include hrecord

theorem exists_hasRecord {shape : Shape TypeExpr} (hshape : record.body = .shape shape) :
    ∃ t, host.HasRecord q t record.id := by
  obtain ⟨key, hkey⟩ := h.exists_identity hrecord
  cases key with
  | type t => exact ⟨t, .inl hkey⟩
  | alias_ s =>
    obtain ⟨t, ht, hbody⟩ := (h.represents hrecord hkey).exists_body
    refine ⟨t, .inr ⟨s, hkey, ht, fun hnames => ?_⟩⟩
    have hrep := hbody.of_namesOther hnames
    rw [hshape] at hrep
    simp [Host.NamesOther, hrep.alias_eq_none] at hnames

theorem expanded_of_shape {shape : Shape TypeExpr} (hshape : record.body = .shape shape) {t : TypeId}
    (ht : host.HasRecord q t record.id) :
    (host.type t).IsObject ∨ host.IsTarget t ∨ ∃ s, host.IsLiteralOf s t := by
  rcases ht with ht | ⟨s, hs, hdeclared, hnames⟩
  · cases h.represents hrecord ht with
    | declaration hd _ _ => exact hd.imp .inl .inl
    | literal hk _ _ => exact .inl (.inr (.inr hk))
    | shared hl _ _ => exact .inr (.inr ⟨_, hl⟩)
  · rcases ((h.represents hrecord hs).body hdeclared).of_not_namesOther hnames with ⟨hl, -⟩ | ⟨-, hrep⟩
    · exact .inr (.inr ⟨s, hl⟩)
    · have hrep : Represents host q .bare t (.shape shape) := hshape ▸ hrep
      exact .inl (.inr (.inr hrep.kind_of_shape))

end Finished

/-! ## The theorem -/

/-- A pass that gives a bundle has refused what bundles have no form for, wherever it asked for the kind of a type. -/
theorem bundle_failsFast (hrun : Walk.runFrom .start (Walk.bundle host settings depth global modules) = (.ok b, q))
    (hn : q.registry.issued < 2 ^ 32) : FailsFast host settings depth global modules q b := by
  have h := Walk.finished_of_run hrun (Nat.le_of_lt hn)
  constructor
  case resolved => exact fun t ht => Host.isSupported_of_typeFlaw (ht.typeFlaw?_eq_none hrun)
  case aliases => exact fun s id t hs ht hnames => h.isSupported_of_alias hs ht hnames
  case shapes =>
    intro record hrecord shape hshape
    exact ⟨h.exists_hasRecord hrecord hshape, fun t ht => h.expanded_of_shape hrecord hshape ht⟩
  case objects =>
    intro hobjects
    constructor
    · intro s id t hs ht hnames
      rcases h.isSupported_of_alias hs ht hnames with hsupported | ⟨hl, -⟩
      · exact hsupported
      · exact (hobjects.literals s t hl).isSupported
    · intro record hrecord shape hshape t ht
      rcases h.expanded_of_shape hrecord hshape ht with hobject | htarget | ⟨s, hl⟩
      · exact hobject
      · exact hobjects.targets t htarget
      · exact hobjects.literals s t hl

/-- Aliases of a tuple, of a function and of a literal that contains itself. -/
theorem bundle_failsFast_aliases : ∃ l b q, Sample.aliases.loaded? = some l ∧
    Walk.runFrom .start (Walk.bundle l.host default l.depth l.global []) = (.ok b, q) ∧
      FailsFast l.host default l.depth l.global [] q b := by
  obtain ⟨s, l, b, q, hl, -, hrun, hn⟩ := Sample.exists_run (rfl : Sample.aliases.resolves = true)
  exact ⟨l, b, q, hl, hrun, bundle_failsFast hrun hn⟩

namespace Snapshot

/-- A conditional type as the target of an instantiation, which is the type of the global scope. -/
def conditionalTarget : Snapshot where
  types := [
    ⟨⟨1⟩, { flags := TypeFlags.object, objectFlags := ObjectFlags.reference, target? := some ⟨2⟩ }⟩,
    ⟨⟨2⟩, { flags := TypeFlags.conditional, symbol? := some ⟨1⟩ }⟩]
  symbols := [⟨⟨0⟩, { name := "globalThis", type? := some ⟨1⟩ }⟩, ⟨⟨1⟩, { name := "Either" }⟩]
  signatures := []
  global? := some ⟨0⟩
  ambientModules := []

/-- What a pass stops for. -/
def stop? {α : Type} : Except Stop α → Option Stop
  | .ok _ => none
  | .error e => some e

theorem eq_error_of_stop? {α : Type} {e : Stop} {answer : Except Stop α} (h : stop? answer = some e) :
    answer = .error e := by
  cases answer with
  | ok a => cases h
  | error e' => exact congrArg _ (Option.some.inj h)

/-- Whether the expression is a shape. -/
def isShape : TypeExpr → Bool
  | .shape _ => true
  | _ => false

theorem exists_of_isShape {x : TypeExpr} (h : isShape x = true) : ∃ shape, x = .shape shape := by
  cases x with
  | shape shape => exact ⟨shape, rfl⟩
  | _ => cases h

/-- A bundle can have the record of an interface for a conditional type. -/
theorem bundle_records_conditional : ∃ l b q, conditionalTarget.load = .ok l ∧
    Walk.runFrom .start (Walk.bundle l.host default l.depth l.global []) = (.ok b, q) ∧
      l.host.Resolves default l.depth l.global [] ⟨1⟩ ∧ (l.host.type ⟨1⟩).kind = .ok .reference ∧
        (l.host.type ⟨1⟩).target? = some ⟨2⟩ ∧ ¬l.host.IsTuple ⟨2⟩ ∧ (l.host.type ⟨2⟩).kind = .ok .conditional ∧
          ∃ record ∈ b.records, l.host.HasRecord q ⟨2⟩ record.id ∧ ∃ shape, record.body = .shape shape := by
  obtain ⟨l, hl⟩ : ∃ l, conditionalTarget.load = .ok l := by
    have hload : conditionalTarget.load.toBool = true := by decide +kernel
    cases h : conditionalTarget.load with
    | ok l => exact ⟨l, rfl⟩
    | error e => rw [h] at hload; cases hload
  have htypes : (conditionalTarget.load.toOption.any fun l =>
      decide ((l.host.type ⟨1⟩).kind = .ok .reference) && decide ((l.host.type ⟨1⟩).target? = some ⟨2⟩) &&
        !(l.host.type ⟨2⟩).objectFlags.contains ObjectFlags.tuple &&
        decide ((l.host.type ⟨2⟩).kind = .ok .conditional)) = true := by
    decide +kernel
  have hresolves : (conditionalTarget.load.toOption.any fun l =>
      decide (stop? (Walk.runFrom .start (Walk.bundle (l.host.trap (· = ⟨1⟩)) default l.depth l.global [])).1 =
        some (.failed (.unsupported (.conditional ⟨1⟩))))) = true := by
    decide +kernel
  have hrun : (conditionalTarget.load.toOption.any fun l =>
      (Walk.runFrom .start (Walk.bundle l.host default l.depth l.global [])).1.toOption.any fun b =>
        b.records.any fun r =>
          decide ((Walk.runFrom .start (Walk.bundle l.host default l.depth l.global [])).2.registry.get? (.type ⟨2⟩) =
            some r.id) && isShape r.body) = true := by
    decide +kernel
  simp only [hl, Except.toOption, Option.any_some] at htypes hresolves hrun
  simp only [Bool.and_eq_true, decide_eq_true_eq, Bool.not_eq_true'] at htypes hresolves
  obtain ⟨⟨⟨hkind, htarget⟩, htuple⟩, hconditional⟩ := htypes
  have hn : ¬l.host.IsTuple ⟨2⟩ := by simp [Host.IsTuple, htuple]
  cases hb : Walk.runFrom .start (Walk.bundle l.host default l.depth l.global []) with
  | mk answer q =>
    rw [hb] at hrun
    cases answer with
    | error e => cases hrun
    | ok b =>
      obtain ⟨record, hrecord, hcheck⟩ := List.any_eq_true.1 hrun
      rw [Bool.and_eq_true, decide_eq_true_eq] at hcheck
      obtain ⟨hid, hbody⟩ := hcheck
      exact ⟨l, b, q, hl, hb, eq_error_of_stop? hresolves, hkind, htarget, hn, hconditional, record, hrecord, .inl hid,
        exists_of_isShape hbody⟩

end Snapshot

end TypeBundle
