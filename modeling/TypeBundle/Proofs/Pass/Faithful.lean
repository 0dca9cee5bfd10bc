import TypeBundle.Proofs.Pass.Finished
import TypeBundle.Proofs.Snapshot.Regular
/-!
# A bundle is faithful to its host

Read through the ids that a pass has handed out, every type of a bundle says what the host says
(`bundle_faithful`): the roots represent the types of their symbols, and the record of an identity
represents that identity. What has been said about an identity before its record was finished, and while
the rest of the bundle was under construction, is still so in the end.
-/

namespace TypeBundle

/-- The declared type of an alias is an object literal for the alias just if it is of that kind. -/
def Host.LiteralsAgree (host : Host) : Prop :=
  ∀ s d, (host.symbol s).declaredType? = some d →
    (Walk.isObjectLiteral (host.type d) = true ↔ (host.type d).kind = .ok .anonymous)

/-- The bundle says about the host what is so; `q` tells what its ids were handed out for. -/
structure Faithful (host : Host) (settings : Settings) (global : SymbolId) (modules : List SymbolId) (q : Progress)
    (b : Bundle) : Prop where
  global : RepresentsRoot host q global b.globalType
  modules : List.Forall₂ (RepresentsModule host q) modules b.ambientModules
  /-- The records that stand behind ids are those of the bundle. -/
  records : ∀ record, record ∈ b.records ↔ q.table.get? record.id = some record
  /-- Every record was made for an identity. -/
  identity : ∀ record ∈ b.records, ∃ key, q.registry.get? key = some record.id
  /-- The record that was made for an identity represents it. -/
  represents : ∀ record ∈ b.records, ∀ key, q.registry.get? key = some record.id →
    RepresentsRecord host settings q key record
  /-- What an alias stands for is its declared type, as another alias writes it or by its own structure. -/
  aliasBody : ∀ record ∈ b.records, ∀ s, q.registry.get? (.alias_ s) = some record.id →
    ∃ d, (host.symbol s).declaredType? = some d ∧ (host.NamesOther s d → Represents host q .written d record.body) ∧
      (¬host.NamesOther s d → Represents host q .bare d record.body)
  /-- Only type parameters have an id and no record. -/
  recorded : ∀ key id, q.registry.get? key = some id →
    (∃ t, key = .type t ∧ host.IsParameter t) ∨ ∃ record ∈ b.records, record.id = id
  /-- Only an alias and the literal that it names have one record. -/
  shared : ∀ key other id, q.registry.get? key = some id → q.registry.get? other = some id →
    key = other ∨ host.Shares key other

variable {host : Host} {settings : Settings} {global : SymbolId} {modules : List SymbolId}

/-- The body of the record of an alias represents its declared type, also where both share the record. -/
theorem Finished.represents_aliasBody {q : Progress} {b : Bundle} (h : Finished host settings global modules q b)
    (hl : host.LiteralsAgree) {record : Record} (hr : record ∈ b.records) {s : SymbolId}
    (hs : q.registry.get? (.alias_ s) = some record.id) :
    ∃ d, (host.symbol s).declaredType? = some d ∧ (host.NamesOther s d → Represents host q .written d record.body) ∧
      (¬host.NamesOther s d → Represents host q .bare d record.body) := by
  obtain ⟨d, hd, hbody⟩ := (h.represents hr hs).exists_body
  refine ⟨d, hd, hbody.of_namesOther, fun hnames => ?_⟩
  rcases hbody.of_not_namesOther hnames with ⟨hlit, hid, b, hshape, -⟩ | ⟨-, hrep⟩
  · have hget := (h.mem_records record).1 hr
    rw [hshape]
    exact .literalShape ((hl s d hd).1 hlit.2.2) hid hget hshape
  · exact hrep

/-- Every pass that gives a bundle is faithful to its host, if its ids do not run out. -/
theorem bundle_faithful {depth : Nat} {q : Progress} {b : Bundle} (hl : host.LiteralsAgree)
    (hrun : Walk.runFrom .start (Walk.bundle host settings depth global modules) = (.ok b, q))
    (hn : q.registry.issued < 2 ^ 32) : Faithful host settings global modules q b := by
  have h := Walk.finished_of_run hrun (Nat.le_of_lt hn)
  exact
    { global := h.global
      modules := h.modules
      records := h.mem_records
      identity := fun record hr => h.exists_identity hr
      represents := fun record hr key => h.represents hr
      aliasBody := fun record hr s => h.represents_aliasBody hl hr
      recorded := fun key id hkey => (h.settled hkey).imp And.right fun ⟨record, hr, hid, _⟩ => ⟨record, hr, hid⟩
      shared := fun key other id => h.consistent.numbered.shared }

/-- Aliases of a tuple, of a function and of a literal that contains itself. -/
theorem bundle_faithful_aliases : ∃ l b q, Sample.aliases.loaded? = some l ∧
    Walk.runFrom .start (Walk.bundle l.host default l.depth l.global []) = (.ok b, q) ∧
      Faithful l.host default l.global [] q b := by
  obtain ⟨s, l, b, q, hl, hload, hr, hn⟩ := Sample.exists_run (rfl : Sample.aliases.resolves = true)
  have hcheck : Sample.aliases.loaded?.all (·.isRegular) = true := by decide +kernel
  rw [hl] at hcheck
  have hregular := Snapshot.regular_of_isRegular hload hcheck
  exact ⟨l, b, q, hl, hr, bundle_faithful (fun _ d _ => hregular.isObjectLiteral_iff d) hr hn⟩

end TypeBundle
