import TypeBundle.Proofs.Pass.Finished
import TypeBundle.Proofs.Walk.Akin
/-!
# Occurrences of aliases

A type that is written by an alias becomes a reference to the record of the alias, and what it looks like by itself is
not asked for, except where it is what the alias declares, is instantiated, or is a type parameter. Two hosts that say
different things about the structure of other such types give the same bundle, or fail alike
(`bundle_of_occurrences`).
-/

namespace TypeBundle

namespace Host

/-- The types are written by an alias that declares another type; nothing instantiates them, and they stand in no list
of type parameters. -/
structure OnlyOccur (host : Host) (Occurrence : TypeId → Prop) : Prop where
  alias? : ∀ t, Occurrence t → ∃ s, (host.type t).alias? = some s ∧ (host.symbol s).declaredType? ≠ some t
  target : ∀ t, Occurrence t → ∀ u, (host.type u).target? ≠ some t
  parameter : ∀ t, Occurrence t → ¬host.InParameterList t

/-- The hosts say the same, except that they agree about these types only in how an alias writes them. -/
structure SameAliases (Occurrence : TypeId → Prop) (host host' : Host) : Prop where
  symbol : host'.symbol = host.symbol
  signature : host'.signature = host.signature
  alias? : ∀ t, (host'.type t).alias? = (host.type t).alias?
  aliasArguments : ∀ t, (host'.type t).aliasArguments = (host.type t).aliasArguments
  others : ∀ t, ¬Occurrence t → host'.type t = host.type t

/-- The host with types that are conditional, apart from the alias by which they are written. -/
def withConditionals (host : Host) (Occurrence : TypeId → Prop) [DecidablePred Occurrence] : Host :=
  { host with type := fun t =>
      if Occurrence t then
        { flags := TypeFlags.conditional
          alias? := (host.type t).alias?
          aliasArguments := (host.type t).aliasArguments }
      else host.type t }

theorem sameAliases_withConditionals (host : Host) (Occurrence : TypeId → Prop) [DecidablePred Occurrence] :
    host.SameAliases Occurrence (host.withConditionals Occurrence) := by
  refine ⟨rfl, rfl, fun t => ?_, fun t => ?_, fun t ht => ?_⟩
  · simp only [withConditionals]
    split <;> rfl
  · simp only [withConditionals]
    split <;> rfl
  · simp [withConditionals, ht]

/-- The structure of a type that only occurs is not seen. -/
theorem OnlyOccur.akin {host host' : Host} {Occurrence : TypeId → Prop} (ho : host.OnlyOccur Occurrence)
    (h : host.SameAliases Occurrence host') (settings : Settings) :
    host.Akin .none settings (¬Occurrence ·) host' where
  signature := h.signature
  type := h.others
  alias? := h.alias?
  aliasArguments := h.aliasArguments
  seen_bare t hnone ht := by
    obtain ⟨s, hs, -⟩ := ho.alias? t ht
    cases hnone.symm.trans hs
  seen_declared s t hdeclared hnames ht := by
    -- An alias that declares the type does not write it, so the type is written by another.
    obtain ⟨a, ha, hne⟩ := ho.alias? t ht
    have has : a ≠ s := fun has => hne (has ▸ hdeclared)
    exact hnames (by simp [NamesOther, ha, has])
  seen_target t u _ hu ht := ho.target u ht t hu
  seen_parameter t hlist ht := ho.parameter t ht hlist
  symbol s := by rw [h.symbol]
  alias_files t s _ := by rw [h.symbol]
  symbol_files t s _ _ := by rw [h.symbol]
  parameter g s _ := by rw [h.symbol]
  member t owner? _ _ s _ := by
    rw [h.symbol]
    exact .refl _

end Host

/-- The structure of types that are only written by an alias makes no difference to a pass. -/
theorem bundle_of_occurrences {host host' : Host} {settings : Settings} {Occurrence : TypeId → Prop} {depth : Nat}
    {global : SymbolId} {modules : List SymbolId} (ho : host.OnlyOccur Occurrence)
    (h : host.SameAliases Occurrence host') :
    Walk.answer (Walk.bundle host' settings depth global modules) =
      Walk.answer (Walk.bundle host settings depth global modules) :=
  (Walk.bundle_akin (ho.akin h settings) depth (by rw [h.symbol]) fun s _ => by rw [h.symbol]).answer_eq

namespace Sample

/-- What stands for the aliases of `aliasOfAlias`: what `Crate` declares, written as `Boxed`, and the types of three
variables. -/
def occurrences : List TypeId := [⟨7⟩, ⟨8⟩, ⟨9⟩, ⟨10⟩]

theorem onlyOccur_occurrences {l : Snapshot.Loaded} (h : aliasOfAlias.loaded? = some l) :
    l.host.OnlyOccur (· ∈ occurrences) := by
  obtain ⟨s, hs, hload⟩ := load_of_loaded h
  have halias : (aliasOfAlias.loaded?.any fun l => occurrences.all fun t =>
      (l.host.type t).alias?.any fun s => decide ((l.host.symbol s).declaredType? ≠ some t)) = true := by
    decide +kernel
  have hentries : (aliasOfAlias.snapshot?.any fun s => occurrences.all fun t =>
      (s.types.all fun e => decide (e.facts.target? ≠ some t ∧ t ∉ e.facts.typeParameters)) &&
        (s.symbols.all fun e => decide (t ∉ e.facts.aliasParameters)) &&
        s.signatures.all fun e => decide (t ∉ e.facts.typeParameters)) = true := by
    decide +kernel
  simp only [h, Option.any_some, List.all_eq_true, Option.any_eq_true, decide_eq_true_eq] at halias
  simp only [hs, Option.any_some, List.all_eq_true, Bool.and_eq_true, decide_eq_true_eq] at hentries
  refine ⟨fun t ht => halias t ht, fun t ht u => ?_, fun t ht => ?_⟩
  · have htype := (hentries t ht).1.1
    exact (Snapshot.forall_type hload (P := fun _ x => x.target? ≠ some t) (fun _ => by simp [default])
      (fun e he => (htype e he).1) u)
  · obtain ⟨⟨htypes, hsymbols⟩, hsignatures⟩ := hentries t ht
    rintro (⟨u, hu⟩ | ⟨x, hx⟩ | ⟨g, hg⟩)
    · exact Snapshot.forall_type hload (P := fun _ x => t ∉ x.typeParameters) (fun _ => by simp [default])
        (fun e he => (htypes e he).2) u hu
    · exact Snapshot.forall_symbol hload (P := fun _ x => t ∉ x.aliasParameters) (fun _ => by simp [default])
        hsymbols x hx
    · exact Snapshot.forall_signature hload (P := fun _ x => t ∉ x.typeParameters) (fun _ _ => by simp [default])
        hsignatures g hg

end Sample

/-- Four occurrences of aliases, one of them what another alias declares, may be conditional types. -/
theorem bundle_of_occurrences_aliasOfAlias : ∃ l b, Sample.aliasOfAlias.loaded? = some l ∧
    Walk.answer (Walk.bundle l.host default l.depth l.global []) = .ok b ∧
      Walk.answer (Walk.bundle (l.host.withConditionals (· ∈ Sample.occurrences)) default l.depth l.global []) =
        .ok b := by
  obtain ⟨s, l, b, q, hl, hload, hrun, -⟩ :=
    Sample.exists_run (rfl : Sample.aliasOfAlias.resolves = true)
  have hb : Walk.answer (Walk.bundle l.host default l.depth l.global []) = .ok b := congrArg Prod.fst hrun
  exact ⟨l, b, hl, hb, (bundle_of_occurrences (Sample.onlyOccur_occurrences hl)
    (l.host.sameAliases_withConditionals _)).trans hb⟩

end TypeBundle
