import TypeBundle.Bundle.Wire
import TypeBundle.Proofs.Json.Tree
import TypeBundle.Proofs.TypeExpr.Wire
/-!
# Bundles are read as they were written

A bundle of readable expressions that nests no deeper than a text may is read from its own text, and whatever text is
read stands for such a bundle (`read?_write_exact`). Expressions are read one by one, so what reading makes of them is
what it makes of the bundle (`read?_write`).
-/

namespace TypeBundle

open Json (Value Tree Number spelled)
open Document

variable {limit : Nat}

/-! ## Expressions in place of others -/

def Record.map (f : TypeExpr → TypeExpr) (r : Record) : Record :=
  { r with aliasTypeParameters? := r.aliasTypeParameters?.map (·.map (·.map f))
           typeParameters? := r.typeParameters?.map (·.map (·.map f))
           body := f r.body }

def AmbientModule.map (f : TypeExpr → TypeExpr) (m : AmbientModule) : AmbientModule := { m with type := f m.type }

/-- The bundle with other expressions in place of its own. -/
def Bundle.map (f : TypeExpr → TypeExpr) (b : Bundle) : Bundle :=
  { globalType := f b.globalType
    ambientModules := b.ambientModules.map (·.map f)
    records := b.records.map (·.map f) }

/-- The expressions of a record. -/
def Record.expressions (r : Record) : List TypeExpr := r.body :: r.generics.filterMap (·.constraint?)

theorem generics_map_id (gs : List (Generic TypeExpr)) : gs.map (·.map id) = gs := by
  simp [Generic.map]

theorem Bundle.map_id (b : Bundle) : b.map id = b := by
  simp [Bundle.map, Record.map, AmbientModule.map, generics_map_id]

/-! ## Expressions -/

/-- An expression is read as another as soon as it may nest as deep as it does. -/
def TypeExpr.ReadAs (e e' : TypeExpr) : Prop :=
  ∀ limit, e.encode.nesting ≤ limit → TypeExpr.ofTree? limit (spelled e.encode) = some e'

theorem id?_spelled (id : BundleId) : TypeExpr.id? (spelled (TypeExpr.encodeId id)) = some id := by
  have hread : (Number.ofUInt32 id.val).numeral.value? = some (.ofUInt32 id.val) := Number.readsBack_integer _ _
  have hnat : Document.nat? (spelled (TypeExpr.encodeId id)) = some id.val.toNat := by
    simp only [spelled, TypeExpr.encodeId, Tree.ofValue, Document.nat?, hread]
    rfl
  have hlt := id.val.toNat_lt
  simp [TypeExpr.id?, word32?, hnat, hlt]

theorem generic?_spelled {g : Generic TypeExpr} {f : TypeExpr → TypeExpr} (hf : ∀ c ∈ g.constraint?, c.ReadAs (f c))
    (h : (TypeExpr.encodeGeneric g).nesting ≤ limit + 1) :
    TypeExpr.generic? (TypeExpr.ofTree? limit) (spelled (TypeExpr.encodeGeneric g)) = some (g.map f) := by
  obtain ⟨id, constraint?⟩ := g
  have hid := id?_spelled id
  cases constraint? with
  | none =>
    simp [TypeExpr.generic?, TypeExpr.encodeGeneric, TypeExpr.encodeConstraint, required, Document.optional, lookup?, hid,
      Generic.map]
  | some c =>
    have hc : TypeExpr.ofTree? limit (spelled c.encode) = some (f c) :=
      hf c rfl limit (Value.nesting_object_le.1 h ("constraint", c.encode) (by simp [TypeExpr.encodeConstraint]))
    simp [TypeExpr.generic?, TypeExpr.encodeGeneric, TypeExpr.encodeConstraint, required, Document.optional, lookup?, hid,
      Generic.map, TypeExpr.isNull_encode, hc]

theorem list?_spelled {α β : Type} {of? : Tree → Option β} {make : α → Value} {f : α → β} {as : List α}
    (h : ∀ a ∈ as, of? (spelled (make a)) = some (f a)) :
    list? of? (spelled (.array (as.map make))) = some (as.map f) := by
  rw [list?, Tree.items?_ofValue, Option.bind_some, List.map_map]
  exact mapM_map h

/-! ## Fields -/

section Fields

variable {fields : List (String × Option Value)}

theorem fieldsOf?_objectOf (names : List String) :
    fieldsOf? names (spelled (.objectOf fields)) = some (shownFields spelled fields) := by
  rw [Value.objectOf, Tree.fieldsOf?_ofValue, List.map_filterMap]
  simp [shownFields, Function.comp_def]

/-- What has a value is written, and inside the object. -/
theorem nesting_objectOf_le : (Value.objectOf fields).nesting ≤ limit + 1 ↔
    ∀ field ∈ fields, ∀ v ∈ field.2, v.nesting ≤ limit := by
  rw [Value.objectOf, Value.nesting_object_le]
  constructor
  · rintro h ⟨name, v?⟩ hfield v hv
    cases hv
    exact h (name, v) (List.mem_filterMap.2 ⟨_, hfield, rfl⟩)
  · rintro h field hfield
    obtain ⟨⟨name, v?⟩, hmem, hv⟩ := List.mem_filterMap.1 hfield
    obtain ⟨w, hw, heq⟩ := Option.map_eq_some_iff.1 hv
    cases heq
    exact h _ hmem w hw

end Fields

/-! ## Records and modules -/

theorem generics_spelled {gs : List (Generic TypeExpr)} {f : TypeExpr → TypeExpr}
    (hf : ∀ g ∈ gs, ∀ c ∈ g.constraint?, c.ReadAs (f c)) (h : (Record.encodeGenerics gs).nesting ≤ limit + 2) :
    list? (TypeExpr.generic? (TypeExpr.ofTree? limit)) (spelled (Record.encodeGenerics gs)) =
      some (gs.map (·.map f)) := by
  rw [Record.encodeGenerics, TypeExpr.encodeGenerics_eq] at h ⊢
  refine list?_spelled fun g hg => generic?_spelled (hf g hg) ?_
  exact Value.nesting_array_le.1 h _ (List.mem_map_of_mem hg)

/-- The fields of a record, those without a value as well. -/
def Record.fields (r : Record) : List (String × Option Value) :=
  [("id", some (TypeExpr.encodeId r.id)),
    ("name", r.name?.map .string),
    ("qualifiedName", r.qualifiedName?.map .string),
    ("originFiles", r.originFiles?.map fun files => .array (files.map .string)),
    ("isAlias", some (.bool r.isAlias)),
    ("aliasTypeParameters", r.aliasTypeParameters?.map encodeGenerics),
    ("typeParameters", r.typeParameters?.map encodeGenerics),
    ("body", some r.body.encode)]

theorem Record.encode_eq (r : Record) : r.encode = .objectOf r.fields := rfl

theorem record_of?_spelled {r : Record} {f : TypeExpr → TypeExpr} (hf : ∀ e ∈ r.expressions, e.ReadAs (f e))
    (h : r.encode.nesting ≤ limit + 3) :
    Record.of? TypeExpr.ofTree? (limit + 3) (spelled r.encode) = some (r.map f) := by
  simp only [Record.expressions, Record.generics, List.forall_mem_cons, List.mem_filterMap, List.mem_append,
    forall_exists_index, and_imp] at hf
  obtain ⟨hbody, hgenerics⟩ := hf
  rw [Record.encode_eq] at h ⊢
  have hnesting := nesting_objectOf_le.1 h
  have hid : required (shownFields spelled r.fields) "id" TypeExpr.id? = some r.id :=
    required_shown rfl (id?_spelled r.id)
  have hname : Document.optional (shownFields spelled r.fields) "name" string? = some (r.name?.map id) :=
    optional_shown rfl (fun _ => Tree.isNull_ofValue _) fun _ _ => Tree.string?_ofValue _
  have hqualified : Document.optional (shownFields spelled r.fields) "qualifiedName" string? =
      some (r.qualifiedName?.map id) :=
    optional_shown rfl (fun _ => Tree.isNull_ofValue _) fun _ _ => Tree.string?_ofValue _
  have hfiles : Document.optional (shownFields spelled r.fields) "originFiles" (list? string?) =
      some (r.originFiles?.map id) :=
    optional_shown rfl (fun _ => Tree.isNull_ofValue _) fun files _ => by
      simpa using list?_spelled (f := id) fun file _ => Tree.string?_ofValue file
  have halias : required (shownFields spelled r.fields) "isAlias" bool? = some r.isAlias :=
    required_shown rfl (Tree.bool?_ofValue _)
  have haliasGenerics : Document.optional (shownFields spelled r.fields) "aliasTypeParameters"
      (list? (TypeExpr.generic? (TypeExpr.ofTree? limit))) = some (r.aliasTypeParameters?.map (·.map (·.map f))) := by
    refine optional_shown rfl (fun _ => Tree.isNull_ofValue _) fun gs hgs => generics_spelled (fun g hg c hc => ?_) ?_
    · exact hgenerics c g (.inl (by simpa [Option.mem_def.1 hgs] using hg)) hc
    · exact hnesting ("aliasTypeParameters", r.aliasTypeParameters?.map Record.encodeGenerics) (by simp [Record.fields]) _
        (Option.mem_map_of_mem _ hgs)
  have htypeGenerics : Document.optional (shownFields spelled r.fields) "typeParameters"
      (list? (TypeExpr.generic? (TypeExpr.ofTree? limit))) = some (r.typeParameters?.map (·.map (·.map f))) := by
    refine optional_shown rfl (fun _ => Tree.isNull_ofValue _) fun gs hgs => generics_spelled (fun g hg c hc => ?_) ?_
    · exact hgenerics c g (.inr (by simpa [Option.mem_def.1 hgs] using hg)) hc
    · exact hnesting ("typeParameters", r.typeParameters?.map Record.encodeGenerics) (by simp [Record.fields]) _
        (Option.mem_map_of_mem _ hgs)
  have hbodyTree : required (shownFields spelled r.fields) "body" (TypeExpr.ofTree? (limit + 2)) = some (f r.body) :=
    required_shown rfl (hbody (limit + 2) (hnesting ("body", _) (by simp [Record.fields]) _ rfl))
  simp only [Record.of?, fieldsOf?_objectOf, Option.bind_eq_bind, Option.bind_some, Nat.add_sub_cancel,
    Nat.add_succ_sub_one, hid, hname, hqualified, hfiles, halias, haliasGenerics, htypeGenerics, hbodyTree, Option.map_id]
  rfl

theorem ambientModule_ofTree?_spelled {m : AmbientModule} {f : TypeExpr → TypeExpr} (hf : m.type.ReadAs (f m.type))
    (h : m.encode.nesting ≤ limit + 1) :
    AmbientModule.ofTree? (limit + 1) (spelled m.encode) = some (m.map f) := by
  obtain ⟨name, type⟩ := m
  have htype : TypeExpr.ofTree? limit (spelled type.encode) = some (f type) :=
    hf limit (Value.nesting_object_le.1 h ("type", type.encode) (by simp))
  simp [AmbientModule.ofTree?, AmbientModule.encode, required, lookup?, htype, AmbientModule.map]

namespace Bundle

theorem mem_expressions (b : Bundle) (e : TypeExpr) : e ∈ b.expressions ↔
    e = b.globalType ∨ (∃ m ∈ b.ambientModules, e = m.type) ∨ ∃ r ∈ b.records, e ∈ r.expressions := by
  simp only [expressions, roots, Record.expressions, List.cons_append, List.mem_cons, List.mem_append, List.mem_map,
    List.mem_flatMap]
  grind

/-- A bundle whose expressions are read as others is read with the others in their place. -/
theorem ofTree?_spelled (limit : Nat) {b : Bundle} {f : TypeExpr → TypeExpr} (hf : ∀ e ∈ b.expressions, e.ReadAs (f e))
    (h : b.encode.nesting ≤ limit + 5) : Bundle.ofTree? (limit + 5) (spelled b.encode) = some (b.map f) := by
  have hfields := Value.nesting_object_le.1 h
  simp only [List.forall_mem_cons] at hfields
  obtain ⟨hglobalNesting, hmodulesNesting, hrecordsNesting, -⟩ := hfields
  simp only [Value.nesting_array_le, List.forall_mem_map] at hmodulesNesting hrecordsNesting
  have hglobal : TypeExpr.ofTree? (limit + 4) (spelled b.globalType.encode) = some (f b.globalType) :=
    hf _ ((mem_expressions b _).2 (.inl rfl)) (limit + 4) hglobalNesting
  have hmodules : list? (AmbientModule.ofTree? (limit + 3)) (spelled (.array (b.ambientModules.map (·.encode)))) =
      some (b.ambientModules.map (·.map f)) :=
    list?_spelled fun m hm => ambientModule_ofTree?_spelled (hf _ ((mem_expressions b _).2 (.inr (.inl ⟨m, hm, rfl⟩))))
      (hmodulesNesting m hm)
  have hrecords : list? (Record.of? TypeExpr.ofTree? (limit + 3)) (spelled (.array (b.records.map (·.encode)))) =
      some (b.records.map (·.map f)) :=
    list?_spelled fun r hr => record_of?_spelled
      (fun e he => hf e ((mem_expressions b _).2 (.inr (.inr ⟨r, hr, he⟩)))) (hrecordsNesting r hr)
  simp only [spelled] at hglobal hmodules hrecords
  simp [Bundle.ofTree?, Bundle.encode, required, lookup?, hglobal, hmodules, hrecords, Bundle.map]

/-- A bundle whose expressions are read as others is read from its text with the others in their place. -/
theorem read?_write {b : Bundle} {f : TypeExpr → TypeExpr} (hf : ∀ e ∈ b.expressions, e.ReadAs (f e))
    (h : b.encode.nesting ≤ nestingLimit) (pretty : Bool) : read? (b.write pretty) = some (b.map f) := by
  rw [read?, write, Tree.read?_write Number.spells_numeral, Option.bind_some]
  exact ofTree?_spelled 122 hf h

/-! ## Numbers -/

theorem mem_numbers_generics {gs : List (Generic TypeExpr)} {g : Generic TypeExpr} (hg : g ∈ gs) {c : TypeExpr}
    (hc : g.constraint? = some c) {n : Number} (hn : n ∈ c.encode.numbers) : n ∈ (Record.encodeGenerics gs).numbers := by
  obtain ⟨id, constraint?⟩ := g
  obtain rfl : constraint? = some c := hc
  simp only [Record.encodeGenerics, TypeExpr.encodeGenerics_eq, Value.numbers_array, List.flatMap_map, List.mem_flatMap]
  exact ⟨_, hg, by simp [TypeExpr.encodeGeneric, TypeExpr.encodeConstraint, hn]⟩

theorem mem_numbers_record {r : Record} {e : TypeExpr} (he : e ∈ r.expressions) {n : Number}
    (hn : n ∈ e.encode.numbers) : n ∈ r.encode.numbers := by
  have hfield (name : String) {v : Value} (h : (name, some v) ∈ r.fields) (hv : n ∈ v.numbers) :
      n ∈ r.encode.numbers := by
    rw [Record.encode_eq, Value.objectOf, Value.numbers_object]
    exact List.mem_flatMap.2 ⟨(name, v), List.mem_filterMap.2 ⟨_, h, rfl⟩, hv⟩
  simp only [Record.expressions, Record.generics, List.mem_cons, List.mem_filterMap, List.mem_append] at he
  rcases he with rfl | ⟨g, hg | hg, hc⟩
  · exact hfield "body" (by simp [Record.fields]) hn
  · cases hgs : r.aliasTypeParameters? with
    | none => simp [hgs] at hg
    | some gs =>
      exact hfield "aliasTypeParameters" (v := Record.encodeGenerics gs) (by simp [Record.fields, hgs])
        (mem_numbers_generics (by simpa [hgs] using hg) hc hn)
  · cases hgs : r.typeParameters? with
    | none => simp [hgs] at hg
    | some gs =>
      exact hfield "typeParameters" (v := Record.encodeGenerics gs) (by simp [Record.fields, hgs])
        (mem_numbers_generics (by simpa [hgs] using hg) hc hn)

/-- The numbers of an expression are numbers of the bundle. -/
theorem mem_numbers {b : Bundle} {e : TypeExpr} (he : e ∈ b.expressions) {n : Number} (hn : n ∈ e.encode.numbers) :
    n ∈ b.encode.numbers := by
  simp only [encode, Value.numbers_object, List.flatMap_cons, List.flatMap_nil, List.append_nil, Value.numbers_array,
    List.mem_append, List.mem_flatMap, List.mem_map]
  rcases (mem_expressions b e).1 he with rfl | ⟨m, hm, rfl⟩ | ⟨r, hr, he⟩
  · exact .inl hn
  · refine .inr (.inl ⟨_, ⟨m, hm, rfl⟩, ?_⟩)
    simp [AmbientModule.encode, hn]
  · exact .inr (.inr ⟨_, ⟨r, hr, rfl⟩, mem_numbers_record he hn⟩)

/-- The doubles of a bundle are read from their own texts. -/
def FloatsReadBack (b : Bundle) : Prop :=
  ∀ x finite, Number.float x finite ∈ b.encode.numbers → (Number.float x finite).ReadsBack

theorem FloatsReadBack.number {b : Bundle} (h : b.FloatsReadBack) {n : Number} (hn : n ∈ b.encode.numbers) :
    n.ReadsBack := by
  cases n with
  | integer n fits => exact Number.readsBack_integer n fits
  | float x finite => exact h x finite hn

/-! ## Readable bundles -/

/-- The bundle is one that a text can stand for. -/
structure Readable (b : Bundle) : Prop where
  expressions : ∀ e ∈ b.expressions, e.Readable
  nesting : b.encode.nesting ≤ nestingLimit

/-- A readable bundle whose doubles are read from their own texts is read from its own text. -/
theorem Readable.read?_write {b : Bundle} (h : b.Readable) (hfloats : b.FloatsReadBack) (pretty : Bool) :
    read? (b.write pretty) = some b := by
  have hself : ∀ e ∈ b.expressions, e.ReadAs (id e) := by
    intro e he limit hlimit
    have hnumbers : ∀ n ∈ e.encode.numbers, n.numeral.value? = some (id n) :=
      fun n hn => hfloats.number (mem_numbers he hn)
    rw [TypeExpr.ofTree?, Tree.value?_ofValue hnumbers hlimit, Option.bind_some,
      Value.mapNumbers_eq_self (f := id) fun _ _ => rfl]
    exact TypeExpr.decode?_encode (h.expressions e he) hlimit
  rw [Bundle.read?_write hself h.nesting, map_id]

/-! ## What is read -/

theorem expr_sound {t : Tree} {e : TypeExpr} (h : TypeExpr.ofTree? limit t = some e) :
    e.Readable ∧ e.encode.nesting ≤ limit := by
  obtain ⟨v, hv, he⟩ := Option.bind_eq_some_iff.1 h
  obtain ⟨hreadable, hnesting⟩ := TypeExpr.decode?_sound limit v e he
  exact ⟨hreadable, hnesting.trans (Tree.value?_sound hv)⟩

theorem generic_sound {t : Tree} {g : Generic TypeExpr} (h : TypeExpr.generic? (TypeExpr.ofTree? limit) t = some g) :
    ∀ c ∈ g.constraint?, c.Readable ∧ c.encode.nesting ≤ limit := by
  simp only [TypeExpr.generic?, Option.bind_eq_bind, Option.bind_eq_some_iff, Option.pure_def, Option.some.injEq] at h
  obtain ⟨fields, -, id, -, constraint?, hconstraint, rfl⟩ := h
  intro c hc
  obtain ⟨w, -, -, hw⟩ := exists_of_optional hconstraint c hc
  exact expr_sound hw

theorem generics_sound {fields : List (String × Tree)} {name : String} {gs? : Option (List (Generic TypeExpr))}
    (h : Document.optional fields name (list? (TypeExpr.generic? (TypeExpr.ofTree? limit))) = some gs?) :
    ∀ gs ∈ gs?, (∀ g ∈ gs, ∀ c ∈ g.constraint?, c.Readable) ∧ (Record.encodeGenerics gs).nesting ≤ limit + 2 := by
  intro gs hgs
  obtain ⟨t, -, -, ht⟩ := exists_of_optional h gs hgs
  obtain ⟨ts, -, hall⟩ := exists_of_list ht
  have hg : ∀ g ∈ gs, ∀ c ∈ g.constraint?, c.Readable ∧ c.encode.nesting ≤ limit := by
    intro g hg
    obtain ⟨t, -, ht⟩ := hall g hg
    exact generic_sound ht
  refine ⟨fun g hgs c hc => (hg g hgs c hc).1, ?_⟩
  rw [Record.encodeGenerics, TypeExpr.encodeGenerics_eq, Value.nesting_array_le]
  simp only [List.forall_mem_map]
  rintro ⟨id, constraint?⟩ hgs
  cases constraint? with
  | none => simp [TypeExpr.encodeGeneric, TypeExpr.encodeConstraint, TypeExpr.encodeId]
  | some c => simpa [TypeExpr.encodeGeneric, TypeExpr.encodeConstraint, TypeExpr.encodeId] using (hg _ hgs c rfl).2

theorem record_sound (limit : Nat) {t : Tree} {r : Record} (h : Record.of? TypeExpr.ofTree? (limit + 3) t = some r) :
    (∀ e ∈ r.expressions, e.Readable) ∧ r.encode.nesting ≤ limit + 3 := by
  simp only [Record.of?, Option.bind_eq_bind, Option.bind_eq_some_iff, Option.pure_def, Option.some.injEq,
    Nat.add_sub_cancel, Nat.add_succ_sub_one] at h
  obtain ⟨fields, -, id, -, name?, -, qualifiedName?, -, originFiles?, -, isAlias, -, aliasGenerics?, haliasGenerics,
    generics?, hgenerics, body, hbody, rfl⟩ := h
  obtain ⟨w, -, hbody⟩ := exists_of_required hbody
  obtain ⟨hbody, hbodyNesting⟩ := expr_sound hbody
  have halias := generics_sound haliasGenerics
  have htype := generics_sound hgenerics
  constructor
  · simp only [Record.expressions, Record.generics, List.forall_mem_cons, List.mem_filterMap, List.mem_append,
      forall_exists_index, and_imp]
    refine ⟨hbody, ?_⟩
    rintro c g (hg | hg) hc
    · cases aliasGenerics? with
      | none => cases hg
      | some gs => exact (halias gs rfl).1 g hg c hc
    · cases generics? with
      | none => cases hg
      | some gs => exact (htype gs rfl).1 g hg c hc
  · rw [Record.encode_eq, nesting_objectOf_le]
    simp only [Record.fields, List.forall_mem_cons, Option.mem_def, Option.map_eq_some_iff, forall_exists_index, and_imp,
      forall_apply_eq_imp_iff₂, Option.some.injEq, forall_eq']
    refine ⟨by simp [TypeExpr.encodeId], by simp, by simp, by simp, by simp, fun gs hgs => (halias gs hgs).2,
      fun gs hgs => (htype gs hgs).2, hbodyNesting, by simp⟩

theorem module_sound (limit : Nat) {t : Tree} {m : AmbientModule} (h : AmbientModule.ofTree? (limit + 1) t = some m) :
    m.type.Readable ∧ m.encode.nesting ≤ limit + 1 := by
  simp only [AmbientModule.ofTree?, Option.bind_eq_bind, Option.bind_eq_some_iff, Option.pure_def, Option.some.injEq,
    Nat.add_sub_cancel] at h
  obtain ⟨fields, -, name, -, type, htype, rfl⟩ := h
  obtain ⟨w, -, hw⟩ := exists_of_required htype
  obtain ⟨hreadable, hnesting⟩ := expr_sound hw
  exact ⟨hreadable, by simpa [AmbientModule.encode] using hnesting⟩

/-- Whatever text is read stands for a readable bundle. -/
theorem readable_of_read {text : String} {b : Bundle} (h : read? text = some b) : b.Readable := by
  obtain ⟨t, -, h⟩ := Option.bind_eq_some_iff.1 h
  simp only [ofTree?, Option.bind_eq_bind, Option.bind_eq_some_iff, Option.pure_def, Option.some.injEq] at h
  obtain ⟨fields, -, globalType, hglobal, modules, hmodules, records, hrecords, rfl⟩ := h
  obtain ⟨w, -, hglobal⟩ := exists_of_required hglobal
  obtain ⟨w, -, hmodules⟩ := exists_of_required hmodules
  obtain ⟨w, -, hrecords⟩ := exists_of_required hrecords
  obtain ⟨hglobalReadable, hglobalNesting⟩ := expr_sound hglobal
  obtain ⟨ms, -, hmodules⟩ := exists_of_list hmodules
  obtain ⟨rs, -, hrecords⟩ := exists_of_list hrecords
  have hmodule (m) (hm : m ∈ modules) : m.type.Readable ∧ m.encode.nesting ≤ 125 := by
    obtain ⟨w, -, hw⟩ := hmodules m hm
    exact module_sound 124 hw
  have hrecord (r) (hr : r ∈ records) : (∀ e ∈ r.expressions, e.Readable) ∧ r.encode.nesting ≤ 125 := by
    obtain ⟨w, -, hw⟩ := hrecords r hr
    exact record_sound 122 hw
  constructor
  · intro e he
    rcases (mem_expressions _ e).1 he with rfl | ⟨m, hm, rfl⟩ | ⟨r, hr, he⟩
    · exact hglobalReadable
    · exact (hmodule m hm).1
    · exact (hrecord r hr).1 e he
  · refine Value.nesting_object_le.2 ?_
    simp only [List.forall_mem_cons, Value.nesting_array_le, List.forall_mem_map]
    exact ⟨hglobalNesting, fun m hm => (hmodule m hm).2, fun r hr => (hrecord r hr).2, by simp⟩

/-! ## The round trip -/

/-- A readable bundle whose doubles are read from their own texts is read from its own text. Whatever is read is
readable again, so reading and writing it once more changes nothing. -/
theorem read?_write_exact :
    (∀ b : Bundle, b.Readable → b.FloatsReadBack → ∀ pretty, read? (b.write pretty) = some b) ∧
    ∀ text b, read? text = some b → b.Readable ∧ (b.FloatsReadBack → ∀ pretty,
      read? (b.write pretty) = some b ∧ (read? (b.write pretty)).map (write pretty) = some (b.write pretty)) := by
  refine ⟨fun b h hfloats pretty => h.read?_write hfloats pretty, fun text b h => ⟨readable_of_read h, ?_⟩⟩
  intro hfloats pretty
  have hread := (readable_of_read h).read?_write hfloats pretty
  exact ⟨hread, by rw [hread, Option.map_some]⟩

/-- An object type whose only member is 1.5. -/
def halfLength : Bundle :=
  let half : Number := .float ⟨0x3FF8000000000000⟩ (by decide)
  let type : TypeExpr := .primitive .numberLiteral (some (.number half))
  ⟨.record ⟨0⟩, [], [.anonymous ⟨0⟩ (.shape ⟨false, [], [], [], [⟨"length", type, false, true⟩]⟩)]⟩

theorem read?_write_exact_halfLength : halfLength.Readable ∧ ∀ pretty,
    read? (halfLength.write pretty) = some halfLength ∧
      (read? (halfLength.write pretty)).map (write pretty) = some (halfLength.write pretty) := by
  have hreadable : halfLength.Readable := by
    refine ⟨?_, by decide +kernel⟩
    simp [expressions, roots, halfLength, Record.anonymous, Record.generics, TypeExpr.Readable, TypeExpr.subterms,
      TypeExpr.subtermsOfShape, TypeExpr.subtermsOfList, TypeExpr.subtermsOfSignatures, TypeExpr.subtermsOfMembers,
      TypeExpr.subtermsOfMember, TypeExpr.OwnReadable, Member.Ascending, Value.InOrder.number]
  have hfloats : halfLength.FloatsReadBack := by
    have hnumbers : halfLength.encode.numbers.all (fun n => n.numeral.value? = some n) = true := by decide +kernel
    intro x finite hx
    simpa [Number.ReadsBack] using List.all_eq_true.1 hnumbers _ hx
  obtain ⟨hwritten, hread⟩ := read?_write_exact
  exact ⟨hreadable, fun pretty => (hread _ _ (hwritten _ hreadable hfloats pretty)).2 hfloats pretty⟩

/-- Values may stand without the names of their fields, a form by its number, and a kind as an object. -/
example : (read? "[[0,[[\x7b\"any\":null\x7d],[7,4,[]]]],[],[]]").map (·.encode) =
    some (encode ⟨.union [.any, .application ⟨4⟩ []], [], []⟩) := by decide +kernel

end Bundle

end TypeBundle
