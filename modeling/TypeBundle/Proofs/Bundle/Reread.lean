import TypeBundle.Proofs.Bundle.Check
import TypeBundle.Proofs.Bundle.Wire
import TypeBundle.Proofs.Json.Range
import TypeBundle.Proofs.TypeExpr.Numbers
/-!
# Which texts of bundles are read

The text of a bundle of readable expressions is read just if it nests no deeper than a text may (`read?_write_eq`). It
is read as the bundle with its doubles as they are read, which is as good as the bundle itself (`check_reread`).
-/

namespace TypeBundle

open Json (Value Tree Number spelled)
open Document

variable {limit : Nat}

/-! ## Expressions -/

theorem Json.Number.reread_ofUInt32 (n : UInt32) : (Number.ofUInt32 n).reread = .ofUInt32 n := by
  have hread : (Number.ofUInt32 n).numeral.value? = some (.ofUInt32 n) := Number.readsBack_integer _ _
  rw [Number.reread, hread]
  rfl

namespace TypeExpr

/-- The expression as it is read from its text. -/
def reread (e : TypeExpr) : TypeExpr := e.mapNumbers Number.reread

theorem Readable.readAs {e : TypeExpr} (h : e.Readable) : e.ReadAs e.reread := by
  intro limit hlimit
  have hencode : e.reread.encode = e.encode.mapNumbers Number.reread := encode_mapNumbers Number.reread_ofUInt32 e
  rw [ofTree?, Tree.value?_ofValue (fun n _ => n.value?_numeral) hlimit, Option.bind_some, ← hencode]
  have hnesting : e.reread.encode.nesting ≤ limit := by
    rw [hencode]
    exact (Value.nesting_mapNumbers_le _ _).2 hlimit
  exact decode?_encode (h.mapNumbers _) hnesting

theorem nesting_le_of_ofTree? {e e' : TypeExpr} (h : ofTree? limit (spelled e.encode) = some e') :
    e.encode.nesting ≤ limit := by
  obtain ⟨v, hv, -⟩ := Option.bind_eq_some_iff.1 h
  exact Tree.nesting_le_of_value? hv

end TypeExpr

/-! ## What is read nests no deeper than a text may -/

section Fields

variable {α β : Type} {fields : List (String × Option Value)} {name : String}

theorem read_of_required {read : Tree → Option α} {v : Value} {a : α}
    (h : required (shownFields spelled fields) name read = some a)
    (hv : fields.filter (·.1 == name) = [(name, some v)]) :
    read (spelled v) = some a := by
  simpa [required, lookup?_shownFields hv] using h

theorem read_of_optional {read : Tree → Option β} {make : α → Value} (a? : Option α) {b? : Option β}
    (h : Document.optional (shownFields spelled fields) name read = some b?)
    (hv : fields.filter (·.1 == name) = [(name, a?.map make)]) (hnull : ∀ a, isNull (make a) = false) :
    ∀ a ∈ a?, ∃ b, read (spelled (make a)) = some b := by
  rintro a ha
  obtain rfl : a? = some a := ha
  simp only [Document.optional, lookup?_shownFields hv, Option.map_some, Tree.isNull_ofValue, hnull,
    Bool.false_eq_true, if_false, Option.map_eq_some_iff] at h
  obtain ⟨b, hb, -⟩ := h
  exact ⟨b, hb⟩

theorem read_of_list {of? : Tree → Option β} {make : α → Value} {as : List α} {bs : List β}
    (h : list? of? (spelled (.array (as.map make))) = some bs) : ∀ a ∈ as, ∃ b, of? (spelled (make a)) = some b := by
  rw [list?, Tree.items?_ofValue, Option.bind_some] at h
  intro a ha
  exact forall_of_mapM h _ (List.mem_map_of_mem (List.mem_map_of_mem ha))

end Fields

theorem encodeGeneric_eq (g : Generic TypeExpr) : TypeExpr.encodeGeneric g =
    .objectOf [("id", some (TypeExpr.encodeId g.id)), ("constraint", g.constraint?.map (·.encode))] := by
  obtain ⟨id, constraint?⟩ := g
  cases constraint? <;> rfl

theorem nesting_le_of_generic? {g g' : Generic TypeExpr}
    (h : TypeExpr.generic? (TypeExpr.ofTree? limit) (spelled (TypeExpr.encodeGeneric g)) = some g') :
    (TypeExpr.encodeGeneric g).nesting ≤ limit + 1 := by
  rw [encodeGeneric_eq] at h ⊢
  simp only [TypeExpr.generic?, fieldsOf?_objectOf, Option.bind_eq_bind, Option.bind_some, Option.bind_eq_some_iff] at h
  obtain ⟨-, -, constraint?, hconstraint, -⟩ := h
  have hread := read_of_optional g.constraint? hconstraint rfl TypeExpr.isNull_encode
  rw [nesting_objectOf_le]
  simp only [List.forall_mem_cons, Option.mem_def, Option.map_eq_some_iff, forall_exists_index, and_imp,
    forall_apply_eq_imp_iff₂, Option.some.injEq, forall_eq']
  refine ⟨by simp [TypeExpr.encodeId], fun c hc => ?_, by simp⟩
  obtain ⟨c', hc'⟩ := hread c hc
  exact TypeExpr.nesting_le_of_ofTree? hc'

theorem nesting_le_of_generics {gs gs' : List (Generic TypeExpr)}
    (h : list? (TypeExpr.generic? (TypeExpr.ofTree? limit)) (spelled (Record.encodeGenerics gs)) = some gs') :
    (Record.encodeGenerics gs).nesting ≤ limit + 2 := by
  rw [Record.encodeGenerics, TypeExpr.encodeGenerics_eq] at h ⊢
  simp only [Value.nesting_array_le, List.forall_mem_map]
  intro g hg
  obtain ⟨g', hg'⟩ := read_of_list h g hg
  exact nesting_le_of_generic? hg'

theorem isNull_encodeGenerics (gs : List (Generic TypeExpr)) : isNull (Record.encodeGenerics gs) = false := rfl

theorem nesting_le_of_record {r r' : Record}
    (h : Record.of? TypeExpr.ofTree? (limit + 3) (spelled r.encode) = some r') : r.encode.nesting ≤ limit + 3 := by
  rw [Record.encode_eq] at h ⊢
  simp only [Record.of?, fieldsOf?_objectOf, Option.bind_eq_bind, Option.bind_some, Option.bind_eq_some_iff,
    Option.pure_def, Option.some.injEq, Nat.add_sub_cancel, Nat.add_succ_sub_one] at h
  obtain ⟨-, -, -, -, -, -, -, -, -, -, aliasGenerics?, haliasGenerics, generics?, hgenerics, body, hbody, -⟩ := h
  have halias := read_of_optional r.aliasTypeParameters? haliasGenerics rfl fun gs => isNull_encodeGenerics gs
  have htype := read_of_optional r.typeParameters? hgenerics rfl fun gs => isNull_encodeGenerics gs
  have hbody := TypeExpr.nesting_le_of_ofTree? (read_of_required hbody (v := r.body.encode) rfl)
  rw [nesting_objectOf_le]
  simp only [Record.fields, List.forall_mem_cons, Option.mem_def, Option.map_eq_some_iff, forall_exists_index, and_imp,
    forall_apply_eq_imp_iff₂, Option.some.injEq, forall_eq']
  refine ⟨by simp [TypeExpr.encodeId], by simp, by simp, by simp, by simp, fun gs hgs => ?_, fun gs hgs => ?_, hbody,
    by simp⟩
  · obtain ⟨gs', hgs'⟩ := halias gs hgs
    exact nesting_le_of_generics hgs'
  · obtain ⟨gs', hgs'⟩ := htype gs hgs
    exact nesting_le_of_generics hgs'

theorem nesting_le_of_ambientModule {m m' : AmbientModule}
    (h : AmbientModule.ofTree? (limit + 1) (spelled m.encode) = some m') : m.encode.nesting ≤ limit + 1 := by
  obtain ⟨name, type⟩ := m
  simp only [AmbientModule.ofTree?, AmbientModule.encode, spelled, Tree.fieldsOf?_ofValue, Option.bind_eq_bind,
    Option.bind_some, Option.bind_eq_some_iff, Nat.add_sub_cancel] at h
  obtain ⟨-, -, type', htype, -⟩ := h
  have htype : TypeExpr.ofTree? limit (spelled type.encode) = some type' := by simpa [required, lookup?] using htype
  simpa [AmbientModule.encode] using TypeExpr.nesting_le_of_ofTree? htype

namespace Bundle

theorem nesting_le_of_ofTree? (limit : Nat) {b b' : Bundle} (h : Bundle.ofTree? (limit + 5) (spelled b.encode) = some b') :
    b.encode.nesting ≤ limit + 5 := by
  simp only [Bundle.ofTree?, Bundle.encode, spelled, Tree.fieldsOf?_ofValue, Option.bind_eq_bind, Option.bind_some,
    Option.bind_eq_some_iff] at h
  obtain ⟨globalType, hglobal, modules, hmodules, records, hrecords, -⟩ := h
  have hglobal : TypeExpr.ofTree? (limit + 4) (spelled b.globalType.encode) = some globalType := by
    simpa [required, lookup?] using hglobal
  have hmodules : list? (AmbientModule.ofTree? (limit + 3)) (spelled (.array (b.ambientModules.map (·.encode)))) =
      some modules := by
    simpa [required, lookup?] using hmodules
  have hrecords : list? (Record.of? TypeExpr.ofTree? (limit + 3)) (spelled (.array (b.records.map (·.encode)))) =
      some records := by
    simpa [required, lookup?] using hrecords
  refine Value.nesting_object_le.2 ?_
  simp only [List.forall_mem_cons, Value.nesting_array_le, List.forall_mem_map]
  refine ⟨TypeExpr.nesting_le_of_ofTree? hglobal, fun m hm => ?_, fun r hr => ?_, by simp⟩
  · obtain ⟨m', hm'⟩ := read_of_list hmodules m hm
    exact nesting_le_of_ambientModule hm'
  · obtain ⟨r', hr'⟩ := read_of_list hrecords r hr
    exact nesting_le_of_record hr'

/-- The bundle as it is read from its text. -/
def reread (b : Bundle) : Bundle := b.map (·.reread)

/-- A text that nests too deep is not read. -/
theorem read?_write_eq_none {b : Bundle} (h : nestingLimit < b.encode.nesting) (pretty : Bool) :
    read? (b.write pretty) = none := by
  refine Option.eq_none_iff_forall_ne_some.2 fun b' hb' => h.not_ge ?_
  rw [read?, write, Tree.read?_write Number.spells_numeral, Option.bind_some] at hb'
  exact nesting_le_of_ofTree? 122 hb'

/-- The text of a bundle of readable expressions is read just if it nests no deeper than a text may. -/
theorem read?_write_eq {b : Bundle} (h : ∀ e ∈ b.expressions, e.Readable) (pretty : Bool) :
    read? (b.write pretty) = if b.encode.nesting ≤ nestingLimit then some b.reread else none := by
  split
  · rename_i hnesting
    exact read?_write (fun e he => (h e he).readAs) hnesting pretty
  · rename_i hnesting
    exact read?_write_eq_none (Nat.lt_of_not_le hnesting) pretty

theorem check_map {b : Bundle} {f : TypeExpr → TypeExpr} (hf : ∀ e, (f e).references = e.references) :
    (b.map f).check = b.check := by
  have hids : (b.map f).ids = b.ids := by simp [ids, map, Record.map, Function.comp_def]
  have hroots : (b.map f).roots.flatMap (·.references) = b.roots.flatMap (·.references) := by
    simp [roots, map, Record.map, AmbientModule.map, List.flatMap_map, hf]
  rw [check, check, hids, hroots]

/-- What a check finds out does not change. -/
theorem check_reread (b : Bundle) : b.reread.check = b.check := check_map fun e => e.references_mapNumbers _

end Bundle

end TypeBundle
