import ResourceTypes.Proofs.Batch.Origins
import ResourceTypes.Proofs.Batch.References
import ResourceTypes.Proofs.Naming.Identifiers

/-! # Type names as identifiers

Names of types come from keys and pointers without a look at what they spell. For ASCII keys they
have the characters of identifiers, but a key or a pointer that begins with a digit, or spells a
keyword, may become a name as it is. Where no key and no pointer does so by itself, no name does.
-/

namespace ResourceTypes

open Lowering Compilation Naming

/-- Whether kinds are identifiers, and keys and pointers are texts in ASCII. -/
structure Compilation.Ascii (options : Options) (definitions : List Definition) : Prop where
  kinds : ∀ d ∈ definitions, isKindName d.kind = true
  keys : ∀ key ∈ keys options definitions, isAscii key = true
  pointers : ∀ pointer ∈ pointers options definitions, isAscii pointer = true

/-- Whether every key and every pointer leads to a type name by itself. A key may also have no words
at all. -/
structure Compilation.Clean (options : Options) (definitions : List Definition) : Prop where
  keys : ∀ key ∈ keys options definitions, camelCase key = "" ∨ isTypeName (camelCase key) = true
  pointers : ∀ pointer ∈ pointers options definitions, isTypeName (refName pointer) = true

namespace Compilation.Accepted

variable {options : Options} {definitions : List Definition} {b : Batch} {stages : List Stage}
  {m : TypeModel} {name : String}

theorem nested_ne_empty (h : Accepted options definitions b stages) (hm : m ∈ b.resources)
    (hn : name ∈ m.nestedNames) : name ≠ "" := by
  obtain ⟨d, -, r, site, allowBare, -, rfl⟩ := h.nested_named hm hn
  exact freeName_ne_empty r _

/-- What holds of all spelled texts, of the kinds and of the joined words of kinds and keys, and
goes over from two texts to the joined one, holds of nested names. -/
theorem of_nested {P : String → Prop} (happend : ∀ {s t : String}, P s → P t → P (s ++ t))
    (hspelled : ∀ {s : String}, Spelled s → P s) (h : Accepted options definitions b stages)
    (hkinds : ∀ d ∈ definitions, P d.kind ∧ P (camelCase d.kind))
    (hkeys : ∀ key ∈ keys options definitions, P (camelCase key)) (hm : m ∈ b.resources)
    (hn : name ∈ m.nestedNames) : P name := by
  obtain ⟨d, hd, r, site, allowBare, hbelow, rfl⟩ := h.nested_named hm hn
  refine of_freeName happend hspelled ?_ ?_ ?_ r
  · change P site.kind
    rw [hbelow.kind_eq]
    exact (hkinds d hd).1
  · change P site.fieldName
    rw [hbelow.fieldName_eq]
    exact hkeys _ hbelow.key_mem
  · intro key hk
    rcases hbelow.path_mem key hk with rfl | hk
    · exact (hkinds d hd).2
    · exact hkeys key hk

/-- A nested name has letters, digits and underscores only, and at least one of them. -/
theorem nested_spelled (h : Accepted options definitions b stages)
    (hascii : Ascii options definitions) (hm : m ∈ b.resources) (hn : name ∈ m.nestedNames) :
    name ≠ "" ∧ Spelled name := by
  refine ⟨h.nested_ne_empty hm hn, h.of_nested Spelled.append id (fun d hd => ?_)
    (fun key hk => (capitalized_camelCase (hascii.keys key hk)).spelled) hm hn⟩
  have hkind := hascii.kinds d hd
  exact ⟨(isTypeName_iff.mp (isTypeName_of_isKindName hkind)).2.1,
    (piece_camelCase_kind hkind).capitalized.spelled⟩

/-- Clean keys lead to type names wherever they stand. -/
theorem nested_isTypeName (h : Accepted options definitions b stages)
    (hascii : Ascii options definitions) (hclean : Clean options definitions)
    (hm : m ∈ b.resources) (hn : name ∈ m.nestedNames) : isTypeName name = true := by
  obtain ⟨d, hd, r, site, allowBare, hbelow, rfl⟩ := h.nested_named hm hn
  have hkind := hascii.kinds d hd
  have hpiece : ∀ key ∈ keys options definitions, Piece (camelCase key) := fun key hk =>
    ⟨capitalized_camelCase (hascii.keys key hk), hclean.keys key hk⟩
  refine freeName_isTypeName ?_ ?_ ?_ r
  · change isTypeName site.kind = true
    rw [hbelow.kind_eq]
    exact isTypeName_of_isKindName hkind
  · change Piece site.fieldName
    rw [hbelow.fieldName_eq]
    exact hpiece _ hbelow.key_mem
  · intro key hk
    rcases hbelow.path_mem key hk with rfl | hk
    · exact piece_camelCase_kind hkind
    · exact hpiece key hk

theorem refs_spelled (h : Accepted options definitions b stages)
    (hascii : Ascii options definitions) (hm : m ∈ b.resources) (hn : name ∈ m.refs) :
    Spelled name := by
  obtain ⟨pointer, hp, rfl⟩ := h.refs_target hm hn
  exact (capitalized_refName (hascii.pointers pointer hp)).spelled

theorem refs_isTypeName (h : Accepted options definitions b stages)
    (hclean : Clean options definitions) (hm : m ∈ b.resources) (hn : name ∈ m.refs) :
    isTypeName name = true := by
  obtain ⟨pointer, hp, rfl⟩ := h.refs_target hm hn
  exact hclean.pointers pointer hp

end Compilation.Accepted

/-- What a field names is nested in some resource, or a reference of its own resource asks for
it. -/
theorem names_of_field {options : Options} {definitions : List Definition} {b : Batch}
    (h : (compileBatch options definitions).batch = .ok b) {m : TypeModel} (hm : m ∈ b.resources)
    {field : Field} (hf : field ∈ m.fields) {name : String} (hn : name ∈ field.type.names) :
    (∃ m' ∈ b.resources, name ∈ m'.nestedNames) ∨ name ∈ m.refs := by
  obtain ⟨i, hi⟩ := List.getElem?_of_mem hm
  refine (names_resolve h hi hf name hn).imp_left ?_
  rintro ⟨j, -, m', hj, hmem⟩
  exact ⟨m', List.mem_of_getElem? hj, hmem⟩

/-- What the characters of an identifier spell if it is no type name. -/
theorem Naming.Spelled.cases {name : String} (h : Spelled name) :
    isTypeName name = true ∨ name = "" ∨ beginsWithDigit name = true ∨ name = "Self" := by
  by_cases hempty : name = ""
  · exact .inr (.inl hempty)
  by_cases hself : name = "Self"
  · exact .inr (.inr (.inr hself))
  cases hdigit : beginsWithDigit name with
  | true => exact .inr (.inr (.inl rfl))
  | false => exact .inl (isTypeName_iff.mpr ⟨hempty, h, hdigit, hself⟩)

/-- Nested types and the names in fields are type names unless they begin with a digit or spell a
keyword, or a reference ends without any word. Where no key and no pointer does so by itself, all of
them are type names. -/
theorem type_names_spelled {options : Options} {definitions : List Definition} {b : Batch}
    (h : (compileBatch options definitions).batch = .ok b) (hascii : Ascii options definitions) :
    (∀ m ∈ b.resources, ∀ name ∈ m.nestedNames,
      isTypeName name = true ∨ beginsWithDigit name = true ∨ name = "Self") ∧
    (∀ m ∈ b.resources, ∀ field ∈ m.fields, ∀ name ∈ field.type.names,
      isTypeName name = true ∨ name = "" ∨ beginsWithDigit name = true ∨ name = "Self") ∧
    (Clean options definitions → ∀ m ∈ b.resources,
      (∀ name ∈ m.nestedNames, isTypeName name = true) ∧
      ∀ field ∈ m.fields, ∀ name ∈ field.type.names, isTypeName name = true) := by
  obtain ⟨stages, ha⟩ := exists_stages h
  refine ⟨?_, ?_, ?_⟩
  · intro m hm name hn
    obtain ⟨hne, hspelled⟩ := ha.nested_spelled hascii hm hn
    exact hspelled.cases.imp_right fun hother => hother.resolve_left hne
  · intro m hm field hf name hn
    rcases names_of_field h hm hf hn with ⟨m', hm', hmem⟩ | href
    · exact (ha.nested_spelled hascii hm' hmem).2.cases
    · exact (ha.refs_spelled hascii hm href).cases
  · intro hclean m hm
    refine ⟨fun name hn => ha.nested_isTypeName hascii hclean hm hn, fun field hf name hn => ?_⟩
    rcases names_of_field h hm hf hn with ⟨m', hm', hmem⟩ | href
    · exact ha.nested_isTypeName hascii hclean hm' hmem
    · exact ha.refs_isTypeName hclean hm href

theorem sampleDefinitions_type_names :
    ∃ b, (compileBatch ⟨none, true⟩ sampleDefinitions).batch = .ok b ∧
      ∀ m ∈ b.resources, (∀ name ∈ m.nestedNames, isTypeName name = true) ∧
        ∀ field ∈ m.fields, ∀ name ∈ field.type.names, isTypeName name = true := by
  have hascii : Ascii ⟨none, true⟩ sampleDefinitions :=
    ⟨by decide +kernel, by decide +kernel, by decide +kernel⟩
  have hclean : Clean ⟨none, true⟩ sampleDefinitions := ⟨by decide +kernel, by decide +kernel⟩
  obtain ⟨b, hb⟩ := sampleDefinitions_accepted true
  exact ⟨b, hb, (type_names_spelled hb hascii).2.2 hclean⟩

def digitKey : List Definition :=
  [.single "Widget" "widgets" "shop.io" "v1"
    (.mk none (.object [("spec", .mk none (.object [("3d", sampleEnum)] none false))] none false))]

/-- The key names the enumeration as it is. -/
theorem digitKey_names_type :
    Ascii ⟨none, false⟩ digitKey ∧ (∀ d ∈ digitKey, isKindName d.listKind = true) ∧
      ∃ b, (compileBatch ⟨none, false⟩ digitKey).batch = .ok b ∧
        ∃ m ∈ b.resources, "3d" ∈ m.nestedNames ∧ isTypeName "3d" = false := by
  have hnames : (compileBatch ⟨none, false⟩ digitKey).batch.toOption.map
      (fun b => (b.resources[0]?).map TypeModel.nestedNames) =
        some (some ["WidgetSpec", "3d"]) := by
    decide +kernel
  obtain ⟨b, hb, hfirst⟩ := exists_batch hnames
  obtain ⟨m, hm, hnested⟩ := Option.map_eq_some_iff.mp hfirst
  refine ⟨⟨by decide +kernel, by decide +kernel, by decide +kernel⟩, by decide +kernel, b, hb, m,
    List.mem_of_getElem? hm, ?_, by decide⟩
  rw [hnested]
  decide

end ResourceTypes
