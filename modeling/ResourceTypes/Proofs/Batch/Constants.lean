import ResourceTypes.Proofs.Batch.Origins
import ResourceTypes.Proofs.Code.Constants
import ResourceTypes.Proofs.Lowering.Constants

/-! # Constants of a file

The constants of all enumerations of a resource stand side by side in one file. They are told apart
by number within one enumeration, but before their names are folded, and nothing tells them apart
between two enumerations. Numbers and truth values are kept apart within their enumeration all the
same. Two enumerations meet where the name of one goes on as a constant of the other does.
-/

namespace ResourceTypes

open Lowering Compilation Naming

namespace Code

/-- Whether the constants of an enumeration are those of some literals. -/
def Numbered (e : EnumType) : Prop :=
  ∃ literals, e.constants = enumConstants e.name literals

def Separate (e other : EnumType) : Prop :=
  EnumType.isStringEnum e = true ∨ EnumType.isStringEnum other = true ∨ ¬Overlap e.name other.name

instance (e other : EnumType) : Decidable (Separate e other) :=
  inferInstanceAs (Decidable (_ ∨ _ ∨ _))

variable {e other : EnumType}

/-- A literal of a type other than strings is a number or a truth value. -/
theorem literalText_of_constLiteral {base : TypeRef} (hb : base ≠ .str) {v : Json}
    {literal : String} (h : constLiteral? base v = some literal) :
    LiteralText (constantSuffix v).toList := by
  unfold constLiteral? at h
  split at h
  · exact constantSuffix_number _
  · exact constantSuffix_number _
  · exact constantSuffix_number _
  · exact constantSuffix_number _
  · exact constantSuffix_bool _
  · exact (hb rfl).elim
  · cases h

/-- A declared constant has the name of its enumeration and what the literal adds, folded. -/
theorem Numbered.named (h : Numbered e) {c : EnumConstant} (hc : c ∈ e.constants) :
    ∃ added, c.name = e.name ++ added ∧
      (LiteralText (constantSuffix c.value).toList → LiteralText added.toList) := by
  obtain ⟨literals, hconstants⟩ := h
  obtain ⟨k, hname⟩ := enumConstants_numbered (hconstants ▸ hc)
  rw [hname]
  exact numbered_constantBase e.name c.value k

theorem Numbered.exists_added (h : Numbered e) {c : Constant} (hc : c ∈ constantsOf e) :
    EnumType.isStringEnum e = false ∧ ∃ added, c.name = constName (e.name ++ added) := by
  obtain ⟨hstring, source, hsource, hof⟩ := mem_constantsOf.mp hc
  obtain ⟨literal, -, rfl⟩ := Option.map_eq_some_iff.mp hof
  obtain ⟨added, hname, -⟩ := h.named hsource
  exact ⟨hstring, added, congrArg constName hname⟩

/-- Enumerations that meet in a name are not separate. -/
theorem Numbered.overlap (h : Numbered e) (ho : Numbered other) {c d : Constant}
    (hc : c ∈ constantsOf e) (hd : d ∈ constantsOf other) (hname : c.name = d.name) :
    ¬Separate e other := by
  obtain ⟨hstring, s, hs⟩ := h.exists_added hc
  obtain ⟨hstring', t, ht⟩ := ho.exists_added hd
  rw [hs, ht] at hname
  have hoverlap := overlap_of_constName hname
  simp [Separate, hstring, hstring', hoverlap]

/-- Numbers and truth values of one enumeration have distinct constants. -/
theorem Numbered.names_nodup (h : Numbered e) (hb : e.base ≠ .str) :
    ((constantsOf e).map Constant.name).Nodup := by
  have hnames : e.constants.Pairwise fun c d => c.name ≠ d.name := by
    obtain ⟨literals, hconstants⟩ := h
    rw [hconstants]
    exact List.pairwise_map.mp (enumConstants_names_nodup e.name literals)
  have hadded : ∀ c ∈ e.constants, ∀ k, constantOf? e c = some k → k.name = constName c.name ∧
      ∃ added, c.name = e.name ++ added ∧ LiteralText added.toList := by
    intro c hc k hk
    obtain ⟨literal, hliteral, rfl⟩ := Option.map_eq_some_iff.mp hk
    obtain ⟨added, hname, htext⟩ := h.named hc
    exact ⟨rfl, added, hname, htext (literalText_of_constLiteral hb hliteral)⟩
  unfold constantsOf
  split
  · exact .nil
  · refine List.pairwise_map.mpr ?_
    refine (List.Pairwise.and_mem.mp hnames).filterMap _ fun c d hcd k hk l hl he => ?_
    obtain ⟨hc, hd, hne⟩ := hcd
    obtain ⟨hkname, s, hs, hstext⟩ := hadded c hc k hk
    obtain ⟨hlname, t, ht, httext⟩ := hadded d hd l hl
    rw [hkname, hlname, hs, ht] at he
    exact hne (hs.trans ((constName_injective hstext httext he).trans ht.symm))

end Code

open Code

theorem Compilation.Accepted.enum_numbered {options : Options} {definitions : List Definition}
    {b : Batch} {stages : List Stage} (h : Accepted options definitions b stages) {m : TypeModel}
    (hm : m ∈ b.resources) {e : EnumType} (he : e ∈ m.enums) : Numbered e := by
  obtain ⟨g, -, rfl, r, ho⟩ := h.exists_stage_of_mem hm
  rw [TypeModel.finish_enums] at he
  obtain ⟨-, -, -, -, literals, -, -, hconstants⟩ := ho.enumOf he
  exact ⟨literals, hconstants⟩

/-- The lines of a file that declare constants are those of its enumerations. Constants of one
enumeration have distinct names unless they are strings, and two enumerations have a name in common
only if they are not separate. A file whose enumerations are separate and have no strings among such
constants declares no name twice. -/
theorem constant_names {options : Options} {definitions : List Definition} {b : Batch}
    (h : (compileBatch options definitions).batch = .ok b) {m : TypeModel} (hm : m ∈ b.resources) :
    (resourceLines m).filter isConstant = (constants m).map Constant.line ∧
      (∀ e ∈ m.enums, e.base ≠ .str → ((constantsOf e).map Constant.name).Nodup) ∧
      (∀ e ∈ m.enums, ∀ other ∈ m.enums, ∀ c ∈ constantsOf e, ∀ d ∈ constantsOf other,
        c.name = d.name → ¬Separate e other) ∧
      ((∀ e ∈ m.enums, EnumType.isStringEnum e = true ∨ e.base ≠ .str) →
        m.enums.Pairwise Separate → ((constants m).map Constant.name).Nodup) := by
  obtain ⟨stages, ha⟩ := exists_stages h
  have hnumbered : ∀ e ∈ m.enums, Numbered e := fun e he => ha.enum_numbered hm he
  refine ⟨filter_isConstant_resourceLines m, fun e he => (hnumbered e he).names_nodup,
    fun e he other ho c hc d hd => (hnumbered e he).overlap (hnumbered other ho) hc hd,
    fun hbase hseparate => ?_⟩
  rw [constants, List.map_flatMap, List.nodup_flatMap]
  refine ⟨fun e he => ?_, ?_⟩
  · rcases hbase e he with hstring | hb
    · rw [constantsOf, if_pos hstring]
      exact .nil
    · exact (hnumbered e he).names_nodup hb
  · refine (List.Pairwise.and_mem.mp hseparate).imp fun hpair name hn hn' => ?_
    obtain ⟨he, ho, hs⟩ := hpair
    obtain ⟨c, hc, hcname⟩ := List.mem_map.mp hn
    obtain ⟨d, hd, hdname⟩ := List.mem_map.mp hn'
    exact (hnumbered _ he).overlap (hnumbered _ ho) hc hd (hcname.trans hdname.symm) hs

/-! ## A sample -/

/-- The enumerations of a batch of one resource are those that its lowering makes. -/
theorem enums_perm_of_single {options : Options} {d : Definition} {b : Batch}
    (h : (compileBatch options [d]).batch = .ok b) {version : Version} {schema : Schema}
    (hs : d.select options.version = .ok (version, schema)) :
    ∃ m, b.resources = [m] ∧ m.enums.Perm
      (lowerFields d.kind [d.kind] true (rootProperties schema)
        (.start
          ((startRegistry [d]).reserveAll (ownNames (d.descriptor version.name))))).2.enums := by
  obtain ⟨stages, ha⟩ := exists_stages h
  obtain ⟨g, rest, hselects, hrest, rfl⟩ := List.forall₂_cons_left_iff.mp ha.selects
  cases List.forall₂_nil_left_iff.mp hrest
  obtain ⟨version', hselect, hdescriptor⟩ := hselects
  obtain ⟨rfl, rfl⟩ := Prod.mk.inj (Except.ok.inj (hs.symm.trans hselect))
  refine ⟨options.finish g.model, ha.resources, ?_⟩
  have hchain := ha.chain
  generalize startRegistry [d] = r at hchain ⊢
  cases hchain with
  | cons hg _ =>
      have hmodel : g.model = (lower r g.schema g.descriptor).1 := by rw [hg.lowered]
      rw [TypeModel.finish_enums, hmodel, hdescriptor]
      exact lower_enums_perm r g.schema (d.descriptor version.name)

def twoEnumsSchema (key other : String) (schema schema' : Schema) : Schema :=
  .mk none (.object [("spec", .mk none (.object [(key, schema)] none false)),
    ("status", .mk none (.object [(other, schema')] none false))] none false)

def twoEnums (key other : String) (schema schema' : Schema) : Definition :=
  .single "Widget" "widgets" "shop.io" "v1" (twoEnumsSchema key other schema schema')

def madeEnums (key other : String) (schema schema' : Schema) : List EnumType :=
  let d := twoEnums key other schema schema'
  (lowerFields d.kind [d.kind] true (rootProperties (twoEnumsSchema key other schema schema'))
    (.start ((startRegistry [d]).reserveAll (ownNames (d.descriptor "v1"))))).2.enums

theorem madeEnums_perm {key other : String} {schema schema' : Schema} {b : Batch}
    (h : (compileBatch ⟨none, false⟩ [twoEnums key other schema schema']).batch = .ok b) :
    ∃ m, b.resources = [m] ∧ m.enums.Perm (madeEnums key other schema schema') :=
  enums_perm_of_single h rfl

def integerEnum (n : Int) : Schema :=
  .mk none (.enum .integer none [.num (.int n)])

def flagEnum : Schema :=
  .mk none (.enum .boolean none [.bool true])

theorem Separate.symm {e other : EnumType} (h : Separate e other) : Separate other e := by
  rcases h with h | h | h
  · exact .inr (.inl h)
  · exact .inl h
  · exact .inr (.inr fun hoverlap => h hoverlap.symm)

/-- An enumeration of truth values and one of integers declare no constant twice. -/
theorem flag_and_level_constant_names :
    ∃ b, (compileBatch ⟨none, false⟩ [twoEnums "flag" "level" flagEnum (integerEnum 1)]).batch =
      .ok b ∧ ∃ m, b.resources = [m] ∧ ((constants m).map Constant.name).Nodup := by
  have hmade : (∀ e ∈ madeEnums "flag" "level" flagEnum (integerEnum 1),
      EnumType.isStringEnum e = true ∨ e.base ≠ .str) ∧
        (madeEnums "flag" "level" flagEnum (integerEnum 1)).Pairwise Separate := by
    decide +kernel
  have haccepted : (compileBatch ⟨none, false⟩
      [twoEnums "flag" "level" flagEnum (integerEnum 1)]).batch.toOption.map
        (·.resources.length) = some 1 := by
    decide +kernel
  obtain ⟨b, hb, -⟩ := exists_batch haccepted
  obtain ⟨m, hresources, hperm⟩ := madeEnums_perm hb
  have hm : m ∈ b.resources := hresources ▸ List.mem_singleton_self m
  have hbase : ∀ e ∈ m.enums, EnumType.isStringEnum e = true ∨ e.base ≠ .str :=
    fun e he => hmade.1 e (hperm.mem_iff.mp he)
  have hpairwise : m.enums.Pairwise Separate :=
    (hperm.pairwise_iff Separate.symm).mpr hmade.2
  exact ⟨b, hb, m, hresources, (constant_names hb hm).2.2.2 hbase hpairwise⟩

/-- The name of one enumeration goes on as the constant of the other does, so the file declares one
name for both. -/
theorem level_constants_repeat_name :
    ∃ b, (compileBatch ⟨none, false⟩
      [twoEnums "level" "level1" (integerEnum 11) (integerEnum 1)]).batch = .ok b ∧
      ∃ m ∈ b.resources, "pub const LEVEL11: Level = 11;" ∈ resourceLines m ∧
        "pub const LEVEL11: Level1 = 1;" ∈ resourceLines m ∧
        ¬((constants m).map Constant.name).Nodup := by
  have hlines : ((madeEnums "level" "level1" (integerEnum 11) (integerEnum 1)).flatMap
      constantsOf).map (fun c => (c.name, c.line)) =
        [("LEVEL11", "pub const LEVEL11: Level = 11;"),
          ("LEVEL11", "pub const LEVEL11: Level1 = 1;")] := by
    decide +kernel
  have haccepted : (compileBatch ⟨none, false⟩
      [twoEnums "level" "level1" (integerEnum 11) (integerEnum 1)]).batch.toOption.map
        (·.resources.length) = some 1 := by
    decide +kernel
  obtain ⟨b, hb, -⟩ := exists_batch haccepted
  obtain ⟨m, hresources, hperm⟩ := madeEnums_perm hb
  have hperm' := (hperm.flatMap_right constantsOf).map fun c => (c.name, c.line)
  rw [hlines] at hperm'
  have hline : ∀ l ∈ ["pub const LEVEL11: Level = 11;", "pub const LEVEL11: Level1 = 1;"],
      l ∈ resourceLines m := by
    intro l hl
    have hmem := (hperm'.map Prod.snd).mem_iff.mpr hl
    rw [List.map_map] at hmem
    have hfilter : l ∈ (resourceLines m).filter isConstant := by
      rw [filter_isConstant_resourceLines]
      exact hmem
    exact List.mem_of_mem_filter hfilter
  have hnames := hperm'.map Prod.fst
  rw [List.map_map] at hnames
  refine ⟨b, hb, m, hresources ▸ List.mem_singleton_self m, hline _ (by decide),
    hline _ (by decide), fun hnodup => ?_⟩
  exact absurd (hnames.nodup_iff.mp hnodup) (by decide)

end ResourceTypes
