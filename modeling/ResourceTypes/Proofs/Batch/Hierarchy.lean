import Mathlib.Logic.Relation
import ResourceTypes.Proofs.Batch.Order
import ResourceTypes.Proofs.Batch.References
import ResourceTypes.Proofs.Lowering.Leaves

/-! # The types of a resource form a hierarchy

A shape has its name before its fields are lowered, and wherever it comes back only the name is
handed out. Still no structure holds itself: what a field holds is smaller than the properties of
its owner. And no type stands in a model for nothing: it is new where it is made, so every structure
above it is new as well, up to the root.
-/

namespace ResourceTypes

open Lowering Compilation Relation

/-! ## Who holds whom -/

/-- Whether the fields of a structure of a model are those of some properties. -/
inductive TypeModel.Owns (options : Options) (definitions : List Definition) (b : Batch)
    (m : TypeModel) (struct : StructType) : List (String × Schema) → Prop
  | root {i : Nat} {d : Definition} {version : Version} {schema : Schema} :
      struct = m.root → b.resources[i]? = some m → definitions[i]? = some d →
      d.select options.version = .ok (version, schema) →
      Owns options definitions b m struct (rootProperties schema)
  | nested {s : Schema} {properties : List (String × Schema)} :
      struct ∈ m.structs → Placed.Named options definitions b s struct.name →
      s.structProperties? = some properties →
      Owns options definitions b m struct properties

/-- Whether a structure of a model has a field that holds a name which no reference asked for. -/
def TypeModel.Uses (options : Options) (definitions : List Definition) (b : Batch) (m : TypeModel)
    (user name : String) : Prop :=
  ∃ struct properties, m.Owns options definitions b struct properties ∧ struct.name = user ∧
    ∃ field ∈ struct.fields, field.jsonKey ∉ Schema.referenceKeys properties ∧
      name ∈ field.type.names

namespace Compilation

/-- Whether a name is that of the structure of some properties. -/
def Shaped (options : Options) (definitions : List Definition) (name : String)
    (properties : List (String × Schema)) : Prop :=
  ∃ node ∈ nodes options definitions, node.structProperties? = some properties ∧
    memo options definitions (.ofProperties properties) = some name

/-- Whether a name is that of a shape of a limited size. -/
def Below (options : Options) (definitions : List Definition) (size : Nat) (name : String) : Prop :=
  ∃ node ∈ nodes options definitions, sizeOf node ≤ size ∧ ∃ text, node.fragment? = some text ∧
    memo options definitions (Digest.ofChars text) = some name

variable {options : Options} {definitions : List Definition} {b : Batch} {stages : List Stage}
  {m : TypeModel}

/-- A compilation comes to whatever lies below a schema that it comes to. -/
theorem nodes_subset {node : Schema} (hn : node ∈ nodes options definitions) :
    node.nodes ⊆ nodes options definitions := by
  obtain ⟨d, hd, hn⟩ := List.mem_flatMap.mp hn
  intro other ho
  refine List.mem_flatMap.mpr ⟨d, hd, ?_⟩
  split at hn
  next version schema hs =>
    obtain ⟨property, hp, hbelow⟩ := Schema.mem_propertyNodes.mp hn
    exact Schema.mem_propertyNodes.mpr ⟨property, hp, Schema.nodes_subset_of_mem hbelow ho⟩
  next => simp at hn

namespace Accepted

theorem exists_definition_of_stage (h : Accepted options definitions b stages) {i : Nat} {g : Stage}
    (hi : stages[i]? = some g) : ∃ d, definitions[i]? = some d ∧ Selects options d g := by
  obtain ⟨hlt, rfl⟩ := List.getElem?_eq_some_iff.mp hi
  have hd : i < definitions.length := h.selects.length_eq ▸ hlt
  exact ⟨definitions[i], List.getElem?_eq_getElem hd, h.selects.get hd hlt⟩

/-- A name that is known in the end is that of a nested type. -/
theorem nested_of_memo (h : Accepted options definitions b stages) {signature : Signature}
    {name : String} (hm : memo options definitions signature = some name) :
    name ∈ b.resources.flatMap TypeModel.nestedNames := by
  rw [h.nestedNames_perm.mem_iff]
  rcases h.chain.mem_names.mp (mem_names_of_memo hm) with ⟨g, hg, made, hmade, he⟩ | hold
  · cases he
    exact List.mem_flatMap.mpr ⟨g, hg, List.mem_map_of_mem hmade⟩
  · rw [startRegistry_names] at hold
    simp at hold

theorem root_not_nested (h : Accepted options definitions b stages) (hm : m ∈ b.resources) :
    m.root.name ∉ b.resources.flatMap TypeModel.nestedNames := by
  intro hnested
  have hkind : m.root.name ∈ b.resources.map (·.root.name) := List.mem_map_of_mem hm
  rw [h.rootNames_eq] at hkind
  exact h.nestedNames_fresh.2 _ hnested
    (mem_startRegistry.mpr (.inr (List.mem_append_left _ hkind)))

theorem root_name_ne (h : Accepted options definitions b stages) (hm : m ∈ b.resources)
    {struct : StructType} (hs : struct ∈ m.structs) : struct ≠ m.root := by
  rintro rfl
  refine h.root_not_nested hm (List.mem_flatMap.mpr ⟨m, hm, ?_⟩)
  exact List.mem_append_left _ (List.mem_map_of_mem hs)

theorem resource_index (h : Accepted options definitions b stages) {i j : Nat}
    (hi : b.resources[i]? = some m) (hj : b.resources[j]? = some m) : i = j := by
  have hnodup : (b.resources.map (·.root.name)).Nodup := by
    rw [h.rootNames_eq]
    exact h.typeNames_nodup.of_append_left
  have hresources := hnodup.of_map
  exact (List.getElem?_inj (List.getElem?_eq_some_iff.mp hi).1 hresources).mp (hi.trans hj.symm)

end Accepted

namespace Faithful

theorem shaped_unique (h : Faithful options definitions b stages) {name : String}
    {properties others : List (String × Schema)} (hp : Shaped options definitions name properties)
    (ho : Shaped options definitions name others) : properties = others := by
  obtain ⟨node, hn, hproperties, hm⟩ := hp
  obtain ⟨other, hother, hothers, hm'⟩ := ho
  have htext := h.fragment_eq_of_name hn hother (Schema.fragment_of_structProperties hproperties)
    (Schema.fragment_of_structProperties hothers) hm hm'
  have hwf := wellFormed_nodes h.wellFormed hn
  have hwf' := wellFormed_nodes h.wellFormed hother
  exact (Signature.propertiesText_inj (hwf.properties hproperties).1
    (hwf'.properties hothers).1).mp htext

theorem nodup_of_shaped (h : Faithful options definitions b stages) {name : String}
    {properties : List (String × Schema)} (hp : Shaped options definitions name properties) :
    (properties.map (·.1)).Nodup := by
  obtain ⟨node, hn, hproperties, -⟩ := hp
  exact ((wellFormed_nodes h.wellFormed hn).properties hproperties).1.nodup

theorem exists_shaped (h : Faithful options definitions b stages) (hm : m ∈ b.resources)
    {struct : StructType} (hs : struct ∈ m.structs) :
    ∃ properties, Shaped options definitions struct.name properties := by
  obtain ⟨node, hn, properties, hp, hmemo⟩ :=
    h.exists_properties_of_struct (List.mem_flatMap.mpr ⟨m, hm, hs⟩)
  exact ⟨properties, node, hn, hp, hmemo⟩

theorem owns_struct_iff (h : Faithful options definitions b stages) (hm : m ∈ b.resources)
    {struct : StructType} (hs : struct ∈ m.structs) {properties : List (String × Schema)} :
    m.Owns options definitions b struct properties ↔
      Shaped options definitions struct.name properties := by
  constructor
  · intro howns
    cases howns with
    | root hroot => exact (h.root_name_ne hm hs hroot).elim
    | @nested s _ _ hplaced hp =>
        obtain ⟨hn, hmemo⟩ := h.memo_of_struct hplaced hp
        exact ⟨s, hn, hp, hmemo⟩
  · rintro ⟨node, hn, hp, hmemo⟩
    exact .nested hs (h.placed_struct hn hp hmemo) hp

theorem owns_root_iff (h : Faithful options definitions b stages) {i : Nat} {g : Stage}
    (hi : stages[i]? = some g) (hm : b.resources[i]? = some m)
    {properties : List (String × Schema)} :
    m.Owns options definitions b m.root properties ↔ properties = rootProperties g.schema := by
  obtain ⟨d, hd, version, hselect, -⟩ := h.exists_definition_of_stage hi
  constructor
  · intro howns
    cases howns with
    | nested hs => exact (h.root_name_ne (List.mem_of_getElem? hm) hs rfl).elim
    | root _ hj hd' hselect' =>
        obtain rfl := h.resource_index hm hj
        cases hd.symm.trans hd'
        cases hselect.symm.trans hselect'
        rfl
  · rintro rfl
    exact .root rfl hm hd hselect

/-- Every structure has the fields of one list of properties. -/
theorem owns_unique (h : Faithful options definitions b stages) (hm : m ∈ b.resources)
    {struct : StructType} (hs : struct ∈ m.root :: m.structs) :
    ∃! properties, m.Owns options definitions b struct properties := by
  rcases List.mem_cons.mp hs with rfl | hs
  · obtain ⟨i, hi⟩ := List.mem_iff_getElem?.mp hm
    obtain ⟨g, hg, -⟩ := h.exists_stage_of_resource hi
    exact ⟨rootProperties g.schema, (h.owns_root_iff hg hi).mpr rfl, fun _ ho =>
      (h.owns_root_iff hg hi).mp ho⟩
  · obtain ⟨properties, hp⟩ := h.exists_shaped hm hs
    exact ⟨properties, (h.owns_struct_iff hm hs).mpr hp, fun _ ho =>
      h.shaped_unique ((h.owns_struct_iff hm hs).mp ho) hp⟩

/-! ## What a structure uses -/

/-- The name in a field of properties is that of a shape inside one of them. -/
theorem below_of_field {properties : List (String × Schema)}
    (hnodes : Schema.propertyNodes properties ⊆ nodes options definitions) {fields : List Field}
    (ht : Translates (memo options definitions) properties fields) {field : Field}
    (hf : field ∈ sortFields fields) (hkey : field.jsonKey ∉ Schema.referenceKeys properties)
    {name : String} (hn : name ∈ field.type.names) :
    ∃ size < sizeOf properties, Below options definitions size name := by
  obtain ⟨property, hp, hfield⟩ := ht.exists_property (mem_sortFields.mp hf)
  have href : property.2.isReference = false := by
    rw [← Bool.not_eq_true]
    intro htrue
    rw [translateField_key hfield] at hkey
    exact hkey (List.mem_map_of_mem (List.mem_filter.mpr ⟨hp, htrue⟩))
  obtain ⟨lowered, hl, rfl⟩ := Option.map_eq_some_iff.mp hfield
  obtain ⟨node, hnode, hsize, htext⟩ := exists_node_of_name href hl hn
  refine ⟨sizeOf property.2, Schema.sizeOf_lt_of_mem_properties hp, node, ?_, hsize, htext⟩
  exact hnodes (Schema.mem_propertyNodes.mpr ⟨property, hp, hnode⟩)

theorem propertyNodes_subset {name : String} {properties : List (String × Schema)}
    (hp : Shaped options definitions name properties) :
    Schema.propertyNodes properties ⊆ nodes options definitions := by
  obtain ⟨node, hn, hproperties, -⟩ := hp
  have hbelow := nodes_subset hn
  rw [Schema.nodes_of_structProperties hproperties] at hbelow
  exact List.subset_of_cons_subset hbelow

/-- What a root uses is the name of a shape, and what a structure uses is the name of a shape that
is smaller than its properties. -/
theorem uses_cases (h : Faithful options definitions b stages) (hm : m ∈ b.resources)
    {user name : String} (hu : m.Uses options definitions b user name) :
    (user = m.root.name ∧ ∃ size, Below options definitions size name) ∨
      ∃ properties, Shaped options definitions user properties ∧
        ∃ size < sizeOf properties, Below options definitions size name := by
  obtain ⟨struct, properties, howns, rfl, field, hf, hkey, hn⟩ := hu
  cases howns with
  | root hroot hi hd hselect =>
      left
      subst hroot
      obtain ⟨g, hg, version, hselect', -⟩ := h.exists_stage_of_definition hd
      cases hselect.symm.trans hselect'
      obtain ⟨fields, ht, hfields⟩ := h.root_translates (List.mem_of_getElem? hg)
      cases hi.symm.trans (h.resource_of_stage hg)
      rw [TypeModel.finish_root, hfields] at hf
      have hnodes := h.rootNodes_subset (List.mem_of_getElem? hg)
      obtain ⟨size, -, hbelow⟩ := below_of_field hnodes ht hf hkey hn
      exact ⟨rfl, size, hbelow⟩
  | nested hs hplaced hp =>
      right
      obtain ⟨hnode, hmemo⟩ := h.memo_of_struct hplaced hp
      have hshaped : Shaped options definitions struct.name properties := ⟨_, hnode, hp, hmemo⟩
      obtain ⟨original, rfl, fields, ht, hfields⟩ :=
        h.original_struct hnode hp (List.mem_flatMap.mpr ⟨m, hm, hs⟩) hmemo
      obtain ⟨f, hfm, hkey', -, htype⟩ := StructType.exists_field_of_finish hf
      have hnames : field.type.names = f.type.names := by
        rcases htype with ht | ht <;> simp [ht]
      rw [hkey'] at hkey
      rw [hnames] at hn
      rw [hfields] at hfm
      exact ⟨properties, hshaped, below_of_field (propertyNodes_subset hshaped) ht hfm hkey hn⟩

/-- The properties of a structure are smaller than every limit for its shape. -/
theorem sizeOf_lt_of_below (h : Faithful options definitions b stages) {size : Nat} {name : String}
    (hb : Below options definitions size name) {properties : List (String × Schema)}
    (hp : Shaped options definitions name properties) : sizeOf properties < size := by
  obtain ⟨node, hn, hsize, text, hf, hm⟩ := hb
  obtain ⟨other, hother, hproperties, hm'⟩ := hp
  have htext := h.fragment_eq_of_name hn hother hf
    (Schema.fragment_of_structProperties hproperties) hm hm'
  rw [htext] at hf
  obtain ⟨found, hfound⟩ := Schema.exists_structProperties_of_fragment hf
  have hsame : found = properties := by
    rw [Schema.fragment_of_structProperties hfound, Option.some.injEq] at hf
    have hwf := wellFormed_nodes h.wellFormed hn
    have hwf' := wellFormed_nodes h.wellFormed hother
    exact (Signature.propertiesText_inj (hwf.properties hfound).1
      (hwf'.properties hproperties).1).mp hf
  rw [← hsame]
  exact (Schema.sizeOf_properties_lt hfound).trans_le hsize

/-- What is used is nested, whoever uses it. -/
theorem nested_of_uses (h : Faithful options definitions b stages) (hm : m ∈ b.resources)
    {user name : String} (hu : m.Uses options definitions b user name) :
    name ∈ b.resources.flatMap TypeModel.nestedNames := by
  rcases h.uses_cases hm hu with ⟨-, -, _, -, -, _, -, hmemo⟩ | ⟨-, -, -, -, _, -, -, _, -, hmemo⟩
  · exact h.nested_of_memo hmemo
  · exact h.nested_of_memo hmemo

/-- A nested user is a structure, and the properties of what it uses are smaller than its own. -/
theorem smaller_of_uses (h : Faithful options definitions b stages) (hm : m ∈ b.resources)
    {user name : String} (hu : m.Uses options definitions b user name)
    (hnested : user ∈ b.resources.flatMap TypeModel.nestedNames) :
    ∃ others, Shaped options definitions user others ∧ ∀ properties,
      Shaped options definitions name properties → sizeOf properties < sizeOf others := by
  rcases h.uses_cases hm hu with ⟨rfl, -⟩ | ⟨others, ho, size, hsize, hbelow⟩
  · exact (h.root_not_nested hm hnested).elim
  · exact ⟨others, ho, fun _ hp => (h.sizeOf_lt_of_below hbelow hp).trans hsize⟩

/-- So the properties get smaller along any number of uses. -/
theorem smaller_of_chain (h : Faithful options definitions b stages) {user name : String}
    (hu : TransGen (fun x y => ∃ m ∈ b.resources, m.Uses options definitions b x y) user name)
    (hnested : user ∈ b.resources.flatMap TypeModel.nestedNames) :
    ∃ others, Shaped options definitions user others ∧ ∀ properties,
      Shaped options definitions name properties → sizeOf properties < sizeOf others := by
  induction hu using TransGen.head_induction_on with
  | single hu =>
      obtain ⟨m, hm, hu⟩ := hu
      exact h.smaller_of_uses hm hu hnested
  | head hu _ ih =>
      obtain ⟨m, hm, hu⟩ := hu
      obtain ⟨others, ho, hfirst⟩ := h.smaller_of_uses hm hu hnested
      obtain ⟨between, hbetween, hrest⟩ := ih (h.nested_of_uses hm hu)
      exact ⟨others, ho, fun properties hp => (hrest properties hp).trans (hfirst between hbetween)⟩

theorem not_uses_itself (h : Faithful options definitions b stages) (name : String) :
    ¬TransGen (fun x y => ∃ m ∈ b.resources, m.Uses options definitions b x y) name name := by
  intro hu
  obtain ⟨_, -, m, hm, hlast⟩ := TransGen.tail'_iff.mp hu
  obtain ⟨properties, hp, hsmaller⟩ := h.smaller_of_chain hu (h.nested_of_uses hm hlast)
  exact Nat.lt_irrefl _ (hsmaller properties hp)

/-! ## What a stage has made -/

/-- A memo stays closed when a stage names what it makes. -/
theorem closed_of_stage (h : Faithful options definitions b stages) {r : Naming.Registry}
    {g : Stage} (hg : g ∈ stages) (ho : g.Of r) (hd : (r.names.map (·.1)).Nodup)
    (hc : r.memo.Closed (nodes options definitions)) :
    g.state.registry.memo.Closed (nodes options definitions) := by
  intro node hn properties name hp hm
  have hentry := mem_names_of_memo hm
  rw [ho.grows.names, List.mem_append] at hentry
  rcases hentry with hmade | hold
  · obtain ⟨made, hmade, he⟩ := List.mem_map.mp hmade
    have hfragment := h.fragment_eq h.collisionFree hg hmade hn
      (Schema.fragment_of_structProperties hp) (Prod.mk.inj he).1
    obtain ⟨-, -, -, fields, ht, -⟩ := h.struct_of_made hg hmade hn hp hfragment
    exact ⟨fields, ht⟩
  · obtain ⟨fields, ht⟩ := hc node hn properties name hp (memo_of_mem_names hd hold)
    exact ⟨fields, ht.mono ho.grows.memo⟩

end Faithful

/-- A stage with the registry before it, which names every shape once and has a closed memo. -/
structure Entered (options : Options) (definitions : List Definition) (r : Naming.Registry)
    (g : Stage) : Prop where
  of : g.Of r
  signatures : (r.names.map (·.1)).Nodup
  closed : r.memo.Closed (nodes options definitions)

theorem Faithful.exists_entered (h : Faithful options definitions b stages) {g : Stage}
    (hg : g ∈ stages) : ∃ r, Entered options definitions r g := by
  have hstart : (startRegistry definitions).names = [] := startRegistry_names definitions
  have hclosed : (startRegistry definitions).memo.Closed (nodes options definitions) := by
    intro node _ properties name _ hm
    have hentry := mem_names_of_memo hm
    rw [hstart] at hentry
    simp at hentry
  obtain ⟨r, ho, hd, hc⟩ := h.chain.before
    (P := fun r => (r.names.map (·.1)).Nodup ∧ r.memo.Closed (nodes options definitions))
    (fun r g hg ho hr => ⟨ho.grows.signatures hr.1, h.closed_of_stage hg ho hr.1 hr.2⟩)
    ⟨by simp [hstart], hclosed⟩ hg
  exact ⟨r, ho, hd, hc⟩

namespace Entered

variable {r : Naming.Registry} {g : Stage}

theorem memo_of_made (h : Entered options definitions r g) {made : Made} (hm : made ∈ g.made) :
    g.state.registry.memo made.signature = some made.name := by
  apply memo_of_mem_names (h.of.grows.signatures h.signatures)
  rw [h.of.grows.names]
  exact List.mem_append_left _ (List.mem_map_of_mem hm)

/-- What a stage makes has no name before. -/
theorem new_of_made (h : Entered options definitions r g) {made : Made} (hm : made ∈ g.made)
    (name : String) : r.memo made.signature ≠ some name := by
  intro hold
  have hd := h.of.grows.signatures h.signatures
  rw [h.of.grows.names, List.map_append, List.nodup_append] at hd
  exact hd.2.2 made.signature (List.mem_map_of_mem (List.mem_map_of_mem hm)) made.signature
    (List.mem_map_of_mem (mem_names_of_memo hold)) rfl

/-- The type of something new is its name, from which it is reached by no use at all. -/
theorem reaches_self (h : Entered options definitions r g) {made : Made} (hm : made ∈ g.made)
    {s : Schema} (hf : s.fragment? = some made.fragment) {key : String} {lowered : Lowered}
    (ht : translate g.state.registry.memo key s = some lowered) {uses : String → String → Prop} :
    s.isReference = false ∧ ∃ first ∈ lowered.type.names, ReflTransGen uses first made.name := by
  obtain ⟨name, hname, htype⟩ := translate_of_fragment hf ht
  rw [← made.signature_eq, h.memo_of_made hm, Option.some.injEq] at hname
  subst hname
  refine ⟨Schema.isReference_of_fragment hf, made.name, ?_, .refl⟩
  rw [htype, TypeRef.names]
  exact List.mem_singleton_self _

/-- A structure above something new is new. -/
theorem exists_made (h : Entered options definitions r g) {made : Made} (hm : made ∈ g.made)
    {s : Schema} (hs : s.nodes ⊆ nodes options definitions) {node : Schema} (hn : node ∈ s.nodes)
    (hf : node.fragment? = some made.fragment) {properties : List (String × Schema)}
    (hp : s.structProperties? = some properties) {name : String}
    (hname : g.state.registry.memo (.ofProperties properties) = some name) :
    ∃ owner ∈ g.made, owner.entry = (.ofProperties properties, name) := by
  have hentry := mem_names_of_memo hname
  rw [h.of.grows.names, List.mem_append] at hentry
  rcases hentry with hnew | hold
  · obtain ⟨owner, howner, he⟩ := List.mem_map.mp hnew
    exact ⟨owner, howner, he⟩
  · -- otherwise everything below the structure would have been translated before the stage
    have hbefore : translate r.memo "" s = some (.plain (.named name)) := by
      rw [translate_of_structProperties hp, memo_of_mem_names h.signatures hold, Option.map_some]
    obtain ⟨key, lowered, ht⟩ := h.closed.translated_below hs hbefore hn
    obtain ⟨found, hfound, -⟩ := translate_of_fragment hf ht
    exact (h.new_of_made hm found (made.signature_eq ▸ hfound)).elim

end Entered

/-! ## What a root reaches -/

theorem exists_finished_names (options : Options) {s : StructType} {field : Field}
    (h : field ∈ s.fields) : ∃ f ∈ (options.finishStruct s).fields,
      f.jsonKey = field.jsonKey ∧ f.type.names = field.type.names := by
  unfold Options.finishStruct
  split
  · exact ⟨_, List.mem_map_of_mem h, rfl, TypeRef.relax_names _⟩
  · exact ⟨field, h, rfl, rfl⟩

/-- The field of a property holds what the translation of the property holds. -/
theorem exists_field_names {memo : Memo} {properties : List (String × Schema)}
    {fields : List Field} (ht : Translates memo properties fields)
    (hd : (properties.map (·.1)).Nodup) {property : String × Schema} (hp : property ∈ properties)
    {lowered : Lowered} (hl : translate memo property.1 property.2 = some lowered) :
    ∃ field ∈ sortFields fields, field.jsonKey = property.1 ∧
      field.type.names = lowered.type.names := by
  obtain ⟨field, hf, hkey⟩ := ht.exists_field_of_key hp
  obtain ⟨found, hfound, htype⟩ := ht.field_of_key hd hp hf hkey
  cases hl.symm.trans hfound
  exact ⟨field, hf, hkey, by rw [htype]⟩

theorem not_mem_referenceKeys {properties : List (String × Schema)}
    (hd : (properties.map (·.1)).Nodup) {property : String × Schema} (hp : property ∈ properties)
    (href : property.2.isReference = false) :
    property.1 ∉ Schema.referenceKeys properties := by
  rw [Schema.mem_referenceKeys hd hp, href]
  exact Bool.false_ne_true

namespace Faithful

variable {r : Naming.Registry} {g : Stage} {i : Nat}

theorem uses_root (h : Faithful options definitions b stages) (hi : stages[i]? = some g)
    {property : String × Schema} (hp : property ∈ rootProperties g.schema)
    (href : property.2.isReference = false) {lowered : Lowered}
    (hl : translate g.state.registry.memo property.1 property.2 = some lowered) {name : String}
    (hn : name ∈ lowered.type.names) :
    (options.finish g.model).Uses options definitions b
      (options.finish g.model).root.name name := by
  obtain ⟨d, hd, version, hselect, -⟩ := h.exists_definition_of_stage hi
  have hkeys := rootProperties_nodup ((h.wellFormed d (List.mem_of_getElem? hd)).of_select hselect)
  obtain ⟨r, ho⟩ := h.chain.of_mem (List.mem_of_getElem? hi)
  obtain ⟨fields, ht, hfields, -⟩ := ho.root
  obtain ⟨field, hf, hkey, hnames⟩ := exists_field_names ht hkeys hp hl
  refine ⟨_, _, (h.owns_root_iff hi (h.resource_of_stage hi)).mpr rfl, rfl, field, ?_, ?_,
    hnames ▸ hn⟩
  · rwa [TypeModel.finish_root, hfields]
  · rw [hkey]
    exact not_mem_referenceKeys hkeys hp href

theorem uses_struct (h : Faithful options definitions b stages) (hi : stages[i]? = some g)
    {type : StructType} (hs : type ∈ g.model.structs) {properties : List (String × Schema)}
    (hshaped : Shaped options definitions type.name properties) {fields : List Field}
    (ht : Translates g.state.registry.memo properties fields)
    (hfields : type.fields = sortFields fields) {property : String × Schema}
    (hp : property ∈ properties) (href : property.2.isReference = false) {lowered : Lowered}
    (hl : translate g.state.registry.memo property.1 property.2 = some lowered) {name : String}
    (hn : name ∈ lowered.type.names) :
    (options.finish g.model).Uses options definitions b type.name name := by
  have hkeys := h.nodup_of_shaped hshaped
  obtain ⟨field, hf, hkey, hnames⟩ := exists_field_names ht hkeys hp hl
  obtain ⟨f, hfm, hkey', hnames'⟩ := exists_finished_names options (hfields ▸ hf)
  have hm := List.mem_of_getElem? (h.resource_of_stage hi)
  have hmem : options.finishStruct type ∈ (options.finish g.model).structs := by
    rw [TypeModel.finish_structs]
    exact List.mem_map_of_mem hs
  have howns : (options.finish g.model).Owns options definitions b (options.finishStruct type)
      properties := by
    rw [h.owns_struct_iff hm hmem, StructType.finish_name]
    exact hshaped
  refine ⟨_, properties, howns, StructType.finish_name options type, f, hfm, ?_, ?_⟩
  · rw [hkey', hkey]
    exact not_mem_referenceKeys hkeys hp href
  · rw [hnames', hnames]
    exact hn

/-- Where something new lies below a schema, the type of the schema holds a name from which the new
one is reached. -/
theorem reaches (h : Faithful options definitions b stages) (hi : stages[i]? = some g)
    (he : Entered options definitions r g) {made : Made} (hmade : made ∈ g.made) {s : Schema}
    (hs : s.nodes ⊆ nodes options definitions) {key : String} {lowered : Lowered}
    (ht : translate g.state.registry.memo key s = some lowered) {node : Schema}
    (hn : node ∈ s.nodes) (hf : node.fragment? = some made.fragment) :
    s.isReference = false ∧ ∃ first ∈ lowered.type.names,
      ReflTransGen ((options.finish g.model).Uses options definitions b) first made.name := by
  induction s using Schema.lowering_induction generalizing key lowered with
  | leaf s hp hc =>
      rw [Schema.nodes_of_leaf hp hc, List.mem_singleton] at hn
      subst hn
      exact he.reaches_self hmade hf ht
  | content s container c hc ih =>
      rw [Schema.nodes_of_content hc] at hn hs
      rcases List.mem_cons.mp hn with rfl | hn
      · rw [Schema.fragment_of_content hc] at hf
        cases hf
      · rw [translate_of_content hc] at ht
        obtain ⟨inner, hinner, rfl⟩ := Option.map_eq_some_iff.mp ht
        obtain ⟨href, first, hfirst, hreach⟩ := ih (List.subset_of_cons_subset hs) hinner hn
        refine ⟨(Schema.isReference_of_content hc).trans href, first, ?_, hreach⟩
        exact (names_of_content hc inner.type).symm ▸ hfirst
  | struct s properties hp ih =>
      have hself := hs s.self_mem_nodes
      rcases List.mem_cons.mp (Schema.nodes_of_structProperties hp ▸ hn) with rfl | hbelow
      · exact he.reaches_self hmade hf ht
      rw [translate_of_structProperties hp] at ht
      obtain ⟨name, hname, rfl⟩ := Option.map_eq_some_iff.mp ht
      -- the structure is as new as what lies below it, so it stands in the same model
      have hg := List.mem_of_getElem? hi
      obtain ⟨owner, howner, hentry⟩ := he.exists_made hmade hs hn hf hp hname
      have hfragment := h.fragment_eq h.collisionFree hg howner hself
        (Schema.fragment_of_structProperties hp) (Prod.mk.inj hentry).1
      obtain ⟨type, htype, hsame, fields, hfields, hsorted⟩ :=
        h.struct_of_made hg howner hself hp hfragment
      obtain rfl : type.name = name := hsame.trans (Prod.mk.inj hentry).2
      have hshaped : Shaped options definitions type.name properties :=
        ⟨s, hself, hp, h.chain.memo_of_mem hg _ _ hname⟩
      obtain ⟨property, hproperty, hnode⟩ := Schema.mem_propertyNodes.mp hbelow
      obtain ⟨field, -, hfield⟩ := hfields.exists_field hproperty
      obtain ⟨inner, hinner, -⟩ := Option.map_eq_some_iff.mp hfield
      have hsub : property.2.nodes ⊆ nodes options definitions := fun other ho =>
        propertyNodes_subset hshaped (Schema.mem_propertyNodes.mpr ⟨property, hproperty, ho⟩)
      obtain ⟨href, first, hfirst, hreach⟩ := ih property hproperty hsub hinner hnode
      have huse := h.uses_struct hi htype hshaped hfields hsorted hproperty href hinner hfirst
      exact ⟨Schema.isReference_of_structProperties hp, type.name, List.mem_singleton_self _,
        .head huse hreach⟩

/-- The root of a model reaches whatever was made for the model. -/
theorem root_reaches (h : Faithful options definitions b stages) (hi : stages[i]? = some g)
    {made : Made} (hmade : made ∈ g.made) :
    TransGen ((options.finish g.model).Uses options definitions b)
      (options.finish g.model).root.name made.name := by
  have hg := List.mem_of_getElem? hi
  obtain ⟨r, he⟩ := h.exists_entered hg
  obtain ⟨node, hn, hf⟩ := (he.of.sound made hmade).exists_node
  obtain ⟨property, hp, hbelow⟩ := Schema.mem_propertyNodes.mp hn
  obtain ⟨fields, ht, -⟩ := he.of.root
  obtain ⟨field, -, hfield⟩ := ht.exists_field hp
  obtain ⟨lowered, hl, -⟩ := Option.map_eq_some_iff.mp hfield
  have hsub : property.2.nodes ⊆ nodes options definitions := fun other ho =>
    h.rootNodes_subset hg (Schema.mem_propertyNodes.mpr ⟨property, hp, ho⟩)
  obtain ⟨href, first, hfirst, hreach⟩ := h.reaches hi he hmade hsub hl hbelow hf
  exact .head' (h.uses_root hi hp href hl hfirst) hreach

end Faithful

end Compilation

/-- The types of every resource of an accepted batch form a hierarchy below its root, names that
references ask for apart. Each structure has the fields of one list of properties. No name uses
itself along any number of fields of any resources, whatever lists, maps and optional layers are
around it. And the root of a model reaches each of its structures and enumerations through the
fields of this very model. -/
theorem types_form_hierarchy {options : Options} {definitions : List Definition} {b : Batch}
    (hw : ∀ d ∈ definitions, d.WellFormed)
    (hcf : Digest.CollisionFree (fragments options definitions))
    (h : (compileBatch options definitions).batch = .ok b) :
    (∀ m ∈ b.resources, ∀ struct ∈ m.root :: m.structs,
      ∃! properties, m.Owns options definitions b struct properties) ∧
    (∀ name, ¬TransGen (fun x y => ∃ m ∈ b.resources, m.Uses options definitions b x y)
      name name) ∧
    ∀ m ∈ b.resources, ∀ name ∈ m.nestedNames,
      TransGen (m.Uses options definitions b) m.root.name name := by
  obtain ⟨stages, ha⟩ := exists_stages h
  have hf : Faithful options definitions b stages := ⟨ha, hw, hcf⟩
  refine ⟨fun m hm struct hs => hf.owns_unique hm hs, hf.not_uses_itself, ?_⟩
  intro m hm name hname
  obtain ⟨i, hi⟩ := List.mem_iff_getElem?.mp hm
  obtain ⟨g, hg, rfl⟩ := ha.exists_stage_of_resource hi
  obtain ⟨r, ho⟩ := ha.chain.of_mem (List.mem_of_getElem? hg)
  rw [TypeModel.finish_nestedNames, ho.nestedNames_perm.mem_iff] at hname
  obtain ⟨made, hmade, rfl⟩ := List.mem_map.mp hname
  exact hf.root_reaches hg hmade

/-- The enumeration of the shared object is reached from the first resource, which makes it. -/
theorem sampleDefinitions_form_hierarchy :
    (∀ d ∈ sampleDefinitions, d.WellFormed) ∧
      Digest.CollisionFree (fragments ⟨none, true⟩ sampleDefinitions) ∧
      ∃ b, (compileBatch ⟨none, true⟩ sampleDefinitions).batch = .ok b ∧
        ∃ m ∈ b.resources,
          TransGen (m.Uses ⟨none, true⟩ sampleDefinitions b) m.root.name "Mode" := by
  have hw := sampleDefinitions_wellFormed
  have hcf := sampleDefinitions_collisionFree true
  have hnames : (compileBatch ⟨none, true⟩ sampleDefinitions).batch.toOption.map
      (fun b => b.resources.map (·.nestedNames)) = some [["WidgetSpec", "Mode"], []] := by
    decide +kernel
  obtain ⟨b, hb, hnested⟩ := exists_batch hnames
  have hfirst : ["WidgetSpec", "Mode"] ∈ b.resources.map (·.nestedNames) :=
    hnested ▸ List.mem_cons_self
  obtain ⟨m, hm, hnames⟩ := List.mem_map.mp hfirst
  have hmode : "Mode" ∈ m.nestedNames := hnames ▸ List.mem_cons_of_mem _ List.mem_cons_self
  exact ⟨hw, hcf, b, hb, m, hm, (types_form_hierarchy hw hcf hb).2.2 m hm "Mode" hmode⟩

end ResourceTypes
