import Mathlib.Data.List.Induction
import ResourceTypes.Definition.Reading
import ResourceTypes.Proofs.Definition.Selection
import ResourceTypes.Proofs.Value.Records

/-! # Versions as they are declared

A document may declare a version more than once. The first declaration of a name gives its place,
and the last one gives what the version is. The first version in this order that fits is selected,
with or without a schema.
-/

namespace ResourceTypes.Definition

/-! ## One declaration -/

theorem names_declare (version : Version) (versions : List Version) :
    (declare version versions).map (·.name) =
      if version.name ∈ versions.map (·.name) then versions.map (·.name)
      else versions.map (·.name) ++ [version.name] := by
  induction versions with
  | nil => rfl
  | cons first rest ih =>
      unfold declare
      by_cases h : first.name = version.name
      · simp [h]
      · simp only [h, if_false, List.map_cons, List.mem_cons, Ne.symm h, false_or, ih]
        split <;> simp

theorem mem_declare_iff {version other : Version} {versions : List Version}
    (hd : (versions.map (·.name)).Nodup) :
    other ∈ declare version versions ↔
      other = version ∨ other ∈ versions ∧ other.name ≠ version.name := by
  induction versions with
  | nil => simp [declare]
  | cons first rest ih =>
      rw [List.map_cons, List.nodup_cons] at hd
      unfold declare
      by_cases h : first.name = version.name
      · have hrest : ∀ w ∈ rest, w.name ≠ version.name := fun w hw he =>
          hd.1 (h ▸ he ▸ List.mem_map_of_mem hw)
        rw [if_pos h, List.mem_cons, List.mem_cons, or_and_right]
        refine or_congr_right ⟨fun hm => .inr ⟨hm, hrest other hm⟩, ?_⟩
        rintro (⟨rfl, hne⟩ | ⟨hm, -⟩)
        · exact absurd h hne
        · exact hm
      · rw [if_neg h, List.mem_cons, ih hd.2, List.mem_cons, or_and_right]
        constructor
        · rintro (rfl | rfl | hm)
          · exact .inr (.inl ⟨rfl, h⟩)
          · exact .inl rfl
          · exact .inr (.inr hm)
        · rintro (rfl | ⟨rfl, -⟩ | hm)
          · exact .inr (.inl rfl)
          · exact .inl rfl
          · exact .inr (.inr hm)

/-- A declaration sets the version under its name. -/
theorem keyed_declare (version : Version) (versions : List Version) :
    Keyed.set version.name version (versions.map fun v => (v.name, v)) =
      (declare version versions).map fun v => (v.name, v) := by
  induction versions with
  | nil => rfl
  | cons first rest ih =>
      unfold declare
      rw [List.map_cons, Keyed.set]
      by_cases h : first.name = version.name
      · simp [h]
      · simp [h, ih]

/-! ## All declarations -/

theorem declared_concat (versions : List Version) (version : Version) :
    declared (versions ++ [version]) = declare version (declared versions) := by
  simp [declared]

theorem eraseDups_concat (names : List String) (name : String) :
    (names ++ [name]).eraseDups =
      if name ∈ names then names.eraseDups else names.eraseDups ++ [name] := by
  rw [List.eraseDups_append]
  by_cases h : name ∈ names <;> simp [h, List.removeAll, List.eraseDups_cons]

/-- Names stand in the order of their first declarations. -/
theorem names_declared (versions : List Version) :
    (declared versions).map (·.name) = (versions.map (·.name)).eraseDups := by
  induction versions using List.reverseRecOn with
  | nil => rfl
  | append_singleton versions version ih =>
      rw [declared_concat, names_declare, ih, List.map_append, List.map_singleton, eraseDups_concat]
      simp only [List.mem_eraseDups]

theorem names_declared_nodup (versions : List Version) :
    ((declared versions).map (·.name)).Nodup := by
  induction versions using List.reverseRecOn with
  | nil => exact .nil
  | append_singleton versions version ih =>
      rw [declared_concat, names_declare]
      split
      next => exact ih
      next h => exact List.nodup_append.mpr ⟨ih, by simp, by simpa using fun a => h a⟩

/-- Whether a version is the last one that is declared under its name. -/
def IsLast (versions : List Version) (version : Version) : Prop :=
  ∃ before after, versions = before ++ version :: after ∧ ∀ other ∈ after, other.name ≠ version.name

theorem isLast_concat {versions : List Version} {version other : Version} :
    IsLast (versions ++ [version]) other ↔
      other = version ∨ IsLast versions other ∧ other.name ≠ version.name := by
  constructor
  · rintro ⟨before, after, heq, hafter⟩
    rcases List.eq_nil_or_concat after with rfl | ⟨after, last, rfl⟩
    · exact .inl (List.singleton_inj.mp (List.append_inj_right' heq rfl)).symm
    · rw [List.concat_eq_append] at heq hafter
      rw [← List.cons_append, ← List.append_assoc] at heq
      obtain ⟨hversions, hlast⟩ := List.append_inj' heq rfl
      rw [List.forall_mem_append] at hafter
      refine .inr ⟨⟨before, after, hversions, hafter.1⟩, ?_⟩
      rw [List.singleton_inj.mp hlast]
      exact (hafter.2 last (List.mem_singleton_self last)).symm
  · rintro (rfl | ⟨⟨before, after, rfl, hafter⟩, hname⟩)
    · exact ⟨versions, [], rfl, by simp⟩
    · refine ⟨before, after ++ [version], by simp, List.forall_mem_append.mpr ⟨hafter, ?_⟩⟩
      simpa using hname.symm

/-- A name stands for its last declaration. -/
theorem mem_declared_iff {versions : List Version} {version : Version} :
    version ∈ declared versions ↔ IsLast versions version := by
  induction versions using List.reverseRecOn with
  | nil => simp [declared, IsLast]
  | append_singleton versions last ih =>
      rw [declared_concat, mem_declare_iff (names_declared_nodup versions), ih, isLast_concat]

theorem keyed_declared (versions : List Version) :
    Keyed.ofPairs (versions.map fun v => (v.name, v)) =
      (declared versions).map fun v => (v.name, v) := by
  induction versions using List.reverseRecOn with
  | nil => rfl
  | append_singleton versions version ih =>
      rw [declared_concat, ← keyed_declare, ← ih]
      simp [Keyed.ofPairs]

/-! ## Declarations in a document -/

/-- Whether a specification declares versions, one for each item of its list. -/
def SpecDeclares (spec : Value) (versions : List Version) : Prop :=
  (∃ list, spec.Has "versions" list ∧
    Reading.document.sequence (readVersion .document) list = .ok versions) ∨
  (versions = [] ∧ ∀ list, ¬spec.Has "versions" list)

def Declares (document : Value) (versions : List Version) : Prop :=
  ∃ spec, document.Has "spec" spec ∧ SpecDeclares spec versions

/-- Until the field of the versions is seen there are none, and from then on they are those of the
field. -/
def SpecDeclaresSoFar (spec : Value) (seen : List String) (versions : List Version) : Prop :=
  (∃ list, spec.Has "versions" list ∧
    Reading.document.sequence (readVersion .document) list = .ok versions) ∨
  (versions = [] ∧ "versions" ∉ seen)

theorem SpecDeclaresSoFar.other {spec : Value} {seen : List String} {versions : List Version}
    (h : SpecDeclaresSoFar spec seen versions) {name : String} (hname : name ≠ "versions") :
    SpecDeclaresSoFar spec (name :: seen) versions :=
  h.imp_right fun ⟨hnone, hseen⟩ => ⟨hnone, List.not_mem_cons_of_ne_of_not_mem hname.symm hseen⟩

theorem readSpec_versions (spec : Value) :
    (readSpec .document spec).Ensures fun d =>
      ∃ versions, SpecDeclares spec versions ∧ d.versions = declared versions := by
  unfold readSpec
  refine .bind (ReadResult.Ensures.recordSeen
    (P := fun seen draft => SpecDeclaresSoFar spec seen draft.versions) ?_ ?_) ?_
  · intro seen draft name value hname hvalue hd
    simp only [List.mem_cons, List.not_mem_nil, or_false] at hname
    rcases hname with rfl | rfl | rfl
    · exact .bind (.trivial _) fun _ _ => .ok (hd.other (by decide))
    · exact .bind (.trivial _) fun _ _ => .ok (hd.other (by decide))
    · exact .bind (fun _ h => h) fun versions hv => .ok (.inl ⟨value, hvalue, hv⟩)
  · exact .inr ⟨rfl, List.not_mem_nil⟩
  · rintro draft ⟨all, hd, hall⟩
    refine .bind (.trivial _) fun _ _ => .bind (.trivial _) fun _ _ =>
      .ok ⟨draft.versions, hd.imp_right fun ⟨hnone, hseen⟩ => ⟨hnone, fun list hlist => ?_⟩, rfl⟩
    exact hseen (hall "versions" (by decide) list hlist)

/-- The versions of a definition are those that its document declares. -/
theorem read_versions {document : Value} {d : Definition} (h : read .document document = .ok d) :
    ∃ versions, Declares document versions ∧ d.versions = declared versions := by
  have hread : (read .document document).Ensures fun d =>
      ∃ versions, Declares document versions ∧ d.versions = declared versions := by
    unfold read
    refine .bind (ReadResult.Ensures.recordSeen (P := fun _ found => ∀ d ∈ found,
      ∃ versions, Declares document versions ∧ d.versions = declared versions) ?_ (by simp)) ?_
    · intro seen found name value hname hvalue _
      obtain rfl : name = "spec" := List.mem_singleton.mp hname
      refine .bind (readSpec_versions value) fun d hd => .ok fun other ho => ?_
      obtain rfl : d = other := Option.some.inj ho
      obtain ⟨versions, hversions, heq⟩ := hd
      exact ⟨versions, ⟨value, hvalue, hversions⟩, heq⟩
    · rintro found ⟨-, hfound, -⟩
      cases found with
      | none => exact .error _
      | some d => exact .ok (hfound d rfl)
  exact hread d h

/-! ## Selection -/

theorem not_fits_iff {d : Definition} {desired : Option String} :
    (∀ version ∈ d.versions, ¬version.Fits desired) ↔ ∀ version, ¬d.Picks desired version := by
  rw [← candidate_eq_none_iff, candidate?, List.find?_eq_none]
  simp only [fits_iff]

/-- The versions of a definition are those that its document declares: each name once, in the order
of first declarations, with the last declaration under it. The first of them that fits is selected.
There is none just when none fits, and it lacks a schema just when it declares none itself. -/
theorem versions_of_declarations :
    (∀ document d, read .document document = .ok d →
      ∃ versions, Declares document versions ∧ d.versions = declared versions) ∧
    (∀ versions : List Version,
      (declared versions).map (·.name) = (versions.map (·.name)).eraseDups ∧
      (∀ version, version ∈ declared versions ↔ IsLast versions version) ∧
      Keyed.ofPairs (versions.map fun v => (v.name, v)) =
        (declared versions).map fun v => (v.name, v)) ∧
    ∀ (d : Definition) (desired : Option String),
      (∀ version schema, d.select desired = .ok (version, schema) ↔
        d.Picks desired version ∧ version.schema = some schema) ∧
      ∀ error, d.select desired = .error error ↔
        (∀ version ∈ d.versions, ¬version.Fits desired) ∧
          error = .noMatchingVersion d.kind desired ∨
        ∃ version, d.Picks desired version ∧ version.schema = none ∧
          error = .missingSchema d.kind version.name := by
  refine ⟨fun document d h => read_versions h, fun versions => ?_, fun d desired => ?_⟩
  · exact ⟨names_declared versions, fun version => mem_declared_iff, keyed_declared versions⟩
  · refine ⟨fun version schema => select_eq_ok_iff, fun error => ?_⟩
    rw [select_eq_error_iff, not_fits_iff]

/-- A document that declares its first version again behind the second one, and without a schema. -/
def revisedDocument : Value :=
  let version (name : String) (storage : Bool) (schema : List (Value × Value)) : Value :=
    .map [(.str "name", .str name), (.str "storage", .bool storage), (.str "schema", .map schema)]
  let schema : List (Value × Value) := [(.str "openAPIV3Schema", .map [])]
  .map [(.str "kind", .str "CustomResourceDefinition"),
    (.str "spec", .map [(.str "group", .str "shop.io"),
      (.str "names", .map [(.str "kind", .str "Widget"), (.str "plural", .str "widgets")]),
      (.str "versions",
        .seq [version "v1" false schema, version "v2" true schema, version "v1" true []])])]

theorem read_revisedDocument :
    ∃ d, read .document revisedDocument = .ok d ∧ d.kind = "Widget" ∧
      d.versions.map (fun v => (v.name, v.storage, v.schema.isSome)) =
        [("v1", true, false), ("v2", true, true)] := by
  have hsome : (read .document revisedDocument).toOption.map
      (fun d => (d.kind, d.versions.map fun v => (v.name, v.storage, v.schema.isSome))) =
        some ("Widget", [("v1", true, false), ("v2", true, true)]) := by
    decide +kernel
  cases hread : read .document revisedDocument with
  | error e =>
      rw [hread] at hsome
      cases hsome
  | ok d =>
      rw [hread] at hsome
      exact ⟨d, rfl, Prod.mk.inj (Option.some.inj hsome)⟩

/-- The first version is selected although it lost its schema, which the second one has. -/
theorem revisedDocument_versions :
    ∃ d versions, read .document revisedDocument = .ok d ∧ Declares revisedDocument versions ∧
      (versions.map (·.name)).eraseDups = ["v1", "v2"] ∧
      d.select none = .error (.missingSchema "Widget" "v1") := by
  obtain ⟨d, hread, hkind, hfields⟩ := read_revisedDocument
  obtain ⟨versions, hversions, heq⟩ := versions_of_declarations.1 _ d hread
  refine ⟨d, versions, hread, hversions, ?_, ?_⟩
  · have hnames := congrArg (List.map Prod.fst) hfields
    rw [List.map_map] at hnames
    rw [← (versions_of_declarations.2.1 versions).1, ← heq]
    exact hnames
  · obtain ⟨first, rest, hd, hfirst, -⟩ := List.map_eq_cons_iff.mp hfields
    obtain ⟨hname, hstorage, hschema⟩ := by simpa using hfirst
    rw [← hkind, ← hname]
    refine ((versions_of_declarations.2.2 d none).2 _).mpr (.inr ⟨first, ?_, hschema, rfl⟩)
    exact ⟨[], rest, hd, ⟨hstorage, by simp⟩, by simp⟩

end ResourceTypes.Definition
