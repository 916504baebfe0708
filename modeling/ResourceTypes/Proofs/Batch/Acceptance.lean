import ResourceTypes.Proofs.Batch.Conflicts
import ResourceTypes.Proofs.Batch.Names
import ResourceTypes.Proofs.Definition.Selection

/-! # Which definitions are a batch

Three scans decide whether definitions are compiled: for a type name that comes again, for a module
that comes again, and for a definition that has no version to offer or disagrees with the first one.
Each of them ends at the first fault, so the error says what is right with everything before it.
-/

namespace ResourceTypes

namespace Compilation

/-! ## Definitions that go together -/

/-- Whether all definitions offer versions of one name for one group. -/
def Agree (options : Options) (definitions : List Definition) : Prop :=
  ∃ group version, ∀ d ∈ definitions, d.Offers options.version group version

/-- What makes definitions a batch. -/
structure Acceptable (options : Options) (definitions : List Definition) : Prop where
  names : (typeNames definitions).Nodup
  modules : (definitions.map fun d => Naming.moduleName d.kind).Nodup
  agree : Agree options definitions

/-- The error of a definition that does not go together with those before it. -/
inductive Offence (options : Options) (earlier : List Definition) (d : Definition) :
    CompileError → Prop
  /-- There is no version to compile, and no other one to compare with the first definition. -/
  | noVersion (hn : ∀ v, ¬d.Picks options.version v)
      (hf : earlier = [] ∨ ∀ v, ¬d.Picks none v) :
      Offence options earlier d (.definition (.noMatchingVersion d.kind options.version))
  /-- There is no version to compile, but one is stored, unlike that of the first definition. -/
  | otherVersion {first : Definition} {rest : List Definition} {v w : Version}
      (he : earlier = first :: rest) (hv : first.Picks options.version v)
      (hn : ∀ u, ¬d.Picks options.version u) (hw : d.Picks none w) :
      Offence options earlier d (.mismatch .version first.kind v.name d.kind w.name)
  | noSchema {v : Version} (hv : d.Picks options.version v) (hs : v.schema = none) :
      Offence options earlier d (.definition (.missingSchema d.kind v.name))
  | group {first : Definition} {rest : List Definition} {v : Version}
      (he : earlier = first :: rest) (hv : d.Picks options.version v) (hs : v.schema ≠ none)
      (hg : first.group ≠ d.group) :
      Offence options earlier d (.mismatch .group first.kind first.group d.kind d.group)
  | version {first : Definition} {rest : List Definition} {v w : Version}
      (he : earlier = first :: rest) (hv : first.Picks options.version v)
      (hw : d.Picks options.version w) (hs : w.schema ≠ none) (hg : first.group = d.group)
      (hn : v.name ≠ w.name) :
      Offence options earlier d (.mismatch .version first.kind v.name d.kind w.name)

/-- The error of definitions that are no batch. An error of a later sort only comes where there is
none of an earlier sort. -/
inductive Fault (options : Options) (definitions : List Definition) : CompileError → Prop
  | duplicateKind {name : String} (h : FirstRepeat id (typeNames definitions) name name) :
      Fault options definitions (.duplicateKind name)
  | moduleClash {first second : Definition} (hn : (typeNames definitions).Nodup)
      (h : FirstRepeat (fun d => Naming.moduleName d.kind) definitions first second) :
      Fault options definitions
        (.moduleClash first.kind second.kind (Naming.moduleName second.kind))
  | offence {before after : List Definition} {d : Definition} {error : CompileError}
      (hn : (typeNames definitions).Nodup)
      (hm : (definitions.map fun d => Naming.moduleName d.kind).Nodup)
      (h : definitions = before ++ d :: after) (ha : Agree options before)
      (ho : Offence options before d error) : Fault options definitions error

variable {options : Options} {definitions earlier rest : List Definition} {d : Definition}
  {first : Option Descriptor} {r : Naming.Registry} {error : CompileError}

/-! ## One definition -/

/-- Why a definition is refused after the first resource of the batch, if there is one. -/
def refusal? (options : Options) (first : Option Descriptor) (d : Definition) :
    Option CompileError :=
  match d.select options.version with
  | .error error => some (selectionError first d error)
  | .ok (version, _) => disagreement? first d version

theorem refusal_of_error {reason : DefinitionError}
    (h : d.select options.version = .error reason) :
    refusal? options first d = some (selectionError first d reason) := by
  rw [refusal?, h]

theorem refusal_of_ok {version : Version} {schema : Schema}
    (h : d.select options.version = .ok (version, schema)) :
    refusal? options first d = disagreement? first d version := by
  rw [refusal?, h]

theorem selectionError_of_stored {f : Descriptor} {kind : String} {desired : Option String}
    {w : Version} (h : d.storageVersion? = some w) :
    selectionError (some f) d (.noMatchingVersion kind desired) =
      .mismatch .version f.kind f.version d.kind w.name := by
  unfold selectionError
  rw [h]

theorem selectionError_of_not_stored {kind : String} {desired : Option String}
    (h : d.storageVersion? = none) :
    selectionError first d (.noMatchingVersion kind desired) =
      .definition (.noMatchingVersion kind desired) := by
  unfold selectionError
  rw [h]
  cases first <;> rfl

def Leads (options : Options) (earlier : List Definition) (first : Option Descriptor) : Prop :=
  match earlier with
  | [] => first = none
  | f :: _ => ∃ v, f.Picks options.version v ∧ first = some (f.descriptor v.name)

theorem Leads.append (h : Leads options earlier first) {version : Version} {schema : Schema}
    (hs : d.select options.version = .ok (version, schema)) :
    Leads options (earlier ++ [d]) (some (first.getD (d.descriptor version.name))) := by
  cases earlier with
  | nil =>
      obtain rfl : first = none := h
      exact ⟨version, (Definition.select_eq_ok_iff.mp hs).1, rfl⟩
  | cons f rest =>
      obtain ⟨v, hv, rfl⟩ := h
      exact ⟨v, hv, rfl⟩

theorem disagreement_of_leads {f : Definition} {v w : Version} :
    disagreement? (some (f.descriptor v.name)) d w =
      if f.group ≠ d.group then some (.mismatch .group f.kind f.group d.kind d.group)
      else if v.name ≠ w.name then some (.mismatch .version f.kind v.name d.kind w.name)
      else none := rfl

theorem offence_of_select_error (h : Leads options earlier first) {reason : DefinitionError}
    (hs : d.select options.version = .error reason) :
    Offence options earlier d (selectionError first d reason) := by
  rcases Definition.select_eq_error_iff.mp hs with ⟨hn, rfl⟩ | ⟨v, hv, hnone, rfl⟩
  · cases earlier with
    | nil =>
        obtain rfl : first = none := h
        exact .noVersion hn (.inl rfl)
    | cons f rest =>
        obtain ⟨v, hv, rfl⟩ := h
        cases hw : d.storageVersion? with
        | none =>
            rw [selectionError_of_not_stored hw]
            exact .noVersion hn (.inr (Definition.storageVersion_eq_none_iff.mp hw))
        | some w =>
            rw [selectionError_of_stored hw]
            exact .otherVersion rfl hv hn (Definition.storageVersion_eq_some_iff.mp hw)
  · exact .noSchema hv hnone

theorem offence_of_disagreement (h : Leads options earlier first) {w : Version}
    (hw : d.Picks options.version w) (hs : w.schema ≠ none)
    (hr : disagreement? first d w = some error) : Offence options earlier d error := by
  cases earlier with
  | nil =>
      obtain rfl : first = none := h
      cases hr
  | cons f rest =>
      obtain ⟨v, hv, rfl⟩ := h
      rw [disagreement_of_leads] at hr
      split at hr
      next hg =>
        cases hr
        exact .group rfl hw hs hg
      next hg =>
        split at hr
        next hn =>
          cases hr
          exact .version rfl hv hw hs (not_not.mp hg) hn
        next => cases hr

theorem Offence.refusal (ho : Offence options earlier d error) (h : Leads options earlier first) :
    refusal? options first d = some error := by
  cases ho with
  | noVersion hn hf =>
      rw [refusal_of_error (Definition.select_eq_error_iff.mpr (.inl ⟨hn, rfl⟩))]
      rcases hf with rfl | hf
      · obtain rfl : first = none := h
        rfl
      · rw [selectionError_of_not_stored (Definition.storageVersion_eq_none_iff.mpr hf)]
  | otherVersion he hv hn hw =>
      subst he
      obtain ⟨u, hu, rfl⟩ := h
      rw [refusal_of_error (Definition.select_eq_error_iff.mpr (.inl ⟨hn, rfl⟩)),
        selectionError_of_stored (Definition.storageVersion_eq_some_iff.mpr hw), hu.unique hv]
      rfl
  | noSchema hv hs =>
      rw [refusal_of_error (Definition.select_eq_error_iff.mpr (.inr ⟨_, hv, hs, rfl⟩))]
      rfl
  | group he hv hs hg =>
      subst he
      obtain ⟨u, hu, rfl⟩ := h
      obtain ⟨schema, hschema⟩ := Option.ne_none_iff_exists'.mp hs
      rw [refusal_of_ok (Definition.select_eq_ok_iff.mpr ⟨hv, hschema⟩), disagreement_of_leads,
        if_pos hg]
  | version he hv hw hs hg hn =>
      subst he
      obtain ⟨u, hu, rfl⟩ := h
      obtain rfl := hu.unique hv
      obtain ⟨schema, hschema⟩ := Option.ne_none_iff_exists'.mp hs
      rw [refusal_of_ok (Definition.select_eq_ok_iff.mpr ⟨hw, hschema⟩), disagreement_of_leads,
        if_neg (not_not.mpr hg), if_pos hn]

/-- A definition is refused for the offence that it gives. -/
theorem refusal_eq_some_iff (h : Leads options earlier first) :
    refusal? options first d = some error ↔ Offence options earlier d error := by
  refine ⟨fun hr => ?_, fun ho => ho.refusal h⟩
  cases hs : d.select options.version with
  | error reason =>
      rw [refusal_of_error hs, Option.some.injEq] at hr
      exact hr ▸ offence_of_select_error h hs
  | ok selected =>
      obtain ⟨w, schema⟩ := selected
      obtain ⟨hw, hschema⟩ := Definition.select_eq_ok_iff.mp hs
      rw [refusal_of_ok hs] at hr
      exact offence_of_disagreement h hw (by simp [hschema]) hr

/-- A definition is not refused just when it agrees with those before it. -/
theorem refusal_eq_none_iff (h : Leads options earlier first) (ha : Agree options earlier) :
    refusal? options first d = none ↔ Agree options (earlier ++ [d]) := by
  constructor
  · intro hr
    cases hs : d.select options.version with
    | error reason =>
        rw [refusal_of_error hs] at hr
        cases hr
    | ok selected =>
        obtain ⟨w, schema⟩ := selected
        obtain ⟨hw, hschema⟩ := Definition.select_eq_ok_iff.mp hs
        have hsome : w.schema ≠ none := by simp [hschema]
        rw [refusal_of_ok hs] at hr
        cases earlier with
        | nil =>
            refine ⟨d.group, w.name, fun other ho => ?_⟩
            rw [List.mem_singleton.mp ho]
            exact ⟨rfl, w, hw, hsome, rfl⟩
        | cons f rest =>
            obtain ⟨v, hv, rfl⟩ := h
            obtain ⟨group, version, hall⟩ := ha
            obtain ⟨rfl, u, hu, -, rfl⟩ := hall f List.mem_cons_self
            rw [disagreement_of_leads] at hr
            split at hr
            next => cases hr
            next hg =>
              split at hr
              next => cases hr
              next hn =>
                refine ⟨f.group, u.name, fun other ho => ?_⟩
                rcases List.mem_append.mp ho with ho | ho
                · exact hall other ho
                · rw [List.mem_singleton.mp ho, hu.unique hv]
                  exact ⟨(not_not.mp hg).symm, w, hw, hsome, (not_not.mp hn).symm⟩
  · rintro ⟨group, version, hall⟩
    obtain ⟨hgroup, w, hw, hsome, hname⟩ := hall d (List.mem_append_right _ List.mem_cons_self)
    obtain ⟨schema, hschema⟩ := Option.ne_none_iff_exists'.mp hsome
    rw [refusal_of_ok (Definition.select_eq_ok_iff.mpr ⟨hw, hschema⟩)]
    cases earlier with
    | nil =>
        obtain rfl : first = none := h
        rfl
    | cons f rest =>
        obtain ⟨v, hv, rfl⟩ := h
        obtain ⟨hfgroup, u, hu, -, huname⟩ := hall f (List.mem_append_left _ List.mem_cons_self)
        obtain rfl := hu.unique hv
        rw [disagreement_of_leads, if_neg (not_not.mpr (hfgroup.trans hgroup.symm)),
          if_neg (not_not.mpr (huname.trans hname.symm))]

/-! ## One definition after the other -/

theorem compileFrom_of_refusal (h : refusal? options first d = some error) :
    (compileFrom options first r (d :: rest)).models = .error error := by
  cases hs : d.select options.version with
  | error reason =>
      rw [refusal_of_error hs, Option.some.injEq] at h
      rw [compileFrom, hs, ← h]
  | ok selected =>
      obtain ⟨version, schema⟩ := selected
      rw [refusal_of_ok hs] at h
      rw [compileFrom, hs]
      simp only [h]

/-- A definition that is not refused is lowered, and the run goes on with the registry that this has
left. -/
theorem compileFrom_of_joined (r : Naming.Registry) (rest : List Definition)
    (h : refusal? options first d = none) :
    ∃ version schema, d.select options.version = .ok (version, schema) ∧
      (compileFrom options first r (d :: rest)).models =
        (compileFrom options (some (first.getD (d.descriptor version.name)))
          (Lowering.lower r schema (d.descriptor version.name)).2 rest).models.map
            (options.finish (Lowering.lower r schema (d.descriptor version.name)).1 :: ·) := by
  cases hs : d.select options.version with
  | error reason =>
      rw [refusal_of_error hs] at h
      cases h
  | ok selected =>
      obtain ⟨version, schema⟩ := selected
      rw [refusal_of_ok hs] at h
      refine ⟨version, schema, rfl, ?_⟩
      rw [compileFrom, hs]
      simp only [h]
      rfl

theorem map_eq_ok_iff {α β : Type} {f : α → β} {x : Except CompileError α} {y : β} :
    x.map f = .ok y ↔ ∃ a, x = .ok a ∧ f a = y := by
  cases x <;> simp [Except.map]

theorem map_eq_error_iff {α β : Type} {f : α → β} {x : Except CompileError α} :
    x.map f = .error error ↔ x = .error error := by
  cases x <;> simp [Except.map]

theorem Agree.subset {larger : List Definition} (h : Agree options larger)
    (hs : definitions ⊆ larger) : Agree options definitions := by
  obtain ⟨group, version, hall⟩ := h
  exact ⟨group, version, fun d hd => hall d (hs hd)⟩

/-- The definitions that are left are compiled just when they agree with those before them. -/
theorem compileFrom_ok_iff (h : Leads options earlier first) (ha : Agree options earlier) :
    (∃ models, (compileFrom options first r rest).models = .ok models) ↔
      Agree options (earlier ++ rest) := by
  induction rest generalizing earlier first r with
  | nil => simp [compileFrom, ha]
  | cons d rest ih =>
      rw [List.append_cons]
      cases hr : refusal? options first d with
      | some error =>
          have hd : ¬Agree options (earlier ++ [d]) := by
            rw [← refusal_eq_none_iff h ha, hr]
            simp
          rw [compileFrom_of_refusal hr]
          simp only [reduceCtorEq, exists_false, false_iff]
          exact fun hall => hd (hall.subset (List.subset_append_left _ _))
      | none =>
          obtain ⟨version, schema, hs, hm⟩ := compileFrom_of_joined r rest hr
          rw [hm, ← ih (h.append hs) ((refusal_eq_none_iff h ha).mp hr)]
          simp only [map_eq_ok_iff]
          constructor
          · rintro ⟨_, tail, ht, -⟩
            exact ⟨tail, ht⟩
          · rintro ⟨tail, ht⟩
            exact ⟨_, tail, ht, rfl⟩

/-- The first definition that does not agree with those before it decides the error. -/
theorem compileFrom_error_iff (h : Leads options earlier first) (ha : Agree options earlier) :
    (compileFrom options first r rest).models = .error error ↔
      ∃ before d after, rest = before ++ d :: after ∧ Agree options (earlier ++ before) ∧
        Offence options (earlier ++ before) d error := by
  induction rest generalizing earlier first r with
  | nil => simp [compileFrom]
  | cons d rest ih =>
      cases hr : refusal? options first d with
      | some found =>
          have ho := (refusal_eq_some_iff h).mp hr
          have hd : ¬Agree options (earlier ++ [d]) := by
            rw [← refusal_eq_none_iff h ha, hr]
            simp
          rw [compileFrom_of_refusal hr, Except.error.injEq]
          constructor
          · rintro rfl
            exact ⟨[], d, rest, rfl, by rwa [List.append_nil], by rwa [List.append_nil]⟩
          · rintro ⟨before, other, after, heq, hagree, hoffence⟩
            cases before with
            | nil =>
                cases heq
                rw [List.append_nil, ← refusal_eq_some_iff h, hr] at hoffence
                exact Option.some.inj hoffence
            | cons head before =>
                cases heq
                rw [List.append_cons] at hagree
                exact (hd (hagree.subset (List.subset_append_left _ _))).elim
      | none =>
          obtain ⟨version, schema, hs, hm⟩ := compileFrom_of_joined r rest hr
          rw [hm, map_eq_error_iff, ih (h.append hs) ((refusal_eq_none_iff h ha).mp hr)]
          constructor
          · rintro ⟨before, other, after, rfl, hagree, hoffence⟩
            rw [← List.append_cons] at hagree hoffence
            exact ⟨d :: before, other, after, rfl, hagree, hoffence⟩
          · rintro ⟨before, other, after, heq, hagree, hoffence⟩
            cases before with
            | nil =>
                cases heq
                rw [List.append_nil, ← refusal_eq_some_iff h, hr] at hoffence
                cases hoffence
            | cons head before =>
                cases heq
                rw [List.append_cons] at hagree hoffence
                exact ⟨before, other, after, rfl, hagree, hoffence⟩

/-! ## Batches -/

theorem run_of_conflict (h : nameConflict? definitions = some error) :
    (run options definitions).models = .error error := by
  rw [run, h]

theorem run_of_no_conflict (h : nameConflict? definitions = none) :
    run options definitions = compileFrom options none (startRegistry definitions) definitions := by
  rw [run, h]

theorem batch_eq_ok_iff {b : Batch} : (compileBatch options definitions).batch = .ok b ↔
    ∃ models, (run options definitions).models = .ok models ∧ batchOf models = b := by
  cases hm : (run options definitions).models <;> rw [compileBatch, hm] <;> simp

theorem batch_eq_error_iff : (compileBatch options definitions).batch = .error error ↔
    (run options definitions).models = .error error := by
  cases hm : (run options definitions).models <;> rw [compileBatch, hm] <;> simp

theorem leads_nil : Leads options [] none :=
  rfl

theorem agree_nil : Agree options [] :=
  ⟨"", "", by simp⟩

/-- Definitions are compiled just when they are acceptable. -/
theorem accepted_iff :
    (∃ b, (compileBatch options definitions).batch = .ok b) ↔ Acceptable options definitions := by
  have hmodels : (∃ b, (compileBatch options definitions).batch = .ok b) ↔
      ∃ models, (run options definitions).models = .ok models := by
    simp only [batch_eq_ok_iff]
    exact ⟨fun ⟨_, models, h, _⟩ => ⟨models, h⟩, fun ⟨models, h⟩ => ⟨_, models, h, rfl⟩⟩
  rw [hmodels]
  cases hc : nameConflict? definitions with
  | some error =>
      rw [run_of_conflict hc]
      simp only [reduceCtorEq, exists_false, false_iff]
      intro ha
      rw [nameConflict_eq_none_iff.mpr ⟨ha.names, ha.modules⟩] at hc
      cases hc
  | none =>
      obtain ⟨hn, hm⟩ := nameConflict_eq_none_iff.mp hc
      rw [run_of_no_conflict hc, compileFrom_ok_iff leads_nil agree_nil, List.nil_append]
      exact ⟨fun ha => ⟨hn, hm, ha⟩, Acceptable.agree⟩

/-- The error of definitions that are not compiled is their fault. -/
theorem refused_iff :
    (compileBatch options definitions).batch = .error error ↔ Fault options definitions error := by
  rw [batch_eq_error_iff]
  cases hc : nameConflict? definitions with
  | some found =>
      rw [run_of_conflict hc, Except.error.injEq]
      constructor
      · rintro rfl
        rcases nameConflict_eq_some_iff.mp hc with ⟨name, h, rfl⟩ | ⟨hn, first, second, h, rfl⟩
        · exact .duplicateKind h
        · exact .moduleClash hn h
      · intro hf
        apply Option.some.inj
        rw [← hc]
        cases hf with
        | duplicateKind h => exact nameConflict_eq_some_iff.mpr (.inl ⟨_, h, rfl⟩)
        | moduleClash hn h => exact nameConflict_eq_some_iff.mpr (.inr ⟨hn, _, _, h, rfl⟩)
        | offence hn hm =>
            rw [nameConflict_eq_none_iff.mpr ⟨hn, hm⟩] at hc
            cases hc
  | none =>
      obtain ⟨hn, hm⟩ := nameConflict_eq_none_iff.mp hc
      rw [run_of_no_conflict hc, compileFrom_error_iff leads_nil agree_nil]
      simp only [List.nil_append]
      constructor
      · rintro ⟨before, d, after, h, ha, ho⟩
        exact .offence hn hm h ha ho
      · intro hf
        cases hf with
        | duplicateKind h => exact (h.not_nodup (by simpa using hn)).elim
        | moduleClash hn h => exact (h.not_nodup hm).elim
        | offence hn hm h ha ho => exact ⟨_, _, _, h, ha, ho⟩

/-- A disagreement is one with the first definition, and over two different values. -/
theorem Fault.mismatch {shared : Shared} {firstKind firstValue secondKind secondValue : String}
    (h : Fault options definitions
      (.mismatch shared firstKind firstValue secondKind secondValue)) :
    firstValue ≠ secondValue ∧ ∃ first rest, definitions = first :: rest ∧
      firstKind = first.kind ∧ ∃ second ∈ rest, secondKind = second.kind := by
  cases h with
  | @offence before after d _ _ _ h ha ho =>
      cases ho with
      | @otherVersion first rest v w he hv hn hw =>
          subst he h
          refine ⟨?_, first, rest ++ d :: after, rfl, rfl, d, by simp, rfl⟩
          cases hp : options.version with
          | none => exact (hn w (hp ▸ hw)).elim
          | some name =>
              rw [hp] at hv hn
              rw [hv.name_eq]
              exact (Definition.name_ne_of_not_picks hn hw name rfl).symm
      | @group first rest v he hv hs hg =>
          subst he h
          exact ⟨hg, first, rest ++ d :: after, rfl, rfl, d, by simp, rfl⟩
      | @version first rest v w he hv hw hs hg hn =>
          subst he h
          exact ⟨hn, first, rest ++ d :: after, rfl, rfl, d, by simp, rfl⟩

theorem Accepted.map_descriptor_of_offers {b : Batch} {stages : List Lowering.Stage}
    (h : Accepted options definitions b stages) {group version : String}
    (ho : ∀ d ∈ definitions, d.Offers options.version group version) :
    b.resources.map (·.descriptor) = definitions.map (·.descriptor version) := by
  have hstages : stages.map (fun g => (options.finish g.model).descriptor) =
      stages.map (·.descriptor) := by
    apply List.map_congr_left
    intro g hg
    obtain ⟨r, hof⟩ := h.chain.of_mem hg
    rw [TypeModel.finish_descriptor, hof.descriptor]
  rw [h.resources, List.map_map]
  refine hstages.trans ?_
  have hs := h.selects
  clear h hstages
  induction hs with
  | nil => rfl
  | @cons d g ds gs hsel _ ih =>
      obtain ⟨v, hv, hd⟩ := hsel
      obtain ⟨-, w, hw, -, rfl⟩ := ho d List.mem_cons_self
      rw [List.map_cons, List.map_cons, hd, (Definition.select_eq_ok_iff.mp hv).1.unique hw,
        ih fun other hother => ho other (List.mem_cons_of_mem d hother)]

/-- The definitions of a batch offer its version for its group, and each resource has the identity
of its definition. -/
theorem batch_identity {b : Batch} (h : (compileBatch options definitions).batch = .ok b) :
    (∀ d ∈ definitions, d.Offers options.version b.group b.version) ∧
      b.resources.map (·.descriptor) =
        definitions.map fun d => ⟨d.kind, d.plural, d.listKind, b.group, b.version⟩ := by
  obtain ⟨stages, ha⟩ := exists_stages h
  obtain ⟨group, version, ho⟩ := (accepted_iff.mp ⟨b, h⟩).agree
  have hmap := ha.map_descriptor_of_offers ho
  obtain ⟨models, -, rfl⟩ := batch_eq_ok_iff.mp h
  cases definitions with
  | nil => exact ⟨by simp, by simpa using hmap⟩
  | cons d rest =>
      cases models with
      | nil => cases hmap
      | cons m models =>
          have hm : m.descriptor = d.descriptor version := (List.cons.inj hmap).1
          obtain ⟨hgroup, -⟩ := ho d List.mem_cons_self
          have hbatch : (batchOf (m :: models)).group = group ∧
              (batchOf (m :: models)).version = version := by
            rw [batchOf, hm]
            exact ⟨hgroup, rfl⟩
          rw [hbatch.1, hbatch.2]
          refine ⟨ho, hmap.trans (List.map_congr_left fun other hother => ?_)⟩
          rw [Definition.descriptor, (ho other hother).1]

end Compilation

open Compilation

/-- What a compilation comes to, for all definitions and all options. It succeeds just when the
names and the modules are distinct and all definitions offer versions of one name for one group.
There is then one resource for each definition, in order, with its identity and with the group and
version of the batch. Otherwise the error is the first fault, and a disagreement is always one with
the first definition over two different values. -/
theorem outcome_exact (options : Options) (definitions : List Definition) :
    ((∃ b, (compileBatch options definitions).batch = .ok b) ↔ Acceptable options definitions) ∧
      (∀ b, (compileBatch options definitions).batch = .ok b →
        b.resources.map (·.descriptor) =
          definitions.map fun d => ⟨d.kind, d.plural, d.listKind, b.group, b.version⟩) ∧
      (∀ error, (compileBatch options definitions).batch = .error error ↔
        Fault options definitions error) ∧
      ∀ shared firstKind firstValue secondKind secondValue,
        (compileBatch options definitions).batch =
          .error (.mismatch shared firstKind firstValue secondKind secondValue) →
        firstValue ≠ secondValue ∧ ∃ first rest, definitions = first :: rest ∧
          firstKind = first.kind ∧ ∃ second ∈ rest, secondKind = second.kind :=
  ⟨accepted_iff, fun _ h => (batch_identity h).2, fun _ => refused_iff,
    fun _ _ _ _ _ h => (refused_iff.mp h).mismatch⟩

/-- The second definition is stored in another version than the desired one. -/
theorem pinned_version_refused :
    let widget : Definition := .single "Widget" "widgets" "shop.io" "v1" sampleObject
    let gadget : Definition := .single "Gadget" "gadgets" "shop.io" "v2" sampleObject
    (compileBatch ⟨some "v1", false⟩ [widget, gadget]).batch =
        .error (.mismatch .version "Widget" "v1" "Gadget" "v2") ∧
      ¬Acceptable ⟨some "v1", false⟩ [widget, gadget] ∧
      ∃ b, (compileBatch ⟨some "v1", false⟩ [widget]).batch = .ok b ∧
        b.resources.map (·.descriptor) =
          [⟨"Widget", "widgets", "WidgetList", b.group, b.version⟩] := by
  intro widget gadget
  let v (name : String) : Version := ⟨name, true, true, some sampleObject⟩
  have hw : widget.Picks (some "v1") (v "v1") := Definition.candidate_eq_some_iff.mp rfl
  have hg : ∀ v, ¬gadget.Picks (some "v1") v := Definition.candidate_eq_none_iff.mp rfl
  have hs : gadget.Picks none (v "v2") := Definition.candidate_eq_some_iff.mp rfl
  have ho : widget.Offers (some "v1") "shop.io" "v1" := ⟨rfl, _, hw, by simp, rfl⟩
  have hagree : Agree ⟨some "v1", false⟩ [widget] :=
    ⟨"shop.io", "v1", fun d hd => List.mem_singleton.mp hd ▸ ho⟩
  have hoffence : Offence ⟨some "v1", false⟩ [widget] gadget
      (.mismatch .version "Widget" "v1" "Gadget" "v2") :=
    @Offence.otherVersion _ _ _ widget [] (v "v1") (v "v2") rfl hw hg hs
  have hfault : Fault ⟨some "v1", false⟩ ([widget] ++ [gadget])
      (.mismatch .version "Widget" "v1" "Gadget" "v2") :=
    .offence (by decide) (by decide +kernel) rfl hagree hoffence
  have herror := ((outcome_exact _ _).2.2.1 _).mpr hfault
  refine ⟨herror, ?_, ?_⟩
  · intro hacceptable
    obtain ⟨b, hb⟩ := (outcome_exact _ _).1.mpr hacceptable
    cases herror.symm.trans hb
  · obtain ⟨b, hb⟩ := (outcome_exact _ [widget]).1.mpr ⟨by decide, by decide +kernel, hagree⟩
    exact ⟨b, hb, (outcome_exact _ _).2.1 b hb⟩

end ResourceTypes
