import ResourceTypes.Lowering.Types
import ResourceTypes.Proofs.Naming.Literals
import ResourceTypes.Proofs.Naming.Signature

/-! # The constants of an enumeration

Null has no constant and a literal that comes again has none of its own, but nothing else is left
out, and the order of the literals is kept. The values of an enumeration are therefore known from
the set of its literals. The names of its constants are distinct, and each is that of the
enumeration with the word for the value, and perhaps a number, behind it.
-/

namespace ResourceTypes

/-- The literals that have a constant: all but null and those whose text has come before. -/
theorem mem_enumConstantsFrom {enumName : String} {texts taken : List String} {literals : List Json}
    {v : Json} :
    v ∈ (enumConstantsFrom enumName texts taken literals).map (·.value) ↔
      v ∈ literals ∧ v.isNull = false ∧ v.text ∉ texts := by
  induction literals generalizing texts taken with
  | nil => simp [enumConstantsFrom]
  | cons literal rest ih =>
      rw [enumConstantsFrom]
      by_cases hskip : (literal.isNull || decide (literal.text ∈ texts)) = true
      · rw [if_pos hskip, ih, List.mem_cons]
        have hliteral : v = literal → ¬(v.isNull = false ∧ v.text ∉ texts) := by
          rintro rfl ⟨hnull, htext⟩
          simp [hnull, htext] at hskip
        tauto
      · rw [if_neg hskip, List.map_cons, List.mem_cons, ih, List.mem_cons, List.mem_cons]
        simp only [Bool.or_eq_true, decide_eq_true_eq, not_or, Bool.not_eq_true] at hskip
        have hsame : v.text = literal.text → v = literal := Json.text_injective
        constructor
        · rintro (rfl | ⟨hv, hnull, htext⟩)
          · exact ⟨.inl rfl, hskip⟩
          · exact ⟨.inr hv, hnull, fun hm => htext (.inr hm)⟩
        · rintro ⟨rfl | hv, hnull, htext⟩
          · exact .inl rfl
          · by_cases he : v.text = literal.text
            · exact .inl (hsame he)
            · exact .inr ⟨hv, hnull, fun hm => hm.elim he htext⟩

theorem mem_enumConstants {enumName : String} {literals : List Json} {v : Json} :
    v ∈ (enumConstants enumName literals).map (·.value) ↔ v ∈ literals ∧ v.isNull = false := by
  rw [enumConstants, mem_enumConstantsFrom]
  simp

/-- What has a constant is what is not null and not known by its text, each text once, where it
comes first. -/
theorem map_value_enumConstantsFrom (enumName : String) (texts taken : List String)
    (literals : List Json) :
    (enumConstantsFrom enumName texts taken literals).map (·.value) =
      (literals.filter fun v => !(v.isNull || decide (v.text ∈ texts))).eraseDupsBy
        fun v w => v.text = w.text := by
  induction literals generalizing texts taken with
  | nil => rfl
  | cons literal rest ih =>
      rw [enumConstantsFrom]
      by_cases hskip : (literal.isNull || decide (literal.text ∈ texts)) = true
      · rw [if_pos hskip, List.filter_cons_of_neg (by simp [hskip]), ih]
      · rw [if_neg hskip, List.map_cons, List.filter_cons_of_pos (by simp [hskip]),
          List.eraseDupsBy_cons, ih, List.filter_filter]
        -- what is filtered out of the rest is its text, as if it had been known before
        congr 3
        funext v
        by_cases hsame : v.text = literal.text
        · simp [hsame]
        · simp [hsame]

/-- Names are told apart by numbers. -/
theorem enumConstantsFrom_names {enumName : String} {texts taken : List String}
    {literals : List Json} :
    ((enumConstantsFrom enumName texts taken literals).map (·.name)).Nodup ∧
      ∀ c ∈ enumConstantsFrom enumName texts taken literals, c.name ∉ taken ∧
        ∃ k, c.name = Naming.numbered (constantBase enumName c.value) k := by
  induction literals generalizing texts taken with
  | nil => exact ⟨.nil, List.forall_mem_nil _⟩
  | cons literal rest ih =>
      rw [enumConstantsFrom]
      by_cases hskip : (literal.isNull || decide (literal.text ∈ texts)) = true
      · rw [if_pos hskip]
        exact ih
      · rw [if_neg hskip]
        let name := Naming.firstFree taken (Naming.numbered (constantBase enumName literal))
        obtain ⟨hnodup, hrest⟩ := @ih (literal.text :: texts) (name :: taken)
        obtain ⟨k, -, hname, -, hfree⟩ := Naming.firstFree_spec taken
          (@Naming.numbered_injective (constantBase enumName literal))
        refine ⟨List.nodup_cons.mpr ⟨fun hm => ?_, hnodup⟩,
          List.forall_mem_cons.mpr ⟨⟨hname ▸ hfree, k, hname⟩, fun c hc => ?_⟩⟩
        · obtain ⟨c, hc, he⟩ := List.mem_map.mp hm
          exact (hrest c hc).1 (List.mem_cons.mpr (.inl he))
        · obtain ⟨hnot, hnumbered⟩ := hrest c hc
          exact ⟨fun hm => hnot (List.mem_cons_of_mem name hm), hnumbered⟩

theorem enumConstants_names_nodup (enumName : String) (literals : List Json) :
    ((enumConstants enumName literals).map (·.name)).Nodup :=
  enumConstantsFrom_names.1

theorem enumConstants_numbered {enumName : String} {literals : List Json} {c : EnumConstant}
    (hc : c ∈ enumConstants enumName literals) :
    ∃ k, c.name = Naming.numbered (constantBase enumName c.value) k :=
  (enumConstantsFrom_names.2 c hc).2

/-- The values of an enumeration are its literals without null, each text once, in the order in
which they come first. Its constants have distinct names, and each is called after the enumeration
and the word for its value, with nothing behind it or a number from two on. -/
theorem constants_of_literals (enumName : String) (literals : List Json) :
    (enumConstants enumName literals).map (·.value) =
        (literals.filter (!·.isNull)).eraseDupsBy (fun v w => v.text = w.text) ∧
      ((enumConstants enumName literals).map (·.name)).Nodup ∧
      ∀ c ∈ enumConstants enumName literals, ∃ word number,
        c.name = enumName ++ word ++ number ∧
        (word = Naming.constantSuffix c.value ∧ word ≠ "" ∨
          Naming.constantSuffix c.value = "" ∧ word = "Value") ∧
        (number = "" ∨ ∃ n ≥ 2, number = String.ofList (Decimal.natChars n)) := by
  refine ⟨?_, enumConstants_names_nodup enumName literals, fun c hc => ?_⟩
  · rw [enumConstants, map_value_enumConstantsFrom]
    simp
  · obtain ⟨k, hname⟩ := enumConstants_numbered hc
    rw [hname]
    exact Naming.numbered_constantBase_cases enumName c.value k

theorem Json.Same.isNull_eq {v w : Json} (h : v.Same w) : v.isNull = w.isNull := by
  cases h <;> rfl

theorem exists_same_enumConstant {xs ys : List Json}
    (h : ∀ v ∈ xs, ∃ w ∈ ys, Json.Same v w) (name other : String) :
    ∀ v ∈ (enumConstants name xs).map (·.value),
      ∃ w ∈ (enumConstants other ys).map (·.value), Json.Same v w := by
  intro v hv
  obtain ⟨hmem, hnull⟩ := mem_enumConstants.mp hv
  obtain ⟨w, hw, hsame⟩ := h v hmem
  exact ⟨w, mem_enumConstants.mpr ⟨hw, hsame.isNull_eq ▸ hnull⟩, hsame⟩

/-- The same set of literals leads to the same set of values, whatever the enumerations are
called. -/
theorem enumConstants_sameSet {xs ys : List Json} (h : Json.SameSet xs ys) (name other : String) :
    Json.SameSet ((enumConstants name xs).map (·.value))
      ((enumConstants other ys).map (·.value)) :=
  ⟨exists_same_enumConstant h.1 name other, exists_same_enumConstant h.2 other name⟩

end ResourceTypes
