import ResourceTypes.Proofs.Batch.Constants
import ResourceTypes.Proofs.Code.Literals

/-! # Literals of a file

A constant has the name of its enumeration for a type, and that name stands for the base. Whether
the literal is one of the base depends on the base and the value alone, whatever else is in the
file.
-/

namespace ResourceTypes

open Code

namespace Code

theorem quoted_of_constLiteral {v : Json} {literal : String}
    (h : constLiteral? .str v = some literal) : ∃ s, v = .str s ∧ literal = Text.quoted s := by
  cases v with
  | str s => exact ⟨s, rfl, (Option.some.inj h).symm⟩
  | _ => cases h

def itemLines (e : EnumType) : Lines :=
  (declarationOf e).line :: (constantsOf e).map Constant.line

theorem mem_resourceLines_of_itemLines {m : TypeModel} {e : EnumType} (he : e ∈ m.enums)
    {l : String} (hl : l ∈ itemLines e) : l ∈ resourceLines m := by
  have hdeclares := declares_enumLines e
  have hmem : l ∈ enumLines e := by
    rcases List.mem_cons.mp hl with rfl | hl
    · have hline : (declarationOf e).line ∈ (enumLines e).filter isDeclaration :=
        hdeclares.declarations ▸ List.mem_singleton_self _
      exact List.mem_of_mem_filter hline
    · rw [← hdeclares.constants] at hl
      exact List.mem_of_mem_filter hl
  rw [resourceLines_eq]
  exact List.mem_append_right _ (List.mem_append_right _ (List.mem_flatMap.mpr ⟨e, he, hmem⟩))

end Code

/-- The lines of a file that declare constants are those of its enumerations. The type of a constant
is declared as a name for the base of its enumeration, and the literal is one of the base just if
the base is not strings and the value no integer beyond its range. Strings are quoted all the
same. -/
theorem constant_literals (m : TypeModel) :
    (resourceLines m).filter isConstant = (constants m).map Constant.line ∧
      ∀ c ∈ constants m, ∃ e ∈ m.enums, ∃ source ∈ e.constants,
        c.name = constName source.name ∧ c.type = e.name ∧
        (Declaration.typeAlias e.name e.base).line ∈ resourceLines m ∧
        (isLiteral e.base c.literal.toList = true ↔
          e.base ≠ .str ∧ inRange e.base source.value = true) ∧
        (e.base = .str → ∃ s, source.value = .str s ∧ c.literal = Text.quoted s) := by
  refine ⟨filter_isConstant_resourceLines m, fun c hc => ?_⟩
  obtain ⟨e, he, hc⟩ := List.mem_flatMap.mp hc
  obtain ⟨hstring, source, hsource, hof⟩ := mem_constantsOf.mp hc
  obtain ⟨literal, hliteral, rfl⟩ := Option.map_eq_some_iff.mp hof
  have hdeclaration : declarationOf e = .typeAlias e.name e.base :=
    if_neg (ne_true_of_eq_false hstring)
  refine ⟨e, he, source, hsource, rfl, rfl, ?_, ?_, fun hbase => ?_⟩
  · rw [← hdeclaration]
    exact mem_resourceLines_of_itemLines he List.mem_cons_self
  · simp only [isLiteral_constLiteral hliteral, Bool.and_eq_true, decide_eq_true_eq]
  · exact quoted_of_constLiteral (hbase ▸ hliteral)

/-- A text among numbers is quoted, though the name of its type stands for an owned text. -/
example : itemLines ⟨"Mode", .str, "", enumConstants "Mode" [.str "a", .num (.int 1)]⟩ =
    ["pub type Mode = String;", "pub const MODE_A: Mode = \"a\";"] := by
  decide +kernel

def shortEnum (n : Int) : Schema :=
  .mk none (.enum .integer (some "int32") [.num (.int n)])

/-- The least integers beyond both ranges are declared as constants, and their literals are not ones
of the types. -/
theorem level_and_size_literals :
    ∃ b, (compileBatch ⟨none, false⟩
      [twoEnums "level" "size" (shortEnum (2 ^ 31)) (integerEnum (2 ^ 63))]).batch = .ok b ∧
      ∃ m ∈ b.resources,
        (∀ l ∈ ["pub type Level = i32;", "pub const LEVEL2147483648: Level = 2147483648;",
          "pub type Size = i64;", "pub const SIZE9223372036854775808: Size = 9223372036854775808;"],
            l ∈ resourceLines m) ∧
        isLiteral .i32 "2147483648".toList = false ∧
        isLiteral .i64 "9223372036854775808".toList = false := by
  have hlines : (madeEnums "level" "size" (shortEnum (2 ^ 31)) (integerEnum (2 ^ 63))).flatMap
      itemLines = ["pub type Level = i32;", "pub const LEVEL2147483648: Level = 2147483648;",
        "pub type Size = i64;",
        "pub const SIZE9223372036854775808: Size = 9223372036854775808;"] := by
    decide +kernel
  have haccepted : (compileBatch ⟨none, false⟩
      [twoEnums "level" "size" (shortEnum (2 ^ 31)) (integerEnum (2 ^ 63))]).batch.toOption.map
        (·.resources.length) = some 1 := by
    decide +kernel
  obtain ⟨b, hb, -⟩ := exists_batch haccepted
  obtain ⟨m, hresources, hperm⟩ := madeEnums_perm hb
  refine ⟨b, hb, m, hresources ▸ List.mem_singleton_self m, fun l hl => ?_, by decide, by decide⟩
  obtain ⟨e, he, hmem⟩ := List.mem_flatMap.mp (hlines ▸ hl)
  exact mem_resourceLines_of_itemLines (hperm.mem_iff.mpr he) hmem

end ResourceTypes
