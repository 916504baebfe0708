import ResourceTypes.CommandLine.Arguments

/-! # What arguments give

The definitions of a command are the values of their option, in the order of the arguments. A value
is in the same argument as the option, or else all arguments behind it that are values are.
-/

namespace ResourceTypes.Arguments

/-- What the option for definitions holds in the same argument, if the argument is that option. -/
def definitionValue? (argument : String) : Option (Option String) :=
  match argument.toList with
  | ['-', '-', 'c', 'r', 'd'] => some none
  | '-' :: '-' :: 'c' :: 'r' :: 'd' :: '=' :: value => some (some (String.ofList value))
  | _ => none

/-- The definitions that arguments give. Values are definitions where the option for them is the
last one in front, without a value of its own. -/
def definitionsGiven (listed : Bool) : List String → List String
  | [] => []
  | argument :: behind =>
    if isValue argument then
      (if listed then [argument] else []) ++ definitionsGiven listed behind
    else match definitionValue? argument with
      | none => definitionsGiven false behind
      | some none => definitionsGiven true behind
      | some (some value) => value :: definitionsGiven false behind

/-! ## Options -/

theorem longName_eq_definitions {command : CommandName} {name : String}
    (h : longName command name = some .definitions) : name = "crd" := by
  unfold longName at h
  split at h
  · rfl
  all_goals
    try split at h
    all_goals cases h

theorem shortName_ne_definitions (command : CommandName) (c : Char) :
    shortName command c ≠ some .definitions := by
  unfold shortName
  split
  · nofun
  split
  · nofun
  split
  · nofun
  · nofun

theorem crd_of_takeWhile {cs : List Char} (h : cs.takeWhile (· ≠ '=') = ['c', 'r', 'd']) :
    cs = ['c', 'r', 'd'] ∨ ∃ value, cs = 'c' :: 'r' :: 'd' :: '=' :: value := by
  obtain ⟨rest, rfl⟩ : ['c', 'r', 'd'] <+: cs := h ▸ List.takeWhile_prefix _
  have hrest : rest.takeWhile (· ≠ '=') = [] := by simpa using h
  cases rest with
  | nil => exact .inl rfl
  | cons c value =>
      by_cases hc : c = '='
      · exact .inr ⟨value, hc ▸ rfl⟩
      · rw [List.takeWhile_cons_of_pos (by simpa using hc)] at hrest
        cases hrest

theorem splitEquals_fst (cs : List Char) : (splitEquals cs).1 = cs.takeWhile (· ≠ '=') := by
  rw [splitEquals]
  split <;> rfl

theorem definitionValue?_of_crd {argument : String} {cs name : List Char} {value : Option String}
    (hchars : argument.toList = '-' :: '-' :: cs) (hsplit : splitEquals cs = (name, value))
    (hname : name = ['c', 'r', 'd']) : definitionValue? argument = some value := by
  have hfront : cs.takeWhile (· ≠ '=') = ['c', 'r', 'd'] := by
    rw [← splitEquals_fst, hsplit, hname]
  rcases crd_of_takeWhile hfront with rfl | ⟨_, rfl⟩
  all_goals
    cases hsplit
    rw [definitionValue?, hchars]
    rfl

theorem definitionValue?_of_ne_crd {argument : String} {cs name : List Char}
    {value : Option String} (hchars : argument.toList = '-' :: '-' :: cs)
    (hsplit : splitEquals cs = (name, value)) (hname : name ≠ ['c', 'r', 'd']) :
    definitionValue? argument = none := by
  rw [definitionValue?, hchars]
  split
  next heq =>
    cases heq
    cases hsplit
    exact absurd rfl hname
  next heq =>
    cases heq
    cases hsplit
    exact absurd rfl hname
  · rfl

theorem definitionValue?_of_dash {argument : String} {c : Char} {cs : List Char}
    (hchars : argument.toList = '-' :: c :: cs) (hc : c ≠ '-') :
    definitionValue? argument = none := by
  rw [definitionValue?, hchars]
  split
  next heq =>
    cases heq
    exact absurd rfl hc
  next heq =>
    cases heq
    exact absurd rfl hc
  · rfl

/-- Reading finds the option for definitions where it is. -/
theorem readOption_spec {command : CommandName} {argument : String} {written : Written}
    (h : readOption command argument = some written) :
    isValue argument = false ∧
      (written.option = .definitions ∧ definitionValue? argument = some written.value ∨
        written.option ≠ .definitions ∧ definitionValue? argument = none) := by
  rw [readOption] at h
  split at h
  next cs hchars =>
    refine ⟨by rw [isValue, hchars]; rfl, ?_⟩
    cases hsplit : splitEquals cs with
    | mk name value =>
      rw [hsplit] at h
      obtain ⟨option, hoption, hwritten⟩ := Option.bind_eq_some_iff.mp h
      cases hwritten
      by_cases hname : name = ['c', 'r', 'd']
      · refine .inl ⟨?_, definitionValue?_of_crd hchars hsplit hname⟩
        rw [hname] at hoption
        exact (Option.some.inj hoption).symm
      · refine .inr ⟨?_, definitionValue?_of_ne_crd hchars hsplit hname⟩
        rintro rfl
        exact hname (String.ofList_injective (longName_eq_definitions hoption))
  next c cs hdash hchars =>
    refine ⟨by rw [isValue, hchars]; rfl, .inr ⟨?_, definitionValue?_of_dash hchars hdash⟩⟩
    obtain ⟨option, hname, hwritten⟩ := Option.bind_eq_some_iff.mp h
    have hoption : written.option = option := by
      split at hwritten
      all_goals
        cases hwritten
        rfl
    rw [hoption]
    rintro rfl
    exact shortName_ne_definitions command c hname
  · cases h

/-! ## Drafts -/

theorem definitionsGiven_listed (behind : List String) :
    definitionsGiven true behind = behind.takeWhile isValue ++
      definitionsGiven false (behind.dropWhile isValue) := by
  induction behind with
  | nil => rfl
  | cons argument behind ih =>
      cases hvalue : isValue argument with
      | true => simp [definitionsGiven, hvalue, ih]
      | false => simp [definitionsGiven, hvalue]

section Draft

variable {draft draft' : Draft}

/-- What is set once leaves the definitions as they are. -/
theorem definitions_of_unless {c : Prop} {_ : Decidable c} {changed : Draft}
    (h : (if c then none else some changed) = some draft')
    (hchanged : changed.definitions = draft.definitions) :
    draft'.definitions = draft.definitions := by
  split at h
  · cases h
  · cases h
    exact hchanged

/-- An option with one value of another kind. -/
theorem single_definitions {set : String → Option Draft} {value : Option String}
    {behind behind' : List String}
    (hset : ∀ value draft', set value = some draft' → draft'.definitions = draft.definitions)
    (h : (match value, behind with
      | some value, _ => (set value).map (·, behind)
      | none, value :: behind => if isValue value then (set value).map (·, behind) else none
      | none, [] => none) = some (draft', behind')) :
    draft'.definitions ++ definitionsGiven false behind' =
      draft.definitions ++ definitionsGiven false behind := by
  split at h
  · obtain ⟨other, hother, heq⟩ := Option.map_eq_some_iff.mp h
    cases heq
    rw [hset _ _ hother]
  · split at h
    next value behind hvalue =>
      obtain ⟨other, hother, heq⟩ := Option.map_eq_some_iff.mp h
      cases heq
      rw [hset _ _ hother, definitionsGiven, if_pos hvalue]
      rfl
    · cases h
  · cases h

/-- An option without a value. -/
theorem flag_definitions {set : Option Draft} {value : Option String} {behind behind' : List String}
    (hset : ∀ draft', set = some draft' → draft'.definitions = draft.definitions)
    (h : (if value.isSome then none else set.map (·, behind)) = some (draft', behind')) :
    draft'.definitions ++ definitionsGiven false behind' =
      draft.definitions ++ definitionsGiven false behind := by
  split at h
  · cases h
  · obtain ⟨other, hother, heq⟩ := Option.map_eq_some_iff.mp h
    cases heq
    rw [hset _ hother]

/-- Whatever an option takes, the definitions that remain are those behind it. -/
theorem takeOption_definitions {command : CommandName} {argument : String} {written : Written}
    (hread : readOption command argument = some written) {behind behind' : List String}
    (h : takeOption draft written behind = some (draft', behind')) :
    draft'.definitions ++ definitionsGiven false behind' =
      draft.definitions ++ definitionsGiven false (argument :: behind) := by
  obtain ⟨hvalue, ⟨hoption, hgiven⟩ | ⟨hoption, hgiven⟩⟩ := readOption_spec hread
  · rw [definitionsGiven, if_neg (by simp [hvalue]), hgiven]
    rw [takeOption, hoption] at h
    cases hwritten : written.value with
    | some value =>
        rw [hwritten] at h
        cases h
        exact List.append_assoc ..
    | none =>
        rw [hwritten] at h
        simp only [Option.isSome_none, Bool.false_eq_true, if_false] at h
        split at h
        · cases h
        · cases h
          rw [definitionsGiven_listed, List.append_assoc]
  · rw [definitionsGiven, if_neg (by simp [hvalue]), hgiven]
    rw [takeOption] at h
    cases hname : written.option with
    | definitions => exact absurd hname hoption
    | version =>
        have hset (value : String) (draft' : Draft) (hset : draft.setVersion value = some draft') :
            draft'.definitions = draft.definitions := definitions_of_unless hset rfl
        rw [hname] at h
        exact single_definitions hset h
    | place =>
        have hset (value : String) (draft' : Draft) (hset : draft.setPlace value = some draft') :
            draft'.definitions = draft.definitions := definitions_of_unless hset rfl
        rw [hname] at h
        exact single_definitions hset h
    | optional =>
        have hset (draft' : Draft) (hset : draft.setOptional = some draft') :
            draft'.definitions = draft.definitions := definitions_of_unless hset rfl
        rw [hname] at h
        exact flag_definitions hset h
    | noOp =>
        have hset (draft' : Draft) (hset : draft.setNoOp = some draft') :
            draft'.definitions = draft.definitions := definitions_of_unless hset rfl
        rw [hname] at h
        exact flag_definitions hset h
    | help =>
        rw [hname] at h
        cases h

theorem finish_definitions {name : CommandName} {command : Command}
    (h : draft.finish name = .run command) : command.input.definitions = draft.definitions := by
  rw [Draft.finish] at h
  split at h
  · cases h
  · split at h
    all_goals cases h
    all_goals rfl

end Draft

theorem readOptions_definitions {name : CommandName} {steps : Nat} {draft : Draft}
    {arguments : List String} {command : Command}
    (h : readOptions name steps draft arguments = .run command) :
    command.input.definitions = draft.definitions ++ definitionsGiven false arguments := by
  induction steps generalizing draft arguments with
  | zero => cases h
  | succ steps ih =>
      cases arguments with
      | nil => exact (finish_definitions h).trans (List.append_nil _).symm
      | cons argument behind =>
          rw [readOptions] at h
          split at h
          next hdashes =>
            subst hdashes
            split at h
            next hbehind =>
              rw [List.isEmpty_iff.mp hbehind]
              exact (finish_definitions h).trans (List.append_nil _).symm
            · cases h
          split at h
          · cases h
          · split at h
            all_goals cases h
          next written hhelp hread =>
            split at h
            · cases h
            next draft' behind' htake =>
              rw [ih h, takeOption_definitions hread htake]

/-- The definitions of a command are the ones that its arguments give, in this order. -/
theorem read_definitions {arguments : List String} {command : Command}
    (h : read arguments = .run command) :
    command.input.definitions = definitionsGiven false arguments.tail := by
  unfold read at h
  split at h
  · cases h
  split at h
  · exact readOptions_definitions h
  split at h
  · cases h
  split at h
  · split at h
    · cases h
    · split at h
      all_goals cases h
    · cases h
  · split at h
    all_goals cases h

end ResourceTypes.Arguments
