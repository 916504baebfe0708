import ResourceTypes.Proofs.Naming.Signature

/-! # The bytes behind a signature

A signature is the digest of the bytes of a text. Texts with the same bytes are the same text, so
the bytes tell a map of properties from every other one at any depth, a set of literals from every
other one up to the order of keys, and the two from each other.
-/

namespace ResourceTypes

/-! ## Bytes of texts -/

theorem toList_loop (bytes : ByteArray) (i : Nat) (read : List UInt8) :
    ByteArray.toList.loop bytes i read = read.reverse ++ bytes.data.toList.drop i := by
  fun_induction ByteArray.toList.loop bytes i read with
  | case1 i read h ih =>
      have hi : i < bytes.data.toList.length := by simpa using h
      have hget : bytes.get! i = bytes.data.toList[i] := getElem!_pos bytes.data i h
      rw [ih, List.drop_eq_getElem_cons hi, hget, List.reverse_cons, List.append_assoc,
        List.singleton_append]
  | case2 i read h =>
      have hi : bytes.data.toList.length ≤ i := by simpa using h
      rw [List.drop_eq_nil_of_le hi, List.append_nil]

theorem toList_eq_data (bytes : ByteArray) : bytes.toList = bytes.data.toList :=
  toList_loop bytes 0 []

namespace Digest

def bytes (text : List Char) : List UInt8 :=
  (String.ofList text).toUTF8.toList

theorem ofChars_eq (text : List Char) : ofChars text = ofBytes (bytes text) :=
  rfl

theorem bytes_injective {s t : List Char} (h : bytes s = bytes t) : s = t := by
  simp only [bytes, toList_eq_data] at h
  have hbytes : (String.ofList s).toUTF8 = (String.ofList t).toUTF8 :=
    ByteArray.ext (Array.toList_inj.mp h)
  exact String.ofList_inj.mp (String.toByteArray_inj.mp hbytes)

end Digest

/-! ## Bytes of shapes -/

namespace Signature

def propertiesBytes (properties : List (String × Schema)) : List UInt8 :=
  Digest.bytes (propertiesText properties)

def literalsBytes (literals : List Json) : List UInt8 :=
  Digest.bytes (literalsText literals)

theorem propertiesBytes_eq_iff_sort {ps qs : List (String × Schema)} :
    propertiesBytes ps = propertiesBytes qs ↔ Keyed.sort ps = Keyed.sort qs := by
  constructor
  · intro h
    exact sort_eq_of_propertiesText (Digest.bytes_injective h)
  · intro h
    rw [propertiesBytes, propertiesBytes, propertiesText_eq, propertiesText_eq, h]

theorem propertiesBytes_ne_literalsBytes (properties : List (String × Schema))
    (literals : List Json) : propertiesBytes properties ≠ literalsBytes literals :=
  fun h => propertiesText_ne_literalsText properties literals (Digest.bytes_injective h)

/-- The bytes of literals tell just their set up to the order of keys. -/
theorem literalsBytes_eq_iff {xs ys : List Json} (hx : ∀ v ∈ xs, v.UniqueKeys)
    (hy : ∀ w ∈ ys, w.UniqueKeys) :
    literalsBytes xs = literalsBytes ys ↔ Json.SameSet xs ys := by
  rw [← literalsText_eq_iff hx hy]
  constructor
  · intro h
    exact Digest.bytes_injective h
  · intro h
    rw [literalsBytes, h, literalsBytes]

/-- Two maps of properties, in whatever order they are listed, have the same bytes just when every
key has the same schema in both, or none. Schemas are the same when they agree in all their parts at
every depth: descriptions, kinds, formats, literals in their order, properties, contents and the
permission of unknown fields. No map of properties has the bytes of literals. -/
theorem bytes_determine_properties {ps qs : List (String × Schema)} (hp : (ps.map (·.1)).Nodup)
    (hq : (qs.map (·.1)).Nodup) :
    ofProperties ps = Digest.ofBytes (propertiesBytes ps) ∧
      (propertiesBytes ps = propertiesBytes qs ↔ ∀ key, ps.lookup key = qs.lookup key) ∧
      ∀ literals, ofLiterals literals = Digest.ofBytes (literalsBytes literals) ∧
        propertiesBytes ps ≠ literalsBytes literals := by
  refine ⟨Digest.ofChars_eq _, ?_, fun literals => ⟨Digest.ofChars_eq _, ?_⟩⟩
  · rw [propertiesBytes_eq_iff_sort]
    exact Keyed.sort_eq_iff_lookup hp hq
  · exact propertiesBytes_ne_literalsBytes ps literals

/-- Properties in another order have the same bytes, and without one description they have not. -/
theorem reordered_properties_bytes :
    let size (description : Option String) : String × Schema :=
      ("size", .mk description (.scalar .integer (some "int64")))
    let modes : String × Schema :=
      ("modes", .mk none (.array (some (.mk none (.enum .string none [.str "fast", .null])))))
    let extra : String × Schema := ("extra", .mk none (.object [] none true))
    propertiesBytes [modes, size (some "in bytes"), extra] =
        propertiesBytes [extra, size (some "in bytes"), modes] ∧
      propertiesBytes [modes, size (some "in bytes"), extra] ≠
        propertiesBytes [modes, size none, extra] := by
  intro size modes extra
  have hp : ([modes, size (some "in bytes"), extra].map (·.1)).Nodup := by decide
  have hq : ([extra, size (some "in bytes"), modes].map (·.1)).Nodup := by decide
  have hr : ([modes, size none, extra].map (·.1)).Nodup := by decide
  have hperm : [modes, size (some "in bytes"), extra].Perm
      [extra, size (some "in bytes"), modes] := (List.reverse_perm _).symm
  constructor
  · apply (bytes_determine_properties hp hq).2.1.mpr
    exact (Keyed.sort_eq_iff_lookup hp hq).mp (Keyed.sort_eq_of_perm hp hperm)
  · intro h
    have hs := (bytes_determine_properties hp hr).2.1.mp h "size"
    have hd : some "in bytes" = none := congrArg (fun s => s.bind Schema.description) hs
    cases hd

/-- Two lists of literals have the same bytes just when they are the same set up to the order of
keys at every depth. Neither the order of literals nor their number counts. A literal of a sort that
the other list lacks makes a difference, so null does, and so does a string in place of what it
spells. The canonical texts of two literals agree just when the literals do. -/
theorem bytes_determine_literals {xs ys : List Json} (hx : ∀ v ∈ xs, v.UniqueKeys)
    (hy : ∀ w ∈ ys, w.UniqueKeys) :
    ofLiterals xs = Digest.ofBytes (literalsBytes xs) ∧
      (literalsBytes xs = literalsBytes ys ↔ Json.SameSet xs ys) ∧
      (xs ⊆ ys → ys ⊆ xs → literalsBytes xs = literalsBytes ys) ∧
      (∀ v ∈ xs, v.rank ∉ ys.map Json.rank → literalsBytes xs ≠ literalsBytes ys) ∧
      ∀ v w : Json, v.UniqueKeys → (v.canonical.text = w.canonical.text ↔ Json.Same v w) := by
  have hsame := literalsBytes_eq_iff hx hy
  refine ⟨Digest.ofChars_eq _, hsame, ?_, ?_, ?_⟩
  · intro hxy hyx
    exact hsame.mpr (.of_subset hxy hyx)
  · intro v hv hrank hbytes
    obtain ⟨w, hw, hvw⟩ := (hsame.mp hbytes).1 v hv
    have hmem : w.rank ∈ ys.map Json.rank := List.mem_map_of_mem hw
    rw [← hvw.rank_eq] at hmem
    exact hrank hmem
  · intro v w hv
    exact Json.canonical_text_eq_iff hv

/-- Literals in another order, one of them twice and one with its keys exchanged, have the same
bytes. They have other bytes with a number in place of the string that spells it, or without
null. -/
theorem reordered_literals_bytes :
    let unit : String × Json := ("unit", .str "Gi")
    let count : String × Json := ("count", .num (.int 4))
    let size : Json := .arr [.obj [unit, count]]
    let exchanged : Json := .arr [.obj [count, unit]]
    literalsBytes [.null, .str "4", size] =
        literalsBytes [exchanged, .str "4", .null, .str "4"] ∧
      literalsBytes [.null, .str "4", size] ≠ literalsBytes [.null, .num (.int 4), size] ∧
      literalsBytes [.null, .str "4", size] ≠ literalsBytes [.str "4", size] := by
  intro unit count size exchanged
  have hkeys : size.UniqueKeys := by
    simp [size, unit, count, Json.UniqueKeys, Json.UniqueKeysItems, Json.UniqueKeysFields]
  have hkeys' : exchanged.UniqueKeys := by
    simp [exchanged, unit, count, Json.UniqueKeys, Json.UniqueKeysItems, Json.UniqueKeysFields]
  have hu : ∀ v ∈ [.null, .str "4", size], Json.UniqueKeys v := by
    simp [hkeys, Json.UniqueKeys]
  have hreordered : ∀ v ∈ [exchanged, .str "4", .null, .str "4"], Json.UniqueKeys v := by
    simp [hkeys', Json.UniqueKeys]
  have hnumber : ∀ v ∈ [.null, .num (.int 4), size], Json.UniqueKeys v := by
    simp [hkeys, Json.UniqueKeys]
  have hshort : ∀ v ∈ [.str "4", size], Json.UniqueKeys v := by
    simp [hkeys, Json.UniqueKeys]
  refine ⟨?_, ?_, ?_⟩
  · have hsize : Json.Same size exchanged :=
      .arr (.cons (.obj (.cons (.str _) (.cons (.num _) .nil)) (.swap _ _ _)) .nil)
    have hsize' : Json.Same exchanged size :=
      .arr (.cons (.obj (.cons (.num _) (.cons (.str _) .nil)) (.swap _ _ _)) .nil)
    apply (bytes_determine_literals hu hreordered).2.1.mpr
    constructor
    · intro v hv
      simp only [List.mem_cons, List.not_mem_nil, or_false] at hv
      rcases hv with rfl | rfl | rfl
      · exact ⟨.null, by simp, .null⟩
      · exact ⟨.str "4", by simp, .str "4"⟩
      · exact ⟨_, List.mem_cons_self, hsize⟩
    · intro w hw
      simp only [List.mem_cons, List.not_mem_nil, or_false] at hw
      rcases hw with rfl | rfl | rfl | rfl
      · exact ⟨size, by simp, hsize'⟩
      · exact ⟨.str "4", by simp, .str "4"⟩
      · exact ⟨.null, by simp, .null⟩
      · exact ⟨.str "4", by simp, .str "4"⟩
  · have hstring : Json.rank (.str "4") ∉ [.null, .num (.int 4), size].map Json.rank := by decide
    exact (bytes_determine_literals hu hnumber).2.2.2.1 (.str "4") (by simp) hstring
  · have hnull : Json.rank .null ∉ [.str "4", size].map Json.rank := by decide
    exact (bytes_determine_literals hu hshort).2.2.2.1 .null (by simp) hnull

end Signature

end ResourceTypes
