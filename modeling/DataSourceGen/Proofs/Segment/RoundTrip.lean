import DataSourceGen.Proofs.NameSet
import DataSourceGen.Segment

/-!
# The lists of names that come back from their flat name

`segments` is to undo `flatten`, and for some lists of names it does not: `device` above
`device_type` flattens to `device_device_type`, and the scan glues `device` to what follows, since
it may be the beginning of `device_type`.

`IsCut` says which lists come back: each separator inside a name is kept by some longer member of
the set (`NameSet.Keeps`), and no member extends a name other than the last. The scan ends with such
a list whatever it reads (`isCut_segments`), and each such list is the result of its own scan
(`segments_flatten_of_isCut`). So a flat name has one cut, and **Theorem** (`eq_segments_iff`) it is
the list of its segments. When every name with a separator is a member, the first condition holds by
itself, and **Theorem** (`segments_flatten_iff`) is what remains of `IsCut`: a list comes back iff
no member strictly extends one of its names before the last.
-/

namespace DataSourceGen

/-! ### Names that are kept whole -/

/-- A set keeps a name whole if, at each separator inside the name, what comes before it has an
extension in the set. -/
def NameSet.Keeps (compounds : NameSet) (name : Text) : Prop :=
  ∀ u v, name = u ++ separator :: v → compounds.hasExtension u = true

/-- A set keeps its members whole, since each of them extends its own beginnings. -/
theorem NameSet.keeps_of_mem {compounds : NameSet} {name : Text} (h : name ∈ compounds.toList) :
    compounds.Keeps name := by
  rintro u v rfl
  exact hasExtension_iff.mpr ⟨_, h, List.prefix_append u _, by simp⟩

/-- A name without a separator is kept by every set. -/
theorem NameSet.keeps_of_not_mem {compounds : NameSet} {name : Text} (h : separator ∉ name) :
    compounds.Keeps name := by
  rintro u v rfl
  exact absurd (by simp) h

/-- A kept name is still kept with one more character, if that is no separator or the name has an
extension. -/
theorem NameSet.Keeps.concat {compounds : NameSet} {word : Text} {c : Char}
    (h : compounds.Keeps word) (hc : c = separator → compounds.hasExtension word = true) :
    compounds.Keeps (word ++ [c]) := by
  intro u v huv
  rcases List.eq_nil_or_concat v with rfl | ⟨v', d, rfl⟩
  · obtain ⟨rfl, hlast⟩ := List.append_inj' huv rfl
    exact hc (by simpa using hlast)
  · rw [List.concat_eq_append, ← List.cons_append, ← List.append_assoc] at huv
    exact h u v' (List.append_inj' huv rfl).1

/-! ### The cuts of a flat name -/

/-- The lists of names that a scan under `compounds` ends with: each name is kept whole, and only
the last one may have an extension. -/
structure IsCut (compounds : NameSet) (names : List Text) : Prop where
  ne_nil : names ≠ []
  /-- A separator after a name ends it. -/
  closed : ∀ n ∈ names.dropLast, compounds.hasExtension n = false
  /-- A separator inside a name does not. -/
  kept : ∀ n ∈ names, compounds.Keeps n

/-- A scan ends with a cut, if the word that it starts from is kept. -/
theorem isCut_segmentsFrom {compounds : NameSet} :
    (rest word : Text) → compounds.Keeps word → IsCut compounds (segmentsFrom compounds word rest)
  | [], word, hword => ⟨by simp [segmentsFrom], by simp [segmentsFrom], by simpa [segmentsFrom]⟩
  | c :: r, word, hword => by
      unfold segmentsFrom
      split
      · next hc =>
        -- the word is closed here, and the scan starts again from the empty word
        obtain ⟨-, hclosed⟩ : c = separator ∧ compounds.hasExtension word = false := by
          simpa using hc
        have tail : IsCut compounds (segmentsFrom compounds [] r) :=
          isCut_segmentsFrom r [] (NameSet.keeps_of_not_mem (by simp))
        refine ⟨by simp, ?_, ?_⟩
        · rw [List.dropLast_cons_of_ne_nil tail.ne_nil]
          exact List.forall_mem_cons.mpr ⟨hclosed, tail.closed⟩
        · exact List.forall_mem_cons.mpr ⟨hword, tail.kept⟩
      · next hc =>
        refine isCut_segmentsFrom r (word ++ [c]) (hword.concat fun hsep => ?_)
        simpa [hsep] using hc

/-- The segments of a flat name are a cut. -/
theorem isCut_segments (compounds : NameSet) (flatName : Text) :
    IsCut compounds (segments compounds flatName) :=
  isCut_segmentsFrom flatName [] (NameSet.keeps_of_not_mem (by simp))

/-- The scan runs over a piece without ending the word, if each separator in it is kept. -/
theorem segmentsFrom_append {compounds : NameSet} (rest : Text) :
    (piece word : Text) →
      (∀ u v, piece = u ++ separator :: v → compounds.hasExtension (word ++ u) = true) →
      segmentsFrom compounds word (piece ++ rest) = segmentsFrom compounds (word ++ piece) rest
  | [], word, _ => by simp
  | c :: piece, word, h => by
      have hc : ¬ (c == separator && !compounds.hasExtension word) = true := by
        intro hc
        obtain ⟨rfl, hclosed⟩ : c = separator ∧ compounds.hasExtension word = false := by
          simpa using hc
        have hext := h [] piece rfl
        rw [List.append_nil, hclosed] at hext
        cases hext
      rw [List.cons_append, segmentsFrom, if_neg hc, segmentsFrom_append rest piece (word ++ [c])]
      · simp
      · intro u v huv
        simpa using h (c :: u) v (by simp [huv])

/-- Every cut is found again in its flat name. -/
theorem segments_flatten_of_isCut {compounds : NameSet} :
    (names : List Text) → IsCut compounds names → segments compounds (flatten names) = names
  | [], h => absurd rfl h.ne_nil
  | [n], h => by
      have scan : segmentsFrom compounds [] (n ++ []) = segmentsFrom compounds ([] ++ n) [] :=
        segmentsFrom_append [] n [] (h.kept n (by simp))
      simpa [segments, flatten, Text.joinWith, segmentsFrom] using scan
  | n :: m :: r, h => by
      have hn : compounds.hasExtension n = false := h.closed n (by simp)
      have tail : IsCut compounds (m :: r) :=
        ⟨by simp, fun x hx => h.closed x (by simp [hx]),
          fun x hx => h.kept x (List.mem_cons_of_mem n hx)⟩
      have split : flatten (n :: m :: r) = n ++ separator :: flatten (m :: r) := by
        simp [flatten, Text.joinWith]
      rw [split, segments, segmentsFrom_append _ n [] (h.kept n (by simp)), List.nil_append,
        segmentsFrom, if_pos (by simp [hn]), ← segments, segments_flatten_of_isCut (m :: r) tail]

/-- The lists that come back from their flat name are exactly the cuts. -/
theorem segments_flatten_eq_self_iff {compounds : NameSet} {names : List Text} :
    segments compounds (flatten names) = names ↔ IsCut compounds names :=
  ⟨fun h => h ▸ isCut_segments compounds (flatten names), segments_flatten_of_isCut names⟩

/-- **The one cut**: the segments of a flat name are the only list of names, with at least one name,
that joins to it such that no member strictly extends a name before the last, and some member
strictly extends whatever comes before a separator inside a name. -/
theorem eq_segments_iff {compounds : NameSet} {flatName : Text} {names : List Text} :
    names = segments compounds flatName ↔
      names ≠ [] ∧ flatten names = flatName ∧
        (∀ n ∈ names.dropLast, ∀ m ∈ compounds.toList, ¬ (n <+: m ∧ n ≠ m)) ∧
        ∀ n ∈ names, ∀ u v, n = u ++ separator :: v →
          ∃ m ∈ compounds.toList, u <+: m ∧ u ≠ m := by
  constructor
  · rintro rfl
    have cut := isCut_segments compounds flatName
    refine ⟨cut.ne_nil, flatten_segments compounds flatName, fun n hn => ?_, fun n hn u v huv => ?_⟩
    · exact NameSet.hasExtension_eq_false_iff.mp (cut.closed n hn)
    · exact NameSet.hasExtension_iff.mp (cut.kept n hn u v huv)
  · rintro ⟨hne, rfl, hclosed, hkept⟩
    have cut : IsCut compounds names :=
      ⟨hne, fun n hn => NameSet.hasExtension_eq_false_iff.mpr (hclosed n hn),
        fun n hn u v huv => NameSet.hasExtension_iff.mpr (hkept n hn u v huv)⟩
    exact (segments_flatten_of_isCut names cut).symm

/-! ### When every name with a separator is a member -/

/-- If every name with a separator is a member, only the names before the last decide. -/
theorem isCut_iff_of_mem {compounds : NameSet} {names : List Text} (hne : names ≠ [])
    (hmem : ∀ n ∈ names, separator ∈ n → n ∈ compounds.toList) :
    IsCut compounds names ↔
      ∀ n ∈ names.dropLast, ∀ m ∈ compounds.toList, ¬ (n <+: m ∧ n ≠ m) := by
  constructor
  · intro h n hn
    exact NameSet.hasExtension_eq_false_iff.mp (h.closed n hn)
  · intro h
    refine ⟨hne, fun n hn => ?_, fun n hn => ?_⟩
    · exact NameSet.hasExtension_eq_false_iff.mpr (h n hn)
    · by_cases hsep : separator ∈ n
      · exact NameSet.keeps_of_mem (hmem n hn hsep)
      · exact NameSet.keeps_of_not_mem hsep

/-- **The round trip**: under a set with every name that holds a separator, a list of names comes
back from its flat name iff no member strictly extends a name before the last. -/
theorem segments_flatten_iff {compounds : NameSet} {names : List Text} (hne : names ≠ [])
    (hmem : ∀ n ∈ names, separator ∈ n → n ∈ compounds.toList) :
    segments compounds (flatten names) = names ↔
      ∀ n ∈ names.dropLast, ∀ m ∈ compounds.toList, ¬ (n <+: m ∧ n ≠ m) := by
  rw [segments_flatten_eq_self_iff]
  exact isCut_iff_of_mem hne hmem

/-- `primary_address` comes back from below `node`, under a set with a longer name that begins
otherwise. -/
theorem segments_flatten_primary_address :
    let compounds := NameSet.ofList ["primary_address".toList, "device_type_id".toList]
    let names : List Text := ["node".toList, "primary_address".toList, "id".toList]
    names ≠ [] ∧ (∀ n ∈ names, separator ∈ n → n ∈ compounds.toList) ∧
      segments compounds (flatten names) = names :=
  ⟨by decide, by decide,
    (segments_flatten_iff (by decide) (by decide)).mpr (by decide)⟩

example : segments (.ofList ["device_type".toList]) "device_device_type" =
    ["device_device".toList, "type".toList] := by decide

end DataSourceGen
