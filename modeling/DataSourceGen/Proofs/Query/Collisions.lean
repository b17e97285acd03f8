import Mathlib.Data.List.Forall2
import DataSourceGen.Proofs.DataSource.EdgesIndex

/-!
# Accessors that collide

Three steps lead from a flat name to its accessor: it is cut into segments, each segment is put in
upper case at its start and may get an index, and the components are joined with dots. For flat
names of the characters of names, the last step loses nothing, since no component has a dot
(`Query.expression_eq_iff`), and the index replaces one component by a text that no other component
has (`LookupShape.component_eq_iff`). What is left is the upper case: **Theorem**
(`accessor_collision_iff`), two flat names have one accessor iff their segments agree once
capitalized. Without capital letters this loses nothing either (`lowercaseFirst_capitalizeFirst`),
and so do the segments, which join to the flat name. -/

namespace DataSourceGen

open Text

/-! ### One component -/

namespace LookupShape

variable {shape : LookupShape} {s t : Text}

/-- Segments without brackets have one component iff they agree once capitalized. -/
theorem component_eq_iff (hs : '[' ∉ s) (ht : '[' ∉ t) :
    shape.component s = shape.component t ↔ capitalizeFirst s = capitalizeFirst t := by
  have hplain {u : Text} (hu : '[' ∉ u) : capitalizeFirst u ≠ shape.edgesAccessor := by
    intro h
    have hbracket := bracket_mem_edgesAccessor shape
    rw [← h] at hbracket
    exact absurd hbracket (not_mem_capitalizeFirst (by decide) hu)
  unfold component
  dsimp only
  by_cases hedges : capitalizeFirst s = edgesComponent
  · rw [if_pos hedges]
    by_cases hedges' : capitalizeFirst t = edgesComponent
    · rw [if_pos hedges']
      exact iff_of_true rfl (hedges.trans hedges'.symm)
    · rw [if_neg hedges']
      exact iff_of_false (hplain ht).symm fun h => hedges' (h.symm.trans hedges)
  · rw [if_neg hedges]
    by_cases hedges' : capitalizeFirst t = edgesComponent
    · rw [if_pos hedges']
      exact iff_of_false (hplain hs) fun h => hedges (h.trans hedges')
    · rw [if_neg hedges']

end LookupShape

/-! ### The components of two flat names -/

/-- Two lists have the same images iff they are of one length and their members have the same images
in pairs. -/
theorem map_eq_map_iff_zip {α β : Type} {f : α → β} {as bs : List α} :
    as.map f = bs.map f ↔
      as.length = bs.length ∧ ∀ pair ∈ as.zip bs, f pair.1 = f pair.2 := by
  rw [← List.forall₂_eq_eq_eq, List.forall₂_map_left_iff, List.forall₂_map_right_iff,
    List.forall₂_iff_zip]
  exact and_congr_right fun _ => ⟨fun h pair hpair => h hpair, fun h _ _ hpair => h _ hpair⟩

namespace Query

variable {q : Query} {m n : Text}

/-- The components of a flat name without dots are the pieces of the path that joins them. -/
theorem splitAt_path (hn : '.' ∉ n) :
    splitAt '.' (joinWith "." ((q.segmentsOf n).map q.shape.component)) =
      (q.segmentsOf n).map q.shape.component := by
  refine splitAt_joinWith_of_not_mem ?_ ?_
  · exact List.map_eq_nil_iff.not.mpr (segmentsFrom_ne_nil q.compounds [] n)
  · intro component hcomponent
    obtain ⟨s, hs, rfl⟩ := List.mem_map.mp hcomponent
    have hindex : '.' ∉ q.shape.edgesAccessor := by
      cases q.shape
      all_goals exact not_mem_toList_ofList rfl
    exact LookupShape.not_mem_component (by decide) hindex (not_mem_segment (by decide) hn s hs)

/-- Flat names without dots have one accessor iff they have the same components. -/
theorem expression_eq_iff (hm : '.' ∉ m) (hn : '.' ∉ n) :
    (q.accessor m).expression = (q.accessor n).expression ↔
      (q.segmentsOf m).map q.shape.component = (q.segmentsOf n).map q.shape.component := by
  constructor
  · intro h
    have hpath := congrArg (splitAt '.') (List.append_cancel_left h)
    rwa [splitAt_path hm, splitAt_path hn] at hpath
  · intro h
    simp only [accessor, h]

/-- Without brackets, the components agree iff the capitalized segments do. -/
theorem map_component_eq_iff (hm : '[' ∉ m) (hn : '[' ∉ n) :
    (q.segmentsOf m).map q.shape.component = (q.segmentsOf n).map q.shape.component ↔
      (q.segmentsOf m).length = (q.segmentsOf n).length ∧
        ∀ pair ∈ (q.segmentsOf m).zip (q.segmentsOf n),
          capitalizeFirst pair.1 = capitalizeFirst pair.2 := by
  rw [map_eq_map_iff_zip]
  refine and_congr_right fun _ => forall₂_congr fun pair hpair => ?_
  obtain ⟨hs, ht⟩ := List.of_mem_zip hpair
  exact LookupShape.component_eq_iff (not_mem_segment (by decide) hm _ hs)
    (not_mem_segment (by decide) hn _ ht)

end Query

/-! ### Names without capital letters -/

/-- Whether a text has characters of names only, and no capital letter. -/
def IsUncapitalized (t : Text) : Prop :=
  ∀ c ∈ t, isNameChar c = true ∧ c.isUpper = false

/-- Upper case at the start of a text without capital letters can be undone. -/
theorem lowercaseFirst_capitalizeFirst :
    {t : Text} → IsUncapitalized t → lowercaseFirst (capitalizeFirst t) = t
  | [], _ => rfl
  | c :: t, h => by
      have hundo : ∀ n < 123, isNameChar (Char.ofNat n) = true → (Char.ofNat n).isUpper = false →
          (Char.ofNat n).toUpper.toLower = Char.ofNat n := by decide
      obtain ⟨hchar, hsmall⟩ := h c List.mem_cons_self
      obtain ⟨-, hbound⟩ := toNat_of_isNameChar hchar
      have hc := hundo c.toNat (by omega)
      rw [Char.ofNat_toNat] at hc
      rw [capitalizeFirst_cons_of_ascii (by omega), lowercaseFirst, hc hchar hsmall]

/-- Texts without capital letters that agree once capitalized are the same. -/
theorem eq_of_map_capitalizeFirst_eq {as bs : List Text} (has : ∀ t ∈ as, IsUncapitalized t)
    (hbs : ∀ t ∈ bs, IsUncapitalized t) (h : as.map capitalizeFirst = bs.map capitalizeFirst) :
    as = bs := by
  have hundo {ts : List Text} (hts : ∀ t ∈ ts, IsUncapitalized t) :
      (ts.map capitalizeFirst).map lowercaseFirst = ts := by
    rw [List.map_map]
    exact (List.map_congr_left fun t ht => lowercaseFirst_capitalizeFirst (hts t ht)).trans
      (List.map_id ts)
  rw [← hundo has, h, hundo hbs]

namespace Query

variable {q : Query} {m n : Text}

/-- The segments of a flat name without capital letters have none. -/
theorem isUncapitalized_segment (hn : IsUncapitalized n) :
    ∀ s ∈ q.segmentsOf n, IsUncapitalized s := by
  intro s hs c hc
  by_cases hsep : c = separator
  · rw [hsep]
    decide
  · exact hn c (subset_of_mem_segmentsOf hs hsep hc)

/-- Flat names without capital letters are the same if their capitalized segments are. -/
theorem eq_of_capitalized_segments_eq (hm : IsUncapitalized m) (hn : IsUncapitalized n)
    (h : (q.segmentsOf m).map capitalizeFirst = (q.segmentsOf n).map capitalizeFirst) : m = n := by
  have hsegments : q.segmentsOf m = q.segmentsOf n :=
    eq_of_map_capitalizeFirst_eq (isUncapitalized_segment hm) (isUncapitalized_segment hn) h
  calc
    m = flatten (q.segmentsOf m) := (flatten_segments q.compounds m).symm
    _ = flatten (q.segmentsOf n) := by rw [hsegments]
    _ = n := flatten_segments q.compounds n

end Query

/-- **Collisions of accessors** are those of the case of first letters: two flat names of letters,
digits and underscores have one accessor iff they have equally many segments and these agree, one by
one, once capitalized. Two flat names without capital letters have one accessor only if they are the
same. -/
theorem accessor_collision_iff (q : Query) {m n : Text} (hm : ∀ c ∈ m, isNameChar c = true)
    (hn : ∀ c ∈ n, isNameChar c = true) :
    ((q.accessor m).expression = (q.accessor n).expression ↔
      (q.segmentsOf m).length = (q.segmentsOf n).length ∧
        ∀ pair ∈ (q.segmentsOf m).zip (q.segmentsOf n),
          capitalizeFirst pair.1 = capitalizeFirst pair.2) ∧
    ((∀ c ∈ m, c.isUpper = false) → (∀ c ∈ n, c.isUpper = false) →
      (q.accessor m).expression = (q.accessor n).expression → m = n) := by
  have lacks {t : Text} (ht : ∀ c ∈ t, isNameChar c = true) {c : Char}
      (hc : isNameChar c = false) : c ∉ t := by
    intro hmem
    rw [ht c hmem] at hc
    cases hc
  have hiff : (q.accessor m).expression = (q.accessor n).expression ↔
      (q.segmentsOf m).length = (q.segmentsOf n).length ∧
        ∀ pair ∈ (q.segmentsOf m).zip (q.segmentsOf n),
          capitalizeFirst pair.1 = capitalizeFirst pair.2 :=
    (Query.expression_eq_iff (lacks hm rfl) (lacks hn rfl)).trans
      (Query.map_component_eq_iff (lacks hm rfl) (lacks hn rfl))
  refine ⟨hiff, fun hsmall hsmall' h => ?_⟩
  exact Query.eq_of_capitalized_segments_eq (fun c hc => ⟨hm c hc, hsmall c hc⟩)
    (fun c hc => ⟨hn c hc, hsmall' c hc⟩) (map_eq_map_iff_zip.mpr (hiff.mp h))

/-- A collection with a block of two words. -/
def hostNameDocument : Text :=
  "query Q \x7b\nR \x7b\nhost_name \x7b\nid\n"

/-- A capital letter in front makes `name_id` collide with `Name_id`; where it takes a word out of
the block of two words, the segments are others. Without capital letters, two flat names differ. -/
theorem accessor_collision_iff_hostNameDocument :
    ∃ q, Query.parse 2 hostNameDocument = .ok q ∧
      (q.accessor "name_id").expression = (q.accessor "Name_id").expression ∧
      (q.accessor "host_name_id").expression ≠ (q.accessor "Host_name_id").expression ∧
      (q.accessor "host_name_id").expression ≠ (q.accessor "host_nameid").expression := by
  have hparse : ∃ q, Query.parse 2 hostNameDocument = .ok q ∧
      q.compounds = .ofList ["host_name".toList] := ⟨_, rfl, rfl⟩
  obtain ⟨q, hq, hcompounds⟩ := hparse
  obtain ⟨hname, -⟩ := accessor_collision_iff q (m := "name_id") (n := "Name_id")
    (List.all_eq_true.mp rfl) (List.all_eq_true.mp rfl)
  obtain ⟨hhost, -⟩ := accessor_collision_iff q (m := "host_name_id") (n := "Host_name_id")
    (List.all_eq_true.mp rfl) (List.all_eq_true.mp rfl)
  obtain ⟨-, hsmall⟩ := accessor_collision_iff q (m := "host_name_id") (n := "host_nameid")
    (List.all_eq_true.mp rfl) (List.all_eq_true.mp rfl)
  unfold Query.segmentsOf at hname hhost
  rw [hcompounds] at hname hhost
  refine ⟨q, hq, hname.mpr (by decide), fun h => ?_, fun h => ?_⟩
  · exact absurd (hhost.mp h).1 (by decide)
  · exact absurd (hsmall (by simp) (by simp) h) (by decide)

end DataSourceGen
