import DataSourceGen.Name
import DataSourceGen.NameSet

/-!
# Segments of a flat name

A flat name joins the names of nested selections with underscores, and the names may hold
underscores themselves. Given the set of the names that do, `segments` recovers the list: read
from the left, an underscore ends a segment unless the segment so far is an incomplete piece of
a member of the set.

`flatten_segments` says that no character is lost.
-/

namespace DataSourceGen

/-- The segments of the rest of a flat name, when `word` is what the current one has so far. -/
def segmentsFrom (compounds : NameSet) (word : Text) : Text → List Text
  | [] => [word]
  | c :: r =>
    if c == separator && !compounds.hasExtension word then word :: segmentsFrom compounds [] r
    else segmentsFrom compounds (word ++ [c]) r

/-- The segments of a flat name, under a set of names that may hold underscores. -/
def segments (compounds : NameSet) (flatName : Text) : List Text :=
  segmentsFrom compounds [] flatName

theorem segmentsFrom_ne_nil (compounds : NameSet) (word rest : Text) :
    segmentsFrom compounds word rest ≠ [] := by
  induction rest generalizing word with
  | nil => simp [segmentsFrom]
  | cons c r ih =>
    unfold segmentsFrom
    split
    · simp
    · exact ih _

/-- The segments, joined, are the flat name. -/
theorem flatten_segmentsFrom (compounds : NameSet) (word rest : Text) :
    flatten (segmentsFrom compounds word rest) = word ++ rest := by
  induction rest generalizing word with
  | nil => simp [segmentsFrom, flatten, Text.joinWith]
  | cons c r ih =>
    unfold segmentsFrom
    split
    · next h =>
      have hc : c = separator := by simp_all
      have hr := ih []
      cases hs : segmentsFrom compounds [] r with
      | nil => exact (segmentsFrom_ne_nil _ _ _ hs).elim
      | cons s ss =>
        rw [hs] at hr
        simp_all [flatten, Text.joinWith]
    · simp [ih]

theorem flatten_segments (compounds : NameSet) (flatName : Text) :
    flatten (segments compounds flatName) = flatName := by
  simpa [segments] using flatten_segmentsFrom compounds [] flatName

end DataSourceGen
