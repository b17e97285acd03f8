import Mathlib.Data.List.Basic
import Mathlib.Logic.Relation
import DataSourceGen.Generation
import DataSourceGen.Proofs.Reading.Sections
import DataSourceGen.Proofs.Text.Layout

/-!
# Noise in a document

Blanks around a line, the kind of its line end and the end of the last line do not matter to a
document, nor do lines of selections that name nothing and neither open nor close a block. What does
matter is `countedLines`: the first two trimmed lines, and of those below them the ones that count.
A reading passes over the others wherever they stand, since below the heading the number of a line
is not looked at (`run_filter_counts`); so it is the reading of the counted lines
(`run_countedLines`), and each single bit of noise leaves these as they are
(`countedLines_of_addsNoise`). **Theorem** (`parse_of_noise`) is for any number of them, added or
taken away. -/

namespace DataSourceGen

open Text

/-! ### Lines that count -/

namespace Reading

/-- Whether a trimmed line of selections counts: it opens a block, closes one, or has a first word
that is a name before any parenthesis. -/
def counts (line : Text) : Bool :=
  (openedBlock? line).isSome || line == closingLine || (selectedWord? line).any isName

/-- The lines that count, of trimmed ones. Those of the heading do in any case, and are blank where
there are none. -/
def countedLines : List Text → List Text
  | [] => [[], []]
  | [first] => [first, []]
  | first :: second :: below => first :: second :: below.filter counts

/-- Recording a leaf that a line does not name changes nothing. -/
theorem recordLeaf_eq_self {line : Text} (h : (selectedWord? line).any isName = false)
    (s : Reading) : (s.recordLeaf line).reading = s ∧ (s.recordLeaf line).stops = false := by
  unfold recordLeaf
  rcases hword : selectedWord? line with _ | name
  · exact ⟨rfl, rfl⟩
  · rw [hword, Option.any_some] at h
    dsimp only
    rw [h]
    exact ⟨rfl, rfl⟩

/-- **A line that does not count** leaves the reading as it is, and does not end it. -/
theorem select_eq_self {line : Text} (h : counts line = false) (depth : Nat) (s : Reading) :
    (s.select depth line).reading = s ∧ (s.select depth line).stops = false := by
  unfold counts at h
  rw [Bool.or_eq_false_iff, Bool.or_eq_false_iff, Option.isSome_eq_false_iff,
    Option.isNone_iff_eq_none, beq_eq_false_iff_ne] at h
  obtain ⟨⟨hopens, hcloses⟩, hnames⟩ := h
  unfold select
  rw [hopens]
  dsimp only
  rw [if_neg hcloses]
  split
  · exact ⟨rfl, rfl⟩
  · exact recordLeaf_eq_self hnames s

/-- The reading after some lines, one line at a time. -/
theorem fst_run_cons (depth index : Nat) (s : Reading) (line : Text) (rest : List Text) :
    (s.run depth index (line :: rest)).1 =
      if (s.next depth index (trim line)).stops then (s.next depth index (trim line)).reading
      else ((s.next depth index (trim line)).reading.run depth (index + 1) rest).1 := by
  simp only [run]
  split
  · rfl
  · rfl

/-- Below the heading, a run is that over the lines that count, wherever they stand. -/
theorem run_filter_counts (depth : Nat) :
    (raw : List Text) → ∀ (i j : Nat) (s : Reading), 2 ≤ i → 2 ≤ j →
      (s.run depth i raw).1 = (s.run depth j (raw.filter fun line => counts (trim line))).1
  | [], _, _, _, _, _ => rfl
  | line :: rest, i, j, s, hi, hj => by
      have hnext (index : Nat) (hindex : 2 ≤ index) :
          s.next depth index (trim line) = s.select depth (trim line) :=
        next_eq_select (readsSelections_of_two_le hindex (trim line)) depth s
      rcases hcounts : counts (trim line) with _ | _
      · obtain ⟨hsame, hgoesOn⟩ := select_eq_self hcounts depth s
        rw [List.filter_cons_of_neg (by simp [hcounts]), fst_run_cons, hnext i hi, hsame, hgoesOn]
        exact run_filter_counts depth rest (i + 1) j s (by omega) hj
      · rw [List.filter_cons_of_pos (by simp [hcounts]), fst_run_cons, fst_run_cons, hnext i hi,
          hnext j hj]
        split
        · rfl
        · exact run_filter_counts depth rest (i + 1) (j + 1) _ (by omega) (by omega)

/-- Below the heading, a run is that over the trimmed lines that count. -/
theorem run_below (depth : Nat) (s : Reading) (below : List Text) :
    (s.run depth 2 below).1 = (s.run depth 2 ((below.map trim).filter counts)).1 := by
  have hlines : (below.filter fun line => counts (trim line)).map trim =
      ((below.map trim).filter counts).map trim := by
    rw [List.filter_map, List.map_map]
    exact List.map_congr_left fun line _ => (trim_trim line).symm
  rw [run_filter_counts depth below 2 2 s (Nat.le_refl 2) (Nat.le_refl 2),
    run_eq_of_map_trim_eq depth hlines]

/-- A blank second line names no root object, as no second line does. -/
theorem nameRoot_blank {depth : Nat} {first : Text} {s : Reading} (h : Reached depth [first] s) :
    (s.nameRoot []).reading = s := by
  obtain ⟨hroot, hparameter⟩ := h.agreesOnRoot
  rcases s with ⟨operationName, rootName, parameter, openBlocks, lead, fields, flatNames, compounds⟩
  obtain rfl : rootName = [] := hroot
  obtain rfl : parameter = none := hparameter
  rfl

/-- **The reading of a document** is that of its counted lines. -/
theorem run_countedLines (depth : Nat) :
    (raw : List Text) → (run depth 0 {} raw).1 = (run depth 0 {} (countedLines (raw.map trim))).1
  | [] => rfl
  | [first] => by
      rw [List.map_singleton, countedLines, fst_run_cons, fst_run_cons, trim_trim]
      split
      · rfl
      · next hgoesOn =>
        have hreached : Reached depth [trim first] (next depth 0 {} (trim first)).reading :=
          Reached.start.step (trim first) (by simpa using hgoesOn)
        exact (nameRoot_blank hreached).symm
  | first :: second :: below => by
      rw [List.map_cons, List.map_cons, countedLines]
      simp only [fst_run_cons, trim_trim, run_below depth _ below]

/-- Documents with the same counted lines have the same reading. -/
theorem ofDocument_eq_of_countedLines_eq {d e : Text}
    (h : countedLines (trimmedLines d) = countedLines (trimmedLines e)) (depth : Nat) :
    ofDocument depth d = ofDocument depth e := by
  unfold trimmedLines at h
  rw [ofDocument, ofDocument, run_countedLines, h, ← run_countedLines]

/-! ### What does not change the counted lines -/

/-- A blank line at the end does not count, and the heading has blank lines where it has none. -/
theorem countedLines_append_blank :
    (lines : List Text) → countedLines (lines ++ [[]]) = countedLines lines
  | [] => rfl
  | [_] => rfl
  | first :: second :: below => by
      have hblank : [([] : Text)].filter counts = [] := rfl
      rw [List.cons_append, List.cons_append, countedLines, countedLines, List.filter_append,
        hblank, List.append_nil]

/-- Below the heading, a line that does not count can be left out. -/
theorem countedLines_append_cons {line : Text} (h : counts line = false) (after : List Text) :
    (before : List Text) → 2 ≤ before.length →
      countedLines (before ++ line :: after) = countedLines (before ++ after)
  | first :: second :: below, _ => by
      simp only [List.cons_append, countedLines, List.filter_append, List.filter_cons, h]
      rfl

end Reading

/-! ### The lines of a text -/

namespace Text

/-- Whether a text is made of whole lines. -/
def IsWhole (t : Text) : Prop :=
  t = [] ∨ t.getLast? = some '\n'

/-- Whether a text begins where a line ends. -/
def BeginsAtLineEnd (t : Text) : Prop :=
  t = [] ∨ "\n".toList <+: t ∨ "\r\n".toList <+: t

theorem IsWhole.trimmedLines_append {head : Text} (h : IsWhole head) (rest : Text) :
    trimmedLines (head ++ rest) = trimmedLines head ++ trimmedLines rest := by
  rcases h with rfl | whole
  · rfl
  · exact Reading.trimmedLines_append whole rest

/-- A text is made of whole lines and a part of one more. -/
theorem exists_isWhole_append :
    (t : Text) → ∃ head line, IsWhole head ∧ '\n' ∉ line ∧ t = head ++ line
  | [] => ⟨[], [], .inl rfl, List.not_mem_nil, rfl⟩
  | c :: t => by
      obtain ⟨head, line, hhead, hline, rfl⟩ := exists_isWhole_append t
      rcases hhead with rfl | whole
      · by_cases hc : c = '\n'
        · exact ⟨[c], line, .inr (congrArg some hc), hline, rfl⟩
        · have hfeed : '\n' ∉ c :: line := List.not_mem_cons_of_ne_of_not_mem (Ne.symm hc) hline
          exact ⟨[], c :: line, .inl rfl, hfeed, rfl⟩
      · refine ⟨c :: head, line, .inr ?_, hline, rfl⟩
        rw [List.getLast?_cons, whole]
        rfl

/-- A text is made of a part of a line and what begins at the end of the line. -/
theorem exists_append_beginsAtLineEnd (t : Text) :
    ∃ line rest, '\n' ∉ line ∧ BeginsAtLineEnd rest ∧ t = line ++ rest := by
  by_cases hfeed : '\n' ∈ t
  · obtain ⟨line, after, rfl, hline⟩ := List.eq_append_cons_of_mem hfeed
    exact ⟨line, '\n' :: after, hline, .inr (.inl ⟨after, rfl⟩), rfl⟩
  · exact ⟨t, [], hfeed, .inl rfl, (List.append_nil t).symm⟩

end Text

namespace Reading

/-- The last line counts as it does with an end. -/
theorem countedLines_of_last {head line : Text} (hhead : IsWhole head) (hline : '\n' ∉ line) :
    countedLines (trimmedLines (head ++ line)) =
      countedLines (trimmedLines head ++ [trim line]) := by
  rw [hhead.trimmedLines_append]
  by_cases hne : line = []
  · rw [hne, show trimmedLines [] = [] from rfl, List.append_nil]
    exact (countedLines_append_blank _).symm
  · rw [trimmedLines_eq_singleton hne hline]

/-- **A line counts as what trimming leaves of it**: another line can take its place if trimming
leaves the same of that. -/
theorem countedLines_of_trim_eq {head u v rest : Text} (hhead : IsWhole head) (hu : '\n' ∉ u)
    (hv : '\n' ∉ v) (htrim : trim u = trim v) (hrest : BeginsAtLineEnd rest) :
    countedLines (trimmedLines (head ++ (u ++ rest))) =
      countedLines (trimmedLines (head ++ (v ++ rest))) := by
  have fed {s t : Text} (hs : '\n' ∉ s) (ht : '\n' ∉ t) (hst : trim s = trim t) (after : Text) :
      trimmedLines (head ++ (s ++ '\n' :: after)) =
        trimmedLines (head ++ (t ++ '\n' :: after)) := by
    rw [hhead.trimmedLines_append, hhead.trimmedLines_append, trimmedLines_append_cons hs,
      trimmedLines_append_cons ht, hst]
  rcases hrest with rfl | ⟨after, rfl⟩ | ⟨after, rfl⟩
  · rw [List.append_nil, List.append_nil, countedLines_of_last hhead hu,
      countedLines_of_last hhead hv, htrim]
  · exact congrArg countedLines (fed hu hv htrim after)
  · -- the carriage return is one more blank of the line
    have hreturn {t : Text} (ht : '\n' ∉ t) :
        '\n' ∉ t ++ ['\r'] ∧ trim (t ++ ['\r']) = trim t :=
      ⟨by simp [ht], trim_append_blanks t (by simp [isBlank])⟩
    have hlines := fed (hreturn hu).1 (hreturn hv).1
      ((hreturn hu).2.trans (htrim.trans (hreturn hv).2.symm)) after
    rw [List.append_assoc, List.append_assoc] at hlines
    exact congrArg countedLines hlines

/-- Whether a line can stand among the selections as if it did not: it closes no block, opens none,
and its first word, if any, is no name before any parenthesis. -/
structure IsNoise (line : Text) : Prop where
  /-- It is one line. -/
  noLineFeed : '\n' ∉ line
  closesNothing : trim line ≠ closingLine
  opensNothing : ¬ " \x7b".toList <:+ trim line
  namesNothing : ∀ word, firstWord? (trim line) = some word → isName (callee word) = false

/-- Noise does not count. -/
theorem IsNoise.counts_eq_false {line : Text} (h : IsNoise line) : counts (trim line) = false := by
  have hopens : openedBlock? (trim line) = none := by
    rw [Option.eq_none_iff_forall_ne_some]
    intro block hopen
    rw [openedBlock?, List.isSuffixOf?_eq_some_iff_append_eq] at hopen
    exact h.opensNothing ⟨block, hopen⟩
  have hcloses : (trim line == closingLine) = false := beq_eq_false_iff_ne.mpr h.closesNothing
  have hnames : (selectedWord? (trim line)).any isName = false := by
    unfold selectedWord?
    rcases hword : firstWord? (trim line) with _ | word
    · rfl
    · exact h.namesNothing word hword
  rw [counts, hopens, hcloses, hnames]
  rfl

/-- One bit of noise, added to a document. A line is inserted below two whole lines; where the last
line of the document has no line feed, it gets one first. -/
inductive AddsNoise : Text → Text → Prop where
  | blanksBefore (head margin tail : Text) (hhead : IsWhole head) (hmargin : IsMargin margin) :
      AddsNoise (head ++ tail) (head ++ margin ++ tail)
  | blanksAfter (head margin tail : Text) (htail : BeginsAtLineEnd tail)
      (hmargin : IsMargin margin) : AddsNoise (head ++ tail) (head ++ margin ++ tail)
  | carriageReturn (head tail : Text) :
      AddsNoise (head ++ '\n' :: tail) (head ++ '\r' :: '\n' :: tail)
  | finalLineFeed (document : Text) : AddsNoise document (document ++ ['\n'])
  | line (head line tail : Text) (hhead : IsWhole head) (hlong : 2 ≤ (lines head).length)
      (hline : IsNoise line) : AddsNoise (head ++ tail) (head ++ line ++ '\n' :: tail)

/-- Blanks at the end of a line do not change the counted lines. -/
theorem countedLines_of_blanksAfter (head : Text) {tail margin : Text}
    (htail : BeginsAtLineEnd tail) (hmargin : IsMargin margin) :
    countedLines (trimmedLines (head ++ margin ++ tail)) =
      countedLines (trimmedLines (head ++ tail)) := by
  obtain ⟨whole, line, hwhole, hline, rfl⟩ := exists_isWhole_append head
  have htrim : trim (line ++ margin) = trim line :=
    trim_append_blanks line fun c hc => (hmargin c hc).1
  have hfeed : '\n' ∉ line ++ margin := fun hmem =>
    (List.mem_append.mp hmem).elim hline fun hc => (hmargin _ hc).2 rfl
  have hlines := countedLines_of_trim_eq hwhole hfeed hline htrim htail
  simp only [List.append_assoc] at hlines ⊢
  exact hlines

/-- **Noise does not change the counted lines.** -/
theorem countedLines_of_addsNoise {d e : Text} (h : AddsNoise d e) :
    countedLines (trimmedLines e) = countedLines (trimmedLines d) := by
  cases h with
  | blanksBefore head margin tail hhead hmargin =>
    obtain ⟨line, rest, hline, hrest, rfl⟩ := exists_append_beginsAtLineEnd tail
    have htrim : trim (margin ++ line) = trim line :=
      trim_blanks_append (fun c hc => (hmargin c hc).1) line
    have hfeed : '\n' ∉ margin ++ line := fun hmem =>
      (List.mem_append.mp hmem).elim (fun hc => (hmargin _ hc).2 rfl) hline
    have hlines := countedLines_of_trim_eq hhead hfeed hline htrim hrest
    simp only [List.append_assoc] at hlines ⊢
    exact hlines
  | blanksAfter head margin tail htail hmargin =>
    exact countedLines_of_blanksAfter head htail hmargin
  | carriageReturn head tail =>
    have hmargin : IsMargin ['\r'] := by simp [IsMargin, isBlank]
    have hlines := countedLines_of_blanksAfter head (.inr (.inl ⟨tail, rfl⟩)) hmargin
    rw [List.append_assoc] at hlines
    exact hlines
  | finalLineFeed =>
    obtain ⟨whole, line, hwhole, hline, rfl⟩ := exists_isWhole_append d
    rw [countedLines_of_last hwhole hline, List.append_assoc, hwhole.trimmedLines_append,
      trimmedLines_append_cons hline]
    rfl
  | line head line tail hhead hlong hline =>
    rw [List.append_assoc, hhead.trimmedLines_append, hhead.trimmedLines_append,
      trimmedLines_append_cons hline.noLineFeed]
    refine countedLines_append_cons hline.counts_eq_false _ _ ?_
    rwa [trimmedLines, List.length_map]

end Reading

open Reading

/-- **Noise is inert**: documents that come from each other by noise that is added and taken away,
as often as one likes, have the same query, or the same error, and so the same source. Noise is a
blank other than the line feed at the start or at the end of a line, a carriage return before a line
feed, a line feed at the end, and a line below the heading that closes no block, opens none and
names nothing. -/
theorem parse_of_noise {d e : Text} (h : Relation.EqvGen AddsNoise d e) (depth : Nat) :
    Query.parse depth d = Query.parse depth e ∧ generate depth d = generate depth e := by
  have hlines : countedLines (trimmedLines d) = countedLines (trimmedLines e) := by
    induction h with
    | rel _ _ hstep => exact (countedLines_of_addsNoise hstep).symm
    | refl _ => rfl
    | symm _ _ _ ih => exact ih.symm
    | trans _ _ _ _ _ first second => exact first.trans second
  have hparse : Query.parse depth d = Query.parse depth e := by
    rw [Query.parse, Query.parse, ofDocument_eq_of_countedLines_eq hlines]
  exact ⟨hparse, by rw [generate, generate, hparse]⟩

/-- A short collection. -/
def tidyDocument : Text :=
  "query Q \x7b\nR \x7b\nt \x7b\nid\n"

/-- The collection with an indented first line and a carriage return after it, with a comment and a
blank after a brace, and without the last line feed. -/
def noisyDocument : Text :=
  "\tquery Q \x7b\r\nR \x7b\n# a\nt \x7b \nid"

/-- One bit of noise of each kind, the last one taken away, leaves the query of the collection. -/
theorem parse_of_noise_noisyDocument :
    Relation.EqvGen AddsNoise tidyDocument noisyDocument ∧
    (∃ q, Query.parse 1 noisyDocument = .ok q ∧ q.operationName = "q".toList ∧
      q.rootName = "R".toList ∧ q.fields.map Field.flatName = ["t_id".toList]) ∧
    generate 1 tidyDocument = generate 1 noisyDocument := by
  have comment : IsNoise "# a" := by
    refine ⟨by decide, by decide, by decide, ?_⟩
    intro word hword
    obtain rfl : "#".toList = word := Option.some.inj hword
    rfl
  have commented : AddsNoise tidyDocument "query Q \x7b\nR \x7b\n# a\nt \x7b\nid\n" :=
    .line "query Q \x7b\nR \x7b\n" "# a" "t \x7b\nid\n" (.inr rfl) (by decide) comment
  have indented : AddsNoise "query Q \x7b\nR \x7b\n# a\nt \x7b\nid\n"
      "\tquery Q \x7b\nR \x7b\n# a\nt \x7b\nid\n" :=
    .blanksBefore [] "\t" _ (.inl rfl) (by simp [IsMargin, isBlank])
  have returned : AddsNoise "\tquery Q \x7b\nR \x7b\n# a\nt \x7b\nid\n"
      "\tquery Q \x7b\r\nR \x7b\n# a\nt \x7b\nid\n" :=
    .carriageReturn "\tquery Q \x7b" "R \x7b\n# a\nt \x7b\nid\n"
  have padded : AddsNoise "\tquery Q \x7b\r\nR \x7b\n# a\nt \x7b\nid\n"
      "\tquery Q \x7b\r\nR \x7b\n# a\nt \x7b \nid\n" :=
    .blanksAfter "\tquery Q \x7b\r\nR \x7b\n# a\nt \x7b" " " "\nid\n" (.inr (.inl ⟨"id\n", rfl⟩))
      (by simp [IsMargin, isBlank])
  have ended : AddsNoise noisyDocument "\tquery Q \x7b\r\nR \x7b\n# a\nt \x7b \nid\n" :=
    .finalLineFeed noisyDocument
  have hnoise : Relation.EqvGen AddsNoise tidyDocument noisyDocument :=
    .trans _ _ _ (.rel _ _ commented) (.trans _ _ _ (.rel _ _ indented)
      (.trans _ _ _ (.rel _ _ returned) (.trans _ _ _ (.rel _ _ padded)
        (.symm _ _ (.rel _ _ ended)))))
  obtain ⟨hparse, hgenerate⟩ := parse_of_noise hnoise 1
  have htidy : ∃ q, Query.parse 1 tidyDocument = .ok q ∧ q.operationName = "q".toList ∧
      q.rootName = "R".toList ∧ q.fields.map Field.flatName = ["t_id".toList] :=
    ⟨_, rfl, rfl, rfl, rfl⟩
  rw [hparse] at htidy
  exact ⟨hnoise, htidy, hgenerate⟩

end DataSourceGen
