import DataSourceGen.Command.Generate
import DataSourceGen.Proofs.DataSource.Binding
import DataSourceGen.Proofs.FileTree.Below
import DataSourceGen.Proofs.Query.Acceptance

/-!
# File names

The name of an output file comes from the first line of a document, and so from an untrusted text.
It is a name followed by a fixed ending, and therefore a single name on a path
(`isEntryName_fileNameFor`): an output is always directly in the output directory
(`landsDirectly_of_isName`).

**Theorem** (`generate_of_firstLine`) says which documents get which file names. -/

namespace DataSourceGen

open Text

/-- The fixed ending is all that a file name has besides the operation. -/
theorem fileNameFor_inj {a b : Text} : fileNameFor a = fileNameFor b ↔ a = b :=
  List.append_left_inj _

/-- The characters of a file name: those of names, and dots. -/
theorem isNameChar_of_mem_fileNameFor {operation : Text} (h : isName operation = true) :
    ∀ c ∈ fileNameFor operation, isNameChar c = true ∨ c = '.' := by
  intro c hc
  rcases List.mem_append.mp hc with hname | hending
  · exact .inl (isNameChar_of_isName h c hname)
  · have hall : "_data_source.go".toList.all (fun d => isNameChar d || d == '.') = true := by decide
    simpa using List.all_eq_true.mp hall c hending

theorem not_mem_fileNameFor {operation : Text} (h : isName operation = true) {c : Char}
    (hc : isNameChar c = false) (hdot : c ≠ '.') : c ∉ fileNameFor operation := by
  intro hmem
  rcases isNameChar_of_mem_fileNameFor h c hmem with hname | heq
  · rw [hname] at hc
    cases hc
  · exact hdot heq

/-- A file name is the name of an entry: it leads neither to the directory itself nor out of it. -/
theorem isEntryName_fileNameFor {operation : Text} (h : isName operation = true) :
    FileTree.IsEntryName (fileNameFor operation) := by
  have hlong : 15 ≤ (fileNameFor operation).length := by
    rw [fileNameFor, List.length_append]
    exact Nat.le_add_left 15 _
  have hshort (t : Text) (ht : t.length < 15) : fileNameFor operation ≠ t := by
    rintro rfl
    omega
  exact {
    nonempty := hshort [] (by decide)
    noSlash := not_mem_fileNameFor h (by decide) (by decide)
    notSelf := hshort _ (by decide)
    notUp := hshort _ (by decide)
    noNul := not_mem_fileNameFor h (by decide) (by decide) }

/-- Whether an output is directly in the output directory: its path is that of the directory with
one more name, and what is written there is the entry of this name and no other, as long as it is
not a link that leads elsewhere. -/
structure LandsDirectly (o : GenerateOptions) (g : Generated) : Prop where
  parts : Path.parts (Batch.outputPath o g) = Path.names o.outputDirectory ++ [g.fileName]
  isAbsolute : Path.isAbsolute (Batch.outputPath o g) = Path.isAbsolute o.outputDirectory
  kept : ∀ {t t' : FileTree} {l : Location} {content : List UInt8},
    t.stat o.outputDirectory = .ok (l, .directory) →
    (∀ target, t.entry? (l ++ [g.fileName]) ≠ some (.link target)) →
    t.writeFile (Batch.outputPath o g) content = .ok t' →
    ∀ m, m ≠ l ++ [g.fileName] → t'.entry? m = t.entry? m

/-- The outputs of operations with names are directly in the output directory. -/
theorem landsDirectly_of_isName {g : Generated} (h : isName g.operationName = true)
    (o : GenerateOptions) : LandsDirectly o g := by
  have hname : FileTree.IsEntryName g.fileName := isEntryName_fileNameFor h
  refine ⟨Path.parts_join hname.toIsPart, Path.isAbsolute_join hname.toIsPart, ?_⟩
  intro t t' l content hdirectory hplain hwrite m hm
  rw [FileTree.entry?_of_writeFile_join hname hdirectory hplain hwrite, if_neg hm]

/-- **Acceptance and file names**: the first line of a document alone decides whether the document
is accepted, at every depth, and under which name: the one that the line gives, with its first
character in lower case. The name of the output file is made of this name, which has letters and
digits of ASCII and underscores only, and a fixed ending. So the output is directly in the output
directory, and two documents have one file name iff their names agree up to the case of the first
letter. -/
theorem generate_of_firstLine (depth : Nat) (document : Text) :
    ((∃ q, Query.parse depth document = .ok q) ↔ ∃ name, Declares document name) ∧
    ∀ name, Declares document name → ∃ q g,
      Query.parse depth document = .ok q ∧ generate depth document = .ok g ∧
      q.operationName = lowercaseFirst name ∧
      g.fileName = lowercaseFirst name ++ "_data_source.go".toList ∧
      (∀ c ∈ lowercaseFirst name, isNameChar c = true) ∧ '/' ∉ g.fileName ∧
      (∀ o, LandsDirectly o g) ∧
      ∀ depth' document' name' g', Declares document' name' →
        generate depth' document' = .ok g' →
        (g'.fileName = g.fileName ↔ lowercaseFirst name' = lowercaseFirst name) := by
  refine ⟨Query.exists_parse_iff_declares, fun name hname => ?_⟩
  obtain ⟨q, hq, hoperation⟩ := Query.exists_parse_of_declares depth hname
  have hisName := Query.isName_operationName hq
  refine ⟨q, _, hq, generate_of_parse hq, hoperation, ?_, ?_, ?_, ?_, ?_⟩
  · exact congrArg fileNameFor hoperation
  · rw [← hoperation]
    exact isNameChar_of_isName hisName
  · exact not_mem_fileNameFor hisName (by decide) (by decide)
  · exact landsDirectly_of_isName hisName
  · intro depth' document' name' g' hname' hg'
    obtain ⟨q', hq', hoperation'⟩ := Query.exists_parse_of_declares depth' hname'
    rw [generate_of_parse hq'] at hg'
    obtain rfl := Except.ok.inj hg'
    rw [← hoperation, ← hoperation']
    exact fileNameFor_inj

/-- A document whose first line has blanks of several kinds and a list of variables. -/
def deviceListDocument : Text :=
  "\t query\u3000 DeviceList($n: Int) \x7b\r\nquery x"

/-- The same operation up to the case of its first letter, in another document. -/
def bareListDocument : Text :=
  "query deviceList"

/-- The two documents have one file name, and the output is directly in `out`. -/
theorem generate_of_firstLine_deviceListDocument :
    Declares deviceListDocument "DeviceList" ∧ Declares bareListDocument "deviceList" ∧
    ∃ g g', generate 2 deviceListDocument = .ok g ∧ generate 0 bareListDocument = .ok g' ∧
      g.fileName = "deviceList_data_source.go".toList ∧ g'.fileName = g.fileName ∧
      Path.parts (Batch.outputPath { outputDirectory := "/w//out/" } g) =
        ["w".toList, "out".toList, "deviceList_data_source.go".toList] := by
  have hlist : Declares deviceListDocument "DeviceList" :=
    ⟨_, rfl, "\u3000 ", "DeviceList($n:", " Int) \x7b", by decide, by decide, by simp [isBlank],
      by simp [isBlank], by simp [isBlank], by decide, by decide⟩
  have hbare : Declares bareListDocument "deviceList" :=
    ⟨_, rfl, " ", "deviceList", [], by decide, by decide, by simp [isBlank],
      by simp [isBlank], by simp, by decide, by decide⟩
  obtain ⟨-, hdeclared⟩ := generate_of_firstLine 2 deviceListDocument
  obtain ⟨-, hdeclared'⟩ := generate_of_firstLine 0 bareListDocument
  obtain ⟨q, g, -, hg, -, hfile, -, -, hlands, hsame⟩ := hdeclared _ hlist
  obtain ⟨q', g', -, hg', -⟩ := hdeclared' _ hbare
  refine ⟨hlist, hbare, g, g', hg, hg', hfile, ?_, ?_⟩
  · exact (hsame 0 _ _ g' hbare hg').mpr (by decide)
  · rw [(hlands _).parts, hfile]
    rfl

/-- The text with its first ASCII letter in lower case, wherever in the text it stands. -/
def lowercaseFirstLetter : Text → Text
  | [] => []
  | c :: r => if c.isAlpha then c.toLower :: r else c :: lowercaseFirstLetter r

/-- A document whose operation begins with an underscore. -/
def underscoreDocument : Text :=
  "query _Device \x7b\n  InfraDevice \x7b\n    edges \x7b\n      node \x7b\n        id\n" ++
  "      \x7d\n    \x7d\n  \x7d\n\x7d\n"

/-- Only a first character is put in lower case: after an underscore the first letter stays
large. -/
theorem operationName_of_underscoreDocument :
    ∃ q, Query.parse 2 underscoreDocument = .ok q ∧ Declares underscoreDocument "_Device" ∧
      q.operationName = "_Device".toList ∧ lowercaseFirstLetter "_Device" = "_device".toList ∧
      q.operationName ≠ lowercaseFirstLetter "_Device" := by
  have hdeclares : Declares underscoreDocument "_Device" :=
    ⟨_, rfl, " ", "_Device", " \x7b", by decide, by decide, by simp [isBlank], by simp [isBlank],
      by simp [isBlank], by decide, by decide⟩
  obtain ⟨q, hq, hoperation⟩ := Query.exists_parse_of_declares 2 hdeclares
  have hname : q.operationName = "_Device".toList := hoperation
  have hletter : lowercaseFirstLetter "_Device" = "_device".toList := by decide
  refine ⟨q, hq, hdeclares, hname, hletter, ?_⟩
  rw [hname, hletter]
  decide

end DataSourceGen
