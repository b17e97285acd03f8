import DataSourceGen.Proofs.Query.Heading
import DataSourceGen.Proofs.Reading.Heading
import DataSourceGen.Proofs.Text.Splitting
import DataSourceGen.Query.RootCall

/-!
# The arguments of a root object

The second line is cut at its first two colons, and only what stands between them is searched for a
variable. That is the value of the first argument, and if there are more arguments, a comma and the
name of the second one after it (`exists_line_eq`). So a variable of a later argument is not seen,
and one of the first argument takes the comma along (`ofLine_line`).

**Theorem** (`rootName_of_rootCall`): the root object is always read as it is written, and the
lookup has the shape that the line states iff the line has no variable or no more than one argument.
-/

namespace DataSourceGen

open Text

/-! ### Values -/

/-- The characters of a number are digits and the minus sign. -/
theorem mem_of_isInteger {t : Text} (h : isInteger t = true) {c : Char} (hc : c ∈ t) :
    c = '-' ∨ c.isDigit = true := by
  unfold isInteger at h
  dsimp only at h
  rcases t with _ | ⟨d, r⟩
  · cases hc
  · obtain ⟨-, hdigits⟩ := Bool.and_eq_true_iff.mp h
    split at hdigits
    · next hminus =>
      rcases List.mem_cons.mp hc with rfl | hc
      · exact .inl (Option.some.inj hminus)
      · exact .inr (List.all_eq_true.mp hdigits c hc)
    · exact .inr (List.all_eq_true.mp hdigits c hc)

/-- A value has no colon, and no dollar sign but that of a variable. -/
theorem ArgumentValue.not_mem_text {value : ArgumentValue} (h : value.isWellFormed = true) :
    ':' ∉ value.text ∧ (value.parameter? = none → '$' ∉ value.text) := by
  cases value with
  | fixed literal =>
    have hother {c : Char} (hsign : c ≠ '-') (hdigit : c.isDigit = false) : c ∉ literal := by
      intro hc
      rcases mem_of_isInteger h hc with hminus | hc
      · exact hsign hminus
      · rw [hdigit] at hc
        cases hc
    exact ⟨hother (by decide) (by decide), fun _ => hother (by decide) (by decide)⟩
  | bound parameter =>
    refine ⟨?_, nofun⟩
    rw [text, List.mem_cons]
    exact not_or.mpr ⟨by decide, not_mem_of_isName h (by decide)⟩

/-- A text without a dollar sign has no variable. -/
theorem boundVariable?_eq_none {argument : Text} (h : '$' ∉ argument) :
    boundVariable? argument = none := by
  rw [boundVariable?, cutAt_eq_none_iff.mpr h]

namespace RootCall

/-! ### Where the line is cut -/

/-- What stands behind the value of the first argument, up to the next colon or the end of the line.
-/
def behindFirst : List Argument → Text
  | [] => ") \x7b"
  | second :: _ => ", " ++ second.name

/-- The line is cut behind the name of the first argument, and before the colon of the second. -/
theorem exists_line_eq {root : Text} {first : Argument} {rest : List Argument}
    (h : IsWellFormed ⟨root, first :: rest⟩) :
    ∃ tail, line ⟨root, first :: rest⟩ = root ++ '(' :: first.name ++ ':' :: tail ∧
      upTo ':' tail = ' ' :: first.value.text ++ behindFirst rest := by
  obtain ⟨-, hvalue⟩ := h.arguments first List.mem_cons_self
  have hcolon : ':' ∉ ' ' :: first.value.text := by
    rw [List.mem_cons]
    exact not_or.mpr ⟨by decide, (ArgumentValue.not_mem_text hvalue).1⟩
  rcases rest with _ | ⟨second, rest⟩
  · refine ⟨' ' :: first.value.text ++ ") \x7b", ?_, upTo_eq_self ?_⟩
    · simp [line, joinWith, Argument.text]
    · rw [List.mem_append]
      exact not_or.mpr ⟨hcolon, by decide⟩
  · obtain ⟨hsecond, -⟩ := h.arguments second (by simp)
    have hname : ':' ∉ (", " : Text) ++ second.name := by
      rw [List.mem_append]
      exact not_or.mpr ⟨by decide, not_mem_of_isName hsecond (by decide)⟩
    obtain ⟨after, hafter⟩ : ∃ after, joinWith ", " (second.text :: rest.map Argument.text) =
        second.text ++ after := exists_joinWith_append ", " (rest.map Argument.text) [second.text]
    refine ⟨(' ' :: first.value.text ++ (", " ++ second.name)) ++
      ':' :: (" " ++ second.value.text ++ after ++ ") \x7b"), ?_, upTo_append ?_ (by simp)⟩
    · simp only [line, List.map_cons, joinWith, hafter]
      simp [Argument.text]
    · rw [List.mem_append]
      exact not_or.mpr ⟨hcolon, hname⟩

/-- The parameter that is read: the variable of the first argument, with a comma if there is a
second one. -/
def parameterRead? (c : RootCall) : Option Text :=
  match c.arguments with
  | [] => none
  | first :: rest => first.value.parameter?.map (· ++ if rest.isEmpty then [] else [','])

/-- A variable is searched up to the first blank behind it, and keeps the comma. -/
theorem boundVariable?_bound {v : Text} (hv : isName v = true) {rest : List Argument} :
    boundVariable? (' ' :: '$' :: v ++ behindFirst rest) =
      some (v ++ if rest.isEmpty then [] else [',']) := by
  have hne : v.isEmpty = false := by
    rcases v with _ | ⟨c, r⟩
    · cases hv
    · rfl
  have hblank : ' ' ∉ v := not_mem_of_isName hv (by decide)
  have hcut : cutAt '$' (' ' :: '$' :: v ++ behindFirst rest) =
      some ([' '], v ++ behindFirst rest) :=
    cutAt_eq_some_iff.mpr ⟨rfl, by decide⟩
  rcases rest with _ | ⟨second, rest⟩
  · have hword : upTo ' ' (v ++ behindFirst []) = v ++ [')'] := by
      have hsplit : v ++ behindFirst [] = (v ++ [')']) ++ " \x7b".toList := by simp [behindFirst]
      rw [hsplit]
      exact upTo_append (by simpa using hblank) (by simp)
    have hname : dropEnd ')' (v ++ [')']) = v :=
      dropEnd_concat (not_mem_of_isName hv (c := ')') (by decide))
    simp only [boundVariable?, hcut, hword, hname]
    simp [hne]
  · have hword : upTo ' ' (v ++ behindFirst (second :: rest)) = v ++ [','] := by
      have hsplit : v ++ behindFirst (second :: rest) = (v ++ [',']) ++ ' ' :: second.name := by
        simp [behindFirst]
      rw [hsplit]
      exact upTo_append (by simpa using hblank) (by simp)
    have hcomma : dropEnd ')' (v ++ [',']) = v ++ [','] := by
      simp [dropEnd]
    simp only [boundVariable?, hcut, hword, hcomma]
    simp

/-- There is no variable behind the value of the first argument before the line is cut again. -/
theorem dollar_not_mem_behindFirst {root : Text} {first : Argument} {rest : List Argument}
    (h : IsWellFormed ⟨root, first :: rest⟩) : '$' ∉ behindFirst rest := by
  rcases rest with _ | ⟨second, rest⟩
  · decide
  · obtain ⟨hsecond, -⟩ := h.arguments second (by simp)
    rw [behindFirst, List.mem_append]
    exact not_or.mpr ⟨by decide, not_mem_of_isName hsecond (by decide)⟩

/-- **The line is read**: the root object as it is written, and the parameter from the first
argument. -/
theorem ofLine_line {c : RootCall} (h : c.IsWellFormed) :
    (RootLine.ofLine c.line).name = c.root ∧
      (RootLine.ofLine c.line).parameter = c.parameterRead? := by
  obtain ⟨root, arguments⟩ := c
  have hroot : ∀ {d}, isNameChar d = false → d ∉ root := not_mem_of_isName h.root
  rcases arguments with _ | ⟨first, rest⟩
  · have hcolon : ':' ∉ root ++ " \x7b".toList := by
      simpa using hroot (d := ':') (by decide)
    have hname : upTo ' ' (root ++ " \x7b".toList) = root :=
      upTo_append (hroot (by decide)) (by simp)
    simp only [line, RootLine.ofLine, cutAt_eq_none_iff.mpr hcolon, hname, parameterRead?, and_self]
  · obtain ⟨hfirst, hvalue⟩ := h.arguments first List.mem_cons_self
    obtain ⟨tail, hline, hargument⟩ := exists_line_eq h
    have hhead : ':' ∉ root ++ '(' :: first.name := by
      simp [hroot (d := ':') (by decide), not_mem_of_isName hfirst (c := ':') (by decide)]
    have hname : trim (upTo '(' (root ++ '(' :: first.name)) = root := by
      rw [upTo_append (hroot (by decide)) (by simp), trim_eq_self (isTrimmed_of_isName h.root)]
    simp only [hline, RootLine.ofLine, cutAt_eq_some_iff.mpr ⟨rfl, hhead⟩, hname, hargument]
    refine ⟨trivial, ?_⟩
    obtain ⟨name, value⟩ := first
    cases value with
    | fixed literal =>
      apply boundVariable?_eq_none
      rw [List.mem_append, List.mem_cons]
      exact not_or.mpr ⟨not_or.mpr ⟨by decide, (ArgumentValue.not_mem_text hvalue).2 rfl⟩,
        dollar_not_mem_behindFirst h⟩
    | bound parameter => exact boundVariable?_bound hvalue

/-- The parameter that is read is the first variable iff there is no variable or only one argument.
-/
theorem parameterRead?_eq_iff (c : RootCall) :
    c.parameterRead? = c.parameters.head? ↔ c.parameters = [] ∨ c.arguments.length = 1 := by
  obtain ⟨root, arguments⟩ := c
  rcases arguments with _ | ⟨first, rest⟩
  · simp [parameterRead?, parameters]
  · rcases hfirst : first.value.parameter? with _ | v
    · -- Nothing is read, which is right unless a later argument has a variable.
      have hread : parameterRead? ⟨root, first :: rest⟩ = none := by simp [parameterRead?, hfirst]
      rw [hread, eq_comm, List.head?_eq_none_iff, iff_self_or]
      intro hlength
      obtain rfl := List.length_eq_zero_iff.mp (Nat.succ.inj hlength)
      simp [parameters, hfirst]
    · -- The first variable is read, and has a comma if an argument follows.
      have hhead : (parameters ⟨root, first :: rest⟩).head? = some v := by simp [parameters, hfirst]
      have hne : parameters ⟨root, first :: rest⟩ ≠ [] := by
        intro hnil
        rw [hnil] at hhead
        cases hhead
      rw [hhead, or_iff_right hne]
      simp [parameterRead?, hfirst]

end RootCall

namespace Query

/-- **The arguments and the shape**: the root object is read as it is written, and the parameter
from the first argument alone, with a comma if another one follows. So the shape is that of the
first variable iff there is no variable or only one argument. -/
theorem rootName_of_rootCall {depth : Nat} {document : Text} {q : Query} {c : RootCall}
    (hparse : parse depth document = .ok q) (hline : (trimmedLines document)[1]? = some c.line)
    (hc : c.IsWellFormed) :
    q.rootName = c.root ∧ q.shape = .ofParameter? c.parameterRead? ∧
      (q.shape = c.shape ↔ c.parameters = [] ∨ c.arguments.length = 1) := by
  obtain ⟨-, hroot, hshape, -⟩ := parse_eq_ok_iff.mp hparse
  obtain ⟨hname, hparameter⟩ := Reading.root_ofDocument depth (hasKeyword_of_parse hparse)
  obtain ⟨hread, hbound⟩ := RootCall.ofLine_line hc
  have hrootLine : Reading.rootLineOf (trimmedLines document) = RootLine.ofLine c.line := by
    rw [Reading.rootLineOf, hline]
  rw [hname, hrootLine, hread] at hroot
  rw [hparameter, hrootLine, hbound] at hshape
  refine ⟨hroot, hshape, ?_⟩
  rw [hshape, RootCall.shape, ← c.parameterRead?_eq_iff]
  constructor
  · intro heq
    have hparameters := congrArg LookupShape.parameter? heq
    rwa [LookupShape.parameter?_ofParameter?, LookupShape.parameter?_ofParameter?] at hparameters
  · intro heq
    rw [heq]

/-- A lookup of a device by its name, with a number behind the variable. -/
def limitedDeviceDocument : Text :=
  "query Device($name: String!) \x7b\n  InfraDevice(name__value: $name, first: 1) \x7b\n" ++
  "    edges \x7b\n      node \x7b\n        id\n      \x7d\n    \x7d\n  \x7d\n\x7d\n"

/-- The parameter of the lookup takes the comma before the number along. -/
theorem rootName_of_rootCall_limitedDeviceDocument :
    ∃ q, parse defaultWrapperDepth limitedDeviceDocument = .ok q ∧
      q.rootName = "InfraDevice".toList ∧ q.shape = .single "name," := by
  have reading : Reading.ofDocument defaultWrapperDepth limitedDeviceDocument =
      { operationName := some "device".toList
        rootName := "InfraDevice"
        parameter := some "name,".toList
        openBlocks := ["edges".toList]
        lead := []
        fields := [{ flatName := "edges_node_id" }]
        flatNames := .ofList ["edges_node_id".toList] } := by
    decide
  have accepted : parse defaultWrapperDepth limitedDeviceDocument = .ok
      { operationName := "device"
        rootName := "InfraDevice"
        shape := .single "name,"
        fields := [{ flatName := "edges_node_id" }]
        compounds := .empty } := by rw [parse, reading]; rfl
  obtain ⟨hroot, hshape, -⟩ := rootName_of_rootCall accepted
    (c := ⟨"InfraDevice", [⟨"name__value", .bound "name"⟩, ⟨"first", .fixed "1"⟩]⟩)
    (by decide) ⟨by decide, by decide⟩
  exact ⟨_, accepted, hroot, hshape⟩

/-- A lookup of a device by its name, with a number before the variable. -/
def firstDeviceDocument : Text :=
  "query Device($name: String!) \x7b\n  InfraDevice(first: 1, name__value: $name) \x7b\n" ++
  "    edges \x7b\n      node \x7b\n        id\n      \x7d\n    \x7d\n  \x7d\n\x7d\n"

/-- A variable of the second argument is not seen: the lookup is that of a collection, and not of
one device by its name. -/
theorem collection_of_laterVariable :
    ∃ c : RootCall, c.IsWellFormed ∧
      (trimmedLines firstDeviceDocument)[1]? = some c.line ∧ c.shape = .single "name" ∧
      ∃ q, parse defaultWrapperDepth firstDeviceDocument = .ok q ∧ q.shape = .collection := by
  refine ⟨⟨"InfraDevice", [⟨"first", .fixed "1"⟩, ⟨"name__value", .bound "name"⟩]⟩,
    ⟨by decide, by decide⟩, by decide, rfl, ?_⟩
  have reading : Reading.ofDocument defaultWrapperDepth firstDeviceDocument =
      { operationName := some "device".toList
        rootName := "InfraDevice"
        openBlocks := ["edges".toList]
        lead := []
        fields := [{ flatName := "edges_node_id" }]
        flatNames := .ofList ["edges_node_id".toList] } := by
    decide
  have accepted : parse defaultWrapperDepth firstDeviceDocument = .ok
      { operationName := "device"
        rootName := "InfraDevice"
        shape := .collection
        fields := [{ flatName := "edges_node_id" }]
        compounds := .empty } := by rw [parse, reading]; rfl
  exact ⟨_, accepted, rfl⟩

end Query

end DataSourceGen
