import Mathlib.Data.Finset.Card
import DataSourceGen.NameSet.Operation
import DataSourceGen.Proofs.NameSet
import DataSourceGen.Proofs.Text.Encoding

/-!
# A set of names answers for its history

The history of a set is the list of the names that were inserted, in order and with repetitions. An
operation leaves the set of a history as the set of the history that goes on with what it inserts
(`perform_ofList`), and so does a run (`after_ofList`). So what an operation gives back is to be
read off the history alone: `IsResult` says what it is, without a set, and `isResult_perform` that
it is given back.

Members keep their places (`prefix_after`). So a word that some member extends is extended from then
on, and the same member extends the beginnings of the word. The comparison may be made on bytes,
since the bytes of a text begin those of another only if the text begins the other
(`hasExtension_iff_encode`).

**Theorem** (`transcript_answers`): this is how every run goes, from the set of any list of names.
-/

namespace DataSourceGen

namespace NameSet

/-! ### Histories -/

/-- The name that an operation inserts, if it is an insertion. -/
def Operation.insertedName? : Operation → Option Text
  | .insert name => some name
  | _ => none

/-- The names that some operations insert, in order and with repetitions. -/
def inserted (operations : List Operation) : List Text :=
  operations.filterMap Operation.insertedName?

/-- Whether the first name is inserted before the second one is for the first time. -/
def Precedes (names : List Text) (first second : Text) : Prop :=
  ∃ earlier later, names = earlier ++ first :: later ∧ second ∉ earlier

/-- Whether a list has each inserted name once, in the order of their first insertions. -/
structure ListsOnce (names listed : List Text) : Prop where
  mem_iff : ∀ n, n ∈ listed ↔ n ∈ names
  nodup : listed.Nodup
  inOrder : listed.Pairwise (Precedes names)

/-- What an operation gives back when `names` have been inserted before it. -/
def IsResult (names : List Text) : (operation : Operation) → operation.Result → Prop
  | .insert name => fun (isNew : Bool) => (isNew = true ↔ name ∉ names)
  | .contains name => fun (holds : Bool) => (holds = true ↔ name ∈ names)
  | .hasExtension word => fun (holds : Bool) =>
    (holds = true ↔ ∃ n ∈ names, word <+: n ∧ word ≠ n)
  | .members => fun listed => ListsOnce names listed
  | .size => fun (count : Nat) => count = names.toFinset.card
  | .isEmpty => fun (holds : Bool) => (holds = true ↔ names = [])

/-! ### The members of a set and its history -/

/-- What comes first still does when the history goes on. -/
theorem Precedes.append {names : List Text} {first second : Text} (h : Precedes names first second)
    (more : List Text) : Precedes (names ++ more) first second := by
  obtain ⟨earlier, later, rfl, hsecond⟩ := h
  exact ⟨earlier, later ++ more, by simp, hsecond⟩

/-- Every inserted name comes before the names that are still new. -/
theorem precedes_of_mem_of_not_mem {names : List Text} {first second : Text}
    (hfirst : first ∈ names) (hsecond : second ∉ names) : Precedes names first second := by
  obtain ⟨earlier, later, rfl⟩ := List.append_of_mem hfirst
  exact ⟨earlier, later, rfl, fun h => hsecond (List.mem_append_left _ h)⟩

theorem ofList_concat (names : List Text) (name : Text) :
    ofList (names ++ [name]) = (ofList names).insert name := by
  simp [ofList]

/-- A set lists its history. -/
theorem listsOnce_ofList (names : List Text) : ListsOnce names (ofList names).toList := by
  refine ⟨fun n => mem_ofList, (ofList names).nodup, ?_⟩
  induction names using List.reverseRecOn with
  | nil => exact List.Pairwise.nil
  | append_singleton names name ih =>
    have hold : (ofList names).toList.Pairwise (Precedes (names ++ [name])) :=
      ih.imp fun h => h.append [name]
    rw [ofList_concat, toList_insert]
    split
    · exact hold
    · next hnew =>
      rw [mem_ofList] at hnew
      refine List.pairwise_append.mpr ⟨hold, List.pairwise_singleton _ _, ?_⟩
      intro first hfirst second hsecond
      obtain rfl := List.mem_singleton.mp hsecond
      exact (precedes_of_mem_of_not_mem (mem_ofList.mp hfirst) hnew).append [second]

/-- The members are as many as there are different names in the history. -/
theorem ListsOnce.length_eq {names listed : List Text} (h : ListsOnce names listed) :
    listed.length = names.toFinset.card := by
  have hsame : names.toFinset = listed.toFinset := by
    ext n
    rw [List.mem_toFinset, List.mem_toFinset, h.mem_iff]
  rw [hsame, List.toFinset_card_of_nodup h.nodup]

/-! ### Bytes -/

/-- **The comparison on bytes**: a word is extended iff some member has more bytes, and begins with
those of the word. -/
theorem hasExtension_iff_encode {s : NameSet} {word : Text} :
    s.hasExtension word = true ↔ ∃ n ∈ s.toList,
      (Text.encode word).length < (Text.encode n).length ∧ Text.encode word <+: Text.encode n := by
  simp only [hasExtension_iff, Text.prefix_and_ne_iff_encode]

/-! ### Operations and runs -/

theorem inserted_append (operations more : List Operation) :
    inserted (operations ++ more) = inserted operations ++ inserted more :=
  List.filterMap_append

/-- **One operation** leaves a set of its history. -/
theorem perform_ofList (names : List Text) (operation : Operation) :
    ((ofList names).perform operation).1 = ofList (names ++ inserted [operation]) := by
  cases operation with
  | insert name => exact (ofList_concat names name).symm
  | contains | hasExtension | members | size | isEmpty =>
    exact congrArg ofList (List.append_nil names).symm

/-- **One operation** gives back what the history says. -/
theorem isResult_perform (names : List Text) (operation : Operation) :
    IsResult names operation ((ofList names).perform operation).2 := by
  have hlists := listsOnce_ofList names
  cases operation with
  | insert name => simp [IsResult, perform, insertNew, contains]
  | contains name => simp [IsResult, perform]
  | hasExtension word => simp [IsResult, perform, hasExtension_iff]
  | members => exact hlists
  | size => exact hlists.length_eq
  | isEmpty => simp [IsResult, perform, isEmpty, List.eq_nil_iff_forall_not_mem]

/-- **A run** leaves a set of its history. -/
theorem after_ofList (names : List Text) (operations : List Operation) :
    (ofList names).after operations = ofList (names ++ inserted operations) := by
  induction operations generalizing names with
  | nil => simp [after, inserted]
  | cons operation rest ih =>
    rw [after, perform_ofList, ih, List.append_assoc, ← inserted_append, List.singleton_append]

theorem after_append (s : NameSet) (operations more : List Operation) :
    s.after (operations ++ more) = (s.after operations).after more := by
  induction operations generalizing s with
  | nil => rfl
  | cons operation rest ih => exact ih (s.perform operation).1

/-- Members stay, in their places, whatever is done with the set. -/
theorem prefix_perform (s : NameSet) (operation : Operation) :
    s.toList <+: (s.perform operation).1.toList := by
  cases operation with
  | insert name =>
    change s.toList <+: (s.insert name).toList
    rw [toList_insert]
    split
    · exact List.prefix_refl s.toList
    · exact List.prefix_append s.toList [name]
  | contains | hasExtension | members | size | isEmpty => exact List.prefix_refl s.toList

theorem prefix_after (s : NameSet) (operations : List Operation) :
    s.toList <+: (s.after operations).toList := by
  induction operations generalizing s with
  | nil => exact List.prefix_refl s.toList
  | cons operation rest ih => exact (prefix_perform s operation).trans (ih _)

theorem map_operation_transcript (s : NameSet) (operations : List Operation) :
    (s.transcript operations).map Performed.operation = operations := by
  induction operations generalizing s with
  | nil => rfl
  | cons operation rest ih => simp [transcript, ih]

/-- A result is that of its operation on the set after the operations before it. -/
theorem result_of_transcript_eq {s : NameSet} {operations : List Operation}
    {before later : List Performed} {step : Performed}
    (h : s.transcript operations = before ++ step :: later) :
    step.result = ((s.after (before.map Performed.operation)).perform step.operation).2 := by
  induction before generalizing s operations with
  | nil =>
    cases operations with
    | nil => simp [transcript] at h
    | cons operation rest =>
      obtain ⟨rfl, -⟩ := List.cons.inj h
      rfl
  | cons first before ih =>
    cases operations with
    | nil => simp [transcript] at h
    | cons operation rest =>
      obtain ⟨rfl, hrest⟩ := List.cons.inj h
      exact ih hrest

/-- **Runs**: from the set of a list of names, each operation of a run is performed, and gives back
what the names say that were inserted before it. However the run goes on, the members that there are
stay first. A comparison of bytes tells whether a word is extended; if it is, so are the beginnings
of the word, and the word is still extended however the run goes on. -/
theorem transcript_answers (initial : List Text) (operations : List Operation) :
    let steps := (ofList initial).transcript operations
    let reached := (ofList initial).after operations
    steps.map Performed.operation = operations ∧
      (∀ before step later, steps = before ++ step :: later →
        IsResult (initial ++ inserted (before.map Performed.operation)) step.operation
          step.result) ∧
      (∀ more, reached.toList <+: ((ofList initial).after (operations ++ more)).toList) ∧
      ∀ word,
        (reached.hasExtension word = true ↔ ∃ n ∈ reached.toList,
          (Text.encode word).length < (Text.encode n).length ∧
            Text.encode word <+: Text.encode n) ∧
        (reached.hasExtension word = true →
          (∀ beginning, beginning <+: word → reached.hasExtension beginning = true) ∧
          ∀ more, ((ofList initial).after (operations ++ more)).hasExtension word = true) := by
  intro steps reached
  have hgrows : ∀ more, reached.toList <+:
      ((ofList initial).after (operations ++ more)).toList := by
    intro more
    rw [after_append]
    exact prefix_after reached more
  refine ⟨map_operation_transcript _ operations, ?_, hgrows, ?_⟩
  · intro before step later hstep
    rw [result_of_transcript_eq hstep, after_ofList]
    exact isResult_perform _ step.operation
  · intro word
    refine ⟨hasExtension_iff_encode, fun hword => ⟨?_, fun more => ?_⟩⟩
    · intro beginning hbegins
      exact hasExtension_of_prefix hbegins hword
    · exact hasExtension_mono (hgrows more).subset hword

/-- `é_` has three bytes, and begins `é_a` from the start. The second insertion of `é_a` is not
listed. -/
theorem transcript_answers_accentedNames :
    let set := ofList ["é_a".toList]
    let operations : List Operation :=
      [.hasExtension "é_", .insert "primary_address", .insert "é_a", .members, .size]
    set.transcript operations =
        [⟨.hasExtension "é_", true⟩, ⟨.insert "primary_address", true⟩, ⟨.insert "é_a", false⟩,
          ⟨.members, ["é_a".toList, "primary_address".toList]⟩, ⟨.size, (2 : Nat)⟩] ∧
      ListsOnce ["é_a".toList, "primary_address".toList, "é_a".toList]
        ["é_a".toList, "primary_address".toList] ∧
      (∃ n ∈ (set.after operations).toList,
        3 < (Text.encode n).length ∧ Text.encode "é_" <+: Text.encode n) ∧
      (set.after operations).hasExtension "é" = true ∧
      ∀ more, (set.after (operations ++ more)).hasExtension "é_" = true := by
  intro set operations
  obtain ⟨-, hresults, -, hwords⟩ := transcript_answers ["é_a".toList] operations
  obtain ⟨hbytes, hgoesOn⟩ := hwords "é_"
  have hword : (set.after operations).hasExtension "é_" = true := by decide
  obtain ⟨hbeginnings, hlater⟩ := hgoesOn hword
  refine ⟨rfl, ?_, hbytes.mp hword, hbeginnings "é" (by decide), hlater⟩
  exact hresults [⟨.hasExtension "é_", true⟩, ⟨.insert "primary_address", true⟩,
    ⟨.insert "é_a", false⟩] ⟨.members, ["é_a".toList, "primary_address".toList]⟩
    [⟨.size, (2 : Nat)⟩] rfl

end NameSet

end DataSourceGen
