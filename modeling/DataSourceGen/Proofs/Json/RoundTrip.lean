import Mathlib.Tactic.SplitIfs
import DataSourceGen.Json.Reader

/-!
# Documents of JSON are read back

A string is read back character by character (`run?_escape`). The lines of a value spell its tokens,
however deep they are indented (`spells_lines`), and from its tokens the value is put together
inside of whatever is open (`run?_tokens`).

**Theorem** (`decode?_pretty`): the document of a value is read as this value.
-/

namespace DataSourceGen

namespace Json

/-! ### Characters of a string -/

/-- Reads some characters. -/
def Lexer.run? (s : Lexer) (t : Text) : Option Lexer :=
  t.foldlM Lexer.next? s

theorem Lexer.run?_append (s : Lexer) (t u : Text) :
    s.run? (t ++ u) = (s.run? t).bind fun next => next.run? u :=
  List.foldlM_append

theorem Lexer.run?_cons (s : Lexer) (c : Char) (t : Text) :
    s.run? (c :: t) = (s.next? c).bind fun next => next.run? t :=
  List.foldlM_cons

/-- A letter behind a backslash is read as what it stands for. -/
theorem run?_backslash {letter c : Char} (hletter : letter ≠ 'u') (h : unescape? letter = some c)
    (t : Text) (tokens : List Token) :
    Lexer.run? ⟨.inside t, tokens⟩ ['\\', letter] = some ⟨.inside (t ++ [c]), tokens⟩ := by
  have hnext : Lexer.next? ⟨.escaped t, tokens⟩ letter = some ⟨.inside (t ++ [c]), tokens⟩ := by
    simp [Lexer.next?, hletter, h]
  rw [Lexer.run?_cons]
  exact (Lexer.run?_cons _ _ _).trans (by rw [hnext]; rfl)

/-- The digits of a number below 16 have its value. -/
theorem hexValue?_hexDigit : ∀ n < 16, hexValue? (hexDigit n) = some n := by
  decide

/-- A control character is read from the two digits of its code unit. -/
theorem run?_codeUnit {c : Char} (h : c.toNat < 32) (t : Text) (tokens : List Token) :
    Lexer.run? ⟨.inside t, tokens⟩
        ("\\u00" ++ [hexDigit (c.toNat / 16), hexDigit (c.toNat % 16)]) =
      some ⟨.inside (t ++ [c]), tokens⟩ := by
  have hopen : Lexer.run? ⟨.inside t, tokens⟩ "\\u00" = some ⟨.digits t none 0 1, tokens⟩ := rfl
  have hhigh : Lexer.next? ⟨.digits t none 0 1, tokens⟩ (hexDigit (c.toNat / 16)) =
      some ⟨.digits t none (c.toNat / 16) 0, tokens⟩ := by
    simp [Lexer.next?, hexValue?_hexDigit (c.toNat / 16) (by omega)]
  have hunit : Mode.unit? t none c.toNat = some (.inside (t ++ [c])) := by
    have hsingle : isHigh c.toNat = false ∧ isLow c.toNat = false := by
      simp only [isHigh, isLow, Bool.and_eq_false_iff, decide_eq_false_iff_not]
      omega
    simp [Mode.unit?, hsingle.1, hsingle.2]
  have hlow : Lexer.next? ⟨.digits t none (c.toNat / 16) 0, tokens⟩ (hexDigit (c.toNat % 16)) =
      some ⟨.inside (t ++ [c]), tokens⟩ := by
    have hvalue : 16 * (c.toNat / 16) + c.toNat % 16 = c.toNat := Nat.div_add_mod _ _
    simp [Lexer.next?, hexValue?_hexDigit (c.toNat % 16) (by omega), hvalue, hunit]
  rw [Lexer.run?_append, hopen, Option.bind_some, Lexer.run?_cons, hhigh, Option.bind_some,
    Lexer.run?_cons, hlow]
  rfl

/-- **The form of a character** inside a string is read as the character. -/
theorem run?_escape (t : Text) (tokens : List Token) (c : Char) :
    Lexer.run? ⟨.inside t, tokens⟩ (escape c) = some ⟨.inside (t ++ [c]), tokens⟩ := by
  unfold escape
  split_ifs with hquote hbackslash hback htab hline hpage hreturn hcontrol
  · exact run?_backslash (by decide) (by rw [beq_iff_eq.mp hquote]; rfl) t tokens
  · exact run?_backslash (by decide) (by rw [beq_iff_eq.mp hbackslash]; rfl) t tokens
  · exact run?_backslash (by decide) (by rw [beq_iff_eq.mp hback]; rfl) t tokens
  · exact run?_backslash (by decide) (by rw [beq_iff_eq.mp htab]; rfl) t tokens
  · exact run?_backslash (by decide) (by rw [beq_iff_eq.mp hline]; rfl) t tokens
  · exact run?_backslash (by decide) (by rw [beq_iff_eq.mp hpage]; rfl) t tokens
  · exact run?_backslash (by decide) (by rw [beq_iff_eq.mp hreturn]; rfl) t tokens
  · exact run?_codeUnit hcontrol t tokens
  · have hnext : Lexer.next? ⟨.inside t, tokens⟩ c = some ⟨.inside (t ++ [c]), tokens⟩ := by
      simp only [Lexer.next?, hquote, hbackslash, hcontrol, if_false, Bool.false_eq_true]
    rw [Lexer.run?_cons, hnext]
    rfl

theorem run?_flatMap_escape (tokens : List Token) :
    (u : Text) → ∀ t, Lexer.run? ⟨.inside t, tokens⟩ (u.flatMap escape) =
      some ⟨.inside (t ++ u), tokens⟩
  | [], t => by rw [List.append_nil]; rfl
  | c :: u, t => by
      rw [List.flatMap_cons, Lexer.run?_append, run?_escape, Option.bind_some,
        run?_flatMap_escape tokens u, List.append_assoc]
      rfl

/-! ### Texts that spell tokens -/

/-- Whether a text is read as some tokens, behind whatever tokens. -/
def Spells (t : Text) (tokens : List Token) : Prop :=
  ∀ before, Lexer.run? ⟨.between, before⟩ t = some ⟨.between, before ++ tokens⟩

theorem spells_nil : Spells [] [] :=
  fun before => by rw [List.append_nil]; rfl

theorem Spells.append {t u : Text} {first second : List Token} (h : Spells t first)
    (h' : Spells u second) : Spells (t ++ u) (first ++ second) := by
  intro before
  rw [Lexer.run?_append, h, Option.bind_some, h', List.append_assoc]

/-- Layout spells nothing. -/
theorem spells_layout {t : Text} (h : t.all isLayout = true) : Spells t [] := by
  induction t with
  | nil => exact spells_nil
  | cons c t ih =>
    intro before
    rw [List.all_cons, Bool.and_eq_true] at h
    have hnext : Lexer.next? ⟨.between, before⟩ c = some ⟨.between, before⟩ := if_pos h.1
    rw [Lexer.run?_cons, hnext, Option.bind_some, ih h.2]

/-- A mark spells its token. -/
theorem spells_punctuation {c : Char} {token : Token} (hlayout : isLayout c = false)
    (hquote : (c == '"') = false) (h : punctuation? c = some token) : Spells [c] [token] := by
  intro before
  have hnext : Lexer.next? ⟨.between, before⟩ c = some ⟨.between, before ++ [token]⟩ := by
    simp [Lexer.next?, hlayout, hquote, h]
  rw [Lexer.run?_cons, hnext]
  rfl

/-- **A string** spells itself. -/
theorem spells_quote (t : Text) : Spells (quote t) [.string t] := by
  intro before
  have hopen : Lexer.next? ⟨.between, before⟩ '"' = some ⟨.inside [], before⟩ := rfl
  have hclose : Lexer.next? ⟨.inside t, before⟩ '"' = some ⟨.between, before ++ [.string t]⟩ := rfl
  rw [quote, List.cons_append, Lexer.run?_cons, hopen, Option.bind_some, Lexer.run?_append,
    run?_flatMap_escape, Option.bind_some, List.nil_append, Lexer.run?_cons, hclose]
  rfl

/-! ### Lines that spell tokens -/

/-- Whether some lines, each by itself, spell some tokens. -/
inductive SpellsLines : List Text → List Token → Prop
  | nil : SpellsLines [] []
  | cons {line : Text} {ls : List Text} {first rest : List Token} (spells : Spells line first)
      (below : SpellsLines ls rest) : SpellsLines (line :: ls) (first ++ rest)

theorem SpellsLines.single {line : Text} {tokens : List Token} (h : Spells line tokens) :
    SpellsLines [line] tokens := by
  have hlines := SpellsLines.cons h .nil
  rwa [List.append_nil] at hlines

theorem SpellsLines.append {ls ms : List Text} {first second : List Token}
    (h : SpellsLines ls first) (h' : SpellsLines ms second) :
    SpellsLines (ls ++ ms) (first ++ second) := by
  induction h with
  | nil => exact h'
  | cons spells below ih =>
    rw [List.append_assoc]
    exact .cons spells ih

/-- Lines spell the same when they are deeper. -/
theorem SpellsLines.deeper {ls : List Text} {tokens : List Token} (h : SpellsLines ls tokens) :
    SpellsLines (deeper ls) tokens := by
  induction h with
  | nil => exact .nil
  | @cons line ls first rest spells below ih =>
    have hindent : Spells [' ', ' '] [] := spells_layout rfl
    exact .cons (hindent.append spells) ih

theorem SpellsLines.withComma {ls : List Text} {tokens : List Token} (h : SpellsLines ls tokens)
    (hne : ls ≠ []) : SpellsLines (withComma ls) (tokens ++ [.comma]) := by
  induction h with
  | nil => exact absurd rfl hne
  | @cons line ls first rest spells below ih =>
    cases below with
    | nil =>
      rw [List.append_nil]
      exact .single (spells.append (spells_punctuation rfl rfl rfl))
    | cons next below =>
      rw [List.append_assoc]
      exact .cons spells (ih (List.cons_ne_nil _ _))

theorem SpellsLines.after {start : Text} {ls : List Text} {first tokens : List Token}
    (hstart : Spells start first) (h : SpellsLines ls tokens) (hne : ls ≠ []) :
    SpellsLines (after start ls) (first ++ tokens) := by
  cases h with
  | nil => exact absurd rfl hne
  | cons spells below =>
    rw [← List.append_assoc]
    exact .cons (hstart.append spells) below

/-- Lines one below the other spell what they spell one by one. -/
theorem SpellsLines.spells_joinWith {ls : List Text} {tokens : List Token}
    (h : SpellsLines ls tokens) : Spells (Text.joinWith ['\n'] ls) tokens := by
  induction h with
  | nil => exact spells_nil
  | @cons line ls first rest spells below ih =>
    cases below with
    | nil =>
      rw [List.append_nil]
      exact spells
    | cons next below =>
      have hbreak : Spells ['\n'] [] := spells_layout rfl
      have hline := spells.append (hbreak.append ih)
      rwa [List.nil_append, ← List.append_assoc] at hline

/-! ### The tokens of a value -/

mutual

/-- The tokens of a value. -/
def tokens : Json → List Token
  | .string t => [.string t]
  | .array items => .openArray :: itemTokens items ++ [.closeArray]
  | .object members => .openObject :: memberTokens members ++ [.closeObject]

/-- The tokens of the items of an array. -/
def itemTokens : List Json → List Token
  | [] => []
  | item :: r => (if r.isEmpty then item.tokens else item.tokens ++ [.comma]) ++ itemTokens r

/-- The tokens of the members of an object. -/
def memberTokens : List (Text × Json) → List Token
  | [] => []
  | (key, value) :: r =>
    (if r.isEmpty then .string key :: .colon :: value.tokens
      else .string key :: .colon :: value.tokens ++ [.comma]) ++ memberTokens r

end

theorem lines_ne_nil (j : Json) : j.lines ≠ [] := by
  cases j with
  | string t =>
    rw [lines]
    exact List.cons_ne_nil _ _
  | array items =>
    rw [lines]
    split
    · exact List.cons_ne_nil _ _
    · exact List.cons_ne_nil _ _
  | object members =>
    rw [lines]
    split
    · exact List.cons_ne_nil _ _
    · exact List.cons_ne_nil _ _

theorem after_ne_nil {start : Text} {ls : List Text} (h : ls ≠ []) : after start ls ≠ [] := by
  rcases ls with _ | ⟨line, ls⟩
  · exact absurd rfl h
  · exact List.cons_ne_nil _ _

/-- Lines between brackets spell the brackets around what they spell. -/
theorem SpellsLines.enclose {opening closing : Char} {first last : Token} {ls : List Text}
    {tokens : List Token} (hopening : Spells [opening] [first]) (h : SpellsLines ls tokens)
    (hclosing : Spells [closing] [last]) :
    SpellsLines ([opening] :: Json.deeper ls ++ [[closing]]) (first :: tokens ++ [last]) :=
  .append (.cons hopening h.deeper) (.single hclosing)

mutual

/-- **The lines of a value** spell its tokens. -/
theorem spells_lines : (j : Json) → SpellsLines j.lines j.tokens
  | .string t => by
      rw [lines, tokens]
      exact .single (spells_quote t)
  | .array items => by
      have hopening : Spells ['['] [.openArray] := spells_punctuation rfl rfl rfl
      have hclosing : Spells [']'] [.closeArray] := spells_punctuation rfl rfl rfl
      have hitems := spells_itemLines items
      rw [lines, tokens]
      rcases items with _ | ⟨item, items⟩
      · exact .single (hopening.append hclosing)
      · exact hitems.enclose hopening hclosing
  | .object members => by
      have hopening : Spells ['\x7b'] [.openObject] := spells_punctuation rfl rfl rfl
      have hclosing : Spells ['\x7d'] [.closeObject] := spells_punctuation rfl rfl rfl
      have hmembers := spells_memberLines members
      rw [lines, tokens]
      rcases members with _ | ⟨member, members⟩
      · exact .single (hopening.append hclosing)
      · exact hmembers.enclose hopening hclosing

theorem spells_itemLines : (items : List Json) → SpellsLines (itemLines items) (itemTokens items)
  | [] => .nil
  | item :: items => by
      have hitem := spells_lines item
      rw [itemLines, itemTokens]
      refine .append ?_ (spells_itemLines items)
      split
      · exact hitem
      · exact hitem.withComma item.lines_ne_nil

theorem spells_memberLines :
    (members : List (Text × Json)) → SpellsLines (memberLines members) (memberTokens members)
  | [] => .nil
  | (key, value) :: members => by
      have hcolon : Spells [':'] [.colon] := spells_punctuation rfl rfl rfl
      have hblank : Spells [' '] [] := spells_layout rfl
      have hkey : Spells (quote key ++ ": ") [.string key, .colon] :=
        (spells_quote key).append (hcolon.append hblank)
      have hmember := SpellsLines.after hkey (spells_lines value) value.lines_ne_nil
      rw [memberLines, memberTokens]
      refine .append ?_ (spells_memberLines members)
      split
      · exact hmember
      · exact hmember.withComma (after_ne_nil value.lines_ne_nil)

end

theorem lex_pretty (j : Json) : lex j.pretty = some j.tokens := by
  have hrun := (spells_lines j).spells_joinWith []
  unfold lex pretty
  rw [Lexer.run?, List.nil_append] at hrun
  rw [hrun]

/-! ### Values from tokens -/

/-- Reads some tokens. -/
def Parser.run? (p : Parser) (ts : List Token) : Option Parser :=
  ts.foldlM Parser.next? p

theorem Parser.run?_append (p : Parser) (ts us : List Token) :
    p.run? (ts ++ us) = (p.run? ts).bind fun next => next.run? us :=
  List.foldlM_append

theorem Parser.run?_cons (p : Parser) (token : Token) (ts : List Token) :
    p.run? (token :: ts) = (p.next? token).bind fun next => next.run? ts :=
  List.foldlM_cons

/-- The first item of an array begins like any other. -/
theorem run?_firstItem (j : Json) (stack : List Frame) (ts : List Token) :
    Parser.run? (.firstItem stack) (j.tokens ++ ts) =
      Parser.run? (.value (.item [] :: stack)) (j.tokens ++ ts) := by
  cases j with
  | string t =>
    rw [tokens]
    rfl
  | array items =>
    rw [tokens]
    rfl
  | object members =>
    rw [tokens]
    rfl

/-- The tokens of the first item of an array, and what stands behind them. -/
theorem exists_itemTokens_eq (item : Json) (items : List Json) :
    ∃ ts, itemTokens (item :: items) = item.tokens ++ ts := by
  rw [itemTokens]
  split
  · exact ⟨_, rfl⟩
  · exact ⟨_, List.append_assoc _ _ _⟩

/-- The first key of an object begins like any other. -/
theorem run?_firstKey (member : Text × Json) (members : List (Text × Json)) (stack : List Frame)
    (ts : List Token) :
    Parser.run? (.firstKey stack) (memberTokens (member :: members) ++ ts) =
      Parser.run? (.nextKey [] stack) (memberTokens (member :: members) ++ ts) := by
  obtain ⟨key, value⟩ := member
  rw [memberTokens]
  split
  · rfl
  · rfl

mutual

/-- **The tokens of a value** are read as the value, inside of whatever is open. -/
theorem run?_tokens : (j : Json) → ∀ stack,
    Parser.run? (.value stack) j.tokens = some (.after j stack)
  | .string t, stack => by
      rw [tokens]
      rfl
  | .array items, stack => by
      have hitems := run?_itemTokens items
      have hopen : Parser.next? (.value stack) .openArray = some (.firstItem stack) := rfl
      rw [tokens, List.cons_append, Parser.run?_cons, hopen, Option.bind_some]
      rcases items with _ | ⟨item, items⟩
      · rw [itemTokens]
        rfl
      · obtain ⟨ts, hts⟩ := exists_itemTokens_eq item items
        rw [hts, List.append_assoc, run?_firstItem, ← List.append_assoc, ← hts,
          Parser.run?_append, hitems (List.cons_ne_nil _ _), Option.bind_some]
        rfl
  | .object members, stack => by
      have hmembers := run?_memberTokens members
      have hopen : Parser.next? (.value stack) .openObject = some (.firstKey stack) := rfl
      rw [tokens, List.cons_append, Parser.run?_cons, hopen, Option.bind_some]
      rcases members with _ | ⟨member, members⟩
      · rw [memberTokens]
        rfl
      · rw [run?_firstKey, Parser.run?_append, hmembers (List.cons_ne_nil _ _), Option.bind_some]
        rfl

/-- The items of an array are read behind those before. -/
theorem run?_itemTokens : (items : List Json) → items ≠ [] → ∀ before stack,
    Parser.run? (.value (.item before :: stack)) (itemTokens items) =
      some (.afterItem (before ++ items) stack)
  | [], hne, _, _ => absurd rfl hne
  | item :: items, _, before, stack => by
      have hitem := run?_tokens item (.item before :: stack)
      have hitems := run?_itemTokens items
      rcases items with _ | ⟨next, items⟩
      · rw [itemTokens, itemTokens, List.append_nil]
        exact hitem
      · have hcomma : Parser.run? (.after item (.item before :: stack)) [.comma] =
            some (.value (.item (before ++ [item]) :: stack)) := rfl
        have hown : Parser.run? (.value (.item before :: stack)) (item.tokens ++ [.comma]) =
            some (.value (.item (before ++ [item]) :: stack)) := by
          rw [Parser.run?_append, hitem, Option.bind_some, hcomma]
        have hmore : ¬ (next :: items).isEmpty = true := Bool.false_ne_true
        rw [itemTokens, if_neg hmore, Parser.run?_append, hown, Option.bind_some,
          hitems (List.cons_ne_nil _ _), List.append_assoc]
        rfl

/-- The members of an object are read behind those before. -/
theorem run?_memberTokens : (members : List (Text × Json)) → members ≠ [] → ∀ before stack,
    Parser.run? (.nextKey before stack) (memberTokens members) =
      some (.afterMember (before ++ members) stack)
  | [], hne, _, _ => absurd rfl hne
  | (key, value) :: members, _, before, stack => by
      have hkey : ∀ ts, Parser.run? (.nextKey before stack) (.string key :: .colon :: ts) =
          Parser.run? (.value (.member before key :: stack)) ts := fun _ => rfl
      have hvalue := run?_tokens value (.member before key :: stack)
      have hmembers := run?_memberTokens members
      rcases members with _ | ⟨next, members⟩
      · rw [memberTokens, memberTokens, List.append_nil]
        exact (hkey _).trans hvalue
      · have hcomma : Parser.run? (.after value (.member before key :: stack)) [.comma] =
            some (.nextKey (before ++ [(key, value)]) stack) := rfl
        have hown : Parser.run? (.nextKey before stack)
            (.string key :: .colon :: value.tokens ++ [.comma]) =
            some (.nextKey (before ++ [(key, value)]) stack) := by
          rw [List.cons_append, List.cons_append, hkey, Parser.run?_append, hvalue,
            Option.bind_some, hcomma]
        have hmore : ¬ (next :: members).isEmpty = true := Bool.false_ne_true
        rw [memberTokens, if_neg hmore, Parser.run?_append, hown, Option.bind_some,
          hmembers (List.cons_ne_nil _ _), List.append_assoc]
        rfl

end

/-- **The document of a value** is read as this value. -/
theorem decode?_pretty (j : Json) : decode? j.pretty = some j := by
  have hrun := run?_tokens j []
  unfold decode? ofTokens?
  rw [lex_pretty, Option.bind_some]
  rw [Parser.run?] at hrun
  rw [hrun]
  rfl

end Json

end DataSourceGen
