import TemplateTags.Command.Response
/-!
# Printed texts

What a command prints, spelled out. The words of the messages stand here as they
are read, and JSON is laid out by a rule of its own: what a value holds stands two
blanks further in. The program puts the same texts together from pieces
(`Failure.message`, `EditError.message_eq`, `Json.render_eq_layout`).
-/

namespace TemplateTags

/-! ## Texts between double quotes -/

/-- A text between double quotes, with escapes for the characters that have one. -/
def inQuotes (escape? : Char → Option Text) (text : Text) : Text :=
  "\"".toList ++ text.flatMap (fun c => (escape? c).getD [c]) ++ "\"".toList

/-- The escapes of a string in JSON: a letter for some, and the code point in four
digits for the other control characters. -/
def jsonEscape? (c : Char) : Option Text :=
  let letters := [('"', "\\\""), ('\\', "\\\\"), ('\x08', "\\b"), ('\x0c', "\\f"),
    ('\n', "\\n"), ('\r', "\\r"), ('\t', "\\t")]
  match letters.lookup c with
  | some escape => some escape.toList
  | none =>
    if c.toNat < 32 then
      some ("\\u00".toList ++ [Nat.digitChar (c.toNat / 16),
        Nat.digitChar (c.toNat % 16)])
    else none

/-- The escapes of a symbol in a message: a letter for some, and the code point
between braces for the other characters that show no shape of their own. -/
def symbolEscape? (c : Char) : Option Text :=
  let letters := [('"', "\\\""), ('\\', "\\\\"), ('\x00', "\\0"),
    ('\n', "\\n"), ('\r', "\\r"), ('\t', "\\t")]
  match letters.lookup c with
  | some escape => some escape.toList
  | none =>
    if isHidden c then
      some ("\\u\x7b".toList ++ Nat.toDigits 16 c.toNat ++ "\x7d".toList)
    else none

theorem Json.hex4_eq {n : Nat} (h : n < 32) :
    hex4 n = ['0', '0', Nat.digitChar (n / 16), Nat.digitChar (n % 16)] := by
  have hall : ∀ n < 32, hex4 n =
      ['0', '0', Nat.digitChar (n / 16), Nat.digitChar (n % 16)] := by
    decide
  exact hall n h

theorem Json.escapeChar_eq (c : Char) : escapeChar c = (jsonEscape? c).getD [c] := by
  unfold escapeChar
  split
  case h_8 =>
    rw [jsonEscape?, List.lookup_eq_none_iff.2 (by simp_all)]
    have hlt : c < ' ' ↔ c.toNat < 32 := Iff.rfl
    by_cases hcontrol : c.toNat < 32
    · rw [if_pos (hlt.2 hcontrol), hex4_eq hcontrol]
      simp [hcontrol]
    · rw [if_neg (mt hlt.1 hcontrol)]
      simp [hcontrol]
  all_goals rfl

/-! ## JSON -/

/-- A text with its lines, but for the first one, two blanks further in. -/
def indent (text : Text) : Text :=
  text.flatMap fun c => if c = '\n' then "\n  ".toList else [c]

/-- Texts on lines of their own, with a comma behind each but the last one. -/
def rows (texts : List Text) : Text :=
  "\n".toList ++ List.intercalate ",\n".toList texts

namespace Json

mutual
/-- A value over as many lines as it needs: each item of a list and each field of
a record starts a line, and the closing bracket stands on one of its own. -/
def layout : Json → Text
  | number n => Nat.toDigits 10 n
  | text t => inQuotes jsonEscape? t
  | list [] => "[]".toList
  | list items => "[".toList ++ indent (rows (itemLayouts items)) ++ "\n]".toList
  | record [] => "\x7b\x7d".toList
  | record fields =>
    "\x7b".toList ++ indent (rows (fieldLayouts fields)) ++ "\n\x7d".toList

def itemLayouts : List Json → List Text
  | [] => []
  | item :: rest => layout item :: itemLayouts rest

def fieldLayouts : List (Text × Json) → List Text
  | [] => []
  | (key, value) :: rest =>
    (inQuotes jsonEscape? key ++ ": ".toList ++ layout value) :: fieldLayouts rest
end

/-- A text whose lines, but for the first one, stand at a level. -/
def deepen (level : Nat) (text : Text) : Text :=
  text.flatMap fun c => if c = '\n' then newLine level else [c]

theorem deepen_append (level : Nat) (a b : Text) :
    deepen level (a ++ b) = deepen level a ++ deepen level b := List.flatMap_append

theorem deepen_of_notMem {text : Text} (h : '\n' ∉ text) (level : Nat) :
    deepen level text = text := by
  unfold deepen
  induction text with
  | nil => rfl
  | cons c rest ih =>
    have hc : c ≠ '\n' := fun heq => h (by simp [heq])
    rw [List.flatMap_cons, if_neg hc, ih fun hmem => h (List.mem_cons_of_mem c hmem)]
    rfl

theorem deepen_zero (text : Text) : deepen 0 text = text := by
  unfold deepen
  induction text with
  | nil => rfl
  | cons c rest ih =>
    rw [List.flatMap_cons, ih]
    split
    next heq => rw [heq]; rfl
    next => rfl

theorem deepen_newLine (level : Nat) :
    deepen level "\n  ".toList = newLine (level + 1) := by
  have hdeepen :
      deepen level "\n  ".toList = newLine level ++ List.replicate 2 ' ' := rfl
  rw [hdeepen, newLine, newLine, List.cons_append, List.replicate_append_replicate]
  rfl

theorem deepen_indent (level : Nat) (text : Text) :
    deepen level (indent text) = deepen (level + 1) text := by
  induction text with
  | nil => rfl
  | cons c rest ih =>
    have hindent : indent (c :: rest) =
        (if c = '\n' then "\n  ".toList else [c]) ++ indent rest := rfl
    have hdeepen : deepen (level + 1) (c :: rest) =
        (if c = '\n' then newLine (level + 1) else [c]) ++ deepen (level + 1) rest :=
          rfl
    rw [hindent, hdeepen, deepen_append, ih]
    congr 1
    split
    next => exact deepen_newLine level
    next hc => exact deepen_of_notMem (by simp [Ne.symm hc]) level

theorem newline_notMem_escapeChar (c : Char) : '\n' ∉ escapeChar c := by
  unfold escapeChar
  split
  case h_8 =>
    split
    next hcontrol =>
      have hdigit : ∀ m < 16, Nat.digitChar m ≠ '\n' := by decide
      have hlt : c.toNat < 32 := hcontrol
      have hhigh := hdigit (c.toNat / 16) (by omega)
      have hlow := hdigit (c.toNat % 16) (Nat.mod_lt _ (by decide))
      simp [hex4_eq hlt, hhigh.symm, hlow.symm]
    next => simp_all [eq_comm]
  all_goals decide

/-- No line ends inside a string. -/
theorem newline_notMem_inQuotes (t : Text) : '\n' ∉ inQuotes jsonEscape? t := by
  have hchar (c : Char) : '\n' ∉ (jsonEscape? c).getD [c] := by
    rw [← escapeChar_eq]
    exact newline_notMem_escapeChar c
  simp [inQuotes, hchar]

theorem newline_notMem_toDigits (n : Nat) : '\n' ∉ Nat.toDigits 10 n := fun hmem =>
  nomatch Nat.isDigit_of_mem_toDigits (by decide) (by decide) hmem

theorem renderText_eq (t : Text) : renderText t = inQuotes jsonEscape? t := by
  unfold renderText inQuotes
  rw [funext escapeChar_eq]
  rfl

theorem deepen_newline (level : Nat) : deepen level "\n".toList = newLine level :=
  List.append_nil _

theorem deepen_rows_singleton (level : Nat) (text : Text) :
    deepen level (rows [text]) = newLine level ++ deepen level text := by
  rw [rows, deepen_append, deepen_newline, List.intercalate_singleton]

theorem deepen_rows_cons (level : Nat) (text next : Text) (rest : List Text) :
    deepen level (rows (text :: next :: rest)) =
      newLine level ++ deepen level text ++ [',']
        ++ deepen level (rows (next :: rest)) := by
  have hcomma : deepen level ",\n".toList = [','] ++ newLine level := by
    show [','] ++ deepen level "\n".toList = [','] ++ newLine level
    rw [deepen_newline]
  simp only [rows, deepen_append, deepen_newline, List.intercalate_cons_cons, hcomma,
    List.append_assoc]

/-- A field is on the level of its record. -/
theorem deepen_field (level : Nat) (key : Text) (value : Json) :
    deepen level (inQuotes jsonEscape? key ++ ": ".toList ++ layout value) =
      renderText key ++ [':', ' '] ++ deepen level (layout value) := by
  rw [deepen_append, deepen_append, deepen_of_notMem (newline_notMem_inQuotes key),
    deepen_of_notMem (by decide), renderText_eq]
  rfl

/-- What is between brackets is one level further in, and the closing bracket is
not. -/
theorem deepen_brackets (level : Nat) (opening closing : Char)
    (hopening : opening ≠ '\n') (hclosing : closing ≠ '\n') (inner : Text) :
    deepen level ([opening] ++ indent inner ++ ['\n', closing]) =
      [opening] ++ deepen (level + 1) inner ++ newLine level ++ [closing] := by
  have hopen : deepen level [opening] = [opening] :=
    deepen_of_notMem (by simp [hopening.symm]) level
  have hclose : deepen level ['\n', closing] = newLine level ++ [closing] := by
    show deepen level ("\n".toList ++ [closing]) = newLine level ++ [closing]
    rw [deepen_append, deepen_newline, deepen_of_notMem (by simp [hclosing.symm])]
  rw [deepen_append, deepen_append, deepen_indent, hopen, hclose, List.append_assoc,
    List.append_assoc, List.append_assoc]

mutual
theorem renderAt_eq (level : Nat) :
    ∀ j : Json, renderAt level j = deepen level (layout j)
  | number n => (deepen_of_notMem (newline_notMem_toDigits n) level).symm
  | text t => by
    rw [renderAt, layout, deepen_of_notMem (newline_notMem_inQuotes t),
      renderText_eq]
  | list [] => rfl
  | list (item :: rest) => by
    have hbrackets := deepen_brackets level '[' ']' (by decide) (by decide)
      (rows (itemLayouts (item :: rest)))
    rw [← renderItems_eq (level + 1) (item :: rest) (by simp)] at hbrackets
    exact hbrackets.symm
  | record [] => rfl
  | record (field :: rest) => by
    have hbrackets := deepen_brackets level '\x7b' '\x7d' (by decide) (by decide)
      (rows (fieldLayouts (field :: rest)))
    rw [← renderFields_eq (level + 1) (field :: rest) (by simp)] at hbrackets
    exact hbrackets.symm

theorem renderItems_eq (level : Nat) : ∀ items : List Json, items ≠ [] →
    renderItems level items = deepen level (rows (itemLayouts items))
  | [], h => absurd rfl h
  | [item], _ => by
    rw [itemLayouts, itemLayouts, deepen_rows_singleton, renderItems,
      renderAt_eq level item]
  | item :: next :: rest, _ => by
    have hrest := renderItems_eq level (next :: rest) (by simp)
    rw [itemLayouts, itemLayouts, deepen_rows_cons, ← itemLayouts, ← hrest,
      ← renderAt_eq level item]
    rfl

theorem renderFields_eq (level : Nat) : ∀ fields : List (Text × Json), fields ≠ [] →
    renderFields level fields = deepen level (rows (fieldLayouts fields))
  | [], h => absurd rfl h
  | [(key, value)], _ => by
    rw [fieldLayouts, fieldLayouts, deepen_rows_singleton, deepen_field,
      ← renderAt_eq level value]
    simp only [renderFields, List.append_assoc]
  | (key, value) :: next :: rest, _ => by
    have hrest := renderFields_eq level (next :: rest) (by simp)
    rw [fieldLayouts, fieldLayouts, deepen_rows_cons, ← fieldLayouts, ← hrest,
      deepen_field, ← renderAt_eq level value]
    simp only [renderFields, List.append_assoc]
end

/-- The program lays a value out by this rule. -/
theorem render_eq_layout (j : Json) : j.render = j.layout := by
  rw [render, renderAt_eq, deepen_zero]

end Json

/-! ## Messages -/

/-- A selection in words: its offsets in decimal. -/
def Span.words (s : Span) : Text :=
  Nat.toDigits 10 s.start ++ "..".toList ++ Nat.toDigits 10 s.stop

/-- Why a table is no dialect, in words. -/
def DialectError.words : DialectError → Text
  | emptyOpener => "dialect opener must not be empty".toList
  | emptyCloser => "dialect closer must not be empty".toList
  | lineBreak symbol =>
    "addon symbol ".toList ++ inQuotes symbolEscape? symbol
      ++ " spans a line break".toList
  | unreadablePattern source => "invalid delimiter pattern: ".toList ++ source

/-- Why a text cannot be edited or selected in, in words. -/
def EditError.words : EditError → Text
  | outOfBounds offset size =>
    "offset ".toList ++ Nat.toDigits 10 offset
      ++ " is past the end of the buffer (".toList
      ++ Nat.toDigits 10 size ++ " bytes)".toList
  | insideCharacter offset =>
    "offset ".toList ++ Nat.toDigits 10 offset
      ++ " is not on a character boundary".toList
  | overlap first second =>
    "edits at ".toList ++ first.words ++ " and ".toList ++ second.words
      ++ " overlap".toList
  | reversed span => "range ".toList ++ span.words ++ " is reversed".toList

/-- Why a command fails, in the words that it is told in. -/
def Command.Failure.words : Failure → Text
  | configuration => "Error loading configuration\n".toList
  | invalidSelection text =>
    "Invalid selection '".toList ++ text ++ "': expected 'N' or 'N..M'\n".toList
  | invalidDialect e =>
    "Invalid dialect in configuration: ".toList ++ e.words ++ "\n".toList
  | unknownDialect name =>
    "Unknown dialect '".toList ++ name ++ "'\n".toList
      ++ "Run 'templater dialects' to list the available dialects\n".toList
  | unreadableFile => "Error reading file\n".toList
  | selectionOutside e => "Invalid selection: ".toList ++ e.words ++ "\n".toList
  | overlappingEdits e => "Cannot apply edits: ".toList ++ e.words ++ "\n".toList
  | noPatterns name => "Unknown dialect '".toList ++ name ++ "'\n".toList
  | unwritableFile => "Error writing file\n".toList

theorem Span.render_eq (s : Span) : s.render = s.words := rfl

end TemplateTags
