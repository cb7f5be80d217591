import RegisterAssignment.Text.Numeral

/-!
Structured documents of texts, numbers, lists and records, and their JSON text. A document is
laid out on one line, or over many lines with two spaces for each level of nesting. Both layouts
come from one printer, and differ only in what stands before an item and after a field name.
-/

namespace RegisterAssignment

/-- A document. The fields of a record are written in the order given here. -/
inductive Document where
  | text (s : String)
  | number (n : Nat)
  | list (items : List Document)
  | record (fields : List (String × Document))

namespace Document

/-- What a layout decides: the break before an item at a given depth, and the mark between a
field name and its value. -/
structure Layout where
  lineBreak : Nat → List Char
  colon : List Char

/-- Everything on one line, without blanks. -/
def Layout.compact : Layout where
  lineBreak _ := []
  colon := [':']

/-- One item a line, indented by two spaces for each level. -/
def Layout.indented : Layout where
  lineBreak depth := '\n' :: List.replicate (2 * depth) ' '
  colon := [':', ' ']

/-- One character inside a quoted text. Quotes, backslashes and control characters are escaped,
the common ones by a letter and the others by their code; everything else stands for itself. -/
def escape (c : Char) : List Char :=
  if c = '\"' then ['\\', '\"']
  else if c = '\\' then ['\\', '\\']
  else if c = '\x08' then ['\\', 'b']
  else if c = '\x0c' then ['\\', 'f']
  else if c = '\n' then ['\\', 'n']
  else if c = '\r' then ['\\', 'r']
  else if c = '\t' then ['\\', 't']
  else if c.toNat < 32 then ['\\', 'u'] ++ Numeral.hex 4 c.toNat
  else [c]

def quote (s : String) : List Char :=
  '\"' :: s.toList.flatMap escape ++ ['\"']

mutual

/-- A document at a given depth of nesting. An empty list or record has no break inside. -/
def chars (layout : Layout) (depth : Nat) : Document → List Char
  | .text s => quote s
  | .number n => Numeral.decimal n
  | .list [] => ['[', ']']
  | .list (item :: rest) =>
    '[' :: layout.lineBreak (depth + 1) ++ chars layout (depth + 1) item
      ++ moreItems layout depth rest ++ layout.lineBreak depth ++ [']']
  | .record [] => ['\x7b', '\x7d']
  | .record ((name, value) :: rest) =>
    '\x7b' :: layout.lineBreak (depth + 1) ++ quote name ++ layout.colon
      ++ chars layout (depth + 1) value
      ++ moreFields layout depth rest ++ layout.lineBreak depth ++ ['\x7d']

def moreItems (layout : Layout) (depth : Nat) : List Document → List Char
  | [] => []
  | item :: rest =>
    ',' :: layout.lineBreak (depth + 1) ++ chars layout (depth + 1) item
      ++ moreItems layout depth rest

def moreFields (layout : Layout) (depth : Nat) : List (String × Document) → List Char
  | [] => []
  | (name, value) :: rest =>
    ',' :: layout.lineBreak (depth + 1) ++ quote name ++ layout.colon
      ++ chars layout (depth + 1) value ++ moreFields layout depth rest

end

def render (layout : Layout) (d : Document) : String :=
  String.ofList (d.chars layout 0)

end Document

end RegisterAssignment
