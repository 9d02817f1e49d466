import ClassLineage.Php.Leaf
import ClassLineage.Php.Lexeme
import ClassLineage.Php.Word

/-!
# Reading PHP source

A source is markup with stretches of PHP code between tags; code holds quoted texts;
and a quoted text may hold variables, and code between braces, which may again hold
quoted texts.  The lexer keeps the list of what it is inside of, and at each step
takes a few characters from the front of the source.

## Main definitions

* `Php.Quotation`, `Php.Frame` — what a place of the source is inside of.
* `Php.Lexer` — the state of the lexer, with its moves `emit` and `skip`.
* `Php.Lexer.step` — one step.
* `Php.leaves` — the leaves of a source.
* `Php.tokens` — the tokens of a source.
-/

namespace ClassLineage
namespace Php

/-- What a leaf covers. -/
inductive LeafShape
  /-- A reserved word. -/
  | word
  /-- An identifier. -/
  | name
  /-- An operator or another mark. -/
  | mark
  /-- A comment. -/
  | comment
  /-- Anything else: markup, a number, a piece of a quoted text. -/
  | content
deriving Repr, DecidableEq

/-- The leaf of a shape with a text on a line. -/
def LeafShape.leaf (shape : LeafShape) (text : String) (line : Nat) : Leaf :=
  match shape with
  | .word => ⟨lowerWord text, false, text, line⟩
  | .name => ⟨"name", true, text, line⟩
  | .mark => ⟨text, false, text, line⟩
  | .comment => ⟨"comment", true, text, line⟩
  | .content => ⟨"string_content", true, text, line⟩

/-- A quoted text, by how it is quoted. -/
inductive Quotation
  /-- Between single quotes. -/
  | single
  /-- Between two marks, with variables in it. -/
  | double (mark : Char)
  /-- From one line to another that starts with a label, with variables in it. -/
  | heredoc (label : List Char)
  /-- From one line to another that starts with a label. -/
  | nowdoc (label : List Char)
deriving Repr, DecidableEq

/-- What a place of the source is inside of, outermost markup apart. -/
inductive Frame
  /-- Code. -/
  | code
  /-- Code between braces inside a quoted text, `depth` further braces being open. -/
  | braces (depth : Nat)
  /-- A quoted text. -/
  | quotation (q : Quotation)
deriving Repr, DecidableEq

/-- The state of the lexer. -/
structure Lexer where
  /-- The characters left. -/
  rest : List Char
  /-- The line of the first of them. -/
  line : Nat
  /-- What this place is inside of, the innermost first. -/
  frames : List Frame
  /-- The leaves read, the last first. -/
  done : List Leaf
  /-- The labels of those that are no comments. -/
  before : Before

/-! ### Ends and contents of quoted texts -/

/-- How long the end of a line at the start is. -/
def newlineLength : List Char → Nat
  | '\n' :: _ => 1
  | '\r' :: '\n' :: _ => 2
  | _ => 0

/-- The character is a blank within a line. -/
def isIndent (c : Char) : Bool := c = ' ' || c = '\t'

/-- How far it is to the label that closes a text at the start of the next line, if
one does. -/
def closingOffset? (label cs : List Char) : Option Nat :=
  let newline := newlineLength cs
  let indent := ((cs.drop newline).takeWhile isIndent).length
  let rest := cs.drop (newline + indent)
  if newline != 0 && label.isPrefixOf rest
      && !(rest.drop label.length).head?.any continuesIdentifier then
    some (newline + indent)
  else none

namespace Quotation

/-- The text holds variables. -/
def interpolates : Quotation → Bool
  | double _ => true
  | heredoc _ => true
  | _ => false

/-- The text ends here. -/
def isClosed (q : Quotation) (cs : List Char) : Bool :=
  match q with
  | single => cs.head? == some '\x27'
  | double mark => cs.head? == some mark
  | heredoc label => (closingOffset? label cs).isSome
  | nowdoc label => (closingOffset? label cs).isSome

/-- How long the escape sequence at the start is. -/
def escapeLength (q : Quotation) (cs : List Char) : Nat :=
  match q with
  | single => if startsWith "\\'" cs || startsWith "\\\\" cs then 2 else 0
  | double mark => if ['\\', mark].isPrefixOf cs then 2 else Php.escapeLength cs
  | heredoc _ => if startsWith "\\\\" cs then 0 else Php.escapeLength cs
  | nowdoc _ => 0

/-- A variable, or code between braces, starts here. -/
def isInterpolated (q : Quotation) (cs : List Char) : Bool :=
  q.interpolates && (startsWith "\x7b$" cs || startsWith "$\x7b" cs
    || (startsWith "$" cs && hasIdentifier (cs.drop 1)))

/-- The two characters at the start are taken together as they are. -/
def isPair (q : Quotation) (c d : Char) : Bool :=
  c = '\\' && (q.interpolates && (d = '\x7b' || d = '\\'))

/-- How long the run of plain characters at the start is. -/
def contentLength (q : Quotation) : List Char → Nat
  | [] => 0
  | [c] => if q.isClosed [c] then 0 else 1
  | c :: d :: cs =>
    if q.isClosed (c :: d :: cs) || q.escapeLength (c :: d :: cs) != 0
        || q.isInterpolated (c :: d :: cs) then 0
    else if q.isPair c d then q.contentLength cs + 2
    else q.contentLength (d :: cs) + 1

end Quotation

namespace Lexer

/-! ### Moves -/

/-- Passes over characters. -/
def skip (n : Nat) (s : Lexer) : Lexer :=
  { s with rest := s.rest.drop n, line := s.line + (s.rest.take n).count '\n' }

/-- Makes a leaf of the next characters; of none, no leaf. -/
def emit (shape : LeafShape) (n : Nat) (s : Lexer) : Lexer :=
  if n = 0 then s
  else
    let leaf := shape.leaf (String.ofList (s.rest.take n)) s.line
    let before := if shape = .comment then s.before else leaf.label :: s.before
    { s.skip n with done := leaf :: s.done, before }

/-- Enters a frame. -/
def enter (frame : Frame) (s : Lexer) : Lexer := { s with frames := frame :: s.frames }

/-- Leaves the innermost frame. -/
def leave (s : Lexer) : Lexer := { s with frames := s.frames.tail }

/-- Makes a leaf of an identifier, if there is one. -/
def emitIdentifier (s : Lexer) : Lexer := s.emit .name (identifierLength s.rest)

/-! ### Markup -/

/-- How long the opening tag at the start is. -/
def tagLength (cs : List Char) : Nat :=
  if startsWith "<?=" cs then 3
  else if (cs.take 5).map Char.toLower = "<?php".toList then 5
  else 0

/-- How many characters come before the next opening tag. -/
def markupLength : List Char → Nat
  | [] => 0
  | c :: cs => if tagLength (c :: cs) != 0 then 0 else markupLength cs + 1

/-- Reads markup up to code, and the tag that opens the code. -/
def markup (s : Lexer) : Lexer :=
  let n := markupLength s.rest
  let blanks := ((s.rest.take n).takeWhile isGap).length
  let s := (s.skip blanks).emit .content (n - blanks)
  (s.emit .content (tagLength s.rest)).enter .code

/-! ### Code -/

/-- Reads a word. -/
def word (s : Lexer) : Lexer :=
  let n := identifierLength s.rest
  let text := String.ofList (s.rest.take n)
  s.emit (if isReserved text s.before (s.rest.drop n) then .word else .name) n

/-- How long the opening of a text that ends with a label is: blanks before the quote,
the quote, the label. -/
def heredocParts? (cs : List Char) : Option (Nat × Option Char × List Char) :=
  let blanks := (cs.takeWhile isIndent).length
  let rest := cs.drop blanks
  let quote := rest.head?.filter fun c => c = '\x27' || c = '\x22'
  let name := rest.drop quote.toList.length
  let n := identifierLength name
  if n != 0 && quote.toList.isPrefixOf (name.drop n) then some (blanks, quote, name.take n)
  else none

/-- Reads the opening of a text that ends with a label, up to its first line. -/
def openHeredoc (blanks : Nat) (quote : Option Char) (label : List Char) (s : Lexer) : Lexer :=
  let mark := quote.toList.length
  let s := (s.emit .mark 3).skip blanks
  let s := ((s.emit .mark mark).emit .content label.length).emit .mark mark
  let s := if (closingOffset? label s.rest).isSome then s else s.skip (newlineLength s.rest)
  s.enter (.quotation (if quote = some '\x27' then .nowdoc label else .heredoc label))

/-- How long the mark that opens a quoted text is, with the letter that may stand before
it, and how the text is quoted. -/
def quotation? : List Char → Option (Nat × Quotation)
  | '\x27' :: _ => some (1, .single)
  | '\x22' :: _ => some (1, .double '\x22')
  | '\x60' :: _ => some (1, .double '\x60')
  | 'b' :: '\x27' :: _ => some (2, .single)
  | 'B' :: '\x27' :: _ => some (2, .single)
  | 'b' :: '\x22' :: _ => some (2, .double '\x22')
  | 'B' :: '\x22' :: _ => some (2, .double '\x22')
  | _ => none

/-- Reads a brace that opens. -/
def openBrace (s : Lexer) : Lexer :=
  let s := s.emit .mark 1
  match s.frames with
  | .braces depth :: frames => { s with frames := .braces (depth + 1) :: frames }
  | _ => s

/-- Reads a brace that closes. -/
def closeBrace (s : Lexer) : Lexer :=
  let s := s.emit .mark 1
  match s.frames with
  | .braces 0 :: frames => { s with frames }
  | .braces depth :: frames => { s with frames := .braces (depth - 1) :: frames }
  | _ => s

/-- Reads the tag that ends code. -/
def closeTag (s : Lexer) : Lexer :=
  let s := s.emit .mark 2
  if s.frames.head? = some .code then s.leave else s

/-- Reads a lexeme of code. -/
def code (s : Lexer) : Lexer :=
  if s.rest.head?.any isGap then s.skip (s.rest.takeWhile isGap).length
  else if let some n := commentLength? s.rest then s.emit .comment n
  else if startsWith "?>" s.rest then s.closeTag
  else if let some (n, q) := quotation? s.rest then (s.emit .mark n).enter (.quotation q)
  else if hasIdentifier s.rest then s.word
  else if hasNumber s.rest then s.emit .content (numberLength s.rest)
  else if startsWith "$" s.rest then (s.emit .mark 1).emitIdentifier
  else if startsWith "\x7b" s.rest then s.openBrace
  else if startsWith "\x7d" s.rest then s.closeBrace
  else if startsWith "<<<" s.rest then
    match heredocParts? (s.rest.drop 3) with
    | some (blanks, quote, label) => s.openHeredoc blanks quote label
    | none => s.emit .mark 2
  else s.emit .mark (operatorLength s.rest)

/-! ### Quoted texts -/

/-- Reads what an index in a quoted text holds. -/
def indexKey (s : Lexer) : Lexer :=
  let digits (s : Lexer) : Lexer := s.emit .content (digitsLength Char.isDigit s.rest)
  if startsWith "-" s.rest then digits (s.emit .mark 1)
  else if startsWith "$" s.rest then (s.emit .mark 1).emitIdentifier
  else if hasIdentifier s.rest then s.emitIdentifier
  else digits s

/-- Reads an index after a variable in a quoted text, if there is one. -/
def index (s : Lexer) : Lexer :=
  let key := (s.emit .mark 1).indexKey
  if startsWith "]" key.rest then key.emit .mark 1 else s

/-- Reads a variable in a quoted text, with one index or one property after it. -/
def plainVariable (s : Lexer) : Lexer :=
  let s := (s.emit .mark 1).emitIdentifier
  if startsWith "[" s.rest then s.index
  else if startsWith "->" s.rest && hasIdentifier (s.rest.drop 2) then
    (s.emit .mark 2).emitIdentifier
  else s

/-- Reads the end of a quoted text. -/
def close (q : Quotation) (s : Lexer) : Lexer :=
  let label (l : List Char) : Lexer :=
    (s.skip ((closingOffset? l s.rest).getD 0)).emit .content l.length
  match q with
  | .single => (s.emit .mark 1).leave
  | .double _ => (s.emit .mark 1).leave
  | .heredoc l => (label l).leave
  | .nowdoc l => (label l).leave

/-- Reads a piece of a quoted text. -/
def quoted (q : Quotation) (s : Lexer) : Lexer :=
  if q.isClosed s.rest then s.close q
  else if q.escapeLength s.rest != 0 then s.emit .content (q.escapeLength s.rest)
  else if !q.isInterpolated s.rest then s.emit .content (max 1 (q.contentLength s.rest))
  else if startsWith "\x7b" s.rest then (s.emit .mark 1).enter (.braces 0)
  else if startsWith "$\x7b" s.rest then ((s.emit .mark 1).emit .mark 1).enter (.braces 0)
  else s.plainVariable

/-! ### The whole source -/

/-- One step. -/
def step (s : Lexer) : Lexer :=
  match s.frames with
  | [] => s.markup
  | .quotation q :: _ => s.quoted q
  | _ => s.code

/-- Steps until nothing is left, as many as `fuel` at most. -/
def run : Nat → Lexer → Lexer
  | 0, s => s
  | fuel + 1, s => if s.rest.isEmpty then s else run fuel s.step

end Lexer

/-- The leaves of a source.  Each step takes a character at least, so there are never
more steps than characters. -/
def leaves (source : String) : List Leaf :=
  let cs := source.toList
  (Lexer.run cs.length ⟨cs, 1, [], [], []⟩).done.reverse

/-- The tokens of a source. -/
def tokens (source : String) : List Token := (leaves source).map Leaf.toToken

end Php
end ClassLineage
