import ClassLineage.Text.Alphanumeric
import ClassLineage.Text.Blank
import ClassLineage.Text.Lower

/-!
# Tokens

The lexical units of a PHP file, as far as declarations are concerned.  A token
has a kind, its text as written and the line on which it starts; kind and text are
independent of each other, and whoever reads tokens goes by the kind.

## Main definitions

* `Keyword` — the words that matter to declarations.
* `TokenKind`, `Token` — kinds, and tokens.
* `TokenKind.classify` — the kind of a leaf of the grammar.
* `Token.opensBlock`, `Token.closesBlock` — the braces.
-/

namespace ClassLineage

open Text

/-- The words that matter to declarations. -/
inductive Keyword
  /-- `namespace` -/
  | namespaceWord
  /-- `class` -/
  | classWord
  /-- `interface` -/
  | interfaceWord
  /-- `use`, of an import, a trait or a closure -/
  | useWord
  /-- `extends` -/
  | extendsWord
  /-- `implements` -/
  | implementsWord
  /-- `as` -/
  | asWord
  /-- `final` -/
  | finalWord
  /-- `abstract` -/
  | abstractWord
  /-- `function` -/
  | functionWord
  /-- `const` -/
  | constWord
deriving Repr, DecidableEq

namespace Keyword

/-- All the keywords. -/
def all : List Keyword :=
  [namespaceWord, classWord, interfaceWord, useWord, extendsWord, implementsWord, asWord,
    finalWord, abstractWord, functionWord, constWord]

/-- How the keyword is written in lower case. -/
def text : Keyword → String
  | namespaceWord => "namespace"
  | classWord => "class"
  | interfaceWord => "interface"
  | useWord => "use"
  | extendsWord => "extends"
  | implementsWord => "implements"
  | asWord => "as"
  | finalWord => "final"
  | abstractWord => "abstract"
  | functionWord => "function"
  | constWord => "const"

/-- The keyword that is written so, in lower case. -/
def ofText? (s : String) : Option Keyword := all.find? (·.text == s)

theorem mem_all (k : Keyword) : k ∈ all := by cases k <;> decide

@[simp] theorem ofText?_text (k : Keyword) : ofText? k.text = some k := by cases k <;> decide

end Keyword

/-- What a token is. -/
inductive TokenKind
  /-- A word that matters to declarations. -/
  | keyword (k : Keyword)
  /-- A segment of a name. -/
  | name
  /-- A backslash between segments. -/
  | separator
  /-- Blank space. -/
  | whitespace
  /-- A comment. -/
  | comment
  /-- A single punctuation character. -/
  | symbol
  /-- Anything else. -/
  | other
deriving Repr, DecidableEq

/-- The kind of a leaf of the grammar, by its label, its text and whether the grammar
names it.  A leaf is a keyword when its label and its text are the same word, in
whatever case. -/
def TokenKind.classify (label text : String) (named : Bool) : TokenKind :=
  match Keyword.ofText? (lower label) with
  | some k => if lower text = lower label then .keyword k else plain
  | none => plain
where
  /-- The kind of a leaf that is no keyword. -/
  plain : TokenKind :=
    if label = "name" then .name
    else if label = "\\" then .separator
    else if label = "comment" then .comment
    else if isBlankText text then .whitespace
    else if !named && isMark text then .symbol
    else .other
  /-- The text is one character that is neither a letter nor a number. -/
  isMark (text : String) : Bool :=
    match text.toList with
    | [c] => !isAlphanumeric c
    | _ => false

/-- A token: its kind, its text as written, and the line on which it starts. -/
structure Token where
  /-- What the token is. -/
  kind : TokenKind
  /-- The text as written. -/
  text : String
  /-- The line on which the token starts, counted from one. -/
  line : Nat
deriving Repr, DecidableEq

namespace Token

/-- The token is of the kind of the keyword `k`. -/
def isKeyword (k : Keyword) (t : Token) : Bool := t.kind == .keyword k

/-- The token is blank space or a comment. -/
def isTrivia (t : Token) : Bool := t.kind == .whitespace || t.kind == .comment

/-- The token is part of a name: a segment or a separator. -/
def isNamePart (t : Token) : Bool := t.kind == .name || t.kind == .separator

/-- The token is the punctuation `s`. -/
def isSymbol (s : String) (t : Token) : Bool := t.kind == .symbol && t.text == s

/-- The token opens a block: an opening brace, or the start of an interpolation. -/
def opensBlock (t : Token) : Bool := t.isSymbol "\x7b" || t.text == "$\x7b"

/-- The token closes a block. -/
def closesBlock (t : Token) : Bool := t.isSymbol "\x7d"

/-- The token is a comma. -/
def isComma (t : Token) : Bool := t.isSymbol ","

/-- The token ends a statement. -/
def isSemicolon (t : Token) : Bool := t.isSymbol ";"

end Token
end ClassLineage
