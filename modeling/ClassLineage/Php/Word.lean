import ClassLineage.Php.Character

/-!
# Reserved words

Many words of PHP are reserved only in some places: the same word names a method, a
constant or a class elsewhere.  Whether a word is reserved is told by the marks and
words before it and by what follows.

## Main definitions

* `Php.lowerWord` — a word without regard to case.
* `Php.isReserved` — a word is reserved where it stands, and not an identifier.
-/

namespace ClassLineage
namespace Php

/-- A word without regard to case; reserved words are ASCII. -/
def lowerWord (s : String) : String := String.ofList (s.toList.map Char.toLower)

/-- The labels of the leaves before a place, the nearest first: a reserved word in
lower case, a mark as it is, and `name` for an identifier. -/
abbrev Before := List String

/-- The words that shape declarations. -/
def declarationWords : List String :=
  ["namespace", "class", "interface", "use", "extends", "implements", "as", "final", "abstract",
    "function", "const"]

/-- The words that are reserved in every place where no identifier is due. -/
def plainWords : List String :=
  ["if", "elseif", "else", "endif", "while", "endwhile", "do", "for", "endfor", "foreach",
    "endforeach", "switch", "endswitch", "case", "default", "break", "continue", "try", "catch",
    "finally", "throw", "return", "echo", "print", "new", "clone", "instanceof", "insteadof",
    "public", "private", "protected", "readonly", "var", "declare", "enddeclare", "trait", "goto",
    "global", "unset", "exit", "include", "include_once", "require", "require_once", "yield", "fn",
    "and", "or", "xor", "null", "true", "false"]

/-- The words of types that are no names. -/
def typeWords : List String :=
  ["int", "string", "float", "bool", "void", "callable", "mixed", "iterable", "object", "never"]

/-- The words that only a conversion uses. -/
def castWords : List String := ["boolean", "integer", "double", "binary", "real"]

/-- The words for the directives of a `declare`. -/
def directiveWords : List String := ["strict_types", "ticks", "encoding"]

/-- The leaf just before is one of these. -/
def comesAfter (labels : List String) (before : Before) : Bool := before.head?.any labels.contains

/-- A single equals sign follows. -/
def assigned (next : List Char) : Bool :=
  startsWith "=" next && !startsWith "==" next && !startsWith "=>" next

/-- A single colon follows. -/
def labelled (next : List Char) : Bool := startsWith ":" next && !startsWith "::" next

/-- The word that follows, in lower case. -/
def nextWord (next : List Char) : String :=
  lowerWord (String.ofList (next.take (identifierLength next)))

/-- What comes before a `class` makes it the class of a single object: `new`, with
modifiers and attributes after it.  `depth` brackets of attributes are open. -/
def isAnonymous (depth : Nat) : Before → Bool
  | [] => false
  | label :: before =>
    if label = "]" then isAnonymous (depth + 1) before
    else if 0 < depth then
      isAnonymous (if label = "[" ∨ label = "#[" then depth - 1 else depth) before
    else if label = "readonly" then isAnonymous depth before
    else label = "new"

/-- What comes before a list in parentheses makes it the parameters of a function, or
the variables that a closure uses. -/
def headsParameters (before : Before) : Bool :=
  match before with
  | "name" :: "&" :: "function" :: _ => true
  | "name" :: "function" :: _ => true
  | "&" :: label :: _ => label = "function" || label = "fn"
  | label :: _ => label = "function" || label = "fn" || label = "use"
  | [] => false

/-- The parentheses that close here hold parameters; `depth` parentheses are to be
opened. -/
def closesParameters (depth : Nat) : Before → Bool
  | [] => false
  | label :: before =>
    if label = ")" then closesParameters (depth + 1) before
    else if label = "(" then
      if depth ≤ 1 then headsParameters before else closesParameters (depth - 1) before
    else 0 < depth && closesParameters depth before

/-- The type of a result or of an enumeration's cases is due. -/
def resultDue : Before → Bool
  | ":" :: ")" :: before => closesParameters 0 (")" :: before)
  | ":" :: "name" :: "enum" :: _ => true
  | "?" :: ":" :: ")" :: before => closesParameters 0 (")" :: before)
  | _ => false

/-- A type stands here: it is due, or a variable, another type or the name of a
constant follows. -/
def inType (before : Before) (next : List Char) : Bool :=
  resultDue before || comesAfter ["|"] before
    || (startsWith "$" next && (before.drop 1).head? ≠ some "catch")
    || ["...", "&$", "&...", "& $"].any (startsWith · next)
    || (startsWith "|" next && !startsWith "||" next)
    || ((comesAfter ["const"] before || before.take 2 = ["?", "const"]) && hasIdentifier next)

/-- The labels before a parenthesis that make it belong to what precedes it. -/
def callers : List String :=
  ["name", ")", "]", "\x7d", "if", "elseif", "while", "for", "foreach", "switch", "match", "catch",
    "declare", "function", "fn", "array", "list", "exit", "unset", "use"]

/-- The parentheses around the place make a conversion. -/
def inCast (before : Before) (next : List Char) : Bool :=
  comesAfter ["("] before && startsWith ")" next && !comesAfter callers (before.drop 1)

/-- A statement starts here, perhaps after attributes. -/
def startsStatement (before : Before) : Bool :=
  before.isEmpty || comesAfter [";", "\x7b", "\x7d", "]", ")", ":", "string_content", "?>"] before

/-- The words that keep their meaning where the name of a class may stand. -/
def meaningfulWords : List String :=
  ["namespace", "class", "function", "const", "static", "public", "private", "protected",
    "readonly", "final", "abstract"]

/-- The labels after which every word is an identifier. -/
def namingLabels : List String :=
  ["->", "?->", "::", "$", "\\", "interface", "trait", "enum", "goto", "namespace"]

/-- The labels after which the name of a class may stand. -/
def classLabels : List String :=
  ["extends", "implements", "new", "instanceof", "insteadof", "use", "as"]

/-- An identifier is due here whatever the word, by what comes before it. -/
def identifierDue (word : String) (before : Before) (next : List Char) : Bool :=
  match before with
  -- a variable between braces, in a quoted text
  | "\x7b" :: "$" :: _ => true
  -- a function is named, unless it is one that a file imports
  | "function" :: more => !comesAfter ["use"] more
  | "&" :: "function" :: _ => true
  -- the case of an enumeration; that of a `switch` goes on with a colon
  | "case" :: _ => startsWith ";" next
  | "class" :: more => !isAnonymous 0 more
  | label :: _ =>
    if namingLabels.contains label then true
    -- an attribute may be named relative to the current namespace
    else if label = "#[" then word != "namespace"
    else if classLabels.contains label then
      !meaningfulWords.contains word
        && !((word = "list" || word = "array") && startsWith "(" next)
    -- an argument by its name
    else if label = "(" ∨ label = "," then labelled next
    -- a method that is adapted where a trait is used
    else if label = "\x7b" ∨ label = ";" then ["as", "insteadof"].contains (nextWord next)
    else false
  | [] => false

/-- The word is reserved in this place, where no identifier is due. -/
def isReservedHere (text word : String) (before : Before) (next : List Char) : Bool :=
  if word = "static" then
    startsWith "::" next || !(comesAfter ["new", "instanceof", "|"] before || resultDue before
      || (startsWith "|" next && !startsWith "||" next))
  else if word = "array" then startsWith "(" next || inType before next || inCast before next
  else if word = "list" ∨ word = "match" then startsWith "(" next
  else if word = "from" then comesAfter ["yield"] before
  else if word = "enum" then
    startsStatement before && hasIdentifier next
      && !(["extends", "implements"].contains (nextWord next))
  else if text = "self" ∨ text = "parent" then startsWith "::" next
  else if typeWords.contains word then inType before next || inCast before next
  else if castWords.contains word then inCast before next
  else declarationWords.contains word || plainWords.contains word

/-- The word is a directive of a `declare`. -/
def isDirective (word : String) (before : Before) : Bool :=
  directiveWords.contains word && before.take 2 = ["(", "declare"]

/-- A word is reserved where it stands, and not an identifier; `after` is what follows
it.  A word that starts a qualified name is an identifier, unless it shapes
declarations. -/
def isReserved (text : String) (before : Before) (after : List Char) : Bool :=
  let word := lowerWord text
  let next := dropGaps .blank after
  if startsWith "\\" after && !declarationWords.contains word then false
  else if identifierDue word before next then false
  else isDirective word before || (!assigned next && isReservedHere text word before next)

end Php
end ClassLineage
