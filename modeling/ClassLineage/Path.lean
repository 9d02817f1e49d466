import ClassLineage.Text.Split

/-!
# Paths

A path has a lead, which tells where it starts, and parts.  Its text separates the
parts by slashes; empty parts and parts that are a single point say nothing and are
dropped, while a part of two points stays.

## Main definitions

* `Path` — the paths, with `Path.ofText` and `Path.toText`.
* `Path.join` — a path below another.
* `Path.relativeTo?` — the parts of a path below another.
* `Path.suffix` — what follows the last point of the last part, with the point.
-/

namespace ClassLineage

/-- Where a path starts. -/
inductive PathLead
  /-- At the place where one happens to be. -/
  | relative
  /-- At the root. -/
  | root
  /-- At the root that is written with two slashes. -/
  | doubleRoot
deriving Repr, DecidableEq

/-- The slashes of a lead. -/
def PathLead.text : PathLead → String
  | relative => ""
  | root => "/"
  | doubleRoot => "//"

/-- A path. -/
structure Path where
  /-- Where it starts. -/
  lead : PathLead
  /-- Its parts. -/
  parts : List String
deriving Repr, DecidableEq

namespace Path

/-- The lead of a path with so many slashes in front: more than two are as good as
one. -/
def leadOf : Nat → PathLead
  | 0 => .relative
  | 2 => .doubleRoot
  | _ => .root

/-- The part says something. -/
def isPart (part : String) : Bool := part != "" && part != "."

/-- The path that a text writes. -/
def ofText (text : String) : Path where
  lead := leadOf (text.toList.takeWhile (· = '/')).length
  parts := (Text.splitAll (· = '/') text).filter isPart

/-- The text of a path; without lead and parts, a point. -/
def toText (p : Path) : String :=
  if p.lead = .relative ∧ p.parts = [] then "."
  else p.lead.text ++ String.intercalate "/" p.parts

/-- The path does not depend on where one is. -/
def isAbsolute (p : Path) : Bool := p.lead != .relative

/-- The path `p` as it is written below another path: an absolute one stays itself. -/
def join (base p : Path) : Path :=
  if p.isAbsolute then p else ⟨base.lead, base.parts ++ p.parts⟩

/-- The path one part below another. -/
def child (base : Path) (part : String) : Path := ⟨base.lead, base.parts ++ [part]⟩

/-- The last part of the path. -/
def name (p : Path) : String := p.parts.getLast?.getD ""

/-- What follows the last point of a name, with the point; nothing if the point is the
first or the last character. -/
def nameSuffix (name : String) : String :=
  let cs := name.toList.reverse
  let tail := cs.takeWhile (· ≠ '.')
  let stem := (cs.drop tail.length).drop 1
  if tail.isEmpty || stem.isEmpty then "" else String.ofList ('.' :: tail.reverse)

/-- What follows the last point of the last part, with the point. -/
def suffix (p : Path) : String := nameSuffix p.name

/-- The parts of a path, its lead as the first one if it has any. -/
def fullParts (p : Path) : List String :=
  if p.isAbsolute then p.lead.text :: p.parts else p.parts

/-- The parts of a path below another, if it is below it. -/
def relativeTo? (p base : Path) : Option (List String) :=
  if p.lead = base.lead ∧ base.parts.isPrefixOf p.parts then some (p.parts.drop base.parts.length)
  else none

@[simp] theorem isAbsolute_relative (parts : List String) :
    (Path.mk .relative parts).isAbsolute = false := rfl

end Path
end ClassLineage
