import ClassLineage.Hierarchy
import ClassLineage.Proofs.Declaration.Canonical
import ClassLineage.Proofs.Name.Normal
import ClassLineage.Proofs.Name.Resolve

/-!
# The node of a declared name

A node stands for the normal form of a name.  For a name inside a namespace this form is made of
the normal forms of the two, though the lower-case form of a sigma depends on the letters around
it: the separator between them ends every word.

## Main results

* `Outline.IsCanonical.nodeId` — the node of an outline's name.
* `Hierarchy.nodeId_declared` — **the node of a declared name depends on the normal forms of its
  short name and of its namespace alone.**
-/

namespace ClassLineage

open Name

theorem Outline.IsCanonical.nodeId {o : Outline} (h : o.IsCanonical) :
    Hierarchy.nodeId (qualify o.shortName o.space)
      = "class:" ++ qualify (normalize o.shortName) (normalize o.space) := by
  have hname : trimLeading o.shortName = o.shortName := by
    by_contra hne
    obtain ⟨c, hc, hsep⟩ := isRooted_iff.mpr hne
    rw [h.shortName c (List.mem_of_head? hc)] at hsep
    exact Bool.false_ne_true hsep
  have hspace : trimLeading o.space = o.space := by
    rcases h.space with hglobal | htight
    · rw [hglobal]
      rfl
    · exact htight.isFull.trimLeading
  rw [Hierarchy.nodeId, normalize_qualify hname hspace]

namespace Hierarchy

/-- **The node of a declared name depends on the normal forms of its short name and of its
namespace alone.**  A name in normal form stays as it is, and a name inside a namespace is put into
normal form part by part, whatever characters it holds. -/
theorem nodeId_declared :
    (∀ name, normalize (normalize name) = normalize name)
    ∧ (∀ name space, ¬ IsRooted name → ¬ IsRooted space →
      normalize (qualify name space) = qualify (normalize name) (normalize space))
    ∧ ∀ (imports : ImportTable) (path : String) (ts : List Token),
      ∀ d ∈ Declaration.scanWith imports path ts,
        nodeId d.name = "class:" ++ qualify (normalize d.shortName) (normalize d.space) := by
  refine ⟨normalize_normalize, fun name space hname hspace => ?_, fun imports path ts d hd => ?_⟩
  · exact normalize_qualify (not_not.mp (mt isRooted_iff.mpr hname))
      (not_not.mp (mt isRooted_iff.mpr hspace))
  · obtain ⟨o, ho, rfl⟩ := List.mem_map.mp hd
    exact (Outline.readFrom_isCanonical (Or.inl rfl) ts o ho).nodeId

/-- A class whose name and namespace end in a sigma, which both start with one, too. -/
def sigmaFile : List Token :=
  [⟨.keyword .namespaceWord, "namespace", 1⟩, ⟨.name, "ΣΕΙΡΑΣ", 1⟩, ⟨.symbol, ";", 1⟩,
    ⟨.keyword .classWord, "class", 2⟩, ⟨.name, "ΣΟΦΟΣ", 2⟩, ⟨.symbol, "\x7b", 2⟩,
    ⟨.symbol, "\x7d", 2⟩]

/-- The record of the class. -/
def sophos : Declaration where
  name := "ΣΕΙΡΑΣ\\ΣΟΦΟΣ"
  path := "Sophos.php"
  space := "ΣΕΙΡΑΣ"
  shortName := "ΣΟΦΟΣ"
  kind := "class"
  parent := none
  interfaces := []
  traits := []

/-- The separator ends the first word, whose sigma is a final one for that, and begins another. -/
theorem nodeId_declared_sigma :
    ¬ IsRooted "ΣΟΦΟΣ" ∧ ¬ IsRooted "ΣΕΙΡΑΣ"
    ∧ normalize (qualify "ΣΟΦΟΣ" "ΣΕΙΡΑΣ") = "σειρας\\σοφος"
    ∧ (Declaration.scanWith [] "Sophos.php" sigmaFile).map (nodeId ·.name)
      = ["class:σειρας\\σοφος"] := by
  obtain ⟨-, hqualify, hdeclared⟩ := nodeId_declared
  have hname : ¬ IsRooted "ΣΟΦΟΣ" := by decide
  have hspace : ¬ IsRooted "ΣΕΙΡΑΣ" := by decide
  have hparts : "class:" ++ qualify (normalize "ΣΟΦΟΣ") (normalize "ΣΕΙΡΑΣ")
      = "class:σειρας\\σοφος" := by
    decide +kernel
  refine ⟨hname, hspace, ?_, ?_⟩
  · rw [hqualify _ _ hname hspace]
    decide +kernel
  · have hscan : Declaration.scanWith [] "Sophos.php" sigmaFile = [sophos] := by decide +kernel
    have hnode := hdeclared [] "Sophos.php" sigmaFile sophos (by rw [hscan]; simp)
    rw [hscan, List.map_singleton, hnode, ← hparts]
    rfl

end Hierarchy
end ClassLineage
