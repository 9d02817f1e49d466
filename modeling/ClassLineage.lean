import ClassLineage.Main
import ClassLineage.Php.SyntaxTree
import ClassLineage.Filesystem.Memory
import ClassLineage.Service
import ClassLineage.Proofs.Declaration.Boundary
import ClassLineage.Proofs.Declaration.Canonical
import ClassLineage.Proofs.Declaration.Case
import ClassLineage.Proofs.Declaration.Progress
import ClassLineage.Proofs.Declaration.Relative
import ClassLineage.Proofs.Php.Content
import ClassLineage.Proofs.Disk.Edit
import ClassLineage.Proofs.Filesystem.Local
import ClassLineage.Proofs.Search.Pool
import ClassLineage.Proofs.Hierarchy.Lineage
import ClassLineage.Proofs.Hierarchy.Saved
import ClassLineage.Proofs.Json
import ClassLineage.Proofs.Service
import ClassLineage.Proofs.Hierarchy.Identity
import ClassLineage.Proofs.Php.Coverage
import ClassLineage.Proofs.Search.Excludes
import ClassLineage.Proofs.Declaration.Body
import ClassLineage.Proofs.Text.Integer
import ClassLineage.Proofs.Config
import ClassLineage.Proofs.CommandLine
