import ClassLineage.Filesystem.Local
import ClassLineage.Hierarchy.Saved
import ClassLineage.Search
import ClassLineage.Service.Archive

/-!
# The service

A service that answers requests: it unpacks an uploaded archive and searches its files,
or gives the hierarchy of all declarations in them.  Paths in its answers are relative
to the directory that the files are in.  Which reader makes entries of uploaded bytes, and
what makes tokens of sources, it may be told.

## Main definitions

* `Request`, `Response` — what is asked and answered.
* `Refusal` — why an upload is refused.
* `ServiceFailure` — what breaks a request off.
* `Interruption` — why a request does not get what it asks for.
* `Service.answer` — the answer to a request.
-/

namespace ClassLineage

/-- A file that comes with a request. -/
structure Upload where
  /-- The name of the file. -/
  name : String
  /-- What is in it. -/
  content : UploadContent
deriving Repr, DecidableEq

/-- A request. -/
structure Request where
  /-- What is to be done, in capital letters. -/
  method : String
  /-- With what. -/
  path : String
  /-- The parameters of the query. -/
  params : Entries String
  /-- The uploaded file. -/
  upload : Option Upload
deriving Repr, DecidableEq

/-- An answer. -/
structure Response where
  /-- The code that tells how it went. -/
  status : Nat
  /-- What is answered; none where only the code counts. -/
  body : Option Json

/-- Why an upload is refused. -/
inductive Refusal
  /-- There is none. -/
  | noFile
  /-- Its name is not that of an archive. -/
  | wrongName
  /-- It holds nothing. -/
  | emptyArchive
  /-- It is no archive. -/
  | invalidArchive
deriving Repr, DecidableEq

/-- What is said of a refused upload. -/
def Refusal.detail : Refusal → String
  | noFile => "Provide a zip file upload."
  | wrongName => "Upload a .zip archive."
  | emptyArchive => "Empty archive."
  | invalidArchive => "Invalid zip archive."

/-- What breaks a request off. -/
inductive ServiceFailure (ε : Type := Empty)
  /-- The configuration holds no number where one must be. -/
  | configuration (e : Text.IntegerError)
  /-- An access to files fails. -/
  | access (e : AccessError)
  /-- A path does not lie below the directory that it is to be relative to. -/
  | outside (path : String) (directory : Path)
  /-- The reader of archives gives up, for another reason than that there is none. -/
  | archive (e : ε)
deriving Repr, DecidableEq

/-- Why a request does not get what it asks for. -/
inductive Interruption (ε : Type)
  /-- Its upload is refused. -/
  | refused (r : Refusal)
  /-- It is broken off. -/
  | failed (e : ServiceFailure ε)
deriving Repr, DecidableEq

namespace Interruption

variable {ε : Type}

/-- An archive that is none is refused; another error of its reader breaks a request off. -/
def ofArchive : ArchiveError ε → Interruption ε
  | .invalid => .refused .invalidArchive
  | .other e => .failed (.archive e)

/-- What becomes of an archive that is not unpacked. -/
def ofUnpack : UnpackError ε → Interruption ε
  | .system e => .failed (.access (.system e))
  | .archive e => ofArchive e

end Interruption

namespace Service

variable {ε : Type}

/-- What a request for a route asks for. -/
inductive Route
  /-- Whether the service is there. -/
  | health
  /-- The declarations that refer to a name. -/
  | find
  /-- The hierarchy of all declarations. -/
  | graph
deriving Repr, DecidableEq

namespace Route

/-- All the routes. -/
def all : List Route := [health, find, graph]

/-- The path of a route. -/
def path : Route → String
  | health => "/health"
  | find => "/find"
  | graph => "/graph"

/-- The method of a route. -/
def method : Route → String
  | health => "GET"
  | find => "POST"
  | graph => "POST"

/-- The route of a path, whatever slashes end it. -/
def ofPath? (path : String) : Option Route :=
  all.find? fun r => r.path = path || r.path = Text.trimEnd (· = '/') path

end Route

/-- The answer that tells only how it went. -/
def bare (status : Nat) : Response := ⟨status, none⟩

/-- The answer of a request that went well. -/
def success (body : Json) : Response := ⟨200, some body⟩

/-- The answer to a refused upload. -/
def refuse (r : Refusal) : Response := ⟨400, some (.obj [("detail", .str r.detail)])⟩

/-- The code for a request whose parameters are wrong. -/
def invalidStatus : Nat := 422

/-- The uploaded content holds nothing. -/
def isEmptyContent : UploadContent → Bool
  | .raw bytes => bytes.isEmpty
  | .entries _ => false

/-- The upload of a request; a file without name and content is none. -/
def uploadOf (request : Request) : Option Upload :=
  request.upload.filter fun u => !(u.name = "" && isEmptyContent u.content)

/-- The request sends content without the name of a file. -/
def isNameless (request : Request) : Bool := (uploadOf request).any (·.name = "")

/-- The entries of an uploaded archive. -/
def entriesOf (read : ArchiveReader ε) (upload : Option Upload) :
    Except (Interruption ε) (List (PackedEntry ε)) :=
  match upload with
  | none => .error (.refused .noFile)
  | some u =>
    if !".zip".toList.isSuffixOf (Text.lower u.name).toList then .error (.refused .wrongName)
    else match u.content with
      | .entries l => .ok (l.map (·.packed))
      | .raw bytes =>
        if bytes.isEmpty then .error (.refused .emptyArchive)
        else (read bytes).mapError .ofArchive

/-- The disk that archives are unpacked on. -/
def scratch : Disk := ⟨.directory [("scratch", .directory [])], []⟩

/-- The directory that an archive is unpacked to. -/
def unpackRoot : Path := ⟨.root, ["scratch", "repo"]⟩

/-- The files of an archive: a search on them, and the directory that they are in. -/
def prepare (tokens : Tokenizer) (env : Environment) (entries : List (PackedEntry ε)) :
    Except (Interruption ε) (Search tokens × Path) := do
  let disk ← (Archive.unpack unpackRoot entries scratch).mapError .ofUnpack
  let top ← (Archive.topDirectory unpackRoot disk).mapError (.failed ∘ .access ∘ .system)
  let config ← (Config.ofEnvironment env).mapError (.failed ∘ .configuration)
  return (⟨LocalFiles.filesystem ⟨disk, none⟩, config⟩, top)

/-- A path as it is written below a directory, which it must lie below. -/
def relativePath (top : Path) (path : String) : Except (ServiceFailure ε) String :=
  match (Path.ofText path).relativeTo? top with
  | some parts => .ok (Path.mk .relative parts).toText
  | none => .error (.outside path top)

/-- The declaration with its path relative to a directory. -/
def relativeTo (top : Path) (d : Declaration) : Except (ServiceFailure ε) Declaration := do
  return { d with path := ← relativePath top d.path }

/-- The attributes of a node with its path, if it tells one, relative to a directory. -/
def relativeAttributes (top : Path) (attributes : Entries Json) :
    Except (ServiceFailure ε) (Entries Json) := do
  match attributes.find? "path" with
  | some (.str path) =>
    if path = "" then return attributes
    else return attributes.put "path" (.str (← relativePath top path))
  | _ => return attributes

/-- A node with its path, if it tells one, relative to a directory. -/
def relativeNode (top : Path) (node : String × Entries Json) :
    Except (ServiceFailure ε) (String × Entries Json) := do
  return (node.1, ← relativeAttributes top node.2)

/-- The graph with the paths of its nodes relative to a directory. -/
def relativeGraph (top : Path) (g : Hierarchy) : Except (ServiceFailure ε) Hierarchy := do
  return { g with nodes := ← g.nodes.mapM (relativeNode top) }

/-- The answer that lists the declarations found. -/
def foundJson (target : String) (relation : Relation) (ds : List Declaration) : Json :=
  .obj [("target", .str target), ("relation", .str relation.word), ("count", .int ds.length),
    ("results", .arr (ds.map (·.toJson)))]

/-- Answers the search for a name in an archive. -/
def find (tokens : Tokenizer) (env : Environment) (target : String) (relation : Relation)
    (entries : List (PackedEntry ε)) : Except (Interruption ε) Response := do
  let (search, top) ← prepare tokens env entries
  let ds ← (search.find top target relation).mapError (.failed ∘ .access)
  let found ← (ds.mapM (relativeTo top)).mapError .failed
  return success (foundJson target relation found)

/-- Answers with the hierarchy of an archive. -/
def graph (tokens : Tokenizer) (env : Environment) (entries : List (PackedEntry ε)) :
    Except (Interruption ε) Response := do
  let (search, top) ← prepare tokens env entries
  let ds ← (search.scanDirectory top).mapError (.failed ∘ .access)
  let g ← (relativeGraph top (Hierarchy.ofDeclarations ds)).mapError .failed
  return success g.toJson

/-- What becomes of a request: a refused upload is answered as well. -/
def settle : Except (Interruption ε) Response → Except (ServiceFailure ε) Response
  | .ok response => .ok response
  | .error (.refused r) => .ok (refuse r)
  | .error (.failed e) => .error e

/-- The answer from the entries of an archive, unless the upload is refused. -/
def withEntries (read : ArchiveReader ε) (request : Request)
    (use : List (PackedEntry ε) → Except (Interruption ε) Response) :
    Except (ServiceFailure ε) Response :=
  settle (entriesOf read (uploadOf request) >>= use)

/-- The target of a search, which must not be empty. -/
def targetOf (request : Request) : Option String :=
  (request.params.find? "target").filter (· ≠ "")

/-- The relation of a search, which is that of parents unless another is asked for. -/
def relationOf (request : Request) : Option Relation :=
  match request.params.find? "relation" with
  | none => some .extending
  | some word => Relation.ofWord? word

/-- The answer of a route to a request with the right method. -/
def answerAt (tokens : Tokenizer) (read : ArchiveReader ε) (env : Environment) (request : Request) :
    Route → Except (ServiceFailure ε) Response
  | .health => .ok (success (.obj [("status", .str "ok")]))
  | .find =>
    match targetOf request, relationOf request, isNameless request with
    | some target, some relation, false =>
      withEntries read request (find tokens env target relation)
    | _, _, _ => .ok (bare invalidStatus)
  | .graph =>
    if isNameless request then .ok (bare invalidStatus)
    else withEntries read request (graph tokens env)

/-- The answer to a request.  Tokens and the entries of archives are made by what the program has
for it, unless something else is told. -/
def answer (env : Environment) (request : Request) (tokens : Tokenizer := Php.tokens)
    (read : ArchiveReader ε := Archive.readEmpty) : Except (ServiceFailure ε) Response :=
  match Route.ofPath? request.path with
  | none => .ok (bare 404)
  | some route =>
    if route.method = request.method then answerAt tokens read env request route
    else .ok (bare 405)

end Service
end ClassLineage
