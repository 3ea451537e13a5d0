/-!
# Artifacts

The result of a render: directories in directories, with source files as leaves. The
entries of a directory stay in the order in which they were first needed, and an
entry is never replaced. An operation either does all it says or fails and reports
what is in the way; it yields the artifact as it is afterwards in both cases.
-/

namespace DeclPrinter

/-- What an entry of an artifact is. -/
inductive MediaType where
  /-- A directory. -/
  | directory
  /-- The directory of a module. -/
  | moduleDirectory
  /-- Source text of a media type such as `text/x-go`. -/
  | source (mime : String)
  deriving DecidableEq, Repr, Inhabited

/-- A source file. -/
structure Leaf where
  /-- What it is. -/
  mediaType : MediaType
  /-- Its text. -/
  content : String
  deriving DecidableEq, Repr, Inhabited

mutual

/-- A directory with named entries in order. -/
inductive Directory where
  | mk (mediaType : MediaType) (entries : List (String × Entry))

/-- What a directory holds under a name. -/
inductive Entry where
  | directory (directory : Directory)
  | leaf (leaf : Leaf)

end

deriving instance Repr, Inhabited, BEq for Directory, Entry

/-- The path of an entry that is in the way of another. -/
structure Obstacle where
  /-- The path, its segments joined by slashes. -/
  path : String
  deriving DecidableEq, Repr, Inhabited

/-- Segments joined by slashes. -/
def joinPath (segments : List String) : String :=
  "/".intercalate segments

namespace Directory

/-- What the directory is. -/
def mediaType : Directory → MediaType
  | .mk mediaType _ => mediaType

/-- The entries in order. -/
def entries : Directory → List (String × Entry)
  | .mk _ entries => entries

/-- A directory without entries. -/
def empty : Directory :=
  .mk .directory []

/-- The names of the entries in order. -/
def names (directory : Directory) : List String :=
  directory.entries.map (·.1)

/-- The entry of a name. -/
def get? (directory : Directory) (name : String) : Option Entry :=
  directory.entries.lookup name

/-- Puts an entry under a name: in place of the entry there, or at the end. -/
def put (directory : Directory) (name : String) (entry : Entry) : Directory :=
  .mk directory.mediaType <|
    if (directory.get? name).isSome then
      directory.entries.map fun old => if old.1 == name then (name, entry) else old
    else directory.entries ++ [(name, entry)]

/-- The directory as what it is asked to be; being a plain directory asks for no
change. -/
def mark (directory : Directory) (mediaType : MediaType) : Directory :=
  if mediaType = .directory then directory else .mk mediaType directory.entries

/-- Ensures a chain of directories below this one; the last becomes what `mediaType`
says. `above` are the segments that lead here. -/
def ensure (above : List String) (mediaType : MediaType) :
    List String → Directory → Except Obstacle Unit × Directory
  | [], directory => (.ok (), directory)
  | segment :: rest, directory =>
    match directory.get? segment with
    | some (.leaf _) => (.error ⟨joinPath (above ++ [segment])⟩, directory)
    | found =>
      let child := match found with
        | some (.directory child) => child
        | _ => empty
      let marked := if rest.isEmpty then child.mark mediaType else child
      let (result, filled) := marked.ensure (above ++ [segment]) mediaType rest
      (result, directory.put segment (.directory filled))

/-- Puts a leaf into a directory below this one, under a name that nothing has yet.
`above` are the segments that lead here. A segment that is not a directory fails. -/
def insert (above : List String) (name : String) (leaf : Leaf) :
    List String → Directory → Except Obstacle Unit × Directory
  | [], directory =>
    match directory.get? name with
    | some _ => (.error ⟨joinPath (above ++ [name])⟩, directory)
    | none => (.ok (), directory.put name (.leaf leaf))
  | segment :: rest, directory =>
    match directory.get? segment with
    | some (.directory child) =>
      let (result, filled) := child.insert (above ++ [segment]) name leaf rest
      (result, directory.put segment (.directory filled))
    | _ => (.error ⟨segment⟩, directory)

/-- The entry at the end of a chain of names. -/
def find? (directory : Directory) : List String → Option Entry
  | [] => none
  | [name] => directory.get? name
  | name :: rest =>
    match directory.get? name with
    | some (.directory child) => child.find? rest
    | _ => none

end Directory

/-- A path one name further down; the name stands alone below the empty path. -/
def belowPath (path name : String) : String :=
  if path.isEmpty then name else path ++ "/" ++ name

mutual

/-- The leaves of a directory with their full paths, depth first. -/
def Directory.leavesBelow (path : String) : Directory → List (String × Leaf)
  | .mk _ entries => Entry.leavesOf path entries

/-- The leaves of one entry. -/
def Entry.leavesAt (path : String) : Entry → List (String × Leaf)
  | .leaf leaf => [(path, leaf)]
  | .directory directory => directory.leavesBelow path

/-- The leaves of entries of the directory at `path`. -/
def Entry.leavesOf (path : String) : List (String × Entry) → List (String × Leaf)
  | [] => []
  | (name, entry) :: rest => entry.leavesAt (belowPath path name) ++ Entry.leavesOf path rest

end

mutual

/-- The directories in a directory with their full paths, each before those in it. -/
def Directory.directoriesBelow (path : String) : Directory → List (String × MediaType)
  | .mk _ entries => Entry.directoriesOf path entries

/-- The directories that an entry is or holds. -/
def Entry.directoriesAt (path : String) : Entry → List (String × MediaType)
  | .leaf _ => []
  | .directory directory => (path, directory.mediaType) :: directory.directoriesBelow path

/-- The directories that entries of the directory at `path` are or hold. -/
def Entry.directoriesOf (path : String) : List (String × Entry) → List (String × MediaType)
  | [] => []
  | (name, entry) :: rest =>
    entry.directoriesAt (belowPath path name) ++ Entry.directoriesOf path rest

end

/-- A tree of directories with source files. -/
structure Artifact where
  /-- The directory at the top. -/
  root : Directory
  deriving Repr, Inhabited, BEq

namespace Artifact

/-- The artifact without entries. -/
def empty : Artifact :=
  ⟨.empty⟩

/-- Ensures that a chain of directories exists. The last becomes what `mediaType`
says; those made on the way to it are plain directories. -/
def ensureDirectory (artifact : Artifact) (segments : List String) (mediaType : MediaType) :
    Except Obstacle Unit × Artifact :=
  let (result, root) := artifact.root.ensure [] mediaType segments
  (result, ⟨root⟩)

/-- Adds a leaf to a directory, which is made if it is missing. The name must be new
there. -/
def addLeaf (artifact : Artifact) (segments : List String) (name : String) (leaf : Leaf) :
    Except Obstacle Unit × Artifact :=
  match artifact.ensureDirectory segments .directory with
  | (.error obstacle, ensured) => (.error obstacle, ensured)
  | (.ok (), ensured) =>
    let (result, root) := ensured.root.insert [] name leaf segments
    (result, ⟨root⟩)

/-- The names in a path that slashes separate. -/
def pathNames (path : String) : List String :=
  ((path.toList.splitOnP (· == '/')).filter (!·.isEmpty)).map String.ofList

/-- The entry at a path. -/
def get? (artifact : Artifact) (path : String) : Option Entry :=
  artifact.root.find? (pathNames path)

/-- The text of the leaf at a path. -/
def text? (artifact : Artifact) (path : String) : Option String :=
  match artifact.get? path with
  | some (.leaf leaf) => some leaf.content
  | _ => none

/-- The leaves with their paths, depth first in the order of the entries. -/
def leaves (artifact : Artifact) : List (String × Leaf) :=
  artifact.root.leavesBelow ""

/-- The directories with their paths, each before those in it. -/
def directories (artifact : Artifact) : List (String × MediaType) :=
  artifact.root.directoriesBelow ""

end Artifact

end DeclPrinter
