import GameTable.Dict
import GameTable.Text.Split

/-!
# Storage

What opening a campaign needs of the place where its files are kept. `FileTree` is storage in
memory: directories and files by their place, which is the list of names from the root down to
them. The root itself is always there, and whatever has a place has the directories on the way.
-/

namespace GameTable

/-- Storage of files and directories, in a monad that keeps it. A failure is the message of the
storage. -/
class Storage (m : Type → Type) where
  isFile : String → m Bool
  isDirectory : String → m Bool
  read : String → m (Except String ByteArray)
  write : String → ByteArray → m (Except String Unit)
  /-- Creates a directory, and those that it is in, where they are missing. -/
  createDirectories : String → m (Except String Unit)
  /-- The names in a directory. -/
  names : String → m (Except String (List String))

/-- Storage is at hand also where a computation may fail in other ways. -/
instance {m : Type → Type} {ε : Type} [Monad m] [Storage m] : Storage (ExceptT ε m) where
  isFile path := ExceptT.lift (Storage.isFile path)
  isDirectory path := ExceptT.lift (Storage.isDirectory path)
  read path := ExceptT.lift (Storage.read path)
  write path content := ExceptT.lift (Storage.write path content)
  createDirectories path := ExceptT.lift (Storage.createDirectories path)
  names path := ExceptT.lift (Storage.names path)

inductive FileEntry where
  | directory
  | file (content : ByteArray)

/-- The entries by their places, names joined by a separator. -/
structure FileTree where
  entries : Dict FileEntry

namespace FileTree

def empty : FileTree := ⟨∅⟩

instance : Inhabited FileTree := ⟨empty⟩

/-! ## Places -/

/-- Follows names from a place: `.` stays and `..` goes up. -/
def follow (place : List String) : List String → List String
  | [] => place
  | name :: rest =>
    if name ∈ ["", "."] then follow place rest
    else if name = ".." then follow place.dropLast rest
    else follow (place ++ [name]) rest

/-- The place that a path leads to. -/
def placeOf (path : String) : List String := follow [] (Text.split '/' path)

def keyOf (place : List String) : String := "/".intercalate place

/-- A name has to be of moderate length and free of the null character. -/
def isName (name : String) : Bool := name.utf8ByteSize ≤ 255 && name.all (· ≠ '\x00')

def at? (t : FileTree) (place : List String) : Option FileEntry :=
  if place.isEmpty then some .directory else t.entries.get? (keyOf place)

def insert (t : FileTree) (place : List String) (e : FileEntry) : FileTree :=
  ⟨t.entries.insert (keyOf place) e⟩

/-- The places on the way to a place, the outermost first and the place itself last. -/
def way : List String → List (List String)
  | [] => []
  | name :: rest => [name] :: (way rest).map (name :: ·)

/-! ## Operations -/

def missing : String := "No such file or directory"

def notDirectory : String := "Not a directory"

def isDirectoryEntry : Option FileEntry → Bool
  | some .directory => true
  | _ => false

def isDirectory (t : FileTree) (place : List String) : Bool := isDirectoryEntry (t.at? place)

def read (t : FileTree) (place : List String) : Except String ByteArray :=
  match t.at? place with
  | some (.file content) => .ok content
  | some .directory => .error "Is a directory"
  | none => .error missing

/-- Writes a file into a directory that is there. -/
def write (t : FileTree) (place : List String) (content : ByteArray) : Except String FileTree :=
  if !place.all isName then .error "File name too long"
  else if t.isDirectory place then .error "Is a directory"
  else if t.isDirectory place.dropLast then .ok (t.insert place (.file content))
  else .error missing

/-- Creates one directory, unless it is there. -/
def createDirectory (t : FileTree) (place : List String) : Except String FileTree :=
  if !place.all isName then .error "File name too long"
  else match t.at? place with
    | some .directory => .ok t
    | some (.file _) => .error notDirectory
    | none => .ok (t.insert place .directory)

def createDirectories (t : FileTree) (place : List String) : Except String FileTree :=
  (way place).foldlM createDirectory t

/-- The places of everything that is there, in order. -/
def places (t : FileTree) : List (List String) := t.entries.keys.map (Text.split '/')

/-- The names in a directory. -/
def names (t : FileTree) (place : List String) : Except String (List String) :=
  if t.isDirectory place then
    .ok <| t.places.filterMap fun p =>
      if p.dropLast = place then p.getLast? else none
  else .error (if (t.at? place).isSome then notDirectory else missing)

/-- The paths of all files below a place, relative to it. -/
def filesBelow (t : FileTree) (place : List String) : List String :=
  t.entries.toList.filterMap fun (key, e) =>
    let p := Text.split '/' key
    match e with
    | .file _ => if place.isPrefixOf p then some (keyOf (p.drop place.length)) else none
    | .directory => none

/-- Makes a change if it succeeds. -/
def attempt (change : FileTree → Except String FileTree) : StateM FileTree (Except String Unit) :=
  fun t => match change t with
    | .ok t => (.ok (), t)
    | .error e => (.error e, t)

instance : Storage (StateM FileTree) where
  isFile path := do
    match (← get).at? (placeOf path) with
    | some (.file _) => return true
    | _ => return false
  isDirectory path := return (← get).isDirectory (placeOf path)
  read path := return (← get).read (placeOf path)
  write path content := attempt fun t => t.write (placeOf path) content
  createDirectories path := attempt fun t => t.createDirectories (placeOf path)
  names path := return (← get).names (placeOf path)

end FileTree

end GameTable
