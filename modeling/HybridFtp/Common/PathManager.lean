import HybridFtp.Lib.StdFilesystem
import HybridFtp.Rdt.Header

/-!
# The path manager

`PathManager`: the paths of a session, in the sandbox of a root directory. The
current directory is inside the root by construction.

* `resolvePath`, `isInsideRoot`: the path a client asks for, and the lexical test of
  the sandbox;
* `changeDirectory`: the only way to another current directory;
* `createDirectory`, `removeDirectory`, `deleteFile`, `renamePath`: the changes of
  the file system. All but the first test the canonical path, too.
-/

namespace HybridFtp

/-- `fs::perms`: the nine permission bits. -/
abbrev Perms := UInt16

/-- What the program reads of a regular file. -/
structure FileData where
  permissions : Perms := 0o644
  content : Bytes := []
  /-- In nanoseconds since the epoch. -/
  lastWriteTime : Int := 0
  deriving DecidableEq, Repr

/-- The file system of the server. -/
abbrev Storage := FileSystem String Perms FileData

/-! ## Paths as strings -/

/-- A part of a path, by its text. -/
def Part.ofString (s : String) : Part String :=
  if s = "." then .self else if s = ".." then .parent else .name s

/-- `fs::path(input)` -/
def toPath (input : String) : Path String :=
  let parts := (input.toList.splitOn '/').filter fun part => part ≠ []
  { rooted := input.toList.head? = some '/'
    parts := parts.map fun part => Part.ofString (String.ofList part)
    slash := !parts.isEmpty && input.toList.getLast? = some '/' }

/-- The text of a part. -/
def Part.toString : Part String → String
  | .self => "."
  | .parent => ".."
  | .name n => n

/-- `path.filename().string()` -/
def NormalPath.filenameString (p : NormalPath String) : String := p.filename.getD ""

/-- `rootDirectory` and `currentDirectory`, both canonical. -/
structure PathManager where
  rootDirectory : List String
  currentDirectory : List String
  inside : rootDirectory <+: currentDirectory

namespace PathManager

variable (pm : PathManager) (fs : Storage)

/-- `PathManager(root)`, with the path of `root` made absolute. Directories are made
    with the permissions `perms`. -/
def create (perms : Perms) (root : NormalPath String) (fs : Storage) : PathManager × Storage :=
  let fs := (fs.createDirectories perms root).2
  let rootDirectory := ((fs.weaklyCanonical root).getD root).names
  ({ rootDirectory, currentDirectory := rootDirectory, inside := List.prefix_rfl }, fs)

/-- A path begins with the root directory, part by part. -/
def isInsideRoot (path : NormalPath String) : Bool := path.Within pm.rootDirectory

/-- The path that a client means: one that begins with a separator is below the root
    directory, any other below the current one. Links are not followed. -/
def resolvePath (input : String) : NormalPath String :=
  if input = "" then { names := pm.currentDirectory }
  else
    let requestedPath := toPath input
    .join (if requestedPath.rooted then pm.rootDirectory else pm.currentDirectory) requestedPath

/-- The path of a client stays below the root directory, as far as its text goes. -/
def isPathInsideRoot (path : String) : Bool := pm.isInsideRoot (pm.resolvePath path)

/-- A canonical path of something inside the root, if `path` leads there. -/
def canonicalTarget (path : String) : Option (NormalPath String) :=
  match fs.weaklyCanonical (pm.resolvePath path) with
  | none => none
  | some target =>
    if pm.isInsideRoot target ∧ fs.pathExists target = some true then some target else none

/-! ## The current directory -/

/-- `CWD`: the canonical directory becomes the current one. -/
def changeDirectory (path : String) : Bool × PathManager :=
  let target := pm.resolvePath path
  if ¬pm.isInsideRoot target then (false, pm)
  else if fs.pathExists target ≠ some true ∨ fs.isDirectory target ≠ some true then (false, pm)
  else match fs.weaklyCanonical target with
    | none => (false, pm)
    | some canonicalTarget =>
      -- A link may have led out of the root.
      if h : canonicalTarget.Within pm.rootDirectory then
        (true, { pm with currentDirectory := canonicalTarget.names, inside := h })
      else (false, pm)

/-- `CDUP`, which does not leave the root directory. -/
def changeToParentDirectory : Bool × PathManager :=
  if pm.currentDirectory = pm.rootDirectory then (false, pm) else pm.changeDirectory fs ".."

/-- The current directory, as the client is told: the root directory is `/`. -/
def getCurrentFTPPath : String :=
  if pm.currentDirectory = pm.rootDirectory then "/"
  else match fs.relative { names := pm.currentDirectory } { names := pm.rootDirectory } with
    | none => "/"
    | some parts => "/" ++ String.intercalate "/" (parts.map Part.toString)

/-! ## Changes -/

/-- `MKD`: only the path as it is written is tested to be inside the root directory. -/
def createDirectory (perms : Perms) (path : String) : Bool × Storage :=
  if path = "" then (false, fs)
  else
    let target := pm.resolvePath path
    if ¬pm.isInsideRoot target then (false, fs)
    -- An error of the test refuses the command, as something that exists does.
    else if fs.pathExists target ≠ some false then (false, fs)
    else match fs.createDirectory perms target with
      | some (created, fs') => (created, fs')
      | none => (false, fs)

/-- `RMD`, of an empty directory other than the root directory. -/
def removeDirectory (path : String) : Bool × Storage :=
  if path = "" then (false, fs)
  else
    let target := pm.resolvePath path
    if ¬pm.isInsideRoot target then (false, fs)
    else match fs.weaklyCanonical target with
      | none => (false, fs)
      | some canonicalTarget =>
        if ¬pm.isInsideRoot canonicalTarget then (false, fs)
        else if canonicalTarget = { names := pm.rootDirectory } ∨
            canonicalTarget = { names := pm.currentDirectory } then (false, fs)
        else if fs.pathExists canonicalTarget ≠ some true ∨
            fs.isDirectory canonicalTarget ≠ some true then (false, fs)
        else match fs.remove canonicalTarget with
          | some (removed, fs') => (removed, fs')
          | none => (false, fs)

/-- `DELE`, of a regular file. -/
def deleteFile (path : String) : Bool × Storage :=
  if path = "" then (false, fs)
  else
    let target := pm.resolvePath path
    if ¬pm.isInsideRoot target then (false, fs)
    else match fs.weaklyCanonical target with
      | none => (false, fs)
      | some canonicalTarget =>
        if ¬pm.isInsideRoot canonicalTarget ∨ fs.pathExists canonicalTarget ≠ some true then
          (false, fs)
        else if fs.isRegularFile canonicalTarget ≠ some true then (false, fs)
        else match fs.remove canonicalTarget with
          | some (removed, fs') => (removed, fs')
          | none => (false, fs)

/-- The root is not renamed, nor is a directory on the way to the current one. -/
def canRename (path : String) : Bool :=
  if path = "" then false
  else match fs.weaklyCanonical (pm.resolvePath path) with
    | none => false
    | some canonicalTarget =>
      if ¬pm.isInsideRoot canonicalTarget ∨ fs.pathExists canonicalTarget ≠ some true then false
      else
        let isFile := fs.isRegularFile canonicalTarget = some true
        let isDirectory := fs.isDirectory canonicalTarget = some true
        if ¬isFile ∧ ¬isDirectory then false
        else if canonicalTarget = { names := pm.rootDirectory } then false
        else if isDirectory then
          match fs.relative { names := pm.currentDirectory } canonicalTarget with
          | none => false
          -- The current directory is not below it.
          | some relativeCurrent => relativeCurrent.head? = some .parent
        else true

/-- `RNTO`: nothing may be at the new path. -/
def renamePath (oldPath newPath : String) : Bool × Storage :=
  if oldPath = "" ∨ newPath = "" ∨ ¬pm.canRename fs oldPath then (false, fs)
  else match fs.weaklyCanonical (pm.resolvePath oldPath) with
    | none => (false, fs)
    | some source =>
      if ¬pm.isInsideRoot source then (false, fs)
      else
        let destination := pm.resolvePath newPath
        if destination.filename = none ∨ ¬pm.isInsideRoot destination then (false, fs)
        else if fs.pathExists destination ≠ some false then (false, fs)
        -- The destination itself is not there yet.
        else match fs.weaklyCanonical destination.parentPath with
          | none => (false, fs)
          | some destinationParent =>
            if ¬pm.isInsideRoot destinationParent ∨ fs.pathExists destinationParent ≠ some true ∨
                fs.isDirectory destinationParent ≠ some true then (false, fs)
            else match fs.rename source destination with
              | some fs' => (true, fs')
              | none => (false, fs)

end PathManager

end HybridFtp
