import HybridFtp.Common.PathManager
import Mathlib.Data.List.DropRight

/-!
# What the path manager tells

The listings and the properties of files that a session gets from its path manager,
all by the canonical path of something inside the root, and the names that
`generateUniqueFilename` makes up.

* `formatListEntry`, `listDirectory`, `listNames`, `getStatus`: listings, sorted by
  name; one entry that is neither a directory nor a regular file fails all of `LIST`;
* `getFileSize`, `getModificationTime`: what is known of a regular file;
* `generateUniqueFilename`: a name with a counter, if the name itself is taken.
-/

namespace HybridFtp

/-- A number, by two digits at least. -/
def twoDigits (n : Nat) : String := if n < 10 then "0" ++ toString n else toString n

/-- `put_time` of `gmtime_r`, in the format `%Y%m%d%H%M%S`, of the seconds since the
    epoch. The days are counted from a first of March, so that leap days come last. -/
def putTime (rawTime : Int) : String :=
  let days := rawTime / 86400 + 719468
  let seconds := (rawTime % 86400).toNat
  let era := days / 146097
  let dayOfEra := (days % 146097).toNat
  let yearOfEra := (dayOfEra - dayOfEra / 1460 + dayOfEra / 36524 - dayOfEra / 146096) / 365
  let dayOfYear := dayOfEra - (365 * yearOfEra + yearOfEra / 4 - yearOfEra / 100)
  let month := (5 * dayOfYear + 2) / 153
  let day := dayOfYear - (153 * month + 2) / 5 + 1
  let year := era * 400 + yearOfEra + if month < 10 then 0 else 1
  toString year ++ twoDigits (if month < 10 then month + 3 else month - 9) ++ twoDigits day ++
    twoDigits (seconds / 3600) ++ twoDigits (seconds / 60 % 60) ++ twoDigits (seconds % 60)

/-- The last second of February in a leap year. -/
example : putTime 951868799 = "20000229235959" := by decide +kernel

namespace PathManager

/-- A name that does not end a record. -/
def sanitizeListingName (name : String) : String :=
  name.map fun c => if c = '\r' ∨ c = '\n' then '?' else c

/-- The nine permissions, from those of the owner to those of others. -/
def permissionText (permissions : Perms) : String :=
  String.ofList (("rwxrwxrwx".toList.zip [8, 7, 6, 5, 4, 3, 2, 1, 0]).map fun (c, bit) =>
    if permissions.toNat.testBit bit then c else '-')

variable (pm : PathManager) (fs : Storage)

/-- The record of what `entry` leads to. -/
def formatListEntry (entry : NormalPath String) : Option String :=
  let record (type : String) (size : Nat) (permissions : Perms) :=
    "name=" ++ sanitizeListingName entry.filenameString ++ ", type=" ++ type ++
      ", size=" ++ toString size ++ ", permissions=" ++ permissionText permissions
  match fs.resolve true entry with
  | .found l =>
    match fs.node l with
    | some (.dir permissions) => some (record "directory" 0 permissions)
    | some (.file data) => some (record "file" data.content.length data.permissions)
    | some (.link _) | some .special | none => none
  | .absent .. | .notFound | .notDirectory | .tooManyLinks => none

/-- The names of a directory, in the order of their bytes. -/
def sortedNames (l : List String) : List String := (fs.names l).mergeSort fun a b => a ≤ b

/-- The records of a directory, or that of a file, one a line. An entry without a record
    fails them all. -/
def listDirectory (path : String) : Option String :=
  match pm.canonicalTarget fs path with
  | none => none
  | some target =>
    if fs.isRegularFile target = some true then
      (formatListEntry fs target).map (· ++ "\r\n")
    else if fs.isDirectory target = some true then
      ((sortedNames fs target.names).mapM fun n =>
        formatListEntry fs { names := target.names ++ [n] }).map fun lines =>
          String.join (lines.map (· ++ "\r\n"))
    else none

/-- The names of the entries of a directory, or that of a file, one a line. -/
def listNames (path : String) : Option String :=
  match pm.canonicalTarget fs path with
  | none => none
  | some target =>
    if fs.isRegularFile target = some true then
      some (sanitizeListingName target.filenameString ++ "\r\n")
    else if fs.isDirectory target = some true then
      some (String.join ((sortedNames fs target.names).map (sanitizeListingName · ++ "\r\n")))
    else none

/-- What `STAT` tells of a path. -/
structure PathStatus where
  isDirectory : Bool
  listing : String
  deriving DecidableEq, Repr

/-- The listing of a path that is a directory or a regular file. -/
def getStatus (path : String) : Option PathStatus :=
  if path = "" then none
  else match pm.canonicalTarget fs path with
    | none => none
    | some target =>
      let isDirectory := fs.isDirectory target = some true
      if ¬isDirectory ∧ fs.isRegularFile target ≠ some true then none
      else (pm.listDirectory fs path).map fun listing => { isDirectory, listing }

/-- What is in the regular file at the path of a client. -/
def regularFile (path : String) : Option FileData :=
  if path = "" then none
  else match pm.canonicalTarget fs path with
    | none => none
    | some target => if fs.isRegularFile target = some true then fs.fileAt target else none

/-- The number of bytes in a regular file. -/
def getFileSize (path : String) : Option Nat :=
  (pm.regularFile fs path).map fun data => data.content.length

/-- The time at which a regular file was last written, in whole seconds. The clock of the
    file system and that of the system are read one after the other to convert it, in an
    order that is not fixed: the time between is added, or taken away. -/
def getModificationTime (clockSkew : Int) (path : String) : Option String :=
  (pm.regularFile fs path).map fun data =>
    putTime ((data.lastWriteTime + clockSkew).tdiv (10 ^ 9))

/-! ## Unique names -/

/-- `path.parent_path().string()` and `path.filename().string()`. The root directory
    is its own parent, and a path that ends with a separator has no filename. -/
def splitPath (path : String) : String × String :=
  let filename := path.toList.rtakeWhile (· ≠ '/')
  let parent := path.toList.rdropWhile (· ≠ '/')
  let stripped := parent.rdropWhile (· = '/')
  let dir :=
    if stripped ≠ [] then stripped
    else if filename = [] then parent
    else parent.take 1
  (String.ofList dir, String.ofList filename)

/-- `path.stem().string()` and `path.extension().string()`, of a filename. A dot in
    the first place does not start an extension. -/
def splitExtension (filename : String) : String × String :=
  let ext := filename.toList.rtakeWhile (· ≠ '.')
  let stem := (filename.toList.rdropWhile (· ≠ '.')).dropLast
  if filename = ".." ∨ stem = [] then (filename, "")
  else (String.ofList stem, String.ofList ('.' :: ext))

/-- The name with the number `counter`. -/
def numbered (baseName : String) (counter : Nat) : String :=
  let (dir, filename) := splitPath baseName
  let (stem, ext) := splitExtension filename
  let name := stem ++ "_" ++ toString counter ++ ext
  if dir = "" then name
  else if dir.toList.getLast? = some '/' then dir ++ name
  else dir ++ "/" ++ name

/-- `testName`, or the first name from number `counter` on that does not exist, among
    the next `fuel` ones. -/
def firstUnique (baseName : String) : Nat → Nat → String → String
  | 0, _, testName => testName
  | fuel + 1, counter, testName =>
    if fs.pathExists (pm.resolvePath testName) = some true then
      firstUnique baseName fuel (counter + 1) (numbered baseName counter)
    else testName

/-- How many names there are next to `path`. -/
def siblings (path : NormalPath String) : Nat :=
  match fs.resolve true { names := path.names.dropLast } with
  | .found l => (fs.names l).length
  | .absent .. | .notFound | .notDirectory | .tooManyLinks => 0

/-- The search ends: next to a numbered name, there are not more names than tried. -/
def generateUniqueFilename (baseName : String) : String :=
  pm.firstUnique fs baseName (siblings fs (pm.resolvePath (numbered baseName 1)) + 1) 1 baseName

end PathManager

end HybridFtp
