import HybridFtp.Common.PathManager

/-!
# Reading and writing files

`FileHandler`, and the hash of a file. What may go wrong with the file that is
opened is up to the system.

* `writeBinaryFile`: a file that is opened is created or truncated, even if not all
  of the data is written; and what is still in the buffer when the file is closed may be
  lost without anybody noticing (`WriteOutcome.Flushed`).
-/

namespace HybridFtp

/-- How opening a file and writing to it ends. -/
inductive WriteOutcome
  /-- The file is not opened. -/
  | refused
  /-- All but the first bytes are lost, which the stream tells. -/
  | short (count : Nat)
  /-- All but the first bytes are lost when the file is closed, which nobody looks at. -/
  | unflushed (count : Nat)
  | complete
  deriving DecidableEq, Repr

/-- No data is lost when the file is closed. -/
def WriteOutcome.Flushed : WriteOutcome → Prop
  | .unflushed _ => False
  | .refused | .short _ | .complete => True

instance : DecidablePred WriteOutcome.Flushed
  | .unflushed _ => inferInstanceAs (Decidable False)
  | .refused | .short _ | .complete => inferInstanceAs (Decidable True)

/-- The modification time and the permissions that a file gets. -/
structure Stamp where
  permissions : Perms := 0o644
  time : Int := 0
  deriving DecidableEq, Repr

namespace FileHandler

variable (fs : Storage)

/-- `readBinaryFile`, of a file that may be `readable`. -/
def readBinaryFile (readable : Bool) (filepath : NormalPath String) : Option Bytes :=
  if readable then (fs.fileAt filepath).map FileData.content else none

/-- What is in the file after `data` has been written to it. -/
def written (stamp : Stamp) (data : Bytes) (append : Bool) (old : Option FileData) : FileData where
  permissions := (old.map FileData.permissions).getD stamp.permissions
  content := (if append then (old.map FileData.content).getD [] else []) ++ data
  lastWriteTime := stamp.time

/-- A stream that is good after all of the data has been given to it: what `write` makes of
    the file stays. -/
def wrote (write : Option FileData → FileData) (filepath : NormalPath String) : Bool × Storage :=
  match fs.writeFile write filepath with
  | none => (false, fs)
  | some fs' => (true, fs')

/-- `writeBinaryFile`, which replaces or extends what is in the file. -/
def writeBinaryFile (outcome : WriteOutcome) (stamp : Stamp) (filepath : NormalPath String)
    (data : Bytes) (append : Bool) : Bool × Storage :=
  match outcome with
  | .refused => (false, fs)
  -- What has been written stays.
  | .short count =>
    (false, (fs.writeFile (written stamp (data.take count) append) filepath).getD fs)
  | .unflushed count => wrote fs (written stamp (data.take count) append) filepath
  | .complete => wrote fs (written stamp data append) filepath

/-- There are no other ends of lines to write, where `\n` is one. -/
def writeTextFile (outcome : WriteOutcome) (stamp : Stamp) (filepath : NormalPath String)
    (content : Bytes) (append : Bool) : Bool × Storage :=
  writeBinaryFile fs outcome stamp filepath content append

theorem wrote_spec (write : Option FileData → FileData) (filepath : NormalPath String) :
    wrote fs write filepath = (false, fs) ∨
      fs.writeFile write filepath = some (wrote fs write filepath).2 := by
  rw [wrote]
  cases hwrite : fs.writeFile write filepath with
  | none => exact .inl rfl
  | some fs' => exact .inr rfl

/-- What fails without a trace, or writes to the file. -/
theorem writeBinaryFile_spec (outcome : WriteOutcome) (stamp : Stamp)
    (filepath : NormalPath String) (data : Bytes) (append : Bool) :
    writeBinaryFile fs outcome stamp filepath data append = (false, fs) ∨
      ∃ write, fs.writeFile write filepath =
        some (writeBinaryFile fs outcome stamp filepath data append).2 := by
  cases outcome with
  | refused => exact .inl rfl
  | short count =>
    rw [writeBinaryFile]
    cases hwrite : fs.writeFile (written stamp (data.take count) append) filepath with
    | none => exact .inl rfl
    | some fs' => exact .inr ⟨_, hwrite⟩
  | unflushed count => exact (wrote_spec fs _ filepath).imp_right fun hwrite => ⟨_, hwrite⟩
  | complete => exact (wrote_spec fs _ filepath).imp_right fun hwrite => ⟨_, hwrite⟩

/-- Nothing is done to the file system but a file is written to. -/
theorem writeBinaryFile_cases (outcome : WriteOutcome) (stamp : Stamp)
    (filepath : NormalPath String) (data : Bytes) (append : Bool) :
    (writeBinaryFile fs outcome stamp filepath data append).2 = fs ∨
      ∃ write, fs.writeFile write filepath =
        some (writeBinaryFile fs outcome stamp filepath data append).2 := by
  rcases writeBinaryFile_spec fs outcome stamp filepath data append with heq | hwrite
  · rw [heq]
    exact .inl rfl
  · exact .inr hwrite

variable {fs} in
theorem writeBinaryFile_complete {stamp : Stamp} {filepath : NormalPath String} {data : Bytes}
    {append : Bool} {fs' : Storage}
    (h : fs.writeFile (written stamp data append) filepath = some fs') :
    writeBinaryFile fs .complete stamp filepath data append = (true, fs') := by
  rw [writeBinaryFile, wrote, h]

end FileHandler

namespace CryptoHash

/-- A byte, by two hexadecimal digits. -/
def hexByte (b : UInt8) : String :=
  String.ofList [Nat.digitChar (b.toNat / 16), Nat.digitChar (b.toNat % 16)]

/-- `computeSHA256`, of the digest that `SHA256` finds. -/
def computeSHA256 (SHA256 : Bytes → Bytes) (data : Bytes) : String :=
  String.join ((SHA256 data).map hexByte)

/-- The hash of what is in a file; empty if it cannot be read. -/
def computeSHA256FromFile (SHA256 : Bytes → Bytes) (fs : Storage) (readable : Bool)
    (filepath : NormalPath String) : String :=
  match FileHandler.readBinaryFile fs readable filepath with
  | none => ""
  | some data => computeSHA256 SHA256 data

end CryptoHash

end HybridFtp
