import Mathlib.Data.List.Basic

/-!
# Paths

Paths as text: a sequence of names, `.` and `..`, perhaps from the root, perhaps
with a separator at the end. The *normal form* of an absolute path has only
names left (`NormalPath`), since `..` at the root stays there.

* `NormalPath.join`: the normal form of a path appended to an absolute one;
* `NormalPath.Within`: the lexical containment of a path in a directory.
-/

namespace HybridFtp

/-- A part of a path: `.`, `..`, or a name. -/
inductive Part (ν : Type*)
  | self
  | parent
  | name (n : ν)
  deriving DecidableEq, Repr

/-- A path. -/
structure Path (ν : Type*) where
  /-- The path starts at the root. -/
  rooted : Bool := false
  parts : List (Part ν)
  /-- There is a separator after the last part. -/
  slash : Bool := false
  deriving DecidableEq, Repr

/-- An absolute path in normal form. -/
@[ext]
structure NormalPath (ν : Type*) where
  names : List ν
  slash : Bool := false
  deriving DecidableEq, Repr

namespace NormalPath

variable {ν : Type*}

/-- The normal form after one more part. What is left after a `.` or `..` ends with
    a separator, unless it is the root. -/
def append (p : NormalPath ν) : Part ν → NormalPath ν
  | .self => { p with slash := !p.names.isEmpty }
  | .parent => { names := p.names.dropLast, slash := !p.names.dropLast.isEmpty }
  | .name n => { names := p.names ++ [n] }

/-- The normal form of `p`, or of what `p` has after its root, appended to the
    directory `base`. Appending nothing leaves a separator. -/
def join (base : List ν) (p : Path ν) : NormalPath ν :=
  let q := p.parts.foldl append { names := base }
  { q with slash := (q.slash || p.slash || p.parts.isEmpty) && !q.names.isEmpty }

/-- The path without its last name, or without the separator at its end. -/
def parentPath (p : NormalPath ν) : NormalPath ν :=
  { names := if p.slash then p.names else p.names.dropLast }

/-- The last name, if there is no separator after it. -/
def filename (p : NormalPath ν) : Option ν := if p.slash then none else p.names.getLast?

theorem eq_of_filename {p : NormalPath ν} (h : p.filename ≠ none) :
    ∃ ns n, p = { names := ns ++ [n] } := by
  obtain ⟨names, slash⟩ := p
  cases slash with
  | true => exact absurd rfl h
  | false =>
    rcases List.eq_nil_or_concat names with rfl | ⟨ns, n, rfl⟩
    · exact absurd rfl h
    · exact ⟨ns, n, by rw [List.concat_eq_append]⟩

/-- The path lies in the directory `root`, name by name. -/
abbrev Within (root : List ν) (p : NormalPath ν) : Prop := root <+: p.names

theorem foldl_append_names (base ns : List ν) :
    (ns.map Part.name).foldl append { names := base } = { names := base ++ ns } := by
  induction ns generalizing base with
  | nil => rw [List.map_nil, List.foldl_nil, List.append_nil]
  | cons n ns ih =>
    rw [List.map_cons, List.foldl_cons, append, ih, List.append_assoc, List.singleton_append]

/-- Names are appended as they are. -/
theorem names_join (base ns : List ν) (rooted slash : Bool) :
    (join base { rooted, parts := ns.map .name, slash }).names = base ++ ns := by
  rw [join, foldl_append_names]

end NormalPath

/-- The way from the directory `b` to `a`. -/
def lexicallyRelative {ν : Type*} [DecidableEq ν] : List ν → List ν → List (Part ν)
  | [], [] => [.self]
  | x :: a, y :: b =>
    if x = y then lexicallyRelative a b
    else (y :: b).map (fun _ => .parent) ++ (x :: a).map .name
  | a, b => b.map (fun _ => .parent) ++ a.map .name

/-- The way to what is below a directory has the names of the path to it from there. -/
theorem lexicallyRelative_append {ν : Type*} [DecidableEq ν] (b : List ν) {r : List ν}
    (hr : r ≠ []) : lexicallyRelative (b ++ r) b = r.map .name := by
  induction b with
  | nil =>
    obtain ⟨n, r, rfl⟩ := List.exists_cons_of_ne_nil hr
    rfl
  | cons y b ih => rw [List.cons_append, lexicallyRelative, if_pos rfl, ih]

end HybridFtp
