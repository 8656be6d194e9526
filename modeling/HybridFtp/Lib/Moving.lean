import HybridFtp.Lib.Contents
import Mathlib.Data.Set.Function

/-!
# Files that move

What is renamed is somewhere else afterwards, and nothing else is in its place.

* `node_move_append`: a tree that is moved is the same tree;
* `FilesKept`: every file is still there, as it is, in a place of its own;
* `filesKept_rename`: so it is after a rename to where nothing is.
-/

namespace HybridFtp

namespace FileSystem

variable {ν δ β : Type} [DecidableEq ν] {fs fs' fs'' : FileSystem ν δ β} {s d l : List ν} {n : ν}
  {data : β}

/-- What is below the place that it has moved to is what was below the other one. -/
theorem node_move_append (hdir : fs.IsDir d) (hd : ¬s <+: d) (r : List ν) :
    (fs.move s (d ++ [n])).node (d ++ [n] ++ r) = fs.node (s ++ r) := by
  have hget : (fs.move s (d ++ [n])).get (d ++ [n]) = fs.get s :=
    get_alter_append _ (isDir_alter _ hd hdir)
  rw [node, get, Tree.get_append, ← get, hget, node, get, get, Tree.get_append]

/-! ## Files that are kept -/

/-- Where there are files. -/
def files (fs : FileSystem ν δ β) : Set (List ν) := {l | ∃ data, fs.node l = some (.file data)}

/-- Every file is still there, as it is, and no two of them in the same place. -/
def FilesKept (fs fs' : FileSystem ν δ β) : Prop :=
  ∃ f : List ν → List ν, Set.InjOn f fs.files ∧
    ∀ l data, fs.node l = some (.file data) → fs'.node (f l) = some (.file data)

theorem filesKept_of_keepsFile (h : ∀ l, fs.KeepsFile fs' l) : fs.FilesKept fs' :=
  ⟨id, Set.injOn_id _, h⟩

theorem FilesKept.refl (fs : FileSystem ν δ β) : fs.FilesKept fs :=
  filesKept_of_keepsFile fun l => .refl fs l

theorem FilesKept.trans (h : fs.FilesKept fs') (h' : fs'.FilesKept fs'') : fs.FilesKept fs'' := by
  obtain ⟨f, hf, hkept⟩ := h
  obtain ⟨g, hg, hkept'⟩ := h'
  refine ⟨g ∘ f, hg.comp hf ?_, fun l data hl => hkept' _ _ (hkept l data hl)⟩
  rintro l ⟨data, hl⟩
  exact ⟨data, hkept l data hl⟩

/-- A rename to where nothing is keeps every file, and the ones that it moves are where it
    moves them. -/
theorem filesKept_rename {ns : List ν} (hs : fs.resolve false { names := s } = .found s)
    (hd : fs.LeadsTo ns d) (hmissing : (fs.resolve true { names := ns ++ [n] }).Missing)
    (h : fs.rename { names := s } { names := ns ++ [n] } = some fs') : fs.FilesKept fs' := by
  rcases move_of_rename hs hd h with ⟨_, rfl⟩ | ⟨rfl, habove⟩
  · exact .refl _
  have hbelow : ∀ {l}, l ∈ fs.files → ¬d ++ [n] <+: l := by
    rintro l ⟨data, hl⟩
    exact not_below_of_missing hd hmissing hl
  refine ⟨fun l => if s <+: l then d ++ [n] ++ l.drop s.length else l, fun l hl l' hl' heq => ?_,
    fun l data hl => ?_⟩
  · dsimp only at heq
    split_ifs at heq with hsl hsl'
    · -- Both have moved.
      obtain ⟨r, rfl⟩ := hsl
      obtain ⟨r', rfl⟩ := hsl'
      rw [List.drop_left, List.drop_left] at heq
      rw [List.append_cancel_left heq]
    · exact absurd ⟨_, heq⟩ (hbelow hl')
    · exact absurd ⟨_, heq.symm⟩ (hbelow hl)
    · exact heq
  · dsimp only
    split_ifs with hsl
    · obtain ⟨r, rfl⟩ := hsl
      rw [List.drop_left, node_move_append hd.2 habove, hl]
    · rw [move, node_alter_of_not_below _ (hbelow ⟨data, hl⟩), node_alter_of_not_below _ hsl, hl]

end FileSystem

end HybridFtp
