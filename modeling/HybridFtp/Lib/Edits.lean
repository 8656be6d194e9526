import HybridFtp.Lib.Moving
import Mathlib.Logic.Function.Basic

/-!
# Edits

A file system as a map from locations to what is there, and what can be done to the map: a
directory is made, an entry is unlinked, and a tree is moved.

* `Edit.apply`: the map after an edit;
* `node_make`, `node_unlink`, `node_move`: what the operations of a file system do is an
  edit of its map.
-/

namespace HybridFtp

/-- What can be done to the locations. -/
inductive Edit (ν δ : Type)
  | make (l : List ν) (attributes : δ)
  | unlink (l : List ν)
  | move (s d : List ν)

/-- What is at the locations after an edit. -/
def Edit.apply {ν δ β : Type} [DecidableEq ν] :
    Edit ν δ → (List ν → Option (Node ν δ β)) → List ν → Option (Node ν δ β)
  | make l attributes, node => Function.update node l (some (.dir attributes))
  | unlink l, node => Function.update node l none
  | move s d, node => fun l =>
    if d <+: l then node (s ++ l.drop d.length) else if s <+: l then none else node l

namespace FileSystem

variable {ν δ β : Type} [DecidableEq ν] {fs fs' : FileSystem ν δ β} {s d l : List ν} {n : ν}

/-- There is nothing below what is no directory. -/
theorem node_eq_none_of_below (hdir : ¬fs.IsDir d) (hbelow : d <+: l) (hne : d ≠ l) :
    fs.node l = none := by
  by_contra hsome
  have hparent := isDir_of_prefix hsome hbelow hne
  exact hdir hparent

/-- Nor is there anything below an empty directory. -/
theorem node_eq_none_of_empty (hempty : fs.names d = []) (hbelow : d <+: l) (hne : d ≠ l) :
    fs.node l = none := by
  by_contra hsome
  exact (names_ne_nil_above hsome hbelow hne).2 hempty

/-- What is unlinked is not there any more, nor is anything below it. -/
theorem node_alter_none (hs : s ≠ []) (hnode : fs.node s ≠ none) (hl : s <+: l) :
    (fs.alter (fun _ => none) s).node l = none := by
  obtain ⟨s, n, rfl⟩ := (List.eq_nil_or_concat s).resolve_left hs
  rw [List.concat_eq_append] at hnode hl ⊢
  obtain ⟨r, rfl⟩ := hl
  have hget : (fs.alter (fun _ => none) (s ++ [n])).get (s ++ [n]) = none :=
    get_alter_append _ (isDir_of_node_append hnode)
  rw [node, get, Tree.get_append, ← get, hget]
  rfl

theorem node_make {attributes : δ} (hdir : fs.IsDir d) (hn : fs.node (d ++ [n]) = none) :
    (fs.alter (fun _ => some (.dir attributes [])) (d ++ [n])).node =
      (Edit.make (d ++ [n]) attributes).apply fs.node := by
  funext l
  have hget : (fs.alter (fun _ => some (.dir attributes [])) (d ++ [n])).get (d ++ [n]) =
      some (.dir attributes []) := get_alter_append _ hdir
  rw [Edit.apply]
  rcases eq_or_ne l (d ++ [n]) with rfl | hne
  · rw [Function.update_self, node, hget]
    rfl
  · rw [Function.update_of_ne hne]
    by_cases hbelow : d ++ [n] <+: l
    · have hempty : (fs.alter (fun _ => some (.dir attributes [])) (d ++ [n])).names (d ++ [n]) =
          [] := by
        rw [names, hget]
        rfl
      have hnot : ¬fs.IsDir (d ++ [n]) := by
        rw [isDir_iff, hn]
        simp
      rw [node_eq_none_of_empty hempty hbelow hne.symm, node_eq_none_of_below hnot hbelow hne.symm]
    · rw [node_alter_of_not_below _ hbelow]

theorem node_unlink (hl : l ≠ []) (hnode : fs.node l ≠ none) (hempty : fs.IsDir l → fs.names l = []) :
    (fs.alter (fun _ => none) l).node = (Edit.unlink l).apply fs.node := by
  funext l'
  rw [Edit.apply]
  rcases eq_or_ne l' l with rfl | hne
  · rw [Function.update_self, node_alter_none hl hnode List.prefix_rfl]
  · rw [Function.update_of_ne hne]
    by_cases hbelow : l <+: l'
    · rw [node_alter_none hl hnode hbelow]
      by_cases hdir : fs.IsDir l
      · rw [node_eq_none_of_empty (hempty hdir) hbelow hne.symm]
      · rw [node_eq_none_of_below hdir hbelow hne.symm]
    · rw [node_alter_of_not_below _ hbelow]

theorem node_move (hdir : fs.IsDir d) (habove : ¬s <+: d) (hnode : fs.node s ≠ none) :
    (fs.move s (d ++ [n])).node = (Edit.move s (d ++ [n])).apply fs.node := by
  have hs : s ≠ [] := by
    rintro rfl
    exact habove List.nil_prefix
  funext l
  rw [Edit.apply]
  dsimp only
  split_ifs with hbelow hsl
  · obtain ⟨r, rfl⟩ := hbelow
    rw [List.drop_left, node_move_append hdir habove]
  · rw [move, node_alter_of_not_below _ hbelow, node_alter_none hs hnode hsl]
  · rw [move, node_alter_of_not_below _ hbelow, node_alter_of_not_below _ hsl]

end FileSystem

end HybridFtp
