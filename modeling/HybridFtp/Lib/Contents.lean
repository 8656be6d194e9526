import HybridFtp.Lib.Occupied

/-!
# Contents of files

What is in the file at a path after writing to it.

* `SetsFile.fileAt`: the file that is set is the one at the paths that lead to it;
* `fileAt_writeFile`: what has been written is there, unless the path leads to something
  that is no file;
* `status_of_createDirectories`: nor do the directories on the way make it such a thing;
* `KeepsFile`: the file at a location stays as it is, unless it is removed or written to,
  or a directory above it is renamed.
-/

namespace HybridFtp

namespace FileSystem

variable {ν δ β : Type} [DecidableEq ν] {fs fs' : FileSystem ν δ β} {l : List ν} {n : ν}
  {p : NormalPath ν} {data : β}

theorem fileAt_of_resolve (hl : fs.resolve true p = .found l) (hn : fs.node l = some (.file data)) :
    fs.fileAt p = some data := by
  rw [fileAt, hl]
  dsimp only
  rw [hn]

theorem fileAt_of_absent (h : fs.resolve true p = .absent l n) : fs.fileAt p = none := by
  rw [fileAt, h]

/-- A file is at the path that it is read from. -/
theorem fileAt_eq_some_iff :
    fs.fileAt p = some data ↔
      ∃ l, fs.resolve true p = .found l ∧ fs.node l = some (.file data) := by
  constructor
  · intro h
    rw [fileAt] at h
    split at h
    · rename_i l hl
      refine ⟨l, hl, ?_⟩
      split at h
      · rename_i hn
        rw [hn, Option.some.inj h]
      · cases h
      · cases h
      · cases h
      · cases h
    · cases h
    · cases h
    · cases h
    · cases h
  · rintro ⟨l, hl, hn⟩
    exact fileAt_of_resolve hl hn

/-- The file that is set is the one at the paths that lead to it, or to its entry. -/
theorem SetsFile.fileAt (h : fs.SetsFile fs' l n data)
    (hp : fs.resolve true p = .found (l ++ [n]) ∧ (∃ old, fs.node (l ++ [n]) = some (.file old)) ∨
      fs.resolve true p = .absent l n ∧ fs.node (l ++ [n]) = none) :
    fs'.fileAt p = some data := by
  have hnode : fs'.node (l ++ [n]) = some (.file data) := by rw [h.node, if_pos rfl]
  rcases hp with ⟨hl, old, hn⟩ | ⟨hl, hn⟩
  · refine fileAt_of_resolve ?_ hnode
    rw [h.resolve_of_file hn, hl]
  · refine fileAt_of_resolve ?_ hnode
    rcases h.resolve hn true p with ⟨_, hne⟩ | ⟨_, hfound⟩ | ⟨hmissing, _⟩
    · exact absurd hl hne
    · exact hfound
    · rw [hl] at hmissing
      cases hmissing

/-- What has been written to a file is there. -/
theorem fileAt_writeFile {write : Option β → β} (h : fs.writeFile write p = some fs')
    (hspecial : fs.status p ≠ some .unknown) : fs'.fileAt p = some (write (fs.fileAt p)) := by
  have hsound := fs.resolve_sound true p
  rw [writeFile] at h
  split at h
  · rename_i l hl
    split at h
    · rename_i data hn
      obtain rfl := Option.some.inj h
      rw [fileAt_of_resolve hl hn]
      rcases List.eq_nil_or_concat l with rfl | ⟨l, n, rfl⟩
      · rw [node_nil] at hn
        cases hn
      · rw [List.concat_eq_append] at hl hn ⊢
        have hsome : fs.node (l ++ [n]) ≠ none := by
          rw [hn]
          exact Option.some_ne_none _
        exact (setsFile_alter (isDir_of_node_append hsome) (not_isDir_of_file hn) _).fileAt (.inl ⟨hl, data, hn⟩)
    · rename_i hn
      refine absurd ?_ hspecial
      rw [status, hl]
      dsimp only
      rw [hn]
      rfl
    · cases h
    · cases h
    · cases h
  · rename_i l n hl
    rw [hl] at hsound
    obtain rfl := Option.some.inj h
    have hdir : ¬fs.IsDir (l ++ [n]) := by
      rw [isDir_iff, hsound.2]
      simp
    rw [fileAt_of_absent hl]
    exact (setsFile_alter hsound.1 hdir _).fileAt (.inr ⟨hl, hsound.2⟩)
  · cases h
  · cases h
  · cases h

/-- The directories on the way to a path make no other thing of it than a directory. -/
theorem status_of_createDirectories (attributes : δ)
    (h : (fs.createDirectories attributes p.parentPath).2.status p = some .unknown) :
    fs.status p = some .unknown := by
  rcases createDirectories_cases fs attributes p.parentPath with
    heq | ⟨d, n, rest, l, hp, hrest, hd, hn⟩
  · rwa [heq] at h
  · obtain ⟨fs₁, heq, _, _, hlast, _, hempty⟩ := createDirectories_of_leadsTo attributes hd hn hrest hp
    rw [hp] at hlast
    rw [heq] at h
    rcases eq_of_parentPath hp with rfl | ⟨m, rfl⟩
    · obtain ⟨_, hnode⟩ := isDir_iff.1 hlast.2
      rw [status, resolve_slash hlast.1 hlast.2] at h
      dsimp only at h
      rw [hnode] at h
      cases h
    · have habsent := hlast.resolve_absent (hempty m) true [] false
      rw [if_pos ⟨rfl, rfl⟩, List.append_assoc, List.cons_append] at habsent
      rw [status, habsent] at h
      cases h

/-! ## Files that stay -/

/-- The names of what is found lead to it, without a link to follow. -/
theorem resolve_false_of_found (h : fs.resolve true p = .found l) :
    fs.resolve false { names := l } = .found l := by
  have hsound := sound_of_resolve h
  exact resolve_found ⟨hsound.1, fun hf => nomatch hf⟩

/-- A file at the location stays there as it is. -/
def KeepsFile (fs fs' : FileSystem ν δ β) (l : List ν) : Prop :=
  ∀ data, fs.node l = some (.file data) → fs'.node l = some (.file data)

theorem KeepsFile.refl (fs : FileSystem ν δ β) (l : List ν) : fs.KeepsFile fs l :=
  fun _ h => h

theorem Extends.keepsFile (h : fs.Extends fs') (l : List ν) : fs.KeepsFile fs' l := by
  intro data hdata
  rw [h l (by rw [hdata]; exact Option.some_ne_none _), hdata]

/-- What is above a file is a directory that is not empty. -/
theorem names_ne_nil_above {d : List ν} (h : fs.node l ≠ none) (hd : d <+: l) (hne : d ≠ l) :
    fs.IsDir d ∧ fs.names d ≠ [] := by
  have hdir := isDir_of_prefix h hd hne
  refine ⟨hdir, ?_⟩
  obtain ⟨r, rfl⟩ := hd
  cases r with
  | nil => exact absurd (List.append_nil d).symm hne
  | cons m r =>
    have hnode : fs.node (d ++ [m]) ≠ none := by
      rcases eq_or_ne r [] with rfl | hr
      · exact h
      · have hprefix : d ++ [m] <+: d ++ m :: r := ⟨r, by simp⟩
        have hdir := isDir_of_prefix h hprefix (by simpa using hr.symm)
        obtain ⟨_, hdir⟩ := isDir_iff.1 hdir
        rw [hdir]
        exact Option.some_ne_none _
    exact List.ne_nil_of_mem (mem_names_of_node hnode)

theorem keepsFile_remove {removed : Bool} (h : fs.remove p = some (removed, fs'))
    (hne : fs.resolve false p ≠ .found l) : fs.KeepsFile fs' l := by
  intro data hdata
  rw [remove] at h
  split at h
  · rename_i d hd
    simp only [Option.ite_none_left_eq_some, Option.some.injEq, Prod.mk.injEq, not_or] at h
    obtain ⟨⟨_, hempty⟩, _, rfl⟩ := h
    rw [node_alter_of_not_below, hdata]
    intro hbelow
    refine hempty (names_ne_nil_above ?_ hbelow ?_)
    · rw [hdata]
      exact Option.some_ne_none _
    · rintro rfl
      exact hne hd
  · cases h
    exact hdata
  · cases h
    exact hdata
  · cases h
  · cases h

theorem keepsFile_writeFile {write : Option β → β} (h : fs.writeFile write p = some fs')
    (hne : fs.resolve true p ≠ .found l) : fs.KeepsFile fs' l := by
  intro data hdata
  rcases writeFile_cases h with ⟨rfl, _⟩ | ⟨d, n, new, hsets, hp⟩
  · exact hdata
  · rw [hsets.node, if_neg, hdata]
    rintro rfl
    rcases hp with ⟨hfound, _⟩ | ⟨_, hnone⟩
    · exact hne hfound
    · rw [hdata] at hnone
      cases hnone

/-- A name that leads to something other than a link leads there as well if links are
    followed. -/
theorem LeadsTo.resolve_of_sound {d : List ν} (h : fs.LeadsTo d l)
    (hsound : fs.Sound true (.found (l ++ [n]))) :
    fs.resolve true { names := d ++ [n] } = .found (l ++ [n]) := by
  obtain ⟨hsome, hlink⟩ := hsound
  obtain ⟨left, _, hleft⟩ := resolve_append h.1 h.2
  rw [hleft true [n] false (.inl (by simp))]
  refine resolveFrom_of_ends ?_
  cases hnode : fs.node (l ++ [n]) with
  | none => exact absurd hnode hsome
  | some node =>
    cases node with
    | dir attributes => simp [walk, hnode]
    | file data => simp [walk, hnode]
    | link target => exact absurd hnode (hlink rfl target)
    | special => simp [walk, hnode]

theorem LeadsTo.resolve_of_file {d : List ν} (h : fs.LeadsTo d l)
    (hn : fs.node (l ++ [n]) = some (.file data)) :
    fs.resolve true { names := d ++ [n] } = .found (l ++ [n]) :=
  h.resolve_of_sound ⟨by simp [hn], fun _ target => by simp [hn]⟩

/-- A rename to a path in a directory moves what is renamed there, which that directory is
    not in, or does nothing. -/
theorem move_of_rename {s ns d : List ν} (hs : fs.resolve false { names := s } = .found s)
    (hd : fs.LeadsTo ns d) (h : fs.rename { names := s } { names := ns ++ [n] } = some fs') :
    s = d ++ [n] ∧ fs' = fs ∨ fs' = fs.move s (d ++ [n]) ∧ ¬s <+: d := by
  rw [rename, hs, resolve_last hd.1 hd.2] at h
  by_cases hn : fs.node (d ++ [n]) = none
  · rw [if_pos hn] at h
    dsimp only at h
    rw [Option.ite_none_left_eq_some, not_or] at h
    exact .inr ⟨(Option.some.inj h.2).symm, h.1.2⟩
  · rw [if_neg hn] at h
    dsimp only at h
    by_cases heq : s = d ++ [n]
    · rw [if_pos heq] at h
      exact .inl ⟨heq, (Option.some.inj h).symm⟩
    · rw [if_neg heq, Option.ite_none_left_eq_some, not_or] at h
      have habove : ¬s <+: d := fun hsd => h.1.1 (hsd.trans (List.prefix_append d [n]))
      have hmove := h.2
      split_ifs at hmove
      · exact .inr ⟨(Option.some.inj hmove).symm, habove⟩
      · exact .inr ⟨(Option.some.inj hmove).symm, habove⟩

/-- There is no file where nothing is, nor below. -/
theorem not_below_of_missing {ns d : List ν} (hd : fs.LeadsTo ns d)
    (hmissing : (fs.resolve true { names := ns ++ [n] }).Missing)
    (hdata : fs.node l = some (.file data)) : ¬d ++ [n] <+: l := by
  intro hbelow
  rcases eq_or_ne (d ++ [n]) l with rfl | hne
  · rw [hd.resolve_of_file hdata] at hmissing
    exact hmissing
  · have hdir := isDir_of_prefix (by rw [hdata]; exact Option.some_ne_none _) hbelow hne
    rw [(hd.append hdir).1] at hmissing
    exact hmissing

/-- A rename to where nothing is keeps what it does not move. -/
theorem keepsFile_rename {s ns d : List ν} (hs : fs.resolve false { names := s } = .found s)
    (hd : fs.LeadsTo ns d) (hmissing : (fs.resolve true { names := ns ++ [n] }).Missing)
    (h : fs.rename { names := s } { names := ns ++ [n] } = some fs') (hl : ¬s <+: l) :
    fs.KeepsFile fs' l := by
  intro data hdata
  rcases move_of_rename hs hd h with ⟨_, rfl⟩ | ⟨rfl, _⟩
  · exact hdata
  · rw [move, node_alter_of_not_below _ (not_below_of_missing hd hmissing hdata),
      node_alter_of_not_below _ hl, hdata]

end FileSystem

end HybridFtp
