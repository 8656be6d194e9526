import HybridFtp.Lib.Creation

/-!
# Occupied paths

What writing to a file does to the paths that lead to something else, or to nothing
yet.

* `FileSystem.Occupied`: there is something at a path that can be written to;
* `SetsFile`: the change that is made by writing to a file (`writeFile_cases`);
* `SetsFile.resolve`: new paths lead to the file if they led to its entry before, and
  no others do;
* `extends_writeFile`: a file at a path that is not occupied is a new one;
* `occupied_createDirectories`: the directories on the way do not occupy a path.
-/

namespace HybridFtp

namespace FileSystem

variable {ν δ β : Type} [DecidableEq ν] {fs fs' : FileSystem ν δ β} {l l' : List ν} {n : ν}
  {p q : NormalPath ν}

/-- There is something at the end of the path, other than a directory. -/
def Occupied (fs : FileSystem ν δ β) (p : NormalPath ν) : Prop :=
  fs.pathExists p = some true ∧ fs.isDirectory p ≠ some true

instance (fs : FileSystem ν δ β) : DecidablePred fs.Occupied := fun p => by
  unfold Occupied
  infer_instance

theorem occupied_iff : fs.Occupied p ↔ ∃ l, fs.resolve true p = .found l ∧ ¬fs.IsDir l := by
  rw [Occupied, Ne, pathExists_iff, isDirectory_iff]
  constructor
  · rintro ⟨⟨l, hl⟩, hdir⟩
    exact ⟨l, hl, fun h => hdir ⟨l, hl, h⟩⟩
  · rintro ⟨l, hl, hdir⟩
    refine ⟨⟨l, hl⟩, ?_⟩
    rintro ⟨l', hl', hdir'⟩
    rw [hl] at hl'
    cases hl'
    exact hdir hdir'

theorem Extends.fileAt (h : fs.Extends fs') {data : β} (hp : fs.fileAt p = some data) :
    fs'.fileAt p = some data := by
  have hsound := fs.resolve_sound true p
  rw [FileSystem.fileAt] at hp ⊢
  split at hp
  · rename_i l hl
    rw [hl] at hsound
    rw [resolve_of_extends h hl]
    dsimp only
    rwa [h l hsound.1]
  · cases hp
  · cases hp
  · cases hp
  · cases hp

theorem Extends.occupied (h : fs.Extends fs') (hp : fs.Occupied p) : fs'.Occupied p := by
  obtain ⟨l, hl, hdir⟩ := occupied_iff.1 hp
  have hsound := sound_of_resolve hl
  refine occupied_iff.2 ⟨l, resolve_of_extends h hl, ?_⟩
  rwa [IsDir, h l hsound.1]

/-! ## Files that are written -/

/-- The file systems are the same, but that there is a file with `data` in the second
    one where the first one has no directory. -/
structure SetsFile (fs fs' : FileSystem ν δ β) (l : List ν) (n : ν) (data : β) : Prop where
  isDir : fs.IsDir l
  not_isDir : ¬fs.IsDir (l ++ [n])
  node : ∀ l', fs'.node l' = if l' = l ++ [n] then some (.file data) else fs.node l'

theorem setsFile_alter (hdir : fs.IsDir l) (hn : ¬fs.IsDir (l ++ [n])) (data : β) :
    fs.SetsFile (fs.alter (fun _ => some (.file data)) (l ++ [n])) l n data := by
  refine ⟨hdir, hn, fun l' => ?_⟩
  have hget := get_alter_append (fun _ => some (.file data)) (n := n) hdir
  by_cases hbelow : l ++ [n] <+: l'
  swap
  · rw [node_alter_of_not_below _ hbelow, if_neg]
    rintro rfl
    exact hbelow List.prefix_rfl
  obtain ⟨r, rfl⟩ := hbelow
  cases r with
  | nil =>
    rw [List.append_nil, if_pos rfl, FileSystem.node, hget]
    rfl
  | cons m r =>
    -- There is nothing below a file, nor has there been before.
    rw [if_neg (by simp), FileSystem.node, get, Tree.get_append, ← get, hget]
    by_contra hne
    refine hn ?_
    have hnode : fs.node (l ++ [n] ++ m :: r) ≠ none := fun hnone => hne hnone.symm
    exact isDir_of_prefix hnode (List.prefix_append _ _) (by simp)

/-- Writing sets the file that the path leads to, or makes the one it does not lead to
    yet. -/
theorem writeFile_cases {write : Option β → β} (h : fs.writeFile write p = some fs') :
    fs' = fs ∧ fs.Occupied p ∨ ∃ l n data, fs.SetsFile fs' l n data ∧
      (fs.resolve true p = .found (l ++ [n]) ∧ (∃ old, fs.node (l ++ [n]) = some (.file old)) ∨
        fs.resolve true p = .absent l n ∧ fs.node (l ++ [n]) = none) := by
  have hsound := fs.resolve_sound true p
  rw [writeFile] at h
  split at h
  · rename_i l hl
    split at h
    · rename_i data hnode
      obtain rfl := Option.some.inj h
      rcases List.eq_nil_or_concat l with rfl | ⟨l, n, rfl⟩
      · rw [node_nil] at hnode
        cases hnode
      · rw [List.concat_eq_append] at hl hnode ⊢
        have hsome : fs.node (l ++ [n]) ≠ none := by
          rw [hnode]
          exact Option.some_ne_none _
        exact .inr ⟨l, n, _, setsFile_alter (isDir_of_node_append hsome) (not_isDir_of_file hnode) _,
          .inl ⟨hl, data, hnode⟩⟩
    · -- What is neither a file nor a directory takes what is written to it.
      rename_i hnode
      obtain rfl := Option.some.inj h
      refine .inl ⟨rfl, occupied_iff.2 ⟨l, hl, ?_⟩⟩
      rw [isDir_iff, hnode]
      simp
    · cases h
    · cases h
    · cases h
  · rename_i l n hl
    rw [hl] at hsound
    obtain rfl := Option.some.inj h
    refine .inr ⟨l, n, _, setsFile_alter hsound.1 ?_ _, .inr ⟨hl, hsound.2⟩⟩
    rw [isDir_iff, hsound.2]
    simp
  · cases h
  · cases h
  · cases h

namespace SetsFile

variable {data : β} {follow : Bool} {parts : List (Part ν)} {budget : Nat}

theorem isDir_iff (h : fs.SetsFile fs' l n data) : fs'.IsDir l' ↔ fs.IsDir l' := by
  rw [FileSystem.isDir_iff, FileSystem.isDir_iff, h.node]
  split_ifs with hl'
  · subst hl'
    refine iff_of_false (by simp) ?_
    rw [← FileSystem.isDir_iff]
    exact h.not_isDir
  · rfl

/-- A walk along the entry of the file ends there. -/
theorem walk (h : fs.SetsFile fs' l n data) (follow : Bool) (l' : List ν) (parts : List (Part ν))
    (hn : fs.node (l ++ [n]) = none) :
    fs'.walk follow l' parts = fs.walk follow l' parts ∧
        fs.walk follow l' parts ≠ .ends (.absent l n) ∨
      fs.walk follow l' parts = .ends (.absent l n) ∧
        fs'.walk follow l' parts = .ends (.found (l ++ [n])) ∨
      fs.walk follow l' parts = .ends .notFound ∧ fs'.walk follow l' parts = .ends .notDirectory := by
  induction parts generalizing l' with
  | nil => exact .inl ⟨rfl, by simp [FileSystem.walk]⟩
  | cons part parts ih =>
    cases part with
    | self => exact ih l'
    | parent => exact ih l'.dropLast
    | name m =>
      simp only [FileSystem.walk, h.node]
      by_cases hm : l' ++ [m] = l ++ [n]
      · obtain ⟨rfl, hlast⟩ := List.append_inj' hm rfl
        cases hlast
        rw [if_pos rfl, hn]
        cases parts with
        | nil => exact .inr (.inl ⟨rfl, rfl⟩)
        | cons part parts => exact .inr (.inr ⟨rfl, rfl⟩)
      · rw [if_neg hm]
        cases hnode : fs.node (l' ++ [m]) with
        | none =>
          refine .inl ⟨rfl, ?_⟩
          dsimp only
          split_ifs
          · rintro heq
            obtain ⟨rfl, rfl⟩ : l' = l ∧ m = n := by simpa using heq
            exact hm rfl
          · simp
        | some node =>
          cases node with
          | dir => exact ih _
          | link | file | special =>
            refine .inl ⟨rfl, ?_⟩
            dsimp only
            split_ifs <;> simp

theorem resolveFrom (h : fs.SetsFile fs' l n data) (hn : fs.node (l ++ [n]) = none)
    (budget : Nat) (l' : List ν) (parts : List (Part ν)) :
    fs'.resolveFrom follow budget l' parts = fs.resolveFrom follow budget l' parts ∧
        fs.resolveFrom follow budget l' parts ≠ .absent l n ∨
      fs.resolveFrom follow budget l' parts = .absent l n ∧
        fs'.resolveFrom follow budget l' parts = .found (l ++ [n]) ∨
      fs.resolveFrom follow budget l' parts = .notFound ∧
        fs'.resolveFrom follow budget l' parts = .notDirectory := by
  induction budget generalizing l' parts with
  | zero =>
    rcases h.walk follow l' parts hn with ⟨hw, hne⟩ | ⟨hw, hw'⟩ | ⟨hw, hw'⟩
    · cases hwalk : fs.walk follow l' parts with
      | ends r =>
        rw [hwalk] at hw hne
        rw [resolveFrom_of_ends hw, resolveFrom_of_ends hwalk]
        exact .inl ⟨rfl, fun heq => hne (congrArg _ heq)⟩
      | link l₁ target rest =>
        rw [resolveFrom_of_link_zero (hw.trans hwalk), resolveFrom_of_link_zero hwalk]
        exact .inl ⟨rfl, by simp⟩
    · exact .inr (.inl ⟨resolveFrom_of_ends hw, resolveFrom_of_ends hw'⟩)
    · exact .inr (.inr ⟨resolveFrom_of_ends hw, resolveFrom_of_ends hw'⟩)
  | succ budget ih =>
    rcases h.walk follow l' parts hn with ⟨hw, hne⟩ | ⟨hw, hw'⟩ | ⟨hw, hw'⟩
    · cases hwalk : fs.walk follow l' parts with
      | ends r =>
        rw [hwalk] at hw hne
        rw [resolveFrom_of_ends hw, resolveFrom_of_ends hwalk]
        exact .inl ⟨rfl, fun heq => hne (congrArg _ heq)⟩
      | link l₁ target rest =>
        rw [resolveFrom_of_link (hw.trans hwalk), resolveFrom_of_link hwalk]
        exact ih _ _
    · exact .inr (.inl ⟨resolveFrom_of_ends hw, resolveFrom_of_ends hw'⟩)
    · exact .inr (.inr ⟨resolveFrom_of_ends hw, resolveFrom_of_ends hw'⟩)

/-- A path leads to the file if it has led to its entry, and to no other place than
    before otherwise. -/
theorem resolve (h : fs.SetsFile fs' l n data) (hn : fs.node (l ++ [n]) = none)
    (follow : Bool) (p : NormalPath ν) :
    fs'.resolve follow p = fs.resolve follow p ∧ fs.resolve follow p ≠ .absent l n ∨
      fs.resolve follow p = .absent l n ∧ fs'.resolve follow p = .found (l ++ [n]) ∨
      fs.resolve follow p = .notFound ∧ fs'.resolve follow p = .notDirectory :=
  h.resolveFrom hn MAXSYMLINKS [] _

/-- What is in a file does not matter to where paths lead. -/
theorem walk_of_file {old : β} (h : fs.SetsFile fs' l n data)
    (hn : fs.node (l ++ [n]) = some (.file old)) (follow : Bool) (l' : List ν)
    (parts : List (Part ν)) : fs'.walk follow l' parts = fs.walk follow l' parts := by
  induction parts generalizing l' with
  | nil => rfl
  | cons part parts ih =>
    cases part with
    | self => exact ih l'
    | parent => exact ih l'.dropLast
    | name m =>
      simp only [FileSystem.walk, h.node, ih]
      by_cases hm : l' ++ [m] = l ++ [n]
      · rw [if_pos hm, hm, hn]
      · rw [if_neg hm]

theorem resolve_of_file {old : β} (h : fs.SetsFile fs' l n data)
    (hn : fs.node (l ++ [n]) = some (.file old)) (follow : Bool) (p : NormalPath ν) :
    fs'.resolve follow p = fs.resolve follow p := by
  rw [FileSystem.resolve, FileSystem.resolve]
  generalize MAXSYMLINKS = budget, ([] : List ν) = l', p.names.map Part.name ++ _ = parts
  induction budget generalizing l' parts with
  | zero => rw [FileSystem.resolveFrom, FileSystem.resolveFrom, h.walk_of_file hn]
  | succ budget ih =>
    rw [FileSystem.resolveFrom, FileSystem.resolveFrom, h.walk_of_file hn]
    cases fs.walk follow l' parts with
    | ends r => rfl
    | link l₁ target rest => exact ih _ _

end SetsFile

/-- The entry that a file at a path is made as, if there is none yet. -/
def newEntry (fs : FileSystem ν δ β) (p : NormalPath ν) : Option (List ν × ν) :=
  match fs.resolve true p with
  | .absent l n => some (l, n)
  | .found _ | .notFound | .notDirectory | .tooManyLinks => none

theorem newEntry_of_absent (h : fs.resolve true p = .absent l n) :
    fs.newEntry p = some (l, n) := by
  rw [newEntry, h]

section

variable {write : Option β → β} (h : fs.writeFile write p = some fs')
include h

/-- There is something at the path that has been written to. -/
theorem occupied_writeFile : fs'.Occupied p := by
  rcases writeFile_cases h with
    ⟨rfl, hp⟩ | ⟨l, n, data, hset, ⟨hl, old, hn⟩ | ⟨hl, hn⟩⟩
  · exact hp
  · refine occupied_iff.2 ⟨l ++ [n], by rw [hset.resolve_of_file hn, hl], ?_⟩
    rw [hset.isDir_iff]
    exact hset.not_isDir
  · refine occupied_iff.2 ⟨l ++ [n], ?_, ?_⟩
    · rcases hset.resolve hn true p with ⟨_, hne⟩ | ⟨_, hfound⟩ | ⟨hmissing, _⟩
      · exact absurd hl hne
      · exact hfound
      · rw [hmissing] at hl
        cases hl
    · rw [hset.isDir_iff]
      exact hset.not_isDir

/-- What has been occupied stays so. -/
theorem Occupied.writeFile (hq : fs.Occupied q) : fs'.Occupied q := by
  rcases writeFile_cases h with
    ⟨rfl, _⟩ | ⟨l, n, data, hset, ⟨_, old, hn⟩ | ⟨_, hn⟩⟩
  · exact hq
  · obtain ⟨l', hl', hdir⟩ := occupied_iff.1 hq
    refine occupied_iff.2 ⟨l', by rw [hset.resolve_of_file hn, hl'], ?_⟩
    rwa [hset.isDir_iff]
  · obtain ⟨l', hl', hdir⟩ := occupied_iff.1 hq
    refine occupied_iff.2 ⟨l', ?_, by rwa [hset.isDir_iff]⟩
    rcases hset.resolve hn true q with ⟨heq, _⟩ | ⟨habsent, _⟩ | ⟨hmissing, _⟩
    · rw [heq, hl']
    · rw [habsent] at hl'
      cases hl'
    · rw [hmissing] at hl'
      cases hl'

/-- A path is newly occupied only if the file is made as the entry of it. -/
theorem occupied_or_of_occupied_writeFile (hq : fs'.Occupied q) :
    fs.Occupied q ∨ ∃ entry, fs.newEntry p = some entry ∧ fs.newEntry q = some entry := by
  obtain ⟨l', hl', hdir⟩ := occupied_iff.1 hq
  rcases writeFile_cases h with
    ⟨rfl, _⟩ | ⟨l, n, data, hset, ⟨_, old, hn⟩ | ⟨hl, hn⟩⟩
  · exact .inl hq
  · rw [hset.resolve_of_file hn] at hl'
    rw [hset.isDir_iff] at hdir
    exact .inl (occupied_iff.2 ⟨l', hl', hdir⟩)
  · rw [hset.isDir_iff] at hdir
    rcases hset.resolve hn true q with ⟨heq, _⟩ | ⟨habsent, _⟩ | ⟨_, hmissing⟩
    · rw [heq] at hl'
      exact .inl (occupied_iff.2 ⟨l', hl', hdir⟩)
    · exact .inr ⟨(l, n), newEntry_of_absent hl, newEntry_of_absent habsent⟩
    · rw [hmissing] at hl'
      cases hl'

/-- A file at a path that is not occupied is a new one. -/
theorem extends_writeFile (hp : ¬fs.Occupied p) : fs.Extends fs' := by
  rcases writeFile_cases h with
    ⟨rfl, hoccupied⟩ | ⟨l, n, data, hset, ⟨hl, old, hn⟩ | ⟨_, hn⟩⟩
  · exact absurd hoccupied hp
  · exact absurd (occupied_iff.2 ⟨_, hl, hset.not_isDir⟩) hp
  · intro l' hl'
    rw [hset.node, if_neg]
    rintro rfl
    exact hl' hn

end

/-- The directories that are created on the way to a path do not occupy it. -/
theorem occupied_createDirectories (attributes : δ) (p : NormalPath ν) :
    (fs.createDirectories attributes p.parentPath).2.Occupied p ↔ fs.Occupied p := by
  rcases createDirectories_cases fs attributes p.parentPath with
    heq | ⟨d, n, rest, l, hp, hrest, hd, hn⟩
  · rw [heq]
  · obtain ⟨fs₁, heq, _, _, hlast, _, hempty⟩ := createDirectories_of_leadsTo attributes hd hn hrest hp
    rw [hp] at hlast
    rw [heq, occupied_iff, occupied_iff]
    -- The path leads nowhere before, and not to a file after.
    rcases eq_of_parentPath hp with rfl | ⟨m, rfl⟩
    · rw [resolve_slash hlast.1 hlast.2, hd.resolve_absent hn, if_neg (by simp)]
      refine iff_of_false ?_ (by simp)
      rintro ⟨_, hfound, hdir⟩
      cases hfound
      exact hdir hlast.2
    · have habsent := hlast.resolve_absent (hempty m) true [] false
      rw [if_pos ⟨rfl, rfl⟩, List.append_assoc, List.cons_append] at habsent
      rw [habsent, hd.resolve_absent hn, if_neg (by simp)]
      simp

end FileSystem

end HybridFtp
