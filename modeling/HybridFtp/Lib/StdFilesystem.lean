import HybridFtp.Lib.Resolution

/-!
# `std::filesystem`

The operations of `std::filesystem` on absolute paths in normal form, as libstdc++
has them on Linux. They give `none` if they fail with an error code. What a new
directory is made with is a parameter.

* `status`, `pathExists`, `isDirectory`, `isRegularFile`, `canonical`,
  `weaklyCanonical`: what the program tests;
* `createDirectory`, `createDirectories`, `remove`, `rename`, `writeFile`: what it
  changes;
* `resolve_of_weaklyCanonical`: a weakly canonical path that exists is canonical;
* `isDir_remove`, `isDir_rename`, `isDir_writeFile`: which directories stay.
-/

namespace HybridFtp

/-- The types of files the program tells apart. -/
inductive FileType
  | notFound
  | regular
  | directory
  | unknown
  deriving DecidableEq, Repr

/-- `fs::status` of a node that no link leads to. -/
def Node.fileType {ν δ β : Type} : Node ν δ β → FileType
  | .dir _ => .directory
  | .file _ => .regular
  | .link _ | .special => .unknown

namespace FileSystem

variable {ν δ β : Type} [DecidableEq ν] (fs : FileSystem ν δ β)

/-! ## Tests -/

/-- `status`: what a path leads to. -/
def status (p : NormalPath ν) : Option FileType :=
  match fs.resolve true p with
  | .found l => (fs.node l).map Node.fileType
  | .absent .. | .notFound | .notDirectory => some .notFound
  | .tooManyLinks => none

/-- `exists` -/
def pathExists (p : NormalPath ν) : Option Bool := (fs.status p).map fun t => t ≠ .notFound

/-- `is_directory` -/
def isDirectory (p : NormalPath ν) : Option Bool :=
  (fs.status p).bind fun t => if t = .notFound then none else some (t = .directory)

/-- `is_regular_file` -/
def isRegularFile (p : NormalPath ν) : Option Bool :=
  (fs.status p).bind fun t => if t = .notFound then none else some (t = .regular)

/-- The regular file that a path leads to. -/
def fileAt (p : NormalPath ν) : Option β :=
  match fs.resolve true p with
  | .found l =>
    match fs.node l with
    | some (.file data) => some data
    | some (.dir _) | some (.link _) | some .special | none => none
  | .absent .. | .notFound | .notDirectory | .tooManyLinks => none

/-- `canonical` -/
def canonical (p : NormalPath ν) : Option (NormalPath ν) :=
  match fs.resolve true p with
  | .found l => some { names := l }
  | .absent .. | .notFound | .notDirectory | .tooManyLinks => none

/-- The leading names of a path that exist, after those in `done`, and the others. -/
def leading : List ν → List ν → Option (List ν × List ν)
  | done, [] => some (done, [])
  | done, n :: rest =>
    match fs.status { names := done ++ [n] } with
    | none => none
    | some .notFound => some (done, n :: rest)
    | some .regular | some .directory | some .unknown => leading (done ++ [n]) rest

/-- `weakly_canonical`: the canonical path of what exists, followed by the rest. -/
def weaklyCanonical (p : NormalPath ν) : Option (NormalPath ν) :=
  match fs.status p with
  | none => none
  | some .notFound =>
    (fs.leading [] p.names).bind fun (done, rest) =>
      (fs.canonical { names := done }).map fun q => { names := q.names ++ rest, slash := p.slash }
  | some .regular | some .directory | some .unknown => fs.canonical p

/-- `relative`: the way from one path to another, once they are canonical. -/
def relative (p base : NormalPath ν) : Option (List (Part ν)) :=
  (fs.weaklyCanonical p).bind fun p => (fs.weaklyCanonical base).map fun base =>
    lexicallyRelative p.names base.names

/-! ## Changes -/

/-- `mkdir`: the last name is not followed if it is a link. -/
def mkdir (attributes : δ) (p : NormalPath ν) : Option (FileSystem ν δ β) :=
  match fs.resolve false { p with slash := false } with
  | .absent l n => some (fs.alter (fun _ => some (.dir attributes [])) (l ++ [n]))
  | .found _ | .notFound | .notDirectory | .tooManyLinks => none

/-- `create_directory`: whether the directory has been created, which is no error if
    there is one already. -/
def createDirectory (attributes : δ) (p : NormalPath ν) : Option (Bool × FileSystem ν δ β) :=
  match fs.mkdir attributes p with
  | some fs' => some (true, fs')
  -- Something is in the way.
  | none => if fs.isDirectory p = some true then some (false, fs) else none

/-- `remove`: whether there was something to remove. Only an empty directory is
    removed, and a link is not followed. -/
def remove (p : NormalPath ν) : Option (Bool × FileSystem ν δ β) :=
  match fs.resolve false p with
  | .found l =>
    if l = [] ∨ fs.IsDir l ∧ fs.names l ≠ [] then none
    else some (true, fs.alter (fun _ => none) l)
  | .absent .. | .notFound => some (false, fs)
  | .notDirectory | .tooManyLinks => none

/-- The tree at `s`, moved to `d`. -/
def move (s d : List ν) : FileSystem ν δ β :=
  (fs.alter (fun _ => none) s).alter (fun _ => fs.get s) d

/-- `rename`, of a path to another without a separator at the end. Links are not
    followed: one that is in the way is replaced, as a file is by a file, and an
    empty directory by a directory. -/
def rename (p q : NormalPath ν) : Option (FileSystem ν δ β) :=
  match fs.resolve false p, fs.resolve false q with
  | .found s, .absent l n =>
    if s = [] ∨ s <+: l then none else some (fs.move s (l ++ [n]))
  | .found s, .found d =>
    if s = d then some fs
    else if s <+: d ∨ d <+: s then none
    else if fs.IsDir s then
      if fs.IsDir d ∧ fs.names d = [] then some (fs.move s d) else none
    else if fs.IsDir d then none
    else some (fs.move s d)
  | _, _ => none

/-- Opening a file to write to it, creating it if there is none, and writing. Links
    are followed, also to what is not there. -/
def writeFile (write : Option β → β) (p : NormalPath ν) : Option (FileSystem ν δ β) :=
  match fs.resolve true p with
  | .found l =>
    match fs.node l with
    | some (.file data) => some (fs.alter (fun _ => some (.file (write (some data)))) l)
    | some .special => some fs
    | some (.dir _) | some (.link _) | none => none
  | .absent l n => some (fs.alter (fun _ => some (.file (write none))) (l ++ [n]))
  | .notFound | .notDirectory | .tooManyLinks => none

/-- How many directories `create_directories` creates at most. -/
def MAX_MISSING : Nat := 1000

/-- The directories to create on the way to a directory, the last one first, looking
    for them at most `fuel` times. -/
def missing : Nat → List ν → Option (List (List ν))
  | 0, _ => none
  | fuel + 1, ns =>
    match fs.status { names := ns } with
    | none | some .regular | some .unknown => none
    | some .directory => some []
    | some .notFound => (missing fuel ns.dropLast).map (ns :: ·)

/-- The directories created one after the other, up to the first that cannot be. -/
def createAll (attributes : δ) : List (List ν) → FileSystem ν δ β → Bool × FileSystem ν δ β
  | [], fs => (true, fs)
  | ns :: rest, fs =>
    match fs.createDirectory attributes { names := ns } with
    | none => (false, fs)
    | some (_, fs') => createAll attributes rest fs'

/-- `create_directories`: whether there was no error, and what has been created. -/
def createDirectories (attributes : δ) (p : NormalPath ν) : Bool × FileSystem ν δ β :=
  match fs.status p with
  | some .directory => (true, fs)
  | none | some .regular | some .unknown => (false, fs)
  | some .notFound =>
    match fs.missing (MAX_MISSING + 1) p.names with
    | none => (false, fs)
    | some missing => createAll attributes missing.reverse fs

/-! ## What the tests tell -/

section

variable {fs} {p q : NormalPath ν} {l : List ν} {n : ν}

theorem pathExists_iff : fs.pathExists p = some true ↔ ∃ l, fs.resolve true p = .found l := by
  have hsound := fs.resolve_sound true p
  rw [pathExists, status]
  cases hr : fs.resolve true p with
  | found l =>
    rw [hr] at hsound
    obtain ⟨node, hnode⟩ := Option.ne_none_iff_exists'.1 hsound.1
    cases node <;> simp [hnode, Node.fileType]
  | absent _ _ | notFound | notDirectory | tooManyLinks => simp

theorem isDirectory_iff :
    fs.isDirectory p = some true ↔ ∃ l, fs.resolve true p = .found l ∧ fs.IsDir l := by
  have hsound := fs.resolve_sound true p
  rw [isDirectory, status]
  cases hr : fs.resolve true p with
  | found l =>
    rw [hr] at hsound
    obtain ⟨node, hnode⟩ := Option.ne_none_iff_exists'.1 hsound.1
    cases node <;> simp [hnode, Node.fileType, isDir_iff]
  | absent _ _ | notFound | notDirectory | tooManyLinks => simp

theorem isRegularFile_iff :
    fs.isRegularFile p = some true ↔
      ∃ l data, fs.resolve true p = .found l ∧ fs.node l = some (.file data) := by
  have hsound := fs.resolve_sound true p
  rw [isRegularFile, status]
  cases hr : fs.resolve true p with
  | found l =>
    rw [hr] at hsound
    obtain ⟨node, hnode⟩ := Option.ne_none_iff_exists'.1 hsound.1
    cases node <;> simp [hnode, Node.fileType]
  | absent _ _ | notFound | notDirectory | tooManyLinks => simp

/-- What is tested by the canonical path is what the path leads to. -/
theorem isDir_of_isDirectory (hl : fs.resolve true p = .found l)
    (h : fs.isDirectory { names := l } = some true) : fs.IsDir l := by
  have hsound := sound_of_resolve hl
  obtain ⟨l', hl', hdir⟩ := isDirectory_iff.1 h
  rw [resolve_found hsound] at hl'
  cases hl'
  exact hdir

theorem node_of_isRegularFile (hl : fs.resolve true p = .found l)
    (h : fs.isRegularFile { names := l } = some true) : ∃ data, fs.node l = some (.file data) := by
  have hsound := sound_of_resolve hl
  obtain ⟨l', data, hl', hnode⟩ := isRegularFile_iff.1 h
  rw [resolve_found hsound] at hl'
  cases hl'
  exact ⟨data, hnode⟩

theorem status_notFound_iff : fs.status p = some .notFound ↔ (fs.resolve true p).Missing := by
  have hsound := fs.resolve_sound true p
  rw [status]
  cases hr : fs.resolve true p with
  | found l =>
    rw [hr] at hsound
    obtain ⟨node, hnode⟩ := Option.ne_none_iff_exists'.1 hsound.1
    cases node <;> simp [hnode, Node.fileType, Resolved.Missing]
  | absent _ _ | notFound | notDirectory | tooManyLinks => simp [Resolved.Missing]

theorem pathExists_eq_false_iff : fs.pathExists p = some false ↔ (fs.resolve true p).Missing := by
  rw [← status_notFound_iff, pathExists]
  cases fs.status p <;> simp

theorem canonical_eq_some_iff :
    fs.canonical p = some q ↔ ∃ l, fs.resolve true p = .found l ∧ q = { names := l } := by
  rw [canonical]
  cases hr : fs.resolve true p <;> simp [eq_comm]

/-! ## Weakly canonical paths -/

/-- The weakly canonical path of what exists is its canonical path. -/
theorem weaklyCanonical_of_found (h : fs.resolve true p = .found l) :
    fs.weaklyCanonical p = some { names := l } := by
  have hp := canonical_eq_some_iff.2 ⟨l, h, rfl⟩
  have hne : fs.status p ≠ some .notFound := fun hp => (status_notFound_iff.1 hp).ne.2 l h
  have hsome : fs.status p ≠ none := by
    have hexists := pathExists_iff.2 ⟨l, h⟩
    intro hnone
    simp [pathExists, hnone] at hexists
  rw [weaklyCanonical]
  match hs : fs.status p with
  | none => exact absurd hs hsome
  | some .notFound => exact absurd hs hne
  | some .regular | some .directory | some .unknown => exact hp

theorem leading_spec {done rest d r : List ν} (h : fs.leading done rest = some (d, r))
    (hdone : fs.pathExists { names := done } = some true) :
    d ++ r = done ++ rest ∧ fs.pathExists { names := d } = some true ∧
      ∀ n r', r = n :: r' → fs.status { names := d ++ [n] } = some .notFound := by
  induction rest generalizing done with
  | nil =>
    cases h
    exact ⟨rfl, hdone, by simp⟩
  | cons n rest ih =>
    rw [leading] at h
    match hn : fs.status { names := done ++ [n] } with
    | none => simp [hn] at h
    | some .notFound =>
      obtain ⟨rfl, rfl⟩ : done = d ∧ n :: rest = r := by simpa [hn] using h
      refine ⟨rfl, hdone, fun m r' hr => ?_⟩
      cases hr
      exact hn
    | some .regular | some .directory | some .unknown =>
      obtain ⟨happend, hexists⟩ := ih (by simpa [hn] using h) (by simp [pathExists, hn])
      exact ⟨by simpa using happend, hexists⟩

/-- Below what does not exist, seen from where its directory leads, there is nothing
    either. -/
theorem missing_of_missing {d r : List ν} {slash : Bool}
    (hd : fs.resolve true { names := d } = .found l)
    (hn : (fs.resolve true { names := d ++ [n] }).Missing) :
    (fs.resolve true { names := l ++ n :: r, slash }).Missing := by
  have hl := fs.resolve_sound true { names := d }
  rw [hd] at hl
  by_cases hdir : fs.IsDir l
  swap
  · exact resolve_of_not_isDir hl hdir (.inl (by simp))
  -- The name is looked up in the same directory, with less links to go along.
  obtain ⟨left, hle, hleft⟩ := resolve_append hd hdir
  rw [hleft true _ _ (.inl (by simp))] at hn
  rw [← resolveFrom_mono hle hn.ne.1, List.map_singleton, if_neg Bool.false_ne_true,
    List.append_nil] at hn
  rw [resolve_eq_resolveFrom hdir, List.map_cons, List.cons_append]
  rcases eq_or_ne (r.map Part.name ++ if slash then [.self] else []) [] with hr | hr
  · rwa [hr]
  · rw [← List.singleton_append]
    refine resolveFrom_append_missing hdir hr fun r' hr' => ?_
    rw [hr'] at hn
    exact ⟨hn.ne.1, fun l' hl' => absurd hl' (hn.ne.2 l')⟩

/-- A weakly canonical path that exists is the canonical path of one that does. -/
theorem resolve_of_weaklyCanonical (h : fs.weaklyCanonical p = some q)
    (hq : fs.pathExists q = some true) : ∃ l, fs.resolve true p = .found l ∧ q = { names := l } := by
  rw [weaklyCanonical] at h
  match hp : fs.status p with
  | none => simp [hp] at h
  | some .regular | some .directory | some .unknown =>
    exact canonical_eq_some_iff.1 (by simpa [hp] using h)
  | some .notFound =>
    exfalso
    rw [hp] at h
    obtain ⟨⟨d, r⟩, hdr, h⟩ := Option.bind_eq_some_iff.1 h
    obtain ⟨q', hq', rfl⟩ := Option.map_eq_some_iff.1 h
    obtain ⟨l, hl, rfl⟩ := canonical_eq_some_iff.1 hq'
    obtain ⟨l', hl'⟩ := pathExists_iff.1 hq
    obtain ⟨happend, -, hnext⟩ := leading_spec hdr
      (pathExists_iff.2 ⟨[], resolve_isDir (isDir_nil fs) _⟩)
    have hmissing : (fs.resolve true { names := l ++ r, slash := p.slash }).Missing := by
      cases r with
      | cons n r => exact missing_of_missing hl (status_notFound_iff.1 (hnext n r rfl))
      | nil =>
        -- All the names exist: it is the separator at the end that asks for too much.
        rw [List.append_nil, List.nil_append] at happend
        subst happend
        have hp := status_notFound_iff.1 hp
        have hslash : p.slash = true := by
          by_contra hslash
          refine hp.ne.2 l ?_
          rwa [show p = { names := p.names } from NormalPath.ext rfl (Bool.not_eq_true _ ▸ hslash)]
        have hsound := sound_of_resolve hl
        by_cases hdir : fs.IsDir l
        · have hfound := resolve_slash hl hdir p.slash
          exact absurd hfound (hp.ne.2 l)
        · exact resolve_of_not_isDir hsound hdir (.inr hslash)
    rw [hl'] at hmissing
    exact hmissing

/-! ## What the changes do -/

variable {root : List ν}

/-- What is removed by its canonical path is an entry of its directory. -/
theorem changesWithin_remove (hl : fs.Sound true (.found l)) (hroot : root <+: l) (hne : l ≠ root)
    {removed : Bool} {fs' : FileSystem ν δ β} (h : fs.remove { names := l } = some (removed, fs')) :
    fs.ChangesWithin root fs' := by
  have hfound : fs.resolve false { names := l } = .found l :=
    resolve_found ⟨hl.1, fun hf => nomatch hf⟩
  simp only [remove, hfound, Option.ite_none_left_eq_some, Option.some.injEq, Prod.mk.injEq] at h
  obtain ⟨_, _, rfl⟩ := h
  rcases List.eq_nil_or_concat l with rfl | ⟨l, n, rfl⟩
  · exact absurd (List.prefix_nil.1 hroot).symm hne
  · rw [List.concat_eq_append] at hroot hne ⊢
    refine changesWithin_alter _ ?_ n fs
    exact (List.prefix_concat_iff.1 hroot).resolve_left (Ne.symm hne)

/-- What is made by `mkdir` is an entry of the directory it is made in. -/
theorem mkdir_eq_some_iff {attributes : δ} {fs' : FileSystem ν δ β} :
    fs.mkdir attributes p = some fs' ↔ ∃ l n, fs.resolve false { names := p.names } = .absent l n ∧
      fs' = fs.alter (fun _ => some (.dir attributes [])) (l ++ [n]) := by
  rw [mkdir]
  cases fs.resolve false { names := p.names } <;> simp [eq_comm]

theorem changesWithin_move {s d : List ν} {m : ν} (hs : root <+: s) (hd : root <+: d) :
    fs.ChangesWithin root (fs.move (s ++ [n]) (d ++ [m])) :=
  (changesWithin_alter _ hs n fs).trans (changesWithin_alter _ hd m _)

/-- A rename to a path in a directory moves what is renamed there, or does nothing. -/
theorem rename_cases {s ns d : List ν} {fs' : FileSystem ν δ β} (hs : fs.Sound true (.found s))
    (hd : fs.LeadsTo ns d) (h : fs.rename { names := s } { names := ns ++ [n] } = some fs') :
    fs' = fs ∨ fs' = fs.move s (d ++ [n]) := by
  have hfound : fs.resolve false { names := s } = .found s :=
    resolve_found ⟨hs.1, fun hf => nomatch hf⟩
  rw [rename, hfound, resolve_last hd.1 hd.2] at h
  by_cases hn : fs.node (d ++ [n]) = none
  · rw [if_pos hn] at h
    simp only [Option.ite_none_left_eq_some, Option.some.injEq] at h
    exact .inr h.2.symm
  · rw [if_neg hn] at h
    dsimp only at h
    split_ifs at h
    all_goals
      obtain rfl := Option.some.inj h
      first
        | exact .inl rfl
        | exact .inr rfl

/-- What is renamed from its canonical path, to a path in a directory, is an entry of
    its directory before, and one of that directory after. -/
theorem changesWithin_rename {s ns d : List ν} {fs' : FileSystem ν δ β}
    (hs : fs.Sound true (.found s)) (hroot : root <+: s) (hne : s ≠ root)
    (hd : fs.resolve true { names := ns } = .found d) (hdir : fs.IsDir d) (hroot' : root <+: d)
    (h : fs.rename { names := s } { names := ns ++ [n] } = some fs') :
    fs.ChangesWithin root fs' := by
  have hmove : fs.ChangesWithin root (fs.move s (d ++ [n])) := by
    rcases List.eq_nil_or_concat s with rfl | ⟨s, m, rfl⟩
    · exact absurd (List.prefix_nil.1 hroot).symm hne
    · rw [List.concat_eq_append] at hroot hne ⊢
      exact changesWithin_move ((List.prefix_concat_iff.1 hroot).resolve_left (Ne.symm hne)) hroot'
  rcases rename_cases hs ⟨hd, hdir⟩ h with rfl | rfl
  · exact .refl root _
  · exact hmove

/-! ## Directories that stay -/

/-- Only what is empty is removed. -/
theorem isDir_remove (hl : fs.Sound true (.found l)) {l' : List ν} (hdir : fs.IsDir l')
    (hne : l ≠ l') {removed : Bool} {fs' : FileSystem ν δ β}
    (h : fs.remove { names := l } = some (removed, fs')) : fs'.IsDir l' := by
  have hfound : fs.resolve false { names := l } = .found l :=
    resolve_found ⟨hl.1, fun hf => nomatch hf⟩
  simp only [remove, hfound, Option.ite_none_left_eq_some, Option.some.injEq, Prod.mk.injEq] at h
  obtain ⟨hempty, _, rfl⟩ := h
  refine isDir_alter _ (fun hbelow => hempty (.inr ?_)) hdir
  -- There is a way through it.
  obtain ⟨r, rfl⟩ := hbelow
  cases r with
  | nil => simp at hne
  | cons n r =>
    rw [List.append_cons] at hdir
    obtain ⟨_, hn⟩ := isDir_iff.1 (isDir_of_append hdir)
    have hnode : fs.node (l ++ [n]) ≠ none := by
      rw [hn]
      exact Option.some_ne_none _
    exact ⟨isDir_of_node_append hnode, List.ne_nil_of_mem (mem_names_of_node hnode)⟩

/-- What is renamed is not replaced by what is there. -/
theorem isDir_rename {s ns d l' : List ν} {fs' : FileSystem ν δ β}
    (hs : fs.Sound true (.found s)) (hd : fs.LeadsTo ns d)
    (hnew : (fs.resolve true { names := ns ++ [n] }).Missing)
    (h : fs.rename { names := s } { names := ns ++ [n] } = some fs') (hdir : fs.IsDir l')
    (hbelow : ¬s <+: l') : fs'.IsDir l' := by
  rcases rename_cases hs hd h with rfl | rfl
  · exact hdir
  · have hbelow' : ¬d ++ [n] <+: l' := by
      rintro ⟨r, rfl⟩
      exact hnew.ne.2 _ (hd.append (isDir_of_append hdir)).1
    exact isDir_alter _ hbelow' (isDir_alter _ hbelow hdir)

/-- What is written to is no directory. -/
theorem isDir_writeFile {write : Option β → β} {fs' : FileSystem ν δ β}
    (h : fs.writeFile write p = some fs') (hdir : fs.IsDir l) : fs'.IsDir l := by
  have hsound := fs.resolve_sound true p
  rw [writeFile] at h
  split at h
  · rename_i l' hl'
    split at h
    · rename_i data hnode
      obtain rfl := Option.some.inj h
      refine isDir_alter _ (fun hbelow => ?_) hdir
      obtain ⟨r, rfl⟩ := hbelow
      obtain ⟨_, hnode'⟩ := isDir_iff.1 (isDir_of_append hdir)
      rw [hnode] at hnode'
      cases hnode'
    · obtain rfl := Option.some.inj h
      exact hdir
    · cases h
    · cases h
    · cases h
  · rename_i l' n hl'
    rw [hl'] at hsound
    obtain rfl := Option.some.inj h
    exact (extends_alter _ hsound.2).isDir hdir
  · cases h
  · cases h
  · cases h

end

end FileSystem

end HybridFtp
