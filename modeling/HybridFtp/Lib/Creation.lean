import HybridFtp.Lib.StdFilesystem

/-!
# Creating directories and files

Where `create_directories` makes entries, and a file that is opened to write to it,
told from the file system before.

* `CreatesInside`, `WritesInside`: they are entries of directories in a directory;
* `AddsDirectories`: what is there stays, and what is new is a directory;
* `createDirectories_of_leadsTo`, `createDirectories_cases`: what is created, one
  directory in the other, and that nothing is otherwise;
* `changesWithin_createDirectories`, `changesWithin_writeFile`: nothing else
  changes.
-/

namespace HybridFtp

namespace FileSystem

variable {ν δ β : Type} [DecidableEq ν] {fs fs' : FileSystem ν δ β} {root d l : List ν} {n : ν}
  {p : NormalPath ν}

/-- What `create_directories` creates is in `root`: if some names of the path lead to a
    directory without an entry of the next name, then to one in `root`, or there are too
    many names left. -/
def CreatesInside (fs : FileSystem ν δ β) (root : List ν) (p : NormalPath ν) : Prop :=
  ∀ d n rest l, p.names = d ++ n :: rest → rest.length < MAX_MISSING → fs.LeadsTo d l →
    fs.node (l ++ [n]) = none → root <+: l

/-- What is written to, along the last link, too, is in `root`. -/
def WritesInside (fs : FileSystem ν δ β) (root : List ν) (p : NormalPath ν) : Prop :=
  match fs.resolve true p with
  | .found l => ∀ data, fs.node l = some (.file data) → root <+: l.dropLast
  | .absent l _ => root <+: l
  | .notFound | .notDirectory | .tooManyLinks => True

/-! ## One directory -/

/-- The names of a directory are looked up in the one that contains it, and there is
    nothing in it yet. -/
theorem createDirectory_of_leadsTo (attributes : δ) (hd : fs.LeadsTo d l)
    (hn : fs.node (l ++ [n]) = none) :
    ∃ fs', fs.createDirectory attributes { names := d ++ [n] } = some (true, fs') ∧
      fs.Extends fs' ∧ fs.ChangesWithin l fs' ∧ fs'.LeadsTo (d ++ [n]) (l ++ [n]) ∧
      ∀ m, fs'.node (l ++ [n] ++ [m]) = none := by
  have habsent : fs.resolve false { names := d ++ [n] } = .absent l n := by
    rw [hd.resolve_absent hn false [] false, if_pos ⟨rfl, rfl⟩]
  have hext := extends_alter (fun _ => some (.dir attributes [])) hn
  have hget := get_alter_append (fun _ => some (.dir attributes [])) (n := n) hd.2
  refine ⟨_, ?_, hext, changesWithin_alter _ List.prefix_rfl n fs,
    (hd.of_extends hext).append ?_, fun m => ?_⟩
  · rw [createDirectory, mkdir_eq_some_iff.2 ⟨l, n, habsent, rfl⟩]
  · rw [isDir_iff, node, hget]
    exact ⟨attributes, rfl⟩
  · rw [node, get, Tree.get_append, ← get, hget]
    rfl

/-- What is there stays, and what is new is a directory. -/
structure AddsDirectories (fs fs' : FileSystem ν δ β) : Prop where
  kept : fs.Extends fs'
  isDir : ∀ l, fs.node l = none → fs'.node l ≠ none → fs'.IsDir l

theorem AddsDirectories.refl (fs : FileSystem ν δ β) : fs.AddsDirectories fs :=
  ⟨.refl fs, fun _ hnone hsome => absurd hnone hsome⟩

theorem AddsDirectories.trans {fs₁ fs₂ : FileSystem ν δ β} (h₁ : fs.AddsDirectories fs₁)
    (h₂ : fs₁.AddsDirectories fs₂) : fs.AddsDirectories fs₂ := by
  refine ⟨h₁.kept.trans h₂.kept, fun l hnone hsome => ?_⟩
  by_cases hl : fs₁.node l = none
  · exact h₂.isDir l hl hsome
  · exact h₂.kept.isDir (h₁.isDir l hnone hl)

theorem addsDirectories_mkdir {attributes : δ} (h : fs.mkdir attributes p = some fs') :
    fs.AddsDirectories fs' := by
  obtain ⟨l, n, habsent, rfl⟩ := mkdir_eq_some_iff.1 h
  have hsound := sound_of_resolve habsent
  have hget := get_alter_append (fun _ => some (.dir attributes [])) (n := n) hsound.1
  refine ⟨extends_alter _ hsound.2, fun l' hnone hsome => ?_⟩
  obtain ⟨r, rfl⟩ : l ++ [n] <+: l' := by
    by_contra hbelow
    rw [node_alter_of_not_below _ hbelow] at hsome
    exact hsome hnone
  -- The new directory is empty.
  cases r with
  | nil =>
    rw [List.append_nil, isDir_iff, node, hget]
    exact ⟨attributes, rfl⟩
  | cons m r =>
    rw [node, get, Tree.get_append, ← get, hget] at hsome
    exact absurd rfl hsome

theorem addsDirectories_createDirectory {attributes : δ} {created : Bool}
    (h : fs.createDirectory attributes p = some (created, fs')) : fs.AddsDirectories fs' := by
  rw [createDirectory] at h
  split at h
  · rename_i fs₁ hmkdir
    cases h
    exact addsDirectories_mkdir hmkdir
  · simp only [Option.ite_none_right_eq_some, Option.some.injEq, Prod.mk.injEq] at h
    obtain ⟨_, _, rfl⟩ := h
    exact .refl fs

theorem addsDirectories_createAll (attributes : δ) (dirs : List (List ν))
    (fs : FileSystem ν δ β) : fs.AddsDirectories (createAll attributes dirs fs).2 := by
  induction dirs generalizing fs with
  | nil => exact .refl fs
  | cons ns dirs ih =>
    rw [createAll]
    split
    · exact .refl fs
    · rename_i hcreate
      exact (addsDirectories_createDirectory hcreate).trans (ih _)

/-! ## One directory in the other -/

/-- The directories on the way along some names, from the one that others lead to. -/
def chain : List ν → List ν → List (List ν)
  | _, [] => []
  | done, n :: rest => (done ++ [n]) :: chain (done ++ [n]) rest

omit [DecidableEq ν] in
theorem chain_concat (d rest : List ν) (n : ν) :
    chain d (rest ++ [n]) = chain d rest ++ [d ++ rest ++ [n]] := by
  induction rest generalizing d with
  | nil => simp [chain]
  | cons m rest ih => simp [chain, ih]

theorem createAll_chain (attributes : δ) (hd : fs.LeadsTo d l)
    (hempty : ∀ n, fs.node (l ++ [n]) = none) (rest : List ν) :
    ∃ fs', createAll attributes (chain d rest) fs = (true, fs') ∧
      fs.Extends fs' ∧ fs.ChangesWithin l fs' ∧ fs'.LeadsTo (d ++ rest) (l ++ rest) ∧
      ∀ n, fs'.node (l ++ rest ++ [n]) = none := by
  induction rest generalizing fs d l with
  | nil => exact ⟨fs, rfl, .refl fs, .refl l fs, by simpa using hd, by simpa using hempty⟩
  | cons n rest ih =>
    obtain ⟨fs₁, hcreate, hext₁, hwithin₁, hd₁, hempty₁⟩ :=
      createDirectory_of_leadsTo attributes hd (hempty n)
    obtain ⟨fs₂, hall, hext₂, hwithin₂, hd₂, hempty₂⟩ := ih hd₁ hempty₁
    refine ⟨fs₂, ?_, hext₁.trans hext₂, hwithin₁.trans (hwithin₂.mono (List.prefix_append l [n])),
      by simpa using hd₂, by simpa using hempty₂⟩
    rw [chain, createAll, hcreate]
    exact hall

/-- The directories to create are those after the last that is there. -/
theorem missing_append (hd : fs.status { names := d } = some .directory) {rest : List ν}
    (hrest : ∀ r, r ≠ [] → r <+: rest → fs.status { names := d ++ r } = some .notFound)
    {fuel : Nat} (hfuel : rest.length < fuel) :
    fs.missing fuel (d ++ rest) = some (chain d rest).reverse := by
  induction rest using List.reverseRecOn generalizing fuel with
  | nil =>
    obtain ⟨fuel, rfl⟩ := Nat.exists_eq_add_of_lt hfuel
    rw [List.length_nil, Nat.zero_add, missing, List.append_nil, hd]
    rfl
  | append_singleton rest n ih =>
    obtain ⟨fuel, rfl⟩ := Nat.exists_eq_add_of_lt hfuel
    have hlast := hrest (rest ++ [n]) (by simp) List.prefix_rfl
    have hfuel' : rest.length < rest.length + 1 + fuel := by omega
    have ih := ih (fun r hr hle => hrest r hr (hle.trans (List.prefix_append _ _))) hfuel'
    rw [List.length_append, List.length_singleton, missing, hlast, chain_concat,
      ← List.append_assoc, List.dropLast_concat]
    simp [ih]

/-- The directories to create are below one that is there, and the first of them is
    not. -/
theorem missing_spec {fuel : Nat} {ns : List ν} {dirs : List (List ν)}
    (h : fs.missing fuel ns = some dirs) :
    ∃ d rest, ns = d ++ rest ∧ rest.length < fuel ∧ dirs = (chain d rest).reverse ∧
      fs.status { names := d } = some .directory ∧
      ∀ n r, rest = n :: r → fs.status { names := d ++ [n] } = some .notFound := by
  induction fuel generalizing ns dirs with
  | zero => cases h
  | succ fuel ih =>
    rw [missing] at h
    match hs : fs.status { names := ns } with
    | none | some .regular | some .unknown => simp [hs] at h
    | some .directory =>
      obtain rfl : [] = dirs := by simpa [hs] using h
      exact ⟨ns, [], by simp, by simp, rfl, hs, by simp⟩
    | some .notFound =>
      rw [hs] at h
      obtain ⟨dirs, hdirs, rfl⟩ := Option.map_eq_some_iff.1 h
      obtain ⟨d, rest, happend, hlength, rfl, hd, hnext⟩ := ih hdirs
      rcases List.eq_nil_or_concat ns with rfl | ⟨ns, n, rfl⟩
      · -- The root directory is never missing.
        have hroot := status_notFound_iff.1 hs
        rw [resolve_isDir (isDir_nil fs)] at hroot
        exact hroot.elim
      · rw [List.concat_eq_append, List.dropLast_concat] at *
        subst happend
        refine ⟨d, rest ++ [n], by simp, by simpa using hlength, by simp [chain_concat], hd, ?_⟩
        intro m r hr
        cases rest with
        | nil =>
          cases hr
          simpa using hs
        | cons k rest =>
          cases hr
          exact hnext _ _ rfl

/-! ## `create_directories` -/

theorem status_of_leadsTo (hd : fs.LeadsTo d l) : fs.status { names := d } = some .directory := by
  obtain ⟨_, hl⟩ := isDir_iff.1 hd.2
  rw [status, hd.1]
  dsimp only
  rw [hl]
  rfl

theorem leadsTo_of_status (h : fs.status { names := d } = some .directory) :
    ∃ l, fs.LeadsTo d l := by
  refine isDirectory_iff.1 ?_
  rw [isDirectory, h]
  rfl

theorem status_of_absent (hd : fs.LeadsTo d l) (hn : fs.node (l ++ [n]) = none) (rest : List ν)
    (slash : Bool) : fs.status { names := d ++ n :: rest, slash } = some .notFound := by
  rw [status_notFound_iff, hd.resolve_absent hn]
  split_ifs <;> trivial

/-- Below what is absent, every directory is missing. -/
theorem missing_of_absent (hd : fs.LeadsTo d l) (hn : fs.node (l ++ [n]) = none) {rest : List ν}
    (hrest : rest.length < MAX_MISSING) :
    fs.missing (MAX_MISSING + 1) (d ++ n :: rest) = some (chain d (n :: rest)).reverse := by
  refine missing_append (status_of_leadsTo hd) (fun r hr hle => ?_) (Nat.succ_lt_succ hrest)
  rcases List.prefix_cons_iff.1 hle with rfl | ⟨r, rfl, -⟩
  · exact absurd rfl hr
  · exact status_of_absent hd hn r false

/-- What is missing is created, one directory in the other. -/
theorem createDirectories_of_leadsTo (attributes : δ) (hd : fs.LeadsTo d l)
    (hn : fs.node (l ++ [n]) = none) {rest : List ν} (hrest : rest.length < MAX_MISSING)
    (hp : p.names = d ++ n :: rest) :
    ∃ fs', fs.createDirectories attributes p = (true, fs') ∧
      fs.Extends fs' ∧ fs.ChangesWithin l fs' ∧ fs'.LeadsTo p.names (l ++ n :: rest) ∧
      fs'.node (l ++ [n]) ≠ none ∧ ∀ m, fs'.node (l ++ n :: rest ++ [m]) = none := by
  obtain ⟨names, slash⟩ := p
  obtain rfl : names = d ++ n :: rest := hp
  obtain ⟨fs₁, hcreate, hext₁, hwithin₁, hd₁, hempty₁⟩ := createDirectory_of_leadsTo attributes hd hn
  obtain ⟨fs₂, hall, hext₂, hwithin₂, hd₂, hempty₂⟩ := createAll_chain attributes hd₁ hempty₁ rest
  obtain ⟨_, hnew⟩ := isDir_iff.1 hd₁.2
  refine ⟨fs₂, ?_, hext₁.trans hext₂, hwithin₁.trans (hwithin₂.mono (List.prefix_append l [n])),
    by simpa using hd₂, ?_, by simpa using hempty₂⟩
  · rw [createDirectories, status_of_absent hd hn, missing_of_absent hd hn hrest]
    dsimp only
    rw [List.reverse_reverse, chain, createAll, hcreate]
    exact hall
  · rw [hext₂ _ (by simp [hnew]), hnew]
    exact Option.some_ne_none _

variable (fs) in
/-- Nothing is created otherwise. -/
theorem createDirectories_cases (attributes : δ) (p : NormalPath ν) :
    (fs.createDirectories attributes p).2 = fs ∨
      ∃ d n rest l, p.names = d ++ n :: rest ∧ rest.length < MAX_MISSING ∧ fs.LeadsTo d l ∧
        fs.node (l ++ [n]) = none := by
  rw [createDirectories]
  split
  · exact .inl rfl
  · exact .inl rfl
  · exact .inl rfl
  · exact .inl rfl
  split
  · exact .inl rfl
  rename_i dirs hdirs
  obtain ⟨d, rest, hp, hlength, rfl, hd, hnext⟩ := missing_spec hdirs
  rw [List.reverse_reverse]
  cases rest with
  | nil => exact .inl rfl
  | cons n rest =>
    obtain ⟨l, hl⟩ := leadsTo_of_status hd
    by_cases hn : fs.node (l ++ [n]) = none
    · exact .inr ⟨d, n, rest, l, hp, Nat.lt_of_succ_lt_succ hlength, hl, hn⟩
    · -- A link to what is not there is in the way.
      have hmkdir : fs.mkdir attributes { names := d ++ [n] } = none := by
        rw [mkdir, resolve_last hl.1 hl.2, if_neg hn]
      have hdirectory : fs.isDirectory { names := d ++ [n] } ≠ some true := by
        rw [isDirectory, hnext n rest rfl]
        simp
      refine .inl ?_
      rw [chain, createAll, createDirectory, hmkdir]
      dsimp only
      rw [if_neg hdirectory]

theorem changesWithin_createDirectories (attributes : δ) (h : fs.CreatesInside root p) :
    fs.ChangesWithin root (fs.createDirectories attributes p).2 := by
  rcases createDirectories_cases fs attributes p with
    heq | ⟨d, n, rest, l, hp, hrest, hd, hn⟩
  · rw [heq]
    exact .refl root fs
  · obtain ⟨fs', heq, _, hwithin, _⟩ := createDirectories_of_leadsTo attributes hd hn hrest hp
    rw [heq]
    exact hwithin.mono (h d n rest l hp hrest hd hn)

theorem addsDirectories_createDirectories (attributes : δ) (p : NormalPath ν) :
    fs.AddsDirectories (fs.createDirectories attributes p).2 := by
  rw [createDirectories]
  split
  · exact .refl fs
  · exact .refl fs
  · exact .refl fs
  · exact .refl fs
  · split
    · exact .refl fs
    · exact addsDirectories_createAll ..

theorem createDirectories_of_isDirectory (attributes : δ) (h : fs.isDirectory p = some true) :
    (fs.createDirectories attributes p).2 = fs := by
  have hstatus : fs.status p = some .directory := by
    rw [isDirectory, Option.bind_eq_some_iff] at h
    obtain ⟨t, ht, heq⟩ := h
    rw [Option.ite_none_left_eq_some, Option.some.injEq, decide_eq_true_eq] at heq
    rw [ht, heq.2]
  rw [createDirectories, hstatus]

/-! ## Files -/

/-- What is written to is an entry of a directory in `root`. -/
theorem changesWithin_writeFile {write : Option β → β} (h : fs.WritesInside root p)
    (hwrite : fs.writeFile write p = some fs') : fs.ChangesWithin root fs' := by
  rw [writeFile] at hwrite
  rw [WritesInside] at h
  split at hwrite
  · rename_i l hl
    rw [hl] at h
    split at hwrite
    · rename_i data hnode
      obtain rfl := Option.some.inj hwrite
      rcases List.eq_nil_or_concat l with rfl | ⟨l, n, rfl⟩
      · rw [node_nil] at hnode
        cases hnode
      · have hroot := h data hnode
        rw [List.concat_eq_append] at hroot ⊢
        rw [List.dropLast_concat] at hroot
        exact changesWithin_alter _ hroot n fs
    · obtain rfl := Option.some.inj hwrite
      exact .refl root fs
    · cases hwrite
    · cases hwrite
    · cases hwrite
  · rename_i l n hl
    rw [hl] at h
    obtain rfl := Option.some.inj hwrite
    exact changesWithin_alter _ h n fs
  · cases hwrite
  · cases hwrite
  · cases hwrite

/-- A path is written to inside `root` if that is so for some contents that make a
    difference. -/
theorem writesInside_of_changesWithin
    (h : ∀ data : Option β, ∃ write : Option β → β, some (write data) ≠ data ∧
      ∀ fs', fs.writeFile write p = some fs' → fs.ChangesWithin root fs') :
    fs.WritesInside root p := by
  have hsound := fs.resolve_sound true p
  rw [WritesInside]
  split
  · rename_i l hl
    intro data hnode
    obtain ⟨write, hne, hwrite⟩ := h (some data)
    rcases List.eq_nil_or_concat l with rfl | ⟨l, n, rfl⟩
    · rw [node_nil] at hnode
      cases hnode
    · rw [List.concat_eq_append] at hl hnode ⊢
      rw [List.dropLast_concat]
      have hdir : fs.IsDir l := isDir_of_node_append (by rw [hnode]; exact Option.some_ne_none _)
      have hwithin := hwrite _ (by rw [writeFile, hl]; dsimp only; rw [hnode])
      refine hwithin.prefix_of_node_ne (n := n) ?_
      rw [node, get_alter_append _ hdir, hnode]
      simpa [Tree.node] using hne
  · rename_i l n hl
    obtain ⟨write, -, hwrite⟩ := h none
    have hwithin := hwrite _ (by rw [writeFile, hl])
    rw [hl] at hsound
    refine hwithin.prefix_of_node_ne (n := n) ?_
    rw [node, get_alter_append _ hsound.1, hsound.2]
    simp [Tree.node]
  all_goals trivial

/-! ## A file, after the directories on the way to it -/

/-- The directories on the way to a file are created in `root`, and so is the file. -/
def StoresInside (fs : FileSystem ν δ β) (root : List ν) (p : NormalPath ν) : Prop :=
  fs.CreatesInside root p.parentPath ∧ fs.WritesInside root p

omit [DecidableEq ν] in
/-- The names of a path, from those of the directory it is in. -/
theorem eq_of_parentPath {n : ν} {rest : List ν} (h : p.parentPath.names = d ++ n :: rest) :
    p = { names := d ++ n :: rest, slash := true } ∨
      ∃ m, p = { names := d ++ n :: (rest ++ [m]) } := by
  obtain ⟨names, slash⟩ := p
  cases slash with
  | true =>
    obtain rfl : names = d ++ n :: rest := h
    exact .inl rfl
  | false =>
    obtain rfl | ⟨names, m, rfl⟩ := List.eq_nil_or_concat names
    · simp [NormalPath.parentPath] at h
    · rw [List.concat_eq_append] at h ⊢
      obtain rfl : names = d ++ n :: rest := by simpa [NormalPath.parentPath] using h
      exact .inr ⟨m, by simp⟩

/-- A file that is written to after directories have been created is in the last of
    these. -/
theorem changesWithin_writeFile_createDirectories (attributes : δ) {write : Option β → β}
    (h : fs.StoresInside root p)
    (hwrite : (fs.createDirectories attributes p.parentPath).2.writeFile write p = some fs') :
    fs.ChangesWithin root fs' := by
  refine (changesWithin_createDirectories attributes h.1).trans ?_
  refine changesWithin_writeFile ?_ hwrite
  rcases createDirectories_cases fs attributes p.parentPath with
    heq | ⟨d, n, rest, l, hp, hrest, hd, hn⟩
  · rw [heq]
    exact h.2
  · obtain ⟨fs₁, heq, _, _, hlast, _, hempty⟩ := createDirectories_of_leadsTo attributes hd hn hrest hp
    have hroot := h.1 d n rest l hp hrest hd hn
    rw [hp] at hlast
    rw [heq, WritesInside]
    rcases eq_of_parentPath hp with rfl | ⟨m, rfl⟩
    · -- The separator asks for the directory that has been created.
      rw [resolve_slash hlast.1 hlast.2]
      intro data hnode
      obtain ⟨_, hnode'⟩ := isDir_iff.1 hlast.2
      rw [hnode'] at hnode
      cases hnode
    · have habsent := hlast.resolve_absent (hempty m) true [] false
      rw [if_pos ⟨rfl, rfl⟩, List.append_assoc, List.cons_append] at habsent
      rw [habsent]
      exact hroot.trans (List.prefix_append l _)

/-- There is no other file at a path once the directories on the way have been created. -/
theorem fileAt_createDirectories (attributes : δ) (p : NormalPath ν) :
    (fs.createDirectories attributes p.parentPath).2.fileAt p = fs.fileAt p := by
  rcases createDirectories_cases fs attributes p.parentPath with
    heq | ⟨d, n, rest, l, hp, hrest, hd, hn⟩
  · rw [heq]
  · obtain ⟨fs₁, heq, _, _, hlast, _, hempty⟩ := createDirectories_of_leadsTo attributes hd hn hrest hp
    rw [hp] at hlast
    rw [heq]
    rcases eq_of_parentPath hp with rfl | ⟨m, rfl⟩
    · obtain ⟨_, hnode⟩ := isDir_iff.1 hlast.2
      rw [fileAt, resolve_slash hlast.1 hlast.2, fileAt, hd.resolve_absent hn,
        if_neg (by simp)]
      dsimp only
      rw [hnode]
    · have habsent := hlast.resolve_absent (hempty m) true [] false
      rw [if_pos ⟨rfl, rfl⟩, List.append_assoc, List.cons_append] at habsent
      rw [fileAt, habsent, fileAt, hd.resolve_absent hn, if_neg (by simp)]

/-- A file that is there before, or may be created there, needs no directories. -/
theorem createDirectories_of_resolve (attributes : δ)
    (h : fs.resolve true p ≠ .notFound) : (fs.createDirectories attributes p.parentPath).2 = fs := by
  rcases createDirectories_cases fs attributes p.parentPath with
    heq | ⟨d, n, rest, l, hp, _, hd, hn⟩
  · exact heq
  · refine absurd ?_ h
    rcases eq_of_parentPath hp with rfl | ⟨m, rfl⟩
    · rw [hd.resolve_absent hn, if_neg (by simp)]
    · rw [hd.resolve_absent hn, if_neg (by simp)]

end FileSystem

end HybridFtp
