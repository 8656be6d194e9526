import HybridFtp.Lib.FileSystem

/-!
# Resolution of paths

The location a path leads to, along symbolic links, at most as many as a budget
allows.

* `FileSystem.resolve`: where an absolute path leads;
* `resolve_sound`: it finds what is there;
* `resolve_isDir`, `resolve_child`: the names of a location lead to it;
* `resolveFrom_append`, `resolveFrom_append_missing`: where a path leads that is
  appended to another;
* `resolve_of_extends`: new entries do not change where a path leads.
-/

namespace HybridFtp

namespace FileSystem

variable {ν δ β : Type} [DecidableEq ν] {fs : FileSystem ν δ β} {l l' : List ν} {n : ν}

/-! ## Resolution -/

/-- Where a path leads. -/
inductive Resolved (ν : Type)
  | found (l : List ν)
  /-- The directory `l` has no entry `n`, the last part of the path. -/
  | absent (l : List ν) (n : ν)
  | notFound
  | notDirectory
  | tooManyLinks
  deriving DecidableEq, Repr

/-- The walk along a path, up to the next symbolic link to follow. -/
inductive Walk (ν : Type)
  | ends (r : Resolved ν)
  /-- The link is in the directory `l`, and `rest` comes after it. -/
  | link (l : List ν) (target : Path ν) (rest : List (Part ν))
  deriving DecidableEq, Repr

/-- The parts to walk along: a separator at the end asks for a directory, as a `.`
    does. -/
def walkParts (p : Path ν) : List (Part ν) := p.parts ++ if p.slash then [.self] else []

/-- The walk from the directory `l`. A link at the end of the path is only followed
    if `follow` says so. -/
def walk (fs : FileSystem ν δ β) (follow : Bool) : List ν → List (Part ν) → Walk ν
  | l, [] => .ends (.found l)
  | l, .self :: rest => fs.walk follow l rest
  | l, .parent :: rest => fs.walk follow l.dropLast rest
  | l, .name n :: rest =>
    match fs.node (l ++ [n]) with
    | none => .ends (if rest.isEmpty then .absent l n else .notFound)
    | some (.dir _) => fs.walk follow (l ++ [n]) rest
    | some (.link target) =>
      if rest.isEmpty && !follow then .ends (.found (l ++ [n])) else .link l target rest
    | some (.file _) | some .special =>
      .ends (if rest.isEmpty then .found (l ++ [n]) else .notDirectory)

/-- Where a path leads from the directory `l`, if it goes along at most `budget`
    links. -/
def resolveFrom (fs : FileSystem ν δ β) (follow : Bool) : Nat → List ν → List (Part ν) → Resolved ν
  | 0, l, parts =>
    match fs.walk follow l parts with
    | .ends r => r
    | .link .. => .tooManyLinks
  | budget + 1, l, parts =>
    match fs.walk follow l parts with
    | .ends r => r
    | .link l target rest =>
      fs.resolveFrom follow budget (if target.rooted then [] else l) (walkParts target ++ rest)

/-- How many symbolic links a path may go along. -/
def MAXSYMLINKS : Nat := 40

/-- Where an absolute path in normal form leads. -/
def resolve (fs : FileSystem ν δ β) (follow : Bool) (p : NormalPath ν) : Resolved ν :=
  fs.resolveFrom follow MAXSYMLINKS [] (p.names.map .name ++ if p.slash then [.self] else [])

/-! ## What a resolution finds -/

variable {follow : Bool} {parts rest : List (Part ν)} {budget : Nat}

/-- A resolution is sound: it finds what is there, which is no link if links are
    followed, or that the last part is not. -/
def Sound (fs : FileSystem ν δ β) (follow : Bool) : Resolved ν → Prop
  | .found l => fs.node l ≠ none ∧ (follow = true → ∀ target, fs.node l ≠ some (.link target))
  | .absent l n => fs.IsDir l ∧ fs.node (l ++ [n]) = none
  | .notFound | .notDirectory | .tooManyLinks => True

theorem sound_found_of_isDir (h : fs.IsDir l) : fs.Sound follow (.found l) := by
  obtain ⟨_, hl⟩ := isDir_iff.1 h
  exact ⟨by simp [hl], fun _ target => by simp [hl]⟩

theorem isDir_dropLast (h : fs.IsDir l) : fs.IsDir l.dropLast := by
  rcases List.eq_nil_or_concat l with rfl | ⟨l, n, rfl⟩
  · exact h
  · obtain ⟨_, hl⟩ := isDir_iff.1 h
    rw [List.concat_eq_append] at hl ⊢
    rw [List.dropLast_concat]
    exact isDir_of_node_append (n := n) (by simp [hl])

theorem walk_sound (follow : Bool) (parts : List (Part ν)) (h : fs.IsDir l) :
    match fs.walk follow l parts with
    | .ends r => fs.Sound follow r
    | .link l _ _ => fs.IsDir l := by
  induction parts generalizing l with
  | nil => exact sound_found_of_isDir h
  | cons part parts ih =>
    cases part with
    | self => exact ih h
    | parent => exact ih (isDir_dropLast h)
    | name n =>
      rw [walk]
      match hn : fs.node (l ++ [n]) with
      | none =>
        dsimp only
        split_ifs
        · exact ⟨h, hn⟩
        · trivial
      | some (.dir attributes) => exact ih (isDir_iff.2 ⟨attributes, hn⟩)
      | some (.link target) =>
        dsimp only
        split_ifs with hfollow
        · -- The link is not followed.
          refine ⟨by simp [hn], fun hf => ?_⟩
          simp [hf] at hfollow
        · exact h
      | some (.file data) | some .special =>
        dsimp only
        split_ifs
        · exact ⟨by simp [hn], fun _ target => by simp [hn]⟩
        · trivial

theorem resolveFrom_of_ends {r : Resolved ν} (h : fs.walk follow l parts = .ends r) :
    fs.resolveFrom follow budget l parts = r := by
  cases budget <;> rw [resolveFrom, h]

theorem resolveFrom_of_link_zero {target : Path ν} (h : fs.walk follow l parts = .link l' target rest) :
    fs.resolveFrom follow 0 l parts = .tooManyLinks := by
  rw [resolveFrom, h]

theorem resolveFrom_of_link {target : Path ν} (h : fs.walk follow l parts = .link l' target rest) :
    fs.resolveFrom follow (budget + 1) l parts =
      fs.resolveFrom follow budget (if target.rooted then [] else l') (walkParts target ++ rest) := by
  rw [resolveFrom, h]

theorem resolveFrom_sound (h : fs.IsDir l) :
    fs.Sound follow (fs.resolveFrom follow budget l parts) := by
  induction budget generalizing l parts with
  | zero =>
    have hw := walk_sound follow parts h
    cases hwalk : fs.walk follow l parts with
    | ends r =>
      rw [hwalk] at hw
      rwa [resolveFrom_of_ends hwalk]
    | link l' target rest =>
      rw [resolveFrom_of_link_zero hwalk]
      trivial
  | succ budget ih =>
    have hw := walk_sound follow parts h
    cases hwalk : fs.walk follow l parts with
    | ends r =>
      rw [hwalk] at hw
      rwa [resolveFrom_of_ends hwalk]
    | link l' target rest =>
      rw [hwalk] at hw
      rw [resolveFrom_of_link hwalk]
      refine ih ?_
      split_ifs
      · exact isDir_nil fs
      · exact hw

theorem resolve_sound (follow : Bool) (p : NormalPath ν) : fs.Sound follow (fs.resolve follow p) :=
  resolveFrom_sound (isDir_nil fs)

theorem sound_of_resolve {follow : Bool} {p : NormalPath ν} {r : Resolved ν}
    (h : fs.resolve follow p = r) : fs.Sound follow r := by
  rw [← h]
  exact fs.resolve_sound follow p

/-! ## Resolving what is appended to a path -/

theorem isDir_of_append {r : List ν} (h : fs.IsDir (l ++ r)) : fs.IsDir l := by
  rcases eq_or_ne r [] with rfl | hr
  · rwa [List.append_nil] at h
  · obtain ⟨_, hnode⟩ := isDir_iff.1 h
    exact isDir_of_prefix (by simp [hnode]) (List.prefix_append l r) (by simpa using hr)

/-- The names of a directory lead to it. -/
theorem walk_names {ns : List ν} (h : fs.IsDir (l ++ ns)) :
    fs.walk follow l (ns.map .name ++ rest) = fs.walk follow (l ++ ns) rest := by
  induction ns generalizing l with
  | nil => rw [List.map_nil, List.nil_append, List.append_nil]
  | cons n ns ih =>
    rw [List.append_cons] at h ⊢
    obtain ⟨_, hn⟩ := isDir_iff.1 (isDir_of_append h)
    rw [List.map_cons, List.cons_append, walk, hn]
    exact ih h

theorem resolveFrom_congr {parts' : List (Part ν)}
    (h : fs.walk follow l parts = fs.walk follow l' parts') (budget : Nat) :
    fs.resolveFrom follow budget l parts = fs.resolveFrom follow budget l' parts' := by
  cases budget <;> rw [resolveFrom, resolveFrom, h]

/-- The path leads nowhere, but not for the number of its links. -/
def Resolved.Missing : Resolved ν → Prop
  | .absent .. | .notFound | .notDirectory => True
  | .found _ | .tooManyLinks => False

omit [DecidableEq ν] in
theorem Resolved.Missing.ne {r : Resolved ν} (h : r.Missing) :
    r ≠ .tooManyLinks ∧ ∀ l, r ≠ .found l := by
  cases r <;> simp_all [Missing]

/-- What a walk that follows links does, tells what a longer one does. -/
theorem walk_append (follow : Bool) (parts : List (Part ν)) (h : fs.IsDir l) (hrest : rest ≠ []) :
    match fs.walk true l parts with
    | .ends (.found l') =>
      if fs.IsDir l' then fs.walk follow l (parts ++ rest) = fs.walk follow l' rest
      else fs.walk follow l (parts ++ rest) = .ends .notDirectory
    | .ends _ => ∃ r : Resolved ν, fs.walk follow l (parts ++ rest) = .ends r ∧ r.Missing
    | .link l' target rest' =>
      fs.walk follow l (parts ++ rest) = .link l' target (rest' ++ rest) := by
  have hempty : ∀ parts : List (Part ν), (parts ++ rest).isEmpty = false := by
    intro parts
    simp [hrest]
  induction parts generalizing l with
  | nil => simp [walk, h]
  | cons part parts ih =>
    cases part with
    | self => exact ih h
    | parent => exact ih (isDir_dropLast h)
    | name n =>
      simp only [List.cons_append, walk]
      cases hn : fs.node (l ++ [n]) with
      | none =>
        simp only [hempty]
        cases parts with
        | nil => exact ⟨.notFound, rfl, trivial⟩
        | cons part parts => exact ⟨.notFound, rfl, trivial⟩
      | some node =>
        cases node with
        | dir attributes => exact ih (isDir_iff.2 ⟨attributes, hn⟩)
        | link target => simp [hempty]
        | file data | special =>
          simp only [hempty]
          cases parts with
          | nil =>
            have hdir : ¬fs.IsDir (l ++ [n]) := by
              rw [isDir_iff, hn]
              simp
            simp [hdir]
          | cons part parts => exact ⟨.notDirectory, rfl, trivial⟩

/-- What is appended to the path of a directory is resolved from there, along the
    links that are left. -/
theorem resolveFrom_append (h : fs.IsDir l) (hl' : fs.IsDir l')
    (hfound : fs.resolveFrom true budget l parts = .found l') :
    ∃ left ≤ budget, ∀ (follow : Bool) (rest : List (Part ν)), rest ≠ [] →
      fs.resolveFrom follow budget l (parts ++ rest) = fs.resolveFrom follow left l' rest := by
  induction budget generalizing l parts with
  | zero =>
    refine ⟨0, le_rfl, fun follow rest hrest => resolveFrom_congr ?_ 0⟩
    have hw := walk_append follow parts h hrest
    cases hwalk : fs.walk true l parts with
    | ends r =>
      rw [resolveFrom_of_ends hwalk] at hfound
      subst hfound
      simpa [hwalk, hl'] using hw
    | link l₁ target rest₁ =>
      rw [resolveFrom_of_link_zero hwalk] at hfound
      cases hfound
  | succ budget ih =>
    cases hwalk : fs.walk true l parts with
    | ends r =>
      rw [resolveFrom_of_ends hwalk] at hfound
      subst hfound
      refine ⟨budget + 1, le_rfl, fun follow rest hrest => resolveFrom_congr ?_ _⟩
      have hw := walk_append follow parts h hrest
      simpa [hwalk, hl'] using hw
    | link l₁ target rest₁ =>
      rw [resolveFrom_of_link hwalk] at hfound
      have hl₁ := walk_sound true parts h
      rw [hwalk] at hl₁
      obtain ⟨left, hle, hleft⟩ := ih (by split_ifs; exacts [isDir_nil fs, hl₁]) hfound
      refine ⟨left, hle.trans (Nat.le_succ _), fun follow rest hrest => ?_⟩
      have hw := walk_append follow parts h hrest
      rw [hwalk] at hw
      rw [resolveFrom_of_link hw, ← List.append_assoc, hleft follow rest hrest]

/-- Where a walk ends that follows no link any more, the longer one ends as well. -/
theorem resolveFrom_append_missing_of_ends {r : Resolved ν} (h : fs.IsDir l) (hrest : rest ≠ [])
    (hwalk : fs.walk true l parts = .ends r)
    (hmissing : r ≠ .tooManyLinks ∧ ∀ l', r = .found l' → ¬fs.IsDir l') :
    (fs.resolveFrom follow budget l (parts ++ rest)).Missing := by
  obtain ⟨hne, hdir⟩ := hmissing
  have hw := walk_append follow parts h hrest
  rw [hwalk] at hw
  cases r with
  | found l' =>
    rw [resolveFrom_of_ends (by simpa [hdir l' rfl] using hw)]
    trivial
  | absent _ _ | notFound | notDirectory | tooManyLinks =>
    obtain ⟨r, hr, hr'⟩ := hw
    rwa [resolveFrom_of_ends hr]

/-- Nothing is found below what is missing, or is no directory. -/
theorem resolveFrom_append_missing (h : fs.IsDir l) (hrest : rest ≠ [])
    (hmissing : ∀ r, fs.resolveFrom true budget l parts = r →
      r ≠ .tooManyLinks ∧ ∀ l', r = .found l' → ¬fs.IsDir l') :
    (fs.resolveFrom follow budget l (parts ++ rest)).Missing := by
  induction budget generalizing l parts with
  | zero =>
    cases hwalk : fs.walk true l parts with
    | ends r =>
      exact resolveFrom_append_missing_of_ends h hrest hwalk
        (hmissing r (resolveFrom_of_ends hwalk))
    | link l₁ target rest₁ => exact absurd rfl (hmissing _ (resolveFrom_of_link_zero hwalk)).1
  | succ budget ih =>
    cases hwalk : fs.walk true l parts with
    | ends r =>
      exact resolveFrom_append_missing_of_ends h hrest hwalk
        (hmissing r (resolveFrom_of_ends hwalk))
    | link l₁ target rest₁ =>
      have hw := walk_append follow parts h hrest
      have hl₁ := walk_sound true parts h
      rw [hwalk] at hw hl₁
      rw [resolveFrom_of_link hw, ← List.append_assoc]
      refine ih (by split_ifs; exacts [isDir_nil fs, hl₁]) fun r hr => hmissing r ?_
      rwa [resolveFrom_of_link hwalk]

/-- A walk does not count links. -/
theorem walk_ne_tooManyLinks (follow : Bool) (l : List ν) (parts : List (Part ν)) :
    fs.walk follow l parts ≠ .ends .tooManyLinks := by
  induction parts generalizing l with
  | nil => simp [walk]
  | cons part parts ih =>
    cases part with
    | self => exact ih l
    | parent => exact ih l.dropLast
    | name n =>
      rw [walk]
      match fs.node (l ++ [n]) with
      | some (.dir _) => exact ih _
      | none | some (.file _) | some (.link _) | some .special =>
        dsimp only
        split_ifs <;> simp

/-- There are not less links on a path with more appended to it. -/
theorem resolveFrom_append_tooManyLinks (h : fs.IsDir l) (hrest : rest ≠ [])
    (htoo : fs.resolveFrom true budget l parts = .tooManyLinks) :
    fs.resolveFrom follow budget l (parts ++ rest) = .tooManyLinks := by
  have hends : ∀ r, fs.walk true l parts = .ends r → r ≠ .tooManyLinks := by
    rintro r hwalk rfl
    exact walk_ne_tooManyLinks true l parts hwalk
  have hw := walk_append follow parts h hrest
  have hl₁ := walk_sound true parts h
  induction budget generalizing l parts with
  | zero =>
    cases hwalk : fs.walk true l parts with
    | ends r =>
      rw [resolveFrom_of_ends hwalk] at htoo
      exact absurd htoo (hends r hwalk)
    | link l₁ target rest₁ =>
      rw [hwalk] at hw
      exact resolveFrom_of_link_zero hw
  | succ budget ih =>
    cases hwalk : fs.walk true l parts with
    | ends r =>
      rw [resolveFrom_of_ends hwalk] at htoo
      exact absurd htoo (hends r hwalk)
    | link l₁ target rest₁ =>
      rw [hwalk] at hw hl₁
      rw [resolveFrom_of_link hwalk] at htoo
      rw [resolveFrom_of_link hw, ← List.append_assoc]
      have hdir : fs.IsDir (if target.rooted then [] else l₁) := by
        split_ifs
        · exact isDir_nil fs
        · exact hl₁
      refine ih hdir htoo ?_ (walk_append follow _ hdir hrest) (walk_sound true _ hdir)
      rintro r hwalk rfl
      exact walk_ne_tooManyLinks true _ _ hwalk

/-- More links allowed do not change where a path leads. -/
theorem resolveFrom_mono {budget' : Nat} (hle : budget ≤ budget')
    (h : fs.resolveFrom follow budget l parts ≠ .tooManyLinks) :
    fs.resolveFrom follow budget' l parts = fs.resolveFrom follow budget l parts := by
  induction budget generalizing l parts budget' with
  | zero =>
    cases hwalk : fs.walk follow l parts with
    | ends r => rw [resolveFrom_of_ends hwalk, resolveFrom_of_ends hwalk]
    | link l₁ target rest₁ => exact absurd (resolveFrom_of_link_zero hwalk) h
  | succ budget ih =>
    obtain ⟨budget', rfl⟩ := Nat.exists_eq_add_of_lt (Nat.lt_of_succ_le hle)
    cases hwalk : fs.walk follow l parts with
    | ends r => rw [resolveFrom_of_ends hwalk, resolveFrom_of_ends hwalk]
    | link l₁ target rest₁ =>
      rw [resolveFrom_of_link hwalk] at h
      rw [resolveFrom_of_link hwalk, resolveFrom_of_link hwalk]
      exact ih (by omega) h

/-! ## Resolving the names of a location -/

theorem resolve_eq_resolveFrom (h : fs.IsDir l) (ns : List ν) (slash : Bool) :
    fs.resolve follow { names := l ++ ns, slash } =
      fs.resolveFrom follow MAXSYMLINKS l (ns.map .name ++ if slash then [.self] else []) := by
  rw [resolve, List.map_append, List.append_assoc]
  exact resolveFrom_congr (walk_names h) _

theorem resolve_isDir (h : fs.IsDir l) (slash : Bool) :
    fs.resolve follow { names := l, slash } = .found l := by
  have hl : fs.resolve follow _ = _ := resolve_eq_resolveFrom h [] slash
  rw [List.append_nil] at hl
  rw [hl]
  refine resolveFrom_of_ends ?_
  cases slash <;> rfl

/-- The names of what is at a location lead to it, if it is not a link to follow. -/
theorem resolve_found (h : fs.Sound follow (.found l)) :
    fs.resolve follow { names := l } = .found l := by
  rcases List.eq_nil_or_concat l with rfl | ⟨l, n, rfl⟩
  · exact resolve_isDir (isDir_nil fs) _
  · rw [List.concat_eq_append] at h ⊢
    obtain ⟨hnode, hlink⟩ := h
    rw [resolve_eq_resolveFrom (isDir_of_node_append hnode)]
    refine resolveFrom_of_ends ?_
    simp only [List.map_singleton, Bool.false_eq_true, if_false, List.append_nil, walk]
    match hn : fs.node (l ++ [n]) with
    | none => exact absurd hn hnode
    | some (.dir _) | some (.file _) | some .special => rfl
    | some (.link target) =>
      cases follow with
      | false => rfl
      | true => exact absurd hn (hlink rfl target)

/-- The names of a location lead nowhere if there is nothing, in a directory. -/
theorem resolve_absent (h : fs.IsDir l) (hn : fs.node (l ++ [n]) = none) :
    fs.resolve follow { names := l ++ [n] } = .absent l n := by
  rw [resolve_eq_resolveFrom h]
  refine resolveFrom_of_ends ?_
  simp [walk, hn]

/-- Nothing is found below what is no directory. -/
theorem resolve_of_not_isDir {ns : List ν} {slash : Bool} (h : fs.Sound true (.found l))
    (hdir : ¬fs.IsDir l) (hne : ns ≠ [] ∨ slash = true) :
    (fs.resolve follow { names := l ++ ns, slash }).Missing := by
  rw [resolve, List.map_append, List.append_assoc]
  refine resolveFrom_append_missing (isDir_nil fs) ?_ fun r hr => ?_
  · rcases hne with hne | rfl <;> simp [*]
  · have hl := resolve_found h
    simp only [resolve, Bool.false_eq_true, if_false, List.append_nil] at hl
    rw [hl] at hr
    subst hr
    refine ⟨by simp, fun l' hl' => ?_⟩
    cases hl'
    exact hdir

/-- What is appended to the path of a directory is resolved from there. -/
theorem resolve_append {d : List ν} (hd : fs.resolve true { names := d } = .found l)
    (hdir : fs.IsDir l) :
    ∃ left ≤ MAXSYMLINKS, ∀ (follow : Bool) (ns : List ν) (slash : Bool), ns ≠ [] ∨ slash = true →
      fs.resolve follow { names := d ++ ns, slash } =
        fs.resolveFrom follow left l (ns.map .name ++ if slash then [.self] else []) := by
  simp only [resolve, Bool.false_eq_true, if_false, List.append_nil] at hd
  obtain ⟨left, hle, hleft⟩ := resolveFrom_append (isDir_nil fs) hdir hd
  refine ⟨left, hle, fun follow ns slash hne => ?_⟩
  rw [resolve, List.map_append, List.append_assoc, hleft]
  rcases hne with hne | rfl <;> simp [*]

/-- A separator at the end of the path of a directory does not matter. -/
theorem resolve_slash {d : List ν} (hd : fs.resolve true { names := d } = .found l)
    (hdir : fs.IsDir l) (slash : Bool) :
    fs.resolve true { names := d, slash } = .found l := by
  cases slash with
  | false => exact hd
  | true =>
    obtain ⟨left, _, hleft⟩ := resolve_append hd hdir
    have hself := hleft true [] true (.inr rfl)
    rw [List.append_nil] at hself
    rw [hself]
    exact resolveFrom_of_ends rfl

/-- The last name of a path, if it is not followed, is looked up where the others
    lead. -/
theorem resolve_last {d : List ν} (hd : fs.resolve true { names := d } = .found l)
    (hdir : fs.IsDir l) (n : ν) :
    fs.resolve false { names := d ++ [n] } =
      if fs.node (l ++ [n]) = none then .absent l n else .found (l ++ [n]) := by
  obtain ⟨left, _, hleft⟩ := resolve_append hd hdir
  rw [hleft false [n] false (.inl (by simp))]
  refine resolveFrom_of_ends ?_
  simp only [List.map_singleton, Bool.false_eq_true, if_false, List.append_nil, walk]
  match hn : fs.node (l ++ [n]) with
  | none | some (.dir _) | some (.file _) | some (.link _) | some .special => simp

variable (fs l parts) in
/-- A walk that does not follow its last link only differs in what it does there. -/
theorem walk_true_of_walk_false :
    (∃ l', fs.walk false l parts = .ends (.found l')) ∨
      fs.walk true l parts = fs.walk false l parts := by
  induction parts generalizing l with
  | nil => exact .inr rfl
  | cons part parts ih =>
    cases part with
    | self => exact ih _
    | parent => exact ih _
    | name n =>
      simp only [walk]
      match hn : fs.node (l ++ [n]) with
      | none | some (.file _) | some .special => exact .inr rfl
      | some (.dir _) => exact ih _
      | some (.link target) => cases parts <;> simp

theorem resolveFrom_true_of_missing (h : (fs.resolveFrom false budget l parts).Missing) :
    fs.resolveFrom true budget l parts = fs.resolveFrom false budget l parts := by
  induction budget generalizing l parts with
  | zero =>
    rcases walk_true_of_walk_false fs l parts with ⟨l', hl'⟩ | hwalk
    · rw [resolveFrom_of_ends hl'] at h
      exact h.elim
    · rw [resolveFrom, resolveFrom, hwalk]
  | succ budget ih =>
    rcases walk_true_of_walk_false fs l parts with ⟨l', hl'⟩ | hwalk
    · rw [resolveFrom_of_ends hl'] at h
      exact h.elim
    · cases hwalk' : fs.walk false l parts with
      | ends r => rw [resolveFrom_of_ends hwalk', resolveFrom_of_ends (hwalk.trans hwalk')]
      | link l₁ target rest =>
        rw [resolveFrom_of_link hwalk'] at h ⊢
        rw [resolveFrom_of_link (hwalk.trans hwalk')]
        exact ih h

/-- What is missing is so with its last link followed, or a separator after it. -/
theorem missing_of_missing_false {ns : List ν} (h : (fs.resolve false { names := ns }).Missing)
    (slash : Bool) : (fs.resolve true { names := ns, slash }).Missing := by
  simp only [resolve, Bool.false_eq_true, if_false, List.append_nil] at h
  rw [← resolveFrom_true_of_missing h] at h
  cases slash with
  | false => simpa [resolve] using h
  | true =>
    refine resolveFrom_append_missing (isDir_nil fs) (by simp) fun r hr => ?_
    rw [hr] at h
    exact ⟨h.ne.1, fun l' hl' => absurd hl' (h.ne.2 l')⟩

/-! ## New entries -/

variable {fs' : FileSystem ν δ β}

/-- A walk that does not miss anything is not changed by new entries. -/
theorem walk_of_extends (h : fs.Extends fs') (parts : List (Part ν))
    (hw : ∀ r, fs.walk follow l parts = .ends r → ¬r.Missing) :
    fs'.walk follow l parts = fs.walk follow l parts := by
  induction parts generalizing l with
  | nil => rfl
  | cons part parts ih =>
    cases part with
    | self => exact ih hw
    | parent => exact ih hw
    | name n =>
      simp only [walk] at hw ⊢
      match hn : fs.node (l ++ [n]) with
      | none =>
        simp only [hn, Walk.ends.injEq, forall_eq'] at hw
        refine absurd ?_ hw
        split_ifs <;> trivial
      | some (.dir attributes) =>
        rw [h _ (by simp [hn]), hn]
        exact ih (by simpa only [hn] using hw)
      | some (.file _) | some (.link _) | some .special => rw [h _ (by simp [hn]), hn]

theorem resolveFrom_of_extends (h : fs.Extends fs')
    (hr : ¬(fs.resolveFrom follow budget l parts).Missing) :
    fs'.resolveFrom follow budget l parts = fs.resolveFrom follow budget l parts := by
  have hw : fs'.walk follow l parts = fs.walk follow l parts :=
    walk_of_extends h parts fun r hwalk => by rwa [resolveFrom_of_ends hwalk] at hr
  induction budget generalizing l parts with
  | zero => rw [resolveFrom, resolveFrom, hw]
  | succ budget ih =>
    cases hwalk : fs.walk follow l parts with
    | ends r => rw [resolveFrom_of_ends (hw.trans hwalk), resolveFrom_of_ends hwalk]
    | link l₁ target rest =>
      rw [resolveFrom_of_link hwalk] at hr
      rw [resolveFrom_of_link (hw.trans hwalk), resolveFrom_of_link hwalk]
      exact ih hr (walk_of_extends h _ fun r hwalk => by rwa [resolveFrom_of_ends hwalk] at hr)

/-- New entries do not change where a path leads, if it leads anywhere. -/
theorem resolve_of_extends {p : NormalPath ν} (h : fs.Extends fs')
    (hr : fs.resolve follow p = .found l) : fs'.resolve follow p = .found l := by
  rw [← hr]
  refine resolveFrom_of_extends h fun hmissing => ?_
  rw [← resolve, hr] at hmissing
  exact hmissing

/-! ## Directories that a path leads to -/

/-- The names `d` lead to the directory `l`. -/
def LeadsTo (fs : FileSystem ν δ β) (d l : List ν) : Prop :=
  fs.resolve true { names := d } = .found l ∧ fs.IsDir l

theorem LeadsTo.of_extends {d : List ν} (h : fs.LeadsTo d l) (hext : fs.Extends fs') :
    fs'.LeadsTo d l :=
  ⟨resolve_of_extends hext h.1, hext.isDir h.2⟩

theorem LeadsTo.append {d : List ν} (h : fs.LeadsTo d l) (hdir : fs.IsDir (l ++ [n])) :
    fs.LeadsTo (d ++ [n]) (l ++ [n]) := by
  refine ⟨?_, hdir⟩
  obtain ⟨left, _, hleft⟩ := resolve_append h.1 h.2
  rw [hleft true [n] false (.inl (by simp))]
  obtain ⟨_, hn⟩ := isDir_iff.1 hdir
  refine resolveFrom_of_ends ?_
  simp [walk, hn]

/-- What is found by its last name is found in a directory that the others lead to. -/
theorem exists_leadsTo_of_found {d : List ν} (h : fs.resolve true { names := d ++ [n] } = .found l') :
    ∃ l, fs.LeadsTo d l ∧ fs.node (l ++ [n]) ≠ none := by
  have hlast : fs.resolveFrom true MAXSYMLINKS [] (d.map .name ++ [.name n]) = .found l' := by
    rw [← h, resolve, List.map_append, if_neg Bool.false_ne_true, List.append_nil]
    rfl
  have hd : ∀ r, fs.resolve true { names := d } = r →
      fs.resolveFrom true MAXSYMLINKS [] (d.map .name) = r := by
    rintro r rfl
    rw [resolve, if_neg Bool.false_ne_true, List.append_nil]
  by_cases hdir : ∃ l, fs.LeadsTo d l
  · obtain ⟨l, hl⟩ := hdir
    refine ⟨l, hl, fun hn => ?_⟩
    obtain ⟨left, _, hleft⟩ := resolve_append hl.1 hl.2
    rw [hleft true [n] false (.inl (by simp))] at h
    rw [resolveFrom_of_ends (r := .absent l n) (by simp [walk, hn])] at h
    cases h
  · exfalso
    by_cases htoo : fs.resolve true { names := d } = .tooManyLinks
    · rw [resolveFrom_append_tooManyLinks (isDir_nil fs) (by simp) (hd _ htoo)] at hlast
      cases hlast
    · have hmissing : (fs.resolveFrom true MAXSYMLINKS [] (d.map .name ++ [.name n])).Missing := by
        refine resolveFrom_append_missing (isDir_nil fs) (by simp) fun r hr => ?_
        rw [hd _ rfl] at hr
        exact ⟨fun heq => htoo (hr.trans heq), fun l heq hl => hdir ⟨l, hr.trans heq, hl⟩⟩
      rw [hlast] at hmissing
      exact hmissing

/-- Below a name that a directory has no entry of, there is nothing. -/
theorem LeadsTo.resolve_absent {d : List ν} (h : fs.LeadsTo d l) (hn : fs.node (l ++ [n]) = none)
    (follow : Bool) (rest : List ν) (slash : Bool) :
    fs.resolve follow { names := d ++ n :: rest, slash } =
      if rest = [] ∧ slash = false then .absent l n else .notFound := by
  obtain ⟨left, _, hleft⟩ := resolve_append h.1 h.2
  rw [hleft follow (n :: rest) slash (.inl (by simp))]
  refine resolveFrom_of_ends ?_
  cases rest <;> cases slash <;> simp [walk, hn]

end FileSystem

end HybridFtp
