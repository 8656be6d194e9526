import HybridFtp.Common.Listing
import HybridFtp.Lib.Numbers
import Mathlib.Data.List.Sort

/-!
# The records of a listing

What the listings of a directory are made of.

* `NoBreak`: what is told of an entry does not end its line;
* `formatListEntry_cases`: the record of an entry, if it leads to a directory or a regular
  file;
* `sortedNames_perm`, `sortedNames_pairwise`: the order of the names;
* `listDirectory_of_directory`, `listNames_of_directory`: a record for each name;
* `listingsAgree_iff`: the listings of `LIST`, `NLST` and `STAT` are of the same entries
  unless one leads to something else.
-/

namespace HybridFtp

/-! ## Entries -/

/-- There is no part of a line end in it. -/
def NoBreak (text : List Char) : Prop := '\r' ∉ text ∧ '\n' ∉ text

theorem NoBreak.append {text text' : List Char} (h : NoBreak text) (h' : NoBreak text') :
    NoBreak (text ++ text') :=
  ⟨List.not_mem_append h.1 h'.1, List.not_mem_append h.2 h'.2⟩

theorem noBreak_toString (n : Nat) : NoBreak (toString n).toList := by
  have hdigit := (isNumber_toString n).2
  exact ⟨fun h => absurd (hdigit _ h) (by decide), fun h => absurd (hdigit _ h) (by decide)⟩

namespace PathManager

theorem noBreak_sanitizeListingName (name : String) :
    NoBreak (sanitizeListingName name).toList := by
  rw [sanitizeListingName, String.toList_map]
  constructor <;>
  · intro h
    obtain ⟨c, _, hc⟩ := List.mem_map.1 h
    split_ifs at hc with hbreak
    · exact absurd hc (by decide)
    · exact hbreak (by simp [hc])

theorem noBreak_permissionText (permissions : Perms) :
    NoBreak (permissionText permissions).toList := by
  rw [permissionText, String.toList_ofList]
  constructor <;>
  · intro h
    obtain ⟨⟨c, bit⟩, hmem, hc⟩ := List.mem_map.1 h
    have hc' : c ∈ "rwxrwxrwx".toList := (List.of_mem_zip hmem).1
    dsimp only at hc
    split_ifs at hc
    · subst hc
      exact absurd hc' (by decide)
    · exact absurd hc (by decide)

/-- What an entry leads to has a record. -/
def Listed (fs : Storage) (entry : NormalPath String) : Prop :=
  fs.status entry = some .directory ∨ fs.status entry = some .regular

instance (fs : Storage) : DecidablePred (Listed fs) := fun _ => by
  unfold Listed
  infer_instance

/-- What a record tells after the name. -/
def details (type : String) (size : Nat) (permissions : Perms) : String :=
  type ++ ", size=" ++ toString size ++ ", permissions=" ++ permissionText permissions

theorem noBreak_details {type : String} (htype : NoBreak type.toList) (size : Nat)
    (permissions : Perms) : NoBreak (details type size permissions).toList := by
  simp only [details, String.toList_append]
  exact (((htype.append ⟨by decide, by decide⟩).append (noBreak_toString size)).append
    ⟨by decide, by decide⟩).append (noBreak_permissionText permissions)

/-- The record of an entry is its name with what is known of it. -/
theorem formatListEntry_cases (fs : Storage) (entry : NormalPath String) :
    (Listed fs entry ∧ ∃ told : String, NoBreak told.toList ∧ formatListEntry fs entry =
        some ("name=" ++ sanitizeListingName entry.filenameString ++ ", type=" ++ told)) ∨
      ¬Listed fs entry ∧ formatListEntry fs entry = none := by
  rw [formatListEntry, Listed, FileSystem.status]
  cases fs.resolve true entry with
  | found l =>
    dsimp only
    cases fs.node l with
    | none => exact .inr ⟨by simp, rfl⟩
    | some node =>
      cases node with
      | dir permissions =>
        refine .inl ⟨.inl rfl, details "directory" 0 permissions,
          noBreak_details ⟨by decide, by decide⟩ _ _, ?_⟩
        simp only [details, String.append_assoc]
      | file data =>
        refine .inl ⟨.inr rfl, details "file" data.content.length data.permissions,
          noBreak_details ⟨by decide, by decide⟩ _ _, ?_⟩
        simp only [details, String.append_assoc]
      | link target => exact .inr ⟨by simp [Node.fileType], rfl⟩
      | special => exact .inr ⟨by simp [Node.fileType], rfl⟩
  | absent _ _ | notFound | notDirectory | tooManyLinks => exact .inr ⟨by simp, rfl⟩

theorem filenameString_entry (l : List String) (n : String) :
    NormalPath.filenameString { names := l ++ [n] } = n := by
  rw [NormalPath.filenameString, NormalPath.filename, if_neg Bool.false_ne_true,
    List.getLast?_concat]
  rfl

/-- The records of some entries, if all of them have one. -/
theorem mapM_formatListEntry (fs : Storage) (l names : List String) :
    ((∀ n ∈ names, Listed fs { names := l ++ [n] }) ∧
        ∃ told : List String, told.length = names.length ∧ (∀ t ∈ told, NoBreak t.toList) ∧
          names.mapM (fun n => formatListEntry fs { names := l ++ [n] }) =
            some ((names.zip told).map fun e =>
              "name=" ++ sanitizeListingName e.1 ++ ", type=" ++ e.2)) ∨
      (¬∀ n ∈ names, Listed fs { names := l ++ [n] }) ∧
        names.mapM (fun n => formatListEntry fs { names := l ++ [n] }) = none := by
  induction names with
  | nil => exact .inl ⟨List.forall_mem_nil _, [], rfl, List.forall_mem_nil _, rfl⟩
  | cons n names ih =>
    rw [List.forall_mem_cons, List.mapM_cons]
    rcases formatListEntry_cases fs { names := l ++ [n] } with ⟨hlisted, t, ht, heq⟩ | ⟨hnot, heq⟩
    · rcases ih with ⟨hall, told, hlength, htold, hmapM⟩ | ⟨hnot, hmapM⟩
      · refine .inl ⟨⟨hlisted, hall⟩, t :: told, ?_, List.forall_mem_cons.2 ⟨ht, htold⟩, ?_⟩
        · rw [List.length_cons, List.length_cons, hlength]
        · rw [heq, hmapM, filenameString_entry]
          rfl
      · refine .inr ⟨fun h => hnot h.2, ?_⟩
        rw [heq, hmapM]
        rfl
    · refine .inr ⟨fun h => hnot h.1, ?_⟩
      rw [heq]
      rfl

/-! ## Order -/

theorem sortedNames_perm (fs : Storage) (l : List String) : (sortedNames fs l).Perm (fs.names l) :=
  List.mergeSort_perm _ _

theorem sortedNames_pairwise (fs : Storage) (l : List String) :
    (sortedNames fs l).Pairwise (· ≤ ·) :=
  List.pairwise_mergeSort' (· ≤ ·) _

/-! ## Listings -/

variable {pm : PathManager} {fs : Storage} {path : String} {target : NormalPath String}

/-- What is listed exists. -/
theorem status_canonicalTarget (h : pm.canonicalTarget fs path = some target) :
    fs.status target = some .regular ∨ fs.status target = some .directory ∨
      fs.status target = some .unknown := by
  rw [canonicalTarget] at h
  split at h
  · cases h
  · split_ifs at h with hexists
    cases h
    have hexists := hexists.2
    rw [FileSystem.pathExists, Option.map_eq_some_iff] at hexists
    obtain ⟨t, ht, hne⟩ := hexists
    rw [ht]
    cases t with
    | notFound => cases hne
    | regular => exact .inl rfl
    | directory => exact .inr (.inl rfl)
    | unknown => exact .inr (.inr rfl)

theorem isDirectory_eq_true_iff :
    fs.isDirectory target = some true ↔ fs.status target = some .directory := by
  rw [FileSystem.isDirectory]
  rcases fs.status target with _ | t
  · decide
  · cases t <;> decide

theorem isRegularFile_eq_true_iff :
    fs.isRegularFile target = some true ↔ fs.status target = some .regular := by
  rw [FileSystem.isRegularFile]
  rcases fs.status target with _ | t
  · decide
  · cases t <;> decide

/-- The names of a directory, one in each line. -/
theorem listNames_of_directory (h : pm.canonicalTarget fs path = some target)
    (hdir : fs.status target = some .directory) :
    pm.listNames fs path =
      some (String.join ((sortedNames fs target.names).map (sanitizeListingName · ++ "\r\n"))) := by
  rw [listNames, h]
  dsimp only
  rw [if_neg (by rw [isRegularFile_eq_true_iff, hdir]; decide),
    if_pos (isDirectory_eq_true_iff.2 hdir)]

/-- The records of a directory, one in each line, if all of its entries have one. -/
theorem listDirectory_of_directory (h : pm.canonicalTarget fs path = some target)
    (hdir : fs.status target = some .directory) :
    ((∀ n ∈ fs.names target.names, Listed fs { names := target.names ++ [n] }) ∧
        ∃ told : List String, told.length = (sortedNames fs target.names).length ∧
          (∀ t ∈ told, NoBreak t.toList) ∧ pm.listDirectory fs path =
            some (String.join ((((sortedNames fs target.names).zip told).map fun e =>
              "name=" ++ sanitizeListingName e.1 ++ ", type=" ++ e.2).map (· ++ "\r\n")))) ∨
      (¬∀ n ∈ fs.names target.names, Listed fs { names := target.names ++ [n] }) ∧
        pm.listDirectory fs path = none := by
  have hmem : ∀ n, n ∈ fs.names target.names ↔ n ∈ sortedNames fs target.names := fun n =>
    (sortedNames_perm fs target.names).mem_iff.symm
  rw [listDirectory, h]
  dsimp only
  rw [if_neg (by rw [isRegularFile_eq_true_iff, hdir]; decide),
    if_pos (isDirectory_eq_true_iff.2 hdir)]
  simp only [hmem]
  rcases mapM_formatListEntry fs target.names (sortedNames fs target.names) with
    ⟨hall, told, hlength, htold, hmapM⟩ | ⟨hnot, hmapM⟩
  · exact .inl ⟨hall, told, hlength, htold, by rw [hmapM]; rfl⟩
  · exact .inr ⟨hnot, by rw [hmapM]; rfl⟩

/-- The status of a path has the listing of it. -/
theorem listing_getStatus (hpath : path ≠ "") :
    (pm.getStatus fs path).map PathStatus.listing = pm.listDirectory fs path := by
  rw [getStatus, if_neg hpath]
  cases h : pm.canonicalTarget fs path with
  | none =>
    rw [listDirectory, h]
    rfl
  | some target =>
    dsimp only
    split_ifs with hother
    · -- It is neither a directory nor a regular file.
      rw [listDirectory, h]
      dsimp only
      rw [if_neg hother.2, if_neg (by simpa using hother.1)]
      rfl
    · rw [Option.map_map]
      exact Option.map_id'

/-! ## Agreement -/

/-- `LIST`, `NLST` and `STAT` tell of the same path: they succeed together, with the same
    names in the same order in `LIST` and `NLST`, and with the same listing in `LIST` and
    `STAT`. -/
structure ListingsAgree (pm : PathManager) (fs : Storage) (path : String) : Prop where
  list_iff : (pm.listDirectory fs path).isSome ↔ (pm.listNames fs path).isSome
  names_iff : (pm.listNames fs path).isSome ↔ (pm.getStatus fs path).isSome
  names_eq : ∀ listing names, pm.listDirectory fs path = some listing →
    pm.listNames fs path = some names → ∃ entries : List (String × String),
      (∀ e ∈ entries, NoBreak e.1.toList ∧ NoBreak e.2.toList) ∧
      listing = String.join (entries.map fun e => "name=" ++ e.1 ++ ", type=" ++ e.2 ++ "\r\n") ∧
      names = String.join (entries.map fun e => e.1 ++ "\r\n")
  listing_eq : ∀ listing status, pm.listDirectory fs path = some listing →
    pm.getStatus fs path = some status → status.listing = listing

/-- Every entry of a directory leads to a directory or a regular file. -/
def AllListed (pm : PathManager) (fs : Storage) (path : String) : Prop :=
  ∀ target, pm.canonicalTarget fs path = some target → fs.status target = some .directory →
    ∀ n ∈ fs.names target.names, Listed fs { names := target.names ++ [n] }

/-- The listings of `LIST` and `NLST` are records and names of the same entries; or `LIST`
    fails, because an entry has no record, or both do. -/
theorem listings_cases (pm : PathManager) (fs : Storage) (path : String) :
    (pm.listDirectory fs path = none ∧ pm.listNames fs path = none ∧ pm.AllListed fs path) ∨
      (pm.listDirectory fs path = none ∧ (pm.listNames fs path).isSome ∧ ¬pm.AllListed fs path) ∨
      pm.AllListed fs path ∧ ∃ entries : List (String × String),
        (∀ e ∈ entries, NoBreak e.1.toList ∧ NoBreak e.2.toList) ∧
        pm.listDirectory fs path = some (String.join (entries.map fun e =>
          "name=" ++ e.1 ++ ", type=" ++ e.2 ++ "\r\n")) ∧
        pm.listNames fs path = some (String.join (entries.map fun e => e.1 ++ "\r\n")) := by
  rw [AllListed]
  cases h : pm.canonicalTarget fs path with
  | none =>
    rw [listDirectory, listNames, h]
    exact .inl ⟨rfl, rfl, fun _ h => by cases h⟩
  | some target =>
    simp only [Option.some.injEq, forall_eq']
    rcases status_canonicalTarget h with hfile | hdir | hother
    · -- A regular file is its own and only entry.
      rw [listDirectory, listNames, h]
      dsimp only
      rw [if_pos (isRegularFile_eq_true_iff.2 hfile), if_pos (isRegularFile_eq_true_iff.2 hfile)]
      rcases formatListEntry_cases fs target with ⟨_, told, htold, heq⟩ | ⟨hnot, _⟩
      · refine .inr (.inr ⟨fun hdir => absurd (hfile.symm.trans hdir) (by decide),
          [(sanitizeListingName target.filenameString, told)], ?_, ?_, ?_⟩)
        · exact List.forall_mem_singleton.2 ⟨noBreak_sanitizeListingName _, htold⟩
        · rw [heq]
          simp
        · simp
      · exact absurd (.inr hfile) hnot
    · -- A directory has a record for each of its names, in their order, or an entry without one.
      rcases listDirectory_of_directory h hdir with ⟨hall, told, hlength, htold, heq⟩ | ⟨hnot, heq⟩
      · refine .inr (.inr ⟨fun _ => hall, ((sortedNames fs target.names).zip told).map fun e =>
          (sanitizeListingName e.1, e.2), ?_, ?_, ?_⟩)
        · intro e he
          obtain ⟨⟨n, t⟩, hmem, rfl⟩ := List.mem_map.1 he
          exact ⟨noBreak_sanitizeListingName n, htold t (List.of_mem_zip hmem).2⟩
        · rw [heq, List.map_map, List.map_map]
          rfl
        · rw [listNames_of_directory h hdir, List.map_map]
          have hzip : ((sortedNames fs target.names).zip told).map Prod.fst =
              sortedNames fs target.names := List.map_fst_zip hlength.ge
          conv_lhs => rw [← hzip, List.map_map]
          rfl
      · refine .inr (.inl ⟨heq, by rw [listNames_of_directory h hdir]; rfl, fun h => hnot (h hdir)⟩)
    · -- Neither lists it.
      have hnotFile : ¬fs.isRegularFile target = some true := by
        rw [isRegularFile_eq_true_iff, hother]
        decide
      have hnotDir : ¬fs.isDirectory target = some true := by
        rw [isDirectory_eq_true_iff, hother]
        decide
      rw [listDirectory, listNames, h]
      dsimp only
      rw [if_neg hnotFile, if_neg hnotFile, if_neg hnotDir, if_neg hnotDir]
      exact .inl ⟨rfl, rfl, fun hdir => absurd (hother.symm.trans hdir) (by decide)⟩

/-- The listings of a path agree if and only if every entry of it leads to a directory or a
    regular file, where it is a directory. -/
theorem listingsAgree_iff (pm : PathManager) (fs : Storage) {path : String} (hpath : path ≠ "") :
    ListingsAgree pm fs path ↔ pm.AllListed fs path := by
  have hstatus : (pm.getStatus fs path).isSome = (pm.listDirectory fs path).isSome := by
    rw [← listing_getStatus hpath, Option.isSome_map]
  have hlisting : ∀ listing status, pm.listDirectory fs path = some listing →
      pm.getStatus fs path = some status → status.listing = listing := by
    intro listing status hlist hget
    rw [← listing_getStatus hpath, hget] at hlist
    exact Option.some.inj hlist
  rcases listings_cases pm fs path with ⟨hlist, hnames, hall⟩ | ⟨hlist, hnames, hnot⟩ |
    ⟨hall, entries, hentries, hlist, hnames⟩
  · refine iff_of_true ⟨?_, ?_, ?_, hlisting⟩ hall
    · rw [hlist, hnames]
    · rw [hstatus, hlist, hnames]
    · intro listing names h
      rw [hlist] at h
      cases h
  · refine iff_of_false (fun h => ?_) hnot
    have hsome := h.list_iff.2 hnames
    rw [hlist] at hsome
    cases hsome
  · refine iff_of_true ⟨?_, ?_, ?_, hlisting⟩ hall
    · rw [hlist, hnames]
      exact iff_of_true rfl rfl
    · rw [hstatus, hlist, hnames]
      exact iff_of_true rfl rfl
    · intro listing names h h'
      rw [hlist] at h
      rw [hnames] at h'
      cases h
      cases h'
      exact ⟨entries, hentries, rfl, rfl⟩

/-- A root directory with two directories: in one there is a link that leads nowhere, in the
    other one all entries lead to something. -/
def danglingStorage : Storage where
  attributes := 0o755
  entries := [("srv", .dir 0o755 [
    ("links", .dir 0o755 [("link", .link { rooted := false, parts := [.name "gone"] })]),
    ("pub", .dir 0o755 [("file", .file { content := [104, 105] }), ("sub", .dir 0o755 []),
      ("link", .link { rooted := false, parts := [.name "sub"] })])])]

/-- The path manager of that root directory. -/
def danglingManager : PathManager :=
  (PathManager.create 0o755 { names := ["srv"] } danglingStorage).1

/-- A file, a directory and a link that leads to it make a listing of three entries. -/
theorem listingsAgree_pub : danglingStorage.names ["srv", "pub"] = ["file", "sub", "link"] ∧
    ListingsAgree danglingManager danglingStorage "pub" := by
  have hnames : danglingStorage.names ["srv", "pub"] = ["file", "sub", "link"] := by
    decide +kernel
  refine ⟨hnames, (listingsAgree_iff _ _ (by decide)).2 fun target htarget _ => ?_⟩
  have hpub : danglingManager.canonicalTarget danglingStorage "pub" =
      some { names := ["srv", "pub"] } := by decide +kernel
  rw [hpub] at htarget
  cases htarget
  rw [hnames]
  decide +kernel

/-- One link that leads nowhere fails the listing of the directory, but not its names. -/
theorem not_listingsAgree_dangling :
    danglingManager.listNames danglingStorage "links" = some "link\r\n" ∧
      danglingManager.listDirectory danglingStorage "links" = none ∧
      danglingManager.getStatus danglingStorage "links" = none ∧
      ¬ListingsAgree danglingManager danglingStorage "links" := by
  have htarget : danglingManager.canonicalTarget danglingStorage "links" =
      some { names := ["srv", "links"] } := by decide +kernel
  have hdir : danglingStorage.status { names := ["srv", "links"] } = some .directory := by
    decide +kernel
  have hnames : danglingManager.listNames danglingStorage "links" = some "link\r\n" := by
    have hentries : danglingStorage.names ["srv", "links"] = ["link"] := by decide +kernel
    have hname : sanitizeListingName "link" = "link" := by
      rw [← String.toList_inj, sanitizeListingName, String.toList_map]
      decide
    rw [listNames_of_directory htarget hdir, sortedNames, hentries, List.mergeSort_singleton,
      List.map_singleton, hname]
    rfl
  have hlist : danglingManager.listDirectory danglingStorage "links" = none := by
    rcases listDirectory_of_directory htarget hdir with ⟨hall, _⟩ | ⟨_, hnone⟩
    · exact absurd (hall "link" (by decide +kernel)) (by decide +kernel)
    · exact hnone
  have hstatus : danglingManager.getStatus danglingStorage "links" = none := by
    have hlisting : (danglingManager.getStatus danglingStorage "links").map PathStatus.listing =
        danglingManager.listDirectory danglingStorage "links" := listing_getStatus (by decide)
    rwa [hlist, Option.map_eq_none_iff] at hlisting
  refine ⟨hnames, hlist, hstatus, fun h => ?_⟩
  have hsome := h.list_iff.2 (by rw [hnames]; rfl)
  rw [hlist] at hsome
  cases hsome

end PathManager

end HybridFtp
