import TemplateTags.Command.FileTree
/-!
# Files after a write

The path of a file's names leads to it, from the root or from the working directory
(`FileTree.locate?_ofNames`). A write puts a text in the file that a path leads to
and changes nothing else (`FileTree.find?_write`). No path leads anywhere else than
before (`FileTree.locate?_write`), because where a path leads is a matter of the
names in the tree. So several writes to one path leave the other files as they were
(`FileTree.Rewritten`).
-/

namespace TemplateTags

namespace FilePath

/-- A name that an entry of a directory can have. -/
structure IsEntry (name : Text) : Prop where
  isName : isName name = true
  not_isUp : isUp name = false
  slash_notMem : '/' ∉ name

theorem pieces_of_notMem {name : Text} (h : '/' ∉ name) : pieces name = [name] := by
  induction name with
  | nil => rfl
  | cons c rest ih =>
    have hc : c ≠ '/' := fun heq => h (by simp [heq])
    rw [pieces, ih fun hmem => h (List.mem_cons_of_mem c hmem)]
    simp [hc]

theorem pieces_append_slash {name : Text} (h : '/' ∉ name) (path : Text) :
    pieces (name ++ '/' :: path) = name :: pieces path := by
  induction name with
  | nil =>
    rw [List.nil_append, pieces]
    cases hpath : pieces path with
    | nil => cases path <;> simp [pieces] at hpath <;> split at hpath <;> simp_all
    | cons piece others => simp
  | cons c rest ih =>
    have hc : c ≠ '/' := fun heq => h (by simp [heq])
    rw [List.cons_append, pieces, ih fun hmem => h (List.mem_cons_of_mem c hmem)]
    simp [hc]

theorem pieces_join {names : List Text} (hne : names ≠ [])
    (h : ∀ name ∈ names, '/' ∉ name) :
    pieces (Text.join ['/'] names) = names := by
  induction names with
  | nil => exact absurd rfl hne
  | cons name rest ih =>
    cases rest with
    | nil => exact pieces_of_notMem (h name List.mem_cons_self)
    | cons next rest =>
      have hrest := ih (by simp) fun other hother =>
        h other (List.mem_cons_of_mem name hother)
      show pieces (name ++ ['/'] ++ Text.join ['/'] (next :: rest)) =
          name :: next :: rest
      rw [List.append_assoc, List.singleton_append,
        pieces_append_slash (h name List.mem_cons_self), hrest]

/-- A path of entries is absolute if it is made so. -/
theorem isAbsolute_ofNames {names : List Text} (absolute : Bool)
    (hnames : ∀ name ∈ names, IsEntry name) :
    isAbsolute (ofNames absolute names) = absolute := by
  cases absolute with
  | true => rfl
  | false =>
    cases names with
    | nil => rfl
    | cons name rest =>
      have hname := hnames name List.mem_cons_self
      cases name with
      | nil => cases hname.isName
      | cons c name =>
        have hhead : (ofNames false ((c :: name) :: rest)).head? = some c := by
          cases rest <;> rfl
        have hc : c ≠ '/' := fun heq => hname.slash_notMem (by simp [heq])
        simp [isAbsolute, hhead, hc]

end FilePath

namespace FileTree

/-! ## Where paths lead -/

/-- The names that lead to the files, in the order of the tree. -/
def keys (t : FileTree) : List (List Text) := t.files.map Prod.fst

theorem isSome_find? (t : FileTree) (names : List Text) :
    (t.find? names).isSome = t.keys.any (· == names) := by
  unfold find? keys
  rw [Option.isSome_map, List.isSome_find?, List.any_map]
  rfl

/-- The trees have the same directories, and files at the same places. -/
structure SamePlaces (t u : FileTree) : Prop where
  directory : u.directory = t.directory
  directories : u.directories = t.directories
  keys : u.keys = t.keys

namespace SamePlaces

variable {t u : FileTree}

theorem isSome_find? (h : t.SamePlaces u) (names : List Text) :
    (u.find? names).isSome = (t.find? names).isSome := by
  rw [FileTree.isSome_find?, FileTree.isSome_find?, h.keys]

theorem isDirectory (h : t.SamePlaces u) (names : List Text) :
    u.isDirectory names = t.isDirectory names := by
  have hfiles (v : FileTree) :
      (v.files.any fun file => names.isPrefixOf file.1 &&
        names.length < file.1.length) =
        v.keys.any fun key => names.isPrefixOf key && names.length < key.length := by
    unfold FileTree.keys
    rw [List.any_map]
    rfl
  unfold FileTree.isDirectory
  rw [hfiles, hfiles, h.directory, h.directories, h.keys]

theorem follow? (h : t.SamePlaces u) (directory pieces : List Text) :
    u.follow? directory pieces = t.follow? directory pieces := by
  induction pieces generalizing directory with
  | nil => rfl
  | cons piece rest ih =>
    cases rest with
    | nil => simp only [FileTree.follow?, h.isSome_find?]
    | cons next rest => simp only [FileTree.follow?, h.isDirectory, ih]

theorem locate? (h : t.SamePlaces u) (path : Text) :
    u.locate? path = t.locate? path := by
  unfold FileTree.locate?
  rw [h.directory, h.follow?]

end SamePlaces

theorem isSome_find?_of_follow? {t : FileTree} {directory pieces names : List Text}
    (h : t.follow? directory pieces = some names) : (t.find? names).isSome := by
  induction pieces generalizing directory with
  | nil => cases h
  | cons piece rest ih =>
    cases rest with
    | nil =>
      simp only [follow?] at h
      split at h
      next => cases h
      next =>
        split at h
        next hfound =>
          cases h
          exact hfound
        next => cases h
    | cons next rest =>
      simp only [follow?] at h
      split at h
      next => exact ih h
      next =>
        split at h
        next => exact ih h
        next =>
          split at h
          next => exact ih h
          next => cases h

/-- A path leads to a file that there is. -/
theorem isSome_find?_of_locate? {t : FileTree} {path : Text} {names : List Text}
    (h : t.locate? path = some names) : (t.find? names).isSome :=
  isSome_find?_of_follow? h

/-- Names that lead from a directory to a file are followed to it. -/
theorem follow?_of_isSome_find? {t : FileTree} {names : List Text}
    (directory : List Text) (hne : names ≠ [])
    (hnames : ∀ name ∈ names, FilePath.IsEntry name)
    (hfile : (t.find? (directory ++ names)).isSome) :
    t.follow? directory names = some (directory ++ names) := by
  induction names generalizing directory with
  | nil => exact absurd rfl hne
  | cons name rest ih =>
    have hname := hnames name List.mem_cons_self
    cases rest with
    | nil => simp [follow?, hname.isName, hname.not_isUp, hfile]
    | cons next rest =>
      have happend : directory ++ [name] ++ next :: rest =
          directory ++ name :: next :: rest := by
        simp
      have hdirectory : t.isDirectory (directory ++ [name]) = true := by
        rw [isSome_find?, List.any_eq_true] at hfile
        obtain ⟨key, hkey, heq⟩ := hfile
        obtain ⟨file, hmem, rfl⟩ := List.mem_map.1 hkey
        have hprefix : directory ++ [name] <+: file.1 :=
          ⟨next :: rest, happend.trans (eq_of_beq heq).symm⟩
        have hlength : (directory ++ [name]).length < file.1.length := by
          rw [eq_of_beq heq]
          simp
        rw [isDirectory, Bool.or_eq_true]
        refine .inr (List.any_eq_true.2 ⟨file, hmem, ?_⟩)
        simpa [List.isPrefixOf_iff_prefix.2 hprefix] using hlength
      have hrest : t.follow? (directory ++ [name]) (next :: rest) =
          some (directory ++ [name] ++ next :: rest) :=
        ih _ (by simp) (fun other hother =>
          hnames other (List.mem_cons_of_mem name hother))
          (by rwa [happend])
      simp only [follow?, hname.isName, hname.not_isUp, hdirectory, hrest, happend]
      simp

/-- The path of a file's names leads to it: from the root if the path is absolute,
and else from the working directory. -/
theorem locate?_ofNames {t : FileTree} {names : List Text} (absolute : Bool)
    (hne : names ≠ []) (hnames : ∀ name ∈ names, FilePath.IsEntry name)
    (hfile : (t.find? ((if absolute then [] else t.directory) ++ names)).isSome) :
    t.locate? (FilePath.ofNames absolute names) =
      some ((if absolute then [] else t.directory) ++ names) := by
  have hslash : ∀ name ∈ names, '/' ∉ name :=
    fun name hname => (hnames name hname).slash_notMem
  rw [locate?, FilePath.isAbsolute_ofNames absolute hnames]
  cases absolute with
  | false =>
    have hpieces : FilePath.pieces (FilePath.ofNames false names) = names :=
      FilePath.pieces_join hne hslash
    rw [hpieces]
    exact follow?_of_isSome_find? t.directory hne hnames hfile
  | true =>
    have hpieces : FilePath.pieces (FilePath.ofNames true names) = [] :: names := by
      show FilePath.pieces ([] ++ '/' :: Text.join ['/'] names) = [] :: names
      rw [FilePath.pieces_append_slash (by simp), FilePath.pieces_join hne hslash]
    rw [hpieces]
    cases names with
    | nil => exact absurd rfl hne
    | cons name rest => exact follow?_of_isSome_find? [] hne hnames hfile

/-- There is a text to read wherever a path leads. -/
theorem isSome_read? (t : FileTree) (path : Text) :
    (t.read? path).isSome = (t.locate? path).isSome := by
  unfold read?
  cases h : t.locate? path with
  | none => rfl
  | some names => exact isSome_find?_of_locate? h

theorem locate?_of_read? {t : FileTree} {path text : Text}
    (h : t.read? path = some text) :
    ∃ names, t.locate? path = some names ∧ t.find? names = some text :=
  Option.bind_eq_some_iff.1 h

/-! ## Writing -/

theorem samePlaces_write (t : FileTree) (path text : Text) :
    t.SamePlaces (t.write path text) := by
  unfold write
  split
  next => exact ⟨rfl, rfl, rfl⟩
  next names _ =>
    refine ⟨rfl, rfl, ?_⟩
    unfold keys
    rw [List.map_map]
    refine List.map_congr_left fun file _ => ?_
    simp only [Function.comp_apply]
    split <;> rfl

/-- A write leads no path anywhere else. -/
@[simp] theorem locate?_write (t : FileTree) (path text other : Text) :
    (t.write path text).locate? other = t.locate? other :=
  (samePlaces_write t path text).locate? other

/-- A write changes the file that its path leads to, and no other. -/
theorem find?_write {t : FileTree} {path : Text} {names : List Text}
    (h : t.locate? path = some names) (text : Text) (other : List Text) :
    (t.write path text).find? other =
      if other = names then some text else t.find? other := by
  have hwrite : (t.write path text).files =
      t.files.map fun file => if file.1 = names then (file.1, text) else file := by
    unfold write
    rw [h]
  have hkey : ((fun file : List Text × Text => file.1 == other) ∘
      fun file : List Text × Text =>
      if file.1 = names then (file.1, text) else file) = fun file =>
        file.1 == other := by
    funext file
    simp only [Function.comp_apply]
    split <;> rfl
  have hfound := isSome_find?_of_locate? h
  unfold find? at hfound ⊢
  rw [hwrite, List.find?_map, hkey, Option.map_map]
  cases hfile : t.files.find? (·.1 == other) with
  | none =>
    split
    next heq =>
      rw [heq] at hfile
      rw [hfile] at hfound
      cases hfound
    next => rfl
  | some file =>
    have hname : file.1 = other := by simpa using List.find?_some hfile
    simp only [Option.map_some, Function.comp_apply, hname]
    split <;> rfl

theorem read?_write {t : FileTree} {path : Text} {names : List Text}
    (h : t.locate? path = some names) (text other : Text) :
    (t.write path text).read? other =
      if t.locate? other = some names then some text else t.read? other := by
  unfold read?
  rw [locate?_write]
  cases hother : t.locate? other with
  | none => rfl
  | some others =>
    simp only [Option.bind_some, find?_write h, Option.some.injEq]

/-- In the second tree the same files are at the same places, and all but that of
a path have the same texts. -/
structure Rewritten (t : FileTree) (path : Text) (u : FileTree) : Prop where
  locate? : ∀ other, u.locate? other = t.locate? other
  find? : ∀ names, t.locate? path ≠ some names → u.find? names = t.find? names

namespace Rewritten

variable {t u : FileTree} {path : Text}

theorem refl (t : FileTree) (path : Text) : t.Rewritten path t :=
  ⟨fun _ => rfl, fun _ _ => rfl⟩

theorem write (h : t.Rewritten path u) (text : Text) :
    t.Rewritten path (u.write path text) := by
  refine ⟨fun other => by rw [locate?_write, h.locate?], fun names hnames => ?_⟩
  cases hpath : u.locate? path with
  | none =>
    have hsame : u.write path text = u := by
      unfold FileTree.write
      rw [hpath]
    rw [hsame, h.find? names hnames]
  | some file =>
    have hne : names ≠ file := fun heq => hnames (by rw [← h.locate?, hpath, heq])
    rw [find?_write hpath, if_neg hne, h.find? names hnames]

theorem read?_of_ne (h : t.Rewritten path u) {other : Text}
    (hother : t.locate? other ≠ t.locate? path) :
    u.read? other = t.read? other := by
  unfold read?
  rw [h.locate?]
  cases hnames : t.locate? other with
  | none => rfl
  | some names => exact h.find? names fun hpath => hother (hnames.trans hpath.symm)

end Rewritten

end FileTree

end TemplateTags
