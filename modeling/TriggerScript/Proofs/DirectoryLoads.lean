import TriggerScript.Load
import TriggerScript.Proofs.FileTrees

/-!
# Loads of directories

Loading a directory builds the store of those tables below it that can be read, in the order of
their paths and whatever order the directories are listed in. Tables that cannot be read are noted
in the same order and change nothing else, and files with other names change nothing at all.
-/

namespace TriggerScript

section

variable {path : String} {content : FileEntry} {table : Table} {failure : LoadError}

theorem Table.file_of_read (h : Table.read path content = .ok table) : table.file = path := by
  cases content with
  | text text =>
    simp only [Table.read, Table.parse] at h
    split at h <;> cases h
    rfl
  | binary | directory => cases h

theorem Table.path_of_read (h : Table.read path content = .error failure) :
    failure = .unreadableFile path ∨ failure = .malformedToml path := by
  cases content with
  | text text =>
    simp only [Table.read, Table.parse] at h
    split at h <;> cases h
    exact .inr rfl
  | binary | directory =>
    cases h
    exact .inl rfl

end

namespace FileTree

variable {t : FileTree} {place : List String} {dir : String}
  {files files' before after : List (List String × FileEntry)} {file : List String × FileEntry}

/-- Whether a path below a place has the name of a rule table. -/
def IsTableBelow (place parts : List String) : Prop :=
  place <+: parts ∧ place ≠ parts ∧ parts.getLast?.any Path.isTableName = true

/-- These are the files below a place that have the names of rule tables, in the order of the parts
of their paths. -/
structure TablesBelow (t : FileTree) (place : List String)
    (files : List (List String × FileEntry)) : Prop where
  mem_iff : ∀ parts content, (parts, content) ∈ files ↔
    t.file? parts = some content ∧ IsTableBelow place parts
  ascending : files.Pairwise fun a b => compare a.1 b.1 = .lt

namespace TablesBelow

theorem unique (h : t.TablesBelow place files) (h' : t.TablesBelow place files') :
    files = files' :=
  eq_of_pairwise_lt h.ascending h'.ascending fun (parts, content) => by
    rw [h.mem_iff, h'.mem_iff]

theorem ne_of_mem (h : t.TablesBelow place (before ++ file :: after))
    {other : List String × FileEntry} (hother : other ∈ before ++ after) : other.1 ≠ file.1 := by
  obtain ⟨-, hfile, hbefore⟩ := List.pairwise_append.mp h.ascending
  intro heq
  rcases List.mem_append.mp hother with hmem | hmem
  · have hlt := hbefore other hmem file List.mem_cons_self
    rw [heq, Std.ReflOrd.compare_self] at hlt
    cases hlt
  · have hlt := (List.pairwise_cons.mp hfile).1 other hmem
    rw [heq, Std.ReflOrd.compare_self] at hlt
    cases hlt

theorem delete_mem (h : t.TablesBelow place (before ++ file :: after)) (ht : t.WellFormed)
    (hfile : (t.file? file.1).isSome = true) :
    (t.delete file.1).TablesBelow place (before ++ after) where
  mem_iff parts content := by
    rw [file?_delete ht hfile]
    by_cases hself : parts = file.1
    · rw [if_pos hself]
      exact ⟨fun hmem => absurd hself (h.ne_of_mem hmem), nofun⟩
    · have hother : (parts, content) ≠ file := fun heq => hself (heq ▸ rfl)
      rw [if_neg hself, ← h.mem_iff]
      simp [hother]
  ascending := by
    refine h.ascending.sublist ?_
    exact (List.Sublist.refl before).append (List.sublist_cons_self file after)

theorem delete_of_not {parts : List String} (h : t.TablesBelow place files) (ht : t.WellFormed)
    (hfile : (t.file? parts).isSome = true) (hparts : ¬IsTableBelow place parts) :
    (t.delete parts).TablesBelow place files where
  mem_iff entry content := by
    rw [h.mem_iff, file?_delete ht hfile]
    split
    · rename_i heq
      subst heq
      simp [hparts]
    · rfl
  ascending := h.ascending

end TablesBelow

theorem tablesBelow_tablesBelow (h : t.WellFormed) (l : Listing t) (place : List String) :
    t.TablesBelow place (t.tablesBelow l place) := by
  have hfound : ∀ parts, parts ∈ sortStable (fun a b => (compare a b).isLT)
      (t.collect l Path.isTableName t.depth place) ↔
        (t.file? parts).isSome = true ∧ IsTableBelow place parts := fun parts => by
    rw [(perm_sortStable _ _).mem_iff, mem_collect_iff l _ h (Nat.le_add_left _ _)]
    rfl
  refine ⟨fun parts content => ?_, ?_⟩
  · simp only [tablesBelow, List.mem_filterMap, hfound, Option.map_eq_some_iff, Prod.mk.injEq]
    constructor
    · rintro ⟨parts, ⟨-, hbelow⟩, content, hfile, rfl, rfl⟩
      exact ⟨hfile, hbelow⟩
    · rintro ⟨hfile, hbelow⟩
      exact ⟨parts, ⟨by rw [hfile]; rfl, hbelow⟩, content, hfile, rfl, rfl⟩
  · refine List.pairwise_filterMap.mpr
      ((pairwise_lt_sortStable (nodup_collect l _)).imp fun {a b} hlt c hc d hd => ?_)
    obtain ⟨-, -, rfl⟩ := Option.map_eq_some_iff.mp hc
    obtain ⟨-, -, rfl⟩ := Option.map_eq_some_iff.mp hd
    exact hlt

def readable (dir : String) (place : List String) (files : List (List String × FileEntry)) :
    List Table :=
  files.filterMap fun file =>
    match readBelow dir place file with
    | .ok table => some table
    | .error _ => none

def failures (dir : String) (place : List String) (files : List (List String × FileEntry)) :
    List LoadError :=
  files.filterMap fun file =>
    match readBelow dir place file with
    | .ok _ => none
    | .error failure => some failure

theorem readable_of_broken {failure : LoadError} (h : readBelow dir place file = .error failure) :
    readable dir place (before ++ file :: after) = readable dir place (before ++ after) := by
  simp [readable, h]

theorem failures_append :
    failures dir place (before ++ after) =
      failures dir place before ++ failures dir place after :=
  List.filterMap_append

theorem failures_of_broken {failure : LoadError} (h : readBelow dir place file = .error failure) :
    failures dir place (before ++ file :: after) =
      failures dir place before ++ failure :: failures dir place after := by
  simp [failures, h]

theorem loadDirectory_eq (h : t.WellFormed) (hplace : t.directory? dir = some place)
    (hfiles : t.TablesBelow place files) (l : Listing t) :
    t.loadDirectory dir l =
      .ok (.ofTables (readable dir place files) (failures dir place files)) := by
  obtain ⟨hresolve, hdir⟩ := Option.filter_eq_some_iff.mp hplace
  rw [loadDirectory, hresolve]
  simp only [hdir, if_true, (tablesBelow_tablesBelow h l place).unique hfiles, List.filterMap_map]
  rfl

/-- How a directory is loaded, which is at a place and has these tables below it. -/
structure LoadLaw (t : FileTree) (dir : String) (place : List String)
    (files : List (List String × FileEntry)) : Prop where
  below : t.TablesBelow place files
  loaded : ∀ l : Listing t, t.loadDirectory dir l = .ok
    { store := (Store.build (readable dir place files)).1
      diagnostics := (Store.build (readable dir place files)).2
      files := (readable dir place files).length
      failed := failures dir place files }
  named : ∀ file ∈ files, ∀ table, readBelow dir place file = .ok table →
    table.file = pathBelow dir place file.1
  blamed : ∀ file ∈ files, ∀ failure, readBelow dir place file = .error failure →
    failure = .unreadableFile (pathBelow dir place file.1) ∨
      failure = .malformedToml (pathBelow dir place file.1)
  brokenDeleted : ∀ before file after failure, files = before ++ file :: after →
    readBelow dir place file = .error failure → ∀ (l : Listing t) (l' : Listing (t.delete file.1)),
      ∃ r, t.loadDirectory dir l = .ok r ∧
        r.failed = failures dir place before ++ failure :: failures dir place after ∧
        (t.delete file.1).loadDirectory dir l' =
          .ok { r with failed := failures dir place before ++ failures dir place after }
  otherDeleted : ∀ parts, (t.file? parts).isSome = true → ¬IsTableBelow place parts →
    ∀ (l : Listing t) (l' : Listing (t.delete parts)),
      (t.delete parts).loadDirectory dir l' = t.loadDirectory dir l

/-- Loading a directory depends on the tables below it that can be read, in the order of their
paths, and on nothing else. -/
theorem loadLaw_of_wellFormed (h : t.WellFormed) (dir : String) :
    (t.resolve? dir = none → ∀ l, t.loadDirectory dir l = .ok {}) ∧
      ∀ place, t.directory? dir = some place → ∃ files, LoadLaw t dir place files := by
  refine ⟨fun hmissing l => by rw [loadDirectory, hmissing], fun place hplace => ?_⟩
  have hbelow := tablesBelow_tablesBelow h t.listed place
  have hloaded := loadDirectory_eq h hplace hbelow
  refine ⟨_, hbelow, hloaded, fun file _ table => Table.file_of_read,
    fun file _ failure => Table.path_of_read, ?_, ?_⟩
  · intro before file after failure hsplit hbroken l l'
    rw [hsplit] at hbelow hloaded
    have hfile : (t.file? file.1).isSome = true := by
      rw [((hbelow.mem_iff file.1 file.2).mp (by simp)).1]
      rfl
    have hdeleted := loadDirectory_eq (h.delete hfile) (directory?_delete h hfile hplace)
      (hbelow.delete_mem h hfile) l'
    rw [failures_append] at hdeleted
    exact ⟨_, hloaded l, failures_of_broken hbroken,
      by rw [hdeleted, readable_of_broken hbroken]; rfl⟩
  · intro parts hfile hparts l l'
    rw [hloaded l, loadDirectory_eq (h.delete hfile) (directory?_delete h hfile hplace)
      (hbelow.delete_of_not h hfile hparts) l']

private def outpost : FileTree where
  location := ""
  entries := (∅ : Std.ExtTreeMap (List String) FileEntry)
    |>.insert ["rules", "torn.toml"] .binary
    |>.insert ["rules", "north", "guards.toml"] (.text "[[row]]\nid = 1\nentry = 7\n")
    |>.insert ["rules", "north.toml"] (.text "")
    |>.insert ["rules", "garbled.toml"] (.text "=")
    |>.insert ["rules", "notes.md"] (.text "=")

private def backwards (t : FileTree) : Listing t :=
  ⟨fun place => (t.names place).reverse, fun _ => List.reverse_perm _⟩

/-- Of four tables, one is no text and one is no table, from whichever end they are listed. -/
theorem loadLaw_outpost :
    outpost.WellFormed ∧ outpost.directory? "rules" = some ["rules"] ∧
      (∃ files, LoadLaw outpost "rules" ["rules"] files) ∧
      ((outpost.loadDirectory "rules" (backwards _)).toOption.map fun r => (r.files, r.failed)) =
        some (2, [.malformedToml "rules/garbled.toml", .unreadableFile "rules/torn.toml"]) ∧
      (((outpost.delete ["rules", "garbled.toml"]).loadDirectory "rules").toOption.map
        fun r => (r.files, r.failed)) = some (2, [.unreadableFile "rules/torn.toml"]) := by
  have hwellFormed : outpost.WellFormed := by decide +kernel
  have hplace : outpost.directory? "rules" = some ["rules"] := by decide +kernel
  exact ⟨hwellFormed, hplace, (loadLaw_of_wellFormed hwellFormed "rules").2 _ hplace,
    by decide +kernel, by decide +kernel⟩

end FileTree

end TriggerScript
