import Mathlib.Data.List.Nodup
import TriggerScript.Files
import TriggerScript.Proofs.Orders

/-!
# Walks through file trees

In a tree where nothing stands below a file, a walk that lists one directory after another comes
upon every file below its place once, whatever order the names are listed in. To delete a file
takes it out of the tree and leaves all directories.
-/

namespace TriggerScript.FileTree

variable {t : FileTree} {place parts rest : List String} {name : String}

theorem isDirectory_iff :
    t.isDirectory place = true ↔ place = [] ∨ ∃ parts content, t.entries[parts]? = some content ∧
      place <+: parts ∧ (place = parts → content = .directory) := by
  simp only [isDirectory, Bool.or_eq_true, List.isEmpty_iff, List.any_eq_true, Prod.exists,
    Std.ExtTreeMap.mem_toList_iff_getElem?_eq_some]
  refine or_congr_right (exists_congr fun parts => exists_congr fun content => and_congr_right' ?_)
  cases content <;> simp [List.isPrefixOf_iff_prefix]

theorem file?_eq_some_iff {content : FileEntry} :
    t.file? parts = some content ↔ t.entries[parts]? = some content ∧ content ≠ .directory := by
  unfold file?
  split
  · rename_i h
    rw [h]
    grind
  · rename_i h
    exact ⟨fun heq => ⟨heq, fun hdir => h (hdir ▸ heq)⟩, And.left⟩

theorem below?_eq_some_iff :
    below? place parts = some rest ↔ parts = place ++ rest ∧ rest ≠ [] := by
  unfold below?
  split
  · rename_i h
    obtain ⟨⟨rest', rfl⟩, hne⟩ := (and_congr_left' List.isPrefixOf_iff_prefix).mp h
    rw [List.drop_left, Option.some.injEq, List.append_cancel_left_eq]
    exact ⟨fun heq => ⟨heq, by rintro rfl; simp [heq] at hne⟩, And.left⟩
  · rename_i h
    refine ⟨nofun, ?_⟩
    rintro ⟨rfl, hrest⟩
    simp [List.isPrefixOf_iff_prefix, hrest] at h

theorem mem_names_iff : name ∈ t.names place ↔
    t.isDirectory (place ++ [name]) = true ∨ (t.file? (place ++ [name])).isSome = true := by
  have hnames : name ∈ t.names place ↔
      ∃ parts content, t.entries[parts]? = some content ∧ place ++ [name] <+: parts := by
    simp only [names, List.mem_eraseDups, List.mem_filterMap, Std.ExtTreeMap.mem_keys,
      Option.bind_eq_some_iff, below?_eq_some_iff, Std.ExtTreeMap.mem_iff_isSome_getElem?,
      Option.isSome_iff_exists]
    constructor
    · rintro ⟨parts, ⟨content, hentry⟩, rest, ⟨rfl, -⟩, hhead⟩
      obtain ⟨rest, rfl⟩ := List.head?_eq_some_iff.mp hhead
      exact ⟨_, content, hentry, rest, by simp⟩
    · rintro ⟨parts, content, hentry, rest, rfl⟩
      exact ⟨_, ⟨content, hentry⟩, name :: rest, by simp, rfl⟩
  rw [hnames, isDirectory_iff, Option.isSome_iff_exists]
  constructor
  · rintro ⟨parts, content, hentry, hpre⟩
    by_cases hdir : place ++ [name] = parts → content = .directory
    · exact .inl (.inr ⟨parts, content, hentry, hpre, hdir⟩)
    · rw [Classical.not_imp] at hdir
      exact .inr ⟨content, file?_eq_some_iff.mpr ⟨hdir.1 ▸ hentry, hdir.2⟩⟩
  · rintro ((hempty | ⟨parts, content, hentry, hpre, -⟩) | ⟨content, hfile⟩)
    · simp at hempty
    · exact ⟨parts, content, hentry, hpre⟩
    · exact ⟨_, content, (file?_eq_some_iff.mp hfile).1, List.prefix_rfl⟩

theorem length_le_depth {content : FileEntry} (h : t.entries[parts]? = some content) :
    parts.length ≤ t.depth := by
  refine List.le_max?_getD_of_mem (List.mem_map.mpr ⟨parts, ?_, rfl⟩)
  rw [Std.ExtTreeMap.mem_keys, Std.ExtTreeMap.mem_iff_isSome_getElem?, h]
  rfl

def WellFormed (t : FileTree) : Prop :=
  ∀ parts, t.isDirectory parts = true → t.file? parts = none

theorem wellFormed_iff : t.WellFormed ↔
    ∀ parts ∈ t.entries.keys, t.isDirectory parts = true → t.file? parts = none := by
  refine ⟨fun h parts _ => h parts, fun h parts hdir => ?_⟩
  by_cases hmem : parts ∈ t.entries
  · exact h parts (Std.ExtTreeMap.mem_keys.mpr hmem) hdir
  · rw [file?, Std.ExtTreeMap.getElem?_eq_none hmem]

instance : DecidablePred WellFormed := fun _ => decidable_of_iff _ wellFormed_iff.symm

theorem isDirectory_of_file? (hparts : (t.file? parts).isSome = true) (hpre : place <+: parts)
    (hne : place ≠ parts) : t.isDirectory place = true := by
  obtain ⟨content, hfile⟩ := Option.isSome_iff_exists.mp hparts
  exact isDirectory_iff.mpr (.inr
    ⟨parts, content, (file?_eq_some_iff.mp hfile).1, hpre, fun heq => absurd heq hne⟩)

theorem isDirectory_of_prefix (h : t.isDirectory parts = true) (hpre : place <+: parts) :
    t.isDirectory place = true := by
  obtain rfl | ⟨entry, content, hentry, hunder, hdir⟩ := isDirectory_iff.mp h
  · exact isDirectory_iff.mpr (.inl (List.prefix_nil.mp hpre))
  · refine isDirectory_iff.mpr (.inr ⟨entry, content, hentry, hpre.trans hunder, ?_⟩)
    rintro rfl
    exact hdir (hunder.eq_of_length_le hpre.length_le)

theorem WellFormed.isDirectory_eq_false (h : t.WellFormed)
    (hparts : (t.file? parts).isSome = true) : t.isDirectory parts = false := by
  rw [← Bool.not_eq_true]
  intro hdir
  rw [h parts hdir] at hparts
  cases hparts

theorem eq_of_walk (hplace : t.isDirectory place = false) (h : t.walk place parts = some rest) :
    rest = place := by
  cases parts with
  | nil => exact (Option.some.inj h).symm
  | cons part parts =>
    rw [walk, hplace] at h
    cases h

section Walks

variable (l : Listing t) (wanted : String → Bool) {depth : Nat}

theorem mem_collect_succ : parts ∈ t.collect l wanted (depth + 1) place ↔
    ∃ name, (t.isDirectory (place ++ [name]) = true ∧
        parts ∈ t.collect l wanted depth (place ++ [name])) ∨
      (t.isDirectory (place ++ [name]) = false ∧ (t.file? (place ++ [name])).isSome = true ∧
        wanted name = true ∧ parts = place ++ [name]) := by
  simp only [collect, List.mem_flatMap, (l.perm place).mem_iff, mem_names_iff]
  refine exists_congr fun name => ?_
  cases t.isDirectory (place ++ [name]) <;> cases wanted name <;> simp

theorem prefix_of_mem_collect (h : parts ∈ t.collect l wanted depth place) :
    place <+: parts ∧ place ≠ parts := by
  induction depth generalizing place with
  | zero => cases h
  | succ depth ih =>
    obtain ⟨name, ⟨-, hmem⟩ | ⟨-, -, -, rfl⟩⟩ := (mem_collect_succ l wanted).mp h
    · obtain ⟨⟨rest, rfl⟩, -⟩ := ih hmem
      simp
    · simp

/-- A walk that goes down deep enough finds exactly the files with wanted names below its place. -/
theorem mem_collect_iff (h : t.WellFormed) (hdepth : t.depth ≤ place.length + depth) :
    parts ∈ t.collect l wanted depth place ↔ (t.file? parts).isSome = true ∧
      place <+: parts ∧ place ≠ parts ∧ parts.getLast?.any wanted = true := by
  induction depth generalizing place with
  | zero =>
    refine ⟨nofun, ?_⟩
    rintro ⟨hfile, hpre, hne, -⟩
    obtain ⟨content, hcontent⟩ := Option.isSome_iff_exists.mp hfile
    have hlength := length_le_depth (file?_eq_some_iff.mp hcontent).1
    exact absurd (hpre.eq_of_length_le (by omega)) hne
  | succ depth ih =>
    have hnext : ∀ name, parts ∈ t.collect l wanted depth (place ++ [name]) ↔
        (t.file? parts).isSome = true ∧ place ++ [name] <+: parts ∧ place ++ [name] ≠ parts ∧
          parts.getLast?.any wanted = true := fun name => ih (by
      rw [List.length_append, List.length_singleton]
      omega)
    simp only [mem_collect_succ, hnext]
    constructor
    · rintro ⟨name, ⟨-, hfile, ⟨rest, rfl⟩, hne, hlast⟩ | ⟨-, hfile, hname, rfl⟩⟩
      · exact ⟨hfile, by simp, by simp, hlast⟩
      · exact ⟨hfile, by simp, by simp, by simpa using hname⟩
    · rintro ⟨hfile, ⟨rest, rfl⟩, hne, hlast⟩
      -- The walk goes on with the first part of what is left.
      cases rest with
      | nil => simp at hne
      | cons name rest =>
        refine ⟨name, ?_⟩
        have hsplit : place ++ name :: rest = place ++ [name] ++ rest := by simp
        rw [hsplit] at hfile hlast ⊢
        by_cases hrest : rest = []
        · subst hrest
          rw [List.append_nil] at hfile hlast ⊢
          exact .inr ⟨h.isDirectory_eq_false hfile, hfile, by simpa using hlast, rfl⟩
        · have hbelow : place ++ [name] ≠ place ++ [name] ++ rest := by simpa using hrest
          exact .inl ⟨isDirectory_of_file? hfile (List.prefix_append _ _) hbelow, hfile,
            List.prefix_append _ _, hbelow, hlast⟩

theorem nodup_collect : (t.collect l wanted depth place).Nodup := by
  induction depth generalizing place with
  | zero => exact .nil
  | succ depth ih =>
    have hnames : (l.list place).Nodup := (l.perm place).nodup_iff.mpr (nodup_eraseDups _)
    refine List.nodup_flatMap.mpr ⟨fun name _ => ?_, hnames.imp fun {a b} hne parts ha hb => ?_⟩
    · split
      · exact ih
      · split
        · exact List.nodup_singleton _
        · exact .nil
    · have hunder : ∀ {c}, parts ∈ (if t.isDirectory (place ++ [c]) then
          t.collect l wanted depth (place ++ [c])
          else if wanted c then [place ++ [c]] else []) → place ++ [c] <+: parts := fun hc => by
        split at hc
        · exact (prefix_of_mem_collect l wanted hc).1
        · split at hc
          · exact List.mem_singleton.mp hc ▸ List.prefix_rfl
          · cases hc
      have hsame : place ++ [a] = place ++ [b] :=
        (List.prefix_of_prefix_length_le (hunder ha) (hunder hb) (by simp)).eq_of_length (by simp)
      exact hne (by simpa using hsame)

end Walks

def delete (t : FileTree) (parts : List String) : FileTree :=
  { t with entries := (t.entries.erase parts).insert parts.dropLast .directory }

section Delete

variable {file : List String} {path : String}

@[simp]
theorem location_delete : (t.delete file).location = t.location := rfl

@[simp]
theorem workingDirectory_delete : (t.delete file).workingDirectory = t.workingDirectory := rfl

theorem getElem?_delete : (t.delete file).entries[parts]? =
    if parts = file.dropLast then some .directory else if parts = file then none
      else t.entries[parts]? := by
  simp only [delete, Std.ExtTreeMap.getElem?_insert, Std.ExtTreeMap.getElem?_erase,
    Std.LawfulEqCmp.compare_eq_iff_eq, @eq_comm _ parts]

variable (h : t.WellFormed) (hfile : (t.file? file).isSome = true)

include h hfile

theorem WellFormed.ne_nil : file ≠ [] := by
  rintro rfl
  exact absurd (h.isDirectory_eq_false hfile) (by simp [isDirectory])

theorem WellFormed.prefix_dropLast (hplace : t.isDirectory place = true) (hpre : place <+: file) :
    place <+: file.dropLast := by
  obtain ⟨dir, name, rfl⟩ := (List.eq_nil_or_concat' file).resolve_left (h.ne_nil hfile)
  rw [List.dropLast_concat]
  refine (List.prefix_concat_iff.mp hpre).resolve_left ?_
  rintro rfl
  exact absurd hplace (by rw [h.isDirectory_eq_false hfile]; exact Bool.false_ne_true)

theorem WellFormed.isDirectory_dropLast : t.isDirectory file.dropLast = true := by
  refine isDirectory_of_file? hfile (List.dropLast_prefix file) ?_
  obtain ⟨dir, name, rfl⟩ := (List.eq_nil_or_concat' file).resolve_left (h.ne_nil hfile)
  simp

theorem isDirectory_delete (place : List String) :
    (t.delete file).isDirectory place = t.isDirectory place := by
  rw [Bool.eq_iff_iff]
  constructor
  · intro hplace
    obtain rfl | ⟨parts, content, hentry, hpre, hdir⟩ := isDirectory_iff.mp hplace
    · exact isDirectory_iff.mpr (.inl rfl)
    · rw [getElem?_delete] at hentry
      split at hentry
      · rename_i heq
        exact isDirectory_of_prefix (h.isDirectory_dropLast hfile) (heq ▸ hpre)
      · split at hentry
        · cases hentry
        · exact isDirectory_iff.mpr (.inr ⟨parts, content, hentry, hpre, hdir⟩)
  · intro hplace
    by_cases habove : place <+: file.dropLast
    · exact isDirectory_iff.mpr (.inr
        ⟨file.dropLast, .directory, by rw [getElem?_delete, if_pos rfl], habove, fun _ => rfl⟩)
    · obtain rfl | ⟨parts, content, hentry, hpre, hdir⟩ := isDirectory_iff.mp hplace
      · exact absurd List.nil_prefix habove
      · have hdrop : parts ≠ file.dropLast := fun heq => habove (heq ▸ hpre)
        have hother : parts ≠ file := fun heq =>
          habove (h.prefix_dropLast hfile hplace (heq ▸ hpre))
        refine isDirectory_iff.mpr (.inr ⟨parts, content, ?_, hpre, hdir⟩)
        rw [getElem?_delete, if_neg hdrop, if_neg hother, hentry]

theorem file?_delete (parts : List String) :
    (t.delete file).file? parts = if parts = file then none else t.file? parts := by
  by_cases hdrop : parts = file.dropLast
  · have hnone : t.file? parts = none := h parts (hdrop ▸ h.isDirectory_dropLast hfile)
    rw [hnone, ite_self, file?, getElem?_delete, if_pos hdrop]
  · rw [file?, getElem?_delete, if_neg hdrop]
    by_cases hself : parts = file
    · rw [if_pos hself, if_pos hself]
    · rw [if_neg hself, if_neg hself, file?]

theorem WellFormed.delete : (t.delete file).WellFormed := by
  intro parts hparts
  rw [isDirectory_delete h hfile] at hparts
  rw [file?_delete h hfile, h parts hparts, ite_self]

theorem walk_delete (hrest : t.isDirectory rest = true) (hwalk : t.walk place parts = some rest) :
    (t.delete file).walk place parts = some rest := by
  induction parts generalizing place with
  | nil => exact hwalk
  | cons part parts ih =>
    rw [walk] at hwalk ⊢
    rw [isDirectory_delete h hfile, isDirectory_delete h hfile]
    split_ifs at hwalk with hplace hstay hup hroot hstep
    · rw [if_neg hplace, if_pos hstay]
      exact ih hwalk
    · rw [if_neg hplace, if_neg hstay, if_pos hup, if_neg hroot]
      exact ih hwalk
    · have hdir : t.isDirectory (place ++ [part]) = true := by
        by_contra hno
        rw [Bool.not_eq_true] at hno
        rw [eq_of_walk hno hwalk, hno] at hrest
        cases hrest
      rw [if_neg hplace, if_neg hstay, if_neg hup, hdir, Bool.true_or, if_pos rfl]
      exact ih hwalk

theorem directory?_delete (hplace : t.directory? path = some place) :
    (t.delete file).directory? path = some place := by
  obtain ⟨hresolve, hdir⟩ := Option.filter_eq_some_iff.mp hplace
  refine Option.filter_eq_some_iff.mpr ⟨?_, by rw [isDirectory_delete h hfile, hdir]⟩
  rw [resolve?] at hresolve ⊢
  rw [location_delete, workingDirectory_delete]
  split_ifs at hresolve with hempty hroot hwithin habsolute
  · rw [if_neg hempty, if_pos hroot, hresolve]
  · rw [if_neg hempty, if_neg hroot, if_pos hwithin]
    exact walk_delete h hfile hdir hresolve
  · rw [if_neg hempty, if_neg hroot, if_neg hwithin, if_neg habsolute]
    exact walk_delete h hfile hdir hresolve

end Delete

end TriggerScript.FileTree
