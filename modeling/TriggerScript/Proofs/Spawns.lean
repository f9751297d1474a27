import Mathlib.Algebra.Group.Int.Defs
import Mathlib.Algebra.Group.Nat.Defs
import TriggerScript.Proofs.Building

/-!
# Rules of a spawn

A spawned entity takes the set written for its guid, whose entry is the negated guid, before that of
its template. The negated guid is read as a signed word: up to `2 ^ 63` it is the negative number,
and beyond that it wraps to a positive one, where a template may stand.
-/

namespace TriggerScript

/-- The entry of a spawn with its own rules: the negated guid as a signed word. -/
def guidEntry (guid : UInt64) : Int := (-(guid.toNat : Int)).bmod (2 ^ 64)

theorem toInt_toInt64 (word : UInt64) : word.toInt64.toInt = (word.toNat : Int).bmod (2 ^ 64) :=
  BitVec.toInt_eq_toNat_bmod word.toBitVec

theorem toInt_neg_toInt64 (guid : UInt64) : (-guid.toInt64).toInt = guidEntry guid := by
  rw [Int64.toInt_neg, toInt_toInt64, guidEntry]
  exact Int.bmod_neg_bmod

theorem toInt_templateEntry (entry : UInt32) : entry.toUInt64.toInt64.toInt = entry.toNat := by
  have hentry := entry.toNat_lt
  rw [toInt_toInt64, UInt32.toNat_toUInt64, Int.bmod_def]
  omega

theorem guidEntry_of_le {guid : UInt64} (h : guid.toNat ≤ 2 ^ 63) :
    guidEntry guid = -(guid.toNat : Int) := by
  unfold guidEntry
  rw [Int.bmod_def]
  omega

theorem guidEntry_of_lt {guid : UInt64} (h : 2 ^ 63 < guid.toNat) :
    guidEntry guid = 2 ^ 64 - (guid.toNat : Int) := by
  have hguid := guid.toNat_lt
  unfold guidEntry
  rw [Int.bmod_def]
  omega

theorem negOverflow_toInt64_iff (guid : UInt64) :
    guid.toInt64.toBitVec.negOverflow = true ↔ guid.toNat = 2 ^ 63 := by
  have hguid := guid.toNat_lt
  have hsigned : guid.toInt64.toBitVec.toInt = (guid.toNat : Int).bmod (2 ^ 64) :=
    toInt_toInt64 guid
  rw [BitVec.negOverflow, hsigned, Int.bmod_def, beq_iff_eq]
  omega

namespace Store

def Keyed (s : Store) : Prop := ∀ link set, s.find? link = some set → set.link = link

theorem keyed_empty : Keyed ∅ := by
  intro link set h
  simp [find?] at h

theorem Keyed.insert {s : Store} (h : s.Keyed) (set : RuleSet) :
    Keyed (Std.ExtTreeMap.insert s set.link set) := by
  intro link found hfind
  unfold find? at hfind
  rw [Std.ExtTreeMap.getElem?_insert] at hfind
  split at hfind
  · rename_i hlink
    cases hfind
    exact Std.LawfulEqOrd.eq_of_compare hlink
  · exact h link found hfind

theorem keyed_ofRules (ps : List Placed) : (ofRules ps).Keyed := by
  unfold ofRules
  apply List.foldlRecOn (motive := Keyed)
  · exact keyed_empty
  · intro s hs link _
    exact hs.insert (.ofRules link (cleaned ps link))

theorem keyed_build (tables : List Table) : (build tables).1.Keyed := keyed_ofRules _

/-- The store has this set for an entry of the domain. -/
def Holds (s : Store) (source : SourceType) (entry : Int) (set : RuleSet) : Prop :=
  s.find? set.link = some set ∧ set.link.sourceType = source ∧ set.link.entry.toInt = entry

variable {s : Store}

theorem Keyed.find?_eq_some_iff (hs : s.Keyed) {entry : Int64} {source : SourceType}
    {set : RuleSet} :
    s.find? ⟨entry, source⟩ = some set ↔ s.Holds source entry.toInt set := by
  constructor
  · intro h
    have hlink := hs _ _ h
    refine ⟨?_, ?_, ?_⟩
    · rw [hlink]
      exact h
    · rw [hlink]
    · rw [hlink]
  · rintro ⟨hfind, hsource, hentry⟩
    have hlink : set.link = ⟨entry, source⟩ := by
      rw [← hsource, ← Int64.toInt_inj.mp hentry]
    rwa [hlink] at hfind

/-- A spawn takes the set of its guid before that of its template. Up to a guid of `2 ^ 63` the
entry of the guid is the negated guid, which is a signed word up to `2 ^ 63 - 1` only. -/
theorem own_set_precedes_template (hs : s.Keyed) (source : SourceType) (entry : UInt32)
    (guid : UInt64) :
    (∀ set, s.forSpawn? source entry guid = some set ↔
      (guid ≠ 0 ∧ s.Holds source (guidEntry guid) set) ∨
        ((guid = 0 ∨ ∀ own, ¬s.Holds source (guidEntry guid) own) ∧
          s.Holds source entry.toNat set)) ∧
    (guid.toNat ≤ 2 ^ 63 → guidEntry guid = -(guid.toNat : Int)) ∧
    (2 ^ 63 < guid.toNat → guidEntry guid = 2 ^ 64 - (guid.toNat : Int)) ∧
    (guid.toInt64.toBitVec.negOverflow = true ↔ guid.toNat = 2 ^ 63) := by
  refine ⟨?_, guidEntry_of_le, guidEntry_of_lt, negOverflow_toInt64_iff guid⟩
  intro set
  have hown : ∀ own, s.find? ⟨-guid.toInt64, source⟩ = some own ↔
      s.Holds source (guidEntry guid) own := by
    intro own
    rw [hs.find?_eq_some_iff, toInt_neg_toInt64]
  have htemplate : s.find? ⟨entry.toUInt64.toInt64, source⟩ = some set ↔
      s.Holds source entry.toNat set := by
    rw [hs.find?_eq_some_iff, toInt_templateEntry]
  unfold forSpawn?
  dsimp only
  rw [← htemplate]
  simp only [← hown]
  by_cases hguid : guid = 0
  · simp [hguid]
  · cases hfind : s.find? ⟨-guid.toInt64, source⟩ with
    | none => simp [hguid]
    | some own => simp [hguid]

private def wolfTables : List Table :=
  [.single 100 0 4 id, .single 7 0 4 id, .single (-7) 0 4 id]

private def wolves : Store := (build wolfTables).1

/-- A spawn with guid 7 takes the set written for it, and not that of its template. -/
theorem guid_seven_takes_own_set :
    wolves.Keyed ∧ ∃ set, wolves.forSpawn? .creature 100 7 = some set ∧
      wolves.Holds .creature (-7) set := by
  have hkeyed : wolves.Keyed := keyed_build wolfTables
  obtain ⟨htakes, hnegated, -, -⟩ := own_set_precedes_template hkeyed .creature 100 7
  have hsome : (wolves.find? (.creature (-7))).isSome = true := by decide +kernel
  obtain ⟨set, hset⟩ := Option.isSome_iff_exists.mp hsome
  have hholds : wolves.Holds .creature (-7) set := hkeyed.find?_eq_some_iff.mp hset
  refine ⟨hkeyed, set, (htakes set).mpr (.inl ⟨by decide, ?_⟩), hholds⟩
  rw [hnegated (by decide)]
  exact hholds

/-- The guid `2 ^ 64 - 7` takes the set of template 7, which is neither that of the guid nor that of
the template of the spawn; and the guid `2 ^ 63` cannot be negated. -/
theorem huge_guid_takes_other_template :
    wolves.Keyed ∧
      (wolves.forSpawn? .creature 100 0xFFFFFFFFFFFFFFF9).map (·.link.entry.toInt) = some 7 ∧
      (7 : Int) ≠ -((0xFFFFFFFFFFFFFFF9 : UInt64).toNat : Int) ∧ (7 : Int) ≠ 100 ∧
      (0x8000000000000000 : UInt64).toInt64.toBitVec.negOverflow = true :=
  ⟨keyed_build wolfTables, by decide +kernel, by decide, by decide, by decide⟩

end Store

end TriggerScript
