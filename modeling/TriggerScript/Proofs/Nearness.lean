import TriggerScript.Proofs.Distances
import TriggerScript.Proofs.Edits

/-!
# Entities near a position

Those near a position are the entities of the world, living or not, that are within the radius. Each
comes once, and its distance is a number.
-/

namespace TriggerScript

theorem values_eq_map_toList {α β : Type} [Ord α] [Std.TransOrd α]
    (entries : Std.ExtTreeMap α β) :
    entries.values = entries.toList.map (·.2) := by
  have hvalues : entries.values = entries.foldr (fun _ v vs => v :: vs) [] := by
    rcases entries with ⟨⟨entries⟩⟩
    rfl
  rw [hvalues, Std.ExtTreeMap.foldr_eq_foldr_toList]
  induction entries.toList with
  | nil => rfl
  | cons kv kvs ih => rw [List.foldr_cons, ih, List.map_cons]

namespace World

variable {w : World} {center : Position} {radius : Float32} {e : EntityInfo}

theorem near_eq (w : World) (center : Position) (radius : Float32) :
    w.near center radius = (w.entities.toList.map (·.2.info)).filter
      fun e => e.position.distance center ≤ radius := by
  rw [near, values_eq_map_toList, List.map_map]
  rfl

private theorem info?_of_mem_toList {h : Handle} {entity : Entity}
    (hentry : (h, entity) ∈ w.entities.toList) : w.info? h = some entity.info := by
  rw [info?, find?, Std.ExtTreeMap.mem_toList_iff_getElem?_eq_some.mp hentry]
  rfl

theorem isNaN_distance_of_mem_near (hmem : e ∈ w.near center radius) :
    (center.distance e.position).isNaN = false := by
  rw [Position.distance_comm]
  exact Single.isNaN_eq_false_of_le (of_decide_eq_true (List.mem_filter.mp hmem).2)

variable (hw : w.Keyed)
include hw

theorem mem_near_iff : e ∈ w.near center radius ↔
    w.info? e.handle = some e ∧ center.distance e.position ≤ radius := by
  rw [near_eq, List.mem_filter, List.mem_map, decide_eq_true_iff, Position.distance_comm]
  refine and_congr_left' ⟨?_, fun hinfo => ?_⟩
  · rintro ⟨⟨h, entity⟩, hentry, rfl⟩
    have hinfo := info?_of_mem_toList hentry
    rwa [hw.handle_eq hinfo]
  · obtain ⟨entity, hentity, rfl⟩ := Option.map_eq_some_iff.mp hinfo
    exact ⟨(_, entity), Std.ExtTreeMap.mem_toList_iff_getElem?_eq_some.mpr hentity, rfl⟩

theorem nodup_near : ((w.near center radius).map (·.handle)).Nodup := by
  rw [near_eq]
  refine List.Nodup.sublist (List.filter_sublist.map _) ?_
  have hkeys : (w.entities.toList.map (·.2.info)).map (·.handle) = w.entities.keys := by
    rw [List.map_map, ← Std.ExtTreeMap.map_fst_toList_eq_keys]
    refine List.map_congr_left fun ⟨h, entity⟩ hentry => ?_
    exact hw.handle_eq (info?_of_mem_toList hentry)
  rw [hkeys]
  exact Std.ExtTreeMap.nodup_keys

end World

end TriggerScript
