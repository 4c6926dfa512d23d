import SiteSurvey.Proofs.OrderedMap
import SiteSurvey.Route.Table

/-!
# Merging route tables

A namespace of many raw tables stands where it first comes and holds the routes of the last table
that has it (`ofRawTables_merges`). So tables may be merged in any grouping and more than once.
-/

namespace SiteSurvey.Route.Table

theorem keys_ofRawTables (raws : List RawTable) :
    (ofRawTables raws).keys = (OrderedMap.merge raws).keys :=
  OrderedMap.keys_mapEntries _ _

theorem get?_ofRawTables (raws : List RawTable) (space : Namespace) :
    (ofRawTables raws).get? space = ((OrderedMap.merge raws).get? space).map fun tuples =>
      tuples.filterMap fun tuple => ofTuple? space tuple.toList :=
  OrderedMap.get?_mapEntries _ _ space

/--
The namespaces are those of all raw tables, each once, in the order in which they first come; each
holds the routes of the last table that has it. Tables that come once more change nothing, a table
without a namespace leaves its routes and its place, and tables in a row may be merged beforehand.
-/
theorem ofRawTables_merges (raws : List RawTable) :
    (ofRawTables raws).keys = ((raws.flatMap OrderedMap.entries).map Prod.fst).eraseDups ∧
    (∀ earlier raw later space tuples, raws = earlier ++ raw :: later →
      raw.get? space = some tuples → (∀ other ∈ later, space ∉ other.keys) →
      (ofRawTables raws).get? space =
        some (tuples.filterMap fun tuple => ofTuple? space tuple.toList)) ∧
    ofRawTables (raws ++ raws) = ofRawTables raws ∧
    (∀ (raw : RawTable) (space : Namespace), space ∉ raw.keys →
      (ofRawTables (raws ++ [raw])).get? space = (ofRawTables raws).get? space ∧
      (ofRawTables (raws ++ [raw])).keys.idxOf? space = (ofRawTables raws).keys.idxOf? space) ∧
    ∀ earlier run later, raws = earlier ++ (run ++ later) →
      ofRawTables (earlier ++ OrderedMap.merge run :: later) = ofRawTables raws := by
  refine ⟨?_, ?_, ?_, fun raw space h => ?_, ?_⟩
  · rw [keys_ofRawTables, OrderedMap.keys_merge, List.map_flatMap]
    rfl
  · rintro earlier raw later space tuples rfl hraw hlater
    rw [get?_ofRawTables, OrderedMap.get?_merge_of_last hraw hlater, Option.map_some]
  · rw [ofRawTables, OrderedMap.merge_self, ofRawTables]
  · have hmore : ∀ other ∈ [raw], space ∉ other.keys := List.forall_mem_singleton.2 h
    rw [get?_ofRawTables, get?_ofRawTables, keys_ofRawTables, keys_ofRawTables,
      OrderedMap.get?_merge_append hmore, OrderedMap.idxOf?_keys_merge_append hmore]
    exact ⟨rfl, rfl⟩
  · rintro earlier run later rfl
    rw [ofRawTables, OrderedMap.merge_merge, ofRawTables]

/-- A namespace of two tables, the later of which has a tuple without a name. -/
theorem ofRawTables_merges_stall :
    let first : RawTable := .ofList
      [(.app "stall", ["(name='rye')"]), (.app "boat", ["(name='eel')"])]
    let second : RawTable := .ofList [(.app "stall", ["(name='brie')", "(v)"])]
    let third : RawTable := .singleton (.file "urls.py") ["(v)"]
    (Table.ofRawTables [first, second, third]).keys =
        [.app "stall", .app "boat", .file "urls.py"] ∧
      (Table.ofRawTables [first, second, third]).get? (.app "stall") =
        some [⟨"brie", false, [], "stall:brie"⟩] ∧
      (Table.ofRawTables ([first, second, third] ++ [second])).keys.idxOf? (.app "boat") = some 1 ∧
      Table.ofRawTables [first, OrderedMap.merge [second, third]] =
        Table.ofRawTables [first, second, third] := by
  intro first second third
  obtain ⟨hkeys, hlast, -, hmore, hgroup⟩ := ofRawTables_merges [first, second, third]
  have hspaces := hkeys.trans (b := _) (by decide +kernel : _ =
    [Namespace.app "stall", .app "boat", .file "urls.py"])
  refine ⟨hspaces, ?_, ?_, ?_⟩
  · exact (hlast [first] second [third] (.app "stall") ["(name='brie')", "(v)"] rfl
      (by decide +kernel) (by decide +kernel)).trans (by decide +kernel)
  · rw [(hmore second (.app "boat") (by decide +kernel)).2, hspaces]
    decide +kernel
  · exact hgroup [first] [second, third] [] rfl

end SiteSurvey.Route.Table
