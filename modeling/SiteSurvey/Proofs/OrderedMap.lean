import Mathlib.Algebra.GroupWithZero.Nat
import Mathlib.Data.List.Basic
import Mathlib.Data.List.Induction
import SiteSurvey.OrderedMap

/-!
# Looking up in maps in insertion order

A map is known by its keys in order and by the value of each key. This file says how each operation
changes both: setting keys in turn keeps the first place of each key (`keys_insertAll`) and its last
value (`get?_insertAll`), and merging maps does the same for all their entries.
-/

namespace SiteSurvey.OrderedMap

universe u v w

/-! ## Keys that come first -/

section Keys

variable {α : Type u} [DecidableEq α]

theorem eraseDups_of_nodup {keys : List α} (h : keys.Nodup) : keys.eraseDups = keys := by
  induction keys with
  | nil => rfl
  | cons key keys ih =>
    obtain ⟨hkey, hkeys⟩ := List.nodup_cons.1 h
    rw [List.eraseDups_cons, List.filter_eq_self.2, ih hkeys]
    intro other hother
    have hne : other ≠ key := fun e => hkey (e ▸ hother)
    simpa using hne

/-- A key that came before does not count again. -/
theorem eraseDups_append_cons (keys : List α) (key : α) (later : List α) :
    (keys ++ key :: later).eraseDups =
      ((if key ∈ keys then keys else keys ++ [key]) ++ later).eraseDups := by
  split_ifs with h
  · rw [List.eraseDups_append, List.eraseDups_append]
    congr 2
    simp [List.removeAll, h]
  · rw [List.append_assoc, List.singleton_append]

/-- A list of keys in their first places grows by the keys that are new. -/
theorem eraseDups_concat (keys : List α) (key : α) :
    (keys ++ [key]).eraseDups =
      if key ∈ keys.eraseDups then keys.eraseDups else keys.eraseDups ++ [key] := by
  rw [List.eraseDups_append]
  by_cases h : key ∈ keys
  · simp [List.removeAll, h]
  · simp [List.removeAll, h, List.eraseDups_cons]

/-- Later keys may as well be without their repetitions. -/
theorem eraseDups_append_eraseDups (keys later : List α) :
    (keys ++ later.eraseDups).eraseDups = (keys ++ later).eraseDups := by
  induction later using List.reverseRecOn with
  | nil => rfl
  | append_singleton later key ih =>
    rw [eraseDups_concat later, ← List.append_assoc keys, eraseDups_concat (keys ++ later), ← ih]
    by_cases hlater : key ∈ later
    · simp [hlater]
    · rw [if_neg (by simpa using hlater), ← List.append_assoc, eraseDups_concat]

theorem eraseDups_append_self (keys : List α) : (keys ++ keys).eraseDups = keys.eraseDups := by
  have hnone : keys.removeAll keys = [] := by simp [List.removeAll]
  rw [List.eraseDups_append, hnone, List.eraseDups_nil, List.append_nil]

end Keys

/-! ## One key -/

section Update

variable {α : Type u} {β : Type v} [DecidableEq α]

theorem keys_alter (m : OrderedMap α β) (key : α) (change : Option β → β) :
    (m.alter key change).keys = if key ∈ m.keys then m.keys else m.keys ++ [key] :=
  keys_alterEntries key change m.entries

theorem get?_empty (key : α) : (∅ : OrderedMap α β).get? key = none := rfl

/-- No key comes twice, so each entry is the one that its key finds. -/
theorem get?_of_mem {m : OrderedMap α β} {key : α} {value : β} (h : (key, value) ∈ m.entries) :
    m.get? key = some value := by
  obtain ⟨entries, hnodup⟩ := m
  unfold get?
  dsimp only at h ⊢
  induction entries with
  | nil => exact absurd h List.not_mem_nil
  | cons entry entries ih =>
    rw [List.map_cons, List.nodup_cons] at hnodup
    rcases List.mem_cons.1 h with rfl | h
    · simp
    · have hne : entry.1 ≠ key := fun e => hnodup.1 (e ▸ List.mem_map_of_mem h)
      rw [List.find?_cons_of_neg (by simpa using hne)]
      exact ih hnodup.2 h

theorem find?_alterEntries (key other : α) (change : Option β → β) (entries : List (α × β)) :
    ((alterEntries key change entries).find? fun entry => entry.1 = other).map Prod.snd =
      if other = key then some (change ((entries.find? fun entry => entry.1 = key).map Prod.snd))
      else (entries.find? fun entry => entry.1 = other).map Prod.snd := by
  induction entries with
  | nil =>
    by_cases h : other = key
    · simp [alterEntries, h]
    · have h' : key ≠ other := fun e => h e.symm
      simp [alterEntries, h, h']
  | cons entry entries ih =>
    obtain ⟨k, old⟩ := entry
    by_cases hk : k = key
    · subst hk
      by_cases h : other = k
      · simp [alterEntries, h]
      · have h' : k ≠ other := fun e => h e.symm
        simp [alterEntries, h, h']
    · rw [alterEntries, if_neg hk]
      by_cases ho : k = other
      · have h' : other ≠ key := fun e => hk (ho.trans e)
        simp [ho, h']
      · rw [List.find?_cons_of_neg (by simpa using ho), List.find?_cons_of_neg (by simpa using hk),
          List.find?_cons_of_neg (by simpa using ho), ih]

theorem get?_alter (m : OrderedMap α β) (key other : α) (change : Option β → β) :
    (m.alter key change).get? other =
      if other = key then some (change (m.get? key)) else m.get? other :=
  find?_alterEntries key other change m.entries

/-- Putting more behind the list at a key makes all lists together longer by as much. -/
theorem sum_length_alter {γ : Type w} (m : OrderedMap α (List γ)) (key : α) (more : List γ) :
    ((m.alter key fun old => old.getD [] ++ more).values.map List.length).sum =
      (m.values.map List.length).sum + more.length := by
  have h (entries : List (α × List γ)) :
      (((alterEntries key (fun old => old.getD [] ++ more) entries).map Prod.snd).map
        List.length).sum = ((entries.map Prod.snd).map List.length).sum + more.length := by
    induction entries with
    | nil => simp [alterEntries]
    | cons entry entries ih =>
      rw [alterEntries]
      split_ifs with hk
      · simp only [List.map_cons, List.sum_cons, Option.getD_some, List.length_append]
        omega
      · rw [List.map_cons, List.map_cons, List.sum_cons, ih, List.map_cons, List.map_cons,
          List.sum_cons, Nat.add_assoc]
  exact h m.entries

theorem keys_insert (m : OrderedMap α β) (key : α) (value : β) :
    (m.insert key value).keys = if key ∈ m.keys then m.keys else m.keys ++ [key] :=
  keys_alter m key _

theorem get?_insert (m : OrderedMap α β) (key other : α) (value : β) :
    (m.insert key value).get? other = if other = key then some value else m.get? other :=
  get?_alter m key other _

theorem mem_keys_iff {m : OrderedMap α β} {key : α} :
    key ∈ m.keys ↔ ∃ value, m.get? key = some value := by
  constructor
  · intro h
    obtain ⟨entry, hentry, rfl⟩ := List.mem_map.1 h
    exact ⟨entry.2, get?_of_mem hentry⟩
  · rintro ⟨value, hvalue⟩
    obtain ⟨entry, hentry, -⟩ := Option.map_eq_some_iff.1 hvalue
    have hkey : entry.1 = key := by simpa using List.find?_some hentry
    exact hkey ▸ List.mem_map_of_mem (List.mem_of_find?_eq_some hentry)

/-- The entries are read back from the keys and their values. -/
theorem entries_eq (m : OrderedMap α β) :
    m.entries = m.keys.filterMap fun key => (m.get? key).map (key, ·) := by
  rw [keys, List.filterMap_map]
  refine List.filterMap_some.symm.trans (List.filterMap_congr fun entry hentry => ?_)
  rw [Function.comp_apply, get?_of_mem hentry, Option.map_some]

theorem ext_get? {m n : OrderedMap α β} (hkeys : m.keys = n.keys)
    (hget : ∀ key, m.get? key = n.get? key) : m = n := by
  ext1
  rw [entries_eq m, entries_eq n, hkeys]
  simp only [hget]

end Update

/-! ## Many keys -/

section Merge

variable {α : Type u} {β : Type v} [DecidableEq α]

/-- The last value that a list of entries gives to a key. -/
def lastValue? (entries : List (α × β)) (key : α) : Option β :=
  (entries.filter fun entry => entry.1 = key).getLast?.map Prod.snd

theorem lastValue?_cons (key other : α) (value : β) (entries : List (α × β)) :
    lastValue? ((key, value) :: entries) other =
      (lastValue? entries other).or (if other = key then some value else none) := by
  unfold lastValue?
  by_cases h : key = other
  · rw [List.filter_cons_of_pos (by simpa using h), if_pos h.symm, List.getLast?_cons]
    cases (entries.filter fun entry => decide (entry.1 = other)).getLast? <;> rfl
  · rw [List.filter_cons_of_neg (by simpa using h), if_neg fun e => h e.symm, Option.or_none]

theorem lastValue?_append (entries later : List (α × β)) (key : α) :
    lastValue? (entries ++ later) key = (lastValue? later key).or (lastValue? entries key) := by
  unfold lastValue?
  rw [List.filter_append, List.getLast?_append, Option.map_or]

theorem lastValue?_eq_none {entries : List (α × β)} {key : α}
    (h : key ∉ entries.map Prod.fst) : lastValue? entries key = none := by
  have hnone : (entries.filter fun entry => decide (entry.1 = key)) = [] := by
    refine List.filter_eq_nil_iff.2 fun entry hentry => ?_
    have hne : entry.1 ≠ key := fun e => h (e ▸ List.mem_map_of_mem hentry)
    simpa using hne
  rw [lastValue?, hnone]
  rfl

theorem keys_insertAll (m : OrderedMap α β) (entries : List (α × β)) :
    (m.insertAll entries).keys = (m.keys ++ entries.map Prod.fst).eraseDups := by
  induction entries generalizing m with
  | nil =>
    rw [List.map_nil, List.append_nil]
    exact (eraseDups_of_nodup m.nodup_keys).symm
  | cons entry entries ih =>
    have h := ih (m.insert entry.1 entry.2)
    rw [keys_insert, ← eraseDups_append_cons] at h
    exact h

theorem get?_insertAll (m : OrderedMap α β) (entries : List (α × β)) (key : α) :
    (m.insertAll entries).get? key = (lastValue? entries key).or (m.get? key) := by
  induction entries generalizing m with
  | nil => rfl
  | cons entry entries ih =>
    have h := ih (m.insert entry.1 entry.2)
    rw [get?_insert] at h
    rw [lastValue?_cons, Option.or_assoc]
    refine h.trans ?_
    split_ifs <;> simp

/-- No key comes twice in a map, so the last value of a key is its value. -/
theorem lastValue?_entries (m : OrderedMap α β) (key : α) :
    lastValue? m.entries key = m.get? key := by
  obtain ⟨entries, hnodup⟩ := m
  unfold get?
  dsimp only
  induction entries with
  | nil => rfl
  | cons entry entries ih =>
    obtain ⟨k, value⟩ := entry
    obtain ⟨hk, hrest⟩ := List.nodup_cons.1 hnodup
    rw [lastValue?_cons]
    by_cases h : key = k
    · subst h
      rw [lastValue?_eq_none hk, if_pos rfl, List.find?_cons_of_pos (by simp)]
      rfl
    · rw [if_neg h, Option.or_none, ih hrest,
        List.find?_cons_of_neg (by simpa using fun e => h e.symm)]

theorem insertAll_append (m : OrderedMap α β) (entries later : List (α × β)) :
    m.insertAll (entries ++ later) = (m.insertAll entries).insertAll later :=
  List.foldl_append

/-- Setting the entries of a list once more in turn is the same as setting what they came to. -/
theorem insertAll_ofList (m : OrderedMap α β) (entries : List (α × β)) :
    m.insertAll (ofList entries).entries = m.insertAll entries := by
  refine ext_get? ?_ fun key => ?_
  · have hkeys : (ofList entries).entries.map Prod.fst = (entries.map Prod.fst).eraseDups :=
      keys_insertAll ∅ entries
    rw [keys_insertAll, keys_insertAll, hkeys, eraseDups_append_eraseDups]
  · rw [get?_insertAll, get?_insertAll, lastValue?_entries, ofList, get?_insertAll, get?_empty,
      Option.or_none]

theorem merge_eq_ofList (maps : List (OrderedMap α β)) :
    merge maps = ofList (maps.flatMap entries) := by
  have h (m : OrderedMap α β) : maps.foldl (fun m later => m.insertAll later.entries) m =
      m.insertAll (maps.flatMap entries) := by
    induction maps generalizing m with
    | nil => rfl
    | cons first maps ih =>
      rw [List.foldl_cons, ih, List.flatMap_cons, insertAll_append]
  exact h ∅

theorem merge_append (maps more : List (OrderedMap α β)) :
    merge (maps ++ more) = (merge maps).insertAll (more.flatMap entries) := by
  rw [merge_eq_ofList, merge_eq_ofList, List.flatMap_append, ofList, insertAll_append]
  rfl

/-- Maps in a row may be merged beforehand. -/
theorem merge_merge (earlier run later : List (OrderedMap α β)) :
    merge (earlier ++ merge run :: later) = merge (earlier ++ (run ++ later)) := by
  rw [merge_append, merge_append, List.flatMap_cons, List.flatMap_append, insertAll_append,
    insertAll_append, merge_eq_ofList run, insertAll_ofList]

theorem keys_merge (maps : List (OrderedMap α β)) :
    (merge maps).keys = (maps.flatMap keys).eraseDups := by
  rw [merge_eq_ofList, ofList, keys_insertAll, List.map_flatMap]
  rfl

theorem get?_merge (maps : List (OrderedMap α β)) (key : α) :
    (merge maps).get? key = lastValue? (maps.flatMap entries) key := by
  rw [merge_eq_ofList, ofList, get?_insertAll, get?_empty, Option.or_none]

theorem lastValue?_flatMap_eq_none {maps : List (OrderedMap α β)} {key : α}
    (h : ∀ m ∈ maps, key ∉ m.keys) : lastValue? (maps.flatMap entries) key = none := by
  apply lastValue?_eq_none
  rw [List.map_flatMap, List.mem_flatMap]
  rintro ⟨m, hm, hkey⟩
  exact h m hm hkey

/-- The last map that holds a key gives its value. -/
theorem get?_merge_of_last {earlier later : List (OrderedMap α β)} {m : OrderedMap α β} {key : α}
    {value : β} (h : m.get? key = some value) (hlater : ∀ other ∈ later, key ∉ other.keys) :
    (merge (earlier ++ m :: later)).get? key = some value := by
  rw [get?_merge, List.flatMap_append, List.flatMap_cons, lastValue?_append, lastValue?_append,
    lastValue?_flatMap_eq_none hlater, lastValue?_entries, h]
  rfl

section More

variable {maps more : List (OrderedMap α β)} {key : α}

theorem get?_merge_append (h : ∀ m ∈ more, key ∉ m.keys) :
    (merge (maps ++ more)).get? key = (merge maps).get? key := by
  rw [get?_merge, get?_merge, List.flatMap_append, lastValue?_append,
    lastValue?_flatMap_eq_none h, Option.none_or]

/-- Maps without a key come behind the place that it has in the maps before them. -/
theorem idxOf?_keys_merge_append (h : ∀ m ∈ more, key ∉ m.keys) :
    (merge (maps ++ more)).keys.idxOf? key = (merge maps).keys.idxOf? key := by
  have hnew : key ∉ ((more.flatMap keys).removeAll (maps.flatMap keys)).eraseDups := by
    rw [List.mem_eraseDups]
    intro hmem
    obtain ⟨m, hm, hkey⟩ := List.mem_flatMap.1 (List.mem_filter.1 hmem).1
    exact h m hm hkey
  have hnone := List.idxOf?_eq_none_iff.2 hnew
  rw [keys_merge, keys_merge, List.flatMap_append, List.eraseDups_append]
  unfold List.idxOf? at hnone ⊢
  rw [List.findIdx?_append, hnone, Option.map_none, Option.or_none]

end More

/-- Merging maps twice over changes nothing. -/
theorem merge_self (maps : List (OrderedMap α β)) : merge (maps ++ maps) = merge maps := by
  refine ext_get? ?_ fun key => ?_
  · rw [keys_merge, keys_merge, List.flatMap_append, eraseDups_append_self]
  · rw [get?_merge, get?_merge, List.flatMap_append, lastValue?_append, Option.or_self]

end Merge

/-! ## Fewer keys -/

section Filter

variable {α : Type u} {β : Type v} {γ : Type w}

/-- Leaving keys out first or last makes no difference to the keys that stay. -/
theorem filterKeys_alter [DecidableEq α] (m : OrderedMap α β) (key : α) (change : Option β → β)
    (keep : α → Bool) :
    (m.alter key change).filterKeys keep =
      if keep key then (m.filterKeys keep).alter key change else m.filterKeys keep := by
  have h (entries : List (α × β)) :
      (alterEntries key change entries).filter (fun entry => keep entry.1) =
        if keep key then alterEntries key change (entries.filter fun entry => keep entry.1)
        else entries.filter fun entry => keep entry.1 := by
    induction entries with
    | nil => cases hkey : keep key <;> simp [alterEntries, hkey]
    | cons entry entries ih =>
      obtain ⟨k, old⟩ := entry
      by_cases hk : k = key
      · subst hk
        cases hkey : keep k <;> simp [alterEntries, hkey]
      · rw [alterEntries, if_neg hk]
        cases hother : keep k with
        | false => simp [hother, ih]
        | true =>
          simp only [List.filter_cons, hother, if_true, ih, alterEntries, if_neg hk]
          split_ifs <;> rfl
  ext1
  refine (h m.entries).trans ?_
  split_ifs <;> rfl

theorem filterKeys_insertAll [DecidableEq α] (m : OrderedMap α β) (entries : List (α × β))
    (keep : α → Bool) :
    (m.insertAll entries).filterKeys keep =
      (m.filterKeys keep).insertAll (entries.filter fun entry => keep entry.1) := by
  induction entries generalizing m with
  | nil => rfl
  | cons entry entries ih =>
    refine (ih (m.insert entry.1 entry.2)).trans ?_
    rw [insert, filterKeys_alter]
    cases hkey : keep entry.1 with
    | false => simp [hkey]
    | true =>
      simp only [List.filter_cons, hkey, if_true]
      rfl

theorem filterKeys_mapEntries (m : OrderedMap α β) (f : α → β → γ) (keep : α → Bool) :
    (m.mapEntries f).filterKeys keep = (m.filterKeys keep).mapEntries f := by
  ext1
  exact List.filter_map

end Filter

/-! ## Values -/

section Map

variable {α : Type u} {β : Type v} {γ : Type w}

theorem keys_mapEntries (m : OrderedMap α β) (f : α → β → γ) : (m.mapEntries f).keys = m.keys := by
  simp [keys, mapEntries, Function.comp_def]

theorem get?_mapEntries [DecidableEq α] (m : OrderedMap α β) (f : α → β → γ) (key : α) :
    (m.mapEntries f).get? key = (m.get? key).map (f key) := by
  have hcomp : (fun entry : α × γ => decide (entry.1 = key)) ∘
      (fun entry : α × β => (entry.1, f entry.1 entry.2)) =
        fun entry => decide (entry.1 = key) := rfl
  unfold get? mapEntries
  rw [List.find?_map, hcomp, Option.map_map, Option.map_map]
  refine Option.map_congr fun entry hf => ?_
  have hkey : entry.1 = key := by simpa using List.find?_some hf
  exact congrArg (f · entry.2) hkey

end Map

end SiteSurvey.OrderedMap
