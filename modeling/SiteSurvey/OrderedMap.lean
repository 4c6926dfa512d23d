/-!
# Maps in insertion order

A map whose entries keep the order in which their keys first came. Setting a key that is present
replaces its value where it stands; a new key goes to the end. That no key occurs twice is part of
the type.
-/

namespace SiteSurvey

universe u v w

structure OrderedMap (α : Type u) (β : Type v) where
  entries : List (α × β)
  nodup_keys : (entries.map Prod.fst).Nodup := by simp

namespace OrderedMap

variable {α : Type u} {β : Type v} {γ : Type w}

@[ext]
theorem ext {m n : OrderedMap α β} (h : m.entries = n.entries) : m = n := by
  cases m; cases n; cases h; rfl

def empty : OrderedMap α β :=
  ⟨[], List.nodup_nil⟩

instance : EmptyCollection (OrderedMap α β) :=
  ⟨empty⟩

instance : Inhabited (OrderedMap α β) :=
  ⟨empty⟩

def keys (m : OrderedMap α β) : List α :=
  m.entries.map Prod.fst

def values (m : OrderedMap α β) : List β :=
  m.entries.map Prod.snd

def isEmpty (m : OrderedMap α β) : Bool :=
  m.entries.isEmpty

/-! ## One key -/

section Update

variable [DecidableEq α]

def get? (m : OrderedMap α β) (key : α) : Option β :=
  (m.entries.find? fun entry => entry.1 = key).map Prod.snd

/-- The entries after the value of `key` became `change` of the value it had, if any. -/
def alterEntries (key : α) (change : Option β → β) : List (α × β) → List (α × β)
  | [] => [(key, change none)]
  | (k, old) :: later =>
    if k = key then (k, change (some old)) :: later else (k, old) :: alterEntries key change later

theorem keys_alterEntries (key : α) (change : Option β → β) (entries : List (α × β)) :
    (alterEntries key change entries).map Prod.fst =
      if key ∈ entries.map Prod.fst then entries.map Prod.fst
      else entries.map Prod.fst ++ [key] := by
  induction entries with
  | nil => simp [alterEntries]
  | cons entry later ih =>
    obtain ⟨k, old⟩ := entry
    by_cases h : k = key
    · simp [alterEntries, h]
    · have h' : key ≠ k := fun e => h e.symm
      simp only [alterEntries, if_neg h, List.map_cons, ih, List.mem_cons, h', false_or]
      split <;> simp

theorem nodup_alterEntries (key : α) (change : Option β → β) {entries : List (α × β)}
    (h : (entries.map Prod.fst).Nodup) :
    ((alterEntries key change entries).map Prod.fst).Nodup := by
  rw [keys_alterEntries]
  split
  · exact h
  · next absent =>
    refine List.nodup_append.2 ⟨h, by simp, ?_⟩
    intro a ha b hb e
    simp only [List.mem_singleton] at hb
    exact absent (hb ▸ e ▸ ha)

/-- Sets the value of `key` to `change` of the value it had, if any. -/
def alter (m : OrderedMap α β) (key : α) (change : Option β → β) : OrderedMap α β :=
  ⟨alterEntries key change m.entries, nodup_alterEntries key change m.nodup_keys⟩

def insert (m : OrderedMap α β) (key : α) (value : β) : OrderedMap α β :=
  m.alter key fun _ => value

/-- Sets every entry of a list in turn. -/
def insertAll (m : OrderedMap α β) (entries : List (α × β)) : OrderedMap α β :=
  entries.foldl (fun m entry => m.insert entry.1 entry.2) m

def ofList (entries : List (α × β)) : OrderedMap α β :=
  insertAll ∅ entries

def singleton (key : α) (value : β) : OrderedMap α β :=
  insert ∅ key value

/-- All maps in one: the last value of a key wins, at the place where the key first came. -/
def merge (maps : List (OrderedMap α β)) : OrderedMap α β :=
  maps.foldl (fun m later => m.insertAll later.entries) ∅

end Update

/-- Each value replaced by a function of its key and itself. -/
def mapEntries (m : OrderedMap α β) (f : α → β → γ) : OrderedMap α γ where
  entries := m.entries.map fun entry => (entry.1, f entry.1 entry.2)
  nodup_keys := by simpa [Function.comp_def] using m.nodup_keys

/-- The entries whose keys pass a test. -/
def filterKeys (m : OrderedMap α β) (keep : α → Bool) : OrderedMap α β where
  entries := m.entries.filter fun entry => keep entry.1
  nodup_keys := m.nodup_keys.sublist (List.filter_sublist.map Prod.fst)

end OrderedMap

end SiteSurvey
