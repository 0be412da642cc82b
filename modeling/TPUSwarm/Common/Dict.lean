import Mathlib.Data.List.Sort
import Mathlib.Data.String.Basic

/-!
# Finite maps in key order

A map is kept as its list of entries in strictly increasing key order, with the order
as a field. Two maps with the same lookups are then the same value, so equality of
maps does not depend on the order in which their entries were written.
-/

namespace TPUSwarm.Common

variable {κ : Type*} [LinearOrder κ] {β γ : Type*}

/-- A finite map from `κ` to `β`, kept as its entries in increasing key order. -/
structure Dict (κ : Type*) [LinearOrder κ] (β : Type*) where
  entries : List (κ × β)
  sorted : entries.Pairwise (fun a b => a.1 < b.1)

namespace Dict

/-- A dictionary is its entries. -/
theorem ext_entries {d e : Dict κ β} (h : d.entries = e.entries) : d = e := by
  cases d; cases e; cases h; rfl

instance [DecidableEq β] : DecidableEq (Dict κ β) := fun d e =>
  decidable_of_iff (d.entries = e.entries) ⟨ext_entries, congrArg entries⟩

/-- The map without entries. -/
def empty : Dict κ β := ⟨[], List.Pairwise.nil⟩

instance : Inhabited (Dict κ β) := ⟨empty⟩

/-- The value stored under a key. -/
def get? (d : Dict κ β) (k : κ) : Option β := (d.entries.find? (fun e => e.1 = k)).map Prod.snd

/-- The keys in increasing order. -/
def keys (d : Dict κ β) : List κ := d.entries.map Prod.fst

/-- Keys occur once. -/
theorem keys_nodup (d : Dict κ β) : d.keys.Nodup :=
  List.pairwise_map.mpr (d.sorted.imp fun h => ne_of_lt h)

/-- Lookup finds exactly the entries. -/
theorem get?_eq_some_iff {d : Dict κ β} {k : κ} {v : β} :
    d.get? k = some v ↔ (k, v) ∈ d.entries := by
  constructor
  · intro h
    obtain ⟨⟨k', v'⟩, hfind, rfl⟩ := Option.map_eq_some_iff.mp h
    have hkey : k' = k := by simpa using List.find?_some hfind
    exact hkey ▸ List.mem_of_find?_eq_some hfind
  · intro hmem
    have hfound : (d.entries.find? (fun e => e.1 = k)).isSome :=
      List.find?_isSome.mpr ⟨(k, v), hmem, by simp⟩
    obtain ⟨⟨k', v'⟩, hfind⟩ := Option.isSome_iff_exists.mp hfound
    have hkey : k' = k := by simpa using List.find?_some hfind
    have hmem' := List.mem_of_find?_eq_some hfind
    have hentry := List.inj_on_of_nodup_map d.keys_nodup hmem' hmem hkey
    simp [get?, hfind, hentry]

/-- A key is present when some value is stored under it. -/
theorem mem_keys_iff {d : Dict κ β} {k : κ} : k ∈ d.keys ↔ ∃ v, d.get? k = some v := by
  simp [keys, get?_eq_some_iff]

/-- Maps with the same lookups are equal. -/
theorem ext_get? {d e : Dict κ β} (h : ∀ k, d.get? k = e.get? k) : d = e := by
  apply ext_entries
  have hmem : ∀ p, p ∈ d.entries ↔ p ∈ e.entries := by
    rintro ⟨k, v⟩
    rw [← get?_eq_some_iff, ← get?_eq_some_iff, h]
  have hnodup (d : Dict κ β) : d.entries.Nodup := d.sorted.imp fun hlt heq => by
    rw [heq] at hlt; exact lt_irrefl _ hlt
  have hperm := (List.perm_ext_iff_of_nodup (hnodup d) (hnodup e)).mpr hmem
  exact hperm.eq_of_pairwise (fun a b _ _ hab hba => absurd hab (lt_asymm hba)) d.sorted e.sorted

/-- Write one entry into a list kept in key order. -/
def insertEntry (k : κ) (v : β) : List (κ × β) → List (κ × β)
  | [] => [(k, v)]
  | e :: rest =>
    if k < e.1 then (k, v) :: e :: rest
    else if e.1 < k then e :: insertEntry k v rest
    else (k, v) :: rest

/-- The keys after an insertion are the new one and the old ones. -/
theorem fst_mem_insertEntry {k : κ} {v : β} {l : List (κ × β)} {p : κ × β}
    (h : p ∈ insertEntry k v l) : p.1 = k ∨ p ∈ l := by
  induction l with
  | nil => exact Or.inl (by simp only [insertEntry, List.mem_singleton] at h; rw [h])
  | cons e rest ih =>
    simp only [insertEntry] at h
    split at h
    · rcases List.mem_cons.mp h with rfl | h
      · exact Or.inl rfl
      · exact Or.inr h
    · split at h
      · rcases List.mem_cons.mp h with rfl | h
        · exact Or.inr List.mem_cons_self
        · exact (ih h).imp_right (List.mem_cons_of_mem _)
      · rcases List.mem_cons.mp h with rfl | h
        · exact Or.inl rfl
        · exact Or.inr (List.mem_cons_of_mem _ h)

/-- An insertion keeps the keys in order. -/
theorem insertEntry_sorted (k : κ) (v : β) {l : List (κ × β)}
    (h : l.Pairwise (fun a b => a.1 < b.1)) :
    (insertEntry k v l).Pairwise (fun a b => a.1 < b.1) := by
  induction l with
  | nil => exact List.pairwise_singleton _ _
  | cons e rest ih =>
    obtain ⟨hhead, hrest⟩ := List.pairwise_cons.mp h
    simp only [insertEntry]
    split
    · rename_i hlt
      refine List.pairwise_cons.mpr ⟨fun p hp => ?_, h⟩
      rcases List.mem_cons.mp hp with rfl | hp
      · exact hlt
      · exact hlt.trans (hhead p hp)
    · split
      · rename_i hlt
        refine List.pairwise_cons.mpr ⟨fun p hp => ?_, ih hrest⟩
        rcases fst_mem_insertEntry hp with hk | hp
        · exact hk ▸ hlt
        · exact hhead p hp
      · rename_i hnot hnot'
        have hkey : e.1 = k := le_antisymm (not_lt.mp hnot) (not_lt.mp hnot')
        exact List.pairwise_cons.mpr ⟨fun p hp => hkey ▸ hhead p hp, hrest⟩

/-- The entries after an insertion are the new one and the old ones of other keys. -/
theorem mem_insertEntry_iff {k : κ} {v : β} {l : List (κ × β)}
    (h : l.Pairwise (fun a b => a.1 < b.1)) {p : κ × β} :
    p ∈ insertEntry k v l ↔ p = (k, v) ∨ (p.1 ≠ k ∧ p ∈ l) := by
  induction l with
  | nil => simp [insertEntry]
  | cons e rest ih =>
    obtain ⟨hhead, hrest⟩ := List.pairwise_cons.mp h
    simp only [insertEntry]
    split
    · rename_i hlt
      have hne : ∀ q ∈ e :: rest, q.1 ≠ k := by
        intro q hq
        rcases List.mem_cons.mp hq with rfl | hq
        · exact (ne_of_lt hlt).symm
        · exact (ne_of_lt (hlt.trans (hhead q hq))).symm
      rw [List.mem_cons]
      exact or_congr_right ⟨fun hp => ⟨hne p hp, hp⟩, And.right⟩
    · split
      · rename_i hlt
        rw [List.mem_cons, ih hrest, List.mem_cons]
        constructor
        · rintro (rfl | rfl | ⟨hne, hp⟩)
          · exact Or.inr ⟨ne_of_lt hlt, Or.inl rfl⟩
          · exact Or.inl rfl
          · exact Or.inr ⟨hne, Or.inr hp⟩
        · rintro (rfl | ⟨hne, rfl | hp⟩)
          · exact Or.inr (Or.inl rfl)
          · exact Or.inl rfl
          · exact Or.inr (Or.inr ⟨hne, hp⟩)
      · rename_i hnot hnot'
        have hkey : e.1 = k := le_antisymm (not_lt.mp hnot) (not_lt.mp hnot')
        rw [List.mem_cons, List.mem_cons]
        constructor
        · rintro (rfl | hp)
          · exact Or.inl rfl
          · exact Or.inr ⟨(ne_of_lt (hkey ▸ hhead p hp)).symm, Or.inr hp⟩
        · rintro (rfl | ⟨hne, rfl | hp⟩)
          · exact Or.inl rfl
          · exact absurd hkey hne
          · exact Or.inr hp

/-- Store a value under a key, replacing what was there. -/
def set (d : Dict κ β) (k : κ) (v : β) : Dict κ β :=
  ⟨insertEntry k v d.entries, insertEntry_sorted k v d.sorted⟩

/-- A write is read back under its key and seen under no other. -/
@[simp] theorem get?_set (d : Dict κ β) (k k' : κ) (v : β) :
    (d.set k v).get? k' = if k' = k then some v else d.get? k' := by
  apply Option.ext
  intro v'
  rw [get?_eq_some_iff, set, mem_insertEntry_iff d.sorted]
  split
  · rename_i h
    simp [h, eq_comm]
  · rename_i h
    simp [h, get?_eq_some_iff]

/-- Nothing is found in an empty dictionary. -/
@[simp] theorem get?_empty (k : κ) : (empty : Dict κ β).get? k = none := rfl

/-- Remove a key. -/
def erase (d : Dict κ β) (k : κ) : Dict κ β := ⟨d.entries.filter fun e => e.1 ≠ k, d.sorted.filter _⟩

/-- A removed key is gone, and every other key keeps its value. -/
@[simp] theorem get?_erase (d : Dict κ β) (k k' : κ) :
    (d.erase k).get? k' = if k' = k then none else d.get? k' := by
  apply Option.ext
  intro v
  rw [get?_eq_some_iff, erase, List.mem_filter]
  split
  · rename_i h
    simp [h]
  · rename_i h
    simp [h, get?_eq_some_iff]

/-- The map a sequence of entries builds, a later entry overriding an earlier one. -/
def ofList (l : List (κ × β)) : Dict κ β := l.foldl (fun d e => d.set e.1 e.2) empty

/-- After entries of different keys are written, they are found, and what was there before under other keys. -/
theorem get?_foldl_set (l : List (κ × β)) (d : Dict κ β) (hnodup : (l.map Prod.fst).Nodup)
    (k : κ) (v : β) :
    (l.foldl (fun d e => d.set e.1 e.2) d).get? k = some v ↔
      (k, v) ∈ l ∨ (k ∉ l.map Prod.fst ∧ d.get? k = some v) := by
  induction l generalizing d with
  | nil => simp
  | cons e rest ih =>
    obtain ⟨k', v'⟩ := e
    obtain ⟨hnotin, hrest⟩ := List.nodup_cons.mp hnodup
    rw [List.foldl_cons, ih _ hrest, get?_set, List.mem_cons, List.map_cons, List.mem_cons]
    by_cases hk : k = k'
    · subst hk
      have hnotmem : (k, v) ∉ rest := fun h => hnotin (List.mem_map.mpr ⟨(k, v), h, rfl⟩)
      simp [hnotmem, hnotin, eq_comm]
    · simp [hk]

/-- A map built from entries with distinct keys holds exactly these entries. -/
theorem get?_ofList {l : List (κ × β)} (hnodup : (l.map Prod.fst).Nodup) {k : κ} {v : β} :
    (ofList l).get? k = some v ↔ (k, v) ∈ l := by
  rw [ofList, get?_foldl_set l empty hnodup]
  simp

/-- The entries of a map build it again. -/
theorem ofList_entries (d : Dict κ β) : ofList d.entries = d :=
  ext_get? fun _ => Option.ext fun _ => by rw [get?_ofList d.keys_nodup, get?_eq_some_iff]

/-- Apply a function to every value. -/
def mapValues (f : β → γ) (d : Dict κ β) : Dict κ γ :=
  ⟨d.entries.map (fun e => (e.1, f e.2)), List.pairwise_map.mpr d.sorted⟩

/-- What is found in a mapped dictionary is what was there, mapped. -/
@[simp] theorem get?_mapValues (f : β → γ) (d : Dict κ β) (k : κ) :
    (d.mapValues f).get? k = (d.get? k).map f := by
  simp [mapValues, get?, List.find?_map, Function.comp_def]

/-- Mapping goes through writing. -/
theorem mapValues_set (f : β → γ) (d : Dict κ β) (k : κ) (v : β) :
    (d.set k v).mapValues f = (d.mapValues f).set k (f v) := by
  apply ext_get?
  intro k'
  simp only [get?_mapValues, get?_set]
  split <;> rfl

/-- Mapping goes through building from a list. -/
theorem mapValues_ofList (f : β → γ) (l : List (κ × β)) :
    (ofList l).mapValues f = ofList (l.map fun e => (e.1, f e.2)) := by
  have hfold (l : List (κ × β)) (d : Dict κ β) : (l.foldl (fun d e => d.set e.1 e.2) d).mapValues f =
      (l.map fun e => (e.1, f e.2)).foldl (fun d e => d.set e.1 e.2) (d.mapValues f) := by
    induction l generalizing d with
    | nil => rfl
    | cons e rest ih => rw [List.foldl_cons, ih, mapValues_set, List.map_cons, List.foldl_cons]
  exact hfold l empty

end Dict

end TPUSwarm.Common
