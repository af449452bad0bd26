import Mathlib.Tactic

/-! # Insertion-ordered dictionaries

A finite map that iterates in the order in which its keys were first set. Setting a
present key keeps its place; deleting it and setting it again moves it to the end. -/

namespace ProtoFH

structure Dict (κ : Type u) (α : Type v) where
  entries : List (κ × α) := []
  distinct : (entries.map Prod.fst).Nodup := by simp

namespace Dict

variable {κ : Type u} {α : Type v}

theorem ext_entries {left right : Dict κ α} (equal : left.entries = right.entries) :
    left = right := by
  cases left
  cases right
  cases equal
  rfl

def keys (dict : Dict κ α) : List κ := dict.entries.map Prod.fst

def values (dict : Dict κ α) : List α := dict.entries.map Prod.snd

def total (dict : Dict κ α) (weight : α → Nat) : Nat := (dict.values.map weight).sum

variable [DecidableEq κ]

instance : EmptyCollection (Dict κ α) := ⟨{}⟩

def find? (dict : Dict κ α) (key : κ) : Option α :=
  (dict.entries.find? fun entry => entry.1 = key).map Prod.snd

def setEntries (entries : List (κ × α)) (key : κ) (value : α) : List (κ × α) :=
  match entries with
  | [] => [(key, value)]
  | entry :: rest =>
      if entry.1 = key then (key, value) :: rest else entry :: setEntries rest key value

variable {value : α}

theorem mem_keys_setEntries {entries : List (κ × α)} {key other : κ} :
    other ∈ (setEntries entries key value).map Prod.fst ↔
      other = key ∨ other ∈ entries.map Prod.fst := by
  induction entries with
  | nil => simp [setEntries]
  | cons entry rest induction =>
      rw [setEntries]
      split
      · next same => simp [same]
      · rw [List.map_cons, List.mem_cons, induction, List.map_cons, List.mem_cons]
        tauto

theorem nodup_setEntries {entries : List (κ × α)} (key : κ) (value : α)
    (distinct : (entries.map Prod.fst).Nodup) :
    ((setEntries entries key value).map Prod.fst).Nodup := by
  induction entries with
  | nil => simp [setEntries]
  | cons entry rest induction =>
      rw [List.map_cons, List.nodup_cons] at distinct
      rw [setEntries]
      split
      · next same =>
          rw [List.map_cons, List.nodup_cons, ← same]
          exact distinct
      · next different =>
          rw [List.map_cons, List.nodup_cons, mem_keys_setEntries]
          refine ⟨?_, induction distinct.2⟩
          rintro (same | member)
          · exact different same
          · exact distinct.1 member

/-- `dict[key] = value` -/
def set (dict : Dict κ α) (key : κ) (value : α) : Dict κ α where
  entries := setEntries dict.entries key value
  distinct := nodup_setEntries key value dict.distinct

/-- `del dict[key]` -/
def erase (dict : Dict κ α) (key : κ) : Dict κ α where
  entries := dict.entries.filter fun entry => entry.1 ≠ key
  distinct := dict.distinct.sublist (List.filter_sublist.map Prod.fst)

/-! ## Lookups -/

variable {dict : Dict κ α} {key : κ}

theorem mem_entries : (key, value) ∈ dict.entries ↔ dict.find? key = some value := by
  rcases dict with ⟨entries, distinct⟩
  rw [find?]
  induction entries with
  | nil => simp
  | cons entry rest induction =>
      rw [List.map_cons, List.nodup_cons] at distinct
      by_cases same : entry.1 = key
      · have here : (entry :: rest).find? (fun entry => decide (entry.1 = key)) = some entry :=
          List.find?_cons_of_pos (by simpa using same)
        have absent : (key, value) ∉ rest := fun member =>
          distinct.1 (same ▸ List.mem_map_of_mem member)
        rw [here, List.mem_cons]
        constructor
        · rintro (equal | member)
          · rw [← equal]
            rfl
          · exact absurd member absent
        · intro equal
          left
          rw [Option.map_some, Option.some_inj] at equal
          rw [← same, ← equal]
      · have further : (entry :: rest).find? (fun entry => decide (entry.1 = key)) =
            rest.find? fun entry => decide (entry.1 = key) :=
          List.find?_cons_of_neg (by simpa using same)
        have other : (key, value) ≠ entry := fun equal => same (by rw [← equal])
        rw [further, List.mem_cons]
        exact (or_iff_right other).trans (induction distinct.2)

theorem mem_values : value ∈ dict.values ↔ ∃ key, dict.find? key = some value := by
  simp only [values, List.mem_map, Prod.exists, mem_entries, exists_eq_right]

theorem values_map_entry {keyOf : α → κ}
    (keyed : ∀ key value, dict.find? key = some value → keyOf value = key) :
    dict.values.map (fun value => (keyOf value, value)) = dict.entries := by
  rw [values, List.map_map]
  conv_rhs => rw [← List.map_id dict.entries]
  apply List.map_congr_left
  rintro ⟨key, value⟩ member
  exact congrArg (·, value) (keyed key value (mem_entries.mp member))

theorem mem_keys : key ∈ dict.keys ↔ (dict.find? key).isSome := by
  simp only [keys, List.mem_map, Prod.exists, mem_entries, exists_and_right, exists_eq_right,
    Option.isSome_iff_exists]

@[simp] theorem find?_empty (key : κ) : (∅ : Dict κ α).find? key = none := rfl

theorem find?_set (dict : Dict κ α) (key other : κ) (value : α) :
    (dict.set key value).find? other = if key = other then some value else dict.find? other := by
  rcases dict with ⟨entries, distinct⟩
  simp only [find?, set]
  clear distinct
  induction entries with
  | nil =>
      rw [setEntries, List.find?_singleton]
      by_cases same : key = other <;> simp [same]
  | cons entry rest induction =>
      rw [setEntries]
      by_cases here : entry.1 = key
      · by_cases same : key = other
        · simp [here, same]
        · simp [here, same]
      · rw [if_neg here]
        by_cases same : entry.1 = other
        · have different : key ≠ other := fun equal => here (same.trans equal.symm)
          simp [same, different]
        · rw [List.find?_cons_of_neg (by simpa using same), induction,
            List.find?_cons_of_neg (by simpa using same)]

@[simp] theorem find?_set_self (dict : Dict κ α) (key : κ) (value : α) :
    (dict.set key value).find? key = some value := by
  rw [find?_set, if_pos rfl]

theorem find?_erase (dict : Dict κ α) (key other : κ) :
    (dict.erase key).find? other = if key = other then none else dict.find? other := by
  rcases dict with ⟨entries, distinct⟩
  simp only [find?, erase]
  clear distinct
  by_cases same : key = other
  · rw [if_pos same, Option.map_eq_none_iff, List.find?_eq_none]
    intro entry member
    have kept := (List.mem_filter.mp member).2
    simpa [same] using kept
  · rw [if_neg same, List.find?_filter]
    congr 2
    funext entry
    by_cases here : entry.1 = other
    · simp [here, Ne.symm same]
    · simp [here]

@[simp] theorem find?_erase_self (dict : Dict κ α) (key : κ) :
    (dict.erase key).find? key = none := by
  rw [find?_erase, if_pos rfl]

theorem forall_find?_set {holds : κ → α → Prop}
    (all : ∀ key value, dict.find? key = some value → holds key value) (new : holds key value) :
    ∀ other found, (dict.set key value).find? other = some found → holds other found := by
  intro other found stored
  rw [find?_set] at stored
  split at stored
  · next same =>
      cases stored
      exact same ▸ new
  · exact all other found stored

theorem forall_find?_erase {holds : κ → α → Prop}
    (all : ∀ key value, dict.find? key = some value → holds key value) (key : κ) :
    ∀ other found, (dict.erase key).find? other = some found → holds other found := by
  intro other found stored
  rw [find?_erase] at stored
  split at stored
  · cases stored
  · exact all other found stored

theorem set_set (dict : Dict κ α) (key : κ) (value later : α) :
    (dict.set key value).set key later = dict.set key later := by
  apply ext_entries
  change setEntries (setEntries dict.entries key value) key later =
      setEntries dict.entries key later
  induction dict.entries with
  | nil => simp [setEntries]
  | cons entry rest induction =>
      rw [setEntries, setEntries]
      by_cases here : entry.1 = key
      · rw [if_pos here, if_pos here, setEntries, if_pos rfl]
      · rw [if_neg here, if_neg here, setEntries, if_neg here, induction]

theorem entries_set_of_absent (absent : dict.find? key = none) (value : α) :
    (dict.set key value).entries = dict.entries ++ [(key, value)] := by
  have other : ∀ entry ∈ dict.entries, entry.1 ≠ key := by
    rintro ⟨entryKey, held⟩ member rfl
    rw [mem_entries.mp member] at absent
    cases absent
  change setEntries dict.entries key value = _
  generalize dict.entries = entries at other
  induction entries with
  | nil => rfl
  | cons entry rest induction =>
      rw [List.forall_mem_cons] at other
      rw [setEntries, if_neg other.1, induction other.2, List.cons_append]

theorem entries_foldl (observe : σ → Dict κ α) {write : σ → β → σ} {entry : β → κ × α}
    {items : List β} {init : σ} (start : observe init = ∅)
    (distinct : (items.map fun item => (entry item).1).Nodup)
    (writes : ∀ item ∈ items, ∀ state, (observe state).find? (entry item).1 = none →
      observe (write state item) = (observe state).set (entry item).1 (entry item).2) :
    (observe (items.foldl write init)).entries = items.map entry := by
  induction items using List.reverseRecOn with
  | nil =>
      rw [List.foldl_nil, start]
      rfl
  | append_singleton items item induction =>
      rw [List.map_append, List.nodup_append] at distinct
      obtain ⟨front, -, apart⟩ := distinct
      have before := induction front fun other member =>
        writes other (List.mem_append_left _ member)
      have absent : (observe (items.foldl write init)).find? (entry item).1 = none := by
        rw [Option.eq_none_iff_forall_ne_some]
        intro value found
        rw [← mem_entries, before] at found
        obtain ⟨other, member, same⟩ := List.mem_map.mp found
        apply apart (entry other).1 (List.mem_map_of_mem member) _ List.mem_cons_self
        rw [same]
      rw [List.foldl_append, List.foldl_cons, List.foldl_nil,
        writes item (List.mem_append_right _ List.mem_cons_self) _ absent,
        entries_set_of_absent absent, before, List.map_append]
      rfl

/-! ## Totals over the entries -/

theorem entries_perm_cons_erase (present : dict.find? key = some value) :
    dict.entries.Perm ((key, value) :: (dict.erase key).entries) := by
  classical
  rcases dict with ⟨entries, distinct⟩
  have member := mem_entries.mpr present
  have once : entries.erase (key, value) = entries.filter fun entry => entry.1 ≠ key := by
    rw [distinct.of_map.erase_eq_filter]
    apply List.filter_congr
    intro entry inside
    by_cases same : entry.1 = key
    · have equal : entry = (key, value) :=
        List.inj_on_of_nodup_map distinct inside member same
      simp [equal]
    · have other : entry ≠ (key, value) := fun equal => same (by rw [equal])
      simp [same, other]
  have split := List.perm_cons_erase member
  rw [once] at split
  exact split

theorem total_erase (weight : α → Nat) (present : dict.find? key = some value) :
    dict.total weight = weight value + (dict.erase key).total weight := by
  have split := ((entries_perm_cons_erase present).map Prod.snd).map weight
  exact split.sum_eq

theorem weight_le_total (weight : α → Nat) (present : dict.find? key = some value) :
    weight value ≤ dict.total weight := by
  rw [total_erase weight present]
  exact Nat.le_add_right _ _

theorem erase_of_find?_eq_none (absent : dict.find? key = none) : dict.erase key = dict := by
  have kept : dict.entries.filter (fun entry => entry.1 ≠ key) = dict.entries := by
    rw [List.filter_eq_self]
    intro entry member
    have found : dict.find? entry.1 = some entry.2 := mem_entries.mp member
    rw [decide_eq_true_iff]
    intro same
    rw [same, absent] at found
    cases found
  exact ext_entries kept

theorem erase_set_self (dict : Dict κ α) (key : κ) (value : α) :
    (dict.set key value).erase key = dict.erase key := by
  apply ext_entries
  change (setEntries dict.entries key value).filter _ = dict.entries.filter _
  induction dict.entries with
  | nil => simp [setEntries]
  | cons entry rest induction =>
      rw [setEntries]
      by_cases here : entry.1 = key
      · simp [here]
      · rw [if_neg here, List.filter_cons_of_pos (by simpa using here), induction,
          List.filter_cons_of_pos (by simpa using here)]

theorem total_set (dict : Dict κ α) (key : κ) (value : α) (weight : α → Nat) :
    (dict.set key value).total weight = weight value + (dict.erase key).total weight := by
  rw [total_erase weight (find?_set_self dict key value), erase_set_self]

theorem total_eq_zero {weight : α → Nat}
    (zero : ∀ key value, dict.find? key = some value → weight value = 0) :
    dict.total weight = 0 := by
  apply List.sum_eq_zero
  intro term member
  rw [values, List.map_map, List.mem_map] at member
  rcases member with ⟨⟨key, value⟩, inside, rfl⟩
  exact zero key value (mem_entries.mp inside)

end Dict

end ProtoFH
