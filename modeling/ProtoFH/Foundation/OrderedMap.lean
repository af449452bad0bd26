import Mathlib.Data.List.Perm.Basic
import ProtoFH.Foundation.LastWrite

/-! # Ordered maps

`std::map` as an extensional tree map: iteration is in ascending key order and
two maps with the same lookups are equal. The lemmas here say how lookups and
totals over the entries change under one insertion or erasure, and what a loop
that inserts a sequence of entries leaves behind. -/

set_option linter.unusedSectionVars false

namespace ProtoFH

abbrev OrderedMap (κ : Type u) (α : Type v) [Ord κ] := Std.ExtTreeMap κ α

namespace OrderedMap

variable {κ : Type u} {α : Type v} {β : Type w}
variable [Ord κ] [Std.TransOrd κ] [Std.LawfulEqOrd κ]

/-! ## Lookups -/

theorem lookup_insert [DecidableEq κ] (map : OrderedMap κ α) (key other : κ) (value : α) :
    (map.insert key value)[other]? = if key = other then some value else map[other]? := by
  rw [Std.ExtTreeMap.getElem?_insert]
  by_cases equal : key = other
  · subst equal
    simp
  · have different : compare key other ≠ .eq :=
      fun same => equal (Std.LawfulEqOrd.eq_of_compare same)
    simp [equal, different]

@[simp] theorem lookup_insert_self (map : OrderedMap κ α) (key : κ) (value : α) :
    (map.insert key value)[key]? = some value := by
  simp

theorem lookup_insert_of_ne (map : OrderedMap κ α) {key other : κ} (value : α)
    (different : key ≠ other) : (map.insert key value)[other]? = map[other]? := by
  classical
  rw [lookup_insert, if_neg different]

theorem lookup_erase [DecidableEq κ] (map : OrderedMap κ α) (key other : κ) :
    (map.erase key)[other]? = if key = other then none else map[other]? := by
  rw [Std.ExtTreeMap.getElem?_erase]
  by_cases equal : key = other
  · subst equal
    simp
  · have different : compare key other ≠ .eq :=
      fun same => equal (Std.LawfulEqOrd.eq_of_compare same)
    simp [equal, different]

@[simp] theorem lookup_erase_self (map : OrderedMap κ α) (key : κ) :
    (map.erase key)[key]? = none := by
  simp

theorem lookup_erase_of_ne (map : OrderedMap κ α) {key other : κ}
    (different : key ≠ other) : (map.erase key)[other]? = map[other]? := by
  classical
  rw [lookup_erase, if_neg different]

theorem ext_lookup {left right : OrderedMap κ α}
    (equal : ∀ key : κ, left[key]? = right[key]?) : left = right :=
  Std.ExtTreeMap.ext_getElem? (fun {key} => equal key)

theorem erase_insert_same (map : OrderedMap κ α) (key : κ) (value : α) :
    (map.insert key value).erase key = map.erase key := by
  classical
  apply ext_lookup
  intro other
  rw [lookup_erase, lookup_erase, lookup_insert]
  split <;> rfl

variable {map : OrderedMap κ α} {key : κ}

variable {value : α}

theorem mem_toList : (key, value) ∈ map.toList ↔ map[key]? = some value :=
  Std.ExtTreeMap.mem_toList_iff_getElem?_eq_some

theorem toList_of_lookup_map {left : OrderedMap κ β} {right : OrderedMap κ α}
    {convert : α → β} (same : ∀ key : κ, left[key]? = right[key]?.map convert) :
    left.toList = right.toList.map fun entry => (entry.1, convert entry.2) := by
  have image : left = Std.ExtTreeMap.map (fun _ => convert) right := by
    apply ext_lookup
    intro key
    rw [same, Std.ExtTreeMap.getElem?_map]
  rw [image, Std.ExtTreeMap.toList_map]

theorem nodup_toList (map : OrderedMap κ α) : map.toList.Nodup := by
  apply List.Pairwise.imp _ Std.ExtTreeMap.distinct_keys_toList
  intro first second different equal
  apply different
  rw [equal]
  exact Std.ReflCmp.compare_self

@[simp] theorem toList_empty : (∅ : OrderedMap κ α).toList = [] := by
  apply List.eq_nil_of_length_eq_zero
  rw [Std.ExtTreeMap.length_toList, Std.ExtTreeMap.size_empty]

/-! ## Totals over the entries -/

def total (map : OrderedMap κ α) (weight : κ → α → Nat) : Nat :=
  (map.toList.map fun entry => weight entry.1 entry.2).sum

@[simp] theorem total_empty (weight : κ → α → Nat) : total (∅ : OrderedMap κ α) weight = 0 := by
  simp [total]

theorem toList_perm_cons_erase (present : map[key]? = some value) :
    map.toList.Perm ((key, value) :: (map.erase key).toList) := by
  classical
  have absent : (key, value) ∉ (map.erase key).toList := by
    rw [mem_toList, lookup_erase_self]
    simp
  rw [List.perm_ext_iff_of_nodup (nodup_toList map)
    (List.nodup_cons.mpr ⟨absent, nodup_toList _⟩)]
  rintro ⟨other, stored⟩
  rw [List.mem_cons, mem_toList, mem_toList, lookup_erase, Prod.mk.injEq]
  by_cases equal : key = other
  · subst equal
    simp [present, eq_comm]
  · simp [equal, Ne.symm equal]

theorem total_erase (weight : κ → α → Nat) (present : map[key]? = some value) :
    total map weight = weight key value + total (map.erase key) weight := by
  rw [total, ((toList_perm_cons_erase present).map _).sum_eq, List.map_cons, List.sum_cons]
  rfl

theorem total_insert_of_absent (value : α) (weight : κ → α → Nat) (absent : map[key]? = none) :
    total (map.insert key value) weight = weight key value + total map weight := by
  classical
  rw [total_erase weight (lookup_insert_self map key value)]
  have same : (map.insert key value).erase key = map := by
    apply ext_lookup
    intro other
    rw [lookup_erase, lookup_insert]
    split
    · next equal => rw [← equal, absent]
    · rfl
  rw [same]

theorem total_insert (map : OrderedMap κ α) (key : κ) (value : α) (weight : κ → α → Nat) :
    total (map.insert key value) weight + (map[key]?.map (weight key)).getD 0 =
      weight key value + total map weight := by
  classical
  cases found : map[key]? with
  | none =>
      rw [total_insert_of_absent value weight found]
      rfl
  | some old =>
      rw [total_erase weight (lookup_insert_self map key value), erase_insert_same,
        total_erase weight found, Option.map_some, Option.getD_some]
      omega

theorem weight_le_total (weight : κ → α → Nat) (present : map[key]? = some value) :
    weight key value ≤ total map weight := by
  rw [total_erase weight present]
  exact Nat.le_add_right _ _

theorem total_le_size_mul {weight : κ → α → Nat} {bound : Nat}
    (bounded : ∀ key value, weight key value ≤ bound) : total map weight ≤ map.size * bound := by
  rw [total, ← Std.ExtTreeMap.length_toList]
  induction map.toList with
  | nil => simp
  | cons entry entries induction =>
      rw [List.map_cons, List.sum_cons, List.length_cons, Nat.succ_mul]
      have head := bounded entry.1 entry.2
      omega

theorem total_le_total (map : OrderedMap κ α) {weight other : κ → α → Nat}
    (le : ∀ key value, weight key value ≤ other key value) : total map weight ≤ total map other :=
  List.sum_le_sum fun entry _ => le entry.1 entry.2

theorem total_mul (map : OrderedMap κ α) (weight : κ → α → Nat) (factor : Nat) :
    total map weight * factor = total map fun key value => weight key value * factor :=
  (List.sum_map_mul_right _ _ _).symm

theorem exists_of_total_pos {weight : κ → α → Nat} (positive : 0 < total map weight) :
    ∃ (key : κ) (value : α), map[key]? = some value ∧ 0 < weight key value := by
  by_contra nowhere
  have zero : total map weight = 0 := by
    apply List.sum_eq_zero
    intro term member
    rcases List.mem_map.mp member with ⟨⟨key, value⟩, inEntries, rfl⟩
    by_contra counted
    exact nowhere ⟨key, value, mem_toList.mp inEntries, Nat.pos_of_ne_zero counted⟩
  omega

/-! ## Loops over the entries -/

theorem foldl_toList_erase {σ : Type w} {step : σ → κ × α → σ}
    (skip : ∀ state value, step state (key, value) = state) (map : OrderedMap κ α) (init : σ) :
    (map.erase key).toList.foldl step init = map.toList.foldl step init := by
  classical
  have kept : map.erase key = Std.ExtTreeMap.filter (fun other _ => decide (other ≠ key)) map := by
    apply ext_lookup
    intro other
    rw [lookup_erase, Std.ExtTreeMap.getElem?_filter]
    by_cases equal : key = other
    · subst equal
      simp
    · have different : other ≠ key := Ne.symm equal
      have all (found : Option α) : found = found.filter fun _ => true := by
        cases found <;> rfl
      simpa [equal, different] using all map[other]?
  rw [kept, Std.ExtTreeMap.toList_filter]
  induction map.toList generalizing init with
  | nil => rfl
  | cons entry entries induction =>
      obtain ⟨other, value⟩ := entry
      by_cases equal : other = key
      · subst equal
        simpa [skip] using induction init
      · simpa [equal] using induction (step init (other, value))

theorem foldl_toList_insert {σ : Type w} {step : σ → κ × α → σ}
    (skip : ∀ state value, step state (key, value) = state) (map : OrderedMap κ α) (value : α)
    (init : σ) : (map.insert key value).toList.foldl step init = map.toList.foldl step init := by
  rw [← foldl_toList_erase skip (map.insert key value), erase_insert_same,
    foldl_toList_erase skip map]

theorem lastWrite_toList [DecidableEq κ] {write : κ × α → Option β} {convert : α → β}
    (writes : ∀ k value, map[k]? = some value →
      write (k, value) = if k = key then some (convert value) else none) :
    lastWrite write map.toList = map[key]?.map convert := by
  cases found : map[key]? with
  | none =>
      rw [Option.map_none, lastWrite_eq_none_iff]
      intro entry member
      have stored := mem_toList.mp member
      rw [writes entry.1 entry.2 stored, if_neg]
      intro equal
      rw [equal, found] at stored
      cases stored
  | some value =>
      rw [Option.map_some]
      apply lastWrite_eq_some (mem_toList.mpr found)
      · rw [writes key value found, if_pos rfl]
      · intro entry member written wrote
        have stored := mem_toList.mp member
        rw [writes entry.1 entry.2 stored] at wrote
        split at wrote
        · next equal =>
            rw [equal, found] at stored
            rw [← Option.some.inj wrote, Option.some.inj stored]
        · cases wrote

/-! ## The last entry that counts -/

/-- What `pick` makes of the last entry, in key order, of which it makes anything. -/
def lastWhere (map : OrderedMap κ α) (pick : κ → α → Option β) : Option β :=
  lastWrite (fun entry => pick entry.1 entry.2) map.toList

def lastBeyond (map : OrderedMap κ α) (pick : κ → α → Option β) (key : κ) : Option β :=
  lastWhere map fun other value => if compare key other = .lt then pick other value else none

variable {pick : κ → α → Option β}

variable {found : β}

theorem lastWrite_ascending {entries : List (κ × α)}
    (ascending : entries.Pairwise fun first second => compare first.1 second.1 = .lt) :
    lastWrite (fun entry => pick entry.1 entry.2) entries = some found ↔
      ∃ entry ∈ entries, pick entry.1 entry.2 = some found ∧
        ∀ other ∈ entries, compare entry.1 other.1 = .lt → pick other.1 other.2 = none := by
  induction entries using List.reverseRecOn with
  | nil => simp
  | append_singleton entries last induction =>
      rw [List.pairwise_append] at ascending
      have below : ∀ entry ∈ entries, compare entry.1 last.1 = .lt :=
        fun entry member => ascending.2.2 entry member last (List.mem_singleton.mpr rfl)
      have greatest : ∀ entry ∈ entries ++ [last], compare last.1 entry.1 ≠ .lt := by
        intro entry member beyond
        rcases List.mem_append.mp member with earlier | isLast
        · rw [Std.OrientedCmp.gt_of_lt (below entry earlier)] at beyond
          cases beyond
        · rw [List.mem_singleton.mp isLast] at beyond
          simp at beyond
      rw [lastWrite_concat]
      cases picked : pick last.1 last.2 with
      | some value =>
          rw [Option.some_or]
          constructor
          · intro equal
            exact ⟨last, by simp, by rw [picked, equal],
              fun other member beyond => absurd beyond (greatest other member)⟩
          · rintro ⟨entry, member, pickedHere, nothing⟩
            rcases List.mem_append.mp member with earlier | isLast
            · have none := nothing last (by simp) (below entry earlier)
              rw [picked] at none
              cases none
            · rw [List.mem_singleton.mp isLast, picked] at pickedHere
              exact pickedHere
      | none =>
          rw [Option.none_or, induction ascending.1]
          constructor
          · rintro ⟨entry, member, pickedHere, nothing⟩
            refine ⟨entry, List.mem_append_left _ member, pickedHere, ?_⟩
            intro other inAll beyond
            rcases List.mem_append.mp inAll with earlier | isLast
            · exact nothing other earlier beyond
            · rw [List.mem_singleton.mp isLast]
              exact picked
          · rintro ⟨entry, member, pickedHere, nothing⟩
            rcases List.mem_append.mp member with earlier | isLast
            · exact ⟨entry, earlier, pickedHere,
                fun other inEarlier => nothing other (List.mem_append_left _ inEarlier)⟩
            · rw [List.mem_singleton.mp isLast, picked] at pickedHere
              cases pickedHere

theorem lastWhere_eq_some_iff (map : OrderedMap κ α) (pick : κ → α → Option β) (found : β) :
    lastWhere map pick = some found ↔
      ∃ key value, map[key]? = some value ∧ pick key value = some found ∧
        ∀ (other : κ) (stored : α), map[other]? = some stored → compare key other = .lt →
          pick other stored = none := by
  rw [lastWhere, lastWrite_ascending Std.ExtTreeMap.ordered_keys_toList]
  constructor
  · rintro ⟨⟨key, value⟩, member, picked, nothing⟩
    exact ⟨key, value, mem_toList.mp member, picked,
      fun other stored present => nothing (other, stored) (mem_toList.mpr present)⟩
  · rintro ⟨key, value, present, picked, nothing⟩
    exact ⟨(key, value), mem_toList.mpr present, picked,
      fun entry member => nothing entry.1 entry.2 (mem_toList.mp member)⟩

theorem lastWhere_eq_none_iff (map : OrderedMap κ α) (pick : κ → α → Option β) :
    lastWhere map pick = none ↔
      ∀ (key : κ) (value : α), map[key]? = some value → pick key value = none := by
  rw [lastWhere, lastWrite_eq_none_iff]
  constructor
  · intro nothing key value present
    exact nothing (key, value) (mem_toList.mpr present)
  · intro nothing entry member
    exact nothing entry.1 entry.2 (mem_toList.mp member)

theorem getEntryLE?_eq_findRev? (map : OrderedMap κ α) (key : κ) :
    map.getEntryLE? key = map.toList.findRev? fun entry => (compare entry.1 key).isLE := by
  rcases map with ⟨inner⟩
  induction inner using Std.ExtDTreeMap.inductionOn with
  | _ tree =>
      change Std.DTreeMap.Internal.Impl.Const.getEntryLE? key tree.inner =
        List.findRev? _ (Std.DTreeMap.Internal.Impl.Const.toList tree.inner)
      rw [Std.DTreeMap.Internal.Impl.Const.getEntryLE?_eq_map,
        Std.DTreeMap.Internal.Impl.getEntryLE?_eq_findRev? tree.wf.ordered,
        Std.DTreeMap.Internal.Impl.Const.toList_eq_toListModel_map,
        List.findRev?_eq_find?_reverse, List.findRev?_eq_find?_reverse, ← List.map_reverse,
        List.find?_map]
      rfl

theorem getEntryLE?_eq_some_iff (map : OrderedMap κ α) (key start : κ) (value : α) :
    map.getEntryLE? key = some (start, value) ↔
      map[start]? = some value ∧ (compare start key).isLE ∧
        ∀ (other : κ) (stored : α), map[other]? = some stored → compare start other = .lt →
          ¬ (compare other key).isLE := by
  have search : map.getEntryLE? key =
      lastWhere map fun other stored =>
        if (compare other key).isLE then some (other, stored) else none := by
    rw [getEntryLE?_eq_findRev?, lastWhere, lastWrite_guard]
  rw [search, lastWhere_eq_some_iff]
  constructor
  · rintro ⟨other, stored, present, picked, nothing⟩
    split at picked
    · next below =>
        cases picked
        refine ⟨present, below, ?_⟩
        intro further entry found beyond within
        have none := nothing further entry found beyond
        rw [if_pos within] at none
        cases none
    · cases picked
  · rintro ⟨present, below, nothing⟩
    refine ⟨start, value, present, if_pos below, ?_⟩
    intro other stored found beyond
    rw [if_neg (nothing other stored found beyond)]

theorem lastBeyond_eq_some_iff (map : OrderedMap κ α) (pick : κ → α → Option β) (start : κ)
    (found : β) :
    lastBeyond map pick start = some found ↔
      ∃ key value, compare start key = .lt ∧ map[key]? = some value ∧
        pick key value = some found ∧
        ∀ (other : κ) (stored : α), map[other]? = some stored → compare key other = .lt →
          pick other stored = none := by
  rw [lastBeyond, lastWhere_eq_some_iff]
  constructor
  · rintro ⟨key, value, present, picked, nothing⟩
    split at picked
    · next beyond =>
        refine ⟨key, value, beyond, present, picked, ?_⟩
        intro other stored presentOther beyondKey
        have none := nothing other stored presentOther beyondKey
        rwa [if_pos (Std.TransCmp.lt_trans beyond beyondKey)] at none
    · cases picked
  · rintro ⟨key, value, beyond, present, picked, nothing⟩
    refine ⟨key, value, present, by rw [if_pos beyond, picked], ?_⟩
    intro other stored presentOther beyondKey
    rw [nothing other stored presentOther beyondKey, ite_self]

variable {start : κ}

theorem lastWhere_of_beyond (beyond : lastBeyond map pick start = some found) :
    lastWhere map pick = some found := by
  rcases (lastBeyond_eq_some_iff map pick start found).mp beyond with
    ⟨key, value, -, present, picked, nothing⟩
  exact (lastWhere_eq_some_iff map pick found).mpr ⟨key, value, present, picked, nothing⟩

theorem lastWhere_insert_of_beyond (beyond : lastBeyond map pick start = some found) (value : α) :
    lastWhere (map.insert start value) pick = some found := by
  classical
  rcases (lastBeyond_eq_some_iff map pick start found).mp beyond with
    ⟨key, last, after, present, picked, nothing⟩
  have elsewhere {other : κ} (later : compare start other = .lt) : start ≠ other := by
    rintro rfl
    simp at later
  rw [lastWhere_eq_some_iff]
  refine ⟨key, last, by rw [lookup_insert_of_ne _ _ (elsewhere after), present], picked, ?_⟩
  intro other stored presentOther beyondKey
  rw [lookup_insert_of_ne _ _ (elsewhere (Std.TransCmp.lt_trans after beyondKey))] at presentOther
  exact nothing other stored presentOther beyondKey

theorem lastWhere_insert_of_none (nothing : lastBeyond map pick start = none)
    (picked : pick start value = some found) :
    lastWhere (map.insert start value) pick = some found := by
  classical
  rw [lastWhere_eq_some_iff]
  refine ⟨start, value, lookup_insert_self _ _ _, picked, ?_⟩
  intro other stored present beyond
  have elsewhere : start ≠ other := by
    rintro rfl
    simp at beyond
  rw [lookup_insert_of_ne _ _ elsewhere] at present
  have none := (lastWhere_eq_none_iff _ _).mp nothing other stored present
  rwa [if_pos beyond] at none

theorem lastWhere_insert_isSome (picked : pick start value = some found) (map : OrderedMap κ α) :
    (lastWhere (map.insert start value) pick).isSome := by
  cases last : lastWhere (map.insert start value) pick with
  | some other => rfl
  | none =>
      have none := (lastWhere_eq_none_iff _ _).mp last start value (lookup_insert_self _ _ _)
      rw [none] at picked
      cases picked

theorem lastWhere_insert_skip (skip : ∀ value, pick start value = none) (map : OrderedMap κ α)
    (value : α) : lastWhere (map.insert start value) pick = lastWhere map pick := by
  apply foldl_toList_insert
  intro last stored
  change (pick start stored).or last = last
  rw [skip stored, Option.none_or]

end OrderedMap

/-! ## Values stored under their own key -/

structure KeyedMap {κ : Type u} {α : Type v} [Ord κ] [Std.TransOrd κ] (key : α → κ) where
  entries : OrderedMap κ α
  keyed : ∀ (k : κ) (value : α), entries[k]? = some value → key value = k

namespace KeyedMap

variable {κ : Type u} {α : Type v} [Ord κ] [Std.TransOrd κ] [Std.LawfulEqOrd κ]
variable {key : α → κ}

def empty : KeyedMap key := ⟨∅, by simp⟩

instance : EmptyCollection (KeyedMap key) := ⟨empty⟩

def find? (map : KeyedMap key) (k : κ) : Option α := map.entries[k]?

def insert (map : KeyedMap key) (value : α) : KeyedMap key where
  entries := map.entries.insert (key value) value
  keyed k stored found := by
    classical
    rw [OrderedMap.lookup_insert] at found
    split at found
    · next equal => cases found; exact equal
    · exact map.keyed k stored found

def erase (map : KeyedMap key) (k : κ) : KeyedMap key where
  entries := map.entries.erase k
  keyed other stored found := by
    classical
    rw [OrderedMap.lookup_erase] at found
    split at found
    · cases found
    · exact map.keyed other stored found

def values (map : KeyedMap key) : List α := map.entries.toList.map Prod.snd

def size (map : KeyedMap key) : Nat := map.entries.size

theorem size_insert_le (map : KeyedMap key) (value : α) :
    (map.insert value).size ≤ map.size + 1 :=
  Std.ExtTreeMap.size_insert_le

theorem size_erase_le (map : KeyedMap key) (k : κ) : (map.erase k).size ≤ map.size :=
  Std.ExtTreeMap.size_erase_le

variable {map : KeyedMap key}

variable {value : α}

theorem key_of_find? {k : κ} (found : map.find? k = some value) : key value = k :=
  map.keyed k value found

@[simp] theorem find?_empty (k : κ) : (∅ : KeyedMap key).find? k = none := by
  change (∅ : OrderedMap κ α)[k]? = none
  simp

theorem find?_insert [DecidableEq κ] (map : KeyedMap key) (value : α) (k : κ) :
    (map.insert value).find? k = if key value = k then some value else map.find? k :=
  OrderedMap.lookup_insert _ _ _ _

@[simp] theorem find?_insert_self (map : KeyedMap key) (value : α) :
    (map.insert value).find? (key value) = some value :=
  OrderedMap.lookup_insert_self _ _ _

theorem find?_erase [DecidableEq κ] (map : KeyedMap key) (erased k : κ) :
    (map.erase erased).find? k = if erased = k then none else map.find? k :=
  OrderedMap.lookup_erase _ _ _

@[simp] theorem find?_erase_self (map : KeyedMap key) (k : κ) :
    (map.erase k).find? k = none :=
  OrderedMap.lookup_erase_self _ _

section Stored

variable {map : KeyedMap key} {good : α → Prop}
variable (stored : ∀ k value, map.find? k = some value → good value)
include stored

theorem forall_find?_insert {value : α} (new : good value) :
    ∀ k other, (map.insert value).find? k = some other → good other := by
  classical
  intro k other found
  rw [find?_insert] at found
  split at found
  · cases found
    exact new
  · exact stored k other found

theorem forall_find?_erase (erased : κ) :
    ∀ k value, (map.erase erased).find? k = some value → good value := by
  classical
  intro k value found
  rw [find?_erase] at found
  split at found
  · cases found
  · exact stored k value found

end Stored

theorem ext_find? {left right : KeyedMap key} (equal : ∀ k, left.find? k = right.find? k) :
    left = right := by
  have entries : left.entries = right.entries := OrderedMap.ext_lookup equal
  cases left
  cases right
  cases entries
  rfl

theorem erase_insert_self (map : KeyedMap key) (value : α) :
    (map.erase (key value)).insert value = map.insert value := by
  classical
  apply ext_find?
  intro other
  rw [find?_insert, find?_insert, find?_erase]
  split <;> rfl

theorem erase_of_find?_eq_none {k : κ} (absent : map.find? k = none) : map.erase k = map := by
  classical
  apply ext_find?
  intro other
  rw [find?_erase]
  split
  · next equal => rw [← equal, absent]
  · rfl

theorem mem_values : value ∈ map.values ↔ map.find? (key value) = some value := by
  constructor
  · intro member
    rcases List.mem_map.mp member with ⟨⟨k, stored⟩, inEntries, rfl⟩
    have found := OrderedMap.mem_toList.mp inEntries
    rw [map.keyed k stored found]
    exact found
  · intro found
    exact List.mem_map.mpr ⟨(key value, value), OrderedMap.mem_toList.mpr found, rfl⟩

theorem nodup_keys (map : KeyedMap key) : (map.values.map key).Nodup := by
  rw [values, List.map_map]
  apply List.Pairwise.map _ _ (List.Pairwise.and_mem.mp Std.ExtTreeMap.distinct_keys_toList)
  rintro first second ⟨inFirst, inSecond, different⟩ equal
  apply different
  rw [← map.keyed _ _ (OrderedMap.mem_toList.mp inFirst),
    ← map.keyed _ _ (OrderedMap.mem_toList.mp inSecond)]
  rw [show key first.2 = key second.2 from equal]
  exact Std.ReflCmp.compare_self

theorem find?_foldl_values {β : Type w} {otherKey : β → κ} (source : KeyedMap otherKey)
    (convert : β → α) (same : ∀ value, key (convert value) = otherKey value) (k : κ) :
    (source.values.foldl (fun map value => map.insert (convert value)) ∅ : KeyedMap key).find? k =
      (source.find? k).map convert := by
  classical
  let write (value : β) : Option α := if otherKey value = k then some (convert value) else none
  have steps (map : KeyedMap key) (value : β) :
      (map.insert (convert value)).find? k = (write value).or (map.find? k) := by
    rw [find?_insert, same]
    by_cases equal : otherKey value = k <;> simp [write, equal]
  refine (read_foldl (fun map : KeyedMap key => map.find? k) steps source.values ∅).trans ?_
  rw [find?_empty, Option.or_none, values, lastWrite_map]
  apply OrderedMap.lastWrite_toList
  intro other value stored
  rw [← source.keyed other value stored]

def total (map : KeyedMap key) (weight : α → Nat) : Nat :=
  OrderedMap.total map.entries fun _ => weight

@[simp] theorem total_empty (weight : α → Nat) : total (∅ : KeyedMap key) weight = 0 :=
  OrderedMap.total_empty _

theorem total_erase {k : κ} (weight : α → Nat) (present : map.find? k = some value) :
    map.total weight = weight value + (map.erase k).total weight :=
  OrderedMap.total_erase _ present

theorem total_insert_of_absent (value : α) (weight : α → Nat)
    (absent : map.find? (key value) = none) :
    (map.insert value).total weight = weight value + map.total weight :=
  OrderedMap.total_insert_of_absent _ _ absent

theorem total_insert (map : KeyedMap key) (value : α) (weight : α → Nat) :
    (map.insert value).total weight = weight value + (map.erase (key value)).total weight := by
  have same : (map.insert value).erase (key value) = map.erase (key value) := by
    classical
    apply ext_find?
    intro k
    rw [find?_erase, find?_erase, find?_insert]
    split <;> rfl
  rw [total_erase weight (find?_insert_self map value), same]

theorem weight_le_total {k : κ} (weight : α → Nat) (present : map.find? k = some value) :
    weight value ≤ map.total weight :=
  OrderedMap.weight_le_total (fun _ => weight) present

theorem total_le_size_mul (map : KeyedMap key) {weight : α → Nat} {bound : Nat}
    (bounded : ∀ value, weight value ≤ bound) : map.total weight ≤ map.size * bound :=
  OrderedMap.total_le_size_mul fun _ => bounded

theorem total_le_total (map : KeyedMap key) {weight other : α → Nat}
    (le : ∀ value, weight value ≤ other value) : map.total weight ≤ map.total other :=
  OrderedMap.total_le_total map.entries fun _ => le

theorem total_mul (map : KeyedMap key) (weight : α → Nat) (factor : Nat) :
    map.total weight * factor = map.total fun value => weight value * factor :=
  OrderedMap.total_mul map.entries _ factor

theorem exists_of_total_pos {weight : α → Nat} (positive : 0 < map.total weight) :
    ∃ k value, map.find? k = some value ∧ 0 < weight value :=
  OrderedMap.exists_of_total_pos positive

theorem total_add (map : KeyedMap key) (weight other : α → Nat) :
    map.total (fun value => weight value + other value) = map.total weight + map.total other :=
  List.sum_map_add

theorem total_congr {weight other : α → Nat}
    (same : ∀ k value, map.find? k = some value → weight value = other value) :
    map.total weight = map.total other := by
  refine congrArg List.sum (List.map_congr_left ?_)
  intro entry member
  exact same entry.1 entry.2 (OrderedMap.mem_toList.mp member)

theorem sum_total_slots [DecidableEq β] (map : KeyedMap key) (slot : α → β) (weight : α → Nat)
    {slots : List β} (distinct : slots.Nodup) :
    (slots.map fun s => map.total fun value => if slot value = s then weight value else 0).sum =
      map.total fun value => if slot value ∈ slots then weight value else 0 := by
  induction slots with
  | nil =>
      have none : map.total (fun _ => 0) = 0 := List.sum_eq_zero (by simp)
      simp [none]
  | cons s slots induction =>
      rw [List.nodup_cons] at distinct
      rw [List.map_cons, List.sum_cons, induction distinct.2, ← total_add]
      congr 1
      funext value
      by_cases here : slot value = s
      · simp [here, distinct.1]
      · simp [here]

end KeyedMap

end ProtoFH
