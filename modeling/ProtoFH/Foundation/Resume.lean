import Mathlib.Tactic

/-! # Reading a numbered stream in pieces

A sender has a list of items that are numbered from one on, but sends only the items. A
reader is told the number of the first and counts. When it asks each time for the number
it would count next, what it reads over any number of connections is one stretch of the
list, however short each of them is cut. -/

namespace ProtoFH

/-- The items, each with its number when the first has number `next`. -/
def numberFrom (next : Nat) : List α → List (Nat × α)
  | [] => []
  | item :: items => (next, item) :: numberFrom (next + 1) items

theorem numberFrom_append (next : Nat) (items later : List α) :
    numberFrom next (items ++ later) =
      numberFrom next items ++ numberFrom (next + items.length) later := by
  induction items generalizing next with
  | nil => rfl
  | cons item items induction =>
      rw [List.cons_append, numberFrom, numberFrom, induction (next + 1), List.length_cons,
        List.cons_append, Nat.add_right_comm, Nat.add_assoc]

theorem numberFrom_isPrefix (next : Nat) {items all : List α} (front : items <+: all) :
    numberFrom next items <+: numberFrom next all := by
  obtain ⟨later, rfl⟩ := front
  exact ⟨_, (numberFrom_append next items later).symm⟩

/-- The items of a list from number `next` on, each with its number. -/
def numbered (items : List α) (next : Nat) : List (Nat × α) :=
  numberFrom next (items.drop (next - 1))

/-! ## The reader -/

/-- What a reader hears of the stream: the number that comes next, an item, or anything
that is not about the stream. -/
inductive Notice (α : Type u) where
  | restart (next : Nat)
  | item (value : α)
  | other
deriving DecidableEq

namespace Notice

def count : Nat × List (Nat × α) → Notice α → Nat × List (Nat × α)
  | (_, read), .restart next => (next, read)
  | (next, read), .item value => (next + 1, read ++ [(next, value)])
  | reader, .other => reader

def isOther : Notice α → Bool
  | .other => true
  | _ => false

def item? : Notice α → Option α
  | .item value => some value
  | _ => none

def items (notices : List (Notice α)) : List α := notices.filterMap item?

def relevant (notices : List (Notice α)) : List (Notice α) := notices.filter (!·.isOther)

theorem relevant_isPrefix {notices all : List (Notice α)} (front : notices <+: all) :
    relevant notices <+: relevant all := front.filter _

theorem foldl_count_relevant (notices : List (Notice α)) (reader : Nat × List (Nat × α)) :
    notices.foldl count reader = (relevant notices).foldl count reader := by
  induction notices generalizing reader with
  | nil => rfl
  | cons notice notices induction =>
      cases notice with
      | other => exact induction reader
      | restart next | item value => exact induction _

theorem items_relevant (notices : List (Notice α)) : items (relevant notices) = items notices := by
  induction notices with
  | nil => rfl
  | cons notice notices induction =>
      cases notice with
      | other | restart next => exact induction
      | item value => exact congrArg (value :: ·) induction

theorem items_map_item (values : List α) : items (values.map item) = values := by
  rw [items, List.filterMap_map]
  exact List.filterMap_some

theorem foldl_count_items (values : List α) (next : Nat) (read : List (Nat × α)) :
    (values.map item).foldl count (next, read) =
      (next + values.length, read ++ numberFrom next values) := by
  induction values generalizing next read with
  | nil => rw [numberFrom, List.append_nil]; rfl
  | cons value values induction =>
      rw [List.map_cons, List.foldl_cons, count, induction, List.length_cons, numberFrom,
        List.append_assoc, Nat.add_assoc, Nat.add_comm 1]
      rfl

theorem foldl_count {notices : List (Notice α)} {values : List α} {next : Nat}
    (front : relevant notices <+: .restart next :: values.map item) :
    items notices <+: values ∧
      notices.foldl count (next, []) =
        (next + (items notices).length, numberFrom next (items notices)) := by
  rw [foldl_count_relevant, ← items_relevant]
  cases heard : relevant notices with
  | nil => exact ⟨List.nil_prefix, rfl⟩
  | cons first rest =>
      rw [heard, List.cons_prefix_cons, List.prefix_map_iff] at front
      obtain ⟨rfl, read, shorter, rfl⟩ := front
      have same : items (.restart next :: read.map item) = read := items_map_item read
      rw [same, List.foldl_cons, count, foldl_count_items, List.nil_append]
      exact ⟨shorter, rfl⟩

end Notice

/-! ## Over many connections -/

/-- A reader that asked for number `start` first has read `read` and counts `next` next:
the items read are a stretch of the list from `start` on. -/
structure Stretch (items : List α) (start next : Nat) (read : List (Nat × α)) : Prop where
  next_eq : next = start + read.length
  read_isPrefix : read <+: numbered items start

theorem numberFrom_length (next : Nat) (items : List α) :
    (numberFrom next items).length = items.length := by
  induction items generalizing next with
  | nil => rfl
  | cons item items induction => exact congrArg (· + 1) (induction (next + 1))

theorem Stretch.refl (items : List α) (start : Nat) : Stretch items start start [] :=
  ⟨rfl, List.nil_prefix⟩

theorem Stretch.of_isPrefix {items values : List α} {start : Nat}
    (front : values <+: items.drop (start - 1)) :
    Stretch items start (start + values.length) (numberFrom start values) :=
  ⟨by rw [numberFrom_length], numberFrom_isPrefix start front⟩

theorem exists_of_isPrefix_numberFrom {items : List α} {next : Nat} {read : List (Nat × α)}
    (front : read <+: numberFrom next items) :
    ∃ values, values <+: items ∧ read = numberFrom next values := by
  induction items generalizing next read with
  | nil => exact ⟨[], List.nil_prefix, List.prefix_nil.mp front⟩
  | cons item items induction =>
      cases read with
      | nil => exact ⟨[], List.nil_prefix, rfl⟩
      | cons first read =>
          rw [numberFrom, List.cons_prefix_cons] at front
          obtain ⟨rfl, front⟩ := front
          obtain ⟨values, shorter, rfl⟩ := induction front
          exact ⟨item :: values, List.cons_prefix_cons.mpr ⟨rfl, shorter⟩, rfl⟩

theorem Stretch.trans {items : List α} {start next after : Nat} {read more : List (Nat × α)}
    (positive : 1 ≤ start) (stretch : Stretch items start next read)
    (later : Stretch items next after more) : Stretch items start after (read ++ more) := by
  obtain ⟨values, front, rfl⟩ := exists_of_isPrefix_numberFrom stretch.read_isPrefix
  obtain ⟨others, behind, rfl⟩ := exists_of_isPrefix_numberFrom later.read_isPrefix
  have next_eq := stretch.next_eq
  rw [numberFrom_length] at next_eq
  have whole : values ++ others <+: items.drop (start - 1) := by
    obtain ⟨rest, split⟩ := front
    have rest_eq : items.drop (next - 1) = rest := by
      rw [next_eq, show start + values.length - 1 = start - 1 + values.length by omega,
        ← List.drop_drop, ← split, List.drop_left]
    rw [← split, List.prefix_append_right_inj, ← rest_eq]
    exact behind
  refine ⟨?_, ?_⟩
  · rw [later.next_eq, stretch.next_eq, List.length_append, Nat.add_assoc]
  · rw [next_eq, ← numberFrom_append]
    exact numberFrom_isPrefix start whole

end ProtoFH
