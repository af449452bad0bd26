import ProtoFH.Prototype.Labels

/-! # C++ messages as the prototype decodes them

A payload that both decoders accept, with no NUL byte in an alpha field, gives the
prototype the message that `ItchMsg.view` makes of the C++ one. -/

namespace ProtoFH

def charText (char : UInt8) : Text := stripRight [char]

theorem charText_eq_iff {char other : UInt8} (printable : other ≠ space) :
    charText char = [other] ↔ char = other := by
  by_cases blank : char = space
  · subst blank
    have empty : charText space = [] := by decide
    rw [empty]
    exact ⟨nofun, fun equal => absurd equal.symm printable⟩
  · have kept : charText char = [char] := by
      rw [charText, stripRight, List.rdropWhile_singleton]
      simp [blank]
    simp [kept]

open Prototype (Message)

def AddOrder.view (order : AddOrder) : Prototype.OrderAdded where
  ns := order.ns.toNat
  orderNumber := order.orderNumber.toNat
  side := charText order.side
  qty := order.qty.toNat
  orderbookId := order.orderbookId.bytes
  group := order.group.bytes
  price := order.price.toNat

theorem AddOrder.view_isReference (order : AddOrder) :
    order.view.orderNumber = 0 ↔ order.orderNumber = 0 :=
  UInt64.toNat_inj (b := 0)

def Directory.view (entry : Directory) : Prototype.OrderbookDirectory where
  ns := entry.ns.toNat
  orderbookId := entry.orderbookId.bytes
  isin := entry.isin.bytes
  group := entry.group.bytes
  roundLot := entry.roundLot.toNat
  tickTableId := entry.tickTableId.toNat
  priceDecimals := entry.priceDecimals.toNat
  upperLimit := entry.upperLimit.toNat
  lowerLimit := entry.lowerLimit.toNat

def ItchMsg.view : ItchMsg → Message
  | .seconds clock => .timestampSeconds clock.toNat
  | .systemEvent nanos group event => .systemEvent nanos.toNat group.bytes (charText event)
  | .tickSize nanos tickTableId size priceStart =>
      .priceTickSize nanos.toNat tickTableId.toNat size.toNat priceStart.toNat
  | .directory entry => .orderbookDirectory entry.view
  | .tradingState nanos orderbookId group state =>
      .tradingState nanos.toNat orderbookId.bytes group.bytes (charText state)
  | .shortSellState nanos orderbookId group state =>
      .shortSellRestriction nanos.toNat orderbookId.bytes group.bytes (charText state)
  | .addOrder order => .orderAdded order.view
  | .addAttributed order attribution orderType =>
      .orderAddedWithAttributes order.view attribution.bytes (charText orderType)
  | .executed nanos orderNumber executedQty matchNumber =>
      .orderExecuted nanos.toNat orderNumber.toNat executedQty.toNat matchNumber.toNat
  | .deleted nanos orderNumber => .orderDeleted nanos.toNat orderNumber.toNat
  | .replaced nanos origOrderNumber newOrderNumber qty price =>
      .orderReplaced nanos.toNat origOrderNumber.toNat newOrderNumber.toNat qty.toNat price.toNat
  | .endOfSnapshot sequenceNumber => .endOfSnapshot sequenceNumber.toNat

/-! ## Fields -/

theorem getAlpha_bytes {width : Nat} {p : Bytes} (nulFree : (0 : UInt8) ∉ p.take width) :
    (getAlpha width p).bytes = stripRight (p.take width) :=
  cstr_eq_self fun member => nulFree ((stripRight_isPrefix _).subset member)

private theorem charText_beGetU8 {p : Bytes} (inside : p ≠ []) :
    charText (beGetU8 p) = stripRight (p.take 1) := by
  cases p with
  | nil => exact absurd rfl inside
  | cons byte rest => rfl

/-! ## Messages -/

theorem Prototype.Message.decode_eq_ok {buf : Bytes} {seen : Message}
    (decoded : Message.decode buf = .ok seen) :
    ∃ known payload rest, buf = beGetU8 buf :: payload ∧
      MsgType.ofByte? (beGetU8 buf) = some known ∧
      Message.decodeFields known payload = .ok (seen, rest) := by
  cases buf with
  | nil => cases decoded
  | cons type payload =>
      rw [Message.decode] at decoded
      split at decoded
      · cases decoded
      · next known found =>
          split at decoded
          · rcases read : Message.decodeFields known payload with reason | ⟨message, rest⟩
            · rw [read] at decoded
              cases decoded
            · rw [read] at decoded
              cases decoded
              exact ⟨known, payload, rest, rfl, found, read⟩
          · cases decoded

theorem charText_drop {payload : Bytes} {offset : Nat} (inside : offset < payload.length) :
    charText (beGetU8 (payload.drop offset)) = stripRight ((payload.drop offset).take 1) :=
  charText_beGetU8 (List.drop_eq_nil_iff.not.mpr (Nat.not_le.mpr inside))

/-! What both read in the field of a label is compared by what `change` makes of it. -/

section Labels

variable {change : Text → Text}

def SameLabel (change : Text → Text) (width : Nat) (p : Bytes) : Prop :=
  change (stripRight (p.take width)) = change (getAlpha width p).bytes

open FieldReader in
theorem AddOrder.view_of_decode (type : UInt8) {payload rest : Bytes} {known : MsgType}
    {seen : Prototype.OrderAdded} (read : Message.decodeAdded known payload = .ok (seen, rest))
    (long : 12 < payload.length) (noNulId : (0 : UInt8) ∉ (payload.drop 17).take 4)
    (group : SameLabel change 4 (payload.drop 21)) :
    seen.relabel change = (decodeAdd (type :: payload)).view.relabel change ∧
      rest = payload.drop 29 := by
  rw [SameLabel] at group
  simp only [Message.decodeAdded, Message.decodeAlpha, num_bind_eq_ok, alpha_bind_eq_ok,
    pure_eq_ok] at read
  rcases read with ⟨-, -, -, rfl, rfl⟩
  simp only [Prototype.OrderAdded.relabel, AddOrder.view, decodeAdd, List.drop_succ_cons,
    List.drop_zero, List.drop_drop, beGetU32_toNat, beGetU64_toNat, charText_drop long,
    getAlpha_bytes noNulId, group, Nat.reduceAdd, and_self]

open FieldReader in
theorem Directory.view_of_decode (type : UInt8) {payload rest : Bytes}
    {seen : Prototype.OrderbookDirectory}
    (read : Message.decodeDirectory payload = .ok (seen, rest))
    (noNulId : (0 : UInt8) ∉ (payload.drop 4).take 4)
    (isin : SameLabel change 12 (payload.drop 8)) (group : SameLabel change 4 (payload.drop 20)) :
    seen.relabel change = (decodeDirectory (type :: payload)).view.relabel change := by
  rw [SameLabel] at isin group
  simp only [Message.decodeDirectory, Message.decodeAlpha, num_bind_eq_ok, alpha_bind_eq_ok,
    pure_eq_ok] at read
  rcases read with ⟨-, -, -, rfl, rfl⟩
  simp only [Prototype.OrderbookDirectory.relabel, Directory.view, decodeDirectory,
    List.drop_succ_cons, List.drop_zero, List.drop_drop, beGetU32_toNat, getAlpha_bytes noNulId,
    isin, group, Nat.reduceAdd]

open FieldReader in
theorem ItchMsg.relabel_decodeFields {type : UInt8} {payload rest : Bytes} {known : MsgType}
    {seen : Message} (read : Message.decodeFields known payload = .ok (seen, rest))
    (length : (type :: payload).length = expectedLen known)
    (ids : ∀ field ∈ idFields known, (0 : UInt8) ∉ ((type :: payload).drop field.1).take field.2)
    (labels : ∀ field ∈ alphaFields known,
      SameLabel change field.2 ((type :: payload).drop field.1)) :
    seen.relabel change = (decodeFields (type :: payload) known).view.relabel change := by
  rw [List.length_cons] at length
  cases known with
  | T | L | E | D | U | G =>
      simp only [Message.decodeFields, num_bind_eq_ok, pure_eq_ok, List.drop_drop] at read
      rw [read.1]
      simp only [decodeFields, ItchMsg.view, List.drop_succ_cons, List.drop_zero, beGetU32_toNat,
        beGetU64_toNat, Nat.reduceAdd]
  | S =>
      simp only [alphaFields, List.forall_mem_singleton, List.drop_succ_cons, SameLabel] at labels
      have inside : 8 < payload.length := by
        change _ = 10 at length
        omega
      simp only [Message.decodeFields, Message.decodeAlpha, num_bind_eq_ok, alpha_bind_eq_ok,
        pure_eq_ok, List.drop_drop] at read
      rw [read.2.2.1]
      simp only [decodeFields, ItchMsg.view, Message.relabel, List.drop_succ_cons, List.drop_zero,
        beGetU32_toNat, labels, charText_drop inside, Nat.reduceAdd]
  | H | Y =>
      simp only [idFields, alphaFields, List.forall_mem_cons, List.not_mem_nil, false_imp_iff,
        implies_true, and_true, List.drop_succ_cons, SameLabel] at ids labels
      have inside : 12 < payload.length := by
        change _ = 14 at length
        omega
      simp only [Message.decodeFields, Message.decodeState, Message.decodeAlpha, num_bind_eq_ok,
        alpha_bind_eq_ok, pure_eq_ok, List.drop_drop] at read
      rw [read.2.2.2.1]
      simp only [decodeFields, ItchMsg.view, Message.relabel, List.drop_succ_cons, List.drop_zero,
        beGetU32_toNat, getAlpha_bytes ids, labels.2, charText_drop inside, Nat.reduceAdd]
  | R =>
      simp only [idFields, alphaFields, List.forall_mem_cons, List.not_mem_nil, false_imp_iff,
        implies_true, and_true, List.drop_succ_cons] at ids labels
      simp only [Message.decodeFields, bind_eq_ok, pure_eq_ok] at read
      rcases read with ⟨entry, _, readEntry, rfl, -⟩
      exact congrArg Message.orderbookDirectory
        (Directory.view_of_decode type readEntry ids labels.2.1 labels.2.2)
  | A =>
      simp only [idFields, alphaFields, List.forall_mem_cons, List.not_mem_nil, false_imp_iff,
        implies_true, and_true, List.drop_succ_cons] at ids labels
      have inside : 12 < payload.length := by
        change _ = 30 at length
        omega
      simp only [Message.decodeFields, bind_eq_ok, pure_eq_ok] at read
      rcases read with ⟨order, _, readOrder, rfl, -⟩
      exact congrArg Message.orderAdded
        (AddOrder.view_of_decode type readOrder inside ids labels.2).1
  | F =>
      simp only [idFields, alphaFields, List.forall_mem_cons, List.not_mem_nil, false_imp_iff,
        implies_true, and_true, List.drop_succ_cons] at ids labels
      have inside : 33 < payload.length := by
        change _ = 35 at length
        omega
      rw [Message.decodeFields, bind_eq_ok] at read
      rcases read with ⟨order, _, readOrder, read⟩
      simp only [Message.decodeAlpha, alpha_bind_eq_ok, pure_eq_ok] at read
      rcases read with ⟨-, -, rfl, -⟩
      have added := AddOrder.view_of_decode type readOrder (by omega) ids labels.2.1
      have attribution := labels.2.2
      rw [SameLabel] at attribution
      simp only [decodeFields, ItchMsg.view, Message.relabel, added.1, added.2,
        List.drop_succ_cons, List.drop_drop, attribution, charText_drop inside, Nat.reduceAdd]

end Labels

/-- Fields that the prototype reads with a NUL byte in them are cut there by the C++ decoder.
Where the order book has none, only labels can differ. -/
theorem ItchMsg.relabel_of_decode {buf : Bytes} {msg : ItchMsg} {seen : Message}
    (decoded : decode buf = .ok msg) (accepted : Message.decode buf = .ok seen)
    (ids : NulFreeIn idFields buf) {change : Text → Text}
    (labels : ∀ known, MsgType.ofByte? (beGetU8 buf) = some known →
      ∀ field ∈ alphaFields known, SameLabel change field.2 (buf.drop field.1)) :
    seen.relabel change = msg.view.relabel change := by
  rcases ProtoFH.decode_eq_ok decoded with ⟨known, found, length, rfl⟩
  rcases Message.decode_eq_ok accepted with ⟨other, payload, rest, split, same, read⟩
  cases found.symm.trans same
  have labels := labels known found
  simp only [NulFreeIn, found] at ids
  generalize beGetU8 buf = type at split
  subst split
  exact relabel_decodeFields read length ids labels

theorem ItchMsg.view_of_decode {buf : Bytes} {msg : ItchMsg} {seen : Message}
    (decoded : decode buf = .ok msg) (accepted : Message.decode buf = .ok seen)
    (nulFree : NulFree buf) : seen = msg.view := by
  have ids : NulFreeIn idFields buf := by
    unfold NulFree NulFreeIn at *
    split
    · trivial
    · next known found =>
        rw [found] at nulFree
        refine fun field member => nulFree field ?_
        cases known <;> simp_all [idFields, alphaFields]
  rw [← seen.relabel_id, ← msg.view.relabel_id]
  refine relabel_of_decode decoded accepted ids fun known found field member => ?_
  simp only [NulFree, NulFreeIn, found] at nulFree
  exact (getAlpha_bytes (nulFree field member)).symm

end ProtoFH
