import ProtoFH.Prototype.Agreement

/-! # Instrument records

Both implementations keep one record per instrument and learn its group from the first
message that carries one. The prototype has learned it once the group is not `None`,
the C++ code once it is not empty. The two differ after a message with a blank group:
the prototype keeps the blank, the C++ code takes the next group it sees. -/

namespace ProtoFH

/-- An instrument's fields as both implementations have them, a group or ISIN that is
not known being blank. -/
structure InstrumentRecord where
  isin : Text
  group : Text
  roundLot : Option Nat
  tickTableId : Option Nat
  priceDecimals : Option Nat
  upperLimit : Option Nat
  lowerLimit : Option Nat
  tradingState : Text
  shortSellState : Text
  referencePrice : Option Nat
  directoryMissing : Bool
deriving DecidableEq

def Instrument.record (inst : Instrument) : InstrumentRecord where
  isin := inst.isin.bytes
  group := inst.group.bytes
  roundLot := inst.roundLot.map UInt32.toNat
  tickTableId := inst.tickTableId.map UInt32.toNat
  priceDecimals := inst.priceDecimals.map UInt32.toNat
  upperLimit := inst.upperLimit.map UInt32.toNat
  lowerLimit := inst.lowerLimit.map UInt32.toNat
  tradingState := charText inst.tradingState
  shortSellState := charText inst.shortSellState
  referencePrice := inst.referencePrice.map UInt32.toNat
  directoryMissing := inst.directoryMissing

def Prototype.Instrument.record (inst : Prototype.Instrument) : InstrumentRecord where
  isin := inst.isin.getD []
  group := inst.group.getD []
  roundLot := inst.roundLot
  tickTableId := inst.tickTableId
  priceDecimals := inst.priceDecimals
  upperLimit := inst.upperLimit
  lowerLimit := inst.lowerLimit
  tradingState := inst.tradingState
  shortSellState := inst.shortSellState
  referencePrice := inst.referencePrice
  directoryMissing := inst.directoryMissing

/-! ## Learning the group -/

def Prototype.Instrument.TakesGroup (inst : Prototype.Instrument) (group : Text) : Prop :=
  inst.group = some [] → group = []

instance (inst : Prototype.Instrument) (group : Text) : Decidable (inst.TakesGroup group) :=
  inferInstanceAs (Decidable (_ → _))

private theorem Instrument.fillGroup_bytes (inst : Instrument) (group : CStr 4) :
    (inst.fillGroup group).group.bytes =
      if inst.group.bytes = [] then group.bytes else inst.group.bytes := by
  have blank : inst.group = .empty ↔ inst.group.bytes = (.empty : CStr 4).bytes :=
    CStr.bytes_inj.symm
  simp only [fillGroup, blank]
  exact apply_ite CStr.bytes _ _ _

private theorem Instrument.fillGroup_iff {inst : Instrument} {proto : Prototype.Instrument}
    (same : proto.group.getD [] = inst.group.bytes) (group : CStr 4) :
    (proto.fillGroup group.bytes).group.getD [] = (inst.fillGroup group).group.bytes ↔
      proto.TakesGroup group.bytes := by
  rw [fillGroup_bytes, ← same]
  simp only [Prototype.Instrument.fillGroup, Prototype.Instrument.TakesGroup, Option.getD_some]
  cases proto.group with
  | none => simp
  | some known =>
      by_cases blank : known = []
      · simp [blank, eq_comm]
      · simp [blank]

/-! ## Reference data -/

namespace RefData

structure SameInstruments (refdata : RefData) (proto : Prototype.RefData) : Prop where
  records : ∀ orderbookId : CStr 4,
    (proto.instruments.find? orderbookId.bytes).map Prototype.Instrument.record =
      refdata.instruments[orderbookId]?.map Instrument.record
  keys : ∀ orderbookId inst, proto.instruments.find? orderbookId = some inst →
    ∃ own : CStr 4, own.bytes = orderbookId

private theorem sameInstruments_empty : SameInstruments {} {} where
  records orderbookId := by simp
  keys orderbookId inst found := by cases found

end RefData

def Prototype.Message.groupGiven : Prototype.Message → Option (Text × Text)
  | .tradingState _ orderbookId group _ => some (orderbookId, group)
  | .shortSellRestriction _ orderbookId group _ => some (orderbookId, group)
  | .orderAdded order =>
      if order.orderNumber = 0 then some (order.orderbookId, order.group) else none
  | _ => none

def Prototype.RefData.TakesGroup (proto : Prototype.RefData) (msg : Prototype.Message) : Prop :=
  ∀ given ∈ msg.groupGiven, (proto.get given.1).TakesGroup given.2

namespace RefData.SameInstruments

variable {refdata : RefData} {proto : Prototype.RefData}
  (same : refdata.SameInstruments proto)
include same

theorem get (orderbookId : CStr 4) :
    (proto.get orderbookId.bytes).record = (refdata.get orderbookId).record :=
  observed_get same.records orderbookId rfl

theorem modify_iff (orderbookId : CStr 4) (change : Instrument → Instrument)
    (protoChange : Prototype.Instrument → Prototype.Instrument) :
    (refdata.modify orderbookId change).SameInstruments
        (proto.modify orderbookId.bytes protoChange) ↔
      (protoChange (proto.get orderbookId.bytes)).record =
        (change (refdata.get orderbookId)).record := by
  constructor
  · intro after
    have own := after.records orderbookId
    rw [modify_lookup, if_pos rfl] at own
    simpa [Prototype.RefData.modify, Dict.find?_set] using own
  · intro equal
    refine ⟨observed_modify same.records orderbookId equal, fun other inst found => ?_⟩
    rw [Prototype.RefData.modify, Dict.find?_set] at found
    by_cases own : orderbookId.bytes = other
    · exact ⟨orderbookId, own⟩
    · rw [if_neg own] at found
      exact same.keys other inst found

theorem learn_iff {msg : Prototype.Message} (orderbookId group : CStr 4)
    {change : Instrument → Instrument} {protoChange : Prototype.Instrument → Prototype.Instrument}
    (gives : msg.groupGiven = some (orderbookId.bytes, group.bytes))
    (decides : ∀ inst other, Prototype.Instrument.record other = Instrument.record inst →
      ((protoChange other).record = (change inst).record ↔
        (other.fillGroup group.bytes).group.getD [] = (inst.fillGroup group).group.bytes)) :
    (refdata.modify orderbookId change).SameInstruments
        (proto.modify orderbookId.bytes protoChange) ↔ proto.TakesGroup msg := by
  have records := same.get orderbookId
  have taken : proto.TakesGroup msg ↔ (proto.get orderbookId.bytes).TakesGroup group.bytes := by
    simp [Prototype.RefData.TakesGroup, gives]
  rw [same.modify_iff, decides _ _ records, taken]
  exact Instrument.fillGroup_iff (congrArg InstrumentRecord.group records) group

theorem apply_iff (msg : ItchMsg) :
    (refdata.apply msg).SameInstruments (proto.apply msg.view) ↔ proto.TakesGroup msg.view := by
  have unchanged {refdata' : RefData} {proto' : Prototype.RefData} {msg' : Prototype.Message}
      (instruments : refdata'.instruments = refdata.instruments)
      (protoInstruments : proto'.instruments = proto.instruments)
      (gives : msg'.groupGiven = none) :
      refdata'.SameInstruments proto' ↔ proto.TakesGroup msg' := by
    refine iff_of_true ⟨?_, ?_⟩ fun given member => ?_
    · rw [instruments, protoInstruments]
      exact same.records
    · rw [protoInstruments]
      exact same.keys
    · rw [gives] at member
      cases member
  cases msg with
  | directory entry =>
      simp only [ItchMsg.view, Prototype.RefData.apply, RefData.apply]
      refine iff_of_true ((same.modify_iff entry.orderbookId _ _).mpr ?_) fun given member => ?_
      · have records := same.get entry.orderbookId
        simp only [Prototype.Instrument.record, Instrument.record, InstrumentRecord.mk.injEq]
          at records
        simp [Prototype.Instrument.record, Instrument.record, Prototype.Instrument.describe,
          Instrument.describe, Directory.view, records]
      · cases member
  | tradingState ns orderbookId group state | shortSellState ns orderbookId group state =>
      simp only [ItchMsg.view, Prototype.RefData.apply, RefData.apply]
      refine same.learn_iff orderbookId group ?_ fun inst other records => ?_
      · rfl
      · simp only [Prototype.Instrument.record, Instrument.record, InstrumentRecord.mk.injEq]
          at records ⊢
        simp [Prototype.Instrument.fillGroup, Instrument.fillGroup, records]
  | addOrder order =>
      simp only [ItchMsg.view, Prototype.RefData.apply, RefData.apply]
      by_cases reference : order.orderNumber = 0
      · rw [if_pos reference, if_pos (order.view_isReference.mpr reference)]
        refine same.learn_iff order.orderbookId order.group
          (if_pos (order.view_isReference.mpr reference)) fun inst other records => ?_
        simp only [Prototype.Instrument.record, Instrument.record, InstrumentRecord.mk.injEq]
          at records ⊢
        simp [Prototype.Instrument.fillGroup, Instrument.fillGroup, AddOrder.view, records]
      · rw [if_neg reference, if_neg (mt order.view_isReference.mp reference)]
        exact unchanged rfl rfl (if_neg (mt order.view_isReference.mp reference))
  | _ =>
      exact unchanged rfl rfl rfl

end RefData.SameInstruments

namespace Market

private theorem apply_ok_of_groupGiven (proto : Prototype.Market) {msg : Prototype.Message}
    {given : Text × Text} (gives : msg.groupGiven = some given) :
    ∃ after, proto.apply msg = .ok after := by
  cases msg with
  | tradingState | shortSellRestriction => exact ⟨_, rfl⟩
  | orderAdded order =>
      by_cases reference : order.orderNumber = 0
      · exact ⟨_, by rw [Prototype.Market.apply, Prototype.Market.route, if_pos reference]⟩
      · rw [Prototype.Message.groupGiven, if_neg reference] at gives
        cases gives
  | _ => cases gives

/-- Fed payloads that both decoders accept, the two keep the same instruments at every
point exactly when every group is taken that a message gives an instrument. -/
theorem instruments_agree_iff {payloads : List Bytes} {messages : List ItchMsg}
    {seen : List Prototype.Message} (decoded : payloads.mapM decode = .ok messages)
    (accepted : payloads.mapM Prototype.Message.decode = .ok seen)
    (nulFree : ∀ payload ∈ payloads, NulFree payload) :
    (∀ n proto, Prototype.Market.run {} (seen.take n) = .ok proto →
        (run {} (messages.take n)).refdata.SameInstruments proto.refdata) ↔
      ∀ n msg proto, seen[n]? = some msg → Prototype.Market.run {} (seen.take n) = .ok proto →
        proto.refdata.TakesGroup msg := by
  have views := ItchMsg.view_of_decodes decoded accepted nulFree
  subst views
  constructor
  · intro always n msg proto next ran given gives
    rcases apply_ok_of_groupGiven proto gives with ⟨after, applied⟩
    have ranAfter : Prototype.Market.run {} ((messages.map ItchMsg.view).take (n + 1)) =
        .ok after := by
      rw [List.take_add_one, next]
      exact Prototype.Market.run_concat_ok ran applied
    have same := always (n + 1) after ranAfter
    rcases Prototype.Market.apply_eq_ok applied with ⟨-, -, -, referenced, -⟩
    rw [List.getElem?_map, Option.map_eq_some_iff] at next
    rcases next with ⟨own, found, rfl⟩
    rw [List.take_add_one, found, Option.toList_some, run_concat, apply_refdata, referenced,
      (always n proto ran).apply_iff] at same
    exact same given gives
  · intro taken n proto ran
    rw [← List.map_take] at ran
    refine run_simulates (fun market proto => market.refdata.SameInstruments proto.refdata)
      (List.map_id ((messages.take n).map ItchMsg.view)) RefData.sameInstruments_empty ?_ ran
    intro earlier msg later viewed view before after split views (isView : view = msg.view)
      ranBefore same applied
    subst isView
    rw [List.map_id] at views
    subst views
    rcases Prototype.Market.apply_eq_ok applied with ⟨-, -, -, referenced, -⟩
    rw [apply_refdata, referenced, same.apply_iff]
    have inside : messages = earlier ++ msg :: (later ++ messages.drop n) := by
      rw [← List.cons_append, ← List.append_assoc, ← split, List.take_append_drop]
    refine taken earlier.length msg.view before ?_ ?_
    · rw [inside, List.getElem?_map, List.getElem?_append_right le_rfl, Nat.sub_self]
      rfl
    · rw [inside, ← List.map_take, List.take_left]
      exact ranBefore

/-- A trading state for book `1301` of the given group. -/
def stateFor (group : Bytes) : Bytes :=
  [ascii 'H', 0, 0, 0, 0, ascii '1', ascii '3', ascii '0', ascii '1'] ++ group ++ [ascii 'T']

def dayGroup : Bytes := [ascii 'D', ascii 'A', ascii 'Y', space]

instance (proto : Prototype.RefData) (msg : Prototype.Message) : Decidable (proto.TakesGroup msg) :=
  inferInstanceAs (Decidable (∀ given ∈ msg.groupGiven, (proto.get given.1).TakesGroup given.2))

def directoryFeed : List Bytes :=
  [stateFor (List.replicate 4 space),
    [ascii 'R', 0, 0, 0, 0, ascii '1', ascii '3', ascii '0', ascii '1'] ++
      List.replicate 12 (ascii 'X') ++ dayGroup ++ [0, 0, 0, 100] ++ [0, 0, 0, 1] ++ [0, 0, 0, 1] ++
      [0, 0, 78, 32] ++ [0, 0, 0, 10],
    stateFor dayGroup, stateFor (List.replicate 4 space)]

def directorySeen : List Prototype.Message :=
  (directoryFeed.mapM Prototype.Message.decode).toOption.getD []

theorem instruments_agree_iff_directoryFeed :
    ∃ messages, directoryFeed.mapM decode = .ok messages ∧
      ∀ n proto, Prototype.Market.run {} (directorySeen.take n) = .ok proto →
        (run {} (messages.take n)).refdata.SameInstruments proto.refdata := by
  have decodes : ∃ messages, directoryFeed.mapM decode = .ok messages :=
    except_exists_of_isOk (by decide +kernel)
  rcases decodes with ⟨messages, decoded⟩
  refine ⟨messages, decoded, (instruments_agree_iff decoded
    (by decide +kernel : directoryFeed.mapM Prototype.Message.decode = .ok directorySeen)
    (by decide +kernel)).mpr ?_⟩
  have taken : ∀ n < 4, ∀ msg ∈ directorySeen[n]?,
      ∀ proto ∈ (Prototype.Market.run {} (directorySeen.take n)).toOption,
        proto.refdata.TakesGroup msg := by
    decide +kernel
  have count : directorySeen.length = 4 := by decide +kernel
  intro n msg proto next ran
  have inside : n < 4 := count ▸ (List.getElem?_eq_some_iff.mp next).1
  exact taken n inside msg next proto (by rw [ran]; rfl)

def learnedGroups (groups : List Bytes) : Option (Text × Option Text) := do
  let messages ← ((groups.map stateFor).mapM decode).toOption
  let seen ← ((groups.map stateFor).mapM Prototype.Message.decode).toOption
  let proto ← (Prototype.Market.run {} seen).toOption
  let ticker : CStr 4 := .copy 4 [ascii '1', ascii '3', ascii '0', ascii '1']
  let inst ← (run {} messages).refdata.instruments[ticker]?
  let protoInst ← proto.refdata.instruments.find? ticker.bytes
  return (inst.group.bytes, protoInst.group)

/-- Behind a blank group, only the C++ code learns the next one. -/
theorem blank_group_diverges :
    learnedGroups [List.replicate 4 space, dayGroup] =
      some ([ascii 'D', ascii 'A', ascii 'Y'], some []) := by
  decide +kernel

end Market

end ProtoFH
