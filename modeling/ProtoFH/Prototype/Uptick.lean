import ProtoFH.Foundation.LastChange
import ProtoFH.Prototype.TickTables

/-! # The uptick rule

The tape of the prototype keeps one flag per book and updates it with every trade. It
says how the whole price history of the book ends, and with it the short-sell price. -/

namespace ProtoFH.Prototype

def maxPrice : Nat := 0x7FFFFFFE

theorem ne_noPrice_of_le {price : Nat} (priced : price ≤ maxPrice) : price ≠ noPrice := by
  have below : maxPrice < noPrice := by decide
  omega

structure TapeCall where
  execution : Execution
  timestamp : Nat
  basePrice : Option Nat

def TradeTape.recordAll (tape : TradeTape) (calls : List TapeCall) : TradeTape :=
  calls.foldl (fun tape call => tape.record call.execution call.timestamp call.basePrice) tape

/-! ## The price history of a book -/

def knownPrice (basePrice : Option Nat) : Option Nat := basePrice.filter (· ≠ noPrice)

def callsOf (orderbookId : Text) (calls : List TapeCall) : List TapeCall :=
  calls.filter fun call => call.execution.orderbookId = orderbookId

/-- The prices of a book: the reference price at its first trade if it was known then,
and those of the trades. -/
def priceHistory (orderbookId : Text) (calls : List TapeCall) : List Nat :=
  ((callsOf orderbookId calls).head?.bind fun call => knownPrice call.basePrice).toList ++
    (callsOf orderbookId calls).map fun call => call.execution.price

def lastTraded (orderbookId : Text) (calls : List TapeCall) : Option Nat :=
  (callsOf orderbookId calls).getLast?.map fun call => call.execution.price

theorem TradeTape.statsOf_recordAll (tape : TradeTape) (orderbookId : Text)
    (calls : List TapeCall) :
    (tape.recordAll calls).statsOf orderbookId =
      (callsOf orderbookId calls).foldl
        (fun stats call => stats.record call.execution call.basePrice)
        (tape.statsOf orderbookId) := by
  induction calls generalizing tape with
  | nil => rfl
  | cons call calls induction =>
      have step : tape.recordAll (call :: calls) =
          (tape.record call.execution call.timestamp call.basePrice).recordAll calls := by
        rw [recordAll, List.foldl_cons, recordAll]
      have written : (tape.record call.execution call.timestamp call.basePrice).statsOf
          orderbookId =
            if call.execution.orderbookId = orderbookId then
              (tape.statsOf orderbookId).record call.execution call.basePrice
            else tape.statsOf orderbookId := by
        simp only [TradeTape.statsOf, TradeTape.record, Dict.find?_set]
        split
        · next own => rw [own]; rfl
        · rfl
      rw [step, induction, written]
      by_cases own : call.execution.orderbookId = orderbookId
      · simp [callsOf, own]
      · simp [callsOf, own]

namespace BookStats

structure Follows (stats : BookStats) (basePrice : Option Nat) (history : List Nat) : Prop where
  uptick : stats.uptick = true ↔ EndsUp history
  effective : knownPrice (stats.lastPrice.or basePrice) = history.getLast?

theorem Follows.record {stats : BookStats} {basePrice : Option Nat} {history : List Nat}
    (follows : stats.Follows basePrice history) {execution : Execution}
    (priced : execution.price ≤ maxPrice) (given : Option Nat)
    (first : stats.lastPrice = none → given = basePrice) :
    (stats.record execution given).Follows basePrice (history ++ [execution.price]) := by
  have same : stats.lastPrice.or given = stats.lastPrice.or basePrice := by
    cases last : stats.lastPrice with
    | none => rw [first last]
    | some price => rfl
  refine ⟨?_, ?_⟩
  · change stats.tickTest execution.price given = true ↔ _
    have effective := follows.effective
    rw [tickTest, same]
    cases known : stats.lastPrice.or basePrice with
    | none =>
        rw [known] at effective
        have empty : history = [] := List.getLast?_eq_none_iff.mp effective.symm
        have unset := follows.uptick
        rw [empty] at unset ⊢
        exact iff_of_false (fun set => not_endsUp_nil (unset.mp set)) (not_endsUp_singleton _)
    | some ltp =>
        rw [known] at effective
        by_cases unknown : ltp = noPrice
        · have none : knownPrice (some ltp) = none := by simp [knownPrice, unknown]
          have empty : history = [] := List.getLast?_eq_none_iff.mp (effective.symm.trans none)
          have unset := follows.uptick
          rw [empty] at unset ⊢
          simp only [unknown, if_true]
          exact iff_of_false (fun set => not_endsUp_nil (unset.mp set)) (not_endsUp_singleton _)
        · have some : knownPrice (some ltp) = some ltp := by simp [knownPrice, unknown]
          rw [endsUp_concat (effective.symm.trans some), ← follows.uptick]
          simp only [unknown, if_false]
          by_cases up : ltp < execution.price
          · simp [up]
          · by_cases down : execution.price < ltp
            · simp [up, down, Nat.ne_of_gt down]
            · have flat : ltp = execution.price := by omega
              simp [flat]
  · have some : knownPrice (some execution.price) = some execution.price := by
      simp [knownPrice, ne_noPrice_of_le priced]
    rw [List.getLast?_concat]
    exact some

theorem Follows.recordAll {basePrice : Option Nat} {history : List Nat} {stats : BookStats}
    (follows : stats.Follows basePrice history) {calls : List TapeCall}
    (priced : ∀ call ∈ calls, call.execution.price ≤ maxPrice)
    (first : stats.lastPrice = none → ∀ call ∈ calls.head?, call.basePrice = basePrice) :
    (calls.foldl (fun stats call => stats.record call.execution call.basePrice) stats).Follows
      basePrice (history ++ calls.map fun call => call.execution.price) := by
  induction calls generalizing stats history with
  | nil => simpa using follows
  | cons call calls induction =>
      have next := follows.record (priced call List.mem_cons_self) call.basePrice
        fun none => first none call rfl
      have rest := induction next (fun other member => priced other (List.mem_cons_of_mem _ member))
        fun none => by cases none
      simpa using rest

private theorem lastPrice_recordAll (stats : BookStats) (calls : List TapeCall) :
    (calls.foldl (fun stats call => stats.record call.execution call.basePrice)
      stats).lastPrice =
        (calls.getLast?.map fun call => call.execution.price).or stats.lastPrice := by
  induction calls using List.reverseRecOn with
  | nil => rfl
  | append_singleton calls call => simp [BookStats.record]

end BookStats

theorem uptick_iff {calls : List TapeCall}
    (priced : ∀ call ∈ calls, call.execution.price ≤ maxPrice) (orderbookId : Text) :
    ((TradeTape.recordAll {} calls).statsOf orderbookId).uptick = true ↔
      EndsUp (priceHistory orderbookId calls) := by
  have own : ∀ call ∈ callsOf orderbookId calls, call.execution.price ≤ maxPrice :=
    fun call member => priced call (List.mem_of_mem_filter member)
  let basePrice := (callsOf orderbookId calls).head?.bind TapeCall.basePrice
  have start : BookStats.Follows {} basePrice (knownPrice basePrice).toList := by
    refine ⟨?_, ?_⟩
    · cases knownPrice basePrice with
      | none => exact iff_of_false Bool.false_ne_true not_endsUp_nil
      | some price => exact iff_of_false Bool.false_ne_true (not_endsUp_singleton price)
    · change knownPrice basePrice = _
      cases knownPrice basePrice <;> rfl
  have follows := start.recordAll own fun _ call member => by
    simp [basePrice, Option.mem_def.mp member]
  have history : priceHistory orderbookId calls = (knownPrice basePrice).toList ++
      (callsOf orderbookId calls).map fun call => call.execution.price := by
    rw [priceHistory]
    cases found : (callsOf orderbookId calls).head? with
    | none => simp [basePrice, found, knownPrice]
    | some call => simp [basePrice, found]
  rw [TradeTape.statsOf_recordAll, history]
  exact follows.uptick

private theorem lastPrice_eq (calls : List TapeCall) (orderbookId : Text) :
    ((TradeTape.recordAll {} calls).statsOf orderbookId).lastPrice =
      lastTraded orderbookId calls := by
  rw [TradeTape.statsOf_recordAll, BookStats.lastPrice_recordAll]
  exact Option.or_none

theorem getLast?_priceHistory {calls : List TapeCall} {orderbookId : Text} {last : Nat}
    (traded : lastTraded orderbookId calls = some last) :
    (priceHistory orderbookId calls).getLast? = some last := by
  rw [lastTraded, ← List.getLast?_map] at traded
  rw [priceHistory, List.getLast?_append, traded]
  rfl

/-! ## The calls of a run -/

namespace Market

/-- The call of `record` that a message leads to. -/
def tapeCall? (market : Market) (msg : Message) : Option TapeCall :=
  match storeStep market.books msg with
  | .ok (_, some execution) =>
      some
        { execution
          timestamp := market.timestampOf msg
          basePrice := market.basePrice execution.orderbookId }
  | _ => none

def tapeCalls (market : Market) : List Message → List TapeCall
  | [] => []
  | msg :: later =>
      match market.apply msg with
      | .error _ => []
      | .ok after => (market.tapeCall? msg).toList ++ after.tapeCalls later

theorem apply_tape {market after : Market} {msg : Message}
    (applied : market.apply msg = .ok after) :
    after.tape = market.tape.recordAll (market.tapeCall? msg).toList := by
  obtain ⟨execution, stepped, taped, -⟩ := apply_eq_ok applied
  rw [taped, tapeCall?, stepped]
  cases execution <;> rfl

private theorem run_tape {market after : Market} {messages : List Message}
    (ran : market.run messages = .ok after) :
    after.tape = market.tape.recordAll (market.tapeCalls messages) := by
  induction messages generalizing market with
  | nil => cases ran; rfl
  | cons msg later induction =>
      rcases except_bind_eq_ok.mp ran with ⟨next, applied, rest⟩
      rw [induction rest, apply_tape applied, tapeCalls, applied, TradeTape.recordAll,
        TradeTape.recordAll, TradeTape.recordAll, List.foldl_append]

theorem run_uptick_iff {messages : List Message} {after : Market}
    (ran : run {} messages = .ok after)
    (priced : ∀ call ∈ tapeCalls {} messages, call.execution.price ≤ maxPrice)
    (orderbookId : Text) :
    (after.tape.statsOf orderbookId).uptick = true ↔
      EndsUp (priceHistory orderbookId (tapeCalls {} messages)) := by
  rw [run_tape ran]
  exact uptick_iff priced orderbookId

end Market

/-! ## The tick in force -/

def InForce (rows : List (Nat × Nat)) (price tick : Nat) : Prop :=
  ∃ start ≤ price, TickTable.lastAdded rows start = some tick ∧
    ∀ row ∈ rows, row.1 ≤ price → row.1 ≤ start

theorem inForce_iff {rows : List (Nat × Nat)} {price tick : Nat} :
    InForce rows price tick ↔ (TickTable.build rows).tickSize price = some tick := by
  rw [TickTable.tickSize_build, Option.bind_eq_some_iff]
  constructor
  · rintro ⟨start, low, added, greatest⟩
    have named := TickTable.lastAdded_isSome.mp ⟨tick, added⟩
    refine ⟨start, List.max?_eq_some_iff.mpr ⟨?_, ?_⟩, added⟩
    · exact List.mem_filter.mpr ⟨named, decide_eq_true low⟩
    · intro other member
      obtain ⟨started, covered⟩ := List.mem_filter.mp member
      obtain ⟨row, given, rfl⟩ := List.mem_map.mp started
      exact greatest row given (of_decide_eq_true covered)
  · rintro ⟨start, greatest, added⟩
    obtain ⟨member, bound⟩ := List.max?_eq_some_iff.mp greatest
    have low := of_decide_eq_true (List.mem_filter.mp member).2
    refine ⟨start, low, added, fun row given covered => ?_⟩
    exact bound row.1 (List.mem_filter.mpr ⟨List.mem_map_of_mem given, decide_eq_true covered⟩)

private theorem tickSize_of_uncovered {rows : List (Nat × Nat)} {price : Nat}
    (uncovered : ∀ row ∈ rows, price < row.1) :
    (TickTable.build rows).tickSize price = none := by
  cases found : (TickTable.build rows).tickSize price with
  | none => rfl
  | some tick =>
      obtain ⟨start, low, added, -⟩ := inForce_iff.mpr found
      have named := TickTable.lastAdded_isSome.mp ⟨tick, added⟩
      obtain ⟨row, given, rfl⟩ := List.mem_map.mp named
      exact absurd low (Nat.not_le.mpr (uncovered row given))

/-! ## The short-sell price -/

def restrictedSsp (orderbookId : Text) (calls : List TapeCall) (basePrice : Option Nat)
    (rows : Option (List (Nat × Nat))) : Nat :=
  let stats := (TradeTape.recordAll {} calls).statsOf orderbookId
  computeSsp [ascii '1'] basePrice stats.lastPrice stats.uptick (rows.map TickTable.build)

section Traded

variable {calls : List TapeCall} (priced : ∀ call ∈ calls, call.execution.price ≤ maxPrice)
  {orderbookId : Text} {last : Nat} (traded : lastTraded orderbookId calls = some last)
include priced traded

private theorem last_ne_noPrice : last ≠ noPrice := by
  obtain ⟨call, final, rfl⟩ := Option.map_eq_some_iff.mp traded
  have own := List.mem_of_getLast? final
  exact ne_noPrice_of_le (priced call (List.mem_of_mem_filter own))

theorem restrictedSsp_eq (basePrice : Option Nat) (rows : Option (List (Nat × Nat))) :
    restrictedSsp orderbookId calls basePrice rows =
      if ((TradeTape.recordAll {} calls).statsOf orderbookId).uptick then last
      else
        match (rows.map TickTable.build).bind (·.tickSize last) with
        | none => noPrice
        | some tick => last + tick := by
  have real := last_ne_noPrice priced traded
  rw [restrictedSsp, computeSsp, lastPrice_eq, traded, if_neg (not_not.mpr rfl), Option.some_or]
  exact if_neg real

private theorem ssp_of_up (up : EndsUp (priceHistory orderbookId calls)) (basePrice : Option Nat)
    (rows : Option (List (Nat × Nat))) :
    restrictedSsp orderbookId calls basePrice rows = last := by
  rw [restrictedSsp_eq priced traded, if_pos ((uptick_iff priced orderbookId).mpr up)]

private theorem ssp_of_not_up (notUp : ¬ EndsUp (priceHistory orderbookId calls))
    (basePrice : Option Nat) (rows : Option (List (Nat × Nat))) :
    (∀ tick, InForce (rows.getD []) last tick →
        restrictedSsp orderbookId calls basePrice rows = last + tick) ∧
      ((∀ row ∈ rows.getD [], last < row.1) →
        restrictedSsp orderbookId calls basePrice rows = noPrice) := by
  rw [restrictedSsp_eq priced traded,
    if_neg fun set => notUp ((uptick_iff priced orderbookId).mp set)]
  cases rows with
  | none =>
      refine ⟨?_, fun _ => rfl⟩
      rintro tick ⟨start, -, found, -⟩
      cases found
  | some rows =>
      constructor
      · intro tick inForce
        have found : (TickTable.build rows).tickSize last = some tick := inForce_iff.mp inForce
        simp only [Option.map_some, Option.bind_some, found]
      · intro uncovered
        have none : (TickTable.build rows).tickSize last = none :=
          tickSize_of_uncovered uncovered
        simp only [Option.map_some, Option.bind_some, none]

end Traded

private theorem ssp_of_repeats {calls others : List TapeCall}
    (priced : ∀ call ∈ calls, call.execution.price ≤ maxPrice)
    (pricedOthers : ∀ call ∈ others, call.execution.price ≤ maxPrice) {orderbookId : Text}
    (traded : (lastTraded orderbookId calls).isSome)
    (tradedOthers : (lastTraded orderbookId others).isSome)
    (same : (priceHistory orderbookId calls).destutter (· ≠ ·) =
      (priceHistory orderbookId others).destutter (· ≠ ·))
    (basePrice otherBase : Option Nat) (rows : Option (List (Nat × Nat))) :
    restrictedSsp orderbookId calls basePrice rows =
      restrictedSsp orderbookId others otherBase rows := by
  obtain ⟨last, final⟩ := Option.isSome_iff_exists.mp traded
  obtain ⟨other, finalOther⟩ := Option.isSome_iff_exists.mp tradedOthers
  have lasts : last = other := by
    have ends := congrArg List.getLast? same
    rw [getLast?_destutter, getLast?_destutter, getLast?_priceHistory final,
      getLast?_priceHistory finalOther] at ends
    exact Option.some.inj ends
  have flags : ((TradeTape.recordAll {} calls).statsOf orderbookId).uptick =
      ((TradeTape.recordAll {} others).statsOf orderbookId).uptick := by
    rw [Bool.eq_iff_iff, uptick_iff priced, uptick_iff pricedOthers, ← endsUp_destutter,
      same, endsUp_destutter]
  rw [restrictedSsp_eq priced final, restrictedSsp_eq pricedOthers finalOther, flags, lasts]

/-- The uptick rule. -/
theorem uptick_rule {calls : List TapeCall}
    (priced : ∀ call ∈ calls, call.execution.price ≤ maxPrice) (orderbookId : Text) :
    (((TradeTape.recordAll {} calls).statsOf orderbookId).uptick = true ↔
        EndsUp (priceHistory orderbookId calls)) ∧
      (∀ last, lastTraded orderbookId calls = some last → ∀ basePrice rows,
        (EndsUp (priceHistory orderbookId calls) →
            restrictedSsp orderbookId calls basePrice rows = last) ∧
          (¬ EndsUp (priceHistory orderbookId calls) →
            (∀ tick, InForce (rows.getD []) last tick →
                restrictedSsp orderbookId calls basePrice rows = last + tick) ∧
              ((∀ row ∈ rows.getD [], last < row.1) →
                restrictedSsp orderbookId calls basePrice rows = noPrice))) ∧
      ∀ others : List TapeCall, (∀ call ∈ others, call.execution.price ≤ maxPrice) →
        (lastTraded orderbookId calls).isSome → (lastTraded orderbookId others).isSome →
        (priceHistory orderbookId calls).destutter (· ≠ ·) =
          (priceHistory orderbookId others).destutter (· ≠ ·) →
        ∀ basePrice otherBase rows,
          restrictedSsp orderbookId calls basePrice rows =
            restrictedSsp orderbookId others otherBase rows := by
  refine ⟨uptick_iff priced orderbookId, ?_, ?_⟩
  · intro last traded basePrice rows
    exact ⟨fun up => ssp_of_up priced traded up basePrice rows,
      fun notUp => ssp_of_not_up priced traded notUp basePrice rows⟩
  · intro others pricedOthers traded tradedOthers same
    exact ssp_of_repeats priced pricedOthers traded tradedOthers same

def tradesAt (prices : List Nat) : List TapeCall :=
  prices.map fun price =>
    { execution :=
        { orderbookId := [56, 51, 48, 54], group := [], side := [ascii 'B'], price
          qty := 100, matchNumber := 1 }
      timestamp := 0
      basePrice := some 1000 }

theorem uptick_rule_tradesAt :
    (∀ call ∈ tradesAt [990, 895, 896, 896], call.execution.price ≤ maxPrice) ∧
      restrictedSsp [56, 51, 48, 54] (tradesAt [990, 895, 896, 896]) none none = 896 := by
  have priced : ∀ call ∈ tradesAt [990, 895, 896, 896], call.execution.price ≤ maxPrice := by
    decide
  obtain ⟨-, ssp, -⟩ := uptick_rule priced [56, 51, 48, 54]
  have up : EndsUp (priceHistory [56, 51, 48, 54] (tradesAt [990, 895, 896, 896])) :=
    ⟨[1000, 990], 895, 896, [896], by decide, by decide, by decide⟩
  exact ⟨priced, (ssp 896 (by decide) none none).1 up⟩

end ProtoFH.Prototype
