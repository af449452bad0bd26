import ProtoFH.Web.Records
import ProtoFH.Wire.Framer

/-! # The two record codecs

The C++ encoder and the Python encoder write the same bytes, and either decoder reads
what the other would. Both are compared through the values that the `struct` formats
pack. -/

namespace ProtoFH

/-! ## The dictionary of a record -/

def RecordEnvelope.dict (envelope : RecordEnvelope) : Web.EnvelopeFields where
  epoch := envelope.epoch.toNat
  pubSeq := envelope.pubSeq.toNat
  session := envelope.session.bytes
  exchSeq := envelope.exchSeq.toNat
  exchNs := envelope.exchNs.toNat
  trigger := [envelope.trigger]
  ticker := envelope.ticker.bytes
  group := envelope.group.bytes

def StaticSection.dict (static : StaticSection) : Web.StaticFields where
  isin := static.isin.bytes
  roundLot := static.roundLot.toNat
  tickTableId := static.tickTableId.toNat
  priceDecimals := static.priceDecimals.toNat
  upperLimit := static.upperLimit.toNat
  lowerLimit := static.lowerLimit.toNat
  flags := static.flags.toNat

def StateSection.dict (state : StateSection) : Web.StateFields where
  tradingState := [state.tradingState]
  shortSellRestriction := [state.shortSellRestriction]
  referencePrice := state.referencePrice.toNat
  lastSystemEvent := [state.lastSystemEvent]
  shortSellPrice := state.shortSellPrice.toNat

def BookLevel.dict (level : BookLevel) : Web.Level :=
  (level.price.toNat, level.qty.toNat, level.orderCount.toNat)

def BookSection.dict (book : BookSection) : Web.BookFields where
  levelCountBid := book.levelCountBid.toNat
  levelCountAsk := book.levelCountAsk.toNat
  bids := book.bids.toList.map BookLevel.dict
  asks := book.asks.toList.map BookLevel.dict
  totalBidQty := book.totalBidQty.toNat
  totalAskQty := book.totalAskQty.toNat
  totalBidOrders := book.totalBidOrders.toNat
  totalAskOrders := book.totalAskOrders.toNat

def TradeSection.dict (trade : TradeSection) : Web.TradeFields where
  lastPrice := trade.lastPrice.toNat
  lastQty := trade.lastQty.toNat
  lastMatchNumber := trade.lastMatchNumber.toNat
  lastTradeNs := trade.lastTradeNs.toNat
  cumQty := trade.cumQty.toNat
  cumTurnover := trade.cumTurnover.toNat
  tradeCount := trade.tradeCount.toNat

def DeltaSection.dict (delta : DeltaSection) : Web.DeltaFields where
  op := [delta.op]
  orderNumber := delta.orderNumber.toNat
  origOrderNumber := delta.origOrderNumber.toNat
  side := [delta.side]
  price := delta.price.toNat
  qty := delta.qty.toNat
  orderType := [delta.orderType]

def UpdateRecord.dict (rec : UpdateRecord) : Web.Update where
  envelope := rec.envelope.dict
  static := rec.static.dict
  state := rec.state.dict
  book := rec.book.dict
  trade := rec.trade.dict
  delta := rec.delta.dict

def OrderRecord.dict (rec : OrderRecord) : Web.Order where
  orderNumber := rec.orderNumber.toNat
  ticker := rec.ticker.bytes
  group := rec.group.bytes
  side := [rec.side]
  price := rec.price.toNat
  qtyRemaining := rec.qtyRemaining.toNat
  orderType := [rec.orderType]

def TickRecord.dict (rec : TickRecord) : Web.Tick where
  tableId := rec.tableId.toNat
  priceStart := rec.priceStart.toNat
  tickSize := rec.tickSize.toNat

def HelloRecord.dict (rec : HelloRecord) : Web.Hello where
  epoch := rec.epoch.toNat
  lastExchSeq := rec.lastExchSeq.toNat

def SyncEndRecord.dict (rec : SyncEndRecord) : Web.SyncEnd where
  session := rec.session.bytes
  lastExchSeq := rec.lastExchSeq.toNat
  epoch := rec.epoch.toNat

def Record.dict : Record → Web.Record
  | .update rec => .update rec.dict
  | .order rec => .order rec.dict
  | .tick rec => .tick rec.dict
  | .syncBegin => .syncBegin
  | .syncEnd rec => .syncEnd rec.dict
  | .getState => .getState
  | .hello rec => .hello rec.dict
  | .reset => .reset

/-! ## The values of a record -/

def CStr.padded (s : CStr width) : FixedBytes width := ⟨putAlpha width s.bytes, putAlpha_length _ _⟩

namespace Format

theorem packs_u8 (value : UInt8) : (uint 1).Packs value.toNat (bePutU8 value) where
  fits := decide_eq_true value.toNat_lt
  write := by
    change [] ++ [UInt8.ofNat value.toNat] = [value]
    simp

theorem packs_u16 (value : UInt16) : (uint 2).Packs value.toNat (bePutU16 value) :=
  ⟨decide_eq_true value.toNat_lt, rfl⟩

theorem packs_u32 (value : UInt32) : (uint 4).Packs value.toNat (bePutU32 value) :=
  ⟨decide_eq_true value.toNat_lt, rfl⟩

theorem packs_u64 (value : UInt64) : (uint 8).Packs value.toNat (bePutU64 value) :=
  ⟨decide_eq_true value.toNat_lt, rfl⟩

theorem packs_char (value : UInt8) : char.Packs value (bePutU8 value) := ⟨rfl, rfl⟩

theorem packs_padded (s : CStr width) : (string width).Packs s.padded (putAlpha width s.bytes) :=
  ⟨rfl, rfl⟩

end Format

open Format

def RecordEnvelope.values (envelope : RecordEnvelope) :
    Nat × Nat × FixedBytes 10 × Nat × Nat × UInt8 × FixedBytes 4 × FixedBytes 4 :=
  (envelope.epoch.toNat, envelope.pubSeq.toNat, envelope.session.padded, envelope.exchSeq.toNat,
    envelope.exchNs.toNat, envelope.trigger, envelope.ticker.padded, envelope.group.padded)

def StaticSection.values (static : StaticSection) :
    FixedBytes 12 × Nat × Nat × Nat × Nat × Nat × Nat :=
  (static.isin.padded, static.roundLot.toNat, static.tickTableId.toNat,
    static.priceDecimals.toNat, static.upperLimit.toNat, static.lowerLimit.toNat,
    static.flags.toNat)

def StateSection.values (state : StateSection) : UInt8 × UInt8 × Nat × UInt8 × Nat :=
  (state.tradingState, state.shortSellRestriction, state.referencePrice.toNat,
    state.lastSystemEvent, state.shortSellPrice.toNat)

def BookSection.values (book : BookSection) :
    Nat × Nat × Vector Web.Level bookDepth × Vector Web.Level bookDepth × Nat × Nat × Nat × Nat :=
  (book.levelCountBid.toNat, book.levelCountAsk.toNat, book.wired.bids.map BookLevel.dict,
    book.wired.asks.map BookLevel.dict, book.totalBidQty.toNat, book.totalAskQty.toNat,
    book.totalBidOrders.toNat, book.totalAskOrders.toNat)

def TradeSection.values (trade : TradeSection) : Nat × Nat × Nat × Nat × Nat × Nat × Nat :=
  (trade.lastPrice.toNat, trade.lastQty.toNat, trade.lastMatchNumber.toNat,
    trade.lastTradeNs.toNat, trade.cumQty.toNat, trade.cumTurnover.toNat, trade.tradeCount.toNat)

def DeltaSection.values (delta : DeltaSection) : UInt8 × Nat × Nat × UInt8 × Nat × Nat × UInt8 :=
  (delta.op, delta.orderNumber.toNat, delta.origOrderNumber.toNat, delta.side, delta.price.toNat,
    delta.qty.toNat, delta.orderType)

theorem BookLevel.packs (level : BookLevel) : Web.levelFormat.Packs level.dict level.put := by
  rw [put, List.append_assoc]
  exact (packs_u32 _).seq <| (packs_u32 _).seq (packs_u32 _)

theorem packs_levels (count : UInt8) (levels : Vector BookLevel depth) :
    (Web.levelFormat.times depth).Packs ((wiredLevels count depth levels).map BookLevel.dict)
      (putLevels count depth levels) := by
  induction depth with
  | zero => exact ⟨rfl, rfl⟩
  | succ depth induction =>
      rw [wiredLevels, Vector.map_push, putLevels]
      apply (induction levels.pop).push
      split
      · exact BookLevel.packs _
      · rw [← BookLevel.put_default]
        exact BookLevel.packs {}

theorem RecordEnvelope.packs (envelope : RecordEnvelope) :
    Web.envelopeFormat.Packs envelope.values envelope.put := by
  simp only [put, List.append_assoc]
  exact (packs_u64 _).seq <| (packs_u64 _).seq <| (packs_padded _).seq <| (packs_u64 _).seq <|
    (packs_u64 _).seq <| (packs_char _).seq <| (packs_padded _).seq (packs_padded _)

theorem StaticSection.packs (static : StaticSection) :
    Web.staticFormat.Packs static.values static.put := by
  simp only [put, List.append_assoc]
  exact (packs_padded _).seq <| (packs_u32 _).seq <| (packs_u32 _).seq <| (packs_u8 _).seq <|
    (packs_u32 _).seq <| (packs_u32 _).seq (packs_u8 _)

theorem StateSection.packs (state : StateSection) :
    Web.stateFormat.Packs state.values state.put := by
  simp only [put, List.append_assoc]
  exact (packs_char _).seq <| (packs_char _).seq <| (packs_u32 _).seq <| (packs_char _).seq
    (packs_u32 _)

theorem BookSection.packs (book : BookSection) : Web.bookFormat.Packs book.values book.put := by
  simp only [put, List.append_assoc]
  exact (packs_u8 _).seq <| (packs_u8 _).seq <| (packs_levels _ _).seq <| (packs_levels _ _).seq <|
    (packs_u64 _).seq <| (packs_u64 _).seq <| (packs_u32 _).seq (packs_u32 _)

theorem TradeSection.packs (trade : TradeSection) :
    Web.tradeFormat.Packs trade.values trade.put := by
  simp only [put, List.append_assoc]
  exact (packs_u32 _).seq <| (packs_u32 _).seq <| (packs_u64 _).seq <| (packs_u64 _).seq <|
    (packs_u64 _).seq <| (packs_u64 _).seq (packs_u32 _)

theorem DeltaSection.packs (delta : DeltaSection) :
    Web.deltaFormat.Packs delta.values delta.put := by
  simp only [put, List.append_assoc]
  exact (packs_char _).seq <| (packs_u64 _).seq <| (packs_u64 _).seq <| (packs_char _).seq <|
    (packs_u32 _).seq <| (packs_u32 _).seq (packs_char _)

theorem UpdateRecord.packs (rec : UpdateRecord) :
    Web.updateFormat.Packs (rec.envelope.values, rec.static.values, rec.state.values,
      rec.book.values, rec.trade.values, rec.delta.values) rec.put := by
  simp only [put, List.append_assoc]
  exact rec.envelope.packs.seq <| rec.static.packs.seq <| rec.state.packs.seq <|
    rec.book.packs.seq <| rec.trade.packs.seq rec.delta.packs

theorem OrderRecord.packs (rec : OrderRecord) :
    Web.orderFormat.Packs (rec.orderNumber.toNat, rec.ticker.padded, rec.group.padded, rec.side,
      rec.price.toNat, rec.qtyRemaining.toNat, rec.orderType) rec.put := by
  simp only [put, List.append_assoc]
  exact (packs_u64 _).seq <| (packs_padded _).seq <| (packs_padded _).seq <| (packs_char _).seq <|
    (packs_u32 _).seq <| (packs_u32 _).seq (packs_char _)

theorem TickRecord.packs (rec : TickRecord) :
    Web.tickFormat.Packs (rec.tableId.toNat, rec.priceStart.toNat, rec.tickSize.toNat) rec.put := by
  simp only [put, List.append_assoc]
  exact (packs_u32 _).seq <| (packs_u32 _).seq (packs_u32 _)

theorem HelloRecord.packs (rec : HelloRecord) :
    Web.helloFormat.Packs (rec.epoch.toNat, rec.lastExchSeq.toNat) rec.put :=
  (packs_u64 _).seq (packs_u64 _)

theorem SyncEndRecord.packs (rec : SyncEndRecord) :
    Web.syncEndFormat.Packs (rec.session.padded, rec.lastExchSeq.toNat, rec.epoch.toNat)
      rec.put := by
  simp only [put, List.append_assoc]
  exact (packs_padded _).seq <| (packs_u64 _).seq (packs_u64 _)

/-! ## Plain records -/

def CStr.Plain (s : CStr width) : Prop := IsAscii s.bytes ∧ stripRight s.bytes = s.bytes

def Record.PlainText : Record → Prop
  | .update rec =>
      rec.envelope.session.Plain ∧ rec.envelope.ticker.Plain ∧ rec.envelope.group.Plain ∧
        rec.static.isin.Plain
  | .order rec => rec.ticker.Plain ∧ rec.group.Plain
  | .syncEnd rec => rec.session.Plain
  | _ => True

structure Record.Plain (record : Record) : Prop where
  text : record.PlainText
  sound : record.Sound

variable {s : CStr width}

theorem CStr.Plain.trimmed (plain : s.Plain) : s.trimmed = s :=
  CStr.ext_bytes plain.2

theorem CStr.Plain.alphaEnc (plain : s.Plain) : Web.alphaEnc s.bytes width = .ok s.padded := by
  rw [Web.alphaEnc, if_neg (not_not.mpr plain.1), dif_pos s.fits, padded]
  congr 2
  rw [putAlpha, List.take_of_length_le s.fits]

theorem CStr.padded_isAscii (isAscii : IsAscii s.bytes) : IsAscii s.padded.bytes := by
  intro byte member
  rcases List.mem_append.mp member with text | blank
  · exact isAscii byte (List.mem_of_mem_take text)
  · rw [List.eq_of_mem_replicate blank]
    decide

theorem CStr.Plain.alpha (plain : s.Plain) : Web.alpha s.padded = .ok s.bytes := by
  rw [Web.alpha, if_pos (padded_isAscii plain.1)]
  change Except.ok (stripRight (putAlpha width s.bytes)) = _
  rw [putAlpha, stripRight_append_spaces, List.take_of_length_le s.fits, plain.2]

/-! ## Encoding -/

theorem encodeHeader_eq (kind : RecordKind) :
    Web.encodeHeader kind kind.bodyLen = .ok (putHeader kind (UInt16.ofNat kind.bodyLen)) := by
  cases kind <;> rfl

theorem withHeader_eq (record : Record) :
    Web.withHeader record.kind record.body = .ok record.encode := by
  rw [Web.withHeader, record.body_length, encodeHeader_eq, record.encode_eq]
  rfl

/-- The levels with the slots from `count` on zeroed. -/
def clearLevels (count : UInt8) (levels : Vector BookLevel depth) : Vector BookLevel depth :=
  Vector.ofFn fun slot => if slot < count.toNat then levels[slot] else {}

theorem wiredLevels_eq (count : UInt8) (levels : Vector BookLevel depth) :
    wiredLevels count depth levels = clearLevels count levels := by
  induction depth with
  | zero => exact Vector.ext fun slot inside => absurd inside (Nat.not_lt_zero slot)
  | succ depth induction =>
      rw [wiredLevels, induction]
      apply Vector.ext
      intro slot inside
      rw [Vector.getElem_push]
      split
      · simp [clearLevels]
      · next last =>
          have lastSlot : slot = depth := by omega
          subst lastSlot
          simp [clearLevels, Vector.back]

private theorem levelValues_dict (levels : Vector BookLevel bookDepth) (count : UInt8) :
    Web.levelValues (levels.toList.map BookLevel.dict) count.toNat =
      (wiredLevels count bookDepth levels).map BookLevel.dict := by
  rw [wiredLevels_eq]
  apply Vector.ext
  intro slot inside
  rw [Web.levelValues, Vector.getElem_ofFn, Vector.getElem_map, clearLevels, Vector.getElem_ofFn]
  split
  · simp [List.getD_eq_getElem?_getD, inside]
  · rfl

@[simp] theorem liftStruct_ok (value : α) :
    Web.liftStruct (.ok value : Except StructError α) = .ok value := rfl

@[simp] theorem codec_ok_bind (value : α) (next : α → Web.Codec β) :
    ((Except.ok value : Web.Codec α) >>= next) = next value := rfl

theorem RecordEnvelope.encode_dict {envelope : RecordEnvelope} (session : envelope.session.Plain)
    (ticker : envelope.ticker.Plain) (group : envelope.group.Plain) :
    envelope.dict.encode = .ok envelope.values := by
  simp only [Web.EnvelopeFields.encode, dict, session.alphaEnc, ticker.alphaEnc, group.alphaEnc,
    Web.charEnc, codec_ok_bind]
  rfl

theorem StaticSection.encode_dict {static : StaticSection} (isin : static.isin.Plain) :
    static.dict.encode = .ok static.values := by
  simp only [Web.StaticFields.encode, dict, isin.alphaEnc, codec_ok_bind]
  rfl

theorem BookSection.encode_dict (book : BookSection) : book.dict.encode = book.values := by
  simp only [Web.BookFields.encode, dict, levelValues_dict]
  rfl

private theorem encodeUpdate_dict {rec : UpdateRecord} (plain : (Record.update rec).Plain) :
    Web.encodeUpdate rec.dict = .ok (encodeUpdate rec) := by
  obtain ⟨⟨session, ticker, group, isin⟩, shallow⟩ := plain
  have counts : ¬ (rec.dict.book.levelCountBid > bookDepth ∨
      rec.dict.book.levelCountAsk > bookDepth) :=
    not_or.mpr ⟨Nat.not_lt.mpr shallow.1, Nat.not_lt.mpr shallow.2⟩
  have envelope := RecordEnvelope.encode_dict session ticker group
  have static := StaticSection.encode_dict isin
  have state : rec.state.dict.encode = .ok rec.state.values := rfl
  have delta : rec.delta.dict.encode = .ok rec.delta.values := rfl
  have trade : rec.trade.dict.encode = rec.trade.values := rfl
  rw [Web.encodeUpdate, if_neg counts]
  simp only [UpdateRecord.dict, envelope, static, state, delta, trade, BookSection.encode_dict,
    codec_ok_bind, rec.packs.pack, liftStruct_ok]
  exact withHeader_eq (.update rec)

private theorem encodeOrder_dict {rec : OrderRecord} (plain : (Record.order rec).Plain) :
    Web.encodeOrder rec.dict = .ok (encodeOrder rec) := by
  simp only [Web.encodeOrder, OrderRecord.dict, plain.text.1.alphaEnc, plain.text.2.alphaEnc,
    Web.charEnc, codec_ok_bind, rec.packs.pack, liftStruct_ok]
  exact withHeader_eq (.order rec)

private theorem encodeSyncEnd_dict {rec : SyncEndRecord} (plain : (Record.syncEnd rec).Plain) :
    Web.encodeSyncEnd rec.dict = .ok (encodeSyncEnd rec) := by
  have session : rec.session.Plain := plain.text
  simp only [Web.encodeSyncEnd, SyncEndRecord.dict, session.alphaEnc, codec_ok_bind,
    rec.packs.pack, liftStruct_ok]
  exact withHeader_eq (.syncEnd rec)

theorem encodeTick_dict (rec : TickRecord) : Web.encodeTick rec.dict = .ok (encodeTick rec) := by
  simp only [Web.encodeTick, TickRecord.dict, rec.packs.pack, liftStruct_ok, codec_ok_bind]
  exact withHeader_eq (.tick rec)

private theorem encodeHello_dict (rec : HelloRecord) :
    Web.encodeHello rec.dict = .ok (encodeHello rec) := by
  simp only [Web.encodeHello, HelloRecord.dict, rec.packs.pack, liftStruct_ok, codec_ok_bind]
  exact withHeader_eq (.hello rec)

variable {record : Record}

theorem encodeRecord_dict (plain : record.Plain) :
    Web.encodeRecord record.dict = .ok record.encode := by
  cases record with
  | update rec => exact encodeUpdate_dict plain
  | order rec => exact encodeOrder_dict plain
  | tick rec => exact encodeTick_dict rec
  | syncEnd rec => exact encodeSyncEnd_dict plain
  | hello rec => exact encodeHello_dict rec
  | syncBegin => exact encodeHeader_eq .syncBegin
  | getState => exact encodeHeader_eq .getState
  | reset => exact encodeHeader_eq .reset

/-! ## Decoding -/

def Record.cleared : Record → Record
  | .update rec =>
      .update { rec with
        book := { rec.book with
          bids := clearLevels rec.book.levelCountBid rec.book.bids
          asks := clearLevels rec.book.levelCountAsk rec.book.asks } }
  | record => record

theorem BookSection.wired_eq (book : BookSection) :
    book.wired = { book with
      bids := clearLevels book.levelCountBid book.bids
      asks := clearLevels book.levelCountAsk book.asks } := by
  rw [wired, wiredLevels_eq, wiredLevels_eq]

theorem Record.PlainText.wired (text : record.PlainText) : record.wired = record.cleared := by
  cases record with
  | update rec =>
      obtain ⟨session, ticker, group, isin⟩ := text
      simp only [Record.wired, Record.cleared, UpdateRecord.wired, RecordEnvelope.wired,
        StaticSection.wired, BookSection.wired_eq, session.trimmed, ticker.trimmed,
        group.trimmed, isin.trimmed]
  | order rec =>
      simp only [Record.wired, Record.cleared, OrderRecord.wired, text.1.trimmed,
        text.2.trimmed]
  | syncEnd rec =>
      have session : rec.session.Plain := text
      simp only [Record.wired, Record.cleared, SyncEndRecord.wired, session.trimmed]
  | _ => rfl

namespace Web

theorem bodySizes_eq (kind : RecordKind) : bodySizes kind = kind.bodyLen := by
  cases kind <;> rfl

theorem decodeHeader_put (kind : RecordKind) (rest : Bytes) :
    decodeHeader (putHeader kind (UInt16.ofNat kind.bodyLen) ++ rest) =
      .ok (kind, kind.bodyLen) := by
  have long : ¬ (putHeader kind (UInt16.ofNat kind.bodyLen) ++ rest).length <
      recordHeaderSize := by
    rw [List.length_append, putHeader_length]
    omega
  rw [decodeHeader, if_neg long, take_append_of_length rest _ (putHeader_length _ _)]
  cases kind <;> rfl

theorem decodeRecord_of_length {kind : RecordKind} {body : Bytes}
    (length : body.length = kind.bodyLen) :
    decodeRecord (putHeader kind (UInt16.ofNat kind.bodyLen) ++ body) = decodeBody kind body := by
  have whole : (putHeader kind (UInt16.ofNat kind.bodyLen) ++ body).length =
      recordHeaderSize + kind.bodyLen := by
    rw [List.length_append, putHeader_length, length]
  rw [decodeRecord, decodeHeader_put]
  simp only [codec_ok_bind, whole, ne_eq, not_true_eq_false, if_false]
  rw [List.take_of_length_le (Nat.le_of_eq whole),
    drop_append_of_length body _ (putHeader_length _ _)]

end Web

theorem RecordEnvelope.decode_values {envelope : RecordEnvelope} (session : envelope.session.Plain)
    (ticker : envelope.ticker.Plain) (group : envelope.group.Plain) :
    Web.EnvelopeFields.decode envelope.values = .ok envelope.dict := by
  simp only [Web.EnvelopeFields.decode, values, session.alpha, ticker.alpha, group.alpha,
    codec_ok_bind]
  rfl

theorem StaticSection.decode_values {static : StaticSection} (isin : static.isin.Plain) :
    Web.StaticFields.decode static.values = .ok static.dict := by
  simp only [Web.StaticFields.decode, values, isin.alpha, codec_ok_bind]
  rfl

theorem BookSection.decode_values {book : BookSection}
    (bid : book.levelCountBid.toNat ≤ bookDepth) (ask : book.levelCountAsk.toNat ≤ bookDepth) :
    Web.BookFields.decode book.values = .ok book.wired.dict := by
  have counts : ¬ (book.levelCountBid.toNat > bookDepth ∨
      book.levelCountAsk.toNat > bookDepth) :=
    not_or.mpr ⟨Nat.not_lt.mpr bid, Nat.not_lt.mpr ask⟩
  simp only [Web.BookFields.decode, values, if_neg counts, dict, Vector.toList_map]
  rfl

private theorem decodeUpdateBody_put {rec : UpdateRecord} (plain : (Record.update rec).Plain) :
    Web.decodeUpdateBody rec.put = .ok (Record.update rec).cleared.dict := by
  obtain ⟨⟨session, ticker, group, isin⟩, shallow⟩ := plain
  rw [Web.decodeUpdateBody, rec.packs.unpack]
  simp only [liftStruct_ok, codec_ok_bind, RecordEnvelope.decode_values session ticker group,
    StaticSection.decode_values isin, BookSection.decode_values shallow.1 shallow.2,
    BookSection.wired_eq]
  rfl

private theorem decodeBody_body (plain : record.Plain) :
    Web.decodeBody record.kind record.body = .ok record.cleared.dict := by
  cases record with
  | update rec => exact decodeUpdateBody_put plain
  | order rec =>
      change Web.decodeOrderBody rec.put = _
      rw [Web.decodeOrderBody, rec.packs.unpack]
      simp only [liftStruct_ok, codec_ok_bind, plain.text.1.alpha, plain.text.2.alpha]
      rfl
  | tick rec =>
      change Web.decodeTickBody rec.put = _
      rw [Web.decodeTickBody, rec.packs.unpack]
      rfl
  | syncEnd rec =>
      have session : rec.session.Plain := plain.text
      change Web.decodeSyncEndBody rec.put = _
      rw [Web.decodeSyncEndBody, rec.packs.unpack]
      simp only [liftStruct_ok, codec_ok_bind, session.alpha]
      rfl
  | hello rec =>
      change Web.decodeHelloBody rec.put = _
      rw [Web.decodeHelloBody, rec.packs.unpack]
      rfl
  | syncBegin | getState | reset => rfl

theorem decodeRecord_encode (plain : record.Plain) :
    Web.decodeRecord record.encode = .ok record.cleared.dict := by
  rw [record.encode_eq, Web.decodeRecord_of_length record.body_length, decodeBody_body plain]

end ProtoFH
