import ProtoFH.Foundation.Execution
import ProtoFH.Web.Codec

/-! # Canonical byte strings

Every byte string with plain text, a zero reserved field and zeroed unused slots is the
encoding of a record, so what a decoder reads from it is written back byte for byte. -/

namespace ProtoFH

open Format

/-! ## The record with given values -/

theorem exists_plain {raw : FixedBytes width} (plain : PlainBytes raw.bytes) :
    ∃ s : CStr width, s.Plain ∧ s.padded = raw := by
  have subset := (stripRight_isPrefix raw.bytes).subset
  have fits : (stripRight raw.bytes).length ≤ width :=
    Nat.le_trans (stripRight_length_le raw.bytes) (Nat.le_of_eq raw.length_eq)
  refine ⟨⟨stripRight raw.bytes, fits, ?_⟩, ⟨?_, ?_⟩, ?_⟩
  · exact fun member => (plain 0 (subset member)).1 rfl
  · exact fun byte member => (plain byte (subset member)).2
  · exact stripRight_stripRight _
  · exact FixedBytes.ext_fixed (putAlpha_stripRight raw.length_eq)

theorem exists_u8 {value : Nat} (fits : (uint 1).fits value = true) :
    ∃ word : UInt8, word.toNat = value :=
  ⟨.ofNat value, UInt8.toNat_ofNat_of_lt (of_decide_eq_true fits)⟩

theorem exists_u32 {value : Nat} (fits : (uint 4).fits value = true) :
    ∃ word : UInt32, word.toNat = value :=
  ⟨.ofNat value, UInt32.toNat_ofNat_of_lt (of_decide_eq_true fits)⟩

theorem exists_u64 {value : Nat} (fits : (uint 8).fits value = true) :
    ∃ word : UInt64, word.toNat = value :=
  ⟨.ofNat value, UInt64.toNat_ofNat_of_lt (of_decide_eq_true fits)⟩

theorem BookLevel.exists_dict {value : Web.Level} (fits : Web.levelFormat.fits value = true) :
    ∃ level : BookLevel, level.dict = value := by
  obtain ⟨price, qty, orderCount⟩ := value
  simp only [Web.levelFormat, seq_fits, Bool.and_eq_true] at fits
  obtain ⟨price, rfl⟩ := exists_u32 fits.1
  obtain ⟨qty, rfl⟩ := exists_u32 fits.2.1
  obtain ⟨orderCount, rfl⟩ := exists_u32 fits.2.2
  exact ⟨{ price, qty, orderCount }, rfl⟩

private theorem BookLevel.dict_inj {left right : BookLevel} (equal : left.dict = right.dict) :
    left = right := by
  cases left
  cases right
  simpa [dict, UInt32.toNat_inj] using equal

theorem exists_levels {values : Vector Web.Level depth}
    (fits : (Web.levelFormat.times depth).fits values = true) :
    ∃ levels : Vector BookLevel depth, levels.map BookLevel.dict = values := by
  induction depth with
  | zero => exact ⟨#v[], Vector.ext fun slot inside => absurd inside (Nat.not_lt_zero slot)⟩
  | succ depth induction =>
      have both := Bool.and_eq_true_iff.mp
        (show ((Web.levelFormat.times depth).fits values.pop &&
          Web.levelFormat.fits values.back) = true from fits)
      obtain ⟨levels, front⟩ := induction both.1
      obtain ⟨level, last⟩ := BookLevel.exists_dict both.2
      refine ⟨levels.push level, ?_⟩
      rw [Vector.map_push, front, last, Vector.push_pop_back]

theorem clearLevels_of_unused {count : UInt8} {levels : Vector BookLevel depth}
    (unused : ∀ level ∈ (levels.map BookLevel.dict).toList.drop count.toNat, level = (0, 0, 0)) :
    clearLevels count levels = levels := by
  apply Vector.ext
  intro slot inside
  rw [clearLevels, Vector.getElem_ofFn]
  split
  · rfl
  · next beyond =>
      change ¬ slot < count.toNat at beyond
      have zero : levels[slot].dict = (0, 0, 0) := by
        apply unused
        rw [List.mem_drop_iff_getElem]
        refine ⟨slot - count.toNat, ?_, ?_⟩
        · simp only [Vector.length_toList]
          omega
        · have index : count.toNat + (slot - count.toNat) = slot := by omega
          simp [index]
      exact BookLevel.dict_inj zero.symm

theorem RecordEnvelope.exists_values {epoch pubSeq exchSeq exchNs : Nat}
    {session : FixedBytes 10} {trigger : UInt8} {ticker group : FixedBytes 4}
    (fits : Web.envelopeFormat.fits
      (epoch, pubSeq, session, exchSeq, exchNs, trigger, ticker, group) = true)
    (plainSession : PlainBytes session.bytes) (plainTicker : PlainBytes ticker.bytes)
    (plainGroup : PlainBytes group.bytes) :
    ∃ envelope : RecordEnvelope,
      envelope.values = (epoch, pubSeq, session, exchSeq, exchNs, trigger, ticker, group) ∧
        envelope.session.Plain ∧ envelope.ticker.Plain ∧ envelope.group.Plain := by
  simp only [Web.envelopeFormat, seq_fits, Bool.and_eq_true] at fits
  obtain ⟨fitsEpoch, fitsPubSeq, -, fitsSeq, fitsNs, -⟩ := fits
  obtain ⟨epoch, rfl⟩ := exists_u64 fitsEpoch
  obtain ⟨pubSeq, rfl⟩ := exists_u64 fitsPubSeq
  obtain ⟨exchSeq, rfl⟩ := exists_u64 fitsSeq
  obtain ⟨exchNs, rfl⟩ := exists_u64 fitsNs
  obtain ⟨session, isPlainSession, rfl⟩ := exists_plain plainSession
  obtain ⟨ticker, isPlainTicker, rfl⟩ := exists_plain plainTicker
  obtain ⟨group, isPlainGroup, rfl⟩ := exists_plain plainGroup
  exact ⟨{ epoch, pubSeq, session, exchSeq, exchNs, trigger, ticker, group }, rfl,
    isPlainSession, isPlainTicker, isPlainGroup⟩

theorem StaticSection.exists_values {isin : FixedBytes 12}
    {rest : Nat × Nat × Nat × Nat × Nat × Nat}
    (fits : Web.staticFormat.fits (isin, rest) = true) (plain : PlainBytes isin.bytes) :
    ∃ static : StaticSection, static.values = (isin, rest) ∧ static.isin.Plain := by
  obtain ⟨roundLot, tickTableId, priceDecimals, upperLimit, lowerLimit, flags⟩ := rest
  simp only [Web.staticFormat, seq_fits, Bool.and_eq_true] at fits
  obtain ⟨-, fitsLot, fitsTable, fitsDecimals, fitsUpper, fitsLower, fitsFlags⟩ := fits
  obtain ⟨roundLot, rfl⟩ := exists_u32 fitsLot
  obtain ⟨tickTableId, rfl⟩ := exists_u32 fitsTable
  obtain ⟨priceDecimals, rfl⟩ := exists_u8 fitsDecimals
  obtain ⟨upperLimit, rfl⟩ := exists_u32 fitsUpper
  obtain ⟨lowerLimit, rfl⟩ := exists_u32 fitsLower
  obtain ⟨flags, rfl⟩ := exists_u8 fitsFlags
  obtain ⟨isin, isPlain, rfl⟩ := exists_plain plain
  exact ⟨{ isin, roundLot, tickTableId, priceDecimals, upperLimit, lowerLimit, flags }, rfl,
    isPlain⟩

theorem StateSection.exists_values {values : UInt8 × UInt8 × Nat × UInt8 × Nat}
    (fits : Web.stateFormat.fits values = true) :
    ∃ state : StateSection, state.values = values := by
  obtain ⟨tradingState, shortSellRestriction, referencePrice, lastSystemEvent, ssp⟩ := values
  simp only [Web.stateFormat, seq_fits, Bool.and_eq_true] at fits
  obtain ⟨-, -, fitsReference, -, fitsSsp⟩ := fits
  obtain ⟨referencePrice, rfl⟩ := exists_u32 fitsReference
  obtain ⟨shortSellPrice, rfl⟩ := exists_u32 fitsSsp
  exact ⟨{ tradingState, shortSellRestriction, referencePrice, lastSystemEvent, shortSellPrice },
    rfl⟩

theorem BookSection.exists_values {levelCountBid levelCountAsk : Nat}
    {bids asks : Vector Web.Level bookDepth} {rest : Nat × Nat × Nat × Nat}
    (fits : Web.bookFormat.fits (levelCountBid, levelCountAsk, bids, asks, rest) = true)
    (unused : ∀ level ∈ bids.toList.drop levelCountBid ++ asks.toList.drop levelCountAsk,
      level = (0, 0, 0)) :
    ∃ book : BookSection,
      book.values = (levelCountBid, levelCountAsk, bids, asks, rest) ∧ book.wired = book := by
  obtain ⟨totalBidQty, totalAskQty, totalBidOrders, totalAskOrders⟩ := rest
  simp only [Web.bookFormat, seq_fits, Bool.and_eq_true] at fits
  obtain ⟨fitsBid, fitsAsk, fitsBids, fitsAsks, fitsBidQty, fitsAskQty, fitsBidOrders,
    fitsAskOrders⟩ := fits
  obtain ⟨levelCountBid, rfl⟩ := exists_u8 fitsBid
  obtain ⟨levelCountAsk, rfl⟩ := exists_u8 fitsAsk
  obtain ⟨bids, rfl⟩ := exists_levels fitsBids
  obtain ⟨asks, rfl⟩ := exists_levels fitsAsks
  obtain ⟨totalBidQty, rfl⟩ := exists_u64 fitsBidQty
  obtain ⟨totalAskQty, rfl⟩ := exists_u64 fitsAskQty
  obtain ⟨totalBidOrders, rfl⟩ := exists_u32 fitsBidOrders
  obtain ⟨totalAskOrders, rfl⟩ := exists_u32 fitsAskOrders
  have clearBids := clearLevels_of_unused fun level member =>
    unused level (List.mem_append_left _ member)
  have clearAsks := clearLevels_of_unused fun level member =>
    unused level (List.mem_append_right _ member)
  let book : BookSection :=
    { levelCountBid, levelCountAsk, bids, asks, totalBidQty, totalAskQty, totalBidOrders
      totalAskOrders }
  have wired : book.wired = book := by
    rw [BookSection.wired_eq]
    simp only [book, clearBids, clearAsks]
  refine ⟨book, ?_, wired⟩
  rw [values, wired]

theorem TradeSection.exists_values {values : Nat × Nat × Nat × Nat × Nat × Nat × Nat}
    (fits : Web.tradeFormat.fits values = true) :
    ∃ trade : TradeSection, trade.values = values := by
  obtain ⟨lastPrice, lastQty, lastMatchNumber, lastTradeNs, cumQty, cumTurnover, count⟩ := values
  simp only [Web.tradeFormat, seq_fits, Bool.and_eq_true] at fits
  obtain ⟨fitsPrice, fitsQty, fitsMatch, fitsNs, fitsCum, fitsTurnover, fitsCount⟩ := fits
  obtain ⟨lastPrice, rfl⟩ := exists_u32 fitsPrice
  obtain ⟨lastQty, rfl⟩ := exists_u32 fitsQty
  obtain ⟨lastMatchNumber, rfl⟩ := exists_u64 fitsMatch
  obtain ⟨lastTradeNs, rfl⟩ := exists_u64 fitsNs
  obtain ⟨cumQty, rfl⟩ := exists_u64 fitsCum
  obtain ⟨cumTurnover, rfl⟩ := exists_u64 fitsTurnover
  obtain ⟨tradeCount, rfl⟩ := exists_u32 fitsCount
  exact ⟨{ lastPrice, lastQty, lastMatchNumber, lastTradeNs, cumQty, cumTurnover, tradeCount },
    rfl⟩

theorem DeltaSection.exists_values {values : UInt8 × Nat × Nat × UInt8 × Nat × Nat × UInt8}
    (fits : Web.deltaFormat.fits values = true) :
    ∃ delta : DeltaSection, delta.values = values := by
  obtain ⟨op, orderNumber, origOrderNumber, side, price, qty, orderType⟩ := values
  simp only [Web.deltaFormat, seq_fits, Bool.and_eq_true] at fits
  obtain ⟨-, fitsNumber, fitsOrig, -, fitsPrice, fitsQty, -⟩ := fits
  obtain ⟨orderNumber, rfl⟩ := exists_u64 fitsNumber
  obtain ⟨origOrderNumber, rfl⟩ := exists_u64 fitsOrig
  obtain ⟨price, rfl⟩ := exists_u32 fitsPrice
  obtain ⟨qty, rfl⟩ := exists_u32 fitsQty
  exact ⟨{ op, orderNumber, origOrderNumber, side, price, qty, orderType }, rfl⟩

/-! ## The record with a given body -/

variable {body : Bytes}

theorem exists_update (length : body.length = Web.updateFormat.size)
    (alphas : ∀ raw ∈ Web.rawAlphas .update body, PlainBytes raw)
    (unused : ∀ level ∈ Web.unusedLevels body, level = (0, 0, 0)) :
    ∃ rec : UpdateRecord, rec.put = body ∧ (Record.update rec).PlainText ∧
      rec.book.wired = rec.book := by
  have packs := packs_read length
  rcases read : Web.updateFormat.read body with
    ⟨⟨epoch, pubSeq, session, exchSeq, exchNs, trigger, ticker, group⟩, ⟨isin, staticRest⟩,
      state, ⟨levelCountBid, levelCountAsk, bids, asks, totals⟩, trade, delta⟩
  rw [read] at packs
  simp only [Web.rawAlphas, read, List.mem_cons, List.not_mem_nil, or_false, forall_eq_or_imp,
    forall_eq] at alphas
  simp only [Web.unusedLevels, read] at unused
  have fits := packs.fits
  simp only [Web.updateFormat, seq_fits, Bool.and_eq_true] at fits
  obtain ⟨fitsEnvelope, fitsStatic, fitsState, fitsBook, fitsTrade, fitsDelta⟩ := fits
  obtain ⟨envelope, envelopeValues, plainSession, plainTicker, plainGroup⟩ :=
    RecordEnvelope.exists_values fitsEnvelope alphas.1 alphas.2.1 alphas.2.2.1
  obtain ⟨static, staticValues, plainIsin⟩ :=
    StaticSection.exists_values fitsStatic alphas.2.2.2
  obtain ⟨state, rfl⟩ := StateSection.exists_values fitsState
  obtain ⟨book, bookValues, wired⟩ := BookSection.exists_values fitsBook unused
  obtain ⟨trade, rfl⟩ := TradeSection.exists_values fitsTrade
  obtain ⟨delta, rfl⟩ := DeltaSection.exists_values fitsDelta
  let update : UpdateRecord := { envelope, static, state, book, trade, delta }
  refine ⟨update, update.packs.bytes_eq packs ?_,
    ⟨plainSession, plainTicker, plainGroup, plainIsin⟩, wired⟩
  simp only [update, envelopeValues, staticValues, bookValues]

private theorem exists_order (length : body.length = Web.orderFormat.size)
    (alphas : ∀ raw ∈ Web.rawAlphas .order body, PlainBytes raw) :
    ∃ rec : OrderRecord, rec.put = body ∧ (Record.order rec).PlainText := by
  have packs := packs_read length
  rcases read : Web.orderFormat.read body with
    ⟨orderNumber, ticker, group, side, price, qtyRemaining, orderType⟩
  rw [read] at packs
  simp only [Web.rawAlphas, read, List.mem_cons, List.not_mem_nil, or_false, forall_eq_or_imp,
    forall_eq] at alphas
  have fits := packs.fits
  simp only [Web.orderFormat, seq_fits, Bool.and_eq_true] at fits
  obtain ⟨fitsNumber, -, -, -, fitsPrice, fitsQty, -⟩ := fits
  obtain ⟨orderNumber, rfl⟩ := exists_u64 fitsNumber
  obtain ⟨ticker, plainTicker, rfl⟩ := exists_plain alphas.1
  obtain ⟨group, plainGroup, rfl⟩ := exists_plain alphas.2
  obtain ⟨price, rfl⟩ := exists_u32 fitsPrice
  obtain ⟨qtyRemaining, rfl⟩ := exists_u32 fitsQty
  let order : OrderRecord := { orderNumber, ticker, group, side, price, qtyRemaining, orderType }
  exact ⟨order, order.packs.write.symm.trans packs.write, plainTicker, plainGroup⟩

private theorem exists_tick (length : body.length = Web.tickFormat.size) :
    ∃ rec : TickRecord, rec.put = body := by
  have packs := packs_read length
  rcases read : Web.tickFormat.read body with ⟨tableId, priceStart, tickSize⟩
  rw [read] at packs
  have fits := packs.fits
  simp only [Web.tickFormat, seq_fits, Bool.and_eq_true] at fits
  obtain ⟨tableId, rfl⟩ := exists_u32 fits.1
  obtain ⟨priceStart, rfl⟩ := exists_u32 fits.2.1
  obtain ⟨tickSize, rfl⟩ := exists_u32 fits.2.2
  let tick : TickRecord := { tableId, priceStart, tickSize }
  exact ⟨tick, tick.packs.write.symm.trans packs.write⟩

private theorem exists_hello (length : body.length = Web.helloFormat.size) :
    ∃ rec : HelloRecord, rec.put = body := by
  have packs := packs_read length
  rcases read : Web.helloFormat.read body with ⟨epoch, lastExchSeq⟩
  rw [read] at packs
  have fits := packs.fits
  simp only [Web.helloFormat, seq_fits, Bool.and_eq_true] at fits
  obtain ⟨epoch, rfl⟩ := exists_u64 fits.1
  obtain ⟨lastExchSeq, rfl⟩ := exists_u64 fits.2
  let hello : HelloRecord := { epoch, lastExchSeq }
  exact ⟨hello, hello.packs.write.symm.trans packs.write⟩

private theorem exists_syncEnd (length : body.length = Web.syncEndFormat.size)
    (alphas : ∀ raw ∈ Web.rawAlphas .syncEnd body, PlainBytes raw) :
    ∃ rec : SyncEndRecord, rec.put = body ∧ (Record.syncEnd rec).PlainText := by
  have packs := packs_read length
  rcases read : Web.syncEndFormat.read body with ⟨session, lastExchSeq, epoch⟩
  rw [read] at packs
  simp only [Web.rawAlphas, read, List.mem_singleton, forall_eq] at alphas
  have fits := packs.fits
  simp only [Web.syncEndFormat, seq_fits, Bool.and_eq_true] at fits
  obtain ⟨session, plainSession, rfl⟩ := exists_plain alphas
  obtain ⟨lastExchSeq, rfl⟩ := exists_u64 fits.2.1
  obtain ⟨epoch, rfl⟩ := exists_u64 fits.2.2
  let syncEnd : SyncEndRecord := { session, lastExchSeq, epoch }
  exact ⟨syncEnd, syncEnd.packs.write.symm.trans packs.write, plainSession⟩

variable {kind : RecordKind}

private theorem exists_record (length : body.length = kind.bodyLen)
    (alphas : ∀ raw ∈ Web.rawAlphas kind body, PlainBytes raw)
    (unused : kind = .update → ∀ level ∈ Web.unusedLevels body, level = (0, 0, 0)) :
    ∃ record : Record, record.kind = kind ∧ record.body = body ∧ record.PlainText ∧
      record.cleared = record := by
  cases kind with
  | update =>
      obtain ⟨rec, rfl, text, wired⟩ := exists_update length alphas (unused rfl)
      refine ⟨.update rec, rfl, rfl, text, ?_⟩
      rw [BookSection.wired_eq] at wired
      rw [Record.cleared, wired]
  | order =>
      obtain ⟨rec, rfl, text⟩ := exists_order length alphas
      exact ⟨.order rec, rfl, rfl, text, rfl⟩
  | tick =>
      obtain ⟨rec, rfl⟩ := exists_tick length
      exact ⟨.tick rec, rfl, rfl, trivial, rfl⟩
  | hello =>
      obtain ⟨rec, rfl⟩ := exists_hello length
      exact ⟨.hello rec, rfl, rfl, trivial, rfl⟩
  | syncEnd =>
      obtain ⟨rec, rfl, text⟩ := exists_syncEnd length alphas
      exact ⟨.syncEnd rec, rfl, rfl, text, rfl⟩
  | syncBegin => exact ⟨.syncBegin, rfl, (List.eq_nil_of_length_eq_zero length).symm, trivial, rfl⟩
  | getState => exact ⟨.getState, rfl, (List.eq_nil_of_length_eq_zero length).symm, trivial, rfl⟩
  | reset => exact ⟨.reset, rfl, (List.eq_nil_of_length_eq_zero length).symm, trivial, rfl⟩

/-! ## Headers -/

variable {buf : Bytes}

theorem Web.headerFormat_read (long : recordHeaderSize ≤ buf.length) :
    Web.headerFormat.read (buf.take recordHeaderSize) =
      ((beGetU16 buf).toNat, (beGetU8 (buf.drop 2)).toNat, beGetU8 (buf.drop 3),
        (beGetU16 (buf.drop 4)).toNat, (beGetU16 (buf.drop 6)).toNat) := by
  match buf, long with
  | b0 :: b1 :: b2 :: b3 :: b4 :: b5 :: b6 :: b7 :: rest, _ =>
      rw [beGetU16_toNat, beGetU16_toNat, beGetU16_toNat]
      simp [Web.headerFormat, Format.seq, uint, char, recordHeaderSize, beNat, beGetU8]

/-- The buffer starts with a valid header of that kind, whatever its reserved field. -/
structure Headed (kind : RecordKind) (buf : Bytes) : Prop where
  long : recordHeaderSize ≤ buf.length
  magic : beGetU16 buf = recordMagic
  version : beGetU8 (buf.drop 2) = recordVersion
  byte : beGetU8 (buf.drop 3) = kind.toByte
  bodyLen : beGetU16 (buf.drop 4) = UInt16.ofNat kind.bodyLen

private theorem RecordKind.toByte_of_ofByte? {byte : UInt8} (found : ofByte? byte = some kind) :
    byte = kind.toByte := by
  unfold ofByte? at found
  split_ifs at found <;> cases found <;> assumption

theorem headed_of_decodeHeader {bodyLen : UInt16}
    (decoded : decodeHeader buf = .ok (kind, bodyLen)) : Headed kind buf := by
  rw [decodeHeader] at decoded
  split at decoded
  · cases decoded
  split at decoded
  · cases decoded
  split at decoded
  · cases decoded
  split at decoded
  · cases decoded
  split at decoded
  · cases decoded
  next long magic version _ _ found length =>
    cases decoded
    exact ⟨Nat.not_lt.mp long, not_not.mp magic, not_not.mp version,
      RecordKind.toByte_of_ofByte? found, not_not.mp length⟩

private theorem Web.kindByte_of_kindOf? {byte : UInt8} (found : Web.kindOf? byte = some kind) :
    byte = kind.toByte := by
  have same : decide (Web.kindByte kind = byte) = true :=
    List.find?_some (p := fun key => decide (Web.kindByte key = byte)) found
  rw [← of_decide_eq_true same]
  cases kind <;> rfl

theorem Web.headed_of_decodeHeader {bodyLen : Nat}
    (decoded : Web.decodeHeader buf = .ok (kind, bodyLen)) :
    Headed kind buf ∧ bodyLen = kind.bodyLen := by
  rw [Web.decodeHeader] at decoded
  split at decoded
  · cases decoded
  next short =>
    have long := Nat.not_lt.mp short
    have length : (buf.take recordHeaderSize).length = Web.headerFormat.size := by
      rw [List.length_take, Nat.min_eq_left long]
      rfl
    rw [unpack_of_length length, Web.headerFormat_read long] at decoded
    simp only [liftStruct_ok, codec_ok_bind] at decoded
    split at decoded
    · cases decoded
    split at decoded
    · cases decoded
    split at decoded
    · cases decoded
    split at decoded
    · cases decoded
    next magic version _ _ found size =>
      cases decoded
      rw [not_not] at magic version size
      rw [Web.bodySizes_eq] at size
      refine ⟨⟨long, UInt16.toNat_inj.mp magic, UInt8.toNat_inj.mp version,
        Web.kindByte_of_kindOf? found, ?_⟩, size⟩
      rw [← size, UInt16.ofNat_toNat]

private theorem Headed.length_take (headed : Headed kind buf) :
    (buf.take recordHeaderSize).length = Web.headerFormat.size := by
  rw [List.length_take, Nat.min_eq_left headed.long]
  rfl

theorem Web.decodeHeader_of_headed (headed : Headed kind buf) :
    Web.decodeHeader buf = .ok (kind, kind.bodyLen) := by
  rw [Web.decodeHeader, if_neg (Nat.not_lt.mpr headed.long), unpack_of_length headed.length_take,
    Web.headerFormat_read headed.long, headed.magic, headed.version, headed.byte, headed.bodyLen]
  cases kind <;> rfl

theorem Headed.take_eq (headed : Headed kind buf) (reserved : (buf.drop 6).take 2 = [0, 0]) :
    buf.take recordHeaderSize = putHeader kind (UInt16.ofNat kind.bodyLen) := by
  have zero : beGetU16 (buf.drop 6) = 0 := by
    rw [beGetU16, reserved]
    rfl
  have packs := packs_read headed.length_take
  rw [Web.headerFormat_read headed.long, headed.magic, headed.version, headed.byte,
    headed.bodyLen, zero] at packs
  have written := (packs_u16 recordMagic).seq <| (packs_u8 recordVersion).seq <|
    (packs_char kind.toByte).seq <| (packs_u16 (UInt16.ofNat kind.bodyLen)).seq (packs_u16 0)
  simp only [putHeader, List.append_assoc]
  exact packs.write.symm.trans written.write

/-! ## Level counts beyond the depth -/

private theorem UpdateRecord.read_put_deep {rec : UpdateRecord} (deep : ¬ rec.Shallow) :
    UpdateRecord.read rec.put = .error "level count exceeds book depth 10" := by
  have counts : rec.book.levelCountBid.toNat > bookDepth ∨
      rec.book.levelCountAsk.toNat > bookDepth := by
    rw [Shallow, not_and_or, Nat.not_le, Nat.not_le] at deep
    exact deep
  simp only [UpdateRecord.read, put, List.append_assoc, Reader.bind_apply,
    RecordEnvelope.read_put, StaticSection.read_put, StateSection.read_put, BookSection.read,
    BookSection.put, Reader.u8_put, if_pos counts]
  rfl

theorem Record.decode_deep {record other : Record} (deep : ¬ record.Sound) :
    Record.decode record.kind record.encode ≠ .ok other := by
  cases record with
  | update rec =>
      have length : rec.put.length = RecordKind.bodyLen .update := rec.put_length
      have refused : decodeUpdate (encodeUpdate rec) =
          .error "level count exceeds book depth 10" := by
        refine (decodeRecord_of_length length).trans ?_
        rw [UpdateRecord.read_put_deep deep]
        rfl
      change (decodeUpdate (encodeUpdate rec)).map update ≠ _
      rw [refused]
      nofun
  | _ => exact absurd trivial deep

variable {dict : Web.Record}

private theorem Web.decodeRecord_deep {record : ProtoFH.Record} (text : record.PlainText)
    (deep : ¬ record.Sound) : Web.decodeRecord record.encode ≠ .ok dict := by
  cases record with
  | update rec =>
      obtain ⟨session, ticker, group, isin⟩ := text
      have counts : rec.book.levelCountBid.toNat > bookDepth ∨
          rec.book.levelCountAsk.toNat > bookDepth := by
        change ¬ rec.Shallow at deep
        rw [UpdateRecord.Shallow, not_and_or, Nat.not_le, Nat.not_le] at deep
        exact deep
      have refused : Web.BookFields.decode rec.book.values = Web.raiseRecord .deepLevels :=
        if_pos counts
      rw [Record.encode_eq, Web.decodeRecord_of_length (Record.body_length _)]
      change Web.decodeUpdateBody rec.put ≠ _
      rw [Web.decodeUpdateBody, rec.packs.unpack]
      simp only [liftStruct_ok, codec_ok_bind, RecordEnvelope.decode_values session ticker group,
        StaticSection.decode_values isin, refused]
      intro same
      cases same
  | _ => exact absurd trivial deep

/-! ## Writing back what was read -/

/-- A zero reserved field, plain text and zeroes in the unused level slots, all as the
kind byte has it. -/
structure Canonical (buf : Bytes) : Prop where
  reserved : (buf.drop 6).take 2 = [0, 0]
  alphas : ∀ kind : RecordKind, beGetU8 (buf.drop 3) = kind.toByte →
    ∀ raw ∈ Web.rawAlphas kind (buf.drop recordHeaderSize), PlainBytes raw
  unused : beGetU8 (buf.drop 3) = RecordKind.toByte .update →
    ∀ level ∈ Web.unusedLevels (buf.drop recordHeaderSize), level = (0, 0, 0)

theorem Canonical.exists_encode (canonical : Canonical buf) (headed : Headed kind buf)
    (length : buf.length = recordHeaderSize + kind.bodyLen) :
    ∃ record : Record, record.kind = kind ∧ record.encode = buf ∧ record.PlainText ∧
      record.cleared = record := by
  have bodyLength : (buf.drop recordHeaderSize).length = kind.bodyLen := by
    rw [List.length_drop, length]
    omega
  have unused (isUpdate : kind = .update) := canonical.unused (isUpdate ▸ headed.byte)
  obtain ⟨record, rfl, body, text, cleared⟩ :=
    exists_record bodyLength (canonical.alphas kind headed.byte) unused
  refine ⟨record, rfl, ?_, text, cleared⟩
  rw [record.encode_eq, body, ← headed.take_eq canonical.reserved, List.take_append_drop]

theorem checkRecord_eq_ok {bodyLen : Nat} (checked : checkRecord buf kind bodyLen = .ok ()) :
    Headed kind buf ∧ buf.length = recordHeaderSize + bodyLen := by
  rw [checkRecord] at checked
  split at checked
  · cases checked
  split at checked
  · cases checked
  split at checked
  · cases checked
  next decoded same length =>
    rw [not_not] at same length
    subst same
    exact ⟨headed_of_decodeHeader decoded, length⟩

theorem Record.decode_checked {record : Record} (decoded : Record.decode kind buf = .ok record) :
    checkRecord buf kind kind.bodyLen = .ok () := by
  cases checked : checkRecord buf kind kind.bodyLen with
  | ok _ => rfl
  | error reason =>
      cases kind <;>
        simp only [Record.decode, decodeUpdate, decodeOrder, decodeTick, decodeSyncEnd,
          decodeHello, decodeRecord, checked] at decoded <;>
        cases decoded

private theorem Web.decodeRecord_checked (decoded : Web.decodeRecord buf = .ok dict) :
    ∃ kind, Headed kind buf ∧ buf.length = recordHeaderSize + kind.bodyLen := by
  obtain ⟨⟨kind, bodyLen⟩, header, rest⟩ := except_bind_eq_ok.mp decoded
  obtain ⟨headed, rfl⟩ := Web.headed_of_decodeHeader header
  refine ⟨kind, headed, ?_⟩
  dsimp only at rest
  split at rest
  · cases rest
  · next length => exact not_not.mp length

theorem Canonical.encode_decode {record : Record} (canonical : Canonical buf)
    (decoded : Record.decode kind buf = .ok record) : record.encode = buf := by
  obtain ⟨headed, length⟩ := checkRecord_eq_ok (Record.decode_checked decoded)
  obtain ⟨original, rfl, rfl, text, cleared⟩ := canonical.exists_encode headed length
  have sound : original.Sound := by
    by_contra deep
    exact Record.decode_deep deep decoded
  rw [Record.decode_encode sound, text.wired, cleared] at decoded
  cases decoded
  rfl

private theorem Canonical.encodeRecord_decodeRecord (canonical : Canonical buf)
    (decoded : Web.decodeRecord buf = .ok dict) : Web.encodeRecord dict = .ok buf := by
  obtain ⟨kind, headed, length⟩ := Web.decodeRecord_checked decoded
  obtain ⟨original, rfl, rfl, text, cleared⟩ := canonical.exists_encode headed length
  have sound : original.Sound := by
    by_contra deep
    exact Web.decodeRecord_deep text deep decoded
  have plain : original.Plain := ⟨text, sound⟩
  rw [decodeRecord_encode plain, cleared] at decoded
  cases decoded
  exact encodeRecord_dict plain

/-- The two codecs write the same bytes for a plain record and read the same contents
from them, and either writes back the canonical bytes it read. -/
theorem codecs_agree :
    (∀ record : Record, record.Plain →
      Web.encodeRecord record.dict = .ok record.encode ∧
      record.encode.length = recordHeaderSize + record.kind.bodyLen ∧
      Record.decode record.kind record.encode = .ok record.cleared ∧
      Web.decodeRecord record.encode = .ok record.cleared.dict) ∧
    ∀ buf, Canonical buf →
      (∀ kind record, Record.decode kind buf = .ok record → record.encode = buf) ∧
      ∀ dict, Web.decodeRecord buf = .ok dict → Web.encodeRecord dict = .ok buf := by
  constructor
  · intro record plain
    refine ⟨encodeRecord_dict plain, ?_, ?_, decodeRecord_encode plain⟩
    · rw [record.encode_eq, List.length_append, putHeader_length, record.body_length]
    · rw [Record.decode_encode plain.sound, plain.text.wired]
  · intro buf canonical
    exact ⟨fun kind record => canonical.encode_decode,
      fun dict => canonical.encodeRecord_decodeRecord⟩

end ProtoFH
