import ProtoFH.Db.Query
import ProtoFH.Recovery.Dump
import ProtoFH.Web.Codec
import ProtoFH.Web.Snapshot

/-! # The snapshot reply, read back

What jnxweb makes of the text that the database answers to `SNAP`: it is complete with its
last byte and not before, and the rows are the records of the tables in key order. -/

namespace ProtoFH.Web

/-! ## Lines and words -/

def Graphic (char : UInt8) : Prop := 32 < char ∧ char < 127

instance (char : UInt8) : Decidable (Graphic char) := inferInstanceAs (Decidable (_ ∧ _))

variable {char : UInt8}

theorem Graphic.isSpace (graphic : Graphic char) : isSpace char = false := by
  unfold Graphic at graphic
  unfold Web.isSpace
  grind

private theorem graphic_of_isDigit (isDigit : IsDigit char) : Graphic char := by
  unfold IsDigit at isDigit
  unfold Graphic
  grind

theorem graphic_decimal (value : Nat) : ∀ char ∈ decimal value, Graphic char :=
  fun _ member => graphic_of_isDigit (isDigit_of_mem_decimal member)

private theorem graphic_base64 (bytes : Bytes) : ∀ char ∈ base64Encode bytes, Graphic char := by
  intro char member
  exact (Base64.isText_encode bytes char member).forall (by decide) (by decide +kernel)

/-- A character at which `splitlines` breaks an ASCII text. -/
def IsBreak (char : UInt8) : Prop := (10 ≤ char ∧ char ≤ 13) ∨ (28 ≤ char ∧ char ≤ 30)

instance (char : UInt8) : Decidable (IsBreak char) := inferInstanceAs (Decidable (_ ∨ _))

private theorem Graphic.not_isBreak (graphic : Graphic char) : ¬ IsBreak char := by
  unfold Graphic at graphic
  unfold IsBreak
  grind

private theorem splitLines_cons (plain : ¬ IsBreak char) (rest : Text) :
    splitLines (char :: rest) =
      match splitLines rest with
      | [] => [[char]]
      | line :: lines => (char :: line) :: lines := by
  have noReturn : char ≠ 13 := by
    rintro rfl
    exact plain (by decide)
  rw [splitLines]
  · exact if_neg plain
  · intro later same
    exact absurd same noReturn

theorem splitLines_line {line : Text} (plain : ∀ char ∈ line, ¬ IsBreak char) (rest : Text) :
    splitLines (line ++ newline :: rest) = line :: splitLines rest := by
  induction line with
  | nil => rfl
  | cons char line induction =>
      rw [List.forall_mem_cons] at plain
      rw [List.cons_append, splitLines_cons plain.1, induction plain.2]

private theorem splitLines_flatMap {lines : List Text}
    (plain : ∀ line ∈ lines, ∀ char ∈ line, ¬ IsBreak char) :
    splitLines (lines.flatMap (· ++ [newline])) = lines := by
  induction lines with
  | nil => rfl
  | cons line lines induction =>
      rw [List.forall_mem_cons] at plain
      rw [List.flatMap_cons, List.append_assoc, List.singleton_append, splitLines_line plain.1,
        induction plain.2]

private theorem words_single {token : Text} (nonempty : token ≠ [])
    (plain : ∀ char ∈ token, isSpace char = false) : words token = [token] := by
  rw [words, List.splitOnP_eq_singleton plain, List.filter_singleton]
  simp [nonempty]

theorem words_cons {token : Text} (nonempty : token ≠ [])
    (plain : ∀ char ∈ token, isSpace char = false) (rest : Text) :
    words (token ++ space :: rest) = token :: words rest := by
  rw [words, List.splitOnP_append_cons_of_forall_mem plain _ (by decide), List.filter_cons]
  simp only [nonempty, ne_eq, not_false_eq_true, decide_true, if_true]
  rfl

/-! ## Numbers -/

private theorem intDigits_decimal (value : Nat) (started : Bool) (rest : Text) :
    intDigits (decimal value ++ rest) started 0 = intDigits rest true value := by
  suffices ∀ fuel value started rest, value < fuel →
      intDigits (decimalUpTo fuel value ++ rest) started 0 = intDigits rest true value from
    this _ _ _ _ (Nat.lt_succ_self value)
  have next {last : Nat} (small : last < 10) (rest : Text) (started : Bool) (front : Nat) :
      intDigits (digit last :: rest) started front =
        intDigits rest true (10 * front + last) := by
    have isDigit := isDigit_digit small
    rw [intDigits, if_pos (show 48 ≤ digit last ∧ digit last ≤ 57 from isDigit),
      digit_toNat small, Nat.add_sub_cancel_left]
  intro fuel
  induction fuel with
  | zero => exact fun _ _ _ none => absurd none (Nat.not_lt_zero _)
  | succ fuel induction =>
      intro value started rest enough
      rw [decimalUpTo]
      split
      · next small =>
          rw [List.singleton_append, next small, Nat.mul_zero, Nat.zero_add]
      · rw [List.append_assoc, induction _ _ _ (by omega), List.singleton_append,
          next (Nat.mod_lt _ (by decide)), Nat.div_add_mod]

private theorem parseInt_decimal (value : Nat) : parseInt (decimal value) = some (value : Int) := by
  have read := intDigits_decimal value false []
  rw [List.append_nil] at read
  cases digits : decimal value with
  | nil => exact absurd digits (decimal_ne_nil value)
  | cons first rest =>
      have isDigit : IsDigit first := isDigit_of_mem_decimal (by rw [digits]; exact .head _)
      have noSign : first ≠ ascii '+' ∧ first ≠ ascii '-' := by
        constructor <;> (rintro rfl; exact absurd isDigit (by decide))
      rw [digits] at read
      rw [parseInt, if_neg noSign.1, if_neg noSign.2, read]
      rfl

/-! ## The header -/

def assignment (name : String) (value : Text) : Text := label name ++ ascii '=' :: value

theorem partition_assignment {name : String} (plain : ascii '=' ∉ label name) (value : Text) :
    partition (assignment name value) = some (label name, value) := by
  have kept : ∀ char ∈ label name, decide (char ≠ ascii '=') = true := by
    intro char member
    have different : char ≠ ascii '=' := fun same => plain (same ▸ member)
    simpa using different
  rw [partition, if_pos (by simp [assignment]), assignment,
    List.takeWhile_append_of_pos kept, List.dropWhile_append_of_pos kept]
  simp

theorem assignment_ne_nil (name : String) (value : Text) : assignment name value ≠ [] :=
  List.append_ne_nil_of_right_ne_nil _ (List.cons_ne_nil _ _)

theorem header_eq (reply : SnapReply) :
    reply.header = label "SNAP" ++ space :: (assignment "epoch" (decimal reply.epoch.toNat) ++
      space :: (assignment "last_exch_seq" (decimal reply.lastExchSeq.toNat) ++
      space :: (assignment "session" reply.session.bytes ++
      space :: assignment "count" (decimal reply.count)))) := by
  have epoch : label "SNAP epoch=" = label "SNAP" ++ space :: (label "epoch" ++ [ascii '=']) := by
    decide +kernel
  have seq : label " last_exch_seq=" = space :: (label "last_exch_seq" ++ [ascii '=']) := by
    decide +kernel
  have session : label " session=" = space :: (label "session" ++ [ascii '=']) := by
    decide +kernel
  have count : label " count=" = space :: (label "count" ++ [ascii '=']) := by decide +kernel
  simp only [SnapReply.header, epoch, seq, session, count, assignment, List.append_assoc,
    List.cons_append, List.nil_append]

def PlainSession (session : CStr 10) : Prop := ∀ char ∈ session.bytes, Graphic char

instance (session : CStr 10) : Decidable (PlainSession session) :=
  inferInstanceAs (Decidable (∀ char ∈ session.bytes, _))

theorem graphic_assignment {name : String} (plainName : ∀ char ∈ label name, Graphic char)
    {value : Text} (plain : ∀ char ∈ value, Graphic char) :
    ∀ char ∈ assignment name value, Graphic char := by
  intro char member
  rcases List.mem_append.mp member with inName | inValue
  · exact plainName char inName
  · rcases List.mem_cons.mp inValue with rfl | inValue
    · decide
    · exact plain char inValue

def headerWords (reply : SnapReply) : List Text :=
  [assignment "epoch" (decimal reply.epoch.toNat),
    assignment "last_exch_seq" (decimal reply.lastExchSeq.toNat),
    assignment "session" reply.session.bytes, assignment "count" (decimal reply.count)]

variable {reply : SnapReply}

theorem graphic_headerWords (plain : PlainSession reply.session) :
    List.Forall (fun word => ∀ char ∈ word, Graphic char) (headerWords reply) := by
  refine ⟨graphic_assignment ?_ (graphic_decimal _), graphic_assignment ?_ (graphic_decimal _),
    graphic_assignment ?_ plain, graphic_assignment ?_ (graphic_decimal _)⟩ <;>
    decide +kernel

private theorem words_header (plain : PlainSession reply.session) :
    words reply.header = label "SNAP" :: headerWords reply := by
  obtain ⟨epoch, seq, session, count⟩ := graphic_headerWords plain
  have snap : ∀ char ∈ label "SNAP", isSpace char = false := by decide +kernel
  have blank {word : Text} (graphic : ∀ char ∈ word, Graphic char) :
      ∀ char ∈ word, isSpace char = false := fun char member => (graphic char member).isSpace
  rw [header_eq, words_cons (by decide +kernel) snap,
    words_cons (assignment_ne_nil _ _) (blank epoch),
    words_cons (assignment_ne_nil _ _) (blank seq),
    words_cons (assignment_ne_nil _ _) (blank session),
    words_single (assignment_ne_nil _ _) (blank count)]
  rfl

theorem header_graphic (plain : PlainSession reply.session) :
    ∀ char ∈ reply.header, Graphic char ∨ char = space := by
  obtain ⟨epoch, seq, session, count⟩ := graphic_headerWords plain
  have snap : ∀ char ∈ label "SNAP", Graphic char := by decide +kernel
  intro char member
  rw [header_eq] at member
  simp only [List.mem_append, List.mem_cons] at member
  rcases member with here | blank | here | blank | here | blank | here | blank | here
  · exact .inl (snap char here)
  · exact .inr blank
  · exact .inl (epoch char here)
  · exact .inr blank
  · exact .inl (seq char here)
  · exact .inr blank
  · exact .inl (session char here)
  · exact .inr blank
  · exact .inl (count char here)

private theorem headerNumbers_header (plain : PlainSession reply.session) :
    (parseHeader reply.header).bind headerNumbers =
      some ((reply.epoch.toNat : Int), (reply.count : Int)) := by
  let fields : Dict Text Text :=
    (((Dict.set ∅ (label "epoch") (decimal reply.epoch.toNat)).set (label "last_exch_seq")
      (decimal reply.lastExchSeq.toNat)).set (label "session") reply.session.bytes).set
      (label "count") (decimal reply.count)
  have parsed : parseHeader reply.header = some fields := by
    rw [parseHeader, words_header plain]
    simp only [ne_eq, not_true_eq_false, if_false, headerWords, List.foldl_cons, List.foldl_nil]
    rw [partition_assignment (by decide +kernel), partition_assignment (by decide +kernel),
      partition_assignment (by decide +kernel), partition_assignment (by decide +kernel)]
  have epoch : fields.find? (label "epoch") = some (decimal reply.epoch.toNat) := by
    rw [Dict.find?_set, if_neg (by decide +kernel), Dict.find?_set, if_neg (by decide +kernel),
      Dict.find?_set, if_neg (by decide +kernel), Dict.find?_set_self]
  have count : fields.find? (label "count") = some (decimal reply.count) :=
    Dict.find?_set_self _ _ _
  rw [parsed, Option.bind_some, headerNumbers, epoch, count]
  simp only [Option.bind_eq_bind, Option.bind_some, parseInt_decimal]
  rfl

/-! ## The rows -/

def sentLines (reply : SnapReply) : List Text :=
  reply.header :: reply.rows.map base64Encode ++ [label "."]

theorem text_eq (reply : SnapReply) :
    reply.text ++ label ".\n" = (sentLines reply).flatMap (· ++ [newline]) := by
  have dot : label ".\n" = label "." ++ [newline] := by decide +kernel
  simp only [SnapReply.text, sentLines, dot, List.flatMap_append, List.flatMap_cons,
    List.flatMap_map, List.flatMap_nil, List.append_nil, List.append_assoc, List.cons_append]

theorem sentLines_chars (plain : PlainSession reply.session) :
    ∀ line ∈ sentLines reply, ∀ char ∈ line, ¬ IsBreak char ∧ char < 128 := by
  have graphic {char : UInt8} (graphic : Graphic char) : ¬ IsBreak char ∧ char < 128 :=
    ⟨graphic.not_isBreak, UInt8.lt_trans graphic.2 (by decide)⟩
  intro line member char inLine
  rcases List.mem_append.mp member with inside | last
  · rcases List.mem_cons.mp inside with rfl | row
    · rcases header_graphic plain char inLine with shown | rfl
      · exact graphic shown
      · decide
    · obtain ⟨raw, -, rfl⟩ := List.mem_map.mp row
      exact graphic (graphic_base64 raw char inLine)
  · rw [List.mem_singleton.mp last] at inLine
    revert char
    decide +kernel

private theorem splitLines_text (plain : PlainSession reply.session) :
    splitLines (reply.text ++ label ".\n") = sentLines reply := by
  rw [text_eq, splitLines_flatMap]
  exact fun line member char inLine => (sentLines_chars plain line member char inLine).1

private theorem decodeReplace_text (plain : PlainSession reply.session) :
    decodeReplace (reply.text ++ label ".\n") = reply.text ++ label ".\n" := by
  refine (List.map_congr_left ?_).trans (List.map_id _)
  intro char member
  rw [text_eq] at member
  obtain ⟨line, inLines, inLine⟩ := List.mem_flatMap.mp member
  apply if_pos
  rcases List.mem_append.mp inLine with inside | last
  · exact (sentLines_chars plain line inLines char inside).2
  · rw [List.mem_singleton.mp last]
    decide

private theorem parseSnapReply_text (plain : PlainSession reply.session) :
    parseSnapReply (decodeReplace (reply.text ++ label ".\n")) =
      (parseSnapRows (reply.rows.map base64Encode)).bind fun rows =>
        if rows.length = reply.count then .ok (rows, (reply.epoch.toNat : Int))
        else .error (.reported (.truncated rows.length reply.count)) := by
  have rejected : (label "ERR").isPrefixOf reply.header = false := by
    rw [header_eq]
    rfl
  have last : (sentLines reply).getLast? = some (label ".") := List.getLast?_concat
  have front : (sentLines reply).dropLast = reply.header :: reply.rows.map base64Encode :=
    List.dropLast_concat
  obtain ⟨fields, parsed, numbers⟩ := Option.bind_eq_some_iff.mp (headerNumbers_header plain)
  rw [decodeReplace_text plain, parseSnapReply, replyLines]
  simp only [splitLines_text plain, last, if_true, front, rejected, Bool.false_eq_true, if_false,
    parsed, numbers]
  cases parseSnapRows (reply.rows.map base64Encode) with
  | error failure => rfl
  | ok rows =>
      change (if (rows.length : Int) ≠ reply.count then _ else _) =
        if rows.length = reply.count then _ else _
      by_cases same : rows.length = reply.count
      · rw [if_neg (by simp [same]), if_pos same]
        rfl
      · rw [if_pos (by simpa using same), if_neg same]

theorem parseSnapRow_of_update {raw : Bytes} {row : Update}
    (decoded : decodeRecord raw = .ok (.update row)) :
    parseSnapRow (base64Encode raw) = .ok row := by
  simp only [parseSnapRow, base64Encode, Base64.decode_encode, decoded]

private theorem parseSnapRow_of_error {raw : Bytes} {error : RecordError}
    (refused : decodeRecord raw = raiseRecord error) :
    parseSnapRow (base64Encode raw) = .error (.reported (.badRecord (.record error))) := by
  simp only [parseSnapRow, base64Encode, Base64.decode_encode, refused, raiseRecord]

theorem parseSnapRows_cons {line : Text} (nonempty : line ≠ []) (lines : List Text) :
    parseSnapRows (line :: lines) =
      (parseSnapRow line).bind fun row => (parseSnapRows lines).bind fun rows =>
        .ok (row :: rows) := by
  rw [parseSnapRows, if_neg nonempty]
  rfl

end ProtoFH.Web

namespace ProtoFH

/-! ## Rows with ASCII text -/

structure UpdateRecord.IsAscii (rec : UpdateRecord) : Prop where
  session : ProtoFH.IsAscii rec.envelope.session.bytes
  ticker : ProtoFH.IsAscii rec.envelope.ticker.bytes
  group : ProtoFH.IsAscii rec.envelope.group.bytes
  isin : ProtoFH.IsAscii rec.static.isin.bytes

theorem CStr.alpha_padded {s : CStr width} (isAscii : IsAscii s.bytes) :
    Web.alpha s.padded = .ok s.trimmed.bytes := by
  rw [Web.alpha, if_pos (padded_isAscii isAscii)]
  change Except.ok (stripRight (putAlpha width s.bytes)) = _
  rw [putAlpha, stripRight_append_spaces, List.take_of_length_le s.fits]
  rfl

variable {rec : UpdateRecord}

theorem UpdateRecord.IsAscii.decode_eq (isAscii : rec.IsAscii) :
    Web.decodeRecord (encodeUpdate rec) =
      (Web.BookFields.decode rec.book.values).map fun book =>
        .update
          { envelope := rec.envelope.wired.dict, static := rec.static.wired.dict
            state := rec.state.dict, book, trade := rec.trade.dict, delta := rec.delta.dict } := by
  have whole : Web.decodeRecord (encodeUpdate rec) = Web.decodeUpdateBody rec.put :=
    @Web.decodeRecord_of_length .update rec.put rec.put_length
  rw [whole, Web.decodeUpdateBody, rec.packs.unpack]
  simp only [liftStruct_ok, codec_ok_bind, RecordEnvelope.values, StaticSection.values,
    Web.EnvelopeFields.decode, Web.StaticFields.decode, CStr.alpha_padded isAscii.session,
    CStr.alpha_padded isAscii.ticker, CStr.alpha_padded isAscii.group,
    CStr.alpha_padded isAscii.isin]
  cases Web.BookFields.decode rec.book.values <;> rfl

theorem UpdateRecord.IsAscii.decode (isAscii : rec.IsAscii) (shallow : rec.Shallow) :
    ∃ row, Web.decodeRecord (encodeUpdate rec) = .ok (.update row) := by
  rw [isAscii.decode_eq, BookSection.decode_values shallow.1 shallow.2]
  exact ⟨_, rfl⟩

theorem UpdateRecord.IsAscii.decode_deep (isAscii : rec.IsAscii) (deep : ¬ rec.Shallow) :
    Web.decodeRecord (encodeUpdate rec) = Web.raiseRecord .deepLevels := by
  rw [UpdateRecord.Shallow, not_and_or, Nat.not_le, Nat.not_le] at deep
  have refused : Web.BookFields.decode rec.book.values = Web.raiseRecord .deepLevels :=
    if_pos deep
  rw [isAscii.decode_eq, refused]
  rfl

/-! ## Whole tables -/

def SnapReply.withRows (reply : SnapReply) (rows : List Bytes) : SnapReply := { reply with rows }

namespace Tables

structure Legible (tables : Tables) : Prop where
  session : Web.PlainSession tables.dbMeta.session
  rows : ∀ (key : RowKey) (row : BookRow), tables.books[key]? = some row →
    IsAscii key.ticker.bytes ∧ IsAscii key.group.bytes ∧ IsAscii row.static.isin.bytes

theorem Legible.isAscii {tables : Tables} (legible : tables.Legible) {entry : RowKey × BookRow}
    (member : entry ∈ tables.books.toList) :
    (tables.makeDumpUpdate entry.1 entry.2).IsAscii := by
  obtain ⟨ticker, group, isin⟩ := legible.rows entry.1 entry.2 (OrderedMap.mem_toList.mp member)
  refine ⟨fun char inSession => ?_, ticker, group, isin⟩
  exact UInt8.lt_trans (legible.session char inSession).2 (by decide)

def snapLine (tables : Tables) (entry : RowKey × BookRow) : Bytes :=
  base64Encode (encodeUpdate (tables.makeDumpUpdate entry.1 entry.2))

theorem snapLine_ne_nil (tables : Tables) (entry : RowKey × BookRow) :
    tables.snapLine entry ≠ [] := by
  intro empty
  have length := congrArg List.length empty
  rw [snapLine, base64Encode, Base64.encode_length, encodeUpdate, List.length_append,
    putHeader_length, UpdateRecord.put_length] at length
  cases length

section Entries

variable {tables : Tables} (legible : tables.Legible)
include legible

theorem parseSnapRows_shallow {entries : List (RowKey × BookRow)}
    (stored : ∀ entry ∈ entries, entry ∈ tables.books.toList)
    (shallow : ∀ entry ∈ entries, (tables.makeDumpUpdate entry.1 entry.2).Shallow) :
    ∃ rows, Web.parseSnapRows (entries.map tables.snapLine) = .ok rows ∧
      entries.map (fun entry =>
          Web.decodeRecord (encodeUpdate (tables.makeDumpUpdate entry.1 entry.2))) =
        rows.map fun row => .ok (.update row) := by
  induction entries with
  | nil => exact ⟨[], rfl, rfl⟩
  | cons entry entries induction =>
      rw [List.forall_mem_cons] at stored shallow
      obtain ⟨rows, parsed, decodings⟩ := induction stored.2 shallow.2
      obtain ⟨row, decoded⟩ := (legible.isAscii stored.1).decode shallow.1
      refine ⟨row :: rows, ?_, ?_⟩
      · rw [List.map_cons, Web.parseSnapRows_cons (snapLine_ne_nil tables entry), snapLine,
          Web.parseSnapRow_of_update decoded, parsed]
        rfl
      · rw [List.map_cons, decoded, decodings, List.map_cons]

theorem parseSnapRows_deep {entries : List (RowKey × BookRow)}
    (stored : ∀ entry ∈ entries, entry ∈ tables.books.toList) {deep : RowKey × BookRow}
    (member : deep ∈ entries) (tooDeep : ¬ (tables.makeDumpUpdate deep.1 deep.2).Shallow) :
    Web.parseSnapRows (entries.map tables.snapLine) =
      .error (.reported (.badRecord (.record .deepLevels))) := by
  induction entries with
  | nil => cases member
  | cons entry entries induction =>
      rw [List.forall_mem_cons] at stored
      rw [List.map_cons, Web.parseSnapRows_cons (snapLine_ne_nil tables entry), snapLine]
      by_cases shallow : (tables.makeDumpUpdate entry.1 entry.2).Shallow
      · obtain ⟨row, decoded⟩ := (legible.isAscii stored.1).decode shallow
        have later : deep ∈ entries := by
          rcases List.mem_cons.mp member with rfl | later
          · exact absurd shallow tooDeep
          · exact later
        rw [Web.parseSnapRow_of_update decoded, induction stored.2 later]
        rfl
      · rw [Web.parseSnapRow_of_error ((legible.isAscii stored.1).decode_deep shallow)]
        rfl

theorem parseSnapReply_entries (entries : List (RowKey × BookRow)) :
    Web.parseSnapReply (Web.decodeReplace
        ((tables.snap.withRows (entries.map fun entry =>
          encodeUpdate (tables.makeDumpUpdate entry.1 entry.2))).text ++ label ".\n")) =
      (Web.parseSnapRows (entries.map tables.snapLine)).bind fun rows =>
        if rows.length = tables.books.size then .ok (rows, (tables.dbMeta.epoch.toNat : Int))
        else .error (.reported (.truncated rows.length tables.books.size)) := by
  refine (@Web.parseSnapReply_text (tables.snap.withRows _) legible.session).trans ?_
  rw [show (tables.snap.withRows _).rows = entries.map _ from rfl, List.map_map]
  rfl

private theorem parseSnapReply_truncated {kept : List Bytes} (fewer : kept.Sublist tables.snap.rows)
    (missing : kept ≠ tables.snap.rows) :
    ∃ error, Web.parseSnapReply (Web.decodeReplace
      ((tables.snap.withRows kept).text ++ label ".\n")) = .error (.reported error) := by
  obtain ⟨entries, some, rfl⟩ := List.sublist_map_iff.mp fewer
  have stored : ∀ entry ∈ entries, entry ∈ tables.books.toList :=
    fun entry member => some.subset member
  have short : entries.length ≠ tables.books.size := by
    intro same
    apply missing
    rw [some.eq_of_length (same.trans Std.ExtTreeMap.length_toList.symm)]
    rfl
  rw [parseSnapReply_entries legible]
  by_cases shallow : ∀ entry ∈ entries, (tables.makeDumpUpdate entry.1 entry.2).Shallow
  · obtain ⟨rows, parsed, decodings⟩ := parseSnapRows_shallow legible stored shallow
    have length : rows.length = entries.length := by
      simpa using (congrArg List.length decodings).symm
    refine ⟨.truncated rows.length tables.books.size, ?_⟩
    rw [parsed]
    exact if_neg (by rwa [length])
  · push Not at shallow
    obtain ⟨deep, member, tooDeep⟩ := shallow
    exact ⟨_, by rw [parseSnapRows_deep legible stored member tooDeep]; rfl⟩

theorem parseSnapReply_iff (rssKb : Nat) :
    (∃ rows, Web.parseSnapReply (Web.decodeReplace (tables.respond rssKb (label "SNAP"))) =
        .ok (rows, (tables.dbMeta.epoch.toNat : Int)) ∧
      tables.books.toList.map (fun entry =>
          Web.decodeRecord (encodeUpdate (tables.makeDumpUpdate entry.1 entry.2))) =
        rows.map fun row => .ok (.update row)) ↔ tables.Shallow := by
  have stored : ∀ entry ∈ tables.books.toList, entry ∈ tables.books.toList := fun _ => id
  have whole : Web.parseSnapReply (Web.decodeReplace (tables.respond rssKb (label "SNAP"))) = _ :=
    parseSnapReply_entries legible tables.books.toList
  constructor
  · rintro ⟨rows, parsed, -⟩ key row found
    by_contra tooDeep
    have member := OrderedMap.mem_toList.mpr found
    rw [whole, parseSnapRows_deep legible stored member tooDeep] at parsed
    cases parsed
  · intro shallow
    obtain ⟨rows, parsed, decodings⟩ := parseSnapRows_shallow legible stored
      fun entry member => shallow entry.1 entry.2 (OrderedMap.mem_toList.mp member)
    refine ⟨rows, ?_, decodings⟩
    have length : rows.length = tables.books.toList.length := by
      simpa using (congrArg List.length decodings).symm
    rw [whole, parsed]
    exact if_pos (length.trans Std.ExtTreeMap.length_toList)

end Entries

end Tables

/-! ## The end of the reply -/

namespace Web

/-- In a text that starts with a line, an occurrence of `\n.\n` lies behind that line. If
the rest has no dot but in its terminator, the occurrence is at the very end. -/
theorem eq_nil_of_occurrence {header rows before tail : Bytes} (oneLine : newline ∉ header)
    (dotless : ascii '.' ∉ rows)
    (split : before ++ [newline] ++ (ascii '.' :: newline :: tail) =
      header ++ [newline] ++ (rows ++ [ascii '.', newline])) : tail = [] := by
  have behind : ∃ front, rows ++ [ascii '.', newline] =
      front ++ ascii '.' :: newline :: tail := by
    rcases List.append_eq_append_iff.mp split with ⟨middle, whole, later⟩ | ⟨middle, -, later⟩
    · rcases List.eq_nil_or_concat middle with rfl | ⟨inside, last, rfl⟩
      · exact ⟨[], later.symm⟩
      · rw [List.concat_eq_append, ← List.append_assoc] at whole
        have front := List.append_inj_left' whole rfl
        exact absurd (by rw [front]; simp) oneLine
    · exact ⟨middle, later⟩
  obtain ⟨front, rest⟩ := behind
  rcases List.append_eq_append_iff.mp rest with ⟨middle, -, later⟩ | ⟨middle, whole, later⟩
  · have lengths := congrArg List.length later
    simp only [List.length_append, List.length_cons, List.length_nil] at lengths
    exact List.eq_nil_of_length_eq_zero (by omega)
  · cases middle with
    | nil =>
        have lengths := congrArg List.length later
        simp only [List.length_append, List.length_cons, List.length_nil] at lengths
        exact List.eq_nil_of_length_eq_zero (by omega)
    | cons first middle =>
        have same : ascii '.' = first := (List.cons.inj later).1
        exact absurd (by rw [whole, same]; simp) dotless

private theorem not_terminated {reply : SnapReply} (plain : PlainSession reply.session)
    {front tail : Bytes} (split : front ++ tail = reply.text ++ label ".\n")
    (more : tail ≠ []) : ¬ DbQuery.Terminated front := by
  have dot : label ".\n" = [ascii '.', newline] := by decide +kernel
  rw [SnapReply.text, dot, List.append_assoc] at split
  rintro (⟨before, rfl⟩ | rfl)
  · have ends : before ++ label "\n.\n" ++ tail =
        before ++ [newline] ++ (ascii '.' :: newline :: tail) := by
      simp only [List.append_assoc]
      rfl
    rw [ends] at split
    apply more
    apply eq_nil_of_occurrence _ _ split
    · intro member
      rcases header_graphic plain newline member with graphic | blank
      · exact absurd graphic (by decide)
      · exact absurd blank (by decide)
    · intro member
      obtain ⟨row, -, inLine⟩ := List.mem_flatMap.mp member
      rcases List.mem_append.mp inLine with inText | last
      · exact @Base64.IsText.forall (· ≠ ascii '.') _ (Base64.isText_encode row _ inText)
          (by decide) (by decide +kernel) rfl
      · exact absurd (List.mem_singleton.mp last) (by decide)
  · -- The reply starts with the `S` of `SNAP`.
    rw [header_eq] at split
    exact absurd (List.cons.inj split).1 (by decide)

theorem terminated_text (reply : SnapReply) :
    DbQuery.Terminated (reply.text ++ label ".\n") := by
  have lines : ∃ front, reply.text = front ++ [newline] := by
    rw [SnapReply.text]
    rcases List.eq_nil_or_concat reply.rows with none | ⟨rows, last, some⟩
    · exact ⟨reply.header, by rw [none]; exact List.append_nil _⟩
    · rw [some, List.concat_eq_append, List.flatMap_append, List.flatMap_singleton]
      exact ⟨_, by rw [← List.append_assoc, ← List.append_assoc]⟩
  obtain ⟨front, ends⟩ := lines
  left
  rw [ends, List.append_assoc]
  exact ⟨front, rfl⟩

/-! ## The whole round trip -/

namespace SnapshotQuery

structure Waiting (query : SnapshotQuery) : Prop where
  reading : query.reading = true
  finished : query.finished = false
  recvBuf : query.recvBuf = []
  done : query.done = []

def receive (query : SnapshotQuery) (chunks : List Bytes) : SnapshotQuery :=
  chunks.foldl (fun query chunk => query.step (.readable (.done chunk))) query

def gathered (query : SnapshotQuery) (buf : Bytes) : SnapshotQuery := { query with recvBuf := buf }

theorem receive_concat (query : SnapshotQuery) (chunks : List Bytes) (last : Bytes) :
    query.receive (chunks ++ [last]) =
      (query.receive chunks).step (.readable (.done last)) := by
  rw [receive, List.foldl_append]
  rfl

section Gathering

variable {query : SnapshotQuery} (waiting : query.Waiting)
include waiting

theorem step_gathered (buf : Bytes) {chunk : Bytes} (nonempty : chunk ≠ []) :
    (query.gathered buf).step (.readable (.done chunk)) =
      if DbQuery.Terminated (buf ++ chunk) then
        DbQuery.finish (query.gathered (buf ++ chunk))
          (snapReader.read (decodeReplace (buf ++ chunk)))
      else query.gathered (buf ++ chunk) := by
  simp only [step, DbQuery.step, gathered, waiting.finished, Bool.false_eq_true, if_false,
    waiting.reading, if_true, DbQuery.onReadable, nonempty]

variable {chunks : List Bytes}

private theorem receive_front (nonempty : ∀ chunk ∈ chunks, chunk ≠ [])
    (incomplete : ∀ front, front <+: chunks → ¬ DbQuery.Terminated front.flatten) :
    query.receive chunks = query.gathered chunks.flatten := by
  induction chunks using List.reverseRecOn with
  | nil =>
      rw [List.flatten_nil, ← waiting.recvBuf]
      rfl
  | append_singleton chunks last induction =>
      have earlier := induction (fun chunk member => nonempty chunk (by simp [member]))
        fun front isFront => incomplete front (isFront.trans (List.prefix_append _ _))
      have more := incomplete _ (List.prefix_refl (chunks ++ [last]))
      rw [List.flatten_concat] at more ⊢
      rw [receive_concat, earlier, step_gathered waiting _ (nonempty last (by simp)), if_neg more]

theorem receive_last {last : Bytes} (front : query.receive chunks = query.gathered chunks.flatten)
    (nonempty : last ≠ []) (complete : DbQuery.Terminated (chunks ++ [last]).flatten) :
    query.receive (chunks ++ [last]) =
      DbQuery.finish (query.gathered (chunks ++ [last]).flatten)
        (snapReader.read (decodeReplace (chunks ++ [last]).flatten)) := by
  rw [List.flatten_concat] at complete ⊢
  rw [receive_concat, front, step_gathered waiting _ nonempty, if_pos complete]

theorem receive_reply {reply : SnapReply} (plain : PlainSession reply.session)
    (nonempty : ∀ chunk ∈ chunks, chunk ≠ [])
    (stream : chunks.flatten = reply.text ++ label ".\n") :
    (∀ count < chunks.length,
      query.receive (chunks.take count) = query.gathered (chunks.take count).flatten) ∧
    query.receive chunks = DbQuery.finish (query.gathered (reply.text ++ label ".\n"))
      (snapReader.read (decodeReplace (reply.text ++ label ".\n"))) := by
  have proper {count : Nat} (before : count < chunks.length) :
      ¬ DbQuery.Terminated (chunks.take count).flatten := by
    have split : (chunks.take count).flatten ++ (chunks.drop count).flatten =
        reply.text ++ label ".\n" := by
      rw [← List.flatten_append, List.take_append_drop, stream]
    apply not_terminated plain split
    intro nothing
    have next : chunks[count] ∈ chunks.drop count := by
      rw [List.drop_eq_getElem_cons before]
      exact List.mem_cons_self
    exact nonempty _ (List.getElem_mem before) (List.flatten_eq_nil_iff.mp nothing _ next)
  have front {count : Nat} (before : count < chunks.length) :
      query.receive (chunks.take count) = query.gathered (chunks.take count).flatten := by
    apply receive_front waiting fun chunk member => nonempty chunk (List.mem_of_mem_take member)
    intro earlier isPrefix
    have short := isPrefix.length_le
    rw [List.length_take] at short
    rw [List.prefix_iff_eq_take.mp (isPrefix.trans (List.take_prefix _ _))]
    exact proper (by omega)
  refine ⟨fun count before => front before, ?_⟩
  rcases List.eq_nil_or_concat chunks with rfl | ⟨init, last, rfl⟩
  · exact absurd stream.symm (List.append_ne_nil_of_right_ne_nil _ (by decide +kernel))
  · rw [List.concat_eq_append] at stream nonempty front ⊢
    have gatheredInit := @front init.length (by simp)
    rw [List.take_left] at gatheredInit
    rw [receive_last waiting gatheredInit (nonempty last (by simp))
      (by rw [stream]; exact terminated_text reply), stream]

end Gathering

private theorem done_finish {query : SnapshotQuery} (waiting : query.Waiting) (buf text : Bytes)
    (reply : List Update × Int) :
    (DbQuery.finish (query.gathered buf) (snapReader.read text)).done = [.ok reply] ↔
      parseSnapReply text = .ok reply := by
  have unfinished : (query.gathered buf).finished = false := waiting.finished
  have fresh : (query.gathered buf).done = [] := waiting.done
  unfold DbQuery.finish snapReader
  rw [unfinished, if_neg Bool.false_ne_true, fresh]
  cases parsed : parseSnapReply text with
  | ok other => simp [parsed]
  | error failure =>
      cases failure with
      | reported error | raised error => simp [parsed]

/-- For tables with ASCII text and a session of one word: however the reply to `SNAP` is cut
into chunks, the query is over with the last one and not before. It has got the rows of the
tables, decoded and in key order, under the epoch of the tables, exactly if no row has more
levels than slots. With any line missing there is an error and no row. -/
theorem snap_roundTrip {tables : Tables} (legible : tables.Legible) (rssKb : Nat)
    {query : SnapshotQuery} (waiting : query.Waiting) {chunks : List Bytes}
    (nonempty : ∀ chunk ∈ chunks, chunk ≠ [])
    (stream : chunks.flatten = tables.respond rssKb (label "SNAP")) :
    (∀ count < chunks.length, (query.receive (chunks.take count)).finished = false) ∧
    (query.receive chunks).finished = true ∧
    ((∃ rows, (query.receive chunks).done = [.ok (rows, (tables.dbMeta.epoch.toNat : Int))] ∧
        tables.books.toList.map (fun entry =>
            decodeRecord (ProtoFH.encodeUpdate (tables.makeDumpUpdate entry.1 entry.2))) =
          rows.map fun row => .ok (.update row)) ↔ tables.Shallow) ∧
    ∀ kept : List Bytes, kept.Sublist tables.snap.rows → kept ≠ tables.snap.rows →
      ∃ error, parseSnapReply (decodeReplace ((tables.snap.withRows kept).text ++
        label ".\n")) = .error (.reported error) := by
  obtain ⟨front, whole⟩ := receive_reply waiting legible.session nonempty stream
  refine ⟨?_, ?_, ?_, fun kept => Tables.parseSnapReply_truncated legible⟩
  · intro count before
    rw [front count before]
    exact waiting.finished
  · rw [whole]
    exact DbQuery.finished_finish _ _
  · rw [whole, ← Tables.parseSnapReply_iff legible rssKb]
    exact exists_congr fun rows => and_congr_left' (done_finish waiting _ _ _)

def asked : SnapshotQuery := (start none).step (.writable none (.done 5))

theorem asked_waiting : asked.Waiting :=
  ⟨by decide +kernel, by decide +kernel, by decide +kernel, rfl⟩

def quotedBook (count : UInt8) : UpdateRecord where
  envelope := { ticker := .copy 4 (label "1301"), group := .copy 4 (label "DAY"), exchSeq := 7 }
  state := { tradingState := ascii 'T', referencePrice := 1000 }
  book := { levelCountBid := count, totalBidQty := 700, totalBidOrders := 3 }

def tradedBook : UpdateRecord where
  envelope := { ticker := .copy 4 (label "8306"), group := .copy 4 (label "NGT"), exchSeq := 9 }
  trade := { lastPrice := 9120, lastQty := 100, cumQty := 100, tradeCount := 1 }

def twoBooks (count : UInt8) : Tables := (({} : Tables).store (quotedBook count)).store tradedBook

theorem twoBooks_row {count : UInt8} {key : RowKey} {row : BookRow}
    (found : (twoBooks count).books[key]? = some row) :
    key = tradedBook.key ∧ row = tradedBook.toRow [] ∨
      key = (quotedBook count).key ∧ row = (quotedBook count).toRow [] := by
  have other : (({} : Tables).store (quotedBook count)).books[tradedBook.key]? = none := by
    refine (OrderedMap.lookup_insert ..).trans ((if_neg ?_).trans (by simp))
    exact (by decide : (quotedBook 0).key ≠ tradedBook.key)
  rw [twoBooks, Tables.store, other, OrderedMap.lookup_insert] at found
  split at found
  · next same => exact .inl ⟨same.symm, (Option.some.inj found).symm⟩
  · refine .inr ?_
    change ((∅ : OrderedMap RowKey BookRow).insert _ _)[key]? = some row at found
    rw [OrderedMap.lookup_insert] at found
    split at found
    · next same => exact ⟨same.symm, (Option.some.inj found).symm⟩
    · simp at found

theorem twoBooks_legible (count : UInt8) : (twoBooks count).Legible where
  session char member := by cases member
  rows key row found := by
    rcases twoBooks_row found with ⟨rfl, rfl⟩ | ⟨rfl, rfl⟩
    · decide +kernel
    · exact (by decide +kernel : IsAscii (quotedBook 0).key.ticker.bytes ∧
        IsAscii (quotedBook 0).key.group.bytes ∧
          IsAscii ((quotedBook 0).toRow []).static.isin.bytes)

theorem twoBooks_shallow : (twoBooks 10).Shallow := by
  intro key row found
  rcases twoBooks_row found with ⟨-, rfl⟩ | ⟨-, rfl⟩ <;> decide

def seedingReply : Bytes := (twoBooks 10).respond 0 (label "SNAP")

def threePieces : List Bytes :=
  [seedingReply.take 20, (seedingReply.drop 20).take 600, (seedingReply.drop 20).drop 600]

theorem snap_roundTrip_twoBooks :
    (twoBooks 10).Legible ∧ asked.Waiting ∧
      ∃ rows, (asked.receive threePieces).done = [.ok (rows, 0)] ∧ rows.length = 2 := by
  have stream : threePieces.flatten = seedingReply := by
    simp only [threePieces, List.flatten_cons, List.flatten_nil, List.append_nil,
      List.take_append_drop]
  have nonempty : ∀ chunk ∈ threePieces, chunk ≠ [] := by decide +kernel
  have two : (twoBooks 10).books.toList.length = 2 := by decide +kernel
  obtain ⟨rows, told, decoded⟩ := (snap_roundTrip (twoBooks_legible 10) 0 asked_waiting nonempty
    stream).2.2.1.mpr twoBooks_shallow
  have count := congrArg List.length decoded
  rw [List.length_map, List.length_map, two] at count
  exact ⟨twoBooks_legible 10, asked_waiting, rows, told, count.symm⟩

/-- A row with eleven bids makes the reply an error. -/
theorem deepRow_refused :
    (twoBooks 11).Legible ∧ asked.Waiting ∧
      (asked.receive [(twoBooks 11).respond 0 (label "SNAP")]).done =
        [.error (.badRecord (.record .deepLevels))] := by
  refine ⟨twoBooks_legible 11, asked_waiting, ?_⟩
  decide +kernel

end SnapshotQuery

end Web

end ProtoFH
