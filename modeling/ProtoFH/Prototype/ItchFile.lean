import ProtoFH.Foundation.Generator
import ProtoFH.Prototype.Capture

/-! # Reading ITCH Binary Data Files

`iter_messages` is a generator: it yields the messages of a file and then ends or raises.
A file that was cut off yields the messages that are whole, and where the cut is not
between two messages it raises. -/

namespace ProtoFH.Prototype

def maxMessageLen : Nat := 0xFFFF

/-- The `ValueError` of `write_message`, with what its text reports. -/
structure MessageTooLong where
  length : Nat
deriving DecidableEq

def writeMessage (f message : Bytes) : Except MessageTooLong Bytes :=
  if message.length > maxMessageLen then .error ⟨message.length⟩
  else .ok (f ++ lengthField message ++ message)

inductive ItchFileError where
  | lengthCut
  | bodyCut (expected got : Nat)
deriving DecidableEq

def itchGenerator : FileGenerator ItchFileError Bytes :=
  recordGenerator 2 (fun header => (beGetU16 header).toNat) .lengthCut .bodyCut

/-- `iter_messages`: the messages yielded and the exception after the last of them. -/
def iterMessages (f : Bytes) : List Bytes × Option ItchFileError := itchGenerator.run f

/-! ## Files that were written -/

theorem itchFile_cons (message : Bytes) (messages : List Bytes) :
    itchFile (message :: messages) = lengthField message ++ (message ++ itchFile messages) := by
  rw [itchFile, List.flatMap_cons, List.append_assoc]
  rfl

theorem itchFile_cons_length (message : Bytes) (messages : List Bytes) :
    (itchFile (message :: messages)).length =
      2 + message.length + (itchFile messages).length := by
  rw [itchFile_cons, List.length_append, List.length_append, lengthField_length]
  omega

variable {messages : List Bytes}

theorem foldlM_writeMessage (short : ∀ message ∈ messages, message.length ≤ maxMessageLen)
    (f : Bytes) : messages.foldlM writeMessage f = .ok (f ++ itchFile messages) := by
  induction messages generalizing f with
  | nil => exact congrArg Except.ok (List.append_nil f).symm
  | cons message messages induction =>
      rw [List.forall_mem_cons] at short
      rw [List.foldlM_cons, writeMessage, if_neg (Nat.not_lt.mpr short.1)]
      refine (induction short.2 _).trans ?_
      rw [itchFile_cons, List.append_assoc, List.append_assoc]

variable {message : Bytes}

private theorem beGetU16_lengthField (short : message.length ≤ maxMessageLen) (rest : Bytes) :
    (beGetU16 ((lengthField message ++ rest).take 2)).toNat = message.length := by
  have field : (lengthField message ++ rest).take 2 = lengthField message ++ [] := by
    rw [take_append_of_length rest 2 (lengthField_length message), List.append_nil]
  rw [field, lengthField, beGetU16_put]
  have bound : maxMessageLen < 2 ^ 16 := by decide
  exact UInt16.toNat_ofNat_of_lt' (Nat.lt_of_le_of_lt short bound)

theorem itchGenerator_lengthField (short : message.length ≤ maxMessageLen) (rest : Bytes) :
    itchGenerator.round (lengthField message ++ rest) =
      if rest.length < message.length then .raised (.bodyCut message.length rest.length)
      else .yielded (rest.take message.length) (rest.drop message.length) := by
  have taken : ((lengthField message ++ rest).take 2).length = 2 := by
    rw [take_append_of_length rest 2 (lengthField_length message), lengthField_length]
  have dropped : (lengthField message ++ rest).drop 2 = rest :=
    drop_append_of_length rest 2 (lengthField_length message)
  have some : (lengthField message ++ rest).take 2 ≠ [] := by
    intro none
    rw [none] at taken
    cases taken
  simp only [itchGenerator, recordGenerator, recordRound, if_neg some, taken, ne_eq, not_true,
    if_false, beGetU16_lengthField short, dropped, List.length_take]
  by_cases cut : rest.length < message.length
  · rw [if_pos cut, if_pos (by omega), Nat.min_eq_right (Nat.le_of_lt cut)]
  · rw [if_neg cut, if_neg (by omega)]

theorem itchGenerator_whole (short : message.length ≤ maxMessageLen) (rest : Bytes) :
    itchGenerator.round (lengthField message ++ (message ++ rest)) = .yielded message rest := by
  rw [itchGenerator_lengthField short, if_neg (by rw [List.length_append]; omega),
    List.take_left, List.drop_left]

theorem iterMessages_itchFile (short : ∀ message ∈ messages, message.length ≤ maxMessageLen) :
    iterMessages (itchFile messages) = (messages, none) := by
  induction messages with
  | nil => exact itchGenerator.run_ended rfl
  | cons message messages induction =>
      rw [List.forall_mem_cons] at short
      rw [iterMessages] at induction ⊢
      rw [itchFile_cons, itchGenerator.run_yielded (itchGenerator_whole short.1 _),
        induction short.2]

/-! ## Files that were cut off -/

theorem iterMessages_cut (short : message.length ≤ maxMessageLen) (rest : Bytes) {cut : Nat}
    (inside : cut < 2 + message.length) :
    (iterMessages ((lengthField message ++ (message ++ rest)).take cut)).1 = [] ∧
      ((iterMessages ((lengthField message ++ (message ++ rest)).take cut)).2 = none ↔
        cut = 0) := by
  have length := lengthField_length message
  by_cases header : cut < 2
  · have front : (lengthField message ++ (message ++ rest)).take cut =
        (lengthField message).take cut := List.take_append_of_le_length (by omega)
    have left : ((lengthField message).take cut).length = cut := by
      rw [List.length_take]
      omega
    rw [front]
    by_cases nothing : cut = 0
    · subst nothing
      rw [iterMessages, List.take_zero, itchGenerator.run_ended rfl]
      exact ⟨rfl, by simp⟩
    · have part : ((lengthField message).take cut).take 2 = (lengthField message).take cut :=
        List.take_of_length_le (by omega)
      have some : (lengthField message).take cut ≠ [] := by
        intro none
        rw [none, List.length_nil] at left
        omega
      have round : itchGenerator.round ((lengthField message).take cut) = .raised .lengthCut := by
        simp only [itchGenerator, recordGenerator, recordRound, part, if_neg some, left]
        exact if_pos (by omega)
      rw [iterMessages, itchGenerator.run_raised round]
      exact ⟨rfl, by simp [nothing]⟩
  · have front : (lengthField message ++ (message ++ rest)).take cut =
        lengthField message ++ message.take (cut - 2) := by
      rw [List.take_append, List.take_of_length_le (by omega), length,
        List.take_append_of_le_length (by omega)]
    have fewer : (message.take (cut - 2)).length < message.length := by
      rw [List.length_take]
      omega
    have round := itchGenerator_lengthField short (message.take (cut - 2))
    rw [if_pos fewer] at round
    rw [front, iterMessages, itchGenerator.run_raised round]
    refine ⟨rfl, nofun, ?_⟩
    omega

private theorem itchFile_take {cut : Nat} (behind : 2 + message.length ≤ cut) :
    (itchFile (message :: messages)).take cut =
      lengthField message ++
        (message ++ (itchFile messages).take (cut - (2 + message.length))) := by
  have length := lengthField_length message
  rw [itchFile_cons, List.take_append, List.take_append, List.take_of_length_le (by omega),
    List.take_of_length_le (by omega), length, Nat.sub_sub]

theorem iterMessages_take (short : ∀ message ∈ messages, message.length ≤ maxMessageLen) {cut : Nat}
    (proper : cut < (itchFile messages).length) :
    ∃ whole < messages.length, (itchFile (messages.take whole)).length ≤ cut ∧
      cut < (itchFile (messages.take (whole + 1))).length ∧
      (iterMessages ((itchFile messages).take cut)).1 = messages.take whole ∧
      ((iterMessages ((itchFile messages).take cut)).2 = none ↔
        ∃ count ≤ messages.length, cut = (itchFile (messages.take count)).length) := by
  induction messages generalizing cut with
  | nil => exact absurd proper (Nat.not_lt_zero _)
  | cons message messages induction =>
      rw [List.forall_mem_cons] at short
      rw [itchFile_cons_length] at proper
      by_cases inside : cut < 2 + message.length
      · obtain ⟨nothing, ended⟩ := iterMessages_cut short.1 (itchFile messages) inside
        rw [← itchFile_cons] at nothing ended
        refine ⟨0, Nat.succ_pos _, Nat.zero_le _, ?_, nothing, ended.trans ?_⟩
        · rw [List.take_succ_cons, itchFile_cons_length]
          omega
        · constructor
          · rintro rfl
            exact ⟨0, Nat.zero_le _, rfl⟩
          · rintro ⟨count, -, boundary⟩
            cases count with
            | zero => exact boundary
            | succ count =>
                rw [List.take_succ_cons, itchFile_cons_length] at boundary
                omega
      · have behind := Nat.not_lt.mp inside
        obtain ⟨whole, fewer, reached, next, yielded, ended⟩ :=
          induction short.2 (show cut - (2 + message.length) < _ by omega)
        rw [itchFile_take behind, iterMessages,
          itchGenerator.run_yielded (itchGenerator_whole short.1 _)]
        refine ⟨whole + 1, Nat.succ_lt_succ fewer, ?_, ?_, congrArg _ yielded, ended.trans ?_⟩
        · rw [List.take_succ_cons, itchFile_cons_length]
          omega
        · rw [List.take_succ_cons, itchFile_cons_length]
          omega
        · clear ended
          constructor
          · rintro ⟨count, within, boundary⟩
            refine ⟨count + 1, Nat.succ_le_succ within, ?_⟩
            rw [List.take_succ_cons, itchFile_cons_length]
            omega
          · rintro ⟨count, within, boundary⟩
            cases count with
            | zero =>
                change cut = 0 at boundary
                omega
            | succ count =>
                rw [List.take_succ_cons, itchFile_cons_length] at boundary
                exact ⟨count, Nat.le_of_succ_le_succ within, by omega⟩

/-- What was written is read back. Of a file that is cut off the whole messages are, and the
generator ends normally exactly if the cut is between messages. -/
theorem truncation_detected {messages : List Bytes}
    (short : ∀ message ∈ messages, message.length ≤ maxMessageLen) :
    ∃ file, messages.foldlM writeMessage [] = .ok file ∧
      iterMessages file = (messages, none) ∧
      ∀ cut < file.length, ∃ whole < messages.length,
        (itchFile (messages.take whole)).length ≤ cut ∧
        cut < (itchFile (messages.take (whole + 1))).length ∧
        (iterMessages (file.take cut)).1 = messages.take whole ∧
        ((iterMessages (file.take cut)).2 = none ↔
          ∃ count ≤ messages.length, cut = (itchFile (messages.take count)).length) :=
  ⟨itchFile messages, foldlM_writeMessage short [], iterMessages_itchFile short,
    fun _ proper => iterMessages_take short proper⟩

def twoMessages : List Bytes := [[], [7, 8, 9]]

theorem truncation_detected_twoMessages :
    (∀ message ∈ twoMessages, message.length ≤ maxMessageLen) ∧
      ∃ file, twoMessages.foldlM writeMessage [] = .ok file ∧
        (iterMessages (file.take 6)).1 = [[]] := by
  have short : ∀ message ∈ twoMessages, message.length ≤ maxMessageLen := by decide
  obtain ⟨file, written, -, cuts⟩ := truncation_detected short
  have same : file = itchFile twoMessages :=
    Except.ok.inj (written.symm.trans (foldlM_writeMessage short []))
  obtain ⟨whole, fewer, reached, next, yielded, -⟩ := cuts 6 (by rw [same]; decide)
  refine ⟨short, file, written, yielded.trans ?_⟩
  match whole, fewer, next with
  | 0, _, next => exact absurd next (by decide)
  | 1, _, _ => rfl

end ProtoFH.Prototype
