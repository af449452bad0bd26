import ProtoFH.Prototype.Session
import ProtoFH.Soup.Client

/-! # Login packets in both languages

The C++ parser strips spaces and counts in 64 bits. The Python parser strips all white
space and counts without a bound. They agree on a payload exactly if nothing in it shows
the difference. -/

namespace ProtoFH

open Prototype

def soupBuildLoginAccepted (accepted : SoupLoginAccepted) : Bytes :=
  bePutU16 (1 + 30) ++ ascii 'A' ::
    (putLeftPadded 10 accepted.session.bytes ++ putSeqField 20 accepted.sequence)

def soupLogin (payload : Bytes) : Option (Bytes × Nat) :=
  match soupParseLoginAccepted payload with
  | .error _ => none
  | .ok accepted => some (accepted.session.bytes, accepted.sequence.toNat)

def prototypeLogin (payload : Bytes) : Option (Text × Nat) :=
  match decodeLoginAccepted payload with
  | .ok (.loginAccepted session sequence) => some (session, sequence)
  | _ => none

def trimSpaces (field : Bytes) : Bytes := stripRight (field.dropWhile (· = space))

/-! ## Digits -/

theorem foldlM_parseSeqDigit (digits : Bytes) (value : Nat) :
    digits.foldlM parseSeqDigit (UInt64.ofNat value) =
      if digits.all fun char => 48 ≤ char && char ≤ 57 then
        some (UInt64.ofNat
          (digits.foldl (fun value char => 10 * value + (char.toNat - 48)) value))
      else none := by
  induction digits generalizing value with
  | nil => rfl
  | cons char digits induction =>
      rw [List.foldlM_cons, List.all_cons, List.foldl_cons]
      by_cases isDigit : 48 ≤ char ∧ char ≤ 57
      · have low : 48 ≤ char.toNat := UInt8.le_iff_toNat_le.mp isDigit.1
        have high : char.toNat ≤ 57 := UInt8.le_iff_toNat_le.mp isDigit.2
        have char_eq : digit (char.toNat - 48) = char := by
          apply UInt8.toNat_inj.mp
          rw [digit_toNat (by omega)]
          omega
        have next := parseSeqDigit_digit value (char.toNat - 48) (by omega)
        rw [char_eq] at next
        rw [next]
        change digits.foldlM parseSeqDigit _ = _
        rw [induction, decide_eq_true isDigit.1, decide_eq_true isDigit.2]
        rfl
      · have refused : parseSeqDigit (UInt64.ofNat value) char = none := by
          rw [parseSeqDigit, if_pos]
          by_contra inside
          rw [not_or, UInt8.not_lt, UInt8.not_lt] at inside
          exact isDigit inside
        have notDigit : (decide (48 ≤ char) && decide (char ≤ 57)) = false := by
          rw [Bool.and_eq_false_iff, decide_eq_false_iff_not, decide_eq_false_iff_not]
          exact not_and_or.mp isDigit
        rw [refused, notDigit]
        rfl

variable {field : Bytes}

private theorem parseSeqField_eq (width : field.length = 20) :
    parseSeqField 20 field =
      if isDigits (field.dropWhile (· = space)) then
        some (UInt64.ofNat (digitsValue (field.dropWhile (· = space))))
      else none := by
  rw [parseSeqField, List.take_of_length_le width.le]
  cases digits : field.dropWhile (· = space) with
  | nil => rfl
  | cons first rest => exact foldlM_parseSeqDigit (first :: rest) 0

private theorem isSpace_of_isDigits {text : Text} (digits : isDigits text = true) :
    text ≠ [] ∧ ∀ char ∈ text, isSpace char = false := by
  rw [isDigits, Bool.and_eq_true, List.all_eq_true] at digits
  refine ⟨by simpa using digits.1, fun char member => isSpace_of_isDigit ?_⟩
  simpa [IsDigit] using digits.2 char member

theorem strip_of_isDigits (digits : isDigits (field.dropWhile (· = space)) = true) :
    strip field = field.dropWhile (· = space) := by
  obtain ⟨some, kept⟩ := isSpace_of_isDigits digits
  have front : field.dropWhile isSpace = field.dropWhile (· = space) := by
    have split : field.takeWhile (· = space) ++ field.dropWhile (· = space) = field :=
      List.takeWhile_append_dropWhile
    conv_lhs => rw [← split]
    rw [List.dropWhile_append_of_pos]
    · cases rest : field.dropWhile (· = space) with
      | nil => rfl
      | cons first rest' =>
          rw [rest] at kept
          exact List.dropWhile_cons_of_neg (by simp [kept first List.mem_cons_self])
    · intro char member
      have blank : char = space := by simpa using List.mem_takeWhile_imp member
      rw [blank]
      decide
  rw [strip, front, List.rdropWhile_eq_self_iff]
  intro nonempty
  rw [kept _ (List.getLast_mem nonempty)]
  exact Bool.false_ne_true

/-! ## What the parsers return -/

theorem prototypeLogin_eq {payload : Bytes} (length : payload.length = 30)
    (isAscii : IsAscii payload) :
    prototypeLogin payload =
      if isDigits (strip (payload.drop 10)) then
        some (strip (payload.take 10), digitsValue (strip (payload.drop 10)))
      else none := by
  have sessionAscii : IsAscii (payload.take sessionWidth) :=
    fun char member => isAscii char (List.mem_of_mem_take member)
  have whole : (payload.drop sessionWidth).take sequenceWidth = payload.drop 10 :=
    List.take_of_length_le (by rw [List.length_drop, length]; decide)
  have sequenceAscii : IsAscii (payload.drop 10) :=
    fun char member => isAscii char (List.mem_of_mem_drop member)
  rw [prototypeLogin, decodeLoginAccepted, checkLength, if_neg (by rw [length]; decide),
    decodeSessionSequence, whole, decodeAscii, decodeAscii, if_pos sessionAscii,
    if_pos sequenceAscii]
  by_cases digits : isDigits (strip (payload.drop 10)) = true
  · rw [if_pos digits]
    simp only [bind, Except.bind, pure, Except.pure, if_pos digits]
    rfl
  · rw [if_neg digits]
    simp only [bind, Except.bind, if_neg digits]

theorem soupLogin_eq {payload : Bytes} (length : payload.length = 30) :
    soupLogin payload =
      if isDigits ((payload.drop 10).dropWhile (· = space)) then
        some (cstr (trimSpaces (payload.take 10)),
          digitsValue ((payload.drop 10).dropWhile (· = space)) % 2 ^ 64)
      else none := by
  have width : (payload.drop 10).length = 20 := by
    rw [List.length_drop, length]
  have short : (cstr (trimSpaces (payload.take 10))).length ≤ 10 := by
    refine Nat.le_trans (List.takeWhile_prefix _).length_le ?_
    refine Nat.le_trans (stripRight_length_le _) ?_
    refine Nat.le_trans (List.dropWhile_suffix _).length_le ?_
    exact List.length_take_le _ _
  have session : (getPaddedStr 10 payload).bytes = cstr (trimSpaces (payload.take 10)) :=
    List.take_of_length_le short
  rw [soupLogin, soupParseLoginAccepted, if_neg (by rw [length]; decide), parseSeqField_eq width]
  by_cases digits : isDigits ((payload.drop 10).dropWhile (· = space)) = true
  · rw [if_pos digits, if_pos digits]
    dsimp only
    rw [session, UInt64.toNat_ofNat']
  · rw [if_neg digits, if_neg digits]

/-! ## Sessions -/

private theorem mem_strip {text : Text} {char : UInt8} (member : char ∈ text)
    (kept : isSpace char = false) : char ∈ strip text := by
  have front : char ∈ text.dropWhile isSpace := by
    have split : text.takeWhile isSpace ++ text.dropWhile isSpace = text :=
      List.takeWhile_append_dropWhile
    rw [← split] at member
    refine (List.mem_append.mp member).resolve_left fun dropped => ?_
    rw [List.mem_takeWhile_imp dropped] at kept
    cases kept
  have split : strip text ++ (text.dropWhile isSpace).rtakeWhile isSpace =
      text.dropWhile isSpace := List.rdropWhile_append_rtakeWhile
  rw [← split] at front
  refine (List.mem_append.mp front).resolve_right fun dropped => ?_
  rw [List.mem_rtakeWhile_imp dropped] at kept
  cases kept

theorem mem_of_mem_trimSpaces {char : UInt8} (member : char ∈ trimSpaces field) : char ∈ field :=
  (List.dropWhile_suffix _).subset ((stripRight_isPrefix _).subset member)

private theorem cstr_trimSpaces_eq_strip_iff (field : Bytes) :
    cstr (trimSpaces field) = strip field ↔ trimSpaces field = strip field ∧ 0 ∉ field := by
  constructor
  · intro same
    have nulFree : (0 : UInt8) ∉ field := by
      intro member
      apply zero_notMem_cstr (trimSpaces field)
      rw [same]
      exact mem_strip member (by decide)
    have whole : cstr (trimSpaces field) = trimSpaces field :=
      cstr_eq_self fun member => nulFree (mem_of_mem_trimSpaces member)
    exact ⟨whole.symm.trans same, nulFree⟩
  · rintro ⟨same, nulFree⟩
    rw [cstr_eq_self fun member => nulFree (mem_of_mem_trimSpaces member)]
    exact same

/-! ## Payloads on which both agree -/

/-- If the sequence number can be read at all, then it stands behind spaces at the right
end of its field and fits into 64 bits, and the session has no NUL and no white space but
spaces at the ends of its field. -/
def LoginPlain (payload : Bytes) : Prop :=
  isDigits (strip (payload.drop 10)) = true →
    ((payload.drop 10).dropWhile (· = space) = strip (payload.drop 10) ∧
      digitsValue (strip (payload.drop 10)) < 2 ^ 64) ∧
    trimSpaces (payload.take 10) = strip (payload.take 10) ∧ 0 ∉ payload.take 10

private theorem soupLogin_eq_prototypeLogin_iff {payload : Bytes} (length : payload.length = 30)
    (isAscii : IsAscii payload) :
    soupLogin payload = prototypeLogin payload ↔ LoginPlain payload := by
  rw [soupLogin_eq length, prototypeLogin_eq length isAscii, LoginPlain]
  by_cases digits : isDigits (strip (payload.drop 10)) = true
  · by_cases same : (payload.drop 10).dropWhile (· = space) = strip (payload.drop 10)
    · rw [same, if_pos digits, if_pos digits, Option.some_inj, Prod.mk.injEq,
        cstr_trimSpaces_eq_strip_iff]
      have small : digitsValue (strip (payload.drop 10)) % 2 ^ 64 =
          digitsValue (strip (payload.drop 10)) ↔
            digitsValue (strip (payload.drop 10)) < 2 ^ 64 :=
        Nat.mod_eq_iff_lt (by decide)
      rw [small]
      exact ⟨fun ⟨session, fits⟩ _ => ⟨⟨rfl, fits⟩, session⟩,
        fun plain => ⟨(plain digits).2, (plain digits).1.2⟩⟩
    · have refused : ¬ isDigits ((payload.drop 10).dropWhile (· = space)) = true :=
        fun accepted => same (strip_of_isDigits accepted).symm
      rw [if_neg refused, if_pos digits]
      refine ⟨nofun, fun plain => absurd (plain digits).1.1 same⟩
  · have refused : ¬ isDigits ((payload.drop 10).dropWhile (· = space)) = true := by
      intro accepted
      rw [strip_of_isDigits accepted] at digits
      exact digits accepted
    rw [if_neg refused, if_neg digits]
    exact ⟨fun _ accepted => absurd accepted digits, fun _ => rfl⟩

/-! ## Payloads that were built -/

def BothReturn (payload : Bytes) (session : Text) (sequence : UInt64) : Prop :=
  soupLogin payload = some (session, sequence.toNat) ∧
    prototypeLogin payload = some (session, sequence.toNat)

def LoginRoundTrips (session : Text) (sequence : UInt64) : Prop :=
  (∃ wire, (Packet.loginAccepted session sequence.toNat).encode = .ok wire ∧
    BothReturn (wire.drop 3) session sequence) ∧
  BothReturn ((soupBuildLoginAccepted ⟨CStr.copy 10 session, sequence⟩).drop 3) session sequence

private theorem trimSpaces_padLeft (width : Nat) (text : Bytes) :
    trimSpaces (padLeft width text) = trimSpaces text := by
  rw [trimSpaces, dropWhile_padLeft_of_pos (by decide)]
  rfl

theorem strip_padLeft (width : Nat) (text : Text) : strip (padLeft width text) = strip text := by
  rw [strip, dropWhile_padLeft_of_pos (by decide)]
  rfl

section Built

variable {session : Text} (short : session.length ≤ 10) (sequence : UInt64)

theorem decimal_u64_length : (decimal sequence.toNat).length ≤ 20 :=
  decimal_length_le (by decide) (Nat.lt_trans sequence.toNat_lt (by decide))

include short

private theorem built_length :
    (padLeft 10 session ++ padLeft 20 (decimal sequence.toNat)).length = 30 := by
  rw [List.length_append, padLeft_length short, padLeft_length (decimal_u64_length sequence)]

theorem soupLogin_built :
    soupLogin (padLeft 10 session ++ padLeft 20 (decimal sequence.toNat)) =
      some (cstr (trimSpaces session), sequence.toNat) := by
  have width := padLeft_length short
  have length := built_length short sequence
  rw [soupLogin_eq length, take_append_of_length _ _ width, drop_append_of_length _ _ width,
    dropWhile_padLeft_decimal, if_pos (isDigits_decimal _), digitsValue_decimal,
    trimSpaces_padLeft, Nat.mod_eq_of_lt sequence.toNat_lt]

theorem prototypeLogin_built (isAscii : IsAscii session) :
    prototypeLogin (padLeft 10 session ++ padLeft 20 (decimal sequence.toNat)) =
      some (strip session, sequence.toNat) := by
  have width := padLeft_length short
  have length := built_length short sequence
  have plain : IsAscii (padLeft 10 session ++ padLeft 20 (decimal sequence.toNat)) := by
    intro char member
    rcases List.mem_append.mp member with inSession | inSequence
    · exact isAscii_padLeft 10 isAscii char inSession
    · exact isAscii_padLeft 20 (isAscii_decimal _) char inSequence
  rw [prototypeLogin_eq length plain, take_append_of_length _ _ width,
    drop_append_of_length _ _ width, strip_padLeft_decimal, if_pos (isDigits_decimal _),
    digitsValue_decimal, strip_padLeft]

theorem encode_loginAccepted (isAscii : IsAscii session) :
    (Packet.loginAccepted session sequence.toNat).encode =
      .ok (bePut 2 31 ++ ascii 'A' :: (padLeft 10 session ++ padLeft 20 (decimal sequence.toNat)))
    := by
  have width := padLeft_length short
  have digits := decimal_u64_length sequence
  have sessionField : padded padLeft session sessionWidth = .ok (padLeft 10 session) := by
    rw [padded, toBytes, if_pos isAscii]
    exact if_neg (Nat.not_lt.mpr short)
  have sequenceField : padded padLeft (decimal sequence.toNat) sequenceWidth =
      .ok (padLeft 20 (decimal sequence.toNat)) := by
    rw [padded, toBytes, if_pos (isAscii_decimal _)]
    exact if_neg (Nat.not_lt.mpr digits)
  have payload : (Packet.loginAccepted session sequence.toNat).payload =
      .ok (padLeft 10 session ++ padLeft 20 (decimal sequence.toNat)) := by
    rw [Packet.payload, sessionField, sequenceField]
    rfl
  have length : 1 + (padLeft 10 session ++ padLeft 20 (decimal sequence.toNat)).length = 31 := by
    rw [List.length_append, width, padLeft_length digits]
  rw [Packet.encode, payload]
  change frame (ascii 'A') (padLeft 10 session ++ _) = _
  rw [frame, length]
  rfl

private theorem soupBuildLoginAccepted_eq (nulFree : (0 : UInt8) ∉ session) :
    (soupBuildLoginAccepted ⟨CStr.copy 10 session, sequence⟩).drop 3 =
      padLeft 10 session ++ padLeft 20 (decimal sequence.toNat) := by
  have copied : (CStr.copy 10 session).bytes = session := by
    change (cstr session).take 10 = session
    rw [cstr_eq_self nulFree, List.take_of_length_le short]
  change putLeftPadded 10 (CStr.copy 10 session).bytes ++ putSeqField 20 sequence = _
  rw [copied, putLeftPadded, putSeqField, putLeftPadded, List.take_of_length_le short,
    List.take_of_length_le (decimal_u64_length sequence)]

/-- A session without spaces at its ends comes back from both exactly if it is an ASCII
text without NUL and without other white space at its ends. -/
theorem loginRoundTrips_iff (trimmed : trimSpaces session = session) :
    LoginRoundTrips session sequence ↔ IsAscii session ∧ strip session = session ∧ 0 ∉ session := by
  constructor
  · rintro ⟨⟨wire, encoded, soup, proto⟩, -⟩
    have isAscii : IsAscii session := by
      obtain ⟨payload, built, -⟩ := except_bind_eq_ok.mp encoded
      obtain ⟨field, padding, -⟩ := except_bind_eq_ok.mp built
      exact (padded_eq_ok padding).1
    rw [encode_loginAccepted short sequence isAscii] at encoded
    cases encoded
    have soupRead := (soupLogin_built short sequence).symm.trans soup
    have protoRead := (prototypeLogin_built short sequence isAscii).symm.trans proto
    rw [Option.some_inj, Prod.mk.injEq] at soupRead protoRead
    refine ⟨isAscii, protoRead.1, ?_⟩
    rw [trimmed] at soupRead
    rw [← soupRead.1]
    exact zero_notMem_cstr session
  · rintro ⟨isAscii, stripped, nulFree⟩
    have both : BothReturn (padLeft 10 session ++ padLeft 20 (decimal sequence.toNat)) session
        sequence := by
      refine ⟨?_, ?_⟩
      · rw [soupLogin_built short, trimmed, cstr_eq_self nulFree]
      · rw [prototypeLogin_built short sequence isAscii, stripped]
    refine ⟨⟨_, encode_loginAccepted short sequence isAscii, both⟩, ?_⟩
    rw [soupBuildLoginAccepted_eq short sequence nulFree]
    exact both

end Built

/-- The parsers agree on a payload exactly if it is plain, and a login comes back from both
exactly if its session is. -/
theorem logins_agree_iff (payload : Bytes) (session : Text) (sequence : UInt64) :
    (payload.length = 30 → IsAscii payload →
      (soupLogin payload = prototypeLogin payload ↔ LoginPlain payload)) ∧
    (session.length ≤ 10 → trimSpaces session = session →
      (LoginRoundTrips session sequence ↔
        IsAscii session ∧ strip session = session ∧ 0 ∉ session)) :=
  ⟨fun length isAscii => soupLogin_eq_prototypeLogin_iff length isAscii,
    fun short trimmed => loginRoundTrips_iff short sequence trimmed⟩

def loginPayload (sequence : String) : Bytes :=
  "   SESSION".toList.map ascii ++ sequence.toList.map ascii

theorem logins_agree_iff_session :
    soupLogin (loginPayload "                   7") =
        prototypeLogin (loginPayload "                   7") ∧
      LoginRoundTrips ("SESSION".toList.map ascii) 18446744073709551615 := by
  have both := logins_agree_iff (loginPayload "                   7") ("SESSION".toList.map ascii)
    18446744073709551615
  have plain : LoginPlain (loginPayload "                   7") := by
    unfold LoginPlain
    decide +kernel
  refine ⟨(both.1 (by decide +kernel) (by decide +kernel)).mpr plain,
    (both.2 (by decide +kernel) (by decide +kernel)).mpr ?_⟩
  decide +kernel

/-- Twenty nines are another number for C++, and digits at the left end of the field are no
number. -/
theorem logins_disagree :
    soupLogin (loginPayload "99999999999999999999") =
        some ("SESSION".toList.map ascii, 7766279631452241919) ∧
      prototypeLogin (loginPayload "99999999999999999999") =
        some ("SESSION".toList.map ascii, 99999999999999999999) ∧
      soupLogin (loginPayload "1                   ") = none ∧
      prototypeLogin (loginPayload "1                   ") =
        some ("SESSION".toList.map ascii, 1) := by
  decide +kernel

end ProtoFH
