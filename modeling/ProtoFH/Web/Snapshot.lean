import ProtoFH.Db.Query
import ProtoFH.Web.Http

/-! # The snapshot of the database

One `SNAP` round trip: the command is sent, the reply is gathered up to its lone dot, and
every line behind the header is decoded like a record from the feed. Base64 is decoded as
RFC 4648 says. -/

namespace ProtoFH.Web

inductive SnapError where
  | socket (text : Text)
  | emptyReply
  | rejected (line : Text)
  | malformedHeader (line : Text)
  | missingField (line : Text)
  | badBase64 (line : Text)
  | badRecord (error : CodecError)
  | notUpdate (record : Record)
  | truncated (got : Nat) (count : Int)
deriving DecidableEq

inductive SnapFailure where
  | reported (error : SnapError)
  | raised (error : StructError)
deriving DecidableEq

def partition (token : Text) : Option (Text × Text) :=
  if ascii '=' ∈ token then
    some (token.takeWhile (· ≠ ascii '='), (token.dropWhile (· ≠ ascii '=')).drop 1)
  else none

def parseHeader (line : Text) : Option (Dict Text Text) :=
  match words line with
  | [] => none
  | first :: tokens =>
      if first ≠ label "SNAP" then none
      else
        some (tokens.foldl
          (fun fields token =>
            match partition token with
            | none => fields
            | some (key, value) => fields.set key value)
          ∅)

def headerNumbers (fields : Dict Text Text) : Option (Int × Int) := do
  let epoch ← parseInt (← fields.find? (label "epoch"))
  let count ← parseInt (← fields.find? (label "count"))
  return (epoch, count)

def parseSnapRow (line : Text) : Except SnapFailure Update :=
  match Base64.decode line with
  | none => .error (.reported (.badBase64 line))
  | some raw =>
      match decodeRecord raw with
      | .error (.struct error) => .error (.raised error)
      | .error error => .error (.reported (.badRecord error))
      | .ok (.update rec) => .ok rec
      | .ok record => .error (.reported (.notUpdate record))

def parseSnapRows : List Text → Except SnapFailure (List Update)
  | [] => .ok []
  | line :: lines =>
      if line = [] then parseSnapRows lines
      else do
        let row ← parseSnapRow line
        let rows ← parseSnapRows lines
        return row :: rows

/-- `_parse_snap_reply`: the rows and the epoch of the header. -/
def parseSnapReply (text : Text) : Except SnapFailure (List Update × Int) :=
  match replyLines text with
  | [] => .error (.reported .emptyReply)
  | header :: rows =>
      if (label "ERR").isPrefixOf header then .error (.reported (.rejected header))
      else
        match parseHeader header with
        | none => .error (.reported (.malformedHeader header))
        | some fields =>
            match headerNumbers fields with
            | none => .error (.reported (.missingField header))
            | some (epoch, count) => do
                let rows ← parseSnapRows rows
                if rows.length ≠ count then .error (.reported (.truncated rows.length count))
                else return (rows, epoch)

/-- What `on_done` of a snapshot query is called with. -/
abbrev SnapOutcome := Except SnapError (List Update × Int)

def snapReader : ReplyReader SnapOutcome StructError where
  failed error := .error (.socket error)
  read text :=
    match parseSnapReply text with
    | .ok reply => .ok (.ok reply)
    | .error (.reported error) => .ok (.error error)
    | .error (.raised error) => .error error

/-- `SnapshotQuery`, with the calls of `on_done` so far. -/
abbrev SnapshotQuery := DbQuery SnapOutcome StructError

namespace SnapshotQuery

def step (query : SnapshotQuery) (event : QueryEvent) : SnapshotQuery :=
  DbQuery.step snapReader query event

def start (refused : Option Text) : SnapshotQuery :=
  DbQuery.start snapReader (label "SNAP\n") refused

def cancel (query : SnapshotQuery) : SnapshotQuery := { query with finished := true }

end SnapshotQuery

end ProtoFH.Web
