import ProtoFH.Foundation.Decimal
import ProtoFH.Foundation.Dictionary
import ProtoFH.Foundation.Execution
import ProtoFH.Foundation.Generator
import ProtoFH.Foundation.Text

/-! # Reading captures

Classic capture files: the global header, the capture records, the two link layers and
the TCP or UDP packet in an IPv4 frame. `reassemble_tcp_streams` joins the TCP payloads
of each direction in sequence order; the times of the records, which it does not use, are
left out. -/

namespace ProtoFH.Prototype

/-- The direction in which a segment travelled: source address and port, destination
address and port. -/
abbrev Direction := Text × Nat × Text × Nat

inductive PcapError where
  | missingMagic
  | unrecognizedMagic (magic : Bytes)
  | truncatedGlobalHeader
  | unsupportedLinktype (linktype : Nat)
  | truncatedRecordHeader
  | truncatedRecordData
  | sequenceGap (key : Direction) (expected got : Nat)
deriving DecidableEq

/-! ## Headers -/

inductive Endian where
  | big
  | little
deriving DecidableEq

def Endian.uint (endian : Endian) (raw : Bytes) : Nat :=
  match endian with
  | .big => beNat raw
  | .little => beNat raw.reverse

def magicTable : List (Bytes × Endian) :=
  [([0xA1, 0xB2, 0xC3, 0xD4], .big), ([0xD4, 0xC3, 0xB2, 0xA1], .little),
    ([0xA1, 0xB2, 0x3C, 0x4D], .big), ([0x4D, 0x3C, 0xB2, 0xA1], .little)]

def globalHeaderRestLen : Nat := 20

/-- `_read_global_header`: the byte order, the link type and the rest of the file. -/
def readGlobalHeader (f : Bytes) : Except PcapError (Endian × Nat × Bytes) :=
  let magic := f.take 4
  if magic.length ≠ 4 then .error .missingMagic
  else
    match magicTable.lookup magic with
    | none => .error (.unrecognizedMagic magic)
    | some endian =>
        let rest := (f.drop 4).take globalHeaderRestLen
        if rest.length ≠ globalHeaderRestLen then .error .truncatedGlobalHeader
        else .ok (endian, endian.uint (rest.drop 16), (f.drop 4).drop globalHeaderRestLen)

/-- The loop of `_iter_raw_frames`: a record header has the time, the captured length and
the original length. -/
def rawFrameGenerator (endian : Endian) : FileGenerator PcapError Bytes :=
  recordGenerator 16 (fun record => endian.uint ((record.drop 8).take 4)) .truncatedRecordHeader
    (fun _ _ => .truncatedRecordData)

/-- `_iter_raw_frames`: the frames yielded and the exception after the last of them. -/
def iterRawFrames (endian : Endian) (f : Bytes) : List Bytes × Option PcapError :=
  (rawFrameGenerator endian).run f

/-! ## Link layers -/

def linktypeEthernet : Nat := 1
def linktypeLinuxSll : Nat := 113

def vlanEthertypes : List Nat := [0x8100, 0x88A8, 0x9100, 0x9200, 0x9300]
def ethertypeIpv4 : Nat := 0x0800
def maxVlanTags : Nat := 8

/-- The loop of `_strip_ethernet` over stacked VLAN tags, of which `hops` more may be
skipped. -/
def skipVlanTags (data : Bytes) : (hops ethertype offset : Nat) → Option (Nat × Nat)
  | 0, ethertype, offset => some (ethertype, offset)
  | hops + 1, ethertype, offset =>
      if ethertype ∈ vlanEthertypes then
        if data.length < offset + 4 then none
        else skipVlanTags data hops (beNat ((data.drop (offset + 2)).take 2)) (offset + 4)
      else some (ethertype, offset)

def stripEthernet (data : Bytes) : Option (Nat × Nat) :=
  if data.length < 14 then none
  else skipVlanTags data maxVlanTags (beNat ((data.drop 12).take 2)) 14

def stripSll (data : Bytes) : Option (Nat × Nat) :=
  if data.length < 16 then none else some (beNat ((data.drop 14).take 2), 16)

def stripLink (linktype : Nat) : Except PcapError (Bytes → Option (Nat × Nat)) :=
  if linktype = linktypeEthernet then .ok stripEthernet
  else if linktype = linktypeLinuxSll then .ok stripSll
  else .error (.unsupportedLinktype linktype)

/-! ## Packets -/

structure UdpPacket where
  srcIp : Text
  dstIp : Text
  sport : Nat
  dport : Nat
  payload : Bytes
deriving DecidableEq

structure TcpPacket where
  srcIp : Text
  dstIp : Text
  sport : Nat
  dport : Nat
  payload : Bytes
  seq : Nat
  ack : Nat
  flags : Nat
deriving DecidableEq

inductive Parsed where
  | udp (packet : UdpPacket)
  | tcp (packet : TcpPacket)
deriving DecidableEq

def ipProtoTcp : UInt8 := 6
def ipProtoUdp : UInt8 := 17

/-- `"{}.{}.{}.{}".format(*octets)` -/
def dotted (octets : Bytes) : Text :=
  [ascii '.'].intercalate (octets.map fun octet => decimal octet.toNat)

def parseUdp (srcIp dstIp : Text) (transport : Bytes) : Option UdpPacket :=
  if transport.length < 8 then none
  else
    let udpLen := beNat ((transport.drop 4).take 2)
    some
      { srcIp, dstIp
        sport := beNat (transport.take 2)
        dport := beNat ((transport.drop 2).take 2)
        payload := if udpLen ≥ 8 then (transport.take udpLen).drop 8 else transport.drop 8 }

def parseTcp (srcIp dstIp : Text) (transport : Bytes) : Option TcpPacket :=
  if transport.length < 20 then none
  else
    let offsetFlags := beNat ((transport.drop 12).take 2)
    let dataOffset := (offsetFlags >>> 12) * 4
    if dataOffset < 20 ∨ transport.length < dataOffset then none
    else
      some
        { srcIp, dstIp
          sport := beNat (transport.take 2)
          dport := beNat ((transport.drop 2).take 2)
          payload := transport.drop dataOffset
          seq := beNat ((transport.drop 4).take 4)
          ack := beNat ((transport.drop 8).take 4)
          flags := offsetFlags &&& 0x3F }

def parseIpv4AndTransport (ipData : Bytes) : Option Parsed :=
  if ipData.length < 20 then none
  else
    let verIhl := (ipData.headD 0).toNat
    let ihl := (verIhl &&& 0x0F) * 4
    if verIhl >>> 4 ≠ 4 then none
    else if ihl < 20 ∨ ipData.length < ihl then none
    else
      let totalLen := beNat ((ipData.drop 2).take 2)
      let ipProto := (ipData.drop 9).headD 0
      let srcIp := dotted ((ipData.drop 12).take 4)
      let dstIp := dotted ((ipData.drop 16).take 4)
      let ipEnd := if totalLen ≥ ihl then min ipData.length totalLen else ipData.length
      let transport := (ipData.take ipEnd).drop ihl
      if ipProto = ipProtoUdp then (parseUdp srcIp dstIp transport).map .udp
      else if ipProto = ipProtoTcp then (parseTcp srcIp dstIp transport).map .tcp
      else none

def tcpPacket (strip : Bytes → Option (Nat × Nat)) (frame : Bytes) : Option TcpPacket := do
  let (ethertype, offset) ← strip frame
  if ethertype ≠ ethertypeIpv4 then none
  else
    match ← parseIpv4AndTransport (frame.drop offset) with
    | .udp _ => none
    | .tcp packet => some packet

/-! ## Reassembly -/

def tcpFlagFin : Nat := 0x01
def tcpFlagSyn : Nat := 0x02

namespace TcpPacket

def key (packet : TcpPacket) : Direction :=
  (packet.srcIp, packet.sport, packet.dstIp, packet.dport)

def hasSyn (packet : TcpPacket) : Bool := packet.flags &&& tcpFlagSyn ≠ 0

def hasFin (packet : TcpPacket) : Bool := packet.flags &&& tcpFlagFin ≠ 0

def consumed (packet : TcpPacket) : Nat :=
  packet.payload.length + (if packet.hasSyn then 1 else 0) + (if packet.hasFin then 1 else 0)

end TcpPacket

/-- `(seq - next_expected) & 0xFFFFFFFF` -/
def seqDelta (seq nextExpected : Nat) : Int := ((seq : Int) - nextExpected) % 2 ^ 32

/-- The variables of `reassemble_tcp_streams` that live through its loop. -/
structure Reassembly where
  expectedSeq : Dict Direction Nat := ∅
  streams : Dict Direction Bytes := ∅

namespace Reassembly

def synchronize (state : Reassembly) (packet : TcpPacket) : Reassembly :=
  match state.expectedSeq.find? packet.key with
  | none =>
      { expectedSeq := state.expectedSeq.set packet.key packet.seq
        streams := state.streams.set packet.key [] }
  | some _ => state

def splice (state : Reassembly) (packet : TcpPacket) : Except PcapError Reassembly :=
  let nextExpected := (state.expectedSeq.find? packet.key).getD 0
  let delta := seqDelta packet.seq nextExpected
  if delta = 0 then
    .ok
      { expectedSeq := state.expectedSeq.set packet.key
          ((nextExpected + packet.consumed) % 2 ^ 32)
        streams := state.streams.set packet.key
          ((state.streams.find? packet.key).getD [] ++ packet.payload) }
  else if delta < 0x80000000 then .error (.sequenceGap packet.key nextExpected packet.seq)
  else .ok state

def accept (state : Reassembly) (packet : TcpPacket) : Except PcapError Reassembly :=
  (state.synchronize packet).splice packet

def step (strip : Bytes → Option (Nat × Nat)) (state : Reassembly) (frame : Bytes) :
    Except PcapError Reassembly :=
  match tcpPacket strip frame with
  | none => .ok state
  | some packet => state.accept packet

private theorem foldlM_step (strip : Bytes → Option (Nat × Nat)) (frames : List Bytes)
    (state : Reassembly) :
    frames.foldlM (step strip) state =
      (frames.filterMap (tcpPacket strip)).foldlM accept state := by
  rw [List.foldlM_filterMap]
  congr 1
  funext state frame
  rw [step]
  cases tcpPacket strip frame <;> rfl

end Reassembly

def reassembleTcpStreams (f : Bytes) : Except PcapError (Dict Direction Bytes) := do
  let (endian, linktype, rest) ← readGlobalHeader f
  let strip ← stripLink linktype
  let (frames, raised) := iterRawFrames endian rest
  let state ← frames.foldlM (Reassembly.step strip) {}
  match raised with
  | some error => .error error
  | none => .ok state.streams

/-- The TCP packets in the frames of a capture, up to where it cannot be read further. -/
def capturedPackets (f : Bytes) : Except PcapError (List TcpPacket) := do
  let (endian, linktype, rest) ← readGlobalHeader f
  let strip ← stripLink linktype
  return (iterRawFrames endian rest).1.filterMap (tcpPacket strip)

theorem reassembleTcpStreams_eq_ok {f : Bytes} {streams : Dict Direction Bytes}
    (returned : reassembleTcpStreams f = .ok streams) :
    ∃ packets state, capturedPackets f = .ok packets ∧
      packets.foldlM Reassembly.accept {} = .ok state ∧ state.streams = streams := by
  rcases except_bind_eq_ok.mp returned with ⟨⟨endian, linktype, rest⟩, header, opened⟩
  rcases except_bind_eq_ok.mp opened with ⟨strip, chosen, looped⟩
  have captured : capturedPackets f =
      .ok ((iterRawFrames endian rest).1.filterMap (tcpPacket strip)) := by
    rw [capturedPackets, header]
    change stripLink linktype >>= _ = _
    rw [chosen]
    rfl
  generalize iterRawFrames endian rest = found at looped captured
  rcases found with ⟨frames, raised⟩
  rcases except_bind_eq_ok.mp looped with ⟨state, ran, ended⟩
  rw [Reassembly.foldlM_step] at ran
  cases raised with
  | none =>
      cases ended
      exact ⟨_, state, captured, ran, rfl⟩
  | some error => cases ended

end ProtoFH.Prototype
