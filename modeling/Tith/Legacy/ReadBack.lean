import Tith.Legacy.DateTime

/-!
This module contains the round trip of packets: what is written as a packet is read back as it was.
-/

namespace Tith

namespace Legacy

section Fields

theorem zero_not_mem_utf8 {text : List Char} (h : '\x00' ∉ text) : (0 : UInt8) ∉ utf8 text :=
  Bytes.not_mem_ofString_ofList (by decide) (by decide) h

theorem ofU16_word (n : UInt16) : n.toUInt8.toUInt16 ||| (n >>> 8).toUInt8.toUInt16 <<< 8 = n := by
  apply UInt16.toNat_inj.mp
  have hn := n.toNat_lt
  have hhigh : (n >>> 8).toUInt8.toUInt16.toNat = n.toNat / 256 := by
    simp only [UInt8.toNat_toUInt16, UInt16.toNat_toUInt8, UInt16.toNat_shiftRight, Nat.shiftRight_eq_div_pow]
    rw [show UInt16.toNat 8 % 16 = 8 from rfl]
    omega
  have hshift : ((n >>> 8).toUInt8.toUInt16 <<< 8).toNat = (n.toNat / 256) <<< 8 := by
    rw [UInt16.toNat_shiftLeft, hhigh, show UInt16.toNat 8 % 16 = 8 from rfl, Nat.shiftLeft_eq]
    omega
  have hlow : n.toUInt8.toUInt16.toNat < 2 ^ 8 := by
    rw [UInt8.toNat_toUInt16]
    exact n.toUInt8.toNat_lt
  rw [UInt16.toNat_or, hshift, Nat.or_comm, ← Nat.shiftLeft_add_eq_or_of_lt hlow, Nat.shiftLeft_eq,
    UInt8.toNat_toUInt16, UInt16.toNat_toUInt8]
  omega

theorem u16At_of_eq {bytes after : List UInt8} {n : UInt16} (before : List UInt8) {offset : Nat}
    (hoffset : before.length = offset) (h : bytes = before ++ (ofU16 n ++ after))
    : u16At bytes offset = n := by
  rw [h, ← hoffset]
  unfold u16At ofU16
  simp only [List.getD_eq_getElem?_getD, List.getElem?_append_right (Nat.le_refl _),
    List.getElem?_append_right (Nat.le_succ _)]
  simpa using ofU16_word n

theorem bounded_append {value : List Char} {maximum : Nat} (hnul : '\x00' ∉ value)
    (hlength : (utf8 value).length < maximum) (rest : List UInt8)
    : bounded (utf8 value ++ 0 :: rest) maximum = .ok (value, rest) := by
  have htake : (utf8 value ++ 0 :: rest).take maximum = utf8 value ++ 0 :: rest.take (maximum - (utf8 value).length - 1) := by
    rw [List.take_append, List.take_of_length_le (by omega)]
    obtain ⟨room, hroom⟩ := Nat.exists_eq_add_of_lt hlength
    rw [show maximum - (utf8 value).length = room + 1 by omega, List.take_succ_cons]
    simp
  have hspan : (utf8 value ++ 0 :: rest.take (maximum - (utf8 value).length - 1)).span (· ≠ 0) =
      (utf8 value, 0 :: rest.take (maximum - (utf8 value).length - 1)) := by
    apply List.span_append
    . intro byte hbyte
      rw [decide_eq_true_eq]
      rintro rfl
      exact zero_not_mem_utf8 hnul hbyte
    . simp
  unfold bounded
  rw [htake, hspan]
  dsimp only
  have htext : Bytes.toString? (utf8 value) = some (String.ofList value) := Bytes.toString?_ofString _
  rw [htext, Option.okOr_some, Except.bind_of_ok]
  simp

theorem pushBounded_eq_ok {field : String} {value : List Char} {maximum : Nat} {bytes : List UInt8}
    (h : pushBounded field value maximum = .ok bytes)
    : '\x00' ∉ value ∧ (utf8 value).length < maximum ∧ bytes = utf8 value ++ [0] := by
  unfold pushBounded at h
  split at h
  . cases h
  . next hnul =>
    split at h
    . cases h
    . injection h with h
      exact ⟨by simpa using hnul, by omega, h.symm⟩

end Fields

section Message

variable {message : PackedMessage} {bytes : List UInt8}

def PackedMessage.record (message : PackedMessage) (body rest : List UInt8) : List UInt8 :=
  ofU16 2 ++ (ofU16 message.origin.node ++ (ofU16 message.destination.node ++ (ofU16 message.origin.net ++
    (ofU16 message.destination.net ++ (ofU16 message.attributes ++ (ofU16 0 ++
      (utf8 message.dateTime ++ 0 :: (utf8 message.toUser ++ 0 :: (utf8 message.fromUser ++ 0 ::
        (utf8 message.subject ++ 0 :: (body ++ 0 :: rest)))))))))))

/--
What a message has to meet to be written, and what is written then.
-/
structure PackedMessage.Writes (message : PackedMessage) (body : List Char) : Prop where
  dateTime : '\x00' ∉ message.dateTime ∧ (utf8 message.dateTime).length = 19
  toUser : '\x00' ∉ message.toUser ∧ (utf8 message.toUser).length < nameBytes
  fromUser : '\x00' ∉ message.fromUser ∧ (utf8 message.fromUser).length < nameBytes
  subject : '\x00' ∉ message.subject ∧ (utf8 message.subject).length < subjectBytes
  written : message.body = .ok body
  nul : '\x00' ∉ body

theorem encode_eq_ok (h : message.encode = .ok bytes)
    : ∃ body, message.Writes body ∧ ∀ rest, bytes ++ rest = message.record (utf8 body) rest := by
  unfold PackedMessage.encode at h
  split at h
  . cases h
  . next hlength =>
    simp only [Except.bind_ok_iff] at h
    obtain ⟨«local», hlocal, toUser, htoUser, fromUser, hfromUser, subject, hsubject, body, hbody, hbytes⟩ := h
    split at hbytes
    . cases hbytes
    . next hnul =>
      injection hbytes with hbytes
      obtain ⟨htoNul, htoLength, rfl⟩ := pushBounded_eq_ok htoUser
      obtain ⟨hfromNul, hfromLength, rfl⟩ := pushBounded_eq_ok hfromUser
      obtain ⟨hsubjectNul, hsubjectLength, rfl⟩ := pushBounded_eq_ok hsubject
      obtain ⟨hdateNul, hchars⟩ := text_of_isDateTime (parseDateTime_iff.mp hlocal)
      have hdateTime := length_le_length_utf8 message.dateTime
      have hnineteen : (utf8 message.dateTime).length = 19 := by
        unfold dateTimeBytes at hlength
        omega
      refine ⟨body, ⟨⟨hdateNul, hnineteen⟩, ⟨htoNul, htoLength⟩, ⟨hfromNul, hfromLength⟩, ⟨hsubjectNul, hsubjectLength⟩, hbody,
        by simpa using hnul⟩, ?_⟩
      intro rest
      have hpad : padTo dateTimeBytes (utf8 message.dateTime) = utf8 message.dateTime ++ [0] := by
        unfold padTo dateTimeBytes
        rw [hnineteen]
        rfl
      rw [← hbytes, hpad]
      unfold PackedMessage.record
      simp only [List.append_assoc, List.cons_append, List.nil_append]

theorem encode_of_writes {body : List Char} (h : message.Writes body)
    (hdateTime : ∃ «local», parseDateTime message.dateTime = .ok «local»)
    : ∃ bytes, message.encode = .ok bytes := by
  obtain ⟨«local», hlocal⟩ := hdateTime
  have hpush {field : String} {value : List Char} {maximum : Nat}
      (hvalue : '\x00' ∉ value ∧ (utf8 value).length < maximum)
      : pushBounded field value maximum = .ok (utf8 value ++ [0]) := by
    unfold pushBounded
    rw [if_neg (by simpa using hvalue.1), if_neg (by omega)]
  unfold PackedMessage.encode
  rw [if_neg (by rw [h.dateTime.2]; decide), hlocal, hpush h.toUser, hpush h.fromUser, hpush h.subject, h.written]
  simp only [Except.bind_of_ok]
  rw [if_neg (by simpa using h.nul)]
  exact ⟨_, rfl⟩

/--
The endpoints of a message have the zones and the points of the header.
-/
def Fits (header : PacketHeader) (message : PackedMessage) : Prop :=
  message.origin.zone = header.origin.zone ∧ message.origin.point = header.origin.point ∧
    message.destination.zone = header.destination.zone ∧ message.destination.point = header.destination.point

def PackedMessage.withBody (message : PackedMessage) (body : List Char) : PackedMessage :=
  { message with area := (readBody body).1, controls := (readBody body).2.1, text := (readBody body).2.2 }

theorem parsePacked_record {header : PacketHeader} {body : List Char} (h : message.Writes body)
    (hfits : Fits header message) (rest : List UInt8)
    : parsePacked (message.record (utf8 body) rest) header = .ok (message.withBody body, rest) := by
  -- A written message is read back, but for what its body is read as.
  obtain ⟨hzone, hpoint, hzone', hpoint'⟩ := hfits
  have hlength : ¬(message.record (utf8 body) rest).length < packedHeaderBytes := by
    have hdate := h.dateTime.2
    unfold PackedMessage.record packedHeaderBytes ofU16
    simp only [List.length_append, List.length_cons, List.length_nil]
    omega
  have hunbounded : unbounded (utf8 body ++ 0 :: rest) = .ok (body, rest) := by
    unfold unbounded
    exact bounded_append h.nul (by simp) rest
  unfold parsePacked
  rw [if_neg hlength]
  have hdrop : (message.record (utf8 body) rest).drop 14 =
      utf8 message.dateTime ++ 0 :: (utf8 message.toUser ++ 0 :: (utf8 message.fromUser ++ 0 ::
        (utf8 message.subject ++ 0 :: (utf8 body ++ 0 :: rest)))) := rfl
  rw [hdrop, bounded_append h.dateTime.1 (by rw [h.dateTime.2]; decide), Except.bind_of_ok]
  dsimp only
  rw [bounded_append h.toUser.1 h.toUser.2, Except.bind_of_ok]
  dsimp only
  rw [bounded_append h.fromUser.1 h.fromUser.2, Except.bind_of_ok]
  dsimp only
  rw [bounded_append h.subject.1 h.subject.2, Except.bind_of_ok]
  dsimp only
  rw [hunbounded, Except.bind_of_ok]
  unfold PackedMessage.withBody readBody
  dsimp only
  have hnode : u16At (message.record (utf8 body) rest) 2 = message.origin.node := u16At_of_eq (ofU16 2) rfl rfl
  have hnode' : u16At (message.record (utf8 body) rest) 4 = message.destination.node :=
    u16At_of_eq (ofU16 2 ++ ofU16 message.origin.node) rfl rfl
  have hnet : u16At (message.record (utf8 body) rest) 6 = message.origin.net :=
    u16At_of_eq (ofU16 2 ++ ofU16 message.origin.node ++ ofU16 message.destination.node) rfl rfl
  have hnet' : u16At (message.record (utf8 body) rest) 8 = message.destination.net :=
    u16At_of_eq (ofU16 2 ++ ofU16 message.origin.node ++ ofU16 message.destination.node ++
      ofU16 message.origin.net) rfl rfl
  have hattributes : u16At (message.record (utf8 body) rest) 10 = message.attributes :=
    u16At_of_eq (ofU16 2 ++ ofU16 message.origin.node ++ ofU16 message.destination.node ++
      ofU16 message.origin.net ++ ofU16 message.destination.net) rfl rfl
  rw [← hzone, ← hpoint, ← hzone', ← hpoint', hnode, hnode', hnet, hnet', hattributes]

end Message

section Packet

variable {packet : Packet} {options : PacketOptions}

theorem head_record (message : PackedMessage) (body rest : List UInt8) : u16At (message.record body rest) 0 = 2 :=
  u16At_of_eq [] rfl rfl

theorem encodeMessage_eq_ok {message : PackedMessage} {bytes : List UInt8}
    (h : packet.encodeMessage message = .ok bytes)
    : Fits ⟨packet.origin, packet.destination⟩ message ∧ message.encode = .ok bytes := by
  unfold Packet.encodeMessage at h
  split at h
  . cases h
  . next hfits =>
    simp only [not_or, not_not] at hfits
    exact ⟨hfits, h⟩

def PackedMessage.reread (message : PackedMessage) : PackedMessage :=
  match message.body with
  | .ok body => message.withBody body
  | .error _ => message

theorem parse_go_records {messages : List PackedMessage} {records : List (List UInt8)} {header : PacketHeader}
    (h : messages.mapM packet.encodeMessage = .ok records) (horigin : header.origin = packet.origin)
    (hdestination : header.destination = packet.destination) {fuel : Nat} (hfuel : messages.length ≤ fuel)
    : parse.go header fuel (records.flatten ++ ofU16 0) = .ok (messages.map PackedMessage.reread) := by
  have hall := Except.mapM_forall₂ h
  clear h
  induction hall generalizing fuel with
  | nil =>
    unfold parse.go
    rw [if_neg (by decide), if_pos (by decide)]
    rfl
  | @cons message record messages records hfirst _ ih =>
    obtain ⟨hfits, hencode⟩ := encodeMessage_eq_ok hfirst
    obtain ⟨body, hwrites, hrecord⟩ := encode_eq_ok hencode
    rw [List.flatten_cons, List.append_assoc, hrecord]
    match fuel, hfuel with
    | fuel + 1, hfuel =>
      unfold parse.go
      have hlength : ¬(message.record (utf8 body) (records.flatten ++ ofU16 0)).length < 2 := by
        unfold PackedMessage.record ofU16
        simp only [List.length_append, List.length_cons, List.length_nil]
        omega
      have hreread : message.reread = message.withBody body := by
        unfold PackedMessage.reread
        rw [hwrites.written]
      rw [if_neg hlength, if_neg (by rw [head_record]; decide), if_pos (head_record _ _ _)]
      dsimp only
      have hfits : Fits header message := by
        unfold Fits
        rw [horigin, hdestination]
        exact hfits
      rw [parsePacked_record hwrites hfits, Except.bind_of_ok]
      dsimp only
      rw [ih (Nat.le_of_succ_le_succ hfuel), List.map_cons, hreread]
      rfl

theorem length_padTo {width : Nat} {bytes : List UInt8} (h : bytes.length ≤ width)
    : (padTo width bytes).length = width := by
  unfold padTo
  rw [List.length_append, List.length_replicate]
  omega

def headerBytes (origin destination : Endpoint) (net auxiliaryNet : UInt16) (created : List UInt16)
    (product product' : UInt8 × UInt8) (password data rest : List UInt8)
    : List UInt8 :=
  ofU16 origin.node ++ (ofU16 destination.node ++ (created.flatMap ofU16 ++ (ofU16 0 ++ (ofU16 2 ++ (ofU16 net ++
    (ofU16 destination.net ++ (product.1 :: product.2 :: (password ++ (ofU16 origin.zone ++
      (ofU16 destination.zone ++ (ofU16 auxiliaryNet ++ (ofU16 0x0100 ++ (product'.1 :: product'.2 ::
        (ofU16 0x0001 ++ (ofU16 origin.zone ++ (ofU16 destination.zone ++ (ofU16 origin.point ++
          (ofU16 destination.point ++ (data ++ rest)))))))))))))))))))

theorem header_eq_ok {bytes : List UInt8} (h : packet.header options = .ok bytes) (rest : List UInt8)
    : ∃ created product product' password data,
        created.length = 6 ∧ password.length = 8 ∧ data.length = 4 ∧
        bytes ++ rest = headerBytes packet.origin packet.destination
          (if packet.origin.point = 0 then packet.origin.net else 0xffff)
          (if packet.origin.point = 0 then 0 else packet.origin.net) created product product' password data rest := by
  unfold Packet.header at h
  dsimp only at h
  split at h
  . cases h
  . next hpassword =>
    split at h
    . cases h
    . split at h
      . cases h
      . injection h with h
        set time := civilFromLocal options.created with htime
        refine ⟨[UInt16.ofNat time.year.toNat, UInt16.ofNat (time.month - 1), UInt16.ofNat time.day,
          UInt16.ofNat time.hour, UInt16.ofNat time.minute, UInt16.ofNat time.second],
          (options.productCode.toUInt8, options.revisionMajor),
          ((options.productCode >>> 8).toUInt8, options.revisionMinor),
          padTo passwordBytes (utf8 options.password), Bytes.ofLittleWord32 options.productData, rfl,
          length_padTo (Nat.le_of_not_lt hpassword), rfl, ?_⟩
        rw [← h]
        unfold headerBytes
        split <;> simp only [List.append_assoc, List.flatMap_cons, List.flatMap_nil, List.cons_append, List.nil_append]

theorem parseHeader_header {bytes : List UInt8} (h : packet.header options = .ok bytes) (rest : List UInt8)
    : parseHeader (bytes ++ rest) =
          (if packet.origin.point ≠ 0 ∧ packet.origin.net = 0 then
            .error .missingAuxiliaryNet
          else
            .ok ⟨packet.origin, packet.destination⟩) ∧
        (bytes ++ rest).drop packetHeaderBytes = rest := by
  -- A header gives its endpoints back, except for a point without a net, whose header says the net elsewhere.
  obtain ⟨created, product, product', password, data, hcreated, hpassword, hdata, heq⟩ := header_eq_ok h rest
  rw [heq]
  match created, hcreated, password, hpassword, data, hdata with
  | [c0, c1, c2, c3, c4, c5], _, [p0, p1, p2, p3, p4, p5, p6, p7], _, [d0, d1, d2, d3], _ =>
    refine ⟨?_, rfl⟩
    set bytes := headerBytes packet.origin packet.destination
      (if packet.origin.point = 0 then packet.origin.net else 0xffff)
      (if packet.origin.point = 0 then 0 else packet.origin.net) [c0, c1, c2, c3, c4, c5] product product'
      [p0, p1, p2, p3, p4, p5, p6, p7] [d0, d1, d2, d3] rest with hbytes
    have hnode : u16At bytes 0 = packet.origin.node := ofU16_word _
    have hnode' : u16At bytes 2 = packet.destination.node := ofU16_word _
    have htype : u16At bytes 18 = 2 := ofU16_word 2
    have hnetField : u16At bytes 20 = if packet.origin.point = 0 then packet.origin.net else 0xffff := ofU16_word _
    have hnet' : u16At bytes 22 = packet.destination.net := ofU16_word _
    have hauxiliary : u16At bytes 38 = if packet.origin.point = 0 then 0 else packet.origin.net := ofU16_word _
    have hvalidation : u16At bytes 40 = 0x0100 := ofU16_word _
    have hcapability : u16At bytes 44 = 0x0001 := ofU16_word _
    have hzone : u16At bytes 46 = packet.origin.zone := ofU16_word _
    have hzone' : u16At bytes 48 = packet.destination.zone := ofU16_word _
    have hpoint : u16At bytes 50 = packet.origin.point := ofU16_word _
    have hpoint' : u16At bytes 52 = packet.destination.point := ofU16_word _
    have hlength : ¬bytes.length < packetHeaderBytes := by
      rw [hbytes]
      unfold headerBytes packetHeaderBytes ofU16
      simp only [List.length_append, List.length_cons, List.length_nil, List.flatMap_cons, List.flatMap_nil]
      omega
    unfold parseHeader
    rw [hnode, hnode', htype, hnetField, hnet', hauxiliary, hvalidation, hcapability, hzone, hzone', hpoint, hpoint',
      if_neg hlength, if_neg (by decide), if_neg (by decide)]
    by_cases hzero : packet.origin.point = 0
    . rw [if_neg (by simp [hzero]), if_pos hzero, if_neg (by simp [hzero]), if_neg (by simp [hzero])]
    . by_cases hnet : packet.origin.net = 0 <;> simp [hzero, hnet]

theorem parse_encode {bytes : List UInt8} (h : packet.encode options = .ok bytes)
    : parse bytes =
        if packet.origin.point ≠ 0 ∧ packet.origin.net = 0 then
          .error .missingAuxiliaryNet
        else
          .ok { packet with messages := packet.messages.map PackedMessage.reread } := by
  unfold Packet.encode at h
  simp only [Except.bind_ok_iff] at h
  obtain ⟨header, hheader, records, hrecords, hbytes⟩ := h
  injection hbytes with hbytes
  obtain ⟨hparse, hdrop⟩ := parseHeader_header hheader (records.flatten ++ ofU16 0)
  rw [← List.append_assoc, hbytes] at hparse hdrop
  unfold parse
  rw [hparse]
  split
  . rfl
  . rw [Except.bind_of_ok, hdrop]
    have hfuel : packet.messages.length ≤ bytes.length := by
      have hrecord : ∀ length ∈ records.map List.length, 1 ≤ length := by
        intro length hlength
        obtain ⟨record, hrecord, rfl⟩ := List.mem_map.mp hlength
        obtain ⟨message, _, hmessage⟩ := Except.mapM_mem hrecords hrecord
        obtain ⟨body, _, hbytes⟩ := encode_eq_ok (encodeMessage_eq_ok hmessage).2
        rw [← List.append_nil record, hbytes]
        exact Nat.succ_le_succ (Nat.zero_le _)
      have hle := List.length_le_sum_of_one_le _ hrecord
      rw [List.length_map, ← (Except.mapM_forall₂ hrecords).length_eq, ← List.length_flatten] at hle
      rw [← hbytes, List.length_append, List.length_append]
      omega
    rw [parse_go_records hrecords rfl rfl hfuel]
    rfl

/--
Nothing of the message is taken for something else: its controls are what a reader makes of their payloads, its text
does not begin with a control, and it is not taken for an area line that the message does not have.
-/
def PackedMessage.IsUnambiguous (message : PackedMessage) : Prop :=
  AreRead message.controls ∧ message.text.head? ≠ some controlA ∧ message.LacksArea

theorem splitControls_ne_nil {text : List Char} (h : text.head? = some controlA) : (splitControls text).1 ≠ [] := by
  cases text with
  | nil => cases h
  | cons c after =>
    injection h with hc
    subst hc
    unfold splitControls
    rw [List.length_cons, splitControls_go_succ]
    exact List.cons_ne_nil _ _

theorem reread_eq_iff {message : PackedMessage} {body : List Char} (h : message.body = .ok body)
    : message.reread = message ↔ message.IsUnambiguous := by
  have hreread : message.reread = message.withBody body := by
    unfold PackedMessage.reread
    rw [h]
  have hsame : message.withBody body = message ↔
      readBody body = (message.area, message.controls, message.text) := by
    unfold PackedMessage.withBody
    cases message
    simp only [PackedMessage.mk.injEq, true_and, Prod.ext_iff]
    tauto
  rw [hreread, hsame]
  constructor
  . intro hbody
    have hlacks : message.LacksArea := by
      intro harea hcontrols
      have hwritten : body = message.text := by
        unfold PackedMessage.body areaLine at h
        rw [harea, hcontrols] at h
        injection h with h
        exact h.symm
      rw [hwritten] at hbody
      have hfirst := congrArg Prod.fst hbody
      rw [harea] at hfirst
      exact hfirst
    rw [readBody_of_lacksArea h hlacks] at hbody
    have hcontrols := congrArg (fun parts => parts.2.1) hbody
    dsimp only at hcontrols
    have hnone : (splitControls message.text).1 = [] := by
      have hlength := congrArg List.length hcontrols
      rw [List.length_append, List.length_map, List.length_map] at hlength
      exact List.length_eq_zero_iff.mp (by omega)
    rw [hnone, List.append_nil] at hcontrols
    exact ⟨areRead_iff.mpr hcontrols, fun hhead => splitControls_ne_nil hhead hnone, hlacks⟩
  . rintro ⟨hread, hhead, hlacks⟩
    rw [readBody_of_lacksArea h hlacks, areRead_iff.mp hread, splitControls_of_head_ne hhead, List.append_nil]

/--
A written packet is read back as it was exactly if its point has a net and nothing of its messages is ambiguous.
-/
theorem packet_codec {bytes : List UInt8} (h : packet.encode options = .ok bytes)
    : parse bytes = .ok packet ↔
        (packet.origin.point ≠ 0 → packet.origin.net ≠ 0) ∧
          ∀ message ∈ packet.messages, message.IsUnambiguous := by
  have hmessages : packet.messages.map PackedMessage.reread = packet.messages ↔
      ∀ message ∈ packet.messages, message.IsUnambiguous := by
    conv => lhs; rhs; rw [← List.map_id packet.messages]
    rw [List.map_inj_left]
    apply forall₂_congr
    intro message hmessage
    unfold Packet.encode at h
    simp only [Except.bind_ok_iff] at h
    obtain ⟨_, _, records, hrecords, _⟩ := h
    obtain ⟨record, hrecord⟩ := Except.mapM_of_mem hrecords hmessage
    obtain ⟨body, hwrites, _⟩ := encode_eq_ok (encodeMessage_eq_ok hrecord).2
    exact reread_eq_iff hwrites.written
  rw [parse_encode h, ← hmessages]
  split
  . next hpoint =>
    constructor
    . rintro ⟨⟩
    . rintro ⟨hnet, _⟩
      exact absurd hpoint.2 (hnet hpoint.1)
  . next hpoint =>
    rw [not_and] at hpoint
    constructor
    . intro hsame
      injection hsame with hsame
      exact ⟨hpoint, congrArg Packet.messages hsame⟩
    . rintro ⟨_, hsame⟩
      rw [hsame]

def greeting (text : List Char) : Packet :=
  let origin : Endpoint := ⟨1, 2, 3, 0⟩
  let destination : Endpoint := ⟨1, 2, 4, 0⟩
  ⟨origin, destination, [⟨origin, destination, 0, "01 Jan 70  00:00:00".toList, "B".toList, "A".toList, "Hi".toList, [],
    text, none⟩]⟩

def plainOptions : PacketOptions := ⟨0, 0, 0, 0, [], 0⟩

/--
A message of a point for an area, and mail for a user with a text that would be an area line without the control in
front of it.
-/
def digest : Packet :=
  let origin : Endpoint := ⟨1, 2, 3, 5⟩
  let destination : Endpoint := ⟨1, 2, 4, 0⟩
  let dateTime := "01 Jan 70  00:00:00".toList
  ⟨origin, destination,
    [ ⟨origin, destination, 0, dateTime, "All".toList, "A".toList, "News".toList,
        [.ofPayload "MSGID: 1:2/3.5 00000001".toList, .ofPayload "TZUTC: 0100".toList], "Hello\r".toList,
        some "TEST".toList⟩,
      ⟨origin, destination, 1, dateTime, "B".toList, "A".toList, "Hi".toList, [.ofPayload "FMPT 5".toList],
        "AREA:TEST\r".toList, none⟩ ]⟩

theorem packet_codec_digest
    : ∃ bytes, digest.encode plainOptions = .ok bytes ∧ parse bytes = .ok digest := by
  obtain ⟨bytes, hbytes⟩ := @Except.exists_of_isOk _ _ (digest.encode plainOptions) (by decide +kernel)
  refine ⟨bytes, hbytes, (packet_codec hbytes).mpr ⟨by decide, ?_⟩⟩
  intro message hmessage
  simp only [digest, List.mem_cons, List.not_mem_nil, or_false] at hmessage
  rcases hmessage with rfl | rfl
  . refine ⟨?_, by decide, fun harea => by cases harea⟩
    unfold AreRead
    decide +kernel
  . refine ⟨?_, by decide, fun _ hnone => by cases hnone⟩
    unfold AreRead
    decide +kernel

/--
A text that looks like an area line makes mail for a user mail for an area.
-/
theorem greeting_gets_area
    : ¬∀ (packet : Packet) (options : PacketOptions) (bytes : List UInt8),
        packet.encode options = .ok bytes → parse bytes = .ok packet := by
  intro h
  obtain ⟨bytes, hbytes⟩ := @Except.exists_of_isOk _ _ ((greeting "AREA:TEST\rHello\r".toList).encode plainOptions) (by decide)
  have hparse := h _ _ _ hbytes
  rw [parse_encode hbytes, if_neg (by decide)] at hparse
  injection hparse with hparse
  have harea := congrArg (fun packet => packet.messages.map (·.area)) hparse
  revert harea
  decide

end Packet

end Legacy

end Tith
