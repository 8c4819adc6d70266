import Tith.Legacy.Compatibility
import Tith.Legacy.ReadBack

/-!
This module contains what a packet has room for: which messages can be written, and which Messages that the
converter accepts are among them.
-/

namespace Tith

namespace Legacy

/--
A text that a field of a packed message holds together with its NUL.
-/
def FitsField (value : List Char) (maximum : Nat) : Prop := '\x00' ∉ value ∧ (utf8 value).length < maximum

instance (value : List Char) (maximum : Nat) : Decidable (FitsField value maximum) := instDecidableAnd

section Write

variable {message : PackedMessage}

theorem length_utf8_of_formatDateTime {value : List Char} {instant : Int} (h : formatDateTime instant = .ok value)
    : (utf8 value).length = 19 := by
  obtain ⟨_, _, _, _, _, _, rfl, hlengths, _⟩ := exists_fields_of_isDateTime (formatDateTime_iff.mp h)
  exact (isShaped_layout hlengths).1

theorem encode_isOk_iff {instant : Int} (hdateTime : formatDateTime instant = .ok message.dateTime)
    : (∃ bytes, message.encode = .ok bytes) ↔
        FitsField message.toUser nameBytes ∧ FitsField message.fromUser nameBytes ∧
          FitsField message.subject subjectBytes ∧ ∃ body, message.body = .ok body ∧ '\x00' ∉ body := by
  constructor
  . rintro ⟨bytes, hbytes⟩
    obtain ⟨body, hwrites, _⟩ := encode_eq_ok hbytes
    exact ⟨hwrites.toUser, hwrites.fromUser, hwrites.subject, body, hwrites.written, hwrites.nul⟩
  . rintro ⟨htoUser, hfromUser, hsubject, body, hbody, hnul⟩
    have hinstant := formatDateTime_iff.mp hdateTime
    have hlength := length_utf8_of_formatDateTime hdateTime
    exact encode_of_writes ⟨⟨(text_of_isDateTime hinstant).1, hlength⟩, htoUser, hfromUser, hsubject, hbody, hnul⟩
      ⟨instant, parseDateTime_iff.mpr hinstant⟩

theorem body_isOk_iff (hcontrols : AreParsed message.controls)
    : (∃ body, message.body = .ok body ∧ '\x00' ∉ body) ↔
        (∀ area ∈ message.area, validArea area = true) ∧ '\x00' ∉ message.text := by
  obtain ⟨paragraphs, hwritten, hquiet⟩ : ∃ paragraphs,
      message.controls.mapM (fun value => control value.raw) = .ok paragraphs ∧ '\x00' ∉ paragraphs.flatten := by
    refine ⟨message.controls.map fun value => controlA :: value.raw ++ ['\r'], ?_, ?_⟩
    . apply Except.mapM_of_forall₂
      rw [List.forall₂_map_right_iff, List.forall₂_same]
      intro value hvalue
      exact hcontrols.written hvalue
    . rw [List.mem_flatten]
      rintro ⟨paragraph, hparagraph, hmem⟩
      obtain ⟨value, hvalue, rfl⟩ := List.mem_map.mp hparagraph
      obtain ⟨_, _, _, _, hnul⟩ := control_eq_ok (hcontrols.written hvalue)
      simp only [List.mem_append, List.mem_cons, List.not_mem_nil, or_false] at hmem
      rcases hmem with (hmem | hmem) | hmem
      . exact absurd hmem (by decide)
      . exact hnul hmem
      . exact absurd hmem (by decide)
  unfold PackedMessage.body areaLine
  rw [hwritten]
  split
  . next hnone =>
    simp only [Except.bind_of_ok, List.nil_append, Except.ok.injEq, exists_eq_left', List.mem_append, not_or, hquiet,
      not_false_eq_true, true_and, hnone, Option.mem_def, reduceCtorEq, false_implies, implies_true]
  . next area hsome =>
    by_cases hvalid : validArea area = true
    . have harea : '\x00' ∉ "AREA:".toList ++ area ++ ['\r'] := by
        simpa using not_mem_of_validArea hvalid (by decide)
      rw [if_pos hvalid]
      simp only [Except.bind_of_ok, Except.ok.injEq, exists_eq_left', @List.mem_append _ _ _ paragraphs.flatten,
        @List.mem_append _ _ _ message.text, not_or, hquiet, harea, not_false_eq_true, true_and, hsome, Option.mem_def,
        Option.some.injEq, forall_eq', hvalid]
    . rw [if_neg hvalid]
      simp [hsome, hvalid]

end Write

section Convert

variable {read : ReadMessage} {context : Context} {warning : Option String}

theorem mem_of_mem_foldBreaks {c : Char} (hc : c ≠ '\r') {text : List Char} (h : c ∈ foldBreaks text) : c ∈ text := by
  fun_induction foldBreaks text with
  | case1 => exact h
  | case2 rest ih =>
    rcases List.mem_cons.mp h with h | h
    . exact absurd h hc
    . exact List.mem_cons_of_mem _ (List.mem_cons_of_mem _ (ih h))
  | case3 rest ih =>
    rcases List.mem_cons.mp h with h | h
    . exact absurd h hc
    . exact List.mem_cons_of_mem _ (ih h)
  | case4 d rest _ _ ih =>
    rcases List.mem_cons.mp h with rfl | h
    . exact List.mem_cons_self
    . exact List.mem_cons_of_mem _ (ih h)

theorem not_mem_encodeBody {text body : List Char} (h : encodeBody text = .ok body) : '\x00' ∉ body := by
  unfold encodeBody at h
  split at h
  . cases h
  . next hnul =>
    injection h with h
    have hfold : '\x00' ∉ foldBreaks text := fun hmem => hnul (by simpa using mem_of_mem_foldBreaks (by decide) hmem)
    rw [← h]
    unfold terminated
    split
    . simpa using hfold
    . exact hfold

theorem nul_mem_tearLineOf (value : Option String) : '\x00' ∈ tearLineOf value ↔ '\x00' ∈ (value.getD "").toList := by
  have hmark : '\x00' ∉ "--- ".toList := by decide
  have hshort : '\x00' ∉ "---".toList := by decide
  unfold tearLineOf
  split
  . split
    . simp only [List.mem_append, hmark, false_or, Option.getD_some]
    . next hempty =>
      rw [not_not] at hempty
      simp only [Option.getD_some, hempty, hshort, List.not_mem_nil]
  . exact iff_of_false hshort (by decide)

theorem nul_mem_originLineOf (value : Option String)
    : '\x00' ∈ originLineOf value ↔ '\x00' ∈ (value.getD "").toList := by
  have hmark : '\x00' ∉ " * Origin: ".toList := by decide
  unfold originLineOf
  simp only [List.mem_append, hmark, false_or]

/--
The tear line and the Origin line have no NUL where they are written.
-/
def FitsFooter (read : ReadMessage) : Prop :=
  read.data.area.isSome = true →
    '\x00' ∉ (read.data.tearLine.getD "").toList ∧ '\x00' ∉ (read.data.originLine.getD "").toList

theorem nul_not_mem_messageFoot_iff {foot : List Char} (h : messageFoot read context = .ok foot)
    : '\x00' ∉ foot ↔ FitsFooter read := by
  unfold messageFoot at h
  unfold FitsFooter
  split at h
  . next area harea =>
    unfold echomailFooter at h
    rw [Except.bind_ok_iff] at h
    obtain ⟨lines, hlines, hfoot⟩ := h
    injection hfoot with hfoot
    obtain ⟨_, _, rfl⟩ := footerLines_eq_ok hlines
    have hseenBy := @not_mem_seenBy read context '\x00' (by decide)
    have hrest : ∀ line ∈ seenByLines seenByStart (seenByEntries none (recipients read context)),
        '\x00' ∉ line ++ ['\r'] := fun line hline => by simpa using hseenBy line hline
    rw [← hfoot, harea, List.flatMap_cons, List.flatMap_cons, List.mem_append, List.mem_append, List.mem_append,
      List.mem_append, nul_mem_tearLineOf, nul_mem_originLineOf, List.mem_flatMap]
    simp only [List.mem_singleton, Char.reduceEq, or_false, not_or, not_exists, not_and, Option.isSome_some,
      true_implies]
    exact and_congr_right fun _ => and_iff_left hrest
  . next hnone =>
    rw [Except.bind_ok_iff] at h
    obtain ⟨paragraphs, hparagraphs, hfoot⟩ := h
    injection hfoot with hfoot
    rw [← hfoot, hnone]
    refine iff_of_true ?_ (by simp)
    rw [List.mem_flatten]
    rintro ⟨paragraph, hparagraph, hmem⟩
    obtain ⟨via, _, hvia⟩ := Except.mapM_mem hparagraphs hparagraph
    unfold viaParagraph at hvia
    simp only [Except.bind_ok_iff, Except.mapError_eq_ok] at hvia
    obtain ⟨line, _, hline⟩ := hvia
    obtain ⟨rfl, _, _, _, hnul⟩ := control_eq_ok hline
    simp only [List.mem_append, List.mem_cons, List.not_mem_nil, or_false] at hmem
    rcases hmem with (hmem | hmem) | hmem
    . exact absurd hmem (by decide)
    . exact hnul hmem
    . exact absurd hmem (by decide)

theorem nul_not_mem_messageBody_iff {text : List Char} (h : messageBody read context warning = .ok text)
    : '\x00' ∉ text ↔ FitsFooter read := by
  unfold messageBody at h
  simp only [Except.bind_ok_iff, Except.mapError_eq_ok] at h
  obtain ⟨head, hhead, middle, hmiddle, foot, hfoot, htext⟩ := h
  injection htext with htext
  have hquiet : '\x00' ∉ head := by
    unfold warningText at hhead
    split at hhead
    . injection hhead with hhead
      rw [← hhead]
      exact List.not_mem_nil
    . simp only [Except.bind_ok_iff, Except.mapError_eq_ok] at hhead
      obtain ⟨body, hbody, hhead⟩ := hhead
      injection hhead with hhead
      rw [← hhead]
      simpa using not_mem_encodeBody hbody
  rw [← htext, ← nul_not_mem_messageFoot_iff hfoot]
  simp [hquiet, not_mem_encodeBody hmiddle]

/--
The subject that a Message gets: its own, or the list of its files.
-/
def legacySubject (read : ReadMessage) : List Char :=
  if read.data.attachments = [] then
    read.data.subject.toList
  else
    [' '].intercalate (read.data.attachments.map fun attachment => (attachment.filename.getD "").toList)

theorem messageSubject_eq_ok {subject : List Char} (h : messageSubject read = .ok subject)
    : subject = legacySubject read := by
  unfold messageSubject at h
  unfold legacySubject
  split at h
  . next hnil =>
    injection h with h
    rw [if_pos hnil, h]
  . next hne =>
    split at h
    . cases h
    . injection h with h
      rw [if_neg hne, h]

/--
What the texts of a message are, and where its endpoints come from.
-/
structure IsBuilt (read : ReadMessage) (context : Context) (warning : Option String) (message : PackedMessage) : Prop where
  origin : endpoint context.packetOrigin = .ok message.origin
  destination : endpoint context.packetDestination = .ok message.destination
  dateTime : ∃ instant, formatDateTime instant = .ok message.dateTime
  toUser : message.toUser = read.data.toUser.toList
  fromUser : message.fromUser = read.data.fromUser.toList
  subject : message.subject = legacySubject read
  attributes : messageAttributes read = .ok message.attributes
  controls : AreParsed message.controls
  text : messageBody read context warning = .ok message.text
  area : messageArea read context = .ok message.area
  attachments : ∀ attachment ∈ read.data.attachments,
    ∃ filename, attachment.filename = some filename ∧ validateFileSpec filename.toList = .ok ()

theorem attachments_of_messageControls {signingControls : List (List Char)} {controls : List Control}
    (h : messageControls read context signingControls = .ok controls)
    : ∀ attachment ∈ read.data.attachments,
        ∃ filename, attachment.filename = some filename ∧ validateFileSpec filename.toList = .ok () := by
  unfold messageControls at h
  simp only [Except.bind_ok_iff] at h
  obtain ⟨_, _, _, _, _, _, _, _, _, _, _, _, _, _, assoc, hassoc, _⟩ := h
  intro attachment hattachment
  obtain ⟨control, hcontrol⟩ := Except.mapM_of_mem hassoc hattachment
  unfold associatedControl at hcontrol
  simp only [Except.bind_ok_iff, Option.okOr_eq_ok] at hcontrol
  obtain ⟨filename, hfilename, _, hvalid, _⟩ := hcontrol
  exact ⟨filename, hfilename, hvalid⟩

theorem isBuilt_of_build {signingControls : List (List Char)} {message : PackedMessage}
    (h : build read context warning signingControls = .ok message)
    : IsBuilt read context warning message := by
  unfold build at h
  simp only [Except.bind_ok_iff, Except.mapError_eq_ok] at h
  obtain ⟨time, _, controls, hcontrols, text, htext, attributes, hattributes, subject, hsubject, origin, horigin,
    destination, hdestination, dateTime, hdateTime, area, harea, hmessage⟩ := h
  injection hmessage with hmessage
  subst hmessage
  exact ⟨horigin, hdestination, ⟨_, hdateTime⟩, rfl, rfl, messageSubject_eq_ok hsubject, hattributes,
    (areParsed_messageControls hcontrols).1, htext, harea, attachments_of_messageControls hcontrols⟩

theorem isBuilt_of_toLegacy {c : Crypto} {base64 : Nodelist.Base64} {authentication : ItemAuthentication}
    {resolver : KeyResolver} {converted : Converted} (h : toLegacy c base64 read context authentication warning resolver = .ok converted)
    : IsBuilt read context warning converted.message := by
  by_cases hfidelity : converted.fidelity = .canonical
  . unfold toLegacy at h
    rw [Except.bind_ok_iff] at h
    obtain ⟨message, _, h⟩ := h
    split at h
    . next signature heligible _ =>
      simp only [Except.bind_ok_iff] at h
      obtain ⟨signingControls, _, candidate, hcandidate, h⟩ := h
      unfold isEligible at heligible
      simp only [Bool.and_eq_true, Option.isNone_iff_eq_none] at heligible
      rw [heligible.1.2]
      split at h
      . injection h with h
        rw [← h]
        exact isBuilt_of_build hcandidate
      . injection h with h
        rw [← h] at hfidelity
        cases hfidelity
    . injection h with h
      rw [← h] at hfidelity
      cases hfidelity
  . obtain ⟨message, hmessage, ⟨_, heq⟩ | ⟨_, _, heq⟩⟩ := toLegacy_compatibility h hfidelity
    . rw [heq]
      exact isBuilt_of_build hmessage
    . rw [heq]
      have hbuilt := isBuilt_of_build hmessage
      exact { hbuilt with controls := fun value hvalue => hbuilt.controls value (List.mem_filter.mp hvalue).1 }

structure FitsPacket (read : ReadMessage) (context : Context) : Prop where
  toUser : FitsField read.data.toUser.toList nameBytes
  fromUser : FitsField read.data.fromUser.toList nameBytes
  subject : FitsField (legacySubject read) subjectBytes
  area : ∀ area ∈ read.data.area, ∀ tag ∈ context.areaTags[area.name]?, validArea tag.toList = true
  footer : FitsFooter read

theorem validArea_iff {area : Option (List Char)} (h : messageArea read context = .ok area)
    : (∀ tag ∈ area, validArea tag = true) ↔
        ∀ area ∈ read.data.area, ∀ tag ∈ context.areaTags[area.name]?, validArea tag.toList = true := by
  unfold messageArea at h
  split at h
  . next hnone =>
    injection h with h
    rw [← h, hnone]
    simp
  . next area hsome =>
    rw [Except.bind_ok_iff] at h
    obtain ⟨tag, htag, h⟩ := h
    injection h with h
    rw [Context.areaTag, Option.okOr_eq_ok] at htag
    rw [← h, hsome]
    simp [htag]

theorem IsBuilt.encode_isOk_iff {message : PackedMessage} (h : IsBuilt read context warning message)
    : (∃ bytes, message.encode = .ok bytes) ↔ FitsPacket read context := by
  obtain ⟨instant, hinstant⟩ := h.dateTime
  rw [Legacy.encode_isOk_iff hinstant, body_isOk_iff h.controls, nul_not_mem_messageBody_iff h.text,
    validArea_iff h.area, h.toUser, h.fromUser, h.subject]
  constructor
  . rintro ⟨htoUser, hfromUser, hsubject, harea, hfooter⟩
    exact ⟨htoUser, hfromUser, hsubject, harea, hfooter⟩
  . rintro ⟨htoUser, hfromUser, hsubject, harea, hfooter⟩
    exact ⟨htoUser, hfromUser, hsubject, harea, hfooter⟩

end Convert

section Packet

/--
The values of a header that do not come from the messages.
-/
structure FitsHeader (options : PacketOptions) : Prop where
  length : (utf8 options.password).length ≤ passwordBytes
  nul : '\x00' ∉ options.password
  year : 0 ≤ (civilFromLocal options.created).year ∧ (civilFromLocal options.created).year < 2 ^ 16

theorem header_isOk_iff {packet : Packet} {options : PacketOptions}
    : (∃ bytes, packet.header options = .ok bytes) ↔ FitsHeader options := by
  unfold Packet.header
  dsimp only
  by_cases hlength : passwordBytes < (utf8 options.password).length
  . rw [if_pos hlength]
    exact iff_of_false (by simp) (fun h => absurd h.length (not_le.mpr hlength))
  . rw [if_neg hlength]
    by_cases hnul : options.password.contains '\x00' = true
    . rw [if_pos hnul]
      exact iff_of_false (by simp) (fun h => h.nul (by simpa using hnul))
    . rw [if_neg hnul]
      by_cases hyear : 0 ≤ (civilFromLocal options.created).year ∧ (civilFromLocal options.created).year < 2 ^ 16
      . rw [if_neg (not_not.mpr hyear)]
        exact iff_of_true ⟨_, rfl⟩ ⟨not_lt.mp hlength, by simpa using hnul, hyear⟩
      . rw [if_pos hyear]
        exact iff_of_false (by simp) (fun h => hyear h.year)

theorem encode_singleton_isOk_iff {message : PackedMessage} {options : PacketOptions}
    : (∃ bytes, Packet.encode ⟨message.origin, message.destination, [message]⟩ options = .ok bytes) ↔
        FitsHeader options ∧ ∃ bytes, message.encode = .ok bytes := by
  rw [← @header_isOk_iff ⟨message.origin, message.destination, [message]⟩]
  have hmessage : Packet.encodeMessage ⟨message.origin, message.destination, [message]⟩ message = message.encode := by
    unfold Packet.encodeMessage
    rw [if_neg (by simp)]
  unfold Packet.encode
  rw [List.mapM_cons, List.mapM_nil, hmessage]
  simp only [Except.bind_ok_iff]
  constructor
  . rintro ⟨bytes, header, hheader, records, ⟨record, hrecord, _⟩, _⟩
    exact ⟨⟨header, hheader⟩, record, hrecord⟩
  . rintro ⟨⟨header, hheader⟩, record, hrecord⟩
    exact ⟨_, header, hheader, [record], ⟨record, hrecord, [], rfl, rfl⟩, rfl⟩

end Packet

end Legacy

end Tith
