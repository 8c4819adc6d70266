import Tith.Adapter.Disposition

/-!
This module contains the files that a packet and a TIC refer to, as a tosser reads them, and that these are the files
of the item under the names that the conversion has written.
-/

namespace Tith

namespace Adapter

open Legacy (ConvertError IsBuilt)

section Read

def packetFiles (bytes : List UInt8) : List (List Char) :=
  match Legacy.parse bytes with
  | .error _ => []
  | .ok packet =>
    packet.messages.flatMap fun message =>
      if message.hasFileAttached then (message.subject.splitOn ' ').filter (· ≠ []) else []

def ticFiles (bytes : List UInt8) : List (List Char) :=
  match Bytes.toString? bytes with
  | none => []
  | some text =>
    (text.toList.splitOn '\n').filterMap fun line =>
      ("File ".toList.isPrefixOf? line).map fun value => value.takeWhile (· ≠ '\r')

def Publication.files (object : Publication) : Option (List (List Char)) :=
  match object.kind with
  | .packet _ => some (packetFiles object.contents)
  | .tic _ => some (ticFiles object.contents)
  | .companion | .notice => none

end Read

section Tic

/--
A line of a TIC that is no File line.
-/
structure IsAside (line : List Char) : Prop where
  unbroken : '\n' ∉ line
  keyword : "File ".toList.isPrefixOf? line = none

theorem ticLine_eq_ok {keyword : String} {value line : List Char} (h : ticLine keyword value = .ok line)
    : line = keyword.toList ++ ' ' :: value ∧ '\n' ∉ value ∧ '\r' ∉ value := by
  unfold ticLine at h
  split at h
  . cases h
  . next hany =>
    injection h with h
    rw [List.any_eq_true] at hany
    exact ⟨h.symm, fun hmem => hany ⟨_, hmem, by simp⟩, fun hmem => hany ⟨_, hmem, by simp⟩⟩

/--
The lines of the keyword are not taken for File lines.
-/
structure IsAsideKeyword (keyword : String) : Prop where
  unbroken : '\n' ∉ keyword.toList
  line : ∀ value, "File ".toList.isPrefixOf? (keyword.toList ++ ' ' :: value) = none

theorem isAside_ticLine {keyword : String} {value line : List Char} (hkeyword : IsAsideKeyword keyword)
    (h : ticLine keyword value = .ok line)
    : IsAside line := by
  obtain ⟨rfl, hn, _⟩ := ticLine_eq_ok h
  refine ⟨?_, hkeyword.line value⟩
  rw [List.mem_append, List.mem_cons, not_or, not_or]
  exact ⟨hkeyword.unbroken, by decide, hn⟩

def AreAside (lines : List (List Char)) : Prop := ∀ line ∈ lines, IsAside line

theorem areAside_cons {line : List Char} {lines : List (List Char)} (h : IsAside line) (h' : AreAside lines)
    : AreAside (line :: lines) := by
  intro line' hline'
  rcases List.mem_cons.mp hline' with rfl | hline'
  . exact h
  . exact h' line' hline'

theorem areAside_append {lines lines' : List (List Char)} (h : AreAside lines) (h' : AreAside lines')
    : AreAside (lines ++ lines') := by
  intro line hline
  rcases List.mem_append.mp hline with hline | hline
  . exact h line hline
  . exact h' line hline

theorem areAside_nil : AreAside [] := fun _ hline => absurd hline List.not_mem_nil

theorem areAside_optionalTicLine {keyword : String} {value : Option (List Char)} {lines : List (List Char)}
    (hkeyword : IsAsideKeyword keyword) (h : optionalTicLine keyword value = .ok lines)
    : AreAside lines := by
  unfold optionalTicLine at h
  split at h
  . injection h with h
    rw [← h]
    exact areAside_nil
  . obtain ⟨line, hline, rfl⟩ := Legacy.one_eq_ok h
    exact areAside_cons (isAside_ticLine hkeyword hline) areAside_nil

theorem areAside_mapM {α : Type} {f : α → Except ConvertError (List Char)} {l : List α} {lines : List (List Char)}
    (hf : ∀ a line, f a = .ok line → IsAside line) (h : l.mapM f = .ok lines)
    : AreAside lines := by
  intro line hline
  obtain ⟨a, _, ha⟩ := Except.mapM_mem h hline
  exact hf a line ha

theorem isAside_ticAddressLine {context : Legacy.Context} {keyword : String} {address : Address} {line : List Char}
    (hkeyword : IsAsideKeyword keyword) (h : ticAddressLine context keyword address = .ok line)
    : IsAside line := by
  unfold ticAddressLine at h
  rw [Except.bind_ok_iff] at h
  obtain ⟨text, _, hline⟩ := h
  exact isAside_ticLine hkeyword hline

section Lines

variable {file : ReadFile} {context : Legacy.Context} {options : TicOptions}

theorem fileLine_eq_ok {line : List Char} (h : fileLine options = .ok line)
    : line = "File".toList ++ ' ' :: options.transferName.toList ∧ '\n' ∉ options.transferName.toList ∧
        '\r' ∉ options.transferName.toList := by
  unfold fileLine at h
  split at h
  . exact ticLine_eq_ok h
  . cases h

theorem areAside_longNameLine {lines : List (List Char)} (h : longNameLine file options = .ok lines)
    : AreAside lines := by
  unfold longNameLine at h
  rw [Except.bind_ok_iff] at h
  obtain ⟨filename, _, h⟩ := h
  exact areAside_optionalTicLine ⟨by decide, fun _ => rfl⟩ h

theorem ticHead_eq_ok {lines : List (List Char)} (h : ticHead file context options = .ok lines)
    : ∃ before name after, lines = before ++ name :: after ∧ AreAside before ∧ AreAside after ∧
        fileLine options = .ok name := by
  unfold ticHead at h
  simp only [Except.bind_ok_iff] at h
  obtain ⟨area, _, tag, _, areaLine, harea, origin, horigin, sender, hsender, recipient, hrecipient, name, hname, longName,
    hlongName, hlines⟩ := h
  injection hlines with hlines
  refine ⟨areaLine :: origin :: sender :: recipient, name, longName, hlines.symm, ?_, areAside_longNameLine hlongName,
    hname⟩
  refine areAside_cons (isAside_ticLine ⟨by decide, fun _ => rfl⟩ harea) ?_
  refine areAside_cons (isAside_ticAddressLine ⟨by decide, fun _ => rfl⟩ horigin) ?_
  refine areAside_cons (isAside_ticAddressLine ⟨by decide, fun _ => rfl⟩ hsender) ?_
  exact areAside_optionalTicLine ⟨by decide, fun _ => rfl⟩ hrecipient

theorem areAside_ticDescription {lines : List (List Char)} (h : ticDescription file = .ok lines) : AreAside lines := by
  unfold ticDescription at h
  simp only [Except.bind_ok_iff] at h
  obtain ⟨size, hsize, date, hdate, description, hdescription, longDescription, hlongDescription, created, hcreated,
    magic, hmagic, replaces, hreplaces, crc, hcrc, hlines⟩ := h
  injection hlines with hlines
  have hlong : AreAside longDescription :=
    areAside_mapM (fun _ _ hline => isAside_ticLine ⟨by decide, fun _ => rfl⟩ hline) hlongDescription
  rw [← hlines]
  refine areAside_append (areAside_append (areAside_append (areAside_append (areAside_append (areAside_append
    (areAside_cons (isAside_ticLine ⟨by decide, fun _ => rfl⟩ hsize)
      (areAside_optionalTicLine ⟨by decide, fun _ => rfl⟩ hdate))
    (areAside_optionalTicLine ⟨by decide, fun _ => rfl⟩ hdescription)) hlong)
    (areAside_optionalTicLine ⟨by decide, fun _ => rfl⟩ hcreated))
    (areAside_optionalTicLine ⟨by decide, fun _ => rfl⟩ hmagic))
    (areAside_optionalTicLine ⟨by decide, fun _ => rfl⟩ hreplaces)) ?_
  exact areAside_cons (isAside_ticLine ⟨by decide, fun _ => rfl⟩ hcrc) areAside_nil

theorem areAside_ticWay {lines : List (List Char)} (h : ticWay file context options = .ok lines) : AreAside lines := by
  unfold ticWay at h
  simp only [Except.bind_ok_iff] at h
  obtain ⟨path, hpath, seenBy, hseenBy, password, hpassword, hlines⟩ := h
  injection hlines with hlines
  have hpath : AreAside path := by
    apply areAside_mapM _ hpath
    intro via line hline
    unfold pathLine at hline
    split at hline
    . cases hline
    . rw [Except.bind_ok_iff] at hline
      obtain ⟨address, _, hline⟩ := hline
      exact isAside_ticLine ⟨by decide, fun _ => rfl⟩ hline
  have hseenBy : AreAside seenBy :=
    areAside_mapM (fun _ _ hline => isAside_ticAddressLine ⟨by decide, fun _ => rfl⟩ hline) hseenBy
  rw [← hlines]
  exact areAside_append (areAside_append hpath hseenBy) (areAside_optionalTicLine ⟨by decide, fun _ => rfl⟩ hpassword)

theorem splitOn_lines {lines : List (List Char)} (h : ∀ line ∈ lines, '\n' ∉ line)
    : (lines.flatMap (· ++ "\r\n".toList)).splitOn '\n' = lines.map (· ++ ['\r']) ++ [[]] := by
  induction lines with
  | nil => rfl
  | cons line lines ih =>
    have hline : '\n' ∉ line ++ ['\r'] := by
      rw [List.mem_append, not_or]
      exact ⟨h line List.mem_cons_self, by decide⟩
    have hsplit : line ++ "\r\n".toList ++ lines.flatMap (· ++ "\r\n".toList) =
        (line ++ ['\r']) ++ '\n' :: lines.flatMap (· ++ "\r\n".toList) := by
      simp
    rw [List.flatMap_cons, hsplit, List.splitOn_append_cons_self_of_not_mem hline,
      ih (fun line hmem => h line (List.mem_cons_of_mem _ hmem))]
    rfl

theorem isPrefixOf?_append_none {p l r : List Char} (h : p.isPrefixOf? l = none) (hr : ∀ c ∈ r, c ∉ p)
    : p.isPrefixOf? (l ++ r) = none := by
  induction p generalizing l with
  | nil => cases l <;> cases h
  | cons a p ih =>
    cases l with
    | nil =>
      cases r with
      | nil => exact h
      | cons b r =>
        have hne : (a == b) = false := by
          rw [beq_eq_false_iff_ne]
          rintro rfl
          exact hr a List.mem_cons_self List.mem_cons_self
        simp [List.isPrefixOf?, hne]
    | cons b l =>
      simp only [List.isPrefixOf?] at h
      simp only [List.cons_append, List.isPrefixOf?]
      split
      . next heq =>
        rw [if_pos heq] at h
        exact ih h (fun c hc hmem => hr c hc (List.mem_cons_of_mem _ hmem))
      . rfl

theorem ticFiles_toTic {text : List Char} (h : toTic file context options = .ok text)
    : ticFiles (Legacy.utf8 text) = [options.transferName.toList] := by
  unfold toTic ticLines at h
  simp only [Except.bind_ok_iff] at h
  obtain ⟨lines, ⟨head, hhead, description, hdescription, way, hway, hlines⟩, htext⟩ := h
  injection hlines with hlines
  injection htext with htext
  obtain ⟨before, name, after, rfl, hbefore, hafter, hname⟩ := ticHead_eq_ok hhead
  obtain ⟨rfl, hn, hr⟩ := fileLine_eq_ok hname
  have hrest : AreAside (after ++ description ++ way) :=
    areAside_append (areAside_append hafter (areAside_ticDescription hdescription)) (areAside_ticWay hway)
  have hall : lines = before ++ ("File".toList ++ ' ' :: options.transferName.toList) :: (after ++ description ++ way) := by
    rw [← hlines]
    simp
  have hunbroken : ∀ line ∈ lines, '\n' ∉ line := by
    intro line hline
    rw [hall, List.mem_append, List.mem_cons] at hline
    rcases hline with hline | rfl | hline
    . exact (hbefore line hline).unbroken
    . rw [List.mem_append, List.mem_cons, not_or, not_or]
      exact ⟨by decide, by decide, hn⟩
    . exact (hrest line hline).unbroken
  have hread : Bytes.toString? (Legacy.utf8 text) = some (String.ofList text) := Bytes.toString?_ofString _
  have haside {lines : List (List Char)} (haside : AreAside lines)
      : (lines.map (· ++ ['\r'])).filterMap (fun line =>
          ("File ".toList.isPrefixOf? line).map fun value => value.takeWhile (· ≠ '\r')) = [] := by
    rw [List.filterMap_map, List.filterMap_eq_nil_iff]
    intro line hline
    dsimp only [Function.comp]
    have hr : ∀ c ∈ ['\r'], c ∉ "File ".toList := by
      intro c hc
      rw [List.mem_singleton.mp hc]
      decide
    rw [isPrefixOf?_append_none (haside line hline).keyword hr]
    rfl
  have hown : "File ".toList.isPrefixOf? ("File".toList ++ ' ' :: options.transferName.toList ++ ['\r']) =
      some (options.transferName.toList ++ ['\r']) := by
    rw [List.isPrefixOf?_eq_some]
    rfl
  have htake : (options.transferName.toList ++ ['\r']).takeWhile (· ≠ '\r') = options.transferName.toList := by
    rw [List.takeWhile_append_of_pos]
    . simp
    . intro c hc
      rw [decide_eq_true_eq]
      rintro rfl
      exact hr hc
  have htoList : (String.ofList text).toList = text := String.toList_ofList
  unfold ticFiles
  rw [hread]
  dsimp only
  rw [htoList, ← htext, splitOn_lines hunbroken, hall, List.map_append, List.map_cons, List.filterMap_append,
    List.filterMap_append, List.filterMap_cons, haside hbefore, haside hrest, hown]
  dsimp only [Option.map_some]
  rw [htake]
  rfl

end Lines

end Tic

section Packet

variable {read : ReadMessage} {context : Legacy.Context} {warning : Option String} {message : Legacy.PackedMessage}

theorem net_pos {address : Address} (h : address.isAnonymous = false) : 1 ≤ address.net := by
  have hzone : address.zone ≠ -1 := by
    intro hzone
    rw [Address.isAnonymous, hzone] at h
    cases h
  have hvalid := address.valid
  unfold validateAddress at hvalid
  split at hvalid
  . cases hvalid
  . split at hvalid
    . cases hvalid
    . split at hvalid
      . cases hvalid
      . split at hvalid
        . cases hvalid
        . next hrange =>
          rw [not_or, not_not, not_not] at hrange
          exact hrange.1.1

theorem endpoint_net_ne_zero {address : Address} {endpoint : Legacy.Endpoint} (h : Legacy.endpoint address = .ok endpoint)
    : endpoint.net ≠ 0 := by
  unfold Legacy.endpoint at h
  split at h
  . cases h
  . next hnamed =>
    have hpos := net_pos (Bool.eq_false_iff.mpr hnamed)
    simp only [Except.bind_ok_iff] at h
    obtain ⟨zone, _, net, hnet, node, _, h⟩ := h
    injection h with h
    unfold Legacy.toField at hnet
    split at hnet
    . next hrange =>
      injection hnet with hnet
      rw [← h, ← hnet]
      intro hzero
      have hvalue := congrArg UInt16.toNat hzero
      rw [UInt16.toNat_ofNat_of_lt' (by rw [UInt16.size]; omega)] at hvalue
      change address.net.toNat = 0 at hvalue
      omega
    . cases hnet

theorem hasFileAttached_iff {attributes : UInt16} (h : Legacy.messageAttributes read = .ok attributes)
    : attributes &&& Legacy.attributeFileAttached ≠ 0 ↔ read.data.attachments ≠ [] := by
  have hset (x : UInt16) : (x ||| Legacy.attributeFileAttached) &&& Legacy.attributeFileAttached ≠ 0 := by
    intro hzero
    have hbit := congrArg (fun word => word.toBitVec.getLsbD 4) hzero
    simp [Legacy.attributeFileAttached] at hbit
  have hclear (x : UInt16) : x &&& ~~~Legacy.attributeFileAttached &&& Legacy.attributeFileAttached = 0 := by
    rw [UInt16.and_assoc, UInt16.and_comm (~~~Legacy.attributeFileAttached), UInt16.and_not_self, UInt16.and_zero]
  unfold Legacy.messageAttributes at h
  dsimp only at h
  split at h
  . cases h
  . split at h
    . next hne =>
      injection h with h
      rw [← h]
      exact iff_of_true (hset _) hne
    . next hnil =>
      injection h with h
      rw [← h]
      exact iff_of_false (not_not.mpr (hclear _)) hnil

theorem splitOn_legacySubject (hne : read.data.attachments ≠ [])
    (h : ∀ attachment ∈ read.data.attachments,
      ∃ filename, attachment.filename = some filename ∧ Legacy.validateFileSpec filename.toList = .ok ())
    : ((Legacy.legacySubject read).splitOn ' ').filter (· ≠ []) =
        (read.data.attachments.filterMap (·.filename)).map String.toList := by
  have hnames : read.data.attachments.map (fun attachment => (attachment.filename.getD "").toList) =
      (read.data.attachments.filterMap (·.filename)).map String.toList := by
    clear hne
    generalize read.data.attachments = attachments at h
    induction attachments with
    | nil => rfl
    | cons attachment attachments ih =>
      obtain ⟨filename, hfilename, _⟩ := h attachment List.mem_cons_self
      rw [List.map_cons, List.filterMap_cons, hfilename, ih (fun a ha => h a (List.mem_cons_of_mem _ ha))]
      rfl
  have hvalid : ∀ name ∈ (read.data.attachments.filterMap (·.filename)).map String.toList, ' ' ∉ name ∧ name ≠ [] := by
    intro name hname
    obtain ⟨filename, hmem, rfl⟩ := List.mem_map.mp hname
    obtain ⟨attachment, hattachment, hfilename⟩ := List.mem_filterMap.mp hmem
    obtain ⟨filename', hfilename', hvalid⟩ := h attachment hattachment
    rw [hfilename'] at hfilename
    injection hfilename with hfilename
    subst hfilename
    unfold Legacy.validateFileSpec at hvalid
    split at hvalid
    . cases hvalid
    . next hnot =>
      rw [not_or, not_or] at hnot
      refine ⟨?_, hnot.1⟩
      intro hspace
      exact hnot.2.1 (List.any_eq_true.mpr ⟨_, hspace, by decide⟩)
  unfold Legacy.legacySubject
  rw [if_neg hne, hnames, List.splitOn_intercalate ' ' (fun name hname => (hvalid name hname).1) ?_]
  . rw [List.filter_eq_self]
    intro name hname
    rw [decide_eq_true_eq]
    exact (hvalid name hname).2
  . rw [← hnames]
    simpa using hne

theorem packetFiles_encodePacket {password : String} {now : Int} {bytes : List UInt8}
    (hbuilt : IsBuilt read context warning message) (h : encodePacket context message password now = .ok bytes)
    : packetFiles bytes = (read.data.attachments.filterMap (·.filename)).map String.toList := by
  unfold encodePacket at h
  rw [endpointOf_eq hbuilt.origin, endpointOf_eq hbuilt.destination] at h
  have hparse := Legacy.parse_encode h
  rw [if_neg (fun hpoint => endpoint_net_ne_zero hbuilt.origin hpoint.2)] at hparse
  have hsame : message.reread.subject = message.subject ∧ message.reread.attributes = message.attributes := by
    unfold Legacy.PackedMessage.reread
    split
    . exact ⟨rfl, rfl⟩
    . exact ⟨rfl, rfl⟩
  have hattached := hasFileAttached_iff hbuilt.attributes
  unfold packetFiles
  rw [hparse]
  simp only [List.map_cons, List.map_nil, List.flatMap_cons, List.flatMap_nil, List.append_nil]
  unfold Legacy.PackedMessage.hasFileAttached
  rw [hsame.1, hsame.2, hbuilt.subject]
  by_cases hne : read.data.attachments = []
  . rw [if_neg (by simpa [hne] using hattached), hne]
    rfl
  . rw [if_pos (by simpa [hne] using hattached), splitOn_legacySubject hne hbuilt.attachments]

end Packet

end Adapter

end Tith
