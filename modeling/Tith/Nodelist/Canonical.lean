import Tith.Lib.Base64
import Tith.Nodelist.FlagText

/-!
This module contains the agreement of all lists of flags with their parsers: which spellings of a list
are the one that its text has.
-/

namespace Tith

namespace Nodelist

/-!
Flags of the telephone network.
-/

theorem display_pstn (text : List Char) (flag : PstnIsdnFlag) (h : parsePstnIsdnFlag text = .ok flag)
    : flag.display = text := by
  have hall : ∀ entry ∈ PstnIsdnFlag.registry, entry.1.display = entry.2.toList := by decide
  unfold parsePstnIsdnFlag at h
  split at h
  . next entry hfind =>
    cases h
    rw [hall entry (List.mem_of_find?_eq_some hfind)]
    simpa using List.find?_some hfind
  . cases h

theorem pstn_hasText : HasText PstnIsdnFlag.display parsePstnIsdnFlag where
  parse_display flag := by cases flag <;> rfl
  ne_nil flag := by cases flag <;> decide
  comma_not_mem flag := by cases flag <;> decide

theorem readsTexts_of_mapM {α : Type} {parseFlag : List Char → Except NodelistErrorKind α}
    {check : List α → Except NodelistErrorKind Unit} (hnil : check [] = .ok ())
    : ReadsTexts
        (fun value => do
          let texts ← splitFlags value
          let flags ← texts.mapM parseFlag
          check flags
          .ok flags)
        parseFlag (fun flags => check flags = .ok ()) where
  ok_iff value flags := by
    simp only [Except.bind_ok_iff, Except.ok.injEq]
    constructor
    . rintro ⟨texts, hsplit, flags, hmap, _, hcheck, rfl⟩
      exact ⟨texts, hsplit, hmap, hcheck⟩
    . rintro ⟨texts, hsplit, hmap, hcheck⟩
      exact ⟨texts, hsplit, flags, hmap, (), hcheck, rfl⟩
  check_nil := hnil

theorem pstn_isCanonical : IsCanonical PstnIsdnFlag.display parsePstnIsdn :=
  isCanonical_of (readsTexts_of_mapM rfl) pstn_hasText display_pstn

/-!
Flags of electronic mail.
-/

theorem stripName_eq_some {name : String} {text rest : List Char}
    : stripName name text = some rest ↔ text = name.toList ++ rest :=
  List.isPrefixOf?_eq_some

theorem display_email (text : List Char) (flag : EmailFlag)
    (h : parseEmailFlag text EmailMethod.registry = .ok flag)
    : flag.display = text := by
  have hnames : ∀ entry ∈ EmailMethod.registry, entry.2.name = entry.1 := by decide
  generalize EmailMethod.registry = registry at h hnames
  induction registry with
  | nil => cases h
  | cons entry registry ih =>
    obtain ⟨name, method⟩ := entry
    rw [List.forall_mem_cons] at hnames
    unfold parseEmailFlag at h
    split at h
    . exact ih h hnames.2
    . next hstrip =>
      cases h
      rw [EmailFlag.display, stripName_eq_some.mp hstrip, hnames.1, List.append_nil]
    . next address hstrip =>
      rw [Except.bind_ok_iff] at h
      obtain ⟨address', haddress, h⟩ := h
      cases h
      unfold parseEmailAddress at haddress
      split at haddress
      . cases haddress
        rw [EmailFlag.display, stripName_eq_some.mp hstrip, hnames.1]
      . cases haddress
    . cases h

theorem parseEmailAddress_value (address : EmailAddress) : parseEmailAddress address.value = .ok address := by
  unfold parseEmailAddress
  rw [dif_pos address.valid]

theorem EmailAddress.comma_not_mem (address : EmailAddress) : ',' ∉ address.value := by
  intro hmem
  have hvalid := address.valid
  simp only [validEmailAddress, Bool.and_eq_true, Bool.not_eq_true', List.any_eq_false] at hvalid
  simpa using hvalid.2 ',' hmem

theorem EmailMethod.name_eq (method : EmailMethod)
    : method.name =
        match method with
        | .unspecified => "IEM"
        | .transx => "ITX"
        | .uuencode => "IUC"
        | .mime => "IMI"
        | .seat => "ISE"
        | .voyager => "EVY"
        | .other => "EMA" := by
  cases method <;> decide

theorem email_hasText : HasText EmailFlag.display (fun text => parseEmailFlag text EmailMethod.registry) where
  parse_display flag := by
    obtain ⟨method, address⟩ := flag
    cases address with
    | none => cases method <;> rfl
    | some address =>
      rw [EmailFlag.display, EmailMethod.name_eq]
      cases method <;>
      simp [EmailMethod.registry, parseEmailFlag, stripName, List.isPrefixOf?, parseEmailAddress_value]
  ne_nil flag := by
    obtain ⟨method, address⟩ := flag
    cases address with
    | none => cases method <;> decide
    | some address => simp [EmailFlag.display]
  comma_not_mem flag := by
    have hname : ∀ method : EmailMethod, ',' ∉ method.name.toList := by
      intro method
      cases method <;> decide
    obtain ⟨method, address⟩ := flag
    cases address with
    | none => exact hname method
    | some address => simp [EmailFlag.display, hname, address.comma_not_mem]

theorem email_isCanonical : IsCanonical EmailFlag.display parseEmail :=
  isCanonical_of (readsTexts_of_mapM rfl) email_hasText display_email

/-!
Other flags.
-/

theorem display_other (text : List Char) (flag : OtherFlag) (h : parseOtherFlag text = .ok flag)
    : flag.display = text := by
  have hall : ∀ entry ∈ AssignedFlag.registry, entry.1.name = entry.2 := by decide
  unfold parseOtherFlag at h
  split at h
  . next entry hfind =>
    cases h
    rw [OtherFlag.display, hall entry (List.mem_of_find?_eq_some hfind)]
    simpa using List.find?_some hfind
  . split at h
    . cases h
      rfl
    . cases h

theorem ExtensionFlag.find_none (flag : ExtensionFlag)
    : AssignedFlag.registry.find? (fun entry => entry.2.toList = flag.value) = none := by
  have hvalid := flag.valid
  simp only [validExtension, assignedName, Bool.and_eq_true, Bool.not_eq_true', Bool.or_eq_false_iff] at hvalid
  have hnot := hvalid.2.1.2
  rw [List.find?_eq_none]
  intro entry hmem
  simp only [decide_eq_true_eq]
  intro heq
  have hcontains : (AssignedFlag.registry.map (fun entry => entry.2.toList)).contains flag.value = true := by
    rw [List.contains_iff_mem, ← heq]
    exact List.mem_map_of_mem hmem
  rw [hcontains] at hnot
  cases hnot

theorem other_hasText : HasText OtherFlag.display parseOtherFlag where
  parse_display flag := by
    cases flag with
    | assigned flag => cases flag <;> rfl
    | extension flag =>
      unfold parseOtherFlag OtherFlag.display
      dsimp only
      rw [flag.find_none]
      dsimp only
      rw [dif_pos flag.valid]
  ne_nil flag := by
    cases flag with
    | assigned flag => cases flag <;> decide
    | extension flag =>
      intro hnil
      have hvalid := flag.valid
      change flag.value = [] at hnil
      rw [hnil] at hvalid
      exact absurd hvalid (by decide)
  comma_not_mem flag := by
    cases flag with
    | assigned flag => cases flag <;> decide
    | extension flag =>
      intro hmem
      have hvalid := flag.valid
      simp only [validExtension, Bool.and_eq_true, List.all_eq_true] at hvalid
      exact absurd (hvalid.1.2 ',' hmem) (by decide)

theorem other_isCanonical : IsCanonical OtherFlag.display parseOther :=
  isCanonical_of (readsTexts_of_mapM rfl) other_hasText display_other

/-!
Flags of the Internet.
-/

/--
What the encoding library documents for its alphabet without padding.
-/
structure Base64.IsUnpadded (base64 : Base64) : Prop where
  decode_encode (bytes : List UInt8) : base64.decode (base64.encode bytes) = some bytes
  length_encode (bytes : List UInt8) : (base64.encode bytes).length = (4 * bytes.length + 2) / 3
  mem_encode {bytes : List UInt8} {c : Char} (h : c ∈ base64.encode bytes)
    : c.isAlphanum = true ∨ c = '+' ∨ c = '/'

section Internet
variable {base64 : Base64} (hbase : base64.IsUnpadded)
include hbase

theorem not_mem_key {c : Char} (h : ¬(c.isAlphanum = true ∨ c = '+' ∨ c = '/')) (key : PublicKey)
    : c ∉ base64.encode key.toList :=
  fun hmem => h (hbase.mem_encode hmem)

theorem parsePublicKey_encode (key : PublicKey)
    : parsePublicKey base64 (base64.encode key.toList) = .ok key := by
  have hlength : (base64.encode key.toList).length = 43 := by
    rw [hbase.length_encode, Vector.length_toList]
  unfold parsePublicKey
  rw [if_neg]
  . rw [hbase.decode_encode, Option.bind_some, fixed_toList, Option.okOr_some]
  . simp [hlength, not_mem_key hbase (c := '=') (by decide) key]

theorem parseIih_display (endpoint : EndpointSpec) (key : PublicKey) {text : List Char}
    (h : (InternetFlag.tith endpoint key).display base64 = "IIH:".toList ++ text)
    : parseIih base64 text = .ok (.tith endpoint key) := by
  have hcolon : ':' ∉ base64.encode key.toList := not_mem_key hbase (by decide) key
  unfold InternetFlag.display at h
  dsimp only at h
  unfold parseIih
  split at h
  . next hinherited =>
    have htext : text = base64.encode key.toList := (List.append_cancel_left h).symm
    have hendpoint : endpoint = .inherited := by
      obtain ⟨server, port, hport⟩ := endpoint
      cases server <;> cases port <;> simp_all [EndpointSpec.isInherited, EndpointSpec.inherited]
    rw [htext, Text.rsplitOnce_of_not_mem hcolon, hendpoint, Option.getD_none]
    dsimp only
    rw [parsePublicKey_encode hbase]
    rfl
  . rw [List.append_assoc] at h
    have htext : text = endpoint.display ++ ':' :: base64.encode key.toList := (List.append_cancel_left h).symm
    rw [htext, Text.rsplitOnce_append hcolon, Option.getD_some]
    dsimp only
    rw [parseEndpoint_display, Except.bind_of_ok, parsePublicKey_encode hbase, Except.bind_of_ok]

end Internet

theorem exists_displayProtocol (name : String) (endpoint : EndpointSpec)
    : ∃ rest, displayProtocol name endpoint = name.toList ++ rest ∧
        parseProtocol (name.toList ++ rest) name = .ok (some endpoint) := by
  unfold displayProtocol
  split
  . next hinherited =>
    have hendpoint : endpoint = .inherited := by
      obtain ⟨server, port, hport⟩ := endpoint
      cases server <;> cases port <;> simp_all [EndpointSpec.isInherited, EndpointSpec.inherited]
    refine ⟨[], by simp, ?_⟩
    unfold parseProtocol
    rw [stripName_eq_some.mpr rfl, hendpoint]
    rfl
  . refine ⟨':' :: endpoint.display, rfl, ?_⟩
    unfold parseProtocol
    rw [stripName_eq_some.mpr rfl]
    change (parseEndpoint endpoint.display >>= fun endpoint => .ok (some endpoint)) = _
    rw [parseEndpoint_display, Except.bind_of_ok]

theorem parseProtocols_of_mem {text : List Char} {name : String} {construct : EndpointSpec → InternetFlag}
    {endpoint : EndpointSpec} (hread : parseProtocol text name = .ok (some endpoint))
    {protocols : List (String × (EndpointSpec → InternetFlag))} (hmem : (name, construct) ∈ protocols)
    (hnodup : (protocols.map Prod.fst).Nodup)
    (hother : ∀ entry ∈ protocols, entry.1 ≠ name → stripName entry.1 text = none)
    : parseProtocols text protocols = .ok (construct endpoint) := by
  induction protocols with
  | nil => cases hmem
  | cons entry protocols ih =>
    rw [List.map_cons, List.nodup_cons] at hnodup
    rw [List.forall_mem_cons] at hother
    rcases List.mem_cons.mp hmem with rfl | hmem
    . rw [parseProtocols, hread]
      rfl
    . have hne : entry.1 ≠ name := by
        intro heq
        exact hnodup.1 (heq ▸ List.mem_map_of_mem hmem)
      rw [parseProtocols, parseProtocol, hother.1 hne]
      exact ih hmem hnodup.2 hother.2

theorem stripName_of_protocol {name other : String} (hname : name ∈ protocols.map Prod.fst)
    (hother : other ∈ "INA:" :: "IIH:" :: protocols.map Prod.fst) (hne : other ≠ name) (rest : List Char)
    : stripName other (name.toList ++ rest) = none := by
  simp only [protocols, List.map_cons, List.map_nil, List.mem_cons, List.not_mem_nil, or_false] at hname hother
  rcases hname with rfl | rfl | rfl | rfl | rfl | rfl <;>
  rcases hother with rfl | rfl | rfl | rfl | rfl | rfl | rfl | rfl <;>
  first
    | exact absurd rfl hne
    | simp [stripName, List.isPrefixOf?]

theorem parseInternetFlag_protocol {base64 : Base64} {name : String}
    {construct : EndpointSpec → InternetFlag} (hmem : (name, construct) ∈ protocols) {endpoint : EndpointSpec}
    (hdisplay : (construct endpoint).display base64 = displayProtocol name endpoint)
    : parseInternetFlag base64 ((construct endpoint).display base64) = .ok (construct endpoint) := by
  obtain ⟨rest, htext, hread⟩ := exists_displayProtocol name endpoint
  have hname : name ∈ protocols.map Prod.fst := List.mem_map_of_mem hmem
  have hlonger : ∀ other ∈ protocols.map Prod.fst, "INA:" ≠ other ∧ "IIH:" ≠ other := by decide
  have hparse : parseProtocols (name.toList ++ rest) protocols = .ok (construct endpoint) := by
    apply parseProtocols_of_mem hread hmem (by decide)
    intro entry hentry hne
    exact stripName_of_protocol hname (by simp [List.mem_map_of_mem hentry]) hne rest
  unfold parseInternetFlag
  rw [hdisplay, htext, stripName_of_protocol hname (by simp) (hlonger name hname).1,
    stripName_of_protocol hname (by simp) (hlonger name hname).2]
  dsimp only
  rw [hparse, Except.bind_of_ok, hdisplay, htext, if_neg (by simp)]

theorem display_internet {base64 : Base64} (text : List Char) (flag : InternetFlag)
    (h : parseInternetFlag base64 text = .ok flag)
    : flag.display base64 = text := by
  have hlast (read : InternetFlag)
      (h : (if read.display base64 ≠ text then Except.error NodelistErrorKind.invalidFlag else .ok read) = .ok flag)
      : flag.display base64 = text := by
    split at h
    . cases h
    . next htext =>
      cases h
      simpa using htext
  unfold parseInternetFlag at h
  dsimp only at h
  split at h
  . simp only [Except.bind_ok_iff, Except.ok.injEq] at h
    obtain ⟨_, _, read, rfl, h⟩ := h
    exact hlast _ h
  . split at h
    . rw [Except.bind_ok_iff] at h
      obtain ⟨read, _, h⟩ := h
      exact hlast read h
    . rw [Except.bind_ok_iff] at h
      obtain ⟨read, _, h⟩ := h
      exact hlast read h

theorem exists_displayTith (base64 : Base64) (endpoint : EndpointSpec) (key : PublicKey)
    : ∃ text, (InternetFlag.tith endpoint key).display base64 = "IIH:".toList ++ text := by
  unfold InternetFlag.display
  dsimp only
  split
  . exact ⟨_, rfl⟩
  . exact ⟨_, List.append_assoc _ _ _⟩

theorem comma_not_mem_protocol {name : String} (hname : ',' ∉ name.toList) (endpoint : EndpointSpec)
    : ',' ∉ displayProtocol name endpoint := by
  unfold displayProtocol
  split
  . exact hname
  . simp [hname, endpoint.comma_not_mem]

theorem displayProtocol_ne_nil {name : String} (hname : name.toList ≠ []) (endpoint : EndpointSpec)
    : displayProtocol name endpoint ≠ [] := by
  obtain ⟨rest, htext, _⟩ := exists_displayProtocol name endpoint
  simp [htext, hname]

theorem internet_hasText {base64 : Base64} (hbase : base64.IsUnpadded)
    : HasText (InternetFlag.display base64) (parseInternetFlag base64) where
  parse_display flag := by
    cases flag with
    | defaultServer server =>
      unfold parseInternetFlag InternetFlag.display
      dsimp only
      rw [stripName_eq_some.mpr rfl]
      dsimp only
      rw [parseServer_value, Except.bind_of_ok, Except.bind_of_ok]
      rw [if_neg (by simp)]
    | tith endpoint key =>
      obtain ⟨text, htext⟩ := exists_displayTith base64 endpoint key
      have hstrip : stripName "INA:" ("IIH:".toList ++ text) = none := by simp [stripName, List.isPrefixOf?]
      unfold parseInternetFlag
      rw [htext, hstrip, stripName_eq_some.mpr rfl]
      dsimp only
      rw [parseIih_display hbase endpoint key htext, Except.bind_of_ok, if_neg (by simp [htext])]
    | noIncomingIpv4 => rfl
    | binkp endpoint => exact @parseInternetFlag_protocol _ "IBN" .binkp (by simp [protocols]) _ rfl
    | ifcico endpoint => exact @parseInternetFlag_protocol _ "IFC" .ifcico (by simp [protocols]) _ rfl
    | ftp endpoint => exact @parseInternetFlag_protocol _ "IFT" .ftp (by simp [protocols]) _ rfl
    | telnet endpoint => exact @parseInternetFlag_protocol _ "ITN" .telnet (by simp [protocols]) _ rfl
    | vmodem endpoint => exact @parseInternetFlag_protocol _ "IVM" .vmodem (by simp [protocols]) _ rfl
    | unspecified endpoint => exact @parseInternetFlag_protocol _ "IP" .unspecified (by simp [protocols]) _ rfl
  ne_nil flag := by
    cases flag with
    | defaultServer server => simp [InternetFlag.display]
    | tith endpoint key =>
      obtain ⟨text, htext⟩ := exists_displayTith base64 endpoint key
      simp [htext]
    | noIncomingIpv4 => simp [InternetFlag.display]
    | _ => exact displayProtocol_ne_nil (by decide) _
  comma_not_mem flag := by
    cases flag with
    | defaultServer server => simp [InternetFlag.display, server.comma_not_mem]
    | tith endpoint key =>
      have hkey := not_mem_key hbase (c := ',') (by decide) key
      unfold InternetFlag.display
      dsimp only
      split
      . simp [hkey]
      . simp [hkey, endpoint.comma_not_mem]
    | noIncomingIpv4 => simp [InternetFlag.display]
    | _ => exact comma_not_mem_protocol (by decide) _

theorem internet_readsTexts (base64 : Base64)
    : ReadsTexts (parseInternet base64) (parseInternetFlag base64)
        (fun flags => (do
          checkOrder (InternetFlag.display base64) InternetFlag.order flags
          checkKeys flags none) = .ok ()) where
  ok_iff value flags := by
    simp only [parseInternet, Except.bind_ok_iff, Except.ok.injEq]
    constructor
    . rintro ⟨texts, hsplit, flags, hmap, _, horder, _, hkeys, rfl⟩
      exact ⟨texts, hsplit, hmap, (), horder, hkeys⟩
    . rintro ⟨texts, hsplit, hmap, _, horder, hkeys⟩
      exact ⟨texts, hsplit, flags, hmap, (), horder, (), hkeys, rfl⟩
  check_nil := rfl

theorem internet_isCanonical {base64 : Base64} (hbase : base64.IsUnpadded)
    : IsCanonical (InternetFlag.display base64) (parseInternet base64) :=
  isCanonical_of (internet_readsTexts base64) (internet_hasText hbase) display_internet

/--
The flags of the system have a second spelling, with a sign in front of an hour of one digit. The other
lists have the one of their text only.
-/
theorem flag_lists_canonical (base64 : Base64) (hbase : base64.IsUnpadded)
    : (∀ (value : List Char) (flags : SystemFlags), parseSystem value = .ok flags →
          (listText SystemFlag.display flags = value ↔ ∀ text ∈ value.splitOn ',', isSigned text = false)) ∧
        (∀ flags : SystemFlags, Constructed SystemFlag.display parseSystem flags →
          parseSystem (listText SystemFlag.display flags) = .ok flags) ∧
        IsCanonical PstnIsdnFlag.display parsePstnIsdn ∧
        IsCanonical (InternetFlag.display base64) (parseInternet base64) ∧
        IsCanonical EmailFlag.display parseEmail ∧
        IsCanonical OtherFlag.display parseOther := by
  refine ⟨?_, ?_, pstn_isCanonical, internet_isCanonical hbase, email_isCanonical, other_isCanonical⟩
  . intro value flags h
    exact @listText_eq_iff _ _ _ _ _ system_readsTexts system_hasText (fun text => isSigned text = false) rfl
      display_system_eq_iff _ _ h
  . intro flags h
    exact parse_constructed system_readsTexts system_hasText h

theorem rfc4648_isUnpadded : Base64.IsUnpadded ⟨Rfc4648.encode, Rfc4648.decode⟩ where
  decode_encode := Rfc4648.decode_encode
  length_encode := Rfc4648.length_encode
  mem_encode h := by
    have hall : Rfc4648.alphabet.all (fun c => c.isAlphanum || c == '+' || c == '/') = true := by decide
    simpa [or_assoc] using List.all_eq_true.mp hall _ (Rfc4648.mem_alphabet_of_mem_encode h)

theorem flag_lists_canonical_rfc4648
    : ∃ flags : InternetFlags,
        parseInternet ⟨Rfc4648.encode, Rfc4648.decode⟩ "INA:a.example,ITN::23,INO4".toList =
            .ok flags ∧
          listText (InternetFlag.display ⟨Rfc4648.encode, Rfc4648.decode⟩) flags =
            "INA:a.example,ITN::23,INO4".toList := by
  have hparse : (parseInternet ⟨Rfc4648.encode, Rfc4648.decode⟩
      "INA:a.example,ITN::23,INO4".toList).toOption.isSome = true := by decide
  obtain ⟨flags, hflags⟩ := Option.isSome_iff_exists.mp hparse
  have hread := Except.toOption_eq_some.mp hflags
  have hcanonical := flag_lists_canonical ⟨Rfc4648.encode, Rfc4648.decode⟩ rfc4648_isUnpadded
  exact ⟨flags, hread, hcanonical.2.2.2.1.display_parse hread⟩

theorem system_flags_signed
    : ¬∀ (value : List Char) (flags : SystemFlags), parseSystem value = .ok flags →
        listText SystemFlag.display flags = value := by
  intro h
  have hparse : parseSystem "CM,#+5".toList = .ok [.continuousMail, .mailPeriod ⟨true, 5⟩] := by decide
  exact absurd (h _ _ hparse) (by decide)

end Nodelist

end Tith
