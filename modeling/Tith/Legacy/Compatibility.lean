import Tith.Legacy.Body
import Tith.Lib.Base64
import Tith.Wire.Carrier

/-!
This module contains what the compatibility output of the converter says about signatures: the control
lines of a packed message, and when none of them is one that retains a signature.
-/

namespace Tith

namespace Legacy

section ControlLines

def controlOf (line : List Char) : Option Control :=
  match line with
  | '\x01' :: payload => some (.ofPayload payload)
  | _ => none

def controlsOf (text : List Char) : List Control := (text.splitOn '\r').filterMap controlOf

def PackedMessage.controlLines (message : PackedMessage) : List Control := message.controls ++ controlsOf message.text

/--
None of the controls retains a signature, whatever the case of its name.
-/
def Quiet (controls : List Control) : Prop := ∀ control ∈ controls, isSigningControl control = false

@[simp]
theorem quiet_nil : Quiet [] := by simp [Quiet]

@[simp]
theorem quiet_cons (control : Control) (controls : List Control)
    : Quiet (control :: controls) ↔ isSigningControl control = false ∧ Quiet controls := by
  simp [Quiet]

@[simp]
theorem quiet_append (l l' : List Control) : Quiet (l ++ l') ↔ Quiet l ∧ Quiet l' := by
  simp [Quiet, or_imp, forall_and]

@[simp]
theorem controlsOf_nil : controlsOf [] = [] := rfl

theorem controlsOf_append (a b : List Char) : controlsOf (a ++ '\r' :: b) = controlsOf a ++ controlsOf b := by
  unfold controlsOf
  rw [List.splitOn_append_cons_self, List.filterMap_append]

theorem controlsOf_cons (b : List Char) : controlsOf ('\r' :: b) = controlsOf b := controlsOf_append [] b

theorem controlsOf_terminated (text rest : List Char)
    : controlsOf (terminated '\r' text ++ rest) = controlsOf text ++ controlsOf rest := by
  unfold terminated
  split
  . rw [List.append_assoc, List.singleton_append, controlsOf_append]
  . next h =>
    rw [not_and_or, not_not, not_not] at h
    rcases h with rfl | hlast
    . rfl
    . obtain ⟨init, rfl⟩ := List.getLast?_eq_some_iff.mp hlast
      rw [List.append_assoc, List.singleton_append, controlsOf_append, controlsOf_append, controlsOf_nil,
        List.append_nil]

theorem controlsOf_line {line : List Char} (hline : '\r' ∉ line) (rest : List Char)
    : controlsOf (line ++ '\r' :: rest) = (controlOf line).toList ++ controlsOf rest := by
  rw [controlsOf_append]
  congr 1
  unfold controlsOf
  rw [List.splitOn_eq_singleton hline]
  cases hcontrol : controlOf line <;> simp [hcontrol]

end ControlLines

section Names

theorem name_ofPayload (payload : List Char) (h : payload.any isSeparator = true) (rest : List Char)
    : (Control.ofPayload (payload ++ rest)).name = payload.takeWhile (fun c => !isSeparator c) := by
  have hspan : (Control.ofPayload (payload ++ rest)).name = (payload ++ rest).takeWhile (fun c => !isSeparator c) := by
    unfold Control.ofPayload
    rw [List.span_eq_takeWhile_dropWhile]
  rw [hspan]
  clear hspan
  induction payload with
  | nil => cases h
  | cons c payload ih =>
    rw [List.any_cons, Bool.or_eq_true] at h
    cases hc : isSeparator c with
    | true => simp [hc]
    | false =>
      rw [hc] at h
      have htail := ih (by simpa using h)
      rw [List.cons_append, List.takeWhile_cons, List.takeWhile_cons, htail]

/--
A payload that begins like this has a name of its own, which retains no signature.
-/
def namesNoSigning (payload : List Char) : Bool :=
  let name := payload.takeWhile (fun c => !isSeparator c)
  payload.any isSeparator && !eqIgnoreAsciiCase name "TITHSIG".toList && !eqIgnoreAsciiCase name "TITHSIGN".toList

theorem isSigningControl_append {payload : List Char} (h : namesNoSigning payload = true) (rest : List Char)
    : isSigningControl (.ofPayload (payload ++ rest)) = false := by
  unfold namesNoSigning at h
  simp only [Bool.and_eq_true, Bool.not_eq_true'] at h
  unfold isSigningControl
  rw [name_ofPayload payload h.1.1 rest, h.1.2, h.2]
  rfl

theorem isSigningControl_of_parseControl {payload rest : List Char} {value : Control}
    (hname : namesNoSigning payload = true) (h : parseControl (payload ++ rest) = .ok value)
    : isSigningControl value = false := by
  rw [(parseControl_eq_ok h).1]
  exact isSigningControl_append hname rest

theorem quiet_one {payload rest : List Char} {controls : List Control} (hname : namesNoSigning payload = true)
    (h : one (parseControl (payload ++ rest)) = .ok controls)
    : Quiet controls := by
  obtain ⟨value, hvalue, rfl⟩ := one_eq_ok h
  simp [isSigningControl_of_parseControl hname hvalue]

end Names

section Build

variable {read : ReadMessage} {context : Context}

theorem quiet_optionalControl {name : String} {value : Option String} {controls : List Control}
    (hname : namesNoSigning (name.toList ++ ": ".toList) = true) (h : optionalControl name value = .ok controls)
    : Quiet controls := by
  unfold optionalControl at h
  cases value with
  | none =>
    injection h with h
    subst h
    exact quiet_nil
  | some value => exact quiet_one hname h

theorem quiet_pointControl {name : String} {point : UInt16} {controls : List Control}
    (hname : namesNoSigning name.toList = true) (h : pointControl name point = .ok controls)
    : Quiet controls := by
  unfold pointControl at h
  split at h
  . exact quiet_one hname h
  . injection h with h
    subst h
    exact quiet_nil

theorem quiet_addressingControls {destination : Address} {controls : List Control}
    (h : addressingControls read destination = .ok controls)
    : Quiet controls := by
  unfold addressingControls at h
  simp only [Except.bind_ok_iff] at h
  obtain ⟨msgto, hmsgto, destinationText, _, originText, _, intl, hintl, topt, htopt, fmpt, hfmpt, hresult⟩ := h
  injection hresult with hresult
  subst hresult
  rw [List.append_assoc] at hintl
  have hmsgto := isSigningControl_of_parseControl (by decide) hmsgto
  have hintl := isSigningControl_of_parseControl (by decide) hintl
  have htopt : Quiet topt := quiet_pointControl (by decide) htopt
  have hfmpt : Quiet fmpt := quiet_pointControl (by decide) hfmpt
  simp [hmsgto, hintl, htopt, hfmpt]

theorem quiet_associated {attachments : List AttachmentData} {controls : List Control}
    (h : attachments.mapM associatedControl = .ok controls)
    : Quiet controls := by
  intro value hvalue
  obtain ⟨attachment, _, hattachment⟩ := List.forall₂_mem_right (Except.mapM_forall₂ h) hvalue
  unfold associatedControl at hattachment
  simp only [Except.bind_ok_iff] at hattachment
  obtain ⟨filename, _, _, _, hparse⟩ := hattachment
  exact isSigningControl_of_parseControl (by decide) hparse

theorem quiet_spth {line : List Char} {controls : List Control} (hline : spth read context = .ok line)
    (h : one (parseControl line) = .ok controls)
    : Quiet controls := by
  unfold spth at hline
  simp only [Except.bind_ok_iff] at hline
  obtain ⟨path, _, packetOrigin, _, hline⟩ := hline
  split at hline
  . cases hline
  . injection hline with hline
    subst hline
    exact quiet_one (by decide) h

theorem quiet_destinationControls {controls : List Control} (h : destinationControls read = .ok controls)
    : Quiet controls := by
  unfold destinationControls at h
  split at h
  . injection h with h
    subst h
    exact quiet_nil
  . exact quiet_addressingControls h

theorem quiet_pathControls {controls : List Control} (h : pathControls read context = .ok controls)
    : Quiet controls := by
  unfold pathControls at h
  split at h
  . injection h with h
    subst h
    exact quiet_nil
  . rw [Except.bind_ok_iff] at h
    obtain ⟨line, hline, hparse⟩ := h
    exact quiet_spth hline hparse

theorem quiet_messageControls_iff {controls : List Control} (h : messageControls read context [] = .ok controls)
    : Quiet controls ↔
        ∀ line ∈ read.data.additionalKludgeLines, isSigningControl (.ofPayload line.toList) = false := by
  unfold messageControls at h
  simp only [Except.bind_ok_iff] at h
  obtain ⟨chrs, hchrs, signing, hsigning, msgid, hmsgid, reply, hreply, addressing, haddressing, zone, _, tzutc,
    htzutc, assoc, hassoc, path, hpath, kludges, hkludges, hresult⟩ := h
  injection hresult with hresult
  subst hresult
  injection hsigning with hsigning
  subst hsigning
  have hchrs : isSigningControl chrs = false := by
    rw [← List.append_nil "CHRS: UTF-8 4".toList] at hchrs
    exact isSigningControl_of_parseControl (by decide) hchrs
  have hmsgid : Quiet msgid := quiet_optionalControl (by decide) hmsgid
  have hreply : Quiet reply := quiet_optionalControl (by decide) hreply
  have haddressing : Quiet addressing := quiet_destinationControls haddressing
  have htzutc := isSigningControl_of_parseControl (by decide) htzutc
  have hpath : Quiet path := quiet_pathControls hpath
  have hkludges : Quiet kludges ↔
      ∀ line ∈ read.data.additionalKludgeLines, isSigningControl (.ofPayload line.toList) = false := by
    have hlines := Except.mapM_forall₂ hkludges
    constructor
    . intro hquiet line hline
      obtain ⟨value, hvalue, hparse⟩ := List.forall₂_mem_left hlines hline
      rw [← (parseControl_eq_ok hparse).1]
      exact hquiet value hvalue
    . intro hall value hvalue
      obtain ⟨line, hline, hparse⟩ := List.forall₂_mem_right hlines hvalue
      rw [(parseControl_eq_ok hparse).1]
      exact hall line hline
  simp [hchrs, hmsgid, hreply, haddressing, htzutc, quiet_associated hassoc, hpath, hkludges]

theorem controlsOf_of_not_mem {text : List Char} (h : controlA ∉ text) : controlsOf text = [] := by
  unfold controlsOf
  rw [List.filterMap_eq_nil_iff]
  intro line hline
  have hmem : ∀ c ∈ line, c ∈ text := by
    intro c hc
    rw [← @List.intercalate_splitOn _ text _ _ '\r']
    exact (List.infix_intercalate hline).subset hc
  cases line with
  | nil => rfl
  | cons c payload =>
    have hc : c ≠ controlA := by
      rintro rfl
      exact h (hmem _ List.mem_cons_self)
    unfold controlOf
    split
    . next heq =>
      injection heq with heq
      exact absurd heq hc
    . rfl

section Seen

variable {c : Char} (hc : c.toNat < 32)

include hc

theorem ne_of_lt_space {d : Char} (hd : 32 ≤ d.toNat) : c ≠ d := by
  rintro rfl
  omega

theorem not_mem_showInt (n : Int) : c ∉ showInt n := by
  have hdigit : c.isDigit = false := by
    cases hisDigit : c.isDigit with
    | false => rfl
    | true =>
      have hge := (Char.isDigit_iff_toNat.mp hisDigit).1
      change 48 ≤ c.toNat at hge
      omega
  unfold showInt
  split
  . exact Text.not_mem_toDigits hdigit _
  . rw [List.mem_cons, not_or]
    exact ⟨ne_of_lt_space hc (by decide), Text.not_mem_toDigits hdigit _⟩

theorem not_mem_seenByEntries {previousNet : Option Int} {addresses : List Address} {entry : List Char}
    (h : entry ∈ seenByEntries previousNet addresses)
    : c ∉ entry := by
  induction addresses generalizing previousNet with
  | nil => cases h
  | cons address rest ih =>
    unfold seenByEntries at h
    rcases List.mem_cons.mp h with rfl | h
    . split
      . exact not_mem_showInt hc _
      . rw [List.mem_append, List.mem_cons, not_or, not_or]
        exact ⟨not_mem_showInt hc _, ne_of_lt_space hc (by decide), not_mem_showInt hc _⟩
    . exact ih h

theorem not_mem_seenByStart : c ∉ seenByStart := by
  intro hmem
  have hall : seenByStart.all (fun d => ' ' ≤ d) = true := by decide
  have hle := List.all_eq_true.mp hall c hmem
  exact absurd (of_decide_eq_true hle) (by change ¬32 ≤ c.toNat; omega)

theorem not_mem_seenByLines {line : List Char} {entries : List (List Char)} (hline : c ∉ line)
    (hentries : ∀ entry ∈ entries, c ∉ entry)
    : ∀ l ∈ seenByLines line entries, c ∉ l := by
  induction entries generalizing line with
  | nil =>
    intro l hl
    rw [List.mem_singleton.mp hl]
    exact hline
  | cons entry rest ih =>
    have hentry := hentries entry List.mem_cons_self
    have hrest : ∀ entry ∈ rest, c ∉ entry := fun e he => hentries e (List.mem_cons_of_mem _ he)
    have hlonger : ∀ start : List Char, c ∉ start → c ∉ start ++ ' ' :: entry := by
      intro start hstart
      rw [List.mem_append, List.mem_cons, not_or, not_or]
      exact ⟨hstart, ne_of_lt_space hc (by decide), hentry⟩
    intro l hl
    unfold seenByLines at hl
    split at hl
    . rcases List.mem_cons.mp hl with rfl | hl
      . exact hline
      . exact ih (hlonger seenByStart (not_mem_seenByStart hc)) hrest l hl
    . exact ih (hlonger line hline) hrest l hl

end Seen

theorem footerLines_eq_ok {lines : List (List Char)} (h : footerLines read context = .ok lines)
    : hasLineBreak (tearLineOf read.data.tearLine) = false ∧ hasLineBreak (originLineOf read.data.originLine) = false ∧
        lines = tearLineOf read.data.tearLine :: originLineOf read.data.originLine ::
          seenByLines seenByStart (seenByEntries none (recipients read context)) := by
  unfold footerLines at h
  dsimp only at h
  split at h
  . cases h
  . next htear =>
    split at h
    . cases h
    . split at h
      . cases h
      . next horigin =>
        split at h
        . cases h
        . injection h with h
          exact ⟨Bool.eq_false_iff.mpr htear, Bool.eq_false_iff.mpr horigin, h.symm⟩

theorem not_mem_seenBy {c : Char} (hc : c.toNat < 32)
    : ∀ line ∈ seenByLines seenByStart (seenByEntries none (recipients read context)), c ∉ line := by
  apply not_mem_seenByLines hc (not_mem_seenByStart hc)
  intro entry hentry
  exact not_mem_seenByEntries hc hentry

theorem controlsOf_footerLine {lines : List (List Char)} (h : footerLines read context = .ok lines)
    : ∀ line ∈ lines, controlsOf line = [] := by
  obtain ⟨htear, horigin, rfl⟩ := footerLines_eq_ok h
  have hunbroken : ∀ {line : List Char}, hasLineBreak line = false → controlOf line = none →
      controlsOf line = [] := by
    intro line hline hnone
    have hr : '\r' ∉ line := by
      intro hmem
      rw [hasLineBreak, List.any_eq_false] at hline
      exact hline _ hmem (by simp)
    unfold controlsOf
    rw [List.splitOn_eq_singleton hr]
    simp [hnone]
  intro line hline
  rcases List.mem_cons.mp hline with rfl | hline
  . apply hunbroken htear
    unfold tearLineOf
    split
    . split <;> rfl
    . rfl
  . rcases List.mem_cons.mp hline with rfl | hline
    . exact hunbroken horigin rfl
    . exact controlsOf_of_not_mem (not_mem_seenBy (by decide) line hline)

theorem controlsOf_lines {lines : List (List Char)} (h : ∀ line ∈ lines, controlsOf line = [])
    : controlsOf (lines.flatMap (· ++ ['\r'])) = [] := by
  induction lines with
  | nil => rfl
  | cons line lines ih =>
    rw [List.flatMap_cons, List.append_assoc, List.singleton_append, controlsOf_append, h line List.mem_cons_self,
      ih (fun l hl => h l (List.mem_cons_of_mem _ hl))]
    rfl

theorem isSigningControl_viaLine {via : ViaData} {line : List Char} (h : viaLine context via = .ok line)
    : isSigningControl (.ofPayload line) = false := by
  unfold viaLine at h
  split at h
  . cases h
  . simp only [Except.bind_ok_iff] at h
    obtain ⟨address, _, text, _, hline⟩ := h
    injection hline with hline
    rw [← hline]
    simp only [List.append_assoc]
    exact isSigningControl_append (by decide) _

theorem quiet_paragraphs {vias : List ViaData} {paragraphs : List (List Char)}
    (h : vias.mapM (viaParagraph context) = .ok paragraphs)
    : Quiet (controlsOf paragraphs.flatten) := by
  have hall := Except.mapM_forall₂ h
  clear h
  induction hall with
  | nil => exact quiet_nil
  | cons hfirst _ ih =>
    unfold viaParagraph at hfirst
    rw [Except.bind_ok_iff] at hfirst
    obtain ⟨line, hline, hcontrol⟩ := hfirst
    cases hparagraph : control line with
    | error e =>
      rw [hparagraph] at hcontrol
      cases hcontrol
    | ok paragraph =>
      rw [hparagraph] at hcontrol
      injection hcontrol with hcontrol
      subst hcontrol
      obtain ⟨hparagraph, hr, _⟩ := control_eq_ok hparagraph
      have hbreak : '\r' ∉ controlA :: line := by
        rw [List.mem_cons, not_or]
        exact ⟨by decide, hr⟩
      rw [List.flatten_cons, hparagraph, List.append_assoc, List.singleton_append, controlsOf_line hbreak]
      simp [controlOf, controlA, isSigningControl_viaLine hline, ih]

theorem quiet_messageFoot {foot : List Char} (h : messageFoot read context = .ok foot)
    : Quiet (controlsOf foot) := by
  unfold messageFoot at h
  split at h
  . unfold echomailFooter at h
    rw [Except.bind_ok_iff] at h
    obtain ⟨lines, hlines, hfoot⟩ := h
    injection hfoot with hfoot
    rw [← hfoot, controlsOf_lines (controlsOf_footerLine hlines)]
    exact quiet_nil
  . rw [Except.bind_ok_iff] at h
    obtain ⟨paragraphs, hparagraphs, hfoot⟩ := h
    injection hfoot with hfoot
    rw [← hfoot]
    exact quiet_paragraphs hparagraphs

theorem encodeBody_eq_ok {text body : List Char} (h : (encodeBody text).mapError ConvertError.legacy = .ok body)
    : body = terminated '\r' (foldBreaks text) := by
  unfold encodeBody at h
  split at h
  . cases h
  . injection h with h
    exact h.symm

def foldedControls (text : String) : List Control := controlsOf (foldBreaks text.toList)

theorem quiet_messageBody_iff {warning : Option String} {text : List Char}
    (h : messageBody read context warning = .ok text)
    : Quiet (controlsOf text) ↔ (∀ value ∈ warning, Quiet (foldedControls value)) ∧ Quiet (foldedControls read.data.text) := by
  unfold messageBody at h
  simp only [Except.bind_ok_iff] at h
  obtain ⟨head, hhead, middle, hmiddle, foot, hfoot, htext⟩ := h
  injection htext with htext
  rw [← htext, encodeBody_eq_ok hmiddle]
  have hrest : Quiet (controlsOf (terminated '\r' (foldBreaks read.data.text.toList) ++ foot)) ↔
      Quiet (foldedControls read.data.text) := by
    rw [controlsOf_terminated, quiet_append]
    exact and_iff_left (quiet_messageFoot hfoot)
  unfold warningText at hhead
  cases warning with
  | none =>
    injection hhead with hhead
    subst hhead
    simpa using hrest
  | some value =>
    rw [Except.bind_ok_iff] at hhead
    obtain ⟨body, hbody, hhead⟩ := hhead
    injection hhead with hhead
    rw [← hhead, encodeBody_eq_ok hbody, List.append_assoc, List.append_assoc, List.singleton_append,
      controlsOf_terminated, controlsOf_cons, quiet_append, hrest]
    simp [foldedControls]

end Build

section Export

variable {c : Crypto} {base64 : Nodelist.Base64} {read : ReadMessage} {context : Context}
  {authentication : ItemAuthentication} {warning : Option String} {resolver : KeyResolver} {converted : Converted}

/--
No line of the warning or of the text is a control that retains a signature, and no additional kludge line
is one unless the Message is eligible for a canonical export.
-/
def Unclaimed (read : ReadMessage) (authentication : ItemAuthentication) (warning : Option String) : Prop :=
  (∀ value ∈ warning, Quiet (foldedControls value)) ∧ Quiet (foldedControls read.data.text) ∧
  (isEligible read authentication warning = false →
    ∀ line ∈ read.data.additionalKludgeLines, isSigningControl (.ofPayload line.toList) = false)

theorem build_eq_ok {signingControls : List (List Char)} {message : PackedMessage}
    (h : build read context warning signingControls = .ok message)
    : messageControls read context signingControls = .ok message.controls ∧
        messageBody read context warning = .ok message.text ∧ messageArea read context = .ok message.area := by
  unfold build at h
  simp only [Except.bind_ok_iff] at h
  obtain ⟨time, _, controls, hcontrols, text, htext, attributes, _, subject, _, origin, _, destination, _, dateTime, _,
    area, harea, hmessage⟩ := h
  injection hmessage with hmessage
  subst hmessage
  exact ⟨hcontrols, htext, harea⟩

theorem toLegacy_compatibility (h : toLegacy c base64 read context authentication warning resolver = .ok converted)
    (hcompatibility : converted.fidelity ≠ .canonical)
    : ∃ message, build read context warning [] = .ok message ∧
        ((isEligible read authentication warning = false ∧ converted.message = message) ∨
          (isEligible read authentication warning = true ∧ warning = none ∧ converted.message =
            { message with controls := message.controls.filter fun value => !isSigningControl value })) := by
  unfold toLegacy at h
  rw [Except.bind_ok_iff] at h
  obtain ⟨message, hmessage, h⟩ := h
  refine ⟨message, hmessage, ?_⟩
  split at h
  . next signature heligible hsignature =>
    right
    simp only [Except.bind_ok_iff] at h
    obtain ⟨signingControls, _, candidate, _, h⟩ := h
    have hwarning : warning = none := by
      unfold isEligible at heligible
      simp only [Bool.and_eq_true, Option.isNone_iff_eq_none] at heligible
      exact heligible.1.2
    split at h
    . injection h with h
      rw [← h] at hcompatibility
      exact absurd rfl hcompatibility
    . injection h with h
      exact ⟨heligible, hwarning, by rw [← h]⟩
  . next hcases =>
    left
    injection h with h
    constructor
    . cases heligible : isEligible read authentication warning with
      | false => rfl
      | true =>
        have hsignature : read.signing.signature.isSome = true := by
          unfold isEligible at heligible
          simp only [Bool.and_eq_true] at heligible
          exact heligible.2
        obtain ⟨signature, hsignature⟩ := Option.isSome_iff_exists.mp hsignature
        exact absurd hsignature (hcases signature heligible)
    . rw [← h]

/--
Every control has been made of a payload that can be written.
-/
def AreParsed (controls : List Control) : Prop := ∀ value ∈ controls, ∃ payload, parseControl payload = .ok value

theorem AreParsed.areRead {controls : List Control} (h : AreParsed controls) : AreRead controls := by
  intro value hvalue
  obtain ⟨payload, hpayload⟩ := h value hvalue
  rw [(parseControl_eq_ok hpayload).1]
  rfl

theorem AreParsed.written {controls : List Control} (h : AreParsed controls) {value : Control} (hvalue : value ∈ controls)
    : control value.raw = .ok (controlA :: value.raw ++ ['\r']) := by
  obtain ⟨payload, hpayload⟩ := h value hvalue
  obtain ⟨rfl, hcontrol⟩ := parseControl_eq_ok hpayload
  exact hcontrol

theorem areParsed_append {l l' : List Control} (h : AreParsed l) (h' : AreParsed l') : AreParsed (l ++ l') := by
  intro value hvalue
  rcases List.mem_append.mp hvalue with hvalue | hvalue
  . exact h value hvalue
  . exact h' value hvalue

theorem areParsed_cons {payload : List Char} {value : Control} {l : List Control} (h : parseControl payload = .ok value)
    (h' : AreParsed l)
    : AreParsed (value :: l) := areParsed_append (l := [value]) (by simpa [AreParsed] using ⟨payload, h⟩) h'

theorem areParsed_nil {l : List Control} (h : (.ok [] : Except ConvertError (List Control)) = .ok l) : AreParsed l := by
  injection h with h
  subst h
  intro value hvalue
  cases hvalue

theorem areParsed_one {payload : List Char} {l : List Control} (h : one (parseControl payload) = .ok l)
    : AreParsed l := by
  obtain ⟨value, hvalue, rfl⟩ := one_eq_ok h
  simpa [AreParsed] using ⟨payload, hvalue⟩

theorem areParsed_mapM {α : Type} {f : α → Except ConvertError Control} {l : List α} {l' : List Control}
    (hf : ∀ a value, f a = .ok value → ∃ payload, parseControl payload = .ok value) (h : l.mapM f = .ok l')
    : AreParsed l' := by
  intro value hvalue
  obtain ⟨a, _, ha⟩ := List.forall₂_mem_right (Except.mapM_forall₂ h) hvalue
  exact hf a value ha

theorem areParsed_optionalControl {name : String} {value : Option String} {l : List Control}
    (h : optionalControl name value = .ok l)
    : AreParsed l := by
  unfold optionalControl at h
  split at h
  . exact areParsed_nil h
  . exact areParsed_one h

theorem areParsed_pointControl {name : String} {point : UInt16} {l : List Control} (h : pointControl name point = .ok l)
    : AreParsed l := by
  unfold pointControl at h
  split at h
  . exact areParsed_one h
  . exact areParsed_nil h

theorem areParsed_destinationControls {l : List Control} (h : destinationControls read = .ok l) : AreParsed l := by
  unfold destinationControls at h
  split at h
  . exact areParsed_nil h
  . unfold addressingControls at h
    simp only [Except.bind_ok_iff] at h
    obtain ⟨msgto, hmsgto, _, _, _, _, intl, hintl, topt, htopt, fmpt, hfmpt, hl⟩ := h
    injection hl with hl
    rw [← hl]
    have hpoints := areParsed_append (areParsed_pointControl htopt) (areParsed_pointControl hfmpt)
    exact areParsed_cons hmsgto (areParsed_cons hintl hpoints)

theorem areParsed_pathControls {l : List Control} (h : pathControls read context = .ok l) : AreParsed l := by
  unfold pathControls at h
  split at h
  . exact areParsed_nil h
  . rw [Except.bind_ok_iff] at h
    obtain ⟨_, _, h⟩ := h
    exact areParsed_one h

theorem areParsed_messageControls {signingControls : List (List Char)} {controls : List Control}
    (h : messageControls read context signingControls = .ok controls)
    : AreParsed controls ∧ controls.head? = some (.ofPayload "CHRS: UTF-8 4".toList) := by
  unfold messageControls at h
  simp only [Except.bind_ok_iff] at h
  obtain ⟨chrs, hchrs, signing, hsigning, msgid, hmsgid, reply, hreply, addressing, haddressing, zone, _, tzutc,
    htzutc, assoc, hassoc, path, hpath, kludges, hkludges, hresult⟩ := h
  injection hresult with hresult
  rw [← hresult]
  have hsigning : AreParsed signing := areParsed_mapM (fun _ _ hf => ⟨_, hf⟩) hsigning
  have hkludges : AreParsed kludges := areParsed_mapM (fun _ _ hf => ⟨_, hf⟩) hkludges
  have hassoc : AreParsed assoc := by
    apply areParsed_mapM _ hassoc
    intro attachment value hf
    unfold associatedControl at hf
    simp only [Except.bind_ok_iff] at hf
    obtain ⟨_, _, _, _, hf⟩ := hf
    exact ⟨_, hf⟩
  constructor
  . have hfront := areParsed_append (areParsed_append (areParsed_append hsigning (areParsed_optionalControl hmsgid))
      (areParsed_optionalControl hreply)) (areParsed_destinationControls haddressing)
    have hback := areParsed_append (areParsed_append hassoc (areParsed_pathControls hpath)) hkludges
    have hall := areParsed_append hfront (areParsed_cons htzutc hback)
    have hcontrols := areParsed_cons hchrs hall
    simpa using hcontrols
  . simp [(parseControl_eq_ok hchrs).1]

theorem retainedSigning_of_quiet {controls : List Control} (h : Quiet controls)
    : retainedSigning base64 controls = .ok none := by
  have hsigning : ∀ indexed ∈ controls.zipIdx, ¬(isTithsign indexed.1 || isTithsig indexed.1) = true := by
    rintro ⟨control, index⟩ hmem hname
    have hquiet := h control (List.fst_mem_of_mem_zipIdx hmem)
    unfold isSigningControl at hquiet
    rw [Bool.or_eq_false_iff] at hquiet
    rcases (Bool.or_eq_true _ _).mp hname with hname | hname
    . unfold isTithsign at hname
      rw [of_decide_eq_true hname] at hquiet
      exact absurd hquiet.2 (by decide)
    . unfold isTithsig at hname
      rw [of_decide_eq_true hname] at hquiet
      exact absurd hquiet.1 (by decide)
  unfold retainedSigning
  simp only [List.filter_eq_nil_iff.mpr hsigning, if_true]

/--
What compatibility output says about signatures: it has no control line that retains one exactly if the
Message brings none along, and then no importer of its body finds one.
-/
theorem compatibility_claims_no_signature (c : Crypto) (base64 : Nodelist.Base64) (read : ReadMessage)
    (context : Context) (authentication : ItemAuthentication) (warning : Option String) (resolver : KeyResolver)
    (converted : Converted)
    (h : toLegacy c base64 read context authentication warning resolver = .ok converted)
    (hcompatibility : converted.fidelity ≠ .canonical)
    : (Quiet converted.message.controlLines ↔ Unclaimed read authentication warning) ∧
      (Quiet converted.message.controlLines →
        ∀ body, converted.message.body = .ok body → retainedSigning base64 (readBody body).2.1 = .ok none) := by
  obtain ⟨message, hbuild, hcases⟩ := toLegacy_compatibility h hcompatibility
  obtain ⟨hcontrols, htext, _⟩ := build_eq_ok hbuild
  have hkludges := quiet_messageControls_iff hcontrols
  have htextQuiet := quiet_messageBody_iff htext
  obtain ⟨hparsed, hhead⟩ := areParsed_messageControls hcontrols
  have hread := hparsed.areRead
  constructor
  . unfold PackedMessage.controlLines Unclaimed
    rw [quiet_append]
    rcases hcases with ⟨heligible, hmessage⟩ | ⟨heligible, hwarning, hmessage⟩
    . rw [hmessage, hkludges, htextQuiet, heligible]
      constructor
      . rintro ⟨hlines, hwarning, htext⟩
        exact ⟨hwarning, htext, fun _ => hlines⟩
      . rintro ⟨hwarning, htext, hlines⟩
        exact ⟨hlines rfl, hwarning, htext⟩
    . have hfilter : Quiet (message.controls.filter fun value => !isSigningControl value) := by
        intro value hvalue
        simpa using (List.mem_filter.mp hvalue).2
      rw [hmessage]
      dsimp only
      rw [htextQuiet, heligible]
      constructor
      . rintro ⟨_, hwarning, htext⟩
        exact ⟨hwarning, htext, fun hfalse => nomatch hfalse⟩
      . rintro ⟨hwarning, htext, _⟩
        exact ⟨hfilter, hwarning, htext⟩
  . intro hquiet body hbody
    have hparts : AreRead converted.message.controls ∧ converted.message.controls ≠ [] := by
      have hchrs : Control.ofPayload "CHRS: UTF-8 4".toList ∈ message.controls := List.mem_of_mem_head? hhead
      rcases hcases with ⟨_, hmessage⟩ | ⟨_, _, hmessage⟩
      . rw [hmessage]
        exact ⟨hread, List.ne_nil_of_mem hchrs⟩
      . rw [hmessage]
        constructor
        . intro value hvalue
          exact hread value (List.mem_of_mem_filter hvalue)
        . exact List.ne_nil_of_mem (List.mem_filter.mpr ⟨hchrs, by decide⟩)
    rw [readBody_body hbody hparts.1 hparts.2]
    apply retainedSigning_of_quiet
    unfold PackedMessage.controlLines at hquiet
    rw [quiet_append] at hquiet ⊢
    refine ⟨hquiet.1, ?_⟩
    intro value hvalue
    obtain ⟨payload, rfl, hline⟩ := mem_splitControls hvalue
    apply hquiet.2
    unfold controlsOf
    exact List.mem_filterMap.mpr ⟨_, hline, rfl⟩

end Export

/-!
An unsigned NetMail with one additional kludge line.
-/

namespace UnsignedNetMail

def crypto : Crypto where
  verifyTlv _ _ _ := .ok true
  hashTlv _ := .ok (Vector.replicate 32 0)
  hashInboundItem _ := .ok (Vector.replicate 32 0)

def base64 : Nodelist.Base64 := ⟨Rfc4648.encode, Rfc4648.decode⟩

def resolver : KeyResolver := fun _ => some (Vector.replicate 32 0)

def context : Context where
  packetOrigin := ⟨"fidonet", 1, 104, 36, 0, by decide⟩
  packetDestination := ⟨"fidonet", 1, 104, 1, 0, by decide⟩
  domain := "fidonet"
  domainCase := .preserve
  product := "tith"
  version := "0.1"
  areaTags := ∅

def message (kludge : String) : OwnedTlv :=
  carrierValue Types.message (concatenate
    [ carrierValue Types.origin (Bytes.ofString "fidonet#1:104/7"),
      carrierValue Types.destination (Bytes.ofString "fidonet#1:104/1"),
      carrierValue Types.timestamp [1],
      carrierValue Types.toUserName (Bytes.ofString "Sysop"),
      carrierValue Types.fromUserName (Bytes.ofString "User"),
      carrierValue Types.subject (Bytes.ofString "Hello"),
      carrierValue Types.messageText (Bytes.ofString "Hello\n"),
      carrierValue Types.requestIdentifier [1],
      carrierValue Types.via (concatenate
        [ carrierValue Types.address (Bytes.ofString "fidonet#1:104/36"),
          carrierValue Types.timestamp [1] ]),
      carrierValue Types.additionalKludgeLine (Bytes.ofString kludge) ])

def exported (kludge : String) : Option Converted := do
  let _ ← (validateItem crypto (message kludge) resolver).toOption.join
  let read ← (readMessage (message kludge) resolver).toOption
  (toLegacy crypto base64 read context .unsigned none resolver).toOption

theorem exported_eq_some {kludge : String} {converted : Converted} (h : exported kludge = some converted)
    : ∃ read, readMessage (message kludge) resolver = .ok read ∧
        toLegacy crypto base64 read context .unsigned none resolver = .ok converted := by
  unfold exported at h
  simp only [Option.bind_eq_bind, Option.bind_eq_some_iff] at h
  obtain ⟨item, _, read, hread, hconverted⟩ := h
  exact ⟨read, Except.toOption_eq_some.mp hread, Except.toOption_eq_some.mp hconverted⟩

end UnsignedNetMail

theorem kludge_claims_no_signature
    : ∃ read converted,
        toLegacy UnsignedNetMail.crypto UnsignedNetMail.base64 read UnsignedNetMail.context .unsigned none
            UnsignedNetMail.resolver = .ok converted ∧
        (Quiet converted.message.controlLines ↔ Unclaimed read .unsigned none) := by
  obtain ⟨converted, hexported⟩ := Option.isSome_iff_exists.mp
    (show (UnsignedNetMail.exported "FLAGS K/S").isSome = true by decide +kernel)
  have hcompatibility : (UnsignedNetMail.exported "FLAGS K/S").all (fun c => c.fidelity ≠ .canonical) = true := by
    decide +kernel
  rw [hexported] at hcompatibility
  obtain ⟨read, _, hconverted⟩ := UnsignedNetMail.exported_eq_some hexported
  have hresult := compatibility_claims_no_signature UnsignedNetMail.crypto UnsignedNetMail.base64 read
    UnsignedNetMail.context .unsigned none UnsignedNetMail.resolver converted hconverted
    (of_decide_eq_true hcompatibility)
  exact ⟨read, converted, hconverted, hresult.1⟩

/--
The additional kludge line of an unsigned Message stays, whatever its name.
-/
theorem kludge_claims_signature
    : ∃ converted, UnsignedNetMail.exported "TITHSIG: 1 x" = some converted ∧ converted.fidelity = .compatibility ∧
        ∃ control ∈ converted.message.controlLines, control.name = "TITHSIG".toList := by
  obtain ⟨converted, hexported⟩ := Option.isSome_iff_exists.mp
    (show (UnsignedNetMail.exported "TITHSIG: 1 x").isSome = true by decide +kernel)
  have hclaim : (UnsignedNetMail.exported "TITHSIG: 1 x").all (fun c =>
      c.fidelity = .compatibility ∧ c.message.controlLines.any fun control => control.name = "TITHSIG".toList) = true := by
    decide +kernel
  rw [hexported] at hclaim
  obtain ⟨hfidelity, hany⟩ := of_decide_eq_true hclaim
  obtain ⟨control, hcontrol, hname⟩ := List.any_eq_true.mp hany
  exact ⟨converted, hexported, hfidelity, control, hcontrol, of_decide_eq_true hname⟩

end Legacy

end Tith
