import Tith.Legacy.Retained

/-!
This module contains how the body of a packed message is read back: the area line, then the controls, and
then the text, whose own first lines may be taken for controls.
-/

namespace Tith

namespace Legacy

section Control

theorem control_eq_ok {payload paragraph : List Char} (h : control payload = .ok paragraph)
    : paragraph = controlA :: payload ++ ['\r'] ∧ '\r' ∉ payload ∧ controlA ∉ payload ∧ '\n' ∉ payload ∧
        '\x00' ∉ payload := by
  unfold control at h
  split at h
  . cases h
  . next hany =>
    injection h with h
    rw [List.any_eq_true] at hany
    refine ⟨h.symm, ?_, ?_, ?_, ?_⟩
    . exact fun hmem => hany ⟨_, hmem, by simp⟩
    . exact fun hmem => hany ⟨_, hmem, by simp⟩
    . exact fun hmem => hany ⟨_, hmem, by simp⟩
    . exact fun hmem => hany ⟨_, hmem, by simp⟩

theorem parseControl_eq_ok {payload : List Char} {value : Control} (h : parseControl payload = .ok value)
    : value = .ofPayload payload ∧ control payload = .ok (controlA :: payload ++ ['\r']) := by
  unfold parseControl at h
  rw [Except.bind_ok_iff] at h
  obtain ⟨paragraph, hcontrol, hvalue⟩ := h
  injection hvalue with hvalue
  cases hparagraph : control payload with
  | error e =>
    rw [hparagraph] at hcontrol
    cases hcontrol
  | ok p => exact ⟨hvalue.symm, by rw [(control_eq_ok hparagraph).1]⟩

theorem one_eq_ok {α : Type} {x : Except ConvertError α} {l : List α} (h : one x = .ok l)
    : ∃ a, x = .ok a ∧ l = [a] := by
  cases x with
  | error e => cases h
  | ok a =>
    injection h with h
    exact ⟨a, rfl, h.symm⟩

end Control

section SplitControls

theorem splitControls_go_succ (fuel : Nat) (after : List Char)
    : splitControls.go (fuel + 1) (controlA :: after) =
        (.ofPayload (after.span (· ≠ '\r')).1 :: (splitControls.go fuel (after.span (· ≠ '\r')).2.tail).1,
          (splitControls.go fuel (after.span (· ≠ '\r')).2.tail).2) := rfl

theorem splitControls_go_of_le {fuel : Nat} {rest : List Char} (h : rest.length ≤ fuel)
    : splitControls.go fuel rest = splitControls.go rest.length rest := by
  induction fuel using Nat.strongRecOn generalizing rest with
  | ind fuel ih =>
    match fuel, rest with
    | 0, [] => rfl
    | fuel + 1, [] => rfl
    | 0, c :: after => simp at h
    | fuel + 1, c :: after =>
      rw [List.length_cons] at h
      by_cases hc : c = controlA
      . subst hc
        have hremainder : (after.span (· ≠ '\r')).2.tail.length ≤ after.length := by
          rw [List.span_eq_takeWhile_dropWhile, List.length_tail]
          have := (List.dropWhile_suffix (l := after) (fun c => decide (c ≠ '\r'))).length_le
          dsimp only
          omega
        have hleft := ih fuel (by omega) (show (after.span (· ≠ '\r')).2.tail.length ≤ fuel by omega)
        have hright := ih after.length (by omega) hremainder
        rw [List.length_cons, splitControls_go_succ, splitControls_go_succ, hleft, hright]
      . unfold splitControls.go
        split
        . next heq =>
          injection heq with heq
          exact absurd heq hc
        . split
          . next heq =>
            injection heq with heq
            exact absurd heq hc
          . rfl

theorem splitControls_cons (payload rest : List Char) (h : '\r' ∉ payload)
    : splitControls (controlA :: payload ++ '\r' :: rest) =
        (.ofPayload payload :: (splitControls rest).1, (splitControls rest).2) := by
  have hspan : (payload ++ '\r' :: rest).span (· ≠ '\r') = (payload, '\r' :: rest) := by
    apply List.span_append
    . intro c hc
      rw [decide_eq_true_eq]
      rintro rfl
      exact h hc
    . simp
  unfold splitControls
  rw [List.cons_append, List.length_cons, splitControls_go_succ, hspan, List.tail_cons, splitControls_go_of_le]
  rw [List.length_append, List.length_cons]
  omega

theorem splitControls_append {payloads : List (List Char)} (h : ∀ payload ∈ payloads, '\r' ∉ payload)
    (text : List Char)
    : splitControls ((payloads.map fun payload => controlA :: payload ++ ['\r']).flatten ++ text) =
        (payloads.map .ofPayload ++ (splitControls text).1, (splitControls text).2) := by
  induction payloads with
  | nil => rfl
  | cons payload rest ih =>
    have hrest := ih (fun p hp => h p (List.mem_cons_of_mem _ hp))
    rw [List.map_cons, List.flatten_cons, List.append_assoc, List.append_assoc, List.singleton_append,
      splitControls_cons payload _ (h payload List.mem_cons_self), hrest]
    rfl

theorem splitControls_of_head_ne {text : List Char} (h : text.head? ≠ some controlA)
    : splitControls text = ([], text) := by
  unfold splitControls
  cases text with
  | nil => rfl
  | cons c rest =>
    unfold splitControls.go
    split
    . next heq =>
      injection heq with heq
      rw [heq] at h
      exact absurd rfl h
    . rfl

theorem mem_splitControls {text : List Char} {value : Control} (h : value ∈ (splitControls text).1)
    : ∃ payload, value = .ofPayload payload ∧ controlA :: payload ∈ text.splitOn '\r' := by
  -- The controls that are read from the front of a text are on lines of it.
  obtain ⟨n, hn⟩ : ∃ n, text.length ≤ n := ⟨_, le_rfl⟩
  induction n generalizing text with
  | zero =>
    rw [List.length_eq_zero_iff.mp (Nat.le_zero.mp hn)] at h
    cases h
  | succ n ih =>
    by_cases hhead : text.head? = some controlA
    . cases text with
      | nil => cases hhead
      | cons c after =>
        injection hhead with hc
        subst hc
        by_cases hr : '\r' ∈ after
        . obtain ⟨payload, rest, rfl, hpayload⟩ := List.eq_append_cons_of_mem hr
          have hsplit : (controlA :: payload ++ '\r' :: rest).splitOn '\r' =
              (controlA :: payload) :: rest.splitOn '\r' := by
            apply List.splitOn_append_cons_self_of_not_mem
            rw [List.mem_cons, not_or]
            exact ⟨by decide, hpayload⟩
          rw [← List.cons_append, splitControls_cons payload rest hpayload] at h
          rw [← List.cons_append, hsplit]
          rcases List.mem_cons.mp h with rfl | h
          . exact ⟨payload, rfl, List.mem_cons_self⟩
          . have hlength : rest.length ≤ n := by
              simp only [List.length_cons, List.length_append] at hn
              omega
            obtain ⟨later, hlater, hmem⟩ := ih h hlength
            exact ⟨later, hlater, List.mem_cons_of_mem _ hmem⟩
        . have hsplit : (controlA :: after).splitOn '\r' = [controlA :: after] := by
            apply List.splitOn_eq_singleton
            rw [List.mem_cons, not_or]
            exact ⟨by decide, hr⟩
          have hspan : after.span (· ≠ '\r') = (after, []) := by
            rw [← List.append_nil after, List.span_append]
            . rw [List.append_nil]
            . intro c hc
              rw [decide_eq_true_eq]
              rintro rfl
              exact hr hc
            . simp
          unfold splitControls at h
          rw [List.length_cons, splitControls_go_succ, hspan] at h
          have hvalue : value = .ofPayload after := by
            rw [List.tail_nil, splitControls_go_of_le (Nat.zero_le _)] at h
            exact List.mem_singleton.mp h
          exact ⟨after, hvalue, by rw [hsplit]; exact List.mem_singleton.mpr rfl⟩
    . rw [splitControls_of_head_ne hhead] at h
      cases h

end SplitControls

section SplitArea

theorem length_le_length_utf8 (text : List Char) : text.length ≤ (utf8 text).length := by
  unfold utf8
  rw [Bytes.ofString_ofList]
  induction text with
  | nil => simp
  | cons c text ih =>
    have hsize := Char.utf8Size_pos c
    simp only [List.flatMap_cons, List.length_cons, List.length_append, String.length_utf8EncodeChar]
    omega

theorem mem_utf8_of_mem {c : Char} {text : List Char} (h : c ∈ text) (hc : c.toNat < 128)
    : UInt8.ofNat c.toNat ∈ utf8 text := by
  unfold utf8
  rw [Bytes.ofString_ofList, List.mem_flatMap]
  refine ⟨c, h, ?_⟩
  have hval : c.val.toNat < 128 := hc
  unfold String.utf8EncodeChar
  dsimp only
  rw [if_pos (by omega)]
  exact List.mem_singleton.mpr rfl

theorem not_mem_of_validArea {name : List Char} (h : validArea name = true) {c : Char} (hc : c.toNat < 33)
    : c ∉ name := by
  intro hmem
  unfold validArea at h
  simp only [Bool.and_eq_true, List.all_eq_true] at h
  have hbyte := h.2 _ (mem_utf8_of_mem hmem (by omega))
  simp only [Bool.or_eq_true, Bool.and_eq_true, decide_eq_true_eq, UInt8.le_iff_toNat_le] at hbyte
  have hsmall : (UInt8.ofNat c.toNat).toNat = c.toNat := by
    rw [UInt8.toNat_ofNat']
    exact Nat.mod_eq_of_lt (by omega)
  rw [hsmall] at hbyte
  rcases hbyte with ⟨hlow, _⟩ | ⟨hlow, _⟩
  . change 33 ≤ c.toNat at hlow
    omega
  . change 123 ≤ c.toNat at hlow
    omega

theorem splitArea_some {name : List Char} (h : validArea name = true) (rest : List Char)
    : splitArea ("AREA:".toList ++ name ++ '\r' :: rest) = (some name, rest) := by
  have hspan : (name ++ '\r' :: rest).span (fun c => c ≠ '\r' ∧ c ≠ '\n') = (name, '\r' :: rest) := by
    apply List.span_append
    . intro c hc
      rw [decide_eq_true_eq]
      constructor
      . rintro rfl
        exact not_mem_of_validArea h (by decide) hc
      . rintro rfl
        exact not_mem_of_validArea h (by decide) hc
    . simp
  have hprefixed : "AREA:".toList.isPrefixOf? ("AREA:".toList ++ name ++ '\r' :: rest) = some (name ++ '\r' :: rest) := by
    rw [List.append_assoc]
    rfl
  unfold splitArea
  rw [hprefixed]
  dsimp only
  rw [hspan, if_pos h]
  rfl

theorem splitArea_none {body : List Char} (h : body.head? ≠ some 'A') : splitArea body = (none, body) := by
  unfold splitArea
  cases body with
  | nil => rfl
  | cons c rest =>
    have hprefixed : "AREA:".toList.isPrefixOf? (c :: rest) = none := by
      have hc : ('A' == c) = false := by
        rw [beq_eq_false_iff_ne]
        rintro rfl
        exact h rfl
      show List.isPrefixOf? ('A' :: _) (c :: rest) = none
      unfold List.isPrefixOf?
      rw [hc]
      rfl
    rw [hprefixed]

end SplitArea

/--
What a reader of packets finds in a body: the area, the controls and the text.
-/
def readBody (body : List Char) : Option (List Char) × List Control × List Char :=
  let (area, remainder) := splitArea body
  (area, splitControls remainder)

def AreRead (controls : List Control) : Prop := ∀ value ∈ controls, value = .ofPayload value.raw

theorem mapM_control_eq_ok {controls : List Control} {paragraphs : List (List Char)}
    (h : controls.mapM (fun value => control value.raw) = .ok paragraphs)
    : paragraphs = (controls.map (·.raw)).map (fun payload => controlA :: payload ++ ['\r']) ∧
        ∀ payload ∈ controls.map (·.raw), '\r' ∉ payload := by
  have hall := Except.mapM_forall₂ h
  clear h
  induction hall with
  | nil => simp
  | cons hfirst _ ih =>
    obtain ⟨hparagraph, hr, _⟩ := control_eq_ok hfirst
    rw [List.map_cons, List.map_cons, ← hparagraph, ← ih.1]
    refine ⟨rfl, ?_⟩
    intro payload hpayload
    rcases List.mem_cons.mp hpayload with rfl | hpayload
    . exact hr
    . exact ih.2 payload hpayload

theorem splitArea_of_fst {body : List Char} (h : (splitArea body).1 = none) : splitArea body = (none, body) := by
  unfold splitArea at *
  split
  . rfl
  . next rest hprefixed =>
    rw [hprefixed] at h
    dsimp only at h ⊢
    split
    . next hvalid =>
      rw [if_pos hvalid] at h
      cases h
    . rfl

/--
The text is not taken for an area line that the message does not have.
-/
def PackedMessage.LacksArea (message : PackedMessage) : Prop :=
  message.area = none → message.controls = [] → (splitArea message.text).1 = none

theorem readBody_of_lacksArea {message : PackedMessage} {body : List Char} (h : message.body = .ok body)
    (harea : message.LacksArea)
    : readBody body =
        (message.area, (message.controls.map (·.raw)).map .ofPayload ++ (splitControls message.text).1,
          (splitControls message.text).2) := by
  unfold PackedMessage.body at h
  simp only [Except.bind_ok_iff] at h
  obtain ⟨line, hline, paragraphs, hparagraphs, hbody⟩ := h
  injection hbody with hbody
  obtain ⟨hwritten, hr⟩ := mapM_control_eq_ok hparagraphs
  have hcontrols : splitControls (paragraphs.flatten ++ message.text) =
      ((message.controls.map (·.raw)).map .ofPayload ++ (splitControls message.text).1,
        (splitControls message.text).2) := by
    rw [hwritten, splitControls_append hr]
  unfold areaLine at hline
  split at hline
  . next hnone =>
    injection hline with hline
    have hsplit : splitArea (paragraphs.flatten ++ message.text) = (none, paragraphs.flatten ++ message.text) := by
      rw [hwritten]
      cases hlist : message.controls with
      | nil => exact splitArea_of_fst (harea hnone hlist)
      | cons first rest => exact splitArea_none (by simp [controlA])
    rw [← hbody, ← hline, List.nil_append]
    unfold readBody
    rw [hsplit]
    dsimp only
    rw [hcontrols, hnone]
  . next name hsome =>
    split at hline
    . next hvalid =>
      injection hline with hline
      rw [← hbody, ← hline, List.append_assoc, List.append_assoc, List.singleton_append]
      unfold readBody
      rw [splitArea_some hvalid]
      dsimp only
      rw [hcontrols, hsome]
    . cases hline

theorem areRead_iff {controls : List Control}
    : AreRead controls ↔ (controls.map (·.raw)).map .ofPayload = controls := by
  rw [List.map_map]
  constructor
  . intro h
    conv => rhs; rw [← List.map_id controls]
    apply List.map_congr_left
    intro value hvalue
    exact (h value hvalue).symm
  . intro h value hvalue
    have hsame : controls.map (Control.ofPayload ∘ (·.raw)) = controls.map id := by rw [h, List.map_id]
    exact (List.map_inj_left.mp hsame value hvalue).symm

theorem readBody_body {message : PackedMessage} {body : List Char} (h : message.body = .ok body)
    (hread : AreRead message.controls) (hne : message.controls ≠ [])
    : readBody body =
        (message.area, message.controls ++ (splitControls message.text).1, (splitControls message.text).2) := by
  rw [readBody_of_lacksArea h (fun _ hnil => absurd hnil hne), areRead_iff.mp hread]

end Legacy

end Tith
