import Tith.Nodelist.Endpoint
import Tith.Nodelist.Flags

/-!
This module contains the agreement of the lists of flags with the texts that they are written as, and
the flags of the system: one of them has a second spelling.
-/

namespace Tith

namespace Nodelist

/-!
The constructors of a list of flags, and what its text and its parser have to share.
-/

section Lists
variable {α : Type} (display : α → List Char) (parse : List Char → Except NodelistErrorKind (List α))

def validateList (values : List α) : Except NodelistErrorKind Unit :=
  (parse (listText display values)).map (fun _ => ())

def tryFrom (values : List α) : Except NodelistErrorKind (List α) := do
  validateList display parse values
  .ok values

/--
The lists that the public constructors give.
-/
inductive Constructed : List α → Prop where
  | default : Constructed []
  | fromStr {value : List Char} {values : List α} (h : parse value = .ok values) : Constructed values
  | tryFrom {values list : List α} (h : tryFrom display parse values = .ok list) : Constructed list

/--
Every text that the parser takes is the text of the list, and the parser takes every text of a list.
-/
structure IsCanonical : Prop where
  display_parse {value : List Char} {values : List α} (h : parse value = .ok values)
    : listText display values = value
  parse_display {values : List α} (h : Constructed display parse values)
    : parse (listText display values) = .ok values

variable (parseFlag : List Char → Except NodelistErrorKind α) (check : List α → Prop)

/--
A list is read text by text, then checked.
-/
structure ReadsTexts : Prop where
  ok_iff (value : List Char) (values : List α)
    : parse value = .ok values ↔
        ∃ texts, splitFlags value = .ok texts ∧ texts.mapM parseFlag = .ok values ∧ check values
  check_nil : check []

structure HasText : Prop where
  parse_display (value : α) : parseFlag (display value) = .ok value
  ne_nil (value : α) : display value ≠ []
  comma_not_mem (value : α) : ',' ∉ display value

variable {display parse parseFlag check}

theorem splitFlags_ok {value : List Char} {texts : List (List Char)} (h : splitFlags value = .ok texts)
    : [','].intercalate texts = value ∧
        ∀ {P : List Char → Prop}, P [] → ((∀ text ∈ texts, P text) ↔ ∀ text ∈ value.splitOn ',', P text) := by
  unfold splitFlags at h
  split at h
  . next hnil =>
    cases h
    simp +contextual [hnil]
  . dsimp only at h
    split at h
    . cases h
    . injection h with h
      subst h
      exact ⟨List.intercalate_splitOn ',', fun _ => Iff.rfl⟩

theorem map_display_eq_iff {plain : List Char → Prop}
    (hplain : ∀ text value, parseFlag text = .ok value → (display value = text ↔ plain text))
    {texts : List (List Char)} {values : List α} (h : texts.mapM parseFlag = .ok values)
    : values.map display = texts ↔ ∀ text ∈ texts, plain text := by
  have hall := Except.mapM_forall₂ h
  clear h
  induction hall with
  | nil => simp
  | cons hfirst _ ih =>
    rw [List.map_cons, List.cons.injEq, List.forall_mem_cons, hplain _ _ hfirst]
    exact and_congr Iff.rfl ih

theorem splitFlags_listText (htext : HasText display parseFlag) (values : List α)
    : splitFlags (listText display values) = .ok (values.map display) := by
  cases values with
  | nil => rfl
  | cons value values =>
    have hsplit : (listText display (value :: values)).splitOn ',' = (value :: values).map display := by
      apply List.splitOn_intercalate
      . intro text hmem
        obtain ⟨value, _, rfl⟩ := List.mem_map.mp hmem
        exact htext.comma_not_mem value
      . simp
    have hne : listText display (value :: values) ≠ [] := by
      intro hnil
      rw [hnil, List.splitOn_nil] at hsplit
      simp only [List.map_cons, List.cons.injEq] at hsplit
      exact htext.ne_nil value hsplit.1.symm
    unfold splitFlags
    rw [if_neg hne, hsplit]
    dsimp only
    rw [if_neg]
    simp [htext.ne_nil]

theorem parse_listText (hreads : ReadsTexts parse parseFlag check) (htext : HasText display parseFlag)
    {values : List α} (hcheck : check values)
    : parse (listText display values) = .ok values := by
  refine (hreads.ok_iff _ _).mpr ⟨values.map display, splitFlags_listText htext values, ?_, hcheck⟩
  apply Except.mapM_of_forall₂
  rw [List.forall₂_map_left_iff]
  exact List.forall₂_same.mpr (fun value _ => htext.parse_display value)

theorem parse_constructed (hreads : ReadsTexts parse parseFlag check) (htext : HasText display parseFlag)
    {values : List α} (h : Constructed display parse values)
    : parse (listText display values) = .ok values := by
  apply parse_listText hreads htext
  cases h with
  | default => exact hreads.check_nil
  | fromStr h =>
    obtain ⟨_, _, _, hcheck⟩ := (hreads.ok_iff _ _).mp h
    exact hcheck
  | tryFrom h =>
    next given =>
    simp only [tryFrom, validateList, Except.bind_ok_iff, Except.map_eq_ok, Except.ok.injEq] at h
    obtain ⟨_, ⟨read, hread, _⟩, rfl⟩ := h
    obtain ⟨texts, hsplit, hmap, hcheck⟩ := (hreads.ok_iff _ _).mp hread
    -- The flags that the parser has checked are the given ones.
    rw [splitFlags_listText htext] at hsplit
    injection hsplit with hsplit
    subst hsplit
    have hgiven : (given.map display).mapM parseFlag = .ok given := by
      apply Except.mapM_of_forall₂
      rw [List.forall₂_map_left_iff]
      exact List.forall₂_same.mpr (fun value _ => htext.parse_display value)
    rw [hgiven] at hmap
    injection hmap with hmap
    exact hmap ▸ hcheck

theorem listText_eq_iff (hreads : ReadsTexts parse parseFlag check) (htext : HasText display parseFlag)
    {plain : List Char → Prop} (hnil : plain [])
    (hplain : ∀ text value, parseFlag text = .ok value → (display value = text ↔ plain text))
    {text : List Char} {values : List α} (h : parse text = .ok values)
    : listText display values = text ↔ ∀ flag ∈ text.splitOn ',', plain flag := by
  obtain ⟨texts, hsplit, hmap, _⟩ := (hreads.ok_iff _ _).mp h
  obtain ⟨hjoin, hmem⟩ := splitFlags_ok hsplit
  rw [← hmem hnil, ← map_display_eq_iff hplain hmap]
  constructor
  . intro heq
    have hback := splitFlags_listText htext values
    rw [heq, hsplit] at hback
    injection hback with hback
    exact hback.symm
  . intro heq
    rw [listText, heq, hjoin]

theorem isCanonical_of (hreads : ReadsTexts parse parseFlag check) (htext : HasText display parseFlag)
    (hplain : ∀ text value, parseFlag text = .ok value → display value = text)
    : IsCanonical display parse where
  display_parse h :=
    (@listText_eq_iff _ _ _ _ _ hreads htext (fun _ => True) trivial
      (fun text value h => iff_of_true (hplain text value h) trivial) _ _ h).mpr (fun _ _ => trivial)
  parse_display := parse_constructed hreads htext

end Lists

/-!
Flags of the system.
-/

theorem halfHourText_parse (value : HalfHour) : parseHalfHour (halfHourText value) = some value := by
  decide +revert +kernel

theorem halfHourText_of_parse {c : Char} {value : HalfHour} (h : parseHalfHour c = some value)
    : halfHourText value = c := by
  have hupper : ∀ k : Fin 24, halfHourText (Fin.ofNat 48 (k.val * 2)) = Char.ofNat (65 + k.val) := by decide
  have hlower : ∀ k : Fin 24, halfHourText (Fin.ofNat 48 (k.val * 2 + 1)) = Char.ofNat (97 + k.val) := by decide
  unfold parseHalfHour at h
  split at h
  . next hrange =>
    injection h with h
    have hlow : 65 ≤ c.toNat := hrange.1
    have hhigh : c.toNat ≤ 88 := hrange.2
    have htext := hupper ⟨c.toNat - 65, by omega⟩
    rw [← h]
    change halfHourText (Fin.ofNat 48 ((c.toNat - 65) * 2)) = c
    rw [htext, Nat.add_sub_cancel' hlow, Char.ofNat_toNat]
  . split at h
    . next hrange =>
      injection h with h
      have hlow : 97 ≤ c.toNat := hrange.1
      have hhigh : c.toNat ≤ 120 := hrange.2
      have htext := hlower ⟨c.toNat - 97, by omega⟩
      rw [← h]
      change halfHourText (Fin.ofNat 48 ((c.toNat - 97) * 2 + 1)) = c
      rw [htext, Nat.add_sub_cancel' hlow, Char.ofNat_toNat]
    . cases h

/--
A mail period whose hour has a sign.
-/
def isSigned (text : List Char) : Bool :=
  match text with
  | [mark, sign, _] => (mark == '#' || mark == '!') && sign == '+'
  | _ => false

theorem twoDigits_of_digits {a b : Char} (ha : a.isDigit = true) (hb : b.isDigit = true)
    (h : Nat.ofDigitChars 10 [a, b] 0 < 24)
    : SystemFlag.twoDigits (Nat.ofDigitChars 10 [a, b] 0) = [a, b] := by
  have htable : ∀ i j : Fin 10, i.val * 10 + j.val < 24 →
      SystemFlag.twoDigits (i.val * 10 + j.val) = [Nat.digitChar i.val, Nat.digitChar j.val] := by
    decide
  have hlt {c : Char} (hc : c.isDigit = true) : c.toNat - '0'.toNat < 10 := by
    simp only [Char.isDigit, Bool.and_eq_true, decide_eq_true_eq] at hc
    have hle : c.toNat ≤ 57 := hc.2
    change c.toNat - 48 < 10
    omega
  have hvalue : Nat.ofDigitChars 10 [a, b] 0 = (a.toNat - '0'.toNat) * 10 + (b.toNat - '0'.toNat) := by
    simp only [Nat.ofDigitChars_cons, Nat.ofDigitChars_nil]
    omega
  rw [hvalue] at h ⊢
  have htext := htable ⟨_, hlt ha⟩ ⟨_, hlt hb⟩ h
  rwa [Text.digitChar_of_isDigit ha, Text.digitChar_of_isDigit hb] at htext

theorem parseMailPeriod_ok {bell212a : Bool} {text : List Char} {period : MailPeriod}
    (h : parseMailPeriod bell212a text = .ok period)
    : period.bell212a = bell212a ∧ Text.digits? (Text.stripPlus text) = some period.hour.val := by
  unfold parseMailPeriod Text.parseBelow at h
  split at h
  . cases h
  . next hour hread =>
    split at hread
    . cases hread
    . next n hdigits =>
      split at hread
      . injection hread with hread
        subst hread
        split at h
        . cases h
          exact ⟨rfl, hdigits⟩
        . cases h
      . cases hread

theorem twoDigits_eq_iff {a b : Char} {hour : Fin 24}
    (h : Text.digits? (Text.stripPlus [a, b]) = some hour.val)
    : SystemFlag.twoDigits hour.val = [a, b] ↔ a ≠ '+' := by
  have hhead : ∀ hour : Fin 24, (SystemFlag.twoDigits hour.val).head? ≠ some '+' := by decide
  constructor
  . rintro heq rfl
    exact hhead hour (by rw [heq]; rfl)
  . intro hsign
    have hstrip : Text.stripPlus [a, b] = [a, b] := by
      unfold Text.stripPlus
      split
      . next heq =>
        injection heq with heq
        exact absurd heq hsign
      . rfl
    rw [hstrip] at h
    unfold Text.digits? at h
    split at h
    . next hall =>
      have hboth : a.isDigit = true ∧ b.isDigit = true := by simpa using hall.2
      injection h with h
      rw [← h]
      exact twoDigits_of_digits hboth.1 hboth.2 (h ▸ hour.isLt)
    . cases h

theorem parseMailPeriod_twoDigits (period : MailPeriod)
    : parseMailPeriod period.bell212a (SystemFlag.twoDigits period.hour.val) = .ok period := by
  have hread : ∀ hour : Fin 24,
      Text.parseBelow 256 (SystemFlag.twoDigits hour.val) = some hour.val := by decide
  unfold parseMailPeriod
  rw [hread]
  dsimp only
  rw [dif_pos period.hour.isLt]

theorem named_of_find {text : List Char} {flag : SystemFlag}
    (h : namedSystemFlags.find? (fun flag => flag.display = text) = some flag)
    : flag.display = text := by
  simpa using List.find?_some h

theorem isSigned_of_named {flag : SystemFlag} (h : flag ∈ namedSystemFlags) : isSigned flag.display = false := by
  have hall : ∀ flag ∈ namedSystemFlags, isSigned flag.display = false := by decide
  exact hall flag h

theorem display_system_eq_iff (text : List Char) (flag : SystemFlag) (h : parseSystemFlag text = .ok flag)
    : flag.display = text ↔ isSigned text = false := by
  unfold parseSystemFlag at h
  split at h
  . next named hfind =>
    cases h
    have htext := named_of_find hfind
    exact iff_of_true htext (htext ▸ isSigned_of_named (List.mem_of_find?_eq_some hfind))
  . split at h
    . next a b =>
      rw [Except.bind_ok_iff] at h
      obtain ⟨period, hperiod, h⟩ := h
      cases h
      obtain ⟨hbell, hdigits⟩ := parseMailPeriod_ok hperiod
      rw [SystemFlag.display, if_pos hbell, List.cons.injEq, twoDigits_eq_iff hdigits]
      simp [isSigned]
    . next a b =>
      rw [Except.bind_ok_iff] at h
      obtain ⟨period, hperiod, h⟩ := h
      cases h
      obtain ⟨hbell, hdigits⟩ := parseMailPeriod_ok hperiod
      rw [SystemFlag.display, if_neg (by simp [hbell]), List.cons.injEq, twoDigits_eq_iff hdigits]
      simp [isSigned]
    . next a b =>
      simp only [Except.bind_ok_iff, Option.okOr_eq_ok, Except.ok.injEq] at h
      obtain ⟨start, hstart, stop, hstop, rfl⟩ := h
      refine iff_of_true ?_ ?_
      . rw [SystemFlag.display, halfHourText_of_parse hstart, halfHourText_of_parse hstop]
      . rfl
    . cases h

theorem find_named {flag : SystemFlag} (h : flag ∈ namedSystemFlags)
    : namedSystemFlags.find? (fun named => named.display = flag.display) = some flag := by
  have hall : ∀ flag ∈ namedSystemFlags,
      namedSystemFlags.find? (fun named => named.display = flag.display) = some flag := by decide
  exact hall flag h

theorem find_of_mark {mark : Char} {text : List Char} (h : mark = '#' ∨ mark = '!' ∨ mark = 'T')
    : namedSystemFlags.find? (fun named => named.display = mark :: text) = none := by
  have hall : ∀ named ∈ namedSystemFlags, named.display.head? ≠ some '#' ∧
      named.display.head? ≠ some '!' ∧ named.display.head? ≠ some 'T' := by decide
  rw [List.find?_eq_none]
  intro named hmem
  simp only [decide_eq_true_eq]
  intro heq
  have hheads := hall named hmem
  rw [heq] at hheads
  simp only [List.head?_cons, ne_eq, Option.some.injEq] at hheads
  tauto

theorem parseSystemFlag_display (flag : SystemFlag) : parseSystemFlag flag.display = .ok flag := by
  have hnamed (h : flag ∈ namedSystemFlags) : parseSystemFlag flag.display = .ok flag := by
    unfold parseSystemFlag
    rw [find_named h]
  cases flag with
  | mailPeriod period =>
    have hlength : ∀ hour : Fin 24, (SystemFlag.twoDigits hour.val).length = 2 := by decide
    obtain ⟨a, b, hdigits⟩ := List.length_eq_two.mp (hlength period.hour)
    have hread := parseMailPeriod_twoDigits period
    rw [hdigits] at hread
    cases hbell : period.bell212a with
    | true =>
      have htext : (SystemFlag.mailPeriod period).display = ['#', a, b] := by
        simp [SystemFlag.display, hbell, hdigits]
      rw [hbell] at hread
      rw [htext, parseSystemFlag, find_of_mark (by simp)]
      dsimp only
      rw [hread, Except.bind_of_ok]
    | false =>
      have htext : (SystemFlag.mailPeriod period).display = ['!', a, b] := by
        simp [SystemFlag.display, hbell, hdigits]
      rw [hbell] at hread
      rw [htext, parseSystemFlag, find_of_mark (by simp)]
      dsimp only
      rw [hread, Except.bind_of_ok]
  | onlinePeriod period =>
    rw [SystemFlag.display, parseSystemFlag, find_of_mark (by simp)]
    dsimp only
    rw [halfHourText_parse, halfHourText_parse]
    rfl
  | fileRequest flag => exact hnamed (by cases flag <;> decide)
  | continuousMail => exact hnamed (by decide)
  | listedOnly => exact hnamed (by decide)
  | manualPackets => exact hnamed (by decide)
  | internetContinuousMail => exact hnamed (by decide)

theorem system_hasText : HasText SystemFlag.display parseSystemFlag where
  parse_display := parseSystemFlag_display
  ne_nil flag := by
    cases flag with
    | fileRequest flag => cases flag <;> decide
    | _ => first | decide | simp [SystemFlag.display]
  comma_not_mem flag := by
    have hhour : ∀ hour : Fin 24, ',' ∉ SystemFlag.twoDigits hour.val := by decide
    have hhalf : ∀ value : HalfHour, ',' ≠ halfHourText value := by decide
    cases flag with
    | fileRequest flag => cases flag <;> decide
    | mailPeriod period => cases hbell : period.bell212a <;> simp [SystemFlag.display, hbell, hhour]
    | onlinePeriod period => simp [SystemFlag.display, hhalf]
    | _ => decide

/--
No hour stands twice among the mail periods, nor among the hours seen in front of them.
-/
def FreshPeriods (periods : List (Fin 24)) (flags : SystemFlags) : Prop :=
  match flags with
  | [] => True
  | .mailPeriod period :: rest => period.hour ∉ periods ∧ FreshPeriods (period.hour :: periods) rest
  | _ :: rest => FreshPeriods periods rest

theorem parseSystem_go_ok {texts : List (List Char)} {periods : List (Fin 24)} {flags : SystemFlags}
    : parseSystem.go texts periods = .ok flags ↔
        texts.mapM parseSystemFlag = .ok flags ∧ FreshPeriods periods flags := by
  induction texts generalizing periods flags with
  | nil =>
    simp only [parseSystem.go, List.mapM_nil, Except.pure_eq_ok, Except.ok.injEq]
    constructor
    . rintro rfl
      exact ⟨rfl, trivial⟩
    . exact And.left
  | cons text texts ih =>
    simp only [parseSystem.go, List.mapM_cons, Except.bind_ok_iff, Except.pure_eq_ok, Except.ok.injEq]
    constructor
    . rintro ⟨flag, hflag, h⟩
      split at h
      . next period =>
        split at h
        . cases h
        . next hfresh =>
          simp only [Except.bind_ok_iff, Except.ok.injEq] at h
          obtain ⟨rest, hrest, rfl⟩ := h
          rw [ih] at hrest
          exact ⟨⟨_, hflag, _, hrest.1, rfl⟩, by simpa using hfresh, hrest.2⟩
      . next hother =>
        simp only [Except.bind_ok_iff, Except.ok.injEq] at h
        obtain ⟨rest, hrest, rfl⟩ := h
        rw [ih] at hrest
        refine ⟨⟨_, hflag, _, hrest.1, rfl⟩, ?_⟩
        unfold FreshPeriods
        split <;> simp_all
    . rintro ⟨⟨flag, hflag, rest, hrest, rfl⟩, hfresh⟩
      refine ⟨flag, hflag, ?_⟩
      cases flag with
      | mailPeriod period =>
        dsimp only
        rw [if_neg (by simpa using hfresh.1)]
        rw [ih.mpr ⟨hrest, hfresh.2⟩]
        rfl
      | _ =>
        dsimp only
        rw [ih.mpr ⟨hrest, hfresh⟩]
        rfl

theorem system_readsTexts : ReadsTexts parseSystem parseSystemFlag
    (fun flags => FreshPeriods [] flags ∧ checkOrder SystemFlag.display SystemFlag.order flags = .ok ()) where
  ok_iff value flags := by
    simp only [parseSystem, Except.bind_ok_iff, Except.ok.injEq, parseSystem_go_ok]
    constructor
    . rintro ⟨texts, hsplit, flags, ⟨hmap, hfresh⟩, _, hcheck, rfl⟩
      exact ⟨texts, hsplit, hmap, hfresh, hcheck⟩
    . rintro ⟨texts, hsplit, hmap, hfresh, hcheck⟩
      exact ⟨texts, hsplit, flags, ⟨hmap, hfresh⟩, (), hcheck, rfl⟩
  check_nil := ⟨trivial, rfl⟩

end Nodelist

end Tith
