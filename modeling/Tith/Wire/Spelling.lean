import Tith.Wire.Lemmas.Address

/-!
This module contains the proof that every address has one spelling that the parser accepts, apart from the
anonymous addresses, whose node may be spelled out.
-/

namespace Tith

theorem parseNumber_ok {text : List Char} {allowNegativeOne : Bool} {n : Int}
    (h : parseNumber text allowNegativeOne = .ok n)
    : showInt n = text ∧ n ≠ 0 := by
  unfold parseNumber at h
  split at h
  . next hminus =>
    injection h with h
    subst h
    rw [hminus.2]
    exact ⟨rfl, by decide⟩
  . split at h
    . cases h
    . next hhead =>
      split at h
      . cases h
      . next k hk =>
        split at h
        . injection h with h
          subst h
          have htext := Text.toDigits_of_digits hk hhead
          refine ⟨htext, ?_⟩
          intro hzero
          apply hhead
          rw [← htext, Int.natCast_eq_zero.mp hzero]
          rfl
        . cases h

theorem pointOf_ok {n : Int} {point : UInt16} (h : pointOf n = .ok point) : (point.toNat : Int) = n := by
  unfold pointOf at h
  split at h
  . injection h with h
    subst h
    rw [UInt16.toNat_ofNat_of_lt' (by change n.toNat < 65536; omega)]
    omega
  . cases h

theorem takeComponent_append (input : List Char)
    : (takeComponent input).1 ++ (takeComponent input).2 = input := by
  unfold takeComponent
  rw [List.span_eq_takeWhile_dropWhile]
  exact List.takeWhile_append_dropWhile

theorem takeComponent_starts (input : List Char) : StartsComponent (takeComponent input).2 := by
  intro c hc
  unfold takeComponent at hc
  rw [List.span_eq_takeWhile_dropWhile] at hc
  have hstop := List.head?_dropWhile_not (fun c => !([':', '/', '.'].contains c)) input
  rw [Option.mem_def] at hc
  simp only [hc] at hstop
  simpa only [Bool.not_eq_false', List.contains_eq_mem, decide_eq_true_eq] using hstop

/--
The text of a component that may be left out, and the value the parser has without it.
-/
def Spells (start : Char) (part : List Char) (default value : Int) : Prop :=
  (part = [] ∧ value = default) ∨ (part = start :: showInt value ∧ value ≠ 0)

namespace Address.fromStr

variable {zone net node net' node' : Int} {fuel : Nat} {rest : List Char} {point point' : UInt16}

theorem go_lastPrefix {c : Char} {lastPrefix lastPrefix' : Nat} (hlast : lastPrefix < prefixOrder c)
    (hlast' : lastPrefix' < prefixOrder c)
    : go zone fuel (c :: rest) net node point lastPrefix =
        go zone fuel (c :: rest) net node point lastPrefix' := by
  -- The parser looks at the last prefix only to compare it with the next one.
  unfold go
  cases fuel with
  | zero => rfl
  | succ fuel =>
    dsimp only
    rw [if_neg (Nat.not_le.mpr hlast), if_neg (Nat.not_le.mpr hlast')]

theorem go_ok_end (h : go zone fuel rest net node point 3 = .ok (net', node', point'))
    : net' = net ∧ node' = node ∧ point' = point ∧ rest = [] := by
  unfold go at h
  split at h
  . cases h
    exact ⟨rfl, rfl, rfl, rfl⟩
  . cases h
  . next c rest fuel =>
    rw [if_pos] at h
    . cases h
    . unfold prefixOrder
      split
      . omega
      . split <;> omega

theorem go_ok_point (hrest : StartsComponent rest)
    (h : go zone fuel rest net node 0 2 = .ok (net', node', point'))
    : net' = net ∧ node' = node ∧ Spells '.' rest 0 point'.toNat := by
  -- Behind the node there is at most a point.
  unfold go at h
  split at h
  . cases h
    exact ⟨rfl, rfl, .inl ⟨rfl, rfl⟩⟩
  . cases h
  . next c rest fuel =>
    split at h
    . cases h
    . next horder =>
      have hc : c = '.' := by
        have hmem := hrest c rfl
        simp only [List.mem_cons, List.not_mem_nil, or_false] at hmem
        rcases hmem with rfl | rfl | rfl
        . exact absurd (by decide) horder
        . exact absurd (by decide) horder
        . rfl
      subst hc
      simp only [Char.reduceEq, if_false, Except.bind_ok_iff] at h
      obtain ⟨parsed, hparsed, point, hpoint, h⟩ := h
      obtain ⟨htext, hzero⟩ := parseNumber_ok hparsed
      obtain ⟨rfl, rfl, rfl, hend⟩ := go_ok_end h
      refine ⟨rfl, rfl, .inr ?_⟩
      have happend := takeComponent_append rest
      rw [hend, List.append_nil] at happend
      rw [pointOf_ok hpoint, htext, happend]
      exact ⟨rfl, hzero⟩

theorem go_ok_node (hrest : StartsComponent rest)
    (h : go zone fuel rest net node 0 1 = .ok (net', node', point'))
    : ∃ nodeText pointText, rest = nodeText ++ pointText ∧ net' = net ∧
        Spells '/' nodeText node node' ∧ Spells '.' pointText 0 point'.toNat := by
  cases rest with
  | nil =>
    rw [go.eq_1] at h
    cases h
    exact ⟨[], [], rfl, rfl, .inl ⟨rfl, rfl⟩, .inl ⟨rfl, rfl⟩⟩
  | cons c rest =>
    by_cases hc : c = '/'
    . subst hc
      unfold go at h
      cases fuel with
      | zero => cases h
      | succ fuel =>
        dsimp only at h
        rw [if_neg (by decide)] at h
        simp only [Char.reduceEq, if_false, if_true, Except.bind_ok_iff] at h
        obtain ⟨node₁, hnode, h⟩ := h
        obtain ⟨htext, hzero⟩ := parseNumber_ok hnode
        obtain ⟨rfl, rfl, hpoint⟩ := go_ok_point (takeComponent_starts rest) h
        refine ⟨'/' :: (takeComponent rest).1, (takeComponent rest).2, ?_, rfl, .inr ?_, hpoint⟩
        . rw [List.cons_append, takeComponent_append]
        . rw [htext]
          exact ⟨rfl, hzero⟩
    . have horder : c = ':' ∨ 2 < prefixOrder c := by
        unfold prefixOrder
        by_cases hcolon : c = ':'
        . exact .inl hcolon
        . rw [if_neg hcolon, if_neg hc]
          omega
      rcases horder with rfl | horder
      . unfold go at h
        cases fuel <;> cases h
      . rw [go_lastPrefix (by omega) horder] at h
        obtain ⟨hnet, hnode, hpoint⟩ := go_ok_point hrest h
        exact ⟨[], c :: rest, rfl, hnet, .inl ⟨rfl, hnode⟩, hpoint⟩

theorem go_ok_net (hrest : StartsComponent rest)
    (h : go zone fuel rest zone node 0 0 = .ok (net', node', point'))
    : ∃ netText nodeText pointText, rest = netText ++ (nodeText ++ pointText) ∧
        netText = (if net' ≠ zone then ':' :: showInt net' else []) ∧
        Spells '/' nodeText node node' ∧ Spells '.' pointText 0 point'.toNat := by
  cases rest with
  | nil =>
    rw [go.eq_1] at h
    cases h
    exact ⟨[], [], [], rfl, by rw [if_neg (by simp)], .inl ⟨rfl, rfl⟩, .inl ⟨rfl, rfl⟩⟩
  | cons c rest =>
    by_cases hc : c = ':'
    . subst hc
      unfold go at h
      cases fuel with
      | zero => cases h
      | succ fuel =>
        dsimp only at h
        rw [if_neg (by decide)] at h
        simp only [if_true, Except.bind_ok_iff] at h
        obtain ⟨net₁, hnet, h⟩ := h
        obtain ⟨htext, -⟩ := parseNumber_ok hnet
        split at h
        . cases h
        . next hzone =>
          obtain ⟨nodeText, pointText, hrest, rfl, hnode, hpoint⟩ :=
            go_ok_node (takeComponent_starts rest) h
          refine ⟨':' :: (takeComponent rest).1, nodeText, pointText, ?_, ?_, hnode, hpoint⟩
          . rw [← hrest, List.cons_append, takeComponent_append]
          . rw [if_pos hzone, htext]
    . have horder : 1 < prefixOrder c := by
        unfold prefixOrder
        rw [if_neg hc]
        split <;> omega
      rw [go_lastPrefix (by omega) horder] at h
      obtain ⟨nodeText, pointText, hsplit, rfl, hnode, hpoint⟩ := go_ok_node hrest h
      exact ⟨[], nodeText, pointText, hsplit, by rw [if_neg (by simp)], hnode, hpoint⟩

end Address.fromStr

/--
An anonymous address whose node is written out, although it is the default.
-/
def SpellsAnonymousNode (text : String) (domain : String) : Prop :=
  validateDomain domain = .ok () ∧ text = domain ++ "#-1/-1"

namespace Address

theorem new_ok {domain : String} {zone net node : Int} {point : UInt16} {address : Address}
    (h : Address.new domain zone net node point = .ok address)
    : address.domain = domain ∧ address.zone = zone ∧ address.net = net ∧ address.node = node ∧
        address.point = point := by
  unfold Address.new at h
  split at h
  . cases h
  . cases h
    exact ⟨rfl, rfl, rfl, rfl, rfl⟩

theorem fromStr_parts {text : String} {address : Address} (h : fromStr text = .ok address)
    : ∃ nodeText pointText,
        text.toList = address.domain.toList ++ '#' :: (showInt address.zone ++
          (address.displayNet ++ (nodeText ++ pointText))) ∧
        Spells '/' nodeText (defaultNode address.zone) address.node ∧
        Spells '.' pointText 0 address.point.toNat := by
  -- What the parser has read, part by part.
  unfold fromStr at h
  split at h
  . cases h
  . next hhash =>
    rw [not_not, List.contains_iff_mem] at hhash
    obtain ⟨domain, hashRest, htext, hspan⟩ := List.span_of_mem hhash
    rw [hspan] at h
    simp only [List.tail_cons, Except.bind_ok_iff] at h
    obtain ⟨-, -, zone, hzone, h⟩ := h
    split at h
    . cases h
    . rw [Except.bind_ok_iff] at h
      obtain ⟨⟨net, node, point⟩, hgo, hnew⟩ := h
      obtain ⟨hdomain, rfl, rfl, rfl, rfl⟩ := new_ok hnew
      have hdefault : (if address.zone = -1 then -1 else address.zone) = address.zone := by
        split
        . next h => exact h.symm
        . rfl
      rw [hdefault] at hgo
      obtain ⟨netText, nodeText, pointText, hrest, hnet, hnode, hpoint⟩ :=
        fromStr.go_ok_net (takeComponent_starts _) hgo
      refine ⟨nodeText, pointText, ?_, hnode, hpoint⟩
      have hzoneText := takeComponent_append hashRest
      rw [hrest, hnet, ← (parseNumber_ok hzone).1] at hzoneText
      rw [htext, ← hzoneText, hdomain, String.toList_ofList]
      rfl

theorem displayPoint_of_spells {address : Address} {pointText : List Char}
    (h : Spells '.' pointText 0 address.point.toNat)
    : address.displayPoint = pointText := by
  unfold displayPoint
  rcases h with ⟨rfl, hzero⟩ | ⟨rfl, hzero⟩
  . rw [if_neg]
    rw [not_not, ← UInt16.toNat_inj]
    exact_mod_cast hzero
  . rw [if_pos]
    . rfl
    . intro h
      rw [h] at hzero
      exact hzero rfl

/--
A node that is written although it is the default is the one of an anonymous address.
-/
theorem displayNode_of_spells {address : Address} {nodeText : List Char}
    (h : Spells '/' nodeText (defaultNode address.zone) address.node)
    : address.displayNode = nodeText ∨ (nodeText = ['/', '-', '1'] ∧ address.zone = -1) := by
  unfold displayNode
  rcases h with ⟨rfl, hnode⟩ | ⟨rfl, hnode⟩
  . exact .inl (if_neg (not_not.mpr hnode))
  . unfold defaultNode
    rcases address.valid_cases.2 with ⟨hzone, -, hminus, -⟩ | hranges
    . rw [hminus]
      exact .inr ⟨rfl, hzone⟩
    . left
      rw [if_pos]
      rw [if_neg (by omega)]
      exact hnode

theorem fromStr_spelling {text : String} {address : Address} (h : fromStr text = .ok address)
    : address.display = text ∨ SpellsAnonymousNode text address.domain := by
  obtain ⟨nodeText, pointText, htext, hnode, hpoint⟩ := fromStr_parts h
  obtain rfl := displayPoint_of_spells hpoint
  rcases displayNode_of_spells hnode with rfl | ⟨rfl, hzone⟩
  . left
    apply String.toList_injective
    rw [htext]
    simp [display]
  . right
    refine ⟨address.valid_cases.1, ?_⟩
    apply String.toList_injective
    have hanonymous : address.net = -1 ∧ address.point = 0 := by
      rcases address.valid_cases.2 with ⟨-, hnet, -, hpoint⟩ | hranges
      . exact ⟨hnet, hpoint⟩
      . omega
    have hminus : showInt (-1) = ['-', '1'] := by decide
    rw [htext, displayNet, displayPoint, hzone, hanonymous.1, hanonymous.2, hminus]
    simp

def anonymous (domain : String) : Except AddressError Address := Address.new domain (-1) (-1) (-1) 0

theorem anonymous_ok {domain : String} (h : validateDomain domain = .ok ())
    : ∃ address, anonymous domain = .ok address ∧ address.display = domain ++ "#-1" := by
  have hvalid : validateAddress domain (-1) (-1) (-1) 0 = .ok () := by
    unfold validateAddress
    rw [h]
    simp
  have hminus : showInt (-1) = ['-', '1'] := by decide
  refine ⟨⟨domain, -1, -1, -1, 0, hvalid⟩, new_self ⟨domain, -1, -1, -1, 0, hvalid⟩, ?_⟩
  apply String.toList_injective
  simp [display, displayNet, displayNode, displayPoint, defaultNode, hminus]

theorem fromStr_anonymousNode {text domain : String} (h : SpellsAnonymousNode text domain)
    : fromStr text = anonymous domain := by
  -- The parser takes the written node of an anonymous address.
  obtain ⟨hdomain, rfl⟩ := h
  have hsuffix : ("#-1/-1" : String).toList = ['#', '-', '1', '/', '-', '1'] := rfl
  have hspan : (domain ++ "#-1/-1").toList.span (· ≠ '#') =
      (domain.toList, ['#', '-', '1', '/', '-', '1']) := by
    rw [String.toList_append, hsuffix]
    apply List.span_append
    . intro c hc
      simp only [decide_eq_true_eq]
      rintro rfl
      exact validateDomain_hash hdomain hc
    . simp
  have hzone : takeComponent ['-', '1', '/', '-', '1'] = (['-', '1'], ['/', '-', '1']) := by decide
  have hminus : parseNumber ['-', '1'] true = .ok (-1) := rfl
  have hnode : fromStr.go (-1) 3 ['/', '-', '1'] (-1) (defaultNode (-1)) 0 0 = .ok (-1, -1, 0) := by
    decide
  unfold fromStr
  rw [if_neg (by simp [hsuffix]), hspan]
  simp only [String.ofList_toList, hdomain, List.tail_cons, Except.bind_of_ok, hzone, hminus]
  rw [if_neg (by omega)]
  simp only [if_true, List.length_cons, List.length_nil, Nat.reduceAdd, hnode, Except.bind_of_ok]
  rfl

end Address

/--
Parsing undoes the display of every address. The display undoes parsing at exactly the texts that do not
write out the node of an anonymous address, and two texts for one address are such a text and the canonical one.
-/
theorem address_text_bijection (address : Address) (text : String)
    : Address.fromStr address.display = .ok address ∧
      ((∀ address, Address.fromStr text = .ok address → address.display = text) ↔
        ¬∃ domain, SpellsAnonymousNode text domain) ∧
      (∀ (text' : String) (address : Address), Address.fromStr text = .ok address →
        Address.fromStr text' = .ok address → text ≠ text' →
        SpellsAnonymousNode text address.domain ∨ SpellsAnonymousNode text' address.domain) := by
  refine ⟨address.fromStr_display, ?_, ?_⟩
  . constructor
    . rintro h ⟨domain, hspells⟩
      obtain ⟨address, hanonymous, hdisplay⟩ := Address.anonymous_ok hspells.1
      rw [← Address.fromStr_anonymousNode hspells] at hanonymous
      have htext := h address hanonymous
      rw [hspells.2, hdisplay] at htext
      have hlength := congrArg String.length htext
      rw [String.length_append, String.length_append] at hlength
      have hsuffix := Nat.add_left_cancel hlength
      exact absurd hsuffix (by decide)
    . intro h address haddress
      rcases Address.fromStr_spelling haddress with hdisplay | hspells
      . exact hdisplay
      . exact absurd ⟨_, hspells⟩ h
  . intro text' address h h' hne
    rcases Address.fromStr_spelling h with hdisplay | hspells
    . rcases Address.fromStr_spelling h' with hdisplay' | hspells'
      . exact absurd (hdisplay.symm.trans hdisplay') hne
      . exact .inr hspells'
    . exact .inl hspells

/--
An address with the node of an anonymous address is read, and has another text.
-/
theorem address_text_second_spelling
    : ∃ address, Address.fromStr "fidonet#-1/-1" = .ok address ∧ Address.fromStr "fidonet#-1" = .ok address ∧
        address.display = "fidonet#-1" := by
  refine ⟨⟨"fidonet", -1, -1, -1, 0, by decide⟩, by decide, by decide, by decide⟩

end Tith
