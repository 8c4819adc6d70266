import Tith.Bso.Layout
import Tith.Wire.Spelling

/-!
This module contains the text under which a node of the outbound layout is handed on, and the proof of
which nodes it reaches the other side for.
-/

namespace Tith

namespace Bso

namespace NodeAddress

def displayDomain (address : NodeAddress) : List Char :=
  match address.domain with
  | some domain => domain.toList ++ ['#']
  | none => []

def displayPoint (address : NodeAddress) : List Char :=
  if address.point ≠ 0 then '.' :: Nat.toDigits 10 address.point.toNat else []

def display (address : NodeAddress) : String :=
  String.ofList (address.displayDomain ++ Nat.toDigits 10 address.zone.toNat ++
    ':' :: Nat.toDigits 10 address.net.toNat ++ '/' :: Nat.toDigits 10 address.node.toNat ++ address.displayPoint)

end NodeAddress

/--
Nothing can be addressed without a domain.
-/
def destination (address : NodeAddress) : Option String := address.domain.map fun _ => address.display

/--
The parts of an address that is built from a node.
-/
structure Names (address : Address) (domain : String) (place : NodeAddress) : Prop where
  domain : address.domain = domain
  zone : address.zone = place.zone.toNat
  net : address.net = place.net.toNat
  node : address.node = place.node.toNat
  point : address.point = place.point

section Destination

variable {address : Address} {domain : String} {node : NodeAddress}

theorem names_of_new
    (h : Address.new domain node.zone.toNat node.net.toNat node.node.toNat node.point = .ok address)
    : Names address domain node := by
  obtain ⟨hdomain, hzone, hnet, hnode, hpoint⟩ := Address.new_ok h
  exact ⟨hdomain, hzone, hnet, hnode, hpoint⟩

variable (hnames : Names address domain node) (hdomain : node.domain = some domain)

include hnames hdomain

theorem toList_display_node
    : node.display.toList = address.domain.toList ++ '#' :: showInt address.zone ++
        ':' :: showInt address.net ++ '/' :: showInt address.node ++ address.displayPoint := by
  have hpoint : node.displayPoint = address.displayPoint := by
    unfold NodeAddress.displayPoint Address.displayPoint
    rw [hnames.point]
  unfold NodeAddress.display NodeAddress.displayDomain
  rw [String.toList_ofList, hdomain, hpoint, hnames.domain, hnames.zone, hnames.net, hnames.node]
  simp only [showInt_natCast, List.append_assoc, List.cons_append, List.nil_append]

theorem display_eq_of_explicit (hnet : node.net ≠ node.zone) (hnode : node.node ≠ 0)
    : address.display = node.display := by
  have hnet' : address.net ≠ address.zone := by
    rw [hnames.net, hnames.zone]
    intro heq
    apply hnet
    apply UInt16.toNat_inj.mp
    omega
  have hdefault : defaultNode address.zone = 0 := by
    unfold defaultNode
    rw [if_neg]
    rw [hnames.zone]
    omega
  have hnode' : address.node ≠ defaultNode address.zone := by
    rw [hdefault, hnames.node]
    intro heq
    apply hnode
    apply UInt16.toNat_inj.mp
    change node.node.toNat = 0
    omega
  apply String.toList_inj.mp
  rw [toList_display_node hnames hdomain]
  unfold Address.display Address.displayNet Address.displayNode
  rw [String.toList_ofList, if_pos hnet', if_pos hnode']

/--
A canonical text is shorter where a default is left out.
-/
theorem explicit_of_display_eq (h : address.display = node.display) : node.net ≠ node.zone ∧ node.node ≠ 0 := by
  have hlength := congrArg (·.toList.length) h
  simp only [toList_display_node hnames hdomain, Address.display, String.toList_ofList, List.length_append,
    List.length_cons] at hlength
  have hnetLength : address.displayNet.length ≤ (showInt address.net).length + 1 := by
    unfold Address.displayNet
    split
    . simp
    . simp
  have hnodeLength : address.displayNode.length ≤ (showInt address.node).length + 1 := by
    unfold Address.displayNode
    split
    . simp
    . simp
  constructor
  . intro heq
    have hnil : address.displayNet = [] := by
      unfold Address.displayNet
      rw [hnames.net, hnames.zone, heq]
      simp
    rw [hnil, List.length_nil] at hlength
    omega
  . intro heq
    have hdefault : defaultNode address.zone = 0 := by
      unfold defaultNode
      rw [if_neg]
      rw [hnames.zone]
      omega
    have hnil : address.displayNode = [] := by
      unfold Address.displayNode
      rw [hdefault, hnames.node, heq]
      simp
    rw [hnil, List.length_nil] at hlength
    omega

theorem not_spellsAnonymousNode : ¬SpellsAnonymousNode node.display address.domain := by
  rintro ⟨_, htext⟩
  have hlist := congrArg String.toList htext
  have hsuffix : ("#-1/-1" : String).toList = ['#', '-', '1', '/', '-', '1'] := rfl
  rw [toList_display_node hnames hdomain, String.toList_append, hsuffix] at hlist
  simp only [List.append_assoc, List.cons_append, List.append_cancel_left_eq, List.cons.injEq, true_and] at hlist
  rw [hnames.zone, showInt_natCast] at hlist
  -- The digits of a zone do not begin with a minus sign.
  cases hdigits : Nat.toDigits 10 node.zone.toNat with
  | nil => exact Nat.toDigits_ne_nil hdigits
  | cons d digits =>
    have hdigit : d.isDigit = true := by
      have hmem : d ∈ Nat.toDigits 10 node.zone.toNat := by
        rw [hdigits]
        exact List.mem_cons_self
      exact Nat.isDigit_of_mem_toDigits (by omega) (by omega) hmem
    rw [hdigits, List.cons_append] at hlist
    injection hlist with hd _
    rw [hd] at hdigit
    cases hdigit

end Destination

/--
The text of a node is read as its address exactly if neither its net is its zone nor its number is 0: the
parser takes only the text that leaves these out.
-/
theorem destination_read_iff {address : Address} {domain : String} {node : NodeAddress}
    (hdomain : node.domain = some domain)
    (haddress : Address.new domain node.zone.toNat node.net.toNat node.node.toNat node.point = .ok address)
    : (∃ text, destination node = some text ∧ Address.fromStr text = .ok address) ↔
        node.net ≠ node.zone ∧ node.node ≠ 0 := by
  have hnames := names_of_new haddress
  have hdestination : destination node = some node.display := by
    rw [destination, hdomain, Option.map_some]
  rw [hdestination]
  simp only [Option.some.injEq, exists_eq_left']
  constructor
  . intro hread
    rcases Address.fromStr_spelling hread with hdisplay | hspells
    . exact explicit_of_display_eq hnames hdomain hdisplay
    . exact absurd hspells (not_spellsAnonymousNode hnames hdomain)
  . rintro ⟨hnet, hnode⟩
    rw [← display_eq_of_explicit hnames hdomain hnet hnode]
    apply Address.fromStr_display

theorem destination_read_fidonet
    : ∃ text, destination ⟨some "fidonet", 1, 104, 36, 0⟩ = some text ∧
        Address.fromStr text = .ok ⟨"fidonet", 1, 104, 36, 0, by decide⟩ :=
  (@destination_read_iff ⟨"fidonet", 1, 104, 36, 0, by decide⟩ "fidonet" ⟨some "fidonet", 1, 104, 36, 0⟩ rfl
    (by decide)).mpr ⟨by decide, by decide⟩

/--
Node 1 of the net that is its zone, found in the outbound directory.
-/
theorem destination_not_read
    : ¬∀ (outbound : Outbound) (path : OsPath.OsString) (domain : String) (node : NodeAddress) (address : Address),
        outbound.addressOf path (some domain) = some node →
          Address.new domain node.zone.toNat node.net.toNat node.node.toNat node.point = .ok address →
          ∃ text, destination node = some text ∧ Address.fromStr text = .ok address := by
  intro h
  obtain ⟨text, htext, hread⟩ := h ⟨Bytes.ofString "outbound", 1, none, []⟩ (Bytes.ofString "outbound/00010001.flo")
    "fidonet" ⟨some "fidonet", 1, 1, 1, 0⟩ ⟨"fidonet", 1, 1, 1, 0, by decide⟩ (by decide) (by decide)
  have hdestination : destination ⟨some "fidonet", 1, 1, 1, 0⟩ = some "fidonet#1:1/1" := by decide
  rw [hdestination] at htext
  injection htext with htext
  have hrefused : Address.fromStr "fidonet#1:1/1" = .error .nonCanonical := by decide
  rw [← htext, hrefused] at hread
  cases hread

end Bso

end Tith
