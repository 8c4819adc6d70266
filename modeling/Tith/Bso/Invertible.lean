import Tith.Bso.Layout

/-!
This module contains the proof of when the outbound layout can be read back: which directories of an
address lead to it again, and which paths are taken for an address that would not be there.
-/

namespace Tith

namespace Bso

open OsPath

theorem toStr_of_ascii {name : OsString} (h : ∀ byte ∈ name, byte.toNat < 128) : toStr name = some name := by
  have hbytes : Bytes.ofString (String.ofList (name.map fun byte => Char.ofNat byte.toNat)) = name := by
    rw [Bytes.ofString_ofList]
    induction name with
    | nil => rfl
    | cons byte name ih =>
      have hbyte := h byte List.mem_cons_self
      have hchar : (Char.ofNat byte.toNat).toNat = byte.toNat := by
        rw [Char.toNat_ofNat, if_pos]
        unfold Nat.isValidChar
        omega
      rw [List.map_cons, List.flatMap_cons, ih fun b hb => h b (List.mem_cons_of_mem _ hb)]
      rw [Bytes.utf8EncodeChar_of_lt (by omega), hchar, UInt8.ofNat_toNat]
      rfl
  unfold toStr
  rw [← hbytes, Bytes.toString?_ofString]
  rfl

theorem ascii_of_isLower {byte : UInt8} (h : Hex.IsLower byte) : byte.toNat < 128 := by
  unfold Hex.IsLower at h
  omega

theorem lowerByte_of_isLower {byte : UInt8} (h : Hex.IsLower byte) : lowerByte byte = byte := by
  unfold Hex.IsLower at h
  unfold lowerByte
  rw [if_neg]
  simp only [UInt8.le_iff_toNat_le, not_and, not_le]
  change 65 ≤ byte.toNat → 90 < byte.toNat
  omega

theorem toAsciiLowercase_of_isLower {text : OsString} (h : ∀ byte ∈ text, Hex.IsLower byte)
    : toAsciiLowercase text = text :=
  calc text.map lowerByte
    _ = text.map id := List.map_congr_left fun byte hbyte => lowerByte_of_isLower (h byte hbyte)
    _ = text := List.map_id text

theorem not_isLower_slash : ¬Hex.IsLower slash := by decide

section Names

theorem split_join (net node : UInt16) : Outbound.split (net.toNat * 2 ^ 16 + node.toNat) = (net, node) := by
  have hnet := net.toNat_lt
  have hnode := node.toNat_lt
  unfold Outbound.split
  have hdiv : (net.toNat * 2 ^ 16 + node.toNat) / 2 ^ 16 = net.toNat := by omega
  have hmod : (net.toNat * 2 ^ 16 + node.toNat) % 2 ^ 16 = node.toNat := by omega
  rw [hdiv, hmod, UInt16.ofNat_toNat, UInt16.ofNat_toNat]

theorem join_split {n : Nat} (h : n < 2 ^ 32)
    : (Outbound.split n).1.toNat * 2 ^ 16 + (Outbound.split n).2.toNat = n := by
  unfold Outbound.split
  rw [UInt16.toNat_ofNat', UInt16.toNat_ofNat']
  omega

def netNode (address : NodeAddress) : Nat := address.net.toNat * 2 ^ 16 + address.node.toNat

theorem netNode_lt (address : NodeAddress) : netNode address < 2 ^ 32 := by
  have hnet := address.net.toNat_lt
  have hnode := address.node.toNat_lt
  unfold netNode
  omega

theorem fixed_netNode (address : NodeAddress)
    : Hex.fixed 4 address.net.toNat ++ Hex.fixed 4 address.node.toNat = Hex.fixed 8 (netNode address) := by
  have hnode := address.node.toNat_lt
  rw [Hex.fixed_append 4 (by omega)]
  rfl

def stemNumber (address : NodeAddress) : Nat :=
  if address.point = 0 then netNode address else address.point.toNat

theorem stemNumber_lt (address : NodeAddress) : stemNumber address < 2 ^ 32 := by
  have hpoint := address.point.toNat_lt
  unfold stemNumber
  split
  . apply netNode_lt
  . omega

theorem stem_eq (address : NodeAddress) : Outbound.stem address = Hex.fixed 8 (stemNumber address) := by
  unfold Outbound.stem stemNumber
  split
  . apply fixed_netNode
  . rfl

theorem pointDirectory_eq (address : NodeAddress)
    : Outbound.pointDirectory address = Hex.fixed 8 (netNode address) ++ pntExtension := by
  rw [Outbound.pointDirectory, fixed_netNode]

theorem parseU32_fixed {n : Nat} (h : n < 2 ^ 32) : Outbound.parseU32 (Hex.fixed 8 n) = some n :=
  Hex.parse_fixed 7 (by omega) h

theorem lower_fixed (width n : Nat) : toAsciiLowercase (Hex.fixed width n) = Hex.fixed width n :=
  toAsciiLowercase_of_isLower (Hex.isFixed_fixed width n).2

theorem lower_pointDirectory (address : NodeAddress)
    : toAsciiLowercase (Outbound.pointDirectory address) = Outbound.pointDirectory address := by
  have hpnt : toAsciiLowercase pntExtension = pntExtension := by decide
  rw [pointDirectory_eq, toAsciiLowercase_append, lower_fixed, hpnt]

theorem not_mem_fixed {byte : UInt8} (h : ¬Hex.IsLower byte) (width n : Nat) : byte ∉ Hex.fixed width n :=
  fun hmem => h ((Hex.isFixed_fixed width n).2 byte hmem)

theorem isName_fixed (n : Nat) {rest : OsString} (h : slash ∉ rest) : IsName (Hex.fixed 8 n ++ rest) := by
  have hlength : 8 ≤ (Hex.fixed 8 n ++ rest).length := by simp
  refine ⟨?_, ?_, ?_, ?_⟩
  . rw [List.mem_append]
    rintro (hmem | hmem)
    . exact not_mem_fixed not_isLower_slash 8 n hmem
    . exact h hmem
  all_goals
    intro heq
    rw [heq] at hlength
    simp at hlength

theorem isName_pointDirectory (address : NodeAddress) : IsName (Outbound.pointDirectory address) := by
  rw [pointDirectory_eq]
  apply isName_fixed
  decide

theorem toStr_fixed (width n : Nat) : toStr (Hex.fixed width n) = some (Hex.fixed width n) :=
  toStr_of_ascii fun _ hbyte => ascii_of_isLower ((Hex.isFixed_fixed width n).2 _ hbyte)

theorem toStr_pointDirectory (address : NodeAddress)
    : toStr (Outbound.pointDirectory address) = some (Outbound.pointDirectory address) := by
  apply toStr_of_ascii
  rw [pointDirectory_eq]
  intro byte hbyte
  rw [List.mem_append] at hbyte
  rcases hbyte with hbyte | hbyte
  . apply ascii_of_isLower ((Hex.isFixed_fixed 8 _).2 byte hbyte)
  . have hall : pntExtension.all (·.toNat < 128) = true := by decide
    rw [List.all_eq_true] at hall
    exact of_decide_eq_true (hall byte hbyte)

end Names

section Extension

def flowLetters : OsString := Bytes.ofString "utloreqicdhf"

theorem forall_mem_flowLetters {text : OsString} (h : text.all flowLetters.contains = true)
    : ∀ byte ∈ text, byte ∈ flowLetters := by
  simpa using h

theorem mem_flowLetters_of_flavourOf {letter : UInt8} {kind : FlowKind} {flavour : Flavour}
    (h : flavourOf letter kind = some flavour) : letter ∈ flowLetters := by
  unfold flavourOf at h
  split at h
  all_goals first | decide | cases h

theorem lower_flowExtension {extension : OsString} (h : IsFlowExtension extension)
    : ∀ byte ∈ toAsciiLowercase extension, byte ∈ flowLetters := by
  obtain ⟨kind, h⟩ := h
  unfold classifyExtension at h
  dsimp only at h
  split at h
  . cases h
  . next hlength =>
    split at h
    . next hreq =>
      rw [hreq]
      apply forall_mem_flowLetters
      decide
    . split at h
      . cases h
      . simp only [Option.some.injEq, Option.bind_eq_bind, Option.bind_eq_some_iff] at h
        obtain ⟨signature, hsignature, letter, hletter, flavour, hflavour, _⟩ := h
        have hmem := mem_flowLetters_of_flavourOf hflavour
        obtain ⟨rest, hrest⟩ := List.head?_eq_some_iff.mp hletter
        rw [hrest] at hsignature ⊢
        have htail : ∀ byte ∈ rest, byte ∈ flowLetters := by
          unfold flowSignature at hsignature
          rw [List.tail_cons] at hsignature
          split at hsignature
          . next heq =>
            rw [heq]
            apply forall_mem_flowLetters
            decide
          . split at hsignature
            . next heq =>
              rw [heq]
              apply forall_mem_flowLetters
              decide
            . cases hsignature
        intro byte hbyte
        rw [List.mem_cons] at hbyte
        rcases hbyte with rfl | hbyte
        . exact hmem
        . exact htail byte hbyte

theorem not_mem_flowExtension {extension : OsString} (h : IsFlowExtension extension) {byte : UInt8}
    (hbyte : lowerByte byte ∉ flowLetters) : byte ∉ extension := by
  intro hmem
  apply hbyte
  apply lower_flowExtension h
  exact List.mem_map_of_mem hmem

theorem dot_not_mem_flowExtension {extension : OsString} (h : IsFlowExtension extension) : dot ∉ extension :=
  not_mem_flowExtension h (by decide)

theorem slash_not_mem_flowExtension {extension : OsString} (h : IsFlowExtension extension) : slash ∉ extension :=
  not_mem_flowExtension h (by decide)

end Extension

/--
The texts of a path that are read as numbers.
-/
structure Placement where
  parent : List Component
  directory : List Component
  zoneName : OsString
  owner : Option OsString
  stem : OsString

def placement (path : List Component) : Option Placement := do
  let stem ← (fileStem path).bind toStr
  let parent ← OsPath.parent path
  let parentName ← Outbound.lowerName parent
  match stripSuffix pntExtension parentName with
  | some owner => do
    let directory ← OsPath.parent parent
    let zoneName ← Outbound.lowerName directory
    some { parent, directory, zoneName, owner := some owner, stem }
  | none => some { parent, directory := parent, zoneName := parentName, owner := none, stem }

namespace Placement

/--
The number of net and node, and the point.
-/
def numbers (p : Placement) : Option (Nat × UInt16) :=
  match p.owner with
  | some owner => do
    let owner ← Outbound.parseU32 owner
    let point ← (Outbound.parseU32 p.stem).bind Outbound.tryU16
    some (owner, point)
  | none => (Outbound.parseU32 p.stem).map fun value => (value, 0)

def address (p : Placement) (defaultZone : UInt16) (domain : Option String) : Option NodeAddress := do
  let zone ← Outbound.zoneOf defaultZone p.zoneName
  let (value, point) ← p.numbers
  some { domain, zone, net := (Outbound.split value).1, node := (Outbound.split value).2, point }

end Placement

theorem addressOf_eq (outbound : Outbound) (path : OsString) (domain : Option String)
    : outbound.addressOf path domain =
        (placement (components path)).bind fun p => p.address outbound.defaultZone domain := by
  -- A path is taken for an address by its texts alone.
  unfold Outbound.addressOf placement
  dsimp only
  cases (fileStem (components path)).bind toStr with
  | none => rfl
  | some stem =>
    cases OsPath.parent (components path) with
    | none => rfl
    | some parent =>
      cases hname : Outbound.lowerName parent with
      | none => simp [hname]
      | some name =>
        cases hstrip : stripSuffix pntExtension name with
        | none =>
          cases hzone : Outbound.zoneOf outbound.defaultZone name with
          | none => simp [hname, hstrip, hzone, Placement.address]
          | some zone =>
            cases hvalue : Outbound.parseU32 stem with
            | none => simp [hname, hstrip, hzone, hvalue, Placement.address, Placement.numbers]
            | some value => simp [hname, hstrip, hzone, hvalue, Placement.address, Placement.numbers]
        | some owner =>
          cases hdirectory : OsPath.parent parent with
          | none => simp [hname, hstrip, hdirectory]
          | some directory =>
            cases hzoneName : Outbound.lowerName directory with
            | none => simp [hname, hstrip, hdirectory, hzoneName]
            | some zoneName =>
              cases hzone : Outbound.zoneOf outbound.defaultZone zoneName with
              | none => simp [hname, hstrip, hdirectory, hzoneName, hzone, Placement.address]
              | some zone =>
                simp [hname, hstrip, hdirectory, hzoneName, hzone, Placement.address, Placement.numbers,
                  Option.bind_assoc]

section ReadBack

variable (outbound : Outbound) (address : NodeAddress)

/--
The name of a directory stands for the zone, as it is read.
-/
def NamesZone (directory : List Component) (zone : UInt16) : Prop :=
  ∃ name, Outbound.lowerName directory = some name ∧ Outbound.zoneOf outbound.defaultZone name = some zone

def zoneDirectory (directory : List Component) : List Component :=
  if address.point = 0 then directory else directory.dropLast

/--
A root that looks like the directory of the points of node 0, in which that node has its own files.
-/
def Coincides (directory : List Component) : Prop :=
  address.point = 0 ∧ netNode address = 0 ∧
    ∃ owner, Outbound.lowerName directory = some (owner ++ pntExtension) ∧ Outbound.parseU32 owner = some 0 ∧
      ∃ front, OsPath.parent directory = some front ∧ NamesZone outbound front address.zone

variable {outbound address}

theorem placement_append {directory : List Component} {file stem : OsString} (hstem : stemOf file = stem)
    (hutf8 : toStr stem = some stem)
    : placement (directory ++ [.normal file]) = (Outbound.lowerName directory).bind fun name =>
        match stripSuffix pntExtension name with
        | some owner => (OsPath.parent directory).bind fun front => (Outbound.lowerName front).bind fun zoneName =>
          some { parent := directory, directory := front, zoneName, owner := some owner, stem }
        | none => some { parent := directory, directory, zoneName := name, owner := none, stem } := by
  have hfile : (fileStem (directory ++ [.normal file])).bind toStr = some stem := by
    rw [fileStem, fileName_append, Option.map_some, hstem, Option.bind_some, hutf8]
  unfold placement
  rw [parent_append, hfile]
  rfl

theorem zoneOf_pnt (defaultZone : UInt16) (owner : OsString)
    : Outbound.zoneOf defaultZone (owner ++ pntExtension) = none := by
  have hsplit : rsplitDot (owner ++ pntExtension) = some (owner, [112, 110, 116]) :=
    rsplitDot_append owner (by decide)
  unfold Outbound.zoneOf
  rw [hsplit]
  rfl

theorem tryU16_toNat (n : UInt16) : Outbound.tryU16 n.toNat = some n := by
  have hlt := n.toNat_lt
  unfold Outbound.tryU16
  rw [if_pos (by omega), UInt16.ofNat_toNat]

theorem tryU16_eq_some {n : Nat} {point : UInt16} : Outbound.tryU16 n = some point ↔ n = point.toNat := by
  constructor
  . intro h
    unfold Outbound.tryU16 at h
    split at h
    . next hlt =>
      injection h with h
      rw [← h, UInt16.toNat_ofNat']
      omega
    . cases h
  . rintro rfl
    apply tryU16_toNat

theorem split_netNode : Outbound.split (netNode address) = (address.net, address.node) := split_join _ _

theorem address_eq_iff {zone point : UInt16} {value : Nat} (hvalue : value < 2 ^ 32)
    : (⟨address.domain, zone, (Outbound.split value).1, (Outbound.split value).2, point⟩ : NodeAddress) = address ↔
        zone = address.zone ∧ value = netNode address ∧ point = address.point := by
  -- What a number of net and node has to be for an address to come back.
  constructor
  . intro h
    refine ⟨congrArg NodeAddress.zone h, ?_, congrArg NodeAddress.point h⟩
    have hnet : (Outbound.split value).1 = address.net := congrArg NodeAddress.net h
    have hnode : (Outbound.split value).2 = address.node := congrArg NodeAddress.node h
    unfold netNode
    rw [← hnet, ← hnode, join_split hvalue]
  . rintro ⟨rfl, rfl, rfl⟩
    rw [split_netNode]

theorem parseU32_lt {text : OsString} {n : Nat} (h : Outbound.parseU32 text = some n) : n < 2 ^ 32 :=
  Hex.parse_lt h

theorem Placement.numbers_node {p : Placement} (h : p.owner = none) {value : Nat} {point : UInt16}
    : p.numbers = some (value, point) ↔ Outbound.parseU32 p.stem = some value ∧ point = 0 := by
  unfold numbers
  rw [h]
  simp only [Option.map_eq_some_iff, Prod.mk.injEq]
  constructor
  . rintro ⟨_, hvalue, rfl, rfl⟩
    exact ⟨hvalue, rfl⟩
  . rintro ⟨hvalue, rfl⟩
    exact ⟨value, hvalue, rfl, rfl⟩

theorem Placement.numbers_point {p : Placement} {owner : OsString} (h : p.owner = some owner) {value : Nat}
    {point : UInt16}
    : p.numbers = some (value, point) ↔
        Outbound.parseU32 owner = some value ∧ Outbound.parseU32 p.stem = some point.toNat := by
  unfold numbers
  rw [h]
  simp only [Option.bind_eq_bind, Option.bind_eq_some_iff, Option.some.injEq, Prod.mk.injEq]
  constructor
  . rintro ⟨_, howner, _, ⟨n, hn, hpoint⟩, rfl, rfl⟩
    rw [tryU16_eq_some.mp hpoint] at hn
    exact ⟨howner, hn⟩
  . rintro ⟨howner, hn⟩
    exact ⟨value, howner, point, ⟨_, hn, tryU16_toNat point⟩, rfl, rfl⟩

theorem Placement.numbers_lt {p : Placement} {value : Nat} {point : UInt16} (h : p.numbers = some (value, point))
    : value < 2 ^ 32 := by
  cases howner : p.owner with
  | none => exact parseU32_lt ((numbers_node howner).mp h).1
  | some owner => exact parseU32_lt ((numbers_point howner).mp h).1

theorem Placement.address_eq_some {p : Placement} {defaultZone : UInt16}
    : p.address defaultZone address.domain = some address ↔
        Outbound.zoneOf defaultZone p.zoneName = some address.zone ∧
          p.numbers = some (netNode address, address.point) := by
  unfold Placement.address
  cases Outbound.zoneOf defaultZone p.zoneName with
  | none => simp
  | some zone =>
    cases hnumbers : p.numbers with
    | none => simp
    | some numbers =>
      obtain ⟨value, point⟩ := numbers
      simp only [Option.bind_eq_bind, Option.bind_some, Option.some.injEq, Prod.mk.injEq]
      rw [address_eq_iff (numbers_lt hnumbers)]

theorem addressOf_push (dir : OsString) {extension : OsString} (hextension : IsFlowExtension extension)
    : outbound.addressOf (push dir (Outbound.stem address ++ dot :: extension)) address.domain =
        (placement (components dir ++ [.normal (Outbound.stem address ++ dot :: extension)])).bind
          fun p => p.address outbound.defaultZone address.domain := by
  have hname : IsName (Outbound.stem address ++ dot :: extension) := by
    rw [stem_eq]
    apply isName_fixed
    rw [List.mem_cons, not_or]
    exact ⟨by decide, slash_not_mem_flowExtension hextension⟩
  rw [addressOf_eq, components_push dir hname]

theorem stemOf_flowFile {extension : OsString} (hextension : IsFlowExtension extension)
    : stemOf (Outbound.stem address ++ dot :: extension) = Outbound.stem address := by
  apply stemOf_append
  . rw [stem_eq]
    intro hnil
    have hlength := congrArg List.length hnil
    simp at hlength
  . apply dot_not_mem_flowExtension hextension

theorem toStr_stem (address : NodeAddress) : toStr (Outbound.stem address) = some (Outbound.stem address) := by
  rw [stem_eq]
  apply toStr_fixed

theorem parseU32_stem (address : NodeAddress) : Outbound.parseU32 (Outbound.stem address) = some (stemNumber address) := by
  rw [stem_eq]
  apply parseU32_fixed (stemNumber_lt address)

theorem addressOf_node_iff {dir extension : OsString} (hpoint : address.point = 0)
    (hextension : IsFlowExtension extension)
    : outbound.addressOf (push dir (Outbound.stem address ++ dot :: extension)) address.domain = some address ↔
        NamesZone outbound (components dir) address.zone ∨ Coincides outbound address (components dir) := by
  have hnumber : stemNumber address = netNode address := if_pos hpoint
  rw [addressOf_push dir hextension, placement_append (stemOf_flowFile hextension) (toStr_stem address)]
  unfold Coincides NamesZone
  cases hname : Outbound.lowerName (components dir) with
  | none => simp
  | some name =>
    rw [Option.bind_some]
    cases hstrip : stripSuffix pntExtension name with
    | none =>
      have hplain : ∀ owner, name ≠ owner ++ pntExtension := by
        intro owner heq
        rw [stripSuffix_eq_some.mpr heq] at hstrip
        cases hstrip
      simp [Placement.address_eq_some, Placement.numbers_node, parseU32_stem, hnumber, hpoint, hplain]
    | some owner =>
      rw [stripSuffix_eq_some] at hstrip
      subst hstrip
      cases OsPath.parent (components dir) with
      | none => simp [zoneOf_pnt]
      | some front =>
        cases hfront : Outbound.lowerName front with
        | none => simp [zoneOf_pnt, hfront]
        | some zoneName =>
          simp only [hfront, Option.bind_some, Placement.address_eq_some, Placement.numbers_point, parseU32_stem,
            hnumber, Option.some.injEq, exists_eq_left', zoneOf_pnt, reduceCtorEq, false_or, hpoint,
            true_and, List.append_cancel_right_eq]
          constructor
          . rintro ⟨hzone, howner, hnode⟩
            rw [hnode] at howner
            exact ⟨hnode, howner, hzone⟩
          . rintro ⟨hnode, howner, hzone⟩
            rw [hnode]
            exact ⟨hzone, howner, rfl⟩

theorem lowerName_append (front : List Component) {name : OsString} (hutf8 : toStr name = some name)
    : Outbound.lowerName (front ++ [.normal name]) = some (toAsciiLowercase name) := by
  rw [Outbound.lowerName, fileName_append, Option.bind_some, hutf8, Option.map_some]

theorem addressOf_point_iff {base extension : OsString} (hpoint : address.point ≠ 0)
    (hextension : IsFlowExtension extension)
    : outbound.addressOf
          (push (push base (Outbound.pointDirectory address)) (Outbound.stem address ++ dot :: extension))
          address.domain = some address ↔
        NamesZone outbound (components base) address.zone := by
  have hnumber : stemNumber address = address.point.toNat := if_neg hpoint
  have hstrip : stripSuffix pntExtension (Outbound.pointDirectory address) = some (Hex.fixed 8 (netNode address)) :=
    stripSuffix_eq_some.mpr (pointDirectory_eq address)
  rw [addressOf_push _ hextension, placement_append (stemOf_flowFile hextension) (toStr_stem address)]
  rw [components_push base (isName_pointDirectory address), lowerName_append _ (toStr_pointDirectory address)]
  rw [lower_pointDirectory, Option.bind_some, hstrip, parent_append]
  unfold NamesZone
  cases hname : Outbound.lowerName (components base) with
  | none => simp [hname]
  | some name =>
    simp [hname, Placement.address_eq_some, Placement.numbers_point, parseU32_stem, hnumber,
      parseU32_fixed (netNode_lt address)]

/--
The directories of an address are read back exactly where the name of the zone directory stands for its
zone, or where a root looks like a point directory.
-/
theorem addressOf_directories_iff {dir extension : OsString} (hdir : dir ∈ outbound.directories address)
    (hextension : IsFlowExtension extension)
    : outbound.addressOf (push dir (Outbound.stem address ++ dot :: extension)) address.domain = some address ↔
        NamesZone outbound (zoneDirectory address (components dir)) address.zone ∨
          Coincides outbound address (components dir) := by
  by_cases hpoint : address.point = 0
  . rw [addressOf_node_iff hpoint hextension, zoneDirectory, if_pos hpoint]
  . unfold Outbound.directories at hdir
    rw [if_pos hpoint, List.mem_map] at hdir
    obtain ⟨base, _, rfl⟩ := hdir
    have hcoincides : ¬Coincides outbound address (components (push base (Outbound.pointDirectory address))) :=
      fun h => hpoint h.1
    rw [addressOf_point_iff hpoint hextension, zoneDirectory, if_neg hpoint]
    rw [components_push base (isName_pointDirectory address)] at hcoincides ⊢
    rw [List.dropLast_concat]
    exact ⟨.inl, fun h => h.resolve_right hcoincides⟩

end ReadBack

section Accepted

variable (outbound : Outbound)

/--
The path is where the layout puts the address, up to the case of the directory.
-/
def PlacedAt (path : OsString) (address : NodeAddress) : Prop :=
  (∃ parent, OsPath.parent (components path) = some parent ∧
    ∃ dir ∈ outbound.directories address, SameUpToCase parent (components dir)) ∧
  fileStem (components path) = some (Outbound.stem address)

def InZone (domain : Option String) (zone : UInt16) (directory : List Component) : Prop :=
  ∃ base ∈ outbound.bases { domain, zone, net := 0, node := 0, point := 0 }, SameUpToCase directory (components base)

/--
The spelling of the layout: eight lower case digits for the stem and eight digits for the owner of a
point, which is not point 0 unless a root of its own looks like the directory of points.
-/
def Placement.IsCanonical (domain : Option String) (zone : UInt16) (p : Placement) : Prop :=
  Hex.IsFixed 8 p.stem ∧
  match p.owner with
  | none => InZone outbound domain zone p.directory
  | some owner =>
    if Outbound.parseU32 p.stem = some 0 then
      Outbound.parseU32 owner = some 0 ∧ InZone outbound domain zone p.parent
    else
      Hex.IsFixed 8 owner ∧ InZone outbound domain zone p.directory

variable {outbound}

theorem lowerName_eq_some {path : List Component} {lower : OsString} (h : Outbound.lowerName path = some lower)
    : ∃ front name, path = front ++ [.normal name] ∧ OsPath.parent path = some front ∧
        toAsciiLowercase name = lower := by
  unfold Outbound.lowerName at h
  simp only [Option.map_eq_some_iff, Option.bind_eq_some_iff] at h
  obtain ⟨text, ⟨name, hname, htext⟩, rfl⟩ := h
  have hsame : text = name := by
    unfold toStr at htext
    split at htext
    . injection htext with htext
      exact htext.symm
    . cases htext
  subst hsame
  obtain ⟨front, hpath, hparent⟩ := eq_append_of_fileName hname
  exact ⟨front, text, hpath, hparent, rfl⟩

theorem placement_eq_some {path : List Component} {p : Placement} (h : placement path = some p)
    : fileStem path = some p.stem ∧ OsPath.parent path = some p.parent ∧
        match p.owner with
        | none => p.parent = p.directory
        | some owner => ∃ name, p.parent = p.directory ++ [.normal name] ∧
            toAsciiLowercase name = owner ++ pntExtension := by
  unfold placement at h
  simp only [Option.bind_eq_bind, Option.bind_eq_some_iff] at h
  obtain ⟨stem, ⟨name, hname, hstem⟩, parent, hparent, lower, hlower, h⟩ := h
  have hsame : stem = name := by
    unfold toStr at hstem
    split at hstem
    . injection hstem with hstem
      exact hstem.symm
    . cases hstem
  subst hsame
  split at h
  . next owner hstrip =>
    simp only [Option.bind_eq_some_iff, Option.some.injEq] at h
    obtain ⟨directory, hdirectory, zoneName, hzone, rfl⟩ := h
    refine ⟨hname, hparent, ?_⟩
    obtain ⟨front, text, hsplit, hfront, htext⟩ := lowerName_eq_some hlower
    rw [hdirectory, Option.some.injEq] at hfront
    subst hfront
    exact ⟨text, hsplit, htext.trans (stripSuffix_eq_some.mp hstrip)⟩
  . injection h with h
    subst h
    exact ⟨hname, hparent, rfl⟩

theorem sameUpToCase_append {path path' : List Component} {name name' : OsString}
    : SameUpToCase (path ++ [.normal name]) (path' ++ [.normal name']) ↔
        SameUpToCase path path' ∧ toAsciiLowercase name = toAsciiLowercase name' := by
  unfold SameUpToCase
  rw [List.map_append, List.map_append, List.map_singleton, List.map_singleton, List.append_singleton_inj]
  simp only [Component.lower, Component.normal.injEq]

theorem eq_fixed_iff {text : OsString} {n : Nat} (h : Outbound.parseU32 text = some n)
    : text = Hex.fixed 8 n ↔ Hex.IsFixed 8 text := Hex.eq_fixed_iff h

theorem placedAt_iff {path : OsString} {domain : Option String} {p : Placement} {zone point : UInt16} {value : Nat}
    (hplacement : placement (components path) = some p) (hnumbers : p.numbers = some (value, point))
    : PlacedAt outbound path ⟨domain, zone, (Outbound.split value).1, (Outbound.split value).2, point⟩ ↔
        p.IsCanonical outbound domain zone := by
  obtain ⟨hstem, hparent, howner⟩ := placement_eq_some hplacement
  have hnetNode : netNode ⟨domain, zone, (Outbound.split value).1, (Outbound.split value).2, point⟩ = value :=
    join_split (Placement.numbers_lt hnumbers)
  have hplaced : PlacedAt outbound path ⟨domain, zone, (Outbound.split value).1, (Outbound.split value).2, point⟩ ↔
      (∃ dir ∈ outbound.directories ⟨domain, zone, (Outbound.split value).1, (Outbound.split value).2, point⟩,
        SameUpToCase p.parent (components dir)) ∧
      p.stem = Hex.fixed 8 (if point = 0 then value else point.toNat) := by
    unfold PlacedAt
    rw [hparent, hstem, stem_eq, stemNumber, hnetNode]
    simp
  rw [hplaced]
  unfold Placement.IsCanonical
  cases hcase : p.owner with
  | none =>
    rw [hcase] at howner
    obtain ⟨hvalue, rfl⟩ := (Placement.numbers_node hcase).mp hnumbers
    rw [if_pos rfl, eq_fixed_iff hvalue, and_comm, howner]
    rfl
  | some owner =>
    rw [hcase] at howner
    obtain ⟨name, hsplit, hlower⟩ := howner
    obtain ⟨hvalue, hpoint⟩ := (Placement.numbers_point hcase).mp hnumbers
    by_cases hzero : point = 0
    . subst hzero
      have hpoint' : Outbound.parseU32 p.stem = some 0 := hpoint
      dsimp only
      rw [if_pos rfl, if_pos hpoint', hvalue, Option.some.injEq]
      constructor
      . rintro ⟨hdir, hfixed⟩
        have hnumber := parseU32_fixed (Placement.numbers_lt hnumbers)
        rw [← hfixed, hpoint', Option.some.injEq] at hnumber
        refine ⟨?_, hnumber.symm, hdir⟩
        rw [hfixed]
        apply Hex.isFixed_fixed
      . rintro ⟨hfixed, rfl, hdir⟩
        exact ⟨hdir, (eq_fixed_iff hpoint').mpr hfixed⟩
    . have hne : Outbound.parseU32 p.stem ≠ some 0 := by
        rw [hpoint]
        intro heq
        apply hzero
        apply UInt16.toNat_inj.mp
        injection heq
      dsimp only
      rw [if_neg hzero, if_neg hne, eq_fixed_iff hpoint, ← eq_fixed_iff hvalue, and_comm]
      refine and_congr_right fun _ => ?_
      unfold Outbound.directories InZone
      rw [if_pos hzero, hsplit]
      simp only [List.mem_map, exists_exists_and_eq_and]
      constructor
      . rintro ⟨base, hbase, hsame⟩
        rw [components_push base (isName_pointDirectory _), sameUpToCase_append, hlower, lower_pointDirectory,
          pointDirectory_eq, hnetNode, List.append_cancel_right_eq] at hsame
        exact ⟨hsame.2, base, hbase, hsame.1⟩
      . rintro ⟨hfixed, base, hbase, hsame⟩
        refine ⟨base, hbase, ?_⟩
        rw [components_push base (isName_pointDirectory _), sameUpToCase_append, hlower, lower_pointDirectory,
          pointDirectory_eq, hnetNode, List.append_cancel_right_eq]
        exact ⟨hsame, hfixed⟩

/--
A path is taken only for an address that is there exactly if its texts are spelled as the layout does,
where they are numbers at all.
-/
theorem addressOf_placed_iff (path : OsString) (domain : Option String)
    : (∀ address, outbound.addressOf path domain = some address → PlacedAt outbound path address) ↔
        ∀ p zone, placement (components path) = some p → Outbound.zoneOf outbound.defaultZone p.zoneName = some zone →
          p.numbers.isSome = true → p.IsCanonical outbound domain zone := by
  constructor
  . intro h p zone hplacement hzone hnumbers
    obtain ⟨⟨value, point⟩, hnumbers⟩ := Option.isSome_iff_exists.mp hnumbers
    rw [← placedAt_iff hplacement hnumbers]
    apply h
    rw [addressOf_eq, hplacement, Option.bind_some]
    simp [Placement.address, hzone, hnumbers]
  . intro h address haddress
    rw [addressOf_eq, Option.bind_eq_some_iff] at haddress
    obtain ⟨p, hplacement, haddress⟩ := haddress
    simp only [Placement.address, Option.bind_eq_bind, Option.bind_eq_some_iff, Option.some.injEq] at haddress
    obtain ⟨zone, hzone, ⟨value, point⟩, hnumbers, rfl⟩ := haddress
    rw [placedAt_iff hplacement hnumbers]
    apply h p zone hplacement hzone
    rw [hnumbers]
    rfl

end Accepted

/--
The layout can be read back: for the directories of an address exactly where the name of the zone
directory stands for the zone, and for a path that is taken at all exactly where it is spelled as the
layout spells it.
-/
theorem outbound_layout_invertible (outbound : Outbound)
    : (∀ address, ∀ dir ∈ outbound.directories address, ∀ extension, IsFlowExtension extension →
        (outbound.addressOf (push dir (Outbound.stem address ++ dot :: extension)) address.domain = some address ↔
          NamesZone outbound (zoneDirectory address (components dir)) address.zone ∨
            Coincides outbound address (components dir))) ∧
      ∀ path domain,
        ((∀ address, outbound.addressOf path domain = some address → PlacedAt outbound path address) ↔
          ∀ p zone, placement (components path) = some p → Outbound.zoneOf outbound.defaultZone p.zoneName = some zone →
            p.numbers.isSome = true → p.IsCanonical outbound domain zone) := by
  constructor
  . intro address dir hdir extension hextension
    apply addressOf_directories_iff hdir hextension
  . intro path domain
    apply addressOf_placed_iff path domain

/--
A root whose name has a dot, in the default zone.
-/
def dottedRoot : Outbound := ⟨Bytes.ofString "fido.abc", 1, none, []⟩

theorem outbound_dotted_root
    : ¬∀ (outbound : Outbound) (address : NodeAddress), ∀ dir ∈ outbound.directories address,
        ∀ extension, IsFlowExtension extension →
          outbound.addressOf (push dir (Outbound.stem address ++ dot :: extension)) address.domain =
            some address := by
  intro h
  have hread := h dottedRoot ⟨none, 1, 104, 36, 0⟩ (Bytes.ofString "fido.abc") (by decide) (Bytes.ofString "flo")
    ⟨(.normal, .reference), by decide⟩
  revert hread
  decide

end Bso

end Tith
