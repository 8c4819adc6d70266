import Tith.Nodelist.Lemmas.Reader
import Tith.Router.Route

/-!
This module contains the tree that a nodelist spells by the order of its records, and that the branch of
every entry is its place in that tree.
-/

namespace Tith

namespace Router

open Config Nodelist

def BranchKind.keyword (kind : BranchKind) : Keyword :=
  match kind with
  | .zone => .zone
  | .region => .region
  | .host => .host
  | .hub => .hub

/--
A coordinator ends the branches of its own kind and of every lower kind.
-/
def BranchKind.closes (kind : BranchKind) (keyword : Keyword) : Bool :=
  match kind with
  | .zone => keyword = .zone
  | .region => keyword = .zone || keyword = .region
  | .host => keyword = .zone || keyword = .region || keyword = .host
  | .hub => keyword = .zone || keyword = .region || keyword = .host || keyword = .hub

/--
The coordinator whose branch of a kind the last of the entries is in.
-/
def Open (entries : List Entry) (kind : BranchKind) (root : Address) : Prop :=
  ∃ front coordinator inside, entries = front ++ coordinator :: inside ∧
    coordinator.keyword = BranchKind.keyword kind ∧ coordinator.address = root ∧
    ∀ entry ∈ inside, BranchKind.closes kind entry.keyword = false

variable {entries : List Entry} {kind : BranchKind} {root : Address} {entry : Entry}

theorem not_open_nil : ¬Open [] kind root := by
  rintro ⟨front, coordinator, inside, heq, _⟩
  simp at heq

theorem open_concat
    : Open (entries ++ [entry]) kind root ↔
        (entry.keyword = BranchKind.keyword kind ∧ entry.address = root) ∨
          (BranchKind.closes kind entry.keyword = false ∧ Open entries kind root) := by
  constructor
  . rintro ⟨front, coordinator, inside, heq, hkeyword, haddress, hinside⟩
    rcases List.eq_nil_or_concat inside with rfl | ⟨rest, last, rfl⟩
    . obtain ⟨_, hlast⟩ := List.append_inj' heq rfl
      cases hlast
      exact .inl ⟨hkeyword, haddress⟩
    . rw [List.concat_eq_append] at heq hinside
      rw [← List.cons_append, ← List.append_assoc] at heq
      obtain ⟨hfront, hlast⟩ := List.append_inj' heq rfl
      cases hlast
      refine .inr ⟨hinside entry (by simp), front, coordinator, rest, hfront, hkeyword, haddress, ?_⟩
      intro other hmem
      exact hinside other (by simp [hmem])
  . rintro (⟨hkeyword, haddress⟩ | ⟨hstays, front, coordinator, inside, rfl, hkeyword, haddress, hinside⟩)
    . exact ⟨entries, entry, [], rfl, hkeyword, haddress, by simp⟩
    . refine ⟨front, coordinator, inside ++ [entry], by simp, hkeyword, haddress, ?_⟩
      intro other hmem
      rcases List.mem_append.mp hmem with hmem | hmem
      . exact hinside other hmem
      . rw [List.mem_singleton.mp hmem]
        exact hstays

/--
The hierarchy of the validator is the branches that are open behind the entries it has read.
-/
structure Tracked (entries : List Entry) (validator : Validator) : Prop where
  zone : ∀ root, Open entries .zone root ↔
    ∃ zone, validator.hierarchy.zone = some zone ∧
      Address.new validator.domain zone zone 0 0 = .ok root
  region : ∀ root, Open entries .region root ↔ validator.hierarchy.region = some root
  host : ∀ root, Open entries .host root ↔ validator.hierarchy.host = some root
  hub : ∀ root, Open entries .hub root ↔ validator.hierarchy.hub = some root
  used : ∀ entry ∈ entries, entry.address ∈ validator.addresses

/--
An entry behind others: its branch is its place in the tree, and its address is new.
-/
structure InPlace (front : List Entry) (entry : Entry) : Prop where
  branch : ∀ kind root, Open (front ++ [entry]) kind root ↔ branchMatches kind root entry.branch = true
  point : entry.address.point = 0
  fresh : ∀ other ∈ front, other.address ≠ entry.address

theorem expectAddress_eq_ok {domain : String} {zone net node : Int} {address : Address}
    : expectAddress domain zone net node = .ok address ↔ Address.new domain zone net node 0 = .ok address :=
  Except.mapError_eq_ok

theorem addressFor_point {domain : String} {hierarchy next : Hierarchy} {keyword : Keyword} {number : Int}
    {address : Address} (h : addressFor domain hierarchy keyword number = .ok (address, next))
    : address.point = 0 := by
  have hnew : ∀ {zone net node : Int}, expectAddress domain zone net node = .ok address →
      address.point = 0 := by
    intro zone net node hexpect
    exact (Address.new_eq_ok.mp (expectAddress_eq_ok.mp hexpect)).2.2.2.2
  cases keyword with
  | zone =>
    simp only [addressFor, Except.bind_ok_iff, Except.ok.injEq, Prod.mk.injEq] at h
    obtain ⟨_, hexpect, rfl, _⟩ := h
    exact hnew hexpect
  | hub =>
    simp only [addressFor, Except.bind_ok_iff, Except.ok.injEq, Prod.mk.injEq] at h
    obtain ⟨_, _, _, hexpect, rfl, _⟩ := h
    exact hnew hexpect
  | _ =>
    simp only [addressFor, Except.bind_ok_iff, Except.ok.injEq, Prod.mk.injEq] at h
    obtain ⟨_, _, _, hexpect, rfl, _⟩ := h
    exact hnew hexpect

/--
What a record that the validator accepts has done to it.
-/
structure Accepted (validator : Validator) (entry : Entry) (next : Validator) : Prop where
  domain : next.domain = validator.domain
  hierarchy : ∃ number, addressFor validator.domain validator.hierarchy entry.keyword number =
    .ok (entry.address, next.hierarchy)
  fresh : entry.address ∉ validator.addresses
  addresses : next.addresses = insert entry.address validator.addresses
  zone : ∃ zone, next.hierarchy.zone = some zone ∧
    Address.new validator.domain zone zone 0 0 = .ok entry.branch.zone
  region : entry.branch.region = next.hierarchy.region
  host : entry.branch.host = next.hierarchy.host
  hub : entry.branch.hub = next.hierarchy.hub

theorem parseDataLine_accepted {base64 : Base64} {validator next : Validator} {rawLine : List Char}
    {entry : Entry} (h : validator.parseDataLine base64 rawLine = (.ok entry, next))
    : Accepted validator entry next := by
  obtain ⟨number, hierarchy, coordinators, haddress, hnew, _, ⟨zone, hzone, hzoneAddress, hregion, hhost, hhub⟩, rfl⟩ :=
    parseDataLine_ok h
  exact ⟨rfl, ⟨number, haddress⟩, hnew, rfl, ⟨zone, hzone, expectAddress_eq_ok.mp hzoneAddress⟩, hregion, hhost, hhub⟩

theorem Tracked.next {validator next : Validator} (h : Tracked entries validator)
    (haccepted : Accepted validator entry next)
    : Tracked (entries ++ [entry]) next := by
  obtain ⟨number, haddress⟩ := haccepted.hierarchy
  have hused : ∀ other ∈ entries ++ [entry], other.address ∈ next.addresses := by
    intro other hmem
    rw [haccepted.addresses, Finset.mem_insert]
    rcases List.mem_append.mp hmem with hmem | hmem
    . exact .inr (h.used other hmem)
    . rw [List.mem_singleton.mp hmem]
      exact .inl rfl
  cases hkeyword : entry.keyword with
  | zone =>
    rw [hkeyword] at haddress
    simp only [addressFor, Except.bind_ok_iff, expectAddress_eq_ok, Except.ok.injEq,
      Prod.mk.injEq] at haddress
    obtain ⟨address, hnew, rfl, hnext⟩ := haddress
    refine ⟨?_, ?_, ?_, ?_, hused⟩
    . intro root
      rw [open_concat, haccepted.domain, ← hnext]
      simp [hkeyword, BranchKind.keyword, BranchKind.closes, hnew]
    all_goals
      intro root
      rw [open_concat, ← hnext]
      simp [hkeyword, BranchKind.keyword, BranchKind.closes]
  | region =>
    rw [hkeyword] at haddress
    simp only [addressFor, Except.bind_ok_iff, Except.ok.injEq, Prod.mk.injEq] at haddress
    obtain ⟨_, _, address, _, rfl, hnext⟩ := haddress
    refine ⟨?_, ?_, ?_, ?_, hused⟩
    . intro root
      rw [open_concat, haccepted.domain, ← hnext]
      simp [hkeyword, BranchKind.keyword, BranchKind.closes, h.zone]
    all_goals
      intro root
      rw [open_concat, ← hnext]
      simp [hkeyword, BranchKind.keyword, BranchKind.closes]
  | host =>
    rw [hkeyword] at haddress
    simp only [addressFor, Except.bind_ok_iff, Except.ok.injEq, Prod.mk.injEq] at haddress
    obtain ⟨_, _, address, _, rfl, hnext⟩ := haddress
    refine ⟨?_, ?_, ?_, ?_, hused⟩
    . intro root
      rw [open_concat, haccepted.domain, ← hnext]
      simp [hkeyword, BranchKind.keyword, BranchKind.closes, h.zone]
    all_goals
      intro root
      rw [open_concat, ← hnext]
      simp [hkeyword, BranchKind.keyword, BranchKind.closes, h.region]
  | hub =>
    rw [hkeyword] at haddress
    simp only [addressFor, Except.bind_ok_iff, Except.ok.injEq, Prod.mk.injEq] at haddress
    obtain ⟨_, _, address, _, rfl, hnext⟩ := haddress
    refine ⟨?_, ?_, ?_, ?_, hused⟩
    . intro root
      rw [open_concat, haccepted.domain, ← hnext]
      simp [hkeyword, BranchKind.keyword, BranchKind.closes, h.zone]
    all_goals
      intro root
      rw [open_concat, ← hnext]
      simp [hkeyword, BranchKind.keyword, BranchKind.closes, h.region, h.host]
  | _ =>
    rw [hkeyword] at haddress
    simp only [addressFor, Except.bind_ok_iff, Except.ok.injEq, Prod.mk.injEq] at haddress
    obtain ⟨_, _, address, _, rfl, hnext⟩ := haddress
    refine ⟨?_, ?_, ?_, ?_, hused⟩
    . intro root
      rw [open_concat, haccepted.domain, ← hnext]
      simp [hkeyword, BranchKind.keyword, BranchKind.closes, h.zone]
    all_goals
      intro root
      rw [open_concat, ← hnext]
      simp [hkeyword, BranchKind.keyword, BranchKind.closes, h.region, h.host, h.hub]

theorem Tracked.placed {validator next : Validator} (h : Tracked entries validator)
    (haccepted : Accepted validator entry next)
    : InPlace entries entry := by
  have hnext := h.next haccepted
  obtain ⟨number, haddress⟩ := haccepted.hierarchy
  obtain ⟨zone, hzone, hzoneAddress⟩ := haccepted.zone
  refine ⟨?_, addressFor_point haddress, ?_⟩
  . intro kind root
    cases kind with
    | zone =>
      rw [hnext.zone, haccepted.domain]
      simp [branchMatches, hzone, hzoneAddress]
    | region =>
      rw [hnext.region, ← haccepted.region]
      simp [branchMatches]
    | host =>
      rw [hnext.host, ← haccepted.host]
      simp [branchMatches]
    | hub =>
      rw [hnext.hub, ← haccepted.hub]
      simp [branchMatches]
  . intro other hmem heq
    exact haccepted.fresh (heq ▸ h.used other hmem)

def AllInPlace (entries : List Entry) : Prop :=
  ∀ front entry after, entries = front ++ entry :: after → InPlace front entry

theorem AllInPlace.concat (h : AllInPlace entries) (hentry : InPlace entries entry)
    : AllInPlace (entries ++ [entry]) := by
  intro front other after heq
  rcases List.eq_nil_or_concat after with rfl | ⟨rest, last, rfl⟩
  . obtain ⟨rfl, hlast⟩ := List.append_inj' heq rfl
    cases hlast
    exact hentry
  . rw [List.concat_eq_append, ← List.cons_append, ← List.append_assoc] at heq
    obtain ⟨hfront, _⟩ := List.append_inj' heq rfl
    exact h front other rest hfront

/--
The entries of a distribution in their order.
-/
def listing (base64 : Base64) (domain : String) (bytes : List UInt8) : Except Fault (List Entry) := do
  let reader ← NodelistReader.ofScope (.distribution domain) bytes
  let records ← (reader.items base64).mapM id
  .ok (entriesOf records)

theorem listing_placed {base64 : Base64} {domain : String} {bytes : List UInt8}
    (h : listing base64 domain bytes = .ok entries)
    : AllInPlace entries := by
  simp only [listing, Except.bind_ok_iff, Except.ok.injEq] at h
  obtain ⟨reader, hreader, records, hrecords, rfl⟩ := h
  have hstart : ∀ {validator : Validator}, validator.hierarchy = ⟨none, none, none, none⟩ →
      Tracked [] validator ∧ AllInPlace [] := by
    intro validator hhierarchy
    refine ⟨?_, ?_⟩
    . constructor
      all_goals simp [not_open_nil, hhierarchy]
    . intro front entry after heq
      simp at heq
  have hline : ∀ {validator next : Validator} {entries : List Entry} {rawLine : List Char} {entry : Entry},
      Tracked entries validator ∧ AllInPlace entries →
        validator.parseDataLine base64 rawLine = (.ok entry, next) →
        Tracked (entries ++ [entry]) next ∧ AllInPlace (entries ++ [entry]) := by
    rintro validator next entries rawLine entry ⟨htracked, hplaced⟩ hparsed
    have haccepted := parseDataLine_accepted hparsed
    exact ⟨htracked.next haccepted, hplaced.concat (htracked.placed haccepted)⟩
  obtain ⟨last, _, hplaced⟩ := distribution_induction
    (P := fun validator entries => Tracked entries validator ∧ AllInPlace entries) hstart hline hreader
    (Except.mapM_id_eq_ok hrecords)
  exact hplaced

theorem getElem?_foldl_insertRecord {records : List Record} (table : Table Address Entry)
    (address : Address) (hdistinct : (entriesOf records).Pairwise (·.address ≠ ·.address))
    : (records.foldl insertRecord table)[address]? =
        ((entriesOf records).find? (·.address = address)).or table[address]? := by
  unfold entriesOf at hdistinct ⊢
  induction records generalizing table with
  | nil => rfl
  | cons record records ih =>
    cases record with
    | comment comment => exact ih table hdistinct
    | entry entry =>
      simp only [List.filterMap_cons, entryOf, List.pairwise_cons] at hdistinct
      rw [List.foldl_cons, ih _ hdistinct.2]
      simp only [insertRecord, Table.getElem?_insert, List.filterMap_cons, entryOf, List.find?_cons]
      by_cases heq : entry.address = address
      . have hnone : (records.filterMap entryOf).find? (·.address = address) = none := by
          rw [List.find?_eq_none]
          intro other hmem
          have := hdistinct.1 other hmem
          rw [heq] at this
          simpa using Ne.symm this
        simp [heq, hnone]
      . simp [heq]

theorem AllInPlace.init (h : AllInPlace (entries ++ [entry])) : AllInPlace entries := by
  rintro front other after rfl
  exact h front other (after ++ [entry]) (by simp)

theorem AllInPlace.pairwise (h : AllInPlace entries) : entries.Pairwise (·.address ≠ ·.address) := by
  induction entries using List.reverseRecOn with
  | nil => exact .nil
  | append_singleton entries entry ih =>
    refine List.pairwise_append.mpr ⟨ih h.init, List.pairwise_singleton _ _, ?_⟩
    intro other hmem last hlast
    rw [List.mem_singleton.mp hlast]
    exact (h entries entry [] rfl).fresh other hmem

theorem read_get {base64 : Base64} {domain : String} {bytes : List UInt8} {nodelist : Nodelist}
    (h : Nodelist.read base64 domain bytes = .ok nodelist)
    : ∃ entries, listing base64 domain bytes = .ok entries ∧
        ∀ address entry, nodelist.get address = some entry ↔
          entry.address = address ∧ ∃ front after, entries = front ++ entry :: after := by
  simp only [Nodelist.read, Except.bind_ok_iff, Except.ok.injEq] at h
  obtain ⟨reader, hreader, records, hrecords, rfl⟩ := h
  have hlisting : listing base64 domain bytes = .ok (entriesOf records) := by
    simp [listing, hreader, hrecords]
  refine ⟨_, hlisting, ?_⟩
  have hdistinct := (listing_placed hlisting).pairwise
  intro address entry
  have hget : (ofRecords records).get address =
      (entriesOf records).find? (·.address = address) := by
    rw [Nodelist.get, ofRecords, getElem?_foldl_insertRecord ∅ address hdistinct]
    simp
  rw [hget]
  constructor
  . intro hfound
    have haddress := List.find?_some hfound
    exact ⟨by simpa using haddress, List.append_of_mem (List.mem_of_find?_eq_some hfound)⟩
  . rintro ⟨haddress, front, after, hsplit⟩
    rw [hsplit] at hdistinct ⊢
    have hfront : front.find? (·.address = address) = none := by
      rw [List.find?_eq_none]
      intro other hmem
      have hne := (List.pairwise_append.mp hdistinct).2.2 other hmem entry (by simp)
      simpa [haddress] using hne
    simp [List.find?_append, hfront, haddress]

end Router

end Tith
