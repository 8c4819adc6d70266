import Tith.Nodelist.Lemmas.Validator
import Tith.Nodelist.Stream

/-!
This module contains what a reader does with one line, and the rule for what it keeps from line to line.
-/

namespace Tith

namespace Nodelist

def Entry.scope (entry : Entry) : CoordinatorScope :=
  { keyword := entry.keyword
    zone := entry.branch.zone.zone
    region := entry.branch.region.map Address.net
    net := entry.address.net
    hasHost := entry.branch.host.isSome }

def CurrentBranch (validator : Validator) (branch : Branch) : Prop :=
  ∃ zone, validator.hierarchy.zone = some zone ∧
    expectAddress validator.domain zone zone 0 = .ok branch.zone ∧
    branch.region = validator.hierarchy.region ∧ branch.host = validator.hierarchy.host ∧
    branch.hub = validator.hierarchy.hub

theorem expectAddress_ok {domain : String} {zone net node : Int} {address : Address}
    (h : expectAddress domain zone net node = .ok address)
    : address.domain = domain ∧ address.zone = zone ∧ address.net = net ∧ address.node = node ∧
        address.point = 0 :=
  Address.new_eq_ok.mp (Except.mapError_eq_ok.mp h)

theorem validateFlags_ok {validator next : Validator} {keyword : Keyword} {address : Address}
    {flags : RecordFlags} (h : validateFlags validator keyword address flags = (.ok (), next))
    : ∃ zone coordinators, validator.hierarchy.zone = some zone ∧
        admitFlags (coordinatorScope keyword address zone validator.hierarchy) validator.coordinators
          flags.otherFlags = (true, coordinators) ∧
        next = { validator with coordinators := coordinators } := by
  unfold validateFlags at h
  split at h
  . cases h
  . split at h
    . cases h
    . next zone hzone =>
      dsimp only at h
      split at h
      . next hvalid =>
        injection h with _ h
        exact ⟨zone, _, hzone, Prod.ext hvalid rfl, h.symm⟩
      . cases h

theorem buildEntry_ok {validator : Validator} {keyword : Keyword} {fields : Fields} {address : Address}
    {flags : RecordFlags} {entry : Entry} (h : buildEntry validator keyword fields address flags = .ok entry)
    : entry.keyword = keyword ∧ entry.address = address ∧ entry.otherFlags = flags.otherFlags ∧
        CurrentBranch validator entry.branch := by
  simp only [buildEntry, Except.bind_ok_iff] at h
  obtain ⟨tith, -, zone, hzone, zoneAddress, haddress, h⟩ := h
  cases h
  exact ⟨rfl, rfl, rfl, zone, Option.okOr_eq_ok.mp hzone, haddress, rfl, rfl, rfl⟩

/--
What a data line that is accepted has done: its address is new, its flags are admitted in its scope, and the
validator stands where the entry does.
-/
theorem parseDataLine_ok {base64 : Base64} {validator next : Validator} {rawLine : List Char} {entry : Entry}
    (h : validator.parseDataLine base64 rawLine = (.ok entry, next))
    : ∃ number hierarchy coordinators,
        addressFor validator.domain validator.hierarchy entry.keyword number =
          .ok (entry.address, hierarchy) ∧
        entry.address ∉ validator.addresses ∧
        admitFlags entry.scope validator.coordinators entry.otherFlags = (true, coordinators) ∧
        CurrentBranch next entry.branch ∧
        next = { validator with
          firstData := false
          hierarchy := hierarchy
          addresses := insert entry.address validator.addresses
          coordinators := coordinators } := by
  unfold Validator.parseDataLine at h
  split at h
  . cases h
  . next keyword fields hhead =>
    dsimp only at h
    split at h
    . cases h
    . next number hnumber =>
      split at h
      . cases h
      . next address hierarchy haddress =>
        split at h
        . cases h
        . next hnew =>
          split at h
          . cases h
          . next flags hbody =>
            split at h
            . cases h
            . next last hflags =>
              injection h with hentry hlast
              subst hlast
              obtain ⟨rfl, rfl, hother, hbranch⟩ := buildEntry_ok hentry
              obtain ⟨zone, coordinators, hzone, hadmit, rfl⟩ := validateFlags_ok hflags
              refine ⟨number, hierarchy, coordinators, haddress, hnew, ?_, hbranch, rfl⟩
              obtain ⟨zone', hzone', hzoneAddress, hregion, hhost, -⟩ := hbranch
              dsimp only at hzone hzone' hadmit hregion hhost
              rw [hzone] at hzone'
              cases hzone'
              have hscope : entry.scope = coordinatorScope entry.keyword entry.address zone hierarchy := by
                unfold Entry.scope coordinatorScope
                rw [(expectAddress_ok hzoneAddress).2.1, hregion, hhost]
              rw [hscope, hother]
              exact hadmit

def entryOf (record : Record) : Option Entry :=
  match record with
  | .comment _ => none
  | .entry entry => some entry

def entriesOf (records : List Record) : List Entry := records.filterMap entryOf

theorem entriesOf_cons (record : Record) (records : List Record)
    : entriesOf (record :: records) = entriesOf [record] ++ entriesOf records := by
  unfold entriesOf
  rw [← List.filterMap_append]
  rfl

theorem parseLine_ok {base64 : Base64} {validator next : Validator} {rawLine : List Char} {record : Record}
    (h : validator.parseLine base64 rawLine = (.ok record, next))
    : (next = validator ∧ entriesOf [record] = []) ∨
        ∃ entry, validator.parseDataLine base64 rawLine = (.ok entry, next) ∧ entriesOf [record] = [entry] := by
  unfold Validator.parseLine at h
  split at h
  . split at h
    . cases h
    . cases h
      exact .inl ⟨rfl, rfl⟩
  . dsimp only at h
    rcases hparsed : validator.parseDataLine base64 rawLine with ⟨result, last⟩
    rw [hparsed] at h
    cases result with
    | error fault => cases h
    | ok entry =>
      cases h
      exact .inr ⟨entry, rfl, rfl⟩

theorem next_ok {base64 : Base64} {reader next : NodelistReader} {record : Record}
    (h : reader.next base64 = (some (.ok record), next))
    : ∃ rawLine, reader.validator.parseLine base64 rawLine = (.ok record, next.validator) := by
  unfold NodelistReader.next at h
  split at h
  . cases h
  . dsimp only at h
    split at h
    . split at h <;> cases h
    . cases h
    . split at h
      . cases h
      . next line hline =>
        split at h
        . next parsed validator hparsed =>
          cases h
          exact ⟨_, hparsed⟩
        . cases h

theorem initialHierarchy_zone {context : SegmentContext} (h : context.initial = .zone)
    : initialHierarchy context = ⟨none, none, none, none⟩ := by
  obtain ⟨domain, initial, hvalid⟩ := context
  subst h
  rfl

section Induction

variable {P : Validator → List Entry → Prop} {base64 : Base64}

/--
What every line that is accepted keeps of the validator and the entries so far, the reader keeps.
-/
theorem items_go_induction
    (hline : ∀ {validator next : Validator} {entries : List Entry} {rawLine : List Char} {entry : Entry},
      P validator entries → validator.parseDataLine base64 rawLine = (.ok entry, next) → P next (entries ++ [entry]))
    {fuel : Nat} {reader : NodelistReader} {entries : List Entry} {records : List Record}
    (h : P reader.validator entries) (hitems : NodelistReader.items.go base64 fuel reader = records.map .ok)
    : ∃ last, P last (entries ++ entriesOf records) := by
  induction fuel generalizing reader entries records with
  | zero =>
    obtain rfl := List.map_eq_nil_iff.mp hitems.symm
    exact ⟨_, by simpa [entriesOf] using h⟩
  | succ fuel ih =>
    unfold NodelistReader.items.go at hitems
    split at hitems
    . obtain rfl := List.map_eq_nil_iff.mp hitems.symm
      exact ⟨_, by simpa [entriesOf] using h⟩
    . next item next hnext =>
      cases records with
      | nil => cases hitems
      | cons record records =>
        injection hitems with hitem hitems
        subst hitem
        obtain ⟨rawLine, hrecord⟩ := next_ok hnext
        have hkept : P next.validator (entries ++ entriesOf [record]) := by
          rcases parseLine_ok hrecord with ⟨hsame, hnone⟩ | ⟨entry, hentry, hone⟩
          . rw [hsame, hnone, List.append_nil]
            exact h
          . rw [hone]
            exact hline h hentry
        rw [entriesOf_cons, ← List.append_assoc]
        exact ih hkept hitems

/--
The reader of a distribution starts outside of every zone.
-/
theorem distribution_induction
    (hstart : ∀ {validator : Validator}, validator.hierarchy = ⟨none, none, none, none⟩ → P validator [])
    (hline : ∀ {validator next : Validator} {entries : List Entry} {rawLine : List Char} {entry : Entry},
      P validator entries → validator.parseDataLine base64 rawLine = (.ok entry, next) → P next (entries ++ [entry]))
    {domain : String} {bytes : List UInt8} {reader : NodelistReader} {records : List Record}
    (hreader : NodelistReader.ofScope (.distribution domain) bytes = .ok reader)
    (hrecords : reader.items base64 = records.map .ok)
    : ∃ last, P last (entriesOf records) := by
  have hhierarchy : reader.validator.hierarchy = ⟨none, none, none, none⟩ := by
    simp only [NodelistReader.ofScope, Scope.validator, Except.bind_ok_iff, Except.ok.injEq] at hreader
    obtain ⟨validator, ⟨context, hcontext, rfl⟩, rfl⟩ := hreader
    apply initialHierarchy_zone
    unfold SegmentContext.validated at hcontext
    split at hcontext
    . cases hcontext
    . cases hcontext
      rfl
  obtain ⟨last, hlast⟩ := items_go_induction hline (hstart hhierarchy) hrecords
  exact ⟨last, hlast⟩

end Induction

end Nodelist

end Tith
