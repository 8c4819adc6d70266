import Tith.Nodelist.Document

/-!
This module contains what the validator knows between two lines. From there no `expect` fails.
-/

namespace Tith

theorem validateAddress_listed {domain : String} {zone net node : Int} (point : UInt16)
    (hdomain : validateDomain domain = .ok ()) (hlisted : domain ≠ "p2p")
    (hzone : 1 ≤ zone ∧ zone ≤ 32767) (hnet : 1 ≤ net ∧ net ≤ 32767) (hnode : 0 ≤ node ∧ node ≤ 32767)
    : validateAddress domain zone net node point = .ok () := by
  unfold validateAddress
  rw [hdomain]
  dsimp only
  rw [if_neg (by tauto), if_neg (by tauto), if_neg (by omega), if_neg (by tauto)]

theorem Address.listed_numbers {address : Address} (h : address.zone ≠ -1)
    : (1 ≤ address.zone ∧ address.zone ≤ 32767) ∧ (1 ≤ address.net ∧ address.net ≤ 32767) := by
  have hvalid := address.valid
  unfold validateAddress at hvalid
  split at hvalid
  . cases hvalid
  . split at hvalid
    . cases hvalid
    . split at hvalid
      . cases hvalid
      . split at hvalid
        . cases hvalid
        . omega

theorem Address.new_eq_ok {domain : String} {zone net node : Int} {point : UInt16} {address : Address}
    : Address.new domain zone net node point = .ok address ↔
        address.domain = domain ∧ address.zone = zone ∧ address.net = net ∧ address.node = node ∧
          address.point = point := by
  unfold Address.new
  constructor
  . intro h
    split at h
    . cases h
    . injection h with h
      rw [← h]
      simp
  . rintro ⟨rfl, rfl, rfl, rfl, rfl⟩
    split
    . next e he =>
      rw [address.valid] at he
      cases he
    . rfl

namespace Nodelist

theorem parseNodeNumber_range {value : List Char} {number : Int} (h : parseNodeNumber value = some number)
    : 1 ≤ number ∧ number ≤ 32767 := by
  unfold parseNodeNumber at h
  split at h
  . cases h
  . split at h
    . cases h
    . split at h
      . injection h with h
        omega
      . cases h

/--
The numbers of a hierarchy are those of addresses.
-/
structure Hierarchy.Numbered (hierarchy : Hierarchy) : Prop where
  zone : ∀ zone, hierarchy.zone = some zone → 1 ≤ zone ∧ zone ≤ 32767
  region : ∀ region, hierarchy.region = some region → region.zone ≠ -1
  host : ∀ host, hierarchy.host = some host → host.zone ≠ -1

/--
The validator between two lines: there is a zone once there is a record, and before that the first
record has what it stands in.
-/
structure Ready (validator : Validator) : Prop where
  domain : validateDomain validator.domain = .ok ()
  listed : validator.domain ≠ "p2p"
  numbered : validator.hierarchy.Numbered
  started : validator.firstData = false → validator.hierarchy.zone.isSome
  opening : validator.firstData = true → ∀ keyword, validator.initial.admits keyword → keyword ≠ .zone →
    validator.hierarchy.zone.isSome ∧ (keyword = .hub → validator.hierarchy.host.isSome)
  fresh : validator.firstData = true → validator.addresses = ∅

namespace Ready

variable {validator : Validator}

theorem expectAddress_eq (h : Ready validator) {zone net : Int} (node : Int) (hzone : 1 ≤ zone ∧ zone ≤ 32767)
    (hnet : 1 ≤ net ∧ net ≤ 32767) (hnode : 0 ≤ node ∧ node ≤ 32767)
    : ∃ address, expectAddress validator.domain zone net node = .ok address ∧ address.zone = zone := by
  have hvalid := validateAddress_listed 0 h.domain h.listed hzone hnet hnode
  refine ⟨⟨validator.domain, zone, net, node, 0, hvalid⟩, ?_, rfl⟩
  unfold expectAddress
  rw [Except.mapError_eq_ok, Address.new_eq_ok]
  simp

theorem of_readHead (h : Ready validator) {rawLine : List Char} {keyword : Keyword} {fields : Fields}
    (hhead : validator.readHead rawLine = .ok (keyword, fields)) (hkeyword : keyword ≠ .zone)
    : validator.hierarchy.zone.isSome ∧
        (validator.firstData = true → keyword = .hub → validator.hierarchy.host.isSome) := by
  unfold Validator.readHead at hhead
  split at hhead
  . cases hhead
  . split at hhead
    . cases hhead
    . split at hhead
      . cases hhead
      . split at hhead
        . cases hhead
        . next hadmits =>
          injection hhead with hhead
          injection hhead with hk hf
          subst hk
          cases hfirst : validator.firstData with
          | false => exact ⟨h.started hfirst, nofun⟩
          | true =>
            simp only [hfirst, Bool.true_and, Bool.not_eq_true', Bool.not_eq_false] at hadmits
            obtain ⟨hzone, hhub⟩ := h.opening hfirst _ hadmits hkeyword
            exact ⟨hzone, fun _ => hhub⟩

end Ready

theorem addressFor_cases {validator : Validator} (h : Ready validator) {keyword : Keyword} {number : Int}
    (hnumber : 1 ≤ number ∧ number ≤ 32767)
    (hzone : keyword ≠ .zone → validator.hierarchy.zone.isSome)
    : (keyword = .hub ∧ validator.hierarchy.host = none ∧
        addressFor validator.domain validator.hierarchy keyword number = .error (some .invalidHierarchy)) ∨
      ∃ address hierarchy, addressFor validator.domain validator.hierarchy keyword number =
          .ok (address, hierarchy) ∧
        hierarchy.zone.isSome ∧ hierarchy.Numbered := by
  -- Every record but a zone stands in a zone, whose number is one of an address.
  have hstands : keyword ≠ .zone → ∃ zone, expectZone validator.hierarchy = .ok zone ∧
      1 ≤ zone ∧ zone ≤ 32767 := by
    intro hkeyword
    obtain ⟨zone, hzone⟩ := Option.isSome_iff_exists.mp (hzone hkeyword)
    exact ⟨zone, by rw [expectZone, hzone]; rfl, h.numbered.zone zone hzone⟩
  cases keyword with
  | zone =>
    right
    obtain ⟨address, haddress, -⟩ := h.expectAddress_eq 0 hnumber hnumber (by omega)
    refine ⟨address, ⟨some number, none, none, none⟩, ?_, rfl, ⟨?_, nofun, nofun⟩⟩
    . simp only [addressFor, haddress, Except.bind_of_ok]
    . intro zone hsome
      injection hsome with hsome
      omega
  | region =>
    right
    obtain ⟨zone, hexpect, hrange⟩ := hstands (by decide)
    obtain ⟨address, haddress, heq⟩ := h.expectAddress_eq 0 hrange hnumber (by omega)
    refine ⟨address, { validator.hierarchy with host := none, hub := none, region := some address }, ?_,
      hzone (by decide), ⟨h.numbered.zone, ?_, nofun⟩⟩
    . simp only [addressFor, hexpect, haddress, Except.bind_of_ok]
    . intro region hsome
      injection hsome with hsome
      rw [← hsome]
      omega
  | host =>
    right
    obtain ⟨zone, hexpect, hrange⟩ := hstands (by decide)
    obtain ⟨address, haddress, heq⟩ := h.expectAddress_eq 0 hrange hnumber (by omega)
    refine ⟨address, { validator.hierarchy with hub := none, host := some address }, ?_,
      hzone (by decide), ⟨h.numbered.zone, h.numbered.region, ?_⟩⟩
    . simp only [addressFor, hexpect, haddress, Except.bind_of_ok]
    . intro host hsome
      injection hsome with hsome
      rw [← hsome]
      omega
  | hub =>
    cases hhost : validator.hierarchy.host with
    | none =>
      left
      refine ⟨rfl, rfl, ?_⟩
      simp only [addressFor, hhost, Option.okOr_none, Except.bind_of_error]
    | some host =>
      right
      obtain ⟨hz, hn⟩ := Address.listed_numbers (h.numbered.host host hhost)
      obtain ⟨address, haddress, -⟩ := h.expectAddress_eq number hz hn (by omega)
      refine ⟨address, { validator.hierarchy with hub := some address }, ?_, hzone (by decide),
        ⟨h.numbered.zone, h.numbered.region, h.numbered.host⟩⟩
      simp only [addressFor, hhost, Option.okOr_some, haddress, Except.bind_of_ok]
  | normal | privateNode | hold | down =>
    right
    obtain ⟨zone, hexpect, hrange⟩ := hstands (by decide)
    have hnet : 1 ≤ ((validator.hierarchy.host.or validator.hierarchy.region).map Address.net).getD zone ∧
        ((validator.hierarchy.host.or validator.hierarchy.region).map Address.net).getD zone ≤ 32767 := by
      cases hhost : validator.hierarchy.host with
      | some host => exact (Address.listed_numbers (h.numbered.host host hhost)).2
      | none =>
        cases hregion : validator.hierarchy.region with
        | some region => exact (Address.listed_numbers (h.numbered.region region hregion)).2
        | none => exact hrange
    obtain ⟨address, haddress, -⟩ := h.expectAddress_eq number hrange hnet (by omega)
    refine ⟨address, validator.hierarchy, ?_, hzone (by decide), h.numbered⟩
    simp only [addressFor, hexpect, haddress, Except.bind_of_ok]

theorem tithService_isOk (flags : InternetFlags) : ∃ tith, tithService flags = .ok tith := by
  unfold tithService
  dsimp only
  split
  . exact ⟨_, rfl⟩
  . next service rest hservices =>
    have hmem : service ∈ (resolvedServices flags).filter (fun service => service.protocol = .tith) := by
      rw [hservices]
      exact List.mem_cons_self
    rw [List.mem_filter] at hmem
    obtain ⟨hmem, hprotocol⟩ := hmem
    obtain ⟨flag, -, hflag⟩ := List.mem_filterMap.mp hmem
    -- Only the flag of the protocol itself resolves to it, and that flag has a key.
    have hkey : ∃ key, service.publicKey = some key := by
      cases flag <;> simp only [InternetFlag.resolvedService, Option.some.injEq, reduceCtorEq] at hflag <;>
        (subst hflag; simp_all)
    obtain ⟨key, hkey⟩ := hkey
    rw [hkey]
    exact ⟨_, rfl⟩

theorem buildEntry_isOk {validator : Validator} (h : Ready validator) (hzone : validator.hierarchy.zone.isSome)
    (keyword : Keyword) (fields : Fields) (address : Address) (flags : RecordFlags)
    : ∃ entry, buildEntry validator keyword fields address flags = .ok entry ∧
        .ok entry.tith = tithService flags.internetFlags := by
  obtain ⟨tith, htith⟩ := tithService_isOk flags.internetFlags
  obtain ⟨zone, hzone⟩ := Option.isSome_iff_exists.mp hzone
  have hrange := h.numbered.zone zone hzone
  obtain ⟨zoneAddress, haddress, -⟩ := h.expectAddress_eq 0 hrange hrange (by omega)
  unfold buildEntry
  rw [htith, expectZone, hzone]
  simp only [Option.okOr_some, Except.bind_of_ok, haddress]
  exact ⟨_, rfl, rfl⟩

theorem validateFlags_cases (validator : Validator) (hzone : validator.hierarchy.zone.isSome)
    (keyword : Keyword) (address : Address) (flags : RecordFlags)
    : ∃ coordinators, (validateFlags validator keyword address flags).2 =
          { validator with coordinators := coordinators } ∧
        ((validateFlags validator keyword address flags).1 = .ok () ∨
          (validateFlags validator keyword address flags).1 = .error (some .invalidFlag)) := by
  obtain ⟨zone, hzone⟩ := Option.isSome_iff_exists.mp hzone
  unfold validateFlags
  split
  . exact ⟨validator.coordinators, rfl, .inr rfl⟩
  . simp only [hzone]
    split
    . exact ⟨_, rfl, .inl rfl⟩
    . exact ⟨_, rfl, .inr rfl⟩

theorem Ready.of_fields {validator next : Validator} (h : Ready validator)
    (hdomain : next.domain = validator.domain) (hfirst : next.firstData = false)
    (hzone : next.hierarchy.zone.isSome) (hnumbered : next.hierarchy.Numbered)
    : Ready next where
  domain := by
    rw [hdomain]
    exact h.domain
  listed := by
    rw [hdomain]
    exact h.listed
  numbered := hnumbered
  started := fun _ => hzone
  opening := by
    intro htrue
    rw [hfirst] at htrue
    cases htrue
  fresh := by
    intro htrue
    rw [hfirst] at htrue
    cases htrue

theorem parseDataLine_ready {validator : Validator} (h : Ready validator) (base64 : Base64)
    (rawLine : List Char)
    : (validator.parseDataLine base64 rawLine).1 ≠ .error none ∧
        (∀ entry, (validator.parseDataLine base64 rawLine).1 = .ok entry →
          Ready (validator.parseDataLine base64 rawLine).2) := by
  unfold Validator.parseDataLine
  split
  . simp
  . next keyword fields hhead =>
    dsimp only
    split
    . simp
    . next number hnumber =>
      have hrange := parseNodeNumber_range hnumber
      rcases addressFor_cases h hrange (fun hkeyword => (h.of_readHead hhead hkeyword).1) with
        ⟨-, -, haddress⟩ | ⟨address, hierarchy, haddress, hzone, hnumbered⟩
      . rw [haddress]
        simp
      . rw [haddress]
        dsimp only
        split
        . simp
        . split
          . simp
          . next flags hbody =>
            have hready : ∀ coordinators, Ready
                { validator with
                  firstData := false
                  hierarchy := hierarchy
                  addresses := insert address validator.addresses
                  coordinators := coordinators } := by
              intro coordinators
              exact h.of_fields rfl rfl hzone hnumbered
            rcases hflags : validateFlags _ keyword address flags with ⟨result, next⟩
            obtain ⟨coordinators, hnext, hresult⟩ := validateFlags_cases
              { validator with
                firstData := false
                hierarchy := hierarchy
                addresses := insert address validator.addresses } hzone keyword address flags
            rw [hflags] at hnext hresult
            dsimp only at hnext hresult
            subst hnext
            rcases hresult with rfl | rfl
            . dsimp only
              obtain ⟨entry, hentry, -⟩ :=
                buildEntry_isOk (hready coordinators) hzone keyword fields address flags
              rw [hentry]
              exact ⟨nofun, fun _ _ => hready coordinators⟩
            . simp

end Nodelist

end Tith
