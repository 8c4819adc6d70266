import Tith.Nodelist.Lemmas.Reader
import Tith.Nodelist.ReadBack

/-!
This module contains the hierarchy of a complete distribution: where each entry stands, and the coordinators
of which there is one in a zone, a region or a net.
-/

namespace Tith

namespace Nodelist

/--
Some entry has the keyword and the address, and stands at this branch itself.
-/
def Heads (entries : List Entry) (keyword : Keyword) (address : Address) (branch : Branch) : Prop :=
  ∃ entry ∈ entries, entry.keyword = keyword ∧ entry.address = address ∧ entry.branch = branch

/--
The addresses of a branch are those of entries of their levels, one within the other.
-/
structure Nested (entries : List Entry) (branch : Branch) : Prop where
  zone : Heads entries .zone branch.zone ⟨branch.zone, none, none, none⟩
  region : ∀ region, branch.region = some region →
    Heads entries .region region ⟨branch.zone, some region, none, none⟩
  host : ∀ host, branch.host = some host →
    Heads entries .host host ⟨branch.zone, branch.region, some host, none⟩
  hub : ∀ hub, branch.hub = some hub →
    branch.host.isSome ∧ Heads entries .hub hub ⟨branch.zone, branch.region, branch.host, some hub⟩

/--
The numbers of an address follow from the branch it stands at.
-/
structure Sited (entry : Entry) : Prop where
  zone : entry.address.zone = entry.branch.zone.zone
  net : entry.address.net =
    ((entry.branch.host.or entry.branch.region).map Address.net).getD entry.branch.zone.zone

/--
What a coordinator is the only one of.
-/
inductive CoordinatorLevel where
  | zone
  | region
  | net
  deriving DecidableEq, Repr

def exclusiveLevel (flag : OtherFlag) : Option CoordinatorLevel :=
  match flag with
  | .assigned .zoneEchomailCoordinator => some .zone
  | .assigned .regionalEchomailCoordinator => some .region
  | .assigned .regionalPointlistKeeper => some .region
  | .assigned .networkEchomailCoordinator => some .net
  | .assigned .netPointlistKeeper => some .net
  | .assigned .networkCoordinator => some .net
  | _ => none

def SameScope (level : CoordinatorLevel) (a b : Entry) : Prop :=
  a.branch.zone = b.branch.zone ∧
    match level with
    | .zone => True
    | .region => a.branch.region = b.branch.region
    | .net => a.address.net = b.address.net

def Exclusive (a b : Entry) : Prop :=
  ∀ flag level, exclusiveLevel flag = some level → flag ∈ a.otherFlags → flag ∈ b.otherFlags →
    ¬SameScope level a b

/-!
Coordinators.
-/

def Coordinators.Taken (coordinators : Coordinators) (scope : CoordinatorScope) (flag : OtherFlag) : Prop :=
  match flag with
  | .assigned .zoneEchomailCoordinator => scope.zone ∈ coordinators.zonesWithZec
  | .assigned .regionalEchomailCoordinator =>
    ∃ region, scope.region = some region ∧ (scope.zone, region) ∈ coordinators.regionsWithRec
  | .assigned .regionalPointlistKeeper =>
    ∃ region, scope.region = some region ∧ (scope.zone, region) ∈ coordinators.regionsWithRpk
  | .assigned .networkEchomailCoordinator =>
    (scope.zone, scope.net) ∈ coordinators.echomailCoordinatorNets
  | .assigned .netPointlistKeeper => (scope.zone, scope.net) ∈ coordinators.pointlistKeeperNets
  | .assigned .networkCoordinator => (scope.zone, scope.net) ∈ coordinators.coordinatorOverrideNets
  | _ => True

structure Coordinators.Includes (coordinators other : Coordinators) : Prop where
  zonesWithZec : other.zonesWithZec ⊆ coordinators.zonesWithZec
  regionsWithRec : other.regionsWithRec ⊆ coordinators.regionsWithRec
  regionsWithRpk : other.regionsWithRpk ⊆ coordinators.regionsWithRpk
  echomailCoordinatorNets : other.echomailCoordinatorNets ⊆ coordinators.echomailCoordinatorNets
  pointlistKeeperNets : other.pointlistKeeperNets ⊆ coordinators.pointlistKeeperNets
  coordinatorOverrideNets : other.coordinatorOverrideNets ⊆ coordinators.coordinatorOverrideNets

namespace Coordinators

theorem Includes.refl (coordinators : Coordinators) : coordinators.Includes coordinators :=
  ⟨subset_rfl, subset_rfl, subset_rfl, subset_rfl, subset_rfl, subset_rfl⟩

theorem Includes.trans {a b c : Coordinators} (h : a.Includes b) (h' : b.Includes c) : a.Includes c :=
  ⟨h'.1.trans h.1, h'.2.trans h.2, h'.3.trans h.3, h'.4.trans h.4, h'.5.trans h.5, h'.6.trans h.6⟩

theorem Includes.taken {a b : Coordinators} (h : a.Includes b) {scope : CoordinatorScope} {flag : OtherFlag}
    (htaken : b.Taken scope flag)
    : a.Taken scope flag := by
  unfold Taken at *
  split at htaken
  . exact h.zonesWithZec htaken
  . exact htaken.imp fun region hregion => ⟨hregion.1, h.regionsWithRec hregion.2⟩
  . exact htaken.imp fun region hregion => ⟨hregion.1, h.regionsWithRpk hregion.2⟩
  . exact h.echomailCoordinatorNets htaken
  . exact h.pointlistKeeperNets htaken
  . exact h.coordinatorOverrideNets htaken
  . trivial

end Coordinators

theorem insertNew_eq_some [DecidableEq α] {a : α} {s s' : Finset α}
    : insertNew a s = some s' ↔ a ∉ s ∧ s' = insert a s := by
  unfold insertNew
  split
  . next h => simp [h]
  . next h => simp [h, eq_comm]

theorem not_taken_region {region? : Option Int} {zone region : Int} {regions : Finset (Int × Int)}
    (hregion : region? = some region) (hfree : (zone, region) ∉ regions)
    : ¬∃ region, region? = some region ∧ (zone, region) ∈ regions := by
  rintro ⟨region', hregion', htaken⟩
  rw [hregion] at hregion'
  cases hregion'
  exact hfree htaken

theorem admitFlag_some {scope : CoordinatorScope} {coordinators next : Coordinators} {flag : OtherFlag}
    (h : admitFlag scope coordinators flag = some next)
    : next.Includes coordinators ∧ next.Taken scope flag ∧
        ((exclusiveLevel flag).isSome → ¬coordinators.Taken scope flag) := by
  have hrefl := Coordinators.Includes.refl coordinators
  unfold admitFlag at h
  split at h
  . obtain ⟨zones, hzones, h⟩ := Option.bind_eq_some_iff.mp h
    obtain ⟨hfree, rfl⟩ := insertNew_eq_some.mp hzones
    cases h
    exact ⟨{ hrefl with zonesWithZec := Finset.subset_insert _ _ },
      Finset.mem_insert_self _ _, fun _ => hfree⟩
  . obtain ⟨region, hregion, h⟩ := Option.bind_eq_some_iff.mp h
    obtain ⟨regions, hregions, h⟩ := Option.bind_eq_some_iff.mp h
    obtain ⟨hfree, rfl⟩ := insertNew_eq_some.mp hregions
    cases h
    exact ⟨{ hrefl with regionsWithRec := Finset.subset_insert _ _ },
      ⟨region, hregion, Finset.mem_insert_self _ _⟩, fun _ => not_taken_region hregion hfree⟩
  . obtain ⟨region, hregion, h⟩ := Option.bind_eq_some_iff.mp h
    obtain ⟨regions, hregions, h⟩ := Option.bind_eq_some_iff.mp h
    obtain ⟨hfree, rfl⟩ := insertNew_eq_some.mp hregions
    cases h
    exact ⟨{ hrefl with regionsWithRpk := Finset.subset_insert _ _ },
      ⟨region, hregion, Finset.mem_insert_self _ _⟩, fun _ => not_taken_region hregion hfree⟩
  . obtain ⟨nets, hnets, h⟩ := Option.bind_eq_some_iff.mp h
    obtain ⟨hfree, rfl⟩ := insertNew_eq_some.mp hnets
    cases h
    exact ⟨{ hrefl with echomailCoordinatorNets := Finset.subset_insert _ _ },
      Finset.mem_insert_self _ _, fun _ => hfree⟩
  . obtain ⟨nets, hnets, h⟩ := Option.bind_eq_some_iff.mp h
    obtain ⟨hfree, rfl⟩ := insertNew_eq_some.mp hnets
    cases h
    exact ⟨{ hrefl with pointlistKeeperNets := Finset.subset_insert _ _ },
      Finset.mem_insert_self _ _, fun _ => hfree⟩
  . split at h
    . obtain ⟨nets, hnets, h⟩ := Option.bind_eq_some_iff.mp h
      obtain ⟨hfree, rfl⟩ := insertNew_eq_some.mp hnets
      cases h
      exact ⟨{ hrefl with coordinatorOverrideNets := Finset.subset_insert _ _ },
        Finset.mem_insert_self _ _, fun _ => hfree⟩
    . cases h
  . cases h
    refine ⟨hrefl, ?_, fun hlevel => ?_⟩
    . unfold Coordinators.Taken
      split <;> first | contradiction | trivial
    . unfold exclusiveLevel at hlevel
      split at hlevel <;> contradiction

theorem admitFlags_true {scope : CoordinatorScope} {coordinators next : Coordinators} {flags : OtherFlags}
    (h : admitFlags scope coordinators flags = (true, next))
    : next.Includes coordinators ∧ ∀ flag ∈ flags,
        next.Taken scope flag ∧ ((exclusiveLevel flag).isSome → ¬coordinators.Taken scope flag) := by
  induction flags generalizing coordinators with
  | nil =>
    cases h
    exact ⟨.refl _, nofun⟩
  | cons flag flags ih =>
    unfold admitFlags at h
    split at h
    . cases h
    . next middle hmiddle =>
      obtain ⟨hincludes, htaken, hfree⟩ := admitFlag_some hmiddle
      obtain ⟨hrest, hflags⟩ := ih h
      refine ⟨hrest.trans hincludes, ?_⟩
      intro other hother
      rcases List.mem_cons.mp hother with rfl | hother
      . exact ⟨hrest.taken htaken, hfree⟩
      . obtain ⟨htaken, hfree⟩ := hflags other hother
        exact ⟨htaken, fun hlevel hold => hfree hlevel (hincludes.taken hold)⟩

/-!
The entries so far.
-/

theorem CurrentBranch.unique {validator : Validator} {a b : Branch} (ha : CurrentBranch validator a)
    (hb : CurrentBranch validator b)
    : a = b := by
  obtain ⟨zone, hzone, haddress, hregion, hhost, hhub⟩ := ha
  obtain ⟨zone', hzone', haddress', hregion', hhost', hhub'⟩ := hb
  rw [hzone] at hzone'
  cases hzone'
  rw [haddress] at haddress'
  injection haddress' with hsame
  cases a
  cases b
  simp_all

/--
The validator stands where the entries so far have led it.
-/
structure Placed (validator : Validator) (entries : List Entry) : Prop where
  listed : ∀ entry ∈ entries, entry.address ∈ validator.addresses
  distinct : (entries.map Entry.address).Nodup
  branch : ∀ branch, CurrentBranch validator branch → Nested entries branch
  sited : ∀ entry ∈ entries, Sited entry
  nested : ∀ before entry after, entries = before ++ entry :: after → Nested (before ++ [entry]) entry.branch
  taken : ∀ entry ∈ entries, ∀ flag ∈ entry.otherFlags, validator.coordinators.Taken entry.scope flag
  exclusive : entries.Pairwise Exclusive

theorem Heads.append {entries : List Entry} {keyword : Keyword} {address : Address} {branch : Branch}
    (h : Heads entries keyword address branch) (entry : Entry)
    : Heads (entries ++ [entry]) keyword address branch := by
  obtain ⟨head, hmem, hhead⟩ := h
  exact ⟨head, List.mem_append_left _ hmem, hhead⟩

theorem Heads.self (entries : List Entry) (entry : Entry)
    : Heads (entries ++ [entry]) entry.keyword entry.address entry.branch :=
  ⟨entry, by simp, rfl, rfl, rfl⟩

theorem Nested.append {entries : List Entry} {branch : Branch} (h : Nested entries branch) (entry : Entry)
    : Nested (entries ++ [entry]) branch where
  zone := h.zone.append entry
  region := fun region hregion => (h.region region hregion).append entry
  host := fun host hhost => (h.host host hhost).append entry
  hub := fun hub hhub => ⟨(h.hub hub hhub).1, (h.hub hub hhub).2.append entry⟩

theorem Nested.host_zone {entries : List Entry} {branch : Branch} (h : Nested entries branch)
    (hsited : ∀ entry ∈ entries, Sited entry) {host : Address} (hhost : branch.host = some host)
    : host.zone = branch.zone.zone := by
  obtain ⟨head, hmem, -, rfl, hbranch⟩ := h.host host hhost
  rw [(hsited head hmem).zone, hbranch]

theorem Placed.place {validator next : Validator} {entries : List Entry} (h : Placed validator entries)
    {entry : Entry} {hierarchy : Hierarchy} {number : Int}
    (haddress : addressFor validator.domain validator.hierarchy entry.keyword number =
      .ok (entry.address, hierarchy))
    (hbranch : CurrentBranch next entry.branch) (hdomain : next.domain = validator.domain)
    (hhierarchy : next.hierarchy = hierarchy)
    : Sited entry ∧ Nested (entries ++ [entry]) entry.branch := by
  have hself := Heads.self entries entry
  obtain ⟨zone, hzone, hzoneAddress, hregion, hhost, hhub⟩ := hbranch
  rw [hdomain] at hzoneAddress
  rw [hhierarchy] at hzone hregion hhost hhub
  have hzoneZone := (expectAddress_ok hzoneAddress).2.1
  -- What the line keeps of the branch in front of it.
  have hold : ∀ zone', expectZone validator.hierarchy = .ok zone' → zone' = zone →
      Nested entries ⟨entry.branch.zone, validator.hierarchy.region, validator.hierarchy.host,
        validator.hierarchy.hub⟩ := by
    intro zone' hexpect hsame
    subst hsame
    exact h.branch _ ⟨zone', Option.okOr_eq_ok.mp hexpect, hzoneAddress, rfl, rfl, rfl⟩
  suffices hsuffices : entry.address.zone = zone ∧
      entry.address.net = ((hierarchy.host.or hierarchy.region).map Address.net).getD zone ∧
      Nested (entries ++ [entry]) ⟨entry.branch.zone, hierarchy.region, hierarchy.host, hierarchy.hub⟩ by
    obtain ⟨hsameZone, hnet, hnested⟩ := hsuffices
    rw [← hregion, ← hhost, ← hhub] at hnested
    rw [← hregion, ← hhost, ← hzoneZone] at hnet
    exact ⟨⟨hsameZone.trans hzoneZone.symm, hnet⟩, hnested⟩
  have hbranch : entry.branch = ⟨entry.branch.zone, hierarchy.region, hierarchy.host, hierarchy.hub⟩ := by
    rw [← hregion, ← hhost, ← hhub]
  rw [hbranch] at hself
  cases hkeyword : entry.keyword with
  | zone =>
    rw [hkeyword] at haddress hself
    simp only [addressFor, Except.bind_ok_iff, Except.ok.injEq, Prod.mk.injEq] at haddress
    obtain ⟨address, hexpect, haddress, rfl⟩ := haddress
    cases hzone
    rw [hzoneAddress] at hexpect
    injection hexpect with hsame
    rw [← haddress, ← hsame] at hself ⊢
    exact ⟨hzoneZone, (expectAddress_ok hzoneAddress).2.2.1, ⟨hself, by simp, by simp, by simp⟩⟩
  | region =>
    rw [hkeyword] at haddress hself
    simp only [addressFor, Except.bind_ok_iff, Except.ok.injEq, Prod.mk.injEq] at haddress
    obtain ⟨zone', hexpectZone, address, hexpect, rfl, rfl⟩ := haddress
    have hsame : zone' = zone := by
      rw [Option.okOr_eq_ok.mp hexpectZone] at hzone
      injection hzone
    have hkept := (hold zone' hexpectZone hsame).append entry
    refine ⟨(expectAddress_ok hexpect).2.1.trans hsame, rfl, hkept.zone, ?_, by simp, by simp⟩
    intro region hregion
    injection hregion with hregion
    subst hregion
    exact hself
  | host =>
    rw [hkeyword] at haddress hself
    simp only [addressFor, Except.bind_ok_iff, Except.ok.injEq, Prod.mk.injEq] at haddress
    obtain ⟨zone', hexpectZone, address, hexpect, rfl, rfl⟩ := haddress
    have hsame : zone' = zone := by
      rw [Option.okOr_eq_ok.mp hexpectZone] at hzone
      injection hzone
    have hkept := (hold zone' hexpectZone hsame).append entry
    refine ⟨(expectAddress_ok hexpect).2.1.trans hsame, rfl, hkept.zone, hkept.region, ?_, by simp⟩
    intro host hhost
    injection hhost with hhost
    subst hhost
    exact hself
  | hub =>
    rw [hkeyword] at haddress hself
    simp only [addressFor, Except.bind_ok_iff, Except.ok.injEq, Prod.mk.injEq] at haddress
    obtain ⟨host, hexpectHost, address, hexpect, rfl, rfl⟩ := haddress
    have hstands := Option.okOr_eq_ok.mp hexpectHost
    have hnested := hold zone (Option.okOr_eq_ok.mpr hzone) rfl
    have hkept := hnested.append entry
    obtain ⟨-, hhubZone, hhubNet, -⟩ := expectAddress_ok hexpect
    have hhostZone : host.zone = zone := (hnested.host_zone h.sited hstands).trans hzoneZone
    refine ⟨hhubZone.trans hhostZone, ?_, hkept.zone, hkept.region, hkept.host, ?_⟩
    . rw [hstands]
      exact hhubNet
    . intro hub hhub
      injection hhub with hhub
      subst hhub
      exact ⟨by rw [hstands]; rfl, hself⟩
  | normal | privateNode | hold | down =>
    rw [hkeyword] at haddress
    simp only [addressFor, Except.bind_ok_iff, Except.ok.injEq, Prod.mk.injEq] at haddress
    obtain ⟨zone', hexpectZone, address, hexpect, rfl, rfl⟩ := haddress
    have hsame : zone' = zone := by
      rw [Option.okOr_eq_ok.mp hexpectZone] at hzone
      injection hzone
    obtain ⟨-, hmemberZone, hmemberNet, -⟩ := expectAddress_ok hexpect
    rw [hsame] at hmemberZone hmemberNet
    exact ⟨hmemberZone, hmemberNet, (hold zone' hexpectZone hsame).append entry⟩

theorem exclusive_of_taken {entries : List Entry} {coordinators : Coordinators} {entry : Entry}
    (htaken : ∀ other ∈ entries, ∀ flag ∈ other.otherFlags, coordinators.Taken other.scope flag)
    (hfree : ∀ flag ∈ entry.otherFlags, (exclusiveLevel flag).isSome → ¬coordinators.Taken entry.scope flag)
    : ∀ other ∈ entries, Exclusive other entry := by
  intro other hother flag level hlevel hflag hflag' hscope
  apply hfree flag hflag' (by rw [hlevel]; rfl)
  have htaken := htaken other hother flag hflag
  obtain ⟨hzone, hscope⟩ := hscope
  unfold exclusiveLevel at hlevel
  unfold Coordinators.Taken Entry.scope at htaken ⊢
  split at hlevel <;> cases hlevel <;> dsimp only at htaken hscope ⊢
  . rw [← hzone]
    exact htaken
  . rw [← hzone, ← hscope]
    exact htaken
  . rw [← hzone, ← hscope]
    exact htaken
  . rw [← hzone, ← hscope]
    exact htaken
  . rw [← hzone, ← hscope]
    exact htaken
  . rw [← hzone, ← hscope]
    exact htaken

theorem Placed.parseDataLine {validator next : Validator} {entries : List Entry} (h : Placed validator entries)
    {base64 : Base64} {rawLine : List Char} {entry : Entry}
    (hline : validator.parseDataLine base64 rawLine = (.ok entry, next))
    : Placed next (entries ++ [entry]) := by
  -- A line that is accepted keeps everything as it was placed, and places its entry.
  obtain ⟨number, hierarchy, coordinators, haddress, hnew, hadmit, hbranch, hnext⟩ := parseDataLine_ok hline
  obtain ⟨hsited, hnested⟩ := h.place haddress hbranch (by rw [hnext]) (by rw [hnext])
  obtain ⟨hincludes, hflags⟩ := admitFlags_true hadmit
  have haddresses : next.addresses = insert entry.address validator.addresses := by rw [hnext]
  have hcoordinators : next.coordinators = coordinators := by rw [hnext]
  constructor
  case listed =>
    intro other hother
    rw [haddresses, Finset.mem_insert]
    rcases List.mem_append.mp hother with hother | hother
    . exact .inr (h.listed other hother)
    . rw [List.mem_singleton.mp hother]
      exact .inl rfl
  case distinct =>
    rw [List.map_append, List.map_singleton, List.nodup_append]
    refine ⟨h.distinct, List.nodup_singleton _, ?_⟩
    rintro address haddress _ hlast rfl
    obtain ⟨other, hother, rfl⟩ := List.mem_map.mp haddress
    rw [← List.mem_singleton.mp hlast] at hnew
    exact hnew (h.listed other hother)
  case branch =>
    intro branch hcurrent
    rw [hcurrent.unique hbranch]
    exact hnested
  case sited =>
    intro other hother
    rcases List.mem_append.mp hother with hother | hother
    . exact h.sited other hother
    . rw [List.mem_singleton.mp hother]
      exact hsited
  case nested =>
    intro before other after hsplit
    rcases List.eq_nil_or_concat after with rfl | ⟨after, last, rfl⟩
    . obtain ⟨rfl, hlast⟩ := List.append_inj' hsplit rfl
      cases hlast
      exact hnested
    . rw [List.concat_eq_append, ← List.cons_append, ← List.append_assoc] at hsplit
      exact h.nested before other after (List.append_inj' hsplit rfl).1
  case taken =>
    intro other hother flag hflag
    rw [hcoordinators]
    rcases List.mem_append.mp hother with hother | hother
    . exact hincludes.taken (h.taken other hother flag hflag)
    . rw [List.mem_singleton.mp hother] at hflag ⊢
      exact (hflags flag hflag).1
  case exclusive =>
    rw [List.pairwise_append]
    refine ⟨h.exclusive, List.pairwise_singleton _ _, ?_⟩
    intro other hother last hlast
    rw [List.mem_singleton.mp hlast]
    exact exclusive_of_taken h.taken (fun flag hflag => (hflags flag hflag).2) other hother

theorem Placed.start {validator : Validator} (h : validator.hierarchy = ⟨none, none, none, none⟩)
    : Placed validator [] where
  listed := by simp
  distinct := List.nodup_nil
  branch := by
    rintro branch ⟨zone, hzone, -⟩
    rw [h] at hzone
    cases hzone
  sited := by simp
  nested := by simp
  taken := by simp
  exclusive := List.Pairwise.nil

/-!
A whole distribution.
-/

/--
The entries of a complete distribution have different addresses, stand at branches of entries in front of
them or their own, and are numbered by them. A coordinator is the only one in its zone, region or net.
-/
theorem distribution_hierarchy (base64 : Base64) (domain : String) (bytes : List UInt8) (reader : NodelistReader)
    (hreader : NodelistReader.ofScope (.distribution domain) bytes = .ok reader) (records : List Record)
    (hrecords : reader.items base64 = records.map .ok)
    : ((entriesOf records).map Entry.address).Nodup ∧
        (∀ before entry after, entriesOf records = before ++ entry :: after →
          Nested (before ++ [entry]) entry.branch) ∧
        (∀ entry ∈ entriesOf records, Sited entry) ∧
        (entriesOf records).Pairwise Exclusive := by
  obtain ⟨last, hlast⟩ := distribution_induction (P := Placed) Placed.start (fun h => h.parseDataLine) hreader hrecords
  exact ⟨hlast.distinct, hlast.nested, hlast.sited, hlast.exclusive⟩

def zoneAndHost : List UInt8 :=
  lineBytes (entryLine noKeys (plainEntry .zone 1)) ++ lineBytes (entryLine noKeys (plainEntry .host 2))

/--
A distribution of a zone and a host in it.
-/
theorem distribution_hierarchy_host
    : ∃ reader records, NodelistReader.ofScope (.distribution "fidonet") zoneAndHost = .ok reader ∧
        reader.items noKeys = records.map .ok ∧ (entriesOf records).length = 2 ∧
        ((entriesOf records).map Entry.address).Nodup := by
  have hitems : NodelistReader.items noKeys ⟨zoneAndHost, (fidonetWriter false).validator, 0, false⟩ =
      (succeeded (NodelistReader.items noKeys
        ⟨zoneAndHost, (fidonetWriter false).validator, 0, false⟩)).map .ok := by
    rfl
  refine ⟨⟨zoneAndHost, (fidonetWriter false).validator, 0, false⟩, _, rfl, hitems, by rfl, ?_⟩
  exact (distribution_hierarchy noKeys "fidonet" zoneAndHost _ rfl _ hitems).1

end Nodelist

end Tith
