import Tith.Lib.Base64
import Tith.Router.Tree

/-!
This module contains what the selectors of branches mean in the tree of a nodelist, and which systems the
router misses or takes by mistake.
-/

namespace Tith

namespace Router

open Config Nodelist

/--
The node that an address belongs to: its boss if it is a point, else itself.
-/
def nodeOf (address : Address) : Address := (bossAddress address).getD address

/--
The address of an entry in the branch of a coordinator.
-/
def InBranch (entries : List Entry) (kind : BranchKind) (root address : Address) : Prop :=
  ∃ front entry after, entries = front ++ entry :: after ∧ entry.address = address ∧
    Open (front ++ [entry]) kind root

def IndependentKind.branch (kind : IndependentKind) : BranchKind :=
  match kind with
  | .zone => .zone
  | .region => .region

def IndependentKind.lower (kind : IndependentKind) : List BranchKind :=
  match kind with
  | .zone => [.region, .host, .hub]
  | .region => [.host, .hub]

/--
The address of a normal node directly in a zone or a region.
-/
def IsIndependent (entries : List Entry) (kind : IndependentKind) (root address : Address) : Prop :=
  ∃ front entry after, entries = front ++ entry :: after ∧ entry.address = address ∧
    entry.keyword.isMember = true ∧ Open (front ++ [entry]) (IndependentKind.branch kind) root ∧
    ∀ lower ∈ IndependentKind.lower kind, ∀ other, ¬Open (front ++ [entry]) lower other

def IsCoordinator (entries : List Entry) (kind : BranchKind) (root : Address) : Prop :=
  ∃ entry ∈ entries, entry.address = root ∧ entry.keyword = BranchKind.keyword kind

section InPlace

variable {entries front after : List Entry} {entry : Entry} {root address : Address}

theorem nodeOf_of_point (h : address.point = 0) : nodeOf address = address := by
  simp [nodeOf, bossAddress, h]

theorem AllInPlace.inBranch_point {kind : BranchKind} (h : AllInPlace entries)
    (hbranch : InBranch entries kind root address)
    : address.point = 0 := by
  obtain ⟨front, entry, after, hsplit, rfl, _⟩ := hbranch
  exact (h front entry after hsplit).point

theorem AllInPlace.unique (h : AllInPlace entries) {other : Entry} (hentry : entry ∈ entries)
    (hother : other ∈ entries) (haddress : entry.address = other.address)
    : entry = other := by
  have hnodup : (entries.map Entry.address).Nodup := List.pairwise_map.mpr h.pairwise
  exact List.inj_on_of_nodup_map hnodup hentry hother haddress

theorem isMember_iff {keyword : Keyword}
    : keyword.isMember = true ↔ ∀ kind, keyword ≠ BranchKind.keyword kind := by
  constructor
  . intro hmember kind heq
    subst heq
    cases kind <;> cases hmember
  . intro hne
    cases keyword with
    | zone => exact absurd rfl (hne .zone)
    | region => exact absurd rfl (hne .region)
    | host => exact absurd rfl (hne .host)
    | hub => exact absurd rfl (hne .hub)
    | _ => rfl

/--
A coordinator at the place of an independent node opens a branch that the node would not be in, or closes
the branch that it would be in.
-/
theorem coordinator_or_member {kind : IndependentKind}
    (hopen : Open (front ++ [entry]) (IndependentKind.branch kind) root)
    (hlower : ∀ lower ∈ IndependentKind.lower kind, ∀ other, ¬Open (front ++ [entry]) lower other)
    : entry.keyword.isMember = true ∨
        (entry.keyword = BranchKind.keyword (IndependentKind.branch kind) ∧ entry.address = root) := by
  rcases open_concat.mp hopen with hroot | ⟨hstays, _⟩
  . exact .inr hroot
  . left
    rw [isMember_iff]
    intro other hother
    by_cases hmem : other ∈ IndependentKind.lower kind
    . exact hlower other hmem entry.address (open_concat.mpr (.inl ⟨hother, rfl⟩))
    . rw [hother] at hstays
      cases kind <;> cases other <;> simp_all [IndependentKind.lower, IndependentKind.branch,
        BranchKind.closes, BranchKind.keyword]

theorem coordinator_independent {kind : IndependentKind}
    (hkeyword : entry.keyword = BranchKind.keyword (IndependentKind.branch kind))
    (lower : BranchKind) (hmem : lower ∈ IndependentKind.lower kind) (other : Address)
    : ¬Open (front ++ [entry]) lower other := by
  rw [open_concat, hkeyword]
  cases kind <;> cases lower <;> simp_all [IndependentKind.lower, IndependentKind.branch,
    BranchKind.closes, BranchKind.keyword]

theorem InPlace.independent (h : InPlace front entry) (kind : IndependentKind)
    : independentMatches kind root entry.branch = true ↔
        Open (front ++ [entry]) (IndependentKind.branch kind) root ∧
          ∀ lower ∈ IndependentKind.lower kind, ∀ other, ¬Open (front ++ [entry]) lower other := by
  have hnone : ∀ {o : Option Address}, o.isNone = true ↔ ∀ other, o ≠ some other := by
    intro o
    cases o <;> simp
  cases kind with
  | zone =>
    simp [independentMatches, IndependentKind.branch, IndependentKind.lower, h.branch, branchMatches, hnone,
      -Option.isNone_iff_eq_none, and_assoc]
  | region =>
    simp [independentMatches, IndependentKind.branch, IndependentKind.lower, h.branch, branchMatches, hnone,
      -Option.isNone_iff_eq_none, and_assoc]

end InPlace

/--
What the nodelist finds, in the order of its distribution.
-/
structure Lists (nodelist : Nodelist) (entries : List Entry) : Prop where
  placed : AllInPlace entries
  get : ∀ address entry, nodelist.get address = some entry ↔
    entry.address = address ∧ ∃ front after, entries = front ++ entry :: after

section Selects

variable {sources : Sources} {entries : List Entry} (h : Lists sources.nodelist entries)

include h

theorem Lists.branch (kind : BranchKind) (root : Address) (identity : Identity)
    : selectorMatches sources (.branch kind root) identity = true ↔
        InBranch entries kind root identity.address := by
  simp only [selectorMatches]
  rw [Option.any_eq_true]
  constructor
  . rintro ⟨entry, hget, hmatches⟩
    obtain ⟨haddress, front, after, hsplit⟩ := (h.get _ _).mp hget
    exact ⟨front, entry, after, hsplit, haddress, ((h.placed _ _ _ hsplit).branch kind root).mpr hmatches⟩
  . rintro ⟨front, entry, after, hsplit, haddress, hopen⟩
    exact ⟨entry, (h.get _ _).mpr ⟨haddress, front, after, hsplit⟩,
      ((h.placed _ _ _ hsplit).branch kind root).mp hopen⟩

theorem Lists.independent (kind : IndependentKind) (root : Address) (identity : Identity)
    : selectorMatches sources (.independent kind root) identity = true ↔
        IsIndependent entries kind root identity.address ∨
          (identity.address = root ∧ IsCoordinator entries (IndependentKind.branch kind) root) := by
  -- The router takes the coordinator for an independent node.
  simp only [selectorMatches]
  rw [Option.any_eq_true]
  constructor
  . rintro ⟨entry, hget, hmatches⟩
    obtain ⟨haddress, front, after, hsplit⟩ := (h.get _ _).mp hget
    obtain ⟨hopen, hlower⟩ := ((h.placed _ _ _ hsplit).independent kind).mp hmatches
    rcases coordinator_or_member hopen hlower with hmember | ⟨hkeyword, hroot⟩
    . exact .inl ⟨front, entry, after, hsplit, haddress, hmember, hopen, hlower⟩
    . exact .inr ⟨haddress.symm.trans hroot, entry, by simp [hsplit], hroot, hkeyword⟩
  . rintro (⟨front, entry, after, hsplit, haddress, _, hopen, hlower⟩ | ⟨haddress, entry, hmem, hroot, hkeyword⟩)
    . exact ⟨entry, (h.get _ _).mpr ⟨haddress, front, after, hsplit⟩,
        ((h.placed _ _ _ hsplit).independent kind).mpr ⟨hopen, hlower⟩⟩
    . obtain ⟨front, after, hsplit⟩ := List.append_of_mem hmem
      refine ⟨entry, (h.get _ _).mpr ⟨hroot.trans haddress.symm, front, after, hsplit⟩, ?_⟩
      refine ((h.placed _ _ _ hsplit).independent kind).mpr ⟨?_, coordinator_independent hkeyword⟩
      exact open_concat.mpr (.inl ⟨hkeyword, hroot⟩)

theorem Lists.branch_law_iff (kind : BranchKind) (root : Address) (identity : Identity)
    : (selectorMatches sources (.branch kind root) identity = true ↔
        InBranch entries kind root (nodeOf identity.address)) ↔
      (identity.address.point = 0 ∨ ¬InBranch entries kind root (nodeOf identity.address)) := by
  rw [h.branch]
  by_cases hpoint : identity.address.point = 0
  . simp [nodeOf_of_point hpoint, hpoint]
  . have hmissed : ¬InBranch entries kind root identity.address := by
      intro hbranch
      exact hpoint (h.placed.inBranch_point hbranch)
    simp [hmissed, hpoint]

theorem Lists.independent_law_iff (kind : IndependentKind) (root : Address) (identity : Identity)
    : (selectorMatches sources (.independent kind root) identity = true ↔
        IsIndependent entries kind root (nodeOf identity.address)) ↔
      (identity.address.point = 0 ∨ ¬IsIndependent entries kind root (nodeOf identity.address)) ∧
        ¬(identity.address = root ∧ IsCoordinator entries (IndependentKind.branch kind) root) := by
  rw [h.independent]
  by_cases hpoint : identity.address.point = 0
  . rw [nodeOf_of_point hpoint]
    have hexclusive : IsCoordinator entries (IndependentKind.branch kind) root →
        ¬IsIndependent entries kind root root := by
      rintro ⟨coordinator, hmem, hroot, hkeyword⟩ ⟨front, entry, after, hsplit, haddress, hmember, _⟩
      have hentry : entry ∈ entries := by simp [hsplit]
      rw [h.placed.unique hentry hmem (haddress.trans hroot.symm)] at hmember
      exact isMember_iff.mp hmember _ hkeyword
    constructor
    . intro hlaw
      refine ⟨.inl hpoint, ?_⟩
      rintro ⟨rfl, hcoordinator⟩
      exact hexclusive hcoordinator (hlaw.mp (.inr ⟨rfl, hcoordinator⟩))
    . rintro ⟨_, hroot⟩
      simp [hroot]
  . have hmissed : ¬IsIndependent entries kind root identity.address := by
      rintro ⟨front, entry, after, hsplit, haddress, _⟩
      exact hpoint (haddress ▸ (h.placed front entry after hsplit).point)
    have hroot : ¬(identity.address = root ∧ IsCoordinator entries (IndependentKind.branch kind) root) := by
      rintro ⟨haddress, entry, hmem, hentry, _⟩
      obtain ⟨front, after, hsplit⟩ := List.append_of_mem hmem
      exact hpoint (haddress.trans hentry.symm ▸ (h.placed front entry after hsplit).point)
    simp [hmissed, hroot, hpoint]

end Selects

theorem lists_of_read {base64 : Base64} {domain : String} {bytes : List UInt8} {nodelist : Nodelist}
    (h : Nodelist.read base64 domain bytes = .ok nodelist)
    : ∃ entries, listing base64 domain bytes = .ok entries ∧ Lists nodelist entries := by
  obtain ⟨entries, hlisting, hget⟩ := read_get h
  exact ⟨entries, hlisting, listing_placed hlisting, hget⟩

/--
The selectors follow the tree for every system but the points of the selected nodes, which they miss, and
the coordinator of an independent zone or region, which they take.
-/
theorem selectors_follow_tree_iff (base64 : Base64) (domain : String) (bytes : List UInt8)
    (nodelist : Nodelist) (hread : Nodelist.read base64 domain bytes = .ok nodelist)
    : ∃ entries, listing base64 domain bytes = .ok entries ∧
        ∀ (config : ConfigurationSet) (resolver : KeyResolver) (identity : Identity) (root : Address),
          (∀ kind,
            (selectorMatches ⟨config, nodelist, resolver⟩ (.branch kind root) identity = true ↔
              InBranch entries kind root (nodeOf identity.address)) ↔
            (identity.address.point = 0 ∨ ¬InBranch entries kind root (nodeOf identity.address))) ∧
          (∀ kind,
            (selectorMatches ⟨config, nodelist, resolver⟩ (.independent kind root) identity = true ↔
              IsIndependent entries kind root (nodeOf identity.address)) ↔
            (identity.address.point = 0 ∨ ¬IsIndependent entries kind root (nodeOf identity.address)) ∧
              ¬(identity.address = root ∧
                IsCoordinator entries (IndependentKind.branch kind) root)) := by
  obtain ⟨entries, hlisting, hlists⟩ := lists_of_read hread
  refine ⟨entries, hlisting, ?_⟩
  intro config resolver identity root
  have hlists : Lists (⟨config, nodelist, resolver⟩ : Sources).nodelist entries := hlists
  exact ⟨fun kind => hlists.branch_law_iff kind root identity,
    fun kind => hlists.independent_law_iff kind root identity⟩

/--
A nodelist of one zone with its coordinator alone, the address of the coordinator and that of a point.
-/
def zoneAlone : List UInt8 := Bytes.ofString "Zone\t1\tNode\tPlace\tSysop\t\t\t\t\t\t\n"

def zoneBase64 : Base64 := ⟨Rfc4648.encode, Rfc4648.decode⟩

def zoneRoot : Address := ⟨"fidonet", 1, 1, 0, 0, rfl⟩

def zonePoint : Address := ⟨"fidonet", 1, 1, 0, 1, rfl⟩

theorem zoneAlone_read : ∃ nodelist, Nodelist.read zoneBase64 "fidonet" zoneAlone = .ok nodelist := by
  have hsome : (Nodelist.read zoneBase64 "fidonet" zoneAlone).toOption.isSome = true := by
    decide
  cases hread : Nodelist.read zoneBase64 "fidonet" zoneAlone with
  | error fault =>
    rw [hread] at hsome
    cases hsome
  | ok nodelist => exact ⟨nodelist, rfl⟩

/--
A zone with a region, a net and a hub, and a node below the region and below the hub.
-/
def zoneTree : List UInt8 :=
  Bytes.ofString "Zone\t1\tNode\tPlace\tSysop\t\t\t\t\t\t\n" ++
    Bytes.ofString "Region\t10\tNode\tPlace\tSysop\t\t\t\t\t\t\n" ++
    Bytes.ofString "\t11\tNode\tPlace\tSysop\t1-1\t\t\t\t\t\n" ++
    Bytes.ofString "Host\t20\tNode\tPlace\tSysop\t\t\t\t\t\t\n" ++
    Bytes.ofString "Hub\t30\tNode\tPlace\tSysop\t\t\t\t\t\t\n" ++
    Bytes.ofString "\t31\tNode\tPlace\tSysop\t1-1\t\t\t\t\t\n"

def treeRegion : Address := ⟨"fidonet", 1, 10, 0, 0, rfl⟩

def treeNode : Address := ⟨"fidonet", 1, 10, 11, 0, rfl⟩

def treeHost : Address := ⟨"fidonet", 1, 20, 0, 0, rfl⟩

def treeHub : Address := ⟨"fidonet", 1, 20, 30, 0, rfl⟩

def treeMember : Address := ⟨"fidonet", 1, 20, 31, 0, rfl⟩

theorem zoneTree_read : ∃ nodelist, Nodelist.read zoneBase64 "fidonet" zoneTree = .ok nodelist := by
  have hsome : (Nodelist.read zoneBase64 "fidonet" zoneTree).toOption.isSome = true := by
    decide +kernel
  cases hread : Nodelist.read zoneBase64 "fidonet" zoneTree with
  | error fault =>
    rw [hread] at hsome
    cases hsome
  | ok nodelist => exact ⟨nodelist, rfl⟩

theorem zoneTree_listing {entries : List Entry} (h : listing zoneBase64 "fidonet" zoneTree = .ok entries)
    : ∃ zone region node host hub member, entries = [zone, region, node, host, hub, member] ∧
        (zone.address = zoneRoot ∧ zone.keyword = .zone) ∧
        (region.address = treeRegion ∧ region.keyword = .region) ∧
        (node.address = treeNode ∧ node.keyword = .normal) ∧
        (host.address = treeHost ∧ host.keyword = .host) ∧
        (hub.address = treeHub ∧ hub.keyword = .hub) ∧
        (member.address = treeMember ∧ member.keyword = .normal) := by
  have hmap : ((listing zoneBase64 "fidonet" zoneTree).toOption.map fun entries =>
      entries.map fun entry => (entry.address, entry.keyword)) =
      some [(zoneRoot, .zone), (treeRegion, .region), (treeNode, .normal), (treeHost, .host),
        (treeHub, .hub), (treeMember, .normal)] := by
    decide +kernel
  rw [h] at hmap
  simp only [Except.toOption, Option.map_some, Option.some.injEq, List.map_eq_cons_iff,
    List.map_eq_nil_iff, Prod.mk.injEq] at hmap
  obtain ⟨zone, _, rfl, hzone, region, _, rfl, hregion, node, _, rfl, hnode, host, _, rfl, hhost, hub, _,
    rfl, hhub, member, _, rfl, hmember, rfl⟩ := hmap
  exact ⟨zone, region, node, host, hub, member, rfl, hzone, hregion, hnode, hhost, hhub, hmember⟩

theorem selectors_follow_tree_zoneTree
    : ∃ nodelist entries, Nodelist.read zoneBase64 "fidonet" zoneTree = .ok nodelist ∧
        listing zoneBase64 "fidonet" zoneTree = .ok entries ∧
        ∀ config resolver publicKey,
          (∀ branch ∈ [(BranchKind.zone, zoneRoot), (.region, treeRegion), (.host, treeHost), (.hub, treeHub)],
            InBranch entries branch.1 branch.2 (nodeOf treeMember) ∧
              selectorMatches ⟨config, nodelist, resolver⟩ (.branch branch.1 branch.2)
                ⟨treeMember, publicKey⟩ = true) ∧
          (IsIndependent entries .region treeRegion (nodeOf treeNode) ∧
            selectorMatches ⟨config, nodelist, resolver⟩ (.independent .region treeRegion)
              ⟨treeNode, publicKey⟩ = true) := by
  obtain ⟨nodelist, hread⟩ := zoneTree_read
  obtain ⟨entries, hlisting, hlaw⟩ := selectors_follow_tree_iff zoneBase64 "fidonet" zoneTree nodelist hread
  refine ⟨nodelist, entries, hread, hlisting, ?_⟩
  intro config resolver publicKey
  obtain ⟨zone, region, node, host, hub, member, rfl, hzone, hregion, hnode, hhost, hhub, hmember⟩ :=
    zoneTree_listing hlisting
  have hmemberNode : nodeOf treeMember = treeMember := nodeOf_of_point rfl
  have hnodeNode : nodeOf treeNode = treeNode := nodeOf_of_point rfl
  refine ⟨?_, ?_⟩
  . rintro ⟨kind, root⟩ hbranch
    have hin : InBranch [zone, region, node, host, hub, member] kind root (nodeOf treeMember) := by
      refine ⟨[zone, region, node, host, hub], member, [], rfl, hmember.1.trans hmemberNode.symm, ?_⟩
      simp only [List.mem_cons, Prod.mk.injEq, List.not_mem_nil, or_false] at hbranch
      rcases hbranch with ⟨rfl, rfl⟩ | ⟨rfl, rfl⟩ | ⟨rfl, rfl⟩ | ⟨rfl, rfl⟩
      . refine ⟨[], zone, [region, node, host, hub, member], rfl, hzone.2, hzone.1, ?_⟩
        simp [BranchKind.closes, hregion.2, hnode.2, hhost.2, hhub.2, hmember.2]
      . refine ⟨[zone], region, [node, host, hub, member], rfl, hregion.2, hregion.1, ?_⟩
        simp [BranchKind.closes, hnode.2, hhost.2, hhub.2, hmember.2]
      . refine ⟨[zone, region, node], host, [hub, member], rfl, hhost.2, hhost.1, ?_⟩
        simp [BranchKind.closes, hhub.2, hmember.2]
      . refine ⟨[zone, region, node, host], hub, [member], rfl, hhub.2, hhub.1, ?_⟩
        simp [BranchKind.closes, hmember.2]
    exact ⟨hin, (((hlaw config resolver ⟨treeMember, publicKey⟩ root).1 kind).mpr (.inl rfl)).mpr hin⟩
  . have hindependent : IsIndependent [zone, region, node, host, hub, member] .region treeRegion
        (nodeOf treeNode) := by
      refine ⟨[zone, region], node, [host, hub, member], rfl, hnode.1.trans hnodeNode.symm,
        by rw [hnode.2]; rfl, ?_, ?_⟩
      . refine ⟨[zone], region, [node], rfl, hregion.2, hregion.1, ?_⟩
        simp [IndependentKind.branch, BranchKind.closes, hnode.2]
      . intro lower hlower other hopen
        have hkeyword : lower = .host ∨ lower = .hub := by
          simpa [IndependentKind.lower] using hlower
        obtain ⟨before, coordinator, inside, heq, hcoordinator, _⟩ := hopen
        have hmem : coordinator ∈ [zone, region] ++ [node] := by
          rw [heq]
          simp
        have hlow : coordinator.keyword = .zone ∨ coordinator.keyword = .region ∨
            coordinator.keyword = .normal := by
          simp only [List.cons_append, List.nil_append, List.mem_cons, List.not_mem_nil, or_false] at hmem
          rcases hmem with rfl | rfl | rfl
          . exact .inl hzone.2
          . exact .inr (.inl hregion.2)
          . exact .inr (.inr hnode.2)
        rcases hkeyword with rfl | rfl <;> simp [hcoordinator, BranchKind.keyword] at hlow
    refine ⟨hindependent, (((hlaw config resolver ⟨treeNode, publicKey⟩ treeRegion).2 .region).mpr
      ⟨.inl rfl, ?_⟩).mpr hindependent⟩
    rintro ⟨haddress, _⟩
    have hdifferent : treeNode ≠ treeRegion := by decide
    exact hdifferent haddress

theorem zoneAlone_listing {entries : List Entry} (h : listing zoneBase64 "fidonet" zoneAlone = .ok entries)
    : ∃ entry, entries = [entry] ∧ entry.address = zoneRoot ∧ entry.keyword = .zone := by
  have hmap : ((listing zoneBase64 "fidonet" zoneAlone).toOption.map fun entries =>
      entries.map fun entry => (entry.address, entry.keyword)) = some [(zoneRoot, .zone)] := by
    decide
  rw [h] at hmap
  simp only [Except.toOption, Option.map_some, Option.some.injEq, List.map_eq_singleton_iff,
    Prod.mk.injEq] at hmap
  exact hmap

/--
The coordinator counts as an independent node of its zone, and its point as outside of the zone.
-/
theorem selectors_leave_tree
    : ∃ nodelist entries, Nodelist.read zoneBase64 "fidonet" zoneAlone = .ok nodelist ∧
        listing zoneBase64 "fidonet" zoneAlone = .ok entries ∧
        ∀ config resolver publicKey,
          (selectorMatches ⟨config, nodelist, resolver⟩ (.independent .zone zoneRoot) ⟨zoneRoot, publicKey⟩ = true ∧
            ¬IsIndependent entries .zone zoneRoot (nodeOf zoneRoot)) ∧
          (selectorMatches ⟨config, nodelist, resolver⟩ (.branch .zone zoneRoot) ⟨zonePoint, publicKey⟩ = false ∧
            InBranch entries .zone zoneRoot (nodeOf zonePoint)) := by
  obtain ⟨nodelist, hread⟩ := zoneAlone_read
  obtain ⟨entries, hlisting, hlists⟩ := lists_of_read hread
  refine ⟨nodelist, entries, hread, hlisting, ?_⟩
  intro config resolver publicKey
  have hlists : Lists (⟨config, nodelist, resolver⟩ : Sources).nodelist entries := hlists
  obtain ⟨entry, rfl, haddress, hkeyword⟩ := zoneAlone_listing hlisting
  refine ⟨⟨?_, ?_⟩, ?_, ?_⟩
  . exact (hlists.independent .zone zoneRoot ⟨zoneRoot, publicKey⟩).mpr
      (.inr ⟨rfl, entry, by simp, haddress, hkeyword⟩)
  . rintro ⟨front, other, after, hsplit, _, hmember, _⟩
    obtain rfl : entry = other := by
      have hmem : other ∈ [entry] := by simp [hsplit]
      exact (List.mem_singleton.mp hmem).symm
    rw [hkeyword] at hmember
    cases hmember
  . rw [Bool.eq_false_iff]
    intro hmatches
    have hbranch := (hlists.branch .zone zoneRoot ⟨zonePoint, publicKey⟩).mp hmatches
    have hpoint : zonePoint.point ≠ 0 := by decide
    exact hpoint (hlists.placed.inBranch_point hbranch)
  . have hboss : nodeOf zonePoint = zoneRoot := by decide
    rw [hboss]
    exact ⟨[], entry, [], rfl, haddress, open_concat.mpr (.inl ⟨hkeyword, haddress⟩)⟩

end Router

end Tith
