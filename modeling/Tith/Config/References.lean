import Tith.Config.Closure
import Tith.Lib.Base64

/-!
This module contains the references between the parts of a configuration: which of them an accepted
configuration is sure to have, and that no configuration is refused for a reference or a cycle it does not
have.
-/

namespace Tith

namespace Config

/--
The names of peers that a configuration uses, place by place.
-/
inductive Refers (config : ConfigurationSet) : String → Prop where
  | routesIdentity {routes : Routes} {name : String} (hroutes : routes ∈ config.routes)
      (hname : routes.localRef = .peer name) : Refers config name
  | routeDestination {routes : Routes} {rule : RouteRule} {name : String} (hroutes : routes ∈ config.routes)
      (hrule : rule ∈ routes.routes) (hname : rule.destination = .peer name) : Refers config name
  | via {routes : Routes} {rule : RouteRule} {name : String} (hroutes : routes ∈ config.routes)
      (hrule : rule ∈ routes.routes) (hname : .via name ∈ rule.methods) : Refers config name
  | relayFrom {routes : Routes} {rule : RelayRule} {name : String} (hroutes : routes ∈ config.routes)
      (hrule : rule ∈ routes.relay) (hname : rule.fromPeer = .peer name) : Refers config name
  | relayOrigin {routes : Routes} {rule : RelayRule} {name : String} (hroutes : routes ∈ config.routes)
      (hrule : rule ∈ routes.relay) (hname : rule.origin = .peer name) : Refers config name
  | relayDestination {routes : Routes} {rule : RelayRule} {name : String} (hroutes : routes ∈ config.routes)
      (hrule : rule ∈ routes.relay) (hname : rule.destination = .peer name) : Refers config name
  | failureOrigin {routes : Routes} {rule : FailureRule} {name : String} (hroutes : routes ∈ config.routes)
      (hrule : rule ∈ routes.failures) (hname : rule.origin = .peer name) : Refers config name
  | failureDestination {routes : Routes} {rule : FailureRule} {name : String}
      (hroutes : routes ∈ config.routes) (hrule : rule ∈ routes.failures)
      (hname : rule.destination = .peer name) : Refers config name
  | areasIdentity {group : Areas} {name : String} (hgroup : group ∈ config.areas)
      (hname : group.localRef = .peer name) : Refers config name
  | receiveFrom {group : Areas} {area : Area} {name : String} (hgroup : group ∈ config.areas)
      (harea : area ∈ group.areas) (hname : name ∈ area.receiveFrom) : Refers config name
  | sendTo {group : Areas} {area : Area} {link : AreaLink} (hgroup : group ∈ config.areas)
      (harea : area ∈ group.areas) (hlink : link ∈ area.sendTo) : Refers config link.peer
  | scheduleOrigin {schedule : Schedule} {name : String} (hschedule : schedule ∈ config.schedules)
      (hname : schedule.origin = .peer name) : Refers config name
  | nextHop {schedule : Schedule} {name : String} (hschedule : schedule ∈ config.schedules)
      (hname : .peer name ∈ schedule.nextHops) : Refers config name
  | poll {schedule : Schedule} {name : String} (hschedule : schedule ∈ config.schedules)
      (hname : name ∈ schedule.polls) : Refers config name
  | boss {key : String} {peer : Peer} {name : String} (hpeer : config.peers[key]? = some peer)
      (hname : peer.boss = some name) : Refers config name
  | hub {key : String} {peer : Peer} {name : String} (hpeer : config.peers[key]? = some peer)
      (hname : peer.hub = some name) : Refers config name

def Relative (peers : Table String Peer) (a b : String) : Prop :=
  ∃ peer, peers[a]? = some peer ∧ (peer.boss = some b ∨ peer.hub = some b)

structure Closed (config : ConfigurationSet) : Prop where
  defined : ∀ name, Refers config name → config.peers[name]?.isSome
  areas : ∀ group ∈ config.areas, ∃ routes ∈ config.routes, routes.localRef = group.localRef
  schedules : ∀ schedule ∈ config.schedules, ∃ routes ∈ config.routes, routes.localRef = schedule.origin
  acyclic : ∀ name, ¬Relation.TransGen (Relative config.peers) name name

/--
Every peer that a failure line of the routes selects is one of the peers.
-/
def FailuresDefined (base64 : Nodelist.Base64) (texts : ConfigurationTexts) : Prop :=
  ∀ peers blocks, parsePeers base64 texts.peers = .ok peers → parseRoutes texts.routes = .ok blocks →
    ∀ routes ∈ blocks, ∀ rule ∈ routes.failures, ∀ name,
      rule.origin = .peer name ∨ rule.destination = .peer name → peers[name]?.isSome

/--
Everything in the configuration stands in one of the texts. A text that has not been read adds nothing.
-/
structure Written (base64 : Nodelist.Base64) (texts : ConfigurationTexts) (config : ConfigurationSet) : Prop where
  peers : peerBlocks base64 texts.peers = .ok config.peers
  routes : config.routes = [] ∨ parseRoutes texts.routes = .ok config.routes
  areas : config.areas = [] ∨ parseAreas texts.areas = .ok config.areas
  schedules : config.schedules = [] ∨ parseSchedules texts.schedules = .ok config.schedules

/-!
The relations between the peers.
-/

variable {base64 : Nodelist.Base64} {peers : Table String Peer}

theorem mem_relatives {peer : Peer} {name : String}
    : name ∈ peer.relatives ↔ peer.boss = some name ∨ peer.hub = some name := by
  simp [Peer.relatives]

theorem edge_iff {a b : String} : DepthFirst.Edge (relativesOf peers) a b ↔ Relative peers a b := by
  unfold DepthFirst.Edge relativesOf Relative
  simp only [Option.map_eq_some_iff]
  constructor
  . rintro ⟨_, ⟨peer, hpeer, rfl⟩, hb⟩
    exact ⟨peer, hpeer, mem_relatives.mp hb⟩
  . rintro ⟨peer, hpeer, hb⟩
    exact ⟨_, ⟨peer, hpeer, rfl⟩, mem_relatives.mpr hb⟩

theorem edge_eq : DepthFirst.Edge (relativesOf peers) = Relative peers := by
  funext a b
  exact propext edge_iff

theorem visitPeers_ok (h : visitPeers peers = .ok ()) (name : String)
    : ¬Relation.TransGen (Relative peers) name name := by
  unfold visitPeers at h
  split at h
  . next done hvisit =>
    intro hcycle
    have hacc := DepthFirst.visitAll_ok hvisit
    rw [edge_eq] at hacc
    -- A name on a cycle has a relative, so it is one of the peers.
    obtain ⟨next, ⟨peer, hpeer, -⟩, -⟩ := Relation.TransGen.head'_iff.mp hcycle
    have hmem : name ∈ peers.keys := Table.mem_keys.mpr (by rw [hpeer]; rfl)
    exact DepthFirst.not_cycle_of_acc (hacc name hmem) hcycle
  . cases h
  . cases h

theorem visitPeers_error {failure : ConfigFailure} (h : visitPeers peers = .error failure)
    (hdefined : ∀ a b, Relative peers a b → peers[b]?.isSome)
    : failure = .relationshipCycle ∧ ∃ name, Relation.TransGen (Relative peers) name name := by
  have hclosed : ∀ a ∈ peers.keys, ∃ successors, relativesOf peers a = some successors ∧
      ∀ b ∈ successors, b ∈ peers.keys := by
    intro a ha
    obtain ⟨peer, hpeer⟩ := Option.isSome_iff_exists.mp (Table.mem_keys.mp ha)
    refine ⟨peer.relatives, by rw [relativesOf, hpeer]; rfl, ?_⟩
    intro b hb
    exact Table.mem_keys.mpr (hdefined a b ⟨peer, hpeer, mem_relatives.mp hb⟩)
  unfold visitPeers at h
  split at h
  . cases h
  . next hvisit =>
    cases h
    rw [← edge_eq]
    exact ⟨rfl, DepthFirst.visitAll_cycle hvisit⟩
  . next e hne hvisit =>
    exact absurd (DepthFirst.visitAll_safe hclosed le_rfl hvisit) hne

/-!
The names that are used.
-/

theorem checkPeers_ok {file : String} {names : List String}
    : checkPeers peers file names = .ok () ↔ ∀ name ∈ names, peers[name]?.isSome := by
  unfold checkPeers
  rw [Except.forM_eq_ok]
  apply forall₂_congr
  intro name _
  unfold checkPeer
  split
  . next h => simp [h]
  . next h => simp [h]

theorem checkPeers_error {file : String} {names : List String} {failure : ConfigFailure}
    (h : checkPeers peers file names = .error failure)
    : ∃ name ∈ names, peers[name]? = none ∧ failure = .undefinedPeer file name := by
  obtain ⟨name, hname, h⟩ := Except.forM_error h
  unfold checkPeer at h
  split at h
  . cases h
  . next hnone =>
    cases h
    exact ⟨name, hname, by simpa using hnone, rfl⟩

theorem mem_selectorPeers {value : Selector} {name : String}
    : name ∈ selectorPeers value ↔ value = .peer name := by
  unfold selectorPeers
  split
  . simp [eq_comm]
  . next h => simpa using h name

theorem mem_identityPeers {reference : IdentityRef} {name : String}
    : name ∈ reference.peers ↔ reference = .peer name := by
  unfold IdentityRef.peers
  split
  . simp [eq_comm]
  . simp

theorem mem_viaPeers {methods : List RouteMethod} {name : String}
    : name ∈ viaPeers methods ↔ .via name ∈ methods := by
  unfold viaPeers
  rw [List.mem_filterMap]
  constructor
  . rintro ⟨method, hmem, h⟩
    split at h
    . injection h with h
      rwa [← h]
    . cases h
  . intro hmem
    exact ⟨_, hmem, rfl⟩

/-!
The peers.
-/

theorem relative_of_mem {peer : String × Peer} {name : String} (hpeer : peer ∈ peers.toList)
    (hname : name ∈ peer.2.relatives)
    : Relative peers peer.1 name :=
  ⟨peer.2, (Table.mem_toList peers peer.1 peer.2).mp hpeer, mem_relatives.mp hname⟩

theorem parsePeers_ok {input : String} (h : parsePeers base64 input = .ok peers)
    : peerBlocks base64 input = .ok peers ∧ (∀ a b, Relative peers a b → peers[b]?.isSome) ∧
        ∀ name, ¬Relation.TransGen (Relative peers) name name := by
  simp only [parsePeers, Except.bind_ok_iff, Except.mapError_eq_ok] at h
  obtain ⟨blocks, hblocks, _, hdefined, _, hvisit, h⟩ := h
  cases h
  refine ⟨hblocks, ?_, visitPeers_ok hvisit⟩
  rintro a b ⟨peer, hpeer, hname⟩
  have hcheck := Except.forM_eq_ok.mp hdefined (a, peer) ((Table.mem_toList peers a peer).mpr hpeer)
  exact checkPeers_ok.mp hcheck b (mem_relatives.mpr hname)

theorem parsePeers_error {input : String} {failure : ConfigFailure} (h : parsePeers base64 input = .error failure)
    : (∃ refused, failure = .syntaxError refused) ∨
        ∃ peers, peerBlocks base64 input = .ok peers ∧
          ((∃ a b, Relative peers a b ∧ peers[b]? = none ∧ failure = .undefinedPeer "peers" b) ∨
            (failure = .relationshipCycle ∧ ∃ name, Relation.TransGen (Relative peers) name name)) := by
  unfold parsePeers at h
  cases hblocks : peerBlocks base64 input with
  | error refused =>
    rw [hblocks] at h
    cases h
    exact .inl ⟨refused, rfl⟩
  | ok peers =>
    rw [hblocks] at h
    refine .inr ⟨peers, rfl, ?_⟩
    change (peers.toList.forM (fun p => checkPeers peers "peers" p.2.relatives) >>= fun _ =>
      visitPeers peers >>= fun _ => .ok peers) = .error failure at h
    cases hcheck : peers.toList.forM (fun p => checkPeers peers "peers" p.2.relatives) with
    | error e =>
      rw [hcheck] at h
      cases h
      obtain ⟨peer, hpeer, hnames⟩ := Except.forM_error hcheck
      obtain ⟨name, hname, hnone, rfl⟩ := checkPeers_error hnames
      exact .inl ⟨peer.1, name, relative_of_mem hpeer hname, hnone, rfl⟩
    | ok _ =>
      rw [hcheck] at h
      cases hvisit : visitPeers peers with
      | ok _ =>
        rw [Except.bind_of_ok, hvisit] at h
        cases h
      | error e =>
        rw [Except.bind_of_ok, hvisit] at h
        cases h
        right
        apply visitPeers_error hvisit
        rintro a b ⟨peer, hpeer, hname⟩
        have hcheck := Except.forM_eq_ok.mp hcheck (a, peer) ((Table.mem_toList peers a peer).mpr hpeer)
        exact checkPeers_ok.mp hcheck b (mem_relatives.mpr hname)

/-!
The other files.
-/

theorem checkRoutes_ok {routes : Routes}
    : checkRoutes peers routes = .ok () ↔
        (∀ name ∈ routes.localRef.peers, peers[name]?.isSome) ∧
          (∀ rule ∈ routes.routes, ∀ name ∈ rule.peers, peers[name]?.isSome) ∧
          ∀ rule ∈ routes.relay, ∀ name ∈ rule.peers, peers[name]?.isSome := by
  simp only [checkRoutes, Except.check_bind_ok, Except.forM_eq_ok, checkPeers_ok]

theorem checkAreas_ok {routeLocals : List IdentityRef} {group : Areas}
    : checkAreas peers routeLocals group = .ok () ↔
        (∀ name ∈ group.localRef.peers, peers[name]?.isSome) ∧ group.localRef ∈ routeLocals ∧
          ∀ area ∈ group.areas, ∀ name ∈ area.peers, peers[name]?.isSome := by
  unfold checkAreas
  split
  . next h =>
    rw [List.contains_iff_mem] at h
    simp only [Except.check_bind_ok, Except.forM_eq_ok, checkPeers_ok, h, true_and]
  . next h =>
    rw [List.contains_iff_mem] at h
    simp [h]

theorem checkSchedule_ok {routeLocals : List IdentityRef} {schedule : Schedule}
    : checkSchedule peers routeLocals schedule = .ok () ↔
        (∀ name ∈ schedule.origin.peers, peers[name]?.isSome) ∧ schedule.origin ∈ routeLocals ∧
          ∀ name ∈ schedule.peers, peers[name]?.isSome := by
  unfold checkSchedule
  split
  . next h =>
    rw [List.contains_iff_mem] at h
    simp only [Except.check_bind_ok, checkPeers_ok, h, true_and]
  . next h =>
    rw [List.contains_iff_mem] at h
    simp [h]

theorem parse_ok {texts : ConfigurationTexts} {config : ConfigurationSet}
    (h : ConfigurationSet.parse base64 texts = .ok config)
    : parsePeers base64 texts.peers = .ok config.peers ∧ parseRoutes texts.routes = .ok config.routes ∧
        (∀ routes ∈ config.routes, checkRoutes config.peers routes = .ok ()) ∧
        (∀ group ∈ config.areas,
          checkAreas config.peers (config.routes.map Routes.localRef) group = .ok ()) ∧
        ∀ schedule ∈ config.schedules,
          checkSchedule config.peers (config.routes.map Routes.localRef) schedule = .ok () := by
  simp only [ConfigurationSet.parse, Except.bind_ok_iff, Except.mapError_eq_ok] at h
  obtain ⟨peers, hpeers, routes, hroutes, areas, -, schedules, -, _, hcheck, _, hcheck', _, hcheck'', h⟩ := h
  cases h
  exact ⟨hpeers, hroutes, Except.forM_eq_ok.mp hcheck, Except.forM_eq_ok.mp hcheck',
    Except.forM_eq_ok.mp hcheck''⟩

theorem closed_iff {texts : ConfigurationTexts} {config : ConfigurationSet}
    (h : ConfigurationSet.parse base64 texts = .ok config)
    : Closed config ↔ FailuresDefined base64 texts := by
  obtain ⟨hpeers, hblocks, hroutes, hareas, hschedules⟩ := parse_ok h
  obtain ⟨-, hrelatives, hacyclic⟩ := parsePeers_ok hpeers
  constructor
  . intro hclosed peers blocks hpeers' hblocks' routes hmem rule hrule name hname
    rw [hpeers] at hpeers'
    rw [hblocks] at hblocks'
    cases hpeers'
    cases hblocks'
    rcases hname with hname | hname
    . exact hclosed.defined name (.failureOrigin hmem hrule hname)
    . exact hclosed.defined name (.failureDestination hmem hrule hname)
  . intro hfailures
    have hfailures := hfailures config.peers config.routes hpeers hblocks
    constructor
    case defined =>
      intro name hrefers
      cases hrefers with
      | routesIdentity hmem hname => exact (checkRoutes_ok.mp (hroutes _ hmem)).1 name (mem_identityPeers.mpr hname)
      | routeDestination hmem hrule hname =>
        apply (checkRoutes_ok.mp (hroutes _ hmem)).2.1 _ hrule name
        exact List.mem_append_left _ (mem_selectorPeers.mpr hname)
      | via hmem hrule hname =>
        apply (checkRoutes_ok.mp (hroutes _ hmem)).2.1 _ hrule name
        exact List.mem_append_right _ (mem_viaPeers.mpr hname)
      | relayFrom hmem hrule hname =>
        apply (checkRoutes_ok.mp (hroutes _ hmem)).2.2 _ hrule name
        simp [RelayRule.peers, mem_selectorPeers, hname]
      | relayOrigin hmem hrule hname =>
        apply (checkRoutes_ok.mp (hroutes _ hmem)).2.2 _ hrule name
        simp [RelayRule.peers, mem_selectorPeers, hname]
      | relayDestination hmem hrule hname =>
        apply (checkRoutes_ok.mp (hroutes _ hmem)).2.2 _ hrule name
        simp [RelayRule.peers, mem_selectorPeers, hname]
      | failureOrigin hmem hrule hname => exact hfailures _ hmem _ hrule name (.inl hname)
      | failureDestination hmem hrule hname => exact hfailures _ hmem _ hrule name (.inr hname)
      | areasIdentity hmem hname => exact (checkAreas_ok.mp (hareas _ hmem)).1 name (mem_identityPeers.mpr hname)
      | receiveFrom hmem harea hname =>
        apply (checkAreas_ok.mp (hareas _ hmem)).2.2 _ harea name
        exact List.mem_append_left _ hname
      | sendTo hmem harea hlink =>
        apply (checkAreas_ok.mp (hareas _ hmem)).2.2 _ harea _
        exact List.mem_append_right _ (List.mem_map_of_mem hlink)
      | scheduleOrigin hmem hname =>
        exact (checkSchedule_ok.mp (hschedules _ hmem)).1 name (mem_identityPeers.mpr hname)
      | nextHop hmem hname =>
        apply (checkSchedule_ok.mp (hschedules _ hmem)).2.2 name
        exact List.mem_append_right _ (List.mem_flatMap.mpr ⟨_, hname, mem_selectorPeers.mpr rfl⟩)
      | poll hmem hname =>
        apply (checkSchedule_ok.mp (hschedules _ hmem)).2.2 name
        exact List.mem_append_left _ hname
      | boss hpeer hname => exact hrelatives _ name ⟨_, hpeer, .inl hname⟩
      | hub hpeer hname => exact hrelatives _ name ⟨_, hpeer, .inr hname⟩
    case areas =>
      intro group hgroup
      exact List.mem_map.mp (checkAreas_ok.mp (hareas group hgroup)).2.1
    case schedules =>
      intro schedule hschedule
      exact List.mem_map.mp (checkSchedule_ok.mp (hschedules schedule hschedule)).2.1
    case acyclic => exact hacyclic

/-!
Refusals.
-/

/--
A check fails for a name that is used and that no peer has, or for another reason.
-/
def Undefined (config : ConfigurationSet) (failure : ConfigFailure) : Prop :=
  ∀ file name, failure = .undefinedPeer file name → Refers config name ∧ config.peers[name]? = none

theorem undefined_of_checkPeers {config : ConfigurationSet} {file : String} {names : List String}
    {failure : ConfigFailure} (h : checkPeers config.peers file names = .error failure)
    (hnames : ∀ name ∈ names, Refers config name)
    : Undefined config failure ∧ failure ≠ .relationshipCycle := by
  obtain ⟨name, hname, hnone, rfl⟩ := checkPeers_error h
  refine ⟨?_, nofun⟩
  intro file' name' heq
  cases heq
  exact ⟨hnames name hname, hnone⟩

theorem undefined_of_checkRoutes {config : ConfigurationSet} {routes : Routes} {failure : ConfigFailure}
    (hroutes : routes ∈ config.routes) (h : checkRoutes config.peers routes = .error failure)
    : Undefined config failure ∧ failure ≠ .relationshipCycle := by
  simp only [checkRoutes, Except.bind_error_iff] at h
  rcases h with h | ⟨_, -, h | ⟨_, -, h⟩⟩
  . exact undefined_of_checkPeers h
      (fun name hname => .routesIdentity hroutes (mem_identityPeers.mp hname))
  . obtain ⟨rule, hrule, h⟩ := Except.forM_error h
    apply undefined_of_checkPeers h
    intro name hname
    rcases List.mem_append.mp hname with hname | hname
    . exact .routeDestination hroutes hrule (mem_selectorPeers.mp hname)
    . exact .via hroutes hrule (mem_viaPeers.mp hname)
  . obtain ⟨rule, hrule, h⟩ := Except.forM_error h
    apply undefined_of_checkPeers h
    intro name hname
    simp only [RelayRule.peers, List.mem_append, mem_selectorPeers] at hname
    rcases hname with (hname | hname) | hname
    . exact .relayFrom hroutes hrule hname
    . exact .relayOrigin hroutes hrule hname
    . exact .relayDestination hroutes hrule hname

theorem undefined_of_checkAreas {config : ConfigurationSet} {group : Areas} {failure : ConfigFailure}
    {routeLocals : List IdentityRef} (hgroup : group ∈ config.areas)
    (h : checkAreas config.peers routeLocals group = .error failure)
    : Undefined config failure ∧ failure ≠ .relationshipCycle := by
  simp only [checkAreas, Except.bind_error_iff] at h
  rcases h with h | ⟨_, -, h⟩
  . exact undefined_of_checkPeers h
      (fun name hname => .areasIdentity hgroup (mem_identityPeers.mp hname))
  . split at h
    . obtain ⟨area, harea, h⟩ := Except.forM_error h
      apply undefined_of_checkPeers h
      intro name hname
      rcases List.mem_append.mp hname with hname | hname
      . exact .receiveFrom hgroup harea hname
      . obtain ⟨link, hlink, rfl⟩ := List.mem_map.mp hname
        exact .sendTo hgroup harea hlink
    . cases h
      exact ⟨nofun, nofun⟩

theorem undefined_of_checkSchedule {config : ConfigurationSet} {schedule : Schedule}
    {failure : ConfigFailure} {routeLocals : List IdentityRef} (hschedule : schedule ∈ config.schedules)
    (h : checkSchedule config.peers routeLocals schedule = .error failure)
    : Undefined config failure ∧ failure ≠ .relationshipCycle := by
  simp only [checkSchedule, Except.bind_error_iff] at h
  rcases h with h | ⟨_, -, h⟩
  . exact undefined_of_checkPeers h
      (fun name hname => .scheduleOrigin hschedule (mem_identityPeers.mp hname))
  . split at h
    . apply undefined_of_checkPeers h
      intro name hname
      rcases List.mem_append.mp hname with hname | hname
      . exact .poll hschedule hname
      . obtain ⟨value, hvalue, hname⟩ := List.mem_flatMap.mp hname
        rw [mem_selectorPeers.mp hname] at hvalue
        exact .nextHop hschedule hvalue
    . cases h
      exact ⟨nofun, nofun⟩

theorem parse_error {texts : ConfigurationTexts} {failure : ConfigFailure}
    (h : ConfigurationSet.parse base64 texts = .error failure)
    : (∀ file name, failure = .undefinedPeer file name →
          ∃ config, Written base64 texts config ∧ Refers config name ∧ config.peers[name]? = none) ∧
        (failure = .relationshipCycle →
          ∃ peers, peerBlocks base64 texts.peers = .ok peers ∧
            ∃ name, Relation.TransGen (Relative peers) name name) := by
  simp only [ConfigurationSet.parse, Except.bind_error_iff] at h
  rcases h with h | ⟨peers, hpeers, h⟩
  . rcases parsePeers_error h with ⟨refused, rfl⟩ | ⟨peers, hblocks, ⟨a, b, hrelative, hnone, rfl⟩ | ⟨rfl, hcycle⟩⟩
    . exact ⟨nofun, nofun⟩
    . refine ⟨?_, nofun⟩
      intro file name heq
      cases heq
      refine ⟨⟨peers, [], [], []⟩, ⟨hblocks, .inl rfl, .inl rfl, .inl rfl⟩, ?_, hnone⟩
      obtain ⟨peer, hpeer, hname | hname⟩ := hrelative
      . exact .boss hpeer hname
      . exact .hub hpeer hname
    . exact ⟨nofun, fun _ => ⟨peers, hblocks, hcycle⟩⟩
  . rcases h with h | ⟨routes, hroutes, h⟩
    . obtain ⟨refused, -, rfl⟩ := Except.mapError_eq_error.mp h
      exact ⟨nofun, nofun⟩
    rcases h with h | ⟨areas, hareas, h⟩
    . obtain ⟨refused, -, rfl⟩ := Except.mapError_eq_error.mp h
      exact ⟨nofun, nofun⟩
    rcases h with h | ⟨schedules, hschedules, h⟩
    . obtain ⟨refused, -, rfl⟩ := Except.mapError_eq_error.mp h
      exact ⟨nofun, nofun⟩
    rw [Except.mapError_eq_ok] at hroutes hareas hschedules
    have hwritten : Written base64 texts ⟨peers, routes, areas, schedules⟩ :=
      ⟨(parsePeers_ok hpeers).1, .inr hroutes, .inr hareas, .inr hschedules⟩
    -- Everything has been read: one of the three loops of checks fails.
    have hchecks : Undefined ⟨peers, routes, areas, schedules⟩ failure ∧ failure ≠ .relationshipCycle := by
      rcases h with h | ⟨_, -, h | ⟨_, -, h | ⟨_, -, h⟩⟩⟩
      . obtain ⟨block, hblock, h⟩ := Except.forM_error h
        exact undefined_of_checkRoutes hblock h
      . obtain ⟨group, hgroup, h⟩ := Except.forM_error h
        exact undefined_of_checkAreas hgroup h
      . obtain ⟨schedule, hschedule, h⟩ := Except.forM_error h
        exact undefined_of_checkSchedule hschedule h
      . cases h
    refine ⟨?_, fun hcycle => absurd hcycle hchecks.2⟩
    intro file name heq
    obtain ⟨hrefers, hnone⟩ := hchecks.1 file name heq
    exact ⟨_, hwritten, hrefers, hnone⟩

/--
An accepted configuration has closed references exactly if the peers that its failure lines select are
defined. A configuration that is refused for an undefined peer refers to it, and one that is refused for a
cycle has one.
-/
theorem configuration_references (base64 : Nodelist.Base64) (texts : ConfigurationTexts)
    : (∀ config, ConfigurationSet.parse base64 texts = .ok config → (Closed config ↔ FailuresDefined base64 texts)) ∧
        (∀ file name, ConfigurationSet.parse base64 texts = .error (.undefinedPeer file name) →
          ∃ config, Written base64 texts config ∧ Refers config name ∧ config.peers[name]? = none) ∧
        (ConfigurationSet.parse base64 texts = .error .relationshipCycle →
          ∃ peers, peerBlocks base64 texts.peers = .ok peers ∧
            ∃ name, Relation.TransGen (Relative peers) name name) := by
  refine ⟨fun config h => closed_iff h, ?_, ?_⟩
  . intro file name h
    exact (parse_error h).1 file name rfl
  . intro h
    exact (parse_error h).2 rfl

/--
A configuration with a failure line for a peer that does not exist.
-/
def undefinedFailure : ConfigurationTexts :=
  { peers := ""
    routes := "Routes fidonet#1\nFailure Any Origin Peer @missing Destination All Discard Notify None\nEnd\n"
    areas := ""
    schedules := "" }

def undefinedRoutes : Routes :=
  { localRef := .address ⟨"fidonet", 1, 1, 0, 0, by decide⟩
    routes := []
    relay := []
    failures := [⟨.any, .peer "missing", .all, ⟨.discard, .none⟩⟩]
    failureDefault := ⟨.deadLetter, .none⟩ }

/--
It is accepted, and refers to the peer.
-/
theorem configuration_references_undefined
    : ∃ config, ConfigurationSet.parse ⟨Rfc4648.encode, Rfc4648.decode⟩ undefinedFailure = .ok config ∧
        Refers config "missing" ∧ config.peers["missing"]? = none := by
  have hpeers : parsePeers ⟨Rfc4648.encode, Rfc4648.decode⟩ undefinedFailure.peers = .ok ∅ := rfl
  have hroutes : parseRoutes undefinedFailure.routes = .ok [undefinedRoutes] := by decide
  have hareas : parseAreas undefinedFailure.areas = .ok [] := by decide
  have hschedules : parseSchedules undefinedFailure.schedules = .ok [] := by decide
  refine ⟨⟨∅, [undefinedRoutes], [], []⟩, ?_, ?_, rfl⟩
  . unfold ConfigurationSet.parse
    rw [hpeers, hroutes, hareas, hschedules]
    rfl
  . exact .failureOrigin (List.mem_singleton_self _) (List.mem_singleton_self _) rfl

end Config

end Tith
