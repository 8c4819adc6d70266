import Tith.Submission.Forward
import Tith.Wire.Lemmas.Codec
import Tith.Wire.Renumber

/-!
This module contains the proofs about the distribution of an item: which links of an area get a copy, and that no
system is given the item twice along the way it takes.
-/

namespace Tith

namespace Submission

open Config Router

def SubmissionEngine.receiver (engine : SubmissionEngine) (record : InboundRecord) : Option LocalSigner :=
  (engine.signers.toList.map Prod.snd).find? (fun signer => signer.reference.display = record.localIdentity)

/--
What a forward job was built from.
-/
structure Built (c : Crypto) (engine : SubmissionEngine) (inbound : ForwardInbound) (resolved : Resolved)
    (requestIdentifier created : UInt64) (job : ForwardJob) where
  signer : LocalSigner
  root : OwnedTlv
  validated : ValidatedItem
  children : List OwnedTlv
  seenBy : List Address
  copies : List NewDelivery
  seen : List Address
  fileArea : Bool
  authentic : isAuthentic inbound.record.authentication = true
  isSigner : engine.receiver inbound.record = some signer
  isRoot : parseSequence inbound.payload = .ok [root]
  isValid : validateItem c root engine.nodelist.publicKey = .ok (some validated)
  kind : forwardKind validated.kind = .ok (job.kind, fileArea)
  area : validated.area = some job.area
  isChildren : parseSequence root.value = .ok children
  isSeenBy : seenAddresses children = .ok seenBy
  isCopies : engine.areaDeliveries signer.reference signer.identity job.area fileArea resolved = .ok copies
  deliveries : job.deliveries = copies.filter (fun copy => !isSuppressed inbound.record seenBy copy)
  isSeen : seenBehind signer inbound.record seenBy job.deliveries = .ok seen
  isItem : forwardItem root signer.identity requestIdentifier created software seen = .ok job.item

theorem describe_eq_ok {x : Except BundleError α} {a : α} : describe x = .ok a ↔ x = .ok a := Except.mapError_eq_ok

theorem parseValues_eq_ok {bytes : List UInt8} {values : List OwnedTlv}
    : parseValues bytes = .ok values ↔ parseSequence bytes = .ok values := Except.mapError_eq_ok

theorem inboundRoot_eq_ok {payload : List UInt8} {root : OwnedTlv}
    : inboundRoot payload = .ok root ↔ parseSequence payload = .ok [root] := by
  unfold inboundRoot
  rw [Except.bind_ok_iff]
  constructor
  . rintro ⟨values, hvalues, h⟩
    rw [parseValues_eq_ok] at hvalues
    split at h
    . cases h
      exact hvalues
    . cases h
  . intro h
    exact ⟨[root], parseValues_eq_ok.mpr h, rfl⟩

theorem buildForwardJob_ok {c : Crypto} {engine : SubmissionEngine} {inbound : ForwardInbound} {resolved : Resolved}
    {requestIdentifier created : UInt64} {job : ForwardJob}
    (h : buildForwardJob c engine inbound resolved requestIdentifier created = .ok job)
    : Nonempty (Built c engine inbound resolved requestIdentifier created job) := by
  unfold buildForwardJob at h
  split at h
  . cases h
  . next hauthentic =>
    simp only [Except.bind_ok_iff, Option.okOr_eq_ok, describe_eq_ok, inboundRoot_eq_ok, parseValues_eq_ok,
      Prod.exists] at h
    obtain ⟨signer, hsigner, root, hroot, _, hvalid, validated, rfl, kind, fileArea, hkind, area, harea, children,
      hchildren, seenBy, hseenBy, copies, hcopies, seen, hseen, item, hitem, rebuilt, _, h⟩ := h
    split at h
    . cases h
    . cases h
      exact ⟨{
        signer, root, validated, children, seenBy, copies, seen, fileArea
        authentic := by simpa using hauthentic
        isSigner := hsigner
        isRoot := hroot
        isValid := hvalid
        kind := hkind
        area := harea
        isChildren := hchildren
        isSeenBy := hseenBy
        isCopies := hcopies
        deliveries := rfl
        isSeen := hseen
        isItem := hitem }⟩

/-!
What is read from the item that is sent on.
-/

theorem mem_seenAddresses {children : List OwnedTlv} {seenBy addresses : List Address} {value : OwnedTlv}
    (h : seenAddresses children = .ok seenBy) (hmem : value ∈ children) (htype : value.typeCode = Types.seenBy)
    (hvalue : seenByAddresses value = .ok addresses)
    : ∀ address ∈ addresses, address ∈ seenBy := by
  intro address haddress
  simp only [seenAddresses, Except.bind_ok_iff, Except.ok.injEq] at h
  obtain ⟨collections, hcollections, rfl⟩ := h
  obtain ⟨addresses', hmem', hread⟩ := List.forall₂_mem_left (Except.mapM_forall₂ hcollections)
    (List.mem_filter.mpr ⟨hmem, by simpa using htype⟩)
  rw [hvalue, Except.ok.injEq] at hread
  subst hread
  exact List.mem_flatten.mpr ⟨addresses, hmem', haddress⟩

theorem assigned_defined {typeCode : UInt64} {value : List UInt8} {tlv : OwnedTlv}
    (h : assigned typeCode value = .ok tlv)
    : tlv.typeCode ≠ 0 := by
  rw [assigned, Except.mapError_eq_ok] at h
  unfold OwnedTlv.new at h
  split at h
  . split at h
    . cases h
    . next hdefined =>
      cases h
      exact requireDefinedType_eq_ok.mp hdefined
  . cases h

/--
The values for the addresses that have seen an item, however many the kind of the item has.
-/
def SeenValues (addresses : List Address) (values : List OwnedTlv) : Prop :=
  seenByValue addresses = .ok values ∨ seenByValues addresses = .ok values

theorem SeenValues.defined {addresses : List Address} {values : List OwnedTlv} (h : SeenValues addresses values)
    : ∀ value ∈ values, value.typeCode = Types.seenBy := by
  intro value hvalue
  rcases h with h | h
  . rcases seenByValue_ok h with ⟨_, rfl⟩ | ⟨tlv, rfl, htype, _⟩
    . cases hvalue
    . rw [List.mem_singleton.mp hvalue, htype]
  . obtain ⟨address, _, hassigned⟩ := Except.mapM_mem h hvalue
    exact (assigned_ok hassigned).1

theorem SeenValues.readable {addresses : List Address} {values : List OwnedTlv} (h : SeenValues addresses values)
    (hplain : ∀ address ∈ addresses, PlainDomain address.domain)
    : ∀ address ∈ addresses, ∃ value ∈ values, ∃ read, seenByAddresses value = .ok read ∧ address ∈ read := by
  intro address haddress
  rcases h with h | h
  . rcases seenByValue_ok h with ⟨rfl, _⟩ | ⟨tlv, rfl, _, hvalue⟩
    . cases haddress
    . refine ⟨tlv, by simp, sortedSet addresses, (seenByAddresses_collection hvalue).mpr hplain, ?_⟩
      exact mem_sortedSet.mpr haddress
  . obtain ⟨value, hmem, hassigned⟩ := List.forall₂_mem_left (Except.mapM_forall₂ h) haddress
    refine ⟨value, hmem, [address], ?_, by simp⟩
    exact (seenByAddresses_display (assigned_ok hassigned).2).mpr (hplain address haddress)

theorem SeenValues.type_ne_zero {addresses : List Address} {values : List OwnedTlv} (h : SeenValues addresses values)
    : ∀ value ∈ values, value.typeCode ≠ 0 := by
  intro value hvalue
  rw [h.defined value hvalue]
  decide

/--
What an item that is sent on consists of.
-/
structure Forwarded (item forwarded : OwnedTlv) (identity : Identity) (timestamp : UInt64) (software : String)
    (seen : List Address) where
  children : List OwnedTlv
  signature : Nat
  request : OwnedTlv
  via : OwnedTlv
  values : List OwnedTlv
  isChildren : parseSequence item.value = .ok children
  isSignature : children.findIdx? (·.typeCode = Types.signature) = some signature
  isRequest : request.typeCode = Types.requestIdentifier
  isVia : viaValue identity timestamp software = .ok via
  isSeen : SeenValues seen values
  isDefined : forwarded.typeCode ≠ 0
  isForwarded : parseSequence forwarded.value = .ok (
    children.take (signature + 1) ++ request :: (children.drop (signature + 1)).filter isRetained ++
      via :: values ++ (children.drop (signature + 1)).filter (·.typeCode = Types.additionalKludgeLine))

theorem forwardItem_ok {item forwarded : OwnedTlv} {identity : Identity}
    {requestIdentifier timestamp : UInt64} {software : String} {seen : List Address}
    (h : forwardItem item identity requestIdentifier timestamp software seen = .ok forwarded)
    : Nonempty (Forwarded item forwarded identity timestamp software seen) := by
  unfold forwardItem at h
  split at h
  . cases h
  . simp only [Except.bind_ok_iff, Option.okOr_eq_ok] at h
    obtain ⟨children, hchildren, signature, hsignature, request, hrequest, via, hvia, h⟩ := h
    rw [parseChildren, Except.mapError_eq_ok] at hchildren
    have hvalues : ∃ values, SeenValues seen values ∧
        assigned item.typeCode (concatenate (
          children.take (signature + 1) ++ request :: (children.drop (signature + 1)).filter isRetained ++
            via :: values ++
            (children.drop (signature + 1)).filter (·.typeCode = Types.additionalKludgeLine))) = .ok forwarded := by
      split at h
      . rw [Except.bind_ok_iff] at h
        obtain ⟨values, hvalues, hitem⟩ := h
        exact ⟨values, .inl hvalues, hitem⟩
      . rw [Except.bind_ok_iff] at h
        obtain ⟨values, hvalues, hitem⟩ := h
        exact ⟨values, .inr hvalues, hitem⟩
    obtain ⟨values, hvalues, hitem⟩ := hvalues
    refine ⟨{
      children, signature, request, via, values
      isChildren := hchildren
      isSignature := hsignature
      isRequest := (assigned_ok hrequest).1
      isVia := hvia
      isSeen := hvalues
      isDefined := assigned_defined hitem
      isForwarded := ?_ }⟩
    rw [parseSequence_eq_ok, (assigned_ok hitem).2]
    refine ⟨rfl, ?_⟩
    rw [parseSequence_eq_ok] at hchildren
    have hviaDefined : via.typeCode ≠ 0 := by
      rw [(viaValue_ok hvia).1]
      decide
    intro value hvalue
    simp only [List.mem_append, List.mem_cons, List.mem_filter] at hvalue
    rcases hvalue with ((hvalue | rfl | hvalue) | rfl | hvalue) | hvalue
    . exact hchildren.2 value (List.mem_of_mem_take hvalue)
    . exact assigned_defined hrequest
    . exact hchildren.2 value (List.mem_of_mem_drop hvalue.1)
    . exact hviaDefined
    . exact hvalues.type_ne_zero value hvalue
    . exact hchildren.2 value (List.mem_of_mem_drop hvalue.1)

theorem forwardItem_seen {item forwarded : OwnedTlv} {identity : Identity} {requestIdentifier timestamp : UInt64}
    {software : String} {seen : List Address} {children : List OwnedTlv} {seenBy : List Address}
    (h : forwardItem item identity requestIdentifier timestamp software seen = .ok forwarded)
    (hplain : ∀ address ∈ seen, PlainDomain address.domain) (hchildren : parseSequence forwarded.value = .ok children)
    (hseenBy : seenAddresses children = .ok seenBy)
    : ∀ address ∈ seen, address ∈ seenBy := by
  -- Who reads the item that is sent on finds all the addresses that were given.
  intro address haddress
  obtain ⟨f⟩ := forwardItem_ok h
  obtain ⟨value, hmem, read, hread, hin⟩ := f.isSeen.readable hplain address haddress
  have hvalue : value ∈ children := by
    have hparse := f.isForwarded
    rw [hchildren, Except.ok.injEq] at hparse
    rw [hparse]
    simp [hmem]
  exact mem_seenAddresses hseenBy hvalue (f.isSeen.defined value hmem) hread address hin

/-!
The fan-out.
-/

section Fanout

variable {c : Crypto} {engine : SubmissionEngine} {inbound : ForwardInbound} {resolved : Resolved}
  {requestIdentifier created : UInt64} {job : ForwardJob} {record : InboundRecord} {seenBy : List Address}

/--
A copy that goes back to the identity the item came from. Only the copy for an anonymous identity has a key.
-/
def ComesFrom (record : InboundRecord) (copy : NewDelivery) : Prop :=
  copy.nextHop = record.peer ∧ ∀ key ∈ copy.nextHopKey, key = record.peerKey

instance (record : InboundRecord) (copy : NewDelivery) : Decidable (ComesFrom record copy) :=
  inferInstanceAs (Decidable (_ ∧ _))

/--
A copy for an address that the item names as having seen it.
-/
def IsListed (seenBy : List Address) (copy : NewDelivery) : Prop :=
  ∃ address ∈ seenBy, copy.nextHop = address.display

instance (seenBy : List Address) (copy : NewDelivery) : Decidable (IsListed seenBy copy) :=
  inferInstanceAs (Decidable (∃ address ∈ seenBy, _))

/--
A copy that the area owes: it goes neither back nor to a known system that has seen the item. A listed address
says nothing about an anonymous system.
-/
def IsOwed (record : InboundRecord) (seenBy : List Address) (copy : NewDelivery) : Prop :=
  ¬ComesFrom record copy ∧ ¬(copy.nextHopKey = none ∧ IsListed seenBy copy)

instance (record : InboundRecord) (seenBy : List Address) (copy : NewDelivery)
    : Decidable (IsOwed record seenBy copy) :=
  inferInstanceAs (Decidable (_ ∧ _))

/--
An anonymous copy that is taken for one of another system, because the two have the same address.
-/
def IsMistaken (record : InboundRecord) (seenBy : List Address) (copy : NewDelivery) : Prop :=
  copy.nextHopKey ≠ none ∧ ¬ComesFrom record copy ∧ (copy.nextHop = record.peer ∨ IsListed seenBy copy)

/--
A copy for the identity of a peer.
-/
structure Addressed (copy : NewDelivery) (identity : Identity) : Prop where
  nextHop : copy.nextHop = identity.address.display
  nextHopKey : copy.nextHopKey = identity.embeddedKey

def IsCopyFor (engine : SubmissionEngine) (resolved : Resolved) (link : AreaLink) (copy : NewDelivery) : Prop :=
  ∃ identity, engine.resolvePeer link.peer resolved = .ok identity ∧ Addressed copy identity

theorem resolveIdentityWith_at (engine : SubmissionEngine) (resolved : Resolved) (name : String)
    : engine.resolveIdentityWith ("@" ++ name) resolved = engine.resolvePeer name resolved := by
  have htext : ("@" ++ name).toList = '@' :: name.toList := by simp
  rw [SubmissionEngine.resolveIdentityWith, htext]
  simp only [String.ofList_toList]

theorem areaDelivery_isCopyFor {localRef : IdentityRef} {localIdentity : Identity} {routes : Routes}
    {link : AreaLink} {copy : NewDelivery}
    (h : engine.areaDelivery localRef localIdentity routes resolved link = .ok copy)
    : IsCopyFor engine resolved link copy := by
  simp only [SubmissionEngine.areaDelivery, Except.bind_ok_iff, Except.ok.injEq, resolveIdentityWith_at] at h
  obtain ⟨peer, _, identity, hidentity, rfl⟩ := h
  exact ⟨identity, hidentity, rfl, rfl⟩

/--
An area is one of those of the identity that an item is sent on for.
-/
structure IsAreaOf (engine : SubmissionEngine) (localRef : IdentityRef) (name : String) (fileArea : Bool)
    (area : Area) : Prop where
  isIn : ∃ areas ∈ engine.configuration.areas, areas.localRef = localRef ∧ area ∈ areas.areas
  name : area.name = name
  fileArea : area.fileArea = fileArea

theorem areaDeliveries_ok {localRef : IdentityRef} {localIdentity : Identity} {areaName : String}
    {fileArea : Bool} {copies : List NewDelivery}
    (h : engine.areaDeliveries localRef localIdentity areaName fileArea resolved = .ok copies)
    : ∃ area, IsAreaOf engine localRef areaName fileArea area ∧
        List.Forall₂ (IsCopyFor engine resolved) area.sendTo copies := by
  simp only [SubmissionEngine.areaDeliveries, Except.bind_ok_iff, Option.okOr_eq_ok] at h
  obtain ⟨areas, hareas, area, harea, h⟩ := h
  split at h
  . cases h
  . simp only [Except.bind_ok_iff] at h
    obtain ⟨routes, _, h⟩ := h
    refine ⟨area, ?_, (Except.mapM_forall₂ h).imp (fun _ _ => areaDelivery_isCopyFor)⟩
    have hlocal := List.find?_some hareas
    have hname := List.find?_some harea
    simp only [decide_eq_true_eq] at hlocal hname
    exact {
      isIn := ⟨areas, List.mem_of_find?_eq_some hareas, hlocal, List.mem_of_find?_eq_some harea⟩
      name := hname.2
      fileArea := hname.1 }

theorem isSuppressed_iff (record : InboundRecord) (seenBy : List Address) {copy : NewDelivery} {identity : Identity}
    (h : Addressed copy identity)
    : isSuppressed record seenBy copy = true ↔ copy.nextHop = record.peer ∨ IsListed seenBy copy := by
  have hlisted : IsListed seenBy copy ↔ identity.address ∈ seenBy := by
    unfold IsListed
    rw [h.nextHop]
    constructor
    . rintro ⟨address, haddress, hdisplay⟩
      rwa [Address.display_inj hdisplay]
    . intro haddress
      exact ⟨identity.address, haddress, rfl⟩
  rw [hlisted, isSuppressed, h.nextHop, Address.fromStr_display]
  simp

theorem kept_iff_owed {copy : NewDelivery} {identity : Identity} (h : Addressed copy identity)
    : ((!isSuppressed record seenBy copy) = true ↔ IsOwed record seenBy copy) ↔ ¬IsMistaken record seenBy copy := by
  have hsuppressed := isSuppressed_iff record seenBy h
  have hback : ComesFrom record copy → copy.nextHop = record.peer := And.left
  have hknown : copy.nextHopKey = none → copy.nextHop = record.peer → ComesFrom record copy := by
    intro hkey hpeer
    refine ⟨hpeer, ?_⟩
    rw [hkey]
    simp
  rw [Bool.not_eq_true', ← Bool.not_eq_true, hsuppressed]
  unfold IsOwed IsMistaken
  tauto

theorem filter_eq_filter_iff {p q : α → Bool} {l : List α}
    : l.filter p = l.filter q ↔ ∀ a ∈ l, (p a = true ↔ q a = true) := by
  constructor
  . intro h a ha
    have hmem : a ∈ l.filter p ↔ a ∈ l.filter q := by rw [h]
    simpa [ha] using hmem
  . intro h
    exact List.filter_congr (fun a ha => Bool.eq_iff_iff.mpr (h a ha))

/--
A forwarded item gets one copy for each link of its area, less those that go back or where the item has been. The
copies that are left are exactly those that the area owes if and only if no anonymous link has the address of
another system.
-/
theorem fanout_exact {c : Crypto} {engine : SubmissionEngine} {inbound : ForwardInbound} {resolved : Resolved}
    {requestIdentifier created : UInt64} {job : ForwardJob}
    (h : buildForwardJob c engine inbound resolved requestIdentifier created = .ok job)
    : ∃ (b : Built c engine inbound resolved requestIdentifier created job) (area : Area),
        IsAreaOf engine b.signer.reference job.area b.fileArea area ∧
        List.Forall₂ (IsCopyFor engine resolved) area.sendTo b.copies ∧
        (job.deliveries = b.copies.filter (IsOwed inbound.record b.seenBy) ↔
          ∀ copy ∈ b.copies, ¬IsMistaken inbound.record b.seenBy copy) := by
  obtain ⟨b⟩ := buildForwardJob_ok h
  obtain ⟨area, harea, hcopies⟩ := areaDeliveries_ok b.isCopies
  refine ⟨b, area, harea, hcopies, ?_⟩
  rw [b.deliveries, filter_eq_filter_iff]
  refine forall₂_congr (fun copy hcopy => ?_)
  obtain ⟨link, _, identity, _, haddressed⟩ := List.forall₂_mem_right hcopies hcopy
  rw [decide_eq_true_eq, kept_iff_owed haddressed]

end Fanout

namespace ForwardedEcho

def crypto : Crypto where
  verifyTlv _ _ _ := .ok true
  hashTlv _ := .ok (Vector.replicate 32 0)
  hashInboundItem _ := .ok (Vector.replicate 32 0)

def first : Address := ⟨"f", 1, 1, 0, 0, rfl⟩

def second : Address := ⟨"f", 2, 2, 0, 0, rfl⟩

def unknown : Address := ⟨"f", -1, -1, -1, 0, rfl⟩

def message : OwnedTlv :=
  carrierValue Types.message (concatenate
    [ carrierValue Types.origin (Bytes.ofString "f#-1"),
      carrierValue Types.publicKey (List.replicate 32 0),
      carrierValue Types.timestamp [1],
      carrierValue Types.toUserName [],
      carrierValue Types.fromUserName [],
      carrierValue Types.subject [],
      carrierValue Types.messageText [],
      carrierValue Types.area (concatenate [carrierValue Types.areaName (Bytes.ofString "A")]),
      carrierValue Types.signature (List.replicate 64 0),
      carrierValue Types.requestIdentifier [1],
      carrierValue Types.via (concatenate
        [ carrierValue Types.address (Bytes.ofString "f#-1"),
          carrierValue Types.publicKey (List.replicate 32 0),
          carrierValue Types.timestamp [1] ]) ])

/--
A system whose area is linked to another one, and to one that is unknown.
-/
def engine (here linked : Address) : SubmissionEngine where
  configuration :=
    { peers :=
        ((∅ : Table String Peer).insert "linked" ⟨"linked", linked, none, [], false, none, none⟩).insert "unknown"
          ⟨"unknown", unknown, some (Vector.replicate 32 7), [], false, none, none⟩
      routes := [⟨.address here, [], [], [], ⟨.discard, .none⟩⟩]
      areas := [⟨.address here, [⟨false, "A", [], [⟨"linked", "Normal"⟩, ⟨"unknown", "Normal"⟩]⟩]⟩] }
  nodelist := ⟨∅⟩
  signers := (∅ : Table String LocalSigner).insert "here" ⟨.address here, ⟨here, Vector.replicate 32 1⟩⟩

def inbound (here peer : Address) (item : OwnedTlv) : ForwardInbound where
  record :=
    { inboundId := ""
      application := Accept.relayApplication
      localIdentity := here.display
      peer := peer.display
      peerKey := Vector.replicate 32 0
      received := 0
      changed := 0
      kind := .message
      authentication := .originValid
      payloadSize := 0
      payloadHash := Vector.replicate 32 0
      state := .claimed
      attempts := 0
      eligibleAt := 0
      claimKey := none
      claimToken := none
      claimExpires := none
      lastResult := none
      forwardJob := none }
  payload := item.encode

def resolved : Resolved := fun _ => some (Vector.replicate 32 1)

def forward (here linked peer : Address) (item : OwnedTlv) : Except BuildFailure ForwardJob :=
  buildForwardJob crypto (engine here linked) (inbound here peer item) resolved 300 5

end ForwardedEcho

open ForwardedEcho in
theorem fanout_forwardedEcho
    : ∃ job, forward first second unknown message = .ok job ∧
        ∃ (b : Built crypto (engine first second) (inbound first unknown message) resolved 300 5 job) (area : Area),
          IsAreaOf (engine first second) b.signer.reference job.area b.fileArea area ∧
          List.Forall₂ (IsCopyFor (engine first second) resolved) area.sendTo b.copies ∧
          (job.deliveries = b.copies.filter (IsOwed (inbound first unknown message).record b.seenBy) ↔
            ∀ copy ∈ b.copies, ¬IsMistaken (inbound first unknown message).record b.seenBy copy) := by
  have hsome : (forward first second unknown message).toOption.isSome = true := by decide +kernel
  rw [Option.isSome_iff_exists] at hsome
  obtain ⟨job, hjob⟩ := hsome
  rw [Except.toOption_eq_some] at hjob
  exact ⟨job, hjob, fanout_exact hjob⟩

/-!
The way of an item from one system to the next.
-/

theorem setRequestIdentifier_children {value value' : OwnedTlv} {n : UInt64} {children : List OwnedTlv}
    (h : setRequestIdentifier value n = .ok value') (hchildren : parseSequence value.value = .ok children)
    : value'.typeCode = value.typeCode ∧ parseSequence value'.value = .ok (children.map (setIdentifier n)) := by
  have hparsed : parseChildren value.value = .ok children := by
    rw [parseChildren, Except.mapError_eq_ok]
    exact hchildren
  simp only [setRequestIdentifier, hparsed, Except.bind_of_ok] at h
  split at h
  . cases h
  . obtain ⟨htype, hvalue⟩ := assigned_ok h
    refine ⟨htype, (parseSequence_eq_ok _ _).mpr ⟨hvalue.symm, ?_⟩⟩
    intro child hchild
    obtain ⟨before, hbefore, rfl⟩ := List.mem_map.mp hchild
    rw [typeCode_setIdentifier]
    exact ((parseSequence_eq_ok _ _).mp hchildren).2 before hbefore

theorem filter_setIdentifier {typeCode : UInt64} (htype : typeCode ≠ Types.requestIdentifier)
    (children : List OwnedTlv) (n : UInt64)
    : (children.map (setIdentifier n)).filter (·.typeCode = typeCode) =
        children.filter (·.typeCode = typeCode) := by
  induction children with
  | nil => rfl
  | cons child children ih =>
    rw [List.map_cons, List.filter_cons, List.filter_cons, ih, typeCode_setIdentifier]
    split
    . next hchild =>
      rw [decide_eq_true_eq] at hchild
      rw [setIdentifier_of_ne (by rwa [hchild])]
    . rfl

theorem seenAddresses_setIdentifier (children : List OwnedTlv) (n : UInt64)
    : seenAddresses (children.map (setIdentifier n)) = seenAddresses children := by
  rw [seenAddresses, filter_setIdentifier (by decide), seenAddresses]

/--
The addresses that an item sent on names: those it came with and those that are known to have it or to get it.
-/
def namedBy (engine : SubmissionEngine) (inbound : ForwardInbound) (job : ForwardJob)
    : Except BuildFailure (List Address) := do
  let signer ← (engine.receiver inbound.record).okOr (.invalid "inbound receiving identity is no longer configured")
  let root ← inboundRoot inbound.payload
  let children ← parseValues root.value
  let seenBy ← describe (seenAddresses children)
  seenBehind signer inbound.record seenBy job.deliveries

theorem Built.named {c : Crypto} {engine : SubmissionEngine} {inbound : ForwardInbound} {resolved : Resolved}
    {requestIdentifier created : UInt64} {job : ForwardJob}
    (b : Built c engine inbound resolved requestIdentifier created job)
    : namedBy engine inbound job = .ok b.seen := by
  rw [namedBy, b.isSigner, inboundRoot_eq_ok.mpr b.isRoot]
  simp only [Option.okOr, Except.bind_of_ok, parseValues_eq_ok.mpr b.isChildren, describe_eq_ok.mpr b.isSeenBy]
  exact b.isSeen

/--
A system that sends an item on. No address that it names has a domain that could be taken for a component.
-/
structure Hop (c : Crypto) where
  engine : SubmissionEngine
  inbound : ForwardInbound
  resolved : Resolved
  requestIdentifier : UInt64
  created : UInt64
  job : ForwardJob
  isBuilt : buildForwardJob c engine inbound resolved requestIdentifier created = .ok job
  isPlain : ∀ seen, namedBy engine inbound job = .ok seen → ∀ address ∈ seen, PlainDomain address.domain

namespace Hop

variable {c : Crypto}

def IsAt (hop : Hop c) (address : Address) : Prop :=
  ∃ signer, hop.engine.receiver hop.inbound.record = some signer ∧ signer.identity.address = address

/--
An address that a hop knows to have the item or to get it.
-/
def Knows (hop : Hop c) (address : Address) : Prop :=
  address.isAnonymous = false ∧
    (hop.IsAt address ∨ hop.inbound.record.peer = address.display ∨
      ∃ copy ∈ hop.job.deliveries, copy.nextHop = address.display)

/--
The next hop has received a copy. In its bundle the item has an identifier of its own.
-/
def Follows (hop next : Hop c) : Prop :=
  (∃ n item, setRequestIdentifier hop.job.item n = .ok item ∧ next.inbound.payload = item.encode) ∧
    ∃ copy ∈ hop.job.deliveries, ∃ address, next.IsAt address ∧ copy.nextHop = address.display

/--
An address that a hop finds in the item.
-/
def Finds (hop : Hop c) (address : Address) : Prop :=
  ∃ b : Built c hop.engine hop.inbound hop.resolved hop.requestIdentifier hop.created hop.job, address ∈ b.seenBy

def Names (hop : Hop c) (address : Address) : Prop :=
  ∃ seen, namedBy hop.engine hop.inbound hop.job = .ok seen ∧ address ∈ seen

theorem IsAt.unique {hop : Hop c} {a b : Address} (ha : hop.IsAt a) (hb : hop.IsAt b) : a = b := by
  obtain ⟨signer, hsigner, rfl⟩ := ha
  obtain ⟨signer', hsigner', rfl⟩ := hb
  rw [hsigner, Option.some.injEq] at hsigner'
  rw [hsigner']

theorem names_iff {hop : Hop c}
    (b : Built c hop.engine hop.inbound hop.resolved hop.requestIdentifier hop.created hop.job) {address : Address}
    : hop.Names address ↔ address ∈ b.seen := by
  constructor
  . rintro ⟨seen, hseen, haddress⟩
    rw [b.named, Except.ok.injEq] at hseen
    rwa [hseen]
  . intro haddress
    exact ⟨b.seen, b.named, haddress⟩

theorem mem_representable {address other : Address}
    : address ∈ representable other ↔ address = other ∧ address.isAnonymous = false := by
  unfold representable
  split
  . next h =>
    constructor
    . intro hmem
      cases hmem
    . rintro ⟨rfl, hknown⟩
      rw [h] at hknown
      cases hknown
  . next h =>
    rw [List.mem_singleton]
    constructor
    . rintro rfl
      exact ⟨rfl, by simpa using h⟩
    . exact And.left

theorem copyAddress_display {copy : NewDelivery} {addresses : List Address} {address : Address}
    (h : copyAddress copy = .ok addresses) (hcopy : copy.nextHop = address.display)
    : addresses = representable address := by
  rw [copyAddress, hcopy, Address.fromStr_display] at h
  cases h
  rfl

theorem Knows.names {hop : Hop c} {address : Address} (h : hop.Knows address) : hop.Names address := by
  obtain ⟨b⟩ := buildForwardJob_ok hop.isBuilt
  rw [names_iff b]
  obtain ⟨hknown, h⟩ := h
  have hseen := b.isSeen
  simp only [seenBehind, Except.bind_ok_iff, Except.ok.injEq] at hseen
  obtain ⟨copies, hcopies, hseen⟩ := hseen
  rw [← hseen, mem_sortedSet]
  simp only [List.mem_append]
  rcases h with ⟨signer, hsigner, rfl⟩ | hpeer | ⟨copy, hcopy, hnext⟩
  . rw [b.isSigner, Option.some.injEq] at hsigner
    rw [hsigner]
    exact .inl (.inl (.inr (mem_representable.mpr ⟨rfl, hknown⟩)))
  . refine .inl (.inr ?_)
    rw [incomingAddress, hpeer, Address.fromStr_display]
    exact mem_representable.mpr ⟨rfl, hknown⟩
  . obtain ⟨addresses, hmem, hread⟩ := List.forall₂_mem_left (Except.mapM_forall₂ hcopies) hcopy
    rw [copyAddress_display hread hnext] at hmem
    exact .inr (List.mem_flatten.mpr ⟨_, hmem, mem_representable.mpr ⟨rfl, hknown⟩⟩)

theorem Finds.names {hop : Hop c} {address : Address} (h : hop.Finds address) : hop.Names address := by
  obtain ⟨b, hb⟩ := h
  rw [names_iff b]
  have hseen := b.isSeen
  simp only [seenBehind, Except.bind_ok_iff, Except.ok.injEq] at hseen
  obtain ⟨copies, _, hseen⟩ := hseen
  rw [← hseen, mem_sortedSet]
  simp [hb]

theorem Finds.untold {hop : Hop c} {address : Address} (h : hop.Finds address)
    : ∀ copy ∈ hop.job.deliveries, copy.nextHop ≠ address.display := by
  obtain ⟨b, hb⟩ := h
  intro copy hcopy hnext
  rw [b.deliveries, List.mem_filter, isSuppressed, hnext, Address.fromStr_display] at hcopy
  simp [hb] at hcopy

theorem Follows.finds {hop next : Hop c} (h : hop.Follows next) {address : Address} (hnames : hop.Names address)
    : next.Finds address := by
  obtain ⟨⟨n, item, hset, hpayload⟩, _⟩ := h
  obtain ⟨b⟩ := buildForwardJob_ok hop.isBuilt
  obtain ⟨b'⟩ := buildForwardJob_ok next.isBuilt
  refine ⟨b', ?_⟩
  obtain ⟨f⟩ := forwardItem_ok b.isItem
  obtain ⟨hitem, hchildren⟩ := setRequestIdentifier_children hset f.isForwarded
  -- What the next hop has received is this item.
  have hroot : b'.root = item := by
    have hpayload' : parseSequence next.inbound.payload = .ok [item] := by
      rw [hpayload, parseSequence_eq_ok]
      refine ⟨by simp [concatenate], ?_⟩
      simpa [hitem] using f.isDefined
    rw [b'.isRoot, Except.ok.injEq, List.cons.injEq] at hpayload'
    exact hpayload'.1
  have hsame := b'.isChildren
  rw [hroot, hchildren, Except.ok.injEq] at hsame
  have hseenBy := b'.isSeenBy
  rw [← hsame, seenAddresses_setIdentifier] at hseenBy
  have hplain := hop.isPlain b.seen b.named
  exact forwardItem_seen b.isItem hplain f.isForwarded hseenBy address ((names_iff b).mp hnames)

/--
The later hop finds whatever the earlier one names.
-/
def Tells (hop next : Hop c) : Prop := ∀ address, hop.Names address → next.Finds address

instance : Trans (Tells (c := c)) Tells Tells where
  trans := fun h h' address hnames => h' address (h address hnames).names

theorem Follows.tells {hop next : Hop c} (h : hop.Follows next) : hop.Tells next := fun _ => h.finds

theorem tells_of_chain {chain : List (Hop c)} (h : chain.IsChain Follows) : chain.Pairwise Tells :=
  (h.imp (fun _ _ => Follows.tells)).pairwise

theorem unvisited {hop : Hop c} {chain : List (Hop c)} (h : (hop :: chain).IsChain Follows) {address : Address}
    (hfinds : hop.Finds address)
    : ∀ later ∈ chain, ¬later.IsAt address := by
  -- An address that is found in the item is not on the rest of its way.
  induction chain generalizing hop with
  | nil => simp
  | cons next chain ih =>
    rw [List.isChain_cons_cons] at h
    intro later hlater hat
    rcases List.mem_cons.mp hlater with rfl | hlater
    . obtain ⟨_, copy, hcopy, found, hfound, hnext⟩ := h.1
      rw [hfound.unique hat] at hnext
      exact hfinds.untold copy hcopy hnext
    . exact ih h.2 (h.1.finds hfinds.names) later hlater hat

theorem Follows.finds_itself {hop next : Hop c} (h : hop.Follows next) {address : Address} (hat : next.IsAt address)
    (hknown : address.isAnonymous = false)
    : next.Finds address := by
  have hcopied := h
  obtain ⟨_, copy, hcopy, found, hfound, hnext⟩ := hcopied
  rw [hfound.unique hat] at hnext
  exact h.finds (Knows.names ⟨hknown, .inr (.inr ⟨copy, hcopy, hnext⟩)⟩)

end Hop

theorem length_le_card [DecidableEq β] {R : α → β → Prop} {l : List α} {images : Finset β}
    (h : ∀ a ∈ l, ∃ b ∈ images, R a b) (hpairwise : l.Pairwise (fun a a' => ∀ b, R a b → ¬R a' b))
    : l.length ≤ images.card := by
  induction l generalizing images with
  | nil => simp
  | cons a l ih =>
    rw [List.pairwise_cons] at hpairwise
    obtain ⟨b, hb, hab⟩ := h a List.mem_cons_self
    have hothers : ∀ a' ∈ l, ∃ b' ∈ images.erase b, R a' b' := by
      intro a' ha'
      obtain ⟨b', hb', hab'⟩ := h a' (List.mem_cons_of_mem _ ha')
      refine ⟨b', Finset.mem_erase.mpr ⟨?_, hb'⟩, hab'⟩
      rintro rfl
      exact hpairwise.1 a' ha' b' hab hab'
    have hlength := ih hothers hpairwise.2
    rw [Finset.card_erase_of_mem hb] at hlength
    have hpositive := Finset.card_pos.mpr ⟨b, hb⟩
    rw [List.length_cons]
    omega

theorem Hop.copies_disjoint {c : Crypto} {chain : List (Hop c)} (h : chain.IsChain Hop.Follows)
    : chain.Pairwise (fun earlier later => ∀ address, earlier.Knows address →
        ∀ copy ∈ later.job.deliveries, copy.nextHop ≠ address.display) := by
  refine (Hop.tells_of_chain h).imp ?_
  intro earlier later htells address hknows
  exact (htells address hknows.names).untold

theorem Hop.receivers_distinct {c : Crypto} {chain : List (Hop c)} (h : chain.IsChain Hop.Follows)
    : chain.tail.Pairwise (fun earlier later => ∀ address, address.isAnonymous = false ∧ earlier.IsAt address →
        ¬(address.isAnonymous = false ∧ later.IsAt address)) := by
  induction chain with
  | nil => exact .nil
  | cons hop chain ih =>
    cases chain with
    | nil => exact .nil
    | cons next chain =>
      rw [List.isChain_cons_cons] at h
      rw [List.tail_cons, List.pairwise_cons]
      refine ⟨?_, ih h.2⟩
      rintro later hlater address ⟨hknown, hat⟩ ⟨_, hat'⟩
      exact Hop.unvisited h.2 (h.1.finds_itself hat hknown) later hlater hat'

namespace ForwardedEcho

def isNamed (here linked peer : Address) (item : OwnedTlv) (job : ForwardJob) : Bool :=
  (namedBy (engine here linked) (inbound here peer item) job).toOption.all (·.all (·.domain = "f"))

/--
The message from the unknown system to the first one, and from there to the second one.
-/
def way : Option (ForwardJob × OwnedTlv × ForwardJob) := do
  let job ← (forward first second unknown message).toOption
  let item ← (setRequestIdentifier job.item 4).toOption
  let next ← (forward second first first item).toOption
  if job.deliveries.any (·.nextHop = second.display) && isNamed first second unknown message job &&
      isNamed second first first item next then
    some (job, item, next)
  else
    none

theorem isPlain_of_isNamed {here linked peer : Address} {item : OwnedTlv} {job : ForwardJob}
    (h : isNamed here linked peer item job = true)
    : ∀ seen, namedBy (engine here linked) (inbound here peer item) job = .ok seen →
        ∀ address ∈ seen, PlainDomain address.domain := by
  intro seen hseen address haddress
  rw [isNamed, hseen, Except.toOption, Option.all_some, List.all_eq_true] at h
  have hdomain := h address haddress
  rw [decide_eq_true_eq] at hdomain
  rw [hdomain]
  intro c hc
  have hf : c = 'f' := by simpa using hc.symm
  rw [hf]
  decide

theorem way_exists
    : ∃ job item next, forward first second unknown message = .ok job ∧ setRequestIdentifier job.item 4 = .ok item ∧
        forward second first first item = .ok next ∧ (∃ copy ∈ job.deliveries, copy.nextHop = second.display) ∧
        isNamed first second unknown message job = true ∧ isNamed second first first item next = true := by
  have hsome : way.isSome = true := by decide +kernel
  rw [Option.isSome_iff_exists] at hsome
  obtain ⟨⟨job, item, next⟩, h⟩ := hsome
  simp only [way, Option.bind_eq_bind, Option.bind_eq_some_iff, Except.toOption_eq_some] at h
  obtain ⟨job', hjob, item', hitem, next', hnext, h⟩ := h
  split at h
  . next hholds =>
    cases h
    simp only [Bool.and_eq_true, List.any_eq_true, decide_eq_true_eq] at hholds
    exact ⟨job, item, next, hjob, hitem, hnext, hholds.1.1, hholds.1.2, hholds.2⟩
  . cases h

theorem hops_exist : ∃ hop next : Hop crypto, hop.Follows next := by
  obtain ⟨job, item, job', hjob, hitem, hjob', ⟨copy, hcopy, hsecond⟩, hplain, hplain'⟩ := way_exists
  let hop : Hop crypto :=
    ⟨engine first second, inbound first unknown message, resolved, 300, 5, job, hjob, isPlain_of_isNamed hplain⟩
  let next : Hop crypto :=
    ⟨engine second first, inbound second first item, resolved, 300, 5, job', hjob', isPlain_of_isNamed hplain'⟩
  have hat : next.IsAt second := by
    have hreceiver : (engine second first).receiver (inbound second first item).record =
        some ⟨.address second, ⟨second, Vector.replicate 32 1⟩⟩ := rfl
    exact ⟨_, hreceiver, rfl⟩
  exact ⟨hop, next, ⟨4, item, hitem, rfl⟩, copy, hcopy, second, hat, hsecond⟩

end ForwardedEcho

end Submission

end Tith
