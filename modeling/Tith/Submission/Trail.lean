import Tith.Submission.Distribution

/-!
This module contains the proof that the way of an item can be read from it: the part that is signed arrives as it
was sent, and the vias name the systems on the way in their order.
-/

namespace Tith

namespace Submission

/--
The children of an item up to its signature.
-/
def signedPart (children : List OwnedTlv) : Option (List OwnedTlv) :=
  (children.findIdx? (·.typeCode = Types.signature)).map (fun index => children.take (index + 1))

def viasOf (children : List OwnedTlv) : List OwnedTlv := children.filter (·.typeCode = Types.via)

theorem signedPart_append {children : List OwnedTlv} {signature : Nat} (rest : List OwnedTlv)
    (h : children.findIdx? (·.typeCode = Types.signature) = some signature)
    : signedPart (children.take (signature + 1) ++ rest) = signedPart children := by
  have hlength : (children.take (signature + 1)).length = signature + 1 := by
    rw [List.findIdx?_eq_some_iff_getElem] at h
    obtain ⟨hlt, _⟩ := h
    rw [List.length_take]
    omega
  have hfind : (children.take (signature + 1) ++ rest).findIdx? (·.typeCode = Types.signature) = some signature := by
    rw [List.findIdx?_eq_some_iff_getElem] at h ⊢
    obtain ⟨hlt, hsignature, hfront⟩ := h
    have hat : ∀ k (hk : k ≤ signature) (hk' : k < (children.take (signature + 1) ++ rest).length),
        (children.take (signature + 1) ++ rest)[k] = children[k] := by
      intro k hk hk'
      rw [List.getElem_append_left (by omega), List.getElem_take]
    refine ⟨by rw [List.length_append]; omega, ?_, ?_⟩
    . rw [hat signature (Nat.le_refl _)]
      exact hsignature
    . intro k hk
      rw [hat k (Nat.le_of_lt hk)]
      exact hfront k hk
  rw [signedPart, hfind, signedPart, h, Option.map_some, Option.map_some, List.take_left' hlength]

theorem viasOf_forwarded {children values : List OwnedTlv} {request via : OwnedTlv} {seen : List Address}
    (signature : Nat) (hrequest : request.typeCode = Types.requestIdentifier) (hvia : via.typeCode = Types.via)
    (hvalues : SeenValues seen values)
    : viasOf (children.take (signature + 1) ++ request :: (children.drop (signature + 1)).filter isRetained ++
          via :: values ++ (children.drop (signature + 1)).filter (·.typeCode = Types.additionalKludgeLine)) =
        viasOf children ++ [via] := by
  have hretained : ((children.drop (signature + 1)).filter isRetained).filter (·.typeCode = Types.via) =
      (children.drop (signature + 1)).filter (·.typeCode = Types.via) := by
    rw [List.filter_filter]
    refine List.filter_congr (fun child _ => ?_)
    by_cases htype : child.typeCode = Types.via
    . simp [isRetained, htype]
    . simp [htype]
  have hseen : values.filter (·.typeCode = Types.via) = [] := by
    rw [List.filter_eq_nil_iff]
    intro value hvalue
    rw [hvalues.defined value hvalue]
    decide
  have hkludges : ((children.drop (signature + 1)).filter (·.typeCode = Types.additionalKludgeLine)).filter
      (·.typeCode = Types.via) = [] := by
    rw [List.filter_filter, List.filter_eq_nil_iff]
    intro child _ h
    simp only [Bool.and_eq_true, decide_eq_true_eq] at h
    rw [h.2] at h
    exact absurd h.1 (by decide)
  have hsplit : viasOf children = (children.take (signature + 1)).filter (·.typeCode = Types.via) ++
      (children.drop (signature + 1)).filter (·.typeCode = Types.via) := by
    rw [← List.filter_append, List.take_append_drop, viasOf]
  rw [hsplit, viasOf]
  simp only [List.filter_append, List.filter_cons, hrequest, hvia, hretained, hseen, hkludges]
  simp [Types.requestIdentifier, Types.via]

theorem setRequestIdentifier_once {value value' : OwnedTlv} {n : UInt64} {children : List OwnedTlv}
    (h : setRequestIdentifier value n = .ok value') (hchildren : parseSequence value.value = .ok children)
    : children.countP (·.typeCode = Types.requestIdentifier) = 1 := by
  have hparsed : parseChildren value.value = .ok children := by
    rw [parseChildren, Except.mapError_eq_ok]
    exact hchildren
  simp only [setRequestIdentifier, hparsed, Except.bind_of_ok] at h
  split at h
  . cases h
  . next hcount => exact not_not.mp hcount

theorem forwarded_children {item forwarded received : OwnedTlv} {identity : Identity}
    {requestIdentifier timestamp n : UInt64} {software : String} {seen : List Address} {children : List OwnedTlv}
    (h : forwardItem item identity requestIdentifier timestamp software seen = .ok forwarded)
    (hset : setRequestIdentifier forwarded n = .ok received) (hchildren : parseSequence item.value = .ok children)
    : ∃ children' via, parseSequence received.value = .ok children' ∧
        viaValue identity timestamp software = .ok via ∧ signedPart children' = signedPart children ∧
        viasOf children' = viasOf children ++ [via] := by
  obtain ⟨f⟩ := forwardItem_ok h
  have hsame : f.children = children := Except.ok.inj (f.isChildren.symm.trans hchildren)
  obtain ⟨-, hreceived⟩ := setRequestIdentifier_children hset f.isForwarded
  refine ⟨_, f.via, hreceived, f.isVia, ?_, ?_⟩
  . -- The identifier of the item is behind its signature, so a new one changes nothing in front of it.
    have honce := setRequestIdentifier_once hset f.isForwarded
    have hfront : ∀ value ∈ f.children.take (f.signature + 1), value.typeCode ≠ Types.requestIdentifier := by
      simp only [List.append_assoc, List.cons_append, List.countP_append, List.countP_cons, f.isRequest, decide_true,
        if_true] at honce
      have hnone : (f.children.take (f.signature + 1)).countP (·.typeCode = Types.requestIdentifier) = 0 := by omega
      intro value hvalue htype
      exact List.countP_eq_zero.mp hnone value hvalue (by simpa using htype)
    rw [List.append_assoc, List.append_assoc, List.map_append, map_setIdentifier_of_ne hfront,
      signedPart_append _ f.isSignature, hsame]
  . rw [viasOf, filter_setIdentifier (by decide), ← hsame]
    exact viasOf_forwarded f.signature f.isRequest (viaValue_ok f.isVia).1 f.isSeen

theorem itemVias_eq {item : OwnedTlv} {children : List OwnedTlv} (h : parseSequence item.value = .ok children)
    : itemVias item = (viasOf children).mapM readVia := by
  have hparsed : parseChildren item.value = .ok children := by
    rw [parseChildren, Except.mapError_eq_ok]
    exact h
  rw [itemVias, hparsed, Except.bind_of_ok, viasOf]

namespace Hop

variable {c : Crypto}

/--
The children of the item that a hop has received.
-/
def Received (hop : Hop c) (children : List OwnedTlv) : Prop :=
  ∃ root, parseSequence hop.inbound.payload = .ok [root] ∧ parseSequence root.value = .ok children

/--
The via of a hop.
-/
def Adds (hop : Hop c) (via : OwnedTlv) : Prop :=
  ∃ signer, hop.engine.receiver hop.inbound.record = some signer ∧
    viaValue signer.identity hop.created software = .ok via

theorem Received.unique {hop : Hop c} {children children' : List OwnedTlv} (h : hop.Received children)
    (h' : hop.Received children')
    : children = children' := by
  obtain ⟨root, hroot, hchildren⟩ := h
  obtain ⟨root', hroot', hchildren'⟩ := h'
  rw [hroot, Except.ok.injEq, List.cons.injEq] at hroot'
  rw [hroot'.1, hchildren', Except.ok.injEq] at hchildren
  exact hchildren.symm

theorem exists_received (hop : Hop c) : ∃ children, hop.Received children := by
  obtain ⟨b⟩ := buildForwardJob_ok hop.isBuilt
  exact ⟨b.children, b.root, b.isRoot, b.isChildren⟩

theorem Follows.received {hop next : Hop c} (h : hop.Follows next) {children : List OwnedTlv}
    (hchildren : hop.Received children)
    : ∃ children' via, next.Received children' ∧ hop.Adds via ∧
        signedPart children' = signedPart children ∧ viasOf children' = viasOf children ++ [via] := by
  -- The next hop has received the same signed part, and the via of this one behind the others.
  obtain ⟨⟨n, item, hset, hpayload⟩, _⟩ := h
  obtain ⟨b⟩ := buildForwardJob_ok hop.isBuilt
  obtain ⟨f⟩ := forwardItem_ok b.isItem
  obtain rfl : f.children = children := Received.unique ⟨b.root, b.isRoot, f.isChildren⟩ hchildren
  obtain ⟨hitem, -⟩ := setRequestIdentifier_children hset f.isForwarded
  have hpayload' : parseSequence next.inbound.payload = .ok [item] := by
    rw [hpayload, parseSequence_eq_ok]
    refine ⟨by simp [concatenate], ?_⟩
    simpa [hitem] using f.isDefined
  obtain ⟨children', via, hreceived, hvia, hsigned, hvias⟩ := forwarded_children b.isItem hset f.isChildren
  exact ⟨children', via, ⟨item, hpayload', hreceived⟩, ⟨b.signer, b.isSigner, hvia⟩, hsigned, hvias⟩

end Hop

/--
However many systems an item passes, what is signed arrives as it was sent, and the vias behind those that it came
with name the systems on its way, each once and in their order.
-/
theorem way_is_recorded {c : Crypto} (hop : Hop c) (chain : List (Hop c)) (h : (hop :: chain).IsChain Hop.Follows)
    (children : List OwnedTlv) (hchildren : hop.Received children)
    : ∃ children' vias, ((hop :: chain).getLast (by simp)).Received children' ∧
        signedPart children' = signedPart children ∧ viasOf children' = viasOf children ++ vias ∧
        List.Forall₂ Hop.Adds (hop :: chain).dropLast vias := by
  induction chain generalizing hop children with
  | nil => exact ⟨children, [], hchildren, rfl, by simp, .nil⟩
  | cons next chain ih =>
    rw [List.isChain_cons_cons] at h
    obtain ⟨middle, via, hmiddle, hvia, hsigned, hvias⟩ := h.1.received hchildren
    obtain ⟨children', vias, hlast, hsigned', hvias', hadds⟩ := ih next h.2 middle hmiddle
    refine ⟨children', via :: vias, ?_, hsigned'.trans hsigned, ?_, ?_⟩
    . simpa using hlast
    . rw [hvias', hvias, List.append_assoc, List.singleton_append]
    . rw [List.dropLast_cons_cons]
      exact .cons hvia hadds

open ForwardedEcho in
theorem way_is_recorded_forwardedEcho
    : ∃ hop next : Hop crypto, ∃ children children' vias, hop.Follows next ∧ hop.Received children ∧
        next.Received children' ∧ signedPart children' = signedPart children ∧
        viasOf children' = viasOf children ++ vias ∧ List.Forall₂ Hop.Adds [hop] vias := by
  obtain ⟨hop, next, hfollows⟩ := hops_exist
  obtain ⟨children, hchildren⟩ := hop.exists_received
  obtain ⟨children', vias, h⟩ := way_is_recorded hop [next] (by simpa using hfollows) children hchildren
  exact ⟨hop, next, children, children', vias, hfollows, hchildren, h⟩

end Submission

end Tith
