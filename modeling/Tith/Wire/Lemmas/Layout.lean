import Tith.Wire.Lemmas.ReadItem

/-!
This module contains the layout of the items that the validator accepts: where the origin and the
signature stand among the children, and which types the other children have.
-/

namespace Tith

open Cursor StateExcept

section Parts

variable {types : List UInt64} {cursor next : Cursor}

theorem passes_takeNumber {typeCode : UInt64} {name : String} {number : UInt64} (hmem : typeCode ∈ types)
    (h : takeNumber typeCode name cursor = .ok (number, next))
    : Passes types cursor next := by
  simp only [takeNumber, bind_run_iff, lift_run_iff] at h
  obtain ⟨entry, _, hentry, _, rfl⟩ := h
  exact passes_take hmem hentry

theorem passes_takeText {typeCode : UInt64} {name text : String} (hmem : typeCode ∈ types)
    (h : takeText typeCode name cursor = .ok (text, next))
    : Passes types cursor next := by
  obtain ⟨entry, hentry, _⟩ := takeText_run.mp h
  exact passes_take hmem hentry

theorem passes_readAddressPart {value : OwnedTlv} {part : AddressPart} (hmem : Types.publicKey ∈ types)
    (h : readAddressPart value cursor = .ok (part, next))
    : Passes types cursor next := by
  obtain ⟨_, _, hkey⟩ := readAddressPart_run.mp h
  exact passes_conditionalPublicKey hmem hkey

theorem passes_optionalAddressPart {typeCode : UInt64} {part : Option AddressPart}
    (hmem : typeCode ∈ types) (hkey : Types.publicKey ∈ types)
    (h : optionalAddressPart typeCode cursor = .ok (part, next))
    : Passes types cursor next := by
  rcases optionalAddressPart_run.mp h with ⟨hentry, _⟩ | ⟨entry, mid, found, hentry, hfound, _⟩
  . exact passes_optional hmem hentry
  . exact (passes_optional hmem hentry).trans (passes_readAddressPart hkey hfound)

theorem passes_readDestination {resolver : KeyResolver} {destination : Option Identity}
    (hmem : Types.destination ∈ types) (hkey : Types.publicKey ∈ types)
    (h : readDestination resolver cursor = .ok (destination, next))
    : Passes types cursor next := by
  obtain ⟨part, hpart, _⟩ := readDestination_run.mp h
  exact passes_optionalAddressPart hmem hkey hpart

def frontTypes : List UInt64 := [Types.filename, Types.timestamp, Types.contents, Types.area]

def middleTypes : List UInt64 :=
  [Types.publicKey, Types.signedOrigin, Types.destination, Types.timestamp, Types.toUserName,
    Types.fromUserName, Types.subject, Types.messageText, Types.area, Types.file, Types.legacyAttributes,
    Types.timestampOffset, Types.tearLine, Types.originLine, Types.messageId, Types.replyTo,
    Types.originalCharacterSet, Types.shortDescription, Types.longDescriptionLine, Types.magicWord,
    Types.replaces]

def suffixTypes : List UInt64 :=
  [Types.requestIdentifier, Types.via, Types.seenBy, Types.additionalKludgeLine]

theorem passes_readWords {words : MessageWords} (h : readWords cursor = .ok (words, next))
    : Passes middleTypes cursor next := by
  simp only [readWords, bind_run_iff, pure_run_iff, optionalArea_eq] at h
  obtain ⟨_, _, htimestamp, _, _, hto, _, _, hfrom, _, _, hsubject, _, _, htext, _, _, harea, _, rfl⟩ := h
  exact (passes_takeNumber (by decide) htimestamp).trans <|
    (passes_takeText (by decide) hto).trans <|
    (passes_takeText (by decide) hfrom).trans <|
    (passes_takeText (by decide) hsubject).trans <|
    (passes_takeText (by decide) htext).trans (passes_optionalValue (by decide) harea)

theorem passes_readControls {controls : MessageControls} (h : readControls cursor = .ok (controls, next))
    : Passes middleTypes cursor next := by
  simp only [readControls, bind_run_iff, pure_run_iff, optionalText_eq] at h
  obtain ⟨_, _, hfiles, _, _, hlegacy, _, _, hoffset, _, _, htear, _, _, horigin, _, _, hmessageId, _, _,
    hreplyTo, _, _, hcharacterSet, _, rfl⟩ := h
  exact (passes_repeatedValues (by decide) hfiles).trans <|
    (passes_optionalValue (by decide) hlegacy).trans <|
    (passes_optionalValue (by decide) hoffset).trans <|
    (passes_optionalValue (by decide) htear).trans <|
    (passes_optionalValue (by decide) horigin).trans <|
    (passes_optionalValue (by decide) hmessageId).trans <|
    (passes_optionalValue (by decide) hreplyTo).trans (passes_optionalValue (by decide) hcharacterSet)

theorem passes_readMessageRoute {route : ItemRoute} (h : readMessageRoute cursor = .ok (route, next))
    : Passes suffixTypes cursor next := by
  simp only [readMessageRoute, bind_run_iff, pure_run_iff, guard_run_iff] at h
  obtain ⟨_, _, hvias, _, _, _, hseenBy, _, rfl⟩ := h
  exact (passes_repeatedValues (by decide) hvias).trans (passes_optionalValue (by decide) hseenBy)

theorem passes_readFileHead {area : Option AreaData} {children : List OwnedTlv}
    (h : readFileHead true children cursor = .ok (area, next))
    : Passes frontTypes cursor next := by
  obtain ⟨body, mid, hbody, harea, _⟩ := (readFileHead_iff "File Contents").mp h
  simp only [readFileBody, bind_run_iff, pure_run_iff, optionalText_eq] at hbody
  obtain ⟨_, _, hfilename, _, _, htimestamp, _, _, hcontents, _, rfl⟩ := hbody
  exact (passes_optionalValue (by decide) hfilename).trans <|
    (passes_optionalValue (by decide) htimestamp).trans <|
    (passes_take (by decide) hcontents).trans (passes_optionalValue (by decide) harea)

end Parts

/--
An item around its origin: only the origin has its type, and only the place of the signature can hold
a signature.
-/
structure Layout (children : List OwnedTlv) (origin : AddressPart) (before after : Cursor) where
  atOrigin : Cursor
  index : Nat
  originTlv : OwnedTlv
  afterOrigin : Cursor
  last : Cursor
  front : Passes frontTypes (Cursor.new children) atOrigin
  found : atOrigin.Finds index originTlv
  typeCode : originTlv.typeCode = Types.origin
  part : readAddressPart originTlv ⟨children, index + 1⟩ = .ok (origin, afterOrigin)
  middle : Passes middleTypes afterOrigin before
  suffix : Passes suffixTypes after last
  finished : last.defined = []

theorem MessageRun.layout {c : Crypto} {value : OwnedTlv} {resolver : KeyResolver}
    (run : MessageRun c value resolver)
    : Nonempty (Layout run.children run.origin run.afterBody run.afterSignature) := by
  obtain ⟨_, entry, m₁, m₂, m₃, hentry, hpart, hsigned, hdestination⟩ := readMessageHead_iff.mp run.head
  obtain ⟨rfl, hfinds, htype⟩ := take_run hentry
  obtain ⟨words, hwords, _⟩ := readMessageText_iff.mp run.text
  obtain ⟨controls, hcontrols, _⟩ := readMessageBody_iff.mp run.body
  obtain ⟨m₄, m₅, m₆, route, lines, hnumber, hroute, hlines, _, hfinish⟩ := readMessageSuffix_iff.mp run.suffix
  refine ⟨⟨Cursor.new run.children, entry.1, entry.2, m₂, m₆, Passes.refl _ _, hfinds, htype, hpart, ?_, ?_,
    (finish_run hfinish).1⟩⟩
  . exact (passes_optionalAddressPart (by decide) (by decide) hsigned).trans <|
      (passes_readDestination (by decide) (by decide) hdestination).trans <|
      (passes_readWords hwords).trans (passes_readControls hcontrols)
  . exact (passes_takeNumber (by decide) hnumber).trans <|
      (passes_readMessageRoute hroute).trans (passes_repeatedValues (by decide) hlines)

theorem FileRun.layout {c : Crypto} {value : OwnedTlv} {resolver : KeyResolver}
    (run : FileRun c value resolver)
    : Nonempty (Layout run.children run.origin run.afterMetadata run.afterSignature) := by
  have hfront := passes_readFileHead run.head
  rcases optional_run run.found with ⟨hnone, _⟩ | ⟨index, originTlv, hsome, hcursor, hfinds, htype⟩
  . cases hnone
  have hentry : run.originEntry = (index, originTlv) := Option.some.inj hsome
  obtain ⟨metadata, hmetadata, _⟩ := readFileMetadata_iff.mp run.metadata
  obtain ⟨vias, mid, seenBy, hvias, hseenBy, _⟩ := readFileRoute_iff.mp run.route
  have hpart : readAddressPart originTlv ⟨run.children, index + 1⟩ = .ok (run.origin, run.afterOrigin) := by
    have hread := run.readOrigin
    rw [hentry, hcursor, hfront.values] at hread
    exact hread
  refine ⟨⟨run.afterHead, index, originTlv, run.afterOrigin, run.afterRoute, hfront, hfinds, htype, hpart,
    ?_, ?_, (finish_run run.finished).1⟩⟩
  . exact (passes_optionalAddressPart (by decide) (by decide) run.readSigned).trans <|
      (passes_readMetadata hmetadata).mono (by decide)
  . exact (passes_takeNumber (by decide) run.request).trans <|
      (passes_repeatedValues (by decide) hvias).trans (passes_repeatedValues (by decide) hseenBy)

theorem fixed_isSome_iff {n : Nat} {bytes : List UInt8}
    : (∃ v, fixed n bytes = some v) ↔ bytes.length = n := by
  unfold fixed
  split
  . next h => exact ⟨fun _ => h, fun _ => ⟨_, rfl⟩⟩
  . next h => simp [h]

/--
An origin with a key behind it that is not a key.
-/
def BrokenKey (children : List OwnedTlv) : Prop :=
  ∃ j originTlv keyTlv, children[j]? = some originTlv ∧ originTlv.typeCode = Types.origin ∧
    children[j + 1]? = some keyTlv ∧ keyTlv.typeCode = Types.publicKey ∧ keyTlv.value.length ≠ 32

section Layout

variable {children : List OwnedTlv} {origin : AddressPart} {before after : Cursor}

theorem Layout.afterPart (layout : Layout children origin before after)
    : Passes middleTypes ⟨children, layout.index + 1⟩ before :=
  (passes_readAddressPart (by decide) layout.part).trans layout.middle

theorem Layout.before_values (layout : Layout children origin before after) : before.values = children :=
  layout.afterPart.values

theorem Layout.defined_cases (layout : Layout children origin before after)
    (hsignature : Passes [Types.signature] before after) {j : Nat} {value : OwnedTlv}
    (hvalue : children[j]? = some value) (hdefined : Types.isDefined value.typeCode = true)
    : value.typeCode ∈ frontTypes ∨ j = layout.index ∨ value.typeCode ∈ middleTypes ∨
        (value.typeCode = Types.signature ∧ before.index ≤ j ∧ j < after.index) ∨
        value.typeCode ∈ suffixTypes := by
  have hatOrigin : layout.atOrigin.values = children := layout.front.values
  by_cases hfront : j < layout.atOrigin.index
  . exact .inl (layout.front.passed j value (Nat.zero_le _) hfront hvalue hdefined)
  by_cases hskipped : j < layout.index
  . have hhere : layout.atOrigin.values[j]? = some value := by
      rw [hatOrigin]
      exact hvalue
    rw [layout.found.skips.2 j (Nat.le_of_not_lt hfront) hskipped value hhere] at hdefined
    cases hdefined
  by_cases horigin : j = layout.index
  . exact .inr (.inl horigin)
  by_cases hmiddle : j < before.index
  . exact .inr (.inr (.inl (layout.afterPart.passed j value (by dsimp only; omega) hmiddle hvalue hdefined)))
  have hbefore : before.values[j]? = some value := layout.before_values ▸ hvalue
  by_cases hafter : j < after.index
  . have hmem := hsignature.passed j value (Nat.le_of_not_lt hmiddle) hafter hbefore hdefined
    exact .inr (.inr (.inr (.inl ⟨List.mem_singleton.mp hmem, Nat.le_of_not_lt hmiddle, hafter⟩)))
  . refine .inr (.inr (.inr (.inr ?_)))
    apply layout.suffix.all layout.finished (Nat.le_of_not_lt hafter) _ hdefined
    rw [hsignature.values]
    exact hbefore

theorem Layout.unique (layout : Layout children origin before after)
    (hsignature : Passes [Types.signature] before after) {j : Nat} {value : OwnedTlv}
    (hvalue : children[j]? = some value) (htype : value.typeCode = Types.origin)
    : j = layout.index := by
  -- There is no other origin.
  have hdefined : Types.isDefined value.typeCode = true := by
    rw [htype]
    decide
  rcases layout.defined_cases hsignature hvalue hdefined with hmem | hindex | hmem | ⟨hmem, _⟩ | hmem
  . rw [htype] at hmem
    exact absurd hmem (by decide)
  . exact hindex
  . rw [htype] at hmem
    exact absurd hmem (by decide)
  . rw [htype] at hmem
    exact absurd hmem (by decide)
  . rw [htype] at hmem
    exact absurd hmem (by decide)

theorem Layout.signature_index (layout : Layout children origin before after)
    (hsignature : Passes [Types.signature] before after) {j : Nat} {value : OwnedTlv}
    (hvalue : children[j]? = some value) (htype : value.typeCode = Types.signature)
    : before.index ≤ j ∧ j < after.index := by
  -- There is no signature but at its place.
  have hdefined : Types.isDefined value.typeCode = true := by
    rw [htype]
    decide
  rcases layout.defined_cases hsignature hvalue hdefined with hmem | hindex | hmem | ⟨_, hplace⟩ | hmem
  . rw [htype] at hmem
    exact absurd hmem (by decide)
  . have hother : value = layout.originTlv := by
      have hhere := layout.found.here
      rw [layout.front.values, ← hindex] at hhere
      exact Option.some.inj (hvalue.symm.trans hhere)
    rw [hother, layout.typeCode] at htype
    exact absurd htype (by decide)
  . rw [htype] at hmem
    exact absurd hmem (by decide)
  . exact hplace
  . rw [htype] at hmem
    exact absurd hmem (by decide)

theorem Layout.parseKey_iff (layout : Layout children origin before after)
    (hsignature : Passes [Types.signature] before after)
    : (∃ key, parseKey origin.publicKey = .ok key) ↔ ¬BrokenKey children := by
  obtain ⟨_, _, hkey⟩ := readAddressPart_run.mp layout.part
  have hbroken : BrokenKey children → ∃ originTlv keyTlv, children[layout.index]? = some originTlv ∧
      originTlv.typeCode = Types.origin ∧ children[layout.index + 1]? = some keyTlv ∧
      keyTlv.typeCode = Types.publicKey ∧ keyTlv.value.length ≠ 32 := by
    rintro ⟨j, originTlv, keyTlv, horigin, htype, hrest⟩
    obtain rfl := layout.unique hsignature horigin htype
    exact ⟨originTlv, keyTlv, horigin, htype, hrest⟩
  rcases conditionalPublicKey_run hkey with ⟨_, hnone, _, hnext⟩ | ⟨keyTlv, _, hsome, hhere, htype, _⟩
  . rw [hnone]
    constructor
    . intro _ h
      obtain ⟨originTlv, keyTlv, _, _, hkeyTlv, hkeyType, _⟩ := hbroken h
      exact hnext keyTlv hkeyTlv hkeyType
    . intro _
      exact ⟨none, rfl⟩
  . rw [hsome]
    constructor
    . rintro ⟨key, hread⟩ h
      obtain ⟨originTlv, other, _, _, hother, _, hlength⟩ := hbroken h
      obtain rfl : keyTlv = other := Option.some.inj (hhere.symm.trans hother)
      simp only [parseKey, publicKeyValue, Except.bind_ok_iff, Option.okOr_eq_ok] at hread
      obtain ⟨fixedKey, hfixed, _⟩ := hread
      exact hlength (fixed_isSome_iff.mp ⟨fixedKey, hfixed⟩)
    . intro h
      have hlength : keyTlv.value.length = 32 := by
        by_contra hlength
        have hhere' := layout.found.here
        rw [layout.front.values] at hhere'
        exact h ⟨layout.index, layout.originTlv, keyTlv, hhere', layout.typeCode, hhere, htype, hlength⟩
      obtain ⟨key, hfixed⟩ := fixed_isSome_iff.mpr hlength
      exact ⟨some key, by simp [parseKey, publicKeyValue, hfixed]⟩

end Layout

section Signature

variable {c : Crypto} {kind : SignedItemKind} {children : List OwnedTlv} {resolver : KeyResolver}
  {origin : AddressPart} {signedOrigin : Option AddressPart} {cursor next : Cursor} {result : ItemSignature}

theorem SignatureRead.passes (h : SignatureRead c kind children resolver origin signedOrigin cursor result next)
    : Passes [Types.signature] cursor next := by
  cases h with
  | unsigned => exact Passes.refl _ _
  | signed hfinds htype => exact hfinds.passes (by simp [htype])

theorem originPublicKey_parseKey {key : Option PublicKey} (h : originPublicKey origin resolver = .ok key)
    : ∃ parsed, parseKey origin.publicKey = .ok parsed := by
  simp only [originPublicKey, Except.bind_ok_iff] at h
  obtain ⟨address, _, h⟩ := h
  split at h
  . simp only [Except.bind_ok_iff, Option.okOr_eq_ok] at h
    obtain ⟨keyTlv, hsome, parsed, hparsed, _⟩ := h
    exact ⟨some parsed, by simp [parseKey, hsome, hparsed]⟩
  . split at h
    . cases h
    . next hnone =>
      rw [Option.isSome_iff_ne_none, not_not] at hnone
      exact ⟨none, by rw [hnone]; rfl⟩

theorem parseProvenance_run {signer : Identity} (h : parseProvenance origin signedOrigin resolver = .ok signer)
    : (∃ key, parseKey origin.publicKey = .ok key) ∧
        (∀ part ∈ signedOrigin, ∃ key, parseKey part.publicKey = .ok key) ∧
        (signer.address = origin.address ∨
          ∃ part ∈ signedOrigin, addressValue part.value = .ok signer.address) := by
  -- What is checked for a signature: both keys can be read, and one of the two addresses is the signer.
  simp only [parseProvenance, Except.bind_ok_iff] at h
  obtain ⟨originKey, horigin, h⟩ := h
  refine ⟨originPublicKey_parseKey horigin, ?_⟩
  cases signedOrigin with
  | none =>
    refine ⟨by simp, ?_⟩
    cases originKey with
    | none => simp at h
    | some key =>
      cases h
      exact .inl rfl
  | some part =>
    simp only [Except.bind_ok_iff] at h
    obtain ⟨_, _, h⟩ := h
    have hsigner : originKey.elim (parseIdentity part.value part.publicKey resolver)
          (fun publicKey => .ok ⟨origin.address, publicKey⟩) = .ok signer ∧
        ∃ key, parseKey part.publicKey = .ok key := by
      cases hpublicKey : part.publicKey with
      | none =>
        rw [hpublicKey] at h
        simp only [Option.okOr_some, Except.bind_of_ok, hpublicKey] at h
        exact ⟨by cases originKey <;> exact h, none, rfl⟩
      | some keyTlv =>
        rw [hpublicKey] at h
        simp only [Except.bind_ok_iff, Option.okOr_some, Except.bind_of_ok, hpublicKey] at h
        obtain ⟨key, hread, h⟩ := h
        exact ⟨by cases originKey <;> exact h, some key, by simp [parseKey, hread]⟩
    obtain ⟨hsigner, hkey⟩ := hsigner
    refine ⟨by simpa using hkey, ?_⟩
    cases originKey with
    | some key =>
      cases hsigner
      exact .inl rfl
    | none => exact .inr ⟨part, rfl, (parseIdentity_key hsigner).1⟩

end Signature

end Tith
