import Tith.Lib.StateExcept
import Tith.Wire.Item

/-!
This module contains what the validation of an item says about its identifier.
-/

namespace Tith

open StateExcept

namespace Cursor

theorem nextDefined_go_mem {cursor : Cursor} {rest : List OwnedTlv} {index : Nat}
    {entry : Nat × OwnedTlv} {next : Cursor} (h : nextDefined.go cursor rest index = some (entry, next))
    : entry.2 ∈ rest ∧ next.values = cursor.values := by
  induction rest generalizing index with
  | nil => cases h
  | cons value rest ih =>
    unfold nextDefined.go at h
    split at h
    . injection h with h
      injection h with hentry hnext
      rw [← hentry, ← hnext]
      simp
    . obtain ⟨hmem, hvalues⟩ := ih h
      exact ⟨List.mem_cons_of_mem _ hmem, hvalues⟩

theorem nextDefined_mem {cursor : Cursor} {entry : Nat × OwnedTlv} {next : Cursor}
    (h : cursor.nextDefined = some (entry, next))
    : entry.2 ∈ cursor.values ∧ next.values = cursor.values := by
  obtain ⟨hmem, hvalues⟩ := nextDefined_go_mem h
  exact ⟨List.mem_of_mem_drop hmem, hvalues⟩

theorem take_ensures (expected : UInt64) (name : String)
    : Ensures Cursor.values (take expected name)
        (fun values entry => entry.2 ∈ values ∧ entry.2.typeCode = expected) := by
  constructor
  intro cursor entry next h
  unfold take at h
  split at h
  . next entry' next' hnext =>
    split at h
    . next htype =>
      injection h with h
      injection h with hentry hcursor
      subst hentry
      subst hcursor
      obtain ⟨hmem, hvalues⟩ := nextDefined_mem hnext
      exact ⟨hvalues, hmem, htype⟩
    . cases h
  . cases h

theorem take_keeps (expected : UInt64) (name : String) : Keeps Cursor.values (take expected name) :=
  (take_ensures expected name).keeps

theorem optional_keeps (expected : UInt64) : Keeps Cursor.values (optional expected) := by
  constructor
  intro cursor entry next h
  refine ⟨?_, trivial⟩
  unfold optional at h
  split at h
  . next entry' next' hnext =>
    split at h
    . injection h with h
      injection h with _ hcursor
      rw [← hcursor, (nextDefined_mem hnext).2]
    . injection h with h
      injection h with _ hcursor
      rw [hcursor]
  . injection h with h
    injection h with _ hcursor
    rw [hcursor]

theorem repeated_go_values (expected : UInt64) (fuel : Nat) (cursor : Cursor)
    : (repeated.go expected fuel cursor).2.values = cursor.values := by
  induction fuel generalizing cursor with
  | zero => rfl
  | succ fuel ih =>
    unfold repeated.go
    split
    . next fuel' entry next heq hnext =>
      injection heq with heq
      subst heq
      split
      . dsimp only
        rw [ih, (nextDefined_mem hnext).2]
      . rfl
    . rfl

theorem repeated_keeps (expected : UInt64) : Keeps Cursor.values (repeated expected) := by
  constructor
  intro cursor entry next h
  refine ⟨?_, trivial⟩
  injection h with h
  have hvalues := repeated_go_values expected cursor.values.length cursor
  rw [h] at hvalues
  exact hvalues

theorem finish_keeps : Keeps Cursor.values finish := by
  constructor
  intro cursor entry next h
  refine ⟨?_, trivial⟩
  unfold finish at h
  split at h
  . cases h
  . injection h with h
    injection h with _ hcursor
    rw [hcursor]

theorem conditionalPublicKey_keeps (address : Address)
    : Keeps Cursor.values (conditionalPublicKey address) := by
  constructor
  intro cursor entry next h
  refine ⟨?_, trivial⟩
  unfold conditionalPublicKey at h
  split at h
  . cases h
  . cases h
  . injection h with h
    injection h with _ hcursor
    rw [← hcursor]
  . injection h with h
    injection h with _ hcursor
    rw [hcursor]

end Cursor

open Cursor

theorem optionalText_keeps (typeCode : UInt64) : Keeps Cursor.values (optionalText typeCode) := by
  unfold optionalText
  apply keeps_bind (optional_keeps typeCode)
  intro entry
  split
  . apply keeps_pure
  . apply keeps_bind (keeps_lift _)
    intro text
    apply keeps_pure

theorem takeNumber_ensures (typeCode : UInt64) (name : String)
    : Ensures Cursor.values (takeNumber typeCode name)
        (fun values number => ∃ value ∈ values, value.typeCode = typeCode ∧
          numberValue value = .ok number) := by
  unfold takeNumber
  apply ensures_bind (take_ensures typeCode name)
  intro entry
  constructor
  intro cursor number next h
  obtain ⟨hvalues, hnumber⟩ := (ensures_lift (numberValue entry.2)).run cursor number next h
  refine ⟨hvalues, ?_⟩
  intro hentry
  exact ⟨entry.2, hentry.1, hentry.2, hnumber⟩

theorem takeNumber_keeps (typeCode : UInt64) (name : String)
    : Keeps Cursor.values (takeNumber typeCode name) := (takeNumber_ensures typeCode name).keeps

theorem readAddressPart_keeps (value : OwnedTlv) : Keeps Cursor.values (readAddressPart value) := by
  unfold readAddressPart
  apply keeps_bind (keeps_lift _)
  intro address
  apply keeps_bind (conditionalPublicKey_keeps address)
  intro publicKey
  apply keeps_pure

theorem optionalAddressPart_keeps (typeCode : UInt64)
    : Keeps Cursor.values (optionalAddressPart typeCode) := by
  unfold optionalAddressPart
  apply keeps_bind (optional_keeps typeCode)
  intro entry
  split
  . apply keeps_pure
  . apply keeps_bind (readAddressPart_keeps _)
    intro part
    apply keeps_pure

theorem optionalTimestamp_keeps : Keeps Cursor.values optionalTimestamp := by
  unfold optionalTimestamp
  apply keeps_bind (optional_keeps _)
  intro entry
  split
  . apply keeps_pure
  . apply keeps_bind (keeps_lift _)
    intro number
    apply keeps_pure

theorem optionalArea_keeps : Keeps Cursor.values optionalArea := by
  unfold optionalArea
  apply keeps_bind (optional_keeps _)
  intro entry
  split
  . apply keeps_pure
  . apply keeps_bind (keeps_lift _)
    intro area
    apply keeps_pure

theorem readFileMetadata_keeps : Keeps Cursor.values readFileMetadata := by
  unfold readFileMetadata
  repeat' first
    | exact keeps_pure _
    | exact keeps_lift _
    | exact optional_keeps _
    | exact repeated_keeps _
    | exact optionalText_keeps _
    | dsimp only
    | apply keeps_bind
    | apply keeps_forM
    | intro _
    | split

theorem readFileHead_keeps (standalone : Bool) (children : List OwnedTlv)
    : Keeps Cursor.values (readFileHead standalone children) := by
  unfold readFileHead
  repeat' first
    | exact keeps_pure _
    | exact keeps_throw _
    | exact take_keeps _ _
    | exact optionalText_keeps _
    | exact optionalTimestamp_keeps
    | exact optionalArea_keeps
    | dsimp only
    | apply keeps_bind
    | intro _
    | split

theorem readFileRoute_keeps (area : Option AreaData) : Keeps Cursor.values (readFileRoute area) := by
  unfold readFileRoute
  repeat' first
    | exact keeps_pure _
    | exact keeps_throw _
    | exact keeps_lift _
    | exact repeated_keeps _
    | dsimp only
    | apply keeps_bind
    | apply keeps_forM
    | intro _
    | split

theorem readFileSignature_keeps (c : Crypto) (children : List OwnedTlv) (resolver : KeyResolver)
    (origin : AddressPart) (signedOrigin : Option AddressPart)
    : Keeps Cursor.values (readFileSignature c children resolver origin signedOrigin) := by
  unfold readFileSignature
  repeat' first
    | exact keeps_lift _
    | exact optional_keeps _
    | dsimp only
    | apply keeps_bind
    | intro _
    | split

theorem readMessageSignature_keeps (c : Crypto) (children : List OwnedTlv) (resolver : KeyResolver)
    (origin : AddressPart) (signedOrigin : Option AddressPart)
    : Keeps Cursor.values (readMessageSignature c children resolver origin signedOrigin) := by
  unfold readMessageSignature
  repeat' first
    | exact keeps_lift _
    | exact optional_keeps _
    | dsimp only
    | apply keeps_bind
    | intro _
    | split

theorem readMessageHead_keeps (children : List OwnedTlv) (resolver : KeyResolver)
    : Keeps Cursor.values (readMessageHead children resolver) := by
  unfold readMessageHead
  repeat' first
    | exact keeps_pure _
    | exact keeps_throw _
    | exact keeps_lift _
    | exact take_keeps _ _
    | exact readAddressPart_keeps _
    | exact optionalAddressPart_keeps _
    | dsimp only
    | apply keeps_bind
    | intro _
    | split

theorem readMessageText_keeps (destination : Option Identity)
    : Keeps Cursor.values (readMessageText destination) := by
  unfold readMessageText
  repeat' first
    | exact keeps_pure _
    | exact keeps_throw _
    | exact keeps_lift _
    | exact take_keeps _ _
    | exact takeNumber_keeps _ _
    | exact optionalArea_keeps
    | dsimp only
    | apply keeps_bind
    | apply keeps_forM
    | intro _
    | split

theorem readMessageBody_keeps (c : Crypto) (resolver : KeyResolver) (destination : Option Identity)
    : Keeps Cursor.values (readMessageBody c resolver destination) := by
  unfold readMessageBody
  repeat' first
    | exact keeps_pure _
    | exact keeps_throw _
    | exact keeps_lift _
    | exact optional_keeps _
    | exact repeated_keeps _
    | exact optionalText_keeps _
    | dsimp only
    | apply keeps_bind
    | apply keeps_forM
    | intro _
    | split

-- The number is the value of one of the identifiers among the children.
def IdentifiedBy (children : List OwnedTlv) (number : UInt64) : Prop :=
  ∃ child ∈ children, child.typeCode = Types.requestIdentifier ∧ numberValue child = .ok number

theorem readMessageSuffix_ensures : Ensures Cursor.values readMessageSuffix IdentifiedBy := by
  unfold readMessageSuffix
  apply ensures_bind (takeNumber_ensures _ _)
  intro number
  repeat' first
    | exact ensures_pure (fun _ h => h)
    | exact keeps_pure _
    | exact keeps_throw _
    | exact keeps_lift _
    | exact optional_keeps _
    | exact repeated_keeps _
    | exact finish_keeps
    | dsimp only
    | apply ensures_of_keeps
    | apply keeps_forM
    | intro _
    | split

theorem read_ok {value : OwnedTlv} {reader : List OwnedTlv → Reader α} {result : α}
    (h : Cursor.read value reader = .ok result)
    : ∃ children cursor, parseSequence value.value = .ok children ∧
        reader children (Cursor.new children) = .ok (result, cursor) := by
  simp only [Cursor.read, parseChildren, Except.bind_ok_iff, Except.mapError_eq_ok,
    Except.ok.injEq] at h
  obtain ⟨children, hchildren, ⟨result', cursor⟩, hreader, rfl⟩ := h
  exact ⟨children, cursor, hchildren, hreader⟩

-- The item that a reader returns is of one kind, and has the identifier of one of the children.
theorem read_identified {value : OwnedTlv} {reader : List OwnedTlv → Reader ValidatedItem}
    {item : ValidatedItem} {kinds : List ItemKind}
    (hreader : ∀ children, Ensures Cursor.values (reader children)
      (fun values item => item.kind ∈ kinds ∧ IdentifiedBy values item.requestIdentifier))
    (h : Cursor.read value reader = .ok item)
    : item.kind ∈ kinds ∧ ∃ children, parseSequence value.value = .ok children ∧
        IdentifiedBy children item.requestIdentifier := by
  obtain ⟨children, cursor, hchildren, hrun⟩ := read_ok h
  obtain ⟨_, hkind, hidentified⟩ := (hreader children).run _ _ _ hrun
  exact ⟨hkind, children, hchildren, hidentified⟩

theorem simpleRequest_identified {value : OwnedTlv} {kind : ItemKind} {item : ValidatedItem}
    (h : simpleRequest value kind = .ok item)
    : item.kind ∈ [kind] ∧ ∃ children, parseSequence value.value = .ok children ∧
        IdentifiedBy children item.requestIdentifier := by
  apply read_identified _ h
  intro children
  apply ensures_bind (takeNumber_ensures _ _)
  intro number
  apply ensures_of_keeps finish_keeps
  intro _
  apply ensures_pure
  intro values hidentified
  exact ⟨List.mem_singleton_self _, hidentified⟩

theorem validateFileRequest_identified {value : OwnedTlv} {item : ValidatedItem}
    (h : validateFileRequest value = .ok item)
    : item.kind ∈ [.fileRequest] ∧ ∃ children, parseSequence value.value = .ok children ∧
        IdentifiedBy children item.requestIdentifier := by
  apply read_identified _ h
  intro children
  have hend : Ensures Cursor.values
      (do
        optionalTimestamp
        let requestIdentifier ← takeNumber Types.requestIdentifier "RequestIdentifier"
        finish
        return { ValidatedItem.ofKind .fileRequest requestIdentifier value with
          authentication := some .transport } : Reader ValidatedItem)
      (fun values item => item.kind ∈ [.fileRequest] ∧
        IdentifiedBy values item.requestIdentifier) := by
    apply ensures_of_keeps optionalTimestamp_keeps
    intro _
    apply ensures_bind (takeNumber_ensures _ _)
    intro number
    apply ensures_of_keeps finish_keeps
    intro _
    apply ensures_pure
    intro values hidentified
    exact ⟨List.mem_singleton_self _, hidentified⟩
  apply ensures_of_keeps (take_keeps _ _)
  intro entry
  apply ensures_of_keeps (keeps_lift _)
  intro filename
  dsimp only
  split
  . apply ensures_of_keeps (keeps_throw _)
    intro _
    exact hend
  . exact hend

theorem validateStandaloneFile_identified {c : Crypto} {value : OwnedTlv} {resolver : KeyResolver}
    {item : ValidatedItem} (h : validateStandaloneFile c value resolver = .ok item)
    : item.kind ∈ [.file] ∧ ∃ children, parseSequence value.value = .ok children ∧
        IdentifiedBy children item.requestIdentifier := by
  apply read_identified _ h
  intro children
  apply ensures_of_keeps (readFileHead_keeps _ _)
  intro area
  apply ensures_of_keeps (optional_keeps _)
  intro entry
  split
  . apply ensures_throw
  . apply ensures_of_keeps (readAddressPart_keeps _)
    intro origin
    apply ensures_of_keeps (optionalAddressPart_keeps _)
    intro signedOrigin
    apply ensures_of_keeps readFileMetadata_keeps
    intro _
    apply ensures_of_keeps (readFileSignature_keeps _ _ _ _ _)
    intro signed
    apply ensures_bind (takeNumber_ensures _ _)
    intro number
    apply ensures_of_keeps (readFileRoute_keeps _)
    intro _
    apply ensures_of_keeps finish_keeps
    intro _
    apply ensures_pure
    intro values hidentified
    exact ⟨List.mem_singleton_self _, hidentified⟩

theorem validateMessage_identified {c : Crypto} {value : OwnedTlv} {resolver : KeyResolver}
    {item : ValidatedItem} (h : validateMessage c value resolver = .ok item)
    : item.kind ∈ [.netMail, .echoMail] ∧ ∃ children, parseSequence value.value = .ok children ∧
        IdentifiedBy children item.requestIdentifier := by
  apply read_identified _ h
  intro children
  apply ensures_of_keeps (readMessageHead_keeps _ _)
  intro head
  apply ensures_of_keeps (readMessageText_keeps _)
  intro area
  apply ensures_of_keeps (readMessageBody_keeps _ _ _)
  intro _
  apply ensures_of_keeps (readMessageSignature_keeps _ _ _ _ _)
  intro signed
  apply ensures_bind readMessageSuffix_ensures
  intro number
  apply ensures_pure
  intro values hidentified
  refine ⟨?_, hidentified⟩
  dsimp only [ValidatedItem.ofKind]
  split
  . exact List.mem_cons_self
  . exact List.mem_cons_of_mem _ (List.mem_singleton_self _)

theorem eq_of_identifiedBy {value : OwnedTlv} {children : List OwnedTlv} {number identifier : UInt64}
    (hchildren : parseSequence value.value = .ok children) (hnumber : IdentifiedBy children number)
    (h : requestIdentifier value = some identifier)
    : number = identifier := by
  obtain ⟨child, hchild, htype, hvalue⟩ := hnumber
  unfold requestIdentifier at h
  rw [hchildren] at h
  dsimp only at h
  split at h
  . next only hfilter =>
    have hmem : child ∈ children.filter (·.typeCode = Types.requestIdentifier) := by
      rw [List.mem_filter]
      exact ⟨hchild, by simpa using htype⟩
    rw [hfilter, List.mem_singleton] at hmem
    subst hmem
    rw [numberValue, Except.mapError_eq_ok] at hvalue
    rw [hvalue] at h
    exact Option.some.inj h
  . cases h

-- The type that the items of a kind have.
def ItemKind.typeCode (kind : ItemKind) : UInt64 :=
  match kind with
  | .netMail | .echoMail => Types.message
  | .file => Types.file
  | .fileRequest => Types.fileRequest
  | .accepted => Types.accepted
  | .rejected => Types.rejected
  | .pollMessages => Types.pollMessages
  | .pollFiles => Types.pollFiles
  | .pollFileRequests => Types.pollFileRequests
  | .publicKeyRequest => Types.publicKeyRequest

theorem map_some_identified {value : OwnedTlv} {kinds : List ItemKind}
    {x : Except BundleError ValidatedItem} {result : Option ValidatedItem}
    (hkinds : ∀ kind ∈ kinds, kind.typeCode = value.typeCode)
    (hx : ∀ {item}, x = .ok item → item.kind ∈ kinds ∧
      ∃ children, parseSequence value.value = .ok children ∧
        IdentifiedBy children item.requestIdentifier)
    (h : x.map some = .ok result)
    : ∃ item children, result = some item ∧ item.kind.typeCode = value.typeCode ∧
        parseSequence value.value = .ok children ∧ IdentifiedBy children item.requestIdentifier := by
  cases hresult : x with
  | error e =>
    rw [hresult] at h
    cases h
  | ok item =>
    rw [hresult] at h
    injection h with h
    obtain ⟨hkind, children, hchildren, hidentified⟩ := hx hresult
    exact ⟨item, children, h.symm, hkinds _ hkind, hchildren, hidentified⟩

theorem validateItem_request {c : Crypto} {value : OwnedTlv} {resolver : KeyResolver}
    {result : Option ValidatedItem} (hrequest : Types.isRequest value.typeCode = true)
    (h : validateItem c value resolver = .ok result)
    : ∃ item children, result = some item ∧ item.kind.typeCode = value.typeCode ∧
        parseSequence value.value = .ok children ∧ IdentifiedBy children item.requestIdentifier := by
  unfold validateItem at h
  split at h
  . next htype =>
    apply map_some_identified _ validateMessage_identified h
    simp [ItemKind.typeCode, htype]
  split at h
  . next htype =>
    unfold validateFile at h
    rw [if_pos rfl] at h
    apply map_some_identified _ validateStandaloneFile_identified h
    simp [ItemKind.typeCode, htype]
  split at h
  . next htype =>
    apply map_some_identified _ validateFileRequest_identified h
    simp [ItemKind.typeCode, htype]
  split at h
  . next htype =>
    rw [htype] at hrequest
    cases hrequest
  split at h
  . next htype =>
    rw [htype] at hrequest
    cases hrequest
  split at h
  . next htype =>
    apply map_some_identified _ simpleRequest_identified h
    simp [ItemKind.typeCode, htype]
  split at h
  . next htype =>
    apply map_some_identified _ simpleRequest_identified h
    simp [ItemKind.typeCode, htype]
  split at h
  . next htype =>
    apply map_some_identified _ simpleRequest_identified h
    simp [ItemKind.typeCode, htype]
  split at h
  . next htype =>
    apply map_some_identified _ simpleRequest_identified h
    simp [ItemKind.typeCode, htype]
  next hmessage hfile hfileRequest _ _ hpollMessages hpollFiles hpollFileRequests hpublicKeyRequest =>
  simp [Types.isRequest, hmessage, hfile, hfileRequest, hpollMessages, hpollFiles, hpollFileRequests,
    hpublicKeyRequest] at hrequest

theorem validateItem_identifier {c : Crypto} {value : OwnedTlv} {resolver : KeyResolver}
    {result : Option ValidatedItem} {identifier : UInt64}
    (hrequest : Types.isRequest value.typeCode = true)
    (hidentifier : requestIdentifier value = some identifier)
    (h : validateItem c value resolver = .ok result)
    : ∃ item, result = some item ∧ item.kind.typeCode = value.typeCode ∧
        item.requestIdentifier = identifier := by
  obtain ⟨item, children, hresult, hkind, hchildren, hidentified⟩ := validateItem_request hrequest h
  exact ⟨item, hresult, hkind, eq_of_identifiedBy hchildren hidentified hidentifier⟩

end Tith
