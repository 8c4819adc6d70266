import Tith.Wire.Lemmas.Integer
import Tith.Wire.Lemmas.Validate
import Tith.Wire.ReadItem

/-!
This module contains the two grammars of items side by side: a part of the validator accepts children
exactly if the reader of that part takes them, and the values it takes pass the checks of the validator.
-/

namespace Tith

open Cursor StateExcept

theorem take_name {expected : UInt64} {name : String} (other : String) {cursor : Cursor}
    {result : (Nat × OwnedTlv) × Cursor}
    : take expected name cursor = .ok result ↔ take expected other cursor = .ok result := by
  unfold take
  split
  . split
    . rfl
    . simp
  . simp

theorem optionalText_eq (typeCode : UInt64) : optionalText typeCode = optionalValue typeCode textValue := rfl

theorem optionalArea_eq : optionalArea = optionalValue Types.area validateArea := rfl

section Values

variable {α : Type} {typeCode : UInt64} {decode : OwnedTlv → Except BundleError α} {cursor next : Cursor}

theorem optionalValue_run {result : Option α}
    : optionalValue typeCode decode cursor = .ok (result, next) ↔
        (optional typeCode cursor = .ok (none, next) ∧ result = none) ∨
          ∃ entry a, optional typeCode cursor = .ok (some entry, next) ∧ decode entry.2 = .ok a ∧
            result = some a := by
  simp only [optionalValue, bind_run_iff]
  constructor
  . rintro ⟨entry, mid, hentry, hrest⟩
    cases entry with
    | none =>
      simp only [pure_run_iff] at hrest
      obtain ⟨rfl, rfl⟩ := hrest
      exact .inl ⟨hentry, rfl⟩
    | some entry =>
      simp only [bind_run_iff, lift_run_iff, pure_run_iff] at hrest
      obtain ⟨a, _, ⟨hdecode, rfl⟩, rfl, rfl⟩ := hrest
      exact .inr ⟨entry, a, hentry, hdecode, rfl⟩
  . rintro (⟨hentry, rfl⟩ | ⟨entry, a, hentry, hdecode, rfl⟩)
    . exact ⟨none, next, hentry, by simp⟩
    . refine ⟨some entry, next, hentry, ?_⟩
      simp only [bind_run_iff, lift_run_iff, pure_run_iff]
      exact ⟨a, next, ⟨hdecode, rfl⟩, rfl, rfl⟩

theorem repeatedValues_run {result : List α}
    : repeatedValues typeCode decode cursor = .ok (result, next) ↔
        ∃ values, repeated typeCode cursor = .ok (values, next) ∧ values.mapM decode = .ok result := by
  simp only [repeatedValues, bind_run_iff, lift_run_iff]
  constructor
  . rintro ⟨values, mid, hvalues, hdecode, rfl⟩
    exact ⟨values, hvalues, hdecode⟩
  . rintro ⟨values, hvalues, hdecode⟩
    exact ⟨values, next, hvalues, hdecode, rfl⟩

theorem optionalValue_none (h : optionalValue typeCode decode cursor = .ok (none, next))
    : next = cursor := by
  rcases optionalValue_run.mp h with ⟨hentry, _⟩ | ⟨_, _, _, _, hsome⟩
  . rcases optional_run hentry with ⟨_, hsame, _⟩ | ⟨_, _, hsome, _⟩
    . exact hsame
    . cases hsome
  . cases hsome

theorem repeatedValues_nil (h : repeatedValues typeCode decode cursor = .ok ([], next))
    : next = cursor := by
  obtain ⟨values, hvalues, hdecode⟩ := repeatedValues_run.mp h
  obtain ⟨_, _, _, hsame⟩ := repeated_run hvalues
  apply hsame
  have hlength := (Except.mapM_forall₂ hdecode).length_eq
  exact List.length_eq_zero_iff.mp hlength

theorem optionalValue_eq_none (h : ∀ value ∈ cursor.defined.head?, value.typeCode ≠ typeCode)
    : optionalValue typeCode decode cursor = .ok (none, cursor) :=
  optionalValue_run.mpr (.inl ⟨optional_eq_none h, rfl⟩)

theorem repeatedValues_eq_nil (h : ∀ value ∈ cursor.defined.head?, value.typeCode ≠ typeCode)
    : repeatedValues typeCode decode cursor = .ok ([], cursor) := by
  obtain ⟨next, hrepeated, _, _, hsame⟩ := repeated_of_defined (List.nil_append cursor.defined).symm
    (by simp) h
  rw [hsame rfl] at hrepeated
  exact repeatedValues_run.mpr ⟨[], hrepeated, rfl⟩

theorem optional_check {β : Type} {rest : Reader β} {body : OwnedTlv → Reader β} {valid : α → Prop}
    {final : β × Cursor}
    (hbody : ∀ value mid, body value mid = .ok final ↔
      (∃ a, decode value = .ok a ∧ valid a) ∧ rest mid = .ok final)
    : (∃ entry mid, optional typeCode cursor = .ok (entry, mid) ∧
        (match entry with
          | none => rest
          | some (_, value) => body value) mid = .ok final) ↔
        ∃ result mid, optionalValue typeCode decode cursor = .ok (result, mid) ∧
          (∀ a ∈ result, valid a) ∧ rest mid = .ok final := by
  simp only [optionalValue_run]
  constructor
  . rintro ⟨entry, mid, hentry, hrest⟩
    cases entry with
    | none => exact ⟨none, mid, .inl ⟨hentry, rfl⟩, by simp, hrest⟩
    | some entry =>
      obtain ⟨⟨a, hdecode, hvalid⟩, hrest⟩ := (hbody entry.2 mid).mp hrest
      exact ⟨some a, mid, .inr ⟨entry, a, hentry, hdecode, rfl⟩, by simpa using hvalid, hrest⟩
  . rintro ⟨result, mid, ⟨hentry, rfl⟩ | ⟨entry, a, hentry, hdecode, rfl⟩, hvalid, hrest⟩
    . exact ⟨none, mid, hentry, hrest⟩
    . exact ⟨some entry, mid, hentry, (hbody entry.2 mid).mpr ⟨⟨a, hdecode, hvalid a rfl⟩, hrest⟩⟩

theorem lift_check_run {check : OwnedTlv → Except BundleError Unit} {valid : α → Prop}
    (hcheck : ∀ value, check value = .ok () ↔ ∃ a, decode value = .ok a ∧ valid a) {β : Type}
    {rest : Reader β} {final : β × Cursor} (value : OwnedTlv) (mid : Cursor)
    : (do
        liftM (check value)
        rest : Reader β) mid = .ok final ↔
        (∃ a, decode value = .ok a ∧ valid a) ∧ rest mid = .ok final := by
  simp only [bind_run_iff, lift_run_iff]
  constructor
  . rintro ⟨_, _, ⟨hvalue, rfl⟩, hrest⟩
    exact ⟨(hcheck value).mp hvalue, hrest⟩
  . rintro ⟨hvalue, hrest⟩
    exact ⟨(), mid, ⟨(hcheck value).mpr hvalue, rfl⟩, hrest⟩

theorem decode_check_run {check : α → Except BundleError Unit} {β : Type} {rest : Reader β}
    {final : β × Cursor} (value : OwnedTlv) (mid : Cursor)
    : (do
        let a ← liftM (decode value)
        liftM (check a)
        rest : Reader β) mid = .ok final ↔
        (∃ a, decode value = .ok a ∧ check a = .ok ()) ∧ rest mid = .ok final := by
  simp only [bind_run_iff, lift_run_iff]
  constructor
  . rintro ⟨a, _, ⟨hdecode, rfl⟩, _, _, ⟨hcheck, rfl⟩, hrest⟩
    exact ⟨⟨a, hdecode, hcheck⟩, hrest⟩
  . rintro ⟨⟨a, hdecode, hcheck⟩, hrest⟩
    exact ⟨a, mid, ⟨hdecode, rfl⟩, (), mid, ⟨hcheck, rfl⟩, hrest⟩

theorem decode_run {β : Type} {rest : Reader β} {final : β × Cursor} (value : OwnedTlv) (mid : Cursor)
    : (do
        let _ ← liftM (decode value)
        rest : Reader β) mid = .ok final ↔
        (∃ a, decode value = .ok a ∧ True) ∧ rest mid = .ok final := by
  simp only [bind_run_iff, lift_run_iff, and_true]
  constructor
  . rintro ⟨a, _, ⟨hdecode, rfl⟩, hrest⟩
    exact ⟨⟨a, hdecode⟩, hrest⟩
  . rintro ⟨⟨a, hdecode⟩, hrest⟩
    exact ⟨a, mid, ⟨hdecode, rfl⟩, hrest⟩

theorem forM_lift_run {check : OwnedTlv → Except BundleError Unit} {valid : α → Prop}
    (hcheck : ∀ value, check value = .ok () ↔ ∃ a, decode value = .ok a ∧ valid a)
    {values : List OwnedTlv} {done : Unit}
    : (values.forM (fun value => (liftM (check value) : Reader Unit))) cursor = .ok (done, next) ↔
        cursor = next ∧ ∃ result, values.mapM decode = .ok result ∧ ∀ a ∈ result, valid a := by
  induction values with
  | nil =>
    constructor
    . intro h
      cases h
      exact ⟨rfl, [], rfl, by simp⟩
    . rintro ⟨rfl, _⟩
      rfl
  | cons value values ih =>
    rw [List.forM, bind_run_iff]
    simp only [lift_run_iff, List.mapM_cons, Except.bind_ok_iff, Except.pure_eq_ok, Except.ok.injEq]
    constructor
    . rintro ⟨_, mid, ⟨hvalue, rfl⟩, hrest⟩
      obtain ⟨rfl, result, hmapM, hvalid⟩ := ih.mp hrest
      obtain ⟨a, hdecode, ha⟩ := (hcheck value).mp hvalue
      refine ⟨rfl, a :: result, ⟨a, hdecode, result, hmapM, rfl⟩, ?_⟩
      intro b hb
      rcases List.mem_cons.mp hb with rfl | hb
      . exact ha
      . exact hvalid b hb
    . rintro ⟨rfl, result, ⟨a, hdecode, rest, hmapM, rfl⟩, hvalid⟩
      have hvalue := (hcheck value).mpr ⟨a, hdecode, hvalid a (by simp)⟩
      refine ⟨(), cursor, ⟨hvalue, rfl⟩, ih.mpr ⟨rfl, rest, hmapM, ?_⟩⟩
      intro b hb
      exact hvalid b (by simp [hb])

end Values

def IsLine (text : String) : Prop := ¬(text.toList.any (fun c => c = '\r' || c = '\n') = true)

theorem checkLine_iff {message : String} (value : OwnedTlv)
    : checkLine value message = .ok () ↔ ∃ text, textValue value = .ok text ∧ IsLine text := by
  simp only [checkLine, Except.bind_ok_iff]
  constructor
  . rintro ⟨text, htext, hcheck⟩
    split at hcheck
    . cases hcheck
    . next hline => exact ⟨text, htext, hline⟩
  . rintro ⟨text, htext, hline⟩
    exact ⟨text, htext, by rw [if_neg hline]⟩

structure FileMetadata.Valid (metadata : FileMetadata) : Prop where
  short : ∀ text ∈ metadata.shortDescription, IsLine text
  long : ∀ text ∈ metadata.longDescriptionLines, IsLine text

theorem readFileMetadata_iff {cursor next : Cursor} {done : Unit}
    : readFileMetadata cursor = .ok (done, next) ↔
        ∃ metadata, readMetadata cursor = .ok (metadata, next) ∧ metadata.Valid := by
  simp only [readFileMetadata, readMetadata, bind_run_iff, pure_run_iff]
  refine (optional_check (lift_check_run checkLine_iff)).trans ?_
  simp only [bind_run_iff, forM_lift_run checkLine_iff, List.forM, pure_run_iff, repeatedValues_run,
    optionalText_eq]
  constructor
  . rintro ⟨short, _, hshort, hshortLine, values, _, hvalues, _, _, ⟨rfl, long, hlong, hlongLine⟩, _, _,
      ⟨tear, _, htear, _, rfl⟩, _, _, ⟨magic, _, hmagic, _, rfl⟩, _, _, ⟨replaces, _, hreplaces, _, rfl⟩, _,
      rfl⟩
    exact ⟨⟨short, long, tear, magic, replaces⟩, ⟨short, _, hshort, long, _, ⟨values, hvalues, hlong⟩, tear,
      _, htear, magic, _, hmagic, replaces, _, hreplaces, rfl, rfl⟩, hshortLine, hlongLine⟩
  . rintro ⟨_, ⟨short, _, hshort, long, _, ⟨values, hvalues, hlong⟩, tear, _, htear, magic, _, hmagic,
      replaces, _, hreplaces, rfl, rfl⟩, hshortLine, hlongLine⟩
    exact ⟨short, _, hshort, hshortLine, values, _, hvalues, (), _, ⟨rfl, long, hlong, hlongLine⟩, (), _,
      ⟨tear, _, htear, trivial, rfl⟩, (), _, ⟨magic, _, hmagic, trivial, rfl⟩, (), _,
      ⟨replaces, _, hreplaces, trivial, rfl⟩, trivial, rfl⟩

def FileBody.Valid (body : FileBody) : Prop := ∀ name ∈ body.filename, filenameHasPathComponent name = false

/--
A file inside of a message has no provenance.
-/
def HasProvenance (children : List OwnedTlv) : Prop :=
  children.any (fun child => child.typeCode = Types.origin || child.typeCode = Types.publicKey ||
    child.typeCode = Types.signedOrigin || child.typeCode = Types.signature) = true

theorem optionalTimestamp_iff {cursor next : Cursor} {done : Unit}
    : optionalTimestamp cursor = .ok (done, next) ↔
        ∃ timestamp, optionalValue Types.timestamp numberValue cursor = .ok (timestamp, next) := by
  simp only [optionalTimestamp, bind_run_iff, optionalValue_run]
  constructor
  . rintro ⟨entry, mid, hentry, hrest⟩
    cases entry with
    | none =>
      simp only [pure_run_iff] at hrest
      obtain ⟨_, rfl⟩ := hrest
      exact ⟨none, .inl ⟨hentry, rfl⟩⟩
    | some entry =>
      simp only [bind_run_iff, lift_run_iff, pure_run_iff] at hrest
      obtain ⟨number, _, ⟨hnumber, rfl⟩, _, rfl⟩ := hrest
      exact ⟨some number, .inr ⟨entry, number, hentry, hnumber, rfl⟩⟩
  . rintro ⟨timestamp, ⟨hentry, rfl⟩ | ⟨entry, number, hentry, hnumber, rfl⟩⟩
    . exact ⟨none, next, hentry, by simp⟩
    . refine ⟨some entry, next, hentry, ?_⟩
      simp only [bind_run_iff, lift_run_iff, pure_run_iff]
      exact ⟨number, next, ⟨hnumber, rfl⟩, trivial, rfl⟩

theorem filename_guard {α : Type} {e : BundleError} {rest : Reader α} {filename : Option String}
    {cursor : Cursor} {final : α × Cursor}
    : (match filename with
        | none => rest
        | some filename =>
          if filenameHasPathComponent filename then do
            throw e
            rest
          else
            rest) cursor = .ok final ↔
        (∀ name ∈ filename, filenameHasPathComponent name = false) ∧ rest cursor = .ok final := by
  cases filename with
  | none => simp
  | some filename => simp [guard_run_iff]

theorem readFileHead_iff (name : String) {standalone : Bool} {children : List OwnedTlv} {area : Option AreaData}
    {cursor next : Cursor}
    : readFileHead standalone children cursor = .ok (area, next) ↔
        ∃ body mid, readFileBody name cursor = .ok (body, mid) ∧ optionalArea mid = .ok (area, next) ∧
          body.Valid ∧ (standalone = false → ¬HasProvenance children ∧ area = none) := by
  simp only [readFileHead, readFileBody, bind_run_iff, pure_run_iff]
  constructor
  . rintro ⟨filename, _, hfilename, hrest⟩
    obtain ⟨hpath, hrest⟩ := filename_guard.mp hrest
    simp only [bind_run_iff, guard_run_iff, pure_run_iff, optionalTimestamp_iff] at hrest
    obtain ⟨_, _, ⟨timestamp, htimestamp⟩, contents, _, hcontents, hprovenance, area', _, harea, hattached,
      rfl, rfl⟩ := hrest
    refine ⟨⟨filename, timestamp, contents.2.value⟩, _, ⟨filename, _, hfilename, timestamp, _, htimestamp,
      contents, _, (take_name name).mp hcontents, rfl, rfl⟩, harea, hpath, ?_⟩
    rintro rfl
    exact ⟨by simpa [HasProvenance] using hprovenance, by simpa using hattached⟩
  . rintro ⟨body, _, ⟨filename, _, hfilename, timestamp, _, htimestamp, contents, _, hcontents, rfl, rfl⟩,
      harea, hvalid, hattached⟩
    refine ⟨filename, _, hfilename, filename_guard.mpr ⟨hvalid, ?_⟩⟩
    . simp only [bind_run_iff, guard_run_iff, pure_run_iff, optionalTimestamp_iff]
      refine ⟨(), _, ⟨timestamp, htimestamp⟩, contents, _, (take_name _).mp hcontents, ?_, area, _, harea,
        ?_, rfl, rfl⟩
      . cases standalone with
        | true => simp
        | false => simpa [HasProvenance] using (hattached rfl).1
      . cases standalone with
        | true => simp
        | false => simp [(hattached rfl).2]

/--
What a route must have: a distributed file has one, another file has none.
-/
def RouteValid (area : Option AreaData) (vias : List ViaData) (seenBy : List (List Address)) : Prop :=
  (area.isSome = true → vias ≠ [] ∧ seenBy ≠ []) ∧ (area.isNone = true → vias = [] ∧ seenBy = [])

theorem isEmpty_of_mapM {α : Type} {decode : OwnedTlv → Except BundleError α} {values : List OwnedTlv}
    {result : List α} (h : values.mapM decode = .ok result)
    : values.isEmpty = result.isEmpty := by
  have hlength := (Except.mapM_forall₂ h).length_eq
  cases values <;> cases result <;> simp_all

theorem discard_iff {α : Type} {decode : OwnedTlv → Except BundleError α} (value : OwnedTlv)
    : (do
        let _ ← decode value
        pure () : Except BundleError Unit) = .ok () ↔ ∃ a, decode value = .ok a ∧ True := by
  cases decode value <;> simp

theorem forM_discard_run {α : Type} {decode : OwnedTlv → Except BundleError α} {values : List OwnedTlv}
    {cursor next : Cursor} {done : Unit}
    : (values.forM (fun value => do
        let _ ← (liftM (decode value) : Reader α)
        pure ())) cursor = .ok (done, next) ↔
        cursor = next ∧ ∃ result, values.mapM decode = .ok result := by
  have hbody : (fun value => (do
      let _ ← (liftM (decode value) : Reader α)
      pure () : Reader Unit)) =
      fun value => (liftM (do
        let _ ← decode value
        pure () : Except BundleError Unit) : Reader Unit) := by
    funext value
    cases decode value <;> rfl
  rw [hbody, forM_lift_run discard_iff]
  simp

theorem readFileRoute_iff {area : Option AreaData} {cursor next : Cursor} {done : Unit}
    : readFileRoute area cursor = .ok (done, next) ↔
        ∃ vias mid seenBy, repeatedValues Types.via readVia cursor = .ok (vias, mid) ∧
          repeatedValues Types.seenBy seenByAddresses mid = .ok (seenBy, next) ∧
          RouteValid area vias seenBy := by
  simp only [readFileRoute, bind_run_iff, guard_run_iff, repeatedValues_run, forM_discard_run]
  constructor
  . rintro ⟨viaTlvs, _, hvias, seenByTlvs, _, hseenBy, hpresent, habsent, _, _, ⟨rfl, vias, hread⟩, rfl,
      seenBy, haddresses⟩
    refine ⟨vias, _, seenBy, ⟨viaTlvs, hvias, hread⟩, ⟨seenByTlvs, hseenBy, haddresses⟩, ?_⟩
    rw [isEmpty_of_mapM hread, isEmpty_of_mapM haddresses] at hpresent habsent
    constructor
    . intro harea
      simpa [harea, not_or] using hpresent
    . intro harea
      simpa [harea] using habsent
  . rintro ⟨vias, mid, seenBy, ⟨viaTlvs, hvias, hread⟩, ⟨seenByTlvs, hseenBy, haddresses⟩, hpresent,
      habsent⟩
    refine ⟨viaTlvs, _, hvias, seenByTlvs, _, hseenBy, ?_, ?_, (), _, ⟨rfl, vias, hread⟩, rfl, seenBy,
      haddresses⟩
    . rw [isEmpty_of_mapM hread, isEmpty_of_mapM haddresses]
      cases harea : area.isSome with
      | true => simpa [not_or] using hpresent harea
      | false => simp
    . rw [isEmpty_of_mapM hread, isEmpty_of_mapM haddresses]
      cases harea : area.isNone with
      | true => simpa using habsent harea
      | false => simp

theorem passes_optionalValue {α : Type} {types : List UInt64} {typeCode : UInt64}
    {decode : OwnedTlv → Except BundleError α} {cursor next : Cursor} {result : Option α}
    (hmem : typeCode ∈ types) (h : optionalValue typeCode decode cursor = .ok (result, next))
    : Passes types cursor next := by
  rcases optionalValue_run.mp h with ⟨hentry, _⟩ | ⟨entry, a, hentry, _⟩
  . exact passes_optional hmem hentry
  . exact passes_optional hmem hentry

theorem passes_repeatedValues {α : Type} {types : List UInt64} {typeCode : UInt64}
    {decode : OwnedTlv → Except BundleError α} {cursor next : Cursor} {result : List α}
    (hmem : typeCode ∈ types) (h : repeatedValues typeCode decode cursor = .ok (result, next))
    : Passes types cursor next := by
  obtain ⟨values, hvalues, _⟩ := repeatedValues_run.mp h
  exact passes_repeated hmem hvalues

def metadataTypes : List UInt64 :=
  [Types.shortDescription, Types.longDescriptionLine, Types.tearLine, Types.magicWord, Types.replaces]

def embeddedTypes : List UInt64 := Types.filename :: Types.timestamp :: Types.contents :: metadataTypes

theorem passes_readFileBody {name : String} {body : FileBody} {cursor next : Cursor}
    (h : readFileBody name cursor = .ok (body, next))
    : Passes embeddedTypes cursor next := by
  simp only [readFileBody, bind_run_iff, pure_run_iff, optionalText_eq] at h
  obtain ⟨_, _, hfilename, _, _, htimestamp, _, _, hcontents, _, rfl⟩ := h
  exact (passes_optionalValue (by decide) hfilename).trans <|
    (passes_optionalValue (by decide) htimestamp).trans (passes_take (by decide) hcontents)

theorem passes_readMetadata {metadata : FileMetadata} {cursor next : Cursor}
    (h : readMetadata cursor = .ok (metadata, next))
    : Passes metadataTypes cursor next := by
  simp only [readMetadata, bind_run_iff, pure_run_iff, optionalText_eq] at h
  obtain ⟨_, _, hshort, _, _, hlong, _, _, htear, _, _, hmagic, _, _, hreplaces, _, rfl⟩ := h
  exact (passes_optionalValue (by decide) hshort).trans <|
    (passes_repeatedValues (by decide) hlong).trans <|
    (passes_optionalValue (by decide) htear).trans <|
    (passes_optionalValue (by decide) hmagic).trans (passes_optionalValue (by decide) hreplaces)

structure AttachmentData.Valid (data : AttachmentData) : Prop where
  filename : ∀ name ∈ data.filename, filenameHasPathComponent name = false
  short : ∀ text ∈ data.shortDescription, IsLine text
  long : ∀ text ∈ data.longDescriptionLines, IsLine text

theorem not_hasProvenance {children : List OwnedTlv}
    (h : ∀ value ∈ (Cursor.new children).defined, value.typeCode ∈ embeddedTypes)
    : ¬HasProvenance children := by
  intro hany
  obtain ⟨child, hchild, htype⟩ := List.any_eq_true.mp hany
  simp only [Bool.or_eq_true, decide_eq_true_eq] at htype
  have hdefined : child ∈ (Cursor.new children).defined → False := by
    intro hmem
    have hembedded := h child hmem
    rcases htype with ((htype | htype) | htype) | htype <;> rw [htype] at hembedded <;>
      exact absurd hembedded (by decide)
  apply hdefined
  rw [Cursor.defined, Cursor.new, List.drop_zero, List.mem_filter]
  refine ⟨hchild, ?_⟩
  rcases htype with ((htype | htype) | htype) | htype <;> rw [htype] <;> decide

theorem validateAttachedFile_iff {value : OwnedTlv}
    : validateAttachedFile value = .ok () ↔ ∃ data, readAttachment value = .ok data ∧ data.Valid := by
  simp only [validateAttachedFile, readAttachment, Cursor.read, Except.bind_ok_iff, Prod.exists,
    bind_run_iff, pure_run_iff, readFileHead_iff "attached Contents", readFileMetadata_iff,
    readFileRoute_iff, optionalArea_eq]
  constructor
  . rintro ⟨children, hchildren, _, _, ⟨area, _, ⟨body, mid, hbody, harea, hvalid, hattached⟩, _, _,
      ⟨metadata, hmetadata, hlines⟩, _, _, ⟨vias, _, seenBy, hvias, hseenBy, _, hroute⟩, hfinish⟩, _⟩
    obtain ⟨_, rfl⟩ := hattached trivial
    obtain ⟨rfl, rfl⟩ := hroute rfl
    obtain rfl := optionalValue_none harea
    obtain rfl := repeatedValues_nil hvias
    obtain rfl := repeatedValues_nil hseenBy
    exact ⟨_, ⟨children, hchildren, attachmentData body metadata, _, ⟨body, _, hbody, metadata, _,
      hmetadata, (), _, hfinish, rfl, rfl⟩, rfl⟩, hvalid, hlines.short, hlines.long⟩
  . rintro ⟨data, ⟨children, hchildren, _, _, ⟨body, mid, hbody, metadata, last, hmetadata, _, _,
      hfinish, rfl, rfl⟩, hdata⟩, hvalid⟩
    obtain rfl := Except.ok.inj hdata
    have hnil := (finish_run hfinish).1
    have hpassed := passes_readMetadata hmetadata
    have hprovenance : ¬HasProvenance children := by
      apply not_hasProvenance
      exact ((passes_readFileBody hbody).trans (hpassed.mono (by decide))).mem hnil
    have harea : optionalValue Types.area validateArea mid = .ok (none, mid) := by
      apply optionalValue_eq_none
      intro value hmem htype
      have hmetadataType := hpassed.mem hnil value (List.mem_of_mem_head? hmem)
      rw [htype] at hmetadataType
      exact absurd hmetadataType (by decide)
    have hvias : repeatedValues Types.via readVia last = .ok ([], last) :=
      repeatedValues_eq_nil (by simp [hnil])
    have hseenBy : repeatedValues Types.seenBy seenByAddresses last = .ok ([], last) :=
      repeatedValues_eq_nil (by simp [hnil])
    exact ⟨children, hchildren, (), _, ⟨none, mid, ⟨body, mid, hbody, harea, hvalid.filename,
      fun _ => ⟨hprovenance, rfl⟩⟩, (), last, ⟨metadata, hmetadata, hvalid.short, hvalid.long⟩, (), last,
      ⟨[], last, [], hvias, hseenBy, by simp [RouteValid]⟩, hfinish⟩, trivial⟩

theorem takeText_run {typeCode : UInt64} {name : String} {cursor next : Cursor} {text : String}
    : takeText typeCode name cursor = .ok (text, next) ↔
        ∃ entry, take typeCode name cursor = .ok (entry, next) ∧ textValue entry.2 = .ok text := by
  simp only [takeText, bind_run_iff, lift_run_iff]
  constructor
  . rintro ⟨entry, _, hentry, htext, rfl⟩
    exact ⟨entry, hentry, htext⟩
  . rintro ⟨entry, hentry, htext⟩
    exact ⟨entry, next, hentry, htext, rfl⟩

theorem readMessageText_iff {destination : Option Identity} {area : Option AreaData} {cursor next : Cursor}
    : readMessageText destination cursor = .ok (area, next) ↔
        ∃ words, readWords cursor = .ok (words, next) ∧ words.area = area ∧
          validateMessageText words.text = .ok () ∧ destination.isSome ≠ words.area.isSome := by
  simp only [readMessageText, readWords, bind_run_iff, pure_run_iff, lift_run_iff, List.forM,
    guard_run_iff, takeText_run]
  constructor
  . rintro ⟨timestamp, _, htimestamp, _, _, ⟨_, _, ⟨toEntry, _, hto, toUser, _, ⟨htoUser, rfl⟩, _, rfl⟩,
      _, _, ⟨fromEntry, _, hfrom, fromUser, _, ⟨hfromUser, rfl⟩, _, rfl⟩,
      _, _, ⟨subjectEntry, _, hsubject, subject, _, ⟨hsubjectText, rfl⟩, _, rfl⟩, _, rfl⟩,
      textEntry, _, htext, text, _, ⟨htextValue, rfl⟩, _, _, ⟨hvalid, rfl⟩, area', _, harea, hkind, rfl, rfl⟩
    exact ⟨⟨timestamp, toUser, fromUser, subject, text, area'⟩, ⟨timestamp, _, htimestamp, toUser, _,
      ⟨toEntry, hto, htoUser⟩, fromUser, _, ⟨fromEntry, hfrom, hfromUser⟩, subject, _,
      ⟨subjectEntry, hsubject, hsubjectText⟩, text, _, ⟨textEntry, htext, htextValue⟩, area', _, harea, rfl,
      rfl⟩, rfl, hvalid, hkind⟩
  . rintro ⟨_, ⟨timestamp, _, htimestamp, toUser, _, ⟨toEntry, hto, htoUser⟩, fromUser, _,
      ⟨fromEntry, hfrom, hfromUser⟩, subject, _, ⟨subjectEntry, hsubject, hsubjectText⟩, text, _,
      ⟨textEntry, htext, htextValue⟩, area', _, harea, rfl, rfl⟩, rfl, hvalid, hkind⟩
    exact ⟨timestamp, _, htimestamp, (), _, ⟨(), _, ⟨toEntry, _, hto, toUser, _, ⟨htoUser, rfl⟩, trivial, rfl⟩,
      (), _, ⟨fromEntry, _, hfrom, fromUser, _, ⟨hfromUser, rfl⟩, trivial, rfl⟩,
      (), _, ⟨subjectEntry, _, hsubject, subject, _, ⟨hsubjectText, rfl⟩, trivial, rfl⟩, trivial, rfl⟩,
      textEntry, _, htext, text, _, ⟨htextValue, rfl⟩, (), _, ⟨hvalid, rfl⟩, area', _, harea, hkind, rfl, rfl⟩

structure MessageControls.Valid (controls : MessageControls) (destination : Option Identity) : Prop where
  attachments : ∀ data ∈ controls.attachments, data.Valid
  legacyAttributes : ∀ value ∈ controls.legacyAttributes, validateLegacyAttributes value = .ok ()
  timestampOffset : ∀ value ∈ controls.timestampOffset, validateTimestampOffset value.toInt = .ok ()
  lines : destination.isSome = true → controls.tearLine = none ∧ controls.originLine = none

theorem offset_check_run {β : Type} {rest : Reader β} {final : β × Cursor} (value : OwnedTlv) (mid : Cursor)
    : (do
        let offset ← liftM ((decodeI64 value.value).mapError BundleError.integer)
        liftM (validateTimestampOffset offset)
        rest : Reader β) mid = .ok final ↔
        (∃ offset : Int64, offsetValue value = .ok offset ∧ validateTimestampOffset offset.toInt = .ok ()) ∧
          rest mid = .ok final := by
  simp only [bind_run_iff, lift_run_iff, offsetValue, Except.bind_ok_iff, Except.mapError_eq_ok,
    Except.ok.injEq]
  constructor
  . rintro ⟨offset, _, ⟨hoffset, rfl⟩, _, _, ⟨hvalid, rfl⟩, hrest⟩
    obtain ⟨hle, hlt⟩ := decodeI64_range hoffset
    refine ⟨⟨Int64.ofInt offset, ⟨offset, hoffset, rfl⟩, ?_⟩, hrest⟩
    rw [Int64.toInt_ofInt_of_le hle hlt]
    exact hvalid
  . rintro ⟨⟨_, ⟨offset, hoffset, rfl⟩, hvalid⟩, hrest⟩
    obtain ⟨hle, hlt⟩ := decodeI64_range hoffset
    rw [Int64.toInt_ofInt_of_le hle hlt] at hvalid
    exact ⟨offset, mid, ⟨hoffset, rfl⟩, (), mid, ⟨hvalid, rfl⟩, hrest⟩

theorem validateFile_attached_iff {c : Crypto} {resolver : KeyResolver} (value : OwnedTlv)
    : (∃ result, validateFile c value false resolver = .ok result) ↔
        ∃ data, readAttachment value = .ok data ∧ data.Valid := by
  rw [← validateAttachedFile_iff]
  unfold validateFile
  rw [if_neg (by decide)]
  cases validateAttachedFile value with
  | error e => simp [Except.map]
  | ok done => simp [Except.map]

theorem readMessageBody_iff {c : Crypto} {resolver : KeyResolver} {destination : Option Identity}
    {cursor next : Cursor} {done : Unit}
    : readMessageBody c resolver destination cursor = .ok (done, next) ↔
        ∃ controls, readControls cursor = .ok (controls, next) ∧ controls.Valid destination := by
  simp only [readMessageBody, readControls, bind_run_iff, pure_run_iff, forM_discard_run,
    Except.mapM_valid_iff validateFile_attached_iff]
  constructor
  . rintro ⟨files, _, hfiles, _, _, ⟨rfl, attachments, hread, hattachments⟩, hrest⟩
    obtain ⟨legacy, _, hlegacy, hlegacyValid, hrest⟩ := (optional_check decode_check_run).mp hrest
    rw [bind_run_iff] at hrest
    obtain ⟨offset, _, hoffset, hoffsetValid, hrest⟩ := (optional_check offset_check_run).mp hrest
    simp only [bind_run_iff, guard_run_iff] at hrest
    obtain ⟨tear, _, htear, origin, _, horigin, messageId, _, hmessageId, hlines, hrest⟩ := hrest
    obtain ⟨replyTo, _, hreplyTo, _, hrest⟩ := (optional_check decode_run).mp hrest
    simp only [bind_run_iff, pure_run_iff] at hrest
    obtain ⟨characterSet, _, hcharacterSet, _, rfl⟩ := hrest
    refine ⟨⟨attachments, legacy, offset, tear, origin, messageId, replyTo, characterSet⟩, ⟨attachments, _,
      repeatedValues_run.mpr ⟨files, hfiles, hread⟩, legacy, _, hlegacy, offset, _, hoffset, tear, _, htear,
      origin, _, horigin, messageId, _, hmessageId, replyTo, _, hreplyTo, characterSet, _, hcharacterSet, rfl,
      rfl⟩, hattachments, hlegacyValid, hoffsetValid, ?_⟩
    intro hnetMail
    simpa [hnetMail] using hlines
  . rintro ⟨_, ⟨attachments, _, hattachments, legacy, _, hlegacy, offset, _, hoffset, tear, _, htear,
      origin, _, horigin, messageId, _, hmessageId, replyTo, _, hreplyTo, characterSet, _, hcharacterSet, rfl,
      rfl⟩, hvalid⟩
    obtain ⟨files, hfiles, hread⟩ := repeatedValues_run.mp hattachments
    refine ⟨files, _, hfiles, (), _, ⟨rfl, attachments, hread, hvalid.attachments⟩, ?_⟩
    refine (optional_check decode_check_run).mpr ⟨legacy, _, hlegacy, hvalid.legacyAttributes, ?_⟩
    rw [bind_run_iff]
    refine (optional_check offset_check_run).mpr ⟨offset, _, hoffset, hvalid.timestampOffset, ?_⟩
    simp only [bind_run_iff, guard_run_iff]
    refine ⟨tear, _, htear, origin, _, horigin, messageId, _, hmessageId, ?_, ?_⟩
    . cases hnetMail : destination.isSome with
      | true => simpa using hvalid.lines hnetMail
      | false => simp
    . refine (optional_check decode_run).mpr ⟨replyTo, _, hreplyTo, by simp, ?_⟩
      simp only [bind_run_iff, pure_run_iff]
      exact ⟨characterSet, _, hcharacterSet, trivial, rfl⟩

section Provenance

variable {cursor next : Cursor}

theorem readAddressPart_run {value : OwnedTlv} {part : AddressPart}
    : readAddressPart value cursor = .ok (part, next) ↔
        addressValue value = .ok part.address ∧ part.value = value ∧
          conditionalPublicKey part.address cursor = .ok (part.publicKey, next) := by
  simp only [readAddressPart, bind_run_iff, lift_run_iff, pure_run_iff]
  constructor
  . rintro ⟨address, _, ⟨haddress, rfl⟩, publicKey, _, hkey, rfl, rfl⟩
    exact ⟨haddress, rfl, hkey⟩
  . rintro ⟨haddress, rfl, hkey⟩
    exact ⟨part.address, cursor, ⟨haddress, rfl⟩, part.publicKey, next, hkey, rfl, rfl⟩

theorem optionalAddressPart_run {typeCode : UInt64} {part : Option AddressPart}
    : optionalAddressPart typeCode cursor = .ok (part, next) ↔
        (optional typeCode cursor = .ok (none, next) ∧ part = none) ∨
          ∃ entry mid found, optional typeCode cursor = .ok (some entry, mid) ∧
            readAddressPart entry.2 mid = .ok (found, next) ∧ part = some found := by
  simp only [optionalAddressPart, bind_run_iff]
  constructor
  . rintro ⟨entry, mid, hentry, hrest⟩
    cases entry with
    | none =>
      simp only [pure_run_iff] at hrest
      obtain ⟨rfl, rfl⟩ := hrest
      exact .inl ⟨hentry, rfl⟩
    | some entry =>
      simp only [bind_run_iff, pure_run_iff] at hrest
      obtain ⟨found, _, hfound, rfl, rfl⟩ := hrest
      exact .inr ⟨entry, mid, found, hentry, hfound, rfl⟩
  . rintro (⟨hentry, rfl⟩ | ⟨entry, mid, found, hentry, hfound, rfl⟩)
    . exact ⟨none, next, hentry, by simp⟩
    . refine ⟨some entry, mid, hentry, ?_⟩
      simp only [bind_run_iff, pure_run_iff]
      exact ⟨found, next, hfound, rfl, rfl⟩

theorem readOrigin_run {name : String} {origin : Address} {key : Option PublicKey}
    : readOrigin name cursor = .ok ((origin, key), next) ↔
        ∃ entry mid part, take Types.origin name cursor = .ok (entry, mid) ∧
          readAddressPart entry.2 mid = .ok (part, next) ∧ part.address = origin ∧
          parseKey part.publicKey = .ok key := by
  -- The origin that a reader returns is the one of the validator, if its key can be read.
  simp only [readOrigin, bind_run_iff, lift_run_iff, pure_run_iff, Prod.mk.injEq, readAddressPart_run]
  constructor
  . rintro ⟨entry, mid, hentry, address, _, ⟨haddress, rfl⟩, keyTlv, _, hkeyTlv, _, _, ⟨hkey, rfl⟩,
      ⟨rfl, rfl⟩, rfl⟩
    exact ⟨entry, mid, ⟨address, entry.2, keyTlv⟩, hentry, ⟨haddress, rfl, hkeyTlv⟩, rfl, hkey⟩
  . rintro ⟨entry, mid, part, hentry, ⟨haddress, hvalue, hkeyTlv⟩, rfl, hkey⟩
    exact ⟨entry, mid, hentry, part.address, mid, ⟨haddress, rfl⟩, part.publicKey, next, hkeyTlv, key, next,
      ⟨hkey, rfl⟩, ⟨rfl, rfl⟩, rfl⟩

/--
The parts of a signed origin that a reader returns.
-/
def SignedOriginParts.Of (parts : SignedOriginParts) (part : Option AddressPart) : Prop :=
  match part with
  | none => parts = ⟨none, none, []⟩
  | some part =>
    parts.address = some part.address ∧ parseKey part.publicKey = .ok parts.key ∧
      parts.encoding = part.value.encode ++ (part.publicKey.map OwnedTlv.encode).getD []

theorem readSignedOrigin_run {parts : SignedOriginParts}
    : readSignedOrigin cursor = .ok (parts, next) ↔
        ∃ part, optionalAddressPart Types.signedOrigin cursor = .ok (part, next) ∧ parts.Of part := by
  simp only [readSignedOrigin, bind_run_iff, optionalAddressPart_run, readAddressPart_run]
  constructor
  . rintro ⟨entry, mid, hentry, hrest⟩
    cases entry with
    | none =>
      simp only [pure_run_iff] at hrest
      obtain ⟨rfl, rfl⟩ := hrest
      exact ⟨none, .inl ⟨hentry, rfl⟩, rfl⟩
    | some entry =>
      simp only [bind_run_iff, lift_run_iff, pure_run_iff] at hrest
      obtain ⟨address, _, ⟨haddress, rfl⟩, keyTlv, _, hkeyTlv, key, _, ⟨hkey, rfl⟩, rfl, rfl⟩ := hrest
      exact ⟨some ⟨address, entry.2, keyTlv⟩, .inr ⟨entry, mid, ⟨address, entry.2, keyTlv⟩, hentry,
        ⟨haddress, rfl, hkeyTlv⟩, rfl⟩, rfl, hkey, rfl⟩
  . rintro ⟨part, ⟨hentry, rfl⟩ | ⟨entry, mid, found, hentry, ⟨haddress, hvalue, hkeyTlv⟩, rfl⟩, hparts⟩
    . exact ⟨none, next, hentry, by simpa using hparts.symm⟩
    . refine ⟨some entry, mid, hentry, ?_⟩
      obtain ⟨hpartsAddress, hkey, hencoding⟩ := hparts
      simp only [bind_run_iff, lift_run_iff, pure_run_iff]
      refine ⟨found.address, mid, ⟨haddress, rfl⟩, found.publicKey, next, hkeyTlv, parts.key, next,
        ⟨hkey, rfl⟩, ?_, rfl⟩
      rw [← hvalue, ← hencoding, ← hpartsAddress]

theorem readDestination_run {resolver : KeyResolver} {destination : Option Identity}
    : readDestination resolver cursor = .ok (destination, next) ↔
        ∃ part, optionalAddressPart Types.destination cursor = .ok (part, next) ∧
          ((part = none ∧ destination = none) ∨ ∃ found identity, part = some found ∧
            parseIdentity found.value found.publicKey resolver = .ok identity ∧
            destination = some identity) := by
  simp only [readDestination, bind_run_iff, optionalAddressPart_run, readAddressPart_run]
  constructor
  . rintro ⟨entry, mid, hentry, hrest⟩
    cases entry with
    | none =>
      simp only [pure_run_iff] at hrest
      obtain ⟨rfl, rfl⟩ := hrest
      exact ⟨none, .inl ⟨hentry, rfl⟩, .inl ⟨rfl, rfl⟩⟩
    | some entry =>
      simp only [bind_run_iff, lift_run_iff, pure_run_iff] at hrest
      obtain ⟨address, _, ⟨haddress, rfl⟩, keyTlv, _, hkeyTlv, identity, _, ⟨hidentity, rfl⟩, rfl, rfl⟩ := hrest
      exact ⟨some ⟨address, entry.2, keyTlv⟩, .inr ⟨entry, mid, ⟨address, entry.2, keyTlv⟩, hentry,
        ⟨haddress, rfl, hkeyTlv⟩, rfl⟩, .inr ⟨_, identity, rfl, hidentity, rfl⟩⟩
  . rintro ⟨part, ⟨hentry, rfl⟩ | ⟨entry, mid, found, hentry, ⟨haddress, hvalue, hkeyTlv⟩, rfl⟩, hrest⟩
    . obtain ⟨_, rfl⟩ | ⟨_, _, hsome, _⟩ := hrest
      . exact ⟨none, next, hentry, by simp⟩
      . cases hsome
    . obtain ⟨hnone, _⟩ | ⟨_, identity, hsome, hidentity, rfl⟩ := hrest
      . cases hnone
      . cases hsome
        refine ⟨some entry, mid, hentry, ?_⟩
        simp only [bind_run_iff, lift_run_iff, pure_run_iff]
        exact ⟨found.address, mid, ⟨haddress, rfl⟩, found.publicKey, next, hkeyTlv, identity, next,
          ⟨hvalue ▸ hidentity, rfl⟩, rfl, rfl⟩

theorem readMessageHead_iff {children : List OwnedTlv} {resolver : KeyResolver} {origin : AddressPart}
    {signedOrigin : Option AddressPart} {destination : Option Identity}
    : readMessageHead children resolver cursor = .ok ((origin, signedOrigin, destination), next) ↔
        children.head?.map OwnedTlv.typeCode = some Types.origin ∧
        ∃ entry m₁ m₂ m₃, take Types.origin "Message Origin" cursor = .ok (entry, m₁) ∧
          readAddressPart entry.2 m₁ = .ok (origin, m₂) ∧
          optionalAddressPart Types.signedOrigin m₂ = .ok (signedOrigin, m₃) ∧
          readDestination resolver m₃ = .ok (destination, next) := by
  unfold readMessageHead
  rw [guard_run_iff, not_not]
  simp only [bind_run_iff, readDestination_run]
  constructor
  . rintro ⟨hhead, entry, m₁, hentry, part, m₂, hpart, signed, m₃, hsigned, found, m₄, hfound, hrest⟩
    refine ⟨hhead, entry, m₁, m₂, m₃, hentry, ?_⟩
    cases found with
    | none =>
      simp only [pure_run_iff, Prod.mk.injEq] at hrest
      obtain ⟨⟨rfl, rfl, rfl⟩, rfl⟩ := hrest
      exact ⟨hpart, hsigned, none, hfound, .inl ⟨rfl, rfl⟩⟩
    | some found =>
      simp only [bind_run_iff, lift_run_iff, pure_run_iff, Prod.mk.injEq] at hrest
      obtain ⟨identity, _, ⟨hidentity, rfl⟩, ⟨rfl, rfl, rfl⟩, rfl⟩ := hrest
      exact ⟨hpart, hsigned, some found, hfound, .inr ⟨found, identity, rfl, hidentity, rfl⟩⟩
  . rintro ⟨hhead, entry, m₁, m₂, m₃, hentry, hpart, hsigned, found, hfound, hrest⟩
    refine ⟨hhead, entry, m₁, hentry, origin, m₂, hpart, signedOrigin, m₃, hsigned, found, next, hfound, ?_⟩
    obtain ⟨rfl, rfl⟩ | ⟨part, identity, rfl, hidentity, rfl⟩ := hrest
    . simp
    . simp only [bind_run_iff, lift_run_iff, pure_run_iff]
      exact ⟨identity, next, ⟨hidentity, rfl⟩, rfl, rfl⟩

end Provenance

def KludgesValid (lines : List String) : Prop := ∀ line ∈ lines, line.toList.contains '\x01' = false

theorem forM_kludge_run {values : List OwnedTlv} {cursor next : Cursor} {done : Unit}
    : (values.forM (fun value => (do
        let line ← liftM (textValue value)
        if line.toList.contains '\x01' then
          throw (BundleError.unexpected "Control-A in AdditionalKludgeLine")
        else
          pure () : Reader Unit))) cursor = .ok (done, next) ↔
        cursor = next ∧ ∃ lines, values.mapM textValue = .ok lines ∧ KludgesValid lines := by
  let check (value : OwnedTlv) : Except BundleError Unit := do
    let line ← textValue value
    if line.toList.contains '\x01' then
      .error (BundleError.unexpected "Control-A in AdditionalKludgeLine")
    else
      .ok ()
  have hbody : (fun value => (do
      let line ← liftM (textValue value)
      if line.toList.contains '\x01' then
        throw (BundleError.unexpected "Control-A in AdditionalKludgeLine")
      else
        pure () : Reader Unit)) = fun value => (liftM (check value) : Reader Unit) := by
    funext value cursor
    dsimp only [check]
    cases textValue value with
    | error e => rfl
    | ok line =>
      simp only [Except.bind_of_ok]
      split
      . next hline =>
        rw [bind_of_ok (lift_of_ok rfl), if_pos hline]
        rfl
      . next hline =>
        rw [bind_of_ok (lift_of_ok rfl), if_neg hline]
        rfl
  have hcheck : ∀ value, check value = .ok () ↔
      ∃ line, textValue value = .ok line ∧ line.toList.contains '\x01' = false := by
    intro value
    dsimp only [check]
    simp only [Except.bind_ok_iff]
    constructor
    . rintro ⟨line, hline, hrest⟩
      split at hrest
      . cases hrest
      . next hcontrol => exact ⟨line, hline, by simpa using hcontrol⟩
    . rintro ⟨line, hline, hcontrol⟩
      exact ⟨line, hline, by rw [hcontrol]; rfl⟩
  rw [hbody, forM_lift_run hcheck]
  rfl

theorem readMessageSuffix_iff {cursor next : Cursor} {requestIdentifier : UInt64}
    : readMessageSuffix cursor = .ok (requestIdentifier, next) ↔
        ∃ m₁ m₂ m₃ route lines,
          takeNumber Types.requestIdentifier "Message RequestIdentifier" cursor =
            .ok (requestIdentifier, m₁) ∧
          readMessageRoute m₁ = .ok (route, m₂) ∧
          repeatedValues Types.additionalKludgeLine textValue m₂ = .ok (lines, m₃) ∧
          KludgesValid lines ∧ finish m₃ = .ok ((), next) := by
  simp only [readMessageSuffix, readMessageRoute, bind_run_iff, pure_run_iff, guard_run_iff,
    forM_discard_run]
  constructor
  . rintro ⟨number, m₁, hnumber, viaTlvs, _, hviaTlvs, hsome, _, _, ⟨rfl, vias, hvias⟩, hrest⟩
    obtain ⟨seenBy, _, hseenBy, _, hrest⟩ := (optional_check decode_run).mp hrest
    simp only [bind_run_iff, pure_run_iff, forM_kludge_run] at hrest
    obtain ⟨lineTlvs, m₃, hlineTlvs, _, _, ⟨rfl, lines, hlines, hvalid⟩, _, last, hfinish, rfl, rfl⟩ := hrest
    rw [isEmpty_of_mapM hvias] at hsome
    exact ⟨m₁, _, m₃, ⟨vias, seenBy.getD []⟩, lines, hnumber, ⟨vias, _,
      repeatedValues_run.mpr ⟨viaTlvs, hviaTlvs, hvias⟩, hsome, seenBy, _, hseenBy, rfl, rfl⟩,
      repeatedValues_run.mpr ⟨lineTlvs, hlineTlvs, hlines⟩, hvalid, hfinish⟩
  . rintro ⟨m₁, m₂, m₃, _, lines, hnumber, ⟨vias, _, hvias, hsome, seenBy, _, hseenBy, rfl, rfl⟩, hlines,
      hvalid, hfinish⟩
    obtain ⟨viaTlvs, hviaTlvs, hvias⟩ := repeatedValues_run.mp hvias
    obtain ⟨lineTlvs, hlineTlvs, hlines⟩ := repeatedValues_run.mp hlines
    rw [← isEmpty_of_mapM hvias] at hsome
    refine ⟨requestIdentifier, m₁, hnumber, viaTlvs, _, hviaTlvs, hsome, (), _, ⟨rfl, vias, hvias⟩, ?_⟩
    refine (optional_check decode_run).mpr ⟨seenBy, _, hseenBy, by simp, ?_⟩
    simp only [bind_run_iff, pure_run_iff, forM_kludge_run]
    exact ⟨lineTlvs, m₃, hlineTlvs, (), m₃, ⟨rfl, lines, hlines, hvalid⟩, (), next, hfinish, trivial, rfl⟩

structure MessageReading (value : OwnedTlv) (resolver : KeyResolver) where
  children : List OwnedTlv
  origin : Address × Option PublicKey
  signedOrigin : SignedOriginParts
  destination : Option Identity
  words : MessageWords
  controls : MessageControls
  signature : Option Signature × List UInt8
  requestIdentifier : UInt64
  route : ItemRoute
  lines : List String
  afterOrigin : Cursor
  afterSigned : Cursor
  afterHead : Cursor
  afterWords : Cursor
  afterControls : Cursor
  afterSignature : Cursor
  afterRequest : Cursor
  afterRoute : Cursor
  afterLines : Cursor
  last : Cursor
  hchildren : parseChildren value.value = .ok children
  readOrigin : readOrigin "Message Origin" (Cursor.new children) = .ok (origin, afterOrigin)
  readSigned : readSignedOrigin afterOrigin = .ok (signedOrigin, afterSigned)
  readDestination : readDestination resolver afterSigned = .ok (destination, afterHead)
  readWords : readWords afterHead = .ok (words, afterWords)
  readControls : readControls afterWords = .ok (controls, afterControls)
  readSignature : readSignature children afterControls = .ok (signature, afterSignature)
  readRequest : takeNumber Types.requestIdentifier "Message RequestIdentifier" afterSignature =
    .ok (requestIdentifier, afterRequest)
  readRoute : readMessageRoute afterRequest = .ok (route, afterRoute)
  readLines : repeatedValues Types.additionalKludgeLine textValue afterRoute = .ok (lines, afterLines)
  finished : finish afterLines = .ok ((), last)

def MessageReading.message {value : OwnedTlv} {resolver : KeyResolver} (run : MessageReading value resolver)
    : ReadMessage where
  data := messageData run.destination run.words run.controls run.lines
  signing := itemSigning run.origin run.signedOrigin run.signature
  requestIdentifier := run.requestIdentifier
  vias := run.route.vias
  seenBy := run.route.seenBy

theorem readMessage_iff {value : OwnedTlv} {resolver : KeyResolver} {read : ReadMessage}
    (htype : value.typeCode = Types.message)
    : readMessage value resolver = .ok read ↔
        ∃ run : MessageReading value resolver, run.message = read := by
  unfold readMessage
  rw [if_neg (by simp [htype])]
  constructor
  . intro h
    simp only [Cursor.read, Except.bind_ok_iff, bind_run_iff, Prod.exists, pure_run_iff] at h
    obtain ⟨children, hchildren, result, _, ⟨origin, originKey, _, horigin, signedOrigin, _, hsigned,
      destination, _, hdestination, words, _, hwords, controls, _, hcontrols, signature, region, _, hsignature,
      request, _, hrequest, route, _, hroute, lines, _, hlines, _, _, hfinish, hresult, _⟩, hread⟩ := h
    injection hread with hread
    subst hread
    exact ⟨⟨children, (origin, originKey), signedOrigin, destination, words, controls, (signature, region),
      request, route, lines, _, _, _, _, _, _, _, _, _, _, hchildren, horigin, hsigned, hdestination, hwords,
      hcontrols, hsignature, hrequest, hroute, hlines, hfinish⟩, hresult⟩
  . rintro ⟨run, rfl⟩
    simp only [Cursor.read, run.hchildren, Except.bind_of_ok, bind_of_ok run.readOrigin,
      bind_of_ok run.readSigned, bind_of_ok run.readDestination, bind_of_ok run.readWords,
      bind_of_ok run.readControls, bind_of_ok run.readSignature, bind_of_ok run.readRequest,
      bind_of_ok run.readRoute, bind_of_ok run.readLines, bind_of_ok run.finished]
    rfl

structure FileReading (value : OwnedTlv) where
  children : List OwnedTlv
  body : FileBody
  area : Option AreaData
  origin : Address × Option PublicKey
  signedOrigin : SignedOriginParts
  metadata : FileMetadata
  signature : Option Signature × List UInt8
  requestIdentifier : UInt64
  vias : List ViaData
  seenBy : List (List Address)
  afterBody : Cursor
  afterArea : Cursor
  afterOrigin : Cursor
  afterSigned : Cursor
  afterMetadata : Cursor
  afterSignature : Cursor
  afterRequest : Cursor
  afterVias : Cursor
  afterSeenBy : Cursor
  last : Cursor
  hchildren : parseChildren value.value = .ok children
  readBody : readFileBody "File Contents" (Cursor.new children) = .ok (body, afterBody)
  readArea : optionalArea afterBody = .ok (area, afterArea)
  readOrigin : readOrigin "standalone File Origin" afterArea = .ok (origin, afterOrigin)
  readSigned : readSignedOrigin afterOrigin = .ok (signedOrigin, afterSigned)
  readMetadata : readMetadata afterSigned = .ok (metadata, afterMetadata)
  readSignature : readSignature children afterMetadata = .ok (signature, afterSignature)
  readRequest : takeNumber Types.requestIdentifier "File RequestIdentifier" afterSignature =
    .ok (requestIdentifier, afterRequest)
  readVias : repeatedValues Types.via readVia afterRequest = .ok (vias, afterVias)
  readSeenBy : repeatedValues Types.seenBy seenByAddresses afterVias = .ok (seenBy, afterSeenBy)
  finished : finish afterSeenBy = .ok ((), last)

def FileReading.file {value : OwnedTlv} (run : FileReading value) : ReadFile where
  data := standaloneFileData run.body run.area run.metadata
  signing := itemSigning run.origin run.signedOrigin run.signature
  requestIdentifier := run.requestIdentifier
  vias := run.vias
  seenBy := run.seenBy.flatten

theorem readFileWay_run {cursor next : Cursor} {route : ItemRoute}
    : readFileWay cursor = .ok (route, next) ↔
        ∃ vias mid seenBy, repeatedValues Types.via readVia cursor = .ok (vias, mid) ∧
          repeatedValues Types.seenBy seenByAddresses mid = .ok (seenBy, next) ∧
          route = ⟨vias, seenBy.flatten⟩ := by
  simp only [readFileWay, bind_run_iff, pure_run_iff]
  constructor
  . rintro ⟨vias, mid, hvias, seenBy, _, hseenBy, rfl, rfl⟩
    exact ⟨vias, mid, seenBy, hvias, hseenBy, rfl⟩
  . rintro ⟨vias, mid, seenBy, hvias, hseenBy, rfl⟩
    exact ⟨vias, mid, hvias, seenBy, next, hseenBy, rfl, rfl⟩

theorem readStandaloneFile_iff {value : OwnedTlv} {read : ReadFile} (htype : value.typeCode = Types.file)
    : readStandaloneFile value = .ok read ↔ ∃ run : FileReading value, run.file = read := by
  unfold readStandaloneFile
  rw [if_neg (by simp [htype])]
  constructor
  . intro h
    simp only [Cursor.read, Except.bind_ok_iff, bind_run_iff, Prod.exists, pure_run_iff,
      readFileWay_run] at h
    obtain ⟨children, hchildren, result, _, ⟨body, _, hbody, area, _, harea, origin, originKey, _, horigin,
      signedOrigin, _, hsigned, metadata, _, hmetadata, signature, region, _, hsignature, request, _, hrequest,
      _, _, ⟨vias, _, seenBy, hvias, hseenBy, rfl⟩, _, _, hfinish, hresult, _⟩, hread⟩ := h
    injection hread with hread
    subst hread
    exact ⟨⟨children, body, area, (origin, originKey), signedOrigin, metadata, (signature, region), request,
      vias, seenBy, _, _, _, _, _, _, _, _, _, _, hchildren, hbody, harea, horigin, hsigned, hmetadata,
      hsignature, hrequest, hvias, hseenBy, hfinish⟩, hresult⟩
  . rintro ⟨run, rfl⟩
    have hway := readFileWay_run.mpr ⟨run.vias, run.afterVias, run.seenBy, run.readVias, run.readSeenBy, rfl⟩
    simp only [Cursor.read, run.hchildren, Except.bind_of_ok, bind_of_ok run.readBody,
      bind_of_ok run.readArea, bind_of_ok run.readOrigin, bind_of_ok run.readSigned,
      bind_of_ok run.readMetadata, bind_of_ok run.readSignature, bind_of_ok run.readRequest,
      bind_of_ok hway, bind_of_ok run.finished]
    rfl

end Tith
