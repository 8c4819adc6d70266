import Tith.Lib.List
import Tith.Nodelist.Lemmas.Validator
import Tith.Nodelist.Stream

/-!
This module contains the agreement of the writer with the reader: the reader rebuilds the validator of
the writer from the output alone, as long as no refused call has changed it.
-/

namespace Tith

namespace Nodelist

/-!
Reading lines.
-/

/--
The lines are read one after the other, each as a record.
-/
inductive Reads (base64 : Base64) : Validator → List (List Char) → List Record → Validator → Prop where
  | nil (validator : Validator) : Reads base64 validator [] [] validator
  | cons {validator next last : Validator} {line : List Char} {lines : List (List Char)} {record : Record}
      {records : List Record} (hfeed : '\n' ∉ line)
      (hline : validator.parseLine base64 line = (.ok record, next))
      (hrest : Reads base64 next lines records last)
      : Reads base64 validator (line :: lines) (record :: records) last

theorem Reads.concat {base64 : Base64} {validator middle last : Validator} {line : List Char}
    {lines : List (List Char)} {record : Record} {records : List Record}
    (h : Reads base64 validator lines records middle) (hfeed : '\n' ∉ line)
    (hline : middle.parseLine base64 line = (.ok record, last))
    : Reads base64 validator (lines ++ [line]) (records ++ [record]) last := by
  induction h with
  | nil => exact .cons hfeed hline (.nil last)
  | cons hfeed' hline' _ ih => exact .cons hfeed' hline' (ih hline)

theorem lineBytes_eq (line : List Char)
    : lineBytes line = Bytes.ofString (String.ofList line) ++ [lineFeed] := by
  unfold lineBytes
  rw [Bytes.ofString_ofList, Bytes.ofString_ofList, List.flatMap_append]
  rfl

theorem next_lineBytes {base64 : Base64} {reader : NodelistReader} {line : List Char} {rest : List UInt8}
    {record : Record} {validator : Validator} (hdone : reader.done = false) (hfeed : '\n' ∉ line)
    (hrest : reader.rest = lineBytes line ++ rest)
    (hline : reader.validator.parseLine base64 line = (.ok record, validator))
    : reader.next base64 =
        (some (.ok record),
          { rest := rest
            validator := validator
            line := reader.line + 1
            done := false }) := by
  have hnot : lineFeed ∉ Bytes.ofString (String.ofList line) :=
    Bytes.not_mem_ofString_ofList (by decide) rfl hfeed
  have hspan : reader.rest.span (· ≠ lineFeed) =
      (Bytes.ofString (String.ofList line), lineFeed :: rest) := by
    rw [hrest, lineBytes_eq, List.append_assoc]
    apply List.span_append
    . intro b hb
      simp only [decide_eq_true_eq]
      rintro rfl
      exact hnot hb
    . simp
  unfold NodelistReader.next
  rw [if_neg (by simp [hdone]), hspan]
  dsimp only
  rw [Bytes.toString?_ofString]
  simp only [String.toList_ofList, hline, hdone]

theorem items_go_of_reads {base64 : Base64} {validator last : Validator} {lines : List (List Char)}
    {records : List Record} (h : Reads base64 validator lines records last)
    (hlast : (last.requiresData && last.firstData) = false) {reader : NodelistReader} {fuel : Nat}
    (hvalidator : reader.validator = validator) (hdone : reader.done = false)
    (hrest : reader.rest = lines.flatMap lineBytes) (hfuel : lines.length < fuel)
    : NodelistReader.items.go base64 fuel reader = records.map .ok := by
  induction h generalizing reader fuel with
  | nil last =>
    obtain ⟨fuel, rfl⟩ : ∃ n, fuel = n + 1 := ⟨fuel - 1, by simp at hfuel; omega⟩
    have hnext : (reader.next base64).1 = none := by
      unfold NodelistReader.next
      rw [if_neg (by simp [hdone]), hrest]
      simp [List.span, List.span.loop, hvalidator, hlast]
    unfold NodelistReader.items.go
    split
    . rfl
    . next item _ heq =>
      rw [heq] at hnext
      cases hnext
  | cons hfeed hline _ ih =>
    obtain ⟨fuel, rfl⟩ : ∃ n, fuel = n + 1 := ⟨fuel - 1, by simp at hfuel; omega⟩
    rw [List.flatMap_cons] at hrest
    rw [← hvalidator] at hline
    unfold NodelistReader.items.go
    rw [next_lineBytes hdone hfeed hrest hline]
    dsimp only
    rw [ih hlast rfl rfl rfl (by simp at hfuel; omega)]
    rfl

theorem length_le_lineBytes (lines : List (List Char))
    : lines.length ≤ (lines.flatMap lineBytes).length := by
  induction lines with
  | nil => simp
  | cons line lines ih =>
    rw [List.flatMap_cons, List.length_append, lineBytes_eq, List.length_append, List.length_cons,
      List.length_singleton]
    omega

/-!
Lines of the writer.
-/

theorem not_feed_of_parseDataLine {base64 : Base64} {validator next : Validator} {rawLine : List Char}
    {entry : Entry} (h : validator.parseDataLine base64 rawLine = (.ok entry, next))
    : '\n' ∉ rawLine := by
  intro hmem
  have hprohibited : rawLine.any (fun c => prohibitedCharacter c && c ≠ '\t') = true := by
    rw [List.any_eq_true]
    exact ⟨'\n', hmem, by decide⟩
  have hhead : validator.readHead rawLine = .error .controlCharacter := by
    unfold Validator.readHead
    rw [if_pos hprohibited]
  unfold Validator.parseDataLine at h
  rw [hhead] at h
  injection h with h
  cases h

theorem head?_entryLine (base64 : Base64) (input : EntryInput) : (entryLine base64 input).head? ≠ some ';' := by
  unfold entryLine
  cases input.keyword <;> simp [keywordText, List.intercalate_cons_cons]

theorem parseLine_of_head {base64 : Base64} {validator : Validator} {rawLine : List Char}
    (h : rawLine.head? ≠ some ';')
    : validator.parseLine base64 rawLine =
        (((validator.parseDataLine base64 rawLine).1.map .entry),
          (validator.parseDataLine base64 rawLine).2) := by
  unfold Validator.parseLine
  split
  . simp at h
  . rfl

theorem splitComment_comment {comment : Comment} (h : validComment comment = true)
    : splitComment (comment.interests ++ comment.text) = comment := by
  unfold validComment at h
  simp only [Bool.and_eq_true, List.all_eq_true, Bool.not_eq_true'] at h
  unfold splitComment
  rw [List.span_append h.1]
  intro c hc
  cases hhead : comment.text.head? with
  | none =>
    rw [hhead] at hc
    cases hc
  | some d =>
    rw [hhead] at hc h
    cases hc
    simpa using h.2

theorem parseLine_commentLine (base64 : Base64) (validator : Validator) {comment : Comment}
    (h : validComment comment = true)
    : (validator.parseLine base64 (commentLine comment) = (.error (some .controlCharacter), validator)) ∨
      ('\n' ∉ commentLine comment ∧
        validator.parseLine base64 (commentLine comment) = (.ok (.comment comment), validator)) := by
  have hline : validator.parseLine base64 (commentLine comment) =
      if (commentLine comment).any prohibitedCharacter then
        (.error (some .controlCharacter), validator)
      else
        (.ok (.comment (splitComment (comment.interests ++ comment.text))), validator) := rfl
  rw [hline]
  split
  . left
    rfl
  . next hprohibited =>
    right
    constructor
    . intro hmem
      apply hprohibited
      rw [List.any_eq_true]
      exact ⟨'\n', hmem, by decide⟩
    . rw [splitComment_comment h]

/-!
Calls that leave the validator as it is, or add their record to it.
-/

/--
The ways in which `write_entry` ends well: the record is refused by a check in front of every change,
it is refused later and what has been changed is as it was before, or no check refuses it and all its
bytes are taken.
-/
inductive Harmless (base64 : Base64) (validator : Validator) (rawLine : List Char)
    (source : PublicationSource) (outcome : WriteOutcome)
    : Prop where
  | refused {kind : NodelistErrorKind} (hhead : validator.readHead rawLine = .error kind)
  | noNumber {keyword : Keyword} {fields : Fields}
      (hhead : validator.readHead rawLine = .ok (keyword, fields))
      (hnumber : parseNodeNumber fields.number = none) (hlater : validator.firstData = false)
  | noHost {fields : Fields} {number : Int} (hhead : validator.readHead rawLine = .ok (.hub, fields))
      (hnumber : parseNodeNumber fields.number = some number) (hhost : validator.hierarchy.host = none)
  | repeated {keyword : Keyword} {fields : Fields} {number : Int} {address : Address}
      (hhead : validator.readHead rawLine = .ok (keyword, fields))
      (hnumber : parseNodeNumber fields.number = some number)
      (haddress : addressFor validator.domain validator.hierarchy keyword number =
        .ok (address, validator.hierarchy))
      (hused : address ∈ validator.addresses)
  | accepted {keyword : Keyword} {fields : Fields} {number : Int} {address : Address}
      {hierarchy : Hierarchy} {flags : RecordFlags}
      (hhead : validator.readHead rawLine = .ok (keyword, fields))
      (hnumber : parseNodeNumber fields.number = some number)
      (haddress : addressFor validator.domain validator.hierarchy keyword number =
        .ok (address, hierarchy))
      (hunused : address ∉ validator.addresses)
      (hbody : readBody base64 keyword fields hierarchy = .ok flags)
      (hsystem : validSystemFlags flags.systemFlags = true)
      (hother : ∀ zone, hierarchy.zone = some zone →
        (admitFlags (coordinatorScope keyword address zone hierarchy) validator.coordinators
          flags.otherFlags).1 = true)
      (hsource : ∀ key, source = .firstPublicationFromAnonymousApplication key →
        ∃ endpoints, tithService flags.internetFlags = .ok (some ⟨endpoints, key⟩))
      (hwritten : outcome = .written)

/--
A call that is harmless in the state of the writer in front of it. A comment changes nothing but the
output, so only a part of its line may not be written.
-/
def HarmlessCall (base64 : Base64) (writer : NodelistWriter) (call : WriteCall) : Prop :=
  match call with
  | .comment comment outcome =>
    validComment comment = false ∨ (commentLine comment).any prohibitedCharacter = true ∨
      outcome = .written ∨ outcome = .failed 0
  | .entry input source outcome =>
    Harmless base64 writer.validator (entryLine base64 input) source outcome

theorem validateFlags_valid {validator : Validator} {zone : Int} (keyword : Keyword) (address : Address)
    {flags : RecordFlags} (hzone : validator.hierarchy.zone = some zone)
    (hsystem : validSystemFlags flags.systemFlags = true)
    (hother : (admitFlags (coordinatorScope keyword address zone validator.hierarchy)
      validator.coordinators flags.otherFlags).1 = true)
    : (validateFlags validator keyword address flags).1 = .ok () := by
  unfold validateFlags
  rw [if_neg (by simp [hsystem])]
  simp only [hzone, hother, if_true]

theorem parseDataLine_harmless {base64 : Base64} {validator : Validator} {rawLine : List Char}
    {source : PublicationSource} {outcome : WriteOutcome} (hready : Ready validator)
    (h : Harmless base64 validator rawLine source outcome)
    : (∃ kind, validator.parseDataLine base64 rawLine = (.error (some kind), validator)) ∨
      (∃ entry next, validator.parseDataLine base64 rawLine = (.ok entry, next) ∧
        validPublicationSource entry source = true ∧ outcome = .written) := by
  have hstay : validator.firstData = false → { validator with firstData := false } = validator := by
    intro hfirst
    cases validator
    cases hfirst
    rfl
  unfold Validator.parseDataLine
  cases h with
  | refused hhead =>
    left
    rw [hhead]
    exact ⟨_, rfl⟩
  | noNumber hhead hnumber hlater =>
    left
    rw [hhead]
    dsimp only
    rw [hnumber]
    exact ⟨_, Prod.ext rfl (hstay hlater)⟩
  | noHost hhead hnumber hhost =>
    left
    have hlater : validator.firstData = false := by
      -- The first record of a segment within a net has the host of the net.
      by_contra hfirst
      have hsome := (hready.of_readHead hhead (by decide)).2 (by simpa using hfirst) rfl
      rw [hhost] at hsome
      cases hsome
    rw [hhead]
    dsimp only
    rw [hnumber]
    simp only [addressFor, hhost, Option.okOr_none, Except.bind_of_error]
    exact ⟨_, Prod.ext rfl (hstay hlater)⟩
  | repeated hhead hnumber haddress hused =>
    left
    have hlater : validator.firstData = false := by
      by_contra hfirst
      rw [hready.fresh (by simpa using hfirst)] at hused
      simp at hused
    rw [hhead]
    dsimp only
    rw [hnumber]
    dsimp only
    rw [haddress]
    dsimp only
    rw [if_pos hused]
    exact ⟨_, Prod.ext rfl (hstay hlater)⟩
  | @accepted keyword fields number address hierarchy flags hhead hnumber haddress hunused hbody hsystem
      hother hsource hwritten =>
    right
    have hrange := parseNodeNumber_range hnumber
    rcases addressFor_cases hready hrange (fun hkeyword => (hready.of_readHead hhead hkeyword).1) with
      ⟨-, -, herror⟩ | ⟨address', hierarchy', haddress', hzone, hnumbered⟩
    . rw [haddress] at herror
      cases herror
    . rw [haddress] at haddress'
      cases haddress'
      obtain ⟨zone, hsome⟩ := Option.isSome_iff_exists.mp hzone
      rw [hhead]
      dsimp only
      rw [hnumber]
      dsimp only
      rw [haddress]
      dsimp only
      rw [if_neg hunused, hbody]
      dsimp only
      -- The validator with the address of the record in it.
      generalize hentered : ({ validator with
        firstData := false
        hierarchy := hierarchy
        addresses := insert address validator.addresses } : Validator) = entered
      have hfields : entered.hierarchy = hierarchy ∧ entered.coordinators = validator.coordinators := by
        rw [← hentered]
        exact ⟨rfl, rfl⟩
      have hentry : Ready entered := by
        rw [← hentered]
        exact hready.of_fields rfl rfl hzone hnumbered
      rcases hflags : validateFlags entered keyword address flags with ⟨result, next⟩
      have hvalid : (validateFlags entered keyword address flags).1 = .ok () := by
        apply validateFlags_valid keyword address (by rw [hfields.1]; exact hsome) hsystem
        rw [hfields.1, hfields.2]
        exact hother zone hsome
      obtain ⟨coordinators, hnext, -⟩ := validateFlags_cases entered
        (by rw [hfields.1]; exact hzone) keyword address flags
      rw [hflags] at hnext hvalid
      dsimp only at hnext hvalid
      subst hvalid
      dsimp only
      have hnextReady : Ready next := by
        rw [hnext, ← hentered]
        exact hready.of_fields rfl rfl hzone hnumbered
      obtain ⟨entry, hok, htith⟩ := buildEntry_isOk hnextReady
        (by rw [hnext, ← hentered]; exact hzone) keyword fields address flags
      rw [hok]
      refine ⟨entry, next, rfl, ?_, hwritten⟩
      unfold validPublicationSource
      split
      . rfl
      . next key =>
        obtain ⟨endpoints, hservice⟩ := hsource key rfl
        rw [hservice] at htith
        injection htith with htith
        simp [htith]

/-!
Runs of the writer.
-/

/--
The records of the calls so far are what the output reads as, and reading it ends in the validator of
the writer.
-/
structure Tracks (base64 : Base64) (start : Validator) (records : List Record) (writer : NodelistWriter)
    : Prop where
  ready : Ready writer.validator
  read : ∃ lines, writer.output = lines.flatMap lineBytes ∧
    Reads base64 start lines records writer.validator

theorem Tracks.write {base64 : Base64} {start next : Validator} {records : List Record}
    {writer : NodelistWriter} {line : List Char} {record : Record} (h : Tracks base64 start records writer)
    (hready : Ready next) (hfeed : '\n' ∉ line)
    (hline : writer.validator.parseLine base64 line = (.ok record, next)) (number : Nat)
    : Tracks base64 start (records ++ [record])
        { output := writer.output ++ lineBytes line
          validator := next
          line := number } := by
  obtain ⟨lines, houtput, hreads⟩ := h.read
  refine ⟨hready, lines ++ [line], ?_, hreads.concat hfeed hline⟩
  rw [List.flatMap_append, houtput]
  simp

/--
What one harmless call does: it does not panic, it leaves the validator alone when it fails, and
when it succeeds the output reads as its record too.
-/
structure StepsWell (base64 : Base64) (start : Validator) (records : List Record)
    (writer : NodelistWriter) (result : Except Fault Record) (next : NodelistWriter)
    : Prop where
  safe : result ≠ .error .panic
  kept : ∀ fault, result = .error fault → next.validator = writer.validator
  tracks : Tracks base64 start (records ++ (succeeded [result])) next

theorem StepsWell.refused {base64 : Base64} {start : Validator} {records : List Record}
    {writer : NodelistWriter} (h : Tracks base64 start records writer) {line : Nat}
    (kind : NodelistErrorKind) (number : Nat)
    : StepsWell base64 start records writer (.error (.error number kind)) { writer with line := line } where
  safe := by simp
  kept := fun _ _ => rfl
  tracks := by
    obtain ⟨lines, houtput, hreads⟩ := h.read
    refine ⟨h.ready, lines, houtput, ?_⟩
    have hnone : succeeded [.error (.error number kind)] = [] := rfl
    rw [hnone, List.append_nil]
    exact hreads

theorem writeStep_comment {base64 : Base64} {start : Validator} {records : List Record}
    {writer : NodelistWriter} (h : Tracks base64 start records writer) (comment : Comment)
    (outcome : WriteOutcome) (hcall : HarmlessCall base64 writer (.comment comment outcome))
    : StepsWell base64 start records writer (writeStep base64 writer (.comment comment outcome)).1
        (writeStep base64 writer (.comment comment outcome)).2 := by
  unfold writeStep NodelistWriter.writeComment
  dsimp only
  split
  . exact StepsWell.refused h .invalidComment (writer.line + 1)
  . next hvalid =>
    have hvalid : validComment comment = true := by simpa using hvalid
    rcases parseLine_commentLine base64 writer.validator hvalid with hrefused | ⟨hfeed, hread⟩
    . rw [hrefused]
      exact StepsWell.refused h .controlCharacter (writer.line + 1)
    . rw [hread]
      dsimp only
      unfold NodelistWriter.writeAll
      cases outcome with
      | written =>
        refine ⟨nofun, nofun, ?_⟩
        exact h.write h.ready hfeed hread (writer.line + 1)
      | failed bytes =>
        -- The line has no prohibited character, so only a write of nothing is left.
        have hbytes : bytes = 0 := by
          rcases hcall with hcall | hcall | hcall | hcall
          . rw [hvalid] at hcall
            cases hcall
          . have hrefused : writer.validator.parseLine base64 (commentLine comment) =
                (.error (some .controlCharacter), writer.validator) := by
              have hdef : writer.validator.parseLine base64 (commentLine comment) =
                  if (commentLine comment).any prohibitedCharacter then _ else _ := rfl
              rw [hdef, if_pos hcall]
            rw [hread] at hrefused
            injection hrefused with hrefused
            cases hrefused
          . cases hcall
          . injection hcall
        subst hbytes
        have hnothing : writer.output ++ (lineBytes (commentLine comment)).take 0 = writer.output := by simp
        dsimp only
        rw [hnothing]
        exact StepsWell.refused h .io (writer.line + 1)

theorem writeStep_entry {base64 : Base64} {start : Validator} {records : List Record}
    {writer : NodelistWriter} (h : Tracks base64 start records writer) (input : EntryInput)
    (source : PublicationSource) (outcome : WriteOutcome)
    (hcall : HarmlessCall base64 writer (.entry input source outcome))
    : StepsWell base64 start records writer (writeStep base64 writer (.entry input source outcome)).1
        (writeStep base64 writer (.entry input source outcome)).2 := by
  unfold writeStep NodelistWriter.writeEntry
  dsimp only
  rcases parseDataLine_harmless h.ready hcall with ⟨kind, hparse⟩ | ⟨entry, next, hparse, hsource, rfl⟩
  . rw [hparse]
    exact StepsWell.refused h kind (writer.line + 1)
  . have hready := (parseDataLine_ready h.ready base64 (entryLine base64 input)).2
    have hread : writer.validator.parseLine base64 (entryLine base64 input) = (.ok (.entry entry), next) := by
      rw [parseLine_of_head (head?_entryLine base64 input), hparse]
      rfl
    rw [hparse] at hready ⊢
    simp only [hsource, Bool.not_true, Bool.false_eq_true, if_false]
    unfold NodelistWriter.writeAll
    refine ⟨nofun, nofun, ?_⟩
    exact h.write (hready entry rfl) (not_feed_of_parseDataLine hparse) hread (writer.line + 1)

theorem writeStep_harmless {base64 : Base64} {start : Validator} {records : List Record}
    {writer : NodelistWriter} (h : Tracks base64 start records writer) {call : WriteCall}
    (hcall : HarmlessCall base64 writer call)
    : StepsWell base64 start records writer (writeStep base64 writer call).1
        (writeStep base64 writer call).2 := by
  cases call with
  | comment comment outcome => exact writeStep_comment h comment outcome hcall
  | entry input source outcome => exact writeStep_entry h input source outcome hcall

theorem run_tracks {base64 : Base64} {start : Validator} {records : List Record}
    {writer : NodelistWriter} (init : NodelistWriter) (h : Tracks base64 start records writer)
    {calls : List WriteCall}
    (hcalls : (writerMachine base64 init).Along (HarmlessCall base64) writer calls)
    : (writerMachine base64 init).Along (fun writer call =>
          (writeStep base64 writer call).1 ≠ .error .panic ∧
            (∀ fault, (writeStep base64 writer call).1 = .error fault →
              (writeStep base64 writer call).2.validator = writer.validator)) writer calls ∧
        Tracks base64 start (records ++ succeeded ((writerMachine base64 init).outputs writer calls))
          ((writerMachine base64 init).run writer calls) := by
  induction calls generalizing writer records with
  | nil =>
    refine ⟨trivial, ?_⟩
    simpa [succeeded] using h
  | cons call calls ih =>
    have hstep := writeStep_harmless h hcalls.1
    obtain ⟨hsafe, htracks⟩ := ih hstep.tracks hcalls.2
    refine ⟨⟨⟨hstep.safe, hstep.kept⟩, hsafe⟩, ?_⟩
    have houtputs : records ++ succeeded ((writerMachine base64 init).outputs writer (call :: calls)) =
        records ++ succeeded [(writeStep base64 writer call).1] ++
          succeeded ((writerMachine base64 init).outputs (writeStep base64 writer call).2 calls) := by
      unfold succeeded
      rw [Machine.outputs_cons, List.append_assoc, ← List.filterMap_append]
      rfl
    rw [houtputs]
    exact htracks

theorem ready_new (context : SegmentContext) (requiresData : Bool)
    : Ready (Validator.new context requiresData) := by
  obtain ⟨domain, initial, hvalid⟩ := context
  have hdomain : validateDomain domain = .ok () := by
    cases hcheck : validateDomain domain with
    | ok => rfl
    | error e => simp [validateAddress, hcheck] at hvalid
  -- None of the three contexts has the zone of the anonymous addresses.
  have hzone : initial.numbers.1 ≠ -1 := by
    intro hanonymous
    have hnode : ∀ net, validateAddress domain (-1) net 0 0 ≠ .ok () := by
      intro net
      simp [validateAddress, hdomain]
    rw [hanonymous] at hvalid
    exact hnode _ hvalid
  have hlisted : domain ≠ "p2p" := by
    intro hp2p
    unfold validateAddress at hvalid
    rw [hdomain] at hvalid
    dsimp only at hvalid
    rw [if_pos ⟨hp2p, hzone⟩] at hvalid
    cases hvalid
  have hrange : 1 ≤ initial.numbers.1 ∧ initial.numbers.1 ≤ 32767 :=
    (@Address.listed_numbers ⟨domain, _, _, 0, 0, hvalid⟩ hzone).1
  cases initial with
  | zone =>
    refine ⟨hdomain, hlisted, ⟨nofun, nofun, nofun⟩, nofun, ?_, fun _ => rfl⟩
    intro _ keyword hadmits hkeyword
    exact absurd (by simpa [InitialContext.admits, Validator.new] using hadmits) hkeyword
  | withinZone zone =>
    refine ⟨hdomain, hlisted, ⟨?_, nofun, nofun⟩, nofun, ?_, fun _ => rfl⟩
    . intro z hz
      injection hz with hz
      rw [← hz]
      exact hrange
    . intro _ keyword hadmits _
      refine ⟨rfl, ?_⟩
      rintro rfl
      simp [InitialContext.admits, Validator.new] at hadmits
  | withinLocalNet zone net =>
    refine ⟨hdomain, hlisted, ⟨?_, nofun, ?_⟩, nofun, ?_, fun _ => rfl⟩
    . intro z hz
      injection hz with hz
      rw [← hz]
      exact hrange
    . intro host hhost
      injection hhost with hhost
      rw [← hhost]
      exact hzone
    . intro _ keyword _ _
      exact ⟨rfl, fun _ => rfl⟩

theorem Scope.validator_ready {scope : Scope} {validator : Validator} (h : scope.validator = .ok validator)
    : Ready validator := by
  cases scope with
  | segment context =>
    injection h with h
    rw [← h]
    exact ready_new context true
  | distribution domain =>
    unfold Scope.validator at h
    rw [Except.bind_ok_iff] at h
    obtain ⟨context, -, h⟩ := h
    injection h with h
    rw [← h]
    exact ready_new context false

/--
In a run of calls that are all harmless no call panics, every call that fails leaves the validator as
it was, and a finished output reads as the records of the calls that succeeded.
-/
theorem writer_read_back (base64 : Base64) (scope : Scope) (writer : NodelistWriter)
    (hwriter : NodelistWriter.ofScope scope = .ok writer) (calls : List WriteCall)
    (hcalls : (writerMachine base64 writer).Along (HarmlessCall base64) writer calls)
    : (writerMachine base64 writer).Along (fun writer call =>
          (writeStep base64 writer call).1 ≠ .error .panic ∧
            (∀ fault, (writeStep base64 writer call).1 = .error fault →
              (writeStep base64 writer call).2.validator = writer.validator)) writer calls ∧
        ∀ flushed bytes, ((writerMachine base64 writer).run writer calls).finish flushed = .ok bytes →
          ∃ reader, NodelistReader.ofScope scope bytes = .ok reader ∧
            reader.items base64 =
              (succeeded ((writerMachine base64 writer).outputs writer calls)).map .ok := by
  unfold NodelistWriter.ofScope at hwriter
  rw [Except.bind_ok_iff] at hwriter
  obtain ⟨validator, hvalidator, hwriter⟩ := hwriter
  injection hwriter with hwriter
  have hstart : Tracks base64 validator [] writer := by
    rw [← hwriter]
    exact ⟨Scope.validator_ready hvalidator, [], rfl, .nil validator⟩
  obtain ⟨hsafe, htracks⟩ := run_tracks writer hstart hcalls
  refine ⟨hsafe, ?_⟩
  intro flushed bytes hfinish
  unfold NodelistWriter.finish at hfinish
  split at hfinish
  . cases hfinish
  . next hdata =>
    split at hfinish
    . cases hfinish
    . injection hfinish with hfinish
      obtain ⟨lines, houtput, hreads⟩ := htracks.read
      refine ⟨⟨bytes, validator, 0, false⟩, ?_, ?_⟩
      . unfold NodelistReader.ofScope
        rw [hvalidator]
        rfl
      . unfold NodelistReader.items
        apply items_go_of_reads hreads (by simpa using hdata) rfl rfl
        . rw [← hfinish, houtput]
        . rw [← hfinish, houtput]
          have hlength := length_le_lineBytes lines
          dsimp only
          omega

/-!
A distribution of one zone.
-/

def noKeys : Base64 := ⟨fun _ => [], fun _ => none⟩

theorem fidonet_valid : validateAddress "fidonet" 1 1 0 0 = .ok () := by decide

def fidonetContext : SegmentContext := ⟨"fidonet", .zone, fidonet_valid⟩

def fidonetWriter (requiresData : Bool) : NodelistWriter := ⟨[], Validator.new fidonetContext requiresData, 0⟩

def plainEntry (keyword : Keyword) (number : UInt16) : EntryInput :=
  { keyword := keyword
    number := number
    nodeName := "Node".toList
    location := "Location".toList
    sysopName := "Sysop".toList
    phone := []
    systemFlags := []
    pstnIsdnFlags := []
    internetFlags := []
    emailFlags := []
    otherFlags := [] }

def plainCall (keyword : Keyword) (number : UInt16) : WriteCall :=
  .entry (plainEntry keyword number) .ordinary .written

theorem zone_harmless
    : Harmless noKeys (fidonetWriter false).validator (entryLine noKeys (plainEntry .zone 1)) .ordinary
        .written := by
  apply Harmless.accepted
  . rfl
  . rfl
  . rfl
  . exact List.not_mem_nil
  . rfl
  . rfl
  . intro zone _
    rfl
  . nofun
  . rfl

/--
A host in front of the zone is refused, the zone is written, and a second zone without a number is
refused: the output has the one record.
-/
theorem writer_read_back_refusals
    : (writerMachine noKeys (fidonetWriter false)).Along (HarmlessCall noKeys) (fidonetWriter false)
          [plainCall .host 1, plainCall .zone 1, plainCall .zone 0] ∧
        ∀ bytes, ((writerMachine noKeys (fidonetWriter false)).run (fidonetWriter false)
            [plainCall .host 1, plainCall .zone 1, plainCall .zone 0]).finish true = .ok bytes →
          ∃ reader, NodelistReader.ofScope (.distribution "fidonet") bytes = .ok reader ∧
            (reader.items noKeys).length = 1 := by
  have hcalls : (writerMachine noKeys (fidonetWriter false)).Along (HarmlessCall noKeys) (fidonetWriter false)
      [plainCall .host 1, plainCall .zone 1, plainCall .zone 0] := by
    refine ⟨.refused rfl, zone_harmless, .noNumber rfl rfl rfl, trivial⟩
  refine ⟨hcalls, ?_⟩
  intro bytes hbytes
  obtain ⟨reader, hreader, hitems⟩ :=
    (writer_read_back noKeys (.distribution "fidonet") (fidonetWriter false) rfl _ hcalls).2 true bytes hbytes
  refine ⟨reader, hreader, ?_⟩
  rw [hitems]
  rfl

/--
A zone without a number is refused, and then a region panics. In a segment the finished output is
empty, which the reader refuses.
-/
theorem writer_refusal_panics
    : (NodelistWriter.ofScope (.distribution "fidonet") = .ok (fidonetWriter false) ∧
        (writerMachine noKeys (fidonetWriter false)).outputs (fidonetWriter false)
            [plainCall .zone 0, plainCall .region 1] =
          [.error (.error 1 .invalidNodeNumber), .error .panic]) ∧
      (NodelistWriter.ofScope (.segment fidonetContext) = .ok (fidonetWriter true) ∧
        ((writerMachine noKeys (fidonetWriter true)).run (fidonetWriter true) [plainCall .zone 0]).finish
            true = .ok [] ∧
        (NodelistReader.items noKeys ⟨[], (fidonetWriter true).validator, 0, false⟩) =
          [.error (.error 1 .invalidHierarchy)]) := by
  refine ⟨⟨rfl, ?_⟩, rfl, ?_, ?_⟩
  . rfl
  . rfl
  . rfl

end Nodelist

end Tith
