import Tith.Lib.Source
import Tith.Wire.IntegerCodec

/-!
This module contains the reader of values from a connection, which never has the bytes at once, and the proof that
it takes the same values as the parser of a whole text.
-/

namespace Tith

/--
How reading ends before its time. The end of the connection within a value is an error of its own.
-/
inductive StreamFailure where
  | framing (error : FramingError)
  | unconsumedValue (remaining : UInt64)
  | endOfValue (remaining : UInt64)
  | panic
  deriving DecidableEq, Repr

structure TlvHeader where
  typeCode : UInt64
  length : UInt64
  deriving DecidableEq, Repr

structure TlvReader where
  inner : Source UInt8
  remaining : UInt64
  invalid : Bool

namespace TlvReader

def new (inner : Source UInt8) : TlvReader := ⟨inner, 0, false⟩

/--
One integer, of which the bytes are read one at a time. There is room for ten of them.
-/
def readInteger (inner : Source UInt8) (allowEof : Bool) : Except IntegerError (Option UInt64) × Source UInt8 :=
  go maxU64Bytes [] inner
where
  go (slots : Nat) (bytes : List UInt8) (inner : Source UInt8)
      : Except IntegerError (Option UInt64) × Source UInt8 :=
    match slots with
    | 0 => (.error .overflow, inner)
    | slots + 1 =>
      match inner.read 1 with
      | ([], inner) => if bytes = [] ∧ allowEof then (.ok none, inner) else (.error .unterminated, inner)
      | (byte :: _, inner) =>
        let bytes := bytes ++ [byte]
        if byte &&& 0x80 = 0 then
          ((decodeU64Prefix bytes).map (fun (value, _) => some value), inner)
        else
          go slots bytes inner

def ensureActive (reader : TlvReader) : Except StreamFailure Unit :=
  if reader.invalid then .error (.framing .invalidType) else .ok ()

/--
A type behind which nothing more can be told apart closes the sequence.
-/
def accept (reader : TlvReader) (typeCode : UInt64) : Except StreamFailure Unit × TlvReader :=
  match reader.ensureActive with
  | .error e => (.error e, reader)
  | .ok () =>
    if typeCode = 0 then
      (.error (.framing .invalidType), { reader with invalid := true })
    else
      (.ok (), reader)

/--
The header of the next value, unless there is none.
-/
def readNext (reader : TlvReader) : Except StreamFailure (Option TlvHeader) × TlvReader :=
  match reader.ensureActive with
  | .error e => (.error e, reader)
  | .ok () =>
    if reader.remaining ≠ 0 then
      (.error (.unconsumedValue reader.remaining), reader)
    else
      match readInteger reader.inner true with
      | (.error e, inner) => (.error (.framing (.integer e)), { reader with inner })
      | (.ok none, inner) => (.ok none, { reader with inner })
      | (.ok (some typeCode), inner) =>
        match TlvReader.accept { reader with inner } typeCode with
        | (.error e, reader) => (.error e, reader)
        | (.ok (), reader) =>
          match readInteger reader.inner false with
          | (.error e, inner) => (.error (.framing (.integer e)), { reader with inner })
          -- The end is an error where a length has to follow.
          | (.ok none, inner) => (.error .panic, { reader with inner })
          | (.ok (some length), inner) =>
            (.ok (some ⟨typeCode, length⟩), { reader with inner, remaining := length })

/--
The bytes that a vector can have.
-/
def maxCapacity : Nat := 2 ^ 63 - 1

theorem length_filled_lt (room : List UInt8 → ℕ+) (remaining : UInt64) (inner : Source UInt8)
    : (inner.fill room [] remaining.toNat).taken.length < 2 ^ 64 := by
  have hlt := remaining.toNat_lt
  rw [(Source.fill_spec room [] remaining.toNat inner).1, List.nil_append, List.length_take]
  omega

/--
The value behind its header. Room for all of it is reserved before any of it is there; `room` is what a vector
offers to the reads into it.
-/
def readOwned (room : List UInt8 → ℕ+) (header : TlvHeader) (reader : TlvReader)
    : Except StreamFailure OwnedTlv × TlvReader :=
  if header.length.toNat > maxCapacity then
    (.error .panic, reader)
  else
    let filled := reader.inner.fill room [] reader.remaining.toNat
    let missing := UInt64.ofNat filled.missing
    let after := { reader with inner := filled.source, remaining := missing }
    if filled.missing = 0 then
      (.ok ⟨header.typeCode, filled.taken, length_filled_lt room reader.remaining reader.inner⟩, after)
    else
      (.error (.endOfValue missing), after)

end TlvReader

/--
How the values of a connection end.
-/
inductive Ending where
  | finished
  | failed (failure : StreamFailure)
  | exhausted
  deriving DecidableEq

/--
Reads each value as a whole, up to the first one that cannot be read.
-/
def collect (room : List UInt8 → ℕ+) (fuel : Nat) (reader : TlvReader) : List OwnedTlv × Ending :=
  match fuel with
  | 0 => ([], .exhausted)
  | fuel + 1 =>
    match reader.readNext with
    | (.error e, _) => ([], .failed e)
    | (.ok none, _) => ([], .finished)
    | (.ok (some header), reader) =>
      match reader.readOwned room header with
      | (.error e, _) => ([], .failed e)
      | (.ok value, reader) =>
        let (values, ending) := collect room fuel reader
        (value :: values, ending)

/--
The values of a source. A value has at least a byte, so that there are no more turns than bytes.
-/
def streamed (room : List UInt8 → ℕ+) (source : Source UInt8) : List OwnedTlv × Ending :=
  collect room (source.bytes.length + 1) (.new source)

/-!
Integers. The bytes of one are continued up to the last.
-/

theorem encodeU64_split (value : UInt64)
    : ∃ groups last,
        encodeU64 value = groups ++ [last] ∧ (∀ byte ∈ groups, 128 ≤ byte.toNat) ∧ last.toNat < 128 := by
  refine ⟨Varint.continued (value.toNat / 128), UInt8.ofNat (value.toNat % 128), ?_, ?_, ?_⟩
  . rw [encodeU64_eq, Varint.encode]
  . intro byte hbyte
    exact Varint.continued_bytes hbyte
  . rw [Varint.toNat_ofNat_group]
    omega

theorem eq_of_continued {bytes groups rest rest' : List UInt8} {byte last : UInt8}
    (hbytes : ∀ byte ∈ bytes, 128 ≤ byte.toNat) (hgroups : ∀ byte ∈ groups, 128 ≤ byte.toNat)
    (hbyte : byte.toNat < 128) (hlast : last.toNat < 128) (h : bytes ++ byte :: rest = groups ++ last :: rest')
    : bytes = groups ∧ byte = last ∧ rest = rest' := by
  -- The first byte that is not continued is the same in both.
  induction bytes generalizing groups with
  | nil =>
    cases groups with
    | nil => simpa using h
    | cons group groups =>
      rw [List.nil_append, List.cons_append, List.cons.injEq] at h
      have hle := hgroups group (by simp)
      rw [← h.1] at hle
      omega
  | cons first bytes ih =>
    cases groups with
    | nil =>
      rw [List.nil_append, List.cons_append, List.cons.injEq] at h
      have hle := hbytes first (by simp)
      rw [h.1] at hle
      omega
    | cons group groups =>
      rw [List.cons_append, List.cons_append, List.cons.injEq] at h
      obtain ⟨hbytes', hbyte', hrest⟩ := ih (fun byte hmem => hbytes byte (by simp [hmem]))
        (fun byte hmem => hgroups byte (by simp [hmem])) h.2
      exact ⟨by rw [h.1, hbytes'], hbyte', hrest⟩

theorem length_lt_of_continued {bytes rest rest' : List UInt8} {value : UInt64}
    (hbytes : ∀ byte ∈ bytes, 128 ≤ byte.toNat) (h : bytes ++ rest = encodeU64 value ++ rest')
    : bytes.length < (encodeU64 value).length := by
  -- Bytes that are all continued are only the front of an integer.
  obtain ⟨groups, last, hencode, -, hlast⟩ := encodeU64_split value
  by_contra hle
  have hfront : encodeU64 value <+: bytes ++ rest := h ▸ List.prefix_append _ _
  have hfront := List.prefix_of_prefix_length_le hfront (List.prefix_append _ _) (Nat.le_of_not_lt hle)
  have hmem : last ∈ encodeU64 value := by simp [hencode]
  have hcontinued := hbytes last (hfront.subset hmem)
  omega

theorem read_one_cases (inner : Source UInt8)
    : (inner.bytes = [] ∧ (inner.read 1).1 = [] ∧ (inner.read 1).2.bytes = []) ∨
      ∃ byte, (inner.read 1).1 = [byte] ∧ inner.bytes = byte :: (inner.read 1).2.bytes := by
  have happend := Source.read_append 1 inner
  have hle := Source.length_read_le 1 inner
  have hnil := Source.read_eq_nil (by decide : 0 < 1) inner
  generalize inner.read 1 = taking at happend hle hnil ⊢
  obtain ⟨piece, next⟩ := taking
  dsimp only at happend hle hnil ⊢
  cases piece with
  | nil =>
    have hend := hnil.mp rfl
    rw [hend] at happend
    exact .inl ⟨hend, rfl, happend⟩
  | cons byte rest =>
    rw [List.length_cons] at hle
    obtain rfl := List.length_eq_zero_iff.mp (by omega : rest.length = 0)
    exact .inr ⟨byte, rfl, happend.symm⟩

theorem continued_concat {bytes : List UInt8} {byte : UInt8} (hbytes : ∀ byte ∈ bytes, 128 ≤ byte.toNat)
    (hbyte : 128 ≤ byte.toNat)
    : ∀ other ∈ bytes ++ [byte], 128 ≤ other.toNat := by
  intro other hother
  rcases List.mem_append.mp hother with hother | hother
  . exact hbytes other hother
  . rw [List.mem_singleton.mp hother]
    exact hbyte

section Integer

open TlvReader

variable {allowEof : Bool} {slots : Nat} {bytes rest : List UInt8} {inner inner' : Source UInt8} {value : UInt64}

theorem readInteger_go_of_encode (bytes : List UInt8) (hcontinued : ∀ byte ∈ bytes, 128 ≤ byte.toNat)
    (hfits : (encodeU64 value).length ≤ bytes.length + slots) (h : bytes ++ inner.bytes = encodeU64 value ++ rest)
    : ∃ next, readInteger.go allowEof slots bytes inner = (.ok (some value), next) ∧ next.bytes = rest := by
  have hshort := length_lt_of_continued hcontinued h
  induction slots generalizing bytes inner with
  | zero => omega
  | succ slots ih =>
    unfold readInteger.go
    rcases read_one_cases inner with ⟨hend, -, -⟩ | ⟨byte, hpiece, hbytes⟩
    . rw [hend, List.append_nil] at h
      rw [h, List.length_append] at hshort
      omega
    . generalize inner.read 1 = taking at hpiece hbytes ⊢
      obtain ⟨piece, next⟩ := taking
      obtain rfl : piece = [byte] := hpiece
      dsimp only at hbytes ⊢
      rw [hbytes] at h
      split
      . next hbit =>
        obtain ⟨groups, last, hencode, hgroups, hlast⟩ := encodeU64_split value
        rw [Varint.and_high_bit] at hbit
        rw [hencode, List.append_assoc, List.singleton_append] at h
        obtain ⟨rfl, rfl, hrest⟩ := eq_of_continued hcontinued hgroups hbit hlast h
        refine ⟨next, ?_, hrest⟩
        have hdecode := decodeU64Prefix_encodeU64 value []
        rw [List.append_nil, hencode] at hdecode
        rw [hdecode]
        rfl
      . next hbit =>
        rw [Varint.and_high_bit, Nat.not_lt] at hbit
        have hcontinued' := continued_concat hcontinued hbit
        have h' : bytes ++ [byte] ++ next.bytes = encodeU64 value ++ rest := by
          rw [List.append_assoc]
          exact h
        refine ih _ hcontinued' ?_ h' (length_lt_of_continued hcontinued' h')
        rw [List.length_append, List.length_singleton]
        omega

theorem readInteger_go_ok (bytes : List UInt8) (hcontinued : ∀ byte ∈ bytes, 128 ≤ byte.toNat)
    (h : readInteger.go allowEof slots bytes inner = (.ok (some value), inner'))
    : bytes ++ inner.bytes = encodeU64 value ++ inner'.bytes := by
  -- What is read as an integer is the text of one.
  induction slots generalizing bytes inner with
  | zero => cases h
  | succ slots ih =>
    unfold readInteger.go at h
    rcases read_one_cases inner with ⟨-, hpiece, -⟩ | ⟨byte, hpiece, hbytes⟩
    . generalize inner.read 1 = taking at hpiece h
      obtain ⟨piece, next⟩ := taking
      obtain rfl : piece = [] := hpiece
      dsimp only at h
      split at h
      . cases h
      . cases h
    . generalize inner.read 1 = taking at hpiece hbytes h
      obtain ⟨piece, next⟩ := taking
      obtain rfl : piece = [byte] := hpiece
      dsimp only at hbytes h
      rw [hbytes]
      split at h
      . next hbit =>
        rw [Prod.mk.injEq, Except.map_eq_ok] at h
        obtain ⟨⟨⟨value', used⟩, hdecode, hvalue⟩, rfl⟩ := h
        obtain rfl := Option.some.inj hvalue
        obtain ⟨-, rest, hrest⟩ := decodeU64Prefix_iff.mp hdecode
        obtain ⟨groups, last, hencode, hgroups, hlast⟩ := encodeU64_split value'
        rw [Varint.and_high_bit] at hbit
        have hall := hrest
        rw [hencode, List.append_assoc, List.singleton_append] at hall
        obtain ⟨-, -, rfl⟩ := eq_of_continued hcontinued hgroups hbit hlast hall
        rw [List.append_nil] at hrest
        rw [← hrest, List.append_assoc, List.singleton_append]
      . next hbit =>
        rw [Varint.and_high_bit, Nat.not_lt] at hbit
        rw [← ih _ (continued_concat hcontinued hbit) h, List.append_assoc, List.singleton_append]

theorem readInteger_go_none (h : readInteger.go allowEof slots bytes inner = (.ok none, inner'))
    : bytes = [] ∧ allowEof = true ∧ inner.bytes = [] ∧ inner'.bytes = [] := by
  -- There is no integer only where the source has ended, and where it may.
  induction slots generalizing bytes inner with
  | zero => cases h
  | succ slots ih =>
    unfold readInteger.go at h
    rcases read_one_cases inner with ⟨hend, hpiece, hnext⟩ | ⟨byte, hpiece, hbytes⟩
    . generalize inner.read 1 = taking at hpiece hnext h
      obtain ⟨piece, next⟩ := taking
      obtain rfl : piece = [] := hpiece
      dsimp only at hnext h
      split at h
      . next hallowed =>
        cases h
        exact ⟨hallowed.1, hallowed.2, hend, hnext⟩
      . cases h
    . generalize inner.read 1 = taking at hpiece hbytes h
      obtain ⟨piece, next⟩ := taking
      obtain rfl : piece = [byte] := hpiece
      dsimp only at hbytes h
      split at h
      . rw [Prod.mk.injEq, Except.map_eq_ok] at h
        obtain ⟨⟨_, _, hvalue⟩, -⟩ := h
        cases hvalue
      . obtain ⟨hnil, -⟩ := ih h
        simp at hnil

theorem readInteger_go_same (h : inner.bytes = inner'.bytes)
    : (readInteger.go allowEof slots bytes inner).1 = (readInteger.go allowEof slots bytes inner').1 ∧
        (readInteger.go allowEof slots bytes inner).2.bytes = (readInteger.go allowEof slots bytes inner').2.bytes := by
  -- Only the bytes of a source count, not its pieces.
  induction slots generalizing bytes inner inner' with
  | zero => exact ⟨rfl, h⟩
  | succ slots ih =>
    unfold readInteger.go
    rcases read_one_cases inner with ⟨hend, hpiece, hnext⟩ | ⟨byte, hpiece, hbytes⟩
    . rcases read_one_cases inner' with ⟨-, hpiece', hnext'⟩ | ⟨byte', -, hbytes'⟩
      . generalize inner.read 1 = taking at hpiece hnext ⊢
        generalize inner'.read 1 = taking' at hpiece' hnext' ⊢
        obtain ⟨piece, next⟩ := taking
        obtain ⟨piece', next'⟩ := taking'
        obtain rfl : piece = [] := hpiece
        obtain rfl : piece' = [] := hpiece'
        dsimp only at hnext hnext' ⊢
        split
        . exact ⟨rfl, hnext.trans hnext'.symm⟩
        . exact ⟨rfl, hnext.trans hnext'.symm⟩
      . rw [← h, hend] at hbytes'
        cases hbytes'
    . rcases read_one_cases inner' with ⟨hend', -, -⟩ | ⟨byte', hpiece', hbytes'⟩
      . rw [h, hend'] at hbytes
        cases hbytes
      . rw [h, hbytes', List.cons.injEq] at hbytes
        generalize inner.read 1 = taking at hpiece hbytes ⊢
        generalize inner'.read 1 = taking' at hpiece' hbytes ⊢
        obtain ⟨piece, next⟩ := taking
        obtain ⟨piece', next'⟩ := taking'
        obtain rfl : piece = [byte] := hpiece
        obtain rfl : piece' = [byte'] := hpiece'
        dsimp only at hbytes ⊢
        obtain ⟨rfl, hnext⟩ := hbytes
        split
        . exact ⟨rfl, hnext.symm⟩
        . exact ih hnext.symm

theorem readInteger_of_encode (allowEof : Bool) (h : inner.bytes = encodeU64 value ++ rest)
    : ∃ next, readInteger inner allowEof = (.ok (some value), next) ∧ next.bytes = rest := by
  apply readInteger_go_of_encode []
  . simp
  . exact (length_encodeU64_le value).trans (Nat.le_add_left _ _)
  . exact h

theorem readInteger_ok (h : readInteger inner allowEof = (.ok (some value), inner'))
    : inner.bytes = encodeU64 value ++ inner'.bytes := readInteger_go_ok [] (by simp) h

theorem readInteger_none (h : readInteger inner allowEof = (.ok none, inner'))
    : allowEof = true ∧ inner.bytes = [] ∧ inner'.bytes = [] := (readInteger_go_none h).2

theorem readInteger_end (h : inner.bytes = [])
    : ∃ next, readInteger inner true = (.ok none, next) := by
  unfold readInteger maxU64Bytes readInteger.go
  rcases read_one_cases inner with ⟨-, hpiece, hnext⟩ | ⟨byte, -, hbytes⟩
  . generalize inner.read 1 = taking at hpiece ⊢
    obtain ⟨piece, next⟩ := taking
    obtain rfl : piece = [] := hpiece
    exact ⟨next, rfl⟩
  . rw [h] at hbytes
    cases hbytes

theorem readInteger_same (allowEof : Bool) (h : inner.bytes = inner'.bytes)
    : (readInteger inner allowEof).1 = (readInteger inner' allowEof).1 ∧
        (readInteger inner allowEof).2.bytes = (readInteger inner' allowEof).2.bytes := readInteger_go_same h

end Integer

/-!
Values.
-/

section Value

open TlvReader

variable {inner : Source UInt8} {header : TlvHeader} {reader : TlvReader} {rest : List UInt8}

/--
A reader between two values.
-/
def between (inner : Source UInt8) : TlvReader := ⟨inner, 0, false⟩

theorem readNext_of_header (hdefined : header.typeCode ≠ 0)
    (h : inner.bytes = encodeU64 header.typeCode ++ encodeU64 header.length ++ rest)
    : ∃ next,
        (between inner).readNext = (.ok (some header), ⟨next, header.length, false⟩) ∧ next.bytes = rest := by
  rw [List.append_assoc] at h
  obtain ⟨behind, htype, hbehind⟩ := readInteger_of_encode true h
  obtain ⟨next, hlength, hnext⟩ := readInteger_of_encode false hbehind
  refine ⟨next, ?_, hnext⟩
  simp [TlvReader.readNext, between, ensureActive, htype, TlvReader.accept, hdefined, hlength]

theorem readNext_end (h : inner.bytes = []) : ∃ reader, (between inner).readNext = (.ok none, reader) := by
  obtain ⟨next, hread⟩ := readInteger_end h
  refine ⟨between next, ?_⟩
  simp [TlvReader.readNext, between, ensureActive, hread]

theorem readNext_cases (inner : Source UInt8)
    : (∃ e reader, (between inner).readNext = (.error e, reader) ∧ e ≠ .panic) ∨
      (∃ reader, (between inner).readNext = (.ok none, reader) ∧ inner.bytes = []) ∨
      ∃ header next,
        (between inner).readNext = (.ok (some header), ⟨next, header.length, false⟩) ∧ header.typeCode ≠ 0 ∧
          inner.bytes = encodeU64 header.typeCode ++ encodeU64 header.length ++ next.bytes := by
  simp only [TlvReader.readNext, between, ensureActive, Bool.false_eq_true, if_false, ne_eq, not_true_eq_false]
  cases htype : readInteger inner true with
  | mk result behind =>
    cases result with
    | error e => exact .inl ⟨_, _, rfl, by simp⟩
    | ok typeCode =>
      cases typeCode with
      | none => exact .inr (.inl ⟨_, rfl, (readInteger_none htype).2.1⟩)
      | some typeCode =>
        simp only [TlvReader.accept, ensureActive, Bool.false_eq_true, if_false]
        by_cases hzero : typeCode = 0
        . rw [if_pos hzero]
          exact .inl ⟨_, _, rfl, by simp⟩
        . rw [if_neg hzero]
          dsimp only
          cases hlength : readInteger behind false with
          | mk result next =>
            cases result with
            | error e => exact .inl ⟨_, _, rfl, by simp⟩
            | ok length =>
              cases length with
              | none =>
                have hallowed := (readInteger_none hlength).1
                cases hallowed
              | some length =>
                refine .inr (.inr ⟨⟨typeCode, length⟩, next, rfl, hzero, ?_⟩)
                rw [readInteger_ok htype, readInteger_ok hlength, List.append_assoc]

variable (room : List UInt8 → ℕ+)

theorem readOwned_huge (reader : TlvReader) (h : maxCapacity < header.length.toNat)
    : readOwned room header reader = (.error .panic, reader) := if_pos h

theorem readOwned_of_le (hcapacity : header.length.toNat ≤ maxCapacity)
    (h : header.length.toNat ≤ inner.bytes.length)
    : ∃ value next,
        readOwned room header ⟨inner, header.length, false⟩ = (.ok value, between next) ∧
          value.typeCode = header.typeCode ∧ value.value = inner.bytes.take header.length.toNat ∧
          next.bytes = inner.bytes.drop header.length.toNat := by
  obtain ⟨htaken, hmissing, hrest⟩ := Source.fill_spec room [] header.length.toNat inner
  have hnone : (inner.fill room [] header.length.toNat).missing = 0 := by omega
  refine ⟨⟨header.typeCode, (inner.fill room [] header.length.toNat).taken, length_filled_lt _ _ _⟩,
    (inner.fill room [] header.length.toNat).source, ?_, rfl, htaken, hrest⟩
  simp only [readOwned, hnone, if_true]
  rw [if_neg (Nat.not_lt.mpr hcapacity)]
  rfl

theorem readOwned_short (hcapacity : header.length.toNat ≤ maxCapacity)
    (h : inner.bytes.length < header.length.toNat)
    : ∃ e reader, readOwned room header ⟨inner, header.length, false⟩ = (.error e, reader) ∧ e ≠ .panic := by
  obtain ⟨-, hmissing, -⟩ := Source.fill_spec room [] header.length.toNat inner
  have hsome : (inner.fill room [] header.length.toNat).missing ≠ 0 := by omega
  simp only [readOwned]
  rw [if_neg (Nat.not_lt.mpr hcapacity), if_neg hsome]
  exact ⟨_, _, rfl, by simp⟩

end Value

/-!
Whole connections.
-/

/--
The next header declares more bytes than a vector can have.
-/
def Huge (bytes : List UInt8) : Prop :=
  ∃ typeCode length rest,
    typeCode ≠ 0 ∧ TlvReader.maxCapacity < length.toNat ∧ bytes = encodeU64 typeCode ++ encodeU64 length ++ rest

/--
A header that declares too much stands behind values that can be read.
-/
def Declares (bytes : List UInt8) : Prop :=
  ∃ values rest, bytes = concatenate values ++ rest ∧ (∀ value ∈ values, value.typeCode ≠ 0) ∧ Huge rest

/--
No value stands at the front.
-/
def NoValue (bytes : List UInt8) : Prop :=
  ∀ (value : OwnedTlv) rest, value.typeCode ≠ 0 → bytes ≠ value.encode ++ rest

/--
The values at the front of these bytes, as many as there are, and how they end.
-/
inductive Streams : List UInt8 → List OwnedTlv → Ending → Prop where
  | finished : Streams [] [] .finished
  | huge {bytes : List UInt8} (h : Huge bytes) : Streams bytes [] (.failed .panic)
  | failed {bytes : List UInt8} {e : StreamFailure} (hpanic : e ≠ .panic) (hne : bytes ≠ []) (hhuge : ¬Huge bytes)
      (hnone : NoValue bytes) : Streams bytes [] (.failed e)
  | value {rest values ending} (tlv : OwnedTlv) (hdefined : tlv.typeCode ≠ 0)
      (hcapacity : tlv.value.length ≤ TlvReader.maxCapacity) (h : Streams rest values ending)
      : Streams (tlv.encode ++ rest) (tlv :: values) ending

theorem encodeU64_append_inj {value value' : UInt64} {rest rest' : List UInt8}
    (h : encodeU64 value ++ rest = encodeU64 value' ++ rest')
    : value = value' ∧ rest = rest' := by
  have hdecode := decodeU64Prefix_encodeU64 value rest
  rw [h, decodeU64Prefix_encodeU64, Except.ok.injEq, Prod.mk.injEq] at hdecode
  obtain ⟨rfl, -⟩ := hdecode
  exact ⟨rfl, List.append_cancel_left h⟩

theorem encode_header_eq {typeCode length typeCode' length' : UInt64} {rest rest' : List UInt8}
    (h : encodeU64 typeCode ++ encodeU64 length ++ rest = encodeU64 typeCode' ++ encodeU64 length' ++ rest')
    : typeCode = typeCode' ∧ length = length' ∧ rest = rest' := by
  rw [List.append_assoc, List.append_assoc] at h
  obtain ⟨htype, hrest⟩ := encodeU64_append_inj h
  obtain ⟨hlength, hrest⟩ := encodeU64_append_inj hrest
  exact ⟨htype, hlength, hrest⟩

theorem collect_streams (room : List UInt8 → ℕ+) {fuel : Nat} {inner : Source UInt8}
    (h : inner.bytes.length < fuel)
    : Streams inner.bytes (collect room fuel (between inner)).1 (collect room fuel (between inner)).2 := by
  induction fuel generalizing inner with
  | zero => omega
  | succ fuel ih =>
    unfold collect
    rcases readNext_cases inner with ⟨e, reader, hread, hpanic⟩ | ⟨reader, hread, hend⟩ |
      ⟨header, next, hread, hdefined, hbytes⟩
    . rw [hread]
      have hnone : ∀ header : TlvHeader, ∀ rest, header.typeCode ≠ 0 →
          inner.bytes ≠ encodeU64 header.typeCode ++ encodeU64 header.length ++ rest := by
        intro header rest hdefined hbytes
        obtain ⟨_, hsome, -⟩ := readNext_of_header hdefined hbytes
        rw [hread] at hsome
        cases hsome
      refine .failed hpanic ?_ ?_ ?_
      . intro hend
        obtain ⟨_, hend⟩ := readNext_end hend
        rw [hread] at hend
        cases hend
      . rintro ⟨typeCode, length, rest, hdefined, -, hbytes⟩
        exact hnone ⟨typeCode, length⟩ rest hdefined hbytes
      . intro value rest hdefined hbytes
        unfold OwnedTlv.encode at hbytes
        rw [List.append_assoc] at hbytes
        exact hnone ⟨value.typeCode, UInt64.ofNat value.value.length⟩ (value.value ++ rest) hdefined hbytes
    . rw [hread, hend]
      exact .finished
    . rw [hread]
      dsimp only
      by_cases hhuge : TlvReader.maxCapacity < header.length.toNat
      . rw [readOwned_huge room _ hhuge]
        exact .huge ⟨header.typeCode, header.length, next.bytes, hdefined, hhuge, hbytes⟩
      have hcapacity : header.length.toNat ≤ TlvReader.maxCapacity := Nat.le_of_not_lt hhuge
      by_cases hlong : header.length.toNat ≤ next.bytes.length
      . obtain ⟨tlv, behind, hvalue, htype, htaken, hrest⟩ := readOwned_of_le room hcapacity hlong
        rw [hvalue]
        dsimp only
        have hlength : tlv.value.length = header.length.toNat := by
          rw [htaken, List.length_take, Nat.min_eq_left hlong]
        have hencode : inner.bytes = tlv.encode ++ behind.bytes := by
          rw [hbytes, OwnedTlv.encode, htype, hlength, UInt64.ofNat_toNat, htaken, hrest,
            List.append_assoc _ (List.take _ _), List.take_append_drop]
        have hpos := List.length_pos_iff.mpr tlv.encode_ne_nil
        rw [hencode] at h ⊢
        rw [List.length_append] at h
        exact .value tlv (htype ▸ hdefined) (hlength ▸ hcapacity) (ih (by omega))
      . obtain ⟨e, reader, hfailed, hpanic⟩ := readOwned_short room hcapacity (Nat.lt_of_not_le hlong)
        rw [hfailed]
        refine .failed hpanic ?_ ?_ ?_
        . rw [hbytes]
          simp [encodeU64_ne_nil]
        . rintro ⟨typeCode, length, rest, -, hdeclared, hbytes'⟩
          obtain ⟨-, rfl, -⟩ := encode_header_eq (hbytes.symm.trans hbytes')
          exact hhuge hdeclared
        . intro value rest _ hbytes'
          rw [OwnedTlv.encode, List.append_assoc] at hbytes'
          obtain ⟨-, hlength, hrest⟩ := encode_header_eq (hbytes.symm.trans hbytes')
          rw [hlength, UInt64.toNat_ofNat_of_lt' value.length_lt, hrest, List.length_append] at hlong
          omega

/-!
The parser.
-/

theorem Streams.front {bytes : List UInt8} {values : List OwnedTlv} {ending : Ending} (h : Streams bytes values ending)
    : (∀ value ∈ values, value.typeCode ≠ 0) ∧
        ∃ rest, bytes = concatenate values ++ rest ∧ Streams rest [] ending := by
  induction h with
  | finished => exact ⟨by simp, [], rfl, .finished⟩
  | huge hhuge => exact ⟨by simp, _, rfl, .huge hhuge⟩
  | failed hpanic hne hhuge hnone => exact ⟨by simp, _, rfl, .failed hpanic hne hhuge hnone⟩
  | value tlv hdefined hcapacity _ ih =>
    obtain ⟨hall, rest, rfl, hrest⟩ := ih
    refine ⟨?_, rest, ?_, hrest⟩
    . simpa [hdefined] using hall
    . simp [concatenate]

theorem concatenate_cons (value : OwnedTlv) (values : List OwnedTlv)
    : concatenate (value :: values) = value.encode ++ concatenate values := by
  simp [concatenate]

theorem Declares.cons {value : OwnedTlv} {bytes : List UInt8} (hdefined : value.typeCode ≠ 0) (h : Declares bytes)
    : Declares (value.encode ++ bytes) := by
  obtain ⟨values, rest, rfl, hvalues, hhuge⟩ := h
  refine ⟨value :: values, rest, ?_, ?_, hhuge⟩
  . rw [concatenate_cons, List.append_assoc]
  . simpa [hdefined] using hvalues

theorem Huge.ne_nil {bytes : List UInt8} (h : Huge bytes) : bytes ≠ [] := by
  obtain ⟨typeCode, length, rest, -, -, rfl⟩ := h
  simp [encodeU64_ne_nil]

theorem Huge.not_encode {tlv : OwnedTlv} {rest : List UInt8} (hcapacity : tlv.value.length ≤ TlvReader.maxCapacity)
    : ¬Huge (tlv.encode ++ rest) := by
  rintro ⟨typeCode, length, rest', -, hlength, hbytes⟩
  rw [OwnedTlv.encode, List.append_assoc] at hbytes
  obtain ⟨-, rfl, -⟩ := encode_header_eq hbytes
  rw [UInt64.toNat_ofNat_of_lt' tlv.length_lt] at hlength
  omega

theorem encode_append_inj {tlv tlv' : OwnedTlv} {rest rest' : List UInt8} (h : tlv.typeCode ≠ 0)
    (h' : tlv'.typeCode ≠ 0) (heq : tlv.encode ++ rest = tlv'.encode ++ rest')
    : tlv = tlv' ∧ rest = rest' := by
  have htake := takeTlv_encode h rest
  rw [heq, takeTlv_encode h', Except.ok.injEq, Prod.mk.injEq] at htake
  exact ⟨htake.1.symm, htake.2.symm⟩

theorem Streams.panic_iff {bytes : List UInt8} {values : List OwnedTlv} {ending : Ending}
    (h : Streams bytes values ending)
    : ending = .failed .panic ↔ Declares bytes := by
  -- A panic is where too much is declared.
  constructor
  . rintro rfl
    obtain ⟨hdefined, rest, rfl, hrest⟩ := h.front
    refine ⟨values, rest, rfl, hdefined, ?_⟩
    cases hrest with
    | huge hhuge => exact hhuge
    | failed hpanic => exact absurd rfl hpanic
  . rintro ⟨declared, rest, hbytes, hdefined, hhuge⟩
    induction h generalizing declared with
    | finished =>
      have hnil : concatenate declared ++ rest = [] := hbytes.symm
      exact absurd (List.append_eq_nil_iff.mp hnil).2 hhuge.ne_nil
    | huge => rfl
    | failed hpanic hne hhuge' hnone =>
      subst hbytes
      cases declared with
      | nil => exact absurd hhuge hhuge'
      | cons value declared =>
        refine absurd ?_ (hnone value (concatenate declared ++ rest) (hdefined value (by simp)))
        simp [concatenate]
    | value tlv htype hcapacity _ ih =>
      cases declared with
      | nil =>
        have hbytes' : _ = rest := hbytes
        exact absurd (hbytes' ▸ hhuge) (Huge.not_encode hcapacity)
      | cons value declared =>
        rw [concatenate_cons, List.append_assoc] at hbytes
        obtain ⟨rfl, hrest⟩ := encode_append_inj htype (hdefined value (by simp)) hbytes
        exact ih declared hrest fun value hmem => hdefined value (by simp [hmem])

theorem Streams.finished_iff {bytes : List UInt8} {values : List OwnedTlv} {ending : Ending}
    (h : Streams bytes values ending) (hdeclares : ¬Declares bytes) (parsed : List OwnedTlv)
    : parseSequence bytes = .ok parsed ↔ values = parsed ∧ ending = .finished := by
  rw [parseSequence_eq_ok]
  induction h generalizing parsed with
  | finished =>
    cases parsed with
    | nil => simp [concatenate]
    | cons value parsed => simp [concatenate_cons, value.encode_ne_nil]
  | huge hhuge => exact absurd ⟨[], _, rfl, by simp, hhuge⟩ hdeclares
  | failed hpanic hne hhuge hnone =>
    simp only [reduceCtorEq, and_false, iff_false]
    rintro ⟨rfl, hdefined⟩
    cases parsed with
    | nil => exact hne rfl
    | cons value parsed => exact hnone value (concatenate parsed) (hdefined value (by simp)) (concatenate_cons _ _)
  | value tlv hdefined hcapacity _ ih =>
    have hrest := ih (fun h => hdeclares (h.cons hdefined))
    cases parsed with
    | nil =>
      simp only [reduceCtorEq, false_and, iff_false]
      rintro ⟨hnil, -⟩
      exact tlv.encode_ne_nil (List.append_eq_nil_iff.mp hnil.symm).1
    | cons value parsed =>
      rw [concatenate_cons, List.cons.injEq, and_assoc, ← hrest]
      constructor
      . rintro ⟨hbytes, hall⟩
        obtain ⟨rfl, htail⟩ := encode_append_inj (hall value (by simp)) hdefined hbytes
        exact ⟨rfl, htail, fun value hmem => hall value (by simp [hmem])⟩
      . rintro ⟨rfl, htail, hall⟩
        exact ⟨by rw [htail], by simpa [hdefined] using hall⟩

/-!
The pieces.
-/

/--
Two readers that are at the same place.
-/
structure SamePlace (reader reader' : TlvReader) : Prop where
  bytes : reader.inner.bytes = reader'.inner.bytes
  remaining : reader.remaining = reader'.remaining
  invalid : reader.invalid = reader'.invalid

section Same

open TlvReader

variable {reader reader' : TlvReader}

theorem readNext_same (h : SamePlace reader reader')
    : reader.readNext.1 = reader'.readNext.1 ∧ SamePlace reader.readNext.2 reader'.readNext.2 := by
  obtain ⟨inner, remaining, invalid⟩ := reader
  obtain ⟨inner', _, _⟩ := reader'
  obtain ⟨hbytes, rfl, rfl⟩ := h
  dsimp only at hbytes
  unfold TlvReader.readNext ensureActive
  dsimp only
  cases invalid with
  | true => exact ⟨rfl, hbytes, rfl, rfl⟩
  | false =>
    simp only [Bool.false_eq_true, if_false]
    split
    . exact ⟨rfl, hbytes, rfl, rfl⟩
    . obtain ⟨htype, hbehind⟩ := readInteger_same true hbytes
      generalize readInteger inner true = read at htype hbehind ⊢
      generalize readInteger inner' true = read' at htype hbehind ⊢
      obtain ⟨result, behind⟩ := read
      obtain ⟨_, behind'⟩ := read'
      obtain rfl := htype
      dsimp only at hbehind ⊢
      cases result with
      | error e => exact ⟨rfl, hbehind, rfl, rfl⟩
      | ok typeCode =>
        cases typeCode with
        | none => exact ⟨rfl, hbehind, rfl, rfl⟩
        | some typeCode =>
          simp only [TlvReader.accept, ensureActive, Bool.false_eq_true, if_false]
          by_cases hzero : typeCode = 0
          . simp only [hzero, if_true]
            exact ⟨trivial, hbehind, rfl, rfl⟩
          . simp only [hzero, if_false]
            obtain ⟨hlength, hnext⟩ := readInteger_same false hbehind
            generalize readInteger behind false = read at hlength hnext ⊢
            generalize readInteger behind' false = read' at hlength hnext ⊢
            obtain ⟨result, next⟩ := read
            obtain ⟨_, next'⟩ := read'
            obtain rfl := hlength
            dsimp only at hnext ⊢
            cases result with
            | error e => exact ⟨rfl, hnext, rfl, rfl⟩
            | ok length =>
              cases length with
              | none => exact ⟨rfl, hnext, rfl, rfl⟩
              | some length => exact ⟨rfl, hnext, rfl, rfl⟩

theorem readOwned_same (room room' : List UInt8 → ℕ+) (header : TlvHeader) (h : SamePlace reader reader')
    : (reader.readOwned room header).1 = (reader'.readOwned room' header).1 ∧
        SamePlace (reader.readOwned room header).2 (reader'.readOwned room' header).2 := by
  obtain ⟨inner, remaining, invalid⟩ := reader
  obtain ⟨inner', _, _⟩ := reader'
  obtain ⟨hbytes, rfl, rfl⟩ := h
  dsimp only at hbytes
  unfold readOwned
  split
  . exact ⟨rfl, hbytes, rfl, rfl⟩
  . obtain ⟨htaken, hmissing, hrest⟩ := Source.fill_spec room [] remaining.toNat inner
    obtain ⟨htaken', hmissing', hrest'⟩ := Source.fill_spec room' [] remaining.toNat inner'
    rw [← hbytes] at htaken' hmissing' hrest'
    have hsame := htaken.trans htaken'.symm
    have hbehind := hrest.trans hrest'.symm
    have hleft := hmissing.trans hmissing'.symm
    dsimp only
    rw [← hleft]
    split
    . refine ⟨?_, hbehind, rfl, rfl⟩
      dsimp only
      congr 1
      ext1
      . rfl
      . exact hsame
    . exact ⟨rfl, hbehind, rfl, rfl⟩

theorem collect_same (room room' : List UInt8 → ℕ+) (fuel : Nat) (h : SamePlace reader reader')
    : collect room fuel reader = collect room' fuel reader' := by
  induction fuel generalizing reader reader' with
  | zero => rfl
  | succ fuel ih =>
    unfold collect
    obtain ⟨hheader, hbehind⟩ := readNext_same h
    generalize reader.readNext = read at hheader hbehind ⊢
    generalize reader'.readNext = read' at hheader hbehind ⊢
    obtain ⟨result, behind⟩ := read
    obtain ⟨_, behind'⟩ := read'
    obtain rfl := hheader
    cases result with
    | error e => rfl
    | ok header =>
      cases header with
      | none => rfl
      | some header =>
        dsimp only at hbehind ⊢
        obtain ⟨hvalue, hnext⟩ := readOwned_same room room' header hbehind
        generalize behind.readOwned room header = owned at hvalue hnext ⊢
        generalize behind'.readOwned room' header = owned' at hvalue hnext ⊢
        obtain ⟨result, next⟩ := owned
        obtain ⟨_, next'⟩ := owned'
        obtain rfl := hvalue
        cases result with
        | error e => rfl
        | ok value =>
          dsimp only at hnext ⊢
          rw [ih hnext]

end Same

/--
Reading from a connection and parsing the whole: the pieces and the room do not matter, there are values up to the
first place where none stands, and a panic is exactly where too much is declared. Where nothing declares too much,
reading finishes with exactly the values that the parser has.
-/
theorem streaming_matches_parsing (room : List UInt8 → ℕ+) (source : Source UInt8)
    : (∀ room' (source' : Source UInt8),
          source'.bytes = source.bytes → streamed room' source' = streamed room source) ∧
        Streams source.bytes (streamed room source).1 (streamed room source).2 ∧
        ((streamed room source).2 = .failed .panic ↔ Declares source.bytes) ∧
        (¬Declares source.bytes → ∀ values,
          parseSequence source.bytes = .ok values ↔ streamed room source = (values, .finished)) := by
  have hstreams : Streams source.bytes (streamed room source).1 (streamed room source).2 :=
    collect_streams room (Nat.lt_succ_self _)
  refine ⟨?_, hstreams, hstreams.panic_iff, ?_⟩
  . intro room' source' hbytes
    unfold streamed
    rw [hbytes]
    exact collect_same room' room _ ⟨hbytes, rfl, rfl⟩
  . intro hdeclares values
    rw [hstreams.finished_iff hdeclares values, Prod.ext_iff]

end Tith
