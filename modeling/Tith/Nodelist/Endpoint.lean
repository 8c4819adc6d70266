import Tith.Lib.List
import Tith.Nodelist.Server

/-!
This module contains the agreement of the servers and endpoints with the texts that they are written as.
-/

namespace Tith

namespace Nodelist

/-!
The characters of servers and ports.
-/

theorem exists_of_mem_toDigits {base n : Nat} (hbase : 1 < base) {c : Char} (h : c ∈ Nat.toDigits base n)
    : ∃ digit, c = Nat.digitChar digit := by
  induction n using Nat.strongRecOn with
  | ind n ih =>
    rw [Nat.toDigits_eq_if hbase] at h
    split at h
    . exact ⟨n, by simpa using h⟩
    . next hge =>
      rcases List.mem_append.mp h with hfront | hlast
      . exact ih (n / base) (Nat.div_lt_self (by omega) hbase) hfront
      . exact ⟨n % base, by simpa using hlast⟩

theorem not_mem_showSegments {c : Char} (hcolon : c ≠ ':') (hdigit : ∀ digit, Nat.digitChar digit ≠ c)
    (segments : List Nat)
    : c ∉ showSegments segments := by
  intro hmem
  rcases List.mem_intercalate_singleton hmem with rfl | ⟨text, htext, hc⟩
  . exact hcolon rfl
  . obtain ⟨segment, _, rfl⟩ := List.mem_map.mp htext
    obtain ⟨digit, rfl⟩ := exists_of_mem_toDigits (by omega) hc
    exact hdigit digit rfl

theorem not_mem_canonicalIpv6 {c : Char} (hcolon : c ≠ ':') (hdigit : ∀ digit, Nat.digitChar digit ≠ c)
    (segments : List Nat)
    : c ∉ canonicalIpv6 segments := by
  have hsegments := not_mem_showSegments hcolon hdigit
  unfold canonicalIpv6
  split
  . exact hsegments segments
  . simp [hsegments, hcolon]

theorem readNumber_mem {radix maxDigits bound value : Nat} {zero : Bool} {text rest : List Char}
    (h : readNumber radix maxDigits zero bound text = some (value, rest)) {c : Char} (hc : c ∈ text)
    : (digitOf radix c).isSome ∨ c ∈ rest := by
  unfold readNumber at h
  rw [List.span_eq_takeWhile_dropWhile] at h
  dsimp only at h
  split at h
  . cases h
  . split at h
    . cases h
    . split at h
      . simp only [Option.some.injEq, Prod.mk.injEq] at h
        rw [← List.takeWhile_append_dropWhile (p := fun c => (digitOf radix c).isSome) (l := text)] at hc
        rcases List.mem_append.mp hc with hfront | hback
        . exact .inl (List.mem_takeWhile_imp (p := fun c => (digitOf radix c).isSome) hfront)
        . exact .inr (h.2 ▸ hback)
      . cases h

theorem readSeparator_mem {separator c : Char} {index : Nat} {inner : List Char → Option (α × List Char)}
    {P : Char → Prop} (hinner : ∀ text a rest, inner text = some (a, rest) → c ∈ text → P c ∨ c ∈ rest)
    (hseparator : P separator) {text rest : List Char} {a : α}
    (h : readSeparator separator index inner text = some (a, rest)) (hc : c ∈ text)
    : P c ∨ c ∈ rest := by
  unfold readSeparator at h
  split at h
  . exact hinner text a rest h hc
  . rw [Option.bind_eq_some_iff] at h
    obtain ⟨behind, hgiven, h⟩ := h
    unfold readGivenChar at hgiven
    split at hgiven
    . cases hgiven
    . next first text =>
      split at hgiven
      . next heq =>
        injection hgiven with hgiven
        subst hgiven
        rcases List.mem_cons.mp hc with rfl | hc
        . exact .inl (heq ▸ hseparator)
        . exact hinner text a rest h hc
      . cases hgiven

theorem isDigit_of_digitOf {c : Char} (h : (digitOf 10 c).isSome) : c.isDigit = true := by
  unfold digitOf at h
  dsimp only at h
  split at h
  . assumption
  . split at h
    . simp only [Option.isSome_filter, Option.any_some, decide_eq_true_eq] at h
      omega
    . split at h
      . simp only [Option.isSome_filter, Option.any_some, decide_eq_true_eq] at h
        omega
      . simp at h

theorem mem_of_parseIpv4 {text : List Char} (h : (parseIpv4 text).isSome) {c : Char} (hc : c ∈ text)
    : c.isDigit = true ∨ c = '.' := by
  have octet (index : Nat) {text rest : List Char} {value : Nat}
      (h : readSeparator '.' index (readNumber 10 3 false 256) text = some (value, rest)) (hc : c ∈ text)
      : (c.isDigit = true ∨ c = '.') ∨ c ∈ rest := by
    refine readSeparator_mem (P := fun c => c.isDigit = true ∨ c = '.') ?_ (.inr rfl) h hc
    intro text value rest hnumber hc
    rcases readNumber_mem hnumber hc with hdigit | hrest
    . exact .inl (.inl (isDigit_of_digitOf hdigit))
    . exact .inr hrest
  unfold parseIpv4 at h
  split at h
  . next octets hread =>
    simp only [readIpv4Addr, Option.bind_eq_bind, Option.bind_eq_some_iff, Prod.exists] at hread
    obtain ⟨a, second, ha, b, third, hb, _, fourth, hc', _, last, hd, hread⟩ := hread
    simp only [Option.some.injEq, Prod.mk.injEq] at hread
    obtain ⟨_, rfl⟩ := hread
    rcases octet 0 ha hc with hfound | hc
    . exact hfound
    rcases octet 1 hb hc with hfound | hc
    . exact hfound
    rcases octet 2 hc' hc with hfound | hc
    . exact hfound
    rcases octet 3 hd hc with hfound | hc
    . exact hfound
    . exact (List.not_mem_nil hc).elim
  . cases h

theorem mem_of_validDnsName {value : List Char} (h : validDnsName value = true) {c : Char} (hc : c ∈ value)
    : c.isAlphanum = true ∨ c = '-' ∨ c = '.' := by
  simp only [validDnsName, Bool.and_eq_true, List.all_eq_true, Bool.or_eq_true, beq_iff_eq] at h
  rw [← @List.intercalate_splitOn _ value _ _ '.'] at hc
  rcases List.mem_intercalate_singleton hc with rfl | ⟨label, hlabel, hc⟩
  . exact .inr (.inr rfl)
  . rcases (h.2 label hlabel).1.1.2 c hc with halnum | hdash
    . exact .inl halnum
    . exact .inr (.inl hdash)

theorem ServerAddress.value_cases (server : ServerAddress)
    : (∃ segments, server.value = '[' :: canonicalIpv6 segments ++ [']']) ∨
        server.value ≠ [] ∧ ∀ c ∈ server.value, c.isAlphanum = true ∨ c = '-' ∨ c = '.' := by
  have hvalid := server.valid
  unfold validServer at hvalid
  split at hvalid
  . split at hvalid
    . cases hvalid
    . next segments _ => exact .inl ⟨segments, (beq_iff_eq.mp hvalid).symm⟩
  . right
    rw [Bool.or_eq_true] at hvalid
    rcases hvalid with hipv4 | hname
    . constructor
      . intro hnil
        rw [hnil] at hipv4
        exact absurd hipv4 (by decide)
      . intro c hc
        rcases mem_of_parseIpv4 hipv4 hc with hdigit | hdot
        . exact .inl (by simp [Char.isAlphanum, hdigit])
        . exact .inr (.inr hdot)
    . refine ⟨?_, fun c hc => mem_of_validDnsName hname hc⟩
      intro hnil
      rw [hnil] at hname
      exact absurd hname (by decide)

theorem ServerAddress.comma_not_mem (server : ServerAddress) : ',' ∉ server.value := by
  intro hmem
  rcases server.value_cases with ⟨segments, hvalue⟩ | ⟨_, hall⟩
  . have hnot := not_mem_canonicalIpv6 (c := ',') (by decide) (fun _ => Nat.digitChar_ne ',' rfl) segments
    simp [hvalue, hnot] at hmem
  . exact absurd (hall ',' hmem) (by decide)

theorem parseServer_value (server : ServerAddress) : parseServer server.value = .ok server := by
  unfold parseServer
  rw [dif_pos server.valid]

theorem parsePort_toDigits {port : UInt16} (h : port ≠ 0) : parsePort (Nat.toDigits 10 port.toNat) = .ok port := by
  have hnat : port.toNat ≠ 0 := by
    intro hzero
    exact h (UInt16.toNat_inj.mp hzero)
  have hread : Text.parseBelow 65536 (Nat.toDigits 10 port.toNat) = some port.toNat := by
    unfold Text.parseBelow
    rw [Text.stripPlus_toDigits, Text.digits?_toDigits]
    dsimp only
    rw [if_pos port.toNat_lt]
  unfold parsePort
  rw [hread]
  dsimp only
  rw [if_neg (by simp [hnat])]
  simp

theorem EndpointSpec.new_of_valid (endpoint : EndpointSpec)
    : EndpointSpec.new endpoint.server endpoint.port = .ok endpoint := by
  unfold EndpointSpec.new
  rw [dif_neg endpoint.nonzero]

theorem parsePort_bind_new (server : ServerAddress) {port : UInt16} (h : some port ≠ some 0)
    : (parsePort (Nat.toDigits 10 port.toNat) >>= fun port => EndpointSpec.new (some server) (some port)) =
        .ok ⟨some server, some port, h⟩ := by
  rw [parsePort_toDigits (fun heq => h (congrArg some heq)), Except.bind_of_ok]
  exact EndpointSpec.new_of_valid ⟨some server, some port, h⟩

theorem parseEndpoint_of_brackets {server : ServerAddress} {segments : List Nat}
    (hserver : server.value = '[' :: canonicalIpv6 segments ++ [']']) (port : Option UInt16)
    (hport : port ≠ some 0)
    : parseEndpoint (EndpointSpec.display ⟨some server, port, hport⟩) = .ok ⟨some server, port, hport⟩ := by
  have hnot : ']' ∉ '[' :: canonicalIpv6 segments := by
    have hinner := not_mem_canonicalIpv6 (c := ']') (by decide) (fun _ => Nat.digitChar_ne ']' rfl) segments
    simp [hinner]
  have hspan (suffix : List Char) : ('[' :: (canonicalIpv6 segments ++ ']' :: suffix)).span (· ≠ ']') =
      ('[' :: canonicalIpv6 segments, ']' :: suffix) := by
    rw [← List.cons_append]
    apply List.span_append
    . intro d hd
      simp only [decide_eq_true_eq]
      rintro rfl
      exact hnot hd
    . simp
  have hparse := parseServer_value server
  rw [hserver] at hparse
  cases port with
  | none =>
    have htext : EndpointSpec.display ⟨some server, none, hport⟩ =
        '[' :: (canonicalIpv6 segments ++ ']' :: []) := by
      simp [EndpointSpec.display, hserver]
    rw [htext]
    unfold parseEndpoint
    dsimp only
    rw [hspan]
    dsimp only
    rw [hparse, Except.bind_of_ok]
    exact EndpointSpec.new_of_valid ⟨some server, none, hport⟩
  | some port =>
    have htext : EndpointSpec.display ⟨some server, some port, hport⟩ =
        '[' :: (canonicalIpv6 segments ++ ']' :: ':' :: Nat.toDigits 10 port.toNat) := by
      simp [EndpointSpec.display, hserver]
    rw [htext]
    unfold parseEndpoint
    dsimp only
    rw [hspan]
    dsimp only
    rw [hparse, Except.bind_of_ok]
    exact parsePort_bind_new server hport

theorem parseEndpoint_of_name {value : List Char} (hne : value ≠ [])
    (hall : ∀ c ∈ value, c.isAlphanum = true ∨ c = '-' ∨ c = '.') (suffix : List Char)
    : parseEndpoint (value ++ suffix) =
        (match Text.rsplitOnce ':' (value ++ suffix) with
          | some (server, port) => do
            let server ← parseServer server
            let port ← parsePort port
            EndpointSpec.new (some server) (some port)
          | none => do
            let server ← parseServer (value ++ suffix)
            EndpointSpec.new (some server) none) := by
  cases value with
  | nil => exact absurd rfl hne
  | cons first value =>
    have hfirst := hall first (by simp)
    rw [List.cons_append]
    unfold parseEndpoint
    split
    . next heq => cases heq
    . next heq =>
      injection heq with hcolon
      rw [hcolon] at hfirst
      exact absurd hfirst (by decide)
    . next heq =>
      injection heq with hbracket
      rw [hbracket] at hfirst
      exact absurd hfirst (by decide)
    . rfl

theorem parseEndpoint_display (endpoint : EndpointSpec) : parseEndpoint endpoint.display = .ok endpoint := by
  obtain ⟨server, port, hport⟩ := endpoint
  cases server with
  | none =>
    cases port with
    | none => rfl
    | some port =>
      change (parsePort (Nat.toDigits 10 port.toNat) >>= fun port => EndpointSpec.new none (some port)) = _
      rw [parsePort_toDigits (fun heq => hport (congrArg some heq)), Except.bind_of_ok]
      exact EndpointSpec.new_of_valid ⟨none, some port, hport⟩
  | some server =>
    rcases server.value_cases with ⟨segments, hvalue⟩ | ⟨hne, hall⟩
    . exact parseEndpoint_of_brackets hvalue port hport
    . have hcolon : ':' ∉ server.value := fun hmem => absurd (hall ':' hmem) (by decide)
      cases port with
      | none =>
        have hread := parseEndpoint_of_name hne hall []
        rw [List.append_nil, Text.rsplitOnce_of_not_mem hcolon] at hread
        rw [EndpointSpec.display, hread, parseServer_value, Except.bind_of_ok]
        exact EndpointSpec.new_of_valid ⟨some server, none, hport⟩
      | some port =>
        have hdigits : ':' ∉ Nat.toDigits 10 port.toNat := Text.not_mem_toDigits (by decide) _
        rw [EndpointSpec.display, parseEndpoint_of_name hne hall, Text.rsplitOnce_append hdigits]
        dsimp only
        rw [parseServer_value, Except.bind_of_ok]
        exact parsePort_bind_new server hport

theorem EndpointSpec.comma_not_mem (endpoint : EndpointSpec) : ',' ∉ endpoint.display := by
  have hdigits (n : Nat) : ',' ∉ Nat.toDigits 10 n := Text.not_mem_toDigits (by decide) n
  obtain ⟨server, port, hport⟩ := endpoint
  cases server with
  | none => cases port <;> simp [EndpointSpec.display, hdigits]
  | some server => cases port <;> simp [EndpointSpec.display, hdigits, server.comma_not_mem]

end Nodelist

end Tith
