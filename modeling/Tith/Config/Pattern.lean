import Tith.Config.Basic

/-!
This module contains the parser of address patterns.
-/

namespace Tith

def bracketed (text : List Char) : Option (List Char) :=
  match text with
  | '<' :: rest => if rest.getLast? = some '>' then some rest.dropLast else none
  | _ => none

def parseDomainPattern (text : List Char) : Except AddressError DomainPattern :=
  if text = ['*'] then
    .ok .any
  else
    match bracketed text with
    | some inner => do
      let values ← (inner.splitOn ',').mapM (fun value => do
        validateDomain (String.ofList value)
        .ok (String.ofList value))
      .ok (.list values)
    | none => do
      validateDomain (String.ofList text)
      .ok (.exact (String.ofList text))

def parsePatternNumber (text : List Char) : Except AddressError Int :=
  if text = ['0'] then .ok 0 else parseNumber text true

/--
One range of a list. The first character is never the hyphen between its ends.
-/
def parsePatternRange (value : List Char) (minimum maximum : Int) : Except AddressError (Int × Int) := do
  let (start, stop) ←
    match (value.drop 1).findIdx? (· = '-') with
    | some index => do
      let start ← parsePatternNumber (value.take (index + 1))
      let stop ← parsePatternNumber (value.drop (index + 2))
      .ok (start, stop)
    | none => do
      let number ← parsePatternNumber value
      .ok (number, number)
  if start < minimum ∨ stop > maximum ∨ start > stop then
    .error .invalidWildcard
  else
    .ok (start, stop)

def parseNumberPattern (text : List Char) (minimum maximum : Int) : Except AddressError NumberPattern :=
  if text = ['*'] then
    .ok .any
  else
    match bracketed text with
    | some inner => do
      let ranges ← (inner.splitOn ',').mapM (parsePatternRange · minimum maximum)
      .ok (.list ranges)
    | none => do
      let number ← parsePatternNumber text
      if minimum ≤ number ∧ number ≤ maximum then .ok (.exact number) else .error .outOfRange

def DomainPattern.isWildcard (pattern : DomainPattern) : Bool :=
  match pattern with
  | .any | .list _ => true
  | .exact _ => false

def NumberPattern.isWildcard (pattern : NumberPattern) : Bool :=
  match pattern with
  | .any | .list _ => true
  | .exact _ => false

def patternPrefixes : List Char := ['#', ':', '/', '.']

def patternOrder (c : Char) : Nat := if c = '#' then 1 else if c = ':' then 2 else if c = '/' then 3 else 4

def AddressPattern.fromStr (text : String) : Except AddressError AddressPattern :=
  if text.toList = ['*'] then
    .ok ⟨.any, .any, .any, .any, .any⟩
  else
    let (domainText, rest) := text.toList.span (fun c => !patternPrefixes.contains c)
    if rest = [] then
      .error .invalidWildcard
    else do
      let domain ← parseDomainPattern domainText
      let (pattern, wildcardSeen) ← go rest.length rest ⟨domain, .any, .any, .any, .any⟩ 0 domain.isWildcard
      if wildcardSeen then .ok pattern else .error .invalidWildcard
where
  -- The components behind the domain. Every turn takes at least the prefix.
  go (fuel : Nat) (rest : List Char) (pattern : AddressPattern) (lastPrefix : Nat) (wildcardSeen : Bool)
      : Except AddressError (AddressPattern × Bool) :=
    match rest, fuel with
    | [], _ => .ok (pattern, wildcardSeen)
    | _ :: _, 0 => .error .invalidOrder
    | c :: rest, fuel + 1 =>
      if patternOrder c ≤ lastPrefix then
        .error .invalidOrder
      else do
        let (value, rest) := rest.span (fun c => !patternPrefixes.contains c)
        let parsed ←
          if c = '.' then parseNumberPattern value 0 65535 else parseNumberPattern value (-1) 32767
        let pattern :=
          if c = '#' then
            { pattern with zone := parsed }
          else if c = ':' then
            { pattern with net := parsed }
          else if c = '/' then
            { pattern with node := parsed }
          else
            { pattern with point := parsed }
        go fuel rest pattern (patternOrder c) (wildcardSeen || parsed.isWildcard)

example : (AddressPattern.fromStr "fidonet#1:<2,5-7>").map (fun pattern => pattern.net) =
    .ok (.list [(2, 2), (5, 7)]) := by decide

end Tith
