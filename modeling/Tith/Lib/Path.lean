import Tith.Lib.Bytes

/-!
This module contains file system paths: byte strings, the components they consist of, and the names at
their ends.
-/

namespace OsPath

abbrev OsString := List UInt8

inductive Component where
  | rootDir
  | curDir
  | parentDir
  | normal (name : OsString)
  deriving DecidableEq, Repr

def slash : UInt8 := 47

def dot : UInt8 := 46

/--
A piece between two slashes. Empty pieces and single dots are no components there.
-/
def component (piece : OsString) : Option Component :=
  if piece = [] ∨ piece = [dot] then
    none
  else if piece = [dot, dot] then
    some .parentDir
  else
    some (.normal piece)

def leading (path : OsString) : List Component :=
  if path.head? = some slash then
    [.rootDir]
  else if (path.splitOnP (· = slash)).head? = some [dot] then
    [.curDir]
  else
    []

def components (path : OsString) : List Component :=
  leading path ++ (path.splitOnP (· = slash)).filterMap component

/--
`PathBuf::push`.
-/
def push (path name : OsString) : OsString :=
  if name.head? = some slash then
    name
  else if path = [] ∨ path.getLast? = some slash then
    path ++ name
  else
    path ++ slash :: name

def fileName (path : List Component) : Option OsString :=
  match path.getLast? with
  | some (.normal name) => some name
  | _ => none

def parent (path : List Component) : Option (List Component) :=
  match path.getLast? with
  | none => none
  | some .rootDir => none
  | some _ => some path.dropLast

def rsplitDot (name : OsString) : Option (OsString × OsString) :=
  match name.reverse.span (· ≠ dot) with
  | (_, []) => none
  | (behind, _ :: front) => some (front.reverse, behind.reverse)

/--
A name without its extension. A dot at the front of a name begins no extension.
-/
def stemOf (name : OsString) : OsString :=
  match rsplitDot name with
  | none => name
  | some (front, _) => if front = [] then name else front

def fileStem (path : List Component) : Option OsString := (fileName path).map stemOf

/--
The bytes of a name that is UTF-8.
-/
def toStr (name : OsString) : Option OsString := if (Bytes.toString? name).isSome then some name else none

def lowerByte (byte : UInt8) : UInt8 := if 65 ≤ byte ∧ byte ≤ 90 then byte + 32 else byte

def toAsciiLowercase (name : OsString) : OsString := name.map lowerByte

def Component.lower (c : Component) : Component :=
  match c with
  | .normal name => .normal (toAsciiLowercase name)
  | c => c

/--
The same path up to the case of ASCII letters.
-/
def SameUpToCase (path path' : List Component) : Prop := path.map Component.lower = path'.map Component.lower

instance (path path' : List Component) : Decidable (SameUpToCase path path') :=
  inferInstanceAs (Decidable (_ = _))

def stripSuffix (ending name : OsString) : Option OsString :=
  if ending <:+ name then some (name.take (name.length - ending.length)) else none

structure IsName (name : OsString) : Prop where
  not_slash : slash ∉ name
  ne_nil : name ≠ []
  ne_dot : name ≠ [dot]
  ne_dots : name ≠ [dot, dot]

theorem splitOnP_name {name : OsString} (h : slash ∉ name) : name.splitOnP (· = slash) = [name] := by
  apply List.splitOnP_eq_singleton
  intro byte hbyte
  rw [decide_eq_false_iff_not]
  rintro rfl
  exact h hbyte

theorem splitOnP_push (path name : OsString)
    : (path ++ slash :: name).splitOnP (· = slash) = path.splitOnP (· = slash) ++ name.splitOnP (· = slash) := by
  apply List.splitOnP_append_cons
  simp

theorem component_name {name : OsString} (h : IsName name) : component name = some (.normal name) := by
  unfold component
  rw [if_neg, if_neg h.ne_dots]
  rintro (hnil | hdot)
  . exact h.ne_nil hnil
  . exact h.ne_dot hdot

theorem head?_ne_slash {name : OsString} (h : slash ∉ name) : name.head? ≠ some slash := by
  intro hhead
  exact h (List.mem_of_head? hhead)

theorem leading_append (path name : OsString) (h : path ≠ [])
    : leading (path ++ slash :: name) = leading path := by
  have hhead : (path ++ slash :: name).head? = path.head? := List.head?_append_of_ne_nil _ h
  have hfirst : ((path ++ slash :: name).splitOnP (· = slash)).head? = (path.splitOnP (· = slash)).head? := by
    rw [splitOnP_push, List.head?_append_of_ne_nil _ (List.splitOnP_ne_nil _ _)]
  unfold leading
  rw [hhead, hfirst]

theorem components_append (path : OsString) {name : OsString} (hpath : path ≠ []) (h : IsName name)
    : components (path ++ slash :: name) = components path ++ [.normal name] := by
  unfold components
  rw [leading_append path name hpath, splitOnP_push, splitOnP_name h.not_slash, List.filterMap_append,
    List.append_assoc]
  simp [component_name h]

theorem components_name {name : OsString} (h : IsName name) : components name = [.normal name] := by
  unfold components leading
  rw [splitOnP_name h.not_slash, if_neg (head?_ne_slash h.not_slash), if_neg]
  . simp [component_name h]
  . rw [List.head?_cons, Option.some.injEq]
    exact h.ne_dot

theorem components_slash (path : OsString) (h : path ≠ []) : components (path ++ [slash]) = components path := by
  unfold components
  rw [leading_append path [] h, splitOnP_push, List.filterMap_append]
  simp [component]

theorem components_push (path : OsString) {name : OsString} (h : IsName name)
    : components (push path name) = components path ++ [.normal name] := by
  unfold push
  rw [if_neg (head?_ne_slash h.not_slash)]
  split
  . next hplain =>
    rcases hplain with rfl | hlast
    . rw [List.nil_append, components_name h]
      rfl
    . -- The slash that is there already separates the name.
      obtain ⟨front, rfl⟩ := List.getLast?_eq_some_iff.mp hlast
      rw [List.append_assoc, List.singleton_append]
      by_cases hfront : front = []
      . subst hfront
        have hname := splitOnP_push [] name
        have hroot := splitOnP_push [] []
        rw [List.nil_append] at hname hroot
        simp only [components, leading, List.nil_append, hname, hroot, splitOnP_name h.not_slash]
        have hpiece : [name].filterMap component = [.normal name] :=
          List.filterMap_cons_some (component_name h)
        simp [hpiece, component]
      . rw [components_append front hfront h, components_slash front hfront]
  . next hplain =>
    apply components_append path _ h
    intro hnil
    exact hplain (.inl hnil)

@[simp]
theorem fileName_append (path : List Component) (name : OsString)
    : fileName (path ++ [.normal name]) = some name := by
  simp [fileName]

@[simp]
theorem parent_append (path : List Component) (name : OsString)
    : parent (path ++ [.normal name]) = some path := by
  simp [parent]

theorem eq_append_of_fileName {path : List Component} {name : OsString} (h : fileName path = some name)
    : ∃ front, path = front ++ [.normal name] ∧ parent path = some front := by
  unfold fileName at h
  split at h
  . next last hlast =>
    injection h with h
    subst h
    obtain ⟨front, rfl⟩ := List.getLast?_eq_some_iff.mp hlast
    exact ⟨front, rfl, parent_append front last⟩
  . cases h

theorem rsplitDot_append (front : OsString) {behind : OsString} (h : dot ∉ behind)
    : rsplitDot (front ++ dot :: behind) = some (front, behind) := by
  have hreverse : (front ++ dot :: behind).reverse = behind.reverse ++ dot :: front.reverse := by
    rw [List.reverse_append, List.reverse_cons, List.append_assoc, List.singleton_append]
  have hspan : (behind.reverse ++ dot :: front.reverse).span (· ≠ dot) = (behind.reverse, dot :: front.reverse) := by
    rw [List.span_eq_takeWhile_dropWhile, List.takeWhile_append_of_pos, List.dropWhile_append_of_pos]
    . simp
    all_goals
      intro byte hbyte
      simp only [ne_eq, decide_not, Bool.not_eq_true', decide_eq_false_iff_not]
      rintro rfl
      exact h (List.mem_reverse.mp hbyte)
  unfold rsplitDot
  rw [hreverse, hspan]
  dsimp only
  rw [List.reverse_reverse, List.reverse_reverse]

theorem stemOf_append {front behind : OsString} (hfront : front ≠ []) (h : dot ∉ behind)
    : stemOf (front ++ dot :: behind) = front := by
  unfold stemOf
  rw [rsplitDot_append front h]
  dsimp only
  rw [if_neg hfront]

theorem toAsciiLowercase_append (a b : OsString)
    : toAsciiLowercase (a ++ b) = toAsciiLowercase a ++ toAsciiLowercase b := by
  simp [toAsciiLowercase]

theorem stripSuffix_eq_some {ending name front : OsString}
    : stripSuffix ending name = some front ↔ name = front ++ ending := by
  unfold stripSuffix
  constructor
  . intro h
    split at h
    . next hsuffix =>
      obtain ⟨before, rfl⟩ := hsuffix
      injection h with h
      rw [← h]
      simp
    . cases h
  . rintro rfl
    rw [if_pos (List.suffix_append _ _)]
    simp

end OsPath
