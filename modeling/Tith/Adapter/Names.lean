import Tith.Adapter.Inbound
import Tith.Adapter.Runs

/-!
This module contains the names that a plan chooses, and when the ledger's counter gives an item names that
no one of its own files has.
-/

namespace Tith

namespace Adapter

section Hex

theorem digitChar_inj {a b : Nat} (ha : a < 16) (hb : b < 16) (h : Nat.digitChar a = Nat.digitChar b) : a = b := by
  revert h
  have : ∀ a < 16, ∀ b < 16, Nat.digitChar a = Nat.digitChar b → a = b := by decide
  exact this a ha b hb

theorem hex8_inj {v w : Nat} (hv : v < 2 ^ 32) (hw : w < 2 ^ 32) (h : hex8 v = hex8 w) : v = w := by
  have hdigit : ∀ i ∈ [7, 6, 5, 4, 3, 2, 1, 0], v / 16 ^ i % 16 = w / 16 ^ i % 16 := by
    intro i hi
    apply digitChar_inj (Nat.mod_lt _ (by omega)) (Nat.mod_lt _ (by omega))
    exact List.map_inj_left.mp h i hi
  have h0 := hdigit 0 (by simp)
  have h1 := hdigit 1 (by simp)
  have h2 := hdigit 2 (by simp)
  have h3 := hdigit 3 (by simp)
  have h4 := hdigit 4 (by simp)
  have h5 := hdigit 5 (by simp)
  have h6 := hdigit 6 (by simp)
  have h7 := hdigit 7 (by simp)
  norm_num at h0 h1 h2 h3 h4 h5 h6 h7
  omega

theorem length_hex8 (v : Nat) : (hex8 v).length = 8 := by
  simp [hex8]

theorem dot_not_mem_hex8 (v : Nat) : '.' ∉ hex8 v := by
  intro h
  obtain ⟨i, _, hi⟩ := List.mem_map.mp h
  have : ∀ a < 16, Nat.digitChar a ≠ '.' := by decide
  exact this _ (Nat.mod_lt _ (by omega)) hi

/--
The name starts with the digits of an identity.
-/
def Bears (name : String) (v : Nat) : Prop := hex8 v <+: name.toList

theorem Bears.unique {name : String} {v w : Nat} (hv : v < 2 ^ 32) (hw : w < 2 ^ 32) (h : Bears name v)
    (h' : Bears name w)
    : v = w := by
  apply hex8_inj hv hw
  have hlength : (hex8 v).length = (hex8 w).length := by rw [length_hex8, length_hex8]
  exact (List.prefix_of_prefix_length_le h h' hlength.le).eq_of_length hlength

end Hex

section Transfer

theorem transferName_kept {filename : String} (h : isKept filename = true) (identity : Nat)
    : transferName filename identity = transferName filename 0 := by
  unfold isKept at h
  simp [transferName, h]

theorem bears_transferName {filename : String} (h : isKept filename = false) (identity : Nat)
    : Bears (transferName filename identity) identity := by
  unfold isKept at h
  simp only [Bears, transferName, h, Bool.false_eq_true, if_false, String.toList_ofList]
  exact List.prefix_append ..

theorem bears_packetName (identity : Nat) : Bears (packetName identity) identity := by
  simp only [Bears, packetName, String.toList_ofList]
  exact List.prefix_append ..

theorem transferName_generated {filename : String} (h : isKept filename = false)
    : ∃ extension, ∀ identity, (transferName filename identity).toList = hex8 identity ++ '.' :: extension ∧
        (ticName (transferName filename identity)).toList = hex8 identity ++ ".tic".toList := by
  unfold isKept at h
  refine ⟨keptExtension (filename.toList.map Char.toLower), ?_⟩
  intro identity
  have hname : (transferName filename identity).toList =
      hex8 identity ++ '.' :: keptExtension (filename.toList.map Char.toLower) := by
    simp only [transferName, h, Bool.false_eq_true, if_false, String.toList_ofList]
  refine ⟨hname, ?_⟩
  rw [ticName, String.toList_ofList, hname, List.takeWhile_append_of_pos]
  . simp
  . intro c hc
    have : c ≠ '.' := by
      rintro rfl
      exact dot_not_mem_hex8 identity hc
    simpa using this

theorem transferName_ne_ticName {filename : String} (h : transferName filename 0 ≠ ticName (transferName filename 0))
    (identity : Nat)
    : transferName filename identity ≠ ticName (transferName filename identity) := by
  -- Whether a file has the name of its TIC does not depend on the identity.
  cases hkept : isKept filename with
  | true =>
    rw [transferName_kept hkept]
    exact h
  | false =>
    obtain ⟨extension, hnames⟩ := transferName_generated hkept
    intro heq
    apply h
    have hlists := congrArg String.toList heq
    rw [(hnames identity).1, (hnames identity).2] at hlists
    apply String.toList_inj.mp
    rw [(hnames 0).1, (hnames 0).2, List.append_cancel_left hlists]

theorem bears_ticName {filename : String} (h : isKept filename = false) (identity : Nat)
    : Bears (ticName (transferName filename identity)) identity := by
  obtain ⟨_, hnames⟩ := transferName_generated h
  unfold Bears
  rw [(hnames identity).2]
  exact List.prefix_append ..

end Transfer

section Counter

theorem exists_identity {names : List String} {width : Nat} (hroom : (names.length + 1) * width ≤ 2 ^ 32)
    (least : Nat)
    : ∃ identity, least ≤ identity ∧ ∃ first, first + width ≤ 2 ^ 32 ∧
        (∀ k < width, truncate (identity + 1 + k) = first + k) ∧
        ∀ name ∈ names, ∀ k < width, ¬Bears name (first + k) := by
  classical
  let value (name : String) : Nat := if h : ∃ v < 2 ^ 32, Bears name v then h.choose else 0
  have hvalue : ∀ name v, v < 2 ^ 32 → Bears name v → value name = v := by
    intro name v hv hbears
    have hexists : ∃ v < 2 ^ 32, Bears name v := ⟨v, hv, hbears⟩
    have hchoose := hexists.choose_spec
    simp only [value, dif_pos hexists]
    exact Bears.unique hchoose.1 hv hchoose.2 hbears
  -- There are more windows of identities than names, and every name lies in one of them.
  obtain ⟨j, hj, hfree⟩ : ∃ j ∈ Finset.range (names.length + 1), j ∉ (names.map (value · / width)).toFinset := by
    apply Finset.exists_mem_notMem_of_card_lt_card
    have := List.toFinset_card_le (names.map (value · / width))
    rw [List.length_map] at this
    rw [Finset.card_range]
    omega
  rw [Finset.mem_range] at hj
  have hbound : j * width + width ≤ 2 ^ 32 := by
    calc j * width + width = (j + 1) * width := by ring
      _ ≤ (names.length + 1) * width := Nat.mul_le_mul_right _ (by omega)
      _ ≤ 2 ^ 32 := hroom
  refine ⟨2 ^ 32 * (least + 1) + j * width - 1, ?_, j * width, hbound, ?_, ?_⟩
  . have : 2 ^ 32 * (least + 1) ≥ least + 1 := Nat.le_mul_of_pos_left _ (by norm_num)
    omega
  . intro k hk
    have hsum : 2 ^ 32 * (least + 1) + j * width - 1 + 1 + k = 2 ^ 32 * (least + 1) + (j * width + k) := by
      have : 0 < 2 ^ 32 * (least + 1) := by positivity
      omega
    unfold truncate
    rw [hsum, Nat.mul_add_mod, Nat.mod_eq_of_lt (by omega)]
  . intro name hname k hk hbears
    apply hfree
    rw [List.mem_toFinset, List.mem_map]
    refine ⟨name, hname, ?_⟩
    rw [hvalue name _ (by omega) hbears, Nat.mul_comm, Nat.mul_add_div (by omega), Nat.div_eq_of_lt hk, Nat.add_zero]

end Counter

section Companions

def attachmentNames (filenames : List String) (identity : Nat) : List String :=
  match filenames with
  | [] => []
  | filename :: rest => transferName filename (truncate (identity + 1)) :: attachmentNames rest (identity + 1)

theorem attachmentNames_cases {filenames : List String} {identity : Nat} {name : String}
    (h : name ∈ attachmentNames filenames identity)
    : (∃ filename ∈ filenames, isKept filename = true ∧ name = transferName filename 0) ∨
        ∃ k < filenames.length, Bears name (truncate (identity + 1 + k)) := by
  -- Every name that a plan chooses is one that all plans choose, or bears one of the next identities.
  induction filenames generalizing identity with
  | nil => cases h
  | cons filename rest ih =>
    rcases List.mem_cons.mp h with rfl | h
    . cases hkept : isKept filename with
      | true => exact .inl ⟨filename, List.mem_cons_self .., hkept, transferName_kept hkept _⟩
      | false => exact .inr ⟨0, by simp, bears_transferName hkept _⟩
    . rcases ih h with ⟨filename', hmem, hkept⟩ | ⟨k, hk, hbears⟩
      . exact .inl ⟨filename', List.mem_cons_of_mem _ hmem, hkept⟩
      . refine .inr ⟨k + 1, by simp; omega, ?_⟩
        rwa [show identity + 1 + (k + 1) = identity + 1 + 1 + k by omega]

theorem nodup_attachmentNames {filenames : List String} {identity first width : Nat}
    (hkept : ((filenames.filter isKept).map fun filename => transferName filename 0).Nodup)
    (hwidth : filenames.length ≤ width) (hfirst : first + width ≤ 2 ^ 32)
    (hidentity : ∀ k < width, truncate (identity + 1 + k) = first + k)
    (hfree : ∀ filename ∈ filenames, isKept filename = true → ∀ k < width, ¬Bears (transferName filename 0) (first + k))
    : (attachmentNames filenames identity).Nodup := by
  induction filenames generalizing identity first width with
  | nil => exact List.nodup_nil
  | cons filename rest ih =>
    simp only [List.length_cons] at hwidth
    have hhead : truncate (identity + 1) = first := hidentity 0 (by omega)
    have hrest : ∀ k < width - 1, truncate (identity + 1 + 1 + k) = first + 1 + k := by
      intro k hk
      rw [show identity + 1 + 1 + k = identity + 1 + (k + 1) by omega, hidentity (k + 1) (by omega)]
      omega
    have hfree' : ∀ filename ∈ rest, isKept filename = true → ∀ k < width - 1,
        ¬Bears (transferName filename 0) (first + 1 + k) := by
      intro filename' hmem hkept' k hk
      rw [show first + 1 + k = first + (k + 1) by omega]
      exact hfree filename' (List.mem_cons_of_mem _ hmem) hkept' (k + 1) (by omega)
    have htail : ((rest.filter isKept).map fun filename => transferName filename 0).Nodup := by
      apply List.Nodup.sublist _ hkept
      exact ((List.sublist_cons_self filename rest).filter isKept).map _
    refine List.nodup_cons.mpr ⟨?_, ih htail (by omega) (by omega) hrest hfree'⟩
    intro hmem
    rw [hhead] at hmem
    cases hkeptHead : isKept filename with
    | true =>
      rw [transferName_kept hkeptHead] at hmem
      rcases attachmentNames_cases hmem with ⟨filename', hmem', hkept', heq⟩ | ⟨k, hk, hbears⟩
      . rw [List.filter_cons, if_pos hkeptHead, List.map_cons, List.nodup_cons] at hkept
        apply hkept.1
        rw [heq]
        exact List.mem_map_of_mem (List.mem_filter.mpr ⟨hmem', hkept'⟩)
      . rw [hrest k (by omega)] at hbears
        apply hfree filename (List.mem_cons_self ..) hkeptHead (k + 1) (by omega)
        rwa [show first + (k + 1) = first + 1 + k by omega]
    | false =>
      have hown := bears_transferName hkeptHead first
      rcases attachmentNames_cases hmem with ⟨filename', hmem', hkept', heq⟩ | ⟨k, hk, hbears⟩
      . apply hfree filename' (List.mem_cons_of_mem _ hmem') hkept' 0 (by omega)
        rw [← heq]
        exact hown
      . rw [hrest k (by omega)] at hbears
        have := Bears.unique (by omega) (by omega) hown hbears
        omega

/--
The names of the objects of a plan, from the identity that the ledger has handed out last.
-/
inductive NamesOf (c : Companions) (identity : Nat) : List String → Prop where
  | none : NamesOf c identity []
  | message (h : c.tic = false)
    : NamesOf c identity
        (attachmentNames c.filenames identity ++ [packetName (truncate (identity + 1 + c.filenames.length))])
  | file (filename : String) (h : c.filenames = [filename]) (notice : List String)
      (hnotice : notice = [] ∨ notice = [packetName (truncate (identity + 1 + 1))])
    : NamesOf c identity
        (transferName filename (truncate (identity + 1)) ::
          (if c.tic then [ticName (transferName filename (truncate (identity + 1)))] else []) ++ notice)

/--
The identities that the next plan may use are not borne by any of the names.
-/
structure FreshWindow (names : List String) (identity first width : Nat) : Prop where
  bound : first + width ≤ 2 ^ 32
  identities : ∀ k < width, truncate (identity + 1 + k) = first + k
  free : ∀ name ∈ names, ∀ k < width, ¬Bears name (first + k)

variable {c : Companions} {identity first width : Nat} {names taken : List String}

theorem kept_mem_keptNames {filename : String} (hmem : filename ∈ c.filenames) (hkept : isKept filename = true)
    : transferName filename 0 ∈ c.keptNames := by
  have : transferName filename 0 ∈ (c.filenames.filter isKept).map fun filename => transferName filename 0 :=
    List.mem_map_of_mem (List.mem_filter.mpr ⟨hmem, hkept⟩)
  unfold Companions.keptNames
  dsimp only
  split
  . exact List.mem_append_left _ this
  . exact this

theorem tic_mem_keptNames {filename : String} (htic : c.tic = true) (hmem : filename ∈ c.filenames)
    (hkept : isKept filename = true)
    : ticName (transferName filename 0) ∈ c.keptNames := by
  unfold Companions.keptNames
  dsimp only
  rw [if_pos htic]
  apply List.mem_append_right
  exact List.mem_map_of_mem (List.mem_map_of_mem (List.mem_filter.mpr ⟨hmem, hkept⟩))

theorem nodup_kept (h : c.keptNames.Nodup)
    : ((c.filenames.filter isKept).map fun filename => transferName filename 0).Nodup := by
  unfold Companions.keptNames at h
  dsimp only at h
  split at h
  . exact (List.nodup_append.mp h).1
  . exact h

/--
In a fresh window the names of a plan are all different, and each of them is one that all plans choose or
bears an identity of the window.
-/
theorem NamesOf.fresh (h : NamesOf c identity names) (hdistinct : c.Distinct)
    (hwidth : width = c.filenames.length + 1) (hwindow : FreshWindow (taken ++ c.keptNames) identity first width)
    : names.Nodup ∧ ∀ name ∈ names, name ∈ c.keptNames ∨ ∃ k < width, Bears name (first + k) := by
  have hkeptFree : ∀ filename ∈ c.filenames, isKept filename = true → ∀ k < width,
      ¬Bears (transferName filename 0) (first + k) := by
    intro filename hmem hkept
    exact hwindow.free _ (List.mem_append_right _ (kept_mem_keptNames hmem hkept))
  cases h with
  | none => exact ⟨List.nodup_nil, by simp⟩
  | message htic =>
    have hpacket : Bears (packetName (truncate (identity + 1 + c.filenames.length))) (first + c.filenames.length) := by
      rw [hwindow.identities _ (by omega)]
      exact bears_packetName _
    constructor
    . rw [List.nodup_append]
      refine ⟨nodup_attachmentNames (nodup_kept hdistinct.1) (by omega) hwindow.bound hwindow.identities hkeptFree,
        List.nodup_singleton _, ?_⟩
      intro name hname other hother heq
      rw [List.mem_singleton] at hother
      subst heq
      rw [← hother] at hpacket
      rcases attachmentNames_cases hname with ⟨filename, hmem, hkept, rfl⟩ | ⟨k, hk, hbears⟩
      . exact hkeptFree filename hmem hkept _ (by omega) hpacket
      . rw [hwindow.identities k (by omega)] at hbears
        have hbound := hwindow.bound
        have := Bears.unique (by omega) (by omega) hbears hpacket
        omega
    . intro name hname
      rcases List.mem_append.mp hname with hname | hname
      . rcases attachmentNames_cases hname with ⟨filename, hmem, hkept, rfl⟩ | ⟨k, hk, hbears⟩
        . exact .inl (kept_mem_keptNames hmem hkept)
        . rw [hwindow.identities k (by omega)] at hbears
          exact .inr ⟨k, by omega, hbears⟩
      . rw [List.mem_singleton] at hname
        subst hname
        exact .inr ⟨_, by omega, hpacket⟩
  | file filename hfilenames notice hnotice =>
    have hmem : filename ∈ c.filenames := by simp [hfilenames]
    have hone : width = 2 := by rw [hwidth, hfilenames]; rfl
    have hfirst : truncate (identity + 1) = first := hwindow.identities 0 (by omega)
    have hsecond : truncate (identity + 1 + 1) = first + 1 := hwindow.identities 1 (by omega)
    rw [hfirst]
    rw [hsecond] at hnotice
    have hname : transferName filename first ∈ c.keptNames ∨ Bears (transferName filename first) first := by
      cases hkept : isKept filename with
      | true =>
        rw [transferName_kept hkept]
        exact .inl (kept_mem_keptNames hmem hkept)
      | false => exact .inr (bears_transferName hkept first)
    have htic : c.tic = true → ticName (transferName filename first) ∈ c.keptNames ∨
        Bears (ticName (transferName filename first)) first := by
      intro htic
      cases hkept : isKept filename with
      | true =>
        rw [transferName_kept hkept]
        exact .inl (tic_mem_keptNames htic hmem hkept)
      | false => exact .inr (bears_ticName hkept first)
    have hne : ∀ name, name ∈ c.keptNames ∨ Bears name first → name ≠ packetName (first + 1) := by
      rintro name hname rfl
      have hpacket := bears_packetName (first + 1)
      have hbound := hwindow.bound
      rcases hname with hkept | hbears
      . exact hwindow.free _ (List.mem_append_right _ hkept) 1 (by omega) hpacket
      . have := Bears.unique (by omega) (by omega) hbears hpacket
        omega
    have hwindowed : ∀ name, name ∈ c.keptNames ∨ Bears name first →
        name ∈ c.keptNames ∨ ∃ k < width, Bears name (first + k) :=
      fun name h => h.imp id (fun hbears => ⟨0, by omega, hbears⟩)
    have hnoticed : ∀ name ∈ notice, name = packetName (first + 1) := by
      intro name hmem
      rcases hnotice with rfl | rfl
      . cases hmem
      . exact List.mem_singleton.mp hmem
    have hnodup : notice.Nodup := by
      rcases hnotice with rfl | rfl
      . exact List.nodup_nil
      . exact List.nodup_singleton _
    have hmine : ∀ name ∈ transferName filename first :: (if c.tic then [ticName (transferName filename first)] else []),
        name ∈ c.keptNames ∨ Bears name first := by
      intro name hmem'
      rcases List.mem_cons.mp hmem' with rfl | hmem'
      . exact hname
      . split at hmem'
        . next h =>
          rw [List.mem_singleton] at hmem'
          subst hmem'
          exact htic h
        . cases hmem'
    constructor
    . rw [List.nodup_append]
      refine ⟨?_, hnodup, ?_⟩
      . split
        . next h =>
          rw [List.nodup_cons]
          refine ⟨?_, List.nodup_singleton _⟩
          rw [List.mem_singleton]
          exact transferName_ne_ticName (hdistinct.2 h filename hmem) first
        . exact List.nodup_singleton _
      . intro name hname' other hother heq
        rw [hnoticed other hother] at heq
        exact hne name (hmine name hname') heq
    . intro name hname'
      rcases List.mem_append.mp hname' with hname' | hname'
      . exact hwindowed name (hmine name hname')
      . rw [hnoticed name hname']
        exact .inr ⟨1, by omega, bears_packetName _⟩

end Companions

end Adapter

end Tith
