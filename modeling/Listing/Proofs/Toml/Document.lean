/-
A document reads back to the outline that it was written from.

Every line of a document is read as the assignment or the header that it was written for
(`statements?_line`, `statements?_header`), so the whole document gives the assignments and
sections of the outline (`statements?_toToml`).  Keys that occur once make a table of them
in the order they came in (`addSections_groups`), and the value of that table is the value
of the outline (`ofText?_toToml`).
-/
import Listing.Proofs.Dict
import Listing.Proofs.Toml.Numbers
import Listing.Proofs.Toml.Strings

namespace Listing
namespace Toml

open Outline (tomlKey tomlScalar tomlEntries tomlGroup)

/-! ## Values -/

theorem head_of_tomlText (t : Text) :
    ∃ c r, Outline.tomlText t = c :: r ∧ (decide (c = '"') || decide (c = '\'')) = true := by
  unfold Outline.tomlText
  simp only
  split
  · exact ⟨'"', _, rfl, rfl⟩
  split
  · exact ⟨'\'', _, rfl, rfl⟩
  split
  · exact ⟨'"', _, rfl, rfl⟩
  split
  · exact ⟨'\'', _, rfl, rfl⟩
  split
  · exact ⟨'"', _, rfl, rfl⟩
  · exact ⟨'"', _, rfl, rfl⟩

/-- A run of characters up to the end of its line. -/
theorem valueAt_run {t : Text} (hne : t ≠ []) (h : ∀ c ∈ t, isRunChar c = true)
    (fuel depth : Nat) (rest : Text) :
    valueAt fuel depth (t ++ '\n' :: rest) =
      (runValue? t).map fun v => (.value v, '\n' :: rest) := by
  have hrun : run (t ++ '\n' :: rest) = (t, '\n' :: rest) := by
    unfold run
    rw [List.takeWhile_append_of_pos h, List.dropWhile_append_of_pos h]
    simp [isRunChar]
  obtain ⟨c, r, rfl⟩ := List.exists_cons_of_ne_nil hne
  have hc := h c List.mem_cons_self
  have hother : ∀ d, isRunChar d = false → c ≠ d := by
    rintro d hd rfl
    rw [hc] at hd
    exact absurd hd (by decide)
  have hdouble := hother '"' (by decide)
  have hsingle := hother '\'' (by decide)
  have hbracket := hother '[' (by decide)
  have hbrace := hother '{' (by decide)
  unfold valueAt
  simp only [List.cons_append, hdouble, hsingle, hbracket, hbrace, decide_false, Bool.or_self,
    Bool.false_eq_true, if_false]
  rw [List.cons_append] at hrun
  rw [hrun]

theorem valueAt_tomlScalar (v : Scalar) {fuel : Nat} (hfuel : (tomlScalar v).length < fuel)
    (depth : Nat) (rest : Text) :
    valueAt fuel depth (tomlScalar v ++ '\n' :: rest) =
      some (.value v.value, '\n' :: rest) := by
  cases v with
  | text t =>
    have hlength : t.length < fuel := Nat.lt_of_le_of_lt (length_le_tomlText t) hfuel
    have hstring : string? fuel (Outline.tomlText t ++ '\n' :: rest) = some (t, '\n' :: rest) :=
      string?_tomlText t (by simp) (by simp) hlength
    obtain ⟨c, r, htext, hquote⟩ := head_of_tomlText t
    show valueAt fuel depth (Outline.tomlText t ++ '\n' :: rest) = _
    rw [htext, List.cons_append] at hstring ⊢
    unfold valueAt
    simp only [hquote, if_true, hstring]
    rfl
  | number x =>
    rw [tomlScalar, valueAt_run (tomlNumber_ne_nil x) (fun c hc => isRunChar_of_mem_tomlNumber hc),
      runValue?_tomlNumber]
    rfl
  | flag b =>
    cases b with
    | true =>
      have hall : "true".toList.all isRunChar = true := by decide
      exact valueAt_run (by decide) (List.all_eq_true.mp hall) fuel depth rest
    | false =>
      have hall : "false".toList.all isRunChar = true := by decide
      exact valueAt_run (by decide) (List.all_eq_true.mp hall) fuel depth rest

/-! ## Keys -/

/-- The characters that a written key can start with. -/
def isKeyStart (c : Char) : Bool := isBareKeyChar c || c == '"' || c == '\''

theorem head_of_tomlKey (key : Text) : ∃ c r, tomlKey key = c :: r ∧ isKeyStart c = true := by
  unfold tomlKey
  simp only [Bool.and_eq_true, Bool.not_eq_true', List.all_eq_true]
  split
  · rename_i hbare
    obtain ⟨c, r, rfl⟩ := List.exists_cons_of_ne_nil (List.isEmpty_eq_false_iff.mp hbare.1)
    refine ⟨c, r, rfl, ?_⟩
    have hc : isBareKeyChar c = true := hbare.2 c List.mem_cons_self
    rw [isKeyStart, hc]
    rfl
  split
  · exact ⟨'"', _, rfl, rfl⟩
  split
  · exact ⟨'\'', _, rfl, rfl⟩
  · exact ⟨'"', _, rfl, rfl⟩

theorem ne_of_isKeyStart {c d : Char} (hc : isKeyStart c = true) (hd : isKeyStart d = false) :
    c ≠ d := by
  rintro rfl
  rw [hc] at hd
  exact absurd hd (by decide)

theorem isSpace_of_isKeyStart {c : Char} (hc : isKeyStart c = true) : isSpace c = false := by
  have hblank : c ≠ ' ' := ne_of_isKeyStart hc (by decide)
  have htab : c ≠ '\t' := ne_of_isKeyStart hc (by decide)
  simp [isSpace, hblank, htab]

theorem skipSpace_tomlKey (key rest : Text) :
    skipSpace (tomlKey key ++ rest) = tomlKey key ++ rest := by
  obtain ⟨c, r, hkey, hc⟩ := head_of_tomlKey key
  rw [hkey, List.cons_append, skipSpace,
    List.dropWhile_cons_of_neg (by rw [isSpace_of_isKeyStart hc]; exact Bool.false_ne_true)]

theorem loose_tomlKey (key rest : Text) : loose (tomlKey key ++ rest) = tomlKey key ++ rest := by
  obtain ⟨c, r, hkey, hc⟩ := head_of_tomlKey key
  have hfeed : c ≠ '\n' := ne_of_isKeyStart hc (by decide)
  have hcomment : c ≠ '#' := ne_of_isKeyStart hc (by decide)
  have hreturn : c ≠ '\r' := ne_of_isKeyStart hc (by decide)
  rw [hkey, List.cons_append, loose, skipLoose]
  · simp only [Bool.false_and, Bool.false_eq_true, if_false, isSpace_of_isKeyStart hc, hfeed,
      hcomment, decide_false, Bool.or_self]
  · intro r' heq
    exact absurd heq hreturn

theorem key?_tomlKey (key : Text) {fuel : Nat} (hfuel : (tomlKey key).length < fuel)
    {rest : Text} (hrest : ∀ c ∈ rest.head?, isBareKeyChar c = false)
    (hdot : (skipSpace rest).head? ≠ some '.') :
    key? fuel (tomlKey key ++ rest) = some ([], key, skipSpace rest) := by
  have hlength : key.length < fuel := Nat.lt_of_le_of_lt (length_le_tomlKey key) hfuel
  have hparts : keyParts? fuel maxDepth (tomlKey key ++ rest) =
      some ([key], skipSpace rest) := by
    rw [maxDepth, keyParts?, skipSpace_tomlKey, simpleKey?_tomlKey key hlength hrest]
    simp only
    split
    · rename_i heq
      rw [heq] at hdot
      exact absurd rfl hdot
    · rfl
  rw [key?, hparts]
  rfl

/-! ## Lines -/

/-- What a line with an entry is read as. -/
def assignment (e : Text × Scalar) : Assignment := ⟨[], e.1, .value e.2.value⟩

/-- The reader has enough fuel for everything in an entry. -/
def Fits (fuel : Nat) (e : Text × Scalar) : Prop :=
  (tomlKey e.1).length < fuel ∧ (tomlScalar e.2).length < fuel

theorem skipSpace_tomlScalar (v : Scalar) (rest : Text) :
    skipSpace (tomlScalar v ++ rest) = tomlScalar v ++ rest := by
  have hhead : ∃ c r, tomlScalar v = c :: r ∧ isSpace c = false := by
    cases v with
    | text t =>
      obtain ⟨c, r, htext, hquote⟩ := head_of_tomlText t
      refine ⟨c, r, htext, ?_⟩
      rw [Bool.or_eq_true, decide_eq_true_eq, decide_eq_true_eq] at hquote
      rcases hquote with rfl | rfl
      · rfl
      · rfl
    | number x =>
      obtain ⟨c, r, hnumber⟩ := List.exists_cons_of_ne_nil (tomlNumber_ne_nil x)
      have hc : isRunChar c = true := isRunChar_of_mem_tomlNumber (by rw [hnumber]; simp)
      refine ⟨c, r, hnumber, ?_⟩
      rw [isSpace, Bool.or_eq_false_iff, beq_eq_false_iff_ne, beq_eq_false_iff_ne]
      constructor
      · rintro rfl
        exact absurd hc (by decide)
      · rintro rfl
        exact absurd hc (by decide)
    | flag b =>
      cases b with
      | true => exact ⟨'t', _, rfl, rfl⟩
      | false => exact ⟨'f', _, rfl, rfl⟩
  obtain ⟨c, r, hscalar, hc⟩ := hhead
  rw [hscalar, List.cons_append, skipSpace,
    List.dropWhile_cons_of_neg (by rw [hc]; exact Bool.false_ne_true)]

/-- An entry on a line of its own. -/
def entryLine (e : Text × Scalar) (rest : Text) : Text :=
  tomlKey e.1 ++ ' ' :: '=' :: ' ' :: (tomlScalar e.2 ++ '\n' :: rest)

theorem tomlEntries_cons (e : Text × Scalar) (entries : List (Text × Scalar)) (rest : Text) :
    tomlEntries (e :: entries) ++ rest = entryLine e (tomlEntries entries ++ rest) := by
  simp [tomlEntries, entryLine]

theorem assignment?_entryLine {fuel : Nat} {e : Text × Scalar} (hfits : Fits fuel e)
    (rest : Text) :
    assignment? fuel (valueAt fuel maxDepth) (entryLine e rest) =
      some (assignment e, '\n' :: rest) := by
  have hkey : key? fuel (entryLine e rest) =
      some ([], e.1, '=' :: ' ' :: (tomlScalar e.2 ++ '\n' :: rest)) := by
    refine key?_tomlKey e.1 hfits.1 ?_ (by simp [skipSpace, isSpace])
    rintro c ⟨⟩
    decide
  have hspace : skipSpace (' ' :: (tomlScalar e.2 ++ '\n' :: rest)) =
      tomlScalar e.2 ++ '\n' :: rest := skipSpace_tomlScalar e.2 _
  unfold assignment?
  rw [hkey]
  show (valueAt fuel maxDepth (skipSpace (' ' :: (tomlScalar e.2 ++ '\n' :: rest)))).bind _ = _
  rw [hspace, valueAt_tomlScalar e.2 hfits.2]
  rfl

theorem statements?_newline (fuel count : Nat) (t : Text) :
    statements? fuel count ('\n' :: t) = statements? fuel count t := by
  cases count with
  | zero => rfl
  | succ count =>
    unfold statements?
    rfl

theorem statements?_line {fuel : Nat} {e : Text × Scalar} (hfits : Fits fuel e) (count : Nat)
    (rest : Text) :
    statements? fuel (count + 1) (entryLine e rest) =
      (statements? fuel count rest).map fun (as, ss) => (assignment e :: as, ss) := by
  obtain ⟨c, r, hkey, hc⟩ := head_of_tomlKey e.1
  have hbracket : c ≠ '[' := ne_of_isKeyStart hc (by decide)
  have hloose : loose (entryLine e rest) = entryLine e rest := loose_tomlKey e.1 _
  have hassignment := assignment?_entryLine hfits rest
  have hcons : entryLine e rest =
      c :: (r ++ ' ' :: '=' :: ' ' :: (tomlScalar e.2 ++ '\n' :: rest)) := by
    rw [entryLine, hkey, List.cons_append]
  rw [statements?, hloose]
  rw [hcons] at hassignment ⊢
  split
  · rename_i heq
    exact absurd heq (by simp)
  · rename_i heq
    exact absurd (List.cons.inj heq).1 hbracket
  · rw [hassignment]
    show (statements? fuel count rest).bind _ = _
    cases statements? fuel count rest with
    | none => rfl
    | some found => rfl

/-- A header on a line of its own. -/
def headerLine (key rest : Text) : Text := '[' :: (tomlKey key ++ ']' :: '\n' :: rest)

theorem tomlGroup_append (key : Text) (entries : List (Text × Scalar)) (rest : Text) :
    tomlGroup key entries ++ rest = headerLine key (tomlEntries entries ++ rest) := by
  simp [tomlGroup, headerLine]

theorem header?_headerLine (key : Text) {fuel : Nat} (hfuel : (tomlKey key).length < fuel)
    (rest : Text) :
    header? fuel (headerLine key rest) = some (false, [], key, '\n' :: rest) := by
  have hkey : key? fuel (tomlKey key ++ ']' :: '\n' :: rest) =
      some ([], key, ']' :: '\n' :: rest) := by
    refine key?_tomlKey key hfuel ?_ (by simp [skipSpace, isSpace])
    rintro c ⟨⟩
    decide
  obtain ⟨c, r, hcons, hc⟩ := head_of_tomlKey key
  have hbracket : c ≠ '[' := ne_of_isKeyStart hc (by decide)
  rw [headerLine]
  rw [hcons, List.cons_append] at hkey ⊢
  unfold header?
  split
  · rename_i heq
    exact absurd (List.cons.inj (List.cons.inj heq).2).1 hbracket
  · rename_i heq
    rw [← (List.cons.inj heq).2, hkey]
    rfl
  · rename_i hone
    exact absurd rfl (hone _)

theorem statements?_header (key : Text) {fuel : Nat} (hfuel : (tomlKey key).length < fuel)
    (count : Nat) (rest : Text) :
    statements? fuel (count + 1) (headerLine key rest) =
      (statements? fuel count rest).map fun (as, ss) => ([], ⟨false, [], key, as⟩ :: ss) := by
  have hloose : loose (headerLine key rest) = headerLine key rest := rfl
  have hheader := header?_headerLine key hfuel rest
  rw [headerLine] at hheader
  rw [statements?, hloose, headerLine]
  simp only
  rw [hheader]
  show (statements? fuel count rest).bind _ = _
  cases statements? fuel count rest with
  | none => rfl
  | some found => rfl

/-! ## Documents -/

/-- What a group is read as. -/
def sectionOf (g : Text × List (Text × Scalar)) : Section := ⟨false, [], g.1, g.2.map assignment⟩

theorem statements?_entries {fuel : Nat} {entries : List (Text × Scalar)}
    (hfits : ∀ e ∈ entries, Fits fuel e) (count : Nat) (rest : Text) :
    statements? fuel (entries.length + count) (tomlEntries entries ++ rest) =
      (statements? fuel count rest).map fun (as, ss) => (entries.map assignment ++ as, ss) := by
  induction entries with
  | nil =>
    show statements? fuel (0 + count) rest = _
    rw [Nat.zero_add]
    cases statements? fuel count rest with
    | none => rfl
    | some found => rfl
  | cons e entries ih =>
    have hnext := ih fun e he => hfits e (List.mem_cons_of_mem _ he)
    rw [tomlEntries_cons, List.length_cons, Nat.add_right_comm,
      statements?_line (hfits e List.mem_cons_self), hnext, Option.map_map]
    rfl

/-- Groups, with an empty line in front of each. -/
def groupsText (groups : List (Text × List (Text × Scalar))) : Text :=
  groups.flatMap fun g => '\n' :: tomlGroup g.1 g.2

/-- The lines of groups that hold something. -/
def groupLines (groups : List (Text × List (Text × Scalar))) : Nat :=
  (groups.map fun g => g.2.length + 1).sum

theorem statements?_groups {fuel : Nat} {groups : List (Text × List (Text × Scalar))}
    (hfits : ∀ g ∈ groups, (tomlKey g.1).length < fuel ∧ ∀ e ∈ g.2, Fits fuel e) (count : Nat) :
    statements? fuel (groupLines groups + (count + 1)) (groupsText groups) =
      some ([], groups.map sectionOf) := by
  induction groups with
  | nil =>
    show statements? fuel (0 + (count + 1)) [] = _
    rw [Nat.zero_add]
    rfl
  | cons g groups ih =>
    obtain ⟨hkey, hentries⟩ := hfits g List.mem_cons_self
    have hnext := ih fun g hg => hfits g (List.mem_cons_of_mem _ hg)
    have htext : groupsText (g :: groups) =
        '\n' :: headerLine g.1 (tomlEntries g.2 ++ groupsText groups) := by
      rw [← tomlGroup_append]
      rfl
    have hlines : groupLines (g :: groups) + (count + 1) =
        g.2.length + (groupLines groups + (count + 1)) + 1 := by
      simp only [groupLines, List.map_cons, List.sum_cons]
      omega
    rw [htext, statements?_newline, hlines, statements?_header g.1 hkey,
      statements?_entries hentries, hnext]
    simp [sectionOf]

theorem join_newline (t : Text) (texts : List Text) :
    Text.join ['\n'] (t :: texts) = t ++ texts.flatMap fun u => '\n' :: u := by
  induction texts generalizing t with
  | nil => simp [Text.join]
  | cons u texts ih => simp [Text.join, ih]

theorem join_groups (t : Text) (groups : List (Text × List (Text × Scalar))) :
    Text.join ['\n'] (t :: groups.map fun g => tomlGroup g.1 g.2) = t ++ groupsText groups := by
  rw [join_newline, List.flatMap_map]
  rfl

/-- An outline as a document that starts with an empty line if its first line is a header. -/
def documentText (o : Outline) : Text := tomlEntries o.entries ++ groupsText o.groups

theorem toToml_cases (o : Outline) :
    (∃ e rest, o.toToml = entryLine e rest ∧ o.toToml = documentText o) ∨
      (∃ key rest, o.toToml = headerLine key rest ∧ '\n' :: o.toToml = documentText o) ∨
      o.toToml = [] ∧ o.toToml = documentText o := by
  obtain ⟨entries, groups⟩ := o
  cases entries with
  | cons e entries =>
    have htext : Outline.toToml ⟨e :: entries, groups⟩ =
        tomlEntries (e :: entries) ++ groupsText groups := join_groups _ groups
    exact .inl ⟨e, _, htext.trans (tomlEntries_cons e entries _), htext⟩
  | nil =>
    right
    cases groups with
    | nil => exact .inr ⟨rfl, rfl⟩
    | cons g groups =>
      have htext : Outline.toToml ⟨[], g :: groups⟩ =
          tomlGroup g.1 g.2 ++ groupsText groups := join_groups _ groups
      exact .inl ⟨g.1, _, htext.trans (tomlGroup_append g.1 g.2 _), congrArg ('\n' :: ·) htext⟩

theorem statements?_toToml (o : Outline) {fuel : Nat} (hentries : ∀ e ∈ o.entries, Fits fuel e)
    (hgroups : ∀ g ∈ o.groups, (tomlKey g.1).length < fuel ∧ ∀ e ∈ g.2, Fits fuel e)
    {count : Nat} (hcount : o.entries.length + groupLines o.groups < count) :
    statements? fuel count o.toToml = some (o.entries.map assignment, o.groups.map sectionOf) := by
  obtain ⟨more, rfl⟩ : ∃ more, count = o.entries.length + (groupLines o.groups + (more + 1)) :=
    ⟨count - (o.entries.length + groupLines o.groups) - 1, by omega⟩
  have hdocument : statements? fuel (o.entries.length + (groupLines o.groups + (more + 1)))
      (documentText o) = some (o.entries.map assignment, o.groups.map sectionOf) := by
    rw [documentText, statements?_entries hentries, statements?_groups hgroups]
    simp
  obtain ⟨_, _, _, htext⟩ | ⟨_, _, _, htext⟩ | ⟨_, htext⟩ := toToml_cases o
  · rw [htext, hdocument]
  · rw [← statements?_newline, htext, hdocument]
  · rw [htext, hdocument]

/-! ## Fuel -/

theorem length_entryLine (e : Text × Scalar) (rest : Text) :
    (entryLine e rest).length =
      (tomlKey e.1).length + (tomlScalar e.2).length + rest.length + 4 := by
  simp only [entryLine, List.length_append, List.length_cons]
  omega

theorem length_tomlEntries (entries : List (Text × Scalar)) :
    2 * entries.length ≤ (tomlEntries entries).length ∧
      ∀ e ∈ entries, Fits (tomlEntries entries).length e := by
  induction entries with
  | nil => exact ⟨Nat.le_refl _, by simp⟩
  | cons e entries ih =>
    have hcons : (tomlEntries (e :: entries)).length =
        (tomlKey e.1).length + (tomlScalar e.2).length + (tomlEntries entries).length + 4 := by
      have htext := tomlEntries_cons e entries []
      rw [List.append_nil, List.append_nil] at htext
      rw [htext, length_entryLine]
    refine ⟨?_, ?_⟩
    · rw [hcons, List.length_cons]
      omega
    · intro d hd
      unfold Fits
      rcases List.mem_cons.mp hd with rfl | hd
      · omega
      · have := ih.2 d hd
        unfold Fits at this
        omega

theorem length_groupsText (groups : List (Text × List (Text × Scalar))) :
    2 * groupLines groups ≤ (groupsText groups).length ∧
      ∀ g ∈ groups, (tomlKey g.1).length + (tomlEntries g.2).length + 4 ≤
        (groupsText groups).length := by
  induction groups with
  | nil => exact ⟨Nat.le_refl _, by simp⟩
  | cons g groups ih =>
    have hcons : (groupsText (g :: groups)).length =
        (tomlKey g.1).length + (tomlEntries g.2).length + (groupsText groups).length + 4 := by
      show ('\n' :: (tomlGroup g.1 g.2 ++ groupsText groups)).length = _
      rw [tomlGroup_append]
      simp only [headerLine, List.length_cons, List.length_append]
      omega
    have hentries := (length_tomlEntries g.2).1
    refine ⟨?_, ?_⟩
    · simp only [groupLines, List.map_cons, List.sum_cons] at ih ⊢
      omega
    · intro d hd
      rcases List.mem_cons.mp hd with rfl | hd
      · omega
      · have := ih.2 d hd
        omega

/-! ## Tables -/

/-- The entries of a table that was read from entries. -/
def items (entries : List (Text × Scalar)) : Entries :=
  entries.map fun e => (e.1, .value e.2.value)

theorem map_fst_items (entries : List (Text × Scalar)) :
    (items entries).map Prod.fst = entries.map Prod.fst := by
  rw [items, List.map_map]
  rfl

theorem insertAll_assignments {table : Entries} {entries : List (Text × Scalar)}
    (h : (table.map Prod.fst ++ entries.map Prod.fst).Nodup) :
    insertAll table (entries.map assignment) = some (table ++ items entries) := by
  induction entries generalizing table with
  | nil => exact congrArg some (List.append_nil table).symm
  | cons e entries ih =>
    have hnew : table.lookup e.1 = none := by
      refine Dict.lookup_eq_none_of_not_mem fun hmem => ?_
      exact (List.nodup_append.mp h).2.2 e.1 hmem e.1 List.mem_cons_self rfl
    have hnext : (((table ++ [(e.1, Item.value e.2.value)]).map Prod.fst) ++
        entries.map Prod.fst).Nodup := by
      rw [List.map_append, List.append_assoc]
      exact h
    have hinsert : insertDotted e.1 (.value e.2.value) [] table =
        some (table ++ [(e.1, .value e.2.value)]) := by
      rw [insertDotted, hnew]
    show (insertDotted e.1 (.value e.2.value) [] table).bind
      (insertAll · (entries.map assignment)) = _
    rw [hinsert]
    show insertAll _ _ = _
    rw [ih hnext, List.append_assoc]
    rfl

/-- The table of a group under its key. -/
def groupItem (g : Text × List (Text × Scalar)) : Text × Item :=
  (g.1, .table .defined (items g.2))

theorem addSections_groups {root : Entries} {groups : List (Text × List (Text × Scalar))}
    (hkeys : (root.map Prod.fst ++ groups.map Prod.fst).Nodup)
    (hentries : ∀ g ∈ groups, (g.2.map Prod.fst).Nodup) :
    addSections root (groups.map sectionOf) = some (root ++ groups.map groupItem) := by
  induction groups generalizing root with
  | nil => exact congrArg some (List.append_nil root).symm
  | cons g groups ih =>
    have hnew : root.lookup g.1 = none := by
      refine Dict.lookup_eq_none_of_not_mem fun hmem => ?_
      exact (List.nodup_append.mp hkeys).2.2 g.1 hmem g.1 List.mem_cons_self rfl
    have hnext : ((root ++ [groupItem g]).map Prod.fst ++ groups.map Prod.fst).Nodup := by
      rw [List.map_append, List.append_assoc]
      exact hkeys
    have htable : insertAll [] (g.2.map assignment) = some (items g.2) :=
      insertAll_assignments (hentries g List.mem_cons_self)
    have hadd : (sectionOf g).addTo root = some (root ++ [groupItem g]) := by
      unfold Section.addTo sectionOf
      simp only [hnew, htable]
      rfl
    show ((sectionOf g).addTo root).bind (addSections · (groups.map sectionOf)) = _
    rw [hadd]
    show addSections _ _ = _
    rw [ih hnext fun g hg => hentries g (List.mem_cons_of_mem _ hg), List.append_assoc]
    rfl

/-- A table whose first key does not mark a date has its entries as fields. -/
theorem tableToJson?_eq_some {table : Entries} {fields : List (Text × Json)}
    (hdate : (table.map Prod.fst).head? ≠ some dateField)
    (h : entriesToJson? table = some fields) :
    tableToJson? table = some (Json.ofFields fields) := by
  cases table with
  | nil =>
    rw [entriesToJson?] at h
    rw [← Option.some.inj h]
    rfl
  | cons e table =>
    obtain ⟨key, item⟩ := e
    have hkey : key ≠ dateField := fun heq => hdate (by rw [heq]; rfl)
    rw [entriesToJson?] at h
    rw [tableToJson?.eq_def]
    simp only [if_neg hkey]
    split at h
    · rw [← Option.some.inj h]
    · exact absurd h (by simp)

theorem entriesToJson?_items (entries : List (Text × Scalar)) :
    entriesToJson? (items entries) = some (Outline.fields entries) := by
  induction entries with
  | nil => rfl
  | cons e entries ih =>
    show entriesToJson? ((e.1, .value e.2.value) :: items entries) = _
    rw [entriesToJson?, Item.toJson?, ih]
    rfl

theorem entriesToJson?_append {a b : Entries} {fields more : List (Text × Json)}
    (ha : entriesToJson? a = some fields) (hb : entriesToJson? b = some more) :
    entriesToJson? (a ++ b) = some (fields ++ more) := by
  induction a generalizing fields with
  | nil =>
    rw [entriesToJson?] at ha
    rw [← Option.some.inj ha]
    exact hb
  | cons e a ih =>
    obtain ⟨key, item⟩ := e
    rw [entriesToJson?] at ha
    rw [List.cons_append, entriesToJson?]
    split at ha
    · rename_i v rest hv hrest
      rw [hv, ih hrest, ← Option.some.inj ha]
      rfl
    · exact absurd ha (by simp)

theorem entriesToJson?_groups {groups : List (Text × List (Text × Scalar))}
    (hdate : ∀ g ∈ groups, (g.2.map Prod.fst).head? ≠ some dateField) :
    entriesToJson? (groups.map groupItem) =
      some (groups.map fun g => (g.1, Json.ofFields (Outline.fields g.2))) := by
  induction groups with
  | nil => rfl
  | cons g groups ih =>
    have hgroup : tableToJson? (items g.2) = some (Json.ofFields (Outline.fields g.2)) := by
      refine tableToJson?_eq_some ?_ (entriesToJson?_items g.2)
      rw [map_fst_items]
      exact hdate g List.mem_cons_self
    rw [List.map_cons, groupItem, entriesToJson?, Item.toJson?, hgroup,
      ih fun g hg => hdate g (List.mem_cons_of_mem _ hg)]
    rfl

/-! ## Reading back -/

/-- An outline that can be told from its document: no key occurs twice in one place, and no
table starts with the key that marks a date. -/
structure IsReadable (o : Outline) : Prop where
  keys : (o.topFields.map Prod.fst).Nodup
  groupKeys : ∀ g ∈ o.groups, (g.2.map Prod.fst).Nodup
  noDate : (o.topFields.map Prod.fst).head? ≠ some dateField
  groupNoDate : ∀ g ∈ o.groups, (g.2.map Prod.fst).head? ≠ some dateField

theorem map_fst_topFields (o : Outline) :
    o.topFields.map Prod.fst = o.entries.map Prod.fst ++ o.groups.map Prod.fst := by
  rw [Outline.topFields, List.map_append, Outline.map_fst_fields, List.map_map]
  rfl

theorem head?_toToml (o : Outline) : o.toToml.head? ≠ some '\uFEFF' := by
  obtain ⟨e, rest, htext, -⟩ | ⟨key, rest, htext, -⟩ | ⟨htext, -⟩ := toToml_cases o
  · obtain ⟨c, r, hkey, hc⟩ := head_of_tomlKey e.1
    rw [htext, entryLine, hkey]
    intro hhead
    exact ne_of_isKeyStart hc (by decide) (Option.some.inj hhead)
  · rw [htext, headerLine]
    simp
  · rw [htext]
    simp

theorem ofText?_of_head? {t : Text} (h : t.head? ≠ some '\uFEFF') :
    ofText? t = (statements? (t.length + 1) (t.length + 1) t).bind fun (assignments, sections) =>
      (insertAll [] assignments).bind fun root =>
        (addSections root sections).bind tableToJson? := by
  unfold ofText?
  split
  · exact absurd rfl h
  · rfl

/-- The text of a document is as long as its lines, and longer than anything in them. -/
theorem fits_toToml (o : Outline) :
    o.entries.length + groupLines o.groups < o.toToml.length + 1 ∧
      (∀ e ∈ o.entries, Fits (o.toToml.length + 1) e) ∧
      ∀ g ∈ o.groups, (tomlKey g.1).length < o.toToml.length + 1 ∧
        ∀ e ∈ g.2, Fits (o.toToml.length + 1) e := by
  obtain ⟨hentries, hentry⟩ := length_tomlEntries o.entries
  obtain ⟨hgroups, hgroup⟩ := length_groupsText o.groups
  have hdocument : (documentText o).length ≤ o.toToml.length + 1 := by
    obtain ⟨_, _, _, htext⟩ | ⟨_, _, _, htext⟩ | ⟨_, htext⟩ := toToml_cases o
    · rw [← htext]
      omega
    · rw [← htext, List.length_cons]
    · rw [← htext]
      omega
  rw [documentText, List.length_append] at hdocument
  refine ⟨by omega, ?_, ?_⟩
  · intro e he
    have hfits := hentry e he
    unfold Fits at hfits ⊢
    omega
  · intro g hg
    have hlength := hgroup g hg
    refine ⟨by omega, ?_⟩
    intro e he
    have hfits := (length_tomlEntries g.2).2 e he
    unfold Fits at hfits ⊢
    omega

theorem ofText?_toToml {o : Outline} (h : IsReadable o) : ofText? o.toToml = some o.value := by
  have hkeys := h.keys
  have hdate := h.noDate
  rw [map_fst_topFields] at hkeys hdate
  obtain ⟨hlines, hentries, hgroups⟩ := fits_toToml o
  have hinsert : insertAll [] (o.entries.map assignment) = some (items o.entries) :=
    insertAll_assignments (List.nodup_append.mp hkeys).1
  have hsections : addSections (items o.entries) (o.groups.map sectionOf) =
      some (items o.entries ++ o.groups.map groupItem) := by
    refine addSections_groups ?_ h.groupKeys
    rw [map_fst_items]
    exact hkeys
  have htable : tableToJson? (items o.entries ++ o.groups.map groupItem) = some o.value := by
    refine tableToJson?_eq_some ?_ (entriesToJson?_append (entriesToJson?_items o.entries)
      (entriesToJson?_groups h.groupNoDate))
    rw [List.map_append, map_fst_items, List.map_map]
    exact hdate
  rw [ofText?_of_head? (head?_toToml o), statements?_toToml o hentries hgroups hlines]
  simp only [Option.bind_some, hinsert, hsections, htable]

end Toml
end Listing
