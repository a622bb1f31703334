/-
Settings survive a file.

Every file gives well-formed settings (`isWellFormed_read`): each value is trimmed, is
part of one line and lies within its bounds.  And well-formed settings are read back
from the file they are written to (`ofText_toText`), because their text is one line
for each value (`toText_eq`) and reading a line gives the key and the value it was
made from (`entry?_line`).
-/
import Listing.Proofs.Dict
import Listing.Proofs.FileTree
import Listing.Proofs.Text.Blank
import Listing.Proofs.Text.Digits
import Listing.Proofs.Text.Lines
import Listing.Settings

namespace Listing
namespace Settings

/-- A text that can stand behind the equals sign of a line. -/
structure IsValue (t : Text) : Prop where
  ne_nil : t ≠ []
  trimmed : Text.trim t = t
  oneLine : '\n' ∉ t

structure IsWellFormed (s : Settings) : Prop where
  style : IsValue s.style
  maxWidth : ∀ n ∈ s.maxWidth, Profile.minWidth ≤ n ∧ n ≤ Profile.maxWidthLimit
  tabWidth : minTabWidth ≤ s.tabWidth ∧ s.tabWidth ≤ maxTabWidth
  /-- The threshold is a number of 64 bits. -/
  rawThreshold : minRawThreshold ≤ s.rawThreshold ∧ s.rawThreshold ≤ Text.maxWord
  presetsDirectory : ∀ path ∈ s.presetsDirectory, IsValue path.text

theorem isWellFormed_standard : standard.IsWellFormed where
  style := ⟨by decide, by decide, by decide⟩
  maxWidth := by simp [standard]
  tabWidth := by decide
  rawThreshold := by decide
  presetsDirectory := by simp [standard]

/-! ## What a file gives -/

theorem value_of_entry? {line key value : Text} (h : entry? line = some (key, value)) :
    Text.trim value = value ∧ ∀ c ∈ value, c ∈ line := by
  unfold entry? at h
  simp only at h
  split at h
  · simp at h
  · obtain ⟨⟨before, after⟩, hsplit, heq⟩ := Option.map_eq_some_iff.mp h
    obtain ⟨-, rfl⟩ := Prod.mk.inj heq
    refine ⟨Text.trim_trim after, ?_⟩
    intro c hc
    refine Text.mem_of_mem_trim ?_
    rw [← Text.append_of_splitAt? hsplit]
    exact List.mem_append_right _ (List.mem_cons_of_mem _ (Text.mem_of_mem_trim hc))

theorem isValue_of_filled? {t key value filled : Text} (h : (entries t).get? key = some value)
    (hfilled : filled? value = some filled) : IsValue filled := by
  obtain ⟨line, hline, hentry⟩ := List.mem_filterMap.mp (Dict.mem_of_get?_ofList h)
  obtain ⟨htrim, hmem⟩ := value_of_entry? hentry
  unfold filled? at hfilled
  split at hfilled
  · simp at hfilled
  · rename_i hne
    obtain rfl := Option.some.inj hfilled
    exact ⟨by simpa using hne, htrim, fun hnl => Text.not_mem_of_mem_lines hline (hmem _ hnl)⟩

theorem le_of_word? {value : Text} {n : Nat} (h : word? value = some n) : n ≤ Text.maxWord := by
  have hread : ∀ digits : Text, (if digits.isEmpty || !digits.all Char.isDigit then none
      else if Text.digitValue digits ≤ Text.maxWord then some (Text.digitValue digits)
      else none) = some n → n ≤ Text.maxWord := by
    intro digits h
    split at h
    · simp at h
    · split at h
      · obtain rfl := Option.some.inj h
        assumption
      · simp at h
  exact hread _ h

theorem isWellFormed_ofText (t : Text) : (ofText t).IsWellFormed where
  style := by
    show IsValue ((((entries t).get? "style".toList).bind filled?).getD standard.style)
    cases h : ((entries t).get? "style".toList).bind filled? with
    | none => exact isWellFormed_standard.style
    | some style =>
      obtain ⟨value, hvalue, hfilled⟩ := Option.bind_eq_some_iff.mp h
      exact isValue_of_filled? hvalue hfilled
  maxWidth := by
    intro n hn
    obtain ⟨w, -, rfl⟩ := Option.map_eq_some_iff.mp hn
    unfold Profile.clampWidth Profile.minWidth Profile.maxWidthLimit
    omega
  tabWidth := by
    show minTabWidth ≤ Option.getD _ _ ∧ Option.getD _ _ ≤ maxTabWidth
    unfold minTabWidth maxTabWidth standard
    cases ((entries t).get? "tab-width".toList).bind word? with
    | none => decide
    | some n =>
      simp only [Option.map_some, Option.getD_some]
      omega
  rawThreshold := by
    show minRawThreshold ≤ Option.getD _ _ ∧ Option.getD _ _ ≤ Text.maxWord
    cases h : ((entries t).get? "raw-threshold".toList).bind word? with
    | none => exact isWellFormed_standard.rawThreshold
    | some n =>
      obtain ⟨value, -, hn⟩ := Option.bind_eq_some_iff.mp h
      have hle := le_of_word? hn
      simp only [Option.map_some, Option.getD_some]
      unfold minRawThreshold Text.maxWord at *
      omega
  presetsDirectory := by
    intro path hpath
    obtain ⟨filled, hfilled, rfl⟩ := Option.map_eq_some_iff.mp hpath
    obtain ⟨value, hvalue, hfilled⟩ := Option.bind_eq_some_iff.mp hfilled
    exact isValue_of_filled? hvalue hfilled

theorem isWellFormed_read (tree : FileTree) (path : Path) : (read tree path).IsWellFormed := by
  unfold read
  split
  · exact isWellFormed_standard
  · split
    · exact isWellFormed_ofText _
    · exact isWellFormed_standard

theorem isWellFormed_load (tree : FileTree) (home : Option Path) :
    (load tree home).IsWellFormed := by
  unfold load
  split
  · exact isWellFormed_read tree _
  · exact isWellFormed_standard

/-- The place where presets are kept is never the empty path. -/
theorem presets?_ne_nil {tree : FileTree} {home : Option Path} {directory : Path}
    (h : (load tree home).presets? home = some directory) : directory.text ≠ [] := by
  unfold presets? at h
  split at h
  · rename_i path hpath
    obtain rfl := Option.some.inj h
    exact ((isWellFormed_load tree home).presetsDirectory path hpath).ne_nil
  · obtain ⟨path, -, rfl⟩ := Option.map_eq_some_iff.mp h
    obtain ⟨between, hbetween⟩ := path.exists_join_text
    rw [hbetween]
    simp

/-! ## What is written -/

/-- The keys and values of a settings file, in the order of its lines. -/
def pairs (s : Settings) : List (String × Text) :=
  [("style", s.style), ("tab-width", Text.ofNat s.tabWidth),
    ("line-numbers", Text.ofBool s.lineNumbers),
    ("reflow-comments", Text.ofBool s.reflowComments),
    ("raw-threshold", Text.ofNat s.rawThreshold)]
    ++ (s.maxWidth.map fun n => ("max-width", Text.ofNat n)).toList
    ++ (s.presetsDirectory.map fun path => ("presets-dir", path.text)).toList

theorem toText_eq (s : Settings) :
    s.toText = header ++ s.pairs.flatMap fun e => entryLine e.1 e.2 := by
  unfold toText pairs
  cases s.maxWidth <;> cases s.presetsDirectory <;> simp

/-- The keys that stand in settings files. -/
def keys : List String :=
  ["style", "tab-width", "line-numbers", "reflow-comments", "raw-threshold", "max-width",
    "presets-dir"]

/-- What reading a line needs to know of its key: it starts with ink that is no hash, it
holds neither an equals sign nor a line feed, and it is found again in front of the
blank. -/
def IsKey (key : String) : Prop :=
  key.toList ≠ [] ∧ Text.indent key.toList = [] ∧ key.toList.head? ≠ some '#' ∧
    '=' ∉ key.toList ∧ '\n' ∉ key.toList ∧ Text.canonical (key.toList ++ [' ']) = key.toList

theorem isKey_of_mem_keys : ∀ key ∈ keys, IsKey key := by
  unfold IsKey keys
  decide +kernel

/-- A line without its line feed. -/
def bareLine (key : String) (value : Text) : Text := key.toList ++ ' ' :: '=' :: ' ' :: value

theorem indent_reverse_bareLine (key : String) {value : Text} (h : IsValue value) :
    Text.indent (bareLine key value).reverse = [] := by
  have hend : Text.indent value.reverse = [] := by
    rw [← h.trimmed]
    exact Text.indent_reverse_trim value
  have hreverse : (bareLine key value).reverse =
      value.reverse ++ (' ' :: '=' :: ' ' :: key.toList.reverse) := by
    simp [bareLine]
  rw [hreverse]
  exact Text.indent_append_of_ne_nil hend (by simpa using h.ne_nil) _

theorem trim_bareLine {key : String} {value : Text} (hkey : IsKey key) (h : IsValue value) :
    Text.trim (bareLine key value) = bareLine key value :=
  Text.trim_eq_self (Text.indent_append_of_ne_nil hkey.2.1 hkey.1 _) (indent_reverse_bareLine key h)

theorem entry?_bareLine {key : String} {value : Text} (hkey : IsKey key) (h : IsValue value) :
    entry? (bareLine key value) = some (key.toList, value) := by
  obtain ⟨hne, -, hhash, hequals, -, hcanonical⟩ := id hkey
  have hhead : (bareLine key value).head? ≠ some '#' := by
    rw [bareLine, List.head?_append_of_ne_nil _ hne]
    exact hhash
  have hsplit : Text.splitAt? '=' (bareLine key value) =
      some (key.toList ++ [' '], ' ' :: value) := by
    have hbefore : '=' ∉ key.toList ++ [' '] := by simp [hequals]
    rw [← Text.splitAt?_append hbefore (' ' :: value), bareLine, List.append_assoc]
    rfl
  unfold entry?
  simp only [trim_bareLine hkey h, if_neg hhead, hsplit, Option.map_some, hcanonical]
  rw [Text.trim_cons_of_isBlank (by decide), h.trimmed]

theorem lines_entryLine {key : String} {value : Text} (hkey : IsKey key) (h : IsValue value)
    (rest : Text) :
    Text.lines (entryLine key value ++ rest) = bareLine key value :: Text.lines rest := by
  have hline : '\n' ∉ bareLine key value := by
    simp [bareLine, hkey.2.2.2.2.1, h.oneLine]
  have hreturn : (bareLine key value).getLast? ≠ some '\r' := by
    intro hlast
    have hindent := indent_reverse_bareLine key h
    rw [← List.head?_reverse] at hlast
    obtain ⟨r, hr⟩ := List.head?_eq_some_iff.mp hlast
    rw [hr] at hindent
    simp [Text.indent, Text.isBlank] at hindent
  rw [← Text.lines_cons hline hreturn rest]
  simp [entryLine, bareLine]

theorem filterMap_lines_pairs {pairs : List (String × Text)}
    (h : ∀ e ∈ pairs, IsKey e.1 ∧ IsValue e.2) :
    (Text.lines (pairs.flatMap fun e => entryLine e.1 e.2)).filterMap entry? =
      pairs.map fun e => (e.1.toList, e.2) := by
  induction pairs with
  | nil => rfl
  | cons e rest ih =>
    obtain ⟨hkey, hvalue⟩ := h e List.mem_cons_self
    rw [List.flatMap_cons, lines_entryLine hkey hvalue, List.filterMap_cons,
      entry?_bareLine hkey hvalue, List.map_cons]
    simp only
    rw [ih fun e he => h e (List.mem_cons_of_mem _ he)]

theorem filterMap_lines_header (rest : Text) :
    (Text.lines (header ++ rest)).filterMap entry? = (Text.lines rest).filterMap entry? := by
  have hend : header.getLast? = some '\n' := by decide +kernel
  have hnone : (Text.lines header).filterMap entry? = [] := by decide +kernel
  rw [Text.lines_append hend, List.filterMap_append, hnone, List.nil_append]

/-! ## Reading back -/

theorem isValue_of_forall_not_blank {t : Text} (hne : t ≠ [])
    (h : ∀ c ∈ t, Text.isBlank c = false) : IsValue t := by
  refine ⟨hne, Text.trim_of_forall_not_blank h, ?_⟩
  intro hnl
  exact absurd (h _ hnl) (by decide)

theorem isValue_ofNat (n : Nat) : IsValue (Text.ofNat n) :=
  isValue_of_forall_not_blank (Text.ofNat_ne_nil n) fun _ hc =>
    Text.isBlank_of_isDigit (Text.isDigit_of_mem_ofNat hc)

theorem isValue_ofBool (b : Bool) : IsValue (Text.ofBool b) := by
  cases b
  · exact ⟨by decide, by decide, by decide⟩
  · exact ⟨by decide, by decide, by decide⟩

theorem isYes_ofBool (b : Bool) : isYes (Text.ofBool b) = b := by
  cases b <;> decide +kernel

theorem isKey_and_isValue_of_mem_pairs {s : Settings} (h : s.IsWellFormed) :
    ∀ e ∈ s.pairs, IsKey e.1 ∧ IsValue e.2 := by
  intro e he
  have hkeys := isKey_of_mem_keys
  simp only [keys, List.forall_mem_cons] at hkeys
  obtain ⟨hstyle, htab, hnumbers, hreflow, hraw, hwidth, hdirectory, -⟩ := hkeys
  simp only [pairs, List.mem_append, List.mem_cons, Option.mem_toList, List.not_mem_nil,
    or_false] at he
  obtain (((rfl | rfl | rfl | rfl | rfl) | he) | he) := he
  · exact ⟨hstyle, h.style⟩
  · exact ⟨htab, isValue_ofNat _⟩
  · exact ⟨hnumbers, isValue_ofBool _⟩
  · exact ⟨hreflow, isValue_ofBool _⟩
  · exact ⟨hraw, isValue_ofNat _⟩
  · obtain ⟨n, -, rfl⟩ := Option.map_eq_some_iff.mp he
    exact ⟨hwidth, isValue_ofNat n⟩
  · obtain ⟨path, hpath, rfl⟩ := Option.map_eq_some_iff.mp he
    exact ⟨hdirectory, h.presetsDirectory path hpath⟩

theorem lookup_map_toList (pairs : List (String × Text)) (key : String) :
    (pairs.map fun e => (e.1.toList, e.2)).lookup key.toList = pairs.lookup key := by
  induction pairs with
  | nil => rfl
  | cons e rest ih =>
    have hkey : (key.toList == e.1.toList) = (key == e.1) := by
      rw [Bool.eq_iff_iff, beq_iff_eq, beq_iff_eq, String.toList_inj]
    rw [List.map_cons, List.lookup_cons, hkey, ih, ← List.lookup_cons]

theorem get?_entries_toText {s : Settings} (h : s.IsWellFormed) (key : String) :
    (entries s.toText).get? key.toList = s.pairs.lookup key := by
  have hnodup : ((s.pairs.map fun e => (e.1.toList, e.2)).map Prod.fst).Nodup := by
    unfold pairs
    cases s.maxWidth <;> cases s.presetsDirectory <;> simp
  rw [entries, toText_eq, filterMap_lines_header,
    filterMap_lines_pairs (isKey_and_isValue_of_mem_pairs h), Dict.get?_ofList_of_nodup hnodup,
    lookup_map_toList]

theorem lookup_pairs (s : Settings) :
    s.pairs.lookup "style" = some s.style ∧
    s.pairs.lookup "max-width" = s.maxWidth.map Text.ofNat ∧
    s.pairs.lookup "tab-width" = some (Text.ofNat s.tabWidth) ∧
    s.pairs.lookup "line-numbers" = some (Text.ofBool s.lineNumbers) ∧
    s.pairs.lookup "reflow-comments" = some (Text.ofBool s.reflowComments) ∧
    s.pairs.lookup "raw-threshold" = some (Text.ofNat s.rawThreshold) ∧
    s.pairs.lookup "presets-dir" = s.presetsDirectory.map Path.text := by
  unfold pairs
  cases s.maxWidth <;> cases s.presetsDirectory <;> simp [List.lookup_cons]

theorem filled?_of_isValue {t : Text} (h : IsValue t) : filled? t = some t := by
  rw [filled?, if_neg (by simpa using h.ne_nil)]

theorem word?_ofNat {n : Nat} (h : n ≤ Text.maxWord) : word? (Text.ofNat n) = some n :=
  Text.natural?_ofNat h

/-- Within its bounds a number is not clamped, and a value that was not chosen is not
written, so each setting comes back from its own line. -/
theorem ofText_toText {s : Settings} (h : s.IsWellFormed) : ofText s.toText = s := by
  obtain ⟨hstyle, hwidth, htab, hnumbers, hreflow, hraw, hdirectory⟩ := lookup_pairs s
  have htabs := h.tabWidth
  have hraws := h.rawThreshold
  have hwords : Text.maxWord = 0xFFFFFFFFFFFFFFFF := rfl
  have hmaxWidth : ((s.maxWidth.map Text.ofNat).bind word?).map Profile.clampWidth =
      s.maxWidth := by
    cases hmax : s.maxWidth with
    | none => rfl
    | some n =>
      have hn := h.maxWidth n hmax
      unfold Profile.minWidth Profile.maxWidthLimit at hn
      have hclamp : Profile.clampWidth n = n := by
        unfold Profile.clampWidth Profile.minWidth Profile.maxWidthLimit
        omega
      simp only [Option.map_some, Option.bind_some, word?_ofNat (n := n) (by omega), hclamp]
  have hdirectories : ((s.presetsDirectory.map Path.text).bind filled?).map Path.mk =
      s.presetsDirectory := by
    cases hpath : s.presetsDirectory with
    | none => rfl
    | some path =>
      simp only [Option.map_some, Option.bind_some,
        filled?_of_isValue (h.presetsDirectory path hpath)]
  unfold minTabWidth maxTabWidth at htabs
  unfold minRawThreshold at hraws
  have hclampTab : max minTabWidth (min s.tabWidth maxTabWidth) = s.tabWidth := by
    unfold minTabWidth maxTabWidth
    omega
  have hclampRaw : max minRawThreshold s.rawThreshold = s.rawThreshold := by
    unfold minRawThreshold
    omega
  unfold ofText ofEntries
  simp only [get?_entries_toText h, hstyle, hwidth, htab, hnumbers, hreflow, hraw, hdirectory,
    Option.bind_some, Option.map_some, Option.getD_some, filled?_of_isValue h.style, hmaxWidth,
    hdirectories, word?_ofNat (n := s.tabWidth) (by omega), word?_ofNat hraws.2, isYes_ofBool,
    hclampTab, hclampRaw]

theorem read_of_write {s : Settings} (h : s.IsWellFormed) {tree written : FileTree} {path : Path}
    (hwrite : s.write tree path = .ok written) : read written path = s := by
  rw [read, FileTree.read_of_write hwrite]
  simp only [Text.decode?_encode]
  exact ofText_toText h

/-- Whatever a file holds, it gives well-formed settings, and files keep those: what was
written to a file is read from it, so settings that came from one file are still the
same after they went through another. -/
theorem files_keep_settings (tree : FileTree) (path : Path) :
    (read tree path).IsWellFormed ∧
      (∀ s : Settings, s.IsWellFormed → ∀ (before written : FileTree) (target : Path),
        s.write before target = .ok written → read written target = s) ∧
      ∀ (before written : FileTree) (target : Path),
        (read tree path).write before target = .ok written →
          read written target = read tree path := by
  have hformed := isWellFormed_read tree path
  refine ⟨hformed, ?_, ?_⟩
  · intro s hs before written target hwrite
    exact read_of_write hs hwrite
  · intro before written target hwrite
    exact read_of_write hformed hwrite

/-- Settings with the signs of the file's own format in their values. -/
def awkward : Settings where
  style := "\x7b\"width\" = 1\x7d # '\r'".toList
  maxWidth := some 200
  tabWidth := 16
  lineNumbers := true
  rawThreshold := Text.maxWord
  presetsDirectory := some ⟨"../a = b/#c".toList⟩

theorem files_keep_settings_awkward :
    awkward.IsWellFormed ∧ ∃ written,
      awkward.write FileTree.empty ⟨".codeprint.conf".toList⟩ = .ok written ∧
        read written ⟨".codeprint.conf".toList⟩ = awkward := by
  have hformed : awkward.IsWellFormed := by
    refine ⟨⟨by decide, by decide, by decide⟩, ?_, by decide, by decide, ?_⟩
    · rintro n ⟨⟩
      decide
    · rintro path ⟨⟩
      exact ⟨by decide, by decide, by decide⟩
  have hwrite : ∀ bytes, FileTree.empty.write ⟨".codeprint.conf".toList⟩ bytes =
      .ok (FileTree.empty.put [".codeprint.conf".toList] (.file bytes)) := by
    intro bytes
    rfl
  refine ⟨hformed, _, hwrite _, ?_⟩
  exact (files_keep_settings FileTree.empty ⟨[]⟩).2.1 awkward hformed _ _ _ (hwrite _)

end Settings
end Listing
