/-
The names of the presets of a directory.

Loading a directory gives one name for each of its preset files, in the order of the files
(`names_loadDirectory`).  A name is the stem of its file in lower case, so the order of the files
need not be that of the names: capitals come before small letters, and a sign that comes before
the dot brings a longer name to the front (`not_sorted_loadDirectory`).  Where no file has such a
name, the names are sorted.
-/
import Listing.Proofs.Path
import Listing.Proofs.Style.Registry
import Listing.Proofs.Text.ByteOrder
import Mathlib.Data.List.Forall2

namespace Listing
namespace Presets

/-- The name of a preset is the stem of its file in lower case. -/
def NamedAfter (path : Path) (name : Text) : Prop :=
  ∃ stem, path.stem? = some stem ∧ name = Text.lowercase stem

/-- Files that can all be loaded are, and each gives its name. -/
theorem names_loadFiles {tree : FileTree} {paths : List Path}
    (h : ∀ path ∈ paths, ∃ e, PresetFile.read tree path = .ok e) (presets : Presets) :
    ∃ names, (presets.loadFiles tree paths).2 = .ok names ∧
      List.Forall₂ NamedAfter paths names := by
  induction paths generalizing presets with
  | nil => exact ⟨[], rfl, .nil⟩
  | cons path rest ih =>
    obtain ⟨e, hfail, -⟩ | ⟨stem, o, hread, hstem, -⟩ := read_cases tree path
    · obtain ⟨stored, hstored⟩ := h path List.mem_cons_self
      exact absurd (hfail.symm.trans hstored) (by simp)
    · obtain ⟨names, hnames, hall⟩ := ih (fun other hother =>
        h other (List.mem_cons_of_mem path hother)) (presets.register (Text.lowercase stem) o)
      refine ⟨Text.lowercase stem :: names, ?_, .cons ⟨stem, hstem, rfl⟩ hall⟩
      simp only [loadFiles, Presets.loadFile, hread, hnames]
      rfl

/-- The names of the preset files among the files of a directory. -/
def presetFiles (tree : FileTree) (directory : Path) : List Text :=
  (tree.fileNames directory).filter fun file =>
    (PresetFormat.ofPath? (directory.join file)).isSome

theorem inDirectory_eq_map (tree : FileTree) (directory : Path) :
    PresetFile.inDirectory tree directory = (presetFiles tree directory).map directory.join :=
  List.filter_map

theorem mem_presetFiles {tree : FileTree} {directory : Path} {entries : List (Text × Node)}
    (hdirectory : tree.at? directory = some (.directory entries)) {file : Text} :
    file ∈ presetFiles tree directory ↔
      (PresetFormat.ofPath? (directory.join file)).isSome = true ∧
        ∃ bytes, (file, Node.file bytes) ∈ entries := by
  rw [presetFiles, List.mem_filter, mem_fileNames hdirectory, and_comm]

theorem names_presetFiles (presets : Presets) {tree : FileTree} {directory : Path}
    {entries : List (Text × Node)} (hdirectory : tree.at? directory = some (.directory entries))
    (hload : ∀ file ∈ presetFiles tree directory,
      ∃ e, PresetFile.read tree (directory.join file) = .ok e) :
    ∃ names, (presets.loadDirectory tree directory).2 = .ok names ∧
      List.Forall₂ (fun file name => NamedAfter (directory.join file) name)
        (presetFiles tree directory) names := by
  have hread : ∀ path ∈ PresetFile.inDirectory tree directory,
      ∃ e, PresetFile.read tree path = .ok e := by
    rw [inDirectory_eq_map]
    exact List.forall_mem_map.mpr hload
  obtain ⟨names, hnames, hall⟩ := names_loadFiles hread presets
  rw [inDirectory_eq_map, List.forall₂_map_left_iff] at hall
  have hisDirectory : tree.isDirectory directory = true := by
    rw [FileTree.isDirectory, hdirectory]
  exact ⟨names, by rw [loadDirectory, if_pos hisDirectory, hnames], hall⟩

/-! ## Order -/

/-- A stem in lower case whose characters all come after the dot. -/
structure IsOrderly (stem : Text) : Prop where
  small : Text.lowercase stem = stem
  aboveDot : ∀ c ∈ stem, '.' < c

/-- A file whose name keeps its place when the extension is left out. -/
structure IsOrderlyFile (file : Text) : Prop where
  plain : Path.IsPlain file
  stem : IsOrderly (Path.splitName file).1

theorem append_dot_lt {a b : Text} (h : a < b) (hb : ∀ c ∈ b, '.' < c) (x y : Text) :
    a ++ '.' :: x < b ++ '.' :: y := by
  induction h with
  | nil => exact .rel (hb _ List.mem_cons_self)
  | rel hcd => exact .rel hcd
  | cons _ ih => exact .cons (ih fun c hc => hb c (List.mem_cons_of_mem _ hc))

/-- The name of an orderly preset file is what stands before the last dot. -/
theorem name_of_isOrderlyFile {directory : Path} {file name : Text} (h : IsOrderlyFile file)
    (hformat : (PresetFormat.ofPath? (directory.join file)).isSome = true)
    (hname : NamedAfter (directory.join file) name) :
    (∃ ext, name ++ '.' :: ext = file) ∧ ∀ c ∈ name, '.' < c := by
  have hfile := Path.fileName?_join directory h.plain
  obtain ⟨stem, hstem, rfl⟩ := hname
  rw [Path.stem?, hfile, Option.map_some] at hstem
  obtain rfl := Option.some.inj hstem
  rw [h.stem.small]
  refine ⟨?_, h.stem.aboveDot⟩
  rw [PresetFormat.ofPath?, Path.extension?, hfile, Option.bind_some] at hformat
  obtain ⟨format, hformat⟩ := Option.isSome_iff_exists.mp hformat
  obtain ⟨ext, hext, -⟩ := Option.bind_eq_some_iff.mp hformat
  exact ⟨ext, Path.append_of_splitName (Prod.ext rfl hext)⟩

theorem pairwise_names {directory : Path} {files names : List Text}
    (hall : List.Forall₂ (fun file name => NamedAfter (directory.join file) name) files names)
    (hformat : ∀ file ∈ files, (PresetFormat.ofPath? (directory.join file)).isSome = true)
    (hsorted : files.Pairwise (· < ·)) (horderly : ∀ file ∈ files, IsOrderlyFile file) :
    names.Pairwise fun a b => ¬ b < a := by
  rw [List.pairwise_iff_getElem] at hsorted ⊢
  intro i j hi hj hij hlt
  have hi' : i < files.length := hall.length_eq ▸ hi
  have hj' : j < files.length := hall.length_eq ▸ hj
  obtain ⟨⟨x, hx⟩, habove⟩ := name_of_isOrderlyFile (horderly _ (List.getElem_mem hi'))
    (hformat _ (List.getElem_mem hi')) (hall.get hi' hi)
  obtain ⟨⟨y, hy⟩, -⟩ := name_of_isOrderlyFile (horderly _ (List.getElem_mem hj'))
    (hformat _ (List.getElem_mem hj')) (hall.get hj' hj)
  have hback : files[j] < files[i] := hy ▸ hx ▸ append_dot_lt hlt habove y x
  exact List.lt_asymm (hsorted i j hi' hj' hij) hback

/-- If all the preset files of a directory can be loaded, loading it gives one name for each of
them: its stem in lower case, in the order of the bytes of the file names.  This is the order of
the names where all the files are orderly. -/
theorem names_loadDirectory (presets : Presets) {tree : FileTree} {directory : Path}
    {entries : List (Text × Node)} (hdirectory : tree.at? directory = some (.directory entries))
    (hload : ∀ file bytes, (file, Node.file bytes) ∈ entries →
      (PresetFormat.ofPath? (directory.join file)).isSome = true →
        ∃ e, PresetFile.read tree (directory.join file) = .ok e) :
    ∃ files names, (presets.loadDirectory tree directory).2 = .ok names ∧
      (∀ file, file ∈ files ↔ (PresetFormat.ofPath? (directory.join file)).isSome = true ∧
        ∃ bytes, (file, Node.file bytes) ∈ entries) ∧
      files.Pairwise Text.BytesBefore ∧
      List.Forall₂ (fun file name => NamedAfter (directory.join file) name) files names ∧
      ((∀ file ∈ files, IsOrderlyFile file) →
        names.Pairwise fun a b => ¬ Text.BytesBefore b a) := by
  have hmem : ∀ file, file ∈ presetFiles tree directory ↔
      (PresetFormat.ofPath? (directory.join file)).isSome = true ∧
        ∃ bytes, (file, Node.file bytes) ∈ entries := fun _ => mem_presetFiles hdirectory
  have hsorted : (presetFiles tree directory).Pairwise (· < ·) :=
    (pairwise_fileNames tree directory).filter _
  obtain ⟨names, hnames, hall⟩ := names_presetFiles presets hdirectory fun file hfile => by
    obtain ⟨hformat, bytes, hentry⟩ := (hmem file).mp hfile
    exact hload file bytes hentry hformat
  refine ⟨presetFiles tree directory, names, hnames, hmem, hsorted.imp Text.bytesBefore_of_lt,
    hall, fun horderly => ?_⟩
  simp only [Text.bytesBefore_iff]
  exact pairwise_names hall (fun file hfile => ((hmem file).mp hfile).1) hsorted horderly

/-! ## Two files with the same settings -/

def someDirectory : Path := ⟨"p".toList⟩

def settings : Text := "maxWidth = 90".toList

def twoFiles (a b : Text) : List (Text × Node) :=
  [(a, .file (Text.encode settings)), (b, .file (Text.encode settings))]

def withFiles (entries : List (Text × Node)) : FileTree := ⟨[("p".toList, .directory entries)]⟩

theorem exists_read_settings {tree : FileTree} {path : Path}
    (hname : (PresetFile.name? path).isSome = true)
    (hformat : PresetFormat.ofPath? path = some .toml)
    (hfile : tree.read path = .ok (Text.encode settings)) :
    ∃ e, PresetFile.read tree path = .ok e :=
  exists_read hname hformat hfile (by decide +kernel)

theorem mem_twoFiles {a b file : Text} {bytes : ByteArray}
    (h : (file, Node.file bytes) ∈ twoFiles a b) : file = a ∨ file = b :=
  (List.mem_cons.mp h).imp (congrArg Prod.fst) fun h => congrArg Prod.fst (List.mem_singleton.mp h)

def orderlyFiles : List (Text × Node) := twoFiles "light.toml".toList "dark.toml".toList

theorem read_orderlyFiles (file : Text) (bytes : ByteArray)
    (h : (file, Node.file bytes) ∈ orderlyFiles) :
    ∃ e, PresetFile.read (withFiles orderlyFiles) (someDirectory.join file) = .ok e := by
  rcases mem_twoFiles h with rfl | rfl
  · exact exists_read_settings (by decide +kernel) (by decide +kernel) rfl
  · exact exists_read_settings (by decide +kernel) (by decide +kernel) rfl

theorem isOrderlyFile_of_mem {file : Text} {bytes : ByteArray}
    (h : (file, Node.file bytes) ∈ orderlyFiles) : IsOrderlyFile file := by
  have habove : ∀ stem : Text, stem.all (fun c => decide ('.' < c)) = true → ∀ c ∈ stem, '.' < c :=
    fun _ h c hc => of_decide_eq_true (List.all_eq_true.mp h c hc)
  rcases mem_twoFiles h with rfl | rfl
  · exact ⟨⟨by decide, by decide, by decide⟩, ⟨by decide +kernel, habove _ (by decide)⟩⟩
  · exact ⟨⟨by decide, by decide, by decide⟩, ⟨by decide +kernel, habove _ (by decide)⟩⟩

theorem names_loadDirectory_orderly :
    (∀ file bytes, (file, Node.file bytes) ∈ orderlyFiles →
      ∃ e, PresetFile.read (withFiles orderlyFiles) (someDirectory.join file) = .ok e) ∧
    ∃ files names,
      (empty.loadDirectory (withFiles orderlyFiles) someDirectory).2 = .ok names ∧
      "light.toml".toList ∈ files ∧ "dark.toml".toList ∈ files ∧
      List.Forall₂ (fun file name => NamedAfter (someDirectory.join file) name) files names ∧
      names.Pairwise fun a b => ¬ Text.BytesBefore b a := by
  have hdirectory : (withFiles orderlyFiles).at? someDirectory =
      some (.directory orderlyFiles) := rfl
  obtain ⟨files, names, hnames, hfiles, -, hall, hsorted⟩ :=
    names_loadDirectory empty hdirectory fun file bytes hmem _ => read_orderlyFiles file bytes hmem
  refine ⟨read_orderlyFiles, ?_⟩
  refine ⟨files, names, hnames, ?_, ?_, hall, hsorted fun file hfile => ?_⟩
  · exact (hfiles _).mpr ⟨by decide +kernel, _, List.mem_cons_self⟩
  · exact (hfiles _).mpr ⟨by decide +kernel, _, List.mem_cons_of_mem _ List.mem_cons_self⟩
  · obtain ⟨-, bytes, hmem⟩ := (hfiles file).mp hfile
    exact isOrderlyFile_of_mem hmem

/-- A capital comes before the small letters, so its file is the first, but its name is not. -/
def mixedFiles : List (Text × Node) := twoFiles "a.toml".toList "B.toml".toList

theorem read_mixedFiles (file : Text) (bytes : ByteArray)
    (h : (file, Node.file bytes) ∈ mixedFiles) :
    ∃ e, PresetFile.read (withFiles mixedFiles) (someDirectory.join file) = .ok e := by
  rcases mem_twoFiles h with rfl | rfl
  · exact exists_read_settings (by decide +kernel) (by decide +kernel) rfl
  · exact exists_read_settings (by decide +kernel) (by decide +kernel) rfl

/-- The preset files can all be loaded, and the names are not sorted. -/
theorem not_sorted_loadDirectory :
    (withFiles mixedFiles).at? someDirectory = some (.directory mixedFiles) ∧
    (∀ file bytes, (file, Node.file bytes) ∈ mixedFiles →
      ∃ e, PresetFile.read (withFiles mixedFiles) (someDirectory.join file) = .ok e) ∧
    (empty.loadDirectory (withFiles mixedFiles) someDirectory).2 =
      .ok ["b".toList, "a".toList] ∧
    ¬ ["b".toList, "a".toList].Pairwise fun a b => ¬ Text.BytesBefore b a := by
  have hfiles : presetFiles (withFiles mixedFiles) someDirectory =
      ["B.toml".toList, "a.toml".toList] := by
    have hentries : (withFiles mixedFiles).fileNames someDirectory =
        ["B.toml".toList, "a.toml".toList] := rfl
    rw [presetFiles, hentries]
    decide +kernel
  have hb : (someDirectory.join "B.toml".toList).stem? = some "B".toList := by decide +kernel
  have ha : (someDirectory.join "a.toml".toList).stem? = some "a".toList := by decide +kernel
  have hdirectory : (withFiles mixedFiles).at? someDirectory =
      some (.directory mixedFiles) := rfl
  refine ⟨hdirectory, read_mixedFiles, ?_, ?_⟩
  · obtain ⟨names, hnames, hall⟩ := names_presetFiles empty hdirectory fun file hfile => by
      obtain ⟨-, bytes, hentry⟩ := (mem_presetFiles hdirectory).mp hfile
      exact read_mixedFiles file bytes hentry
    rw [hfiles] at hall
    obtain _ | ⟨⟨first, hfirst, rfl⟩, _ | ⟨⟨second, hsecond, rfl⟩, _ | _⟩⟩ := hall
    obtain rfl := Option.some.inj (hb.symm.trans hfirst)
    obtain rfl := Option.some.inj (ha.symm.trans hsecond)
    rw [hnames]
    decide +kernel
  · rw [List.pairwise_pair, not_not, Text.bytesBefore_iff]
    decide

end Presets
end Listing
