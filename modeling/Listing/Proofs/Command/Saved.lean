/-
A style that was saved can be used by its name.

One run of the command leaves a file, and the next finds a preset in it.  The file has
the saved name in lower case, lies in the directory of presets and is loaded with the
others there (`lookup_after_write`).  It asks for every setting of the profile that was
saved, so it gives that profile back, whatever it is laid over
(`apply_written_ofProfile`).  A name that starts with a brace is the exception: it can be
saved, but as a style it is read as JSON (`profile_of_brace`).
-/
import Listing.Command.Run
import Listing.Proofs.Settings
import Listing.Proofs.Style.PresetFile
import Listing.Proofs.Style.Snapshot
import Listing.Proofs.Style.Spec

namespace Listing

/-! ## Snapshots in files -/

namespace Overrides

theorem name_of_mem_ofProfile {p : Profile} {e : Text × Text}
    (he : e ∈ (ofProfile p).colours.entries) : ∃ slot : Slot, e.1 = slot.name := by
  obtain ⟨slot, rfl⟩ := Palette.mem_entries.mp (Dict.mem_of_mem_ofList he)
  exact ⟨slot, rfl⟩

theorem keeps_ofProfile (p : Profile) : PresetFormat.toml.Keeps (ofProfile p).toOutline := by
  refine keeps_toml fun hhead => ?_
  obtain ⟨e, he, hdate⟩ := List.mem_map.mp (List.mem_of_mem_head? hhead)
  obtain ⟨slot, hslot⟩ := name_of_mem_ofProfile he
  rw [hslot] at hdate
  cases slot <;> exact absurd hdate (by decide)

theorem apply_written_ofProfile {p : Profile} (h : p.IsValid) (base : Profile) :
    (Presets.withoutBase (ofJson (ofProfile p).toOutline.value)).apply base = p := by
  have hkeys : ∀ e ∈ (ofProfile p).colours.entries, Text.asciiLowercase e.1 = e.1 := by
    intro e he
    obtain ⟨slot, hslot⟩ := name_of_mem_ofProfile he
    rw [hslot]
    cases slot <;> decide
  rw [withoutBase_value hkeys, apply_settled, apply_ofProfile h]

end Overrides

namespace Command

theorem isValid_withWidth {p : Profile} (h : p.IsValid) (width : Option Nat) :
    (withWidth p width).IsValid := by
  cases width with
  | none => exact h
  | some n =>
    refine { h with maxWidth := ?_ }
    show Profile.minWidth ≤ Profile.clampWidth n ∧ Profile.clampWidth n ≤ Profile.maxWidthLimit
    unfold Profile.clampWidth Profile.minWidth Profile.maxWidthLimit
    omega

/-! ## The file of a preset -/

theorem isPlain_fileName {name : Text} (h : isPresetName name = true) :
    Path.IsPlain (Text.lowercase name ++ ".toml".toList) := by
  have hlong : ∀ other : Text, other.length ≤ 2 → Text.lowercase name ++ ".toml".toList ≠ other := by
    intro other hother heq
    have hlength := congrArg List.length heq
    rw [List.length_append] at hlength
    have hfive : (".toml".toList).length = 5 := rfl
    omega
  refine ⟨?_, ?_, hlong _ (by decide)⟩
  · intro hslash
    rcases List.mem_append.mp hslash with hslash | hslash
    · have hmem : '/' ∈ name := Text.mem_of_mem_lowercase (by decide +kernel) hslash
      rw [isPresetName, Bool.and_eq_true] at h
      exact absurd (List.all_eq_true.mp h.2 '/' hmem) (by decide)
    · exact absurd hslash (by decide)
  · rw [Path.isIdle, Bool.or_eq_false_iff, List.isEmpty_eq_false_iff, beq_eq_false_iff_ne]
    exact ⟨hlong _ (by decide), hlong _ (by decide)⟩

section

variable {name : Text} (h : isPresetName name = true) (directory : Path)

include h

theorem splitName_fileName : Path.splitName (Text.lowercase name ++ ".toml".toList) =
    (Text.lowercase name, some "toml".toList) := by
  have hne : name ≠ [] := by
    rintro rfl
    exact absurd h (by decide)
  exact Path.splitName_append (Text.lowercase_ne_nil hne) (by decide)

theorem stem?_presetPath : (presetPath directory name).stem? = some (Text.lowercase name) := by
  rw [presetPath, Path.stem?, Path.fileName?_join directory (isPlain_fileName h), Option.map_some,
    splitName_fileName h]

theorem ofPath?_presetPath : PresetFormat.ofPath? (presetPath directory name) = some .toml := by
  rw [PresetFormat.ofPath?, presetPath, Path.extension?,
    Path.fileName?_join directory (isPlain_fileName h), Option.bind_some, splitName_fileName h]
  rfl

end

/-! ## Saving and loading -/

/-- What a successful save finds and does. -/
theorem saveStyle_eq_ok_iff {files written : FileTree} {presets : Presets} {directory : Path}
    {name spec : Text} {width : Option Nat} :
    (∃ note, saveStyle files presets directory name spec width = (written, .ok note)) ↔
      isPresetName (Text.trim name) = true ∧
        ∃ profile, StyleSpec.resolveText presets spec = .ok profile ∧
          PresetFile.write files (presetPath directory (Text.trim name))
            (Overrides.ofProfile (withWidth profile width)) = (written, .ok ()) := by
  unfold saveStyle styleToSave
  simp only
  constructor
  · rintro ⟨note, h⟩
    split at h
    · exact absurd h (by simp)
    · rename_i saved hstyle
      split at hstyle
      · rename_i hname
        split at hstyle
        · exact absurd hstyle (by simp)
        · rename_i profile hprofile
          obtain rfl := Except.ok.inj hstyle
          split at h
          · exact absurd h (by simp)
          · rename_i files' hwrite
            obtain ⟨rfl, -⟩ := Prod.mk.inj h
            exact ⟨hname, profile, hprofile, hwrite⟩
      · exact absurd hstyle (by simp)
  · rintro ⟨hname, profile, hprofile, hwrite⟩
    simp only [hname, if_true, hprofile, hwrite]
    exact ⟨_, rfl⟩

/-- The file of a preset that was written is loaded with its directory, and the name of the
preset stands for what is in it. -/
theorem lookup_after_write {files written : FileTree} {directory : Path} {name : Text}
    {p : Profile} (presets : Presets) (hdirectory : directory.text ≠ [])
    (hname : isPresetName name = true)
    (hwrite : PresetFile.write files (presetPath directory name) (Overrides.ofProfile p) =
      (written, .ok ()))
    (hread : ∀ path ∈ PresetFile.inDirectory written directory,
      path ≠ presetPath directory name → ∃ e, PresetFile.read written path = .ok e)
    (hothers : ∀ path ∈ PresetFile.inDirectory written directory,
      path ≠ presetPath directory name → ∀ stem, path.stem? = some stem →
        Text.canonical stem ≠ Text.canonical name) :
    (presets.loadDirectory written directory).1.lookup name =
      some (Presets.withoutBase (Overrides.ofJson (Overrides.ofProfile p).toOutline.value)) := by
  obtain ⟨format, prepared, hformat, -, hwritten⟩ := PresetFile.write_eq_ok_iff.mp hwrite
  obtain rfl := Option.some.inj (hformat.symm.trans (ofPath?_presetPath hname directory))
  obtain ⟨own, hown⟩ := PresetFile.read_of_written hformat hwritten (Overrides.keeps_ofProfile p)
  obtain ⟨entries, hentries, hmem⟩ :=
    FileTree.mem_entries_of_write hdirectory (isPlain_fileName hname) hwritten
  have hpath : presetPath directory name ∈ PresetFile.inDirectory written directory :=
    (Presets.mem_inDirectory hentries _).mpr ⟨by rw [hformat]; rfl, _, _, hmem, rfl⟩
  have hstore : Presets.fileStore? written (presetPath directory name) = some (Text.lowercase name,
      Overrides.ofJson (Overrides.ofProfile p).toOutline.value) := by
    rw [Presets.fileStore?, hown]
    simp only [stem?_presetPath hname, Option.map_some]
  have hall : ∀ path ∈ PresetFile.inDirectory written directory,
      ∃ e, PresetFile.read written path = .ok e := by
    intro path hmem
    by_cases hsame : path = presetPath directory name
    · exact ⟨_, hsame ▸ hown⟩
    · exact hread path hmem hsame
  have hthere : written.isDirectory directory = true := by
    rw [FileTree.isDirectory, hentries]
  rw [Presets.loadDirectory, if_pos hthere]
  exact Presets.lookup_loadFiles hpath hstore (Text.canonical_lowercase name) hall hothers

/-- A saved style can be used by its name: in a run that loads the directory it was saved
in, where every other file can be read and has another name, its name stands for the
profile that was saved.  As a style the name is looked up unless it starts with a brace,
since then it is read as JSON. -/
theorem profile_of_saveStyle {home : Option Path} {files written : FileTree} {presets : Presets}
    {directory : Path} {name spec note : Text} {width : Option Nat}
    (hdirectory : (Settings.load files home).presets? home = some directory)
    (hsave : saveStyle files presets directory name spec width = (written, .ok note))
    (hread : ∀ path ∈ PresetFile.inDirectory written directory,
      path ≠ presetPath directory (Text.trim name) → ∃ e, PresetFile.read written path = .ok e)
    (hothers : ∀ path ∈ PresetFile.inDirectory written directory,
      path ≠ presetPath directory (Text.trim name) → ∀ stem, path.stem? = some stem →
        Text.canonical stem ≠ Text.canonical name) :
    ∃ profile, StyleSpec.resolveText presets spec = .ok profile ∧
      (loadPresets written (some directory)).resolveName? name =
        some (withWidth profile width) ∧
      ((Text.trim name).head? ≠ some '{' →
        (loadPresets written (some directory)).profile name = withWidth profile width) := by
  obtain ⟨hname, profile, hprofile, hwrite⟩ := saveStyle_eq_ok_iff.mp ⟨note, hsave⟩
  have hlookup := lookup_after_write Presets.standard (Settings.presets?_ne_nil hdirectory) hname
    hwrite hread (by rw [Text.canonical_trim]; exact hothers)
  rw [Presets.lookup_trim] at hlookup
  have hfilled : Text.trim name ≠ [] := by
    intro hnil
    rw [hnil] at hname
    exact absurd hname (by decide)
  have hback := Overrides.apply_written_ofProfile
    (isValid_withWidth (StyleSpec.isValid_of_resolveText hprofile) width) Profile.standard
  refine ⟨profile, hprofile, ?_, ?_⟩
  · rw [loadPresets, Presets.resolveName?_of_lookup hlookup, hback]
  · intro hbrace
    rw [loadPresets, Presets.profile_of_lookup hlookup hfilled hbrace, hback]

/-! ## A name that can be used and one that cannot -/

def someHome : Path := ⟨"h".toList⟩

/-- Where presets are kept in this home without settings. -/
def somePresets : Path := ⟨"h/.codeprint-presets".toList⟩

/-- A home with files in its directory of presets. -/
def homeWith (files : List (Text × Node)) : FileTree :=
  ⟨[("h".toList, .directory [(".codeprint-presets".toList, .directory files)])]⟩

def darkProfile : Profile := Presets.dark.apply Profile.standard

theorem resolveText_dark :
    StyleSpec.resolveText Presets.standard "dark".toList = .ok darkProfile := (rfl)

def widePath : Path := ⟨"h/.codeprint-presets/Wide.json".toList⟩

def wideText : Text := "\x7b\"width\": 120\x7d".toList

/-- The file of another preset. -/
def wideFile : Text × Node := ("Wide.json".toList, .file (Text.encode wideText))

def neonPath : Path := ⟨"h/.codeprint-presets/neon.toml".toList⟩

/-- The home after another file was put beside that one. -/
def neonHome (bytes : ByteArray) : FileTree :=
  homeWith [wideFile, ("neon.toml".toList, .file bytes)]

theorem read_wide (bytes : ByteArray) : ∃ e, PresetFile.read (neonHome bytes) widePath = .ok e := by
  have hname : (PresetFile.name? widePath).isSome = true := by decide +kernel
  have hformat : PresetFormat.ofPath? widePath = some .json := by decide +kernel
  have hfile : (neonHome bytes).read widePath = .ok (Text.encode wideText) := rfl
  exact Presets.exists_read hname hformat hfile (by decide +kernel)

theorem inDirectory_neonHome (bytes : ByteArray) :
    PresetFile.inDirectory (neonHome bytes) somePresets = [widePath, neonPath] := by
  have hnames : (neonHome bytes).fileNames somePresets =
      ["Wide.json".toList, "neon.toml".toList] := rfl
  rw [PresetFile.inDirectory, hnames]
  decide +kernel

theorem profile_of_saveStyle_neon :
    ∃ bytes note profile,
      (Settings.load (homeWith [wideFile]) (some someHome)).presets? (some someHome) =
        some somePresets ∧
      saveStyle (homeWith [wideFile]) Presets.standard somePresets " Neon ".toList "dark".toList
        (some 250) = (neonHome bytes, .ok note) ∧
      PresetFile.inDirectory (neonHome bytes) somePresets = [widePath, neonPath] ∧
      (∃ e, PresetFile.read (neonHome bytes) widePath = .ok e) ∧
      StyleSpec.resolveText Presets.standard "dark".toList = .ok profile ∧
      (loadPresets (neonHome bytes) (some somePresets)).resolveName? " Neon ".toList =
        some (withWidth profile (some 250)) ∧
      (loadPresets (neonHome bytes) (some somePresets)).profile " Neon ".toList =
        withWidth profile (some 250) := by
  have hpath : presetPath somePresets (Text.trim " Neon ".toList) = neonPath := by decide +kernel
  have hformat : PresetFormat.ofPath? neonPath = some .toml := by decide +kernel
  have hname : isPresetName (Text.trim " Neon ".toList) = true := by decide +kernel
  obtain ⟨bytes, hwrite⟩ : ∃ bytes, PresetFile.write (homeWith [wideFile]) neonPath
      (Overrides.ofProfile (withWidth darkProfile (some 250))) = (neonHome bytes, .ok ()) :=
    ⟨_, PresetFile.write_eq_ok_iff.mpr ⟨.toml, homeWith [wideFile], hformat, rfl, rfl⟩⟩
  obtain ⟨note, hsave⟩ := saveStyle_eq_ok_iff.mpr
    ⟨hname, darkProfile, resolveText_dark, hpath.symm ▸ hwrite⟩
  have hdirectory : (Settings.load (homeWith [wideFile]) (some someHome)).presets? (some someHome) =
      some somePresets := rfl
  have hlist := inDirectory_neonHome bytes
  -- The only other file there is the one of the preset `wide`.
  have hother : ∀ path ∈ PresetFile.inDirectory (neonHome bytes) somePresets,
      path ≠ presetPath somePresets (Text.trim " Neon ".toList) → path = widePath := by
    intro path hmem hne
    rw [hlist, List.mem_cons, List.mem_singleton] at hmem
    exact hmem.resolve_right (hpath ▸ hne)
  have hresult := profile_of_saveStyle hdirectory hsave
    (fun path hmem hne => by
      rw [hother path hmem hne]
      exact read_wide bytes)
    (fun path hmem hne stem hstem => by
      have hwide : widePath.stem? = some "Wide".toList := by decide +kernel
      rw [hother path hmem hne, hwide] at hstem
      rw [← Option.some.inj hstem]
      decide +kernel)
  obtain ⟨profile, hprofile, hstored, hused⟩ := hresult
  exact ⟨bytes, note, profile, hdirectory, hsave, hlist, read_wide bytes, hprofile, hstored,
    hused (by decide)⟩

def bracePath : Path := ⟨"h/.codeprint-presets/\x7bx.toml".toList⟩

/-- A name that starts with a brace can be saved like any other, and its file is all there
is in the directory, but as a style it is JSON that cannot be read. -/
theorem profile_of_saveStyle_brace :
    ∃ written note,
      (Settings.load FileTree.empty (some someHome)).presets? (some someHome) =
        some somePresets ∧
      saveStyle FileTree.empty Presets.standard somePresets "\x7bx".toList "dark".toList none =
        (written, .ok note) ∧
      PresetFile.inDirectory written somePresets = [bracePath] ∧
      (∃ e, PresetFile.read written bracePath = .ok e) ∧
      ¬ ∃ profile, StyleSpec.resolveText Presets.standard "dark".toList = .ok profile ∧
        (loadPresets written (some somePresets)).profile "\x7bx".toList =
          withWidth profile none := by
  have hpath : presetPath somePresets (Text.trim "\x7bx".toList) = bracePath := by decide +kernel
  have hformat : PresetFormat.ofPath? bracePath = some .toml := by decide +kernel
  have hname : isPresetName (Text.trim "\x7bx".toList) = true := by decide +kernel
  obtain ⟨bytes, hwritten⟩ : ∃ bytes, (homeWith []).write bracePath (Text.encode
      (PresetFormat.toml.write (Overrides.ofProfile (withWidth darkProfile none)).toOutline)) =
        .ok (homeWith [("\x7bx.toml".toList, .file bytes)]) := ⟨_, rfl⟩
  have hwrite := PresetFile.write_eq_ok_iff.mpr ⟨.toml, homeWith [], hformat,
    (rfl : FileTree.empty.createDirectory bracePath.parent = _), hwritten⟩
  obtain ⟨note, hsave⟩ := saveStyle_eq_ok_iff.mpr
    ⟨hname, darkProfile, resolveText_dark, hpath.symm ▸ hwrite⟩
  refine ⟨_, note, rfl, hsave, ?_, ?_, ?_⟩
  · have hnames : (homeWith [("\x7bx.toml".toList, .file bytes)]).fileNames somePresets =
        ["\x7bx.toml".toList] := rfl
    rw [PresetFile.inDirectory, hnames]
    decide +kernel
  · obtain ⟨name, hread⟩ :=
      PresetFile.read_of_written hformat hwritten (Overrides.keeps_ofProfile _)
    exact ⟨_, hread⟩
  · rintro ⟨profile, hprofile, hused⟩
    obtain rfl := Except.ok.inj (resolveText_dark.symm.trans hprofile)
    rw [Presets.profile_of_brace _ (by decide) (by decide +kernel)] at hused
    exact absurd hused (by decide +kernel)

end Command
end Listing
