/-
Presets that were written to a file and loaded from it.

Writing and reading go by different rules: a group that asks for nothing is left out,
names are looked for under several spellings, keys of colours are put in lower case,
and a number that is not finite is lost on the way.  Overrides that were read from a
value come through this unchanged but for those numbers (`withoutBase_ofJson_value`),
which no profile takes (`apply_settled`).  So a preset means the same after it was written
to a file and loaded (`loadFile_written_preset`), given that the format gives back the
values of the outline that is written in it.  TOML does unless a colour is named like the
mark of dates (`keeps_toml`), and JSON does for every number that comes back from its own
digits (`keeps_json`).
-/
import Listing.Proofs.Dict
import Listing.Proofs.FileTree
import Listing.Proofs.Json.Document
import Listing.Proofs.Outline
import Listing.Proofs.Style.Registry
import Listing.Proofs.Toml.Document

namespace Listing

/-- The format gives back the value of this outline when it is written and read. -/
def PresetFormat.Keeps (format : PresetFormat) (o : Outline) : Prop :=
  format.read (format.write o) = .ok o.value

namespace Outline

variable {α : Type}

theorem lookup_fields_entry (name : String) (scalar : α → Scalar) (setting : Option α)
    (key : Text) :
    (fields (entry name scalar setting)).lookup key =
      if key = name.toList then setting.map fun a => (scalar a).value else none := by
  cases setting with
  | none => simp [entry, fields]
  | some a =>
    by_cases hkey : key = name.toList
    · simp [entry, fields, hkey]
    · simp [entry, fields, hkey, List.lookup_cons, beq_false_of_ne hkey]

theorem map_fst_entry_sublist (name : String) (scalar : α → Scalar) (setting : Option α) :
    ((entry name scalar setting).map Prod.fst).Sublist [name.toList] := by
  cases setting with
  | none => exact List.nil_sublist _
  | some a => exact List.Sublist.refl _

theorem map_snd_entry (name : String) (scalar : α → Scalar) (setting : Option α) :
    (entry name scalar setting).map Prod.snd = setting.toList.map scalar := by
  cases setting with
  | none => rfl
  | some a => rfl

/-- Groups that are left out because they are empty cannot be told from missing ones. -/
theorem lookup_groups {groups : List (Text × List (Text × Scalar))}
    (hkeys : (groups.map Prod.fst).Nodup) (key : Text) :
    ((groups.filter fun (_, entries) => !entries.isEmpty).map
        fun g => (g.1, Json.ofFields (fields g.2))).lookup key =
      ((groups.lookup key).filter (!·.isEmpty)).map fun entries =>
        Json.ofFields (fields entries) := by
  induction groups with
  | nil => rfl
  | cons g rest ih =>
    obtain ⟨name, entries⟩ := g
    rw [List.map_cons, List.nodup_cons] at hkeys
    have hrest := ih hkeys.2
    by_cases hkey : key = name
    · subst hkey
      cases entries with
      | nil =>
        rw [Dict.lookup_eq_none_of_not_mem hkeys.1] at hrest
        rw [List.filter_cons_of_neg (by simp), hrest, List.lookup_cons_self]
        rfl
      | cons e entries =>
        rw [List.filter_cons_of_pos (by simp), List.map_cons, List.lookup_cons_self,
          List.lookup_cons_self]
        rfl
    · have hb : (key == name) = false := beq_false_of_ne hkey
      cases entries with
      | nil =>
        rw [List.filter_cons_of_neg (by simp), hrest, List.lookup_cons, hb]
      | cons e entries =>
        rw [List.filter_cons_of_pos (by simp), List.map_cons, List.lookup_cons, hb, hrest,
          List.lookup_cons, hb]

end Outline

namespace Overrides

/-! ## Reading what was written -/

/-- The groups of overrides, those that ask for nothing among them. -/
def groups (o : Overrides) : List (Text × List (Text × Scalar)) :=
  [("colors".toList, o.colours.entries.map fun (key, colour) => (key, Scalar.text colour)),
    ("fontSizes".toList,
      Outline.entry "comment" .number o.fontSizes.comment
        ++ Outline.entry "code" .number o.fontSizes.code),
    ("fonts".toList,
      Outline.entry "comment" .text o.fonts.comment ++ Outline.entry "code" .text o.fonts.code),
    ("fontStyles".toList,
      Outline.entry "commentBold" .flag o.fontStyles.commentBold
        ++ Outline.entry "commentItalic" .flag o.fontStyles.commentItalic
        ++ Outline.entry "codeBold" .flag o.fontStyles.codeBold
        ++ Outline.entry "codeItalic" .flag o.fontStyles.codeItalic)]

theorem groups_toOutline (o : Overrides) :
    o.toOutline.groups = o.groups.filter fun (_, entries) => !entries.isEmpty := rfl

theorem mem_groups {o : Overrides} {g : Text × List (Text × Scalar)}
    (h : g ∈ o.toOutline.groups) : g ∈ o.groups := by
  rw [groups_toOutline] at h
  exact List.mem_of_mem_filter h

/-- The names of everything that overrides can ask for. -/
def topNames : List Text :=
  ["preset".toList, "maxWidth".toList, "colors".toList, "fontSizes".toList, "fonts".toList,
    "fontStyles".toList]

theorem topFields_sublist (o : Overrides) :
    (o.toOutline.topFields.map Prod.fst).Sublist topNames := by
  have hentries : (o.toOutline.entries.map Prod.fst).Sublist
      ["preset".toList, "maxWidth".toList] := by
    show ((Outline.entry _ _ _ ++ Outline.entry _ _ _).map Prod.fst).Sublist _
    rw [List.map_append]
    exact (Outline.map_fst_entry_sublist _ _ _).append (Outline.map_fst_entry_sublist _ _ _)
  have hgroups : (o.toOutline.groups.map Prod.fst).Sublist
      ["colors".toList, "fontSizes".toList, "fonts".toList, "fontStyles".toList] := by
    rw [groups_toOutline]
    exact List.filter_sublist.map Prod.fst
  rw [Outline.topFields, List.map_append, Outline.map_fst_fields, List.map_map]
  exact hentries.append hgroups

theorem nodup_topFields (o : Overrides) : (o.toOutline.topFields.map Prod.fst).Nodup :=
  o.topFields_sublist.nodup (by decide)

theorem pair_sublist {α : Type} (scalar : α → Scalar) (pair : Pair (Option α)) :
    ((Outline.entry "comment" scalar pair.comment
      ++ Outline.entry "code" scalar pair.code).map Prod.fst).Sublist
      ["comment".toList, "code".toList] := by
  rw [List.map_append]
  exact (Outline.map_fst_entry_sublist _ _ _).append (Outline.map_fst_entry_sublist _ _ _)

theorem flags_sublist (s : FontStyleOverrides) :
    ((Outline.entry "commentBold" .flag s.commentBold
      ++ Outline.entry "commentItalic" .flag s.commentItalic
      ++ Outline.entry "codeBold" .flag s.codeBold
      ++ Outline.entry "codeItalic" .flag s.codeItalic).map Prod.fst).Sublist
      ["commentBold".toList, "commentItalic".toList, "codeBold".toList,
        "codeItalic".toList] := by
  simp only [List.map_append]
  exact (((Outline.map_fst_entry_sublist _ _ _).append
    (Outline.map_fst_entry_sublist _ _ _)).append
    (Outline.map_fst_entry_sublist _ _ _)).append (Outline.map_fst_entry_sublist _ _ _)

theorem lookup_topFields (o : Overrides) (key : Text) :
    o.toOutline.topFields.lookup key =
      ((if key = "preset".toList then o.preset.map Json.text else none).or
        (if key = "maxWidth".toList then o.maxWidth.map fun x => (Scalar.number x).value
          else none)).or
        (((o.groups.lookup key).filter (!·.isEmpty)).map fun entries =>
          Json.ofFields (Outline.fields entries)) := by
  have hentries : o.toOutline.entries =
      Outline.entry "preset" .text o.preset ++ Outline.entry "maxWidth" .number o.maxWidth := rfl
  have hgroups : (o.groups.map Prod.fst).Nodup := by
    show ["colors".toList, "fontSizes".toList, "fonts".toList, "fontStyles".toList].Nodup
    decide
  rw [Outline.topFields, List.lookup_append, groups_toOutline, Outline.lookup_groups hgroups,
    hentries, Outline.fields_append, List.lookup_append, Outline.lookup_fields_entry,
    Outline.lookup_fields_entry]
  rfl

@[simp] theorem field?_nil (fields : List (Text × Json)) : field? fields [] = none := rfl

@[simp] theorem field?_cons (fields : List (Text × Json)) (name : Text) (names : List Text) :
    field? fields (name :: names) = (fields.lookup name).or (field? fields names) := by
  rw [field?]
  cases fields.lookup name with
  | none => rfl
  | some v => rfl

theorem field?_entries_ofList {fields : List (Text × Json)} (h : (fields.map Prod.fst).Nodup)
    (names : List Text) : field? (Dict.ofList fields).entries names = field? fields names := by
  induction names with
  | nil => rfl
  | cons name names ih =>
    rw [field?_cons, field?_cons, ih]
    exact congrArg (Option.or · _) (Dict.get?_ofList_of_nodup h name)

theorem field?_value (o : Overrides) (names : List Text) :
    field? (o.toOutline.value.fields?.getD []) names = field? o.toOutline.topFields names :=
  field?_entries_ofList o.nodup_topFields names

/-- The fields that are read for a group, whether it was written or left out. -/
def groupFields (v : Json) (names : List Text) : List (Text × Json) :=
  ((field? (v.fields?.getD []) names).bind Json.fields?).getD []

theorem groupFields_value (o : Overrides) {name : Text} {others : List Text}
    {entries : List (Text × Scalar)}
    (h : field? o.toOutline.topFields (name :: others) =
      ((o.groups.lookup name).filter (!·.isEmpty)).map fun entries =>
        Json.ofFields (Outline.fields entries))
    (hname : o.groups.lookup name = some entries) :
    groupFields o.toOutline.value (name :: others) =
      (Dict.ofList (Outline.fields entries)).entries := by
  rw [groupFields, field?_value, h, hname]
  cases entries with
  | nil => rfl
  | cons e rest => rfl

theorem number?_value (x : Option Binary64) :
    (x.map fun x => (Scalar.number x).value).bind number? = x.filter Binary64.isFinite := by
  cases x with
  | none => rfl
  | some x =>
    simp only [Option.map_some, Option.bind_some, Scalar.value, Option.filter_some]
    split
    · rfl
    · rfl

theorem text?_value (t : Option Text) :
    (t.map fun t => (Scalar.text t).value).bind Json.text? = t := by
  cases t with
  | none => rfl
  | some t => rfl

theorem flag?_value (b : Option Bool) :
    (b.map fun b => (Scalar.flag b).value).bind flag? = b := by
  cases b with
  | none => rfl
  | some b => rfl

/-- A pair of settings is read from the fields that it was written to. -/
theorem pair_value {α : Type} (scalar : α → Scalar) (pair : Pair (Option α)) :
    let fields := (Dict.ofList (Outline.fields (Outline.entry "comment" scalar pair.comment
      ++ Outline.entry "code" scalar pair.code))).entries
    field? fields ["comment".toList] = pair.comment.map (fun a => (scalar a).value) ∧
      field? fields ["code".toList] = pair.code.map fun a => (scalar a).value := by
  have hkeys : ((Outline.fields (Outline.entry "comment" scalar pair.comment
      ++ Outline.entry "code" scalar pair.code)).map Prod.fst).Nodup := by
    rw [Outline.map_fst_fields]
    exact (pair_sublist scalar pair).nodup (by decide)
  intro fields
  rw [field?_entries_ofList hkeys, field?_entries_ofList hkeys]
  simp [Outline.lookup_fields_entry, List.lookup_append]

theorem fontSizes_value (o : Overrides) :
    (ofJson o.toOutline.value).fontSizes =
      ⟨o.fontSizes.comment.filter Binary64.isFinite,
        o.fontSizes.code.filter Binary64.isFinite⟩ := by
  have hgroup : groupFields o.toOutline.value ["fontSizes".toList, "font_sizes".toList] = _ :=
    o.groupFields_value (by simp [lookup_topFields, groups, List.lookup_cons]) rfl
  show Pair.mk ((field? (groupFields _ _) _).bind number?)
    ((field? (groupFields _ _) _).bind number?) = _
  rw [hgroup, (pair_value _ _).1, (pair_value _ _).2, number?_value, number?_value]

theorem fonts_value (o : Overrides) : (ofJson o.toOutline.value).fonts = o.fonts := by
  have hgroup : groupFields o.toOutline.value ["fonts".toList] = _ :=
    o.groupFields_value (by simp [lookup_topFields, groups, List.lookup_cons]) rfl
  show Pair.mk ((field? (groupFields _ _) _).bind Json.text?)
    ((field? (groupFields _ _) _).bind Json.text?) = _
  rw [hgroup, (pair_value _ _).1, (pair_value _ _).2, text?_value, text?_value]

theorem fontStyles_value (o : Overrides) :
    (ofJson o.toOutline.value).fontStyles = o.fontStyles := by
  have hgroup : groupFields o.toOutline.value ["fontStyles".toList, "font_styles".toList] = _ :=
    o.groupFields_value (by simp [lookup_topFields, groups, List.lookup_cons]) rfl
  have hkeys : ((Outline.fields (Outline.entry "commentBold" .flag o.fontStyles.commentBold
      ++ Outline.entry "commentItalic" .flag o.fontStyles.commentItalic
      ++ Outline.entry "codeBold" .flag o.fontStyles.codeBold
      ++ Outline.entry "codeItalic" .flag o.fontStyles.codeItalic)).map Prod.fst).Nodup := by
    rw [Outline.map_fst_fields]
    exact (flags_sublist o.fontStyles).nodup (by decide)
  show FontStyleOverrides.mk ((field? (groupFields _ _) _).bind flag?)
    ((field? (groupFields _ _) _).bind flag?) ((field? (groupFields _ _) _).bind flag?)
    ((field? (groupFields _ _) _).bind flag?) = _
  rw [hgroup]
  simp only [field?_entries_ofList hkeys]
  simp +decide only [field?_cons, field?_nil, Outline.fields_append, List.lookup_append,
    Outline.lookup_fields_entry, if_true, if_false, Option.or_none, Option.none_or, flag?_value]

theorem maxWidth_value (o : Overrides) :
    (ofJson o.toOutline.value).maxWidth = o.maxWidth.filter Binary64.isFinite := by
  have hown : o.groups.lookup "maxWidth".toList = none := rfl
  have hsnake : o.groups.lookup "max_width".toList = none := rfl
  have hshort : o.groups.lookup "width".toList = none := rfl
  have hfield : field? o.toOutline.topFields
      ["maxWidth".toList, "max_width".toList, "width".toList] =
        o.maxWidth.map fun x => (Scalar.number x).value := by
    simp +decide only [field?_cons, field?_nil, lookup_topFields, hown, hsnake, hshort, if_true,
      if_false, Option.filter_none, Option.map_none, Option.or_none, Option.none_or]
  show (field? _ _).bind number? = _
  rw [field?_value, hfield, number?_value]

/-- The keys of colours are in lower case, so reading them again does not change them. -/
theorem colours_value {o : Overrides}
    (hkeys : ∀ e ∈ o.colours.entries, Text.asciiLowercase e.1 = e.1) :
    (ofJson o.toOutline.value).colours = o.colours := by
  have hgroup : groupFields o.toOutline.value ["colors".toList, "colours".toList] = _ :=
    o.groupFields_value (by simp [lookup_topFields, groups, List.lookup_cons]) rfl
  have hfields : Outline.fields (o.colours.entries.map fun (key, colour) =>
      (key, Scalar.text colour)) = o.colours.entries.map fun e => (e.1, Json.text e.2) := by
    rw [Outline.fields, List.map_map]
    rfl
  have hsorted : (o.colours.entries.map fun e => (e.1, Json.text e.2)).Pairwise
      (fun a b => a.1 < b.1) :=
    List.pairwise_map.mpr o.colours.sorted
  show readColours (groupFields _ _) = _
  rw [hgroup, readColours, hfields, Dict.entries_ofList hsorted, List.filterMap_map]
  conv => rhs; rw [← Dict.ofList_entries o.colours, ← List.filterMap_some (l := o.colours.entries)]
  refine congrArg Dict.ofList (List.filterMap_congr fun e he => ?_)
  show some (Text.asciiLowercase e.1, e.2) = some e
  rw [hkeys e he]

theorem asciiLowercase_of_mem_colours {v : Json} {e : Text × Text}
    (he : e ∈ (ofJson v).colours.entries) : Text.asciiLowercase e.1 = e.1 := by
  obtain ⟨⟨key, w⟩, -, h⟩ := List.mem_filterMap.mp (Dict.mem_of_mem_ofList he)
  obtain ⟨colour, -, rfl⟩ := Option.map_eq_some_iff.mp h
  exact Text.asciiLowercase_asciiLowercase key

/-- Overrides without a base and without the numbers that are not finite. -/
def settled (o : Overrides) : Overrides where
  maxWidth := o.maxWidth.filter Binary64.isFinite
  colours := o.colours
  fontSizes :=
    ⟨o.fontSizes.comment.filter Binary64.isFinite, o.fontSizes.code.filter Binary64.isFinite⟩
  fonts := o.fonts
  fontStyles := o.fontStyles

/-- Overrides are read back settled from the value that they were written as. -/
theorem withoutBase_value {o : Overrides}
    (hkeys : ∀ e ∈ o.colours.entries, Text.asciiLowercase e.1 = e.1) :
    Presets.withoutBase (ofJson o.toOutline.value) = o.settled := by
  unfold Presets.withoutBase settled
  rw [maxWidth_value, colours_value hkeys, fontSizes_value, fonts_value, fontStyles_value]

theorem withoutBase_ofJson_value (v : Json) :
    Presets.withoutBase (ofJson (ofJson v).toOutline.value) = (ofJson v).settled :=
  withoutBase_value fun _ he => asciiLowercase_of_mem_colours he

/-! ## Numbers that are not finite -/

/-- The numbers that overrides ask for. -/
def numbers (o : Overrides) : List Binary64 :=
  o.maxWidth.toList ++ o.fontSizes.comment.toList ++ o.fontSizes.code.toList

theorem settled_eq_withoutBase {o : Overrides} (h : ∀ x ∈ o.numbers, x.isFinite = true) :
    o.settled = Presets.withoutBase o := by
  have hfilter : ∀ setting : Option Binary64, (∀ x ∈ setting.toList, x ∈ o.numbers) →
      setting.filter Binary64.isFinite = setting := by
    intro setting hmem
    cases setting with
    | none => rfl
    | some x => rw [Option.filter_some, if_pos (h x (hmem x (by simp)))]
  unfold settled Presets.withoutBase
  rw [hfilter o.maxWidth (by simp +contextual [numbers]),
    hfilter o.fontSizes.comment (by simp +contextual [numbers]),
    hfilter o.fontSizes.code (by simp +contextual [numbers])]

theorem round?_of_not_isFinite {x : Binary64} (h : x.isFinite = false) : x.round? = none := by
  unfold Binary64.isFinite at h
  unfold Binary64.round?
  cases hx : x.value with
  | nan negative => rfl
  | infinite negative => rfl
  | finite negative m e =>
    rw [hx] at h
    exact absurd h (by simp)

/-- A number that is not finite asks for nothing, whatever it is checked for. -/
theorem filter_isFinite_bind {check : Binary64 → Option Nat}
    (hcheck : ∀ x : Binary64, x.round? = none → check x = none) (x : Option Binary64) :
    (x.filter Binary64.isFinite).bind check = x.bind check := by
  cases x with
  | none => rfl
  | some x =>
    rw [Option.filter_some]
    cases hx : x.isFinite with
    | true => rfl
    | false =>
      show none = check x
      rw [hcheck x (round?_of_not_isFinite hx)]

theorem apply_settled (o : Overrides) (p : Profile) : o.settled.apply p = o.apply p := by
  have hwidth : ∀ x : Binary64, x.round? = none → Valid.width? x = none := by
    intro x hx
    rw [Valid.width?, hx]
    rfl
  have hsize : ∀ x : Binary64, x.round? = none → Valid.fontSize? x = none := by
    intro x hx
    rw [Valid.fontSize?, hx, Option.map_none, ite_self]
  unfold apply settled
  simp only [filter_isFinite_bind hwidth, filter_isFinite_bind hsize]

/-! ## The formats -/

theorem head?_ne_of_sublist {keys names : List Text} {name : Text} (h : keys.Sublist names)
    (hname : name ∉ names) : keys.head? ≠ some name := by
  intro hhead
  exact hname (h.subset (List.mem_of_mem_head? hhead))

theorem isReadable_toOutline {o : Overrides}
    (hcolours : (o.colours.entries.map Prod.fst).head? ≠ some Toml.dateField) :
    Toml.IsReadable o.toOutline := by
  have hkeys : o.colours.entries.map Prod.fst =
      (o.colours.entries.map fun (key, colour) => (key, Scalar.text colour)).map Prod.fst := by
    rw [List.map_map]
    rfl
  have hdistinct : (o.colours.entries.map Prod.fst).Nodup := by
    refine List.pairwise_map.mpr (o.colours.sorted.imp ?_)
    intro a b hlt heq
    rw [heq] at hlt
    exact List.lt_irrefl _ hlt
  have hgroup : ∀ g ∈ o.groups,
      (g.2.map Prod.fst).Nodup ∧ (g.2.map Prod.fst).head? ≠ some Toml.dateField := by
    intro g hg
    simp only [groups, List.mem_cons, List.not_mem_nil, or_false] at hg
    rcases hg with rfl | rfl | rfl | rfl
    · exact ⟨hkeys ▸ hdistinct, hkeys ▸ hcolours⟩
    · exact ⟨(pair_sublist .number o.fontSizes).nodup (by decide),
        head?_ne_of_sublist (pair_sublist .number o.fontSizes) (by decide)⟩
    · exact ⟨(pair_sublist .text o.fonts).nodup (by decide),
        head?_ne_of_sublist (pair_sublist .text o.fonts) (by decide)⟩
    · exact ⟨(flags_sublist o.fontStyles).nodup (by decide),
        head?_ne_of_sublist (flags_sublist o.fontStyles) (by decide)⟩
  exact ⟨o.nodup_topFields, fun g hg => (hgroup g (mem_groups hg)).1,
    head?_ne_of_sublist o.topFields_sublist (by decide),
    fun g hg => (hgroup g (mem_groups hg)).2⟩

/-- TOML keeps everything, except that a table which starts with the mark of dates is taken
for one. -/
theorem keeps_toml {o : Overrides}
    (h : (o.colours.entries.map Prod.fst).head? ≠ some Toml.dateField) :
    PresetFormat.toml.Keeps o.toOutline := by
  show PresetFormat.read .toml o.toOutline.toToml = _
  rw [PresetFormat.read, Toml.ofText?_toToml (isReadable_toOutline h)]

theorem mem_numbers {o : Overrides} {x : Binary64} (h : Scalar.number x ∈ o.toOutline.scalars) :
    x ∈ o.numbers := by
  rcases List.mem_append.mp h with h | h
  · have hentries : o.toOutline.entries =
        Outline.entry "preset" .text o.preset ++ Outline.entry "maxWidth" .number o.maxWidth := rfl
    have hwidth : o.maxWidth = some x := by simpa [hentries, Outline.map_snd_entry] using h
    simp [numbers, hwidth]
  · obtain ⟨g, hg, hx⟩ := List.mem_flatMap.mp h
    have hgroup := mem_groups hg
    simp only [groups, List.mem_cons, List.not_mem_nil, or_false] at hgroup
    rcases hgroup with rfl | rfl | rfl | rfl
    · exact absurd hx (by simp)
    · have hsize : o.fontSizes.comment = some x ∨ o.fontSizes.code = some x := by
        simpa [Outline.map_snd_entry] using hx
      rcases hsize with hsize | hsize
      · simp [numbers, hsize]
      · simp [numbers, hsize]
    · exact absurd hx (by simp [Outline.map_snd_entry])
    · exact absurd hx (by simp [Outline.map_snd_entry])

/-- JSON keeps everything, as long as it keeps each of the numbers. -/
theorem keeps_json {o : Overrides}
    (h : ∀ x ∈ o.numbers, x.isFinite = true → Json.KeepsNumber x) :
    PresetFormat.json.Keeps o.toOutline := by
  show PresetFormat.read .json o.toOutline.toJson = _
  rw [PresetFormat.read, Json.ofText?_toJson fun x hx => h x (mem_numbers hx)]

theorem keeps_toOutline {o : Overrides}
    (hdate : (o.colours.entries.map Prod.fst).head? ≠ some Toml.dateField)
    (hnumbers : ∀ x ∈ o.numbers, x.isFinite = true → Json.KeepsNumber x)
    (format : PresetFormat) : format.Keeps o.toOutline := by
  cases format with
  | toml => exact keeps_toml hdate
  | json => exact keeps_json hnumbers

end Overrides

/-! ## Files -/

namespace PresetFile

/-- A file that has the extension of a format has a name in front of it. -/
theorem exists_name? {path : Path} {format : PresetFormat}
    (h : PresetFormat.ofPath? path = some format) : ∃ name, name? path = some name := by
  obtain ⟨ext, hext, -⟩ := Option.bind_eq_some_iff.mp h
  obtain ⟨fileName, hfile, hsplit⟩ := Option.bind_eq_some_iff.mp hext
  have hstem : (Path.splitName fileName).1 ≠ [] := by
    unfold Path.splitName at hsplit ⊢
    split at hsplit
    · exact absurd hsplit (by simp)
    · rename_i ext' stem hne heq
      intro hnil
      exact hne (List.reverse_eq_nil_iff.mp hnil)
    · exact absurd hsplit (by simp)
  refine ⟨Text.lowercase (Path.splitName fileName).1, ?_⟩
  rw [name?, Path.stem?, hfile]
  simp only [Option.map_some, Option.filter_some]
  rw [if_pos (by simpa using Text.lowercase_ne_nil hstem)]

/-- What a successful write finds and does. -/
theorem write_eq_ok_iff {tree written : FileTree} {path : Path} {o : Overrides} :
    write tree path o = (written, .ok ()) ↔
      ∃ format prepared, PresetFormat.ofPath? path = some format ∧
        tree.createDirectory path.parent = (prepared, .ok ()) ∧
        prepared.write path (Text.encode (format.write o.toOutline)) = .ok written := by
  constructor
  · intro h
    unfold write at h
    split at h
    · exact absurd h (by simp)
    · rename_i format hformat
      split at h
      · exact absurd h (by simp)
      · rename_i prepared hprepared
        split at h
        · exact absurd h (by simp)
        · rename_i hwritten
          obtain ⟨rfl, -⟩ := Prod.mk.inj h
          exact ⟨format, prepared, hformat, hprepared, hwritten⟩
  · rintro ⟨format, prepared, hformat, hprepared, hwritten⟩
    simp only [write, hformat, hprepared, hwritten]

theorem read_of_written {tree written : FileTree} {path : Path} {format : PresetFormat}
    {o : Overrides} (hformat : PresetFormat.ofPath? path = some format)
    (hwritten : tree.write path (Text.encode (format.write o.toOutline)) = .ok written)
    (hkeeps : format.Keeps o.toOutline) :
    ∃ name, read written path = .ok (name, Overrides.ofJson o.toOutline.value) := by
  obtain ⟨name, hname⟩ := exists_name? hformat
  have htext : readText written path = .ok (format.write o.toOutline) := by
    rw [readText, FileTree.read_of_write hwritten]
    simp only [Text.decode?_encode]
  have hvalue : readValue written path = .ok o.toOutline.value := by
    rw [readValue, hformat]
    simp only [htext]
    exact hkeeps
  refine ⟨name, ?_⟩
  rw [read, hname]
  simp only [hvalue]
  rfl

/-- What is written can be read, if the format keeps it. -/
theorem read_of_write {tree : FileTree} {path : Path} {format : PresetFormat} {o : Overrides}
    (hformat : PresetFormat.ofPath? path = some format) (hplace : tree.CanHold path)
    (hkeeps : format.Keeps o.toOutline) :
    ∃ written name, write tree path o = (written, .ok ()) ∧
      read written path = .ok (name, Overrides.ofJson o.toOutline.value) := by
  obtain ⟨prepared, hprepared, bytes, written', hwritten'⟩ := hplace
  obtain ⟨written, hwritten⟩ :=
    FileTree.exists_write hwritten' (Text.encode (format.write o.toOutline))
  obtain ⟨name, hread⟩ := read_of_written hformat hwritten hkeeps
  exact ⟨written, name, write_eq_ok_iff.mpr ⟨format, prepared, hformat, hprepared, hwritten⟩, hread⟩

end PresetFile

namespace Presets

/-- A preset that was read from some value means the same once it was written to a file
and loaded from there, and is the same if all its numbers are finite. -/
theorem loadFile_written_preset (v : Json) (presets : Presets) {tree : FileTree} {path : Path}
    {format : PresetFormat} (hformat : PresetFormat.ofPath? path = some format)
    (hplace : tree.CanHold path) (hkeeps : format.Keeps (Overrides.ofJson v).toOutline) :
    ∃ written name loaded o,
      PresetFile.write tree path (Overrides.ofJson v) = (written, .ok ()) ∧
      presets.loadFile written path = .ok (name, loaded) ∧
      loaded.lookup name = some o ∧
      (∀ base, Profile.merge base none o = Profile.merge base none (Overrides.ofJson v)) ∧
      ((∀ x ∈ (Overrides.ofJson v).numbers, x.isFinite = true) →
        o = { Overrides.ofJson v with preset := none }) := by
  obtain ⟨written, name, hwrite, hread⟩ := PresetFile.read_of_write hformat hplace hkeeps
  have hlookup := lookup_register_of_eq presets
    (Overrides.ofJson (Overrides.ofJson v).toOutline.value) (rfl : Text.canonical name = _)
  refine ⟨written, name, _, _, hwrite, ?_, hlookup, ?_, ?_⟩
  · rw [Presets.loadFile, hread]
  · intro base
    show (withoutBase _).apply base = _
    rw [Overrides.withoutBase_ofJson_value, Overrides.apply_settled]
    rfl
  · intro hfinite
    show withoutBase _ = withoutBase _
    rw [Overrides.withoutBase_ofJson_value, Overrides.settled_eq_withoutBase hfinite]

/-- A style with signs of the format in its texts, and numbers in several forms. -/
def neon : Json :=
  .object
    [("colors".toList, .object
        [("A.b \"\\'\n".toList, .text "x'''\"\"\"\\\r".toList),
          ("Background".toList, .text " #FFF\t".toList), ("ink".toList, .bool true)]),
      ("fontSizes".toList, .object [("code".toList, .text " 1e1 ".toList),
        ("comment".toList, .integer 12)]),
      ("fontStyles".toList, .object [("code_bold".toList, .text "Yes".toList)]),
      ("preset".toList, .text " dark ".toList),
      ("width".toList, .real (Binary64.ofDecimal false 995 (-1)))]

theorem loadFile_written_preset_neon :
    PresetFormat.ofPath? ⟨"styles/Neon.TOML".toList⟩ = some .toml ∧
      FileTree.empty.CanHold ⟨"styles/Neon.TOML".toList⟩ ∧
      (∀ format : PresetFormat, format.Keeps (Overrides.ofJson neon).toOutline) ∧
      (∀ x ∈ (Overrides.ofJson neon).numbers, x.isFinite = true) ∧
      ∃ written name loaded o,
        PresetFile.write FileTree.empty ⟨"styles/Neon.TOML".toList⟩ (Overrides.ofJson neon) =
          (written, .ok ()) ∧
        standard.loadFile written ⟨"styles/Neon.TOML".toList⟩ = .ok (name, loaded) ∧
        loaded.lookup name = some o ∧
        (∀ base, Profile.merge base none o = Profile.merge base none (Overrides.ofJson neon)) ∧
        o = { Overrides.ofJson neon with preset := none } := by
  have hformat : PresetFormat.ofPath? ⟨"styles/Neon.TOML".toList⟩ = some .toml := by
    decide +kernel
  have hplace : FileTree.empty.CanHold ⟨"styles/Neon.TOML".toList⟩ :=
    ⟨_, rfl, ByteArray.empty, _, rfl⟩
  have hnumbers : (Overrides.ofJson neon).numbers =
      [Binary64.ofDecimal false 995 (-1), Binary64.ofNat 12, Binary64.ofNat 10] := by
    decide +kernel
  have hkeeps : ∀ format : PresetFormat, format.Keeps (Overrides.ofJson neon).toOutline := by
    refine Overrides.keeps_toOutline (by decide +kernel) ?_
    intro x hx _
    rw [hnumbers] at hx
    simp only [List.mem_cons, List.not_mem_nil, or_false] at hx
    rcases hx with rfl | rfl | rfl
    · rfl
    · rfl
    · rfl
  have hfinite : ∀ x ∈ (Overrides.ofJson neon).numbers, x.isFinite = true := by decide +kernel
  obtain ⟨written, name, loaded, o, hwrite, hload, hlookup, hmerge, hsame⟩ :=
    loadFile_written_preset neon standard hformat hplace (hkeeps .toml)
  exact ⟨hformat, hplace, hkeeps, hfinite, written, name, loaded, o, hwrite, hload, hlookup,
    hmerge, hsame hfinite⟩

end Presets
end Listing
