/-
Presets over a run of calls.

Every call amounts to storing some presets one after the other, none of them for a
call that fails or that saves (`presets_run_call`).  So the presets after a run are
those of the start with everything stored since (`presets_run`), and what is known
about storing holds of every run: no preset has a base, and a name stands for what
was stored under it last (`run_stores_in_turn`).
-/
import Listing.Proofs.Dict
import Listing.Proofs.Path
import Listing.Proofs.Text.Lowercase
import Listing.Style.PresetFile

namespace Listing
namespace Presets

/-! ## Storing in turn -/

def registerAll (presets : Presets) (entries : List (Text × Overrides)) : Presets :=
  entries.foldl (fun presets e => presets.register e.1 e.2) presets

/-- The last of the overrides under a name, whatever its case and the white space around
it. -/
def latest (name : Text) (entries : List (Text × Overrides)) : Option Overrides :=
  ((entries.filter fun e => Text.canonical e.1 == Text.canonical name).getLast?).map Prod.snd

def withoutBase (o : Overrides) : Overrides := { o with preset := none }

theorem registerAll_append (presets : Presets) (a b : List (Text × Overrides)) :
    presets.registerAll (a ++ b) = (presets.registerAll a).registerAll b :=
  List.foldl_append

theorem lookup_registerAll (presets : Presets) (entries : List (Text × Overrides)) (name : Text) :
    (presets.registerAll entries).lookup name =
      ((latest name entries).map withoutBase).or (presets.lookup name) := by
  induction entries generalizing presets with
  | nil => rfl
  | cons e rest ih =>
    show ((presets.register e.1 e.2).registerAll rest).lookup name = _
    rw [ih]
    by_cases hname : Text.canonical e.1 = Text.canonical name
    · have hfilter : latest name (e :: rest) = (latest name rest).or (some e.2) := by
        unfold latest
        rw [List.filter_cons_of_pos (by rw [hname]; exact beq_self_eq_true _),
          List.getLast?_cons]
        cases (rest.filter fun e => Text.canonical e.1 == Text.canonical name).getLast? with
        | none => rfl
        | some last => rfl
      rw [hfilter, lookup_register_of_eq presets e.2 hname.symm]
      cases latest name rest with
      | none => rfl
      | some o => rfl
    · have hfilter : latest name (e :: rest) = latest name rest := by
        unfold latest
        rw [List.filter_cons_of_neg (by rw [beq_iff_eq]; exact hname)]
      rw [hfilter, lookup_register_of_ne presets e.2 (Ne.symm hname)]

theorem preset_of_mem_register {presets : Presets}
    (h : ∀ e ∈ presets.stored.entries, e.2.preset = none) (name : Text) (o : Overrides) :
    ∀ e ∈ (presets.register name o).stored.entries, e.2.preset = none := by
  intro e he
  rcases Dict.eq_or_mem_of_mem_place he with rfl | he
  · rfl
  · exact h e he

theorem preset_of_mem_registerAll {presets : Presets}
    (h : ∀ e ∈ presets.stored.entries, e.2.preset = none) (entries : List (Text × Overrides)) :
    ∀ e ∈ (presets.registerAll entries).stored.entries, e.2.preset = none := by
  induction entries generalizing presets with
  | nil => exact h
  | cons e rest ih => exact ih (preset_of_mem_register h e.1 e.2)

/-! ## Calls -/

/-- Presets and the files around them. -/
structure State where
  presets : Presets
  tree : FileTree

inductive Call where
  | register (name : Text) (o : Overrides)
  | loadFile (path : Path)
  | loadDirectory (directory : Path)
  | saveFile (name : Text) (path : Path)
  /-- Whatever happens to the files between two calls. -/
  | files (tree : FileTree)

def Call.run (s : State) : Call → State
  | .register name o => { s with presets := s.presets.register name o }
  | .loadFile path =>
    match s.presets.loadFile s.tree path with
    | .ok (_, presets) => { s with presets := presets }
    | .error _ => s
  | .loadDirectory directory => { s with presets := (s.presets.loadDirectory s.tree directory).1 }
  | .saveFile name path => { s with tree := (s.presets.saveFile s.tree name path).1 }
  | .files tree => { s with tree := tree }

def run (s : State) (calls : List Call) : State := calls.foldl Call.run s

/-- The preset of a file under the file's stem, if the file can be loaded. -/
def fileStore? (tree : FileTree) (path : Path) : Option (Text × Overrides) :=
  match PresetFile.read tree path with
  | .ok (_, o) => path.stem?.map fun stem => (stem, o)
  | .error _ => none

/-- The presets of files up to the first that cannot be loaded. -/
def fileStores (tree : FileTree) : List Path → List (Text × Overrides)
  | [] => []
  | path :: rest =>
    match fileStore? tree path with
    | some e => e :: fileStores tree rest
    | none => []

/-- What a call stores, under the names that it was given. -/
def Call.stores (s : State) : Call → List (Text × Overrides)
  | .register name o => [(name, o)]
  | .loadFile path => (fileStore? s.tree path).toList
  | .loadDirectory directory =>
    if s.tree.isDirectory directory then
      fileStores s.tree (PresetFile.inDirectory s.tree directory)
    else []
  | .saveFile _ _ => []
  | .files _ => []

/-- What the calls of a run store. -/
def history (s : State) : List Call → List (Text × Overrides)
  | [] => []
  | call :: rest => call.stores s ++ history (call.run s) rest

/-! ## One call -/

/-- A file that can be read has a stem, and its preset goes by that in lower case. -/
theorem read_cases (tree : FileTree) (path : Path) :
    (∃ e, PresetFile.read tree path = .error e ∧ fileStore? tree path = none) ∨
      ∃ stem o, PresetFile.read tree path = .ok (Text.lowercase stem, o) ∧
        path.stem? = some stem ∧ fileStore? tree path = some (stem, o) := by
  cases hread : PresetFile.read tree path with
  | error e => exact .inl ⟨e, rfl, by rw [fileStore?, hread]⟩
  | ok loaded =>
    obtain ⟨name, o⟩ := loaded
    right
    have hname : PresetFile.name? path = some name := by
      unfold PresetFile.read at hread
      split at hread
      · simp at hread
      · rename_i own hown
        split at hread
        · simp at hread
        · split at hread
          · obtain ⟨rfl, -⟩ := Prod.mk.inj (Except.ok.inj hread)
            exact hown
          · simp at hread
    obtain ⟨hlower, -⟩ := Option.filter_eq_some_iff.mp hname
    obtain ⟨stem, hstem, rfl⟩ := Option.map_eq_some_iff.mp hlower
    refine ⟨stem, o, rfl, hstem, ?_⟩
    rw [fileStore?, hread]
    simp only [hstem, Option.map_some]

/-- A file with a name can be read if the format of its extension takes its text for an object. -/
theorem exists_read {tree : FileTree} {path : Path} {format : PresetFormat} {t : Text}
    (hname : (PresetFile.name? path).isSome = true)
    (hformat : PresetFormat.ofPath? path = some format)
    (hfile : tree.read path = .ok (Text.encode t))
    (hobject : (format.read t).toOption.any Json.isObject = true) :
    ∃ e, PresetFile.read tree path = .ok e := by
  obtain ⟨name, hname⟩ := Option.isSome_iff_exists.mp hname
  cases hread : format.read t with
  | error e =>
    rw [hread] at hobject
    exact absurd hobject Bool.false_ne_true
  | ok v =>
    rw [hread] at hobject
    have hobject : v.isObject = true := hobject
    refine ⟨(name, Overrides.ofJson v), ?_⟩
    simp only [PresetFile.read, PresetFile.readValue, PresetFile.readText, hname, hformat, hfile,
      Text.decode?_encode, hread, hobject, if_true]

/-- A preset is stored under the same name whether that is given in lower case or not. -/
theorem register_lowercase (presets : Presets) (name : Text) (o : Overrides) :
    presets.register (Text.lowercase name) o = presets.register name o := by
  rw [register, register, Text.canonical_lowercase]

theorem presets_loadFile (s : State) (path : Path) :
    ((Call.loadFile path).run s).presets =
      s.presets.registerAll (fileStore? s.tree path).toList := by
  obtain ⟨e, hread, hstore⟩ | ⟨stem, o, hread, -, hstore⟩ := read_cases s.tree path
  · simp only [Call.run, Presets.loadFile, hread, hstore]
    rfl
  · simp only [Call.run, Presets.loadFile, hread, hstore]
    exact register_lowercase s.presets stem o

theorem presets_loadFiles (presets : Presets) (tree : FileTree) (paths : List Path) :
    (presets.loadFiles tree paths).1 = presets.registerAll (fileStores tree paths) := by
  induction paths generalizing presets with
  | nil => rfl
  | cons path rest ih =>
    obtain ⟨e, hread, hstore⟩ | ⟨stem, o, hread, -, hstore⟩ := read_cases tree path
    · simp only [loadFiles, Presets.loadFile, hread, fileStores, hstore]
      rfl
    · simp only [loadFiles, Presets.loadFile, hread, fileStores, hstore]
      rw [register_lowercase, ih]
      rfl

/-- A call does nothing to the presets but store what it stores. -/
theorem presets_run_call (s : State) (call : Call) :
    (call.run s).presets = s.presets.registerAll (call.stores s) := by
  cases call with
  | register name o => rfl
  | loadFile path => exact presets_loadFile s path
  | loadDirectory directory =>
    simp only [Call.run, Call.stores, loadDirectory]
    split
    · exact presets_loadFiles s.presets s.tree _
    · rfl
  | saveFile name path => rfl
  | files tree => rfl

theorem presets_run (s : State) (calls : List Call) :
    (run s calls).presets = s.presets.registerAll (history s calls) := by
  induction calls generalizing s with
  | nil => rfl
  | cons call rest ih =>
    show (run (call.run s) rest).presets = _
    rw [ih, presets_run_call, history, registerAll_append]

/-! ## Files that can all be loaded -/

theorem fileStores_of_forall_read {tree : FileTree} {paths : List Path}
    (h : ∀ path ∈ paths, ∃ e, PresetFile.read tree path = .ok e) :
    fileStores tree paths = paths.filterMap (fileStore? tree) := by
  induction paths with
  | nil => rfl
  | cons path rest ih =>
    have hrest := ih fun other hother => h other (List.mem_cons_of_mem _ hother)
    obtain ⟨e, hread, -⟩ | ⟨stem, o, -, -, hstore⟩ := read_cases tree path
    · obtain ⟨stored, hstored⟩ := h path List.mem_cons_self
      exact absurd (hread.symm.trans hstored) (by simp)
    · simp only [fileStores, List.filterMap_cons, hstore, hrest]

theorem latest_eq_some {name : Text} {entries : List (Text × Overrides)} {e : Text × Overrides}
    (hmem : e ∈ entries) (hname : Text.canonical e.1 = Text.canonical name)
    (honly : ∀ other ∈ entries, Text.canonical other.1 = Text.canonical name → other = e) :
    latest name entries = some e.2 := by
  have hfilter : e ∈ entries.filter fun e => Text.canonical e.1 == Text.canonical name :=
    List.mem_filter.mpr ⟨hmem, beq_iff_eq.mpr hname⟩
  unfold latest
  rw [List.getLast?_eq_some_getLast (List.ne_nil_of_mem hfilter)]
  obtain ⟨hlast, hlastName⟩ := List.mem_filter.mp (List.getLast_mem (List.ne_nil_of_mem hfilter))
  rw [honly _ hlast (beq_iff_eq.mp hlastName), Option.map_some]

/-- A name stands for the one file whose stem it is, wherever that is among the others. -/
theorem lookup_loadFiles {presets : Presets} {tree : FileTree} {paths : List Path} {path : Path}
    {name stem : Text} {o : Overrides} (hpath : path ∈ paths)
    (hstore : fileStore? tree path = some (stem, o))
    (hname : Text.canonical stem = Text.canonical name)
    (hread : ∀ path ∈ paths, ∃ e, PresetFile.read tree path = .ok e)
    (hothers : ∀ other ∈ paths, other ≠ path → ∀ stem, other.stem? = some stem →
      Text.canonical stem ≠ Text.canonical name) :
    (presets.loadFiles tree paths).1.lookup name = some (withoutBase o) := by
  have hlatest : latest name (paths.filterMap (fileStore? tree)) = some o := by
    refine latest_eq_some (List.mem_filterMap.mpr ⟨path, hpath, hstore⟩) hname ?_
    intro other hother hotherName
    obtain ⟨source, hsource, hstored⟩ := List.mem_filterMap.mp hother
    by_cases hsame : source = path
    · rw [hsame, hstore] at hstored
      exact (Option.some.inj hstored).symm
    · obtain ⟨-, -, hnone⟩ | ⟨stem', o', -, hstem, hsome⟩ := read_cases tree source
      · exact absurd (hnone.symm.trans hstored) (by simp)
      · obtain rfl := Option.some.inj (hsome.symm.trans hstored)
        exact absurd hotherName (hothers source hsource hsame stem' hstem)
  rw [presets_loadFiles, fileStores_of_forall_read hread, lookup_registerAll, hlatest]
  rfl

/-! ## Directories -/

theorem pairwise_fileNames (tree : FileTree) (directory : Path) :
    (tree.fileNames directory).Pairwise (fun a b => a < b) := by
  unfold FileTree.fileNames
  split
  · exact Dict.pairwise_sortUnique _
  · exact List.Pairwise.nil

theorem mem_fileNames {tree : FileTree} {directory : Path} {entries : List (Text × Node)}
    (h : tree.at? directory = some (.directory entries)) {name : Text} :
    name ∈ tree.fileNames directory ↔ ∃ bytes, (name, Node.file bytes) ∈ entries := by
  unfold FileTree.fileNames
  rw [h]
  simp only [Dict.mem_sortUnique, List.mem_filterMap]
  constructor
  · rintro ⟨⟨other, node⟩, hmem, hname⟩
    cases node with
    | file bytes =>
      obtain rfl := Option.some.inj hname
      exact ⟨bytes, hmem⟩
    | directory inner => simp at hname
  · rintro ⟨bytes, hmem⟩
    exact ⟨(name, .file bytes), hmem, rfl⟩

theorem pairwise_inDirectory (tree : FileTree) (directory : Path) :
    (PresetFile.inDirectory tree directory).Pairwise (fun a b => a.text < b.text) := by
  obtain ⟨between, hbetween⟩ := directory.exists_join_text
  refine List.Pairwise.filter _ (List.pairwise_map.mpr ?_)
  refine (pairwise_fileNames tree directory).imp ?_
  intro a b hab
  rw [hbetween, hbetween]
  exact List.append_left_lt (List.append_left_lt hab)

theorem mem_inDirectory {tree : FileTree} {directory : Path} {entries : List (Text × Node)}
    (h : tree.at? directory = some (.directory entries)) (path : Path) :
    path ∈ PresetFile.inDirectory tree directory ↔
      (PresetFormat.ofPath? path).isSome = true ∧
        ∃ name bytes, (name, Node.file bytes) ∈ entries ∧ path = directory.join name := by
  rw [PresetFile.inDirectory, List.mem_filter, List.mem_map, and_comm]
  refine and_congr_right fun _ => ?_
  simp only [mem_fileNames h]
  constructor
  · rintro ⟨name, ⟨bytes, hmem⟩, rfl⟩
    exact ⟨name, bytes, hmem, rfl⟩
  · rintro ⟨name, bytes, hmem, rfl⟩
    exact ⟨name, ⟨bytes, hmem⟩, rfl⟩

/-- What loading files did: those in front of the first that fails were loaded one by
one, and the failure, if there is one, is that file's. -/
def LoadedInTurn (s : State) (paths : List Path) (after : Presets)
    (result : Except Failure (List Text)) : Prop :=
  ∃ loaded rest, paths = loaded ++ rest ∧
    (∀ path ∈ loaded, ∃ e, PresetFile.read s.tree path = .ok e) ∧
    after = (run s (loaded.map Call.loadFile)).presets ∧
    (rest = [] ∧ (∃ names, result = .ok names) ∨
      ∃ path more e, rest = path :: more ∧ PresetFile.read s.tree path = .error e ∧
        result = .error e)

theorem loadedInTurn_loadFiles (presets : Presets) (tree : FileTree) (paths : List Path) :
    LoadedInTurn ⟨presets, tree⟩ paths (presets.loadFiles tree paths).1
      (presets.loadFiles tree paths).2 := by
  induction paths generalizing presets with
  | nil => exact ⟨[], [], rfl, by simp, rfl, .inl ⟨rfl, [], rfl⟩⟩
  | cons path rest ih =>
    cases hread : PresetFile.read tree path with
    | error e =>
      refine ⟨[], path :: rest, rfl, by simp, ?_, .inr ⟨path, rest, e, rfl, hread, ?_⟩⟩
      · simp only [loadFiles, Presets.loadFile, hread]
        rfl
      · simp only [loadFiles, Presets.loadFile, hread]
    | ok stored =>
      obtain ⟨name, o⟩ := stored
      obtain ⟨loaded, others, rfl, hloaded, hafter, hresult⟩ := ih (presets.register name o)
      refine ⟨path :: loaded, others, rfl, ?_, ?_, ?_⟩
      · intro other hother
        rcases List.mem_cons.mp hother with rfl | hother
        · exact ⟨_, hread⟩
        · exact hloaded other hother
      · simp only [loadFiles, Presets.loadFile, hread]
        rw [hafter]
        simp only [run, List.map_cons, List.foldl_cons, Call.run, Presets.loadFile, hread]
      · simp only [loadFiles, Presets.loadFile, hread]
        rcases hresult with ⟨rfl, names, hnames⟩ | ⟨bad, more, e, rfl, hbad, he⟩
        · exact .inl ⟨rfl, name :: names, by rw [hnames]; rfl⟩
        · exact .inr ⟨bad, more, e, rfl, hbad, by rw [he]; rfl⟩

/-! ## Runs -/

/-- The presets that are there at the start of a run. -/
def stock (known : Bool) : List (Text × Overrides) :=
  if known then
    [(defaultName, Overrides.empty), ("dark".toList, dark), ("light".toList, light),
      ("print".toList, print), ("compact".toList, compact), ("large".toList, large)]
  else []

/-- A run starts with the presets that are known without set-up, or with none. -/
def start (known : Bool) (tree : FileTree) : State :=
  ⟨if known then standard else empty, tree⟩

theorem presets_start (known : Bool) (tree : FileTree) :
    (start known tree).presets = empty.registerAll (stock known) := by
  cases known
  · rfl
  · rfl

/-- Whatever was called, with success or without: no preset has a base, a name stands for
what was stored under it last, and a directory is loaded file by file in the order of
the paths until one fails. -/
theorem run_stores_in_turn (known : Bool) (tree : FileTree) (calls : List Call) :
    let s := run (start known tree) calls
    (∀ e ∈ s.presets.stored.entries, e.2.preset = none) ∧
    (∀ name, s.presets.lookup name =
      (latest name (stock known ++ history (start known tree) calls)).map withoutBase) ∧
    (∀ (call : Call) (name : Text),
      (∀ e ∈ call.stores s, Text.canonical e.1 ≠ Text.canonical name) →
        (call.run s).presets.lookup name = s.presets.lookup name) ∧
    (∀ (path : Path) (e : Failure), s.presets.loadFile s.tree path = .error e →
      (Call.loadFile path).run s = s) ∧
    (∀ (name : Text) (path : Path), ((Call.saveFile name path).run s).presets = s.presets) ∧
    ∀ (directory : Path) (entries : List (Text × Node)),
      s.tree.at? directory = some (.directory entries) → ∃ paths,
        (∀ path, path ∈ paths ↔ (PresetFormat.ofPath? path).isSome = true ∧
          ∃ name bytes, (name, Node.file bytes) ∈ entries ∧ path = directory.join name) ∧
        paths.Pairwise (fun a b => a.text < b.text) ∧
        LoadedInTurn s paths ((Call.loadDirectory directory).run s).presets
          (s.presets.loadDirectory s.tree directory).2 := by
  intro s
  have hpresets : s.presets =
      empty.registerAll (stock known ++ history (start known tree) calls) := by
    rw [registerAll_append, ← presets_start known tree]
    exact presets_run (start known tree) calls
  refine ⟨?_, ?_, ?_, ?_, ?_, ?_⟩
  · rw [hpresets]
    exact preset_of_mem_registerAll (fun e he => absurd he List.not_mem_nil) _
  · intro name
    rw [hpresets, lookup_registerAll, lookup_empty, Option.or_none]
  · intro call name hother
    have hlatest : latest name (call.stores s) = none := by
      unfold latest
      rw [List.filter_eq_nil_iff.mpr fun e he => by rw [beq_iff_eq]; exact hother e he]
      rfl
    rw [presets_run_call, lookup_registerAll, hlatest, Option.map_none, Option.none_or]
  · intro path e hfail
    simp only [Call.run, hfail]
  · intro name path
    rfl
  · intro directory entries hentries
    have hdirectory : s.tree.isDirectory directory = true := by
      rw [FileTree.isDirectory, hentries]
    refine ⟨PresetFile.inDirectory s.tree directory, mem_inDirectory hentries,
      pairwise_inDirectory s.tree directory, ?_⟩
    simp only [Call.run, loadDirectory, if_pos hdirectory]
    exact loadedInTurn_loadFiles s.presets s.tree _

def shelfEntries : List (Text × Node) :=
  [("b.json".toList, .file (Text.encode "[]".toList)),
    ("A.TOML".toList, .file (Text.encode "maxWidth = 90".toList)),
    ("old.toml".toList, .directory [])]

/-- A directory with a preset, a file that holds none and a directory named like one. -/
def shelf : FileTree := ⟨[("p".toList, .directory shelfEntries)]⟩

theorem run_stores_in_turn_shelf :
    let s := run (start true FileTree.empty) [.files shelf]
    (∀ e ∈ (Call.register " Wide ".toList dark).stores s,
        Text.canonical e.1 ≠ Text.canonical "dark".toList) ∧
      ((Call.register " Wide ".toList dark).run s).presets.lookup "dark".toList =
        s.presets.lookup "dark".toList ∧
      s.presets.loadFile s.tree ⟨"p/old.toml".toList⟩ = .error (.file .isDirectory) ∧
      (Call.loadFile ⟨"p/old.toml".toList⟩).run s = s ∧
      s.tree.at? ⟨"p".toList⟩ = some (.directory shelfEntries) ∧
      ∃ paths, (∀ path, path ∈ paths ↔ (PresetFormat.ofPath? path).isSome = true ∧
          ∃ name bytes, (name, Node.file bytes) ∈ shelfEntries ∧
            path = (Path.mk "p".toList).join name) ∧
        paths.Pairwise (fun a b => a.text < b.text) ∧
        LoadedInTurn s paths ((Call.loadDirectory ⟨"p".toList⟩).run s).presets
          (s.presets.loadDirectory s.tree ⟨"p".toList⟩).2 := by
  intro s
  obtain ⟨-, -, hother, hfail, -, hdirectory⟩ :=
    run_stores_in_turn true FileTree.empty [.files shelf]
  have hnames : ∀ e ∈ (Call.register " Wide ".toList dark).stores s,
      Text.canonical e.1 ≠ Text.canonical "dark".toList := by
    intro e he
    rw [List.mem_singleton.mp he]
    decide +kernel
  have hload : s.presets.loadFile s.tree ⟨"p/old.toml".toList⟩ = .error (.file .isDirectory) :=
    rfl
  have hshelf : s.tree.at? ⟨"p".toList⟩ = some (.directory shelfEntries) := rfl
  exact ⟨hnames, hother _ _ hnames, hload, hfail _ _ hload, hshelf, hdirectory _ _ hshelf⟩

end Presets
end Listing
