/-
A file that was written can be read.

Writing follows a path, puts a file at the place it leads to and nothing else.  So
every directory that was there still is (`isDirectory_node?_put`), and the same path
leads to the same place afterwards, where the file now stands (`place_of_write`).  There
it can be read (`read_of_write`), and it is an entry of the directory that it was written
into (`mem_entries_of_write`).
-/
import Listing.FileTree
import Listing.Proofs.Path

namespace Listing
namespace FileTree

def IsDirectory (node : Option Node) : Prop := ∃ entries, node = some (.directory entries)

theorem lookup_setEntry_ne {name other : Text} (h : other ≠ name) (node : Node)
    (entries : List (Text × Node)) :
    (setEntry name node entries).lookup other = entries.lookup other := by
  have hb : (other == name) = false := beq_false_of_ne h
  induction entries with
  | nil => simp only [setEntry, List.lookup_cons, hb]
  | cons head rest ih =>
    obtain ⟨k, old⟩ := head
    rw [setEntry]
    split
    · rename_i hk
      subst hk
      simp only [List.lookup_cons, hb]
    · simp only [List.lookup_cons, ih]

/-! ## Places

Below a name there are the entries of its directory, and none if it is no directory.
So a place of two names or more is one name less below the first. -/

def below (entries : List (Text × Node)) (name : Text) : List (Text × Node) :=
  match entries.lookup name with
  | some (.directory inner) => inner
  | _ => []

theorem find?_nil (entries : List (Text × Node)) :
    find? entries [] = some (.directory entries) := by
  unfold find?
  rfl

theorem find?_singleton (entries : List (Text × Node)) (name : Text) :
    find? entries [name] = entries.lookup name := by
  unfold find?
  cases entries.lookup name with
  | none => rfl
  | some node =>
    cases node with
    | file bytes => rfl
    | directory inner => exact find?_nil inner

theorem find?_no_entries (name : Text) (rest : Location) : find? [] (name :: rest) = none := by
  unfold find?
  rfl

theorem find?_cons_cons (entries : List (Text × Node)) (name next : Text) (rest : Location) :
    find? entries (name :: next :: rest) = find? (below entries name) (next :: rest) := by
  conv => lhs; unfold find?
  unfold below
  cases entries.lookup name with
  | none => exact (find?_no_entries next rest).symm
  | some node =>
    cases node with
    | file bytes => exact (find?_no_entries next rest).symm
    | directory inner => rfl

theorem insertAt_cons_cons (node : Node) (name next : Text) (rest : Location)
    (entries : List (Text × Node)) :
    insertAt node (name :: next :: rest) entries =
      setEntry name (.directory (insertAt node (next :: rest) (below entries name))) entries := by
  rfl

theorem below_setEntry_self (name : Text) (inner entries : List (Text × Node)) :
    below (setEntry name (.directory inner) entries) name = inner := by
  rw [below, lookup_setEntry_self]

/-- What is found at a place depends on its first name and on what is below that. -/
theorem find?_congr {a b : List (Text × Node)} {name : Text}
    (hlookup : a.lookup name = b.lookup name) (rest : Location) :
    find? a (name :: rest) = find? b (name :: rest) := by
  cases rest with
  | nil => rw [find?_singleton, find?_singleton, hlookup]
  | cons next rest => rw [find?_cons_cons, find?_cons_cons, below, below, hlookup]

/-- What is found below a directory is one of its entries. -/
theorem find?_concat {entries : List (Text × Node)} {place : Location} {last : Text} {node : Node}
    (h : find? entries (place ++ [last]) = some node) :
    ∃ inner, find? entries place = some (.directory inner) ∧ inner.lookup last = some node := by
  induction place generalizing entries with
  | nil =>
    rw [List.nil_append, find?_singleton] at h
    exact ⟨entries, find?_nil entries, h⟩
  | cons name rest ih =>
    cases rest with
    | nil =>
      rw [List.cons_append, List.nil_append, find?_cons_cons, find?_singleton] at h
      refine ⟨below entries name, ?_, h⟩
      rw [find?_singleton]
      unfold below at h ⊢
      split at h
      · rename_i inner hlookup
        rw [hlookup]
      · exact absurd h (by simp)
    | cons next rest =>
      rw [List.cons_append, List.cons_append, find?_cons_cons] at h
      rw [find?_cons_cons]
      exact ih h

/-! ## A new file -/

/-- Elsewhere a new file changes nothing, except that it may bring the directories on
the way to it. -/
theorem find?_insertAt_of_ne (bytes : ByteArray) {place other : Location} (hne : other ≠ place)
    (entries : List (Text × Node)) (hplace : ¬ IsDirectory (find? entries place)) :
    find? (insertAt (.file bytes) place entries) other = find? entries other ∨
      IsDirectory (find? (insertAt (.file bytes) place entries) other) := by
  induction place generalizing entries other with
  | nil => exact absurd ⟨entries, find?_nil entries⟩ hplace
  | cons name rest ih =>
    cases other with
    | nil => exact .inr ⟨_, find?_nil _⟩
    | cons step others =>
      by_cases hstep : step = name
      · subst hstep
        cases rest with
        | nil =>
          rw [insertAt]
          cases others with
          | nil => exact absurd rfl hne
          | cons o others =>
            -- The file stands at `step` itself, so nothing was and nothing is below it.
            have hbelow : below entries step = [] := by
              rw [find?_singleton] at hplace
              unfold below
              split
              · rename_i inner hlook
                exact absurd ⟨inner, hlook⟩ hplace
              · rfl
            left
            rw [find?_cons_cons, find?_cons_cons, hbelow, below, lookup_setEntry_self]
        | cons next rest =>
          rw [insertAt_cons_cons]
          cases others with
          | nil =>
            rw [find?_singleton, lookup_setEntry_self]
            exact .inr ⟨_, rfl⟩
          | cons o others =>
            rw [find?_cons_cons, find?_cons_cons, below_setEntry_self]
            rw [find?_cons_cons] at hplace
            exact ih (fun h => hne (by rw [h])) (below entries step) hplace
      · left
        cases rest with
        | nil =>
          rw [insertAt]
          exact find?_congr (lookup_setEntry_ne hstep _ _) others
        | cons next rest =>
          rw [insertAt_cons_cons]
          exact find?_congr (lookup_setEntry_ne hstep _ _) others

theorem isDirectory_node?_put {tree : FileTree} {place other : Location} (bytes : ByteArray)
    (hplace : ¬ IsDirectory (tree.node? place)) (hother : IsDirectory (tree.node? other)) :
    IsDirectory ((tree.put place (.file bytes)).node? other) := by
  have hne : other ≠ place := fun h => hplace (h ▸ hother)
  have hfind : ¬ IsDirectory (find? tree.entries place) := by
    rintro ⟨inner, h⟩
    exact hplace ⟨inner, by rw [node?, h]⟩
  rw [node?] at hother ⊢
  rcases find?_insertAt_of_ne bytes hne tree.entries hfind with h | ⟨inner, h⟩
  · rw [put, h]
    exact hother
  · rw [put, h]
    exact ⟨inner, rfl⟩

/-! ## Paths -/

theorem follow_eq_of_isDirectory {tree other : FileTree}
    (hkept : ∀ place, IsDirectory (tree.node? place) → IsDirectory (other.node? place))
    {place target : Location} {names : List Text} (h : tree.follow place names = .ok target) :
    other.follow place names = .ok target := by
  induction names generalizing place with
  | nil =>
    rw [follow] at h ⊢
    exact h
  | cons name rest ih =>
    rw [follow] at h
    split at h
    · exact absurd h (by simp)
    · exact absurd h (by simp)
    · rename_i entries hnode
      obtain ⟨inner, hnode'⟩ := hkept place ⟨entries, hnode⟩
      split at h
      · exact absurd h (by simp)
      · rename_i hlong
        rw [follow, hnode']
        simp only
        rw [if_neg hlong]
        exact ih h

theorem follow_append {tree : FileTree} {place target : Location} {names : List Text}
    (h : tree.follow place names = .ok target) (more : List Text) :
    tree.follow place (names ++ more) = tree.follow target more := by
  induction names generalizing place with
  | nil =>
    rw [follow] at h
    rw [Except.ok.inj h, List.nil_append]
  | cons name rest ih =>
    rw [List.cons_append]
    rw [follow] at h ⊢
    split at h
    · exact absurd h (by simp)
    · exact absurd h (by simp)
    · split at h
      · exact absurd h (by simp)
      · rename_i hlong
        simp only [if_neg hlong]
        exact ih h

theorem enter_eq_ok {tree : FileTree} {place target : Location} {names : List Text}
    (h : tree.enter place names = .ok target) :
    tree.follow place names = .ok target ∧ IsDirectory (tree.node? target) := by
  unfold enter at h
  split at h
  · exact absurd h (by simp)
  · rename_i hfollow
    split at h
    · exact absurd h (by simp)
    · exact absurd h (by simp)
    · rename_i entries hnode
      obtain rfl := Except.ok.inj h
      exact ⟨hfollow, entries, hnode⟩

theorem parts_of_target? {path : Path} {names : List Text} {last : Text}
    (h : path.target? = some (names, last)) :
    path.parts = names ++ [last] ∧ last ≠ "..".toList := by
  unfold Path.target? at h
  split at h
  · exact absurd h (by simp)
  · obtain ⟨name, hname, heq⟩ := Option.map_eq_some_iff.mp h
    obtain ⟨rfl, rfl⟩ := Prod.mk.inj heq
    unfold Path.fileName? at hname
    split at hname
    · exact absurd hname (by simp)
    · rename_i name' hlast
      split at hname
      · exact absurd hname (by simp)
      · rename_i hdots
        obtain rfl := Option.some.inj hname
        obtain ⟨before, hparts⟩ := List.getLast?_eq_some_iff.mp hlast
        rw [hparts, List.dropLast_concat]
        exact ⟨rfl, hdots⟩

/-- What a successful write found on its way and what it did. -/
theorem write_eq_ok {tree written : FileTree} {path : Path} {bytes : ByteArray}
    (h : tree.write path bytes = .ok written) :
    ∃ names last place, refusal? path = none ∧ path.target? = some (names, last) ∧
      tree.enter (start path) names = .ok place ∧ path.namesDirectory = false ∧
      isTooLong last = false ∧ ¬ IsDirectory (tree.node? (place ++ [last])) ∧
      written = tree.put (place ++ [last]) (.file bytes) := by
  unfold write at h
  split at h
  · exact absurd h (by simp)
  · split at h
    · exact absurd h (by simp)
    · exact absurd h (by simp)
  · rename_i names last hrefusal htarget
    split at h
    · exact absurd h (by simp)
    · rename_i place henter
      split at h
      · exact absurd h (by simp)
      · rename_i hnames
        split at h
        · exact absurd h (by simp)
        · rename_i hlong
          split at h
          · exact absurd h (by simp)
          · rename_i hnode
            refine ⟨names, last, place, hrefusal, htarget, henter, by simpa using hnames,
              by simpa using hlong, ?_, (Except.ok.inj h).symm⟩
            rintro ⟨inner, hinner⟩
            exact hnode inner hinner

/-- Whether a file can be written does not depend on what is in it. -/
theorem exists_write {tree written : FileTree} {path : Path} {bytes : ByteArray}
    (h : tree.write path bytes = .ok written) (other : ByteArray) :
    ∃ written', tree.write path other = .ok written' := by
  obtain ⟨names, last, place, hrefusal, htarget, henter, hnames, hlong, hfree, -⟩ := write_eq_ok h
  refine ⟨tree.put (place ++ [last]) (.file other), ?_⟩
  rw [write, hrefusal, htarget]
  simp only [henter, hnames, hlong, Bool.false_eq_true, if_false]
  split
  · rename_i inner hinner
    exact absurd ⟨inner, hinner⟩ hfree
  · rfl

/-- The path leads on to the directory it led to, and from there to the new file. -/
theorem place_of_write {tree written : FileTree} {path : Path} {bytes : ByteArray}
    (h : tree.write path bytes = .ok written) :
    ∃ names last place, path.parts = names ++ [last] ∧ last ≠ "..".toList ∧
      refusal? path = none ∧ path.namesDirectory = false ∧ isTooLong last = false ∧
      written.follow (start path) names = .ok place ∧ IsDirectory (written.node? place) ∧
      written.node? (place ++ [last]) = some (.file bytes) := by
  obtain ⟨names, last, place, hrefusal, htarget, henter, hnames, hlong, hfree, rfl⟩ :=
    write_eq_ok h
  obtain ⟨hparts, hdots⟩ := parts_of_target? htarget
  obtain ⟨hfollow, hplace⟩ := enter_eq_ok henter
  have hkept : ∀ other, IsDirectory (tree.node? other) →
      IsDirectory ((tree.put (place ++ [last]) (.file bytes)).node? other) :=
    fun other => isDirectory_node?_put bytes hfree
  exact ⟨names, last, place, hparts, hdots, hrefusal, hnames, hlong,
    follow_eq_of_isDirectory hkept hfollow, hkept place hplace, node?_put_self tree _ (by simp)⟩

theorem read_of_write {tree written : FileTree} {path : Path} {bytes : ByteArray}
    (h : tree.write path bytes = .ok written) : written.read path = .ok bytes := by
  obtain ⟨names, last, place, hparts, hdots, hrefusal, hnames, hlong, hfollow, ⟨entries, hentries⟩,
    hself⟩ := place_of_write h
  have hlocate : written.locate path = .ok (place ++ [last]) := by
    rw [locate, hrefusal, hparts]
    simp only
    rw [follow_append hfollow, follow, hentries]
    simp only [hlong, Bool.false_eq_true, if_false, if_neg hdots]
    rw [follow]
  rw [read, hlocate]
  simp only [hself, hnames, Bool.false_eq_true, if_false]

theorem refusal?_of_prefix {path other : Path} (h : refusal? path = none) (hne : other.text ≠ [])
    {rest : Text} (htext : path.text = other.text ++ rest) : refusal? other = none := by
  have hfilled : other.text.isEmpty = false := by simpa using hne
  unfold refusal? at h ⊢
  rw [htext] at h
  simp only [List.contains_append, Text.byteLength_append] at h
  split at h
  · simp at h
  · split at h
    · simp at h
    · rename_i hend
      rw [Bool.or_eq_true, not_or] at hend
      split at h
      · simp at h
      · rename_i hlong
        rw [hfilled, if_neg Bool.false_ne_true, if_neg hend.1, if_neg (by omega)]

/-- A file that was written into a directory is one of its entries. -/
theorem mem_entries_of_write {tree written : FileTree} {directory : Path} {name : Text}
    {bytes : ByteArray} (hdirectory : directory.text ≠ []) (hname : Path.IsPlain name)
    (h : tree.write (directory.join name) bytes = .ok written) :
    ∃ entries, written.at? directory = some (.directory entries) ∧
      (name, Node.file bytes) ∈ entries := by
  obtain ⟨names, last, place, hparts, -, hrefusal, -, -, hfollow, -, hself⟩ := place_of_write h
  rw [Path.parts_join directory hname] at hparts
  obtain ⟨rfl, hlast⟩ := List.append_inj' hparts rfl
  obtain rfl := List.singleton_inj.mp hlast
  have hfind : find? written.entries (place ++ [name]) = some (.file bytes) := by
    rw [node?] at hself
    split at hself
    · rename_i node hnode
      rw [hnode, hself]
    · split at hself
      · simp at hself
      · simp at hself
  obtain ⟨entries, hentries, hlookup⟩ := find?_concat hfind
  have hlocate : written.locate directory = .ok place := by
    obtain ⟨between, hbetween⟩ := directory.exists_join_text
    rw [start, Path.isAbsolute_join hdirectory] at hfollow
    rw [locate, refusal?_of_prefix hrefusal hdirectory (hbetween name)]
    exact hfollow
  refine ⟨entries, ?_, ?_⟩
  · rw [at?, hlocate]
    simp only [node?, hentries]
  · obtain ⟨before, after, hsplit, -⟩ := List.lookup_eq_some_iff.mp hlookup
    rw [hsplit]
    exact List.mem_append_right _ List.mem_cons_self

/-- The directory that a path lies in is there or can be made, and a file can be written
into it. -/
def CanHold (tree : FileTree) (path : Path) : Prop :=
  ∃ prepared, tree.createDirectory path.parent = (prepared, .ok ()) ∧
    ∃ bytes written, prepared.write path bytes = .ok written

end FileTree
end Listing
