/-
Dictionaries made from lists.

Entries are inserted in turn, so a look-up finds the last one with its key
(`get?_ofList`), and a list that is sorted already is the dictionary
(`entries_ofList`).
-/
import Listing.Dict
import Mathlib.Data.List.Induction

namespace Listing
namespace Dict

variable {α : Type}

theorem get?_foldl_insert (l : List (Text × α)) (d : Dict α) (key : Text) :
    (l.foldl (fun d e => d.insert e.1 e.2) d).get? key =
      (l.reverse.lookup key).or (d.get? key) := by
  induction l generalizing d with
  | nil => rfl
  | cons e rest ih =>
    rw [List.foldl_cons, ih, List.reverse_cons, List.lookup_append, Option.or_assoc]
    congr 1
    obtain ⟨k, v⟩ := e
    by_cases hk : key = k
    · subst hk
      rw [get?_insert_self, List.lookup_cons_self, Option.some_or]
    · rw [get?_insert_ne d hk, List.lookup_cons, beq_false_of_ne hk]
      rfl

theorem get?_ofList (l : List (Text × α)) (key : Text) :
    (ofList l).get? key = l.reverse.lookup key := by
  rw [ofList, get?_foldl_insert, get?_empty, Option.or_none]

theorem mem_of_get?_ofList {l : List (Text × α)} {key : Text} {value : α}
    (h : (ofList l).get? key = some value) : (key, value) ∈ l := by
  rw [get?_ofList, List.lookup_eq_some_iff] at h
  obtain ⟨before, after, hl, -⟩ := h
  rw [← List.mem_reverse, hl]
  exact List.mem_append_right _ List.mem_cons_self

theorem lookup_eq_none_of_not_mem {l : List (Text × α)} {key : Text}
    (h : key ∉ l.map Prod.fst) : l.lookup key = none := by
  rw [List.lookup_eq_none_iff]
  intro p hp
  rw [bne_iff_ne]
  intro he
  exact h (List.mem_map.mpr ⟨p, hp, he.symm⟩)

/-- With each key once, the first entry is the last one too. -/
theorem get?_ofList_of_nodup {l : List (Text × α)} (h : (l.map Prod.fst).Nodup) (key : Text) :
    (ofList l).get? key = l.lookup key := by
  rw [get?_ofList]
  induction l with
  | nil => rfl
  | cons e rest ih =>
    obtain ⟨k, v⟩ := e
    rw [List.map_cons, List.nodup_cons] at h
    rw [List.reverse_cons, List.lookup_append, ih h.2]
    by_cases hk : key = k
    · subst hk
      rw [lookup_eq_none_of_not_mem h.1, List.lookup_cons_self, Option.none_or,
        List.lookup_cons_self]
    · simp only [List.lookup_cons, beq_false_of_ne hk, List.lookup_nil, Option.or_none]

theorem ofList_concat (l : List (Text × α)) (e : Text × α) :
    ofList (l ++ [e]) = (ofList l).insert e.1 e.2 := by
  rw [ofList, List.foldl_append]
  rfl

theorem mem_of_mem_ofList {l : List (Text × α)} {e : Text × α} (h : e ∈ (ofList l).entries) :
    e ∈ l := by
  induction l using List.reverseRecOn with
  | nil => exact absurd h List.not_mem_nil
  | append_singleton l d ih =>
    rw [ofList_concat] at h
    rcases eq_or_mem_of_mem_place h with rfl | h
    · exact List.mem_append_right _ (List.mem_singleton.mpr rfl)
    · exact List.mem_append_left _ (ih h)

theorem place_of_forall_lt {key : Text} {value : α} {l : List (Text × α)}
    (h : ∀ e ∈ l, e.1 < key) : place key value l = l ++ [(key, value)] := by
  induction l with
  | nil => rfl
  | cons e rest ih =>
    obtain ⟨k, v⟩ := e
    have hk : k < key := h (k, v) List.mem_cons_self
    have hcompare : Text.compare key k = .gt := by
      cases hc : Text.compare key k with
      | lt => exact absurd (Text.compare_eq_lt_iff.mp hc) (List.lt_asymm hk)
      | eq => exact absurd (Text.compare_eq_eq_iff.mp hc ▸ hk) (List.lt_irrefl key)
      | gt => rfl
    rw [place, hcompare]
    simp only
    rw [ih fun e he => h e (List.mem_cons_of_mem _ he), List.cons_append]

theorem entries_ofList {l : List (Text × α)} (h : l.Pairwise (fun a b => a.1 < b.1)) :
    (ofList l).entries = l := by
  induction l using List.reverseRecOn with
  | nil => rfl
  | append_singleton l e ih =>
    obtain ⟨hl, -, hlt⟩ := List.pairwise_append.mp h
    rw [ofList_concat]
    show place e.1 e.2 (ofList l).entries = l ++ [e]
    rw [ih hl, place_of_forall_lt fun d hd => hlt d hd e (List.mem_singleton.mpr rfl)]

theorem ofList_entries (d : Dict α) : ofList d.entries = d := ext_entries (entries_ofList d.sorted)

theorem mem_keys {d : Dict α} {key : Text} : key ∈ d.keys ↔ (d.get? key).isSome = true := by
  rw [get?, List.lookup_isSome_iff]
  simp [keys]

theorem get?_eq_some_iff {d : Dict α} {key : Text} {value : α} :
    d.get? key = some value ↔ (key, value) ∈ d.entries := by
  have hkeys : (d.entries.map Prod.fst).Nodup := by
    refine List.Pairwise.imp ?_ (List.pairwise_map.mpr d.sorted)
    intro a b (hlt : a < b) (he : a = b)
    exact List.lt_irrefl b (he ▸ hlt)
  rw [get?, List.lookup_eq_some_iff]
  constructor
  · rintro ⟨before, after, hentries, -⟩
    rw [hentries]
    exact List.mem_append_right _ List.mem_cons_self
  · intro hmem
    obtain ⟨before, after, hentries⟩ := List.append_of_mem hmem
    refine ⟨before, after, hentries, fun e he => bne_iff_ne.mpr fun hkey => ?_⟩
    rw [hentries, List.map_append, List.nodup_append] at hkeys
    exact hkeys.2.2 e.1 (List.mem_map_of_mem he) key (List.mem_map_of_mem List.mem_cons_self)
      hkey.symm

/-! ## The last entry of a kind -/

/-- What is found from the end of the entries stands under the greatest of the keys under
which something is found. -/
theorem exists_of_findSome?_reverse {β : Type} {d : Dict α} {f : Text × α → Option β} {b : β}
    (h : d.entries.reverse.findSome? f = some b) :
    ∃ key value, d.get? key = some value ∧ f (key, value) = some b ∧
      ∀ other v, d.get? other = some v → (f (other, v)).isSome = true → other ≠ key →
        other < key := by
  obtain ⟨later, ⟨key, value⟩, earlier, hsplit, hfound, hnone⟩ := List.findSome?_eq_some_iff.mp h
  have hentries : d.entries = earlier.reverse ++ (key, value) :: later.reverse := by
    rw [← List.reverse_reverse d.entries, hsplit]
    simp
  refine ⟨key, value, ?_, hfound, ?_⟩
  · rw [get?_eq_some_iff, hentries]
    exact List.mem_append_right _ List.mem_cons_self
  · intro other v hother hsome hne
    have hsorted := d.sorted
    rw [get?_eq_some_iff, hentries] at hother
    rw [hentries, List.pairwise_append] at hsorted
    rcases List.mem_append.mp hother with hmem | hmem
    · exact hsorted.2.2 _ hmem _ List.mem_cons_self
    · rcases List.mem_cons.mp hmem with heq | hmem
      · exact absurd (Prod.mk.inj heq).1 hne
      · rw [hnone _ (List.mem_reverse.mp hmem)] at hsome
        exact absurd hsome (by simp)

/-- The greatest key is the one that is found from the end. -/
theorem findSome?_reverse_eq_some_iff {β : Type} {d : Dict α} {f : Text × α → Option β} {b : β} :
    d.entries.reverse.findSome? f = some b ↔
      ∃ key value, d.get? key = some value ∧ f (key, value) = some b ∧
        ∀ other v, d.get? other = some v → (f (other, v)).isSome = true → other ≠ key →
          other < key := by
  refine ⟨exists_of_findSome?_reverse, ?_⟩
  rintro ⟨key, value, hget, hfound, hgreatest⟩
  have hsome : (d.entries.reverse.findSome? f).isSome = true := by
    rw [List.findSome?_isSome_iff]
    exact ⟨(key, value), List.mem_reverse.mpr (get?_eq_some_iff.mp hget), by rw [hfound]; rfl⟩
  obtain ⟨b', hb'⟩ := Option.isSome_iff_exists.mp hsome
  obtain ⟨key', value', hget', hfound', hgreatest'⟩ := exists_of_findSome?_reverse hb'
  by_cases hkey : key = key'
  · subst hkey
    obtain rfl := Option.some.inj (hget.symm.trans hget')
    rw [hb', ← hfound', hfound]
  · have hlt := hgreatest' key value hget (by rw [hfound]; rfl) hkey
    exact absurd (hgreatest key' value' hget' (by rw [hfound']; rfl) (Ne.symm hkey))
      (List.lt_asymm hlt)

/-! ## Sorted texts -/

theorem mem_sortUnique {texts : List Text} {t : Text} : t ∈ sortUnique texts ↔ t ∈ texts := by
  rw [sortUnique, mem_keys, get?_ofList, List.lookup_isSome_iff]
  simp

theorem pairwise_sortUnique (texts : List Text) :
    (sortUnique texts).Pairwise (fun a b => a < b) :=
  List.pairwise_map.mpr (ofList (texts.map fun t => (t, ()))).sorted

end Dict
end Listing
