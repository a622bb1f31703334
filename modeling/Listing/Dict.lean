/-
Dictionaries with texts as keys, kept in increasing order of their keys.

The order of texts is the order of their characters by code point, which is also
the order of their UTF-8 bytes.  Keeping the entries sorted gives each content one
representation, so two dictionaries with the same look-ups are equal.
-/
import Listing.Text.Basic

namespace Listing

/-- Entries in strictly increasing order of their keys. -/
structure Dict (α : Type) where
  entries : List (Text × α)
  sorted : entries.Pairwise (fun a b => a.1 < b.1)

namespace Text

/-- Which of two texts comes first, found in one pass over both. -/
def compare : Text → Text → Ordering
  | [], [] => .eq
  | [], _ :: _ => .lt
  | _ :: _, [] => .gt
  | a :: s, b :: t => if a = b then compare s t else if a < b then .lt else .gt

theorem compare_eq_lt_iff {s t : Text} : compare s t = .lt ↔ s < t := by
  induction s generalizing t with
  | nil => cases t <;> simp [compare]
  | cons a s ih =>
    cases t with
    | nil => simp [compare]
    | cons b t =>
      rw [compare, List.cons_lt_cons_iff]
      split
      · rename_i h
        subst h
        rw [ih]
        exact ⟨fun h => .inr ⟨rfl, h⟩, fun h => h.elim (absurd · (Char.lt_irrefl a)) And.right⟩
      · rename_i h
        split <;> simp_all

theorem compare_eq_eq_iff {s t : Text} : compare s t = .eq ↔ s = t := by
  induction s generalizing t with
  | nil => cases t <;> simp [compare]
  | cons a s ih =>
    cases t with
    | nil => simp [compare]
    | cons b t =>
      rw [compare, List.cons_eq_cons]
      split
      · rename_i h
        rw [ih, and_iff_right h]
      · rename_i h
        split <;> simp [h]

end Text

namespace Dict

variable {α β : Type}

/-- Puts an entry into its place, instead of the one with the same key. -/
def place (key : Text) (value : α) : List (Text × α) → List (Text × α)
  | [] => [(key, value)]
  | (k, v) :: rest =>
    match Text.compare key k with
    | .lt => (key, value) :: (k, v) :: rest
    | .eq => (key, value) :: rest
    | .gt => (k, v) :: place key value rest

theorem eq_or_mem_of_mem_place {key : Text} {value : α} {e : Text × α} :
    ∀ {l : List (Text × α)}, e ∈ place key value l → e = (key, value) ∨ e ∈ l := by
  intro l
  induction l with
  | nil => intro h; simpa [place] using h
  | cons head rest ih =>
    obtain ⟨k, v⟩ := head
    intro h
    rw [place] at h
    split at h
    · simpa using h
    · rcases List.mem_cons.mp h with rfl | h
      · exact .inl rfl
      · exact .inr (List.mem_cons_of_mem _ h)
    · rcases List.mem_cons.mp h with rfl | h
      · exact .inr (List.mem_cons_self ..)
      · exact (ih h).imp id (List.mem_cons_of_mem _)

/-- Of two different texts one comes first. -/
theorem lt_of_compare_eq_gt {a b : Text} (h : Text.compare a b = .gt) : b < a := by
  have hlt : ¬ a < b := fun h' => by simp [Text.compare_eq_lt_iff.mpr h'] at h
  have hne : a ≠ b := fun h' => by simp [Text.compare_eq_eq_iff.mpr h'] at h
  refine Classical.byContradiction fun h' => hne ?_
  exact List.le_antisymm (List.not_lt.mp h') (List.not_lt.mp hlt)

theorem place_sorted {key : Text} {value : α} :
    ∀ {l : List (Text × α)}, l.Pairwise (fun a b => a.1 < b.1) →
      (place key value l).Pairwise (fun a b => a.1 < b.1) := by
  intro l
  induction l with
  | nil => intro _; simp [place]
  | cons head rest ih =>
    obtain ⟨k, v⟩ := head
    intro h
    obtain ⟨hk, hrest⟩ := List.pairwise_cons.mp h
    rw [place]
    split
    · rename_i hc
      have hlt := Text.compare_eq_lt_iff.mp hc
      refine List.pairwise_cons.mpr ⟨fun e he => ?_, h⟩
      rcases List.mem_cons.mp he with rfl | he
      · exact hlt
      · exact List.lt_trans hlt (hk e he)
    · rename_i hc
      have heq := Text.compare_eq_eq_iff.mp hc
      subst heq
      exact List.pairwise_cons.mpr ⟨hk, hrest⟩
    · rename_i hc
      refine List.pairwise_cons.mpr ⟨fun e he => ?_, ih hrest⟩
      rcases eq_or_mem_of_mem_place he with rfl | he
      · exact lt_of_compare_eq_gt hc
      · exact hk e he

def empty : Dict α := ⟨[], List.Pairwise.nil⟩

instance : EmptyCollection (Dict α) := ⟨empty⟩

instance : Inhabited (Dict α) := ⟨empty⟩

/-- The dictionary with `key` holding `value`, whatever it held before. -/
def insert (d : Dict α) (key : Text) (value : α) : Dict α :=
  ⟨place key value d.entries, place_sorted d.sorted⟩

def get? (d : Dict α) (key : Text) : Option α := d.entries.lookup key

def contains (d : Dict α) (key : Text) : Bool := (d.get? key).isSome

def isEmpty (d : Dict α) : Bool := d.entries.isEmpty

/-- The keys in increasing order. -/
def keys (d : Dict α) : List Text := d.entries.map Prod.fst

/-- Inserts the entries in turn, so the last of several with one key stays. -/
def ofList (entries : List (Text × α)) : Dict α :=
  entries.foldl (fun d e => d.insert e.1 e.2) empty

theorem lookup_place_self (key : Text) (value : α) (l : List (Text × α)) :
    (place key value l).lookup key = some value := by
  induction l with
  | nil => simp [place]
  | cons head rest ih =>
    obtain ⟨k, v⟩ := head
    rw [place]
    split
    · simp
    · simp
    · rename_i hc
      have hne : key ≠ k := fun h => by simp [Text.compare_eq_eq_iff.mpr h] at hc
      rw [List.lookup_cons, beq_false_of_ne hne, ih]

theorem lookup_place_ne {key other : Text} (h : other ≠ key) (value : α)
    (l : List (Text × α)) : (place key value l).lookup other = l.lookup other := by
  have hb : (other == key) = false := beq_false_of_ne h
  induction l with
  | nil => simp only [place, List.lookup_cons, hb]
  | cons head rest ih =>
    obtain ⟨k, v⟩ := head
    rw [place]
    split
    · simp only [List.lookup_cons, hb]
    · rename_i hc
      have heq := Text.compare_eq_eq_iff.mp hc
      subst heq
      simp only [List.lookup_cons, hb]
    · simp only [List.lookup_cons, ih]

@[simp] theorem get?_insert_self (d : Dict α) (key : Text) (value : α) :
    (d.insert key value).get? key = some value :=
  lookup_place_self key value d.entries

theorem get?_insert_ne (d : Dict α) {key other : Text} (h : other ≠ key) (value : α) :
    (d.insert key value).get? other = d.get? other :=
  lookup_place_ne h value d.entries

@[simp] theorem get?_empty (key : Text) : (empty : Dict α).get? key = none := rfl

/-- The texts in increasing order, each once. -/
def sortUnique (texts : List Text) : List Text := (ofList (texts.map fun t => (t, ()))).keys

/-- Dictionaries are equal when their entries are. -/
theorem ext_entries {a b : Dict α} (h : a.entries = b.entries) : a = b := by
  cases a; cases b; simp_all

end Dict
end Listing
