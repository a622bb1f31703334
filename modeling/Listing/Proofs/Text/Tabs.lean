/-
Tab stops.

Expanding tabs puts spaces where the tabs were and leaves the rest alone, so a text without
tabs stays as it is.  The column that is counted while a text is expanded is the width of
what has been put out (`expandFrom_append`), whatever the widths of its characters, so each
tab ends at a stop.  Behind a stop the text goes on as at the start of a line
(`expandTabs_append_tab`).
-/
import Listing.Proofs.Text.Blank

namespace Listing
namespace Text

theorem mem_expandFrom {tab column : Nat} {t : Text} {d : Char}
    (h : d ∈ expandFrom tab column t) : d = ' ' ∨ d ∈ t ∧ d ≠ '\t' := by
  induction t generalizing column with
  | nil => exact absurd h List.not_mem_nil
  | cons c r ih =>
    have hrest : ∀ {column : Nat}, d ∈ expandFrom tab column r → d = ' ' ∨ d ∈ c :: r ∧ d ≠ '\t' :=
      fun hd => (ih hd).imp_right (And.imp_left (List.mem_cons_of_mem c))
    rw [expandFrom] at h
    split at h
    · rcases List.mem_append.mp h with hd | hd
      · exact .inl (List.eq_of_mem_replicate hd)
      · exact hrest hd
    · rename_i hc
      rcases List.mem_cons.mp h with rfl | hd
      · exact .inr ⟨List.mem_cons_self, hc⟩
      · exact hrest hd

theorem expandFrom_of_not_mem {tab column : Nat} {t : Text} (h : '\t' ∉ t) :
    expandFrom tab column t = t := by
  induction t generalizing column with
  | nil => rfl
  | cons c r ih =>
    have hc : c ≠ '\t' := fun he => h (he ▸ List.mem_cons_self)
    rw [expandFrom, if_neg hc, ih fun hr => h (List.mem_cons_of_mem c hr)]

/-- Expanding a text leaves no tab and brings in nothing but spaces. -/
theorem mem_expandTabs {tab : Nat} {t : Text} {d : Char} (h : d ∈ expandTabs tab t) :
    d = ' ' ∨ d ∈ t ∧ d ≠ '\t' :=
  mem_expandFrom h

theorem not_mem_expandTabs (tab : Nat) (t : Text) : '\t' ∉ expandTabs tab t := by
  intro h
  cases mem_expandTabs h with
  | inl hspace => exact absurd hspace (by decide)
  | inr hmem => exact hmem.2 rfl

theorem expandTabs_of_not_mem (tab : Nat) {t : Text} (h : '\t' ∉ t) : expandTabs tab t = t :=
  expandFrom_of_not_mem h

/-! ## Columns -/

theorem expandFrom_tab (tab column : Nat) (t : Text) :
    expandFrom tab column ('\t' :: t) =
      List.replicate (tab - column % tab) ' ' ++
        expandFrom tab (column + (tab - column % tab)) t := by
  rw [expandFrom, if_pos rfl]

theorem expandFrom_cons {c : Char} (hc : c ≠ '\t') (tab column : Nat) (t : Text) :
    expandFrom tab column (c :: t) = c :: expandFrom tab (column + charWidth c) t := by
  rw [expandFrom, if_neg hc]

theorem width_spaces (n : Nat) : width (List.replicate n ' ') = n := by
  rw [width_replicate, charWidth_space, Nat.mul_one]

/-- The start of a text is expanded by itself.  The rest goes on at the column that its
expansion ends at. -/
theorem expandFrom_append (tab column : Nat) (a b : Text) :
    expandFrom tab column (a ++ b) =
      expandFrom tab column a ++ expandFrom tab (column + width (expandFrom tab column a)) b := by
  induction a generalizing column with
  | nil => rfl
  | cons c a ih =>
    -- In both cases the counter goes on by the width of what is put out for `c`.
    by_cases hc : c = '\t'
    · subst hc
      rw [List.cons_append, expandFrom_tab, expandFrom_tab, ih, width_append, width_spaces,
        List.append_assoc, Nat.add_assoc]
    · rw [List.cons_append, expandFrom_cons hc, expandFrom_cons hc, ih, width_cons,
        List.cons_append, Nat.add_assoc]

/-! ## Stops -/

section

variable {tab : Nat}

/-- A tab at a stop goes on to the next one. -/
theorem padding_pos (htab : 0 < tab) (column : Nat) : 0 < tab - column % tab := by
  have hlt := Nat.mod_lt column htab
  omega

theorem dvd_add_padding (htab : 0 < tab) (column : Nat) :
    tab ∣ column + (tab - column % tab) := by
  have hlt := Nat.mod_lt column htab
  have hcolumn := Nat.div_add_mod column tab
  refine ⟨column / tab + 1, ?_⟩
  rw [Nat.mul_add, Nat.mul_one]
  omega

/-- What is expanded up to a tab ends at a stop. -/
theorem dvd_width_expandFrom (htab : 0 < tab) (column : Nat) (head : Text) :
    tab ∣ column + width (expandFrom tab column (head ++ ['\t'])) := by
  have hnil : ∀ column, expandFrom tab column [] = [] := fun _ => rfl
  rw [expandFrom_append, expandFrom_tab, hnil, List.append_nil, width_append, width_spaces,
    ← Nat.add_assoc]
  exact dvd_add_padding htab _

/-- Only the place of a column between two stops matters. -/
theorem expandFrom_congr {column other : Nat} (h : column % tab = other % tab) (t : Text) :
    expandFrom tab column t = expandFrom tab other t := by
  have hadd : ∀ {a b : Nat} (n : Nat), a % tab = b % tab → (a + n) % tab = (b + n) % tab := by
    intro a b n hab
    rw [Nat.add_mod, hab, ← Nat.add_mod]
  induction t generalizing column other with
  | nil => rfl
  | cons c t ih =>
    by_cases hc : c = '\t'
    · subst hc
      rw [expandFrom_tab, expandFrom_tab, h, ih (hadd _ h)]
    · rw [expandFrom_cons hc, expandFrom_cons hc, ih (hadd _ h)]

end

theorem max_one_pos (tab : Nat) : 0 < max tab 1 :=
  Nat.lt_of_lt_of_le Nat.one_pos (Nat.le_max_right tab 1)

/-- Behind a tab a text is expanded as if a line started there. -/
theorem expandTabs_append_tab (tab : Nat) (head rest : Text) :
    expandTabs tab (head ++ '\t' :: rest) =
      expandTabs tab (head ++ ['\t']) ++ expandTabs tab rest := by
  have hstop : (0 + width (expandTabs tab (head ++ ['\t']))) % max tab 1 = 0 % max tab 1 := by
    rw [Nat.zero_mod]
    exact Nat.mod_eq_zero_of_dvd (dvd_width_expandFrom (max_one_pos tab) 0 head)
  rw [List.append_cons, expandTabs, expandFrom_append, ← expandTabs, expandFrom_congr hstop rest]
  rfl

/-! ## What is kept -/

/-- `out` is `t` with each tab replaced by at least one and at most `tab` spaces, and with
all other characters. -/
inductive Untabbed (tab : Nat) : Text → Text → Prop
  | nil : Untabbed tab [] []
  | tab {n : Nat} {t out : Text} (hpos : 1 ≤ n) (hle : n ≤ tab) (h : Untabbed tab t out) :
      Untabbed tab ('\t' :: t) (List.replicate n ' ' ++ out)
  | char {c : Char} {t out : Text} (hc : c ≠ '\t') (h : Untabbed tab t out) :
      Untabbed tab (c :: t) (c :: out)

theorem untabbed_expandFrom {tab : Nat} (htab : 0 < tab) (column : Nat) (t : Text) :
    Untabbed tab t (expandFrom tab column t) := by
  induction t generalizing column with
  | nil => exact .nil
  | cons c t ih =>
    by_cases hc : c = '\t'
    · subst hc
      rw [expandFrom_tab]
      exact .tab (padding_pos htab column) (Nat.sub_le _ _) (ih _)
    · rw [expandFrom_cons hc]
      exact .char hc (ih _)

/-- Each tab becomes some spaces, no more than there are columns between two stops, and what
is expanded up to it ends at a stop.  Nothing else of the text is changed, so expanding it
again changes nothing. -/
theorem expandTabs_stops (tab : Nat) (t : Text) :
    '\t' ∉ expandTabs tab t ∧ Untabbed (max tab 1) t (expandTabs tab t) ∧
      (∀ head rest, t = head ++ '\t' :: rest →
        max tab 1 ∣ width (expandTabs tab (head ++ ['\t'])) ∧
          expandTabs tab (head ++ ['\t']) <+: expandTabs tab t) ∧
      expandTabs tab (expandTabs tab t) = expandTabs tab t := by
  have hnone := not_mem_expandTabs tab t
  refine ⟨hnone, untabbed_expandFrom (max_one_pos tab) 0 t, ?_, expandTabs_of_not_mem tab hnone⟩
  intro head rest ht
  have hstop := dvd_width_expandFrom (max_one_pos tab) 0 head
  have hcut := expandTabs_append_tab tab head rest
  rw [Nat.zero_add] at hstop
  rw [ht, hcut]
  exact ⟨hstop, List.prefix_append _ _⟩

/-- A wide sign and one without width stand in front of the first tab. -/
theorem expandTabs_stops_accented :
    let t := "日e\u0301\tx\t|".toList
    let head := "日e\u0301\tx".toList
    t = head ++ '\t' :: ['|'] ∧ expandTabs 4 (head ++ ['\t']) = "日e\u0301 x   ".toList ∧
      4 ∣ width (expandTabs 4 (head ++ ['\t'])) ∧
      expandTabs 4 (head ++ ['\t']) <+: expandTabs 4 t := by
  intro t head
  have ht : t = head ++ '\t' :: ['|'] := by decide
  have hstop := (expandTabs_stops 4 t).2.2.1 head ['|'] ht
  exact ⟨ht, by decide +kernel, hstop⟩

end Text
end Listing
