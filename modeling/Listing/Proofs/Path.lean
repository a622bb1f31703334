/-
Paths of names in a directory.

A plain name is one that stands for itself between slashes.  Joined to the path of a
directory it is one part more (`parts_join`), whatever the path ends in, so it is the
name of the file that the joined path leads to.
-/
import Listing.Path

namespace Listing
namespace Path

/-- A name that leads to an entry of a directory and nowhere else. -/
structure IsPlain (name : Text) : Prop where
  noSlash : '/' ∉ name
  notIdle : isIdle name = false
  notUp : name ≠ "..".toList

theorem pieces_append_slash (a b : Text) :
    (Path.mk (a ++ '/' :: b)).pieces = (Path.mk a).pieces ++ (Path.mk b).pieces :=
  List.splitOn_append_cons_of_beq a b rfl

theorem pieces_of_noSlash {name : Text} (h : '/' ∉ name) : (Path.mk name).pieces = [name] :=
  List.splitOn_eq_singleton h

theorem parts_append_slash (a : Text) {name : Text} (h : IsPlain name) :
    (Path.mk (a ++ '/' :: name)).parts = (Path.mk a).parts ++ [name] := by
  rw [parts, pieces_append_slash, pieces_of_noSlash h.noSlash, List.filter_append]
  simp [parts, h.notIdle]

/-- A slash at the end of a path is no part of it. -/
theorem parts_join (p : Path) {name : Text} (h : IsPlain name) :
    (p.join name).parts = p.parts ++ [name] := by
  obtain ⟨text⟩ := p
  unfold join
  split
  · rename_i hend
    rw [Bool.or_eq_true, List.isEmpty_iff, beq_iff_eq] at hend
    rcases hend with rfl | hend
    · have hempty : (Path.mk []).parts = [] := rfl
      rw [List.nil_append, parts, pieces_of_noSlash h.noSlash, hempty, List.nil_append]
      simp [h.notIdle]
    · obtain ⟨before, rfl⟩ := List.getLast?_eq_some_iff.mp hend
      have hslash : (Path.mk (before ++ ['/'])).parts = (Path.mk before).parts := by
        rw [parts, pieces_append_slash, pieces_of_noSlash List.not_mem_nil, List.filter_append]
        simp [parts, isIdle]
      rw [List.append_assoc, List.singleton_append, parts_append_slash before h, hslash]
  · exact parts_append_slash text h

theorem exists_join_text (p : Path) :
    ∃ between, ∀ name, (p.join name).text = p.text ++ (between ++ name) := by
  by_cases h : (p.text.isEmpty || p.text.getLast? == some '/') = true
  · exact ⟨[], fun name => by rw [join, if_pos h]; rfl⟩
  · exact ⟨['/'], fun name => by rw [join, if_neg h]; rfl⟩

theorem isAbsolute_join {p : Path} (h : p.text ≠ []) (name : Text) :
    (p.join name).isAbsolute = p.isAbsolute := by
  obtain ⟨c, r, hcons⟩ := List.exists_cons_of_ne_nil h
  unfold join isAbsolute
  rw [hcons]
  split
  · rfl
  · rfl

theorem fileName?_join (p : Path) {name : Text} (h : IsPlain name) :
    (p.join name).fileName? = some name := by
  rw [fileName?, parts_join p h, List.getLast?_concat]
  exact if_neg h.notUp

/-! ## Extensions -/

/-- A name is cut at its last dot. -/
theorem splitName_append {stem ext : Text} (hstem : stem ≠ []) (hext : '.' ∉ ext) :
    splitName (stem ++ '.' :: ext) = (stem, some ext) := by
  have hreverse : (stem ++ '.' :: ext).reverse = ext.reverse ++ '.' :: stem.reverse := by simp
  have hsplit : Text.splitAt? '.' (stem ++ '.' :: ext).reverse =
      some (ext.reverse, stem.reverse) := by
    rw [hreverse]
    exact Text.splitAt?_append (by simpa using hext) stem.reverse
  obtain ⟨c, r, hcons⟩ := List.exists_cons_of_ne_nil (List.reverse_ne_nil_iff.mpr hstem)
  rw [splitName, hsplit, hcons]
  simp only [← hcons, List.reverse_reverse]

theorem append_of_splitName {name stem ext : Text} (h : splitName name = (stem, some ext)) :
    stem ++ '.' :: ext = name := by
  unfold splitName at h
  split at h
  · simp at h
  · rename_i behind before _ hsplit
    obtain ⟨rfl, hext⟩ := Prod.mk.inj h
    rw [← Option.some.inj hext, ← List.reverse_reverse name, ← Text.append_of_splitAt? hsplit]
    simp
  · simp at h

end Path
end Listing
