/-
Maximal runs of prose.

The lines of a comment group are read one by one and then gathered into blocks.
`gathers_gather` says what that does: the blocks hold what was read, in order, and
each paragraph is a run of prose that could not have been longer.
-/
import Listing.Prose
import Mathlib.Data.List.Chain

namespace Listing
namespace Prose

/-- The entries that a block was gathered from. -/
def Block.entries : Block → List Entry
  | .paragraph bodies => bodies.map .text
  | .border line => [.border line]
  | .gap => [.blank]

def Block.isParagraph : Block → Bool
  | .paragraph _ => true
  | _ => false

/-- Two blocks that are not one run of prose. -/
def Block.Apart (a b : Block) : Prop := ¬ (a.isParagraph = true ∧ b.isParagraph = true)

/-- The blocks hold the entries in order, and their paragraphs are the maximal runs of
prose: none is empty and no two are next to each other. -/
structure Gathers (entries : List Entry) (blocks : List Block) : Prop where
  entries_eq : blocks.flatMap Block.entries = entries
  nonempty : ∀ bodies, Block.paragraph bodies ∈ blocks → bodies ≠ []
  maximal : blocks.IsChain Block.Apart

namespace Gathers

variable {entries : List Entry} {blocks : List Block}

theorem cons (h : Gathers entries blocks) {block : Block}
    (hne : ∀ bodies, block = .paragraph bodies → bodies ≠ [])
    (hchain : (block :: blocks).IsChain Block.Apart) :
    Gathers (block.entries ++ entries) (block :: blocks) where
  entries_eq := by rw [List.flatMap_cons, h.entries_eq]
  nonempty := by
    intro bodies hmem
    rcases List.mem_cons.mp hmem with heq | hmem
    · exact hne bodies heq.symm
    · exact h.nonempty bodies hmem
  maximal := hchain

theorem consOther (h : Gathers entries blocks) (block : Block)
    (hother : block.isParagraph = false) :
    Gathers (block.entries ++ entries) (block :: blocks) := by
  refine h.cons (fun bodies heq => ?_) (List.isChain_cons.mpr ⟨fun b _ hboth => ?_, h.maximal⟩)
  · rw [heq] at hother
    exact absurd hother.symm Bool.false_ne_true
  · exact absurd (hother.symm.trans hboth.1) Bool.false_ne_true

/-- A line of prose goes into the run behind it, or starts one where there is none. -/
theorem consText (h : Gathers entries blocks) (body : Text) :
    Gathers (.text body :: entries) (Block.consText body blocks) := by
  have hstart : ∀ bodies, Block.paragraph [body] = .paragraph bodies → bodies ≠ [] := by
    rintro bodies ⟨⟩
    exact List.cons_ne_nil body []
  cases blocks with
  | nil => exact h.cons hstart (.singleton _)
  | cons block rest =>
    cases block with
    | paragraph bodies =>
      refine ⟨by rw [← h.entries_eq]; rfl, fun others hmem => ?_, ?_⟩
      · rcases List.mem_cons.mp hmem with heq | hmem
        · rw [Block.paragraph.inj heq]
          exact List.cons_ne_nil body bodies
        · exact h.nonempty others (List.mem_cons_of_mem _ hmem)
      · -- The longer run is next to the same block as the one it was made from.
        obtain ⟨hnext, hrest⟩ := List.isChain_cons.mp h.maximal
        exact List.isChain_cons.mpr ⟨hnext, hrest⟩
    | border line => exact h.cons hstart (.cons_cons (fun hboth => nomatch hboth.2) h.maximal)
    | gap => exact h.cons hstart (.cons_cons (fun hboth => nomatch hboth.2) h.maximal)

theorem text_mem (h : Gathers entries blocks) {bodies : List Text} {body : Text}
    (hblock : Block.paragraph bodies ∈ blocks) (hbody : body ∈ bodies) :
    Entry.text body ∈ entries := by
  rw [← h.entries_eq]
  exact List.mem_flatMap.mpr ⟨_, hblock, List.mem_map_of_mem hbody⟩

theorem border_mem (h : Gathers entries blocks) {line : Line}
    (hblock : Block.border line ∈ blocks) : Entry.border line ∈ entries := by
  rw [← h.entries_eq]
  exact List.mem_flatMap.mpr ⟨_, hblock, List.mem_singleton_self _⟩

end Gathers

theorem gathers_gather (entries : List Entry) : Gathers entries (gather entries) := by
  induction entries with
  | nil => exact ⟨rfl, fun _ h => absurd h List.not_mem_nil, .nil⟩
  | cons entry rest ih =>
    cases entry with
    | text body => exact ih.consText body
    | border line => exact ih.consOther (.border line) rfl
    | blank => exact ih.consOther .gap rfl

end Prose
end Listing
