/-
Where the declarations of a style sheet end.

A reader cuts a style sheet into pieces, behind each semicolon and brace that it meets
outside of strings, comments and brackets.  The style sheet of a profile is written rule by
rule, each declaration with a semicolon of its own, and `pieces_ofProfile_iff` says when the
pieces are what was written.  Colours leave nothing open, so it is a matter of the font
lists, and those may hold more than their check looks for: a quote, a comment or a bracket
that is left open takes what follows along.
-/
import Listing.Page.Stylesheet
import Listing.Proofs.Style.Closed
import Listing.Proofs.Style.Validity

namespace Listing
namespace Stylesheet

/-! ## Pieces -/

/-- The characters that end a part of a style sheet. -/
def marks : List Char := [';', '{', '}']

/-- None of these characters is in the text. -/
def Avoids (chars : List Char) (t : Text) : Prop := ∀ c ∈ t, c ∉ chars

instance (chars : List Char) (t : Text) : Decidable (Avoids chars t) :=
  decidable_of_iff (t.all (fun c => !chars.contains c) = true) (by simp [Avoids])

/-- Cuts a style sheet behind each mark outside of everything.  `seen` is the piece so far
in reverse, and `s` the reader behind it. -/
def piecesFrom (s : Reader) (seen : Text) : Text → List Text
  | [] => [seen.reverse]
  | c :: r =>
    if c ∈ marks ∧ Reader.RestsIn [] s then
      (c :: seen).reverse :: piecesFrom Reader.start [] r
    else piecesFrom (s.step c) (c :: seen) r

def pieces (t : Text) : List Text := piecesFrom Reader.start [] t

theorem Avoids.append {chars : List Char} {a b : Text} (ha : Avoids chars a)
    (hb : Avoids chars b) : Avoids chars (a ++ b) :=
  fun c hc => (List.mem_append.mp hc).elim (ha c) (hb c)

/-- A text of characters that a check takes holds none that it refuses. -/
theorem avoids_of_forall {chars : List Char} {p : Char → Bool}
    (hp : chars.all (fun c => p c == false) = true) {t : Text} (h : ∀ c ∈ t, p c = true) :
    Avoids chars t := by
  intro c hc hmem
  have hfalse := beq_iff_eq.mp (List.all_eq_true.mp hp c hmem)
  exact Bool.false_ne_true (hfalse.symm.trans (h c hc))

/-- No mark, and nothing that stays open. -/
structure Whole (t : Text) : Prop where
  markFree : Avoids marks t
  rests : Reader.RestsIn [] (Reader.start.run t)

instance (t : Text) : Decidable (Whole t) :=
  decidable_of_iff (Avoids marks t ∧ Reader.RestsIn [] (Reader.start.run t))
    ⟨fun h => ⟨h.1, h.2⟩, fun h => ⟨h.markFree, h.rests⟩⟩

theorem piecesFrom_append {a : Text} (h : Avoids marks a) (s : Reader) (seen t : Text) :
    piecesFrom s seen (a ++ t) = piecesFrom (s.run a) (a.reverse ++ seen) t := by
  induction a generalizing s seen with
  | nil => rfl
  | cons c a ih =>
    rw [List.cons_append, piecesFrom, if_neg fun hcut => h c List.mem_cons_self hcut.1,
      ih fun d hd => h d (List.mem_cons_of_mem c hd), Reader.run_cons, List.reverse_cons,
      List.append_assoc]
    rfl

theorem pieces_whole {a : Text} (h : Whole a) : pieces a = [a] := by
  have happ := piecesFrom_append h.markFree Reader.start [] []
  rwa [List.append_nil, List.append_nil, piecesFrom, List.reverse_reverse] at happ

theorem pieces_cut {a : Text} (h : Whole a) {c : Char} (hc : c ∈ marks) (t : Text) :
    pieces (a ++ c :: t) = (a ++ [c]) :: pieces t := by
  rw [pieces, piecesFrom_append h.markFree, piecesFrom, if_pos ⟨hc, h.rests⟩, List.append_nil,
    List.reverse_cons, List.reverse_reverse]
  rfl

theorem piecesFrom_ne_nil (s : Reader) (seen t : Text) : piecesFrom s seen t ≠ [] := by
  induction t generalizing s seen with
  | nil => exact List.cons_ne_nil _ _
  | cons c r ih =>
    rw [piecesFrom]
    split
    · exact List.cons_ne_nil _ _
    · exact ih _ _

/-- What stands in front of the mark of a piece leaves nothing open.  The last piece is what
is left behind the last mark, so it has none. -/
theorem exists_rests_of_mem_pieces {t piece : Text} (h : piece ∈ (pieces t).dropLast) :
    ∃ a c, piece = a ++ [c] ∧ Reader.RestsIn [] (Reader.start.run a) := by
  have hgeneral : ∀ seen : Text, piece ∈ (piecesFrom (Reader.start.run seen.reverse) seen t).dropLast →
      ∃ a c, piece = a ++ [c] ∧ Reader.RestsIn [] (Reader.start.run a) := by
    clear h
    induction t with
    | nil => exact fun seen h => absurd h List.not_mem_nil
    | cons c r ih =>
      intro seen h
      rw [piecesFrom] at h
      split at h
      · rename_i hcut
        rw [List.dropLast_cons_of_ne_nil (piecesFrom_ne_nil _ _ _)] at h
        rcases List.mem_cons.mp h with rfl | h
        · exact ⟨seen.reverse, c, List.reverse_cons, hcut.2⟩
        · exact ih [] h
      · refine ih (c :: seen) ?_
        rw [List.reverse_cons, Reader.run_append]
        exact h
  exact hgeneral [] h

/-! ## Rules as they are written -/

structure Rule where
  selector : String
  declarations : List (String × Text)

namespace Rule

def text (r : Rule) : Text := rule r.selector r.declarations

/-- A declaration up to its value. -/
def nameText (name : String) : Text := ' ' :: name.toList ++ ": ".toList

def declarationText (d : String × Text) : Text := nameText d.1 ++ d.2

/-- The pieces that a rule is meant to have behind the text `before`. -/
def pieces (before : Text) (r : Rule) : List Text :=
  (before ++ r.selector.toList ++ [' '] ++ ['{']) ::
    (r.declarations.map (fun d => declarationText d ++ [';']) ++ [[' ', '}']])

/-- The space behind a semicolon is the one in front of the next piece. -/
theorem space_declarations (declarations : List (String × Text)) (t : Text) :
    ' ' :: (declarations.flatMap (fun d => d.1.toList ++ ": ".toList ++ d.2 ++ "; ".toList) ++ t) =
      declarations.flatMap (fun d => declarationText d ++ [';']) ++ ' ' :: t := by
  induction declarations with
  | nil => rfl
  | cons d rest ih =>
    rw [List.flatMap_cons, List.flatMap_cons, List.append_assoc (declarationText d ++ [';']), ← ih]
    simp [declarationText, nameText]

theorem text_eq (r : Rule) :
    r.text = r.selector.toList ++ [' '] ++
      '{' :: (r.declarations.flatMap (fun d => declarationText d ++ [';']) ++ ' ' :: '}' :: ['\n']) := by
  rw [← space_declarations]
  simp [text, rule]

end Rule

/-- The pieces that rules are meant to have, and what stands behind the last one. -/
def written (before : Text) : List Rule → List Text
  | [] => [before]
  | r :: rest => r.pieces before ++ written ['\n'] rest

theorem written_ne_nil (before : Text) (rules : List Rule) : written before rules ≠ [] := by
  cases rules with
  | nil => exact List.cons_ne_nil _ _
  | cons r rest => exact List.cons_ne_nil _ _

theorem mem_dropLast_written {rules : List Rule} {r : Rule} (hr : r ∈ rules) {d : String × Text}
    (hd : d ∈ r.declarations) (before : Text) :
    Rule.declarationText d ++ [';'] ∈ (written before rules).dropLast := by
  induction rules generalizing before with
  | nil => exact absurd hr List.not_mem_nil
  | cons s rest ih =>
    rw [written, List.dropLast_append_of_ne_nil (written_ne_nil _ rest)]
    rcases List.mem_cons.mp hr with rfl | hr
    · refine List.mem_append_left _ (List.mem_cons_of_mem _ (List.mem_append_left _ ?_))
      exact List.mem_map_of_mem hd
    · exact List.mem_append_right _ (ih hr ['\n'])

/-- A name that the value of its declaration can stand behind: a reader is where it
started. -/
def Rule.IsName (name : String) : Prop :=
  Avoids marks (nameText name) ∧ Reader.start.run (nameText name) = Reader.start

instance (name : String) : Decidable (Rule.IsName name) := inferInstanceAs (Decidable (_ ∧ _))

/-- A selector that can stand at the start of a style sheet and on a later line of it. -/
def Rule.IsSelector (selector : Text) : Prop :=
  Whole (selector ++ [' ']) ∧ Whole ('\n' :: selector ++ [' '])

instance (selector : Text) : Decidable (Rule.IsSelector selector) :=
  inferInstanceAs (Decidable (_ ∧ _))

/-- No part of the rule takes a mark along. -/
structure Rule.Sound (r : Rule) : Prop where
  selector : Rule.IsSelector r.selector.toList
  declarations : ∀ d ∈ r.declarations, Rule.IsName d.1 ∧ Whole d.2

theorem Rule.Sound.declaration {r : Rule} (h : r.Sound) {d : String × Text}
    (hd : d ∈ r.declarations) : Whole (declarationText d) where
  markFree := (h.declarations d hd).1.1.append (h.declarations d hd).2.markFree
  rests := by
    rw [declarationText, Reader.run_append, (h.declarations d hd).1.2]
    exact (h.declarations d hd).2.rests

theorem pieces_declarations {declarations : List (String × Text)}
    (h : ∀ d ∈ declarations, Whole (Rule.declarationText d)) (t : Text) :
    pieces (declarations.flatMap (fun d => Rule.declarationText d ++ [';']) ++ ' ' :: '}' :: t) =
      declarations.map (fun d => Rule.declarationText d ++ [';']) ++ [' ', '}'] :: pieces t := by
  induction declarations with
  | nil =>
    have hspace : Whole [' '] := ⟨by decide, by decide⟩
    exact pieces_cut hspace (by decide) t
  | cons d rest ih =>
    rw [List.flatMap_cons, List.append_assoc, List.append_assoc, List.singleton_append,
      pieces_cut (h d List.mem_cons_self) (by decide), ih fun e he => h e (List.mem_cons_of_mem d he)]
    rfl

theorem pieces_rules {rules : List Rule} (h : ∀ r ∈ rules, r.Sound) (before : Text)
    (hbefore : before = [] ∨ before = ['\n']) :
    pieces (before ++ rules.flatMap Rule.text) = written before rules := by
  induction rules generalizing before with
  | nil =>
    rw [List.flatMap_nil, List.append_nil, written]
    refine pieces_whole ?_
    obtain rfl | rfl := hbefore
    · exact ⟨by decide, by decide⟩
    · exact ⟨by decide, by decide⟩
  | cons r rest ih =>
    have hr := h r List.mem_cons_self
    have hselector : Whole (before ++ r.selector.toList ++ [' ']) := by
      obtain rfl | rfl := hbefore
      · exact hr.selector.1
      · exact hr.selector.2
    have htext : before ++ (r :: rest).flatMap Rule.text = before ++ r.selector.toList ++ [' ']
        ++ '{' :: (r.declarations.flatMap (fun d => Rule.declarationText d ++ [';'])
          ++ ' ' :: '}' :: (['\n'] ++ rest.flatMap Rule.text)) := by
      simp [Rule.text_eq]
    rw [htext, pieces_cut hselector (by decide), pieces_declarations fun d hd => hr.declaration hd,
      ih (fun s hs => h s (List.mem_cons_of_mem r hs)) ['\n'] (.inr rfl), written, Rule.pieces,
      List.cons_append, List.append_assoc (List.map _ _), List.singleton_append]

/-! ## Style sheets of profiles -/

def tokenRules (p : Palette) (kind : TokenClass) : List Rule :=
  match kind.styleClass? with
  | some name => [⟨String.ofList ('.' :: name), [("color", p.get (Slot.ofClass kind))]⟩]
  | none => []

def rules (p : Profile) : List Rule :=
  [⟨"body", [("margin", "0".toList), ("padding", "1em".toList),
      ("background", p.colours.background), ("color", p.colours.foreground)]⟩,
    ⟨".code", [("font-family", p.fonts.code), ("font-size", pixels p.fontSizes.code),
      ("line-height", "1.4".toList), ("font-weight", weight p.fontStyles.codeBold),
      ("font-style", slant p.fontStyles.codeItalic),
      ("max-width", Text.ofNat p.maxWidth ++ "ch".toList)]⟩,
    ⟨".line", [("white-space", "pre".toList), ("min-height", "1.4em".toList)]⟩,
    ⟨".ln", [("user-select", "none".toList), ("-webkit-user-select", "none".toList),
      ("opacity", "0.5".toList), ("padding-right", "1ch".toList)]⟩]
    ++ TokenClass.styled.flatMap (tokenRules p.colours)
    ++ [⟨".tok-comment", [("font-weight", weight p.fontStyles.commentBold),
          ("font-style", slant p.fontStyles.commentItalic)]⟩,
        ⟨".line.comment .tok-comment", [("font-family", p.fonts.comment),
          ("font-size", pixels p.fontSizes.comment)]⟩]

theorem flatMap_text_tokenRules (p : Palette) (kind : TokenClass) :
    (tokenRules p kind).flatMap Rule.text = tokenRule p kind := by
  unfold tokenRules tokenRule
  cases kind.styleClass? with
  | none => rfl
  | some name => exact List.append_nil _

theorem flatMap_text_rules (p : Profile) : (rules p).flatMap Rule.text = ofProfile p := by
  have htokens : (TokenClass.styled.flatMap (tokenRules p.colours)).flatMap Rule.text
      = TokenClass.styled.flatMap (tokenRule p.colours) := by
    rw [List.flatMap_assoc]
    exact List.flatMap_congr fun kind _ => flatMap_text_tokenRules p.colours kind
  simp only [rules, List.flatMap_append, htokens, List.flatMap_cons, List.flatMap_nil,
    List.append_nil, ofProfile, Rule.text, List.append_assoc]

/-! ### Values -/

/-- The characters that start or end something in a value, a slash aside. -/
def structural : List Char := [';', '{', '}', '\\', '"', '\'', '(', ')', '[', ']', '*']

theorem marks_subset_structural : marks ⊆ structural := by
  simp [marks, structural]

/-- Other characters leave a reader where it is, also inside of brackets. -/
theorem restsIn_run_of_avoids {awaited : List Char}
    (hawaited : awaited ⊆ structural) {t : Text} (h : Avoids structural t)
    {s : Reader} (hs : Reader.RestsIn awaited s) : Reader.RestsIn awaited (s.run t) := by
  induction t generalizing s with
  | nil => exact hs
  | cons c t ih =>
    have hc := h c List.mem_cons_self
    have hne : ∀ d ∈ structural, c ≠ d := fun d hd heq => hc (heq ▸ hd)
    refine ih (fun d hd => h d (List.mem_cons_of_mem c hd)) ?_
    rw [hs.step_eq (hne '*' (by decide))]
    by_cases hslash : c = '/'
    · subst hslash
      exact .inr rfl
    · have hquote : isQuote c = false := by
        simp [isQuote, hne '"' (by decide), hne '\'' (by decide)]
      have hbracket : closer? c = none := by
        rw [closer?, if_neg (hne '(' (by decide)), if_neg (hne '[' (by decide))]
      have hordinary : Ordinary c := ⟨hne '\\' (by decide), hslash, hquote, hbracket⟩
      rw [Reader.readFree_ordinary hordinary fun hhead => hc (hawaited (List.mem_of_head? hhead))]
      exact .inl rfl

theorem whole_of_avoids {t : Text} (h : Avoids structural t) : Whole t where
  markFree := fun c hc hmark => h c hc (marks_subset_structural hmark)
  rests := restsIn_run_of_avoids (List.nil_subset _) h (.inl rfl)

theorem whole_ofNat_append (n : Nat) {t : Text} (h : Avoids structural t) :
    Whole (Text.ofNat n ++ t) := by
  have hdigit : ∀ c ∈ Text.ofNat n, c.isDigit = true :=
    fun c hc => Nat.isDigit_of_mem_toDigits (by decide) (by decide) hc
  exact whole_of_avoids (.append (avoids_of_forall (by decide) hdigit) h)

theorem exists_of_isArguments {t : Text} (h : Valid.isArguments t = true) :
    ∃ inner, t = inner ++ [')'] ∧ ∀ c ∈ inner, Valid.isArgumentChar c = true := by
  unfold Valid.isArguments at h
  split at h
  · rename_i r hr
    rw [Bool.and_eq_true] at h
    refine ⟨r.reverse, ?_, fun c hc => List.all_eq_true.mp h.2 c (List.mem_reverse.mp hc)⟩
    rw [← List.reverse_reverse t, hr, List.reverse_cons]
  · exact absurd h Bool.false_ne_true

/-- A colour leaves nothing open: its only brackets are those of a function. -/
theorem whole_of_isColour {t : Text} (h : Valid.isColour t = true) : Whole t := by
  have hmarks : Avoids marks t := avoids_of_forall (p := Valid.isColourChar) (by decide)
    fun c hc => Valid.isColourChar_of_isColour h hc
  unfold Valid.isColour at h
  split at h
  · exact absurd h Bool.false_ne_true
  · rename_i digits
    rw [Bool.and_eq_true] at h
    have hdigits : Avoids structural digits :=
      avoids_of_forall (p := Valid.isHexDigit) (by decide) (List.all_eq_true.mp h.2)
    exact whole_of_avoids (.append (by decide : Avoids structural ['#']) hdigits)
  · rw [Bool.or_eq_true] at h
    rcases h with hname | hcall
    · exact whole_of_avoids
        (avoids_of_forall (p := Char.isAlpha) (by decide) (List.all_eq_true.mp hname))
    · obtain ⟨name, hmem, hargs⟩ := List.any_eq_true.mp hcall
      obtain ⟨args, hafter, hargs⟩ := (Option.any_eq_true _ _).mp hargs
      obtain ⟨inner, rfl, hinner⟩ := exists_of_isArguments hargs
      have hopened : ∀ n ∈ Valid.functionNames, Reader.start.run n = ⟨.free, [')']⟩ := by decide
      have hrests : Reader.RestsIn [')'] (Reader.run ⟨.free, [')']⟩ inner) :=
        restsIn_run_of_avoids (by simp [structural]) (avoids_of_forall (by decide) hinner)
          (.inl rfl)
      refine ⟨hmarks, ?_⟩
      rw [← Text.after?_eq_some_iff.mp hafter, Reader.run_append, hopened name hmem,
        Reader.run_append, Reader.run_cons, hrests.step_eq (by decide)]
      exact .inl rfl

theorem avoids_marks_of_isFont {t : Text} (h : Valid.IsFont t) : Avoids marks t := by
  have hsubset : marks ⊆ Valid.unsafeFontChars := by
    simp [marks, Valid.unsafeFontChars]
  exact fun c hc hmark => h.safe c hc (hsubset hmark)

theorem sound_of {selector : String} {declarations : List (String × Text)}
    (hselector : Rule.IsSelector selector.toList)
    (h : ∀ d ∈ declarations, Rule.IsName d.1 ∧ Whole d.2) : Rule.Sound ⟨selector, declarations⟩ :=
  ⟨hselector, h⟩

theorem isSelector_styleClass {kind : TokenClass} {name : Text}
    (h : kind.styleClass? = some name) : Rule.IsSelector ('.' :: name) := by
  cases kind with
  | plain => exact nomatch h
  | _ =>
    obtain rfl := Option.some.inj h
    decide

theorem sound_tokenRules {p : Palette} (hp : ∀ slot, Valid.isColour (p.get slot) = true)
    {kind : TokenClass} {r : Rule} (hr : r ∈ tokenRules p kind) : r.Sound := by
  unfold tokenRules at hr
  split at hr
  · rename_i name hclass
    obtain rfl := List.mem_singleton.mp hr
    refine sound_of ?_ fun d hd => ?_
    · rw [String.toList_ofList]
      exact isSelector_styleClass hclass
    · rw [List.mem_singleton.mp hd]
      show Rule.IsName "color" ∧ Whole (p.get (Slot.ofClass kind))
      exact ⟨by decide, whole_of_isColour (hp _)⟩
  · exact absurd hr List.not_mem_nil

theorem whole_weight (bold : Bool) : Whole (weight bold) := by
  cases bold <;> decide

theorem whole_slant (italic : Bool) : Whole (slant italic) := by
  cases italic <;> decide

theorem whole_pixels (n : Nat) : Whole (pixels n) := whole_ofNat_append n (by decide)

theorem sound_rules {p : Profile} (hcolours : ∀ slot, Valid.isColour (p.colours.get slot) = true)
    (hcode : Whole p.fonts.code) (hcomment : Whole p.fonts.comment) : ∀ r ∈ rules p, r.Sound := by
  have hcolour : ∀ slot, Whole (p.colours.get slot) := fun slot => whole_of_isColour (hcolours slot)
  have hwidth : Whole (Text.ofNat p.maxWidth ++ "ch".toList) := whole_ofNat_append _ (by decide)
  rw [rules, List.forall_mem_append, List.forall_mem_append]
  refine ⟨⟨?_, fun r hr => ?_⟩, ?_⟩
  · rw [List.forall_mem_cons, List.forall_mem_cons, List.forall_mem_cons, List.forall_mem_singleton]
    refine ⟨sound_of (by decide) ?_, sound_of (by decide) ?_, sound_of (by decide) (by decide),
      sound_of (by decide) (by decide)⟩
    · simp only [List.forall_mem_cons]
      exact ⟨by decide, by decide, ⟨by decide, hcolour .background⟩,
        ⟨by decide, hcolour .foreground⟩, List.forall_mem_nil _⟩
    · simp only [List.forall_mem_cons]
      exact ⟨⟨by decide, hcode⟩, ⟨by decide, whole_pixels _⟩, by decide,
        ⟨by decide, whole_weight _⟩, ⟨by decide, whole_slant _⟩, ⟨by decide, hwidth⟩,
        List.forall_mem_nil _⟩
  · obtain ⟨kind, -, hr⟩ := List.mem_flatMap.mp hr
    exact sound_tokenRules hcolours hr
  · rw [List.forall_mem_cons, List.forall_mem_singleton]
    refine ⟨sound_of (by decide) ?_, sound_of (by decide) ?_⟩
    · simp only [List.forall_mem_cons]
      exact ⟨⟨by decide, whole_weight _⟩, ⟨by decide, whole_slant _⟩, List.forall_mem_nil _⟩
    · simp only [List.forall_mem_cons]
      exact ⟨⟨by decide, hcomment⟩, ⟨by decide, whole_pixels _⟩, List.forall_mem_nil _⟩

theorem closed_of_pieces_ofProfile {p : Profile}
    (h : pieces (ofProfile p) = written [] (rules p)) {r : Rule} (hr : r ∈ rules p) {font : Text}
    (hfont : ("font-family", font) ∈ r.declarations) : Closed none font := by
  have hname : Rule.IsName "font-family" := by decide
  have hmem := mem_dropLast_written hr hfont []
  rw [← h] at hmem
  obtain ⟨a, c, heq, hrests⟩ := exists_rests_of_mem_pieces hmem
  obtain rfl := (List.append_inj' heq rfl).1
  rw [Rule.declarationText, Reader.run_append, hname.2] at hrests
  exact closed_iff_restsIn.mpr hrests

theorem pieces_ofProfile_iff {p : Profile} (h : p.IsValid) :
    pieces (ofProfile p) = written [] (rules p) ↔
      Closed none p.fonts.code ∧ Closed none p.fonts.comment := by
  constructor
  · intro hpieces
    have hcode : Closed none p.fonts.code := closed_of_pieces_ofProfile hpieces
      (List.mem_append_left _ (List.mem_append_left _ (List.mem_cons_of_mem _ List.mem_cons_self)))
      List.mem_cons_self
    have hcomment : Closed none p.fonts.comment := closed_of_pieces_ofProfile hpieces
      (List.mem_append_right _ (List.mem_cons_of_mem _ List.mem_cons_self)) List.mem_cons_self
    exact ⟨hcode, hcomment⟩
  · rintro ⟨hcode, hcomment⟩
    have hsound := sound_rules h.colours
      ⟨avoids_marks_of_isFont h.codeFont, closed_iff_restsIn.mp hcode⟩
      ⟨avoids_marks_of_isFont h.commentFont, closed_iff_restsIn.mp hcomment⟩
    rw [← flatMap_text_rules]
    exact pieces_rules hsound [] (.inl rfl)

/-- A font list that is taken holds no mark itself, and leaves a reader outside of everything
exactly if it is closed.  The semicolons and braces of a style sheet end what they were
written to end exactly if both of its font lists are. -/
theorem font_ends_iff_closed {p : Profile} (h : p.IsValid) :
    (∀ t font, Valid.font? t = some font →
      Avoids marks font ∧ (Reader.RestsIn [] (Reader.start.run font) ↔ Closed none font)) ∧
    (pieces (ofProfile p) = written [] (rules p) ↔
      Closed none p.fonts.code ∧ Closed none p.fonts.comment) := by
  refine ⟨fun t font hfont => ⟨?_, closed_iff_restsIn.symm⟩, pieces_ofProfile_iff h⟩
  exact avoids_marks_of_isFont (Valid.isFont_of_font? hfont)

theorem font_ends_standard :
    Profile.standard.IsValid ∧
      pieces (ofProfile Profile.standard) = written [] (rules Profile.standard) :=
  ⟨Profile.isValid_standard,
    (font_ends_iff_closed Profile.isValid_standard).2.mpr (by decide +kernel)⟩

/-- The standard profile with another font list for code, where the list is taken. -/
def withCodeFont (t : Text) : Profile :=
  ({ fonts := ⟨none, some t⟩ } : Overrides).apply Profile.standard

theorem pieces_withCodeFont_ne {t : Text} (htaken : Valid.font? t = some t)
    (hopen : ¬ Reader.RestsIn [] (Reader.start.run t)) :
    pieces (ofProfile (withCodeFont t)) ≠ written [] (rules (withCodeFont t)) := by
  intro hpieces
  have hvalid : (withCodeFont t).IsValid := Overrides.isValid_apply _ Profile.isValid_standard
  have hfont : (withCodeFont t).fonts.code = t := by
    show (Valid.font? t).getD Profile.standard.fonts.code = t
    rw [htaken, Option.getD_some]
  have hclosed := ((pieces_ofProfile_iff hvalid).mp hpieces).1
  rw [hfont] at hclosed
  exact hopen (closed_iff_restsIn.mp hclosed)

/-- A comment that leads out of its font list and takes the rest of the style sheet along.  A
quote, a bracket and a backslash lead out of theirs as well. -/
theorem open_fonts_are_taken :
    Valid.font? "Georgia, /* serif".toList = some "Georgia, /* serif".toList ∧
      ¬ Reader.RestsIn [] (Reader.start.run "Georgia, /* serif".toList) ∧
      pieces (ofProfile (withCodeFont "Georgia, /* serif".toList)) ≠
        written [] (rules (withCodeFont "Georgia, /* serif".toList)) ∧
      ∀ t ∈ ["Menlo, 'DejaVu Sans Mono".toList, "var(--font".toList, "serif\\".toList],
        Valid.font? t = some t ∧ ¬ Reader.RestsIn [] (Reader.start.run t) := by
  have htaken : Valid.font? "Georgia, /* serif".toList = some "Georgia, /* serif".toList := by
    decide +kernel
  have hopen : ¬ Reader.RestsIn [] (Reader.start.run "Georgia, /* serif".toList) := by
    decide +kernel
  exact ⟨htaken, hopen, pieces_withCodeFont_ne htaken hopen, by decide +kernel⟩

end Stylesheet
end Listing
