/-
Style values that leave nothing open.

A mark such as a semicolon ends a part of a style sheet unless it stands in a string, in a
comment or in brackets, or behind a backslash.  `Reader` goes through a text character by
character and knows what it is inside of.  `Closed` says of a text by itself that it closes
what it opens, one constructor for each thing that can be opened.  The two agree
(`closed_iff_restsIn`): where a reader ends up outside of everything, each opening has met
its end.

A string also ends with its line, as it does for every reader of style sheets, and a closing
bracket that nothing has opened is an ordinary character.
-/
import Listing.Text.Basic
import Mathlib.Data.List.Infix

namespace Listing
namespace Stylesheet

/-! ## Readers -/

/-- What a reader is inside of, brackets aside. -/
inductive Mode where
  | free
  /-- Behind a slash, which a star makes the start of a comment. -/
  | slash
  /-- Behind a backslash. -/
  | escaped
  | quoted (quote : Char)
  | quotedEscape (quote : Char)
  | comment
  /-- Behind a star in a comment. -/
  | commentStar
deriving DecidableEq

structure Reader where
  mode : Mode
  /-- The closing brackets that are still to come, the innermost first. -/
  awaited : List Char
deriving DecidableEq

def isQuote (c : Char) : Bool := c == '"' || c == '\''

def endsLine (c : Char) : Bool := c == '\n' || c == '\r' || c == '\x0c'

/-- The bracket that closes an opening one. -/
def closer? (c : Char) : Option Char :=
  if c = '(' then some ')' else if c = '[' then some ']' else none

namespace Reader

def start : Reader := ⟨.free, []⟩

/-- Reads a character outside of strings and comments. -/
def readFree (awaited : List Char) (c : Char) : Reader :=
  if c = '\\' then ⟨.escaped, awaited⟩
  else if c = '/' then ⟨.slash, awaited⟩
  else if isQuote c then ⟨.quoted c, awaited⟩
  else match closer? c with
    | some close => ⟨.free, close :: awaited⟩
    | none => ⟨.free, if awaited.head? = some c then awaited.tail else awaited⟩

def step (s : Reader) (c : Char) : Reader :=
  match s.mode with
  | .free => readFree s.awaited c
  | .slash => if c = '*' then ⟨.comment, s.awaited⟩ else readFree s.awaited c
  | .escaped => ⟨.free, s.awaited⟩
  | .quoted quote =>
    if c = '\\' then ⟨.quotedEscape quote, s.awaited⟩
    else if c = quote || endsLine c then ⟨.free, s.awaited⟩
    else s
  | .quotedEscape quote => ⟨.quoted quote, s.awaited⟩
  | .comment => if c = '*' then ⟨.commentStar, s.awaited⟩ else s
  | .commentStar =>
    if c = '/' then ⟨.free, s.awaited⟩
    else if c = '*' then s
    else ⟨.comment, s.awaited⟩

def run (s : Reader) (t : Text) : Reader := t.foldl step s

theorem run_cons (s : Reader) (c : Char) (t : Text) : s.run (c :: t) = (s.step c).run t := rfl

theorem run_append (s : Reader) (a b : Text) : s.run (a ++ b) = (s.run a).run b :=
  List.foldl_append

/-- The reader is outside of everything but these brackets.  A slash that it has just met
starts nothing yet. -/
def RestsIn (awaited : List Char) (s : Reader) : Prop :=
  s = ⟨.free, awaited⟩ ∨ s = ⟨.slash, awaited⟩

instance (awaited : List Char) (s : Reader) : Decidable (RestsIn awaited s) :=
  inferInstanceAs (Decidable (_ ∨ _))

theorem RestsIn.step_eq {awaited : List Char} {s : Reader} (h : RestsIn awaited s) {c : Char}
    (hc : c ≠ '*') : s.step c = readFree awaited c := by
  obtain rfl | rfl := h
  · rfl
  · exact if_neg hc

end Reader

/-! ## Closed texts -/

/-- A character that opens nothing. -/
structure Ordinary (c : Char) : Prop where
  not_escape : c ≠ '\\'
  not_slash : c ≠ '/'
  not_quote : isQuote c = false
  not_bracket : closer? c = none

/-- The inside of a string: a backslash takes the character after it along. -/
inductive InString (quote : Char) : Text → Prop
  | nil : InString quote []
  | char {c : Char} {t : Text} (hescape : c ≠ '\\') (hquote : c ≠ quote)
      (hline : endsLine c = false) (ht : InString quote t) : InString quote (c :: t)
  | escaped {t : Text} (c : Char) (ht : InString quote t) : InString quote ('\\' :: c :: t)

/-- Strings, comments and brackets end in the text that they start in, and no backslash
ends it.  The text stands in front of the bracket `closer`, if there is one, and so does
not close it itself. -/
inductive Closed : Option Char → Text → Prop
  | nil {closer : Option Char} : Closed closer []
  | char {closer : Option Char} {c : Char} {t : Text} (hc : Ordinary c)
      (hcloser : closer ≠ some c) (ht : Closed closer t) : Closed closer (c :: t)
  | slash {closer : Option Char} {t : Text} (hstar : t.head? ≠ some '*')
      (ht : Closed closer t) : Closed closer ('/' :: t)
  | escape {closer : Option Char} {t : Text} (c : Char) (ht : Closed closer t) :
      Closed closer ('\\' :: c :: t)
  | string {closer : Option Char} {quote stop : Char} {inner t : Text}
      (hquote : isQuote quote = true) (hinner : InString quote inner)
      (hstop : stop = quote ∨ endsLine stop = true) (ht : Closed closer t) :
      Closed closer (quote :: (inner ++ stop :: t))
  | comment {closer : Option Char} {inner t : Text} (hinner : ¬ ['*', '/'] <:+: inner)
      (ht : Closed closer t) : Closed closer ('/' :: '*' :: (inner ++ '*' :: '/' :: t))
  | bracket {closer : Option Char} {opening close : Char} {inner t : Text}
      (hopening : closer? opening = some close) (hinner : Closed (some close) inner)
      (ht : Closed closer t) : Closed closer (opening :: (inner ++ close :: t))

theorem closer?_eq_some_iff {c d : Char} :
    closer? c = some d ↔ c = '(' ∧ d = ')' ∨ c = '[' ∧ d = ']' := by
  unfold closer?
  by_cases hround : c = '('
  · subst hround
    simp [eq_comm]
  · by_cases hsquare : c = '['
    · subst hsquare
      simp [eq_comm]
    · simp [hround, hsquare]

namespace Reader

variable {awaited : List Char}

theorem readFree_ordinary {c : Char} (hc : Ordinary c) (hawaited : awaited.head? ≠ some c) :
    readFree awaited c = ⟨.free, awaited⟩ := by
  rw [readFree, if_neg hc.not_escape, if_neg hc.not_slash, hc.not_quote, hc.not_bracket,
    if_neg Bool.false_ne_true]
  show Reader.mk .free (if awaited.head? = some c then _ else _) = _
  rw [if_neg hawaited]

theorem readFree_opening {c close : Char} (h : closer? c = some close) :
    readFree awaited c = ⟨.free, close :: awaited⟩ := by
  obtain ⟨rfl, rfl⟩ | ⟨rfl, rfl⟩ := closer?_eq_some_iff.mp h <;> rfl

theorem readFree_closing {c close : Char} (h : closer? c = some close) :
    readFree (close :: awaited) close = ⟨.free, awaited⟩ := by
  obtain ⟨rfl, rfl⟩ | ⟨rfl, rfl⟩ := closer?_eq_some_iff.mp h <;> rfl

theorem readFree_quote {quote : Char} (h : isQuote quote = true) :
    readFree awaited quote = ⟨.quoted quote, awaited⟩ := by
  rw [isQuote, Bool.or_eq_true, beq_iff_eq, beq_iff_eq] at h
  obtain rfl | rfl := h <;> rfl

/-! ### What is open is passed over -/

theorem run_inString {quote : Char} {inner : Text} (h : InString quote inner) :
    run ⟨.quoted quote, awaited⟩ inner = ⟨.quoted quote, awaited⟩ := by
  induction h with
  | nil => rfl
  | @char c t hescape hquote hline _ ih =>
    have hstep : step ⟨.quoted quote, awaited⟩ c = ⟨.quoted quote, awaited⟩ := by
      simp [step, hescape, hquote, hline]
    rw [run_cons, hstep, ih]
  | escaped c _ ih => exact ih

/-- A slash alone starts nothing. -/
theorem restsIn_run_slash {outer : List Char} {t : Text} (hstar : t.head? ≠ some '*') :
    RestsIn outer (run ⟨.slash, awaited⟩ t) ↔ RestsIn outer (run ⟨.free, awaited⟩ t) := by
  cases t with
  | nil => simp [run, RestsIn]
  | cons c t =>
    have hrests : RestsIn awaited ⟨.slash, awaited⟩ := .inr rfl
    have hc : c ≠ '*' := fun heq => hstar (congrArg some heq)
    rw [run_cons, hrests.step_eq hc]
    rfl

theorem step_stringEnd {quote stop : Char} (hquote : isQuote quote = true)
    (h : stop = quote ∨ endsLine stop = true) :
    step ⟨.quoted quote, awaited⟩ stop = ⟨.free, awaited⟩ := by
  have hescape : stop ≠ '\\' := by
    rintro rfl
    obtain rfl | hline := h
    · exact absurd hquote (by decide)
    · exact absurd hline (by decide)
  obtain rfl | hline := h
  · simp [step, hescape]
  · simp [step, hescape, hline]

/-- A star that was just met in the comment is part of what must not hold the end of it. -/
theorem run_inComment (inner t : Text) :
    (¬ ['*', '/'] <:+: inner →
      run ⟨.comment, awaited⟩ (inner ++ '*' :: '/' :: t) = run ⟨.free, awaited⟩ t) ∧
    (¬ ['*', '/'] <:+: '*' :: inner →
      run ⟨.commentStar, awaited⟩ (inner ++ '*' :: '/' :: t) = run ⟨.free, awaited⟩ t) := by
  induction inner with
  | nil => exact ⟨fun _ => rfl, fun _ => rfl⟩
  | cons c inner ih =>
    refine ⟨fun h => ?_, fun h => ?_⟩
    · rw [List.cons_append, run_cons]
      by_cases hstar : c = '*'
      · subst hstar
        exact ih.2 h
      · have hstep : step ⟨.comment, awaited⟩ c = ⟨.comment, awaited⟩ := if_neg hstar
        rw [hstep]
        exact ih.1 fun hinfix => h (List.infix_cons hinfix)
    · rw [List.cons_append, run_cons]
      have hslash : c ≠ '/' := by
        rintro rfl
        exact h ⟨[], inner, rfl⟩
      by_cases hstar : c = '*'
      · subst hstar
        exact ih.2 fun hinfix => h (List.infix_cons hinfix)
      · have hstep : step ⟨.commentStar, awaited⟩ c = ⟨.comment, awaited⟩ := by
          simp [step, hslash, hstar]
        rw [hstep]
        exact ih.1 fun hinfix => h (List.infix_cons (List.infix_cons hinfix))

/-- A reader is back where it was behind a text that closes what it opens. -/
theorem restsIn_run {closer : Option Char} {t : Text} (h : Closed closer t) :
    ∀ awaited : List Char, awaited.head? = closer →
      RestsIn awaited (run ⟨.free, awaited⟩ t) := by
  induction h with
  | nil => exact fun awaited _ => .inl rfl
  | char hc hcloser _ ih =>
    intro awaited hawaited
    have hstep := readFree_ordinary hc (hawaited ▸ hcloser)
    rw [run_cons, step, hstep]
    exact ih awaited hawaited
  | @slash closer t hstar _ ih =>
    intro awaited hawaited
    exact (restsIn_run_slash hstar).mpr (ih awaited hawaited)
  | escape c _ ih => exact ih
  | string hquote hinner hstop _ ih =>
    intro awaited hawaited
    rw [run_cons, step, readFree_quote hquote, run_append, run_inString hinner, run_cons,
      step_stringEnd hquote hstop]
    exact ih awaited hawaited
  | @comment closer inner t hinner _ ih =>
    intro awaited hawaited
    show RestsIn awaited (run ⟨.comment, awaited⟩ (inner ++ '*' :: '/' :: t))
    rw [(run_inComment inner t).1 hinner]
    exact ih awaited hawaited
  | @bracket closer opening close inner t hopening _ _ ihinner ih =>
    intro awaited hawaited
    have hclose : close ≠ '*' := by
      obtain ⟨-, rfl⟩ | ⟨-, rfl⟩ := closer?_eq_some_iff.mp hopening <;> decide
    rw [run_cons, step, readFree_opening hopening, run_append, run_cons,
      (ihinner (close :: awaited) rfl).step_eq hclose, readFree_closing hopening]
    exact ih awaited hawaited

/-! ### What is closed can be found -/

theorem exists_stringEnd {quote : Char} {outer : List Char} (t : Text) :
    (RestsIn outer (run ⟨.quoted quote, awaited⟩ t) →
      ∃ inner stop r, t = inner ++ stop :: r ∧ InString quote inner ∧
        (stop = quote ∨ endsLine stop = true)) ∧
    (RestsIn outer (run ⟨.quotedEscape quote, awaited⟩ t) →
      ∃ inner stop r, '\\' :: t = inner ++ stop :: r ∧ InString quote inner ∧
        (stop = quote ∨ endsLine stop = true)) := by
  induction t with
  | nil =>
    constructor
    · rintro (h | h) <;> exact nomatch h
    · rintro (h | h) <;> exact nomatch h
  | cons c t ih =>
    constructor
    · intro h
      rw [run_cons] at h
      by_cases hescape : c = '\\'
      · subst hescape
        exact ih.2 h
      · by_cases hstop : c = quote ∨ endsLine c = true
        · exact ⟨[], c, t, rfl, .nil, hstop⟩
        · rw [not_or, Bool.not_eq_true] at hstop
          have hstep : step ⟨.quoted quote, awaited⟩ c = ⟨.quoted quote, awaited⟩ := by
            simp [step, hescape, hstop]
          rw [hstep] at h
          obtain ⟨inner, stop, r, rfl, hinner, hend⟩ := ih.1 h
          exact ⟨c :: inner, stop, r, rfl, .char hescape hstop.1 hstop.2 hinner, hend⟩
    · intro h
      obtain ⟨inner, stop, r, rfl, hinner, hend⟩ := ih.1 h
      exact ⟨'\\' :: c :: inner, stop, r, rfl, .escaped c hinner, hend⟩

theorem exists_commentEnd {outer : List Char} (t : Text) :
    (RestsIn outer (run ⟨.comment, awaited⟩ t) →
      ∃ inner r, t = inner ++ '*' :: '/' :: r ∧ ¬ ['*', '/'] <:+: inner) ∧
    (RestsIn outer (run ⟨.commentStar, awaited⟩ t) →
      ∃ inner r, '*' :: t = inner ++ '*' :: '/' :: r ∧ ¬ ['*', '/'] <:+: inner) := by
  induction t with
  | nil =>
    constructor
    · rintro (h | h) <;> exact nomatch h
    · rintro (h | h) <;> exact nomatch h
  | cons c t ih =>
    constructor
    · intro h
      rw [run_cons] at h
      by_cases hstar : c = '*'
      · subst hstar
        exact ih.2 h
      · have hstep : step ⟨.comment, awaited⟩ c = ⟨.comment, awaited⟩ := if_neg hstar
        rw [hstep] at h
        obtain ⟨inner, r, rfl, hinner⟩ := ih.1 h
        refine ⟨c :: inner, r, rfl, ?_⟩
        rw [List.infix_cons_iff, not_or]
        exact ⟨fun hstart => hstar (List.cons_prefix_cons.mp hstart).1.symm, hinner⟩
    · intro h
      rw [run_cons] at h
      by_cases hslash : c = '/'
      · subst hslash
        exact ⟨[], t, rfl, by simp⟩
      · by_cases hstar : c = '*'
        · subst hstar
          obtain ⟨inner, r, hinner, hnone⟩ := ih.2 h
          refine ⟨'*' :: inner, r, by rw [hinner]; rfl, ?_⟩
          rw [List.infix_cons_iff, not_or]
          refine ⟨fun hstart => ?_, hnone⟩
          -- The second star stands where the slash would have to be.
          obtain ⟨more, rfl⟩ := (List.cons_prefix_cons.mp hstart).2
          exact absurd (List.cons_eq_cons.mp hinner).1 (by decide)
        · have hstep : step ⟨.commentStar, awaited⟩ c = ⟨.comment, awaited⟩ := by
            simp [step, hslash, hstar]
          rw [hstep] at h
          obtain ⟨inner, r, rfl, hinner⟩ := ih.1 h
          refine ⟨'*' :: c :: inner, r, rfl, ?_⟩
          rw [List.infix_cons_iff, List.infix_cons_iff, not_or, not_or]
          refine ⟨fun hstart => ?_, fun hstart => ?_, hinner⟩
          · exact hslash (List.cons_prefix_cons.mp (List.cons_prefix_cons.mp hstart).2).1.symm
          · exact hstar (List.cons_prefix_cons.mp hstart).1.symm

theorem exists_rest_of_quoted {quote : Char} (hquote : isQuote quote = true)
    {outer : List Char} {t : Text} (h : RestsIn outer (run ⟨.quoted quote, awaited⟩ t)) :
    ∃ inner stop r, t = inner ++ stop :: r ∧ InString quote inner ∧
      (stop = quote ∨ endsLine stop = true) ∧ RestsIn outer (run ⟨.free, awaited⟩ r) := by
  obtain ⟨inner, stop, r, rfl, hinner, hstop⟩ := (exists_stringEnd t).1 h
  rw [run_append, run_inString hinner, run_cons, step_stringEnd hquote hstop] at h
  exact ⟨inner, stop, r, rfl, hinner, hstop, h⟩

theorem exists_rest_of_comment {outer : List Char} {t : Text}
    (h : RestsIn outer (run ⟨.comment, awaited⟩ t)) :
    ∃ inner r, t = inner ++ '*' :: '/' :: r ∧ ¬ ['*', '/'] <:+: inner ∧
      RestsIn outer (run ⟨.free, awaited⟩ r) := by
  obtain ⟨inner, r, rfl, hinner⟩ := (exists_commentEnd t).1 h
  rw [(run_inComment inner r).1 hinner] at h
  exact ⟨inner, r, rfl, hinner, h⟩

end Reader

/-- Each of the brackets `awaited` is met in turn, with a closed text in front of each of
them and behind the last. -/
def ClosedBehind : List Char → Text → Prop
  | [], t => Closed none t
  | close :: outer, t => ∃ inner r, t = inner ++ close :: r ∧ Closed (some close) inner ∧
      ClosedBehind outer r

namespace ClosedBehind

variable {awaited : List Char} {t : Text}

/-- What can be put in front of a closed text can be put in front of the first of several. -/
theorem append (front : Text) (h : ClosedBehind awaited t)
    (hfront : ∀ a b, t = a ++ b → Closed awaited.head? a → Closed awaited.head? (front ++ a)) :
    ClosedBehind awaited (front ++ t) := by
  cases awaited with
  | nil => exact hfront t [] (List.append_nil t).symm h
  | cons close outer =>
    obtain ⟨inner, r, rfl, hinner, hr⟩ := h
    exact ⟨front ++ inner, r, (List.append_assoc front inner _).symm,
      hfront inner (close :: r) rfl hinner, hr⟩

theorem char {c : Char} (hc : Ordinary c) (hawaited : awaited.head? ≠ some c)
    (h : ClosedBehind awaited t) : ClosedBehind awaited (c :: t) :=
  h.append [c] fun _ _ _ ha => .char hc hawaited ha

theorem slash (hstar : t.head? ≠ some '*') (h : ClosedBehind awaited t) :
    ClosedBehind awaited ('/' :: t) := by
  refine h.append ['/'] fun a b hab ha => .slash (fun hhead : a.head? = some '*' => hstar ?_) ha
  rw [hab, List.head?_append, hhead]
  rfl

theorem escape (c : Char) (h : ClosedBehind awaited t) : ClosedBehind awaited ('\\' :: c :: t) :=
  h.append ['\\', c] fun _ _ _ ha => .escape c ha

theorem string {quote stop : Char} {inner : Text} (hquote : isQuote quote = true)
    (hinner : InString quote inner) (hstop : stop = quote ∨ endsLine stop = true)
    (h : ClosedBehind awaited t) : ClosedBehind awaited (quote :: (inner ++ stop :: t)) := by
  have happ := h.append (quote :: (inner ++ [stop]))
    fun a b _ ha => by simpa using Closed.string hquote hinner hstop ha
  simpa using happ

theorem comment {inner : Text} (hinner : ¬ ['*', '/'] <:+: inner) (h : ClosedBehind awaited t) :
    ClosedBehind awaited ('/' :: '*' :: (inner ++ '*' :: '/' :: t)) := by
  have happ := h.append ('/' :: '*' :: (inner ++ ['*', '/']))
    fun a b _ ha => by simpa using Closed.comment hinner ha
  simpa using happ

theorem bracket {opening close : Char} (hopening : closer? opening = some close)
    (h : ClosedBehind (close :: awaited) t) : ClosedBehind awaited (opening :: t) := by
  obtain ⟨inner, r, rfl, hinner, hr⟩ := h
  have happ := hr.append (opening :: (inner ++ [close]))
    fun a b _ ha => by simpa using Closed.bracket hopening hinner ha
  simpa using happ

end ClosedBehind

/-- A text that leads a reader out of the brackets it is in closes them, and everything that
it opens. -/
theorem closedBehind_of_restsIn {t : Text} {awaited : List Char}
    (h : Reader.RestsIn [] (Reader.run ⟨.free, awaited⟩ t)) : ClosedBehind awaited t := by
  induction hn : t.length using Nat.strongRecOn generalizing t awaited with
  | _ n ih =>
    cases t with
    | nil =>
      obtain h | h := h
      · obtain rfl := (Reader.mk.inj h).2
        exact Closed.nil
      · exact nomatch h
    | cons c r =>
      have ih : ∀ (r' : Text) (outer : List Char), r'.length ≤ r.length →
          Reader.RestsIn [] (Reader.run ⟨.free, outer⟩ r') → ClosedBehind outer r' :=
        fun r' outer hlength h' =>
          ih r'.length (by rw [← hn]; exact Nat.lt_succ_of_le hlength) h' rfl
      rw [Reader.run_cons, Reader.step] at h
      -- The cases are those of `Reader.readFree`, in its order.
      by_cases hescape : c = '\\'
      · subst hescape
        cases r with
        | nil => obtain h | h := h <;> exact nomatch h
        | cons d r => exact (ih r awaited (Nat.le_succ _) h).escape d
      by_cases hslash : c = '/'
      · subst hslash
        by_cases hstar : r.head? = some '*'
        · obtain ⟨r, rfl⟩ := List.head?_eq_some_iff.mp hstar
          obtain ⟨inner, r, rfl, hinner, h⟩ := Reader.exists_rest_of_comment h
          exact (ih r awaited (by simp; omega) h).comment hinner
        · exact (ih r awaited (Nat.le_refl _) ((Reader.restsIn_run_slash hstar).mp h)).slash hstar
      by_cases hquote : isQuote c = true
      · rw [Reader.readFree_quote hquote] at h
        obtain ⟨inner, stop, r, rfl, hinner, hstop, h⟩ := Reader.exists_rest_of_quoted hquote h
        exact (ih r awaited (by simp; omega) h).string hquote hinner hstop
      cases hclose : closer? c with
      | some close =>
        rw [Reader.readFree_opening hclose] at h
        exact (ih r (close :: awaited) (Nat.le_refl _) h).bracket hclose
      | none =>
        have hc : Ordinary c := ⟨hescape, hslash, Bool.eq_false_iff.mpr hquote, hclose⟩
        by_cases hawaited : awaited.head? = some c
        · obtain ⟨outer, rfl⟩ := List.head?_eq_some_iff.mp hawaited
          have hstep : Reader.readFree (c :: outer) c = ⟨.free, outer⟩ := by
            simp [Reader.readFree, hescape, hslash, hc.not_quote, hclose]
          rw [hstep] at h
          exact ⟨[], r, rfl, .nil, ih r outer (Nat.le_refl _) h⟩
        · rw [Reader.readFree_ordinary hc hawaited] at h
          exact (ih r awaited (Nat.le_refl _) h).char hc hawaited

/-- A reader that starts on a text is outside of everything behind it exactly if the text is
closed. -/
theorem closed_iff_restsIn {t : Text} : Closed none t ↔ Reader.RestsIn [] (Reader.start.run t) :=
  ⟨fun h => Reader.restsIn_run h [] rfl, fun h => closedBehind_of_restsIn h⟩

instance (t : Text) : Decidable (Closed none t) := decidable_of_iff' _ closed_iff_restsIn

end Stylesheet
end Listing
