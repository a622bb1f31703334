/-
Texts and keys read back from the form they are written in.

A character is written by an escape or as it stands, and reading either gives the
character (`tomlChar_cases`).  In a string over several lines quotes may stand by
themselves as long as there are fewer than three of them, and up to two may stand right
before the closing ones, so runs of quotes are read as a whole (`quoteRun_inside`,
`quoteRun_closing`).
-/
import Listing.Proofs.Json.Strings
import Listing.Toml.Reader

namespace Listing
namespace Toml

open Outline (isControl tomlChar)

/-! ## Characters -/

/-- Only a line feed can be neither a control character nor plain. -/
theorem isPlain_of_isControl {c : Char} (h : isControl c = false) (hfeed : c ≠ '\n') :
    isPlain c = true := by
  by_cases htab : c = '\t'
  · rw [htab]
    rfl
  · simp only [isControl, Bool.or_eq_false_iff, Bool.and_eq_false_iff, decide_eq_false_iff_not,
      bne_eq_false_iff_eq, beq_eq_false_iff_ne, htab, hfeed, or_false] at h
    simp only [isPlain, Bool.or_eq_true, Bool.and_eq_true, decide_eq_true_eq, bne_iff_ne]
    exact .inr ⟨by omega, h.2⟩

theorem toNat_lt_of_isControl {c : Char} (h : isControl c = true) : c.toNat < 128 := by
  simp only [isControl, Bool.or_eq_true, Bool.and_eq_true, decide_eq_true_eq, beq_iff_eq] at h
  omega

/-- Two hexadecimal digits in capitals give back the code that they were made from. -/
theorem hexDigit?_hex {n : Nat} (h : n < 128) :
    ((if n < 16 then ['0'] else []) ++ (Text.hex n).map Char.toUpper).map Json.hexDigit? =
      [some (n / 16), some (n % 16)] := by
  have hall : ∀ n < 128,
      ((if n < 16 then ['0'] else []) ++ (Text.hex n).map Char.toUpper).map Json.hexDigit? =
        [some (n / 16), some (n % 16)] := by decide
  exact hall n h

theorem codePoint?_hex {c : Char} (h : isControl c = true) (t : Text) :
    codePoint? 4 ('0' :: '0' :: ((if c.toNat < 16 then ['0'] else [])
      ++ (Text.hex c.toNat).map Char.toUpper) ++ t) = some (c, t) := by
  have hcode : 16 * (c.toNat / 16) + c.toNat % 16 = c.toNat := by omega
  have hvalid : c.toNat.isValidChar := c.valid
  rw [codePoint?, Json.hexDigits?_pair (hexDigit?_hex (toNat_lt_of_isControl h)), hcode]
  simp only [hvalid, if_true, Char.ofNat_toNat]

/-- What is not written by an escape is written as it stands. -/
theorem tomlChar_cases (long : Bool) (c : Char) :
    (∃ e, tomlChar long c = '\\' :: e ∧ (∀ t, newline? (skipSpace (e ++ t)) = none) ∧
        ∀ t, escape? (e ++ t) = some (c, t)) ∨
      tomlChar long c = [c] ∧ c ≠ '\\' ∧ (isPlain c = true ∨ long = true ∧ c = '\n') := by
  unfold tomlChar
  split
  · subst_vars
    exact .inl ⟨['t'], rfl, fun t => rfl, fun t => rfl⟩
  split
  · subst_vars
    cases long with
    | true => exact .inr ⟨rfl, by decide, .inr ⟨rfl, rfl⟩⟩
    | false => exact .inl ⟨['n'], rfl, fun t => rfl, fun t => rfl⟩
  split
  · subst_vars
    exact .inl ⟨['r'], rfl, fun t => rfl, fun t => rfl⟩
  split
  · subst_vars
    exact .inl ⟨['b'], rfl, fun t => rfl, fun t => rfl⟩
  split
  · subst_vars
    exact .inl ⟨['f'], rfl, fun t => rfl, fun t => rfl⟩
  split
  · subst_vars
    exact .inl ⟨['\\'], rfl, fun t => rfl, fun t => rfl⟩
  split
  · rename_i hcontrol
    exact .inl ⟨'u' :: '0' :: '0' :: ((if c.toNat < 16 then ['0'] else [])
      ++ (Text.hex c.toNat).map Char.toUpper), by simp, fun t => rfl, codePoint?_hex hcontrol⟩
  · rename_i hfeed _ _ _ hslash hcontrol
    exact .inr ⟨rfl, hslash, .inl (isPlain_of_isControl (by simpa using hcontrol) hfeed)⟩

/-! ## Strings on one line -/

theorem basicBody?_escape {e : Text} {c : Char} {t : Text} (h : escape? (e ++ t) = some (c, t))
    (fuel : Nat) :
    basicBody? (fuel + 1) ('\\' :: e ++ t) =
      (basicBody? fuel t).map fun (body, rest) => (c :: body, rest) := by
  rw [List.cons_append, basicBody?]
  simp [h]

theorem basicBody?_basicBody (t rest : Text) {fuel : Nat} (hfuel : t.length < fuel) :
    basicBody? fuel (Outline.basicBody t ++ '"' :: rest) = some (t, rest) := by
  induction t generalizing fuel with
  | nil =>
    obtain ⟨fuel, rfl⟩ := Nat.exists_eq_succ_of_ne_zero (Nat.ne_of_gt hfuel)
    rfl
  | cons c t ih =>
    obtain ⟨fuel, rfl⟩ := Nat.exists_eq_succ_of_ne_zero (Nat.ne_of_gt (Nat.zero_lt_of_lt hfuel))
    have hrest := ih (Nat.lt_of_succ_lt_succ hfuel)
    have hcons : Outline.basicBody (c :: t) ++ '"' :: rest =
        (if c = '"' then "\\\"".toList else tomlChar false c) ++
          (Outline.basicBody t ++ '"' :: rest) := by
      simp [Outline.basicBody]
    rw [hcons]
    split
    · subst_vars
      rw [Nat.succ_eq_add_one]
      show basicBody? (fuel + 1) ('\\' :: ['"'] ++ _) = _
      rw [basicBody?_escape rfl, hrest]
      rfl
    · rename_i hquote
      obtain ⟨e, he, -, hescape⟩ | ⟨he, hslash, hplain⟩ := tomlChar_cases false c
      · rw [he, basicBody?_escape (hescape _), hrest]
        rfl
      · have hplain : isPlain c = true := hplain.resolve_right (by simp)
        rw [he, List.singleton_append, basicBody?]
        simp [hquote, hslash, hplain, hrest]

theorem literalBody?_append {t : Text} (h : ∀ c ∈ t, isPlain c = true ∧ c ≠ '\'') (rest : Text) :
    literalBody? (t ++ '\'' :: rest) = some (t, rest) := by
  have hall : ∀ c ∈ t, (isPlain c && c != '\'') = true := by
    intro c hc
    rw [Bool.and_eq_true, bne_iff_ne]
    exact h c hc
  unfold literalBody?
  rw [List.takeWhile_append_of_pos hall, List.dropWhile_append_of_pos hall]
  simp

/-! ## Strings over several lines -/

theorem takeWhile_quotes (quote : Char) (k : Nat) {rest : Text}
    (hrest : rest.head? ≠ some quote) :
    (List.replicate k quote ++ rest).takeWhile (· == quote) = List.replicate k quote := by
  have hquotes : ∀ c ∈ List.replicate k quote, (c == quote) = true := by
    intro c hc
    rw [List.eq_of_mem_replicate hc, beq_self_eq_true]
  rw [List.takeWhile_append_of_pos hquotes]
  cases rest with
  | nil => simp
  | cons c r =>
    have hne : c ≠ quote := fun h => hrest (by rw [h]; rfl)
    rw [List.takeWhile_cons_of_neg (by simpa using hne), List.append_nil]

theorem quoteRun_inside {quote : Char} {k : Nat} (hk : k < 3) {rest : Text}
    (hrest : rest.head? ≠ some quote) :
    quoteRun quote (List.replicate k quote ++ rest) = (List.replicate k quote, none) := by
  unfold quoteRun
  simp only [takeWhile_quotes quote k hrest, List.length_replicate]
  rw [if_pos (by omega)]

/-- Up to two quotes stand right before the three that close a string. -/
theorem quoteRun_closing {quote : Char} {k : Nat} (hk : k < 3) {rest : Text}
    (hrest : rest.head? ≠ some quote) :
    quoteRun quote (List.replicate k quote ++ List.replicate 3 quote ++ rest) =
      (List.replicate k quote, some rest) := by
  have hmin : min (k + 3) 5 = k + 3 := by omega
  have hdrop : (List.replicate (k + 3) quote ++ rest).drop (k + 3) = rest := by
    rw [List.drop_append_of_le_length (by simp), List.drop_of_length_le (by simp),
      List.nil_append]
  rw [List.replicate_append_replicate]
  unfold quoteRun
  simp only [takeWhile_quotes quote (k + 3) hrest, List.length_replicate, hmin, hdrop]
  rw [if_neg (by omega), Nat.add_sub_cancel, List.take_replicate, Nat.min_eq_left (by omega)]

/-- Every text is a run of quotes and a text that starts with none. -/
theorem exists_quotes (quote : Char) (t : Text) :
    ∃ k u, t = List.replicate k quote ++ u ∧ u.head? ≠ some quote := by
  induction t with
  | nil => exact ⟨0, [], rfl, by simp⟩
  | cons c t ih =>
    by_cases hc : c = quote
    · obtain ⟨k, u, rfl, hu⟩ := ih
      exact ⟨k + 1, u, by rw [hc, List.replicate_succ, List.cons_append], hu⟩
    · exact ⟨0, c :: t, rfl, by simpa using hc⟩

theorem drop_quotes (quote : Char) (k : Nat) (t : Text) :
    (List.replicate k quote ++ t).drop k = t := by
  rw [List.drop_append_of_le_length (by simp), List.drop_of_length_le (by simp), List.nil_append]

theorem newline?_of_isPlain {c : Char} (h : isPlain c = true) (t : Text) :
    newline? (c :: t) = none := by
  unfold newline?
  split
  · rename_i heq
    rw [(List.cons.inj heq).1] at h
    exact absurd h (by decide)
  · rename_i heq
    rw [(List.cons.inj heq).1] at h
    exact absurd h (by decide)
  · rfl

/-! ### In double quotes -/

theorem longBasicBody?_quotes {k : Nat} (hpos : 0 < k) (hk : k < 3) {rest : Text}
    (hrest : rest.head? ≠ some '"') (fuel : Nat) :
    longBasicBody? (fuel + 1) (List.replicate k '"' ++ rest) =
      (longBasicBody? fuel rest).map fun (body, rest) => (List.replicate k '"' ++ body, rest) := by
  obtain ⟨k, rfl⟩ := Nat.exists_eq_succ_of_ne_zero (Nat.ne_of_gt hpos)
  have hrun := quoteRun_inside hk hrest
  have hdrop := drop_quotes '"' (k + 1) rest
  rw [List.replicate_succ, List.cons_append] at hrun hdrop ⊢
  rw [longBasicBody?, if_pos rfl, hrun]
  simp only [List.length_cons, List.length_replicate, hdrop]

theorem longBasicBody?_closing {k : Nat} (hk : k < 3) {rest : Text}
    (hrest : rest.head? ≠ some '"') (fuel : Nat) :
    longBasicBody? (fuel + 1) (List.replicate k '"' ++ (List.replicate 3 '"' ++ rest)) =
      some (List.replicate k '"', rest) := by
  have hrun := quoteRun_closing hk hrest
  rw [← List.append_assoc]
  rw [List.replicate_append_replicate, List.replicate_succ, List.cons_append] at hrun ⊢
  rw [longBasicBody?, if_pos rfl, hrun]

theorem longBasicBody?_escape {e : Text} {c : Char} {t : Text}
    (hbreak : newline? (skipSpace (e ++ t)) = none) (h : escape? (e ++ t) = some (c, t))
    (fuel : Nat) :
    longBasicBody? (fuel + 1) ('\\' :: e ++ t) =
      (longBasicBody? fuel t).map fun (body, rest) => (c :: body, rest) := by
  rw [List.cons_append, longBasicBody?]
  simp [hbreak, h]

theorem longBasicBody?_tomlChar {c : Char} (hquote : c ≠ '"') (fuel : Nat) (t : Text) :
    longBasicBody? (fuel + 1) (tomlChar true c ++ t) =
      (longBasicBody? fuel t).map fun (body, rest) => (c :: body, rest) := by
  obtain ⟨e, he, hbreak, hescape⟩ | ⟨he, hslash, hplain⟩ := tomlChar_cases true c
  · rw [he, longBasicBody?_escape (hbreak t) (hescape t)]
  · rw [he, List.singleton_append, longBasicBody?, if_neg hquote, if_neg hslash]
    rcases hplain with hplain | ⟨-, rfl⟩
    · simp [newline?_of_isPlain hplain, hplain]
    · rfl

theorem head?_tomlChar {c : Char} (hquote : c ≠ '"') (t : Text) :
    (tomlChar true c ++ t).head? ≠ some '"' := by
  obtain ⟨e, he, -⟩ | ⟨he, -⟩ := tomlChar_cases true c
  · simp [he]
  · simpa [he] using hquote

theorem longBasicBody_cons {c : Char} (hquote : c ≠ '"') (run : Nat) (t : Text) :
    Outline.longBasicBody run (c :: t) = tomlChar true c ++ Outline.longBasicBody 0 t := by
  rw [Outline.longBasicBody, if_neg hquote]

/-- Fewer than three quotes are written as they stand. -/
theorem longBasicBody_quotes {k : Nat} (hk : k < 3) {t : Text} (ht : t.head? ≠ some '"') :
    Outline.longBasicBody 0 (List.replicate k '"' ++ t) =
      List.replicate k '"' ++ Outline.longBasicBody 0 t := by
  have hrun : ∀ run, Outline.longBasicBody run t = Outline.longBasicBody 0 t := by
    intro run
    cases t with
    | nil => rfl
    | cons c t =>
      have hc : c ≠ '"' := fun h => ht (by rw [h]; rfl)
      rw [longBasicBody_cons hc, longBasicBody_cons hc]
  match k, hk with
  | 0, _ => rfl
  | 1, _ => exact congrArg ('"' :: ·) (hrun 1)
  | 2, _ => exact congrArg ('"' :: '"' :: ·) (hrun 2)

theorem longBasicBody?_longBasicBody {rest : Text} (hrest : rest.head? ≠ some '"')
    (t : Text) {fuel : Nat} (hfuel : t.length < fuel) :
    longBasicBody? fuel (Outline.longBasicBody 0 t ++ (List.replicate 3 '"' ++ rest)) =
      some (t, rest) := by
  -- One step of the reader takes a whole run of quotes, or one character that is none.
  induction fuel using Nat.strongRecOn generalizing t with
  | _ fuel ih =>
    obtain ⟨fuel, rfl⟩ := Nat.exists_eq_succ_of_ne_zero (Nat.ne_of_gt (Nat.zero_lt_of_lt hfuel))
    obtain ⟨k, u, rfl, hu⟩ := exists_quotes '"' t
    rw [List.length_append, List.length_replicate] at hfuel
    by_cases hk : k < 3
    · rw [longBasicBody_quotes hk hu, List.append_assoc]
      cases u with
      | nil =>
        rw [List.append_nil]
        exact longBasicBody?_closing hk hrest fuel
      | cons c u =>
        have hc : c ≠ '"' := fun h => hu (by rw [h]; rfl)
        rw [List.length_cons] at hfuel
        rcases Nat.eq_zero_or_pos k with rfl | hpos
        · rw [longBasicBody_cons hc, List.append_assoc, List.replicate_zero, List.nil_append,
            longBasicBody?_tomlChar hc, ih fuel (by omega) u (by omega)]
          rfl
        · have hnext := ih fuel (by omega) (c :: u) (by rw [List.length_cons]; omega)
          rw [longBasicBody?_quotes hpos hk, hnext]
          · rfl
          · rw [longBasicBody_cons hc, List.append_assoc]
            exact head?_tomlChar hc _
    · obtain ⟨k, rfl⟩ := Nat.exists_eq_add_of_le (Nat.le_of_not_lt hk)
      obtain ⟨fuel, rfl⟩ := Nat.exists_eq_succ_of_ne_zero (by omega : fuel ≠ 0)
      have hnext := ih fuel (by omega) (List.replicate k '"' ++ u) (by simp; omega)
      have hthree : List.replicate (3 + k) '"' ++ u =
          '"' :: '"' :: '"' :: (List.replicate k '"' ++ u) := by
        rw [← List.replicate_append_replicate, List.append_assoc]
        rfl
      rw [hthree]
      show longBasicBody? (fuel + 1 + 1) (List.replicate 2 '"' ++ ('\\' :: ['"'] ++
        (Outline.longBasicBody 0 (List.replicate k '"' ++ u)
          ++ (List.replicate 3 '"' ++ rest)))) = _
      rw [longBasicBody?_quotes (by decide) (by decide) (by simp), longBasicBody?_escape rfl rfl,
        hnext]
      rfl

/-! ### In single quotes -/

theorem longLiteralBody?_quotes {k : Nat} (hpos : 0 < k) (hk : k < 3) {rest : Text}
    (hrest : rest.head? ≠ some '\'') (fuel : Nat) :
    longLiteralBody? (fuel + 1) (List.replicate k '\'' ++ rest) =
      (longLiteralBody? fuel rest).map fun (body, rest) =>
        (List.replicate k '\'' ++ body, rest) := by
  obtain ⟨k, rfl⟩ := Nat.exists_eq_succ_of_ne_zero (Nat.ne_of_gt hpos)
  have hrun := quoteRun_inside hk hrest
  have hdrop := drop_quotes '\'' (k + 1) rest
  rw [List.replicate_succ, List.cons_append] at hrun hdrop ⊢
  rw [longLiteralBody?, if_pos rfl, hrun]
  simp only [List.length_cons, List.length_replicate, hdrop]

theorem longLiteralBody?_closing {k : Nat} (hk : k < 3) {rest : Text}
    (hrest : rest.head? ≠ some '\'') (fuel : Nat) :
    longLiteralBody? (fuel + 1) (List.replicate k '\'' ++ (List.replicate 3 '\'' ++ rest)) =
      some (List.replicate k '\'', rest) := by
  have hrun := quoteRun_closing hk hrest
  rw [← List.append_assoc]
  rw [List.replicate_append_replicate, List.replicate_succ, List.cons_append] at hrun ⊢
  rw [longLiteralBody?, if_pos rfl, hrun]

theorem longLiteralBody?_char {c : Char} (hquote : c ≠ '\'') (hcontrol : isControl c = false)
    (fuel : Nat) (t : Text) :
    longLiteralBody? (fuel + 1) (c :: t) =
      (longLiteralBody? fuel t).map fun (body, rest) => (c :: body, rest) := by
  rw [longLiteralBody?, if_neg hquote]
  by_cases hfeed : c = '\n'
  · subst hfeed
    rfl
  · have hplain := isPlain_of_isControl hcontrol hfeed
    simp [newline?_of_isPlain hplain, hplain]

theorem hasThree_append (quote : Char) (a b : Text) (h : Outline.hasThree quote (a ++ b) = false) :
    Outline.hasThree quote b = false := by
  induction a with
  | nil => exact h
  | cons c a ih =>
    rw [List.cons_append, Outline.hasThree, Bool.or_eq_false_iff] at h
    exact ih h.2

theorem longLiteralBody?_append {rest : Text} (hrest : rest.head? ≠ some '\'') {t : Text}
    (hcontrol : ∀ c ∈ t, isControl c = false) (hthree : Outline.hasThree '\'' t = false)
    {fuel : Nat} (hfuel : t.length < fuel) :
    longLiteralBody? fuel (t ++ (List.replicate 3 '\'' ++ rest)) = some (t, rest) := by
  induction fuel generalizing t with
  | zero => exact absurd hfuel (Nat.not_lt_zero _)
  | succ fuel ih =>
    obtain ⟨k, u, rfl, hu⟩ := exists_quotes '\'' t
    have hk : k < 3 := by
      refine Nat.lt_of_not_le fun hle => ?_
      obtain ⟨k, rfl⟩ := Nat.exists_eq_add_of_le hle
      rw [← List.replicate_append_replicate, List.append_assoc] at hthree
      exact absurd hthree (by simp [Outline.hasThree])
    have hcontrol' := fun c hc => hcontrol c (List.mem_append_right _ hc)
    have hthree' := hasThree_append '\'' _ u hthree
    rw [List.length_append, List.length_replicate] at hfuel
    rw [List.append_assoc]
    cases u with
    | nil =>
      rw [List.append_nil]
      exact longLiteralBody?_closing hk hrest fuel
    | cons c u =>
      have hc : c ≠ '\'' := fun h => hu (by rw [h]; rfl)
      rw [List.length_cons] at hfuel
      rcases Nat.eq_zero_or_pos k with rfl | hpos
      · have hnext := ih (fun d hd => hcontrol' d (List.mem_cons_of_mem _ hd))
          (hasThree_append '\'' [c] u hthree') (by omega)
        rw [List.replicate_zero, List.nil_append, List.cons_append,
          longLiteralBody?_char hc (hcontrol' c List.mem_cons_self), hnext]
        rfl
      · have hnext := ih hcontrol' hthree' (by rw [List.length_cons]; omega)
        rw [longLiteralBody?_quotes hpos hk (by simpa using hc), hnext]
        rfl

/-! ## Strings in quotes -/

theorem string?_basic (t : Text) {rest : Text} (hrest : rest.head? ≠ some '"') {fuel : Nat}
    (hfuel : t.length < fuel) :
    string? fuel ('"' :: Outline.basicBody t ++ ['"'] ++ rest) = some (t, rest) := by
  have hbody := basicBody?_basicBody t rest hfuel
  have hthree : ∀ r, Outline.basicBody t ++ '"' :: rest ≠ '"' :: '"' :: r := by
    intro r h
    cases t with
    | nil => exact hrest (by rw [(List.cons.inj h).2]; rfl)
    | cons c t =>
      have hhead := congrArg List.head? h
      simp only [Outline.basicBody, List.flatMap_cons, List.append_assoc] at hhead
      split at hhead
      · simp at hhead
      · rename_i hc
        obtain ⟨e, he, -⟩ | ⟨he, -⟩ := tomlChar_cases false c
        · simp [he] at hhead
        · simp only [he, List.singleton_append, List.head?_cons, Option.some.injEq] at hhead
          exact hc hhead
  rw [List.append_assoc, List.cons_append, List.singleton_append]
  unfold string?
  split
  · rename_i r heq
    exact absurd (List.cons.inj heq).2 (hthree r)
  · rename_i heq
    exact absurd (List.cons.inj heq).1 (by decide)
  · rename_i heq
    rw [← (List.cons.inj heq).2, hbody]
  · rename_i heq
    exact absurd (List.cons.inj heq).1 (by decide)
  · rename_i hbasic _
    exact absurd rfl (hbasic _)

theorem string?_literal {t : Text} (hne : t ≠ []) (h : ∀ c ∈ t, isPlain c = true ∧ c ≠ '\'')
    (fuel : Nat) (rest : Text) : string? fuel ('\'' :: t ++ ['\''] ++ rest) = some (t, rest) := by
  have hbody := literalBody?_append h rest
  obtain ⟨c, t, rfl⟩ := List.exists_cons_of_ne_nil hne
  rw [List.append_assoc, List.cons_append, List.singleton_append]
  unfold string?
  split
  · rename_i heq
    exact absurd (List.cons.inj heq).1 (by decide)
  · rename_i r heq
    exact absurd (List.cons.inj (List.cons.inj heq).2).1 (h c List.mem_cons_self).2
  · rename_i heq
    exact absurd (List.cons.inj heq).1 (by decide)
  · rename_i heq
    rw [← (List.cons.inj heq).2, hbody]
  · rename_i hliteral
    exact absurd rfl (hliteral _)

/-- A line ending is put in front of a text that has one, and not counted. -/
theorem newline?_longStart {t u : Text} (h : '\n' ∉ t → ∃ c r, u = c :: r ∧ isPlain c = true) :
    (newline? (Outline.longStart t ++ u)).getD (Outline.longStart t ++ u) = u := by
  unfold Outline.longStart
  split
  · rfl
  · rename_i hbroken
    obtain ⟨c, r, rfl, hc⟩ := h (by simpa using hbroken)
    rw [List.nil_append, newline?_of_isPlain hc]
    rfl

theorem string?_longBasic (t : Text) {rest : Text} (hrest : rest.head? ≠ some '"') {fuel : Nat}
    (hfuel : t.length < fuel) :
    string? fuel (List.replicate 3 '"' ++ Outline.longStart t ++ Outline.longBasicBody 0 t
      ++ List.replicate 3 '"' ++ rest) = some (t, rest) := by
  have hstart : '\n' ∉ t → ∃ c r,
      Outline.longBasicBody 0 t ++ (List.replicate 3 '"' ++ rest) = c :: r ∧ isPlain c = true := by
    intro hbroken
    cases t with
    | nil => exact ⟨'"', _, rfl, rfl⟩
    | cons c t =>
      by_cases hc : c = '"'
      · subst hc
        exact ⟨'"', _, rfl, rfl⟩
      · rw [longBasicBody_cons hc]
        obtain ⟨e, he, -⟩ | ⟨he, -, hplain⟩ := tomlChar_cases true c
        · exact ⟨'\\', _, by rw [he]; rfl, rfl⟩
        · refine ⟨c, _, by rw [he]; rfl, hplain.resolve_right ?_⟩
          rintro ⟨-, rfl⟩
          exact hbroken List.mem_cons_self
  simp only [List.append_assoc]
  exact (congrArg (longBasicBody? fuel) (newline?_longStart hstart)).trans
    (longBasicBody?_longBasicBody hrest t hfuel)

theorem string?_longLiteral {t : Text} (hcontrol : ∀ c ∈ t, isControl c = false)
    (hthree : Outline.hasThree '\'' t = false) {rest : Text} (hrest : rest.head? ≠ some '\'')
    {fuel : Nat} (hfuel : t.length < fuel) :
    string? fuel (List.replicate 3 '\'' ++ Outline.longStart t ++ t ++ List.replicate 3 '\''
      ++ rest) = some (t, rest) := by
  have hstart : '\n' ∉ t → ∃ c r, t ++ (List.replicate 3 '\'' ++ rest) = c :: r ∧
      isPlain c = true := by
    intro hbroken
    cases t with
    | nil => exact ⟨'\'', _, rfl, rfl⟩
    | cons c t =>
      refine ⟨c, _, rfl, isPlain_of_isControl (hcontrol c List.mem_cons_self) ?_⟩
      rintro rfl
      exact hbroken List.mem_cons_self
  simp only [List.append_assoc]
  exact (congrArg (longLiteralBody? fuel) (newline?_longStart hstart)).trans
    (longLiteralBody?_append hrest hcontrol hthree hfuel)

/-- Whatever form a text is written in, it reads back. -/
theorem string?_tomlText (t : Text) {rest : Text} (hdouble : rest.head? ≠ some '"')
    (hsingle : rest.head? ≠ some '\'') {fuel : Nat} (hfuel : t.length < fuel) :
    string? fuel (Outline.tomlText t ++ rest) = some (t, rest) := by
  have hcontrols : t.any isControl = false → ∀ c ∈ t, isControl c = false := by
    intro h c hc
    simpa using List.any_eq_false.mp h c hc
  have hmem : ∀ c, t.contains c = false → ∀ d ∈ t, d ≠ c := by
    rintro c h d hd rfl
    exact absurd (List.contains_iff_mem.mpr hd) (by rw [h]; exact Bool.false_ne_true)
  unfold Outline.tomlText
  simp only [Bool.and_eq_true, Bool.not_eq_true']
  split
  · exact string?_basic t hdouble hfuel
  rename_i hbasic
  split
  · rename_i hform
    obtain ⟨⟨hcontrol, hbroken⟩, hquote⟩ := hform
    refine string?_literal ?_ (fun c hc => ⟨?_, hmem _ hquote c hc⟩) fuel rest
    · rintro rfl
      exact hbasic ⟨⟨⟨rfl, rfl⟩, rfl⟩, rfl⟩
    · exact isPlain_of_isControl (hcontrols hcontrol c hc) (hmem _ hbroken c hc)
  split
  · exact string?_longBasic t hdouble hfuel
  split
  · rename_i hform
    exact string?_longLiteral (hcontrols hform.1) hform.2 hsingle hfuel
  split
  · exact string?_longBasic t hdouble hfuel
  · exact string?_basic t hdouble hfuel

/-! ## Keys -/

theorem simpleKey?_bare {key : Text} (hne : key ≠ []) (h : ∀ c ∈ key, isBareKeyChar c = true)
    (fuel : Nat) {rest : Text} (hrest : ∀ c ∈ rest.head?, isBareKeyChar c = false) :
    simpleKey? fuel (key ++ rest) = some (key, rest) := by
  obtain ⟨c, r, rfl⟩ := List.exists_cons_of_ne_nil hne
  have hc := h c List.mem_cons_self
  have htake : rest.takeWhile isBareKeyChar = [] ∧ rest.dropWhile isBareKeyChar = rest := by
    cases rest with
    | nil => exact ⟨rfl, rfl⟩
    | cons d r =>
      have hd : isBareKeyChar d = false := hrest d rfl
      exact ⟨List.takeWhile_cons_of_neg (by simp [hd]), List.dropWhile_cons_of_neg (by simp [hd])⟩
  unfold simpleKey?
  split
  · rename_i heq
    rw [(List.cons.inj heq).1] at hc
    exact absurd hc (by decide)
  · rename_i heq
    rw [(List.cons.inj heq).1] at hc
    exact absurd hc (by decide)
  · rw [List.takeWhile_append_of_pos h, List.dropWhile_append_of_pos h, htake.1, htake.2,
      List.append_nil]
    rfl

theorem simpleKey?_tomlKey (key : Text) {fuel : Nat} (hfuel : key.length < fuel) {rest : Text}
    (hrest : ∀ c ∈ rest.head?, isBareKeyChar c = false) :
    simpleKey? fuel (Outline.tomlKey key ++ rest) = some (key, rest) := by
  have hquoted : simpleKey? fuel ('"' :: Outline.basicBody key ++ ['"'] ++ rest) =
      some (key, rest) := by
    rw [List.append_assoc, List.cons_append, List.singleton_append]
    exact basicBody?_basicBody key rest hfuel
  unfold Outline.tomlKey
  simp only [Bool.and_eq_true, Bool.not_eq_true', List.all_eq_true]
  split
  · rename_i hbare
    exact simpleKey?_bare (List.isEmpty_eq_false_iff.mp hbare.1) hbare.2 fuel hrest
  split
  · exact hquoted
  split
  · rename_i hliteral
    rw [List.append_assoc, List.cons_append, List.singleton_append]
    refine literalBody?_append (fun c hc => ?_) rest
    have hcontrol := List.any_eq_false.mp hliteral.1 c hc
    simp only [Bool.or_eq_true, beq_iff_eq, not_or, Bool.not_eq_true] at hcontrol
    refine ⟨isPlain_of_isControl hcontrol.1 hcontrol.2, ?_⟩
    rintro rfl
    exact absurd (List.contains_iff_mem.mpr hc) (by rw [hliteral.2]; exact Bool.false_ne_true)
  · exact hquoted

/-! ## Lengths -/

theorem length_tomlChar_pos (long : Bool) (c : Char) : 0 < (tomlChar long c).length := by
  obtain ⟨e, he, -⟩ | ⟨he, -⟩ := tomlChar_cases long c
  · rw [he]
    exact Nat.succ_pos _
  · rw [he]
    exact Nat.one_pos

theorem length_le_basicBody (t : Text) : t.length ≤ (Outline.basicBody t).length := by
  induction t with
  | nil => exact Nat.le_refl _
  | cons c t ih =>
    have hpos := length_tomlChar_pos false c
    unfold Outline.basicBody at ih ⊢
    rw [List.flatMap_cons, List.length_append, List.length_cons]
    have hescape : "\\\"".toList.length = 2 := rfl
    split
    · omega
    · omega

theorem length_le_longBasicBody (run : Nat) (t : Text) :
    t.length ≤ (Outline.longBasicBody run t).length := by
  induction t generalizing run with
  | nil => exact Nat.le_refl _
  | cons c t ih =>
    have hpos := length_tomlChar_pos true c
    have hzero := ih 0
    have hnext := ih (run + 1)
    have hescape : "\\\"".toList.length = 2 := rfl
    rw [Outline.longBasicBody, List.length_cons]
    split
    · split
      · rw [List.length_append]
        omega
      · rw [List.length_cons]
        omega
    · rw [List.length_append]
      omega

theorem length_le_tomlText (t : Text) : t.length ≤ (Outline.tomlText t).length := by
  have hbasic := length_le_basicBody t
  have hlong := length_le_longBasicBody 0 t
  unfold Outline.tomlText
  simp only
  repeat' split
  all_goals simp only [List.length_append, List.length_cons, List.length_nil]; omega

theorem length_le_tomlKey (key : Text) : key.length ≤ (Outline.tomlKey key).length := by
  have hbasic := length_le_basicBody key
  unfold Outline.tomlKey
  simp only
  split
  · exact Nat.le_refl _
  repeat' split
  all_goals simp only [List.length_append, List.length_cons, List.length_nil]; omega

end Toml
end Listing
