import Mathlib.Data.List.TakeWhile
import SqlRecovery.Proofs.Sql.Layout.Whole
import SqlRecovery.Proofs.Sql.Spelling

/-! The tokens of a statement: words, and the other characters that are not blank, one by one. What
a search sees of a text determines its tokens, and the first token its kind, so a layout has the
tokens and the kind of the statement that it was made from. -/
namespace SqlRecovery.Sql
open Text

/-- A character of a word: an ASCII letter or digit, an underscore, or any character outside ASCII
that is not blank. -/
def inWord (c : Char) : Bool := isNameChar c && !isBlank c

/-- The text begins with a character of a word. -/
def beginsWord (s : List Char) : Bool := (s.head?.map inWord).getD false

/-- The maximal runs of characters of words, and every other character that is not blank by
itself. -/
def tokens : List Char → List (List Char)
  | [] => []
  | c :: s =>
    if isBlank c then tokens s
    else if inWord c && beginsWord s then (tokens s).modifyHead (c :: ·)
    else [c] :: tokens s

/-- The tokens that marked characters make up. A character that goes on with a name belongs to the
token before it, unless that is no word but a dot. -/
private def joined : List (Char × Bool) → List (List Char)
  | [] => []
  | x :: ks =>
    if inWord x.1 && (ks.head?.map (·.2)).getD false then (joined ks).modifyHead (x.1 :: ·)
    else [x.1] :: joined ks

variable {c : Char}

private theorem tokens_cons_of_blank (h : isBlank c = true) (s : List Char) :
    tokens (c :: s) = tokens s := by
  rw [tokens, if_pos h]

private theorem tokens_cons_of_not_blank (h : isBlank c = false) (s : List Char) :
    tokens (c :: s) = if inWord c && beginsWord s then (tokens s).modifyHead (c :: ·)
      else [c] :: tokens s := by
  rw [tokens, h, if_neg Bool.false_ne_true]

/-- A name goes on behind every character of a word. -/
private theorem binds_of_inWord (h : inWord c = true) : binds c = true := by
  rw [inWord, Bool.and_eq_true] at h
  rw [binds, h.2, h.1]
  rfl

/-- Behind a character of a word, the mark of the next character tells whether a word goes on. -/
private theorem mark_head_keys (h : inWord c = true) (s : List Char) :
    ((keys (binds c) s).head?.map (·.2)).getD false = beginsWord s := by
  cases s with
  | nil => rfl
  | cons d s =>
    have hbegins : beginsWord (d :: s) = (isNameChar d && !isBlank d) := rfl
    cases hd : isBlank d with
    | true =>
      have hmark : ((keys false s).head?.map (·.2)).getD false = false := by
        rw [keys_false false]
        cases keys false s <;> rfl
      rw [keys_cons_of_blank hd, hmark, hbegins, hd, Bool.not_true, Bool.and_false]
    | false =>
      rw [keys_cons_of_not_blank hd, binds_of_inWord h, hbegins, hd, Bool.not_false, Bool.and_true]
      rfl

/-- What a search sees of a text determines its tokens. -/
private theorem tokens_eq_joined (g : Bool) (s : List Char) : tokens s = joined (keys g s) := by
  induction s generalizing g with
  | nil => rfl
  | cons c s ih =>
    cases hc : isBlank c with
    | true => rw [tokens_cons_of_blank hc, keys_cons_of_blank hc, ih]
    | false =>
      rw [tokens_cons_of_not_blank hc, keys_cons_of_not_blank hc, joined, ← ih]
      cases hword : inWord c with
      | false => rfl
      | true => rw [mark_head_keys hword]

/-- Texts that look alike have the same tokens. -/
theorem Alike.tokens_eq {s s' : List Char} (h : Alike s s') : tokens s = tokens s' := by
  rw [tokens_eq_joined false, h, ← tokens_eq_joined]

private theorem inWord_of_isAlpha (h : c.isAlpha = true) : inWord c = true := by
  rw [inWord, isNameChar_of_isAlpha h, not_blank_of_isAlpha h]
  rfl

/-- A word at the start of a text is taken as a whole. -/
theorem tokens_of_beginsWord {s : List Char} (h : beginsWord s = true) :
    tokens s = s.takeWhile inWord :: tokens (s.dropWhile inWord) := by
  induction s with
  | nil => cases h
  | cons c s ih =>
    have hc : inWord c = true := h
    have hblank : isBlank c = false := by
      rw [inWord, Bool.and_eq_true, Bool.not_eq_true'] at hc
      exact hc.2
    rw [tokens_cons_of_not_blank hblank, hc, Bool.true_and, List.takeWhile_cons_of_pos hc,
      List.dropWhile_cons_of_pos hc]
    cases hs : beginsWord s with
    | true =>
      rw [if_pos rfl, ih hs]
      rfl
    | false =>
      rw [if_neg Bool.false_ne_true]
      cases s with
      | nil => rfl
      | cons d s =>
        have hd : ¬inWord d = true := Bool.not_eq_true _ ▸ hs
        rw [List.takeWhile_cons_of_neg hd, List.dropWhile_cons_of_neg hd]

example : tokens "SELECT a.b1,  'x'".toList =
    ["SELECT".toList, ['a'], ['.'], "b1".toList, [','], ['\x27'], ['x'], ['\x27']] := by decide

/-- The letters at the start of a text are those of its first token. -/
private theorem takeWhile_trimStart (s : List Char) :
    (trimStart s).takeWhile Char.isAlpha =
      ((tokens s).head?.getD []).takeWhile Char.isAlpha := by
  induction s with
  | nil => rfl
  | cons c s ih =>
    cases hc : isBlank c with
    | true => rw [trimStart_cons_of_blank hc, tokens_cons_of_blank hc, ih]
    | false =>
      rw [trimStart_cons_of_not_blank hc]
      cases hword : inWord c with
      | true =>
        have hletters : ∀ d : Char, (d.isAlpha = true ∧ inWord d = true) = (d.isAlpha = true) :=
          fun d => propext ⟨And.left, fun h => ⟨h, inWord_of_isAlpha h⟩⟩
        have hbegins : beginsWord (c :: s) = true := hword
        rw [tokens_of_beginsWord hbegins, List.head?_cons, Option.getD_some, List.takeWhile_takeWhile]
        simp only [hletters, Bool.decide_eq_true]
      | false =>
        have hletter : ¬c.isAlpha = true := by
          intro h
          rw [inWord_of_isAlpha h] at hword
          cases hword
        rw [tokens_cons_of_not_blank hc, hword, Bool.false_and, if_neg Bool.false_ne_true,
          List.head?_cons, Option.getD_some, List.takeWhile_cons_of_neg hletter,
          List.takeWhile_cons_of_neg hletter]

/-- The kind of a statement is that of its first token. -/
theorem detect_eq_ofKeyword (sql : String) :
    Kind.detect sql =
      Kind.ofKeyword (((tokens sql.toList).head?.getD []).takeWhile Char.isAlpha) := by
  rw [Kind.detect, leadingKeyword, String.toList_ofList, takeWhile_trimStart]

namespace Layout

/-- A layout consists of the same tokens as the statement, in the same order, and is of the same
kind: nothing but blanks between tokens is changed. -/
theorem tokens_format (kind : Kind) (sql : String) :
    tokens (format kind sql).toList = tokens sql.toList ∧
      Kind.detect (format kind sql) = Kind.detect sql := by
  have htokens := (alike_format kind sql).tokens_eq
  refine ⟨htokens, ?_⟩
  rw [detect_eq_ofKeyword, detect_eq_ofKeyword, htokens]

end Layout

end SqlRecovery.Sql
