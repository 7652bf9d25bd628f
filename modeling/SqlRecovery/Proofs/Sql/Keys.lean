import SqlRecovery.Proofs.Text.Ascii
import SqlRecovery.Proofs.Text.Collapse
import SqlRecovery.Sql.Scan

/-! What a search for keyword phrases sees of a text: the characters that are not blank, and for
each whether it goes on with a name. Blanks elsewhere make no difference. -/
namespace SqlRecovery.Sql
open Text

/-- A name may go on directly behind this character, or a qualifier ends with it. -/
def binds (c : Char) : Bool := !isBlank c && (isNameChar c || c == '.')

/-- Whether a name may go on behind the text; `g` tells it of the place before the text. -/
def glue (g : Bool) (s : List Char) : Bool := s.foldl (fun _ c => binds c) g

/-- The text begins with a character of a name. -/
def startsName (s : List Char) : Bool := (s.head?.map isNameChar).getD false

/-- The characters that are not blank, each with the mark whether it goes on with a name. -/
def keys (g : Bool) : List Char → List (Char × Bool)
  | [] => []
  | c :: s => if isBlank c then keys false s else (c, g && isNameChar c) :: keys (binds c) s

@[simp] theorem keys_nil (g : Bool) : keys g [] = [] := rfl

theorem glue_append (g : Bool) (s t : List Char) : glue g (s ++ t) = glue (glue g s) t :=
  List.foldl_append

theorem binds_of_blank {c : Char} (h : isBlank c = true) : binds c = false := by
  rw [binds, h, Bool.not_true, Bool.false_and]

theorem glue_of_allBlank {s : List Char} (h : allBlank s = true) (hs : s ≠ []) (g : Bool) :
    glue g s = false := by
  induction s generalizing g with
  | nil => exact absurd rfl hs
  | cons c s ih =>
    rw [allBlank, List.all_cons, Bool.and_eq_true] at h
    change glue (binds c) s = false
    rw [binds_of_blank h.1]
    cases s with
    | nil => rfl
    | cons d s => exact ih h.2 (List.cons_ne_nil d s) false

theorem keys_cons_of_blank {c : Char} (h : isBlank c = true) (g : Bool) (s : List Char) :
    keys g (c :: s) = keys false s := by
  rw [keys, if_pos h]

theorem keys_cons_of_not_blank {c : Char} (h : isBlank c = false) (g : Bool) (s : List Char) :
    keys g (c :: s) = (c, g && isNameChar c) :: keys (binds c) s := by
  rw [keys, h, if_neg Bool.false_ne_true]

theorem keys_append (g : Bool) (s t : List Char) :
    keys g (s ++ t) = keys g s ++ keys (glue g s) t := by
  induction s generalizing g with
  | nil => rfl
  | cons c s ih =>
    rw [List.cons_append]
    change _ = _ ++ keys (glue (binds c) s) t
    cases hc : isBlank c with
    | true => rw [keys_cons_of_blank hc, keys_cons_of_blank hc, ih, binds_of_blank hc]
    | false => rw [keys_cons_of_not_blank hc, keys_cons_of_not_blank hc, ih, List.cons_append]

theorem map_fst_keys (g : Bool) (s : List Char) : (keys g s).map (·.1) = ink s := by
  induction s generalizing g with
  | nil => rfl
  | cons c s ih =>
    cases hc : isBlank c with
    | true => rw [keys_cons_of_blank hc, ih, ink_cons_of_blank hc]
    | false => rw [keys_cons_of_not_blank hc, List.map_cons, ih, ink_cons_of_not_blank hc]

theorem length_keys (g : Bool) (s : List Char) : (keys g s).length = (ink s).length := by
  rw [← map_fst_keys g s, List.length_map]

theorem keys_of_allBlank {s : List Char} (h : allBlank s = true) (g : Bool) : keys g s = [] := by
  rw [← List.length_eq_zero_iff, length_keys, ink_eq_nil_iff.mpr h, List.length_nil]

/-- The first character alone depends on what stands before the text. -/
theorem keys_false (g : Bool) (s : List Char) : keys false s = unmark (keys g s) := by
  induction s generalizing g with
  | nil => rfl
  | cons c s ih =>
    cases hc : isBlank c with
    | true =>
      rw [keys_cons_of_blank hc, keys_cons_of_blank hc]
      exact ih false
    | false => rw [keys_cons_of_not_blank hc, keys_cons_of_not_blank hc, unmark, Bool.false_and]

theorem keys_of_seam {g : Bool} {s : List Char} (h : g = true → startsName s = false) :
    keys g s = keys false s := by
  cases s with
  | nil => rfl
  | cons c s =>
    cases hc : isBlank c with
    | true => rw [keys_cons_of_blank hc, keys_cons_of_blank hc]
    | false =>
      rw [keys_cons_of_not_blank hc, keys_cons_of_not_blank hc]
      cases g with
      | false => rfl
      | true =>
        have hname : isNameChar c = false := h rfl
        rw [hname, Bool.and_false, Bool.and_false]

/-- The marks of the characters, if they are told whether blanks stand before them. -/
private def keysOf (g : Bool) : List (Char × Bool) → List (Char × Bool)
  | [] => []
  | x :: xs => (x.1, (g && !x.2) && isNameChar x.1) :: keysOf (binds x.1) xs

private theorem keysOf_glyphs (g apart : Bool) (s : List Char) :
    keysOf g (glyphs apart s) = keys (g && !apart) s := by
  induction s generalizing g apart with
  | nil => rfl
  | cons c s ih =>
    cases hc : isBlank c with
    | true =>
      rw [glyphs_cons_of_blank hc, keys_cons_of_blank hc, ih, Bool.not_true, Bool.and_false]
    | false =>
      rw [glyphs_cons_of_not_blank hc, keys_cons_of_not_blank hc, keysOf, ih, Bool.not_false,
        Bool.and_true]

private theorem keysOf_unmark (g : List (Char × Bool)) : keysOf false (unmark g) = keysOf false g := by
  cases g <;> rfl

theorem keys_collapse (s : List Char) : keys false (collapse s) = keys false s := by
  have hcollapse := keysOf_glyphs false false (collapse s)
  have hs := keysOf_glyphs false true s
  rw [Bool.false_and] at hcollapse hs
  rw [← hcollapse, glyphs_collapse, keysOf_unmark, hs]

/-- Two texts look alike to a search. -/
def Alike (s s' : List Char) : Prop := keys false s = keys false s'

theorem Alike.ink_eq {s s' : List Char} (h : Alike s s') : ink s = ink s' := by
  rw [← map_fst_keys false s, h, map_fst_keys]

end SqlRecovery.Sql
