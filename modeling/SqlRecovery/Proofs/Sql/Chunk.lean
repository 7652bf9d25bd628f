import Mathlib.Data.List.Forall2
import SqlRecovery.Proofs.Sql.Keys

/-! A laid out text as chunks of the text that was laid out. Each chunk is trimmed and put behind
blanks of its own; only a comma may follow directly what stands before it. A text may be cut at places
where no name goes on, so a search sees the same in the chunks as in the text. -/
namespace SqlRecovery.Sql
open Text

/-- A piece of a text with the blanks that are to stand before it. A blank piece is left out with its
blanks, unless it is always to be shown. -/
structure Chunk where
  lead : List Char
  always : Bool
  text : List Char

namespace Chunk

/-- The chunk as it is shown. -/
def print (c : Chunk) : List Char :=
  if !c.always && allBlank c.text then [] else c.lead ++ trim c.text

/-- Blanks stand before the chunk, or it is a comma. -/
structure Sound (c : Chunk) : Prop where
  blank : allBlank c.lead = true
  comma : c.lead = [] → c.text = [',']

/-- The chunks are shown alike. -/
structure Like (c c' : Chunk) : Prop where
  lead : c'.lead = c.lead
  always : c'.always = c.always
  ink : ink c'.text = ink c.text

variable {c c' : Chunk}

theorem glyphs_of_allBlank {s : List Char} (h : allBlank s = true) (apart : Bool) :
    glyphs apart s = [] := by
  rw [← List.length_eq_zero_iff, length_glyphs, ink_eq_nil_iff.mpr h, List.length_nil]

/-- What is shown has the characters of the chunk. -/
theorem unmark_glyphs_print (hc : c.Sound) (ht : Tight c.text) (a b : Bool) :
    unmark (glyphs a c.print) = unmark (glyphs b c.text) := by
  rw [print]
  split
  case isTrue h =>
    rw [glyphs_of_allBlank (Bool.and_eq_true_iff.mp h).2]
    rfl
  case isFalse =>
    rw [glyphs_append, glyphs_of_allBlank hc.blank, List.nil_append, trim_of_tight ht,
      unmark_glyphs_collapse]

theorem keys_print (hc : c.Sound) (ht : Tight c.text) (g : Bool) :
    keys g c.print = keys false c.text := by
  rw [print]
  split
  case isTrue h =>
    rw [keys_of_allBlank (Bool.and_eq_true_iff.mp h).2]
    rfl
  case isFalse =>
    by_cases hlead : c.lead = []
    · rw [hlead, hc.comma hlead]
      cases g <;> rfl
    · rw [keys_append, keys_of_allBlank hc.blank, List.nil_append,
        glue_of_allBlank hc.blank hlead, trim_of_tight ht, keys_collapse]

theorem Like.print_eq (h : Like c c') (htrim : trim c'.text = trim c.text) :
    c'.print = c.print := by
  rw [print, print, h.lead, h.always, allBlank_eq_of_ink_eq h.ink, htrim]

end Chunk

/-- The chunks as they are shown. -/
def printed (cs : List Chunk) : List Char := cs.flatMap Chunk.print

/-- The chunks make up the text, and no name goes on from one to the next. -/
inductive Cut : Bool → List Char → List Chunk → Prop
  | nil (g : Bool) : Cut g [] []
  | cons {g : Bool} {x : List Char} {c : Chunk} {cs : List Chunk} (sound : c.Sound)
    (seam : g = true → startsName c.text = false) (rest : Cut (glue g c.text) x cs) :
    Cut g (c.text ++ x) (c :: cs)

namespace Cut
variable {g : Bool} {x y : List Char} {cs ds : List Chunk}

theorem append (h : Cut g x cs) (h' : Cut (glue g x) y ds) : Cut g (x ++ y) (cs ++ ds) := by
  induction h with
  | nil => exact h'
  | cons sound seam rest ih =>
    rw [List.append_assoc]
    rw [glue_append] at h'
    exact .cons sound seam (ih h')

/-- A search sees the same in what is shown as in the text. -/
theorem keys_printed (h : Cut g x cs) (hx : Tight x) (g' : Bool) :
    keys g' (printed cs) = keys g x := by
  induction h generalizing g' with
  | nil => rfl
  | @cons g x c cs sound seam rest ih =>
    obtain ⟨hc, hx⟩ := hx.of_append
    change keys g' (c.print ++ printed cs) = _
    rw [keys_append, keys_append, ih hx, Chunk.keys_print sound hc, keys_of_seam seam]

end Cut

/-- If a text is cut into chunks like those that it was printed from, the same is printed again. -/
theorem printed_eq {a b : Bool} {g g' : Bool} {x x' : List Char} {cs cs' : List Chunk}
    (h : Cut g x cs) (h' : Cut g' x' cs') (hlike : List.Forall₂ Chunk.Like cs cs')
    (hx : Tight x) (hx' : Tight x')
    (hglyphs : unmark (glyphs a (printed cs)) = unmark (glyphs b x')) :
    printed cs' = printed cs := by
  induction hlike generalizing a b g g' x x' with
  | nil => rfl
  | @cons c c' cs cs' hc hrest ih =>
    cases h with
    | @cons _ y _ _ sound seam rest =>
      cases h' with
      | @cons _ y' _ _ sound' seam' rest' =>
        obtain ⟨hct, hy⟩ := hx.of_append
        obtain ⟨hct', hy'⟩ := hx'.of_append
        change unmark (glyphs a (c.print ++ printed cs)) = _ at hglyphs
        rw [glyphs_append, glyphs_append] at hglyphs
        have hlength : (glyphs a c.print).length = (glyphs b c'.text).length := by
          rw [← length_unmark, Chunk.unmark_glyphs_print sound hct a b, length_unmark,
            length_glyphs, length_glyphs, hc.ink]
        obtain ⟨hfirst, hothers⟩ := unmark_append_inj hlength hglyphs
        have htrim : trim c'.text = trim c.text := by
          rw [trim_of_tight hct, trim_of_tight hct']
          refine collapse_congr (a := b) (b := a) ?_
          rw [← hfirst, Chunk.unmark_glyphs_print sound hct]
        change c'.print ++ printed cs' = c.print ++ printed cs
        rw [hc.print_eq htrim, ih rest rest' hy hy' hothers]

end SqlRecovery.Sql
