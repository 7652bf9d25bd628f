import Mathlib.Data.List.DropRight
import SqlRecovery.Proofs.Text.Utf8
import SqlRecovery.Stream.Lines

/-! The lines of a text and the lines of its bytes. They are cut at the same places, and differ at
most in a carriage return at the end of the text. -/
namespace SqlRecovery.Stream
open Text Utf8

section
variable {α : Type} [BEq α]

private theorem cutAt_append_of_unmarked {mark : α} {piece : List α}
    (h : ∀ x ∈ piece, (x == mark) = false) (xs : List α) :
    cutAt mark (piece ++ xs) = match (cutAt mark xs).1 with
      | [] => ([], piece ++ (cutAt mark xs).2)
      | part :: parts => ((piece ++ part) :: parts, (cutAt mark xs).2) := by
  induction piece with
  | nil => cases hc : (cutAt mark xs).1 <;> simp [← hc]
  | cons x piece ih =>
    have hx := h x List.mem_cons_self
    have hrest := ih fun y hy => h y (List.mem_cons_of_mem _ hy)
    rw [List.cons_append, cutAt, hrest]
    cases (cutAt mark xs).1 <;> simp [hx]

variable [LawfulBEq α]

/-- A line and the mark that ends it. -/
theorem cutAt_line {mark : α} {line : List α} (h : mark ∉ line) (xs : List α) :
    cutAt mark (line ++ mark :: xs) = (line :: (cutAt mark xs).1, (cutAt mark xs).2) := by
  have hunmarked : ∀ x ∈ line, (x == mark) = false := by
    intro x hx
    rw [beq_eq_false_iff_ne]
    rintro rfl
    exact h hx
  have hmark : cutAt mark (mark :: xs) = ([] :: (cutAt mark xs).1, (cutAt mark xs).2) := by
    simp [cutAt]
  rw [cutAt_append_of_unmarked hunmarked, hmark]
  exact congrArg (fun part => (part :: _, _)) (List.append_nil line)

/-- The parts, each with its mark, and the last part make up the text. -/
theorem flatMap_cutAt (mark : α) (xs : List α) :
    (cutAt mark xs).1.flatMap (· ++ [mark]) ++ (cutAt mark xs).2 = xs := by
  induction xs with
  | nil => rfl
  | cons x xs ih =>
    rw [cutAt]
    rcases hcut : cutAt mark xs with ⟨parts, rest⟩
    rw [hcut] at ih
    cases hx : (x == mark) with
    | true =>
      obtain rfl := beq_iff_eq.mp hx
      exact congrArg (x :: ·) ih
    | false => cases parts <;> exact congrArg (x :: ·) ih

/-- No part has a mark in it. -/
theorem not_mem_cutAt (mark : α) (xs : List α) :
    (∀ part ∈ (cutAt mark xs).1, mark ∉ part) ∧ mark ∉ (cutAt mark xs).2 := by
  induction xs with
  | nil => exact ⟨fun _ h => absurd h List.not_mem_nil, List.not_mem_nil⟩
  | cons x xs ih =>
    rw [cutAt]
    rcases hcut : cutAt mark xs with ⟨parts, rest⟩
    rw [hcut] at ih
    obtain ⟨hparts, hrest⟩ := ih
    cases hx : (x == mark) with
    | true => exact ⟨List.forall_mem_cons.mpr ⟨List.not_mem_nil, hparts⟩, hrest⟩
    | false =>
      have hmore : ∀ part, mark ∉ part → mark ∉ x :: part := fun part h hmem =>
        (List.mem_cons.mp hmem).elim (fun heq => beq_eq_false_iff_ne.mp hx heq.symm) h
      cases parts with
      | nil => exact ⟨hparts, hmore rest hrest⟩
      | cons part parts =>
        rw [List.forall_mem_cons] at hparts
        exact ⟨List.forall_mem_cons.mpr ⟨hmore part hparts.1, hparts.2⟩, hrest⟩

/-- The last part has no mark behind it, and begins behind the last mark. -/
theorem snd_cutAt (mark : α) (xs : List α) :
    (cutAt mark xs).2 = xs.rtakeWhile (· != mark) := by
  induction xs using List.reverseRecOn with
  | nil => rfl
  | append_singleton xs x ih =>
    have hunmarked : ∀ y ∈ xs.rtakeWhile (· != mark), (y == mark) = false :=
      fun y hy => by simpa using List.mem_rtakeWhile_imp hy
    rw [cutAt_append, ih, cutAt_append_of_unmarked hunmarked, List.rtakeWhile_concat]
    cases hx : (x == mark) <;> simp [cutAt, bne, hx]

theorem dropEnd_append (mark : α) (xs : List α) : dropEnd mark (xs ++ [mark]) = xs := by
  simp [dropEnd]

theorem dropEnd_of_getLast?_ne {mark : α} {xs : List α} (h : xs.getLast? ≠ some mark) :
    dropEnd mark xs = xs := by
  simp [dropEnd, h]

/-- A mark at the end is dropped, and nothing else. -/
theorem dropEnd_cases (mark : α) (xs : List α) :
    dropEnd mark xs = xs ∨ xs = dropEnd mark xs ++ [mark] := by
  by_cases h : xs.getLast? = some mark
  · obtain ⟨ys, rfl⟩ := List.getLast?_eq_some_iff.mp h
    exact .inr (by rw [dropEnd_append])
  · exact .inl (dropEnd_of_getLast?_ne h)

end

private theorem encode_append (s t : List Char) : encode (s ++ t) = encode s ++ encode t :=
  List.flatMap_append

private theorem encode_eq_nil_iff (s : List Char) : encode s = [] ↔ s = [] := by
  constructor
  · intro h
    have hd := decode_encode s
    rw [h] at hd
    exact hd.symm
  · rintro rfl
    rfl

private theorem encodeChar_of_mem_ascii {c : Char} {b : UInt8} (hb : b ∈ String.utf8EncodeChar c)
    (h : b.toNat < 0x80) : c.val.toNat = b.toNat ∧ String.utf8EncodeChar c = [b] := by
  have hbyte : ∀ n : Nat, (UInt8.ofNat n).toNat = n % 256 := fun n => by simp
  revert hb
  fun_cases String.utf8EncodeChar c
  case case1 v h1 =>
    intro hb
    obtain rfl := List.mem_singleton.mp hb
    refine ⟨?_, rfl⟩
    rw [hbyte]
    omega
  all_goals
    intro hb
    simp only [List.mem_cons, List.not_mem_nil, or_false] at hb
    exfalso
    rcases hb with rfl | rfl | rfl | rfl <;> rw [hbyte] at h <;> omega

private theorem eq_of_mem_encodeChar {c mark : Char} {b : UInt8} (hm : mark.val.toNat = b.toNat)
    (hb : b.toNat < 0x80) (h : b ∈ String.utf8EncodeChar c) : c = mark := by
  have hc := (encodeChar_of_mem_ascii h hb).1
  exact Char.toNat_inj.mp (hc.trans hm.symm)

/-- Bytes are cut at the line feeds of their text. -/
theorem cutAt_encode (s : List Char) :
    cutAt 0x0A (encode s) = ((cutAt '\n' s).1.map encode, encode (cutAt '\n' s).2) := by
  induction s with
  | nil => rfl
  | cons c s ih =>
    by_cases hc : c = '\n'
    · subst hc
      have henc : encode ('\n' :: s) = 0x0A :: encode s := rfl
      rw [henc, cutAt, cutAt, ih]
      rfl
    · have hunmarked : ∀ b ∈ String.utf8EncodeChar c, (b == 0x0A) = false := by
        intro b hb
        rw [beq_eq_false_iff_ne]
        rintro rfl
        exact hc (eq_of_mem_encodeChar rfl (by decide) hb)
      have henc : encode (c :: s) = String.utf8EncodeChar c ++ encode s := rfl
      have hcons : (c == '\n') = false := beq_eq_false_iff_ne.mpr hc
      rw [henc, cutAt_append_of_unmarked hunmarked, ih, cutAt, hcons]
      rcases cutAt '\n' s with ⟨_ | ⟨part, parts⟩, rest⟩ <;> rfl

private theorem dropEnd_encode (s : List Char) :
    dropEnd 0x0D (encode s) = encode (dropEnd '\r' s) := by
  rcases List.eq_nil_or_concat s with rfl | ⟨s, c, rfl⟩
  · rfl
  · rw [List.concat_eq_append, encode_append]
    by_cases hc : c = '\r'
    · subst hc
      have henc : encode ['\r'] = [0x0D] := rfl
      rw [henc, dropEnd_append, dropEnd_append]
    · have hlast : (encode s ++ encode [c]).getLast? ≠ some 0x0D := by
        intro h
        have hne : encode [c] ≠ [] := fun h => by simpa using (encode_eq_nil_iff [c]).mp h
        have hb := List.getLast?_eq_some_getLast hne
        rw [List.getLast?_append, hb, Option.some_or] at h
        have h' := Option.some.inj h
        have hmem := List.getLast_mem hne
        rw [h', encode, List.flatMap_singleton] at hmem
        exact hc (eq_of_mem_encodeChar rfl (by decide) hmem)
      rw [dropEnd_of_getLast?_ne hlast, dropEnd_of_getLast?_ne (by simpa using hc), encode_append]

private theorem lineText_encode (s : List Char) :
    lineText (encode s) = String.ofList (dropEnd '\r' s) := by
  rw [lineText, dropEnd_encode, decode_encode]

/-- Behind a chunk the bytes behind its last line feed remain, or all if it has none. -/
theorem LineAssembly.push_eq (a : LineAssembly) (chunk : List UInt8) :
    a.push chunk = ⟨(a.rest ++ chunk).rtakeWhile (· != 0x0A)⟩ :=
  congrArg LineAssembly.mk (snd_cutAt _ _)

/-- The lines still to come when these are the last bytes of the stream, the unfinished line
included. -/
def LineAssembly.remaining (a : LineAssembly) (bytes : List UInt8) : List String :=
  a.completed bytes ++ (a.push bytes).last?.toList

theorem LineAssembly.remaining_append (a : LineAssembly) (first second : List UInt8) :
    a.remaining (first ++ second) = a.completed first ++ (a.push first).remaining second := by
  rw [remaining, remaining, completed_append, push_append, List.append_assoc]

/-- Without new bytes nothing changes. -/
theorem LineAssembly.push_push_nil (before : List UInt8) :
    (push empty before).push [] = push empty before := by
  rw [← push_append, List.append_nil]

/-- Nothing is completed without new bytes. -/
theorem LineAssembly.completed_push_nil (before : List UInt8) :
    (push empty before).completed [] = [] := by
  have hcompleted := completed_append empty before []
  rw [List.append_nil] at hcompleted
  exact List.self_eq_append_right.mp hcompleted

theorem LineAssembly.remaining_push_nil (before : List UInt8) :
    (push empty before).remaining [] = (push empty before).last?.toList := by
  rw [remaining, push_push_nil, completed_push_nil, List.nil_append]

theorem textLines_eq (text : String) :
    textLines text = ((cutAt '\n' text.toList).1.map (dropEnd '\r')).map String.ofList ++
      if (cutAt '\n' text.toList).2.isEmpty then []
      else [String.ofList (cutAt '\n' text.toList).2] := by
  rcases hcut : cutAt '\n' text.toList with ⟨parts, rest⟩
  rw [textLines, hcut]
  dsimp only
  rw [List.map_append]
  split <;> rfl

/-- The lines of the bytes of a text. -/
theorem remaining_encode (s : List Char) :
    LineAssembly.empty.remaining (encode s) =
      ((cutAt '\n' s).1.map (dropEnd '\r')).map String.ofList ++
      if (cutAt '\n' s).2.isEmpty then [] else [String.ofList (dropEnd '\r' (cutAt '\n' s).2)] := by
  have hcut := cutAt_encode s
  have hempty : (encode (cutAt '\n' s).2).isEmpty = (cutAt '\n' s).2.isEmpty := by
    rw [Bool.eq_iff_iff, List.isEmpty_iff, List.isEmpty_iff, encode_eq_nil_iff]
  simp only [LineAssembly.remaining, LineAssembly.completed, LineAssembly.push, LineAssembly.last?,
    LineAssembly.empty, List.nil_append, hcut, hempty, List.map_map]
  congr 1
  · exact List.map_congr_left fun part _ => lineText_encode part
  · split
    · rfl
    · rw [lineText_encode]
      rfl

end SqlRecovery.Stream
