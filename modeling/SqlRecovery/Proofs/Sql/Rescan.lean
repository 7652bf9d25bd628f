import SqlRecovery.Proofs.Bytewise.Nesting
import SqlRecovery.Proofs.Sql.Levels
import SqlRecovery.Proofs.Sql.Slice

/-! A statement is marked once as a whole, and slices of it are read again by themselves, from
outside of everything. Both agree, whatever is left open in the statement: a slice that begins at
the top level has the marks that it has in the whole, and a list falls apart at the commas that are
marked in it and nowhere else. -/
namespace SqlRecovery.Sql
open Text

/-- Where a list has its commas at the top level. -/
def cuts (n : Nesting) (s : List Char) : List Nat :=
  (List.range s.length).filter fun i => (levels n s)[i]? == some (',', true)

/-- What stands between the cuts from a position on, each cut being a character wide. -/
def between (s : List Char) : Nat → List Nat → List (List Char)
  | start, [] => [s.drop start]
  | start, i :: is => (s.drop start).take (i - start) :: between s (i + 1) is

section Flags
variable {s : List Char} {a : Nat}

/-- From the top level on, a text has the flags that it has by itself. -/
theorem flags_drop (h : a = s.length ∨ (Nesting.outside.flags s)[a]? = some true) :
    (Nesting.outside.flags s).drop a = Nesting.outside.flags (s.drop a) := by
  have hall : Nesting.outside.flags s =
      Nesting.outside.flags (s.take a) ++ (Nesting.outside.after (s.take a)).flags (s.drop a) := by
    rw [← Nesting.flags_append, List.take_append_drop]
  rcases h with rfl | h
  · simp [Nesting.flags]
  · have ha : a < s.length := by
      simpa using (List.getElem?_eq_some_iff.mp h).1
    have hlength : (Nesting.outside.flags (s.take a)).length = a := by
      simp [Nat.le_of_lt ha]
    have htop : Nesting.outside.after (s.take a) = .outside := by
      rw [hall, List.getElem?_append_right (by omega), hlength, Nat.sub_self,
        List.drop_eq_getElem_cons ha] at h
      exact eq_outside_of_isTop (Option.some.inj h)
    rw [hall, List.drop_left' hlength, htop]

theorem flags_take (n : Nesting) (s : List Char) (k : Nat) :
    n.flags (s.take k) = (n.flags s).take k := by
  induction s generalizing n k with
  | nil => simp [Nesting.flags]
  | cons c s ih =>
    cases k with
    | zero => rfl
    | succ k => rw [List.take_succ_cons, Nesting.flags, Nesting.flags, ih, List.take_succ_cons]

/-- A slice that begins at the top level has the flags that it has in the whole text. -/
theorem flags_slice (h : a = s.length ∨ (Nesting.outside.flags s)[a]? = some true) (k : Nat) :
    Nesting.outside.flags ((s.drop a).take k) = ((Nesting.outside.flags s).drop a).take k := by
  rw [flags_take, flags_drop h]

end Flags

section Cuts

theorem cuts_append (n : Nesting) (s t : List Char) :
    cuts n (s ++ t) = cuts n s ++ (cuts (n.after s) t).map (s.length + ·) := by
  have hlength : (levels n s).length = s.length := by simp [levels]
  simp only [cuts, List.length_append, List.range_add, List.filter_append, levels_append]
  congr 1
  · refine List.filter_congr fun i hi => ?_
    rw [List.getElem?_append_left (by rw [hlength]; exact List.mem_range.mp hi)]
  · rw [List.filter_map]
    congr 1
    refine List.filter_congr fun i _ => ?_
    rw [Function.comp_apply, List.getElem?_append_right (by omega), hlength,
      Nat.add_sub_cancel_left]

theorem cuts_cons (n : Nesting) (c : Char) (s : List Char) :
    cuts n (c :: s) =
      (if c == ',' && n.isTop then [0] else []) ++ (cuts (n.step c) s).map (1 + ·) := by
  have hone : cuts n [c] = if c == ',' && n.isTop then [0] else [] := by
    simp [cuts, levels, Nesting.flags, List.range_succ, List.filter_cons]
  exact hone ▸ cuts_append n [c] s

private theorem between_shift (c : Char) (s : List Char) (start : Nat) (is : List Nat) :
    between (c :: s) (1 + start) (is.map (1 + ·)) = between s start is := by
  induction is generalizing start with
  | nil => simp [between, Nat.add_comm 1]
  | cons i is ih =>
    rw [List.map_cons, between, between, Nat.add_assoc, ih, Nat.add_sub_add_left,
      Nat.add_comm 1 start, List.drop_succ_cons]

private theorem between_front (c : Char) (s : List Char) (is : List Nat) :
    between (c :: s) 0 (is.map (1 + ·)) = (between s 0 is).modifyHead (c :: ·) := by
  cases is with
  | nil => rfl
  | cons i is =>
    rw [List.map_cons, between, between, Nat.add_assoc, between_shift, List.modifyHead_cons]
    simp [Nat.add_comm 1]

/-- The pieces of a list are what stands between its commas at the top level. -/
theorem pieces_eq_between (n : Nesting) (s : List Char) : n.pieces s = between s 0 (cuts n s) := by
  induction s generalizing n with
  | nil => rfl
  | cons c s ih =>
    rw [Nesting.pieces, cuts_cons, ih]
    split
    · exact congrArg ([] :: ·) (between_shift c s 0 _).symm
    · exact (between_front c s _).symm

open Bytewise in
/-- The commas at the top level are marked in the bytes where they stand in the text. -/
theorem cuts_bytes (n : Nesting) (s : List Char) :
    cuts n (bytes s) = (cuts n s).map (offset s) := by
  induction s generalizing n with
  | nil => rfl
  | cons c s ih =>
    have hoffset : ∀ i, offset (c :: s) (1 + i) = size [c] + offset s i := by
      intro i
      rw [Nat.add_comm, offset, List.take_succ_cons, size_cons, offset]
    have hone : cuts n (bytes [c]) = if c == ',' && n.isTop then [0] else [] := by
      rcases Nat.lt_or_ge c.toNat 0x80 with hc | hc
      · rw [bytes_ascii hc, cuts_cons]
        exact List.append_nil _
      · rw [ne_of_not_ascii hc (by decide), Bool.false_and, if_neg Bool.false_ne_true, cuts,
          List.filter_eq_nil_iff]
        intro i _ hi
        obtain ⟨hlt, heq⟩ := List.getElem?_eq_some_iff.mp (beq_iff_eq.mp hi)
        have hmem : ',' ∈ bytes [c] :=
          (List.of_mem_zip (heq ▸ List.getElem_mem hlt : (',', true) ∈ levels n (bytes [c]))).1
        exact absurd (bytes_not_ascii hc _ hmem) (by decide)
    rw [bytes_cons, cuts_append, hone, after_bytes, ih, cuts_cons, List.map_append, List.map_map,
      List.map_map]
    congr 1
    · split <;> rfl
    · exact List.map_congr_left fun i _ => (hoffset i).symm

end Cuts

section Items
variable {s part : List Char}

/-- An item that is not empty is the only item of itself. -/
theorem items_of_mem_items (h : part ∈ items s) (hne : part ≠ []) : items part = [part] := by
  rw [items] at h
  split at h
  case isTrue => cases h
  case isFalse =>
    obtain ⟨q, hq, rfl⟩ := List.mem_map.mp h
    have hblank : ¬ allBlank (trim q) = true := by
      intro hblank
      apply hne
      rw [← trim_trim, trim_of_allBlank hblank]
    rw [pieces_eq_levelParting] at hq
    have halone : Nesting.outside.pieces (trim q) = [trim q] := by
      rw [pieces_eq_levelParting]
      exact Parting.pieces_trim (Parting.pieces_of_mem hq)
    rw [items, if_neg hblank, halone, List.map_singleton, trim_trim]

end Items

section Rescan
open Bytewise

/-- A slice between two bytes that begins at the top level is marked by itself as it is in the whole
text. -/
theorem marks_slice {s part : List Char} {a b : Nat} (hslice : slice s a b = .ok part)
    (h : a = size s ∨ (marks s)[a]? = some true) :
    marks part = ((marks s).drop a).take (b - a) := by
  obtain ⟨front, back, rfl, rfl, rfl⟩ := slice_eq_ok_iff.mp hslice
  have hpart : bytes part =
      ((bytes (front ++ (part ++ back))).drop (size front)).take (size part) := by
    simp [size]
  rw [marks, hpart, flags_slice h, Nat.add_sub_cancel_left, marks]

/-- Slices of a statement are read again as they were read in the whole. Between any two places
between characters, of which the first is the end or stands at the top level, the slice has the
marks of the whole, byte by byte and character by character. A list that is not blank falls apart
exactly at the commas that are marked in it, and its items are what stands between them, trimmed.
An item that is not empty is the only item of itself. -/
theorem rescan_agrees (sql : List Char) :
    (∀ a b, a ≤ b → Edge sql a → Edge sql b → (a = size sql ∨ (marks sql)[a]? = some true) →
      ∃ part, slice sql a b = .ok part ∧ marks part = ((marks sql).drop a).take (b - a)) ∧
    (∀ a b, (a = sql.length ∨ ((Scan.ofText sql).map (·.top))[a]? = some true) →
      (Scan.ofText ((Scan.ofText sql).slice a b)).map (·.top) =
        (((Scan.ofText sql).map (·.top)).drop a).take (b - a)) ∧
    (¬ allBlank sql = true → items sql = (between sql 0 (cuts .outside sql)).map trim) ∧
    cuts .outside (bytes sql) = (cuts .outside sql).map (offset sql) ∧
    ∀ part ∈ items sql, part ≠ [] → items part = [part] := by
  have htops : ∀ s, (Scan.ofText s).map (·.top) = Nesting.outside.flags s :=
    Scan.map_top_spots .outside false
  refine ⟨?_, ?_, ?_, cuts_bytes .outside sql, fun part => items_of_mem_items⟩
  · intro a b hab ha hb h
    obtain ⟨front, back, hsql, hsize⟩ := id hb
    have hle : b ≤ size sql := by
      rw [hsql, size_append]
      omega
    obtain ⟨part, hslice⟩ := exists_slice_iff.mpr ⟨hab, hle, ha, hb⟩
    exact ⟨part, hslice, marks_slice hslice h⟩
  · intro a b h
    rw [htops] at h
    rw [htops, htops, slice_ofText, flags_slice h]
  · intro h
    rw [items, if_neg h, pieces_eq_between]

/-- A parenthesis that closes nothing and a literal that is not ended, with characters of more than
one byte. -/
def unevenList : List Char := "é), b 'ü, (".toList

theorem rescan_agrees_uneven :
    Edge unevenList 4 ∧ Edge unevenList 10 ∧ (marks unevenList)[4]? = some true ∧
    (∃ part, slice unevenList 4 10 = .ok part ∧
      marks part = ((marks unevenList).drop 4).take 6) ∧
    ¬ allBlank unevenList = true ∧
    items unevenList = ["é)".toList, "b 'ü, (".toList] ∧
    "b 'ü, (".toList ≠ [] ∧ items "b 'ü, (".toList = ["b 'ü, (".toList] := by
  have hfront : Edge unevenList 4 := ⟨"é),".toList, " b 'ü, (".toList, rfl, rfl⟩
  have hback : Edge unevenList 10 := ⟨"é), b 'ü".toList, ", (".toList, rfl, rfl⟩
  have htop : (marks unevenList)[4]? = some true := rfl
  have hblank : ¬ allBlank unevenList = true := by decide
  have hitems : (between unevenList 0 (cuts .outside unevenList)).map trim =
      ["é)".toList, "b 'ü, (".toList] := by decide
  have hne : "b 'ü, (".toList ≠ [] := by decide
  obtain ⟨hslices, -, hlist, -, halone⟩ := rescan_agrees unevenList
  have hall := (hlist hblank).trans hitems
  refine ⟨hfront, hback, htop, hslices 4 10 (by decide) hfront hback (.inr htop), hblank, hall,
    hne, halone _ ?_ hne⟩
  rw [hall]
  exact List.mem_cons_of_mem _ List.mem_cons_self

end Rescan

end SqlRecovery.Sql
