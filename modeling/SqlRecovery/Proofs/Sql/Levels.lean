import SqlRecovery.Proofs.Sql.Items

/-! The characters of a text with their levels. What stands inside parentheses and literals can be
read off the text without the blanks at the top level, so these may change. -/
namespace SqlRecovery.Sql
open Text

/-- The characters, each with the mark whether it stands at the top level. -/
def levels (n : Nesting) (s : List Char) : List (Char × Bool) := s.zip (n.flags s)

/-- The maximal runs of characters that do not stand at the top level. -/
def innerRuns (s : List Char) : List (List Char) :=
  (((levels .outside s).splitOnP (·.2)).filter (!·.isEmpty)).map (·.map (·.1))

/-- The characters with their levels, without the blanks at the top level. -/
def outline (n : Nesting) (s : List Char) : List (Char × Bool) :=
  (levels n s).filter fun x => !(x.2 && isBlank x.1)

variable {n : Nesting} {c : Char}

theorem after_of_allBlank {w : List Char} (h : allBlank w = true) (n : Nesting) : n.after w = n := by
  rw [← after_ink, ink_eq_nil_iff.mpr h]
  rfl

theorem after_trim (n : Nesting) (s : List Char) : n.after (trim s) = n.after s := by
  rw [← after_ink, ink_trim, after_ink]

theorem levels_cons (n : Nesting) (c : Char) (s : List Char) :
    levels n (c :: s) = (c, n.isTop) :: levels (n.step c) s := rfl

theorem levels_append (n : Nesting) (s t : List Char) :
    levels n (s ++ t) = levels n s ++ levels (n.after s) t := by
  rw [levels, Nesting.flags_append, List.zip_append (Nesting.length_flags n s).symm, levels, levels]

theorem outline_append (n : Nesting) (s t : List Char) :
    outline n (s ++ t) = outline n s ++ outline (n.after s) t := by
  rw [outline, levels_append, List.filter_append, outline, outline]

private theorem outline_cons (n : Nesting) (c : Char) (s : List Char) :
    outline n (c :: s) =
      (if n.isTop && isBlank c then [] else [(c, n.isTop)]) ++ outline (n.step c) s := by
  rw [outline, levels_cons, List.filter_cons]
  cases n.isTop && isBlank c <;> rfl

/-- Blanks at the top level leave no trace. -/
theorem outline_of_allBlank {w : List Char} (h : allBlank w = true) : outline .outside w = [] := by
  induction w with
  | nil => rfl
  | cons c w ih =>
    rw [allBlank, List.all_cons, Bool.and_eq_true] at h
    rw [outline_cons, h.1, step_of_blank h.1, ih h.2]
    rfl

/-- The characters of an outline are those of the text that are not blank, and blanks inside. -/
private theorem ink_outline (n : Nesting) (s : List Char) :
    ink ((outline n s).map (·.1)) = ink s := by
  induction s generalizing n with
  | nil => rfl
  | cons c s ih =>
    rw [outline_cons, List.map_append, ink_append, ih]
    cases hc : isBlank c with
    | false =>
      rw [ink_cons_of_not_blank hc, Bool.and_false]
      exact congrArg (· ++ ink s) (ink_cons_of_not_blank hc [])
    | true =>
      rw [ink_cons_of_blank hc]
      cases n.isTop with
      | false => exact congrArg (· ++ ink s) (ink_cons_of_blank hc [])
      | true => rfl

/-- Texts of one outline lead to the same nesting. -/
theorem after_eq_of_outline_eq {m : Nesting} {s t : List Char} (h : outline n s = outline m t)
    (k : Nesting) : k.after s = k.after t := by
  rw [← after_ink, ← ink_outline n s, h, ink_outline, after_ink]

/-- The pieces that the runs are made of. At the top level the first piece is empty. -/
private theorem splitOnP_levels (n : Nesting) (s : List Char) :
    ∃ p ps qs, (levels n s).splitOnP (·.2) = p :: ps ∧ (outline n s).splitOnP (·.2) = p :: qs ∧
      ps.filter (!·.isEmpty) = qs.filter (!·.isEmpty) ∧ (n.isTop = true → p = []) := by
  induction s generalizing n with
  | nil => exact ⟨[], [], [], rfl, rfl, rfl, fun _ => rfl⟩
  | cons c s ih =>
    obtain ⟨p, ps, qs, hp, hq, hfilter, htop⟩ := ih (n.step c)
    rw [levels_cons, outline_cons, List.splitOnP_cons_eq_if_modifyHead, hp]
    cases hn : n.isTop with
    | false =>
      refine ⟨(c, false) :: p, ps, qs, rfl, ?_, hfilter, fun h => by cases h⟩
      rw [Bool.false_and, if_neg Bool.false_ne_true, List.singleton_append,
        List.splitOnP_cons_eq_if_modifyHead, hq]
      rfl
    | true =>
      rw [Bool.true_and]
      cases hc : isBlank c with
      | true =>
        rw [step_of_blank hc] at hq htop
        obtain rfl := htop hn
        exact ⟨[], [] :: ps, qs, rfl, by rw [step_of_blank hc]; exact hq, hfilter, fun _ => rfl⟩
      | false =>
        refine ⟨[], p :: ps, p :: qs, rfl, ?_, ?_, fun _ => rfl⟩
        · rw [if_neg Bool.false_ne_true, List.singleton_append,
            List.splitOnP_cons_eq_if_modifyHead, hq]
          rfl
        · rw [List.filter_cons, List.filter_cons, hfilter]

/-- An outline determines what stands inside parentheses and literals. -/
theorem innerRuns_eq_of_outline_eq {s t : List Char} (h : outline .outside s = outline .outside t) :
    innerRuns s = innerRuns t := by
  obtain ⟨p, ps, qs, hp, hq, hfilter, -⟩ := splitOnP_levels .outside s
  obtain ⟨p', ps', qs', hp', hq', hfilter', -⟩ := splitOnP_levels .outside t
  rw [h, hq', List.cons.injEq] at hq
  obtain ⟨rfl, rfl⟩ := hq
  rw [innerRuns, innerRuns, hp, hp', List.filter_cons, List.filter_cons, hfilter, hfilter']

section Single
variable {x : List Char}

/-- A text without a comma at the top level goes to one piece. -/
private theorem pieces_append_of_single (h : (',', true) ∉ levels n x) (z : List Char) :
    n.pieces (x ++ z) = ((n.after x).pieces z).modifyHead (x ++ ·) := by
  induction x generalizing n with
  | nil =>
    change n.pieces z = (n.pieces z).modifyHead id
    rw [List.modifyHead_id, id]
  | cons c x ih =>
    rw [levels_cons, List.mem_cons, not_or] at h
    have hcomma : (c == ',' && n.isTop) = false := by
      rw [← Bool.not_eq_true, Bool.and_eq_true, beq_iff_eq]
      rintro ⟨rfl, htop⟩
      exact h.1 (by rw [htop])
    rw [List.cons_append, Nesting.pieces, hcomma, if_neg Bool.false_ne_true, ih h.2,
      List.modifyHead_modifyHead, after_cons]
    rfl

/-- A text on one line that closes what it opens, without a comma at the top level. -/
structure Item (x : List Char) : Prop where
  neat : Neat x
  closed : Nesting.outside.after x = .outside
  single : (',', true) ∉ levels .outside x

private theorem pieces_list {xs : List (List Char)} (hx : Item x) (hxs : ∀ y ∈ xs, Item y) :
    Nesting.outside.pieces (joinWith ", ".toList (x :: xs)) = x :: xs.map (' ' :: ·) := by
  rw [joinWith_cons]
  induction xs generalizing x with
  | nil =>
    rw [List.flatMap_nil, pieces_append_of_single hx.single, hx.closed]
    exact congrArg (· :: []) (List.append_nil x)
  | cons y xs ih =>
    rw [List.forall_mem_cons] at hxs
    have hcomma : ∀ u, Nesting.outside.pieces (',' :: ' ' :: u) =
        [] :: (Nesting.outside.pieces u).modifyHead (' ' :: ·) := fun u => rfl
    rw [List.flatMap_cons, pieces_append_of_single hx.single, hx.closed, List.append_assoc]
    change (Nesting.outside.pieces (',' :: ' ' :: (y ++ _))).modifyHead (x ++ ·) = _
    rw [hcomma, ih hxs.1 hxs.2, List.modifyHead_cons, List.modifyHead_cons, List.append_nil,
      List.map_cons]

/-- A list is taken apart into the items that it was written with. -/
theorem items_list {xs : List (List Char)} (hne : xs ≠ []) (hxs : ∀ x ∈ xs, Item x) :
    items (joinWith ", ".toList xs) = xs := by
  obtain ⟨x, xs, rfl⟩ := List.exists_cons_of_ne_nil hne
  obtain ⟨hx, hxs⟩ := List.forall_mem_cons.mp hxs
  have hlist := neat_joinWith hx.neat fun y hy => (hxs y hy).neat
  have hblank : ¬ allBlank (joinWith ", ".toList (x :: xs)) = true := by
    intro h
    rw [← trim_eq_nil_iff, hlist.trimmed] at h
    exact hlist.nonempty h
  have htrim : ∀ y ∈ xs, trim (' ' :: y) = y := by
    intro y hy
    have hspace : allBlank [' '] = true := rfl
    rw [← List.singleton_append, trim_of_allBlank_append hspace, (hxs y hy).neat.trimmed]
  rw [items, if_neg hblank, pieces_list hx hxs, List.map_cons, hx.neat.trimmed, List.map_map]
  exact congrArg (x :: ·) ((List.map_congr_left htrim).trans (List.map_id xs))

end Single

end SqlRecovery.Sql
