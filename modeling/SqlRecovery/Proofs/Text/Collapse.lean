import SqlRecovery.Proofs.Text.Ink

/-! The one-line form of a text is written from its marked characters, and trimming a text that is
on one line writes it anew. -/
namespace SqlRecovery.Text

theorem joinWith_cons (separator w : List Char) (ws : List (List Char)) :
    joinWith separator (w :: ws) = w ++ ws.flatMap (separator ++ ·) := by
  induction ws generalizing w with
  | nil => simp [joinWith, List.intercalate]
  | cons v ws ih =>
    have hcons : joinWith separator (w :: v :: ws) = w ++ (separator ++ joinWith separator (v :: ws)) := by
      simp [joinWith, List.intercalate]
    rw [hcons, ih, List.flatMap_cons, List.append_assoc]

private theorem write_cons (x : Char × Bool) (g : List (Char × Bool)) :
    write (x :: g) = (if x.2 then [' ', x.1] else [x.1]) ++ write g := List.flatMap_cons

theorem words_append_space (s t : List Char) : words (s ++ ' ' :: t) = words s ++ words t := by
  rw [words, List.splitOnP_append_cons s t rfl, List.filter_append, words, words]

/-- Behind a blank, and behind a character that is none. -/
private theorem write_glyphs (s h : List Char) (ts : List (List Char))
    (hs : s.splitOnP isBlank = h :: ts) :
    write (glyphs true s) = ((h :: ts).filter (!·.isEmpty)).flatMap ([' '] ++ ·) ∧
      write (glyphs false s) = h ++ (ts.filter (!·.isEmpty)).flatMap ([' '] ++ ·) := by
  induction s generalizing h ts with
  | nil =>
    rw [List.splitOnP_nil, List.cons.injEq] at hs
    obtain ⟨rfl, rfl⟩ := hs
    exact ⟨rfl, rfl⟩
  | cons c s ih =>
    obtain ⟨k, us, hk⟩ := List.exists_cons_of_ne_nil (List.splitOnP_ne_nil isBlank s)
    obtain ⟨htrue, hfalse⟩ := ih k us hk
    rw [List.splitOnP_cons_eq_if_modifyHead, hk] at hs
    cases hc : isBlank c with
    | true =>
      rw [hc, if_pos rfl, List.cons.injEq] at hs
      obtain ⟨rfl, rfl⟩ := hs
      rw [glyphs_cons_of_blank hc, glyphs_cons_of_blank hc, htrue]
      exact ⟨rfl, rfl⟩
    | false =>
      rw [hc, if_neg Bool.false_ne_true, List.modifyHead_cons, List.cons.injEq] at hs
      obtain ⟨rfl, rfl⟩ := hs
      rw [glyphs_cons_of_not_blank hc, glyphs_cons_of_not_blank hc, write_cons, write_cons, hfalse]
      exact ⟨rfl, rfl⟩

private theorem glyphs_true (s : List Char) :
    glyphs true s = [] ∨ ∃ c g, glyphs true s = (c, true) :: g := by
  induction s with
  | nil => exact .inl rfl
  | cons c s ih =>
    cases hc : isBlank c with
    | true => rwa [glyphs_cons_of_blank hc]
    | false => exact .inr ⟨c, _, glyphs_cons_of_not_blank hc _ _⟩

theorem collapse_eq (s : List Char) : collapse s = write (unmark (glyphs true s)) := by
  obtain ⟨h, ts, hs⟩ := List.exists_cons_of_ne_nil (List.splitOnP_ne_nil isBlank s)
  have hwrite := (write_glyphs s h ts hs).1
  rw [← hs] at hwrite
  change write (glyphs true s) = (words s).flatMap ([' '] ++ ·) at hwrite
  rw [collapse]
  rcases glyphs_true s with hg | ⟨c, g, hg⟩
  · rw [hg] at hwrite ⊢
    cases hw : words s with
    | nil => rfl
    | cons w ws =>
      rw [hw] at hwrite
      cases hwrite
  · rw [hg] at hwrite ⊢
    cases hw : words s with
    | nil =>
      rw [hw] at hwrite
      cases hwrite
    | cons w ws =>
      rw [hw] at hwrite
      rw [joinWith_cons]
      exact (List.cons.inj hwrite).2.symm

private theorem unmark_unmark (g : List (Char × Bool)) : unmark (unmark g) = unmark g := by
  cases g <;> rfl

theorem not_blank_of_mem_unmark {apart : Bool} {s : List Char} {x : Char × Bool}
    (h : x ∈ unmark (glyphs apart s)) : isBlank x.1 = false := by
  have hx : x.1 ∈ (glyphs apart s).map (·.1) := by
    cases hg : glyphs apart s with
    | nil => simp [hg, unmark] at h
    | cons y g =>
      rw [hg, unmark, List.mem_cons] at h
      rcases h with rfl | h
      · simp
      · exact List.mem_map_of_mem (List.mem_cons_of_mem y h)
  obtain ⟨y, hy, hxy⟩ := List.mem_map.mp hx
  rw [← hxy]
  exact not_blank_of_mem_glyphs hy

theorem glyphs_collapse (s : List Char) : glyphs false (collapse s) = unmark (glyphs true s) := by
  rw [collapse_eq, glyphs_write fun x hx => not_blank_of_mem_unmark hx]

theorem unmark_glyphs_collapse (a b : Bool) (s : List Char) :
    unmark (glyphs a (collapse s)) = unmark (glyphs b s) := by
  rw [unmark_glyphs a false, glyphs_collapse, unmark_unmark, unmark_glyphs true b]

/-- Texts of the same marked characters have the same one-line form. -/
theorem collapse_congr {a b : Bool} {s t : List Char}
    (h : unmark (glyphs a s) = unmark (glyphs b t)) : collapse s = collapse t := by
  rw [collapse_eq, collapse_eq, unmark_glyphs true a, unmark_glyphs true b, h]

theorem collapse_collapse (s : List Char) : collapse (collapse s) = collapse s :=
  collapse_congr (unmark_glyphs_collapse false false s)

/-- The text is on one line: its blanks are spaces, and no two stand together. -/
def Tight : List Char → Prop
  | [] => True
  | c :: s => (isBlank c = true → c = ' ' ∧ (s.head?.map isBlank).getD false = false) ∧ Tight s

theorem Tight.of_append {s t : List Char} (h : Tight (s ++ t)) : Tight s ∧ Tight t := by
  induction s with
  | nil => exact ⟨trivial, h⟩
  | cons c s ih =>
    obtain ⟨hc, hrest⟩ := h
    obtain ⟨hs, ht⟩ := ih hrest
    refine ⟨⟨?_, hs⟩, ht⟩
    intro hblank
    refine ⟨(hc hblank).1, ?_⟩
    cases s with
    | nil => rfl
    | cons d s => exact (hc hblank).2

private theorem tight_write {g : List (Char × Bool)} (h : ∀ x ∈ g, isBlank x.1 = false) :
    Tight (write g) := by
  induction g with
  | nil => trivial
  | cons x g ih =>
    obtain ⟨c, apart⟩ := x
    have hc : isBlank c = false := h (c, apart) List.mem_cons_self
    have hrest : Tight (c :: write g) := by
      refine ⟨fun hblank => ?_, ih fun y hy => h y (List.mem_cons_of_mem _ hy)⟩
      rw [hc] at hblank
      cases hblank
    cases apart with
    | false => exact hrest
    | true =>
      change Tight (' ' :: c :: write g)
      exact ⟨fun _ => ⟨rfl, by simp [hc]⟩, hrest⟩

theorem tight_collapse (s : List Char) : Tight (collapse s) := by
  rw [collapse_eq]
  exact tight_write fun x hx => not_blank_of_mem_unmark hx

private theorem trimEnd_of_tight {s : List Char} (h : Tight s) :
    trimEnd s = write (glyphs false s) := by
  induction s with
  | nil => rfl
  | cons c s ih =>
    have hs := ih h.2
    rw [trimEnd_cons, hs]
    cases hc : isBlank c with
    | false =>
      rw [glyphs_cons_of_not_blank hc]
      rfl
    | true =>
      obtain ⟨rfl, hnext⟩ := h.1 hc
      rw [glyphs_cons_of_blank hc]
      cases s with
      | nil => rfl
      | cons d s =>
        have hd : isBlank d = false := hnext
        rw [glyphs_cons_of_not_blank hd, glyphs_cons_of_not_blank hd]
        rfl

theorem trim_of_tight {s : List Char} (h : Tight s) : trim s = collapse s := by
  rw [collapse_eq]
  induction s with
  | nil => rfl
  | cons c s ih =>
    cases hc : isBlank c with
    | true =>
      rw [glyphs_cons_of_blank hc, ← ih h.2, trim, trimStart_cons_of_blank hc, trim]
    | false =>
      rw [glyphs_cons_of_not_blank hc, trim, trimStart_cons_of_not_blank hc, trimEnd_of_tight h,
        glyphs_cons_of_not_blank hc]
      rfl

theorem head?_trim {s : List Char} (h : Tight s) : (trim s).head? = (ink s).head? := by
  rw [trim_of_tight h, collapse_eq, ← map_fst_glyphs true s]
  cases glyphs true s <;> rfl

private theorem getLast?_write (g : List (Char × Bool)) :
    (write g).getLast? = (g.map (·.1)).getLast? := by
  induction g with
  | nil => rfl
  | cons x g ih =>
    have hx : (if x.2 then [' ', x.1] else [x.1]).getLast? = [x.1].getLast? := by
      cases x.2 <;> rfl
    rw [write_cons, List.getLast?_append, ih, hx, ← List.getLast?_append]
    rfl

theorem getLast?_trim {s : List Char} (h : Tight s) : (trim s).getLast? = (ink s).getLast? := by
  have hmark : (unmark (glyphs true s)).map (·.1) = ink s := by
    rw [← map_fst_glyphs true s]
    cases glyphs true s <;> rfl
  rw [trim_of_tight h, collapse_eq, getLast?_write, hmark]

private theorem getLast?_append_of_ne_nil {s t : List Char} (ht : t ≠ []) :
    (s ++ t).getLast? = t.getLast? := by
  rw [List.getLast?_append, List.getLast?_eq_some_getLast ht, Option.some_or]

private theorem Tight.append {s t : List Char} (hs : Tight s) (ht : Tight t)
    (hhead : ∀ c ∈ t.head?, isBlank c = false) : Tight (s ++ t) := by
  induction s with
  | nil => exact ht
  | cons c s ih =>
    refine ⟨fun hc => ⟨(hs.1 hc).1, ?_⟩, ih hs.2⟩
    cases s with
    | nil =>
      cases t with
      | nil => rfl
      | cons d t => exact hhead d rfl
    | cons d s => exact (hs.1 hc).2

/-- A text that is its own one-line form, and not empty. -/
structure Neat (s : List Char) : Prop where
  nonempty : s ≠ []
  collapsed : collapse s = s

instance (s : List Char) : Decidable (Neat s) :=
  decidable_of_iff (s ≠ [] ∧ collapse s = s) ⟨fun h => ⟨h.1, h.2⟩, fun h => ⟨h.1, h.2⟩⟩

namespace Neat

variable {s t : List Char}

theorem tight (h : Neat s) : Tight s := by
  rw [← h.collapsed]
  exact tight_collapse s

theorem trimmed (h : Neat s) : trim s = s := by rw [trim_of_tight h.tight, h.collapsed]

theorem not_blank_head? (h : Neat s) : ∀ c ∈ s.head?, isBlank c = false := by
  intro c hc
  rw [← h.trimmed, head?_trim h.tight] at hc
  exact not_blank_of_mem_ink (List.mem_of_mem_head? hc)

theorem not_blank_getLast? (h : Neat s) : ∀ c ∈ s.getLast?, isBlank c = false := by
  intro c hc
  rw [← h.trimmed, getLast?_trim h.tight] at hc
  exact not_blank_of_mem_ink (List.mem_of_getLast? hc)

theorem of_tight (hne : s ≠ []) (hs : Tight s) (hhead : ∀ c ∈ s.head?, isBlank c = false)
    (hlast : ∀ c ∈ s.getLast?, isBlank c = false) : Neat s :=
  ⟨hne, by rw [← trim_of_tight hs, trim_eq_self hhead hlast]⟩

theorem append (hs : Neat s) (ht : Neat t) : Neat (s ++ t) := by
  refine of_tight (List.append_ne_nil_of_left_ne_nil hs.nonempty t)
    (hs.tight.append ht.tight ht.not_blank_head?) ?_ ?_
  · obtain ⟨c, u, rfl⟩ := List.exists_cons_of_ne_nil hs.nonempty
    exact hs.not_blank_head?
  · rw [getLast?_append_of_ne_nil ht.nonempty]
    exact ht.not_blank_getLast?

/-- A comma and a space in front of a text leave it on one line. -/
theorem comma (ht : Neat t) : Neat (',' :: ' ' :: t) := by
  have hhead : (t.head?.map isBlank).getD false = false := by
    obtain ⟨c, u, rfl⟩ := List.exists_cons_of_ne_nil ht.nonempty
    exact ht.not_blank_head? c rfl
  have hcomma : ∀ c ∈ (',' :: ' ' :: t).head?, isBlank c = false := by
    rintro c ⟨⟩
    rfl
  refine of_tight (List.cons_ne_nil _ _) ⟨?_, fun _ => ⟨rfl, hhead⟩, ht.tight⟩ hcomma ?_
  · intro h
    cases h
  · change ∀ c ∈ ([',', ' '] ++ t).getLast?, isBlank c = false
    rw [getLast?_append_of_ne_nil ht.nonempty]
    exact ht.not_blank_getLast?

private theorem exists_words (h : Neat s) : ∃ w ws, words s = w :: ws := by
  refine List.exists_cons_of_ne_nil fun hnil => h.nonempty ?_
  rw [← h.collapsed, collapse, hnil]
  rfl

/-- Two texts with a space between them are on one line. -/
theorem space (hs : Neat s) (ht : Neat t) : Neat (s ++ ' ' :: t) := by
  refine ⟨List.append_ne_nil_of_left_ne_nil hs.nonempty _, ?_⟩
  obtain ⟨w, ws, hw⟩ := hs.exists_words
  obtain ⟨v, vs, hv⟩ := ht.exists_words
  have hleft := hs.collapsed
  have hright := ht.collapsed
  rw [collapse, hw, joinWith_cons] at hleft
  rw [collapse, hv, joinWith_cons] at hright
  rw [collapse, words_append_space, hw, hv, List.cons_append, joinWith_cons, List.flatMap_append,
    List.flatMap_cons, ← List.append_assoc, hleft, List.append_assoc, hright]
  rfl

/-- A text without blanks is on one line. -/
theorem of_not_blank (hne : s ≠ []) (hs : ∀ c ∈ s, isBlank c = false) : Neat s := by
  refine of_tight hne ?_ (fun c hc => hs c (List.mem_of_mem_head? hc))
    (fun c hc => hs c (List.mem_of_getLast? hc))
  clear hne
  induction s with
  | nil => trivial
  | cons c s ih =>
    refine ⟨fun hc => ?_, ih fun d hd => hs d (List.mem_cons_of_mem c hd)⟩
    rw [hs c List.mem_cons_self] at hc
    cases hc

end Neat

/-- What passes from two texts to both with a comma between them passes from texts to their list. -/
theorem joinWith_induction {P : List Char → Prop}
    (hcomma : ∀ s t, P s → P t → P (s ++ ',' :: ' ' :: t)) {ts : List (List Char)} (hne : ts ≠ [])
    (hts : ∀ t ∈ ts, P t) : P (joinWith ", ".toList ts) := by
  induction ts with
  | nil => exact absurd rfl hne
  | cons s ts ih =>
    rw [List.forall_mem_cons] at hts
    cases ts with
    | nil =>
      rw [joinWith_cons, List.flatMap_nil, List.append_nil]
      exact hts.1
    | cons t ts =>
      have hrest := ih (List.cons_ne_nil t ts) hts.2
      rw [joinWith_cons] at hrest
      rw [joinWith_cons, List.flatMap_cons, List.append_assoc]
      exact hcomma s _ hts.1 hrest

/-- Texts on one line are a list on one line. -/
theorem neat_joinWith {s : List Char} {ts : List (List Char)} (hs : Neat s) (hts : ∀ t ∈ ts, Neat t) :
    Neat (joinWith ", ".toList (s :: ts)) :=
  joinWith_induction (fun _ _ hs ht => hs.append ht.comma) (List.cons_ne_nil s ts)
    (List.forall_mem_cons.mpr ⟨hs, hts⟩)

end SqlRecovery.Text
