import SqlRecovery.Proofs.Sql.Mention
import SqlRecovery.Proofs.Sql.Recall
import SqlRecovery.Proofs.Sql.Slice

/-! Statements that are put together from clauses, each a keyword phrase with a text behind it. A
search for the phrases stops where the clauses begin, and nowhere in the texts. -/
namespace SqlRecovery.Sql
open Text

/-- The keyword phrases of a kind of statements. -/
structure Vocabulary where
  phrases : List String
  worded : ∀ p ∈ phrases, Worded p

/-- A text that has no part in the structure of a statement. It is on one line, closes what it opens,
and mentions no word of any phrase outside parentheses and literals. -/
structure Inert (v : Vocabulary) (x : List Char) : Prop where
  neat : Neat x
  closed : Nesting.outside.after x = .outside
  silent : ∀ p ∈ v.phrases, ∀ w ∈ words p.toList, ¬ Mentions w x

instance (v : Vocabulary) (x : List Char) : Decidable (Inert v x) :=
  decidable_of_iff (Neat x ∧ Nesting.outside.after x = .outside ∧
      ∀ p ∈ v.phrases, ∀ w ∈ words p.toList, ¬ Mentions w x)
    ⟨fun h => ⟨h.1, h.2.1, h.2.2⟩, fun h => ⟨h.1, h.2, h.3⟩⟩

namespace Inert
variable {v : Vocabulary} {x y : List Char}

theorem space (hx : Inert v x) (hy : Inert v y) : Inert v (x ++ ' ' :: y) where
  neat := hx.neat.space hy.neat
  closed := by
    rw [Nesting.after_append, hx.closed]
    exact hy.closed
  silent := by
    intro p hp w hw hmentions
    rcases mentions_parted hmentions (isWord_of_mem_words (v.worded p hp) hw) parting_space
      hx.closed with h | h
    · exact hx.silent p hp w hw h
    · exact hy.silent p hp w hw h

theorem comma (hx : Inert v x) (hy : Inert v y) : Inert v (x ++ ',' :: ' ' :: y) where
  neat := hx.neat.append hy.neat.comma
  closed := by
    rw [Nesting.after_append, hx.closed]
    exact hy.closed
  silent := by
    intro p hp w hw hmentions
    have hword := isWord_of_mem_words (v.worded p hp) hw
    rcases mentions_parted hmentions hword parting_comma hx.closed with h | h
    · exact hx.silent p hp w hw h
    · rcases mentions_parted (x := []) h hword parting_space rfl with h | h
      · exact not_mentions_nil w h
      · exact hy.silent p hp w hw h

/-- The words of a phrase, in any letter case, have no part in the structure if the phrase has none. -/
theorem of_spelling {p : String} {m : List Char} (hp : Worded p)
    (hm : sameLetters p.toList m = true) (h : ∀ q ∈ v.phrases, ∀ w ∈ words q.toList,
      ∀ i < p.toList.length, spelled w (p.toList.drop i) = false) : Inert v m where
  neat := neat_of_sameLetters hp hm
  closed := after_of_sameLetters hp hm .outside
  silent := by
    rintro q hq w hw ⟨i, hi, hstands⟩
    have hspelled := hstands.spelled
    rw [length_of_sameLetters hm] at hi
    rw [← spelled_congr (sameLetters_drop hm i), h q hq w hw i hi] at hspelled
    cases hspelled

/-- Texts that have no part in the structure are a list that has none. -/
theorem list {xs : List (List Char)} (hne : xs ≠ []) (hxs : ∀ x ∈ xs, Inert v x) :
    Inert v (joinWith ", ".toList xs) :=
  joinWith_induction (fun _ _ hx hy => hx.comma hy) hne hxs

end Inert

/-- A keyword phrase, spelled in any letter case, and the text behind it. -/
structure Clause (v : Vocabulary) where
  phrase : String
  listed : phrase ∈ v.phrases
  spelling : List Char
  spells : sameLetters phrase.toList spelling = true
  body : List Char
  inert : Inert v body

namespace Clause
variable {v : Vocabulary}

def text (c : Clause v) : List Char := c.spelling ++ ' ' :: c.body

/-- The clauses in a row. -/
def written (cs : List (Clause v)) : List Char := joinWith [' '] (cs.map text)

/-- Where the clauses `es` begin in the row of `cs` that they end. -/
def place (cs es : List (Clause v)) : Nat := (written cs).length - (written es).length

section Text
variable (c : Clause v)

theorem worded : Worded c.phrase := v.worded c.phrase c.listed

theorem length_spelling : c.spelling.length = c.phrase.length := by
  rw [length_of_sameLetters c.spells, String.length_toList]

theorem after_spelling : Nesting.outside.after c.spelling = .outside :=
  after_of_sameLetters c.worded c.spells .outside

theorem after_text : Nesting.outside.after c.text = .outside := by
  rw [text, Nesting.after_append, c.after_spelling]
  exact c.inert.closed

theorem neat_text : Neat c.text := (neat_of_sameLetters c.worded c.spells).space c.inert.neat

end Text

section Written
variable {c : Clause v} {cs es : List (Clause v)}

theorem written_singleton (c : Clause v) : written [c] = c.text := List.append_nil _

theorem written_cons (c d : Clause v) (es : List (Clause v)) :
    written (c :: d :: es) = c.text ++ ' ' :: written (d :: es) := by
  rw [written, written, List.map_cons, List.map_cons, joinWith_cons, joinWith_cons, List.flatMap_cons]
  rfl

/-- A run of clauses, and the clauses behind it. -/
theorem written_append (c : Clause v) (rs : List (Clause v)) (d : Clause v) (es : List (Clause v)) :
    written (c :: rs ++ d :: es) = written (c :: rs) ++ ' ' :: written (d :: es) := by
  induction rs generalizing c with
  | nil => rw [List.cons_append, List.nil_append, written_cons, written_singleton]
  | cons r rs ih =>
    rw [List.cons_append, List.cons_append, written_cons, ← List.cons_append, ih, written_cons,
      List.append_assoc]
    rfl

theorem neat_written (c : Clause v) (es : List (Clause v)) : Neat (written (c :: es)) := by
  induction es generalizing c with
  | nil =>
    rw [written_singleton]
    exact c.neat_text
  | cons d es ih =>
    rw [written_cons]
    exact c.neat_text.space (ih d)

theorem tight_written (h : (c :: es) <:+ cs) : Tight (written cs) := by
  cases cs with
  | nil => cases List.suffix_nil.mp h
  | cons d cs => exact (neat_written d cs).tight

end Written

section Place
variable {c : Clause v} {cs es : List (Clause v)}

theorem place_self (cs : List (Clause v)) : place cs cs = 0 := Nat.sub_self _

theorem place_nil (cs : List (Clause v)) : place cs [] = (written cs).length := rfl

/-- What stands before a clause is closed, and no name goes on from there. -/
private theorem exists_before (h : (c :: es) <:+ cs) : ∃ u, written cs = u ++ written (c :: es) ∧
    u.length = place cs (c :: es) ∧ Nesting.outside.after u = .outside ∧ glue false u = false := by
  have hbefore : ∃ u, written cs = u ++ written (c :: es) ∧ Nesting.outside.after u = .outside ∧
      glue false u = false := by
    obtain ⟨ds, rfl⟩ := h
    induction ds with
    | nil => exact ⟨[], rfl, rfl, rfl⟩
    | cons d ds ih =>
      obtain ⟨u, hu, hafter, hglue⟩ := ih
      obtain ⟨e, fs, he⟩ := List.exists_cons_of_ne_nil
        (List.append_ne_nil_of_right_ne_nil ds (List.cons_ne_nil c es))
      refine ⟨d.text ++ ' ' :: u, ?_, ?_, ?_⟩
      · rw [List.cons_append, he, written_cons, ← he, hu, List.append_assoc, List.cons_append]
      · rw [Nesting.after_append, d.after_text]
        exact hafter
      · rw [glue_append]
        exact hglue
  obtain ⟨u, hu, hafter, hglue⟩ := hbefore
  refine ⟨u, hu, ?_, hafter, hglue⟩
  rw [place, hu, List.length_append, Nat.add_sub_cancel]

theorem length_written_le (h : es <:+ cs) : (written es).length ≤ (written cs).length := by
  cases es with
  | nil => exact Nat.zero_le _
  | cons c es =>
    obtain ⟨u, hu, -⟩ := exists_before h
    rw [hu, List.length_append]
    exact Nat.le_add_left _ _

theorem place_mono (cs : List (Clause v)) {fs : List (Clause v)} (h : es <:+ fs) :
    place cs fs ≤ place cs es :=
  Nat.sub_le_sub_left (length_written_le h) _

theorem place_le (cs es : List (Clause v)) : place cs es ≤ (written cs).length := Nat.sub_le _ _

theorem drop_place (h : es <:+ cs) : (written cs).drop (place cs es) = written es := by
  cases es with
  | nil => rw [place_nil, List.drop_length]; rfl
  | cons c es =>
    obtain ⟨u, hu, hplace, -⟩ := exists_before h
    rw [← hplace, hu, List.drop_left]

/-- A clause ends before the next one, or with the statement. -/
theorem place_cons (h : (c :: es) <:+ cs) :
    place cs (c :: es) + c.text.length ≤ place cs es ∧
      place cs es ≤ place cs (c :: es) + c.text.length + 1 := by
  have hle := length_written_le h
  cases es with
  | nil =>
    rw [written_singleton] at hle
    rw [place_nil, place, written_singleton]
    omega
  | cons d es =>
    have hlength : (written (c :: d :: es)).length =
        c.text.length + (written (d :: es)).length + 1 := by
      rw [written_cons, List.length_append, List.length_cons]
      omega
    rw [place, place]
    omega

theorem place_lt (h : (c :: es) <:+ cs) : place cs (c :: es) + c.phrase.length < place cs es := by
  have hle := (place_cons h).1
  rw [text, List.length_append, c.length_spelling, List.length_cons] at hle
  omega

theorem suffix_of_cons (h : (c :: es) <:+ cs) : es <:+ cs := (List.suffix_cons c es).trans h

/-- A run of clauses as it is cut out of the row, with the space behind it. -/
private theorem exists_slice {rs : List (Clause v)} (h : (c :: rs ++ es) <:+ cs) :
    ∃ w, allBlank w = true ∧
      (Scan.ofText (written cs)).slice (place cs (c :: rs ++ es)) (place cs es) =
        written (c :: rs) ++ w := by
  have hle := length_written_le h
  have hle' := length_written_le ((List.suffix_append (c :: rs) es).trans h)
  have hcount : place cs es - place cs (c :: rs ++ es) =
      (written (c :: rs ++ es)).length - (written es).length := by
    rw [place, place]
    omega
  rw [slice_ofText, drop_place h, hcount]
  cases es with
  | nil =>
    refine ⟨[], rfl, ?_⟩
    rw [List.append_nil, List.append_nil]
    exact List.take_length
  | cons d es =>
    refine ⟨[' '], rfl, ?_⟩
    rw [written_append, List.append_cons, List.length_append, Nat.add_sub_cancel, List.take_left]

theorem trim_slice_run {rs : List (Clause v)} (h : (c :: rs ++ es) <:+ cs) :
    trim ((Scan.ofText (written cs)).slice (place cs (c :: rs ++ es)) (place cs es)) =
      written (c :: rs) := by
  obtain ⟨w, hw, hslice⟩ := exists_slice h
  rw [hslice, trim_append_of_allBlank hw, (neat_written c rs).trimmed]

theorem trim_slice (h : (c :: es) <:+ cs) :
    trim ((Scan.ofText (written cs)).slice (place cs (c :: es)) (place cs es)) = c.text := by
  have hrun : ([c] ++ es) <:+ cs := h
  exact (trim_slice_run hrun).trans (written_singleton c)

theorem slice_spelling (h : (c :: es) <:+ cs) :
    (Scan.ofText (written cs)).slice (place cs (c :: es)) (place cs (c :: es) + c.phrase.length) =
      c.spelling := by
  obtain ⟨u, hu⟩ : ∃ u, written (c :: es) = c.spelling ++ u := by
    rw [written, List.map_cons, joinWith_cons, text, List.append_assoc]
    exact ⟨_, rfl⟩
  rw [slice_ofText, drop_place h, Nat.add_sub_cancel_left, ← c.length_spelling, hu, List.take_left]

theorem trim_slice_body (h : (c :: es) <:+ cs) :
    trim ((Scan.ofText (written cs)).slice (place cs (c :: es) + c.phrase.length) (place cs es)) =
      c.body := by
  have hrun : ([c] ++ es) <:+ cs := h
  obtain ⟨w, hw, hslice⟩ := exists_slice hrun
  rw [List.singleton_append, written_singleton,
    ← slice_append (Nat.le_add_right _ c.phrase.length) (Nat.le_of_lt (place_lt h)),
    slice_spelling h, text, List.append_assoc] at hslice
  have hspace : allBlank [' '] = true := rfl
  rw [List.append_cancel_left hslice, trim_append_of_allBlank hw, ← List.singleton_append,
    trim_of_allBlank_append hspace, c.inert.neat.trimmed]

end Place

section Hit
variable {c : Clause v} {cs es : List (Clause v)} {p : String} {i j : Nat}

/-- What stands in the row at a place of a clause, or of what follows it, stands there in itself. -/
private theorem standsAt_place (h : (c :: es) <:+ cs) (q : List Char) (i : Nat) :
    StandsAt q (written cs) (place cs (c :: es) + i) ↔ StandsAt q (written (c :: es)) i := by
  obtain ⟨u, hu, hplace, hafter, hglue⟩ := exists_before h
  rw [← hplace, hu]
  exact standsAt_append hafter hglue

private theorem exists_behind (c : Clause v) (es : List (Clause v)) :
    ∃ t, written (c :: es) = c.text ++ t ∧ Pauses t := by
  cases es with
  | nil => exact ⟨[], written_singleton c ▸ (List.append_nil _).symm, .inl rfl⟩
  | cons d es => exact ⟨_, written_cons c d es, .inr ⟨_, rfl⟩⟩

/-- The phrase of a clause is found where the clause begins. -/
theorem hit_place (h : (c :: es) <:+ cs) : Hit (written cs) c.phrase (place cs (c :: es)) := by
  obtain ⟨t, ht, -⟩ := exists_behind c es
  rw [hit_iff_standsAt c.worded (tight_written h), ← Nat.add_zero (place cs _), standsAt_place h,
    standsAt_zero, ht, text, List.append_assoc, spelled_append c.spells]
  rfl

/-- The text of a clause does not begin with a phrase. -/
private theorem not_spelled_body (hp : p ∈ v.phrases) {q r t : List Char}
    (hq : p.toList = q ++ ' ' :: r) (ht : Pauses t) : ¬ spelled r (c.body ++ t) = true := by
  intro h
  have hphrase : isPhrase false p.toList = true := v.worded p hp
  rw [hq] at hphrase
  obtain ⟨w, hmem, hw, hstands⟩ := (standsAt_zero.mpr h).first_word (isPhrase_of_append hphrase)
  refine c.inert.silent p hp w ?_
    ((hstands.before ht hw c.inert.closed (Nat.zero_le _)).mentions hw.1)
  rw [hq, words_append_space]
  exact List.mem_append_right _ hmem

/-- Between the beginning of a clause and the next clause, a phrase is found in the keyword alone. -/
theorem hit_within (h : (c :: es) <:+ cs) (hp : p ∈ v.phrases) (hit : Hit (written cs) p j)
    (hfrom : place cs (c :: es) ≤ j) (hto : j < place cs es) :
    ∃ i < c.phrase.length, j = place cs (c :: es) + i ∧
      spelled p.toList (c.phrase.toList.drop i) = true := by
  obtain ⟨i, rfl⟩ := Nat.exists_eq_add_of_le hfrom
  obtain ⟨t, ht, hpauses⟩ := exists_behind c es
  rw [hit_iff_standsAt (v.worded p hp) (tight_written h), standsAt_place h, ht] at hit
  obtain ⟨w, hmem, hw, hstands⟩ := hit.first_word (v.worded p hp)
  have hi : i ≤ c.text.length := by
    have hend := (place_cons h).2
    omega
  rcases (hstands.before hpauses hw c.after_text hi).parted hw parting_space c.after_spelling with
    hkeyword | ⟨k, -, hbody⟩
  · have hlt := hkeyword.lt_length hw.1
    have hdrop : (c.text ++ t).drop i = c.spelling.drop i ++ ' ' :: (c.body ++ t) := by
      rw [text, List.append_assoc, List.drop_append_of_le_length (Nat.le_of_lt hlt)]
      rfl
    have hspelled := hit.spelled
    rw [hdrop] at hspelled
    rcases spelled_append_space hspelled with hspelled | ⟨q, r, hq, -, hr⟩
    · rw [← spelled_congr (sameLetters_drop c.spells i)] at hspelled
      rw [c.length_spelling] at hlt
      exact ⟨i, hlt, rfl, hspelled⟩
    · exact absurd hr (not_spelled_body hp hq hpauses)
  · exact absurd (hbody.mentions hw.1) (c.inert.silent p hp w hmem)

end Hit

/-- A search for these phrases is not misled by other phrases of the vocabulary. Where one of them
stands in a phrase, a search stops at this phrase itself, and takes it for what it is. -/
structure Told (v : Vocabulary) (ps : List String) : Prop where
  subset : ∀ p ∈ ps, p ∈ v.phrases
  own : ∀ q ∈ v.phrases, ∀ p ∈ ps, ∀ i < q.length, spelled p.toList (q.toList.drop i) = true →
    q ∈ ps ∧ (i = 0 → p = q)

instance (v : Vocabulary) (ps : List String) : Decidable (Told v ps) :=
  decidable_of_iff ((∀ p ∈ ps, p ∈ v.phrases) ∧ ∀ q ∈ v.phrases, ∀ p ∈ ps, ∀ i < q.length,
      spelled p.toList (q.toList.drop i) = true → q ∈ ps ∧ (i = 0 → p = q))
    ⟨fun h => ⟨h.1, h.2⟩, fun h => ⟨h.1, h.2⟩⟩

section First
variable {c : Clause v} {cs es : List (Clause v)} {ps : List String} {b : Nat}

/-- A search for phrases stops at a clause that begins with one of them. -/
theorem first_place (hps : Told v ps) (h : (c :: es) <:+ cs) (hb : b ≤ (written cs).length)
    (hstop : place cs (c :: es) + c.phrase.length ≤ b) (hc : c.phrase ∈ ps) :
    (Scan.ofText (written cs)).first ps (place cs (c :: es)) b =
      some (place cs (c :: es), c.phrase) := by
  refine first_of_hit hb hc (hit_place h) hstop fun q hq hit => ?_
  have hlt := place_lt h
  obtain ⟨i, hlength, hi, hspelled⟩ := hit_within h (hps.subset q hq) hit (Nat.le_refl _) (by omega)
  exact (hps.own c.phrase c.listed q hq i hlength hspelled).2 (by omega)

/-- It goes on over a clause that does not. -/
theorem first_over (hps : Told v ps) (h : (c :: es) <:+ cs) (hb : b ≤ (written cs).length)
    (hc : c.phrase ∉ ps) :
    (Scan.ofText (written cs)).first ps (place cs (c :: es)) b =
      (Scan.ofText (written cs)).first ps (place cs es) b := by
  have hlt := place_lt h
  refine first_onward hb (by omega) fun p hp j hfrom hto hit => ?_
  obtain ⟨i, hi, -, hspelled⟩ := hit_within h (hps.subset p hp) hit hfrom hto
  exact hc (hps.own c.phrase c.listed p hp i hi hspelled).1

/-- From behind a keyword it goes on to the next clause. -/
theorem first_behind (hps : Told v ps) (h : (c :: es) <:+ cs) (hb : b ≤ (written cs).length) :
    (Scan.ofText (written cs)).first ps (place cs (c :: es) + c.phrase.length) b =
      (Scan.ofText (written cs)).first ps (place cs es) b := by
  have hlt := place_lt h
  refine first_onward hb (by omega) fun p hp j hfrom hto hit => ?_
  obtain ⟨i, hi, rfl, -⟩ := hit_within h (hps.subset p hp) hit (by omega) hto
  omega

theorem first_skip (hps : Told v ps) {gs : List (Clause v)} (h : (gs ++ es) <:+ cs)
    (hb : b ≤ (written cs).length) (hgs : ∀ c ∈ gs, c.phrase ∉ ps) :
    (Scan.ofText (written cs)).first ps (place cs (gs ++ es)) b =
      (Scan.ofText (written cs)).first ps (place cs es) b := by
  induction gs with
  | nil => rfl
  | cons c gs ih =>
    rw [List.forall_mem_cons] at hgs
    rw [List.cons_append] at h ⊢
    rw [first_over hps h hb hgs.1, ih (suffix_of_cons h) hgs.2]

end First

section Find
variable {c : Clause v} {cs es : List (Clause v)} {p : String} {b : Nat}

private theorem find_congr {t : Scan} {a k : Nat} (h : t.first [p] a b = t.first [p] k b) :
    t.find p a b = t.find p k b := by
  rw [first_singleton, first_singleton] at h
  exact Option.map_injective (fun _ _ hpair => (Prod.mk.inj hpair).1) h

theorem find_place (hp : Told v [c.phrase]) (h : (c :: es) <:+ cs) :
    (Scan.ofText (written cs)).find c.phrase (place cs (c :: es)) (written cs).length =
      some (place cs (c :: es)) := by
  have hstop := place_lt h
  have hle := place_le cs es
  have hfirst := first_place hp h (Nat.le_refl _) (by omega) (List.mem_singleton_self _)
  rw [first_singleton, Option.map_eq_some_iff] at hfirst
  obtain ⟨i, hi, hpair⟩ := hfirst
  rw [hi, (Prod.mk.inj hpair).1]

theorem find_behind (hp : Told v [p]) (h : (c :: es) <:+ cs) (hb : b ≤ (written cs).length) :
    (Scan.ofText (written cs)).find p (place cs (c :: es) + c.phrase.length) b =
      (Scan.ofText (written cs)).find p (place cs es) b :=
  find_congr (first_behind hp h hb)

theorem find_skip (hp : Told v [p]) {gs : List (Clause v)} (h : (gs ++ es) <:+ cs)
    (hb : b ≤ (written cs).length) (hgs : ∀ c ∈ gs, c.phrase ≠ p) :
    (Scan.ofText (written cs)).find p (place cs (gs ++ es)) b =
      (Scan.ofText (written cs)).find p (place cs es) b :=
  find_congr (first_skip hp h hb fun c hc => mt List.mem_singleton.mp (hgs c hc))

end Find

end Clause

end SqlRecovery.Sql
