import Mathlib.Data.Bool.AllAny
import Mathlib.Data.List.Basic
import SqlRecovery.Proofs.Marker.Printed

/-! What a logging framework writes behind a line with a marker. A text that the marker carries ends
before a severity, so it stays the same. A marker that carries nothing takes the severity for its
text: all blanks behind the token are skipped, and none is left in front of the severity. -/
namespace SqlRecovery.Marker
open Text

private theorem exists_append_of_not_mem {c : Char} {s x m r : List Char} (hc : c ∉ m)
    (h : s ++ c :: x = m ++ r) : ∃ d, s = m ++ d ∧ r = d ++ c :: x := by
  rcases List.append_eq_append_iff.mp h with ⟨a, rfl, ha⟩ | ⟨d, rfl, hd⟩
  · cases a with
    | nil => exact ⟨[], by simp, by simpa using ha.symm⟩
    | cons b a =>
      obtain ⟨rfl, -⟩ := List.cons.inj ha
      exact absurd (List.mem_append_right s List.mem_cons_self) hc
  · exact ⟨d, rfl, hd⟩

private theorem not_mem_of_sameFolded {part word : List Char} (hpart : ∀ c ∈ part, isBlank c = false)
    (h : SameFolded part word) {c : Char} (hc : isBlank c = true) : c ∉ word := by
  intro hmem
  have hfold : foldCase c ∈ part.map foldCase := h ▸ List.mem_map_of_mem hmem
  obtain ⟨k, hk, hkc⟩ := List.mem_map.mp hfold
  have hblank := hpart k hk
  rw [← isBlank_foldCase, hkc, isBlank_foldCase, hc] at hblank
  cases hblank

/-- What begins with a word begins with no blank. -/
private theorem trimStart_word_append {word : List Char} (hne : word ≠ [])
    (h : ∀ c ∈ word, isBlank c = false) (t : List Char) : trimStart (word ++ t) = word ++ t := by
  refine trimStart_eq_self fun c hc => h c ?_
  rw [List.head?_append_of_ne_nil word hne] at hc
  exact List.mem_of_mem_head? hc

private theorem trim_word_append {word : List Char} (hne : word ≠ [])
    (h : ∀ c ∈ word, isBlank c = false) (t : List Char) : trim (word ++ t) = word ++ trimEnd t := by
  rw [trim, trimStart_word_append hne h]
  clear hne
  induction word with
  | nil => rfl
  | cons c word ih =>
    rw [List.forall_mem_cons] at h
    rw [List.cons_append, trimEnd_cons, h.1, ih h.2]
    rfl

private theorem LongestEnd.append {P : List Char → Prop} {s t e : List Char} (h : LongestEnd P s t)
    (ht : P (t ++ e)) (hP : ∀ u, u <:+ s → P (u ++ e) → P u) : LongestEnd P (s ++ e) (t ++ e) := by
  refine ⟨List.suffix_append_self_iff.mpr h.isSuffix, ht, fun u hu hu' => ?_⟩
  rcases List.suffix_or_suffix_of_suffix hu (List.suffix_append s e) with hshort | ⟨u, rfl⟩
  · exact (hshort.trans (List.suffix_append t e)).length_le
  · have hsuffix := List.suffix_append_self_iff.mp hu
    simpa using h.longest u hsuffix (hP u hsuffix hu')

/-- A severity in any letter case, and on the same line a text that does not go on with the word. -/
structure Severe (severities : List (List Char)) (word rest : List Char) : Prop where
  severity : ∃ severity ∈ severities, SameFolded severity word
  bounded : startsWord rest = false
  line : '\n' ∉ rest

namespace Pattern
variable {p : Pattern} {s word rest text : List Char}

/-- A pattern of plain words without blanks in them, whose token does not begin like a severity. -/
structure Compact (p : Pattern) : Prop extends p.Plain where
  sentinel_solid : ∀ part ∈ p.sentinel, ∀ c ∈ part, isBlank c = false
  token_solid : ∀ c ∈ p.token, isBlank c = false
  apart : ∀ severity ∈ p.severities, ∀ c ∈ severity.head?, ∀ k ∈ p.token.head?,
    sameFolded k c = false

namespace Compact

section Severe
variable (hp : p.Compact) (h : Severe p.severities word rest)
include hp h

private theorem word_ne_nil : word ≠ [] := by
  obtain ⟨severity, hseverity, hword⟩ := h.severity
  exact hword.ne_nil (hp.severities severity hseverity).nonempty

private theorem word_solid : ∀ c ∈ word, isBlank c = false := by
  obtain ⟨severity, hseverity, hword⟩ := h.severity
  intro c hc
  rw [← Bool.not_eq_true]
  intro hblank
  have hletters := (hp.severities severity hseverity).letters
  exact not_mem_of_sameFolded (fun d hd => not_blank_of_isAlpha (hletters d hd)) hword hblank hc

private theorem isWordChar_of_mem : ∀ c ∈ word, isWordChar c = true := by
  obtain ⟨severity, hseverity, hword⟩ := h.severity
  exact isWordChar_of_mem_of_sameFolded (hp.severities severity hseverity) hword

private theorem newline_not_mem {line : List Char} (hline : '\n' ∉ line) :
    '\n' ∉ line ++ ' ' :: (word ++ rest) := by
  have hword : '\n' ∉ word := by
    intro hmem
    cases hp.word_solid h '\n' hmem
  simp [hline, hword, h.line]

private theorem trimStart_space : trimStart (' ' :: (word ++ rest)) = word ++ rest := by
  rw [trimStart_cons_of_blank rfl, trimStart_word_append (hp.word_ne_nil h) (hp.word_solid h)]

/-- The token does not stand where the severity does. -/
private theorem token_append_ne {w r : List Char} (hw : SameFolded p.token w) :
    w ++ r ≠ word ++ rest := by
  intro heq
  obtain ⟨severity, hseverity, hword⟩ := h.severity
  obtain ⟨k, hk, -⟩ := hp.token
  obtain ⟨token, htoken⟩ := List.head?_eq_some_iff.mp hk
  obtain ⟨c, severity, rfl⟩ := List.exists_cons_of_ne_nil (hp.severities _ hseverity).nonempty
  obtain ⟨d, word, rfl⟩ := List.exists_cons_of_ne_nil (hp.word_ne_nil h)
  rw [htoken] at hw
  cases w with
  | nil => cases hw
  | cons e w =>
    obtain ⟨rfl, -⟩ := List.cons.inj heq
    have hapart := hp.apart _ hseverity c rfl k hk
    rw [sameFolded, beq_eq_false_iff_ne] at hapart
    exact hapart ((List.cons.inj hw).1.trans (List.cons.inj hword).1.symm)

/-- A marker in a line with the severity behind it stands in the line itself, if it begins there. -/
private theorem stands_of_append {r : List Char} (hs : p.Stands (s ++ ' ' :: (word ++ rest)) r) :
    ∃ r', p.Stands s r' := by
  have hspace : isBlank ' ' = true := rfl
  have htoken : ∀ {w : List Char}, SameFolded p.token w → ' ' ∉ w :=
    fun hw => not_mem_of_sameFolded hp.token_solid hw hspace
  cases hsentinel : p.sentinel with
  | none =>
    obtain ⟨w, hw, hsplit⟩ := (stands_iff_of_none hsentinel).mp hs
    obtain ⟨d, rfl, -⟩ := exists_append_of_not_mem (htoken hw) hsplit
    exact ⟨d, (stands_iff_of_none hsentinel).mpr ⟨w, hw, rfl⟩⟩
  | some sentinel =>
    obtain ⟨mark, t, hmark, hsplit, w, hw, ht⟩ := (stands_iff_of_some hp.toPlain hsentinel).mp hs
    have hsolid := hp.sentinel_solid sentinel hsentinel
    obtain ⟨t, rfl, rfl⟩ :=
      exists_append_of_not_mem (not_mem_of_sameFolded hsolid hmark hspace) hsplit
    by_cases hblank : allBlank t = true
    · -- The blanks between sentinel and token reach into the tail, and the severity is no token.
      rw [trimStart_of_allBlank_append hblank, hp.trimStart_space h] at ht
      exact absurd ht.symm (hp.token_append_ne h hw)
    · rw [trimStart_append hblank] at ht
      obtain ⟨d, hd, -⟩ := exists_append_of_not_mem (htoken hw) ht
      exact ⟨d, (stands_iff_of_some hp.toPlain hsentinel).mpr ⟨mark, t, hmark, rfl, w, hw, hd⟩⟩

/-- Behind blanks alone, the severity ends the text. -/
private theorem endsHere_of_allBlank (hs : allBlank s = true) :
    p.endsHere (s ++ ' ' :: (word ++ rest)) = true := by
  obtain ⟨severity, hseverity, hword⟩ := h.severity
  have hgap : allBlank (s ++ [' ']) = true := by
    rw [allBlank, List.all_append, Bool.and_eq_true]
    exact ⟨hs, rfl⟩
  exact (endsHere_iff hp.severities).mpr (.inr ⟨s ++ [' '], severity, word, rest, by simp, by simp,
    hgap, hseverity, hword, h.bounded⟩)

end Severe

/-- A severity is a whole word before a space, or at the end. -/
private theorem severityHere_append (hp : p.Compact) {severity : List Char}
    (hseverity : severity ∈ p.severities) (s t : List Char) :
    severityHere severity (s ++ ' ' :: t) = severityHere severity s := by
  have hletters := hp.severities severity hseverity
  have hspace : ∀ {w : List Char}, SameFolded severity w → ' ' ∉ w := fun hw =>
    not_mem_of_sameFolded (fun c hc => not_blank_of_isAlpha (hletters.letters c hc)) hw rfl
  have hbounded : ∀ d : List Char, startsWord (d ++ ' ' :: t) = startsWord d := by
    intro d
    cases d with
    | nil => rfl
    | cons c d => rfl
  rw [Bool.eq_iff_iff, severityHere_iff hletters, severityHere_iff hletters]
  constructor
  · rintro ⟨w, behind, hw, hsplit, hbehind⟩
    obtain ⟨d, rfl, rfl⟩ := exists_append_of_not_mem (hspace hw) hsplit
    exact ⟨w, d, hw, rfl, by rwa [hbounded] at hbehind⟩
  · rintro ⟨w, d, hw, rfl, hd⟩
    exact ⟨w, d ++ ' ' :: t, hw, by simp, by rwa [hbounded]⟩

/-- Where a text goes on with other characters than blanks, what follows behind a space does not end
it. -/
private theorem endsHere_append (hp : p.Compact) (hs : ¬ allBlank s = true) (t : List Char) :
    p.endsHere (s ++ ' ' :: t) = p.endsHere s := by
  have hany : p.severities.any (severityHere · (trimStart s ++ ' ' :: t)) =
      p.severities.any (severityHere · (trimStart s)) := by
    rw [Bool.eq_iff_iff, List.any_eq_true, List.any_eq_true]
    exact exists_congr fun severity => and_congr_right fun hmem => by rw [hp.severityHere_append hmem]
  have htrim := trimStart_append hs (' ' :: t)
  obtain ⟨d, u, hu⟩ := List.exists_cons_of_ne_nil (mt trimStart_eq_nil_iff.mp hs)
  cases s with
  | nil => exact absurd rfl hs
  | cons c s =>
    rw [List.cons_append] at htrim ⊢
    rw [endsHere, endsHere, htrim, hany, hu]
    rfl

end Compact

private theorem stands_append {r : List Char} (hs : p.Stands s r) (e : List Char) :
    p.Stands (s ++ e) (r ++ e) := by
  obtain ⟨lead, w, hlead, hw, rfl⟩ := hs
  exact ⟨lead, w, hlead, hw, by simp⟩

/-- Blanks alone are carried to their end. -/
private theorem carried_of_allBlank (hs : allBlank s = true) (hline : '\n' ∉ s) :
    p.carried s = some s := by
  induction s with
  | nil => rfl
  | cons c s ih =>
    have hend : p.endsHere (c :: s) = false := by
      rw [endsHere, trimStart_of_allBlank hs]
      simp [startsWord]
    rw [allBlank, List.all_cons, Bool.and_eq_true] at hs
    rw [carried, hend, if_neg Bool.false_ne_true,
      beq_eq_false_iff_ne.mpr (List.ne_of_not_mem_cons hline).symm, if_neg Bool.false_ne_true,
      ih hs.2 (List.not_mem_of_not_mem_cons hline)]
    rfl

/-- A text does not end inside a word. -/
private theorem carried_word (hword : ∀ c ∈ word, isBlank c = false) :
    p.carried (word ++ rest) = (p.carried rest).map (word ++ ·) := by
  induction word with
  | nil => exact Option.map_id'.symm
  | cons c word ih =>
    rw [List.forall_mem_cons] at hword
    have hend : p.endsHere (c :: (word ++ rest)) = false := by
      rw [endsHere, hword.1]
      rfl
    have hfeed : (c == '\n') = false := by
      rw [beq_eq_false_iff_ne]
      rintro rfl
      cases hword.1
    rw [List.cons_append, carried, hend, hfeed, if_neg Bool.false_ne_true, if_neg Bool.false_ne_true,
      ih hword.2, Option.map_map]
    rfl

namespace Compact

/-- With the severity behind it, a text is carried without the blanks at its end. -/
private theorem carried_append (hp : p.Compact) (h : Severe p.severities word rest)
    (hline : '\n' ∉ s) : ∃ t w, p.carried (s ++ ' ' :: (word ++ rest)) = some t ∧
      p.carried s = some (t ++ w) ∧ allBlank w = true := by
  induction s with
  | nil =>
    have hend := hp.endsHere_of_allBlank h (s := []) rfl
    refine ⟨[], [], ?_, rfl, rfl⟩
    rw [List.nil_append] at hend ⊢
    rw [carried, hend, if_pos rfl]
  | cons c s ih =>
    by_cases hblank : allBlank (c :: s) = true
    · have hend := hp.endsHere_of_allBlank h hblank
      refine ⟨[], c :: s, ?_, carried_of_allBlank hblank hline, hblank⟩
      rw [List.cons_append] at hend ⊢
      rw [carried, hend, if_pos rfl]
    · have hend := hp.endsHere_append hblank (word ++ rest)
      obtain ⟨t, w, ht, hw, hall⟩ := ih (List.not_mem_of_not_mem_cons hline)
      rw [List.cons_append] at hend ⊢
      rw [carried, carried, hend]
      split
      · exact ⟨[], [], rfl, rfl, rfl⟩
      · rw [beq_eq_false_iff_ne.mpr (List.ne_of_not_mem_cons hline).symm, if_neg Bool.false_ne_true,
          if_neg Bool.false_ne_true, ht, hw]
        exact ⟨c :: t, w, rfl, rfl, hall⟩

/-- The severity ends a text, and stands for one that is missing. -/
theorem capture_append (hp : p.Compact) (h : Severe p.severities word rest) {line : List Char}
    (hline : '\n' ∉ line) (htext : p.capture line = some text) :
    (text ≠ [] → p.capture (line ++ ' ' :: (word ++ rest)) = some text) ∧
      (text = [] → ∃ t, p.capture (line ++ ' ' :: (word ++ rest)) = some (word ++ t)) := by
  obtain ⟨s, r, carried, hs, hr, hcarried, rfl⟩ :=
    (capture_eq_some_iff_carried hp.toPlain hline).mp htext
  have hplace := hs.append (e := ' ' :: (word ++ rest)) ⟨_, stands_append hr _⟩
    fun u _ ⟨_, hu⟩ => hp.stands_of_append h hu
  have hcapture : ∀ {t : List Char}, p.carried (trimStart (r ++ ' ' :: (word ++ rest))) = some t →
      p.capture (line ++ ' ' :: (word ++ rest)) = some (trim t) := fun ht =>
    (capture_eq_some_iff_carried hp.toPlain (hp.newline_not_mem h hline)).mpr
      ⟨_, _, _, hplace, stands_append hr _, ht, rfl⟩
  by_cases hblank : allBlank r = true
  · -- Nothing is carried, and no blank is left that could end the text before the severity.
    rw [trimStart_of_allBlank hblank] at hcarried
    obtain rfl := Option.some.inj hcarried
    obtain ⟨t, ht⟩ := Option.isSome_iff_exists.mp (carried_isSome (p := p) h.line)
    have hword := trim_word_append (hp.word_ne_nil h) (hp.word_solid h) t
    refine ⟨fun hne => absurd rfl hne, fun _ => ⟨trimEnd t, ?_⟩⟩
    rw [← hword]
    apply hcapture
    rw [trimStart_of_allBlank_append hblank, hp.trimStart_space h, carried_word (hp.word_solid h), ht]
    rfl
  · have hbody : '\n' ∉ trimStart r := fun hmem => hline
      (((trimStart_suffix_self r).trans (hr.suffix.trans hs.isSuffix)).subset hmem)
    obtain ⟨t, w, ht, hw, hall⟩ := hp.carried_append h hbody
    rw [hcarried] at hw
    obtain rfl := Option.some.inj hw
    rw [← trimStart_append hblank] at ht
    have hsame := hcapture ht
    rw [← trim_append_of_allBlank hall] at hsame
    refine ⟨fun _ => hsame, fun hnil => absurd hnil ?_⟩
    obtain ⟨c, body, hcons⟩ := List.exists_cons_of_ne_nil (mt trimStart_eq_nil_iff.mp hblank)
    have hc : ∀ d ∈ [c], isBlank d = false := by
      have hhead := List.head?_dropWhile_not isBlank r
      rw [← trimStart, hcons] at hhead
      simpa using hhead
    have htext : p.carried ([c] ++ body) = (p.carried body).map ([c] ++ ·) := carried_word hc
    rw [List.singleton_append, ← hcons, hcarried, eq_comm, Option.map_eq_some_iff] at htext
    obtain ⟨t', -, hsplit⟩ := htext
    rw [← hsplit, trim_word_append (List.cons_ne_nil c []) hc]
    exact List.cons_ne_nil c _

/-- No marker begins in a severity, nor across the space in front of it. -/
private theorem occurs_of_append (hp : p.Compact) (h : Severe p.severities word rest)
    {line : List Char} (hrest : ∀ u r, u <:+ ' ' :: (word ++ rest) → ¬ p.Stands u r)
    (hoccurs : p.Occurs (line ++ ' ' :: (word ++ rest))) : p.Occurs line := by
  obtain ⟨s, r, hs, hstands⟩ := hoccurs
  rcases List.suffix_or_suffix_of_suffix hs (List.suffix_append line _) with hshort | ⟨u, rfl⟩
  · exact absurd hstands (hrest s r hshort)
  · obtain ⟨r', hr'⟩ := hp.stands_of_append h hstands
    exact ⟨u, r', List.suffix_append_self_iff.mp hs, hr'⟩

end Compact

end Pattern

namespace Markers
variable {line word rest : List Char}

/-- The severity ends a text that is found in the line, and is taken for one that is missing. -/
def EndedBy (find : List Char → Option (List Char)) (line word rest : List Char) : Prop :=
  ∀ text, find line = some text →
    (text ≠ [] → find (line ++ ' ' :: (word ++ rest)) = some text) ∧
      (text = [] → ∃ t, find (line ++ ' ' :: (word ++ rest)) = some (word ++ t))

private theorem sentinel_solid_standard :
    ∀ part ∈ some standard.sentinel, ∀ c ∈ part, isBlank c = false :=
  fun _ hpart => Option.some.inj hpart ▸ List.all_iff_forall_prop.mp rfl

/-- Both tokens begin with this letter. -/
private theorem apart_standard : ∀ severity ∈ standard.severities, ∀ c ∈ severity.head?,
    ∀ k ∈ some 'P', sameFolded k c = false := by
  simp only [standard, String.reduceToList, List.forall_mem_cons, List.head?_cons, Option.mem_def,
    Option.some.injEq, forall_eq', List.not_mem_nil, false_implies, implies_true, and_true]
  decide

private theorem compact_statement : (standard.pattern standard.statementToken).Compact where
  toPlain := ⟨⟨'P', rfl, rfl⟩, by decide⟩
  sentinel_solid := sentinel_solid_standard
  token_solid := List.all_iff_forall_prop.mp rfl
  apart := apart_standard

private theorem compact_parameters : (standard.pattern standard.parametersToken).Compact where
  toPlain := ⟨⟨'P', rfl, rfl⟩, by decide⟩
  sentinel_solid := sentinel_solid_standard
  token_solid := List.all_iff_forall_prop.mp rfl
  apart := apart_standard

private theorem compact_loose : standard.loosePattern.Compact :=
  { compact_parameters with sentinel_solid := fun _ h => nomatch h }

private theorem arrow_infix_of_append {w : List Char} (hw : ∀ c ∈ w, c ≠ '=') (s : List Char)
    (h : arrow <:+: w ++ s) : arrow <:+: s := by
  induction w with
  | nil => exact h
  | cons c w ih =>
    rw [List.forall_mem_cons] at hw
    rw [List.cons_append, List.infix_cons_iff] at h
    rcases h with h | h
    · exact absurd (List.cons_prefix_cons.mp h).1.symm hw.1
    · exact ih hw.2 h

/-- Without a sentinel behind it, the severity adds no marker to a line. -/
private theorem capture_append_eq_none (h : Severe standard.severities word rest)
    (hline : '\n' ∉ line) (harrow : ¬ arrow <:+: rest)
    (hnone : (standard.pattern standard.parametersToken).capture line = none) :
    (standard.pattern standard.parametersToken).capture (line ++ ' ' :: (word ++ rest)) = none := by
  have hp := compact_parameters
  have hword : ∀ c ∈ ' ' :: word, c ≠ '=' := by
    refine List.forall_mem_cons.mpr ⟨by decide, ?_⟩
    rintro c hc rfl
    cases hp.isWordChar_of_mem h '=' hc
  have htail : ¬ arrow <:+: ' ' :: (word ++ rest) := fun hinfix =>
    harrow (arrow_infix_of_append hword rest hinfix)
  rw [← Option.not_isSome_iff_eq_none, Pattern.capture_isSome_iff hp.toPlain hline] at hnone
  rw [← Option.not_isSome_iff_eq_none,
    Pattern.capture_isSome_iff hp.toPlain (hp.newline_not_mem h hline)]
  refine fun hoccurs => hnone (hp.occurs_of_append h (fun u r hu hstands => htail ?_) hoccurs)
  obtain ⟨lead, w, hlead, -, rfl⟩ := hstands
  cases hlead with
  | sentinel hmark hgap =>
    rw [eq_arrow_of_sameFolded hmark, List.append_assoc] at hu
    exact (List.prefix_append arrow _).isInfix.trans hu.isInfix

private theorem endedBy_statement (h : Severe standard.severities word rest)
    (hline : '\n' ∉ line) : EndedBy standard.statement? line word rest := fun _ htext =>
  compact_statement.capture_append h hline htext

private theorem endedBy_loose (h : Severe standard.severities word rest)
    (hline : '\n' ∉ line) : EndedBy standard.looseParameters? line word rest := by
  intro text htext
  obtain ⟨-, hstart, hcapture⟩ := looseParameters?_eq_some_iff.mp htext
  have hblank : ¬ allBlank line = true := by
    intro hall
    rw [trimStart_of_allBlank hall] at hstart
    cases List.prefix_nil.mp hstart
  have hstart' : standard.parametersToken <+: trimStart (line ++ ' ' :: (word ++ rest)) := by
    rw [trimStart_append hblank]
    exact hstart.trans (List.prefix_append _ _)
  obtain ⟨hsame, hmissing⟩ := compact_loose.capture_append h hline hcapture
  refine ⟨fun hne => looseParameters?_eq_some_iff.mpr ⟨rfl, hstart', hsame hne⟩, fun hnil => ?_⟩
  obtain ⟨t, ht⟩ := hmissing hnil
  exact ⟨t, looseParameters?_eq_some_iff.mpr ⟨rfl, hstart', ht⟩⟩

private theorem endedBy_parameters (h : Severe standard.severities word rest)
    (hline : '\n' ∉ line) (harrow : ¬ arrow <:+: rest) :
    EndedBy standard.parameters? line word rest := by
  intro text htext
  rw [parameters?]
  rcases Option.or_eq_some_iff.mp htext with hcapture | ⟨hnone, hloose⟩
  · obtain ⟨hsame, hmissing⟩ := compact_parameters.capture_append h hline hcapture
    refine ⟨fun hne => by rw [hsame hne, Option.some_or], fun hnil => ?_⟩
    obtain ⟨t, ht⟩ := hmissing hnil
    exact ⟨t, by rw [ht, Option.some_or]⟩
  · rw [capture_append_eq_none h hline harrow hnone, Option.none_or]
    exact endedBy_loose h hline text hloose

/-- A severity behind a line leaves the text of its marker alone. Only where the marker carries no
text, the severity is taken for it. -/
theorem severity_ends_text (hline : '\n' ∉ line) (h : Severe standard.severities word rest)
    (harrow : ¬ arrow <:+: rest) :
    EndedBy standard.statement? line word rest ∧ EndedBy standard.parameters? line word rest :=
  ⟨endedBy_statement h hline, endedBy_parameters h hline harrow⟩

/-- A line whose text has a severity in it, and ends with blanks. -/
def wordyLine : List Char := "app ==>Parameters: 1(Integer), info_2(String) Warn \t".toList

private theorem severe_thread : Severe standard.severities "Debug".toList " [main]".toList :=
  ⟨⟨"DEBUG".toList, by decide, by decide⟩, rfl, by decide⟩

private theorem not_arrow_thread : ¬ arrow <:+: " [main]".toList := by
  rw [← occursIn_iff]
  decide

theorem severity_ends_text_wordy : '\n' ∉ wordyLine ∧
    Severe standard.severities "Debug".toList " [main]".toList ∧ ¬ arrow <:+: " [main]".toList ∧
    standard.parameters? (wordyLine ++ ' ' :: ("Debug".toList ++ " [main]".toList)) =
      some "1(Integer), info_2(String)".toList := by
  have hline : '\n' ∉ wordyLine := by decide
  have htext : standard.parameters? wordyLine = some "1(Integer), info_2(String)".toList := by decide
  have hended := severity_ends_text hline severe_thread not_arrow_thread
  exact ⟨hline, severe_thread, not_arrow_thread, (hended.2 _ htext).1 (by decide)⟩

/-- A marker without a text takes the severity behind it for its text. -/
theorem not_severity_ends_missing_text : ¬ ∀ line word rest text : List Char, '\n' ∉ line →
    Severe standard.severities word rest → ¬ arrow <:+: rest →
      (standard.statement? line = some text →
        standard.statement? (line ++ ' ' :: (word ++ rest)) = some text) ∧
      (standard.parameters? line = some text →
        standard.parameters? (line ++ ' ' :: (word ++ rest)) = some text) := by
  intro h
  have hmissing : standard.parameters? "==> Parameters:".toList = some [] := by decide
  have htaken : standard.parameters? "==> Parameters: Debug [main]".toList =
      some "Debug [main]".toList := by decide
  have hline : '\n' ∉ "==> Parameters:".toList := by decide
  have hsame := (h _ _ _ _ hline severe_thread not_arrow_thread).2 hmissing
  change standard.parameters? "==> Parameters: Debug [main]".toList = _ at hsame
  rw [htaken] at hsame
  cases hsame

end Markers

end SqlRecovery.Marker
