import SqlRecovery.Marker.Config
import SqlRecovery.Proofs.Text.Blank
import SqlRecovery.Proofs.Text.Folding

/-! A blank at the end of a line makes no difference to what its markers carry, as long as no
character of the markers is taken for that blank. -/
namespace SqlRecovery.Marker
open Text

/-- A blank that ends a line but no word of the markers: it is not a line feed, and no character of
the part is the same letter. -/
structure Trailing (e : Char) : Prop where
  blank : isBlank e = true
  not_word : isWordChar e = false
  not_feed : (e == '\n') = false

/-- A carriage return is such a blank. -/
theorem trailing_return : Trailing '\r' := ⟨rfl, rfl, rfl⟩

/-- No character of the part is taken for `e`. -/
def Avoids (e : Char) (part : List Char) : Prop := ∀ k ∈ part, sameFolded k e = false

instance (e : Char) (part : List Char) : Decidable (Avoids e part) := List.decidableBAll _ part

variable {e : Char}

private theorem dropFolded?_append {part : List Char} (h : Avoids e part) (s : List Char) :
    dropFolded? part (s ++ [e]) = (dropFolded? part s).map (· ++ [e]) := by
  induction part generalizing s with
  | nil => rfl
  | cons k part ih =>
    have hk := h k List.mem_cons_self
    have hrest : Avoids e part := fun k hk => h k (List.mem_cons_of_mem _ hk)
    cases s with
    | nil => simp [dropFolded?, hk]
    | cons c s =>
      rw [List.cons_append, dropFolded?, dropFolded?]
      split
      · exact ih hrest s
      · rfl

private theorem startsWord_append (he : Trailing e) (s : List Char) :
    startsWord (s ++ [e]) = startsWord s := by
  cases s with
  | nil => simp [startsWord, he.not_word]
  | cons c s => rfl

private theorem length_of_dropFolded? {part s rest : List Char} (h : dropFolded? part s = some rest) :
    part.length ≤ s.length := by
  obtain ⟨word, hword, rfl⟩ := dropFolded?_eq_some_iff.mp h
  rw [List.length_append, hword.length_eq]
  exact Nat.le_add_right _ _

private theorem severityHere_append (he : Trailing e) {severity : List Char} (h : Avoids e severity)
    (s : List Char) : severityHere severity (s ++ [e]) = severityHere severity s := by
  rw [severityHere, severityHere, dropFolded?_append h]
  cases hs : dropFolded? severity s with
  | none => rfl
  | some rest =>
    simp only [Option.map_some]
    rw [List.take_append_of_le_length (length_of_dropFolded? hs), startsWord_append he]

/-- What is tried on a line with the blank finds the same text, up to blanks at its ends. -/
private def Steady (e : Char) (attempt : List Char → Option (List Char)) : Prop :=
  ∀ s, (attempt (s ++ [e])).map trim = (attempt s).map trim

private theorem steady_behindBlanks (he : Trailing e) {attempt : List Char → Option (List Char)}
    (h : Steady e attempt) : Steady e (behindBlanks attempt) := by
  intro s
  induction s with
  | nil =>
    have h0 := h []
    have hone : behindBlanks attempt [e] = (attempt []).or (attempt [e]) := by
      simp [behindBlanks, he.blank]
    rw [List.nil_append] at h0 ⊢
    rw [hone, Option.map_or, h0, Option.or_self]
    rfl
  | cons c s ih =>
    have hs := h (c :: s)
    rw [List.cons_append] at hs ⊢
    rw [behindBlanks, behindBlanks]
    split
    · rw [Option.map_or, Option.map_or, ih, hs]
    · exact hs

private theorem steady_behindPart {part : List Char} (hp : Avoids e part)
    {attempt : List Char → Option (List Char)} (h : Steady e attempt) :
    Steady e (behindPart part attempt) := by
  intro s
  rw [behindPart, behindPart, dropFolded?_append hp]
  cases dropFolded? part s with
  | none => rfl
  | some rest => exact h rest

private theorem steady_leftmost {attempt : List Char → Option (List Char)} (h : Steady e attempt) :
    Steady e (leftmost attempt) := by
  intro s
  induction s with
  | nil =>
    have h0 := h []
    rw [List.nil_append] at h0
    change ((attempt [e]).or (attempt [])).map trim = (attempt []).map trim
    rw [Option.map_or, h0, Option.or_self]
  | cons c s ih =>
    have hs := h (c :: s)
    rw [List.cons_append] at hs ⊢
    rw [leftmost, leftmost, Option.map_or, Option.map_or, ih, hs]

namespace Pattern

/-- No character of the pattern is taken for `e`. -/
structure AvoidedBy (p : Pattern) (e : Char) : Prop where
  sentinel : ∀ part ∈ p.sentinel, Avoids e part
  token : Avoids e p.token
  severities : ∀ severity ∈ p.severities, Avoids e severity

variable {p : Pattern}

private theorem endsHere_append (he : Trailing e) (hp : p.AvoidedBy e) (c : Char) (s : List Char) :
    p.endsHere (c :: s ++ [e]) = p.endsHere (c :: s) := by
  have hany : ∀ t : List Char, p.severities.any (severityHere · (t ++ [e])) =
      p.severities.any (severityHere · t) := by
    intro t
    rw [Bool.eq_iff_iff, List.any_eq_true, List.any_eq_true]
    constructor
    · rintro ⟨w, hw, h⟩
      exact ⟨w, hw, by rwa [severityHere_append he (hp.severities w hw)] at h⟩
    · rintro ⟨w, hw, h⟩
      exact ⟨w, hw, by rwa [severityHere_append he (hp.severities w hw)]⟩
  rw [List.cons_append, endsHere, endsHere, ← List.cons_append, trimStart_append_blank he.blank]
  split
  case isTrue hs => rw [List.isEmpty_iff.mp hs]
  case isFalse => rw [startsWord_append he, hany]

private theorem carried_append (he : Trailing e) (hp : p.AvoidedBy e) (s : List Char) :
    p.carried (s ++ [e]) = p.carried s ∨ p.carried (s ++ [e]) = (p.carried s).map (· ++ [e]) := by
  induction s with
  | nil =>
    right
    have hend : p.endsHere [e] = false := by
      simp [endsHere, trimStart_cons_of_blank he.blank, startsWord]
    simp [carried, hend, he.not_feed]
  | cons c s ih =>
    have hend := endsHere_append he hp c s
    rw [List.cons_append] at hend ⊢
    rw [carried, carried, hend]
    split
    · exact .inl rfl
    · split
      · exact .inl rfl
      · rcases ih with ih | ih
        · exact .inl (by rw [ih])
        · right
          rw [ih]
          cases p.carried s <;> rfl

private theorem steady_carried (he : Trailing e) (hp : p.AvoidedBy e) : Steady e p.carried := by
  intro s
  rcases carried_append he hp s with h | h
  · rw [h]
  · rw [h]
    cases p.carried s with
    | none => rfl
    | some t => exact congrArg some (trim_append_blank he.blank t)

/-- The blank at the end of the line changes nothing of what is captured. -/
theorem capture_append (he : Trailing e) (hp : p.AvoidedBy e) (line : List Char) :
    p.capture (line ++ [e]) = p.capture line := by
  have htoken : Steady e p.behindToken :=
    steady_behindPart hp.token (steady_behindBlanks he (steady_carried he hp))
  apply steady_leftmost
  rw [here.eq_def]
  cases hs : p.sentinel with
  | none => exact htoken
  | some sentinel =>
    exact steady_behindPart (hp.sentinel sentinel hs) (steady_behindBlanks he htoken)

end Pattern

namespace Markers

/-- No character of the markers is taken for `e`. -/
structure AvoidedBy (m : Markers) (e : Char) : Prop where
  sentinel : Avoids e m.sentinel
  statementToken : Avoids e m.statementToken
  parametersToken : Avoids e m.parametersToken
  severities : ∀ severity ∈ m.severities, Avoids e severity

variable {m : Markers}

theorem statement?_append (he : Trailing e) (hm : m.AvoidedBy e) (line : List Char) :
    m.statement? (line ++ [e]) = m.statement? line :=
  Pattern.capture_append he ⟨by simpa [pattern] using hm.sentinel, hm.statementToken, hm.severities⟩ line

private theorem isPrefixOf_append {part : List Char} (h : Avoids e part) (s : List Char) :
    part.isPrefixOf (s ++ [e]) = part.isPrefixOf s := by
  induction part generalizing s with
  | nil => simp
  | cons k part ih =>
    have hk : (k == e) = false := by
      rw [beq_eq_false_iff_ne]
      rintro rfl
      simpa [sameFolded] using h k List.mem_cons_self
    have hrest : Avoids e part := fun k hk => h k (List.mem_cons_of_mem _ hk)
    cases s with
    | nil => simp [List.isPrefixOf, hk]
    | cons c s => simp [List.isPrefixOf, ih hrest]

private theorem looseParameters?_append (he : Trailing e) (hm : m.AvoidedBy e)
    (line : List Char) : m.looseParameters? (line ++ [e]) = m.looseParameters? line := by
  have hcapture : m.loosePattern.capture (line ++ [e]) = m.loosePattern.capture line :=
    Pattern.capture_append he ⟨by simp [loosePattern], hm.parametersToken, hm.severities⟩ line
  have hstart : m.parametersToken.isPrefixOf (trimStart (line ++ [e])) =
      m.parametersToken.isPrefixOf (trimStart line) := by
    rw [trimStart_append_blank he.blank]
    split
    case isTrue hs => rw [List.isEmpty_iff.mp hs]
    case isFalse => exact isPrefixOf_append hm.parametersToken _
  rw [looseParameters?, looseParameters?, hstart, hcapture]

theorem parameters?_append (he : Trailing e) (hm : m.AvoidedBy e) (line : List Char) :
    m.parameters? (line ++ [e]) = m.parameters? line := by
  rw [parameters?, parameters?, looseParameters?_append he hm, Pattern.capture_append he
    ⟨by simpa [pattern] using hm.sentinel, hm.parametersToken, hm.severities⟩]

theorem mentionsParameters_append (hm : m.AvoidedBy e) (line : List Char) :
    m.mentionsParameters (line ++ [e]) = m.mentionsParameters line := by
  have hstart := isPrefixOf_append hm.parametersToken
  rw [mentionsParameters, mentionsParameters]
  induction line with
  | nil =>
    have h := hstart []
    rw [List.nil_append] at h
    change (m.parametersToken.isPrefixOf [e] || m.parametersToken.isEmpty) = _
    rw [h]
    cases m.parametersToken <;> rfl
  | cons c line ih =>
    have h := hstart (c :: line)
    rw [List.cons_append] at h ⊢
    rw [occursIn, h, ih, occursIn]

/-- Nothing in the standard markers is taken for a carriage return. -/
theorem standard_avoids_return : standard.AvoidedBy '\r' where
  sentinel := by decide
  statementToken := by decide
  parametersToken := by decide
  severities := by decide

end Markers

end SqlRecovery.Marker
