import SqlRecovery.Proofs.Sql.Keys
import SqlRecovery.Sql.Layout.Query

/-! Whether a phrase is spelled at a place of a text on one line can be told from the characters that
are not blank and their marks. -/
namespace SqlRecovery.Sql
open Text

/-- Words of letters with one space between them; `g` tells whether a letter stands before. -/
def isPhrase (g : Bool) : List Char → Bool
  | [] => g
  | k :: p => if k == ' ' then g && isPhrase false p else k.isAlpha && isPhrase true p

/-- The phrase is spelled by the first marked characters, and no name goes on behind it. -/
def spelledBy (g : Bool) : List Char → List (Char × Bool) → Bool
  | [], [] => true
  | [], x :: _ => !x.2
  | k :: p, ks =>
    if k == ' ' then spelledBy false p ks
    else match ks with
      | [] => false
      | x :: ks => sameLetter k x.1 && x.2 == g && spelledBy true p ks

/-- The phrase stands at the start of the text, and no name goes on behind it. -/
def spelled : List Char → List Char → Bool
  | [], s => !startsName s
  | _ :: _, [] => false
  | k :: p, c :: s => sameLetter k c && spelled p s

theorem spells_spots (p : List Char) (n : Nesting) (g : Bool) (s : List Char) :
    Scan.spells p (Scan.spots n g s) = spelled p s := by
  induction p generalizing n g s with
  | nil => cases s <;> rfl
  | cons k p ih =>
    cases s with
    | nil => rfl
    | cons c s => rw [Scan.spots, Scan.spells, ih, spelled]

theorem startsWithWord_eq (word : String) (s : List Char) :
    Layout.startsWithWord word s = spelled word.toList s := by
  rw [Layout.startsWithWord]
  generalize word.toList = p
  induction p generalizing s with
  | nil => cases s <;> rfl
  | cons k p ih =>
    cases s with
    | nil => rfl
    | cons c s =>
      rw [dropLetters?, spelled]
      cases sameLetter k c with
      | false => rfl
      | true => exact ih s

variable {p s : List Char}

theorem isNameChar_of_isAlpha {c : Char} (h : c.isAlpha = true) : isNameChar c = true := by
  rw [isNameChar, Char.isAlphanum, h]
  rfl

theorem binds_of_isAlpha {c : Char} (h : c.isAlpha = true) : binds c = true := by
  rw [binds, not_blank_of_isAlpha h, isNameChar_of_isAlpha h]
  rfl

/-- A phrase begins with a letter. -/
theorem exists_of_isPhrase (h : isPhrase false p = true) :
    ∃ k q, p = k :: q ∧ k ≠ ' ' ∧ k.isAlpha = true ∧ isPhrase true q = true := by
  cases p with
  | nil => cases h
  | cons k q =>
    rw [isPhrase] at h
    split at h
    case isTrue => cases h
    case isFalse hk =>
      rw [Bool.and_eq_true] at h
      exact ⟨k, q, rfl, by simpa using hk, h⟩

private theorem spelledBy_letter {k : Char} (hk : k ≠ ' ') (g : Bool) (x : Char × Bool)
    (ks : List (Char × Bool)) :
    spelledBy g (k :: p) (x :: ks) = (sameLetter k x.1 && x.2 == g && spelledBy true p ks) := by
  rw [spelledBy, if_neg (by simpa using hk)]

private theorem spelledBy_nil_keys (g : Bool) (s : List Char) :
    spelledBy g [] (keys false s) = true := by
  rw [keys_false false]
  cases keys false s <;> rfl

/-- A letter is not found where a blank stands, nor where only a blank was to be passed. -/
private theorem spelledBy_true_keys {k : Char} (hk : k ≠ ' ') (s : List Char) :
    spelledBy true (k :: p) (keys false s) = false := by
  rw [keys_false false]
  cases keys false s with
  | nil =>
    rw [unmark, spelledBy, if_neg (by simpa using hk)]
  | cons x ks =>
    rw [unmark, spelledBy_letter hk]
    simp

private theorem spelled_nil_eq (hs : Tight s) :
    spelled [] s = spelledBy true [] (keys true s) := by
  cases s with
  | nil => rfl
  | cons c s =>
    cases hc : isBlank c with
    | true =>
      obtain ⟨rfl, -⟩ := hs.1 hc
      rw [keys_cons_of_blank hc, spelledBy_nil_keys]
      rfl
    | false =>
      rw [keys_cons_of_not_blank hc, Bool.true_and]
      rfl

private theorem spelled_space_eq (hp : isPhrase false p = true) (hs : Tight s)
    (ih : ∀ {s : List Char}, Tight s → (s.head?.map isBlank).getD false = false →
      spelled p s = spelledBy false p (keys false s)) :
    spelled (' ' :: p) s = spelledBy true (' ' :: p) (keys true s) := by
  have hright : ∀ ks, spelledBy true (' ' :: p) ks = spelledBy false p ks := by
    intro ks
    cases ks <;> rfl
  obtain ⟨k, q, rfl, hk, halpha, -⟩ := exists_of_isPhrase hp
  rw [hright]
  cases s with
  | nil => rw [keys_nil, spelledBy, if_neg (by simpa using hk), spelled]
  | cons c s =>
    cases hc : isBlank c with
    | true =>
      obtain ⟨rfl, hnext⟩ := hs.1 hc
      rw [keys_cons_of_blank hc, spelled, ih hs.2 hnext]
      rfl
    | false =>
      have hspace : sameLetter ' ' c = false := by
        rw [← Bool.not_eq_true]
        intro hsame
        obtain rfl := eq_of_sameLetter rfl hsame
        cases hc
      have hletter : (sameLetter k c && (true && isNameChar c) == false) = false := by
        cases hsame : sameLetter k c with
        | false => rfl
        | true =>
          rw [isNameChar_of_isAlpha ((isAlpha_of_sameLetter hsame).trans halpha)]
          rfl
      rw [keys_cons_of_not_blank hc, spelledBy_letter hk, hletter, spelled, hspace]
      rfl

private theorem spelled_letter_eq {g : Bool} {k : Char} (hk : k ≠ ' ') (halpha : k.isAlpha = true)
    (hs : Tight s) (hstart : g = false → (s.head?.map isBlank).getD false = false)
    (ih : ∀ {s : List Char}, Tight s → spelled p s = spelledBy true p (keys true s)) :
    spelled (k :: p) s = spelledBy g (k :: p) (keys g s) := by
  cases s with
  | nil => rw [keys_nil, spelledBy, if_neg (by simpa using hk), spelled]
  | cons c s =>
    cases hc : isBlank c with
    | true =>
      have hletter : sameLetter k c = false := by
        rw [← Bool.not_eq_true]
        intro hsame
        rw [not_blank_of_isAlpha ((isAlpha_of_sameLetter hsame).trans halpha)] at hc
        cases hc
      cases g with
      | false => exact absurd (hstart rfl) (by simp [hc])
      | true =>
        rw [keys_cons_of_blank hc, spelledBy_true_keys hk, spelled, hletter]
        rfl
    | false =>
      rw [keys_cons_of_not_blank hc, spelledBy_letter hk, spelled]
      dsimp only
      cases hsame : sameLetter k c with
      | false => rfl
      | true =>
        have hc' := (isAlpha_of_sameLetter hsame).trans halpha
        rw [isNameChar_of_isAlpha hc', binds_of_isAlpha hc', ih hs.2]
        simp

theorem spelled_eq {g : Bool} (hp : isPhrase g p = true) (hs : Tight s)
    (hstart : g = false → (s.head?.map isBlank).getD false = false) :
    spelled p s = spelledBy g p (keys g s) := by
  induction p generalizing g s with
  | nil =>
    obtain rfl : g = true := hp
    exact spelled_nil_eq hs
  | cons k p ih =>
    rw [isPhrase] at hp
    split at hp
    case isTrue hk =>
      obtain rfl := beq_iff_eq.mp hk
      rw [Bool.and_eq_true] at hp
      obtain ⟨rfl, hp⟩ := hp
      exact spelled_space_eq hp hs fun hs hnext => ih hp hs fun _ => hnext
    case isFalse hk =>
      rw [Bool.and_eq_true] at hp
      have hne : k ≠ ' ' := by simpa using hk
      exact spelled_letter_eq hne hp.1 hs hstart fun hs => ih hp.2 hs fun h => by cases h

section LetterCase
variable {x y : List Char} {d : Char}

theorem sameLetters_cons (k c : Char) (p x : List Char) :
    sameLetters (k :: p) (c :: x) = (sameLetter k c && sameLetters p x) := rfl

theorem length_of_sameLetters (h : sameLetters p x = true) : x.length = p.length := by
  have hmap := congrArg List.length (beq_iff_eq.mp h)
  rw [List.length_map, List.length_map] at hmap
  exact hmap.symm

theorem sameLetters_drop (h : sameLetters p x = true) (i : Nat) :
    sameLetters (p.drop i) (x.drop i) = true := by
  rw [sameLetters, List.map_drop, List.map_drop, beq_iff_eq.mp h, beq_self_eq_true]

private theorem isNameChar_congr {c : Char} (h : sameLetter c d = true) :
    isNameChar c = isNameChar d := by
  cases hc : c.isAlpha with
  | true =>
    rw [isNameChar_of_isAlpha hc, isNameChar_of_isAlpha ((isAlpha_of_sameLetter h).trans hc)]
  | false => rw [eq_of_sameLetter hc h]

/-- In whatever letter case the text is written. -/
theorem spelled_congr (h : sameLetters x y = true) : spelled p x = spelled p y := by
  induction p generalizing x y with
  | nil =>
    match x, y, h with
    | [], [], _ => rfl
    | c :: x, d :: y, h =>
      rw [sameLetters_cons, Bool.and_eq_true] at h
      exact congrArg (!·) (isNameChar_congr h.1)
  | cons k p ih =>
    match x, y, h with
    | [], [], _ => rfl
    | c :: x, d :: y, h =>
      rw [sameLetters_cons, Bool.and_eq_true] at h
      have hletter : sameLetter k c = sameLetter k d := by
        rw [sameLetter, sameLetter, beq_iff_eq.mp h.1]
      rw [spelled, spelled, hletter, ih h.2]

theorem spelled_append (h : sameLetters p x = true) (y : List Char) :
    spelled p (x ++ y) = !startsName y := by
  induction p generalizing x with
  | nil =>
    obtain rfl := List.length_eq_zero_iff.mp (length_of_sameLetters h)
    rfl
  | cons k p ih =>
    cases x with
    | nil => cases h
    | cons c x =>
      rw [sameLetters_cons, Bool.and_eq_true] at h
      rw [List.cons_append, spelled, h.1, Bool.true_and, ih h.2]

/-- A phrase is on one line, in whatever letter case it is written. -/
private theorem tight_of_sameLetters {g : Bool} (hp : isPhrase g p = true)
    (h : sameLetters p x = true) : Tight x ∧ (∀ c ∈ x.getLast?, isBlank c = false) ∧
      (g = false → ∃ c y, x = c :: y ∧ isBlank c = false) := by
  induction p generalizing g x with
  | nil =>
    obtain rfl := List.length_eq_zero_iff.mp (length_of_sameLetters h)
    refine ⟨trivial, (fun c hc => by cases hc), fun hg => ?_⟩
    rw [hg] at hp
    cases hp
  | cons k p ih =>
    cases x with
    | nil => cases h
    | cons c x =>
      rw [sameLetters_cons, Bool.and_eq_true] at h
      rw [isPhrase] at hp
      split at hp
      case isTrue hk =>
        rw [Bool.and_eq_true] at hp
        obtain rfl := beq_iff_eq.mp hk
        obtain rfl := eq_of_sameLetter rfl h.1
        obtain ⟨htight, hlast, hhead⟩ := ih hp.2 h.2
        obtain ⟨d, y, rfl, hd⟩ := hhead rfl
        refine ⟨⟨fun _ => ⟨rfl, hd⟩, htight⟩, hlast, fun hg => ?_⟩
        rw [hg] at hp
        cases hp.1
      case isFalse =>
        rw [Bool.and_eq_true] at hp
        obtain ⟨htight, hlast, -⟩ := ih hp.2 h.2
        have hc := not_blank_of_isAlpha ((isAlpha_of_sameLetter h.1).trans hp.1)
        refine ⟨⟨fun hblank => ?_, htight⟩, ?_, fun _ => ⟨c, x, rfl, hc⟩⟩
        · rw [hc] at hblank
          cases hblank
        · cases x with
          | nil =>
            rintro d ⟨⟩
            exact hc
          | cons d y => exact hlast

theorem neat_of_sameLetters (hp : isPhrase false p = true) (h : sameLetters p x = true) : Neat x := by
  obtain ⟨htight, hlast, hhead⟩ := tight_of_sameLetters hp h
  obtain ⟨c, y, rfl, hc⟩ := hhead rfl
  refine .of_tight (List.cons_ne_nil c y) htight ?_ hlast
  rintro d ⟨⟩
  exact hc

end LetterCase

end SqlRecovery.Sql
